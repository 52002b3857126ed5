/-
# Agreeing and opposing

A worker opposes a height when its block does not come in time, and remembers that only by moving
`visualBlockNumber` to it.  If the block comes after all, `newWorkLoop` passes over it.  The loops
that send acks again do not: they agree to whatever the head is.  And `ackMonitorLoop` sets
`visualBlockNumber` back to zero, as does a chain head event for the genesis block.

`acks_consistent`: in a run in which acks are sent again only for the block that `newWorkLoop` has
taken up, and `visualBlockNumber` is not set back, no height gets both acks.
-/
import ProbeChain.Miner.Worker

namespace ProbeChain

/-! ## 1. The acks and the counters -/

namespace Voting

/-- All acks are for heights up to `visualBlockNumber`, and none opposes the block that was taken up
last or the genesis block. -/
structure Consistent (s : Voting) : Prop where
  agreed_le : ∀ n, (n, ackTypeAgree) ∈ s.acks → n ≤ s.visualBlockNumber
  opposed_le : ∀ n, (n, ackTypeOppose) ∈ s.acks → 0 < n ∧ n ≤ s.visualBlockNumber
  effect_le : s.effectBlockNumber ≤ s.visualBlockNumber
  effect_free : (s.effectBlockNumber, ackTypeOppose) ∉ s.acks
  apart : ∀ n, (n, ackTypeAgree) ∈ s.acks → (n, ackTypeOppose) ∉ s.acks

variable {s : Voting} {n : Nat}

theorem agree_ne_oppose : ackTypeAgree ≠ ackTypeOppose := by decide

section
variable (h : s.Consistent)
include h

theorem Consistent.genesis_free : (0, ackTypeOppose) ∉ s.acks :=
  fun hmem => absurd (h.opposed_le 0 hmem).1 (lt_irrefl 0)

theorem Consistent.agree (v : View) (hle : n ≤ s.visualBlockNumber)
    (hfree : (n, ackTypeOppose) ∉ s.acks) : (s.sendAck v n ackTypeAgree).Consistent := by
  unfold sendAck
  split
  case isFalse => exact h
  have hoppose : ∀ m, (m, ackTypeOppose) ∈ (n, ackTypeAgree) :: s.acks ↔
      (m, ackTypeOppose) ∈ s.acks := by
    intro m
    simp [agree_ne_oppose.symm]
  refine ⟨?_, ?_, h.effect_le, ?_, ?_⟩
  · intro m hm
    rcases List.mem_cons.mp hm with heq | hm
    · obtain rfl : m = n := (Prod.mk.inj heq).1
      exact hle
    · exact h.agreed_le m hm
  · intro m hm
    exact h.opposed_le m ((hoppose m).mp hm)
  · rw [hoppose]
    exact h.effect_free
  · intro m hm
    rw [hoppose]
    rcases List.mem_cons.mp hm with heq | hm
    · obtain rfl : m = n := (Prod.mk.inj heq).1
      exact hfree
    · exact h.apart m hm

theorem Consistent.oppose (v : View) (hpos : 0 < n) (hle : n ≤ s.visualBlockNumber)
    (heffect : s.effectBlockNumber ≠ n) (hfree : (n, ackTypeAgree) ∉ s.acks) :
    (s.sendAck v n ackTypeOppose).Consistent := by
  unfold sendAck
  split
  case isFalse => exact h
  have hagree : ∀ m, (m, ackTypeAgree) ∈ (n, ackTypeOppose) :: s.acks ↔
      (m, ackTypeAgree) ∈ s.acks := by
    intro m
    simp [agree_ne_oppose]
  refine ⟨?_, ?_, h.effect_le, ?_, ?_⟩
  · intro m hm
    exact h.agreed_le m ((hagree m).mp hm)
  · intro m hm
    rcases List.mem_cons.mp hm with heq | hm
    · obtain rfl : m = n := (Prod.mk.inj heq).1
      exact ⟨hpos, hle⟩
    · exact h.opposed_le m hm
  · intro hmem
    rcases List.mem_cons.mp hmem with heq | hmem
    · exact heffect (Prod.mk.inj heq).1
    · exact h.effect_free hmem
  · intro m hm hmem
    have hold := (hagree m).mp hm
    rcases List.mem_cons.mp hmem with heq | hmem
    · obtain rfl : m = n := (Prod.mk.inj heq).1
      exact hfree hold
    · exact h.apart m hold hmem

theorem Consistent.raise (hle : s.visualBlockNumber ≤ n) :
    ({ s with visualBlockNumber := n } : Voting).Consistent := by
  refine ⟨?_, ?_, h.effect_le.trans hle, h.effect_free, h.apart⟩
  · intro m hm
    exact (h.agreed_le m hm).trans hle
  · intro m hm
    exact ⟨(h.opposed_le m hm).1, (h.opposed_le m hm).2.trans hle⟩

/-- A block is taken up: a new one, or the genesis block while nothing else was seen. -/
theorem Consistent.takeUp (hn : s.visualBlockNumber < n ∨ n = 0 ∧ s.visualBlockNumber = 0) :
    ({ s with visualBlockNumber := n, effectBlockNumber := n } : Voting).Consistent := by
  have hraised := h.raise (show s.visualBlockNumber ≤ n by omega)
  refine ⟨hraised.agreed_le, hraised.opposed_le, le_rfl, ?_, h.apart⟩
  intro hmem
  have := h.opposed_le n hmem
  omega

/-- The next height is given up.  The worker has not agreed to it: its acks end below. -/
theorem Consistent.reject (v : View) : ({ s.sendAck v (s.visualBlockNumber + 1)
    ackTypeOppose with visualBlockNumber := s.visualBlockNumber + 1 } : Voting).Consistent := by
  have hfree : (s.visualBlockNumber + 1, ackTypeAgree) ∉ s.acks := by
    intro hmem
    exact absurd (h.agreed_le _ hmem) (Nat.not_succ_le_self _)
  have heffect : s.effectBlockNumber ≠ s.visualBlockNumber + 1 := by
    have := h.effect_le
    omega
  have hopposed := (h.raise (Nat.le_succ _)).oppose v (Nat.succ_pos _) le_rfl heffect hfree
  cases hsigns : v.signs <;> simpa [sendAck, hsigns] using hopposed

end

end Voting

/-! ## 2. The rounds -/

namespace Worker

variable {config : WorkerConfig} {w : Worker} {v : View}

@[simp] theorem stopTimers_toVoting (w : Worker) (blockNumber : Nat) :
    (w.stopTimers blockNumber).toVoting = w.toVoting := by
  unfold stopTimers
  split <;> rfl

@[simp] theorem resendGenesis_toVoting (w : Worker) (blockNumber : Nat) :
    (w.resendGenesis config blockNumber).toVoting = w.toVoting := by
  unfold resendGenesis
  split <;> rfl

@[simp] theorem produceNext_toVoting (w : Worker) (blockNumber : Nat) :
    (w.produceNext config v blockNumber).toVoting = w.toVoting := by
  unfold produceNext
  split
  · split <;> rfl
  · rfl

theorem consistent_chainHead (h : w.Consistent) {block : Option Nat}
    (hgenesis : block.getD w.currentBlock = 0 → w.visualBlockNumber = 0) :
    (w.chainHead config v block).Consistent := by
  unfold chainHead
  generalize block.getD w.currentBlock = blockNumber at hgenesis ⊢
  dsimp only
  split
  · split <;> exact h
  rename_i hnew
  have htaken :=
    h.takeUp (show w.visualBlockNumber < blockNumber ∨ blockNumber = 0 ∧ w.visualBlockNumber = 0 by
    omega)
  split
  · rw [produceNext_toVoting, resendGenesis_toVoting]
    simpa [sendAck] using htaken.agree v le_rfl htaken.effect_free
  · rwa [stopTimers_toVoting]

/-- A deadline is set for the next height; the rest stays. -/
theorem consistent_countAcks (h : w.Consistent) : (w.countAcks config v).Consistent := by
  have hdeadline :
      ({ w.toVoting with rejectBlockNumber := w.visualBlockNumber + 1 } : Voting).Consistent :=
    ⟨h.agreed_le, h.opposed_le, h.effect_le, h.effect_free, h.apart⟩
  unfold countAcks
  dsimp only
  generalize (if w.visualBlockNumber = w.currentBlock then v.agreeAckNum else 0) = agreeAckNum
  split
  · split
    · exact h
    · split <;> exact h
  · split
    · split
      · exact hdeadline
      · exact h
    · exact h

theorem consistent_timerSealDealine (h : w.Consistent) : (w.timerSealDealine v).Consistent := by
  unfold timerSealDealine
  split
  case isFalse => exact h
  rename_i hnext
  rw [hnext]
  exact h.reject v

/-! ## 3. Runs -/

/-- Acks are sent again only for the block that was taken up last, and `visualBlockNumber` is not
set back. -/
def Settled (config : WorkerConfig) (w : Worker) : Event → Prop
  | .chainHead block _ => block.getD w.currentBlock = 0 → w.visualBlockNumber = 0
  | .commitAck _ => ∀ now, w.commitAckLoop = .sending now → w.currentBlock = w.effectBlockNumber
  | .ackMonitor _ => 1 < config.validatorWitnessCount → w.currentBlock ≤ w.lastHeight →
      if w.stuckCount + 1 < 3 then w.currentBlock = w.effectBlockNumber else w.visualBlockNumber = 0
  | _ => True

theorem consistent_agree_effect (h : w.Consistent) (hcur : w.currentBlock = w.effectBlockNumber) :
    (w.sendAck v w.currentBlock ackTypeAgree).Consistent := by
  rw [hcur]
  exact h.agree v h.effect_le h.effect_free

theorem consistent_ackMonitorRound (h : w.Consistent)
    (hsettled : w.Settled config (.ackMonitor v)) :
    (w.ackMonitorRound config v).Consistent := by
  unfold ackMonitorRound
  split
  · exact h
  rename_i hcount
  split
  · exact h
  rename_i hstuck
  have hcond := hsettled (by omega) (by omega)
  split
  next hthird =>
    rw [if_pos hthird] at hcond
    exact consistent_agree_effect h hcond
  next hthird =>
    rw [if_neg hthird] at hcond
    -- Setting it back changes nothing.
    have hsame : ({ w.toVoting with visualBlockNumber := 0 } : Voting) = w.toVoting := by
      rw [← hcond]
    exact hsame ▸ h

theorem consistent_handle {e : Event} (h : w.Consistent) (hsettled : w.Settled config e) :
    (w.handle config e).Consistent := by
  cases e with
  | chainHead block v => exact consistent_chainHead h hsettled
  | ack number v =>
    rw [handle, ack]
    split
    · exact h
    · exact consistent_countAcks h
  | behaviorProof number v =>
    rw [handle, behaviorProof]
    split
    · exact h
    · exact consistent_countAcks h
  | timerDelaySeal v =>
    rw [handle, timerDelaySeal]
    split <;> exact h
  | timerSealDealine v => exact consistent_timerSealDealine h
  | poll curBlockNum v =>
    rw [handle, poll]
    repeat' split
    all_goals exact h
  | stellarSpeedTick v =>
    rw [handle, stellarSpeedTick]
    repeat' split
    all_goals exact h
  | genesisAck v =>
    rw [handle, genesisAck]
    split
    · exact h
    split
    · exact h
    · exact h.agree v (Nat.zero_le _) h.genesis_free
  | commitAck v =>
    rw [handle, commitAckRound]
    split
    · exact h
    next now hsending =>
      exact consistent_agree_effect h (hsettled now hsending)
    · exact h
  | ackMonitor v => exact consistent_ackMonitorRound h hsettled
  | setProbebase | setRunning | newHead | sendWork | mainLoop => exact h

theorem consistent_newWorker (probebase : Address) (head : Nat) :
    (newWorker probebase head).Consistent := by
  constructor <;> simp [newWorker]

/-- **No height gets both acks**, in every run whose steps are settled. -/
theorem acks_consistent (config : WorkerConfig) (probebase : Address) (head : Nat)
    (events : List Event) (w : Worker)
    (hsettled : Run.Along (step config) (Settled config) events (newWorker probebase head))
    (hrun : Run.run (step config) events (newWorker probebase head) = some w) (n : Nat) :
    ¬ ((n, ackTypeAgree) ∈ w.acks ∧ (n, ackTypeOppose) ∈ w.acks) := by
  have hstep : ∀ {s e s'}, s.Consistent → s.Settled config e → step config s e = some s' →
      s'.Consistent := by
    intro s e s' hs he hstep
    cases hstep
    exact consistent_handle hs he
  have h :=
    @Run.run_inv _ _ _ _ (fun s => s.Consistent) hstep _ _ _ (consistent_newWorker probebase head)
    hsettled hrun
  rintro ⟨hagree, hoppose⟩
  exact h.apart n hagree hoppose

/-- One of four validators. -/
def fourValidators : WorkerConfig where
  chainConfig := { londonBlock := none, stellarSpeedBlock := none }
  stellarSpeed := none
  validatorWitnessCount := 4

/-- A validator that is not the next producer and has the acks of all. -/
def waitingView : View where
  imProducer := fun _ => false
  imValidatorWorkNode := fun _ => true
  agreeAckNum := 4
  opposeAckNum := 0
  checkBehaviorProofNumber := true
  validatorAddr := 0
  parentAcks := 0
  packs := false
  signs := true

/-- Block 1 does not come in time. -/
def missedDeadline : List Event :=
  [.chainHead none waitingView, .ack 0 waitingView, .timerSealDealine waitingView]

/-- The worker opposes block 1 and goes on with block 2. -/
theorem acks_consistent_missed :
    (Run.run (step fourValidators) (missedDeadline ++ [.newHead 2, .chainHead (some 2) waitingView])
      (newWorker 1 0)).map (·.acks) =
        some [(2, ackTypeAgree), (1, ackTypeOppose), (0, ackTypeAgree)] ∧
    ¬ ((1, ackTypeAgree) ∈ [(2, ackTypeAgree), (1, ackTypeOppose), (0, ackTypeAgree)] ∧
      (1, ackTypeOppose) ∈ [(2, ackTypeAgree), (1, ackTypeOppose), (0, ackTypeAgree)]) := by
  refine ⟨rfl, ?_⟩
  refine acks_consistent fourValidators 1 0
    (missedDeadline ++ [.newHead 2, .chainHead (some 2) waitingView]) _
    ?_ rfl 1
  refine ⟨fun _ => rfl, fun _ _ => ⟨trivial, fun _ _ => ⟨trivial, fun _ _ => ⟨trivial, fun _ _ =>
    ⟨?_, fun _ _ => trivial⟩⟩⟩⟩⟩
  intro hzero
  cases hzero

/-- Block 1 comes late.  `newWorkLoop` passes over it, and the second round of `ackMonitorLoop`
agrees to it. -/
theorem height_gets_both_acks :
    ∃ w, Run.run (step fourValidators)
      (missedDeadline ++ [.newHead 1, .chainHead (some 1) waitingView,
        .ackMonitor waitingView, .ackMonitor waitingView]) (newWorker 1 0) = some w ∧
      (1, ackTypeAgree) ∈ w.acks ∧ (1, ackTypeOppose) ∈ w.acks :=
  ⟨_, rfl, by decide, by decide⟩

end Worker

end ProbeChain
