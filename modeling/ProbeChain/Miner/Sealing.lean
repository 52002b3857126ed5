/-
# How often a height is signed

`commit` keeps the last number it has sent to be sealed, so `newWorkLoop` asks for a height once.
That number is a variable of `newWorkLoop`: the ticks of `stellarSpeedLoop` do not look at it, and
two calls of `commit` that overlap both pass its test.

`seals_once_iff`: a worker whose calls of `commit` do not overlap signs each height above its head
at most once, until the head changes, exactly if no tick of `stellarSpeedLoop` can produce a block.
-/
import ProbeChain.Miner.Worker

namespace ProbeChain

open List

/-! ## 1. Production without ticks -/

namespace Production

/-- What waits for `mainLoop` and what was signed since the head changed are different heights, and
none of them is above `sealedBlockNumber`; at most one call of `commit` is under way, for a higher
one. -/
structure Once (p : Production) : Prop where
  bounded : ∀ req ∈ p.requests ++ p.sealedSince, req.newBlockNumber ≤ p.sealedBlockNumber
  distinct : ((p.requests ++ p.sealedSince).map (·.newBlockNumber)).Nodup
  testing : p.testing = [] ∨ ∃ n, p.testing = [n] ∧ p.sealedBlockNumber < n

variable {p q : Production}

theorem Once.of_subperm (h : p.Once) (hreqs : (q.requests ++ q.sealedSince).Subperm
    (p.requests ++ p.sealedSince)) (hsealed : q.sealedBlockNumber = p.sealedBlockNumber)
    (htesting : q.testing = p.testing) : q.Once where
  bounded := by
    intro req hreq
    rw [hsealed]
    exact h.bounded req (hreqs.subset hreq)
  distinct := by
    obtain ⟨reqs, hperm, hsub⟩ := hreqs
    exact (hperm.map _).nodup_iff.mp (h.distinct.sublist (hsub.map _))
  testing := by
    rw [hsealed, htesting]
    exact h.testing

theorem Once.commit (h : p.Once) (hfree : p.testing = []) (n : Nat) : (p.commit n).Once := by
  unfold Production.commit
  split
  · exact h
  split
  · exact h
  rename_i hnew _
  refine ⟨h.bounded, h.distinct, .inr ⟨n, ?_, by simpa using hnew⟩⟩
  rw [hfree]

/-- The number that is sent is above all that were sent before. -/
theorem Once.sendWork (h : p.Once) (visual n : Nat) : (p.sendWork visual n).Once := by
  unfold Production.sendWork
  split
  case isFalse => exact h
  rename_i hmem
  rcases h.testing with hnil | ⟨m, hm, habove⟩
  · simp [hnil] at hmem
  obtain rfl : n = m := by simpa [hm] using hmem
  have hfresh : ∀ req ∈ p.requests ++ p.sealedSince, req.newBlockNumber < n := by
    intro req hreq
    exact (h.bounded req hreq).trans_lt habove
  have hperm : ∀ req : NewWorkReq, (p.requests ++ [req] ++ p.sealedSince).Perm
      (req :: (p.requests ++ p.sealedSince)) := by
    intro req
    rw [append_assoc]
    exact perm_middle
  refine ⟨?_, ?_, .inl (by simp [hm])⟩
  · intro req hreq
    rcases mem_cons.mp ((hperm _).mem_iff.mp hreq) with rfl | hold
    · exact le_rfl
    · exact (hfresh req hold).le
  · rw [((hperm _).map _).nodup_iff, map_cons, nodup_cons]
    refine ⟨?_, h.distinct⟩
    intro hin
    obtain ⟨req, hreq, heq⟩ := mem_map.mp hin
    exact absurd heq (hfresh req hreq).ne

theorem Once.mainLoop (h : p.Once) (config : WorkerConfig) (v : View) :
    (p.mainLoop config v).Once := by
  unfold Production.mainLoop
  split
  · exact h
  rename_i req requests hreqs
  -- Taken off the queue, and then signed or not.
  have hdropped : ({ p with requests := requests } : Production).Once := by
    refine h.of_subperm ?_ rfl rfl
    rw [hreqs]
    exact (sublist_cons_self req _).subperm
  have hsigned :
      ({ p with requests := requests, sealedSince := req :: p.sealedSince } : Production).Once := by
    refine h.of_subperm ?_ rfl rfl
    rw [hreqs]
    exact perm_middle.subperm
  unfold validatorCommitNewWork
  repeat' split
  all_goals first | exact hdropped | exact hsigned

theorem Once.newHead (h : p.Once) (number : Nat) : (p.newHead number).Once := by
  refine h.of_subperm ?_ rfl rfl
  rw [Production.newHead, append_nil]
  exact (sublist_append_left ..).subperm

/-- The production is left alone, or `commit` is called once. -/
def MayCommit (p q : Production) : Prop := q = p ∨ ∃ n, q = p.commit n

theorem Once.of_mayCommit (h : p.Once) (hfree : p.testing = []) (hq : p.MayCommit q) : q.Once := by
  rcases hq with rfl | ⟨n, rfl⟩
  · exact h
  · exact h.commit hfree n

end Production

/-! ## 2. The rounds that call `commit` -/

namespace Worker

variable (config : WorkerConfig) (w : Worker) (v : View)

@[simp] theorem stopTimers_toProduction (blockNumber : Nat) :
    (w.stopTimers blockNumber).toProduction = w.toProduction := by
  unfold stopTimers
  split <;> rfl

@[simp] theorem resendGenesis_toProduction (blockNumber : Nat) :
    (w.resendGenesis config blockNumber).toProduction = w.toProduction := by
  unfold resendGenesis
  split <;> rfl

theorem mayCommit_commit (n : Nat) : w.MayCommit (w.commit n).toProduction := .inr ⟨n, rfl⟩

theorem mayCommit_produceNext (blockNumber : Nat) :
    w.MayCommit (w.produceNext config v blockNumber).toProduction := by
  unfold produceNext
  split
  · split
    · exact w.mayCommit_commit _
    · exact .inl rfl
  · exact .inl rfl

theorem mayCommit_chainHead (block : Option Nat) :
    w.MayCommit (w.chainHead config v block).toProduction := by
  unfold chainHead
  generalize block.getD w.currentBlock = blockNumber
  dsimp only
  split
  · split
    · exact w.mayCommit_commit _
    · exact .inl rfl
  · split
    · have h := mayCommit_produceNext config ((({ w with
        visualBlockNumber := blockNumber, effectBlockNumber := blockNumber }.stopTimers
          blockNumber).sendAck v blockNumber ackTypeAgree).resendGenesis config blockNumber)
            v blockNumber
      simpa [sendAck] using h
    · exact .inl (by simp)

theorem mayCommit_countAcks : w.MayCommit (w.countAcks config v).toProduction := by
  unfold countAcks
  dsimp only
  generalize (if w.visualBlockNumber = w.currentBlock then v.agreeAckNum else 0) = agreeAckNum
  split
  · split
    · exact w.mayCommit_commit _
    · split <;> exact .inl rfl
  · split
    · split <;> exact .inl rfl
    · exact .inl rfl

theorem mayCommit_timerDelaySeal : w.MayCommit (w.timerDelaySeal config v).toProduction := by
  unfold timerDelaySeal
  split
  · exact w.mayCommit_commit _
  · exact .inl rfl

theorem mayCommit_poll (curBlockNum : Nat) :
    w.MayCommit (w.poll config v curBlockNum).toProduction := by
  unfold poll
  split
  · exact .inl rfl
  split
  · exact .inl rfl
  split
  · exact .inr ⟨_, rfl⟩
  · exact .inl rfl

/-! ## 3. Runs -/

variable {config} {w}

/-- A call of `commit` is not interrupted by a round that can call it too. -/
def Undivided (w : Worker) : Event → Prop
  | .chainHead .. | .ack .. | .behaviorProof .. | .timerDelaySeal .. | .poll .. => w.testing = []
  | _ => True

theorem once_newWorker (probebase : Address) (head : Nat) : (newWorker probebase head).Once where
  bounded := fun _ hreq => absurd hreq not_mem_nil
  distinct := nodup_nil
  testing := .inl rfl

section
variable
  (hoff : config.startsStellarSpeedLoop = false ∨ config.chainConfig.stellarSpeedBlock = none)
include hoff

theorem stellarSpeedTick_of_off :
    w.stellarSpeedTick config v = w := by
  rw [stellarSpeedTick]
  rcases hoff with hloop | hfork
  · rw [if_pos hloop]
  · have hnot : config.chainConfig.isStellarSpeed w.currentBlock = false := by
      rw [ChainConfig.isStellarSpeed, hfork]
      rfl
    rw [if_pos hnot, ite_self, ite_self]

/-- The rounds that only send acks, or do nothing without the loop of ticks. -/
theorem once_handle {e : Event}
    (h : w.Once) (hcommit : w.Undivided e) : (w.handle config e).Once := by
  cases e with
  | setProbebase addr => exact h.of_subperm (List.Subperm.refl _) rfl rfl
  | setRunning running => exact h
  | newHead number => exact h.newHead number
  | chainHead block v => exact h.of_mayCommit hcommit (w.mayCommit_chainHead config v block)
  | ack number v =>
    rw [handle, ack]
    split
    · exact h
    · exact h.of_mayCommit hcommit (w.mayCommit_countAcks config v)
  | behaviorProof number v =>
    rw [handle, behaviorProof]
    split
    · exact h
    · exact h.of_mayCommit hcommit (w.mayCommit_countAcks config v)
  | timerDelaySeal v => exact h.of_mayCommit hcommit (w.mayCommit_timerDelaySeal config v)
  | timerSealDealine v =>
    rw [handle, timerSealDealine]
    split <;> exact h
  | poll curBlockNum v => exact h.of_mayCommit hcommit (w.mayCommit_poll config v curBlockNum)
  | sendWork newBlockNumber => exact h.sendWork w.visualBlockNumber newBlockNumber
  | mainLoop v => exact h.mainLoop config v
  | stellarSpeedTick v =>
    rw [handle, stellarSpeedTick_of_off v hoff]
    exact h
  | genesisAck v =>
    rw [handle, genesisAck]
    split
    · exact h
    · split <;> exact h
  | commitAck v =>
    rw [handle, commitAckRound]
    split <;> exact h
  | ackMonitor v =>
    rw [handle, ackMonitorRound]
    split
    · exact h
    split
    · exact h
    · split <;> exact h

theorem once_run {probebase : Address} {head : Nat} {events : List Event} {w : Worker}
    (hcommit : Run.Along (step config) Undivided events (newWorker probebase head))
    (hrun : Run.run (step config) events (newWorker probebase head) = some w) : w.Once := by
  have hstep : ∀ {s e s'}, s.Once → s.Undivided e → step config s e = some s' → s'.Once := by
    intro s e s' hs he hstep
    cases hstep
    exact once_handle hoff hs he
  exact @Run.run_inv _ _ _ _ (fun s => s.Once) hstep _ _ _
    (once_newWorker probebase head) hcommit hrun

end

/-! ## 4. Ticks -/

/-- A view with which a tick produces a block on the head `head`. -/
def tickView (config : WorkerConfig) (head : Nat) : View where
  imProducer := fun _ => false
  imValidatorWorkNode := fun _ => true
  agreeAckNum := 0
  opposeAckNum := 0
  checkBehaviorProofNumber := false
  validatorAddr := 0
  parentAcks := (config.witness (head + 1)).requiredAcks
  packs := true
  signs := false

def tickReq (head : Nat) : NewWorkReq :=
  ⟨head + 1, if (head + 1) % 2 = 0 then .effect else .visual⟩

/-- **A tick signs the next block**, whatever was signed before. -/
theorem stellarSpeedTick_seals {head : Nat} (hloop : config.startsStellarSpeedLoop = true)
    (hfork : config.chainConfig.isStellarSpeed head = true) (hhead : w.currentBlock = head)
    (hrunning : w.running = true) (hcoinbase : w.coinbase ≠ 0) :
    w.stellarSpeedTick config (tickView config head) =
      { w with sealedSince := tickReq head :: w.sealedSince } := by
  subst hhead
  simp [stellarSpeedTick, hloop, hfork, hrunning, tickView,
    Production.validatorCommitNewWork, tickReq]
  exact fun hzero => absurd hzero hcoinbase

/-- Two ticks on one head sign its successor twice. -/
theorem sealedSince_two_ticks {head : Nat} (hloop : config.startsStellarSpeedLoop = true)
    (hfork : config.chainConfig.isStellarSpeed head = true) : ∃ w,
    Run.run (step config) [.setRunning true, .stellarSpeedTick (tickView config head),
      .stellarSpeedTick (tickView config head)] (newWorker 1 head) = some w ∧
    w.sealedSince = [tickReq head, tickReq head] := by
  have hone : (1 : Address) ≠ 0 := by decide
  have hfirst :=
    @stellarSpeedTick_seals config { newWorker 1 head with running := true } head hloop hfork rfl
    rfl hone
  refine ⟨_, rfl, ?_⟩
  simp only [handle]
  rw [hfirst, stellarSpeedTick_seals hloop hfork rfl rfl hone]
  rfl

/-- **When a height is signed once.**  With calls of `commit` that do not overlap, in every run each
height above the head is signed at most once until the head changes, if and only if
`stellarSpeedLoop` is not started or its fork has no block. -/
theorem seals_once_iff (config : WorkerConfig) :
    (∀ (probebase : Address) (head : Nat) (events : List Event) (w : Worker),
        Run.Along (step config) Undivided events (newWorker probebase head) →
        Run.run (step config) events (newWorker probebase head) = some w →
        (w.sealedSince.map (·.newBlockNumber)).Nodup) ↔
      config.startsStellarSpeedLoop = false ∨ config.chainConfig.stellarSpeedBlock = none := by
  constructor
  · intro honce
    by_contra hon
    obtain ⟨hloop, hblock⟩ := not_or.mp hon
    obtain ⟨head, hhead⟩ := Option.ne_none_iff_exists'.mp hblock
    have hfork : config.chainConfig.isStellarSpeed head = true := by
      simp [ChainConfig.isStellarSpeed, hhead, isForked]
    obtain ⟨w, hrun, hsealed⟩ := sealedSince_two_ticks (Bool.eq_true_of_not_eq_false hloop) hfork
    have hundivided := @Run.along_of_forall _ _ (step config) Undivided [.setRunning true,
      .stellarSpeedTick (tickView config head), .stellarSpeedTick (tickView config head)]
      (by simp [Undivided]) (newWorker 1 head)
    have hdouble := honce 1 head _ w hundivided hrun
    rw [hsealed] at hdouble
    simp at hdouble
  · intro hoff probebase head events w hcommit hrun
    have h := (once_run hoff hcommit hrun).distinct
    rw [map_append] at h
    exact (nodup_append.mp h).2.1

/-- One of four validators, with `StellarSpeed` from the genesis block on. -/
def stellarSpeedWorker : WorkerConfig where
  chainConfig := { londonBlock := none, stellarSpeedBlock := some 0 }
  stellarSpeed := some { enabled := true, reducedAckQuorum := false }
  validatorWitnessCount := 4

/-- Two ticks before the first block is written: block 1 is signed twice. -/
theorem height_signed_twice :
    ∃ v w, Run.run (step stellarSpeedWorker)
      [.setRunning true, .stellarSpeedTick v, .stellarSpeedTick v]
        (newWorker 1 0) = some w ∧
      w.currentBlock = 0 ∧ w.sealedSince = [⟨1, .visual⟩, ⟨1, .visual⟩] :=
  ⟨tickView stellarSpeedWorker 0, _, rfl, rfl, rfl⟩

/-- Calls of `commit` that overlap do the same without a tick: the acks for the head come while a
goroutine polls for them. -/
example :
    let config : WorkerConfig := { stellarSpeedWorker with stellarSpeed := none }
    let v : View := { tickView config 0 with
      imProducer := fun _ => true, agreeAckNum := 4, checkBehaviorProofNumber := true }
    (Run.run (step config) [.chainHead none v, .ack 0 v, .poll 0 v, .sendWork 1, .sendWork 1,
      .mainLoop v, .mainLoop v] (newWorker 1 0)).map (·.sealedSince) =
        some [⟨1, .effect⟩, ⟨1, .effect⟩] := by
  decide

end Worker

end ProbeChain
