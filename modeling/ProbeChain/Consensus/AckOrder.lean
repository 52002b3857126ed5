/-
# What the answer for an ack depends on

The ack pool keeps what it has found out about an ack under `Id`, the last 32 bytes of the
signature, and `CheckAndGetNumAcks` takes one ack for each id.  Two acks by different signers can
have one id: then the one that is looked at first decides for both.

`ack_taken_iff` says that this is all there is to it.  On a chain that stands still, whatever else
arrives and in whatever order, an ack in the pool is taken if and only if it is wanted for itself,
as long as no other ack with its id arrives.
-/
import ProbeChain.Consensus.AckPool

namespace ProbeChain

open List Function

/-- What the answer should depend on: the ack and the chain. -/
def Ack.Wanted (K : Crypto) (bc : ChainView) (hash : Hash) (ackType : AckType) (ack : Ack) : Prop :=
  ack.ackType = ackType ∧ AckPool.ackResult K bc ack = .legal ∧
    (ackType = ackTypeAgree ∧ ack.blockHash = hash ∨ ackType = ackTypeOppose)

namespace AckPool

variable {K : Crypto} {bc : ChainView} {pool : AckPool} {a b : Ack}

/-! ## 1. What is kept about an ack -/

/-- Either nothing is known about the id, or it is what the ack itself gives. -/
def Cached (K : Crypto) (bc : ChainView) (a : Ack) (pool : AckPool) : Prop :=
  pool.check a.id = .uncheck ∨ pool.check a.id = ackResult K bc a

theorem Cached.checkIfNew (h : pool.Cached K bc a) (hb : b.id = a.id → b = a) :
    (pool.checkIfNew K bc b).Cached K bc a := by
  unfold AckPool.checkIfNew
  split
  · by_cases hid : b.id = a.id
    · rw [hb hid]
      exact .inr (update_self ..)
    · have hkept : (pool.checkAck K bc b).check a.id = pool.check a.id :=
        update_of_ne (Ne.symm hid) ..
      rwa [Cached, hkept]
  · exact h

theorem Cached.foldl_checkIfNew {acks : List Ack} (hacks : ∀ b ∈ acks, b.id = a.id → b = a) :
    ∀ {pool : AckPool}, pool.Cached K bc a →
      (acks.foldl (AckPool.checkIfNew K bc) pool).Cached K bc a := by
  induction acks with
  | nil => exact fun h => h
  | cons b acks ih =>
    intro pool h
    exact ih (fun c hc => hacks c (mem_cons_of_mem _ hc))
      (h.checkIfNew (hacks b mem_cons_self))

/-- Once looked at, the ack itself has decided. -/
theorem Cached.check_self (h : pool.Cached K bc a) :
    (pool.checkIfNew K bc a).check a.id = ackResult K bc a := by
  unfold AckPool.checkIfNew
  split
  · exact update_self ..
  next hknown =>
    exact h.resolve_left hknown

theorem foldl_forget_check (acks : List Ack) (id : Hash) : ∀ check : Hash → AckStatus,
    acks.foldl (fun check ack => update check ack.id .uncheck) check id = .uncheck ∨
      acks.foldl (fun check ack => update check ack.id .uncheck) check id = check id := by
  induction acks with
  | nil => exact fun check => .inr rfl
  | cons b acks ih =>
    intro check
    rcases ih (update check b.id .uncheck) with h | h
    · exact .inl h
    · rw [foldl_cons, h]
      by_cases hid : id = b.id
      · rw [hid]
        exact .inl (update_self ..)
      · exact .inr (update_of_ne hid ..)

theorem Cached.forget (h : pool.Cached K bc a) (n : UInt64) : (pool.forget n).Cached K bc a := by
  rcases foldl_forget_check (pool.getAcksByNum n) a.id pool.check with hnew | hnew
  · exact .inl hnew
  · rcases h with h | h
    · exact .inl (hnew.trans h)
    · exact .inr (hnew.trans h)

theorem Cached.remove (h : pool.Cached K bc a) (currNum : UInt64) :
    (pool.remove currNum).Cached K bc a := by
  unfold AckPool.remove
  split
  · exact h
  · generalize (pool.ackMap.keys.filter (· < currNum - maxChainAcks)) = ns
    induction ns generalizing pool with
    | nil => exact h
    | cons n ns ih => exact ih (h.forget n)

theorem add_check : (pool.add b).check = pool.check := by
  unfold add
  split <;> rfl

/-! ## 2. Any events on one chain -/

/-- No ack in the pool has the id of `a`, except `a`. -/
abbrev Alone (a : Ack) (pool : AckPool) : Prop := pool.Holds fun _ b => b.id = a.id → b = a

theorem Cached.handleAck (h : pool.Cached K bc a) (halone : pool.Alone a)
    (hb : b.id = a.id → b = a) : (pool.handleAck K bc b).Cached K bc a := by
  unfold AckPool.handleAck
  split
  · exact h
  · have hadd : (pool.add b).Cached K bc a := by rwa [Cached, add_check]
    have halone' : (pool.add b).Alone a := halone.add hb
    exact (hadd.foldl_checkIfNew (halone' _)).remove _

/-- In the middle of `CheckAndGetNumAcks`: what is known and what has been taken. -/
structure Taking (K : Crypto) (bc : ChainView) (a : Ack) (s : AckPool × List Ack) : Prop where
  cached : s.1.Cached K bc a
  alone : ∀ b ∈ s.2, b.id = a.id → b = a

variable (hash : Hash) (ackType : AckType) {s : AckPool × List Ack}

theorem Cached.taking (h : pool.Cached K bc a) : Taking K bc a (pool, []) :=
  ⟨h, fun _ hb => absurd hb not_mem_nil⟩

/-- **One turn**, for an ack with another id. -/
theorem Taking.other (h : Taking K bc a s) (hb : b.id ≠ a.id) :
    Taking K bc a (takeAck K bc hash ackType s b) ∧
      (a ∈ (takeAck K bc hash ackType s b).2 ↔ a ∈ s.2) := by
  have hcached := h.cached.checkIfNew (b := b) fun hid => absurd hid hb
  unfold takeAck
  split
  · exact ⟨h, .rfl⟩
  · dsimp only
    split
    · refine ⟨⟨hcached, fun c hc => ?_⟩, ?_⟩
      · rcases mem_append.mp hc with hc | hc
        · exact h.alone c hc
        · rw [mem_singleton.mp hc]
          exact fun hid => absurd hid hb
      · have hne : a ≠ b := fun heq => hb (by rw [heq])
        simp [hne]
    · exact ⟨⟨hcached, h.alone⟩, .rfl⟩

/-- **One turn**, for the ack itself. -/
theorem Taking.self (h : Taking K bc a s) :
    Taking K bc a (takeAck K bc hash ackType s a) ∧
      (a ∈ (takeAck K bc hash ackType s a).2 ↔ a ∈ s.2 ∨ a.Wanted K bc hash ackType) := by
  have hcached := h.cached.checkIfNew (b := a) fun _ => rfl
  have hself := h.cached.check_self
  unfold takeAck
  split
  next htype =>
    have hnot : ¬ a.Wanted K bc hash ackType := fun hw => htype hw.1.symm
    exact ⟨h, by simp [hnot]⟩
  next htype =>
    dsimp only
    rw [hself]
    split
    next htaken =>
      have hwanted : a.Wanted K bc hash ackType := ⟨(not_not.mp htype).symm, htaken.2⟩
      refine ⟨⟨hcached, fun c hc => ?_⟩, by simp [hwanted]⟩
      rcases mem_append.mp hc with hc | hc
      · exact h.alone c hc
      · exact fun _ => mem_singleton.mp hc
    next hleft =>
      refine ⟨⟨hcached, h.alone⟩, ⟨.inl, ?_⟩⟩
      rintro (hmem | hwanted)
      · exact hmem
      · -- it is wanted, so its id has been taken already, and by itself
        by_contra hnew
        refine hleft ⟨all_eq_true.mpr fun b hb => decide_eq_true ?_, hwanted.2⟩
        exact fun hid => hnew (h.alone b hb hid ▸ hb)

/-- **The whole loop.** -/
theorem Taking.foldl {acks : List Ack} (hacks : ∀ b ∈ acks, b.id = a.id → b = a) :
    ∀ {s : AckPool × List Ack}, Taking K bc a s →
      Taking K bc a (acks.foldl (takeAck K bc hash ackType) s) ∧
      (a ∈ (acks.foldl (takeAck K bc hash ackType) s).2 ↔
        a ∈ s.2 ∨ a ∈ acks ∧ a.Wanted K bc hash ackType) := by
  induction acks with
  | nil => exact fun h => ⟨h, by simp⟩
  | cons b acks ih =>
    intro s h
    have ih := fun t ht => @ih (fun c hc => hacks c (mem_cons_of_mem _ hc)) t ht
    by_cases hid : b.id = a.id
    · obtain rfl := hacks b mem_cons_self hid
      obtain ⟨hnext, hmem⟩ := h.self hash ackType
      obtain ⟨hlast, hiff⟩ := ih _ hnext
      refine ⟨hlast, hiff.trans ?_⟩
      rw [hmem, or_assoc, or_iff_left_of_imp And.right]
      simp
    · obtain ⟨hnext, hmem⟩ := h.other hash ackType hid
      obtain ⟨hlast, hiff⟩ := ih _ hnext
      refine ⟨hlast, hiff.trans ?_⟩
      have hne : a ≠ b := fun heq => hid (by rw [heq])
      simp [hmem, hne]

/-- The event is one on the chain `bc`, and brings no other ack with the id of `a`. -/
def Event.Apart (bc : ChainView) (a : Ack) : Event → Prop
  | .handle bc' b => bc' = bc ∧ (b.id = a.id → b = a)
  | .take bc' _ _ _ => bc' = bc

/-- **One event** keeps what is known about the ack. -/
theorem step_cached {e : Event} {pool' : AckPool} (he : e.Apart bc a)
    (h : pool.Cached K bc a ∧ pool.Alone a) (hstep : step K pool e = some pool') :
    pool'.Cached K bc a ∧ pool'.Alone a := by
  obtain ⟨hcached, halone⟩ := h
  refine ⟨?_, halone.step (fun bc' b hb => ?_) hstep⟩
  · cases e with
    | handle bc' b =>
      obtain ⟨rfl, hb⟩ := he
      cases hstep
      exact hcached.handleAck halone hb
    | take bc' num hash ackType =>
      cases he
      cases hstep
      exact (Taking.foldl hash ackType (halone num) hcached.taking).1.cached
  · subst hb
    exact he.2

/-- **The answer depends on the ack and the chain alone**, after any events on one chain, in any
order, of which none brings another ack with its id. -/
theorem ack_taken_iff (K : Crypto) (bc : ChainView) (a : Ack) {events : List Event}
    (hapart : ∀ e ∈ events, e.Apart bc a) {pool : AckPool}
    (hrun : Run.run (step K) events {} = some pool) {num : UInt64}
    (hmem : a ∈ pool.getAcksByNum num) (hash : Hash) (ackType : AckType) :
    a ∈ (pool.checkAndGetNumAcks K bc num hash ackType).2 ↔ a.Wanted K bc hash ackType := by
  have hinv : pool.Cached K bc a ∧ pool.Alone a :=
    Run.run_inv (I := fun p => p.Cached K bc a ∧ p.Alone a) (P := fun _ e => e.Apart bc a)
      (fun h he hstep => step_cached he h hstep) ⟨.inl rfl, Holds.empty⟩
      (Run.along_of_forall (fun e he _ => hapart e he) _) hrun
  obtain ⟨hcached, halone⟩ := hinv
  refine (Taking.foldl hash ackType (halone num) hcached.taking).2.trans ?_
  simp [hmem]

/-- A scheme in which the first bytes of a signature tell the key. -/
def frontCrypto : Crypto := { plainCrypto with ecdsaRecover := fun _ sig => some sig.reverse }

/-- A signature by the key `key` that ends in `last`. -/
def ackEnding (ackType : AckType) (key last : UInt8) : Ack :=
  { number := 4, blockHash := 0, ackType := ackType,
    witnessSig := key :: replicate 63 0 ++ [last] }

def stillChain : ChainView := twoValidatorsView (ackedParent [0])

/-- With a signature that ends in another way the stranger's ack does no harm. -/
theorem ack_taken_beside_stranger : ∃ pool,
    Run.run (step frontCrypto) [.handle stillChain (ackEnding ackTypeAgree 9 1),
      .handle stillChain (ackEnding ackTypeOppose 1 0)] {} = some pool ∧
    ackEnding ackTypeOppose 1 0 ∈
      (pool.checkAndGetNumAcks frontCrypto stillChain 4 0 ackTypeOppose).2 := by
  have hapart : ∀ e ∈ [Event.handle stillChain (ackEnding ackTypeAgree 9 1),
      .handle stillChain (ackEnding ackTypeOppose 1 0)],
      e.Apart stillChain (ackEnding ackTypeOppose 1 0) := by
    refine forall_mem_cons.mpr ⟨⟨rfl, fun hid => absurd hid (by decide +kernel)⟩,
      forall_mem_singleton.mpr ⟨rfl, fun _ => rfl⟩⟩
  exact ⟨_, rfl, (ack_taken_iff frontCrypto stillChain (ackEnding ackTypeOppose 1 0) hapart rfl
    (by decide +kernel) 0 ackTypeOppose).mpr ⟨rfl, rfl, .inr rfl⟩⟩

/-- **Two acks by different signers, in either order.**  The stranger's is illegal; when it comes
first, the validator's is not taken. -/
theorem ack_order_matters : ∃ first second,
    Run.run (step frontCrypto) [.handle stillChain (ackEnding ackTypeOppose 1 0),
      .handle stillChain (ackEnding ackTypeAgree 9 0)] {} = some first ∧
    Run.run (step frontCrypto) [.handle stillChain (ackEnding ackTypeAgree 9 0),
      .handle stillChain (ackEnding ackTypeOppose 1 0)] {} = some second ∧
    (ackEnding ackTypeOppose 1 0).recoverOwner frontCrypto = some 1 ∧
    (ackEnding ackTypeAgree 9 0).recoverOwner frontCrypto = some 9 ∧
    ackEnding ackTypeOppose 1 0 ∈ first.getAcksByNum 4 ∧
    ackEnding ackTypeOppose 1 0 ∈ second.getAcksByNum 4 ∧
    ackEnding ackTypeOppose 1 0 ∈
      (first.checkAndGetNumAcks frontCrypto stillChain 4 0 ackTypeOppose).2 ∧
    ackEnding ackTypeOppose 1 0 ∉
      (second.checkAndGetNumAcks frontCrypto stillChain 4 0 ackTypeOppose).2 :=
  ⟨_, _, rfl, rfl, by decide +kernel, by decide +kernel, by decide +kernel, by decide +kernel,
    by decide +kernel, by decide +kernel⟩

end AckPool

end ProbeChain
