/-
# Votes kept as running totals

Voters give weight to candidates, one candidate at a time.  A candidate keeps a pledge of its own
and a total that should be the pledge and everything it has received.  Nothing adds the votes up:
the total is kept by changing it together with the votes.

`Ballots` is the two records, and `Step` what may happen to them.  `Step.sound` says that this keeps
the totals right.  A candidate starts with its pledge as total, so no vote may be waiting for it:
that is `backed`.
-/
import ProbeChain.Lib.Ledger

namespace ProbeChain

/-- Whom a voter votes for and with how much; pledge and total of a candidate. -/
structure Ballots (ι M : Type*) where
  cast : ι → ι × M
  stake : ι → Option (M × M)

namespace Ballots

open Function

variable {ι M : Type*} [Fintype ι] [DecidableEq ι] [AddCommGroup M]

/-- What a vote adds to the total of `a`. -/
def weightFor (a : ι) (b : ι × M) : M := if b.1 = a then b.2 else 0

/-- All votes for `a`. -/
def received (t : Ballots ι M) (a : ι) : M := Ledger.total (weightFor a) t.cast

omit [Fintype ι] in
@[simp] theorem weightFor_zero (a b : ι) : weightFor a (b, (0 : M)) = 0 := ite_self 0

omit [Fintype ι] in
theorem weightFor_of_ne {a : ι} {b : ι × M} (h : b.2 = 0 ∨ b.1 ≠ a) : weightFor a b = 0 := by
  rw [weightFor]
  rcases h with h | h
  · rw [h, ite_self]
  · rw [if_neg h]

theorem received_update (t : Ballots ι M) (i : ι) (b : ι × M) (stake : ι → Option (M × M)) (a : ι) :
    received ⟨update t.cast i b, stake⟩ a =
      t.received a + (weightFor a b - weightFor a (t.cast i)) :=
  Ledger.total_update (weightFor a) t.cast i b

theorem received_eq_zero {t : Ballots ι M} {a : ι} (h : ∀ i, (t.cast i).1 = a → (t.cast i).2 = 0) :
    t.received a = 0 := by
  refine Finset.sum_eq_zero fun i _ => weightFor_of_ne ?_
  by_cases ha : (t.cast i).1 = a
  · exact .inl (h i ha)
  · exact .inr ha

theorem received_congr {t t' : Ballots ι M} {a : ι}
    (h : ∀ i, weightFor a (t'.cast i) = weightFor a (t.cast i)) : t'.received a = t.received a :=
  Finset.sum_congr rfl fun i _ => h i

section
variable [LE M]

/-- Votes are not negative and are for candidates, and every total is right. -/
structure Sound (t : Ballots ι M) : Prop where
  nonneg : ∀ i, 0 ≤ (t.cast i).2
  backed : ∀ i, (t.cast i).2 ≠ 0 → (t.stake (t.cast i).1).isSome
  balanced : ∀ a p v, t.stake a = some (p, v) → v = p + t.received a

/-- `remove` takes voters and candidates out that have nothing to do with any vote. -/
inductive Step (t : Ballots ι M) : Ballots ι M → Prop
  | vote {i a : ι} {p v x : M} (hx : 0 ≤ x) (hstake : t.stake a = some (p, v))
      (hfree : (t.cast i).2 = 0 ∨ (t.cast i).1 = a) :
      Step t ⟨update t.cast i (a, x + (t.cast i).2), update t.stake a (some (p, v + x))⟩
  | withdrawPledge {a : ι} {p v : M} (hstake : t.stake a = some (p, v)) :
      Step t ⟨t.cast, update t.stake a (some (0, v - p))⟩
  | withdraw {i a : ι} {p v : M} (b : ι) (ha : (t.cast i).1 = a)
      (hstake : t.stake a = some (p, v)) :
      Step t ⟨update t.cast i (b, 0), update t.stake a (some (p, v - (t.cast i).2))⟩
  | hand {i j : ι} (b : ι) (hne : i ≠ j) (hfree : (t.cast j).2 = 0) :
      Step t ⟨update (update t.cast j (t.cast i)) i (b, 0), t.stake⟩
  | register {a : ι} (p : M) (hnew : t.stake a = none) :
      Step t ⟨t.cast, update t.stake a (some (p, p))⟩
  | remove {t' : Ballots ι M} (S : Set ι) (hcast : ∀ i ∈ S, (t.cast i).2 = 0)
      (hstake : ∀ i, (t.cast i).2 ≠ 0 → (t.cast i).1 ∉ S)
      (hkept : ∀ i ∉ S, t'.cast i = t.cast i ∧ t'.stake i = t.stake i)
      (hgone : ∀ i ∈ S, (t'.cast i).2 = 0 ∧ t'.stake i = none) : Step t t'

/-- Any number of steps. -/
def Steps : Ballots ι M → Ballots ι M → Prop := Relation.ReflTransGen Step

end

section
variable [PartialOrder M] {t t' : Ballots ι M} {stake : ι → Option (M × M)} {a i : ι} {p v : M}

omit [Fintype ι] [AddCommGroup M] [PartialOrder M] in
/-- A candidate stays one when its record is written. -/
theorem isSome_update {c : ι} (a : ι) (x : M × M) (h : (stake c).isSome) :
    (update stake a (some x) c).isSome := by
  by_cases hc : c = a
  · rw [hc, update_self]
    rfl
  · rwa [update_of_ne hc]

omit [Fintype ι] [PartialOrder M] in
/-- What is written to one record, and what is left of the others. -/
theorem balanced_update {received : ι → M}
    (ha : v = p + received a)
    (hother : ∀ c, c ≠ a → ∀ q u, stake c = some (q, u) → u = q + received c) :
    ∀ c q u, update stake a (some (p, v)) c = some (q, u) → u = q + received c := by
  intro c q u hc
  by_cases hca : c = a
  · subst hca
    rw [update_self] at hc
    cases hc
    exact ha
  · rw [update_of_ne hca] at hc
    exact hother c hca q u hc

omit [Fintype ι] in
/-- One vote is changed, into one that is not negative. -/
theorem nonneg_update {cast : ι → ι × M} (h : ∀ i, 0 ≤ (cast i).2) (i : ι) {b : ι × M}
    (hb : 0 ≤ b.2) :
    ∀ j, 0 ≤ (update cast i b j).2 := by
  intro j
  by_cases hj : j = i
  · rwa [hj, update_self]
  · rw [update_of_ne hj]
    exact h j

omit [Fintype ι] [PartialOrder M] in
/-- One vote is changed, into one for a candidate. -/
theorem backed_update {cast : ι → ι × M}
    (h : ∀ i, (cast i).2 ≠ 0 → (stake (cast i).1).isSome) (i : ι) {b : ι × M}
    (hb : b.2 ≠ 0 → (stake b.1).isSome) :
    ∀ j, (update cast i b j).2 ≠ 0 → (stake (update cast i b j).1).isSome := by
  intro j
  by_cases hj : j = i
  · rwa [hj, update_self]
  · rw [update_of_ne hj]
    exact h j

section
variable (h : t.Sound)
include h

theorem Sound.vote [IsOrderedAddMonoid M] {x : M} (hx : 0 ≤ x)
    (hstake : t.stake a = some (p, v)) (hfree : (t.cast i).2 = 0 ∨ (t.cast i).1 = a) :
    Sound ⟨update t.cast i (a, x + (t.cast i).2), update t.stake a (some (p, v + x))⟩ where
  nonneg := nonneg_update h.nonneg i (add_nonneg hx (h.nonneg i))
  backed := by
    refine backed_update (fun j hj => isSome_update a _ (h.backed j hj)) i fun _ => ?_
    rw [update_self]
    rfl
  balanced := by
    refine balanced_update ?_ ?_
    · -- the old weight was already counted for the candidate, or there was none
      have hold : weightFor a (t.cast i) = (t.cast i).2 := by
        rw [weightFor]
        rcases hfree with h | h
        · rw [h, ite_self]
        · rw [if_pos h]
      rw [received_update, hold, weightFor, if_pos rfl, h.balanced a p v hstake,
        add_sub_cancel_right, add_assoc]
    · intro c hc q u hstakec
      have hold : weightFor c (t.cast i) = 0 := by
        refine weightFor_of_ne (hfree.imp_right ?_)
        intro hia hic
        exact hc (hic.symm.trans hia)
      rw [received_update, hold, weightFor_of_ne (.inr hc.symm), sub_self, add_zero]
      exact h.balanced c q u hstakec

theorem Sound.withdrawPledge (hstake : t.stake a = some (p, v)) :
    Sound ⟨t.cast, update t.stake a (some (0, v - p))⟩ where
  nonneg := h.nonneg
  backed := fun j hj => isSome_update a _ (h.backed j hj)
  balanced := by
    refine balanced_update ?_ fun c _ => h.balanced c
    rw [h.balanced a p v hstake, add_sub_cancel_left, zero_add]
    rfl

theorem Sound.withdraw (b : ι) (ha : (t.cast i).1 = a) (hstake : t.stake a = some (p, v)) :
    Sound ⟨update t.cast i (b, 0), update t.stake a (some (p, v - (t.cast i).2))⟩ where
  nonneg := nonneg_update h.nonneg i le_rfl
  backed := backed_update (fun j hj => isSome_update a _ (h.backed j hj)) i fun hzero =>
    absurd rfl hzero
  balanced := by
    refine balanced_update ?_ ?_
    · rw [received_update, weightFor_zero, weightFor, if_pos ha, h.balanced a p v hstake]
      abel
    · intro c hc q u hstakec
      rw [received_update, weightFor_zero, weightFor_of_ne (.inr (ha ▸ hc.symm)),
        sub_self, add_zero]
      exact h.balanced c q u hstakec

theorem Sound.hand {j : ι} (b : ι) (hne : i ≠ j) (hfree : (t.cast j).2 = 0) :
    Sound ⟨update (update t.cast j (t.cast i)) i (b, 0), t.stake⟩ where
  nonneg := nonneg_update (nonneg_update h.nonneg j (h.nonneg i)) i le_rfl
  backed := backed_update (backed_update h.backed j (h.backed i)) i fun hzero => absurd rfl hzero
  balanced := by
    intro c q u hstakec
    have hfirst := received_update t j (t.cast i) t.stake c
    have hsecond := received_update ⟨update t.cast j (t.cast i), t.stake⟩ i (b, 0) t.stake c
    rw [hfirst, weightFor_of_ne (.inl hfree), weightFor_zero] at hsecond
    dsimp only at hsecond
    rw [hsecond, update_of_ne hne, h.balanced c q u hstakec]
    abel

/-- Nobody votes for what is not a candidate. -/
theorem Sound.received_of_none (ha : t.stake a = none) : t.received a = 0 := by
  refine received_eq_zero fun i hi => ?_
  by_contra hweight
  have hsome := h.backed i hweight
  rw [hi, ha] at hsome
  cases hsome

theorem Sound.register (p : M) (hnew : t.stake a = none) :
    Sound ⟨t.cast, update t.stake a (some (p, p))⟩ where
  nonneg := h.nonneg
  backed := fun j hj => isSome_update a _ (h.backed j hj)
  balanced := by
    refine balanced_update ?_ fun c _ => h.balanced c
    show p = p + t.received a
    rw [h.received_of_none hnew, add_zero]

theorem Sound.remove {S : Set ι} (hcast : ∀ i ∈ S, (t.cast i).2 = 0)
    (hstake : ∀ i, (t.cast i).2 ≠ 0 → (t.cast i).1 ∉ S)
    (hkept : ∀ i ∉ S, t'.cast i = t.cast i ∧ t'.stake i = t.stake i)
    (hgone : ∀ i ∈ S, (t'.cast i).2 = 0 ∧ t'.stake i = none) : t'.Sound where
  nonneg := by
    intro i
    by_cases hi : i ∈ S
    · rw [(hgone i hi).1]
    · rw [(hkept i hi).1]
      exact h.nonneg i
  backed := by
    intro i hweight
    by_cases hi : i ∈ S
    · exact absurd (hgone i hi).1 hweight
    · rw [(hkept i hi).1] at hweight ⊢
      rw [(hkept _ (hstake i hweight)).2]
      exact h.backed i hweight
  balanced := by
    intro c q u hstakec
    have hc : c ∉ S := by
      intro hc
      rw [(hgone c hc).2] at hstakec
      cases hstakec
    have hsame : t'.received c = t.received c := by
      refine received_congr fun i => ?_
      by_cases hi : i ∈ S
      · rw [weightFor_of_ne (.inl (hgone i hi).1), weightFor_of_ne (.inl (hcast i hi))]
      · rw [(hkept i hi).1]
    rw [hsame]
    exact h.balanced c q u ((hkept c hc).2 ▸ hstakec)

end

/-- **Every step keeps the totals right.** -/
theorem Step.sound [IsOrderedAddMonoid M] (hstep : t.Step t') (h : t.Sound) : t'.Sound := by
  cases hstep with
  | vote hx hstake hfree => exact h.vote hx hstake hfree
  | withdrawPledge hstake => exact h.withdrawPledge hstake
  | withdraw b ha hstake => exact h.withdraw b ha hstake
  | hand b hne hfree => exact h.hand b hne hfree
  | register p hnew => exact h.register p hnew
  | remove S hcast hstake hkept hgone => exact h.remove hcast hstake hkept hgone

theorem Steps.sound [IsOrderedAddMonoid M] (hsteps : t.Steps t') (h : t.Sound) : t'.Sound := by
  induction hsteps with
  | refl => exact h
  | tail _ hstep ih => exact hstep.sound ih

end

end Ballots

end ProbeChain
