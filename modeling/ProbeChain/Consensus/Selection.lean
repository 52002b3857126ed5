/-
# Whose turn it is

`selectProducer` of `consensus/pob/snapshot.go`: among the validators in ascending order one is
chosen with its behavior score as weight, by a seed from the parent's hash and the number.  With one
validator there is nothing to choose, and where all scores are zero they take turns.

The validators are kept in a map, which is walked twice, for their order and for the sum of their
scores.  A walk visits the keys in any order.  `selectProducer_fair` says that the order does not
matter and that a validator is chosen by as many residues of the seed as its score.
-/
import ProbeChain.Consensus.Snapshot
import ProbeChain.Lib.Weighted
import Mathlib.Algebra.BigOperators.Group.Finset.Basic

namespace ProbeChain

open BigEndian List

/-! ## 1. The choice -/

/-- The first eight bytes of the digest of both. -/
def makeSeed (K : Crypto) (parentHash : Hash) (number : UInt64) : UInt64 :=
  .ofNat
    (toNat ((Hash.bytes (K.keccak256 (Hash.bytes parentHash ++ ofNatWidth 8 number.toNat))).take 8))

namespace Snapshot

/-- An order in which the map of the validators may be walked. -/
def Walk (s : Snapshot) (walk : List Address) : Prop :=
  (walk : Multiset Address) = s.validators.keys.val

/-- `validators`: what a walk collects, sorted.  Comparing the bytes of two addresses is comparing
the numbers. -/
def validatorsAscending (walk : List Address) : List Address :=
  walk.insertionSort fun a b => a.toNat ≤ b.toNat

/-- `s.Validators[v].Total` -/
def scoreOf (s : Snapshot) (v : Address) : UInt64 :=
  ((s.validators.lookup v).map BehaviorScore.total).getD 0

/-- `totalScore` -/
def totalScore (s : Snapshot) (walk : List Address) : UInt64 :=
  walk.foldl (fun total v => total + s.scoreOf v) 0

/-- The loop over the validators: the first one at which the scores so far exceed the target. -/
def selectFrom (s : Snapshot) (target : UInt64) : UInt64 → List Address → Option Address
  | _, [] => none
  | cumulative, v :: vals =>
    let cumulative := cumulative + s.scoreOf v
    if target < cumulative then some v else selectFrom s target cumulative vals

/-- `selectProducer` for a given seed, with the walks of `validators` and of `totalScore`. -/
def selectBySeed (s : Snapshot) (walk scoreWalk : List Address) (number seed : UInt64) : Address :=
  match validatorsAscending walk with
  | [] => 0
  | [v] => v
  | vals =>
    let total := s.totalScore scoreWalk
    if total = 0 then vals.getD (number % .ofNat vals.length).toNat 0
    else (s.selectFrom (seed % total) 0 vals).getD (vals.getLastD 0)

def selectProducer (K : Crypto) (s : Snapshot) (walk scoreWalk : List Address) (number : UInt64)
    (parentHash : Hash) :
    Address :=
  s.selectBySeed walk scoreWalk number (makeSeed K parentHash number)

def inturn (K : Crypto) (s : Snapshot) (walk scoreWalk : List Address) (number : UInt64)
    (parentHash : Hash) (validator : Address) : Bool :=
  s.selectProducer K walk scoreWalk number parentHash = validator

/-! ## 2. Walks -/

/-- The scores as numbers. -/
def weight (s : Snapshot) (v : Address) : Nat := (s.scoreOf v).toNat

/-- The sum of all scores. -/
def scoreSum (s : Snapshot) : Nat := ∑ v ∈ s.validators.keys, s.weight v

variable {s : Snapshot} {walk walk' : List Address}

section
variable (h : s.Walk walk)
include h

theorem Walk.perm (h' : s.Walk walk') : walk.Perm walk' := Multiset.coe_eq_coe.mp (h.trans h'.symm)

theorem Walk.mem_iff {v : Address} : v ∈ walk ↔ v ∈ s.validators := by
  rw [← Multiset.mem_coe, h, Finset.mem_val, Finmap.mem_keys]

theorem Walk.nodup : walk.Nodup := by
  rw [← Multiset.coe_nodup, h]
  exact s.validators.keys.nodup

theorem Walk.total : Weighted.total s.weight walk = s.scoreSum := by
  rw [scoreSum, Finset.sum, ← h, Multiset.map_coe, Multiset.sum_coe, Weighted.total]

end

theorem perm_validatorsAscending (walk : List Address) : (validatorsAscending walk).Perm walk :=
  perm_insertionSort ..

/-- **Sorting forgets the order of the walk.** -/
theorem validatorsAscending_congr (h : walk.Perm walk') :
    validatorsAscending walk = validatorsAscending walk' := by
  let r : Address → Address → Prop := fun a b => a.toNat ≤ b.toNat
  refine List.Perm.eq_of_pairwise ?_ (pairwise_insertionSort r walk)
    (pairwise_insertionSort r walk') ?_
  · exact fun a b _ _ hab hba => BitVec.eq_of_toNat_eq (Nat.le_antisymm hab hba)
  · exact (perm_validatorsAscending walk).trans (h.trans (perm_validatorsAscending walk').symm)

theorem toNat_add_scoreOf {total : UInt64} {v : Address} (h : total.toNat + s.weight v < 2 ^ 64) :
    (total + s.scoreOf v).toNat = total.toNat + s.weight v := by
  exact Nat.mod_eq_of_lt h

theorem toNat_foldl_scores {total : UInt64}
    (h : total.toNat + Weighted.total s.weight walk < 2 ^ 64) :
    (walk.foldl (fun total v => total + s.scoreOf v) total).toNat =
      total.toNat + Weighted.total s.weight walk := by
  induction walk generalizing total with
  | nil => rfl
  | cons v walk ih =>
    rw [Weighted.total_cons] at h ⊢
    have hadd : (total + s.scoreOf v).toNat = total.toNat + s.weight v :=
      toNat_add_scoreOf (by omega)
    rw [foldl_cons, ih (by omega), hadd, Nat.add_assoc]

theorem Walk.toNat_totalScore (h : s.Walk walk) (hsum : s.scoreSum < 2 ^ 64) :
    (s.totalScore walk).toNat = s.scoreSum := by
  have hzero : (0 : UInt64).toNat + Weighted.total s.weight walk < 2 ^ 64 := by
    rwa [h.total, UInt64.toNat_zero, zero_add]
  rw [totalScore, toNat_foldl_scores hzero, h.total, UInt64.toNat_zero, zero_add]

/-! ## 3. Every validator by its score -/

section
variable {scoreWalk : List Address}

/-- The loop, started anywhere, is the choice by weight from there on. -/
theorem selectFrom_eq {target cumulative : UInt64} {vals : List Address} (hle : cumulative ≤ target)
    (hlt : cumulative.toNat + Weighted.total s.weight vals < 2 ^ 64) :
    s.selectFrom target cumulative vals =
      Weighted.pick s.weight vals (target.toNat - cumulative.toNat) := by
  induction vals generalizing cumulative with
  | nil => rfl
  | cons v vals ih =>
    rw [Weighted.total_cons] at hlt
    have hle := UInt64.le_iff_toNat_le.mp hle
    have hadd : (cumulative + s.scoreOf v).toNat = cumulative.toNat + s.weight v :=
      toNat_add_scoreOf (by omega)
    rw [selectFrom, Weighted.pick]
    by_cases h : target < cumulative + s.scoreOf v
    · have hnat := UInt64.lt_iff_toNat_lt.mp h
      rw [if_pos h, if_pos (by omega)]
    · have hnat := UInt64.le_iff_toNat_le.mp (UInt64.not_lt.mp h)
      rw [if_neg h, if_neg (by omega), ih (UInt64.not_lt.mp h) (by omega), hadd, Nat.sub_add_eq]

theorem total_validatorsAscending (h : s.Walk walk) :
    Weighted.total s.weight (validatorsAscending walk) = s.scoreSum :=
  (Weighted.total_perm _ (perm_validatorsAscending walk)).trans h.total

theorem turn_lt (number : UInt64) {n : Nat} (hn : 0 < n) : (number % .ofNat n).toNat < n := by
  rw [UInt64.toNat_mod, UInt64.toNat_ofNat']
  have hnumber := number.toNat_lt
  by_cases hzero : n % 2 ^ 64 = 0
  · rw [hzero, Nat.mod_zero]
    omega
  · have hlt := Nat.mod_lt number.toNat (Nat.pos_of_ne_zero hzero)
    omega

variable (h : s.Walk walk) (hscore : s.Walk scoreWalk) (hsum : s.scoreSum < 2 ^ 64)
include h hscore hsum

/-- **The choice is by weight**, and by the residue of the seed. -/
theorem pick_selectBySeed (hpos : 0 < s.scoreSum) (number seed : UInt64) :
    Weighted.pick s.weight (validatorsAscending walk) (seed.toNat % s.scoreSum) =
      some (s.selectBySeed walk scoreWalk number seed) := by
  have htotal := total_validatorsAscending h
  have hscore := hscore.toNat_totalScore hsum
  have hresidue : seed.toNat % s.scoreSum < s.scoreSum := Nat.mod_lt _ hpos
  rw [← htotal] at hresidue
  obtain ⟨v, -, hpick⟩ := Weighted.exists_pick hresidue
  rw [htotal] at hpick
  rw [hpick, Option.some_inj]
  unfold selectBySeed
  split
  next hvals =>
    rw [hvals] at hpick
    cases hpick
  next w hvals =>
    rw [hvals] at hpick
    exact mem_singleton.mp (Weighted.mem_of_pick hpick)
  next =>
    have hne : s.totalScore scoreWalk ≠ 0 := by
      intro hzero
      rw [hzero, UInt64.toNat_zero] at hscore
      omega
    rw [if_neg hne, selectFrom_eq UInt64.zero_le (by rw [htotal, UInt64.toNat_zero]; omega),
      UInt64.toNat_mod, hscore, UInt64.toNat_zero, Nat.sub_zero, hpick, Option.getD_some]

/-- The choice is among the validators. -/
theorem selectBySeed_mem (hne : 0 < s.validatorCount) (number seed : UInt64) :
    s.selectBySeed walk scoreWalk number seed ∈ s.validators := by
  have hmem (v : Address) : v ∈ validatorsAscending walk ↔ v ∈ s.validators :=
    (perm_validatorsAscending walk).mem_iff.trans h.mem_iff
  rw [← hmem]
  by_cases hpos : 0 < s.scoreSum
  · exact Weighted.mem_of_pick (pick_selectBySeed h hscore hsum hpos number seed)
  · unfold selectBySeed
    split
    next hvals =>
      obtain ⟨v, hv⟩ := Finset.card_pos.mp hne
      rw [Finmap.mem_keys, ← hmem, hvals] at hv
      cases hv
    next v hvals =>
      rw [hvals]
      exact mem_singleton_self v
    next hvals _ =>
      have hscore := hscore.toNat_totalScore hsum
      have hzero : s.totalScore scoreWalk = 0 :=
        UInt64.toNat_inj.mp (by rw [hscore, UInt64.toNat_zero]; omega)
      rw [if_pos hzero]
      have hturn := turn_lt number (length_pos_iff.mpr hvals)
      rw [getD_eq_getElem?_getD, getElem?_eq_getElem hturn, Option.getD_some]
      exact getElem_mem hturn

/-- The walks do not matter. -/
theorem selectBySeed_congr {walk' scoreWalk' : List Address} (h' : s.Walk walk')
    (hscore' : s.Walk scoreWalk') (number seed : UInt64) :
    s.selectBySeed walk scoreWalk number seed = s.selectBySeed walk' scoreWalk' number seed := by
  have htotal : s.totalScore scoreWalk = s.totalScore scoreWalk' :=
    UInt64.toNat_inj.mp ((hscore.toNat_totalScore hsum).trans (hscore'.toNat_totalScore hsum).symm)
  unfold selectBySeed
  rw [validatorsAscending_congr (h.perm h'), htotal]

theorem selectBySeed_ofNat_iff (number : UInt64) {r : Nat} (hr : r < s.scoreSum) (v : Address) :
    s.selectBySeed walk scoreWalk number (.ofNat r) = v ↔
      Weighted.pick s.weight (validatorsAscending walk) r = some v := by
  have hpick := pick_selectBySeed h hscore hsum (Nat.zero_lt_of_lt hr) number (.ofNat r)
  rw [UInt64.toNat_ofNat_of_lt' (by omega : r < 2 ^ 64), Nat.mod_eq_of_lt hr] at hpick
  rw [hpick, Option.some_inj]

/-- **A validator is chosen by as many residues as its score.** -/
theorem count_selectBySeed (number : UInt64) {v : Address} (hv : v ∈ s.validators) :
    Nat.count (fun r => s.selectBySeed walk scoreWalk number (.ofNat r) = v) s.scoreSum =
      (s.scoreOf v).toNat := by
  have hperm := perm_validatorsAscending walk
  have hcount := Weighted.count_pick (w := s.weight) (hperm.nodup_iff.mpr h.nodup)
    (hperm.mem_iff.mpr (h.mem_iff.mpr hv))
  rw [total_validatorsAscending h] at hcount
  refine Eq.trans ?_ hcount
  rw [Nat.count_eq_card_filter_range, Nat.count_eq_card_filter_range]
  refine congrArg Finset.card (Finset.filter_congr fun r hr => ?_)
  exact selectBySeed_ofNat_iff h hscore hsum number (Finset.mem_range.mp hr) v

end

/-- **The producer is a validator, whatever the order of the walks, and each validator has its
score in residues.**  The first part is about `selectProducer` and `inturn`, whose seed comes from
the parent and the number: one validator is in turn, the same for every two walks of the map, and
where some score is positive it is the one that the residue of the seed modulo the sum of the
scores selects.  The second part is about the seeds themselves, since a digest cannot be made to
run through all of them: every seed selects a validator, the same for every two walks, and of the
residues below the sum exactly `Total(v)` select `v`. -/
theorem selectProducer_fair (K : Crypto) (s : Snapshot) (hne : 0 < s.validatorCount)
    (hsum : s.scoreSum < 2 ^ 64) {walk scoreWalk : List Address} (h : s.Walk walk)
    (hscore : s.Walk scoreWalk) (number : UInt64) :
    (∀ parentHash : Hash, ∃ v ∈ s.validators,
      (∀ walk' scoreWalk', s.Walk walk' → s.Walk scoreWalk' →
        s.selectProducer K walk' scoreWalk' number parentHash = v) ∧
      (∀ w, s.inturn K walk scoreWalk number parentHash w = true ↔ w = v) ∧
      (0 < s.scoreSum → s.selectBySeed walk scoreWalk number
        (.ofNat ((makeSeed K parentHash number).toNat % s.scoreSum)) = v)) ∧
    (∀ seed : UInt64, ∃ v ∈ s.validators, ∀ walk' scoreWalk', s.Walk walk' → s.Walk scoreWalk' →
      s.selectBySeed walk' scoreWalk' number seed = v) ∧
    (0 < s.scoreSum → ∀ v ∈ s.validators,
      Nat.count (fun r => s.selectBySeed walk scoreWalk number (.ofNat r) = v) s.scoreSum =
        (s.scoreOf v).toNat) := by
  have hseed (seed : UInt64) : ∃ v ∈ s.validators, ∀ walk' scoreWalk', s.Walk walk' →
      s.Walk scoreWalk' → s.selectBySeed walk' scoreWalk' number seed = v :=
    ⟨_, selectBySeed_mem h hscore hsum hne number seed, fun walk' scoreWalk' h' hscore' =>
      selectBySeed_congr h' hscore' hsum h hscore number seed⟩
  refine ⟨fun parentHash => ?_, hseed, fun _ v hv => count_selectBySeed h hscore hsum number hv⟩
  obtain ⟨v, hv, hselect⟩ := hseed (makeSeed K parentHash number)
  have hproducer : s.selectProducer K walk scoreWalk number parentHash = v :=
    hselect walk scoreWalk h hscore
  refine ⟨v, hv, hselect, fun w => ?_, fun hpos => ?_⟩
  · rw [inturn, hproducer, decide_eq_true_iff, eq_comm]
  · have hresidue : (makeSeed K parentHash number).toNat % s.scoreSum < s.scoreSum :=
      Nat.mod_lt _ hpos
    have hpick := pick_selectBySeed h hscore hsum hpos number (makeSeed K parentHash number)
    rw [hselect walk scoreWalk h hscore] at hpick
    exact (selectBySeed_ofNat_iff h hscore hsum number hresidue v).mpr hpick

/-- Two validators with the scores of new ones: half of the residues select the second, and one
of the two is in turn. -/
theorem selectProducer_fair_twoValidators :
    let s := newSnapshot ⟨30000, 0⟩ 0 0 [2, 1]
    s.Walk [1, 2] ∧
      Nat.count (fun r => s.selectBySeed [1, 2] [2, 1] 1 (.ofNat r) = 2) 10000 = 5000 ∧
      s.selectProducer plainCrypto [1, 2] [2, 1] 1 0 ∈ s.validators := by
  intro s
  have hwalk : s.Walk [1, 2] := by unfold Walk; decide +kernel
  have hscore : s.Walk [2, 1] := by unfold Walk; decide +kernel
  have hsum : s.scoreSum = 10000 := by decide +kernel
  have hfair := selectProducer_fair plainCrypto s (by decide +kernel) (by rw [hsum]; decide) hwalk
    hscore 1
  have hcount := hfair.2.2 (by rw [hsum]; decide) 2 (by decide +kernel)
  obtain ⟨v, hv, hproducer, -⟩ := hfair.1 0
  exact ⟨hwalk, hcount.trans (by decide +kernel), hproducer [1, 2] [2, 1] hwalk hscore ▸ hv⟩

end Snapshot

end ProbeChain
