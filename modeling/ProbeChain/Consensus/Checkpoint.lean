/-
# The scores in a checkpoint

`encodeBehaviorData` and `decodeBehaviorData` of `consensus/pob/snapshot.go`: the middle part of
`Extra` in a checkpoint header has a count and, for each validator in ascending order, twenty bytes
of address and eight bytes of score.

The count is one byte.  With 256 validators or more it is not the number of the entries, and the
reader refuses what the writer has written (`decodeBehaviorData_encodeBehaviorData_iff`).
-/
import ProbeChain.Consensus.Selection

namespace ProbeChain

open BigEndian List Snapshot

namespace Snapshot

/-! ## 1. The bytes -/

/-- What stands for one validator. -/
def scoreEntry (s : Snapshot) (v : Address) : Bytes :=
  Address.bytes v ++ ofNatWidth 8 (s.scoreOf v).toNat

def encodeBehaviorData (s : Snapshot) (walk : List Address) : Bytes :=
  let vals := validatorsAscending walk
  UInt8.ofNat vals.length :: vals.flatMap s.scoreEntry

end Snapshot

/-- The loop over `n` entries of 28 bytes. -/
def decodeScores : Nat → Bytes → (Finmap fun _ : Address => UInt64) →
    Finmap fun _ : Address => UInt64
  | 0, _, result => result
  | n + 1, data, result =>
    decodeScores n (data.drop 28)
      (result.insert (bytesToAddress (data.take 20)) (.ofNat (toNat ((data.drop 20).take 8))))

/-- `none` is `errInvalidCheckpointValidators`. -/
def decodeBehaviorData : Bytes → Option (Finmap fun _ : Address => UInt64)
  | [] => none
  | n :: data => if data.length = n.toNat * 28 then some (decodeScores n.toNat data ∅) else none

/-! ## 2. Reading what was written -/

namespace Snapshot

variable {s : Snapshot} {walk : List Address}

theorem length_scoreEntry (s : Snapshot) (v : Address) : (s.scoreEntry v).length = 28 := by
  rw [scoreEntry, length_append, Address.length_bytes, ofNatWidth_length]

theorem length_entries (s : Snapshot) (vals : List Address) :
    (vals.flatMap s.scoreEntry).length = vals.length * 28 := by
  induction vals with
  | nil => rfl
  | cons v vals ih => rw [flatMap_cons, length_append, length_scoreEntry, ih, length_cons]; omega

/-- One entry is one insertion. -/
theorem decodeScores_scoreEntry (s : Snapshot) (v : Address) (n : Nat) (data : Bytes)
    (result : Finmap fun _ : Address => UInt64) :
    decodeScores (n + 1) (s.scoreEntry v ++ data) result =
      decodeScores n data (result.insert v (s.scoreOf v)) := by
  have hdrop : (s.scoreEntry v ++ data).drop 28 = data := drop_left' (length_scoreEntry s v)
  have haddr : (s.scoreEntry v ++ data).take 20 = Address.bytes v := by
    rw [scoreEntry, append_assoc, take_left' (Address.length_bytes v)]
  have hscore : ((s.scoreEntry v ++ data).drop 20).take 8 = ofNatWidth 8 (s.scoreOf v).toNat := by
    rw [scoreEntry, append_assoc, drop_left' (Address.length_bytes v),
      take_left' (ofNatWidth_length _ _)]
  rw [decodeScores, hdrop, haddr, hscore, bytesToAddress_bytes,
    toNat_ofNatWidth _ _ (s.scoreOf v).toNat_lt, UInt64.ofNat_toNat]

theorem lookup_decodeScores (s : Snapshot) (vals : List Address)
    (result : Finmap fun _ : Address => UInt64) (v : Address) :
    (decodeScores vals.length (vals.flatMap s.scoreEntry) result).lookup v =
      if v ∈ vals then some (s.scoreOf v) else result.lookup v := by
  induction vals generalizing result with
  | nil => rfl
  | cons u vals ih =>
    rw [flatMap_cons, length_cons, decodeScores_scoreEntry, ih]
    by_cases huv : v = u
    · subst huv
      simp
    · simp [huv, Finmap.lookup_insert_of_ne]

theorem Walk.length_validatorsAscending (h : s.Walk walk) :
    (validatorsAscending walk).length = s.validatorCount := by
  rw [(perm_validatorsAscending walk).length_eq, validatorCount, Finset.card_def, ← h,
    Multiset.coe_card]

/-- The reader finds the entries it expects if the count is the number of the validators. -/
theorem decodeBehaviorData_encodeBehaviorData (h : s.Walk walk) :
    decodeBehaviorData (s.encodeBehaviorData walk) =
      if s.validatorCount < 256 then
        some (decodeScores s.validatorCount ((validatorsAscending walk).flatMap s.scoreEntry) ∅)
      else none := by
  rw [encodeBehaviorData, decodeBehaviorData, length_entries, h.length_validatorsAscending,
    UInt8.toNat_ofNat']
  split <;> split
  next hlt =>
    rw [Nat.mod_eq_of_lt hlt]
  · omega
  · omega
  · rfl

end Snapshot

/-- **The map of the scores comes back if there are fewer than 256 validators**, and otherwise
nothing does. -/
theorem decodeBehaviorData_encodeBehaviorData_iff (s : Snapshot) {walk : List Address}
    (h : s.Walk walk) :
    (∃ scores, decodeBehaviorData (s.encodeBehaviorData walk) = some scores ∧
      ∀ v, scores.lookup v = (s.validators.lookup v).map BehaviorScore.total) ↔
        s.validatorCount < 256 := by
  rw [decodeBehaviorData_encodeBehaviorData h]
  constructor
  · rintro ⟨scores, hscores, -⟩
    by_contra hmany
    rw [if_neg hmany] at hscores
    cases hscores
  · intro hfew
    refine ⟨_, if_pos hfew, fun v => ?_⟩
    have hmem : v ∈ validatorsAscending walk ↔ (s.validators.lookup v).isSome := by
      rw [(perm_validatorsAscending walk).mem_iff, h.mem_iff, Finmap.lookup_isSome]
    rw [← h.length_validatorsAscending, lookup_decodeScores, scoreOf]
    cases hv : s.validators.lookup v <;> simp [hmem, hv]

/-- Two new validators. -/
theorem decodeBehaviorData_twoValidators :
    ∃ scores, decodeBehaviorData ((newSnapshot ⟨30000, 0⟩ 0 0 [2, 1]).encodeBehaviorData [1, 2]) =
      some scores ∧ ∀ v, scores.lookup v =
        ((newSnapshot ⟨30000, 0⟩ 0 0 [2, 1]).validators.lookup v).map BehaviorScore.total :=
  (decodeBehaviorData_encodeBehaviorData_iff _ (by unfold Snapshot.Walk; decide +kernel)).mpr
    (by decide +kernel)

/-- With 256 validators the count wraps to zero. -/
theorem decodeBehaviorData_manyValidators :
    let vals := (range 256).map (BitVec.ofNat 160)
    decodeBehaviorData ((newSnapshot ⟨30000, 0⟩ 0 0 vals).encodeBehaviorData vals) = none := by
  decide +kernel

end ProbeChain
