/-
# The parity bytes of the radio encapsulation

`EncodeRS` and `DecodeRS` of `p2p/stellar/reedsolomon.go`.  Byte `i` of the data belongs to group
`i % parityShards`, and a parity byte is the XOR of its group.  A parity byte that does not match
says which group was hit and by what, and not which of its bytes: the decoder takes the last one.
If the error is in a parity byte the data is hit by the correction, unless the group has no bytes.

`single_error_iff` says which single errors are corrected.
-/
import ProbeChain.Common.Types
import Mathlib.Data.Nat.ModEq

namespace ProbeChain.Stellar

open List

/-- The errors of the package.  The last is a run-time panic. -/
inductive StellarError where
  | dataTooShort
  | invalidParity
  | frameTooShort
  | preambleMissing
  | crcMismatch
  | blockTooLarge
  | blockEmpty
  | outOfRange
  deriving DecidableEq, Repr

/-! ## 1. The code -/

/-- `l[k] ^= e` -/
def xorAt (l : Bytes) (k : Nat) (e : UInt8) : Bytes := l.modify k (· ^^^ e)

/-- The loop over the data, from index `i` on. -/
def foldParity (parityShards : Nat) : Nat → Bytes → Bytes → Bytes
  | _, [], parity => parity
  | i, b :: data, parity => foldParity parityShards (i + 1) data (xorAt parity (i % parityShards) b)

def parityOf (parityShards : Nat) (data : Bytes) : Bytes :=
  foldParity parityShards 0 data (replicate parityShards 0)

def encodeRS (data : Bytes) (parityShards : Int) : Except StellarError Bytes :=
  if parityShards ≤ 0 ∨ 255 < parityShards then .error .invalidParity
  else if data = [] then .error .dataTooShort
  else .ok (data ++ parityOf parityShards.toNat data)

/-- The loop that looks for the last byte of a group, from index `j` on.  It takes at most `dataLen`
turns. -/
def lastIndex (parityShards dataLen : Nat) : Nat → Nat → Option Nat → Option Nat
  | 0, _, lastIdx => lastIdx
  | turns + 1, j, lastIdx =>
    if j < dataLen then lastIndex parityShards dataLen turns (j + parityShards) (some j)
      else lastIdx

/-- What the correction does about group `i`. -/
def correctGroup (parityShards dataLen : Nat) (computedParity receivedParity corrected : Bytes)
    (i : Nat) : Bytes :=
  let diff := computedParity.getD i 0 ^^^ receivedParity.getD i 0
  if diff ≠ 0 then
    match lastIndex parityShards dataLen dataLen i none with
    | some lastIdx => xorAt corrected lastIdx diff
    | none => corrected
  else corrected

def decodeRS (stream : Bytes) (parityShards : Int) : Except StellarError Bytes :=
  if parityShards ≤ 0 ∨ 255 < parityShards then .error .invalidParity
  else
    let parityShards := parityShards.toNat
    if stream.length ≤ parityShards then .error .dataTooShort
    else
      let dataLen := stream.length - parityShards
      let data := stream.take dataLen
      let receivedParity := stream.drop dataLen
      let computedParity := parityOf parityShards data
      if computedParity = receivedParity then .ok data
      else .ok ((range parityShards).foldl
        (correctGroup parityShards dataLen computedParity receivedParity) data)

/-! ## 2. One byte -/

variable {l a b data parity : Bytes} {k : Nat} {e : UInt8}

@[simp] theorem length_xorAt : (xorAt l k e).length = l.length := length_modify ..

theorem getElem?_xorAt (j : Nat) :
    (xorAt l k e)[j]? = if k = j then l[j]?.map (· ^^^ e) else l[j]? := by
  unfold xorAt
  rw [getElem?_modify]
  split
  · rfl
  · exact Option.map_id' ..

theorem getD_xorAt_of_ne {j : Nat} (h : j ≠ k) : (xorAt l k e).getD j 0 = l.getD j 0 := by
  rw [getD_eq_getElem?_getD, getElem?_xorAt, if_neg (Ne.symm h), ← getD_eq_getElem?_getD]

theorem getD_xorAt_self (h : k < l.length) : (xorAt l k e).getD k 0 = l.getD k 0 ^^^ e := by
  rw [getD_eq_getElem?_getD, getElem?_xorAt, if_pos rfl, getD_eq_getElem?_getD]
  simp [h]

theorem xorAt_comm (j : Nat) (e' : UInt8) :
    xorAt (xorAt l k e) j e' = xorAt (xorAt l j e') k e := by
  refine ext_getElem? fun m => ?_
  simp only [getElem?_xorAt]
  cases l[m]? with
  | none => simp
  | some x =>
    by_cases hj : j = m
    · by_cases hk : k = m
      · simp [hj, hk, UInt8.xor_assoc, UInt8.xor_comm e e']
      · simp [hj, hk]
    · simp [hj]

theorem xorAt_xor (e' : UInt8) : xorAt l k (e ^^^ e') = xorAt (xorAt l k e) k e' := by
  refine ext_getElem? fun m => ?_
  simp only [getElem?_xorAt]
  by_cases hk : k = m
  · cases l[m]? with
    | none => simp [hk]
    | some x => simp [hk, UInt8.xor_assoc]
  · simp [hk]

theorem xorAt_zero : xorAt l k 0 = l := by
  refine ext_getElem? fun m => ?_
  rw [getElem?_xorAt]
  simp

theorem xorAt_xorAt : xorAt (xorAt l k e) k e = l := by
  rw [← xorAt_xor, UInt8.xor_self, xorAt_zero]

theorem xor_eq_left_iff {x y : UInt8} : x ^^^ y = x ↔ y = 0 := by
  constructor
  · intro h
    calc y = x ^^^ (x ^^^ y) := by rw [← UInt8.xor_assoc, UInt8.xor_self, UInt8.zero_xor]
      _ = 0 := by rw [h, UInt8.xor_self]
  · rintro rfl
    exact UInt8.xor_zero

theorem xorAt_eq_self_iff (hk : k < l.length) : xorAt l k e = l ↔ e = 0 := by
  constructor
  · intro h
    exact xor_eq_left_iff.mp (by rw [← getD_xorAt_self hk, h])
  · rintro rfl
    exact xorAt_zero

theorem xorAt_xorAt_eq_self_iff {m : Nat} (hk : k < l.length) (he : e ≠ 0) :
    xorAt (xorAt l k e) m e = l ↔ m = k := by
  constructor
  · intro h
    by_contra hne
    have hbyte : (xorAt l k e).getD k 0 = l.getD k 0 := by
      rw [← getD_xorAt_of_ne (l := xorAt l k e) (e := e) (Ne.symm hne), h]
    rw [getD_xorAt_self hk] at hbyte
    exact he (xor_eq_left_iff.mp hbyte)
  · rintro rfl
    exact xorAt_xorAt

theorem xorAt_append_left (hk : k < a.length) : xorAt (a ++ b) k e = xorAt a k e ++ b := by
  refine ext_getElem? fun m => ?_
  simp only [getElem?_xorAt, getElem?_append, length_xorAt]
  by_cases hm : m < a.length
  · simp [hm]
  · have hne : k ≠ m := by omega
    simp [hm, hne]

theorem xorAt_append_right (hk : a.length ≤ k) :
    xorAt (a ++ b) k e = a ++ xorAt b (k - a.length) e := by
  refine ext_getElem? fun m => ?_
  simp only [getElem?_xorAt, getElem?_append]
  by_cases hm : m < a.length
  · have hne : k ≠ m := by omega
    simp [hm, hne]
  · have heq : k = m ↔ k - a.length = m - a.length := by omega
    simp [hm, heq]

/-! ## 3. Parity -/

variable {shards i : Nat}

@[simp] theorem length_foldParity : (foldParity shards i data parity).length = parity.length := by
  induction data generalizing i parity with
  | nil => rfl
  | cons b data ih => rw [foldParity, ih, length_xorAt]

@[simp] theorem length_parityOf : (parityOf shards data).length = shards := by
  rw [parityOf, length_foldParity, length_replicate]

theorem foldParity_xorAt : foldParity shards i data (xorAt parity k e) =
    xorAt (foldParity shards i data parity) k e := by
  induction data generalizing i parity with
  | nil => rfl
  | cons b data ih => rw [foldParity, foldParity, xorAt_comm, ih]

/-- An error in the data is an error in the parity byte of its group. -/
theorem foldParity_data (hk : k < data.length) :
    foldParity shards i (xorAt data k e) parity =
      xorAt (foldParity shards i data parity) ((i + k) % shards) e := by
  induction data generalizing i k parity with
  | nil => exact absurd hk (Nat.not_lt_zero k)
  | cons b data ih =>
    cases k with
    | zero =>
      show foldParity shards (i + 1) data (xorAt parity (i % shards) (b ^^^ e)) = _
      rw [xorAt_xor, foldParity_xorAt]
      rfl
    | succ k =>
      show foldParity shards (i + 1) (xorAt data k e) _ = _
      rw [ih (Nat.lt_of_succ_lt_succ hk), foldParity, Nat.add_right_comm, Nat.add_assoc]

theorem parityOf_xorAt (hk : k < data.length) :
    parityOf shards (xorAt data k e) = xorAt (parityOf shards data) (k % shards) e := by
  unfold parityOf
  rw [foldParity_data hk, Nat.zero_add]

/-! ## 4. Correction -/

variable {dataLen : Nat}

/-- The loop ends in the last byte of the group, or where it started if the group is empty. -/
theorem lastIndex_spec (hshards : 0 < shards) (turns : Nat) : ∀ (j : Nat) (lastIdx : Option Nat),
    dataLen ≤ j + turns →
    (dataLen ≤ j → lastIndex shards dataLen turns j lastIdx = lastIdx) ∧
    (j < dataLen → ∃ m, lastIndex shards dataLen turns j lastIdx = some m ∧ m ≡ j [MOD shards] ∧
      m < dataLen ∧ dataLen ≤ m + shards) := by
  induction turns with
  | zero =>
    intro j lastIdx hturns
    exact ⟨fun _ => rfl, fun hj => absurd hj (by omega)⟩
  | succ turns ih =>
    intro j lastIdx hturns
    refine ⟨fun hj => if_neg (by omega), fun hj => ?_⟩
    obtain ⟨hdone, hmore⟩ := ih (j + shards) (some j) (by omega)
    rw [lastIndex, if_pos hj]
    rcases Nat.lt_or_ge (j + shards) dataLen with hnext | hlast
    · obtain ⟨m, hm, hmod, hlt, hle⟩ := hmore hnext
      exact ⟨m, hm, hmod.trans (Nat.add_modEq_right), hlt, hle⟩
    · exact ⟨j, hdone hlast, Nat.ModEq.refl j, hj, hlast⟩

/-- For a group that has bytes, the last one is the only one with fewer than `shards` bytes after
it. -/
theorem lastIndex_group (hshards : 0 < shards) (hi : i < dataLen) :
    ∃ m, lastIndex shards dataLen dataLen i none = some m ∧ m < dataLen ∧
      ∀ k < dataLen, k % shards = i % shards → (m = k ↔ dataLen ≤ k + shards) := by
  obtain ⟨m, hm, hmod, hlt, hle⟩ := (lastIndex_spec hshards dataLen i none (by omega)).2 hi
  refine ⟨m, hm, hlt, fun k hk hgroup => ⟨fun h => h ▸ hle, fun hk' => ?_⟩⟩
  have hmk : m ≡ k [MOD shards] := hmod.trans hgroup.symm
  rcases Nat.lt_trichotomy m k with h | h | h
  · have := hmk.add_le_of_lt h
    omega
  · exact h
  · have := hmk.symm.add_le_of_lt h
    omega

/-- With one parity byte off, only its group is corrected. -/
theorem foldl_correctGroup {received : Bytes} (hi : i < shards)
    (hreceived : received.length = shards) (he : e ≠ 0) :
    (range shards).foldl (correctGroup shards dataLen (xorAt received i e) received) data =
      (lastIndex shards dataLen dataLen i none).elim data (xorAt data · e) := by
  have hother : ∀ (j : Nat) (corrected : Bytes), j ≠ i →
      correctGroup shards dataLen (xorAt received i e) received corrected j = corrected := by
    intro j corrected hj
    unfold correctGroup
    rw [getD_xorAt_of_ne hj, UInt8.xor_self]
    exact if_neg (not_not_intro rfl)
  have hgroup : correctGroup shards dataLen (xorAt received i e) received data i =
      (lastIndex shards dataLen dataLen i none).elim data (xorAt data · e) := by
    have hdiff : (xorAt received i e).getD i 0 ^^^ received.getD i 0 = e := by
      rw [getD_xorAt_self (by omega), UInt8.xor_comm, ← UInt8.xor_assoc, UInt8.xor_self,
        UInt8.zero_xor]
    unfold correctGroup
    rw [hdiff, if_pos he]
    cases lastIndex shards dataLen dataLen i none with
    | none => rfl
    | some m => rfl
  -- nothing happens before group `i`, and nothing after it
  have hprogress : ∀ n, (range n).foldl
      (correctGroup shards dataLen (xorAt received i e) received) data =
      if i < n then correctGroup shards dataLen (xorAt received i e) received data i else data := by
    intro n
    induction n with
    | zero => rfl
    | succ n ih =>
      rw [range_succ, foldl_append, ih, foldl_cons, foldl_nil]
      rcases Nat.lt_trichotomy i n with h | h | h
      · rw [if_pos h, if_pos (by omega), hother n _ (by omega)]
      · rw [if_neg (by omega), if_pos (by omega), h]
      · rw [if_neg (by omega), if_neg (by omega), hother n _ (by omega)]
  rw [hprogress, if_pos hi, hgroup]

/-! ## 5. Single errors -/

/-- The streams are equal but for the byte at `k`. -/
def DiffersAt (stream encoded : Bytes) (k : Nat) : Prop :=
  stream.length = encoded.length ∧ ∀ j, stream[j]? ≠ encoded[j]? ↔ j = k

theorem DiffersAt.eq_xorAt {stream encoded : Bytes} (h : DiffersAt stream encoded k) :
    k < encoded.length ∧ ∃ e, e ≠ 0 ∧ stream = xorAt encoded k e := by
  obtain ⟨hlength, hdiffers⟩ := h
  have hne : stream[k]? ≠ encoded[k]? := (hdiffers k).mpr rfl
  have hk : k < encoded.length := by
    by_contra hge
    rw [getElem?_eq_none (by omega), getElem?_eq_none (by omega)] at hne
    exact hne rfl
  have hxor : stream = xorAt encoded k (encoded.getD k 0 ^^^ stream.getD k 0) := by
    refine ext_getElem? fun j => ?_
    rw [getElem?_xorAt]
    split
    next hj =>
      subst hj
      simp [getD_eq_getElem?_getD, hk, hlength ▸ hk, ← UInt8.xor_assoc]
    next hj => exact not_not.mp fun hne => hj ((hdiffers j).mp hne).symm
  refine ⟨hk, _, fun hzero => ?_, hxor⟩
  rw [hzero, (xorAt_eq_self_iff hk).mpr rfl] at hxor
  exact hne (by rw [hxor])

theorem encodeRS_eq_ok {encoded : Bytes} {parityShards : Int} :
    encodeRS data parityShards = .ok encoded ↔ (0 < parityShards ∧ parityShards ≤ 255) ∧ data ≠ [] ∧
      encoded = data ++ parityOf parityShards.toNat data := by
  unfold encodeRS
  split_ifs with hparity hdata
  · refine iff_of_false (by rintro ⟨⟩) ?_
    rintro ⟨hrange, -⟩
    omega
  · simp [hdata]
  · have hrange : 0 < parityShards ∧ parityShards ≤ 255 := by omega
    simp [hdata, hrange, eq_comm]

/-- What is decoded from data and parity bytes that match or differ in one byte. -/
theorem decodeRS_append {received : Bytes} {parityShards : Int}
    (hparity : 0 < parityShards ∧ parityShards ≤ 255) (hdata : data ≠ [])
    (hreceived : received.length = parityShards.toNat) :
    decodeRS (data ++ received) parityShards =
      if parityOf parityShards.toNat data = received then .ok data
      else .ok ((range parityShards.toNat).foldl
        (correctGroup parityShards.toNat data.length (parityOf parityShards.toNat data) received)
          data) := by
  have hpos : 0 < data.length := length_pos_iff.mpr hdata
  have hlength : (data ++ received).length - parityShards.toNat = data.length := by
    rw [length_append]
    omega
  unfold decodeRS
  dsimp only
  rw [if_neg (by omega), if_neg (by rw [length_append]; omega), hlength, take_left' rfl,
    drop_left' rfl]

/-- **Which single errors are corrected**: those in the last data byte of a group, and those in a
parity byte whose group is empty. -/
theorem single_error_iff (data encoded stream : Bytes) (parityShards : Int) (k : Nat)
    (hencoded : encodeRS data parityShards = .ok encoded) (hdiffers : DiffersAt stream encoded k) :
    decodeRS stream parityShards = .ok data ↔
      (k < data.length ∧ data.length ≤ k + parityShards.toNat) ∨ 2 * data.length ≤ k := by
  obtain ⟨hparity, hdata, rfl⟩ := encodeRS_eq_ok.mp hencoded
  obtain ⟨hk, e, he, rfl⟩ := hdiffers.eq_xorAt
  have hshards : 0 < parityShards.toNat := by omega
  rw [length_append, length_parityOf] at hk
  rcases Nat.lt_or_ge k data.length with hlt | hge
  · -- the byte `k` is hit by the error and the last byte of its group by the correction
    have hgroup : k % parityShards.toNat < parityShards.toNat := Nat.mod_lt k hshards
    obtain ⟨m, hm, -, huniq⟩ :=
      lastIndex_group hshards (Nat.lt_of_le_of_lt (Nat.mod_le k parityShards.toNat) hlt)
    have hmatch : ¬ xorAt (parityOf parityShards.toNat data) (k % parityShards.toNat) e =
        parityOf parityShards.toNat data := by
      rw [xorAt_eq_self_iff (by rwa [length_parityOf])]
      exact he
    have hne : xorAt data k e ≠ [] := by
      rwa [ne_eq, ← length_eq_zero_iff, length_xorAt, length_eq_zero_iff]
    rw [xorAt_append_left hlt, decodeRS_append hparity hne length_parityOf, parityOf_xorAt hlt,
      if_neg hmatch, length_xorAt, foldl_correctGroup hgroup length_parityOf he, hm,
      Option.elim_some, Except.ok.injEq, xorAt_xorAt_eq_self_iff hlt he,
      huniq k hlt (Nat.mod_mod k _).symm]
    omega
  · -- the data is right, and the last byte of the group is hit by the correction
    obtain ⟨i, rfl⟩ := Nat.exists_eq_add_of_le hge
    have hi : i < parityShards.toNat := by omega
    have hmatch : ¬ parityOf parityShards.toNat data =
        xorAt (parityOf parityShards.toNat data) i e := by
      rw [eq_comm, xorAt_eq_self_iff (by rwa [length_parityOf])]
      exact he
    have hcomputed : parityOf parityShards.toNat data =
        xorAt (xorAt (parityOf parityShards.toNat data) i e) i e :=
      xorAt_xorAt.symm
    rw [xorAt_append_right hge, Nat.add_sub_cancel_left,
      decodeRS_append hparity hdata (by rw [length_xorAt, length_parityOf]), if_neg hmatch]
    nth_rewrite 1 [hcomputed]
    rw [foldl_correctGroup hi (by rw [length_xorAt, length_parityOf]) he, Except.ok.injEq]
    rcases Nat.lt_or_ge i data.length with hbytes | hempty
    · obtain ⟨m, hm, hmlt, -⟩ := lastIndex_group hshards hbytes
      rw [hm, Option.elim_some, xorAt_eq_self_iff hmlt]
      refine iff_of_false he ?_
      omega
    · rw [(lastIndex_spec hshards data.length i none (by omega)).1 hempty, Option.elim_none]
      refine iff_of_true rfl ?_
      omega

/-- Three bytes in two groups: an error in the last one. -/
theorem single_error_last :
    encodeRS [1, 2, 3] 2 = .ok [1, 2, 3, 2, 2] ∧ decodeRS [1, 2, 7, 2, 2] 2 = .ok [1, 2, 3] := by
  refine ⟨by decide, (single_error_iff [1, 2, 3] [1, 2, 3, 2, 2] [1, 2, 7, 2, 2] 2 2 (by decide)
    ⟨rfl, ?_⟩).mpr
    (.inl (by decide))⟩
  intro j
  rcases j with _ | _ | _ | _ | _ | j <;> simp

/-- **An error in the first byte is made worse**: the third is damaged, too. -/
theorem first_byte_not_corrected :
    encodeRS [1, 2, 3] 2 = .ok [1, 2, 3, 2, 2] ∧ DiffersAt [9, 2, 3, 2, 2] [1, 2, 3, 2, 2] 0 ∧
      decodeRS [9, 2, 3, 2, 2] 2 = .ok [9, 2, 11] := by
  refine ⟨by decide, ⟨rfl, fun j => ?_⟩, by decide⟩
  rcases j with _ | _ | _ | _ | _ | j <;> simp

end ProbeChain.Stellar
