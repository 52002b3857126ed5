/-
# Frames

`FrameBlock` and `UnframeBlock` of `p2p/stellar/reedsolomon.go`, and `EncodeBlock` and `DecodeBlock`
of `p2p/stellar/default_encap.go`.  A frame is a preamble, a length in four bytes, the data with its
parity bytes and a checksum, which is a parameter here.

The length comes from whoever sent the stream.  The bytes that are left are compared with it in 32
bits, after four has been added to it.  If the sum wraps around, the comparison succeeds and the
data is out of range, which is a panic; and of more than four gigabytes that are left only the
remainder counts.  `radio_blocks_iff` says which streams make the decoder panic and when a block is
read back with other bytes behind it.
-/
import ProbeChain.Lib.Check
import ProbeChain.Stellar.ReedSolomon

namespace ProbeChain.Stellar

open BigEndian Check List

/-! ## 1. Slices and numbers -/

/-- `b[low:high]`.  Go looks at the capacity where this looks at the length; the slice from `high`
on comes next, and it is out of range if `high` is beyond the length. -/
def slice (b : Bytes) (low high : Nat) : Except StellarError Bytes :=
  if low ≤ high ∧ high ≤ b.length then .ok ((b.drop low).take (high - low)) else .error .outOfRange

def putUint32 (n : UInt32) : Bytes := ofNatWidth 4 n.toNat

/-- The number in the first four bytes. -/
def readUint32 (b : Bytes) : UInt32 := UInt32.ofNat (toNat (b.take 4))

/-- `binary.BigEndian.Uint32` -/
def uint32 (b : Bytes) : Except StellarError UInt32 :=
  if b.length < 4 then .error .outOfRange else .ok (readUint32 b)

theorem length_putUint32 (n : UInt32) : (putUint32 n).length = 4 := ofNatWidth_length _ _

theorem readUint32_putUint32 (n : UInt32) (rest : Bytes) :
    readUint32 (putUint32 n ++ rest) = n := by
  unfold readUint32
  rw [take_left' (length_putUint32 n), putUint32, toNat_ofNatWidth _ _ n.toNat_lt]
  exact UInt32.ofNat_toNat

/-! ## 2. Frames and blocks -/

variable (crc : Bytes → UInt32)

def frameBlock (data preamble : Bytes) : Bytes :=
  preamble ++ (putUint32 (UInt32.ofNat data.length) ++ (data ++ putUint32 (crc data)))

def unframeBlock (frame preamble : Bytes) : Except StellarError Bytes := do
  let minLen := preamble.length + 4 + 4
  require (minLen ≤ frame.length) .frameTooShort
  require (frame.take preamble.length = preamble) .preambleMissing
  let offset := preamble.length
  let dataLen ← uint32 (frame.drop offset)
  let offset := offset + 4
  require (dataLen + 4 ≤ UInt32.ofNat (frame.length - offset)) .frameTooShort
  let data ← slice frame offset (offset + dataLen.toNat)
  let offset := offset + dataLen.toNat
  let rest ← slice frame offset frame.length
  let expectedCRC ← uint32 rest
  require (expectedCRC = crc data) .crcMismatch
  return data

structure DefaultEncap where
  parityShards : Int
  preamble : Bytes

def defaultSyncPreamble : Bytes := [0xAA, 0x55, 0xAA, 0x55, 0x50, 0x52, 0x42, 0x45]

/-- `NewDefaultEncap` -/
def newDefaultEncap : DefaultEncap := { parityShards := 16, preamble := defaultSyncPreamble }

def maxBlockSize : Nat := 4 * 1024 * 1024

def DefaultEncap.encodeBlock (e : DefaultEncap) (block : Bytes) : Except StellarError Bytes := do
  require (block.length ≠ 0) .blockEmpty
  require (block.length ≤ maxBlockSize) .blockTooLarge
  let fecData ← encodeRS block e.parityShards
  return frameBlock crc fecData e.preamble

def DefaultEncap.decodeBlock (e : DefaultEncap) (stream : Bytes) : Except StellarError Bytes := do
  let fecData ← unframeBlock crc stream e.preamble
  decodeRS fecData e.parityShards

/-! ## 3. What is read -/

/-- The length that a frame claims, after a preamble of `n` bytes. -/
def claimed (frame : Bytes) (n : Nat) : UInt32 := readUint32 (frame.drop n)

/-- The bytes that go with it. -/
def payload (frame : Bytes) (n : Nat) : Bytes := (frame.drop (n + 4)).take (claimed frame n).toNat

/-- The comparison succeeds for a length that wraps around, and there are not that many bytes. -/
def Overlong (frame preamble : Bytes) : Prop :=
  preamble.length + 8 ≤ frame.length ∧ frame.take preamble.length = preamble ∧
    2 ^ 32 - 4 ≤ (claimed frame preamble.length).toNat ∧
    frame.length - (preamble.length + 4) < 2 ^ 32

theorem add_four_le_iff (n : UInt32) (m : Nat) : n + 4 ≤ UInt32.ofNat m ↔
    (n.toNat + 4) % 2 ^ 32 ≤ m % 2 ^ 32 := by
  rfl

variable {crc : Bytes → UInt32} {frame preamble : Bytes} {e : DefaultEncap}

/-- With the preamble in place the length decides.  Where the comparison succeeds although not all
bytes are there, one of the slices is out of range. -/
theorem unframeBlock_eq (hlength : preamble.length + 8 ≤ frame.length)
    (hpreamble : frame.take preamble.length = preamble) :
    unframeBlock crc frame preamble =
      if (frame.length - (preamble.length + 4)) % 2 ^ 32 <
        ((claimed frame preamble.length).toNat + 4) % 2 ^ 32 then
        .error .frameTooShort
      else if frame.length < preamble.length + 8 + (claimed frame preamble.length).toNat then
        .error .outOfRange
      else if readUint32
        (frame.drop (preamble.length + 4 + (claimed frame preamble.length).toNat)) =
        crc (payload frame preamble.length) then .ok (payload frame preamble.length)
      else .error .crcMismatch := by
  have hminLen : preamble.length + 4 + 4 ≤ frame.length := hlength
  have hfour : ¬ (frame.drop preamble.length).length < 4 := by
    rw [length_drop]
    omega
  unfold unframeBlock payload claimed
  simp only [require, uint32, if_pos hminLen, if_pos hpreamble, if_neg hfour, bind, Except.bind]
  generalize readUint32 (frame.drop preamble.length) = dataLen
  by_cases hcheck : dataLen + 4 ≤ UInt32.ofNat (frame.length - (preamble.length + 4))
  · rw [if_pos hcheck, if_neg (Nat.not_lt.mpr ((add_four_le_iff _ _).mp hcheck))]
    by_cases hdata : preamble.length + 4 + dataLen.toNat ≤ frame.length
    · have hslice : slice frame (preamble.length + 4) (preamble.length + 4 + dataLen.toNat) =
          .ok ((frame.drop (preamble.length + 4)).take dataLen.toNat) := by
        rw [slice, if_pos ⟨Nat.le_add_right _ _, hdata⟩, Nat.add_sub_cancel_left]
      have hrest : slice frame (preamble.length + 4 + dataLen.toNat) frame.length =
          .ok (frame.drop (preamble.length + 4 + dataLen.toNat)) := by
        rw [slice, if_pos ⟨hdata, Nat.le_refl _⟩, ← length_drop, take_length]
      rw [hslice, hrest]
      dsimp only
      rw [length_drop]
      by_cases hcrc : frame.length < preamble.length + 8 + dataLen.toNat
      · rw [if_pos hcrc, if_pos (by omega)]
      · rw [if_neg hcrc, if_neg (by omega)]
        dsimp only
        by_cases hmatch : readUint32 (frame.drop (preamble.length + 4 + dataLen.toNat)) =
            crc ((frame.drop (preamble.length + 4)).take dataLen.toNat)
        · rw [if_pos hmatch, if_pos hmatch]
          rfl
        · rw [if_neg hmatch, if_neg hmatch]
    · rw [slice, if_neg (by omega), if_pos (by omega)]
  · rw [if_neg hcheck, if_pos (Nat.not_le.mp (mt (add_four_le_iff _ _).mpr hcheck))]

variable (crc) in
/-- Without the room for an empty frame, or without the preamble, there is an error. -/
theorem unframeBlock_ne
    (h : ¬ (preamble.length + 8 ≤ frame.length ∧ frame.take preamble.length = preamble)) :
    ∃ err, unframeBlock crc frame preamble = .error err ∧ err ≠ .outOfRange := by
  unfold unframeBlock
  by_cases hlength : preamble.length + 4 + 4 ≤ frame.length
  · have hpreamble : ¬ frame.take preamble.length = preamble := fun hp => h ⟨hlength, hp⟩
    simp only [require, if_pos hlength, if_neg hpreamble, bind, Except.bind]
    exact ⟨_, rfl, by rintro ⟨⟩⟩
  · simp only [require, if_neg hlength, bind, Except.bind]
    exact ⟨_, rfl, by rintro ⟨⟩⟩

variable (crc) in
/-- **Exactly the overlong frames are out of range.** -/
theorem unframeBlock_outOfRange_iff : unframeBlock crc frame preamble = .error .outOfRange ↔
    Overlong frame preamble := by
  by_cases h : preamble.length + 8 ≤ frame.length ∧ frame.take preamble.length = preamble
  · have hclaimed := (claimed frame preamble.length).toNat_lt
    rw [unframeBlock_eq h.1 h.2, Overlong]
    split_ifs with hcheck hshort hcrc
    · refine iff_of_false (by rintro ⟨⟩) ?_
      omega
    · refine iff_of_true rfl ⟨h.1, h.2, ?_⟩
      omega
    · refine iff_of_false (by rintro ⟨⟩) ?_
      omega
    · refine iff_of_false (by rintro ⟨⟩) ?_
      omega
  · obtain ⟨err, herr, hne⟩ := unframeBlock_ne crc h
    rw [herr]
    refine iff_of_false (fun heq => hne (Except.error.inj heq)) fun hlong => h ⟨hlong.1, hlong.2.1⟩

theorem decodeRS_ne_outOfRange (stream : Bytes) (parityShards : Int) :
    decodeRS stream parityShards ≠ .error .outOfRange := by
  unfold decodeRS
  dsimp only
  split_ifs <;> rintro ⟨⟩

theorem decodeBlock_outOfRange_iff :
    e.decodeBlock crc frame = .error .outOfRange ↔ Overlong frame e.preamble := by
  rw [← unframeBlock_outOfRange_iff crc, DefaultEncap.decodeBlock]
  cases unframeBlock crc frame e.preamble with
  | ok fecData => exact iff_of_false (decodeRS_ne_outOfRange fecData e.parityShards) (by rintro ⟨⟩)
  | error err => exact .rfl

/-! ## 4. Round trips -/

/-- Without errors the parity bytes match. -/
theorem decodeRS_encodeRS {data encoded : Bytes} {parityShards : Int}
    (h : encodeRS data parityShards = .ok encoded) :
    decodeRS encoded parityShards = .ok data := by
  obtain ⟨hparity, hdata, rfl⟩ := encodeRS_eq_ok.mp h
  rw [decodeRS_append hparity hdata length_parityOf, if_pos rfl]

/-- A frame with other bytes behind it is read, unless so many are left that their number wraps
around. -/
theorem unframeBlock_frameBlock {data : Bytes} (hdata : data.length + 4 < 2 ^ 32) (rest : Bytes) :
    unframeBlock crc (frameBlock crc data preamble ++ rest) preamble =
      if (data.length + 4 + rest.length) % 2 ^ 32 <
        data.length + 4 then .error .frameTooShort else .ok data := by
  have hframe : frameBlock crc data preamble ++ rest =
      preamble ++
      (putUint32 (UInt32.ofNat data.length) ++ (data ++ (putUint32 (crc data) ++ rest))) := by
    simp only [frameBlock, append_assoc]
  have hlength : (frameBlock crc data preamble ++ rest).length =
      preamble.length + 8 + data.length + rest.length := by
    rw [hframe]
    simp only [length_append, length_putUint32]
    omega
  have hheader : preamble.length + 4 =
      (preamble ++ putUint32 (UInt32.ofNat data.length)).length := by
    rw [length_append, length_putUint32]
  have hclaimed : claimed (frameBlock crc data preamble ++ rest) preamble.length =
      UInt32.ofNat data.length := by
    rw [claimed, hframe, drop_left, readUint32_putUint32]
  have hsize : (claimed (frameBlock crc data preamble ++ rest) preamble.length).toNat =
      data.length := by
    rw [hclaimed, UInt32.toNat_ofNat', Nat.mod_eq_of_lt (by omega)]
  have hpayload : payload (frameBlock crc data preamble ++ rest) preamble.length = data := by
    rw [payload, hsize, hframe, hheader, ← append_assoc, drop_left, take_left]
  have hchecksum : readUint32
      ((frameBlock crc data preamble ++ rest).drop (preamble.length + 4 + data.length)) =
      crc data := by
    rw [hframe, hheader, ← length_append, ← append_assoc, ← append_assoc, drop_left,
      readUint32_putUint32]
  rw [unframeBlock_eq (by omega) (by rw [hframe, take_left]), hsize, hpayload, hchecksum,
    hlength, if_pos rfl, Nat.mod_eq_of_lt hdata,
    show preamble.length + 8 + data.length + rest.length - (preamble.length + 4) =
      data.length + 4 + rest.length by
      omega, if_neg (by omega : ¬ preamble.length + 8 + data.length + rest.length <
      preamble.length + 8 + data.length)]

theorem encodeBlock_eq_ok {block framed : Bytes} :
    e.encodeBlock crc block = .ok framed ↔ block.length ≠ 0 ∧ block.length ≤ maxBlockSize ∧
      ∃ fecData, encodeRS block e.parityShards = .ok fecData ∧
      framed = frameBlock crc fecData e.preamble := by
  rw [DefaultEncap.encodeBlock, require_bind_eq_ok, require_bind_eq_ok, bind_eq_ok]
  refine and_congr_right fun _ => and_congr_right fun _ => exists_congr fun fecData =>
    and_congr_right fun _ => ?_
  exact ⟨fun h => (Except.ok.inj h).symm, fun h => h ▸ rfl⟩

theorem decodeBlock_encodeBlock_iff {block framed : Bytes}
    (h : e.encodeBlock crc block = .ok framed) (rest : Bytes) :
    e.decodeBlock crc (framed ++ rest) = .ok block ↔
      block.length + e.parityShards.toNat + 4 ≤
        (block.length + e.parityShards.toNat + 4 + rest.length) % 2 ^ 32 := by
  obtain ⟨-, hsize, fecData, hencoded, rfl⟩ := encodeBlock_eq_ok.mp h
  have hdecoded := decodeRS_encodeRS hencoded
  obtain ⟨hparity, -, rfl⟩ := encodeRS_eq_ok.mp hencoded
  have hlength : (block ++ parityOf e.parityShards.toNat block).length =
      block.length + e.parityShards.toNat := by
    rw [length_append, length_parityOf]
  have hbound : block.length + e.parityShards.toNat + 4 < 2 ^ 32 := by
    unfold maxBlockSize at hsize
    omega
  rw [DefaultEncap.decodeBlock, unframeBlock_frameBlock (by rwa [hlength]), hlength]
  split
  next hwrapped =>
    refine iff_of_false (by rintro ⟨⟩) ?_
    omega
  next hfits => exact iff_of_true hdecoded (by omega)

/-- **What the decoder does with a stream**, for every preamble and number of parity bytes.  It
panics exactly on the overlong frames.  Every block of up to four megabytes has an encoding, and
that is decoded with any bytes behind it as long as the number of bytes left does not wrap
around. -/
theorem radio_blocks_iff (crc : Bytes → UInt32) (e : DefaultEncap) :
    (∀ stream, (unframeBlock crc stream e.preamble ≠ .error .outOfRange ↔
      ¬ Overlong stream e.preamble) ∧
      (e.decodeBlock crc stream ≠ .error .outOfRange ↔ ¬ Overlong stream e.preamble)) ∧
    (∀ block : Bytes, 1 ≤ block.length ∧ block.length ≤ 4 * 1024 * 1024 ∧ 1 ≤ e.parityShards ∧
      e.parityShards ≤ 255 ↔
      ∃ framed, e.encodeBlock crc block = .ok framed) ∧
    ∀ block framed, e.encodeBlock crc block = .ok framed → ∀ rest : Bytes,
      (e.decodeBlock crc (framed ++ rest) = .ok block ↔ block.length + e.parityShards.toNat + 4 ≤
        (block.length + e.parityShards.toNat + 4 + rest.length) % 2 ^ 32) := by
  refine ⟨fun stream => ⟨not_congr (unframeBlock_outOfRange_iff crc),
    not_congr decodeBlock_outOfRange_iff⟩, fun block => ?_,
    fun block framed h rest => decodeBlock_encodeBlock_iff h rest⟩
  simp only [encodeBlock_eq_ok, encodeRS_eq_ok]
  constructor
  · rintro ⟨hpos, hsize, hparity⟩
    have hne : block ≠ [] := fun h => by simp [h] at hpos
    exact ⟨_, by omega, hsize, _, ⟨by omega, hne, rfl⟩, rfl⟩
  · rintro ⟨framed, hne, hsize, fecData, ⟨hparity, -⟩, -⟩
    exact ⟨by omega, hsize, by omega⟩

/-- **Sixteen bytes that stop the receiver**: the preamble, a length of 2 ^ 32 - 1 and four more.
The checksum is not even looked at. -/
theorem overlong_panics :
    newDefaultEncap.decodeBlock (fun _ => 0)
      (defaultSyncPreamble ++ [255, 255, 255, 255, 0, 0, 0, 0]) =
      .error .outOfRange := by
  decide

end ProbeChain.Stellar
