/-
# Reading headers back

`core/types/block.go`: the header as `rlp` decodes it.  The fields stand one after the other, and a
missing number is written as zero.  The two fields at the end are optional: what is absent there is
not written, unless a field after it is present.  A header with an atomic time and no base fee is
therefore read back with the base fee zero.  Its hash is the same, but what its producer has signed
is not, as the base fee is signed only where there is one.
-/
import ProbeChain.Types.Receipt

namespace ProbeChain

open BigEndian Rlp

/-! ## 1. Decoding -/

def readAckCount : Bytes → Option (AckCount × Bytes) :=
  readStruct fun payload => do
    let (blockNumber, rest) ← readBig payload
    let (ackCount, rest) ← readUInt64 rest
    readEnd ⟨blockNumber, ackCount⟩ rest

/-- `BlockHash` is optional. -/
def readBehaviorProof : Bytes → Option (BehaviorProof × Bytes) :=
  readStruct fun payload => do
    let (number, rest) ← readBig payload
    let (mixDigest, rest) ← readHash rest
    let (nonce, rest) ← readWord 8 rest
    let (miner, rest) ← readAddress rest
    if rest = [] then some { number, mixDigest, nonce, miner }
    else do
      let (blockHash, rest) ← readHash rest
      readEnd { number, mixDigest, nonce, miner, blockHash } rest

/-- `BaseFee` and `AtomicTime` are optional. -/
def readOptionalFields (rest : Bytes) : Option (Option Nat × Option Bytes) :=
  if rest = [] then some (none, none)
  else do
    let (baseFee, rest) ← readBig rest
    if rest = [] then some (some baseFee, none)
    else do
      let (atomicTime, rest) ← readBytes rest
      readEnd (some baseFee, some atomicTime) rest

def readHeaderFields (payload : Bytes) : Option Header := do
  let (validatorAddr, rest) ← readAddress payload
  let (validatorSig, rest) ← readBytes rest
  let (ackCountList, rest) ← readList readAckCount rest
  let (acksHash, rest) ← readHash rest
  let (behaviorProofs, rest) ← readList readBehaviorProof rest
  let (parentHash, rest) ← readHash rest
  let (uncleHash, rest) ← readHash rest
  let (coinbase, rest) ← readAddress rest
  let (root, rest) ← readHash rest
  let (txHash, rest) ← readHash rest
  let (receiptHash, rest) ← readHash rest
  let (bloom, rest) ← readBloom rest
  let (difficulty, rest) ← readBig rest
  let (number, rest) ← readBig rest
  let (gasLimit, rest) ← readUInt64 rest
  let (gasUsed, rest) ← readUInt64 rest
  let (time, rest) ← readUInt64 rest
  let (extra, rest) ← readBytes rest
  let (mixDigest, rest) ← readHash rest
  let (nonce, rest) ← readWord 8 rest
  let (baseFee, atomicTime) ← readOptionalFields rest
  return ⟨validatorAddr, validatorSig, ackCountList, acksHash, behaviorProofs, parentHash,
    uncleHash, coinbase, root, txHash, receiptHash, bloom, difficulty, number, gasLimit, gasUsed,
    time, extra, mixDigest, nonce, baseFee, atomicTime⟩

/-- `rlp.DecodeBytes` into a header. -/
def decodeHeader (data : Bytes) : Option Header := do
  let payload ← splitList data
  readHeaderFields payload

/-! ## 2. What is read back -/

theorem reads_ackCount (c : AckCount) : Rlp.Reads readAckCount c.item c :=
  ReadsAll.struct <| .cons (reads_big c.blockNumber) <| .cons (reads_uInt64 c.ackCount) <| .nil rfl

theorem reads_behaviorProof (p : BehaviorProof) : Rlp.Reads readBehaviorProof p.item p := by
  refine ReadsAll.struct <| .cons (reads_big p.number) <| .cons (reads_hash p.mixDigest) <|
    .cons (reads_word (w := 8) p.nonce) <| .cons (reads_address p.miner) ?_
  split
  next hzero =>
    refine .nil ((if_pos rfl).trans ?_)
    rw [← hzero]
  next => exact .present (.cons (reads_hash p.blockHash) (.nil rfl))

namespace Header

theorem readsAll_optionalItems (h : Header) :
    ReadsAll readOptionalFields h.optionalItems (h.decoded.baseFee, h.atomicTime) := by
  unfold optionalItems decoded
  cases h.atomicTime with
  | some t =>
    exact .present <| .cons (reads_big _) <| .present <| .cons (reads_bytes t) <| .nil rfl
  | none =>
    cases h.baseFee with
    | none => exact .nil rfl
    | some fee => exact .present (.cons (reads_big fee) (.nil rfl))

/-- **Every header is read back**, up to the numbers that are absent. -/
theorem decodeHeader_rlp (h : Header) (hlen : h.rlp.length < 2 ^ 64) :
    decodeHeader h.rlp = some h.decoded := by
  refine @ReadsAll.whole _ _ _ readHeaderFields ?_ hlen
  exact .cons (reads_address _) <| .cons (reads_bytes _) <|
    .cons (reads_list fun c _ => reads_ackCount c) <|
    .cons (reads_hash _) <| .cons (reads_list fun p _ => reads_behaviorProof p) <|
    .cons (reads_hash _) <|
    .cons (reads_hash _) <| .cons (reads_address _) <| .cons (reads_hash _) <|
    .cons (reads_hash _) <|
    .cons (reads_hash _) <| .cons (reads_bloom _) <| .cons (reads_big _) <| .cons (reads_big _) <|
    .cons (reads_uInt64 _) <| .cons (reads_uInt64 _) <| .cons (reads_uInt64 _) <|
    .cons (reads_bytes _) <|
    .cons (reads_hash _) <| .cons (reads_word (w := 8) h.nonce) <|
    .bind (readsAll_optionalItems h) rfl

/-- The encoding does not tell a header from what it is read back as. -/
theorem rlp_decoded (h : Header) : h.decoded.rlp = h.rlp := by
  have hoptional : h.decoded.optionalItems = h.optionalItems := by
    unfold optionalItems decoded
    cases h.atomicTime <;> rfl
  unfold rlp
  rw [hoptional]
  rfl

/-- **The hashed bytes determine the header as it is read back.** -/
theorem decoded_eq_of_rlp_eq {h₁ h₂ : Header} (hlen : h₁.rlp.length < 2 ^ 64)
    (h : h₁.rlp = h₂.rlp) :
    h₁.decoded = h₂.decoded := by
  have hread := h₁.decodeHeader_rlp hlen
  rw [h, h₂.decodeHeader_rlp (h ▸ hlen)] at hread
  exact (Option.some.inj hread).symm

theorem decoded_eq_iff (h : Header) :
    h.decoded = h ↔ h.difficulty.isSome ∧ (h.atomicTime.isSome → h.baseFee.isSome) := by
  constructor
  · intro heq
    refine ⟨by rw [← heq]; rfl, fun hatomic => ?_⟩
    rw [← heq, decoded, if_pos hatomic]
    rfl
  · rintro ⟨hdifficulty, hfee⟩
    obtain ⟨d, hd⟩ := Option.isSome_iff_exists.mp hdifficulty
    have hbase : (if h.atomicTime.isSome then some (h.baseFee.getD 0) else h.baseFee) =
        h.baseFee := by
      split
      · next hatomic =>
        obtain ⟨fee, hf⟩ := Option.isSome_iff_exists.mp (hfee hatomic)
        rw [hf, Option.getD_some]
      · rfl
    rw [decoded, hbase, hd, Option.getD_some, ← hd]

end Header

/-- **Which headers are read back as they were.**  Every header can be read back, and the hash is
always the same; the fields and what is signed are if and only if there is a difficulty, and a
base fee where there is an atomic time, be it an empty one. -/
theorem header_roundTrip_iff (h : Header) (hlen : h.rlp.length < 2 ^ 64) :
    ∃ h', decodeHeader h.rlp = some h' ∧ (∀ K : Crypto, h'.hash K = h.hash K) ∧
      (h' = h ∧ h'.pobRLP = h.pobRLP ↔
        h.difficulty.isSome ∧ (h.atomicTime.isSome → h.baseFee.isSome)) := by
  refine ⟨h.decoded, h.decodeHeader_rlp hlen, fun K => congrArg K.keccak256 h.rlp_decoded, ?_⟩
  rw [← h.decoded_eq_iff]
  exact ⟨And.left, fun heq => ⟨heq, congrArg Header.pobRLP heq⟩⟩

theorem header_roundTrip_of_baseFee :
    let h : Header := { extra := [0], baseFee := some 7, atomicTime := some [1] }
    decodeHeader h.rlp = some h := by
  intro h
  obtain ⟨h', hdecode, -, hiff⟩ := header_roundTrip_iff h (by decide +kernel)
  rw [hdecode, (hiff.mpr ⟨rfl, fun _ => rfl⟩).1]

/-- An atomic time without a base fee, an empty one included: what is read back has a base fee,
and the signature is one of other bytes. -/
theorem header_without_baseFee :
    let h : Header := { extra := [0], atomicTime := some [1] }
    let e : Header := { extra := [0], atomicTime := some [] }
    (∃ h', decodeHeader h.rlp = some h' ∧ h'.baseFee = some 0 ∧ h'.pobRLP ≠ h.pobRLP) ∧
      ∃ e', decodeHeader e.rlp = some e' ∧ e'.baseFee = some 0 ∧ e'.pobRLP ≠ e.pobRLP := by
  intro h e
  -- neither signed part has the atomic time
  have hsigned : ({ extra := [0], baseFee := some 0 } : Header).pobRLP ≠
      ({ extra := [0] } : Header).pobRLP := by decide +kernel
  exact ⟨⟨_, h.decodeHeader_rlp (by decide +kernel), rfl, hsigned⟩,
    _, e.decodeHeader_rlp (by decide +kernel), rfl, hsigned⟩

end ProbeChain
