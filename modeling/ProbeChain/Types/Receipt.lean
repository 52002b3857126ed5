/-
# Receipts

`core/types/receipt.go`: what a receipt contributes to the receipt root (`EncodeIndex`), and how it
is sent and read back (`EncodeRLP`, `DecodeRLP`).  The three have a switch on the transaction type
each, and none of them has learnt of the types above 2: `EncodeIndex` writes nothing for these, and
`DecodeRLP` refuses what `EncodeRLP` has written.

The status is written as a post state, which one field of the encoding stands for; `receipt_iff`
says which receipts come back as they were.  Of a receipt and of its logs only the consensus fields
are kept here.
-/
import ProbeChain.Consensus.Header
import ProbeChain.Types.Transaction
import ProbeChain.Lib.Check

namespace ProbeChain

open BigEndian Rlp Check Option

/-! ## 1. Receipts and their encoding -/

@[ext] structure RlpLog where
  address : Address
  topics : List Hash
  data : Bytes
  deriving DecidableEq

@[ext] structure Receipt where
  type : UInt8 := 0
  postState : Bytes := []
  status : UInt64 := 0
  cumulativeGasUsed : UInt64 := 0
  bloom : Bloom := 0
  logs : List RlpLog := []
  deriving DecidableEq

def receiptStatusFailed : UInt64 := 0
def receiptStatusSuccessful : UInt64 := 1

def receiptStatusFailedRLP : Bytes := []
def receiptStatusSuccessfulRLP : Bytes := [0x01]

def RlpLog.item (l : RlpLog) : Item :=
  .list [.str (Address.bytes l.address), .list (l.topics.map fun t => .str (Hash.bytes t)),
    .str l.data]

namespace Receipt

def statusEncoding (r : Receipt) : Bytes :=
  if r.postState = [] then
    if r.status = receiptStatusFailed then receiptStatusFailedRLP else receiptStatusSuccessfulRLP
  else r.postState

/-- The fields of `receiptRLP`. -/
def items (r : Receipt) : List Item :=
  [.str r.statusEncoding, .nat r.cumulativeGasUsed.toNat, .str (Bloom.bytes r.bloom),
    .list (r.logs.map RlpLog.item)]

def item (r : Receipt) : Item := .list r.items

def encodeRLP (r : Receipt) : Bytes :=
  if r.type = legacyTxType then r.item.encode else encodeString (r.type :: r.item.encode)

/-- What the receipt contributes to the receipt root.  Nothing is written for an unsupported
type. -/
def encodeIndex (r : Receipt) : Bytes :=
  if r.type = legacyTxType then r.item.encode
  else if r.type = accessListTxType then accessListTxType :: r.item.encode
  else if r.type = dynamicFeeTxType then dynamicFeeTxType :: r.item.encode
  else []

end Receipt

/-! ## 2. Decoding -/

inductive ReceiptError where
  /-- Not canonical, too short, or of another shape. -/
  | rlp
  | expectedList
  | emptyTypedReceipt
  | txTypeNotSupported
  | invalidStatus
  deriving DecidableEq, Repr

structure ReceiptRLP where
  postStateOrStatus : Bytes
  cumulativeGasUsed : UInt64
  bloom : Bloom
  logs : List RlpLog

def readBloom (input : Bytes) : Option (Bloom × Bytes) :=
  (readArray 256 input).map fun (s, rest) => (BitVec.ofNat 2048 (toNat s), rest)

/-- The fields of a log, given the content of its list. -/
def readLogFields (payload : Bytes) : Option RlpLog := do
  let (address, rest) ← readAddress payload
  let (topics, rest) ← readList readHash rest
  let (data, rest) ← readBytes rest
  readEnd ⟨address, topics, data⟩ rest

def readLog (input : Bytes) : Option (RlpLog × Bytes) :=
  match split input with
  | some (.list, payload, rest) => (readLogFields payload).map (·, rest)
  | _ => none

/-- The fields of a receipt, given the content of its list. -/
def readReceiptFields (payload : Bytes) : Option ReceiptRLP := do
  let (postStateOrStatus, rest) ← readBytes payload
  let (cumulativeGasUsed, rest) ← readUint 64 rest
  let (bloom, rest) ← readBloom rest
  let (logs, rest) ← readList readLog rest
  readEnd ⟨postStateOrStatus, UInt64.ofNat cumulativeGasUsed, bloom, logs⟩ rest

namespace Receipt

/-- A post state of the length of a hash stays one; the status is then as it was. -/
def setStatus (r : Receipt) (postStateOrStatus : Bytes) : Except ReceiptError Receipt :=
  if postStateOrStatus = receiptStatusSuccessfulRLP then
    .ok { r with status := receiptStatusSuccessful }
  else if postStateOrStatus = receiptStatusFailedRLP then
    .ok { r with status := receiptStatusFailed }
  else if postStateOrStatus.length = 32 then .ok { r with postState := postStateOrStatus }
  else .error .invalidStatus

def setFromRLP (r : Receipt) (data : ReceiptRLP) : Except ReceiptError Receipt :=
  setStatus
    { r with cumulativeGasUsed := data.cumulativeGasUsed, bloom := data.bloom, logs := data.logs }
    data.postStateOrStatus

/-- Reads one receipt into a fresh one, and returns the input after it. -/
def decodeRLP (input : Bytes) : Except ReceiptError (Receipt × Bytes) :=
  match split input with
  | none => .error .rlp
  | some (.list, payload, rest) => do
    let dec ← getOr (readReceiptFields payload) .rlp
    let r ← setFromRLP { type := legacyTxType } dec
    return (r, rest)
  | some (.byte, _, _) => .error .expectedList
  | some (.string, b, rest) =>
    if isSingle b then .error .rlp
    else match b with
      | [] => .error .emptyTypedReceipt
      | type :: body =>
        if type = accessListTxType ∨ type = dynamicFeeTxType then do
          let dec ← getOr ((splitList body).bind readReceiptFields) .rlp
          let r ← setFromRLP { type := type } dec
          return (r, rest)
        else .error .txTypeNotSupported

end Receipt

/-! ## 3. Reading back what was written -/

theorem reads_bloom (b : Bloom) : Rlp.Reads readBloom (.str (Bloom.bytes b)) b :=
  reads_word (w := 256) b

theorem reads_log (l : RlpLog) : Rlp.Reads readLog l.item l :=
  ReadsAll.struct <| .cons (reads_address l.address) <|
    .cons (reads_list fun t _ => reads_hash t) <|
    .cons (reads_bytes l.data) <| .nil rfl

namespace Receipt

/-- What the fields of a receipt are read back as. -/
def rlp (r : Receipt) : ReceiptRLP := ⟨r.statusEncoding, r.cumulativeGasUsed, r.bloom, r.logs⟩

/-- The content of the list. -/
def payload (r : Receipt) : Bytes := Item.encodeAll r.items

theorem length_payload_le (r : Receipt) : r.payload.length ≤ r.item.encode.length :=
  length_le_encodeList _

theorem readReceiptFields_payload (r : Receipt) (hlen : r.item.encode.length < 2 ^ 64) :
    readReceiptFields r.payload = some r.rlp := by
  have hgas := reads_uint 64 r.cumulativeGasUsed.toNat_lt
  refine ReadsAll.cons (reads_bytes r.statusEncoding) (.cons hgas (.cons (reads_bloom r.bloom)
    (.cons (reads_list fun l _ => reads_log l) (.nil ?_))))
      (lt_of_le_of_lt r.length_payload_le hlen)
  rw [UInt64.ofNat_toNat]
  rfl

/-- The types that receipts are read back for. -/
def Supported (type : UInt8) : Prop :=
  type = legacyTxType ∨ type = accessListTxType ∨ type = dynamicFeeTxType

instance (type : UInt8) : Decidable (Supported type) := by
  unfold Supported
  infer_instance

/-- **Reading back what was written**: the fields go through `setStatus`, for the types the switch
knows. -/
theorem decodeRLP_encodeRLP (r : Receipt) (hlen : r.encodeRLP.length < 2 ^ 64) :
    decodeRLP r.encodeRLP =
      if Supported r.type then (setFromRLP { type := r.type } r.rlp).bind fun r => .ok (r, [])
      else .error .txTypeNotSupported := by
  unfold encodeRLP at hlen ⊢
  by_cases hlegacy : r.type = legacyTxType
  · rw [if_pos hlegacy] at hlen ⊢
    have hpayload : r.payload.length < 2 ^ 64 := lt_of_le_of_lt r.length_payload_le hlen
    have hsplit : split r.item.encode = some (.list, r.payload, []) := by
      have h := split_encodeList r.payload [] hpayload
      rwa [List.append_nil] at h
    have hsupported : Supported r.type := Or.inl hlegacy
    unfold decodeRLP
    rw [hsplit, if_pos hsupported]
    dsimp only
    rw [readReceiptFields_payload r hlen, hlegacy]
    rfl
  · rw [if_neg hlegacy] at hlen ⊢
    have htyped : (r.type :: r.item.encode).length < 2 ^ 64 :=
      lt_of_le_of_lt (length_le_encodeString _) hlen
    have hitem : r.item.encode.length < 2 ^ 64 := by
      rw [List.length_cons] at htyped
      omega
    have hsingle : isSingle (r.type :: r.item.encode) = false := Item.isSingle_cons_encode _ _
    have hsplit := split_encodeString (r.type :: r.item.encode) [] htyped
    rw [List.append_nil, hsingle] at hsplit
    have hbody : (splitList r.item.encode).bind readReceiptFields = some r.rlp := by
      have hlist : splitList r.item.encode = some r.payload :=
        splitList_encodeList (lt_of_le_of_lt r.length_payload_le hitem)
      rw [hlist, bind_some, readReceiptFields_payload r hitem]
    have hsupported : Supported r.type ↔ r.type = accessListTxType ∨ r.type = dynamicFeeTxType :=
      or_iff_right hlegacy
    unfold decodeRLP
    rw [hsplit]
    simp only [hsingle, hsupported, Bool.false_eq_true, if_false]
    rw [hbody]
    rfl

/-! ## 4. Which receipts come back -/

/-- The type is supported, and the status is one of the two or left to a post state of the length of
a hash. -/
def Canonical (r : Receipt) : Prop :=
  Supported r.type ∧
    (r.postState = [] ∧ (r.status = receiptStatusFailed ∨ r.status = receiptStatusSuccessful) ∨
      r.postState.length = 32 ∧ r.status = receiptStatusFailed)

instance (r : Receipt) : Decidable r.Canonical := by
  unfold Canonical
  infer_instance

theorem setFromRLP_rlp (r : Receipt) :
    setFromRLP { type := r.type } r.rlp = .ok r ↔
      r.postState = [] ∧ (r.status = receiptStatusFailed ∨ r.status = receiptStatusSuccessful) ∨
        r.postState.length = 32 ∧ r.status = receiptStatusFailed := by
  unfold setFromRLP setStatus rlp statusEncoding
  dsimp only
  by_cases hpost : r.postState = []
  · rw [if_pos hpost]
    by_cases hfailed : r.status = receiptStatusFailed
    · rw [if_pos hfailed, if_neg (by decide), if_pos rfl]
      refine iff_of_true ?_ (Or.inl ⟨hpost, Or.inl hfailed⟩)
      rw [← hfailed, ← hpost]
    · rw [if_neg hfailed, if_pos rfl]
      constructor
      · intro h
        exact Or.inl ⟨hpost, Or.inr (congrArg status (Except.ok.inj h)).symm⟩
      · rintro (⟨-, h | h⟩ | ⟨h, -⟩)
        · exact absurd h hfailed
        · rw [← h, ← hpost]
        · rw [hpost] at h
          cases h
  · rw [if_neg hpost]
    by_cases hone : r.postState = receiptStatusSuccessfulRLP
    · -- a post state of one byte is taken for the status
      rw [if_pos hone]
      refine iff_of_false ?_ ?_
      · intro h
        exact hpost (congrArg postState (Except.ok.inj h)).symm
      · rintro (⟨h, -⟩ | ⟨h, -⟩)
        · exact hpost h
        · rw [hone] at h
          cases h
    · have hzero : r.postState ≠ receiptStatusFailedRLP := hpost
      rw [if_neg hone, if_neg hzero]
      by_cases hlen : r.postState.length = 32
      · rw [if_pos hlen]
        constructor
        · intro h
          exact Or.inr ⟨hlen, (congrArg status (Except.ok.inj h)).symm⟩
        · rintro (⟨h, -⟩ | ⟨-, h⟩)
          · exact absurd h hpost
          · exact congrArg Except.ok (Receipt.ext rfl rfl h.symm rfl rfl rfl)
      · rw [if_neg hlen]
        refine iff_of_false (by simp) ?_
        rintro (⟨h, -⟩ | ⟨h, -⟩)
        · exact hpost h
        · exact hlen h

/-- **A receipt comes back as it was exactly when it is canonical.** -/
theorem roundTrip_iff {r : Receipt} (hlen : r.encodeRLP.length < 2 ^ 64) :
    decodeRLP r.encodeRLP = .ok (r, []) ↔ r.Canonical := by
  rw [decodeRLP_encodeRLP r hlen]
  unfold Canonical
  by_cases hsupported : Supported r.type
  · rw [if_pos hsupported, and_iff_right hsupported, ← setFromRLP_rlp]
    cases setFromRLP { type := r.type } r.rlp with
    | error e => simp [Except.bind]
    | ok r' => simp [Except.bind]
  · rw [if_neg hsupported]
    exact iff_of_false (by simp) (fun h => hsupported h.1)

/-- The first byte tells the type from a list. -/
theorem encodeRLP_eq {r : Receipt} (h : Supported r.type) (hlen : r.encodeRLP.length < 2 ^ 64) :
    r.encodeRLP = if 0x7f < r.encodeIndex.headD 0 then r.encodeIndex
      else encodeString r.encodeIndex := by
  unfold encodeRLP at hlen ⊢
  unfold encodeIndex
  rcases h with h | h | h <;> rw [h] at hlen ⊢
  · exact (if_pos (Item.headD_list hlen).2).symm
  · rfl
  · rfl

end Receipt

open Receipt in
/-- **What the encodings keep of receipts.**  Two receipts are read back as they were written, and
told apart by what they contribute to the receipt root, exactly when both are canonical: of type 0,
1 or 2, and with one of the two status codes and no post state, or with a post state of 32 bytes and
no status. -/
theorem receipt_iff (r r' : Receipt) (hlen : r.encodeRLP.length < 2 ^ 64)
    (hlen' : r'.encodeRLP.length < 2 ^ 64) :
    decodeRLP r.encodeRLP = .ok (r, []) ∧ decodeRLP r'.encodeRLP = .ok (r', []) ∧
      (r.encodeIndex = r'.encodeIndex → r = r') ↔ r.Canonical ∧ r'.Canonical := by
  rw [roundTrip_iff hlen, roundTrip_iff hlen']
  constructor
  · rintro ⟨hr, hr', -⟩
    exact ⟨hr, hr'⟩
  · rintro ⟨hr, hr'⟩
    refine ⟨hr, hr', fun heq => ?_⟩
    -- what is read back is a function of what is sent
    have hsent : r.encodeRLP = r'.encodeRLP := by
      rw [encodeRLP_eq hr.1 hlen, encodeRLP_eq hr'.1 hlen', heq]
    have hback := (roundTrip_iff hlen).mpr hr
    rw [hsent, (roundTrip_iff hlen').mpr hr'] at hback
    exact (congrArg Prod.fst (Except.ok.inj hback)).symm

/-- A dynamic fee receipt that succeeded and one that failed. -/
theorem receipt_iff_of_dynamicFee :
    Receipt.decodeRLP (Receipt.encodeRLP { type := 2, status := 1 }) =
      .ok ({ type := 2, status := 1 }, []) ∧
    Receipt.encodeIndex { type := 2, status := 1 } ≠ Receipt.encodeIndex { type := 2 } := by
  have h := (receipt_iff { type := 2, status := 1 } { type := 2 } (by decide +kernel)
    (by decide +kernel)).mpr (by decide)
  exact ⟨h.1, fun heq => absurd (h.2.2 heq) (by decide)⟩

/-- Receipts of two types, one of a success and one of a failure, contribute the same to the root,
and cannot be read back. -/
theorem typed_receipts_lost :
    Receipt.encodeIndex { type := 3, status := 1 } =
      Receipt.encodeIndex { type := 5, cumulativeGasUsed := 7 } ∧
    Receipt.decodeRLP (Receipt.encodeRLP { type := 3, status := 1 }) = .error .txTypeNotSupported :=
  ⟨by decide, by decide +kernel⟩

end ProbeChain
