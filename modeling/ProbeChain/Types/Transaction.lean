/-
# Transactions

The six transaction types of `core/types` and their encoding.  A legacy transaction is the list of
its fields.  The others are an ENVELOPE: the byte of the type, then the list.
`transaction_roundTrip` says that every transaction is read back, so that the bytes determine it,
its type included.

The amounts of a decoded transaction are not negative; they are plain numbers here.  A missing
recipient is the empty string, so it is not the zero address.
-/
import ProbeChain.Common.Crypto
import ProbeChain.Common.Decode

namespace ProbeChain

open BigEndian List Rlp.Item

/-! ## 1. The types -/

@[ext] structure AccessTuple where
  address : Address
  storageKeys : List Hash
  deriving DecidableEq

abbrev AccessList := List AccessTuple

@[ext] structure SignatureValues where
  v : Nat := 0
  r : Nat := 0
  s : Nat := 0
  deriving DecidableEq

@[ext] structure LegacyTx extends SignatureValues where
  nonce : UInt64
  gasPrice : Nat
  gas : UInt64
  toAddr : Option Address
  value : Nat
  data : Bytes
  deriving DecidableEq

@[ext] structure AccessListTx extends SignatureValues where
  chainID : Nat
  nonce : UInt64
  gasPrice : Nat
  gas : UInt64
  toAddr : Option Address
  value : Nat
  data : Bytes
  accessList : AccessList
  deriving DecidableEq

/-- What the four types with a tip and a fee cap share. -/
@[ext] structure FeeFields where
  chainID : Nat
  nonce : UInt64
  gasTipCap : Nat
  gasFeeCap : Nat
  gas : UInt64
  toAddr : Option Address
  value : Nat
  data : Bytes
  accessList : AccessList
  deriving DecidableEq

@[ext] structure DynamicFeeTx extends FeeFields, SignatureValues where
  deriving DecidableEq

/-- Carries its public key: it cannot be recovered from the signature. -/
@[ext] structure DilithiumTx extends FeeFields where
  pubKey : Bytes := []
  signature : Bytes := []
  deriving DecidableEq

@[ext] structure SuperlightTx extends FeeFields, SignatureValues where
  deriving DecidableEq

@[ext] structure AgentTx extends FeeFields, SignatureValues where
  agentID : Hash
  opCode : UInt8
  deriving DecidableEq

inductive TxData where
  | legacy (tx : LegacyTx)
  | accessList (tx : AccessListTx)
  | dynamicFee (tx : DynamicFeeTx)
  | dilithium (tx : DilithiumTx)
  | superlight (tx : SuperlightTx)
  | agent (tx : AgentTx)
  deriving DecidableEq

def legacyTxType : UInt8 := 0
def accessListTxType : UInt8 := 1
def dynamicFeeTxType : UInt8 := 2
def dilithiumTxType : UInt8 := 3
def superlightTxType : UInt8 := 4
def agentTxType : UInt8 := 5

/-! ## 2. Encoding -/

/-- A pointer with the tag `nil`. -/
def addressItem : Option Address → Rlp.Item
  | none => .str []
  | some a => .str (Address.bytes a)

def AccessTuple.item (t : AccessTuple) : Rlp.Item :=
  .list [.str (Address.bytes t.address), .list (t.storageKeys.map fun k => .str (Hash.bytes k))]

def accessListItem (al : AccessList) : Rlp.Item := .list (al.map AccessTuple.item)

def SignatureValues.items (g : SignatureValues) : List Rlp.Item := [.nat g.v, .nat g.r, .nat g.s]

/-- The fields from the chain id to the data. -/
def FeeFields.items (f : FeeFields) : List Rlp.Item :=
  [.nat f.chainID, .nat f.nonce.toNat, .nat f.gasTipCap, .nat f.gasFeeCap, .nat f.gas.toNat,
    addressItem f.toAddr, .nat f.value, .str f.data]

namespace TxData

def txType : TxData → UInt8
  | legacy _ => legacyTxType
  | accessList _ => accessListTxType
  | dynamicFee _ => dynamicFeeTxType
  | dilithium _ => dilithiumTxType
  | superlight _ => superlightTxType
  | agent _ => agentTxType

/-- The fields in the order of the struct. -/
def items : TxData → List Rlp.Item
  | legacy tx => [.nat tx.nonce.toNat, .nat tx.gasPrice, .nat tx.gas.toNat, addressItem tx.toAddr,
      .nat tx.value, .str tx.data] ++ tx.toSignatureValues.items
  | accessList tx => [.nat tx.chainID, .nat tx.nonce.toNat, .nat tx.gasPrice, .nat tx.gas.toNat,
      addressItem tx.toAddr, .nat tx.value, .str tx.data, accessListItem tx.accessList] ++
      tx.toSignatureValues.items
  | dynamicFee tx =>
    tx.toFeeFields.items ++ accessListItem tx.accessList :: tx.toSignatureValues.items
  | dilithium tx => tx.toFeeFields.items ++
      [accessListItem tx.accessList, .str tx.pubKey, .str tx.signature]
  | superlight tx =>
    tx.toFeeFields.items ++ accessListItem tx.accessList :: tx.toSignatureValues.items
  | agent tx => tx.toFeeFields.items ++ [.str (Hash.bytes tx.agentID), .nat tx.opCode.toNat,
      accessListItem tx.accessList] ++ tx.toSignatureValues.items

def encodeTyped (tx : TxData) : Bytes := tx.txType :: (list tx.items).encode

def marshalBinary (tx : TxData) : Bytes :=
  if tx.txType = legacyTxType then (list tx.items).encode else tx.encodeTyped

/-- What a transaction contributes to the transaction root, which is what `MarshalBinary` gives. -/
def encodeIndex (tx : TxData) : Bytes := tx.marshalBinary

/-- `EncodeRLP`: an envelope is a string. -/
def item (tx : TxData) : Rlp.Item :=
  if tx.txType = legacyTxType then list tx.items else str tx.encodeTyped

end TxData

/-! ## 3. The fields are determined -/

theorem addressItem_inj {a b : Option Address} (h : addressItem a = addressItem b) : a = b := by
  cases a with
  | none =>
    cases b with
    | none => rfl
    | some b =>
      have hlen := congrArg length (str.inj h)
      rw [Address.length_bytes] at hlen
      cases hlen
  | some a =>
    cases b with
    | none =>
      have hlen := congrArg length (str.inj h)
      rw [Address.length_bytes] at hlen
      cases hlen
    | some b => rw [Address.bytes_inj (str.inj h)]

theorem AccessTuple.item_inj {t u : AccessTuple} (h : t.item = u.item) : t = u := by
  have hlist := list.inj h
  simp only [cons.injEq, str.injEq, list.injEq, and_true] at hlist
  refine AccessTuple.ext (Address.bytes_inj hlist.1) ?_
  exact (map_inj_right fun _ _ hk => Hash.bytes_inj (str.inj hk)).mp hlist.2

theorem accessListItem_inj {al bl : AccessList} (h : accessListItem al = accessListItem bl) :
    al = bl :=
  (map_inj_right fun _ _ => AccessTuple.item_inj).mp (list.inj h)

theorem FeeFields.items_inj {f f' : FeeFields} (h : f.items = f'.items)
    (hal : f.accessList = f'.accessList) : f = f' := by
  simp only [items, cons.injEq, nat_inj, str.injEq, UInt64.toNat_inj,
    and_true] at h
  obtain ⟨hchain, hnonce, htip, hcap, hgas, hto, hvalue, hdata⟩ := h
  exact FeeFields.ext hchain hnonce htip hcap hgas (addressItem_inj hto) hvalue hdata hal

/-! ## 4. Decoding -/

section
open Rlp

/-- The empty string is no address. -/
def readTo (input : Bytes) : Option (Option Address × Bytes) := do
  let (s, rest) ← readBytes input
  if s = [] then some (none, rest)
  else if s.length = 20 then some (some (bytesToAddress s), rest)
  else none

def readAccessTuple : Bytes → Option (AccessTuple × Bytes) := readStruct fun payload => do
  let (address, rest) ← readAddress payload
  let (storageKeys, rest) ← readList readHash rest
  readEnd ⟨address, storageKeys⟩ rest

/-- The end of most transactions. -/
def readSignature (input : Bytes) : Option SignatureValues := do
  let (v, rest) ← readBig input
  let (r, rest) ← readBig rest
  let (s, rest) ← readBig rest
  readEnd ⟨v, r, s⟩ rest

/-- The fields from the chain id to the data.  The access list comes later. -/
def readFees {α : Type} (next : (AccessList → FeeFields) → Bytes → Option α) (payload : Bytes) :
    Option α := do
  let (chainID, rest) ← readBig payload
  let (nonce, rest) ← readUInt64 rest
  let (gasTipCap, rest) ← readBig rest
  let (gasFeeCap, rest) ← readBig rest
  let (gas, rest) ← readUInt64 rest
  let (toAddr, rest) ← readTo rest
  let (value, rest) ← readBig rest
  let (data, rest) ← readBytes rest
  next (⟨chainID, nonce, gasTipCap, gasFeeCap, gas, toAddr, value, data, ·⟩) rest

namespace TxData

def readLegacy (payload : Bytes) : Option TxData := do
  let (nonce, rest) ← readUInt64 payload
  let (gasPrice, rest) ← readBig rest
  let (gas, rest) ← readUInt64 rest
  let (toAddr, rest) ← readTo rest
  let (value, rest) ← readBig rest
  let (data, rest) ← readBytes rest
  let sig ← readSignature rest
  return legacy ⟨sig, nonce, gasPrice, gas, toAddr, value, data⟩

def readAccessListTx (payload : Bytes) : Option TxData := do
  let (chainID, rest) ← readBig payload
  let (nonce, rest) ← readUInt64 rest
  let (gasPrice, rest) ← readBig rest
  let (gas, rest) ← readUInt64 rest
  let (toAddr, rest) ← readTo rest
  let (value, rest) ← readBig rest
  let (data, rest) ← readBytes rest
  let (al, rest) ← readList readAccessTuple rest
  let sig ← readSignature rest
  return accessList ⟨sig, chainID, nonce, gasPrice, gas, toAddr, value, data, al⟩

/-- The last fields of the types with a tip and a fee cap. -/
def readSigned (make : FeeFields → SignatureValues → TxData) : Bytes → Option TxData :=
  readFees fun fields rest => do
    let (al, rest) ← readList readAccessTuple rest
    let sig ← readSignature rest
    return make (fields al) sig

def readDilithium : Bytes → Option TxData := readFees fun fields rest => do
  let (al, rest) ← readList readAccessTuple rest
  let (pubKey, rest) ← readBytes rest
  let (signature, rest) ← readBytes rest
  readEnd (dilithium ⟨fields al, pubKey, signature⟩) rest

def readAgent : Bytes → Option TxData := readFees fun fields rest => do
  let (agentID, rest) ← readHash rest
  let (opCode, rest) ← readUInt8 rest
  let (al, rest) ← readList readAccessTuple rest
  let sig ← readSignature rest
  return agent ⟨fields al, sig, agentID, opCode⟩

/-- The fields of a transaction of some type. -/
def readInner (type : UInt8) : Bytes → Option TxData :=
  if type = legacyTxType then readLegacy
  else if type = accessListTxType then readAccessListTx
  else if type = dynamicFeeTxType then readSigned fun f g => dynamicFee ⟨f, g⟩
  else if type = dilithiumTxType then readDilithium
  else if type = superlightTxType then readSigned fun f g => superlight ⟨f, g⟩
  else if type = agentTxType then readAgent
  else fun _ => none

/-- The legacy type is none of the envelopes. -/
def decodeTyped : Bytes → Option TxData
  | [] => none
  | type :: body => if type = legacyTxType then none else splitList body >>= readInner type

def unmarshalBinary (b : Bytes) : Option TxData :=
  if b ≠ [] ∧ 0x7f < b.headD 0 then splitList b >>= readInner legacyTxType else decodeTyped b

/-- `DecodeRLP` -/
def readTx (input : Bytes) : Option (TxData × Bytes) :=
  match split input with
  | some (.list, payload, rest) => (readInner legacyTxType payload).map (·, rest)
  | some (.string, b, rest) => if isSingle b then none else (decodeTyped b).map (·, rest)
  | _ => none

end TxData

/-! ## 5. Reading back -/

theorem reads_to (a : Option Address) : Rlp.Reads readTo (addressItem a) a := by
  intro hlen rest
  cases a with
  | none =>
    rw [readTo, addressItem, reads_bytes [] hlen]
    rfl
  | some a =>
    have hne : Address.bytes a ≠ [] := ne_nil_of_length_pos (by rw [Address.length_bytes]; decide)
    simp only [readTo, addressItem, reads_bytes _ hlen rest, Option.bind_eq_bind,
      Option.bind_some, if_neg hne, if_pos (Address.length_bytes a), bytesToAddress_bytes]

theorem reads_accessList (al : AccessList) :
    Rlp.Reads (readList readAccessTuple) (accessListItem al) al :=
  reads_list fun _ _ => ReadsAll.struct <| .cons (reads_address _) <|
    .cons (reads_list fun k _ => reads_hash k) <| .nil rfl

theorem readsAll_signature (g : SignatureValues) : ReadsAll readSignature g.items g :=
  .cons (reads_big _) <| .cons (reads_big _) <| .cons (reads_big _) <| .nil rfl

theorem readsAll_fees {α : Type} {a : α} {next : (AccessList → FeeFields) → Bytes → Option α}
    {f : FeeFields} {is : List Rlp.Item} (h : ReadsAll (next ({ f with accessList := · })) is a) :
    ReadsAll (readFees next) (f.items ++ is) a :=
  .cons (reads_big _) <| .cons (reads_uInt64 _) <| .cons (reads_big _) <| .cons (reads_big _) <|
    .cons (reads_uInt64 _) <| .cons (reads_to _) <| .cons (reads_big _) <| .cons (reads_bytes _) h

namespace TxData

theorem readsAll_signed {f : FeeFields} (make : FeeFields → SignatureValues → TxData)
    (g : SignatureValues) :
    ReadsAll (readSigned make) (f.items ++ accessListItem f.accessList :: g.items) (make f g) :=
  readsAll_fees <| .cons (reads_accessList _) <| (readsAll_signature g).bind rfl

theorem readsAll_legacy (tx : LegacyTx) : ReadsAll readLegacy (legacy tx).items (legacy tx) :=
  .cons (reads_uInt64 _) <| .cons (reads_big _) <| .cons (reads_uInt64 _) <| .cons (reads_to _) <|
    .cons (reads_big _) <| .cons (reads_bytes _) <| (readsAll_signature _).bind rfl

theorem readsAll_accessListTx (tx : AccessListTx) :
    ReadsAll readAccessListTx (accessList tx).items (accessList tx) :=
  .cons (reads_big _) <| .cons (reads_uInt64 _) <| .cons (reads_big _) <| .cons (reads_uInt64 _) <|
    .cons (reads_to _) <| .cons (reads_big _) <| .cons (reads_bytes _) <|
    .cons (reads_accessList _) <|
    (readsAll_signature _).bind rfl

theorem readInner_txType (tx : TxData) : readInner tx.txType =
    match tx with
    | legacy _ => readLegacy
    | accessList _ => readAccessListTx
    | dynamicFee _ => readSigned fun f g => dynamicFee ⟨f, g⟩
    | dilithium _ => readDilithium
    | superlight _ => readSigned fun f g => superlight ⟨f, g⟩
    | agent _ => readAgent := by
  cases tx <;> rfl

/-- **The fields of every transaction are read back.** -/
theorem readsAll_items (tx : TxData) : ReadsAll (readInner tx.txType) tx.items tx := by
  rw [readInner_txType]
  cases tx with
  | legacy tx => exact readsAll_legacy tx
  | accessList tx => exact readsAll_accessListTx tx
  | dynamicFee tx => exact readsAll_signed _ _
  | dilithium tx =>
    exact readsAll_fees <| .cons (reads_accessList _) <| .cons (reads_bytes _) <|
      .cons (reads_bytes _) <| .nil rfl
  | superlight tx => exact readsAll_signed _ _
  | agent tx =>
    rw [items, append_assoc]
    exact readsAll_fees <| .cons (reads_hash _) <| .cons (reads_uInt8 _) <|
      .cons (reads_accessList _) <|
      (readsAll_signature _).bind rfl

theorem decodeTyped_encodeTyped {tx : TxData} (htype : tx.txType ≠ legacyTxType)
    (hlen : (list tx.items).encode.length < 2 ^ 64) : decodeTyped tx.encodeTyped = some tx := by
  rw [encodeTyped, decodeTyped, if_neg htype]
  exact tx.readsAll_items.whole hlen

theorem unmarshalBinary_marshalBinary {tx : TxData} (hlen : tx.marshalBinary.length < 2 ^ 64) :
    unmarshalBinary tx.marshalBinary = some tx := by
  unfold marshalBinary at hlen ⊢
  by_cases htype : tx.txType = legacyTxType
  · have hread := tx.readsAll_items
    rw [if_pos htype] at hlen ⊢
    rw [htype] at hread
    rw [unmarshalBinary, if_pos (headD_list hlen)]
    exact hread.whole hlen
  · -- the byte of a type is below the bytes of the lists
    have hbyte : ¬ 0x7f < tx.txType := by cases tx <;> exact of_decide_eq_true rfl
    rw [if_neg htype] at hlen ⊢
    rw [unmarshalBinary, if_neg fun h => hbyte h.2]
    exact decodeTyped_encodeTyped htype ((Nat.lt_succ_self _).trans hlen)

theorem encodeIndex_inj {tx tx' : TxData} (hlen : tx.encodeIndex.length < 2 ^ 64)
    (h : tx.encodeIndex = tx'.encodeIndex) : tx = tx' := by
  have hread : unmarshalBinary tx.encodeIndex = some tx := unmarshalBinary_marshalBinary hlen
  rw [h] at hread hlen
  exact Option.some.inj (hread.symm.trans (unmarshalBinary_marshalBinary hlen))

theorem reads_tx (tx : TxData) : Rlp.Reads readTx tx.item tx := by
  intro hlen rest
  unfold item at hlen ⊢
  unfold readTx
  by_cases htype : tx.txType = legacyTxType
  · have hread := tx.readsAll_items
    rw [if_pos htype] at hlen ⊢
    rw [htype] at hread
    have hpayload := lt_of_le_of_lt (length_le_encodeList _) hlen
    simp only [Item.encode, split_encodeList _ rest hpayload, hread hpayload, Option.map_some]
  · rw [if_neg htype] at hlen ⊢
    have hbytes := lt_of_le_of_lt (length_le_encodeString _) hlen
    have hlist := (Nat.lt_succ_self _).trans hbytes
    have hsingle : isSingle tx.encodeTyped = false := isSingle_cons_encode _ _
    simp only [Item.encode, split_encodeString _ rest hbytes, hsingle,
      Bool.false_eq_true, ↓reduceIte, decodeTyped_encodeTyped htype hlist, Option.map_some]

/-- **Every transaction is read back from either encoding, and its bytes are no other
transaction's.** -/
theorem transaction_roundTrip (tx : TxData) (hlen : tx.item.encode.length < 2 ^ 64) :
    unmarshalBinary tx.marshalBinary = some tx ∧
    (∀ rest, readTx (tx.item.encode ++ rest) = some (tx, rest)) ∧
      ∀ tx', tx'.marshalBinary = tx.marshalBinary → tx' = tx := by
  have hbytes : tx.marshalBinary.length < 2 ^ 64 := by
    unfold item at hlen
    unfold marshalBinary
    split at hlen
    · rwa [if_pos ‹_›]
    · rw [if_neg ‹_›]
      exact lt_of_le_of_lt (length_le_encodeString _) hlen
  exact ⟨unmarshalBinary_marshalBinary hbytes, reads_tx tx hlen,
    fun tx' h => (encodeIndex_inj hbytes h.symm).symm⟩

theorem transaction_roundTrip_of_agent :
    unmarshalBinary
      (marshalBinary
        (agent ⟨⟨1, 7, 1, 2, 21000, none, 5, [0x60], [⟨1, [2, 3]⟩]⟩, ⟨0, 8, 9⟩, 4, 2⟩)) =
      some (agent ⟨⟨1, 7, 1, 2, 21000, none, 5, [0x60], [⟨1, [2, 3]⟩]⟩, ⟨0, 8, 9⟩, 4, 2⟩) :=
  (transaction_roundTrip _ (by decide +kernel)).1

end TxData

end

end ProbeChain
