/-
# The payloads of the business operations

Each operation decodes its transaction data into one of the `*DecodeType` structs of
`common/types.go`.  A struct is one list with exactly the fields of the struct; what remains
after the last field, or after the list, is an error.

`Register` ignores the error.  What the decoder had already assigned by then stays, so its two
payloads are decoded by functions that return what is left in the struct on ANY input.
-/
import ProbeChain.Common.Types

namespace ProbeChain

open BigEndian Rlp

/-! ## 1. Fields -/

def readAddress (input : Bytes) : Option (Address × Bytes) :=
  (readArray 20 input).map fun (s, rest) => (bytesToAddress s, rest)

def readHash (input : Bytes) : Option (Hash × Bytes) :=
  (readArray 32 input).map fun (s, rest) => (bytesToHash s, rest)

/-- A byte array of `w` bytes. -/
def readWord (w : Nat) (input : Bytes) : Option (BitVec (8 * w) × Bytes) :=
  (readArray w input).map fun (s, rest) => (BitVec.ofNat (8 * w) (toNat s), rest)

def readUInt8 (input : Bytes) : Option (UInt8 × Bytes) :=
  (readUint 8 input).map fun (n, rest) => (.ofNat n, rest)

def readUInt64 (input : Bytes) : Option (UInt64 × Bytes) :=
  (readUint 64 input).map fun (n, rest) => (.ofNat n, rest)

/-- The end of a struct. -/
def readEnd {α : Type} (value : α) (rest : Bytes) : Option α :=
  if rest = [] then some value else none

theorem reads_word {w : Nat} (a : BitVec (8 * w)) :
    Reads (readWord w) (.str (ofNatWidth w a.toNat)) a := by
  have h := (reads_array (ofNatWidth_length w a.toNat)).map fun s => BitVec.ofNat (8 * w) (toNat s)
  rw [toNat_ofNatWidth _ _ (toNat_lt_bytes a), BitVec.ofNat_toNat, BitVec.setWidth_eq] at h
  exact h

theorem reads_uInt8 (n : UInt8) : Reads readUInt8 (.nat n.toNat) n := by
  have h := (reads_uint 8 n.toNat_lt).map UInt8.ofNat
  rwa [UInt8.ofNat_toNat] at h

theorem reads_uInt64 (n : UInt64) : Reads readUInt64 (.nat n.toNat) n := by
  have h := (reads_uint 64 n.toNat_lt).map UInt64.ofNat
  rwa [UInt64.ofNat_toNat] at h

theorem reads_address (a : Address) : Reads readAddress (.str (Address.bytes a)) a :=
  reads_word (w := 20) a

theorem reads_hash (h : Hash) : Reads readHash (.str (Hash.bytes h)) h := reads_word (w := 32) h

/-! ## 2. Structs -/

/-- `ByteDecodeType` -/
def decodeByte (data : Bytes) : Option (BitVec 8) := do
  let payload ← splitList data
  let (num, rest) ← readUint 8 payload
  readEnd (BitVec.ofNat 8 num) rest

/-- `AddressDecodeType` -/
def decodeAddress (data : Bytes) : Option Address := do
  let payload ← splitList data
  let (addr, rest) ← readAddress payload
  readEnd addr rest

structure CancellationDecodeType where
  cancelAddress : Address
  beneficiaryAddress : Address

def decodeCancellation (data : Bytes) : Option CancellationDecodeType := do
  let payload ← splitList data
  let (cancelAddress, rest) ← readAddress payload
  let (beneficiaryAddress, rest) ← readAddress rest
  readEnd ⟨cancelAddress, beneficiaryAddress⟩ rest

structure ApplyDPosDecodeType where
  voteAddress : Address
  nodeInfo : Bytes

def decodeApplyDPos (data : Bytes) : Option ApplyDPosDecodeType := do
  let payload ← splitList data
  let (voteAddress, rest) ← readAddress payload
  let (nodeInfo, rest) ← readBytes rest
  readEnd ⟨voteAddress, nodeInfo⟩ rest

structure PnsOwnerDecodeType where
  pnsAddress : Address
  ownerAddress : Address

def decodePnsOwner (data : Bytes) : Option PnsOwnerDecodeType := do
  let payload ← splitList data
  let (pnsAddress, rest) ← readAddress payload
  let (ownerAddress, rest) ← readAddress rest
  readEnd ⟨pnsAddress, ownerAddress⟩ rest

structure PnsContentDecodeType where
  pnsAddress : Address
  pnsType : UInt8
  pnsData : Bytes

def decodePnsContent (data : Bytes) : Option PnsContentDecodeType := do
  let payload ← splitList data
  let (pnsAddress, rest) ← readAddress payload
  let (pnsType, rest) ← readUint 8 rest
  let (pnsData, rest) ← readBytes rest
  readEnd ⟨pnsAddress, UInt8.ofNat pnsType, pnsData⟩ rest

structure RevealLossReportDecodeType where
  lossAccount : Address
  oldAccount : Address
  newAccount : Address
  randomNum : UInt32

def decodeRevealLossReport (data : Bytes) : Option RevealLossReportDecodeType := do
  let payload ← splitList data
  let (lossAccount, rest) ← readAddress payload
  let (oldAccount, rest) ← readAddress rest
  let (newAccount, rest) ← readAddress rest
  let (randomNum, rest) ← readUint 32 rest
  readEnd ⟨lossAccount, oldAccount, newAccount, UInt32.ofNat randomNum⟩ rest

structure AssociatedAccountDecodeType where
  lossAccount : Address
  associatedAccount : Address

def decodeAssociatedAccount (data : Bytes) : Option AssociatedAccountDecodeType := do
  let payload ← splitList data
  let (lossAccount, rest) ← readAddress payload
  let (associatedAccount, rest) ← readAddress rest
  readEnd ⟨lossAccount, associatedAccount⟩ rest

/-! ## 3. Structs whose error is ignored -/

/-- The fields of the first list of the input, whatever comes after it. -/
def firstList (data : Bytes) : Option Bytes :=
  match split data with
  | some (.list, payload, _) => some payload
  | _ => none

/-- What is left in an `IntDecodeType`. -/
def decodeIntIgnoringError (data : Bytes) : Nat :=
  match (firstList data).bind readBig with
  | some (num, _) => num
  | none => 0

structure RegisterLossDecodeType where
  lastBitsMark : UInt32 := 0
  infoDigest : Hash := 0

/-- What is left in a `RegisterLossDecodeType`. -/
def decodeRegisterLossIgnoringError (data : Bytes) : RegisterLossDecodeType :=
  match (firstList data).bind (readUint 32) with
  | none => {}
  | some (lastBitsMark, rest) =>
    match readHash rest with
    | none => { lastBitsMark := UInt32.ofNat lastBitsMark }
    | some (infoDigest, _) =>
      { lastBitsMark := UInt32.ofNat lastBitsMark, infoDigest := infoDigest }

end ProbeChain
