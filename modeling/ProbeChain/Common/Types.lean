/-
# Addresses, account types and business parameters

The vocabulary of `common/types.go` and `common/biz_type.go`: fixed-width words, the seven
account types with the pledge each costs to create, the reserved addresses a transaction is
sent to in order to run a business operation, the one-byte `LossType` and the 1024-bit
`LossMark`, and the round id of the validator list.

Fixed-size byte arrays are bit vectors.  `BytesToAddress` and its siblings crop on the left
and pad on the left, which is reduction of the big-endian number modulo the width.
-/
import ProbeChain.Lib.Rlp

namespace ProbeChain

open BigEndian

/-! ## 1. Words -/

abbrev Address := BitVec 160
abbrev Hash := BitVec 256

/-- The 256 bytes that name a validator node. -/
abbrev ValidatorEnode := BitVec 2048

instance : LawfulBEq Address := inferInstance
instance : LawfulBEq Hash := inferInstance

def bytesToAddress (b : Bytes) : Address := BitVec.ofNat 160 (toNat b)
def bytesToHash (b : Bytes) : Hash := BitVec.ofNat 256 (toNat b)
def bytesToValidatorEnode (b : Bytes) : ValidatorEnode := BitVec.ofNat 2048 (toNat b)

def Address.bytes (a : Address) : Bytes := ofNatWidth 20 a.toNat
def Hash.bytes (h : Hash) : Bytes := ofNatWidth 32 h.toNat

/-- A word of `w` bytes fits into them. -/
theorem toNat_lt_bytes {w : Nat} (a : BitVec (8 * w)) : a.toNat < 256 ^ w := by
  have h := a.isLt
  rwa [pow_mul] at h

theorem word_bytes_inj {w : Nat} {a b : BitVec (8 * w)}
    (h : ofNatWidth w a.toNat = ofNatWidth w b.toNat) : a = b :=
  BitVec.eq_of_toNat_eq (ofNatWidth_inj (toNat_lt_bytes a) (toNat_lt_bytes b) h)

theorem Address.bytes_inj {a b : Address} (h : Address.bytes a = Address.bytes b) : a = b :=
  word_bytes_inj (w := 20) h

theorem Address.length_bytes (a : Address) : (Address.bytes a).length = 20 := ofNatWidth_length _ _

theorem bytesToAddress_bytes (a : Address) : bytesToAddress (Address.bytes a) = a := by
  have ha : a.toNat < 256 ^ 20 := toNat_lt_bytes (w := 20) a
  rw [bytesToAddress, Address.bytes, toNat_ofNatWidth _ _ ha, BitVec.ofNat_toNat,
    BitVec.setWidth_eq]

theorem Hash.length_bytes (h : Hash) : (Hash.bytes h).length = 32 := ofNatWidth_length _ _

theorem bytesToHash_bytes (h : Hash) : bytesToHash (Hash.bytes h) = h := by
  have hh : h.toNat < 256 ^ 32 := toNat_lt_bytes (w := 32) h
  rw [bytesToHash, Hash.bytes, toNat_ofNatWidth _ _ hh, BitVec.ofNat_toNat, BitVec.setWidth_eq]

theorem Hash.bytes_inj {a b : Hash} (h : Hash.bytes a = Hash.bytes b) : a = b :=
  word_bytes_inj (w := 32) h

/-! ## 2. Account types and pledges -/

inductive AccountType where
  | regular
  | pns
  | contract
  | authorize
  | loss
  | lossMark
  | dpos
  deriving DecidableEq, Repr

/-- `AMOUNT_OF_PLEDGE_FOR_CREATE_ACCOUNT_OF_*`.  The two bookkeeping types cost nothing. -/
def AccountType.pledge : AccountType → Nat
  | .regular => 10000000000000000
  | .pns => 50000000000000000
  | .contract => 100000000000000000
  | .authorize => 10000000000000000000
  | .loss => 1000000000000000000
  | .lossMark => 0
  | .dpos => 0

/-- The types whose account carries a balance. -/
def AccountType.holdsBalance : AccountType → Bool
  | .regular => true
  | .contract => true
  | _ => false

/-- `LOSS_STATE_OF_*`: a loss report is applied for, revealed, and then succeeds. -/
inductive LossState where
  | apply
  | reveal
  | success
  deriving DecidableEq, Repr

/-! ## 3. Reserved addresses -/

/-- `SPECIAL_ADDRESS_FOR_REGISTER_LOSE`, which is also where the loss marks are kept. -/
def specialAddressForRegisterLose : Address := 0x103

/-- `SPECIAL_ADDRESS_FOR_DPOS`, where the validator list is kept. -/
def specialAddressForDPoS : Address := 0x119

/-- The business operations, named as the destination addresses that select them. -/
inductive Operation where
  | registerPns
  | registerAuthorize
  | registerLose
  | cancellation
  | vote
  | applyToBeDPoSNode
  | redemption
  | cancellationLostAccount
  | revealLossReport
  | transferLostAccountBalance
  | removeLossReport
  | rejectLossReport
  | modifyPnsOwner
  | modifyPnsContent
  | modifyLossType
  | transferLostAccountPns
  | transferLostAccountAuthorize
  | transfer
  deriving DecidableEq, Repr

/-- The `switch` of `CallDB` on the destination.  Every other address is a plain transfer,
the reserved `0x118` … `0x11b` included. -/
def operationOf (dest : Address) : Operation :=
  match dest.toNat with
  | 0x101 => .registerPns
  | 0x102 => .registerAuthorize
  | 0x103 => .registerLose
  | 0x104 => .cancellation
  | 0x105 => .vote
  | 0x106 => .applyToBeDPoSNode
  | 0x107 => .redemption
  | 0x108 => .cancellationLostAccount
  | 0x109 => .revealLossReport
  | 0x110 => .transferLostAccountBalance
  | 0x111 => .removeLossReport
  | 0x112 => .rejectLossReport
  | 0x113 => .modifyPnsOwner
  | 0x114 => .modifyPnsContent
  | 0x115 => .modifyLossType
  | 0x116 => .transferLostAccountPns
  | 0x117 => .transferLostAccountAuthorize
  | _ => .transfer

/-! ## 4. Loss type and loss mark -/

/-- Bit 0 is the loss reporting status, bits 1 to 7 the loss reporting period. -/
abbrev LossType := BitVec 8

def LossType.getState (t : LossType) : Bool := t.getLsbD 0

def LossType.setState (t : LossType) (flag : Bool) : LossType :=
  if flag then t ||| 1 else t &&& ~~~1

def LossType.getType (t : LossType) : BitVec 8 := t >>> 1

/-- The shifted period is a big integer of which the FIRST byte is kept: a period of 128 or
more leaves only its carry. -/
def LossType.setType (t : LossType) (period : BitVec 8) : LossType :=
  let c : LossType := if period.toNat < 128 then period <<< 1 else 1
  c.setState t.getState

/-- One bit for each value of the last bits of a lost address. -/
abbrev LossMark := BitVec 1024

/-- Out of range, the mark is left as it is. -/
def LossMark.setMark (m : LossMark) (index : Nat) (flag : Bool) : LossMark :=
  if 1023 < index then m
  else if flag then m ||| (1#1024 <<< index) else m &&& ~~~(1#1024 <<< index)

/-! ## 5. Validator rounds -/

def dPosNodeIntervalConfirmPoint : UInt64 := 64

/-- The round the validator list of a block belongs to.  An epoch of zero divides by zero. -/
def calcValidatorRoundId (blockNumber dPosEpoch : UInt64) : Option UInt64 :=
  if blockNumber = 0 then some blockNumber
  else if dPosEpoch = 0 then none
  else
    let confirmBlockNum :=
      if dPosEpoch > dPosNodeIntervalConfirmPoint then dPosNodeIntervalConfirmPoint
      else dPosEpoch / 2
    let factor := blockNumber + confirmBlockNum + dPosEpoch - 1
    some ((factor - factor % dPosEpoch) / dPosEpoch)

theorem calcValidatorRoundId_isSome {blockNumber dPosEpoch : UInt64} :
    (calcValidatorRoundId blockNumber dPosEpoch).isSome ↔ blockNumber = 0 ∨ dPosEpoch ≠ 0 := by
  unfold calcValidatorRoundId
  split
  · simp [*]
  · split <;> simp [*]

/-! ## 6. Forks -/

/-- A fork without a block is never active. -/
def isForked (fork : Option Nat) (head : Nat) : Bool :=
  match fork with
  | some s => s ≤ head
  | none => false

end ProbeChain
