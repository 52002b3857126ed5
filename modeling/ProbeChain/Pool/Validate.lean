/-
# What the transaction pool accepts

`validateTx` of `core/tx_pool.go` and the checks of `core/tx_validate.go`.  The pool checks a
transaction against the state of the current block: the sender, then whatever the operation
selected by the destination asks for, then gas.  These checks are made NOWHERE else; a block may
hold transactions that the pool would not have taken, and what holds of the state at the time of the
check need not hold when the transaction is executed.

A check that dereferences a nil amount panics; `PoolError.nilPointer` stands for that.
-/
import ProbeChain.Lib.Check
import ProbeChain.State.Operations

namespace ProbeChain

open Check

/-! ## 1. Errors -/

/-- Named for the texts of the errors; `decode` is whatever the decoder returns. -/
inductive PoolError where
  | invalidSender | senderNotExists | nonceTooLow | insufficientFunds
  | txTypeNotSupported | oversizedData | negativeValue | gasLimit | feeCapVeryHigh | tipVeryHigh
  | tipAboveFeeCap | underpriced | gasUintOverflow | intrinsicGas
  | decode | accountAlreadyExists | accountNotExists | unsupportedAccount | wrongAccountType
  | reservedAddress | validPeriodTooLow | validLossState | invalidCandidateDPOS
  | validCandidateDPOSValue
  | emptyPnsData | validPeriodNotSpecified | invalidLossMarkAddress | lossReportingConflict
  | beneficiaryNotRegular | ticketsNotRedeemed | votersNotInformed | invalidOwner | votingNotOver
  | receiverReserved | receiverDeposit | unsupportedReceiver
  | lossReportNotExists | invalidLossReport | lossMarkNotExists | inconsistentBeneficiary
  | revelationRepeated | lostAccountNotExists | lostAccountNotExist | invalidLostAccount
  | lostAccountNotSupport | lostAccountInProcess | lostAccountNotReported
  | newBeneficiaryNotExists | invalidNewBeneficiary | incorrectDigest | insufficientPledge
  | cycleNotOver | thresholdTooLow | incorrectOwner
  | illegalNodeInfo | otherCandidate | noVotingRecords | electionNotOver
  | invalidPnsOwner | consistentOwner | lossTypeTooLarge | lossReportNotSuccessful
  | pnsNotExists | invalidPns | authorizeNotExists | invalidAuthorize | invalidAuthorizeOwner
  | nilPointer
  deriving DecidableEq, Repr

/-- Dereferences an amount. -/
def deref {α : Type} (o : Option α) : Except PoolError α := getOr o .nilPointer

/-! ## 2. Transactions and the pool -/

inductive TxType where
  | legacy
  | accessList
  | dynamicFee
  | superlight
  | dilithium
  | agent
  deriving DecidableEq, Repr

/-- A transaction as the pool reads it.  `sender` is what the signature recovers to, if it does. -/
structure Transaction where
  sender : Option Address
  txType : TxType := .legacy
  toAddr : Option Address
  nonce : UInt64 := 0
  value : Int
  data : Bytes
  gas : UInt64
  gasPrice : Int
  gasFeeCap : Int
  gasTipCap : Int
  accessList : List (Address × List Hash) := []
  size : Nat := 0

/-- `gas * gasPrice + value`, and the pledge of an account that is registered. -/
def Transaction.cost (tx : Transaction) : Int :=
  let pledge : Nat :=
    match tx.toAddr.map operationOf with
    | some .registerPns => AccountType.pns.pledge
    | some .registerAuthorize => AccountType.authorize.pledge
    | some .registerLose => AccountType.loss.pledge
    | _ => 0
  tx.gasPrice * tx.gas.toNat + tx.value + pledge

/-- `currentNumber` is the number of the chain's current block. -/
structure Pool where
  currentState : StateDB
  currentNumber : Nat
  currentMaxGas : UInt64
  gasPrice : Int
  eip2718 : Bool
  eip1559 : Bool
  istanbul : Bool

def isReservedAddress (a : Address) : Bool := a.toNat % 2 ^ 64 ≤ 512

/-- The last two bytes are shifted left by six, the FIRST byte of the result is dropped, and the
rest is shifted back.  The bytes of a big integer have no leading zeros: a small number loses more
than the six high bits, and zero has no first byte to drop. -/
def last10BitsToUint (a : Address) : Option Nat :=
  match BigEndian.ofNat (a.toNat % 65536 * 64) with
  | [] => none
  | _ :: rest => some (BigEndian.toNat rest / 64)

def LossMark.getMark (m : LossMark) (index : Nat) : Bool :=
  if 1023 < index then false else m.getLsbD index

/-- Whether `pattern` occurs in `s`. -/
def containsBytes (pattern : Bytes) : Bytes → Bool
  | [] => pattern = []
  | b :: s => pattern.isPrefixOf (b :: s) || containsBytes pattern s

/-- The bytes of `enode://`. -/
def dPosNodePrefix : Bytes := [0x65, 0x6e, 0x6f, 0x64, 0x65, 0x3a, 0x2f, 0x2f]

/-- `IntDecodeType` -/
def decodeInt (data : Bytes) : Option Nat := do
  let payload ← Rlp.splitList data
  let (num, rest) ← Rlp.readBig payload
  readEnd num rest

def decodeRegisterLoss (data : Bytes) : Option RegisterLossDecodeType := do
  let payload ← Rlp.splitList data
  let (lastBitsMark, rest) ← Rlp.readUint 32 payload
  let (infoDigest, rest) ← readHash rest
  readEnd { lastBitsMark := UInt32.ofNat lastBitsMark, infoDigest := infoDigest } rest

namespace Pool

variable (X : Externals) (pool : Pool) (tx : Transaction) (sender : Address)

def getStateObject (a : Address) : Option StateObject := pool.currentState.getStateObject a

/-! ## 3. The checks of the operations -/

/-- `CanLossMark`: a missing mark account is as good as an empty one. -/
def canLossMark (lastBitsMark : UInt32) : Except PoolError Unit := do
  let lossMarkObj := (pool.getStateObject specialAddressForRegisterLose).getD (.new .lossMark)
  require (lossMarkObj.accountType = .lossMark) .invalidLossMarkAddress
  require (lossMarkObj.lossMarkAccount.lossMark.getMark (lastBitsMark.toNat % 1024) = false)
    .lossReportingConflict

/-- The address an account would be registered at, after the checks of its kind. -/
def registeredAddress (op : Operation) : Except PoolError Address :=
  match op with
  | .registerPns => do
    require (tx.data ≠ []) .emptyPnsData
    return createPNSAddress X sender tx.data
  | .registerAuthorize => do
    let num ← getOr (decodeInt tx.data) .decode
    require (pool.currentNumber < num) .validPeriodNotSpecified
    return createAddress X sender tx.nonce
  | .registerLose => do
    let decode ← getOr (decodeRegisterLoss tx.data) .decode
    pool.canLossMark decode.lastBitsMark
    return createAddress X sender tx.nonce
  | _ => return 0

def validateTxOfRegister (op : Operation) : Except PoolError Unit := do
  let newAccount ← pool.registeredAddress X tx sender op
  require ((pool.getStateObject newAccount).isNone) .accountAlreadyExists

/-- What the type of the account to close asks for. -/
def validateCancelled (cancelAddress : Address) (o : StateObject) : Except PoolError Unit :=
  match o.accountType with
  | .regular => do
    let voteValue ← deref o.regularAccount.voteValue
    require (voteValue ≤ 0) .ticketsNotRedeemed
    require (cancelAddress = sender) .invalidOwner
  | .pns => require (o.pnsAccount.owner = sender) .invalidOwner
  | .authorize => do
    let validPeriod ← deref o.authorizeAccount.validPeriod
    require (validPeriod < pool.currentNumber) .votingNotOver
    require (o.authorizeAccount.owner = sender) .invalidOwner
    let voteValue ← deref o.authorizeAccount.voteValue
    require (voteValue ≤ 0) .votersNotInformed
  | _ => .error .wrongAccountType

def validateTxOfCancellation : Except PoolError Unit := do
  let decode ← getOr (decodeCancellation tx.data) .decode
  let cancelAccount ← getOr (pool.getStateObject decode.cancelAddress) .accountNotExists
  let beneficiaryAccount ← getOr (pool.getStateObject decode.beneficiaryAddress) .accountNotExists
  require (beneficiaryAccount.accountType = .regular) .beneficiaryNotRegular
  pool.validateCancelled sender decode.cancelAddress cancelAccount

def validateTxOfTransfer (dest : Address) : Except PoolError Unit := do
  require (isReservedAddress dest = false) .receiverReserved
  match pool.getStateObject dest with
  | none => require ((AccountType.regular.pledge : Int) < tx.value) .receiverDeposit
  | some toAccount =>
    require (toAccount.accountType = .regular ∨ toAccount.accountType = .contract)
      .unsupportedReceiver

def minPercentageOfPledgeForRetrieveLostAccount : Int := 10

def validateTxOfRevealLossReport : Except PoolError Unit := do
  let decode ← getOr (decodeRevealLossReport tx.data) .decode
  let lossObj ← getOr (pool.getStateObject decode.lossAccount) .lossReportNotExists
  require (lossObj.accountType = .loss) .invalidLossReport
  require (lossObj.lossAccount.state = .apply) .validLossState
  let lossMarkObj ← getOr (pool.getStateObject specialAddressForRegisterLose) .lossMarkNotExists
  let lastBits ← deref (last10BitsToUint decode.oldAccount)
  require (lossObj.lossAccount.lastBits.toNat = lastBits) .inconsistentBeneficiary
  require (lossMarkObj.lossMarkAccount.lossMark.getMark (lastBits % 1024)) .revelationRepeated
  let oldObj ← getOr (pool.getStateObject decode.oldAccount) .lostAccountNotExists
  require (oldObj.accountType = .regular) .invalidLostAccount
  require (oldObj.regularAccount.lossType.getType ≠ 0) .lostAccountNotSupport
  require (oldObj.regularAccount.lossType.getState = false) .lostAccountInProcess
  let newObj ← getOr (pool.getStateObject decode.newAccount) .newBeneficiaryNotExists
  require (newObj.accountType = .regular) .invalidNewBeneficiary
  require (lossObj.lossAccount.infoDigest = X.keccak256 (Address.bytes decode.oldAccount ++
    Address.bytes decode.newAccount ++ BigEndian.ofNat decode.randomNum.toNat)) .incorrectDigest
  require (oldObj.balance ≤ tx.value * minPercentageOfPledgeForRetrieveLostAccount)
    .insufficientPledge

/-- Blocks of one loss cycle. -/
def cycleHeightBlocksOfLossType : Int := 172800

def validateTxOfTransferLostAccount : Except PoolError Unit := do
  let addr ← getOr (decodeAddress tx.data) .decode
  let lossObj ← getOr (pool.getStateObject addr) .accountNotExists
  require (lossObj.accountType = .loss) .unsupportedAccount
  require (lossObj.lossAccount.state = .reveal) .validLossState
  let lostObj ← getOr (pool.getStateObject lossObj.lossAccount.lostAccount) .lostAccountNotExist
  require (lostObj.regularAccount.lossType.getType ≠ 0) .lostAccountNotSupport
  require (lostObj.regularAccount.lossType.getState) .lostAccountNotReported
  let height ← deref lossObj.lossAccount.height
  require (lostObj.regularAccount.lossType.getType.toNat * cycleHeightBlocksOfLossType ≤
    (pool.currentNumber : Int) - height) .cycleNotOver

/-- Blocks after which a report that was not revealed may be removed. -/
def thresholdHeightOfRemoveLossReport : Nat := 11520

def validateTxOfRemoveLossReport : Except PoolError Unit := do
  let addr ← getOr (decodeAddress tx.data) .decode
  let lossObj ← getOr (pool.getStateObject addr) .accountNotExists
  require (lossObj.accountType = .loss) .unsupportedAccount
  require (lossObj.lossAccount.state = .apply) .validLossState
  let height ← deref lossObj.lossAccount.height
  require (height + thresholdHeightOfRemoveLossReport < pool.currentNumber) .thresholdTooLow

/-- The type of the account is not checked. -/
def validateTxOfRejectLossReport : Except PoolError Unit := do
  let addr ← getOr (decodeAddress tx.data) .decode
  let lossObj ← getOr (pool.getStateObject addr) .accountNotExists
  require (lossObj.lossAccount.state = .reveal) .validLossState
  require (sender = lossObj.lossAccount.lostAccount) .incorrectOwner

def validateTxOfApplyToBeDPoSNode : Except PoolError Unit := do
  let decode ← getOr (decodeApplyDPos tx.data) .decode
  require (decode.nodeInfo ≠ [] ∧ containsBytes dPosNodePrefix decode.nodeInfo) .illegalNodeInfo
  let voteAccount ← getOr (pool.getStateObject decode.voteAddress) .accountNotExists
  require (voteAccount.accountType = .authorize) .unsupportedAccount
  let validPeriod ← deref voteAccount.authorizeAccount.validPeriod
  require (pool.currentNumber < validPeriod) .validPeriodTooLow
  let fromAccount ← deref (pool.getStateObject sender)
  require (fromAccount.regularAccount.voteAccount = 0 ∨
    fromAccount.regularAccount.voteAccount = decode.voteAddress) .invalidCandidateDPOS
  let pledgeValue ← deref voteAccount.authorizeAccount.pledgeValue
  let voteValue ← deref voteAccount.authorizeAccount.voteValue
  require (voteValue ≤ pledgeValue * 10) .validCandidateDPOSValue

def validateTxOfVote : Except PoolError Unit := do
  let addr ← getOr (decodeAddress tx.data) .decode
  let voteAccount ← getOr (pool.getStateObject addr) .accountNotExists
  require (voteAccount.accountType = .authorize) .unsupportedAccount
  let validPeriod ← deref voteAccount.authorizeAccount.validPeriod
  require (pool.currentNumber < validPeriod) .validPeriodTooLow
  let fromAccount ← deref (pool.getStateObject sender)
  require (fromAccount.regularAccount.voteAccount = 0 ∨
    fromAccount.regularAccount.voteAccount = addr) .otherCandidate

/-- The owner may redeem, and whoever has voted for the account. -/
def validateTxOfRedemption : Except PoolError Unit := do
  let addr ← getOr (decodeAddress tx.data) .decode
  let voteAccount ← getOr (pool.getStateObject addr) .accountNotExists
  require (voteAccount.accountType = .authorize) .unsupportedAccount
  if voteAccount.authorizeAccount.owner ≠ sender then
    let senderAccount ← deref (pool.getStateObject sender)
    require (senderAccount.regularAccount.voteAccount = addr) .noVotingRecords
  let validPeriod ← deref voteAccount.authorizeAccount.validPeriod
  require (validPeriod < pool.currentNumber) .electionNotOver

def validateTxOfModifyPnsOwner : Except PoolError Unit := do
  let decode ← getOr (decodePnsOwner tx.data) .decode
  let pnsAccount ← getOr (pool.getStateObject decode.pnsAddress) .accountNotExists
  require (pnsAccount.accountType = .pns) .unsupportedAccount
  let ownerAccount ← getOr (pool.getStateObject decode.ownerAddress) .accountNotExists
  require (ownerAccount.accountType = .regular) .unsupportedAccount
  require (pnsAccount.pnsAccount.owner = sender) .invalidPnsOwner
  require (pnsAccount.pnsAccount.owner ≠ decode.ownerAddress) .consistentOwner

def validateTxOfModifyPnsContent : Except PoolError Unit := do
  let decode ← getOr (decodePnsContent tx.data) .decode
  require (decode.pnsData ≠ []) .emptyPnsData
  let pnsAccount ← getOr (pool.getStateObject decode.pnsAddress) .accountNotExists
  require (pnsAccount.accountType = .pns) .unsupportedAccount
  require (pnsAccount.pnsAccount.owner = sender) .invalidPnsOwner

def validateTxOfModifyLossType : Except PoolError Unit := do
  let num ← getOr (decodeByte tx.data) .decode
  require (num.toNat ≤ 127) .lossTypeTooLarge

def validateTxOfTransferLostAssociatedAccount (op : Operation) : Except PoolError Unit := do
  let decode ← getOr (decodeAssociatedAccount tx.data) .decode
  let lossObj ← getOr (pool.getStateObject decode.lossAccount) .lossReportNotExists
  require (lossObj.accountType = .loss) .invalidLossReport
  require (lossObj.lossAccount.state = .success) .lossReportNotSuccessful
  let lostAddr := lossObj.lossAccount.lostAccount
  let lostObj ← getOr (pool.getStateObject lostAddr) .lostAccountNotExists
  require (lostObj.accountType = .regular) .invalidLostAccount
  let newObj ← getOr (pool.getStateObject lossObj.lossAccount.newAccount) .newBeneficiaryNotExists
  require (newObj.accountType = .regular) .invalidNewBeneficiary
  match op with
  | .transferLostAccountPns => do
    let pnsObj ← getOr (pool.getStateObject decode.associatedAccount) .pnsNotExists
    require (pnsObj.accountType = .pns) .invalidPns
    require (pnsObj.pnsAccount.owner = lostAddr) .invalidPnsOwner
  | .transferLostAccountAuthorize => do
    let authorizeObj ← getOr (pool.getStateObject decode.associatedAccount) .authorizeNotExists
    require (authorizeObj.accountType = .authorize) .invalidAuthorize
    require (authorizeObj.authorizeAccount.owner = lostAddr) .invalidAuthorizeOwner
  | _ => pure ()

/-- Neither the lost account nor the beneficiary is looked at. -/
def validateTxOfCancellationLossAccount : Except PoolError Unit := do
  let addr ← getOr (decodeAddress tx.data) .decode
  let lossObj ← getOr (pool.getStateObject addr) .lossReportNotExists
  require (lossObj.accountType = .loss) .invalidLossReport
  require (lossObj.lossAccount.state = .success) .lossReportNotSuccessful

/-! ## 4. Sender and gas -/

/-- Returns the sender. -/
def validateSender : Except PoolError Address := do
  let sender ← getOr tx.sender .invalidSender
  let fromAccount ← getOr (pool.getStateObject sender) .senderNotExists
  require (fromAccount.accountType = .regular) .invalidSender
  require (fromAccount.nonce ≤ tx.nonce) .nonceTooLow
  require (tx.cost ≤ fromAccount.balance) .insufficientFunds
  return sender

def maxUint64 : UInt64 := 0xffffffffffffffff

/-- `IntrinsicGas`, after the Homestead fork. -/
def intrinsicGas (data : Bytes) (accessList : List (Address × List Hash))
    (isContractCreation isEIP2028 : Bool) : Except PoolError UInt64 := do
  let gas : UInt64 := if isContractCreation then 53000 else 21000
  let nz := UInt64.ofNat (data.countP (· ≠ 0))
  let nonZeroGas : UInt64 := if isEIP2028 then 16 else 68
  let z := UInt64.ofNat data.length - nz
  require (data = [] ∨ nz ≤ (maxUint64 - gas) / nonZeroGas) .gasUintOverflow
  let gas := gas + nz * nonZeroGas
  require (data = [] ∨ z ≤ (maxUint64 - gas) / 4) .gasUintOverflow
  let gas := gas + z * 4
  let gas := gas + UInt64.ofNat accessList.length * 2400
  return gas + UInt64.ofNat (accessList.map (·.2.length)).sum * 1900

def txMaxSize : Nat := 5 * (32 * 1024)

def validateGas (isLocal : Bool) : Except PoolError Unit := do
  require (pool.eip2718 ∨ tx.txType = .legacy) .txTypeNotSupported
  require (pool.eip1559 ∨ tx.txType ≠ .dynamicFee) .txTypeNotSupported
  require (tx.size ≤ txMaxSize) .oversizedData
  require (0 ≤ tx.value) .negativeValue
  require (tx.gas ≤ pool.currentMaxGas) .gasLimit
  require (tx.gasFeeCap.natAbs < 2 ^ 256) .feeCapVeryHigh
  require (tx.gasTipCap.natAbs < 2 ^ 256) .tipVeryHigh
  require (tx.gasTipCap ≤ tx.gasFeeCap) .tipAboveFeeCap
  require (isLocal ∨ pool.gasPrice ≤ tx.gasTipCap) .underpriced
  let intrGas ← intrinsicGas tx.data tx.accessList tx.toAddr.isNone pool.istanbul
  require (intrGas ≤ tx.gas) .intrinsicGas

/-! ## 5. The whole check -/

/-- The `switch` of `validateTx`.  `0x118` is reserved here, where `CallDB` has no case for it. -/
def validateOperation (dest : Address) : Except PoolError Unit :=
  match operationOf dest with
  | .registerPns => pool.validateTxOfRegister X tx sender .registerPns
  | .registerAuthorize => pool.validateTxOfRegister X tx sender .registerAuthorize
  | .registerLose => pool.validateTxOfRegister X tx sender .registerLose
  | .cancellation => pool.validateTxOfCancellation tx sender
  | .revealLossReport => pool.validateTxOfRevealLossReport X tx
  | .transferLostAccountBalance => pool.validateTxOfTransferLostAccount tx
  | .removeLossReport => pool.validateTxOfRemoveLossReport tx
  | .rejectLossReport => pool.validateTxOfRejectLossReport tx sender
  | .vote => pool.validateTxOfVote tx sender
  | .applyToBeDPoSNode => pool.validateTxOfApplyToBeDPoSNode tx sender
  | .redemption => pool.validateTxOfRedemption tx sender
  | .modifyPnsOwner => pool.validateTxOfModifyPnsOwner tx sender
  | .modifyPnsContent => pool.validateTxOfModifyPnsContent tx sender
  | .modifyLossType => validateTxOfModifyLossType tx
  | .transferLostAccountPns =>
    pool.validateTxOfTransferLostAssociatedAccount tx .transferLostAccountPns
  | .transferLostAccountAuthorize =>
    pool.validateTxOfTransferLostAssociatedAccount tx .transferLostAccountAuthorize
  | .cancellationLostAccount => pool.validateTxOfCancellationLossAccount tx
  | .transfer =>
    if dest = 0x118 then .error .reservedAddress else pool.validateTxOfTransfer tx dest

def validateTx (isLocal : Bool) : Except PoolError Unit := do
  let sender ← pool.validateSender tx
  match tx.toAddr with
  | some dest => pool.validateOperation X tx sender dest
  | none => pure ()
  pool.validateGas tx isLocal

/-- What an accepted transaction has passed. -/
theorem validateTx_eq_ok {X : Externals} {pool : Pool} {tx : Transaction} {isLocal : Bool}
    (h : pool.validateTx X tx isLocal = .ok ()) :
    ∃ sender, pool.validateSender tx = .ok sender ∧
      ∀ dest, tx.toAddr = some dest → pool.validateOperation X tx sender dest = .ok () := by
  obtain ⟨sender, hsender, h⟩ := bind_eq_ok.mp h
  refine ⟨sender, hsender, fun dest hto => ?_⟩
  simp only [hto] at h
  obtain ⟨_, hop, -⟩ := bind_eq_ok.mp h
  exact hop

/-- The sender of an accepted transaction is the one that signed it. -/
theorem validateSender_eq_ok {pool : Pool} {tx : Transaction} {sender : Address}
    (h : pool.validateSender tx = .ok sender) : tx.sender = some sender := by
  simp only [validateSender, getOr_bind_eq_ok, require_bind_eq_ok] at h
  obtain ⟨a, ha, -, -, -, -, -, hsender⟩ := h
  cases hsender
  exact ha

theorem validateTxOfCancellation_eq_ok {pool : Pool} {tx : Transaction} {sender : Address} :
    pool.validateTxOfCancellation tx sender = .ok () ↔
      ∃ d, decodeCancellation tx.data = some d ∧ ∃ o, pool.getStateObject d.cancelAddress = some o ∧
        ∃ b, pool.getStateObject d.beneficiaryAddress = some b ∧ b.accountType = .regular ∧
          pool.validateCancelled sender d.cancelAddress o = .ok () := by
  simp only [validateTxOfCancellation, getOr_bind_eq_ok, require_bind_eq_ok]

theorem validateTxOfCancellationLossAccount_eq_ok {pool : Pool} {tx : Transaction} :
    pool.validateTxOfCancellationLossAccount tx = .ok () ↔
      ∃ addr, decodeAddress tx.data = some addr ∧ ∃ loss, pool.getStateObject addr = some loss ∧
        loss.accountType = .loss ∧ loss.lossAccount.state = .success := by
  simp only [validateTxOfCancellationLossAccount, getOr_bind_eq_ok, require_bind_eq_ok,
    require_eq_ok]

end Pool

/-- What the virtual machine hands to `CallDB` for the transaction. -/
def Transaction.context (tx : Transaction) (sender : Address) (pobEpoch : UInt64)
    (blockNumber : Option Nat) : TxContext :=
  { fromAddr := sender, toAddr := tx.toAddr, nonce := tx.nonce, value := tx.value.toNat,
    data := tx.data, pobEpoch := pobEpoch, blockNumber := blockNumber }

end ProbeChain
