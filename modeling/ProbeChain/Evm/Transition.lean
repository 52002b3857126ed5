/-
# Transactions

`TransitionDb` of `core/state_transition.go` and what `applyTransaction` of
`core/state_processor.go` does around it: the checks of the message, buying gas, the call or the
creation, and settling the gas.

An error is returned before anything is executed, and the block that holds the message is then
invalid; an error of the execution itself is part of the result.  The nonce of the sender is
increased in two places: for a call by `TransitionDb`, for a creation by `create`.

The amounts of a message come from a transaction and are not negative.  The fee caps may be nil,
which the checks of the London fork do not survive.
-/
import ProbeChain.Evm.Machine
import ProbeChain.Pool.Validate

namespace ProbeChain.Evm

/-! ## 1. Messages -/

structure Message where
  fromAddr : Address
  toAddr : Option Address
  nonce : UInt64
  checkNonce : Bool := true
  value : Nat
  gas : UInt64
  gasPrice : Nat
  gasFeeCap : Option Nat
  gasTipCap : Option Nat
  data : Bytes
  accessList : List (Address × List Hash) := []

/-- With what the texts of the errors say. -/
inductive TxError where
  | nonceTooHigh (address : Address) (tx state : UInt64)
  | nonceTooLow (address : Address) (tx state : UInt64)
  | feeCapVeryHigh (address : Address) (bitLength : Nat)
  | tipVeryHigh (address : Address) (bitLength : Nat)
  | tipAboveFeeCap (address : Address) (tip feeCap : Nat)
  | feeCapTooLow (address : Address) (feeCap baseFee : Nat)
  | insufficientFunds (address : Address) (balance : Int) (want : Nat)
  | gasLimitReached
  | gasUintOverflow
  | intrinsicGas (supplied want : UInt64)
  | insufficientFundsForTransfer (address : Address)
  deriving DecidableEq

structure ExecutionResult where
  usedGas : UInt64
  err : Option VMError
  returnData : Bytes

/-- The block, as far as transactions read it. -/
structure BlockEnv extends Env where
  isIstanbul : Bool := true
  noBaseFee : Bool := false
  baseFee : Option Nat := some 0
  coinbase : Address := 0

/-- `NewEVMTxContext` -/
def newEVMTxContext (msg : Message) : TxContext where
  fromAddr := msg.fromAddr
  toAddr := msg.toAddr
  nonce := msg.nonce
  value := msg.value
  data := msg.data

/-- `GasPool.SubGas` -/
def subGas (gp amount : UInt64) : Except TxError UInt64 :=
  if gp < amount then .error .gasLimitReached else .ok (gp - amount)

/-- `GasPool.AddGas`, which panics on overflow. -/
def addGas (gp amount : UInt64) : Option UInt64 :=
  if Pool.maxUint64 - amount < gp then none else some (gp + amount)

def bitLen (n : Nat) : Nat := if n = 0 then 0 else Nat.log2 n + 1

/-! ## 2. Checks -/

variable (E : BlockEnv) (msg : Message)

def verifyNonce (db : StateDB) : Except TxError Unit :=
  let stNonce := db.getNonce msg.fromAddr
  if ¬ msg.checkNonce then .ok ()
  else if stNonce < msg.nonce then .error (.nonceTooHigh msg.fromAddr msg.nonce stNonce)
  else if msg.nonce < stNonce then .error (.nonceTooLow msg.fromAddr msg.nonce stNonce)
  else .ok ()

/-- The fee caps of the London fork; `none` is a run-time panic. -/
def verifyFees : Option (Except TxError Unit) :=
  if ¬ E.rules.isLondon then some (.ok ())
  else do
    let gasFeeCap ← msg.gasFeeCap
    -- the tip is looked at only if the other two conditions fail
    let skipped ← if ¬ E.noBaseFee ∨ 0 < bitLen gasFeeCap then some false
      else msg.gasTipCap.map fun tip => bitLen tip = 0
    if skipped then some (.ok ())
    else if 256 < bitLen gasFeeCap then
      some (.error (.feeCapVeryHigh msg.fromAddr (bitLen gasFeeCap)))
    else do
      let gasTipCap ← msg.gasTipCap
      if 256 < bitLen gasTipCap then some (.error (.tipVeryHigh msg.fromAddr (bitLen gasTipCap)))
      else if gasFeeCap < gasTipCap then
        some (.error (.tipAboveFeeCap msg.fromAddr gasTipCap gasFeeCap))
      else do
        let baseFee ← E.baseFee
        if gasFeeCap < baseFee then some (.error (.feeCapTooLow msg.fromAddr gasFeeCap baseFee))
        else some (.ok ())

/-- What the gas costs.  The balance is checked against the cap, if there is one. -/
def mgval : Nat := msg.gas.toNat * msg.gasPrice

def balanceCheck : Nat := msg.gasFeeCap.elim (mgval msg) (msg.gas.toNat * ·)

/-- A value that does not depend on the machine, and may be a panic. -/
def ofOption {X : Externals} {α : Type} (o : Option α) : Evm X α where
  run m := o.map fun a => ⟨a, m, .nil⟩
  traced := by
    intro m r h
    obtain ⟨a, -, rfl⟩ := Option.map_eq_some_iff.mp h
    rfl

/-- The gas pool that is left. -/
def buyGas (gp : UInt64) : Evm E.X (Except TxError UInt64) := do
  let db ← getDb
  if db.getBalance msg.fromAddr < balanceCheck msg then
    pure (.error (.insufficientFunds msg.fromAddr (db.getBalance msg.fromAddr) (balanceCheck msg)))
  else
    match subGas gp msg.gas with
    | .error e => pure (.error e)
    | .ok gp => do
      act (.op (.subBalance msg.fromAddr (mgval msg)))
      pure (.ok gp)

def preCheck (gp : UInt64) : Evm E.X (Except TxError UInt64) := do
  let db ← getDb
  match verifyNonce msg db with
  | .error e => pure (.error e)
  | .ok () =>
    match ← ofOption (verifyFees E msg) with
    | .error e => pure (.error e)
    | .ok () => buyGas E msg gp

/-- The gas that is left after the intrinsic gas. -/
def verifyGas : Except TxError UInt64 :=
  match Pool.intrinsicGas msg.data msg.accessList (msg.toAddr.isNone && E.rules.isHomestead)
    E.isIstanbul with
  | .error _ => .error .gasUintOverflow
  | .ok gas => if msg.gas < gas then .error (.intrinsicGas msg.gas gas) else .ok (msg.gas - gas)

/-! ## 3. Execution -/

/-- `code` is what the code behind the call does, or the data of the creation. -/
def execute (code : Code) (gas : UInt64) : Evm E.X Outcome :=
  match msg.toAddr with
  | none => invokeCode E.toEnv (.create msg.data gas msg.value) code msg.fromAddr 0 false
  | some dest => do
    let db ← getDb
    act (.op (.setNonce msg.fromAddr (db.getNonce msg.fromAddr + 1)))
    invokeCode E.toEnv (.call dest msg.data gas msg.value) code msg.fromAddr 0 false

def refundQuotient : UInt64 := if E.rules.isLondon then 5 else 2

/-- The gas that is left with the refund. -/
def refunded (db : StateDB) (gas : UInt64) : UInt64 :=
  gas + min ((msg.gas - gas) / refundQuotient E) db.refund

/-- What the coinbase gets for each unit of gas. -/
def effectiveTip : Option Int :=
  if ¬ E.rules.isLondon then some msg.gasPrice
  else do
    let gasTipCap ← msg.gasTipCap
    let gasFeeCap ← msg.gasFeeCap
    let baseFee ← E.baseFee
    some (min (gasTipCap : Int) (gasFeeCap - baseFee))

/-- `refundGas`, and the fee of the coinbase. -/
def settleGas (gp : UInt64) (outcome : Outcome) :
    Evm E.X (Except TxError (ExecutionResult × UInt64)) := do
  let db ← getDb
  let gas := refunded E msg db outcome.gas
  act (.op (.addBalance msg.fromAddr (gas.toNat * msg.gasPrice)))
  let gp ← ofOption (addGas gp gas)
  let tip ← ofOption (effectiveTip E msg)
  act (.op (.addBalance E.coinbase ((msg.gas - gas).toNat * tip)))
  pure (.ok ({ usedGas := msg.gas - gas, err := outcome.err, returnData := outcome.ret }, gp))

/-- What is done once the message is accepted. -/
def transition (code : Code) (gp gas : UInt64) :
    Evm E.X (Except TxError (ExecutionResult × UInt64)) := do
  let db ← getDb
  if 0 < msg.value ∧ ¬ canTransfer db msg.fromAddr msg.value then
    pure (.error (.insufficientFundsForTransfer msg.fromAddr))
  else do
    let outcome ← execute E msg code gas
    settleGas E msg gp outcome

def transitionDb (code : Code) (gp : UInt64) :
    Evm E.X (Except TxError (ExecutionResult × UInt64)) := do
  match ← preCheck E msg gp with
  | .error e => pure (.error e)
  | .ok gp =>
    match verifyGas E msg with
    | .error e => pure (.error e)
    | .ok gas => transition E msg code gp gas

/-! ## 4. Chains -/

/-- A transaction as it is executed: in its block, with what its code does there. -/
structure Execution where
  env : BlockEnv
  msg : Message
  code : Code
  gasPool : UInt64

namespace Execution

def run (x : Execution) (s : StateDB) :
    Option (Result (Except TxError (ExecutionResult × UInt64))) :=
  (transitionDb x.env x.msg x.code x.gasPool).run ⟨s, newEVMTxContext x.msg⟩

/-- `applyTransaction`: with an error there is no block, and otherwise the state is finalised. -/
def apply (s : StateDB) (x : Execution) : Option StateDB :=
  (x.run s).bind fun r =>
    match r.value with
    | .error _ => none
    | .ok _ => some r.machine.db.finalise

end Execution

end ProbeChain.Evm
