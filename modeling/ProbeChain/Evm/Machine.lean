/-
# Calls and creations

`Call`, `CallCode`, `DelegateCall`, `StaticCall` and `create` of `core/vm/evm.go`, the write
protection of `core/vm/interpreter.go`, and `CallDB` and `ContractDeploy` of `core/evm.go` as they
are reached from there.

What a contract computes is not modelled, only what it does to the state: `Code` is the list of the
instructions that matter, as one run of the contract meets them, and for a call or a creation also
what the code behind it does.  Every run of every contract is one of these, and the theorems are
about all of them.  The gas left at the end is part of `Code`, and the access list, which only
decides how much gas is used, is left out.

The transaction context is ONE value for the whole tree of calls, as in the source; only its origin
and its data are never changed.  A program also notes what it does to the database, as a
`Scope.Trace` in which the snapshots that are reverted to are the abandoned scopes.  That the notes
are right is part of what a program is (`Evm.traced`).
-/
import ProbeChain.Lib.Scope
import ProbeChain.State.Revert

namespace ProbeChain

open Scope Option StateObject

/-! ## 1. What is done to the database -/

/-- `hook` is `CallDB` on behalf of a call of `dest` by `caller`; the two need not be those of the
context.  `selfdestruct` is `opSuicide`. -/
inductive Action where
  | op (o : DBOp)
  | hook (caller dest : Address) (value : Nat) (ctx : TxContext)
  | selfdestruct (self beneficiary : Address)

namespace StateDB

def exist (s : StateDB) (a : Address) : Bool := (s.getStateObject a).isSome

def getBalance (s : StateDB) (a : Address) : Int := (s.getStateObject a).elim 0 balance

def getNonce (s : StateDB) (a : Address) : UInt64 := (s.getStateObject a).elim 0 nonce

def getCode (s : StateDB) (a : Address) : Bytes := (s.getStateObject a).elim [] code

def getCodeHash (s : StateDB) (a : Address) : Hash :=
  (s.getStateObject a).elim 0 (·.assetAccount.codeHash)

/-- The balance goes to the beneficiary and is not taken from the account that is marked. -/
def opSuicide (s : StateDB) (self beneficiary : Address) : Option StateDB :=
  (s.addBalance beneficiary (s.getBalance self)).suicide self

end StateDB

def actionStep (X : Externals) (s : StateDB) : Action → Option StateDB
  | .op o => dbStep X s o
  | .hook _ _ _ ctx => callDB X s ctx
  | .selfdestruct self beneficiary => s.opSuicide self beneficiary

/-- A scope is a snapshot. -/
def evmStore (X : Externals) : Store StateDB Action where
  step := actionStep X
  enter s := s.snapshot.1
  abandon s t := t.revertToSnapshot s.snapshot.2

/-! ## 2. Programs -/

structure Machine where
  db : StateDB
  ctx : TxContext

structure Result (α : Type) where
  value : α
  machine : Machine
  trace : Trace Action

/-- A program of the virtual machine.  `none` is a run-time panic. -/
structure Evm (X : Externals) (α : Type) where
  run : Machine → Option (Result α)
  traced : ∀ {m r}, run m = some r → r.trace.run (evmStore X) m.db = some r.machine.db

namespace Evm

variable {X : Externals} {α β : Type}

instance instMonad : Monad (Evm X) where
  pure a := ⟨fun m => some ⟨a, m, .nil⟩, fun {m r} h => by obtain rfl := some.inj h; rfl⟩
  bind p f :=
    { run := fun m => (p.run m).bind fun r =>
        ((f r.value).run r.machine).map fun r' => ⟨r'.value, r'.machine, r.trace.append r'.trace⟩
      traced := by
        intro m r h
        obtain ⟨r₁, h₁, h⟩ := bind_eq_some_iff.mp h
        obtain ⟨r₂, h₂, rfl⟩ := map_eq_some_iff.mp h
        rw [Trace.run_append, p.traced h₁, bind_some, (f r₁.value).traced h₂] }

def getDb : Evm X StateDB :=
  ⟨fun m => some ⟨m.db, m, .nil⟩, fun {m r} h => by obtain rfl := some.inj h; rfl⟩

def getCtx : Evm X TxContext :=
  ⟨fun m => some ⟨m.ctx, m, .nil⟩, fun {m r} h => by obtain rfl := some.inj h; rfl⟩

def setCtx (ctx : TxContext) : Evm X Unit :=
  ⟨fun m => some ⟨(), { m with ctx := ctx }, .nil⟩, fun {m r} h => by
    obtain rfl := some.inj h; rfl⟩

def act (a : Action) : Evm X Unit where
  run m := (actionStep X m.db a).map fun db => ⟨(), { m with db := db }, .act a .nil⟩
  traced := by
    intro m r h
    obtain ⟨db, hdb, rfl⟩ := map_eq_some_iff.mp h
    simp only [Trace.run, evmStore, hdb, bind_some]

/-- Takes a snapshot, and reverts to it if the outcome says so. -/
def withSnapshot (abandoned : α → Bool) (body : Evm X α) : Evm X α where
  run m := (body.run { m with db := m.db.snapshot.1 }).bind fun r =>
    ((evmStore X).leave (abandoned r.value) m.db r.machine.db).map fun db =>
      ⟨r.value, { r.machine with db := db }, .scope r.trace (abandoned r.value) .nil⟩
  traced := by
    intro m r h
    obtain ⟨r₁, h₁, h⟩ := bind_eq_some_iff.mp h
    obtain ⟨db, hdb, rfl⟩ := map_eq_some_iff.mp h
    have hbody := body.traced h₁
    simp only [Trace.run]
    rw [show (evmStore X).enter m.db = m.db.snapshot.1 from rfl, hbody, bind_some, hdb,
      bind_some]

/-! ## 3. Rules and results -/

structure Rules where
  isHomestead : Bool := true
  isByzantium : Bool := true
  isEIP158 : Bool := true
  isLondon : Bool := true
  isShenzhen : Bool := true

/-- What the interpreter ends with. -/
inductive Fault where
  | executionReverted
  | writeProtection
  | other
  deriving DecidableEq

inductive VMError where
  | depth
  | insufficientBalance
  | contractAddressCollision
  | depositNotEnough
  | maxCodeSizeExceeded
  | invalidCode
  | codeStoreOutOfGas
  | fault (f : Fault)
  deriving DecidableEq

/-- What `Run` returns, and the gas left. -/
structure Halt where
  ret : Bytes := []
  gas : UInt64 := 0
  err : Option Fault := none

structure Outcome where
  ret : Bytes := []
  contractAddr : Address := 0
  gas : UInt64 := 0
  err : Option VMError := none

/-- An error uses up the gas, except for a revert. -/
def Outcome.settle (o : Outcome) : Outcome :=
  match o.err with
  | none => o
  | some (.fault .executionReverted) => o
  | some _ => { o with gas := 0 }

structure PrecompiledContract where
  requiredGas : Bytes → UInt64
  run : Bytes → Option Bytes

def runPrecompiledContract (p : PrecompiledContract) (input : Bytes)
    (suppliedGas : UInt64) : Outcome :=
  if suppliedGas < p.requiredGas input then { err := some (.fault .other) }
  else
    match p.run input with
    | some output => { ret := output, gas := suppliedGas - p.requiredGas input }
    | none => { gas := suppliedGas - p.requiredGas input, err := some (.fault .other) }

/-- The chain, its rules at the block, and the configuration of the virtual machine. -/
structure Env where
  X : Externals
  rules : Rules := {}
  precompile : Address → Option PrecompiledContract := fun _ => none
  blockNumber : Nat := 1
  pobEpoch : Option UInt64 := none
  noRecursion : Bool := false

def callCreateDepth : Nat := 1024

def maxCodeSize : Nat := 24576

def createDataGas : UInt64 := 200

/-- `IsSpecialAddress`: the reserved addresses, with or without an operation. -/
def isSpecialAddress (a : Address) : Bool :=
  a.toNat ∈
    [0x101, 0x102, 0x103, 0x104, 0x105, 0x106, 0x107, 0x108, 0x109, 0x110, 0x111, 0x112, 0x113,
      0x114, 0x115, 0x116, 0x117, 0x118, 0x119, 0x11a, 0x11b]

def canTransfer (s : StateDB) (a : Address) (amount : Nat) : Bool := amount ≤ s.getBalance a

/-- `crypto.CreateAddress2` -/
def createAddress2 (X : Externals) (a : Address) (salt inithash : Hash) : Address :=
  (X.keccak256 ([0xff] ++ Address.bytes a ++ Hash.bytes salt ++ Hash.bytes inithash)).setWidth 160

/-! ## 4. Calls -/

variable (E : Env)

/-- On the Shenzhen fork the context becomes that of the call. -/
def callContext (ctx : TxContext) (caller dest : Address) (value : Nat) : TxContext :=
  if E.rules.isShenzhen then { ctx with fromAddr := caller, toAddr := some dest, value := value }
  else ctx

/-- Set by `Call`, for the operations that need to know the block. -/
def blockContext (ctx : TxContext) : TxContext :=
  { ctx with blockNumber := some E.blockNumber, pobEpoch := E.pobEpoch.getD ctx.pobEpoch }

/-- A precompiled contract, or the code at `addr`, which `body` stands for.  Without code nothing
happens. -/
def runAccount (body : Evm E.X Halt) (addr : Address) (input : Bytes) (gas : UInt64) :
    Evm E.X Outcome :=
  match E.precompile addr with
  | some p => pure (runPrecompiledContract p input gas)
  | none => do
    let db ← getDb
    if db.getCode addr = [] then pure { gas := gas }
    else do
      let halt ← body
      pure { ret := halt.ret, gas := halt.gas, err := halt.err.map .fault }

/-- A precompiled contract that is called gets an account. -/
def createPrecompile (dest : Address) : Evm E.X Unit := do
  let db ← getDb
  if ¬ isSpecialAddress dest ∧ ¬ db.exist dest ∧ (E.precompile dest).isSome then
    act (.op (.createContractAccount dest))
  else pure ()

/-- What `Call` does between its snapshot and the end. -/
def callBody (body : Evm E.X Halt) (caller dest : Address) (input : Bytes) (gas : UInt64)
    (value : Nat) :
    Evm E.X Outcome := do
  createPrecompile E dest
  let ctx ← getCtx
  setCtx (blockContext E (callContext E ctx caller dest value))
  act (.hook caller dest value (blockContext E (callContext E ctx caller dest value)))
  runAccount E body dest input gas

def call (depth : Nat) (body : Evm E.X Halt) (caller dest : Address) (input : Bytes) (gas : UInt64)
    (value : Nat) : Evm E.X Outcome :=
  if E.noRecursion ∧ 0 < depth then pure { gas := gas }
  else if callCreateDepth < depth then pure { gas := gas, err := some .depth }
  else do
    let db ← getDb
    if value ≠ 0 ∧ ¬ canTransfer db caller value then
      pure { gas := gas, err := some .insufficientBalance }
    else do
      let outcome ← withSnapshot (fun o => o.err.isSome)
          (callBody E body caller dest input gas value)
      pure outcome.settle

/-- The code of another account is run in place of one's own; nothing is transferred. -/
def callCode (depth : Nat) (body : Evm E.X Halt) (caller addr : Address) (input : Bytes)
    (gas : UInt64) (value : Nat) : Evm E.X Outcome :=
  if E.noRecursion ∧ 0 < depth then pure { gas := gas }
  else if callCreateDepth < depth then pure { gas := gas, err := some .depth }
  else do
    let db ← getDb
    if ¬ canTransfer db caller value then pure { gas := gas, err := some .insufficientBalance }
    else do
      let outcome ← withSnapshot (fun o => o.err.isSome) (runAccount E body addr input gas)
      pure outcome.settle

def delegateCall (depth : Nat) (body : Evm E.X Halt) (addr : Address) (input : Bytes)
    (gas : UInt64) :
    Evm E.X Outcome :=
  if E.noRecursion ∧ 0 < depth then pure { gas := gas }
  else if callCreateDepth < depth then pure { gas := gas, err := some .depth }
  else do
    let outcome ← withSnapshot (fun o => o.err.isSome) (runAccount E body addr input gas)
    pure outcome.settle

/-- The account is touched before its code is run. -/
def staticCall (depth : Nat) (body : Evm E.X Halt) (addr : Address) (input : Bytes) (gas : UInt64) :
    Evm E.X Outcome :=
  if E.noRecursion ∧ 0 < depth then pure { gas := gas }
  else if callCreateDepth < depth then pure { gas := gas, err := some .depth }
  else do
    let outcome ← withSnapshot (fun o => o.err.isSome) do
      act (.op (.addBalance addr 0))
      runAccount E body addr input gas
    pure outcome.settle

/-! ## 5. Creations -/

/-- The checks on the code that a creation returns, and the code stored. -/
def storeCode (address : Address) (halt : Halt) : Evm E.X Outcome :=
  let outcome : Outcome := { ret := halt.ret, contractAddr := address, gas := halt.gas }
  match halt.err with
  | some f => pure { outcome with err := some (.fault f) }
  | none =>
    if E.rules.isEIP158 ∧ maxCodeSize < halt.ret.length then
      pure { outcome with err := some .maxCodeSizeExceeded }
    else if halt.ret.head? = some 0xEF ∧ E.rules.isLondon then
      pure { outcome with err := some .invalidCode }
    else
      let dataGas := UInt64.ofNat halt.ret.length * createDataGas
      if dataGas ≤ halt.gas then do
        act (.op (.setCode address (E.X.keccak256 halt.ret) halt.ret))
        pure { outcome with gas := halt.gas - dataGas }
      else pure { outcome with err := some .codeStoreOutOfGas }

/-- A creation is taken back on every error of its code, but code that could not be paid for only on
the Homestead fork.  An error from `ContractDeploy` is returned without taking anything back. -/
def createAbandoned (o : Outcome) : Bool :=
  match o.err with
  | none => false
  | some .depositNotEnough => false
  | some .codeStoreOutOfGas => E.rules.isHomestead
  | some _ => true

def settleCreate (o : Outcome) : Outcome := if createAbandoned E o then o.settle else o

/-- `ContractDeploy`: before the Shenzhen fork a creation costs its creator the pledge, and the
value is not transferred. -/
def contractDeploy (caller : Address) : Evm E.X (Option VMError) := do
  let db ← getDb
  if db.getBalance caller < 1 ∨ db.getBalance caller < AccountType.contract.pledge then
    pure (some .depositNotEnough)
  else do
    act (.op (.subBalance caller AccountType.contract.pledge))
    pure none

/-- The value of a creation. -/
def payCreation (caller address : Address) (value : Nat) : Evm E.X (Option VMError) :=
  if E.rules.isShenzhen then do
    let ctx ← getCtx
    setCtx (callContext E ctx caller address value)
    act (.hook caller address value (callContext E ctx caller address value))
    pure none
  else contractDeploy E caller

/-- The account of the contract to be. -/
def openAccount (address : Address) : Evm E.X Unit := do
  act (.op (.createContractAccount address))
  if E.rules.isEIP158 then act (.op (.setNonce address 1)) else pure ()

/-- `body` stands for the creation code, unless there is none. -/
def runCreation (depth : Nat) (body : Evm E.X Halt) (code : Bytes) (gas : UInt64)
    (address : Address) :
    Evm E.X Outcome :=
  if E.noRecursion ∧ 0 < depth then pure { contractAddr := address, gas := gas }
  else if code = [] then storeCode E address { gas := gas }
  else do
    let halt ← body
    storeCode E address halt

/-- What `create` does between its snapshot and the end. -/
def createBody (depth : Nat) (body : Evm E.X Halt) (caller : Address) (code : Bytes) (gas : UInt64)
    (value : Nat) (address : Address) : Evm E.X Outcome := do
  openAccount E address
  match ← payCreation E caller address value with
  | some err => pure { gas := gas, err := some err }
  | none => runCreation E depth body code gas address

/-- There is a contract at the address already. -/
def collides (db : StateDB) (address : Address) : Prop :=
  db.getNonce address ≠ 0 ∨
    (db.getCodeHash address ≠ 0 ∧ db.getCodeHash address ≠ emptyCodeHash)

instance instDecidableCollides (db : StateDB) (address : Address) :
    Decidable (collides db address) :=
  inferInstanceAs (Decidable (_ ∨ _))

def create (depth : Nat) (body : Evm E.X Halt) (caller : Address) (code : Bytes) (gas : UInt64)
    (value : Nat) (address : Address) : Evm E.X Outcome :=
  if callCreateDepth < depth then pure { gas := gas, err := some .depth }
  else do
    let db ← getDb
    if ¬ canTransfer db caller value then pure { gas := gas, err := some .insufficientBalance }
    else do
      act (.op (.setNonce caller (db.getNonce caller + 1)))
      let db ← getDb
      if collides db address then pure { err := some .contractAddressCollision }
      else do
        let outcome ← withSnapshot (createAbandoned E)
          (createBody E depth body caller code gas value address)
        pure (settleCreate E outcome)

/-- `Create`: the address comes from the nonce, and has to be unused. -/
def createByNonce (depth : Nat) (body : Address → Evm E.X Halt) (caller : Address) (code : Bytes)
    (gas : UInt64) (value : Nat) : Evm E.X Outcome := do
  let db ← getDb
  let contractAddr := createAddress E.X caller (db.getNonce caller)
  if db.exist contractAddr then pure { gas := gas, err := some .contractAddressCollision }
  else create E depth (body contractAddr) caller code gas value contractAddr

/-- `Create2`: the address comes from the code. -/
def createBySalt (depth : Nat) (body : Address → Evm E.X Halt) (caller : Address) (code : Bytes)
    (gas : UInt64) (endowment : Nat) (salt : Hash) : Evm E.X Outcome :=
  let contractAddr := createAddress2 E.X caller salt (E.X.keccak256 code)
  create E depth (body contractAddr) caller code gas endowment contractAddr

/-! ## 6. Contracts -/

/-- What an account asks the machine to do. -/
inductive Invoke where
  | call (dest : Address) (input : Bytes) (gas : UInt64) (value : Nat)
  | callCode (addr : Address) (input : Bytes) (gas : UInt64) (value : Nat)
  | delegateCall (addr : Address) (input : Bytes) (gas : UInt64)
  | staticCall (addr : Address) (input : Bytes) (gas : UInt64)
  | create (code : Bytes) (gas : UInt64) (value : Nat)
  | create2 (code : Bytes) (gas : UInt64) (endowment : Nat) (salt : Hash)

/-- `operation.writes`, and a `CALL` with a value. -/
def Invoke.writes : Invoke → Bool
  | .call _ _ _ value => value ≠ 0
  | .create .. => true
  | .create2 .. => true
  | _ => false

/-- `body` says what code does: in the name of which account, how deep, and whether read-only. -/
def invoke (i : Invoke) (body : Address → Nat → Bool → Evm E.X Halt) (caller : Address)
    (depth : Nat) (readOnly : Bool) : Evm E.X Outcome :=
  match i with
  | .call dest input gas value =>
    call E depth (body dest (depth + 1) readOnly) caller dest input gas value
  | .callCode addr input gas value =>
    callCode E depth (body caller (depth + 1) readOnly) caller addr input gas value
  | .delegateCall addr input gas =>
    delegateCall E depth (body caller (depth + 1) readOnly) addr input gas
  | .staticCall addr input gas => staticCall E depth (body addr (depth + 1) true) addr input gas
  | .create code gas value =>
    createByNonce E depth (fun a => body a (depth + 1) readOnly) caller code gas value
  | .create2 code gas endowment salt =>
    createBySalt E depth (fun a => body a (depth + 1) readOnly) caller code gas endowment salt

/-- One run of a contract, as far as it concerns the state. -/
inductive Code where
  | halt (ret : Bytes) (gas : UInt64) (err : Option Fault)
  | sstore (key value : Hash) (rest : Code)
  | log (topics : List Hash) (data : Bytes) (rest : Code)
  | addRefund (gas : UInt64) (rest : Code)
  | subRefund (gas : UInt64) (rest : Code)
  | selfdestruct (beneficiary : Address) (gas : UInt64)
  | invoke (i : Invoke) (body rest : Code)

/-- In read-only mode an instruction that writes ends the run.  The refunds belong to instructions
that write. -/
def exec : Code → Address → Nat → Bool → Evm E.X Halt
  | .halt ret gas err, _, _, _ => pure { ret := ret, gas := gas, err := err }
  | .sstore key value rest, self, depth, readOnly =>
    if readOnly ∧ E.rules.isByzantium then pure { err := some .writeProtection }
    else do
      act (.op (.setState self key value))
      exec rest self depth readOnly
  | .log topics data rest, self, depth, readOnly =>
    if readOnly ∧ E.rules.isByzantium then pure { err := some .writeProtection }
    else do
      act (.op (.addLog { address := self, topics := topics, data := data }))
      exec rest self depth readOnly
  | .addRefund gas rest, self, depth, readOnly =>
    if readOnly ∧ E.rules.isByzantium then pure { err := some .writeProtection }
    else do
      act (.op (.addRefund gas))
      exec rest self depth readOnly
  | .subRefund gas rest, self, depth, readOnly =>
    if readOnly ∧ E.rules.isByzantium then pure { err := some .writeProtection }
    else do
      act (.op (.subRefund gas))
      exec rest self depth readOnly
  | .selfdestruct beneficiary gas, self, _, readOnly =>
    if readOnly ∧ E.rules.isByzantium then pure { err := some .writeProtection }
    else do
      act (.selfdestruct self beneficiary)
      pure { gas := gas }
  | .invoke i body rest, self, depth, readOnly =>
    if readOnly ∧ E.rules.isByzantium ∧ i.writes then pure { err := some .writeProtection }
    else do
      let _ ← invoke E i (exec body) self depth readOnly
      exec rest self depth readOnly

/-- `i`, asked for by `caller`, where the code that runs first does what `body` says. -/
def invokeCode (i : Invoke) (body : Code) (caller : Address) (depth : Nat) (readOnly : Bool) :
    Evm E.X Outcome :=
  invoke E i (exec E body) caller depth readOnly

/-- Account `1` with a balance, and a contract at `7`. -/
def payerAndContract : Machine where
  db := .ofAccounts [(1, .ofBalance 100), (7, { new .contract with code := [1] })]
  ctx := { fromAddr := 1, toAddr := some 7, value := 40, data := [] }

end Evm

end ProbeChain
