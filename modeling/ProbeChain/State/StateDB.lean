/-
# The state database and its journal

`core/state/statedb.go` and `core/state/journal.go`.  The database keeps the objects touched so
far, a journal of what was changed, the refund counter and the logs.  A write records its old
value in the journal first; `revertToSnapshot` undoes the journal back to a recorded length.

The objects in memory and the accounts in the trie behind them are ONE map here: an object is
read from memory if it is there and decoded from the trie otherwise, the trie is written only
after the journal has been cleared, and the one undo that drops an object from memory belongs
to an address the trie did not have either.

`none` is a run-time panic: a nil pointer dereferenced, or an explicit `panic`.
-/
import ProbeChain.State.Account

namespace ProbeChain

open StateObject

/-! ## 1. The journal -/

/-- What each kind of write records.  The `AccType` byte that the suicide entries also carry is
the type of the object and never changes. -/
inductive JournalEntry where
  | createObjectChange (account : Address)
  | resetObjectChange (account : Address) (prev : StateObject)
  | regularSuicideChange (account : Address) (suicide : Bool) (voteAccount : Address)
      (voteValue : Int) (lossType : LossType) (value : Int)
  | pnsSuicideChange (account : Address) (suicide : Bool) (pnsType : UInt8) (owner : Address)
      (data : Bytes)
  | assetSuicideChange (account : Address) (suicide : Bool) (value : Int)
      (voteAccount : Address) (voteValue : Int)
  | authorizeSuicideChange (account : Address) (suicide : Bool) (owner : Address)
      (pledgeValue voteValue : Int) (info : Bytes) (validPeriod : Nat)
  | lossSuicideChange (account : Address) (suicide : Bool) (state : LossState)
      (lossAccount newAccount : Address) (height : Nat) (infoDigest : Hash)
  | balanceChange (account : Address) (prev : Int)
  | nonceChange (account : Address) (prev : UInt64)
  | storageChange (account : Address) (key prevalue : Hash)
  | codeChange (account : Address) (prevcode : Bytes) (prevhash : Hash)
  | refundChange (prev : UInt64)
  | addLogChange (txhash : Hash)
  | voteForRegularChange (account voteAccount : Address) (voteValue : Int)
  | voteValueForAuthorizeChange (account : Address) (prev : Int)
  | lossMarkAccountChange (account : Address) (prev : LossMark)
  | lossTypeChange (account : Address) (lossType : LossType)
  | lossStateChange (account : Address) (state : LossState)
  | lostAccountVoteChange (account voteAccount : Address) (voteValue : Int)
  | revealLossReportChange (account lostAccount newAccount : Address) (height : Nat)
      (state : LossState)
  | redemptionForRegularChange (account voteAccount : Address) (voteValue value : Int)
  | modifyAuthorizeOwnerChange (account owner : Address)
  | modifyPnsOwnerChange (account owner : Address)
  | modifyPnsContentChange (account : Address) (pnsType : UInt8) (data : Bytes)
  | redemptionForAuthorizeChange (account : Address) (pledgeValue voteValue : Int)
  | dPosCandidateForAuthorizeChange (account : Address) (info : Bytes) (voteValue : Int)
  | dPosCandidateChange (account : Address) (validatorCandidates : List DPoSCandidateAccount)
      (roundId : UInt64)

/-- The account a change makes dirty.  Replacing an object does not. -/
def JournalEntry.dirtied : JournalEntry → Option Address
  | .createObjectChange a => some a
  | .resetObjectChange _ _ => none
  | .regularSuicideChange a .. => some a
  | .pnsSuicideChange a .. => some a
  | .assetSuicideChange a .. => some a
  | .authorizeSuicideChange a .. => some a
  | .lossSuicideChange a .. => some a
  | .balanceChange a _ => some a
  | .nonceChange a _ => some a
  | .storageChange a .. => some a
  | .codeChange a .. => some a
  | .refundChange _ => none
  | .addLogChange _ => none
  | .voteForRegularChange a .. => some a
  | .voteValueForAuthorizeChange a _ => some a
  | .lossMarkAccountChange a _ => some a
  | .lossTypeChange a _ => some a
  | .lossStateChange a _ => some a
  | .lostAccountVoteChange a .. => some a
  | .revealLossReportChange a .. => some a
  | .redemptionForRegularChange a .. => some a
  | .modifyAuthorizeOwnerChange a _ => some a
  | .modifyPnsOwnerChange a _ => some a
  | .modifyPnsContentChange a .. => some a
  | .redemptionForAuthorizeChange a .. => some a
  | .dPosCandidateForAuthorizeChange a .. => some a
  | .dPosCandidateChange a .. => some a

/-- The account a change is about. -/
def JournalEntry.touched : JournalEntry → Option Address
  | .resetObjectChange a _ => some a
  | e => e.dirtied

/-! ## 2. The database -/

structure Log where
  address : Address
  topics : List Hash
  data : Bytes
  txHash : Hash := 0
  txIndex : Nat := 0
  index : Nat := 0
  deriving DecidableEq

/-- A snapshot: its identifier, and the length of the journal when it was taken. -/
structure Revision where
  id : Nat
  journalIndex : Nat
  deriving DecidableEq

/-- `journal` is newest first.  A snapshot identifier is never handed out twice. -/
structure StateDB where
  stateObjects : Address → Option StateObject
  journal : List JournalEntry := []
  refund : UInt64 := 0
  thash : Hash := 0
  txIndex : Nat := 0
  logs : Hash → List Log := fun _ => []
  logSize : Nat := 0
  validRevisions : List Revision := []
  nextRevisionId : Nat := 0
  revision_lt : ∀ r ∈ validRevisions, r.id < nextRevisionId := by simp

namespace StateDB

/-- A fresh database that holds the given accounts. -/
def ofAccounts (accounts : List (Address × StateObject)) : StateDB :=
  { stateObjects := fun a => (accounts.find? (fun p => p.1 = a)).map (·.2) }

/-- A deleted object is not there any more. -/
def getStateObject (s : StateDB) (a : Address) : Option StateObject :=
  match s.stateObjects a with
  | some o => if o.deleted then none else some o
  | none => none

def setStateObject (s : StateDB) (a : Address) (o : StateObject) : StateDB :=
  { s with stateObjects := Function.update s.stateObjects a (some o) }

def append (s : StateDB) (e : JournalEntry) : StateDB := { s with journal := e :: s.journal }

/-- Writing through the pointer that `getStateObject` returned. -/
def modifyObject (s : StateDB) (a : Address) (f : StateObject → StateObject) : StateDB :=
  match s.getStateObject a with
  | some o => s.setStateObject a (f o)
  | none => s

/-- An object in the way, deleted ones included, is journalled and replaced. -/
def createObjectByAccType (s : StateDB) (a : Address) (accType : AccountType) : StateDB :=
  let s :=
    match s.stateObjects a with
    | none => s.append (.createObjectChange a)
    | some prev => s.append (.resetObjectChange a prev)
  s.setStateObject a (new accType)

/-- The object at `a`, created with the given type if there is none. -/
def getOrCreateObject (s : StateDB) (a : Address) (accType : AccountType) :
    StateDB × StateObject :=
  match s.getStateObject a with
  | some o => (s, o)
  | none => (s.createObjectByAccType a accType, new accType)

/-- A missing account is created as a Regular one. -/
def getOrNewStateObject (s : StateDB) (a : Address) : StateDB × StateObject :=
  s.getOrCreateObject a .regular

/-- `SetBalance` of the object `o` at `a`: only Regular and Contract accounts have one. -/
def setObjectBalance (s : StateDB) (a : Address) (o : StateObject) (amount : Int) : StateDB :=
  if o.accountType.holdsBalance then
    (s.append (.balanceChange a o.balance)).setStateObject a (o.setBalance amount)
  else s

def addBalance (s : StateDB) (a : Address) (amount : Int) : StateDB :=
  let (s, o) := s.getOrNewStateObject a
  if amount = 0 then s else s.setObjectBalance a o (o.balance + amount)

def subBalance (s : StateDB) (a : Address) (amount : Int) : StateDB :=
  let (s, o) := s.getOrNewStateObject a
  if amount = 0 then s else s.setObjectBalance a o (o.balance - amount)

def setBalance (s : StateDB) (a : Address) (amount : Int) : StateDB :=
  let (s, o) := s.getOrNewStateObject a
  s.setObjectBalance a o amount

def setNonce (s : StateDB) (a : Address) (nonce : UInt64) : StateDB :=
  let (s, o) := s.getOrNewStateObject a
  if o.accountType.holdsBalance then
    (s.append (.nonceChange a o.nonce)).setStateObject a (o.setNonce nonce)
  else s

/-- `codeHash` is the digest of `code`. -/
def setCode (s : StateDB) (a : Address) (codeHash : Hash) (code : Bytes) : StateDB :=
  let (s, o) := s.getOrNewStateObject a
  (s.append (.codeChange a o.code o.assetAccount.codeHash)).setStateObject a
    (o.setCode codeHash code)

def setState (s : StateDB) (a : Address) (key value : Hash) : StateDB :=
  let (s, o) := s.getOrNewStateObject a
  if o.storage key = value then s
  else (s.append (.storageChange a key (o.storage key))).setStateObject a (o.setState key value)

/-- What `Suicide` records of an object.  The amounts are dereferenced; nothing is recorded for
a loss-mark or a validator-list account. -/
def suicideChange (a : Address) (o : StateObject) : Option (List JournalEntry) :=
  match o.accountType with
  | .regular => do
    let voteValue ← o.regularAccount.voteValue
    return [.regularSuicideChange a o.suicided o.regularAccount.voteAccount voteValue
      o.regularAccount.lossType o.regularAccount.value]
  | .pns => some [.pnsSuicideChange a o.suicided o.pnsAccount.pnsType o.pnsAccount.owner
      o.pnsAccount.data]
  | .contract => some [.assetSuicideChange a o.suicided o.assetAccount.value
      o.assetAccount.voteAccount o.assetAccount.voteValue]
  | .authorize => do
    let pledgeValue ← o.authorizeAccount.pledgeValue
    let voteValue ← o.authorizeAccount.voteValue
    let validPeriod ← o.authorizeAccount.validPeriod
    return [.authorizeSuicideChange a o.suicided o.authorizeAccount.owner pledgeValue voteValue
      o.authorizeAccount.info validPeriod]
  | .loss => do
    let height ← o.lossAccount.height
    return [.lossSuicideChange a o.suicided o.lossAccount.state o.lossAccount.lostAccount
      o.lossAccount.newAccount height o.lossAccount.infoDigest]
  | .lossMark => some []
  | .dpos => some []

/-- Marks the account; its balance stays where it is. -/
def suicide (s : StateDB) (a : Address) : Option StateDB :=
  match s.getStateObject a with
  | none => some s
  | some o => do
    let entries ← suicideChange a o
    return (entries.foldl append s).setStateObject a o.markSuicided

def createAccount (s : StateDB) (a : Address) : StateDB :=
  match s.getStateObject a with
  | none => s.createObjectByAccType a .regular
  | some prev =>
    (s.createObjectByAccType a .regular).setStateObject a
      ((new .regular).setBalance prev.balance)

def createContractAccount (s : StateDB) (a : Address) : StateDB :=
  match s.getStateObject a with
  | none => s.createObjectByAccType a .contract
  | some prev =>
    (s.createObjectByAccType a .contract).setStateObject a
      ((new .contract).setBalance prev.balance)

def addLog (s : StateDB) (log : Log) : StateDB :=
  let s := s.append (.addLogChange s.thash)
  let log := { log with txHash := s.thash, txIndex := s.txIndex, index := s.logSize }
  { s with logs := Function.update s.logs s.thash (s.logs s.thash ++ [log]),
           logSize := s.logSize + 1 }

def addRefund (s : StateDB) (gas : UInt64) : StateDB :=
  { s.append (.refundChange s.refund) with refund := s.refund + gas }

/-- Panics when the counter would go below zero. -/
def subRefund (s : StateDB) (gas : UInt64) : Option StateDB :=
  if gas > s.refund then none
  else some { s.append (.refundChange s.refund) with refund := s.refund - gas }

end StateDB

end ProbeChain
