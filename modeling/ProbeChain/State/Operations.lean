/-
# The business operations

`CallDB` of `core/evm.go` and the operations of `core/state/statedb.go` it dispatches to.  They
work on the database directly, outside the virtual machine, on data the sender chose freely.

An operation holds pointers to the objects it has looked up.  A pointer keeps reading and
writing the CURRENT content of its object, so where the source uses one after another write may
have gone to the same address, the object is read again here.
-/
import ProbeChain.Common.Decode
import ProbeChain.State.Snapshot

namespace ProbeChain

/-! ## 1. What an operation is given -/

/-- The code outside this repository that the operations rely on. -/
structure Externals where
  keccak256 : Bytes → Hash
  candidateSort : CandidateSort

/-- A digest that keeps the last 32 bytes, and insertion sort. -/
def plainExternals : Externals where
  keccak256 := bytesToHash
  candidateSort := .insertion

/-- `crypto.CreateAddress`: the low 20 bytes of the digest of `[address, nonce]`. -/
def createAddress (X : Externals) (a : Address) (nonce : UInt64) : Address :=
  (X.keccak256 (Rlp.Item.list [.str (Address.bytes a), .nat nonce.toNat]).encode).setWidth 160

/-- `crypto.CreatePNSAddress` -/
def createPNSAddress (X : Externals) (a : Address) (pns : Bytes) : Address :=
  (X.keccak256 (Address.bytes a ++ pns)).setWidth 160

structure TxContext where
  fromAddr : Address
  toAddr : Option Address
  nonce : UInt64 := 0
  value : Nat
  data : Bytes
  pobEpoch : UInt64 := 0
  blockNumber : Option Nat := none

namespace StateDB

/-! ## 2. Shared steps -/

def setRegularLossType (s : StateDB) (a : Address) (lossType : BitVec 8) : StateDB :=
  match s.getStateObject a with
  | some o =>
    (s.append (.lossTypeChange a o.regularAccount.lossType)).setStateObject a
      (o.setLossType (o.regularAccount.lossType.setType lossType))
  | none => s

def setRegularLossState (s : StateDB) (a : Address) (lossState : Bool) : StateDB :=
  match s.getStateObject a with
  | some o =>
    (s.append (.lossTypeChange a o.regularAccount.lossType)).setStateObject a
      (o.setLossType (o.regularAccount.lossType.setState lossState))
  | none => s

/-- Sets or clears the mark of the last bits, in an account created on first use. -/
def updateLossMark (s : StateDB) (lastBits : UInt32) (flag : Bool) : StateDB :=
  let a := specialAddressForRegisterLose
  let (s, o) := s.getOrCreateObject a .lossMark
  (s.append (.lossMarkAccountChange a o.lossMarkAccount.lossMark)).setStateObject a
    { o with lossMarkAccount :=
        { lossMark := o.lossMarkAccount.lossMark.setMark (lastBits.toNat % 1024) flag } }

/-- Takes a vote off an Authorize account: the pledge of its owner (`none`) or a given value. -/
def redemptionForAuthorize (s : StateDB) (voteAddr : Address) (voteValue : Option Int) :
    Option StateDB :=
  match s.getStateObject voteAddr with
  | none => some s
  | some o => do
    let pledge ← o.authorizeAccount.pledgeValue
    let vote ← o.authorizeAccount.voteValue
    let s := s.append (.redemptionForAuthorizeChange voteAddr pledge vote)
    match voteValue with
    | none => return s.setStateObject voteAddr (o.setStake 0 (vote - pledge))
    | some v => return s.setStateObject voteAddr (o.setAuthorizeVote (vote - v))

/-- The votes of a lost account, moved to a beneficiary that has none. -/
def transferLostVotes (s : StateDB) (lostAddr benefitAddr : Address) : Option StateDB :=
  match s.getStateObject lostAddr, s.getStateObject benefitAddr with
  | some lost, some benefit => do
    let lostVote ← lost.regularAccount.voteValue
    if 0 < lostVote ∧ lost.regularAccount.voteAccount ≠ 0 then
      let benefitVote ← benefit.regularAccount.voteValue
      if benefitVote < 1 then
        let s := s.append (.lostAccountVoteChange benefitAddr benefit.regularAccount.voteAccount
          benefitVote)
        let s := s.setStateObject benefitAddr
          (benefit.setVote lost.regularAccount.voteAccount lostVote)
        let s := s.append (.lostAccountVoteChange lostAddr lost.regularAccount.voteAccount lostVote)
        return s.setStateObject lostAddr (lost.setVote 0 0)
      else return s
    else return s
  | _, _ => some s

/-! ## 3. The operations -/

variable (X : Externals) (s : StateDB) (ctx : TxContext)

def modifyLossType : Option StateDB :=
  match decodeByte ctx.data with
  | some num => some (s.setRegularLossType ctx.fromAddr num)
  | none => some s

def vote : Option StateDB :=
  match decodeAddress ctx.data with
  | none => some s
  | some addr =>
    let s := s.subBalance ctx.fromAddr ctx.value
    let s :=
      match s.getStateObject ctx.fromAddr with
      | some o =>
        let last := o.regularAccount.voteValue.getD 0
        (s.append
          (.voteForRegularChange ctx.fromAddr o.regularAccount.voteAccount last)).setStateObject
          ctx.fromAddr (o.addVote addr ctx.value)
      | none => s
    match s.getStateObject addr with
    | some o => do
      let prev ← o.authorizeAccount.voteValue
      return (s.append (.voteValueForAuthorizeChange addr prev)).setStateObject addr
        (o.setAuthorizeVote (prev + ctx.value))
    | none => some s

def registerPns : StateDB :=
  let newAddress := createPNSAddress X ctx.fromAddr ctx.data
  let s := s.createObjectByAccType newAddress .pns
  let s := s.setStateObject newAddress
    { StateObject.new .pns with
      pnsAccount := { owner := ctx.fromAddr, data := ctx.data, pnsType := 0 } }
  s.subBalance ctx.fromAddr (ctx.value + AccountType.pns.pledge)

def registerAuthorize : StateDB :=
  let newAddress := createAddress X ctx.fromAddr ctx.nonce
  let s := s.createObjectByAccType newAddress .authorize
  let s := s.setStateObject newAddress
    { StateObject.new .authorize with
      authorizeAccount :=
        { pledgeValue := some ctx.value, voteValue := some ctx.value, owner := ctx.fromAddr,
          validPeriod := some (decodeIntIgnoringError ctx.data) } }
  s.subBalance ctx.fromAddr (ctx.value + AccountType.authorize.pledge)

def registerLose : StateDB :=
  let newAddress := createAddress X ctx.fromAddr ctx.nonce
  let decode := decodeRegisterLossIgnoringError ctx.data
  let s := s.createObjectByAccType newAddress .loss
  let s := s.setStateObject newAddress
    { StateObject.new .loss with
      lossAccount :=
        { state := .apply, height := ctx.blockNumber, infoDigest := decode.infoDigest,
          lastBits := decode.lastBitsMark } }
  let s := s.updateLossMark decode.lastBitsMark true
  s.subBalance ctx.fromAddr (ctx.value + AccountType.loss.pledge)

/-- What cancelling an account pays out.  Contract and Loss accounts pay nothing. -/
def cancellationPledge : AccountType → Nat
  | .regular => AccountType.regular.pledge
  | .pns => AccountType.pns.pledge
  | .authorize => AccountType.authorize.pledge
  | _ => 0

def cancellation : Option StateDB :=
  match decodeCancellation ctx.data with
  | none => some s
  | some decode =>
    match s.getStateObject decode.cancelAddress with
    | none => some s
    | some cancelAccount =>
      (s.addBalance decode.beneficiaryAddress
        (cancellationPledge cancelAccount.accountType)).suicide
        decode.cancelAddress

/-- An account that does not exist yet is created out of the transferred value. -/
def transfer (dest : Address) : StateDB :=
  let isNew := (s.getStateObject dest).isNone
  if ctx.value = 0 then s
  else
    let actualValue : Int :=
      if isNew then (ctx.value : Int) - AccountType.regular.pledge else ctx.value
    (s.subBalance ctx.fromAddr ctx.value).addBalance dest actualValue

def revealLossReport : Option StateDB :=
  match decodeRevealLossReport ctx.data with
  | none => some s
  | some decode => do
    let loss ← s.getStateObject decode.lossAccount
    let height ← loss.lossAccount.height
    let s := s.append (.revealLossReportChange decode.lossAccount loss.lossAccount.lostAccount
      loss.lossAccount.newAccount height loss.lossAccount.state)
    let s := s.setStateObject decode.lossAccount
      { loss with lossAccount :=
          { loss.lossAccount with lostAccount := decode.oldAccount, newAccount := decode.newAccount,
                                  state := .reveal, height := ctx.blockNumber } }
    let s := s.updateLossMark loss.lossAccount.lastBits false
    let s := s.setRegularLossState decode.oldAccount true
    let s := s.subBalance ctx.fromAddr ctx.value
    return s.addBalance decode.oldAccount ctx.value

/-- Balance and votes of the lost account go to the beneficiary, when both exist. -/
def transferLostAssets (lostAddr benefitAddr : Address) : Option StateDB :=
  match s.getStateObject lostAddr, s.getStateObject benefitAddr with
  | some lost, some _ =>
    let s :=
      if 0 < lost.balance then (s.addBalance benefitAddr lost.balance).setBalance lostAddr 0
      else s
    s.transferLostVotes lostAddr benefitAddr
  | _, _ => some s

/-- The report succeeds whether or not anything could be moved. -/
def transferLostAccount : Option StateDB :=
  match decodeAddress ctx.data with
  | none => some s
  | some addr =>
    match s.getStateObject addr with
    | none => some s
    | some loss =>
      (s.transferLostAssets loss.lossAccount.lostAccount loss.lossAccount.newAccount).map fun s =>
        (s.append (.lossStateChange addr loss.lossAccount.state)).modifyObject addr
          (·.setLossState .success)

/-- The beneficiary takes over a PNS or an Authorize account, as the destination says. -/
def transferLostAssociatedAccount (op : Operation) : StateDB :=
  match decodeAssociatedAccount ctx.data with
  | none => s
  | some decode =>
    match s.getStateObject decode.lossAccount with
    | none => s
    | some loss =>
      let benefitAddr := loss.lossAccount.newAccount
      match s.getStateObject loss.lossAccount.lostAccount, s.getStateObject benefitAddr,
          s.getStateObject decode.associatedAccount with
      | some _, some _, some o =>
        let a := decode.associatedAccount
        match op with
        | .transferLostAccountPns =>
          (s.append (.modifyPnsOwnerChange a o.pnsAccount.owner)).setStateObject a
            { o with pnsAccount := { o.pnsAccount with owner := benefitAddr } }
        | .transferLostAccountAuthorize =>
          (s.append (.modifyAuthorizeOwnerChange a o.authorizeAccount.owner)).setStateObject a
            { o with authorizeAccount := { o.authorizeAccount with owner := benefitAddr } }
        | _ => s
      | _, _, _ => s

def removeLossReport : Option StateDB :=
  match decodeAddress ctx.data with
  | none => some s
  | some addr => do
    let loss ← s.getStateObject addr
    let s := s.updateLossMark loss.lossAccount.lastBits false
    let s := s.addBalance ctx.fromAddr AccountType.loss.pledge
    s.suicide addr

def rejectLossReport : Option StateDB :=
  match decodeAddress ctx.data with
  | none => some s
  | some addr => do
    let loss ← s.getStateObject addr
    let s := s.updateLossMark loss.lossAccount.lastBits false
    let s := s.setRegularLossState ctx.fromAddr false
    let s := s.addBalance ctx.fromAddr AccountType.loss.pledge
    s.suicide addr

/-- The test for nil comes after the dereference. -/
def cancellationLoss : Option StateDB :=
  match decodeAddress ctx.data with
  | none => some s
  | some addr => do
    let loss ← s.getStateObject addr
    match s.getStateObject loss.lossAccount.newAccount with
    | none => return s
    | some _ =>
      let s := s.addBalance loss.lossAccount.newAccount
        (AccountType.loss.pledge + AccountType.regular.pledge)
      let s ← s.suicide addr
      s.suicide loss.lossAccount.lostAccount

def modifyPnsOwner : StateDB :=
  match decodePnsOwner ctx.data with
  | none => s
  | some decode =>
    match s.getStateObject decode.pnsAddress with
    | none => s
    | some o =>
      (s.append (.modifyPnsOwnerChange decode.pnsAddress o.pnsAccount.owner)).setStateObject
        decode.pnsAddress
          { o with pnsAccount := { o.pnsAccount with owner := decode.ownerAddress } }

def modifyPnsContent : StateDB :=
  match decodePnsContent ctx.data with
  | none => s
  | some decode =>
    match s.getStateObject decode.pnsAddress with
    | none => s
    | some o =>
      (s.append (.modifyPnsContentChange decode.pnsAddress o.pnsAccount.pnsType
        o.pnsAccount.data)).setStateObject decode.pnsAddress
        { o with pnsAccount :=
            { o.pnsAccount with pnsType := decode.pnsType, data := decode.pnsData } }

/-- The votes of the sender for `addr` go back to its balance. -/
def redeemVotes (addr : Address) : Option StateDB := do
  let fromObj ← s.getStateObject ctx.fromAddr
  if addr = fromObj.regularAccount.voteAccount then
    let voteValue ← fromObj.regularAccount.voteValue
    let value ← fromObj.regularValue
    let s := s.append (.redemptionForRegularChange ctx.fromAddr
      fromObj.regularAccount.voteAccount voteValue value)
    let s := s.setStateObject ctx.fromAddr ((fromObj.setBalance (value + voteValue)).setVote 0 0)
    s.redemptionForAuthorize addr (some voteValue)
  else return s

/-- The pledge of an owner is only struck off; votes are paid back. -/
def redemption : Option StateDB :=
  match decodeAddress ctx.data with
  | none => some s
  | some addr =>
    match s.getStateObject ctx.fromAddr, s.getStateObject addr with
    | some _, some authorizeObj =>
      (if ctx.fromAddr = authorizeObj.authorizeAccount.owner then s.redemptionForAuthorize addr none
        else some s).bind (·.redeemVotes ctx addr)
    | _, _ => some s

def applyToBeDPoSNode : Option StateDB :=
  match decodeApplyDPos ctx.data with
  | none => some s
  | some decode =>
    match s.getStateObject decode.voteAddress with
    | none => some s
    | some o => do
      let voteValue ← o.authorizeAccount.voteValue
      let s := s.append (.dPosCandidateForAuthorizeChange decode.voteAddress
        o.authorizeAccount.info voteValue)
      let candidate : DPoSCandidateAccount :=
        { enode := bytesToValidatorEnode decode.nodeInfo, owner := o.authorizeAccount.owner,
          voteAccount := decode.voteAddress, voteValue := voteValue }
      let (s, list) := s.getOrCreateObject specialAddressForDPoS .dpos
      let account := list.validatorListAccount
      let s := s.append (.dPosCandidateChange specialAddressForDPoS account.validatorCandidates
        account.roundId)
      let blockNumber ← ctx.blockNumber
      let roundId ← calcValidatorRoundId (UInt64.ofNat blockNumber) ctx.pobEpoch
      let account := if roundId ≠ account.roundId then ⟨[], roundId⟩ else account
      return s.setStateObject specialAddressForDPoS
        { list with
          validatorListAccount := account.addValidatorCandidate X.candidateSort candidate }

end StateDB

/-! ## 4. Dispatch -/

/-- `CallDB`: nothing happens without a destination. -/
def callDB (X : Externals) (s : StateDB) (ctx : TxContext) : Option StateDB :=
  match ctx.toAddr with
  | none => some s
  | some dest =>
    match operationOf dest with
    | .registerPns => some (s.registerPns X ctx)
    | .registerAuthorize => some (s.registerAuthorize X ctx)
    | .registerLose => some (s.registerLose X ctx)
    | .cancellation => s.cancellation ctx
    | .vote => s.vote ctx
    | .applyToBeDPoSNode => s.applyToBeDPoSNode X ctx
    | .redemption => s.redemption ctx
    | .cancellationLostAccount => s.cancellationLoss ctx
    | .revealLossReport => s.revealLossReport ctx
    | .transferLostAccountBalance => s.transferLostAccount ctx
    | .removeLossReport => s.removeLossReport ctx
    | .rejectLossReport => s.rejectLossReport ctx
    | .modifyPnsOwner => some (s.modifyPnsOwner ctx)
    | .modifyPnsContent => some (s.modifyPnsContent ctx)
    | .modifyLossType => s.modifyLossType ctx
    | .transferLostAccountPns => some (s.transferLostAssociatedAccount ctx .transferLostAccountPns)
    | .transferLostAccountAuthorize =>
      some (s.transferLostAssociatedAccount ctx .transferLostAccountAuthorize)
    | .transfer => some (s.transfer ctx dest)

end ProbeChain
