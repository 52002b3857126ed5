/-
# The operations without the journal

The abstract model of the business operations: what they do to the accounts, as functions on a
`World`, the map from addresses to the objects that exist.  There is no journal, no revision and
no deleted object in it, and a nil dereference is `none`.

The main result is `callDB_refines`: on the accounts, `callDB` does exactly what the abstract
`World.callDB` does, panics included.  Every property of a single operation that is about
amounts, owners or existence is proved about the `World` and carried over by it.
-/
import ProbeChain.State.Operations

namespace ProbeChain

open Option

/-- The accounts that exist. -/
abbrev World := Address → Option StateObject

/-! ## 1. Objects -/

namespace StateObject

/-- The object with `v` added to its balance; a missing one starts as a new Regular account. -/
def credited (v : Int) (o : Option StateObject) : StateObject :=
  let o := o.getD (new .regular)
  o.setBalance (o.balance + v)

/-- `Suicide` can record the object: the amounts it dereferences are there. -/
def closable (o : StateObject) : Bool :=
  match o.accountType with
  | .regular => o.regularAccount.voteValue.isSome
  | .authorize => o.authorizeAccount.pledgeValue.isSome && o.authorizeAccount.voteValue.isSome &&
      o.authorizeAccount.validPeriod.isSome
  | .loss => o.lossAccount.height.isSome
  | _ => true

variable (o : StateObject) (v : Int)

@[simp] theorem setBalance_deleted : (o.setBalance v).deleted = o.deleted := by
  unfold setBalance; split <;> rfl

@[simp] theorem setBalance_accountType : (o.setBalance v).accountType = o.accountType := by
  unfold setBalance; split <;> rfl

@[simp] theorem setBalance_voteAccount :
    (o.setBalance v).regularAccount.voteAccount = o.regularAccount.voteAccount := by
  unfold setBalance; split <;> rfl

@[simp] theorem setBalance_voteValue :
    (o.setBalance v).regularAccount.voteValue = o.regularAccount.voteValue := by
  unfold setBalance; split <;> rfl

@[simp] theorem setBalance_authorizeAccount :
    (o.setBalance v).authorizeAccount = o.authorizeAccount := by
  unfold setBalance; split <;> rfl

@[simp] theorem setBalance_lossAccount : (o.setBalance v).lossAccount = o.lossAccount := by
  unfold setBalance; split <;> rfl

@[simp] theorem setBalance_suicided : (o.setBalance v).suicided = o.suicided := by
  unfold setBalance; split <;> rfl

@[simp] theorem setBalance_closable : (o.setBalance v).closable = o.closable := by
  simp [closable]

@[simp] theorem setVote_deleted (a : Address) (v : Int) :
    (o.setVote a v).deleted = o.deleted := rfl

/-- Setting the balance to what it is changes nothing. -/
@[simp] theorem setBalance_balance : o.setBalance o.balance = o := by
  cases o with
  | mk t => cases t <;> rfl

@[simp] theorem setBalance_setBalance (u v : Int) :
    (o.setBalance u).setBalance v = o.setBalance v := by
  cases o with
  | mk t => cases t <;> rfl

theorem setBalance_setAuthorizeVote (u v : Int) :
    (o.setAuthorizeVote u).setBalance v = (o.setBalance v).setAuthorizeVote u := by
  cases o with
  | mk t => cases t <;> rfl

/-- An object of another type keeps no balance. -/
theorem setBalance_of_not_holds {o : StateObject} (h : o.accountType.holdsBalance = false)
    (v : Int) : o.setBalance v = o := by
  unfold setBalance
  cases ht : o.accountType <;> simp_all [AccountType.holdsBalance]

/-- The balance that was set, for the types that have one. -/
theorem balance_setBalance (o : StateObject) (v : Int) :
    (o.setBalance v).balance = if o.accountType.holdsBalance then v else 0 := by
  cases o with
  | mk t => cases t <;> rfl

theorem balance_of_not_holds {o : StateObject} (h : o.accountType.holdsBalance = false) :
    o.balance = 0 := by
  unfold balance
  cases ht : o.accountType <;> simp_all [AccountType.holdsBalance]

/-- Two payments into one account are one. -/
theorem credited_credited (u v : Int) (o : Option StateObject) :
    credited v (some (credited u o)) = credited (u + v) o := by
  simp only [credited, getD_some]
  generalize o.getD (new .regular) = p
  rw [setBalance_setBalance, balance_setBalance]
  cases hp : p.accountType.holdsBalance with
  | true => rw [if_pos rfl, Int.add_assoc]
  | false => rw [setBalance_of_not_holds hp, setBalance_of_not_holds hp]

end StateObject

/-! ## 2. Worlds -/

namespace World

open StateObject

/-- `GetBalance`: zero where there is no account. -/
def balanceAt (w : World) (a : Address) : Int := (w a).elim 0 balance

theorem balanceAt_of_some {w : World} {a : Address} {o : StateObject} (h : w a = some o) :
    w.balanceAt a = o.balance :=
  congrArg (Option.elim · 0 balance) h

def put (w : World) (a : Address) (o : StateObject) : World := Function.update w a (some o)

@[simp] theorem put_self (w : World) (a : Address) (o : StateObject) : w.put a o a = some o := by
  simp [put]

theorem put_of_ne (w : World) {a b : Address} (o : StateObject) (h : b ≠ a) :
    w.put a o b = w b := by
  simp [put, h]

theorem put_eq_some {w : World} {a b : Address} {o p : StateObject} :
    w.put a o b = some p ↔ b = a ∧ o = p ∨ b ≠ a ∧ w b = some p := by
  by_cases h : b = a
  · simp [h]
  · simp [put_of_ne _ _ h, h]

@[simp] theorem put_put (w : World) (a : Address) (o p : StateObject) :
    (w.put a o).put a p = w.put a p := by
  simp [put]

@[simp] theorem put_eq_self {w : World} {a : Address} {o : StateObject} (h : w a = some o) :
    w.put a o = w := by
  simp [put, ← h]

def credit (w : World) (a : Address) (v : Int) : World := w.put a (credited v (w a))

theorem credit_credit (w : World) (a : Address) (u v : Int) :
    (w.credit a u).credit a v = w.credit a (u + v) := by
  simp only [credit, put_self, put_put, credited_credited]

variable {w w' : World} {a b : Address} {o : StateObject}

/-- Paying an account changes nothing but the balance of what already exists. -/
theorem credit_of_some (h : w b = some o)
    (a : Address) (v : Int) : ∃ x, w.credit a v b = some (o.setBalance x) := by
  by_cases hb : b = a
  · subst hb
    exact ⟨o.balance + v, by simp [credit, credited, h]⟩
  · exact ⟨o.balance, by rw [credit, put_of_ne _ _ hb, h, setBalance_balance]⟩

def modify (w : World) (a : Address) (f : StateObject → StateObject) : World :=
  match w a with
  | some o => w.put a (f o)
  | none => w

theorem modify_of_some (h : w a = some o)
    (f : StateObject → StateObject) : w.modify a f = w.put a (f o) := by
  simp [modify, h]

theorem modify_of_none (h : w a = none) (f : StateObject → StateObject) : w.modify a f = w := by
  simp [modify, h]

theorem modify_of_ne (h : b ≠ a) (f : StateObject → StateObject) : w.modify a f b = w b := by
  cases ha : w a with
  | none => rw [modify_of_none ha]
  | some o => rw [modify_of_some ha, put_of_ne _ _ h]

variable {lost : StateObject} {β : Type}

/-- Writing to an account that exists leaves the others, and of that one what the write does not
touch. -/
theorem exists_put {g : StateObject → β} {p q : StateObject}
    (ho : w a = some o) (hg : g p = g o) (hq : w b = some q) :
    ∃ r, w.put a p b = some r ∧ g r = g q := by
  by_cases hb : b = a
  · subst hb
    cases ho.symm.trans hq
    exact ⟨p, put_self _ _ _, hg⟩
  · exact ⟨q, (put_of_ne _ _ hb).trans hq, rfl⟩

/-- What a write does not touch, at any address. -/
theorem map_put_of_some (g : StateObject → β)
    {p : StateObject} (h : w a = some o) (hg : g p = g o) (b : Address) :
    (w.put a p b).map g = (w b).map g := by
  by_cases hb : b = a
  · subst hb
    rw [put_self, h, map_some, map_some, hg]
  · rw [put_of_ne _ _ hb]

theorem map_modify (g : StateObject → β) {f : StateObject → StateObject}
    (hg : ∀ o, g (f o) = g o) (w : World) (a b : Address) :
    (w.modify a f b).map g = (w b).map g := by
  cases h : w a with
  | none => rw [modify_of_none h]
  | some o => rw [modify_of_some h, map_put_of_some g h (hg o)]

/-- The object that keeps the loss marks, with one mark changed. -/
def lossMarkObject (o : Option StateObject) (lastBits : UInt32) (flag : Bool) : StateObject :=
  let o := o.getD (StateObject.new .lossMark)
  { o with lossMarkAccount :=
      { lossMark := o.lossMarkAccount.lossMark.setMark (lastBits.toNat % 1024) flag } }

def updateLossMark (w : World) (lastBits : UInt32) (flag : Bool) : World :=
  w.put specialAddressForRegisterLose
    (lossMarkObject (w specialAddressForRegisterLose) lastBits flag)

/-- Changing a mark changes nothing else of what already exists. -/
theorem updateLossMark_of_some (h : w b = some o) (lastBits : UInt32) (flag : Bool) :
    ∃ m, w.updateLossMark lastBits flag b = some { o with lossMarkAccount := m } := by
  by_cases hb : b = specialAddressForRegisterLose
  · subst hb
    exact ⟨_, by rw [updateLossMark, put_self, h]; rfl⟩
  · exact ⟨o.lossMarkAccount, by rw [updateLossMark, put_of_ne _ _ hb, h]⟩

def setRegularLossState (w : World) (a : Address) (flag : Bool) : World :=
  w.modify a fun o => o.setLossType (o.regularAccount.lossType.setState flag)

theorem map_setRegularLossState (g : StateObject → β)
    (hg : ∀ o t, g (o.setLossType t) = g o) (w : World) (a : Address) (flag : Bool) (b : Address) :
    (w.setRegularLossState a flag b).map g = (w b).map g :=
  map_modify g (fun o => hg o _) w a b

theorem setRegularLossState_of_some (h : w b = some o) (a : Address) (flag : Bool) :
    ∃ t, w.setRegularLossState a flag b = some (o.setLossType t) := by
  unfold setRegularLossState
  by_cases hb : b = a
  · subst hb
    exact ⟨_, by rw [modify_of_some h, put_self]⟩
  · exact ⟨o.regularAccount.lossType, by rw [modify_of_ne hb, h]; rfl⟩

def suicide (w : World) (a : Address) : Option World :=
  match w a with
  | none => some w
  | some o => if o.closable then some (w.put a o.markSuicided) else none

theorem suicide_eq_modify (hw : w.suicide a = some w') : w' = w.modify a markSuicided := by
  unfold suicide at hw
  split at hw
  · rw [modify_of_none ‹_›, some.inj hw]
  · split at hw
    · rw [modify_of_some ‹_›, some.inj hw]
    · cases hw

/-- The Authorize record after its owner's pledge (`none`) or a vote is struck off. -/
def redeemed (o : StateObject) (voteValue : Option Int) : Option StateObject :=
  match o.authorizeAccount.pledgeValue, o.authorizeAccount.voteValue with
  | some pledge, some vote =>
    match voteValue with
    | none => some (o.setStake 0 (vote - pledge))
    | some v => some (o.setAuthorizeVote (vote - v))
  | _, _ => none

def redemptionForAuthorize (w : World) (a : Address) (voteValue : Option Int) : Option World :=
  match w a with
  | none => some w
  | some o => (redeemed o voteValue).map (w.put a)

/-- The votes of `lost` move when it has some and `benefit` has none.  `none` is a nil amount. -/
def votesMove (lost benefit : StateObject) : Option Bool :=
  match lost.regularAccount.voteValue with
  | none => none
  | some lostVote =>
    if 0 < lostVote ∧ lost.regularAccount.voteAccount ≠ 0 then
      benefit.regularAccount.voteValue.map fun v => v < 1
    else some false

/-- The votes that move are positive, and those they replace are not. -/
theorem votesMove_eq_true {benefit : StateObject} (h : votesMove lost benefit = some true) :
    0 < lost.regularAccount.voteValue.getD 0 ∧
      ∃ v, benefit.regularAccount.voteValue = some v ∧ v < 1 := by
  unfold votesMove at h
  split at h
  · cases h
  next v hv =>
    split at h
    next hpos =>
      obtain ⟨u, hu, hlt⟩ := map_eq_some_iff.mp h
      exact ⟨by rw [hv]; exact hpos.1, u, hu, by simpa using hlt⟩
    · cases h

/-- One account has votes and the other has none, so they are two. -/
theorem ne_of_votesMove {benefit : StateObject} (hl : w a = some lost)
    (hb : w b = some benefit) (h : votesMove lost benefit = some true) : a ≠ b := by
  rintro rfl
  obtain rfl := some.inj (hl.symm.trans hb)
  obtain ⟨hpos, v, hv, hless⟩ := votesMove_eq_true h
  rw [hv, getD_some] at hpos
  omega

def transferLostVotes (w : World) (lostAddr benefitAddr : Address) : Option World :=
  match w lostAddr, w benefitAddr with
  | some lost, some benefit =>
    (votesMove lost benefit).map fun move =>
      if move then
        (w.put benefitAddr (benefit.setVote lost.regularAccount.voteAccount
          (lost.regularAccount.voteValue.getD 0))).put lostAddr (lost.setVote 0 0)
      else w
  | _, _ => some w

/-- The whole balance of `lostAddr` goes to `benefitAddr`, if it is positive. -/
def transferLostBalance (w : World) (lostAddr benefitAddr : Address) (lost : StateObject) : World :=
  if 0 < lost.balance then (w.credit benefitAddr lost.balance).modify lostAddr (·.setBalance 0)
  else w

/-- Moving a balance changes nothing but balances of what already exists. -/
theorem transferLostBalance_of_some (h : w b = some o)
    (lostAddr benefitAddr : Address) (lost : StateObject) :
    ∃ x, w.transferLostBalance lostAddr benefitAddr lost b = some (o.setBalance x) := by
  unfold transferLostBalance
  split
  · obtain ⟨x, hx⟩ := credit_of_some h benefitAddr lost.balance
    generalize w.credit benefitAddr lost.balance = w₁ at hx ⊢
    by_cases hb : b = lostAddr
    · subst hb
      exact ⟨0, by rw [modify_of_some hx, put_self, setBalance_setBalance]⟩
    · exact ⟨x, by rw [modify_of_ne hb, hx]⟩
  · exact ⟨o.balance, by rw [h, setBalance_balance]⟩

/-- A positive balance is taken from the lost account, whoever gets it. -/
theorem balanceAt_transferLostBalance {lostAddr benefitAddr : Address}
    (hl : w lostAddr = some lost) :
    (w.transferLostBalance lostAddr benefitAddr lost).balanceAt lostAddr =
      if 0 < lost.balance then 0 else lost.balance := by
  unfold transferLostBalance
  split
  next hpos =>
    obtain ⟨x, hx⟩ := credit_of_some hl benefitAddr lost.balance
    have hholds : lost.accountType.holdsBalance = true := by
      by_contra hnot
      rw [balance_of_not_holds (Bool.eq_false_iff.mpr hnot)] at hpos
      exact absurd hpos (lt_irrefl _)
    rw [modify_of_some hx, balanceAt, put_self, setBalance_setBalance]
    change (lost.setBalance 0).balance = 0
    rw [balance_setBalance, if_pos hholds]
  · rw [balanceAt, hl]
    rfl

/-! ## 3. The operations -/

variable (X : Externals) (w : World) (ctx : TxContext)

def modifyLossType : World :=
  match decodeByte ctx.data with
  | some num => w.modify ctx.fromAddr fun o =>
      o.setLossType (o.regularAccount.lossType.setType num)
  | none => w

/-- The sender's half of a vote: its balance goes down and its vote up. -/
def castVote (addr : Address) : World :=
  w.put ctx.fromAddr ((credited (-ctx.value) (w ctx.fromAddr)).addVote addr ctx.value)

def vote : Option World :=
  match decodeAddress ctx.data with
  | none => some w
  | some addr =>
    let w := w.castVote ctx addr
    match w addr with
    | none => some w
    | some o => o.authorizeAccount.voteValue.map fun prev =>
        w.put addr (o.setAuthorizeVote (prev + ctx.value))

def newPns : StateObject :=
  { StateObject.new .pns with
    pnsAccount := { owner := ctx.fromAddr, data := ctx.data, pnsType := 0 } }

def newAuthorize : StateObject :=
  { StateObject.new .authorize with
    authorizeAccount :=
      { pledgeValue := some ctx.value, voteValue := some ctx.value, owner := ctx.fromAddr,
        validPeriod := some (decodeIntIgnoringError ctx.data) } }

def newLoss : StateObject :=
  { StateObject.new .loss with
    lossAccount :=
      { state := .apply, height := ctx.blockNumber,
        infoDigest := (decodeRegisterLossIgnoringError ctx.data).infoDigest,
        lastBits := (decodeRegisterLossIgnoringError ctx.data).lastBitsMark } }

def registerPns : World :=
  (w.put (createPNSAddress X ctx.fromAddr ctx.data) (newPns ctx)).credit ctx.fromAddr
    (-(ctx.value + AccountType.pns.pledge))

def registerAuthorize : World :=
  (w.put (createAddress X ctx.fromAddr ctx.nonce) (newAuthorize ctx)).credit ctx.fromAddr
    (-(ctx.value + AccountType.authorize.pledge))

def registerLose : World :=
  ((w.put (createAddress X ctx.fromAddr ctx.nonce) (newLoss ctx)).updateLossMark
    (decodeRegisterLossIgnoringError ctx.data).lastBitsMark true).credit ctx.fromAddr
    (-(ctx.value + AccountType.loss.pledge))

def cancellation : Option World :=
  match decodeCancellation ctx.data with
  | none => some w
  | some decode =>
    match w decode.cancelAddress with
    | none => some w
    | some o =>
      (w.credit decode.beneficiaryAddress (StateDB.cancellationPledge o.accountType)).suicide
        decode.cancelAddress

def transfer (dest : Address) : World :=
  if ctx.value = 0 then w
  else (w.credit ctx.fromAddr (-ctx.value)).credit dest
    (if (w dest).isNone then (ctx.value : Int) - AccountType.regular.pledge else ctx.value)

/-- The Loss record once the report is revealed. -/
def revealed (loss : StateObject) (decode : RevealLossReportDecodeType) : StateObject :=
  { loss with lossAccount :=
      { loss.lossAccount with lostAccount := decode.oldAccount, newAccount := decode.newAccount,
                              state := .reveal, height := ctx.blockNumber } }

def revealLossReport : Option World :=
  match decodeRevealLossReport ctx.data with
  | none => some w
  | some decode =>
    match w decode.lossAccount with
    | none => none
    | some loss => loss.lossAccount.height.map fun _ =>
        ((((w.put decode.lossAccount (revealed ctx loss decode)).updateLossMark
          loss.lossAccount.lastBits false).setRegularLossState decode.oldAccount true).credit
          ctx.fromAddr (-ctx.value)).credit decode.oldAccount ctx.value

def transferLostAssets (lostAddr benefitAddr : Address) : Option World :=
  match w lostAddr, w benefitAddr with
  | some lost, some _ =>
    (w.transferLostBalance lostAddr benefitAddr lost).transferLostVotes lostAddr benefitAddr
  | _, _ => some w

def transferLostAccount : Option World :=
  match decodeAddress ctx.data with
  | none => some w
  | some addr =>
    match w addr with
    | none => some w
    | some loss =>
      (w.transferLostAssets loss.lossAccount.lostAccount loss.lossAccount.newAccount).map
        (·.modify addr (·.setLossState .success))

def transferLostAssociatedAccount (op : Operation) : World :=
  match decodeAssociatedAccount ctx.data with
  | none => w
  | some decode =>
    match w decode.lossAccount with
    | none => w
    | some loss =>
      match w loss.lossAccount.lostAccount, w loss.lossAccount.newAccount with
      | some _, some _ =>
        w.modify decode.associatedAccount fun o =>
          match op with
          | .transferLostAccountPns =>
            { o with pnsAccount := { o.pnsAccount with owner := loss.lossAccount.newAccount } }
          | .transferLostAccountAuthorize =>
            { o with authorizeAccount :=
                { o.authorizeAccount with owner := loss.lossAccount.newAccount } }
          | _ => o
      | _, _ => w

def removeLossReport : Option World :=
  match decodeAddress ctx.data with
  | none => some w
  | some addr =>
    match w addr with
    | none => none
    | some loss =>
      ((w.updateLossMark loss.lossAccount.lastBits false).credit ctx.fromAddr
        AccountType.loss.pledge).suicide addr

def rejectLossReport : Option World :=
  match decodeAddress ctx.data with
  | none => some w
  | some addr =>
    match w addr with
    | none => none
    | some loss =>
      (((w.updateLossMark loss.lossAccount.lastBits false).setRegularLossState ctx.fromAddr
        false).credit ctx.fromAddr AccountType.loss.pledge).suicide addr

def cancellationLoss : Option World :=
  match decodeAddress ctx.data with
  | none => some w
  | some addr =>
    match w addr with
    | none => none
    | some loss =>
      match w loss.lossAccount.newAccount with
      | none => some w
      | some _ =>
        ((w.credit loss.lossAccount.newAccount (AccountType.loss.pledge +
          AccountType.regular.pledge)).suicide addr).bind
          (·.suicide loss.lossAccount.lostAccount)

def modifyPnsOwner : World :=
  match decodePnsOwner ctx.data with
  | none => w
  | some decode => w.modify decode.pnsAddress fun o =>
      { o with pnsAccount := { o.pnsAccount with owner := decode.ownerAddress } }

def modifyPnsContent : World :=
  match decodePnsContent ctx.data with
  | none => w
  | some decode => w.modify decode.pnsAddress fun o =>
      { o with
        pnsAccount := { o.pnsAccount with pnsType := decode.pnsType, data := decode.pnsData } }

/-- The sender's half of a redemption: its votes for `addr` go back to its balance. -/
def redeemVotes (addr : Address) : Option World :=
  match w ctx.fromAddr with
  | none => none
  | some o =>
    if addr = o.regularAccount.voteAccount then
      match o.regularAccount.voteValue, o.regularValue with
      | some voteValue, some value =>
        (w.put ctx.fromAddr ((o.setBalance (value + voteValue)).setVote 0 0)).redemptionForAuthorize
          addr (some voteValue)
      | _, _ => none
    else some w

def redemption : Option World :=
  match decodeAddress ctx.data with
  | none => some w
  | some addr =>
    match w ctx.fromAddr, w addr with
    | some _, some authorizeObj =>
      (if ctx.fromAddr = authorizeObj.authorizeAccount.owner then w.redemptionForAuthorize addr none
        else some w).bind (·.redeemVotes ctx addr)
    | _, _ => some w

/-- The validator list with the candidate added, in the round of the block. -/
def candidateListed (list : StateObject) (candidate : DPoSCandidateAccount) (roundId : UInt64) :
    StateObject :=
  let account := list.validatorListAccount
  let account := if roundId ≠ account.roundId then ⟨[], roundId⟩ else account
  { list with validatorListAccount := account.addValidatorCandidate X.candidateSort candidate }

def applyToBeDPoSNode : Option World :=
  match decodeApplyDPos ctx.data with
  | none => some w
  | some decode =>
    match w decode.voteAddress with
    | none => some w
    | some o => do
      let voteValue ← o.authorizeAccount.voteValue
      let blockNumber ← ctx.blockNumber
      let roundId ← calcValidatorRoundId (UInt64.ofNat blockNumber) ctx.pobEpoch
      let list := (w specialAddressForDPoS).getD (StateObject.new .dpos)
      return w.put specialAddressForDPoS (candidateListed X list
        { enode := bytesToValidatorEnode decode.nodeInfo, owner := o.authorizeAccount.owner,
          voteAccount := decode.voteAddress, voteValue := voteValue } roundId)

def callDB : Option World :=
  match ctx.toAddr with
  | none => some w
  | some dest =>
    match operationOf dest with
    | .registerPns => some (w.registerPns X ctx)
    | .registerAuthorize => some (w.registerAuthorize X ctx)
    | .registerLose => some (w.registerLose X ctx)
    | .cancellation => w.cancellation ctx
    | .vote => w.vote ctx
    | .applyToBeDPoSNode => w.applyToBeDPoSNode X ctx
    | .redemption => w.redemption ctx
    | .cancellationLostAccount => w.cancellationLoss ctx
    | .revealLossReport => w.revealLossReport ctx
    | .transferLostAccountBalance => w.transferLostAccount ctx
    | .removeLossReport => w.removeLossReport ctx
    | .rejectLossReport => w.rejectLossReport ctx
    | .modifyPnsOwner => some (w.modifyPnsOwner ctx)
    | .modifyPnsContent => some (w.modifyPnsContent ctx)
    | .modifyLossType => some (w.modifyLossType ctx)
    | .transferLostAccountPns => some (w.transferLostAssociatedAccount ctx .transferLostAccountPns)
    | .transferLostAccountAuthorize =>
      some (w.transferLostAssociatedAccount ctx .transferLostAccountAuthorize)
    | .transfer => some (w.transfer ctx dest)

/-! ## 4. What they have done -/

variable {w : World} {ctx : TxContext}

/-- The candidate's half of a vote is seen in its total only. -/
theorem vote_eq_some (hw : w.vote ctx = some w') :
    (decodeAddress ctx.data = none ∧ w' = w) ∨ ∃ addr v, decodeAddress ctx.data = some addr ∧
      w' = (w.castVote ctx addr).modify addr (·.setAuthorizeVote v) := by
  unfold vote at hw
  split at hw
  · exact .inl ⟨‹_›, (some.inj hw).symm⟩
  next addr hd =>
    dsimp only at hw
    split at hw
    · exact .inr ⟨addr, 0, hd, by rw [modify_of_none ‹_›, some.inj hw]⟩
    · obtain ⟨prev, -, rfl⟩ := map_eq_some_iff.mp hw
      exact .inr ⟨addr, prev + ctx.value, hd, by rw [modify_of_some ‹_›]⟩

/-- Votes are paid back to a Regular account, if it has voted for that address. -/
theorem redeemVotes_eq_some {addr : Address} (hw : w.redeemVotes ctx addr = some w') :
    ∃ o, w ctx.fromAddr = some o ∧ (addr ≠ o.regularAccount.voteAccount ∧ w' = w ∨
      addr = o.regularAccount.voteAccount ∧ o.accountType = .regular ∧
      ∃ v, o.regularAccount.voteValue = some v ∧
      (w.put ctx.fromAddr ((o.setBalance (o.balance + v)).setVote 0
        0)).redemptionForAuthorize addr (some v) = some w') := by
  unfold redeemVotes at hw
  split at hw
  · cases hw
  next o ho =>
    refine ⟨o, ho, ?_⟩
    split at hw
    next haddr =>
      split at hw
      next v value hv hvalue =>
        unfold regularValue at hvalue
        split at hvalue
        next hregular =>
          have hbalance : value = o.balance := by
            rw [balance, hregular]
            exact (some.inj hvalue).symm
          exact .inr ⟨haddr, hregular, v, hv, hbalance ▸ hw⟩
        · cases hvalue
      · cases hw
    · exact .inl ⟨‹_›, (some.inj hw).symm⟩

/-- The balance of a lost account moves first and then the votes, if both accounts are there. -/
theorem transferLostAccount_eq_some (hw : w.transferLostAccount ctx = some w') :
    w' = w ∨ ∃ addr loss w₁, decodeAddress ctx.data = some addr ∧ w addr = some loss ∧
      w' = w₁.modify addr (·.setLossState .success) ∧ (w₁ = w ∨ ∃ lost benefit,
        w loss.lossAccount.lostAccount = some lost ∧ w loss.lossAccount.newAccount = some benefit ∧
        (w.transferLostBalance loss.lossAccount.lostAccount loss.lossAccount.newAccount
          lost).transferLostVotes loss.lossAccount.lostAccount loss.lossAccount.newAccount =
            some w₁) := by
  unfold transferLostAccount transferLostAssets at hw
  split at hw
  · exact .inl (some.inj hw).symm
  next addr hd =>
    split at hw
    · exact .inl (some.inj hw).symm
    next loss hloss =>
      obtain ⟨w₁, hw₁, rfl⟩ := map_eq_some_iff.mp hw
      refine .inr ⟨addr, loss, w₁, hd, hloss, rfl, ?_⟩
      split at hw₁
      · exact .inr ⟨_, _, ‹_›, ‹_›, hw₁⟩
      · exact .inl (some.inj hw₁).symm

/-- What happens to the marks when a report is closed; a rejected one no longer counts against its
sender. -/
def unmarked (w : World) (ctx : TxContext) (rejected : Bool) (loss : StateObject) : World :=
  let w := w.updateLossMark loss.lossAccount.lastBits false
  if rejected then w.setRegularLossState ctx.fromAddr false else w

theorem unmarked_of_some (h : w b = some o) (ctx : TxContext) (rejected : Bool)
    (loss : StateObject) :
    ∃ m t, w.unmarked ctx rejected loss b =
      some ({ o with lossMarkAccount := m }.setLossType t) := by
  obtain ⟨m, hm⟩ := updateLossMark_of_some h loss.lossAccount.lastBits false
  cases rejected with
  | false => exact ⟨m, o.regularAccount.lossType, hm⟩
  | true => exact ⟨m, setRegularLossState_of_some hm ctx.fromAddr false⟩

/-- RemoveLossReport and RejectLossReport, which are this by definition. -/
def closeReport (w : World) (ctx : TxContext) (rejected : Bool) : Option World :=
  match decodeAddress ctx.data with
  | none => some w
  | some addr =>
    match w addr with
    | none => none
    | some loss =>
      ((w.unmarked ctx rejected loss).credit ctx.fromAddr AccountType.loss.pledge).suicide addr

end World

end ProbeChain
