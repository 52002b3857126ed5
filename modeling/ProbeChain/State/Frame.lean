/-
# What a call leaves alone

Most calls of `CallDB` change a balance, a vote or a record.  Some change nothing: those whose data
cannot be read or names an account that does not exist (`eq_of_idle`).  And there is much that no
call changes except by closing an account or by putting a new one in its place.  `view_callDB` says
exactly what is left of any view of the accounts that sees neither balances nor the records of the
operations.
-/
import ProbeChain.State.Refinement

namespace ProbeChain

open Option List

/-! ## 1. Operations that do nothing -/

/-- The account an operation looks up first; none if its data cannot be read. -/
def subject (op : Operation) (ctx : TxContext) : Option Address :=
  match op with
  | .cancellation => (decodeCancellation ctx.data).map (·.cancelAddress)
  | .applyToBeDPoSNode => (decodeApplyDPos ctx.data).map (·.voteAddress)
  | .revealLossReport => (decodeRevealLossReport ctx.data).map (·.lossAccount)
  | .modifyPnsOwner => (decodePnsOwner ctx.data).map (·.pnsAddress)
  | .modifyPnsContent => (decodePnsContent ctx.data).map (·.pnsAddress)
  | .modifyLossType => (decodeByte ctx.data).map fun _ => ctx.fromAddr
  | .transferLostAccountPns => (decodeAssociatedAccount ctx.data).map (·.lossAccount)
  | .transferLostAccountAuthorize => (decodeAssociatedAccount ctx.data).map (·.lossAccount)
  | _ => decodeAddress ctx.data

/-- Names, owners or candidates are written, and nothing else. -/
def Operation.clerical : Operation → Bool
  | .applyToBeDPoSNode | .modifyPnsOwner | .modifyPnsContent => true
  | .transferLostAccountPns | .transferLostAccountAuthorize => true
  | _ => false

/-- The operations that close accounts. -/
def Operation.closes : Operation → Bool
  | .cancellation | .cancellationLostAccount | .removeLossReport | .rejectLossReport => true
  | _ => false

/-- The operation behind `dest` leaves everything as it is. -/
def Idle (w : World) (ctx : TxContext) (dest : Address) : Prop :=
  match operationOf dest with
  | .transfer => ctx.value = 0
  | .registerPns => False
  | .registerAuthorize => False
  | .registerLose => False
  -- a vote is taken from its sender even when there is nothing to vote for
  | .vote => subject .vote ctx = none
  | op => ∀ a ∈ subject op ctx, w a = none

namespace World

variable {X : Externals} {w w' : World} {ctx : TxContext}

/-- **An idle call of `CallDB` leaves every account as it is.** -/
theorem eq_of_idle (h : ∀ dest ∈ ctx.toAddr, Idle w ctx dest) (hw : w.callDB X ctx = some w') :
    w' = w := by
  unfold callDB at hw
  split at hw
  · exact (some.inj hw).symm
  next dest hdest =>
    have hidle := h dest hdest
    unfold Idle at hidle
    cases hop : operationOf dest <;> rw [hop] at hidle hw <;> dsimp only at hidle hw
    case vote =>
      have hnone : decodeAddress ctx.data = none := hidle
      rw [vote, hnone] at hw
      exact (some.inj hw).symm
    case transfer =>
      rw [transfer, if_pos hidle] at hw
      exact (some.inj hw).symm
    case redemption =>
      unfold redemption at hw
      split at hw
      · exact (some.inj hw).symm
      next addr hd =>
        rw [hidle addr hd] at hw
        cases hfrom : w ctx.fromAddr <;> rw [hfrom] at hw <;> exact (some.inj hw).symm
    case cancellation | applyToBeDPoSNode | transferLostAccountBalance =>
      simp only [cancellation, applyToBeDPoSNode, transferLostAccount] at hw
      split at hw
      · exact (some.inj hw).symm
      next hd =>
        rw [hidle _ (by simp only [subject, hd]; rfl)] at hw
        exact (some.inj hw).symm
    -- these do not check that there is a report, and panic
    case cancellationLostAccount | removeLossReport | rejectLossReport | revealLossReport =>
      simp only [cancellationLoss, removeLossReport, rejectLossReport, revealLossReport] at hw
      split at hw
      · exact (some.inj hw).symm
      next hd =>
        rw [hidle _ (by simp only [subject, hd]; rfl)] at hw
        cases hw
    case modifyPnsOwner | modifyPnsContent =>
      obtain rfl := some.inj hw
      simp only [modifyPnsOwner, modifyPnsContent]
      split
      · rfl
      next hd =>
        exact modify_of_none (hidle _ (by simp only [subject, hd]; rfl)) _
    case modifyLossType =>
      obtain rfl := some.inj hw
      unfold modifyLossType
      split
      next hd =>
        exact modify_of_none (hidle _ (by simp only [subject, hd]; rfl)) _
      · rfl
    case transferLostAccountPns | transferLostAccountAuthorize =>
      obtain rfl := some.inj hw
      unfold transferLostAssociatedAccount
      split
      · rfl
      next hd =>
        rw [hidle _ (by simp only [subject, hd]; rfl)]

end World

/-! ## 2. Views -/

namespace StateObject

-- What is not seen of an account, `d` being what is seen of a missing one.  Most views do not see
-- what they do not read.

/-- The balances are not seen. -/
structure Cashless {β : Type} (g : StateObject → β) (d : β) : Prop where
  balance : ∀ o x, g (o.setBalance x) = g o
  regular : g (new .regular) = d := by rfl

/-- The votes and the stakes are not seen. -/
structure Voteless {β : Type} (g : StateObject → β) : Prop where
  vote : ∀ o a v, g (o.setVote a v) = g o := by intros; rfl
  authorize : ∀ o r, g { o with authorizeAccount := r } = g o := by intros; rfl

/-- The records of the loss reports are not seen. -/
structure Unreported {β : Type} (g : StateObject → β) (d : β) : Prop where
  lossMark : ∀ o m, g { o with lossMarkAccount := m } = g o := by intros; rfl
  lossType : ∀ o t, g (o.setLossType t) = g o := by intros; rfl
  loss : ∀ o l, g { o with lossAccount := l } = g o := by intros; rfl
  marks : g (new .lossMark) = d := by rfl

/-- The names and the candidates are not seen. -/
structure Detached {β : Type} (g : StateObject → β) (d : β) : Prop where
  pns : ∀ o p, g { o with pnsAccount := p } = g o := by intros; rfl
  owner : ∀ o a, g { o with authorizeAccount := { o.authorizeAccount with owner := a } } = g o := by
    intros; rfl
  validatorList : ∀ o l, g { o with validatorListAccount := l } = g o := by intros; rfl
  dpos : g (new .dpos) = d := by rfl

/-- Nothing but the type and the records of the loss reports is seen. -/
structure Remote {β : Type} (g : StateObject → β) (d : β) :
    Prop extends Detached g d, Voteless g, Cashless g d

/-- Of the records, the votes and the stakes may be seen. -/
structure Quiet {β : Type} (g : StateObject → β) (d : β) :
    Prop extends Unreported g d, Detached g d, Cashless g d where
  new : ∀ t, t ≠ .authorize → g (new t) = d
  marks := new .lossMark (by decide)
  dpos := new .dpos (by decide)
  regular := new .regular (by decide)

/-- None of the records is seen. -/
structure UnseenRecords {β : Type} (g : StateObject → β) (d : β) : Prop
    extends Unreported g d, Voteless g, Detached g d where
  new : ∀ t, g (new t) = d

/-- Nor is the balance. -/
structure Unseen {β : Type} (g : StateObject → β) (d : β) :
    Prop extends UnseenRecords g d, Cashless g d

theorem unseenRecords_balance : UnseenRecords balance 0 where
  new t := by cases t <;> rfl

end StateObject

namespace World

open StateObject

section
variable {β : Type} (g : StateObject → β) (d : β)

/-- A missing account looks like a new one. -/
def view (w : World) (a : Address) : β := (w a).elim d g

theorem view_put (w : World) (a b : Address) (o : StateObject) :
    (w.put a o).view g d b = if b = a then g o else w.view g d b := by
  by_cases h : b = a
  · subst h
    rw [if_pos rfl, view, put_self, elim_some]
  · rw [if_neg h, view, put_of_ne _ _ h, view]

variable {g d}

theorem view_put_of_eq {w : World} {a : Address} {o : StateObject} (h : g o = w.view g d a) :
    (w.put a o).view g d = w.view g d := by
  funext b
  rw [view_put]
  split
  · subst_vars
    exact h
  · rfl

theorem view_put_congr {w : World} {a : Address} {o p : StateObject} (h : g o = g p) :
    (w.put a o).view g d = (w.put a p).view g d := by
  funext b
  rw [view_put, view_put, h]

theorem view_modify {f : StateObject → StateObject} (hf : ∀ o, g (f o) = g o) (w : World)
    (a : Address) : (w.modify a f).view g d = w.view g d := by
  cases h : w a with
  | none => rw [modify_of_none h]
  | some o =>
    rw [modify_of_some h]
    exact view_put_of_eq (by rw [hf, view, h, elim_some])

theorem balanceAt_congr {w w' : World} (h : w'.view balance 0 = w.view balance 0) (a : Address) :
    w'.balanceAt a = w.balanceAt a :=
  congrFun h a

end

section
variable {β : Type} {g : StateObject → β} {d : β} (hg : Unreported g d)
include hg

theorem view_updateLossMark (w : World) (lastBits : UInt32) (flag : Bool) :
    (w.updateLossMark lastBits flag).view g d = w.view g d := by
  refine view_put_of_eq ?_
  rw [lossMarkObject, hg.lossMark, view]
  cases w specialAddressForRegisterLose with
  | none => exact hg.marks
  | some o => rfl

theorem view_setRegularLossState (w : World) (a : Address) (flag : Bool) :
    (w.setRegularLossState a flag).view g d = w.view g d :=
  view_modify (fun o => hg.lossType o _) w a

theorem view_modifyLossType {w : World} {ctx : TxContext} :
    (w.modifyLossType ctx).view g d = w.view g d := by
  unfold modifyLossType
  split
  · exact view_modify (fun o => hg.lossType o _) w _
  · rfl

end

section
variable {β : Type} {g : StateObject → β} {d : β} (hg : Cashless g d)
include hg

theorem view_credit (w : World) (a : Address) (v : Int) : (w.credit a v).view g d = w.view g d := by
  refine view_put_of_eq ?_
  rw [credited, hg.balance, view]
  cases w a with
  | none => exact hg.regular
  | some o => rfl

theorem view_transferLostBalance (w : World) (lostAddr benefitAddr : Address) (lost : StateObject) :
    (w.transferLostBalance lostAddr benefitAddr lost).view g d = w.view g d := by
  unfold transferLostBalance
  split
  · rw [view_modify (fun o => hg.balance o 0), view_credit hg]
  · rfl

theorem view_transfer (w : World) (ctx : TxContext) (dest : Address) :
    (w.transfer ctx dest).view g d = w.view g d := by
  unfold transfer
  split
  · rfl
  · rw [view_credit hg, view_credit hg]

end

section
variable {β : Type} {g : StateObject → β} {d : β} (hg : Voteless g) {w w' : World}
include hg

theorem view_redemptionForAuthorize {a : Address} {v : Option Int}
    (hw : w.redemptionForAuthorize a v = some w') : w'.view g d = w.view g d := by
  unfold redemptionForAuthorize at hw
  split at hw
  · exact some.inj hw ▸ rfl
  next o ho =>
    obtain ⟨p, hp, rfl⟩ := map_eq_some_iff.mp hw
    refine view_put_of_eq ?_
    rw [view, ho, elim_some]
    unfold redeemed at hp
    split at hp
    · split at hp
      · exact some.inj hp ▸ hg.authorize o _
      · exact some.inj hp ▸ hg.authorize o _
    · cases hp

theorem view_transferLostVotes {lostAddr benefitAddr : Address}
    (hw : w.transferLostVotes lostAddr benefitAddr = some w') : w'.view g d = w.view g d := by
  unfold transferLostVotes at hw
  split at hw
  next lost benefit hlost hbenefit =>
    obtain ⟨move, -, rfl⟩ := map_eq_some_iff.mp hw
    split
    · have hfirst : (w.put benefitAddr (benefit.setVote lost.regularAccount.voteAccount
          (lost.regularAccount.voteValue.getD 0))).view g d = w.view g d :=
        view_put_of_eq (by rw [hg.vote, view, hbenefit, elim_some])
      refine (view_put_of_eq ?_).trans hfirst
      rw [hfirst, hg.vote, view, hlost, elim_some]
    · rfl
  · exact some.inj hw ▸ rfl

end

section
variable {β : Type} {g : StateObject → β} {d : β} (hg : Voteless g) (hc : Cashless g d)
  {w w' : World}
include hg hc

theorem view_redeemVotes {ctx : TxContext} {addr : Address}
    (hw : w.redeemVotes ctx addr = some w') :
    w'.view g d = w.view g d := by
  obtain ⟨o, ho, ⟨-, rfl⟩ | ⟨-, -, v, -, hw⟩⟩ := redeemVotes_eq_some hw
  · rfl
  · rw [view_redemptionForAuthorize hg hw]
    refine view_put_of_eq ?_
    rw [hg.vote, hc.balance, view, ho, elim_some]

theorem view_transferLostAssets {lostAddr benefitAddr : Address}
    (hw : w.transferLostAssets lostAddr benefitAddr = some w') : w'.view g d = w.view g d := by
  unfold transferLostAssets at hw
  split at hw
  · rw [view_transferLostVotes hg hw, view_transferLostBalance hc]
  · exact some.inj hw ▸ rfl

end

/-! ## 3. One call -/

end World

/-- Cancelling a loss report closes it and the lost account, if there is an account to pay. -/
def closedWithReport (w : World) (ctx : TxContext) : List Address :=
  match decodeAddress ctx.data with
  | none => []
  | some addr =>
    match w addr with
    | none => []
    | some loss =>
      match w loss.lossAccount.newAccount with
      | none => []
      | some _ => [addr, loss.lossAccount.lostAccount]

/-- The accounts that `Suicide` is called for. -/
def closed (w : World) (ctx : TxContext) : List Address :=
  match ctx.toAddr.map operationOf with
  | some .cancellation => (subject .cancellation ctx).toList
  | some .removeLossReport => (subject .removeLossReport ctx).toList
  | some .rejectLossReport => (subject .rejectLossReport ctx).toList
  | some .cancellationLostAccount => closedWithReport w ctx
  | _ => []

/-- Where a registration puts the new account. -/
def registered (X : Externals) (ctx : TxContext) : Option Address :=
  ctx.toAddr.bind fun dest =>
    match operationOf dest with
    | .registerPns => some (createPNSAddress X ctx.fromAddr ctx.data)
    | .registerAuthorize => some (createAddress X ctx.fromAddr ctx.nonce)
    | .registerLose => some (createAddress X ctx.fromAddr ctx.nonce)
    | _ => none

namespace World

open StateObject

section
variable {β : Type} {g : StateObject → β} {d : β} (hg : Detached g d) {X : Externals} {w w' : World}
  {ctx : TxContext}
include hg

theorem view_applyToBeDPoSNode (hw : w.applyToBeDPoSNode X ctx = some w') :
    w'.view g d = w.view g d := by
  unfold applyToBeDPoSNode at hw
  split at hw
  · exact some.inj hw ▸ rfl
  · split at hw
    · exact some.inj hw ▸ rfl
    · obtain ⟨voteValue, -, hw⟩ := bind_eq_some_iff.mp hw
      obtain ⟨blockNumber, -, hw⟩ := bind_eq_some_iff.mp hw
      obtain ⟨roundId, -, hw⟩ := bind_eq_some_iff.mp hw
      obtain rfl := some.inj hw
      refine view_put_of_eq ?_
      rw [candidateListed, hg.validatorList, view]
      cases w specialAddressForDPoS with
      | none => exact hg.dpos
      | some o => rfl

theorem view_transferLostAssociatedAccount (op : Operation) :
    (w.transferLostAssociatedAccount ctx op).view g d = w.view g d := by
  unfold transferLostAssociatedAccount
  split
  · rfl
  · split
    · rfl
    · split
      · refine view_modify (fun o => ?_) w _
        split
        · exact hg.pns o _
        · exact hg.owner o _
        · rfl
      · rfl

theorem view_modifyPnsOwner : (w.modifyPnsOwner ctx).view g d = w.view g d := by
  unfold modifyPnsOwner
  split
  · rfl
  · exact view_modify (fun o => hg.pns o _) w _

theorem view_modifyPnsContent : (w.modifyPnsContent ctx).view g d = w.view g d := by
  unfold modifyPnsContent
  split
  · rfl
  · exact view_modify (fun o => hg.pns o _) w _

theorem view_clerical {dest : Address} (hto : ctx.toAddr = some dest)
    (hw : w.callDB X ctx = some w') (hop : (operationOf dest).clerical = true) :
    w'.view g d = w.view g d := by
  rw [callDB, hto] at hw
  dsimp only at hw
  cases h : operationOf dest <;> rw [h] at hw hop <;> dsimp only at hw
  case applyToBeDPoSNode => exact view_applyToBeDPoSNode hg hw
  case modifyPnsOwner => exact some.inj hw ▸ view_modifyPnsOwner hg
  case modifyPnsContent => exact some.inj hw ▸ view_modifyPnsContent hg
  case transferLostAccountPns | transferLostAccountAuthorize =>
    exact some.inj hw ▸ view_transferLostAssociatedAccount hg _
  all_goals cases hop

end

section
variable {w w' : World} {ctx : TxContext}

/-- **What closes accounts** pays somebody, takes marks back and closes, and does nothing else. -/
theorem closing_inv {X : Externals} {dest : Address} {I : World → Prop}
    (hcredit : ∀ {w : World} {a : Address} {v : Int}, I w → 0 ≤ v → I (w.credit a v))
    (hmarks : ∀ {w : World} {rejected : Bool} {loss : StateObject}, I w →
      I (w.unmarked ctx rejected loss))
    (hclose : ∀ {w w' : World} {a : Address}, I w → w.suicide a = some w' → I w') (h : I w)
    (hto : ctx.toAddr = some dest) (hop : (operationOf dest).closes = true)
    (hw : w.callDB X ctx = some w') :
    I w' := by
  have hreport (rejected : Bool) (hw : w.closeReport ctx rejected = some w') : I w' := by
    unfold closeReport at hw
    split at hw
    · exact some.inj hw ▸ h
    · split at hw
      · cases hw
      · exact hclose (hcredit (hmarks h) (Int.natCast_nonneg _)) hw
  rw [callDB, hto] at hw
  dsimp only at hw
  cases hdest : operationOf dest <;> rw [hdest] at hw hop <;> dsimp only at hw
  case cancellation =>
    unfold cancellation at hw
    split at hw
    · exact some.inj hw ▸ h
    · split at hw
      · exact some.inj hw ▸ h
      · exact hclose (hcredit h (Int.natCast_nonneg _)) hw
  case cancellationLostAccount =>
    unfold cancellationLoss at hw
    split at hw
    · exact some.inj hw ▸ h
    · split at hw
      · cases hw
      · split at hw
        · exact some.inj hw ▸ h
        · obtain ⟨w₁, hw₁, hw⟩ := bind_eq_some_iff.mp hw
          exact hclose (hclose (hcredit h (by omega)) hw₁) hw
  case removeLossReport => exact hreport false hw
  case rejectLossReport => exact hreport true hw
  all_goals cases hop

end

section
variable {β : Type} {g : StateObject → β} {d : β} (hg : Voteless g) (hc : Cashless g d)
  {w w' : World}
  {ctx : TxContext}
include hg hc

theorem view_vote (hw : w.vote ctx = some w') : w'.view g d = w.view g d := by
  rcases vote_eq_some hw with ⟨-, rfl⟩ | ⟨addr, v, -, rfl⟩
  · rfl
  · rw [view_modify (f := (·.setAuthorizeVote v)) fun o => hg.authorize o _]
    refine view_put_of_eq ?_
    rw [addVote, hg.vote, credited, hc.balance, view]
    cases w ctx.fromAddr with
    | none => exact hc.regular
    | some o => rfl

theorem view_redemption (hw : w.redemption ctx = some w') : w'.view g d = w.view g d := by
  unfold redemption at hw
  split at hw
  · exact some.inj hw ▸ rfl
  · split at hw
    · obtain ⟨w₁, hw₁, hw⟩ := bind_eq_some_iff.mp hw
      rw [view_redeemVotes hg hc hw]
      split at hw₁
      · exact view_redemptionForAuthorize hg hw₁
      · exact some.inj hw₁ ▸ rfl
    · exact some.inj hw ▸ rfl

theorem view_transferLostAccount (hr : Unreported g d) (hw : w.transferLostAccount ctx = some w') :
    w'.view g d = w.view g d := by
  unfold transferLostAccount at hw
  split at hw
  · exact some.inj hw ▸ rfl
  · split at hw
    · exact some.inj hw ▸ rfl
    · obtain ⟨w₁, hw₁, rfl⟩ := map_eq_some_iff.mp hw
      have hstate : ∀ o : StateObject, g (o.setLossState .success) = g o := fun o => hr.loss o _
      rw [view_modify hstate, view_transferLostAssets hg hc hw₁]

end

section
variable {β : Type} {g : StateObject → β} {d : β} (hg : Unreported g d) (hc : Cashless g d)
  {w w' : World} {ctx : TxContext} {o : StateObject} {a : Address}
include hg hc

variable (ctx) in
omit hc in
/-- What is done to the report and the lost account before anything is paid. -/
theorem view_revealed {decode : RevealLossReportDecodeType} {loss : StateObject}
    (hloss : w decode.lossAccount = some loss) :
    (((w.put decode.lossAccount (revealed ctx loss decode)).updateLossMark loss.lossAccount.lastBits
      false).setRegularLossState decode.oldAccount true).view g d = w.view g d := by
  rw [view_setRegularLossState hg, view_updateLossMark hg]
  refine view_put_of_eq ?_
  rw [revealed, hg.loss, view, hloss, elim_some]

theorem view_revealLossReport (hw : w.revealLossReport ctx = some w') :
    w'.view g d = w.view g d := by
  unfold revealLossReport at hw
  split at hw
  · exact some.inj hw ▸ rfl
  · split at hw
    · cases hw
    next loss hloss =>
      obtain ⟨height, -, rfl⟩ := map_eq_some_iff.mp hw
      rw [view_credit hc, view_credit hc, view_revealed hg ctx hloss]

omit hg in
theorem markSuicided_setBalance_unseen (o : StateObject) (x : Int) :
    g (o.setBalance x).markSuicided = g o.markSuicided := by
  have hcomm : (o.setBalance x).markSuicided = o.markSuicided.setBalance x := by
    rcases o with ⟨t⟩
    cases t <;> rfl
  rw [hcomm, hc.balance]

omit hg hc in
theorem view_suicide (hw : w.suicide a = some w') (b : Address) :
    w'.view g d b = if b = a then w.view (g ·.markSuicided) d b else w.view g d b := by
  rw [suicide_eq_modify hw]
  by_cases hb : b = a
  · subst hb
    rw [if_pos rfl, view, view]
    cases h : w b with
    | none => rw [modify_of_none h, h]; rfl
    | some o => rw [modify_of_some h, put_self]; rfl
  · rw [if_neg hb, view, modify_of_ne hb, view]

omit hg hc in
/-- An account is closed after things that are not seen have happened to it. -/
theorem view_close {w₁ : World} {p : StateObject} (ho : w a = some o)
    (hview : w₁.view g d = w.view g d) (hp : w₁ a = some p)
    (hseen : g p.markSuicided = g o.markSuicided) (hw : w₁.suicide a = some w') (b : Address) :
    w'.view g d b = if b ∈ [a] then w.view (g ·.markSuicided) d b else w.view g d b := by
  rw [view_suicide hw b, hview]
  by_cases hb : b = a
  · subst hb
    rw [if_pos rfl, if_pos (mem_singleton_self b), view, view, hp, ho, elim_some,
      elim_some, hseen]
  · rw [if_neg hb, if_neg fun h => hb (mem_singleton.mp h)]

omit hg in
theorem view_cancellation (hw : w.cancellation ctx = some w') (b : Address) :
    w'.view g d b = if b ∈ (subject .cancellation ctx).toList then w.view (g ·.markSuicided) d b
      else w.view g d b := by
  unfold cancellation at hw
  unfold subject
  split at hw
  next hd =>
    rw [hd, ← some.inj hw]
    exact (if_neg not_mem_nil).symm
  next decode hd =>
    rw [hd]
    change w'.view g d b = if b ∈ [decode.cancelAddress] then _ else _
    split at hw
    next hnone =>
      rw [← some.inj hw]
      by_cases hb : b ∈ [decode.cancelAddress]
      · rw [if_pos hb, mem_singleton.mp hb, view, view, hnone, elim_none, elim_none]
      · rw [if_neg hb]
    next o ho =>
      obtain ⟨x, hx⟩ := credit_of_some ho decode.beneficiaryAddress
        (StateDB.cancellationPledge o.accountType)
      exact view_close ho (view_credit hc _ _ _) hx (markSuicided_setBalance_unseen hc o x) hw b

omit hc in
theorem view_unmarked (w : World) (ctx : TxContext) (rejected : Bool) (loss : StateObject) :
    (w.unmarked ctx rejected loss).view g d = w.view g d := by
  unfold unmarked
  split
  · rw [view_setRegularLossState hg, view_updateLossMark hg]
  · exact view_updateLossMark hg _ _ _

theorem view_closeReport (rejected : Bool) (hw : w.closeReport ctx rejected = some w')
    (b : Address) :
    w'.view g d b = if b ∈ (decodeAddress ctx.data).toList then w.view (g ·.markSuicided) d b
      else w.view g d b := by
  unfold closeReport at hw
  split at hw
  next hd =>
    rw [hd, ← some.inj hw]
    exact (if_neg not_mem_nil).symm
  next addr hd =>
    rw [hd]
    split at hw
    · cases hw
    next loss hloss =>
      obtain ⟨m, t, hm⟩ := unmarked_of_some hloss ctx rejected loss
      obtain ⟨x, hx⟩ := credit_of_some hm ctx.fromAddr AccountType.loss.pledge
      refine view_close hloss ?_ hx ?_ hw b
      · rw [view_credit hc, view_unmarked hg]
      · rw [markSuicided_setBalance_unseen hc]
        exact (hg.lossType { loss.markSuicided with lossMarkAccount := m } t).trans
          (hg.lossMark loss.markSuicided m)

omit hg in
/-- Paying an account that exists is not seen, even of one that is going to be closed. -/
theorem view_credit_markSuicided (ho : w a = some o) (v : Int) :
    (w.credit a v).view (g ·.markSuicided) d = w.view (g ·.markSuicided) d := by
  refine view_put_of_eq ?_
  rw [credited, view, ho, getD_some, elim_some]
  exact markSuicided_setBalance_unseen hc o _

omit hg in
theorem view_cancellationLoss (hw : w.cancellationLoss ctx = some w') (b : Address) :
    w'.view g d b = if b ∈ closedWithReport w ctx then w.view (g ·.markSuicided) d b
      else w.view g d b := by
  unfold cancellationLoss at hw
  split at hw
  next hd =>
    have hclosed : closedWithReport w ctx = [] := by simp only [closedWithReport, hd]
    rw [hclosed, if_neg not_mem_nil, ← some.inj hw]
  next addr hd =>
    split at hw
    · cases hw
    next loss hloss =>
      split at hw
      next hnone =>
        have hclosed : closedWithReport w ctx = [] := by
          simp only [closedWithReport, hd, hloss, hnone]
        rw [hclosed, if_neg not_mem_nil, ← some.inj hw]
      next benefit hbenefit =>
        have hclosed : closedWithReport w ctx = [addr, loss.lossAccount.lostAccount] := by
          simp only [closedWithReport, hd, hloss, hbenefit]
        obtain ⟨w₂, hw₂, hw⟩ := bind_eq_some_iff.mp hw
        have hfirst := view_suicide (g := g) (d := d) hw₂ b
        have hagain := view_suicide (g := (g ·.markSuicided)) (d := d) hw₂ b
        -- closing an account twice is closing it
        have htwice (w : World) : w.view (g ·.markSuicided.markSuicided) d b =
            w.view (g ·.markSuicided) d b := rfl
        rw [htwice, ite_self, view_credit_markSuicided hc hbenefit] at hagain
        rw [view_credit hc, view_credit_markSuicided hc hbenefit] at hfirst
        rw [hclosed, view_suicide hw b, hfirst, hagain]
        by_cases hlost : b = loss.lossAccount.lostAccount
        · rw [if_pos hlost, if_pos (by simp [hlost])]
        · rw [if_neg hlost]
          by_cases haddr : b = addr
          · rw [if_pos haddr, if_pos (by simp [haddr])]
          · rw [if_neg haddr, if_neg (by simp [haddr, hlost])]

omit hg hc in
/-- A registration puts something new at its address and takes the costs from its sender. -/
theorem view_register {v : World} (ho : g o = d)
    (hv : v.view g d = (w.put a o).view g d) (b : Address) :
    v.view g d b = if some a = some b then d
      else if b ∈ ([] : List Address) then w.view (g ·.markSuicided) d b else w.view g d b := by
  rw [hv, view_put, ho, if_neg not_mem_nil]
  by_cases hb : b = a
  · rw [if_pos hb, if_pos (congrArg some hb.symm)]
  · rw [if_neg hb, if_neg fun h => hb (some.inj h).symm]

end

section
variable {β : Type} {g : StateObject → β} {d : β} (hg : Unseen g d) {X : Externals} {w w' : World}
  {ctx : TxContext}
include hg

/-- **What a call leaves to be seen.**  An account it registers looks like a new one, and of one it
closes only that is seen; everything else is as it was. -/
theorem view_callDB (hw : w.callDB X ctx = some w') (a : Address) :
    w'.view g d a = if registered X ctx = some a then d
      else if a ∈ closed w ctx then w.view (g ·.markSuicided) d a else w.view g d a := by
  have hc := hg.toCashless
  have hv := hg.toVoteless
  have hr := hg.toUnreported
  have hcall := hw
  unfold callDB at hw
  unfold registered closed
  split at hw
  next hto =>
    rw [hto, bind_none, if_neg (by simp)]
    exact some.inj hw ▸ rfl
  next dest hto =>
    have hsame (h : w'.view g d = w.view g d) :
        w'.view g d a = if (none : Option Address) = some a then d
          else if a ∈ ([] : List Address) then w.view (g ·.markSuicided) d a else w.view g d a := by
      rw [if_neg (by simp), if_neg not_mem_nil, h]
    have hclerical := view_clerical hg.toDetached hto hcall
    rw [hto, bind_some, map_some]
    cases hop : operationOf dest <;> rw [hop] at hw hclerical <;> dsimp only at hw ⊢
    case registerPns =>
      obtain rfl := some.inj hw
      exact view_register ((hg.pns _ _).trans (hg.new .pns)) (view_credit hc _ _ _) a
    case registerAuthorize =>
      obtain rfl := some.inj hw
      exact view_register ((hg.authorize _ _).trans (hg.new .authorize)) (view_credit hc _ _ _) a
    case registerLose =>
      obtain rfl := some.inj hw
      have hmark := (view_credit hc _ ctx.fromAddr (-(ctx.value + AccountType.loss.pledge))).trans
        (view_updateLossMark hr
          (w.put (createAddress X ctx.fromAddr ctx.nonce) (newLoss ctx))
          (decodeRegisterLossIgnoringError ctx.data).lastBitsMark true)
      exact view_register ((hg.loss _ _).trans (hg.new .loss)) hmark a
    case cancellation => rw [if_neg (by simp), view_cancellation hc hw a]
    case vote => exact hsame (view_vote hv hc hw)
    case redemption => exact hsame (view_redemption hv hc hw)
    case cancellationLostAccount => rw [if_neg (by simp), view_cancellationLoss hc hw a]
    case revealLossReport => exact hsame (view_revealLossReport hr hc hw)
    case transferLostAccountBalance => exact hsame (view_transferLostAccount hv hc hr hw)
    case removeLossReport =>
      exact view_closeReport hr hc false hw a
    case rejectLossReport =>
      exact view_closeReport hr hc true hw a
    case modifyLossType =>
      obtain rfl := some.inj hw
      exact hsame (view_modifyLossType hr)
    case transfer => exact hsame (some.inj hw ▸ view_transfer hc w ctx dest)
    all_goals exact hsame (hclerical rfl)

end

end World

end ProbeChain
