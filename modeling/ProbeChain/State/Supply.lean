/-
# The supply

The SUPPLY is everything of value that accounts hold: the balances of Regular and Contract accounts,
the votes cast by Regular accounts, the pledges of Authorize accounts, and one creation pledge of
its type for each account that exists.  An account closed in the current transaction is still there
until the transaction is finalised; what it holds counts, but its creation pledge has been paid out,
and no longer does.  Between transactions there is no such account and the supply is the plain sum.

No call should raise the supply.  Some do: closing an account twice pays its pledge twice, a payment
to an address without an account brings one into being that nobody paid for, a registration replaces
whatever was at the new address.  `World.Backed` collects, operation by operation, what has to hold
before the call for the supply not to rise, and `supply_le_of_backed` carries this over whole
blocks.
-/
import ProbeChain.State.Conservation

namespace ProbeChain

open Option World StateDB

/-! ## 1. What an account is worth -/

namespace StateObject

/-- The creation pledge, until the account is closed. -/
def openPledge (o : StateObject) : Int := if o.suicided then 0 else o.creationPledge

/-- Balance, votes cast, pledge, and the creation pledge. -/
def assets (o : StateObject) : Int :=
  o.balance + (o.regularVotes + (o.authorizePledge + o.creationPledge))

/-- The same, without the creation pledge once the account is closed. -/
def worth (o : StateObject) : Int :=
  o.balance + (o.regularVotes + (o.authorizePledge + o.openPledge))

theorem openPledge_setBalance (o : StateObject) (x : Int) :
    (o.setBalance x).openPledge = o.openPledge := by
  simp [openPledge]

theorem countsBalance_worth : CountsBalance worth :=
  countsBalance_balance.add fun o x => by
    rw [regularVotes_setBalance, authorizePledge_setBalance, openPledge_setBalance]

theorem countsVotes_worth : CountsVotes worth := by
  have h : worth = fun o => o.regularVotes + (o.balance + (o.authorizePledge + o.openPledge)) := by
    funext o
    simp only [worth]
    omega
  rw [h]
  exact countsVotes_regularVotes.add fun _ _ _ => rfl

theorem unreported_worth : Unreported worth 0 := {}

theorem detached_worth : Detached worth 0 := {}

theorem worth_setAuthorizeVote (o : StateObject) (v : Int) :
    (o.setAuthorizeVote v).worth = o.worth := rfl

theorem worth_markSuicided (o : StateObject) : o.markSuicided.worth = o.worth - o.openPledge := by
  have hpledge : o.markSuicided.openPledge = 0 := rfl
  show o.balance + (o.regularVotes + (o.authorizePledge + o.markSuicided.openPledge)) = _
  rw [hpledge, worth]
  omega

/-- A stake in place of another. -/
theorem worth_setStake (o : StateObject) (pledge vote : Int) :
    (o.setStake pledge vote).worth =
      o.worth + if o.accountType = .authorize then pledge - o.authorizePledge else 0 := by
  have hother : (o.setStake pledge vote).worth = o.balance + (o.regularVotes +
      ((o.setStake pledge vote).authorizePledge + o.openPledge)) := rfl
  rw [hother, worth]
  by_cases h : o.accountType = .authorize
  · have hset : (o.setStake pledge vote).authorizePledge = pledge := if_pos h
    rw [if_pos h, hset]
    omega
  · have hset : (o.setStake pledge vote).authorizePledge = 0 := if_neg h
    have hold : o.authorizePledge = 0 := if_neg h
    rw [if_neg h, hset, hold]
    omega

/-- A payment to an account that exists never adds more than the amount. -/
theorem gain_le (fresh : Int) {v : Int} (hv : 0 ≤ v) {k : Funding} (h : k ≠ .missing) :
    gain fresh v k ≤ v := by
  cases k with
  | missing => exact absurd rfl h
  | plain => exact hv
  | holder => exact le_refl v

end StateObject

namespace World

open StateObject

noncomputable def supply (w : World) : Int := w.sum worth

theorem supply_credit (w : World) (a : Address) (v : Int) :
    (w.credit a v).supply = w.supply + gain AccountType.regular.pledge v (funding (w a)) :=
  sum_credit countsBalance_worth w a v

/-- A change of bookkeeping only. -/
theorem supply_congr {w w' : World} (h : w'.view worth 0 = w.view worth 0) : w'.supply = w.supply :=
  sum_congr h

theorem supply_updateLossMark (w : World) (lastBits : UInt32) (flag : Bool) :
    (w.updateLossMark lastBits flag).supply = w.supply :=
  supply_congr (view_updateLossMark unreported_worth w lastBits flag)

/-- Closing an account takes its creation pledge out of the supply, once. -/
theorem supply_suicide {w w' : World} {a : Address} {o : StateObject} (h : w a = some o)
    (hw : w.suicide a = some w') : w'.supply = w.supply - o.openPledge := by
  rw [suicide_eq_modify hw, modify_of_some h, supply, sum_put_of_some _ h,
    worth_markSuicided, supply]
  omega

/-- No account is closed and still there, as between two transactions. -/
def Settled (w : World) : Prop := ∀ a o, w a = some o → o.suicided = false

/-- All balances, all votes of Regular accounts, all pledges of Authorize accounts, and one creation
pledge for each account. -/
noncomputable def total (w : World) : Int := w.sum assets

theorem supply_eq_total {w : World} (h : w.Settled) : w.supply = w.total := by
  refine Finset.sum_congr rfl fun a _ => ?_
  cases ho : w a with
  | none => rfl
  | some o =>
    have hpledge : o.openPledge = o.creationPledge := by rw [openPledge, h a o ho]; rfl
    simp only [elim_some, worth, assets, hpledge]

/-! ## 2. When a call is backed -/

variable (X : Externals) (w : World) (ctx : TxContext)

/-- The sender carries a balance, the new address is not its own, and what is replaced there, if
anything, is not a debt. -/
def RegisterBacked (newAddr : Address) : Prop :=
  newAddr ≠ ctx.fromAddr ∧ funding (w ctx.fromAddr) = .holder ∧
    ∀ o, w newAddr = some o → 0 ≤ o.worth

/-- The sender carries a balance, or nothing is sent. -/
def TransferBacked : Prop := ctx.value = 0 ∨ funding (w ctx.fromAddr) = .holder

/-- The voter exists. -/
def VoteBacked : Prop :=
  ∀ addr, decodeAddress ctx.data = some addr → w ctx.fromAddr ≠ none

/-- The beneficiary exists, and the account was not closed before in the same transaction. -/
def CancellationBacked : Prop :=
  ∀ d, decodeCancellation ctx.data = some d → ∀ o, w d.cancelAddress = some o →
    w d.beneficiaryAddress ≠ none ∧ o.suicided = false

/-- The two accounts that are closed are a Loss and a Regular account, two that exist, and neither
was closed before in the same transaction. -/
def CancellationLossBacked : Prop :=
  ∀ addr, decodeAddress ctx.data = some addr → ∀ loss, w addr = some loss →
    w loss.lossAccount.newAccount ≠ none →
      loss.accountType = .loss ∧ loss.suicided = false ∧
      ∃ lost, w loss.lossAccount.lostAccount = some lost ∧
        lost.accountType = .regular ∧ lost.suicided = false

/-- The sender exists, and what is closed is a Loss account not closed before in the same
transaction. -/
def RemoveLossReportBacked : Prop :=
  ∀ addr, decodeAddress ctx.data = some addr → ∀ loss, w addr = some loss →
    w.markedFunding ctx.fromAddr ≠ .missing ∧ loss.accountType = .loss ∧ loss.suicided = false

/-- The lost account exists, the sender exists, and carries a balance if anything is sent. -/
def RevealLossReportBacked : Prop :=
  ∀ d, decodeRevealLossReport ctx.data = some d →
    w.markedFunding d.oldAccount ≠ .missing ∧ w.markedFunding ctx.fromAddr ≠ .missing ∧
    (ctx.value = 0 ∨ w.markedFunding ctx.fromAddr = .holder)

/-- Votes that move are those of a Regular account, and replace no negative ones. -/
def TransferLostAccountBacked : Prop :=
  ∀ addr, decodeAddress ctx.data = some addr → ∀ loss, w addr = some loss →
    ∀ lost, w loss.lossAccount.lostAccount = some lost →
    ∀ benefit, w loss.lossAccount.newAccount = some benefit →
    votesMove lost benefit = some true →
      lost.accountType = .regular ∧ 0 ≤ benefit.regularAccount.voteValue.getD 0

/-- The pledge an owner gives up is not negative. -/
def RedemptionBacked : Prop :=
  ∀ addr, decodeAddress ctx.data = some addr → ∀ o, w addr = some o →
    ctx.fromAddr = o.authorizeAccount.owner → 0 ≤ o.authorizePledge

/-- **What has to hold before a call for it not to raise the supply.** -/
def Backed : Prop :=
  match ctx.toAddr with
  | none => True
  | some dest =>
    match operationOf dest with
    | .registerPns => w.RegisterBacked ctx (createPNSAddress X ctx.fromAddr ctx.data)
    | .registerAuthorize => w.RegisterBacked ctx (createAddress X ctx.fromAddr ctx.nonce)
    | .registerLose => w.RegisterBacked ctx (createAddress X ctx.fromAddr ctx.nonce)
    | .cancellation => w.CancellationBacked ctx
    | .vote => w.VoteBacked ctx
    | .redemption => w.RedemptionBacked ctx
    | .cancellationLostAccount => w.CancellationLossBacked ctx
    | .revealLossReport => w.RevealLossReportBacked ctx
    | .transferLostAccountBalance => w.TransferLostAccountBacked ctx
    | .removeLossReport => w.RemoveLossReportBacked ctx
    | .rejectLossReport => w.RemoveLossReportBacked ctx
    | .transfer => w.TransferBacked ctx
    | _ => True

/-! ## 3. One call -/

variable {X : Externals} {w w' : World} {ctx : TxContext}

/-- What a registration leaves of the supply, `pledge` being what it costs besides the value. -/
theorem supply_register (v : World) (o : StateObject) (newAddr : Address) (cost : Int)
    (hv : v.supply = (w.put newAddr o).supply)
    (hfund : funding (v ctx.fromAddr) = funding (w ctx.fromAddr))
    (h : w.RegisterBacked ctx newAddr) (hcost : o.worth ≤ cost) :
    (v.credit ctx.fromAddr (-cost)).supply ≤ w.supply := by
  obtain ⟨-, hholder, hold⟩ := h
  have hput : (w.put newAddr o).supply ≤ w.supply + o.worth := by
    rw [supply, sum_put, supply]
    cases hn : w newAddr with
    | none => simp
    | some p =>
      have := hold p hn
      simp only [elim_some]
      omega
  rw [supply_credit, hv, hfund, hholder]
  simp only [gain]
  omega

theorem supply_registerPns_le
    (h : w.RegisterBacked ctx (createPNSAddress X ctx.fromAddr ctx.data)) :
    (w.registerPns X ctx).supply ≤ w.supply := by
  refine supply_register (w := w) _ (newPns ctx) (createPNSAddress X ctx.fromAddr ctx.data) _ rfl
    ?_ h ?_
  · rw [put_of_ne _ _ (Ne.symm h.1)]
  · have : (newPns ctx).worth = 0 + (0 + (0 + (AccountType.pns.pledge : Int))) := rfl
    omega

theorem supply_registerAuthorize_le
    (h : w.RegisterBacked ctx (createAddress X ctx.fromAddr ctx.nonce)) :
    (w.registerAuthorize X ctx).supply ≤ w.supply := by
  refine supply_register (w := w) _ (newAuthorize ctx)
    (createAddress X ctx.fromAddr ctx.nonce) _ rfl
    ?_ h ?_
  · rw [put_of_ne _ _ (Ne.symm h.1)]
  · have : (newAuthorize ctx).worth = 0 + (0 + (ctx.value + AccountType.authorize.pledge)) := rfl
    omega

theorem supply_registerLose_le (h : w.RegisterBacked ctx (createAddress X ctx.fromAddr ctx.nonce)) :
    (w.registerLose X ctx).supply ≤ w.supply := by
  refine supply_register (w := w) _ (newLoss ctx) (createAddress X ctx.fromAddr ctx.nonce) _
    (supply_updateLossMark _ _ _) ?_ h ?_
  · -- the sender carries a balance, so it is not the account of the marks being created
    have hsome : w ctx.fromAddr ≠ none := fun hn => by
      have hholder := h.2.1
      rw [hn] at hholder
      cases hholder
    rw [funding_updateLossMark, put_of_ne _ _ (Ne.symm h.1), if_neg fun hn => hsome hn.2]
  · have : (newLoss ctx).worth = 0 + (0 + (0 + (AccountType.loss.pledge : Int))) := rfl
    omega

theorem supply_transfer_le (dest : Address) (h : w.TransferBacked ctx) :
    (w.transfer ctx dest).supply ≤ w.supply := by
  unfold transfer
  split
  · exact le_refl _
  next hzero =>
    have hholder : funding (w ctx.fromAddr) = .holder := h.resolve_left hzero
    have hnew : (w dest).isNone = decide (funding (w dest) = .missing) := by
      rw [Bool.eq_iff_iff, decide_eq_true_iff, funding_eq_missing, isNone_iff_eq_none]
    rw [supply_credit, supply_credit, funding_credit, hnew, hholder]
    by_cases hsame : dest = ctx.fromAddr
    · subst hsame
      rw [if_pos rfl, hholder]
      simp [gain, Funding.paid]
    · rw [if_neg hsame]
      cases funding (w dest) <;> simp [gain]

/-- Votes are taken from the balance, where there is one. -/
theorem worth_castVote_le (o : StateObject) (addr : Address) (v : Nat) :
    ((credited (-v) (some o)).addVote addr v).worth ≤ o.worth := by
  have hbalance := countsBalance_worth o (o.balance + -v)
  simp only [credited, getD_some, addVote]
  rw [countsVotes_worth, hbalance, setBalance_accountType, setBalance_voteValue]
  by_cases hr : o.accountType = .regular
  · have hh : o.accountType.holdsBalance = true := by rw [hr]; rfl
    rw [if_pos hh, if_pos hr]
    omega
  · rw [if_neg hr]
    split <;> omega

theorem supply_vote_le (h : w.VoteBacked ctx) (hw : w.vote ctx = some w') :
    w'.supply ≤ w.supply := by
  rcases vote_eq_some hw with ⟨-, rfl⟩ | ⟨addr, v, hd, rfl⟩
  · exact le_refl _
  · obtain ⟨o, ho⟩ := ne_none_iff_exists'.mp (h addr hd)
    have hcast := worth_castVote_le o addr ctx.value
    rw [supply_congr (view_modify (worth_setAuthorizeVote · v) _ addr), castVote, supply,
      sum_put_of_some _ ho, ho, supply]
    omega

/-- The pledge that is paid out is the one the closed account leaves behind. -/
theorem supply_cancellation_le (h : w.CancellationBacked ctx) (hw : w.cancellation ctx = some w') :
    w'.supply ≤ w.supply := by
  unfold cancellation at hw
  split at hw
  · cases hw; exact le_refl _
  next d hd =>
    split at hw
    · cases hw; exact le_refl _
    next o ho =>
      obtain ⟨hbeneficiary, hopen⟩ := h d hd o ho
      obtain ⟨x, hx⟩ := credit_of_some ho d.beneficiaryAddress
        (cancellationPledge o.accountType)
      have hpaid := gain_le AccountType.regular.pledge
        (Int.natCast_nonneg (cancellationPledge o.accountType))
        (fun hm => hbeneficiary (funding_eq_missing.mp hm))
      have hpledge : (cancellationPledge o.accountType : Int) ≤ o.openPledge := by
        rw [openPledge, hopen, creationPledge]
        cases o.accountType <;> decide
      rw [supply_suicide hx hw, supply_credit, openPledge_setBalance]
      omega

theorem supply_cancellationLoss_le (h : w.CancellationLossBacked ctx)
    (hw : w.cancellationLoss ctx = some w') : w'.supply ≤ w.supply := by
  unfold cancellationLoss at hw
  split at hw
  · cases hw; exact le_refl _
  next addr hd =>
    split at hw
    · cases hw
    next loss hl =>
      split at hw
      · cases hw; exact le_refl _
      next benefit hb =>
        have hbenefit : w loss.lossAccount.newAccount ≠ none := by rw [hb]; exact some_ne_none _
        obtain ⟨htype, hopen, lost, hlost, hltype, hlopen⟩ := h addr hd loss hl hbenefit
        obtain ⟨w₁, hw₁, hw₂⟩ := bind_eq_some_iff.mp hw
        obtain ⟨x, hx⟩ := credit_of_some hl loss.lossAccount.newAccount
          (AccountType.loss.pledge + AccountType.regular.pledge)
        obtain ⟨y, hy⟩ := credit_of_some hlost loss.lossAccount.newAccount
          (AccountType.loss.pledge + AccountType.regular.pledge)
        -- the report is a Loss account and the lost account a Regular one
        have hne : loss.lossAccount.lostAccount ≠ addr := by
          intro heq
          rw [heq, hl] at hlost
          cases hlost
          rw [htype] at hltype
          cases hltype
        have hlost₁ : w₁ loss.lossAccount.lostAccount = some (lost.setBalance y) := by
          rw [suicide_eq_modify hw₁, modify_of_ne hne, hy]
        have hpaid := gain_le AccountType.regular.pledge
          (v := AccountType.loss.pledge + AccountType.regular.pledge) (by decide)
          (fun hm => hbenefit (funding_eq_missing.mp hm))
        have hloss : loss.openPledge = AccountType.loss.pledge := by
          rw [openPledge, hopen, creationPledge, htype]
          rfl
        have hregular : lost.openPledge = AccountType.regular.pledge := by
          rw [openPledge, hlopen, creationPledge, hltype]
          rfl
        rw [supply_suicide hlost₁ hw₂, supply_suicide hx hw₁, supply_credit, openPledge_setBalance,
          openPledge_setBalance, hloss, hregular]
        omega

/-- Marks are worth nothing, and the only account that comes with them is the one that keeps
them. -/
theorem unmarked_spec (w : World) (ctx : TxContext) (rejected : Bool) (loss : StateObject) :
    (w.unmarked ctx rejected loss).supply = w.supply ∧
      ∀ a, funding (w.unmarked ctx rejected loss a) = w.markedFunding a := by
  refine ⟨supply_congr (view_unmarked unreported_worth w ctx rejected loss), fun a => ?_⟩
  unfold unmarked
  split
  · rw [funding_congr (map_setRegularLossState _ (fun _ _ => rfl) _ _ _ _), funding_updateLossMark]
    rfl
  · exact funding_updateLossMark _ _ _ a

/-- The pledge of the report is paid to an account that exists. -/
theorem supply_closeReport_le (h : w.RemoveLossReportBacked ctx) (rejected : Bool)
    (hw : w.closeReport ctx rejected = some w') : w'.supply ≤ w.supply := by
  unfold closeReport at hw
  split at hw
  · cases hw; exact le_refl _
  next addr hd =>
    split at hw
    · cases hw
    next loss hl =>
      obtain ⟨hfund, htype, hopen⟩ := h addr hd loss hl
      obtain ⟨hsame, hfunding⟩ := unmarked_spec w ctx rejected loss
      obtain ⟨m, t, hm⟩ := unmarked_of_some hl ctx rejected loss
      obtain ⟨x, hx⟩ := credit_of_some hm ctx.fromAddr AccountType.loss.pledge
      have hpaid :=
        gain_le AccountType.regular.pledge (Int.natCast_nonneg AccountType.loss.pledge) hfund
      have hpledge : ({ loss with lossMarkAccount := m }.setLossType t).openPledge =
          (AccountType.loss.pledge : Int) := by
        rw [hopen, htype]
        rfl
      rw [supply_suicide hx hw, supply_credit, hfunding, hsame, openPledge_setBalance, hpledge]
      omega

theorem supply_revealLossReport_le (h : w.RevealLossReportBacked ctx)
    (hw : w.revealLossReport ctx = some w') : w'.supply ≤ w.supply := by
  unfold revealLossReport at hw
  split at hw
  · cases hw; exact le_refl _
  next d hd =>
    split at hw
    · cases hw
    next loss hl =>
      simp only [map_eq_some_iff] at hw
      obtain ⟨height, -, rfl⟩ := hw
      obtain ⟨-, hsum, hfund⟩ := revealed_spec unreported_worth w ctx d hl
      obtain ⟨hold, hfrom, hvalue⟩ := h d hd
      rw [supply_credit, supply_credit, supply, hsum, funding_credit, hfund, hfund, ← supply]
      by_cases hsame : d.oldAccount = ctx.fromAddr
      · rw [if_pos hsame]
        cases hk : w.markedFunding ctx.fromAddr with
        | missing => exact absurd hk hfrom
        | plain => simp [gain, Funding.paid]
        | holder => simp [gain, Funding.paid]
      · rw [if_neg hsame]
        have hto := gain_le AccountType.regular.pledge (Int.natCast_nonneg ctx.value) hold
        rcases hvalue with hzero | hholder
        · rw [hzero] at hto ⊢
          cases hk : w.markedFunding ctx.fromAddr with
          | missing => exact absurd hk hfrom
          | plain => simp only [gain] at hto ⊢; omega
          | holder => simp only [gain] at hto ⊢; omega
        · rw [hholder]
          simp only [gain] at hto ⊢
          omega

/-- Votes that move to another account do not grow on the way. -/
theorem votesGain_le {lost benefit : StateObject} (h : votesMove lost benefit = some true →
      lost.accountType = .regular ∧ 0 ≤ benefit.regularAccount.voteValue.getD 0) :
    votesGain lost benefit ≤ 0 := by
  unfold votesGain
  split
  next hmove =>
    obtain ⟨hregular, hvotes⟩ := h hmove
    obtain ⟨hpos, -⟩ := votesMove_eq_true hmove
    split <;> omega
  · exact le_refl _

theorem supply_transferLostAccount_le (h : w.TransferLostAccountBacked ctx)
    (hw : w.transferLostAccount ctx = some w') : w'.supply ≤ w.supply := by
  rcases transferLostAccount_eq_some hw with rfl | ⟨addr, loss, w₁, hd, ha, rfl, hw₁⟩
  · exact le_refl _
  · rw [supply_congr
      (view_modify (f := (·.setLossState .success)) (fun o => unreported_worth.loss o _) w₁ addr)]
    rcases hw₁ with rfl | ⟨lost, benefit, hl, hb, hw₁⟩
    · exact le_refl _
    · have hgain := votesGain_le (h addr hd loss ha lost hl benefit hb)
      rw [supply, sum_transferLostAssets countsBalance_worth countsVotes_worth hl hb hw₁, supply]
      split <;> omega

theorem supply_redemptionForAuthorize_le {addr : Address} {voteValue : Option Int}
    (h : voteValue = none → ∀ o, w addr = some o → 0 ≤ o.authorizePledge)
    (hw : w.redemptionForAuthorize addr voteValue = some w') : w'.supply ≤ w.supply := by
  unfold redemptionForAuthorize at hw
  split at hw
  · cases hw; exact le_refl _
  next o ho =>
    simp only [redeemed] at hw
    obtain ⟨p, hp, rfl⟩ := map_eq_some_iff.mp hw
    have hworth : p.worth ≤ o.worth := by
      split at hp
      · split at hp
        · cases hp
          have hpledge := h rfl o ho
          rw [worth_setStake]
          split <;> omega
        · cases hp
          exact le_of_eq (worth_setAuthorizeVote o _)
      · cases hp
    rw [supply, sum_put_of_some _ ho, supply]
    omega

/-- The votes paid back are the votes the sender no longer has. -/
theorem supply_redeemVotes_le {addr : Address} (hw : w.redeemVotes ctx addr = some w') :
    w'.supply ≤ w.supply := by
  obtain ⟨o, ho, ⟨-, rfl⟩ | ⟨-, hr, v, hv, hw⟩⟩ := redeemVotes_eq_some hw
  · exact le_refl _
  · refine le_trans (supply_redemptionForAuthorize_le (fun h => by cases h) hw) (le_of_eq ?_)
    have hh : o.accountType.holdsBalance = true := by rw [hr]; rfl
    have hbalance := countsBalance_worth o (o.balance + v)
    rw [supply, sum_put_of_some _ ho, countsVotes_worth, hbalance, setBalance_accountType,
      setBalance_voteValue, if_pos hr, if_pos hh, hv, supply, getD_some]
    omega

theorem supply_redemption_le (h : w.RedemptionBacked ctx) (hw : w.redemption ctx = some w') :
    w'.supply ≤ w.supply := by
  unfold redemption at hw
  split at hw
  · cases hw; exact le_refl _
  next addr hd =>
    split at hw
    next ho =>
      obtain ⟨w₁, hw₁, hw₂⟩ := bind_eq_some_iff.mp hw
      refine le_trans (supply_redeemVotes_le hw₂) ?_
      split at hw₁
      next howner =>
        refine supply_redemptionForAuthorize_le (fun _ p hp => ?_) hw₁
        rw [ho] at hp
        cases hp
        exact h addr hd _ ho howner
      · cases hw₁
        exact le_refl _
    · cases hw
      exact le_refl _

/-- **One call.** -/
theorem supply_callDB_le (h : w.Backed X ctx) (hw : w.callDB X ctx = some w') :
    w'.supply ≤ w.supply := by
  have hcall := hw
  unfold callDB at hw
  unfold Backed at h
  split at hw
  · cases hw; exact le_refl _
  next dest hto =>
    simp only [hto] at hw h
    have hclerical := view_clerical detached_worth hto hcall
    cases hop : operationOf dest <;> simp only [hop] at hw h hclerical
    case registerPns => cases hw; exact supply_registerPns_le h
    case registerAuthorize => cases hw; exact supply_registerAuthorize_le h
    case registerLose => cases hw; exact supply_registerLose_le h
    case cancellation => exact supply_cancellation_le h hw
    case vote => exact supply_vote_le h hw
    case redemption => exact supply_redemption_le h hw
    case cancellationLostAccount => exact supply_cancellationLoss_le h hw
    case revealLossReport => exact supply_revealLossReport_le h hw
    case transferLostAccountBalance => exact supply_transferLostAccount_le h hw
    case removeLossReport => exact supply_closeReport_le h false hw
    case rejectLossReport => exact supply_closeReport_le h true hw
    case modifyLossType =>
      cases hw; exact le_of_eq (supply_congr (view_modifyLossType unreported_worth))
    case transfer => cases hw; exact supply_transfer_le dest h
    all_goals exact le_of_eq (supply_congr (hclerical rfl))

end World

/-! ## 4. Whole blocks -/

/-- What happens to the accounts in a block: calls, and the ends of transactions. -/
inductive BlockStep where
  | call (ctx : TxContext)
  | finalise

def blockStep (X : Externals) (s : StateDB) : BlockStep → Option StateDB
  | .call ctx => callDB X s ctx
  | .finalise => some s.finalise

/-- A call is backed, and the accounts that are deleted are not in debt. -/
def BlockStep.Backed (X : Externals) (s : StateDB) : BlockStep → Prop
  | .call ctx => s.world.Backed X ctx
  | .finalise => ∀ a o, s.world a = some o → o.suicided → 0 ≤ o.worth

namespace StateDB

/-- What the end of a transaction does to an account. -/
theorem world_finalise (s : StateDB) (a : Address) :
    s.finalise.world a = (s.world a).bind fun o =>
      if a ∈ s.dirties then (if o.suicided then none else some o.finalise) else some o := by
  simp only [world_apply, getStateObject, finalise]
  cases hs : s.stateObjects a with
  | none => rfl
  | some o =>
    cases hdel : o.deleted <;> cases hsui : o.suicided <;> by_cases ha : a ∈ s.dirties <;>
      simp [ha, hdel, hsui, StateObject.finalise]

theorem supply_finalise_le {s : StateDB}
    (h : ∀ a o, s.world a = some o → o.suicided → 0 ≤ o.worth) :
    s.finalise.world.supply ≤ s.world.supply := by
  refine sum_le_sum fun a => ?_
  rw [world_finalise]
  cases ho : s.world a with
  | none => exact le_refl _
  | some o =>
    rw [bind_some]
    split
    · split
      · exact h a o ho ‹_›
      · exact le_refl _
    · exact le_refl _

end StateDB

/-- **A step of a block.** -/
theorem supply_blockStep_le {X : Externals} {s s' : StateDB} {b : BlockStep} (h : b.Backed X s)
    (hs : blockStep X s b = some s') : s'.world.supply ≤ s.world.supply := by
  cases b with
  | call ctx => exact supply_callDB_le h (world_callDB hs)
  | finalise => cases hs; exact supply_finalise_le h

/-- **The supply never rises along a block whose steps are backed.**  Between transactions that is
the sum of all balances, votes and pledges. -/
theorem supply_le_of_backed {X : Externals} {steps : List BlockStep} {s s' : StateDB}
    (h : Run.Along (blockStep X) (fun s b => b.Backed X s) steps s)
    (hrun : Run.run (blockStep X) steps s = some s') :
    s'.world.supply ≤ s.world.supply ∧
      (s.world.Settled → s'.world.Settled → s'.world.total ≤ s.world.total) := by
  have hle : s'.world.supply ≤ s.world.supply :=
    Run.run_rel (R := fun s s' => s'.world.supply ≤ s.world.supply) (fun _ => le_refl _)
      (fun hst htu => le_trans htu hst) supply_blockStep_le h hrun
  refine ⟨hle, fun hs hs' => ?_⟩
  rwa [supply_eq_total hs, supply_eq_total hs'] at hle

theorem settled_ofAccounts (accounts : List (Address × StateObject))
    (h : ∀ p ∈ accounts, p.2.suicided = false) : (ofAccounts accounts).world.Settled :=
  fun _ _ ho => h _ (mem_of_world_ofAccounts ho)

/-- Two payments from accounts that exist, the second to a new one. -/
theorem supply_le_of_backed_payments : ∃ s',
    Run.run (blockStep plainExternals)
      [.finalise, .call { fromAddr := 1, toAddr := some 2, value := 3, data := [] },
        .call { fromAddr := 2, toAddr := some 0x1000, value := 2, data := [] }]
      (ofAccounts [(1, .ofBalance 5), (2, .ofBalance 0)]) = some s' ∧
    s'.world.supply ≤ (ofAccounts [(1, .ofBalance 5), (2, .ofBalance 0)]).world.supply := by
  have hrun : Run.run (blockStep plainExternals)
      [.finalise, .call { fromAddr := 1, toAddr := some 2, value := 3, data := [] },
        .call { fromAddr := 2, toAddr := some 0x1000, value := 2, data := [] }]
      (ofAccounts [(1, .ofBalance 5), (2, .ofBalance 0)]) = some _ := rfl
  refine ⟨_, hrun, (supply_le_of_backed ?_ hrun).1⟩
  refine ⟨?_, ?_⟩
  · intro a o ho hclosed
    have hopen := settled_ofAccounts [(1, .ofBalance 5), (2, .ofBalance 0)]
      (by simp [StateObject.ofBalance]) a o ho
    rw [hopen] at hclosed
    cases hclosed
  · rintro _ ⟨rfl⟩
    refine ⟨.inr rfl, ?_⟩
    rintro _ ⟨rfl⟩
    exact ⟨.inr rfl, fun _ _ => trivial⟩

/-- Closing the Regular account `1` in favour of `2`. -/
def closeCall : TxContext :=
  { fromAddr := 1, toAddr := some 0x104, value := 0,
    data := Rlp.encodeList
      (Rlp.encodeString (Address.bytes 1) ++ Rlp.encodeString (Address.bytes 2)) }

/-- Closing an account twice in one transaction pays its creation pledge twice. -/
theorem closing_twice_raises_supply : ∃ s',
    Run.run (blockStep plainExternals) [.call closeCall, .call closeCall, .finalise]
      (ofAccounts [(1, .ofBalance 0), (2, .ofBalance 0)]) = some s' ∧
    s'.world.total = (ofAccounts [(1, .ofBalance 0), (2, .ofBalance 0)]).world.total +
      AccountType.regular.pledge := by
  obtain ⟨s₁, s₂, h₁, h₂, hdirty⟩ : ∃ s₁ s₂,
      callDB plainExternals (ofAccounts [(1, .ofBalance 0), (2, .ofBalance 0)]) closeCall =
        some s₁ ∧
      callDB plainExternals s₁ closeCall = some s₂ ∧
      s₂.dirties = [1, 2, 1, 2] := ⟨_, _, rfl, rfl, rfl⟩
  refine ⟨s₂.finalise, by simp only [Run.run, blockStep, h₁, h₂, bind_some], ?_⟩
  generalize hs : ofAccounts [(1, .ofBalance 0), (2, .ofBalance 0)] = s at h₁ ⊢
  have hw₁ : s₁.world = (s.world.credit 2 AccountType.regular.pledge).put 1
      (StateObject.ofBalance 0).markSuicided := by
    subst hs
    exact some.inj ((world_callDB h₁).symm.trans rfl)
  have hw₂ : s₂.world = (s₁.world.credit 2 AccountType.regular.pledge).put 1
      (StateObject.ofBalance 0).markSuicided := by
    have h := world_callDB h₂
    rw [hw₁] at h ⊢
    subst hs
    exact some.inj (h.symm.trans rfl)
  have hclosed : s₂.finalise.world 1 = none := by
    rw [world_finalise, hdirty, hw₂, put_self]
    rfl
  have hpaid : s₂.finalise.world 2 =
      some (StateObject.ofBalance (2 * AccountType.regular.pledge)).finalise := by
    rw [world_finalise, hdirty, hw₂, hw₁, ← hs]
    rfl
  have hrest : ∀ i, i ∉ ({1, 2} : Finset Address) → s₂.finalise.world i = s.world i := by
    intro i hi
    simp only [Finset.mem_insert, Finset.mem_singleton, not_or] at hi
    rw [world_finalise, hdirty, hw₂, put_of_ne _ _ hi.1, credit,
      put_of_ne _ _ hi.2, hw₁, put_of_ne _ _ hi.1, credit, put_of_ne _ _ hi.2]
    have hclean : i ∉ ([1, 2, 1, 2] : List Address) := by
      simp only [List.mem_cons, List.not_mem_nil, or_false, not_or]
      exact ⟨hi.1, hi.2, hi.1, hi.2⟩
    simp only [if_neg hclean, bind_fun_some]
  have hdiff := Ledger.total_sub_total (fun o => o.elim 0 StateObject.assets) s.world
    s₂.finalise.world {1, 2} hrest
  rw [Finset.sum_pair (by decide), hclosed, hpaid, ← hs] at hdiff
  rw [total, total, sum, sum, ← hs]
  change _ - _ = (0 - (0 + (0 + (0 + (10000000000000000 : Int))))) +
    (20000000000000000 + (0 + (0 + 10000000000000000)) - (0 + (0 + (0 + 10000000000000000))))
    at hdiff
  have hpledge : (AccountType.regular.pledge : Int) = 10000000000000000 := rfl
  omega

end ProbeChain
