/-
# When `CallDB` returns

The operations dereference what they find.  A missing loss report, an account closed while one of
its amounts was never set, a vote for something that is not an Authorize account: each is a nil
pointer, and the process that runs the block stops.

`callDB_returns_iff` says exactly when a call returns, as a condition on the accounts before the
call and on the decoded payload (`World.Returns`).  Registering, transferring, and changing owners,
contents or loss types never panic; everything else can.
-/
import ProbeChain.State.Refinement

namespace ProbeChain

open Option

namespace World

open StateObject

/-! ## 1. The condition, operation by operation -/

section
variable (w : World) (ctx : TxContext)

/-- The account to close has every amount that closing it reads. -/
def CancellationReturns : Prop :=
  ∀ d, decodeCancellation ctx.data = some d → ∀ o, w d.cancelAddress = some o → o.closable

/-- The candidate has accumulated votes, or does not exist.  A missing sender is created by the
vote, and then it does exist. -/
def VoteReturns : Prop :=
  ∀ addr, decodeAddress ctx.data = some addr →
    match w addr with
    | some o => o.authorizeAccount.voteValue.isSome
    | none => addr ≠ ctx.fromAddr

/-- The account that applies has accumulated votes, and the block has a round. -/
def ApplyToBeDPoSNodeReturns : Prop :=
  ∀ d, decodeApplyDPos ctx.data = some d → ∀ o, w d.voteAddress = some o →
    o.authorizeAccount.voteValue.isSome ∧
    ∃ n, ctx.blockNumber = some n ∧ (UInt64.ofNat n = 0 ∨ ctx.pobEpoch ≠ 0)

/-- An owner's pledge is struck off an account that has amounts; votes are paid back to a Regular
account that has them, off an account that has amounts. -/
def RedemptionReturns : Prop :=
  ∀ addr, decodeAddress ctx.data = some addr →
    ∀ sender, w ctx.fromAddr = some sender → ∀ o, w addr = some o →
    (ctx.fromAddr = o.authorizeAccount.owner ∨ addr = sender.regularAccount.voteAccount →
      o.authorizeAccount.pledgeValue.isSome ∧ o.authorizeAccount.voteValue.isSome) ∧
    (addr = sender.regularAccount.voteAccount →
      sender.regularAccount.voteValue.isSome ∧ sender.accountType = .regular)

/-- The report exists, and if its beneficiary does, report and lost account can be closed. -/
def CancellationLossReturns : Prop :=
  ∀ addr, decodeAddress ctx.data = some addr →
    ∃ loss, w addr = some loss ∧
      (∀ benefit, w loss.lossAccount.newAccount = some benefit →
        loss.closable ∧ ∀ lost, w loss.lossAccount.lostAccount = some lost → lost.closable)

/-- The report exists and has a height. -/
def RevealLossReportReturns : Prop :=
  ∀ d, decodeRevealLossReport ctx.data = some d →
    ∃ loss, w d.lossAccount = some loss ∧ loss.lossAccount.height.isSome

/-- Of two accounts that exist, the lost one has a vote amount, and so has the beneficiary if
that amount is positive and cast for somebody. -/
def TransferLostAccountReturns : Prop :=
  ∀ addr, decodeAddress ctx.data = some addr → ∀ loss, w addr = some loss →
    ∀ lost, w loss.lossAccount.lostAccount = some lost →
    ∀ benefit, w loss.lossAccount.newAccount = some benefit →
    ∃ v, lost.regularAccount.voteValue = some v ∧
      (0 < v ∧ lost.regularAccount.voteAccount ≠ 0 → benefit.regularAccount.voteValue.isSome)

/-- The report to remove or reject exists and can be closed. -/
def RemoveLossReportReturns : Prop :=
  ∀ addr, decodeAddress ctx.data = some addr → ∃ loss, w addr = some loss ∧ loss.closable

def Returns : Prop :=
  ∀ dest, ctx.toAddr = some dest →
    match operationOf dest with
    | .cancellation => w.CancellationReturns ctx
    | .vote => w.VoteReturns ctx
    | .applyToBeDPoSNode => w.ApplyToBeDPoSNodeReturns ctx
    | .redemption => w.RedemptionReturns ctx
    | .cancellationLostAccount => w.CancellationLossReturns ctx
    | .revealLossReport => w.RevealLossReportReturns ctx
    | .transferLostAccountBalance => w.TransferLostAccountReturns ctx
    | .removeLossReport => w.RemoveLossReportReturns ctx
    | .rejectLossReport => w.RemoveLossReportReturns ctx
    | _ => True

end

/-! ## 2. Each operation returns exactly then -/

variable {w : World} {a : Address} {o : StateObject}

theorem suicide_isSome : (w.suicide a).isSome ↔ ∀ o, w a = some o → o.closable := by
  unfold suicide
  cases h : w a with
  | none => simp
  | some o => cases hc : o.closable <;> simp [hc]

/-- Closing an account that exists, after something that left its closability alone. -/
theorem suicide_isSome_of_some (h : w a = some o) : (w.suicide a).isSome ↔ o.closable := by
  rw [suicide_isSome]
  exact ⟨fun hc => hc o h, fun hc p hp => by rw [h] at hp; cases hp; exact hc⟩

/-- Closing two accounts, the first of which exists: marking it does not get in the way of closing
it again. -/
theorem suicide_suicide_isSome (h : w a = some o) (b : Address) :
    ((w.suicide a).bind (·.suicide b)).isSome ↔ o.closable ∧ ∀ p, w b = some p → p.closable := by
  rw [suicide, h]
  cases hc : o.closable with
  | false => simp [hc]
  | true =>
    simp only [hc, if_true, bind_some, suicide_isSome, true_and]
    by_cases hb : b = a
    · subst hb
      simp only [put_self, h, some.injEq, forall_eq']
      exact .rfl
    · rw [put_of_ne _ _ hb]

/-- Paying an account that exists leaves the closability of every account alone. -/
theorem credit_closable (h : w a = some o) (v : Int) (b : Address) :
    (∀ p, w.credit a v b = some p → p.closable) ↔ ∀ p, w b = some p → p.closable := by
  by_cases hb : b = a
  · subst hb
    simp [credit, credited, h]
  · rw [credit, put_of_ne _ _ hb]

variable (w : World) (ctx : TxContext)

theorem cancellation_isSome : (w.cancellation ctx).isSome ↔ w.CancellationReturns ctx := by
  unfold cancellation CancellationReturns
  cases decodeCancellation ctx.data with
  | none => simp
  | some d =>
    simp only [some.injEq, forall_eq']
    cases h : w d.cancelAddress with
    | none => simp
    | some o =>
      obtain ⟨x, hx⟩ := credit_of_some h d.beneficiaryAddress
        (StateDB.cancellationPledge o.accountType)
      simp only [suicide_isSome_of_some hx, setBalance_closable, some.injEq, forall_eq']

theorem vote_isSome : (w.vote ctx).isSome ↔ w.VoteReturns ctx := by
  unfold vote VoteReturns
  cases decodeAddress ctx.data with
  | none => simp
  | some addr =>
    simp only [some.injEq, forall_eq', castVote]
    by_cases haddr : addr = ctx.fromAddr
    · subst haddr
      cases h : w ctx.fromAddr with
      | none => simp [addVote, setVote, credited]
      | some o => simp [addVote, setVote, credited]
    · rw [put_of_ne _ _ haddr]
      cases w addr with
      | none => simp [haddr]
      | some o => simp

theorem applyToBeDPoSNode_isSome (X : Externals) :
    (w.applyToBeDPoSNode X ctx).isSome ↔ w.ApplyToBeDPoSNodeReturns ctx := by
  unfold applyToBeDPoSNode ApplyToBeDPoSNodeReturns
  cases decodeApplyDPos ctx.data with
  | none => simp
  | some d =>
    simp only [some.injEq, forall_eq']
    cases w d.voteAddress with
    | none => simp
    | some o =>
      simp only [some.injEq, forall_eq']
      cases o.authorizeAccount.voteValue with
      | none => simp
      | some v =>
        cases ctx.blockNumber with
        | none => simp
        | some n =>
          simp only [bind_eq_bind, bind_some, isSome_some, true_and,
            some.injEq, exists_eq_left', ← calcValidatorRoundId_isSome]
          cases calcValidatorRoundId (UInt64.ofNat n) ctx.pobEpoch <;> simp

theorem cancellationLoss_isSome :
    (w.cancellationLoss ctx).isSome ↔ w.CancellationLossReturns ctx := by
  unfold cancellationLoss CancellationLossReturns
  cases decodeAddress ctx.data with
  | none => simp
  | some addr =>
    simp only [some.injEq, forall_eq']
    cases h : w addr with
    | none => simp
    | some loss =>
      simp only [some.injEq, exists_eq_left']
      cases hb : w loss.lossAccount.newAccount with
      | none => simp
      | some benefit =>
        simp only [some.injEq, forall_eq']
        obtain ⟨x, hx⟩ := credit_of_some h loss.lossAccount.newAccount
          (AccountType.loss.pledge + AccountType.regular.pledge)
        rw [suicide_suicide_isSome hx, setBalance_closable, credit_closable hb]

/-- Striking off works on an account that has amounts, and leaves it with amounts. -/
theorem redemptionForAuthorize_isSome {w : World} {a : Address} {o : StateObject}
    (h : w a = some o) (v : Option Int) :
    (w.redemptionForAuthorize a v).isSome ↔
      o.authorizeAccount.pledgeValue.isSome ∧ o.authorizeAccount.voteValue.isSome := by
  unfold redemptionForAuthorize redeemed
  rw [h]
  cases hp : o.authorizeAccount.pledgeValue with
  | none => simp [hp]
  | some pledge =>
    cases hv : o.authorizeAccount.voteValue with
    | none => simp [hp, hv]
    | some vote => cases v <;> simp [hp, hv]

theorem redeemVotes_isSome {w : World} {ctx : TxContext} {addr : Address}
    {sender o : StateObject} (hs : w ctx.fromAddr = some sender) (ho : w addr = some o) :
    (w.redeemVotes ctx addr).isSome ↔
      (addr = sender.regularAccount.voteAccount →
        (sender.regularAccount.voteValue.isSome ∧ sender.accountType = .regular) ∧
        o.authorizeAccount.pledgeValue.isSome ∧ o.authorizeAccount.voteValue.isSome) := by
  unfold redeemVotes
  simp only [hs]
  split
  next haddr =>
    simp only [haddr, true_implies]
    rw [← haddr]
    cases hv : sender.regularAccount.voteValue with
    | none => simp
    | some voteValue =>
      by_cases htype : sender.accountType = .regular
      · -- the account that is redeemed from may be the sender itself
        obtain ⟨p, hp, hauth⟩ := exists_put (g := authorizeAccount) hs
          (p := (sender.setBalance (sender.regularAccount.value + voteValue)).setVote 0 0)
          (setBalance_authorizeAccount sender _) ho
        simp only [regularValue, htype, if_true, redemptionForAuthorize_isSome hp, hauth,
          isSome_some, true_and]
      · simp [regularValue, htype]
  next haddr =>
    simp [haddr]

theorem redemption_isSome : (w.redemption ctx).isSome ↔ w.RedemptionReturns ctx := by
  unfold redemption RedemptionReturns
  cases decodeAddress ctx.data with
  | none => simp
  | some addr =>
    cases hs : w ctx.fromAddr with
    | none => simp
    | some sender =>
      simp only [some.injEq, forall_eq']
      cases ho : w addr with
      | none => simp
      | some o =>
        simp only [some.injEq, forall_eq']
        split
        next howner =>
          cases hp : o.authorizeAccount.pledgeValue with
          | none => simp [redemptionForAuthorize, ho, redeemed, howner, hp]
          | some pledge =>
            cases hv : o.authorizeAccount.voteValue with
            | none => simp [redemptionForAuthorize, ho, redeemed, howner, hp, hv]
            | some vote =>
              -- striking off the pledge leaves the votes of the sender alone
              obtain ⟨p, hp', hsame⟩ :=
                exists_put (g := fun o => (o.regularAccount, o.accountType)) ho
                (p := o.setStake 0 (vote - pledge)) rfl hs
              obtain ⟨hreg, htype⟩ := Prod.mk.inj hsame
              simp only [redemptionForAuthorize, ho, redeemed, hp, hv, map_some,
                bind_some, redeemVotes_isSome hp' (put_self w addr _), hreg, htype]
              simp [setStake]
        next howner =>
          simp only [bind_some, redeemVotes_isSome hs ho, howner, false_or]
          exact ⟨fun h => ⟨fun hv => (h hv).2, fun hv => (h hv).1⟩,
            fun h hv => ⟨h.2 hv, h.1 hv⟩⟩

theorem transferLostVotes_isSome {w : World} {lostAddr benefitAddr : Address}
    {lost benefit : StateObject} (hl : w lostAddr = some lost) (hb : w benefitAddr = some benefit) :
    (w.transferLostVotes lostAddr benefitAddr).isSome ↔
      ∃ v, lost.regularAccount.voteValue = some v ∧
        (0 < v ∧ lost.regularAccount.voteAccount ≠ 0 →
          benefit.regularAccount.voteValue.isSome) := by
  unfold transferLostVotes votesMove
  rw [hl, hb]
  cases hv : lost.regularAccount.voteValue with
  | none => simp [hv]
  | some v =>
    simp only [hv, isSome_map, some.injEq, exists_eq_left']
    by_cases hmove : 0 < v ∧ lost.regularAccount.voteAccount ≠ 0
    · rw [if_pos hmove, isSome_map]
      exact ⟨fun h _ => h, fun h => h hmove⟩
    · rw [if_neg hmove]
      exact ⟨fun _ h => absurd h hmove, fun _ => rfl⟩

theorem transferLostAccount_isSome :
    (w.transferLostAccount ctx).isSome ↔ w.TransferLostAccountReturns ctx := by
  unfold transferLostAccount TransferLostAccountReturns
  cases decodeAddress ctx.data with
  | none => simp
  | some addr =>
    simp only [some.injEq, forall_eq']
    cases w addr with
    | none => simp
    | some loss =>
      simp only [some.injEq, forall_eq', isSome_map, transferLostAssets]
      cases hl : w loss.lossAccount.lostAccount with
      | none => simp
      | some lost =>
        cases hb : w loss.lossAccount.newAccount with
        | none => simp
        | some benefit =>
          simp only [some.injEq, forall_eq']
          obtain ⟨x, hx⟩ := transferLostBalance_of_some hl loss.lossAccount.lostAccount
            loss.lossAccount.newAccount lost
          obtain ⟨y, hy⟩ := transferLostBalance_of_some hb loss.lossAccount.lostAccount
            loss.lossAccount.newAccount lost
          rw [transferLostVotes_isSome hx hy, setBalance_voteValue, setBalance_voteAccount,
            setBalance_voteValue]

theorem revealLossReport_isSome :
    (w.revealLossReport ctx).isSome ↔ w.RevealLossReportReturns ctx := by
  unfold revealLossReport RevealLossReportReturns
  cases decodeRevealLossReport ctx.data with
  | none => simp
  | some d =>
    simp only [some.injEq, forall_eq']
    cases w d.lossAccount with
    | none => simp
    | some loss => simp

theorem closeReport_isSome (rejected : Bool) :
    (w.closeReport ctx rejected).isSome ↔ w.RemoveLossReportReturns ctx := by
  unfold closeReport RemoveLossReportReturns
  cases decodeAddress ctx.data with
  | none => simp
  | some addr =>
    simp only [some.injEq, forall_eq']
    cases h : w addr with
    | none => simp
    | some loss =>
      obtain ⟨m, t, hm⟩ := unmarked_of_some h ctx rejected loss
      obtain ⟨x, hx⟩ := credit_of_some hm ctx.fromAddr AccountType.loss.pledge
      simp only [suicide_isSome_of_some hx, setBalance_closable, some.injEq,
        exists_eq_left']
      rfl

theorem callDB_isSome_iff_returns (X : Externals) :
    (World.callDB X w ctx).isSome ↔ w.Returns ctx := by
  unfold World.callDB Returns
  cases ctx.toAddr with
  | none => simp
  | some dest =>
    simp only [some.injEq, forall_eq']
    cases operationOf dest with
    | cancellation => exact cancellation_isSome w ctx
    | vote => exact vote_isSome w ctx
    | applyToBeDPoSNode => exact applyToBeDPoSNode_isSome w ctx X
    | redemption => exact redemption_isSome w ctx
    | cancellationLostAccount => exact cancellationLoss_isSome w ctx
    | revealLossReport => exact revealLossReport_isSome w ctx
    | transferLostAccountBalance => exact transferLostAccount_isSome w ctx
    | removeLossReport => exact closeReport_isSome w ctx false
    | rejectLossReport => exact closeReport_isSome w ctx true
    | _ => simp

end World

/-! ## 3. The database -/

/-- **`CallDB` returns exactly when the accounts it dereferences have what it reads.** -/
theorem callDB_returns_iff (X : Externals) (s : StateDB) (ctx : TxContext) :
    (callDB X s ctx).isSome ↔ s.world.Returns ctx := by
  rw [callDB_isSome]
  exact World.callDB_isSome_iff_returns s.world ctx X

/-- Removing a loss report that does not exist, as any sender may ask for, panics. -/
theorem callDB_panics_on_missing_report :
    callDB plainExternals { stateObjects := fun _ => none }
      { fromAddr := 1, toAddr := some 0x111, value := 0,
        data := Rlp.encodeList (Rlp.encodeString (Address.bytes 2)) } = none := by
  rfl

end ProbeChain
