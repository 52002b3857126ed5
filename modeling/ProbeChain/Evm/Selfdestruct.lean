/-
# Self-destruction and the sum of all balances

`opSuicide` credits the beneficiary with the balance of the contract, and `Suicide` marks the
contract; the balance is not taken from it.  The contract goes when the transaction is finalised,
but until then it can be paid from, or destroyed, again.

What counts is the LIVE balance: that of an account that has not been destroyed.  An action that
does not raise the sum of the live balances is `Covered`, and for the others it says what would
raise it.  When nothing is left to be deleted the sum of the live balances is the sum of all
balances, and so `balances_le_of_covered` is about the latter.
-/
import ProbeChain.Evm.Leftover

namespace ProbeChain

open Scope Option World StateDB

/-! ## 1. Live balances -/

namespace StateObject

/-- The balance, until the account is destroyed. -/
def live (o : StateObject) : Int := if o.suicided then 0 else o.balance

theorem unseenRecords_live : UnseenRecords live 0 where
  new t := by cases t <;> rfl

theorem live_of_suicided {o : StateObject} (h : o.suicided = true) : o.live = 0 := if_pos h

theorem live_of_not_suicided {o : StateObject} (h : o.suicided = false) : o.live = o.balance :=
  if_neg (ne_true_of_eq_false h)

theorem live_setNonce (o : StateObject) (n : UInt64) : (o.setNonce n).live = o.live := by
  rw [live, live, setNonce_suicided, balance_setNonce]

end StateObject

namespace World

open StateObject

/-- What is paid to the account counts. -/
def takes (w : World) (a : Address) : Bool :=
  (w a).elim true fun o => o.accountType.holdsBalance && !o.suicided

noncomputable def liveSum (w : World) : Int := w.sum live

theorem liveSum_congr {w w' : World} (h : w'.view live 0 = w.view live 0) :
    w'.liveSum = w.liveSum := sum_congr h

theorem live_credited (v : Int) (o : Option StateObject) :
    (credited v o).live = o.elim 0 live +
      if o.elim true (fun o => o.accountType.holdsBalance && !o.suicided) = true then v else 0 := by
  cases o with
  | none =>
    show (0 : Int) + v = 0 + if true = true then v else 0
    rw [if_pos rfl]
  | some o =>
    simp only [credited, getD_some, elim_some, live, setBalance_suicided,
      balance_setBalance]
    by_cases hs : o.suicided = true
    · simp [hs]
    · by_cases hh : o.accountType.holdsBalance = true
      · simp [hs, hh]
      · simp [hs, hh, balance_of_not_holds (Bool.eq_false_iff.mpr hh)]

theorem liveSum_credit (w : World) (a : Address) (v : Int) :
    (w.credit a v).liveSum = w.liveSum + if w.takes a = true then v else 0 := by
  rw [liveSum, credit, sum_put, live_credited, liveSum, takes]
  omega

theorem takes_credit (w : World) (a b : Address) (v : Int) :
    (w.credit a v).takes b = w.takes b := by
  unfold takes
  by_cases hb : b = a
  · subst hb
    rw [credit, put_self, elim_some, credited, setBalance_accountType, setBalance_suicided]
    cases w b with
    | none => rfl
    | some o => rfl
  · rw [credit, put_of_ne _ _ hb]

/-- Taking something from an account never adds to the sum. -/
theorem liveSum_credit_le (w : World) (a : Address) {v : Int} (hv : v ≤ 0) :
    (w.credit a v).liveSum ≤ w.liveSum := by
  rw [liveSum_credit]
  split <;> omega

/-- Closing an account takes its live balance out. -/
theorem liveSum_suicide {w w' : World} {a : Address} (hw : w.suicide a = some w') :
    w'.liveSum = w.liveSum - (w a).elim 0 live := by
  rw [suicide_eq_modify hw]
  cases ho : w a with
  | none => rw [modify_of_none ho, elim_none, Int.sub_zero]
  | some o =>
    have hmarked : o.markSuicided.live = 0 := rfl
    rw [modify_of_some ho, liveSum, sum_put_of_some _ ho, hmarked, elim_some, liveSum]
    omega

/-! ## 2. Calls of `CallDB` -/

/-- Whatever the operation pays out, it takes from where it counts. -/
def PaysCovered (w : World) (ctx : TxContext) (dest : Address) : Operation → Prop
  | .transfer => ctx.value = 0 ∨ w.takes ctx.fromAddr = true ∨ w.takes dest = false
  | .revealLossReport => ctx.value = 0 ∨ subject .revealLossReport ctx = none ∨
      ∃ o, w ctx.fromAddr = some o ∧ w.takes ctx.fromAddr = true
  | .transferLostAccountBalance =>
    ∀ a ∈ subject .transferLostAccountBalance ctx, ∀ loss, w a = some loss →
      ∀ lost, w loss.lossAccount.lostAccount = some lost → 0 < lost.balance → lost.suicided = false
  -- votes are not part of a balance until they are paid back
  | .redemption => ∀ a ∈ subject .redemption ctx, w a = none
  | _ => True

/-- **What has to hold before a call of `CallDB` for it not to raise the sum.**  Pledges and votes
that are paid back raise it, and so does replacing an account in debt. -/
structure HookCovered (X : Externals) (w : World) (ctx : TxContext) : Prop where
  replaces : ∀ a, registered X ctx = some a → ∀ o, w a = some o → 0 ≤ o.live
  closes : ∀ a ∈ closed w ctx, w a = none
  pays : ∀ dest ∈ ctx.toAddr, w.PaysCovered ctx dest (operationOf dest)

variable {X : Externals} {w w' : World} {ctx : TxContext}

theorem liveSum_transfer_le {dest : Address} (h : w.PaysCovered ctx dest .transfer) :
    (w.transfer ctx dest).liveSum ≤ w.liveSum := by
  unfold transfer
  split
  · exact le_refl _
  next hvalue =>
    have hreceived : (if (w dest).isNone then (ctx.value : Int) - AccountType.regular.pledge
        else ctx.value) ≤ ctx.value := by
      split <;> omega
    rw [liveSum_credit, liveSum_credit, takes_credit]
    rcases h.resolve_left hvalue with hfrom | hdest
    · rw [if_pos hfrom]
      split <;> omega
    · rw [if_neg (ne_true_of_eq_false hdest)]
      split <;> omega

/-- Something without a balance in place of something that is not a debt. -/
theorem liveSum_put_le {a : Address} {o : StateObject} (ho : o.live = 0)
    (h : ∀ p, w a = some p → 0 ≤ p.live) : (w.put a o).liveSum ≤ w.liveSum := by
  rw [liveSum, sum_put, ho, liveSum]
  cases hp : w a with
  | none => simp
  | some p =>
    have := h p hp
    simp only [elim_some]
    omega

theorem liveSum_vote_le (hw : w.vote ctx = some w') : w'.liveSum ≤ w.liveSum := by
  rcases vote_eq_some hw with ⟨-, rfl⟩ | ⟨addr, v, -, rfl⟩
  · exact le_refl _
  · rw [liveSum_congr (view_modify (f := (·.setAuthorizeVote v)) (fun _ => rfl) _ addr)]
    have hcredit := liveSum_congr (view_put_congr (w := w) (a := ctx.fromAddr)
      (unseenRecords_live.vote (credited (-ctx.value) (w ctx.fromAddr)) addr
        (ctx.value + (credited (-ctx.value) (w ctx.fromAddr)).regularAccount.voteValue.getD 0)))
    exact hcredit.trans_le (liveSum_credit_le w ctx.fromAddr (by omega))

/-- Before anything is paid, revealing changes no balance, and the sender stays what it is. -/
theorem revealed_live (ctx : TxContext) {d : RevealLossReportDecodeType} {loss : StateObject}
    (hl : w d.lossAccount = some loss) :
    let w₁ := ((w.put d.lossAccount (revealed ctx loss d)).updateLossMark
      loss.lossAccount.lastBits false).setRegularLossState d.oldAccount true
    w₁.liveSum = w.liveSum ∧ ∀ a o, w a = some o → w₁.takes a = w.takes a := by
  intro w₁
  refine ⟨liveSum_congr (view_revealed unseenRecords_live.toUnreported ctx hl), fun a o ho => ?_⟩
  have hput := map_put_of_some (fun o => (o.accountType, o.suicided)) hl
    (p := revealed ctx loss d) rfl a
  rw [ho, map_some] at hput
  obtain ⟨p, hp, hkind⟩ := map_eq_some_iff.mp hput
  obtain ⟨marks, hmarks⟩ := updateLossMark_of_some hp loss.lossAccount.lastBits false
  obtain ⟨t, ht⟩ := setRegularLossState_of_some hmarks d.oldAccount true
  have hkind : p.accountType = o.accountType ∧ p.suicided = o.suicided := Prod.mk.inj hkind
  rw [takes, takes, ho, show w₁ a = _ from ht]
  rw [hkind.1, hkind.2]
  rfl

theorem liveSum_revealLossReport_le {dest : Address} (h : w.PaysCovered ctx dest .revealLossReport)
    (hw : w.revealLossReport ctx = some w') : w'.liveSum ≤ w.liveSum := by
  unfold revealLossReport at hw
  split at hw
  · exact some.inj hw ▸ le_refl _
  next d hd =>
    split at hw
    · cases hw
    next loss hl =>
      obtain ⟨height, -, rfl⟩ := map_eq_some_iff.mp hw
      obtain ⟨hsum, htakes⟩ := revealed_live ctx hl
      rw [liveSum_credit, liveSum_credit, takes_credit, hsum]
      rcases h with hvalue | hnone | ⟨o, ho, hfrom⟩
      · rw [hvalue]
        simp
      · rw [subject, hd] at hnone
        cases hnone
      · rw [htakes _ o ho, if_pos hfrom]
        split <;> omega

/-- Of a balance that counts, at most as much arrives. -/
theorem liveSum_transferLostBalance_le {lostAddr benefitAddr : Address} {lost : StateObject}
    (hl : w lostAddr = some lost) (h : 0 < lost.balance → lost.suicided = false) :
    (w.transferLostBalance lostAddr benefitAddr lost).liveSum ≤ w.liveSum := by
  unfold transferLostBalance
  split
  next hpos =>
    have hlive : lost.live = lost.balance := live_of_not_suicided (h hpos)
    obtain ⟨x, hx⟩ := credit_of_some hl benefitAddr lost.balance
    have hzero : ((lost.setBalance x).setBalance 0).live = 0 := by
      rw [setBalance_setBalance, live, balance_setBalance]
      split <;> simp
    rw [modify_of_some hx, liveSum, sum_put_of_some _ hx, hzero]
    have hcredit := liveSum_credit w benefitAddr lost.balance
    have hbefore : lost.balance ≤ (lost.setBalance x).live := by
      by_cases hsame : lostAddr = benefitAddr
      · subst hsame
        rw [credit, put_self, hl] at hx
        rw [← some.inj hx, live_credited, elim_some, hlive]
        split <;> omega
      · rw [credit, put_of_ne _ _ hsame, hl] at hx
        rw [← some.inj hx, hlive]
    rw [liveSum] at hcredit
    rw [hcredit]
    split <;> omega
  · exact le_refl _

theorem liveSum_transferLostAccount_le {dest : Address}
    (h : w.PaysCovered ctx dest .transferLostAccountBalance)
    (hw : w.transferLostAccount ctx = some w') :
    w'.liveSum ≤ w.liveSum := by
  rcases transferLostAccount_eq_some hw with rfl | ⟨addr, loss, w₁, hd, hloss, rfl, hw₁⟩
  · exact le_refl _
  · have hstate : ∀ o : StateObject, (o.setLossState .success).live = o.live := fun _ => rfl
    rw [liveSum_congr (view_modify hstate w₁ addr)]
    rcases hw₁ with rfl | ⟨lost, benefit, hlost, -, hw₁⟩
    · exact le_refl _
    · rw [liveSum_congr (view_transferLostVotes unseenRecords_live.toVoteless hw₁)]
      exact liveSum_transferLostBalance_le hlost (h addr hd loss hloss lost hlost)

theorem cancellationLoss_of_closed (h : ∀ a ∈ closedWithReport w ctx, w a = none)
    (hw : w.cancellationLoss ctx = some w') : w' = w := by
  unfold cancellationLoss at hw
  split at hw
  · exact (some.inj hw).symm
  next addr hd =>
    split at hw
    · cases hw
    next loss hloss =>
      split at hw
      · exact (some.inj hw).symm
      next benefit hbenefit =>
        have hnone :=
          h addr (by simp only [closedWithReport, hd, hloss, hbenefit, List.mem_cons_self])
        rw [hloss] at hnone
        cases hnone

/-- **A covered call does not raise the sum of the live balances.** -/
theorem liveSum_callDB_le (h : w.HookCovered X ctx) (hw : w.callDB X ctx = some w') :
    w'.liveSum ≤ w.liveSum := by
  have hreplaces := h.replaces
  have hcall := hw
  unfold registered at hreplaces
  unfold callDB at hw
  split at hw
  · exact some.inj hw ▸ le_refl _
  next dest hto =>
    have hpays := h.pays dest hto
    have hclose := h.closes
    unfold closed at hclose
    rw [hto, bind_some] at hreplaces
    rw [hto, map_some] at hclose
    have hidle (h : Idle w ctx dest) : w'.liveSum ≤ w.liveSum := by
      rw [eq_of_idle (fun d hd => some.inj (hto.symm.trans hd) ▸ h) hcall]
    have hclerical := view_clerical unseenRecords_live.toDetached hto hcall
    cases hop : operationOf dest <;> rw [hop] at hw hpays hclose hreplaces hclerical <;>
      dsimp only at hw hclose hreplaces
    case registerPns =>
      obtain rfl := some.inj hw
      exact (liveSum_credit_le _ _ (by omega)).trans (liveSum_put_le rfl (hreplaces _ rfl))
    case registerAuthorize =>
      obtain rfl := some.inj hw
      exact (liveSum_credit_le _ _ (by omega)).trans (liveSum_put_le rfl (hreplaces _ rfl))
    case registerLose =>
      obtain rfl := some.inj hw
      refine (liveSum_credit_le _ _ (by omega)).trans ?_
      rw [liveSum_congr (view_updateLossMark unseenRecords_live.toUnreported _ _ _)]
      exact liveSum_put_le rfl (hreplaces _ rfl)
    case cancellation | removeLossReport | rejectLossReport =>
      refine hidle ?_
      rw [Idle, hop]
      exact fun a ha => hclose a (mem_toList.mpr ha)
    case vote => exact liveSum_vote_le hw
    case redemption =>
      refine hidle ?_
      rw [Idle, hop]
      exact hpays
    case cancellationLostAccount => rw [cancellationLoss_of_closed hclose hw]
    case revealLossReport => exact liveSum_revealLossReport_le hpays hw
    case transferLostAccountBalance => exact liveSum_transferLostAccount_le hpays hw
    case modifyLossType =>
      exact some.inj hw ▸
        le_of_eq (liveSum_congr (view_modifyLossType unseenRecords_live.toUnreported))
    case transfer => exact some.inj hw ▸ liveSum_transfer_le hpays
    all_goals exact le_of_eq (liveSum_congr (hclerical rfl))

/-! ## 3. Actions -/

/-- **What has to hold before an action for it not to raise the sum.**  A contract that has been
destroyed before has nothing left, or nobody to leave it to; one that has not leaves its debts to
somebody. -/
def Covered (X : Externals) (w : World) : Action → Prop
  | .hook _ _ _ ctx => w.HookCovered X ctx
  | .selfdestruct self beneficiary => ∀ o, w self = some o →
      if o.suicided then o.balance ≤ 0 ∨ w.takes beneficiary = false
      else 0 ≤ o.balance ∨ (self ≠ beneficiary ∧ w.takes beneficiary = true)
  | .op (.createContractAccount a) => ∀ o, w a = some o → o.suicided = true → o.balance ≤ 0
  | _ => True

theorem live_credit_apply (w : World) (a b : Address) (v : Int) :
    ((w.credit a v) b).elim 0 live = (w b).elim 0 live + if b = a ∧
    w.takes a = true then v else 0 := by
  by_cases hb : b = a
  · subst hb
    rw [credit, put_self, elim_some, live_credited, takes]
    simp only [true_and]
  · rw [credit, put_of_ne _ _ hb, if_neg fun h => hb h.1, Int.add_zero]

theorem liveSum_opSuicide_le {self beneficiary : Address}
    (h : w.Covered X (.selfdestruct self beneficiary))
    (hw : w.opSuicide self beneficiary = some w') :
    w'.liveSum ≤ w.liveSum := by
  have hsum := liveSum_suicide hw
  rw [liveSum_credit, live_credit_apply] at hsum
  cases ho : w self with
  | none =>
    have hbalance : w.balanceAt self = 0 := by rw [balanceAt, ho, elim_none]
    rw [hbalance, ho, elim_none] at hsum
    omega
  | some o =>
    have hcover := h o ho
    rw [balanceAt_of_some ho, ho, elim_some] at hsum
    by_cases hsame : self = beneficiary
    · -- what is paid goes with the contract
      subst hsame
      simp only [true_and] at hsum
      by_cases hs : o.suicided = true
      · rw [live_of_suicided hs] at hsum
        omega
      · rw [if_neg hs] at hcover
        have hzero := hcover.resolve_right fun h => h.1 rfl
        rw [live_of_not_suicided (Bool.eq_false_iff.mpr hs)] at hsum
        omega
    · simp only [hsame, false_and, if_false] at hsum
      by_cases hs : o.suicided = true
      · rw [if_pos hs] at hcover
        rw [live_of_suicided hs] at hsum
        rcases hcover with hzero | hlost
        · split at hsum <;> omega
        · rw [if_neg (ne_true_of_eq_false hlost)] at hsum
          omega
      · rw [if_neg hs] at hcover
        rw [live_of_not_suicided (Bool.eq_false_iff.mpr hs)] at hsum
        rcases hcover with hzero | ⟨-, htakes⟩
        · split at hsum <;> omega
        · rw [if_pos htakes] at hsum
          omega

/-- **A covered action does not raise the sum of the live balances.** -/
theorem liveSum_act_le {a : Action} (ha : a.Emitted) (h : w.Covered X a)
    (hw : w.act X a = some w') :
    w'.liveSum ≤ w.liveSum := by
  cases a with
  | hook caller dest value ctx => exact liveSum_callDB_le h hw
  | selfdestruct self beneficiary => exact liveSum_opSuicide_le h hw
  | op o =>
    cases o with
    | addBalance a v =>
      obtain rfl : v = 0 := ha
      exact some.inj hw ▸ liveSum_credit_le w a (le_refl 0)
    | subBalance a v =>
      obtain rfl : v = AccountType.contract.pledge := ha
      exact some.inj hw ▸ liveSum_credit_le w a (by omega)
    | setNonce a n =>
      exact some.inj hw ▸ le_of_eq (liveSum_congr (view_write rfl (live_setNonce · n) w a))
    | setCode a codeHash code =>
      exact some.inj hw ▸ le_of_eq (liveSum_congr
        (view_write rfl (f := (·.setCode codeHash code)) (fun _ => rfl) w a))
    | setState a key value =>
      exact some.inj hw ▸ le_of_eq (liveSum_congr
        (view_write rfl (f := (·.setState key value)) (fun _ => rfl) w a))
    | createContractAccount a =>
      have hopened : ((new .contract).setBalance (w.balanceAt a)).live = w.balanceAt a := rfl
      rw [← some.inj hw, liveSum, openContract, sum_put, hopened, liveSum, balanceAt]
      cases ho : w a with
      | none => simp
      | some o =>
        have hclosed := h o ho
        rw [elim_some, elim_some, live]
        split
        · have := hclosed ‹_›
          omega
        · omega
    | addLog log => exact some.inj hw ▸ le_refl _
    | addRefund gas => exact some.inj hw ▸ le_refl _
    | subRefund gas => exact some.inj hw ▸ le_refl _
    | _ => exact ha.elim

end World

/-! ## 4. Transactions -/

namespace World

open StateObject

theorem liveSum_eq_sum {w : World} (h : w.NoneDoomed) : w.liveSum = w.sum balance := by
  refine Finset.sum_congr rfl fun a _ => ?_
  cases ho : w a with
  | none => rfl
  | some o =>
    have hdoomed := h a
    rw [view, ho, elim_some, doomed] at hdoomed
    change o.live = o.balance
    by_cases hs : o.suicided = true
    · rw [hs, Bool.true_and] at hdoomed
      rw [live_of_suicided hs, balance_of_not_holds hdoomed]
    · exact live_of_not_suicided (Bool.eq_false_iff.mpr hs)

end World

theorem StateDB.liveSum_finalise (s : StateDB) : s.finalise.world.liveSum = s.world.liveSum :=
  liveSum_congr (view_finalise (fun _ => rfl) (fun _ => StateObject.live_of_suicided) s)

namespace Evm

open StateObject

/-- **If every action is covered, the sum of all balances is not larger after the transaction.**
What it leaves is fit for the next one. -/
theorem balances_le_of_covered (E : Env) (m : Machine) (i : Invoke) (code : Code) (caller : Address)
    (depth : Nat) (r : Result Outcome)
    (hrun : (invokeCode E i code caller depth false).run m = some r)
    (hstart : m.db.world.NoneDoomed)
    (hsteps : r.trace.Along (evmStore E.X) (fun s a => s.world.Covered E.X a) (Undoable E.X) m.db) :
    r.machine.db.finalise.world.sum balance ≤ m.db.world.sum balance ∧
      r.machine.db.finalise.world.NoneDoomed := by
  have hquiet :=
    (hsteps.and_each (emitted_invokeCode hrun)).mono (fun _ _ h => h) fun _ _ h => h.goesBack
  have htraced := (invokeCode E i code caller depth false).traced hrun
  obtain ⟨hle, hmarked⟩ := Trace.run_rel
    (R := fun s t => t.world.liveSum ≤ s.world.liveSum ∧ (s.Marked → t.Marked))
    (fun _ => ⟨le_refl _, id⟩) (fun hst htu => ⟨htu.1.trans hst.1, htu.2 ∘ hst.2⟩)
    (fun h hs => ⟨liveSum_act_le h.2 h.1 (world_actionStep h.2.direct hs),
      fun hmarked => hmarked.actionStep h.2.direct hs⟩)
    (fun _ => ⟨le_refl _, id⟩)
    (fun h => ⟨le_of_eq (congrArg liveSum h.world), h.marked⟩) hquiet htraced
  have hnone := noneDoomed_finalise (hmarked (marked_of_noneDoomed hstart))
  refine ⟨?_, hnone⟩
  rwa [← liveSum_eq_sum hnone, liveSum_finalise, ← liveSum_eq_sum hstart]

/-- Account `1` pays `40` to the contract at `7`, which destroys itself and pays it back. -/
theorem selfdestruct_pays_back : ∃ r : Result Outcome,
    (invokeCode { X := plainExternals } (.call 7 [] 0 40) (.selfdestruct 1 0) 1 0 false).run
      payerAndContract = some r ∧ r.machine.db.finalise.getBalance 1 = 100 ∧
    r.machine.db.finalise.exist 7 = false ∧
    r.machine.db.finalise.world.sum balance ≤ payerAndContract.db.world.sum balance := by
  obtain ⟨r, hr, htrace, hpaid, hgone⟩ : ∃ r : Result Outcome,
      (invokeCode { X := plainExternals } (.call 7 [] 0 40) (.selfdestruct 1 0) 1 0 false).run
        payerAndContract = some r ∧
      r.trace = .scope (.act (.hook 1 7 40 ⟨1, some 7, 0, 40, [], 0, some 1⟩)
        (.act (.selfdestruct 7 1) .nil)) false .nil ∧
      r.machine.db.finalise.getBalance 1 = 100 ∧ r.machine.db.finalise.exist 7 = false :=
    ⟨_, rfl, rfl, rfl, rfl⟩
  refine ⟨r, hr, hpaid, hgone, (balances_le_of_covered _ payerAndContract _ _ 1 0 r hr ?_ ?_).1⟩
  · exact noneDoomed_ofAccounts _ (by simp [ofBalance, new])
  · rw [htrace]
    refine ⟨?_, fun _ => ⟨⟨?_, ?_, ?_⟩, fun s hs => ⟨?_, fun _ _ => trivial⟩⟩,
      fun _ _ _ _ => trivial⟩
    · rintro ⟨⟩
    · rintro a ⟨⟩
    · rintro a ⟨⟩
    · rintro _ ⟨rfl⟩
      exact .inr (.inl rfl)
    · obtain rfl := some.inj hs
      rintro _ ⟨rfl⟩
      exact .inl (by decide)

/-- Account `1` and a contract at `7` that has `50`. -/
def reentrant : Machine where
  db := .ofAccounts [(1, .ofBalance 100),
    (7, { (new .contract).setBalance 50 with code := [1] })]
  ctx := { fromAddr := 1, toAddr := some 7, value := 0, data := [] }

/-- The contract calls itself and destroys itself inside of the call and after it, and is paid out
twice. -/
theorem selfdestruct_pays_twice : ∃ r : Result Outcome,
    (invokeCode { X := plainExternals } (.call 7 [] 0 0)
      (.invoke (.call 7 [] 0 0) (.selfdestruct 1 0) (.selfdestruct 1 0)) 1 0 false).run
      reentrant = some r ∧ r.value.err = none ∧
    r.machine.db.finalise.world.sum balance = reentrant.db.world.sum balance + 50 := by
  obtain ⟨r, s, hr, herr, hfirst, hsecond⟩ : ∃ (r : Result Outcome) (s : StateDB),
      (invokeCode { X := plainExternals } (.call 7 [] 0 0)
        (.invoke (.call 7 [] 0 0) (.selfdestruct 1 0) (.selfdestruct 1 0)) 1 0 false).run
        reentrant = some r ∧ r.value.err = none ∧
      reentrant.db.snapshot.1.snapshot.1.opSuicide 7 1 = some s ∧
      s.opSuicide 7 1 = some r.machine.db := ⟨_, _, rfl, rfl, rfl, rfl⟩
  refine ⟨r, hr, herr, ?_⟩
  have hstart : reentrant.db.world.NoneDoomed :=
    noneDoomed_ofAccounts _
      (by simp [StateObject.ofBalance, StateObject.new, StateObject.setBalance])
  have hmarked : r.machine.db.Marked := by
    have hbefore := marked_of_noneDoomed (s := reentrant.db.snapshot.1.snapshot.1) hstart
    have hbetween :=
      hbefore.actionStep (X := plainExternals) (a := .selfdestruct 7 1) trivial hfirst
    exact hbetween.actionStep (X := plainExternals) (a := .selfdestruct 7 1) trivial hsecond
  -- the first payment is what the contract had, the second is not
  have hpaid : s.world.liveSum = reentrant.db.world.liveSum := by
    have hsum := liveSum_suicide (world_opSuicide hfirst)
    rw [liveSum_credit, live_credit_apply] at hsum
    change _ = reentrant.db.world.liveSum + 50 - (50 + 0) at hsum
    omega
  have hagain : r.machine.db.world.liveSum = s.world.liveSum + 50 := by
    have hsum := liveSum_suicide (world_opSuicide hsecond)
    rw [liveSum_credit, live_credit_apply] at hsum
    obtain rfl := some.inj hfirst
    change _ = liveSum _ + 50 - (0 + 0) at hsum
    omega
  rw [← liveSum_eq_sum (noneDoomed_finalise hmarked), liveSum_finalise, hagain,
    hpaid, liveSum_eq_sum hstart]

end Evm

end ProbeChain
