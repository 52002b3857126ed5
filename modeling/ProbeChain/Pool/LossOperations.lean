/-
# What `CallDB` does to loss reports

Every call of `CallDB` that the pool would accept is one event of the protocol (`proceeds_callDB`),
and it keeps the papers tidy.  Most operations are no event at all.
-/
import ProbeChain.Pool.LossRecords

namespace ProbeChain

open StateObject Option Function

/-! ## 1. Calls and events

What the pool has checked is stated of the accounts (`Licensed`), so that the operations can be
treated without it. -/

/-- The event that a call of `CallDB` is. -/
def lossEvent (X : Externals) (w : World) (ctx : TxContext) : LossEvent :=
  match ctx.toAddr.map operationOf with
  | some .registerLose =>
    .register (createAddress X ctx.fromAddr ctx.nonce) (World.newLoss ctx).lossAccount
  | some .cancellation => (decodeCancellation ctx.data).elim .idle fun d => .close d.cancelAddress
  | some .revealLossReport => (decodeRevealLossReport ctx.data).elim .idle fun d =>
      .reveal d.lossAccount d.oldAccount d.newAccount ctx.blockNumber
  | some .transferLostAccountBalance => (decodeAddress ctx.data).elim .idle .transfer
  | some .removeLossReport => (decodeAddress ctx.data).elim .idle .remove
  | some .rejectLossReport => (decodeAddress ctx.data).elim .idle .reject
  | some .cancellationLostAccount => (decodeAddress ctx.data).elim .idle fun r =>
      -- without an account to pay nothing is closed
      if closedWithReport w ctx = [] then .idle else .cancel r
  | _ => .idle

namespace World

open Files

/-- There is a report at `r` in the given state. -/
def HasReport (w : World) (r : Address) (state : LossState) : Prop :=
  ∃ l, (w.papers r).report = some l ∧ l.state = state

/-- **What the pool checks** of a call that concerns loss reports, and of one that makes or closes
an account. -/
def Licensed (X : Externals) (w : World) (ctx : TxContext) : Prop :=
  match ctx.toAddr.map operationOf with
  | some .registerPns => w.papers (createPNSAddress X ctx.fromAddr ctx.data) = {}
  | some .registerAuthorize => w.papers (createAddress X ctx.fromAddr ctx.nonce) = {}
  | some .registerLose => w.papers (createAddress X ctx.fromAddr ctx.nonce) = {} ∧
      (w markAddress = none ∨ (w.papers markAddress).mark.isSome) ∧
      w.papers.marks.getMark (newLoss ctx).lossAccount.bit = false
  | some .cancellation => ∀ d, decodeCancellation ctx.data = some d →
      (w.papers d.cancelAddress).report = none ∧ (w.papers d.cancelAddress).mark = none
  | some .revealLossReport => ∃ d, decodeRevealLossReport ctx.data = some d ∧
      w.HasReport d.lossAccount .apply ∧ (∃ o, w d.oldAccount = some o ∧ o.accountType = .regular) ∧
      (w.papers d.oldAccount).lost = false
  | some .transferLostAccountBalance => ∃ r, decodeAddress ctx.data = some r ∧ w.HasReport r .reveal
  | some .removeLossReport => ∃ r, decodeAddress ctx.data = some r ∧ w.HasReport r .apply
  | some .rejectLossReport => ∃ r l, decodeAddress ctx.data = some r ∧
      (w.papers r).report = some l ∧ l.state = .reveal ∧ l.lostAccount = ctx.fromAddr
  | some .cancellationLostAccount => ∃ r, decodeAddress ctx.data = some r ∧ w.HasReport r .success
  | _ => True

/-- A report is registered at an address that is not used for anything else: not the one of the
marks, and not that of an account which is lost. -/
def Uncollided (X : Externals) (w : World) (ctx : TxContext) : Prop :=
  ctx.toAddr.map operationOf = some .registerLose →
    createAddress X ctx.fromAddr ctx.nonce ≠ markAddress ∧
    ∀ r l, (w.papers r).report = some l → l.state ≠ .apply →
      l.lostAccount ≠ createAddress X ctx.fromAddr ctx.nonce

/-- The event has happened, and the papers are tidy again. -/
def Proceeds (w : World) (e : LossEvent) (w' : World) : Prop :=
  w.papers.docket.Step e w'.filed.docket ∧ w'.filed.Tidy

variable {X : Externals} {w w' : World} {ctx : TxContext}

/-! ## 2. Operations that are no event -/

theorem proceeds_of_papers_eq (h : w.papers.Tidy) (hw : w'.papers = w.papers) :
    w.Proceeds .idle w' := by
  rw [Proceeds, filed_of_papers_eq hw, filed_eq_papers h]
  exact ⟨.idle _, h⟩

variable {a r : Address}

theorem papers_register {o : StateObject} (ho : o.papers = {}) (ha : w.papers a = {}) (b : Address)
    (v : Int) : ((w.put a o).credit b v).papers = w.papers := by
  rw [papers_credit, papers_put, ho]
  exact update_eq_self_iff.mpr ha.symm

theorem papers_newPns (ctx : TxContext) : (newPns ctx).papers = {} :=
  papers_new (t := .pns) (by decide) (by decide)

theorem papers_newAuthorize (ctx : TxContext) : (newAuthorize ctx).papers = {} :=
  papers_new (t := .authorize) (by decide) (by decide)

theorem papers_modifyLossType : (w.modifyLossType ctx).papers = w.papers := by
  unfold modifyLossType
  split
  · exact view_modify (fun o => papers_setType o _) w _
  · rfl

/-! ## 3. Events

The writes of an operation are followed on the papers, and what the docket shows of them is the
event. -/

theorem proceeds_registerLose (h : w.papers.Tidy)
    (hfree : w.papers (createAddress X ctx.fromAddr ctx.nonce) = {})
    (hplace : w markAddress = none ∨ (w.papers markAddress).mark.isSome)
    (hmark : w.papers.marks.getMark (newLoss ctx).lossAccount.bit = false)
    (hne : createAddress X ctx.fromAddr ctx.nonce ≠ markAddress)
    (hnamed : ∀ r l, (w.papers r).report = some l → l.state ≠ .apply →
      l.lostAccount ≠ createAddress X ctx.fromAddr ctx.nonce) :
    w.Proceeds (.register (createAddress X ctx.fromAddr ctx.nonce) (newLoss ctx).lossAccount)
      (w.registerLose X ctx) := by
  set r := createAddress X ctx.fromAddr ctx.nonce
  set l := (newLoss ctx).lossAccount
  have hnew : (newLoss ctx).papers = { report := some l } :=
    Papers.ext rfl rfl rfl (eq_false (by rintro (⟨h, -⟩ | ⟨-, h⟩) <;> exact h rfl)) rfl
  have hput : (w.put r (newLoss ctx)).papers = w.papers.setReport r (some l) := by
    rw [papers_put, hnew, setReport, hfree]
  have hat : (w.put r (newLoss ctx)).papers markAddress = w.papers markAddress := by
    rw [papers_put, update_of_ne hne.symm]
  have hpapers : (w.registerLose X ctx).papers =
      (w.papers.setReport r (some l)).setMarks (w.papers.marks.setMark l.bit true) := by
    rw [registerLose, papers_credit, papers_updateLossMark, hput]
    · have hmarks : (w.papers.setReport r (some l)).marks = w.papers.marks := by
        rw [marks, ← hput, hat, marks]
      rw [hmarks]
      rfl
    · rw [hat, put_of_ne _ _ hne.symm]
      exact hplace
  have hmarked := h.setMarks (w.papers.marks.setMark l.bit true)
  rw [setReport_setMarks hne] at hpapers
  have htidy : (w.registerLose X ctx).papers.Tidy := by
    rw [hpapers]
    have hsame :=
      setMarks_same (p := w.papers) Papers.report (fun _ _ => rfl)
        (w.papers.marks.setMark l.bit true)
    refine hmarked.setReport hne ?_ (fun _ r' l' hr' => ?_) fun hstate => absurd rfl hstate
    · rw [setMarks, update_self]
      rfl
    · rw [hsame] at hr'
      exact hnamed r' l' hr'
  rw [Proceeds, filed_eq_papers htidy]
  refine ⟨?_, htidy⟩
  rw [hpapers, docket_setReport, docket_setMarks]
  refine .register ?_ rfl hmark
  show (w.papers r).report = none
  rw [hfree]

theorem proceeds_revealLossReport (h : w.papers.Tidy) {d : RevealLossReportDecodeType}
    (hd : decodeRevealLossReport ctx.data = some d) (hreport : w.HasReport d.lossAccount .apply)
    (hold : ∃ o, w d.oldAccount = some o ∧ o.accountType = .regular)
    (hlost : (w.papers d.oldAccount).lost = false) (hw : w.revealLossReport ctx = some w') :
    w.Proceeds (.reveal d.lossAccount d.oldAccount d.newAccount ctx.blockNumber) w' := by
  obtain ⟨l, hl, hstate⟩ := hreport
  obtain ⟨o, ho, hregular⟩ := hold
  obtain ⟨loss, hloss, htype, rfl⟩ := exists_of_report hl
  obtain ⟨hr, hmark⟩ := h.apart _ _ hl
  set l := loss.lossAccount
  have holdReport : (w.papers d.oldAccount).report = none := by
    rw [papers_of_some ho]
    exact if_neg (by rw [hregular]; decide)
  have holdMark : d.oldAccount ≠ markAddress := by
    intro heq
    rw [← heq, papers_of_some ho] at hmark
    rw [papers_mark hmark] at hregular
    cases hregular
  have holdOther : d.oldAccount ≠ d.lossAccount := by
    intro heq
    rw [heq, hl] at holdReport
    cases holdReport
  have hput : (w.put d.lossAccount (revealed ctx loss d)).papers =
      w.papers.setReport d.lossAccount
        (some (l.reveal d.oldAccount d.newAccount ctx.blockNumber)) := by
    rw [papers_put, revealed, papers_lossAccount htype, setReport, papers_of_some hloss]
    rfl
  have hmarked :
      ((w.put d.lossAccount (revealed ctx loss d)).updateLossMark l.lastBits false).papers =
      (w.papers.setReport d.lossAccount
        (some (l.reveal d.oldAccount d.newAccount ctx.blockNumber))).setMarks
        (w.papers.marks.setMark l.bit false) := by
    rw [papers_updateLossMark, hput, marks_setReport]
    · rfl
    · rw [hput, setReport_same Papers.mark fun _ _ => rfl]
      exact .inr hmark
  have hobject : (w.put d.lossAccount (revealed ctx loss d)).updateLossMark l.lastBits false
      d.oldAccount =
      some o := by
    rw [updateLossMark, put_of_ne _ _ holdMark, put_of_ne _ _ holdOther, ho]
  have hpapers : w'.papers =
      ((w.papers.setReport d.lossAccount
        (some (l.reveal d.oldAccount d.newAccount ctx.blockNumber))).setMarks
        (w.papers.marks.setMark l.bit false)).setLost d.oldAccount true := by
    unfold revealLossReport at hw
    rw [hd] at hw
    dsimp only at hw
    rw [hloss] at hw
    obtain ⟨height, -, rfl⟩ := map_eq_some_iff.mp hw
    rw [papers_credit, papers_credit, papers_flag hobject hregular, hmarked]
  have htidy : w'.papers.Tidy := by
    rw [hpapers]
    refine ((h.setReport hr hmark (fun hnone => ?_) fun _ => ?_).setMarks _).setLost _ _
    · rw [hl] at hnone
      cases hnone
    · exact ⟨holdOther, holdReport, holdMark⟩
  rw [Proceeds, filed_eq_papers htidy]
  refine ⟨?_, htidy⟩
  rw [hpapers, docket_setLost, docket_setMarks, docket_setReport]
  exact .reveal hl hstate hlost _ _

theorem proceeds_transferLostAccount (h : w.papers.Tidy) (hd : decodeAddress ctx.data = some r)
    (hreport : w.HasReport r .reveal) (hw : w.transferLostAccount ctx = some w') :
    w.Proceeds (.transfer r) w' := by
  obtain ⟨l, hl, hstate⟩ := hreport
  obtain ⟨hr, hmark⟩ := h.apart _ _ hl
  obtain ⟨loss, hloss, -, rfl⟩ := exists_of_report hl
  set l := loss.lossAccount
  have hpapers : w'.papers = w.papers.setReport r (some { l with state := .success }) := by
    unfold transferLostAccount at hw
    rw [hd] at hw
    dsimp only at hw
    rw [hloss] at hw
    obtain ⟨w₁, hw₁, rfl⟩ := map_eq_some_iff.mp hw
    have hsame : w₁.papers = w.papers :=
      view_transferLostAssets remote_papers.toVoteless remote_papers.toCashless hw₁
    -- the report may have changed under the transfer, its record has not
    obtain ⟨loss', hloss', htype', hrecord⟩ := exists_of_report (w := w₁) (by rw [hsame]; exact hl)
    rw [modify_of_some hloss', papers_put, setLossState, papers_lossAccount htype', hrecord, hsame,
      setReport, ← hsame, papers_of_some hloss']
  have htidy : w'.papers.Tidy := by
    rw [hpapers]
    refine h.setReport hr hmark (fun hnone => ?_) fun _ => ?_
    · rw [hl] at hnone
      cases hnone
    · obtain ⟨hnone, hplace⟩ := h.named r l hl (by rw [hstate]; rintro ⟨⟩)
      refine ⟨fun heq => ?_, hnone, hplace⟩
      rw [show l.lostAccount = r from heq, hl] at hnone
      cases hnone
  rw [Proceeds, filed_eq_papers htidy]
  refine ⟨?_, htidy⟩
  rw [hpapers, docket_setReport]
  exact .transfer hl hstate

/-- The file of a report is erased. -/
theorem docket_erase_report {p : Files} (hlost : (p r).lost = false) (hmark : (p r).mark = none) :
    (p.erase r).docket = { p.docket with reports := update p.docket.reports r none } := by
  have hsame : update p.docket.lost r false = p.docket.lost :=
    update_eq_self_iff.mpr hlost.symm
  rw [docket_erase hmark, hsame]

/-- An account is closed. -/
theorem filed_close {v : World} {p : Files} (hv : v.papers = p) (hp : p.Tidy)
    (hw : v.suicide a = some w') : w'.filed = p.erase a := by
  subst hv
  rw [filed_suicide _ hw, filed_eq_papers hp]
  exact hp.stray a

section
variable (h : w.papers.Tidy)
include h

theorem proceeds_removeLossReport (hd : decodeAddress ctx.data = some r)
    (hreport : w.HasReport r .apply) (hw : w.removeLossReport ctx = some w') :
    w.Proceeds (.remove r) w' := by
  obtain ⟨l, hl, hstate⟩ := hreport
  obtain ⟨hr, hmark⟩ := h.apart _ _ hl
  obtain ⟨loss, hloss, -, rfl⟩ := exists_of_report hl
  obtain ⟨hlost, hnone⟩ := of_report hl
  set l := loss.lossAccount
  have hat : w.papers.setMarks (w.papers.marks.setMark l.bit false) r = w.papers r := by
    rw [setMarks, update_of_ne hr]
  have hmarked := h.setMarks (w.papers.marks.setMark l.bit false)
  have hfiled : w'.filed = (w.papers.setMarks (w.papers.marks.setMark l.bit false)).erase r := by
    unfold removeLossReport at hw
    rw [hd] at hw
    dsimp only at hw
    rw [hloss] at hw
    refine filed_close ?_ hmarked hw
    rw [papers_credit, papers_updateLossMark (.inr hmark)]
    rfl
  rw [Proceeds, hfiled]
  refine ⟨?_, hmarked.erase (by rw [hat]; exact hnone)⟩
  rw [docket_erase_report (by rw [hat]; exact hlost) (by rw [hat]; exact hnone), docket_setMarks]
  exact .remove hl hstate

theorem proceeds_rejectLossReport {l : LossAccount}
    (hd : decodeAddress ctx.data = some r) (hl : (w.papers r).report = some l)
    (hstate : l.state = .reveal) (hfrom : l.lostAccount = ctx.fromAddr)
    (hw : w.rejectLossReport ctx = some w') :
    w.Proceeds (.reject r) w' := by
  obtain ⟨hr, hmark⟩ := h.apart _ _ hl
  obtain ⟨loss, hloss, -, rfl⟩ := exists_of_report hl
  obtain ⟨hlost, hnone⟩ := of_report hl
  set l := loss.lossAccount
  have hmarked := (h.setMarks (w.papers.marks.setMark l.bit false)).setLost ctx.fromAddr false
  set p := (w.papers.setMarks (w.papers.marks.setMark l.bit false)).setLost ctx.fromAddr false
  -- of the report itself nothing is seen of this
  have hother : r ≠ ctx.fromAddr := by
    intro heq
    have hnamed := (h.named r l hl (by rw [hstate]; rintro ⟨⟩)).1
    rw [hfrom, ← heq, hl] at hnamed
    cases hnamed
  have hat : p r = w.papers r := by
    show setLost _ _ _ r = _
    rw [setLost, update_of_ne hother, setMarks, update_of_ne hr]
  have hfiled : w'.filed = p.erase r := by
    unfold rejectLossReport at hw
    rw [hd] at hw
    dsimp only at hw
    rw [hloss] at hw
    refine filed_close ?_ hmarked hw
    rw [papers_credit, papers_unflag, papers_updateLossMark (.inr hmark)]
    rfl
  rw [Proceeds, hfiled]
  refine ⟨?_, hmarked.erase (by rw [hat]; exact hnone)⟩
  rw [docket_erase_report (by rw [hat]; exact hlost) (by rw [hat]; exact hnone), docket_setLost,
    docket_setMarks, ← hfrom]
  exact .reject hl hstate

theorem proceeds_cancellation {d : CancellationDecodeType}
    (hd : decodeCancellation ctx.data = some d) (hreport : (w.papers d.cancelAddress).report = none)
    (hmark : (w.papers d.cancelAddress).mark = none) (hw : w.cancellation ctx = some w') :
    w.Proceeds (.close d.cancelAddress) w' := by
  have hfiled : w'.filed = w.papers.erase d.cancelAddress := by
    unfold cancellation at hw
    rw [hd] at hw
    dsimp only at hw
    split at hw
    next hnone =>
      obtain rfl := some.inj hw
      rw [filed_eq_papers h]
      exact (update_eq_self_iff.mpr (papers_of_none hnone).symm).symm
    · exact filed_close (papers_credit w d.beneficiaryAddress _) h hw
  rw [Proceeds, hfiled]
  refine ⟨?_, h.erase hmark⟩
  have hsame : update w.papers.docket.reports d.cancelAddress none = w.papers.docket.reports :=
    update_eq_self_iff.mpr hreport.symm
  rw [docket_erase hmark, hsame]
  exact .close _ _

theorem proceeds_cancellationLoss (hd : decodeAddress ctx.data = some r)
    (hreport : w.HasReport r .success) (hw : w.cancellationLoss ctx = some w') :
    w.Proceeds (if closedWithReport w ctx = [] then .idle else .cancel r) w' := by
  obtain ⟨l, hl, hstate⟩ := hreport
  obtain ⟨loss, hloss, -, rfl⟩ := exists_of_report hl
  obtain ⟨hlost, hnone⟩ := of_report hl
  set l := loss.lossAccount
  unfold cancellationLoss at hw
  rw [hd] at hw
  dsimp only at hw
  rw [hloss] at hw
  dsimp only at hw
  split at hw
  next hbenefit =>
    obtain rfl := some.inj hw
    have hclosed : closedWithReport w ctx = [] := by
      simp only [closedWithReport, hd, hloss, hbenefit]
    rw [hclosed, if_pos rfl]
    exact proceeds_of_papers_eq h rfl
  next benefit hbenefit =>
    have hclosed : closedWithReport w ctx ≠ [] := by simp [closedWithReport, hd, hloss, hbenefit]
    rw [if_neg hclosed]
    obtain ⟨w₁, hw₁, hw⟩ := bind_eq_some_iff.mp hw
    obtain ⟨hunnamed, hplace⟩ := h.named r l hl (by rw [hstate]; rintro ⟨⟩)
    have hother : l.lostAccount ≠ r := by
      intro heq
      rw [heq, hl] at hunnamed
      cases hunnamed
    have hcredit :=
      papers_credit w l.newAccount (AccountType.loss.pledge + AccountType.regular.pledge)
    have hfirst : w₁.filed = w.papers.erase r := filed_close hcredit h hw₁
    have hsame : w₁.papers l.lostAccount = w.papers l.lostAccount := by
      rw [← hcredit]
      exact (view_suicide hw₁ l.lostAccount).trans (if_neg hother)
    have hfiled : w'.filed = (w.papers.erase r).erase l.lostAccount := by
      rw [filed_suicide _ hw, hfirst]
      rw [hsame]
      exact h.stray _
    have hat : w.papers.erase r l.lostAccount = w.papers l.lostAccount := update_of_ne hother _ _
    have hunmarked : (w.papers.erase r l.lostAccount).mark = none := by
      rw [hat]
      by_contra hsome
      exact hplace (h.place _ (isSome_iff_ne_none.mpr hsome))
    rw [Proceeds, hfiled]
    refine ⟨?_, (h.erase hnone).erase hunmarked⟩
    have hreports : update (w.papers.erase r).docket.reports l.lostAccount none =
        (w.papers.erase r).docket.reports := by
      refine update_eq_self_iff.mpr ?_
      show none = (w.papers.erase r l.lostAccount).report
      rw [hat, hunnamed]
    rw [docket_erase hunmarked, hreports, docket_erase_report hlost hnone]
    exact .cancel hl hstate

/-- **A call that the pool would accept is an event of the protocol.** -/
theorem proceeds_callDB (hlicensed : w.Licensed X ctx) (huncollided : w.Uncollided X ctx)
    (hw : w.callDB X ctx = some w') : w.Proceeds (lossEvent X w ctx) w' := by
  have hcall := hw
  unfold callDB at hw
  unfold Licensed at hlicensed
  unfold Uncollided at huncollided
  unfold lossEvent
  split at hw
  next hto =>
    rw [hto]
    exact proceeds_of_papers_eq h (some.inj hw ▸ rfl)
  next dest hto =>
    rw [hto, map_some] at hlicensed huncollided ⊢
    have hclerical := view_clerical remote_papers.toDetached hto hcall
    cases hop : operationOf dest <;> rw [hop] at hw hlicensed huncollided hclerical <;>
      dsimp only at hw hlicensed ⊢
    case registerPns =>
      obtain rfl := some.inj hw
      exact proceeds_of_papers_eq h (papers_register (papers_newPns ctx) hlicensed _ _)
    case registerAuthorize =>
      obtain rfl := some.inj hw
      exact proceeds_of_papers_eq h (papers_register (papers_newAuthorize ctx) hlicensed _ _)
    case registerLose =>
      obtain rfl := some.inj hw
      obtain ⟨hfree, hplace, hmark⟩ := hlicensed
      obtain ⟨hne, hnamed⟩ := huncollided rfl
      exact proceeds_registerLose h hfree hplace hmark hne hnamed
    case cancellation =>
      cases hd : decodeCancellation ctx.data with
      | none =>
        rw [cancellation, hd] at hw
        exact proceeds_of_papers_eq h (some.inj hw ▸ rfl)
      | some d =>
        obtain ⟨hreport, hmark⟩ := hlicensed d hd
        exact proceeds_cancellation h hd hreport hmark hw
    case vote =>
      exact proceeds_of_papers_eq h (view_vote remote_papers.toVoteless remote_papers.toCashless hw)
    case redemption =>
      exact proceeds_of_papers_eq h
        (view_redemption remote_papers.toVoteless remote_papers.toCashless hw)
    case cancellationLostAccount =>
      obtain ⟨r, hd, hreport⟩ := hlicensed
      rw [hd]
      exact proceeds_cancellationLoss h hd hreport hw
    case revealLossReport =>
      obtain ⟨d, hd, hreport, hold, hlost⟩ := hlicensed
      rw [hd]
      exact proceeds_revealLossReport h hd hreport hold hlost hw
    case transferLostAccountBalance =>
      obtain ⟨r, hd, hreport⟩ := hlicensed
      rw [hd]
      exact proceeds_transferLostAccount h hd hreport hw
    case removeLossReport =>
      obtain ⟨r, hd, hreport⟩ := hlicensed
      rw [hd]
      exact proceeds_removeLossReport h hd hreport hw
    case rejectLossReport =>
      obtain ⟨r, l, hd, hl, hstate, hfrom⟩ := hlicensed
      rw [hd]
      exact proceeds_rejectLossReport h hd hl hstate hfrom hw
    case modifyLossType => exact proceeds_of_papers_eq h (some.inj hw ▸ papers_modifyLossType)
    case transfer =>
      exact proceeds_of_papers_eq h
        (some.inj hw ▸ view_transfer remote_papers.toCashless w ctx dest)
    all_goals exact proceeds_of_papers_eq h (hclerical rfl)

/-! ## 4. What is deleted -/

/-- The account of the marks is not closed. -/
theorem mark_of_closed (hlicensed : w.Licensed X ctx) (ha : a ∈ closed w ctx) :
    (w.papers a).mark = none := by
  unfold closed at ha
  unfold Licensed at hlicensed
  split at ha
  next hop =>
    rw [hop] at hlicensed
    obtain ⟨d, hd, rfl⟩ := map_eq_some_iff.mp (mem_toList.mp ha)
    exact (hlicensed d hd).2
  next hop =>
    rw [hop] at hlicensed
    obtain ⟨r, hd, l, hl, -⟩ := hlicensed
    cases hd.symm.trans (mem_toList.mp ha)
    exact (of_report hl).2
  next hop =>
    rw [hop] at hlicensed
    obtain ⟨r, l, hd, hl, -⟩ := hlicensed
    cases hd.symm.trans (mem_toList.mp ha)
    exact (of_report hl).2
  next hop =>
    rw [hop] at hlicensed
    obtain ⟨r, hd, l, hl, hstate⟩ := hlicensed
    obtain ⟨loss, hloss, -, rfl⟩ := exists_of_report hl
    unfold closedWithReport at ha
    rw [hd] at ha
    dsimp only at ha
    rw [hloss] at ha
    dsimp only at ha
    split at ha
    · cases ha
    · rcases List.mem_cons.mp ha with rfl | ha
      · exact (of_report hl).2
      · obtain rfl := List.mem_singleton.mp ha
        by_contra hsome
        refine (h.named r _ hl ?_).2 (h.place _ (isSome_iff_ne_none.mpr hsome))
        rw [hstate]
        rintro ⟨⟩
  · cases ha

end

end World

namespace StateObject

theorem unseen_closing : Unseen closing false where
  balance o x := by rw [closing, setBalance_suicided, setBalance_accountType, closing]
  new t := by cases t <;> rfl

/-- A closed account of the one type that leaves nothing in the journal and has marks. -/
def void (o : StateObject) : Bool := o.suicided && o.accountType = .lossMark

theorem unseen_void : Unseen void false where
  balance o x := by rw [void, setBalance_suicided, setBalance_accountType, void]
  new t := by cases t <;> rfl

theorem closing_or_void {o : StateObject} (h : o.papers.closing = true) :
    o.closing = true ∨ o.void = true := by
  obtain ⟨hs, htype⟩ := Bool.and_eq_true_iff.mp h
  have htype : o.accountType ≠ .dpos := of_decide_eq_true htype
  by_cases hmark : o.accountType = .lossMark
  · exact .inr (by rw [void, hs, hmark]; rfl)
  · exact .inl (by simp [closing, hs, hmark, htype])

theorem papers_closing_of_closing {o : StateObject} (h : o.papers.closing = false) :
    o.closing = false ∧ o.void = false := by
  by_cases hs : o.suicided = true
  · have hdpos : o.accountType = .dpos := by
      by_contra hne
      simp [papers, hs, hne] at h
    constructor
    · simp [closing, hdpos]
    · simp [void, hdpos]
  · constructor
    · simp [closing, hs]
    · simp [void, hs]

end StateObject

namespace StateDB

variable {X : Externals} {s t : StateDB} {ctx : TxContext}

/-- **What a call closes will be deleted.** -/
theorem mem_dirties_of_papers (h : s.world.papers.Tidy) (hlicensed : s.world.Licensed X ctx)
    (ht : callDB X s ctx = some t) {a : Address} (ha : (t.world.papers a).closing = true) :
    a ∈ t.dirties := by
  have hbefore : s.world.view closing false a = false ∧ s.world.view void false a = false := by
    cases ho : s.world a with
    | none => exact ⟨by rw [World.view, ho]; rfl, by rw [World.view, ho]; rfl⟩
    | some o =>
      have hclosing := h.closing a
      rw [World.papers_of_some ho] at hclosing
      rw [World.view, World.view, ho]
      exact papers_closing_of_closing hclosing
  have hafter : t.world.view closing false a = true ∨ t.world.view void false a = true := by
    cases ho : t.world a with
    | none =>
      rw [World.papers_of_none ho] at ha
      cases ha
    | some o =>
      rw [World.papers_of_some ho] at ha
      rw [World.view, World.view, ho]
      exact closing_or_void ha
  rcases hafter with hclosing | hvoid
  · refine (view_or_mem_dirties_callDB unseen_closing (fun _ h => h) ht hclosing).resolve_left
      fun hold => ?_
    rw [hbefore.1] at hold
    cases hold
  · -- the account that keeps the marks is not closed
    have hview := World.view_callDB unseen_void (world_callDB ht) a
    rw [hvoid, hbefore.2] at hview
    split at hview
    · cases hview
    · split at hview
      next hclosed =>
        have hmark := World.mark_of_closed h hlicensed hclosed
        rw [World.view] at hview
        cases ho : s.world a with
        | none =>
          rw [ho] at hview
          cases hview
        | some o =>
          rw [ho, elim_some] at hview
          have htype : o.accountType = .lossMark :=
            of_decide_eq_true (Bool.and_eq_true_iff.mp hview.symm).2
          rw [World.papers_of_some ho] at hmark
          rw [show o.papers.mark = some o.lossMarkAccount.lossMark from if_pos htype] at hmark
          cases hmark
      · cases hview

/-- The papers at the end of a transaction. -/
theorem papers_finalise (hdirty : ∀ a, (s.world.papers a).closing = true → a ∈ s.dirties)
    (hstray : ∀ a, ¬ (s.world.filed a).stray) : s.finalise.world.papers = s.world.filed := by
  funext a
  have hdirty := hdirty a
  have hstray := hstray a
  rw [World.filed] at hstray ⊢
  cases ho : s.world a with
  | none =>
    have hnone : s.finalise.world a = none := by rw [world_finalise, ho, bind_none]
    rw [World.papers_of_none hnone, World.papers_of_none ho]
    rfl
  | some o =>
    rw [World.papers_of_some ho] at hdirty hstray ⊢
    by_cases ha : a ∈ s.dirties
    · by_cases hs : o.suicided = true
      · have hnone : s.finalise.world a = none := by
          rw [world_finalise, ho, bind_some, if_pos ha, if_pos hs]
        have hmarked : o.markSuicided = o := by rw [markSuicided, ← hs]
        rw [World.papers_of_none hnone]
        cases hclosing : o.papers.closing with
        | true => rw [Papers.settle, if_pos hclosing]
        | false =>
          rw [Papers.settle_of_not_closing hclosing] at hstray
          rw [← hmarked, settle_markSuicided hstray]
      · have hsome : s.finalise.world a = some o.finalise := by
          rw [world_finalise, ho, bind_some, if_pos ha, if_neg hs]
        rw [World.papers_of_some hsome, Papers.settle_of_not_closing]
        · rfl
        · simp [papers, hs]
    · have hsome : s.finalise.world a = some o := by rw [world_finalise, ho, bind_some, if_neg ha]
      rw [World.papers_of_some hsome, Papers.settle_of_not_closing]
      exact Bool.eq_false_iff.mpr fun hclosing => ha (hdirty hclosing)

end StateDB

end ProbeChain
