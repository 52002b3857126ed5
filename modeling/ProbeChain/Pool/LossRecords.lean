/-
# The accounts and the protocol of loss reports

The reports, the flags and the marks of `LossProtocol.lean` are spread over the accounts: a report
is the record of a Loss account, the flag is in the record of the Regular account that is lost, and
the marks are those of the account at a reserved address.  `papers` is what of an account concerns
the protocol, and `docket` puts the papers of all accounts together.

An object has all records whatever its type is, and some operations do not look at the type.  The
papers are `Tidy` if no record is used that does not belong to the type.  Where they are, a call of
`CallDB` is an event of the protocol (`proceeds_callDB`), if it is made as the pool would have it
(`Licensed`).
-/
import ProbeChain.Evm.Leftover
import ProbeChain.Pool.LossProtocol

namespace ProbeChain

open Option Function

/-! ## 1. Papers -/

/-- What concerns loss reports of an account.  `stray` says that a record is used that does not
belong to the type of the account, `closing` that the account is marked to be deleted. -/
@[ext]
structure Papers where
  report : Option LossAccount := none
  mark : Option LossMark := none
  lost : Bool := false
  stray : Prop := False
  closing : Bool := false

/-- Nothing is left of an account that is going to be deleted. -/
def Papers.settle (q : Papers) : Papers := if q.closing then {} else q

theorem Papers.settle_of_not_closing {q : Papers} (h : q.closing = false) : q.settle = q := by
  rw [settle, h, if_neg Bool.false_ne_true]

/-- What is read again of an account that was stored. -/
def Papers.reread (q : Papers) : Papers where
  report := q.report.map fun l => { l with height := some (l.height.getD 0) }
  mark := q.mark
  lost := q.lost

namespace StateObject

def papers (o : StateObject) : Papers where
  report := if o.accountType = .loss then some o.lossAccount else none
  mark := if o.accountType = .lossMark then some o.lossMarkAccount.lossMark else none
  lost := o.accountType = .regular && o.regularAccount.lossType.getState
  stray := (o.accountType ≠ .loss ∧ o.lossAccount ≠ {}) ∨
    (o.accountType ≠ .lossMark ∧ o.lossMarkAccount ≠ {})
  closing := o.suicided && o.accountType ≠ .dpos

/-- A new account has no record yet. -/
theorem papers_new {t : AccountType} (ht : t ≠ .loss) (hm : t ≠ .lossMark) :
    (new t).papers = {} := by
  have hstray : ¬ (new t).papers.stray := by
    rintro (⟨-, h⟩ | ⟨-, h⟩)
    · exact h (by cases t <;> rfl)
    · exact h (by cases t <;> rfl)
  refine Papers.ext ?_ ?_ ?_ (eq_false hstray) ?_
  · exact if_neg (by rwa [new_accountType])
  · exact if_neg (by rwa [new_accountType])
  · cases t <;> rfl
  · cases t <;> rfl

theorem remote_papers : Remote papers {} where
  dpos := papers_new (by decide) (by decide)
  balance o x := by unfold setBalance; split <;> rfl
  regular := papers_new (by decide) (by decide)

theorem papers_stored (o : StateObject) : o.stored.papers = o.papers.reread := by
  have hstray : ¬ o.stored.papers.stray := by
    unfold stored papers
    cases o.accountType <;> simp [new]
  refine Papers.ext ?_ ?_ ?_ (eq_false hstray) ?_
  all_goals
    unfold stored papers
    cases htype : o.accountType <;> simp [Papers.reread, new]

theorem papers_setNonce (o : StateObject) (n : UInt64) : (o.setNonce n).papers = o.papers := by
  unfold setNonce
  split <;> rfl

/-- A new period of the loss type is not seen. -/
theorem papers_setType (o : StateObject) (period : BitVec 8) :
    (o.setLossType (o.regularAccount.lossType.setType period)).papers = o.papers := by
  have hstate : (o.regularAccount.lossType.setType period).getState =
      o.regularAccount.lossType.getState := by
    unfold LossType.setType LossType.setState
    generalize (if period.toNat < 128 then period <<< 1 else 1 : BitVec 8) = c
    cases h : o.regularAccount.lossType.getState with
    | true => simp [LossType.getState]
    | false => simp [LossType.getState]
  unfold papers setLossType
  rw [hstate]

theorem getState_setState (t : LossType) (flag : Bool) : (t.setState flag).getState = flag := by
  unfold LossType.setState LossType.getState
  cases flag <;> simp

variable {o : StateObject}

theorem papers_lossAccount (h : o.accountType = .loss) (l : LossAccount) :
    ({ o with lossAccount := l } : StateObject).papers = { o.papers with report := some l } := by
  refine Papers.ext (if_pos h) rfl rfl ?_ rfl
  simp only [papers, h, ne_eq, not_true_eq_false, false_and]

theorem papers_lossMarkAccount (h : o.accountType = .lossMark) (m : LossMark) :
    ({ o with lossMarkAccount := ⟨m⟩ } : StateObject).papers =
      { o.papers with mark := some m } := by
  refine Papers.ext rfl (if_pos h) rfl ?_ rfl
  simp only [papers, h, ne_eq, not_true_eq_false, false_and]

theorem papers_setState (h : o.accountType = .regular) (flag : Bool) :
    (o.setLossType (o.regularAccount.lossType.setState flag)).papers =
      { o.papers with lost := flag } := by
  refine Papers.ext rfl rfl ?_ rfl rfl
  simp only [papers, setLossType, h, getState_setState, decide_true, Bool.true_and]

theorem papers_setState_false (o : StateObject) :
    (o.setLossType (o.regularAccount.lossType.setState false)).papers =
      { o.papers with lost := false } := by
  refine Papers.ext rfl rfl ?_ rfl rfl
  simp only [papers, setLossType, getState_setState, Bool.and_false]

/-- An account that is marked will leave nothing behind. -/
theorem settle_markSuicided (h : ¬ o.papers.stray) : o.markSuicided.papers.settle = {} := by
  by_cases hdpos : o.accountType = .dpos
  · have hpapers : o.markSuicided.papers = {} := by
      refine Papers.ext (if_neg ?_) (if_neg ?_) ?_ (eq_false h) ?_
      all_goals simp [markSuicided, hdpos, papers]
    rw [hpapers]
    rfl
  · rw [Papers.settle, if_pos]
    simp [papers, markSuicided, hdpos]

theorem papers_report {l : LossAccount} (h : o.papers.report = some l) :
    o.accountType = .loss ∧ o.lossAccount = l := by
  have h : (if o.accountType = .loss then some o.lossAccount else none) = some l := h
  split at h
  · exact ⟨‹_›, some.inj h⟩
  · cases h

theorem papers_mark (h : o.papers.mark.isSome) : o.accountType = .lossMark := by
  have h : (if o.accountType = .lossMark then some o.lossMarkAccount.lossMark else none).isSome := h
  split at h
  · assumption
  · cases h

/-- An account that is not stray has a loss record only if it is a report. -/
theorem type_of_state (hstray : ¬ o.papers.stray) (hstate : o.lossAccount.state ≠ .apply) :
    o.accountType = .loss := by
  by_contra htype
  exact hstray (.inl ⟨htype, fun heq => hstate (by rw [heq])⟩)

end StateObject

/-! ## 2. Files -/

/-- The papers of all accounts. -/
abbrev Files := Address → Papers

namespace Files

/-- The account that keeps the marks. -/
abbrev markAddress : Address := specialAddressForRegisterLose

def marks (p : Files) : LossMark := (p markAddress).mark.getD 0

def docket (p : Files) : Docket where
  reports a := (p a).report
  lost a := (p a).lost
  mark := p.marks

def setReport (p : Files) (r : Address) (o : Option LossAccount) : Files :=
  update p r { p r with report := o }

def setLost (p : Files) (a : Address) (flag : Bool) : Files := update p a { p a with lost := flag }

def setMarks (p : Files) (m : LossMark) : Files :=
  update p markAddress { p markAddress with mark := some m }

def erase (p : Files) (a : Address) : Files := update p a {}

variable {p : Files}

/-- What is not written stays. -/
theorem update_same {β : Type} (g : Papers → β) {a : Address} {q : Papers} (h : g q = g (p a))
    (b : Address) :
    g (update p a q b) = g (p b) := by
  rw [update_apply]
  split
  · rw [h, ‹b = a›]
  · rfl

variable {β : Type} (g : Papers → β)

theorem setReport_same (hg : ∀ (q : Papers) o, g { q with report := o } = g q) (r : Address)
    (o : Option LossAccount) (a : Address) : g (p.setReport r o a) = g (p a) :=
  update_same g (hg (p r) o) a

theorem setLost_same (hg : ∀ (q : Papers) flag, g { q with lost := flag } = g q) (b : Address)
    (flag : Bool) (a : Address) : g (p.setLost b flag a) = g (p a) :=
  update_same g (hg (p b) flag) a

theorem setMarks_same (hg : ∀ (q : Papers) m, g { q with mark := m } = g q) (m : LossMark)
    (a : Address) :
    g (p.setMarks m a) = g (p a) :=
  update_same g (hg (p markAddress) (some m)) a

/-- What is written is there. -/
theorem update_map {β : Type} (g : Papers → β) (a : Address) (q : Papers) :
    (fun b => g (update p a q b)) = update (fun b => g (p b)) a (g q) := by
  funext b
  rw [update_apply, update_apply]
  split <;> rfl

theorem docket_setReport (r : Address) (o : Option LossAccount) :
    (p.setReport r o).docket = { p.docket with reports := update p.docket.reports r o } := by
  refine Docket.ext (update_map Papers.report r _)
    (funext fun a => setReport_same Papers.lost (fun _ _ => rfl) r o a) ?_
  exact congrArg (getD · 0) (setReport_same Papers.mark (fun _ _ => rfl) r o markAddress)

theorem docket_setLost (b : Address) (flag : Bool) :
    (p.setLost b flag).docket = { p.docket with lost := update p.docket.lost b flag } := by
  refine Docket.ext (funext fun a => setLost_same Papers.report (fun _ _ => rfl) b flag a)
    (update_map Papers.lost b _) ?_
  exact congrArg (getD · 0) (setLost_same Papers.mark (fun _ _ => rfl) b flag markAddress)

theorem docket_setMarks (m : LossMark) : (p.setMarks m).docket = { p.docket with mark := m } := by
  refine Docket.ext (funext fun a => setMarks_same Papers.report (fun _ _ => rfl) m a)
    (funext fun a => setMarks_same Papers.lost (fun _ _ => rfl) m a) ?_
  have hmark : (p.setMarks m markAddress).mark = some m := by rw [setMarks, update_self]
  exact congrArg (getD · 0) hmark

theorem marks_setReport (r : Address) (o : Option LossAccount) :
    (p.setReport r o).marks = p.marks := by
  rw [marks, setReport_same Papers.mark fun _ _ => rfl, marks]

theorem setReport_setMarks {r : Address} (hr : r ≠ markAddress) (o : Option LossAccount)
    (m : LossMark) :
    (p.setReport r o).setMarks m = (p.setMarks m).setReport r o := by
  unfold setReport setMarks
  rw [update_of_ne hr.symm, update_of_ne hr, update_comm hr]

/-- Of an account that keeps no marks its report and its flag are erased. -/
theorem docket_erase {b : Address} (h : (p b).mark = none) :
    (p.erase b).docket =
      { p.docket with reports := update p.docket.reports b none,
                      lost := update p.docket.lost b false } := by
  refine Docket.ext (update_map Papers.report b _) (update_map Papers.lost b _) ?_
  exact congrArg (getD · 0) (update_same Papers.mark h.symm markAddress)

/-- **What holds of the papers between two transactions.**  The account that keeps the marks is
there once there is a report, and nothing else is at its address.  The accounts that are named as
lost are no reports. -/
structure Tidy (p : Files) : Prop where
  closing : ∀ a, (p a).closing = false
  stray : ∀ a, ¬ (p a).stray
  place : ∀ a, (p a).mark.isSome → a = markAddress
  apart : ∀ r l, (p r).report = some l → r ≠ markAddress ∧ (p markAddress).mark.isSome
  named : ∀ r l, (p r).report = some l → l.state ≠ .apply →
    (p l.lostAccount).report = none ∧ l.lostAccount ≠ markAddress

def reread (p : Files) : Files := fun a => (p a).reread

theorem docket_reread (p : Files) : p.reread.docket = p.docket.reread := rfl

namespace Tidy

section
variable (h : p.Tidy)
include h

theorem reread : p.reread.Tidy := by
  refine ⟨fun a => rfl, fun a => id, fun a ha => h.place a ha, fun r l hr => ?_,
    fun r l hr hstate => ?_⟩
  · obtain ⟨l₀, hl₀, -⟩ := map_eq_some_iff.mp hr
    exact h.apart r l₀ hl₀
  · obtain ⟨l₀, hl₀, rfl⟩ := map_eq_some_iff.mp hr
    obtain ⟨hnone, hne⟩ := h.named r l₀ hl₀ hstate
    refine ⟨?_, hne⟩
    show ((p l₀.lostAccount).report.map _) = none
    rw [hnone]
    rfl

/-- A write that keeps the report and the mark. -/
theorem update {b : Address} {q : Papers} (hreport : q.report = (p b).report)
    (hmark : q.mark = (p b).mark) (hstray : ¬ q.stray) (hclosing : q.closing = false) :
    Tidy (update p b q) := by
  have hreports := update_same Papers.report hreport
  have hmarks := update_same Papers.mark hmark
  refine ⟨fun a => ?_, fun a => ?_, fun a ha => ?_, fun r l hr => ?_, fun r l hr hstate => ?_⟩
  · rw [update_apply]
    split
    · exact hclosing
    · exact h.closing a
  · rw [update_apply]
    split
    · exact hstray
    · exact h.stray a
  · rw [hmarks] at ha
    exact h.place a ha
  · rw [hreports] at hr
    rw [hmarks]
    exact h.apart r l hr
  · rw [hreports] at hr ⊢
    exact h.named r l hr hstate

theorem setLost (b : Address) (flag : Bool) : (p.setLost b flag).Tidy :=
  h.update rfl rfl (h.stray b) (h.closing b)

theorem setMarks (m : LossMark) : (p.setMarks m).Tidy := by
  have hreports := setMarks_same (p := p) Papers.report (fun _ _ => rfl) m
  have hmark : (p.setMarks m markAddress).mark.isSome := by rw [Files.setMarks, update_self]; rfl
  refine ⟨fun a => ?_, fun a => ?_, fun a ha => ?_, fun r l hr => ?_, fun r l hr hstate => ?_⟩
  · exact (setMarks_same Papers.closing (fun _ _ => rfl) m a).trans (h.closing a)
  · exact fun hs => h.stray a ((setMarks_same Papers.stray (fun _ _ => rfl) m a).mp hs)
  · by_contra hne
    rw [Files.setMarks, update_of_ne hne] at ha
    exact hne (h.place a ha)
  · exact ⟨(h.apart r l ((hreports r).symm.trans hr)).1, hmark⟩
  · have hnamed := h.named r l ((hreports r).symm.trans hr) hstate
    exact ⟨(hreports _).trans hnamed.1, hnamed.2⟩

/-- A report is written at an address that is not the one of the marks.  If it is new it is nobody's
lost account, and if it has been revealed its lost account is no report. -/
theorem setReport {r : Address} {l : LossAccount} (hr : r ≠ markAddress)
    (hmark : (p markAddress).mark.isSome)
    (hfresh : (p r).report = none → ∀ r' l', (p r').report = some l' → l'.state ≠ .apply →
      l'.lostAccount ≠ r)
    (hlost : l.state ≠ .apply →
      l.lostAccount ≠ r ∧ (p l.lostAccount).report = none ∧ l.lostAccount ≠ markAddress) :
    (p.setReport r (some l)).Tidy := by
  have hmarks := setReport_same (p := p) Papers.mark (fun _ _ => rfl) r (some l)
  have hself : (p.setReport r (some l) r).report = some l := by rw [Files.setReport, update_self]
  have hother {a : Address} (ha : a ≠ r) : (p.setReport r (some l) a).report = (p a).report := by
    rw [Files.setReport, update_of_ne ha]
  refine ⟨fun a => ?_, fun a => ?_, fun a ha => ?_, fun r' l' hr' => ?_, fun r' l' hr' hstate => ?_⟩
  · exact (setReport_same Papers.closing (fun _ _ => rfl) r (some l) a).trans (h.closing a)
  · exact fun hs => h.stray a ((setReport_same Papers.stray (fun _ _ => rfl) r (some l) a).mp hs)
  · exact h.place a ((congrArg isSome (hmarks a)).symm.trans ha)
  · refine ⟨?_, (congrArg isSome (hmarks markAddress)).trans hmark⟩
    by_cases heq : r' = r
    · rw [heq]
      exact hr
    · rw [hother heq] at hr'
      exact (h.apart r' l' hr').1
  · by_cases heq : r' = r
    · subst heq
      rw [hself] at hr'
      cases hr'
      obtain ⟨hne, hnone, hplace⟩ := hlost hstate
      exact ⟨(hother hne).trans hnone, hplace⟩
    · rw [hother heq] at hr'
      obtain ⟨hnone, hplace⟩ := h.named r' l' hr' hstate
      refine ⟨(hother fun hat => ?_).trans hnone, hplace⟩
      rw [hat] at hnone
      exact hfresh hnone r' l' hr' hstate hat

theorem erase {b : Address} (hb : (p b).mark = none) : (p.erase b).Tidy := by
  have hmarks := update_same (p := p) (a := b) (q := {}) Papers.mark hb.symm
  -- nothing new is there
  have hsub {r : Address} {l : LossAccount} (hr : (p.erase b r).report = some l) : (p r).report =
      some l := by
    unfold Files.erase at hr
    rw [update_apply] at hr
    split at hr
    · cases hr
    · exact hr
  refine ⟨fun a => ?_, fun a => ?_, fun a ha => ?_, fun r l hr => ?_, fun r l hr hstate => ?_⟩
  · unfold Files.erase
    rw [update_apply]
    split
    · rfl
    · exact h.closing a
  · unfold Files.erase
    rw [update_apply]
    split
    · exact id
    · exact h.stray a
  · exact h.place a ((congrArg isSome (hmarks a)).symm.trans ha)
  · obtain ⟨hne, hmark⟩ := h.apart r l (hsub hr)
    exact ⟨hne, (congrArg isSome (hmarks markAddress)).trans hmark⟩
  · obtain ⟨hnone, hplace⟩ := h.named r l (hsub hr) hstate
    refine ⟨?_, hplace⟩
    by_contra hsome
    obtain ⟨l', hl'⟩ := ne_none_iff_exists'.mp hsome
    rw [hsub hl'] at hnone
    cases hnone

end

end Tidy

end Files

/-! ## 3. Worlds -/

namespace World

open StateObject Files

variable {w w' : World} {a b : Address} {o : StateObject}

def papers (w : World) : Files := w.view StateObject.papers {}

/-- The papers there will be once the marked accounts are deleted. -/
def filed (w : World) : Files := fun a => (w.papers a).settle

theorem papers_of_some (h : w a = some o) : w.papers a = o.papers := by
  rw [papers, view, h, elim_some]

theorem papers_of_none (h : w a = none) : w.papers a = {} := by
  rw [papers, view, h, elim_none]

/-- **The papers after the state has been stored and read again.** -/
theorem papers_ofTrie (s : StateDB) :
    (StateDB.ofTrie s.shown).world.papers = s.world.papers.reread := by
  funext a
  have hget : (StateDB.ofTrie s.shown).world a = s.shown a := by
    refine StateDB.getStateObject_ofTrie fun o ho => ?_
    obtain ⟨p, -, rfl⟩ := map_eq_some_iff.mp ho
    exact p.stored_deleted
  have hworld : s.shown a = (s.world a).map stored := rfl
  cases ho : s.world a with
  | none =>
    rw [ho] at hworld
    rw [papers_of_none (hget.trans hworld), reread, papers_of_none ho]
    rfl
  | some o =>
    rw [ho] at hworld
    rw [papers_of_some (hget.trans hworld), reread, papers_of_some ho, papers_stored]

theorem exists_of_report {l : LossAccount} (h : (w.papers a).report = some l) :
    ∃ o, w a = some o ∧ o.accountType = .loss ∧ o.lossAccount = l := by
  cases ho : w a with
  | none =>
    rw [papers_of_none ho] at h
    cases h
  | some o =>
    rw [papers_of_some ho] at h
    exact ⟨o, rfl, papers_report h⟩

/-- A report is not a Regular account, and so not lost. -/
theorem of_report {l : LossAccount} (h : (w.papers a).report = some l) :
    (w.papers a).lost = false ∧ (w.papers a).mark = none := by
  obtain ⟨o, ho, htype, -⟩ := exists_of_report h
  rw [papers_of_some ho]
  simp [StateObject.papers, htype]

theorem papers_put (w : World) (a : Address) (o : StateObject) :
    (w.put a o).papers = update w.papers a o.papers := by
  funext b
  rw [papers, view_put, update_apply]
  rfl

theorem papers_credit (w : World) (a : Address) (v : Int) : (w.credit a v).papers = w.papers :=
  view_credit remote_papers.toCashless w a v

theorem papers_setNonce_world (w : World) (a : Address) (n : UInt64) :
    (w.setNonce a n).papers = w.papers :=
  view_write remote_papers.regular (papers_setNonce · n) w a

theorem papers_updateLossMark (h : w markAddress = none ∨ (w.papers markAddress).mark.isSome)
    (lastBits : UInt32) (flag : Bool) :
    (w.updateLossMark lastBits flag).papers =
      w.papers.setMarks (w.papers.marks.setMark (lastBits.toNat % 1024) flag) := by
  rw [updateLossMark, papers_put, setMarks, marks]
  cases ho : w markAddress with
  | none =>
    have hnew : (new .lossMark).papers = { mark := some 0 } :=
      Papers.ext rfl rfl rfl (eq_false (by rintro (⟨-, h⟩ | ⟨h, -⟩) <;> exact h rfl)) rfl
    rw [papers_of_none ho, lossMarkObject, getD_none, papers_lossMarkAccount rfl, hnew]
    rfl
  | some o =>
    have hmark : o.accountType = .lossMark := by
      refine papers_mark ?_
      rcases h with h | h
      · rw [h] at ho
        cases ho
      · rwa [papers_of_some ho] at h
    have hvalue : o.papers.mark = some o.lossMarkAccount.lossMark := if_pos hmark
    rw [papers_of_some ho, lossMarkObject, getD_some, papers_lossMarkAccount hmark, hvalue]
    rfl

theorem papers_flag (h : w a = some o) (ho : o.accountType = .regular) (flag : Bool) :
    (w.setRegularLossState a flag).papers = w.papers.setLost a flag := by
  rw [setRegularLossState, modify_of_some h, papers_put, papers_setState ho, setLost,
    papers_of_some h]

theorem papers_unflag (w : World) (a : Address) :
    (w.setRegularLossState a false).papers = w.papers.setLost a false := by
  rw [setRegularLossState, setLost]
  cases ho : w a with
  | none =>
    rw [modify_of_none ho, papers_of_none ho]
    exact (update_eq_self_iff.mpr (papers_of_none ho).symm).symm
  | some o => rw [modify_of_some ho, papers_put, papers_setState_false, papers_of_some ho]

theorem filed_of_papers_eq (h : w'.papers = w.papers) : w'.filed = w.filed := by
  unfold filed
  rw [h]

theorem filed_eq_papers (h : w.papers.Tidy) : w.filed = w.papers :=
  funext fun a => Papers.settle_of_not_closing (h.closing a)

theorem filed_suicide (hstray : ¬ (w.papers a).stray) (hw : w.suicide a = some w') :
    w'.filed = w.filed.erase a := by
  rw [suicide_eq_modify hw]
  cases ho : w a with
  | none =>
    rw [modify_of_none ho]
    refine (update_eq_self_iff.mpr ?_).symm
    rw [filed, papers_of_none ho]
    rfl
  | some o =>
    rw [modify_of_some ho]
    funext b
    rw [filed, papers_put, erase, update_apply, update_apply]
    split
    · refine settle_markSuicided ?_
      rwa [papers_of_some ho] at hstray
    · rfl

end World

end ProbeChain
