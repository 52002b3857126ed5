/-
# The protocol of loss reports

What the operations on loss reports are for, without accounts, balances and transactions.  Whoever
has lost the key of an account registers a report, which keeps one of 1024 marks; reveals later
which account it is about, which is then flagged as lost and the mark given back; and takes over the
account after some time.  Before it is revealed a report can be removed, and afterwards the owner of
the account can reject it.

Two things are proved of every run of it.  A lost account is named by a report that has been
revealed (`named_step`), and the state of a report only goes forward (`forward_step`).  The third,
that the marks are those of the reports not yet revealed, fails for one event and no other
(`marks_step_iff`): rejecting a report gives its mark back a second time, and by then it may be the
mark of another report.
-/
import ProbeChain.Lib.Slots
import ProbeChain.Pool.Validate

namespace ProbeChain

open Function

/-! ## 1. Marks -/

theorem LossMark.getMark_setMark (m : LossMark) {i : Nat} (hi : i < 1024) (flag : Bool) (j : Nat) :
    (m.setMark i flag).getMark j = if j = i then flag else m.getMark j := by
  unfold LossMark.setMark
  rw [if_neg (by omega)]
  unfold LossMark.getMark
  by_cases hj : 1023 < j
  · rw [if_pos hj, if_pos hj, if_neg (by omega)]
  · rw [if_neg hj, if_neg hj]
    have hbit : (1#1024 <<< i).getLsbD j = decide (j = i) := by
      by_cases hji : j = i
      · subst hji
        simp
        omega
      · by_cases hlt : j < i
        · simp [hlt, hji]
        · have hpos : j - i ≠ 0 := by omega
          simp [hpos, hji]
    cases flag with
    | true =>
      rw [if_pos rfl, BitVec.getLsbD_or, hbit]
      by_cases hji : j = i <;> simp [hji]
    | false =>
      rw [if_neg Bool.false_ne_true, BitVec.getLsbD_and, BitVec.getLsbD_not, hbit]
      by_cases hji : j = i
      · simp [hji]
      · have hlt : j < 1024 := by omega
        simp [hji, hlt]

theorem LossMark.getMark_zero (j : Nat) : LossMark.getMark 0 j = false := by
  unfold LossMark.getMark
  split
  · rfl
  · exact BitVec.getLsbD_zero

def LossMark.getMarkedIndex (m : LossMark) : List UInt16 :=
  (List.range 1024).foldl (fun ret i => if m.getLsbD i then ret ++ [.ofNat i] else ret) []

theorem foldl_append_if {α β : Type} (p : α → Bool) (f : α → β) (l : List α) (ret : List β) :
    l.foldl (fun ret i => if p i then ret ++ [f i] else ret) ret = ret ++ (l.filter p).map f := by
  induction l generalizing ret with
  | nil => simp
  | cons i l ih =>
    rw [List.foldl_cons, ih, List.filter_cons]
    split <;> simp

/-- **The marks are an array of bits**: setting one changes no other, and all that are set are
listed. -/
theorem LossMark.marks_spec (m : LossMark) {i : Nat} (hi : i < 1024) (v : Bool) :
    (m.setMark i v).getMark i = v ∧
    (∀ j < 1024, j ≠ i → (m.setMark i v).getMark j = m.getMark j) ∧
    m.getMarkedIndex.map UInt16.toNat = (List.range 1024).filter m.getMark := by
  refine ⟨by simp [getMark_setMark m hi], fun j _ hj => by simp [getMark_setMark m hi, hj], ?_⟩
  rw [getMarkedIndex, foldl_append_if, List.nil_append, List.map_map]
  have hread : (List.range 1024).filter m.getLsbD = (List.range 1024).filter m.getMark := by
    refine List.filter_congr fun j hj => ?_
    rw [getMark, if_neg (by have := List.mem_range.mp hj; omega)]
  rw [hread]
  refine (List.map_congr_left fun j hj => ?_).trans (List.map_id _)
  have hlt := List.mem_range.mp (List.mem_of_mem_filter hj)
  exact UInt16.toNat_ofNat_of_lt (hlt.trans (by decide))

theorem LossMark.marks_spec_of_one : (1 : Nat) < 1024 ∧
    (LossMark.setMark 0 1 true).getMark 1 = true :=
  ⟨by decide, (LossMark.marks_spec 0 (by decide) true).1⟩

/-! ## 2. Events -/

namespace LossAccount

/-- The mark that belongs to a report. -/
def bit (l : LossAccount) : Nat := l.lastBits.toNat % 1024

theorem bit_lt (l : LossAccount) : l.bit < 1024 := Nat.mod_lt _ (by decide)

end LossAccount

/-- The reports, by their addresses, the accounts that are flagged as lost, and the marks. -/
@[ext]
structure Docket where
  reports : Address → Option LossAccount
  lost : Address → Bool
  mark : LossMark

inductive LossEvent where
  | idle
  /-- an account is closed that is no report -/
  | close (account : Address)
  | register (report : Address) (record : LossAccount)
  | reveal (report lost benefit : Address) (height : Option Nat)
  | transfer (report : Address)
  | remove (report : Address)
  | reject (report : Address)
  /-- a report that has succeeded is closed together with the lost account -/
  | cancel (report : Address)

/-- The record of a report that is revealed. -/
def LossAccount.reveal (l : LossAccount) (lost benefit : Address) (height : Option Nat) :
    LossAccount :=
  { l with lostAccount := lost, newAccount := benefit, state := .reveal, height := height }

namespace Docket

/-- What may happen. -/
inductive Step : Docket → LossEvent → Docket → Prop
  | idle (d : Docket) : Step d .idle d
  | close (d : Docket) (a : Address) : Step d (.close a) { d with lost := update d.lost a false }
  | register {d : Docket} {r : Address} {l : LossAccount} (hfree : d.reports r = none)
      (hstate : l.state = .apply) (hmark : d.mark.getMark l.bit = false) :
      Step d (.register r l)
        { d with reports := update d.reports r (some l), mark := d.mark.setMark l.bit true }
  | reveal {d : Docket} {r : Address} {l : LossAccount} (hreport : d.reports r = some l)
      (hstate : l.state = .apply) {a : Address} (hlost : d.lost a = false) (b : Address)
        (h : Option Nat) :
      Step d (.reveal r a b h)
        { reports := update d.reports r (some (l.reveal a b h))
          lost := update d.lost a true
          mark := d.mark.setMark l.bit false }
  | transfer {d : Docket} {r : Address} {l : LossAccount} (hreport : d.reports r = some l)
      (hstate : l.state = .reveal) :
      Step d (.transfer r)
        { d with reports := update d.reports r (some { l with state := .success }) }
  | remove {d : Docket} {r : Address} {l : LossAccount} (hreport : d.reports r = some l)
      (hstate : l.state = .apply) :
      Step d (.remove r)
        { d with reports := update d.reports r none, mark := d.mark.setMark l.bit false }
  | reject {d : Docket} {r : Address} {l : LossAccount} (hreport : d.reports r = some l)
      (hstate : l.state = .reveal) :
      Step d (.reject r)
        { reports := update d.reports r none
          lost := update d.lost l.lostAccount false
          mark := d.mark.setMark l.bit false }
  | cancel {d : Docket} {r : Address} {l : LossAccount} (hreport : d.reports r = some l)
      (hstate : l.state = .success) :
      Step d (.cancel r)
        { d with
          reports := update d.reports r none
          lost := update d.lost l.lostAccount false }

variable {d d' : Docket} {e : LossEvent}

/-! ## 3. Lost accounts are named -/

/-- The report names `a` as the account that is lost. -/
def Names (d : Docket) (r a : Address) : Prop :=
  ∃ l, d.reports r = some l ∧ l.lostAccount = a ∧ l.state ≠ .apply

/-- Every account that is flagged as lost is named by a report that has been revealed. -/
def Named (d : Docket) : Prop := ∀ a, d.lost a = true → ∃ r, d.Names r a

variable {r r' a : Address} {l : LossAccount}

/-- A report keeps its name while only other reports change. -/
theorem Names.update (h : d.Names r a) (hne : r ≠ r') {o : Option LossAccount}
    (hd : d'.reports = update d.reports r' o) : d'.Names r a := by
  obtain ⟨l, hl, hname⟩ := h
  refine ⟨l, ?_, hname⟩
  rw [hd, update_of_ne hne]
  exact hl

theorem Names.ne_of_none (h : d.Names r a) (hfree : d.reports r' = none) : r ≠ r' := by
  rintro rfl
  obtain ⟨l, hl, -⟩ := h
  rw [hfree] at hl
  cases hl

/-- A report that is not yet revealed names nobody. -/
theorem Names.ne_of_apply (h : d.Names r a) (hreport : d.reports r' = some l)
    (hstate : l.state = .apply) :
    r ≠ r' := by
  rintro rfl
  obtain ⟨l', hl', -, hrevealed⟩ := h
  rw [hreport] at hl'
  cases hl'
  exact hrevealed hstate

theorem Names.ne_of_lostAccount (h : d.Names r a) (hreport : d.reports r' = some l)
    (hne : a ≠ l.lostAccount) : r ≠ r' := by
  rintro rfl
  obtain ⟨l', hl', hname, -⟩ := h
  rw [hreport] at hl'
  cases hl'
  exact hne hname.symm

theorem lost_update {lost : Address → Bool} {b : Address} {flag : Bool}
    (h : update lost a flag b = true) : b = a ∧ flag = true ∨ b ≠ a ∧ lost b = true := by
  rw [update_apply] at h
  split at h
  · exact .inl ⟨‹_›, h⟩
  · exact .inr ⟨‹_›, h⟩

/-- **Lost accounts stay named.** -/
theorem named_step (h : d.Named) (hs : d.Step e d') : d'.Named := by
  intro a ha
  cases hs with
  | idle => exact h a ha
  | close b =>
    rcases lost_update ha with ⟨-, hflag⟩ | ⟨-, hlost⟩
    · cases hflag
    · exact h a hlost
  | register hfree hstate hmark =>
    obtain ⟨r, hr⟩ := h a ha
    exact ⟨r, hr.update (hr.ne_of_none hfree) rfl⟩
  | reveal hreport hstate hunlost b height =>
    rename_i r l a'
    rcases lost_update ha with ⟨rfl, -⟩ | ⟨-, hlost⟩
    · exact ⟨r, l.reveal a b height, update_self _ _ _, rfl, by rintro ⟨⟩⟩
    · obtain ⟨r', hr'⟩ := h a hlost
      exact ⟨r', hr'.update (hr'.ne_of_apply hreport hstate) rfl⟩
  | transfer hreport hstate =>
    rename_i r l
    obtain ⟨r', hr'⟩ := h a ha
    by_cases hr : r' = r
    · subst hr
      obtain ⟨l', hl', hname, -⟩ := hr'
      rw [hreport] at hl'
      cases hl'
      exact ⟨r', _, update_self _ _ _, hname, by rintro ⟨⟩⟩
    · exact ⟨r', hr'.update hr rfl⟩
  | remove hreport hstate =>
    obtain ⟨r', hr'⟩ := h a ha
    exact ⟨r', hr'.update (hr'.ne_of_apply hreport hstate) rfl⟩
  | reject hreport hstate =>
    rcases lost_update ha with ⟨-, hflag⟩ | ⟨hne, hlost⟩
    · cases hflag
    · obtain ⟨r', hr'⟩ := h a hlost
      exact ⟨r', hr'.update (hr'.ne_of_lostAccount hreport hne) rfl⟩
  | cancel hreport hstate =>
    rcases lost_update ha with ⟨-, hflag⟩ | ⟨hne, hlost⟩
    · cases hflag
    · obtain ⟨r', hr'⟩ := h a hlost
      exact ⟨r', hr'.update (hr'.ne_of_lostAccount hreport hne) rfl⟩

/-! ## 4. Reports go forward -/

end Docket

/-- The next state, or the same. -/
inductive LossState.Forward : LossState → LossState → Prop
  | stay (s : LossState) : Forward s s
  | reveal : Forward .apply .reveal
  | success : Forward .reveal .success

namespace Docket

variable {d d' : Docket} {e : LossEvent} {r : Address} {l l' : LossAccount}

/-- What a report that is written to was and is. -/
theorem forward_update {reports : Address → Option LossAccount} {r' : Address}
    {o : Option LossAccount} (hl : reports r = some l) (hl' : update reports r' o r = some l')
    (hwritten : r = r' → o = some l' → l.state.Forward l'.state) : l.state.Forward l'.state := by
  rw [update_apply] at hl'
  split at hl'
  · exact hwritten ‹_› hl'
  · rw [hl] at hl'
    cases hl'
    exact .stay _

/-- **The state of a report goes forward, one step at a time.** -/
theorem forward_step (hs : d.Step e d') (hl : d.reports r = some l) (hl' : d'.reports r = some l') :
    l.state.Forward l'.state := by
  cases hs with
  | idle =>
    rw [hl] at hl'
    cases hl'
    exact .stay _
  | close b =>
    rw [show d.reports r = some l' from hl'] at hl
    cases hl
    exact .stay _
  | register hfree hstate hmark =>
    refine forward_update hl hl' fun heq _ => ?_
    rw [← heq, hl] at hfree
    cases hfree
  | reveal hreport hstate hunlost b height =>
    refine forward_update hl hl' fun heq ho => ?_
    rw [← heq, hl] at hreport
    cases hreport
    cases ho
    rw [hstate]
    exact .reveal
  | transfer hreport hstate =>
    refine forward_update hl hl' fun heq ho => ?_
    rw [← heq, hl] at hreport
    cases hreport
    cases ho
    rw [hstate]
    exact .success
  | remove hreport hstate => exact forward_update hl hl' (by rintro - ⟨⟩)
  | reject hreport hstate => exact forward_update hl hl' (by rintro - ⟨⟩)
  | cancel hreport hstate => exact forward_update hl hl' (by rintro - ⟨⟩)

/-! ## 5. Marks and the reports that keep them -/

/-- The mark that an address keeps: that of its report, until it is revealed. -/
def keeps (d : Docket) (r : Address) : Option Nat :=
  (d.reports r).bind fun l => if l.state = .apply then some l.bit else none

theorem keeps_eq_some {b : Nat} :
    d.keeps r = some b ↔ ∃ l, d.reports r = some l ∧ l.state = .apply ∧ l.bit = b := by
  unfold keeps
  rw [Option.bind_eq_some_iff]
  refine exists_congr fun l => and_congr_right fun _ => ?_
  split
  · simp only [Option.some.injEq, ‹l.state = .apply›, true_and]
  · simp only [reduceCtorEq, ‹¬ l.state = .apply›, false_and]

/-- The marks are those of the reports that are not yet revealed, each of one report. -/
structure Exact (d : Docket) : Prop where
  marks : Slots.Exact d.mark.getMark d.keeps
  single : Slots.Single d.keeps

/-- The reports as they are read again: only the height may change. -/
def reread (d : Docket) : Docket :=
  { d with
    reports := fun r => (d.reports r).map fun l => { l with height := some (l.height.getD 0) } }

theorem reread_eq_some : d.reread.reports r = some l ↔
    ∃ l₀, d.reports r = some l₀ ∧ l = { l₀ with height := some (l₀.height.getD 0) } := by
  rw [reread, Option.map_eq_some_iff]
  exact exists_congr fun l₀ => and_congr_right fun _ => eq_comm

theorem Named.reread (h : d.Named) : d.reread.Named := by
  intro a ha
  obtain ⟨r, l, hl, hname, hstate⟩ := h a ha
  exact ⟨r, _, reread_eq_some.mpr ⟨l, hl, rfl⟩, hname, hstate⟩

theorem forward_reread (hl : d.reports r = some l) (hl' : d.reread.reports r = some l') :
    l.state.Forward l'.state := by
  obtain ⟨l₀, hl₀, rfl⟩ := reread_eq_some.mp hl'
  cases hl.symm.trans hl₀
  exact .stay _

theorem keeps_reread (d : Docket) : d.reread.keeps = d.keeps := by
  funext r
  unfold keeps Docket.reread
  dsimp only
  cases d.reports r with
  | none => rfl
  | some l => rfl

theorem Exact.reread (h : d.Exact) : d.reread.Exact := by
  refine ⟨?_, ?_⟩ <;> rw [keeps_reread]
  · exact h.marks
  · exact h.single

/-- The event rejects a report whose mark is kept by another one. -/
def Clobbers (d : Docket) (e : LossEvent) : Prop :=
  ∃ r l, e = .reject r ∧ d.reports r = some l ∧ ∃ r', d.keeps r' = some l.bit

theorem keeps_update (hreports : d'.reports = update d.reports r (some l)) :
    d'.keeps = update d.keeps r (if l.state = .apply then some l.bit else none) := by
  funext r'
  rw [update_apply, keeps, hreports, update_apply]
  split <;> rfl

theorem keeps_erase (hreports : d'.reports = update d.reports r none) :
    d'.keeps = update d.keeps r none := by
  funext r'
  rw [update_apply, keeps, hreports, update_apply]
  split <;> rfl

theorem getMark_setMark_bit (m : LossMark) (l : LossAccount) (flag : Bool) :
    (m.setMark l.bit flag).getMark = update m.getMark l.bit flag := by
  funext j
  rw [LossMark.getMark_setMark m l.bit_lt, update_apply]

/-- An address without a report that is not revealed keeps no mark, and giving it none changes
nothing. -/
theorem keeps_eq_self (hkeeps : d.keeps r = none) : update d.keeps r none = d.keeps := by
  rw [← hkeeps, update_eq_self]

theorem keeps_of_state (hreport : d.reports r = some l) (hstate : l.state ≠ .apply) :
    d.keeps r = none := by
  rw [keeps, hreport, Option.bind_some, if_neg hstate]

/-- No two reports ever keep one mark. -/
theorem single_step (h : d.Exact) (hs : d.Step e d') : Slots.Single d'.keeps := by
  cases hs with
  | idle => exact h.single
  | close b => exact h.single
  | register hfree hstate hmark =>
    rename_i r l
    rw [keeps_update rfl, if_pos hstate]
    refine h.single.take (fun j hj => ?_) r
    rw [(h.marks l.bit).mpr ⟨j, hj⟩] at hmark
    cases hmark
  | reveal hreport hstate hunlost b height =>
    rw [keeps_update rfl, if_neg (by rintro ⟨⟩)]
    exact h.single.release _
  | transfer hreport hstate =>
    rw [keeps_update rfl, if_neg (by rintro ⟨⟩)]
    exact h.single.release _
  | remove hreport hstate =>
    rw [keeps_erase rfl]
    exact h.single.release _
  | reject hreport hstate =>
    rw [keeps_erase rfl]
    exact h.single.release _
  | cancel hreport hstate =>
    rw [keeps_erase rfl]
    exact h.single.release _

/-- **The marks stay right, but for one event.** -/
theorem marks_step_iff (h : d.Exact) (hs : d.Step e d') :
    Slots.Exact d'.mark.getMark d'.keeps ↔ ¬ d.Clobbers e := by
  have hharmless (hd' : Slots.Exact d'.mark.getMark d'.keeps) (he : ∀ r, e ≠ .reject r) :
      Slots.Exact d'.mark.getMark d'.keeps ↔ ¬ d.Clobbers e :=
    iff_of_true hd' fun ⟨r, _, hr, _⟩ => he r hr
  cases hs with
  | idle => exact hharmless h.marks (by rintro r ⟨⟩)
  | close b => exact hharmless h.marks (by rintro r ⟨⟩)
  | register hfree hstate hmark =>
    refine hharmless ?_ (by rintro r ⟨⟩)
    rw [keeps_update rfl, if_pos hstate, getMark_setMark_bit]
    exact h.marks.take (by rw [keeps, hfree, Option.bind_none]) _
  | reveal hreport hstate hunlost b height =>
    refine hharmless ?_ (by rintro r ⟨⟩)
    rw [keeps_update rfl, if_neg (by rintro ⟨⟩), getMark_setMark_bit]
    exact h.marks.release h.single (keeps_eq_some.mpr ⟨_, hreport, hstate, rfl⟩)
  | transfer hreport hstate =>
    refine hharmless ?_ (by rintro r ⟨⟩)
    rw [keeps_update rfl, if_neg (by rintro ⟨⟩), keeps_eq_self (keeps_of_state hreport ?_)]
    · exact h.marks
    · rw [hstate]
      rintro ⟨⟩
  | remove hreport hstate =>
    refine hharmless ?_ (by rintro r ⟨⟩)
    rw [keeps_erase rfl, getMark_setMark_bit]
    exact h.marks.release h.single (keeps_eq_some.mpr ⟨_, hreport, hstate, rfl⟩)
  | reject hreport hstate =>
    rename_i r l
    -- the report kept no mark any more, so that only the table changes
    have hnone := keeps_of_state hreport (by rw [hstate]; rintro ⟨⟩)
    rw [keeps_erase rfl, keeps_eq_self hnone, getMark_setMark_bit, h.marks.clear_iff]
    constructor
    · rintro hfree ⟨r₀, l₀, heq, hl₀, r', hr'⟩
      cases heq
      rw [hreport] at hl₀
      cases hl₀
      exact hfree r' hr'
    · intro hfree r' hr'
      exact hfree ⟨r, l, rfl, hreport, r', hr'⟩
  | cancel hreport hstate =>
    refine hharmless ?_ (by rintro r ⟨⟩)
    rw [keeps_erase rfl, keeps_eq_self (keeps_of_state hreport ?_)]
    · exact h.marks
    · rw [hstate]
      rintro ⟨⟩

end Docket

end ProbeChain
