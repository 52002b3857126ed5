/-
# What is left to be deleted

`Suicide` only marks an account; `Finalise` deletes the marked accounts it finds among the dirty
ones.  In between the account is still there, with its balance and its nonce.

Only some types of accounts have a balance and a nonce, and these are the ones that matter here: an
account of such a type that is marked is `doomed`.  Everything the machine does keeps the doomed
accounts dirty (`Marked.actionStep`), so that none is left when the transaction is finalised
(`noneDoomed_finalise`).
-/
import ProbeChain.Evm.Effects
import ProbeChain.State.Supply
import ProbeChain.State.Touched

namespace ProbeChain

open Option List World

/-! ## 1. Doomed accounts -/

namespace StateObject

/-- Destroyed, and of a type that has a balance and a nonce. -/
def doomed (o : StateObject) : Bool := o.suicided && o.accountType.holdsBalance

theorem unseen_doomed : Unseen doomed false where
  balance o x := by rw [doomed, setBalance_suicided, setBalance_accountType, doomed]
  new t := by cases t <;> rfl

theorem doomed_setNonce (o : StateObject) (n : UInt64) : (o.setNonce n).doomed = o.doomed := by
  unfold setNonce
  split <;> rfl

/-- Destroyed, and of a type for which `Suicide` makes an entry in the journal. -/
def closing (o : StateObject) : Bool :=
  o.suicided && (o.accountType ≠ .lossMark && o.accountType ≠ .dpos)

theorem closing_of_doomed {o : StateObject} (h : o.doomed = true) : o.closing = true := by
  obtain ⟨hs, hholds⟩ := Bool.and_eq_true_iff.mp h
  rw [closing, hs, Bool.true_and]
  cases ht : o.accountType <;> rw [ht] at hholds <;> first | rfl | cases hholds

end StateObject

namespace World

open StateObject

/-- Nothing is left to be deleted, as between two transactions. -/
def NoneDoomed (w : World) : Prop := ∀ a, w.view doomed false a = false

variable {X : Externals} {w w' : World}

/-- A write to an account, which is made for it if need be. -/
theorem view_write {β : Type} {g : StateObject → β} {d : β} (hnew : g (new .regular) = d)
    {f : StateObject → StateObject} (hf : ∀ o, g (f o) = g o) (w : World) (c : Address) :
    (w.put c (f ((w c).getD (new .regular)))).view g d = w.view g d := by
  refine view_put_of_eq ?_
  rw [hf, view]
  cases w c with
  | none => exact hnew
  | some o => rfl

/-- Nothing else that the machine does to the accounts makes one doomed. -/
theorem doomed_op {o : DBOp} (ho : (Action.op o).Direct) (hw : w.act X (.op o) = some w')
    {b : Address} (hb : w'.view doomed false b = true) : w.view doomed false b = true := by
  cases o with
  | addBalance a v => rwa [← some.inj hw, view_credit unseen_doomed.toCashless] at hb
  | subBalance a v => rwa [← some.inj hw, view_credit unseen_doomed.toCashless] at hb
  | setNonce a n =>
    rw [← some.inj hw] at hb
    exact (congrFun (view_write (d := false) rfl (doomed_setNonce · n) w a) b).symm.trans hb
  | setCode a codeHash code =>
    rw [← some.inj hw] at hb
    exact (congrFun
      (view_write (d := false) rfl (f := (·.setCode codeHash code)) (fun _ => rfl) w a)
      b).symm.trans hb
  | setState a key value =>
    rw [← some.inj hw] at hb
    exact (congrFun (view_write (d := false) rfl (f := (·.setState key value)) (fun _ => rfl) w a)
      b).symm.trans hb
  | createContractAccount a =>
    rw [← some.inj hw, openContract, view_put] at hb
    split at hb
    · cases hb
    · exact hb
  | addLog log => rwa [← some.inj hw] at hb
  | addRefund gas => rwa [← some.inj hw] at hb
  | subRefund gas => rwa [← some.inj hw] at hb
  | _ => exact ho.elim

end World

/-! ## 2. Doomed accounts are dirty

The entry that `Suicide` makes in the journal keeps the account dirty, and no action removes one. -/

theorem World.view_of_imp {w : World} {f g : StateObject → Bool}
    (hfg : ∀ o, f o = true → g o = true) {a : Address} (h : w.view f false a = true) :
    w.view g false a = true := by
  rw [view] at h ⊢
  cases ho : w a with
  | none =>
    rw [ho] at h
    cases h
  | some o =>
    rw [ho, elim_some] at h
    exact hfg o h

namespace StateDB

open StateObject

/-- The accounts that are to go are dirty, and so will be found. -/
def Marked (s : StateDB) : Prop := ∀ a, s.world.view doomed false a = true → a ∈ s.dirties

theorem marked_of_noneDoomed {s : StateDB} (h : s.world.NoneDoomed) : Marked s := by
  intro a ha
  rw [h a] at ha
  cases ha

variable {s t : StateDB} {ctx : TxContext} {a b : Address} {g : StateObject → Bool}

theorem not_closing_of_none (h : s.getStateObject a = none) :
    s.world.view closing false a = false := by
  rw [view, world_apply, h, elim_none]

theorem mem_dirties_suicide (h : s.suicide a = some t)
    (hclosing : t.world.view closing false a = true) :
    a ∈ t.dirties := by
  unfold suicide at h
  split at h
  · rw [← some.inj h, not_closing_of_none ‹_›] at hclosing
    cases hclosing
  next o ho =>
    obtain ⟨entries, hentries, h⟩ := bind_eq_some_iff.mp h
    obtain rfl := some.inj h
    have hdeleted : o.markSuicided.deleted = false := (getStateObject_eq_some.mp ho).2
    rw [view, world_setStateObject _ _ hdeleted, put_self, elim_some] at hclosing
    -- all types but two leave an entry
    unfold suicideChange at hentries
    split at hentries
    case h_1 =>
      obtain ⟨voteValue, -, hentries⟩ := bind_eq_some_iff.mp hentries
      obtain rfl := some.inj hentries
      exact mem_cons_self
    case h_2 =>
      obtain rfl := some.inj hentries
      exact mem_cons_self
    case h_3 =>
      obtain rfl := some.inj hentries
      exact mem_cons_self
    case h_4 =>
      obtain ⟨pledgeValue, -, hentries⟩ := bind_eq_some_iff.mp hentries
      obtain ⟨voteValue, -, hentries⟩ := bind_eq_some_iff.mp hentries
      obtain ⟨validPeriod, -, hentries⟩ := bind_eq_some_iff.mp hentries
      obtain rfl := some.inj hentries
      exact mem_cons_self
    case h_5 =>
      obtain ⟨height, -, hentries⟩ := bind_eq_some_iff.mp hentries
      obtain rfl := some.inj hentries
      exact mem_cons_self
    all_goals
      rename_i htype
      rw [closing, markSuicided, htype] at hclosing
      cases hclosing

theorem dirties_subset (h : s.journal <:+ t.journal) : s.dirties ⊆ t.dirties :=
  (h.filterMap JournalEntry.dirtied).subset

/-- A write that makes its account dirty. -/
theorem view_or_mem_dirties {e : JournalEntry} {o : StateObject} (he : e.dirtied = some a)
    (hdel : o.deleted = false)
    (hb : ((s.append e).setStateObject a o).world.view g false b = true) :
    s.world.view g false b = true ∨ b ∈ ((s.append e).setStateObject a o).dirties := by
  rw [world_setStateObject _ _ hdel, view_put] at hb
  split at hb
  · subst_vars
    exact .inr (mem_filterMap.mpr ⟨e, mem_cons_self, he⟩)
  · exact .inl hb

/-- **Whatever is closed is dirty.** -/
theorem Changes.view_or_mem_dirties {votes : Bool} {A : Set Address} (h : Changes votes A s t)
    (hg : Unseen g false) (hclosing : ∀ o, g o = true → o.closing = true)
    (hb : t.world.view g false b = true) :
    s.world.view g false b = true ∨ b ∈ t.dirties := by
  induction h with
  | refl s => exact .inl hb
  | trans _ h' ih ih' =>
    rcases ih' hb with hbetween | hdirty
    · exact (ih hbetween).imp_right fun hdirty => dirties_subset h'.noted.journal hdirty
    · exact .inr hdirty
  | of_missing _ ih => exact ih hb
  | addBalance s a v =>
    rw [world_addBalance, view_credit hg.toCashless] at hb
    exact .inl hb
  | setBalance ho v =>
    rw [world_setBalance v ho, view_modify (fun o => hg.balance o v)] at hb
    exact .inl hb
  | create s a ty =>
    rw [world_getOrCreateObject, view_put_of_eq] at hb
    · exact .inl hb
    · rw [view]
      cases s.world a with
      | none => exact hg.new ty
      | some o => rfl
  | @replace _ s a ty o hdel hopen =>
    rw [world_setStateObject _ _ hdel, world_createObjectByAccType, put_put, view_put] at hb
    split at hb
    · have hsuicided := (Bool.and_eq_true_iff.mp (hclosing o hb)).1
      rw [hopen] at hsuicided
      cases hsuicided
    · exact .inl hb
  | updateLossMark s lastBits flag =>
    rw [world_updateLossMark, view_updateLossMark hg.toUnreported] at hb
    exact .inl hb
  | @suicide _ s t a _ ht =>
    by_cases hba : b = a
    · subst hba
      exact .inr (mem_dirties_suicide ht (view_of_imp hclosing hb))
    · have hview :=
        view_suicide (g := g) (d := false) ((world_suicide s a).symm.trans (congrArg _ ht)) b
      rw [if_neg hba, hb] at hview
      exact .inl hview.symm
  | note => exact .inl hb
  | copy _ hdel _ _ he _ => exact StateDB.view_or_mem_dirties he hdel hb
  | voteFor _ ho _ => exact StateDB.view_or_mem_dirties rfl (getStateObject_eq_some.mp ho).2 hb

/-- **So is whatever a call closes.** -/
theorem view_or_mem_dirties_callDB {X : Externals} (hg : Unseen g false)
    (hclosing : ∀ o, g o = true → o.closing = true) (h : callDB X s ctx = some t)
    (hb : t.world.view g false b = true) :
    s.world.view g false b = true ∨ b ∈ t.dirties :=
  (changes_callDB (.inl rfl) (callUndoable_univ X s ctx) h).view_or_mem_dirties hg hclosing hb

/-- **Actions keep the doomed accounts dirty.** -/
theorem Marked.actionStep {X : Externals} {s t : StateDB} {a : Action} (h : Marked s)
    (ha : a.Direct) (hs : actionStep X s a = some t) : Marked t := by
  intro b hb
  have hstay (hold : s.world.view doomed false b = true) : b ∈ t.dirties :=
    dirties_actionStep ha hs (h b hold)
  cases a with
  | hook caller dest value ctx =>
    exact (view_or_mem_dirties_callDB unseen_doomed (fun _ => closing_of_doomed) hs hb).elim hstay
      id
  | selfdestruct self beneficiary =>
    have hchanges : Changes true Set.univ s t :=
      .trans (.addBalance s beneficiary (s.getBalance self))
        (.suicide (fun _ _ => .inl (Set.mem_univ _)) hs)
    exact (hchanges.view_or_mem_dirties unseen_doomed (fun _ => closing_of_doomed) hb).elim hstay id
  | op o => exact hstay (doomed_op ha (world_actionStep ha hs) hb)

/-! ## 3. The end of the transaction -/

/-- A view that does not see the storage, and nothing of a doomed account, survives. -/
theorem view_finalise {β : Type} {g : StateObject → β} {d : β} (hstorage : ∀ o, g o.finalise = g o)
    (hgone : ∀ o : StateObject, o.suicided = true → g o = d) (s : StateDB) :
    s.finalise.world.view g d = s.world.view g d := by
  funext a
  rw [view, view, world_finalise]
  cases s.world a with
  | none => rfl
  | some o =>
    rw [bind_some]
    split
    · split
      · rw [elim_none, elim_some, hgone o ‹_›]
      · rw [elim_some, elim_some, hstorage]
    · rfl

/-- **After the transaction nothing is left to be deleted.** -/
theorem noneDoomed_finalise {s : StateDB} (h : Marked s) : s.finalise.world.NoneDoomed := by
  intro a
  have hmarked := h a
  rw [view] at hmarked ⊢
  rw [world_finalise]
  cases ho : s.world a with
  | none => rfl
  | some o =>
    rw [ho, elim_some] at hmarked
    rw [bind_some]
    by_cases hdirty : a ∈ s.dirties
    · rw [if_pos hdirty]
      by_cases hs : o.suicided = true
      · rw [if_pos hs, elim_none]
      · rw [if_neg hs, elim_some, doomed]
        change (o.suicided && o.accountType.holdsBalance) = false
        rw [Bool.eq_false_iff.mpr hs, Bool.false_and]
    · rw [if_neg hdirty, elim_some]
      exact Bool.eq_false_iff.mpr fun hdoomed => hdirty (hmarked hdoomed)

theorem noneDoomed_ofAccounts (accounts : List (Address × StateObject))
    (h : ∀ p ∈ accounts, p.2.suicided = false) : (ofAccounts accounts).world.NoneDoomed := by
  intro a
  rw [view]
  cases ho : (ofAccounts accounts).world a with
  | none => rfl
  | some o => rw [elim_some, doomed, h _ (mem_of_world_ofAccounts ho), Bool.false_and]

end StateDB

theorem Reverted.marked {s u : StateDB} (h : Reverted s u) (hs : s.Marked) : u.Marked := by
  intro a ha
  rw [h.world] at ha
  have hdirty := hs a ha
  rwa [StateDB.dirties, ← h.journal] at hdirty

end ProbeChain
