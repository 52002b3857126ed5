/-
# What the journal undoes

`Undoes A s t` says of a database `t` that has grown out of `s`: undoing the entries the journal has
gained leads back to `s`, the refund counter and the logs included, except for the CONTENT of the
accounts in `A`.  They only have to exist, as far as they did in `s`.

The accounts in `A` are those that some older entry will take care of anyway: an account that is
created is deleted again, and one that is replaced is put back, whatever has happened to it in
between.  In particular an account that does not exist in `s` can always be added to `A`
(`Undoes.of_missing`).

Each primitive of the database has one lemma here.  Most are undone from any state.  A change whose
`revert` works on a copy is not (`undoes_copy`), nor is the closing of the two bookkeeping accounts,
which leaves no entry at all (`undoes_suicide`).
-/
import ProbeChain.Lib.Undo
import ProbeChain.State.Refinement

namespace ProbeChain

open Option Function StateObject

namespace StateDB

/-! ## 1. The same, except for some accounts -/

/-- `t` has what `s` has; of the accounts in `A` only that they exist in both. -/
structure Restored (A : Set Address) (s t : StateDB) : Prop where
  objects : ∀ a, t.stateObjects a = s.stateObjects a ∨
    a ∈ A ∧ (s.getStateObject a).isSome ∧ (t.getStateObject a).isSome
  refund : t.refund = s.refund
  logs : t.logs = s.logs
  logSize : t.logSize = s.logSize

theorem getStateObject_congr {s t : StateDB} {a : Address}
    (h : t.stateObjects a = s.stateObjects a) : t.getStateObject a = s.getStateObject a := by
  unfold getStateObject
  rw [h]

theorem getStateObject_eq_some {s : StateDB} {a : Address} {o : StateObject} :
    s.getStateObject a = some o ↔ s.stateObjects a = some o ∧ o.deleted = false := by
  unfold getStateObject
  cases s.stateObjects a with
  | none => simp
  | some p =>
    simp only [some.injEq]
    by_cases hp : p.deleted = true
    · rw [if_pos hp]
      refine iff_of_false (by simp) ?_
      rintro ⟨rfl, ho⟩
      rw [hp] at ho
      cases ho
    · rw [if_neg hp, some.injEq]
      constructor
      · rintro rfl
        exact ⟨rfl, by simpa using hp⟩
      · exact And.left

@[simp] theorem getStateObject_setStateObject_self (s : StateDB) (a : Address) {o : StateObject}
    (h : o.deleted = false) : (s.setStateObject a o).getStateObject a = some o := by
  rw [getStateObject_eq_some]
  exact ⟨update_self .., h⟩

theorem getStateObject_setStateObject_of_ne (s : StateDB) {a b : Address} (o : StateObject)
    (h : b ≠ a) : (s.setStateObject a o).getStateObject b = s.getStateObject b :=
  getStateObject_congr (update_of_ne h ..)

variable {A B : Set Address} {s t u : StateDB} {a : Address} {o p : StateObject} {e : JournalEntry}

theorem Restored.refl (A : Set Address) (s : StateDB) : Restored A s s :=
  ⟨fun _ => .inl rfl, rfl, rfl, rfl⟩

theorem Restored.trans (h : Restored A s t) (h' : Restored A t u) : Restored A s u := by
  refine ⟨fun a => ?_, h'.refund.trans h.refund, h'.logs.trans h.logs, h'.logSize.trans h.logSize⟩
  rcases h.objects a with hst | ⟨ha, hs, ht⟩ <;> rcases h'.objects a with htu | ⟨ha', ht', hu⟩
  · exact .inl (htu.trans hst)
  · rw [getStateObject_congr hst] at ht'
    exact .inr ⟨ha', ht', hu⟩
  · rw [← getStateObject_congr htu] at ht
    exact .inr ⟨ha, hs, ht⟩
  · exact .inr ⟨ha, hs, hu⟩

/-- Accounts that did not exist in `s` need not be mentioned. -/
theorem Restored.of_missing (h : Restored (A ∪ {a | s.getStateObject a = none}) s t) :
    Restored A s t := by
  refine ⟨fun a => ?_, h.refund, h.logs, h.logSize⟩
  rcases h.objects a with heq | ⟨hA | hnone, hs, ht⟩
  · exact .inl heq
  · exact .inr ⟨hA, hs, ht⟩
  · rw [show s.getStateObject a = none from hnone] at hs
    cases hs

theorem Restored.isSome_eq (h : Restored A s t) (a : Address) :
    (t.getStateObject a).isSome = (s.getStateObject a).isSome := by
  rcases h.objects a with heq | ⟨-, hs, ht⟩
  · rw [getStateObject_congr heq]
  · rw [hs, ht]

/-- Writing to both, the same or into an account that may differ. -/
theorem Restored.setStateObject (h : Restored A s t) (a : Address)
    (hop : p = o ∨ a ∈ A ∧ o.deleted = false ∧ p.deleted = false) :
    Restored A (s.setStateObject a o) (t.setStateObject a p) := by
  refine ⟨fun b => ?_, h.refund, h.logs, h.logSize⟩
  by_cases hb : b = a
  · subst hb
    rcases hop with rfl | ⟨hA, ho, hp⟩
    · exact .inl (by simp [setStateObject])
    · refine .inr ⟨hA, ?_, ?_⟩
      · rw [getStateObject_setStateObject_self s b ho]
        rfl
      · rw [getStateObject_setStateObject_self t b hp]
        rfl
  · rw [getStateObject_setStateObject_of_ne s o hb, getStateObject_setStateObject_of_ne t p hb]
    exact (h.objects b).imp_left fun heq =>
      (update_of_ne hb ..).trans (heq.trans (update_of_ne hb ..).symm)

variable {f : StateObject → StateObject}

theorem Restored.modifyObject (h : Restored A s t) (a : Address)
    (hf : ∀ o, (f o).deleted = o.deleted) :
    Restored A (s.modifyObject a f) (t.modifyObject a f) := by
  unfold StateDB.modifyObject
  rcases h.objects a with heq | ⟨hA, hs, ht⟩
  · rw [getStateObject_congr heq]
    cases s.getStateObject a with
    | none => exact h
    | some o => exact h.setStateObject a (.inl rfl)
  · obtain ⟨o, ho⟩ := isSome_iff_exists.mp hs
    obtain ⟨p, hp⟩ := isSome_iff_exists.mp ht
    rw [ho, hp]
    refine h.setStateObject a (.inr ⟨hA, ?_, ?_⟩)
    · rw [hf, (getStateObject_eq_some.mp ho).2]
    · rw [hf, (getStateObject_eq_some.mp hp).2]

theorem revertObject_eq_some :
    s.revertObject a f = some t ↔ (s.getStateObject a).isSome ∧ t = s.modifyObject a f := by
  unfold revertObject modifyObject
  cases s.getStateObject a <;> simp [eq_comm]

theorem revertCopy_eq_some : s.revertCopy a = some t ↔ (s.getStateObject a).isSome ∧ t = s := by
  unfold revertCopy
  cases s.getStateObject a <;> simp [eq_comm]

theorem Restored.revertObject (h : Restored A s t)
    {s' : StateDB} (hs : s.revertObject a f = some s') (hf : ∀ o, (f o).deleted = o.deleted) :
    ∃ t', t.revertObject a f = some t' ∧ Restored A s' t' := by
  obtain ⟨hsome, rfl⟩ := revertObject_eq_some.mp hs
  rw [← h.isSome_eq a] at hsome
  exact ⟨_, revertObject_eq_some.mpr ⟨hsome, rfl⟩, h.modifyObject a hf⟩

theorem Restored.revertCopy (h : Restored A s t) {s' : StateDB}
    (hs : s.revertCopy a = some s') : ∃ t', t.revertCopy a = some t' ∧ Restored A s' t' := by
  obtain ⟨hsome, rfl⟩ := revertCopy_eq_some.mp hs
  rw [← h.isSome_eq a] at hsome
  exact ⟨t, revertCopy_eq_some.mpr ⟨hsome, rfl⟩, h⟩

/-- **Undoing an entry respects it.** -/
theorem restored_revertEntry (A : Set Address) : Undo.Respects revertEntry (Restored A) := by
  intro s t s' e h hs
  cases e
  case createObjectChange a =>
    cases hs
    refine ⟨_, rfl, fun b => ?_, h.refund, h.logs, h.logSize⟩
    by_cases hb : b = a
    · subst hb
      exact .inl (by simp)
    · refine (h.objects b).imp (fun heq => ?_) fun ⟨hA, hs, ht⟩ => ⟨hA, ?_, ?_⟩
      · exact (update_of_ne hb ..).trans (heq.trans (update_of_ne hb ..).symm)
      · rwa [getStateObject_congr (update_of_ne hb ..)]
      · rwa [getStateObject_congr (update_of_ne hb ..)]
  case resetObjectChange a prev =>
    cases hs
    exact ⟨_, rfl, h.setStateObject a (.inl rfl)⟩
  case refundChange prev =>
    cases hs
    exact ⟨_, rfl, h.objects, rfl, h.logs, h.logSize⟩
  case addLogChange txhash =>
    cases hs
    refine ⟨_, rfl, h.objects, h.refund, ?_, ?_⟩
    · rw [h.logs]
    · rw [h.logSize]
  case balanceChange => exact h.revertObject hs fun o => setBalance_deleted o _
  case nonceChange =>
    refine h.revertObject hs fun o => ?_
    unfold StateObject.setNonce
    split <;> rfl
  case storageChange | codeChange | voteValueForAuthorizeChange | lossMarkAccountChange =>
    exact h.revertObject hs fun _ => rfl
  case regularSuicideChange | pnsSuicideChange | assetSuicideChange | authorizeSuicideChange |
      lossSuicideChange =>
    cases hs
    exact ⟨_, rfl, h.modifyObject _ fun _ => rfl⟩
  all_goals exact h.revertCopy hs

/-- Undoing an entry leaves the snapshots alone. -/
theorem revertEntry_revisions (h : s.revertEntry e = some t) :
    t.validRevisions = s.validRevisions ∧ t.nextRevisionId = s.nextRevisionId := by
  have hmodify (a : Address) (f : StateObject → StateObject) :
      (s.modifyObject a f).validRevisions = s.validRevisions ∧
        (s.modifyObject a f).nextRevisionId = s.nextRevisionId := by
    unfold modifyObject
    split <;> exact ⟨rfl, rfl⟩
  cases e
  case createObjectChange | resetObjectChange | refundChange | addLogChange =>
    cases h
    exact ⟨rfl, rfl⟩
  case balanceChange | nonceChange | storageChange | codeChange | voteValueForAuthorizeChange |
      lossMarkAccountChange =>
    obtain ⟨-, rfl⟩ := revertObject_eq_some.mp h
    exact hmodify _ _
  case regularSuicideChange | pnsSuicideChange | assetSuicideChange | authorizeSuicideChange |
      lossSuicideChange =>
    cases h
    exact hmodify _ _
  all_goals
    obtain ⟨-, rfl⟩ := revertCopy_eq_some.mp h
    exact ⟨rfl, rfl⟩

/-- The snapshots are the same, too. -/
structure Similar (A : Set Address) (s t : StateDB) : Prop extends Restored A s t where
  validRevisions : t.validRevisions = s.validRevisions
  nextRevisionId : t.nextRevisionId = s.nextRevisionId

theorem Similar.refl (A : Set Address) (s : StateDB) : Similar A s s :=
  ⟨Restored.refl A s, rfl, rfl⟩

theorem Similar.trans (h : Similar A s t) (h' : Similar A t u) : Similar A s u :=
  ⟨h.toRestored.trans h'.toRestored, h'.validRevisions.trans h.validRevisions,
    h'.nextRevisionId.trans h.nextRevisionId⟩

theorem similar_revertEntry (A : Set Address) : Undo.Respects revertEntry (Similar A) := by
  intro s t s' e h hs
  obtain ⟨t', ht, hrestored⟩ := restored_revertEntry A s t s' e h.toRestored hs
  obtain ⟨hr, hn⟩ := revertEntry_revisions hs
  obtain ⟨hr', hn'⟩ := revertEntry_revisions ht
  exact ⟨t', ht, hrestored, hr'.trans (h.validRevisions.trans hr.symm),
    hn'.trans (h.nextRevisionId.trans hn.symm)⟩

/-! ## 2. What is undone -/

/-- `t` has grown out of `s`, and undoing what the journal has gained leads back, except for the
content of the accounts in `A`. -/
def Undoes (A : Set Address) (s t : StateDB) : Prop :=
  Undo.Undoes journal revertEntry (Similar A) s t

theorem Undoes.refl (A : Set Address) (s : StateDB) : Undoes A s s :=
  Undo.Undoes.of_log_eq rfl (Similar.refl A s)

theorem Undoes.trans (h : Undoes A s t) (h' : Undoes A t u) : Undoes A s u :=
  Undo.Undoes.trans (R := Similar A) (fun _ _ _ h h' => h.trans h') (similar_revertEntry A) h h'

/-- An account that did not exist is deleted again, whatever has become of it. -/
theorem Undoes.of_missing (h : Undoes (A ∪ {a | s.getStateObject a = none}) s t) : Undoes A s t :=
  Undo.Undoes.mono (fun _ h => { h with toRestored := h.toRestored.of_missing }) h

theorem revertEntries_revisions {es : List JournalEntry} (h : revertEntries es s = some t) :
    t.validRevisions = s.validRevisions ∧ t.nextRevisionId = s.nextRevisionId := by
  induction es generalizing s with
  | nil => cases h; exact ⟨rfl, rfl⟩
  | cons e es ih =>
    obtain ⟨u, hu, h⟩ := bind_eq_some_iff.mp h
    obtain ⟨hr, hn⟩ := revertEntry_revisions hu
    obtain ⟨hr', hn'⟩ := ih h
    exact ⟨hr'.trans hr, hn'.trans hn⟩

/-- What is undone has taken no snapshot. -/
theorem Undoes.revisions (h : Undoes A s t) :
    t.validRevisions = s.validRevisions ∧ t.nextRevisionId = s.nextRevisionId := by
  obtain ⟨es, t', -, hrun, hst⟩ := h
  obtain ⟨hr, hn⟩ := revertEntries_revisions hrun
  exact ⟨hr.symm.trans hst.validRevisions, hn.symm.trans hst.nextRevisionId⟩

section
variable (h : s.getStateObject a = some o)
include h

/-- A write to an account that need not come back, or that changes nothing. -/
theorem similar_setStateObject
    (hdel : p.deleted = false) (hp : a ∈ A ∨ p = o) : Similar A s (s.setStateObject a p) := by
  refine ⟨⟨fun b => ?_, rfl, rfl, rfl⟩, rfl, rfl⟩
  by_cases hb : b = a
  · subst hb
    rcases hp with ha | rfl
    · refine .inr ⟨ha, ?_, ?_⟩
      · rw [h]
        rfl
      · rw [getStateObject_setStateObject_self s b hdel]
        rfl
    · exact .inl ((update_self ..).trans (getStateObject_eq_some.mp h).1.symm)
  · exact .inl (update_of_ne hb ..)

/-- Such a write that is not in the journal. -/
theorem undoes_setStateObject
    (hdel : p.deleted = false) (hp : a ∈ A ∨ p = o) : Undoes A s (s.setStateObject a p) :=
  Undo.Undoes.of_log_eq rfl (similar_setStateObject h hdel hp)

/-- Putting an object back. -/
theorem similar_put_back : Similar A s (((s.append e).setStateObject a p).setStateObject a o) := by
  refine ⟨⟨fun b => .inl ?_, rfl, rfl, rfl⟩, rfl, rfl⟩
  by_cases hb : b = a
  · subst hb
    exact (update_self ..).trans (getStateObject_eq_some.mp h).1.symm
  · exact (update_of_ne hb ..).trans (update_of_ne hb ..)

/-- A journalled write whose entry puts the old object back. -/
theorem undoes_write (hrev : e.revert ((s.append e).setStateObject a p) =
      some (((s.append e).setStateObject a p).setStateObject a o)) :
    Undoes A s ((s.append e).setStateObject a p) :=
  Undo.Undoes.of_log_cons rfl hrev (similar_put_back h)

end

theorem revertObject_setStateObject (hp : p.deleted = false) (f : StateObject → StateObject) :
    (s.setStateObject a p).revertObject a f =
      some ((s.setStateObject a p).setStateObject a (f p)) := by
  rw [revertObject, getStateObject_setStateObject_self s a hp]

theorem modifyObject_setStateObject (hp : p.deleted = false) (f : StateObject → StateObject) :
    (s.setStateObject a p).modifyObject a f = (s.setStateObject a p).setStateObject a (f p) := by
  rw [modifyObject, getStateObject_setStateObject_self s a hp]

/-- A journalled write whose entry works on a copy: it must not change anything, or the account
need not come back. -/
theorem undoes_copy
    (h : s.getStateObject a = some o) (hdel : p.deleted = false) (hp : a ∈ A ∨ p = o)
    (hrev : ∀ t, e.revert t = t.revertCopy a) : Undoes A s ((s.append e).setStateObject a p) := by
  have hcopy : e.revert ((s.append e).setStateObject a p) =
      some ((s.append e).setStateObject a p) := by
    rw [hrev, revertCopy, getStateObject_setStateObject_self _ a hdel]
  obtain ⟨⟨hobjects, hrefund, hlogs, hsize⟩, hrevisions, hnext⟩ :=
    similar_setStateObject (s := s.append e) h hdel hp
  exact Undo.Undoes.of_log_cons rfl hcopy ⟨⟨hobjects, hrefund, hlogs, hsize⟩, hrevisions, hnext⟩

theorem undoes_append_copy
    (h : s.getStateObject a = some o) (hrev : ∀ t, e.revert t = t.revertCopy a) :
    Undoes A s (s.append e) := by
  have hcopy : e.revert (s.append e) = some (s.append e) := by
    rw [hrev, revertCopy, show (s.append e).getStateObject a = some o from h]
  exact Undo.Undoes.of_log_cons rfl hcopy ⟨⟨fun _ => .inl rfl, rfl, rfl, rfl⟩, rfl, rfl⟩

/-- Behind the creation of an account nothing of it has to come back. -/
theorem undoes_of_create {accType : AccountType}
    (h : Undoes (insert a A) (s.createObjectByAccType a accType) t) : Undoes A s t := by
  unfold createObjectByAccType at h
  -- the entry puts back what was at `a`, an object or nothing
  have hback {s₁ t' : StateDB} {x : Option StateObject} (hx : s.stateObjects a = x)
      (hs₁ : Similar (insert a A) (s₁.setStateObject a (new accType)) t')
      (hs : s₁.stateObjects = s.stateObjects ∧ s₁.refund = s.refund ∧ s₁.logs = s.logs ∧
        s₁.logSize = s.logSize ∧ s₁.validRevisions = s.validRevisions ∧
        s₁.nextRevisionId = s.nextRevisionId) :
      Similar A s { t' with stateObjects := update t'.stateObjects a x } := by
    obtain ⟨ho, hr, hl, hn, hv, hi⟩ := hs
    refine ⟨⟨fun b => ?_, hs₁.refund.trans hr, hs₁.logs.trans hl, hs₁.logSize.trans hn⟩,
      hs₁.validRevisions.trans hv, hs₁.nextRevisionId.trans hi⟩
    by_cases hb : b = a
    · subst hb
      exact .inl (by simp [hx])
    · have hold : (s₁.setStateObject a (new accType)).stateObjects b = s.stateObjects b := by
        rw [← ho]
        exact update_of_ne hb ..
      rcases hs₁.objects b with heq | ⟨hA, hsome, ht⟩
      · exact .inl ((update_of_ne hb ..).trans (heq.trans hold))
      · refine .inr ⟨hA.resolve_left hb, ?_, ?_⟩
        · rwa [← getStateObject_congr hold]
        · rwa [getStateObject_congr (update_of_ne hb ..)]
  cases hs : s.stateObjects a with
  | none =>
    simp only [hs] at h
    exact Undo.Undoes.absorb h rfl fun _ ht => ⟨_, rfl, hback hs ht ⟨rfl, rfl, rfl, rfl, rfl, rfl⟩⟩
  | some prev =>
    simp only [hs] at h
    exact Undo.Undoes.absorb h rfl fun _ ht => ⟨_, rfl, hback hs ht ⟨rfl, rfl, rfl, rfl, rfl, rfl⟩⟩

section
variable (s a) (accType : AccountType)

theorem undoes_createObjectByAccType : Undoes A s (s.createObjectByAccType a accType) :=
  undoes_of_create (Undoes.refl _ _)

theorem getStateObject_createObjectByAccType :
    (s.createObjectByAccType a accType).getStateObject a = some (new accType) :=
  getStateObject_setStateObject_self _ a (new_deleted accType)

theorem undoes_getOrCreateObject : Undoes A s (s.getOrCreateObject a accType).1 := by
  unfold getOrCreateObject
  cases s.getStateObject a with
  | none => exact undoes_createObjectByAccType s a accType
  | some o => exact Undoes.refl A s

theorem getStateObject_getOrCreateObject :
    (s.getOrCreateObject a accType).1.getStateObject a =
      some (s.getOrCreateObject a accType).2 := by
  unfold getOrCreateObject
  cases h : s.getStateObject a with
  | none => exact getStateObject_createObjectByAccType s a accType
  | some o => exact h

end

/-! ## 3. Primitives -/

theorem undoes_setObjectBalance (h : s.getStateObject a = some o)
    (v : Int) : Undoes A s (s.setObjectBalance a o v) := by
  unfold setObjectBalance
  split
  · refine undoes_write h ?_
    have hdel : (o.setBalance v).deleted = false := by
      rw [setBalance_deleted, (getStateObject_eq_some.mp h).2]
    rw [JournalEntry.revert, revertObject_setStateObject hdel, setBalance_setBalance,
      setBalance_balance]
  · exact Undoes.refl A s

section
variable (s a)

/-- Anything done to the balance of an account that is created if need be. -/
theorem undoes_balance (f : StateObject → Int) (p : Prop) [Decidable p] :
    Undoes A s (if p then (s.getOrNewStateObject a).1
      else (s.getOrNewStateObject a).1.setObjectBalance a (s.getOrNewStateObject a).2
        (f (s.getOrNewStateObject a).2)) := by
  have hcreate := undoes_getOrCreateObject (A := A) s a .regular
  split
  · exact hcreate
  · exact hcreate.trans (undoes_setObjectBalance (getStateObject_getOrCreateObject s a .regular) _)

theorem undoes_addBalance (v : Int) : Undoes A s (s.addBalance a v) :=
  undoes_balance s a (fun o => o.balance + v) (v = 0)

theorem undoes_subBalance (v : Int) : Undoes A s (s.subBalance a v) :=
  undoes_balance s a (fun o => o.balance - v) (v = 0)

theorem undoes_setBalance (v : Int) : Undoes A s (s.setBalance a v) := by
  have h := undoes_balance (A := A) s a (fun _ => v) False
  rwa [if_neg not_false] at h

end

/-- A change to an account that is created if need be. -/
theorem undoes_after_create (a : Address) (accType : AccountType)
    {f : StateDB → StateObject → StateDB}
    (h : ∀ s₁ o, s₁.getStateObject a = some o → Undoes A s₁ (f s₁ o)) :
    Undoes A s (f (s.getOrCreateObject a accType).1 (s.getOrCreateObject a accType).2) :=
  (undoes_getOrCreateObject s a accType).trans
    (h _ _ (getStateObject_getOrCreateObject s a accType))

section
variable (s a)

theorem undoes_setNonce (nonce : UInt64) : Undoes A s (s.setNonce a nonce) := by
  refine undoes_after_create (f := fun s o => if o.accountType.holdsBalance then
    (s.append (.nonceChange a o.nonce)).setStateObject a (o.setNonce nonce) else s) a
    .regular ?_
  intro s₁ o ho
  split
  · refine undoes_write ho ?_
    have hset : (o.setNonce nonce).deleted = o.deleted := by
      unfold StateObject.setNonce
      split <;> rfl
    have hback : (o.setNonce nonce).setNonce o.nonce = o := by
      cases o with
      | mk t => cases t <;> rfl
    rw [JournalEntry.revert, revertObject_setStateObject
      (hset.trans (getStateObject_eq_some.mp ho).2), hback]
  · exact Undoes.refl A s₁

theorem undoes_setCode (codeHash : Hash) (code : Bytes) :
    Undoes A s (s.setCode a codeHash code) := by
  refine undoes_after_create (f := fun s o => (s.append (.codeChange a o.code
    o.assetAccount.codeHash)).setStateObject a (o.setCode codeHash code)) a .regular ?_
  intro s₁ o ho
  have hdel : (o.setCode codeHash code).deleted = false := (getStateObject_eq_some.mp ho).2
  refine undoes_write ho ?_
  rw [JournalEntry.revert, revertObject_setStateObject hdel]
  rfl

theorem undoes_setState (key value : Hash) : Undoes A s (s.setState a key value) := by
  refine undoes_after_create (f := fun s o => if o.storage key = value then s
    else (s.append (.storageChange a key (o.storage key))).setStateObject a
      (o.setState key value)) a
    .regular ?_
  intro s₁ o ho
  split
  · exact Undoes.refl A s₁
  · have hdel : (o.setState key value).deleted = false := (getStateObject_eq_some.mp ho).2
    have hback : (o.setState key value).setState key (o.storage key) = o := by
      simp [StateObject.setState]
    refine undoes_write ho ?_
    rw [JournalEntry.revert, revertObject_setStateObject hdel, hback]

/-- Replacing an account by a new one. -/
theorem undoes_replace (accType : AccountType) (ho : o.deleted = false) :
    Undoes A s ((s.createObjectByAccType a accType).setStateObject a o) :=
  undoes_of_create (undoes_setStateObject (getStateObject_createObjectByAccType s a accType) ho
    (.inl (Set.mem_insert a A)))

theorem undoes_createAccount : Undoes A s (s.createAccount a) := by
  unfold createAccount
  split
  · exact undoes_createObjectByAccType s a .regular
  · exact undoes_replace s a .regular (by simp)

theorem undoes_createContractAccount : Undoes A s (s.createContractAccount a) := by
  unfold createContractAccount
  split
  · exact undoes_createObjectByAccType s a .contract
  · exact undoes_replace s a .contract (by simp)

theorem undoes_addLog (log : Log) : Undoes A s (s.addLog log) := by
  refine Undo.Undoes.of_log_cons (e := .addLogChange s.thash) rfl rfl
    ⟨⟨fun _ => .inl rfl, rfl, ?_, ?_⟩, rfl, rfl⟩
  · simp [addLog, append]
  · simp [addLog, append]

theorem undoes_addRefund (gas : UInt64) : Undoes A s (s.addRefund gas) :=
  Undo.Undoes.of_log_cons (e := .refundChange s.refund) rfl rfl
    ⟨⟨fun _ => .inl rfl, rfl, rfl, rfl⟩, rfl, rfl⟩

end

theorem undoes_subRefund {gas : UInt64} (h : s.subRefund gas = some t) : Undoes A s t := by
  unfold subRefund at h
  split at h
  · cases h
  · cases h
    exact Undo.Undoes.of_log_cons (e := .refundChange s.refund) rfl rfl
      ⟨⟨fun _ => .inl rfl, rfl, rfl, rfl⟩, rfl, rfl⟩

/-- Closing leaves an entry, or the account is closed already. -/
def SuicideUndoable (A : Set Address) (s : StateDB) (a : Address) : Prop :=
  ∀ o, s.getStateObject a = some o →
    a ∈ A ∨ o.suicided = true ∨ (o.accountType ≠ .lossMark ∧ o.accountType ≠ .dpos)

/-- The entry for the closing of an account puts everything back. -/
theorem undoes_suicideEntry (h : s.getStateObject a = some o)
    (hrev : ∀ t, e.revert t = some (t.modifyObject a f)) (hf : f o.markSuicided = o) :
    Undoes A s ((s.append e).setStateObject a o.markSuicided) := by
  have hdel : o.markSuicided.deleted = false := (getStateObject_eq_some.mp h).2
  refine undoes_write h ?_
  rw [hrev, modifyObject_setStateObject hdel, hf]

theorem undoes_suicide (hA : SuicideUndoable A s a) (h : s.suicide a = some t) : Undoes A s t := by
  unfold suicide at h
  split at h
  · cases h; exact Undoes.refl A s
  next o ho =>
    simp only [bind_eq_bind, bind_eq_some_iff] at h
    obtain ⟨entries, hentries, ht⟩ := h
    cases ht
    have hdel := (getStateObject_eq_some.mp ho).2
    -- without an entry the account must not change
    have hsilent (h : a ∈ A ∨ o.suicided = true) : Undoes A s
        (s.setStateObject a o.markSuicided) := by
      refine undoes_setStateObject ho hdel (h.imp_right fun hclosed => ?_)
      cases o
      cases hclosed
      rfl
    unfold suicideChange at hentries
    cases htype : o.accountType <;>
      simp only [htype, bind_eq_bind, bind_eq_some_iff, pure_def,
        some.injEq] at hentries
    case regular =>
      obtain ⟨v, hv, rfl⟩ := hentries
      refine undoes_suicideEntry ho (fun _ => rfl) ?_
      simp [markSuicided, ← hv]
    case pns =>
      subst hentries
      exact undoes_suicideEntry ho (fun _ => rfl) rfl
    case contract =>
      subst hentries
      exact undoes_suicideEntry ho (fun _ => rfl) rfl
    case authorize =>
      obtain ⟨pledge, hpledge, v, hv, period, hperiod, rfl⟩ := hentries
      refine undoes_suicideEntry ho (fun _ => rfl) ?_
      simp [markSuicided, ← hpledge, ← hv, ← hperiod]
    case loss =>
      obtain ⟨height, hheight, rfl⟩ := hentries
      refine undoes_suicideEntry ho (fun _ => rfl) ?_
      simp [markSuicided, ← hheight]
    case lossMark =>
      subst hentries
      refine hsilent ((hA o ho).imp_right fun h => h.resolve_right fun h => h.1 htype)
    case dpos =>
      subst hentries
      refine hsilent ((hA o ho).imp_right fun h => h.resolve_right fun h => h.2 htype)

theorem undoes_updateLossMark (s : StateDB) (lastBits : UInt32) (flag : Bool) :
    Undoes A s (s.updateLossMark lastBits flag) := by
  refine undoes_after_create (f := fun s o =>
    (s.append (.lossMarkAccountChange specialAddressForRegisterLose
      o.lossMarkAccount.lossMark)).setStateObject specialAddressForRegisterLose
      { o with lossMarkAccount :=
          { lossMark := o.lossMarkAccount.lossMark.setMark (lastBits.toNat % 1024) flag } })
    specialAddressForRegisterLose .lossMark ?_
  intro s₁ o ho
  have hdel (m : LossMarkAccount) : ({ o with lossMarkAccount := m } : StateObject).deleted =
      false :=
    (getStateObject_eq_some.mp ho).2
  refine undoes_write ho ?_
  rw [JournalEntry.revert, revertObject_setStateObject (hdel _)]

end StateDB

end ProbeChain
