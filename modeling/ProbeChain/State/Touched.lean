/-
# What is stored of an account, and what the journal notes

`EncodeRLP` writes the record of the object's own type, with zero for an amount that is nil, and
decoding makes a new object of it: `stored` is what comes back.  The other records, the marks and
what a Regular account keeps as code or storage are lost.

Which accounts are written is decided by the journal.  Every entry is about one account (`touched`),
and whatever an operation changes of the stored content is noted there (`noted_callDB`).  But an
entry does not always make its account dirty: replacing an object is noted and does not.
-/
import ProbeChain.State.Revert

namespace ProbeChain

open Option List StateDB

/-! ## 1. What is stored -/

/-- `EncodeRLP`, and `newAccountDataByAddr` on what it has written.  The code and the storage of a
contract are what the code hash and the storage root stand for. -/
def StateObject.stored (o : StateObject) : StateObject :=
  match o.accountType with
  | .regular =>
    { new .regular with
      regularAccount :=
        { o.regularAccount with voteValue := some (o.regularAccount.voteValue.getD 0) } }
  | .pns => { new .pns with pnsAccount := o.pnsAccount }
  | .contract =>
    { new .contract with
      assetAccount := o.assetAccount, code := o.code, storage := o.storage,
      committedStorage := o.storage }
  | .authorize =>
    { new .authorize with
      authorizeAccount :=
        { o.authorizeAccount with
          pledgeValue := some (o.authorizeAccount.pledgeValue.getD 0)
          voteValue := some (o.authorizeAccount.voteValue.getD 0)
          validPeriod := some (o.authorizeAccount.validPeriod.getD 0) } }
  | .loss =>
    { new .loss with
      lossAccount := { o.lossAccount with height := some (o.lossAccount.height.getD 0) } }
  | .lossMark => { new .lossMark with lossMarkAccount := o.lossMarkAccount }
  | .dpos => { new .dpos with validatorListAccount := o.validatorListAccount }

namespace StateObject

/-- What has been read is stored as it is. -/
theorem stored_stored (o : StateObject) : o.stored.stored = o.stored := by
  unfold stored
  cases o.accountType <;> rfl

theorem stored_deleted (o : StateObject) : o.stored.deleted = false := by
  unfold stored
  cases o.accountType <;> rfl

end StateObject

namespace StateDB

/-- What `getStateObject` shows of an account, as far as it is stored. -/
def shown (s : StateDB) (a : Address) : Option StateObject :=
  (s.getStateObject a).map StateObject.stored

/-- A fresh database in which every account is read from the trie. -/
def ofTrie (trie : Address → Option StateObject) : StateDB :=
  { ofAccounts [] with stateObjects := trie }

theorem getStateObject_ofTrie {trie : Address → Option StateObject} {a : Address}
    (h : ∀ o, trie a = some o → o.deleted = false) : (ofTrie trie).getStateObject a = trie a := by
  have hobject : (ofTrie trie).stateObjects a = trie a := rfl
  unfold getStateObject
  rw [hobject]
  cases ho : trie a with
  | none => rfl
  | some o =>
    dsimp only
    rw [if_neg (Bool.eq_false_iff.mp (h o ho))]

/-- The accounts the journal is about. -/
def touched (s : StateDB) : List Address := s.journal.filterMap JournalEntry.touched

theorem touched_of_dirtied {e : JournalEntry} {a : Address} (h : e.dirtied = some a) :
    e.touched = some a := by
  cases e with
  | resetObjectChange b prev => cases h
  | _ => exact h

/-- What is dirty has been touched; an object that has been replaced has only been touched. -/
theorem mem_touched_iff {s : StateDB} {a : Address} :
    a ∈ s.touched ↔ a ∈ s.dirties ∨ ∃ prev, .resetObjectChange a prev ∈ s.journal := by
  simp only [touched, dirties, mem_filterMap]
  constructor
  · rintro ⟨e, he, ha⟩
    cases e with
    | resetObjectChange b prev =>
      obtain rfl : b = a := some.inj ha
      exact .inr ⟨prev, he⟩
    | _ => exact .inl ⟨_, he, ha⟩
  · rintro (⟨e, he, ha⟩ | ⟨prev, he⟩)
    · exact ⟨e, he, touched_of_dirtied ha⟩
    · exact ⟨_, he, rfl⟩

/-! ## 2. Noting changes -/

/-- The journal has grown, and what it is not about is shown as before.  No object is missing that
was there or that a new entry is about. -/
structure Noted (s t : StateDB) : Prop where
  journal : s.journal <:+ t.journal
  shown : ∀ a, a ∉ t.touched → t.shown a = s.shown a
  present : ∀ a, (s.stateObjects a).isSome → (t.stateObjects a).isSome
  touched : ∀ a, a ∈ t.touched → a ∈ s.touched ∨ (t.stateObjects a).isSome

variable {s t u : StateDB} {a : Address} {o : StateObject} {e : JournalEntry}

theorem touched_subset (h : s.journal <:+ t.journal) : s.touched ⊆ t.touched :=
  (h.filterMap JournalEntry.touched).subset

theorem Noted.refl (s : StateDB) : Noted s s :=
  ⟨suffix_rfl, fun _ _ => rfl, fun _ h => h, fun _ h => .inl h⟩

theorem Noted.trans (h : Noted s t) (h' : Noted t u) : Noted s u := by
  refine ⟨h.journal.trans h'.journal, fun a ha => ?_, fun a hs => h'.present a (h.present a hs),
    fun a ha => ?_⟩
  · have hat : a ∉ t.touched := fun hmem => ha (touched_subset h'.journal hmem)
    exact (h'.shown a ha).trans (h.shown a hat)
  · rcases h'.touched a ha with hat | hpresent
    · exact (h.touched a hat).imp_right (h'.present a)
    · exact .inr hpresent

/-- What is neither object nor journal does not count. -/
theorem noted_of_eq (hobjects : t.stateObjects = s.stateObjects)
    (hjournal : s.journal <:+ t.journal)
    (htouched : ∀ a, a ∈ t.touched → a ∈ s.touched ∨ (s.stateObjects a).isSome) : Noted s t := by
  refine ⟨hjournal, fun a _ => ?_,
    fun a hs => by rwa [hobjects], fun a ha => by rw [hobjects]; exact htouched a ha⟩
  rw [shown, shown, getStateObject_congr (congrFun hobjects a)]

theorem mem_touched_append_iff : a ∈ (s.append e).touched ↔ e.touched = some a ∨ a ∈ s.touched := by
  rw [touched, append, filterMap_cons]
  cases e.touched with
  | none => simp [touched]
  | some b => simp [touched, eq_comm]

/-- An entry about an object that is there. -/
theorem noted_append (h : ∀ a, e.touched = some a → (s.stateObjects a).isSome) :
    Noted s (s.append e) := by
  refine noted_of_eq rfl (suffix_cons e s.journal) fun a ha => ?_
  rcases mem_touched_append_iff.mp ha with he | hs
  · exact .inr (h a he)
  · exact .inl hs

/-- An entry about an account that exists. -/
theorem noted_append_of_some (ho : s.getStateObject a = some o) (he : e.touched = some a) :
    Noted s (s.append e) := by
  refine noted_append fun b hb => ?_
  obtain rfl : a = b := some.inj (he.symm.trans hb)
  rw [(getStateObject_eq_some.mp ho).1]
  rfl

theorem isSome_setStateObject {b : Address} (h : (s.stateObjects b).isSome) (a : Address)
    (o : StateObject) :
    ((s.setStateObject a o).stateObjects b).isSome := by
  unfold setStateObject
  dsimp only
  rw [Function.update_apply]
  split
  · rfl
  · exact h

/-- Writing to an account that the journal is about. -/
theorem noted_setStateObject (h : a ∈ s.touched) (o : StateObject) :
    Noted s (s.setStateObject a o) := by
  refine ⟨suffix_rfl, fun b hb => ?_, fun b hs => isSome_setStateObject hs a o, fun b hb => .inl hb⟩
  have hne : b ≠ a := by
    rintro rfl
    exact hb h
  rw [shown, shown, getStateObject_setStateObject_of_ne s o hne]

theorem mem_touched_append (h : e.touched = some a) (s : StateDB) : a ∈ (s.append e).touched :=
  mem_touched_append_iff.mpr (.inl h)

/-- Noting a change and making it. -/
theorem noted_write (h : e.touched = some a) (s : StateDB) (o : StateObject) :
    Noted s ((s.append e).setStateObject a o) := by
  have hset := noted_setStateObject (mem_touched_append h s) o
  refine ⟨suffix_cons e s.journal, fun b hb => hset.shown b hb,
    fun b hs => isSome_setStateObject hs a o,
    fun b hb => ?_⟩
  rcases mem_touched_append_iff.mp hb with he | hs
  · obtain rfl : a = b := some.inj (h.symm.trans he)
    refine .inr ?_
    exact isSome_iff_exists.mpr ⟨o, Function.update_self ..⟩
  · exact .inl hs

section
variable (s a)

variable (t : AccountType)

theorem mem_touched_createObjectByAccType : a ∈ (s.createObjectByAccType a t).touched := by
  unfold createObjectByAccType
  cases s.stateObjects a with
  | none => exact mem_touched_append (e := .createObjectChange a) rfl s
  | some prev => exact mem_touched_append (e := .resetObjectChange a prev) rfl s

theorem noted_createObjectByAccType : Noted s (s.createObjectByAccType a t) := by
  unfold createObjectByAccType
  cases s.stateObjects a with
  | none => exact noted_write (e := .createObjectChange a) rfl s _
  | some prev => exact noted_write (e := .resetObjectChange a prev) rfl s _

/-- A new object that is filled in. -/
theorem noted_create (o : StateObject) :
    Noted s ((s.createObjectByAccType a t).setStateObject a o) :=
  (noted_createObjectByAccType s a t).trans
    (noted_setStateObject (mem_touched_createObjectByAccType s a t) o)

theorem noted_getOrCreateObject : Noted s (s.getOrCreateObject a t).1 := by
  unfold getOrCreateObject
  cases s.getStateObject a with
  | none => exact noted_createObjectByAccType s a t
  | some o => exact .refl s

/-! ## 3. The primitives -/

theorem noted_setObjectBalance (o : StateObject) (v : Int) :
    Noted s (s.setObjectBalance a o v) := by
  unfold setObjectBalance
  split
  · exact noted_write (e := .balanceChange a o.balance) rfl s _
  · exact .refl s

theorem noted_addBalance (v : Int) : Noted s (s.addBalance a v) := by
  have h := noted_getOrCreateObject s a .regular
  unfold addBalance getOrNewStateObject
  generalize s.getOrCreateObject a .regular = p at h ⊢
  obtain ⟨t, o⟩ := p
  dsimp only at h ⊢
  split
  · exact h
  · exact h.trans (noted_setObjectBalance t a o _)

theorem noted_subBalance (v : Int) : Noted s (s.subBalance a v) := by
  rw [subBalance_eq_addBalance]
  exact noted_addBalance s a (-v)

theorem noted_setBalance (v : Int) : Noted s (s.setBalance a v) :=
  (noted_getOrCreateObject s a .regular).trans (noted_setObjectBalance _ a _ v)

theorem noted_setNonce (n : UInt64) : Noted s (s.setNonce a n) := by
  have h := noted_getOrCreateObject s a .regular
  unfold setNonce getOrNewStateObject
  generalize s.getOrCreateObject a .regular = p at h ⊢
  obtain ⟨t, o⟩ := p
  dsimp only at h ⊢
  split
  · exact h.trans (noted_write (e := .nonceChange a o.nonce) rfl t _)
  · exact h

theorem noted_setCode (codeHash : Hash) (code : Bytes) : Noted s (s.setCode a codeHash code) :=
  (noted_getOrCreateObject s a .regular).trans (noted_write (e := .codeChange a _ _) rfl _ _)

theorem noted_setState (key value : Hash) : Noted s (s.setState a key value) := by
  have h := noted_getOrCreateObject s a .regular
  unfold setState getOrNewStateObject
  generalize s.getOrCreateObject a .regular = p at h ⊢
  obtain ⟨t, o⟩ := p
  dsimp only at h ⊢
  split
  · exact h
  · exact h.trans (noted_write (e := .storageChange a key _) rfl t _)

theorem noted_createAccount : Noted s (s.createAccount a) := by
  unfold createAccount
  cases s.getStateObject a with
  | none => exact noted_createObjectByAccType s a .regular
  | some prev => exact noted_create s a .regular _

theorem noted_createContractAccount : Noted s (s.createContractAccount a) := by
  unfold createContractAccount
  cases s.getStateObject a with
  | none => exact noted_createObjectByAccType s a .contract
  | some prev => exact noted_create s a .contract _

theorem noted_addLog (log : Log) : Noted s (s.addLog log) :=
  noted_of_eq (s := s) rfl (suffix_cons (JournalEntry.addLogChange s.thash) s.journal) fun _ h =>
    .inl h

theorem noted_addRefund (gas : UInt64) : Noted s (s.addRefund gas) :=
  noted_of_eq (s := s) rfl (suffix_cons (JournalEntry.refundChange s.refund) s.journal) fun _ h =>
    .inl h

end

theorem noted_subRefund {gas : UInt64} (h : s.subRefund gas = some t) : Noted s t := by
  unfold subRefund at h
  split at h
  · cases h
  · obtain rfl := some.inj h
    exact noted_of_eq (s := s) rfl
      (suffix_cons (JournalEntry.refundChange s.refund) s.journal) fun _ h => .inl h

/-- The mark is not stored, so that it does not matter that closing a loss mark or a validator list
is not noted. -/
theorem noted_mark (ho : s.getStateObject a = some o) :
    Noted s (s.setStateObject a o.markSuicided) := by
  obtain ⟨hobject, hdeleted⟩ := getStateObject_eq_some.mp ho
  refine ⟨suffix_rfl, fun b _ => ?_, fun b hs => isSome_setStateObject hs a _, fun b hb => .inl hb⟩
  by_cases hb : b = a
  · subst hb
    rw [shown, shown, ho, getStateObject_setStateObject_self s b (o := o.markSuicided) hdeleted]
    rfl
  · rw [shown, shown, getStateObject_setStateObject_of_ne s _ hb]

/-- Entries about an account that exists. -/
theorem noted_foldl_append (ho : s.getStateObject a = some o) {es : List JournalEntry}
    (hes : ∀ e ∈ es, e.touched = some a) :
    Noted s (es.foldl append s) ∧ (es.foldl append s).getStateObject a = some o := by
  induction es generalizing s with
  | nil => exact ⟨.refl s, ho⟩
  | cons e es ih =>
    have he := hes e mem_cons_self
    obtain ⟨hnoted, hobject⟩ := ih (s := s.append e) ho fun e' he' => hes e' (mem_cons_of_mem e he')
    exact ⟨(noted_append_of_some ho he).trans hnoted, hobject⟩

theorem touched_suicideChange {es : List JournalEntry} (h : suicideChange a o = some es) :
    ∀ e ∈ es, e.touched = some a := by
  unfold suicideChange at h
  cases htype : o.accountType <;> rw [htype] at h <;> dsimp only at h
  case regular =>
    obtain ⟨v, -, h⟩ := bind_eq_some_iff.mp h
    cases h
    exact fun e he => mem_singleton.mp he ▸ rfl
  case authorize =>
    obtain ⟨p, -, h⟩ := bind_eq_some_iff.mp h
    obtain ⟨v, -, h⟩ := bind_eq_some_iff.mp h
    obtain ⟨n, -, h⟩ := bind_eq_some_iff.mp h
    cases h
    exact fun e he => mem_singleton.mp he ▸ rfl
  case loss =>
    obtain ⟨n, -, h⟩ := bind_eq_some_iff.mp h
    cases h
    exact fun e he => mem_singleton.mp he ▸ rfl
  all_goals
    cases h
    intro e he
    first
    | exact mem_singleton.mp he ▸ rfl
    | cases he

theorem noted_suicide (h : s.suicide a = some t) : Noted s t := by
  unfold suicide at h
  split at h
  · cases h
    exact .refl s
  next o ho =>
    obtain ⟨es, hes, ht⟩ := bind_eq_some_iff.mp h
    cases ht
    obtain ⟨hnoted, hobject⟩ := noted_foldl_append ho (touched_suicideChange hes)
    exact hnoted.trans (noted_mark hobject)

/-! ## 4. The operations -/

theorem noted_updateLossMark (s : StateDB) (lastBits : UInt32) (flag : Bool) :
    Noted s (s.updateLossMark lastBits flag) :=
  (noted_getOrCreateObject s specialAddressForRegisterLose .lossMark).trans
    (noted_write (e := .lossMarkAccountChange specialAddressForRegisterLose _) rfl _ _)

theorem Changes.noted {votes : Bool} {A : Set Address} (h : Changes votes A s t) : Noted s t := by
  induction h with
  | refl s => exact .refl s
  | trans _ _ ih ih' => exact ih.trans ih'
  | of_missing _ ih => exact ih
  | addBalance s a v => exact noted_addBalance s a v
  | setBalance _ v => exact noted_setBalance _ _ v
  | create s a t => exact noted_getOrCreateObject s a t
  | replace s a t _ _ => exact noted_create s a t _
  | updateLossMark s lastBits flag => exact noted_updateLossMark s lastBits flag
  | suicide _ h => exact noted_suicide h
  | note h he _ => exact noted_append_of_some h (touched_of_dirtied he)
  | copy _ _ _ _ he _ => exact noted_write (touched_of_dirtied he) _ _
  | voteFor => exact noted_write rfl _ _

/-- **Every operation notes what it changes.** -/
theorem noted_callDB {X : Externals} {ctx : TxContext} (h : callDB X s ctx = some t) : Noted s t :=
  (changes_callDB (.inl rfl) (callUndoable_univ X s ctx) h).noted

/-- **So does everything else that is done to the database**, but for reverting. -/
theorem noted_dbStep {X : Externals} {op : DBOp} (hop : ∀ id, op ≠ .revertToSnapshot id)
    (h : dbStep X s op = some t) :
    Noted s t := by
  cases op with
  | call ctx => exact noted_callDB h
  | addBalance a v => exact some.inj h ▸ noted_addBalance s a v
  | subBalance a v => exact some.inj h ▸ noted_subBalance s a v
  | setBalance a v => exact some.inj h ▸ noted_setBalance s a v
  | setNonce a n => exact some.inj h ▸ noted_setNonce s a n
  | setCode a codeHash code => exact some.inj h ▸ noted_setCode s a codeHash code
  | setState a key value => exact some.inj h ▸ noted_setState s a key value
  | suicide a => exact noted_suicide h
  | createAccount a => exact some.inj h ▸ noted_createAccount s a
  | createContractAccount a => exact some.inj h ▸ noted_createContractAccount s a
  | addLog log => exact some.inj h ▸ noted_addLog s log
  | addRefund gas => exact some.inj h ▸ noted_addRefund s gas
  | subRefund gas => exact noted_subRefund h
  | snapshot => exact some.inj h ▸ noted_of_eq rfl suffix_rfl fun _ h => .inl h
  | revertToSnapshot id => exact absurd rfl (hop id)

end StateDB

end ProbeChain
