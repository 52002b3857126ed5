/-
# Writing the state to the trie

`Finalise` puts the dirty accounts of a transaction on a list (`stateObjectsPending`), and
`IntermediateRoot` writes the accounts on the list to the trie.  Nothing else is written.

After `IntermediateRoot` the trie should hold of every account what `getStateObject` shows.  An
object that is put in place of another is not on the list, unless it is written to in some other way
(`commit_faithful_iff`): `registration_not_written` registers a name at an address where there is an
account already, and the trie keeps the account.
-/
import ProbeChain.Evm.Trace
import ProbeChain.Lib.WriteBack
import ProbeChain.State.NonNegative
import ProbeChain.State.Supply
import ProbeChain.State.Touched

namespace ProbeChain

open Scope StateDB Option

/-! ## 1. The database and the trie behind it -/

/-- The trie has, for every account, what reading it gives. -/
structure Backed where
  db : StateDB
  stateObjectsPending : List Address := []
  trie : Address → Option StateObject
  decoded : ∀ a o, trie a = some o → o.stored = o

namespace Backed

/-- `New`: every account is read from the trie when it is needed. -/
def opened (trie : Address → Option StateObject) (h : ∀ a o, trie a = some o → o.stored = o) :
    Backed where
  db := .ofTrie trie
  trie := trie
  decoded := h

/-- The dirty accounts that there are become pending. -/
def finalise (b : Backed) : Backed :=
  { b with
    db := b.db.finalise
    stateObjectsPending :=
      b.stateObjectsPending ++ b.db.dirties.filter fun a => (b.db.stateObjects a).isSome }

/-- `deleteStateObject` or `updateStateObject` does not panic. -/
def writes (b : Backed) (a : Address) : Bool :=
  match b.db.stateObjects a with
  | none => false
  | some o => o.deleted || o.encodes

def intermediateRoot (b : Backed) : Option Backed :=
  let b := b.finalise
  if b.stateObjectsPending.all b.writes then
    some
      { db := b.db
        trie := fun a => if a ∈ b.stateObjectsPending then b.db.shown a else b.trie a
        decoded := by
          intro a o ho
          split at ho
          · obtain ⟨p, -, rfl⟩ := map_eq_some_iff.mp ho
            exact p.stored_stored
          · exact b.decoded a o ho }
  else none

/-- The state that is read from the trie. -/
def reload (b : Backed) : StateDB := .ofTrie b.trie

theorem getStateObject_reload (b : Backed) (a : Address) :
    b.reload.getStateObject a = b.trie a := by
  refine getStateObject_ofTrie fun o ho => ?_
  rw [← b.decoded a o ho]
  exact o.stored_deleted

end Backed

/-- What `getStateObject` shows; an account that the transaction has closed is gone when it ends. -/
def StateDB.visible (s : StateDB) (a : Address) : Option StateObject :=
  (s.getStateObject a).bind fun o => if o.suicided ∧ a ∈ s.dirties then none else some o.stored

namespace StateDB

theorem shown_finalise (s : StateDB) (a : Address) : s.finalise.shown a = s.visible a := by
  have hworld := world_finalise s a
  rw [shown, visible, ← world_apply, hworld, ← world_apply]
  cases s.world a with
  | none => rfl
  | some o =>
    rw [bind_some, bind_some]
    by_cases ha : a ∈ s.dirties
    · by_cases hs : o.suicided = true
      · rw [if_pos ha, if_pos hs, if_pos ⟨hs, ha⟩]
        rfl
      · rw [if_pos ha, if_neg hs, if_neg fun h => hs h.1]
        rfl
    · rw [if_neg ha, if_neg fun h => ha h.2]
      rfl

theorem visible_of_not_dirty {s : StateDB} {a : Address} (h : a ∉ s.dirties) :
    s.visible a = s.shown a := by
  rw [visible, shown]
  cases s.getStateObject a with
  | none => rfl
  | some o =>
    rw [bind_some, if_neg fun hs => h hs.2]
    rfl

theorem isSome_finalise (s : StateDB) (a : Address) :
    (s.finalise.stateObjects a).isSome = (s.stateObjects a).isSome := by
  rw [finalise, isSome_map]

end StateDB

/-! ## 2. What is in the trie already -/

namespace Backed

variable {X : Externals} {b c : Backed} {a : Address}

/-- What is neither pending nor in the journal has been written, and there is something to write for
what is. -/
structure Synced (b : Backed) : Prop where
  written : WriteBack.Synced {a | a ∈ b.stateObjectsPending ∨ a ∈ b.db.touched} b.db.shown b.trie
  present : ∀ a, a ∈ b.stateObjectsPending ∨ a ∈ b.db.touched → (b.db.stateObjects a).isSome

/-- An object was put in place of another, and is not going to be written. -/
def Replaced (b : Backed) (a : Address) : Prop :=
  (∃ prev, .resetObjectChange a prev ∈ b.db.journal) ∧ a ∉ b.db.dirties ∧ a ∉ b.stateObjectsPending

/-- What was put in place of another object is what the trie has anyway. -/
def Settled (b : Backed) : Prop := ∀ a, b.Replaced a → b.trie a = b.db.visible a

theorem synced_opened (trie : Address → Option StateObject)
    (h : ∀ a o, trie a = some o → o.stored = o) :
    (opened trie h).Synced := by
  refine ⟨fun a _ => ?_, fun a ha => ?_⟩
  · show trie a = (opened trie h).reload.shown a
    rw [shown, getStateObject_reload]
    cases ho : (opened trie h).trie a with
    | none => exact ho
    | some o =>
      rw [map_some, h a o ho]
      exact ho
  · rcases ha with ha | ha <;> cases ha

theorem Synced.pending_finalise (h : b.Synced) :
    a ∈ b.finalise.stateObjectsPending ↔ a ∈ b.stateObjectsPending ∨ a ∈ b.db.dirties := by
  rw [finalise, List.mem_append, List.mem_filter]
  constructor
  · rintro (ha | ⟨ha, -⟩)
    · exact .inl ha
    · exact .inr ha
  · rintro (ha | ha)
    · exact .inl ha
    · exact .inr ⟨ha, h.present a (.inr (mem_touched_iff.mpr (.inl ha)))⟩

/-- The same for what is visible when the transaction ends. -/
theorem Synced.visible (h : b.Synced) :
    WriteBack.Synced {a | a ∈ b.stateObjectsPending ∨ a ∈ b.db.touched} b.db.visible b.trie := by
  intro a ha
  have hdirty : a ∉ b.db.dirties := fun hd => ha (.inr (mem_touched_iff.mpr (.inl hd)))
  rw [visible_of_not_dirty hdirty]
  exact h.written a ha

theorem settled_iff : b.Settled ↔ ∀ a, a ∈ {a | a ∈ b.stateObjectsPending ∨ a ∈ b.db.touched} →
    a ∉ {a | a ∈ b.stateObjectsPending ∨ a ∈ b.db.dirties} → b.trie a = b.db.visible a := by
  constructor
  · rintro h a hM hF
    simp only [Set.mem_ofPred_eq, not_or] at hM hF
    rcases hM with hpending | htouched
    · exact absurd hpending hF.1
    · exact h a ⟨(mem_touched_iff.mp htouched).resolve_left hF.2, hF.2, hF.1⟩
  · rintro h a ⟨hreset, hdirty, hpending⟩
    exact h a (.inr (mem_touched_iff.mpr (.inr hreset))) fun hF => hF.elim hpending hdirty

theorem Synced.finalise (h : b.Synced) (hsettled : b.Settled) : b.finalise.Synced := by
  refine ⟨fun a ha => ?_, fun a ha => ?_⟩
  · show b.trie a = b.db.finalise.shown a
    rw [shown_finalise]
    have hF : a ∉ {a | a ∈ b.stateObjectsPending ∨ a ∈ b.db.dirties} :=
      fun hF => ha (.inl (h.pending_finalise.mpr hF))
    by_cases hM : a ∈ {a | a ∈ b.stateObjectsPending ∨ a ∈ b.db.touched}
    · exact settled_iff.mp hsettled a hM hF
    · exact h.visible a hM
  · have hpending : a ∈ b.finalise.stateObjectsPending := by
      rcases ha with ha | ha
      · exact ha
      · cases ha
    show (b.db.finalise.stateObjects a).isSome = true
    rw [isSome_finalise]
    exact h.present a ((h.pending_finalise.mp hpending).imp_right fun hd =>
      mem_touched_iff.mpr (.inl hd))

/-- **What `IntermediateRoot` writes.** -/
theorem intermediateRoot_eq_some (h : b.intermediateRoot = some c) :
    c.db = b.db.finalise ∧ c.stateObjectsPending = [] ∧
      ∀ a, c.trie a = if a ∈ b.finalise.stateObjectsPending then b.db.visible a else b.trie a := by
  unfold intermediateRoot at h
  dsimp only at h
  split at h
  · cases h
    refine ⟨rfl, rfl, fun a => ?_⟩
    rw [← shown_finalise]
    rfl
  · cases h

/-- **The trie is right after `IntermediateRoot`** exactly if nothing was replaced that matters. -/
theorem Synced.trie_eq_iff (h : b.Synced) (hc : b.intermediateRoot = some c) :
    c.trie = b.db.visible ↔ b.Settled := by
  obtain ⟨-, -, htrie⟩ := intermediateRoot_eq_some hc
  have hflush : c.trie =
      WriteBack.flush {a | a ∈ b.stateObjectsPending ∨ a ∈ b.db.dirties} b.db.visible b.trie := by
    funext a
    rw [htrie, WriteBack.flush]
    simp only [h.pending_finalise, Set.mem_ofPred_eq]
  rw [hflush, h.visible.flush_eq_iff, settled_iff]

theorem Synced.intermediateRoot (h : b.Synced) (hsettled : b.Settled)
    (hc : b.intermediateRoot = some c) :
    c.Synced := by
  have htrie := (h.trie_eq_iff hc).mpr hsettled
  obtain ⟨hdb, hpending, -⟩ := intermediateRoot_eq_some hc
  refine ⟨fun a _ => ?_, fun a ha => ?_⟩
  · rw [htrie, hdb, shown_finalise]
  · rw [hpending, hdb] at ha
    rcases ha with ha | ha <;> cases ha

/-- It returns if no account that it writes has a negative amount. -/
theorem Synced.isSome_intermediateRoot_iff (h : b.Synced) :
    b.intermediateRoot.isSome ↔ ∀ a o, a ∈ b.stateObjectsPending ∨ a ∈ b.db.dirties →
      b.db.finalise.getStateObject a = some o → o.encodes = true := by
  unfold Backed.intermediateRoot
  dsimp only
  have hwrites (a : Address) (ha : a ∈ b.stateObjectsPending ∨ a ∈ b.db.dirties) :
      b.finalise.writes a = true ↔
        ∀ o, b.db.finalise.getStateObject a = some o → o.encodes = true := by
    have hpresent : (b.db.finalise.stateObjects a).isSome := by
      rw [isSome_finalise]
      exact h.present a (ha.imp_right fun hd => mem_touched_iff.mpr (.inl hd))
    obtain ⟨o, ho⟩ := isSome_iff_exists.mp hpresent
    have hobject : b.finalise.db.stateObjects a = some o := ho
    unfold writes getStateObject
    rw [hobject, ho]
    cases hdeleted : o.deleted with
    | true => simp [hdeleted]
    | false => simp [hdeleted]
  split
  next hall =>
    refine iff_of_true rfl fun a o ha ho => ?_
    exact (hwrites a ha).mp (List.all_eq_true.mp hall a (h.pending_finalise.mpr ha)) o ho
  next hall =>
    refine iff_of_false (by simp) fun hencodes => hall (List.all_eq_true.mpr fun a ha => ?_)
    have hpending := h.pending_finalise.mp ha
    exact (hwrites a hpending).mpr fun o ho => hencodes a o hpending ho

end Backed

/-! ## 3. Runs -/

/-- Going back is for scopes. -/
def Action.Onward (a : Action) : Prop := ∀ id, a ≠ .op (.revertToSnapshot id)

theorem noted_actionStep {X : Externals} {s t : StateDB} {a : Action} (ha : a.Onward)
    (h : actionStep X s a = some t) : Noted s t := by
  cases a with
  | op o => exact noted_dbStep (fun id ho => ha id (congrArg Action.op ho)) h
  | hook caller dest value ctx => exact noted_callDB h
  | selfdestruct self beneficiary =>
    exact (noted_addBalance s beneficiary _).trans (noted_suicide h)

theorem Reverted.noted {s u : StateDB} (h : Reverted s u) : Noted s u := by
  refine noted_of_eq h.objects (by rw [h.journal]) fun a ha => .inl ?_
  rwa [touched, h.journal] at ha

theorem noted_snapshot (s : StateDB) : Noted s s.snapshot.1 :=
  noted_of_eq (s := s) (t := s.snapshot.1) rfl List.suffix_rfl fun _ h => .inl h

/-- **What is done within a transaction is noted**, as far as it is not taken back. -/
theorem noted_run {X : Externals} {p : Trace Action} {s t : StateDB}
    (hp : p.Along (evmStore X) (fun _ a => a.Onward) (Trace.GoesBack (evmStore X) Reverted) s)
    (h : p.run (evmStore X) s = some t) : Noted s t :=
  Trace.run_rel Noted.refl Noted.trans noted_actionStep noted_snapshot Reverted.noted hp h

/-- What is done to the database: accounts are worked on, a transaction ends, the state is
written. -/
inductive CommitOp where
  | execute (p : Trace Action)
  | finalise
  | intermediateRoot

namespace Backed

variable {X : Externals} {b c : Backed}

def step (X : Externals) (b : Backed) : CommitOp → Option Backed
  | .execute p => (p.run (evmStore X) b.db).map fun db => { b with db := db }
  | .finalise => some b.finalise
  | .intermediateRoot => b.intermediateRoot

/-- A scope that is taken back leaves everything as it was, and at the end of a transaction nothing
has been replaced that matters. -/
def Careful (X : Externals) (b : Backed) : CommitOp → Prop
  | .execute p =>
    p.Along (evmStore X) (fun _ a => a.Onward) (Trace.GoesBack (evmStore X) Reverted) b.db
  | .finalise => b.Settled
  | .intermediateRoot => b.Settled

theorem Synced.noted (h : b.Synced) {db : StateDB} (hdb : Noted b.db db) :
    Synced { b with db := db } := by
  have hM : {a | a ∈ b.stateObjectsPending ∨ a ∈ b.db.touched} ⊆
      {a | a ∈ b.stateObjectsPending ∨ a ∈ db.touched} :=
    fun a ha => ha.imp_right fun htouched => touched_subset hdb.journal htouched
  refine ⟨h.written.write hM fun a ha => hdb.shown a fun htouched => ha (.inr htouched),
    fun a ha => ?_⟩
  rcases ha with hpending | htouched
  · exact hdb.present a (h.present a (.inl hpending))
  · rcases hdb.touched a htouched with hold | hnew
    · exact hdb.present a (h.present a (.inr hold))
    · exact hnew

/-- One step. -/
theorem Synced.step (h : b.Synced) {op : CommitOp} (hop : b.Careful X op)
    (hc : b.step X op = some c) :
    c.Synced := by
  cases op with
  | execute p =>
    obtain ⟨db, hdb, rfl⟩ := map_eq_some_iff.mp hc
    exact h.noted (noted_run hop hdb)
  | finalise => exact some.inj hc ▸ h.finalise hop
  | intermediateRoot => exact h.intermediateRoot hop hc

/-- **Commit faithfulness.**  A database is opened and worked on.  `IntermediateRoot` returns if no
account that it writes has a negative amount.  Then the trie holds what is visible, and the same
state is read from it, exactly if no object of the last transaction that was put in place of another
is missing. -/
theorem commit_faithful_iff (X : Externals) (trie : Address → Option StateObject)
    (htrie : ∀ a o, trie a = some o → o.stored = o) {ops : List CommitOp} {b : Backed}
    (hsteps : Run.Along (step X) (Careful X) ops (opened trie htrie))
    (hrun : Run.run (step X) ops (opened trie htrie) = some b) :
    (b.intermediateRoot.isSome ↔ ∀ a o, a ∈ b.stateObjectsPending ∨ a ∈ b.db.dirties →
      b.db.finalise.getStateObject a = some o → o.encodes = true) ∧
    ∀ c, b.intermediateRoot = some c →
      ((∀ a, c.trie a = b.db.visible a ∧ c.reload.getStateObject a = b.db.visible a) ↔
        b.Settled) := by
  have hsynced : b.Synced :=
    Run.run_inv (fun h hop hc => h.step hop hc) (synced_opened trie htrie) hsteps hrun
  refine ⟨hsynced.isSome_intermediateRoot_iff, fun c hc => ?_⟩
  rw [← hsynced.trie_eq_iff hc]
  constructor
  · intro h
    funext a
    exact (h a).1
  · intro h a
    rw [getStateObject_reload, h]
    exact ⟨rfl, rfl⟩

/-- A rich account, and a little money at an address that nobody owns yet. -/
def twoAccounts (a : Address) : Option StateObject :=
  if a = 1 then some (.ofBalance 1000000000000000000000000)
  else if a = 0x10909 then some (.ofBalance 5) else none

theorem twoAccounts_decoded (a : Address) (o : StateObject) (h : twoAccounts a = some o) :
    o.stored = o := by
  unfold twoAccounts at h
  split at h
  · cases h
    rfl
  · split at h
    · cases h
      rfl
    · cases h

/-- Account `1` registers a name.  Its address is `1` with the two bytes of the name behind. -/
def registerName (byte : UInt8) : CommitOp :=
  .execute (.act
    (.hook 1 0x101 0 { fromAddr := 1, toAddr := some 0x101, value := 0, data := [byte, byte] })
    .nil)

/-- A name at an address where there was nothing is written. -/
theorem commit_faithful_new_name :
    ∃ b c, Run.run (step plainExternals) [registerName 8] (opened twoAccounts twoAccounts_decoded) =
      some b ∧ b.intermediateRoot = some c ∧ ∀ a, c.trie a = b.db.visible a ∧
      c.reload.getStateObject a = b.db.visible a := by
  have hsteps : Run.Along (step plainExternals) (Careful plainExternals) [registerName 8]
      (opened twoAccounts twoAccounts_decoded) :=
    ⟨⟨fun id h => (by cases h), fun _ _ => trivial⟩, fun _ _ => trivial⟩
  refine ⟨_, _, rfl, rfl, ?_⟩
  refine ((commit_faithful_iff plainExternals twoAccounts twoAccounts_decoded hsteps rfl).2
    _ rfl).mpr ?_
  -- the two entries are about the new account and about the money
  rintro a ⟨⟨prev, hmem⟩, -, -⟩
  change JournalEntry.resetObjectChange a prev ∈
    [JournalEntry.balanceChange 1 1000000000000000000000000, .createObjectChange 0x10808] at hmem
  simp at hmem

/-- **A name at an address that has money already**: the trie keeps the account with the money. -/
theorem registration_not_written :
    ∃ b c, Run.run (step plainExternals) [registerName 9] (opened twoAccounts twoAccounts_decoded) =
      some b ∧ b.intermediateRoot = some c ∧
      (b.db.visible 0x10909).map (·.accountType) = some .pns ∧
      (c.trie 0x10909).map (fun o => (o.accountType, o.balance)) = some (.regular, 5) ∧
      (c.reload.getStateObject 0x10909).map (·.accountType) = some .regular := by
  exact ⟨_, _, rfl, rfl, rfl, rfl, rfl⟩

end Backed

end ProbeChain
