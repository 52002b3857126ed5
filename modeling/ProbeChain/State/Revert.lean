/-
# What `RevertToSnapshot` restores

After a snapshot, any operations, and a revert to it, everything should be as it was.  It is not
(`revert_keeps_vote`), because some changes are not undone.

An account that did not exist at the snapshot is deleted as a whole, so nothing of it can stay.  A
step is `Undoable` when what it changes without undoing lies in such accounts, or is not changed by
it at all.  `revertToSnapshot_restores` shows that a run of undoable steps is taken back completely,
whatever the steps are, further snapshots and reverts to them included.

How snapshots and reverts work together does not depend on how much comes back.  Section 2 is about
any relation that undoing respects.
-/
import ProbeChain.State.CallUndo
import ProbeChain.State.Stake

namespace ProbeChain

open List

/-! ## 1. Steps -/

/-- What can be done to a database between a snapshot and a revert to it. -/
inductive DBOp where
  | call (ctx : TxContext)
  | addBalance (a : Address) (amount : Int)
  | subBalance (a : Address) (amount : Int)
  | setBalance (a : Address) (amount : Int)
  | setNonce (a : Address) (nonce : UInt64)
  | setCode (a : Address) (codeHash : Hash) (code : Bytes)
  | setState (a : Address) (key value : Hash)
  | suicide (a : Address)
  | createAccount (a : Address)
  | createContractAccount (a : Address)
  | addLog (log : Log)
  | addRefund (gas : UInt64)
  | subRefund (gas : UInt64)
  | snapshot
  | revertToSnapshot (revid : Nat)

def dbStep (X : Externals) (s : StateDB) : DBOp → Option StateDB
  | .call ctx => callDB X s ctx
  | .addBalance a amount => some (s.addBalance a amount)
  | .subBalance a amount => some (s.subBalance a amount)
  | .setBalance a amount => some (s.setBalance a amount)
  | .setNonce a nonce => some (s.setNonce a nonce)
  | .setCode a codeHash code => some (s.setCode a codeHash code)
  | .setState a key value => some (s.setState a key value)
  | .suicide a => s.suicide a
  | .createAccount a => some (s.createAccount a)
  | .createContractAccount a => some (s.createContractAccount a)
  | .addLog log => some (s.addLog log)
  | .addRefund gas => some (s.addRefund gas)
  | .subRefund gas => s.subRefund gas
  | .snapshot => some s.snapshot.1
  | .revertToSnapshot revid => s.revertToSnapshot revid

/-- The condition on a step, for a snapshot `revid` at which the accounts in `A` did not exist. -/
def DBOp.Undoable (X : Externals) (A : Set Address) (revid : Nat) (s : StateDB) : DBOp → Prop
  | .call ctx => s.CallUndoable X A ctx
  | .suicide a => StateDB.SuicideUndoable A s a
  | .revertToSnapshot id => revid < id
  | _ => True

namespace StateDB

/-! ## 2. Between the snapshot and the revert -/

/-- Undoing respects `R`, and `R` sees neither the journal nor the snapshots. -/
structure Backtracks (R : StateDB → StateDB → Prop) : Prop where
  trans : ∀ {s t u}, R s t → R t u → R s u
  respects : Undo.Respects revertEntry R
  unseen : ∀ {s t}, t.stateObjects = s.stateObjects → t.refund = s.refund → t.logs = s.logs →
    t.logSize = s.logSize → R s t

theorem backtracks_restored (A : Set Address) : Backtracks (Restored A) where
  trans h h' := h.trans h'
  respects := restored_revertEntry A
  unseen hobjects hrefund hlogs hsize :=
    ⟨fun a => .inl (congrFun hobjects a), hrefund, hlogs, hsize⟩

/-- The snapshot taken in `s` is still good in `t`, and `R` says how much a revert to it brings
back. -/
structure SinceUpTo (R : StateDB → StateDB → Prop) (s t : StateDB) : Prop where
  undoes : Undo.Undoes journal revertEntry R s t
  revisions : ∃ rs, t.validRevisions = s.validRevisions ++
    ⟨s.nextRevisionId, s.journal.length⟩ :: rs ∧ ∀ r ∈ rs, s.nextRevisionId < r.id ∧
    s.journal.length ≤ r.journalIndex
  nextRevisionId : s.nextRevisionId < t.nextRevisionId

section
variable {R : StateDB → StateDB → Prop} (hR : Backtracks R) {s t u : StateDB}
include hR

theorem sinceUpTo_snapshot (s : StateDB) : SinceUpTo R s s.snapshot.1 where
  undoes := Undo.Undoes.of_log_eq rfl (hR.unseen rfl rfl rfl rfl)
  revisions := ⟨[], rfl, by simp⟩
  nextRevisionId := Nat.lt_succ_self _

/-- A step that the journal undoes. -/
theorem SinceUpTo.of_undoes (h : SinceUpTo R s t) (htu : Undo.Undoes journal revertEntry R t u)
    (hr : u.validRevisions = t.validRevisions) (hn : u.nextRevisionId = t.nextRevisionId) :
    SinceUpTo R s u :=
  ⟨Undo.Undoes.trans (R := R) (fun _ _ _ h h' => hR.trans h h') hR.respects h.undoes htu,
    hr ▸ h.revisions, hn ▸ h.nextRevisionId⟩

omit hR in
theorem SinceUpTo.journal_length_le (h : SinceUpTo R s t) :
    s.journal.length ≤ t.journal.length := by
  obtain ⟨es, _, hlog, -⟩ := h.undoes
  rw [hlog, length_append]
  exact Nat.le_add_left _ _

/-- A further snapshot. -/
theorem SinceUpTo.snapshot (h : SinceUpTo R s t) : SinceUpTo R s t.snapshot.1 := by
  obtain ⟨rs, hrs, hafter⟩ := h.revisions
  refine ⟨?_, ⟨rs ++ [⟨t.nextRevisionId, t.journal.length⟩], ?_, ?_⟩,
    Nat.lt_succ_of_lt h.nextRevisionId⟩
  · obtain ⟨es, t', hlog, hrun, hst⟩ := h.undoes
    -- undoing does not look at the snapshots
    have hsame : R t t.snapshot.1 := hR.unseen rfl rfl rfl rfl
    obtain ⟨t'', ht'', hback⟩ := Run.run_sim (hR.respects _ _ _ _) hsame hrun
    exact ⟨es, t'', hlog, ht'', hR.trans hst hback⟩
  · show t.validRevisions ++ [_] = _
    rw [hrs, append_assoc, cons_append]
  · intro r hr
    rcases mem_append.mp hr with hr | hr
    · exact hafter r hr
    · rw [mem_singleton.mp hr]
      exact ⟨h.nextRevisionId, h.journal_length_le⟩

/-- Undoing a part of what has been gained since. -/
theorem revertEntries_take {n : Nat} (h : Undo.Undoes journal revertEntry R s t)
    (hn : s.journal.length ≤ n) :
    ∃ v, revertEntries (t.journal.take (t.journal.length - n)) t = some v ∧
      ∀ u : StateDB, u.journal = t.journal.drop (t.journal.length - n) →
        R v u → Undo.Undoes journal revertEntry R s u := by
  obtain ⟨es, t', hlog, hrun, hst⟩ := h
  have hk : t.journal.length - n ≤ es.length := by
    rw [hlog, length_append]
    omega
  generalize t.journal.length - n = k at hk
  rw [hlog, take_append_of_le_length hk, drop_append_of_le_length hk]
  rw [← take_append_drop k es, Run.run_append] at hrun
  obtain ⟨v, hv, hrun⟩ := Option.bind_eq_some_iff.mp hrun
  refine ⟨v, hv, fun u hu hvu => ?_⟩
  obtain ⟨u', hu', hback⟩ := Run.run_sim (hR.respects _ _ _ _) hvu hrun
  exact ⟨es.drop k, u', hu, hu', hR.trans hst hback⟩

/-- A revert to a later snapshot. -/
theorem SinceUpTo.revertToSnapshot (h : SinceUpTo R s t) {id : Nat} (hid : s.nextRevisionId < id)
    (hu : t.revertToSnapshot id = some u) : SinceUpTo R s u := by
  obtain ⟨rs, hrs, hafter⟩ := h.revisions
  -- the search passes over this snapshot and those before it
  have hearlier : ∀ r ∈ s.validRevisions ++ [⟨s.nextRevisionId, s.journal.length⟩],
      decide (r.id < id) = true := by
    intro r hr
    rcases mem_append.mp hr with hr | hr
    · exact decide_eq_true ((s.revision_lt r hr).trans hid)
    · rw [mem_singleton.mp hr]
      exact decide_eq_true hid
  rw [append_cons] at hrs
  unfold StateDB.revertToSnapshot at hu
  split at hu
  · cases hu
  next r rest hdrop =>
    split at hu
    · obtain ⟨w, hw, rfl⟩ := Option.map_eq_some_iff.mp hu
      obtain ⟨v, hv, rfl⟩ := Option.map_eq_some_iff.mp hw
      -- the snapshot found is one of the later ones
      have hr : r ∈ rs := by
        rw [hrs, dropWhile_append_of_pos hearlier] at hdrop
        exact (dropWhile_sublist _).subset (hdrop ▸ mem_cons_self)
      obtain ⟨v', hv', hundoes⟩ := revertEntries_take hR h.undoes (hafter r hr).2
      cases hv.symm.trans hv'
      refine ⟨hundoes _ rfl (hR.unseen rfl rfl rfl rfl),
        ⟨rs.takeWhile fun r => r.id < id, ?_, fun r hr => hafter r ?_⟩, h.nextRevisionId⟩
      · show t.validRevisions.takeWhile _ = _
        rw [hrs, takeWhile_append_of_pos hearlier, ← append_cons]
      · exact (takeWhile_sublist _).subset hr
    · cases hu

/-- The revert finds the snapshot, and what it leads to is as `R` says. -/
theorem SinceUpTo.exists_revert (h : SinceUpTo R s t) :
    ∃ r, t.revertToSnapshot s.nextRevisionId = some r ∧ R s r ∧ r.journal = s.journal := by
  obtain ⟨rs, hrs, -⟩ := h.revisions
  have hearlier : ∀ r ∈ s.validRevisions, decide (r.id < s.nextRevisionId) = true := fun r hr =>
    decide_eq_true (s.revision_lt r hr)
  have hdrop : t.validRevisions.dropWhile (fun r => r.id < s.nextRevisionId) =
      ⟨s.nextRevisionId, s.journal.length⟩ :: rs := by
    rw [hrs, dropWhile_append_of_pos hearlier, dropWhile_cons_of_neg (by simp)]
  obtain ⟨es, t', hlog, hrun, hst⟩ := h.undoes
  have hlength : t.journal.length - s.journal.length = es.length := by
    rw [hlog, length_append, Nat.add_sub_cancel]
  have htake : t.journal.take (t.journal.length - s.journal.length) = es := by
    rw [hlength, hlog, take_left']
    rfl
  simp only [StateDB.revertToSnapshot, hdrop, if_true, revertJournal, htake,
    show revertEntries es t = some t' from hrun, Option.map_some]
  refine ⟨_, rfl, hR.trans hst (hR.unseen rfl rfl rfl rfl), ?_⟩
  rw [hlength, hlog, drop_left']
  rfl

end

/-! ## 3. When everything comes back -/

/-- The snapshot taken in `s` is still good in `t`, and a revert to it brings everything back but in
`A`. -/
abbrev Since (A : Set Address) (s t : StateDB) : Prop := SinceUpTo (Restored A) s t

variable {X : Externals} {A : Set Address} {s t u : StateDB}

theorem since_snapshot (A : Set Address) (s : StateDB) : Since A s s.snapshot.1 :=
  sinceUpTo_snapshot (backtracks_restored A) s

theorem Since.of_undoes (h : Since A s t) (htu : Undoes A t u) : Since A s u := by
  obtain ⟨hr, hn⟩ := htu.revisions
  exact SinceUpTo.of_undoes (backtracks_restored A) h
    (Undo.Undoes.mono (fun _ h => h.toRestored) htu) hr hn

/-- A step other than a snapshot or a revert is undone by the journal. -/
theorem undoes_dbStep {op : DBOp} (revid : Nat) (hop : op.Undoable X A revid t)
    (hsnapshot : op ≠ .snapshot) (hrevert : ∀ id, op ≠ .revertToSnapshot id)
    (hu : dbStep X t op = some u) : Undoes A t u := by
  cases op with
  | call ctx => exact undoes_callDB hop hu
  | addBalance a amount => cases hu; exact undoes_addBalance t a amount
  | subBalance a amount => cases hu; exact undoes_subBalance t a amount
  | setBalance a amount => cases hu; exact undoes_setBalance t a amount
  | setNonce a nonce => cases hu; exact undoes_setNonce t a nonce
  | setCode a codeHash code => cases hu; exact undoes_setCode t a codeHash code
  | setState a key value => cases hu; exact undoes_setState t a key value
  | suicide a => exact undoes_suicide hop hu
  | createAccount a => cases hu; exact undoes_createAccount t a
  | createContractAccount a => cases hu; exact undoes_createContractAccount t a
  | addLog log => cases hu; exact undoes_addLog t log
  | addRefund gas => cases hu; exact undoes_addRefund t gas
  | subRefund gas => exact undoes_subRefund hu
  | snapshot => exact absurd rfl hsnapshot
  | revertToSnapshot id => exact absurd rfl (hrevert id)

/-- **One step** keeps the snapshot good. -/
theorem since_dbStep {op : DBOp} (h : Since A s t) (hop : op.Undoable X A s.nextRevisionId t)
    (hu : dbStep X t op = some u) : Since A s u := by
  cases op with
  | snapshot => cases hu; exact SinceUpTo.snapshot (backtracks_restored A) h
  | revertToSnapshot id => exact SinceUpTo.revertToSnapshot (backtracks_restored A) h hop hu
  | _ => exact Since.of_undoes h (undoes_dbStep _ hop (by simp) (by simp) hu)

/-- The revert finds the snapshot and takes back everything since. -/
theorem Since.exists_revert (h : Since {a | s.getStateObject a = none} s t) :
    ∃ r, t.revertToSnapshot s.nextRevisionId = some r ∧ r.stateObjects = s.stateObjects ∧
      r.refund = s.refund ∧ r.logs = s.logs ∧ r.logSize = s.logSize := by
  obtain ⟨r, hr, hrestored, -⟩ := SinceUpTo.exists_revert (backtracks_restored _) h
  refine ⟨r, hr, ?_, hrestored.refund, hrestored.logs, hrestored.logSize⟩
  funext a
  rcases hrestored.objects a with heq | ⟨hnone, hsome, -⟩
  · exact heq
  · rw [show s.getStateObject a = none from hnone] at hsome
    cases hsome

end StateDB

open StateDB

/-- **A run of undoable steps is taken back completely.** -/
theorem revertToSnapshot_restores (X : Externals) (s s' : StateDB) (ops : List DBOp)
    (hops : Run.Along (dbStep X)
      (fun t op => op.Undoable X {a | s.getStateObject a = none} s.snapshot.2 t) ops s.snapshot.1)
    (hrun : Run.run (dbStep X) ops s.snapshot.1 = some s') :
    ∃ r, s'.revertToSnapshot s.snapshot.2 = some r ∧ r.stateObjects = s.stateObjects ∧
      r.refund = s.refund ∧ r.logs = s.logs ∧ r.logSize = s.logSize :=
  Since.exists_revert (Run.run_inv since_dbStep (since_snapshot _ s) hops hrun)

/-- Account `2`, which does not exist, votes for `6`; the vote is taken back before the rest is. -/
def payAndVote : List DBOp :=
  [.call { fromAddr := 1, toAddr := some 7, value := 40, data := [] }, .setState 6 1 2, .snapshot,
    .call { voteSeven with fromAddr := 2 }, .revertToSnapshot 1, .addRefund 9]

theorem payAndVote_restored : ∃ s' r,
    Run.run (dbStep plainExternals) payAndVote
      (ofAccounts [(1, .ofBalance 100), (6, candidate 9 50 50)]).snapshot.1 = some s' ∧
    s'.revertToSnapshot 0 = some r ∧
    r.stateObjects = (ofAccounts [(1, .ofBalance 100), (6, candidate 9 50 50)]).stateObjects ∧
    r.refund = 0 := by
  have hops : Run.Along (dbStep plainExternals) (fun t op => op.Undoable plainExternals
      {a | (ofAccounts [(1, .ofBalance 100), (6, candidate 9 50 50)]).getStateObject a = none} 0 t)
      payAndVote (ofAccounts [(1, .ofBalance 100), (6, candidate 9 50 50)]).snapshot.1 := by
    refine ⟨trivial, fun s₁ h₁ => ⟨trivial, fun s₂ h₂ => ⟨trivial, fun s₃ h₃ =>
      ⟨fun _ _ => .inl rfl, fun s₄ h₄ => ⟨Nat.zero_lt_one, fun s₅ h₅ =>
      ⟨trivial, fun s₆ h₆ => trivial⟩⟩⟩⟩⟩⟩
  obtain ⟨r, hr, hobjects, hrefund, -⟩ :=
    revertToSnapshot_restores plainExternals _ _ payAndVote hops rfl
  exact ⟨_, r, rfl, hr, hobjects, hrefund⟩

/-- An existing account votes seven: its balance comes back, its vote stays. -/
theorem revert_keeps_vote : ∃ s' r,
    Run.run (dbStep plainExternals) [.call voteSeven]
      (ofAccounts [(1, .ofBalance 100), (6, candidate 9 50 50)]).snapshot.1 = some s' ∧
    s'.revertToSnapshot 0 = some r ∧ r.world 1 = some (voter 100 6 7) ∧
    (ofAccounts [(1, .ofBalance 100), (6, candidate 9 50 50)]).world 1 = some (voter 100 0 0) := by
  exact ⟨_, _, rfl, rfl, rfl, rfl⟩

end ProbeChain
