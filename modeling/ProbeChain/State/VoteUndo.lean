/-
# What a revert does to the votes

The undoing of a vote, of a redemption and of the transfer of a lost account works on copies, so
after a revert the votes stay where they were moved to, while the total of the candidate of a vote
goes back.  The undoing of much else works on copies as well, but the vote ledger does not see it.

`Recast` says that the ledger has come back.  `recasts_callDB` says when a call is undone as far as
the ledger is concerned: only the three operations above ask for anything.  `SinceUpTo.standing_eq`
is the result for whatever is done between a snapshot and a revert to it.
-/
import ProbeChain.State.Revert
import ProbeChain.State.Votes

namespace ProbeChain

open Option Function World

/-! ## 1. The same votes, except for some accounts -/

namespace StateObject

theorem voteRecord_setBalance (o : StateObject) (x : Int) :
    (o.setBalance x).voteRecord = o.voteRecord := by
  simp [voteRecord]

theorem voteRecord_setNonce (o : StateObject) (n : UInt64) :
    (o.setNonce n).voteRecord = o.voteRecord := by
  cases o with
  | mk t => cases t <;> rfl

theorem standing_eq_of_voteRecord {o p : StateObject} (h : p.voteRecord = o.voteRecord) :
    p.standing = o.standing := by
  obtain ⟨htype, haccount, hvalue, hpledge, htotal⟩ := VoteRecord.mk.inj h
  have hcast : p.castVote = o.castVote := by
    rw [castVote, castVote, regularVotes, regularVotes, htype, haccount, hvalue]
  have hstake : p.stake = o.stake := by
    rw [stake, stake, htype, hpledge, htotal]
  have htyped : p.Typed = o.Typed := by
    rw [Typed, Typed, htype, hvalue, hstake]
  rw [standing, standing, hcast, hstake, htyped]

end StateObject

open StateObject

namespace StateDB

/-- `t` has the votes of `s`; of the accounts in `A` only that they exist in both. -/
def Recast (A : Set Address) (s t : StateDB) : Prop :=
  ∀ a, (t.world a).map voteRecord = (s.world a).map voteRecord ∨
    a ∈ A ∧ (s.world a).isSome ∧ (t.world a).isSome

variable {A : Set Address} {s s' t u : StateDB} {a : Address}

theorem recast_of_world_eq (h : t.world = s.world) : Recast A s t := by
  intro a
  rw [h]
  exact .inl rfl

theorem Restored.recast (h : Restored A s t) : Recast A s t := by
  intro a
  rcases h.objects a with heq | hin
  · left
    rw [world_apply, world_apply, getStateObject_congr heq]
  · exact .inr hin

section
variable (h : Recast A s t)
include h

theorem Recast.isSome_eq (a : Address) : (t.world a).isSome = (s.world a).isSome := by
  rcases h a with heq | ⟨-, hs, ht⟩
  · rw [← isSome_map (f := voteRecord), heq, isSome_map]
  · rw [hs, ht]

theorem Recast.trans (h' : Recast A t u) : Recast A s u := by
  intro a
  rcases h a with hst | ⟨ha, hs, ht⟩
  · rcases h' a with htu | ⟨ha, ht, hu⟩
    · exact .inl (htu.trans hst)
    · exact .inr ⟨ha, (h.isSome_eq a).symm.trans ht, hu⟩
  · exact .inr ⟨ha, hs, (h'.isSome_eq a).trans ht⟩

/-- Putting the same thing into both. -/
theorem Recast.overwrite {t' : StateDB} {x : Option StateObject}
    (hs : s'.stateObjects = update s.stateObjects a x)
    (ht : t'.stateObjects = update t.stateObjects a x) : Recast A s' t' := by
  intro b
  by_cases hb : b = a
  · left
    rw [world_apply, world_apply, getStateObject_congr (s := s') (t := t')]
    rw [hs, ht, hb, update_self, update_self]
  · have hold : s'.world b = s.world b := by
      refine getStateObject_congr ?_
      rw [hs, update_of_ne hb]
    have hold' : t'.world b = t.world b := by
      refine getStateObject_congr ?_
      rw [ht, update_of_ne hb]
    rw [hold, hold']
    exact h b

/-- Changing both in a way that only depends on the votes. -/
theorem Recast.modifyObject (a : Address) {f : StateObject → StateObject}
    (hdel : ∀ o, (f o).deleted = o.deleted)
    (hf : ∀ o p, p.voteRecord = o.voteRecord → (f p).voteRecord = (f o).voteRecord) :
    Recast A (s.modifyObject a f) (t.modifyObject a f) := by
  rw [Recast, world_modifyObject s a f hdel, world_modifyObject t a f hdel]
  intro b
  have hsome := h.isSome_eq a
  cases ho : s.world a with
  | none =>
    rw [ho, isSome_none, isSome_eq_false_iff, isNone_iff_eq_none] at hsome
    rw [modify_of_none ho, modify_of_none hsome]
    exact h b
  | some o =>
    rw [ho, isSome_some, isSome_iff_exists] at hsome
    obtain ⟨p, hp⟩ := hsome
    rw [modify_of_some ho, modify_of_some hp]
    by_cases hb : b = a
    · subst hb
      rw [put_self, put_self]
      have hrecord := h b
      rw [ho, hp] at hrecord
      rcases hrecord with heq | ⟨ha, -, -⟩
      · exact .inl (congrArg some (hf o p (some.inj heq)))
      · exact .inr ⟨ha, rfl, rfl⟩
    · rw [put_of_ne _ _ hb, put_of_ne _ _ hb]
      exact h b

theorem Recast.revertObject {f : StateObject → StateObject}
    (hs : s.revertObject a f = some s') (hdel : ∀ o, (f o).deleted = o.deleted)
    (hf : ∀ o p, p.voteRecord = o.voteRecord → (f p).voteRecord = (f o).voteRecord) :
    ∃ t', t.revertObject a f = some t' ∧ Recast A s' t' := by
  obtain ⟨hsome, rfl⟩ := revertObject_eq_some.mp hs
  have hsome' : (t.getStateObject a).isSome := (h.isSome_eq a).trans hsome
  exact ⟨_, revertObject_eq_some.mpr ⟨hsome', rfl⟩, h.modifyObject a hdel hf⟩

theorem Recast.revertCopy
    (hs : s.revertCopy a = some s') : ∃ t', t.revertCopy a = some t' ∧ Recast A s' t' := by
  obtain ⟨hsome, rfl⟩ := revertCopy_eq_some.mp hs
  exact ⟨t, revertCopy_eq_some.mpr ⟨(h.isSome_eq a).trans hsome, rfl⟩, h⟩

end

/-- **Undoing an entry respects the votes.** -/
theorem recast_revertEntry (A : Set Address) : Undo.Respects revertEntry (Recast A) := by
  intro s t s' e h hs
  -- what these entries write, they write into the vote record whatever was there
  have hwritten (f : StateObject → StateObject) (g : VoteRecord → VoteRecord)
      (hfg : ∀ o, (f o).voteRecord = g o.voteRecord) (o p : StateObject)
        (hop : p.voteRecord = o.voteRecord) :
      (f p).voteRecord = (f o).voteRecord := by rw [hfg, hfg, hop]
  cases e
  case createObjectChange a =>
    cases hs
    exact ⟨_, rfl, h.overwrite rfl rfl⟩
  case resetObjectChange a prev =>
    cases hs
    exact ⟨_, rfl, h.overwrite rfl rfl⟩
  case refundChange | addLogChange =>
    cases hs
    exact ⟨_, rfl, h⟩
  case balanceChange =>
    exact h.revertObject hs (fun o => setBalance_deleted o _)
      (hwritten _ id fun o => voteRecord_setBalance o _)
  case nonceChange =>
    refine h.revertObject hs (fun o => ?_) (hwritten _ id fun o => voteRecord_setNonce o _)
    cases o with
    | mk t => cases t <;> rfl
  case storageChange | codeChange | lossMarkAccountChange =>
    exact h.revertObject hs (fun _ => rfl) fun _ _ hop => hop
  case voteValueForAuthorizeChange a prev =>
    exact h.revertObject hs (fun _ => rfl)
      (hwritten _ (fun r => { r with total := some prev }) fun _ => rfl)
  case regularSuicideChange a suicide voteAccount voteValue lossType value =>
    cases hs
    exact ⟨_, rfl, h.modifyObject _ (fun _ => rfl) (hwritten _
      (fun r => { r with voteAccount := voteAccount, voteValue := some voteValue }) fun _ => rfl)⟩
  case authorizeSuicideChange a suicide owner pledgeValue voteValue info validPeriod =>
    cases hs
    exact ⟨_, rfl, h.modifyObject _ (fun _ => rfl) (hwritten _
      (fun r => { r with pledgeValue := some pledgeValue, total := some voteValue }) fun _ => rfl)⟩
  case pnsSuicideChange | assetSuicideChange | lossSuicideChange =>
    cases hs
    exact ⟨_, rfl, h.modifyObject _ (fun _ => rfl) fun _ _ hop => hop⟩
  all_goals exact h.revertCopy hs

theorem backtracks_recast (A : Set Address) : Backtracks (Recast A) where
  trans h h' := h.trans h'
  respects := recast_revertEntry A
  unseen hobjects _ _ _ :=
    recast_of_world_eq (funext fun a => getStateObject_congr (congrFun hobjects a))

/-! ## 2. What is undone as far as the votes go -/

/-- `t` has grown out of `s`, and undoing what the journal has gained brings the votes back. -/
def Recasts (A : Set Address) (s t : StateDB) : Prop :=
  Undo.Undoes journal revertEntry (Recast A) s t

theorem Undoes.recasts (h : Undoes A s t) : Recasts A s t :=
  Undo.Undoes.mono (fun _ hsame => hsame.toRestored.recast) h

theorem Recasts.refl (A : Set Address) (s : StateDB) : Recasts A s s := (Undoes.refl A s).recasts

theorem Recasts.trans (h : Recasts A s t) (h' : Recasts A t u) : Recasts A s u :=
  Undo.Undoes.trans (R := Recast A) (fun _ _ _ hst htu => hst.trans htu) (recast_revertEntry A) h h'

/-- A write that the votes do not show, or to an account that need not come back. -/
theorem recast_setStateObject {o p : StateObject} (h : s.getStateObject a = some o)
    (hdel : p.deleted = false) (hp : a ∈ A ∨ p.voteRecord = o.voteRecord) :
    Recast A s (s.setStateObject a p) := by
  intro b
  rw [world_setStateObject s a hdel]
  by_cases hb : b = a
  · subst hb
    rw [put_self, world_apply, h]
    rcases hp with ha | hrecord
    · exact .inr ⟨ha, rfl, rfl⟩
    · exact .inl (congrArg some hrecord)
  · rw [put_of_ne _ _ hb]
    exact .inl rfl

/-- A journalled write whose entry works on a copy. -/
theorem recasts_copy {o p : StateObject} {e : JournalEntry} (h : s.getStateObject a = some o)
    (hdel : p.deleted = false) (hp : a ∈ A ∨ p.voteRecord = o.voteRecord)
    (hrev : ∀ t, e.revert t = t.revertCopy a) : Recasts A s ((s.append e).setStateObject a p) := by
  have hcopy : e.revert ((s.append e).setStateObject a p) =
      some ((s.append e).setStateObject a p) := by
    rw [hrev, revertCopy, getStateObject_setStateObject_self _ a hdel]
  exact Undo.Undoes.of_log_cons rfl hcopy (recast_setStateObject h hdel hp)

/-- Closing an account is always undone: the mark itself is not seen. -/
theorem recasts_suicide (h : s.suicide a = some t) : Recasts A s t := by
  by_cases hA : SuicideUndoable A s a
  · exact (undoes_suicide hA h).recasts
  · -- an account that leaves no entry
    rw [SuicideUndoable] at hA
    push Not at hA
    obtain ⟨o, ho, -, -, htype⟩ := hA
    have hsilent : suicideChange a o = some [] := by
      rw [suicideChange]
      by_cases hmark : o.accountType = .lossMark
      · rw [hmark]
      · rw [htype hmark]
    simp only [suicide, ho, hsilent, bind_eq_bind, bind_some, List.foldl_nil,
      pure_def, some.injEq] at h
    rw [← h]
    exact Undo.Undoes.of_log_eq rfl
      (recast_setStateObject ho (getStateObject_eq_some.mp ho).2 (.inr rfl))

/-- Whatever else an operation changes, the votes come back as long as they do not show it. -/
theorem Changes.recasts {B : Set Address} (h : Changes false B s t) : Recasts A s t := by
  induction h with
  | refl s => exact .refl A s
  | trans _ _ ih ih' => exact ih.trans ih'
  | of_missing _ ih => exact ih
  | addBalance s a v => exact (undoes_addBalance s a v).recasts
  | setBalance _ v => exact (undoes_setBalance _ _ v).recasts
  | create s a t => exact (undoes_getOrCreateObject s a t).recasts
  | replace s a t ho _ => exact (undoes_replace s a t ho).recasts
  | updateLossMark s lastBits flag => exact (undoes_updateLossMark s lastBits flag).recasts
  | suicide _ h => exact recasts_suicide h
  | note h _ hrev => exact (undoes_append_copy h hrev).recasts
  | copy h hdel _ hvotes _ hrev =>
    exact recasts_copy h hdel (.inr (hvotes.resolve_left Bool.false_ne_true)) hrev
  | voteFor hvotes => exact absurd hvotes Bool.false_ne_true

/-! ## 3. Calls -/

variable {X : Externals} {ctx : TxContext}

theorem recasts_transferLostAccount (hA : TransferLostVotesUndoable A s ctx)
    (h : s.transferLostAccount ctx = some t) : Recasts A s t := by
  rw [transferLostAccount] at h
  split at h
  · cases h
    exact Recasts.refl A s
  next addr hd =>
    split at h
    · cases h
      exact Recasts.refl A s
    next loss hloss =>
      obtain ⟨u, hu, rfl⟩ := map_eq_some_iff.mp h
      obtain ⟨hundo, hkeeps⟩ := changes_transferLostAssets (hA addr hd loss hloss) hu
      obtain ⟨p, hp, -⟩ := hkeeps addr loss hloss
      have hstate : (u.append (.lossStateChange addr loss.lossAccount.state)).getStateObject addr =
          some p :=
        hp
      rw [modifyObject, hstate]
      exact hundo.undoes.recasts.trans
        (recasts_copy hp (getStateObject_eq_some.mp hp).2 (.inr rfl) fun _ => rfl)

/-- **What has to hold before a call for the journal to bring the votes back.**  Only the operations
that move votes ask for anything. -/
def VotesUndoable (A : Set Address) (s : StateDB) (ctx : TxContext) : Prop :=
  match ctx.toAddr.map operationOf with
  | some .vote => s.VoteUndoable A ctx
  | some .redemption => s.RedemptionUndoable A ctx
  | some .transferLostAccountBalance => TransferLostVotesUndoable A s ctx
  | _ => True

theorem recasts_callDB (hA : VotesUndoable A s ctx) (h : callDB X s ctx = some t) :
    Recasts A s t := by
  by_cases hmoves : ∀ dest ∈ ctx.toAddr, (operationOf dest).movesVotes = false
  · exact (changes_callDB (.inr hmoves) (callUndoable_univ X s ctx) h).recasts
  · push Not at hmoves
    obtain ⟨dest, hto, hmoves⟩ := hmoves
    have hto : ctx.toAddr = some dest := hto
    rw [VotesUndoable, hto, map_some] at hA
    rw [callDB, hto] at h
    dsimp only at h
    cases hop : operationOf dest <;> rw [hop] at h hA hmoves <;> dsimp only at h hA
    case vote => exact (changes_vote hA h).undoes.recasts
    case redemption => exact (changes_redemption hA h).undoes.recasts
    case transferLostAccountBalance => exact recasts_transferLostAccount hA h
    all_goals exact absurd rfl hmoves

/-! ## 4. Between the snapshot and the revert -/

/-- No call takes a snapshot or forgets one. -/
theorem revisions_callDB (h : callDB X s ctx = some t) :
    t.validRevisions = s.validRevisions ∧ t.nextRevisionId = s.nextRevisionId :=
  (undoes_callDB (callUndoable_univ X s ctx) h).revisions

/-- The snapshot taken in `s` can no longer be found in `t`. -/
structure Forgotten (s t : StateDB) : Prop where
  revisions : ∀ r ∈ t.validRevisions, r.id ≠ s.nextRevisionId
  nextRevisionId : s.nextRevisionId < t.nextRevisionId

theorem Forgotten.snapshot (h : Forgotten s t) : Forgotten s t.snapshot.1 := by
  refine ⟨fun r hr => ?_, Nat.lt_succ_of_lt h.nextRevisionId⟩
  rcases List.mem_append.mp hr with hr | hr
  · exact h.revisions r hr
  · rw [List.mem_singleton.mp hr]
    exact h.nextRevisionId.ne'

theorem revertToSnapshot_eq_some {id : Nat} (h : t.revertToSnapshot id = some u) :
    (∃ r ∈ t.validRevisions, r.id = id) ∧
      u.validRevisions = t.validRevisions.takeWhile (fun r => r.id < id) ∧
      u.nextRevisionId = t.nextRevisionId := by
  rw [StateDB.revertToSnapshot] at h
  split at h
  · cases h
  next r rest hdrop =>
    split at h
    next hid =>
      obtain ⟨v, -, rfl⟩ := map_eq_some_iff.mp h
      exact ⟨⟨r, (List.dropWhile_sublist _).subset (hdrop ▸ List.mem_cons_self), hid⟩, rfl, rfl⟩
    · cases h

theorem Forgotten.revertToSnapshot (h : Forgotten s t) {id : Nat}
    (hu : t.revertToSnapshot id = some u) :
    Forgotten s u := by
  obtain ⟨-, hrevisions, hnext⟩ := revertToSnapshot_eq_some hu
  refine ⟨fun r hr => h.revisions r ?_, hnext ▸ h.nextRevisionId⟩
  rw [hrevisions] at hr
  exact (List.takeWhile_sublist _).subset hr

theorem Forgotten.not_revert (h : Forgotten s t) :
    t.revertToSnapshot s.nextRevisionId ≠ some u := by
  intro hu
  obtain ⟨⟨r, hr, hid⟩, -⟩ := revertToSnapshot_eq_some hu
  exact h.revisions r hr hid

/-- **The votes after a revert.** -/
theorem SinceUpTo.standing_eq (h : SinceUpTo (Recast {a | s.getStateObject a = none}) s t)
    (hu : t.revertToSnapshot s.nextRevisionId = some u) : u.world.standing = s.world.standing := by
  obtain ⟨r, hr, hrecast, -⟩ := h.exists_revert (backtracks_recast _)
  obtain rfl : r = u := some.inj (hr.symm.trans hu)
  funext a
  rcases hrecast a with heq | ⟨hnone, hsome, -⟩
  · cases ho : s.world a with
    | none =>
      rw [ho, map_none, map_eq_none_iff] at heq
      rw [standing_of_none ho, standing_of_none heq]
    | some o =>
      rw [ho, map_some, map_eq_some_iff] at heq
      obtain ⟨p, hp, hrecord⟩ := heq
      rw [standing_of_some ho, standing_of_some hp, standing_eq_of_voteRecord hrecord]
  · have hmissing : s.getStateObject a = none := hnone
    rw [world_apply, hmissing] at hsome
    cases hsome

end StateDB

end ProbeChain
