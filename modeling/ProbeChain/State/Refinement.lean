/-
# The database refines the world

`StateDB.world` forgets the journal, the logs and the deleted objects.  Each primitive of the
database has one lemma here that says what it does to the world (`world_addBalance`,
`world_updateLossMark`, …), each operation one that follows from those, and `callDB_refines` puts
them together: running the operation and then forgetting is forgetting and then running the
abstract operation.
-/
import ProbeChain.State.World

namespace ProbeChain

open Option World StateObject

namespace StateDB

/-- The accounts that exist in a database. -/
def world (s : StateDB) : World := s.getStateObject

theorem world_apply (s : StateDB) (a : Address) : s.world a = s.getStateObject a := rfl

variable {s : StateDB} {a : Address} {o : StateObject}

/-- What exists is not deleted. -/
theorem deleted_of_world (h : s.world a = some o) : o.deleted = false := by
  rw [world_apply, getStateObject] at h
  split at h
  · split at h
    · cases h
    · rename_i hdel; cases h; simpa using hdel
  · cases h

theorem mem_of_world_ofAccounts {accounts : List (Address × StateObject)}
    (h : (ofAccounts accounts).world a = some o) : (a, o) ∈ accounts := by
  rw [world_apply, getStateObject] at h
  split at h
  next p hp =>
    split at h
    · cases h
    · cases h
      obtain ⟨⟨b, q⟩, hfind, rfl⟩ := map_eq_some_iff.mp hp
      have hb : b = a := by simpa using List.find?_some hfind
      exact hb ▸ List.mem_of_find?_eq_some hfind
  · cases h

/-! ## 1. Primitives -/

@[simp] theorem world_append (s : StateDB) (e : JournalEntry) : (s.append e).world = s.world := rfl

theorem world_foldl_append (entries : List JournalEntry) (s : StateDB) :
    (entries.foldl append s).world = s.world := by
  induction entries generalizing s with
  | nil => rfl
  | cons e es ih => rw [List.foldl_cons, ih, world_append]

theorem world_setStateObject (s : StateDB) (a : Address)
    (h : o.deleted = false) : (s.setStateObject a o).world = s.world.put a o := by
  funext b
  by_cases hb : b = a
  · subst hb; simp [world, getStateObject, setStateObject, put, h]
  · simp [world, getStateObject, setStateObject, put, hb]

/-- Writing back a changed version of an object that exists. -/
theorem world_write {p : StateObject} (t : StateDB)
    (h : s.getStateObject a = some o) (hdel : p.deleted = o.deleted) :
    (t.setStateObject a p).world = t.world.put a p :=
  world_setStateObject t a (hdel.trans (deleted_of_world h))

section
variable (s a)

theorem world_createObjectByAccType (t : AccountType) :
    (s.createObjectByAccType a t).world = s.world.put a (new t) := by
  unfold createObjectByAccType
  rw [world_setStateObject _ _ (new_deleted t)]
  split <;> rfl

theorem world_modifyObject (f : StateObject → StateObject)
    (hf : ∀ o, (f o).deleted = o.deleted) : (s.modifyObject a f).world = s.world.modify a f := by
  unfold modifyObject World.modify
  rw [world_apply]
  cases h : s.getStateObject a with
  | none => rfl
  | some o => exact world_write s h (hf o)

variable (t : AccountType)

theorem getOrCreateObject_snd :
    (s.getOrCreateObject a t).2 = (s.world a).getD (new t) := by
  unfold getOrCreateObject
  rw [world_apply]
  cases s.getStateObject a <;> rfl

theorem getOrCreateObject_deleted : (s.getOrCreateObject a t).2.deleted = false := by
  rw [getOrCreateObject_snd]
  cases h : s.world a with
  | none => exact new_deleted t
  | some o => exact deleted_of_world h

theorem world_getOrCreateObject :
    (s.getOrCreateObject a t).1.world = s.world.put a ((s.world a).getD (new t)) := by
  unfold getOrCreateObject
  cases h : s.getStateObject a with
  | none =>
    rw [← world_apply] at h
    simp [h, world_createObjectByAccType]
  | some o =>
    rw [← world_apply] at h
    simp [h]

/-- Writing a changed version of an object that is created if need be. -/
theorem world_writeOrCreate {u : StateDB} {f : StateObject → StateObject}
    (hu : u.world = (s.getOrCreateObject a t).1.world) (hf : ∀ o, (f o).deleted = o.deleted) :
    (u.setStateObject a (f (s.getOrCreateObject a t).2)).world =
      s.world.put a (f ((s.world a).getD (new t))) := by
  have hdel := getOrCreateObject_deleted s a t
  rw [world_setStateObject _ _ ((hf _).trans hdel), hu, world_getOrCreateObject, put_put,
    getOrCreateObject_snd]

theorem world_setObjectBalance (v : Int) (h : o.deleted = false) :
    (s.setObjectBalance a o v).world =
      if o.accountType.holdsBalance then s.world.put a (o.setBalance v) else s.world := by
  unfold setObjectBalance
  split
  · rw [world_setStateObject _ _ (by simpa using h), world_append]
  · rfl

theorem world_addBalance (v : Int) : (s.addBalance a v).world = s.world.credit a v := by
  unfold addBalance getOrNewStateObject credit credited
  dsimp only
  split
  next hzero =>
    rw [hzero, world_getOrCreateObject]
    simp
  · rw [world_setObjectBalance _ _ _ (getOrCreateObject_deleted s a .regular),
      world_getOrCreateObject, getOrCreateObject_snd]
    split
    · simp
    next hb =>
      rw [setBalance_of_not_holds (by simpa using hb)]

theorem subBalance_eq_addBalance (v : Int) : s.subBalance a v = s.addBalance a (-v) := by
  unfold subBalance addBalance
  simp only [neg_eq_zero, Int.sub_eq_add_neg]

theorem world_subBalance (v : Int) : (s.subBalance a v).world = s.world.credit a (-v) := by
  rw [subBalance_eq_addBalance, world_addBalance]

end

theorem world_setBalance (v : Int)
    (h : s.world a = some o) : (s.setBalance a v).world = s.world.modify a (·.setBalance v) := by
  have hget : s.getStateObject a = some o := h
  simp only [setBalance, getOrNewStateObject, getOrCreateObject, hget, World.modify, h]
  rw [world_setObjectBalance _ _ _ (deleted_of_world h)]
  split
  · rfl
  next hb =>
    rw [setBalance_of_not_holds (by simpa using hb), World.put_eq_self h]

theorem world_updateLossMark (s : StateDB) (lastBits : UInt32) (flag : Bool) :
    (s.updateLossMark lastBits flag).world = s.world.updateLossMark lastBits flag :=
  world_writeOrCreate s _ .lossMark (f := fun o => { o with lossMarkAccount :=
    { lossMark := o.lossMarkAccount.lossMark.setMark (lastBits.toNat % 1024) flag } }) rfl fun _ =>
      rfl

theorem world_setRegularLossState (s : StateDB) (a : Address) (flag : Bool) :
    (s.setRegularLossState a flag).world = s.world.setRegularLossState a flag := by
  unfold setRegularLossState World.setRegularLossState World.modify
  rw [world_apply]
  cases h : s.getStateObject a with
  | none => rfl
  | some o => exact world_write _ h rfl

theorem world_setRegularLossType (s : StateDB) (a : Address) (t : BitVec 8) :
    (s.setRegularLossType a t).world =
      s.world.modify a fun o => o.setLossType (o.regularAccount.lossType.setType t) := by
  unfold setRegularLossType World.modify
  rw [world_apply]
  cases h : s.getStateObject a with
  | none => rfl
  | some o => exact world_write _ h rfl

theorem suicideChange_isSome (a : Address) (o : StateObject) :
    (suicideChange a o).isSome = o.closable := by
  unfold suicideChange closable
  cases o.accountType with
  | regular => cases o.regularAccount.voteValue <;> rfl
  | authorize =>
    cases o.authorizeAccount.pledgeValue <;> cases o.authorizeAccount.voteValue <;>
      cases o.authorizeAccount.validPeriod <;> rfl
  | loss => cases o.lossAccount.height <;> rfl
  | _ => rfl

theorem world_suicide (s : StateDB) (a : Address) :
    (s.suicide a).map world = s.world.suicide a := by
  unfold suicide World.suicide
  rw [world_apply]
  cases h : s.getStateObject a with
  | none => rfl
  | some o =>
    have hsome := suicideChange_isSome a o
    cases he : suicideChange a o with
    | none => rw [he] at hsome; simp [← hsome, he]
    | some entries =>
      have hwrite := world_write (p := o.markSuicided) (entries.foldl append s) h rfl
      simp [← hsome, he, hwrite, world_foldl_append]

theorem world_redemptionForAuthorize (s : StateDB) (a : Address) (v : Option Int) :
    (s.redemptionForAuthorize a v).map world = s.world.redemptionForAuthorize a v := by
  unfold redemptionForAuthorize World.redemptionForAuthorize World.redeemed
  rw [world_apply]
  cases h : s.getStateObject a with
  | none => rfl
  | some o =>
    dsimp only
    cases hp : o.authorizeAccount.pledgeValue with
    | none => rfl
    | some pledge =>
      cases hv : o.authorizeAccount.voteValue with
      | none => rfl
      | some vote =>
        cases v with
        | none => exact congrArg some (world_write _ h rfl)
        | some v => exact congrArg some (world_write _ h rfl)

theorem world_transferLostVotes (s : StateDB) (lostAddr benefitAddr : Address) :
    (s.transferLostVotes lostAddr benefitAddr).map world =
      s.world.transferLostVotes lostAddr benefitAddr := by
  unfold transferLostVotes World.transferLostVotes World.votesMove
  rw [world_apply, world_apply]
  cases hl : s.getStateObject lostAddr with
  | none => rfl
  | some lost =>
    cases hb : s.getStateObject benefitAddr with
    | none => rfl
    | some benefit =>
      have hlost (t : StateDB) (a : Address) (v : Int) :=
        world_write (p := lost.setVote a v) t hl rfl
      have hbenefit (t : StateDB) (a : Address) (v : Int) :=
        world_write (p := benefit.setVote a v) t hb rfl
      dsimp only
      cases hv : lost.regularAccount.voteValue with
      | none => rfl
      | some lostVote =>
        simp only [bind_eq_bind, bind_some, pure_def, getD_some]
        by_cases hmove : 0 < lostVote ∧ lost.regularAccount.voteAccount ≠ 0
        · simp only [if_pos hmove]
          cases hbv : benefit.regularAccount.voteValue with
          | none => rfl
          | some benefitVote =>
            by_cases hneg : benefitVote < 1
            · simp [hneg, hlost, hbenefit]
            · simp [hneg]
        · simp only [if_neg hmove]; rfl

/-! ## 2. Operations -/

variable (X : Externals) (s : StateDB) (ctx : TxContext)

theorem world_modifyLossType :
    (s.modifyLossType ctx).map world = some (s.world.modifyLossType ctx) := by
  unfold modifyLossType World.modifyLossType
  cases decodeByte ctx.data with
  | none => rfl
  | some num => exact congrArg some (world_setRegularLossType s _ num)

theorem world_vote : (s.vote ctx).map world = s.world.vote ctx := by
  unfold vote World.vote
  cases decodeAddress ctx.data with
  | none => rfl
  | some addr =>
    -- the sender exists once its balance has been written
    have hfrom : (s.subBalance ctx.fromAddr ctx.value).getStateObject ctx.fromAddr =
        some (credited (-ctx.value) (s.world ctx.fromAddr)) := by
      rw [← world_apply, world_subBalance, credit, put_self]
    simp only [hfrom]
    generalize ht : (append _ _).setStateObject ctx.fromAddr _ = t
    have hworld : t.world = s.world.castVote ctx addr := by
      have hwrite (t : StateDB) := world_write (p := (credited (-ctx.value)
        (s.world ctx.fromAddr)).addVote addr ctx.value) t hfrom rfl
      rw [← ht, hwrite, world_append, world_subBalance, credit, put_put]
      rfl
    rw [← hworld, world_apply]
    cases h : t.getStateObject addr with
    | none => rfl
    | some o =>
      dsimp only
      cases o.authorizeAccount.voteValue with
      | none => rfl
      | some prev => exact congrArg some (world_write _ h rfl)

theorem world_registerPns : (s.registerPns X ctx).world = s.world.registerPns X ctx := by
  simp only [StateDB.registerPns, World.registerPns, world_subBalance]
  rw [world_setStateObject _ _ rfl, world_createObjectByAccType, put_put]
  rfl

theorem world_registerAuthorize :
    (s.registerAuthorize X ctx).world = s.world.registerAuthorize X ctx := by
  simp only [StateDB.registerAuthorize, World.registerAuthorize, world_subBalance]
  rw [world_setStateObject _ _ rfl, world_createObjectByAccType, put_put]
  rfl

theorem world_registerLose : (s.registerLose X ctx).world = s.world.registerLose X ctx := by
  simp only [StateDB.registerLose, World.registerLose, world_subBalance, world_updateLossMark]
  rw [world_setStateObject _ _ rfl, world_createObjectByAccType, put_put]
  rfl

theorem world_cancellation : (s.cancellation ctx).map world = s.world.cancellation ctx := by
  unfold cancellation World.cancellation
  cases decodeCancellation ctx.data with
  | none => rfl
  | some decode =>
    dsimp only
    rw [world_apply]
    cases s.getStateObject decode.cancelAddress with
    | none => rfl
    | some o =>
      dsimp only
      rw [← world_addBalance]
      exact world_suicide _ _

theorem world_transfer (dest : Address) :
    (s.transfer ctx dest).world = s.world.transfer ctx dest := by
  unfold transfer World.transfer
  split
  · rfl
  · rw [world_addBalance, world_subBalance]; rfl

theorem world_revealLossReport :
    (s.revealLossReport ctx).map world = s.world.revealLossReport ctx := by
  unfold revealLossReport World.revealLossReport
  cases decodeRevealLossReport ctx.data with
  | none => rfl
  | some decode =>
    dsimp only
    rw [world_apply]
    cases h : s.getStateObject decode.lossAccount with
    | none => rfl
    | some loss =>
      simp only [bind_eq_bind, bind_some]
      cases hh : loss.lossAccount.height with
      | none => rfl
      | some height =>
        have hwrite := world_write (p := revealed ctx loss decode) s h rfl
        simp only [bind_some, pure_def, map_some, world_addBalance,
          world_subBalance, world_setRegularLossState, world_updateLossMark, ← hwrite]
        rfl

theorem world_transferLostAssets (lostAddr benefitAddr : Address) :
    (s.transferLostAssets lostAddr benefitAddr).map world =
      s.world.transferLostAssets lostAddr benefitAddr := by
  unfold transferLostAssets World.transferLostAssets World.transferLostBalance
  rw [world_apply, world_apply]
  cases hl : s.getStateObject lostAddr with
  | none => rfl
  | some lost =>
    cases s.getStateObject benefitAddr with
    | none => rfl
    | some benefit =>
      rw [world_transferLostVotes]
      congr 1
      split
      · -- the lost account is still there after the beneficiary has been paid
        obtain ⟨o, ho⟩ : ∃ o, (s.addBalance benefitAddr lost.balance).world lostAddr = some o := by
          rw [world_addBalance, credit]
          by_cases hsame : lostAddr = benefitAddr
          · subst hsame; exact ⟨_, put_self _ _ _⟩
          · exact ⟨lost, by rw [put_of_ne _ _ hsame, world_apply, hl]⟩
        rw [world_setBalance 0 ho, world_addBalance]
      · rfl

theorem world_transferLostAccount :
    (s.transferLostAccount ctx).map world = s.world.transferLostAccount ctx := by
  unfold transferLostAccount World.transferLostAccount
  cases decodeAddress ctx.data with
  | none => rfl
  | some addr =>
    dsimp only
    rw [world_apply]
    cases s.getStateObject addr with
    | none => rfl
    | some loss =>
      dsimp only
      rw [← world_transferLostAssets, map_map, map_map]
      congr 1
      funext t
      exact world_modifyObject _ addr _ (fun _ => rfl)

theorem world_transferLostAssociatedAccount (op : Operation) :
    (s.transferLostAssociatedAccount ctx op).world =
      s.world.transferLostAssociatedAccount ctx op := by
  unfold transferLostAssociatedAccount World.transferLostAssociatedAccount
  cases decodeAssociatedAccount ctx.data with
  | none => rfl
  | some decode =>
    dsimp only
    rw [world_apply]
    cases s.getStateObject decode.lossAccount with
    | none => rfl
    | some loss =>
      dsimp only
      rw [world_apply, world_apply, World.modify, world_apply]
      cases s.getStateObject loss.lossAccount.lostAccount with
      | none => rfl
      | some lost =>
        cases s.getStateObject loss.lossAccount.newAccount with
        | none => rfl
        | some benefit =>
          cases h : s.getStateObject decode.associatedAccount with
          | none => rfl
          | some o =>
            cases op with
            | transferLostAccountPns => exact world_write _ h rfl
            | transferLostAccountAuthorize => exact world_write _ h rfl
            | _ => exact (put_eq_self h).symm

theorem world_removeLossReport :
    (s.removeLossReport ctx).map world = s.world.removeLossReport ctx := by
  unfold removeLossReport World.removeLossReport
  cases decodeAddress ctx.data with
  | none => rfl
  | some addr =>
    dsimp only
    rw [world_apply]
    cases s.getStateObject addr with
    | none => rfl
    | some loss =>
      dsimp only
      rw [← world_updateLossMark, ← world_addBalance]
      exact world_suicide _ addr

theorem world_rejectLossReport :
    (s.rejectLossReport ctx).map world = s.world.rejectLossReport ctx := by
  unfold rejectLossReport World.rejectLossReport
  cases decodeAddress ctx.data with
  | none => rfl
  | some addr =>
    dsimp only
    rw [world_apply]
    cases s.getStateObject addr with
    | none => rfl
    | some loss =>
      dsimp only
      rw [← world_updateLossMark, ← world_setRegularLossState, ← world_addBalance]
      exact world_suicide _ addr

theorem world_cancellationLoss :
    (s.cancellationLoss ctx).map world = s.world.cancellationLoss ctx := by
  unfold cancellationLoss World.cancellationLoss
  cases decodeAddress ctx.data with
  | none => rfl
  | some addr =>
    dsimp only
    rw [world_apply]
    cases s.getStateObject addr with
    | none => rfl
    | some loss =>
      simp only [bind_eq_bind, bind_some]
      rw [world_apply]
      cases s.getStateObject loss.lossAccount.newAccount with
      | none => rfl
      | some benefit =>
        simp only [← world_addBalance, ← world_suicide]
        cases (s.addBalance loss.lossAccount.newAccount _).suicide addr with
        | none => rfl
        | some t => exact world_suicide t _

theorem world_modifyPnsOwner : (s.modifyPnsOwner ctx).world = s.world.modifyPnsOwner ctx := by
  unfold modifyPnsOwner World.modifyPnsOwner
  cases decodePnsOwner ctx.data with
  | none => rfl
  | some decode =>
    dsimp only
    rw [World.modify, world_apply]
    cases h : s.getStateObject decode.pnsAddress with
    | none => rfl
    | some o => exact world_write _ h rfl

theorem world_modifyPnsContent : (s.modifyPnsContent ctx).world = s.world.modifyPnsContent ctx := by
  unfold modifyPnsContent World.modifyPnsContent
  cases decodePnsContent ctx.data with
  | none => rfl
  | some decode =>
    dsimp only
    rw [World.modify, world_apply]
    cases h : s.getStateObject decode.pnsAddress with
    | none => rfl
    | some o => exact world_write _ h rfl

theorem world_redeemVotes (addr : Address) :
    (s.redeemVotes ctx addr).map world = s.world.redeemVotes ctx addr := by
  unfold redeemVotes World.redeemVotes
  rw [world_apply]
  cases h : s.getStateObject ctx.fromAddr with
  | none => rfl
  | some o =>
    simp only [bind_eq_bind, bind_some]
    split
    · cases o.regularAccount.voteValue with
      | none => rfl
      | some voteValue =>
        cases o.regularValue with
        | none => rfl
        | some value =>
          have hwrite (t : StateDB) := world_write
            (p := (o.setBalance (value + voteValue)).setVote 0 0) t h
            (setBalance_deleted o _)
          simp only [bind_some]
          rw [world_redemptionForAuthorize, hwrite, world_append]
    · rfl

theorem world_redemption : (s.redemption ctx).map world = s.world.redemption ctx := by
  unfold redemption World.redemption
  cases decodeAddress ctx.data with
  | none => rfl
  | some addr =>
    dsimp only
    rw [world_apply, world_apply]
    cases s.getStateObject ctx.fromAddr with
    | none => rfl
    | some fromObj =>
      cases s.getStateObject addr with
      | none => rfl
      | some authorizeObj =>
        have hbind (m : Option StateDB) : (m.bind (·.redeemVotes ctx addr)).map world =
            (m.map world).bind (·.redeemVotes ctx addr) := by
          cases m with
          | none => rfl
          | some t => exact world_redeemVotes t ctx addr
        rw [hbind]
        congr 1
        split
        · exact world_redemptionForAuthorize s addr none
        · rfl

theorem world_applyToBeDPoSNode :
    (s.applyToBeDPoSNode X ctx).map world = s.world.applyToBeDPoSNode X ctx := by
  unfold applyToBeDPoSNode World.applyToBeDPoSNode
  cases decodeApplyDPos ctx.data with
  | none => rfl
  | some decode =>
    dsimp only
    rw [world_apply]
    cases h : s.getStateObject decode.voteAddress with
    | none => rfl
    | some o =>
      dsimp only
      cases o.authorizeAccount.voteValue with
      | none => rfl
      | some voteValue =>
        simp only [bind_eq_bind, bind_some]
        cases ctx.blockNumber with
        | none => rfl
        | some blockNumber =>
          simp only [bind_some]
          cases calcValidatorRoundId (UInt64.ofNat blockNumber) ctx.pobEpoch with
          | none => rfl
          | some roundId =>
            simp only [bind_some, pure_def, map_some, some.injEq]
            exact world_writeOrCreate (s.append _) _ .dpos
              (f := (candidateListed X · _ roundId)) rfl fun _ => rfl

end StateDB

open StateDB in
/-- **`CallDB` does to the accounts exactly what the abstract operation does.**  It panics where
the abstract operation has no result. -/
theorem callDB_refines (X : Externals) (s : StateDB) (ctx : TxContext) :
    (callDB X s ctx).map world = World.callDB X s.world ctx := by
  unfold callDB World.callDB
  cases ctx.toAddr with
  | none => rfl
  | some dest =>
    dsimp only
    cases operationOf dest with
    | registerPns => exact congrArg some (world_registerPns X s ctx)
    | registerAuthorize => exact congrArg some (world_registerAuthorize X s ctx)
    | registerLose => exact congrArg some (world_registerLose X s ctx)
    | cancellation => exact world_cancellation s ctx
    | vote => exact world_vote s ctx
    | applyToBeDPoSNode => exact world_applyToBeDPoSNode X s ctx
    | redemption => exact world_redemption s ctx
    | cancellationLostAccount => exact world_cancellationLoss s ctx
    | revealLossReport => exact world_revealLossReport s ctx
    | transferLostAccountBalance => exact world_transferLostAccount s ctx
    | removeLossReport => exact world_removeLossReport s ctx
    | rejectLossReport => exact world_rejectLossReport s ctx
    | modifyPnsOwner => exact congrArg some (world_modifyPnsOwner s ctx)
    | modifyPnsContent => exact congrArg some (world_modifyPnsContent s ctx)
    | modifyLossType => exact world_modifyLossType s ctx
    | transferLostAccountPns =>
      exact congrArg some (world_transferLostAssociatedAccount s ctx .transferLostAccountPns)
    | transferLostAccountAuthorize =>
      exact congrArg some (world_transferLostAssociatedAccount s ctx .transferLostAccountAuthorize)
    | transfer => exact congrArg some (world_transfer s ctx dest)

/-- **Any calls** do to the accounts what the abstract operations do one after another, panics
included. -/
theorem run_callDB_refines (X : Externals) (s : StateDB) (ctxs : List TxContext) :
    (Run.run (callDB X) ctxs s).map StateDB.world = Run.run (World.callDB X) ctxs s.world := by
  induction ctxs generalizing s with
  | nil => rfl
  | cons ctx ctxs ih =>
    rw [Run.run, Run.run, ← callDB_refines, map_bind, bind_map]
    exact bind_congr fun t _ => ih t

/-- The accounts after a call that returned. -/
theorem world_callDB {X : Externals} {s s' : StateDB} {ctx : TxContext}
    (h : callDB X s ctx = some s') : World.callDB X s.world ctx = some s'.world := by
  rw [← callDB_refines, h]
  rfl

/-- A call returns exactly when the abstract operation has a result. -/
theorem callDB_isSome (X : Externals) (s : StateDB) (ctx : TxContext) :
    (callDB X s ctx).isSome = (World.callDB X s.world ctx).isSome := by
  rw [← callDB_refines, isSome_map]

end ProbeChain
