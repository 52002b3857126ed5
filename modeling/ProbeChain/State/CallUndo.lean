/-
# Which calls the journal undoes

Registrations and transfers are always undone.  Votes, loss types and loss states, revealed reports,
owners and contents, redemptions and candidates are not: undoing them works on copies, and they stay
as they were changed.

`CallUndoable A` asks of a call that what it changes without undoing lies in accounts of `A`, or is
not changed by it at all.  `undoes_callDB` shows that the journal then undoes the call.
-/
import ProbeChain.State.Undo

namespace ProbeChain

open Option World

/-- Everything the vote ledger looks at. -/
structure VoteRecord where
  accountType : AccountType
  voteAccount : Address
  voteValue : Option Int
  pledgeValue : Option Int
  total : Option Int

def StateObject.voteRecord (o : StateObject) : VoteRecord :=
  ⟨o.accountType, o.regularAccount.voteAccount, o.regularAccount.voteValue,
    o.authorizeAccount.pledgeValue, o.authorizeAccount.voteValue⟩

/-- The operations that move votes. -/
def Operation.movesVotes : Operation → Bool
  | .vote | .redemption | .transferLostAccountBalance => true
  | _ => false

open StateObject

namespace StateDB

/-! ## 1. Which calls are undone

One condition for each operation: the account that it changes without undoing is in `A`, or there is
nothing to change.  Registrations and transfers need none. -/

section
variable (X : Externals) (A : Set Address) (s : StateDB) (ctx : TxContext)

/-- The loss type at `a` is what `f` makes of it. -/
def LossTypeKept (a : Address) (f : LossType → LossType) : Prop :=
  a ∈ A ∨ ∀ o, s.getStateObject a = some o →
    f o.regularAccount.lossType = o.regularAccount.lossType

def ModifyLossTypeUndoable : Prop :=
  ∀ num, decodeByte ctx.data = some num → s.LossTypeKept A ctx.fromAddr (·.setType num)

/-- An existing voter votes nothing, for the candidate it already votes for. -/
def VoteUndoable : Prop :=
  ∀ addr, decodeAddress ctx.data = some addr → ctx.fromAddr ∈ A ∨
    ∀ o, s.getStateObject ctx.fromAddr = some o →
      o.regularAccount.voteAccount = addr ∧ o.regularAccount.voteValue.isSome ∧ ctx.value = 0

def CancellationUndoable : Prop :=
  ∀ d, decodeCancellation ctx.data = some d → SuicideUndoable A s d.cancelAddress

/-- The report is already revealed as it is, and the lost account already reported. -/
def RevealLossReportUndoable : Prop :=
  ∀ d, decodeRevealLossReport ctx.data = some d →
    (d.lossAccount ∈ A ∨ ∀ loss, s.getStateObject d.lossAccount = some loss →
      revealed ctx loss d = loss) ∧
    s.LossTypeKept A d.oldAccount (·.setState true)

/-- Votes move for good, so only between accounts that need not come back. -/
def TransferLostVotesUndoable : Prop :=
  ∀ addr, decodeAddress ctx.data = some addr → ∀ loss, s.getStateObject addr = some loss →
    ∀ lost, s.getStateObject loss.lossAccount.lostAccount = some lost →
    ∀ benefit, s.getStateObject loss.lossAccount.newAccount = some benefit →
    votesMove lost benefit = some true →
      loss.lossAccount.lostAccount ∈ A ∧ loss.lossAccount.newAccount ∈ A

/-- The report has already succeeded, and no votes move. -/
def TransferLostAccountUndoable : Prop :=
  (∀ addr, decodeAddress ctx.data = some addr → ∀ loss, s.getStateObject addr = some loss →
    addr ∈ A ∨ loss.lossAccount.state = .success) ∧ TransferLostVotesUndoable A s ctx

/-- The beneficiary is already the owner. -/
def TransferLostAssociatedAccountUndoable (op : Operation) : Prop :=
  ∀ d, decodeAssociatedAccount ctx.data = some d →
    ∀ loss, s.getStateObject d.lossAccount = some loss →
    ∀ o, s.getStateObject d.associatedAccount = some o → d.associatedAccount ∈ A ∨
      match op with
      | .transferLostAccountPns => o.pnsAccount.owner = loss.lossAccount.newAccount
      | .transferLostAccountAuthorize => o.authorizeAccount.owner = loss.lossAccount.newAccount
      | _ => True

def RemoveLossReportUndoable : Prop :=
  ∀ addr, decodeAddress ctx.data = some addr → SuicideUndoable A s addr

def RejectLossReportUndoable : Prop :=
  ∀ addr, decodeAddress ctx.data = some addr →
    SuicideUndoable A s addr ∧ s.LossTypeKept A ctx.fromAddr (·.setState false)

def CancellationLossUndoable : Prop :=
  ∀ addr, decodeAddress ctx.data = some addr → ∀ loss, s.getStateObject addr = some loss →
    SuicideUndoable A s addr ∧ SuicideUndoable A s loss.lossAccount.lostAccount

def ModifyPnsOwnerUndoable : Prop :=
  ∀ d, decodePnsOwner ctx.data = some d → d.pnsAddress ∈ A ∨
    ∀ o, s.getStateObject d.pnsAddress = some o → o.pnsAccount.owner = d.ownerAddress

def ModifyPnsContentUndoable : Prop :=
  ∀ d, decodePnsContent ctx.data = some d → d.pnsAddress ∈ A ∨
    ∀ o, s.getStateObject d.pnsAddress = some o →
      o.pnsAccount.pnsType = d.pnsType ∧ o.pnsAccount.data = d.pnsData

/-- An owner has no pledge to give up, and a voter no votes to take back. -/
def RedemptionUndoable : Prop :=
  ∀ addr, decodeAddress ctx.data = some addr →
    ∀ o, s.getStateObject ctx.fromAddr = some o → ∀ c, s.getStateObject addr = some c →
    (ctx.fromAddr = c.authorizeAccount.owner →
      addr ∈ A ∨ c.authorizeAccount.pledgeValue = some 0) ∧
    (addr = o.regularAccount.voteAccount →
      (ctx.fromAddr ∈ A ∨ addr = 0 ∧ o.regularAccount.voteValue = some 0) ∧
      (addr ∈ A ∨ o.regularAccount.voteValue = some 0))

/-- The validator list is already what the application makes of it. -/
def ApplyToBeDPoSNodeUndoable : Prop :=
  ∀ d, decodeApplyDPos ctx.data = some d → ∀ o, s.getStateObject d.voteAddress = some o →
    specialAddressForDPoS ∈ A ∨
    ∀ list, s.getStateObject specialAddressForDPoS = some list →
    ∀ voteValue, o.authorizeAccount.voteValue = some voteValue →
    ∀ number, ctx.blockNumber = some number →
    ∀ roundId, calcValidatorRoundId (UInt64.ofNat number) ctx.pobEpoch = some roundId →
      candidateListed X list
        { enode := bytesToValidatorEnode d.nodeInfo, owner := o.authorizeAccount.owner,
          voteAccount := d.voteAddress, voteValue := voteValue } roundId = list

/-- **What has to hold before a call for the journal to undo it**, except for the content of the
accounts in `A`.  Registrations and transfers are always undone. -/
def CallUndoable : Prop :=
  match ctx.toAddr with
  | none => True
  | some dest =>
    match operationOf dest with
    | .cancellation => s.CancellationUndoable A ctx
    | .vote => s.VoteUndoable A ctx
    | .applyToBeDPoSNode => s.ApplyToBeDPoSNodeUndoable X A ctx
    | .redemption => s.RedemptionUndoable A ctx
    | .cancellationLostAccount => s.CancellationLossUndoable A ctx
    | .revealLossReport => s.RevealLossReportUndoable A ctx
    | .transferLostAccountBalance => s.TransferLostAccountUndoable A ctx
    | .removeLossReport => s.RemoveLossReportUndoable A ctx
    | .rejectLossReport => s.RejectLossReportUndoable A ctx
    | .modifyPnsOwner => s.ModifyPnsOwnerUndoable A ctx
    | .modifyPnsContent => s.ModifyPnsContentUndoable A ctx
    | .modifyLossType => s.ModifyLossTypeUndoable A ctx
    | .transferLostAccountPns =>
      s.TransferLostAssociatedAccountUndoable A ctx .transferLostAccountPns
    | .transferLostAccountAuthorize =>
      s.TransferLostAssociatedAccountUndoable A ctx .transferLostAccountAuthorize
    | _ => True

end

/-! ## 2. What a step leaves at an address -/

/-- What exists at `a` in `s` still exists in `t`, with the same `g`. -/
def Keeps {β : Type} (g : StateObject → β) (s t : StateDB) (a : Address) : Prop :=
  ∀ o, s.getStateObject a = some o → ∃ p, t.getStateObject a = some p ∧ g p = g o

section
variable {β : Type} {g : StateObject → β} {A : Set Address} {s t u : StateDB} {a : Address}
  {o : StateObject} {b : Address}

theorem Keeps.trans (h : Keeps g s t a) (h' : Keeps g t u a) : Keeps g s u a := by
  intro o ho
  obtain ⟨p, hp, hpo⟩ := h o ho
  obtain ⟨q, hq, hqp⟩ := h' p hp
  exact ⟨q, hq, hqp.trans hpo⟩

/-- Writing to an account that exists. -/
theorem keeps_put {p : StateObject} (h : s.getStateObject b = some o)
    (ht : t.world = s.world.put b p) (hg : g p = g o) (a : Address) : Keeps g s t a := by
  intro q hq
  rw [← world_apply, ht]
  exact exists_put h hg hq

section
variable (hg : ∀ o v, g (o.setBalance v) = g o)
include hg

theorem keeps_addBalance (s : StateDB) (b : Address)
    (v : Int) (a : Address) : Keeps g s (s.addBalance b v) a := by
  intro o ho
  obtain ⟨x, hx⟩ := credit_of_some (w := s.world) ho b v
  exact ⟨_, by rw [← world_apply, world_addBalance, hx], hg o x⟩

theorem keeps_subBalance (s : StateDB) (b : Address)
    (v : Int) (a : Address) : Keeps g s (s.subBalance b v) a := by
  rw [subBalance_eq_addBalance]
  exact keeps_addBalance hg s b (-v) a

theorem keeps_setBalance
    (h : s.getStateObject b = some o) (v : Int) (a : Address) : Keeps g s (s.setBalance b v) a := by
  refine keeps_put h ?_ (hg o v) a
  rw [world_setBalance v h]
  exact modify_of_some h _

end

theorem keeps_updateLossMark (hg : ∀ (o : StateObject) m, g { o with lossMarkAccount := m } = g o)
    (s : StateDB) (lastBits : UInt32) (flag : Bool) (a : Address) :
    Keeps g s (s.updateLossMark lastBits flag) a := by
  intro o ho
  obtain ⟨m, hm⟩ := updateLossMark_of_some (w := s.world) ho lastBits flag
  exact ⟨_, by rw [← world_apply, world_updateLossMark, hm], hg o m⟩

theorem keeps_setRegularLossState (hg : ∀ o t, g (setLossType o t) = g o) (s : StateDB)
    (b : Address) (flag : Bool) (a : Address) : Keeps g s (s.setRegularLossState b flag) a := by
  intro o ho
  obtain ⟨t, ht⟩ := setRegularLossState_of_some (w := s.world) ho b flag
  exact ⟨_, by rw [← world_apply, world_setRegularLossState, ht], hg o t⟩

theorem keeps_write {p : StateObject} (e : JournalEntry)
    (h : s.getStateObject b = some o) (hp : p.deleted = false) (hg : g p = g o) (a : Address) :
    Keeps g s ((s.append e).setStateObject b p) a :=
  keeps_put h (world_setStateObject _ b hp) hg a

/-- The accounts that need not come back once an operation has begun in `s`. -/
def orMissing (A : Set Address) (s : StateDB) : Set Address :=
  A ∪ {a | s.getStateObject a = none}

theorem Keeps.lossTypeKept {f : LossType → LossType}
    (h : Keeps (·.regularAccount.lossType) s t a) (hs : s.LossTypeKept A a f) :
    t.LossTypeKept (orMissing A s) a f := by
  cases ho : s.getStateObject a with
  | none => exact .inl (.inr ho)
  | some o =>
    refine hs.imp .inl fun hkept p hp => ?_
    obtain ⟨q, hq, hqo⟩ := h o ho
    rw [hp] at hq
    cases hq
    have hsame : p.regularAccount.lossType = o.regularAccount.lossType := hqo
    rw [hsame, hkept o ho]

theorem Keeps.suicideUndoable (h : Keeps (fun o => (o.accountType, o.suicided)) s t a)
    (hs : SuicideUndoable A s a) : SuicideUndoable (orMissing A s) t a := by
  intro p hp
  cases ho : s.getStateObject a with
  | none => exact .inl (.inr ho)
  | some o =>
    obtain ⟨q, hq, hqo⟩ := h o ho
    rw [hp] at hq
    cases hq
    obtain ⟨htype, hclosed⟩ := Prod.mk.inj hqo
    rw [htype, hclosed]
    exact (hs o ho).imp_left .inl

/-- What one closing leaves can still be closed. -/
theorem SuicideUndoable.suicide (hs : SuicideUndoable A s a)
    (h : s.suicide b = some t) : SuicideUndoable A t a := by
  have hworld : t.world = s.world.modify b markSuicided := by
    refine suicide_eq_modify ?_
    rw [← world_suicide, h, map_some]
  intro p hp
  rw [← world_apply, hworld] at hp
  by_cases hab : a = b
  · subst hab
    cases ho : s.world a with
    | none => rw [modify_of_none ho, ho] at hp; cases hp
    | some o =>
      rw [modify_of_some ho, put_self] at hp
      cases hp
      exact .inr (.inl rfl)
  · rw [modify_of_ne hab] at hp
    exact hs p hp

end

/-! ## 3. Each of them

An operation is a chain of `Changes`, and its condition is what the writes on a copy need.  That the
journal undoes it is then one induction for all (`Changes.undoes`). -/

/-- How an operation changes the database: by what the journal undoes, and by writes that are undone
on a copy.  The latter show in the votes only if `votes` says so. -/
inductive Changes (votes : Bool) : Set Address → StateDB → StateDB → Prop
  | refl {A} (s) : Changes votes A s s
  | trans {A s t u} : Changes votes A s t → Changes votes A t u → Changes votes A s u
  | of_missing {A s t} : Changes votes (orMissing A s) s t → Changes votes A s t
  | addBalance {A} (s a v) : Changes votes A s (s.addBalance a v)
  | setBalance {A s a o} (h : s.getStateObject a = some o) (v) :
    Changes votes A s (s.setBalance a v)
  | create {A} (s a t) : Changes votes A s (s.getOrCreateObject a t).1
  | replace {A} (s a t) {o} (ho : o.deleted = false) (hopen : o.suicided = false) :
    Changes votes A s ((s.createObjectByAccType a t).setStateObject a o)
  | updateLossMark {A} (s lastBits flag) : Changes votes A s (s.updateLossMark lastBits flag)
  | suicide {A s t a} (hA : SuicideUndoable A s a) (h : s.suicide a = some t) : Changes votes A s t
  | note {A s a o} {e : JournalEntry} (h : s.getStateObject a = some o) (he : e.dirtied = some a)
    (hrev : ∀ t, e.revert t = t.revertCopy a) : Changes votes A s (s.append e)
  | copy {A s a o p} {e : JournalEntry} (h : s.getStateObject a = some o) (hdel : p.deleted = false)
    (hp : a ∈ A ∨ p = o) (hvotes : votes = true ∨ p.voteRecord = o.voteRecord)
    (he : e.dirtied = some a) (hrev : ∀ t, e.revert t = t.revertCopy a) :
    Changes votes A s ((s.append e).setStateObject a p)
  | voteFor {A s a o prev v} (hvotes : votes = true) (h : s.getStateObject a = some o)
    (hprev : o.authorizeAccount.voteValue = some prev) : Changes votes A s
      ((s.append (.voteValueForAuthorizeChange a prev)).setStateObject a (o.setAuthorizeVote v))

variable {X : Externals} {votes : Bool} {A : Set Address} {s t : StateDB} {ctx : TxContext}
  {addr lostAddr benefitAddr : Address}

theorem Changes.subBalance (s : StateDB) (a : Address) (v : Int) :
    Changes votes A s (s.subBalance a v) := by
  rw [subBalance_eq_addBalance]
  exact .addBalance s a (-v)

theorem changes_setLossType {a : Address} {o : StateObject} {lossType : LossType}
    (h : s.getStateObject a = some o) (ha : a ∈ A ∨ lossType = o.regularAccount.lossType) :
    Changes votes A s ((s.append (.lossTypeChange a o.regularAccount.lossType)).setStateObject a
      (o.setLossType lossType)) := by
  refine .copy h (getStateObject_eq_some.mp h).2 (ha.imp_right fun heq => ?_)
    (.inr rfl) rfl fun _ => rfl
  rw [heq]
  rfl

theorem changes_setRegularLossState {a : Address} {flag : Bool}
    (ha : s.LossTypeKept A a (·.setState flag)) :
    Changes votes A s (s.setRegularLossState a flag) := by
  unfold setRegularLossState
  cases ho : s.getStateObject a with
  | none => exact .refl s
  | some o => exact changes_setLossType ho (ha.imp_right fun h => h o ho)

theorem changes_registerPns : Changes votes A s (s.registerPns X ctx) := by
  unfold registerPns
  exact (Changes.replace s _ .pns rfl rfl).trans (.subBalance _ _ _)

theorem changes_registerAuthorize : Changes votes A s (s.registerAuthorize X ctx) := by
  unfold registerAuthorize
  exact (Changes.replace s _ .authorize rfl rfl).trans (.subBalance _ _ _)

theorem changes_registerLose : Changes votes A s (s.registerLose X ctx) := by
  unfold registerLose
  exact ((Changes.replace s _ .loss rfl rfl).trans (.updateLossMark _ _ _)).trans
    (.subBalance _ _ _)

theorem changes_transfer (dest : Address) : Changes votes A s (s.transfer ctx dest) := by
  unfold transfer
  split
  · exact .refl s
  · exact (Changes.subBalance _ _ _).trans (Changes.addBalance _ _ _)

theorem changes_modifyLossType (hA : s.ModifyLossTypeUndoable A ctx)
    (h : s.modifyLossType ctx = some t) : Changes votes A s t := by
  unfold modifyLossType at h
  cases hd : decodeByte ctx.data with
  | none => rw [hd] at h; cases h; exact .refl s
  | some num =>
    rw [hd] at h
    cases h
    unfold setRegularLossType
    cases ho : s.getStateObject ctx.fromAddr with
    | none => exact .refl s
    | some o => exact changes_setLossType ho ((hA num hd).imp_right fun h => h o ho)

theorem changes_modifyPnsOwner (hA : s.ModifyPnsOwnerUndoable A ctx) :
    Changes votes A s (s.modifyPnsOwner ctx) := by
  unfold modifyPnsOwner
  cases hd : decodePnsOwner ctx.data with
  | none => exact .refl s
  | some d =>
    dsimp only
    cases ho : s.getStateObject d.pnsAddress with
    | none => exact .refl s
    | some o =>
      refine Changes.copy ho (getStateObject_eq_some.mp ho).2 ((hA d hd).imp_right fun h => ?_)
        (.inr rfl) rfl fun _ => rfl
      rw [← h o ho]

theorem changes_modifyPnsContent (hA : s.ModifyPnsContentUndoable A ctx) :
    Changes votes A s (s.modifyPnsContent ctx) := by
  unfold modifyPnsContent
  cases hd : decodePnsContent ctx.data with
  | none => exact .refl s
  | some d =>
    dsimp only
    cases ho : s.getStateObject d.pnsAddress with
    | none => exact .refl s
    | some o =>
      refine Changes.copy ho (getStateObject_eq_some.mp ho).2 ((hA d hd).imp_right fun h => ?_)
        (.inr rfl) rfl fun _ => rfl
      obtain ⟨htype, hdata⟩ := h o ho
      rw [← htype, ← hdata]

theorem addVote_zero {o : StateObject} {v : Int} (h : o.regularAccount.voteValue = some v) :
    o.addVote o.regularAccount.voteAccount (0 : Nat) = o := by
  simp only [addVote, setVote, h, getD_some, Nat.cast_zero, zero_add]
  rw [← h]

/-- The candidate's half of a vote is undone. -/
theorem changes_voteFor {value : Int} (h : (match s.getStateObject addr with
      | some o => do
        let prev ← o.authorizeAccount.voteValue
        return (s.append (.voteValueForAuthorizeChange addr prev)).setStateObject addr
          (o.setAuthorizeVote (prev + value))
      | none => some s) = some t) : Changes true A s t := by
  cases ho : s.getStateObject addr with
  | none => rw [ho] at h; cases h; exact .refl s
  | some o =>
    simp only [ho, bind_eq_bind, bind_eq_some_iff] at h
    obtain ⟨prev, hprev, ht⟩ := h
    cases ht
    exact .voteFor rfl ho hprev

theorem changes_vote (hA : s.VoteUndoable A ctx) (h : s.vote ctx = some t) :
    Changes true A s t := by
  unfold vote at h
  split at h
  · cases h; exact .refl s
  next addr hd =>
    refine Changes.of_missing ((Changes.subBalance s ctx.fromAddr ctx.value).trans ?_)
    generalize hs₁ : s.subBalance ctx.fromAddr ctx.value = s₁ at h ⊢
    cases ho₁ : s₁.getStateObject ctx.fromAddr with
    | none =>
      simp only [ho₁] at h
      exact changes_voteFor h
    | some o₁ =>
      simp only [ho₁] at h
      refine Changes.trans ?_ (changes_voteFor h)
      -- the sender's half is not
      refine Changes.copy ho₁ (getStateObject_eq_some.mp ho₁).2 ?_ (.inl rfl) rfl fun _ => rfl
      cases ho : s.getStateObject ctx.fromAddr with
      | none => exact .inl (.inr ho)
      | some o =>
        refine (hA addr hd).imp .inl fun hkept => ?_
        obtain ⟨haddr, hsome, hvalue⟩ := hkept o ho
        obtain ⟨v, hv⟩ := isSome_iff_exists.mp hsome
        obtain ⟨p, hp, hpo⟩ := keeps_subBalance (g := fun o =>
          (o.regularAccount.voteAccount, o.regularAccount.voteValue)) (by simp) s ctx.fromAddr
          ctx.value _ o ho
        rw [hs₁, ho₁] at hp
        cases hp
        obtain ⟨hp₁, hp₂⟩ := Prod.mk.inj hpo
        rw [hvalue, ← haddr, ← hp₁]
        exact addVote_zero (hp₂.trans hv)

theorem changes_cancellation (hA : s.CancellationUndoable A ctx)
    (h : s.cancellation ctx = some t) : Changes votes A s t := by
  unfold cancellation at h
  split at h
  · cases h; exact .refl s
  next d hd =>
    split at h
    · cases h; exact .refl s
    next =>
      refine Changes.of_missing ((Changes.addBalance s _ _).trans (Changes.suicide ?_ h))
      exact (keeps_addBalance (by simp) s _ _ _).suicideUndoable (hA d hd)

theorem changes_removeLossReport (hA : s.RemoveLossReportUndoable A ctx)
    (h : s.removeLossReport ctx = some t) : Changes votes A s t := by
  unfold removeLossReport at h
  split at h
  · cases h; exact .refl s
  next addr hd =>
    simp only [bind_eq_bind, bind_eq_some_iff] at h
    obtain ⟨loss, -, h⟩ := h
    refine Changes.of_missing
      (((Changes.updateLossMark s _ _).trans (Changes.addBalance _ _ _)).trans
      (Changes.suicide ?_ h))
    exact ((keeps_updateLossMark (fun _ _ => rfl) s _ _ _).trans
      (keeps_addBalance (by simp) _ _ _ _)).suicideUndoable (hA addr hd)

theorem changes_rejectLossReport (hA : s.RejectLossReportUndoable A ctx)
    (h : s.rejectLossReport ctx = some t) : Changes votes A s t := by
  unfold rejectLossReport at h
  split at h
  · cases h; exact .refl s
  next addr hd =>
    simp only [bind_eq_bind, bind_eq_some_iff] at h
    obtain ⟨loss, -, h⟩ := h
    obtain ⟨hclose, htype⟩ := hA addr hd
    have hmark := (keeps_updateLossMark (fun _ _ => rfl) s loss.lossAccount.lastBits false
      ctx.fromAddr).lossTypeKept htype
    refine Changes.of_missing ((((Changes.updateLossMark s _ _).trans
      (changes_setRegularLossState hmark)).trans (Changes.addBalance _ _ _)).trans
      (Changes.suicide ?_ h))
    exact (((keeps_updateLossMark (fun _ _ => rfl) s _ _ _).trans
      (keeps_setRegularLossState (fun _ _ => rfl) _ _ _ _)).trans
      (keeps_addBalance (by simp) _ _ _ _)).suicideUndoable hclose

theorem changes_cancellationLoss (hA : s.CancellationLossUndoable A ctx)
    (h : s.cancellationLoss ctx = some t) : Changes votes A s t := by
  unfold cancellationLoss at h
  split at h
  · cases h; exact .refl s
  next addr hd =>
    simp only [bind_eq_bind, bind_eq_some_iff] at h
    obtain ⟨loss, hloss, h⟩ := h
    split at h
    · cases h; exact .refl s
    next =>
      simp only [bind_eq_some_iff] at h
      obtain ⟨u, hu, h⟩ := h
      obtain ⟨hreport, hlost⟩ := hA addr hd loss hloss
      have hpaid {a : Address} (ha : SuicideUndoable A s a) :=
        (keeps_addBalance (by simp) s loss.lossAccount.newAccount
          (AccountType.loss.pledge + AccountType.regular.pledge) a).suicideUndoable ha
      exact Changes.of_missing
        (((Changes.addBalance s _ _).trans (Changes.suicide (hpaid hreport) hu)).trans
        (Changes.suicide ((hpaid hlost).suicide hu) h))

theorem changes_revealLossReport (hA : s.RevealLossReportUndoable A ctx)
    (h : s.revealLossReport ctx = some t) : Changes votes A s t := by
  unfold revealLossReport at h
  split at h
  · cases h; exact .refl s
  next d hd =>
    simp only [bind_eq_bind, bind_eq_some_iff] at h
    obtain ⟨loss, hloss, height, -, ht⟩ := h
    cases ht
    obtain ⟨hreveal, htype⟩ := hA d hd
    have hdel := (getStateObject_eq_some.mp hloss).2
    have hreported (e : JournalEntry) := ((keeps_write (p := revealed ctx loss d) e hloss hdel rfl
      d.oldAccount).trans
      (keeps_updateLossMark (fun _ _ => rfl) _ loss.lossAccount.lastBits false
        d.oldAccount)).lossTypeKept htype
    exact Changes.of_missing (((((Changes.copy (p := revealed ctx loss d) hloss hdel
      (hreveal.imp .inl fun h => h loss hloss) (.inr rfl) rfl fun _ => rfl).trans
      (Changes.updateLossMark _ _ _)).trans (changes_setRegularLossState (hreported _))).trans
      (Changes.subBalance _ _ _)).trans (Changes.addBalance _ _ _))

/-- Either no votes move, or both accounts are written. -/
theorem transferLostVotes_cases (h : s.transferLostVotes lostAddr benefitAddr = some t) :
    t = s ∨ ∃ lost benefit lostVote benefitVote, s.getStateObject lostAddr = some lost ∧
      s.getStateObject benefitAddr = some benefit ∧ votesMove lost benefit = some true ∧
      t = (((s.append (.lostAccountVoteChange benefitAddr benefit.regularAccount.voteAccount
        benefitVote)).setStateObject benefitAddr
        (benefit.setVote lost.regularAccount.voteAccount lostVote)).append
        (.lostAccountVoteChange lostAddr lost.regularAccount.voteAccount lostVote)).setStateObject
        lostAddr (lost.setVote 0 0) := by
  unfold transferLostVotes at h
  cases hl : s.getStateObject lostAddr with
  | none => rw [hl] at h; cases h; exact .inl rfl
  | some lost =>
    cases hb : s.getStateObject benefitAddr with
    | none => rw [hl, hb] at h; cases h; exact .inl rfl
    | some benefit =>
      simp only [hl, hb, bind_eq_bind, bind_eq_some_iff] at h
      obtain ⟨lostVote, hlostVote, h⟩ := h
      split at h
      next hcond =>
        obtain ⟨benefitVote, hbenefitVote, h⟩ := bind_eq_some_iff.mp h
        split at h
        next hless =>
          cases h
          refine .inr ⟨lost, benefit, lostVote, benefitVote, rfl, rfl, ?_, rfl⟩
          rw [votesMove, hlostVote]
          dsimp only
          rw [if_pos hcond, hbenefitVote, map_some, decide_eq_true hless]
        · cases h; exact .inl rfl
      · cases h; exact .inl rfl

section
variable (hA : ∀ lost, s.getStateObject lostAddr = some lost →
    ∀ benefit, s.getStateObject benefitAddr = some benefit →
    votesMove lost benefit = some true → lostAddr ∈ A ∧ benefitAddr ∈ A)
include hA

/-- Moving votes changes the two accounts for good. -/
theorem changes_transferLostVotes (h : s.transferLostVotes lostAddr benefitAddr = some t) :
    Changes true A s t ∧ ∀ a, Keeps (·.lossAccount) s t a := by
  rcases transferLostVotes_cases h with
    rfl | ⟨lost, benefit, lostVote, benefitVote, hl, hb, hmove, rfl⟩
  · exact ⟨.refl t, fun _ o ho => ⟨o, ho, rfl⟩⟩
  · obtain ⟨hlost, hbenefit⟩ := hA lost hl benefit hb hmove
    have hdel (a : Address) (v : Int) : (benefit.setVote a v).deleted = false :=
      (getStateObject_eq_some.mp hb).2
    have hdel' (a : Address) (v : Int) : (lost.setVote a v).deleted = false :=
      (getStateObject_eq_some.mp hl).2
    have hkeeps := keeps_write (g := (·.lossAccount)) (.lostAccountVoteChange benefitAddr
      benefit.regularAccount.voteAccount benefitVote) hb
      (hdel lost.regularAccount.voteAccount lostVote) rfl
    -- the lost account, as it is after the write to the beneficiary
    obtain ⟨p, hp, hpl⟩ := hkeeps lostAddr lost hl
    constructor
    · exact (Changes.copy hb (hdel _ _) (.inl hbenefit) (.inl rfl) rfl fun _ => rfl).trans
        (Changes.copy hp (hdel' _ _) (.inl hlost) (.inl rfl) rfl fun _ => rfl)
    · exact fun a => (hkeeps a).trans (keeps_write _ hp (hdel' _ _) hpl.symm a)

theorem changes_transferLostAssets (h : s.transferLostAssets lostAddr benefitAddr = some t) :
    Changes true A s t ∧ ∀ a, Keeps (·.lossAccount) s t a := by
  unfold transferLostAssets at h
  cases hl : s.getStateObject lostAddr with
  | none => rw [hl] at h; cases h; exact ⟨.refl s, fun _ o ho => ⟨o, ho, rfl⟩⟩
  | some lost =>
    cases hb : s.getStateObject benefitAddr with
    | none => rw [hl, hb] at h; cases h; exact ⟨.refl s, fun _ o ho => ⟨o, ho, rfl⟩⟩
    | some benefit =>
      simp only [hl, hb] at h
      split at h
      · -- the balance moves first, which changes nothing of the votes
        obtain ⟨p, hp, -⟩ :=
          keeps_addBalance (g := (·.accountType)) (by simp) s benefitAddr lost.balance _ lost hl
        have hmoved {β : Type} {g : StateObject → β} (hg : ∀ o v, g (o.setBalance v) = g o) :
            ∀ a, Keeps g s ((s.addBalance benefitAddr lost.balance).setBalance lostAddr 0) a :=
          fun a => (keeps_addBalance hg s _ _ a).trans (keeps_setBalance hg hp 0 a)
        obtain ⟨lost', hl', hlv⟩ := hmoved (g := fun o =>
          (o.regularAccount.voteAccount, o.regularAccount.voteValue)) (by simp) _ lost hl
        obtain ⟨benefit', hb', hbv⟩ := hmoved (g := (·.regularAccount.voteValue)) (by simp) _
          benefit hb
        obtain ⟨hu, hk⟩ := changes_transferLostVotes (A := A) (fun l hl₁ b hb₁ hmove => by
          rw [hl'] at hl₁
          rw [hb'] at hb₁
          cases hl₁
          cases hb₁
          refine hA lost hl benefit hb (hmove ▸ ?_)
          obtain ⟨h₁, h₂⟩ := Prod.mk.inj hlv
          have h₃ : benefit'.regularAccount.voteValue = benefit.regularAccount.voteValue := hbv
          rw [votesMove, votesMove, h₁, h₂, h₃]) h
        exact ⟨((Changes.addBalance s _ _).trans (Changes.setBalance hp 0)).trans hu,
          fun a => (hmoved (by simp) a).trans (hk a)⟩
      · exact changes_transferLostVotes hA h

end

theorem changes_transferLostAccount (hA : s.TransferLostAccountUndoable A ctx)
    (h : s.transferLostAccount ctx = some t) : Changes true A s t := by
  unfold transferLostAccount at h
  split at h
  · cases h; exact .refl s
  next addr hd =>
    split at h
    · cases h; exact .refl s
    next loss hloss =>
      obtain ⟨u, hu, rfl⟩ := map_eq_some_iff.mp h
      have hstate := hA.1 addr hd loss hloss
      obtain ⟨hundo, hkeeps⟩ := changes_transferLostAssets (hA.2 addr hd loss hloss) hu
      obtain ⟨p, hp, hpo⟩ := hkeeps addr loss hloss
      have hpo : p.lossAccount = loss.lossAccount := hpo
      refine hundo.trans ?_
      rw [modifyObject, show (u.append _).getStateObject addr = some p from hp]
      refine Changes.copy hp (getStateObject_eq_some.mp hp).2 (hstate.imp_right fun h => ?_)
        (.inr rfl) rfl fun _ => rfl
      rw [setLossState, ← h, ← hpo]

theorem changes_transferLostAssociatedAccount {op : Operation}
    (hA : s.TransferLostAssociatedAccountUndoable A ctx op) :
    Changes votes A s (s.transferLostAssociatedAccount ctx op) := by
  unfold transferLostAssociatedAccount
  cases hd : decodeAssociatedAccount ctx.data with
  | none => exact .refl s
  | some d =>
    dsimp only
    cases hloss : s.getStateObject d.lossAccount with
    | none => exact .refl s
    | some loss =>
      dsimp only
      split
      next o _ _ ho =>
        have hdel := (getStateObject_eq_some.mp ho).2
        have howner := hA d hd loss hloss o ho
        cases op with
        | transferLostAccountPns =>
          refine Changes.copy ho hdel (howner.imp_right fun h => ?_) (.inr rfl) rfl fun _ => rfl
          rw [← h]
        | transferLostAccountAuthorize =>
          refine Changes.copy ho hdel (howner.imp_right fun h => ?_) (.inr rfl) rfl fun _ => rfl
          rw [← h]
        | _ => exact .refl s
      · exact .refl s

/-- Striking off a pledge or a vote of zero changes nothing. -/
theorem changes_redemptionForAuthorize {voteValue : Option Int}
    (hA : addr ∈ A ∨ ∀ o, s.getStateObject addr = some o →
      voteValue.elim (o.authorizeAccount.pledgeValue = some 0) (· = 0))
    (h : s.redemptionForAuthorize addr voteValue = some t) :
    Changes true A s t ∧ ∀ a, Keeps (·.regularAccount) s t a := by
  unfold redemptionForAuthorize at h
  split at h
  · cases h; exact ⟨.refl s, fun _ o ho => ⟨o, ho, rfl⟩⟩
  next o ho =>
    simp only [bind_eq_bind, bind_eq_some_iff] at h
    obtain ⟨pledge, hpledge, vote, hvote, h⟩ := h
    have hdel := (getStateObject_eq_some.mp ho).2
    cases voteValue with
    | none =>
      cases h
      have hdel : (o.setStake 0 (vote - pledge)).deleted = false := hdel
      refine ⟨Changes.copy ho hdel (hA.imp_right fun h => ?_) (.inl rfl) rfl fun _ => rfl,
        keeps_write _ ho hdel rfl⟩
      obtain rfl : pledge = 0 := some.inj (hpledge.symm.trans (h o ho))
      rw [setStake, Int.sub_zero, ← hvote, ← hpledge]
    | some v =>
      cases h
      have hdel : (o.setAuthorizeVote (vote - v)).deleted = false := hdel
      refine ⟨Changes.copy ho hdel (hA.imp_right fun h => ?_) (.inl rfl) rfl fun _ => rfl,
        keeps_write _ ho hdel rfl⟩
      obtain rfl : v = 0 := h o ho
      rw [setAuthorizeVote, Int.sub_zero, ← hvote]

/-- The sender's votes are taken back for good. -/
theorem changes_redeemVotes
    (hA : ∀ o, s.getStateObject ctx.fromAddr = some o → addr = o.regularAccount.voteAccount →
      (ctx.fromAddr ∈ A ∨ addr = 0 ∧ o.regularAccount.voteValue = some 0) ∧
      (addr ∈ A ∨ o.regularAccount.voteValue = some 0))
    (h : s.redeemVotes ctx addr = some t) : Changes true A s t := by
  obtain ⟨o, ho, h⟩ := bind_eq_some_iff.mp h
  split at h
  next haddr =>
    obtain ⟨voteValue, hvote, h⟩ := bind_eq_some_iff.mp h
    obtain ⟨value, hvalue, h⟩ := bind_eq_some_iff.mp h
    obtain ⟨hfrom, hcandidate⟩ := hA o ho haddr
    have hdel : ((o.setBalance (value + voteValue)).setVote 0 0).deleted = false := by
      rw [setVote_deleted, setBalance_deleted, (getStateObject_eq_some.mp ho).2]
    refine Changes.trans (Changes.copy ho hdel (hfrom.imp_right ?_) (.inl rfl) rfl fun _ => rfl)
      (changes_redemptionForAuthorize (hcandidate.imp_right fun h _ _ => ?_) h).1
    · rintro ⟨hzero, hnone⟩
      obtain rfl : voteValue = 0 := some.inj (hvote.symm.trans hnone)
      unfold regularValue at hvalue
      split at hvalue
      next htype =>
        obtain rfl := some.inj hvalue
        rw [Int.add_zero, StateObject.setBalance, htype, setVote]
        dsimp only
        rw [← htype, ← hvote, ← hzero, haddr]
      · cases hvalue
    · exact some.inj (hvote.symm.trans h)
  · cases h
    exact .refl s

theorem changes_redemption (hA : s.RedemptionUndoable A ctx) (h : s.redemption ctx = some t) :
    Changes true A s t := by
  unfold redemption at h
  split at h
  · cases h; exact .refl s
  next addr hd =>
    split at h
    next o c ho hc =>
      obtain ⟨howner, hvoter⟩ := hA addr hd o ho c hc
      obtain ⟨u, hu, h⟩ := bind_eq_some_iff.mp h
      have hfirst : Changes true A s u ∧ ∀ a, Keeps (·.regularAccount) s u a := by
        split at hu
        next hown =>
          refine changes_redemptionForAuthorize ((howner hown).imp_right fun h c' hc' => ?_) hu
          rw [hc] at hc'
          cases hc'
          exact h
        · cases hu
          exact ⟨.refl s, fun _ o ho => ⟨o, ho, rfl⟩⟩
      refine hfirst.1.trans (changes_redeemVotes (fun p hp => ?_) h)
      obtain ⟨q, hq, hqo⟩ := hfirst.2 _ o ho
      rw [hp] at hq
      cases hq
      have hsame : p.regularAccount = o.regularAccount := hqo
      rwa [hsame]
    · cases h
      exact .refl s

theorem changes_applyToBeDPoSNode (hA : s.ApplyToBeDPoSNodeUndoable X A ctx)
    (h : s.applyToBeDPoSNode X ctx = some t) : Changes votes A s t := by
  unfold applyToBeDPoSNode at h
  split at h
  · cases h; exact .refl s
  next d hd =>
    split at h
    · cases h; exact .refl s
    next o ho =>
      simp only [bind_eq_bind, bind_eq_some_iff] at h
      obtain ⟨voteValue, hvote, number, hnumber, roundId, hround, h⟩ := h
      cases h
      refine Changes.of_missing ((Changes.note (e := .dPosCandidateForAuthorizeChange
        d.voteAddress o.authorizeAccount.info voteValue) ho rfl fun _ => rfl).trans
        ((Changes.create _ specialAddressForDPoS .dpos).trans ?_))
      have hlist := getStateObject_getOrCreateObject (s.append (.dPosCandidateForAuthorizeChange
        d.voteAddress o.authorizeAccount.info voteValue)) specialAddressForDPoS .dpos
      refine Changes.copy hlist (getStateObject_eq_some.mp hlist).2 ?_ (.inr rfl) rfl fun _ => rfl
      cases hdpos : s.getStateObject specialAddressForDPoS with
      | none => exact .inl (.inr hdpos)
      | some list =>
        refine (hA d hd o ho).imp .inl fun h => ?_
        have hold : ((s.append (.dPosCandidateForAuthorizeChange d.voteAddress
            o.authorizeAccount.info voteValue)).getOrCreateObject specialAddressForDPoS .dpos).2 =
            list := by
          rw [getOrCreateObject_snd, world_append, world_apply, hdpos, getD_some]
        rw [hold]
        exact h list hdpos voteValue hvote number hnumber roundId hround

theorem changes_callDB
    (hvotes : votes = true ∨ ∀ dest ∈ ctx.toAddr, (operationOf dest).movesVotes = false)
    (hA : s.CallUndoable X A ctx) (h : callDB X s ctx = some t) : Changes votes A s t := by
  unfold callDB at h
  unfold CallUndoable at hA
  cases hto : ctx.toAddr with
  | none => rw [hto] at h; cases h; exact .refl s
  | some dest =>
    rw [hto] at h hA
    dsimp only at h hA
    have hvotes := hvotes.imp_right fun hnone => hnone dest hto
    cases hop : operationOf dest <;> rw [hop] at h hA hvotes <;> dsimp only at h hA
    case registerPns => cases h; exact changes_registerPns
    case registerAuthorize => cases h; exact changes_registerAuthorize
    case registerLose => cases h; exact changes_registerLose
    case cancellation => exact changes_cancellation hA h
    case vote =>
      obtain rfl := hvotes.resolve_right nofun
      exact changes_vote hA h
    case applyToBeDPoSNode => exact changes_applyToBeDPoSNode hA h
    case redemption =>
      obtain rfl := hvotes.resolve_right nofun
      exact changes_redemption hA h
    case cancellationLostAccount => exact changes_cancellationLoss hA h
    case revealLossReport => exact changes_revealLossReport hA h
    case transferLostAccountBalance =>
      obtain rfl := hvotes.resolve_right nofun
      exact changes_transferLostAccount hA h
    case removeLossReport => exact changes_removeLossReport hA h
    case rejectLossReport => exact changes_rejectLossReport hA h
    case modifyPnsOwner => cases h; exact changes_modifyPnsOwner hA
    case modifyPnsContent => cases h; exact changes_modifyPnsContent hA
    case modifyLossType => exact changes_modifyLossType hA h
    case transferLostAccountPns => cases h; exact changes_transferLostAssociatedAccount hA
    case transferLostAccountAuthorize => cases h; exact changes_transferLostAssociatedAccount hA
    case transfer => cases h; exact changes_transfer dest

theorem Changes.undoes (h : Changes votes A s t) : Undoes A s t := by
  induction h with
  | refl s => exact .refl _ s
  | trans _ _ ih ih' => exact ih.trans ih'
  | of_missing _ ih => exact ih.of_missing
  | addBalance s a v => exact undoes_addBalance s a v
  | setBalance _ v => exact undoes_setBalance _ _ v
  | create s a t => exact undoes_getOrCreateObject s a t
  | replace s a t ho _ => exact undoes_replace s a t ho
  | updateLossMark s lastBits flag => exact undoes_updateLossMark s lastBits flag
  | suicide hA h => exact undoes_suicide hA h
  | note h _ hrev => exact undoes_append_copy h hrev
  | copy h hdel hp _ _ hrev => exact undoes_copy h hdel hp hrev
  | voteFor _ h hprev =>
    have hdel (v : Int) : (StateObject.setAuthorizeVote _ v).deleted = false :=
      (getStateObject_eq_some.mp h).2
    refine undoes_write h ?_
    rw [JournalEntry.revert, revertObject_setStateObject (hdel _)]
    simp [setAuthorizeVote, ← hprev]

/-- **A call is undone when its condition holds.** -/
theorem undoes_callDB (hA : s.CallUndoable X A ctx) (h : callDB X s ctx = some t) : Undoes A s t :=
  (changes_callDB (.inl rfl) hA h).undoes

/-- If no account has to come back, every call is undone. -/
theorem callUndoable_univ (X : Externals) (s : StateDB) (ctx : TxContext) :
    s.CallUndoable X Set.univ ctx := by
  have hclose (a : Address) : SuicideUndoable Set.univ s a := fun _ _ => .inl trivial
  have htype (a : Address) (f : LossType → LossType) : s.LossTypeKept Set.univ a f := .inl trivial
  have howner (op : Operation) : s.TransferLostAssociatedAccountUndoable Set.univ ctx op :=
    fun _ _ _ _ _ _ => .inl trivial
  rw [CallUndoable]
  split
  · trivial
  · split
    · exact fun d _ => hclose d.cancelAddress
    · exact fun _ _ => .inl trivial
    · exact fun _ _ _ _ => .inl trivial
    · exact fun _ _ _ _ _ _ => ⟨fun _ => .inl trivial, fun _ => ⟨.inl trivial, .inl trivial⟩⟩
    · exact fun addr _ loss _ => ⟨hclose addr, hclose loss.lossAccount.lostAccount⟩
    · exact fun d _ => ⟨.inl trivial, htype d.oldAccount _⟩
    · exact ⟨fun _ _ _ _ => .inl trivial, fun _ _ _ _ _ _ _ _ _ => ⟨trivial, trivial⟩⟩
    · exact fun addr _ => hclose addr
    · exact fun addr _ => ⟨hclose addr, htype ctx.fromAddr _⟩
    · exact fun _ _ => .inl trivial
    · exact fun _ _ => .inl trivial
    · exact fun num _ => htype ctx.fromAddr _
    · exact howner _
    · exact howner _
    · trivial

end StateDB

end ProbeChain
