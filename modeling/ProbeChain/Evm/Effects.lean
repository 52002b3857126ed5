/-
# What single actions do to the accounts

The actions of the virtual machine on a `World`, as `State/World.lean` has it for the business
operations: without journal and snapshots.  `world_actionStep` connects the two, for the uses of the
database that there are; `permits_emitted` says which of these programs of the machine make.

Of the journal only this is needed here: an action adds to it, so that what was dirty stays dirty
until it is taken back.
-/
import ProbeChain.Evm.Trace

namespace ProbeChain

open Scope StateObject Option StateDB

/-! ## 1. The world -/

namespace World

/-- `SetNonce`: a missing account is created for it. -/
def setNonce (w : World) (a : Address) (n : UInt64) : World :=
  w.put a (((w a).getD (new .regular)).setNonce n)

def setCode (w : World) (a : Address) (codeHash : Hash) (code : Bytes) : World :=
  w.put a (((w a).getD (new .regular)).setCode codeHash code)

def setState (w : World) (a : Address) (key value : Hash) : World :=
  w.put a (((w a).getD (new .regular)).setState key value)

/-- `CreateContractAccount`: of what was there only the balance stays. -/
def openContract (w : World) (a : Address) : World :=
  w.put a ((new .contract).setBalance (w.balanceAt a))

def opSuicide (w : World) (self beneficiary : Address) : Option World :=
  (w.credit beneficiary (w.balanceAt self)).suicide self

/-- The uses of the database that the machine makes. -/
def act (X : Externals) (w : World) : Action → Option World
  | .op (.addBalance a v) => some (w.credit a v)
  | .op (.subBalance a v) => some (w.credit a (-v))
  | .op (.setNonce a n) => some (w.setNonce a n)
  | .op (.setCode a codeHash code) => some (w.setCode a codeHash code)
  | .op (.setState a key value) => some (w.setState a key value)
  | .op (.createContractAccount a) => some (w.openContract a)
  | .op (.addLog _) => some w
  | .op (.addRefund _) => some w
  | .op (.subRefund _) => some w
  | .hook _ _ _ ctx => w.callDB X ctx
  | .selfdestruct self beneficiary => w.opSuicide self beneficiary
  | _ => none

end World

namespace StateObject

variable (o : StateObject) (n : UInt64)

@[simp] theorem setNonce_deleted : (o.setNonce n).deleted = o.deleted := by
  unfold setNonce; split <;> rfl

@[simp] theorem setNonce_suicided : (o.setNonce n).suicided = o.suicided := by
  unfold setNonce; split <;> rfl

@[simp] theorem setNonce_storage : (o.setNonce n).storage = o.storage := by
  unfold setNonce; split <;> rfl

theorem setNonce_of_not_holds {o : StateObject} (h : o.accountType.holdsBalance = false)
    (n : UInt64) :
    o.setNonce n = o := by
  unfold setNonce
  split
  · rename_i ht; rw [ht] at h; cases h
  · rename_i ht; rw [ht] at h; cases h
  · rfl

theorem balance_setNonce (o : StateObject) (n : UInt64) : (o.setNonce n).balance = o.balance := by
  unfold setNonce
  split
  · rename_i ht; simp only [balance, ht]
  · rename_i ht; simp only [balance, ht]
  · rfl

end StateObject

theorem World.balanceAt_setNonce (w : World) (a b : Address) (n : UInt64) :
    (w.setNonce a n).balanceAt b = w.balanceAt b := by
  unfold balanceAt setNonce
  by_cases hb : b = a
  · subst hb
    rw [put_self, elim_some, balance_setNonce]
    cases w b with
    | none => rfl
    | some o => rfl
  · rw [put_of_ne _ _ hb]

namespace StateDB

variable (s : StateDB) (a : Address)

theorem world_getOrNewStateObject :
    (s.getOrNewStateObject a).1.world = s.world.put a ((s.world a).getD (new .regular)) :=
  world_getOrCreateObject s a .regular

theorem getOrNewStateObject_snd : (s.getOrNewStateObject a).2 = (s.world a).getD (new .regular) :=
  getOrCreateObject_snd s a .regular

theorem world_setNonce (n : UInt64) : (s.setNonce a n).world = s.world.setNonce a n := by
  unfold setNonce World.setNonce
  dsimp only
  split
  · exact world_writeOrCreate s a .regular (f := (·.setNonce n)) rfl fun o => setNonce_deleted o n
  next hholds =>
    rw [world_getOrNewStateObject, ← getOrNewStateObject_snd,
      setNonce_of_not_holds (by simpa using hholds)]

theorem world_setCode (codeHash : Hash) (code : Bytes) :
    (s.setCode a codeHash code).world = s.world.setCode a codeHash code :=
  world_writeOrCreate s a .regular (f := (·.setCode codeHash code)) rfl fun _ => rfl

theorem world_setState (key value : Hash) :
    (s.setState a key value).world = s.world.setState a key value := by
  unfold setState World.setState
  dsimp only
  split
  next hsame =>
    -- nothing is written, and writing would change nothing
    rw [world_getOrNewStateObject, ← getOrNewStateObject_snd, StateObject.setState, ← hsame,
      Function.update_eq_self]
  · exact world_writeOrCreate s a .regular (f := (·.setState key value)) rfl fun _ => rfl

theorem world_createContractAccount (s : StateDB) (a : Address) :
    (s.createContractAccount a).world = s.world.openContract a := by
  unfold createContractAccount World.openContract World.balanceAt
  rw [world_apply]
  cases s.getStateObject a with
  | none => exact world_createObjectByAccType s a .contract
  | some prev =>
    rw [world_setStateObject _ _ (by simp), world_createObjectByAccType, World.put_put]
    rfl

theorem getBalance_eq (s : StateDB) (a : Address) : s.getBalance a = s.world.balanceAt a := rfl

theorem world_opSuicide {s t : StateDB} {self beneficiary : Address}
    (h : s.opSuicide self beneficiary = some t) :
    s.world.opSuicide self beneficiary = some t.world := by
  have hsuicide := world_suicide (s.addBalance beneficiary (s.getBalance self)) self
  rw [show (s.addBalance beneficiary (s.getBalance self)).suicide self = some t from h, map_some,
    world_addBalance] at hsuicide
  exact hsuicide.symm

end StateDB

/-! ## 2. The actions of the machine -/

/-- The uses of the database that the machine makes.  The others belong to the business operations
and to scopes. -/
def Action.Direct : Action → Prop
  | .op (.call _) => False
  | .op (.setBalance _ _) => False
  | .op (.suicide _) => False
  | .op (.createAccount _) => False
  | .op .snapshot => False
  | .op (.revertToSnapshot _) => False
  | _ => True

/-- The actions that programs of the machine take. -/
def Action.Emitted : Action → Prop
  | .op (.addBalance _ v) => v = 0
  | .op (.subBalance _ v) => v = AccountType.contract.pledge
  | .op (.call _) => False
  | .op (.setBalance _ _) => False
  | .op (.suicide _) => False
  | .op (.createAccount _) => False
  | .op .snapshot => False
  | .op (.revertToSnapshot _) => False
  | _ => True

theorem Action.Emitted.direct {a : Action} (h : a.Emitted) : a.Direct := by
  cases a with
  | hook caller dest value ctx => trivial
  | selfdestruct self beneficiary => trivial
  | op o =>
    cases o with
    | addBalance a v => trivial
    | subBalance a v => trivial
    | _ => exact h

theorem Evm.permits_emitted (E : Env) (readOnly : Bool) :
    Permits E (fun _ => True) (fun _ => Action.Emitted) readOnly where
  hook _ _ _ _ _ _ := ⟨trivial, fun _ => trivial⟩
  precompile _ _ := trivial
  touch _ _ := rfl
  write _ :=
    ⟨fun _ _ _ _ _ => ⟨trivial, fun _ => trivial⟩, fun _ _ _ _ => trivial, fun _ _ => trivial,
      fun _ _ => trivial, fun _ _ => trivial, fun _ _ _ => trivial, fun _ _ => trivial,
    fun _ _ _ _ => trivial, fun _ _ => rfl⟩

/-- Whatever code does, its actions are of these. -/
theorem Evm.emitted_invokeCode {E : Env} {i : Invoke} {code : Code} {caller : Address} {depth : Nat}
    {m : Machine} {r : Result Outcome}
    (h : (invokeCode E i code caller depth false).run m = some r) :
    r.trace.Each (evmStore E.X) (fun _ => Action.Emitted) m.db := by
  refine ((permits_emitted E false).invoke (fun h => Bool.false_ne_true h.1)
    (fun a d b _ => ?_) caller
    depth m.db m.ctx r trivial h).2
  exact emits_exec code (permits_emitted E b) a d

section
variable {X : Externals} {s t : StateDB} {a : Action}

variable (ha : a.Direct) (h : actionStep X s a = some t)
include ha h

/-- **On the accounts an action does what it does on the world.** -/
theorem world_actionStep : s.world.act X a = some t.world := by
  cases a with
  | hook caller dest value ctx => exact world_callDB h
  | selfdestruct self beneficiary => exact world_opSuicide h
  | op o =>
    cases o with
    | addBalance a v => exact some.inj h ▸ congrArg some (world_addBalance s a v).symm
    | subBalance a v => exact some.inj h ▸ congrArg some (world_subBalance s a v).symm
    | setNonce a n => exact some.inj h ▸ congrArg some (world_setNonce s a n).symm
    | setCode a codeHash code =>
      exact some.inj h ▸ congrArg some (world_setCode s a codeHash code).symm
    | setState a key value =>
      exact some.inj h ▸ congrArg some (world_setState s a key value).symm
    | createContractAccount a =>
      exact some.inj h ▸ congrArg some (world_createContractAccount s a).symm
    | addLog log => exact some.inj h ▸ rfl
    | addRefund gas => exact some.inj h ▸ rfl
    | subRefund gas =>
      change s.subRefund gas = some t at h
      unfold subRefund at h
      split at h
      · cases h
      · exact some.inj h ▸ rfl
    | _ => exact ha.elim

/-! ## 3. The journal -/

/-- An action adds to the journal. -/
theorem journal_actionStep : ∃ es, t.journal = es ++ s.journal := by
  have hundoes : StateDB.Undoes Set.univ s t := by
    cases a with
    | hook caller dest value ctx => exact undoes_callDB (callUndoable_univ X s ctx) h
    | selfdestruct self beneficiary =>
      exact undoes_selfdestruct (fun _ _ => .inl (Set.mem_univ _)) h
    | op o =>
      refine undoes_dbStep 0 ?_ (fun ho => ?_) (fun id ho => ?_) h
      · cases o with
        | call ctx => exact ha.elim
        | suicide a => exact ha.elim
        | revertToSnapshot id => exact ha.elim
        | _ => trivial
      · subst ho
        exact ha
      · subst ho
        exact ha
  obtain ⟨es, -, hlog, -⟩ := hundoes
  exact ⟨es, hlog⟩

/-- What is dirty stays dirty. -/
theorem dirties_actionStep {b : Address} (hb : b ∈ s.dirties) : b ∈ t.dirties := by
  obtain ⟨es, hes⟩ := journal_actionStep ha h
  rw [dirties, hes, List.filterMap_append]
  exact List.mem_append_right _ hb

end

end ProbeChain
