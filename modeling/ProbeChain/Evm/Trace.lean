/-
# What programs of the virtual machine leave behind

Rules for the programs of `Machine.lean`, in two directions.

A program can be read from its text.  `Emits I Q p` says that `p` keeps `I` of the transaction
context and that everything it does to the database has the property `Q` where it is done;
`emits_exec` derives it for every contract from what a single instruction may do.

A program can be read from its notes.  `goesBack` says that a scope in which everything can be
undone leads back, when it is abandoned, to exactly the accounts there were when it was opened; with
it `Scope.Trace.run_rel` carries a property of single actions over to any tree of calls.
-/
import ProbeChain.Evm.Machine

namespace ProbeChain

open Scope Option

/-! ## 1. Reading a run -/

namespace Evm

variable {X : Externals} {α β : Type} {m : Machine} {p : Evm X α} {r : Result α}

theorem bind_eq_some {f : α → Evm X β} {r : Result β} :
    (p >>= f).run m = some r ↔ ∃ r₁ r₂, p.run m = some r₁ ∧ (f r₁.value).run r₁.machine = some r₂ ∧
      r = ⟨r₂.value, r₂.machine, r₁.trace.append r₂.trace⟩ := by
  show (p.run m).bind _ = some r ↔ _
  simp only [bind_eq_some_iff, map_eq_some_iff]
  constructor
  · rintro ⟨r₁, h₁, r₂, h₂, rfl⟩
    exact ⟨r₁, r₂, h₁, h₂, rfl⟩
  · rintro ⟨r₁, r₂, h₁, h₂, rfl⟩
    exact ⟨r₁, h₁, r₂, h₂, rfl⟩

theorem getDb_bind_eq_some {f : StateDB → Evm X β} {r : Result β} :
    (getDb >>= f).run m = some r ↔ (f m.db).run m = some r := by
  show Option.map _ _ = some r ↔ _
  cases (f m.db).run m with
  | none => rfl
  | some r => rfl

theorem pure_eq_some {a : α} : (pure a : Evm X α).run m = some r ↔ r = ⟨a, m, .nil⟩ :=
  ⟨fun h => (some.inj h).symm, fun h => h ▸ rfl⟩

theorem act_eq_some {a : Action} {r : Result Unit} :
    (act a : Evm X Unit).run m = some r ↔
      ∃ db, actionStep X m.db a = some db ∧ r = ⟨(), { m with db := db }, .act a .nil⟩ := by
  show Option.map _ _ = some r ↔ _
  rw [map_eq_some_iff]
  exact exists_congr fun db => and_congr_right fun _ => eq_comm

theorem withSnapshot_eq_some {abandoned : α → Bool} :
    (withSnapshot abandoned p).run m = some r ↔
      ∃ r₁ db, p.run { m with db := m.db.snapshot.1 } = some r₁ ∧
        (evmStore X).leave (abandoned r₁.value) m.db r₁.machine.db = some db ∧
        r =
          ⟨r₁.value, { r₁.machine with db := db }, .scope r₁.trace (abandoned r₁.value) .nil⟩ := by
  show Option.bind _ _ = some r ↔ _
  simp only [Option.bind_eq_some_iff, Option.map_eq_some_iff]
  constructor
  · rintro ⟨r₁, h₁, db, hdb, rfl⟩
    exact ⟨r₁, db, h₁, hdb, rfl⟩
  · rintro ⟨r₁, db, h₁, hdb, rfl⟩
    exact ⟨r₁, h₁, db, hdb, rfl⟩

theorem run_createByNonce (E : Env) (m : Machine) (depth : Nat) (body : Address → Evm E.X Halt)
    (caller : Address) (code : Bytes) (gas : UInt64) (value : Nat) :
    (createByNonce E depth body caller code gas value).run m =
      if m.db.exist (createAddress E.X caller (m.db.getNonce caller)) then
        some ⟨{ gas := gas, err := some .contractAddressCollision }, m, .nil⟩
      else
        (create E depth (body (createAddress E.X caller (m.db.getNonce caller))) caller code gas
          value (createAddress E.X caller (m.db.getNonce caller))).run m := by
  show Option.map _ _ = _
  dsimp only
  split
  · rfl
  · generalize (create E depth (body (createAddress E.X caller (m.db.getNonce caller))) caller
      code gas value (createAddress E.X caller (m.db.getNonce caller))).run m = run
    cases run with
    | none => rfl
    | some r => rfl

/-! ## 2. What a program may do

Rules for the constructs of the monad.  The rest of a program may rely on what has been read, which
is how a guard reaches the action behind it. -/

/-- Started in `db` and a context with `I`, the program leaves a context with `I`, and its actions
are all `Q` of the state in which they are taken. -/
def EmitsFrom (I : TxContext → Prop) (Q : StateDB → Action → Prop) (db : StateDB)
    (p : Evm X α) : Prop :=
  ∀ ctx r, I ctx → p.run ⟨db, ctx⟩ = some r → I r.machine.ctx ∧ r.trace.Each (evmStore X) Q db

def Emits (I : TxContext → Prop) (Q : StateDB → Action → Prop) (p : Evm X α) : Prop :=
  ∀ db, EmitsFrom I Q db p

variable {I : TxContext → Prop} {Q : StateDB → Action → Prop} {db : StateDB}
  {q : Evm X α} {c : Prop}

theorem emits_pure (a : α) : Emits I Q (pure a : Evm X α) := by
  intro db ctx r hI h
  obtain rfl := pure_eq_some.mp h
  exact ⟨hI, trivial⟩

theorem EmitsFrom.bind {f : α → Evm X β} (hp : EmitsFrom I Q db p)
    (hf : ∀ a, Emits I Q (f a)) : EmitsFrom I Q db (p >>= f) := by
  intro ctx r hI h
  obtain ⟨r₁, r₂, h₁, h₂, rfl⟩ := bind_eq_some.mp h
  obtain ⟨hI₁, hQ₁⟩ := hp _ _ hI h₁
  obtain ⟨hI₂, hQ₂⟩ := hf _ _ _ _ hI₁ h₂
  refine ⟨hI₂, Trace.each_append.mpr ⟨hQ₁, fun t ht => ?_⟩⟩
  rwa [some.inj (ht.symm.trans (p.traced h₁))]

theorem Emits.bind {f : α → Evm X β} (hp : Emits I Q p) (hf : ∀ a, Emits I Q (f a)) :
    Emits I Q (p >>= f) := fun db => (hp db).bind hf

/-- The rest of the program may rely on having read the database. -/
theorem Emits.getDb_bind {f : StateDB → Evm X β} (hf : ∀ db, EmitsFrom I Q db (f db)) :
    Emits I Q (getDb >>= f) := by
  intro db ctx r hI h
  have h₂ := getDb_bind_eq_some.mp h
  exact hf db _ _ hI h₂

/-- Or the context. -/
theorem Emits.getCtx_bind {f : TxContext → Evm X β} (hf : ∀ ctx, I ctx → Emits I Q (f ctx)) :
    Emits I Q (getCtx >>= f) := by
  intro db ctx r hI h
  obtain ⟨r₁, r₂, h₁, h₂, rfl⟩ := bind_eq_some.mp h
  obtain rfl := some.inj h₁
  exact hf ctx hI _ _ _ hI h₂

theorem emits_getDb : Emits I Q (getDb : Evm X StateDB) := by
  intro db ctx r hI h
  obtain rfl := some.inj h
  exact ⟨hI, trivial⟩

theorem emits_setCtx {ctx : TxContext} (h : I ctx) : Emits I Q (setCtx ctx : Evm X Unit) := by
  intro db _ r hI hr
  obtain rfl := some.inj hr
  exact ⟨h, trivial⟩

theorem emitsFrom_act {a : Action} (h : Q db a) : EmitsFrom I Q db (act a : Evm X Unit) := by
  intro ctx r hI hr
  obtain ⟨db, -, rfl⟩ := act_eq_some.mp hr
  exact ⟨hI, h, fun _ _ => trivial⟩

theorem emits_act {a : Action} (h : ∀ db, Q db a) : Emits I Q (act a : Evm X Unit) :=
  fun db => emitsFrom_act (h db)

theorem Emits.withSnapshot {abandoned : α → Bool} (hp : Emits I Q p) :
    Emits I Q (withSnapshot abandoned p) := by
  intro db ctx r hI h
  obtain ⟨r₁, db', h₁, -, rfl⟩ := withSnapshot_eq_some.mp h
  obtain ⟨hI₁, hQ₁⟩ := hp db.snapshot.1 ctx r₁ hI h₁
  exact ⟨hI₁, hQ₁, fun _ _ _ _ => trivial⟩

theorem EmitsFrom.ite [Decidable c] (hp : c → EmitsFrom I Q db p)
    (hq : ¬ c → EmitsFrom I Q db q) : EmitsFrom I Q db (if c then p else q) := by
  split
  · exact hp ‹_›
  · exact hq ‹_›

theorem Emits.ite [Decidable c] (hp : c → Emits I Q p)
    (hq : ¬ c → Emits I Q q) : Emits I Q (if c then p else q) :=
  fun db => EmitsFrom.ite (fun h => hp h db) fun h => hq h db

theorem Emits.unless [Decidable c] {a : α} (hq : ¬ c → Emits I Q q) :
    Emits I Q (if c then pure a else q) := Emits.ite (fun _ => emits_pure a) hq

theorem Emits.all {I : TxContext → Prop} {Q : Action → Prop} (h : Emits I (fun _ => Q) p)
    (hI : I m.ctx) (hr : p.run m = some r) : I r.machine.ctx ∧ r.trace.All Q :=
  (h m.db m.ctx r hI hr).imp_right fun hQ => hQ.all (p.traced hr)

/-! ## 3. What a contract may do

The induction is on the code.  A callee has the permissions of the mode that it is started in. -/

theorem getNonce_createContractAccount (s : StateDB) (a : Address) :
    (s.createContractAccount a).getNonce a = 0 := by
  show ((s.createContractAccount a).world a).elim 0 StateObject.nonce = 0
  unfold StateDB.createContractAccount
  cases s.getStateObject a with
  | none =>
    rw [StateDB.world_createObjectByAccType, World.put_self]
    rfl
  | some prev =>
    rw [StateDB.world_setStateObject _ _ (by simp), World.put_self]
    rfl

/-- What single instructions may do, in read-only mode or not. -/
structure Permits (E : Env) (I : TxContext → Prop) (Q : StateDB → Action → Prop) (readOnly : Bool) :
    Prop where
  hook : ∀ ctx caller dest value, ¬ (readOnly ∧ E.rules.isByzantium ∧ value ≠ 0) → I ctx →
    I (blockContext E (callContext E ctx caller dest value)) ∧
      ∀ s, Q s (.hook caller dest value (blockContext E (callContext E ctx caller dest value)))
  precompile : ∀ a s, Q s (.op (.createContractAccount a))
  touch : ∀ a s, Q s (.op (.addBalance a 0))
  write : ¬ (readOnly ∧ E.rules.isByzantium) →
    (∀ ctx caller dest value, I ctx → I (callContext E ctx caller dest value) ∧
      ∀ s, Q s (.hook caller dest value (callContext E ctx caller dest value))) ∧
    (∀ self key value s, Q s (.op (.setState self key value))) ∧
    (∀ log s, Q s (.op (.addLog log))) ∧ (∀ gas s, Q s (.op (.addRefund gas))) ∧
    (∀ gas s, Q s (.op (.subRefund gas))) ∧
    (∀ self beneficiary s, Q s (.selfdestruct self beneficiary)) ∧
    (∀ a s, Q s (.op (.setNonce a (s.getNonce a + 1)))) ∧
    (∀ a hash code s, Q s (.op (.setCode a hash code))) ∧
    (∀ a s, Q s (.op (.subBalance a AccountType.contract.pledge)))

variable {E : Env} {readOnly : Bool} {body : Evm E.X Halt}

/-- What may be done outside read-only mode is more than what may be done in it. -/
theorem Permits.inReadOnly (h : Permits E I Q readOnly) : Permits E I Q true where
  hook ctx caller dest value hvalue :=
    h.hook ctx caller dest value fun hwrites => hvalue ⟨rfl, hwrites.2⟩
  precompile := h.precompile
  touch := h.touch
  write hmode := h.write fun hwrites => hmode ⟨rfl, hwrites.2⟩

theorem emits_runAccount (hbody : Emits I Q body) (addr : Address) (input : Bytes)
    (gas : UInt64) : Emits I Q (runAccount E body addr input gas) := by
  unfold runAccount
  split
  · exact emits_pure _
  · refine emits_getDb.bind fun db => Emits.unless fun _ => ?_
    exact hbody.bind fun halt => emits_pure _

variable (h : Permits E I Q readOnly)

include h in
theorem Permits.call (hbody : Emits I Q body) (depth : Nat) (caller dest : Address)
    (input : Bytes) (gas : UInt64) (value : Nat)
    (hvalue : ¬ (readOnly ∧ E.rules.isByzantium ∧ value ≠ 0)) :
    Emits I Q (call E depth body caller dest input gas value) := by
  refine Emits.unless fun _ => Emits.unless fun _ => ?_
  refine emits_getDb.bind fun db => Emits.unless fun _ => ?_
  refine Emits.bind (Emits.withSnapshot ?_) fun outcome => emits_pure _
  refine Emits.bind ?_ fun _ => Emits.getCtx_bind fun ctx hctx => ?_
  · refine emits_getDb.bind fun db => ?_
    exact Emits.ite (fun _ => emits_act (h.precompile dest)) fun _ => emits_pure _
  · obtain ⟨hI, hQ⟩ := h.hook ctx caller dest value hvalue hctx
    exact (emits_setCtx hI).bind fun _ => (emits_act hQ).bind fun _ =>
      emits_runAccount hbody dest input gas

include h in
theorem Permits.staticCall (hbody : Emits I Q body) (depth : Nat) (addr : Address)
    (input : Bytes) (gas : UInt64) : Emits I Q (staticCall E depth body addr input gas) := by
  refine Emits.unless fun _ => Emits.unless fun _ => ?_
  refine Emits.bind (Emits.withSnapshot ?_) fun outcome => emits_pure _
  exact (emits_act (h.touch addr)).bind fun _ => emits_runAccount hbody addr input gas

theorem emits_callCode (hbody : Emits I Q body) (depth : Nat)
    (caller addr : Address) (input : Bytes) (gas : UInt64) (value : Nat) :
    Emits I Q (callCode E depth body caller addr input gas value) := by
  refine Emits.unless fun _ => Emits.unless fun _ => ?_
  refine emits_getDb.bind fun db => Emits.unless fun _ => ?_
  exact Emits.bind (Emits.withSnapshot (emits_runAccount hbody addr input gas)) fun outcome =>
    emits_pure _

theorem emits_delegateCall (hbody : Emits I Q body) (depth : Nat) (addr : Address)
    (input : Bytes) (gas : UInt64) : Emits I Q (delegateCall E depth body addr input gas) := by
  refine Emits.unless fun _ => Emits.unless fun _ => ?_
  exact Emits.bind (Emits.withSnapshot (emits_runAccount hbody addr input gas)) fun outcome =>
    emits_pure _

variable (hmode : ¬ (readOnly ∧ E.rules.isByzantium))

include h hmode in
theorem Permits.storeCode (address : Address) (halt : Halt) :
    Emits I Q (storeCode E address halt) := by
  obtain ⟨-, -, -, -, -, -, -, hcode, -⟩ := h.write hmode
  unfold Evm.storeCode
  split
  · exact emits_pure _
  · refine Emits.unless fun _ => Emits.unless fun _ => ?_
    refine Emits.ite (fun _ => ?_) fun _ => emits_pure _
    exact (emits_act (hcode _ _ _)).bind fun _ => emits_pure _

include h hmode in
theorem Permits.payCreation (caller address : Address) (value : Nat) :
    Emits I Q (payCreation E caller address value) := by
  obtain ⟨hhook, -, -, -, -, -, -, -, hpay⟩ := h.write hmode
  refine Emits.ite (fun _ => ?_) fun _ => ?_
  · refine Emits.getCtx_bind fun ctx hctx => ?_
    obtain ⟨hI, hQ⟩ := hhook ctx caller address value hctx
    exact (emits_setCtx hI).bind fun _ => (emits_act hQ).bind fun _ => emits_pure _
  · refine emits_getDb.bind fun db => Emits.unless fun _ => ?_
    exact (emits_act (hpay _)).bind fun _ => emits_pure _

include h hmode in
/-- The nonce of a new contract is `1`, which is one more than that of an account just opened. -/
theorem Permits.openAccount (address : Address) : Emits I Q (openAccount E address) := by
  obtain ⟨-, -, -, -, -, -, hnonce, -, -⟩ := h.write hmode
  intro db ctx r hI hr
  obtain ⟨r₁, r₂, h₁, h₂, rfl⟩ := bind_eq_some.mp hr
  obtain ⟨db', hdb, rfl⟩ := act_eq_some.mp h₁
  have hopened : db'.getNonce address + 1 = 1 := by
    obtain rfl := some.inj hdb
    rw [getNonce_createContractAccount]
    rfl
  have hsecond : EmitsFrom I Q db' (if E.rules.isEIP158 then act (.op (.setNonce address 1))
      else pure () : Evm E.X Unit) := by
    refine EmitsFrom.ite (fun _ => emitsFrom_act ?_) fun _ => emits_pure _ db'
    exact hopened ▸ hnonce address db'
  obtain ⟨hI₂, hQ₂⟩ := hsecond _ _ hI h₂
  refine ⟨hI₂, h.precompile address db, fun s hs => ?_⟩
  rwa [some.inj (hs.symm.trans hdb)]

include h hmode in
theorem Permits.create (hbody : Emits I Q body) (depth : Nat) (caller : Address)
    (code : Bytes) (gas : UInt64) (value : Nat) (address : Address) :
    Emits I Q (create E depth body caller code gas value address) := by
  obtain ⟨-, -, -, -, -, -, hnonce, -, -⟩ := h.write hmode
  refine Emits.unless fun _ => Emits.getDb_bind fun db => ?_
  refine EmitsFrom.ite (fun _ => emits_pure _ db) fun _ => ?_
  refine (emitsFrom_act (hnonce caller db)).bind fun _ => ?_
  refine emits_getDb.bind fun db => Emits.unless fun _ => ?_
  refine Emits.bind (Emits.withSnapshot ?_) fun outcome => emits_pure _
  refine (h.openAccount hmode address).bind fun _ => ?_
  refine (h.payCreation hmode caller address value).bind fun err => ?_
  split
  · exact emits_pure _
  · refine Emits.unless fun _ => ?_
    refine Emits.ite (fun _ => h.storeCode hmode address _) fun _ => ?_
    exact hbody.bind fun halt => h.storeCode hmode address halt

/-- A call or a creation that write protection lets through. -/
theorem Permits.invoke (h : Permits E I Q readOnly) {i : Invoke}
    (hi : ¬ (readOnly ∧ E.rules.isByzantium ∧ i.writes))
    {body : Address → Nat → Bool → Evm E.X Halt} (hbody : ∀ a d b, (readOnly = true → b = true) →
      Emits I Q (body a d b)) (caller : Address) (depth : Nat) :
    Emits I Q (invoke E i body caller depth readOnly) := by
  cases i with
  | call dest input gas value =>
    refine h.call (hbody _ _ _ id) _ _ _ _ _ _ fun hvalue => hi ⟨hvalue.1, hvalue.2.1, ?_⟩
    exact decide_eq_true hvalue.2.2
  | callCode addr input gas value => exact emits_callCode (hbody _ _ _ id) _ _ _ _ _ _
  | delegateCall addr input gas => exact emits_delegateCall (hbody _ _ _ id) _ _ _ _
  | staticCall addr input gas => exact h.staticCall (hbody _ _ _ fun _ => rfl) _ _ _ _
  | create code gas value =>
    have hmode : ¬ (readOnly ∧ E.rules.isByzantium) := fun hwrites => hi ⟨hwrites.1, hwrites.2, rfl⟩
    refine emits_getDb.bind fun db => Emits.unless fun _ => ?_
    exact h.create hmode (hbody _ _ _ id) _ _ _ _ _ _
  | create2 code gas endowment salt =>
    have hmode : ¬ (readOnly ∧ E.rules.isByzantium) := fun hwrites => hi ⟨hwrites.1, hwrites.2, rfl⟩
    exact h.create hmode (hbody _ _ _ id) _ _ _ _ _ _

/-- **What single instructions may do is all that a contract does.** -/
theorem emits_exec : ∀ (code : Code) {readOnly : Bool} (_ : Permits E I Q readOnly) (self : Address)
    (depth : Nat), Emits I Q (exec E code self depth readOnly) := by
  intro code
  induction code with
  | halt ret gas err => exact fun _ _ _ => emits_pure _
  | sstore key value rest ih =>
    intro readOnly h self depth
    refine Emits.unless fun hmode => ?_
    exact (emits_act ((h.write hmode).2.1 self key value)).bind fun _ => ih h self depth
  | log topics data rest ih =>
    intro readOnly h self depth
    refine Emits.unless fun hmode => ?_
    exact (emits_act ((h.write hmode).2.2.1 _)).bind fun _ => ih h self depth
  | addRefund gas rest ih =>
    intro readOnly h self depth
    refine Emits.unless fun hmode => ?_
    exact (emits_act ((h.write hmode).2.2.2.1 gas)).bind fun _ => ih h self depth
  | subRefund gas rest ih =>
    intro readOnly h self depth
    refine Emits.unless fun hmode => ?_
    exact (emits_act ((h.write hmode).2.2.2.2.1 gas)).bind fun _ => ih h self depth
  | selfdestruct beneficiary gas =>
    intro readOnly h self depth
    refine Emits.unless fun hmode => ?_
    exact (emits_act ((h.write hmode).2.2.2.2.2.1 self beneficiary)).bind fun _ => emits_pure _
  | invoke i body rest ihbody ih =>
    intro readOnly h self depth
    refine Emits.unless fun hi => Emits.bind ?_ fun _ => ih h self depth
    refine h.invoke hi (fun a d b hb => ?_) self depth
    -- a callee is read-only if its caller is
    refine ihbody ?_ a d
    cases b with
    | true => exact h.inReadOnly
    | false =>
      cases readOnly with
      | true => exact absurd (hb rfl) (by decide)
      | false => exact h

end Evm

/-! ## 4. Scopes that go back

If each action can be undone in the state in which it is taken, the snapshot is still good at the
end of the scope. -/

open StateDB

/-- The accounts and the journal are what they were. -/
structure Reverted (s u : StateDB) : Prop where
  objects : u.stateObjects = s.stateObjects
  journal : u.journal = s.journal
  refund : u.refund = s.refund
  logs : u.logs = s.logs
  logSize : u.logSize = s.logSize

variable {s t u : StateDB}

theorem Reverted.world (h : Reverted s u) : u.world = s.world := by
  funext a
  exact getStateObject_congr (congrFun h.objects a)

/-- **Reverting to a snapshot that is still good** brings everything back. -/
theorem StateDB.Since.reverted (h : Since {a | s.getStateObject a = none} s t)
    (hu : t.revertToSnapshot s.nextRevisionId = some u) : Reverted s u := by
  obtain ⟨r, hr, hobjects, hrefund, hlogs, hlogSize⟩ := h.exists_revert
  obtain ⟨r', hr', -, hjournal⟩ := SinceUpTo.exists_revert (backtracks_restored _) h
  obtain rfl : r = u := some.inj (hr.symm.trans hu)
  obtain rfl : r' = r := some.inj (hr'.symm.trans hu)
  exact ⟨hobjects, hjournal, hrefund, hlogs, hlogSize⟩

/-- What has to hold before an action for the journal to undo it. -/
def Action.Undoable (X : Externals) (A : Set Address) (revid : Nat) (s : StateDB) : Action → Prop
  | .op o => o.Undoable X A revid s
  | .hook _ _ _ ctx => s.CallUndoable X A ctx
  | .selfdestruct self _ => SuicideUndoable A s self

theorem undoes_selfdestruct {A : Set Address} {self beneficiary : Address}
    (ha : SuicideUndoable A t self) (hu : t.opSuicide self beneficiary = some u) :
    Undoes A t u := by
  have hkeeps : Keeps (fun o => (o.accountType, o.suicided)) t
      (t.addBalance beneficiary (t.getBalance self)) self :=
    keeps_addBalance (fun o v => by simp) t beneficiary _ self
  exact Undoes.of_missing
    ((undoes_addBalance t beneficiary _).trans (undoes_suicide (hkeeps.suicideUndoable ha) hu))

theorem since_actionStep {X : Externals} {A : Set Address} {a : Action}
    (h : Since A s t) (ha : a.Undoable X A s.nextRevisionId t) (hu : actionStep X t a = some u) :
    Since A s u := by
  cases a with
  | op o => exact since_dbStep h ha hu
  | hook caller dest value ctx => exact h.of_undoes (undoes_callDB ha hu)
  | selfdestruct self beneficiary => exact h.of_undoes (undoes_selfdestruct ha hu)

/-- Everything in the scope can be undone; of accounts that did not exist when it was opened, only
that they exist. -/
def Undoable (X : Externals) (s : StateDB) (body : Trace Action) : Prop :=
  body.Each (evmStore X)
    (fun t a => a.Undoable X {a | s.getStateObject a = none} s.nextRevisionId t)
    s.snapshot.1

/-- **A scope in which everything can be undone goes back.** -/
theorem Undoable.goesBack {X : Externals} {body : Trace Action} (h : Undoable X s body) :
    body.GoesBack (evmStore X) Reverted s := by
  intro t u ht hu
  have hback := backtracks_restored {a | s.getStateObject a = none}
  have hgood := Trace.run_inv (K := Since {a | s.getStateObject a = none} s) since_actionStep
    (SinceUpTo.snapshot hback)
    (fun hopened hbody habandoned =>
      SinceUpTo.revertToSnapshot hback hbody hopened.nextRevisionId habandoned)
    (since_snapshot _ s) h ht
  exact Since.reverted hgood hu

end ProbeChain
