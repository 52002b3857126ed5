/-
# Calls within calls

Each call and each creation runs `CallDB` once, but `CallDB` is not told for which call: it reads
the transaction context, which the whole tree of calls shares.  On the Shenzhen fork a call writes
itself into the context first.  Before that the context is that of the transaction throughout, so
that every call inside of it applies the operation of the transaction once more and its own value
goes nowhere.

`nested_calls_iff` says, for every program, exactly which of its calls are applied as what they are,
and whether the transaction itself is.
-/
import ProbeChain.Evm.Trace

namespace ProbeChain

open Scope Option

/-! ## 1. Payments -/

namespace World

open StateObject

/-- The account keeps a balance, or will once it exists. -/
def payable (w : World) (a : Address) : Bool :=
  ((w a).getD (new .regular)).accountType.holdsBalance

/-- What arrives at `dest`: the pledge is kept back if the account has to be made. -/
def received (w : World) (dest : Address) (value : Nat) : Int :=
  if (w dest).isNone ∧ value ≠ 0 then (value : Int) - AccountType.regular.pledge else value

/-- `value` went from `caller` to `dest`, and nothing else went anywhere. -/
structure Moves (w w' : World) (caller dest : Address) (value : Nat) : Prop where
  balance : ∀ a, w'.balanceAt a = w.balanceAt a - (if a = caller then (value : Int) else 0) +
    if a = dest then w.received dest value else 0
  others : ∀ a, a ≠ caller → a ≠ dest → w' a = w a

theorem balanceAt_credit (w : World) (a b : Address) (v : Int) :
    (w.credit a v).balanceAt b =
      w.balanceAt b + if b = a ∧ w.payable a = true then v else 0 := by
  by_cases hb : b = a
  · subst hb
    have hbalance : w.balanceAt b = ((w b).getD (new .regular)).balance := by
      rw [balanceAt]
      cases w b with
      | none => rfl
      | some o => rfl
    rw [hbalance, balanceAt, credit, put_self, elim_some, credited, balance_setBalance, payable]
    cases hholds : ((w b).getD (new .regular)).accountType.holdsBalance with
    | true => simp
    | false => simp [balance_of_not_holds hholds]
  · rw [balanceAt, credit, put_of_ne _ _ hb, balanceAt, if_neg fun h => hb h.1, Int.add_zero]

theorem payable_credit (w : World) (a b : Address) (v : Int) :
    (w.credit a v).payable b = w.payable b := by
  unfold payable
  by_cases hb : b = a
  · subst hb
    rw [credit, put_self, getD_some, credited, setBalance_accountType]
  · rw [credit, put_of_ne _ _ hb]

/-- An account that cannot be paid is there. -/
theorem received_of_not_payable {w : World} {a : Address} (h : w.payable a = false) (value : Nat) :
    w.received a value = value := by
  refine if_neg fun hmissing => ?_
  rw [payable, isNone_iff_eq_none.mp hmissing.1] at h
  cases h

theorem balanceAt_transfer {ctx : TxContext} (hvalue : ctx.value ≠ 0) (w : World)
    (dest b : Address) :
    (w.transfer ctx dest).balanceAt b = w.balanceAt b +
      (if b = ctx.fromAddr ∧ w.payable ctx.fromAddr = true then -(ctx.value : Int) else 0) +
      if b = dest ∧ w.payable dest = true then w.received dest ctx.value else 0 := by
  have hreceived : (if (w dest).isNone then (ctx.value : Int) - AccountType.regular.pledge
      else ctx.value) = w.received dest ctx.value := by
    simp only [received, hvalue, ne_eq, not_false_eq_true, and_true]
  rw [transfer, if_neg hvalue, hreceived, balanceAt_credit, balanceAt_credit, payable_credit]

/-- **When a transfer moves its value**: it has none, it goes to its sender, or both sides keep a
balance. -/
theorem moves_transfer_iff (w : World) (ctx : TxContext) (dest : Address) :
    Moves w (w.transfer ctx dest) ctx.fromAddr dest ctx.value ↔
      ctx.value = 0 ∨ ctx.fromAddr = dest ∨
      (w.payable ctx.fromAddr = true ∧ w.payable dest = true) := by
  by_cases hvalue : ctx.value = 0
  · refine ⟨fun _ => .inl hvalue, fun _ => ⟨fun a => ?_, fun a _ _ => ?_⟩⟩
    · rw [transfer, if_pos hvalue, hvalue]
      simp [received]
    · rw [transfer, if_pos hvalue]
  constructor
  · intro hmoves
    refine .inr (Classical.or_iff_not_imp_left.mpr fun hne => ⟨?_, ?_⟩)
    · have hcaller := hmoves.balance ctx.fromAddr
      by_contra hpayable
      rw [balanceAt_transfer hvalue] at hcaller
      simp only [hne, hpayable, and_false, false_and, if_true, if_false] at hcaller
      omega
    · have hdest := hmoves.balance dest
      by_contra hpayable
      rw [balanceAt_transfer hvalue, received_of_not_payable (Bool.eq_false_iff.mpr hpayable)]
        at hdest
      simp only [Ne.symm hne, hpayable, and_false, false_and, if_true, if_false] at hdest
      omega
  · intro h
    refine ⟨fun a => ?_, fun a hcaller hdest => ?_⟩
    · rw [balanceAt_transfer hvalue]
      rcases h.resolve_left hvalue with heq | ⟨hcaller, hdest⟩
      · subst heq
        cases hpayable : w.payable ctx.fromAddr with
        | true => simp only [and_true]; split <;> omega
        | false =>
          rw [received_of_not_payable hpayable]
          split <;> simp
      · simp only [hcaller, hdest, and_true]
        split <;> omega
    · rw [transfer, if_neg hvalue, credit, put_of_ne _ _ hdest, credit, put_of_ne _ _ hcaller]

end World

/-! ## 2. For whom `CallDB` is run -/

def Action.isHook : Action → Bool
  | .hook .. => true
  | _ => false

namespace Evm

/-- The context is that of a call of `dest` by `caller`. -/
structure Names (ctx : TxContext) (caller dest : Address) (value : Nat) : Prop where
  fromAddr : ctx.fromAddr = caller
  toAddr : ctx.toAddr = some dest
  value : ctx.value = value

variable (E : Env)

/-- The operation that is applied is that of the call, and a call of an ordinary address moves its
value. -/
def AppliesOwn (X : Externals) (s : StateDB) : Action → Prop
  | .hook caller dest value ctx => Names ctx caller dest value ∧ (operationOf dest = .transfer →
      ∀ s', callDB X s ctx = some s' → World.Moves s.world s'.world caller dest value)
  | _ => True

/-- **When it is**, in a transaction with the context `outer`: on the Shenzhen fork, or if the call
is the very call the transaction names; and then if the value has where to come from and where to
go. -/
def Fair (outer : TxContext) (s : StateDB) : Action → Prop
  | .hook caller dest value _ => (E.rules.isShenzhen ∨ Names outer caller dest value) ∧
      (operationOf dest = .transfer → value = 0 ∨ caller = dest ∨
        (s.world.payable caller = true ∧ s.world.payable dest = true))
  | _ => True

/-- What becomes of the context. -/
def FromOuter (outer : TxContext) : Action → Prop
  | .hook caller dest value ctx =>
    Names ctx caller dest value ↔ (E.rules.isShenzhen ∨ Names outer caller dest value)
  | _ => True

/-- Before the Shenzhen fork the context keeps naming the same call. -/
def SameCall (outer ctx : TxContext) : Prop :=
  E.rules.isShenzhen = false → ∀ caller dest value,
    Names ctx caller dest value ↔ Names outer caller dest value

variable {E : Env} {outer ctx : TxContext} {caller dest : Address} {value : Nat}

theorem names_blockContext {a b : Address} {v : Nat} :
    Names (blockContext E ctx) a b v ↔ Names ctx a b v :=
  ⟨fun h => ⟨h.fromAddr, h.toAddr, h.value⟩, fun h => ⟨h.fromAddr, h.toAddr, h.value⟩⟩

theorem names_callContext (h : SameCall E outer ctx) :
    Names (callContext E ctx caller dest value) caller dest value ↔
      (E.rules.isShenzhen ∨ Names outer caller dest value) := by
  unfold callContext
  split
  next hshenzhen =>
    exact ⟨fun _ => .inl hshenzhen, fun _ => ⟨rfl, rfl, rfl⟩⟩
  next hshenzhen =>
    rw [h (Bool.eq_false_iff.mpr hshenzhen)]
    exact ⟨.inr, fun h => h.resolve_left hshenzhen⟩

theorem SameCall.callContext (h : SameCall E outer ctx) :
    SameCall E outer (callContext E ctx caller dest value) := by
  intro hshenzhen a b v
  rw [Evm.callContext, if_neg (ne_true_of_eq_false hshenzhen)]
  exact h hshenzhen a b v

theorem SameCall.blockContext (h : SameCall E outer ctx) : SameCall E outer (blockContext E ctx) :=
  fun hshenzhen a b v => names_blockContext.trans (h hshenzhen a b v)

/-- **Every hook of a tree of calls has its context from the transaction or from its call.** -/
theorem permits_fromOuter (E : Env) (outer : TxContext) (readOnly : Bool) :
    Permits E (SameCall E outer) (fun _ => FromOuter E outer) readOnly where
  hook _ _ _ _ _ h :=
    ⟨h.callContext.blockContext, fun _ => names_blockContext.trans (names_callContext h)⟩
  precompile _ _ := trivial
  touch _ _ := trivial
  write _ :=
    ⟨fun _ _ _ _ h => ⟨h.callContext, fun _ => names_callContext h⟩, fun _ _ _ _ => trivial,
      fun _ _ => trivial, fun _ _ => trivial, fun _ _ => trivial, fun _ _ _ => trivial,
      fun _ _ => trivial,
    fun _ _ _ _ => trivial, fun _ _ => trivial⟩

/-- Applied as what it is, a call of an ordinary address is a transfer. -/
theorem world_callDB_transfer {X : Externals} {s s' : StateDB}
    (hnames : Names ctx caller dest value) (hop : operationOf dest = .transfer)
    (h : callDB X s ctx = some s') :
    s'.world = s.world.transfer ctx dest := by
  have hw := world_callDB h
  rw [World.callDB, hnames.toAddr] at hw
  dsimp only at hw
  rw [hop] at hw
  exact (some.inj hw).symm

theorem appliesOwn_iff_fair {s : StateDB} {a : Action} (h : FromOuter E outer a) :
    AppliesOwn E.X s a ↔ Fair E outer s a := by
  cases a with
  | op o => exact .rfl
  | selfdestruct self beneficiary => exact .rfl
  | hook caller dest value ctx =>
    have h : Names ctx caller dest value ↔ _ := h
    refine Iff.trans (and_congr_right fun hnames => imp_congr_right fun hop => ?_)
      (and_congr_left fun _ => h)
    have hmoves := World.moves_transfer_iff s.world ctx dest
    rw [hnames.fromAddr, hnames.value] at hmoves
    rw [← hmoves]
    constructor
    · intro hall
      have hsome : (callDB E.X s ctx).isSome := by
        rw [callDB, hnames.toAddr]
        dsimp only
        rw [hop]
        rfl
      obtain ⟨s', hs'⟩ := isSome_iff_exists.mp hsome
      exact world_callDB_transfer hnames hop hs' ▸ hall s' hs'
    · intro hw s' hs'
      exact (world_callDB_transfer hnames hop hs').symm ▸ hw

/-! ## 3. The transaction itself -/

/-- `CallDB` is run for this call before it is run for any other. -/
def AppliedFirst (trace : Trace Action) (caller dest : Address) (value : Nat) : Prop :=
  ∃ ctx, Names ctx caller dest value ∧
    trace.toList.find? Action.isHook = some (.hook caller dest value ctx)

/-- The transaction that the context belongs to. -/
def NamedBy (ctx : TxContext) (caller : Address) : Invoke → Prop
  | .call dest _ _ value => Names ctx caller dest value
  | .create _ _ value => ctx.fromAddr = caller ∧ ctx.toAddr = none ∧ ctx.value = value
  | _ => False

/-- The operation of the transaction is applied.  For a creation that is the transfer of its
value. -/
def AppliesOuter (E : Env) (m : Machine) (caller : Address) (trace : Trace Action) : Invoke → Prop
  | .call dest _ _ value => AppliedFirst trace caller dest value
  | .create _ _ value =>
    value = 0 ∨ AppliedFirst trace caller (createAddress E.X caller (m.db.getNonce caller)) value
  | _ => True

/-- **When it is.** -/
def Transfers (E : Env) : Invoke → Prop
  | .create _ _ value => value = 0 ∨ E.rules.isShenzhen
  | _ => True

variable {m : Machine} {body : Evm E.X Halt} {gas : UInt64} {r : Result Outcome}

/-- A program that keeps the context and runs no hook. -/
def Silent {α : Type} (p : Evm E.X α) (m : Machine) : Prop :=
  ∀ r, p.run m = some r → r.machine.ctx = m.ctx ∧ r.trace.toList.find? Action.isHook = none

theorem silent_of_emits {α : Type} {p : Evm E.X α} (m : Machine)
    (h : Emits (· = m.ctx) (fun _ a => a.isHook = false) p) : Silent p m := by
  intro r hr
  obtain ⟨hctx, hall⟩ := h.all rfl hr
  refine ⟨hctx, List.find?_eq_none.mpr fun a ha => ?_⟩
  exact ne_true_of_eq_false (Trace.all_iff_forall_mem.mp hall a ha)

theorem silent_createPrecompile (dest : Address) : Silent (createPrecompile E dest) m :=
  silent_of_emits m (emits_getDb.bind fun _ => Emits.ite (fun _ => emits_act fun _ => rfl)
    fun _ => emits_pure _)

theorem silent_openAccount (a : Address) : Silent (openAccount E a) m :=
  silent_of_emits m (Emits.bind (emits_act fun _ => by rfl) fun _ =>
    Emits.ite (fun _ => emits_act fun _ => rfl) fun _ => emits_pure _)

theorem find_append_of_silent {p q : Trace Action} (h : p.toList.find? Action.isHook = none) :
    (p.append q).toList.find? Action.isHook = q.toList.find? Action.isHook := by
  rw [Trace.toList_append, List.find?_append, h, none_or]

/-- A call that got past its checks runs its own hook first. -/
theorem find_hook_callBody {input : Bytes}
    (h : (callBody E body caller dest input gas value).run m = some r) :
    r.trace.toList.find? Action.isHook = some (.hook caller dest value
      (blockContext E (callContext E m.ctx caller dest value))) := by
  obtain ⟨r₁, r₂, h₁, h₂, rfl⟩ := bind_eq_some.mp h
  obtain ⟨hctx, hsilent⟩ := silent_createPrecompile dest r₁ h₁
  obtain ⟨r₃, r₄, h₃, h₄, rfl⟩ := bind_eq_some.mp h₂
  obtain rfl := some.inj h₃
  obtain ⟨r₅, r₆, h₅, h₆, rfl⟩ := bind_eq_some.mp h₄
  obtain rfl := some.inj h₅
  obtain ⟨r₇, r₈, h₇, -, rfl⟩ := bind_eq_some.mp h₆
  obtain ⟨db, -, rfl⟩ := act_eq_some.mp h₇
  rw [← hctx]
  exact find_append_of_silent hsilent

theorem find_hook_call {input : Bytes}
    (h : (call E 0 body caller dest input gas value).run m = some r) (herr : r.value.err = none) :
    r.trace.toList.find? Action.isHook = some (.hook caller dest value
      (blockContext E (callContext E m.ctx caller dest value))) := by
  rw [call, if_neg fun h => Nat.lt_irrefl 0 h.2, if_neg (Nat.not_lt_zero _)] at h
  have h₂ := getDb_bind_eq_some.mp h
  split at h₂
  · obtain rfl := pure_eq_some.mp h₂
    cases herr
  · obtain ⟨r₃, r₄, h₃, h₄, rfl⟩ := bind_eq_some.mp h₂
    obtain rfl := pure_eq_some.mp h₄
    obtain ⟨r₀, db, h₀, -, rfl⟩ := withSnapshot_eq_some.mp h₃
    have hfind := find_hook_callBody h₀
    simpa only [Trace.append, Trace.toList, List.append_nil] using hfind

/-- On the Shenzhen fork so does a creation. -/
theorem find_hook_createBody (hshenzhen : E.rules.isShenzhen = true) {depth : Nat}
    {code : Bytes} {a : Address}
    (h : (createBody E depth body caller code gas value a).run m = some r) :
    r.trace.toList.find? Action.isHook =
      some (.hook caller a value (callContext E m.ctx caller a value)) := by
  obtain ⟨r₁, r₂, h₁, h₂, rfl⟩ := bind_eq_some.mp h
  obtain ⟨hctx, hsilent⟩ := silent_openAccount a r₁ h₁
  obtain ⟨r₃, r₄, h₃, -, rfl⟩ := bind_eq_some.mp h₂
  rw [payCreation, if_pos hshenzhen] at h₃
  obtain ⟨r₅, r₆, h₅, h₆, rfl⟩ := bind_eq_some.mp h₃
  obtain rfl := some.inj h₅
  obtain ⟨r₇, r₈, h₇, h₈, rfl⟩ := bind_eq_some.mp h₆
  obtain rfl := some.inj h₇
  obtain ⟨r₉, r₁₀, h₉, -, rfl⟩ := bind_eq_some.mp h₈
  obtain ⟨db, -, rfl⟩ := act_eq_some.mp h₉
  rw [← hctx]
  exact find_append_of_silent hsilent

theorem find_hook_create (hshenzhen : E.rules.isShenzhen = true) {code : Bytes} {a : Address}
    (h : (create E 0 body caller code gas value a).run m = some r) (herr : r.value.err = none) :
    r.trace.toList.find? Action.isHook =
      some (.hook caller a value (callContext E m.ctx caller a value)) := by
  have h₂ := getDb_bind_eq_some.mp h
  split at h₂
  · obtain rfl := pure_eq_some.mp h₂
    cases herr
  · obtain ⟨r₃, r₄, h₃, h₄, rfl⟩ := bind_eq_some.mp h₂
    obtain ⟨db, -, rfl⟩ := act_eq_some.mp h₃
    have h₆ := getDb_bind_eq_some.mp h₄
    split at h₆
    · obtain rfl := pure_eq_some.mp h₆
      cases herr
    · obtain ⟨r₇, r₈, h₇, h₈, rfl⟩ := bind_eq_some.mp h₆
      obtain rfl := pure_eq_some.mp h₈
      obtain ⟨r₀, db', h₀, -, rfl⟩ := withSnapshot_eq_some.mp h₇
      have hfind := find_hook_createBody hshenzhen h₀
      simpa only [Trace.append, Trace.toList, List.append_nil, List.find?, Action.isHook]
        using hfind

/-! ## 4. Once each -/

/-- **Every call is applied as what it is exactly if it is fair; and the transaction is applied
itself unless it is a creation before the Shenzhen fork.** -/
theorem nested_calls_iff (E : Env) (m : Machine) (i : Invoke) (caller : Address) (code : Code)
    (r : Result Outcome) (hnamed : NamedBy m.ctx caller i)
    (hrun : (invokeCode E i code caller 0 false).run m = some r) :
    (r.trace.Each (evmStore E.X) (AppliesOwn E.X) m.db ↔
      r.trace.Each (evmStore E.X) (Fair E m.ctx) m.db) ∧
    (r.value.err = none → (AppliesOuter E m caller r.trace i ↔ Transfers E i)) := by
  have hpermits := permits_fromOuter E m.ctx false
  have hall : r.trace.All (FromOuter E m.ctx) := by
    refine ((hpermits.invoke (i := i) (fun h => Bool.false_ne_true h.1)
      (fun a d b _ => ?_) caller 0).all
      (fun _ _ _ _ => .rfl) hrun).2
    exact emits_exec code (permits_fromOuter E m.ctx b) a d
  have hstep : ∀ s a, FromOuter E m.ctx a → (AppliesOwn E.X s a ↔ Fair E m.ctx s a) :=
    fun s a h => appliesOwn_iff_fair h
  refine ⟨Trace.each_congr hstep hall, fun herr => ?_⟩
  cases i with
  | call dest input gas value =>
    refine iff_of_true ⟨_, ?_, find_hook_call hrun herr⟩ trivial
    exact names_blockContext.mpr ((names_callContext fun _ _ _ _ => .rfl).mpr (.inr hnamed))
  | create init gas value =>
    refine or_congr_right ⟨fun hfirst => ?_, fun hshenzhen => ?_⟩
    · -- before the fork no hook is run for an address, for the transaction names none
      obtain ⟨ctx, hnames, hfind⟩ := hfirst
      have hmem := List.mem_of_find?_eq_some hfind
      have hfrom : Names ctx _ _ _ ↔ _ := Trace.all_iff_forall_mem.mp hall _ hmem
      refine (hfrom.mp hnames).resolve_right fun houter => ?_
      exact absurd (hnamed.2.1.symm.trans houter.toAddr) (by simp)
    · have hcreate := (run_createByNonce E m 0 (fun a => exec E code a 1 false) caller init gas
        value).symm.trans hrun
      split at hcreate
      · obtain rfl := some.inj hcreate
        cases herr
      · exact ⟨_, (names_callContext fun _ _ _ _ => .rfl).mpr (.inl hshenzhen),
          find_hook_create hshenzhen hcreate herr⟩
  | callCode addr input gas value => exact hnamed.elim
  | delegateCall addr input gas => exact hnamed.elim
  | staticCall addr input gas => exact hnamed.elim
  | create2 code gas endowment salt => exact hnamed.elim

/-- Account `1` pays `40` to the contract at `7`, which pays `5` back. -/
theorem nested_call_paid_back : ∃ r : Result Outcome,
    (invokeCode { X := plainExternals } (.call 7 [] 0 40)
      (.invoke (.call 1 [] 0 5) (.halt [] 0 none) (.halt [] 0 none)) 1 0 false).run
        payerAndContract =
        some r ∧
    r.trace.Each (evmStore plainExternals) (AppliesOwn plainExternals) payerAndContract.db ∧
    AppliedFirst r.trace 1 7 40 := by
  obtain ⟨r, hr, htrace, herr⟩ : ∃ r : Result Outcome,
      (invokeCode { X := plainExternals } (.call 7 [] 0 40)
        (.invoke (.call 1 [] 0 5) (.halt [] 0 none) (.halt [] 0 none)) 1 0 false).run
          payerAndContract =
          some r ∧
      r.trace = .scope (.act (.hook 1 7 40 ⟨1, some 7, 0, 40, [], 0, some 1⟩)
        (.scope (.act (.hook 7 1 5 ⟨7, some 1, 0, 5, [], 0, some 1⟩) .nil) false .nil)) false .nil ∧
      r.value.err = none := ⟨_, rfl, rfl, rfl⟩
  obtain ⟨hown, houter⟩ :=
    nested_calls_iff { X := plainExternals } payerAndContract (.call 7 [] 0 40) 1
    (.invoke (.call 1 [] 0 5) (.halt [] 0 none) (.halt [] 0 none)) r ⟨rfl, rfl, rfl⟩ hr
  refine ⟨r, hr, hown.mpr ?_, (houter herr).mpr trivial⟩
  rw [htrace]
  refine ⟨⟨⟨.inl rfl, fun _ => .inr (.inr ⟨rfl, rfl⟩)⟩, fun s hs => ?_⟩, fun _ _ _ _ => trivial⟩
  obtain rfl := some.inj hs
  exact ⟨⟨⟨.inl rfl, fun _ => .inr (.inr ⟨rfl, rfl⟩)⟩, fun _ _ => trivial⟩, fun _ _ _ _ => trivial⟩

/-- Before the Shenzhen fork the same contract, making one call without a value, is paid twice. -/
theorem nested_call_pays_again :
    ((invokeCode { X := plainExternals, rules := { isShenzhen := false } } (.call 7 [] 0 40)
      (.invoke (.call 2 [] 0 0) (.halt [] 0 none) (.halt [] 0 none)) 1 0 false).run
        payerAndContract).map
      (fun r => (r.value.err, r.machine.db.getBalance 1, r.machine.db.getBalance 7)) =
    some (none, 20, 80) ∧
    payerAndContract.db.getBalance 1 = 100 ∧ payerAndContract.db.getBalance 7 = 0 := by
  decide +kernel

end Evm

end ProbeChain
