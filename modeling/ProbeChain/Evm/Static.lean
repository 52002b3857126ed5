/-
# Static calls

`StaticCall` should leave every account as it is, whatever the code behind it does.  Its protection
is that the interpreter refuses the instructions that write.  Three things get past it.

* An account that does not exist is made by being touched.
* A precompiled contract that is called gets an account.
* A call without a value is not an instruction that writes, but `CallDB` is run for it: on the
  Shenzhen fork for the destination of the call, which may be one of the special addresses, before
  that for the destination of the whole transaction.

`staticCall_unchanged` is about every program and says that there is nothing else.
-/
import ProbeChain.Evm.Trace
import ProbeChain.State.Frame

namespace ProbeChain

open Scope Option

/-! ## 1. What a read-only run does -/

namespace Evm

/-- What the interpreter lets through in read-only mode. -/
def InReadOnly (E : Env) : Action → Prop
  | .op (.addBalance _ v) => v = 0
  | .op (.createContractAccount _) => True
  | .hook _ _ _ ctx => E.rules.isShenzhen → ctx.value = 0
  | _ => False

theorem permits_readOnly {E : Env} (hbyzantium : E.rules.isByzantium) :
    Permits E (fun _ => True) (fun _ => InReadOnly E) true where
  hook ctx caller dest value hvalue _ := by
    refine ⟨trivial, fun _ hshenzhen => ?_⟩
    have hzero : value = 0 := by
      by_contra hne
      exact hvalue ⟨rfl, hbyzantium, hne⟩
    show (callContext E ctx caller dest value).value = 0
    rw [callContext, if_pos hshenzhen, hzero]
  precompile _ _ := trivial
  touch _ _ := rfl
  write hmode := absurd ⟨rfl, hbyzantium⟩ hmode

/-- **What may be met in a static call without anything being changed.** -/
def Unobtrusive (E : Env) (s : StateDB) : Action → Prop
  | .op (.addBalance a _) => s.exist a
  | .op (.createContractAccount _) => False
  | .hook _ _ _ ctx => ∀ dest ∈ ctx.toAddr,
      (E.rules.isShenzhen ∧ operationOf dest = .transfer) ∨ Idle s.world ctx dest
  | _ => True

theorem world_of_unobtrusive {E : Env} {s s' : StateDB} {a : Action} (h : Unobtrusive E s a)
    (hmode : InReadOnly E a) (hs : actionStep E.X s a = some s') : s'.world = s.world := by
  cases a with
  | op o =>
    cases o with
    | addBalance a v =>
      obtain rfl : v = 0 := hmode
      obtain rfl := some.inj hs
      obtain ⟨o, ho⟩ := isSome_iff_exists.mp h
      have hcredited : StateObject.credited 0 (some o) = o := by
        rw [StateObject.credited, getD_some, Int.add_zero, StateObject.setBalance_balance]
      rw [StateDB.world_addBalance, World.credit, show s.world a = some o from ho, hcredited]
      exact World.put_eq_self ho
    | createContractAccount a => exact h.elim
    | _ => exact hmode.elim
  | hook caller dest value ctx =>
    refine World.eq_of_idle (fun dest hdest => ?_) (world_callDB hs)
    rcases h dest hdest with ⟨hshenzhen, hop⟩ | hidle
    · rw [Idle, hop]
      exact hmode hshenzhen
    · exact hidle
  | selfdestruct self beneficiary => exact hmode.elim

/-! ## 2. Static calls -/

/-- **A static call in which everything is unobtrusive leaves every account as it is.** -/
theorem staticCall_unchanged (E : Env) (m : Machine) (code : Code) (caller addr : Address)
    (input : Bytes) (gas : UInt64) (depth : Nat) (readOnly : Bool) (r : Result Outcome)
    (hbyzantium : E.rules.isByzantium)
    (hrun : (invokeCode E (.staticCall addr input gas) code caller depth readOnly).run m = some r)
    (hsteps : r.trace.Along (evmStore E.X) (Unobtrusive E) (Undoable E.X) m.db) :
    r.machine.db.world = m.db.world := by
  have hpermits := permits_readOnly hbyzantium
  have hmode : r.trace.Each (evmStore E.X) (fun _ => InReadOnly E) m.db := by
    have hbody := emits_exec code hpermits addr (depth + 1)
    exact (hpermits.staticCall hbody depth addr input gas m.db m.ctx r trivial hrun).2
  have hquiet := (hsteps.and_each hmode).mono (fun _ _ h => h) fun _ _ h => h.goesBack
  have htraced := (invokeCode E (.staticCall addr input gas) code caller depth readOnly).traced hrun
  have htrans {s t u : StateDB} (h : t.world = s.world) (h' : u.world = t.world) :
      u.world = s.world := h'.trans h
  exact Trace.run_rel (R := fun s t => t.world = s.world) (fun _ => rfl) htrans
    (fun h hs => world_of_unobtrusive h.1 h.2 hs) (fun _ => rfl) (fun h => h.world) hquiet htraced

/-- The contract at `7` is called statically, calls account `1` and looks at it. -/
theorem staticCall_of_existing : ∃ r : Result Outcome,
    (invokeCode { X := plainExternals } (.staticCall 7 [] 0)
      (.invoke (.call 1 [] 0 0) (.halt [] 0 none) (.invoke (.staticCall 1 [] 0) (.halt [] 0 none)
        (.halt [] 0 none))) 1 0 false).run payerAndContract = some r ∧
    r.machine.db.world = payerAndContract.db.world := by
  obtain ⟨r, hr, htrace⟩ := map_eq_some_iff.mp (show ((invokeCode { X := plainExternals }
      (.staticCall 7 [] 0) (.invoke (.call 1 [] 0 0) (.halt [] 0 none) (.invoke (.staticCall 1 [] 0)
        (.halt [] 0 none) (.halt [] 0 none))) 1 0 false).run payerAndContract).map Result.trace =
    some (.scope (.act (.op (.addBalance 7 0)) (.scope (.act (.hook 7 1 0
      { fromAddr := 7, toAddr := some 1, value := 0, data := [],
        blockNumber := some 1 }) .nil) false
      (.scope (.act (.op (.addBalance 1 0)) .nil) false .nil))) false .nil) from rfl)
  refine ⟨r, hr, staticCall_unchanged _ payerAndContract _ 1 7 [] 0 0 false r rfl hr ?_⟩
  rw [htrace]
  refine ⟨(nomatch ·), fun _ => ⟨rfl, fun s hs => ?_⟩, fun _ _ _ _ => trivial⟩
  obtain rfl := some.inj hs
  refine ⟨(nomatch ·), fun _ => ⟨fun dest hdest => ?_, fun _ _ => trivial⟩, fun t u ht hu => ?_⟩
  · obtain rfl := some.inj hdest
    exact .inl ⟨rfl, rfl⟩
  · obtain rfl := some.inj ht
    obtain rfl := some.inj hu
    exact ⟨(nomatch ·), fun _ => ⟨rfl, fun _ _ => trivial⟩, fun _ _ _ _ => trivial⟩

/-- The contract at `7`, called statically, registers a name: it pays the pledge with money that it
does not have. -/
theorem staticCall_registers :
    ((invokeCode { X := plainExternals } (.staticCall 7 [] 0)
      (.invoke (.call 0x101 [] 0 0) (.halt [] 0 none) (.halt [] 0 none)) 1 0 false).run
      { payerAndContract with ctx := { payerAndContract.ctx with data := [9] } }).map (fun r =>
        (r.value.err, r.machine.db.getBalance 7,
          r.machine.db.exist (createPNSAddress plainExternals 7 [9]))) =
      some (none, -(AccountType.pns.pledge : Int), true) ∧
    payerAndContract.db.getBalance 7 = 0 ∧
    payerAndContract.db.exist (createPNSAddress plainExternals 7 [9]) = false := by
  decide +kernel

end Evm

end ProbeChain
