/-
# Transactions that run no code

A message to an account without code does one thing between the purchase of the gas and its
settlement: it calls `CallDB`.  So it is for every message to one of the reserved addresses and for
every transfer to an account that is no contract, and what such a message does to the accounts can
be written down (`run_of_direct`).

The precompiled contracts have no code either and are left out.
-/
import ProbeChain.Evm.Nonces

namespace ProbeChain

open Option StateDB

namespace StateObject

theorem unseen_code : Unseen code [] where
  balance o x := by unfold setBalance; split <;> rfl
  new t := by cases t <;> rfl

theorem setNonce_code (o : StateObject) (n : UInt64) : (o.setNonce n).code = o.code := by
  unfold setNonce
  split <;> rfl

end StateObject

open StateObject

/-! ## 1. Code -/

namespace StateDB

theorem getCode_eq (s : StateDB) (a : Address) : s.getCode a = s.world.view code [] a := rfl

theorem getCode_subBalance (s : StateDB) (a b : Address) (v : Int) :
    (s.subBalance a v).getCode b = s.getCode b := by
  rw [getCode_eq, world_subBalance, World.view_credit unseen_code.toCashless, getCode_eq]

theorem getCode_setNonce (s : StateDB) (a b : Address) (n : UInt64) :
    (s.setNonce a n).getCode b = s.getCode b := by
  rw [getCode_eq, world_setNonce]
  exact congrFun (World.view_write rfl (setNonce_code · n) s.world a) b

/-- `CallDB` gives no account code. -/
theorem getCode_callDB {X : Externals} {s t : StateDB} {ctx : TxContext} {a : Address}
    (h : callDB X s ctx = some t) (ha : s.getCode a = []) : t.getCode a = [] := by
  have hclosed : s.world.view (code ·.markSuicided) [] a = s.world.view code [] a := rfl
  rw [getCode_eq] at ha ⊢
  rw [World.view_callDB unseen_code (world_callDB h) a, hclosed, ha, ite_self, ite_self]

end StateDB

/-! ## 2. The call -/

namespace Evm

variable {X : Externals} {α β : Type}

theorem run_bind (p : Evm X α) (f : α → Evm X β) (m : Machine) :
    (p >>= f).run m = (p.run m).bind fun r =>
      ((f r.value).run r.machine).map fun r' => ⟨r'.value, r'.machine, r.trace.append r'.trace⟩ :=
  rfl

theorem run_pure (a : α) (m : Machine) : (pure a : Evm X α).run m = some ⟨a, m, .nil⟩ := rfl

theorem run_getDb (m : Machine) : (getDb : Evm X StateDB).run m = some ⟨m.db, m, .nil⟩ := rfl

theorem run_getCtx (m : Machine) : (getCtx : Evm X TxContext).run m = some ⟨m.ctx, m, .nil⟩ := rfl

theorem run_setCtx (ctx : TxContext) (m : Machine) :
    (setCtx ctx : Evm X Unit).run m = some ⟨(), { m with ctx := ctx }, .nil⟩ := rfl

theorem run_act (a : Action) (m : Machine) :
    (act a : Evm X Unit).run m =
      (actionStep X m.db a).map fun db => ⟨(), { m with db := db }, .act a .nil⟩ := rfl

theorem run_withSnapshot (abandoned : α → Bool) (body : Evm X α) (m : Machine) :
    (withSnapshot abandoned body).run m =
      (body.run { m with db := m.db.snapshot.1 }).bind fun r =>
        ((evmStore X).leave (abandoned r.value) m.db r.machine.db).map fun db =>
          ⟨r.value, { r.machine with db := db }, .scope r.trace (abandoned r.value) .nil⟩ := rfl

theorem run_ofOption (o : Option α) (m : Machine) :
    (ofOption o : Evm X α).run m = o.map fun a => ⟨a, m, .nil⟩ := rfl

section
variable (E : Env) {m : Machine} {dest : Address} (body : Evm E.X Halt) (caller : Address)
  (input : Bytes)
  (gas : UInt64) (value : Nat) (hprecompile : E.precompile dest = none)
    (hcode : m.db.getCode dest = [])
include hprecompile hcode

theorem run_callBody :
    (callBody E body caller dest input gas value).run m =
      (callDB E.X m.db (blockContext E (callContext E m.ctx caller dest value))).map fun db =>
        ⟨{ gas := gas }, ⟨db, blockContext E (callContext E m.ctx caller dest value)⟩,
          .act (.hook caller dest value (blockContext E (callContext E m.ctx caller dest value)))
            .nil⟩ := by
  have hcreate : (createPrecompile E dest).run m = some ⟨(), m, .nil⟩ := by
    simp only [createPrecompile, run_bind, run_getDb, bind_some, hprecompile, isSome_none,
      Bool.false_eq_true, and_false, if_false, run_pure, map_some]
    rfl
  simp only [callBody, run_bind, hcreate, bind_some, run_getCtx, run_setCtx, run_act, actionStep]
  cases hdb : callDB E.X m.db (blockContext E (callContext E m.ctx caller dest value)) with
  | none => rfl
  | some db =>
    simp only [runAccount, hprecompile, run_bind, run_getDb, run_pure, map_some, bind_some,
      getCode_callDB hdb hcode, if_true]
    rfl

theorem run_call (hfunds : ¬ (value ≠ 0 ∧ ¬ canTransfer m.db caller value)) :
    (call E 0 body caller dest input gas value).run m =
      (callDB E.X m.db.snapshot.1 (blockContext E (callContext E m.ctx caller dest value))).map
        fun db =>
        ⟨{ gas := gas }, ⟨db, blockContext E (callContext E m.ctx caller dest value)⟩,
          .scope
            (.act (.hook caller dest value (blockContext E (callContext E m.ctx caller dest value)))
              .nil)
            false .nil⟩ := by
  have hbody :=
    run_callBody E (m := { m with db := m.db.snapshot.1 }) body caller input gas value hprecompile
    hcode
  unfold call
  rw [if_neg (fun h => absurd h.2 (Nat.lt_irrefl 0)), if_neg (by decide)]
  simp only [run_bind, run_getDb, bind_some, if_neg hfunds, run_withSnapshot, hbody]
  cases callDB E.X m.db.snapshot.1 (blockContext E (callContext E m.ctx caller dest value)) with
  | none => rfl
  | some db => rfl

end

/-! ## 3. The transaction -/

/-- What `CallDB` is given for a message to `dest`. -/
def Message.context (E : Env) (msg : Message) (dest : Address) : TxContext where
  fromAddr := msg.fromAddr
  toAddr := some dest
  nonce := msg.nonce
  value := msg.value
  data := msg.data
  pobEpoch := E.pobEpoch.getD 0
  blockNumber := some E.blockNumber

namespace Execution

variable {x : Execution} {s : StateDB} {dest : Address}

/-- No code is run: there is none at the destination. -/
structure Direct (x : Execution) (s : StateDB) (dest : Address) : Prop where
  toAddr : x.msg.toAddr = some dest
  precompile : x.env.precompile dest = none
  code : s.getCode dest = []

/-- The database as `CallDB` finds it: the gas is bought and the nonce increased. -/
def prepared (x : Execution) (s : StateDB) : StateDB :=
  ((s.subBalance x.msg.fromAddr (mgval x.msg)).setNonce x.msg.fromAddr
    ((s.subBalance x.msg.fromAddr (mgval x.msg)).getNonce x.msg.fromAddr + 1)).snapshot.1

/-- What the sender gets back for the gas that is left. -/
def refund (x : Execution) (db : StateDB) (gas : UInt64) : Int :=
  (refunded x.env x.msg db gas).toNat * x.msg.gasPrice

/-- What the coinbase gets for the gas that is used. -/
def fee (x : Execution) (db : StateDB) (gas : UInt64) (tip : Int) : Int :=
  (x.msg.gas - refunded x.env x.msg db gas).toNat * tip

/-- The end of the transaction, on the database that `CallDB` leaves. -/
def settled (x : Execution) (db : StateDB) (gas : UInt64) (tip : Int) : StateDB :=
  (db.addBalance x.msg.fromAddr (x.refund db gas)).addBalance x.env.coinbase (x.fee db gas tip)

/-- What a direct transaction notes of what it does. -/
def directTrace (x : Execution) (s : StateDB) (dest : Address) (refund fee : Int) :
    Scope.Trace Action :=
  .act (.op (.subBalance x.msg.fromAddr (mgval x.msg)))
    (.act (.op (.setNonce x.msg.fromAddr
        ((s.subBalance x.msg.fromAddr (mgval x.msg)).getNonce x.msg.fromAddr + 1)))
      (.scope (.act (.hook x.msg.fromAddr dest x.msg.value (x.msg.context x.env.toEnv dest)) .nil)
        false
        (.act (.op (.addBalance x.msg.fromAddr refund))
          (.act (.op (.addBalance x.env.coinbase fee)) .nil))))

end Execution

variable (E : BlockEnv) (msg : Message) {dest : Address}

theorem context_eq (hto : msg.toAddr = some dest) :
    blockContext E.toEnv (callContext E.toEnv (newEVMTxContext msg) msg.fromAddr dest msg.value) =
      msg.context E.toEnv dest := by
  unfold callContext
  split
  · rfl
  · simp only [newEVMTxContext, hto, blockContext, Message.context]

theorem run_execute (code : Code) (gas : UInt64) {db : StateDB} (hto : msg.toAddr = some dest)
    (hprecompile : E.precompile dest = none) (hcode : db.getCode dest = [])
    (hfunds : ¬ (0 < msg.value ∧ ¬ canTransfer db msg.fromAddr msg.value)) :
    (execute E msg code gas).run ⟨db, newEVMTxContext msg⟩ =
      (callDB E.X (db.setNonce msg.fromAddr (db.getNonce msg.fromAddr + 1)).snapshot.1
          (msg.context E.toEnv dest)).map fun t =>
        ⟨{ gas := gas }, ⟨t, msg.context E.toEnv dest⟩,
          .act (.op (.setNonce msg.fromAddr (db.getNonce msg.fromAddr + 1)))
            (.scope (.act (.hook msg.fromAddr dest msg.value (msg.context E.toEnv dest)) .nil) false
              .nil)⟩ := by
  have hcall := run_call E.toEnv
    (m := ⟨db.setNonce msg.fromAddr (db.getNonce msg.fromAddr + 1), newEVMTxContext msg⟩)
    (exec E.toEnv code dest 1 false) msg.fromAddr msg.data gas msg.value hprecompile
    ((getCode_setNonce _ _ _ _).trans hcode)
      (fun h => hfunds ⟨Nat.pos_of_ne_zero h.1, fun hcan => h.2 ?_⟩)
  · rw [context_eq E msg hto] at hcall
    unfold execute
    rw [hto]
    simp only [run_bind, run_getDb, bind_some, run_act, actionStep, dbStep, map_some,
      invokeCode, invoke, hcall]
    cases callDB E.X (db.setNonce msg.fromAddr (db.getNonce msg.fromAddr + 1)).snapshot.1
      (msg.context E.toEnv dest) with
    | none => rfl
    | some t => rfl
  · rw [canTransfer, getBalance_eq, world_setNonce, World.balanceAt_setNonce]
    exact hcan

variable {E : BlockEnv} {msg : Message} {m : Machine} {gp gas : UInt64}

/-- The settlement that went through. -/
theorem settleGas_eq_some {outcome : Outcome}
    {r : Result (Except TxError (ExecutionResult × UInt64))}
    (h : (settleGas E msg gp outcome).run m = some r) :
    ∃ tip, effectiveTip E msg = some tip ∧
      r.machine.db = (m.db.addBalance msg.fromAddr
        ((refunded E msg m.db outcome.gas).toNat * msg.gasPrice)).addBalance E.coinbase
          ((msg.gas - refunded E msg m.db outcome.gas).toNat * tip) ∧
      r.trace = .act (.op (.addBalance msg.fromAddr
          ((refunded E msg m.db outcome.gas).toNat * msg.gasPrice)))
        (.act
          (.op (.addBalance E.coinbase ((msg.gas - refunded E msg m.db outcome.gas).toNat * tip)))
            .nil) := by
  have h₂ := getDb_bind_eq_some.mp h
  obtain ⟨r₃, r₄, h₃, h₄, rfl⟩ := bind_eq_some.mp h₂
  obtain ⟨db, hdb, rfl⟩ := act_eq_some.mp h₃
  obtain rfl := some.inj hdb
  obtain ⟨r₅, r₆, h₅, h₆, rfl⟩ := bind_eq_some.mp h₄
  obtain ⟨gp', -, rfl⟩ := map_eq_some_iff.mp h₅
  obtain ⟨r₇, r₈, h₇, h₈, rfl⟩ := bind_eq_some.mp h₆
  obtain ⟨tip, htip, rfl⟩ := map_eq_some_iff.mp h₇
  obtain ⟨r₉, r₁₀, h₉, h₁₀, rfl⟩ := bind_eq_some.mp h₈
  obtain ⟨db, hdb, rfl⟩ := act_eq_some.mp h₉
  obtain rfl := some.inj hdb
  obtain rfl := pure_eq_some.mp h₁₀
  exact ⟨tip, htip, rfl, rfl⟩

namespace Execution

variable {x : Execution} {s : StateDB} {r : Result (Except TxError (ExecutionResult × UInt64))}
  {result : ExecutionResult × UInt64}

/-- **A transaction that runs no code is one call of `CallDB`**, between the purchase of the gas and
its settlement. -/
theorem run_of_direct (h : x.Direct s dest) (hrun : x.run s = some r) (hok : r.value = .ok result) :
    ∃ db gas tip, callDB x.env.X (x.prepared s) (x.msg.context x.env.toEnv dest) = some db ∧
      verifyGas x.env x.msg = .ok gas ∧ effectiveTip x.env x.msg = some tip ∧
      r.machine.db = x.settled db gas tip ∧
      r.trace = x.directTrace s dest (x.refund db gas) (x.fee db gas tip) := by
  obtain ⟨r₁, r₂, h₁, h₂, rfl⟩ := bind_eq_some.mp hrun
  split at h₂
  · obtain rfl := pure_eq_some.mp h₂
    cases hok
  next hchecked =>
    obtain ⟨-, rfl⟩ := preCheck_eq_ok h₁ hchecked
    split at h₂
    · obtain rfl := pure_eq_some.mp h₂
      cases hok
    next gas hgas =>
      have h₄ := getDb_bind_eq_some.mp h₂
      split at h₄
      · obtain rfl := pure_eq_some.mp h₄
        cases hok
      next hfunds =>
        obtain ⟨r₅, r₆, h₅, h₆, rfl⟩ := bind_eq_some.mp h₄
        have hcode := (getCode_subBalance s x.msg.fromAddr dest (mgval x.msg)).trans h.code
        rw [run_execute x.env x.msg x.code gas h.toAddr h.precompile hcode hfunds] at h₅
        obtain ⟨db, hdb, rfl⟩ := map_eq_some_iff.mp h₅
        obtain ⟨tip, htip, hsettled, htrace⟩ := settleGas_eq_some h₆
        refine ⟨db, gas, tip, hdb, hgas, htip, hsettled, ?_⟩
        rw [htrace]
        rfl

end Execution

end Evm

end ProbeChain
