/-
# Packing a transaction

`commitTransaction` of `miner/worker.go`: a snapshot of the state, `ApplyTransaction`, and on an
error a revert to the snapshot.  The environment of the block has more than the state: the gas pool
is not part of the snapshot.

The pool is drawn on when the gas is bought, which is before the intrinsic gas and the funds for the
transfer are checked.  A message that fails there takes its gas out of the block
(`commitTransaction_of_error`).
-/
import ProbeChain.Evm.Nonces

namespace ProbeChain.Evm

open Option

/-- Of a receipt what follows from the result. -/
structure PackedReceipt where
  failed : Bool
  cumulativeGasUsed : UInt64
  gasUsed : UInt64
  deriving DecidableEq

/-- `environment`, with `gasUsed` for that of its header. -/
structure Environment where
  state : StateDB
  gasPool : UInt64
  gasUsed : UInt64 := 0
  txs : List Message := []
  receipts : List PackedReceipt := []

inductive PackError where
  | invalidSender
  | tx (e : TxError)
  deriving DecidableEq

/-- What `ApplyTransaction` leaves and returns. -/
structure Applied where
  state : StateDB
  gasPool : UInt64
  result : Except PackError ExecutionResult

/-- `ApplyTransaction`, for the message of the transaction if its sender can be recovered.  An error
keeps what `preCheck` has left in the gas pool. -/
def applyTransaction (E : BlockEnv) (code : Code) (gp : UInt64) (tx : Option Message)
    (s : StateDB) : Option Applied :=
  match tx with
  | none => some ⟨s, gp, .error .invalidSender⟩
  | some msg => do
    let checked ← (preCheck E msg gp).run ⟨s, newEVMTxContext msg⟩
    let r ← (transitionDb E msg code gp).run ⟨s, newEVMTxContext msg⟩
    match r.value with
    | .error e => some ⟨r.machine.db, checked.value.toOption.getD gp, .error (.tx e)⟩
    | .ok (result, gp') => some ⟨r.machine.db.finalise, gp', .ok result⟩

namespace Environment

/-- The environment, and the error if there is one. -/
def commitTransaction (w : Environment) (E : BlockEnv) (code : Code) (tx : Option Message) :
    Option (Environment × Option PackError) := do
  let (state, snap) := w.state.snapshot
  let applied ← applyTransaction E code w.gasPool tx state
  match applied.result with
  | .error e =>
    let state ← applied.state.revertToSnapshot snap
    return ({ w with state := state, gasPool := applied.gasPool }, some e)
  | .ok result =>
    let gasUsed := w.gasUsed + result.usedGas
    return ({ state := applied.state, gasPool := applied.gasPool, gasUsed := gasUsed,
              txs := w.txs ++ tx.toList,
              receipts := w.receipts ++ [⟨result.err.isSome, gasUsed, result.usedGas⟩] }, none)

end Environment

/-! ## 1. Errors -/

variable {E : BlockEnv} {msg : Message} {code : Code} {gp : UInt64} {m : Machine} {s : StateDB}
  {e : TxError}

/-- Once the code is executed there is no error any more. -/
theorem settleGas_ne_error {outcome : Outcome}
    {r : Result (Except TxError (ExecutionResult × UInt64))}
    (hrun : (settleGas E msg gp outcome).run m = some r) : r.value ≠ .error e := by
  obtain ⟨_, _, -, h₁, rfl⟩ := bind_eq_some.mp hrun
  obtain ⟨_, _, -, h₂, rfl⟩ := bind_eq_some.mp h₁
  obtain ⟨_, _, -, h₃, rfl⟩ := bind_eq_some.mp h₂
  obtain ⟨_, _, -, h₄, rfl⟩ := bind_eq_some.mp h₃
  obtain ⟨_, _, -, h₅, rfl⟩ := bind_eq_some.mp h₄
  obtain rfl := pure_eq_some.mp h₅
  exact nofun

/-- An error comes before the gas is bought, or right after it. -/
theorem transitionDb_eq_error {r : Result (Except TxError (ExecutionResult × UInt64))}
    {checked : Result (Except TxError UInt64)} (hchecked : (preCheck E msg gp).run m = some checked)
    (hrun : (transitionDb E msg code gp).run m = some r) (herror : r.value = .error e) :
    r.machine.db = m.db ∧ checked.value.toOption.getD gp = gp ∧ ¬ Purchasable E msg gp m.db ∨
      r.machine.db = m.db.subBalance msg.fromAddr (mgval msg) ∧
      checked.value.toOption.getD gp = gp - msg.gas ∧
        Purchasable E msg gp m.db := by
  obtain ⟨r₁, r₂, h₁, h₂, rfl⟩ := bind_eq_some.mp hrun
  obtain rfl := some.inj (hchecked.symm.trans h₁)
  obtain ⟨e, rfl, hrefused⟩ | ⟨rfl, hbought⟩ := preCheck_eq_some hchecked
  · obtain rfl := pure_eq_some.mp h₂
    exact .inl ⟨rfl, rfl, hrefused⟩
  · refine .inr ⟨?_, rfl, hbought⟩
    dsimp only at h₂
    split at h₂
    · obtain rfl := pure_eq_some.mp h₂
      rfl
    · obtain ⟨r₃, r₄, h₃, h₄, rfl⟩ := bind_eq_some.mp h₂
      obtain rfl := some.inj h₃
      split at h₄
      · obtain rfl := pure_eq_some.mp h₄
        rfl
      · obtain ⟨r₅, r₆, -, h₆, rfl⟩ := bind_eq_some.mp h₄
        exact (settleGas_ne_error h₆ herror).elim

/-! ## 2. The environment after an error -/

theorem purchasable_snapshot :
    Purchasable E msg gp s.snapshot.1 ↔ Purchasable E msg gp s :=
  ⟨fun h => ⟨h.nonce, h.fees, h.funds, h.gas⟩, fun h => ⟨h.nonce, h.fees, h.funds, h.gas⟩⟩

/-- What is left where `ApplyTransaction` fails: a state that goes back, and the gas pool. -/
theorem applyTransaction_of_error {tx : Option Message}
    {applied : Applied} {e : PackError} (A : Set Address)
    (happlied : applyTransaction E code gp tx s.snapshot.1 = some applied)
    (herror : applied.result = .error e) :
    StateDB.Since A s applied.state ∧
      (applied.gasPool = gp ↔ ∀ msg ∈ tx, ¬ Purchasable E msg gp s ∨ msg.gas = 0) := by
  have hstart := StateDB.since_snapshot A s
  cases tx with
  | none =>
    cases happlied
    exact ⟨hstart, by simp⟩
  | some msg =>
    obtain ⟨checked, hchecked, happlied⟩ := bind_eq_some_iff.mp happlied
    obtain ⟨r, hrun, happlied⟩ := bind_eq_some_iff.mp happlied
    cases hvalue : r.value with
    | ok result =>
      rw [hvalue] at happlied
      cases happlied
      cases herror
    | error e =>
      rw [hvalue] at happlied
      cases happlied
      simp only [mem_some_iff, forall_eq']
      rw [← purchasable_snapshot]
      obtain ⟨hdb, hgp, hrefused⟩ | ⟨hdb, hgp, hbought⟩ :=
        transitionDb_eq_error hchecked hrun hvalue
      · exact ⟨hdb ▸ hstart, by simp [hgp, hrefused]⟩
      · refine ⟨hdb ▸ hstart.of_undoes (StateDB.undoes_subBalance _ _ _), ?_⟩
        -- what was bought is gone from the pool
        rw [hgp, UInt64.sub_eq_iff_eq_add, UInt64.left_eq_add]
        simp [hbought]

/-- **After an error** the state, the gas used and the receipts are as before, and the gas pool is
exactly if the transaction has no sender, its gas could not be bought, or it is for no gas. -/
theorem commitTransaction_of_error (w : Environment) (E : BlockEnv) (code : Code)
    (tx : Option Message) {applied : Applied} {e : PackError}
    (happlied : applyTransaction E code w.gasPool tx w.state.snapshot.1 = some applied)
    (herror : applied.result = .error e) :
    ∃ w', w.commitTransaction E code tx = some (w', some e) ∧
      (w'.state.stateObjects = w.state.stateObjects ∧ w'.state.refund = w.state.refund ∧
        w'.state.logs = w.state.logs ∧ w'.state.logSize = w.state.logSize) ∧
      w'.gasUsed = w.gasUsed ∧ w'.receipts = w.receipts ∧
      (w'.gasPool = w.gasPool ↔ ∀ msg ∈ tx, ¬ Purchasable E msg w.gasPool w.state ∨
        msg.gas = 0) := by
  obtain ⟨hsince, hpool⟩ :=
    applyTransaction_of_error {a | w.state.getStateObject a = none} happlied herror
  obtain ⟨state, hrevert, hsame⟩ := hsince.exists_revert
  refine ⟨{ w with state := state, gasPool := applied.gasPool }, ?_, hsame, rfl, rfl, hpool⟩
  have hsnap : w.state.snapshot.2 = w.state.nextRevisionId := rfl
  simp only [Environment.commitTransaction, happlied, bind_eq_bind, bind_some, herror,
    hsnap, hrevert]
  rfl

/-- Account `1` has five units, and there is gas for one transaction. -/
def smallBlock : Environment where
  state := .ofAccounts [(1, .ofBalance 5)]
  gasPool := 60000

/-- The attempt to send seven of them. -/
def overdraft (nonce : UInt64) : Execution := plainExecution 1 (some 2) nonce 7 []

/-- With a nonce that is too high nothing is bought. -/
theorem commitTransaction_of_nonceTooHigh : ∃ w',
    smallBlock.commitTransaction (overdraft 1).env (overdraft 1).code (some (overdraft 1).msg) =
      some (w', some (.tx (.nonceTooHigh 1 1 0))) ∧ w'.gasPool = 60000 := by
  obtain ⟨w', hcommit, -, -, -, hpool⟩ :=
    commitTransaction_of_error smallBlock (overdraft 1).env (overdraft 1).code
    (some (overdraft 1).msg) rfl rfl
  refine ⟨w', hcommit, hpool.mpr fun msg hmsg => .inl fun h => ?_⟩
  cases hmsg
  exact absurd h.nonce (by decide +kernel)

/-- With the right nonce all the gas of the block is gone. -/
theorem commitTransaction_of_overdraft :
    (smallBlock.commitTransaction (overdraft 0).env (overdraft 0).code (some (overdraft 0).msg)).map
      (fun r => (r.1.gasPool, r.2)) = some (0, some (.tx (.insufficientFundsForTransfer 1))) := by
  decide +kernel

end ProbeChain.Evm
