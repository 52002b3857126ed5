/-
# Transactions from the pool to the block

A transaction that the pool has accepted is turned into a message by `AsMessage` and executed.
`Inclusion` is one transaction on its way, with the pool that checks it and the block it is executed
in.  The pool is taken to check it on the very state it is executed on, and not to be ahead of the
block.

Between two blocks the state is written to the trie and read again (`nextBlock`).
-/
import ProbeChain.Evm.Direct
import ProbeChain.Pool.VoteLedger

namespace ProbeChain

open Evm Check

/-- `AsMessage`: with a base fee the price is the effective one.  The amounts of a transaction are
not negative. -/
def Transaction.asMessage (tx : Transaction) (sender : Address) (baseFee : Option Nat) :
    Message where
  fromAddr := sender
  toAddr := tx.toAddr
  nonce := tx.nonce
  value := tx.value.toNat
  gas := tx.gas
  gasPrice := (baseFee.elim tx.gasPrice fun fee => min (tx.gasTipCap + fee) tx.gasFeeCap).toNat
  gasFeeCap := some tx.gasFeeCap.toNat
  gasTipCap := some tx.gasTipCap.toNat
  data := tx.data
  accessList := tx.accessList

/-- A transaction on its way: `pool` is the pool but for its state, `code` what the code does that
is run. -/
structure Inclusion where
  pool : Pool
  tx : Transaction
  isLocal : Bool := false
  env : BlockEnv
  code : Code := .halt [] 0 none
  gasPool : UInt64 := 30000000

namespace Inclusion

/-- The pool accepts the transaction on the state it is executed on. -/
def Accepted (x : Inclusion) (s : StateDB) : Prop :=
  ({ x.pool with currentState := s } : Pool).validateTx x.env.X x.tx x.isLocal = .ok () ∧
    x.pool.currentNumber ≤ x.env.blockNumber

instance (x : Inclusion) (s : StateDB) : Decidable (x.Accepted s) :=
  inferInstanceAs (Decidable (_ ∧ _))

def execution (x : Inclusion) (sender : Address) : Execution where
  env := x.env
  msg := x.tx.asMessage sender x.env.baseFee
  code := x.code
  gasPool := x.gasPool

/-- Without a sender there is no message. -/
def apply (x : Inclusion) (s : StateDB) : Option StateDB :=
  x.tx.sender.bind fun sender => (x.execution sender).apply s

end Inclusion

/-- A step of the chain. -/
inductive ChainStep where
  | transaction (x : Inclusion)
  | nextBlock

def ChainStep.apply (s : StateDB) : ChainStep → Option StateDB
  | .transaction x => x.apply s
  | .nextBlock => some (.ofTrie s.shown)

/-- Every transaction is accepted by the pool. -/
def ChainStep.Accepted (s : StateDB) : ChainStep → Prop
  | .transaction x => x.Accepted s
  | .nextBlock => True

instance (s : StateDB) : ∀ y : ChainStep, Decidable (y.Accepted s)
  | .transaction x => inferInstanceAs (Decidable (x.Accepted s))
  | .nextBlock => isTrue trivial

end ProbeChain
