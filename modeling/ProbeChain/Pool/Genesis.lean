/-
# The genesis block

The state of `ToBlock` of `core/genesis.go`.  An account of the genesis block has code, storage, a
balance and a nonce, and nothing else: whatever is not seen of these looks as if there were no
account (`view_genesisState`).
-/
import ProbeChain.Evm.Leftover

namespace ProbeChain

open StateObject World StateDB

/-! ## 1. Accounts -/

/-- An account of the genesis block. -/
structure GenesisAccount where
  code : Bytes := []
  storage : List (Hash × Hash) := []
  balance : Int
  nonce : UInt64 := 0

/-- `InitValidatorListAccount`: an empty list of candidates. -/
def StateDB.initValidatorListAccount (s : StateDB) : StateDB :=
  let (s, o) := s.getOrCreateObject specialAddressForDPoS .dpos
  s.setStateObject specialAddressForDPoS { o with validatorListAccount := { roundId := 0 } }

def GenesisAccount.allocate (X : Externals) (s : StateDB) (addr : Address)
    (account : GenesisAccount) :
    StateDB :=
  let s := if account.code = [] then s else s.createContractAccount addr
  let s := s.addBalance addr account.balance
  let s := s.setCode addr (X.keccak256 account.code) account.code
  let s := s.setNonce addr account.nonce
  account.storage.foldl (fun s p => s.setState addr p.1 p.2) s

/-- The state of `ToBlock`, with the validator list made twice as the source does.  The accounts
come in any order: they are a map in the source. -/
def genesisState (X : Externals) (pob : Bool) (alloc : List (Address × GenesisAccount)) : StateDB :=
  let s : StateDB := .ofAccounts []
  let s := if pob then s.initValidatorListAccount.initValidatorListAccount else s
  (alloc.foldl (fun s p => p.2.allocate X s p.1) s).finalise

/-! ## 2. What is not seen -/

/-- What an account of the genesis block is given is not seen. -/
structure StateObject.Ungiven {β : Type} (g : StateObject → β) (d : β) :
    Prop extends Cashless g d where
  code : ∀ o codeHash c, g (o.setCode codeHash c) = g o
  nonce : ∀ o n, g (o.setNonce n) = g o
  storage : ∀ o key value, g (o.setState key value) = g o
  validatorList : ∀ o l, g { o with validatorListAccount := l } = g o
  contract : g (new .contract) = d
  dpos : g (new .dpos) = d
  finalise : ∀ o, g o.finalise = g o

section
variable {β : Type} {g : StateObject → β} {d : β} (hg : Ungiven g d) (s : StateDB)
include hg

theorem view_initValidatorListAccount :
    s.initValidatorListAccount.world.view g d = s.world.view g d := by
  have hworld := world_writeOrCreate s specialAddressForDPoS .dpos
    (f := fun o => { o with validatorListAccount := { roundId := 0 } }) rfl fun _ => rfl
  refine (congrArg (view g d) hworld).trans (view_put_of_eq ?_)
  rw [hg.validatorList, view]
  cases s.world specialAddressForDPoS with
  | none => exact hg.dpos
  | some o => rfl

theorem view_storage (addr : Address) (l : List (Hash × Hash)) :
    (l.foldl (fun s p => s.setState addr p.1 p.2) s).world.view g d = s.world.view g d := by
  induction l generalizing s with
  | nil => rfl
  | cons p l ih =>
    rw [List.foldl_cons, ih, world_setState]
    exact view_write hg.regular (fun o => hg.storage o p.1 p.2) s.world addr

theorem view_createContractAccount {a : Address} (ha : s.world.view g d a = d) :
    (s.createContractAccount a).world.view g d = s.world.view g d := by
  rw [world_createContractAccount]
  refine view_put_of_eq ?_
  rw [hg.balance, hg.contract, ha]

theorem view_allocate (X : Externals) (addr : Address) (account : GenesisAccount)
    (haddr : s.world.view g d addr = d) :
    (account.allocate X s addr).world.view g d = s.world.view g d := by
  have hcontract : (if account.code = [] then s else s.createContractAccount addr).world.view g d =
      s.world.view g d := by
    split
    · rfl
    · exact view_createContractAccount hg s haddr
  rw [GenesisAccount.allocate, view_storage hg, world_setNonce, world_setCode,
    world_addBalance, ← hcontract]
  refine (view_write hg.regular (hg.nonce · account.nonce) _ addr).trans ?_
  refine (view_write hg.regular
    (fun o => hg.code o (X.keccak256 account.code) account.code) _ addr).trans ?_
  exact view_credit hg.toCashless _ addr account.balance

/-- **Of the genesis block nothing else is seen.** -/
theorem view_genesisState (X : Externals) (pob : Bool) (alloc : List (Address × GenesisAccount)) :
    (genesisState X pob alloc).world.view g d = fun _ => d := by
  have halloc : ∀ (l : List (Address × GenesisAccount)) (s : StateDB),
      (s.world.view g d = fun _ => d) →
      (l.foldl (fun s p => p.2.allocate X s p.1) s).world.view g d = fun _ => d := by
    intro l
    induction l with
    | nil => exact fun _ hs => hs
    | cons p l ih =>
      intro s hs
      exact ih _ ((view_allocate hg s X p.1 p.2 (congrFun hs p.1)).trans hs)
  have hempty : (ofAccounts []).world.view g d = fun _ => d := rfl
  have hbefore : (alloc.foldl (fun s p => p.2.allocate X s p.1) (if pob then
      (ofAccounts []).initValidatorListAccount.initValidatorListAccount
        else ofAccounts [])).world.view g d = fun _ => d := by
    refine halloc alloc _ ?_
    split
    · rw [view_initValidatorListAccount hg, view_initValidatorListAccount hg, hempty]
    · exact hempty
  funext a
  rw [genesisState]
  generalize (alloc.foldl (fun s p => p.2.allocate X s p.1) (if pob then
    (ofAccounts []).initValidatorListAccount.initValidatorListAccount
      else ofAccounts [])) = s at hbefore ⊢
  have ha := congrFun hbefore a
  rw [view] at ha ⊢
  rw [world_finalise]
  cases ho : s.world a with
  | none => rfl
  | some o =>
    rw [ho, Option.elim_some] at ha
    rw [Option.bind_some]
    split
    · split
      · rfl
      · exact (hg.finalise o).trans ha
    · exact ha

end

end ProbeChain
