/-
# What an error leaves behind

A call or a creation that returns an error should leave every account as it was, except for the
nonce of the caller.  Reverting is taken to be exact here: where it is not, the fault is that of the
journal, and `State/Revert.lean` is about it.

Calls keep to this.  A creation does not, in two places.  Before the Shenzhen fork an account that
cannot pay the pledge gets an error after the account of the contract has been made, and nothing is
taken back.  And before the Homestead fork a contract whose code cannot be paid for stays where it
is.  `failure_restores_iff` says for which creations this can happen.
-/
import ProbeChain.Evm.Effects

namespace ProbeChain

open Scope StateObject Option World StateDB

/-! ## 1. Attempts -/

namespace World

/-- Everything is as it was, except perhaps the nonce of the caller. -/
def Untouched (caller : Address) (w w' : World) : Prop := w' = w ∨ ∃ n, w' = w.setNonce caller n

end World

namespace Evm

/-- Every scope that is abandoned brings the accounts back.  What is inside of one does not
matter. -/
def RevertsExactly (X : Externals) (trace : Trace Action) (s : StateDB) : Prop :=
  trace.Along (evmStore X) (fun _ _ => True)
    (Trace.GoesBack (evmStore X) fun s u => u.world = s.world) s

section
variable {X : Externals} {α β : Type} {m : Machine}

theorem world_of_abandoned {abandoned : α → Bool} {p : Evm X α} {r : Result α}
    (h : (withSnapshot abandoned p).run m = some r) (hab : abandoned r.value = true)
    (hback : RevertsExactly X r.trace m.db) : r.machine.db.world = m.db.world := by
  obtain ⟨r₁, db, h₁, hleave, rfl⟩ := withSnapshot_eq_some.mp h
  have hgoes := hback.1 hab
  refine hgoes r₁.machine.db db (p.traced h₁) ?_
  rw [hab] at hleave
  exact hleave

theorem RevertsExactly.left {p q : Trace Action} {s : StateDB}
    (h : RevertsExactly X (p.append q) s) :
    RevertsExactly X p s := (Trace.along_append.mp h).1

theorem RevertsExactly.right {p q : Trace Action} {s t : StateDB}
    (h : RevertsExactly X (p.append q) s) (ht : p.run (evmStore X) s = some t) :
    RevertsExactly X q t := (Trace.along_append.mp h).2 t ht

theorem settle_err (o : Outcome) : o.settle.err = o.err := by
  unfold Outcome.settle
  split <;> simp_all

/-- If the program fails, it has changed nothing. -/
def Restores (p : Evm X Outcome) : Prop :=
  ∀ m r, p.run m = some r → r.value.err ≠ none → RevertsExactly X r.trace m.db →
    r.machine.db.world = m.db.world

theorem restores_pure (o : Outcome) : Restores (pure o : Evm X Outcome) := by
  intro m r h _ _
  obtain rfl := pure_eq_some.mp h
  rfl

theorem Restores.ite {c : Prop} [Decidable c] {p q : Evm X Outcome} (hp : Restores p)
    (hq : Restores q) : Restores (if c then p else q) := by
  split
  · exact hp
  · exact hq

theorem restores_getDb_bind {f : StateDB → Evm X Outcome} (hf : ∀ db, Restores (f db)) :
    Restores (getDb >>= f) := by
  intro m r h herr hback
  exact hf m.db m r (getDb_bind_eq_some.mp h) herr hback

/-- What is tried under a snapshot and fails has not happened. -/
theorem restores_attempt (p : Evm X Outcome) :
    Restores (do
      let outcome ← withSnapshot (fun o => o.err.isSome) p
      pure outcome.settle : Evm X Outcome) := by
  intro m r h herr hback
  obtain ⟨r₁, r₂, h₁, h₂, rfl⟩ := bind_eq_some.mp h
  obtain rfl := pure_eq_some.mp h₂
  dsimp only at herr hback ⊢
  rw [settle_err] at herr
  exact world_of_abandoned h₁ (isSome_iff_ne_none.mpr herr) hback.left

end

variable {E : Env} (depth : Nat) (body : Evm E.X Halt) (caller addr : Address) (input : Bytes)
  (gas : UInt64) (value : Nat)

/-- **A call that fails has not happened.** -/
theorem restores_call : Restores (call E depth body caller addr input gas value) := by
  refine Restores.ite (restores_pure _) (Restores.ite (restores_pure _) ?_)
  exact restores_getDb_bind fun db => Restores.ite (restores_pure _) (restores_attempt _)

theorem restores_callCode : Restores (callCode E depth body caller addr input gas value) := by
  refine Restores.ite (restores_pure _) (Restores.ite (restores_pure _) ?_)
  exact restores_getDb_bind fun db => Restores.ite (restores_pure _) (restores_attempt _)

theorem restores_delegateCall : Restores (delegateCall E depth body addr input gas) :=
  Restores.ite (restores_pure _) (Restores.ite (restores_pure _) (restores_attempt _))

theorem restores_staticCall : Restores (staticCall E depth body addr input gas) :=
  Restores.ite (restores_pure _) (Restores.ite (restores_pure _) (restores_attempt _))

/-! ## 2. Creations -/

variable (E : Env)

/-- What `create` puts at the address of the contract to be. -/
def openedObject (balance : Int) : StateObject :=
  let o := (new .contract).setBalance balance
  if E.rules.isEIP158 then o.setNonce 1 else o

def opened (w : World) (a : Address) : World := w.put a (openedObject E (w.balanceAt a))

def openDB (s : StateDB) (a : Address) : StateDB :=
  let s := s.createContractAccount a
  if E.rules.isEIP158 then s.setNonce a 1 else s

theorem world_openDB (s : StateDB) (a : Address) : (openDB E s a).world = opened E s.world a := by
  unfold openDB opened openedObject
  split
  · rw [world_setNonce, world_createContractAccount, World.setNonce,
      openContract, put_self, put_put]
    rfl
  · rw [world_createContractAccount]
    rfl

theorem run_openAccount (m : Machine) (a : Address) : ∃ trace : Trace Action, trace.Flat ∧
    (openAccount E a).run m = some ⟨(), ⟨openDB E m.db a, m.ctx⟩, trace⟩ := by
  unfold openAccount openDB
  by_cases h : E.rules.isEIP158
  · simp only [h, if_true]
    exact ⟨.act _ (.act _ .nil), trivial, rfl⟩
  · simp only [h]
    exact ⟨.act _ .nil, trivial, rfl⟩

/-- The creator cannot pay the pledge. -/
def Short (s : StateDB) (caller : Address) : Prop :=
  E.rules.isShenzhen = false ∧ s.getBalance caller < AccountType.contract.pledge

/-- The account at the address is already what a creation makes of it, up to the nonce that a
creator may gain in creating itself. -/
def AlreadyOpen (w : World) (caller a : Address) : Prop :=
  ∃ o, w a = some o ∧ (o = openedObject E o.balance ∨
    a = caller ∧ ∃ n, o.setNonce n = openedObject E o.balance)

/-- **The creations that cannot fail and leave something behind.** -/
def CreationRestores (m : Machine) (depth : Nat) (caller : Address) (code : Bytes) (value : Nat)
    (a : Address) : Prop :=
  callCreateDepth < depth ∨ ¬ canTransfer m.db caller value ∨
  collides (m.db.setNonce caller (m.db.getNonce caller + 1)) a ∨
  (Short E m.db caller ∧ AlreadyOpen E m.db.world caller a) ∨
  (¬ Short E m.db caller ∧ (E.rules.isHomestead ∨ code = [] ∨ (E.noRecursion ∧ 0 < depth) ∨
    -- the hook panics
    (E.rules.isShenzhen ∧
      (opened E (m.db.world.setNonce caller (m.db.getNonce caller + 1)) a).callDB
      E.X (callContext E m.ctx caller a value) = none)))

section
variable {E : Env} {a : Address} {m : Machine} {r : Result Outcome}

theorem balance_openedObject (v : Int) : (openedObject E v).balance = v := by
  unfold openedObject
  split
  · rw [balance_setNonce]
    rfl
  · rfl

theorem accountType_openedObject (v : Int) : (openedObject E v).accountType = .contract := by
  unfold openedObject
  split <;> rfl

theorem balanceAt_opened (w : World) (a b : Address) :
    (opened E w a).balanceAt b = w.balanceAt b := by
  unfold opened
  by_cases hb : b = a
  · subst hb
    unfold balanceAt
    rw [put_self, elim_some, balance_openedObject]
  · unfold balanceAt
    rw [put_of_ne _ _ hb]

theorem getBalance_openDB (s : StateDB) (a caller : Address) :
    (openDB E s a).getBalance caller = s.getBalance caller := by
  rw [getBalance_eq, world_openDB, balanceAt_opened]
  rfl

theorem storeCode_err {halt : Halt} (h : (storeCode E a halt).run m = some r) :
    r.value.err ≠ some .depositNotEnough ∧
      (r.value.err = some .codeStoreOutOfGas → halt.ret ≠ []) := by
  unfold storeCode at h
  dsimp only at h
  split at h
  · obtain rfl := pure_eq_some.mp h
    exact ⟨by simp, fun h => by simp at h⟩
  · split at h
    · obtain rfl := pure_eq_some.mp h
      exact ⟨by simp, fun h => by simp at h⟩
    · split at h
      · obtain rfl := pure_eq_some.mp h
        exact ⟨by simp, fun h => by simp at h⟩
      · split at h
        · obtain ⟨r₁, r₂, -, h₂, rfl⟩ := bind_eq_some.mp h
          obtain rfl := pure_eq_some.mp h₂
          exact ⟨by simp, fun h => by simp at h⟩
        next hgas =>
          obtain rfl := pure_eq_some.mp h
          refine ⟨by simp, fun _ hnil => hgas ?_⟩
          -- storing nothing costs nothing
          rw [hnil]
          simp

/-- On the Shenzhen fork a creation is paid for by the hook. -/
theorem run_payCreation_hook (h : E.rules.isShenzhen = true) (caller a : Address) (value : Nat)
    (m : Machine) :
    (payCreation E caller a value).run m =
      (callDB E.X m.db (callContext E m.ctx caller a value)).map fun db =>
        ⟨none, ⟨db, callContext E m.ctx caller a value⟩,
          .act (.hook caller a value (callContext E m.ctx caller a value)) .nil⟩ := by
  unfold payCreation
  rw [if_pos h]
  show Option.map _ (Option.map _ (Option.bind (Option.map _
    (callDB E.X m.db (callContext E m.ctx caller a value))) _)) = _
  cases callDB E.X m.db (callContext E m.ctx caller a value) with
  | none => rfl
  | some db => rfl

/-- Before, by the pledge, if there is enough for it. -/
theorem run_payCreation_pledge (h : E.rules.isShenzhen = false) (caller a : Address) (value : Nat)
    (m : Machine) :
    (payCreation E caller a value).run m =
      if m.db.getBalance caller < AccountType.contract.pledge then
        some ⟨some .depositNotEnough, m, .nil⟩
      else some ⟨none, ⟨m.db.subBalance caller AccountType.contract.pledge, m.ctx⟩,
        .act (.op (.subBalance caller AccountType.contract.pledge)) .nil⟩ := by
  have hpledge : (1 : Int) ≤ AccountType.contract.pledge := by decide
  unfold payCreation contractDeploy
  rw [if_neg (by simp [h])]
  by_cases hshort : m.db.getBalance caller < AccountType.contract.pledge
  · rw [if_pos hshort]
    show Option.map _ ((if _ then _ else _ : Evm E.X (Option VMError)).run m) = _
    rw [if_pos (.inr hshort)]
    rfl
  · rw [if_neg hshort]
    show Option.map _ ((if _ then _ else _ : Evm E.X (Option VMError)).run m) = _
    rw [if_neg (show ¬ (m.db.getBalance caller < 1 ∨
      m.db.getBalance caller < AccountType.contract.pledge) by omega)]
    rfl

/-- What runs after the payment. -/
theorem runCreation_err {depth : Nat} {body : Evm E.X Halt} {code : Bytes} {gas : UInt64}
    (h : (runCreation E depth body code gas a).run m = some r) :
    r.value.err ≠ some .depositNotEnough ∧ (r.value.err = some .codeStoreOutOfGas →
      code ≠ [] ∧ ¬ (E.noRecursion ∧ 0 < depth)) := by
  unfold runCreation at h
  split at h
  · obtain rfl := pure_eq_some.mp h
    exact ⟨by simp, fun h => by simp at h⟩
  next hrec =>
    split at h
    · obtain ⟨hdeposit, hgas⟩ := storeCode_err h
      exact ⟨hdeposit, fun herr => absurd rfl (hgas herr)⟩
    next hcode =>
      obtain ⟨r₁, r₂, -, h₂, rfl⟩ := bind_eq_some.mp h
      exact ⟨(storeCode_err h₂).1, fun _ => ⟨hcode, hrec⟩⟩

/-- **The two ways in which the inside of a creation can fail and not be taken back.** -/
theorem createBody_err {depth : Nat} {body : Evm E.X Halt} {caller : Address} {code : Bytes}
    {gas : UInt64} {value : Nat}
    (h : (createBody E depth body caller code gas value a).run m = some r) :
    (r.value.err = some .depositNotEnough →
      Short E m.db caller ∧ r.machine.db = openDB E m.db a) ∧
    (r.value.err = some .codeStoreOutOfGas →
      ¬ Short E m.db caller ∧ code ≠ [] ∧ ¬ (E.noRecursion ∧ 0 < depth) ∧
      (E.rules.isShenzhen → (opened E m.db.world a).callDB E.X
        (callContext E m.ctx caller a value) ≠ none)) := by
  obtain ⟨r₁, r₂, h₁, h₂, rfl⟩ := bind_eq_some.mp h
  obtain ⟨trace, -, hopen⟩ := run_openAccount E m a
  obtain rfl := some.inj (hopen.symm.trans h₁)
  obtain ⟨r₃, r₄, h₃, h₄, rfl⟩ := bind_eq_some.mp h₂
  cases hshenzhen : E.rules.isShenzhen with
  | true =>
    rw [run_payCreation_hook hshenzhen] at h₃
    obtain ⟨db, hdb, rfl⟩ := map_eq_some_iff.mp h₃
    obtain ⟨hdeposit, hgas⟩ := runCreation_err h₄
    refine ⟨fun herr => absurd herr hdeposit, fun herr => ⟨fun hshort => ?_, (hgas herr).1,
      (hgas herr).2, fun _ hpanic => ?_⟩⟩
    · rw [Short, hshenzhen] at hshort
      exact absurd hshort.1 (by simp)
    · have hworld := world_callDB hdb
      rw [world_openDB, hpanic] at hworld
      cases hworld
  | false =>
    rw [run_payCreation_pledge hshenzhen, getBalance_openDB] at h₃
    split at h₃
    next hshort =>
      obtain rfl := some.inj h₃
      obtain rfl := pure_eq_some.mp h₄
      exact ⟨fun _ => ⟨⟨hshenzhen, hshort⟩, rfl⟩, fun herr => by simp at herr⟩
    next hpaid =>
      obtain rfl := some.inj h₃
      obtain ⟨hdeposit, hgas⟩ := runCreation_err h₄
      exact ⟨fun herr => absurd herr hdeposit, fun herr => ⟨fun hshort => hpaid hshort.2,
        (hgas herr).1, (hgas herr).2, fun h => by simp at h⟩⟩

end

section
variable {E : Env} {caller a : Address}

theorem short_setNonce (s : StateDB) (caller b : Address) (n : UInt64) :
    Short E (s.setNonce b n).snapshot.1 caller ↔ Short E s caller := by
  have hbalance : (s.setNonce b n).snapshot.1.getBalance caller = s.getBalance caller := by
    show (s.setNonce b n).world.balanceAt caller = s.world.balanceAt caller
    rw [world_setNonce, balanceAt_setNonce]
  rw [Short, Short, hbalance]

/-- The errors after which a creation is not taken back. -/
theorem createAbandoned_eq_false {o : Outcome} (herr : o.err ≠ none)
    (h : createAbandoned E o = false) :
    o.err = some .depositNotEnough ∨
      o.err = some .codeStoreOutOfGas ∧ E.rules.isHomestead = false := by
  unfold createAbandoned at h
  split at h
  · exact absurd ‹_› herr
  · exact .inl ‹_›
  · exact .inr ⟨‹_›, h⟩
  · cases h

theorem settleCreate_err (o : Outcome) : (settleCreate E o).err = o.err := by
  unfold settleCreate
  split
  · exact settle_err o
  · rfl

/-- Making an account where one like it is already changes nothing. -/
theorem untouched_opened_iff (w : World) (n : UInt64) :
    World.Untouched caller w (opened E (w.setNonce caller n) a) ↔ AlreadyOpen E w caller a := by
  have hopened : opened E (w.setNonce caller n) a =
      (w.setNonce caller n).put a (openedObject E (w.balanceAt a)) := by
    rw [opened, balanceAt_setNonce]
  rw [hopened]
  constructor
  · rintro (heq | ⟨k, heq⟩)
    · have ha := congrFun heq a
      rw [put_self] at ha
      exact ⟨_, ha.symm, .inl (by rw [balance_openedObject])⟩
    · have ha := congrFun heq a
      rw [put_self] at ha
      by_cases hcaller : a = caller
      · subst hcaller
        rw [World.setNonce, World.put_self] at ha
        cases ho : w a with
        | none =>
          -- a missing creator becomes a Regular account, not a Contract one
          rw [ho] at ha
          have htype := congrArg (Option.map StateObject.accountType) ha
          rw [map_some, map_some, accountType_openedObject] at htype
          cases htype
        | some o =>
          rw [ho, balanceAt, ho] at ha
          exact ⟨o, ho, .inr ⟨rfl, k, (some.inj ha).symm⟩⟩
      · rw [World.setNonce, World.put_of_ne _ _ hcaller] at ha
        exact ⟨_, ha.symm, .inl (by rw [balance_openedObject])⟩
  · rintro ⟨o, ho, hopen⟩
    rw [balanceAt_of_some ho]
    by_cases hcaller : a = caller
    · subst hcaller
      rw [World.setNonce, World.put_put]
      rcases hopen with heq | ⟨-, k, heq⟩
      · exact .inl (by rw [← heq]; exact put_eq_self ho)
      · exact .inr ⟨k, by rw [← heq, World.setNonce, ho]; rfl⟩
    · rcases hopen with heq | ⟨heq, -⟩
      · refine .inr ⟨n, put_eq_self ?_⟩
        rw [World.setNonce, World.put_of_ne _ _ hcaller, ho, ← heq]
      · exact absurd heq hcaller

/-- **Where it is safe, a creation that fails has at most raised the nonce.** -/
theorem untouched_of_create {depth : Nat} {body : Evm E.X Halt} {code : Bytes} {gas : UInt64}
    {value : Nat} {m : Machine} {r : Result Outcome}
    (hsafe : CreationRestores E m depth caller code value a)
    (h : (create E depth body caller code gas value a).run m = some r) (herr : r.value.err ≠ none)
    (hback : RevertsExactly E.X r.trace m.db) :
    World.Untouched caller m.db.world r.machine.db.world := by
  unfold create at h
  split at h
  · obtain rfl := pure_eq_some.mp h
    exact .inl rfl
  next hdepth =>
    have h₂ := getDb_bind_eq_some.mp h
    split at h₂
    · obtain rfl := pure_eq_some.mp h₂
      exact .inl rfl
    next htransfer =>
      obtain ⟨r₃, r₄, h₃, h₄, rfl⟩ := bind_eq_some.mp h₂
      obtain ⟨db, hdb, rfl⟩ := act_eq_some.mp h₃
      obtain rfl := some.inj hdb
      have h₆ := getDb_bind_eq_some.mp h₄
      have hnonce : (m.db.setNonce caller (m.db.getNonce caller + 1)).world =
          m.db.world.setNonce caller (m.db.getNonce caller + 1) := world_setNonce _ _ _
      split at h₆
      · obtain rfl := pure_eq_some.mp h₆
        exact .inr ⟨_, hnonce⟩
      next hcollides =>
        obtain ⟨r₇, r₈, h₇, h₈, rfl⟩ := bind_eq_some.mp h₆
        obtain rfl := pure_eq_some.mp h₈
        rw [settleCreate_err] at herr
        cases hab : createAbandoned E r₇.value with
        | true =>
          refine .inr ⟨_, (world_of_abandoned h₇ hab ?_).trans hnonce⟩
          exact RevertsExactly.left (hback.right (p := .act _ .nil) rfl)
        | false =>
          -- not taken back: the deposit was missing, or the code could not be paid for
          obtain ⟨r₀, db, h₀, hleave, rfl⟩ := withSnapshot_eq_some.mp h₇
          rw [hab] at hleave
          obtain rfl := some.inj hleave
          obtain ⟨hdeposit, hgas⟩ := createBody_err h₀
          have hshort := short_setNonce (E := E) m.db caller caller (m.db.getNonce caller + 1)
          have hsafe := ((hsafe.resolve_left hdepth).resolve_left htransfer).resolve_left hcollides
          rcases createAbandoned_eq_false herr hab with heq | ⟨heq, hhomestead⟩
          · obtain ⟨hs, hdb⟩ := hdeposit heq
            rw [hdb, world_openDB]
            rcases hsafe with ⟨-, hopen⟩ | ⟨hpaid, -⟩
            · show World.Untouched caller m.db.world
                (opened E (m.db.setNonce caller (m.db.getNonce caller + 1)).world a)
              rw [hnonce]
              exact (untouched_opened_iff _ _).mpr hopen
            · exact absurd (hshort.mp hs) hpaid
          · obtain ⟨hpaid, hcode, hrec, hpanic⟩ := hgas heq
            rcases hsafe with ⟨hs, -⟩ | ⟨-, hh | hempty | hnorec | ⟨hshenzhen, hnone⟩⟩
            · exact absurd (hshort.mpr hs) hpaid
            · rw [hhomestead] at hh
              cases hh
            · exact absurd hempty hcode
            · exact absurd hnorec hrec
            · refine absurd ?_ (hpanic hshenzhen)
              show (opened E (m.db.setNonce caller (m.db.getNonce caller + 1)).world a).callDB _ _ =
                _
              rw [hnonce]
              exact hnone

end

/-! ## 3. Creations that leave something behind -/

variable {E : Env} {depth : Nat} {body : Evm E.X Halt} {caller a : Address} {code : Bytes}
  {gas : UInt64}
  {value : Nat} {m : Machine}

/-- A creation that gets past its checks and is not taken back. -/
theorem create_eq_some (hdepth : ¬ callCreateDepth < depth)
    (htransfer : canTransfer m.db caller value)
    (hcollides : ¬ collides (m.db.setNonce caller (m.db.getNonce caller + 1)) a)
    {r₀ : Result Outcome} (h₀ : (createBody E depth body caller code gas value a).run
      ⟨(m.db.setNonce caller (m.db.getNonce caller + 1)).snapshot.1, m.ctx⟩ = some r₀)
    (hab : createAbandoned E r₀.value = false) :
    (create E depth body caller code gas value a).run m = some ⟨settleCreate E r₀.value, r₀.machine,
      .act (.op (.setNonce caller (m.db.getNonce caller + 1))) (.scope r₀.trace false .nil)⟩ := by
  have hscope :
      (withSnapshot (createAbandoned E) (createBody E depth body caller code gas value a)).run
      ⟨m.db.setNonce caller (m.db.getNonce caller + 1), m.ctx⟩ =
        some ⟨r₀.value, r₀.machine, .scope r₀.trace false .nil⟩ := by
    refine withSnapshot_eq_some.mpr ⟨r₀, r₀.machine.db, h₀, ?_, ?_⟩
    · rw [hab]
      rfl
    · rw [hab]
  unfold create
  rw [if_neg hdepth]
  refine bind_eq_some.mpr ⟨_, ⟨_, _, _⟩, rfl, ?_, rfl⟩
  rw [if_neg (not_not.mpr htransfer)]
  refine bind_eq_some.mpr ⟨_, ⟨_, _, _⟩, rfl, ?_, rfl⟩
  refine bind_eq_some.mpr ⟨_, ⟨_, _, _⟩, rfl, ?_, rfl⟩
  rw [if_neg hcollides]
  exact bind_eq_some.mpr ⟨_, _, hscope, rfl, rfl⟩

theorem revertsExactly_of_flat {X : Externals} {o : DBOp} {trace : Trace Action} (h : trace.Flat)
    (s : StateDB) : RevertsExactly X (.act (.op o) (.scope trace false .nil)) s :=
  ⟨trivial, fun _ _ => ⟨(by simp), fun _ => h.along fun _ _ => trivial, fun _ _ _ _ => trivial⟩⟩

/-- Without the deposit, the account that was made stays. -/
theorem createBody_of_short (hshort : Short E m.db caller) : ∃ r : Result Outcome,
    (createBody E depth body caller code gas value a).run m = some r ∧ r.trace.Flat ∧
    r.value.err = some .depositNotEnough ∧ r.machine.db = openDB E m.db a := by
  obtain ⟨trace, hflat, hopen⟩ := run_openAccount E m a
  have hpay := run_payCreation_pledge hshort.1 caller a value ⟨openDB E m.db a, m.ctx⟩
  rw [if_pos (by rw [getBalance_openDB]; exact hshort.2)] at hpay
  refine ⟨_, bind_eq_some.mpr ⟨_, _, hopen, bind_eq_some.mpr ⟨_, _, hpay, rfl, rfl⟩, rfl⟩,
    ?_, rfl, rfl⟩
  exact hflat.append trivial

/-- A creation that is paid for gets to run its code. -/
theorem payCreation_of_paid (hpaid : ¬ Short E m.db caller)
    (hpanic : E.rules.isShenzhen →
      m.db.world.callDB E.X (callContext E m.ctx caller a value) ≠ none) :
    ∃ m' trace, (payCreation E caller a value).run m = some ⟨none, m', trace⟩ ∧ trace.Flat := by
  cases hshenzhen : E.rules.isShenzhen with
  | true =>
    rw [run_payCreation_hook hshenzhen]
    have hsome : (callDB E.X m.db (callContext E m.ctx caller a value)).isSome := by
      rw [callDB_isSome, isSome_iff_ne_none]
      exact hpanic hshenzhen
    obtain ⟨db, hdb⟩ := isSome_iff_exists.mp hsome
    rw [hdb]
    exact ⟨_, _, rfl, trivial⟩
  | false =>
    rw [run_payCreation_pledge hshenzhen, if_neg fun hshort => hpaid ⟨hshenzhen, hshort⟩]
    exact ⟨_, _, rfl, trivial⟩

/-- Writes to the storage and returns code that cannot be paid for. -/
def writeAndOverspend (key value : Hash) : Code := .sstore key value (.halt [0] 0 none)

theorem storage_setState (s : StateDB) (a : Address) (key value : Hash) :
    ∃ o, (s.setState a key value).world a = some o ∧ o.storage key = value := by
  rw [world_setState, World.setState, World.put_self]
  exact ⟨_, rfl, Function.update_self ..⟩

theorem run_storeCode_overspend (m : Machine) : (storeCode E a { ret := [0], gas := 0 }).run m =
    some ⟨{ ret := [0], contractAddr := a, err := some .codeStoreOutOfGas }, m, .nil⟩ := by
  unfold storeCode
  dsimp only
  rw [if_neg (by simp [maxCodeSize]), if_neg (by simp), if_neg (by decide)]
  rfl

/-- Before Homestead, what the code did stays. -/
theorem createBody_of_overspend (hcode : code ≠ [])
    (hrec : ¬ (E.noRecursion ∧ 0 < depth)) (hpaid : ¬ Short E m.db caller)
    (hpanic : E.rules.isShenzhen →
      (opened E m.db.world a).callDB E.X (callContext E m.ctx caller a value) ≠ none)
    {readOnly : Bool} (hmode : ¬ (readOnly ∧ E.rules.isByzantium)) (key v : Hash) :
    ∃ r : Result Outcome,
    (createBody E depth (exec E (writeAndOverspend key v) a (depth + 1) readOnly) caller
      code gas value
      a).run m = some r ∧ r.trace.Flat ∧ r.value.err = some .codeStoreOutOfGas ∧
    ∃ o, r.machine.db.world a = some o ∧ o.storage key = v := by
  obtain ⟨trace, hflat, hopen⟩ := run_openAccount E m a
  have hbalance : Short E (openDB E m.db a) caller ↔ Short E m.db caller := by
    rw [Short, Short, getBalance_openDB]
  obtain ⟨m', trace', hpay, hflat'⟩ := @payCreation_of_paid E caller a value
    ⟨openDB E m.db a, m.ctx⟩ (fun h => hpaid (hbalance.mp h)) (by rw [world_openDB]; exact hpanic)
  have hexec : (exec E (writeAndOverspend key v) a (depth + 1) readOnly).run m' =
      some ⟨{ ret := [0] }, ⟨m'.db.setState a key v, m'.ctx⟩,
        .act (.op (.setState a key v)) .nil⟩ := by
    unfold writeAndOverspend exec
    rw [if_neg hmode]
    rfl
  have hrun :
      (runCreation E depth (exec E (writeAndOverspend key v) a (depth + 1) readOnly) code gas
      a).run m' = some ⟨{ ret := [0], contractAddr := a, err := some .codeStoreOutOfGas },
        ⟨m'.db.setState a key v, m'.ctx⟩, .act (.op (.setState a key v)) .nil⟩ := by
    unfold runCreation
    rw [if_neg hrec, if_neg hcode]
    exact bind_eq_some.mpr ⟨_, _, hexec, run_storeCode_overspend _, rfl⟩
  refine ⟨_, bind_eq_some.mpr ⟨_, _, hopen, bind_eq_some.mpr ⟨_, _, hpay, hrun, rfl⟩, rfl⟩, ?_, rfl,
    storage_setState m'.db a key v⟩
  exact hflat.append (hflat'.append trivial)

/-- A change of a nonce shows nowhere in the storage. -/
theorem storage_of_untouched {w w' : World} {o : StateObject} (h : World.Untouched caller w w')
    (ho : w' a = some o) : o.storage = ((w a).getD (new .regular)).storage := by
  rcases h with rfl | ⟨n, rfl⟩
  · rw [ho, getD_some]
  · by_cases ha : a = caller
    · subst ha
      rw [World.setNonce, World.put_self] at ho
      rw [← some.inj ho, setNonce_storage]
    · rw [World.setNonce, World.put_of_ne _ _ ha] at ho
      rw [ho, getD_some]

/-- **Where it is not safe, some creation code fails and leaves something behind.** -/
theorem exists_create_leaves {readOnly : Bool} (hmode : ¬ (readOnly ∧ E.rules.isByzantium))
    (h : ¬ CreationRestores E m depth caller code value a) : ∃ (body : Code) (r : Result Outcome),
    (create E depth (exec E body a (depth + 1) readOnly) caller code gas value a).run m = some r ∧
    RevertsExactly E.X r.trace m.db ∧ r.value.err ≠ none ∧
    ¬ World.Untouched caller m.db.world r.machine.db.world := by
  simp only [CreationRestores, not_or, not_not, not_and] at h
  obtain ⟨hdepth, htransfer, hcollides, hopen, hpaid⟩ := h
  have hnonce : (m.db.setNonce caller (m.db.getNonce caller + 1)).snapshot.1.world =
      m.db.world.setNonce caller (m.db.getNonce caller + 1) := world_setNonce _ _ _
  have hshort := short_setNonce (E := E) m.db caller caller (m.db.getNonce caller + 1)
  by_cases hs : Short E m.db caller
  · obtain ⟨r₀, h₀, hflat, herr, hdb⟩ := @createBody_of_short E depth
      (exec E (.halt [] 0 none) a (depth + 1) readOnly) caller a code gas value
      ⟨(m.db.setNonce caller (m.db.getNonce caller + 1)).snapshot.1, m.ctx⟩ (hshort.mpr hs)
    have hab : createAbandoned E r₀.value = false := by rw [createAbandoned, herr]
    refine ⟨_, _, create_eq_some hdepth htransfer hcollides h₀ hab, revertsExactly_of_flat hflat _,
      ?_, ?_⟩
    · rw [settleCreate_err, herr]
      exact some_ne_none _
    · dsimp only
      rw [hdb, world_openDB, hnonce, untouched_opened_iff]
      exact hopen hs
  · obtain ⟨hhomestead, hcode, hrec, hpanic⟩ := hpaid hs
    obtain ⟨r₀, h₀, hflat, herr, o, ho, hstorage⟩ :=
      @createBody_of_overspend E depth caller a code gas
      value ⟨(m.db.setNonce caller (m.db.getNonce caller + 1)).snapshot.1, m.ctx⟩ hcode
      (fun hr => hrec hr.1 hr.2) (fun h => hs (hshort.mp h))
      (by rw [hnonce]; exact hpanic) readOnly hmode 0
      (((m.db.world a).getD (new .regular)).storage 0 + 1)
    have hab : createAbandoned E r₀.value = false := by
      rw [createAbandoned, herr]
      exact Bool.eq_false_iff.mpr hhomestead
    refine ⟨_, _, create_eq_some hdepth htransfer hcollides h₀ hab, revertsExactly_of_flat hflat _,
      ?_, ?_⟩
    · rw [settleCreate_err, herr]
      exact some_ne_none _
    · intro huntouched
      rw [storage_of_untouched huntouched ho] at hstorage
      exact absurd hstorage (by simp)

theorem create_restores_iff (gas : UInt64) {readOnly : Bool}
    (hmode : ¬ (readOnly ∧ E.rules.isByzantium)) :
    (∀ (body : Code) (r : Result Outcome),
      (create E depth (exec E body a (depth + 1) readOnly) caller code gas value a).run m = some r →
      RevertsExactly E.X r.trace m.db → r.value.err ≠ none →
      World.Untouched caller m.db.world r.machine.db.world) ↔
    CreationRestores E m depth caller code value a := by
  constructor
  · intro hall
    by_contra hunsafe
    obtain ⟨body, r, hr, hback, herr, htouched⟩ := exists_create_leaves hmode hunsafe
    exact htouched (hall body r hr hback herr)
  · intro hsafe body r h hback herr
    exact untouched_of_create hsafe h herr hback

/-! ## 4. Failing leaves nothing behind -/

/-- The calls and creations after which an error means that nothing has happened. -/
def Failsafe (E : Env) (m : Machine) (caller : Address) (depth : Nat) : Invoke → Prop
  | .create code _ value =>
    m.db.exist (createAddress E.X caller (m.db.getNonce caller)) ∨
      CreationRestores E m depth caller code value (createAddress E.X caller (m.db.getNonce caller))
  | .create2 code _ endowment salt => CreationRestores E m depth caller code endowment
      (createAddress2 E.X caller salt (E.X.keccak256 code))
  | _ => True

/-- **An error leaves every account as it was, up to the nonce of the caller, unless it comes from a
creation that is not taken back.**  Before the Shenzhen fork that is one whose creator cannot pay
the pledge, before the Homestead fork also one whose code returns more than there is gas to
store. -/
theorem failure_restores_iff (E : Env) (m : Machine) (i : Invoke) (caller : Address) (depth : Nat)
    (readOnly : Bool) (hmode : ¬ (readOnly ∧ E.rules.isByzantium ∧ i.writes)) :
    (∀ (body : Code) (r : Result Outcome),
      (invokeCode E i body caller depth readOnly).run m = some r →
      RevertsExactly E.X r.trace m.db → r.value.err ≠ none →
      World.Untouched caller m.db.world r.machine.db.world) ↔ Failsafe E m caller depth i := by
  cases i with
  | call dest input gas value =>
    refine ⟨fun _ => trivial, fun _ body r h hback herr => .inl ?_⟩
    exact restores_call _ _ _ _ _ _ _ _ _ h herr hback
  | callCode addr input gas value =>
    refine ⟨fun _ => trivial, fun _ body r h hback herr => .inl ?_⟩
    exact restores_callCode _ _ _ _ _ _ _ _ _ h herr hback
  | delegateCall addr input gas =>
    refine ⟨fun _ => trivial, fun _ body r h hback herr => .inl ?_⟩
    exact restores_delegateCall _ _ _ _ _ _ _ h herr hback
  | staticCall addr input gas =>
    refine ⟨fun _ => trivial, fun _ body r h hback herr => .inl ?_⟩
    exact restores_staticCall _ _ _ _ _ _ _ h herr hback
  | create code gas value =>
    have hwrite : ¬ (readOnly ∧ E.rules.isByzantium) := fun h => hmode ⟨h.1, h.2, rfl⟩
    have hrun (body : Code) := run_createByNonce E m depth
      (fun a => exec E body a (depth + 1) readOnly) caller code gas value
    cases hnew : m.db.exist (createAddress E.X caller (m.db.getNonce caller)) with
    | true =>
      refine ⟨fun _ => .inl hnew, fun _ body r h _ _ => .inl ?_⟩
      exact some.inj (((hrun body).trans (if_pos hnew)).symm.trans h) ▸ rfl
    | false =>
      replace hrun (body : Code) := (hrun body).trans (if_neg (ne_true_of_eq_false hnew))
      refine Iff.trans ⟨fun hall body r hr => ?_, fun hall body r h => ?_⟩
        ((create_restores_iff gas hwrite).trans ⟨.inr, fun hsafe => ?_⟩)
      · exact hall body r ((hrun body).trans hr)
      · exact hall body r ((hrun body).symm.trans h)
      · exact hsafe.resolve_left (ne_true_of_eq_false hnew)
  | create2 code gas endowment salt => exact create_restores_iff gas fun h => hmode ⟨h.1, h.2, rfl⟩

/-- A contract that is paid, writes to its storage and reverts. -/
theorem failure_restores_call : ∃ r : Result Outcome,
    (invokeCode { X := plainExternals } (.call 7 [] 0 40)
      (.sstore 1 2 (.halt [] 0 (some .executionReverted))) 1 0 false).run payerAndContract =
        some r ∧
    r.value.err = some (.fault .executionReverted) ∧
    World.Untouched 1 payerAndContract.db.world r.machine.db.world := by
  refine ⟨_, rfl, rfl, ?_⟩
  refine (failure_restores_iff { X := plainExternals } payerAndContract (.call 7 [] 0 40) 1 0 false
    (by simp)).mpr trivial (.sstore 1 2 (.halt [] 0 (some .executionReverted))) _ rfl ?_
    (some_ne_none _)
  refine ⟨fun _ t u ht hu => Reverted.world (Undoable.goesBack ?_ t u ht hu), (nomatch ·),
    fun _ _ _ _ => trivial⟩
  exact ⟨trivial, fun _ _ => ⟨trivial, fun _ _ => trivial⟩⟩

/-- Before the Shenzhen fork, an account that cannot pay the pledge creates a contract all the
same. -/
theorem failed_creation_stays : ∃ r : Result Outcome,
    (invokeCode { X := plainExternals, rules := { isShenzhen := false } } (.create [1] 0 0)
      (.halt [] 0 none) 1 0 false).run payerAndContract = some r ∧
    RevertsExactly plainExternals r.trace payerAndContract.db ∧
    r.value.err = some .depositNotEnough ∧
    ¬ World.Untouched 1 payerAndContract.db.world r.machine.db.world := by
  refine ⟨_, rfl, ?_, rfl, ?_⟩
  · exact ⟨trivial, fun _ _ =>
      ⟨(nomatch ·), fun _ => ⟨trivial, fun _ _ => ⟨trivial, fun _ _ => trivial⟩⟩,
        fun _ _ _ _ => trivial⟩⟩
  · rintro (h | ⟨n, h⟩)
    · have h := congrFun h (createAddress plainExternals 1 0)
      exact absurd (congrArg isSome h) (by decide +kernel)
    · have h := congrFun h (createAddress plainExternals 1 0)
      rw [World.setNonce, World.put_of_ne _ _ (by decide +kernel)] at h
      exact absurd (congrArg isSome h) (by decide +kernel)

end Evm

end ProbeChain
