/-
# Nonces and replay

A transaction is accepted only with the nonce of its sender, and the nonce goes up when it is
executed; so it cannot be executed again, unless the nonce stays or goes down.  It stays when a
creation ends before `create` gets to increase it, and when the account of the sender is of a type
without a nonce.  It goes down when an account is destroyed or replaced, whether by the virtual
machine or by one of the business operations.

Nonces are only ever SET to one more than they are (`permits_raises`: a fact about the programs of
the machine, not an assumption), and everything else either leaves them alone or starts them at
zero.  What counts is the nonce that will be kept: that of an account which is not going to be
deleted.  `replay_protection` says that a chain of transactions none of which starts a nonce again
executes no transaction twice.
-/
import ProbeChain.Evm.Leftover
import ProbeChain.Evm.Transition

namespace ProbeChain

open Scope Option List World StateDB

/-! ## 1. Nonces that are kept -/

namespace StateObject

/-- The nonce, until the account is destroyed. -/
def keptNonce (o : StateObject) : Nat := if o.suicided then 0 else o.nonce.toNat

theorem nonce_setBalance (o : StateObject) (x : Int) : (o.setBalance x).nonce = o.nonce := by
  rcases o with ⟨t⟩
  cases t <;> rfl

variable {o : StateObject}

theorem nonce_of_not_holds (h : o.accountType.holdsBalance = false) : o.nonce = 0 := by
  rcases o with ⟨t⟩
  cases t <;> first | rfl | cases h

theorem nonce_setNonce_of_holds (h : o.accountType.holdsBalance = true) (n : UInt64) :
    (o.setNonce n).nonce = n := by
  rcases o with ⟨t⟩
  cases t <;> first | rfl | cases h

theorem unseen_nonce : Unseen nonce 0 where
  balance := nonce_setBalance
  new t := by cases t <;> rfl

theorem unseen_keptNonce : Unseen keptNonce 0 where
  balance o x := by rw [keptNonce, setBalance_suicided, nonce_setBalance, keptNonce]
  new t := by cases t <;> rfl

theorem keptNonce_of_suicided (h : o.suicided = true) : o.keptNonce = 0 := if_pos h

theorem keptNonce_of_not_suicided (h : ¬ o.suicided = true) :
    o.keptNonce = o.nonce.toNat := if_neg h

end StateObject

namespace World

open StateObject

def nonceAt (w : World) (a : Address) : UInt64 := (w a).elim 0 nonce

def kept (w : World) (a : Address) : Nat := w.view keptNonce 0 a

/-- A nonce that is kept is the nonce. -/
theorem kept_of_pos {w : World} {a : Address} (h : 0 < w.kept a) :
    w.kept a = (w.nonceAt a).toNat := by
  rw [kept, view, nonceAt] at *
  cases ho : w a with
  | none =>
    rw [ho] at h
    cases h
  | some o =>
    rw [ho, elim_some] at h
    by_cases hs : o.suicided = true
    · rw [keptNonce_of_suicided hs] at h
      cases h
    · exact keptNonce_of_not_suicided hs

theorem kept_of_noneDoomed {w : World} (h : w.NoneDoomed) (a : Address) :
    w.kept a = (w.nonceAt a).toNat := by
  have hdoomed := h a
  rw [view] at hdoomed
  rw [kept, view, nonceAt]
  cases ho : w a with
  | none => rfl
  | some o =>
    rw [ho, elim_some, doomed] at hdoomed
    rw [elim_some, elim_some]
    by_cases hs : o.suicided = true
    · rw [hs, Bool.true_and] at hdoomed
      rw [keptNonce_of_suicided hs, nonce_of_not_holds hdoomed]
      rfl
    · exact keptNonce_of_not_suicided hs

end World

/-! ## 2. What actions do to nonces -/

/-- What the programs of the machine do to nonces: they set one to the next. -/
def Raises (s : StateDB) : Action → Prop
  | .op (.setNonce a n) => n = s.getNonce a + 1
  | a => a.Direct

variable {sender : Address} {start : UInt64} {s : StateDB}

theorem Raises.direct {a : Action} (h : Raises s a) : a.Direct := by
  cases a with
  | hook caller dest value ctx => trivial
  | selfdestruct self beneficiary => trivial
  | op o =>
    cases o with
    | setNonce a n => trivial
    | _ => exact h

/-- **What has to hold before an action for no nonce to start again.**  Destroyed or replaced is
only what has no nonce; no nonce is at its end; and that of the sender is increased only once. -/
def StartsNoneAgain (X : Externals) (sender : Address) (start : UInt64) (w : World) : Action → Prop
  | .hook _ _ _ ctx => (∀ b ∈ registered X ctx, w.kept b = 0) ∧ ∀ b ∈ closed w ctx, w.kept b = 0
  | .selfdestruct self _ => w.kept self = 0
  | .op (.createContractAccount a) => w.kept a = 0
  | .op (.setNonce a _) => w.nonceAt a ≠ Pool.maxUint64 ∧ (a = sender → w.nonceAt a = start)
  | _ => True

/-- No nonce goes down, and that of the sender goes up at most to the next. -/
structure Forward (sender : Address) (start : UInt64) (w w' : World) : Prop where
  up : ∀ b, w.kept b ≤ w'.kept b
  once : w.kept sender ≤ start.toNat + 1 → w'.kept sender ≤ start.toNat + 1

theorem Forward.of_eq {w w' : World}
    (h : ∀ b, w'.kept b = w.kept b) : Forward sender start w w' where
  up b := (h b).ge
  once hle := (h sender).trans_le hle

theorem Forward.trans {w w' w'' : World}
    (h : Forward sender start w w') (h' : Forward sender start w' w'') :
    Forward sender start w w'' where
  up b := (h.up b).trans (h'.up b)
  once hle := h'.once (h.once hle)

theorem toNat_add_one {n : UInt64} (h : n ≠ Pool.maxUint64) : (n + 1).toNat = n.toNat + 1 := by
  have hne : n.toNat ≠ 18446744073709551615 := fun hn => h (UInt64.toNat_inj.mp hn)
  have hlt := n.toNat_lt
  rw [UInt64.toNat_add, show (1 : UInt64).toNat = 1 from rfl]
  omega

namespace World

open StateObject

variable {X : Externals} {w w' : World}

/-- An account is replaced by one without a nonce. -/
theorem kept_put_zero {a : Address} {o : StateObject} (ho : o.keptNonce = 0) (h : w.kept a = 0)
    (b : Address) : (w.put a o).kept b = w.kept b := by
  rw [kept, view_put]
  split
  · rw [ho, ‹b = a›, h]
  · rfl

theorem kept_setNonce (w : World) (a : Address) (n : UInt64) (b : Address) :
    (w.setNonce a n).kept b =
      if b = a then (((w a).getD (new .regular)).setNonce n).keptNonce else w.kept b := by
  rw [kept, setNonce, view_put]
  rfl

theorem keptNonce_setNonce_le (o : StateObject) (n : UInt64) :
    (o.setNonce n).keptNonce ≤ n.toNat := by
  rw [keptNonce, setNonce_suicided]
  split
  · exact Nat.zero_le _
  · by_cases hholds : o.accountType.holdsBalance = true
    · rw [nonce_setNonce_of_holds hholds]
    · rw [setNonce_of_not_holds (Bool.eq_false_iff.mpr hholds),
        nonce_of_not_holds (Bool.eq_false_iff.mpr hholds)]
      exact Nat.zero_le _

theorem keptNonce_le_setNonce (o : StateObject) {n : UInt64} (h : o.nonce.toNat ≤ n.toNat) :
    o.keptNonce ≤ (o.setNonce n).keptNonce := by
  rw [keptNonce, keptNonce, setNonce_suicided]
  split
  · exact le_refl _
  · by_cases hholds : o.accountType.holdsBalance = true
    · rwa [nonce_setNonce_of_holds hholds]
    · rw [setNonce_of_not_holds (Bool.eq_false_iff.mpr hholds)]

theorem forward_setNonce {a : Address}
    (hmax : w.nonceAt a ≠ Pool.maxUint64) (honce : a = sender → w.nonceAt a = start) :
    Forward sender start w (w.setNonce a (w.nonceAt a + 1)) where
  up b := by
    rw [kept_setNonce]
    split
    · subst_vars
      have hnonce : ((w b).getD (new .regular)).nonce = w.nonceAt b := by
        rw [nonceAt]
        cases w b with
        | none => rfl
        | some o => rfl
      have hkept : w.kept b = ((w b).getD (new .regular)).keptNonce := by
        rw [kept, view]
        cases w b with
        | none => rfl
        | some o => rfl
      rw [hkept]
      refine keptNonce_le_setNonce _ ?_
      rw [hnonce, toNat_add_one hmax]
      exact Nat.le_succ _
    · exact le_refl _
  once hle := by
    rw [kept_setNonce]
    split
    · refine (keptNonce_setNonce_le _ _).trans ?_
      rw [toNat_add_one hmax, honce (Eq.symm ‹_›)]
    · exact hle

/-- **An action that starts no nonce again moves the nonces forward.** -/
theorem forward_act {a : Action} (ha : Raises s a)
    (h : StartsNoneAgain X sender start s.world a) (hw : s.world.act X a = some w') :
    Forward sender start s.world w' := by
  cases a with
  | hook caller dest value ctx =>
    refine Forward.of_eq fun b => ?_
    rw [kept, view_callDB unseen_keptNonce hw b]
    split
    · exact (h.1 b ‹_›).symm
    · split
      · rw [h.2 b ‹_›, view]
        cases s.world b with
        | none => rfl
        | some o => rfl
      · rfl
  | selfdestruct self beneficiary =>
    refine Forward.of_eq fun b => ?_
    rw [kept, view_suicide hw b]
    split
    · subst_vars
      rw [show s.world.kept b = 0 from h, view]
      cases (s.world.credit beneficiary (s.world.balanceAt b)) b with
      | none => rfl
      | some o => rfl
    · rw [view_credit unseen_keptNonce.toCashless, kept]
  | op o =>
    cases o with
    | setNonce a n =>
      obtain rfl : n = s.world.nonceAt a + 1 := ha
      exact some.inj hw ▸ forward_setNonce h.1 h.2
    | addBalance a v =>
      exact some.inj hw ▸
        Forward.of_eq (congrFun (view_credit unseen_keptNonce.toCashless s.world a v))
    | subBalance a v =>
      exact some.inj hw ▸
        Forward.of_eq (congrFun (view_credit unseen_keptNonce.toCashless s.world a (-v)))
    | setCode a codeHash code =>
      exact some.inj hw ▸ Forward.of_eq (congrFun
        (view_write (g := keptNonce) (d := 0) rfl (f := (·.setCode codeHash code))
          (fun _ => rfl) s.world a))
    | setState a key value =>
      exact some.inj hw ▸ Forward.of_eq (congrFun
        (view_write (g := keptNonce) (d := 0) rfl (f := (·.setState key value))
          (fun _ => rfl) s.world a))
    | createContractAccount a => exact some.inj hw ▸ Forward.of_eq (kept_put_zero rfl h)
    | addLog log => exact some.inj hw ▸ Forward.of_eq fun _ => rfl
    | addRefund gas => exact some.inj hw ▸ Forward.of_eq fun _ => rfl
    | subRefund gas => exact some.inj hw ▸ Forward.of_eq fun _ => rfl
    | _ => exact ha.elim

end World

/-- The same between databases, where what is doomed also stays dirty. -/
structure Onward (sender : Address) (start : UInt64) (s t : StateDB) : Prop where
  forward : Forward sender start s.world t.world
  marked : s.Marked → t.Marked

theorem Onward.trans {t u : StateDB} (h : Onward sender start s t)
    (h' : Onward sender start t u) : Onward sender start s u :=
  ⟨h.forward.trans h'.forward, h'.marked ∘ h.marked⟩

/-- **So does every run of such actions**, whatever is taken back on the way. -/
theorem onward_run {X : Externals} {p : Trace Action} {t : StateDB}
    (hp : p.Along (evmStore X) (fun s a => StartsNoneAgain X sender start s.world a ∧ Raises s a)
      (Trace.GoesBack (evmStore X) Reverted) s) (ht : p.run (evmStore X) s = some t) :
    Onward sender start s t := by
  have hsame (s : StateDB) : Onward sender start s s := ⟨Forward.of_eq fun _ => rfl, id⟩
  refine Trace.run_rel hsame Onward.trans (fun h hs => ⟨?_, ?_⟩) (fun s => ?_)
    (fun h => ⟨?_, ?_⟩) hp ht
  · exact forward_act h.2 h.1 (world_actionStep h.2.direct hs)
  · exact fun hmarked => hmarked.actionStep h.2.direct hs
  · exact ⟨Forward.of_eq fun _ => rfl, id⟩
  · exact Forward.of_eq fun _ => by rw [h.world]
  · exact h.marked

/-! ## 3. What programs do to nonces -/

namespace Evm

theorem permits_raises (E : Env) (readOnly : Bool) : Permits E (fun _ => True) Raises readOnly where
  hook _ _ _ _ _ _ := ⟨trivial, fun _ => trivial⟩
  precompile _ _ := trivial
  touch _ _ := trivial
  write _ :=
    ⟨fun _ _ _ _ _ => ⟨trivial, fun _ => trivial⟩, fun _ _ _ _ => trivial, fun _ _ => trivial,
      fun _ _ => trivial, fun _ _ => trivial, fun _ _ _ => trivial, fun _ _ => rfl,
    fun _ _ _ _ => trivial, fun _ _ => trivial⟩

theorem raises_invokeCode (E : Env) (i : Invoke) (code : Code) (caller : Address) (depth : Nat) :
    Emits (fun _ => True) Raises (invokeCode E i code caller depth false) :=
  (permits_raises E false).invoke (fun h => Bool.false_ne_true h.1)
    (fun a d b _ => emits_exec code (permits_raises E b) a d) caller depth

variable {I : TxContext → Prop} {Q : StateDB → Action → Prop}

theorem emits_ofOption {X : Externals} {α : Type} (o : Option α) :
    Emits I Q (ofOption o : Evm X α) := by
  intro db ctx r hI h
  obtain ⟨a, -, rfl⟩ := map_eq_some_iff.mp h
  exact ⟨hI, trivial⟩

variable (E : BlockEnv) (msg : Message)

theorem raises_preCheck (gp : UInt64) : Emits (fun _ => True) Raises (preCheck E msg gp) := by
  refine emits_getDb.bind fun db => ?_
  split
  · exact emits_pure _
  · refine (emits_ofOption _).bind fun fees => ?_
    split
    · exact emits_pure _
    · refine emits_getDb.bind fun db => Emits.unless fun _ => ?_
      split
      · exact emits_pure _
      · exact (emits_act fun _ => trivial).bind fun _ => emits_pure _

theorem raises_execute (code : Code) (gas : UInt64) :
    Emits (fun _ => True) Raises (execute E msg code gas) := by
  unfold execute
  split
  · exact raises_invokeCode E.toEnv _ code _ 0
  · refine Emits.getDb_bind fun db => (emitsFrom_act rfl).bind fun _ => ?_
    exact raises_invokeCode E.toEnv _ code _ 0

theorem raises_settleGas (gp : UInt64) (outcome : Outcome) :
    Emits (fun _ => True) Raises (settleGas E msg gp outcome) := by
  refine emits_getDb.bind fun db => (emits_act fun _ => trivial).bind fun _ => ?_
  refine (emits_ofOption _).bind fun gp => (emits_ofOption _).bind fun tip => ?_
  exact (emits_act fun _ => trivial).bind fun _ => emits_pure _

/-- **A transaction sets a nonce only to the next.** -/
theorem raises_transitionDb (code : Code) (gp : UInt64) :
    Emits (fun _ => True) Raises (transitionDb E msg code gp) := by
  refine (raises_preCheck E msg gp).bind fun checked => ?_
  split
  · exact emits_pure _
  · split
    · exact emits_pure _
    · refine emits_getDb.bind fun db => Emits.unless fun _ => ?_
      exact (raises_execute E msg code _).bind fun outcome => raises_settleGas E msg _ outcome

/-! ## 4. How a transaction begins -/

variable {E : BlockEnv} {msg : Message} {code : Code} {gp gas : UInt64} {m : Machine}

/-- Nonce, fees, funds and gas pool allow the gas to be bought. -/
structure Purchasable (E : BlockEnv) (msg : Message) (gp : UInt64) (db : StateDB) : Prop where
  nonce : verifyNonce msg db = .ok ()
  fees : verifyFees E msg = some (.ok ())
  funds : (balanceCheck msg : Int) ≤ db.getBalance msg.fromAddr
  gas : msg.gas ≤ gp

/-- The checks do nothing unless all of them pass, and then the gas is bought. -/
theorem preCheck_eq_some {r : Result (Except TxError UInt64)}
    (hrun : (preCheck E msg gp).run m = some r) :
    (∃ e, r = ⟨.error e, m, .nil⟩ ∧ ¬ Purchasable E msg gp m.db) ∨
      r = ⟨.ok (gp - msg.gas), { m with db := m.db.subBalance msg.fromAddr (mgval msg) },
        .act (.op (.subBalance msg.fromAddr (mgval msg))) .nil⟩ ∧ Purchasable E msg gp m.db := by
  have h₂ := getDb_bind_eq_some.mp hrun
  split at h₂
  next e hnonce =>
    obtain rfl := pure_eq_some.mp h₂
    exact .inl ⟨e, rfl, fun h => nomatch hnonce.symm.trans h.nonce⟩
  next hnonce =>
    obtain ⟨r₃, r₄, h₃, h₄, rfl⟩ := bind_eq_some.mp h₂
    obtain ⟨fees, hfees, rfl⟩ := map_eq_some_iff.mp h₃
    cases fees with
    | error e =>
      obtain rfl := pure_eq_some.mp h₄
      exact .inl ⟨e, rfl, fun h => nomatch some.inj (hfees.symm.trans h.fees)⟩
    | ok =>
      have h₆ := getDb_bind_eq_some.mp h₄
      dsimp only [subGas] at h₆
      split at h₆
      next hpoor =>
        obtain rfl := pure_eq_some.mp h₆
        exact .inl ⟨_, rfl, fun h => absurd h.funds (Int.not_le.mpr hpoor)⟩
      next hfunds =>
        by_cases hgas : gp < msg.gas
        · rw [if_pos hgas] at h₆
          obtain rfl := pure_eq_some.mp h₆
          exact .inl ⟨_, rfl, fun h => absurd hgas (UInt64.not_lt.mpr h.gas)⟩
        · rw [if_neg hgas] at h₆
          obtain ⟨r₇, r₈, h₇, h₈, rfl⟩ := bind_eq_some.mp h₆
          obtain ⟨db, hdb, rfl⟩ := act_eq_some.mp h₇
          obtain rfl := some.inj hdb
          obtain rfl := pure_eq_some.mp h₈
          exact .inr ⟨rfl, hnonce, hfees, Int.not_lt.mp hfunds, UInt64.not_lt.mp hgas⟩

/-- The checks that passed, and what they did. -/
theorem preCheck_eq_ok {r : Result (Except TxError UInt64)} {gp' : UInt64}
    (hrun : (preCheck E msg gp).run m = some r) (hok : r.value = .ok gp') :
    verifyNonce msg m.db = .ok () ∧
      r = ⟨.ok gp', { m with db := m.db.subBalance msg.fromAddr (mgval msg) },
        .act (.op (.subBalance msg.fromAddr (mgval msg))) .nil⟩ := by
  obtain ⟨e, rfl, -⟩ | ⟨rfl, hbought⟩ := preCheck_eq_some hrun
  · cases hok
  · cases hok
    exact ⟨hbought.nonce, rfl⟩

/-- What lets a creation get to the nonce: its address is unused, and the gas did not bring the
sender into debt. -/
def CreationStarts (E : Env) (msg : Message) (db : StateDB) : Prop :=
  msg.toAddr = none →
    db.exist (createAddress E.X msg.fromAddr (db.getNonce msg.fromAddr)) = false ∧
      0 ≤ db.getBalance msg.fromAddr

theorem trace_create {E : Env} {body : Evm E.X Halt} {caller : Address} {init : Bytes} {value : Nat}
    {address : Address} {r : Result Outcome} (hfunds : canTransfer m.db caller value = true)
    (hrun : (create E 0 body caller init gas value address).run m = some r) :
    ∃ rest, r.trace = .act (.op (.setNonce caller (m.db.getNonce caller + 1))) rest := by
  unfold create at hrun
  have h₂ := getDb_bind_eq_some.mp hrun
  rw [if_neg (not_not_intro hfunds)] at h₂
  obtain ⟨r₃, r₄, h₃, h₄, rfl⟩ := bind_eq_some.mp h₂
  obtain ⟨db, -, rfl⟩ := act_eq_some.mp h₃
  exact ⟨_, rfl⟩

theorem trace_execute {r : Result Outcome} (hstarts : CreationStarts E.toEnv msg m.db)
    (hchecked : ¬ (0 < msg.value ∧ ¬ canTransfer m.db msg.fromAddr msg.value))
    (hrun : (execute E msg code gas).run m = some r) :
    ∃ rest, r.trace =
      .act (.op (.setNonce msg.fromAddr (m.db.getNonce msg.fromAddr + 1))) rest := by
  unfold execute at hrun
  split at hrun
  next hto =>
    obtain ⟨hfresh, hbalance⟩ := hstarts hto
    have hfunds : canTransfer m.db msg.fromAddr msg.value = true := by
      by_cases hvalue : 0 < msg.value
      · exact not_not.mp fun hlacks => hchecked ⟨hvalue, hlacks⟩
      · rw [Nat.eq_zero_of_not_pos hvalue]
        exact decide_eq_true hbalance
    have hcreate :=
      (run_createByNonce E.toEnv m 0 (fun a => exec E.toEnv code a 1 false) msg.fromAddr
      msg.data gas msg.value).symm.trans hrun
    rw [hfresh, if_neg Bool.false_ne_true] at hcreate
    exact trace_create hfunds hcreate
  · have h₂ := getDb_bind_eq_some.mp hrun
    obtain ⟨r₃, r₄, h₃, h₄, rfl⟩ := bind_eq_some.mp h₂
    obtain ⟨db, -, rfl⟩ := act_eq_some.mp h₃
    exact ⟨_, rfl⟩

/-- **A transaction that is executed begins with its gas and its nonce.** -/
theorem transitionDb_eq_ok {r : Result (Except TxError (ExecutionResult × UInt64))}
    {result : ExecutionResult × UInt64}
    (hstarts : CreationStarts E.toEnv msg (m.db.subBalance msg.fromAddr (mgval msg)))
    (hrun : (transitionDb E msg code gp).run m = some r) (hok : r.value = .ok result) :
    verifyNonce msg m.db = .ok () ∧ ∃ rest,
      r.trace = .act (.op (.subBalance msg.fromAddr (mgval msg)))
        (.act (.op (.setNonce msg.fromAddr
          ((m.db.subBalance msg.fromAddr (mgval msg)).getNonce msg.fromAddr + 1))) rest) := by
  obtain ⟨r₁, r₂, h₁, h₂, rfl⟩ := bind_eq_some.mp hrun
  split at h₂
  · obtain rfl := pure_eq_some.mp h₂
    cases hok
  next hchecked =>
    obtain ⟨hnonce, rfl⟩ := preCheck_eq_ok h₁ hchecked
    refine ⟨hnonce, ?_⟩
    split at h₂
    · obtain rfl := pure_eq_some.mp h₂
      cases hok
    · have h₄ := getDb_bind_eq_some.mp h₂
      split at h₄
      · obtain rfl := pure_eq_some.mp h₄
        cases hok
      · obtain ⟨r₅, r₆, h₅, h₆, rfl⟩ := bind_eq_some.mp h₄
        obtain ⟨rest, hrest⟩ := trace_execute hstarts ‹_› h₅
        rw [hrest]
        exact ⟨_, rfl⟩

/-! ## 5. Chains of transactions -/

/-- Taking the gas from the sender leaves everybody's nonce. -/
theorem getNonce_subBalance (s : StateDB) (a b : Address) (v : Int) :
    (s.subBalance a v).getNonce b = s.getNonce b := by
  show (s.subBalance a v).world.view StateObject.nonce 0 b = s.world.view StateObject.nonce 0 b
  rw [world_subBalance, view_credit StateObject.unseen_nonce.toCashless]

/-- **What has to hold before a transaction is executed**, and while it is, for the nonces to go
forward. -/
structure Execution.Orderly (x : Execution) (s : StateDB) : Prop where
  /-- the account of the sender has a nonce, or will once it is made -/
  sender : ∀ o, s.getStateObject x.msg.fromAddr = some o → o.accountType.holdsBalance = true
  creation : x.msg.toAddr = none →
    createAddress x.env.X x.msg.fromAddr (s.getNonce x.msg.fromAddr) ≠ x.msg.fromAddr ∧
    s.exist (createAddress x.env.X x.msg.fromAddr (s.getNonce x.msg.fromAddr)) = false ∧
    mgval x.msg ≤ s.getBalance x.msg.fromAddr
  steps : ∀ r, x.run s = some r → r.trace.Along (evmStore x.env.X)
    (fun t a => StartsNoneAgain x.env.X x.msg.fromAddr (s.getNonce x.msg.fromAddr) t.world a)
    (Undoable x.env.X) s

namespace Execution

open StateObject

variable {x : Execution} {r : Result (Except TxError (ExecutionResult × UInt64))}
  {result : ExecutionResult × UInt64}

theorem apply_eq_some {t : StateDB} : apply s x = some t ↔
    ∃ r result, x.run s = some r ∧ r.value = .ok result ∧ t = r.machine.db.finalise := by
  unfold apply
  rw [bind_eq_some_iff]
  constructor
  · rintro ⟨r, hr, h⟩
    split at h
    · cases h
    · exact ⟨r, _, hr, ‹_›, (some.inj h).symm⟩
  · rintro ⟨r, result, hr, hok, rfl⟩
    exact ⟨r, hr, by rw [hok]⟩

section
variable (hstart : s.world.NoneDoomed) (h : x.Orderly s)
include hstart h

/-- The account of the sender after it has paid for the gas. -/
theorem sender_subBalance :
    ∃ o, (s.subBalance x.msg.fromAddr (mgval x.msg)).world x.msg.fromAddr = some o ∧
      o.accountType.holdsBalance = true ∧ o.suicided = false ∧
      o.balance = s.getBalance x.msg.fromAddr - mgval x.msg := by
  rw [world_subBalance, credit, put_self]
  refine ⟨_, rfl, ?_⟩
  have hsender := h.sender
  have hdoomed := hstart x.msg.fromAddr
  rw [view] at hdoomed
  rw [getBalance_eq, balanceAt, credited, setBalance_accountType, setBalance_suicided,
    balance_setBalance]
  cases ho : s.world x.msg.fromAddr with
  | none => exact ⟨rfl, rfl, rfl⟩
  | some o =>
    have hholds := hsender o ho
    rw [ho, elim_some, doomed, hholds, Bool.and_true] at hdoomed
    rw [getD_some, elim_some, if_pos hholds]
    exact ⟨hholds, hdoomed, rfl⟩

theorem creationStarts :
    CreationStarts x.env.toEnv x.msg (s.subBalance x.msg.fromAddr (mgval x.msg)) := by
  intro hto
  obtain ⟨hother, hfresh, hfunds⟩ := h.creation hto
  obtain ⟨o, ho, -, -, hbalance⟩ := sender_subBalance hstart h
  rw [getNonce_subBalance]
  constructor
  · rw [exist, ← world_apply, world_subBalance, credit,
      put_of_ne _ _ hother]
    exact hfresh
  · rw [getBalance_eq, balanceAt, ho, elim_some, hbalance]
    omega

section
variable (hrun : x.run s = some r) (hok : r.value = .ok result)
include hrun hok

/-- **One transaction.** -/
theorem forward_run :
    (∀ a, s.world.kept a ≤ r.machine.db.world.kept a) ∧
      r.machine.db.world.kept x.msg.fromAddr = (s.getNonce x.msg.fromAddr).toNat + 1 ∧
      r.machine.db.Marked := by
  obtain ⟨-, rest, htrace⟩ := transitionDb_eq_ok (creationStarts hstart h) hrun hok
  have hraises := ((raises_transitionDb x.env x.msg x.code x.gasPool) s _ r trivial hrun).2
  have hsteps := ((h.steps r hrun).and_each hraises).mono (fun _ _ h => h) fun _ _ h => h.goesBack
  have htraced := (transitionDb x.env x.msg x.code x.gasPool).traced hrun
  obtain ⟨hall, hmarked⟩ := onward_run hsteps htraced
  refine ⟨hall.up, le_antisymm (hall.once ?_) ?_, hmarked (marked_of_noneDoomed hstart)⟩
  · rw [kept_of_noneDoomed hstart]
    exact Nat.le_succ _
  · -- after its first two actions the nonce is there, and then it does not go down
    rw [htrace] at hsteps htraced
    obtain ⟨-, hsteps⟩ := hsteps
    obtain ⟨⟨⟨hmax, -⟩, -⟩, hsteps⟩ := hsteps _ rfl
    have hlast := (onward_run (hsteps _ rfl) htraced).forward.up x.msg.fromAddr
    obtain ⟨o, ho, hholds, hlive, -⟩ := sender_subBalance hstart h
    have hnonce := getNonce_subBalance s x.msg.fromAddr x.msg.fromAddr (mgval x.msg)
    refine le_trans (le_of_eq ?_) hlast
    rw [world_setNonce, kept_setNonce, if_pos rfl, ho, getD_some, keptNonce,
      setNonce_suicided, hlive, if_neg Bool.false_ne_true, nonce_setNonce_of_holds hholds]
    rw [← hnonce]
    exact (toNat_add_one hmax).symm

/-- **Exactly one larger.** -/
theorem getNonce_run :
    (r.machine.db.getNonce x.msg.fromAddr).toNat = (s.getNonce x.msg.fromAddr).toNat + 1 := by
  obtain ⟨-, hsender, -⟩ := forward_run hstart h hrun hok
  have hpos : 0 < r.machine.db.world.kept x.msg.fromAddr := hsender ▸ Nat.succ_pos _
  rw [← hsender]
  exact (kept_of_pos hpos).symm

/-- The nonce that was checked. -/
theorem nonce_of_run (hcheck : x.msg.checkNonce = true) :
    s.getNonce x.msg.fromAddr = x.msg.nonce := by
  obtain ⟨hverified, -⟩ := transitionDb_eq_ok (creationStarts hstart h) hrun hok
  unfold verifyNonce at hverified
  rw [if_neg (not_not_intro hcheck)] at hverified
  split at hverified
  · cases hverified
  · split at hverified
    · cases hverified
    · exact UInt64.le_antisymm (UInt64.not_lt.mp ‹_›) (UInt64.not_lt.mp ‹_›)

end

/-- One transaction, up to the next. -/
theorem forward_apply {t : StateDB} (ht : apply s x = some t) :
    t.world.NoneDoomed ∧ (∀ a, s.getNonce a ≤ t.getNonce a) ∧
      (s.getNonce x.msg.fromAddr).toNat < (t.getNonce x.msg.fromAddr).toNat := by
  obtain ⟨r, result, hr, hok, rfl⟩ := apply_eq_some.mp ht
  obtain ⟨hup, hsender, hmarked⟩ := forward_run hstart h hr hok
  have hnone := noneDoomed_finalise hmarked
  have hfinal (a : Address) :
      (r.machine.db.finalise.getNonce a).toNat = r.machine.db.world.kept a := by
    have hview := congrFun (view_finalise (g := keptNonce) (d := 0) (fun _ => rfl)
      (fun _ => keptNonce_of_suicided) r.machine.db) a
    exact (kept_of_noneDoomed hnone a).symm.trans hview
  refine ⟨hnone, fun a => ?_, ?_⟩
  · rw [UInt64.le_iff_toNat_le, hfinal]
    exact (kept_of_noneDoomed hstart a).symm.trans_le (hup a)
  · rw [hfinal, hsender]
    exact Nat.lt_succ_self _

end

/-- Along a chain the nonces go forward. -/
theorem forward_chain {xs : List Execution} {t : StateDB} (hstart : s.world.NoneDoomed)
    (h : Run.Along apply (fun s x => x.Orderly s) xs s) (ht : Run.run apply xs s = some t) :
    t.world.NoneDoomed ∧ ∀ a, s.getNonce a ≤ t.getNonce a := by
  refine Run.run_rel (R := fun s t => s.world.NoneDoomed →
    t.world.NoneDoomed ∧ ∀ a, s.getNonce a ≤
      t.getNonce a) (fun _ hs => ⟨hs, fun _ => UInt64.le_refl _⟩)
    (fun hst htu hs => ?_) (fun hP hs hstart => ?_) h ht hstart
  · obtain ⟨hnone, hle⟩ := hst hs
    obtain ⟨hnone', hle'⟩ := htu hnone
    exact ⟨hnone', fun a => UInt64.le_trans (hle a) (hle' a)⟩
  · obtain ⟨hnone, hle, -⟩ := forward_apply hstart hP hs
    exact ⟨hnone, hle⟩

/-- A transaction that is executed in the chain has a nonce from its beginning on. -/
theorem le_nonce_of_mem : ∀ {xs : List Execution} {s t : StateDB}, s.world.NoneDoomed →
    Run.Along apply (fun s x => x.Orderly s) xs s → Run.run apply xs s = some t →
    (∀ x ∈ xs, x.msg.checkNonce = true) → ∀ x ∈ xs, s.getNonce x.msg.fromAddr ≤ x.msg.nonce := by
  intro xs
  induction xs with
  | nil => exact fun _ _ _ _ _ hx => absurd hx not_mem_nil
  | cons y ys ih =>
    intro s t hstart h ht hcheck x hx
    obtain ⟨u, hu, hrest⟩ := bind_eq_some_iff.mp ht
    obtain ⟨hnone, hle, -⟩ := forward_apply hstart h.1 hu
    rcases mem_cons.mp hx with rfl | hx
    · obtain ⟨r, result, hr, hok, -⟩ := apply_eq_some.mp hu
      rw [nonce_of_run hstart h.1 hr hok (hcheck x mem_cons_self)]
      exact UInt64.le_refl _
    · refine UInt64.le_trans (hle _) (ih hnone (h.2 u hu) hrest (fun z hz => ?_) x hx)
      exact hcheck z (mem_cons_of_mem _ hz)

/-- No two transactions of a chain have the same sender and nonce. -/
theorem nodup_of_chain : ∀ {xs : List Execution} {s t : StateDB}, s.world.NoneDoomed →
    Run.Along apply (fun s x => x.Orderly s) xs s → Run.run apply xs s = some t →
    (∀ x ∈ xs, x.msg.checkNonce = true) →
    (xs.map fun x => (x.msg.fromAddr, x.msg.nonce)).Nodup := by
  intro xs
  induction xs with
  | nil => exact fun _ _ _ _ => nodup_nil
  | cons y ys ih =>
    intro s t hstart h ht hcheck
    obtain ⟨u, hu, hrest⟩ := bind_eq_some_iff.mp ht
    obtain ⟨hnone, -, hlt⟩ := forward_apply hstart h.1 hu
    have hcheck' : ∀ z ∈ ys, z.msg.checkNonce = true := fun z hz => hcheck z (mem_cons_of_mem _ hz)
    refine nodup_cons.mpr ⟨fun hmem => ?_, ih hnone (h.2 u hu) hrest hcheck'⟩
    -- a later transaction of the same sender has a larger nonce
    obtain ⟨z, hz, heq⟩ := mem_map.mp hmem
    obtain ⟨hfrom, hsame⟩ := Prod.mk.inj heq
    have hlater := le_nonce_of_mem hnone (h.2 u hu) hrest hcheck' z hz
    obtain ⟨r, result, hr, hok, -⟩ := apply_eq_some.mp hu
    have hnonce := nonce_of_run hstart h.1 hr hok (hcheck y mem_cons_self)
    rw [hfrom, hsame, ← hnonce, UInt64.le_iff_toNat_le] at hlater
    omega

end Execution

/-- **Replay protection.**  Along a chain of orderly transactions no nonce goes down, and none of
them is executed twice; and where it leads to, which may be where it began, an orderly transaction
that is executed leaves the nonce of its sender exactly one larger. -/
theorem replay_protection (xs : List Execution) (s t : StateDB) (hstart : s.world.NoneDoomed)
    (hsteps : Run.Along Execution.apply (fun s x => x.Orderly s) xs s)
    (hrun : Run.run Execution.apply xs s = some t) :
    (∀ a, s.getNonce a ≤ t.getNonce a) ∧
    ((∀ x ∈ xs, x.msg.checkNonce = true) →
      (xs.map fun x => (x.msg.fromAddr, x.msg.nonce)).Nodup) ∧
    ∀ (x : Execution) (r : Result (Except TxError (ExecutionResult × UInt64)))
      (result : ExecutionResult × UInt64), x.Orderly t → x.run t = some r → r.value = .ok result →
      (r.machine.db.getNonce x.msg.fromAddr).toNat = (t.getNonce x.msg.fromAddr).toNat + 1 := by
  obtain ⟨hnone, hle⟩ := Execution.forward_chain hstart hsteps hrun
  refine ⟨hle, Execution.nodup_of_chain hstart hsteps hrun, ?_⟩
  intro x r result horderly hr hok
  exact Execution.getNonce_run hnone horderly hr hok

/-- A transaction whose gas costs nothing and whose code does nothing. -/
def plainExecution (fromAddr : Address) (toAddr : Option Address) (nonce : UInt64) (value : Nat)
    (data : Bytes) : Execution where
  env := { X := plainExternals }
  msg := { fromAddr := fromAddr, toAddr := toAddr, nonce := nonce, value := value, gas := 60000,
           gasPrice := 0, gasFeeCap := some 0, gasTipCap := some 0, data := data }
  code := .halt [] 0 none
  gasPool := 60000

/-- Account `5` pays `3` to account `2`. -/
theorem replay_protection_of_payment : ∃ t,
    Run.run Execution.apply [plainExecution 5 (some 2) 0 3 []]
      (.ofAccounts [(2, .ofBalance 0), (5, .ofBalance 100)]) = some t ∧
    t.getNonce 5 = 1 ∧ ∀ a, (ofAccounts [(2, .ofBalance 0), (5, .ofBalance 100)]).getNonce a ≤
      t.getNonce a := by
  obtain ⟨r, result, hr, hok, htrace, hnonce⟩ : ∃ r result,
      (plainExecution 5 (some 2) 0 3 []).run
        (.ofAccounts [(2, .ofBalance 0), (5, .ofBalance 100)]) =
        some r ∧ r.value = .ok result ∧
      r.trace = .act (.op (.subBalance 5 0)) (.act (.op (.setNonce 5 1))
        (.scope (.act (.hook 5 2 3 ⟨5, some 2, 0, 3, [], 0, some 1⟩) .nil) false
          (.act (.op (.addBalance 5 0)) (.act (.op (.addBalance 0 0)) .nil)))) ∧
      r.machine.db.finalise.getNonce 5 = 1 := ⟨_, _, rfl, rfl, rfl, rfl⟩
  have ht := Execution.apply_eq_some.mpr ⟨r, result, hr, hok, rfl⟩
  have hrun : Run.run Execution.apply [plainExecution 5 (some 2) 0 3 []]
      (.ofAccounts [(2, .ofBalance 0), (5, .ofBalance 100)]) = some r.machine.db.finalise := by
    rw [Run.run, ht]
    rfl
  refine ⟨_, hrun, hnonce, (replay_protection _ _ _ ?_ ?_ hrun).1⟩
  · exact noneDoomed_ofAccounts _ (by simp [StateObject.ofBalance])
  refine ⟨⟨?_, ?_, ?_⟩, fun _ _ => trivial⟩
  · rintro _ ⟨rfl⟩
    rfl
  · rintro ⟨⟩
  · intro r' hr'
    obtain rfl := some.inj (hr.symm.trans hr')
    rw [htrace]
    refine ⟨trivial, fun s hs => ?_⟩
    obtain rfl := some.inj hs
    refine ⟨⟨by decide, fun _ => rfl⟩, fun s hs => ?_⟩
    obtain rfl := some.inj hs
    refine ⟨?_, fun _ => ⟨⟨?_, ?_⟩, fun _ _ => trivial⟩,
      fun _ _ _ _ => ⟨trivial, fun _ _ => ⟨trivial, fun _ _ => trivial⟩⟩⟩
    · rintro ⟨⟩
    · rintro b ⟨⟩
    · rintro b ⟨⟩

/-- A creation for which there is an account already can be executed again and again.  Account `1`
can be closed by a transaction of its own, and when it has been paid again its first payment is
repeated. -/
theorem transactions_replayed :
    (Run.run Execution.apply [plainExecution 1 none 0 0 [], plainExecution 1 none 0 0 []]
      (.ofAccounts [(1, .ofBalance 100), (createAddress plainExternals 1 0, .ofBalance 0)])).map
        (·.getNonce 1) = some 0 ∧
    (Run.run Execution.apply
      [plainExecution 1 (some 2) 0 3 [], plainExecution 1 (some 0x104) 1 0 closeCall.data,
        plainExecution 2 (some 1) 0 (AccountType.regular.pledge + 50) [],
        plainExecution 1 (some 2) 0 3 []]
      (.ofAccounts [(1, .ofBalance 100), (2, .ofBalance (3 * AccountType.regular.pledge))])).map
        (fun s => (s.getNonce 1, s.getBalance 1)) = some (1, 47) := by
  decide +kernel

end Evm

end ProbeChain
