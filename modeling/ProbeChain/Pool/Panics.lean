/-
# Whether validation returns

`validateTx` runs on what anybody sends.  Its checks dereference amounts of accounts, and
`validateTxOfRevealLossReport` calls `Last10BitsToUint` on an address from the payload, which
indexes into the bytes of a big integer.

The amounts are there in every account that was decoded from the trie.  The bytes are not:
`validation_returns_iff` says that revealing a loss report is the one way to make the pool panic,
and that `Last10BitsToUint` gives the last ten bits only of an address with one of the six bits
before them set.
-/
import ProbeChain.Pool.Validate
import ProbeChain.State.Refinement

namespace ProbeChain

open Check Option

/-! ## 1. The last ten bits -/

variable {a : Address}

theorem last10BitsToUint_eq {k : Nat} (hlo : 256 ^ k ≤ a.toNat % 65536 * 64)
    (hhi : a.toNat % 65536 * 64 < 256 ^ (k + 1)) :
    last10BitsToUint a = some (a.toNat % 65536 * 64 % 256 ^ k / 64) := by
  obtain ⟨hne, htail⟩ := BigEndian.toNat_tail_ofNat hlo hhi
  unfold last10BitsToUint
  cases hbytes : BigEndian.ofNat (a.toNat % 65536 * 64) with
  | nil => exact absurd hbytes hne
  | cons b rest =>
    rw [hbytes, List.tail_cons] at htail
    rw [← htail]

/-- Zero has no first byte. -/
theorem last10BitsToUint_eq_none : last10BitsToUint a = none ↔ a.toNat % 65536 = 0 := by
  constructor
  · intro h
    by_contra hne
    unfold last10BitsToUint at h
    have hpos := BigEndian.ofNat_length_pos (n := a.toNat % 65536 * 64) (by omega)
    split at h
    next hnil =>
      rw [hnil] at hpos
      exact absurd hpos (lt_irrefl 0)
    next => cases h
  · intro h
    unfold last10BitsToUint
    rw [h]
    rfl

/-- **The last ten bits** are what is returned of an address with one of the six bits before them
set; of the others the last two bits are, or none. -/
theorem last10BitsToUint_correct_iff :
    last10BitsToUint a = some (a.toNat % 1024) ↔ 1024 ≤ a.toNat % 65536 := by
  have hmod : a.toNat % 1024 = a.toNat % 65536 % 1024 := by omega
  generalize hv : a.toNat % 65536 = v
  by_cases h1024 : 1024 ≤ v
  · refine iff_of_true ?_ h1024
    rw [last10BitsToUint_eq (k := 2) (by omega) (by omega), hv]
    congr 1
    omega
  · refine iff_of_false ?_ h1024
    by_cases h4 : 4 ≤ v
    · rw [last10BitsToUint_eq (k := 1) (by omega) (by omega), hv, some.injEq]
      omega
    · by_cases h0 : v = 0
      · rw [last10BitsToUint_eq_none.mpr (hv.trans h0)]
        exact (some_ne_none _).symm
      · rw [last10BitsToUint_eq (k := 0) (by omega) (by omega), hv, some.injEq]
        omega

/-! ## 2. The checks -/

/-- Every account has the amounts that its type has, as all have that come from the trie. -/
def StateDB.Decoded (s : StateDB) : Prop := ∀ a o, s.getStateObject a = some o → o.closable = true

section
variable {s : StateDB} {o : StateObject} (hs : s.Decoded) (ho : s.getStateObject a = some o)
include hs ho

theorem StateDB.Decoded.voteValue (htype : o.accountType = .regular) :
    o.regularAccount.voteValue.isSome = true := by
  have h := hs a o ho
  rwa [StateObject.closable, htype] at h

theorem StateDB.Decoded.amounts (htype : o.accountType = .authorize) :
    o.authorizeAccount.pledgeValue.isSome = true ∧ o.authorizeAccount.voteValue.isSome = true ∧
      o.authorizeAccount.validPeriod.isSome = true := by
  have h := hs a o ho
  rw [StateObject.closable, htype] at h
  simpa [and_assoc] using h

theorem StateDB.Decoded.height (htype : o.accountType = .loss) :
    o.lossAccount.height.isSome = true := by
  have h := hs a o ho
  rwa [StateObject.closable, htype] at h

end

namespace Pool

def IsPanic (e : PoolError) : Prop := e = .nilPointer

variable {X : Externals} {pool : Pool} {tx : Transaction} {sender : Address}

theorem avoids_deref {α : Type} {o : Option α} : Avoids IsPanic (deref o) ↔ o.isSome := by
  simp [deref, IsPanic]

theorem avoids_deref_bind {α β : Type} {o : Option α} {f : α → Except PoolError β} :
    Avoids IsPanic (deref o >>= f) ↔ o.isSome ∧ ∀ a, o = some a → Avoids IsPanic (f a) := by
  rw [avoids_bind, avoids_deref]
  refine and_congr_right fun _ => forall_congr' fun a => imp_congr_left ?_
  cases o <;> simp [deref, getOr]

theorem avoids_validateTxOfRegister (op : Operation) :
    Avoids IsPanic (pool.validateTxOfRegister X tx sender op) := by
  unfold validateTxOfRegister registeredAddress canLossMark
  cases op <;> simp [avoids_bind, IsPanic]

theorem avoids_validateTxOfTransfer (dest : Address) :
    Avoids IsPanic (pool.validateTxOfTransfer tx dest) := by
  unfold validateTxOfTransfer
  rw [avoids_require_bind (by simp [IsPanic])]
  intro _
  cases pool.getStateObject dest <;> simp [IsPanic]

theorem avoids_validateTxOfRejectLossReport :
    Avoids IsPanic (pool.validateTxOfRejectLossReport tx sender) := by
  simp [validateTxOfRejectLossReport, avoids_getOr_bind, avoids_require_bind, IsPanic]

theorem avoids_validateTxOfModifyPnsOwner :
    Avoids IsPanic (pool.validateTxOfModifyPnsOwner tx sender) := by
  simp [validateTxOfModifyPnsOwner, avoids_getOr_bind, avoids_require_bind, IsPanic]

theorem avoids_validateTxOfModifyPnsContent :
    Avoids IsPanic (pool.validateTxOfModifyPnsContent tx sender) := by
  simp [validateTxOfModifyPnsContent, avoids_getOr_bind, avoids_require_bind, IsPanic]

theorem avoids_validateTxOfModifyLossType : Avoids IsPanic (validateTxOfModifyLossType tx) := by
  simp [validateTxOfModifyLossType, avoids_getOr_bind, IsPanic]

theorem avoids_validateTxOfTransferLostAssociatedAccount (op : Operation) :
    Avoids IsPanic (pool.validateTxOfTransferLostAssociatedAccount tx op) := by
  simp only [validateTxOfTransferLostAssociatedAccount, avoids_getOr_bind,
    avoids_require_bind, IsPanic, reduceCtorEq, not_false_eq_true]
  intro d _ loss _ _ _ lost _ _ new _ _
  cases op <;> simp [avoids_getOr_bind, avoids_require_bind, IsPanic, pure, Except.pure]

theorem avoids_validateTxOfCancellationLossAccount :
    Avoids IsPanic (pool.validateTxOfCancellationLossAccount tx) := by
  simp [validateTxOfCancellationLossAccount, avoids_getOr_bind, avoids_require_bind, IsPanic]

theorem avoids_validateGas (isLocal : Bool) : Avoids IsPanic (pool.validateGas tx isLocal) := by
  simp [validateGas, intrinsicGas, avoids_bind, IsPanic, pure, Except.pure]

theorem avoids_validateSender : Avoids IsPanic (pool.validateSender tx) := by
  simp [validateSender, avoids_getOr_bind, avoids_require_bind, IsPanic, pure, Except.pure]

section
variable (hstate : pool.currentState.Decoded)
include hstate

theorem avoids_validateTxOfCancellation :
    Avoids IsPanic (pool.validateTxOfCancellation tx sender) := by
  simp only [validateTxOfCancellation, avoids_getOr_bind, avoids_require_bind, IsPanic,
    reduceCtorEq, not_false_eq_true]
  intro d _ o ho _ _ _
  unfold validateCancelled
  cases htype : o.accountType with
  | regular =>
    simp only [avoids_deref_bind, avoids_require_bind, avoids_require, IsPanic, reduceCtorEq,
      not_false_eq_true, false_imp_iff, implies_true, and_true]
    exact hstate.voteValue ho htype
  | authorize =>
    obtain ⟨-, hvote, hperiod⟩ := hstate.amounts ho htype
    simp only [avoids_deref_bind, avoids_require_bind, avoids_require, IsPanic, reduceCtorEq,
      not_false_eq_true, false_imp_iff, implies_true, and_true]
    exact ⟨hperiod, fun _ _ _ _ => hvote⟩
  | pns => simp [IsPanic]
  | contract => simp [IsPanic]
  | loss => simp [IsPanic]
  | lossMark => simp [IsPanic]
  | dpos => simp [IsPanic]

theorem avoids_validateTxOfTransferLostAccount :
    Avoids IsPanic (pool.validateTxOfTransferLostAccount tx) := by
  simp only [validateTxOfTransferLostAccount, avoids_getOr_bind, avoids_require_bind,
    avoids_deref_bind, avoids_require, IsPanic, reduceCtorEq, not_false_eq_true, false_imp_iff,
    implies_true, and_true]
  intro addr _ loss hloss htype _ _ _ _ _
  exact hstate.height hloss htype

theorem avoids_validateTxOfRemoveLossReport :
    Avoids IsPanic (pool.validateTxOfRemoveLossReport tx) := by
  simp only [validateTxOfRemoveLossReport, avoids_getOr_bind, avoids_require_bind,
    avoids_deref_bind, avoids_require, IsPanic, reduceCtorEq, not_false_eq_true, false_imp_iff,
    implies_true, and_true]
  intro addr _ loss hloss htype _
  exact hstate.height hloss htype

variable (hsender : (pool.getStateObject sender).isSome = true)
include hsender

theorem avoids_validateTxOfApplyToBeDPoSNode :
    Avoids IsPanic (pool.validateTxOfApplyToBeDPoSNode tx sender) := by
  simp only [validateTxOfApplyToBeDPoSNode, avoids_getOr_bind, avoids_require_bind,
    avoids_deref_bind, avoids_require, IsPanic, reduceCtorEq, not_false_eq_true, false_imp_iff,
    implies_true, and_true]
  intro d _ _ o ho htype
  obtain ⟨hpledge, hvote, hperiod⟩ := hstate.amounts ho htype
  exact ⟨hperiod, fun _ _ _ => ⟨hsender, fun _ _ _ => ⟨hpledge, fun _ _ => hvote⟩⟩⟩

theorem avoids_validateTxOfVote : Avoids IsPanic (pool.validateTxOfVote tx sender) := by
  simp only [validateTxOfVote, avoids_getOr_bind, avoids_require_bind, avoids_deref_bind,
    avoids_require, IsPanic, reduceCtorEq, not_false_eq_true, false_imp_iff, implies_true, and_true]
  intro addr _ o ho htype
  exact ⟨(hstate.amounts ho htype).2.2, fun _ _ _ => hsender⟩

theorem avoids_validateTxOfRedemption : Avoids IsPanic (pool.validateTxOfRedemption tx sender) := by
  simp only [validateTxOfRedemption, avoids_getOr_bind, avoids_require_bind, IsPanic, reduceCtorEq,
    not_false_eq_true]
  intro addr _ o ho htype
  have hperiod := (hstate.amounts ho htype).2.2
  split
  · simp only [avoids_require_bind, avoids_deref_bind, avoids_require, IsPanic, reduceCtorEq,
      not_false_eq_true, false_imp_iff, implies_true, and_true]
    exact ⟨hsender, fun _ _ _ => hperiod⟩
  · simp only [avoids_deref_bind, avoids_require, IsPanic, reduceCtorEq, false_imp_iff,
      implies_true, and_true]
    exact hperiod

end

/-- Nothing else is dereferenced when a report is revealed. -/
theorem avoids_validateTxOfRevealLossReport :
    Avoids IsPanic (pool.validateTxOfRevealLossReport X tx) ↔
      ∀ d, decodeRevealLossReport tx.data = some d →
        ∀ loss, pool.getStateObject d.lossAccount = some loss → loss.accountType = .loss →
        loss.lossAccount.state = .apply →
        (pool.getStateObject specialAddressForRegisterLose).isSome = true →
        d.oldAccount.toNat % 65536 ≠ 0 := by
  simp only [validateTxOfRevealLossReport, avoids_getOr_bind, avoids_require_bind,
    avoids_deref_bind, avoids_require, IsPanic, reduceCtorEq, not_false_eq_true, false_imp_iff,
    implies_true, and_true, ne_eq, ← last10BitsToUint_eq_none,
    isSome_iff_ne_none (o := last10BitsToUint _),
    isSome_iff_exists (x := pool.getStateObject specialAddressForRegisterLose), forall_exists_index]

/-! ## 3. The whole check -/

/-- Revealing a loss report gets as far as the bits of the lost account. -/
structure RevealsBits (pool : Pool) (tx : Transaction) (oldAccount : Address) : Prop where
  sender : ∃ sender, pool.validateSender tx = .ok sender
  reveal : ∃ dest, tx.toAddr = some dest ∧ operationOf dest = .revealLossReport
  report : ∃ d, decodeRevealLossReport tx.data = some d ∧ d.oldAccount = oldAccount ∧
    ∃ loss, pool.getStateObject d.lossAccount = some loss ∧ loss.accountType = .loss ∧
      loss.lossAccount.state = .apply
  mark : (pool.getStateObject specialAddressForRegisterLose).isSome = true

theorem isSome_of_validateSender (h : pool.validateSender tx = .ok sender) :
    (pool.getStateObject sender).isSome = true := by
  simp only [validateSender, getOr_bind_eq_ok, require_bind_eq_ok] at h
  obtain ⟨a, -, o, ho, -, -, -, hsender⟩ := h
  cases hsender
  rw [ho]
  rfl

theorem avoids_validateOperation (hstate : pool.currentState.Decoded)
    (hsender : (pool.getStateObject sender).isSome = true) {dest : Address}
    (hop : operationOf dest ≠ .revealLossReport) :
    Avoids IsPanic (pool.validateOperation X tx sender dest) := by
  unfold validateOperation
  cases h : operationOf dest with
  | registerPns => exact avoids_validateTxOfRegister _
  | registerAuthorize => exact avoids_validateTxOfRegister _
  | registerLose => exact avoids_validateTxOfRegister _
  | cancellation => exact avoids_validateTxOfCancellation hstate
  | revealLossReport => exact absurd h hop
  | transferLostAccountBalance => exact avoids_validateTxOfTransferLostAccount hstate
  | removeLossReport => exact avoids_validateTxOfRemoveLossReport hstate
  | rejectLossReport => exact avoids_validateTxOfRejectLossReport
  | vote => exact avoids_validateTxOfVote hstate hsender
  | applyToBeDPoSNode => exact avoids_validateTxOfApplyToBeDPoSNode hstate hsender
  | redemption => exact avoids_validateTxOfRedemption hstate hsender
  | modifyPnsOwner => exact avoids_validateTxOfModifyPnsOwner
  | modifyPnsContent => exact avoids_validateTxOfModifyPnsContent
  | modifyLossType => exact avoids_validateTxOfModifyLossType
  | transferLostAccountPns => exact avoids_validateTxOfTransferLostAssociatedAccount _
  | transferLostAccountAuthorize => exact avoids_validateTxOfTransferLostAssociatedAccount _
  | cancellationLostAccount => exact avoids_validateTxOfCancellationLossAccount
  | transfer =>
    dsimp only
    split
    · simp [IsPanic]
    · exact avoids_validateTxOfTransfer dest

theorem avoids_validateTx (hstate : pool.currentState.Decoded) (isLocal : Bool) :
    Avoids IsPanic (pool.validateTx X tx isLocal) ↔
      ∀ oldAccount, pool.RevealsBits tx oldAccount → oldAccount.toNat % 65536 ≠ 0 := by
  unfold validateTx
  rw [avoids_bind]
  simp only [avoids_validateSender, true_and]
  constructor
  · rintro h _ ⟨⟨sender, hsender⟩, ⟨dest, hdest, hop⟩,
      ⟨d, hd, rfl, loss, hloss, htype, happly⟩, hmark⟩
    have h := h sender hsender
    simp only [hdest] at h
    have h := (avoids_bind.mp h).1
    rw [validateOperation, hop] at h
    exact avoids_validateTxOfRevealLossReport.mp h d hd loss hloss htype happly hmark
  · intro h sender hsender
    cases hdest : tx.toAddr with
    | none => exact avoids_validateGas isLocal
    | some dest =>
      refine avoids_bind.mpr ⟨?_, fun _ _ => avoids_validateGas isLocal⟩
      by_cases hop : operationOf dest = .revealLossReport
      · rw [validateOperation, hop]
        refine avoids_validateTxOfRevealLossReport.mpr fun d hd loss hloss htype happly hmark => ?_
        exact h _ ⟨⟨sender, hsender⟩, ⟨dest, hdest, hop⟩,
          ⟨d, hd, rfl, loss, hloss, htype, happly⟩, hmark⟩
      · exact avoids_validateOperation hstate (isSome_of_validateSender hsender) hop

/-- **Where validation is right**: it panics if a report is revealed for an account whose last two
bytes are zero, and `Last10BitsToUint` is right where the last two bytes are at least 1024. -/
theorem validation_returns_iff (X : Externals) {pool : Pool} (hstate : pool.currentState.Decoded)
    (tx : Transaction) (isLocal : Bool) (a : Address) :
    (pool.validateTx X tx isLocal ≠ .error .nilPointer ↔
      ∀ oldAccount, pool.RevealsBits tx oldAccount → oldAccount.toNat % 65536 ≠ 0) ∧
    (last10BitsToUint a = some (a.toNat % 1024) ↔ 1024 ≤ a.toNat % 65536) := by
  refine ⟨?_, last10BitsToUint_correct_iff⟩
  rw [← avoids_validateTx (X := X) hstate isLocal]
  constructor
  · rintro h e he rfl
    exact h he
  · intro h hpanic
    exact h _ hpanic rfl

/-- Account `9` is a loss report that is not revealed. -/
def lossPool : Pool :=
  { currentState := StateDB.ofAccounts [(1, .ofBalance 1000000000000000000),
      (9, { accountType := .loss, lossAccount := { height := some 0 } }),
      (specialAddressForRegisterLose, .new .lossMark)]
    currentNumber := 100, currentMaxGas := 8000000, gasPrice := 1, eip2718 := true,
    eip1559 := true, istanbul := true }

/-- Account `1` reveals the report, for the lost account `old`. -/
def revealTx (old : Address) : Transaction :=
  { sender := some 1, toAddr := some 0x109, value := 0, gas := 100000, gasPrice := 1,
    gasFeeCap := 1, gasTipCap := 1,
    data := Rlp.encodeList
      (Rlp.encodeString (Address.bytes 9) ++ Rlp.encodeString (Address.bytes old) ++
      Rlp.encodeString (Address.bytes 2) ++ Rlp.encodeString [7]) }

theorem decoded_lossPool : lossPool.currentState.Decoded := by
  intro a o ho
  have hmem := StateDB.mem_of_world_ofAccounts ho
  simp only [List.mem_cons, List.not_mem_nil, or_false, Prod.mk.injEq] at hmem
  rcases hmem with ⟨-, rfl⟩ | ⟨-, rfl⟩ | ⟨-, rfl⟩ <;> rfl

/-- The last two bytes are 1024, and the pool has an answer. -/
theorem validation_returns_reveal : lossPool.currentState.Decoded ∧
    lossPool.validateTx plainExternals (revealTx 0x400) false ≠ .error .nilPointer ∧
    last10BitsToUint 0x400 = some 0 := by
  refine ⟨decoded_lossPool, ?_⟩
  obtain ⟨hreturns, hbits⟩ :=
    validation_returns_iff plainExternals decoded_lossPool (revealTx 0x400) false 0x400
  refine ⟨hreturns.mpr ?_, hbits.mpr (by decide)⟩
  rintro old ⟨-, -, ⟨d, hd, rfl, -⟩, -⟩
  have hold : (decodeRevealLossReport (revealTx 0x400).data).map (·.oldAccount) = some 0x400 := by
    decide +kernel
  rw [hd, map_some, some.injEq] at hold
  rw [hold]
  decide

/-- The last two bytes are zero, and the pool panics; of address 5 the last ten bits come out
as 1. -/
theorem reveal_panics :
    lossPool.validateTx plainExternals (revealTx 0x10000) false = .error .nilPointer ∧
      last10BitsToUint 5 = some 1 := ⟨rfl, rfl⟩

end Pool

end ProbeChain
