/-
# Closing an account

A Cancellation closes one account, a CancellationLoss a loss report together with the lost account.
Whoever is named as the beneficiary is paid creation pledges, the accounts are marked, and at the
end of the transaction they are gone, with whatever they still held.

Closing BURNS NOTHING when the beneficiary gains everything the closed accounts are worth, creation
pledges included.  The pool asks that votes were redeemed first.  It does not ask for an empty
balance, nor for an Authorize account without a pledge, nor, for a loss report, that the lost
account and the beneficiary exist; `closing_burns_nothing_iff` says exactly what is left to ask for.
-/
import ProbeChain.Pool.Validate
import ProbeChain.State.NoPanic
import ProbeChain.State.Supply

namespace ProbeChain

open Option World StateDB

namespace StateObject

/-- What an account holds besides its creation pledge. -/
def held (o : StateObject) : Int := o.balance + (o.regularVotes + o.authorizePledge)

theorem assets_eq_held (o : StateObject) : o.assets = o.held + o.creationPledge := by
  simp only [assets, held]
  omega

end StateObject

open StateObject

/-! ## 1. The end of the transaction -/

variable {X : Externals} {s : StateDB} {ctx : TxContext} {a : Address} {o : StateObject}

theorem StateDB.balanceAt_finalise (h : s.world a = some o) (hopen : o.suicided = false) :
    s.finalise.world.balanceAt a = o.balance := by
  rw [balanceAt, world_finalise, h, bind_some, hopen]
  split <;> rfl

/-- What a call pays to an account it leaves open, once the transaction has ended. -/
theorem callDB_pays_iff {w' : World} (hw : s.world.callDB X ctx = some w') (ha : w' a = some o)
    (hopen : o.suicided = false) (v : Int) :
    (∃ s', callDB X s ctx = some s' ∧
      s'.finalise.world.balanceAt a = s.world.balanceAt a + v) ↔
      o.balance = s.world.balanceAt a + v := by
  have hsome : (callDB X s ctx).isSome := by rw [callDB_isSome, hw]; rfl
  obtain ⟨s', hs'⟩ := isSome_iff_exists.mp hsome
  have hworld : s'.world = w' := some.inj ((world_callDB hs').symm.trans hw)
  rw [← hworld] at ha
  rw [hs', ← balanceAt_finalise ha hopen]
  simp

theorem not_callDB_pays (hw : s.world.callDB X ctx = none) (P : StateDB → Prop) :
    ¬∃ s', callDB X s ctx = some s' ∧ P s' := by
  rintro ⟨s', hs', -⟩
  rw [world_callDB hs'] at hw
  cases hw

theorem callDB_pays_nothing_iff {w' : World} (hw : s.world.callDB X ctx = some w')
    (ha : w' a = none) (v : Int) :
    (∃ s', callDB X s ctx = some s' ∧
      s'.finalise.world.balanceAt a = s.world.balanceAt a + v) ↔
      0 = s.world.balanceAt a + v := by
  have hsome : (callDB X s ctx).isSome := by rw [callDB_isSome, hw]; rfl
  obtain ⟨s', hs'⟩ := isSome_iff_exists.mp hsome
  have hworld : s'.world = w' := some.inj ((world_callDB hs').symm.trans hw)
  have hzero : s'.finalise.world.balanceAt a = 0 := by
    rw [balanceAt, world_finalise, hworld, ha]
    rfl
  rw [hs']
  simp [hzero]

/-! ## 2. Cancellation -/

namespace World

variable {w : World}

/-- Closing one account in favour of another that carries a balance. -/
theorem credit_suicide_eq {a b : Address} {o : StateObject} (ho : w a = some o) (hne : b ≠ a)
    (v : Int) :
    (w.credit b v).suicide a =
      if o.closable then some ((w.credit b v).put a o.markSuicided) else none := by
  have hsame : w.credit b v a = some o := by rw [credit, put_of_ne _ _ (Ne.symm hne), ho]
  simp only [suicide, hsame]

theorem suicide_of_ne {w' : World} {a b : Address} (hw : w.suicide a = some w') (hne : b ≠ a) :
    w' b = w b := by
  rw [suicide_eq_modify hw, modify_of_ne hne]

theorem credit_self {b : Address} {p : StateObject} (hp : w b = some p) (v : Int) :
    w.credit b v b = some (p.setBalance (p.balance + v)) := by
  rw [credit, put_self, hp]
  rfl

/-- The account to close can be closed and holds nothing. -/
def CancellationBurnsNothing (w : World) (d : CancellationDecodeType) : Prop :=
  ∃ o, w d.cancelAddress = some o ∧ o.closable ∧ o.held = 0

/-- The beneficiary carries a balance, what the lost account is worth is the creation pledge of a
Regular account, and both accounts can be closed. -/
def CancellationLossBurnsNothing (w : World) (addr : Address) (loss : StateObject) : Prop :=
  match w loss.lossAccount.newAccount with
  | none => AccountType.loss.pledge + (w loss.lossAccount.lostAccount).elim 0 assets = 0
  | some b =>
    loss.closable ∧
    (∀ lost, w loss.lossAccount.lostAccount = some lost → lost.closable) ∧
    loss.lossAccount.lostAccount ≠ addr ∧
    if b.accountType.holdsBalance then
      (w loss.lossAccount.lostAccount).elim 0 assets = AccountType.regular.pledge
    else AccountType.loss.pledge + (w loss.lossAccount.lostAccount).elim 0 assets = 0

/-- Everything the report and the lost account are worth.  They may be one account. -/
def closedAssets (w : World) (addr : Address) (loss : StateObject) : Int :=
  loss.assets + if loss.lossAccount.lostAccount = addr then 0
    else (w loss.lossAccount.lostAccount).elim 0 assets

end World

/-- The types the pool lets be closed are those whose creation pledge is paid out. -/
theorem cancellationPledge_of_validateCancelled {pool : Pool} {sender : Address}
    (h : pool.validateCancelled sender a o = .ok ()) :
    (cancellationPledge o.accountType : Int) = o.creationPledge := by
  unfold Pool.validateCancelled at h
  unfold creationPledge
  cases ht : o.accountType <;> rw [ht] at h <;> first | rfl | cases h

variable {loss : StateObject}

/-- **A Cancellation burns nothing exactly when nothing is held**, if the beneficiary is a Regular
account and the pledge of the closed account is paid out at all. -/
theorem cancellation_burns_nothing_iff {d : CancellationDecodeType} {o b : StateObject}
    (hto : ctx.toAddr = some 0x104) (hd : decodeCancellation ctx.data = some d)
    (ho : s.world d.cancelAddress = some o) (hb : s.world d.beneficiaryAddress = some b)
    (hregular : b.accountType = .regular) (hopen : b.suicided = false)
    (hpledge : (cancellationPledge o.accountType : Int) = o.creationPledge)
    (hne : d.beneficiaryAddress ≠ d.cancelAddress) :
    (∃ s', callDB X s ctx = some s' ∧ s'.finalise.world.balanceAt d.beneficiaryAddress =
        s.world.balanceAt d.beneficiaryAddress + (s.world d.cancelAddress).elim 0 assets) ↔
      s.world.CancellationBurnsNothing d := by
  have hcall : s.world.callDB X ctx =
      if o.closable then some ((s.world.credit d.beneficiaryAddress
        (cancellationPledge o.accountType)).put d.cancelAddress o.markSuicided)
      else none := by
    rw [← credit_suicide_eq ho hne]
    simp only [World.callDB, hto]
    show World.cancellation _ _ = _
    simp only [World.cancellation, hd, ho]
  unfold World.CancellationBurnsNothing
  by_cases hclosable : o.closable
  · rw [if_pos hclosable] at hcall
    have hpaid := (put_of_ne _ o.markSuicided hne).trans
      (credit_self hb (cancellationPledge o.accountType))
    have hbalance : (b.setBalance (b.balance + cancellationPledge o.accountType)).balance =
        b.balance + o.creationPledge := by
      rw [balance_setBalance, hregular, hpledge]
      rfl
    rw [callDB_pays_iff hcall hpaid (by rw [setBalance_suicided, hopen]), hbalance,
      balanceAt, hb, ho, elim_some, elim_some, assets_eq_held]
    constructor
    · intro h
      exact ⟨o, rfl, hclosable, by omega⟩
    · rintro ⟨_, ⟨⟩, -, hheld⟩
      omega
  · rw [if_neg hclosable] at hcall
    refine iff_of_false (not_callDB_pays hcall _) ?_
    rintro ⟨_, h, hc, -⟩
    rw [ho] at h
    cases h
    exact hclosable hc

/-! ## 3. Cancellation of a lost account -/

theorem assets_of_loss (h : loss.accountType = .loss) : loss.assets = AccountType.loss.pledge := by
  simp only [assets, balance, regularVotes, authorizePledge, creationPledge, h]
  simp

/-- What the beneficiary of a CancellationLoss ends up with. -/
theorem cancellationLoss_beneficiary {addr : Address} {b : StateObject} {w w' : World}
    (hb : w loss.lossAccount.newAccount = some b) (hne : loss.lossAccount.newAccount ≠ addr)
    (hne' : loss.lossAccount.newAccount ≠ loss.lossAccount.lostAccount) {v : Int}
    (hw : ((w.credit loss.lossAccount.newAccount v).suicide addr).bind
      (·.suicide loss.lossAccount.lostAccount) = some w') :
    w' loss.lossAccount.newAccount = some (b.setBalance (b.balance + v)) := by
  obtain ⟨w₁, hw₁, hw₂⟩ := bind_eq_some_iff.mp hw
  rw [suicide_of_ne hw₂ hne', suicide_of_ne hw₁ hne, credit_self hb]

/-- **A CancellationLoss burns nothing exactly when the lost account is worth the creation pledge of
a Regular account** and the beneficiary can take what is paid. -/
theorem cancellationLoss_burns_nothing_iff {addr : Address}
    (hto : ctx.toAddr = some 0x108) (hd : decodeAddress ctx.data = some addr)
    (hl : s.world addr = some loss) (htype : loss.accountType = .loss)
    (hsettled : s.world.Settled) (hne : loss.lossAccount.newAccount ≠ addr)
    (hne' : loss.lossAccount.newAccount ≠ loss.lossAccount.lostAccount) :
    (∃ s', callDB X s ctx = some s' ∧ s'.finalise.world.balanceAt loss.lossAccount.newAccount =
        s.world.balanceAt loss.lossAccount.newAccount + s.world.closedAssets addr loss) ↔
      s.world.CancellationLossBurnsNothing addr loss := by
  have hassets := assets_of_loss htype
  have hcall : s.world.callDB X ctx = s.world.cancellationLoss ctx := by
    simp only [World.callDB, hto]
    rfl
  simp only [World.cancellationLoss, hd, hl] at hcall
  unfold World.CancellationLossBurnsNothing closedAssets
  cases hb : s.world loss.lossAccount.newAccount with
  | none =>
    simp only [hb] at hcall
    rw [callDB_pays_nothing_iff hcall hb, balanceAt, hb, elim_none]
    by_cases hself : loss.lossAccount.lostAccount = addr
    · -- the report would be its own lost account
      rw [if_pos hself, hself, hl, elim_some, hassets]
      simp [AccountType.pledge]
    · rw [if_neg hself]
      omega
  | some b =>
    simp only [hb] at hcall ⊢
    have hreport : s.world.credit loss.lossAccount.newAccount (AccountType.loss.pledge +
        AccountType.regular.pledge) addr = some loss := by
      rw [credit, put_of_ne _ _ (Ne.symm hne), hl]
    have hreturns := suicide_suicide_isSome hreport loss.lossAccount.lostAccount
    rw [credit_closable hb, ← hcall] at hreturns
    cases hw : s.world.callDB X ctx with
    | none =>
      refine iff_of_false (not_callDB_pays hw _) fun h => ?_
      have hsome := hreturns.mpr ⟨h.1, h.2.1⟩
      rw [hw] at hsome
      cases hsome
    | some w' =>
      obtain ⟨hclosable, hclosable'⟩ := hreturns.mp (isSome_of_eq_some hw)
      have hpaid := cancellationLoss_beneficiary hb hne hne' (hcall.symm.trans hw)
      rw [callDB_pays_iff hw hpaid (by rw [setBalance_suicided]; exact hsettled _ b hb),
        balance_setBalance, balanceAt, hb, elim_some]
      rw [and_iff_right hclosable, and_iff_right hclosable']
      have hpledge : (0 : Int) < AccountType.loss.pledge := by decide
      have hpledge' : (0 : Int) < AccountType.regular.pledge := by decide
      by_cases hself : loss.lossAccount.lostAccount = addr
      · rw [if_pos hself]
        refine iff_of_false (fun h => ?_) (fun h => h.1 hself)
        by_cases hplain : b.accountType.holdsBalance = true
        · rw [if_pos hplain] at h
          omega
        · rw [if_neg hplain, balance_of_not_holds (Bool.eq_false_of_not_eq_true hplain)] at h
          omega
      · rw [if_neg hself, and_iff_right hself]
        by_cases hplain : b.accountType.holdsBalance = true
        · rw [if_pos hplain, if_pos hplain]
          omega
        · rw [if_neg hplain, if_neg hplain,
            balance_of_not_holds (Bool.eq_false_of_not_eq_true hplain)]
          omega

/-! ## 4. What the pool accepts -/

/-- **Exactly when closing burns nothing**, for a transaction that passes the pool's checks on the
state it is executed on. -/
theorem closing_burns_nothing_iff {X : Externals} {pool : Pool} {tx : Transaction} {isLocal : Bool}
    {sender : Address} (hpool : pool.validateTx X tx isLocal = .ok ())
    (hsender : tx.sender = some sender) (hsettled : pool.currentState.world.Settled)
    (pobEpoch : UInt64) (blockNumber : Option Nat) :
    (∀ d, tx.toAddr = some 0x104 → decodeCancellation tx.data = some d →
      d.beneficiaryAddress ≠ d.cancelAddress →
      ((∃ s', callDB X pool.currentState (tx.context sender pobEpoch blockNumber) = some s' ∧
        s'.finalise.world.balanceAt d.beneficiaryAddress =
          pool.currentState.world.balanceAt d.beneficiaryAddress +
            (pool.currentState.world d.cancelAddress).elim 0 assets) ↔
        pool.currentState.world.CancellationBurnsNothing d)) ∧
    (∀ addr loss, tx.toAddr = some 0x108 → decodeAddress tx.data = some addr →
      pool.currentState.world addr = some loss → loss.lossAccount.newAccount ≠ addr →
      loss.lossAccount.newAccount ≠ loss.lossAccount.lostAccount →
      ((∃ s', callDB X pool.currentState (tx.context sender pobEpoch blockNumber) = some s' ∧
        s'.finalise.world.balanceAt loss.lossAccount.newAccount =
          pool.currentState.world.balanceAt loss.lossAccount.newAccount +
            pool.currentState.world.closedAssets addr loss) ↔
        pool.currentState.world.CancellationLossBurnsNothing addr loss)) := by
  obtain ⟨sender', hsender', hop⟩ := Pool.validateTx_eq_ok hpool
  cases (Pool.validateSender_eq_ok hsender').symm.trans hsender
  refine ⟨fun d hto hd hne => ?_, fun addr loss hto hd hl hne hne' => ?_⟩
  · obtain ⟨d', hd', o, ho, b, hb, hregular, hcancelled⟩ :=
      Pool.validateTxOfCancellation_eq_ok.mp (hop _ hto)
    cases hd'.symm.trans hd
    exact cancellation_burns_nothing_iff hto hd ho hb hregular (hsettled _ b hb)
      (cancellationPledge_of_validateCancelled hcancelled) hne
  · obtain ⟨addr', haddr', loss', hl', htype, -⟩ :=
      Pool.validateTxOfCancellationLossAccount_eq_ok.mp (hop _ hto)
    cases haddr'.symm.trans hd
    cases (show pool.currentState.world addr = some loss' from hl').symm.trans hl
    exact cancellationLoss_burns_nothing_iff hto hd hl htype hsettled hne hne'

/-- Two Regular accounts, and a PNS account that belongs to the first of them. -/
def closingPool : Pool :=
  { currentState := ofAccounts [(1, .ofBalance 1000000000000000000), (2, .ofBalance 0),
      (5, { accountType := .pns, pnsAccount := { owner := 1 } })]
    currentNumber := 100, currentMaxGas := 8000000, gasPrice := 1, eip2718 := true,
    eip1559 := true, istanbul := true }

/-- Account `1` closes `cancel` in favour of `2`. -/
def closingTx (cancel : Address) : Transaction :=
  { sender := some 1, toAddr := some 0x104, value := 0, gas := 100000, gasPrice := 1,
    gasFeeCap := 1, gasTipCap := 1,
    data := Rlp.encodeList (Rlp.encodeString (Address.bytes cancel) ++
      Rlp.encodeString (Address.bytes 2)) }

set_option maxRecDepth 3000 in
/-- Closing the PNS account pays its creation pledge, and that is all there was. -/
theorem closing_pns_burns_nothing :
    closingPool.validateTx plainExternals (closingTx 5) false = .ok () ∧
    ∃ s', callDB plainExternals closingPool.currentState ((closingTx 5).context 1 0 none) =
      some s' ∧ s'.finalise.world.balanceAt 2 = closingPool.currentState.world.balanceAt 2 +
        (closingPool.currentState.world 5).elim 0 assets := by
  have hpool : closingPool.validateTx plainExternals (closingTx 5) false = .ok () := rfl
  have hsettled : closingPool.currentState.world.Settled :=
    settled_ofAccounts _ (by simp [ofBalance])
  refine ⟨hpool,
    ((closing_burns_nothing_iff hpool rfl hsettled 0 none).1 ⟨5, 2⟩ rfl rfl (by decide)).mpr ?_⟩
  exact ⟨_, rfl, rfl, rfl⟩

/-- Closing one's own account pays its creation pledge and burns the balance. -/
theorem closing_regular_burns_balance :
    closingPool.validateTx plainExternals (closingTx 1) false = .ok () ∧
    ∃ s', callDB plainExternals closingPool.currentState ((closingTx 1).context 1 0 none) =
      some s' ∧ s'.finalise.world.balanceAt 2 = closingPool.currentState.world.balanceAt 2 +
        AccountType.regular.pledge ∧
      s'.finalise.world 1 = none ∧ (closingPool.currentState.world 1).elim 0 assets =
        AccountType.regular.pledge + 1000000000000000000 := by
  exact ⟨rfl, _, rfl, rfl, rfl, rfl⟩

end ProbeChain
