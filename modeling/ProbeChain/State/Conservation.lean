/-
# Operations that move value

`Transfer`, `RevealLossReport` and `TransferLostAccount` move amounts between accounts.  What they
should keep is the sum of all balances and all votes cast by Regular accounts, less one creation
pledge for each account they create (`World.Conserves`).

They do not in general: an amount sent to an account that carries no balance is gone, one taken from
such an account comes from nowhere, a lost account that is its own beneficiary loses everything.
For each operation the condition under which it conserves value is exact: `conserves_transfer_iff`,
`conserves_revealLossReport_iff`, `conserves_transferLostAccount_iff`.
-/
import ProbeChain.State.Value

namespace ProbeChain

open Option StateDB

/-! ## 1. Conservation -/

namespace StateObject

/-- Balance and cast votes. -/
def spendable (o : StateObject) : Int := o.balance + o.regularVotes

/-- Balance, cast votes, and the pledge the account was created for. -/
def value (o : StateObject) : Int := o.balance + (o.regularVotes + o.creationPledge)

theorem countsBalance_value : CountsBalance value :=
  countsBalance_balance.add fun o x => by
    rw [regularVotes_setBalance, creationPledge_setBalance]

theorem countsVotes_value : CountsVotes value := by
  have h : value = fun o => o.regularVotes + (o.balance + o.creationPledge) := by
    funext o
    simp only [value]
    omega
  rw [h]
  exact countsVotes_regularVotes.add fun _ _ _ => rfl

@[simp] theorem value_new_regular : (new .regular).value = AccountType.regular.pledge := rfl

theorem unreported_value : Unreported value 0 := {}

end StateObject

namespace World

open StateObject

/-- One creation pledge for each account of `w'` that `w` does not have. -/
noncomputable def createdPledges (w w' : World) : Int :=
  ∑ a, if (w a).isNone then (w' a).elim 0 creationPledge else 0

/-- What is in balances and votes before is there after, except for the pledges of what was
created. -/
def Conserves (w w' : World) : Prop := w'.sum spendable = w.sum spendable - createdPledges w w'

/-- No account disappears or changes its type. -/
def KeepsTypes (w w' : World) : Prop :=
  ∀ a o, w a = some o → (w' a).map (·.accountType) = some o.accountType

theorem KeepsTypes.refl (w : World) : w.KeepsTypes w := fun _ _ h => by rw [h]; rfl

variable {w w' : World}

theorem KeepsTypes.trans {w'' : World} (h : w.KeepsTypes w') (h' : w'.KeepsTypes w'') :
    w.KeepsTypes w'' := by
  intro a o ho
  obtain ⟨p, hp, hpo⟩ := map_eq_some_iff.mp (h a o ho)
  rw [h' a p hp, hpo]

theorem keepsTypes_put {a : Address} {o : StateObject}
    (h : ∀ p, w a = some p → o.accountType = p.accountType) : w.KeepsTypes (w.put a o) := by
  intro b p hb
  by_cases hba : b = a
  · subst hba
    rw [put_self, map_some, h p hb]
  · rw [put_of_ne _ _ hba, hb]
    rfl

theorem keepsTypes_modify (w : World) (a : Address) {f : StateObject → StateObject}
    (hf : ∀ o, (f o).accountType = o.accountType) : w.KeepsTypes (w.modify a f) := by
  intro b p hb
  rw [map_modify (·.accountType) hf, hb]
  rfl

theorem keepsTypes_credit (w : World) (a : Address) (v : Int) : w.KeepsTypes (w.credit a v) :=
  keepsTypes_put fun p hp => by simp [credited, hp]

theorem keepsTypes_updateLossMark (w : World) (lastBits : UInt32) (flag : Bool) :
    w.KeepsTypes (w.updateLossMark lastBits flag) :=
  keepsTypes_put fun p hp => by simp [lossMarkObject, hp]

/-- Where no account disappears, conservation is that the sum with the pledges stays the same. -/
theorem conserves_iff (h : w.KeepsTypes w') : w.Conserves w' ↔ w'.sum value = w.sum value := by
  have hpledge : createdPledges w w' = w'.sum creationPledge - w.sum creationPledge := by
    rw [sum, sum, Ledger.total, Ledger.total, ← Finset.sum_sub_distrib]
    refine Finset.sum_congr rfl fun a _ => ?_
    cases ha : w a with
    | none => simp
    | some o =>
      obtain ⟨p, hp, hpo⟩ := map_eq_some_iff.mp (h a o ha)
      simp [hp, creationPledge, hpo]
  have hvalue (v : World) : v.sum value = v.sum spendable + v.sum creationPledge := by
    rw [sum, sum, sum, Ledger.total, Ledger.total, Ledger.total, ← Finset.sum_add_distrib]
    refine Finset.sum_congr rfl fun a _ => ?_
    cases v a with
    | none => rfl
    | some o => simp only [elim_some, value, spendable]; omega
  rw [Conserves, hpledge, hvalue w, hvalue w']
  omega

/-! ## 2. Paying from one account to another -/

/-- Two payments, seen from the sum. -/
theorem sum_value_credit_credit (w : World) (a b : Address) (u v : Int) :
    ((w.credit a u).credit b v).sum value = w.sum value +
      (gain AccountType.regular.pledge u (funding (w a)) +
        gain AccountType.regular.pledge v
          (if b = a then (funding (w a)).paid else funding (w b))) := by
  rw [sum_credit countsBalance_value, sum_credit countsBalance_value, funding_credit,
    value_new_regular, Int.add_assoc]

/-- The sender and the receiver are of the same kind, or the receiver is created out of the
value. -/
def TransferConserves (w : World) (ctx : TxContext) (dest : Address) : Prop :=
  ctx.value = 0 ∨ ctx.fromAddr = dest ∨
    match funding (w ctx.fromAddr), funding (w dest) with
    | .holder, .holder => True
    | .holder, .missing => True
    | .plain, .plain => True
    | .missing, .plain => ctx.value = AccountType.regular.pledge
    | _, _ => False

theorem funding_eq_missing {o : Option StateObject} : funding o = .missing ↔ o = none := by
  cases o with
  | none => simp [funding]
  | some o =>
    simp only [funding, reduceCtorEq, iff_false]; cases o.accountType.holdsBalance <;> simp

theorem conserves_transfer_iff (w : World) (ctx : TxContext) (dest : Address) :
    w.Conserves (w.transfer ctx dest) ↔ w.TransferConserves ctx dest := by
  unfold transfer TransferConserves
  split
  next hzero =>
    rw [conserves_iff (KeepsTypes.refl w)]
    simp [hzero]
  next hzero =>
    rw [conserves_iff ((keepsTypes_credit _ _ _).trans (keepsTypes_credit _ _ _)),
      sum_value_credit_credit]
    have hnew : (w dest).isNone = decide (funding (w dest) = .missing) := by
      rw [Bool.eq_iff_iff, decide_eq_true_iff, funding_eq_missing, isNone_iff_eq_none]
    rw [hnew]
    by_cases hsame : dest = ctx.fromAddr
    · subst hsame
      cases funding (w ctx.fromAddr) <;> simp [gain, Funding.paid]
    · rw [if_neg hsame]
      simp only [hzero, Ne.symm hsame, false_or]
      cases funding (w ctx.fromAddr) <;> cases funding (w dest) <;>
        simp [gain, AccountType.pledge] <;> omega

/-! ## 3. Revealing a loss report -/

/-- As `funding`, once the account of the loss marks is there. -/
def markedFunding (w : World) (a : Address) : Funding :=
  if a = specialAddressForRegisterLose ∧ w a = none then .plain else funding (w a)

/-- The lost account exists, and is of the same kind as the sender; or no value is sent, or exactly
a pledge from a sender that did not exist.  Nobody pays for a lost account that is created here. -/
def RevealLossReportConserves (w : World) (ctx : TxContext) : Prop :=
  ∀ d, decodeRevealLossReport ctx.data = some d →
    if ctx.fromAddr = d.oldAccount then w.markedFunding d.oldAccount ≠ .missing
    else
      match w.markedFunding ctx.fromAddr, w.markedFunding d.oldAccount with
      | .holder, .holder => True
      | .plain, .plain => True
      | .holder, .plain => ctx.value = 0
      | .plain, .holder => ctx.value = 0
      | .missing, .plain => ctx.value = AccountType.regular.pledge
      | _, _ => False

/-- The part of revealing before anything is paid: it moves no value and creates at most the
account of the loss marks. -/
theorem revealed_spec {f : StateObject → Int} (hf : Unreported f 0) (w : World) (ctx : TxContext)
    (d : RevealLossReportDecodeType) {loss : StateObject} (hl : w d.lossAccount = some loss) :
    let w₁ := ((w.put d.lossAccount (revealed ctx loss d)).updateLossMark
      loss.lossAccount.lastBits false).setRegularLossState d.oldAccount true
    w.KeepsTypes w₁ ∧ w₁.sum f = w.sum f ∧
      ∀ a, funding (w₁ a) = w.markedFunding a := by
  intro w₁
  refine ⟨?_, sum_congr (view_revealed hf ctx hl), ?_⟩
  · refine ((keepsTypes_put fun p hp => ?_).trans (keepsTypes_updateLossMark _ _ _)).trans
      (keepsTypes_modify _ _ fun _ => rfl)
    rw [hl] at hp
    cases hp
    rfl
  · intro a
    have htype := map_put_of_some (·.accountType) hl (p := revealed ctx loss d) rfl a
    have hnone : w.put d.lossAccount (revealed ctx loss d) a = none ↔ w a = none := by
      rw [← map_eq_none_iff, htype, map_eq_none_iff]
    rw [funding_congr (map_setRegularLossState _ (fun _ _ => rfl) _ _ _ _),
      funding_updateLossMark, funding_congr htype, markedFunding]
    simp only [hnone]

theorem conserves_revealLossReport_iff {ctx : TxContext} (hw : w.revealLossReport ctx = some w') :
    w.Conserves w' ↔ w.RevealLossReportConserves ctx := by
  unfold revealLossReport at hw
  unfold RevealLossReportConserves
  cases hd : decodeRevealLossReport ctx.data with
  | none =>
    rw [hd] at hw
    cases hw
    simp [conserves_iff (KeepsTypes.refl w)]
  | some d =>
    simp only [hd] at hw
    simp only [some.injEq, forall_eq']
    split at hw
    · cases hw
    next loss hl =>
      simp only [map_eq_some_iff] at hw
      obtain ⟨height, -, rfl⟩ := hw
      obtain ⟨hkeep, hsum, hfund⟩ := revealed_spec unreported_value w ctx d hl
      rw [conserves_iff ((hkeep.trans (keepsTypes_credit _ _ _)).trans (keepsTypes_credit _ _ _)),
        sum_value_credit_credit, hsum, hfund, hfund]
      by_cases hsame : ctx.fromAddr = d.oldAccount
      · rw [if_pos hsame, if_pos hsame.symm, hsame]
        cases w.markedFunding d.oldAccount <;> simp [gain, Funding.paid, AccountType.pledge]
      · rw [if_neg hsame, if_neg (Ne.symm hsame)]
        cases w.markedFunding ctx.fromAddr <;> cases w.markedFunding d.oldAccount <;>
          simp [gain, AccountType.pledge] <;> omega

/-! ## 4. Transferring a lost account -/

/-- A positive balance goes to another account that can carry it, and votes go between accounts
that both count them, to one that had exactly none. -/
def TransferLostAccountConserves (w : World) (ctx : TxContext) : Prop :=
  ∀ addr, decodeAddress ctx.data = some addr → ∀ loss, w addr = some loss →
    ∀ lost, w loss.lossAccount.lostAccount = some lost →
    ∀ benefit, w loss.lossAccount.newAccount = some benefit →
    (0 < lost.balance → loss.lossAccount.lostAccount ≠ loss.lossAccount.newAccount ∧
      benefit.accountType.holdsBalance) ∧
    (votesMove lost benefit = some true →
      (lost.accountType = .regular ↔ benefit.accountType = .regular) ∧
      (benefit.accountType = .regular → benefit.regularAccount.voteValue = some 0))

theorem keepsTypes_transferLostBalance (w : World) (lostAddr benefitAddr : Address)
    (lost : StateObject) : w.KeepsTypes (w.transferLostBalance lostAddr benefitAddr lost) := by
  intro a o ho
  obtain ⟨x, hx⟩ := transferLostBalance_of_some ho lostAddr benefitAddr lost
  rw [hx, map_some, setBalance_accountType]

theorem keepsTypes_transferLostVotes {lostAddr benefitAddr : Address}
    (hw : w.transferLostVotes lostAddr benefitAddr = some w') : w.KeepsTypes w' := by
  intro a o ho
  have hview :=
    congrFun (view_transferLostVotes (g := fun o => some o.accountType) (d := none) {} hw) a
  rw [view, view, ho] at hview
  cases h : w' a with
  | none => rw [h] at hview; cases hview
  | some p => rw [h] at hview; exact hview

theorem votesGain_eq_zero_iff (lost benefit : StateObject) :
    votesGain lost benefit = 0 ↔
      (votesMove lost benefit = some true →
        (lost.accountType = .regular ↔ benefit.accountType = .regular) ∧
        (benefit.accountType = .regular → benefit.regularAccount.voteValue = some 0)) := by
  unfold votesGain
  split
  next hmove =>
    obtain ⟨hpos, v, hv, hlt⟩ := votesMove_eq_true hmove
    simp only [hmove, true_implies, hv, getD_some, some.injEq]
    by_cases hb : benefit.accountType = .regular <;> by_cases hl : lost.accountType = .regular
    · rw [if_pos hb, if_pos hl]
      exact ⟨fun h => ⟨iff_of_true hl hb, fun _ => by omega⟩, fun h => by have := h.2 hb; omega⟩
    · rw [if_pos hb, if_neg hl]
      exact iff_of_false (by omega) fun h => hl (h.1.mpr hb)
    · rw [if_neg hb, if_pos hl]
      exact iff_of_false (by omega) fun h => hb (h.1.mp hl)
    · rw [if_neg hb, if_neg hl]
      exact iff_of_true rfl ⟨iff_of_false hl hb, fun h => absurd h hb⟩
  next hmove =>
    simp [hmove]

/-- Where a balance is lost, votes cannot make up for it. -/
theorem votesGain_nonpos {lost benefit : StateObject}
    (h : lost = benefit ∨ benefit.accountType.holdsBalance = false) :
    votesGain lost benefit ≤ 0 := by
  unfold votesGain
  split
  next hmove =>
    obtain ⟨hpos, v, hv, hlt⟩ := votesMove_eq_true hmove
    rcases h with rfl | h
    · rw [hv, getD_some] at hpos
      omega
    · have hb : benefit.accountType ≠ .regular := by
        intro hb
        rw [hb] at h
        cases h
      rw [if_neg hb]
      split <;> omega
  · exact le_refl _

theorem conserves_transferLostAccount_iff {ctx : TxContext}
    (hw : w.transferLostAccount ctx = some w') :
    w.Conserves w' ↔ w.TransferLostAccountConserves ctx := by
  unfold transferLostAccount at hw
  unfold TransferLostAccountConserves
  have hrefl : w.Conserves w := (conserves_iff (KeepsTypes.refl w)).mpr rfl
  cases hd : decodeAddress ctx.data with
  | none => rw [hd] at hw; cases hw; simp [hrefl]
  | some addr =>
    simp only [hd] at hw
    simp only [some.injEq, forall_eq']
    cases ha : w addr with
    | none => rw [ha] at hw; cases hw; simp [hrefl]
    | some loss =>
      simp only [ha, map_eq_some_iff] at hw
      simp only [some.injEq, forall_eq']
      obtain ⟨w₁, hw₁, rfl⟩ := hw
      -- marking the report as successful moves nothing
      have hstate :=
        sum_congr (view_modify (g := value) (f := (·.setLossState .success)) (fun _ => rfl) w₁ addr)
      have hkeep := keepsTypes_modify w₁ addr (f := (·.setLossState .success)) (fun _ => rfl)
      unfold transferLostAssets at hw₁
      cases hl : w loss.lossAccount.lostAccount with
      | none =>
        rw [hl] at hw₁
        cases hw₁
        simp [conserves_iff hkeep, hstate]
      | some lost =>
        cases hb : w loss.lossAccount.newAccount with
        | none =>
          rw [hl, hb] at hw₁
          cases hw₁
          simp [conserves_iff hkeep, hstate]
        | some benefit =>
          simp only [hl, hb] at hw₁
          simp only [some.injEq, forall_eq']
          rw [conserves_iff (((keepsTypes_transferLostBalance _ _ _ _).trans
            (keepsTypes_transferLostVotes hw₁)).trans hkeep), hstate,
            sum_transferLostAssets countsBalance_value countsVotes_value hl hb
              hw₁, ← votesGain_eq_zero_iff]
          by_cases hlose : 0 < lost.balance ∧ ¬(loss.lossAccount.lostAccount ≠
              loss.lossAccount.newAccount ∧ benefit.accountType.holdsBalance)
          · rw [if_pos hlose]
            have hgain : votesGain lost benefit ≤ 0 := by
              refine votesGain_nonpos ?_
              by_cases hsame : loss.lossAccount.lostAccount = loss.lossAccount.newAccount
              · left
                rw [hsame, hb] at hl
                exact (some.inj hl).symm
              · right
                simpa [hsame] using hlose.2
            refine iff_of_false (by omega) fun h => hlose.2 (h.1 hlose.1)
          · rw [if_neg hlose]
            have hkept : 0 < lost.balance → loss.lossAccount.lostAccount ≠
                loss.lossAccount.newAccount ∧ benefit.accountType.holdsBalance := by
              intro hpos
              by_contra hno
              exact hlose ⟨hpos, hno⟩
            constructor
            · intro h
              exact ⟨hkept, by omega⟩
            · rintro ⟨-, h⟩
              omega

end World

/-! ## 5. The database -/

/-- **Exactly when the three operations that move value conserve it.** -/
theorem moves_conserve_iff (s : StateDB) (ctx : TxContext) :
    (∀ dest, s.world.Conserves (s.transfer ctx dest).world ↔ s.world.TransferConserves ctx dest) ∧
    (∀ s', s.revealLossReport ctx = some s' →
      (s.world.Conserves s'.world ↔ s.world.RevealLossReportConserves ctx)) ∧
    (∀ s', s.transferLostAccount ctx = some s' →
      (s.world.Conserves s'.world ↔ s.world.TransferLostAccountConserves ctx)) := by
  refine ⟨fun dest => ?_, fun s' h => ?_, fun s' h => ?_⟩
  · rw [world_transfer]
    exact World.conserves_transfer_iff s.world ctx dest
  · refine World.conserves_revealLossReport_iff ?_
    rw [← world_revealLossReport, h]
    rfl
  · refine World.conserves_transferLostAccount_iff ?_
    rw [← world_transferLostAccount, h]
    rfl

/-- The lost account `1`, the account `2` that is to have what it holds, and the report `8`. -/
def lostAndFound : StateDB :=
  ofAccounts [(1, .ofBalance 10), (2, .ofBalance 5), (8, { StateObject.new .loss with
    lossAccount := { lostAccount := 1, newAccount := 2, height := some 3 } })]

/-- A call of account `2` with the addresses of the report and of `rest`. -/
def lostCall (value : Nat) (rest : List Rlp.Item) : TxContext :=
  { fromAddr := 2, toAddr := none, value := value,
    data := (Rlp.Item.list (.str (Address.bytes 8) :: rest)).encode }

def revealLost : TxContext := lostCall 4 [.str (Address.bytes 1), .str (Address.bytes 2), .nat 0]

/-- Four are paid to account `1`, by a transfer or with the report, and then all it holds is
taken. -/
theorem moves_conserve_lost :
    lostAndFound.world.Conserves (lostAndFound.transfer (lostCall 4 []) 1).world ∧
    (∃ s', lostAndFound.revealLossReport revealLost = some s' ∧
      lostAndFound.world.Conserves s'.world) ∧
    ∃ s', lostAndFound.transferLostAccount (lostCall 0 []) = some s' ∧
      lostAndFound.world.Conserves s'.world := by
  have hreveal : (lostAndFound.revealLossReport revealLost).isSome := by decide +kernel
  have htransfer : (lostAndFound.transferLostAccount (lostCall 0 [])).isSome := by decide +kernel
  obtain ⟨s₁, hs₁⟩ := isSome_iff_exists.mp hreveal
  obtain ⟨s₂, hs₂⟩ := isSome_iff_exists.mp htransfer
  have hpays := (moves_conserve_iff lostAndFound (lostCall 4 [])).1 1
  have hreveals := (moves_conserve_iff lostAndFound revealLost).2.1 s₁ hs₁
  have htransfers := (moves_conserve_iff lostAndFound (lostCall 0 [])).2.2 s₂ hs₂
  refine ⟨hpays.mpr (.inr (.inr trivial)), ⟨s₁, hs₁, hreveals.mpr fun d hd => ?_⟩,
    s₂, hs₂, htransfers.mpr fun addr haddr loss hloss lost hlost benefit hbenefit => ?_⟩
  · have hold : (decodeRevealLossReport revealLost.data).map (·.oldAccount) = some 1 := by
      decide +kernel
    rw [hd, map_some] at hold
    rw [some.inj hold]
    trivial
  · have hreport : decodeAddress (lostCall 0 []).data = some 8 := by decide +kernel
    obtain rfl := some.inj (hreport.symm.trans haddr)
    obtain rfl := some.inj hloss
    obtain rfl := some.inj hlost
    obtain rfl := some.inj hbenefit
    exact ⟨fun _ => by decide, nofun⟩

/-- Seven units sent to a PNS account, which has nowhere to keep them. -/
theorem transfer_to_pns_destroys :
    ¬(ofAccounts [(1, .ofBalance 10), (5, .new .pns)]).world.Conserves
      ((ofAccounts [(1, .ofBalance 10), (5, .new .pns)]).transfer
        { fromAddr := 1, toAddr := some 5, value := 7, data := [] } 5).world := by
  rw [world_transfer, World.conserves_transfer_iff]
  rintro (h | h | h)
  · cases h
  · exact absurd h (by decide)
  · exact h

end ProbeChain
