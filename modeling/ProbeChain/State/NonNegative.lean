/-
# Amounts that may go below zero

Balances, votes and pledges are big integers, and `SubBalance` does not look at what it subtracts
from.  An account with a negative amount cannot be written to the trie: the encoder rejects it and
`updateStateObject` panics.

`callDB_nonNeg_iff` says for every call when non-negative accounts stay non-negative
(`World.Solvent`): exactly when the sender can afford what is taken from it, the pledge of what the
call creates included, and a redemption does not take more votes off an account than it has.
-/
import ProbeChain.State.Frame
import ProbeChain.State.NoPanic

namespace ProbeChain

open Option World StateDB

/-! ## 1. Objects -/

namespace StateObject

/-- No amount of any record is negative. -/
structure NonNeg (o : StateObject) : Prop where
  value : 0 ≤ o.regularAccount.value
  voteValue : ∀ v, o.regularAccount.voteValue = some v → 0 ≤ v
  assetValue : 0 ≤ o.assetAccount.value
  assetVoteValue : 0 ≤ o.assetAccount.voteValue
  pledgeValue : ∀ v, o.authorizeAccount.pledgeValue = some v → 0 ≤ v
  authorizeVoteValue : ∀ v, o.authorizeAccount.voteValue = some v → 0 ≤ v
  candidates : ∀ c ∈ o.validatorListAccount.validatorCandidates, 0 ≤ c.voteValue

/-- The big integers of the record that `EncodeRLP` writes.  A nil is written as zero. -/
def encodedAmounts (o : StateObject) : List Int :=
  match o.accountType with
  | .regular => [o.regularAccount.voteValue.getD 0, o.regularAccount.value]
  | .contract => [o.assetAccount.value, o.assetAccount.voteValue]
  | .authorize => [o.authorizeAccount.pledgeValue.getD 0, o.authorizeAccount.voteValue.getD 0]
  | .dpos => o.validatorListAccount.validatorCandidates.map (·.voteValue)
  | _ => []

/-- `rlp.EncodeToBytes` succeeds: it fails on a negative big integer, and on nothing else an
account holds. -/
def encodes (o : StateObject) : Bool := o.encodedAmounts.all (0 ≤ ·)

theorem NonNeg.getD {m : Option Int} (h : ∀ v, m = some v → 0 ≤ v) : 0 ≤ m.getD 0 := by
  cases m with
  | none => exact le_refl _
  | some v => exact h v rfl

variable {o : StateObject}

theorem NonNeg.encodes (h : o.NonNeg) : o.encodes := by
  have hv := NonNeg.getD h.voteValue
  have hp := NonNeg.getD h.pledgeValue
  have ha := NonNeg.getD h.authorizeVoteValue
  unfold StateObject.encodes encodedAmounts
  split
  · simp [hv, h.value]
  · simp [h.assetValue, h.assetVoteValue]
  · simp [hp, ha]
  · simpa using h.candidates
  · rfl

/-- Only the amounts count. -/
theorem NonNeg.of_amounts {p : StateObject} (h : o.NonNeg)
    (hvalue : p.regularAccount.value = o.regularAccount.value := by rfl)
    (hvote : p.regularAccount.voteValue = o.regularAccount.voteValue := by rfl)
    (hasset : p.assetAccount = o.assetAccount := by rfl)
    (hpledge : p.authorizeAccount.pledgeValue = o.authorizeAccount.pledgeValue := by rfl)
    (hauth : p.authorizeAccount.voteValue = o.authorizeAccount.voteValue := by rfl)
    (hlist : p.validatorListAccount = o.validatorListAccount := by rfl) : p.NonNeg :=
  ⟨hvalue ▸ h.value, hvote ▸ h.voteValue, hasset ▸ h.assetValue, hasset ▸ h.assetVoteValue,
    hpledge ▸ h.pledgeValue, hauth ▸ h.authorizeVoteValue, hlist ▸ h.candidates⟩

theorem nonNeg_new (t : AccountType) : (new t).NonNeg := by
  cases t <;> exact ⟨by decide, by simp [new], by decide, by decide, by simp [new], by simp [new],
    by simp [new]⟩

theorem unreported_nonNeg : Unreported NonNeg True where
  lossMark _ _ := propext ⟨fun h => h.of_amounts, fun h => h.of_amounts⟩
  lossType _ _ := propext ⟨fun h => h.of_amounts, fun h => h.of_amounts⟩
  loss _ _ := propext ⟨fun h => h.of_amounts, fun h => h.of_amounts⟩
  marks := eq_true (nonNeg_new .lossMark)

theorem NonNeg.balance (h : o.NonNeg) : 0 ≤ o.balance := by
  unfold StateObject.balance
  split
  · exact h.value
  · exact h.assetValue
  · exact le_refl _

/-- A new balance is the only thing that can be negative about it. -/
theorem NonNeg.setBalance_iff (h : o.NonNeg) (x : Int) :
    (o.setBalance x).NonNeg ↔ (o.accountType.holdsBalance → 0 ≤ x) := by
  cases ht : o.accountType with
  | regular =>
    simp only [setBalance, ht, AccountType.holdsBalance, true_implies]
    exact ⟨fun h' => h'.value, fun hx => { h with value := hx }⟩
  | contract =>
    simp only [setBalance, ht, AccountType.holdsBalance, true_implies]
    exact ⟨fun h' => h'.assetValue, fun hx => { h with assetValue := hx }⟩
  | _ => simpa [setBalance, ht, AccountType.holdsBalance] using h

theorem NonNeg.setVote_iff (h : o.NonNeg) (a : Address) (v : Int) :
    (o.setVote a v).NonNeg ↔ 0 ≤ v :=
  ⟨fun h' => h'.voteValue v rfl, fun hv =>
    { h with voteValue := fun u hu => by cases hu; exact hv }⟩

theorem NonNeg.setAuthorizeVote_iff (h : o.NonNeg) (v : Int) :
    (o.setAuthorizeVote v).NonNeg ↔ 0 ≤ v :=
  ⟨fun h' => h'.authorizeVoteValue v rfl,
    fun hv => { h with authorizeVoteValue := fun u hu => by cases hu; exact hv }⟩

/-- Voting adds to the votes: the object is as negative as it was. -/
theorem nonNeg_addVote_iff (h : ∀ v, o.regularAccount.voteValue = some v → 0 ≤ v)
    (a : Address) (v : Nat) : (o.addVote a v).NonNeg ↔ o.NonNeg := by
  have hlast := NonNeg.getD h
  exact ⟨fun h' => { h' with voteValue := h }, fun h' => (h'.setVote_iff a _).mpr (by omega)⟩

theorem nonNeg_setAuthorizeVote_iff {u v : Int}
    (h : o.authorizeAccount.voteValue = some u) (hu : 0 ≤ u) (hv : 0 ≤ v) :
    (o.setAuthorizeVote v).NonNeg ↔ o.NonNeg :=
  ⟨fun h' => { h' with authorizeVoteValue := by simpa [h] using hu },
    fun h' => (h'.setAuthorizeVote_iff v).mpr hv⟩

/-- The sender can pay `d`: nothing is taken from an account that carries no balance, and a
missing one starts at zero. -/
def affords (o : Option StateObject) (d : Int) : Prop :=
  match o with
  | none => d ≤ 0
  | some o => o.accountType.holdsBalance → d ≤ o.balance

/-- Type and balance are all that counts for it. -/
theorem affords_congr {o p : Option StateObject} (d : Int)
    (h : o.map (fun o => (o.accountType, o.balance)) =
      p.map (fun o => (o.accountType, o.balance))) :
    affords o d ↔ affords p d := by
  cases o with
  | none => cases p <;> simp_all [affords]
  | some o =>
    cases p with
    | none => simp at h
    | some p =>
      simp only [map_some, some.injEq, Prod.mk.injEq] at h
      simp only [affords, h.1, h.2]

theorem nonNeg_credited_iff {o : Option StateObject} (h : ∀ p, o = some p → p.NonNeg) (v : Int) :
    (credited v o).NonNeg ↔ affords o (-v) := by
  cases o with
  | none =>
    have hnew := NonNeg.setBalance_iff (nonNeg_new .regular) (0 + v)
    simp only [new_accountType, AccountType.holdsBalance, true_implies] at hnew
    refine hnew.trans ?_
    simp only [affords]
    omega
  | some p =>
    refine ((h p rfl).setBalance_iff (p.balance + v)).trans ?_
    refine forall_congr' fun _ => ?_
    omega

end StateObject

/-! ## 2. Worlds -/

namespace World

open StateObject

def NonNeg (w : World) : Prop := ∀ a o, w a = some o → o.NonNeg

theorem NonNeg.of_view {w w' : World} (h : w.NonNeg)
    (hview : w'.view StateObject.NonNeg True = w.view StateObject.NonNeg True) : w'.NonNeg := by
  intro a o ho
  have hold := congrFun hview a
  rw [view, ho, elim_some] at hold
  rw [hold, view]
  cases hp : w a with
  | none => trivial
  | some p => exact h a p hp

variable {w w' : World} {a : Address} {o : StateObject}

theorem nonNeg_put_iff (h : w.NonNeg) (a : Address) (o : StateObject) :
    (w.put a o).NonNeg ↔ o.NonNeg := by
  refine ⟨fun h' => h' a o (put_self _ _ _), fun ho b p hb => ?_⟩
  rcases put_eq_some.mp hb with ⟨-, rfl⟩ | ⟨-, hb⟩
  · exact ho
  · exact h b p hb

/-- A write that leaves an account as negative as it was. -/
theorem nonNeg_put_congr {p : StateObject} (h : w a = some o)
    (hp : p.NonNeg ↔ o.NonNeg) : (w.put a p).NonNeg ↔ w.NonNeg := by
  constructor
  · intro h' b q hb
    by_cases hba : b = a
    · subst hba
      rw [h] at hb
      cases hb
      exact hp.mp (h' b p (put_self _ _ _))
    · exact h' b q (by rw [put_of_ne _ _ hba, hb])
  · intro h'
    exact (nonNeg_put_iff h' a p).mpr (hp.mpr (h' a o h))

/-- Two writes to different accounts. -/
theorem nonNeg_put_put_iff (h : w.NonNeg) {b : Address} (hab : a ≠ b)
    (o p : StateObject) : ((w.put a o).put b p).NonNeg ↔ o.NonNeg ∧ p.NonNeg := by
  constructor
  · intro h'
    exact ⟨h' a o (by rw [put_of_ne _ _ hab, put_self]), h' b p (put_self _ _ _)⟩
  · rintro ⟨ho, hp⟩
    exact (nonNeg_put_iff ((nonNeg_put_iff h a o).mpr ho) b p).mpr hp

theorem NonNeg.modify (h : w.NonNeg) (a : Address) (f : StateObject → StateObject)
    (hf : ∀ o : StateObject, o.NonNeg → (f o).NonNeg) : (w.modify a f).NonNeg := by
  cases ha : w a with
  | none => rw [modify_of_none ha]; exact h
  | some o => rw [modify_of_some ha, nonNeg_put_iff h]; exact hf o (h a o ha)

theorem NonNeg.credit_iff (h : w.NonNeg) (a : Address) (v : Int) :
    (w.credit a v).NonNeg ↔ affords (w a) (-v) :=
  (nonNeg_put_iff h a _).trans (nonNeg_credited_iff (fun p hp => h a p hp) v)

/-- Paying in never makes anything negative. -/
theorem NonNeg.credit (h : w.NonNeg) (a : Address) {v : Int} (hv : 0 ≤ v) :
    (w.credit a v).NonNeg := by
  rw [h.credit_iff]
  cases ha : w a with
  | none => exact (by omega : -v ≤ 0)
  | some o =>
    intro _
    have := (h a o ha).balance
    omega

/-- What the sender can afford is the same after a mark is changed, except that a missing account
of the loss marks is there afterwards and has no balance. -/
theorem affords_updateLossMark (w : World) (lastBits : UInt32) (flag : Bool) (a : Address)
    (d : Int) :
    affords (w.updateLossMark lastBits flag a) d ↔
      (a = specialAddressForRegisterLose ∧ w a = none) ∨ affords (w a) d := by
  by_cases ha : a = specialAddressForRegisterLose
  · subst ha
    rw [updateLossMark, put_self]
    cases hw : w specialAddressForRegisterLose with
    | none =>
      simp only [and_self, true_or, iff_true]
      intro hb
      cases hb
    | some o => simp only [reduceCtorEq, and_false, false_or]; exact .rfl
  · rw [updateLossMark, put_of_ne _ _ ha]
    simp [ha]

theorem NonNeg.suicide (h : w.NonNeg) (hw : w.suicide a = some w') : w'.NonNeg := by
  rw [suicide_eq_modify hw]
  exact h.modify a _ fun o ho => ho.of_amounts

/-! ## 3. The condition -/

section
variable (X : Externals) (w : World) (ctx : TxContext)

/-- The sender pays the value and the pledge, unless the new account has replaced its own. -/
def RegisterSolvent (newAddress : Address) (t : AccountType) : Prop :=
  ctx.fromAddr = newAddress ∨ affords (w ctx.fromAddr) (ctx.value + t.pledge)

/-- As above; and nothing is taken from the account of the loss marks, which the operation creates
when it is missing. -/
def RegisterLoseSolvent : Prop :=
  (ctx.fromAddr = specialAddressForRegisterLose ∧ w ctx.fromAddr = none) ∨
    w.RegisterSolvent ctx (createAddress X ctx.fromAddr ctx.nonce) .loss

/-- To another account, the sender has the value and a new account is worth its pledge; to itself,
it exists. -/
def TransferSolvent (dest : Address) : Prop :=
  ctx.value = 0 ∨
    if ctx.fromAddr = dest then w dest ≠ none
    else affords (w ctx.fromAddr) ctx.value ∧
      (w dest = none → AccountType.regular.pledge ≤ ctx.value)

def VoteSolvent : Prop :=
  ∀ addr, decodeAddress ctx.data = some addr → affords (w ctx.fromAddr) ctx.value

/-- The value goes from the sender to the lost account, which may be the sender. -/
def RevealLossReportSolvent : Prop :=
  ∀ d, decodeRevealLossReport ctx.data = some d →
    ctx.fromAddr = d.oldAccount ∨
    (ctx.fromAddr = specialAddressForRegisterLose ∧ w ctx.fromAddr = none) ∨
    affords (w ctx.fromAddr) ctx.value

/-- What is struck off does not exceed the accumulated votes. -/
def RedemptionSolvent : Prop :=
  ∀ addr, decodeAddress ctx.data = some addr →
    ∀ sender, w ctx.fromAddr = some sender → ∀ o, w addr = some o →
    (if ctx.fromAddr = o.authorizeAccount.owner then o.authorizeAccount.pledgeValue.getD 0 else 0) +
      (if addr = sender.regularAccount.voteAccount then sender.regularAccount.voteValue.getD 0
        else 0) ≤ o.authorizeAccount.voteValue.getD 0

def Solvent : Prop :=
  ∀ dest, ctx.toAddr = some dest →
    match operationOf dest with
    | .registerPns => w.RegisterSolvent ctx (createPNSAddress X ctx.fromAddr ctx.data) .pns
    | .registerAuthorize =>
      w.RegisterSolvent ctx (createAddress X ctx.fromAddr ctx.nonce) .authorize
    | .registerLose => w.RegisterLoseSolvent X ctx
    | .vote => w.VoteSolvent ctx
    | .redemption => w.RedemptionSolvent ctx
    | .revealLossReport => w.RevealLossReportSolvent ctx
    | .transfer => w.TransferSolvent ctx dest
    | _ => True

end

/-! ## 4. Each operation -/

section
variable {ctx : TxContext} (h : w.NonNeg)

include h

/-- Registering: a new account without balance is put down, and the sender is charged. -/
theorem register_nonNeg_iff {t : AccountType} (ho : o.NonNeg)
    (hbal : o.accountType.holdsBalance = false) :
    ((w.put a o).credit ctx.fromAddr (-(ctx.value + t.pledge))).NonNeg ↔
      w.RegisterSolvent ctx a t := by
  rw [((nonNeg_put_iff h a o).mpr ho).credit_iff, neg_neg, RegisterSolvent]
  by_cases hf : ctx.fromAddr = a
  · rw [hf, put_self]
    simp [affords, hbal]
  · rw [put_of_ne _ _ hf]
    simp [hf]

theorem registerPns_nonNeg_iff (X : Externals) : (w.registerPns X ctx).NonNeg ↔
    w.RegisterSolvent ctx (createPNSAddress X ctx.fromAddr ctx.data) .pns :=
  register_nonNeg_iff h ((nonNeg_new .pns).of_amounts) rfl

theorem registerAuthorize_nonNeg_iff (X : Externals) : (w.registerAuthorize X ctx).NonNeg ↔
    w.RegisterSolvent ctx (createAddress X ctx.fromAddr ctx.nonce) .authorize :=
  register_nonNeg_iff h { nonNeg_new .authorize with
    pledgeValue := fun v hv => by cases hv; exact Int.natCast_nonneg _
    authorizeVoteValue := fun v hv => by cases hv; exact Int.natCast_nonneg _ } rfl

theorem registerLose_nonNeg_iff (X : Externals) :
    (w.registerLose X ctx).NonNeg ↔ w.RegisterLoseSolvent X ctx := by
  have hput : (w.put (createAddress X ctx.fromAddr ctx.nonce) (newLoss ctx)).NonNeg :=
    (nonNeg_put_iff h _ _).mpr ((nonNeg_new .loss).of_amounts)
  rw [registerLose, (hput.of_view (view_updateLossMark unreported_nonNeg _ _ _)).credit_iff,
    neg_neg, affords_updateLossMark]
  unfold RegisterLoseSolvent RegisterSolvent
  by_cases hf : ctx.fromAddr = createAddress X ctx.fromAddr ctx.nonce
  · rw [← hf, put_self]
    simp [affords, newLoss, AccountType.holdsBalance]
  · rw [put_of_ne _ _ hf]
    simp [hf]

theorem transfer_nonNeg_iff (dest : Address) :
    (w.transfer ctx dest).NonNeg ↔ w.TransferSolvent ctx dest := by
  unfold transfer TransferSolvent
  split
  next hzero =>
    simp [hzero, h]
  next hzero =>
    simp only [hzero, false_or]
    by_cases hf : ctx.fromAddr = dest
    · -- to itself: what is left is the difference of the two amounts
      rw [if_pos hf, hf, credit_credit, h.credit_iff]
      cases hd : w dest with
      | none => simp [affords, AccountType.pledge]
      | some o =>
        have hbal := (h dest o hd).balance
        simp [affords, hbal]
    · rw [if_neg hf, credit, credit, put_of_ne _ _ (Ne.symm hf),
        nonNeg_put_put_iff h hf, nonNeg_credited_iff (fun p hp => h _ p hp),
        nonNeg_credited_iff (fun p hp => h _ p hp), neg_neg]
      refine and_congr_right fun _ => ?_
      cases hd : w dest with
      | none =>
        simp only [affords, isNone_none, if_true, true_implies]
        omega
      | some o =>
        have hbal := (h dest o hd).balance
        simp only [affords, isNone_some, reduceCtorEq, false_implies, iff_true]
        intro _
        simp only [if_false]
        omega

theorem castVote_nonNeg_iff (addr : Address) :
    (w.castVote ctx addr).NonNeg ↔ affords (w ctx.fromAddr) ctx.value := by
  rw [castVote, nonNeg_put_iff h, nonNeg_addVote_iff, nonNeg_credited_iff (fun p hp => h _ p hp),
    neg_neg]
  intro v hv
  cases hf : w ctx.fromAddr with
  | none => simp [hf, credited] at hv
  | some o =>
    simp only [hf, credited, getD_some, setBalance_voteValue] at hv
    exact (h _ o hf).voteValue v hv

/-- A vote leaves the Authorize records of all accounts alone. -/
theorem castVote_authorizeVote {addr b : Address} {v : Int}
    (hb : w.castVote ctx addr b = some o) (hv : o.authorizeAccount.voteValue = some v) : 0 ≤ v := by
  rcases put_eq_some.mp hb with ⟨-, rfl⟩ | ⟨-, hb⟩
  · cases hf : w ctx.fromAddr with
    | none => simp [hf, credited, addVote, setVote] at hv
    | some p =>
      simp only [hf, credited, addVote, setVote, getD_some, setBalance_authorizeAccount] at hv
      exact (h _ p hf).authorizeVoteValue v hv
  · exact (h b o hb).authorizeVoteValue v hv

theorem vote_nonNeg_iff (hw : w.vote ctx = some w') : w'.NonNeg ↔ w.VoteSolvent ctx := by
  unfold vote at hw
  unfold VoteSolvent
  split at hw
  next hd => simp [hd, ← some.inj hw, h]
  next addr hd =>
    simp only [hd, some.injEq, forall_eq']
    rw [← castVote_nonNeg_iff h addr]
    dsimp only at hw
    split at hw
    · exact some.inj hw ▸ .rfl
    next o ha =>
      obtain ⟨prev, hprev, rfl⟩ := map_eq_some_iff.mp hw
      have hnn := castVote_authorizeVote h ha hprev
      exact nonNeg_put_congr ha (nonNeg_setAuthorizeVote_iff hprev hnn (by omega))

theorem revealLossReport_nonNeg_iff (hw : w.revealLossReport ctx = some w') :
    w'.NonNeg ↔ w.RevealLossReportSolvent ctx := by
  unfold revealLossReport at hw
  unfold RevealLossReportSolvent
  cases hd : decodeRevealLossReport ctx.data with
  | none =>
    rw [hd] at hw
    cases hw
    simp [h]
  | some d =>
    simp only [hd] at hw
    simp only [some.injEq, forall_eq']
    split at hw
    · cases hw
    next loss hl =>
      simp only [map_eq_some_iff] at hw
      obtain ⟨height, -, rfl⟩ := hw
      have hmark := h.of_view (view_revealed unreported_nonNeg ctx hl)
      -- revealing touches neither types nor balances, but may create the account of the marks
      have haff : affords (((w.put d.lossAccount (revealed ctx loss d)).updateLossMark
          loss.lossAccount.lastBits false).setRegularLossState d.oldAccount true ctx.fromAddr)
            ctx.value ↔ (ctx.fromAddr = specialAddressForRegisterLose ∧ w ctx.fromAddr = none) ∨
            affords (w ctx.fromAddr) ctx.value := by
        have hsame := map_put_of_some (fun o => (o.accountType, o.balance)) hl
          (p := revealed ctx loss d) rfl ctx.fromAddr
        have hnone : w.put d.lossAccount (revealed ctx loss d) ctx.fromAddr = none ↔
            w ctx.fromAddr = none := by
          rw [← map_eq_none_iff, hsame, map_eq_none_iff]
        rw [affords_congr _ (map_setRegularLossState _ (fun _ _ => rfl) _ _ _ _),
          affords_updateLossMark, affords_congr _ hsame, hnone]
      generalize setRegularLossState _ _ _ = w₁ at hmark haff ⊢
      by_cases hf : ctx.fromAddr = d.oldAccount
      · rw [hf, credit_credit, Int.add_left_neg]
        exact iff_of_true (hmark.credit _ (le_refl _)) (.inl rfl)
      · rw [credit, credit, put_of_ne _ _ (Ne.symm hf), nonNeg_put_put_iff hmark hf,
          nonNeg_credited_iff (fun p hp => hmark _ p hp),
          nonNeg_credited_iff (fun p hp => hmark _ p hp), neg_neg, haff]
        simp only [hf, false_or, and_iff_left_iff_imp]
        intro _
        cases ho : w₁ d.oldAccount with
        | none => simp [affords]
        | some o =>
          have hbal := (hmark _ o ho).balance
          intro _
          omega

end

/-- Nothing is negative, except perhaps the accumulated votes `x` of the account at `a`. -/
structure NonNegBut (w : World) (a : Address) (x : Int) : Prop where
  votes : ∃ o, w a = some o ∧ o.authorizeAccount.voteValue = some x ∧ (o.setAuthorizeVote 0).NonNeg
  others : ∀ b p, b ≠ a → w b = some p → p.NonNeg

theorem NonNegBut.nonNeg_iff {x : Int} (h : w.NonNegBut a x) : w.NonNeg ↔ 0 ≤ x := by
  obtain ⟨o, ho, hx, hzero⟩ := h.votes
  refine ⟨fun hw => (hw a o ho).authorizeVoteValue x hx, fun hpos b p hb => ?_⟩
  by_cases hba : b = a
  · obtain rfl : o = p := by simpa [hba, ho] using hb
    exact { hzero with authorizeVoteValue := by simpa [hx] using hpos }
  · exact h.others b p hba hb

theorem NonNeg.nonNegBut (h : w.NonNeg) {x : Int}
    (ho : w a = some o) (hx : o.authorizeAccount.voteValue = some x) : w.NonNegBut a x :=
  ⟨⟨o, ho, hx, ((h a o ho).setAuthorizeVote_iff 0).mpr (le_refl _)⟩, fun b p _ hb => h b p hb⟩

/-- Writing the account itself. -/
theorem NonNegBut.put {x y : Int} (h : w.NonNegBut a x) (ho : o.authorizeAccount.voteValue = some y)
    (hzero : (o.setAuthorizeVote 0).NonNeg) : (w.put a o).NonNegBut a y :=
  ⟨⟨o, put_self _ _ _, ho, hzero⟩, fun b p hb hp => h.others b p hb (by
    rwa [put_of_ne _ _ hb] at hp)⟩

/-- A redemption on the sender's side, and the votes it then strikes off. -/
theorem redeemVotes_nonNeg_iff {ctx : TxContext} {addr : Address} {x : Int}
    {sender : StateObject} (h : w.NonNegBut addr x) (hs : w ctx.fromAddr = some sender)
    (hw : w.redeemVotes ctx addr = some w') :
    w'.NonNeg ↔ (if addr = sender.regularAccount.voteAccount then
      sender.regularAccount.voteValue.getD 0 else 0) ≤ x := by
  obtain ⟨o, ho, hcases⟩ := redeemVotes_eq_some hw
  cases hs.symm.trans ho
  rcases hcases with ⟨haddr, rfl⟩ | ⟨haddr, -, voteValue, hv, hw⟩
  · rw [h.nonNeg_iff, if_neg haddr]
  · rw [if_pos haddr, hv, getD_some]
    -- the sender gets its votes back; its Authorize record stays as it is
    have hpaid : ∀ o : StateObject, o.NonNeg → o.regularAccount = sender.regularAccount →
        o.balance = sender.balance →
        ((o.setBalance (sender.balance + voteValue)).setVote 0 0).NonNeg := by
      intro o ho hreg hbalance
      have hnonneg := hbalance ▸ ho.balance
      have hvote := ho.voteValue voteValue (by rw [hreg]; exact hv)
      exact (((ho.setBalance_iff _).mpr fun _ => by omega).setVote_iff 0 0).mpr (le_refl _)
    obtain ⟨o, ho, hx, hzero⟩ := h.votes
    have hbut : (w.put ctx.fromAddr ((sender.setBalance (sender.balance + voteValue)).setVote 0
        0)).NonNegBut addr x := by
      by_cases hself : ctx.fromAddr = addr
      · rw [hself] at hs ⊢
        rw [hs] at ho
        cases ho
        have hpaid := hpaid _ hzero rfl rfl
        rw [setBalance_setAuthorizeVote] at hpaid
        exact h.put (by simpa [setVote] using hx) hpaid
      · refine ⟨⟨o, by rw [put_of_ne _ _ (Ne.symm hself), ho], hx, hzero⟩, ?_⟩
        intro b p hb hp
        rcases put_eq_some.mp hp with ⟨-, rfl⟩ | ⟨-, hp⟩
        · exact hpaid _ (h.others _ _ hself hs) rfl rfl
        · exact h.others b p hb hp
    obtain ⟨q, hq, hqx, hqzero⟩ := hbut.votes
    simp only [redemptionForAuthorize, hq, redeemed, hqx, map_eq_some_iff] at hw
    obtain ⟨r, hr, rfl⟩ := hw
    cases hp : q.authorizeAccount.pledgeValue with
    | none => rw [hp] at hr; cases hr
    | some pledge =>
      simp only [hp, some.injEq] at hr
      subst hr
      have hfinal := hbut.put (o := q.setAuthorizeVote (x - voteValue)) rfl hqzero
      rw [hfinal.nonNeg_iff]
      omega

theorem nonNeg_candidateListed {X : Externals} (ho : o.NonNeg)
    {c : DPoSCandidateAccount} (hc : 0 ≤ c.voteValue) (roundId : UInt64) :
    (candidateListed X o c roundId).NonNeg := by
  refine { ho with candidates := fun e he => ?_ }
  rcases mem_addValidatorCandidate he with rfl | he
  · exact hc
  · split at he
    · cases he
    · exact ho.candidates e he

section
variable {ctx : TxContext} (h : w.NonNeg)

include h

theorem redemption_nonNeg_iff (hw : w.redemption ctx = some w') :
    w'.NonNeg ↔ w.RedemptionSolvent ctx := by
  unfold redemption at hw
  unfold RedemptionSolvent
  cases hd : decodeAddress ctx.data with
  | none => rw [hd] at hw; cases hw; simp [h]
  | some addr =>
    simp only [hd] at hw
    cases hs : w ctx.fromAddr with
    | none => rw [hs] at hw; cases hw; simp [h]
    | some sender =>
      simp only [some.injEq, forall_eq']
      cases ho : w addr with
      | none => rw [hs, ho] at hw; cases hw; simp [h]
      | some o =>
        simp only [hs, ho, bind_eq_some_iff] at hw
        simp only [some.injEq, forall_eq']
        obtain ⟨w₁, hw₁, hw⟩ := hw
        split at hw₁
        · -- the owner: its pledge is struck off first
          rename_i howner
          simp only [redemptionForAuthorize, ho, redeemed, map_eq_some_iff] at hw₁
          obtain ⟨q, hq, rfl⟩ := hw₁
          cases hp : o.authorizeAccount.pledgeValue with
          | none => rw [hp] at hq; cases hq
          | some pledge =>
            cases hv : o.authorizeAccount.voteValue with
            | none => rw [hp, hv] at hq; cases hq
            | some vote =>
              simp only [hp, hv, some.injEq] at hq
              subst hq
              have hbut :=
                (h.nonNegBut ho hv).put (o := o.setStake 0 (vote - pledge)) rfl { h addr o ho with
                pledgeValue := fun v hv => by cases hv; exact le_refl _
                authorizeVoteValue := fun v hv => by cases hv; exact le_refl _ }
              obtain ⟨p, hp', hreg⟩ := exists_put (g := regularAccount) ho
                (p := o.setStake 0 (vote - pledge)) rfl hs
              rw [redeemVotes_nonNeg_iff hbut hp' hw, hreg, if_pos howner, getD_some,
                getD_some]
              omega
        next howner =>
          cases hw₁
          rw [if_neg howner, Int.zero_add]
          cases hv : o.authorizeAccount.voteValue with
          | some vote =>
            rw [redeemVotes_nonNeg_iff (h.nonNegBut ho hv) hs hw, getD_some]
          | none =>
            -- without accumulated votes the sender's votes are somewhere else
            have hret := (redeemVotes_isSome hs ho).mp (by rw [hw]; rfl)
            have haddr : addr ≠ sender.regularAccount.voteAccount := by
              intro haddr
              have := (hret haddr).2.2
              rw [hv] at this
              cases this
            simp only [redeemVotes, hs, if_neg haddr, some.injEq] at hw
            subst hw
            simp [haddr, h]

theorem NonNeg.transferLostVotes {lostAddr benefitAddr : Address}
    (hw : w.transferLostVotes lostAddr benefitAddr = some w') : w'.NonNeg := by
  unfold World.transferLostVotes at hw
  split at hw
  next lost benefit hl hb =>
    obtain ⟨move, -, rfl⟩ := map_eq_some_iff.mp hw
    split
    · have hbenefit := (nonNeg_put_iff h benefitAddr _).mpr
        (((h _ benefit hb).setVote_iff lost.regularAccount.voteAccount _).mpr
          (NonNeg.getD (h _ lost hl).voteValue))
      exact (nonNeg_put_iff hbenefit lostAddr _).mpr
        (((h _ lost hl).setVote_iff 0 0).mpr (le_refl _))
    · exact h
  next => exact some.inj hw ▸ h

theorem NonNeg.transferLostAccount (hw : w.transferLostAccount ctx = some w') : w'.NonNeg := by
  rcases transferLostAccount_eq_some hw with rfl | ⟨addr, loss, w₁, -, -, rfl, hw₁⟩
  · exact h
  · refine NonNeg.modify ?_ _ _ fun o ho => ho.of_amounts
    rcases hw₁ with rfl | ⟨lost, benefit, hl, -, hw₁⟩
    · exact h
    · refine NonNeg.transferLostVotes ?_ hw₁
      unfold transferLostBalance
      split
      · exact (h.credit _ (h _ lost hl).balance).modify _ _ fun o ho =>
          (ho.setBalance_iff 0).mpr fun _ => le_refl _
      · exact h

theorem NonNeg.transferLostAssociatedAccount (op : Operation) :
    (w.transferLostAssociatedAccount ctx op).NonNeg := by
  unfold World.transferLostAssociatedAccount
  split
  · exact h
  · split
    · exact h
    · split
      · refine h.modify _ _ fun o ho => ?_
        split <;> exact ho.of_amounts
      · exact h

theorem NonNeg.applyToBeDPoSNode {X : Externals} (hw : w.applyToBeDPoSNode X ctx = some w') :
    w'.NonNeg := by
  unfold World.applyToBeDPoSNode at hw
  split at hw
  · exact some.inj hw ▸ h
  · split at hw
    · exact some.inj hw ▸ h
    next o ha =>
      simp only [bind_eq_bind, bind_eq_some_iff, pure_def] at hw
      obtain ⟨voteValue, hv, n, -, roundId, -, hw⟩ := hw
      cases hw
      refine (nonNeg_put_iff h _ _).mpr
        (nonNeg_candidateListed ?_ ((h _ o ha).authorizeVoteValue _ hv) roundId)
      cases hlist : w specialAddressForDPoS with
      | none => exact nonNeg_new .dpos
      | some list => exact h _ list hlist

end

/-! ## 5. All operations -/

theorem callDB_nonNeg_iff_solvent {X : Externals} {ctx : TxContext} (h : w.NonNeg)
    (hw : callDB X w ctx = some w') : w'.NonNeg ↔ w.Solvent X ctx := by
  have hcall := hw
  unfold callDB at hw
  unfold Solvent
  cases hto : ctx.toAddr with
  | none => rw [hto] at hw; cases hw; simp [h]
  | some dest =>
    simp only [hto] at hw
    simp only [some.injEq, forall_eq']
    cases hop : operationOf dest <;> rw [hop] at hw <;> dsimp only at hw
    case registerPns => cases hw; exact registerPns_nonNeg_iff h X
    case registerAuthorize => cases hw; exact registerAuthorize_nonNeg_iff h X
    case registerLose => cases hw; exact registerLose_nonNeg_iff h X
    case vote => exact vote_nonNeg_iff h hw
    case redemption => exact redemption_nonNeg_iff h hw
    case revealLossReport => exact revealLossReport_nonNeg_iff h hw
    case transfer => cases hw; exact transfer_nonNeg_iff h dest
    all_goals refine iff_true_intro ?_
    case cancellation | cancellationLostAccount | removeLossReport | rejectLossReport =>
      refine closing_inv (fun h => h.credit _) (fun h => ?_) (fun h => h.suicide) h hto
        (by rw [hop]; rfl) hcall
      exact h.of_view (view_unmarked unreported_nonNeg _ _ _ _)
    case applyToBeDPoSNode => exact h.applyToBeDPoSNode hw
    case transferLostAccountBalance => exact h.transferLostAccount hw
    case modifyPnsOwner | modifyPnsContent =>
      cases hw
      simp only [modifyPnsOwner, modifyPnsContent]
      split
      · exact h
      · exact h.modify _ _ fun o ho => ho.of_amounts
    case modifyLossType => cases hw; exact h.of_view (view_modifyLossType unreported_nonNeg)
    case transferLostAccountPns | transferLostAccountAuthorize =>
      cases hw
      exact h.transferLostAssociatedAccount _

end World

/-- **Non-negative accounts stay non-negative exactly when the call is solvent**, and then every
account can be written to the trie. -/
theorem callDB_nonNeg_iff {X : Externals} {s s' : StateDB} {ctx : TxContext}
    (hs : s.world.NonNeg) (h : callDB X s ctx = some s') :
    (s'.world.NonNeg ↔ s.world.Solvent X ctx) ∧
      (s'.world.NonNeg → ∀ a o, s'.world a = some o → o.encodes) :=
  ⟨callDB_nonNeg_iff_solvent hs (world_callDB h), fun hn a o ho => (hn a o ho).encodes⟩

theorem nonNeg_ofBalance (value : Nat) : (StateObject.ofBalance value).NonNeg :=
  ⟨Int.natCast_nonneg _, fun v hv => by cases hv; exact le_refl _, le_refl _, le_refl _, by simp
    [StateObject.ofBalance], by simp [StateObject.ofBalance], by simp [StateObject.ofBalance]⟩

theorem nonNeg_world_ofAccounts {accounts : List (Address × StateObject)}
    (h : ∀ p ∈ accounts, p.2.NonNeg) : (ofAccounts accounts).world.NonNeg :=
  fun _ _ ho => h _ (mem_of_world_ofAccounts ho)

/-- **A sequence of calls** runs to its end, through non-negative accounts only, exactly if each
call meets its conditions in the state it is made in. -/
theorem run_callDB_iff (X : Externals) (ctxs : List TxContext) (s : StateDB) :
    (Run.run (callDB X) ctxs s).isSome ∧ Run.Through (callDB X) (·.world.NonNeg) ctxs s ↔
      s.world.NonNeg ∧
      Run.Along (callDB X) (fun s ctx => s.world.Returns ctx ∧ s.world.Solvent X ctx) ctxs s := by
  induction ctxs generalizing s with
  | nil => exact ⟨fun h => ⟨h.2, trivial⟩, fun h => ⟨rfl, h.1⟩⟩
  | cons ctx ctxs ih =>
    have hreturns := World.callDB_isSome_iff_returns s.world ctx X
    rw [← callDB_isSome] at hreturns
    cases hcall : callDB X s ctx with
    | none => simp [Run.run, Run.Along, hcall, ← hreturns]
    | some t =>
      have hnext (hs : s.world.NonNeg) := World.callDB_nonNeg_iff_solvent hs (world_callDB hcall)
      simp only [Run.run, Run.Through, Run.Along, hcall, bind_some, some.injEq,
        forall_eq', ← hreturns]
      constructor
      · rintro ⟨hrun, hs, hthrough⟩
        obtain ⟨ht, halong⟩ := (ih t).mp ⟨hrun, hthrough⟩
        exact ⟨hs, ⟨rfl, (hnext hs).mp ht⟩, halong⟩
      · rintro ⟨hs, ⟨-, hsolvent⟩, halong⟩
        obtain ⟨hrun, hthrough⟩ := (ih t).mpr ⟨(hnext hs).mpr hsolvent, halong⟩
        exact ⟨hrun, hs, hthrough⟩

/-- Sending one unit to an address that does not exist yet: the new account pays its pledge out of
it, and cannot be encoded. -/
theorem callDB_transfer_to_new_negative :
    (ofAccounts [(1, .ofBalance 1000000000000000000)]).world.NonNeg ∧
    ∃ s' o, callDB plainExternals (ofAccounts [(1, .ofBalance 1000000000000000000)])
      { fromAddr := 1, toAddr := some 0x1000, value := 1, data := [] } = some s' ∧
      s'.world 0x1000 = some o ∧ o.balance = 1 - 10000000000000000 ∧ o.encodes = false := by
  refine ⟨nonNeg_world_ofAccounts ?_, _, _, rfl, rfl, rfl, by decide⟩
  simp only [List.mem_singleton, forall_eq]
  exact nonNeg_ofBalance 1000000000000000000

/-- A transfer between two accounts that exist, within the balance of the sender. -/
theorem callDB_nonNeg_iff_transfer :
    ∃ s', callDB plainExternals (ofAccounts [(1, .ofBalance 5), (2, .ofBalance 0)])
      { fromAddr := 1, toAddr := some 2, value := 3, data := [] } = some s' ∧ s'.world.NonNeg := by
  have hcall : callDB plainExternals (ofAccounts [(1, .ofBalance 5), (2, .ofBalance 0)])
      { fromAddr := 1, toAddr := some 2, value := 3, data := [] } = some _ := rfl
  refine ⟨_, hcall, (callDB_nonNeg_iff ?_ hcall).1.mpr ?_⟩
  · refine nonNeg_world_ofAccounts ?_
    simp only [List.mem_cons, List.not_mem_nil, or_false, forall_eq_or_imp, forall_eq]
    exact ⟨nonNeg_ofBalance 5, nonNeg_ofBalance 0⟩
  · intro dest hdest
    cases hdest
    exact .inr ⟨fun _ => by decide, fun h => by cases h⟩

end ProbeChain
