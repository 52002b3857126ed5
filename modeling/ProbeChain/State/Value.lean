/-
# Sums over all accounts

The addresses are finitely many, so amounts can be summed over all accounts of a world.  A MEASURE
is what one account contributes; a missing account contributes nothing.

The measures of interest count the balance of an account and are blind to its nonce, marks, owners
and so on.  `CountsBalance` says the first; for such a measure `sum_credit` says what a payment does
to the sum: it adds the amount to an account that carries a balance, does nothing to one that does
not, and brings a new Regular account into being where there is none.
-/
import ProbeChain.Lib.Ledger
import ProbeChain.State.Frame

namespace ProbeChain

open Option

noncomputable instance : Fintype Address :=
  Fintype.ofInjective (fun a : Address => a.toFin) (fun _ _ h => BitVec.eq_of_toFin_eq h)

namespace StateObject

/-- What the account type cost to create. -/
def creationPledge (o : StateObject) : Int := o.accountType.pledge

/-- The votes a Regular account has cast. -/
def regularVotes (o : StateObject) : Int :=
  if o.accountType = .regular then o.regularAccount.voteValue.getD 0 else 0

/-- The pledge of an Authorize account. -/
def authorizePledge (o : StateObject) : Int :=
  if o.accountType = .authorize then o.authorizeAccount.pledgeValue.getD 0 else 0

/-- A measure that counts the balance of the types that carry one. -/
def CountsBalance (f : StateObject → Int) : Prop :=
  ∀ o x, f (o.setBalance x) = f o + if o.accountType.holdsBalance then x - o.balance else 0

theorem countsBalance_balance : CountsBalance balance := by
  intro o x
  rw [balance_setBalance]
  split
  · omega
  next h =>
    rw [balance_of_not_holds (by simpa using h)]
    rfl

/-- Adding something that does not depend on the balance. -/
theorem CountsBalance.add {f g : StateObject → Int} (hf : CountsBalance f)
    (hg : ∀ o x, g (o.setBalance x) = g o) : CountsBalance (fun o => f o + g o) := by
  intro o x
  show f (o.setBalance x) + g (o.setBalance x) = f o + g o + _
  rw [hf o x, hg o x]
  omega

@[simp] theorem regularVotes_setBalance (o : StateObject) (x : Int) :
    (o.setBalance x).regularVotes = o.regularVotes := by
  simp [regularVotes]

@[simp] theorem authorizePledge_setBalance (o : StateObject) (x : Int) :
    (o.setBalance x).authorizePledge = o.authorizePledge := by
  simp [authorizePledge]

@[simp] theorem creationPledge_setBalance (o : StateObject) (x : Int) :
    (o.setBalance x).creationPledge = o.creationPledge := by
  simp [creationPledge]

/-- A measure that counts the votes cast by Regular accounts. -/
def CountsVotes (f : StateObject → Int) : Prop :=
  ∀ o a v, f (o.setVote a v) =
    f o + if o.accountType = .regular then v - o.regularAccount.voteValue.getD 0 else 0

theorem countsVotes_regularVotes : CountsVotes regularVotes := by
  intro o a v
  unfold regularVotes
  by_cases h : o.accountType = .regular
  · simp [setVote, h]
  · simp [setVote, h]

/-- Adding something that does not depend on the votes. -/
theorem CountsVotes.add {f g : StateObject → Int} (hf : CountsVotes f)
    (hg : ∀ o a v, g (o.setVote a v) = g o) : CountsVotes (fun o => f o + g o) := by
  intro o a v
  show f (o.setVote a v) + g (o.setVote a v) = f o + g o + _
  rw [hf o a v, hg o a v]
  omega

/-- Whether there is an account, and whether it carries a balance. -/
inductive Funding where
  | missing
  | plain
  | holder
  deriving DecidableEq

def funding : Option StateObject → Funding
  | none => .missing
  | some o => bif o.accountType.holdsBalance then .holder else .plain

/-- After a payment the account is there; a missing one carries a balance from then on. -/
def Funding.paid : Funding → Funding
  | .plain => .plain
  | _ => .holder

/-- What a payment adds to a sum, `fresh` being what a new Regular account contributes. -/
def gain (fresh v : Int) : Funding → Int
  | .missing => v + fresh
  | .plain => 0
  | .holder => v

end StateObject

namespace World

open StateObject

/-- The sum of a measure over the accounts that exist. -/
noncomputable def sum (f : StateObject → Int) (w : World) : Int :=
  Ledger.total (fun o => o.elim 0 f) w

theorem sum_put (f : StateObject → Int) (w : World) (a : Address) (o : StateObject) :
    (w.put a o).sum f = w.sum f + (f o - (w a).elim 0 f) :=
  Ledger.total_update _ w a (some o)

variable {f : StateObject → Int} {w w' : World} {lostAddr benefitAddr : Address}
  {lost benefit : StateObject}

theorem sum_put_of_some (f : StateObject → Int) {a : Address} {o : StateObject}
    (h : w a = some o) (p : StateObject) : (w.put a p).sum f = w.sum f + (f p - f o) := by
  rw [sum_put, h, elim_some]

theorem sum_le_sum (h : ∀ a, (w' a).elim 0 f ≤ (w a).elim 0 f) : w'.sum f ≤ w.sum f :=
  Ledger.total_le_total h

/-- A change the measure does not see. -/
theorem sum_congr (h : w'.view f 0 = w.view f 0) : w'.sum f = w.sum f :=
  Finset.sum_congr rfl fun a _ => congrFun h a

/-- **What a payment does to a sum.** -/
theorem sum_credit (hf : CountsBalance f) (w : World) (a : Address) (v : Int) :
    (w.credit a v).sum f = w.sum f + gain (f (StateObject.new .regular)) v (funding (w a)) := by
  rw [credit, sum_put]
  cases w a with
  | none =>
    have h := hf (StateObject.new .regular) (0 + v)
    simp only [new_accountType, AccountType.holdsBalance, if_true] at h
    have hbal : (StateObject.new .regular).balance = 0 := rfl
    simp only [credited, getD_none, hbal, h, funding, gain, elim_none]
    omega
  | some o =>
    have h := hf o (o.balance + v)
    simp only [credited, getD_some, h, funding, elim_some]
    cases o.accountType.holdsBalance with
    | true => simp only [if_true, cond_true, gain]; omega
    | false => simp [gain]

/-- **What moving a balance does to a sum**: nothing, unless the balance is positive and goes to
where it cannot be kept. -/
theorem sum_transferLostBalance (hf : CountsBalance f) (hl : w lostAddr = some lost)
    (hb : w benefitAddr = some benefit) :
    (w.transferLostBalance lostAddr benefitAddr lost).sum f = w.sum f -
      (if 0 < lost.balance ∧ ¬(lostAddr ≠ benefitAddr ∧ benefit.accountType.holdsBalance) then
        lost.balance else 0) := by
  unfold transferLostBalance
  split
  next hpos =>
    have hholds : lost.accountType.holdsBalance = true := by
      by_contra hno
      rw [balance_of_not_holds (by simpa using hno)] at hpos
      exact absurd hpos (lt_irrefl 0)
    by_cases hsame : lostAddr = benefitAddr
    · -- the balance is doubled and then wiped out
      subst hsame
      rw [hl] at hb
      cases hb
      have hpaid : w.credit lostAddr lost.balance lostAddr =
          some (lost.setBalance (lost.balance + lost.balance)) := by
        rw [credit, put_self, hl]; rfl
      have hset := hf lost 0
      have hdouble := hf lost (lost.balance + lost.balance)
      simp only [hholds, if_true] at hset hdouble
      rw [modify_of_some hpaid, sum_put_of_some f hpaid, sum_credit hf, hl, funding, hholds,
        setBalance_setBalance, hset, hdouble, if_pos ⟨hpos, fun h => h.1 rfl⟩]
      simp only [cond_true, gain]
      omega
    · have hpaid : w.credit benefitAddr lost.balance lostAddr = some lost := by
        rw [credit, put_of_ne _ _ hsame, hl]
      have hset := hf lost 0
      simp only [hholds, if_true] at hset
      rw [modify_of_some hpaid, sum_put_of_some f hpaid, sum_credit hf, hb, funding, hset]
      cases benefit.accountType.holdsBalance with
      | true => simp [gain, hsame]
      | false => simp [gain, hpos, Int.sub_eq_add_neg]
  next hpos =>
    omega

/-- What a sum gains when the votes of `lost` move to `benefit`. -/
def votesGain (lost benefit : StateObject) : Int :=
  if votesMove lost benefit = some true then
    (if benefit.accountType = .regular then lost.regularAccount.voteValue.getD 0 -
      benefit.regularAccount.voteValue.getD 0 else 0) -
    (if lost.accountType = .regular then lost.regularAccount.voteValue.getD 0 else 0)
  else 0

theorem votesGain_setBalance (lost benefit : StateObject) (x y : Int) :
    votesGain (lost.setBalance x) (benefit.setBalance y) = votesGain lost benefit := by
  have hmove : votesMove (lost.setBalance x) (benefit.setBalance y) = votesMove lost benefit := by
    simp [votesMove]
  simp [votesGain, hmove]

/-- **What moving votes does to a sum.** -/
theorem sum_transferLostVotes (hf : CountsVotes f) (hl : w lostAddr = some lost)
    (hb : w benefitAddr = some benefit) (hw : w.transferLostVotes lostAddr benefitAddr = some w') :
    w'.sum f = w.sum f + votesGain lost benefit := by
  unfold transferLostVotes at hw
  simp only [hl, hb, map_eq_some_iff] at hw
  obtain ⟨move, hmove, rfl⟩ := hw
  cases move with
  | false => simp [votesGain, hmove]
  | true =>
    have hlost : w.put benefitAddr (benefit.setVote lost.regularAccount.voteAccount
        (lost.regularAccount.voteValue.getD 0)) lostAddr = some lost := by
      rw [put_of_ne _ _ (ne_of_votesMove hl hb hmove), hl]
    simp only [votesGain, hmove, if_true]
    rw [sum_put_of_some f hlost, sum_put_of_some f hb, hf, hf]
    split <;> split <;> omega

/-- The balance is taken over and then the votes. -/
theorem sum_transferLostAssets (hbalance : CountsBalance f) (hvotes : CountsVotes f)
    (hl : w lostAddr = some lost) (hb : w benefitAddr = some benefit)
    (hw : (w.transferLostBalance lostAddr benefitAddr lost).transferLostVotes lostAddr benefitAddr =
      some w') :
    w'.sum f = w.sum f - (if 0 < lost.balance ∧ ¬(lostAddr ≠ benefitAddr ∧
      benefit.accountType.holdsBalance) then lost.balance else 0) + votesGain lost benefit := by
  obtain ⟨x, hx⟩ := transferLostBalance_of_some hl lostAddr benefitAddr lost
  obtain ⟨y, hy⟩ := transferLostBalance_of_some hb lostAddr benefitAddr lost
  rw [sum_transferLostVotes hvotes hx hy hw, sum_transferLostBalance hbalance hl hb,
    votesGain_setBalance]

/-! ## Accounts that come into being -/

theorem funding_credit (w : World) (a b : Address) (v : Int) :
    funding (w.credit a v b) = if b = a then (funding (w a)).paid else funding (w b) := by
  by_cases hb : b = a
  · subst hb
    rw [if_pos rfl, credit, put_self]
    cases w b with
    | none => rfl
    | some o =>
      simp only [credited, getD_some, funding, setBalance_accountType]
      cases o.accountType.holdsBalance <;> rfl
  · rw [if_neg hb, credit, put_of_ne _ _ hb]

/-- Type and presence are all that counts for it. -/
theorem funding_congr {o p : Option StateObject}
    (h : o.map (·.accountType) = p.map (·.accountType)) : funding o = funding p := by
  cases o with
  | none => cases p <;> simp_all [funding]
  | some o =>
    cases p with
    | none => simp at h
    | some p =>
      simp only [map_some, some.injEq] at h
      simp [funding, h]

theorem funding_updateLossMark (w : World) (lastBits : UInt32) (flag : Bool) (a : Address) :
    funding (w.updateLossMark lastBits flag a) =
      if a = specialAddressForRegisterLose ∧ w a = none then .plain else funding (w a) := by
  by_cases ha : a = specialAddressForRegisterLose
  · subst ha
    rw [updateLossMark, put_self]
    cases hw : w specialAddressForRegisterLose with
    | none => simp [lossMarkObject, funding, AccountType.holdsBalance]
    | some o => simp [lossMarkObject, funding]
  · rw [updateLossMark, put_of_ne _ _ ha, if_neg (fun h => ha h.1)]

end World

end ProbeChain
