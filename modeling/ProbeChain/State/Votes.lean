/-
# The vote ledger

A Regular account keeps whom it votes for and with how much, an Authorize account its pledge and a
total.  The total should be the pledge and all votes for the account.  No operation adds the votes
up: `Vote`, `Redemption` and `TransferLostAccount` change both sides by hand.

`World.ballots` reads the votes and the stakes off the accounts, and `advances_callDB` says that a
call which passes the checks of the pool does to them only what `Ballots.Step` allows.  So does the
end of a transaction, if the accounts it takes away have nothing to do with any vote
(`advances_finalise`).  What is allowed keeps the totals right (`Tallied.advance`).
-/
import ProbeChain.Lib.Ballots
import ProbeChain.State.Supply

namespace ProbeChain

open Function Option

/-! ## 1. What is seen of an account -/

/-- The vote of an account, its stake, and whether its records go with its type. -/
structure Standing where
  cast : Address × Int
  stake : Option (Int × Int)
  typed : Prop

/-- Of an account that is not there. -/
def Standing.absent : Standing := ⟨(0, 0), none, True⟩

namespace StateObject

/-- Whom the account votes for, and with how much. -/
def castVote (o : StateObject) : Address × Int := (o.regularAccount.voteAccount, o.regularVotes)

/-- Pledge and total of an Authorize account. -/
def stake (o : StateObject) : Option (Int × Int) :=
  if o.accountType = .authorize then
    o.authorizeAccount.pledgeValue.bind fun pledge => o.authorizeAccount.voteValue.map (pledge, ·)
  else none

/-- Only a Regular account has votes, and an Authorize account has both amounts. -/
def Typed (o : StateObject) : Prop :=
  (o.accountType ≠ .regular → o.regularAccount.voteValue = none) ∧
    (o.accountType = .authorize → o.stake.isSome)

def standing (o : StateObject) : Standing := ⟨o.castVote, o.stake, o.Typed⟩

theorem quiet_standing : Quiet standing .absent where
  new t ht := by
    have htyped : (new t).Typed := by
      refine ⟨fun _ => ?_, fun h => absurd ((new_accountType t).symm.trans h) ht⟩
      rw [new_regularAccount]
    have hstake : (new t).stake = none := by
      rw [stake, new_accountType, if_neg ht]
    have hcast : (new t).castVote = (0, 0) := by
      simp [castVote, regularVotes]
    rw [standing, hcast, hstake, eq_true htyped]
    rfl
  balance o x := by
    have hstake : (o.setBalance x).stake = o.stake := by simp [stake]
    have hcast : (o.setBalance x).castVote = o.castVote := by simp [castVote]
    have htyped : (o.setBalance x).Typed = o.Typed := by simp [Typed, hstake]
    rw [standing, standing, hstake, hcast, htyped]

variable {o : StateObject}

theorem stake_eq {p v : Int} (h : o.accountType = .authorize)
    (hp : o.authorizeAccount.pledgeValue = some p) (hv : o.authorizeAccount.voteValue = some v) :
    o.stake = some (p, v) := by
  rw [stake, if_pos h, hp, hv]
  rfl

theorem Typed.exists_stake (h : o.Typed) (htype : o.accountType = .authorize) :
    ∃ p v, o.authorizeAccount.pledgeValue = some p ∧ o.authorizeAccount.voteValue = some v := by
  have hsome := h.2 htype
  rw [stake, if_pos htype] at hsome
  obtain ⟨x, hx⟩ := isSome_iff_exists.mp hsome
  obtain ⟨p, hp, hx⟩ := bind_eq_some_iff.mp hx
  obtain ⟨v, hv, -⟩ := map_eq_some_iff.mp hx
  exact ⟨p, v, hp, hv⟩

/-- Whoever has votes at all is a Regular account. -/
theorem Typed.regular (h : o.Typed) {v : Int}
    (hv : o.regularAccount.voteValue = some v) : o.accountType = .regular := by
  by_contra htype
  rw [h.1 htype] at hv
  cases hv

section
variable (h : o.accountType = .regular)
include h

theorem castVote_eq :
    o.castVote = (o.regularAccount.voteAccount, o.regularAccount.voteValue.getD 0) := by
  rw [castVote, regularVotes, if_pos h]

theorem castVote_setVote (a : Address) (v : Int) :
    (o.setVote a v).castVote = (a, v) := castVote_eq h

theorem typed_of_regular : o.Typed := by
  refine ⟨fun hne => absurd h hne, fun hauth => ?_⟩
  rw [h] at hauth
  cases hauth

theorem stake_of_regular : o.stake = none := by
  refine if_neg fun hauth => ?_
  rw [h] at hauth
  cases hauth

end

/-- An Authorize account may have any stake. -/
theorem typed_setStake (ho : o.Typed) (h : o.accountType = .authorize) (p v : Int) :
    (o.setStake p v).Typed := by
  refine ⟨ho.1, fun _ => ?_⟩
  rw [stake_eq (o := o.setStake p v) h rfl rfl]
  rfl

theorem setAuthorizeVote_eq_setStake {p : Int}
    (h : o.authorizeAccount.pledgeValue = some p) (v : Int) :
    o.setAuthorizeVote v = o.setStake p v := by
  rw [setAuthorizeVote, setStake, ← h]

end StateObject

/-! ## 2. What is seen of all accounts -/

namespace World

open StateObject

def standing (w : World) : Address → Standing := w.view StateObject.standing .absent

/-- The votes and the stakes of all accounts. -/
def ballots (w : World) : Ballots Address Int :=
  ⟨fun a => (w.standing a).cast, fun a => (w.standing a).stake⟩

/-- Every total is right, all accounts are as their types say, and there is no candidate at address
zero, which stands for no candidate. -/
structure Tallied (w : World) : Prop where
  sound : w.ballots.Sound
  typed : ∀ a, (w.standing a).typed
  nobody : w.ballots.stake 0 = none

variable {w w' : World} {a : Address} {o p : StateObject}

theorem standing_of_some (h : w a = some o) : w.standing a = o.standing := by
  rw [standing, view, h]
  rfl

theorem standing_of_none (h : w a = none) : w.standing a = .absent := by
  rw [standing, view, h]
  rfl

theorem cast_of_some (h : w a = some o) :
    w.ballots.cast a = o.castVote := congrArg Standing.cast (standing_of_some h)

theorem stake_of_some (h : w a = some o) :
    w.ballots.stake a = o.stake := congrArg Standing.stake (standing_of_some h)

theorem cast_of_none (h : w a = none) : w.ballots.cast a = (0, 0) :=
  congrArg Standing.cast (standing_of_none h)

theorem stake_of_none (h : w a = none) : w.ballots.stake a = none :=
  congrArg Standing.stake (standing_of_none h)

theorem standing_put (w : World) (a : Address) (o : StateObject) :
    (w.put a o).standing = update w.standing a o.standing := by
  funext b
  rw [standing, view_put, update_apply]
  rfl

theorem ballots_put (w : World) (a : Address) (o : StateObject) :
    (w.put a o).ballots =
      ⟨update w.ballots.cast a o.castVote, update w.ballots.stake a o.stake⟩ := by
  rw [ballots, standing_put]
  congr 1
  · funext b
    rw [update_apply, update_apply]
    split <;> rfl
  · funext b
    rw [update_apply, update_apply]
    split <;> rfl

/-- A voter is written: the stakes stay. -/
theorem ballots_put_voter (h : w a = some o) (hstake : p.stake = o.stake) :
    (w.put a p).ballots = ⟨update w.ballots.cast a p.castVote, w.ballots.stake⟩ := by
  rw [ballots_put, hstake, ← stake_of_some h, update_eq_self]

/-- A candidate is written: the votes stay. -/
theorem ballots_put_candidate (h : w a = some o) (hcast : p.castVote = o.castVote) :
    (w.put a p).ballots = ⟨w.ballots.cast, update w.ballots.stake a p.stake⟩ := by
  rw [ballots_put, hcast, ← cast_of_some h, update_eq_self]

theorem typed_put (h : ∀ a, (w.standing a).typed) (a : Address) (ho : o.Typed) :
    ∀ b, ((w.put a o).standing b).typed := by
  intro b
  rw [standing_put, update_apply]
  split
  · exact ho
  · exact h b

theorem Tallied.typed_of_some (h : w.Tallied) (ha : w a = some o) : o.Typed := by
  have htyped := h.typed a
  rwa [standing_of_some ha] at htyped

/-- What cannot be seen changes nothing. -/
theorem Tallied.of_standing_eq (h : w.Tallied) (heq : w'.standing = w.standing) : w'.Tallied := by
  have hballots : w'.ballots = w.ballots := by rw [ballots, heq, ballots]
  exact ⟨hballots ▸ h.sound, heq ▸ h.typed, hballots ▸ h.nobody⟩

/-- All votes of Regular accounts for `a`. -/
noncomputable def votesFor (w : World) (a : Address) : Int :=
  w.sum fun o => if o.accountType = .regular ∧ o.regularAccount.voteAccount = a then
    o.regularAccount.voteValue.getD 0 else 0

theorem votesFor_eq_received (w : World) (a : Address) : w.votesFor a = w.ballots.received a := by
  refine Finset.sum_congr rfl fun b _ => ?_
  cases h : w b with
  | none =>
    rw [cast_of_none h]
    exact (Ballots.weightFor_zero a 0).symm
  | some o =>
    rw [cast_of_some h]
    show (if _ ∧ _ then _ else _) = if o.regularAccount.voteAccount = a then o.regularVotes else 0
    rw [regularVotes]
    by_cases hfor : o.regularAccount.voteAccount = a
    · simp [hfor]
    · simp [hfor]

/-- **What the ledger is for.** -/
theorem Tallied.balanced (h : w.Tallied) (ha : w a = some o) (htype : o.accountType = .authorize) :
    ∃ pledge, o.authorizeAccount.pledgeValue = some pledge ∧
      o.authorizeAccount.voteValue = some (pledge + w.votesFor a) := by
  obtain ⟨p, v, hp, hv⟩ := (h.typed_of_some ha).exists_stake htype
  have hstake : w.ballots.stake a = some (p, v) := (stake_of_some ha).trans (stake_eq htype hp hv)
  refine ⟨p, hp, ?_⟩
  rw [hv, h.sound.balanced a p v hstake, votesFor_eq_received]

/-! ## 3. The operations that change votes -/

/-- From `w` to `w'` the ballots take steps, and the rest of the ledger is in order afterwards. -/
structure Advances (w w' : World) : Prop where
  steps : w.ballots.Steps w'.ballots
  typed : ∀ a, (w'.standing a).typed
  nobody : w'.ballots.stake 0 = none

theorem Tallied.advance (h : w.Tallied) (hw : w.Advances w') : w'.Tallied :=
  ⟨hw.steps.sound h.sound, hw.typed, hw.nobody⟩

theorem Advances.trans {w₁ : World} (h : w.Advances w₁) (h' : w₁.Advances w') : w.Advances w' :=
  ⟨h.steps.trans h'.steps, h'.typed, h'.nobody⟩

theorem Tallied.advances_of_standing_eq (h : w.Tallied) (heq : w'.standing = w.standing) :
    w.Advances w' := by
  have hballots : w'.ballots = w.ballots := by rw [ballots, heq, ballots]
  have htallied := h.of_standing_eq heq
  exact ⟨hballots ▸ Relation.ReflTransGen.refl, htallied.typed, htallied.nobody⟩

/-- A voter with votes votes for somebody. -/
theorem Tallied.cast_eq_zero (h : w.Tallied) (ha : (w.ballots.cast a).1 = 0) :
    (w.ballots.cast a).2 = 0 := by
  by_contra hvotes
  have hsome := h.sound.backed a hvotes
  rw [ha, h.nobody] at hsome
  cases hsome

variable {X : Externals} {ctx : TxContext}

theorem advances_registerAuthorize (h : w.Tallied)
    (hnew : w (createAddress X ctx.fromAddr ctx.nonce) = none)
    (hzero : createAddress X ctx.fromAddr ctx.nonce ≠ 0) :
    w.Advances (w.registerAuthorize X ctx) := by
  generalize haddr : createAddress X ctx.fromAddr ctx.nonce = addr at hnew hzero
  have hstanding : (w.registerAuthorize X ctx).standing =
      (w.put addr (newAuthorize ctx)).standing := by
    rw [registerAuthorize, haddr]
    exact view_credit quiet_standing.toCashless _ _ _
  have hstake : (newAuthorize ctx).stake = some ((ctx.value : Int), (ctx.value : Int)) := rfl
  have hballots : (w.registerAuthorize X ctx).ballots =
      ⟨w.ballots.cast,
        update w.ballots.stake addr (some ((ctx.value : Int), (ctx.value : Int)))⟩ := by
    rw [ballots, hstanding, ← ballots, ballots_put, hstake]
    congr 1
    exact update_eq_self_iff.mpr (cast_of_none hnew).symm
  refine ⟨?_, ?_, ?_⟩
  · rw [hballots]
    exact Relation.ReflTransGen.single (Ballots.Step.register _ (stake_of_none hnew))
  · rw [hstanding]
    exact typed_put h.typed addr ⟨fun _ => rfl, fun _ => rfl⟩
  · rw [hballots]
    exact (update_of_ne hzero.symm _ _).trans h.nobody

/-- The account is an Authorize account. -/
def IsCandidate (w : World) (a : Address) : Prop := ∃ o, w a = some o ∧ o.accountType = .authorize

theorem Tallied.candidate_ne_zero (h : w.Tallied) (ha : w a = some o)
    (htype : o.accountType = .authorize) : a ≠ 0 := by
  rintro rfl
  have hnobody := h.nobody
  obtain ⟨p, v, hp, hv⟩ := (h.typed_of_some ha).exists_stake htype
  rw [stake_of_some ha, stake_eq htype hp hv] at hnobody
  cases hnobody

theorem candidate_ne_voter {i : Address} {q : StateObject} (ha : w a = some o)
    (htype : o.accountType = .authorize) (hi : w i = some q)
    (hq : q.accountType = .regular) : a ≠ i := by
  rintro rfl
  cases ha.symm.trans hi
  rw [hq] at htype
  cases htype

section
variable (h : w.Tallied)
include h

/-- A candidate is given another stake. -/
theorem advances_setStake (ha : w a = some o) (htype : o.accountType = .authorize) {p v : Int}
    (hstep : w.ballots.Step ⟨w.ballots.cast, update w.ballots.stake a (some (p, v))⟩) :
    w.Advances (w.put a (o.setStake p v)) := by
  have hballots := ballots_put_candidate ha (show (o.setStake p v).castVote = o.castVote from rfl)
  rw [stake_eq (o := o.setStake p v) htype rfl rfl] at hballots
  refine ⟨hballots ▸ Relation.ReflTransGen.single hstep,
    typed_put h.typed a (typed_setStake (h.typed_of_some ha) htype p v), ?_⟩
  rw [hballots]
  exact (update_of_ne (h.candidate_ne_zero ha htype).symm _ _).trans h.nobody

/-- A voter is written, and a candidate is given another stake. -/
theorem advances_voter_candidate {i : Address} {q q' : StateObject} (hi : w i = some q)
    (hq : q.accountType = .regular) (hq' : q'.accountType = .regular) (ha : w a = some o)
    (htype : o.accountType = .authorize) {p v : Int} (hstep : w.ballots.Step
      ⟨update w.ballots.cast i q'.castVote, update w.ballots.stake a (some (p, v))⟩) :
    w.Advances ((w.put i q').put a (o.setStake p v)) := by
  have hne : a ≠ i := candidate_ne_voter ha htype hi hq
  have hvoter := ballots_put_voter hi ((stake_of_regular hq').trans (stake_of_regular hq).symm)
  have ha' : w.put i q' a = some o := (put_of_ne _ _ hne).trans ha
  have hballots := ballots_put_candidate ha' (show (o.setStake p v).castVote = o.castVote from rfl)
  rw [stake_eq (o := o.setStake p v) htype rfl rfl, hvoter] at hballots
  refine ⟨hballots ▸ Relation.ReflTransGen.single hstep, ?_, ?_⟩
  · exact typed_put (typed_put h.typed i (typed_of_regular hq')) a
      (typed_setStake (h.typed_of_some ha) htype p v)
  · rw [hballots]
    exact (update_of_ne (h.candidate_ne_zero ha htype).symm _ _).trans h.nobody

/-- A vote moves nothing unless the sender votes for somebody else already. -/
theorem advances_vote (hadmits : ∀ addr, decodeAddress ctx.data = some addr → w.IsCandidate addr ∧
      ∃ q, w ctx.fromAddr = some q ∧ q.accountType = .regular ∧
        (q.regularAccount.voteAccount = 0 ∨ q.regularAccount.voteAccount = addr))
    (hw : w.vote ctx = some w') : w.Advances w' := by
  rw [vote] at hw
  cases hd : decodeAddress ctx.data with
  | none =>
    rw [hd] at hw
    exact h.advances_of_standing_eq (some.inj hw ▸ rfl)
  | some addr =>
    rw [hd] at hw
    dsimp only at hw
    obtain ⟨⟨o, ho, htype⟩, q, hq, hregular, hfree⟩ := hadmits addr hd
    obtain ⟨p, v, hp, hv⟩ := (h.typed_of_some ho).exists_stake htype
    have hne : addr ≠ ctx.fromAddr := candidate_ne_voter ho htype hq hregular
    have hcast : w.castVote ctx addr addr = some o := (put_of_ne _ _ hne).trans ho
    rw [hcast] at hw
    dsimp only at hw
    rw [hv, map_some, setAuthorizeVote_eq_setStake hp] at hw
    obtain rfl := some.inj hw
    have hold : w.ballots.cast ctx.fromAddr = (q.regularAccount.voteAccount,
        q.regularAccount.voteValue.getD 0) := (cast_of_some hq).trans (castVote_eq hregular)
    have htypes : ((credited (-ctx.value) (w ctx.fromAddr)).addVote addr ctx.value).accountType =
        .regular := by
      rw [hq]
      exact (setBalance_accountType _ _).trans hregular
    refine advances_voter_candidate h hq hregular htypes ho htype ?_
    have hnew : ((credited (-ctx.value) (w ctx.fromAddr)).addVote addr ctx.value).castVote =
        (addr, (ctx.value : Int) + (w.ballots.cast ctx.fromAddr).2) := by
      rw [castVote_eq htypes, hold, hq]
      exact congrArg (fun x : Option Int => (addr, (ctx.value : Int) + x.getD 0))
        (setBalance_voteValue _ _)
    rw [hnew]
    refine Ballots.Step.vote (Int.natCast_nonneg _)
      ((stake_of_some ho).trans (stake_eq htype hp hv)) ?_
    rcases hfree with hzero | haddr
    · left
      refine h.cast_eq_zero ?_
      rw [hold]
      exact hzero
    · right
      rw [hold]
      exact haddr

/-- The owner's half of a redemption. -/
theorem advances_redeemPledge {addr : Address} (hcandidate : w.IsCandidate addr)
    (hw : w.redemptionForAuthorize addr none = some w') :
    w.Advances w' ∧ w'.IsCandidate addr ∧ ∀ a, a ≠ addr → w' a = w a := by
  obtain ⟨o, ho, htype⟩ := hcandidate
  obtain ⟨p, v, hp, hv⟩ := (h.typed_of_some ho).exists_stake htype
  simp only [redemptionForAuthorize, ho, redeemed, hp, hv, map_some] at hw
  obtain rfl := some.inj hw
  refine ⟨advances_setStake h ho htype ?_, ⟨_, put_self _ _ _, htype⟩, fun a ha => put_of_ne _ _ ha⟩
  exact Ballots.Step.withdrawPledge ((stake_of_some ho).trans (stake_eq htype hp hv))

/-- The voter's half. -/
theorem advances_redeemVotes {addr : Address} (hcandidate : w.IsCandidate addr)
    {q : StateObject} (hq : w ctx.fromAddr = some q) (hregular : q.accountType = .regular)
    (hw : w.redeemVotes ctx addr = some w') : w.Advances w' := by
  obtain ⟨o, ho, htype⟩ := hcandidate
  obtain ⟨p, v, hp, hv⟩ := (h.typed_of_some ho).exists_stake htype
  simp only [redeemVotes, hq] at hw
  split at hw
  next haddr =>
    split at hw
    next voteValue value hvotes hvalue =>
      have hne : addr ≠ ctx.fromAddr := candidate_ne_voter ho htype hq hregular
      simp only [redemptionForAuthorize, put_of_ne _ _ hne, ho, redeemed, hp, hv, map_some] at hw
      rw [setAuthorizeVote_eq_setStake hp] at hw
      obtain rfl := some.inj hw
      have hold : w.ballots.cast ctx.fromAddr = (addr, voteValue) := by
        rw [cast_of_some hq, castVote_eq hregular, hvotes, ← haddr]
        rfl
      have htypes : ((q.setBalance (value + voteValue)).setVote 0 0).accountType = .regular :=
        (setBalance_accountType _ _).trans hregular
      refine advances_voter_candidate h hq hregular htypes ho htype ?_
      have hstep := Ballots.Step.withdraw (t := w.ballots) (i := ctx.fromAddr) 0 rfl
        ((congrArg w.ballots.stake (congrArg Prod.fst hold)).trans
          ((stake_of_some ho).trans (stake_eq htype hp hv)))
      rw [hold] at hstep
      rw [castVote_setVote ((setBalance_accountType _ _).trans hregular)]
      exact hstep
    · cases hw
  · exact h.advances_of_standing_eq (some.inj hw ▸ rfl)

theorem advances_redemption
    (hadmits : ∀ addr, decodeAddress ctx.data = some addr → w.IsCandidate addr ∧
      ∃ q, w ctx.fromAddr = some q ∧ q.accountType = .regular)
    (hw : w.redemption ctx = some w') : w.Advances w' := by
  rw [redemption] at hw
  split at hw
  · exact h.advances_of_standing_eq (some.inj hw ▸ rfl)
  next addr hd =>
    obtain ⟨⟨o, ho, htype⟩, q, hq, hregular⟩ := hadmits addr hd
    simp only [hq, ho] at hw
    obtain ⟨w₁, hw₁, hw⟩ := bind_eq_some_iff.mp hw
    split at hw₁
    · obtain ⟨hpledge, hcandidate, hother⟩ := advances_redeemPledge h ⟨o, ho, htype⟩ hw₁
      have hne : addr ≠ ctx.fromAddr := candidate_ne_voter ho htype hq hregular
      exact hpledge.trans (advances_redeemVotes (h.advance hpledge) hcandidate
        ((hother _ hne.symm).trans hq) hregular hw)
    · obtain rfl := some.inj hw₁
      exact advances_redeemVotes h ⟨o, ho, htype⟩ hq hregular hw

theorem advances_transferLostVotes {lostAddr benefitAddr : Address}
    (hw : w.transferLostVotes lostAddr benefitAddr = some w') : w.Advances w' := by
  rw [transferLostVotes] at hw
  split at hw
  next lost benefit hlost hbenefit =>
    obtain ⟨move, hmove, rfl⟩ := map_eq_some_iff.mp hw
    split
    next htrue =>
      rw [htrue] at hmove
      obtain ⟨hpos, v, hv, hless⟩ := votesMove_eq_true hmove
      obtain ⟨u, hu⟩ : ∃ u, lost.regularAccount.voteValue = some u := by
        cases hu : lost.regularAccount.voteValue with
        | none =>
          rw [hu] at hpos
          cases hpos
        | some u => exact ⟨u, rfl⟩
      have hregular := (h.typed_of_some hlost).regular hu
      have hregular' := (h.typed_of_some hbenefit).regular hv
      have hold : w.ballots.cast lostAddr = (lost.regularAccount.voteAccount, u) := by
        rw [cast_of_some hlost, castVote_eq hregular, hu]
        rfl
      have hold' : w.ballots.cast benefitAddr = (benefit.regularAccount.voteAccount, v) := by
        rw [cast_of_some hbenefit, castVote_eq hregular', hv]
        rfl
      have hzero : (w.ballots.cast benefitAddr).2 = 0 := by
        have hnonneg := h.sound.nonneg benefitAddr
        rw [hold'] at hnonneg ⊢
        exact le_antisymm (Int.lt_add_one_iff.mp hless) hnonneg
      have hne := ne_of_votesMove hlost hbenefit hmove
      have hlost' :=
        (put_of_ne w (benefit.setVote lost.regularAccount.voteAccount u) hne).trans hlost
      have hballots :
          ((w.put benefitAddr (benefit.setVote lost.regularAccount.voteAccount u)).put lostAddr
          (lost.setVote 0 0)).ballots = ⟨update (update w.ballots.cast benefitAddr
            (w.ballots.cast lostAddr)) lostAddr (0, 0), w.ballots.stake⟩ := by
        rw [ballots_put_voter (p := lost.setVote 0 0) hlost' rfl,
          ballots_put_voter (p := benefit.setVote lost.regularAccount.voteAccount u) hbenefit rfl,
          castVote_setVote hregular, castVote_setVote hregular', hold]
      rw [hu, getD_some]
      refine ⟨?_, ?_, ?_⟩
      · rw [hballots]
        exact Relation.ReflTransGen.single (Ballots.Step.hand 0 hne hzero)
      · have hbenefits : (benefit.setVote lost.regularAccount.voteAccount u).Typed :=
          typed_of_regular hregular'
        exact typed_put (typed_put h.typed benefitAddr hbenefits) lostAddr
          (typed_of_regular (o := lost.setVote 0 0) hregular)
      · rw [hballots]
        exact h.nobody
    · exact h.advances_of_standing_eq rfl
  · exact h.advances_of_standing_eq (some.inj hw ▸ rfl)

theorem advances_transferLostAccount (hw : w.transferLostAccount ctx = some w') :
    w.Advances w' := by
  rcases transferLostAccount_eq_some hw with rfl | ⟨addr, loss, w₁, -, -, rfl, hw₁⟩
  · exact h.advances_of_standing_eq rfl
  · have hassets : w.Advances w₁ := by
      rcases hw₁ with rfl | ⟨lost, benefit, -, -, hw₁⟩
      · exact h.advances_of_standing_eq rfl
      · have hbalance :=
          h.advances_of_standing_eq (view_transferLostBalance quiet_standing.toCashless w
          loss.lossAccount.lostAccount loss.lossAccount.newAccount lost)
        exact hbalance.trans (advances_transferLostVotes (h.advance hbalance) hw₁)
    have hstate : ∀ o : StateObject, (o.setLossState .success).standing = o.standing := fun o => rfl
    exact hassets.trans ((h.advance hassets).advances_of_standing_eq (view_modify hstate w₁ _))

end

/-! ## 4. Calls -/

/-- A new account that looks like none, in a place where there was none. -/
theorem standing_register (hnew : w a = none) (ho : o.standing = .absent) :
    (w.put a o).standing = w.standing := by
  rw [standing_put, ho, ← standing_of_none hnew, update_eq_self]

/-- An account that is closed keeps its votes and its stake until the end of the transaction. -/
theorem standing_close {S : List Address}
    (h : ∀ b, w'.standing b = if b ∈ S then w.view (StateObject.standing ·.markSuicided) .absent b
      else w.standing b) : w'.standing = w.standing := by
  funext b
  rw [h b]
  exact ite_self (w.standing b)

variable (X w ctx) in
/-- What the checks of the pool say about the accounts a call works on, and that no Authorize
account is registered at address zero. -/
def Admits : Prop :=
  match ctx.toAddr.map operationOf with
  | some .registerPns => w (createPNSAddress X ctx.fromAddr ctx.data) = none
  | some .registerAuthorize =>
    w (createAddress X ctx.fromAddr ctx.nonce) = none ∧ createAddress X ctx.fromAddr ctx.nonce ≠ 0
  | some .registerLose => w (createAddress X ctx.fromAddr ctx.nonce) = none
  | some .vote => ∀ addr, decodeAddress ctx.data = some addr → w.IsCandidate addr ∧
      ∃ q, w ctx.fromAddr = some q ∧ q.accountType = .regular ∧
        (q.regularAccount.voteAccount = 0 ∨ q.regularAccount.voteAccount = addr)
  | some .redemption => ∀ addr, decodeAddress ctx.data = some addr → w.IsCandidate addr ∧
      ∃ q, w ctx.fromAddr = some q ∧ q.accountType = .regular
  | _ => True

/-- **A call takes steps.** -/
theorem advances_callDB (h : w.Tallied) (hadmits : w.Admits X ctx) (hw : w.callDB X ctx = some w') :
    w.Advances w' := by
  have hsame (heq : w'.standing = w.standing) : w.Advances w' := h.advances_of_standing_eq heq
  have hcash := quiet_standing.toCashless
  have hreports := quiet_standing.toUnreported
  have hcall := hw
  rw [Admits] at hadmits
  rw [callDB] at hw
  cases hto : ctx.toAddr with
  | none =>
    rw [hto] at hw
    exact hsame (some.inj hw ▸ rfl)
  | some dest =>
    rw [hto, map_some] at hadmits
    rw [hto] at hw
    dsimp only at hw
    have hclerical := view_clerical quiet_standing.toDetached hto hcall
    cases hop : operationOf dest <;> rw [hop] at hw hadmits hclerical <;> dsimp only at hw hadmits
    case registerPns =>
      obtain rfl := some.inj hw
      exact hsame ((view_credit hcash _ _ _).trans (standing_register hadmits
        (quiet_standing.new .pns (by decide))))
    case registerAuthorize =>
      obtain rfl := some.inj hw
      exact advances_registerAuthorize h hadmits.1 hadmits.2
    case registerLose =>
      obtain rfl := some.inj hw
      exact hsame ((view_credit hcash _ _ _).trans ((view_updateLossMark hreports _ _ _).trans
        (standing_register hadmits (quiet_standing.new .loss (by decide)))))
    case cancellation => exact hsame (standing_close (view_cancellation hcash hw))
    case vote => exact advances_vote h hadmits hw
    case redemption => exact advances_redemption h hadmits hw
    case cancellationLostAccount => exact hsame (standing_close (view_cancellationLoss hcash hw))
    case revealLossReport => exact hsame (view_revealLossReport hreports hcash hw)
    case transferLostAccountBalance => exact advances_transferLostAccount h hw
    case removeLossReport => exact hsame (standing_close (view_closeReport hreports hcash false hw))
    case rejectLossReport => exact hsame (standing_close (view_closeReport hreports hcash true hw))
    case modifyLossType => exact hsame (some.inj hw ▸ view_modifyLossType hreports)
    case transfer => exact hsame (some.inj hw ▸ view_transfer hcash w ctx dest)
    all_goals exact hsame (hclerical rfl)

end World

/-! ## 5. The end of a transaction -/

namespace StateDB

open World

/-- `Finalise` deletes the account. -/
def Deletes (s : StateDB) (a : Address) : Prop :=
  a ∈ s.dirties ∧ ∃ o, s.world a = some o ∧ o.suicided = true

theorem world_finalise_of_deletes {s : StateDB} {a : Address} (h : s.Deletes a) :
    s.finalise.world a = none := by
  obtain ⟨hdirty, o, ho, hclosed⟩ := h
  rw [world_finalise, ho, bind_some, if_pos hdirty, if_pos hclosed]

theorem standing_finalise_of_not_deletes {s : StateDB} {a : Address} (h : ¬ s.Deletes a) :
    s.finalise.world.standing a = s.world.standing a := by
  cases ho : s.world a with
  | none =>
    have hnone : s.finalise.world a = none := by rw [world_finalise, ho, bind_none]
    rw [standing_of_none hnone, standing_of_none ho]
  | some o =>
    rw [standing_of_some ho]
    by_cases hdirty : a ∈ s.dirties
    · have hopen : o.suicided ≠ true := fun hclosed => h ⟨hdirty, o, ho, hclosed⟩
      have hsome : s.finalise.world a = some o.finalise := by
        rw [world_finalise, ho, bind_some, if_pos hdirty, if_neg hopen]
      exact (standing_of_some hsome).trans rfl
    · have hsome : s.finalise.world a = some o := by
        rw [world_finalise, ho, bind_some, if_neg hdirty]
      exact standing_of_some hsome

/-- Accounts may go that have no votes and that nobody votes for. -/
theorem advances_finalise {s : StateDB} (h : s.world.Tallied)
    (hvoter : ∀ a, s.Deletes a → (s.world.ballots.cast a).2 = 0)
    (hcandidate : ∀ a, (s.world.ballots.cast a).2 ≠ 0 → ¬ s.Deletes (s.world.ballots.cast a).1) :
    s.world.Advances s.finalise.world := by
  have hkept (a : Address) (ha : ¬ s.Deletes a) : s.finalise.world.ballots.cast a =
      s.world.ballots.cast a ∧ s.finalise.world.ballots.stake a = s.world.ballots.stake a := by
    have heq := standing_finalise_of_not_deletes ha
    exact ⟨congrArg Standing.cast heq, congrArg Standing.stake heq⟩
  have hgone (a : Address) (ha : s.Deletes a) : (s.finalise.world.ballots.cast a).2 = 0 ∧
      s.finalise.world.ballots.stake a = none :=
    ⟨congrArg Prod.snd (cast_of_none (world_finalise_of_deletes ha)),
      stake_of_none (world_finalise_of_deletes ha)⟩
  refine ⟨Relation.ReflTransGen.single
    (Ballots.Step.remove {a | s.Deletes a} hvoter hcandidate hkept hgone), ?_, ?_⟩
  · intro a
    by_cases ha : s.Deletes a
    · rw [standing_of_none (world_finalise_of_deletes ha)]
      trivial
    · rw [standing_finalise_of_not_deletes ha]
      exact h.typed a
  · by_cases hzero : s.Deletes 0
    · exact (hgone 0 hzero).2
    · exact (hkept 0 hzero).2.trans h.nobody

end StateDB

end ProbeChain
