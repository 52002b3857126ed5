/-
# Staking and getting the stake back

Two ways to stake: registering an Authorize account with a pledge, and voting for one.  Both are
taken back with a redemption.  A stake makes the ROUND TRIP when the redemption pays exactly what
was staked, whatever other accounts vote and redeem in between.

A redemption pays nothing but votes.  The owner's pledge is struck off the Authorize account and
goes nowhere, so the owner gets the pledge back only when it happens to equal votes the owner has
cast for the new account's address before.  A voter gets all of its votes back, also those cast for
somebody else before, since a vote adds to the recorded votes and replaces the account they are for.
`stake_round_trip_iff` states both exactly.
-/
import ProbeChain.State.NoPanic

namespace ProbeChain

open Option World StateDB

/-! ## 1. What others leave alone -/

namespace StateObject

/-- What a redemption reads of its sender. -/
def voting (o : StateObject) : AccountType × Address × Option Int :=
  (o.accountType, o.regularAccount.voteAccount, o.regularAccount.voteValue)

/-- Whether the amounts of the Authorize record are there. -/
def staked (o : StateObject) : Bool × Bool :=
  (o.authorizeAccount.pledgeValue.isSome, o.authorizeAccount.voteValue.isSome)

end StateObject

namespace World

open StateObject

/-- The votes of `party` are as before, and amounts are where they were. -/
def Kept (party : Address) (w w' : World) : Prop :=
  (w' party).map voting = (w party).map voting ∧ ∀ a, (w' a).map staked = (w a).map staked

theorem Kept.refl (party : Address) (w : World) : Kept party w w := ⟨rfl, fun _ => rfl⟩

theorem Kept.trans {party : Address} {w w' w'' : World} (h : Kept party w w')
    (h' : Kept party w' w'') : Kept party w w'' :=
  ⟨h'.1.trans h.1, fun a => (h'.2 a).trans (h.2 a)⟩

theorem kept_put {party : Address} {w : World} {a : Address} {o p : StateObject}
    (h : w a = some o) (hs : p.staked = o.staked) (hv : a = party → p.voting = o.voting) :
    Kept party w (w.put a p) := by
  refine ⟨?_, map_put_of_some staked h hs⟩
  by_cases ha : a = party
  · exact map_put_of_some voting h (hv ha) party
  · rw [put_of_ne _ _ (Ne.symm ha)]

variable {party : Address} {w w' : World} {ctx : TxContext} {addr : Address} {o c : StateObject}
  {v : Option Int}

/-- Striking off changes amounts of the Authorize record that are there. -/
theorem redemptionForAuthorize_eq_some (hw : w.redemptionForAuthorize addr v = some w') :
    (w addr = none ∧ w' = w) ∨ ∃ o A, w addr = some o ∧ o.staked = (true, true) ∧
      staked { o with authorizeAccount := A } = (true, true) ∧
      w' = w.put addr { o with authorizeAccount := A } := by
  unfold redemptionForAuthorize at hw
  cases ho : w addr with
  | none => rw [ho] at hw; cases hw; exact .inl ⟨rfl, rfl⟩
  | some o =>
    simp only [ho, redeemed] at hw
    obtain ⟨p, hp, rfl⟩ := map_eq_some_iff.mp hw
    split at hp
    next pledge vote hpledge hvote =>
      have hstaked : o.staked = (true, true) := by rw [staked, hpledge, hvote]; rfl
      split at hp
      · cases hp
        exact .inr ⟨o, _, rfl, hstaked, rfl, rfl⟩
      · cases hp
        exact .inr ⟨o, _, rfl, hstaked, by simp [staked, hpledge], rfl⟩
    · cases hp

theorem kept_redemptionForAuthorize
    (hw : w.redemptionForAuthorize addr v = some w') : Kept party w w' := by
  rcases redemptionForAuthorize_eq_some hw with ⟨-, rfl⟩ | ⟨o, A, ho, hs, hs', rfl⟩
  · exact Kept.refl party w'
  · exact kept_put ho (hs'.trans hs.symm) fun _ => rfl

section
variable (hne : ctx.fromAddr ≠ party)
include hne

theorem kept_castVote (addr : Address) (ho : w ctx.fromAddr ≠ none) :
    Kept party w (w.castVote ctx addr) := by
  obtain ⟨o, ho⟩ := ne_none_iff_exists'.mp ho
  rw [castVote, ho]
  refine kept_put ho ?_ fun h => absurd h hne
  simp [credited, addVote, setVote, staked]

theorem kept_vote (ho : w ctx.fromAddr ≠ none) (hw : w.vote ctx = some w') : Kept party w w' := by
  unfold vote at hw
  cases hd : decodeAddress ctx.data with
  | none => rw [hd] at hw; cases hw; exact Kept.refl party w
  | some addr =>
    simp only [hd] at hw
    have hcast := kept_castVote hne addr ho
    split at hw
    · cases hw; exact hcast
    next c hc =>
      simp only [map_eq_some_iff] at hw
      obtain ⟨prev, hprev, rfl⟩ := hw
      refine hcast.trans (kept_put hc ?_ fun _ => rfl)
      simp [setAuthorizeVote, staked, hprev]

theorem kept_redeemVotes (hw : w.redeemVotes ctx addr = some w') : Kept party w w' := by
  obtain ⟨o, ho, ⟨-, rfl⟩ | ⟨-, -, v, -, hw⟩⟩ := redeemVotes_eq_some hw
  · exact Kept.refl party _
  · refine Kept.trans (kept_put ho ?_ fun h => absurd h hne) (kept_redemptionForAuthorize hw)
    simp [setVote, staked]

theorem kept_redemption (hw : w.redemption ctx = some w') : Kept party w w' := by
  unfold redemption at hw
  split at hw
  · cases hw; exact Kept.refl party w
  next =>
    split at hw
    · obtain ⟨w₁, hw₁, hw₂⟩ := bind_eq_some_iff.mp hw
      refine Kept.trans ?_ (kept_redeemVotes hne hw₂)
      split at hw₁
      · exact kept_redemptionForAuthorize hw₁
      · cases hw₁
        exact Kept.refl party w
    · cases hw
      exact Kept.refl party w

end

/-! ## 2. What a redemption pays -/

theorem redemptionForAuthorize_of_staked (hc : w addr = some c)
    (hs : c.staked = (true, true)) (v : Option Int) :
    ∃ w₁, w.redemptionForAuthorize addr v = some w₁ := by
  simp only [staked, Prod.mk.injEq, isSome_iff_exists] at hs
  obtain ⟨⟨pledge, hpledge⟩, vote, hvote⟩ := hs
  simp only [redemptionForAuthorize, hc, redeemed, hpledge, hvote]
  cases v <;> exact ⟨_, rfl⟩

theorem balanceAt_redemptionForAuthorize
    (hw : w.redemptionForAuthorize addr v = some w') (a : Address) :
    w'.balanceAt a = w.balanceAt a := by
  rcases redemptionForAuthorize_eq_some hw with ⟨-, rfl⟩ | ⟨o, A, ho, -, -, rfl⟩
  · rfl
  · by_cases ha : a = addr
    · subst ha
      rw [balanceAt, put_self, balanceAt, ho]
      rfl
    · rw [balanceAt, put_of_ne _ _ ha, balanceAt]

/-- A sender with these votes is paid `v` by a redemption from `addr`: its votes, if they are for
`addr`, and else nothing. -/
def Refunds (votes : AccountType × Address × Option Int) (addr : Address) (v : Int) : Prop :=
  if addr = votes.2.1 then votes.1 = .regular ∧ votes.2.2 = some v else v = 0

theorem redeemVotes_pays_iff (ho : w ctx.fromAddr = some o)
    (hc : w addr = some c) (hs : c.staked = (true, true)) (v : Int) :
    (∃ w', w.redeemVotes ctx addr = some w' ∧
      w'.balanceAt ctx.fromAddr = w.balanceAt ctx.fromAddr + v) ↔ Refunds o.voting addr v := by
  have hbal : w.balanceAt ctx.fromAddr = o.balance := by rw [balanceAt, ho]; rfl
  unfold redeemVotes Refunds
  simp only [ho]
  by_cases haddr : addr = o.regularAccount.voteAccount
  · rw [if_pos (show addr = o.voting.2.1 from haddr)]
    simp only [if_pos haddr, voting]
    cases hv : o.regularAccount.voteValue with
    | none => simp
    | some u =>
      by_cases hr : o.accountType = .regular
      · have hvalue : o.regularValue = some o.balance := by
          rw [regularValue, if_pos hr, balance, hr]
        simp only [hvalue, hr, true_and, some.injEq]
        -- the account that is redeemed from may be the sender itself
        obtain ⟨c₁, hc₁, hs₁⟩ : ∃ c₁, w.put ctx.fromAddr
            ((o.setBalance (o.balance + u)).setVote 0 0) addr = some c₁ ∧
            c₁.staked = (true, true) := by
          have h := map_put_of_some staked ho
            (p := (o.setBalance (o.balance + u)).setVote 0 0) (by simp [setVote, staked]) addr
          rw [hc, map_some, hs] at h
          exact map_eq_some_iff.mp h
        obtain ⟨w₁, hw₁⟩ := redemptionForAuthorize_of_staked hc₁ hs₁ (some u)
        have hpaid : w₁.balanceAt ctx.fromAddr = o.balance + u := by
          rw [balanceAt_redemptionForAuthorize hw₁, balanceAt, put_self]
          have hset := balance_setBalance o (o.balance + u)
          rw [hr] at hset
          exact hset
        rw [hw₁]
        simp only [some.injEq, exists_eq_left', hpaid, hbal]
        omega
      · have hvalue : o.regularValue = none := by rw [regularValue, if_neg hr]
        simp [hvalue, hr]
  · rw [if_neg (show ¬addr = o.voting.2.1 from haddr)]
    simp only [if_neg haddr, some.injEq, exists_eq_left']
    omega

/-- **What a redemption pays its sender.** -/
theorem redemption_pays_iff
    (hd : decodeAddress ctx.data = some addr) (ho : w ctx.fromAddr = some o) (hc : w addr = some c)
    (hs : c.staked = (true, true)) (v : Int) :
    (∃ w', w.redemption ctx = some w' ∧
      w'.balanceAt ctx.fromAddr = w.balanceAt ctx.fromAddr + v) ↔ Refunds o.voting addr v := by
  obtain ⟨w₁, hw₁, hkept, hbal⟩ : ∃ w₁,
      (if ctx.fromAddr = c.authorizeAccount.owner then w.redemptionForAuthorize addr none
        else some w) = some w₁ ∧ Kept ctx.fromAddr w w₁ ∧
      w₁.balanceAt ctx.fromAddr = w.balanceAt ctx.fromAddr := by
    split
    · obtain ⟨w₁, hw₁⟩ := redemptionForAuthorize_of_staked hc hs none
      exact ⟨w₁, hw₁, kept_redemptionForAuthorize hw₁, balanceAt_redemptionForAuthorize hw₁ _⟩
    · exact ⟨w, rfl, Kept.refl _ w, rfl⟩
  obtain ⟨o₁, ho₁, hvoting⟩ := map_eq_some_iff.mp (hkept.1.trans (congrArg _ ho))
  obtain ⟨c₁, hc₁, hs₁⟩ := map_eq_some_iff.mp ((hkept.2 addr).trans (congrArg _ hc))
  rw [hs] at hs₁
  have hredeem := redeemVotes_pays_iff ho₁ hc₁ hs₁ v
  rw [hvoting, hbal] at hredeem
  rw [← hredeem]
  simp only [redemption, hd, ho, hc, hw₁, bind_some]

/-- Nothing is redeemed from an address without an account. -/
theorem redemption_of_none (hd : decodeAddress ctx.data = some addr)
    (hc : w addr = none) : w.redemption ctx = some w := by
  simp only [redemption, hd, hc]
  cases w ctx.fromAddr <;> rfl

/-! ## 3. What is staked -/

/-- The votes of the owner once the Authorize account is registered.  They are not touched, unless
the new account replaces the owner's. -/
def ownerVotes (X : Externals) (w : World) (ctx : TxContext) : AccountType × Address × Option Int :=
  if ctx.fromAddr = createAddress X ctx.fromAddr ctx.nonce then (newAuthorize ctx).voting
  else ((w ctx.fromAddr).getD (new .regular)).voting

theorem voting_credited (v : Int) (o : Option StateObject) :
    (credited v o).voting = (o.getD (new .regular)).voting := by
  simp [credited, voting]

theorem registerAuthorize_owner (X : Externals) :
    (w.registerAuthorize X ctx ctx.fromAddr).map voting = some (ownerVotes X w ctx) := by
  rw [registerAuthorize, credit, put_self, map_some, voting_credited, ownerVotes]
  split
  next hself =>
    rw [← hself, put_self, getD_some]
  next hself =>
    rw [put_of_ne _ _ hself]

theorem registerAuthorize_staked (X : Externals) :
    (w.registerAuthorize X ctx (createAddress X ctx.fromAddr ctx.nonce)).map staked =
      some (true, true) := by
  obtain ⟨x, hx⟩ := credit_of_some
    (put_self w (createAddress X ctx.fromAddr ctx.nonce) (newAuthorize ctx)) ctx.fromAddr
    (-(ctx.value + AccountType.authorize.pledge))
  rw [registerAuthorize, hx, map_some]
  simp [staked, newAuthorize]

/-- A vote adds to the votes of the sender, whomever they were for. -/
theorem vote_voter (hd : decodeAddress ctx.data = some addr) (hw : w.vote ctx = some w') :
    (w' ctx.fromAddr).map voting =
      let voter := (w ctx.fromAddr).getD (new .regular)
      some (voter.accountType, addr, some (ctx.value + voter.regularAccount.voteValue.getD 0)) := by
  rcases vote_eq_some hw with ⟨hnone, -⟩ | ⟨addr', v, hd', rfl⟩
  · rw [hd] at hnone
    cases hnone
  · cases hd.symm.trans hd'
    rw [map_modify voting (f := (·.setAuthorizeVote v)) fun _ => rfl, castVote, put_self, map_some]
    simp [addVote, setVote, voting, credited]

/-- The candidate has accumulated votes after a vote, if there is one. -/
theorem vote_candidate (hd : decodeAddress ctx.data = some addr) (hw : w.vote ctx = some w') :
    (w' addr).map staked = (w addr).map fun c => (c.authorizeAccount.pledgeValue.isSome, true) := by
  unfold vote at hw
  simp only [hd] at hw
  have hcast : (w.castVote ctx addr addr).map staked =
      if addr = ctx.fromAddr then
        some ((w ctx.fromAddr).getD (new .regular)).staked else (w addr).map staked := by
    split
    next hself =>
      rw [castVote, hself, put_self, map_some]
      simp [addVote, setVote, staked, credited]
    next hself =>
      rw [castVote, put_of_ne _ _ hself]
  cases hc : w.castVote ctx addr addr with
  | none =>
    simp only [hc] at hw
    cases hw
    rw [hc] at hcast
    split at hcast
    · cases hcast
    · have hnone := map_eq_none_iff.mp hcast.symm
      rw [hnone, hc]
      rfl
  | some c =>
    simp only [hc, map_eq_some_iff] at hw
    obtain ⟨prev, hprev, rfl⟩ := hw
    rw [put_self, map_some]
    rw [hc, map_some] at hcast
    have hstaked : (c.setAuthorizeVote (prev + ctx.value)).staked = (c.staked.1, true) := rfl
    have hvote : c.staked.2 = true := by simp [staked, hprev]
    split at hcast
    next hself =>
      cases ho : w ctx.fromAddr with
      | none =>
        -- a sender that the vote created has no accumulated votes
        rw [ho] at hcast
        rw [some.inj hcast] at hvote
        cases hvote
      | some o =>
        rw [ho] at hcast
        rw [hself, ho, hstaked, some.inj hcast]
        rfl
    · obtain ⟨o, ho, hoc⟩ := map_eq_some_iff.mp hcast.symm
      rw [ho, hstaked, ← hoc]
      rfl

/-- The stake of a new Authorize account comes back to its owner: the owner has votes for the new
account's address, from before it was registered, and exactly as many as the stake.  Without such
votes only a stake of nothing comes back. -/
def OwnerRefunded (X : Externals) (w : World) (ctx : TxContext) : Prop :=
  Refunds (ownerVotes X w ctx) (createAddress X ctx.fromAddr ctx.nonce) ctx.value

/-- An owner that has no votes never gets a stake back. -/
theorem not_ownerRefunded (X : Externals) (ho : w ctx.fromAddr = some o)
    (hvotes : o.regularAccount.voteValue.getD 0 = 0) (hstake : ctx.value ≠ 0) :
    ¬OwnerRefunded X w ctx := by
  have hnone : (ownerVotes X w ctx).2.2.getD 0 = 0 := by
    unfold ownerVotes
    split
    · rfl
    · rw [ho]
      exact hvotes
  unfold OwnerRefunded Refunds
  split
  · rintro ⟨-, hvalue⟩
    rw [hvalue, getD_some] at hnone
    omega
  · omega

/-- The votes come back to the voter: there is a candidate with a pledge, and the voter is a Regular
account without other votes.  Without a candidate only a vote of nothing comes back. -/
def VoterRefunded (w : World) (ctx : TxContext) (addr : Address) : Prop :=
  match w addr with
  | some c =>
    c.authorizeAccount.pledgeValue.isSome ∧
    ((w ctx.fromAddr).getD (new .regular)).accountType = .regular ∧
    ((w ctx.fromAddr).getD (new .regular)).regularAccount.voteValue.getD 0 = 0
  | none => ctx.value = 0

/-- A redemption by the owner, after what others did to a world with the new account. -/
theorem owner_redemption_iff {X : Externals} {w₂ : World} {redeem : TxContext}
    (hkept : Kept ctx.fromAddr (w.registerAuthorize X ctx) w₂)
    (hfrom : redeem.fromAddr = ctx.fromAddr)
    (hd : decodeAddress redeem.data = some (createAddress X ctx.fromAddr ctx.nonce)) :
    (∃ w₃, w₂.redemption redeem = some w₃ ∧
      w₃.balanceAt ctx.fromAddr = w₂.balanceAt ctx.fromAddr + ctx.value) ↔
        OwnerRefunded X w ctx := by
  obtain ⟨o, ho, hvoting⟩ := map_eq_some_iff.mp
    (hkept.1.trans (registerAuthorize_owner X))
  obtain ⟨c, hc, hstaked⟩ := map_eq_some_iff.mp
    ((hkept.2 _).trans (registerAuthorize_staked X))
  rw [← hfrom] at ho
  rw [OwnerRefunded, ← hvoting, ← redemption_pays_iff hd ho hc hstaked, hfrom]

/-- A redemption by the voter, after what others did to a world with the vote. -/
theorem voter_redemption_iff {w₁ w₂ : World} {redeem : TxContext}
    (hd : decodeAddress ctx.data = some addr) (hw : w.vote ctx = some w₁)
    (hkept : Kept ctx.fromAddr w₁ w₂) (hfrom : redeem.fromAddr = ctx.fromAddr)
    (hd' : decodeAddress redeem.data = some addr) :
    (∃ w₃, w₂.redemption redeem = some w₃ ∧
      w₃.balanceAt ctx.fromAddr = w₂.balanceAt ctx.fromAddr + ctx.value) ↔
      VoterRefunded w ctx addr := by
  obtain ⟨o, ho, hvoting⟩ := map_eq_some_iff.mp (hkept.1.trans (vote_voter hd hw))
  rw [← hfrom] at ho
  have hcandidate := (hkept.2 addr).trans (vote_candidate hd hw)
  unfold VoterRefunded
  cases hc : w addr with
  | none =>
    rw [hc, map_none, map_eq_none_iff] at hcandidate
    rw [redemption_of_none hd' hcandidate]
    simp only [some.injEq, exists_eq_left']
    omega
  | some c =>
    rw [hc, map_some] at hcandidate
    obtain ⟨c₂, hc₂, hstaked⟩ := map_eq_some_iff.mp hcandidate
    cases hpledge : c.authorizeAccount.pledgeValue.isSome with
    | false =>
      -- striking the votes off dereferences the pledge
      refine iff_of_false ?_ (fun h => Bool.false_ne_true (hpledge.symm.trans h.1))
      rintro ⟨w₃, hw₃, -⟩
      have hreturns := (redemption_isSome w₂ redeem).mp (isSome_of_eq_some hw₃) addr hd' o ho c₂ hc₂
      have hvoted : addr = o.regularAccount.voteAccount := (congrArg (·.2.1) hvoting).symm
      have hsome := (hreturns.1 (.inr hvoted)).1
      have hnone : c₂.authorizeAccount.pledgeValue.isSome = false :=
        (congrArg Prod.fst hstaked).trans hpledge
      rw [hnone] at hsome
      cases hsome
    | true =>
      rw [hpledge] at hstaked
      have hpays := redemption_pays_iff hd' ho hc₂ hstaked ctx.value
      rw [hfrom] at hpays
      rw [hpays, hvoting, Refunds, if_pos rfl]
      simp only [some.injEq, hpledge, true_and]
      refine and_congr_right fun _ => ?_
      omega

end World

/-! ## 4. The database -/

/-- What voters and owners do between a stake and its redemption. -/
inductive StakeStep where
  | vote (ctx : TxContext)
  | redemption (ctx : TxContext)

def StakeStep.sender : StakeStep → Address
  | .vote ctx => ctx.fromAddr
  | .redemption ctx => ctx.fromAddr

def stakeStep (s : StateDB) : StakeStep → Option StateDB
  | .vote ctx => s.vote ctx
  | .redemption ctx => s.redemption ctx

/-- The step is taken by an account other than `party`. -/
def StakeStep.ByOther (party : Address) (s : StateDB) (b : StakeStep) : Prop :=
  b.sender ≠ party ∧ s.world b.sender ≠ none

theorem kept_stakeStep {party : Address} {s s' : StateDB} {b : StakeStep}
    (h : b.ByOther party s) (hs : stakeStep s b = some s') : World.Kept party s.world s'.world := by
  cases b with
  | vote ctx =>
    refine kept_vote h.1 h.2 ?_
    rw [← world_vote, show s.vote ctx = some s' from hs]
    rfl
  | redemption ctx =>
    refine kept_redemption h.1 ?_
    rw [← world_redemption, show s.redemption ctx = some s' from hs]
    rfl

/-- **Whatever others vote and redeem**, the votes of a party stay, and so do the amounts that are
set. -/
theorem kept_stakeRun {party : Address} {steps : List StakeStep} {s s' : StateDB}
    (h : Run.Along stakeStep (StakeStep.ByOther party) steps s)
    (hrun : Run.run stakeStep steps s = some s') : World.Kept party s.world s'.world :=
  Run.run_rel (R := fun s s' => World.Kept party s.world s'.world) (fun _ => World.Kept.refl _ _)
    World.Kept.trans kept_stakeStep h hrun

theorem exists_redemption_iff (s : StateDB) (ctx : TxContext) (P : World → Prop) :
    (∃ s', s.redemption ctx = some s' ∧ P s'.world) ↔
      ∃ w', s.world.redemption ctx = some w' ∧ P w' := by
  rw [← world_redemption]
  cases s.redemption ctx <;> simp

/-- **Exactly when a stake makes the round trip**, for the owner of an Authorize account and for a
voter, whatever others vote and redeem in between. -/
theorem stake_round_trip_iff (X : Externals) (s : StateDB) (stake : TxContext)
    (steps : List StakeStep) (redeem : TxContext) :
    (Run.Along stakeStep (StakeStep.ByOther stake.fromAddr) steps (s.registerAuthorize X stake) →
      ∀ s₂, Run.run stakeStep steps (s.registerAuthorize X stake) = some s₂ →
      redeem.fromAddr = stake.fromAddr →
      decodeAddress redeem.data = some (createAddress X stake.fromAddr stake.nonce) →
      ((∃ s₃, s₂.redemption redeem = some s₃ ∧ s₃.world.balanceAt stake.fromAddr =
          s₂.world.balanceAt stake.fromAddr + stake.value) ↔
        World.OwnerRefunded X s.world stake)) ∧
    (∀ addr, decodeAddress stake.data = some addr → ∀ s₁, s.vote stake = some s₁ →
      Run.Along stakeStep (StakeStep.ByOther stake.fromAddr) steps s₁ →
      ∀ s₂, Run.run stakeStep steps s₁ = some s₂ →
      redeem.fromAddr = stake.fromAddr → decodeAddress redeem.data = some addr →
      ((∃ s₃, s₂.redemption redeem = some s₃ ∧ s₃.world.balanceAt stake.fromAddr =
          s₂.world.balanceAt stake.fromAddr + stake.value) ↔
        World.VoterRefunded s.world stake addr)) := by
  refine ⟨fun hothers s₂ hrun hfrom hd => ?_, fun addr hd s₁ hvote hothers s₂ hrun hfrom hd' => ?_⟩
  · have hkept := kept_stakeRun hothers hrun
    rw [world_registerAuthorize] at hkept
    rw [exists_redemption_iff s₂ redeem fun w => w.balanceAt stake.fromAddr =
      s₂.world.balanceAt stake.fromAddr + stake.value]
    exact owner_redemption_iff hkept hfrom hd
  · have hworld : s.world.vote stake = some s₁.world := by
      rw [← world_vote, hvote]
      rfl
    rw [exists_redemption_iff s₂ redeem fun w => w.balanceAt stake.fromAddr =
      s₂.world.balanceAt stake.fromAddr + stake.value]
    exact voter_redemption_iff hd hworld (kept_stakeRun hothers hrun) hfrom hd'

/-- An Authorize account that only its pledge and the votes for it matter of. -/
def candidate (owner : Address) (pledge vote : Int) : StateObject :=
  { accountType := .authorize,
    authorizeAccount := { owner := owner, pledgeValue := some pledge, voteValue := some vote } }

/-- A Regular account that has voted `v` for `addr`. -/
def voter (balance : Int) (addr : Address) (v : Int) : StateObject :=
  (StateObject.ofBalance balance).setVote addr v

/-- Account `1` registers an Authorize account with a stake of seven. -/
def stakeSeven : TxContext := { fromAddr := 1, toAddr := some 0x102, value := 7, data := [] }

/-- Account `1` votes seven for `6`. -/
def voteSeven : TxContext :=
  { fromAddr := 1, toAddr := some 0x105, value := 7,
    data := Rlp.encodeList (Rlp.encodeString (Address.bytes 6)) }

/-- Account `1` redeems what it has staked with `6`. -/
def redeemSix : TxContext :=
  { fromAddr := 1, toAddr := some 0x107, value := 0,
    data := Rlp.encodeList (Rlp.encodeString (Address.bytes 6)) }

/-- Account `1` has seven votes for the account it is going to register, and account `2` none. -/
def stakers : StateDB :=
  ofAccounts [(1, voter 20000000000000000000 (createAddress plainExternals 1 0) 7),
    (2, .ofBalance 100), (3, .ofBalance 100), (6, candidate 9 50 50)]

/-- A stake of seven and a vote of seven come back, with a vote of account `3` in between. -/
theorem stake_round_trip_votes :
    let others := [StakeStep.vote { voteSeven with fromAddr := 3 }]
    let redeem := { redeemSix with
      data := Rlp.encodeList (Rlp.encodeString (Address.bytes (createAddress plainExternals 1 0))) }
    (∃ s₂ s₃, Run.run stakeStep others (stakers.registerAuthorize plainExternals stakeSeven) =
      some s₂ ∧ s₂.redemption redeem = some s₃ ∧ s₃.world.balanceAt 1 = s₂.world.balanceAt 1 + 7) ∧
    ∃ s₁ s₂ s₃, stakers.vote { voteSeven with fromAddr := 2 } = some s₁ ∧
      Run.run stakeStep others s₁ = some s₂ ∧
      s₂.redemption { redeemSix with fromAddr := 2 } = some s₃ ∧
      s₃.world.balanceAt 2 = s₂.world.balanceAt 2 + 7 := by
  intro others redeem
  have howner := (stake_round_trip_iff plainExternals stakers stakeSeven others redeem).1
  have hvoter :=
    (stake_round_trip_iff plainExternals stakers { voteSeven with fromAddr := 2 } others
    { redeemSix with fromAddr := 2 }).2
  have hregistered : (stakers.registerAuthorize plainExternals stakeSeven).world 3 ≠ none ∧
      (Run.run stakeStep others (stakers.registerAuthorize plainExternals stakeSeven)).isSome := by
    decide +kernel
  have hvoted : (stakers.vote { voteSeven with fromAddr := 2 }).map (fun s₁ =>
      (s₁.world 3).isSome && (Run.run stakeStep others s₁).isSome) = some true := by decide +kernel
  obtain ⟨s₂, hs₂⟩ := isSome_iff_exists.mp hregistered.2
  obtain ⟨t₁, ht₁, hboth⟩ := map_eq_some_iff.mp hvoted
  obtain ⟨hthree, hrun⟩ := Bool.and_eq_true_iff.mp hboth
  obtain ⟨t₂, ht₂⟩ := isSome_iff_exists.mp hrun
  obtain ⟨s₃, hs₃, hpaid⟩ := (howner ⟨⟨by decide, hregistered.1⟩, fun _ _ => trivial⟩ s₂ hs₂ rfl
    (by decide +kernel)).mpr (by unfold World.OwnerRefunded World.Refunds; decide +kernel)
  obtain ⟨t₃, ht₃, hback⟩ := (hvoter 6 (by decide +kernel) t₁ ht₁
    ⟨⟨by decide, isSome_iff_ne_none.mp hthree⟩, fun _ _ => trivial⟩ t₂ ht₂ rfl
      (by decide +kernel)).mpr
    ⟨rfl, rfl, rfl⟩
  exact ⟨⟨s₂, s₃, hs₂, hs₃, hpaid⟩, t₁, t₂, t₃, ht₁, ht₂, ht₃, hback⟩

/-- Whatever the owner redeems, it is not the seven. -/
theorem stakeSeven_not_refunded (X : Externals) {redeem : TxContext} {s₁ s₂ : StateDB}
    (hfrom : redeem.fromAddr = 1) (hd : decodeAddress redeem.data = some (createAddress X 1 0))
    (hs₁ : (ofAccounts [(1, .ofBalance 20000000000000000000)]).registerAuthorize X stakeSeven =
      s₁) (hs₂ : s₁.redemption redeem = some s₂) :
    s₂.world.balanceAt 1 ≠ s₁.world.balanceAt 1 + 7 := by
  intro hpaid
  have hkept : World.Kept stakeSeven.fromAddr (registerAuthorize X
      (ofAccounts [(1, .ofBalance 20000000000000000000)]).world stakeSeven) s₁.world := by
    rw [← hs₁, world_registerAuthorize]
    exact World.Kept.refl _ _
  have hback := (owner_redemption_iff hkept hfrom hd).mp
    ((exists_redemption_iff s₁ redeem fun w => w.balanceAt 1 = s₁.world.balanceAt 1 + 7).mp
      ⟨s₂, hs₂, hpaid⟩)
  exact not_ownerRefunded X (o := .ofBalance 20000000000000000000) rfl rfl (by decide) hback

/-- A stake of seven that its owner does not get back, and a vote of seven that pays ten back,
since the voter had voted three for another candidate before. -/
theorem stakes_without_round_trip :
    (∀ redeem : TxContext, redeem.fromAddr = 1 →
      decodeAddress redeem.data = some (createAddress plainExternals 1 0) → ∀ s₁ s₂,
      (ofAccounts [(1, .ofBalance 20000000000000000000)]).registerAuthorize plainExternals
        stakeSeven = s₁ → s₁.redemption redeem = some s₂ →
      s₂.world.balanceAt 1 ≠ s₁.world.balanceAt 1 + 7) ∧
    ∃ s₁ s₂, (ofAccounts [(1, voter 100 5 3), (5, candidate 9 50 53),
        (6, candidate 9 50 50)]).vote voteSeven = some s₁ ∧
      s₁.redemption redeemSix = some s₂ ∧ s₂.world.balanceAt 1 = s₁.world.balanceAt 1 + 10 :=
  ⟨fun _ hfrom hd _ _ hs₁ hs₂ => stakeSeven_not_refunded plainExternals hfrom hd hs₁ hs₂,
    _, _, rfl, rfl, rfl⟩

end ProbeChain
