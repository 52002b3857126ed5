/-
# Who is voted in and out

The votes about validators in `Snapshot.apply` (`consensus/pob/snapshot.go`).  A header votes on its
`Coinbase`.  A tally counts the votes on every address; when it passes half the number of
validators, the address becomes a validator or stops being one.

Nothing recounts: the tally is kept by changing it together with the votes.  `Inv` says that it is
right all the same, and that nobody has two votes on one address.  What `apply` never asks is
whether the producer of a header IS a validator, so a count of votes is not a count of validators.
`majority_of_validators` needs that from outside.
-/
import ProbeChain.Consensus.Snapshot

namespace ProbeChain

open List Snapshot

namespace Snapshot

/-! ## 1. Counting -/

/-- What `n` votes of one kind leave in the tally. -/
def tallyOf (kind : Bool) (n : Nat) : Option Tally := if n = 0 then none else some ⟨kind, n⟩

def votesOn (votes : List Vote) (a : Address) : Nat := votes.countP fun v => v.address = a

/-- All votes on an address are of the kind that `kind` has for it, and the tally counts them. -/
structure Counted (kind : Address → Bool) (votes : List Vote)
    (tally : Finmap fun _ : Address => Tally) : Prop where
  kind_eq : ∀ v ∈ votes, v.authorize = kind v.address
  lookup_eq : ∀ a, tally.lookup a = tallyOf (kind a) (votesOn votes a)

variable {s : Snapshot} {kind : Address → Bool} {votes : List Vote} {v : Vote} {a : Address}
  {authorize : Bool}

theorem votesOn_cons (v : Vote) (votes : List Vote) (a : Address) :
    votesOn (v :: votes) a = votesOn votes a + if v.address = a then 1 else 0 := by
  simp [votesOn, countP_cons]

theorem Counted.perm {votes' : List Vote} {tally : Finmap fun _ : Address => Tally}
    (h : Counted kind votes tally) (hperm : votes.Perm votes') : Counted kind votes' tally where
  kind_eq := fun v hv => h.kind_eq v (hperm.mem_iff.mpr hv)
  lookup_eq := by
    intro a
    rw [h.lookup_eq a, votesOn, votesOn, hperm.countP_eq]

theorem Counted.nil : Counted kind [] ∅ where
  kind_eq := by simp
  lookup_eq := fun _ => rfl

theorem lookup_uncast {n : Nat} (h : s.tally.lookup a = tallyOf authorize (n + 1)) (c : Address) :
    (s.uncast a authorize).tally.lookup c =
      if c = a then tallyOf authorize n else s.tally.lookup c := by
  rw [tallyOf, if_neg (Nat.succ_ne_zero n)] at h
  unfold uncast
  rw [h]
  dsimp only
  rw [if_neg (not_not_intro rfl)]
  by_cases hc : c = a
  · subst hc
    by_cases hn : n = 0
    · -- the last vote takes the entry with it
      rw [if_neg (by omega), Finmap.lookup_erase, if_pos rfl, tallyOf, if_pos hn]
    · rw [if_pos (by omega), Finmap.lookup_insert, if_pos rfl, tallyOf, if_neg hn]
      simp
  · rw [if_neg hc]
    split
    · exact Finmap.lookup_insert_of_ne _ hc
    · exact Finmap.lookup_erase_ne hc

/-- Taking a counted vote out. -/
theorem Counted.uncast (h : Counted kind (v :: votes) s.tally) :
    Counted kind votes (s.uncast v.address v.authorize).tally where
  kind_eq := fun w hw => h.kind_eq w (mem_cons_of_mem v hw)
  lookup_eq := by
    intro c
    have hkind := h.kind_eq v mem_cons_self
    have hv := h.lookup_eq v.address
    rw [votesOn_cons, if_pos rfl, ← hkind] at hv
    rw [lookup_uncast hv]
    by_cases hc : c = v.address
    · rw [if_pos hc, hc, hkind]
    · rw [if_neg hc, h.lookup_eq c, votesOn_cons, if_neg (Ne.symm hc), Nat.add_zero]

theorem lookup_cast {n : Nat} (hvalid : s.validVote a authorize = true)
    (h : s.tally.lookup a = tallyOf authorize n) (c : Address) :
    (s.cast a authorize).1.tally.lookup c =
      if c = a then tallyOf authorize (n + 1) else s.tally.lookup c := by
  unfold cast
  rw [if_pos hvalid]
  by_cases hc : c = a
  · subst hc
    rw [if_pos rfl, h, tallyOf, tallyOf, if_neg (Nat.succ_ne_zero n), Finmap.lookup_insert]
    by_cases hn : n = 0
    · rw [if_pos hn, hn]
      rfl
    · rw [if_neg hn]
      rfl
  · rw [if_neg hc]
    exact Finmap.lookup_insert_of_ne _ hc

/-- Counting one more vote, of the kind the others on its address are of. -/
theorem Counted.cast (h : Counted kind votes s.tally) (hkind : v.authorize = kind v.address)
    (hvalid : s.validVote v.address v.authorize = true) :
    Counted kind (v :: votes) (s.cast v.address v.authorize).1.tally where
  kind_eq := by
    intro w hw
    rcases mem_cons.mp hw with rfl | hw
    · exact hkind
    · exact h.kind_eq w hw
  lookup_eq := by
    intro c
    have hv := h.lookup_eq v.address
    rw [← hkind] at hv
    rw [lookup_cast hvalid hv, votesOn_cons]
    by_cases hc : c = v.address
    · rw [if_pos hc, if_pos hc.symm, hc, hkind]
    · rw [if_neg hc, if_neg (Ne.symm hc), h.lookup_eq c, Nat.add_zero]

/-- Settling one address: its votes are gone, and the others do not notice. -/
theorem Counted.settle {tally : Finmap fun _ : Address => Tally} {kind' : Address → Bool}
    (h : Counted kind votes tally) (a : Address) (hkind : ∀ c, c ≠ a → kind' c = kind c) :
    Counted kind' (votes.filter fun v => v.address ≠ a) (tally.erase a) where
  kind_eq := by
    intro v hv
    obtain ⟨hv, hne⟩ := mem_filter.mp hv
    rw [h.kind_eq v hv, hkind _ (of_decide_eq_true hne)]
  lookup_eq := by
    intro c
    by_cases hc : c = a
    · have hzero : votesOn (votes.filter fun v => v.address ≠ a) a = 0 := by
        refine countP_eq_zero.mpr fun v hv => ?_
        have hne := of_decide_eq_true (mem_filter.mp hv).2
        simpa using hne
      rw [hc, Finmap.lookup_erase, hzero]
      rfl
    · have hsame : votesOn (votes.filter fun v => v.address ≠ a) c = votesOn votes c := by
        rw [votesOn, votesOn, countP_filter]
        refine countP_congr fun v _ => ?_
        simp only [ne_eq, decide_not, Bool.and_eq_true, decide_eq_true_eq, Bool.not_eq_true',
          decide_eq_false_iff_not, and_iff_left_iff_imp]
        rintro rfl
        exact hc
      rw [Finmap.lookup_erase_ne hc, h.lookup_eq c, hsame, hkind c hc]

/-- Taking out several, one after the other. -/
theorem Counted.foldl_uncast (dropped : List Vote)
    (h : Counted kind (dropped ++ votes) s.tally) :
    Counted kind votes (dropped.foldl (fun s v => s.uncast v.address v.authorize) s).tally := by
  induction dropped generalizing s with
  | nil => exact h
  | cons v dropped ih => exact ih (Counted.uncast h)

theorem uncast_eq (s : Snapshot) (a : Address) (authorize : Bool) :
    s.uncast a authorize = { s with tally := (s.uncast a authorize).tally } := by
  unfold uncast
  split
  · rfl
  · split_ifs <;> rfl

theorem foldl_uncast_eq (dropped : List Vote) (s : Snapshot) :
    ∃ tally, dropped.foldl (fun s v => s.uncast v.address v.authorize) s =
      { s with tally := tally } := by
  induction dropped generalizing s with
  | nil => exact ⟨_, rfl⟩
  | cons v dropped ih =>
    obtain ⟨tally, h⟩ := ih (s.uncast v.address v.authorize)
    refine ⟨tally, ?_⟩
    rw [foldl_cons, h, uncast_eq]

/-! ## 2. The invariant -/

/-- What there is to vote on about `a`: to admit it (`true`), or to remove it. -/
def motion (s : Snapshot) (a : Address) : Bool := (s.validators.lookup a).isNone

/-- The tally is right, and nobody votes twice on one address. -/
structure Inv (s : Snapshot) : Prop where
  counted : Counted s.motion s.votes s.tally
  once : (s.votes.map fun v => (v.signer, v.address)).Nodup

/-- Every vote is by a validator. -/
def VotersInForce (s : Snapshot) : Prop := ∀ v ∈ s.votes, v.signer ∈ s.validators

variable {t : Snapshot} {number : UInt64} {producer coinbase : Address}

theorem validVote_iff : s.validVote a authorize = true ↔ authorize = s.motion a := by
  unfold validVote motion
  cases s.validators.lookup a <;> cases authorize <;> simp

theorem Inv.congr (h : s.Inv) (he : t.electorate = s.electorate) : t.Inv := by
  obtain ⟨hvalidators, hvotes, htally⟩ := electorate_eq_iff.mp he
  constructor
  · unfold motion
    rw [hvalidators, hvotes, htally]
    exact h.counted
  · rw [hvotes]
    exact h.once

theorem VotersInForce.congr (h : s.VotersInForce) (he : t.electorate = s.electorate) :
    t.VotersInForce := by
  obtain ⟨hvalidators, hvotes, -⟩ := electorate_eq_iff.mp he
  unfold VotersInForce
  rw [hvalidators, hvotes]
  exact h

theorem validators_clearVotesAtEpoch (s : Snapshot) (number : UInt64) :
    (s.clearVotesAtEpoch number).validators = s.validators := by
  unfold clearVotesAtEpoch
  split <;> rfl

theorem Inv.clearVotesAtEpoch (h : s.Inv) (number : UInt64) : (s.clearVotesAtEpoch number).Inv := by
  unfold Snapshot.clearVotesAtEpoch
  split
  · exact ⟨Counted.nil, nodup_nil⟩
  · exact h

theorem VotersInForce.clearVotesAtEpoch (h : s.VotersInForce) (number : UInt64) :
    (s.clearVotesAtEpoch number).VotersInForce := by
  unfold Snapshot.clearVotesAtEpoch
  split
  · exact fun v hv => absurd hv not_mem_nil
  · exact h

theorem eraseP_of_first {p : Vote → Bool} {l₁ l₂ : List Vote} (hv : p v = true)
    (hbefore : ∀ w ∈ l₁, (!p w) = true) : (l₁ ++ v :: l₂).eraseP p = l₁ ++ l₂ := by
  rw [eraseP_append_right _ fun w hw => by simpa using hbefore w hw, eraseP_cons_of_pos hv]

/-- There is no vote of the producer's on `coinbase`, or it is taken out of votes and tally. -/
theorem discardVote_cases (s : Snapshot) (producer coinbase : Address) :
    (s.discardVote producer coinbase = s ∧
      ∀ v ∈ s.votes, ¬ (v.signer = producer ∧ v.address = coinbase)) ∨
    ∃ v l₁ l₂, s.votes = l₁ ++ v :: l₂ ∧ v.signer = producer ∧ v.address = coinbase ∧
      s.discardVote producer coinbase =
        { s with votes := l₁ ++ l₂, tally := (s.uncast v.address v.authorize).tally } := by
  unfold discardVote
  dsimp only
  split
  next v hfind =>
    obtain ⟨hv, l₁, l₂, hvotes, hbefore⟩ := find?_eq_some_iff_append.mp hfind
    have hvote := of_decide_eq_true hv
    refine .inr ⟨v, l₁, l₂, hvotes, hvote.1, hvote.2, ?_⟩
    rw [uncast_eq]
    rw [hvotes, eraseP_of_first hv hbefore]
  next hfind =>
    refine .inl ⟨rfl, fun v hv hvote => ?_⟩
    exact absurd (decide_eq_true hvote) (by simpa using find?_eq_none.mp hfind v hv)

theorem validators_discardVote (s : Snapshot) (producer coinbase : Address) :
    (s.discardVote producer coinbase).validators = s.validators := by
  rcases discardVote_cases s producer coinbase with ⟨h, -⟩ | ⟨v, l₁, l₂, -, -, -, h⟩
  · rw [h]
  · rw [h]

theorem Inv.discardVote (h : s.Inv) (producer coinbase : Address) :
    (s.discardVote producer coinbase).Inv ∧
      ∀ v ∈ (s.discardVote producer coinbase).votes,
        ¬ (v.signer = producer ∧ v.address = coinbase) := by
  rcases discardVote_cases s producer coinbase with ⟨heq, hnone⟩ | ⟨v, l₁, l₂, hvotes, hp, hc, heq⟩
  · rw [heq]
    exact ⟨h, hnone⟩
  · rw [heq]
    have hperm : s.votes.Perm (v :: (l₁ ++ l₂)) := hvotes ▸ perm_middle
    have honce := (hperm.map fun v => (v.signer, v.address)).nodup_iff.mp h.once
    rw [map_cons, nodup_cons] at honce
    refine ⟨⟨Counted.uncast (h.counted.perm hperm), honce.2⟩, ?_⟩
    rintro w hw ⟨hwp, hwc⟩
    refine honce.1 (mem_map.mpr ⟨w, hw, ?_⟩)
    rw [hwp, hwc, hp, hc]

theorem VotersInForce.discardVote (h : s.VotersInForce) (producer coinbase : Address) :
    (s.discardVote producer coinbase).VotersInForce := by
  rcases discardVote_cases s producer coinbase with ⟨heq, -⟩ | ⟨v, l₁, l₂, hvotes, -, -, heq⟩
  · rw [heq]
    exact h
  · rw [heq]
    intro w hw
    refine h w ?_
    rw [hvotes]
    rcases mem_append.mp hw with hw | hw
    · exact mem_append_left _ hw
    · exact mem_append_right _ (mem_cons_of_mem v hw)

/-- A vote that asks for a change is noted and counted; any other is not. -/
theorem castVote_cases (s : Snapshot) (number : UInt64) (producer coinbase : Address)
    (authorize : Bool) :
    (s.validVote coinbase authorize = false ∧
      s.castVote number producer coinbase authorize = s) ∨
    (s.validVote coinbase authorize = true ∧
      s.castVote number producer coinbase authorize =
        { s with votes := s.votes ++ [⟨producer, number, coinbase, authorize⟩],
                 tally := (s.cast coinbase authorize).1.tally }) := by
  unfold castVote cast
  cases hvalid : s.validVote coinbase authorize with
  | false => exact .inl ⟨rfl, rfl⟩
  | true => exact .inr ⟨rfl, rfl⟩

theorem validators_castVote (s : Snapshot) (number : UInt64) (producer coinbase : Address)
    (authorize : Bool) :
    (s.castVote number producer coinbase authorize).validators = s.validators := by
  rcases castVote_cases s number producer coinbase authorize with ⟨-, h⟩ | ⟨-, h⟩
  · rw [h]
  · rw [h]

theorem Inv.castVote (h : s.Inv)
    (hfresh : ∀ v ∈ s.votes, ¬ (v.signer = producer ∧ v.address = coinbase)) :
    (s.castVote number producer coinbase authorize).Inv := by
  rcases castVote_cases s number producer coinbase authorize with ⟨-, heq⟩ | ⟨hvalid, heq⟩
  · rw [heq]
    exact h
  · rw [heq]
    let v : Vote := ⟨producer, number, coinbase, authorize⟩
    have hperm : (v :: s.votes).Perm (s.votes ++ [v]) := (perm_append_singleton v s.votes).symm
    constructor
    · exact (h.counted.cast (v := v) (validVote_iff.mp hvalid) hvalid).perm hperm
    · refine (hperm.map fun v => (v.signer, v.address)).nodup_iff.mp ?_
      rw [map_cons, nodup_cons]
      refine ⟨?_, h.once⟩
      intro hmem
      obtain ⟨w, hw, heq⟩ := mem_map.mp hmem
      exact hfresh w hw (Prod.mk.inj heq)

theorem VotersInForce.castVote (h : s.VotersInForce)
    (hproducer : s.validVote coinbase authorize = true → producer ∈ s.validators) :
    (s.castVote number producer coinbase authorize).VotersInForce := by
  rcases castVote_cases s number producer coinbase authorize with ⟨-, heq⟩ | ⟨hvalid, heq⟩
  · rw [heq]
    exact h
  · rw [heq]
    intro v hv
    rcases mem_append.mp hv with hv | hv
    · exact h v hv
    · rw [mem_singleton.mp hv]
      exact hproducer hvalid

/-! ### Settling -/

/-- The votes on `coinbase` are more than half as many as there are validators. -/
def Passes (s : Snapshot) (coinbase : Address) : Prop :=
  s.validatorCount / 2 < votesOn s.votes coinbase

theorem Inv.passes_iff (h : s.Inv) (coinbase : Address) :
    ((s.validatorCount / 2 : Nat) : Int) < ((s.tally.lookup coinbase).getD ⟨false, 0⟩).votes ↔
      s.Passes coinbase := by
  rw [h.counted.lookup_eq coinbase, tallyOf, Passes]
  split
  next hzero =>
    rw [hzero]
    exact Int.ofNat_lt
  next => exact Int.ofNat_lt

/-- A tally that passes is of the kind of the votes. -/
theorem Inv.authorize_eq (h : s.Inv) (hpass : s.Passes coinbase) :
    ((s.tally.lookup coinbase).getD ⟨false, 0⟩).authorize = s.motion coinbase := by
  have hne : votesOn s.votes coinbase ≠ 0 := Nat.ne_of_gt (Nat.zero_lt_of_lt hpass)
  rw [h.counted.lookup_eq coinbase, tallyOf, if_neg hne]
  rfl

theorem dropVotesOf_eq (s : Snapshot) (signer : Address) :
    s.dropVotesOf signer =
      { s with votes := s.votes.filter fun v => v.signer ≠ signer,
               tally := (s.dropVotesOf signer).tally } := by
  obtain ⟨tally, h⟩ := foldl_uncast_eq (s.votes.filter fun v => v.signer = signer) s
  unfold dropVotesOf
  rw [h]

theorem Counted.dropVotesOf (h : Counted kind s.votes s.tally)
    (signer : Address) :
    Counted kind (s.votes.filter fun v => v.signer ≠ signer) (s.dropVotesOf signer).tally := by
  refine Counted.foldl_uncast _ (h.perm ?_)
  simpa using (filter_append_perm (fun v : Vote => v.signer = signer) s.votes).symm

/-- Nothing happens; or `coinbase` was not a validator and becomes one; or it was one, and goes with
its own votes. -/
theorem Inv.settleVote_cases (h : s.Inv) (number : UInt64) (coinbase : Address) :
    s.settleVote number coinbase = s ∨
    (s.Passes coinbase ∧ s.motion coinbase = true ∧ ∃ score,
      (s.settleVote number coinbase).electorate =
        (s.validators.insert coinbase score, s.votes.filter (fun v => v.address ≠ coinbase),
          s.tally.erase coinbase)) ∨
    (s.Passes coinbase ∧ s.motion coinbase = false ∧ ∃ tally,
      Counted s.motion (s.votes.filter fun v => v.signer ≠ coinbase) tally ∧
      (s.settleVote number coinbase).electorate =
        (s.validators.erase coinbase,
          (s.votes.filter fun v => v.signer ≠ coinbase).filter (fun v => v.address ≠ coinbase),
          tally.erase coinbase)) := by
  unfold settleVote
  dsimp only
  split
  next hpass =>
    have hpass := (h.passes_iff coinbase).mp hpass
    rw [h.authorize_eq hpass]
    cases hkind : s.motion coinbase with
    | true => exact .inr (.inl ⟨hpass, rfl, _, rfl⟩)
    | false =>
      -- the recent producers are looked after in between
      let erased : Snapshot := { s with validators := s.validators.erase coinbase
                                        histories := s.histories.erase coinbase }
      obtain ⟨hvalidators, hvotes, htally⟩ :=
        electorate_eq_iff.mp (electorate_deleteOldestRecent erased number)
      have hcounted : Counted s.motion (erased.deleteOldestRecent number).votes
          (erased.deleteOldestRecent number).tally := by
        rw [hvotes, htally]
        exact h.counted
      have hcounted := hcounted.dropVotesOf coinbase
      rw [hvotes] at hcounted
      refine .inr (.inr ⟨hpass, rfl, _, hcounted, ?_⟩)
      rw [if_neg Bool.false_ne_true, dropVotesOf_eq, hvotes]
      show ((erased.deleteOldestRecent number).validators, _, _) = _
      rw [hvalidators]
  next => exact .inl rfl

theorem motion_insert_of_ne {score : BehaviorScore} {c : Address}
    (ht : t.validators = s.validators.insert coinbase score) (hc : c ≠ coinbase) :
    t.motion c = s.motion c := by
  rw [motion, ht, Finmap.lookup_insert_of_ne _ hc, motion]

theorem motion_erase_of_ne {c : Address} (ht : t.validators = s.validators.erase coinbase)
    (hc : c ≠ coinbase) : t.motion c = s.motion c := by
  rw [motion, ht, Finmap.lookup_erase_ne hc, motion]

theorem Inv.settleVote (h : s.Inv) (number : UInt64) (coinbase : Address) :
    (s.settleVote number coinbase).Inv := by
  rcases h.settleVote_cases number coinbase with
    heq | ⟨-, -, score, heq⟩ | ⟨-, -, tally, hcounted, heq⟩
  · rw [heq]
    exact h
  · obtain ⟨hvalidators, hvotes, htally⟩ := Prod.mk.inj heq |>.imp id Prod.mk.inj
    constructor
    · rw [hvotes, htally]
      exact h.counted.settle coinbase fun c hc => motion_insert_of_ne hvalidators hc
    · rw [hvotes]
      exact h.once.sublist (filter_sublist.map _)
  · obtain ⟨hvalidators, hvotes, htally⟩ := Prod.mk.inj heq |>.imp id Prod.mk.inj
    constructor
    · rw [hvotes, htally]
      exact hcounted.settle coinbase fun c hc => motion_erase_of_ne hvalidators hc
    · rw [hvotes]
      exact h.once.sublist ((filter_sublist.trans filter_sublist).map _)

/-- A validator that goes takes its votes along. -/
theorem VotersInForce.settleVote (hvoters : s.VotersInForce) (h : s.Inv) (number : UInt64)
    (coinbase : Address) : (s.settleVote number coinbase).VotersInForce := by
  rcases h.settleVote_cases number coinbase with
    heq | ⟨-, -, score, heq⟩ | ⟨-, -, tally, hcounted, heq⟩
  · rw [heq]
    exact hvoters
  · obtain ⟨hvalidators, hvotes, -⟩ := Prod.mk.inj heq |>.imp id Prod.mk.inj
    intro v hv
    rw [hvotes] at hv
    rw [hvalidators]
    exact Finmap.mem_insert.mpr (.inr (hvoters v (mem_filter.mp hv).1))
  · obtain ⟨hvalidators, hvotes, -⟩ := Prod.mk.inj heq |>.imp id Prod.mk.inj
    intro v hv
    rw [hvotes] at hv
    obtain ⟨hv, hne⟩ := mem_filter.mp (mem_filter.mp hv).1
    rw [hvalidators]
    exact Finmap.mem_erase.mpr ⟨of_decide_eq_true hne, hvoters v hv⟩

/-! ## 3. One header -/

/-- The snapshot when a header's vote is about to be counted: its producer is noted. -/
def opened (s : Snapshot) (header : Header) : Snapshot :=
  let number := UInt64.ofNat header.number
  ((s.clearVotesAtEpoch number).deleteOldestRecent number).trackProducer number header.validatorAddr

/-- The snapshot when the vote has been counted and not yet been settled. -/
def voted (s : Snapshot) (header : Header) : Snapshot :=
  ((s.opened header).discardVote header.validatorAddr header.coinbase).castVote
    (.ofNat header.number) header.validatorAddr header.coinbase (header.nonce = nonceAuthVote)

/-! ### What a vote does not touch -/

/-- Where the snapshot was taken, and the registered nodes. -/
def bystanders (s : Snapshot) :=
  ((s.config, s.number, s.hash), (s.agents, s.agentHistories),
    (s.physicalNodes, s.physicalHistories))

variable (s : Snapshot) (number : UInt64) (producer coinbase : Address)

theorem bystanders_clearVotesAtEpoch : (s.clearVotesAtEpoch number).bystanders = s.bystanders := by
  unfold clearVotesAtEpoch
  split <;> rfl

theorem bystanders_deleteOldestRecent :
    (s.deleteOldestRecent number).bystanders = s.bystanders := by
  unfold deleteOldestRecent
  dsimp only
  split <;> rfl

theorem bystanders_trackProducer : (s.trackProducer number producer).bystanders = s.bystanders := by
  unfold trackProducer
  split
  · dsimp only
    split <;> rfl
  · rfl

theorem bystanders_discardVote : (s.discardVote producer coinbase).bystanders = s.bystanders := by
  rcases discardVote_cases s producer coinbase with ⟨h, -⟩ | ⟨v, l₁, l₂, -, -, -, h⟩
  · rw [h]
  · rw [h]
    rfl

theorem bystanders_castVote (authorize : Bool) :
    (s.castVote number producer coinbase authorize).bystanders = s.bystanders := by
  rcases castVote_cases s number producer coinbase authorize with ⟨-, h⟩ | ⟨-, h⟩
  · rw [h]
  · rw [h]
    rfl

theorem bystanders_settleVote : (s.settleVote number coinbase).bystanders = s.bystanders := by
  unfold settleVote
  dsimp only
  split
  · cases ((s.tally.lookup coinbase).getD ⟨false, 0⟩).authorize with
    | true => rfl
    | false =>
      rw [if_neg Bool.false_ne_true, dropVotesOf_eq]
      exact bystanders_deleteOldestRecent _ number
  · rfl

/-- Up to the registrations of a header. -/
theorem bystanders_settled (header : Header) :
    ((s.voted header).settleVote (.ofNat header.number) header.coinbase).bystanders =
      s.bystanders := by
  rw [bystanders_settleVote, voted, bystanders_castVote, bystanders_discardVote, opened,
    bystanders_trackProducer, bystanders_deleteOldestRecent, bystanders_clearVotesAtEpoch]

/-- The vote of the header, if it asks for a change, is by a validator. -/
def VoteInForce (s : Snapshot) (header : Header) : Prop :=
  s.validVote header.coinbase (header.nonce = nonceAuthVote) = true →
    header.validatorAddr ∈ s.validators

variable {s : Snapshot} {header : Header}

theorem applyHeader_eq (s : Snapshot) (header : Header) :
    s.applyHeader header =
      ((s.voted header).settleVote (.ofNat header.number) header.coinbase).registerAll
        (.ofNat header.number) header := rfl

theorem electorate_opened (s : Snapshot) (header : Header) :
    (s.opened header).electorate = (s.clearVotesAtEpoch (.ofNat header.number)).electorate := by
  unfold opened
  rw [electorate_trackProducer, electorate_deleteOldestRecent]

theorem validators_discarded (s : Snapshot) (header : Header) :
    ((s.opened header).discardVote header.validatorAddr header.coinbase).validators =
      s.validators := by
  rw [validators_discardVote, (electorate_eq_iff.mp (electorate_opened s header)).1,
    validators_clearVotesAtEpoch]

theorem validators_voted (s : Snapshot) (header : Header) :
    (s.voted header).validators = s.validators :=
  (validators_castVote ..).trans (validators_discarded s header)

theorem Inv.voted (h : s.Inv) (header : Header) : (s.voted header).Inv := by
  have hopened := (h.clearVotesAtEpoch (.ofNat header.number)).congr (electorate_opened s header)
  obtain ⟨hdiscarded, hfresh⟩ := hopened.discardVote header.validatorAddr header.coinbase
  exact hdiscarded.castVote hfresh

theorem VotersInForce.voted (h : s.VotersInForce) (hvote : s.VoteInForce header) :
    (s.voted header).VotersInForce := by
  have hopened := (h.clearVotesAtEpoch (.ofNat header.number)).congr (electorate_opened s header)
  refine (hopened.discardVote header.validatorAddr header.coinbase).castVote ?_
  rw [validVote, validators_discarded]
  exact hvote

theorem Inv.applyHeader (h : s.Inv) (header : Header) : (s.applyHeader header).Inv :=
  ((h.voted header).settleVote (.ofNat header.number) header.coinbase).congr
    (electorate_registerAll _ _ header)

theorem VotersInForce.applyHeader (hvoters : s.VotersInForce) (h : s.Inv)
    (hvote : s.VoteInForce header) : (s.applyHeader header).VotersInForce :=
  ((hvoters.voted hvote).settleVote (h.voted header) (.ofNat header.number) header.coinbase).congr
    (electorate_registerAll _ _ header)

/-! ## 4. Majorities -/

/-- The validators that have a vote of this kind on `a`. -/
def backers (validators : Finset Address) (votes : List Vote) (a : Address) (authorize : Bool) :
    Finset Address :=
  validators.filter fun signer =>
    ∃ v ∈ votes, v.signer = signer ∧ v.address = a ∧ v.authorize = authorize

/-- More than half of the validators before the header have a vote of this kind on `a` with it. -/
def Backed (s : Snapshot) (header : Header) (a : Address) (authorize : Bool) : Prop :=
  s.validators.keys.card < 2 * (backers s.validators.keys (s.voted header).votes a authorize).card

instance (s : Snapshot) (header : Header) (a : Address) (authorize : Bool) :
    Decidable (s.Backed header a authorize) := inferInstanceAs (Decidable (_ < _))

/-- Whoever becomes a validator at the header, or stops being one, has a majority for it. -/
def ByMajority (s : Snapshot) (header : Header) : Prop :=
  ∀ a, (a ∉ s.validators → a ∈ (s.applyHeader header).validators → s.Backed header a true) ∧
    (a ∈ s.validators → a ∉ (s.applyHeader header).validators → s.Backed header a false)

theorem validators_applyHeader (s : Snapshot) (header : Header) :
    (s.applyHeader header).validators =
      ((s.voted header).settleVote (.ofNat header.number) header.coinbase).validators :=
  (electorate_eq_iff.mp (electorate_registerAll _ _ header)).1

/-- Only the address voted on can change, and only if the vote passes. -/
theorem Inv.passes_of_change (h : s.Inv)
    (hchange : ¬ (a ∈ (s.applyHeader header).validators ↔ a ∈ s.validators)) :
    a = header.coinbase ∧ (s.voted header).Passes a := by
  rw [validators_applyHeader] at hchange
  rcases (h.voted header).settleVote_cases (.ofNat header.number) header.coinbase with
    heq | ⟨hpass, -, score, heq⟩ | ⟨hpass, -, tally, -, heq⟩
  · rw [heq, validators_voted] at hchange
    exact absurd .rfl hchange
  · have hvalidators := (Prod.mk.inj heq).1
    rw [hvalidators, validators_voted, Finmap.mem_insert] at hchange
    have ha : a = header.coinbase := by
      by_contra hne
      exact hchange (or_iff_right hne)
    exact ⟨ha, ha ▸ hpass⟩
  · have hvalidators := (Prod.mk.inj heq).1
    rw [hvalidators, validators_voted, Finmap.mem_erase] at hchange
    have ha : a = header.coinbase := by
      by_contra hne
      exact hchange (and_iff_right hne)
    exact ⟨ha, ha ▸ hpass⟩

/-- Where only validators have voted, the votes on an address are as many as the validators behind
them. -/
theorem Inv.votesOn_le_backers (h : s.Inv) (hvoters : s.VotersInForce) (a : Address) :
    votesOn s.votes a ≤ (backers s.validators.keys s.votes a (s.motion a)).card := by
  let onA := s.votes.filter fun v => v.address = a
  have hlength : votesOn s.votes a = onA.length := countP_eq_length_filter
  -- nobody is among the signers twice
  have hnodup : (onA.map (·.signer)).Nodup := by
    have honce : (onA.map fun v => (v.signer, v.address)).Nodup :=
      h.once.sublist (filter_sublist.map _)
    refine List.Nodup.of_map (fun signer => (signer, a)) ?_
    rw [map_map]
    refine (map_congr_left fun v hv => ?_) ▸ honce
    have hv : v.address = a := of_decide_eq_true (mem_filter.mp hv).2
    rw [Function.comp_apply, hv]
  rw [hlength, ← length_map (·.signer), ← toFinset_card_of_nodup hnodup]
  refine Finset.card_le_card fun signer hsigner => ?_
  obtain ⟨v, hv, rfl⟩ := mem_map.mp (mem_toFinset.mp hsigner)
  obtain ⟨hv, ha⟩ := mem_filter.mp hv
  have ha : v.address = a := of_decide_eq_true ha
  refine Finset.mem_filter.mpr ⟨Finmap.mem_keys.mpr (hvoters v hv), v, hv, rfl, ha, ?_⟩
  rw [h.counted.kind_eq v hv, ha]

/-- **One header.** -/
theorem Inv.byMajority (h : s.Inv) (hvoters : s.VotersInForce) (hvote : s.VoteInForce header) :
    s.ByMajority header := by
  have hbacked : ∀ a, ¬ (a ∈ (s.applyHeader header).validators ↔ a ∈ s.validators) →
      s.Backed header a (s.motion a) := by
    intro a hchange
    obtain ⟨-, hpass⟩ := h.passes_of_change hchange
    have hle := (h.voted header).votesOn_le_backers (hvoters.voted hvote) a
    rw [motion, validators_voted] at hle
    rw [Passes, validatorCount, validators_voted] at hpass
    rw [Backed, motion]
    omega
  intro a
  constructor
  · intro hout hin
    have hmotion : s.motion a = true := by
      rw [motion, Finmap.lookup_eq_none.mpr hout]
      rfl
    exact hmotion ▸ hbacked a fun hiff => hout (hiff.mp hin)
  · intro hin hout
    have hmotion : s.motion a = false := by
      obtain ⟨score, hscore⟩ := Finmap.mem_iff.mp hin
      rw [motion, hscore]
      rfl
    exact hmotion ▸ hbacked a fun hiff => hout (hiff.mpr hin)

/-! ## 5. Any number of headers -/

/-- Every header that asks for a change is by a validator at that time. -/
def VotesInForce : Snapshot → List Header → Prop
  | _, [] => True
  | s, header :: headers => s.VoteInForce header ∧ VotesInForce (s.applyHeader header) headers

/-- The snapshots that come from `s₀` by applying headers, with votes by validators only. -/
inductive Reached (K : Crypto) (s₀ : Snapshot) : Snapshot → Prop
  | new : Reached K s₀ s₀
  | apply {s t : Snapshot} {headers : List Header} (h : Reached K s₀ s)
      (hvotes : s.VotesInForce headers) (happly : s.apply K headers = .ok t) : Reached K s₀ t

variable {K : Crypto} {headers : List Header}

theorem votesInForce_append {front : List Header}
    (h : s.VotesInForce (front ++ [header])) :
    s.VotesInForce front ∧ (front.foldl applyHeader s).VoteInForce header := by
  induction front generalizing s with
  | nil => exact ⟨trivial, h.1⟩
  | cons first front ih =>
    obtain ⟨hfirst, hrest⟩ := h
    obtain ⟨hfront, hheader⟩ := ih hrest
    exact ⟨⟨hfirst, hfront⟩, hheader⟩

/-- The loop over the headers. -/
theorem Inv.foldl_applyHeader (h : s.Inv) (hvoters : s.VotersInForce)
    (hvotes : s.VotesInForce headers) :
    (headers.foldl Snapshot.applyHeader s).Inv ∧
      (headers.foldl Snapshot.applyHeader s).VotersInForce := by
  induction headers generalizing s with
  | nil => exact ⟨h, hvoters⟩
  | cons header headers ih =>
    exact ih (h.applyHeader header) (hvoters.applyHeader h hvotes.1) hvotes.2

theorem electorate_apply (happly : s.apply K headers = .ok t) :
    t.electorate = (headers.foldl applyHeader s).electorate := by
  unfold apply at happly
  split at happly
  next hnil =>
    rw [getLast?_eq_none_iff.mp hnil, ← Except.ok.inj happly]
    rfl
  next =>
    split_ifs at happly
    rw [← Except.ok.inj happly]
    rfl

theorem inv_newSnapshot (config : PobConfig) (number : UInt64) (hash : Hash)
    (validators : List Address) : (newSnapshot config number hash validators).Inv :=
  ⟨Counted.nil, nodup_nil⟩

theorem Reached.inv {s₀ : Snapshot} (hreached : Reached K s₀ s) (h : s₀.Inv)
    (hvoters : s₀.VotersInForce) : s.Inv ∧ s.VotersInForce := by
  induction hreached with
  | new => exact ⟨h, hvoters⟩
  | apply _ hvotes happly ih =>
    obtain ⟨hinv, hforce⟩ := ih.1.foldl_applyHeader ih.2 hvotes
    exact ⟨hinv.congr (electorate_apply happly), hforce.congr (electorate_apply happly)⟩

/-- **Validators come and go by majorities of the validators**, at every header of every `apply`, as
long as only validators vote.  `front` are the headers that the loop has already applied. -/
theorem majority_of_validators (K : Crypto) {config : PobConfig} {number : UInt64} {hash : Hash}
    {validators : List Address} {s : Snapshot} (front : List Header) {header : Header}
    (hreached : Reached K (newSnapshot config number hash validators) s)
    (hvotes : s.VotesInForce (front ++ [header])) :
    (front.foldl applyHeader s).ByMajority header := by
  obtain ⟨hinv, hvoters⟩ :=
    hreached.inv (inv_newSnapshot config number hash validators) fun v hv => absurd hv not_mem_nil
  obtain ⟨hfront, hheader⟩ := votesInForce_append hvotes
  obtain ⟨hinv, hvoters⟩ := hinv.foldl_applyHeader hvoters hfront
  exact hinv.byMajority hvoters hheader

/-- Address 1 is the only validator. -/
def soleValidator : Snapshot := newSnapshot ⟨30000, 0⟩ 0 0 [1]

/-- The first block, produced by `producer`: a vote for address 2. -/
def admission (producer : Address) : Header :=
  { number := 1, validatorAddr := producer, coinbase := 2, nonce := nonceAuthVote }

/-- Address 2 is voted in by address 1. -/
theorem majority_of_validators_admission :
    (soleValidator.VotesInForce [admission 1] ∧
      (2 : Address) ∈ (soleValidator.applyHeader (admission 1)).validators) ∧
    soleValidator.ByMajority (admission 1) := by
  have hvotes : soleValidator.VotesInForce [admission 1] := ⟨fun _ => by decide +kernel, trivial⟩
  refine ⟨⟨hvotes, by decide +kernel⟩, ?_⟩
  exact majority_of_validators plainCrypto [] Reached.new hvotes

/-- Address 2 votes itself in. -/
theorem outsider_admits_itself : ¬ soleValidator.ByMajority (admission 2) := by
  intro h
  have hin : (2 : Address) ∈ (soleValidator.applyHeader (admission 2)).validators := by
    decide +kernel
  have hout : (2 : Address) ∉ soleValidator.validators := by decide +kernel
  have hbacked : ¬ soleValidator.Backed (admission 2) 2 true := by decide +kernel
  exact hbacked ((h 2).1 hout hin)

end Snapshot

end ProbeChain
