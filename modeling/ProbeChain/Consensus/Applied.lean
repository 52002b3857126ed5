/-
# Snapshots along a chain

What holds in every snapshot that `Snapshot.apply` (`consensus/pob/snapshot.go`) can lead to from a
new one, whatever the headers are and in whatever portions they are applied.

* `tally_exact`: the tally says what a recount of the votes would say.
* `recents_in_window`: the recent producers are those of the last `limit - 1` blocks and of the
  current one.  The limit depends on the number of validators, so a vote that passes moves the far
  end of the window.  One entry per block is deleted, two where a validator goes, and that is
  enough.

The second needs that the number of a block is not taken for that of the genesis block, which is
never applied.
-/
import ProbeChain.Consensus.Election

namespace ProbeChain

open List UInt64 Snapshot

namespace Snapshot

/-! ## 1. Sequences of `apply` -/

/-- The snapshots that come from `s₀` by any sequence of `apply` calls, on headers that meet `P`. -/
inductive Applied (K : Crypto) (P : Header → Prop) (s₀ : Snapshot) : Snapshot → Prop
  | new : Applied K P s₀ s₀
  | apply {s t : Snapshot} {headers : List Header} (h : Applied K P s₀ s)
      (hP : ∀ header ∈ headers, P header)
      (happly : s.apply K headers = .ok t) : Applied K P s₀ t

variable {K : Crypto} {P : Header → Prop} {s t s₀ : Snapshot} {headers : List Header}

/-- **What every header keeps, every snapshot has.** -/
theorem Applied.inv {I : Snapshot → Prop} (h : Applied K P s₀ s) (hnew : I s₀)
    (hheader : ∀ {s : Snapshot} (header : Header), I s → I (s.applyHeader header))
    (hcongr : ∀ {s t : Snapshot}, t.electorate = s.electorate → I s → I t) : I s := by
  induction h with
  | new => exact hnew
  | apply _ _ happly ih =>
    exact hcongr (electorate_apply happly)
      (foldlRecOn _ _ ih fun s hs header _ => hheader header hs)

/-! ### What no header changes -/

/-- The configuration and where the snapshot was taken. -/
def context (s : Snapshot) := (s.config, s.number, s.hash)

variable (s : Snapshot) (number : UInt64)

theorem context_registerAll (header : Header) :
    (s.registerAll number header).context = s.context := by
  unfold registerAll
  split
  · refine foldlRecOn (motive := fun t : Snapshot => t.context = s.context) _ _ rfl
      fun t ht reg _ => ?_
    rw [← ht]
    unfold register
    cases reg.nodeType <;> dsimp only <;> split <;> rfl
  · rfl

theorem context_applyHeader (header : Header) : (s.applyHeader header).context = s.context := by
  rw [applyHeader_eq, context_registerAll]
  exact congrArg Prod.fst (bystanders_settled s header)

theorem context_foldl_applyHeader (headers : List Header) :
    (headers.foldl applyHeader s).context = s.context :=
  foldlRecOn (motive := fun t : Snapshot => t.context = s.context) _ _ rfl
    fun t ht header _ => (context_applyHeader t header).trans ht

/-! ## 2. The tally -/

variable {s : Snapshot} {a : Address}

theorem motion_eq (s : Snapshot) (a : Address) : s.motion a = decide (a ∉ s.validators) := by
  rw [motion, Bool.eq_iff_iff, decide_eq_true_iff, Option.isNone_iff_eq_none, Finmap.lookup_eq_none]

theorem votesOn_pos_iff {votes : List Vote} : 0 < votesOn votes a ↔ ∃ v ∈ votes, v.address = a := by
  rw [votesOn, countP_pos_iff]
  simp only [decide_eq_true_eq]

/-- An entry of the tally is there if there are votes. -/
theorem Inv.mem_tally_iff (h : s.Inv) : a ∈ s.tally ↔ ∃ v ∈ s.votes, v.address = a := by
  rw [← votesOn_pos_iff, ← Finmap.lookup_isSome, h.counted.lookup_eq a, tallyOf]
  split <;> simp <;> omega

theorem Inv.lookup_tally (h : s.Inv) {tally : Tally} (htally : s.tally.lookup a = some tally) :
    tally.votes = votesOn s.votes a ∧ tally.authorize = decide (a ∉ s.validators) := by
  rw [h.counted.lookup_eq a, tallyOf] at htally
  split_ifs at htally
  cases htally
  exact ⟨rfl, motion_eq s a⟩

/-- **The tally is a recount of the votes**, in every snapshot that comes from a new one by `apply`:
it has an entry for the addresses that are voted on, with the number of votes on them; all votes on
an address ask for the one change there is to make about it; and nobody has two votes on one
address. -/
theorem tally_exact (K : Crypto) (config : PobConfig) (number : UInt64) (hash : Hash)
    (validators : List Address) {s : Snapshot}
    (hs : Applied K (fun _ => True) (newSnapshot config number hash validators) s) :
    (∀ a, a ∈ s.tally ↔ ∃ v ∈ s.votes, v.address = a) ∧
    (∀ a tally, s.tally.lookup a = some tally →
      tally.votes = votesOn s.votes a ∧ tally.authorize = decide (a ∉ s.validators)) ∧
    (∀ v ∈ s.votes, v.authorize = decide (v.address ∉ s.validators)) ∧
    s.votes.Pairwise fun v w => ¬ (v.signer = w.signer ∧ v.address = w.address) := by
  have hinv : s.Inv := hs.inv (inv_newSnapshot config number hash validators)
    (fun header h => h.applyHeader header) fun he h => h.congr he
  refine ⟨fun a => hinv.mem_tally_iff, fun a tally h => hinv.lookup_tally h, fun v hv => ?_, ?_⟩
  · rw [hinv.counted.kind_eq v hv, motion_eq]
  · refine (pairwise_map.mp hinv.once).imp fun hne h => ?_
    exact hne (Prod.ext h.1 h.2)

/-- Two validators, and a vote of the first for address 3. -/
def proposal : Header := { number := 1, validatorAddr := 1, coinbase := 3, nonce := nonceAuthVote }

theorem apply_proposal :
    (newSnapshot ⟨30000, 0⟩ 0 0 [1, 2]).apply plainCrypto [proposal] =
      .ok { (newSnapshot ⟨30000, 0⟩ 0 0 [1, 2]).applyHeader proposal with
        number := ((newSnapshot ⟨30000, 0⟩ 0 0 [1, 2]).applyHeader proposal).number + 1
        hash := proposal.hash plainCrypto } := by
  rw [apply_singleton, if_pos (by decide +kernel), if_neg (by decide +kernel)]

theorem tally_exact_proposal :
    ∃ s, Applied plainCrypto (fun _ => True) (newSnapshot ⟨30000, 0⟩ 0 0 [1, 2]) s ∧
      s.tally.lookup 3 = some ⟨true, 1⟩ ∧
      (∀ a, a ∈ s.tally ↔ ∃ v ∈ s.votes, v.address = a) := by
  have hs := Applied.apply (P := fun _ => True) .new (fun _ _ => trivial) apply_proposal
  refine ⟨_, hs, ?_, (tally_exact plainCrypto _ _ _ _ hs).1⟩
  decide +kernel

/-! ## 3. The recent producers -/

/-- How many blocks a producer counts as recent for, its own included. -/
def limit (s : Snapshot) : Nat := s.validatorCount / 2 + 1

/-- At block `number`, the recent blocks are among the last `limit`. -/
def Window (s : Snapshot) (number : UInt64) : Prop :=
  ∀ k ∈ s.recents, (number.toNat : Int) - s.limit < k.toNat ∧ k ≤ number

variable {number : UInt64}

theorem limit_congr (h : t.validators = s.validators) : t.limit = s.limit := by
  rw [limit, validatorCount, h, limit, validatorCount]

theorem Window.congr (h : s.Window number) (hrecents : t.recents = s.recents)
    (hlimit : s.limit ≤ t.limit) :
    t.Window number := by
  intro k hk
  rw [hrecents] at hk
  obtain ⟨hlower, hupper⟩ := h k hk
  exact ⟨by omega, hupper⟩

theorem deleteOldestRecent_eq (s : Snapshot) (number : UInt64) : s.deleteOldestRecent number =
    if ofNat s.limit ≤ number then
      { s with recents := s.recents.erase (number - ofNat s.limit) }
    else s := rfl

theorem recents_deleteOldestRecent {k : UInt64} (hk : k ∈ (s.deleteOldestRecent number).recents) :
    k ∈ s.recents ∧ (k.toNat : Int) ≠ number.toNat - s.limit := by
  -- where the limit is beyond the number, no block is that far back
  have hsmall : (k.toNat : Int) = number.toNat - s.limit → (ofNat s.limit).toNat = s.limit := by
    intro hfar
    have hnumber := number.toNat_lt_size
    exact toNat_ofNat_of_lt' (by omega)
  rw [deleteOldestRecent_eq] at hk
  split_ifs at hk with hle
  · obtain ⟨hne, hk⟩ := Finmap.mem_erase.mp hk
    refine ⟨hk, fun hfar => hne (UInt64.toNat_inj.mp ?_)⟩
    rw [UInt64.toNat_sub_of_le _ _ hle, hsmall hfar]
    omega
  · refine ⟨hk, fun hfar => hle (le_iff_toNat_le.mpr ?_)⟩
    omega

/-- **The far end of the window moves by one.** -/
theorem window_deleteOldestRecent
    (h : ∀ k ∈ s.recents, (number.toNat : Int) - s.limit ≤ k.toNat ∧ k ≤ number) :
    (s.deleteOldestRecent number).Window number := by
  intro k hk
  obtain ⟨hk, hne⟩ := recents_deleteOldestRecent hk
  obtain ⟨hlower, hupper⟩ := h k hk
  rw [limit_congr (electorate_eq_iff.mp (electorate_deleteOldestRecent s number)).1]
  exact ⟨by omega, hupper⟩

theorem Window.trackProducer (h : s.Window number) (producer : Address) :
    (s.trackProducer number producer).Window number := by
  have hlimit := limit_congr (electorate_eq_iff.mp (electorate_trackProducer s number producer)).1
  intro k hk
  rw [hlimit]
  have hk : k = number ∨ k ∈ s.recents := by
    unfold Snapshot.trackProducer at hk
    dsimp only at hk
    split at hk
    · split at hk
      · exact Finmap.mem_insert.mp hk
      · exact Finmap.mem_insert.mp hk
    · exact .inr hk
  rcases hk with rfl | hk
  · exact ⟨by unfold limit; omega, UInt64.le_refl _⟩
  · exact h k hk

/-- A vote does not touch the recent producers. -/
theorem recents_discardVote (s : Snapshot) (producer coinbase : Address) :
    (s.discardVote producer coinbase).recents = s.recents := by
  rcases discardVote_cases s producer coinbase with ⟨h, -⟩ | ⟨v, l₁, l₂, -, -, -, h⟩
  · rw [h]
  · rw [h]

theorem recents_castVote (s : Snapshot) (number : UInt64) (producer coinbase : Address)
    (authorize : Bool) :
    (s.castVote number producer coinbase authorize).recents = s.recents := by
  rcases castVote_cases s number producer coinbase authorize with ⟨-, h⟩ | ⟨-, h⟩
  · rw [h]
  · rw [h]

theorem limit_le_insert {coinbase : Address} {score : BehaviorScore}
    (ht : t.validators = s.validators.insert coinbase score) : s.limit ≤ t.limit := by
  have hcard : s.validatorCount ≤ t.validatorCount := by
    refine Finset.card_le_card fun a ha => ?_
    rw [ht, Finmap.mem_keys]
    exact Finmap.mem_insert.mpr (.inr (Finmap.mem_keys.mp ha))
  unfold limit
  omega

/-- One validator less makes the window at most one block shorter. -/
theorem limit_erase_le {coinbase : Address} (ht : t.validators = s.validators.erase coinbase) :
    s.limit ≤ t.limit + 1 := by
  have hcard : s.validatorCount ≤ t.validatorCount + 1 := by
    rw [validatorCount, validatorCount, ht, Finmap.keys_erase]
    exact Nat.le_succ_of_pred_le Finset.pred_card_le_card_erase
  unfold limit
  omega

theorem Window.settleVote (h : s.Window number) (coinbase : Address) :
    (s.settleVote number coinbase).Window number := by
  unfold Snapshot.settleVote
  dsimp only
  split
  · split
    · exact h.congr rfl (limit_le_insert rfl)
    · let erased : Snapshot := { s with validators := s.validators.erase coinbase
                                        histories := s.histories.erase coinbase }
      have herased : (erased.deleteOldestRecent number).Window number := by
        refine window_deleteOldestRecent fun k hk => ?_
        obtain ⟨hlower, hupper⟩ := h k hk
        have hlimit : s.limit ≤ erased.limit + 1 := limit_erase_le rfl
        exact ⟨by omega, hupper⟩
      refine herased.congr ?_ (le_of_eq (limit_congr ?_).symm)
      · show (dropVotesOf _ _).recents = _
        rw [dropVotesOf_eq]
      · show (dropVotesOf _ _).validators = _
        rw [dropVotesOf_eq]
  · exact h

theorem recents_registerAll (s : Snapshot) (number : UInt64) (header : Header) :
    (s.registerAll number header).recents = s.recents := by
  unfold registerAll
  split
  · refine foldlRecOn (motive := fun t : Snapshot => t.recents = s.recents) _ _ rfl
      fun t ht reg _ => ?_
    rw [← ht]
    unfold register
    cases reg.nodeType <;> dsimp only <;> split <;> rfl
  · rfl

/-- **One header moves the window on by one block.** -/
theorem Window.applyHeader (h : s.Window number) {header : Header}
    (hnext : (ofNat header.number).toNat = number.toNat + 1) :
    (s.applyHeader header).Window (.ofNat header.number) := by
  have hcleared : (s.clearVotesAtEpoch (.ofNat header.number)).recents = s.recents := by
    unfold clearVotesAtEpoch
    split <;> rfl
  have hlimit := limit_congr (validators_clearVotesAtEpoch s (.ofNat header.number))
  have hopened : (s.opened header).Window (.ofNat header.number) := by
    refine Window.trackProducer (window_deleteOldestRecent fun k hk => ?_) _
    rw [hcleared] at hk
    obtain ⟨hlower, hupper⟩ := h k hk
    have hupper := le_iff_toNat_le.mp hupper
    exact ⟨by omega, le_iff_toNat_le.mpr (by omega)⟩
  have hvoted : (s.voted header).Window (.ofNat header.number) := by
    refine hopened.congr ?_ (le_of_eq (limit_congr ?_).symm)
    · unfold voted
      rw [recents_castVote, recents_discardVote]
    · rw [validators_voted, (electorate_eq_iff.mp (electorate_opened s header)).1,
        validators_clearVotesAtEpoch]
  refine (hvoted.settleVote header.coinbase).congr (recents_registerAll ..)
    (le_of_eq (limit_congr ?_).symm)
  exact (electorate_eq_iff.mp (electorate_registerAll _ _ header)).1

/-! ### Any number of headers -/

/-- Not the number of the genesis block. -/
def NotGenesis (header : Header) : Prop := ofNat header.number ≠ 0

theorem toNat_succ_of_ne_zero {m n : UInt64} (h : m = n + 1) (hne : m ≠ 0) :
    m.toNat = n.toNat + 1 := by
  have hm : m.toNat ≠ 0 := fun h0 => hne (UInt64.toNat_inj.mp h0)
  have hadd : m.toNat = (n.toNat + 1) % 2 ^ 64 := by rw [h, UInt64.toNat_add]; rfl
  have hn := n.toNat_lt
  omega

/-- The loop over the headers ends at the number of the last one. -/
theorem Window.foldl_applyHeader {s : Snapshot} {number : UInt64} (h : s.Window number)
    (hcontiguous : contiguous number headers = true)
    (hheaders : ∀ header ∈ headers, NotGenesis header) :
    (headers.foldl Snapshot.applyHeader s).Window (number + .ofNat headers.length) := by
  induction headers generalizing s number with
  | nil => exact (UInt64.add_zero number).symm ▸ h
  | cons header headers ih =>
    rw [contiguous, Bool.and_eq_true, decide_eq_true_eq] at hcontiguous
    obtain ⟨hnext, hcontiguous⟩ := hcontiguous
    have hnumber := toNat_succ_of_ne_zero hnext (hheaders header mem_cons_self)
    have hrest := ih (h.applyHeader hnumber) hcontiguous fun g hg =>
      hheaders g (mem_cons_of_mem _ hg)
    have hlength : number + ofNat (header :: headers).length =
        ofNat header.number + ofNat headers.length := by
      rw [hnext, length_cons, UInt64.ofNat_add, UInt64.add_assoc,
        UInt64.add_comm (UInt64.ofNat _) (UInt64.ofNat 1)]
      rfl
    rw [hlength, foldl_cons]
    exact hrest

/-- What a successful `apply` on some headers returns. -/
theorem apply_eq_ok (hne : headers ≠ []) : s.apply K headers = .ok t ↔
    contiguous s.number headers = true ∧ s.config.epoch ≠ 0 ∧
      t = { headers.foldl applyHeader s with
        number := s.number + .ofNat headers.length, hash := (headers.getLast hne).hash K } := by
  have hnumber : (headers.foldl applyHeader s).number = s.number :=
    congrArg (·.2.1) (context_foldl_applyHeader s headers)
  unfold apply
  rw [getLast?_eq_some_getLast hne]
  dsimp only
  split_ifs with hcontiguous hepoch
  · simp [hcontiguous]
  · simp [hepoch]
  · rw [hnumber, Except.ok.injEq]
    simp [hcontiguous, hepoch, eq_comm]

/-- **`apply` moves the window on to its new number.** -/
theorem Window.apply (h : s.Window s.number) (hheaders : ∀ header ∈ headers, NotGenesis header)
    (happly : s.apply K headers = .ok t) : t.Window t.number := by
  by_cases hne : headers = []
  · subst hne
    cases happly
    exact h
  · obtain ⟨hcontiguous, -, rfl⟩ := (apply_eq_ok hne).mp happly
    exact h.foldl_applyHeader hcontiguous hheaders

/-- **The recent producers are within the limit**, in every snapshot that comes from a new one by
`apply`, whoever is voted in and out on the way.  The genesis header is never applied: a snapshot is
made for it. -/
theorem recents_in_window (K : Crypto) (config : PobConfig) (number : UInt64) (hash : Hash)
    (validators : List Address) {s : Snapshot}
    (hs : Applied K NotGenesis (newSnapshot config number hash validators) s) :
    ∀ k ∈ s.recents, (s.number.toNat : Int) - (s.validatorCount / 2 + 1 : Nat) < k.toNat ∧
    k ≤ s.number := by
  have hwindow : s.Window s.number := by
    induction hs with
    | new => exact fun k hk => absurd hk (Finmap.notMem_empty)
    | apply _ hheaders happly ih => exact ih.apply hheaders happly
  exact hwindow

theorem recents_in_window_proposal :
    ∃ s, Applied plainCrypto NotGenesis (newSnapshot ⟨30000, 0⟩ 0 0 [1, 2]) s ∧
    (1 : UInt64) ∈ s.recents ∧
      ∀ k ∈ s.recents, (s.number.toNat : Int) - (s.validatorCount / 2 + 1 : Nat) < k.toNat ∧
      k ≤ s.number := by
  have hproposal : NotGenesis proposal := by
    unfold NotGenesis
    decide
  have hs := Applied.apply .new (forall_mem_singleton.mpr hproposal) apply_proposal
  refine ⟨_, hs, ?_, recents_in_window plainCrypto _ _ _ _ hs⟩
  decide +kernel

end Snapshot

end ProbeChain
