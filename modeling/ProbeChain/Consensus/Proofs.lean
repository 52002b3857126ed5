/-
# What is paid for behavior proofs

`accumulateRewards` pays for every behavior proof of a header and for every uncle of its block.
When a block is imported, an uncle has to name a header that exists, and nothing is asked of a
header proof: one accepted block can pay a made-up proof 67 times (`proof_paid_again`).

It is the PRODUCER that looks for what has been paid, in `GetLatestBehaviorProof` and
`GetUncleBehaviorProofs` of `core/blockchain.go`, and it looks at the last few blocks only.  That is
enough.  The pool keeps an answer under the number of the block it is for, the two functions take
answers from where they have looked, and a block pays for answers of numbers below its own: whoever
has paid for an answer is among the blocks they have looked at.  But it is only the number that they
go by.  So a chain whose blocks are all made like that pays for no proof twice if and only if no id
comes with two numbers (`paid_once_iff`).
-/
import ProbeChain.Consensus.ForkChoice

namespace ProbeChain

open List UInt64

/-! ## 1. The payments of a block -/

/-- `Id` -/
def BehaviorProof.id (p : BehaviorProof) : Hash := p.mixDigest

/-- A call of `AddBalance`, and the proof it is made for, if any. -/
structure RewardCall where
  proof : Option BehaviorProof
  addr : Address
  amount : Int

namespace ExtBlock

/-- The calls that `accumulateRewards` makes for a block. -/
def rewardCalls (b : ExtBlock) : List RewardCall :=
  ⟨none, b.header.validatorAddr, blockRewardPobValidator⟩ ::
    (b.header.behaviorProofs.map (fun answer => ⟨some answer, answer.miner, blockRewardPowMiner⟩) ++
      b.behaviorProofUncles.map fun answer => ⟨some answer, answer.miner, blockRewardPowMinerUncle⟩)

/-- **`accumulateRewards` makes these calls**, and does nothing else. -/
theorem accumulateRewards_eq (s : StateDB) (b : ExtBlock) :
    accumulateRewards s b.header b.behaviorProofUncles =
      s.payAll (b.rewardCalls.map fun c => (c.addr, c.amount)) := by
  rw [accumulateRewards_eq_payAll, rewardPayments, rewardCalls, map_cons, map_append,
    map_map, map_map]
  rfl

/-- How many proofs are paid with an amount. -/
def paidWith (b : ExtBlock) (amount : Int) : Nat :=
  b.rewardCalls.countP fun c => c.proof.isSome ∧ c.amount = amount

theorem paidWith_miner (b : ExtBlock) :
    b.paidWith blockRewardPowMiner = b.header.behaviorProofs.length := by
  simp [paidWith, rewardCalls, countP_map, Function.comp_def, blockRewardPowMiner,
    blockRewardPowMinerUncle]

theorem paidWith_uncle (b : ExtBlock) :
    b.paidWith blockRewardPowMinerUncle = b.behaviorProofUncles.length := by
  simp [paidWith, rewardCalls, countP_map, Function.comp_def, blockRewardPowMiner,
    blockRewardPowMinerUncle]

/-- The proofs of a block, in the order in which they are paid. -/
def proofs (b : ExtBlock) : List BehaviorProof := b.header.behaviorProofs ++ b.behaviorProofUncles

def paidIds (b : ExtBlock) : List Hash := b.proofs.map (·.id)

theorem filterMap_rewardCalls (b : ExtBlock) : b.rewardCalls.filterMap (·.proof) = b.proofs := by
  simp [rewardCalls, proofs, filterMap_map]

end ExtBlock

/-! ## 2. The pool of the answers -/

inductive PowAnswerStatus where
  | uncheck
  | legal
  | illegal
  deriving DecidableEq

/-- The answers are kept by the numbers of their blocks. -/
structure BehaviorProofPool where
  check : Hash → PowAnswerStatus
  powAnswerMap : UInt64 → List BehaviorProof
  stored : ∀ num, ∀ answer ∈ powAnswerMap num, ofNat answer.number = num

def maxHeightMinerPowCount : Nat := 64

def maxUncleBehaviorProof : UInt64 := 5

namespace BehaviorProofPool

/-- The loop of `contain`, which counts the answers of one miner up to the one it looks at. -/
def containLoop (powAnswer : BehaviorProof) : Nat → List BehaviorProof → Bool
  | _, [] => false
  | count, answer :: powAnswers =>
    let count := if powAnswer.miner = answer.miner then count + 1 else count
    if count > maxHeightMinerPowCount ∨ powAnswer.mixDigest = answer.mixDigest then true
    else containLoop powAnswer count powAnswers

def contain (pool : BehaviorProofPool) (powAnswer : BehaviorProof) : Bool :=
  containLoop powAnswer 0 (pool.powAnswerMap (ofNat powAnswer.number))

def add (pool : BehaviorProofPool) (powAnswer : BehaviorProof) : BehaviorProofPool :=
  if pool.contain powAnswer then pool
  else
    let number := ofNat powAnswer.number
    { pool with
      powAnswerMap :=
        Function.update pool.powAnswerMap number (pool.powAnswerMap number ++ [powAnswer])
      stored := by
        intro num answer hanswer
        by_cases hnum : num = number
        · rw [hnum, Function.update_self] at hanswer
          rcases mem_append.mp hanswer with hold | hnew
          · rw [hnum]
            exact pool.stored number answer hold
          · rw [mem_singleton.mp hnew, hnum]
        · rw [Function.update_of_ne hnum] at hanswer
          exact pool.stored num answer hanswer }

/-- `GetBehaviorProofs`.  `List` picks out the answers for a hash, and returns all of the number. -/
def getBehaviorProofs (pool : BehaviorProofPool) (number : UInt64) : List BehaviorProof :=
  (pool.powAnswerMap number).filter (pool.check ·.id = .legal)

theorem number_of_mem {pool : BehaviorProofPool} {number : UInt64} {p : BehaviorProof}
    (h : p ∈ pool.getBehaviorProofs number) : ofNat p.number = number :=
  pool.stored number p (mem_of_mem_filter h)

end BehaviorProofPool

/-! ## 3. What the producer selects

The two functions walk from the parent to its parent and so on.  Here they get the blocks that they
find on their way, down to the genesis block. -/

/-- `NumberU64` -/
def ExtBlock.numberU64 (b : ExtBlock) : UInt64 := ofNat b.header.number

section
variable (pool : BehaviorProofPool)

/-- The ids of the blocks after a number.  Without a block of this number there is a nil one in the
end, which panics. -/
def usedAfter (number : UInt64) : List ExtBlock → Option (List Hash)
  | [] => none
  | block :: ancestors =>
    if block.numberU64 = number then some []
    else (usedAfter number ancestors).map (block.paidIds ++ ·)

def getLatestBehaviorProof (ancestors : List ExtBlock) (number : UInt64) :
    Option (Option BehaviorProof) :=
  match pool.getBehaviorProofs number with
  | [] => some none
  | ans => (usedAfter number ancestors).map fun used => ans.find? (·.mixDigest ∉ used)

/-- The first loop: the ids in use, and the answers for the blocks before the real parent.  A block
without a parent panics, unless it is the first. -/
def collectUncles (number : UInt64) : List ExtBlock → Option (List Hash × List BehaviorProof)
  | [] => some ([], [])
  | curBlock :: ancestors =>
    let ans := if curBlock.numberU64 < number then pool.getBehaviorProofs curBlock.numberU64 else []
    if curBlock.numberU64 = 0 then some (curBlock.paidIds, ans)
    else
      match ancestors with
      | [] => none
      | uncle :: _ =>
        if number > uncle.numberU64 ∧ number - uncle.numberU64 > maxUncleBehaviorProof then
          some (curBlock.paidIds, ans)
        else (collectUncles number ancestors).map fun p => (curBlock.paidIds ++ p.1, ans ++ p.2)

/-- The second loop takes what is not in use, up to a number. -/
def takeUnused : Nat → List Hash → List BehaviorProof → List BehaviorProof
  | 0, _, _ => []
  | _, _, [] => []
  | k + 1, used, answer :: ans =>
    if answer.mixDigest ∈ used then takeUnused (k + 1) used ans
    else answer :: takeUnused k (answer.mixDigest :: used) ans

def getUncleBehaviorProofs (number : UInt64) (powUsed : List BehaviorProof)
    (ancestors : List ExtBlock) : Option (List BehaviorProof) :=
  (collectUncles pool number ancestors).map fun p =>
    takeUnused 64 (powUsed.map (·.id) ++ p.1) p.2

/-- `validatorCommitNewWork`: the proofs and the uncles of the block on `ancestors`, which has none
if it is visual. -/
def selectProofs (ancestors : List ExtBlock) (effect : Bool) :
    Option (List BehaviorProof × List BehaviorProof) := do
  let realParent ← ancestors.find? (!·.header.isVisual)
  let answers ← getLatestBehaviorProof pool ancestors realParent.numberU64
  let behaviorProofs := answers.toList
  let powAnswerUncles ← (if effect then
      getUncleBehaviorProofs pool realParent.numberU64 behaviorProofs ancestors
    else some [])
  return (behaviorProofs, powAnswerUncles)

end

/-! ## 4. What the selection keeps apart

Going back from the parent, both functions have seen every block that is later than the answer they
take: the first goes back to the number of its answers, and the second takes an answer on its way.
The numbers go down along a chain, so that none is missed. -/

/-- The numbers go down. -/
abbrev Descending (l : List ExtBlock) : Prop := l.Pairwise fun b c => c.numberU64 < b.numberU64

/-- All blocks after the number have been looked at. -/
theorem mem_usedAfter {number : UInt64} {l : List ExtBlock} {used : List Hash} (hl : Descending l)
    (h : usedAfter number l = some used) {c : ExtBlock} (hc : c ∈ l) (hlt : number < c.numberU64) :
    c.paidIds ⊆ used := by
  induction l generalizing used with
  | nil => cases hc
  | cons block l ih =>
    obtain ⟨hblock, hl⟩ := pairwise_cons.mp hl
    rw [usedAfter] at h
    split at h
    next heq =>
      rcases mem_cons.mp hc with rfl | hc
      · exact absurd (heq ▸ hlt) (UInt64.lt_irrefl _)
      · exact absurd (UInt64.lt_trans hlt (heq ▸ hblock c hc)) (UInt64.lt_irrefl _)
    next =>
      obtain ⟨rest, hrest, rfl⟩ := Option.map_eq_some_iff.mp h
      rcases mem_cons.mp hc with rfl | hc
      · exact subset_append_left _ _
      · exact subset_append_of_subset_right _ (ih hl hrest hc)

/-- An answer is for a number below that of the real parent, and all blocks after its own number
have been looked at: it has been taken from the pool for the last of them. -/
theorem mem_collectUncles {pool : BehaviorProofPool} {number : UInt64} {l : List ExtBlock}
    {used : List Hash} {ans : List BehaviorProof} (hl : Descending l)
    (h : collectUncles pool number l = some (used, ans)) {p : BehaviorProof} (hp : p ∈ ans) :
    ofNat p.number < number ∧ ∀ c ∈ l, ofNat p.number < c.numberU64 → c.paidIds ⊆ used := by
  induction l generalizing used ans with
  | nil =>
    cases h
    cases hp
  | cons block l ih =>
    obtain ⟨hblock, hl⟩ := pairwise_cons.mp hl
    -- an answer for the block itself: no block of the list comes after it
    have hown (used : List Hash) (hp : p ∈ if block.numberU64 < number then
        pool.getBehaviorProofs block.numberU64 else []) : ofNat p.number < number ∧
        ∀ c ∈ block :: l, ofNat p.number < c.numberU64 → c.paidIds ⊆ used := by
      split at hp
      next hlt =>
        rw [BehaviorProofPool.number_of_mem hp]
        refine ⟨hlt, fun c hc hafter => ?_⟩
        rcases mem_cons.mp hc with rfl | hc
        · exact absurd hafter (UInt64.lt_irrefl _)
        · exact absurd (UInt64.lt_trans hafter (hblock c hc)) (UInt64.lt_irrefl _)
      next => cases hp
    have hstop (h : some (block.paidIds, if block.numberU64 < number then
        pool.getBehaviorProofs block.numberU64 else []) = some (used, ans)) :
        ofNat p.number < number ∧ ∀ c ∈ block :: l, ofNat p.number < c.numberU64 →
          c.paidIds ⊆ used := by
      obtain ⟨-, rfl⟩ := Prod.mk.inj (Option.some.inj h)
      exact hown used hp
    rw [collectUncles.eq_def] at h
    dsimp only at h
    split at h
    next => exact hstop h
    next =>
      split at h
      next => cases h
      next uncle rest =>
        split at h
        next => exact hstop h
        next =>
          obtain ⟨⟨used', ans'⟩, hrest, heq⟩ := Option.map_eq_some_iff.mp h
          obtain ⟨rfl, rfl⟩ := Prod.mk.inj heq
          rcases mem_append.mp hp with hp | hp
          · exact hown _ hp
          · obtain ⟨hlt, hseen⟩ := ih hl hrest hp
            refine ⟨hlt, fun c hc hafter => ?_⟩
            rcases mem_cons.mp hc with rfl | hc
            · exact subset_append_left _ _
            · exact subset_append_of_subset_right _ (hseen c hc hafter)

theorem takeUnused_spec (k : Nat) (used : List Hash) (ans : List BehaviorProof) :
    (takeUnused k used ans).length ≤ k ∧ ((takeUnused k used ans).map (·.id)).Nodup ∧
      ∀ p ∈ takeUnused k used ans, p ∈ ans ∧ p.id ∉ used := by
  fun_induction takeUnused with
  | case1 => exact ⟨le_refl _, nodup_nil, fun _ h => absurd h not_mem_nil⟩
  | case2 => exact ⟨Nat.zero_le _, nodup_nil, fun _ h => absurd h not_mem_nil⟩
  | case3 k used answer ans hused ih =>
    exact ⟨ih.1, ih.2.1, fun p hp => ⟨mem_cons_of_mem _ (ih.2.2 p hp).1, (ih.2.2 p hp).2⟩⟩
  | case4 k used answer ans hunused ih =>
    obtain ⟨hlen, hnodup, hmem⟩ := ih
    refine ⟨Nat.succ_le_succ hlen, ?_, fun p hp => ?_⟩
    · rw [map_cons, nodup_cons]
      refine ⟨fun hmem' => ?_, hnodup⟩
      obtain ⟨p, hp, hid⟩ := mem_map.mp hmem'
      exact (hmem p hp).2 (mem_cons.mpr (.inl hid))
    · rcases mem_cons.mp hp with rfl | hp
      · exact ⟨mem_cons_self, hunused⟩
      · exact ⟨mem_cons_of_mem _ (hmem p hp).1, fun h => (hmem p hp).2 (mem_cons_of_mem _ h)⟩

/-- A proof is `Unpaid` if its number is that of a block, and no block after that has its id. -/
def Unpaid (ancestors : List ExtBlock) (p : BehaviorProof) : Prop :=
  (∃ a ∈ ancestors, ofNat p.number ≤ a.numberU64) ∧
    ∀ c ∈ ancestors, ofNat p.number < c.numberU64 → p.id ∉ c.paidIds

theorem getLatestBehaviorProof_spec {pool : BehaviorProofPool} {ancestors : List ExtBlock}
    (hl : Descending ancestors) {real : ExtBlock} (hreal : real ∈ ancestors) {p : BehaviorProof}
    (h : getLatestBehaviorProof pool ancestors real.numberU64 = some (some p)) :
    Unpaid ancestors p := by
  unfold getLatestBehaviorProof at h
  split at h
  next => cases h
  next =>
    obtain ⟨used, hused, hfind⟩ := Option.map_eq_some_iff.mp h
    have hnumber := BehaviorProofPool.number_of_mem (mem_of_find?_eq_some hfind)
    have hunused : p.mixDigest ∉ used := by simpa using find?_some hfind
    refine ⟨⟨real, hreal, hnumber ▸ UInt64.le_refl _⟩, fun c hc hlt hid => hunused ?_⟩
    exact mem_usedAfter hl hused hc (hnumber ▸ hlt) hid

theorem getUncleBehaviorProofs_spec {pool : BehaviorProofPool} {ancestors : List ExtBlock}
    (hl : Descending ancestors) {real : ExtBlock} (hreal : real ∈ ancestors)
    {powUsed uncles : List BehaviorProof}
    (h : getUncleBehaviorProofs pool real.numberU64 powUsed ancestors = some uncles) :
    uncles.length ≤ 64 ∧ (uncles.map (·.id)).Nodup ∧
      ∀ p ∈ uncles, p.id ∉ powUsed.map (·.id) ∧ Unpaid ancestors p := by
  obtain ⟨⟨used, ans⟩, hcollect, rfl⟩ := Option.map_eq_some_iff.mp h
  obtain ⟨hlen, hnodup, hmem⟩ := takeUnused_spec 64 (powUsed.map (·.id) ++ used) ans
  refine ⟨hlen, hnodup, fun p hp => ?_⟩
  obtain ⟨hans, hunused⟩ := hmem p hp
  obtain ⟨hlt, hseen⟩ := mem_collectUncles hl hcollect hans
  refine ⟨fun h => hunused (mem_append_left _ h), ⟨real, hreal, UInt64.le_of_lt hlt⟩, ?_⟩
  exact fun c hc hafter hid => hunused (mem_append_right _ (hseen c hc hafter hid))

/-- **What the producer selects**: one proof, 64 uncles, no id twice, and nothing that a block after
its number has paid. -/
theorem selectProofs_spec {pool : BehaviorProofPool} {ancestors : List ExtBlock} {effect : Bool}
    (hl : Descending ancestors) {b : ExtBlock} (h : selectProofs pool ancestors effect =
      some (b.header.behaviorProofs, b.behaviorProofUncles)) :
    b.header.behaviorProofs.length ≤ 1 ∧ b.behaviorProofUncles.length ≤ 64 ∧ b.paidIds.Nodup ∧
      ∀ p ∈ b.proofs, Unpaid ancestors p := by
  unfold selectProofs at h
  obtain ⟨real, hfind, h⟩ := Option.bind_eq_some_iff.mp h
  obtain ⟨answers, hanswers, h⟩ := Option.bind_eq_some_iff.mp h
  obtain ⟨uncles, huncles, h⟩ := Option.bind_eq_some_iff.mp h
  obtain ⟨hproofs, rfl⟩ := Prod.mk.inj (Option.some.inj h)
  have hreal := mem_of_find?_eq_some hfind
  have hlatest : ∀ p ∈ b.header.behaviorProofs, Unpaid ancestors p := by
    intro p hp
    rw [← hproofs] at hp
    rw [Option.mem_toList.mp hp] at hanswers
    exact getLatestBehaviorProof_spec hl hreal hanswers
  have hone : b.header.behaviorProofs.length ≤ 1 := by
    rw [← hproofs]
    exact Option.length_toList_le
  have huncles : b.behaviorProofUncles.length ≤ 64 ∧ (b.behaviorProofUncles.map (·.id)).Nodup ∧
      ∀ p ∈ b.behaviorProofUncles, p.id ∉ b.header.behaviorProofs.map (·.id) ∧
      Unpaid ancestors p := by
    rw [hproofs] at huncles
    split at huncles
    · exact getUncleBehaviorProofs_spec hl hreal huncles
    · rw [← Option.some.inj huncles]
      exact ⟨Nat.zero_le _, nodup_nil, fun _ h => absurd h not_mem_nil⟩
  refine ⟨hone, huncles.1, ?_, fun p hp => ?_⟩
  · rw [ExtBlock.paidIds, ExtBlock.proofs, map_append, nodup_append]
    refine ⟨?_, huncles.2.1, ?_⟩
    · rw [← hproofs]
      cases answers <;> simp
    · rintro id hid _ huncle rfl
      obtain ⟨p, hp, hpid⟩ := mem_map.mp huncle
      exact (huncles.2.2 p hp).1 (hpid ▸ hid)
  · rcases mem_append.mp hp with hp | hp
    · exact hlatest p hp
    · exact (huncles.2.2 p hp).2

/-! ## 5. Chains of accepted blocks

By induction from the genesis block on.  The proofs of the last block are unpaid, and a block before
it that has paid an id is a later one than the number that comes with the id. -/

/-- The accepted blocks on a genesis block, the last one first.  They are less than `2^64`, and so
are their numbers. -/
structure AcceptedChain (K : Crypto) (config : ChainConfig) (T : TrieHasher) where
  genesis : ExtBlock
  imports : List (Import K config)
  accepted : ∀ e ∈ imports, e.Accepted T
  linked : (imports.map (·.block) ++ [genesis]).IsChain fun b parent =>
    b.header.parentHash = parent.header.hash K ∧ b.header.number = parent.header.number + 1
  genesis_number : genesis.header.number = 0
  length_lt : imports.length < 2 ^ 64

/-- The producer of each block has selected its proofs, from the pool it had at the time. -/
def AllSelected (genesis : ExtBlock) : List ExtBlock → Prop
  | [] => True
  | b :: bs => (∃ pool effect, selectProofs pool (bs ++ [genesis]) effect =
      some (b.header.behaviorProofs, b.behaviorProofUncles)) ∧ AllSelected genesis bs

/-- An id belongs to one number. -/
def OneNumber (ps : List BehaviorProof) : Prop :=
  ∀ p ∈ ps, ∀ q ∈ ps, p.id = q.id → ofNat p.number = ofNat q.number

/-- **From one block to a chain.**  What an ancestor has paid under the id of a proof has the number
of the proof, which is below that of the ancestor: the producer has looked there. -/
theorem nodup_of_allSelected {genesis : ExtBlock} : ∀ {bs : List ExtBlock},
    Descending (bs ++ [genesis]) → AllSelected genesis bs → OneNumber (bs.flatMap ExtBlock.proofs) →
      ((bs.flatMap ExtBlock.proofs).map (·.id)).Nodup ∧
        ∀ b ∈ bs, ∀ p ∈ b.proofs, ofNat p.number < b.numberU64
  | [], _, _, _ => ⟨nodup_nil, fun _ h => absurd h not_mem_nil⟩
  | b :: bs, hl, ⟨⟨pool, effect, hselect⟩, hrest⟩, hone => by
    obtain ⟨hbelow, hl⟩ := pairwise_cons.mp hl
    obtain ⟨-, -, hnodup, hunpaid⟩ := selectProofs_spec hl hselect
    rw [flatMap_cons] at hone ⊢
    obtain ⟨hbefore, hnumbers⟩ := nodup_of_allSelected hl hrest fun p hp q hq =>
      hone p (mem_append_right _ hp) q (mem_append_right _ hq)
    constructor
    · rw [map_append, nodup_append]
      refine ⟨hnodup, hbefore, ?_⟩
      rintro id hid _ hid' rfl
      obtain ⟨p, hp, rfl⟩ := mem_map.mp hid
      obtain ⟨q, hq, hqid⟩ := mem_map.mp hid'
      obtain ⟨c, hc, hqc⟩ := mem_flatMap.mp hq
      have hnumber := hone p (mem_append_left _ hp) q (mem_append_right _ hq) hqid.symm
      have hafter : ofNat p.number < c.numberU64 := hnumber ▸ hnumbers c hc q hqc
      exact (hunpaid p hp).2 c (mem_append_left _ hc) hafter (mem_map.mpr ⟨q, hqc, hqid⟩)
    · intro c hc p hp
      rcases mem_cons.mp hc with rfl | hc
      · obtain ⟨⟨a, ha, hle⟩, -⟩ := hunpaid p hp
        exact UInt64.lt_of_le_of_lt hle (hbelow a ha)
      · exact hnumbers c hc p hp

theorem bounds_of_allSelected {genesis : ExtBlock} : ∀ {bs : List ExtBlock},
    Descending (bs ++ [genesis]) → AllSelected genesis bs → ∀ b ∈ bs,
      b.header.behaviorProofs.length ≤ 1 ∧ b.behaviorProofUncles.length ≤ 64
  | [], _, _, _, hc => absurd hc not_mem_nil
  | b :: bs, hl, ⟨⟨pool, effect, hselect⟩, hrest⟩, c, hc => by
    have hbefore := (pairwise_cons.mp hl).2
    rcases mem_cons.mp hc with rfl | hc
    · obtain ⟨hone, huncles, -, -⟩ := selectProofs_spec hbefore hselect
      exact ⟨hone, huncles⟩
    · exact bounds_of_allSelected hbefore hrest c hc

namespace AcceptedChain

variable {K : Crypto} {config : ChainConfig} {T : TrieHasher} (chain : AcceptedChain K config T)

def blocks : List ExtBlock := chain.imports.map (·.block)

/-- The proofs for which `accumulateRewards` calls `AddBalance` along the chain. -/
def paidProofs : List BehaviorProof := (chain.blocks.flatMap (·.rewardCalls)).filterMap (·.proof)

/-- How often it does for an id. -/
def timesPaid (id : Hash) : Nat := chain.paidProofs.countP (·.id = id)

theorem paidProofs_eq : chain.paidProofs = chain.blocks.flatMap ExtBlock.proofs := by
  rw [paidProofs, filterMap_flatMap]
  exact flatMap_congr fun b _ => b.filterMap_rewardCalls

theorem nodup_ids_iff : (chain.paidProofs.map (·.id)).Nodup ↔ ∀ id, chain.timesPaid id ≤ 1 := by
  rw [nodup_iff_count_le_one]
  refine forall_congr' fun id => ?_
  rw [timesPaid, count, countP_map]
  rfl

/-- The blocks are numbered from the genesis block on. -/
theorem number_le_length {genesis : ExtBlock} (hgenesis : genesis.header.number = 0) :
    ∀ {l : List ExtBlock}, ((l ++ [genesis]).IsChain fun b parent =>
      b.header.parentHash = parent.header.hash K ∧ b.header.number = parent.header.number + 1) →
      ∀ b ∈ l ++ [genesis], b.header.number ≤ l.length
  | [], _, b, hb => by rw [mem_singleton.mp hb, hgenesis, length_nil]
  | c :: l, hchain, b, hb => by
    rw [cons_append, isChain_cons] at hchain
    have hbefore := number_le_length hgenesis hchain.2
    rcases mem_cons.mp hb with rfl | hb
    · have hhead := head_mem (l := l ++ [genesis]) (by simp)
      have hparent := (hchain.1 _ (head_mem_head? (by simp))).2
      rw [hparent, length_cons]
      exact Nat.succ_le_succ (hbefore _ hhead)
    · exact (hbefore b hb).trans (Nat.le_succ _)

theorem descending : Descending (chain.blocks ++ [chain.genesis]) := by
  have hle := number_le_length chain.genesis_number chain.linked
  have hdown : (chain.blocks ++ [chain.genesis]).Pairwise fun b c =>
      c.header.number < b.header.number :=
    haveI : IsTrans ExtBlock fun b c => c.header.number < b.header.number :=
      ⟨fun _ _ _ hab hbc => hbc.trans hab⟩
    (chain.linked.imp fun _ _ h => h.2 ▸ Nat.lt_succ_self _).pairwise
  refine hdown.imp_of_mem fun {b c} hb hc hlt => ?_
  have hsmall {a : ExtBlock} (ha : a ∈ chain.blocks ++ [chain.genesis]) :
      a.numberU64.toNat = a.header.number := by
    have hlength := hle a ha
    rw [length_map] at hlength
    exact Nat.mod_eq_of_lt (hlength.trans_lt chain.length_lt)
  rw [UInt64.lt_iff_toNat_lt, hsmall hb, hsmall hc]
  exact hlt

/-- **When a chain pays for no proof twice.**  The calls of `AddBalance` that are counted are those
of `accumulateRewards`, for each block and on any state.  If every producer has selected the proofs
of its block, then a block pays for one proof of its header and 64 uncles at most, and the chain
pays for no id twice if and only if no id comes with two numbers. -/
theorem paid_once_iff {K : Crypto} {config : ChainConfig} {T : TrieHasher}
    (chain : AcceptedChain K config T) (hselected : AllSelected chain.genesis chain.blocks) :
    (∀ b ∈ chain.blocks,
      (∀ s, accumulateRewards s b.header b.behaviorProofUncles =
        s.payAll (b.rewardCalls.map fun c => (c.addr, c.amount))) ∧
      b.paidWith blockRewardPowMiner ≤ 1 ∧ b.paidWith blockRewardPowMinerUncle ≤ 64) ∧
    ((∀ id, chain.timesPaid id ≤ 1) ↔ OneNumber chain.paidProofs) := by
  have hdescending := chain.descending
  refine ⟨fun b hb => ⟨fun s => b.accumulateRewards_eq s, ?_⟩, ?_⟩
  · rw [b.paidWith_miner, b.paidWith_uncle]
    exact bounds_of_allSelected hdescending hselected b hb
  · rw [← chain.nodup_ids_iff]
    constructor
    · intro hnodup p hp q hq hid
      rw [inj_on_of_nodup_map hnodup hp hq hid]
    · rw [chain.paidProofs_eq]
      exact fun hone => (nodup_of_allSelected hdescending hselected hone).1

/-- The genesis block, with its body. -/
def genesisBlock : ExtBlock :=
  { header := genesisHeader, acks := [], transactions := [], uncles := [],
    behaviorProofUncles := [] }

/-- The chain of a block on the genesis block. -/
def ofBlock (b : ExtBlock) (hparent : b.header.parentHash = genesisHash)
    (hnumber : b.header.number = 1)
    (h : (Import.mk (genesisBlocks [{ owner := 1 }]) b 2000 {}).Accepted plainHasher) :
    AcceptedChain plainCrypto ⟨none, none⟩ plainHasher where
  genesis := genesisBlock
  imports := [⟨genesisBlocks [{ owner := 1 }], b, 2000, {}⟩]
  accepted := forall_mem_singleton.mpr h
  linked := .cons_cons ⟨hparent.trans hash_genesisHeader.symm, hnumber⟩ (.singleton _)
  genesis_number := rfl
  length_lt := show 1 < 2 ^ 64 by decide

/-- The first block with the proof that is in the pool. -/
def paidBlock : ExtBlock := firstBlock 1 [forgedProof] []

theorem paidBlock_accepted :
    (Import.mk (genesisBlocks [{ owner := 1 }]) paidBlock 2000 {}).Accepted plainHasher :=
  ⟨by decide +kernel, by decide +kernel⟩

def paidPool : BehaviorProofPool :=
  { check := fun _ => .legal, powAnswerMap := fun _ => [],
    stored := fun _ _ h => absurd h not_mem_nil }

theorem paid_once_first :
    selectProofs (paidPool.add forgedProof) [genesisBlock] true = some ([forgedProof], []) ∧
    (∀ id, (ofBlock paidBlock rfl rfl paidBlock_accepted).timesPaid id ≤ 1) ∧
    (ofBlock paidBlock rfl rfl paidBlock_accepted).timesPaid forgedProof.id = 1 := by
  have hselect : selectProofs (paidPool.add forgedProof) [genesisBlock] true =
      some ([forgedProof], []) := by decide +kernel
  have hall : AllSelected genesisBlock [paidBlock] := ⟨⟨_, _, hselect⟩, trivial⟩
  have honce := (paid_once_iff (ofBlock paidBlock rfl rfl paidBlock_accepted) hall).2
  refine ⟨hselect, honce.mpr ?_, by decide +kernel⟩
  intro p hp q hq _
  rw [mem_singleton.mp hp, mem_singleton.mp hq]

/-- The first block of a chain, with a made-up proof twice in its header and 65 times among its
uncles. -/
def greedyBlock : ExtBlock :=
  firstBlock 1 [forgedProof, forgedProof] (replicate 65 forgedProof)

theorem greedyBlock_accepted :
    (Import.mk (genesisBlocks [{ owner := 1 }]) greedyBlock 2000 {}).Accepted plainHasher :=
  ⟨by decide +kernel, by decide +kernel⟩

/-- **A made-up proof is paid 67 times** by a chain of one accepted block, twice as a proof of the
header and 65 times as an uncle. -/
theorem proof_paid_again :
    (ofBlock greedyBlock rfl rfl greedyBlock_accepted).timesPaid forgedProof.id = 67 ∧
    greedyBlock.paidWith blockRewardPowMiner = 2 ∧
    greedyBlock.paidWith blockRewardPowMinerUncle = 65 :=
  ⟨by decide +kernel, by decide +kernel, by decide +kernel⟩

end AcceptedChain

end ProbeChain
