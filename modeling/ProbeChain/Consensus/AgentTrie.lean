/-
# The root over the agents

`consensus/pob/agent_trie.go`: a leaf for each agent, the leaves in ascending order, and their
Merkle root, which the header carries at the end of `Extra`.

`merkleRoot` makes the lowest level even, but no other: a higher level of odd length is read past
its end.  It returns, and then the root with every level padded, exactly if that lowest level has a
power of two of leaves (`agentTrieRoot_eq`).  `DecodeAgentTrieRoot` looks for the root before the
seal and `EncodeAgentTrieRoot` writes it after the seal, so that the two agree in general only if
there is no seal (`decodeAgentTrieRoot_iff`).
-/
import ProbeChain.Consensus.Snapshot

namespace ProbeChain

open BigEndian List

/-! ## 1. Leaves -/

/-- `PutUint64` -/
def putUint64 (n : UInt64) : Bytes := ofNatWidth 8 n.toNat

theorem putUint64_inj {m n : UInt64} (h : putUint64 m = putUint64 n) : m = n :=
  UInt64.toNat_inj.mp (ofNatWidth_inj m.toNat_lt n.toNat_lt h)

/-- An agent without a history has a shorter preimage. -/
def agentLeafHash (K : Crypto) (addr : Address) (score : AgentScore)
    (history : Option AgentHistory) : Hash :=
  K.keccak256 (Address.bytes addr ++ putUint64 score.total ++ history.elim [] fun h =>
    putUint64 h.tasksCompleted ++ putUint64 h.attestationsOK ++ putUint64 h.heartbeatsSent ++
      putUint64 h.lastActive)

/-- The leaf of an entry of the map of the agents. -/
def agentLeaf (K : Crypto) (histories : Finmap fun _ : Address => AgentHistory)
    (e : Σ _ : Address, AgentScore) : Hash :=
  agentLeafHash K e.1 e.2 (histories.lookup e.1)

/-- The inner loop of the sort: `x` stands at `i`, and what is smaller changes places with it.
Comparing the hexadecimal texts of two hashes is comparing the numbers. -/
def exchange (x : Hash) : List Hash → Hash × List Hash
  | [] => (x, [])
  | y :: ys =>
    if y < x then ((exchange y ys).1, x :: (exchange y ys).2)
      else ((exchange x ys).1, y :: (exchange x ys).2)

/-- The outer loop over `n` places. -/
def exchangeSort : Nat → List Hash → List Hash
  | 0, leaves => leaves
  | _ + 1, [] => []
  | n + 1, x :: xs => (exchange x xs).1 :: exchangeSort n (exchange x xs).2

/-! ## 2. The tree -/

/-- A level of odd length gets its last element once more. -/
def padded (level : List Hash) : List Hash :=
  if level.length % 2 = 0 then level else level ++ level.getLast?.toList

def combine (K : Crypto) (l r : Hash) : Hash := K.keccak256 (Hash.bytes l ++ Hash.bytes r)

/-- The next level; `none` is the panic at the index after a last leaf without a partner. -/
def nextLevel (K : Crypto) : List Hash → Option (List Hash)
  | [] => some []
  | [_] => none
  | l :: r :: rest => (nextLevel K rest).map (combine K l r :: ·)

/-- The loop while a level has more than one element. -/
def buildTree (K : Crypto) : Nat → List Hash → Option Hash
  | 0, level => level.head?
  | n + 1, level => if 1 < level.length then (nextLevel K level).bind (buildTree K n)
      else level.head?

def merkleRoot (K : Crypto) (leaves : List Hash) : Option Hash :=
  if leaves.length = 0 then some 0
  else if leaves.length = 1 then leaves.head?
  else buildTree K (padded leaves).length (padded leaves)

/-- `AgentTrieRoot`, with the agents in the order in which the map is walked. -/
def agentTrieRoot (K : Crypto) (walk : List (Σ _ : Address, AgentScore))
    (histories : Finmap fun _ : Address => AgentHistory) : Option Hash :=
  if walk.length = 0 then some 0
  else merkleRoot K (exchangeSort walk.length (walk.map (agentLeaf K histories)))

/-! ## 3. The padded root -/

/-- Neighbours combined. -/
def pairs (K : Crypto) : List Hash → List Hash
  | [] => []
  | [_] => []
  | l :: r :: rest => combine K l r :: pairs K rest

variable {K : Crypto} {level : List Hash}

theorem length_pairs (level : List Hash) : (pairs K level).length = level.length / 2 := by
  fun_induction pairs K level with
  | case1 => rfl
  | case2 => simp
  | case3 l r rest ih => simp only [length_cons, ih]; omega

theorem padded_of_even (h : level.length % 2 = 0) : padded level = level := if_pos h

theorem length_padded (level : List Hash) :
    (padded level).length = level.length + level.length % 2 := by
  unfold padded
  split
  · omega
  · have hne : level ≠ [] := by rintro rfl; contradiction
    rw [getLast?_eq_some_getLast hne, length_append, Option.toList_some, length_singleton]
    omega

/-- The root for which each level of odd length greater than one is padded. -/
def paddedRoot (K : Crypto) (level : List Hash) : Hash :=
  if 1 < level.length then paddedRoot K (pairs K (padded level)) else level.headD 0
termination_by level.length
decreasing_by rw [length_pairs, length_padded]; omega

theorem nextLevel_eq (level : List Hash) :
    nextLevel K level = if level.length % 2 = 0 then some (pairs K level) else none := by
  fun_induction nextLevel K level with
  | case1 => rfl
  | case2 => rfl
  | case3 l r rest ih =>
    have hlength : (l :: r :: rest).length % 2 = rest.length % 2 := Nat.add_mod_right _ 2
    rw [ih, hlength, pairs]
    split <;> rfl

theorem isPowerOfTwo_half {n : Nat} (heven : n % 2 = 0) : (n / 2).isPowerOfTwo ↔
    n.isPowerOfTwo := by
  constructor
  · rintro ⟨k, hk⟩
    exact ⟨k + 1, by rw [pow_succ]; omega⟩
  · rintro ⟨_ | k, hk⟩
    · omega
    · exact ⟨k, by rw [pow_succ] at hk; omega⟩

/-- **A level without padding** reaches a root if and only if its length is a power of two. -/
theorem buildTree_eq {n : Nat} (hpos : 0 < level.length) (hn : level.length ≤ n) :
    buildTree K n level = if level.length.isPowerOfTwo then some (paddedRoot K level)
      else none := by
  induction n generalizing level with
  | zero => omega
  | succ n ih =>
    rw [buildTree, paddedRoot]
    by_cases hone : 1 < level.length
    · rw [if_pos hone, if_pos hone, nextLevel_eq]
      by_cases heven : level.length % 2 = 0
      · have hhalf := isPowerOfTwo_half heven
        rw [← length_pairs (K := K)] at hhalf
        rw [if_pos heven, Option.bind_some, padded_of_even heven, ih (by rw [length_pairs]; omega)
          (by rw [length_pairs]; omega)]
        simp only [hhalf]
      · -- an odd level above one is not a power of two
        rw [if_neg heven, Option.bind_none, if_neg]
        rintro ⟨_ | k, hk⟩
        · omega
        · rw [pow_succ] at hk
          omega
    · have hsingle : level.length = 1 := by omega
      obtain ⟨x, rfl⟩ := length_eq_one_iff.mp hsingle
      exact (if_pos ⟨0, rfl⟩).symm

theorem paddedRoot_padded (level : List Hash) (h : 1 < level.length) :
    paddedRoot K (padded level) = paddedRoot K level := by
  have heven : (padded level).length % 2 = 0 := by rw [length_padded]; omega
  rw [paddedRoot, if_pos (by rw [length_padded]; omega), padded_of_even heven]
  exact (by rw [paddedRoot, if_pos h] : paddedRoot K level = _).symm

theorem merkleRoot_eq (leaves : List Hash) : merkleRoot K leaves =
    if leaves.length ≤ 1 ∨ (leaves.length + leaves.length % 2).isPowerOfTwo then
      some (paddedRoot K leaves) else none := by
  rcases leaves with _ | ⟨x, _ | ⟨y, rest⟩⟩
  · simp [merkleRoot, paddedRoot]
  · simp [merkleRoot, paddedRoot]
  · have hlong : 1 < (x :: y :: rest).length := by simp
    rw [merkleRoot, if_neg (by simp), if_neg (by simp),
      buildTree_eq (by rw [length_padded]; omega) le_rfl, length_padded, paddedRoot_padded _ hlong]
    simp only [hlong.not_ge, false_or]

/-! ## 4. The order of the leaves -/

theorem exchange_perm (x : Hash) (ys : List Hash) :
    ((exchange x ys).1 :: (exchange x ys).2).Perm (x :: ys) := by
  fun_induction exchange x ys with
  | case1 => exact .refl _
  | case2 x y ys _ ih => exact (List.Perm.swap ..).trans (ih.cons x)
  | case3 x y ys _ ih => exact (List.Perm.swap ..).trans ((ih.cons y).trans (List.Perm.swap ..))

/-- What ends at `i` is not above anything from there on. -/
theorem exchange_le (x : Hash) (ys : List Hash) :
    (exchange x ys).1 ≤ x ∧ ∀ z ∈ ys, (exchange x ys).1 ≤ z := by
  fun_induction exchange x ys with
  | case1 x => exact ⟨BitVec.le_refl x, by simp⟩
  | case2 x y ys hlt ih =>
    exact ⟨BitVec.le_trans ih.1 (BitVec.le_of_lt hlt), forall_mem_cons.mpr ih⟩
  | case3 x y ys hlt ih =>
    exact ⟨ih.1, forall_mem_cons.mpr ⟨BitVec.le_trans ih.1 (BitVec.not_lt.mp hlt), ih.2⟩⟩

theorem length_exchange (x : Hash) (ys : List Hash) : (exchange x ys).2.length = ys.length :=
  Nat.succ.inj (exchange_perm x ys).length_eq

theorem exchangeSort_perm (n : Nat) (leaves : List Hash) : (exchangeSort n leaves).Perm leaves := by
  fun_induction exchangeSort n leaves with
  | case1 => exact .refl _
  | case2 => exact .refl _
  | case3 n x xs ih => exact (ih.cons _).trans (exchange_perm x xs)

theorem exchangeSort_sorted {n : Nat} {leaves : List Hash} (hn : leaves.length ≤ n) :
    (exchangeSort n leaves).Pairwise (· ≤ ·) := by
  fun_induction exchangeSort n leaves with
  | case1 leaves =>
    rw [length_eq_zero_iff.mp (Nat.le_zero.mp hn)]
    exact .nil
  | case2 => exact .nil
  | case3 n x xs ih =>
    refine pairwise_cons.mpr ⟨fun z hz => ?_, ih (by rw [length_exchange]; simpa using hn)⟩
    have hmem : z ∈ (exchange x xs).1 :: (exchange x xs).2 :=
      mem_cons_of_mem _ ((exchangeSort_perm n _).mem_iff.mp hz)
    exact forall_mem_cons.mpr (exchange_le x xs) z ((exchange_perm x xs).mem_iff.mp hmem)

/-- There is one list in ascending order with given elements. -/
theorem exchangeSort_eq {n : Nat} {leaves sorted : List Hash} (hn : leaves.length ≤ n)
    (hperm : leaves.Perm sorted) (hsorted : sorted.Pairwise (· ≤ ·)) :
    exchangeSort n leaves = sorted :=
  List.Perm.eq_of_pairwise (fun _ _ _ _ => BitVec.le_antisymm) (exchangeSort_sorted hn) hsorted
    ((exchangeSort_perm n leaves).trans hperm)

/-- **In whatever order the map is walked**, the result is the padded root over the leaves in
ascending order if there is at most one agent or the agents, made even, are a power of two; with any
other number of agents there is a panic. -/
theorem agentTrieRoot_eq (K : Crypto) (agents : Finmap fun _ : Address => AgentScore)
    (histories : Finmap fun _ : Address => AgentHistory) {walk : List (Σ _ : Address, AgentScore)}
    {leaves : List Hash} (hwalk : (walk : Multiset (Σ _ : Address, AgentScore)) = agents.entries)
    (hleaves : (leaves : Multiset Hash) = agents.entries.map (agentLeaf K histories))
    (hsorted : leaves.Pairwise (· ≤ ·)) :
    agentTrieRoot K walk histories =
      if agents.keys.card ≤ 1 ∨ (agents.keys.card + agents.keys.card % 2).isPowerOfTwo then
        some (paddedRoot K leaves)
      else none := by
  have hperm : (walk.map (agentLeaf K histories)).Perm leaves := by
    rw [← Multiset.coe_eq_coe, hleaves, ← hwalk, Multiset.map_coe]
  have hcard : leaves.length = agents.keys.card := by
    rw [← Multiset.coe_card, hleaves, Multiset.card_map]
    exact (Multiset.card_map Sigma.fst agents.entries).symm
  -- an empty map has the root of no leaves
  have hroot : agentTrieRoot K walk histories =
      merkleRoot K (exchangeSort walk.length (walk.map (agentLeaf K histories))) := by
    cases walk <;> rfl
  rw [hroot, exchangeSort_eq (length_map _).le hperm hsorted, merkleRoot_eq, hcard]

/-- Two agents without a history. -/
theorem agentTrieRoot_twoAgents :
    agentTrieRoot plainCrypto [⟨2, defaultAgentScore 0⟩, ⟨1, defaultAgentScore 0⟩] ∅ =
      some (paddedRoot plainCrypto [agentLeafHash plainCrypto 1 (defaultAgentScore 0) none,
        agentLeafHash plainCrypto 2 (defaultAgentScore 0) none]) :=
  agentTrieRoot_eq plainCrypto
    (([1, 2] : List Address).foldl (fun m a => m.insert a (defaultAgentScore 0)) ∅) ∅
    (by decide +kernel) (by decide +kernel) (by decide +kernel) |>.trans
      (if_pos (.inr ⟨1, by decide +kernel⟩))

/-- With five agents the second level has three elements. -/
theorem agentTrieRoot_fiveAgents :
    agentTrieRoot plainCrypto ([1, 2, 3, 4, 5].map fun a => ⟨a, defaultAgentScore 0⟩) ∅ = none := by
  decide +kernel

/-! ## 5. The root in the header -/

def encodeAgentTrieRoot (extra : Bytes) (root : Hash) : Bytes := extra ++ Hash.bytes root

def decodeAgentTrieRoot (extra : Bytes) (vanityLen sealLen : Nat) : Hash :=
  if extra.length < vanityLen + sealLen + 32 then 0
  else
    let remaining := (extra.take (extra.length - sealLen)).drop vanityLen
    if remaining.length < 32 then 0 else bytesToHash (remaining.drop (remaining.length - 32))

/-- Without a seal the last bytes are the root. -/
theorem decodeAgentTrieRoot_of_no_seal {extra : Bytes} {v : Nat} (h : v ≤ extra.length)
    (root : Hash) :
    decodeAgentTrieRoot (encodeAgentTrieRoot extra root) v 0 = root := by
  have hlength : (encodeAgentTrieRoot extra root).length = extra.length + 32 := by
    rw [encodeAgentTrieRoot, length_append, Hash.length_bytes]
  rw [decodeAgentTrieRoot, if_neg (by omega), Nat.sub_zero, take_length,
    if_neg (by rw [length_drop]; omega), drop_drop, length_drop, hlength,
    show v + (extra.length + 32 - v - 32) = extra.length by
    omega, encodeAgentTrieRoot, drop_left, bytesToHash_bytes]

/-- With a seal an extra field of zeros hides the root `1`, whose last byte alone is not zero. -/
theorem decodeAgentTrieRoot_of_seal {v w : Nat} (hw : 0 < w) :
    decodeAgentTrieRoot (encodeAgentTrieRoot (.replicate (v + w) 0) 1) v w = 0 := by
  have hbytes : encodeAgentTrieRoot (.replicate (v + w) 0) 1 =
      .replicate (v + w + 31) 0 ++ [1] := by
    rw [encodeAgentTrieRoot, show Hash.bytes 1 = .replicate 31 0 ++ [1] by decide, ← append_assoc,
      replicate_append_replicate]
  have hlength : (encodeAgentTrieRoot (.replicate (v + w) 0) 1).length = v + w + 32 := by
    rw [encodeAgentTrieRoot, length_append, Hash.length_bytes, length_replicate]
  have htake : (encodeAgentTrieRoot (.replicate (v + w) 0) 1).take (v + 32) =
      .replicate (v + 32) 0 := by
    rw [hbytes, take_append_of_le_length (by rw [length_replicate]; omega), take_replicate,
      Nat.min_eq_left (by omega)]
  rw [decodeAgentTrieRoot, if_neg (by omega), hlength,
    show v + w + 32 - w = v + 32 by omega, htake, drop_replicate, show v + 32 - v = 32 by omega]
  decide

/-- **Reading gives back what was written, for every extra field and root, exactly if there is no
seal.** -/
theorem decodeAgentTrieRoot_iff (v w : Nat) :
    (∀ (extra : Bytes) (root : Hash), v + w ≤ extra.length →
      decodeAgentTrieRoot (encodeAgentTrieRoot extra root) v w = root) ↔ w = 0 := by
  constructor
  · intro h
    by_contra hw
    have hone := h (.replicate (v + w) 0) 1 (by rw [length_replicate])
    rw [decodeAgentTrieRoot_of_seal (by omega)] at hone
    exact absurd hone (by decide)
  · rintro rfl extra root hlength
    exact decodeAgentTrieRoot_of_no_seal hlength root

/-- With the vanity prefix and the seal of a header. -/
theorem decodeAgentTrieRoot_of_header :
    decodeAgentTrieRoot (encodeAgentTrieRoot (.replicate (extraVanity + extraSeal) 0) 1) extraVanity
      extraSeal ≠ 1 := by
  decide +kernel

end ProbeChain
