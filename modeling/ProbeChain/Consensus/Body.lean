/-
# Block bodies

`ValidateBody` of `core/block_validator.go`, with the parts of the engine and of the chain it calls,
and `DeriveSha` of `core/types/hashing.go`.  A block is its header and four lists: transactions,
uncles, behavior proof uncles and acks.

The header holds a digest of each list.  `ValidateBody` compares that of the transactions,
`CheckAcks` that of the acks, and uncles must be absent.  NOTHING compares `UncleHash` with the
behavior proof uncles, and `accumulateRewards` pays each of them.  So one header goes with many
bodies and many states: `block_determined_iff`.
-/
import ProbeChain.Consensus.Acks
import ProbeChain.Consensus.Produce
import ProbeChain.Consensus.Rewards
import ProbeChain.Types.BlockRlp

namespace ProbeChain

open BigEndian Check List Rlp.Item

/-! ## 1. Blocks and chains -/

/-- `extblock`: a block with its whole body. -/
structure ExtBlock extends Block where
  transactions : List TxData
  uncles : List Header
  behaviorProofUncles : List BehaviorProof

/-- What the import of a block asks of the chain.  `engine_epoch` is what `New` sees to, and without
an epoch in the configuration `GetValidators` returns nothing. -/
structure BlockChain (K : Crypto) (config : ChainConfig) extends HeaderChain K config, Chain where
  engine : Engine
  shenzhenBlock : Option Nat
  epoch : UInt64
  hasBlock : Hash → UInt64 → Bool
  hasState : Hash → Bool
  engine_epoch : engine.pobConfig.epoch ≠ 0
  no_epoch : epoch = 0 → ∀ number, getValidators number = []

/-- Named for the texts of the errors.  The last two are run-time panics. -/
inductive BlockError where
  | unknownAncestor
  | header (e : HeaderError)
  | knownBlock
  | unclesNotAllowed
  | behaviorProofHeaderNil
  | visualExtra
  | acksNotLegal
  | transactionRoot
  | prunedAncestor
  | nilPointer
  | divideByZero
  deriving DecidableEq, Repr

/-! ## 2. `DeriveSha` -/

/-- `TrieHasher`: the root of the updates since the last reset. -/
abbrev TrieHasher := List (Bytes × Bytes) → Hash

/-- The order in which the indices are encoded in increasing order: 1 to 127, then 0, then the
rest. -/
def deriveOrder (n : Nat) : List Nat :=
  range' 1 (min n 0x80 - 1) ++ (if 0 < n then [0] else []) ++ range' 0x80 (n - 0x80)

def deriveUpdates (values : List Bytes) : List (Bytes × Bytes) :=
  (deriveOrder values.length).map fun i => ((nat i).encode, values.getD i [])

def deriveSha (T : TrieHasher) (values : List Bytes) : Hash := T (deriveUpdates values)

theorem mem_deriveOrder {i n : Nat} : i ∈ deriveOrder n ↔ i < n := by
  simp only [deriveOrder, mem_append, mem_range'_1]
  by_cases hn : 0 < n
  · simp only [hn, if_true, mem_singleton]
    omega
  · simp only [hn, if_false, not_mem_nil, or_false]
    omega

theorem length_deriveOrder (n : Nat) : (deriveOrder n).length = n := by
  simp only [deriveOrder, length_append, length_range']
  by_cases hn : 0 < n
  · simp only [hn, if_true, length_singleton]
    omega
  · obtain rfl : n = 0 := by omega
    simp

/-- **The updates determine the values.** -/
theorem deriveUpdates_inj {xs ys : List Bytes} (h : deriveUpdates xs = deriveUpdates ys) :
    xs = ys := by
  have hlen : xs.length = ys.length := by
    have := congrArg length h
    rwa [deriveUpdates, deriveUpdates, length_map, length_map, length_deriveOrder,
      length_deriveOrder] at this
  unfold deriveUpdates at h
  rw [hlen] at h
  refine ext_getElem hlen fun i hx hy => ?_
  have hi := map_inj_left.mp h i (mem_deriveOrder.mpr hy)
  simpa [getD, hx, hy] using (Prod.mk.inj hi).2

/-! ## 3. `ValidateBody` -/

/-- The digest of no uncles is that of the empty list, too, and so is `EmptyUncleHash`. -/
def calcBehaviorProofUncleHash (K : Crypto) (powAnswerUncles : List BehaviorProof) : Hash :=
  K.keccak256 (list (powAnswerUncles.map BehaviorProof.item)).encode

namespace BlockChain

variable {K : Crypto} {config : ChainConfig} (bc : BlockChain K config)

/-- `verifyHeaderWorker` for a header that comes alone. -/
def verifyHeader (header : Header) (unixNow : Int64) : Except BlockError Unit :=
  match bc.findRealParentHeader header.parentHash (UInt64.ofNat header.number - 1).toNat 1 with
  | none => .error .unknownAncestor
  | some (parent, diff) =>
    (ProbeChain.verifyHeader K bc.engine config header parent false unixNow (.ofNat diff)).mapError
      .header

variable {bc} in
theorem verifyHeader_eq {header parent : Header} {diff : Nat} {unixNow : Int64}
    (h : bc.findRealParentHeader header.parentHash (UInt64.ofNat header.number - 1).toNat 1 =
      some (parent, diff)) :
    bc.verifyHeader header unixNow = (ProbeChain.verifyHeader K bc.engine config header parent false
      unixNow (.ofNat diff)).mapError .header := by
  unfold verifyHeader
  rw [h]

def hasBlockAndState (hash : Hash) (number : UInt64) : Bool :=
  match bc.getBlock hash number with
  | none => false
  | some block => bc.hasState block.header.root

/-- Nothing is asked of a proof but that its block is known. -/
def verifyBehaviorProof (isBeforeUnclePowFix : Bool) (answer : BehaviorProof) : Bool :=
  let number := (UInt64.ofNat answer.number).toNat
  if isBeforeUnclePowFix then (bc.canonical number).isSome
  else (bc.getHeader answer.blockHash number).isSome

def verifyUncleBehaviorProofs (block : ExtBlock) : Except BlockError Unit :=
  require (block.behaviorProofUncles.all
    (bc.verifyBehaviorProof (!isForked bc.shenzhenBlock block.header.number)) = true)
    .behaviorProofHeaderNil

/-- The account of `GetSealValidator` is not checked for nil. -/
def checkIsProducerAccount (number : UInt64) (owner : Address) : Except BlockError Bool :=
  match bc.getValidators number with
  | [] => .error .nilPointer
  | account :: accounts => do
    require (bc.epoch ≠ 0) .divideByZero
    let size := UInt64.ofNat (account :: accounts).length
    let index := (number % bc.epoch % size).toNat
    return ((account :: accounts).getD index account).owner = owner

def verifyValidatorInfo (block : ExtBlock) : Except BlockError Unit := do
  let isVisual := block.header.isVisual
  let isProducer ← bc.checkIsProducerAccount (UInt64.ofNat block.header.number)
    block.header.validatorAddr
  require (isProducer ≠ isVisual) .visualExtra
  let legal ← getOr (checkAcks K bc.toChain block.toBlock) .nilPointer
  require (legal = true) .acksNotLegal

def validateBody (T : TrieHasher) (block : ExtBlock) : Except BlockError Unit := do
  let number := UInt64.ofNat block.header.number
  require (bc.hasBlockAndState (block.header.hash K) number = false) .knownBlock
  require (block.uncles.length = 0) .unclesNotAllowed
  bc.verifyUncleBehaviorProofs block
  bc.verifyValidatorInfo block
  require (deriveSha T (block.transactions.map TxData.encodeIndex) = block.header.txHash)
    .transactionRoot
  require (bc.hasBlockAndState block.header.parentHash (number - 1) = true)
    (if bc.hasBlock block.header.parentHash (number - 1) then .prunedAncestor else .unknownAncestor)

end BlockChain

/-! ## 4. What the digests determine -/

/-- The bytes under the digest of the acks. -/
def ackBytes (acks : List Ack) : Bytes := (list (acks.map Ack.item)).encode

/-- The bytes under the digest of the uncles. -/
def uncleBytes (uncles : List BehaviorProof) : Bytes :=
  (list (uncles.map BehaviorProof.item)).encode

theorem ackBytes_inj {xs ys : List Ack} (hlen : (ackBytes xs).length < 2 ^ 64)
    (h : ackBytes xs = ackBytes ys) : xs = ys :=
  (map_inj_right fun _ _ => Ack.item_inj).mp (list.inj (encode_inj hlen h))

theorem uncleBytes_inj {xs ys : List BehaviorProof} (hlen : (uncleBytes xs).length < 2 ^ 64)
    (h : uncleBytes xs = uncleBytes ys) : xs = ys :=
  (map_inj_right fun _ _ => BehaviorProof.item_inj).mp
    (list.inj (encode_inj hlen h))

namespace ExtBlock

/-- The lengths of a block's encodings are machine words. -/
structure Sized (b : ExtBlock) : Prop where
  header : b.header.rlp.length < 2 ^ 64
  acks : (ackBytes b.acks).length < 2 ^ 64
  uncles : (uncleBytes b.behaviorProofUncles).length < 2 ^ 64
  transactions : ∀ tx ∈ b.transactions, tx.encodeIndex.length < 2 ^ 64

/-- No collision among what is hashed of the two blocks. -/
structure CollisionFree (K : Crypto) (T : TrieHasher) (b₁ b₂ : ExtBlock) : Prop where
  header : K.keccak256 b₁.header.rlp = K.keccak256 b₂.header.rlp → b₁.header.rlp = b₂.header.rlp
  acks : K.keccak256 (ackBytes b₁.acks) = K.keccak256 (ackBytes b₂.acks) →
    ackBytes b₁.acks = ackBytes b₂.acks
  uncles : K.keccak256 (uncleBytes b₁.behaviorProofUncles) =
      K.keccak256 (uncleBytes b₂.behaviorProofUncles) →
    uncleBytes b₁.behaviorProofUncles = uncleBytes b₂.behaviorProofUncles
  transactions :
    deriveSha T (b₁.transactions.map TxData.encodeIndex) =
      deriveSha T (b₂.transactions.map TxData.encodeIndex) →
    deriveUpdates (b₁.transactions.map TxData.encodeIndex) =
      deriveUpdates (b₂.transactions.map TxData.encodeIndex)

/-- The state after the block: its transactions are executed, whatever that does, and then the
rewards are paid. -/
def executed (process : Header → List TxData → StateDB) (b : ExtBlock) : StateDB :=
  (accumulateRewards (process b.header.decoded b.transactions) b.header.decoded
    b.behaviorProofUncles).finalise

section
variable {K : Crypto} {T : TrieHasher} {b₁ b₂ : ExtBlock} (hfree : CollisionFree K T b₁ b₂)
  (hsized : b₁.Sized)
include hfree hsized

theorem decoded_eq_of_hash (h : b₁.header.hash K = b₂.header.hash K) :
    b₁.header.decoded = b₂.header.decoded :=
  Header.decoded_eq_of_rlp_eq hsized.header (hfree.header h)

theorem acks_eq_of_hash (h : calcAckHash K b₁.acks = calcAckHash K b₂.acks) : b₁.acks = b₂.acks :=
  ackBytes_inj hsized.acks (hfree.acks h)

theorem uncles_eq_of_hash (h : calcBehaviorProofUncleHash K b₁.behaviorProofUncles =
    calcBehaviorProofUncleHash K b₂.behaviorProofUncles) :
    b₁.behaviorProofUncles = b₂.behaviorProofUncles :=
  uncleBytes_inj hsized.uncles (hfree.uncles h)

theorem transactions_eq_of_deriveSha (h : deriveSha T (b₁.transactions.map TxData.encodeIndex) =
    deriveSha T (b₂.transactions.map TxData.encodeIndex)) : b₁.transactions = b₂.transactions := by
  have hencoded := deriveUpdates_inj (hfree.transactions h)
  have hlen : b₁.transactions.length = b₂.transactions.length := by
    simpa using congrArg length hencoded
  refine ext_getElem hlen fun i h₁ h₂ => ?_
  refine TxData.encodeIndex_inj (hsized.transactions _ (getElem_mem h₁)) ?_
  simpa [h₁, h₂] using congrArg (fun l => l[i]?) hencoded

end

end ExtBlock

/-! ## 5. What an accepted body is tied to -/

variable {K : Crypto} {T : TrieHasher} {config : ChainConfig}

theorem acksHash_of_checkAcks {bc : Chain} {block : Block} (h : checkAcks K bc block = some true) :
    block.header.acksHash = calcAckHash K block.acks := by
  unfold checkAcks at h
  dsimp only at h
  split at h
  · cases h
  split at h
  · cases h
  -- `checkAckCount` starts with the digest
  simp only [checkAckCount, Option.some.injEq] at h
  split at h
  · cases h
  next hdigest =>
    exact not_not.mp hdigest

/-- **An accepted body has the transactions and the acks of its header.** -/
theorem BlockChain.digests_of_validateBody {bc : BlockChain K config} {b : ExtBlock}
    (h : bc.validateBody T b = .ok ()) :
    deriveSha T (b.transactions.map TxData.encodeIndex) = b.header.txHash ∧
      b.header.acksHash = calcAckHash K b.acks := by
  simp only [validateBody, then_eq_ok, require_eq_ok] at h
  obtain ⟨-, -, -, hvalidator, htransactions, -⟩ := h
  obtain ⟨isProducer, -, hvalidator⟩ := bind_eq_ok.mp hvalidator
  simp only [require_bind_eq_ok, getOr_bind_eq_ok, require_eq_ok] at hvalidator
  obtain ⟨-, legal, hlegal, rfl⟩ := hvalidator
  exact ⟨htransactions, acksHash_of_checkAcks hlegal⟩

section
variable {config₁ config₂ : ChainConfig} (bc₁ : BlockChain K config₁) (bc₂ : BlockChain K config₂)
  {b₁ b₂ : ExtBlock}
  (hfree : b₁.CollisionFree K T b₂) (hsized : b₁.Sized)
    (hhash : b₁.header.hash K = b₂.header.hash K)
  (hbody₁ : bc₁.validateBody T b₁ = .ok ()) (hbody₂ : bc₂.validateBody T b₂ = .ok ())
include hfree hsized hhash hbody₁ hbody₂

theorem bodies_eq (hdigest : calcBehaviorProofUncleHash K b₁.behaviorProofUncles =
      calcBehaviorProofUncleHash K b₂.behaviorProofUncles) :
    b₁.transactions = b₂.transactions ∧ b₁.acks = b₂.acks ∧
      b₁.behaviorProofUncles = b₂.behaviorProofUncles ∧
      ∀ process, b₁.executed process = b₂.executed process := by
  have hdecoded := ExtBlock.decoded_eq_of_hash hfree hsized hhash
  obtain ⟨htx₁, hacks₁⟩ := BlockChain.digests_of_validateBody hbody₁
  obtain ⟨htx₂, hacks₂⟩ := BlockChain.digests_of_validateBody hbody₂
  have htxHash : b₁.header.txHash = b₂.header.txHash := congrArg (·.txHash) hdecoded
  have hacksHash : b₁.header.acksHash = b₂.header.acksHash := congrArg (·.acksHash) hdecoded
  have htransactions : b₁.transactions = b₂.transactions :=
    ExtBlock.transactions_eq_of_deriveSha hfree hsized (by rw [htx₁, htx₂, htxHash])
  have hacks : b₁.acks = b₂.acks :=
    ExtBlock.acks_eq_of_hash hfree hsized (by rw [← hacks₁, ← hacks₂, hacksHash])
  have huncles := ExtBlock.uncles_eq_of_hash hfree hsized hdigest
  refine ⟨htransactions, hacks, huncles, fun process => ?_⟩
  unfold ExtBlock.executed
  rw [hdecoded, htransactions, huncles]

/-- **The hash of a header determines its transactions and acks**, on any two nodes that accept a
body for it.  Of the behavior proof uncles, and so of the state, it determines nothing: they agree
if and only if their digests happen to. -/
theorem block_determined_iff :
    (b₁.transactions = b₂.transactions ∧ b₁.acks = b₂.acks ∧
      b₁.behaviorProofUncles = b₂.behaviorProofUncles ∧
      ∀ process, b₁.executed process = b₂.executed process) ↔
    calcBehaviorProofUncleHash K b₁.behaviorProofUncles =
      calcBehaviorProofUncleHash K b₂.behaviorProofUncles := by
  constructor
  · rintro ⟨-, -, huncles, -⟩
    rw [huncles]
  · exact bodies_eq bc₁ bc₂ hfree hsized hhash hbody₁ hbody₂

/-- The comparison that is missing would do: blocks whose `UncleHash` is what `ValidatorNewBlock`
writes there are determined by their hash. -/
theorem bodies_eq_of_uncleHash
    (h₁ : b₁.header.uncleHash = calcBehaviorProofUncleHash K b₁.behaviorProofUncles)
    (h₂ : b₂.header.uncleHash = calcBehaviorProofUncleHash K b₂.behaviorProofUncles) :
    b₁.behaviorProofUncles = b₂.behaviorProofUncles ∧
      ∀ process, b₁.executed process = b₂.executed process := by
  have hdecoded := ExtBlock.decoded_eq_of_hash hfree hsized hhash
  have huncleHash : b₁.header.uncleHash = b₂.header.uncleHash := congrArg (·.uncleHash) hdecoded
  exact (bodies_eq bc₁ bc₂ hfree hsized hhash hbody₁ hbody₂ (by rw [← h₁, ← h₂, huncleHash])).2.2

end

/-- The root is the last 32 bytes of what was put in. -/
def plainHasher : TrieHasher := fun updates => bytesToHash (updates.flatMap fun p => p.1 ++ p.2)

/-- The hash of the genesis block, with the hash that keeps the last 32 bytes. -/
def genesisHash : Hash := 0x880000000000000000

theorem hash_genesisHeader : Header.hash plainCrypto genesisHeader = genesisHash := by
  decide +kernel

/-- A chain of nothing but its genesis block. -/
def genesisBlocks (validators : List Validator) : BlockChain plainCrypto ⟨none, none⟩ :=
  { genesisChain none (by decide) with
    getValidators := fun _ => validators
    getBlock := fun hash n => if n = 0 ∧ hash = genesisHash then some ⟨genesisHeader, []⟩ else none
    engine := firstEngine
    shenzhenBlock := none
    epoch := 30000
    hasBlock := fun hash n => n = 0 ∧ hash = genesisHash
    hasState := fun root => root = genesisHeader.root
    engine_epoch := by decide
    no_epoch := fun h => absurd h (by decide) }

theorem genesisBlocks_getHeader (validators : List Validator) :
    (genesisBlocks validators).getHeader genesisHash 0 = some genesisHeader := by
  simp only [genesisBlocks, genesisChain, hash_genesisHeader, and_self, if_true]

theorem genesisBlocks_realParent (validators : List Validator) (diff : Nat) :
    (genesisBlocks validators).findRealParentHeader genesisHash 0 diff =
      some (genesisHeader, diff) := by
  rw [HeaderChain.findRealParentHeader, genesisBlocks_getHeader, Option.bind_some]
  exact if_neg (by decide)

/-- A block by validator `1` on the genesis block.  The header does not depend on the uncles. -/
def firstBlock (difficulty : Nat) (behaviorProofs uncles : List BehaviorProof) : ExtBlock where
  header :=
    { validatorAddr := 1, validatorSig := replicate 64 0 ++ [1], ackCountList := [⟨0, 0⟩]
      acksHash := calcAckHash plainCrypto [], behaviorProofs := behaviorProofs
      parentHash := genesisHash, uncleHash := calcBehaviorProofUncleHash plainCrypto []
      difficulty := some difficulty, number := 1, gasLimit := 8000000, time := 1001, extra := [0] }
  acks := []
  transactions := []
  uncles := []
  behaviorProofUncles := uncles

/-- A proof that anyone can make up: only the number is looked at. -/
def forgedProof : BehaviorProof := { number := 0, mixDigest := 7, nonce := 0, miner := 1 }

theorem firstBlock_sized : (firstBlock 1 [] []).Sized :=
  ⟨by decide +kernel, by decide +kernel, by decide +kernel, fun _ h => absurd h not_mem_nil⟩

theorem firstBlock_collisionFree :
    (firstBlock 1 [] []).CollisionFree plainCrypto plainHasher (firstBlock 1 [] [forgedProof]) :=
  { header := fun _ => congrArg Header.rlp (show (firstBlock 1 [] []).header = _ from rfl)
    acks := fun _ => congrArg ackBytes (show (firstBlock 1 [] []).acks = _ from rfl)
    uncles := fun h => absurd h (by decide +kernel)
    transactions := fun _ => rfl }

theorem firstBlock_verified :
    (genesisBlocks [{ owner := 1 }]).verifyHeader (firstBlock 1 [] []).header 2000 = .ok () := by
  decide +kernel

theorem firstBlock_accepted :
    (genesisBlocks [{ owner := 1 }]).validateBody plainHasher (firstBlock 1 [] []) = .ok () := by
  decide +kernel

theorem forgedBlock_accepted :
    (genesisBlocks [{ owner := 1 }]).validateBody plainHasher (firstBlock 1 [] [forgedProof]) =
      .ok () := by
  decide +kernel

/-- The digests of no uncles and of one differ. -/
theorem block_determined_iff_forged :
    ¬ ((firstBlock 1 [] []).transactions = (firstBlock 1 [] [forgedProof]).transactions ∧
      (firstBlock 1 [] []).acks = (firstBlock 1 [] [forgedProof]).acks ∧
      (firstBlock 1 [] []).behaviorProofUncles =
        (firstBlock 1 [] [forgedProof]).behaviorProofUncles ∧
      ∀ process, (firstBlock 1 [] []).executed process =
        (firstBlock 1 [] [forgedProof]).executed process) := by
  rw [block_determined_iff _ _ firstBlock_collisionFree firstBlock_sized rfl firstBlock_accepted
    forgedBlock_accepted]
  decide +kernel

/-- **Two bodies for one header, and two states.**  Both blocks pass every check; the forged uncle
of the second is paid. -/
theorem uncles_not_determined :
    (firstBlock 1 [] []).header = (firstBlock 1 [] [forgedProof]).header ∧
    (genesisBlocks [{ owner := 1 }]).verifyHeader (firstBlock 1 [] []).header 2000 = .ok () ∧
    (genesisBlocks [{ owner := 1 }]).validateBody plainHasher (firstBlock 1 [] []) = .ok () ∧
    (genesisBlocks [{ owner := 1 }]).validateBody plainHasher (firstBlock 1 [] [forgedProof]) =
      .ok () ∧
    (firstBlock 1 [] []).behaviorProofUncles ≠ (firstBlock 1 [] [forgedProof]).behaviorProofUncles ∧
    (((firstBlock 1 [] []).executed fun _ _ => rewardState).world 1).map StateObject.balance =
      some 1000000000000000000 ∧
    (((firstBlock 1 [] [forgedProof]).executed fun _ _ => rewardState).world 1).map
      StateObject.balance = some 1500000000000000000 :=
  ⟨rfl, firstBlock_verified, firstBlock_accepted,
    forgedBlock_accepted, by decide, by decide +kernel, by decide +kernel⟩

end ProbeChain
