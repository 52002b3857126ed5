/-
# Whether importing a block returns

Header verification, `ValidateBody` and `CheckAcks` read fields that the sender of a block is free
to choose.  Each can panic: `encodeSigHeader` drops the last byte of `Extra`, `CalcBaseFee` reads
the base fee of the real parent, `CheckIsProducerAccount` dereferences the validator that
`GetSealValidator` may not find, and `CheckAcks` dereferences the parent block.

`import_returns_iff` is the list of all the ways, for every block and every chain: an empty `Extra`,
a real parent without the base fee it should have, no validators, and a parent of which only the
header is known.  The first is up to the sender alone.
-/
import ProbeChain.Consensus.Body

namespace ProbeChain

open Check UInt64

/-! ## 1. Panics -/

/-- The run-time panics among the errors. -/
def HeaderError.IsPanic (e : HeaderError) : Prop :=
  e = .sliceOutOfRange ∨ e = .nilPointer ∨ e = .divideByZero

def BlockError.IsPanic : BlockError → Prop
  | .header e => e.IsPanic
  | .nilPointer => True
  | .divideByZero => True
  | _ => False

/-! ## 2. Header verification -/

variable {K : Crypto} {c : Engine} {config : ChainConfig} {header parent : Header}

theorem pobRLP_eq_none : header.pobRLP = none ↔ header.extra = [] := by
  unfold Header.pobRLP
  split <;> simp [*]

theorem exists_unmarshalPublicKey (hlen : header.validatorSig.length = dilithiumSigLen) :
    ∃ pub, K.unmarshalPublicKey (header.validatorSig.take Crypto.dilithiumPublicKeySize) =
      some pub := by
  have htake : (header.validatorSig.take Crypto.dilithiumPublicKeySize).length =
      Crypto.dilithiumPublicKeySize := by
    rw [List.length_take, hlen]
    rfl
  exact ⟨_, if_pos htake⟩

/-- A key of the right length is always read, so the header is encoded in both schemes. -/
theorem recoverOwner_eq_sliceOutOfRange :
    recoverOwner K header = .error .sliceOutOfRange ↔ header.extra = [] := by
  rw [← pobRLP_eq_none]
  unfold recoverOwner
  by_cases hlen : header.validatorSig.length = dilithiumSigLen
  · obtain ⟨pub, hpub⟩ := exists_unmarshalPublicKey (K := K) hlen
    rw [if_pos hlen]
    dsimp only
    rw [hpub]
    cases hrlp : header.pobRLP with
    | none => exact iff_of_true rfl rfl
    | some rlp =>
      refine iff_of_false ?_ (Option.some_ne_none rlp)
      simp only [getOr, bind, Except.bind, require]
      split
      next hverify =>
        split at hverify
        · cases hverify
        · cases hverify
          rintro ⟨⟩
      · rintro ⟨⟩
  · rw [if_neg hlen]
    cases hrlp : header.pobRLP with
    | none => exact iff_of_true rfl rfl
    | some rlp =>
      refine iff_of_false ?_ (Option.some_ne_none rlp)
      simp only [getOr, bind, Except.bind]
      split <;> rintro ⟨⟩

theorem avoids_checkSigner :
    Avoids HeaderError.IsPanic (checkSigner K header) ↔ header.extra ≠ [] := by
  rw [ne_eq, ← recoverOwner_eq_sliceOutOfRange (K := K)]
  unfold checkSigner
  cases recoverOwner K header with
  | ok addr => simp [HeaderError.IsPanic]
  | error e => cases e <;> simp [HeaderError.IsPanic]

theorem avoids_checkExtra (hepoch : c.pobConfig.epoch ≠ 0) :
    Avoids HeaderError.IsPanic (checkExtra c header) := by
  simp [checkExtra, avoids_then, hepoch, HeaderError.IsPanic]

theorem avoids_checkTime {uncle : Bool} {unixNow : Int64} :
    Avoids HeaderError.IsPanic (checkTime config header parent uncle unixNow) := by
  simp [checkTime, avoids_then, HeaderError.IsPanic]

theorem avoids_checkDifficulty : Avoids HeaderError.IsPanic (checkDifficulty c header) := by
  simp [checkDifficulty, HeaderError.IsPanic]

theorem avoids_checkAtomicTime : Avoids HeaderError.IsPanic (checkAtomicTime header) := by
  unfold checkAtomicTime
  split
  · exact avoids_ok _
  · simp [avoids_bind, HeaderError.IsPanic]

theorem avoids_verifyGaslimit {limit headerLimit : UInt64} :
    Avoids HeaderError.IsPanic (verifyGaslimit limit headerLimit) := by
  simp [verifyGaslimit, avoids_then, HeaderError.IsPanic]

theorem gasTarget_ne_zero {limit headerLimit : UInt64}
    (h : verifyGaslimit limit headerLimit = .ok ()) : limit / elasticityMultiplier ≠ 0 := by
  simp only [verifyGaslimit, require_bind_eq_ok, require_eq_ok] at h
  have hbound := UInt64.lt_iff_toNat_lt.mp h.1
  have hdivisor : (limit / gasLimitBoundDivisor).toNat = limit.toNat / 1024 := UInt64.toNat_div _ _
  have htarget : (limit / elasticityMultiplier).toNat = limit.toNat / 2 := UInt64.toNat_div _ _
  intro hzero
  rw [hzero, UInt64.toNat_zero] at htarget
  omega

/-- A gas limit within its bounds leaves a gas target, so only the base fee itself can be
missing. -/
theorem avoids_calcBaseFee (hbounds : config.isLondon parent.number = true →
      verifyGaslimit parent.gasLimit header.gasLimit = .ok ()) :
    Avoids HeaderError.IsPanic (calcBaseFee config parent) ↔
      (config.isLondon parent.number = true → parent.baseFee.isSome) := by
  unfold calcBaseFee
  by_cases hlondon : config.isLondon parent.number = true
  · have htarget := gasTarget_ne_zero (hbounds hlondon)
    rw [if_neg (by simp [hlondon])]
    cases hfee : parent.baseFee with
    | none => simp [hlondon, getOr, bind, Except.bind, HeaderError.IsPanic]
    | some fee =>
      refine iff_of_true ?_ (fun _ => rfl)
      simp only [getOr, bind, Except.bind]
      split
      · exact avoids_ok _
      · split
        · rw [require, if_pos htarget]
          exact avoids_ok _
        · exact avoids_ok _
  · rw [if_pos (by simpa using hlondon)]
    simp [hlondon]

/-- Every check before the base fee of the real parent is read has passed. -/
structure ReadsBaseFee (K : Crypto) (c : Engine) (config : ChainConfig) (header parent : Header)
    (unixNow : Int64) : Prop where
  signer : checkSigner K header = .ok ()
  extra : checkExtra c header = .ok ()
  time : checkTime config header parent false unixNow = .ok ()
  difficulty : checkDifficulty c header = .ok ()
  gasLimit : header.gasLimit ≤ gasLimitCap
  gasUsed : header.gasUsed ≤ header.gasLimit
  london : config.isLondon header.number = true
  bounds : verifyGaslimit parent.gasLimit header.gasLimit = .ok ()
  baseFee : header.baseFee.isSome
  parentLondon : config.isLondon parent.number = true

theorem avoids_verifyEip1559Header :
    Avoids HeaderError.IsPanic (verifyEip1559Header config parent header) ↔
      (config.isLondon parent.number = true →
        verifyGaslimit parent.gasLimit header.gasLimit = .ok () → header.baseFee.isSome →
        parent.baseFee.isSome) := by
  unfold verifyEip1559Header
  rw [avoids_then]
  simp only [avoids_verifyGaslimit, true_and]
  constructor
  · intro h hparent hbounds hfee
    obtain ⟨fee, hfee⟩ := Option.isSome_iff_exists.mp hfee
    rw [if_pos hparent, hfee] at h
    have hcalc := (avoids_bind.mp ((avoids_bind.mp (h hbounds)).2 fee rfl)).1
    exact (avoids_calcBaseFee fun _ => hbounds).mp hcalc hparent
  · intro h hlimit
    have hbounds : config.isLondon parent.number = true →
        verifyGaslimit parent.gasLimit header.gasLimit = .ok () := fun hparent => by
      rwa [if_pos hparent] at hlimit
    refine avoids_bind.mpr ⟨by simp [HeaderError.IsPanic], fun fee hfee => ?_⟩
    have hsome : header.baseFee.isSome := by
      cases hheader : header.baseFee with
      | none => rw [hheader] at hfee; cases hfee
      | some _ => rfl
    refine avoids_bind.mpr ⟨?_, fun _ _ => by simp [HeaderError.IsPanic]⟩
    exact (avoids_calcBaseFee hbounds).mpr fun hparent => h hparent (hbounds hparent) hsome

theorem avoids_checkGas : Avoids HeaderError.IsPanic (checkGas config header parent) ↔
    (header.gasLimit ≤ gasLimitCap → header.gasUsed ≤ header.gasLimit →
      config.isLondon header.number = true → config.isLondon parent.number = true →
      verifyGaslimit parent.gasLimit header.gasLimit = .ok () → header.baseFee.isSome →
      parent.baseFee.isSome) := by
  unfold checkGas
  rw [avoids_then, avoids_then]
  simp only [avoids_require, require_eq_ok]
  by_cases hlondon : config.isLondon header.number = true
  · rw [if_neg (by simp [hlondon])]
    simp only [avoids_verifyEip1559Header, hlondon, HeaderError.IsPanic]
    tauto
  · rw [if_pos (by simpa using hlondon)]
    simp [avoids_then, avoids_verifyGaslimit, hlondon, HeaderError.IsPanic]

/-- **Header verification** panics on an empty `Extra` and on a real parent without its base fee. -/
theorem avoids_verifyHeader (hepoch : c.pobConfig.epoch ≠ 0) {unixNow diff : Int64} :
    Avoids HeaderError.IsPanic (verifyHeader K c config header parent false unixNow diff) ↔
      header.extra ≠ [] ∧
        (ReadsBaseFee K c config header parent unixNow → parent.baseFee.isSome) := by
  unfold verifyHeader
  simp only [avoids_then, avoids_checkSigner, avoids_checkExtra hepoch, avoids_checkTime,
    avoids_checkDifficulty, avoids_checkGas, avoids_require, avoids_checkAtomicTime, true_and]
  constructor
  · rintro ⟨hextra, h⟩
    refine ⟨hextra, fun r => ?_⟩
    exact (h r.signer r.extra r.time r.difficulty).1 r.gasLimit r.gasUsed r.london r.parentLondon
      r.bounds r.baseFee
  · rintro ⟨hextra, h⟩
    refine ⟨hextra, fun hsigner hexact htime hdifficulty => ⟨?_, fun _ => ⟨?_, fun _ => trivial⟩⟩⟩
    · intro hlimit hused hlondon hparent hbounds hfee
      exact h ⟨hsigner, hexact, htime, hdifficulty, hlimit, hused, hlondon, hbounds, hfee, hparent⟩
    · simp [HeaderError.IsPanic]

/-! ## 3. Bodies -/

theorem isSome_checkAcks {K : Crypto} {bc : Chain} {block : Block} :
    (checkAcks K bc block).isSome ↔
      (bc.getBlock block.header.parentHash (ofNat block.header.number - 1)).isSome := by
  unfold checkAcks
  dsimp only
  cases bc.getBlock block.header.parentHash (ofNat block.header.number - 1) with
  | none => rfl
  | some parent =>
    dsimp only
    split <;> simp

namespace BlockChain

variable {bc : BlockChain K config} {T : TrieHasher} {block : ExtBlock}

theorem avoids_verifyHeader {header : Header} {unixNow : Int64} :
    Avoids BlockError.IsPanic (bc.verifyHeader header unixNow) ↔
      ∀ parent diff, bc.findRealParentHeader header.parentHash
          (ofNat header.number - 1).toNat 1 = some (parent, diff) →
        header.extra ≠ [] ∧
          (ReadsBaseFee K bc.engine config header parent unixNow → parent.baseFee.isSome) := by
  cases hreal : bc.findRealParentHeader header.parentHash
      (ofNat header.number - 1).toNat 1 with
  | none =>
    unfold verifyHeader
    rw [hreal]
    simp [BlockError.IsPanic]
  | some p =>
    obtain ⟨parent, diff⟩ := p
    rw [verifyHeader_eq hreal, avoids_mapError]
    refine (ProbeChain.avoids_verifyHeader bc.engine_epoch).trans ⟨fun h _ _ heq => ?_, fun h => ?_⟩
    · cases heq
      exact h
    · exact h parent diff rfl

/-- A list that is not empty is one of a configuration with an epoch. -/
theorem avoids_checkIsProducerAccount {number : UInt64} {owner : Address} :
    Avoids BlockError.IsPanic (bc.checkIsProducerAccount number owner) ↔
      bc.getValidators number ≠ [] := by
  unfold checkIsProducerAccount
  cases hvalidators : bc.getValidators number with
  | nil => simp [BlockError.IsPanic]
  | cons account accounts =>
    have hepoch : bc.epoch ≠ 0 := fun hzero => by
      rw [bc.no_epoch hzero] at hvalidators
      cases hvalidators
    refine iff_of_true ?_ (by simp)
    rw [avoids_then]
    exact ⟨by simp [hepoch], fun _ => avoids_ok _⟩

/-- The body gets as far as its producer. -/
structure ChecksProducer (bc : BlockChain K config) (block : ExtBlock) : Prop where
  unknown : bc.hasBlockAndState (block.header.hash K) (ofNat block.header.number) = false
  uncles : block.uncles.length = 0
  proofs : bc.verifyUncleBehaviorProofs block = .ok ()

/-- **`ValidateBody`**, when the parent block is known: it panics where there are no validators. -/
theorem avoids_validateBody (hparent : (checkAcks K bc.toChain block.toBlock).isSome) :
    Avoids BlockError.IsPanic (bc.validateBody T block) ↔
      (bc.ChecksProducer block → bc.getValidators (ofNat block.header.number) ≠ []) := by
  have hproofs : Avoids BlockError.IsPanic (bc.verifyUncleBehaviorProofs block) := by
    simp [verifyUncleBehaviorProofs, BlockError.IsPanic]
  have hinfo : Avoids BlockError.IsPanic (bc.verifyValidatorInfo block) ↔
      bc.getValidators (ofNat block.header.number) ≠ [] := by
    unfold verifyValidatorInfo
    rw [avoids_bind, avoids_checkIsProducerAccount]
    refine and_iff_left fun isProducer _ => ?_
    simp [avoids_bind, hparent, BlockError.IsPanic]
  have hrest : ∀ (p : Prop) [Decidable p], Avoids BlockError.IsPanic
      (require p (if bc.hasBlock block.header.parentHash (ofNat block.header.number - 1) then
        BlockError.prunedAncestor else .unknownAncestor)) := fun p _ => by
    rw [avoids_require]
    split <;> exact False.elim
  unfold validateBody
  simp only [avoids_then, avoids_require, require_eq_ok, hproofs, hinfo, hrest]
  constructor
  · rintro ⟨-, h⟩ ⟨hunknown, huncles, hok⟩
    exact ((h hunknown).2 huncles |>.2 hok).1
  · intro h
    refine ⟨False.elim, fun hunknown => ⟨False.elim, fun huncles => ⟨trivial, fun hok => ?_⟩⟩⟩
    exact ⟨h ⟨hunknown, huncles, hok⟩, fun _ => ⟨False.elim, fun _ => trivial⟩⟩

/-! ## 4. All the ways to panic -/

/-- **Importing a block returns a verdict**, whatever the block and the chain, if and only if its
`Extra` is not empty and the real parent has its base fee (as far as header verification gets to
them), there are validators for its number (as far as `ValidateBody` gets to them), and the parent
block is there and not only its header. -/
theorem import_returns_iff {K : Crypto} {config : ChainConfig} (bc : BlockChain K config)
    (T : TrieHasher) (block : ExtBlock) (unixNow : Int64) :
    (Avoids BlockError.IsPanic (bc.verifyHeader block.header unixNow) ∧
      Avoids BlockError.IsPanic (bc.validateBody T block) ∧
      (checkAcks K bc.toChain block.toBlock).isSome) ↔
    (∀ parent diff, bc.findRealParentHeader block.header.parentHash
        (ofNat block.header.number - 1).toNat 1 = some (parent, diff) →
      block.header.extra ≠ [] ∧
        (ReadsBaseFee K bc.engine config block.header parent unixNow → parent.baseFee.isSome)) ∧
    (bc.ChecksProducer block → bc.getValidators (ofNat block.header.number) ≠ []) ∧
    (bc.getBlock block.header.parentHash (ofNat block.header.number - 1)).isSome := by
  rw [avoids_verifyHeader, ← isSome_checkAcks (K := K)]
  refine and_congr_right fun _ => and_congr_left fun hparent => ?_
  exact avoids_validateBody hparent

end BlockChain

/-- A block on the genesis block with an empty `Extra`. -/
def blankBlock : ExtBlock :=
  { firstBlock 1 [] [] with header := { (firstBlock 1 [] []).header with extra := [] } }

/-- The genesis block before its body has been received. -/
def headersOnly : BlockChain plainCrypto ⟨none, none⟩ :=
  { genesisBlocks [{ owner := 1 }] with
    getBlock := fun _ _ => none
    hasBlock := fun _ _ => false }

/-- **Three ways to bring a node down**, all with a parent whose header it knows. -/
theorem import_panics :
    (genesisBlocks [{ owner := 1 }]).getHeader blankBlock.header.parentHash 0 = some genesisHeader ∧
    (genesisBlocks [{ owner := 1 }]).verifyHeader blankBlock.header 2000 =
      .error (.header .sliceOutOfRange) ∧
    (genesisBlocks []).validateBody plainHasher (firstBlock 1 [] []) = .error .nilPointer ∧
    headersOnly.getHeader (firstBlock 1 [] []).header.parentHash 0 = some genesisHeader ∧
    checkAcks plainCrypto headersOnly.toChain (firstBlock 1 [] []).toBlock = none :=
  ⟨genesisBlocks_getHeader _, by decide +kernel, by decide +kernel,
    genesisBlocks_getHeader [{ owner := 1 }], rfl⟩

end ProbeChain
