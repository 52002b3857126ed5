/-
# Header verification

`verifyHeader` and `RecoverOwner` of `consensus/pob/pob.go`, `consensus/misc/gaslimit.go`,
`consensus/misc/eip1559.go` and the decoder of `core/atomic/clock_sync.go`.  A header is checked
against its real parent, the nearest ancestor that is not visual.

`RecoverOwner` returns the zero address, and NO error, when the owner of an ECDSA signature cannot
be recovered.  A header that names the zero address as its producer therefore needs no signature;
`verifyHeader_genuine_iff` says that nothing else gets through.
-/
import ProbeChain.Lib.Check
import ProbeChain.Consensus.Snapshot

namespace ProbeChain

open BigEndian Check

/-! ## 1. Errors and configuration -/

/-- Named for the texts of the errors.  The last three are run-time panics. -/
inductive HeaderError where
  | invalidDilithiumPubkey
  | invalidDilithiumSignature
  | validatorAddr
  | extraValidators
  | futureBlock
  | olderBlockTime
  | invalidDifficulty
  | invalidGasLimit
  | invalidGasUsed
  | baseFeeBeforeFork
  | gasLimitBounds
  | gasLimitBelowMin
  | missingBaseFee
  | invalidBaseFee
  | invalidNumber
  | atomicTimeEncoding
  | atomicTimeDiverges
  | sliceOutOfRange
  | nilPointer
  | divideByZero
  deriving DecidableEq, Repr

structure ChainConfig where
  londonBlock : Option Nat
  stellarSpeedBlock : Option Nat
  deriving DecidableEq

def ChainConfig.isLondon (c : ChainConfig) (number : Nat) : Bool := isForked c.londonBlock number

def ChainConfig.isStellarSpeed (c : ChainConfig) (number : Nat) : Bool :=
  isForked c.stellarSpeedBlock number

/-- `fakeDiff` is set by the engines for tests. -/
structure Engine where
  pobConfig : PobConfig
  fakeDiff : Bool := false
  deriving DecidableEq

/-! ## 2. The producer's signature -/

def dilithiumSigLen : Nat := Crypto.dilithiumPublicKeySize + Crypto.dilithiumSignatureSize

/-- A signature of the length of a Dilithium key and signature is read as these, any other as an
ECDSA signature. -/
def recoverOwner (K : Crypto) (header : Header) : Except HeaderError Address :=
  if header.validatorSig.length = dilithiumSigLen then do
    let pubBytes := header.validatorSig.take Crypto.dilithiumPublicKeySize
    let sigBytes := header.validatorSig.drop Crypto.dilithiumPublicKeySize
    let pub ← getOr (K.unmarshalPublicKey pubBytes) .invalidDilithiumPubkey
    let rlp ← getOr header.pobRLP .sliceOutOfRange
    require (K.verify pub (Hash.bytes (K.keccak256 rlp)) sigBytes = true) .invalidDilithiumSignature
    return K.dilithiumPubkeyToAddress pub
  else do
    let rlp ← getOr header.pobRLP .sliceOutOfRange
    -- neither error is returned
    match (K.recoverPubkey (K.keccak256 rlp) header.validatorSig).bind K.unmarshalPubkey with
    | some publicKey => return K.pubkeyToAddress publicKey
    | none => return 0

/-- Whatever the error, it is reported as this one. -/
def checkSigner (K : Crypto) (header : Header) : Except HeaderError Unit :=
  match recoverOwner K header with
  | .ok addr => require (addr = header.validatorAddr) .validatorAddr
  | .error .sliceOutOfRange => .error .sliceOutOfRange
  | .error _ => .error .validatorAddr

/-! ## 3. Gas -/

def gasLimitBoundDivisor : UInt64 := 1024
def minGasLimit : UInt64 := 5000
def elasticityMultiplier : UInt64 := 2
def baseFeeChangeDenominator : Nat := 8
def initialBaseFee : Nat := 1000000000

/-- The difference is taken in 64-bit signed integers. -/
def verifyGaslimit (parentGasLimit headerGasLimit : UInt64) : Except HeaderError Unit := do
  let diff := parentGasLimit.toInt64 - headerGasLimit.toInt64
  let diff := if diff < 0 then diff * -1 else diff
  require (diff.toUInt64 < parentGasLimit / gasLimitBoundDivisor) .gasLimitBounds
  require (minGasLimit ≤ headerGasLimit) .gasLimitBelowMin

/-- The base fee moves towards the gas target, by at most an eighth, and not below its initial
value. -/
def calcBaseFee (config : ChainConfig) (parent : Header) : Except HeaderError Nat :=
  if config.isLondon parent.number = false then .ok initialBaseFee
  else do
    let parentGasTarget := parent.gasLimit / elasticityMultiplier
    let baseFee ← getOr parent.baseFee .nilPointer
    if parent.gasUsed = parentGasTarget then return baseFee
    else if parentGasTarget < parent.gasUsed then
      require (parentGasTarget ≠ 0) .divideByZero
      let gasUsedDelta := (parent.gasUsed - parentGasTarget).toNat
      return baseFee +
        max (baseFee * gasUsedDelta / parentGasTarget.toNat / baseFeeChangeDenominator) 1
    else
      let gasUsedDelta := (parentGasTarget - parent.gasUsed).toNat
      return max
        (baseFee - baseFee * gasUsedDelta / parentGasTarget.toNat / baseFeeChangeDenominator)
        initialBaseFee

def verifyEip1559Header (config : ChainConfig) (parent header : Header) :
    Except HeaderError Unit := do
  let parentGasLimit :=
    if config.isLondon parent.number then parent.gasLimit
      else parent.gasLimit * elasticityMultiplier
  verifyGaslimit parentGasLimit header.gasLimit
  let baseFee ← getOr header.baseFee .missingBaseFee
  let expectedBaseFee ← calcBaseFee config parent
  require (baseFee = expectedBaseFee) .invalidBaseFee

theorem verifyEip1559Header_eq_ok {config : ChainConfig} {parent header : Header} :
    verifyEip1559Header config parent header = .ok () ↔
      verifyGaslimit (if config.isLondon parent.number then parent.gasLimit
        else parent.gasLimit * elasticityMultiplier) header.gasLimit = .ok () ∧
      ∃ fee, header.baseFee = some fee ∧ calcBaseFee config parent = .ok fee := by
  rw [verifyEip1559Header, then_eq_ok, getOr_bind_eq_ok]
  simp only [bind_eq_ok, require_eq_ok]
  refine and_congr_right fun _ => ⟨?_, ?_⟩
  · rintro ⟨fee, hfee, expected, hexpected, rfl⟩
    exact ⟨fee, hfee, hexpected⟩
  · rintro ⟨fee, hfee, hexpected⟩
    exact ⟨fee, hfee, fee, hexpected, rfl⟩

/-! ## 4. The other checks -/

structure AtomicTimestamp where
  seconds : UInt64
  nanoseconds : UInt32
  clockSource : UInt8
  uncertainty : UInt32
  deriving DecidableEq

/-- Exactly 17 bytes. -/
def decodeAtomicTimestamp (data : Bytes) : Option AtomicTimestamp :=
  if data.length = 17 then
    some { seconds := UInt64.ofNat (toNat (data.take 8))
           nanoseconds := UInt32.ofNat (toNat ((data.drop 8).take 4))
           clockSource := data.getD 12 0
           uncertainty := UInt32.ofNat (toNat (data.drop 13)) }
  else none

/-- The distance of two times, in 64-bit signed integers. -/
def secondsApart (a b : UInt64) : Int64 :=
  let diff := a.toInt64 - b.toInt64
  if diff < 0 then -diff else diff

/-- Without an `AtomicTime` there is nothing to check. -/
def checkAtomicTime (header : Header) : Except HeaderError Unit :=
  if header.atomicBytes = [] then .ok ()
  else do
    let timestamp ← getOr (decodeAtomicTimestamp header.atomicBytes) .atomicTimeEncoding
    require (secondsApart timestamp.seconds header.time ≤ 60) .atomicTimeDiverges

/-- Outside checkpoints there may be registrations and nothing else. -/
def checkExtra (c : Engine) (header : Header) : Except HeaderError Unit := do
  require (c.pobConfig.epoch ≠ 0) .divideByZero
  require (UInt64.ofNat header.number % c.pobConfig.epoch = 0 ∨
    header.extra.length ≤ extraVanity + extraSeal ∨
    isValidRegistrationData header.behaviorData = true) .extraValidators

/-- In `StellarSpeed` mode blocks may have the time of their parents. -/
def checkTime (config : ChainConfig) (header parent : Header) (uncle : Bool) (unixNow : Int64) :
    Except HeaderError Unit := do
  let futureLimit : Int64 := if config.isStellarSpeed header.number then 1 else 15
  require (uncle = true ∨ header.time ≤ (unixNow + futureLimit).toUInt64) .futureBlock
  require (parent.time ≤ header.time) .olderBlockTime
  require (header.time ≠ parent.time ∨ config.isStellarSpeed header.number = true) .olderBlockTime

def checkDifficulty (c : Engine) (header : Header) : Except HeaderError Unit :=
  require (c.fakeDiff = true ∨ 0 < header.difficulty.getD 0) .invalidDifficulty

def gasLimitCap : UInt64 := 0x7fffffffffffffff

def checkGas (config : ChainConfig) (header parent : Header) : Except HeaderError Unit := do
  require (header.gasLimit ≤ gasLimitCap) .invalidGasLimit
  require (header.gasUsed ≤ header.gasLimit) .invalidGasUsed
  if config.isLondon header.number = false then
    require (header.baseFee = none) .baseFeeBeforeFork
    verifyGaslimit parent.gasLimit header.gasLimit
  else verifyEip1559Header config parent header

/-- `diff` is how many blocks the real parent is behind. -/
def verifyHeader (K : Crypto) (c : Engine) (config : ChainConfig) (header parent : Header)
    (uncle : Bool) (unixNow diff : Int64) : Except HeaderError Unit := do
  checkSigner K header
  checkExtra c header
  checkTime config header parent uncle unixNow
  checkDifficulty c header
  checkGas config header parent
  require ((header.number : Int) - parent.number = diff.toInt) .invalidNumber
  checkAtomicTime header

/-! ## 5. Genuine headers -/

variable {K : Crypto} {header : Header}

theorem checkSigner_eq_ok :
    checkSigner K header = .ok () ↔ recoverOwner K header = .ok header.validatorAddr := by
  unfold checkSigner
  cases recoverOwner K header with
  | ok addr => simp
  | error e => cases e <;> simp

theorem verifyHeader_eq_ok {c : Engine} {config : ChainConfig} {parent : Header} {uncle : Bool}
    {unixNow diff : Int64} :
    verifyHeader K c config header parent uncle unixNow diff = .ok () ↔
      checkSigner K header = .ok () ∧ checkExtra c header = .ok () ∧
      checkTime config header parent uncle unixNow = .ok () ∧ checkDifficulty c header = .ok () ∧
      checkGas config header parent = .ok () ∧ (header.number : Int) - parent.number = diff.toInt ∧
      checkAtomicTime header = .ok () := by
  unfold verifyHeader
  simp only [then_eq_ok, require_eq_ok]

/-- **The header is signed by the key of the address it names**, with one of the two schemes. -/
def Header.Genuine {K : Crypto} (S : Signatures K) (header : Header) : Prop :=
  ∃ rlp, header.pobRLP = some rlp ∧
    ((∃ k, S.ecdsa (K.keccak256 rlp) header.validatorSig k ∧
      K.pubkeyToAddress k = header.validatorAddr) ∨
    header.validatorSig.length = dilithiumSigLen ∧
      ∃ pub, K.unmarshalPublicKey (header.validatorSig.take Crypto.dilithiumPublicKeySize) =
        some pub ∧
        S.dilithium (K.keccak256 rlp) (header.validatorSig.drop Crypto.dilithiumPublicKeySize) pub ∧
        K.dilithiumPubkeyToAddress pub = header.validatorAddr)

/-- **An accepted header is genuine, unless it names the zero address and its ECDSA signature cannot
be recovered.** -/
theorem verifyHeader_genuine_iff (K : Crypto) (S : Signatures K) (c : Engine) (config : ChainConfig)
    (header parent : Header) (uncle : Bool) (unixNow diff : Int64)
    (haccepted : verifyHeader K c config header parent uncle unixNow diff = .ok ()) :
    header.Genuine S ↔ header.validatorAddr ≠ 0 ∨ header.validatorSig.length = dilithiumSigLen ∨
      ∃ rlp k, header.pobRLP = some rlp ∧
        (K.recoverPubkey (K.keccak256 rlp) header.validatorSig).bind K.unmarshalPubkey =
          some k := by
  have howner := checkSigner_eq_ok.mp (verifyHeader_eq_ok.mp haccepted).1
  unfold recoverOwner at howner
  by_cases hlen : header.validatorSig.length = dilithiumSigLen
  · -- a Dilithium signature has been verified
    refine iff_of_true ?_ (.inr (.inl hlen))
    rw [if_pos hlen] at howner
    simp only [getOr_bind_eq_ok, require_bind_eq_ok] at howner
    obtain ⟨pub, hpub, rlp, hrlp, hverify, haddr⟩ := howner
    exact ⟨rlp, hrlp, .inr ⟨hlen, pub, hpub, S.dilithium_sound hverify, Except.ok.inj haddr⟩⟩
  · rw [if_neg hlen] at howner
    simp only [getOr_bind_eq_ok] at howner
    obtain ⟨rlp, hrlp, howner⟩ := howner
    cases hkey : (K.recoverPubkey (K.keccak256 rlp) header.validatorSig).bind K.unmarshalPubkey with
    | some k =>
      -- an ECDSA key has been recovered
      rw [hkey] at howner
      obtain ⟨pubkey, hpubkey, hk⟩ := Option.bind_eq_some_iff.mp hkey
      exact iff_of_true ⟨rlp, hrlp, .inl ⟨k, S.ecdsa_sound hpubkey hk, Except.ok.inj howner⟩⟩
        (.inr (.inr ⟨rlp, k, hrlp, hkey⟩))
    | none =>
      rw [hkey] at howner
      have hzero : header.validatorAddr = 0 := (Except.ok.inj howner).symm
      refine iff_of_false ?_ ?_
      · rintro ⟨rlp', hrlp', ⟨k, hk, -⟩ | ⟨hlen', -⟩⟩
        · cases hrlp.symm.trans hrlp'
          obtain ⟨pubkey, hpubkey, hk⟩ := S.ecdsa_complete hk
          rw [hpubkey, Option.bind_some, hk] at hkey
          cases hkey
        · exact hlen hlen'
      · rintro (hne | hlen' | ⟨rlp', k, hrlp', hk⟩)
        · exact hne hzero
        · exact hlen hlen'
        · cases hrlp.symm.trans hrlp'
          rw [hkey] at hk
          cases hk

/-- A header of height one on an empty parent, by the given producer. -/
def firstHeader (validatorAddr : Address) (validatorSig : Bytes) : Header :=
  { validatorAddr := validatorAddr, validatorSig := validatorSig, number := 1, gasLimit := 5000,
    time := 1, extra := [0] }

def firstEngine : Engine := { pobConfig := ⟨30000, 0⟩ }

theorem firstHeader_genuine :
    (firstHeader 1 (List.replicate 64 0 ++ [1])).Genuine (Signatures.reported plainCrypto) :=
  (verifyHeader_genuine_iff plainCrypto (.reported plainCrypto) firstEngine ⟨none, none⟩
    (firstHeader 1 (List.replicate 64 0 ++ [1])) { gasLimit := 5000 } false 0 1 (by decide)).mpr
    (.inl (by decide))

/-- A header of the zero address without any signature is accepted. -/
theorem unsigned_header_accepted :
    verifyHeader plainCrypto firstEngine ⟨none, none⟩ (firstHeader 0 [])
      { gasLimit := 5000 } false 0 1 =
      .ok () ∧ ¬ (firstHeader 0 []).Genuine (.reported plainCrypto) := by
  refine ⟨by decide, ?_⟩
  rintro ⟨rlp, -, ⟨k, hk, -⟩ | ⟨hlen, -⟩⟩
  · obtain ⟨pubkey, hpubkey, -⟩ := (Signatures.reported plainCrypto).ecdsa_complete hk
    cases hpubkey
  · cases hlen

end ProbeChain
