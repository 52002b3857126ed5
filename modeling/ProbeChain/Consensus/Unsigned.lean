/-
# What the producer does not sign

Two headers with the same signed bytes and the same signature may differ in `Nonce`, `AtomicTime`,
`MixDigest` and the last byte of `Extra`.  Consensus acts on all of these but `MixDigest`: the nonce
is a vote, the last byte decides whether a block is visual, and `AtomicTime` whether a header is
valid.

`interchangeable_iff` says exactly when such a difference goes unnoticed.
-/
import ProbeChain.Consensus.Verify

namespace ProbeChain

open Check List Snapshot

/-! ## 1. Headers that consensus cannot tell apart -/

/-- The validators, votes, tally, recent producers and registered nodes. -/
def Snapshot.voting (s : Snapshot) :=
  (s.validators, s.votes, s.tally, s.recents, s.agents, s.physicalNodes)

/-- They lead to the same voting from every snapshot, both are visual or neither, and every engine
that verifies one of them accepts both or neither. -/
def Interchangeable (K : Crypto) (h₁ h₂ : Header) : Prop :=
  (∀ s : Snapshot, (s.apply K [h₁]).map voting = (s.apply K [h₂]).map voting) ∧
  h₁.isVisual = h₂.isVisual ∧
  ∀ c config parent uncle unixNow diff,
    verifyHeader K c config h₁ parent uncle unixNow diff = .ok () ↔
      verifyHeader K c config h₂ parent uncle unixNow diff = .ok ()

/-- `AtomicTime` is absent, or well-formed and not more than a minute away from `Time`. -/
def Header.AtomicTimeFits (h : Header) : Prop :=
  h.atomicBytes = [] ∨ ∃ timestamp, decodeAtomicTimestamp h.atomicBytes = some timestamp ∧
    secondsApart timestamp.seconds h.time ≤ 60

/-- Some engine could accept the header if only its `AtomicTime` fits: it is signed by the address
it names, and its gas is within the absolute limits. -/
def Header.Acceptable (K : Crypto) (h : Header) : Prop :=
  recoverOwner K h = .ok h.validatorAddr ∧ minGasLimit ≤ h.gasLimit ∧ h.gasLimit ≤ gasLimitCap ∧
    h.gasUsed ≤ h.gasLimit

/-- **The unsigned fields agree as far as they matter.**  Both nonces are votes for the coinbase or
neither is; if the signed part of `Extra` is that of a visual block, then both last bytes are or
neither is; and if the header is acceptable, both atomic times fit or neither does. -/
structure UnsignedAgree (K : Crypto) (h₁ h₂ : Header) : Prop where
  vote : h₁.nonce = nonceAuthVote ↔ h₂.nonce = nonceAuthVote
  visual : h₁.extra.dropLast = Header.visualBlockExtra.dropLast →
    (h₁.extra.getLast? = some 0xf2 ↔ h₂.extra.getLast? = some 0xf2)
  atomicTime : h₁.Acceptable K → (h₁.AtomicTimeFits ↔ h₂.AtomicTimeFits)

/-! ## 2. What depends on signed fields only -/

variable {K : Crypto} {h₁ h₂ : Header}

theorem length_extra_congr (hextra : h₁.extra.dropLast = h₂.extra.dropLast) (he₁ : h₁.extra ≠ [])
    (he₂ : h₂.extra ≠ []) : h₁.extra.length = h₂.extra.length := by
  have hlen := congrArg length hextra
  have h1 := length_pos_iff.mpr he₁
  have h2 := length_pos_iff.mpr he₂
  simp only [length_dropLast] at hlen
  omega

/-- The seal is cut off, and the last byte with it. -/
theorem behaviorData_eq_dropLast (h : Header) :
    h.behaviorData = (h.extra.dropLast.take (h.extra.length - extraSeal)).drop extraVanity := by
  rw [Header.behaviorData, dropLast_eq_take, take_take,
    min_eq_left (Nat.sub_le_sub_left (by decide) _)]

theorem behaviorData_congr (hextra : h₁.extra.dropLast = h₂.extra.dropLast) (he₁ : h₁.extra ≠ [])
    (he₂ : h₂.extra ≠ []) : h₁.behaviorData = h₂.behaviorData := by
  rw [behaviorData_eq_dropLast, behaviorData_eq_dropLast, hextra, length_extra_congr hextra he₁ he₂]

/-- Applying a header reads its nonce, and otherwise what is signed. -/
theorem applyHeader_congr (h : Header.SameSigned h₁ h₂) (he₁ : h₁.extra ≠ []) (he₂ : h₂.extra ≠ [])
    (hvote : h₁.nonce = nonceAuthVote ↔ h₂.nonce = nonceAuthVote) (s : Snapshot) :
    s.applyHeader h₁ = s.applyHeader h₂ := by
  have hregister (s : Snapshot) (n : UInt64) : s.registerAll n h₁ = s.registerAll n h₂ := by
    rw [registerAll, registerAll, length_extra_congr h.extra he₁ he₂,
      behaviorData_congr h.extra he₁ he₂]
  simp only [applyHeader, h.number, h.validatorAddr, h.coinbase, hvote, hregister]

theorem recoverOwner_congr (hsig : h₁.validatorSig = h₂.validatorSig)
    (hrlp : h₁.pobRLP = h₂.pobRLP) :
    recoverOwner K h₁ = recoverOwner K h₂ := by
  rw [recoverOwner, recoverOwner, hsig, hrlp]

/-! ## 3. Verification but for `AtomicTime` -/

/-- Every check of `verifyHeader` but the last. -/
def OtherChecks (K : Crypto) (c : Engine) (config : ChainConfig) (header parent : Header)
    (uncle : Bool) (unixNow diff : Int64) : Prop :=
  checkSigner K header = .ok () ∧ checkExtra c header = .ok () ∧
  checkTime config header parent uncle unixNow = .ok () ∧ checkDifficulty c header = .ok () ∧
  checkGas config header parent = .ok () ∧ (header.number : Int) - parent.number = diff.toInt

variable {c : Engine} {config : ChainConfig} {header parent : Header} {uncle : Bool}
  {unixNow diff : Int64}

theorem checkAtomicTime_eq_ok : checkAtomicTime header = .ok () ↔ header.AtomicTimeFits := by
  unfold checkAtomicTime Header.AtomicTimeFits
  by_cases hempty : header.atomicBytes = []
  · simp [hempty]
  · rw [if_neg hempty, or_iff_right hempty]
    simp only [getOr_bind_eq_ok, require_eq_ok]

theorem verifyHeader_iff_otherChecks :
    verifyHeader K c config header parent uncle unixNow diff = .ok () ↔
      OtherChecks K c config header parent uncle unixNow diff ∧ header.AtomicTimeFits := by
  simp only [verifyHeader_eq_ok, OtherChecks, checkAtomicTime_eq_ok, and_assoc]

/-- They read what is signed. -/
theorem otherChecks_congr (h : Header.SameSigned h₁ h₂) (he₁ : h₁.extra ≠ []) (he₂ : h₂.extra ≠ [])
    (hsig : h₁.validatorSig = h₂.validatorSig) (hrlp : h₁.pobRLP = h₂.pobRLP) :
    OtherChecks K c config h₁ parent uncle unixNow diff ↔
      OtherChecks K c config h₂ parent uncle unixNow diff := by
  have hsigner : checkSigner K h₁ = checkSigner K h₂ := by
    rw [checkSigner, checkSigner, recoverOwner_congr hsig hrlp, h.validatorAddr]
  have hextra : checkExtra c h₁ = checkExtra c h₂ := by
    rw [checkExtra, checkExtra, h.number, length_extra_congr h.extra he₁ he₂,
      behaviorData_congr h.extra he₁ he₂]
  have htime : checkTime config h₁ parent uncle unixNow =
      checkTime config h₂ parent uncle unixNow := by
    rw [checkTime, checkTime, h.number, h.time]
  have hdifficulty : checkDifficulty c h₁ = checkDifficulty c h₂ := by
    rw [checkDifficulty, checkDifficulty, h.difficulty]
  have hgas : checkGas config h₁ parent = checkGas config h₂ parent := by
    simp only [checkGas, verifyEip1559Header, h.gasLimit, h.gasUsed, h.number, h.baseFee]
  rw [OtherChecks, OtherChecks, hsigner, hextra, htime, hdifficulty, hgas, h.number]

theorem minGasLimit_le_of_verifyGaslimit {p g : UInt64} (h : verifyGaslimit p g = .ok ()) :
    minGasLimit ≤ g := by
  unfold verifyGaslimit at h
  simp only [require_bind_eq_ok, require_eq_ok] at h
  exact h.2

theorem acceptable_of_otherChecks (h : OtherChecks K c config header parent uncle unixNow diff) :
    header.Acceptable K := by
  obtain ⟨hsigner, -, -, -, hgas, -⟩ := h
  unfold checkGas at hgas
  simp only [require_bind_eq_ok] at hgas
  obtain ⟨hcap, hused, hgas⟩ := hgas
  refine ⟨checkSigner_eq_ok.mp hsigner, ?_, hcap, hused⟩
  split at hgas
  · exact minGasLimit_le_of_verifyGaslimit (require_bind_eq_ok.mp hgas).2
  · exact minGasLimit_le_of_verifyGaslimit (then_eq_ok.mp hgas).1

/-- A limit that stays where it is is within the bounds. -/
theorem verifyGaslimit_self {g : UInt64} (h : minGasLimit ≤ g) : verifyGaslimit g g = .ok () := by
  have hpos : (0 : UInt64) < g / gasLimitBoundDivisor := by
    have h : 5000 ≤ g.toNat := UInt64.le_iff_toNat_le.mp h
    change 0 < g.toNat / 1024
    omega
  unfold verifyGaslimit
  simp only [require_bind_eq_ok, require_eq_ok, Int64.sub_self]
  exact ⟨hpos, h⟩

/-- A parent like the header, with its gas right on target. -/
def onTarget (h : Header) : Header :=
  { number := h.number, time := h.time, gasLimit := h.gasLimit,
    gasUsed := h.gasLimit / elasticityMultiplier, baseFee := h.baseFee }

/-- `StellarSpeed` from the start, and `London` if the header has a base fee. -/
def forksOf (h : Header) : ChainConfig := ⟨h.baseFee.map fun _ => 0, some 0⟩

theorem checkGas_onTarget (hmin : minGasLimit ≤ header.gasLimit)
    (hcap : header.gasLimit ≤ gasLimitCap) (hused : header.gasUsed ≤ header.gasLimit) :
    checkGas (forksOf header) header (onTarget header) = .ok () := by
  have hlimit := verifyGaslimit_self hmin
  unfold checkGas
  simp only [require_bind_eq_ok]
  refine ⟨hcap, hused, ?_⟩
  cases hfee : header.baseFee with
  | none =>
    have hlondon (n : Nat) : (forksOf header).isLondon n = false := by
      simp [ChainConfig.isLondon, forksOf, isForked, hfee]
    rw [if_pos (hlondon _)]
    exact require_bind_eq_ok.mpr ⟨rfl, hlimit⟩
  | some fee =>
    have hlondon (n : Nat) : (forksOf header).isLondon n = true := by
      simp [ChainConfig.isLondon, forksOf, isForked, hfee]
    have hexpected : calcBaseFee (forksOf header) (onTarget header) = .ok fee := by
      simp [calcBaseFee, hlondon, onTarget, hfee, getOr]
    rw [if_neg (by simp [hlondon])]
    unfold verifyEip1559Header
    rw [hlondon, if_pos rfl, then_eq_ok]
    refine ⟨hlimit, getOr_bind_eq_ok.mpr ⟨fee, hfee, ?_⟩⟩
    exact bind_eq_ok.mpr ⟨fee, hexpected, require_eq_ok.mpr rfl⟩

/-- Every acceptable header passes them somewhere. -/
theorem exists_otherChecks (h : header.Acceptable K) :
    ∃ c config parent uncle unixNow diff,
      OtherChecks K c config header parent uncle unixNow diff := by
  obtain ⟨howner, hmin, hcap, hused⟩ := h
  refine ⟨⟨⟨1, 0⟩, true⟩, forksOf header, onTarget header, false, header.time.toInt64 - 1, 0,
    checkSigner_eq_ok.mpr howner, ?_, ?_, ?_, checkGas_onTarget hmin hcap hused, ?_⟩
  · -- with epochs of one block every block is a checkpoint
    unfold checkExtra
    rw [require_bind_eq_ok, require_eq_ok]
    exact ⟨by decide, .inl (UInt64.mod_one)⟩
  · have hspeed : (forksOf header).isStellarSpeed header.number = true := by
      simp [ChainConfig.isStellarSpeed, forksOf, isForked]
    unfold checkTime
    simp only [hspeed, if_true, require_bind_eq_ok, require_eq_ok, Int64.sub_add_cancel,
      UInt64.toUInt64_toInt64, or_true, and_true]
    exact ⟨.inr (UInt64.le_refl _), UInt64.le_refl _⟩
  · exact require_eq_ok.mpr (.inl rfl)
  · exact sub_self _

/-! ## 4. What a nonce does to a blank snapshot -/

namespace Snapshot

/-- Nobody is a validator or has voted. -/
structure Blank (s : Snapshot) : Prop where
  validators : s.validators = ∅
  votes : s.votes = []
  tally : s.tally = ∅

variable {s : Snapshot} {number : UInt64} {producer coinbase : Address}

section
variable (h : s.Blank)
include h

theorem Blank.clearVotesAtEpoch (number : UInt64) : (s.clearVotesAtEpoch number).Blank := by
  unfold Snapshot.clearVotesAtEpoch
  split
  · exact ⟨h.validators, rfl, rfl⟩
  · exact h

theorem Blank.deleteOldestRecent (number : UInt64) : (s.deleteOldestRecent number).Blank := by
  unfold Snapshot.deleteOldestRecent
  dsimp only
  split
  · exact ⟨h.validators, h.votes, h.tally⟩
  · exact h

theorem Blank.trackProducer : s.trackProducer number producer = s := by
  simp [Snapshot.trackProducer, h.validators]

theorem Blank.discardVote : s.discardVote producer coinbase = s := by
  simp [Snapshot.discardVote, h.votes]

/-- The only vote is decisive. -/
theorem Blank.settleVote_castVote (authorize : Bool) :
    (((s.castVote number producer coinbase authorize).settleVote number coinbase).validators.lookup
      coinbase).isSome = authorize := by
  cases authorize with
  | true => simp [castVote, cast, validVote, settleVote, validatorCount, h.validators, h.tally]
  | false =>
    -- nobody is voted out, and there is no tally to settle
    have hcast : s.castVote number producer coinbase false = s := by
      simp [castVote, cast, validVote, h.validators]
    have hsettle : s.settleVote number coinbase = s := by
      rw [settleVote, h.tally]
      exact if_neg (not_lt.mpr (Int.natCast_nonneg _))
    rw [hcast, hsettle, h.validators]
    rfl

/-- **A blank snapshot shows how the nonce was read.** -/
theorem Blank.applyHeader (header : Header) :
    ((s.applyHeader header).validators.lookup header.coinbase).isSome =
      decide (header.nonce = nonceAuthVote) := by
  have h := (h.clearVotesAtEpoch (.ofNat header.number)).deleteOldestRecent (.ofNat header.number)
  unfold Snapshot.applyHeader
  rw [(electorate_eq_iff.mp (electorate_registerAll _ _ header)).1, h.trackProducer, h.discardVote,
    h.settleVote_castVote]

end

end Snapshot
/-! ## 5. The theorem -/

theorem applied_voting_iff (h : Header.SameSigned h₁ h₂) (he₁ : h₁.extra ≠ [])
    (he₂ : h₂.extra ≠ []) :
    (∀ s : Snapshot, (s.apply K [h₁]).map voting = (s.apply K [h₂]).map voting) ↔
      (h₁.nonce = nonceAuthVote ↔ h₂.nonce = nonceAuthVote) := by
  constructor
  · intro hsame
    let s : Snapshot := { config := ⟨1, 0⟩, number := UInt64.ofNat h₁.number - 1, hash := 0 }
    have hblank : s.Blank := ⟨rfl, rfl, rfl⟩
    have hnumber : UInt64.ofNat h₁.number = s.number + 1 := (UInt64.sub_add_cancel _ _).symm
    have hepoch : s.config.epoch ≠ 0 := by
      change (1 : UInt64) ≠ 0
      decide
    have hs := hsame s
    rw [apply_singleton, apply_singleton, ← h.number, if_pos hnumber, if_neg hepoch,
      if_pos hnumber, if_neg hepoch] at hs
    have hvalidators : (s.applyHeader h₁).validators = (s.applyHeader h₂).validators :=
      congrArg Prod.fst (Except.ok.inj hs)
    have hread := hblank.applyHeader h₁
    rw [hvalidators, h.coinbase, hblank.applyHeader h₂] at hread
    exact (decide_eq_decide.mp hread).symm
  · intro hvote s
    rw [apply_singleton, apply_singleton, h.number,
      applyHeader_congr h he₁ he₂ hvote]
    split_ifs
    · rfl
    · simp only [Except.map, voting]
    · rfl

/-- Nothing but the marker is visual, and its last byte is `0xf2`. -/
theorem isVisual_iff (h : Header) :
    h.isVisual = true ↔
      h.extra.dropLast = Header.visualBlockExtra.dropLast ∧ h.extra.getLast? = some 0xf2 := by
  have hmarker : Header.visualBlockExtra = Header.visualBlockExtra.dropLast ++ [0xf2] := by
    decide +kernel
  rw [Header.isVisual, decide_eq_true_eq]
  constructor
  · intro hextra
    rw [hextra, hmarker]
    simp
  · rintro ⟨hsigned, hlast⟩
    obtain ⟨signed, hextra⟩ := getLast?_eq_some_iff.mp hlast
    rw [hextra, dropLast_concat] at hsigned
    rw [hmarker, hextra, hsigned]

theorem isVisual_congr_iff (h : Header.SameSigned h₁ h₂) :
    h₁.isVisual = h₂.isVisual ↔
      (h₁.extra.dropLast = Header.visualBlockExtra.dropLast →
        (h₁.extra.getLast? = some 0xf2 ↔ h₂.extra.getLast? = some 0xf2)) := by
  rw [Bool.eq_iff_iff, isVisual_iff, isVisual_iff, ← h.extra, and_congr_right_iff]

theorem accepted_iff (h : Header.SameSigned h₁ h₂) (he₁ : h₁.extra ≠ []) (he₂ : h₂.extra ≠ [])
    (hsig : h₁.validatorSig = h₂.validatorSig) (hrlp : h₁.pobRLP = h₂.pobRLP) :
    (∀ c config parent uncle unixNow diff,
      verifyHeader K c config h₁ parent uncle unixNow diff = .ok () ↔
        verifyHeader K c config h₂ parent uncle unixNow diff = .ok ()) ↔
      (h₁.Acceptable K → (h₁.AtomicTimeFits ↔ h₂.AtomicTimeFits)) := by
  simp only [verifyHeader_iff_otherChecks, otherChecks_congr h he₁ he₂ hsig hrlp,
    and_congr_right_iff]
  constructor
  · intro hsame hacceptable
    obtain ⟨c, config, parent, uncle, unixNow, diff, hchecks⟩ := exists_otherChecks hacceptable
    exact hsame _ _ _ _ _ _ ((otherChecks_congr h he₁ he₂ hsig hrlp).mp hchecks)
  · intro hfits c config parent uncle unixNow diff hchecks
    exact hfits (acceptable_of_otherChecks ((otherChecks_congr h he₁ he₂ hsig hrlp).mpr hchecks))

theorem Header.extra_ne_nil {h : Header} {b : Bytes} (e : h.pobRLP = some b) : h.extra ≠ [] := by
  intro hempty
  rw [pobRLP, if_pos hempty] at e
  cases e

/-- **Two headers signed alike are interchangeable exactly if their unsigned fields agree.**
Encodings are shorter than `2 ^ 64` bytes, as every slice is. -/
theorem interchangeable_iff (K : Crypto) (h₁ h₂ : Header) {b : Bytes} (hb : b.length < 2 ^ 64)
    (e₁ : h₁.pobRLP = some b) (e₂ : h₂.pobRLP = some b) (hsig : h₁.validatorSig = h₂.validatorSig) :
    Interchangeable K h₁ h₂ ↔ UnsignedAgree K h₁ h₂ := by
  have hsame := Header.pobRLP_inj hb e₁ e₂
  have he₁ := Header.extra_ne_nil e₁
  have he₂ := Header.extra_ne_nil e₂
  rw [Interchangeable, applied_voting_iff hsame he₁ he₂, isVisual_congr_iff hsame,
    accepted_iff hsame he₁ he₂ hsig (e₁.trans e₂.symm)]
  exact ⟨fun ⟨hvote, hvisual, hatomic⟩ => ⟨hvote, hvisual, hatomic⟩,
    fun h => ⟨h.vote, h.visual, h.atomicTime⟩⟩

theorem mixDigest_interchangeable :
    Interchangeable plainCrypto (firstHeader 1 []) { firstHeader 1 [] with mixDigest := 1 } :=
  (interchangeable_iff plainCrypto (firstHeader 1 []) { firstHeader 1 [] with mixDigest := 1 }
    (by decide +kernel) rfl rfl rfl).mpr ⟨.rfl, fun _ => .rfl, fun _ => .rfl⟩

/-- A header that proposes the address 7, signed by the address 1. -/
def proposal (nonce : BlockNonce) (last : UInt8) (atomicTime : Option Bytes) : Header :=
  { firstHeader 1 (replicate 64 0 ++ [1]) with
    coinbase := 7, nonce := nonce, atomicTime := atomicTime
    extra := Header.visualBlockExtra.dropLast ++ [last] }

/-- The only validator is the address 1. -/
def oneValidator : Snapshot :=
  { config := ⟨30000, 0⟩, number := 0, hash := 0
    validators := Finmap.singleton 1 (defaultBehaviorScore defaultInitialScore 0) }

/-- Whether the address 7 becomes a validator, the block is visual and the header is valid can be
changed after the header has been signed. -/
theorem unsigned_fields_matter :
    (∀ nonce last atomicTime,
      (proposal nonce last atomicTime).pobRLP = (proposal 0 0 none).pobRLP ∧
      (proposal nonce last atomicTime).validatorSig = (proposal 0 0 none).validatorSig ∧
      (proposal nonce last atomicTime).extra ≠ []) ∧
    ((oneValidator.apply plainCrypto [proposal 0 0 none]).map
      fun s => (s.validators.lookup 7).isSome) = .ok false ∧
    ((oneValidator.apply plainCrypto [proposal nonceAuthVote 0 none]).map
      fun s => (s.validators.lookup 7).isSome) = .ok true ∧
    (proposal 0 0 none).isVisual = false ∧ (proposal 0 0xf2 none).isVisual = true ∧
    verifyHeader plainCrypto firstEngine ⟨none, none⟩ (proposal 0 0 none) { gasLimit := 5000 }
      false 0 1 = .ok () ∧
    verifyHeader plainCrypto firstEngine ⟨none, none⟩ (proposal 0 0 (some [0])) { gasLimit := 5000 }
      false 0 1 = .error .atomicTimeEncoding := by
  refine ⟨?_, by decide +kernel, by decide +kernel, by decide +kernel, by decide +kernel,
    by decide +kernel, by decide +kernel⟩
  intro nonce last atomicTime
  have hextra : (proposal nonce last atomicTime).extra ≠ [] :=
    append_ne_nil_of_right_ne_nil _ (by simp)
  exact ⟨rfl, rfl, hextra⟩

end ProbeChain
