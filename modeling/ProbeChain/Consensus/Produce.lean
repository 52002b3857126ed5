/-
# The header a producer assembles

The part of `validatorCommitNewWork` of `miner/worker.go` that fills in the header, `CalcGasLimit`
of `core/block_validator.go` and the encoder of `core/atomic/clock_sync.go`, against the checks of
`verifyHeader`.

A header is checked against its real parent, the nearest ancestor that is not visual.  The producer
takes the gas limit from there too, but the time and the base fee from the block right before, and
it does not double the gas limit at the London fork, where the verifier asks for that.
`assembled_passes_iff` says for every chain when the two agree.
-/
import ProbeChain.Consensus.Verify

namespace ProbeChain

open BigEndian Check Option UInt64

/-! ## 1. The canonical chain -/

/-- The canonical headers by number, and all headers by hash and number.  The last two fields are
what `verifyHeader` has checked of each, and what holds of the genesis block. -/
structure HeaderChain (K : Crypto) (config : ChainConfig) where
  canonical : Nat → Option Header
  getHeader : Hash → Nat → Option Header
  stored : ∀ {n h}, canonical n = some h → getHeader (h.hash K) n = some h
  numbered : ∀ {n h}, canonical n = some h → h.number = n
  linked : ∀ {n h}, canonical (n + 1) = some h → ∃ p, canonical n = some p ∧ h.parentHash = p.hash K
  gas : ∀ {n h}, canonical n = some h →
    minGasLimit ≤ h.gasLimit ∧ h.gasUsed ≤ h.gasLimit ∧ h.gasLimit ≤ gasLimitCap
  baseFee : ∀ {n h}, canonical n = some h → config.isLondon n = true → h.baseFee.isSome

section
variable {K : Crypto} {config : ChainConfig} (bc : HeaderChain K config)

/-- `GetRealBlockByNumber` -/
def HeaderChain.getRealBlockByNumber : Nat → Option Header
  | 0 => (bc.canonical 0).bind fun h => if h.isVisual then none else some h
  | n + 1 => (bc.canonical (n + 1)).bind fun h =>
      if h.isVisual then HeaderChain.getRealBlockByNumber n else some h

/-- `FindRealParentHeader` from the parent on, which has number `n`: the real parent and how many
blocks it is behind. -/
def HeaderChain.findRealParentHeader (parentHash : Hash) (n diff : Nat) : Option (Header × Nat) :=
  (bc.getHeader parentHash n).bind fun parent =>
    if parent.isVisual then
      match n with
      | 0 => none
      | n + 1 => HeaderChain.findRealParentHeader parent.parentHash n (diff + 1)
    else some (parent, diff)

variable {bc}

/-- The real parent is on the chain. -/
theorem HeaderChain.exists_canonical_of_getReal {n : Nat} {realParent : Header}
    (h : bc.getRealBlockByNumber n = some realParent) :
    ∃ m ≤ n, bc.canonical m = some realParent := by
  induction n with
  | zero =>
    obtain ⟨b, hb, h⟩ := bind_eq_some_iff.mp h
    split at h
    · cases h
    · cases h
      exact ⟨0, le_refl _, hb⟩
  | succ n ih =>
    obtain ⟨b, hb, h⟩ := bind_eq_some_iff.mp h
    split at h
    · obtain ⟨m, hm, hc⟩ := ih h
      exact ⟨m, Nat.le_succ_of_le hm, hc⟩
    · cases h
      exact ⟨n + 1, le_refl _, hb⟩

/-- **Producer and verifier find the same real parent**, the one by number and the other by hash. -/
theorem HeaderChain.findRealParentHeader_eq {n : Nat} {parent realParent : Header}
    (hparent : bc.canonical n = some parent)
    (hreal : bc.getRealBlockByNumber n = some realParent) (diff : Nat) :
    ∃ d, bc.findRealParentHeader (parent.hash K) n diff = some (realParent, d) := by
  induction n generalizing parent diff with
  | zero =>
    rw [getRealBlockByNumber, hparent, bind_some] at hreal
    rw [findRealParentHeader, bc.stored hparent, bind_some]
    by_cases hv : parent.isVisual = true
    · rw [if_pos hv] at hreal
      cases hreal
    · rw [if_neg hv] at hreal ⊢
      cases hreal
      exact ⟨diff, rfl⟩
  | succ n ih =>
    rw [getRealBlockByNumber, hparent, bind_some] at hreal
    rw [findRealParentHeader, bc.stored hparent, bind_some]
    by_cases hv : parent.isVisual = true
    · rw [if_pos hv] at hreal ⊢
      obtain ⟨p, hp, hlink⟩ := bc.linked hparent
      rw [hlink]
      exact ih hp hreal (diff + 1)
    · rw [if_neg hv] at hreal ⊢
      cases hreal
      exact ⟨diff, rfl⟩

end

/-! ## 2. Assembling -/

/-- `GasFloor` and `GasCeil` of the miner's configuration. -/
structure MinerConfig where
  gasFloor : UInt64
  gasCeil : UInt64

def calcGasLimit (parentGasUsed parentGasLimit gasFloor gasCeil : UInt64) : UInt64 :=
  let contrib := (parentGasUsed + parentGasUsed / 2) / gasLimitBoundDivisor
  let decay := parentGasLimit / gasLimitBoundDivisor - 1
  let limit := parentGasLimit - decay + contrib
  let limit := if limit < minGasLimit then minGasLimit else limit
  if limit < gasFloor then
    let limit := parentGasLimit + decay
    if gasFloor < limit then gasFloor else limit
  else if gasCeil < limit then
    let limit := parentGasLimit - decay
    if limit < gasCeil then gasCeil else limit
  else limit

inductive BlockType where
  | effect
  | visual
  deriving DecidableEq

/-- Seconds, nanoseconds, source and uncertainty, in 17 bytes. -/
def AtomicTimestamp.encode (t : AtomicTimestamp) : Bytes :=
  ofNatWidth 8 t.seconds.toNat ++ ofNatWidth 4 t.nanoseconds.toNat ++ [t.clockSource] ++
    ofNatWidth 4 t.uncertainty.toNat

/-- `Now` with the clock of the system. -/
def atomicNow (now : Int64) (nanoseconds : UInt32) : AtomicTimestamp :=
  { seconds := now.toUInt64, nanoseconds := nanoseconds, clockSource := 0,
    uncertainty := 100000000 }

/-- The time is that of the clock, unless the parent is not behind it. -/
def producedTime (config : ChainConfig) (number : Nat) (parent : Header) (now : Int64) : UInt64 :=
  let timestamp : Int64 :=
    if config.isStellarSpeed number then
      if now.toUInt64 < parent.time then parent.time.toInt64 else now
    else
      if now.toUInt64 ≤ parent.time then (parent.time + 1).toInt64 else now
  timestamp.toUInt64

/-- The header of block `number` as `validatorCommitNewWork` assembles it at the time `now`.
`extra` is what a block that is not visual carries, registrations included; `gasUsed` is what its
transactions use. -/
def assembleHeader (K : Crypto) (config : ChainConfig) (miner : MinerConfig) (number : Nat)
    (parent realParent : Header) (newBlockType : BlockType) (now : Int64) (nanoseconds : UInt32)
    (extra : Bytes) (coinbase : Address) (gasUsed : UInt64) (difficulty : Nat) :
    Except HeaderError Header := do
  let baseFee ← if config.isLondon number then (calcBaseFee config parent).map some else .ok none
  return {
    parentHash := parent.hash K
    number := number
    gasLimit := calcGasLimit realParent.gasUsed realParent.gasLimit miner.gasFloor miner.gasCeil
    gasUsed := gasUsed
    extra := if newBlockType = .visual then Header.visualBlockExtra else extra
    time := producedTime config number parent now
    difficulty := some difficulty
    baseFee := baseFee
    atomicTime := some (atomicNow now nanoseconds).encode
    validatorAddr := coinbase }

/-! ## 3. Time -/

theorem decodeAtomicTimestamp_encode (t : AtomicTimestamp) :
    decodeAtomicTimestamp t.encode = some t := by
  have hs := toNat_ofNatWidth 8 t.seconds.toNat t.seconds.toNat_lt
  have hn := toNat_ofNatWidth 4 t.nanoseconds.toNat t.nanoseconds.toNat_lt
  have hu := toNat_ofNatWidth 4 t.uncertainty.toNat t.uncertainty.toNat_lt
  have hlen : t.encode.length = 17 := by simp [AtomicTimestamp.encode]
  unfold decodeAtomicTimestamp
  rw [if_pos hlen]
  have hsec : t.encode.take 8 = ofNatWidth 8 t.seconds.toNat := by
    simp [AtomicTimestamp.encode]
  have hnano : (t.encode.drop 8).take 4 = ofNatWidth 4 t.nanoseconds.toNat := by
    simp [AtomicTimestamp.encode]
  have hsrc : t.encode.getD 12 0 = t.clockSource := by
    simp [AtomicTimestamp.encode, List.getD_eq_getElem?_getD]
  have hunc : t.encode.drop 13 = ofNatWidth 4 t.uncertainty.toNat :=
    List.drop_left' (by simp)
  rw [hsec, hnano, hsrc, hunc, hs, hn, hu]
  simp

/-- The clock and the two parents leave room for a time that both sides accept. -/
def TimeKept (config : ChainConfig) (number : Nat) (parent realParent : Header)
    (now : Int64) : Prop :=
  if config.isStellarSpeed number then
    (parent.time ≤ now.toUInt64 ∧ now.toUInt64 ≤ (now + 1).toUInt64 ∧
      realParent.time ≤ now.toUInt64) ∨
    (now.toUInt64 < parent.time ∧ parent.time ≤ (now + 1).toUInt64 ∧
      realParent.time ≤ parent.time ∧ secondsApart now.toUInt64 parent.time ≤ 60)
  else
    (parent.time < now.toUInt64 ∧ now.toUInt64 ≤ (now + 15).toUInt64 ∧
      realParent.time < now.toUInt64) ∨
    (now.toUInt64 ≤ parent.time ∧ parent.time + 1 ≤ (now + 15).toUInt64 ∧
      realParent.time < parent.time + 1 ∧ secondsApart now.toUInt64 (parent.time + 1) ≤ 60)

theorem secondsApart_self (a : UInt64) : secondsApart a a ≤ 60 := by
  have h : secondsApart a a = 0 := by
    unfold secondsApart
    simp
  rw [h]
  decide

theorem lt_iff_le_and_ne {a b : UInt64} : a < b ↔ a ≤ b ∧ b ≠ a := by
  rw [UInt64.lt_iff_toNat_lt, UInt64.le_iff_toNat_le, Ne, ← UInt64.toNat_inj]
  omega

variable {config : ChainConfig} {header realParent : Header} {limit : Nat}

theorem checkTime_eq_ok {now : Int64} :
    checkTime config header realParent false now = .ok () ↔
      header.time ≤ (now + if config.isStellarSpeed header.number then 1 else 15).toUInt64 ∧
      realParent.time ≤ header.time ∧
      (header.time ≠ realParent.time ∨ config.isStellarSpeed header.number = true) := by
  simp only [checkTime, then_eq_ok, require_eq_ok, Bool.false_eq_true, false_or]

/-- The two checks of a header that says `AtomicTime` is when it was made. -/
theorem time_passes_iff (number : Nat)
    (parent : Header) {now : Int64} {nanoseconds : UInt32} (hnumber : header.number = number)
    (htime : header.time = producedTime config number parent now)
    (hatomic : header.atomicBytes = (atomicNow now nanoseconds).encode) :
    (checkTime config header realParent false now = .ok () ∧ checkAtomicTime header = .ok ()) ↔
      TimeKept config number parent realParent now := by
  have hne : header.atomicBytes ≠ [] := by
    rw [hatomic]
    intro h
    have hlen := congrArg List.length h
    simp [AtomicTimestamp.encode] at hlen
  have hcheck : checkAtomicTime header = .ok () ↔ secondsApart now.toUInt64 header.time ≤ 60 := by
    unfold checkAtomicTime
    rw [if_neg hne, hatomic, decodeAtomicTimestamp_encode, getOr_bind_eq_ok]
    simp [atomicNow]
  rw [checkTime_eq_ok, hcheck, htime, hnumber]
  unfold TimeKept producedTime
  by_cases hstellar : config.isStellarSpeed number = true
  · simp only [hstellar, if_true, or_true, and_true]
    by_cases hbehind : now.toUInt64 < parent.time
    · have hnot : ¬ parent.time ≤ now.toUInt64 := by
        rw [le_iff_toNat_le]
        rw [lt_iff_toNat_lt] at hbehind
        omega
      simp [hbehind, hnot, and_assoc]
    · have hle : parent.time ≤ now.toUInt64 := by
        rw [le_iff_toNat_le]
        rw [lt_iff_toNat_lt] at hbehind
        omega
      simp [hbehind, hle, secondsApart_self]
  · simp only [hstellar, if_false, or_false, Bool.false_eq_true, ← lt_iff_le_and_ne]
    by_cases hbehind : now.toUInt64 ≤ parent.time
    · have hnot : ¬ parent.time < now.toUInt64 := by
        rw [lt_iff_toNat_lt]
        rw [le_iff_toNat_le] at hbehind
        omega
      simp only [hbehind, hnot, if_true, toUInt64_toInt64, true_and, false_and, false_or,
        and_assoc]
    · have hlt : parent.time < now.toUInt64 := by
        rw [lt_iff_toNat_lt]
        rw [le_iff_toNat_le] at hbehind
        omega
      simp [hbehind, hlt, secondsApart_self]

/-! ## 4. Gas limit -/

/-- `calcGasLimit` on numbers. -/
def nextGasLimit (used limit floor ceil : Nat) : Nat :=
  let decay := limit / 1024 - 1
  let next := max (limit - decay + (used + used / 2) / 1024) 5000
  if next < floor then min (limit + decay) floor
  else if ceil < next then max (limit - decay) ceil
  else next

theorem toNat_max (a b : UInt64) : (if a < b then b else a).toNat = max a.toNat b.toNat := by
  simp only [lt_iff_toNat_lt]
  split <;> omega

theorem toNat_min (a b : UInt64) : (if b < a then b else a).toNat = min a.toNat b.toNat := by
  simp only [lt_iff_toNat_lt]
  split <;> omega

/-- What the sums come to for a parent that has passed the gas checks. -/
theorem gasLimit_sums_lt {used : Nat} (hused : used ≤ limit) (hcap : limit ≤ 9223372036854775807) :
    used + used / 2 < 2 ^ 64 ∧ limit + (limit / 1024 - 1) < 2 ^ 64 ∧
      limit - (limit / 1024 - 1) + (used + used / 2) / 1024 < 2 ^ 64 := by
  refine ⟨?_, ?_, ?_⟩ <;> omega

/-- For a parent that has passed the gas checks nothing wraps around. -/
theorem toNat_calcGasLimit {used limit : UInt64} (floor ceil : UInt64) (hmin : minGasLimit ≤ limit)
    (hused : used ≤ limit) (hcap : limit ≤ gasLimitCap) :
    (calcGasLimit used limit floor ceil).toNat =
      nextGasLimit used.toNat limit.toNat floor.toNat ceil.toNat := by
  obtain ⟨hused', hup', hnext'⟩ := gasLimit_sums_lt (UInt64.le_iff_toNat_le.mp hused)
    (le_iff_toNat_le.mp hcap)
  have hcontrib : ((used + used / 2) / gasLimitBoundDivisor).toNat =
      (used.toNat + used.toNat / 2) / 1024 := by
    show (used.toNat + used.toNat / 2) % 2 ^ 64 / 1024 = _
    rw [Nat.mod_eq_of_lt hused']
  have hdecay : (limit / gasLimitBoundDivisor - 1).toNat = limit.toNat / 1024 - 1 := by
    have hdiv : (limit / gasLimitBoundDivisor).toNat = limit.toNat / 1024 := UInt64.toNat_div _ _
    have hone : 1 ≤ limit.toNat / 1024 :=
      (Nat.le_div_iff_mul_le (by decide)).mpr (le_trans (by decide) (le_iff_toNat_le.mp hmin))
    rw [UInt64.toNat_sub_of_le _ _ (by rw [UInt64.le_iff_toNat_le, hdiv]; exact hone), hdiv]
    rfl
  unfold calcGasLimit nextGasLimit
  generalize (used + used / 2) / gasLimitBoundDivisor = contrib at hcontrib
  generalize limit / gasLimitBoundDivisor - 1 = decay at hdecay
  have hdown : (limit - decay).toNat = limit.toNat - (limit.toNat / 1024 - 1) := by
    have hle : decay ≤ limit := by
      rw [le_iff_toNat_le, hdecay]
      exact (Nat.sub_le _ _).trans (Nat.div_le_self _ _)
    rw [UInt64.toNat_sub_of_le _ _ hle, hdecay]
  have hup : (limit + decay).toNat = limit.toNat + (limit.toNat / 1024 - 1) := by
    rw [UInt64.toNat_add, hdecay, Nat.mod_eq_of_lt hup']
  have hclamped : (if limit - decay + contrib < minGasLimit then minGasLimit
      else limit - decay + contrib).toNat = max (limit.toNat - (limit.toNat / 1024 - 1) +
        (used.toNat + used.toNat / 2) / 1024) 5000 := by
    rw [toNat_max, UInt64.toNat_add, hdown, hcontrib, Nat.mod_eq_of_lt hnext']
    rfl
  dsimp only
  generalize (if limit - decay + contrib < minGasLimit then minGasLimit
    else limit - decay + contrib) = next at hclamped
  rw [apply_ite UInt64.toNat, toNat_min, apply_ite UInt64.toNat, toNat_max, hup, hdown, hclamped]
  simp only [lt_iff_toNat_lt, hclamped]

theorem int64_neg_iff (x : Int64) : x < 0 ↔ 2 ^ 63 ≤ x.toUInt64.toNat := by
  have hbits : x.toUInt64.toNat = x.toBitVec.toNat := rfl
  rw [Int64.lt_iff_toInt_lt, hbits, show x.toInt = x.toBitVec.toInt from rfl,
    BitVec.toInt_eq_toNat_cond]
  simp only [Int64.toInt_zero]
  split <;> omega

/-- The bounds of the gas limit.  Limits more than half the range apart count as close. -/
theorem verifyGaslimit_eq_ok {a b : UInt64} : verifyGaslimit a b = .ok () ↔
    min ((a.toNat - b.toNat) + (b.toNat - a.toNat))
      (2 ^ 64 - ((a.toNat - b.toNat) + (b.toNat - a.toNat))) < a.toNat / 1024 ∧
      5000 ≤ b.toNat := by
  have hdiff : (a.toInt64 - b.toInt64).toUInt64 = a - b := by simp
  have hneg : ((a.toInt64 - b.toInt64) * -1).toUInt64 = b - a := by
    have hone : (a.toInt64 - b.toInt64) * -1 = b.toInt64 - a.toInt64 := by
      rw [Int64.mul_neg, Int64.mul_one, Int64.neg_sub]
    rw [hone]
    simp
  have habs : (if a.toInt64 - b.toInt64 < 0 then (a.toInt64 - b.toInt64) * -1
      else a.toInt64 - b.toInt64).toUInt64.toNat = min ((a.toNat - b.toNat) + (b.toNat - a.toNat))
        (2 ^ 64 - ((a.toNat - b.toNat) + (b.toNat - a.toNat))) := by
    have ha := a.toNat_lt
    have hb := b.toNat_lt
    split
    next hlt =>
      rw [int64_neg_iff, hdiff, UInt64.toNat_sub] at hlt
      rw [hneg, UInt64.toNat_sub]
      omega
    next hge =>
      rw [int64_neg_iff, hdiff, UInt64.toNat_sub] at hge
      rw [hdiff, UInt64.toNat_sub]
      omega
  unfold verifyGaslimit
  simp only [require_bind_eq_ok, require_eq_ok]
  rw [UInt64.lt_iff_toNat_lt, habs, UInt64.toNat_div, UInt64.le_iff_toNat_le]
  rfl

/-- The limit moves by less than the verifier allows, and stays in range: it does unless the parent
has one of the smallest limits and is full, the ceiling is below the minimum, or the cap is in
reach. -/
def GasKept (miner : MinerConfig) (realParent : Header) : Prop :=
  let used := realParent.gasUsed.toNat
  let limit := realParent.gasLimit.toNat
  let decay := limit / 1024 - 1
  let next := max (limit - decay + (used + used / 2) / 1024) 5000
  if next < miner.gasFloor.toNat then
    limit + decay < 2 ^ 63 ∨ miner.gasFloor.toNat < 2 ^ 63
  else if miner.gasCeil.toNat < next then
    (5000 ≤ miner.gasCeil.toNat ∨ 5000 ≤ limit - decay) ∧ miner.gasCeil.toNat < 2 ^ 63
  else next < 2 ^ 63 ∧ ¬ (limit < 5120 ∧ 4779 ≤ used)

/-- Up or down, the next limit is within an eighth of a percent of the last. -/
theorem nextGasLimit_bounds {used : Nat} (floor ceil : Nat) (hmin : 5000 ≤ limit)
    (hused : used ≤ limit) :
    limit - (limit / 1024 - 1) ≤ nextGasLimit used limit floor ceil ∧
      nextGasLimit used limit floor ceil ≤ limit + limit / 1024 := by
  unfold nextGasLimit
  dsimp only
  split
  · omega
  · split <;> omega

/-- Within these bounds the verifier refuses only the largest step. -/
theorem gasDistance_lt_iff {next : Nat} (hcap : limit ≤ 9223372036854775807)
    (hmin : 5000 ≤ limit) (hlow : limit - (limit / 1024 - 1) ≤ next)
    (hhigh : next ≤ limit + limit / 1024) :
    min ((limit - next) + (next - limit)) (2 ^ 64 - ((limit - next) + (next - limit))) <
      limit / 1024 ↔
      next < limit + limit / 1024 := by
  have hsmall : limit / 1024 ≤ limit := Nat.div_le_self _ _
  generalize limit / 1024 = step at *
  omega

section
variable (miner : MinerConfig) (hmin : minGasLimit ≤ realParent.gasLimit)
  (hused : realParent.gasUsed ≤ realParent.gasLimit) (hcap : realParent.gasLimit ≤ gasLimitCap)
include hmin hused hcap

theorem calcGasLimit_bounds :
    let limit := realParent.gasLimit.toNat
    let next :=
      (calcGasLimit realParent.gasUsed realParent.gasLimit miner.gasFloor miner.gasCeil).toNat
    5000 ≤ limit ∧ realParent.gasUsed.toNat ≤ limit ∧ limit ≤ 9223372036854775807 ∧
      limit - (limit / 1024 - 1) ≤ next ∧ next ≤ limit + limit / 1024 := by
  have hmin' : 5000 ≤ realParent.gasLimit.toNat := le_iff_toNat_le.mp hmin
  have hused' := le_iff_toNat_le.mp hused
  refine ⟨hmin', hused', le_iff_toNat_le.mp hcap, ?_⟩
  rw [toNat_calcGasLimit miner.gasFloor miner.gasCeil hmin hused hcap]
  exact nextGasLimit_bounds miner.gasFloor.toNat miner.gasCeil.toNat hmin' hused'

/-- **The gas limit passes** against a parent of the same side of the London fork. -/
theorem gasLimit_passes_iff :
    (calcGasLimit realParent.gasUsed realParent.gasLimit miner.gasFloor miner.gasCeil ≤
      gasLimitCap ∧ verifyGaslimit realParent.gasLimit
        (calcGasLimit realParent.gasUsed realParent.gasLimit miner.gasFloor miner.gasCeil) =
          .ok ()) ↔
      GasKept miner realParent := by
  obtain ⟨hmin', hused', hcap', hlow, hhigh⟩ := calcGasLimit_bounds miner hmin hused hcap
  rw [verifyGaslimit_eq_ok, le_iff_toNat_le,
    show gasLimitCap.toNat = 9223372036854775807 from rfl,
    gasDistance_lt_iff hcap' hmin' hlow hhigh,
    toNat_calcGasLimit miner.gasFloor miner.gasCeil hmin hused hcap]
  unfold GasKept nextGasLimit
  dsimp only
  split
  · omega
  · split <;> omega

/-- At the fork the verifier asks for about twice the limit. -/
theorem not_verifyGaslimit_doubled :
    verifyGaslimit (realParent.gasLimit * elasticityMultiplier)
      (calcGasLimit realParent.gasUsed realParent.gasLimit miner.gasFloor miner.gasCeil) ≠
        .ok () := by
  obtain ⟨hmin', -, hcap', hlow, hhigh⟩ := calcGasLimit_bounds miner hmin hused hcap
  have hdouble : (realParent.gasLimit * elasticityMultiplier).toNat =
      realParent.gasLimit.toNat * 2 := by
    exact Nat.mod_eq_of_lt (by show realParent.gasLimit.toNat * 2 < _; omega)
  rw [Ne, verifyGaslimit_eq_ok, hdouble]
  omega

end

/-- **A limit worked out by the rules is one step too high exactly for a full parent of the smallest
limits**, where a thousandth of the limit is 4 and the blocks may still grow. -/
theorem calcGasLimit_verified_iff {used limit floor ceil : UInt64} (hused : used ≤ limit)
    (hmin : 5000 ≤ limit) (hlimit : limit.toNat < 2 ^ 62) (hfloor : 5000 ≤ floor)
    (hceil : floor ≤ ceil) :
    verifyGaslimit limit (calcGasLimit used limit floor ceil) = .ok () ↔
      ¬ (limit < 5120 ∧ 4779 ≤ used ∧ floor ≤ limit + 4 ∧ limit + 4 ≤ ceil) := by
  have hmin' : 5000 ≤ limit.toNat := le_iff_toNat_le.mp hmin
  have hcap : limit ≤ gasLimitCap := le_iff_toNat_le.mpr (by show _ ≤ 9223372036854775807; omega)
  have hused' := le_iff_toNat_le.mp hused
  have hfloor' : 5000 ≤ floor.toNat := le_iff_toNat_le.mp hfloor
  have hceil' := le_iff_toNat_le.mp hceil
  have hnext : (limit + 4).toNat = limit.toNat + 4 := by
    exact Nat.mod_eq_of_lt (by show limit.toNat + 4 < _; omega)
  obtain ⟨hlow, hhigh⟩ := nextGasLimit_bounds floor.toNat ceil.toNat hmin' hused'
  rw [verifyGaslimit_eq_ok, toNat_calcGasLimit floor ceil hmin hused hcap,
    gasDistance_lt_iff (by omega) hmin' hlow hhigh]
  simp only [le_iff_toNat_le, lt_iff_toNat_lt, hnext, reduceToNat]
  unfold nextGasLimit
  dsimp only
  split
  · omega
  · split <;> omega

/-- Four more than the smallest limit, and the verifier allows three. -/
theorem not_verifyGaslimit_smallest :
    calcGasLimit 5000 5000 5000 10000 = 5004 ∧ verifyGaslimit 5000 5004 ≠ .ok () := by
  decide

theorem calcGasLimit_verified_empty :
    (5000 : UInt64).toNat < 2 ^ 62 ∧
    verifyGaslimit 5000 (calcGasLimit 0 5000 5000 10000) = .ok () :=
  ⟨by decide, (calcGasLimit_verified_iff (by decide) (by decide) (by decide) (by decide)
    (by decide)).mpr
    (by decide)⟩

/-! ## 5. Agreement -/

theorem checkGas_eq_ok {parent : Header} (hused : header.gasUsed ≤ header.gasLimit) :
    checkGas config header parent = .ok () ↔ header.gasLimit ≤ gasLimitCap ∧
      if config.isLondon header.number = false then
        header.baseFee = none ∧ verifyGaslimit parent.gasLimit header.gasLimit = .ok ()
      else
        verifyGaslimit (if config.isLondon parent.number then parent.gasLimit
          else parent.gasLimit * elasticityMultiplier) header.gasLimit = .ok () ∧
        ∃ fee, header.baseFee = some fee ∧ calcBaseFee config parent = .ok fee := by
  unfold checkGas
  simp only [require_bind_eq_ok, hused, true_and]
  refine and_congr_right fun _ => ?_
  split
  · simp only [require_bind_eq_ok]
  · exact verifyEip1559Header_eq_ok

/-- The checks of `verifyHeader` on time, gas and base fee. -/
def PassesAt (config : ChainConfig) (header realParent : Header) (now : Int64) : Prop :=
  (checkTime config header realParent false now = .ok () ∧ checkAtomicTime header = .ok ()) ∧
    checkGas config header realParent = .ok ()

variable {K : Crypto} {config : ChainConfig} {bc : HeaderChain K config}

/-- On the chain there is always a next base fee. -/
theorem HeaderChain.calcBaseFee_ok {n : Nat} {h : Header} (hh : bc.canonical n = some h) :
    ∃ fee, calcBaseFee config h = .ok fee := by
  have htarget : h.gasLimit / elasticityMultiplier ≠ 0 := by
    intro hzero
    have hmin : 5000 ≤ h.gasLimit.toNat := le_iff_toNat_le.mp (bc.gas hh).1
    have hdiv : (h.gasLimit / elasticityMultiplier).toNat = h.gasLimit.toNat / 2 :=
      UInt64.toNat_div _ _
    rw [hzero, UInt64.toNat_zero] at hdiv
    omega
  unfold calcBaseFee
  by_cases hlondon : config.isLondon h.number = false
  · rw [if_pos hlondon]
    exact ⟨_, rfl⟩
  · rw [if_neg hlondon]
    have hn : config.isLondon n = true := by
      rw [← bc.numbered hh]
      exact Bool.eq_true_of_not_eq_false hlondon
    obtain ⟨fee, hfee⟩ := isSome_iff_exists.mp (bc.baseFee hh hn)
    rw [hfee]
    dsimp only
    split
    · exact ⟨_, rfl⟩
    · split
      · exact ⟨_, getOr_bind_eq_ok.mpr ⟨fee, rfl, require_bind_eq_ok.mpr ⟨htarget, rfl⟩⟩⟩
      · exact ⟨_, rfl⟩

/-- **When producer and verifier agree on a header.**  The header is assembled, the verifier finds
the real parent the producer used, and the checks of time, gas and base fee pass exactly when the
clock and the parents leave room for a time, the gas limit keeps within its bounds, and after London
the real parent is past the fork too and gives the same base fee as the parent. -/
theorem assembled_passes_iff (miner : MinerConfig) {n : Nat} {parent realParent : Header}
    (hparent : bc.canonical n = some parent) (hreal : bc.getRealBlockByNumber n = some realParent)
    (newBlockType : BlockType) (now : Int64) (nanoseconds : UInt32) (extra : Bytes)
    (coinbase : Address) {gasUsed : UInt64} (difficulty : Nat) (hgas : gasUsed ≤
      calcGasLimit realParent.gasUsed realParent.gasLimit miner.gasFloor miner.gasCeil) :
    ∃ header d, assembleHeader K config miner (n + 1) parent realParent newBlockType now nanoseconds
        extra coinbase gasUsed difficulty = .ok header ∧
      bc.findRealParentHeader header.parentHash n 1 = some (realParent, d) ∧
      (PassesAt config header realParent now ↔
        TimeKept config (n + 1) parent realParent now ∧ GasKept miner realParent ∧
        (config.isLondon (n + 1) = true → config.isLondon realParent.number = true ∧
          calcBaseFee config parent = calcBaseFee config realParent)) := by
  obtain ⟨m, -, hcanonical⟩ := HeaderChain.exists_canonical_of_getReal hreal
  obtain ⟨hmin, hused, hcap⟩ := bc.gas hcanonical
  obtain ⟨fee, hfee⟩ := HeaderChain.calcBaseFee_ok hparent
  obtain ⟨realFee, hrealFee⟩ := HeaderChain.calcBaseFee_ok hcanonical
  obtain ⟨d, hfind⟩ := HeaderChain.findRealParentHeader_eq hparent hreal 1
  have hlimit := gasLimit_passes_iff miner hmin hused hcap
  unfold assembleHeader
  by_cases hlondon : config.isLondon (n + 1) = true
  · rw [if_pos hlondon, hfee]
    refine ⟨_, d, rfl, hfind, ?_⟩
    refine and_congr (time_passes_iff (n + 1) parent rfl rfl rfl) ((checkGas_eq_ok hgas).trans ?_)
    simp only [hlondon, Bool.true_eq_false, if_false, true_implies, hrealFee]
    by_cases hreal' : config.isLondon realParent.number = true
    · simp only [hreal', if_true, true_and, ← and_assoc, hlimit]
      refine and_congr_right fun _ => ?_
      simp [eq_comm]
    · simp only [hreal', if_false, false_and, and_false, iff_false, Bool.false_eq_true]
      exact fun h => not_verifyGaslimit_doubled miner hmin hused hcap h.2.1
  · rw [if_neg hlondon]
    refine ⟨_, d, rfl, hfind, ?_⟩
    refine and_congr (time_passes_iff (n + 1) parent rfl rfl rfl) ((checkGas_eq_ok hgas).trans ?_)
    simp only [Bool.eq_false_iff.mpr hlondon, if_true, true_and, Bool.false_eq_true, false_implies,
      and_true]
    exact hlimit

def genesisHeader : Header := { gasLimit := 8000000, time := 1000 }

/-- A chain of nothing but its genesis block, for a fork at `london`. -/
def genesisChain (london : Option Nat) (hlondon : london ≠ some 0) :
    HeaderChain plainCrypto ⟨london, none⟩ where
  canonical n := if n = 0 then some genesisHeader else none
  getHeader hash n :=
    if n = 0 ∧ hash = Header.hash plainCrypto genesisHeader then
      some genesisHeader
    else none
  stored := by
    intro n h hn
    split at hn
    next hzero =>
      cases hn
      rw [if_pos ⟨hzero, rfl⟩]
    · cases hn
  numbered := by
    intro n h hn
    split at hn
    next hzero =>
      cases hn
      exact hzero.symm
    · cases hn
  linked := by
    intro n h hn
    rw [if_neg (Nat.succ_ne_zero n)] at hn
    cases hn
  gas := by
    intro n h hn
    split at hn
    · cases hn
      decide
    · cases hn
  baseFee := by
    intro n h hn hfork
    split at hn
    next hzero =>
      subst hzero
      cases london with
      | none => cases hfork
      | some b =>
        have hb : b = 0 := Nat.le_zero.mp (of_decide_eq_true hfork)
        exact absurd (congrArg some hb) hlondon
    · cases hn

def defaultMiner : MinerConfig := ⟨8000000, 8000000⟩

/-- Without a fork in between the first block passes. -/
theorem first_block_passes :
    ∃ header, assembleHeader plainCrypto ⟨none, none⟩ defaultMiner 1 genesisHeader
        genesisHeader .effect 1010 0 [] 1 0 1 = .ok header ∧
      PassesAt ⟨none, none⟩ header genesisHeader 1010 := by
  have hparent : (genesisChain none (by decide)).canonical 0 = some genesisHeader := rfl
  have hreal : (genesisChain none (by decide)).getRealBlockByNumber 0 = some genesisHeader := rfl
  obtain ⟨header, _, hok, -, hiff⟩ := assembled_passes_iff defaultMiner hparent hreal .effect 1010 0
    [] 1 1 (show (0 : UInt64) ≤ _ from le_iff_toNat_le.mpr (Nat.zero_le _))
  refine ⟨header, hok, hiff.mpr ⟨?_, ?_, ?_⟩⟩
  · exact .inl (by decide)
  · exact .inl (by decide)
  · intro h
    cases h

/-- **No producer can make the first block after London.** -/
theorem first_london_block_fails :
    ∃ header, assembleHeader plainCrypto ⟨some 1, none⟩ defaultMiner 1 genesisHeader
        genesisHeader .effect 1010 0 [] 1 0 1 = .ok header ∧
      checkGas ⟨some 1, none⟩ header genesisHeader =
        .error .gasLimitBounds ∧
      ¬ PassesAt ⟨some 1, none⟩ header genesisHeader 1010 := by
  refine ⟨_, rfl, rfl, ?_⟩
  rintro ⟨-, hgas⟩
  cases hgas

end ProbeChain
