/-
# Times along a chain

A header has two times, `Time` in seconds and, optionally, `AtomicTime`.  `verifyHeader` compares
`Time` with that of the real parent, the nearest ancestor that is not visual, and `AtomicTime` with
`Time`.

In a batch of headers a visual block may be later than the block after it, and nobody compares two
atomic times: `times_ordered_iff` says what an accepted chain still has to satisfy for its blocks to
be in order.  No block is before a real block of the chain.

The distance between the two times of a header is taken in 64 bits (`atomicTime_close_iff`).
-/
import ProbeChain.Consensus.Body

namespace ProbeChain

open Check List

/-! ## 1. Batches -/

variable {K : Crypto} {config : ChainConfig} (bc : BlockChain K config)

namespace BlockChain

/-- `FindRealParentHeader` for a header that comes in a batch.  `before` is what comes before it
there, the nearest first; where the batch starts the chain is asked. -/
def findRealParentInBatch : Header → List Header → Nat → Option (Header × Nat)
  | header, [], diff =>
    bc.findRealParentHeader header.parentHash (UInt64.ofNat header.number - 1).toNat diff
  | header, parent :: before, diff =>
    if parent.hash K ≠ header.parentHash ∨ (header.number : Int) - parent.number ≠ 1 then none
    else if parent.isVisual then findRealParentInBatch parent before (diff + 1)
    else some (parent, diff)

/-- `verifyHeaderWorker` -/
def verifyHeaderWorker (header : Header) (before : List Header) (unixNow : Int64) :
    Except BlockError Unit :=
  match bc.findRealParentInBatch header before 1 with
  | none => .error .unknownAncestor
  | some (parent, diff) =>
    (ProbeChain.verifyHeader K bc.engine config header parent false unixNow (.ofNat diff)).mapError
      .header

/-- A header that comes alone. -/
theorem verifyHeaderWorker_nil (header : Header) (unixNow : Int64) :
    bc.verifyHeaderWorker header [] unixNow = bc.verifyHeader header unixNow := rfl

variable {bc} in
theorem verifyHeaderWorker_eq {header parent : Header} {before : List Header} {diff : Nat}
    {unixNow : Int64} (h : bc.findRealParentInBatch header before 1 = some (parent, diff)) :
    bc.verifyHeaderWorker header before unixNow =
      (ProbeChain.verifyHeader K bc.engine config header parent false unixNow
        (.ofNat diff)).mapError .header := by
  unfold verifyHeaderWorker
  rw [h]

/-- The block right before, visual or not. -/
def parentOf (header : Header) : List Header → Option Header
  | [] => bc.getHeader header.parentHash (UInt64.ofNat header.number - 1).toNat
  | parent :: _ => some parent

/-- Each header was accepted, at one time or another.  The latest comes first. -/
def Accepted : List Header → Prop
  | [] => True
  | header :: before => (∃ unixNow, bc.verifyHeaderWorker header before unixNow = .ok ()) ∧
      Accepted before

/-- Each header is related to its parent. -/
def EachPair (R : Header → Header → Prop) : List Header → Prop
  | [] => True
  | header :: before => (∀ parent, bc.parentOf header before = some parent → R header parent) ∧
      EachPair R before

section
variable {bc} {header parent real : Header} {before : List Header} {diff d : Nat}

/-- A parent that is not visual is the real parent. -/
theorem realParent_of_not_visual (hparent : bc.parentOf header before = some parent)
    (hreal : parent.isVisual = false)
    (hfind : bc.findRealParentInBatch header before diff = some (real, d)) : real = parent := by
  cases before with
  | nil =>
    rw [findRealParentInBatch, HeaderChain.findRealParentHeader,
      show bc.getHeader _ _ = some parent from hparent, Option.bind_some, hreal,
      if_neg Bool.false_ne_true] at hfind
    cases hfind
    rfl
  | cons p before =>
    cases hparent
    rw [findRealParentInBatch, hreal, if_neg Bool.false_ne_true] at hfind
    split at hfind
    · cases hfind
    · cases hfind
      rfl

/-- What acceptance says about the time of a header. -/
theorem time_of_verifyHeaderWorker {unixNow : Int64}
    (h : bc.verifyHeaderWorker header before unixNow = .ok ()) :
    ∃ real d, bc.findRealParentInBatch header before 1 = some (real, d) ∧ real.time ≤ header.time ∧
      (header.time ≠ real.time ∨ config.isStellarSpeed header.number = true) := by
  unfold verifyHeaderWorker at h
  split at h
  · cases h
  next real d hfind =>
    obtain ⟨-, -, htime, -⟩ := verifyHeader_eq_ok.mp (mapError_eq_ok.mp h)
    simp only [checkTime, require_bind_eq_ok, require_eq_ok] at htime
    exact ⟨real, d, hfind, htime.2⟩

/-- The real parent is not before any other real block. -/
theorem time_le_realParent (haccepted : bc.Accepted before)
    (hfind : bc.findRealParentInBatch header before diff = some (real, d)) :
    ∀ a ∈ before, a.isVisual = false → a.time ≤ real.time := by
  induction before generalizing header diff real d with
  | nil => exact fun a ha => absurd ha not_mem_nil
  | cons parent before ih =>
    obtain ⟨⟨unixNow, hparent⟩, hbefore⟩ := haccepted
    intro a ha hvisual
    rw [findRealParentInBatch] at hfind
    split_ifs at hfind with hlink hv
    · rcases mem_cons.mp ha with rfl | ha
      · rw [hvisual] at hv
        cases hv
      · exact ih hbefore hfind a ha hvisual
    · cases hfind
      rcases mem_cons.mp ha with rfl | ha
      · exact UInt64.le_refl _
      · obtain ⟨real, d, hreal, hle, -⟩ := time_of_verifyHeaderWorker hparent
        exact UInt64.le_trans (ih hbefore hreal a ha hvisual) hle

end

end BlockChain

/-! ## 2. Order

A header is compared with its real parent.  If its parent is real, that is the same, and what is
left to compare is `Uncompared`.  One induction over the batch is about neighbours and the other
about all real blocks before. -/

/-- `Compare`: the clocks and their uncertainties do not matter. -/
def AtomicTimestamp.compare (t other : AtomicTimestamp) : Int :=
  if t.seconds < other.seconds then -1
  else if other.seconds < t.seconds then 1
  else if t.nanoseconds < other.nanoseconds then -1
  else if other.nanoseconds < t.nanoseconds then 1
  else 0

namespace Header

/-- If both have an atomic time. -/
def AtomicNotBefore (header parent : Header) : Prop :=
  ∀ t t', decodeAtomicTimestamp header.atomicBytes = some t →
    decodeAtomicTimestamp parent.atomicBytes = some t' → 0 ≤ t.compare t'

/-- The order of two blocks: by `Time`, and within a second by `AtomicTime`. -/
def NotBefore (header parent : Header) : Prop :=
  parent.time ≤ header.time ∧ (header.time = parent.time → header.AtomicNotBefore parent)

/-- What `verifyHeader` does not look at. -/
def Uncompared (config : ChainConfig) (header parent : Header) : Prop :=
  (parent.isVisual = true → parent.time ≤ header.time) ∧
  (parent.isVisual = true ∨ config.isStellarSpeed header.number = true → header.time = parent.time →
    header.AtomicNotBefore parent)

end Header

variable {bc : BlockChain K config}

theorem BlockChain.notBefore_iff {header parent : Header} {before : List Header} {unixNow : Int64}
    (haccepted : bc.verifyHeaderWorker header before unixNow = .ok ())
    (hparent : bc.parentOf header before = some parent) :
    header.NotBefore parent ↔ header.Uncompared config parent := by
  obtain ⟨real, d, hfind, hle, hne⟩ := time_of_verifyHeaderWorker haccepted
  cases hv : parent.isVisual with
  | true => simp [Header.NotBefore, Header.Uncompared, hv]
  | false =>
    cases realParent_of_not_visual hparent hv hfind
    -- without `StellarSpeed` the times differ, and there is nothing to compare
    simp only [Header.NotBefore, Header.Uncompared, hv, hle, Bool.false_eq_true, false_implies,
      true_and, false_or]
    constructor
    · exact fun h _ => h
    · exact fun h heq => h (hne.resolve_left (not_not_intro heq)) heq

theorem BlockChain.eachPair_notBefore_iff {batch : List Header} (haccepted : bc.Accepted batch) :
    bc.EachPair Header.NotBefore batch ↔ bc.EachPair (Header.Uncompared config) batch := by
  induction batch with
  | nil => exact Iff.rfl
  | cons header before ih =>
    obtain ⟨⟨unixNow, hheader⟩, hbefore⟩ := haccepted
    refine and_congr (forall_congr' fun parent => forall_congr' fun hparent => ?_) (ih hbefore)
    exact notBefore_iff hheader hparent

/-- No header is before a real block that comes before it. -/
theorem BlockChain.pairwise_time {batch : List Header} (haccepted : bc.Accepted batch) :
    batch.Pairwise fun header a => a.isVisual = false → a.time ≤ header.time := by
  induction batch with
  | nil => exact .nil
  | cons header before ih =>
    obtain ⟨⟨unixNow, hheader⟩, hbefore⟩ := haccepted
    obtain ⟨real, d, hfind, hle, -⟩ := time_of_verifyHeaderWorker hheader
    refine .cons (fun a ha hv => ?_) (ih hbefore)
    exact UInt64.le_trans (time_le_realParent hbefore hfind a ha hv) hle

/-- **When the blocks of a chain are in order**: no visual block is later than the block after it,
and where a visual parent or `StellarSpeed` allows for two blocks in one second their atomic times
are in order.  Whether they are or not, every block is at or after all the real blocks before it. -/
theorem times_ordered_iff {K : Crypto} {config : ChainConfig} (bc : BlockChain K config)
    (batch : List Header) (haccepted : bc.Accepted batch) :
    (bc.EachPair Header.NotBefore batch ↔ bc.EachPair (Header.Uncompared config) batch) ∧
    batch.Pairwise fun header a => a.isVisual = false → a.time ≤ header.time :=
  ⟨BlockChain.eachPair_notBefore_iff haccepted, BlockChain.pairwise_time haccepted⟩

/-- The chain of a block on the genesis block. -/
theorem times_ordered_firstBlock :
    (genesisBlocks [{ owner := 1 }]).EachPair Header.NotBefore [(firstBlock 1 [] []).header] := by
  have hparent : (genesisBlocks [{ owner := 1 }]).parentOf (firstBlock 1 [] []).header [] =
      some genesisHeader :=
    genesisBlocks_getHeader _
  refine (times_ordered_iff (genesisBlocks [{ owner := 1 }]) [(firstBlock 1 [] []).header]
    ⟨⟨2000, (BlockChain.verifyHeaderWorker_nil _ _ _).trans firstBlock_verified⟩, trivial⟩).1.mpr
      ⟨fun parent h => ?_, trivial⟩
  rw [hparent] at h
  cases h
  exact ⟨fun hv => absurd hv (by decide), fun h => absurd h (by decide)⟩

/-- A header of height `number` by validator `1`. -/
def timedHeader (number : Nat) (parentHash : Hash) (time : UInt64) (atomicTime : Option Bytes)
    (extra : Bytes) : Header :=
  { validatorAddr := 1, validatorSig := replicate 64 0 ++ [1], parentHash := parentHash,
    number := number, gasLimit := 8000000, time := time, atomicTime := atomicTime,
    extra := extra }

/-- A visual block, twelve seconds after the genesis block. -/
def hastyVisual : Header := timedHeader 1 genesisHash 1012 none Header.visualBlockExtra

/-- The next block is one second before it. -/
def tardyHeader : Header := timedHeader 2 (hastyVisual.hash plainCrypto) 1011 none [0]

/-- Two blocks of one second, the second of which has the earlier atomic time. -/
def atomicHeader : Header :=
  timedHeader 1 genesisHash 1001 (some ([0, 0, 0, 0, 0, 0, 4, 0] ++ replicate 9 0)) [0]

def earlierHeader : Header :=
  timedHeader 2 (atomicHeader.hash plainCrypto) 1001
    (some ([0, 0, 0, 0, 0, 0, 3, 255] ++ replicate 9 0)) [0]

/-- The chain of the genesis block, with `StellarSpeed`. -/
def stellarBlocks : BlockChain plainCrypto ⟨none, some 0⟩ :=
  { genesisBlocks [] with baseFee := (genesisBlocks []).baseFee }

theorem stellarBlocks_realParent (diff : Nat) :
    stellarBlocks.findRealParentHeader genesisHash 0 diff = some (genesisHeader, diff) := by
  have hget : stellarBlocks.getHeader genesisHash 0 = some genesisHeader := by
    simp only [stellarBlocks, genesisBlocks_getHeader]
  rw [HeaderChain.findRealParentHeader, hget, Option.bind_some]
  exact if_neg (by decide)

theorem tardyHeader_realParent :
    (genesisBlocks [{ owner := 1 }]).findRealParentInBatch tardyHeader [hastyVisual] 1 =
      some (genesisHeader, 2) := by
  rw [BlockChain.findRealParentInBatch, if_neg (by rintro (h | h) <;> exact h rfl),
    if_pos (by decide +kernel)]
  exact genesisBlocks_realParent _ 2

theorem hastyVisual_accepted :
    (genesisBlocks [{ owner := 1 }]).Accepted [tardyHeader, hastyVisual] := by
  have hfirst : (genesisBlocks [{ owner := 1 }]).findRealParentInBatch hastyVisual [] 1 =
      some (genesisHeader, 1) :=
    genesisBlocks_realParent _ 1
  refine ⟨⟨2000, ?_⟩, ⟨2000, ?_⟩, trivial⟩
  · rw [BlockChain.verifyHeaderWorker_eq tardyHeader_realParent]
    decide +kernel
  · rw [BlockChain.verifyHeaderWorker_eq hfirst]
    decide +kernel

theorem atomicHeader_accepted : stellarBlocks.Accepted [earlierHeader, atomicHeader] := by
  have hfirst : stellarBlocks.findRealParentInBatch atomicHeader [] 1 = some (genesisHeader, 1) :=
    stellarBlocks_realParent 1
  have hsecond : stellarBlocks.findRealParentInBatch earlierHeader [atomicHeader] 1 =
      some (atomicHeader, 1) := by
    rw [BlockChain.findRealParentInBatch, if_neg (by rintro (h | h) <;> exact h rfl)]
    exact if_neg (by decide +kernel)
  refine ⟨⟨2000, ?_⟩, ⟨2000, ?_⟩, trivial⟩
  · rw [BlockChain.verifyHeaderWorker_eq hsecond]
    decide +kernel
  · rw [BlockChain.verifyHeaderWorker_eq hfirst]
    decide +kernel

/-- **Time runs backwards** after a visual block, and so does atomic time within a second. -/
theorem times_not_ordered :
    ((genesisBlocks [{ owner := 1 }]).Accepted [tardyHeader, hastyVisual] ∧
      tardyHeader.time < hastyVisual.time) ∧
    stellarBlocks.Accepted [earlierHeader, atomicHeader] ∧ earlierHeader.time = atomicHeader.time ∧
      ¬ earlierHeader.AtomicNotBefore atomicHeader := by
  refine ⟨⟨hastyVisual_accepted, by decide⟩, atomicHeader_accepted, rfl, fun h => ?_⟩
  exact absurd (h ⟨1023, 0, 0, 0⟩ ⟨1024, 0, 0, 0⟩ (by decide +kernel) (by decide +kernel))
    (by decide)

/-! ## 3. The distance of the two times

The difference is a signed number of 64 bits, and so is its absolute value. -/

theorem toInt_toInt64_sub (a b : UInt64) :
    (a.toInt64 - b.toInt64).toInt = ((a.toNat : Int) - b.toNat).bmod (2 ^ 64) := by
  have htoInt : ∀ x : UInt64, x.toInt64.toInt = (x.toNat : Int).bmod (2 ^ 64) := fun x =>
    BitVec.toInt_eq_toNat_bmod x.toBitVec
  rw [Int64.toInt_sub, htoInt, htoInt, Int.bmod_sub_bmod, Int.sub_bmod_bmod]

/-- Times that are apart by almost all of the 64 bits, or by exactly half of them, count as
close. -/
theorem secondsApart_le_iff (a b : UInt64) :
    secondsApart a b ≤ 60 ↔
      ((a.toNat : Int) - b.toNat).natAbs ≤ 60 ∨ ((a.toNat : Int) - b.toNat).natAbs = 2 ^ 63 ∨
        2 ^ 64 ≤ ((a.toNat : Int) - b.toNat).natAbs + 60 := by
  have ha := a.toNat_lt
  have hb := b.toNat_lt
  have hzero : Int64.toInt 0 = 0 := rfl
  have hsixty : Int64.toInt 60 = 60 := rfl
  simp only [secondsApart, Int64.lt_iff_toInt_lt, Int64.le_iff_toInt_le, hzero, hsixty]
  split
  next hneg =>
    rw [toInt_toInt64_sub, Int.bmod_def] at hneg
    -- the negation of the smallest number is itself
    rw [Int64.toInt_neg, toInt_toInt64_sub, Int.bmod_def, Int.bmod_def]
    split_ifs at hneg ⊢ <;> omega
  next hpos =>
    rw [toInt_toInt64_sub, Int.bmod_def] at hpos ⊢
    split_ifs at hpos ⊢ <;> omega

/-- **The atomic time of an accepted header is within a minute of its time**, exactly if it is less
than half of the 64 bits away. -/
theorem atomicTime_close_iff (K : Crypto) (c : Engine) (config : ChainConfig)
    (header parent : Header) (uncle : Bool) (unixNow diff : Int64)
    (haccepted : verifyHeader K c config header parent uncle unixNow diff = .ok ())
    (hfield : header.atomicBytes ≠ []) :
    ∃ t, decodeAtomicTimestamp header.atomicBytes = some t ∧
      (((t.seconds.toNat : Int) - header.time.toNat).natAbs ≤ 60 ↔
        ((t.seconds.toNat : Int) - header.time.toNat).natAbs < 2 ^ 63) := by
  obtain ⟨-, -, -, -, -, -, hatomic⟩ := verifyHeader_eq_ok.mp haccepted
  rw [checkAtomicTime, if_neg hfield] at hatomic
  simp only [getOr_bind_eq_ok, require_eq_ok] at hatomic
  obtain ⟨t, ht, hclose⟩ := hatomic
  have hcases := (secondsApart_le_iff t.seconds header.time).mp hclose
  exact ⟨t, ht, by omega⟩

/-- A header whose atomic time is one second after its time. -/
def closeHeader : Header := { firstHeader 1 (replicate 64 0 ++ [1]) with
  atomicTime := some ([0, 0, 0, 0, 0, 0, 0, 2] ++ replicate 9 0) }

theorem atomicTime_close_closeHeader :
    ∃ t, decodeAtomicTimestamp closeHeader.atomicBytes = some t ∧
      ((t.seconds.toNat : Int) - closeHeader.time.toNat).natAbs ≤ 60 := by
  obtain ⟨t, ht, hiff⟩ :=
    atomicTime_close_iff plainCrypto firstEngine ⟨none, none⟩ closeHeader { gasLimit := 5000 } false
    0 1 (by decide +kernel) (by decide)
  have hdecoded : decodeAtomicTimestamp closeHeader.atomicBytes = some ⟨2, 0, 0, 0⟩ := by
    decide +kernel
  cases hdecoded.symm.trans ht
  exact ⟨_, ht, hiff.mpr (by decide)⟩

/-- **An atomic time that is 2 ^ 63 seconds away** from the time of the header, which is
accepted. -/
theorem atomicTime_not_close :
    let header : Header :=
      { closeHeader with atomicTime := some ([128, 0, 0, 0, 0, 0, 0, 1] ++ replicate 9 0) }
    verifyHeader plainCrypto firstEngine ⟨none, none⟩ header { gasLimit := 5000 } false 0 1 =
      .ok () ∧
    decodeAtomicTimestamp header.atomicBytes = some ⟨9223372036854775809, 0, 0, 0⟩ ∧
    header.time = 1 := by
  decide +kernel

/-! ## 4. The distance of two timestamps -/

namespace AtomicTimestamp

variable (t other : AtomicTimestamp)

/-- In nanoseconds, in 64-bit signed integers. -/
def durationBetween : Int64 :=
  let secDiff := t.seconds.toInt64 - other.seconds.toInt64
  let nsDiff := t.nanoseconds.toUInt64.toInt64 - other.nanoseconds.toUInt64.toInt64
  secDiff * 1000000000 + nsDiff

def withinUncertainty : Bool :=
  let diff := t.durationBetween other
  let diff := if diff < 0 then -diff else diff
  let combinedUncertainty := t.uncertainty.toUInt64.toInt64 + other.uncertainty.toUInt64.toInt64
  diff ≤ combinedUncertainty

/-- The distance itself. -/
def nanosecondsApart : Int :=
  ((t.seconds.toNat : Int) - other.seconds.toNat) * 1000000000 +
    ((t.nanoseconds.toNat : Int) - other.nanoseconds.toNat)

theorem toInt_durationBetween :
    (t.durationBetween other).toInt = (t.nanosecondsApart other).bmod (2 ^ 64) := by
  rw [durationBetween, Int64.toInt_add, Int64.toInt_mul, toInt_toInt64_sub, toInt_toInt64_sub,
    show (1000000000 : Int64).toInt = 1000000000 from rfl, Int.bmod_mul_bmod, Int.add_bmod_bmod,
    Int.bmod_add_bmod]
  rfl

/-- The smallest number is its own negation. -/
theorem magnitude_neg (d : Int64) : (if -d < 0 then - -d else -d) = if d < 0 then -d else d := by
  have hlow := d.le_toInt
  have hhigh := d.toInt_lt
  have hneg := Int64.toInt_neg d
  have hzero : Int64.toInt 0 = 0 := rfl
  simp only [Int64.neg_neg, Int64.lt_iff_toInt_lt, hzero, ← Int64.toInt_inj, apply_ite Int64.toInt]
  rw [Int.bmod_def] at hneg
  split_ifs at hneg ⊢ <;> omega

theorem withinUncertainty_comm : t.withinUncertainty other = other.withinUncertainty t := by
  have hback : t.durationBetween other = -other.durationBetween t := by
    unfold durationBetween
    grind
  simp only [withinUncertainty, hback, magnitude_neg, Int64.add_comm]

/-- A second has 10^9 nanoseconds. -/
theorem compare_eq_sign (ht : t.nanoseconds < 1000000000)
    (hother : other.nanoseconds < 1000000000) :
    t.compare other = (t.nanosecondsApart other).sign := by
  have ht := UInt32.lt_iff_toNat_lt.mp ht
  have hother := UInt32.lt_iff_toNat_lt.mp hother
  simp only [UInt32.reduceToNat] at ht hother
  simp only [compare, UInt64.lt_iff_toNat_lt, UInt32.lt_iff_toNat_lt]
  symm
  split_ifs
  · exact Int.sign_eq_neg_one_of_neg (by unfold nanosecondsApart; omega)
  · exact Int.sign_eq_one_of_pos (by unfold nanosecondsApart; omega)
  · exact Int.sign_eq_neg_one_of_neg (by unfold nanosecondsApart; omega)
  · exact Int.sign_eq_one_of_pos (by unfold nanosecondsApart; omega)
  · rw [show t.nanosecondsApart other = 0 by unfold nanosecondsApart; omega, Int.sign_zero]

/-- What 64 bits show of a distance: the lower half of the residues is positive. -/
theorem durationBetween_pos_iff : 0 < (t.durationBetween other).toInt ↔
    0 < t.nanosecondsApart other % 2 ^ 64 ∧ t.nanosecondsApart other % 2 ^ 64 < 2 ^ 63 := by
  rw [toInt_durationBetween, Int.bmod_def]
  split_ifs <;> omega

theorem durationBetween_neg_iff : (t.durationBetween other).toInt < 0 ↔
    2 ^ 63 ≤ t.nanosecondsApart other % 2 ^ 64 := by
  rw [toInt_durationBetween, Int.bmod_def]
  split_ifs <;> omega

/-- By the seconds first, and by the nanoseconds within a second. -/
def After : Prop :=
  other.seconds < t.seconds ∨ other.seconds = t.seconds ∧ other.nanoseconds < t.nanoseconds

/-- The distance modulo 2 ^ 64 lies in the half that the order of the timestamps asks for: the
lower one, without zero, after the other timestamp, the upper one before it. -/
def InHalf : Prop :=
  (t.After other →
    0 < t.nanosecondsApart other % 2 ^ 64 ∧ t.nanosecondsApart other % 2 ^ 64 < 2 ^ 63) ∧
  (other.After t → 2 ^ 63 ≤ t.nanosecondsApart other % 2 ^ 64)

/-- The three outcomes of a comparison. -/
theorem compare_cases :
    t.After other ∧ ¬ other.After t ∧ t.compare other = 1 ∨
    ¬ t.After other ∧ other.After t ∧ t.compare other = -1 ∨
    ¬ t.After other ∧ ¬ other.After t ∧ t.compare other = 0 ∧ t.nanosecondsApart other = 0 := by
  simp only [compare, After, nanosecondsApart, UInt64.lt_iff_toNat_lt, UInt32.lt_iff_toNat_lt,
    ← UInt64.toNat_inj]
  split_ifs <;> omega

theorem sign_durationBetween_eq_compare_iff :
    (t.durationBetween other).toInt.sign = t.compare other ↔ t.InHalf other := by
  rw [InHalf, ← durationBetween_pos_iff, ← durationBetween_neg_iff]
  rcases t.compare_cases other with ⟨hafter, hnot, hcompare⟩ | ⟨hnot, hbefore, hcompare⟩ |
    ⟨hnot, hnot', hcompare, hzero⟩
  · simp only [hafter, hnot, hcompare, Int.sign_eq_one_iff_pos, true_imp_iff,
      false_imp_iff, and_true]
  · simp only [hbefore, hnot, hcompare, Int.sign_eq_neg_one_iff_neg, true_imp_iff, false_imp_iff,
      true_and]
  · simp [hnot, hnot', hcompare, toInt_durationBetween, hzero]

end AtomicTimestamp

/-- **The comparison orders the timestamps by their times, and the uncertainties are symmetric.**
The duration has the sign of the comparison if and only if the distance in nanoseconds is in the
right half of the residues modulo 2 ^ 64.  It is where the nanoseconds of both stay within a
second and the distance within 64 bits. -/
theorem atomicTimestamp_laws (a b c : AtomicTimestamp) :
    ((a.compare b ≤ 0 ∨ b.compare a ≤ 0) ∧ (a.compare b ≤ 0 → b.compare c ≤ 0 → a.compare c ≤ 0) ∧
      b.compare a = -a.compare b ∧
      (a.compare b = 0 ↔ a.seconds = b.seconds ∧ a.nanoseconds = b.nanoseconds)) ∧
    a.withinUncertainty b = b.withinUncertainty a ∧
    ((a.durationBetween b).toInt.sign = a.compare b ↔ a.InHalf b) ∧
    (a.nanoseconds < 1000000000 → b.nanoseconds < 1000000000 →
      -2 ^ 63 ≤ a.nanosecondsApart b → a.nanosecondsApart b < 2 ^ 63 → a.InHalf b) := by
  refine ⟨?_, a.withinUncertainty_comm b, a.sign_durationBetween_eq_compare_iff b,
    fun ha hb hlow hhigh => ?_⟩
  · simp only [AtomicTimestamp.compare, UInt64.lt_iff_toNat_lt, UInt32.lt_iff_toNat_lt,
      ← UInt64.toNat_inj, ← UInt32.toNat_inj]
    refine ⟨?_, ?_, ?_, ?_⟩
    · split_ifs <;> omega
    · split_ifs <;> omega
    · split_ifs <;> omega
    · split_ifs <;> simp <;> omega
  · rw [← AtomicTimestamp.sign_durationBetween_eq_compare_iff, a.compare_eq_sign b ha hb,
      AtomicTimestamp.toInt_durationBetween, Int.bmod_eq_of_le hlow hhigh]

/-- A second and a few nanoseconds. -/
theorem atomicTimestamp_laws_normal :
    (AtomicTimestamp.durationBetween ⟨2, 5, 0, 0⟩ ⟨1, 7, 0, 0⟩).toInt.sign =
      AtomicTimestamp.compare ⟨2, 5, 0, 0⟩ ⟨1, 7, 0, 0⟩ := by
  have hlaws := atomicTimestamp_laws ⟨2, 5, 0, 0⟩ ⟨1, 7, 0, 0⟩ ⟨0, 0, 0, 0⟩
  exact hlaws.2.2.1.mpr (hlaws.2.2.2 (by decide) (by decide) (by decide) (by decide))

/-- **A second after is before**: two billion nanoseconds are more than a second, and three hundred
years are more than 64 bits of nanoseconds. -/
theorem durationBetween_wrong_sign :
    (AtomicTimestamp.compare ⟨1, 0, 0, 0⟩ ⟨0, 2000000000, 0, 0⟩ = 1 ∧
      AtomicTimestamp.durationBetween ⟨1, 0, 0, 0⟩ ⟨0, 2000000000, 0, 0⟩ < 0) ∧
    AtomicTimestamp.compare ⟨9223372037, 0, 0, 0⟩ ⟨0, 0, 0, 0⟩ = 1 ∧
      AtomicTimestamp.durationBetween ⟨9223372037, 0, 0, 0⟩ ⟨0, 0, 0, 0⟩ < 0 := by
  decide

end ProbeChain
