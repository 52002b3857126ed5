/-
# The second reward model

`consensus/pob/rewards_v2.go`, without regard to who calls it.

The law says that a block never mints more than a maximum and that emission stops when the reserves
reach their target.  The maximum is applied where there are transactions and not to the heartbeat
reward of an empty block, and the end of emission is decided twice: `IsEmissionActive` compares the
reserves with the target, `CalcDecayFactor` rounds.  The decay is zero well before the target, and
it is full when the target is not positive.  `emission_law_iff` says when the law is kept.

What `accumulateRewardsV2` pays out is exact: nothing is lost in the three roundings, and the order
in which Go ranges over the nodes does not matter (`rewardsV2_exact`).
-/
import ProbeChain.Consensus.Rewards
import Mathlib.Data.Int.ConditionallyCompleteOrder
import Mathlib.Tactic.Linarith

namespace ProbeChain

open List

/-! ## 1. The maximum and the end of emission

The maximum is applied to what is paid for volume and not to the heartbeat, and nothing is paid
exactly where the decay is zero.  So two questions decide on the law: how large a decayed heartbeat
is, and whether `IsEmissionActive` and `CalcDecayFactor` see the same end.  The two definitions are
the two ways in which they do not. -/

/-- A target that is not positive counts as reached when emission is checked and as none when the
decay is computed. -/
def TargetVoid (goldReserveOZ : Option Int) (config : PoBV2Config) : Prop :=
  ∃ target reserve, config.goldReserveTargetOZ = some target ∧ goldReserveOZ = some reserve ∧
    target ≤ 0 ∧ target ≤ reserve

/-- The reserves are short of the target, and yet the decay has been rounded to zero. -/
def DecayedAway (goldReserveOZ : Option Int) (config : PoBV2Config) : Prop :=
  ∃ target reserve, config.goldReserveTargetOZ = some target ∧ goldReserveOZ = some reserve ∧
    0 < reserve ∧ reserve < target ∧
    roundedPower ((target - reserve) * 10000 / target) (config.decayExponent.toNat - 1) = 0

variable (config : PoBV2Config) (goldReserveOZ : Option Int)

/-- Only the reward of an empty block can be above the maximum. -/
theorem calcBlockReward_le_iff (volume : Int) :
    calcBlockReward volume goldReserveOZ config ≤ config.maxBlockRewardWei.toNat ↔
      (volume = 0 → config.heartbeatRewardWei.toNat * calcDecayFactor goldReserveOZ config / 10000 ≤
        config.maxBlockRewardWei.toNat) := by
  unfold calcBlockReward
  dsimp only
  split
  next hdecay =>
    simp [hdecay]
  · split
    next hvolume =>
      simp [hvolume]
    next hvolume =>
      simp [hvolume]

/-- When the two conditions for the end of emission agree. -/
theorem isEmissionActive_iff :
    (isEmissionActive goldReserveOZ config = true ↔ calcDecayFactor goldReserveOZ config ≠ 0) ↔
      ¬ TargetVoid goldReserveOZ config ∧ ¬ DecayedAway goldReserveOZ config := by
  unfold isEmissionActive calcDecayFactor TargetVoid DecayedAway
  cases config.goldReserveTargetOZ with
  | none => simp
  | some target =>
    cases goldReserveOZ with
    | none => simp
    | some reserve =>
      simp only [Option.some.injEq, exists_and_left, exists_eq_left', decide_eq_true_eq]
      by_cases htarget : target ≤ 0
      · have hnot : ¬ (0 < reserve ∧ reserve < target ∧
            roundedPower ((target - reserve) * 10000 / target) (config.decayExponent.toNat - 1) =
              0) := by omega
        simp [htarget, hnot]
      by_cases hreserve : reserve ≤ 0
      · have hless : reserve < target := by omega
        simp [htarget, hreserve, hless]
      by_cases hreached : target ≤ reserve
      · simp [htarget, hreserve, hreached]
      · have hless : reserve < target := by omega
        have hpos : 0 < reserve := by omega
        simp only [htarget, hreserve, hreached, hless, hpos, reduceIte, true_iff, false_and,
          not_false_eq_true, true_and]
        exact .rfl

/-- **When the emission law is kept**: the heartbeat reward is within the maximum if the block is
empty, the target is positive or the reserves are below it, and the decay has not been rounded to
zero before the target.  The first clause is about the maximum, the other two about the end: there
is no further way for the check and the decay to disagree (`isEmissionActive_iff`). -/
theorem emission_law_iff (config : PoBV2Config) (volume : Int) (goldReserveOZ : Option Int) :
    (calcBlockReward volume goldReserveOZ config ≤ config.maxBlockRewardWei.toNat ∧
      (isEmissionActive goldReserveOZ config = true ↔ calcDecayFactor goldReserveOZ config ≠ 0)) ↔
    (volume = 0 → config.heartbeatRewardWei.toNat * calcDecayFactor goldReserveOZ config / 10000 ≤
        config.maxBlockRewardWei.toNat) ∧
      ¬ TargetVoid goldReserveOZ config ∧ ¬ DecayedAway goldReserveOZ config := by
  rw [calcBlockReward_le_iff, isEmissionActive_iff]

/-- **A heartbeat above the maximum, and emission that is active with nothing to emit**, the latter
with the default configuration and one ounce short of the target. -/
theorem emission_law_broken :
    calcBlockReward 0 none
      { defaultPoBV2Config with heartbeatRewardWei := 2, maxBlockRewardWei := 1 } = 2 ∧
    isEmissionActive (some 1157425199) defaultPoBV2Config = true ∧
    calcDecayFactor (some 1157425199) defaultPoBV2Config = 0 := by
  decide +kernel

/-! ## 2. The decay

The share of the target that is missing is multiplied by itself and divided by 10000 as often as the
exponent says.  `roundedPower` is that loop.  Both its monotonicity and the bound by the exact power
go by induction on the turns: a turn rounds a product of factors for which the claim holds. -/

variable {base base' : Int}

/-- Another multiplication makes a power no greater. -/
theorem roundedPower_antitone (hbase : 0 ≤ base) (hle : base ≤ 10000) :
    Antitone (roundedPower base) := by
  refine antitone_nat_of_succ_le fun n => ?_
  rw [roundedPower_succ]
  exact Int.ediv_le_of_le_mul (by decide)
    (Int.mul_le_mul_of_nonneg_left hle (roundedPower_nonneg hbase n))

theorem roundedPower_mono (hbase : 0 ≤ base) (hle : base ≤ base') (n : Nat) :
    roundedPower base n ≤ roundedPower base' n := by
  induction n with
  | zero => exact hle
  | succ n ih =>
    rw [roundedPower_succ, roundedPower_succ]
    exact Int.ediv_le_ediv (by decide)
      (Int.mul_le_mul ih hle hbase (roundedPower_nonneg (hbase.trans hle) n))

/-- Rounding down, again and again, stays below the exact power. -/
theorem roundedPower_le_pow {x : ℚ} (hbase : 0 ≤ base) (hx : (base : ℚ) ≤ x * 10000) (n : Nat) :
    (roundedPower base n : ℚ) ≤ x ^ (n + 1) * 10000 := by
  induction n with
  | zero => simpa [roundedPower] using hx
  | succ n ih =>
    have hnonneg : (0 : ℚ) ≤ roundedPower base n := by exact_mod_cast roundedPower_nonneg hbase n
    have hbase' : (0 : ℚ) ≤ base := by exact_mod_cast hbase
    have hround : ((roundedPower base (n + 1) : Int) : ℚ) * 10000 ≤ roundedPower base n * base := by
      rw [roundedPower_succ]
      exact_mod_cast Int.ediv_mul_le (roundedPower base n * base) (by decide : (10000 : Int) ≠ 0)
    have hstep : (roundedPower base n : ℚ) * base ≤ (x ^ (n + 1) * 10000) * (x * 10000) :=
      mul_le_mul ih hx hbase' (hnonneg.trans ih)
    rw [pow_succ x (n + 1)]
    linarith

/-- What is missing of the target, in basis points and within their range. -/
def linearDecay (target reserve : Int) : Int :=
  max 0 (min 10000 ((target - reserve) * 10000 / target))

theorem linearDecay_nonneg (target reserve : Int) : 0 ≤ linearDecay target reserve :=
  le_max_left _ _

theorem linearDecay_le (target reserve : Int) : linearDecay target reserve ≤ 10000 :=
  max_le (by decide) (min_le_left _ _)

theorem linearDecay_antitone {target : Int} (hpos : 0 < target) :
    Antitone (linearDecay target) := by
  intro reserve reserve' hle
  refine max_le_max (le_refl _) (min_le_min (le_refl _) (Int.ediv_le_ediv hpos ?_))
  omega

/-- The three cases of `CalcDecayFactor` are one. -/
theorem calcDecayFactor_eq {config : PoBV2Config} {target : Int}
    (htarget : config.goldReserveTargetOZ = some target) (hpos : 0 < target) (reserve : Int) :
    calcDecayFactor (some reserve) config =
      roundedPower (linearDecay target reserve) (config.decayExponent.toNat - 1) := by
  have hfixed : ∀ base : Int, base * base / 10000 = base → ∀ n, roundedPower base n = base := by
    intro base hbase n
    exact Function.iterate_fixed hbase n
  unfold calcDecayFactor
  rw [htarget]
  dsimp only
  rw [if_neg (not_le.mpr hpos)]
  split
  next hnone =>
    have hfull : 10000 ≤ (target - reserve) * 10000 / target := by
      rw [Int.le_ediv_iff_mul_le hpos]
      omega
    rw [linearDecay, min_eq_left hfull, max_eq_right (by decide), hfixed 10000 (by decide)]
  next hreserve =>
    split
    next hreached =>
      have hnone : (target - reserve) * 10000 / target ≤ 0 := by
        have := Int.ediv_le_ediv (c := target) hpos (show (target - reserve) * 10000 ≤ 0 by omega)
        rwa [Int.zero_ediv] at this
      rw [linearDecay, max_eq_left ((min_le_right _ _).trans hnone), hfixed 0 (by decide)]
    next hshort =>
      have hnonneg : 0 ≤ (target - reserve) * 10000 / target := Int.ediv_nonneg (by omega) hpos.le
      have hle : (target - reserve) * 10000 / target ≤ 10000 :=
        Int.ediv_le_of_le_mul hpos (by omega)
      rw [linearDecay, min_eq_right hle, max_eq_right hnonneg]
      rfl

/-- While the reserves are no more than the target. -/
theorem linearDecay_le_exact {target reserve : Int} (hpos : 0 < target) (hle : reserve ≤ target) :
    (linearDecay target reserve : ℚ) ≤ ((target - reserve) / target : ℚ) * 10000 := by
  have hquot : linearDecay target reserve ≤ (target - reserve) * 10000 / target :=
    max_le (Int.ediv_nonneg (by omega) hpos.le) (min_le_right _ _)
  have hpos' : (0 : ℚ) < target := by exact_mod_cast hpos
  rw [div_mul_eq_mul_div, le_div_iff₀ hpos']
  exact_mod_cast (Int.mul_le_mul_of_nonneg_right hquot hpos.le).trans (Int.ediv_mul_le _ hpos.ne')

variable {config : PoBV2Config} {volume volume' : Int} {reserve reserve' : Option Int}

/-- Less decay, no smaller a reward. -/
theorem calcBlockReward_mono_decay (hvolume : 0 ≤ volume)
    (hdecay : calcDecayFactor reserve' config ≤ calcDecayFactor reserve config) :
    calcBlockReward volume reserve' config ≤ calcBlockReward volume reserve config := by
  have hnonneg := calcDecayFactor_nonneg reserve' config
  by_cases hzero : calcDecayFactor reserve' config = 0
  · have hnone : calcBlockReward volume reserve' config = 0 := if_pos hzero
    rw [hnone]
    exact calcBlockReward_nonneg hvolume reserve config
  · have hpos : calcDecayFactor reserve config ≠ 0 := by omega
    unfold calcBlockReward
    rw [if_neg hzero, if_neg hpos]
    split
    · exact Int.ediv_le_ediv (by decide)
        (Int.mul_le_mul_of_nonneg_left hdecay (Int.natCast_nonneg _))
    · refine min_le_min_right _
        (Int.ediv_le_ediv (by decide) (Int.mul_le_mul_of_nonneg_left hdecay ?_))
      exact Int.ediv_nonneg (Int.mul_nonneg hvolume (Int.natCast_nonneg _)) (by decide)

/-- More volume, no smaller a reward, but for the heartbeat. -/
theorem calcBlockReward_mono_volume (hvolume : 0 < volume) (hle : volume ≤ volume') :
    calcBlockReward volume reserve config ≤ calcBlockReward volume' reserve config := by
  have hnonneg := calcDecayFactor_nonneg reserve config
  unfold calcBlockReward
  dsimp only
  split
  · exact le_refl (0 : Int)
  · rw [if_neg hvolume.ne', if_neg (hvolume.trans_le hle).ne']
    refine min_le_min_right _
      (Int.ediv_le_ediv (by decide) (Int.mul_le_mul_of_nonneg_right ?_ hnonneg))
    exact Int.ediv_le_ediv (by decide) (Int.mul_le_mul_of_nonneg_right hle (Int.natCast_nonneg _))

/-- **The decay is monotone and rounded down.**  It lies within the basis points, does not increase
with the reserves nor with the exponent, is no more than the exact value as long as the reserves are
no more than the target, and is zero from there on; and the reward follows it.  All of it is read
off the decay as a rounded power of `linearDecay`, where the three cases of the source are one. -/
theorem decay_monotone (config : PoBV2Config) (target : Int)
    (htarget : config.goldReserveTargetOZ = some target) (hpos : 0 < target) :
    (∀ reserve, 0 ≤ calcDecayFactor reserve config ∧ calcDecayFactor reserve config ≤ 10000) ∧
    (∀ reserve reserve', reserve ≤ reserve' →
      calcDecayFactor (some reserve') config ≤ calcDecayFactor (some reserve) config) ∧
    (∀ reserve (n m : UInt64), n ≤ m → calcDecayFactor reserve { config with decayExponent := m } ≤
      calcDecayFactor reserve { config with decayExponent := n }) ∧
    (∀ reserve, (reserve ≤ target → (calcDecayFactor (some reserve) config : ℚ) ≤
      ((target - reserve) / target : ℚ) ^ config.decayExponent.toNat * 10000) ∧
      (target ≤ reserve → calcDecayFactor (some reserve) config = 0)) ∧
    (∀ volume reserve reserve', 0 ≤ volume → reserve ≤ reserve' →
      calcBlockReward volume (some reserve') config ≤
        calcBlockReward volume (some reserve) config) ∧
    ∀ volume volume' reserve, 0 < volume → volume ≤ volume' →
      calcBlockReward volume reserve config ≤ calcBlockReward volume' reserve config := by
  have hbounds := fun reserve n => roundedPower_antitone (linearDecay_nonneg target reserve)
    (linearDecay_le target reserve) (Nat.zero_le n)
  have hantitone : ∀ reserve reserve', reserve ≤ reserve' →
      calcDecayFactor (some reserve') config ≤ calcDecayFactor (some reserve) config := by
    intro reserve reserve' hle
    rw [calcDecayFactor_eq htarget hpos, calcDecayFactor_eq htarget hpos]
    exact roundedPower_mono (linearDecay_nonneg _ _) (linearDecay_antitone hpos hle) _
  have hnone : ∀ exponent, calcDecayFactor none { config with decayExponent := exponent } =
      10000 := by
    intro exponent
    simp [calcDecayFactor, htarget]
  have heq : ∀ reserve exponent, calcDecayFactor (some reserve)
      { config with decayExponent := exponent } =
      roundedPower (linearDecay target reserve) (exponent.toNat - 1) := by
    intro reserve exponent
    refine calcDecayFactor_eq ?_ hpos reserve
    exact htarget
  refine ⟨fun reserve => ⟨calcDecayFactor_nonneg reserve config, ?_⟩, hantitone,
    fun reserve n m hle => ?_,
    fun reserve => ⟨fun hshort => ?_, fun hreached => ?_⟩,
    fun volume reserve reserve' hvolume hle =>
    calcBlockReward_mono_decay hvolume (hantitone reserve reserve' hle),
    fun volume volume' reserve hvolume hle => calcBlockReward_mono_volume hvolume hle⟩
  · cases reserve with
    | none => exact (hnone config.decayExponent).le
    | some reserve =>
      rw [calcDecayFactor_eq htarget hpos]
      exact (hbounds reserve _).trans (linearDecay_le target reserve)
  · cases reserve with
    | none => rw [hnone, hnone]
    | some reserve =>
      have hle' := UInt64.le_iff_toNat_le.mp hle
      rw [heq, heq]
      exact roundedPower_antitone (linearDecay_nonneg _ _) (linearDecay_le _ _)
        (Nat.sub_le_sub_right hle' 1)
  · rw [calcDecayFactor_eq htarget hpos]
    cases config.decayExponent.toNat with
    | zero =>
      have hle := (hbounds reserve (0 - 1)).trans (linearDecay_le target reserve)
      rw [pow_zero, one_mul]
      exact_mod_cast hle
    | succ n =>
      exact roundedPower_le_pow (linearDecay_nonneg _ _) (linearDecay_le_exact hpos hshort) n
  · unfold calcDecayFactor
    rw [htarget]
    dsimp only
    rw [if_neg (by omega), if_neg (by omega), if_pos hreached]

/-- With the default configuration the decay at half the target is what it should be. -/
theorem decay_monotone_default :
    calcDecayFactor (some 578712600) defaultPoBV2Config = 5000 ∧
    (calcDecayFactor (some 578712600) defaultPoBV2Config : ℚ) ≤
      ((1157425200 - 578712600) / 1157425200 : ℚ) ^ defaultPoBV2Config.decayExponent.toNat *
        10000 := by
  have hexact :=
    ((decay_monotone defaultPoBV2Config 1157425200 rfl (by decide)).2.2.2.1 578712600).1 (by decide)
  exact ⟨by decide +kernel, by exact_mod_cast hexact⟩

/-- Above the target the exact value is negative, and the decay is not. -/
theorem decay_above_exact :
    calcDecayFactor (some 1157425201) defaultPoBV2Config = 0 ∧
    ((1157425200 - 1157425201) / 1157425200 : ℚ) ^ defaultPoBV2Config.decayExponent.toNat * 10000 <
      0 := by
  have hexponent : defaultPoBV2Config.decayExponent.toNat = 1 := rfl
  refine ⟨by decide +kernel, ?_⟩
  rw [hexponent]
  norm_num

/-! ## 3. Payments

What rounding leaves of the two pools goes to the producer, and so does a pool nobody has a score
for: the payments add up to the reward.  Neither the total score nor a part depends on the order of
the nodes, so that another order only permutes the payments. -/

/-- What the payments give to the address. -/
def paidTo (payments : List (Address × Int)) (a : Address) : Int :=
  ((payments.filter fun p => p.1 = a).map Prod.snd).sum

theorem paidTo_perm {ps qs : List (Address × Int)} (h : ps.Perm qs) (a : Address) :
    paidTo ps a = paidTo qs a :=
  ((h.filter _).map _).sum_eq

variable {scores scores' : List (Address × UInt64)}

/-- The total does not depend on the order, also where it wraps around. -/
theorem totalScore_perm (h : scores.Perm scores') :
    scores.foldl (fun t p => t + p.2) (0 : UInt64) = scores'.foldl (fun t p => t + p.2) 0 := by
  refine h.foldl_eq' (fun p _ q _ t => ?_) 0
  rw [UInt64.add_assoc, UInt64.add_comm p.2, UInt64.add_assoc]

theorem distribution_perm (pool : Int) (h : scores.Perm scores') :
    (distribution pool scores).Perm (distribution pool scores') := by
  have hempty : scores = [] ↔ scores' = [] := by
    rw [← length_eq_zero_iff, ← length_eq_zero_iff, h.length_eq]
  unfold distribution
  rw [totalScore_perm h]
  simp only [hempty]
  split
  · exact .refl _
  · exact (h.map _).filter _

theorem poolPayments_perm (a : Address) (pool : Int) (h : scores.Perm scores') :
    (poolPayments a pool scores).Perm (poolPayments a pool scores') := by
  have hparts := distribution_perm pool h
  unfold poolPayments
  rw [(hparts.map Prod.snd).sum_eq]
  exact hparts.append_right _

/-- Scores of at most ten thousand, for fewer nodes than there could ever be, do not wrap around. -/
theorem sum_scores_lt (hscores : ∀ p ∈ scores, p.2 ≤ 10000) (hlength : scores.length < 2 ^ 50) :
    (scores.map (·.2.toNat)).sum < 2 ^ 64 := by
  have hle : (scores.map (·.2.toNat)).sum ≤ (scores.map (·.2.toNat)).length • 10000 := by
    refine sum_le_card_nsmul _ _ fun n hn => ?_
    obtain ⟨p, hp, rfl⟩ := mem_map.mp hn
    exact UInt64.le_iff_toNat_le.mp (hscores p hp)
  rw [length_map, nsmul_eq_mul, Nat.cast_id] at hle
  omega

theorem rewardPaymentsV2_perm (config : Option PoBV2Config) (header : Header)
    (txs : List Transaction) (goldReserveOZ : Option Int)
    {agents agents' physicalNodes physicalNodes' : List (Address × UInt64)}
    (hagents : agents.Perm agents') (hphysical : physicalNodes.Perm physicalNodes') :
    (rewardPaymentsV2 config header txs goldReserveOZ agents physicalNodes).Perm
      (rewardPaymentsV2 config header txs goldReserveOZ agents' physicalNodes') := by
  unfold rewardPaymentsV2
  dsimp only
  split
  · exact .refl _
  · exact ((poolPayments_perm _ _ hagents).append_left _).append (poolPayments_perm _ _ hphysical)

/-- Where emission has stopped there is no reward either, if the target is positive. -/
theorem calcBlockReward_of_inactive {config : PoBV2Config} {target reserve : Int}
    (htarget : config.goldReserveTargetOZ = some target) (hpos : 0 < target)
    (hinactive : isEmissionActive (some reserve) config = false) (volume : Int) :
    calcBlockReward volume (some reserve) config = 0 := by
  simp only [isEmissionActive, htarget, decide_eq_false_iff_not] at hinactive
  have hdecay : calcDecayFactor (some reserve) config = 0 := by
    unfold calcDecayFactor
    rw [htarget]
    dsimp only
    rw [if_neg (by omega), if_neg (by omega), if_pos (by omega)]
  rw [calcBlockReward, hdecay, if_pos rfl]

namespace Snapshot

/-- What `accumulateRewardsV2` ranges over. -/
def agentScores (snap : Snapshot) : Multiset (Address × UInt64) :=
  snap.agents.entries.map fun e => (e.1, e.2.total)

def physicalScores (snap : Snapshot) : Multiset (Address × UInt64) :=
  snap.physicalNodes.entries.map fun e => (e.1, e.2.total)

def totalNodeCount (snap : Snapshot) : Nat := snap.agents.keys.card + snap.physicalNodes.keys.card

end Snapshot

/-- **What the second model pays is exact.**  For every snapshot with bounded scores, and whatever
the order in which its nodes are visited: the payments are not negative and add up to the block
reward, and what an address gets of them is the same for every other order.  The bounds keep the
total score from wrapping around, and with a positive target there is no reward to pay where
emission has stopped. -/
theorem rewardsV2_exact (config : Option PoBV2Config) (snap : Snapshot) (header : Header)
    (txs : List Transaction) (goldReserveOZ : Option Int) (target : Int)
    (htarget : (config.getD defaultPoBV2Config).goldReserveTargetOZ = some target)
    (hpos : 0 < target) (hshares : (config.getD defaultPoBV2Config).agentShareBps.toNat +
      (config.getD defaultPoBV2Config).physicalShareBps.toNat ≤ 10000)
    (hscores : ∀ p ∈ snap.agentScores + snap.physicalScores, p.2 ≤ 10000)
    (hnodes : snap.totalNodeCount < 2 ^ 50) (agents physicalNodes : List (Address × UInt64))
    (hagents : (agents : Multiset _) = snap.agentScores)
    (hphysical : (physicalNodes : Multiset _) = snap.physicalScores) :
    let payments := rewardPaymentsV2 config header txs goldReserveOZ agents physicalNodes
    (∀ s, accumulateRewardsV2 config s header txs goldReserveOZ agents physicalNodes =
      s.payAll payments) ∧
    (∀ p ∈ payments, 0 ≤ p.2) ∧
    (payments.map Prod.snd).sum = calcBlockReward
      (calcQualifiedVolume txs none (config.getD defaultPoBV2Config)).1
        (some (goldReserveOZ.getD 0))
      (config.getD defaultPoBV2Config) ∧
    ∀ agents' physicalNodes' : List (Address × UInt64), (agents' : Multiset _) = snap.agentScores →
      (physicalNodes' : Multiset _) = snap.physicalScores → ∀ a,
        paidTo (rewardPaymentsV2 config header txs goldReserveOZ agents' physicalNodes') a =
          paidTo payments a := by
  intro payments
  rw [← hagents, ← hphysical] at hscores
  have hcount : agents.length = snap.agents.keys.card := by
    rw [← Multiset.coe_card, hagents]
    simp [Snapshot.agentScores, Finmap.keys, Multiset.keys]
  have hcount' : physicalNodes.length = snap.physicalNodes.keys.card := by
    rw [← Multiset.coe_card, hphysical]
    simp [Snapshot.physicalScores, Finmap.keys, Multiset.keys]
  rw [Snapshot.totalNodeCount, ← hcount, ← hcount'] at hnodes
  have hsum : (agents.map (·.2.toNat)).sum < 2 ^ 64 :=
    sum_scores_lt (fun p hp => hscores p (by simp [hp])) (by omega)
  have hsum' : (physicalNodes.map (·.2.toNat)).sum < 2 ^ 64 :=
    sum_scores_lt (fun p hp => hscores p (by simp [hp])) (by omega)
  obtain ⟨hpositive, htotal⟩ := rewardPaymentsV2_spec header txs goldReserveOZ hshares hsum hsum'
  refine ⟨fun s =>
    accumulateRewardsV2_eq_payAll config s header txs goldReserveOZ agents physicalNodes,
    fun p hp => (hpositive p hp).1.le, ?_, fun agents' physicalNodes' hagents' hphysical' a => ?_⟩
  · cases hactive : isEmissionActive (some (goldReserveOZ.getD 0))
      (config.getD defaultPoBV2Config) with
    | true => exact htotal hactive
    | false =>
      have hnone : payments = [] := if_pos hactive
      rw [hnone, calcBlockReward_of_inactive htarget hpos hactive]
      rfl
  · refine paidTo_perm (rewardPaymentsV2_perm config header txs goldReserveOZ ?_ ?_) a
    · exact Multiset.coe_eq_coe.mp (hagents'.trans hagents.symm)
    · exact Multiset.coe_eq_coe.mp (hphysical'.trans hphysical.symm)

/-- Two agents with different scores and a physical node. -/
def threeNodes : Snapshot :=
  { newSnapshot { epoch := 100, initialScore := 5000 } 0 0 [] with
    agents :=
      (Finmap.singleton 1 (defaultAgentScore 0)).insert 2 { defaultAgentScore 0 with total := 2000 }
    physicalNodes := Finmap.singleton 3 (defaultPhysicalNodeScore 0) }

/-- For an empty block the producer's part of the heartbeat reward takes up what two agents and a
physical node leave. -/
theorem rewardsV2_exact_threeNodes :
    threeNodes.agentScores = ((([(2, 2000), (1, 5000)] : List (Address × UInt64))) : Multiset _) ∧
    ((rewardPaymentsV2 none { number := 1, validatorAddr := 9 } [] none
      [(2, 2000), (1, 5000)] [(3, 5000)]).map Prod.snd).sum =
      calcBlockReward 0 (some 0) defaultPoBV2Config ∧
    ∀ a,
      paidTo (rewardPaymentsV2 none { number := 1, validatorAddr := 9 } [] none
        [(1, 5000), (2, 2000)] [(3, 5000)]) a =
      paidTo (rewardPaymentsV2 none { number := 1, validatorAddr := 9 } [] none
        [(2, 2000), (1, 5000)] [(3, 5000)]) a := by
  have hagents : threeNodes.agentScores =
      ((([(2, 2000), (1, 5000)] : List (Address × UInt64))) : Multiset _) := by
    decide +kernel
  have hphysical : threeNodes.physicalScores =
      ((([(3, 5000)] : List (Address × UInt64))) : Multiset _) := by
    decide +kernel
  have hscores : ∀ p ∈ threeNodes.agentScores + threeNodes.physicalScores, p.2 ≤ 10000 := by
    rw [hagents, hphysical]
    intro p hp
    simp only [Multiset.coe_add, Multiset.mem_coe, cons_append, nil_append, mem_cons, not_mem_nil,
      or_false] at hp
    rcases hp with rfl | rfl | rfl <;> decide
  obtain ⟨-, -, hsum, horder⟩ :=
    rewardsV2_exact none threeNodes { number := 1, validatorAddr := 9 } [] none 1157425200
    rfl (by decide) (by decide) hscores (by decide +kernel) [(2, 2000), (1, 5000)]
      [(3, 5000)] hagents.symm
    hphysical.symm
  exact ⟨hagents, hsum, horder _ _ (by rw [hagents]; decide) hphysical.symm⟩

/-! ## 4. A pool by score

A part is rounded down by less than one, and all of them together by less than their number
(`mul_total_le`, by induction on the nodes).  Every address is in the map once, so that what it is
paid is one part. -/

def blockRewardSmartLightPool : Int := 200000000000000000

/-- With the scores of the light nodes in the order in which the map is walked. -/
def accumulateSmartLightRewards (s : StateDB) (smartLights : List (Address × UInt64)) : StateDB :=
  let totalScore := smartLights.foldl (fun t p => t + p.2) (0 : UInt64)
  if smartLights = [] ∨ totalScore = 0 then s
  else s.payAll ((smartLights.map fun p =>
    (p.1, blockRewardSmartLightPool * p.2.toNat / totalScore.toNat)).filter (0 < ·.2))

/-- This pool is never empty. -/
theorem accumulateSmartLightRewards_eq (s : StateDB) (smartLights : List (Address × UInt64)) :
    accumulateSmartLightRewards s smartLights =
      s.payAll (distribution blockRewardSmartLightPool smartLights) := by
  have hpool : ¬ blockRewardSmartLightPool ≤ 0 := by decide
  unfold accumulateSmartLightRewards distribution
  simp only [hpool, false_or]
  split <;> rfl

variable {pool : Int}

def totalOf (scores : List (Address × UInt64)) : Int := ((scores.map (·.2.toNat)).sum : Nat)

/-- What each is to get. -/
def parts (pool : Int) (scores : List (Address × UInt64)) : List (Address × Int) :=
  scores.map fun p => (p.1, pool * p.2.toNat / totalOf scores)

section
variable (hpool : 0 ≤ pool)
include hpool

theorem parts_nonneg : ∀ p ∈ parts pool scores, 0 ≤ p.2 := by
  intro p hp
  obtain ⟨q, -, rfl⟩ := mem_map.mp hp
  exact Int.ediv_nonneg (Int.mul_nonneg hpool (Int.natCast_nonneg _)) (Int.natCast_nonneg _)

variable (hpos : 0 < totalOf scores) (hlt : totalOf scores < 2 ^ 64)
include hpos hlt

theorem distribution_eq_filter :
    distribution pool scores = (parts pool scores).filter (0 < ·.2) := by
  have hlt' : (scores.map (·.2.toNat)).sum < 2 ^ 64 := by
    unfold totalOf at hlt
    omega
  have htotal := toNat_totalScore scores 0 (by simpa using hlt')
  rw [UInt64.toNat_zero, Nat.zero_add] at htotal
  unfold distribution
  dsimp only
  split
  next hnone =>
    symm
    rw [filter_eq_nil_iff]
    intro p hp
    obtain ⟨q, hq, rfl⟩ := mem_map.mp hp
    rcases hnone with hpool' | rfl | hzero
    · obtain rfl : pool = 0 := by omega
      simp
    · cases hq
    · rw [hzero, UInt64.toNat_zero] at htotal
      rw [totalOf, ← htotal] at hpos
      exact absurd hpos (lt_irrefl 0)
  next =>
    rw [parts, totalOf, htotal]

theorem sum_distribution :
    ((distribution pool scores).map Prod.snd).sum = ((parts pool scores).map Prod.snd).sum := by
  rw [distribution_eq_filter hpool hpos hlt, sum_filter_pos _ (parts_nonneg hpool)]

theorem paidTo_distribution
    (a : Address) : paidTo (distribution pool scores) a = paidTo (parts pool scores) a := by
  unfold paidTo
  rw [distribution_eq_filter hpool hpos hlt, filter_comm, sum_filter_pos]
  exact fun p hp => parts_nonneg hpool p (mem_of_mem_filter hp)

end

/-- Every address is in the map once. -/
theorem paidTo_map {f : Address × UInt64 → Int} (hkeys : (scores.map Prod.fst).Nodup) {a : Address}
    {score : UInt64} (h : (a, score) ∈ scores) :
    paidTo (scores.map fun p => (p.1, f p)) a = f (a, score) := by
  have hnone : ∀ ps : List (Address × UInt64), a ∉ ps.map Prod.fst →
      paidTo (ps.map fun p => (p.1, f p)) a = 0 := by
    intro ps hps
    have hempty : (ps.map fun p => (p.1, f p)).filter (fun p => p.1 = a) = [] := by
      rw [filter_eq_nil_iff]
      intro p hp heq
      obtain ⟨q, hq, rfl⟩ := mem_map.mp hp
      exact hps (of_decide_eq_true heq ▸ mem_map_of_mem hq)
    rw [paidTo, hempty]
    rfl
  induction scores with
  | nil => cases h
  | cons p ps ih =>
    obtain ⟨hnew, hkeys⟩ := nodup_cons.mp hkeys
    rcases mem_cons.mp h with rfl | h
    · have hrest := hnone ps hnew
      unfold paidTo at hrest ⊢
      simp [hrest]
    · have hne : p.1 ≠ a := fun heq => hnew (heq ▸ mem_map_of_mem h)
      have hrest := ih hkeys h
      unfold paidTo at hrest ⊢
      simp [hne, hrest]

/-- The parts, rounded down, are together less than one short of the pool for each of them. -/
theorem mul_total_le (pool : Int) {total : Int} (htotal : 0 < total)
    (scores : List (Address × UInt64)) :
    pool * totalOf scores + scores.length ≤
      ((scores.map fun p => pool * p.2.toNat / total).sum + scores.length) * total := by
  induction scores with
  | nil => simp [totalOf]
  | cons p ps ih =>
    have hpart := Int.lt_ediv_add_one_mul_self (pool * p.2.toNat) htotal
    simp only [totalOf, map_cons, sum_cons, length_cons, Nat.cast_add, Nat.cast_one,
      add_mul, mul_add, one_mul] at ih hpart ⊢
    omega

theorem remainder_lt (hpos : 0 < totalOf scores) :
    pool - ((parts pool scores).map Prod.snd).sum < scores.length := by
  have hbound := mul_total_le pool hpos scores
  have hnodes : 0 < scores.length := by
    rcases Nat.eq_zero_or_pos scores.length with hzero | hnodes
    · rw [length_eq_zero_iff.mp hzero] at hpos
      exact absurd hpos (lt_irrefl 0)
    · exact hnodes
  rw [parts, map_map]
  change pool - (scores.map fun p => pool * p.2.toNat / totalOf scores).sum < scores.length
  have hless : pool * totalOf scores <
      ((scores.map fun p => pool * p.2.toNat / totalOf scores).sum + scores.length) *
      totalOf scores := by omega
  have := lt_of_mul_lt_mul_right hless hpos.le
  omega

/-- Each address is paid its part, rounded down, and nobody else anything; a higher score gets no
less; and the pool is not overdrawn. -/
structure PaysByScore (pool : Int) (scores : List (Address × UInt64))
    (payments : List (Address × Int)) : Prop where
  part : ∀ a score, (a, score) ∈ scores → paidTo payments a = pool * score.toNat / totalOf scores
  only : ∀ p ∈ payments, p.1 ∈ scores.map Prod.fst
  order : ∀ a score b score', (a, score) ∈ scores → (b, score') ∈ scores → score ≤ score' →
    paidTo payments a ≤ paidTo payments b
  within : (payments.map Prod.snd).sum ≤ pool

theorem paysByScore_distribution (hpool : 0 ≤ pool) (hkeys : (scores.map Prod.fst).Nodup)
    (hpos : 0 < totalOf scores) (hlt : totalOf scores < 2 ^ 64) :
    PaysByScore pool scores (distribution pool scores) := by
  have hlt' : (scores.map (·.2.toNat)).sum < 2 ^ 64 := by
    unfold totalOf at hlt
    omega
  obtain ⟨hto, hle⟩ := distribution_spec hpool hlt'
  have hpart : ∀ a score, (a, score) ∈ scores →
      paidTo (distribution pool scores) a = pool * score.toNat / totalOf scores := by
    intro a score hmem
    rw [paidTo_distribution hpool hpos hlt]
    exact paidTo_map hkeys hmem
  refine ⟨hpart, fun p hp => (hto p hp).2, fun a score b score' ha hb hscore => ?_, hle⟩
  rw [hpart a score ha, hpart b score' hb]
  refine Int.ediv_le_ediv hpos (Int.mul_le_mul_of_nonneg_left ?_ hpool)
  exact_mod_cast UInt64.le_iff_toNat_le.mp hscore

/-- **A pool is distributed by score**, and what is left of it is less than one for each node; the
pool of the light nodes likewise.  The map is given in the order in which it is walked. -/
theorem distribution_exact (pool : Int) (scores : List (Address × UInt64)) (hpool : 0 ≤ pool)
    (hkeys : (scores.map Prod.fst).Nodup) (hpos : 0 < totalOf scores)
    (hlt : totalOf scores < 2 ^ 64) :
    (∃ payments remainder, PaysByScore pool scores payments ∧
      (∀ s, distributeByScore s pool scores = (s.payAll payments, remainder)) ∧
      0 ≤ remainder ∧ remainder < scores.length ∧ (payments.map Prod.snd).sum + remainder = pool) ∧
    ∃ payments, PaysByScore blockRewardSmartLightPool scores payments ∧
      ∀ s, accumulateSmartLightRewards s scores = s.payAll payments := by
  have hpays := paysByScore_distribution hpool hkeys hpos hlt
  have hwithin := hpays.within
  refine ⟨⟨_, _, hpays, fun _ => rfl, by omega, ?_, by omega⟩,
    _, paysByScore_distribution (by decide) hkeys hpos hlt,
    fun s => accumulateSmartLightRewards_eq s scores⟩
  rw [sum_distribution hpool hpos hlt]
  exact remainder_lt hpos

/-- Eleven wei for three nodes with a point each: two are left. -/
theorem distribution_exact_threePoints :
    ∃ payments, PaysByScore 11 [(1, 1), (2, 1), (3, 1)] payments ∧
      distributeByScore rewardState 11 [(1, 1), (2, 1), (3, 1)] =
        (rewardState.payAll payments, 2) := by
  obtain ⟨⟨payments, remainder, hpays, heq, -⟩, -⟩ :=
    distribution_exact 11 [(1, 1), (2, 1), (3, 1)] (by decide)
    (by decide) (by decide) (by decide)
  have hremainder : (distributeByScore rewardState 11 [(1, 1), (2, 1), (3, 1)]).2 = 2 := by
    decide +kernel
  obtain rfl : remainder = 2 := (congrArg Prod.snd (heq rewardState)).symm.trans hremainder
  exact ⟨payments, hpays, heq rewardState⟩

end ProbeChain
