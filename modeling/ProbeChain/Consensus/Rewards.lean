/-
# What a block mints

The two reward models of `consensus/pob`, and `PobFinalize`, which runs when the transactions of a
block are done.  The first model pays fixed amounts for the validator, for each behavior proof and
for each uncle.  The second one (`rewards_v2.go`) pays by the volume of the block and less the more
gold is held in reserve; its comment says that it is called from `PobFinalize` once its fork is
active.  It is called from nowhere: `PobFinalize` runs the first model on both sides of the fork
(`minted_iff`).
-/
import ProbeChain.Pool.Validate
import ProbeChain.State.Supply
import ProbeChain.Consensus.Verify

namespace ProbeChain

open StateObject World List StateDB

/-! ## 1. Configuration -/

/-- `goldReserveTargetOZ` is what the text of the field reads as in base ten, if it does. -/
structure PoBV2Config where
  rewardRateBps : UInt64
  minTxValueWei : UInt64
  heartbeatRewardWei : UInt64
  maxBlockRewardWei : UInt64
  decayExponent : UInt64
  goldReserveTargetOZ : Option Int
  agentShareBps : UInt64
  physicalShareBps : UInt64
  deriving DecidableEq

def defaultPoBV2Config : PoBV2Config :=
  { rewardRateBps := 5
    minTxValueWei := 10000000000000000
    heartbeatRewardWei := 10000000000
    maxBlockRewardWei := 10000000000000000000
    decayExponent := 1
    goldReserveTargetOZ := some 1157425200
    agentShareBps := 4000
    physicalShareBps := 3000 }

/-- `PoBV2Block` and `PoBV2` of the chain configuration. -/
structure PoBV2Fork where
  block : Option Nat
  config : Option PoBV2Config

def PoBV2Fork.isPoBV2 (f : PoBV2Fork) (number : Nat) : Bool := isForked f.block number

/-! ## 2. The emission law -/

/-- The value of the transactions that count, and how many there are.  `senders` is nil where the
senders are not known. -/
def calcQualifiedVolume (txs : List Transaction) (senders : Option (Transaction → Option Address))
    (config : PoBV2Config) : Int × UInt64 :=
  txs.foldl (fun (acc : Int × UInt64) tx =>
    if tx.value < (config.minTxValueWei.toNat : Int) then acc
    else
      match senders.bind (· tx), tx.toAddr with
      | some sender, some dest =>
        if sender = dest then acc else (acc.1 + tx.value, acc.2 + 1)
      | _, _ => (acc.1 + tx.value, acc.2 + 1)) (0, 0)

/-- In basis points. -/
def calcDecayFactor (goldReserveOZ : Option Int) (config : PoBV2Config) : Int :=
  match config.goldReserveTargetOZ with
  | none => 10000
  | some target =>
    if target ≤ 0 then 10000
    else
      match goldReserveOZ with
      | none => 10000
      | some reserve =>
        if reserve ≤ 0 then 10000
        else if target ≤ reserve then 0
        else
          let decay := (target - reserve) * 10000 / target
          (fun d => d * decay / 10000)^[config.decayExponent.toNat - 1] decay

def isEmissionActive (goldReserveOZ : Option Int) (config : PoBV2Config) : Bool :=
  match config.goldReserveTargetOZ, goldReserveOZ with
  | some target, some reserve => reserve < target
  | _, _ => true

def calcBlockReward (qualifiedVolume : Int) (goldReserveOZ : Option Int) (config : PoBV2Config) :
    Int :=
  let decay := calcDecayFactor goldReserveOZ config
  if decay = 0 then 0
  else if qualifiedVolume = 0 then config.heartbeatRewardWei.toNat * decay / 10000
  else min (qualifiedVolume * config.rewardRateBps.toNat / 10000 * decay / 10000)
    config.maxBlockRewardWei.toNat

/-- The shares of the producer, the agents and the physical nodes. -/
def splitBlockReward (totalReward : Int) (config : PoBV2Config) : Int × Int × Int :=
  let agentPool := totalReward * config.agentShareBps.toNat / 10000
  let physicalPool := totalReward * config.physicalShareBps.toNat / 10000
  (totalReward - agentPool - physicalPool, agentPool, physicalPool)

/-! ## 3. Payments -/

/-- `AddBalance`, one after the other. -/
def StateDB.payAll (s : StateDB) (payments : List (Address × Int)) : StateDB :=
  payments.foldl (fun s p => s.addBalance p.1 p.2) s

/-- What a payment adds to the sum of all balances: nothing for an account that carries none. -/
def kept (w : World) (p : Address × Int) : Int :=
  if funding (w p.1) = .plain then 0 else p.2

theorem kept_credit (w : World) (a : Address) (v : Int) (p : Address × Int) :
    kept (w.credit a v) p = kept w p := by
  unfold kept
  rw [funding_credit]
  by_cases ha : p.1 = a
  · subst ha
    cases funding (w p.1) <;> simp [Funding.paid]
  · rw [if_neg ha]

theorem sum_addBalance (s : StateDB) (a : Address) (v : Int) :
    (s.addBalance a v).world.sum balance = s.world.sum balance + kept s.world (a, v) := by
  rw [world_addBalance, sum_credit countsBalance_balance]
  have hfresh : (StateObject.new .regular).balance = 0 := rfl
  unfold kept
  cases funding (s.world a) <;> simp [gain, hfresh]

/-- **What payments mint.**  A payment does not change who carries a balance, so each is judged by
the state before the first. -/
theorem sum_payAll (payments : List (Address × Int)) : ∀ s : StateDB,
    (s.payAll payments).world.sum balance =
      s.world.sum balance + (payments.map (kept s.world)).sum := by
  induction payments with
  | nil => intro s; simp [payAll]
  | cons p ps ih =>
    intro s
    have hkept : kept (s.addBalance p.1 p.2).world = kept s.world := by
      funext q
      rw [world_addBalance, kept_credit]
    rw [show s.payAll (p :: ps) = (s.addBalance p.1 p.2).payAll ps from rfl, ih, hkept,
      sum_addBalance, map_cons, sum_cons]
    exact Int.add_assoc _ _ _

theorem settled_payAll (payments : List (Address × Int)) : ∀ {s : StateDB}, s.world.Settled →
    (s.payAll payments).world.Settled := by
  induction payments with
  | nil => intro s h; exact h
  | cons p ps ih =>
    intro s h
    refine ih (s := s.addBalance p.1 p.2) ?_
    intro a o ho
    rw [world_addBalance, credit] at ho
    rcases put_eq_some.mp ho with ⟨-, rfl⟩ | ⟨-, ho⟩
    · rw [credited, setBalance_suicided]
      cases hp : s.world p.1 with
      | none => rfl
      | some q => exact h _ q hp
    · exact h a o ho

theorem payAll_append (s : StateDB) (ps qs : List (Address × Int)) :
    s.payAll (ps ++ qs) = (s.payAll ps).payAll qs := foldl_append

/-- Where no account is closed, finalising keeps every balance. -/
theorem sum_finalise {s : StateDB} (h : s.world.Settled) :
    s.finalise.world.sum balance = s.world.sum balance := by
  refine Finset.sum_congr rfl fun a _ => ?_
  rw [world_finalise]
  cases ho : s.world a with
  | none => rfl
  | some o =>
    rw [Option.bind_some, h a o ho]
    by_cases ha : a ∈ s.dirties
    · rw [if_pos ha]
      rfl
    · rw [if_neg ha]

/-! ## 4. The two reward models -/

def blockRewardPowMiner : Int := 3000000000000000000

def blockRewardPobValidator : Int := 1000000000000000000

def blockRewardPowMinerUncle : Int := 500000000000000000

def accumulateRewards (s : StateDB) (header : Header) (powUncles : List BehaviorProof) : StateDB :=
  let s := s.addBalance header.validatorAddr blockRewardPobValidator
  let s :=
    header.behaviorProofs.foldl (fun s answer => s.addBalance answer.miner blockRewardPowMiner) s
  powUncles.foldl (fun s answer => s.addBalance answer.miner blockRewardPowMinerUncle) s

/-- The payments of the first model, in their order. -/
def rewardPayments (header : Header) (powUncles : List BehaviorProof) : List (Address × Int) :=
  [(header.validatorAddr, blockRewardPobValidator)] ++
    header.behaviorProofs.map (fun answer => (answer.miner, blockRewardPowMiner)) ++
    powUncles.map (fun answer => (answer.miner, blockRewardPowMinerUncle))

theorem accumulateRewards_eq_payAll (s : StateDB) (header : Header)
    (powUncles : List BehaviorProof) :
    accumulateRewards s header powUncles = s.payAll (rewardPayments header powUncles) := by
  rw [rewardPayments, payAll_append, payAll_append]
  simp only [payAll, foldl_map]
  rfl

/-- The payments of a pool: each node gets its part by score.  The total of the scores is taken in
64 bits. -/
def distribution (pool : Int) (scores : List (Address × UInt64)) : List (Address × Int) :=
  let totalScore := scores.foldl (fun t p => t + p.2) (0 : UInt64)
  if pool ≤ 0 ∨ scores = [] ∨ totalScore = 0 then []
  else (scores.map fun p => (p.1, pool * p.2.toNat / totalScore.toNat)).filter (0 < ·.2)

/-- Makes these payments, and returns what is left of the pool. -/
def distributeByScore (s : StateDB) (pool : Int) (scores : List (Address × UInt64)) :
    StateDB × Int :=
  let payments := distribution pool scores
  (s.payAll payments, pool - (payments.map Prod.snd).sum)

/-- A payment that is made if it is positive. -/
def StateDB.payPositive (s : StateDB) (a : Address) (v : Int) : StateDB :=
  if 0 < v then s.addBalance a v else s

/-- The second model, with the scores of the agents and of the physical nodes in the order in which
the maps are walked. -/
def accumulateRewardsV2 (config : Option PoBV2Config) (s : StateDB) (header : Header)
    (txs : List Transaction) (goldReserveOZ : Option Int) (agents physicalNodes :
    List (Address × UInt64)) : StateDB :=
  let v2cfg := config.getD defaultPoBV2Config
  let goldReserve := some (goldReserveOZ.getD 0)
  if isEmissionActive goldReserve v2cfg = false then s
  else
    let qualifiedVolume := (calcQualifiedVolume txs none v2cfg).1
    let totalReward := calcBlockReward qualifiedVolume goldReserve v2cfg
    let (producerReward, agentPool, physicalPool) := splitBlockReward totalReward v2cfg
    let s := s.payPositive header.validatorAddr producerReward
    let (s, remainder) := distributeByScore s agentPool agents
    let s := s.payPositive header.validatorAddr remainder
    let (s, remainder) := distributeByScore s physicalPool physicalNodes
    s.payPositive header.validatorAddr remainder

/-- `PobFinalize`: neither the fork nor the transactions are looked at. -/
def pobFinalize (s : StateDB) (header : Header) (_txs : List Transaction)
    (powUncles : List BehaviorProof) : StateDB :=
  (accumulateRewards s header powUncles).finalise

/-! ## 5. The second model mints what the law says

A pool is paid out in full: what its parts leave goes to the producer (`poolPayments_spec`). -/

theorem toNat_totalScore (scores : List (Address × UInt64)) : ∀ t : UInt64,
    t.toNat + (scores.map (·.2.toNat)).sum < 2 ^ 64 →
    (scores.foldl (fun t p => t + p.2) t).toNat = t.toNat + (scores.map (·.2.toNat)).sum := by
  induction scores with
  | nil => intro t _; simp
  | cons p ps ih =>
    intro t h
    simp only [map_cons, sum_cons, foldl_cons] at h ⊢
    have hstep : (t + p.2).toNat = t.toNat + p.2.toNat := by
      rw [UInt64.toNat_add]
      omega
    rw [ih (t + p.2) (by omega), hstep]
    omega

/-- The parts of a pool, rounded down, are together no more than the pool's share for their
scores. -/
theorem sum_parts_mul_le (pool : Int) {total : Int} (htotal : 0 < total)
    (scores : List (Address × UInt64)) :
    (scores.map fun p => pool * p.2.toNat / total).sum * total ≤
      pool * ((scores.map (·.2.toNat)).sum : Nat) := by
  induction scores with
  | nil => simp
  | cons p ps ih =>
    simp only [map_cons, sum_cons, Nat.cast_add, add_mul, mul_add]
    have hpart := Int.ediv_mul_le (pool * p.2.toNat) (ne_of_gt htotal)
    omega

/-- Leaving out the payments that are not positive leaves the sum, if none is negative. -/
theorem sum_filter_pos (ps : List (Address × Int)) (h : ∀ p ∈ ps, 0 ≤ p.2) :
    ((ps.filter (0 < ·.2)).map Prod.snd).sum = (ps.map Prod.snd).sum := by
  induction ps with
  | nil => rfl
  | cons p ps ih =>
    have htail := ih fun q hq => h q (mem_cons_of_mem _ hq)
    have hp := h p mem_cons_self
    by_cases hpos : 0 < p.2
    · simp [hpos, htail]
    · have hzero : p.2 = 0 := by omega
      simp [hzero, htail]

/-- A pool is paid out or left over, never overdrawn. -/
theorem distribution_spec {pool : Int} {scores : List (Address × UInt64)} (hpool : 0 ≤ pool)
    (hscores : (scores.map (·.2.toNat)).sum < 2 ^ 64) :
    (∀ p ∈ distribution pool scores, 0 < p.2 ∧ p.1 ∈ scores.map Prod.fst) ∧
      ((distribution pool scores).map Prod.snd).sum ≤ pool := by
  unfold distribution
  have htotal := toNat_totalScore scores 0 (by simpa using hscores)
  rw [UInt64.toNat_zero, Nat.zero_add] at htotal
  generalize scores.foldl (fun t p => t + p.2) (0 : UInt64) = total at htotal ⊢
  by_cases hnone : pool ≤ 0 ∨ scores = [] ∨ total = 0
  · simpa [hnone] using hpool
  · simp only [if_neg hnone]
    have hpos : (0 : Int) < total.toNat := by
      have : total.toNat ≠ 0 := fun h => hnone (.inr (.inr (UInt64.toNat_inj.mp h)))
      omega
    refine ⟨fun p hp => ?_, ?_⟩
    · obtain ⟨hp, hpositive⟩ := mem_filter.mp hp
      obtain ⟨q, hq, rfl⟩ := mem_map.mp hp
      exact ⟨of_decide_eq_true hpositive, mem_map_of_mem hq⟩
    · have hle := sum_parts_mul_le pool hpos scores
      rw [← htotal] at hle
      rw [sum_filter_pos, map_map]
      · exact Int.le_of_mul_le_mul_right hle hpos
      · intro p hp
        obtain ⟨q, -, rfl⟩ := mem_map.mp hp
        exact Int.ediv_nonneg (Int.mul_nonneg hpool (Int.natCast_nonneg _)) hpos.le

def positivePayment (a : Address) (v : Int) : List (Address × Int) := if 0 < v then [(a, v)] else []

theorem payPositive_eq_payAll (s : StateDB) (a : Address) (v : Int) :
    s.payPositive a v = s.payAll (positivePayment a v) := by
  unfold payPositive positivePayment
  split <;> rfl

theorem sum_positivePayment (a : Address) {v : Int} (hv : 0 ≤ v) :
    ((positivePayment a v).map Prod.snd).sum = v := by
  unfold positivePayment
  split
  · simp
  · simp
    omega

theorem mem_positivePayment {a : Address} {v : Int} {p : Address × Int}
    (hp : p ∈ positivePayment a v) :
    0 < p.2 ∧ p.1 = a := by
  unfold positivePayment at hp
  split at hp
  · rw [mem_singleton.mp hp]
    exact ⟨‹_›, rfl⟩
  · cases hp

/-- A pool, and then what is left of it for `a`. -/
def poolPayments (a : Address) (pool : Int) (scores : List (Address × UInt64)) :
    List (Address × Int) :=
  distribution pool scores ++
    positivePayment a (pool - ((distribution pool scores).map Prod.snd).sum)

theorem poolPayments_spec {a : Address} {pool : Int} {scores : List (Address × UInt64)}
    (hpool : 0 ≤ pool) (hscores : (scores.map (·.2.toNat)).sum < 2 ^ 64) :
    (∀ p ∈ poolPayments a pool scores, 0 < p.2 ∧ p.1 ∈ a :: scores.map Prod.fst) ∧
      ((poolPayments a pool scores).map Prod.snd).sum = pool := by
  obtain ⟨hparts, hle⟩ := distribution_spec hpool hscores
  refine ⟨fun p hp => ?_, ?_⟩
  · rcases mem_append.mp hp with hp | hp
    · exact ⟨(hparts p hp).1, mem_cons_of_mem _ (hparts p hp).2⟩
    · obtain ⟨hpos, hto⟩ := mem_positivePayment hp
      exact ⟨hpos, hto ▸ mem_cons_self⟩
  · rw [poolPayments, map_append, sum_append, sum_positivePayment a (by omega)]
    omega

/-- The payments of the second model, in their order. -/
def rewardPaymentsV2 (config : Option PoBV2Config) (header : Header) (txs : List Transaction)
    (goldReserveOZ : Option Int) (agents physicalNodes : List (Address × UInt64)) :
    List (Address × Int) :=
  let v2cfg := config.getD defaultPoBV2Config
  let goldReserve := some (goldReserveOZ.getD 0)
  if isEmissionActive goldReserve v2cfg = false then []
  else
    let totalReward := calcBlockReward (calcQualifiedVolume txs none v2cfg).1 goldReserve v2cfg
    let (producerReward, agentPool, physicalPool) := splitBlockReward totalReward v2cfg
    positivePayment header.validatorAddr producerReward ++
      poolPayments header.validatorAddr agentPool agents ++
      poolPayments header.validatorAddr physicalPool physicalNodes

theorem accumulateRewardsV2_eq_payAll (config : Option PoBV2Config) (s : StateDB) (header : Header)
    (txs : List Transaction) (goldReserveOZ : Option Int)
    (agents physicalNodes : List (Address × UInt64)) :
    accumulateRewardsV2 config s header txs goldReserveOZ agents physicalNodes =
      s.payAll (rewardPaymentsV2 config header txs goldReserveOZ agents physicalNodes) := by
  unfold accumulateRewardsV2 rewardPaymentsV2
  dsimp only
  split
  · rfl
  · simp only [distributeByScore, payPositive_eq_payAll, poolPayments, payAll_append]

/-- `base ^ (n + 1)` in basis points, rounded down after each multiplication. -/
def roundedPower (base : Int) (n : Nat) : Int := (fun d => d * base / 10000)^[n] base

theorem roundedPower_succ (base : Int) (n : Nat) :
    roundedPower base (n + 1) = roundedPower base n * base / 10000 :=
  Function.iterate_succ_apply' _ n base

theorem roundedPower_nonneg {base : Int} (hbase : 0 ≤ base) (n : Nat) :
    0 ≤ roundedPower base n := by
  induction n with
  | zero => exact hbase
  | succ n ih =>
    rw [roundedPower_succ]
    exact Int.ediv_nonneg (Int.mul_nonneg ih hbase) (by decide)

theorem calcDecayFactor_nonneg (goldReserveOZ : Option Int) (config : PoBV2Config) :
    0 ≤ calcDecayFactor goldReserveOZ config := by
  unfold calcDecayFactor
  cases config.goldReserveTargetOZ with
  | none => exact (by decide : (0 : Int) ≤ 10000)
  | some target =>
    by_cases htarget : target ≤ 0
    · simp [htarget]
    · cases goldReserveOZ with
      | none => simp [htarget]
      | some reserve =>
        by_cases hreserve : reserve ≤ 0
        · simp [htarget, hreserve]
        · by_cases hreached : target ≤ reserve
          · simp [htarget, hreserve, hreached]
          · simp only [htarget, hreserve, hreached, if_false]
            exact roundedPower_nonneg
              (Int.ediv_nonneg (Int.mul_nonneg (by omega) (by decide)) (by omega)) _

/-- Only values of at least `minTxValueWei` are added up. -/
theorem calcQualifiedVolume_nonneg (txs : List Transaction)
    (senders : Option (Transaction → Option Address)) (config : PoBV2Config) :
    0 ≤ (calcQualifiedVolume txs senders config).1 := by
  suffices h : ∀ acc : Int × UInt64, 0 ≤ acc.1 → 0 ≤ (txs.foldl (fun (acc : Int × UInt64) tx =>
      if tx.value < (config.minTxValueWei.toNat : Int) then acc
      else
        match senders.bind (· tx), tx.toAddr with
        | some sender, some dest =>
          if sender = dest then acc else (acc.1 + tx.value, acc.2 + 1)
        | _, _ => (acc.1 + tx.value, acc.2 + 1)) acc).1 from h (0, 0) (le_refl _)
  induction txs with
  | nil => exact fun acc hacc => hacc
  | cons tx txs ih =>
    intro acc hacc
    rw [foldl_cons]
    refine ih _ ?_
    split
    · exact hacc
    · split
      · split
        · exact hacc
        · dsimp only; omega
      · dsimp only; omega

theorem calcBlockReward_nonneg {volume : Int} (hvolume : 0 ≤ volume) (goldReserveOZ : Option Int)
    (config : PoBV2Config) : 0 ≤ calcBlockReward volume goldReserveOZ config := by
  have hdecay := calcDecayFactor_nonneg goldReserveOZ config
  unfold calcBlockReward
  dsimp only
  split
  · exact le_refl (0 : Int)
  · split
    · exact Int.ediv_nonneg (Int.mul_nonneg (Int.natCast_nonneg _) hdecay) (by decide)
    · have hrate : 0 ≤ volume * config.rewardRateBps.toNat / 10000 :=
        Int.ediv_nonneg (Int.mul_nonneg hvolume (Int.natCast_nonneg _)) (by decide)
      exact le_min (Int.ediv_nonneg (Int.mul_nonneg hrate hdecay) (by decide))
        (Int.natCast_nonneg _)

/-- The three parts are the whole, and none is negative while the two shares are no more than
all. -/
theorem splitBlockReward_nonneg {total : Int} (htotal : 0 ≤ total) {config : PoBV2Config}
    (hshares : config.agentShareBps.toNat + config.physicalShareBps.toNat ≤ 10000) :
    0 ≤ (splitBlockReward total config).1 ∧ 0 ≤ (splitBlockReward total config).2.1 ∧
      0 ≤ (splitBlockReward total config).2.2 := by
  unfold splitBlockReward
  have hagent : 0 ≤ total * config.agentShareBps.toNat :=
    Int.mul_nonneg htotal (Int.natCast_nonneg _)
  have hphysical : 0 ≤ total * config.physicalShareBps.toNat :=
    Int.mul_nonneg htotal (Int.natCast_nonneg _)
  have hboth : total * config.agentShareBps.toNat + total * config.physicalShareBps.toNat ≤
      total * 10000 := by
    rw [← Int.mul_add]
    exact Int.mul_le_mul_of_nonneg_left (by exact_mod_cast hshares) htotal
  dsimp only
  omega

/-- Every payment of the second model is positive and goes to the producer or to a node, and while
emission is active they add up to the block reward. -/
theorem rewardPaymentsV2_spec {config : Option PoBV2Config} (header : Header)
    (txs : List Transaction) (goldReserveOZ : Option Int)
    {agents physicalNodes : List (Address × UInt64)}
    (hshares : (config.getD defaultPoBV2Config).agentShareBps.toNat +
      (config.getD defaultPoBV2Config).physicalShareBps.toNat ≤ 10000)
    (hagents : (agents.map (·.2.toNat)).sum < 2 ^ 64)
    (hphysical : (physicalNodes.map (·.2.toNat)).sum < 2 ^ 64) :
    let payments := rewardPaymentsV2 config header txs goldReserveOZ agents physicalNodes
    (∀ p ∈ payments, 0 < p.2 ∧
      p.1 ∈ header.validatorAddr :: agents.map Prod.fst ++ physicalNodes.map Prod.fst) ∧
    (isEmissionActive (some (goldReserveOZ.getD 0)) (config.getD defaultPoBV2Config) = true →
      (payments.map Prod.snd).sum = calcBlockReward
        (calcQualifiedVolume txs none (config.getD defaultPoBV2Config)).1
        (some (goldReserveOZ.getD 0)) (config.getD defaultPoBV2Config)) := by
  intro payments
  unfold payments rewardPaymentsV2
  generalize config.getD defaultPoBV2Config = cfg at *
  dsimp only
  split
  next hinactive =>
    refine ⟨by simp, fun hactive => ?_⟩
    rw [hactive] at hinactive
    cases hinactive
  · have hreward := calcBlockReward_nonneg (calcQualifiedVolume_nonneg txs none cfg)
      (some (goldReserveOZ.getD 0)) cfg
    generalize calcBlockReward (calcQualifiedVolume txs none cfg).1 (some (goldReserveOZ.getD 0))
      cfg = total at hreward ⊢
    obtain ⟨hproducer, hagentPool, hphysicalPool⟩ := splitBlockReward_nonneg hreward hshares
    obtain ⟨hfrom, hsum⟩ := poolPayments_spec (a := header.validatorAddr) hagentPool hagents
    obtain ⟨hfrom', hsum'⟩ := poolPayments_spec (a := header.validatorAddr) hphysicalPool hphysical
    refine ⟨fun p hp => ?_, fun _ => ?_⟩
    · rcases mem_append.mp hp with hp | hp
      · rcases mem_append.mp hp with hp | hp
        · obtain ⟨hpos, hto⟩ := mem_positivePayment hp
          exact ⟨hpos, by simp [hto]⟩
        · exact ⟨(hfrom p hp).1, mem_append_left _ (hfrom p hp).2⟩
      · refine ⟨(hfrom' p hp).1, ?_⟩
        rcases mem_cons.mp (hfrom' p hp).2 with hto | hto
        · simp [hto]
        · exact mem_append_right _ hto
    · rw [map_append, map_append, sum_append, sum_append, hsum, hsum',
        sum_positivePayment _ hproducer]
      simp only [splitBlockReward]
      omega

/-! ## 6. What is minted -/

/-- The fixed amounts that reach an account that carries a balance, or a new one. -/
def minted (w : World) (header : Header) (powUncles : List BehaviorProof) : Int :=
  ((rewardPayments header powUncles).map (kept w)).sum

theorem sum_pobFinalize {s : StateDB} (h : s.world.Settled) (header : Header)
    (txs : List Transaction) (powUncles : List BehaviorProof) :
    (pobFinalize s header txs powUncles).world.sum balance =
      s.world.sum balance + minted s.world header powUncles := by
  rw [pobFinalize, accumulateRewards_eq_payAll, sum_finalise (settled_payAll _ h), sum_payAll]
  rfl

/-- Reserves have reached the target. -/
def TargetReached (goldReserveOZ : Option Int) (config : PoBV2Config) : Prop :=
  ∃ target reserve, config.goldReserveTargetOZ = some target ∧ goldReserveOZ = some reserve ∧
    target ≤ reserve

/-- **The emission law and the code.**  `PobFinalize` mints what the law says, and no more than its
bounds, exactly when the fixed amounts happen to be that much: after the fork as before it, since it
pays the same on both sides. -/
theorem minted_iff {s : StateDB} (hsettled : s.world.Settled) {fork : PoBV2Fork} {header : Header}
    (txs : List Transaction) (senders : Option (Transaction → Option Address))
    (powUncles : List BehaviorProof) (goldReserveOZ : Option Int) :
    let config := fork.config.getD defaultPoBV2Config
    let increase := (pobFinalize s header txs powUncles).world.sum balance - s.world.sum balance
    let reward := calcBlockReward (calcQualifiedVolume txs senders config).1 goldReserveOZ config
    (increase = reward ∧ increase ≤ config.maxBlockRewardWei.toNat ∧
      (TargetReached goldReserveOZ config → increase = 0)) ↔
    (minted s.world header powUncles = reward ∧
      minted s.world header powUncles ≤ config.maxBlockRewardWei.toNat ∧
      (TargetReached goldReserveOZ config → minted s.world header powUncles = 0)) := by
  intro config increase reward
  have hincrease : increase = minted s.world header powUncles := by
    show (pobFinalize s header txs powUncles).world.sum balance - s.world.sum balance = _
    rw [sum_pobFinalize hsettled]
    omega
  rw [hincrease]

/-- One Regular account, which is the validator of the block. -/
def rewardState : StateDB := ofAccounts [(1, .ofBalance 0)]

def rewardHeader : Header := { number := 10, validatorAddr := 1 }

/-- With a heartbeat reward of exactly the fixed amount an empty block mints what it should. -/
theorem minted_heartbeat :
    let config := { defaultPoBV2Config with heartbeatRewardWei := 1000000000000000000 }
    (pobFinalize rewardState rewardHeader [] []).world.sum balance - rewardState.world.sum balance =
      calcBlockReward (calcQualifiedVolume [] none config).1 none config := by
  intro config
  have hsettled : rewardState.world.Settled := settled_ofAccounts _ (by simp [ofBalance])
  refine ((@minted_iff _ hsettled ⟨some 5, some config⟩ rewardHeader [] none [] none).mpr ?_).1
  refine ⟨by decide +kernel, by decide +kernel, ?_⟩
  rintro ⟨_, _, -, h, -⟩
  cases h

/-- By default an empty block mints a hundred million times what the law gives. -/
theorem minted_empty_block :
    (⟨some 5, none⟩ : PoBV2Fork).isPoBV2 rewardHeader.number = true ∧
    (pobFinalize rewardState rewardHeader [] []).world.sum balance - rewardState.world.sum balance =
      1000000000000000000 ∧
    calcBlockReward (calcQualifiedVolume [] none defaultPoBV2Config).1 (some 0) defaultPoBV2Config =
      10000000000 := by
  have hsettled : rewardState.world.Settled := settled_ofAccounts _ (by simp [ofBalance])
  refine ⟨rfl, ?_, by decide +kernel⟩
  rw [sum_pobFinalize hsettled]
  have hminted : minted rewardState.world rewardHeader [] = 1000000000000000000 := by decide +kernel
  omega

end ProbeChain
