/-
# Behavior scores

The scores of `consensus/pob/behavior.go` for validators, agents and physical nodes, and that of a
relay in `consensus/pob/relay_network.go`.  A score is in basis points, `maxScore` at most.  Each
dimension of a score is a quotient of counters, or a number of points for each count, up to a cap; a
total is the weighted mean of the dimensions.

Everything is computed in 64 bits, products of counters with `maxScore` included.  A score is what
its formula over the naturals says as long as none of them reaches 2^64 (`scores_exact`), and a
slashing takes exactly its part where its product does not (`proportionalSlash_exact_iff`).
-/
import ProbeChain.Consensus.Snapshot

namespace ProbeChain

open List UInt64

/-! ## 1. Validators, agents and physical nodes -/

/-- The share of what is good in what is counted.  It is `fallback` where nothing is counted. -/
def rate (good bad fallback : UInt64) : UInt64 :=
  let total := good + bad
  if total = 0 then fallback else good * maxScore / total

def capped (score : UInt64) : UInt64 := if score > maxScore then maxScore else score

namespace ValidatorHistory

variable (h : ValidatorHistory)

def calcLiveness : UInt64 := rate h.blocksProposed h.blocksMissed maxScore
def calcCorrectness : UInt64 := rate h.blocksProposed h.invalidProposals maxScore
def calcCooperation : UInt64 := rate h.acksGiven h.acksMissed maxScore

def calcConsistency : UInt64 :=
  let penalty := h.slashCount * 1000
  if penalty ≥ maxScore then 0 else maxScore - penalty

/-- A validator that has nothing to do with the stellar services is not rated by them. -/
def calcSignalSovereignty : UInt64 :=
  let totalStellarOps := h.rydbergVerified + h.radioSyncs + h.stellarBlocks
  if totalStellarOps = 0 then defaultInitialScore
  else
    let rydberg :=
      if h.stellarBlocks > 0 then capped (h.rydbergVerified * maxScore / h.stellarBlocks) * 40 / 100
        else 0
    let radio := capped (h.radioSyncs * 100) * 30 / 100
    let stellar := capped (h.stellarBlocks * 50) * 30 / 100
    capped (rydberg + radio + stellar)

end ValidatorHistory

/-- The weights of `NewBehaviorAgent`: 25, 25, 18, 17 and 15. -/
def evaluateValidator (h : ValidatorHistory) (blockNumber : UInt64) : BehaviorScore :=
  let total :=
    (h.calcLiveness * 25 + h.calcCorrectness * 25 + h.calcCooperation * 18 +
      h.calcConsistency * 17 +
    h.calcSignalSovereignty * 15) / 100
  { total := capped total
    liveness := h.calcLiveness
    correctness := h.calcCorrectness
    cooperation := h.calcCooperation
    consistency := h.calcConsistency
    signalSovereignty := h.calcSignalSovereignty
    lastUpdate := blockNumber }

namespace AgentHistory

variable (h : AgentHistory)

def calcAgentResponsiveness : UInt64 := rate h.heartbeatsSent h.heartbeatsMissed maxScore

/-- 60% tasks and 40% attestations. -/
def calcAgentAccuracy : UInt64 :=
  let totalTasks := h.tasksCompleted + h.tasksFailed
  let totalAttests := h.attestationsOK + h.attestationsBad
  if totalTasks = 0 ∧ totalAttests = 0 then maxScore
  else
    let taskScore := if totalTasks > 0 then h.tasksCompleted * maxScore / totalTasks else maxScore
    let attestScore := if totalAttests > 0 then h.attestationsOK * maxScore / totalAttests
      else maxScore
    (taskScore * 60 + attestScore * 40) / 100

def calcAgentReliability : UInt64 :=
  let penalty := h.slashCount * 1000
  if penalty ≥ maxScore then 0
  else
    let base := maxScore - penalty
    let uptimeBonus := if h.uptime / 10 > 1000 then 1000 else h.uptime / 10
    capped (base + uptimeBonus)

def calcAgentCooperation : UInt64 := rate h.attestationsOK h.attestationsBad defaultInitialScore

def calcAgentEconomy : UInt64 :=
  if h.stakeAmount = 0 then 0 else capped (h.stakeAmount / 100000000000000)

def calcAgentSovereignty : UInt64 :=
  let totalOps := h.tasksCompleted + h.attestationsOK
  if totalOps = 0 then defaultInitialScore else capped (totalOps * 50)

end AgentHistory

/-- The weights of `NewAgentScoringAgent`: 20, 25, 15, 15, 15 and 10. -/
def evaluateAgent (h : AgentHistory) (blockNumber : UInt64) : AgentScore :=
  let total :=
    (h.calcAgentResponsiveness * 20 + h.calcAgentAccuracy * 25 + h.calcAgentReliability * 15 +
    h.calcAgentCooperation * 15 + h.calcAgentEconomy * 15 + h.calcAgentSovereignty * 10) / 100
  { total := capped total
    responsiveness := h.calcAgentResponsiveness
    accuracy := h.calcAgentAccuracy
    reliability := h.calcAgentReliability
    cooperation := h.calcAgentCooperation
    economy := h.calcAgentEconomy
    sovereignty := h.calcAgentSovereignty
    lastUpdate := blockNumber }

namespace PhysicalNodeHistory

variable (h : PhysicalNodeHistory)

def calcStorage : UInt64 :=
  if h.storageBytesProvided = 0 then defaultInitialScore
  else if h.storageBytesVerified ≥ h.storageBytesProvided then maxScore
  else h.storageBytesVerified * maxScore / h.storageBytesProvided

def calcUptime : UInt64 := rate h.uptimeBlocks h.downtimeBlocks defaultInitialScore

def calcDataService : UInt64 :=
  if h.dataServiced = 0 then defaultInitialScore else capped (h.dataServiced * maxScore / 1000)

def calcIntegrity : UInt64 :=
  let totalProofs := h.storageBytesVerified + h.invalidProofs
  if totalProofs = 0 then maxScore
  else if h.invalidProofs = 0 then maxScore
  else
    let errorRate := h.invalidProofs * maxScore / totalProofs
    if errorRate ≥ maxScore then 0 else maxScore - errorRate

end PhysicalNodeHistory

/-- The weights of `NewPhysicalNodeScoringAgent`: 40, 25, 20 and 15.  Without a history there is an
empty one. -/
def evaluatePhysicalNode (history : Option PhysicalNodeHistory) (blockNumber : UInt64) :
    PhysicalNodeScore :=
  let h := history.getD {}
  let total :=
    (h.calcStorage * 40 + h.calcUptime * 25 + h.calcDataService * 20 + h.calcIntegrity * 15) / 100
  { total := capped total
    storageContribution := h.calcStorage
    uptime := h.calcUptime
    dataService := h.calcDataService
    integrity := h.calcIntegrity
    lastUpdate := blockNumber }

/-! ## 2. Relays -/

structure RelayInfo where
  managedAgents : List Address := []
  agentHeartbeatsRelayed : UInt64 := 0
  agentAttestationsRelayed : UInt64 := 0
  agentTasksAssigned : UInt64 := 0
  agentTasksCompleted : UInt64 := 0
  invalidAggregations : UInt64 := 0
  agentDrops : UInt64 := 0
  deriving DecidableEq

namespace RelayInfo

variable (relay : RelayInfo)

def heartbeatScore : UInt64 :=
  let totalExpected := ofNat relay.managedAgents.length * 10
  if totalExpected > 0 ∧ relay.agentHeartbeatsRelayed < totalExpected then
    relay.agentHeartbeatsRelayed * maxScore / totalExpected
  else maxScore

def taskScore : UInt64 :=
  if relay.agentTasksAssigned > 0 then
    relay.agentTasksCompleted * maxScore / relay.agentTasksAssigned else maxScore

/-- What remains of `maxScore` when errors are taken off, one by one of all that is counted. -/
def errorFree (errors total : UInt64) : UInt64 :=
  if total > 0 ∧ errors > 0 then
    let errorRate := errors * maxScore / total
    if errorRate > maxScore then 0 else maxScore - errorRate
  else maxScore

def aggScore : UInt64 :=
  errorFree relay.invalidAggregations
    (relay.agentHeartbeatsRelayed + relay.agentAttestationsRelayed)

def retentionScore : UInt64 :=
  errorFree relay.agentDrops (ofNat relay.managedAgents.length + relay.agentDrops)

end RelayInfo

def calcAgentManagementScore (relay : Option RelayInfo) : UInt64 :=
  match relay with
  | none => defaultInitialScore
  | some relay =>
    if relay.managedAgents.length = 0 then defaultInitialScore
    else
      capped
        ((relay.heartbeatScore * 40 + relay.taskScore * 30 + relay.aggScore * 20 +
          relay.retentionScore * 10) / 100)

/-! ## 3. The formulas -/

/-- `⌊10000 * good / (good + bad)⌋` -/
def exactRate (good bad fallback : Nat) : Nat :=
  if good + bad = 0 then fallback else good * 10000 / (good + bad)

def exactSignalSovereignty (rydbergVerified radioSyncs stellarBlocks : Nat) : Nat :=
  if rydbergVerified + radioSyncs + stellarBlocks = 0 then 5000
  else
    let rydberg := if stellarBlocks = 0 then 0
      else min 10000 (rydbergVerified * 10000 / stellarBlocks)
    rydberg * 40 / 100 + min 10000 (radioSyncs * 100) * 30 / 100 +
      min 10000 (stellarBlocks * 50) * 30 / 100

/-- The total and the dimensions of a validator. -/
def ValidatorHistory.exact (h : ValidatorHistory) : List Nat :=
  let liveness := exactRate h.blocksProposed.toNat h.blocksMissed.toNat 10000
  let correctness := exactRate h.blocksProposed.toNat h.invalidProposals.toNat 10000
  let cooperation := exactRate h.acksGiven.toNat h.acksMissed.toNat 10000
  let consistency := 10000 - 1000 * h.slashCount.toNat
  let signalSovereignty :=
    exactSignalSovereignty h.rydbergVerified.toNat h.radioSyncs.toNat h.stellarBlocks.toNat
  [(liveness * 25 + correctness * 25 + cooperation * 18 + consistency * 17 +
    signalSovereignty * 15) / 100, liveness, correctness, cooperation, consistency,
    signalSovereignty]

def exactReliability (slashCount uptime : Nat) : Nat :=
  if 10 ≤ slashCount then 0 else min 10000 (10000 - 1000 * slashCount + min 1000 (uptime / 10))

def exactSovereignty (totalOps : Nat) : Nat :=
  if totalOps = 0 then 5000 else min 10000 (totalOps * 50)

/-- The total and the dimensions of an agent. -/
def AgentHistory.exact (h : AgentHistory) : List Nat :=
  let responsiveness := exactRate h.heartbeatsSent.toNat h.heartbeatsMissed.toNat 10000
  let accuracy := (exactRate h.tasksCompleted.toNat h.tasksFailed.toNat 10000 * 60 +
    exactRate h.attestationsOK.toNat h.attestationsBad.toNat 10000 * 40) / 100
  let reliability := exactReliability h.slashCount.toNat h.uptime.toNat
  let cooperation := exactRate h.attestationsOK.toNat h.attestationsBad.toNat 5000
  let economy := min 10000 (h.stakeAmount.toNat / 10 ^ 14)
  let sovereignty := exactSovereignty (h.tasksCompleted.toNat + h.attestationsOK.toNat)
  [(responsiveness * 20 + accuracy * 25 + reliability * 15 + cooperation * 15 + economy * 15 +
    sovereignty * 10) / 100, responsiveness, accuracy, reliability, cooperation, economy,
    sovereignty]

def exactStorage (provided verified : Nat) : Nat :=
  if provided = 0 then 5000 else min 10000 (verified * 10000 / provided)

def exactDataService (dataServiced : Nat) : Nat :=
  if dataServiced = 0 then 5000 else min 10000 (dataServiced * 10)

/-- What remains of 10000 when the share of the errors is taken off.  Nothing is taken off where
nothing is counted. -/
def exactErrorFree (errors total : Nat) : Nat := 10000 - errors * 10000 / total

/-- The total and the dimensions of a physical node. -/
def PhysicalNodeHistory.exact (h : PhysicalNodeHistory) : List Nat :=
  let storage := exactStorage h.storageBytesProvided.toNat h.storageBytesVerified.toNat
  let uptime := exactRate h.uptimeBlocks.toNat h.downtimeBlocks.toNat 5000
  let dataService := exactDataService h.dataServiced.toNat
  let integrity :=
    exactErrorFree h.invalidProofs.toNat (h.storageBytesVerified.toNat + h.invalidProofs.toNat)
  [(storage * 40 + uptime * 25 + dataService * 20 + integrity * 15) / 100, storage, uptime,
    dataService, integrity]

namespace RelayInfo

variable (relay : RelayInfo)

def exactHeartbeat : Nat :=
  min 10000 (relay.agentHeartbeatsRelayed.toNat * 10000 / (relay.managedAgents.length * 10))

/-- Agents may complete more tasks than were assigned to them. -/
def exactTask : Nat :=
  if relay.agentTasksAssigned.toNat = 0 then 10000
  else relay.agentTasksCompleted.toNat * 10000 / relay.agentTasksAssigned.toNat

def exactAgg : Nat := exactErrorFree relay.invalidAggregations.toNat
  (relay.agentHeartbeatsRelayed.toNat + relay.agentAttestationsRelayed.toNat)

def exactRetention : Nat :=
  exactErrorFree relay.agentDrops.toNat (relay.managedAgents.length + relay.agentDrops.toNat)

/-- A hundred times the mean. -/
def exactSum : Nat :=
  relay.exactHeartbeat * 40 + relay.exactTask * 30 + relay.exactAgg * 20 + relay.exactRetention * 10

end RelayInfo

/-- The score of a relay.  A relay without agents is neither rewarded nor penalized. -/
def exactManagement : Option RelayInfo → Nat
  | none => 5000
  | some relay => if relay.managedAgents.length = 0 then 5000 else min 10000 (relay.exactSum / 100)

/-! ## 4. Without wrap-around -/

theorem toNat_maxScore : maxScore.toNat = 10000 := rfl

variable {score a b : UInt64} {n : Nat}

theorem toNat_mul_of_lt (h : a.toNat * b.toNat < 2 ^ 64) : (a * b).toNat = a.toNat * b.toNat := by
  rw [UInt64.toNat_mul, Nat.mod_eq_of_lt h]

theorem toNat_add_of_lt (h : a.toNat + b.toNat < 2 ^ 64) : (a + b).toNat = a.toNat + b.toNat := by
  rw [UInt64.toNat_add, Nat.mod_eq_of_lt h]

theorem eq_zero_iff_toNat : a = 0 ↔ a.toNat = 0 := by
  rw [← UInt64.toNat_inj, UInt64.toNat_zero]

theorem toNat_capped (a : UInt64) : (capped a).toNat = min 10000 a.toNat := by
  simp only [capped, gt_iff_lt, lt_iff_toNat_lt, toNat_maxScore]
  split
  · rw [toNat_maxScore]
    omega
  · omega

theorem ite_pos_eq {α : Type} (a : UInt64) (x y : α) :
    (if a > 0 then x else y) = if a = 0 then y else x := by
  by_cases h : a = 0
  · simp [h]
  · rw [if_neg h, if_pos (UInt64.pos_iff_ne_zero.mpr h)]

theorem toNat_sub_of_le_maxScore {penalty : UInt64} (h : penalty ≤ maxScore) :
    (maxScore - penalty).toNat = 10000 - penalty.toNat := by
  rw [UInt64.toNat_sub_of_le _ _ h, toNat_maxScore]

/-- What is taken off `maxScore`. -/
theorem toNat_maxScore_sub (penalty : UInt64) :
    (if penalty ≥ maxScore then 0 else maxScore - penalty).toNat = 10000 - penalty.toNat := by
  split
  next hle =>
    have hle := le_iff_toNat_le.mp hle
    rw [toNat_maxScore] at hle
    rw [UInt64.toNat_zero]
    omega
  next hlt => exact toNat_sub_of_le_maxScore (UInt64.le_of_lt (UInt64.not_le.mp hlt))

/-- Quotients of counters. -/
theorem toNat_share (h : a.toNat * 10000 < 2 ^ 64) (b : UInt64) :
    (a * maxScore / b).toNat = a.toNat * 10000 / b.toNat := by
  rw [UInt64.toNat_div, toNat_mul_of_lt h, toNat_maxScore]

theorem share_le {a b : Nat} (h : a ≤ b) : a * 10000 / b ≤ 10000 :=
  Nat.div_le_of_le_mul (Nat.mul_le_mul_right _ h)

/-- A quotient that is not worked out where it would be too large. -/
theorem toNat_share_of_lt (hproduct : a.toNat < b.toNat → a.toNat * 10000 < 2 ^ 64)
    (hpos : 0 < b.toNat) :
    (if a < b then a * maxScore / b else maxScore).toNat =
      min 10000 (a.toNat * 10000 / b.toNat) := by
  by_cases h : a < b
  · have hlt := lt_iff_toNat_lt.mp h
    rw [if_pos h, toNat_share (hproduct hlt), Nat.min_eq_right (share_le hlt.le)]
  · have hle := UInt64.le_iff_toNat_le.mp (UInt64.not_lt.mp h)
    have hfull : 10000 ≤ a.toNat * 10000 / b.toNat := by
      rw [Nat.le_div_iff_mul_le hpos, Nat.mul_comm]
      exact Nat.mul_le_mul_right _ hle
    rw [if_neg h, toNat_maxScore, Nat.min_eq_left hfull]

/-- A score of `n` basis points. -/
def Reads (score : UInt64) (n : Nat) : Prop := score.toNat = n ∧ score ≤ maxScore

theorem reads_of (h : score.toNat = n) (hle : n ≤ 10000) : Reads score n :=
  ⟨h, le_iff_toNat_le.mpr (h.trans_le hle)⟩

theorem Reads.le (h : Reads score n) : n ≤ 10000 :=
  h.1 ▸ le_iff_toNat_le.mp h.2

/-- A score that is what the formulas say, in the total and in every dimension. -/
def Exactly (score : List UInt64) (formulas : List Nat) : Prop := List.Forall₂ Reads score formulas

theorem exactRate_le {good bad fallback : Nat} (h : fallback ≤ 10000) :
    exactRate good bad fallback ≤ 10000 := by
  unfold exactRate
  split
  · exact h
  · exact share_le (Nat.le_add_right _ _)

theorem reads_rate {good bad fallback : UInt64} (hfallback : Reads fallback n)
    (hsum : good.toNat + bad.toNat < 2 ^ 64) (hproduct : good.toNat * 10000 < 2 ^ 64) :
    Reads (rate good bad fallback) (exactRate good.toNat bad.toNat n) := by
  refine reads_of ?_ (exactRate_le hfallback.le)
  have htotal := toNat_add_of_lt hsum
  unfold rate exactRate
  simp only [← htotal, ← eq_zero_iff_toNat]
  split
  · exact hfallback.1
  · rw [toNat_share hproduct, htotal]

theorem reads_maxScore : Reads maxScore 10000 := ⟨rfl, UInt64.le_refl _⟩

theorem reads_defaultInitialScore : Reads defaultInitialScore 5000 := ⟨rfl, by decide⟩

/-- The cap changes nothing. -/
theorem reads_capped (h : score.toNat = n) (hle : n ≤ 10000) : Reads (capped score) n := by
  refine reads_of ?_ hle
  rw [toNat_capped, h]
  exact Nat.min_eq_right hle

/-- Some percent of a score below the cap. -/
theorem toNat_percent_capped (a : UInt64) {percent : UInt64}
    (hpercent : percent.toNat ≤ 100 := by decide) :
    (capped a * percent / 100).toNat = min 10000 a.toNat * percent.toNat / 100 := by
  have hle : min 10000 a.toNat * percent.toNat ≤ 10000 * 100 :=
    Nat.mul_le_mul (Nat.min_le_left _ _) hpercent
  rw [UInt64.toNat_div, toNat_mul_of_lt (by rw [toNat_capped]; omega), toNat_capped]
  rfl

/-- A sum of scores, each with its weight, and the weights add up to `weight`. -/
def Weighs (sum : UInt64) (n weight : Nat) : Prop := sum.toNat = n ∧ n ≤ 10000 * weight

theorem Reads.weighs (h : Reads score n) (weight : UInt64)
    (hweight : weight.toNat ≤ 100 := by decide) :
    Weighs (score * weight) (n * weight.toNat) weight.toNat := by
  have hle := Nat.mul_le_mul_right weight.toNat h.le
  refine ⟨?_, hle⟩
  rw [toNat_mul_of_lt (by rw [h.1]; omega), h.1]

theorem Weighs.add {l m v w : Nat} (ha : Weighs a l v) (hb : Weighs b m w)
    (h : v + w ≤ 100 := by decide) :
    Weighs (a + b) (l + m) (v + w) := by
  obtain ⟨ha, hl⟩ := ha
  obtain ⟨hb, hm⟩ := hb
  refine ⟨?_, by omega⟩
  rw [toNat_add_of_lt (by omega), ha, hb]

/-- The weighted mean. -/
theorem Weighs.toNat_mean {sum : UInt64} (h : Weighs sum n 100) :
    (sum / 100).toNat = n / 100 ∧ n / 100 ≤ 10000 := by
  obtain ⟨hsum, hle⟩ := h
  rw [UInt64.toNat_div, hsum]
  exact ⟨rfl, by omega⟩

theorem Weighs.reads {sum : UInt64} (h : Weighs sum n 100) : Reads (capped (sum / 100)) (n / 100) :=
  reads_capped h.toNat_mean.1 h.toNat_mean.2

/-! ### Validators -/

def BehaviorScore.values (s : BehaviorScore) : List UInt64 :=
  [s.total, s.liveness, s.correctness, s.cooperation, s.consistency, s.signalSovereignty]

namespace ValidatorHistory

/-- No sum and no product that is computed goes beyond 64 bits.  The share of the Rydberg
verifications is computed only if there are stellar blocks. -/
structure NoWrap (h : ValidatorHistory) : Prop where
  opportunities : h.blocksProposed.toNat + h.blocksMissed.toNat < 2 ^ 64
  proposals : h.blocksProposed.toNat + h.invalidProposals.toNat < 2 ^ 64
  proposed : h.blocksProposed.toNat * 10000 < 2 ^ 64
  acks : h.acksGiven.toNat + h.acksMissed.toNat < 2 ^ 64
  given : h.acksGiven.toNat * 10000 < 2 ^ 64
  slashes : h.slashCount.toNat * 1000 < 2 ^ 64
  stellarOps : h.rydbergVerified.toNat + h.radioSyncs.toNat + h.stellarBlocks.toNat < 2 ^ 64
  rydberg : h.stellarBlocks.toNat ≠ 0 → h.rydbergVerified.toNat * 10000 < 2 ^ 64
  radio : h.radioSyncs.toNat * 100 < 2 ^ 64
  stellar : h.stellarBlocks.toNat * 50 < 2 ^ 64

variable {h : ValidatorHistory}

theorem reads_calcConsistency (hslashes : h.slashCount.toNat * 1000 < 2 ^ 64) :
    Reads h.calcConsistency (10000 - 1000 * h.slashCount.toNat) := by
  refine reads_of ?_ (Nat.sub_le _ _)
  rw [calcConsistency, toNat_maxScore_sub, toNat_mul_of_lt hslashes, Nat.mul_comm]
  rfl

/-- Parts that together stay below the cap. -/
theorem toNat_capped_add {a b c : UInt64} (ha : a.toNat ≤ 4000) (hb : b.toNat ≤ 3000)
    (hc : c.toNat ≤ 3000) :
    (capped (a + b + c)).toNat = a.toNat + b.toNat + c.toNat := by
  rw [toNat_capped, UInt64.toNat_add, UInt64.toNat_add]
  omega

theorem exactSignalSovereignty_le (r s b : Nat) : exactSignalSovereignty r s b ≤ 10000 := by
  unfold exactSignalSovereignty
  split
  · decide
  · have hrydberg : (if b = 0 then 0 else min 10000 (r * 10000 / b)) ≤ 10000 := by
      split <;> omega
    dsimp only
    omega

theorem reads_calcSignalSovereignty (hw : h.NoWrap) : Reads h.calcSignalSovereignty
    (exactSignalSovereignty h.rydbergVerified.toNat h.radioSyncs.toNat h.stellarBlocks.toNat) := by
  refine reads_of ?_ (exactSignalSovereignty_le ..)
  have hops : (h.rydbergVerified + h.radioSyncs + h.stellarBlocks).toNat =
      h.rydbergVerified.toNat + h.radioSyncs.toNat + h.stellarBlocks.toNat := by
    have hsum := hw.stellarOps
    rw [toNat_add_of_lt (by rw [toNat_add_of_lt (by omega)]; omega), toNat_add_of_lt (by omega)]
  unfold calcSignalSovereignty exactSignalSovereignty
  simp only [← hops, ← eq_zero_iff_toNat]
  split
  · rfl
  · have hrydberg : (if h.stellarBlocks > 0 then
        capped (h.rydbergVerified * maxScore / h.stellarBlocks) * 40 / 100
        else 0).toNat = (if h.stellarBlocks = 0 then 0 else
          min 10000 (h.rydbergVerified.toNat * 10000 / h.stellarBlocks.toNat)) * 40 / 100 := by
      rw [ite_pos_eq]
      split
      · rfl
      next hne =>
        rw [toNat_percent_capped _, toNat_share (hw.rydberg (mt eq_zero_iff_toNat.mpr hne))]
        rfl
    have hradio : (capped (h.radioSyncs * 100) * 30 / 100).toNat =
        min 10000 (h.radioSyncs.toNat * 100) * 30 / 100 := by
      rw [toNat_percent_capped _, toNat_mul_of_lt hw.radio]
      rfl
    have hstellar : (capped (h.stellarBlocks * 50) * 30 / 100).toNat =
        min 10000 (h.stellarBlocks.toNat * 50) * 30 / 100 := by
      rw [toNat_percent_capped _, toNat_mul_of_lt hw.stellar]
      rfl
    rw [toNat_capped_add (by rw [hrydberg]; split <;> omega) (by omega) (by omega), hrydberg,
      hradio, hstellar]

theorem NoWrap.evaluateValidator (hw : h.NoWrap) (blockNumber : UInt64) :
    Exactly (evaluateValidator h blockNumber).values h.exact := by
  have hliveness : Reads h.calcLiveness _ := reads_rate reads_maxScore hw.opportunities hw.proposed
  have hcorrectness : Reads h.calcCorrectness _ :=
    reads_rate reads_maxScore hw.proposals hw.proposed
  have hcooperation : Reads h.calcCooperation _ := reads_rate reads_maxScore hw.acks hw.given
  have hconsistency := reads_calcConsistency hw.slashes
  have hsovereignty := reads_calcSignalSovereignty hw
  have hproduction := (hliveness.weighs 25).add (hcorrectness.weighs 25)
  have hconduct := (hproduction.add (hcooperation.weighs 18)).add (hconsistency.weighs 17)
  have htotal := (hconduct.add (hsovereignty.weighs 15)).reads
  exact .cons htotal
    (.cons hliveness
      (.cons hcorrectness (.cons hcooperation (.cons hconsistency (.cons hsovereignty .nil)))))

end ValidatorHistory

/-! ### Agents -/

def AgentScore.values (s : AgentScore) : List UInt64 :=
  [s.total, s.responsiveness, s.accuracy, s.reliability, s.cooperation, s.economy, s.sovereignty]

namespace AgentHistory

/-- No sum and no product that is computed goes beyond 64 bits. -/
structure NoWrap (h : AgentHistory) : Prop where
  heartbeats : h.heartbeatsSent.toNat + h.heartbeatsMissed.toNat < 2 ^ 64
  sent : h.heartbeatsSent.toNat * 10000 < 2 ^ 64
  tasks : h.tasksCompleted.toNat + h.tasksFailed.toNat < 2 ^ 64
  completed : h.tasksCompleted.toNat * 10000 < 2 ^ 64
  attests : h.attestationsOK.toNat + h.attestationsBad.toNat < 2 ^ 64
  ok : h.attestationsOK.toNat * 10000 < 2 ^ 64
  slashes : h.slashCount.toNat * 1000 < 2 ^ 64
  ops : (h.tasksCompleted.toNat + h.attestationsOK.toNat) * 50 < 2 ^ 64

variable {h : AgentHistory}

theorem calcAgentAccuracy_eq (h : AgentHistory) : h.calcAgentAccuracy =
    (rate h.tasksCompleted h.tasksFailed maxScore * 60 +
      rate h.attestationsOK h.attestationsBad maxScore * 40) / 100 := by
  unfold calcAgentAccuracy rate
  simp only [ite_pos_eq]
  split
  next hzero =>
    rw [if_pos hzero.1, if_pos hzero.2]
    rfl
  next => rfl

theorem reads_calcAgentAccuracy (hw : h.NoWrap) : Reads h.calcAgentAccuracy
    ((exactRate h.tasksCompleted.toNat h.tasksFailed.toNat 10000 * 60 +
      exactRate h.attestationsOK.toNat h.attestationsBad.toNat 10000 * 40) / 100) := by
  have htasks := reads_rate reads_maxScore hw.tasks hw.completed
  have hattests := reads_rate reads_maxScore hw.attests hw.ok
  have hmean := ((htasks.weighs 60).add (hattests.weighs 40)).toNat_mean
  rw [calcAgentAccuracy_eq]
  exact reads_of hmean.1 hmean.2

theorem reads_calcAgentReliability (hslashes : h.slashCount.toNat * 1000 < 2 ^ 64) :
    Reads h.calcAgentReliability (exactReliability h.slashCount.toNat h.uptime.toNat) := by
  have hpenalty : (h.slashCount * 1000).toNat = h.slashCount.toNat * 1000 :=
    toNat_mul_of_lt hslashes
  have hdiv : (h.uptime / 10).toNat = h.uptime.toNat / 10 := UInt64.toNat_div ..
  have hbonus : (if h.uptime / 10 > 1000 then 1000 else h.uptime / 10).toNat =
      min 1000 (h.uptime.toNat / 10) := by
    simp only [gt_iff_lt, lt_iff_toNat_lt, hdiv, reduceToNat]
    split <;> simp only [hdiv, reduceToNat] <;> omega
  unfold calcAgentReliability exactReliability
  dsimp only
  split
  next hle =>
    have hle := le_iff_toNat_le.mp hle
    rw [toNat_maxScore, hpenalty] at hle
    rw [if_pos (by omega)]
    exact reads_of rfl (by decide)
  next hlt =>
    have hbase := toNat_sub_of_le_maxScore (UInt64.le_of_lt (UInt64.not_le.mp hlt))
    have hlt := UInt64.lt_iff_toNat_lt.mp (UInt64.not_le.mp hlt)
    rw [toNat_maxScore, hpenalty] at hlt
    have hfew : ¬ 10 ≤ h.slashCount.toNat := by omega
    rw [if_neg hfew]
    refine reads_of ?_ (Nat.min_le_left _ _)
    rw [toNat_capped, toNat_add_of_lt (by omega), hbase, hbonus]
    omega

theorem reads_calcAgentEconomy (h : AgentHistory) :
    Reads h.calcAgentEconomy (min 10000 (h.stakeAmount.toNat / 10 ^ 14)) := by
  refine reads_of ?_ (Nat.min_le_left _ _)
  unfold calcAgentEconomy
  split
  next hzero =>
    rw [hzero]
    decide
  next =>
    rw [toNat_capped, UInt64.toNat_div, show (100000000000000 : UInt64).toNat = 10 ^ 14 from rfl]

theorem reads_calcAgentSovereignty
    (hops : (h.tasksCompleted.toNat + h.attestationsOK.toNat) * 50 < 2 ^ 64) :
    Reads h.calcAgentSovereignty
      (exactSovereignty (h.tasksCompleted.toNat + h.attestationsOK.toNat)) := by
  have hsum : (h.tasksCompleted + h.attestationsOK).toNat =
      h.tasksCompleted.toNat + h.attestationsOK.toNat :=
    toNat_add_of_lt (by omega)
  unfold calcAgentSovereignty exactSovereignty
  simp only [← hsum, ← eq_zero_iff_toNat]
  split
  · exact reads_defaultInitialScore
  · refine reads_of ?_ (Nat.min_le_left _ _)
    rw [toNat_capped, toNat_mul_of_lt (by rw [hsum]; exact hops)]
    rfl

theorem NoWrap.evaluateAgent (hw : h.NoWrap) (blockNumber : UInt64) :
    Exactly (evaluateAgent h blockNumber).values h.exact := by
  have hresponsiveness : Reads h.calcAgentResponsiveness _ :=
    reads_rate reads_maxScore hw.heartbeats hw.sent
  have haccuracy := reads_calcAgentAccuracy hw
  have hreliability := reads_calcAgentReliability hw.slashes
  have hcooperation : Reads h.calcAgentCooperation _ :=
    reads_rate reads_defaultInitialScore hw.attests hw.ok
  have heconomy := reads_calcAgentEconomy h
  have hsovereignty := reads_calcAgentSovereignty hw.ops
  have hwork := (hresponsiveness.weighs 20).add (haccuracy.weighs 25)
  have hconduct := (hwork.add (hreliability.weighs 15)).add (hcooperation.weighs 15)
  have htotal := ((hconduct.add (heconomy.weighs 15)).add (hsovereignty.weighs 10)).reads
  exact .cons htotal
    (.cons hresponsiveness (.cons haccuracy (.cons hreliability (.cons hcooperation (.cons heconomy
      (.cons hsovereignty .nil))))))

end AgentHistory

/-! ### Physical nodes -/

def PhysicalNodeScore.values (s : PhysicalNodeScore) : List UInt64 :=
  [s.total, s.storageContribution, s.uptime, s.dataService, s.integrity]

namespace PhysicalNodeHistory

/-- No sum and no product that is computed goes beyond 64 bits.  Storage that is fully verified is
not multiplied. -/
structure NoWrap (h : PhysicalNodeHistory) : Prop where
  verified : h.storageBytesVerified.toNat < h.storageBytesProvided.toNat →
    h.storageBytesVerified.toNat * 10000 < 2 ^ 64
  blocks : h.uptimeBlocks.toNat + h.downtimeBlocks.toNat < 2 ^ 64
  uptime : h.uptimeBlocks.toNat * 10000 < 2 ^ 64
  dataServiced : h.dataServiced.toNat * 10000 < 2 ^ 64
  proofs : h.storageBytesVerified.toNat + h.invalidProofs.toNat < 2 ^ 64
  invalid : h.invalidProofs.toNat * 10000 < 2 ^ 64

variable {h : PhysicalNodeHistory}

theorem reads_calcStorage (hw : h.NoWrap) :
    Reads h.calcStorage
      (exactStorage h.storageBytesProvided.toNat h.storageBytesVerified.toNat) := by
  unfold calcStorage exactStorage
  simp only [← eq_zero_iff_toNat]
  split
  · exact reads_defaultInitialScore
  next hne =>
    have hpos : 0 < h.storageBytesProvided.toNat :=
      Nat.pos_of_ne_zero fun h0 => hne (eq_zero_iff_toNat.mpr h0)
    refine reads_of ?_ (Nat.min_le_left _ _)
    simp only [← toNat_share_of_lt hw.verified hpos, ge_iff_le, ← UInt64.not_lt, ite_not]

theorem reads_calcDataService (hdata : h.dataServiced.toNat * 10000 < 2 ^ 64) :
    Reads h.calcDataService (exactDataService h.dataServiced.toNat) := by
  unfold calcDataService exactDataService
  simp only [← eq_zero_iff_toNat]
  split
  · exact reads_defaultInitialScore
  · refine reads_of ?_ (Nat.min_le_left _ _)
    rw [toNat_capped, toNat_share hdata, show (1000 : UInt64).toNat = 1000 from rfl]
    omega

theorem reads_calcIntegrity (hw : h.NoWrap) : Reads h.calcIntegrity
    (exactErrorFree h.invalidProofs.toNat
      (h.storageBytesVerified.toNat + h.invalidProofs.toNat)) := by
  refine reads_of ?_ (Nat.sub_le _ _)
  unfold calcIntegrity
  rw [← toNat_add_of_lt hw.proofs]
  dsimp only
  split
  next hzero => simp [hzero, exactErrorFree, toNat_maxScore]
  next =>
    split
    next hnone => simp [hnone, exactErrorFree, toNat_maxScore]
    next => rw [toNat_maxScore_sub, toNat_share hw.invalid, exactErrorFree]

theorem NoWrap.evaluatePhysicalNode {history : Option PhysicalNodeHistory}
    (hw : (history.getD {}).NoWrap) (blockNumber : UInt64) :
    Exactly (evaluatePhysicalNode history blockNumber).values (history.getD {}).exact := by
  have hstorage := reads_calcStorage hw
  have huptime : Reads (history.getD {}).calcUptime _ :=
    reads_rate reads_defaultInitialScore hw.blocks hw.uptime
  have hdataService := reads_calcDataService hw.dataServiced
  have hintegrity := reads_calcIntegrity hw
  have hservice := (hstorage.weighs 40).add (huptime.weighs 25)
  have htotal := ((hservice.add (hdataService.weighs 20)).add (hintegrity.weighs 15)).reads
  exact .cons htotal (.cons hstorage (.cons huptime (.cons hdataService (.cons hintegrity .nil))))

end PhysicalNodeHistory

/-! ### Relays -/

namespace RelayInfo

/-- No sum and no product that is computed for a relay with agents goes beyond 64 bits.  Tasks are
rated where some are assigned, heartbeats where they are fewer than expected, and errors where
something was aggregated. -/
structure NoWrap (relay : RelayInfo) : Prop where
  expected : relay.managedAgents.length * 10 < 2 ^ 64
  heartbeats : relay.agentHeartbeatsRelayed.toNat < relay.managedAgents.length * 10 →
    relay.agentHeartbeatsRelayed.toNat * 10000 < 2 ^ 64
  completed : relay.agentTasksAssigned.toNat ≠ 0 → relay.agentTasksCompleted.toNat * 10000 < 2 ^ 64
  aggregations : relay.agentHeartbeatsRelayed.toNat + relay.agentAttestationsRelayed.toNat < 2 ^ 64
  invalid : relay.agentHeartbeatsRelayed.toNat + relay.agentAttestationsRelayed.toNat ≠ 0 →
    relay.invalidAggregations.toNat * 10000 < 2 ^ 64
  managed : relay.managedAgents.length + relay.agentDrops.toNat < 2 ^ 64
  drops : relay.agentDrops.toNat * 10000 < 2 ^ 64
  sum : relay.exactSum < 2 ^ 64

variable {relay : RelayInfo}

theorem NoWrap.toNat_length (hw : relay.NoWrap) :
    (ofNat relay.managedAgents.length).toNat = relay.managedAgents.length := by
  have hexpected := hw.expected
  exact toNat_ofNat_of_lt' (by unfold size; omega)

theorem toNat_heartbeatScore (hw : relay.NoWrap) (hagents : relay.managedAgents.length ≠ 0) :
    relay.heartbeatScore.toNat = relay.exactHeartbeat := by
  have hexpected : (ofNat relay.managedAgents.length * 10).toNat =
      relay.managedAgents.length * 10 := by
    rw [toNat_mul_of_lt (by rw [hw.toNat_length]; exact hw.expected), hw.toNat_length]
    rfl
  have hpos : 0 < (ofNat relay.managedAgents.length * 10).toNat := by
    omega
  have hshare :=
    toNat_share_of_lt (a := relay.agentHeartbeatsRelayed)
      (by rw [hexpected]; exact hw.heartbeats) hpos
  rw [hexpected] at hshare
  have hguard : ofNat relay.managedAgents.length * 10 > 0 := lt_iff_toNat_lt.mpr hpos
  simp only [heartbeatScore, exactHeartbeat, hguard, true_and, hshare]

theorem toNat_taskScore (hw : relay.NoWrap) : relay.taskScore.toNat = relay.exactTask := by
  unfold taskScore exactTask
  simp only [ite_pos_eq, ← eq_zero_iff_toNat]
  split
  · rfl
  next hne =>
    rw [toNat_share (hw.completed (mt eq_zero_iff_toNat.mpr hne))]

theorem toNat_errorFree {errors total : UInt64}
    (hproduct : total.toNat ≠ 0 → errors.toNat * 10000 < 2 ^ 64) :
    (errorFree errors total).toNat = exactErrorFree errors.toNat total.toNat := by
  unfold errorFree exactErrorFree
  dsimp only
  split
  next hsome =>
    have hpos := lt_iff_toNat_lt.mp hsome.1
    have hrate := toNat_share (hproduct hpos.ne') total
    split
    next hlt =>
      have hlt := lt_iff_toNat_lt.mp hlt
      rw [toNat_maxScore, hrate] at hlt
      rw [UInt64.toNat_zero]
      omega
    next hle => rw [toNat_sub_of_le_maxScore (UInt64.not_lt.mp hle), hrate]
  next hnone =>
    -- nothing is counted, or no error
    by_cases htotal : total = 0
    · simp [htotal, toNat_maxScore]
    · have herrors : errors = 0 := by
        by_contra hne
        exact hnone ⟨UInt64.pos_iff_ne_zero.mpr htotal, UInt64.pos_iff_ne_zero.mpr hne⟩
      simp [herrors, toNat_maxScore]

/-- A relay without agents has the initial score, and nothing is computed. -/
theorem reads_calcAgentManagementScore (hw : relay.managedAgents.length ≠ 0 → relay.NoWrap) :
    Reads (calcAgentManagementScore (some relay)) (exactManagement (some relay)) := by
  unfold ProbeChain.calcAgentManagementScore exactManagement
  dsimp only
  split
  next => exact reads_defaultInitialScore
  next hagents =>
    have hw := hw hagents
    have hheartbeat := toNat_heartbeatScore hw hagents
    have htask := toNat_taskScore hw
    have hagg : relay.aggScore.toNat = relay.exactAgg := by
      have htotal := toNat_add_of_lt hw.aggregations
      rw [aggScore, toNat_errorFree (by rw [htotal]; exact hw.invalid), htotal]
      rfl
    have hretention : relay.retentionScore.toNat = relay.exactRetention := by
      rw [retentionScore, toNat_errorFree fun _ => hw.drops,
        toNat_add_of_lt (by rw [hw.toNat_length]; exact hw.managed), hw.toNat_length]
      rfl
    have hsum := hw.sum
    unfold exactSum at hsum
    have hmean : ((relay.heartbeatScore * 40 + relay.taskScore * 30 + relay.aggScore * 20 +
        relay.retentionScore * 10) / 100).toNat = relay.exactSum / 100 := by
      simp only [UInt64.toNat_div, UInt64.toNat_add, UInt64.toNat_mul, UInt64.reduceToNat,
        hheartbeat, htask, hagg, hretention]
      unfold exactSum
      omega
    refine reads_of ?_ (Nat.min_le_left _ _)
    rw [toNat_capped, hmean]

end RelayInfo

/-! ## 5. How far the counters may go -/

/-- The counters that are multiplied or added up. -/
def ValidatorHistory.counters (h : ValidatorHistory) : List UInt64 :=
  [h.blocksProposed, h.blocksMissed, h.invalidProposals, h.acksGiven, h.acksMissed, h.slashCount,
    h.rydbergVerified, h.radioSyncs, h.stellarBlocks]

def AgentHistory.counters (h : AgentHistory) : List UInt64 :=
  [h.tasksCompleted, h.tasksFailed, h.attestationsOK, h.attestationsBad, h.heartbeatsSent,
    h.heartbeatsMissed, h.slashCount]

def PhysicalNodeHistory.counters (h : PhysicalNodeHistory) : List UInt64 :=
  [h.storageBytesProvided, h.storageBytesVerified, h.uptimeBlocks, h.downtimeBlocks, h.dataServiced,
    h.invalidProofs]

def RelayInfo.counters (relay : RelayInfo) : List UInt64 :=
  [relay.agentHeartbeatsRelayed, relay.agentAttestationsRelayed, relay.agentTasksAssigned,
    relay.agentTasksCompleted, relay.invalidAggregations, relay.agentDrops]

/-- The largest number whose product with `maxScore` fits. -/
def counterBound : UInt64 := 1844674407370955

/-- The share of the completed tasks is multiplied once more, by its weight. -/
def relayBound : UInt64 := 61489146912362

variable {bound : UInt64}

theorem toNat_counters_le {counters : List UInt64} (h : ∀ c ∈ counters, c ≤ bound) {limit : UInt64}
    (hlimit : bound ≤ limit) : ∀ c ∈ counters, c.toNat ≤ limit.toNat :=
  fun c hc => UInt64.le_iff_toNat_le.mp (UInt64.le_trans (h c hc) hlimit)

theorem ValidatorHistory.noWrap_of_le {h : ValidatorHistory} (hc : ∀ c ∈ h.counters, c ≤ bound)
    (hbound : bound ≤ counterBound) : h.NoWrap := by
  have hle := toNat_counters_le hc hbound
  simp only [counters, forall_mem_cons, show counterBound.toNat = 1844674407370955 from rfl] at hle
  constructor <;> omega

theorem AgentHistory.noWrap_of_le {h : AgentHistory} (hc : ∀ c ∈ h.counters, c ≤ bound)
    (hbound : bound ≤ counterBound) : h.NoWrap := by
  have hle := toNat_counters_le hc hbound
  simp only [counters, forall_mem_cons, show counterBound.toNat = 1844674407370955 from rfl] at hle
  constructor <;> omega

theorem PhysicalNodeHistory.noWrap_of_le {h : PhysicalNodeHistory}
    (hc : ∀ c ∈ h.counters, c ≤ bound) (hbound : bound ≤ counterBound) : h.NoWrap := by
  have hle := toNat_counters_le hc hbound
  simp only [counters, forall_mem_cons, show counterBound.toNat = 1844674407370955 from rfl] at hle
  constructor <;> omega

theorem RelayInfo.noWrap_of_le {relay : RelayInfo} (hc : ∀ c ∈ relay.counters, c ≤ bound)
    (hlen : relay.managedAgents.length ≤ bound.toNat) (hbound : bound ≤ relayBound) :
    relay.NoWrap := by
  have hle := toNat_counters_le hc hbound
  have hlen := hlen.trans (le_iff_toNat_le.mp hbound)
  simp only [counters, forall_mem_cons, show relayBound.toNat = 61489146912362 from rfl] at hle hlen
  have htask : relay.exactTask ≤ max 10000 (relay.agentTasksCompleted.toNat * 10000) := by
    unfold exactTask
    split
    · exact Nat.le_max_left _ _
    · exact (Nat.div_le_self _ _).trans (Nat.le_max_right _ _)
  have hsum : relay.exactSum < 2 ^ 64 := by
    have hheartbeat : relay.exactHeartbeat ≤ 10000 := Nat.min_le_left _ _
    have hagg : relay.exactAgg ≤ 10000 := Nat.sub_le _ _
    have hretention : relay.exactRetention ≤ 10000 := Nat.sub_le _ _
    unfold exactSum
    omega
  refine ⟨?_, ?_, ?_, ?_, ?_, ?_, ?_, hsum⟩ <;> omega

theorem next_le {limit : UInt64} (hnext : (limit + 1).toNat = limit.toNat + 1)
    (h : ¬ bound ≤ limit) :
    limit + 1 ≤ bound := by
  rw [le_iff_toNat_le, hnext]
  exact UInt64.lt_iff_toNat_lt.mp (UInt64.not_le.mp h)

/-- One more than the bound, and a validator that never missed a block has no liveness. -/
theorem not_exactly_beyond (blockNumber : UInt64) :
    ¬ Exactly (evaluateValidator { blocksProposed := counterBound + 1 } blockNumber).values
      (ValidatorHistory.exact { blocksProposed := counterBound + 1 }) := by
  intro h
  have hfirst : Exactly (evaluateValidator { blocksProposed := counterBound + 1 } 0).values _ := h
  have hliveness := (forall₂_cons.mp (forall₂_cons.mp hfirst).2).1
  exact absurd hliveness.1 (by decide)

/-- Far more tasks are completed than were assigned. -/
def busyRelay : RelayInfo :=
  { managedAgents := [1], agentHeartbeatsRelayed := 10, agentTasksAssigned := 1,
    agentTasksCompleted := relayBound + 1 }

theorem not_reads_beyond :
    ¬ Reads (calcAgentManagementScore (some busyRelay)) (exactManagement (some busyRelay)) := by
  intro h
  exact absurd h.1 (by decide)

/-- **A score is what its formula says as long as no sum and no product that the code computes wraps
around**, for each kind of node.  All counters may go up to `counterBound` for that, and those of
a relay up to `relayBound`; no larger bound will do.  A single history may do better by chance
(`exact_despite_wrap`), so that only the bounds can be exact. -/
theorem scores_exact (blockNumber : UInt64) :
    (∀ h : ValidatorHistory, h.NoWrap → Exactly (evaluateValidator h blockNumber).values h.exact) ∧
    (∀ h : AgentHistory, h.NoWrap → Exactly (evaluateAgent h blockNumber).values h.exact) ∧
    (∀ history : Option PhysicalNodeHistory, (history.getD {}).NoWrap →
      Exactly (evaluatePhysicalNode history blockNumber).values (history.getD {}).exact) ∧
    (∀ relay : Option RelayInfo, (∀ r ∈ relay, r.managedAgents.length ≠ 0 → r.NoWrap) →
      Reads (calcAgentManagementScore relay) (exactManagement relay)) ∧
    (∀ bound : UInt64,
      ((∀ h : ValidatorHistory, (∀ c ∈ h.counters, c ≤ bound) →
          Exactly (evaluateValidator h blockNumber).values h.exact) ∧
        (∀ h : AgentHistory, (∀ c ∈ h.counters, c ≤ bound) →
          Exactly (evaluateAgent h blockNumber).values h.exact) ∧
        (∀ h : PhysicalNodeHistory, (∀ c ∈ h.counters, c ≤ bound) →
          Exactly (evaluatePhysicalNode (some h) blockNumber).values h.exact)) ↔
            bound ≤ counterBound) ∧
    (∀ bound : UInt64,
      (∀ relay : RelayInfo, (∀ c ∈ relay.counters, c ≤ bound) →
        relay.managedAgents.length ≤ bound.toNat →
        Reads (calcAgentManagementScore (some relay)) (exactManagement (some relay))) ↔
          bound ≤ relayBound) := by
  refine ⟨fun h hw => hw.evaluateValidator blockNumber, fun h hw => hw.evaluateAgent blockNumber,
    fun history hw => PhysicalNodeHistory.NoWrap.evaluatePhysicalNode hw blockNumber,
    fun relay hw => ?_, fun bound => ?_,
    fun bound => ?_⟩
  · cases relay with
    | none => exact reads_defaultInitialScore
    | some relay => exact RelayInfo.reads_calcAgentManagementScore (hw relay rfl)
  · constructor
    · intro h
      by_contra hbound
      have hnext := next_le (rfl : (counterBound + 1).toNat = _) hbound
      refine not_exactly_beyond blockNumber (h.1 _ ?_)
      simp only [ValidatorHistory.counters, forall_mem_cons]
      exact ⟨hnext, UInt64.zero_le, UInt64.zero_le, UInt64.zero_le, UInt64.zero_le, UInt64.zero_le,
        UInt64.zero_le, UInt64.zero_le, UInt64.zero_le, fun c hc => absurd hc not_mem_nil⟩
    · intro hbound
      refine ⟨fun h hc => (ValidatorHistory.noWrap_of_le hc hbound).evaluateValidator blockNumber,
        fun h hc => (AgentHistory.noWrap_of_le hc hbound).evaluateAgent blockNumber, fun h hc => ?_⟩
      have hw : ((some h).getD {}).NoWrap := PhysicalNodeHistory.noWrap_of_le hc hbound
      exact hw.evaluatePhysicalNode blockNumber
  · constructor
    · intro h
      by_contra hbound
      have hnext := next_le (rfl : (relayBound + 1).toNat = _) hbound
      have hten : (10 : UInt64) ≤ bound := UInt64.le_trans (by decide) hnext
      have hone : (1 : UInt64) ≤ bound := UInt64.le_trans (by decide) hnext
      refine not_reads_beyond (h busyRelay ?_ ?_)
      · simp only [RelayInfo.counters, busyRelay, forall_mem_cons]
        exact ⟨hten, UInt64.zero_le, hone, hnext, UInt64.zero_le, UInt64.zero_le,
          fun c hc => absurd hc not_mem_nil⟩
      · show 1 ≤ bound.toNat
        exact le_iff_toNat_le.mp hone
    · exact fun hbound relay hc hlen => RelayInfo.reads_calcAgentManagementScore fun _ =>
        RelayInfo.noWrap_of_le hc hlen hbound

/-- Both the sum and the product of the cooperation wrap around, and the quotient is zero as it
should be. -/
theorem exact_despite_wrap :
    let h : ValidatorHistory :=
      { acksGiven := counterBound + 1, acksMissed := 18446744073709551615 }
    ¬ h.NoWrap ∧ Exactly (evaluateValidator h 0).values h.exact := by
  refine ⟨fun hw => absurd hw.acks (by decide), ?_⟩
  unfold Exactly Reads
  decide

/-- A node with 3.7 PB of storage, half of which was verified. -/
def halfVerified : PhysicalNodeHistory :=
  { storageBytesProvided := 3689348814741912, storageBytesVerified := 1844674407370956 }

/-- Half of the storage counts for nothing, and a validator that missed nearly all its blocks has
twice the maximal liveness. -/
theorem scores_not_exact :
    ¬ Exactly (evaluatePhysicalNode (some halfVerified) 0).values halfVerified.exact ∧
    ¬ (evaluateValidator { blocksProposed := 2, blocksMissed := 18446744073709551615 } 0).liveness ≤
      maxScore := by
  constructor
  · intro h
    have hstorage := (forall₂_cons.mp (forall₂_cons.mp h).2).1
    exact absurd hstorage.1 (by decide)
  · decide

/-! ## 6. Slashing -/

namespace BehaviorScore

/-- The severity is capped, the fraction is not. -/
def proportionalSlash (score : BehaviorScore) (severity slashFraction : UInt64) : BehaviorScore :=
  let deduction := score.total * capped severity * slashFraction / (maxScore * maxScore)
  { score with total := if deduction ≥ score.total then 0 else score.total - deduction }

/-- The product of which the deduction is the part in basis points, twice over. -/
def slashProduct (score : BehaviorScore) (severity slashFraction : UInt64) : Nat :=
  score.total.toNat * min 10000 severity.toNat * slashFraction.toNat

/-- The product does not wrap around, or what is left of it takes the whole score, as the product
would. -/
def SlashFits (score : BehaviorScore) (severity slashFraction : UInt64) : Prop :=
  score.slashProduct severity slashFraction < 2 ^ 64 ∨
    score.total.toNat ≤ score.slashProduct severity slashFraction % 2 ^ 64 / 10 ^ 8

variable (score : BehaviorScore) {severity severity' fraction fraction' : UInt64}

theorem toNat_proportionalSlash (severity fraction : UInt64) :
    (score.proportionalSlash severity fraction).total.toNat =
    score.total.toNat - score.slashProduct severity fraction % 2 ^ 64 / 10 ^ 8 := by
  have hdeduction : (score.total * capped severity * fraction / (maxScore * maxScore)).toNat =
      score.slashProduct severity fraction % 2 ^ 64 / 10 ^ 8 := by
    rw [UInt64.toNat_div, UInt64.toNat_mul, UInt64.toNat_mul, toNat_capped, Nat.mod_mul_mod]
    rfl
  rw [← hdeduction]
  dsimp only [proportionalSlash]
  split
  next hle =>
    have hle := le_iff_toNat_le.mp hle
    rw [UInt64.toNat_zero]
    omega
  next hlt => exact UInt64.toNat_sub_of_le _ _ (UInt64.le_of_lt (UInt64.not_le.mp hlt))

theorem slashProduct_mono (hseverity : severity' ≤ severity) (hfraction : fraction' ≤ fraction) :
    score.slashProduct severity' fraction' ≤ score.slashProduct severity fraction := by
  have hcapped : min 10000 severity'.toNat ≤ min 10000 severity.toNat :=
    min_le_min_left _ (le_iff_toNat_le.mp hseverity)
  exact Nat.mul_le_mul (Nat.mul_le_mul_left _ hcapped) (le_iff_toNat_le.mp hfraction)

/-- A product that wraps around is more than the whole score. -/
theorem slashFits_iff (severity fraction : UInt64) (h : score.total ≤ maxScore) :
    score.SlashFits severity fraction ↔
    min score.total.toNat (score.slashProduct severity fraction % 2 ^ 64 / 10 ^ 8) =
      min score.total.toNat (score.slashProduct severity fraction / 10 ^ 8) := by
  have htotal : score.total.toNat ≤ 10000 := le_iff_toNat_le.mp h
  unfold SlashFits
  omega

theorem total_foldl_proportionalSlash_le (calls : List (UInt64 × UInt64)) :
    (calls.foldl (fun s c => s.proportionalSlash c.1 c.2) score).total ≤ score.total := by
  induction calls generalizing score with
  | nil => exact UInt64.le_refl _
  | cons call calls ih =>
    refine UInt64.le_trans (ih _) (UInt64.le_iff_toNat_le.mpr ?_)
    rw [toNat_proportionalSlash]
    exact Nat.sub_le _ _

end BehaviorScore

/-- **Slashing never raises a score.**  After any calls, a call takes exactly its part of the score
if and only if its product does not wrap around or takes the whole score all the same; it leaves no
more than a smaller one does then. -/
theorem proportionalSlash_exact_iff (score : BehaviorScore) (h : score.total ≤ maxScore)
    (calls : List (UInt64 × UInt64)) :
    let s := calls.foldl (fun s c => s.proportionalSlash c.1 c.2) score
    s.total ≤ score.total ∧ ∀ severity fraction : UInt64,
      (s.total.toNat - (s.proportionalSlash severity fraction).total.toNat =
          min s.total.toNat (s.total.toNat * min severity.toNat 10000 * fraction.toNat / 10 ^ 8) ↔
        s.SlashFits severity fraction) ∧
      (s.SlashFits severity fraction → ∀ severity' ≤ severity, ∀ fraction' ≤ fraction,
        (s.proportionalSlash severity fraction).total ≤
          (s.proportionalSlash severity' fraction').total) := by
  intro s
  have hle := score.total_foldl_proportionalSlash_le calls
  refine ⟨hle, fun severity fraction => ?_⟩
  have hfits := s.slashFits_iff severity fraction (UInt64.le_trans hle h)
  rw [hfits, min_comm severity.toNat]
  refine ⟨?_, fun hexact severity' hseverity fraction' hfraction => le_iff_toNat_le.mpr ?_⟩
  · rw [BehaviorScore.toNat_proportionalSlash, Nat.sub_sub_eq_min]
    rfl
  · have hmono := Nat.div_le_div_right (c := 10 ^ 8) (s.slashProduct_mono hseverity hfraction)
    have hmod :=
      Nat.div_le_div_right (c := 10 ^ 8) (Nat.mod_le (s.slashProduct severity' fraction') (2 ^ 64))
    rw [BehaviorScore.toNat_proportionalSlash, BehaviorScore.toNat_proportionalSlash]
    omega

/-- Half of a tenth. -/
theorem proportionalSlash_exact_of_half :
    ((defaultBehaviorScore 5000 0).proportionalSlash 5000 1000).total.toNat = 4750 ∧
      5000 - ((defaultBehaviorScore 5000 0).proportionalSlash 5000 1000).total.toNat =
        min 5000 (5000 * 5000 * 1000 / 10 ^ 8) :=
  ⟨by decide, ((proportionalSlash_exact_iff (defaultBehaviorScore 5000 0) (by decide) []).2
    5000 1000).1.mpr
    (.inl (by decide))⟩

/-- **A larger fraction takes nothing**: the product should take the whole score, and wraps around
to less than one point. -/
theorem proportionalSlash_of_wrap :
    ((defaultBehaviorScore 10000 0).proportionalSlash 10000 10000).total = 0 ∧
      ((defaultBehaviorScore 10000 0).proportionalSlash 10000 184467440738).total = 10000 ∧
      10000 ≤ 10000 * 10000 * 184467440738 / 10 ^ 8 := by
  decide

end ProbeChain
