/-
# The worker of a validator

`newWorkLoop` with the goroutines it starts, `mainLoop`, `stellarSpeedLoop`, `commitAckLoop` and
`ackMonitorLoop` run side by side.  Here they are one state machine: an event is one round of one of
them, and what the round asks the chain (who produces, how many acks there are, whether signing
succeeds) comes with the event as a `View`, so that it may be anything.

`commit` is in two parts.  `newWorkLoop` and its polling goroutines both call it and nothing keeps
them apart, so other rounds can come between the test of `sealedBlockNumber` and its assignment.  A
timer may expire at any time: `Stop` does not take back a tick that is already in the channel.
-/
import ProbeChain.Consensus.AckPool
import ProbeChain.Consensus.Produce

namespace ProbeChain

/-! ## 1. Configuration and environment -/

structure StellarSpeedConfig where
  enabled : Bool
  reducedAckQuorum : Bool

/-- `validatorWitnessCount` is the global that `newWorker` sets. -/
structure WorkerConfig where
  chainConfig : ChainConfig
  stellarSpeed : Option StellarSpeedConfig
  validatorWitnessCount : Nat

namespace WorkerConfig

variable (config : WorkerConfig)

def witness (number : Nat) : WitnessParams where
  validatorWitnessCount := config.validatorWitnessCount
  reducedAckQuorum :=
    config.chainConfig.isStellarSpeed number && config.stellarSpeed.any (·.reducedAckQuorum)

def leastValidatorWitness : Nat := config.validatorWitnessCount * 1 / 3 + 1

def mostValidatorWitness : Nat := config.validatorWitnessCount * 2 / 3 + 1

/-- `newWorker` starts `stellarSpeedLoop`. -/
def startsStellarSpeedLoop : Bool := config.stellarSpeed.any (·.enabled)

end WorkerConfig

/-- What the chain and the engine answer in one round. -/
structure View where
  imProducer : Nat → Bool
  imValidatorWorkNode : Nat → Bool
  agreeAckNum : Nat
  opposeAckNum : Nat
  checkBehaviorProofNumber : Bool
  /-- `ValidatorAddr` of the block of a chain head event. -/
  validatorAddr : Address
  /-- How many acks `CheckAndGetNumAcks` gives for the parent of the new block. -/
  parentAcks : Nat
  /-- The state is there, the transactions are packed without an interrupt and `Seal` has no
  error. -/
  packs : Bool
  /-- The worker has a position among the validators and `AckSig` has no error. -/
  signs : Bool

/-! ## 2. State -/

structure NewWorkReq where
  newBlockNumber : Nat
  newBlockType : BlockType
  deriving DecidableEq

/-- The part of the state that the production of blocks is about.  `testing` are the calls of
`commit` between their tests and their assignment, `requests` what waits for `mainLoop`, and
`sealedSince` the blocks above the head that were signed since the head last changed. -/
structure Production where
  coinbase : Address
  currentBlock : Nat
  sealedBlockNumber : Nat := 0
  testing : List Nat := []
  requests : List NewWorkReq := []
  sealedSince : List NewWorkReq := []
  deriving DecidableEq

/-- The part of the state that the acks are about.  `acks` are all that were ever signed. -/
structure Voting where
  visualBlockNumber : Nat := 0
  effectBlockNumber : Nat := 0
  rejectBlockNumber : Nat := 0
  acks : List (Nat × AckType) := []
  deriving DecidableEq

/-- `commitAckLoop`: not yet begun, in its loop since the head was `now`, or returned. -/
inductive CommitAckLoop where
  | starting
  | sending (now : Nat)
  | returned
  deriving DecidableEq

structure Worker extends Production, Voting where
  running : Bool := false
  delaySealBlockNumber : Nat := 0
  timerSealDealineSetFlag : Bool := false
  timerDelaySealSetFlag : Bool := false
  /-- The blocks for whose acks a goroutine polls. -/
  polls : List Nat := []
  /-- The acks for the genesis block are sent again. -/
  resending : Bool := false
  commitAckLoop : CommitAckLoop := .starting
  lastHeight : Nat := 0
  stuckCount : Nat := 0
  deriving DecidableEq

def newWorker (probebase : Address) (head : Nat) : Worker :=
  { coinbase := probebase, currentBlock := head }

/-! ## 3. Signing blocks and acks -/

namespace Production

/-- The tests of `commit`. -/
def commit (p : Production) (newBlockNumber : Nat) : Production :=
  if newBlockNumber ≤ p.sealedBlockNumber then p
  else if newBlockNumber ≤ p.currentBlock then p
  else { p with testing := newBlockNumber :: p.testing }

/-- The rest of `commit`. -/
def sendWork (p : Production) (visualBlockNumber newBlockNumber : Nat) : Production :=
  if newBlockNumber ∈ p.testing then
    { p with
      testing := p.testing.erase newBlockNumber
      sealedBlockNumber := newBlockNumber
      requests := p.requests ++
        [⟨newBlockNumber, if newBlockNumber = visualBlockNumber + 1 then .effect else .visual⟩] }
  else p

def validatorCommitNewWork (config : WorkerConfig) (p : Production) (v : View) (req : NewWorkReq) :
    Production :=
  if p.coinbase = 0 then p
  else if v.parentAcks < (config.witness req.newBlockNumber).requiredAcks ∧
      1 < config.validatorWitnessCount then p
  else if v.packs = false then p
  else if p.currentBlock < req.newBlockNumber then { p with sealedSince := req :: p.sealedSince }
  else p

/-- `mainLoop` takes the next request. -/
def mainLoop (config : WorkerConfig) (p : Production) (v : View) : Production :=
  match p.requests with
  | [] => p
  | req :: requests => validatorCommitNewWork config { p with requests := requests } v req

def newHead (p : Production) (number : Nat) : Production :=
  { p with currentBlock := number, sealedSince := [] }

end Production

def Voting.sendAck (s : Voting) (v : View) (blockNumber : Nat) (ackType : AckType) : Voting :=
  if v.signs then { s with acks := (blockNumber, ackType) :: s.acks } else s

/-! ## 4. The rounds of the loops -/

namespace Worker

variable (config : WorkerConfig) (w : Worker) (v : View)

def commit (newBlockNumber : Nat) : Worker :=
  { w with toProduction := w.toProduction.commit newBlockNumber }

def sendAck (blockNumber : Nat) (ackType : AckType) : Worker :=
  { w with toVoting := w.toVoting.sendAck v blockNumber ackType }

/-- Both timers are stopped unless they wait for a block that is still to come. -/
def stopTimers (blockNumber : Nat) : Worker :=
  if w.rejectBlockNumber ≤ blockNumber then
    { w with timerSealDealineSetFlag := false, timerDelaySealSetFlag := false }
  else w

/-- The producer of the next block commits at once if it is alone, and else polls for acks. -/
def produceNext (blockNumber : Nat) : Worker :=
  if v.imProducer (blockNumber + 1) then
    if config.validatorWitnessCount = 1 then w.commit (blockNumber + 1)
    else { w with polls := blockNumber :: w.polls }
  else w

def resendGenesis (blockNumber : Nat) : Worker :=
  if blockNumber = 0 ∧ 1 < config.validatorWitnessCount then { w with resending := true } else w

/-- A chain head event.  The events that the worker itself posts have no block. -/
def chainHead (block : Option Nat) : Worker :=
  let blockNumber := block.getD w.currentBlock
  if blockNumber ≠ 0 ∧ blockNumber ≤ w.visualBlockNumber then
    if v.validatorAddr = w.coinbase ∧ w.effectBlockNumber < blockNumber then
      w.commit (blockNumber + 1)
    else w
  else
    let w := { w with visualBlockNumber := blockNumber, effectBlockNumber := blockNumber }
    let w := w.stopTimers blockNumber
    if v.imValidatorWorkNode blockNumber then
      ((w.sendAck v blockNumber ackTypeAgree).resendGenesis config blockNumber).produceNext config v
        blockNumber
    else w

/-- The same for an ack and for a behavior proof that the worker waits for. -/
def countAcks : Worker :=
  let agreeAckNum := if w.visualBlockNumber = w.currentBlock then v.agreeAckNum else 0
  if v.imProducer (w.visualBlockNumber + 1) then
    if v.checkBehaviorProofNumber ∧ (config.mostValidatorWitness ≤ agreeAckNum ∨
        config.mostValidatorWitness ≤ v.opposeAckNum) then
      w.commit (w.effectBlockNumber + 1)
    else if w.timerDelaySealSetFlag = false ∧ v.checkBehaviorProofNumber ∧
        (config.leastValidatorWitness ≤ agreeAckNum ∨
          config.leastValidatorWitness ≤ v.opposeAckNum) then
      { w with timerDelaySealSetFlag := true, delaySealBlockNumber := w.effectBlockNumber + 1 }
    else w
  else if v.imValidatorWorkNode w.visualBlockNumber then
    if w.timerSealDealineSetFlag = false ∧ v.checkBehaviorProofNumber ∧
        (config.leastValidatorWitness ≤ agreeAckNum ∨
          config.leastValidatorWitness ≤ v.opposeAckNum) then
      { w with timerSealDealineSetFlag := true, rejectBlockNumber := w.visualBlockNumber + 1 }
    else w
  else w

def ack (number : Nat) : Worker :=
  if w.visualBlockNumber ≠ number then w else w.countAcks config v

def behaviorProof (number : Nat) : Worker :=
  if w.effectBlockNumber ≠ number then w else w.countAcks config v

def timerDelaySeal : Worker :=
  let w := if config.leastValidatorWitness ≤ v.agreeAckNum ∨
    config.leastValidatorWitness ≤ v.opposeAckNum
    then w.commit w.delaySealBlockNumber else w
  { w with timerDelaySealSetFlag := false }

def timerSealDealine : Worker :=
  let w := if w.rejectBlockNumber = w.visualBlockNumber + 1 then
      { w.sendAck v w.rejectBlockNumber ackTypeOppose with
        visualBlockNumber := w.rejectBlockNumber }
    else w
  { w with timerSealDealineSetFlag := false }

/-- A round of the goroutine that polls for the acks of the block `curBlockNum`. -/
def poll (curBlockNum : Nat) : Worker :=
  if curBlockNum ∉ w.polls then w
  else if curBlockNum < w.currentBlock then { w with polls := w.polls.erase curBlockNum }
  else if config.leastValidatorWitness ≤ v.agreeAckNum then
    { w with polls := w.polls.erase curBlockNum }.commit (curBlockNum + 1)
  else w

/-- A round of the goroutine that sends the acks for the genesis block again. -/
def genesisAck : Worker :=
  if w.resending = false then w
  else if 0 < w.currentBlock then { w with resending := false }
  else w.sendAck v 0 ackTypeAgree

def commitAckRound : Worker :=
  match w.commitAckLoop with
  | .starting =>
    { w with commitAckLoop :=
        if v.imValidatorWorkNode w.currentBlock then .sending w.currentBlock else .returned }
  | .sending now =>
    { w.sendAck v w.currentBlock ackTypeAgree with
      commitAckLoop := if now ≠ w.currentBlock then .returned else .sending now }
  | .returned => w

/-- A chain that does not move: the ack is sent again twice, then the worker is made to take the
head for a new block.  The chain head event that goes with it may come at any time. -/
def ackMonitorRound : Worker :=
  if config.validatorWitnessCount ≤ 1 then w
  else if w.lastHeight < w.currentBlock then
    { w with lastHeight := w.currentBlock, stuckCount := 0 }
  else if w.stuckCount + 1 < 3 then
    { w.sendAck v w.currentBlock ackTypeAgree with stuckCount := w.stuckCount + 1 }
  else { w with visualBlockNumber := 0, stuckCount := 0 }

/-- The tick does not look at `sealedBlockNumber`. -/
def stellarSpeedTick : Worker :=
  if config.startsStellarSpeedLoop = false then w
  else if w.running = false then w
  else if config.chainConfig.isStellarSpeed w.currentBlock = false then w
  else if v.imValidatorWorkNode w.currentBlock = false then w
  else
    let nextNumber := w.currentBlock + 1
    let blockType := if nextNumber % 2 = 0 then .effect else .visual
    { w with
      toProduction := w.toProduction.validatorCommitNewWork config v ⟨nextNumber, blockType⟩ }

/-! ## 5. Runs -/

inductive Event where
  | setProbebase (addr : Address)
  | setRunning (running : Bool)
  | newHead (number : Nat)
  | chainHead (block : Option Nat) (v : View)
  | ack (number : Nat) (v : View)
  | behaviorProof (number : Nat) (v : View)
  | timerDelaySeal (v : View)
  | timerSealDealine (v : View)
  | poll (curBlockNum : Nat) (v : View)
  | sendWork (newBlockNumber : Nat)
  | mainLoop (v : View)
  | stellarSpeedTick (v : View)
  | genesisAck (v : View)
  | commitAck (v : View)
  | ackMonitor (v : View)

def handle : Event → Worker
  | .setProbebase addr => { w with coinbase := addr }
  | .setRunning running => { w with running := running }
  | .newHead number => { w with toProduction := w.toProduction.newHead number }
  | .chainHead block v => w.chainHead config v block
  | .ack number v => w.ack config v number
  | .behaviorProof number v => w.behaviorProof config v number
  | .timerDelaySeal v => w.timerDelaySeal config v
  | .timerSealDealine v => w.timerSealDealine v
  | .poll curBlockNum v => w.poll config v curBlockNum
  | .sendWork newBlockNumber =>
    { w with toProduction := w.toProduction.sendWork w.visualBlockNumber newBlockNumber }
  | .mainLoop v => { w with toProduction := w.toProduction.mainLoop config v }
  | .stellarSpeedTick v => w.stellarSpeedTick config v
  | .genesisAck v => w.genesisAck v
  | .commitAck v => w.commitAckRound v
  | .ackMonitor v => w.ackMonitorRound config v

def step (w : Worker) (e : Event) : Option Worker := some (w.handle config e)

end Worker

end ProbeChain
