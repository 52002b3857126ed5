/-
# The authorization snapshot

`Snapshot.apply` of `consensus/pob/snapshot.go`: how the validators, the votes about them, the
recent producers and the registered nodes follow from headers.  A header votes on its `Coinbase`; it
votes FOR it if its `Nonce` is all ones and against it otherwise.  Outside checkpoints the middle
part of `Extra` registers nodes.

Maps are finite maps.  Of the fields that applying headers only copies (light nodes, relays, public
keys, the gold reserve) none is kept.
-/
import ProbeChain.Consensus.Header
import Mathlib.Data.Finmap

namespace ProbeChain

open BigEndian

/-! ## 1. Registrations -/

/-- `NodeTypeAgent` and `NodeTypePhysical`. -/
inductive NodeType where
  | agent
  | physical
  deriving DecidableEq, Repr

def NodeType.ofByte (b : UInt8) : Option NodeType :=
  if b = 1 then some .agent else if b = 2 then some .physical else none

structure TestnetRegistration where
  address : Address
  nodeType : NodeType
  deriving DecidableEq

/-- `n` entries of 21 bytes each. -/
def decodeEntries : Nat → Bytes → Option (List TestnetRegistration)
  | 0, _ => some []
  | n + 1, data => do
    let nodeType ← NodeType.ofByte (data.getD 20 0)
    let rest ← decodeEntries n (data.drop 21)
    return ⟨bytesToAddress (data.take 20), nodeType⟩ :: rest

/-- A count and that many entries, exactly. -/
def decodeRegistrations : Bytes → Option (List TestnetRegistration)
  | [] => some []
  | n :: data => if data.length = n.toNat * 21 then decodeEntries n.toNat data else none

def isValidRegistrationData (data : Bytes) : Bool := (decodeRegistrations data).isSome

def extraVanity : Nat := 32
def extraSeal : Nat := 65

/-- The part of `Extra` between the vanity prefix and the seal. -/
def Header.behaviorData (h : Header) : Bytes :=
  (h.extra.take (h.extra.length - extraSeal)).drop extraVanity

/-! ## 2. The snapshot -/

structure PobConfig where
  epoch : UInt64
  initialScore : UInt64
  deriving DecidableEq

def maxScore : UInt64 := 10000
def defaultInitialScore : UInt64 := 5000

structure BehaviorScore where
  total : UInt64
  liveness : UInt64
  correctness : UInt64
  cooperation : UInt64
  consistency : UInt64
  signalSovereignty : UInt64
  lastUpdate : UInt64
  deriving DecidableEq

def defaultBehaviorScore (initialScore blockNumber : UInt64) : BehaviorScore :=
  { total := initialScore, liveness := maxScore, correctness := maxScore, cooperation := maxScore,
    consistency := maxScore, signalSovereignty := defaultInitialScore, lastUpdate := blockNumber }

structure ValidatorHistory where
  blocksProposed : UInt64 := 0
  blocksMissed : UInt64 := 0
  invalidProposals : UInt64 := 0
  acksGiven : UInt64 := 0
  acksMissed : UInt64 := 0
  slashCount : UInt64 := 0
  rydbergVerified : UInt64 := 0
  radioSyncs : UInt64 := 0
  stellarBlocks : UInt64 := 0
  deriving DecidableEq

structure AgentScore where
  total : UInt64
  responsiveness : UInt64
  accuracy : UInt64
  reliability : UInt64
  cooperation : UInt64
  economy : UInt64
  sovereignty : UInt64
  lastUpdate : UInt64
  deriving DecidableEq

structure AgentHistory where
  tasksCompleted : UInt64 := 0
  tasksFailed : UInt64 := 0
  attestationsOK : UInt64 := 0
  attestationsBad : UInt64 := 0
  heartbeatsSent : UInt64 := 0
  heartbeatsMissed : UInt64 := 0
  uptime : UInt64 := 0
  lastActive : UInt64 := 0
  stakeAmount : UInt64 := 0
  slashCount : UInt64 := 0
  deriving DecidableEq

def defaultAgentScore (blockNumber : UInt64) : AgentScore :=
  { total := defaultInitialScore, responsiveness := maxScore, accuracy := maxScore,
    reliability := maxScore, cooperation := defaultInitialScore, economy := defaultInitialScore,
    sovereignty := defaultInitialScore, lastUpdate := blockNumber }

structure PhysicalNodeScore where
  total : UInt64
  storageContribution : UInt64
  uptime : UInt64
  dataService : UInt64
  integrity : UInt64
  lastUpdate : UInt64
  deriving DecidableEq

structure PhysicalNodeHistory where
  storageBytesProvided : UInt64 := 0
  storageBytesVerified : UInt64 := 0
  uptimeBlocks : UInt64 := 0
  downtimeBlocks : UInt64 := 0
  dataServiced : UInt64 := 0
  invalidProofs : UInt64 := 0
  lastActive : UInt64 := 0
  registered : UInt64 := 0
  deriving DecidableEq

def defaultPhysicalNodeScore (blockNumber : UInt64) : PhysicalNodeScore :=
  { total := defaultInitialScore, storageContribution := defaultInitialScore, uptime := maxScore,
    dataService := defaultInitialScore, integrity := maxScore, lastUpdate := blockNumber }

structure Vote where
  signer : Address
  block : UInt64
  address : Address
  authorize : Bool
  deriving DecidableEq

structure Tally where
  authorize : Bool
  votes : Int
  deriving DecidableEq

structure Snapshot where
  config : PobConfig
  number : UInt64
  hash : Hash
  validators : Finmap fun _ : Address => BehaviorScore := ∅
  histories : Finmap fun _ : Address => ValidatorHistory := ∅
  recents : Finmap fun _ : UInt64 => Address := ∅
  votes : List Vote := []
  tally : Finmap fun _ : Address => Tally := ∅
  agents : Finmap fun _ : Address => AgentScore := ∅
  agentHistories : Finmap fun _ : Address => AgentHistory := ∅
  physicalNodes : Finmap fun _ : Address => PhysicalNodeScore := ∅
  physicalHistories : Finmap fun _ : Address => PhysicalNodeHistory := ∅

/-- A snapshot with nothing but its validators. -/
def newSnapshot (config : PobConfig) (number : UInt64) (hash : Hash) (validators : List Address) :
    Snapshot :=
  let initialScore := if config.initialScore = 0 then defaultInitialScore else config.initialScore
  { config := config
    number := number
    hash := hash
    validators :=
      validators.foldl (fun m v => m.insert v (defaultBehaviorScore initialScore number)) ∅
    histories := validators.foldl (fun m v => m.insert v {}) ∅ }

/-! ## 3. Voting -/

namespace Snapshot

def validatorCount (s : Snapshot) : Nat := s.validators.keys.card

/-- A vote must change something. -/
def validVote (s : Snapshot) (address : Address) (authorize : Bool) : Bool :=
  (s.validators.lookup address).isSome != authorize

/-- Counts a vote, if it is valid.  A vote of the other kind counts for the tally that is there. -/
def cast (s : Snapshot) (address : Address) (authorize : Bool) : Snapshot × Bool :=
  if s.validVote address authorize then
    let tally : Tally :=
      match s.tally.lookup address with
      | some old => { old with votes := old.votes + 1 }
      | none => ⟨authorize, 1⟩
    ({ s with tally := s.tally.insert address tally }, true)
  else (s, false)

/-- Takes a vote out of the tally of its kind. -/
def uncast (s : Snapshot) (address : Address) (authorize : Bool) : Snapshot :=
  match s.tally.lookup address with
  | none => s
  | some tally =>
    if tally.authorize ≠ authorize then s
    else if 1 < tally.votes then
      { s with tally := s.tally.insert address { tally with votes := tally.votes - 1 } }
    else { s with tally := s.tally.erase address }

/-- Forgets the producer of so many blocks ago that it may produce again. -/
def deleteOldestRecent (s : Snapshot) (number : UInt64) : Snapshot :=
  let limit := UInt64.ofNat (s.validatorCount / 2 + 1)
  if limit ≤ number then { s with recents := s.recents.erase (number - limit) } else s

/-- A producer that is a validator is recent, and its history counts the block. -/
def trackProducer (s : Snapshot) (number : UInt64) (producer : Address) : Snapshot :=
  if (s.validators.lookup producer).isSome then
    let s := { s with recents := s.recents.insert number producer }
    match s.histories.lookup producer with
    | some hist =>
      { s with histories :=
          s.histories.insert producer { hist with blocksProposed := hist.blocksProposed + 1 } }
    | none => s
  else s

/-- The producer's previous vote on `coinbase`, if there is one, does not count any more. -/
def discardVote (s : Snapshot) (producer coinbase : Address) : Snapshot :=
  let p := fun v : Vote => v.signer = producer ∧ v.address = coinbase
  match s.votes.find? p with
  | some vote =>
    let s := s.uncast vote.address vote.authorize
    { s with votes := s.votes.eraseP p }
  | none => s

def castVote (s : Snapshot) (number : UInt64) (producer coinbase : Address) (authorize : Bool) :
    Snapshot :=
  let (s, counted) := s.cast coinbase authorize
  if counted then { s with votes := s.votes ++ [⟨producer, number, coinbase, authorize⟩] } else s

/-- A removed validator's own votes do not count any more. -/
def dropVotesOf (s : Snapshot) (signer : Address) : Snapshot :=
  let s := (s.votes.filter fun v => v.signer = signer).foldl
    (fun s v => s.uncast v.address v.authorize) s
  { s with votes := s.votes.filter fun v => v.signer ≠ signer }

/-- More than half of the validators have voted on `coinbase`: it becomes a validator or stops
being one, and the votes on it are settled. -/
def settleVote (s : Snapshot) (number : UInt64) (coinbase : Address) : Snapshot :=
  let tally := (s.tally.lookup coinbase).getD ⟨false, 0⟩
  if (s.validatorCount / 2 : Nat) < tally.votes then
    let initialScore :=
      if s.config.initialScore = 0 then defaultInitialScore else s.config.initialScore
    let s :=
      if tally.authorize then
        { s with
          validators := s.validators.insert coinbase (defaultBehaviorScore initialScore number)
          histories := s.histories.insert coinbase {} }
      else
        let s := { s with validators := s.validators.erase coinbase
                          histories := s.histories.erase coinbase }
        (s.deleteOldestRecent number).dropVotesOf coinbase
    { s with votes := s.votes.filter fun v => v.address ≠ coinbase
             tally := s.tally.erase coinbase }
  else s

/-! ## 4. Applying headers -/

/-- A node that is already registered keeps its score. -/
def register (number : UInt64) (s : Snapshot) (reg : TestnetRegistration) : Snapshot :=
  match reg.nodeType with
  | .agent =>
    if (s.agents.lookup reg.address).isSome then s
    else { s with agents := s.agents.insert reg.address (defaultAgentScore number)
                  agentHistories := s.agentHistories.insert reg.address {} }
  | .physical =>
    if (s.physicalNodes.lookup reg.address).isSome then s
    else { s with
           physicalNodes := s.physicalNodes.insert reg.address (defaultPhysicalNodeScore number)
           physicalHistories := s.physicalHistories.insert reg.address {} }

/-- Undecodable data registers nobody. -/
def registerAll (s : Snapshot) (number : UInt64) (header : Header) : Snapshot :=
  if number % s.config.epoch ≠ 0 ∧ extraVanity + extraSeal < header.extra.length then
    ((decodeRegistrations header.behaviorData).getD []).foldl (register number) s
  else s

/-- `nonceAuthVote` -/
def nonceAuthVote : BlockNonce := BitVec.allOnes 64

/-- Votes do not outlive an epoch. -/
def clearVotesAtEpoch (s : Snapshot) (number : UInt64) : Snapshot :=
  if number % s.config.epoch = 0 then { s with votes := [], tally := ∅ } else s

/-- One turn of the loop over the headers. -/
def applyHeader (s : Snapshot) (header : Header) : Snapshot :=
  let number := UInt64.ofNat header.number
  let producer := header.validatorAddr
  let s := s.clearVotesAtEpoch number
  let s := s.deleteOldestRecent number
  let s := s.trackProducer number producer
  let s := s.discardVote producer header.coinbase
  let s := s.castVote number producer header.coinbase (header.nonce = nonceAuthVote)
  let s := s.settleVote number header.coinbase
  s.registerAll number header

inductive ApplyError where
  | invalidVotingChain
  | divideByZero
  deriving DecidableEq, Repr

/-- The headers follow on the snapshot and on each other. -/
def contiguous : UInt64 → List Header → Bool
  | _, [] => true
  | n, h :: hs => UInt64.ofNat h.number = n + 1 && contiguous (UInt64.ofNat h.number) hs

def apply (K : Crypto) (s : Snapshot) (headers : List Header) : Except ApplyError Snapshot :=
  match headers.getLast? with
  | none => .ok s
  | some last =>
    if contiguous s.number headers = false then .error .invalidVotingChain
    else if s.config.epoch = 0 then .error .divideByZero
    else
      let snap := headers.foldl applyHeader s
      .ok { snap with number := snap.number + UInt64.ofNat headers.length, hash := last.hash K }

theorem apply_singleton {K : Crypto} {s : Snapshot} {header : Header} :
    s.apply K [header] =
      if UInt64.ofNat header.number = s.number + 1 then
        if s.config.epoch = 0 then .error .divideByZero
        else .ok { s.applyHeader header with
          number := (s.applyHeader header).number + 1, hash := header.hash K }
      else .error .invalidVotingChain := by
  by_cases hnumber : UInt64.ofNat header.number = s.number + 1 <;>
    simp [Snapshot.apply, contiguous, hnumber]

/-! ## 5. What does not concern the votes -/

/-- The validators and the votes about them. -/
def electorate (s : Snapshot) := (s.validators, s.votes, s.tally)

theorem electorate_eq_iff {s t : Snapshot} : t.electorate = s.electorate ↔
    t.validators = s.validators ∧ t.votes = s.votes ∧ t.tally = s.tally := by
  simp only [electorate, Prod.mk.injEq]

variable (s : Snapshot) (number : UInt64)

theorem electorate_deleteOldestRecent :
    (s.deleteOldestRecent number).electorate = s.electorate := by
  unfold deleteOldestRecent
  dsimp only
  split <;> rfl

theorem electorate_trackProducer (producer : Address) :
    (s.trackProducer number producer).electorate = s.electorate := by
  unfold trackProducer
  split
  · dsimp only
    split <;> rfl
  · rfl

theorem electorate_register (reg : TestnetRegistration) :
    (s.register number reg).electorate = s.electorate := by
  unfold register
  cases reg.nodeType <;> dsimp only <;> split <;> rfl

theorem electorate_registerAll (header : Header) :
    (s.registerAll number header).electorate = s.electorate := by
  unfold registerAll
  split
  · exact List.foldlRecOn (motive := fun t : Snapshot => t.electorate = s.electorate) _ _ rfl
      fun t ht reg _ => (electorate_register t number reg).trans ht
  · rfl

end Snapshot

end ProbeChain
