/-
# Every node is of exactly one type

So says `node_identity.go`.  There are three ways into a snapshot: a header that carries
registrations, `RegisterNodeV2` with a proof, and the API, which queues a registration for a header
to come.  Each of them asks at most whether the address is registered under the type that is asked
for, and none whether it is registered under the other.

A `Site` is what these calls work on: the snapshot, the snapshots in the database, the detector and
the queue of the engine.  Next to each snapshot stands a list of the registrations that led to it,
which no code reads.  An address has both types in a snapshot exactly if both are in its list
(`one_type_iff`).

A node that is registered again under its own type starts again, except by a header, which asks
(`record_kept_iff`).
-/
import ProbeChain.Consensus.Applied
import ProbeChain.Consensus.Identity
import ProbeChain.Miner.Registrations

namespace ProbeChain

open List

/-! ## 1. A site -/

/-- What a header adds to a snapshot: nothing at a checkpoint. -/
def Header.enrols (epoch : UInt64) (h : Header) : List TestnetRegistration :=
  if UInt64.ofNat h.number % epoch = 0 then [] else h.registrations

/-- The answers of `RegisterNode`, the first of which is an error. -/
inductive RegisterReply where
  | invalidNodeType
  | alreadyAgent
  | alreadyPhysical
  | queued
  deriving DecidableEq, Repr

/-- `API.RegisterNode`, with the snapshot of the current header. -/
def Pipeline.registerNode (p : Pipeline) (snap : Snapshot) (addr : Address) (nodeType : UInt64) :
    Pipeline × RegisterReply :=
  if nodeType ≠ 1 ∧ nodeType ≠ 2 then (p, .invalidNodeType)
  else if nodeType = 1 ∧ addr ∈ snap.agents then (p, .alreadyAgent)
  else if nodeType = 2 ∧ addr ∈ snap.physicalNodes then (p, .alreadyPhysical)
  else (p.addPendingRegistration addr nodeType.toUInt8, .queued)

/-- A snapshot and the registrations that led to it. -/
structure Recorded where
  snap : Snapshot
  registered : List TestnetRegistration := []

structure Site where
  current : Recorded
  /-- By the hash of the snapshot. -/
  db : Finmap fun _ : Hash => Recorded := ∅
  detector : Option SybilDetector
  pipeline : Pipeline

namespace Site

def new (config : PobConfig) (number : UInt64) (hash : Hash) (validators : List Address)
    (detector : Option SybilDetector) (coinbase : Address) : Site where
  current := { snap := newSnapshot config number hash validators }
  detector := detector
  pipeline := .new coinbase

inductive Operation where
  /-- From the validators in a trusted checkpoint. -/
  | newSnapshot (config : PobConfig) (number : UInt64) (hash : Hash) (validators : List Address)
  | apply (headers : List Header)
  | registerNodeV2 (now : Nat) (req : NodeRegistrationRequest) (challenge : Hash)
      (currentBlock challengeBlock : UInt64)
      (sourceIP : String)
  | registerNode (addr : Address) (nodeType : UInt64)
  | validatorCommitNewWork (config : WorkerConfig) (attempt : Attempt)
  | store
  | loadSnapshot (config : PobConfig) (hash : Hash)

/-- A call that returns an error changes nothing. -/
def step (K : Crypto) (site : Site) : Operation → Site
  | .newSnapshot config number hash validators =>
    { site with current := { snap := ProbeChain.newSnapshot config number hash validators } }
  | .apply headers =>
    match site.current.snap.apply K headers with
    | .ok snap =>
      let new := headers.flatMap (Header.enrols site.current.snap.config.epoch)
      { site with current := ⟨snap, site.current.registered ++ new⟩ }
    | .error _ => site
  | .registerNodeV2 now req challenge currentBlock challengeBlock sourceIP =>
    match site.current.snap.registerNodeV2 K now req challenge currentBlock challengeBlock
      site.detector sourceIP with
    | .ok (snap, detector) =>
      { site with
        current := ⟨snap, site.current.registered ++ req.registration.toList⟩
        detector := detector }
    | .error _ => site
  | .registerNode addr nodeType =>
    { site with pipeline := (site.pipeline.registerNode site.current.snap addr nodeType).1 }
  | .validatorCommitNewWork config attempt =>
    { site with pipeline := site.pipeline.validatorCommitNewWork config attempt }
  | .store => { site with db := site.db.insert site.current.snap.hash site.current }
  | .loadSnapshot config hash =>
    match site.db.lookup hash with
    | some stored =>
      { site with current := { stored with snap := { stored.snap with config := config } } }
    | none => site

def run (K : Crypto) (site : Site) (ops : List Operation) : Site := ops.foldl (step K) site

end Site

/-! ## 2. Who is registered -/

namespace Snapshot

variable {s t : Snapshot} {reg : TestnetRegistration}

theorem not_enrolled_newSnapshot (config : PobConfig) (number : UInt64) (hash : Hash)
    (validators : List Address) :
    ¬ (newSnapshot config number hash validators).Enrolled reg := by
  unfold Enrolled
  cases reg.nodeType with
  | agent => exact Finmap.notMem_empty
  | physical => exact Finmap.notMem_empty

theorem enrolled_registerAgent {a : Address} {number : UInt64} :
    (s.registerAgent a number).Enrolled reg ↔ s.Enrolled reg ∨ reg = ⟨a, .agent⟩ := by
  obtain ⟨addr, type⟩ := reg
  cases type with
  | agent => simp [Enrolled, registerAgent, Finmap.mem_insert, or_comm]
  | physical => simp [Enrolled, registerAgent]

theorem enrolled_registerPhysicalNode {a : Address} {number : UInt64} :
    (s.registerPhysicalNode a number).Enrolled reg ↔ s.Enrolled reg ∨ reg = ⟨a, .physical⟩ := by
  obtain ⟨addr, type⟩ := reg
  cases type with
  | agent => simp [Enrolled, registerPhysicalNode]
  | physical => simp [Enrolled, registerPhysicalNode, Finmap.mem_insert, or_comm]

theorem enrolled_registerNodeV2 {K : Crypto} {now : Nat} {req : NodeRegistrationRequest}
    {challenge : Hash} {currentBlock challengeBlock : UInt64}
    {detector detector' : Option SybilDetector} {sourceIP : String}
    (h : s.registerNodeV2 K now req challenge currentBlock challengeBlock detector sourceIP =
      .ok (t, detector')) :
    t.Enrolled reg ↔ s.Enrolled reg ∨ reg ∈ req.registration.toList := by
  obtain ⟨a, ⟨hreq, rfl⟩ | ⟨hreq, rfl⟩⟩ := registerNodeV2_eq_ok h
  · rw [enrolled_registerAgent, hreq, Option.toList_some, mem_singleton]
  · rw [enrolled_registerPhysicalNode, hreq, Option.toList_some, mem_singleton]

theorem enrolled_foldl_applyHeader (headers : List Header) :
    (headers.foldl applyHeader s).Enrolled reg ↔
      s.Enrolled reg ∨ reg ∈ headers.flatMap (Header.enrols s.config.epoch) := by
  induction headers generalizing s with
  | nil => simp
  | cons header headers ih =>
    have hconfig : (s.applyHeader header).config = s.config :=
      congrArg Prod.fst (context_applyHeader s header)
    have hadds : (UInt64.ofNat header.number % s.config.epoch ≠ 0 ∧ reg ∈ header.registrations) ↔
        reg ∈ header.enrols s.config.epoch := by
      unfold Header.enrols
      split
      next hzero => simp [hzero]
      next hne => simp [hne]
    rw [foldl_cons, ih, hconfig, enrolled_applyHeader, hadds, flatMap_cons, mem_append, or_assoc]

theorem enrolled_apply {K : Crypto} {headers : List Header} (h : s.apply K headers = .ok t) :
    t.Enrolled reg ↔ s.Enrolled reg ∨ reg ∈ headers.flatMap (Header.enrols s.config.epoch) := by
  rw [← enrolled_foldl_applyHeader]
  unfold apply at h
  split at h
  next hnone =>
    cases h
    rw [getLast?_eq_none_iff.mp hnone]
    rfl
  next =>
    split_ifs at h
    cases h
    exact Enrolled.congr rfl

/-- No address is registered under both types. -/
def OneType (s : Snapshot) : Prop := ∀ a, ¬ (a ∈ s.agents ∧ a ∈ s.physicalNodes)

end Snapshot

/-! ## 3. Runs -/

/-- Nobody else is registered. -/
def Recorded.Complete (r : Recorded) : Prop := ∀ reg, r.snap.Enrolled reg ↔ reg ∈ r.registered

/-- Registrations that are entered on both sides. -/
theorem Recorded.Complete.add {r : Recorded} (h : r.Complete) {snap : Snapshot}
    {new : List TestnetRegistration}
    (hnew : ∀ reg, snap.Enrolled reg ↔ r.snap.Enrolled reg ∨ reg ∈ new) :
    Recorded.Complete ⟨snap, r.registered ++ new⟩ := by
  intro reg
  rw [hnew, h reg, mem_append]

namespace Site

variable {K : Crypto} {site : Site}

structure Inv (site : Site) : Prop where
  current : site.current.Complete
  stored : ∀ hash r, site.db.lookup hash = some r → r.Complete

theorem complete_newSnapshot (config : PobConfig) (number : UInt64) (hash : Hash)
    (validators : List Address) :
    Recorded.Complete { snap := newSnapshot config number hash validators } := fun _ =>
  iff_of_false (Snapshot.not_enrolled_newSnapshot config number hash validators) not_mem_nil

theorem inv_step (h : site.Inv) (op : Operation) : (site.step K op).Inv := by
  cases op with
  | newSnapshot config number hash validators => exact ⟨complete_newSnapshot _ _ _ _, h.stored⟩
  | apply headers =>
    simp only [step]
    split
    next snap happly => exact ⟨h.current.add fun reg => Snapshot.enrolled_apply happly, h.stored⟩
    next => exact h
  | registerNodeV2 now req challenge currentBlock challengeBlock sourceIP =>
    simp only [step]
    split
    next snap detector hregister =>
      exact ⟨h.current.add fun reg => Snapshot.enrolled_registerNodeV2 hregister, h.stored⟩
    next => exact h
  | registerNode addr nodeType => exact ⟨h.current, h.stored⟩
  | validatorCommitNewWork config attempt => exact ⟨h.current, h.stored⟩
  | store =>
    refine ⟨h.current, fun hash r hr => ?_⟩
    simp only [step] at hr
    by_cases heq : hash = site.current.snap.hash
    · rw [heq, Finmap.lookup_insert] at hr
      cases hr
      exact h.current
    · rw [Finmap.lookup_insert_of_ne _ heq] at hr
      exact h.stored hash r hr
  | loadSnapshot config hash =>
    simp only [step]
    split
    next stored hstored =>
      refine ⟨fun reg => ?_, h.stored⟩
      exact h.stored hash stored hstored reg
    next => exact h

theorem inv_run (h : site.Inv) (ops : List Operation) : (site.run K ops).Inv :=
  foldlRecOn (motive := Inv) ops (step K) h fun _ hb op _ => inv_step hb op

end Site

/-- **When every node is of one type**, after any calls in any order: no address was registered as
an agent and as a physical node on the way to the snapshot. -/
theorem one_type_iff (K : Crypto) (config : PobConfig) (number : UInt64) (hash : Hash)
    (validators : List Address) (detector : Option SybilDetector) (coinbase : Address)
    (ops : List Site.Operation) :
    let reached := ((Site.new config number hash validators detector coinbase).run K ops).current
    reached.snap.OneType ↔
      ∀ a, ¬ (⟨a, .agent⟩ ∈ reached.registered ∧ ⟨a, .physical⟩ ∈ reached.registered) := by
  have hnew : (Site.new config number hash validators detector coinbase).Inv :=
    ⟨Site.complete_newSnapshot _ _ _ _, fun _ _ hr => by simp [Site.new] at hr⟩
  have hcomplete := (Site.inv_run (K := K) hnew ops).current
  intro reached
  refine forall_congr' fun a => not_congr (and_congr ?_ ?_)
  · exact hcomplete ⟨a, .agent⟩
  · exact hcomplete ⟨a, .physical⟩

/-- The block that carries one registration. -/
def carrier (number : Nat) (reg : QueuedRegistration) : Header :=
  { number := number, validatorAddr := 1, extra := injectRegistrations [] [reg] }

/-- Address 5 is queued as an agent and, when that is in the snapshot, as a physical node. -/
def bothQueued : List Site.Operation :=
  [.registerNode 5 1, .validatorCommitNewWork aloneConfig (firstAttempt true),
    .apply [carrier 1 ⟨5, 1⟩], .registerNode 5 2,
    .validatorCommitNewWork aloneConfig { firstAttempt true with newBlockNumber := 2 },
    .apply [carrier 2 ⟨5, 2⟩]]

/-- The owner of an agent's key uses it as the operator of a device. -/
def bothProven : List Site.Operation :=
  [.registerNodeV2 0
      { nodeType := 1, agentProof := some ⟨7, 1, 2, 9, replicate 64 0 ++ [1]⟩ } 9 10 10 "",
    .registerNodeV2 0
      { nodeType := 2, physicalProof := some ⟨8, 1, 9, replicate 64 0 ++ [1], 0, none⟩ } 9 10 10 ""]

/-- **An agent that is a physical node, too**, by way of the API and by way of `RegisterNodeV2` with
a detector. -/
theorem two_types :
    let site := Site.new ⟨100, 5000⟩ 0 0 [1] (some newSybilDetector) 1
    let queued := site.run plainCrypto bothQueued
    let proven := site.run plainCrypto bothProven
    (queued.pipeline.trips.filterMap Trip.block = [carrier 1 ⟨5, 1⟩, carrier 2 ⟨5, 2⟩] ∧
      5 ∈ queued.current.snap.agents ∧ 5 ∈ queued.current.snap.physicalNodes) ∧
    1 ∈ proven.current.snap.agents ∧ 1 ∈ proven.current.snap.physicalNodes := by
  decide +kernel

/-! ## 4. Registered again -/

/-- What a snapshot keeps of a node: its score and its history. -/
inductive NodeRecord where
  | agent (score : Option AgentScore) (history : Option AgentHistory)
  | physical (score : Option PhysicalNodeScore) (history : Option PhysicalNodeHistory)
  deriving DecidableEq

/-- The record of a node that has just been registered. -/
def NodeRecord.fresh (number : UInt64) : NodeType → NodeRecord
  | .agent => .agent (some (defaultAgentScore number)) (some {})
  | .physical => .physical (some (defaultPhysicalNodeScore number)) (some {})

/-- The ways into a snapshot. -/
inductive Registering where
  | block (number : UInt64) (header : Header)
  | nodeV2 (now : Nat) (req : NodeRegistrationRequest) (challenge : Hash)
      (currentBlock challengeBlock : UInt64)
      (detector : Option SybilDetector) (sourceIP : String)
  | agent (addr : Address) (blockNumber : UInt64)
  | physicalNode (addr : Address) (blockNumber : UInt64)

/-- What is entered without a look at what is there, and the block it is entered for. -/
def Registering.entered : Registering → Option (TestnetRegistration × UInt64)
  | .block _ _ => none
  | .nodeV2 _ req _ currentBlock _ _ _ => req.registration.map fun reg => (reg, currentBlock)
  | .agent addr blockNumber => some (⟨addr, .agent⟩, blockNumber)
  | .physicalNode addr blockNumber => some (⟨addr, .physical⟩, blockNumber)

namespace Snapshot

def record (s : Snapshot) (reg : TestnetRegistration) : NodeRecord :=
  match reg.nodeType with
  | .agent => .agent (s.agents.lookup reg.address) (s.agentHistories.lookup reg.address)
  | .physical =>
    .physical (s.physicalNodes.lookup reg.address) (s.physicalHistories.lookup reg.address)

/-- None if the registration is refused. -/
def registering (K : Crypto) (s : Snapshot) : Registering → Option Snapshot
  | .block number header => some (s.registerAll number header)
  | .nodeV2 now req challenge currentBlock challengeBlock detector sourceIP =>
    match s.registerNodeV2 K now req challenge currentBlock challengeBlock detector sourceIP with
    | .ok (t, _) => some t
    | .error _ => none
  | .agent addr blockNumber => some (s.registerAgent addr blockNumber)
  | .physicalNode addr blockNumber => some (s.registerPhysicalNode addr blockNumber)

/-- What `RegisterAgent` and `RegisterPhysicalNode` do. -/
def enter (s : Snapshot) (number : UInt64) (new : TestnetRegistration) : Snapshot :=
  match new.nodeType with
  | .agent => s.registerAgent new.address number
  | .physical => s.registerPhysicalNode new.address number

variable {s t : Snapshot} {reg : TestnetRegistration}

/-- Whoever is entered gets a fresh record, and nobody else is touched. -/
theorem record_enter (number : UInt64) (new : TestnetRegistration) :
    (s.enter number new).record reg = if reg =
      new then .fresh number new.nodeType else s.record reg := by
  by_cases heq : reg = new
  · subst heq
    obtain ⟨a, _ | _⟩ := reg <;>
      simp [enter, record, registerAgent, registerPhysicalNode, NodeRecord.fresh]
  · rw [if_neg heq]
    obtain ⟨a, _ | _⟩ := new <;> obtain ⟨addr, _ | _⟩ := reg <;>
      simp_all [enter, record, registerAgent, registerPhysicalNode, Finmap.lookup_insert_of_ne]

/-- A block looks first. -/
theorem record_register (h : s.Enrolled reg) (number : UInt64) (new : TestnetRegistration) :
    (s.register number new).record reg = s.record reg := by
  have hcases : s.register number new = s ∨ ¬ s.Enrolled new ∧
      s.register number new = s.enter number new := by
    obtain ⟨a, _ | _⟩ := new <;> unfold register Enrolled enter <;> dsimp only <;> split
    case agent.isFalse hfree | physical.isFalse hfree =>
      exact .inr ⟨fun h => hfree (Finmap.lookup_isSome.mpr h), rfl⟩
    all_goals exact .inl rfl
  rcases hcases with heq | ⟨hfree, heq⟩
  · rw [heq]
  · rw [heq, record_enter, if_neg]
    rintro rfl
    exact hfree h

theorem record_registerAll (h : s.Enrolled reg) (number : UInt64) (header : Header) :
    (s.registerAll number header).record reg = s.record reg := by
  unfold registerAll
  split
  · refine (foldlRecOn (motive := fun t : Snapshot => t.Enrolled reg ∧
      t.record reg = s.record reg) _ _ ⟨h, rfl⟩
      fun t ht new _ => ?_).2
    exact ⟨enrolled_register.mpr (.inl ht.1), (record_register ht.1 number new).trans ht.2⟩
  · rfl

/-- A block, or an entry. -/
theorem registering_cases {K : Crypto} {op : Registering} (h : s.registering K op = some t) :
    (op.entered = none ∧ ∃ number header, t = s.registerAll number header) ∨
      ∃ new number, op.entered = some (new, number) ∧ t = s.enter number new := by
  cases op with
  | block number header => exact .inl ⟨rfl, number, header, (Option.some.inj h).symm⟩
  | nodeV2 now req challenge currentBlock challengeBlock detector sourceIP =>
    simp only [registering] at h
    split at h
    next t' detector' hok =>
      cases h
      obtain ⟨a, ⟨hreq, ht⟩ | ⟨hreq, ht⟩⟩ := registerNodeV2_eq_ok hok
      · exact .inr ⟨⟨a, .agent⟩, currentBlock, by simp [Registering.entered, hreq], ht⟩
      · exact .inr ⟨⟨a, .physical⟩, currentBlock, by simp [Registering.entered, hreq], ht⟩
    next => cases h
  | agent addr blockNumber => exact .inr ⟨_, _, rfl, (Option.some.inj h).symm⟩
  | physicalNode addr blockNumber => exact .inr ⟨_, _, rfl, (Option.some.inj h).symm⟩

/-- **When a node keeps its record** when it is registered again: by a block always, and otherwise
only if the record is that of a node that has just been registered for the same block. -/
theorem record_kept_iff {K : Crypto} {s t : Snapshot} {reg : TestnetRegistration} {op : Registering}
    (hreg : s.Enrolled reg) (h : s.registering K op = some t) :
    t.record reg = s.record reg ↔
      ∀ number, op.entered = some (reg, number) → s.record reg = .fresh number reg.nodeType := by
  rcases registering_cases h with ⟨hnone, number, header, rfl⟩ | ⟨new, number, hentered, rfl⟩
  · simp [hnone, record_registerAll hreg]
  · rw [record_enter, hentered]
    by_cases heq : reg = new
    · subst heq
      simp [eq_comm]
    · simp [heq, Ne.symm heq]

/-- An agent with a score of 2000 and a slash, and a physical node that has failed a proof. -/
def blemished : Snapshot :=
  { newSnapshot { epoch := 100, initialScore := 5000 } 0 0 [] with
    agents := Finmap.singleton 1 { defaultAgentScore 0 with total := 2000 }
    agentHistories := Finmap.singleton 1 { slashCount := 1 }
    physicalNodes := Finmap.singleton 1 { defaultPhysicalNodeScore 0 with total := 2000 }
    physicalHistories := Finmap.singleton 1 { invalidProofs := 1 } }

/-- A block that registers the agent again does not help it. -/
theorem record_kept_by_block :
    (blemished.registerAll 1 (carrier 1 ⟨1, 1⟩)).record ⟨1, .agent⟩ =
      blemished.record ⟨1, .agent⟩ := by
  have hreg : blemished.Enrolled ⟨1, .agent⟩ := (Finmap.mem_singleton 1 1 _).mpr rfl
  have hblock : blemished.registering plainCrypto (.block 1 (carrier 1 ⟨1, 1⟩)) = some _ := rfl
  exact (record_kept_iff hreg hblock).mpr fun _ hentered => by cases hentered

/-- **A bad record is wiped** by registering again, whether by `RegisterNodeV2` with a detector, by
`RegisterAgent` or by `RegisterPhysicalNode`. -/
theorem record_wiped :
    let proven := blemished.registering plainCrypto (.nodeV2 0
      { nodeType := 1, agentProof := some ⟨7, 1, 2, 9, replicate 64 0 ++ [1]⟩ } 9 10 10
        (some newSybilDetector) "")
    (proven.map fun t => t.record ⟨1, .agent⟩) = some (.fresh 10 .agent) ∧
    (blemished.registerAgent 1 10).record ⟨1, .agent⟩ = .fresh 10 .agent ∧
    (blemished.registerPhysicalNode 1 10).record ⟨1, .physical⟩ = .fresh 10 .physical ∧
    blemished.record ⟨1, .agent⟩ ≠ .fresh 10 .agent ∧
    blemished.record ⟨1, .physical⟩ ≠ .fresh 10 .physical := by
  decide +kernel

end Snapshot

end ProbeChain
