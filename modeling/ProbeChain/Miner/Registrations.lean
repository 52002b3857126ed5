/-
# Node registrations on their way into the snapshot

A registration is queued at the engine (`AddPendingRegistration`).  The next attempt to produce a
block that is not visual drains the queue into the header it assembles (`validatorCommitNewWork`),
and `apply` reads it there.  The drained registrations are nowhere else: if the attempt returns
early, they are lost.  They are lost too if there are more than 255, if one of those written has no
valid type, or if the block is a checkpoint.

`registrations_delivered_iff` says that these are the only ways to lose one.
-/
import ProbeChain.Consensus.Election
import ProbeChain.Miner.Worker

namespace ProbeChain

open List UInt64 Snapshot

/-! ## 1. The encoding -/

/-- `TestnetRegistration` as it is queued: nobody has looked at the type. -/
structure QueuedRegistration where
  address : Address
  nodeType : UInt8
  deriving DecidableEq

namespace QueuedRegistration

/-- What it asks for, if its type is valid. -/
def decoded (r : QueuedRegistration) : Option TestnetRegistration :=
  (NodeType.ofByte r.nodeType).map fun nodeType => ⟨r.address, nodeType⟩

def valid (r : QueuedRegistration) : Bool := r.decoded.isSome

def entry (r : QueuedRegistration) : Bytes := Address.bytes r.address ++ [r.nodeType]

end QueuedRegistration

/-- A count, in one byte, and that many entries. -/
def encodeRegistrations (regs : List QueuedRegistration) : Bytes :=
  let n := regs.length
  if n = 0 then []
  else
    let n := if 255 < n then 255 else n
    UInt8.ofNat n :: (regs.take n).flatMap QueuedRegistration.entry

/-- The vanity prefix is cut or filled up to its size, the seal is left empty. -/
def injectRegistrations (extra : Bytes) (regs : List QueuedRegistration) : Bytes :=
  let regData := encodeRegistrations regs
  if regData.length = 0 then extra
  else (extra ++ replicate extraVanity 0).take extraVanity ++ regData ++ replicate extraSeal 0

variable {regs : List QueuedRegistration}

theorem NodeType.ofByte_inj {b b' : UInt8} {t : NodeType} (h : ofByte b = some t)
    (h' : ofByte b' = some t) : b = b' := by
  unfold ofByte at h h'
  split_ifs at h h' <;> cases h <;> cases h' <;> simp_all

theorem QueuedRegistration.decoded_inj {q r : QueuedRegistration} {reg : TestnetRegistration}
    (hq : q.decoded = some reg) (hr : r.decoded = some reg) : q = r := by
  obtain ⟨t, ht, rfl⟩ := Option.map_eq_some_iff.mp hq
  obtain ⟨t', ht', heq⟩ := Option.map_eq_some_iff.mp hr
  obtain ⟨haddr, rfl⟩ := TestnetRegistration.mk.inj heq
  cases q
  cases r
  cases haddr
  cases NodeType.ofByte_inj ht ht'
  rfl

theorem QueuedRegistration.length_entry (r : QueuedRegistration) : r.entry.length = 21 := by
  rw [entry, length_append, Address.length_bytes]
  rfl

/-- One entry without a valid type, and there are none. -/
theorem decodeEntries_entries (regs : List QueuedRegistration) :
    decodeEntries regs.length (regs.flatMap QueuedRegistration.entry) =
      if regs.all QueuedRegistration.valid then some (regs.filterMap QueuedRegistration.decoded)
      else none := by
  induction regs with
  | nil => rfl
  | cons r regs ih =>
    have hlen := Address.length_bytes r.address
    have haddr : ((r :: regs).flatMap QueuedRegistration.entry).take 20 =
        Address.bytes r.address := by
      rw [flatMap_cons, QueuedRegistration.entry, append_assoc, take_left' hlen]
    have htype : ((r :: regs).flatMap QueuedRegistration.entry).getD 20 0 = r.nodeType := by
      simp [QueuedRegistration.entry, getD_eq_getElem?_getD, hlen]
    have hrest : ((r :: regs).flatMap QueuedRegistration.entry).drop 21 =
        regs.flatMap QueuedRegistration.entry := by
      rw [flatMap_cons, drop_left' r.length_entry]
    rw [length_cons, decodeEntries, haddr, htype, hrest, ih, bytesToAddress_bytes, all_cons,
      filterMap_cons, QueuedRegistration.valid, QueuedRegistration.decoded]
    cases NodeType.ofByte r.nodeType with
    | none => rfl
    | some type => cases regs.all QueuedRegistration.valid <;> rfl

theorem length_entries (regs : List QueuedRegistration) :
    (regs.flatMap QueuedRegistration.entry).length = regs.length * 21 := by
  induction regs with
  | nil => rfl
  | cons r regs ih =>
    rw [flatMap_cons, length_append, r.length_entry, ih, length_cons, Nat.succ_mul,
      Nat.add_comm]

/-- Only the first 255 are written. -/
theorem encodeRegistrations_eq (hne : regs ≠ []) :
    encodeRegistrations regs =
      UInt8.ofNat (regs.take 255).length :: (regs.take 255).flatMap QueuedRegistration.entry := by
  have hpos : regs.length ≠ 0 := fun h => hne (length_eq_zero_iff.mp h)
  unfold encodeRegistrations
  dsimp only
  rw [if_neg hpos]
  split
  next hlt => rw [length_take, Nat.min_eq_left (le_of_lt hlt)]
  next hle =>
    rw [take_of_length_le (le_refl _), take_of_length_le (not_lt.mp hle)]

/-- **What is written is read back**, or nothing is if a type is invalid. -/
theorem decode_encodeRegistrations (regs : List QueuedRegistration) :
    decodeRegistrations (encodeRegistrations regs) =
      if (regs.take 255).all QueuedRegistration.valid then
        some ((regs.take 255).filterMap QueuedRegistration.decoded)
      else none := by
  by_cases hne : regs = []
  · rw [hne]
    rfl
  · have hle : (regs.take 255).length < 256 := by
      rw [length_take]
      omega
    have hcount : (UInt8.ofNat (regs.take 255).length).toNat = (regs.take 255).length := by
      exact Nat.mod_eq_of_lt hle
    rw [encodeRegistrations_eq hne, decodeRegistrations, hcount, if_pos (length_entries _),
      decodeEntries_entries]

/-- The header's middle part is what was encoded. -/
theorem behaviorData_inject (extra : Bytes) (hne : regs ≠ []) {h : Header}
    (hextra : h.extra = injectRegistrations extra regs) :
    extraVanity + extraSeal < h.extra.length ∧ h.behaviorData = encodeRegistrations regs := by
  have hdata : (encodeRegistrations regs).length ≠ 0 := by
    rw [encodeRegistrations_eq hne]
    exact Nat.succ_ne_zero _
  have hvanity : ((extra ++ replicate extraVanity 0).take extraVanity).length = extraVanity := by
    rw [length_take, length_append, length_replicate]
    omega
  unfold injectRegistrations at hextra
  rw [if_neg hdata] at hextra
  have hlength : h.extra.length = extraVanity + (encodeRegistrations regs).length + extraSeal := by
    rw [hextra, length_append, length_append, hvanity, length_replicate]
  constructor
  · omega
  · unfold Header.behaviorData
    rw [hlength, Nat.add_sub_cancel, hextra,
      take_left' (by rw [length_append, hvanity]), drop_left' hvanity]

/-! ## 2. What a header registers -/

namespace Snapshot

/-- The node is registered under this type. -/
def Enrolled (s : Snapshot) (reg : TestnetRegistration) : Prop :=
  match reg.nodeType with
  | .agent => reg.address ∈ s.agents
  | .physical => reg.address ∈ s.physicalNodes

/-- The part of the snapshot that voting does not touch. -/
def roster (s : Snapshot) := (s.config, s.agents, s.physicalNodes)

variable {s t : Snapshot} {number : UInt64} {reg : TestnetRegistration}

theorem roster_eq_iff : t.roster = s.roster ↔
    t.config = s.config ∧ t.agents = s.agents ∧ t.physicalNodes = s.physicalNodes := by
  simp only [roster, Prod.mk.injEq]

theorem Enrolled.congr (he : t.roster = s.roster) : t.Enrolled reg ↔ s.Enrolled reg := by
  obtain ⟨-, hagents, hphysical⟩ := roster_eq_iff.mp he
  unfold Enrolled
  rw [hagents, hphysical]

/-- Up to the registrations. -/
theorem roster_settled (s : Snapshot) (header : Header) :
    ((s.voted header).settleVote (.ofNat header.number) header.coinbase).roster = s.roster :=
  congrArg (fun b => (b.1.1, b.2.1.1, b.2.2.1)) (bystanders_settled s header)

theorem enrolled_register {new : TestnetRegistration} :
    (s.register number new).Enrolled reg ↔ s.Enrolled reg ∨ reg = new := by
  obtain ⟨addr, type⟩ := reg
  obtain ⟨newAddr, newType⟩ := new
  unfold register Enrolled
  cases newType <;> cases type <;> dsimp only <;> split <;>
    simp_all [Finmap.mem_insert, Finmap.lookup_isSome, or_comm]

theorem enrolled_foldl_register {news : List TestnetRegistration} :
    (news.foldl (register number) s).Enrolled reg ↔ s.Enrolled reg ∨ reg ∈ news := by
  induction news generalizing s with
  | nil => simp
  | cons new news ih => rw [foldl_cons, ih, enrolled_register, mem_cons, or_assoc]

end Snapshot

/-- The registrations that a header carries. -/
def Header.registrations (h : Header) : List TestnetRegistration :=
  if extraVanity + extraSeal < h.extra.length then
    (decodeRegistrations h.behaviorData).getD [] else []

variable {header : Header} {extra : Bytes} {reg : TestnetRegistration}

/-- They are the first 255 that were injected, if all of these have valid types. -/
theorem mem_registrations_inject (hextra : header.extra = injectRegistrations extra regs)
    (hshort : extra.length ≤ extraVanity + extraSeal) :
    reg ∈ header.registrations ↔ (∀ q ∈ regs.take 255, q.valid = true) ∧
      ∃ r ∈ regs.take 255, r.decoded = some reg := by
  unfold Header.registrations
  by_cases hne : regs = []
  · subst hne
    rw [if_neg (by rw [hextra]; exact not_lt.mpr hshort)]
    simp
  · obtain ⟨hlength, hdata⟩ := behaviorData_inject extra hne hextra
    rw [if_pos hlength, hdata, decode_encodeRegistrations, ← all_eq_true, ← mem_filterMap]
    cases (regs.take 255).all QueuedRegistration.valid with
    | false => simp
    | true => simp

theorem Snapshot.enrolled_applyHeader {s : Snapshot} :
    (s.applyHeader header).Enrolled reg ↔ s.Enrolled reg ∨
      (ofNat header.number % s.config.epoch ≠ 0 ∧ reg ∈ header.registrations) := by
  have hroster := roster_settled s header
  rw [applyHeader_eq, registerAll, (roster_eq_iff.mp hroster).1, Header.registrations]
  split
  next h => rw [enrolled_foldl_register, Enrolled.congr hroster, if_pos h.2, and_iff_right h.1]
  next h =>
    rw [Enrolled.congr hroster]
    refine ⟨.inl, fun henrolled => henrolled.resolve_right ?_⟩
    rintro ⟨hcheckpoint, hmem⟩
    split at hmem
    next hlength => exact h ⟨hcheckpoint, hlength⟩
    next => exact absurd hmem not_mem_nil

/-! ## 3. Producing blocks -/

/-- A call of `validatorCommitNewWork`.  `header` is what it assembles, but for `Number` and
`Extra`; the other fields say how far it gets. -/
structure Attempt where
  newBlockNumber : Nat
  newBlockType : BlockType
  header : Header
  /-- `makeCurrent` has no error. -/
  makesCurrent : Bool
  /-- `Pending` has no error. -/
  fetchesPending : Bool
  /-- Neither of the two calls of `commitTransactions` is interrupted. -/
  packsLocals : Bool
  packsRemotes : Bool
  /-- How many acks `CheckAndGetNumAcks` gives. -/
  parentAcks : Nat
  /-- `Seal` has no error. -/
  seals : Bool
  /-- The task is taken before the worker exits. -/
  handsOver : Bool

/-- The block, if there is none of the early returns. -/
def Attempt.finish (config : WorkerConfig) (a : Attempt) (extra : Bytes) : Option Header :=
  if a.makesCurrent = false then none
  else if a.newBlockType = .effect ∧ a.fetchesPending = false then none
  else if a.newBlockType = .effect ∧ a.packsLocals = false then none
  else if a.newBlockType = .effect ∧ a.packsRemotes = false then none
  else if a.parentAcks < (config.witness a.newBlockNumber).requiredAcks ∧
      1 < config.validatorWitnessCount then none
  else if a.seals = false then none
  else if a.handsOver = false then none
  else some { a.header with number := a.newBlockNumber, extra := extra }

/-- Whether it finishes does not depend on the registrations. -/
def Attempt.Finishes (config : WorkerConfig) (a : Attempt) : Prop := (a.finish config []).isSome

theorem Attempt.finish_eq_some {config : WorkerConfig} {a : Attempt} {extra : Bytes}
    {block : Header} :
    a.finish config extra = some block ↔ a.Finishes config ∧
      block = { a.header with number := a.newBlockNumber, extra := extra } := by
  unfold Attempt.Finishes Attempt.finish
  split_ifs <;> simp [eq_comm]

/-- What one attempt drained from the queue, and the block it produced. -/
structure Trip where
  attempt : Attempt
  drained : List QueuedRegistration
  block : Option Header

/-- The block, if there is one, carries what was drained. -/
def Trip.Loaded (config : WorkerConfig) (t : Trip) : Prop :=
  ∃ extra : Bytes, extra.length ≤ extraVanity + extraSeal ∧
    t.block = t.attempt.finish config (injectRegistrations extra t.drained)

def maximumExtraDataSize : Nat := 32

/-- The queue of the engine, what the worker adds to it, and a record of the attempts. -/
structure Pipeline where
  coinbase : Address
  extra : Bytes
  pendingRegistrations : List QueuedRegistration := []
  trips : List Trip := []
  extra_le : extra.length ≤ maximumExtraDataSize

namespace Pipeline

def new (coinbase : Address) : Pipeline :=
  { coinbase := coinbase, extra := [], extra_le := by decide }

def addPendingRegistration (p : Pipeline) (addr : Address) (nodeType : UInt8) : Pipeline :=
  { p with pendingRegistrations := p.pendingRegistrations ++ [⟨addr, nodeType⟩] }

/-- The queue, and the pipeline with an empty one. -/
def drainPendingRegistrations (p : Pipeline) : List QueuedRegistration × Pipeline :=
  (p.pendingRegistrations, { p with pendingRegistrations := [] })

/-- A visual block does not drain the queue. -/
def validatorCommitNewWork (config : WorkerConfig) (p : Pipeline) (a : Attempt) : Pipeline :=
  if p.coinbase = 0 then p
  else if a.newBlockType = .visual then
    { p with trips := p.trips ++ [⟨a, [], a.finish config Header.visualBlockExtra⟩] }
  else
    let (regs, p) := p.drainPendingRegistrations
    let extra := if 0 < regs.length then injectRegistrations p.extra regs else p.extra
    { p with trips := p.trips ++ [⟨a, regs, a.finish config extra⟩] }

/-- An extra that is too long is refused. -/
def setExtra (p : Pipeline) (extra : Bytes) : Pipeline :=
  if h : extra.length ≤ maximumExtraDataSize then { p with extra := extra, extra_le := h } else p

inductive Event where
  | register (addr : Address) (nodeType : UInt8)
  | attempt (a : Attempt)
  | setProbebase (addr : Address)
  | setExtra (extra : Bytes)

def handle (config : WorkerConfig) (p : Pipeline) : Event → Pipeline
  | .register addr nodeType => p.addPendingRegistration addr nodeType
  | .attempt a => p.validatorCommitNewWork config a
  | .setProbebase addr => { p with coinbase := addr }
  | .setExtra extra => p.setExtra extra

def run (config : WorkerConfig) (p : Pipeline) (events : List Event) : Pipeline :=
  events.foldl (handle config) p

/-- All registrations of a schedule, in order. -/
def queued : List Event → List QueuedRegistration
  | [] => []
  | .register addr nodeType :: events => ⟨addr, nodeType⟩ :: queued events
  | .attempt _ :: events => queued events
  | .setProbebase _ :: events => queued events
  | .setExtra _ :: events => queued events

/-- All that was drained, in order. -/
def drained (p : Pipeline) : List QueuedRegistration := p.trips.flatMap Trip.drained

/-- **The queue loses nothing.**  What was queued has been drained, by one attempt, or is still
waiting. -/
theorem drained_append_pending (config : WorkerConfig) (events : List Event) (p : Pipeline) :
    (p.run config events).drained ++ (p.run config events).pendingRegistrations =
      p.drained ++ p.pendingRegistrations ++ queued events := by
  induction events generalizing p with
  | nil => rw [queued, append_nil]; rfl
  | cons e events ih =>
    refine (ih (p.handle config e)).trans ?_
    cases e with
    | register addr nodeType => simp [handle, addPendingRegistration, drained, queued]
    | attempt a =>
      refine congrArg (· ++ queued events) ?_
      unfold handle validatorCommitNewWork
      dsimp only
      split_ifs <;> simp [drained, drainPendingRegistrations]
    | setProbebase addr => rfl
    | setExtra extra =>
      refine congrArg (· ++ queued events) ?_
      unfold handle setExtra
      dsimp only
      split <;> rfl

variable {config : WorkerConfig} {p : Pipeline}

theorem loaded_validatorCommitNewWork (h : ∀ t ∈ p.trips, t.Loaded config) (a : Attempt) :
    ∀ t ∈ (p.validatorCommitNewWork config a).trips, t.Loaded config := by
  unfold validatorCommitNewWork
  split_ifs
  · exact h
  · intro t ht
    rcases mem_append.mp ht with ht | ht
    · exact h t ht
    · rw [mem_singleton.mp ht]
      exact ⟨Header.visualBlockExtra, by decide, rfl⟩
  · intro t ht
    rcases mem_append.mp ht with ht | ht
    · exact h t ht
    · rw [mem_singleton.mp ht]
      refine ⟨p.extra, p.extra_le.trans (by decide), congrArg (a.finish config) ?_⟩
      show (if 0 < p.pendingRegistrations.length then _ else p.extra) = _
      split
      · rfl
      · have hnil : p.pendingRegistrations = [] := length_eq_zero_iff.mp (by omega)
        rw [drainPendingRegistrations, hnil]
        rfl

theorem loaded_run (h : ∀ t ∈ p.trips, t.Loaded config) (events : List Event) :
    ∀ t ∈ (p.run config events).trips, t.Loaded config := by
  induction events generalizing p with
  | nil => exact h
  | cons e events ih =>
    refine ih (p := p.handle config e) ?_
    cases e with
    | register addr nodeType => exact h
    | attempt a => exact loaded_validatorCommitNewWork h a
    | setProbebase addr => exact h
    | setExtra extra =>
      unfold handle setExtra
      dsimp only
      split
      · exact h
      · exact h

end Pipeline

/-! ## 4. Delivery -/

/-- The defaults of the engine. -/
def epochLength : UInt64 := 30000

def PobConfig.new (config : PobConfig) : PobConfig where
  epoch := if config.epoch = 0 then epochLength else config.epoch
  initialScore := if config.initialScore = 0 then defaultInitialScore else config.initialScore

theorem PobConfig.epoch_new (config : PobConfig) : config.new.epoch ≠ 0 := by
  unfold PobConfig.new
  dsimp only
  split
  · decide
  · assumption

/-- Every valid registration that was drained is in the block of the attempt, and the block
registers these nodes, under these types, and no others. -/
structure Trip.Delivered (K : Crypto) (config : PobConfig) (t : Trip) : Prop where
  carried : ∀ r ∈ t.drained, ∀ reg, r.decoded = some reg →
    ∃ block, t.block = some block ∧ reg ∈ block.registrations
  applied : ∀ block, t.block = some block → ∀ s : Snapshot, s.config = config →
    ofNat block.number = s.number + 1 → ∃ s', s.apply K [block] = .ok s' ∧
      ∀ reg, s'.Enrolled reg ↔ s.Enrolled reg ∨ ∃ r ∈ t.drained, r.decoded = some reg

/-- What a registration needs to arrive. -/
structure Trip.Carries (workerConfig : WorkerConfig) (config : PobConfig) (t : Trip)
    (r : QueuedRegistration) : Prop where
  finishes : t.attempt.Finishes workerConfig
  noCheckpoint : ofNat t.attempt.newBlockNumber % config.epoch ≠ 0
  written : r ∈ t.drained.take 255
  valid : ∀ q ∈ t.drained.take 255, q.valid = true

variable {K : Crypto} {workerConfig : WorkerConfig} {config : PobConfig} {t : Trip}

theorem Snapshot.apply_block {s : Snapshot} (block : Header) (hepoch : s.config.epoch ≠ 0)
    (hnumber : ofNat block.number = s.number + 1) :
    ∃ s', s.apply K [block] = .ok s' ∧ ∀ reg, s'.Enrolled reg ↔
      (s.applyHeader block).Enrolled reg := by
  rw [apply_singleton, if_pos hnumber, if_neg hepoch]
  exact ⟨_, rfl, fun reg => Enrolled.congr rfl⟩

theorem Trip.Loaded.carries (h : t.Loaded workerConfig) (hdelivered : t.Delivered K config)
    {r : QueuedRegistration} (hr : r ∈ t.drained) (hvalid : r.valid = true) :
    t.Carries workerConfig config r := by
  obtain ⟨extra, hshort, hblock⟩ := h
  obtain ⟨reg, hreg⟩ := Option.isSome_iff_exists.mp hvalid
  obtain ⟨block, hsome, hmem⟩ := hdelivered.carried r hr reg hreg
  obtain ⟨hfinishes, heq⟩ := Attempt.finish_eq_some.mp (hblock ▸ hsome)
  have hextra : block.extra = injectRegistrations extra t.drained := by rw [heq]
  have hblocknumber : block.number = t.attempt.newBlockNumber := by rw [heq]
  obtain ⟨hall, q, hq, hqreg⟩ := (mem_registrations_inject hextra hshort).mp hmem
  refine ⟨hfinishes, ?_, QueuedRegistration.decoded_inj hqreg hreg ▸ hq, hall⟩
  rw [← hblocknumber]
  -- a snapshot that has no nodes yet
  let s : Snapshot := { config := config, number := ofNat block.number - 1, hash := 0 }
  have hnumber : UInt64.ofNat block.number = s.number + 1 := (UInt64.sub_add_cancel _ _).symm
  have hempty : ¬ s.Enrolled reg := by
    unfold Snapshot.Enrolled
    cases reg.nodeType <;> exact Finmap.notMem_empty
  obtain ⟨s', happly, henrolled⟩ := hdelivered.applied block hsome s rfl hnumber
  have hs' : s'.Enrolled reg := (henrolled reg).mpr (.inr ⟨r, hr, hreg⟩)
  have hepoch : s.config.epoch ≠ 0 := by
    intro hzero
    rw [apply_singleton, if_pos hnumber, if_pos hzero] at happly
    cases happly
  obtain ⟨s'', happly', henrolled'⟩ := apply_block (K := K) block hepoch hnumber
  cases happly.symm.trans happly'
  exact ((enrolled_applyHeader.mp ((henrolled' reg).mp hs')).resolve_left hempty).1

theorem Trip.Loaded.delivered (h : t.Loaded workerConfig) (hepoch : config.epoch ≠ 0)
    (hcarries : ∀ r ∈ t.drained, r.valid = true → t.Carries workerConfig config r) :
    t.Delivered K config := by
  obtain ⟨extra, hshort, hblock⟩ := h
  constructor
  · intro r hr reg hreg
    have hc := hcarries r hr (Option.isSome_iff_exists.mpr ⟨reg, hreg⟩)
    refine ⟨_, hblock.trans (Attempt.finish_eq_some.mpr ⟨hc.finishes, rfl⟩), ?_⟩
    exact (mem_registrations_inject rfl hshort).mpr ⟨hc.valid, r, hc.written, hreg⟩
  · intro block hsome s hconfig hnumber
    obtain ⟨-, rfl⟩ := Attempt.finish_eq_some.mp (hblock ▸ hsome)
    obtain ⟨s', happly, henrolled⟩ := apply_block (K := K) _ (hconfig ▸ hepoch) hnumber
    refine ⟨s', happly, fun reg => ?_⟩
    rw [henrolled reg, enrolled_applyHeader, mem_registrations_inject rfl hshort, hconfig]
    refine or_congr_right ⟨?_, ?_⟩
    · rintro ⟨-, -, r, hr, hreg⟩
      exact ⟨r, mem_of_mem_take hr, hreg⟩
    · rintro ⟨r, hr, hreg⟩
      have hc := hcarries r hr (Option.isSome_iff_exists.mpr ⟨reg, hreg⟩)
      exact ⟨hc.noCheckpoint, hc.valid, r, hc.written, hreg⟩

/-- **Exactly these registrations arrive**, in every schedule. -/
theorem registrations_delivered_iff (K : Crypto) (workerConfig : WorkerConfig) (config : PobConfig)
    (coinbase : Address) (events : List Pipeline.Event) {t : Trip}
    (ht : t ∈ ((Pipeline.new coinbase).run workerConfig events).trips) :
    t.Delivered K config.new ↔
      ∀ r ∈ t.drained, r.valid = true → t.Carries workerConfig config.new r := by
  have hloaded := Pipeline.loaded_run (fun t ht => absurd ht not_mem_nil) events t ht
  constructor
  · intro hdelivered r hr hvalid
    exact hloaded.carries hdelivered hr hvalid
  · intro hcarries
    exact hloaded.delivered config.epoch_new hcarries

/-- A validator that is alone. -/
def aloneConfig : WorkerConfig := ⟨⟨none, none⟩, none, 1⟩

/-- An attempt to produce block 1 on a state that is there or not. -/
def firstAttempt (makesCurrent : Bool) : Attempt where
  newBlockNumber := 1
  newBlockType := .effect
  header := { validatorAddr := 1 }
  makesCurrent := makesCurrent
  fetchesPending := true
  packsLocals := true
  packsRemotes := true
  parentAcks := 0
  seals := true
  handsOver := true

/-- Address 5 asks to be registered as an agent, and a block is attempted. -/
def oneRegistration (makesCurrent : Bool) : List Pipeline.Event :=
  [.register 5 1, .attempt (firstAttempt makesCurrent)]

/-- What the attempt made of it. -/
def onlyTrip (makesCurrent : Bool) : Trip where
  attempt := firstAttempt makesCurrent
  drained := [⟨5, 1⟩]
  block := (firstAttempt makesCurrent).finish aloneConfig (injectRegistrations [] [⟨5, 1⟩])

theorem onlyTrip_mem (makesCurrent : Bool) :
    onlyTrip makesCurrent ∈
      ((Pipeline.new 1).run aloneConfig (oneRegistration makesCurrent)).trips :=
  mem_singleton_self _

theorem registrations_delivered_firstAttempt :
    (onlyTrip true ∈ ((Pipeline.new 1).run aloneConfig (oneRegistration true)).trips) ∧
      (onlyTrip true).Delivered plainCrypto (PobConfig.new ⟨0, 0⟩) := by
  refine ⟨onlyTrip_mem true, ?_⟩
  refine (registrations_delivered_iff plainCrypto aloneConfig ⟨0, 0⟩ 1 (oneRegistration true)
    (onlyTrip_mem true)).mpr ?_
  intro r hr _
  have hdrained : (onlyTrip true).drained.take 255 = [⟨5, 1⟩] := rfl
  refine ⟨by unfold Attempt.Finishes; decide, by decide, ?_, ?_⟩
  · rw [hdrained]
    exact hr
  · rw [hdrained]
    decide

/-- The state of the parent is not there: the registration is in no block. -/
theorem registration_lost :
    (onlyTrip false ∈ ((Pipeline.new 1).run aloneConfig (oneRegistration false)).trips) ∧
      ¬ (onlyTrip false).Delivered plainCrypto (PobConfig.new ⟨0, 0⟩) := by
  refine ⟨onlyTrip_mem false, ?_⟩
  intro h
  obtain ⟨block, hblock, -⟩ := h.carried ⟨5, 1⟩ (mem_singleton_self _) ⟨5, .agent⟩ rfl
  cases hblock

end ProbeChain
