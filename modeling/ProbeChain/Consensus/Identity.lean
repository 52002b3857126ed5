/-
# Proofs of identity

`consensus/pob/node_identity.go`.  Someone who registers as an agent signs a challenge with the
agent's own key; someone who registers a device has it sign the challenge.  The detector limits the
registrations from one address of the network and gives one agent identity, and one device, to one
owner only.

`RegisterNodeV2` checks the proof for the type that is asked for and enters the node in the
snapshot.  It never looks at what the snapshot already has for the address (`registerNodeV2_eq_ok`).
-/
import ProbeChain.Consensus.Snapshot
import ProbeChain.Lib.Check

namespace ProbeChain

open Check List

/-- All errors of a registration; the last six have no name in the source. -/
inductive RegistrationError where
  | invalidNodeType
  | agentSignatureInvalid
  | agentIDMismatch
  | agentAlreadyRegistered
  | challengeMismatch
  | deviceFingerprintEmpty
  | deviceDuplicate
  | deviceAttestInvalid
  | virtualDeviceDetected
  | ipRateLimited
  | operatorKeyIsAgentKey
  | agentWithoutProof
  | agentWithPhysicalProof
  | physicalWithoutProof
  | physicalWithAgentProof
  | noCores
  | noMemory
  deriving DecidableEq, Repr

/-! ## 1. Proofs -/

/-- The bytes of a text in ASCII. -/
def asciiBytes (text : String) : Bytes := text.toList.map fun c => UInt8.ofNat c.toNat

/-- `AgentRegistrationProof` -/
structure AgentProof where
  agentID : Hash
  agentAddress : Address
  operatorAddress : Address
  challenge : Hash
  signature : Bytes
  deriving DecidableEq

def agentRegistrationMessage (K : Crypto) (agentID : Hash) (operator : Address)
    (challenge : Hash) : Hash :=
  K.keccak256 (asciiBytes "ProbeChain-Agent-Register-v1" ++ Hash.bytes agentID ++
    Address.bytes operator ++
    Hash.bytes challenge)

/-- The address whose key has signed, which must be the agent's. -/
def AgentProof.verify (K : Crypto) (p : AgentProof) (expectedChallenge : Hash) :
    Except RegistrationError Address := do
  require (p.challenge = expectedChallenge) .challengeMismatch
  require (p.operatorAddress ≠ p.agentAddress) .operatorKeyIsAgentKey
  require (p.signature.length = 65) .agentSignatureInvalid
  let pubkey ← getOr
      (K.recoverPubkey (agentRegistrationMessage K p.agentID p.operatorAddress p.challenge)
        p.signature)
    .agentSignatureInvalid
  let recovered : Address := (K.keccak256 (pubkey.drop 1)).setWidth 160
  require (recovered = p.agentAddress) .agentIDMismatch
  return recovered

structure HardwareReport where
  cpuCores : UInt32
  ramBytes : UInt64
  virtualizationFlags : UInt64
  deriving DecidableEq

def HardwareReport.isVirtual (report : HardwareReport) : Bool := report.virtualizationFlags ≠ 0

/-- `PhysicalRegistrationProof` -/
structure PhysicalProof where
  deviceID : Hash
  operatorAddress : Address
  challenge : Hash
  deviceAttestation : Bytes
  timestamp : UInt64
  hardwareReport : Option HardwareReport
  deriving DecidableEq

def physicalRegistrationMessage (K : Crypto) (deviceID : Hash) (operator : Address)
    (challenge : Hash) (timestamp : UInt64) : Hash :=
  K.keccak256 (asciiBytes "ProbeChain-Physical-Register-v1" ++ Hash.bytes deviceID ++
    Address.bytes operator ++
    Hash.bytes challenge ++ BigEndian.ofNatWidth 8 timestamp.toNat)

/-- What `MakeDeviceFingerprint` writes into the digest: the lengths of the fields are not kept. -/
def deviceBytes (cpuID macAddr diskSerial boardSerial : Bytes) : Bytes :=
  asciiBytes "ProbeChain-DeviceID-v1" ++ cpuID ++ macAddr ++ diskSerial ++ boardSerial

def makeDeviceFingerprint (K : Crypto) (cpuID macAddr diskSerial boardSerial : Bytes) : Hash :=
  K.keccak256 (deviceBytes cpuID macAddr diskSerial boardSerial)

/-- Any signature will do: nobody asks whose key it recovers to. -/
def PhysicalProof.verify (K : Crypto) (p : PhysicalProof) (expectedChallenge : Hash) :
    Except RegistrationError Unit := do
  require (p.challenge = expectedChallenge) .challengeMismatch
  require (p.deviceID ≠ 0) .deviceFingerprintEmpty
  require ((p.hardwareReport.any HardwareReport.isVirtual) = false) .virtualDeviceDetected
  require (65 ≤ p.deviceAttestation.length) .deviceAttestInvalid
  let _ ← getOr
      (K.recoverPubkey
        (physicalRegistrationMessage K p.deviceID p.operatorAddress p.challenge p.timestamp)
    p.deviceAttestation) .deviceAttestInvalid
  return ()

/-! ## 2. The detector -/

def maxRegistrationsPerIP : Nat := 10

/-- An hour, in nanoseconds. -/
def ipRateLimitWindow : Nat := 3600 * 10 ^ 9

def challengeMaxAge : UInt64 := 256

structure IpRegistrationTracker where
  count : Nat
  windowEnd : Nat
  deriving DecidableEq

structure SybilDetector where
  registeredAgentIDs : Finmap fun _ : Hash => Address := ∅
  registeredDevices : Finmap fun _ : Hash => Address := ∅
  ipRegistrations : Finmap fun _ : String => IpRegistrationTracker := ∅

/-- `NewSybilDetector` -/
def newSybilDetector : SybilDetector := {}

namespace SybilDetector

/-- The window that is open for the address of the network, if there is one. -/
def openWindow (sd : SybilDetector) (now : Nat) (ip : String) : Option IpRegistrationTracker :=
  (sd.ipRegistrations.lookup ip).filter fun tracker => now ≤ tracker.windowEnd

/-- Local registrations, without such an address, are not limited. -/
def checkIPRateLimit (sd : SybilDetector) (now : Nat) (ip : String) :
    Except RegistrationError Unit :=
  require (ip = "" ∨ (sd.openWindow now ip).all fun tracker => tracker.count <
    maxRegistrationsPerIP) .ipRateLimited

def recordIPRegistration (sd : SybilDetector) (now : Nat) (ip : String) : SybilDetector :=
  if ip = "" then sd
  else
    let tracker := match sd.openWindow now ip with
      | none => ⟨1, now + ipRateLimitWindow⟩
      | some tracker => { tracker with count := tracker.count + 1 }
    { sd with ipRegistrations := sd.ipRegistrations.insert ip tracker }

def validateHardware : Option HardwareReport → Except RegistrationError Unit
  | none => .ok ()
  | some report => do
    require (report.isVirtual = false) .virtualDeviceDetected
    require (report.cpuCores ≠ 0) .noCores
    require (report.ramBytes ≠ 0) .noMemory

/-- The age of the challenge is taken in 64 bits: one from the future is too old. -/
def validateAgentRegistration (K : Crypto) (now : Nat) (proof : AgentProof) (challenge : Hash)
    (currentBlock challengeBlock : UInt64) (sourceIP : String) (sd : SybilDetector) :
    Except RegistrationError SybilDetector := do
  require (currentBlock - challengeBlock ≤ challengeMaxAge) .challengeMismatch
  sd.checkIPRateLimit now sourceIP
  let _ ← proof.verify K challenge
  require ((sd.registeredAgentIDs.lookup proof.agentID).all fun existing => existing =
    proof.agentAddress)
    .agentAlreadyRegistered
  let sd :=
    { sd with registeredAgentIDs := sd.registeredAgentIDs.insert proof.agentID proof.agentAddress }
  return sd.recordIPRegistration now sourceIP

def validatePhysicalRegistration (K : Crypto) (now : Nat) (proof : PhysicalProof) (challenge : Hash)
    (currentBlock challengeBlock : UInt64) (sourceIP : String) (sd : SybilDetector) :
    Except RegistrationError SybilDetector := do
  require (currentBlock - challengeBlock ≤ challengeMaxAge) .challengeMismatch
  sd.checkIPRateLimit now sourceIP
  proof.verify K challenge
  require ((sd.registeredDevices.lookup proof.deviceID).all fun existing => existing =
    proof.operatorAddress)
    .deviceDuplicate
  validateHardware proof.hardwareReport
  let sd :=
    { sd with
      registeredDevices := sd.registeredDevices.insert proof.deviceID proof.operatorAddress }
  return sd.recordIPRegistration now sourceIP

end SybilDetector

/-! ## 3. Registration -/

structure NodeRegistrationRequest where
  nodeType : UInt8
  agentProof : Option AgentProof := none
  physicalProof : Option PhysicalProof := none
  deriving DecidableEq

namespace NodeRegistrationRequest

/-- Exactly one proof, and it is for the type. -/
def validate (req : NodeRegistrationRequest) : Except RegistrationError Unit :=
  match NodeType.ofByte req.nodeType with
  | some .agent => do
    require (req.agentProof ≠ none) .agentWithoutProof
    require (req.physicalProof = none) .agentWithPhysicalProof
  | some .physical => do
    require (req.physicalProof ≠ none) .physicalWithoutProof
    require (req.agentProof = none) .physicalWithAgentProof
  | none => .error .invalidNodeType

/-- What a valid request asks for. -/
def registration (req : NodeRegistrationRequest) : Option TestnetRegistration :=
  match NodeType.ofByte req.nodeType with
  | some .agent => req.agentProof.map fun proof => ⟨proof.agentAddress, .agent⟩
  | some .physical => req.physicalProof.map fun proof => ⟨proof.operatorAddress, .physical⟩
  | none => none

end NodeRegistrationRequest

namespace Snapshot

/-- A node that is already registered starts again. -/
def registerAgent (s : Snapshot) (addr : Address) (blockNumber : UInt64) : Snapshot :=
  { s with agents := s.agents.insert addr (defaultAgentScore blockNumber)
           agentHistories := s.agentHistories.insert addr {} }

def registerPhysicalNode (s : Snapshot) (addr : Address) (blockNumber : UInt64) : Snapshot :=
  { s with physicalNodes := s.physicalNodes.insert addr (defaultPhysicalNodeScore blockNumber)
           physicalHistories := s.physicalHistories.insert addr {} }

/-- Both change: the snapshot, and the detector if there is one. -/
def registerNodeV2 (K : Crypto) (now : Nat) (s : Snapshot) (req : NodeRegistrationRequest)
    (challenge : Hash) (currentBlock challengeBlock : UInt64) (detector : Option SybilDetector)
    (sourceIP : String) :
    Except RegistrationError (Snapshot × Option SybilDetector) := do
  req.validate
  match NodeType.ofByte req.nodeType, req.agentProof, req.physicalProof with
  | some .agent, some proof, _ =>
    let detector ← detector.mapM
      (SybilDetector.validateAgentRegistration K now proof challenge currentBlock
        challengeBlock sourceIP)
    return (s.registerAgent proof.agentAddress currentBlock, detector)
  | some .physical, _, some proof =>
    let detector ← detector.mapM
      (SybilDetector.validatePhysicalRegistration K now proof challenge currentBlock
        challengeBlock sourceIP)
    return (s.registerPhysicalNode proof.operatorAddress currentBlock, detector)
  | _, _, _ => .error .invalidNodeType

/-- **One of the two registrations**, whatever the detector is and whatever the snapshot has. -/
theorem registerNodeV2_eq_ok {K : Crypto} {now : Nat} {s t : Snapshot}
    {req : NodeRegistrationRequest} {challenge : Hash} {currentBlock challengeBlock : UInt64}
    {detector detector' : Option SybilDetector} {sourceIP : String}
    (h : s.registerNodeV2 K now req challenge currentBlock challengeBlock detector sourceIP =
      .ok (t, detector')) :
    ∃ a, (req.registration = some ⟨a, .agent⟩ ∧ t = s.registerAgent a currentBlock) ∨
      (req.registration = some ⟨a, .physical⟩ ∧ t = s.registerPhysicalNode a currentBlock) := by
  obtain ⟨-, h⟩ := then_eq_ok.mp h
  split at h
  next proof htype hproof =>
    obtain ⟨_, -, h⟩ := bind_eq_ok.mp h
    cases h
    exact ⟨proof.agentAddress,
      .inl ⟨by simp [NodeRegistrationRequest.registration, htype, hproof], rfl⟩⟩
  next proof htype hproof =>
    obtain ⟨_, -, h⟩ := bind_eq_ok.mp h
    cases h
    exact ⟨proof.operatorAddress,
      .inr ⟨by simp [NodeRegistrationRequest.registration, htype, hproof], rfl⟩⟩
  next => cases h

end Snapshot

/-! ## 4. Nodes that vote alike -/

/-- How many entries of one list occur in the other, which is asked as a set. -/
def matchingVotes (ref check : List Hash) : Nat := ref.countP (· ∈ check)

/-- `CorrelationScore`: the shorter list is the one that is counted, the first one if both are as
long. -/
def correlationScore (votesA votesB : List Hash) : UInt64 :=
  if votesA = [] ∨ votesB = [] then 0
  else
    let (ref, check) := if votesB.length < votesA.length then (votesB, votesA) else (votesA, votesB)
    .ofNat (matchingVotes ref check) * 10000 / .ofNat ref.length

variable {a b : List Hash}

/-- Lists without repeats have the same entries in common, from either side. -/
theorem matchingVotes_comm (ha : a.Nodup) (hb : b.Nodup) :
    matchingVotes a b = matchingVotes b a := by
  rw [matchingVotes, matchingVotes, countP_eq_length_filter, countP_eq_length_filter]
  refine List.Perm.length_eq ((perm_ext_iff_of_nodup (ha.filter _) (hb.filter _)).mpr fun v => ?_)
  simp [and_comm]

theorem correlationScore_of_length_lt (h : a.length < b.length) :
    correlationScore a b = correlationScore b a := by
  simp [correlationScore, h, h.not_gt, or_comm]

theorem toNat_correlationScore (ha : a ≠ []) (hle : a.length ≤ b.length)
    (hfits : a.length * 10000 < 2 ^ 64) :
    (correlationScore a b).toNat = matchingVotes a b * 10000 / a.length := by
  have hb : b ≠ [] := by
    rintro rfl
    exact ha (length_eq_zero_iff.mp (Nat.le_zero.mp hle))
  have hmatching : matchingVotes a b ≤ a.length := countP_le_length
  have hlength : a.length < 2 ^ 64 := by omega
  have hcount : matchingVotes a b < 2 ^ 64 := by omega
  have hproduct : matchingVotes a b * 10000 < 2 ^ 64 :=
    (Nat.mul_le_mul_right 10000 hmatching).trans_lt hfits
  have hscore : correlationScore a b = .ofNat (matchingVotes a b) * 10000 / .ofNat a.length := by
    rw [correlationScore, if_neg (by simp [ha, hb]), if_neg (Nat.not_lt.mpr hle)]
  rw [hscore, UInt64.toNat_div, UInt64.toNat_mul, UInt64.toNat_ofNat_of_lt' hlength,
    UInt64.toNat_ofNat_of_lt' hcount, show (10000 : UInt64).toNat = 10000 from rfl,
    Nat.mod_eq_of_lt hproduct]

theorem correlationScore_le_of_length_le (hle : a.length ≤ b.length)
    (hfits : a.length * 10000 < 2 ^ 64) :
    correlationScore a b ≤ 10000 := by
  by_cases ha : a = []
  · simp [correlationScore, ha]
  · rw [UInt64.le_iff_toNat_le, toNat_correlationScore ha hle hfits]
    have hmatching : matchingVotes a b ≤ a.length := countP_le_length
    exact Nat.div_le_of_le_mul (Nat.mul_le_mul_right _ hmatching)

theorem correlationScore_le (ha : a.length * 10000 < 2 ^ 64) (hb : b.length * 10000 < 2 ^ 64) :
    correlationScore a b ≤ 10000 := by
  obtain hle | hlt := Nat.lt_or_ge b.length a.length |>.symm
  · exact correlationScore_le_of_length_le hle ha
  · rw [← correlationScore_of_length_lt hlt]
    exact correlationScore_le_of_length_le hlt.le hb

/-- Only lists of one length are counted one way in one call and the other way in the other. -/
theorem correlationScore_comm_iff (ha : a.length * 10000 < 2 ^ 64) :
    correlationScore a b = correlationScore b a ↔
      (a.length = b.length →
        matchingVotes a b * 10000 / a.length = matchingVotes b a * 10000 / b.length) := by
  obtain hlt | heq | hlt := Nat.lt_trichotomy a.length b.length
  · simp [correlationScore_of_length_lt hlt, hlt.ne]
  · by_cases hempty : a = []
    · have hempty' : b = [] := length_eq_zero_iff.mp (by rw [← heq, hempty]; rfl)
      simp [hempty, hempty']
    · have hempty' : b ≠ [] := by
        rintro rfl
        exact hempty (length_eq_zero_iff.mp heq)
      rw [← UInt64.toNat_inj, toNat_correlationScore hempty heq.le ha,
        toNat_correlationScore hempty' heq.ge (heq ▸ ha)]
      simp [heq]
  · simp [correlationScore_of_length_lt hlt, hlt.ne']

/-- Of a list with at most 10000 entries, each counts for at least one basis point. -/
theorem eq_of_basisPoints_eq {x y n : Nat} (hpos : 0 < n) (hn : n ≤ 10000)
    (h : x * 10000 / n = y * 10000 / n) : x = y := by
  have hstep : ∀ {x y : Nat}, x < y → x * 10000 / n < y * 10000 / n := by
    intro x y hlt
    have hle : x * 10000 + n ≤ y * 10000 := by omega
    have hdiv := Nat.div_le_div_right (c := n) hle
    rw [Nat.add_div_right _ hpos] at hdiv
    omega
  obtain hlt | heq | hlt := Nat.lt_trichotomy x y
  · exact absurd h (hstep hlt).ne
  · exact heq
  · exact absurd h (hstep hlt).ne'

/-- **The score is at most 10000, and that of a list with itself.  It is the same from either side
if and only if the lists have different lengths, or as many votes of the one are in the other as
the other way round**, counted in basis points; up to 10000 votes these are the numbers
themselves.  Lists that repeat no vote are such.  The product does not wrap for lists that fit
into memory. -/
theorem correlationScore_spec {a b : List Hash} (ha : a.length * 10000 < 2 ^ 64)
    (hb : b.length * 10000 < 2 ^ 64) :
    (correlationScore a b = correlationScore b a ↔
      (a.length = b.length →
        matchingVotes a b * 10000 / a.length = matchingVotes b a * 10000 / b.length)) ∧
    (a.length ≤ 10000 → (correlationScore a b = correlationScore b a ↔
      (a.length = b.length → matchingVotes a b = matchingVotes b a))) ∧
    (a.Nodup → b.Nodup → correlationScore a b = correlationScore b a) ∧
    correlationScore a b ≤ 10000 ∧ (a ≠ [] → correlationScore a a = 10000) := by
  have hcomm := correlationScore_comm_iff (b := b) ha
  refine ⟨hcomm, fun hshort => ?_, fun hna hnb => ?_, correlationScore_le ha hb, fun hne => ?_⟩
  · rw [hcomm]
    refine forall_congr' fun heq => ⟨fun h => ?_, fun h => by rw [h, heq]⟩
    obtain hzero | hpos := Nat.eq_zero_or_pos a.length
    · rw [length_eq_zero_iff.mp hzero, length_eq_zero_iff.mp (heq.symm.trans hzero)]
    · exact eq_of_basisPoints_eq hpos hshort (by rw [h, heq])
  · refine hcomm.mpr fun heq => ?_
    rw [matchingVotes_comm hna hnb, heq]
  · have hall : matchingVotes a a = a.length := countP_eq_length.mpr fun v hv => decide_eq_true hv
    apply UInt64.toNat_inj.mp
    rw [toNat_correlationScore hne le_rfl ha, hall,
      Nat.mul_div_cancel_left _ (length_pos_iff.mpr hne)]
    rfl

/-- A vote that both lists repeat. -/
theorem correlationScore_spec_repeated :
    correlationScore [1, 1, 2] [3, 1, 1] = correlationScore [3, 1, 1] [1, 1, 2] := by
  have hspec := correlationScore_spec (a := [1, 1, 2]) (b := [3, 1, 1]) (by decide) (by decide)
  exact (hspec.2.1 (by decide)).mpr fun _ => by decide

/-- A vote that is repeated counts each time in the list, but once in the set. -/
theorem correlationScore_of_repeats :
    correlationScore [1, 1] [1, 2] ≠ correlationScore [1, 2] [1, 1] := by decide

end ProbeChain
