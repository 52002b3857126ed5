/-
# Aggregation by relays

`consensus/pob/agent_aggregation.go`: a relay puts the participants of an attestation into a Bloom
filter and signs a hash.  `attestation_binds_iff`: the hash covers neither the filter nor the
aggregate signature.
-/
import ProbeChain.Consensus.AgentTrie

namespace ProbeChain

open BigEndian List

def participantBloomSize : UInt64 := 4096

structure AggregatedAttestation where
  relayAddr : Address
  taskID : Hash
  blockNumber : UInt64
  agentCount : UInt64
  participantBloom : Bytes
  aggregateSignature : Bytes
  resultHash : Hash
  confidence : UInt64
  relaySignature : Bytes

namespace AggregatedAttestation

/-- `NewAggregatedAttestation` -/
def new (relayAddr : Address) (taskID : Hash) (blockNumber : UInt64) : AggregatedAttestation :=
  ⟨relayAddr, taskID, blockNumber, 0, replicate participantBloomSize.toNat 0, [], 0, 0, []⟩

/-- What `Hash` writes into the digest. -/
def hashed (a : AggregatedAttestation) : Bytes :=
  Address.bytes a.relayAddr ++ Hash.bytes a.taskID ++ putUint64 a.blockNumber ++
    putUint64 a.agentCount ++
    Hash.bytes a.resultHash ++ putUint64 a.confidence

def hash (K : Crypto) (a : AggregatedAttestation) : Hash := K.keccak256 a.hashed

/-- Every field that is written has its own width. -/
theorem hashed_inj {a b : AggregatedAttestation} (h : a.hashed = b.hashed) :
    a.relayAddr = b.relayAddr ∧ a.taskID = b.taskID ∧ a.blockNumber = b.blockNumber ∧
    a.agentCount = b.agentCount ∧
      a.resultHash = b.resultHash ∧ a.confidence = b.confidence := by
  obtain ⟨h, hconfidence⟩ := append_inj' h rfl
  obtain ⟨h, hresult⟩ := append_inj' h (by simp [Hash.length_bytes])
  obtain ⟨h, hcount⟩ := append_inj' h rfl
  obtain ⟨h, hblock⟩ := append_inj' h rfl
  obtain ⟨hrelay, htask⟩ := append_inj' h (by simp [Hash.length_bytes])
  exact ⟨Address.bytes_inj hrelay, Hash.bytes_inj htask, putUint64_inj hblock, putUint64_inj hcount,
    Hash.bytes_inj hresult, putUint64_inj hconfidence⟩

end AggregatedAttestation

/-- **Of two attestations with one hash all is equal but the relay's signature**, exactly if their
filters and their aggregate signatures are, which are not hashed. -/
theorem attestation_binds_iff (K : Crypto) (a b : AggregatedAttestation)
    (hfree : K.keccak256 a.hashed = K.keccak256 b.hashed → a.hashed = b.hashed)
    (h : a.hash K = b.hash K) :
    { a with relaySignature := [] } = { b with relaySignature := [] } ↔
      a.participantBloom = b.participantBloom ∧ a.aggregateSignature = b.aggregateSignature := by
  obtain ⟨hrelay, htask, hblock, hcount, hresult, hconfidence⟩ :=
    AggregatedAttestation.hashed_inj (hfree h)
  simp [hrelay, htask, hblock, hcount, hresult, hconfidence]

theorem attestation_binds_of_resigned :
    let a := AggregatedAttestation.new 1 2 3
    a.hash plainCrypto = { a with relaySignature := [7] }.hash plainCrypto ∧
      { a with relaySignature := [] } =
        { { a with relaySignature := [7] } with relaySignature := [] } :=
  ⟨rfl, (attestation_binds_iff plainCrypto _ _ (fun _ => rfl) rfl).mpr ⟨rfl, rfl⟩⟩

/-- A relay may replace the filter and the signature of the agents after it has signed. -/
theorem attestation_not_bound :
    let a := AggregatedAttestation.new 1 2 3
    a.hash plainCrypto =
      { a with participantBloom := [1], aggregateSignature := [2] }.hash plainCrypto := rfl

end ProbeChain
