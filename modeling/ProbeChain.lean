import ProbeChain.Consensus.Unsigned
import ProbeChain.Pool.Authorised
import ProbeChain.Consensus.Validators
import ProbeChain.Evm.Failure
import ProbeChain.Evm.Static
import ProbeChain.Evm.Selfdestruct
import ProbeChain.Types.Signer
import ProbeChain.Consensus.Total
import ProbeChain.Consensus.Proofs
import ProbeChain.Consensus.AckOrder
import ProbeChain.Miner.Sealing
import ProbeChain.Miner.Voting
import ProbeChain.Pool.Panics
import ProbeChain.Evm.Commit
import ProbeChain.Pool.LossMarks
import ProbeChain.Pool.Closing
import ProbeChain.Evm.Nested
import ProbeChain.Superlight.Limit
import ProbeChain.Consensus.Emission
import ProbeChain.Miner.NodeTypes
import ProbeChain.Consensus.Times
import ProbeChain.Stellar.Frame
import ProbeChain.Consensus.Behavior
import ProbeChain.Pool.Candidates
import ProbeChain.Consensus.Aggregation
import ProbeChain.Consensus.Checkpoint
import ProbeChain.Consensus.BaseFee
import ProbeChain.Miner.Packing
