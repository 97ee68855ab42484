import ZkSymbiotic.HashChain
import ZkSymbiotic.Api.Freshness
import ZkSymbiotic.Api.Stale
import ZkSymbiotic.Api.Threshold
import ZkSymbiotic.Api.Ahead
import ZkSymbiotic.Api.EventLoop
import ZkSymbiotic.Contracts.Binding
import ZkSymbiotic.Contracts.Supply
import ZkSymbiotic.Deposits
import ZkSymbiotic.Contracts.Guarantee
import ZkSymbiotic.Packing
import ZkSymbiotic.Storage
import ZkSymbiotic.Provenance
import ZkSymbiotic.Rpcs.Blocks
import ZkSymbiotic.Contracts.Reentrancy
import ZkSymbiotic.Api.Jobs
import ZkSymbiotic.Api.Progress
import ZkSymbiotic.Api.Targets
import ZkSymbiotic.Node.Tasks
import ZkSymbiotic.Codec
import ZkSymbiotic.Lib.Streak
import ZkSymbiotic.Rpcs.Calls
import ZkSymbiotic.Lib.Reorder
import ZkSymbiotic.Rpcs.Order
import ZkSymbiotic.Rpcs.Contract
import ZkSymbiotic.Rpcs.Panics
import ZkSymbiotic.Contracts.Expiry
import ZkSymbiotic.Lib.Hex
import ZkSymbiotic.Worker.Hash
import ZkSymbiotic.Api.Prover
import ZkSymbiotic.Lib.Tiling
import ZkSymbiotic.Node.Queries
import ZkSymbiotic.Node.Settled
import ZkSymbiotic.Lib.Json
import ZkSymbiotic.Golem.ProofBundle
import ZkSymbiotic.Script.Twist
import ZkSymbiotic.Worker.Once
import ZkSymbiotic.Api.Chained
import ZkSymbiotic.DepositRoot
import ZkSymbiotic.Api.Settles
import ZkSymbiotic.Node.Responses
import ZkSymbiotic.Contracts.Accounts
import ZkSymbiotic.Api.Available
import ZkSymbiotic.Api.Process
import ZkSymbiotic.Api.Drains
