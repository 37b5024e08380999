import Jmdn.Crdt.Objects
import Jmdn.DBOPs.Instants
import Jmdn.DBOPs.Leases
import Jmdn.DBOPs.ReconRetry
import Jmdn.DBOPs.VerifiedWrite
import Jmdn.DBOPs.EnrichOrder
import Jmdn.DBOPs.MarkerKeys
import Jmdn.BlockProcessing.Completion
import Jmdn.BlockProcessing.Conservation
import Jmdn.BlockProcessing.Locks
import Jmdn.BlockProcessing.Reconciliation
import Jmdn.BlockProcessing.TotalBalance
import Jmdn.Security.SignedFees
import Jmdn.Messaging.Approval
import Jmdn.Messaging.Binding
import Jmdn.Messaging.Simulation
import Jmdn.Messaging.StateRoots
import Jmdn.Messaging.VoteOrder
import Jmdn.Messaging.VoteMessage
import Jmdn.BFT.Certificate
import Jmdn.BFT.Conflicts
import Jmdn.Seednode.Ambiguity
import Jmdn.Seednode.Freshness
import Jmdn.FastsyncV2.MissingTags
import Jmdn.FastsyncV2.Safety
import Jmdn.FastsyncV2.SessionEnd
import Jmdn.Nodeinfo.Batching
import Jmdn.Nodeinfo.CarriedFees
import Jmdn.Nodeinfo.Drain
import Jmdn.Nodeinfo.OrdinalReuse
import Jmdn.Nodeinfo.Overwrites
import Jmdn.L1finality.Range
import Jmdn.L1finality.Latest
import Jmdn.Vote.TallyInput
import Jmdn.Vote.Trigger
import Jmdn.Block.Ingest
import Jmdn.Txindex.Completeness
import Jmdn.Facade.Blocks
import Jmdn.Facade.FeeHistory
import Jmdn.Facade.Heads
import Jmdn.Facade.Rebuild
import Jmdn.Gatekeeper.Spoofing
import Jmdn.Merkle.Effects
import Jmdn.Merkle.Incremental
import Jmdn.Syncmonitor.Threshold
import Jmdn.Thebesyncserve.GetBlocks
