import Pobl.Proof.Receiver.AbortBlame
import Pobl.Proof.Receiver.AbortIsFinal
import Pobl.Proof.Receiver.BatchSize
import Pobl.Proof.Receiver.CausalClosure
import Pobl.Proof.Receiver.Completeness
import Pobl.Proof.Receiver.EmittedOnce
import Pobl.Proof.Receiver.PlainCutter
import Pobl.Proof.Receiver.Serializability
import Pobl.Proof.Shim.Agreement
import Pobl.Proof.Shim.Failures
import Pobl.Proof.Shim.Observations
import Pobl.Proof.Chain.Deadlock
import Pobl.Proof.Chain.LedgerState
import Pobl.Proof.Chain.Proposals
import Pobl.Proof.Chain.Snapshots
import Pobl.Proof.Chain.Timer
import Pobl.Proof.Ingress.Filtering
import Pobl.Proof.Chaincode.RoundTrip
import Pobl.Proof.Cluster.HeaderChain
import Pobl.Proof.Discovery.Layouts
import Pobl.Proof.Discovery.Merging
import Pobl.Proof.Gossip.Delivery
import Pobl.Proof.Gossip.StateRequest
import Pobl.Proof.Gossip.WakeUp
import Pobl.Proof.Membership.RaftIndex
import Pobl.Proof.Mvcc.ReadSet
import Pobl.Proof.Mvcc.Sequential
import Pobl.Proof.Mvcc.ShimResults
import Pobl.Proof.Mvcc.Snapshot
import Pobl.Proof.Parallel.Termination
import Pobl.Proof.RangeQuery.Unchanged
import Pobl.Proof.Recovery.Exact
import Pobl.Proof.Storage.CrashRecovery
import Pobl.Proof.Storage.HeightOrder
import Pobl.Proof.Validation.SignaturePolicies
import Pobl.Proof.Validation.Upgrades
