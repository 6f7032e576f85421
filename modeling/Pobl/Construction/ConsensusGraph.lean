/-
This file models the data types of `partialorder/choosednode.go`
and the function that turns an envelope into a graph node.
-/

import Pobl.Library.GoMap
import Pobl.Library.Heap
import Pobl.Construction.Envelope

namespace Pobl.Partialorder

open Library Protos

structure GVReadKV where
  key : Key
  value : Value
  parentTxId : TxId
  deriving DecidableEq, Inhabited

structure GVWriteKV where
  key : Key
  value : Value
  deriving DecidableEq, Inhabited

structure PtxKV where
  kv : GoMap Value
  type : GoMap Int
  deriving Inhabited

/-- The fields of `GVNode` that the consensus graph reads. -/
structure GVNode where
  txResult : Envelope
  txId : TxId
  readSet : GoMap GVReadKV
  writeSet : GoMap GVWriteKV
  pTx : GoMap PtxKV
  unPTx : GoMap PtxKV
  consensusState : Int
  deriving Inhabited

/-- The states of a node carry the numbers 1 to 4 in the source. -/
inductive NodeState where
  | committed
  | ready
  | wait
  | changedState
  deriving DecidableEq, Inhabited

/-- A reference to a `TxConsensusNode`. The nodes are numbered in the order of their creation. -/
abbrev NodeRef := Nat

abbrev ChildRef := Nat

/-- The two child lists of a node or of a wait entry.
The source creates and reassigns both list pointers together, so one reference names both. -/
structure ChildNodes where
  nChildNodes : List NodeRef
  unChildNodes : List NodeRef
  deriving Inhabited

/-- The maps from transaction identifiers to `true` are lists without repetition. -/
structure TxConsensusNode where
  choosedNode : GVNode
  parentNum : Int
  parentTxConsensusNode : List TxId
  unParentTxConsensusNode : List TxId
  childNodes : ChildRef
  waitPTX : List TxId
  state : NodeState
  deriving Inhabited

structure WaitTxConsensusNode where
  childNum : Int
  childNodes : ChildRef
  writeSet : GoMap Value
  diffWaitWKV : Bool
  choosedNode : Option NodeRef
  childWait : GoMap NodeRef
  deriving Inhabited

/-- The graph holds the heaps of its nodes and child lists.
The list `stateLog` records every assignment to the state of a node, in order. -/
structure TxConsensusGraph where
  nodes : Heap TxConsensusNode
  childLists : Heap ChildNodes
  gState : GoMap Value
  txCNs : GoMap NodeRef
  waitUnChoosedTxCNs : GoMap WaitTxConsensusNode
  numGCommittedNode : Int
  numChangedState : Int
  readyBatch : List Envelope
  stateLog : List (NodeRef × NodeState)

def TxConsensusGraph.initial : TxConsensusGraph where
  nodes := Heap.empty
  childLists := Heap.empty
  gState := ∅
  txCNs := ∅
  waitUnChoosedTxCNs := ∅
  numGCommittedNode := 0
  numChangedState := 0
  readyBatch := []
  stateLog := []

/-- One read of the envelope enters the read set and the reads of its parent. -/
def processRead (gnode : GVNode) (rkv : KVRead) : GVNode :=
  if rkv.isRead then
    let ptmap := (gnode.pTx.lookup rkv.txid).getD ⟨∅, ∅⟩
    { gnode with
      readSet := gnode.readSet.insert rkv.key ⟨rkv.key, rkv.value, rkv.txid⟩
      pTx := gnode.pTx.insert rkv.txid
        ⟨ptmap.kv.insert rkv.key rkv.value, ptmap.type.insert rkv.key 1⟩ }
  else gnode

def processWrite (gnode : GVNode) (wkv : KVWrite) : GVNode :=
  { gnode with writeSet := gnode.writeSet.insert wkv.key ⟨wkv.key, wkv.value⟩ }

/-- The namespace of the system chaincode `lscc` is skipped. -/
def processNsRwSet (gnode : GVNode) (rwset : NsRwSet) : GVNode :=
  if rwset.nameSpace = "lscc" then gnode
  else rwset.writes.foldl processWrite (rwset.reads.foldl processRead gnode)

/-- The function `ProcessEnvForBC` dereferences a nil header when the envelope does not decode.
A read/write set that does not decode counts as empty. -/
def processEnvForBC (env : Envelope) : Option GVNode :=
  match getActionAndTxidFromEnvelopeMsg env with
  | .error _ => none
  | .ok (chdr, respPayload) =>
    let gnodeA : GVNode :=
      { txResult := env, txId := chdr.txId, readSet := ∅, writeSet := ∅, pTx := ∅, unPTx := ∅,
        consensusState := 0 }
    some ((respPayload.results.getD []).foldl processNsRwSet gnodeA)

/-- A new node waits and has no parents, and it owns two empty child lists. -/
def TxConsensusGraph.newNode (graph : TxConsensusGraph) (choosed : GVNode) : TxConsensusGraph :=
  { graph with
    childLists := graph.childLists.alloc ⟨[], []⟩
    nodes := graph.nodes.alloc
      { choosedNode := choosed, parentNum := 0, parentTxConsensusNode := [],
        unParentTxConsensusNode := [], childNodes := graph.childLists.size, waitPTX := [],
        state := .wait } }

end Pobl.Partialorder
