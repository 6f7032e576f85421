/-
This file models `receiver.Delete` and `receiver.ProcessTX` of `blockcutter.go`.
The graph is passed explicitly. The result `none` stands for a nil dereference.
-/

import Pobl.Construction.ConsensusGraph

namespace Pobl.Partialorder

open Library Protos

namespace TxConsensusGraph

def node (graph : TxConsensusGraph) (target : NodeRef) : TxConsensusNode := graph.nodes.read target

def txIdOf (graph : TxConsensusGraph) (target : NodeRef) : TxId :=
  (graph.node target).choosedNode.txId

def childrenOf (graph : TxConsensusGraph) (target : NodeRef) : ChildNodes :=
  graph.childLists.read (graph.node target).childNodes

def modifyNode (graph : TxConsensusGraph) (target : NodeRef)
    (change : TxConsensusNode → TxConsensusNode) : TxConsensusGraph :=
  { graph with nodes := graph.nodes.modify target change }

def setState (graph : TxConsensusGraph) (target : NodeRef) (state : NodeState) : TxConsensusGraph :=
  { graph.modifyNode target (fun node => { node with state := state }) with
    stateLog := graph.stateLog ++ [(target, state)] }

def commit (graph : TxConsensusGraph) (target : NodeRef) : TxConsensusGraph :=
  { graph with
    numGCommittedNode := graph.numGCommittedNode + 1
    readyBatch := graph.readyBatch ++ [(graph.node target).choosedNode.txResult]
    }.setState target .committed

def applyWriteSet (gState : GoMap Value) (writeSet : GoMap GVWriteKV) : GoMap Value :=
  writeSet.entries.foldl (fun state entry => state.insert entry.1 entry.2.value) gState

/-- One iteration over a normal child removes the parent and decrements the counter. -/
def dropParent (graph : TxConsensusGraph) (child : NodeRef) (txid : TxId) : TxConsensusGraph :=
  graph.modifyNode child fun node =>
    { node with
      parentTxConsensusNode := node.parentTxConsensusNode.erase txid
      parentNum := node.parentNum - 1 }

def dropUNParent (graph : TxConsensusGraph) (child : NodeRef) (txid : TxId) : TxConsensusGraph :=
  graph.modifyNode child fun node =>
    { node with
      unParentTxConsensusNode := node.unParentTxConsensusNode.erase txid
      parentNum := node.parentNum - 1 }

end TxConsensusGraph

open TxConsensusGraph

/-- The first part of `Delete` writes the state of a committed node. -/
def deleteWrites (graph : TxConsensusGraph) (dtxcn : NodeRef) : TxConsensusGraph :=
  if (graph.node dtxcn).state = .committed then
    { graph with gState := applyWriteSet graph.gState (graph.node dtxcn).choosedNode.writeSet }
  else graph

/-- The function `Delete` calls itself on the children that it commits or aborts.
It reads the state of its node again after the first loop, and it does not read the state of a
child that it commits. The fuel bounds the depth, and `none` means that it ran out. -/
def deleteFuel : Nat → TxConsensusGraph → NodeRef → Option TxConsensusGraph
  | 0, _, _ => none
  | fuel + 1, graph, dtxcn =>
    let txid := graph.txIdOf dtxcn
    let graph := deleteWrites graph dtxcn
    ((graph.childrenOf dtxcn).unChildNodes.foldlM (fun graph unchildtxcn =>
      let graph := graph.dropUNParent unchildtxcn txid
      if (graph.node unchildtxcn).parentNum = 0 then
        deleteFuel fuel (graph.commit unchildtxcn) unchildtxcn
      else some graph) graph).bind fun graph =>
    if (graph.node dtxcn).state = .changedState then
      (graph.childrenOf dtxcn).nChildNodes.foldlM (fun graph nchildtxcn =>
        if (graph.node nchildtxcn).state ≠ .changedState then
          deleteFuel fuel (graph.setState nchildtxcn .changedState) nchildtxcn
        else some graph) graph
    else
      (graph.childrenOf dtxcn).nChildNodes.foldlM (fun graph nchildtxcn =>
        let graph := graph.dropParent nchildtxcn txid
        if (graph.node nchildtxcn).parentNum = 0 then
          deleteFuel fuel (graph.commit nchildtxcn) nchildtxcn
        else some graph) graph

/-- Three levels for each node bound every cascade. -/
def delete (graph : TxConsensusGraph) (dtxcn : NodeRef) : Option TxConsensusGraph :=
  deleteFuel (3 * graph.nodes.size + 1) graph dtxcn

/-- The `range` statements whose order can change the resulting graph. -/
inductive RangeSite where
  | consensusPTx
  | pTx
  | waitKV (ptxid : TxId)
  | unPTx
  deriving DecidableEq

/-- Some entry is missing from the write set or has another value there. -/
def disagrees (writeSet : GoMap GVWriteKV) (kv : GoMap Value) : Bool :=
  kv.entries.any fun entry =>
    match writeSet.lookup entry.1 with
    | none => true
    | some wkv => wkv.value ≠ entry.2

/-- Some read of a type other than 2 differs from the current state. -/
def stale (gState : GoMap Value) (ptx : PtxKV) : Bool :=
  ptx.kv.entries.any fun entry =>
    (ptx.type.lookup entry.1).getD 0 ≠ 2 && (gState.lookup entry.1).getD [] ≠ entry.2

/-- The reads of a child become expectations on the missing parent.
The loop stops at the first conflict. -/
def expectKV : List (GoEntry Value) → WaitTxConsensusNode → WaitTxConsensusNode
  | [], waitTxcn => waitTxcn
  | entry :: rest, waitTxcn =>
    match waitTxcn.writeSet.lookup entry.1 with
    | none => expectKV rest { waitTxcn with writeSet := waitTxcn.writeSet.insert entry.1 entry.2 }
    | some waitValue =>
      if entry.2 ≠ waitValue then { waitTxcn with diffWaitWKV := true }
      else expectKV rest waitTxcn

namespace TxConsensusGraph

def addWait (graph : TxConsensusGraph) (txid : TxId) (diff : Bool) (choosed : Option NodeRef) : TxConsensusGraph :=
  { graph with
    childLists := graph.childLists.alloc ⟨[], []⟩
    waitUnChoosedTxCNs := graph.waitUnChoosedTxCNs.insert txid
      { childNum := 0, childNodes := graph.childLists.size, writeSet := ∅, diffWaitWKV := diff,
        choosedNode := choosed, childWait := ∅ } }

/-- An aborted transaction leaves a wait entry that rejects its later children. -/
def addTombstone (graph : TxConsensusGraph) (txid : TxId) (txCN : NodeRef) : TxConsensusGraph :=
  match graph.waitUnChoosedTxCNs.lookup txid with
  | none => graph.addWait txid true (some txCN)
  | some _ => graph

def setWait (graph : TxConsensusGraph) (txid : TxId) (waitTxcn : WaitTxConsensusNode) : TxConsensusGraph :=
  { graph with waitUnChoosedTxCNs := graph.waitUnChoosedTxCNs.insert txid waitTxcn }

def countChangedState (graph : TxConsensusGraph) (amount : Int) : TxConsensusGraph :=
  { graph with numChangedState := graph.numChangedState + amount }

def register (graph : TxConsensusGraph) (list : ChildRef) (txCN : NodeRef) (ptxid : TxId) : TxConsensusGraph :=
  { graph with
    childLists := graph.childLists.modify list fun children =>
      { children with nChildNodes := children.nChildNodes ++ [txCN] }
    nodes := graph.nodes.modify txCN fun node =>
      { node with
        parentTxConsensusNode := node.parentTxConsensusNode.insert ptxid
        parentNum := node.parentNum + 1 } }

def registerUN (graph : TxConsensusGraph) (list : ChildRef) (txCN : NodeRef) (ptxid : TxId) : TxConsensusGraph :=
  { graph with
    childLists := graph.childLists.modify list fun children =>
      { children with unChildNodes := children.unChildNodes ++ [txCN] }
    nodes := graph.nodes.modify txCN fun node =>
      { node with
        unParentTxConsensusNode := node.unParentTxConsensusNode.insert ptxid
        parentNum := node.parentNum + 1 } }

end TxConsensusGraph

open TxConsensusGraph

/-- The entry for a missing parent is created on first use. -/
def ensureWait (graph : TxConsensusGraph) (ptxid : TxId) : TxConsensusGraph :=
  match graph.waitUnChoosedTxCNs.lookup ptxid with
  | none => graph.addWait ptxid false none
  | some _ => graph

/-- The node inherits the missing ancestors of its parent.
The source dereferences the wait entry of each of them. -/
def inheritWaitPTX (txid : TxId) (txCN : NodeRef) :
    List TxId → TxConsensusGraph → Option TxConsensusGraph
  | [], graph => some graph
  | waitptx :: rest, graph =>
    let graph := graph.modifyNode txCN fun node =>
      { node with waitPTX := node.waitPTX.insert waitptx }
    match graph.waitUnChoosedTxCNs.lookup waitptx with
    | none => none
    | some waitTxcn =>
      inheritWaitPTX txid txCN rest (graph.setWait waitptx
        { waitTxcn with childWait := waitTxcn.childWait.insert txid txCN })

/-- The parent has not arrived, or it was aborted and removed.
The flag says that the loop over the parents stops here. -/
def visitMissingParent (order : RangeOrder RangeSite) (txCN : NodeRef) (ptxid : TxId) (ptx : PtxKV)
    (graph : TxConsensusGraph) : TxConsensusGraph × Bool :=
  let txid := graph.txIdOf txCN
  let graph := ensureWait graph ptxid
  let waitTxcn := (graph.waitUnChoosedTxCNs.lookup ptxid).getD default
  let waitTxcn := { waitTxcn with
    childNum := waitTxcn.childNum + 1
    childWait := waitTxcn.childWait.insert txid txCN }
  let graph := graph.modifyNode txCN fun node =>
    { node with waitPTX := node.waitPTX.insert ptxid }
  match waitTxcn.choosedNode with
  | none =>
    ((graph.setWait ptxid (expectKV (order.visit (.waitKV ptxid) ptx.kv.entries) waitTxcn)).register
      waitTxcn.childNodes txCN ptxid, false)
  | some _ =>
    (((graph.setWait ptxid waitTxcn).countChangedState 1).setState txCN .changedState, true)

/-- A mismatch with the parent's writes aborts the node and removes it from the graph. -/
def rejectWrites (txCN : NodeRef) (graph : TxConsensusGraph) : TxConsensusGraph :=
  let txid := graph.txIdOf txCN
  let graph := ((graph.countChangedState 1).setState txCN .changedState).addTombstone txid txCN
  { graph with txCNs := graph.txCNs.erase txid }

/-- The state of the parent decides what happens to the node.
A waiting parent registers the node even when its writes have just rejected it. -/
def followParent (txCN : NodeRef) (ptxcn : NodeRef) (ptxid : TxId) (ptx : PtxKV)
    (graph : TxConsensusGraph) : Option (TxConsensusGraph × Bool) :=
  let txid := graph.txIdOf txCN
  match (graph.node ptxcn).state with
  | .committed =>
    let graph :=
      if stale graph.gState ptx then
        (graph.countChangedState 1).setState txCN .changedState
      else graph
    if (graph.node txCN).state = .changedState then
      let graph := graph.addTombstone txid txCN
      some ({ graph with txCNs := graph.txCNs.erase txid }, true)
    else some (graph, false)
  | .ready => some (graph, false)
  | .wait =>
    (inheritWaitPTX txid txCN (graph.node ptxcn).waitPTX
      (graph.register (graph.node ptxcn).childNodes txCN ptxid)).map fun graph => (graph, false)
  | .changedState =>
    (inheritWaitPTX txid txCN (graph.node ptxcn).waitPTX
      ((graph.countChangedState 1).setState txCN .changedState)).map fun graph => (graph, true)

/-- The parent is a node of the graph. Its writes are compared before its state is read. -/
def visitPresentParent (txCN : NodeRef) (ptxcn : NodeRef) (ptxid : TxId) (ptx : PtxKV)
    (graph : TxConsensusGraph) : Option (TxConsensusGraph × Bool) :=
  followParent txCN ptxcn ptxid ptx
    (if disagrees (graph.node ptxcn).choosedNode.writeSet ptx.kv then rejectWrites txCN graph
    else graph)

def visitParent (order : RangeOrder RangeSite) (txCN : NodeRef) (ptxid : TxId) (ptx : PtxKV)
    (graph : TxConsensusGraph) : Option (TxConsensusGraph × Bool) :=
  match graph.txCNs.lookup ptxid with
  | none => some (visitMissingParent order txCN ptxid ptx graph)
  | some ptxcn => visitPresentParent txCN ptxcn ptxid ptx graph

def visitParents (order : RangeOrder RangeSite) (txCN : NodeRef) :
    List (GoEntry PtxKV) → TxConsensusGraph → Option TxConsensusGraph
  | [], graph => some graph
  | entry :: rest, graph =>
    match visitParent order txCN entry.1 entry.2 graph with
    | none => none
    | some (graph, true) => some graph
    | some (graph, false) => visitParents order txCN rest graph

/-- One parent that the transaction did not read from is waited for without any check. -/
def visitUNParent (txCN : NodeRef) (graph : TxConsensusGraph) (ptxid : TxId) : TxConsensusGraph :=
  match graph.txCNs.lookup ptxid with
  | none =>
    let graph := ensureWait graph ptxid
    let waitTxcn := (graph.waitUnChoosedTxCNs.lookup ptxid).getD default
    match waitTxcn.choosedNode with
    | none => graph.registerUN waitTxcn.childNodes txCN ptxid
    | some _ => graph
  | some ptxcn =>
    match (graph.node ptxcn).state with
    | .wait => graph.registerUN (graph.node ptxcn).childNodes txCN ptxid
    | _ => graph

/-- The parents that confirm a read, the confirmed keys, and whether a nil pointer was dereferenced. -/
structure Confirmed where
  tempptx : GoMap PtxKV
  intemp : List Key
  panicked : Bool

/-- With consensus state 2 a parent keeps only the reads that its writes confirm.
Each key is taken from the first parent that confirms it. The log line for a key that the parent does not write
reads the value of a nil pointer. -/
def consensusReads (writeSet : GoMap GVWriteKV) (ptxid : TxId) (ptx : PtxKV) (temp : Confirmed) : Confirmed :=
  ptx.kv.entries.foldl (fun temp entry =>
    if entry.1 ∈ temp.intemp then temp
    else
      match writeSet.lookup entry.1 with
      | none => { temp with panicked := true }
      | some wkv =>
        if wkv.value = entry.2 then
          let tptx := (temp.tempptx.lookup ptxid).getD ⟨∅, ∅⟩
          { temp with
            tempptx := temp.tempptx.insert ptxid ⟨tptx.kv.insert entry.1 entry.2,
              tptx.type.insert entry.1 ((ptx.type.lookup entry.1).getD 0)⟩
            intemp := entry.1 :: temp.intemp }
        else temp) temp

def consensusPTx (order : RangeOrder RangeSite) (graph : TxConsensusGraph) (choosed : GVNode) : Confirmed :=
  (order.visit .consensusPTx choosed.pTx.entries).foldl (fun temp entry =>
    match graph.txCNs.lookup entry.1 with
    | none => temp
    | some ptxcn =>
      consensusReads (graph.node ptxcn).choosedNode.writeSet entry.1 entry.2 temp) ⟨∅, [], false⟩

/-- The loop of consensus state 2 panics. -/
def consensusPanics (order : RangeOrder RangeSite) (graph : TxConsensusGraph) (choosed : GVNode) : Prop :=
  choosed.consensusState = 2 ∧ (consensusPTx order graph choosed).panicked = true

instance (order : RangeOrder RangeSite) (graph : TxConsensusGraph) (choosed : GVNode) :
    Decidable (consensusPanics order graph choosed) := inferInstanceAs (Decidable (_ ∧ _))

/-- Consensus state 2 replaces the parents, or aborts the node when a read stays unconfirmed. -/
def resolveConsensus (order : RangeOrder RangeSite) (txCN : NodeRef) (graph : TxConsensusGraph) : TxConsensusGraph :=
  let choosed := (graph.node txCN).choosedNode
  if choosed.consensusState = 2 then
    let temp := consensusPTx order graph choosed
    if temp.intemp.length < choosed.readSet.entries.length then
      ((graph.countChangedState 1).setState txCN .changedState).addTombstone choosed.txId txCN
    else
      graph.modifyNode txCN fun node =>
        { node with choosedNode := { node.choosedNode with pTx := temp.tempptx } }
  else graph

/-- The checks before the parents: the consensus state, and the expectations of the children
that arrived first. -/
def checkWait (txCN : NodeRef) (graph : TxConsensusGraph) : TxConsensusGraph :=
  let choosed := (graph.node txCN).choosedNode
  let waittxcn := graph.waitUnChoosedTxCNs.lookup choosed.txId
  let graph :=
    if choosed.consensusState = 3 then graph.setState txCN .changedState else graph
  match waittxcn with
  | none =>
    if choosed.consensusState = 3 then graph.addWait choosed.txId true (some txCN) else graph
  | some waittxcn =>
    let graph :=
      if waittxcn.diffWaitWKV then graph.setState txCN .changedState else graph
    if (graph.node txCN).state ≠ .changedState && disagrees choosed.writeSet waittxcn.writeSet then
      (graph.setState txCN .changedState).setWait choosed.txId
        { waittxcn with diffWaitWKV := true }
    else graph

def enterGraph (order : RangeOrder RangeSite) (txCN : NodeRef) (graph : TxConsensusGraph) : Option TxConsensusGraph :=
  let choosed := (graph.node txCN).choosedNode
  let graph := { graph with txCNs := graph.txCNs.insert choosed.txId txCN }
  (visitParents order txCN (order.visit .pTx choosed.pTx.entries) graph).map fun graph =>
    if (graph.node txCN).state ≠ .changedState then
      ((order.visit .unPTx choosed.unPTx.entries).map (·.1)).foldl (visitUNParent txCN) graph
    else graph

/-- The node takes over the child lists of its wait entry.
A node that is not aborted removes the entry and tells the children that waited for it. -/
def takeWait (txCN : NodeRef) (graph : TxConsensusGraph) : TxConsensusGraph :=
  let txid := graph.txIdOf txCN
  match graph.waitUnChoosedTxCNs.lookup txid with
  | none => graph
  | some waittxcn =>
    let graph := graph.modifyNode txCN fun node => { node with childNodes := waittxcn.childNodes }
    if (graph.node txCN).state ≠ .changedState then
      let graph := waittxcn.childWait.entries.foldl (fun graph entry =>
        graph.modifyNode entry.2 fun node => { node with waitPTX := node.waitPTX.erase txid }) graph
      { graph with waitUnChoosedTxCNs := graph.waitUnChoosedTxCNs.erase txid }
    else
      (graph.setWait txid { waittxcn with choosedNode := some txCN }).countChangedState
        waittxcn.childNum

/-- A node without open parents commits, and an aborted node aborts its children. -/
def finish (txCN : NodeRef) (graph : TxConsensusGraph) : Option TxConsensusGraph :=
  if (graph.node txCN).state ≠ .changedState ∧ (graph.node txCN).parentNum = 0 then
    delete (graph.commit txCN) txCN
  else if (graph.node txCN).state = .changedState then delete graph txCN
  else some graph

/-- The part of `ProcessTX` that judges the node and registers it with its parents. -/
def prepareTX (order : RangeOrder RangeSite) (txCN : NodeRef) (graph : TxConsensusGraph) : Option TxConsensusGraph :=
  let checked := checkWait txCN graph
  if (checked.node txCN).state ≠ .changedState ∧
      (checked.node txCN).choosedNode.consensusState ≠ 3 then
    let resolved := resolveConsensus order txCN checked
    if consensusPanics order checked (checked.node txCN).choosedNode then none
    else if (resolved.node txCN).state ≠ .changedState then enterGraph order txCN resolved
    else some resolved
  else some checked

def processTX (order : RangeOrder RangeSite) (txCN : NodeRef) (graph : TxConsensusGraph) : Option TxConsensusGraph :=
  let isExistwaittxcn := (graph.waitUnChoosedTxCNs.lookup (graph.txIdOf txCN)).isSome
  (prepareTX order txCN graph).bind fun graph =>
    finish txCN (if isExistwaittxcn then takeWait txCN graph else graph)

end Pobl.Partialorder
