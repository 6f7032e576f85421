/-
This file lists the updates that `ProcessTX` makes before it hands over the child lists.
An invariant of the graph is checked once for each of these moves.
-/

import Mathlib.Logic.Relation
import Pobl.Proof.Graph.Operations

namespace Pobl.Partialorder

open Library Protos TxConsensusGraph WaitTxConsensusNode Relation

variable {first second third final : TxConsensusGraph} {txid : TxId} {waitTxcn' waitTxcn : WaitTxConsensusNode}

/-- The part of a wait entry that decides on transactions. -/
def WaitTxConsensusNode.core (waitTxcn : WaitTxConsensusNode) : ChildRef × GoMap Value × Bool × Option NodeRef :=
  (waitTxcn.childNodes, waitTxcn.writeSet, waitTxcn.diffWaitWKV, waitTxcn.choosedNode)

theorem WaitTxConsensusNode.core_fields {first second : WaitTxConsensusNode} (same : first.core = second.core) :
    first.childNodes = second.childNodes ∧ first.writeSet = second.writeSet ∧
      first.diffWaitWKV = second.diffWaitWKV ∧ first.choosedNode = second.choosedNode := by
  simpa [core] using same

/-- The two graphs differ only in the bookkeeping of missing ancestors. -/
structure Noted (graph graph' : TxConsensusGraph) : Prop where
  size : graph'.nodes.size = graph.nodes.size
  lists : graph'.childLists = graph.childLists
  gState : graph'.gState = graph.gState
  present : graph'.txCNs = graph.txCNs
  numGCommittedNode : graph'.numGCommittedNode = graph.numGCommittedNode
  readyBatch : graph'.readyBatch = graph.readyBatch
  log : graph'.stateLog = graph.stateLog
  nodes : ∀ target, graph'.node target = { graph.node target with waitPTX := (graph'.node target).waitPTX }
  waits : ∀ txid, (graph'.waitUnChoosedTxCNs.lookup txid).map core =
    (graph.waitUnChoosedTxCNs.lookup txid).map core

/-- A child list is open while its wait entry or its owner is undecided. -/
def TxConsensusGraph.Open (graph : TxConsensusGraph) (list : ChildRef) : Prop :=
  (∃ txid waitTxcn, graph.waitUnChoosedTxCNs.lookup txid = some waitTxcn ∧
    waitTxcn.choosedNode = none ∧ waitTxcn.childNodes = list) ∨
  ∃ owner < graph.nodes.size, (graph.node owner).state = .wait ∧ (graph.node owner).childNodes = list

/-- The reasons for which `ProcessTX` rejects the node that enters. -/
inductive Reason (txCN : NodeRef) (graph : TxConsensusGraph) : Prop where
  | again (dead : (graph.node txCN).state = .changedState)
  | consensus (different : (graph.node txCN).choosedNode.consensusState ≠ 0)
  | expected (waitTxcn : WaitTxConsensusNode)
      (found : graph.waitUnChoosedTxCNs.lookup (graph.txIdOf txCN) = some waitTxcn)
      (conflict : waitTxcn.diffWaitWKV = true ∨
        disagrees (graph.node txCN).choosedNode.writeSet waitTxcn.writeSet = true)
  | removed (ptxid : TxId) (ptx : PtxKV) (waitTxcn : WaitTxConsensusNode)
      (named : (graph.node txCN).choosedNode.pTx.lookup ptxid = some ptx)
      (absent : graph.txCNs.lookup ptxid = none)
      (found : graph.waitUnChoosedTxCNs.lookup ptxid = some waitTxcn)
      (dead : waitTxcn.choosedNode ≠ none)
  | writes (ptxid : TxId) (ptx : PtxKV) (ptxcn : NodeRef)
      (named : (graph.node txCN).choosedNode.pTx.lookup ptxid = some ptx)
      (found : graph.txCNs.lookup ptxid = some ptxcn)
      (mismatch : disagrees (graph.node ptxcn).choosedNode.writeSet ptx.kv = true)
  | stale (ptxid : TxId) (ptx : PtxKV) (ptxcn : NodeRef)
      (named : (graph.node txCN).choosedNode.pTx.lookup ptxid = some ptx)
      (found : graph.txCNs.lookup ptxid = some ptxcn)
      (committed : (graph.node ptxcn).state = .committed)
      (mismatch : Partialorder.stale graph.gState ptx = true)
  | parent (ptxid : TxId) (ptx : PtxKV) (ptxcn : NodeRef)
      (named : (graph.node txCN).choosedNode.pTx.lookup ptxid = some ptx)
      (found : graph.txCNs.lookup ptxid = some ptxcn)
      (dead : (graph.node ptxcn).state = .changedState)

/-- The moves of the node that enters, with the conditions under which the source makes them. -/
inductive Move (txCN : NodeRef) : TxConsensusGraph → TxConsensusGraph → Prop where
  | note {graph graph' : TxConsensusGraph} (noted : Noted graph graph') : Move txCN graph graph'
  | enter {graph : TxConsensusGraph} (alive : (graph.node txCN).state ≠ .changedState) :
      Move txCN graph { graph with txCNs := graph.txCNs.insert (graph.txIdOf txCN) txCN }
  | remove {graph : TxConsensusGraph} (dead : (graph.node txCN).state = .changedState) :
      Move txCN graph { graph with txCNs := graph.txCNs.erase (graph.txIdOf txCN) }
  | reject {graph : TxConsensusGraph} (reason : Reason txCN graph) :
      Move txCN graph (graph.setState txCN .changedState)
  | tombstone {graph : TxConsensusGraph} (dead : (graph.node txCN).state = .changedState)
      (absent : graph.waitUnChoosedTxCNs.lookup (graph.txIdOf txCN) = none) :
      Move txCN graph (graph.addWait (graph.txIdOf txCN) true (some txCN))
  | flag {graph : TxConsensusGraph} (dead : (graph.node txCN).state = .changedState) (waitTxcn : WaitTxConsensusNode)
      (found : graph.waitUnChoosedTxCNs.lookup (graph.txIdOf txCN) = some waitTxcn) :
      Move txCN graph (graph.setWait (graph.txIdOf txCN) { waitTxcn with diffWaitWKV := true })
  | await {graph : TxConsensusGraph} (ptxid : TxId)
      (other : (graph.node txCN).state ≠ .changedState → ptxid ≠ graph.txIdOf txCN)
      (absent : graph.waitUnChoosedTxCNs.lookup ptxid = none)
      (named : ∃ ptx, (graph.node txCN).choosedNode.pTx.lookup ptxid = some ptx)
      (missing : graph.txCNs.lookup ptxid = none) :
      Move txCN graph (graph.addWait ptxid false none)
  | expect {graph : TxConsensusGraph} (ptxid : TxId) (ptx : PtxKV) (entries : List (GoEntry Value))
      (waitTxcn waitTxcn' : WaitTxConsensusNode)
      (named : (graph.node txCN).choosedNode.pTx.lookup ptxid = some ptx)
      (reads : entries.Perm ptx.kv.entries)
      (other : (graph.node txCN).state ≠ .changedState → ptxid ≠ graph.txIdOf txCN)
      (found : graph.waitUnChoosedTxCNs.lookup ptxid = some waitTxcn)
      (undecided : waitTxcn.choosedNode = none)
      (same : waitTxcn'.core = (expectKV entries waitTxcn).core) :
      Move txCN graph (graph.setWait ptxid waitTxcn')
  | registerWait {graph : TxConsensusGraph} (ptxid : TxId) (ptx : PtxKV) (waitTxcn : WaitTxConsensusNode)
      (named : (graph.node txCN).choosedNode.pTx.lookup ptxid = some ptx)
      (found : graph.waitUnChoosedTxCNs.lookup ptxid = some waitTxcn)
      (undecided : waitTxcn.choosedNode = none) :
      Move txCN graph (graph.register waitTxcn.childNodes txCN ptxid)
  | registerNode {graph : TxConsensusGraph} (ptxid : TxId) (ptx : PtxKV) (ptxcn : NodeRef)
      (named : (graph.node txCN).choosedNode.pTx.lookup ptxid = some ptx)
      (inside : ptxcn < graph.nodes.size) (name : graph.txIdOf ptxcn = ptxid)
      (undecided : (graph.node ptxcn).state = .wait) :
      Move txCN graph (graph.register (graph.node ptxcn).childNodes txCN ptxid)

/-- A sequence of moves of one node. -/
def Moves (txCN : NodeRef) : TxConsensusGraph → TxConsensusGraph → Prop :=
  ReflTransGen (Move txCN)

theorem Noted.refl (graph : TxConsensusGraph) : Noted graph graph :=
  ⟨rfl, rfl, rfl, rfl, rfl, rfl, rfl, fun _ => rfl, fun _ => rfl⟩

theorem Noted.trans (earlier : Noted first second) (later : Noted second third) : Noted first third where
  size := later.size.trans earlier.size
  lists := later.lists.trans earlier.lists
  gState := later.gState.trans earlier.gState
  present := later.present.trans earlier.present
  numGCommittedNode := later.numGCommittedNode.trans earlier.numGCommittedNode
  readyBatch := later.readyBatch.trans earlier.readyBatch
  log := later.log.trans earlier.log
  nodes target := by
    rw [later.nodes target, earlier.nodes target]
  waits txid := (later.waits txid).trans (earlier.waits txid)

/-- A wait entry after the bookkeeping decides as it did before. -/
theorem Noted.waits_old {graph graph' : TxConsensusGraph} (noted : Noted graph graph')
    (found : graph'.waitUnChoosedTxCNs.lookup txid = some waitTxcn') :
    ∃ waitTxcn, graph.waitUnChoosedTxCNs.lookup txid = some waitTxcn ∧ waitTxcn.core = waitTxcn'.core := by
  have same := noted.waits txid
  rw [found, Option.map_some] at same
  exact Option.map_eq_some_iff.mp same.symm

theorem noted_modifyNode (graph : TxConsensusGraph) (target : NodeRef) (change : TxConsensusNode → TxConsensusNode)
    (kept : ∀ node, change node = { node with waitPTX := (change node).waitPTX }) :
    Noted graph (graph.modifyNode target change) := by
  refine ⟨rfl, rfl, rfl, rfl, rfl, rfl, rfl, ?_, fun _ => rfl⟩
  intro other
  rw [node_modifyNode]
  split
  next same =>
    rw [same]
    exact kept _
  · rfl

theorem noted_setWait {graph : TxConsensusGraph} (waitTxcn' : WaitTxConsensusNode)
    (found : graph.waitUnChoosedTxCNs.lookup txid = some waitTxcn)
    (same : waitTxcn'.core = waitTxcn.core) : Noted graph (graph.setWait txid waitTxcn') := by
  refine ⟨rfl, rfl, rfl, rfl, rfl, rfl, rfl, fun _ => rfl, ?_⟩
  intro name
  rw [waits_setWait]
  split
  next self => rw [self, found, Option.map_some, Option.map_some, same]
  · rfl

theorem noted_countChangedState (graph : TxConsensusGraph) (amount : Int) :
    Noted graph (graph.countChangedState amount) :=
  ⟨rfl, rfl, rfl, rfl, rfl, rfl, rfl, fun _ => rfl, fun _ => rfl⟩

/-- The inheritance of missing ancestors is bookkeeping. -/
theorem inheritWaitPTX_noted {txCN : NodeRef} {ancestors : List TxId} {graph : TxConsensusGraph}
    (done : inheritWaitPTX txid txCN ancestors graph = some final) : Noted graph final := by
  induction ancestors generalizing graph with
  | nil =>
    cases done
    exact .refl _
  | cons waitptx rest ih =>
    unfold inheritWaitPTX at done
    dsimp only at done
    split at done
    · cases done
    next waitTxcn found =>
      have first := noted_modifyNode graph txCN
        (fun node => { node with waitPTX := node.waitPTX.insert waitptx }) (fun _ => rfl)
      have second := noted_setWait { waitTxcn with childWait := waitTxcn.childWait.insert txid txCN } found rfl
      exact (first.trans second).trans (ih done)

/-- The expectations depend only on the deciding part of a wait entry. -/
theorem expectKV_core (entries : List (GoEntry Value)) {first second : WaitTxConsensusNode}
    (same : first.core = second.core) : (expectKV entries first).core = (expectKV entries second).core := by
  induction entries generalizing first second with
  | nil => exact same
  | cons entry rest ih =>
    obtain ⟨lists, writes, diff, choosed⟩ := core_fields same
    unfold expectKV
    rw [writes]
    split
    · apply ih
      simp [core, lists, diff, choosed]
    · split
      · simp [core, lists, choosed]
      · exact ih same

theorem expectKV_childNodes (entries : List (GoEntry Value)) (waitTxcn : WaitTxConsensusNode) :
    (expectKV entries waitTxcn).childNodes = waitTxcn.childNodes ∧
      (expectKV entries waitTxcn).choosedNode = waitTxcn.choosedNode := by
  induction entries generalizing waitTxcn with
  | nil => exact ⟨rfl, rfl⟩
  | cons entry rest ih =>
    unfold expectKV
    split
    · exact ih _
    · split
      · exact ⟨rfl, rfl⟩
      · exact ih _

/-- The node that enters is registered under its identifier while it is not rejected. -/
structure Ready (txCN : NodeRef) (graph : TxConsensusGraph) : Prop where
  inside : txCN < graph.nodes.size
  present : ∀ txid target, graph.txCNs.lookup txid = some target →
    target < graph.nodes.size ∧ graph.txIdOf target = txid
  here : (graph.node txCN).state ≠ .changedState → graph.txCNs.lookup (graph.txIdOf txCN) = some txCN

theorem Moves.single {txCN : NodeRef} {graph graph' : TxConsensusGraph}
    (move : Move txCN graph graph') : Moves txCN graph graph' := ReflTransGen.single move

theorem Moves.tail {txCN : NodeRef} (moves : Moves txCN first second)
    (move : Move txCN second third) : Moves txCN first third :=
  ReflTransGen.tail moves move

theorem Moves.trans {txCN : NodeRef} (earlier : Moves txCN first second)
    (later : Moves txCN second third) : Moves txCN first third :=
  ReflTransGen.trans earlier later

variable {order : RangeOrder RangeSite} {txCN ptxcn : NodeRef} {ptxid : TxId} {ptx : PtxKV}
  {graph graph' : TxConsensusGraph} {stop : Bool}

theorem ensureWait_moves (other : (graph.node txCN).state ≠ .changedState → ptxid ≠ graph.txIdOf txCN)
    (named : ∃ ptx, (graph.node txCN).choosedNode.pTx.lookup ptxid = some ptx)
    (missing : graph.txCNs.lookup ptxid = none) : Moves txCN graph (ensureWait graph ptxid) := by
  unfold ensureWait
  split
  next absent => exact .single (.await ptxid other absent named missing)
  · exact .refl

theorem ensureWait_lookup (graph : TxConsensusGraph) (ptxid : TxId) :
    ∃ waitTxcn, (ensureWait graph ptxid).waitUnChoosedTxCNs.lookup ptxid = some waitTxcn := by
  unfold ensureWait
  split
  · rw [waits_addWait, if_pos rfl]
    exact ⟨_, rfl⟩
  next waitTxcn found => exact ⟨waitTxcn, found⟩

theorem ensureWait_nodes (graph : TxConsensusGraph) (ptxid : TxId) :
    (ensureWait graph ptxid).nodes = graph.nodes ∧ (ensureWait graph ptxid).txCNs = graph.txCNs := by
  unfold ensureWait
  split <;> exact ⟨rfl, rfl⟩

/-- The registration in a wait entry records the expectations first. -/
theorem registerWait_moves {entries : List (GoEntry Value)} (reads : entries.Perm ptx.kv.entries)
    (named : (graph.node txCN).choosedNode.pTx.lookup ptxid = some ptx)
    (other : (graph.node txCN).state ≠ .changedState → ptxid ≠ graph.txIdOf txCN)
    (found : graph.waitUnChoosedTxCNs.lookup ptxid = some waitTxcn) (undecided : waitTxcn.choosedNode = none)
    (same : waitTxcn'.core = waitTxcn.core) :
    Moves txCN graph
      ((graph.setWait ptxid (expectKV entries waitTxcn')).register waitTxcn'.childNodes txCN ptxid) := by
  have expected : Move txCN graph (graph.setWait ptxid (expectKV entries waitTxcn')) :=
    .expect ptxid ptx entries waitTxcn _ named reads other found undecided (expectKV_core entries same)
  obtain ⟨lists, choosed⟩ := expectKV_childNodes entries waitTxcn'
  have registered : Move txCN (graph.setWait ptxid (expectKV entries waitTxcn'))
      ((graph.setWait ptxid (expectKV entries waitTxcn')).register
        (expectKV entries waitTxcn').childNodes txCN ptxid) := by
    refine Move.registerWait ptxid ptx (expectKV entries waitTxcn') ?_ ?_ ?_
    · exact named
    · rw [waits_setWait, if_pos rfl]
    · have sameChoosed : waitTxcn'.choosedNode = waitTxcn.choosedNode := congrArg (·.2.2.2) same
      rw [choosed, sameChoosed]
      exact undecided
  rw [lists] at registered
  exact (Moves.single expected).tail registered

/-- A parent that was removed rejects the node. -/
theorem rejectRemoved_moves (named : (graph.node txCN).choosedNode.pTx.lookup ptxid = some ptx)
    (absent : graph.txCNs.lookup ptxid = none) (found : graph.waitUnChoosedTxCNs.lookup ptxid = some waitTxcn)
    (dead : waitTxcn.choosedNode ≠ none) (same : waitTxcn'.core = waitTxcn.core) :
    Moves txCN graph (((graph.setWait ptxid waitTxcn').countChangedState 1).setState txCN .changedState) := by
  have noted := (noted_setWait waitTxcn' found same).trans (noted_countChangedState _ 1)
  have sameChoosed : waitTxcn'.choosedNode = waitTxcn.choosedNode := congrArg (·.2.2.2) same
  refine (Moves.single (.note noted)).tail (.reject (.removed ptxid ptx waitTxcn' named absent ?_ ?_))
  · unfold setWait countChangedState
    rw [AList.lookup_insert]
  · rw [sameChoosed]
    exact dead

theorem visitMissingParent_moves (ready : Ready txCN graph)
    (named : (graph.node txCN).choosedNode.pTx.lookup ptxid = some ptx) (absent : graph.txCNs.lookup ptxid = none) :
    Moves txCN graph (visitMissingParent order txCN ptxid ptx graph).1 := by
  have other : (graph.node txCN).state ≠ .changedState → ptxid ≠ graph.txIdOf txCN := by
    intro alive same
    have here := ready.here alive
    rw [← same, absent] at here
    cases here
  have ensured := ensureWait_moves other ⟨ptx, named⟩ absent
  obtain ⟨sameNodes, sameTxCNs⟩ := ensureWait_nodes graph ptxid
  obtain ⟨waitTxcn, found⟩ := ensureWait_lookup graph ptxid
  unfold visitMissingParent
  dsimp only
  rw [found, Option.getD_some]
  have noted := noted_modifyNode (ensureWait graph ptxid) txCN
    (fun node => { node with waitPTX := node.waitPTX.insert ptxid }) (fun _ => rfl)
  have marked := ensured.tail (.note noted)
  have sameNode := noted.nodes txCN
  have sameOld : (ensureWait graph ptxid).node txCN = graph.node txCN :=
    congrArg (fun heap => heap.read txCN) sameNodes
  rw [sameOld] at sameNode
  have namedMarked : (((ensureWait graph ptxid).modifyNode txCN fun node =>
      { node with waitPTX := node.waitPTX.insert ptxid }).node txCN).choosedNode.pTx.lookup ptxid = some ptx := by
    rw [sameNode]
    exact named
  split
  next undecided =>
    refine marked.trans (registerWait_moves (order.perm _ _) namedMarked ?_ found undecided rfl)
    unfold txIdOf
    rw [sameNode]
    exact other
  next choosed decided =>
    refine marked.trans (rejectRemoved_moves namedMarked ?_ found ?_ rfl)
    · rw [← absent, ← sameTxCNs]
      rfl
    · intro none
      rw [none] at decided
      cases decided

theorem addTombstone_moves (dead : (graph.node txCN).state = .changedState) :
    Moves txCN graph (graph.addTombstone (graph.txIdOf txCN) txCN) := by
  unfold addTombstone
  split
  next absent => exact .single (.tombstone dead absent)
  · exact .refl

theorem addTombstone_nodes (graph : TxConsensusGraph) (txid : TxId) (txCN : NodeRef) :
    (graph.addTombstone txid txCN).nodes = graph.nodes ∧ (graph.addTombstone txid txCN).txCNs = graph.txCNs ∧
      (graph.addTombstone txid txCN).gState = graph.gState := by
  unfold addTombstone
  split <;> exact ⟨rfl, rfl, rfl⟩

/-- The rejection also removes the node and leaves a wait entry. -/
theorem removeNode_moves (dead : (graph.node txCN).state = .changedState) :
    Moves txCN graph { graph.addTombstone (graph.txIdOf txCN) txCN with
      txCNs := (graph.addTombstone (graph.txIdOf txCN) txCN).txCNs.erase (graph.txIdOf txCN) } := by
  have nodes := (addTombstone_nodes graph (graph.txIdOf txCN) txCN).1
  have same : (graph.addTombstone (graph.txIdOf txCN) txCN).node txCN = graph.node txCN :=
    congrArg (fun heap => heap.read txCN) nodes
  have removed : Move txCN (graph.addTombstone (graph.txIdOf txCN) txCN) _ := .remove (same ▸ dead)
  have sameId : (graph.addTombstone (graph.txIdOf txCN) txCN).txIdOf txCN = graph.txIdOf txCN :=
    congrArg (fun node => node.choosedNode.txId) same
  rw [sameId] at removed
  exact (addTombstone_moves dead).tail removed

theorem txIdOf_setState (graph : TxConsensusGraph) (target other : NodeRef) (state : NodeState) :
    (graph.setState target state).txIdOf other = graph.txIdOf other := by
  unfold txIdOf
  rw [node_setState]
  split
  next same => rw [same]
  · rfl

/-- A rejection for any reason is counted. -/
theorem countReject_moves (reason : Reason txCN (graph.countChangedState 1)) :
    Moves txCN graph ((graph.countChangedState 1).setState txCN .changedState) :=
  (Moves.single (.note (noted_countChangedState graph 1))).tail (.reject reason)

theorem rejectWrites_moves (reason : Reason txCN (graph.countChangedState 1)) :
    Moves txCN graph (rejectWrites txCN graph) := by
  have dead : (((graph.countChangedState 1).setState txCN .changedState).node txCN).state = .changedState := by
    rw [node_setState, if_pos rfl]
  have removed := removeNode_moves dead
  rw [txIdOf_setState] at removed
  exact (countReject_moves reason).trans removed

theorem rejectWrites_node (graph : TxConsensusGraph) (txCN other : NodeRef) : (rejectWrites txCN graph).node other =
      if other = txCN then { graph.node txCN with state := .changedState } else graph.node other := by
  have nodes := (addTombstone_nodes ((graph.countChangedState 1).setState txCN .changedState)
    (graph.txIdOf txCN) txCN).1
  have same : (rejectWrites txCN graph).node other =
      ((graph.countChangedState 1).setState txCN .changedState).node other :=
    congrArg (fun heap => heap.read other) nodes
  rw [same, node_setState]
  rfl

theorem rejectWrites_size (graph : TxConsensusGraph) (txCN : NodeRef) :
    (rejectWrites txCN graph).nodes.size = graph.nodes.size := by
  have sizes := congrArg Heap.size (addTombstone_nodes
    ((graph.countChangedState 1).setState txCN .changedState) (graph.txIdOf txCN) txCN).1
  exact sizes

theorem followParent_moves (inside : ptxcn < graph.nodes.size) (name : graph.txIdOf ptxcn = ptxid)
    (named : (graph.node txCN).choosedNode.pTx.lookup ptxid = some ptx)
    (found : (graph.node txCN).state = .changedState ∨ graph.txCNs.lookup ptxid = some ptxcn)
    (done : followParent txCN ptxcn ptxid ptx graph = some (graph', stop)) : Moves txCN graph graph' := by
  unfold followParent at done
  dsimp only at done
  split at done
  next committed =>
    have checked : Moves txCN graph (if stale graph.gState ptx then
        (graph.countChangedState 1).setState txCN .changedState else graph) := by
      split
      next old =>
        apply countReject_moves
        rcases found with dead | found
        · exact .again dead
        · exact .stale ptxid ptx ptxcn named found committed old
      · exact .refl
    have sameId : (if stale graph.gState ptx then
        (graph.countChangedState 1).setState txCN .changedState else graph).txIdOf txCN =
        graph.txIdOf txCN := by
      split
      · rw [txIdOf_setState]
        rfl
      · rfl
    generalize (if stale graph.gState ptx then
        (graph.countChangedState 1).setState txCN .changedState else graph) = judged at *
    split at done
    next dead =>
      cases done
      have removed := removeNode_moves dead
      rw [sameId] at removed
      exact checked.trans removed
    · cases done
      exact checked
  · cases done
    exact .refl
  next undecided =>
    obtain ⟨final, inherited, same⟩ := Option.map_eq_some_iff.mp done
    cases same
    exact (Moves.single (.registerNode ptxid ptx ptxcn named inside name undecided)).tail
      (.note (inheritWaitPTX_noted inherited))
  next parentDead =>
    obtain ⟨final, inherited, same⟩ := Option.map_eq_some_iff.mp done
    cases same
    refine (countReject_moves ?_).tail (.note (inheritWaitPTX_noted inherited))
    rcases found with dead | found
    · exact .again dead
    · exact .parent ptxid ptx ptxcn named found parentDead

theorem visitPresentParent_moves (ready : Ready txCN graph)
    (named : (graph.node txCN).choosedNode.pTx.lookup ptxid = some ptx)
    (found : graph.txCNs.lookup ptxid = some ptxcn)
    (done : visitPresentParent txCN ptxcn ptxid ptx graph = some (graph', stop)) : Moves txCN graph graph' := by
  obtain ⟨inside, name⟩ := ready.present ptxid ptxcn found
  unfold visitPresentParent at done
  split at done
  next mismatch =>
    have rejected : Moves txCN graph (rejectWrites txCN graph) :=
      rejectWrites_moves (.writes ptxid ptx ptxcn named found mismatch)
    have node := rejectWrites_node graph txCN
    have size := rejectWrites_size graph txCN
    refine rejected.trans (followParent_moves (size.symm ▸ inside) ?_ ?_ (.inl ?_) done)
    · unfold txIdOf
      rw [node]
      split
      next same =>
        rw [← same]
        exact name
      · exact name
    · rw [node, if_pos rfl]
      exact named
    · rw [node, if_pos rfl]
  · exact followParent_moves inside name named (.inr found) done

theorem visitParent_moves (ready : Ready txCN graph)
    (named : (graph.node txCN).choosedNode.pTx.lookup ptxid = some ptx)
    (done : visitParent order txCN ptxid ptx graph = some (graph', stop)) : Moves txCN graph graph' := by
  unfold visitParent at done
  split at done
  next absent =>
    have same : (visitMissingParent order txCN ptxid ptx graph).1 = graph' :=
      congrArg Prod.fst (Option.some.inj done)
    exact same ▸ visitMissingParent_moves ready named absent
  next ptxcn found => exact visitPresentParent_moves ready named found done

section

variable (move : Move txCN graph graph')

include move

/-- A move changes only counters, lists, verdicts and bookkeeping of nodes. -/
theorem Move.keeps : graph'.nodes.size = graph.nodes.size ∧
      ∀ target, (graph'.node target).choosedNode = (graph.node target).choosedNode ∧
        (graph'.node target).childNodes = (graph.node target).childNodes := by
  cases move with
  | note noted =>
    refine ⟨noted.size, fun target => ?_⟩
    rw [noted.nodes target]
    exact ⟨rfl, rfl⟩
  | reject reason =>
    refine ⟨rfl, fun target => ?_⟩
    rw [node_setState]
    split
    next same =>
      rw [same]
      exact ⟨rfl, rfl⟩
    · exact ⟨rfl, rfl⟩
  | registerWait | registerNode =>
    refine ⟨rfl, fun target => ?_⟩
    obtain ⟨choosed, lists, _⟩ := (enlisted_register graph _ txCN _).nodes target
    exact ⟨choosed, lists⟩
  | enter | remove | tombstone | flag | await | expect => exact ⟨rfl, fun _ => ⟨rfl, rfl⟩⟩

theorem Move.txIdOf (target : NodeRef) : graph'.txIdOf target = graph.txIdOf target :=
  congrArg GVNode.txId (move.keeps.2 target).1

/-- A move never takes back the verdict on the node that enters. -/
theorem Move.dead (target : NodeRef)
    (dead : (graph.node target).state = .changedState) : (graph'.node target).state = .changedState := by
  cases move with
  | note noted =>
    rw [noted.nodes target]
    exact dead
  | reject reason =>
    rw [node_setState]
    split
    · rfl
    · exact dead
  | registerWait | registerNode =>
    rw [((enlisted_register graph _ txCN _).nodes target).2.2.1]
    exact dead
  | enter | remove | tombstone | flag | await | expect => exact dead

theorem Move.ready (ready : Ready txCN graph) : Ready txCN graph' := by
  have size := move.keeps.1
  have names := move.txIdOf
  have present : ∀ txid target, graph'.txCNs.lookup txid = some target →
      graph.txCNs.lookup txid = some target ∨ target = txCN ∧ txid = graph.txIdOf txCN := by
    intro txid target found
    cases move with
    | note noted => exact .inl (noted.present ▸ found)
    | enter alive =>
      rcases GoMap.of_lookup_insert found with ⟨same, rfl⟩ | ⟨_, found⟩
      · exact .inr ⟨rfl, same⟩
      · exact .inl found
    | remove dead => exact .inl (GoMap.of_lookup_erase found).2
    | reject | registerWait | registerNode | tombstone | flag | await | expect => exact .inl found
  refine ⟨size.symm ▸ ready.inside, ?_, ?_⟩
  · intro txid target found
    rw [size, names]
    rcases present txid target found with old | ⟨same, name⟩
    · exact ready.present txid target old
    · rw [same]
      exact ⟨ready.inside, name.symm⟩
  · intro alive
    rw [names]
    have before : (graph.node txCN).state ≠ .changedState := fun dead => alive (move.dead txCN dead)
    have here := ready.here before
    cases move with
    | note noted => exact noted.present ▸ here
    | enter => exact AList.lookup_insert _
    | remove dead => exact absurd dead before
    | reject | registerWait | registerNode | tombstone | flag | await | expect => exact here

end

theorem Moves.induct (invariant : TxConsensusGraph → Prop)
    (preserved : ∀ first second, Move txCN first second → invariant first → invariant second)
    (moves : Moves txCN graph graph') (initially : invariant graph) : invariant graph' := by
  induction moves with
  | refl => exact initially
  | tail _ move ih => exact preserved _ _ move ih

theorem Moves.ready (moves : Moves txCN graph graph') (ready : Ready txCN graph) : Ready txCN graph' :=
  moves.induct (Ready txCN) (fun _ _ move => move.ready) ready

theorem Moves.keeps (moves : Moves txCN graph graph') : graph'.nodes.size = graph.nodes.size ∧
      ∀ target, (graph'.node target).choosedNode = (graph.node target).choosedNode ∧
        (graph'.node target).childNodes = (graph.node target).childNodes := by
  induction moves with
  | refl => exact ⟨rfl, fun _ => ⟨rfl, rfl⟩⟩
  | tail _ move ih =>
    refine ⟨move.keeps.1.trans ih.1, fun target => ?_⟩
    exact ⟨(move.keeps.2 target).1.trans (ih.2 target).1, (move.keeps.2 target).2.trans (ih.2 target).2⟩

/-- The loop over the parents consists of moves. -/
theorem visitParents_moves {entries : List (GoEntry PtxKV)} (ready : Ready txCN graph)
    (named : ∀ entry ∈ entries, (graph.node txCN).choosedNode.pTx.lookup entry.1 = some entry.2)
    (done : visitParents order txCN entries graph = some final) : Moves txCN graph final := by
  induction entries generalizing graph with
  | nil =>
    cases done
    exact .refl
  | cons entry rest ih =>
    unfold visitParents at done
    split at done
    · cases done
    next next visited =>
      cases done
      exact visitParent_moves ready (named entry List.mem_cons_self) visited
    next next visited =>
      have moves := visitParent_moves ready (named entry List.mem_cons_self) visited
      refine moves.trans (ih (moves.ready ready) ?_ done)
      intro other member
      rw [(moves.keeps.2 txCN).1]
      exact named other (List.mem_cons_of_mem _ member)

/-- The checks before the parents consist of moves. -/
theorem checkWait_moves (txCN : NodeRef) (graph : TxConsensusGraph) : Moves txCN graph (checkWait txCN graph) := by
  have rejected : ∀ state : TxConsensusGraph, Reason txCN state →
      Moves txCN state (state.setState txCN .changedState) :=
    fun state reason => Moves.single (.reject reason)
  unfold checkWait
  dsimp only
  have first : Moves txCN graph (if (graph.node txCN).choosedNode.consensusState = 3 then
      graph.setState txCN .changedState else graph) := by
    split
    next three => exact rejected graph (.consensus (by omega))
    · exact .refl
  split
  next absent =>
    split
    next three =>
      have dead : ((graph.setState txCN .changedState).node txCN).state = .changedState := by
        rw [node_setState, if_pos rfl]
      rw [if_pos three] at first
      have marked := first.tail (.tombstone dead (by rw [txIdOf_setState]; exact absent))
      rw [txIdOf_setState] at marked
      exact marked
    next other =>
      rw [if_neg other] at first
      exact first
  next waitTxcn found =>
    have kept : ∀ state : TxConsensusGraph, Moves txCN graph state →
        state.waitUnChoosedTxCNs = graph.waitUnChoosedTxCNs →
        state.waitUnChoosedTxCNs.lookup (state.txIdOf txCN) = some waitTxcn := by
      intro state moves same
      unfold txIdOf
      rw [same, (moves.keeps.2 txCN).1]
      exact found
    have firstWaits : (if (graph.node txCN).choosedNode.consensusState = 3 then
        graph.setState txCN .changedState else graph).waitUnChoosedTxCNs =
        graph.waitUnChoosedTxCNs := by
      split <;> rfl
    generalize (if (graph.node txCN).choosedNode.consensusState = 3 then
      graph.setState txCN .changedState else graph) = start at *
    have second : Moves txCN graph (if waitTxcn.diffWaitWKV then
        start.setState txCN .changedState else start) := by
      split
      next diff =>
        exact first.trans (rejected start (.expected waitTxcn (kept start first firstWaits) (.inl diff)))
      · exact first
    have secondWaits : (if waitTxcn.diffWaitWKV then
        start.setState txCN .changedState else start).waitUnChoosedTxCNs =
        graph.waitUnChoosedTxCNs := by
      split <;> exact firstWaits
    generalize (if waitTxcn.diffWaitWKV then start.setState txCN .changedState else start) =
      middle at *
    split
    next conflict =>
      have mismatch : disagrees (middle.node txCN).choosedNode.writeSet waitTxcn.writeSet = true := by
        rw [(second.keeps.2 txCN).1]
        exact (Bool.and_eq_true_iff.mp conflict).2
      have third := second.trans
        (rejected middle (.expected waitTxcn (kept middle second secondWaits) (.inr mismatch)))
      have dead : ((middle.setState txCN .changedState).node txCN).state = .changedState := by
        rw [node_setState, if_pos rfl]
      have flagged := third.tail (.flag dead waitTxcn (kept _ third secondWaits))
      rw [txIdOf_setState, TxConsensusGraph.txIdOf, (second.keeps.2 txCN).1] at flagged
      exact flagged
    · exact second

/-- Consensus state 2 gives the node other parents. -/
def TxConsensusGraph.retarget (graph : TxConsensusGraph) (txCN : NodeRef) (pTx : GoMap PtxKV) : TxConsensusGraph :=
  graph.modifyNode txCN fun node => { node with choosedNode := { node.choosedNode with pTx := pTx } }

theorem resolveConsensus_moves (order : RangeOrder RangeSite) (txCN : NodeRef)
    (graph : TxConsensusGraph) : Moves txCN graph (resolveConsensus order txCN graph) ∨
      (graph.node txCN).choosedNode.consensusState = 2 ∧ resolveConsensus order txCN graph = graph.retarget txCN
          (consensusPTx order graph (graph.node txCN).choosedNode).tempptx := by
  unfold resolveConsensus
  dsimp only
  split
  next two =>
    split
    · left
      have rejected : Moves txCN graph ((graph.countChangedState 1).setState txCN .changedState) :=
        countReject_moves (.consensus (by
          change (graph.node txCN).choosedNode.consensusState ≠ 0
          omega))
      have dead : (((graph.countChangedState 1).setState txCN .changedState).node txCN).state = .changedState := by
        rw [node_setState, if_pos rfl]
      have marked := rejected.trans (addTombstone_moves dead)
      rw [txIdOf_setState] at marked
      exact marked
    · exact .inr ⟨two, rfl⟩
  · exact .inl ReflTransGen.refl

/-- The moves of a node that waits for parents it did not read from. -/
inductive UNMove (txCN : NodeRef) : TxConsensusGraph → TxConsensusGraph → Prop where
  | await {graph : TxConsensusGraph} (ptxid : TxId) (other : ptxid ≠ graph.txIdOf txCN)
      (absent : graph.waitUnChoosedTxCNs.lookup ptxid = none) :
      UNMove txCN graph (graph.addWait ptxid false none)
  | register {graph : TxConsensusGraph} (list : ChildRef) (ptxid : TxId) (opened : graph.Open list) :
      UNMove txCN graph (graph.registerUN list txCN ptxid)

def UNMoves (txCN : NodeRef) : TxConsensusGraph → TxConsensusGraph → Prop :=
  ReflTransGen (UNMove txCN)

theorem UNMove.keeps (move : UNMove txCN graph graph') : graph'.nodes.size = graph.nodes.size ∧
      graph'.txCNs = graph.txCNs ∧
      ∀ target, (graph'.node target).choosedNode = (graph.node target).choosedNode ∧
        (graph'.node target).childNodes = (graph.node target).childNodes ∧
        (graph'.node target).state = (graph.node target).state := by
  cases move with
  | await => exact ⟨rfl, rfl, fun _ => ⟨rfl, rfl, rfl⟩⟩
  | register list ptxid =>
    refine ⟨rfl, rfl, fun target => ?_⟩
    obtain ⟨choosed, lists, state, _⟩ := (enlisted_registerUN graph list txCN ptxid).nodes target
    exact ⟨choosed, lists, state⟩

theorem UNMove.ready (move : UNMove txCN graph graph') (ready : Ready txCN graph) : Ready txCN graph' := by
  obtain ⟨size, present, nodes⟩ := move.keeps
  refine ⟨size.symm ▸ ready.inside, ?_, ?_⟩
  · intro txid target found
    unfold txIdOf
    rw [size, (nodes target).1]
    exact ready.present txid target (present ▸ found)
  · intro alive
    unfold txIdOf
    rw [present, (nodes txCN).1]
    exact ready.here fun dead => alive ((nodes txCN).2.2.trans dead)

theorem UNMoves.keeps (moves : UNMoves txCN graph graph') : graph'.nodes.size = graph.nodes.size ∧
      graph'.txCNs = graph.txCNs ∧
      ∀ target, (graph'.node target).choosedNode = (graph.node target).choosedNode ∧
        (graph'.node target).childNodes = (graph.node target).childNodes ∧
        (graph'.node target).state = (graph.node target).state := by
  induction moves with
  | refl => exact ⟨rfl, rfl, fun _ => ⟨rfl, rfl, rfl⟩⟩
  | tail _ move ih =>
    obtain ⟨size, present, nodes⟩ := move.keeps
    refine ⟨size.trans ih.1, present.trans ih.2.1, fun target => ?_⟩
    exact ⟨(nodes target).1.trans (ih.2.2 target).1, (nodes target).2.1.trans (ih.2.2 target).2.1,
      (nodes target).2.2.trans (ih.2.2 target).2.2⟩

theorem UNMoves.ready (moves : UNMoves txCN graph graph') (ready : Ready txCN graph) : Ready txCN graph' := by
  induction moves with
  | refl => exact ready
  | tail _ move ih => exact move.ready ih

theorem visitUNParent_moves (ready : Ready txCN graph) (alive : (graph.node txCN).state ≠ .changedState)
    (ptxid : TxId) : UNMoves txCN graph (visitUNParent txCN graph ptxid) := by
  unfold visitUNParent
  split
  next absent =>
    have other : ptxid ≠ graph.txIdOf txCN := by
      intro same
      have here := ready.here alive
      rw [← same, absent] at here
      cases here
    have ensured : UNMoves txCN graph (ensureWait graph ptxid) := by
      unfold ensureWait
      split
      next missing => exact .single (.await ptxid other missing)
      · exact .refl
    obtain ⟨waitTxcn, found⟩ := ensureWait_lookup graph ptxid
    dsimp only
    rw [found, Option.getD_some]
    split
    next undecided =>
      exact ensured.tail (.register _ ptxid (.inl ⟨ptxid, waitTxcn, found, undecided, rfl⟩))
    · exact ensured
  next ptxcn found =>
    split
    next undecided =>
      exact .single
        (.register _ ptxid (.inr ⟨ptxcn, (ready.present ptxid ptxcn found).1, undecided, rfl⟩))
    · exact .refl

theorem visitUNParents_moves (ptxids : List TxId) (ready : Ready txCN graph)
    (alive : (graph.node txCN).state ≠ .changedState) :
    UNMoves txCN graph (ptxids.foldl (visitUNParent txCN) graph) := by
  induction ptxids generalizing graph with
  | nil => exact .refl
  | cons ptxid rest ih =>
    have first := visitUNParent_moves ready alive ptxid
    have stillAlive : ((visitUNParent txCN graph ptxid).node txCN).state ≠ .changedState := by
      rw [(first.keeps.2.2 txCN).2.2]
      exact alive
    exact .trans first (ih (first.ready ready) stillAlive)

end Pobl.Partialorder
