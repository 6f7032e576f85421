/-
This file runs a call of `ProcessTX` as a sequence of small steps.
Every call of the source is such a sequence, so an invariant is checked once for each kind of step.
-/

import Pobl.Proof.Graph.Changes

namespace Pobl.Partialorder

open Library Protos TxConsensusGraph Relation

variable {graph graph' : TxConsensusGraph} {tasks tasks' added : List Task} {txCN : NodeRef}
  {before after : TxConsensusGraph × List Task} {final : TxConsensusGraph} {order : RangeOrder RangeSite}
  {choosed : GVNode} {task : Task}

/-- One step of `ProcessTX` on a node, with the open tasks of its cascade before and after. -/
inductive Step (txCN : NodeRef) : TxConsensusGraph → List Task → TxConsensusGraph → List Task → Prop where
  | move {graph graph' : TxConsensusGraph} (move : Move txCN graph graph') : Step txCN graph [] graph' []
  | unMove {graph graph' : TxConsensusGraph} (move : UNMove txCN graph graph') : Step txCN graph [] graph' []
  | retarget {graph : TxConsensusGraph} (pTx : GoMap PtxKV) (two : (graph.node txCN).choosedNode.consensusState = 2) :
      Step txCN graph [] (graph.retarget txCN pTx) []
  | takeWait {graph : TxConsensusGraph} (waitTxcn : WaitTxConsensusNode)
      (found : graph.waitUnChoosedTxCNs.lookup (graph.txIdOf txCN) = some waitTxcn) :
      Step txCN graph [] (takeWait txCN graph) []
  | commit {graph : TxConsensusGraph} (alive : (graph.node txCN).state ≠ .changedState)
      (free : (graph.node txCN).parentNum = 0) :
      Step txCN graph [] (expandDelete (graph.commit txCN) txCN).1 (expandDelete (graph.commit txCN) txCN).2
  | abort {graph : TxConsensusGraph} (dead : (graph.node txCN).state = .changedState) :
      Step txCN graph [] (expandDelete graph txCN).1 (expandDelete graph txCN).2
  | task {graph : TxConsensusGraph} (task : Task) (rest : List Task) :
      Step txCN graph (task :: rest) (task.perform graph).1 ((task.perform graph).2 ++ rest)

/-- A sequence of steps of one call. -/
def Steps (txCN : NodeRef) (before after : TxConsensusGraph × List Task) : Prop :=
  ReflTransGen (fun first second => Step txCN first.1 first.2 second.1 second.2) before after

theorem Steps.induct (invariant : TxConsensusGraph → List Task → Prop)
    (preserved : ∀ graph tasks graph' tasks', Step txCN graph tasks graph' tasks' →
      invariant graph tasks → invariant graph' tasks') (steps : Steps txCN before after)
    (initially : invariant before.1 before.2) : invariant after.1 after.2 := by
  induction steps with
  | refl => exact initially
  | tail _ step ih => exact preserved _ _ _ _ step ih

theorem Moves.steps (moves : Moves txCN graph graph') : Steps txCN (graph, []) (graph', []) := by
  induction moves with
  | refl => exact ReflTransGen.refl
  | tail _ move ih => exact ReflTransGen.tail ih (.move move)

theorem UNMoves.steps (moves : UNMoves txCN graph graph') : Steps txCN (graph, []) (graph', []) := by
  induction moves with
  | refl => exact ReflTransGen.refl
  | tail _ move ih => exact ReflTransGen.tail ih (.unMove move)

theorem finish_steps (done : finish txCN graph = some final) : Steps txCN (graph, []) (final, []) := by
  refine finish_invariant (fun current tasks => Steps txCN (graph, []) (current, tasks)) ?_ ?_ ?_ ?_ done
  · exact fun current task rest reached => ReflTransGen.tail reached (.task task rest)
  · exact .refl
  · exact fun alive zero => ReflTransGen.single (.commit alive zero)
  · exact fun dead => ReflTransGen.single (.abort dead)

theorem takeWait_steps (txCN : NodeRef) (graph : TxConsensusGraph) :
    Steps txCN (graph, []) (takeWait txCN graph, []) := by
  cases found : graph.waitUnChoosedTxCNs.lookup (graph.txIdOf txCN) with
  | none =>
    rw [takeWait_none found]
    exact .refl
  | some waitTxcn => exact ReflTransGen.single (.takeWait waitTxcn found)

/-- The checks pass only when they change nothing. -/
theorem checkWait_alive (alive : ((checkWait txCN graph).node txCN).state ≠ .changedState) :
    checkWait txCN graph = graph ∧ (graph.node txCN).choosedNode.consensusState ≠ 3 ∧
      ∀ waitTxcn, graph.waitUnChoosedTxCNs.lookup (graph.txIdOf txCN) = some waitTxcn → waitTxcn.diffWaitWKV = false ∧
          disagrees (graph.node txCN).choosedNode.writeSet waitTxcn.writeSet = false := by
  have dead : ∀ state : TxConsensusGraph, ((state.setState txCN .changedState).node txCN).state = .changedState :=
    fun state => abort_state state txCN
  unfold checkWait at alive ⊢
  by_cases three : (graph.node txCN).choosedNode.consensusState = 3
  · exfalso
    apply alive
    simp only [if_pos three]
    split
    · exact dead graph
    · split
      · split <;> exact dead _
      · split
        · exact dead _
        · exact dead graph
  · simp only [if_neg three] at alive ⊢
    cases found : graph.waitUnChoosedTxCNs.lookup (graph.node txCN).choosedNode.txId with
    | none =>
      refine ⟨rfl, three, ?_⟩
      intro waitTxcn lookup
      unfold txIdOf at lookup
      rw [found] at lookup
      cases lookup
    | some waitTxcn =>
      simp only [found] at alive ⊢
      have clear : waitTxcn.diffWaitWKV = false := by
        by_contra diff
        apply alive
        have set := eq_true_of_ne_false diff
        simp only [if_pos set]
        split
        · exact dead _
        · exact dead graph
      simp only [clear, Bool.false_eq_true, if_false] at alive ⊢
      split at alive
      · exact absurd (dead graph) alive
      next agrees =>
        refine ⟨if_neg agrees, three, ?_⟩
        intro entry lookup
        unfold txIdOf at lookup
        rw [found, Option.some.injEq] at lookup
        subst entry
        refine ⟨clear, ?_⟩
        simpa [alive] using agrees

theorem resolveConsensus_steps (order : RangeOrder RangeSite) (txCN : NodeRef) (graph : TxConsensusGraph) :
    Steps txCN (graph, []) (resolveConsensus order txCN graph, []) := by
  rcases resolveConsensus_moves order txCN graph with moves | ⟨two, same⟩
  · exact moves.steps
  · rw [same]
    exact .single (.retarget _ two)

/-- The tasks that a task leaves are about nodes of the graph. -/
theorem Performed.bounded {rest : List Task} (performed : Performed graph task graph' added)
    (bounded : Bounded graph (task :: rest)) : Bounded graph' (added ++ rest) := by
  have inside := bounded.taskNode task List.mem_cons_self
  have later : ∀ other ∈ rest, other.target < graph.nodes.size :=
    fun other member => bounded.taskNode other (List.mem_cons_of_mem _ member)
  have appended : ∀ added : List Task, (∀ other ∈ added, other.target < graph.nodes.size) →
      ∀ other ∈ added ++ rest, other.target < graph.nodes.size := by
    intro added new other member
    rcases List.mem_append.mp member with first | second
    · exact new other first
    · exact later other second
  have branched : ∀ (task : NodeRef → Task) (dtxcn : NodeRef), dtxcn < graph.nodes.size →
      (∀ child, (task child).target = child) → ∀ other ∈ (graph.childrenOf dtxcn).nChildNodes.map task,
      other.target < graph.nodes.size := by
    intro task dtxcn dtxcnIn target other member
    obtain ⟨child, listed, rfl⟩ := List.mem_map.mp member
    rw [target]
    exact bounded.listed _ (bounded.owned dtxcn dtxcnIn) child (.inl listed)
  cases performed with
  | drops dropped child releases change positive => exact bounded.decrement change later
  | commits dropped child releases change zero =>
    have kept : Bounded dropped rest := bounded.decrement change later
    have childIn : child < graph.nodes.size := target_released releases ▸ inside
    apply kept.restate (restated_commit dropped child)
    rw [change.size]
    exact appended _ (change.size ▸ kept.expandDelete_target (change.size.symm ▸ childIn))
  | branchAborts txid dtxcn =>
    exact bounded.retask (appended _ (branched Task.abort dtxcn inside (fun _ => rfl)))
  | branchReleases txid dtxcn =>
    exact bounded.retask (appended _ (branched (.release txid) dtxcn inside (fun _ => rfl)))
  | aborts child alive =>
    exact bounded.restate (restated_abort graph child) (appended _ (bounded.expandDelete_target inside))
  | skips child dead => exact bounded.retask later

theorem retarget_keeps (graph : TxConsensusGraph) (txCN : NodeRef) (pTx : GoMap PtxKV)
    (other : NodeRef) : (graph.retarget txCN pTx).node other =
      { graph.node other with choosedNode :=
        { (graph.node other).choosedNode with
          pTx := ((graph.retarget txCN pTx).node other).choosedNode.pTx } } := by
  unfold TxConsensusGraph.retarget
  rw [node_modifyNode]
  split
  next same => rw [same]
  · rfl

/-- Every step keeps the references inside the heaps. -/
theorem Step.bounded (step : Step txCN graph tasks graph' tasks') (bounded : Bounded graph tasks)
    (inside : txCN < graph.nodes.size) : Bounded graph' tasks' := by
  cases step with
  | move move => exact move.bounded bounded inside
  | unMove move => exact move.bounded bounded inside
  | retarget pTx two =>
    have node := retarget_keeps graph txCN pTx
    apply bounded.reshape
    · rfl
    · rfl
    · intro target
      unfold txIdOf
      rw [node]
    · intro target
      rw [node]
    · exact fun txid waitTxcn found => ⟨waitTxcn, found, rfl, rfl⟩
    · exact fun txid target found => .inl found
    · nofun
  | takeWait waitTxcn found => exact bounded.handOver (takeWait_handedOver found) inside found nofun
  | commit alive free =>
    rw [commit_tasks]
    exact bounded.restate (restated_commit graph txCN) (bounded.expandDelete_target inside)
  | abort dead =>
    rw [expandDelete_changed dead]
    exact bounded.retask (bounded.expandDelete_target inside)
  | task task rest => exact (task.performed graph).bounded bounded

theorem Performed.keeps (performed : Performed graph task graph' added) : graph'.nodes.size = graph.nodes.size ∧
      ∀ target, (graph'.node target).choosedNode = (graph.node target).choosedNode := by
  cases performed with
  | drops dropped child releases change positive =>
    exact ⟨change.size, fun target => (change.nodes target).1⟩
  | commits dropped child releases change zero =>
    have commit := restated_commit dropped child
    exact ⟨commit.size.trans change.size, fun target => (commit.choosedNode target).trans (change.nodes target).1⟩
  | branchAborts | branchReleases | skips => exact ⟨rfl, fun _ => rfl⟩
  | aborts child alive =>
    have abort := restated_abort graph child
    exact ⟨abort.size, abort.choosedNode⟩

/-- A step creates no node, and only consensus state 2 gives a node other parents. -/
theorem Step.keeps (step : Step txCN graph tasks graph' tasks') : graph'.nodes.size = graph.nodes.size ∧ ∀ target,
      (graph'.node target).choosedNode = { (graph.node target).choosedNode with
        pTx := (graph'.node target).choosedNode.pTx } ∧
      ((graph.node txCN).choosedNode.consensusState ≠ 2 →
        (graph'.node target).choosedNode = (graph.node target).choosedNode) := by
  have same : graph'.nodes.size = graph.nodes.size →
      (∀ target, (graph'.node target).choosedNode = (graph.node target).choosedNode) →
      graph'.nodes.size = graph.nodes.size ∧ ∀ target,
        (graph'.node target).choosedNode = { (graph.node target).choosedNode with
          pTx := (graph'.node target).choosedNode.pTx } ∧
        ((graph.node txCN).choosedNode.consensusState ≠ 2 →
          (graph'.node target).choosedNode = (graph.node target).choosedNode) :=
    fun size nodes => ⟨size, fun target => ⟨by rw [nodes target], fun _ => nodes target⟩⟩
  cases step with
  | move move => exact same move.keeps.1 fun target => (move.keeps.2 target).1
  | unMove move => exact same move.keeps.1 fun target => (move.keeps.2.2 target).1
  | retarget pTx two =>
    refine ⟨rfl, fun target => ⟨?_, fun different => absurd two different⟩⟩
    exact congrArg TxConsensusNode.choosedNode (retarget_keeps graph txCN pTx target)
  | takeWait waitTxcn found =>
    have change := takeWait_handedOver found
    exact same change.size fun target => (change.nodes target).1
  | commit alive free =>
    have change := restated_commit graph txCN
    exact same change.size change.choosedNode
  | abort dead =>
    rw [expandDelete_changed dead] at same ⊢
    exact same rfl fun _ => rfl
  | task task rest => exact same (task.performed graph).keeps.1 (task.performed graph).keeps.2

theorem Steps.keeps (steps : Steps txCN before after) : after.1.nodes.size = before.1.nodes.size ∧ ∀ target,
      (after.1.node target).choosedNode = { (before.1.node target).choosedNode with
        pTx := (after.1.node target).choosedNode.pTx } ∧
      ((before.1.node txCN).choosedNode.consensusState ≠ 2 →
        (after.1.node target).choosedNode = (before.1.node target).choosedNode) := by
  induction steps with
  | refl => exact ⟨rfl, fun _ => ⟨rfl, fun _ => rfl⟩⟩
  | tail _ step ih =>
    obtain ⟨size, contents⟩ := step.keeps
    refine ⟨size.trans ih.1, fun target => ⟨?_, fun different => ?_⟩⟩
    · rw [(contents target).1, (ih.2 target).1]
    · have same := (contents target).2 (by
        rw [(ih.2 txCN).1]
        exact different)
      exact same.trans ((ih.2 target).2 different)

theorem Steps.txIdOf (steps : Steps txCN before after)
    (target : NodeRef) : after.1.txIdOf target = before.1.txIdOf target := by
  unfold TxConsensusGraph.txIdOf
  rw [(steps.keeps.2 target).1]

/-- The node enters the graph and visits its parents in steps, and it stays filed unless it is
rejected. -/
theorem enterGraph_ready (bounded : Bounded graph []) (inside : txCN < graph.nodes.size)
    (alive : (graph.node txCN).state ≠ .changedState) (done : enterGraph order txCN graph = some final) :
    Steps txCN (graph, []) (final, []) ∧ Ready txCN final := by
  have move : Move txCN graph { graph with txCNs := graph.txCNs.insert (graph.txIdOf txCN) txCN } :=
    .enter alive
  have entered := Ready.enter bounded inside alive
  obtain ⟨visited, loop, last⟩ := Option.map_eq_some_iff.mp done
  have moves : Moves txCN _ visited := visitParents_moves entered (fun entry member => by
    rw [← GoMap.mem_entries_iff, ← order.mem_visit .pTx]
    exact member) loop
  have started : Steps txCN (graph, []) (visited, []) :=
    ReflTransGen.head (.move move) moves.steps
  have ready := moves.ready entered
  split at last
  next aliveAfter =>
    have others := visitUNParents_moves
      ((order.visit .unPTx (graph.node txCN).choosedNode.unPTx.entries).map (·.1)) ready aliveAfter
    rw [← last]
    exact ⟨.trans started others.steps, others.ready ready⟩
  · rw [← last]
    exact ⟨started, ready⟩

theorem Steps.bounded (steps : Steps txCN before after) (bounded : Bounded before.1 before.2)
    (inside : txCN < before.1.nodes.size) : Bounded after.1 after.2 ∧ txCN < after.1.nodes.size :=
  steps.induct (fun graph tasks => Bounded graph tasks ∧ txCN < graph.nodes.size)
    (fun _ _ _ _ step known => ⟨step.bounded known.1 known.2, step.keeps.1.symm ▸ known.2⟩)
    ⟨bounded, inside⟩

theorem prepareTX_steps (bounded : Bounded graph []) (inside : txCN < graph.nodes.size)
    (done : prepareTX order txCN graph = some final) : Steps txCN (graph, []) (final, []) := by
  have checked := (checkWait_moves txCN graph).steps
  unfold prepareTX at done
  dsimp only at done
  split at done
  · have resolved : Steps txCN (graph, []) (resolveConsensus order txCN (checkWait txCN graph), []) :=
      ReflTransGen.trans checked (resolveConsensus_steps order txCN _)
    split at done
    · cases done
    · split at done
      next alive =>
        obtain ⟨boundedAfter, insideAfter⟩ := resolved.bounded bounded inside
        exact .trans resolved (enterGraph_ready boundedAfter insideAfter alive done).1
      · cases done
        exact resolved
  · cases done
    exact checked

/-- Every call of `ProcessTX` consists of steps. -/
theorem processTX_steps (bounded : Bounded graph []) (inside : txCN < graph.nodes.size)
    (done : processTX order txCN graph = some final) : Steps txCN (graph, []) (final, []) := by
  obtain ⟨prepared, first, last⟩ := Option.bind_eq_some_iff.mp done
  refine ReflTransGen.trans (prepareTX_steps bounded inside first) ?_
  split at last
  · exact .trans (takeWait_steps txCN prepared) (finish_steps last)
  · exact finish_steps last

/-- A call adds one node, and the nodes keep their contents. -/
theorem processTX_contents {before : TxConsensusGraph} (bounded : Bounded before [])
    (done : processTX order before.nodes.size (before.newNode choosed) = some final) :
    final.nodes.size = before.nodes.size + 1 ∧ ∀ target,
      (final.node target).choosedNode = { ((before.newNode choosed).node target).choosedNode with
        pTx := (final.node target).choosedNode.pTx } ∧
      (choosed.consensusState ≠ 2 → (final.node target).choosedNode =
        ((before.newNode choosed).node target).choosedNode) := by
  have kept := (processTX_steps (bounded.newNode choosed) (Nat.lt_succ_self _) done).keeps
  rw [node_newNode_new] at kept
  exact kept

section

variable {before : TxConsensusGraph} (bounded : Bounded before [])
  (done : processTX order before.nodes.size (before.newNode choosed) = some final)

include bounded done

/-- Everything but the parents of the arriving transaction is kept. -/
theorem processTX_field {Field : Type} (field : GVNode → Field)
    (other : ∀ node pTx, field { node with pTx := pTx } = field node) :
    (∀ target < before.nodes.size, field (final.node target).choosedNode = field (before.node target).choosedNode) ∧
      field (final.node before.nodes.size).choosedNode = field choosed := by
  have contents := (processTX_contents bounded done).2
  refine ⟨fun target old => ?_, ?_⟩
  · rw [(contents target).1, other, newNode_old before choosed target old]
  · rw [(contents before.nodes.size).1, other, node_newNode_new]

theorem processTX_txIdOf : (∀ target < before.nodes.size, final.txIdOf target = before.txIdOf target) ∧
      final.txIdOf before.nodes.size = choosed.txId :=
  processTX_field bounded done GVNode.txId fun _ _ => rfl

end

end Pobl.Partialorder
