/-
This file shows that the cascade of `Delete` always ends.
Every nested call lowers a potential of the graph, and the fuel exceeds the potential.
-/

import Pobl.Library.Slots
import Pobl.Proof.Graph.Changes

namespace Pobl.Partialorder

open Library Protos TxConsensusGraph

variable {graph graph' : TxConsensusGraph} {child target : NodeRef} {tasks : List Task}

/-- A node weighs two while it counts open parents, and one more until it is aborted. -/
def TxConsensusNode.weight (node : TxConsensusNode) : Nat :=
  (if 0 < node.parentNum then 2 else 0) + if node.state = .changedState then 0 else 1

def TxConsensusGraph.potential (graph : TxConsensusGraph) : Nat :=
  ∑ target ∈ Finset.range graph.nodes.size, (graph.node target).weight

theorem potential_le (graph : TxConsensusGraph) : graph.potential ≤ 3 * graph.nodes.size := by
  have each : ∀ target ∈ Finset.range graph.nodes.size, (graph.node target).weight ≤ 3 := by
    intro target _
    unfold TxConsensusNode.weight
    split <;> split <;> omega
  calc graph.potential ≤ ∑ _target ∈ Finset.range graph.nodes.size, 3 := Finset.sum_le_sum each
    _ = (Finset.range graph.nodes.size).card * 3 := Finset.sum_const_nat fun _ _ => rfl
    _ = 3 * graph.nodes.size := by rw [Finset.card_range, Nat.mul_comm]

/-- The cascade keeps the lists and does not raise the potential. -/
structure Falls (graph graph' : TxConsensusGraph) : Prop where
  size : graph'.nodes.size = graph.nodes.size
  lists : graph'.childLists = graph.childLists
  childNodes : ∀ target, (graph'.node target).childNodes = (graph.node target).childNodes
  potential : graph'.potential ≤ graph.potential

theorem Falls.trans {first second third : TxConsensusGraph} (earlier : Falls first second)
    (later : Falls second third) : Falls first third where
  size := later.size.trans earlier.size
  lists := later.lists.trans earlier.lists
  childNodes target := (later.childNodes target).trans (earlier.childNodes target)
  potential := Nat.le_trans later.potential earlier.potential

theorem Falls.childrenOf (falls : Falls graph graph') (target : NodeRef) :
    graph'.childrenOf target = graph.childrenOf target := by
  unfold TxConsensusGraph.childrenOf
  rw [falls.lists, falls.childNodes]

/-- The children of every node are nodes of the graph. -/
def ChildrenInside (graph : TxConsensusGraph) : Prop :=
  ∀ owner < graph.nodes.size, ∀ child,
    child ∈ (graph.childrenOf owner).nChildNodes ∨ child ∈ (graph.childrenOf owner).unChildNodes →
    child < graph.nodes.size

theorem Bounded.childrenInside (bounded : Bounded graph tasks) : ChildrenInside graph :=
  fun owner inside child member => bounded.listed _ (bounded.owned owner inside) child member

theorem Falls.childrenInside (falls : Falls graph graph') (inside : ChildrenInside graph) :
    ChildrenInside graph' := by
  intro owner below child member
  rw [falls.childrenOf] at member
  rw [falls.size] at below ⊢
  exact inside owner below child member

/-- A change of one node changes the potential by the difference of its weights. -/
theorem potential_change (graph graph' : TxConsensusGraph) (inside : target < graph.nodes.size)
    (size : graph'.nodes.size = graph.nodes.size)
    (others : ∀ other ≠ target, (graph'.node other).weight = (graph.node other).weight) :
    graph'.potential + (graph.node target).weight = graph.potential + (graph'.node target).weight := by
  unfold potential
  rw [size]
  exact sum_range_change (fun other => (graph.node other).weight) (fun other => (graph'.node other).weight)
    graph.nodes.size target inside (fun other _ different => others other different)

theorem falls_abort (inside : child < graph.nodes.size) (alive : (graph.node child).state ≠ .changedState) :
    Falls graph (graph.setState child .changedState) ∧
      (graph.setState child .changedState).potential < graph.potential := by
  have change := restated_abort graph child
  have lower : (graph.setState child .changedState).potential < graph.potential := by
    have moved := potential_change graph _ inside change.size fun other different =>
      congrArg TxConsensusNode.weight ((node_setState ..).trans (if_neg different))
    rw [node_setState, if_pos rfl] at moved
    simp only [TxConsensusNode.weight, if_neg alive, if_true] at moved
    omega
  exact ⟨⟨change.size, change.lists, change.childNodes, Nat.le_of_lt lower⟩, lower⟩

theorem Decremented.weight (change : Decremented graph graph' child) (other : NodeRef) (different : other ≠ child) :
    (graph'.node other).weight = (graph.node other).weight := by
  unfold TxConsensusNode.weight
  rw [change.parentNum, if_neg (Ne.symm different), (change.nodes other).2.2, Int.sub_zero]

theorem Decremented.falls (change : Decremented graph graph' child)
    (inside : child < graph.nodes.size) : Falls graph graph' := by
  refine ⟨change.size, change.lists, fun target => (change.nodes target).2.1, ?_⟩
  have moved := potential_change graph _ inside change.size change.weight
  simp only [TxConsensusNode.weight, change.parentNum, if_true, (change.nodes child).2.2] at moved
  split at moved <;> split at moved <;> split at moved <;> omega

/-- A commit at zero open parents lowers the potential. -/
theorem Decremented.falls_commit (change : Decremented graph graph' child) (inside : child < graph.nodes.size)
    (zero : (graph'.node child).parentNum = 0) :
    Falls graph (graph'.commit child) ∧ (graph'.commit child).potential < graph.potential := by
  have last : (graph.node child).parentNum = 1 := by
    rw [change.parentNum, if_pos rfl] at zero
    omega
  have lower : (graph'.commit child).potential < graph.potential := by
    have moved := potential_change graph (graph'.commit child) inside change.size (by
      intro other different
      rw [node_commit, if_neg different]
      exact change.weight other different)
    rw [node_commit, if_pos rfl] at moved
    simp only [TxConsensusNode.weight, zero, last] at moved
    split at moved <;> simp at moved <;> omega
  refine ⟨⟨change.size, change.lists, ?_, Nat.le_of_lt lower⟩, lower⟩
  intro target
  rw [node_commit]
  split
  next same =>
    rw [same]
    exact (change.nodes child).2.1
  · exact (change.nodes target).2.1

/-- A loop returns when every iteration does. -/
theorem foldlM_returns {State Item : Type} (invariant : State → Prop) (step : State → Item → Option State)
    (items : List Item)
    (each : ∀ state, ∀ item ∈ items, invariant state → ∃ next, step state item = some next ∧ invariant next)
    (state : State) (holds : invariant state) : ∃ final, items.foldlM step state = some final ∧ invariant final := by
  induction items generalizing state with
  | nil => exact ⟨state, rfl, holds⟩
  | cons item rest ih =>
    obtain ⟨next, stepped, kept⟩ := each state item List.mem_cons_self holds
    obtain ⟨final, done, last⟩ := ih
      (fun other target member => each other target (List.mem_cons_of_mem _ member)) next kept
    refine ⟨final, ?_, last⟩
    rw [List.foldlM_cons, stepped]
    exact done

/-- An iteration that releases a child returns when the nested calls do. -/
theorem release_returns {fuel : Nat} {current : TxConsensusGraph}
    (nested : ∀ next : TxConsensusGraph, ChildrenInside next → child < next.nodes.size →
      next.potential < fuel → ∃ final, deleteFuel fuel next child = some final ∧ Falls next final)
    (childrenIn : ChildrenInside current) (inside : child < current.nodes.size)
    (enough : current.potential < fuel + 1) {dropped : TxConsensusGraph}
    (change : Decremented current dropped child) :
    ∃ next, (if (dropped.node child).parentNum = 0 then deleteFuel fuel (dropped.commit child) child
      else some dropped) = some next ∧ Falls current next := by
  split
  next zero =>
    obtain ⟨falls, lower⟩ := change.falls_commit inside zero
    obtain ⟨final, done, later⟩ := nested (dropped.commit child) (falls.childrenInside childrenIn)
      (falls.size ▸ inside) (by omega)
    exact ⟨final, done, falls.trans later⟩
  · exact ⟨dropped, rfl, change.falls inside⟩

/-- The cascade returns when the fuel exceeds the potential. -/
theorem deleteFuel_returns (fuel : Nat) (graph : TxConsensusGraph) (dtxcn : NodeRef)
    (childrenIn : ChildrenInside graph) (inside : dtxcn < graph.nodes.size) (enough : graph.potential < fuel) :
    ∃ final, deleteFuel fuel graph dtxcn = some final ∧ Falls graph final := by
  induction fuel generalizing graph dtxcn with
  | zero => omega
  | succ fuel ih =>
    have written : Falls graph (deleteWrites graph dtxcn) := by
      unfold deleteWrites
      split <;> exact ⟨rfl, rfl, fun _ => rfl, Nat.le_refl _⟩
    have child : ∀ current, Falls graph current → ∀ target < graph.nodes.size,
        ChildrenInside current ∧ target < current.nodes.size ∧ current.potential < fuel + 1 := by
      intro current falls target below
      exact ⟨falls.childrenInside childrenIn, falls.size ▸ below, Nat.lt_of_le_of_lt falls.potential enough⟩
    unfold deleteFuel
    dsimp only
    obtain ⟨middle, unLoop, reached⟩ := foldlM_returns (Falls graph) (fun current unchildtxcn =>
        if ((current.dropUNParent unchildtxcn (graph.txIdOf dtxcn)).node unchildtxcn).parentNum = 0 then
          deleteFuel fuel ((current.dropUNParent unchildtxcn (graph.txIdOf dtxcn)).commit unchildtxcn) unchildtxcn
        else some (current.dropUNParent unchildtxcn (graph.txIdOf dtxcn)))
      ((deleteWrites graph dtxcn).childrenOf dtxcn).unChildNodes (by
        intro current target member falls
        rw [written.childrenOf] at member
        obtain ⟨current', below, limit⟩ :=
          child current falls target (childrenIn dtxcn inside target (.inr member))
        obtain ⟨next, done, later⟩ := release_returns (fun next => ih next target) current' below limit
          (decremented_dropUNParent current target (graph.txIdOf dtxcn))
        exact ⟨next, done, falls.trans later⟩) _ written
    rw [unLoop, Option.bind_some]
    split
    · refine foldlM_returns (Falls graph) _ _ ?_ middle reached
      intro current target member falls
      rw [reached.childrenOf] at member
      obtain ⟨current', below, limit⟩ :=
        child current falls target (childrenIn dtxcn inside target (.inl member))
      split
      next alive =>
        obtain ⟨abort, lower⟩ := falls_abort below alive
        obtain ⟨next, done, later⟩ := ih _ target (abort.childrenInside current') (abort.size ▸ below) (by omega)
        exact ⟨next, done, (falls.trans abort).trans later⟩
      · exact ⟨current, rfl, falls⟩
    · refine foldlM_returns (Falls graph) _ _ ?_ middle reached
      intro current target member falls
      rw [reached.childrenOf] at member
      obtain ⟨current', below, limit⟩ :=
        child current falls target (childrenIn dtxcn inside target (.inl member))
      obtain ⟨next, done, later⟩ := release_returns (fun next => ih next target) current' below limit
        (decremented_dropParent current target (graph.txIdOf dtxcn))
      exact ⟨next, done, falls.trans later⟩

/-- Every call of `Delete` on a bounded graph returns. -/
theorem delete_returns {dtxcn : NodeRef} (bounded : Bounded graph tasks)
    (inside : dtxcn < graph.nodes.size) : ∃ final, delete graph dtxcn = some final := by
  have enough := potential_le graph
  obtain ⟨final, done, _⟩ := deleteFuel_returns (3 * graph.nodes.size + 1) graph dtxcn
    bounded.childrenInside inside (by omega)
  exact ⟨final, done⟩

theorem finish_returns {txCN : NodeRef} (bounded : Bounded graph []) (inside : txCN < graph.nodes.size) :
    ∃ final, finish txCN graph = some final := by
  unfold finish
  split
  · have committed : ChildrenInside (graph.commit txCN) := by
      have change := restated_commit graph txCN
      have same : ∀ target, (graph.commit txCN).childrenOf target = graph.childrenOf target := by
        intro target
        rw [← change.childrenOf, expandDelete, childrenOf_deleteWrites]
      intro owner below child member
      rw [same] at member
      exact bounded.childrenInside owner below child member
    have enough := potential_le (graph.commit txCN)
    obtain ⟨final, done, _⟩ := deleteFuel_returns (3 * (graph.commit txCN).nodes.size + 1)
      (graph.commit txCN) txCN committed inside (by omega)
    exact ⟨final, done⟩
  · split
    · exact delete_returns bounded inside
    · exact ⟨graph, rfl⟩

/-- A node without children only writes the state. -/
theorem delete_childless {graph : TxConsensusGraph}
    (childless : graph.childrenOf target = ⟨[], []⟩) : delete graph target = some (deleteWrites graph target) := by
  have same : (deleteWrites graph target).childrenOf target = ⟨[], []⟩ := by
    unfold deleteWrites
    split <;> exact childless
  simp [delete, deleteFuel, same]

/-- A transaction without parents commits on arrival when no transaction waits for it. -/
theorem processTX_plain {graph : TxConsensusGraph} {choosed : GVNode} (order : RangeOrder RangeSite)
    (unread : choosed.pTx = ∅) (unordered : choosed.unPTx = ∅) (decided : choosed.consensusState = 0)
    (unawaited : graph.waitUnChoosedTxCNs.lookup choosed.txId = none) :
    ∃ final, processTX order graph.nodes.size (graph.newNode choosed) = some final ∧
      final.readyBatch = graph.readyBatch ++ [choosed.txResult] ∧
      final.waitUnChoosedTxCNs = graph.waitUnChoosedTxCNs := by
  have created := node_newNode_new graph choosed
  have missing : (graph.newNode choosed).waitUnChoosedTxCNs.lookup
      ((graph.newNode choosed).node graph.nodes.size).choosedNode.txId = none := by
    rw [created]
    exact unawaited
  have childless : (graph.newNode choosed).childrenOf graph.nodes.size = ⟨[], []⟩ := by
    rw [childrenOf, created]
    exact Heap.read_alloc_new graph.childLists _
  have kept : (graph.newNode choosed).readyBatch = graph.readyBatch ∧
      (graph.newNode choosed).waitUnChoosedTxCNs = graph.waitUnChoosedTxCNs := ⟨rfl, rfl⟩
  rw [← kept.1, ← kept.2]
  generalize graph.newNode choosed = start at *
  generalize graph.nodes.size = txCN at *
  have checked : checkWait txCN start = start := by
    rw [checkWait, missing, created, decided]
    rfl
  have resolved : resolveConsensus order txCN start = start := by
    rw [resolveConsensus, created, decided]
    rfl
  have entered : enterGraph order txCN start = some { start with txCNs := start.txCNs.insert choosed.txId txCN } := by
    simp only [enterGraph, created, unread, unordered, AList.empty_entries, RangeOrder.visit_nil, visitParents,
      Option.map_some, List.map_nil, List.foldl_nil, ite_self]
  have prepared : prepareTX order txCN start = some { start with txCNs := start.txCNs.insert choosed.txId txCN } := by
    simp [prepareTX, consensusPanics, checked, resolved, created, entered, decided]
  unfold processTX
  rw [prepared, txIdOf, missing, Option.bind_some]
  generalize entering : ({ start with txCNs := _ } : TxConsensusGraph) = entry
  have node : entry.node txCN = start.node txCN := by rw [← entering]; rfl
  have lists : entry.childrenOf txCN = ⟨[], []⟩ := by rw [← entering]; exact childless
  have committed : (entry.commit txCN).childrenOf txCN = ⟨[], []⟩ := by
    rw [childrenOf, node_commit, if_pos rfl]
    exact lists
  refine ⟨deleteWrites (entry.commit txCN) txCN, ?_, ?_⟩
  · have alive : (entry.node txCN).state ≠ .changedState ∧ (entry.node txCN).parentNum = 0 := by
      rw [node, created]
      exact ⟨fun dead => (by cases dead), rfl⟩
    rw [Option.isSome_none, if_neg Bool.false_ne_true, finish, if_pos alive]
    exact delete_childless committed
  · have writes : (deleteWrites (entry.commit txCN) txCN).readyBatch = (entry.commit txCN).readyBatch ∧
        (deleteWrites (entry.commit txCN) txCN).waitUnChoosedTxCNs = entry.waitUnChoosedTxCNs := by
      unfold deleteWrites
      split <;> exact ⟨rfl, rfl⟩
    rw [writes.1, writes.2, ← entering]
    refine ⟨?_, rfl⟩
    show _ ++ [(start.node txCN).choosedNode.txResult] = _
    rw [created]
end Pobl.Partialorder
