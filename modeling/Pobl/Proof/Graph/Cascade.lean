/-
This file cuts the recursion of `Delete` into single loop iterations.
An invariant of every iteration is an invariant of the whole cascade.
-/

import Pobl.Proof.Graph.Operations

namespace Pobl.Partialorder

open Library Protos TxConsensusGraph List

/-- A task is one iteration of a loop of `Delete`, or its branch between the loops.
Each task keeps the identifier of the node whose deletion created it. -/
inductive Task where
  | releaseUN (txid : TxId) (child : NodeRef)
  | branch (txid : TxId) (dtxcn : NodeRef)
  | abort (child : NodeRef)
  | release (txid : TxId) (child : NodeRef)

/-- The call of `Delete` writes the state and leaves its loops as tasks. -/
def expandDelete (graph : TxConsensusGraph) (dtxcn : NodeRef) : TxConsensusGraph × List Task :=
  (deleteWrites graph dtxcn, (graph.childrenOf dtxcn).unChildNodes.map (Task.releaseUN (graph.txIdOf dtxcn)) ++
      [.branch (graph.txIdOf dtxcn) dtxcn])

/-- One task changes the graph and leaves the tasks of the nested call. -/
def Task.perform (graph : TxConsensusGraph) : Task → TxConsensusGraph × List Task
  | .releaseUN txid child =>
    let graph := graph.dropUNParent child txid
    if (graph.node child).parentNum = 0 then expandDelete (graph.commit child) child
    else (graph, [])
  | .branch txid dtxcn =>
    if (graph.node dtxcn).state = .changedState then
      (graph, (graph.childrenOf dtxcn).nChildNodes.map Task.abort)
    else (graph, (graph.childrenOf dtxcn).nChildNodes.map (Task.release txid))
  | .abort child =>
    if (graph.node child).state ≠ .changedState then
      expandDelete (graph.setState child .changedState) child
    else (graph, [])
  | .release txid child =>
    let graph := graph.dropParent child txid
    if (graph.node child).parentNum = 0 then expandDelete (graph.commit child) child
    else (graph, [])

@[simp] theorem childrenOf_deleteWrites (graph : TxConsensusGraph) (dtxcn other : NodeRef) :
    (deleteWrites graph dtxcn).childrenOf other = graph.childrenOf other := by
  unfold deleteWrites
  split <;> rfl

/-- A loop keeps the invariant when each of its iterations consumes one task. -/
theorem foldlM_consumes {State Item Todo : Type} (invariant : State → List Todo → Prop)
    (body : State → Item → Option State) (task : Item → Todo)
    (each : ∀ state item next rest, body state item = some next →
      invariant state (task item :: rest) → invariant next rest)
    (items : List Item) (state final : State) (rest : List Todo)
    (done : items.foldlM body state = some final)
    (holds : invariant state (items.map task ++ rest)) : invariant final rest := by
  induction items generalizing state with
  | nil =>
    cases done
    exact holds
  | cons item items ih =>
    obtain ⟨next, first, later⟩ := Option.bind_eq_some_iff.mp done
    exact ih next later (each state item next _ first holds)

section

variable (invariant : TxConsensusGraph → List Task → Prop)
  (preserved : ∀ graph task rest, invariant graph (task :: rest) →
    invariant (task.perform graph).1 ((task.perform graph).2 ++ rest))

include invariant preserved

/-- The cascade keeps every invariant that each task keeps. -/
theorem deleteFuel_invariant (fuel : Nat) (graph final : TxConsensusGraph) (dtxcn : NodeRef) (rest : List Task)
    (done : deleteFuel fuel graph dtxcn = some final)
    (holds : invariant (expandDelete graph dtxcn).1 ((expandDelete graph dtxcn).2 ++ rest)) :
    invariant final rest := by
  induction fuel generalizing graph final dtxcn rest with
  | zero => cases done
  | succ fuel ih =>
    obtain ⟨middle, unLoop, nLoop⟩ := Option.bind_eq_some_iff.mp done
    rw [childrenOf_deleteWrites] at unLoop
    simp only [expandDelete, append_assoc, singleton_append] at holds
    -- One iteration makes the nested call or leaves the graph as it is.
    have iterate {condition : Prop} [Decidable condition] {deleted kept next : TxConsensusGraph} {child : NodeRef}
        {rest : List Task}
        (stepped : (if condition then deleteFuel fuel deleted child else some kept) = some next)
        (performed : invariant (if condition then expandDelete deleted child else (kept, [])).1
          ((if condition then expandDelete deleted child else (kept, [])).2 ++ rest)) : invariant next rest := by
      split at stepped
      next holds =>
        rw [if_pos holds] at performed
        exact ih _ _ _ _ stepped performed
      next fails =>
        rw [if_neg fails] at performed
        cases stepped
        exact performed
    have branched : invariant middle (.branch (graph.txIdOf dtxcn) dtxcn :: rest) := by
      refine foldlM_consumes invariant _ (Task.releaseUN (graph.txIdOf dtxcn)) ?_ _ _ _ _ unLoop holds
      exact fun current child next rest stepped pending => iterate stepped (preserved current _ rest pending)
    have performed := preserved middle _ rest branched
    unfold Task.perform at performed
    dsimp only at performed
    split at nLoop
    next changed =>
      rw [if_pos changed] at performed
      refine foldlM_consumes invariant _ Task.abort ?_ _ _ _ _ nLoop performed
      exact fun current child next rest stepped pending => iterate stepped (preserved current _ rest pending)
    next unchanged =>
      rw [if_neg unchanged] at performed
      refine foldlM_consumes invariant _ (Task.release (graph.txIdOf dtxcn)) ?_ _ _ _ _ nLoop performed
      exact fun current child next rest stepped pending => iterate stepped (preserved current _ rest pending)

/-- The end of a call keeps every invariant that its first step and each task keep. -/
theorem finish_invariant {txCN : NodeRef} {graph final : TxConsensusGraph} (initially : invariant graph [])
    (commits : (graph.node txCN).state ≠ .changedState → (graph.node txCN).parentNum = 0 →
      invariant (expandDelete (graph.commit txCN) txCN).1 (expandDelete (graph.commit txCN) txCN).2)
    (aborts : (graph.node txCN).state = .changedState →
      invariant (expandDelete graph txCN).1 (expandDelete graph txCN).2)
    (done : finish txCN graph = some final) : invariant final [] := by
  unfold finish at done
  split at done
  next ready =>
    refine deleteFuel_invariant invariant preserved _ _ final txCN [] done ?_
    rw [append_nil]
    exact commits ready.1 ready.2
  · split at done
    next dead =>
      refine deleteFuel_invariant invariant preserved _ _ final txCN [] done ?_
      rw [append_nil]
      exact aborts dead
    · cases done
      exact initially

end

/-- The two graphs differ, in what the counters read, only in the state of one node. -/
structure Restated (graph graph' : TxConsensusGraph) (target : NodeRef) : Prop where
  size : graph'.nodes.size = graph.nodes.size
  lists : graph'.childLists = graph.childLists
  waits : graph'.waitUnChoosedTxCNs = graph.waitUnChoosedTxCNs
  present : graph'.txCNs = graph.txCNs
  others : ∀ other ≠ target, graph'.node other = graph.node other
  self : graph'.node target = { graph.node target with state := (graph'.node target).state }

namespace Restated

variable {graph graph' : TxConsensusGraph} {target : NodeRef}

theorem refl (graph : TxConsensusGraph) (target : NodeRef) : Restated graph graph target :=
  ⟨rfl, rfl, rfl, rfl, fun _ _ => rfl, rfl⟩

variable (change : Restated graph graph' target) (other : NodeRef)

include change

theorem childNodes : (graph'.node other).childNodes = (graph.node other).childNodes := by
  by_cases same : other = target
  · rw [same, change.self]
  · rw [change.others other same]

theorem choosedNode : (graph'.node other).choosedNode = (graph.node other).choosedNode := by
  by_cases same : other = target
  · rw [same, change.self]
  · rw [change.others other same]

theorem parentNum : (graph'.node other).parentNum = (graph.node other).parentNum := by
  by_cases same : other = target
  · rw [same, change.self]
  · rw [change.others other same]

theorem childrenOf : graph'.childrenOf other = graph.childrenOf other := by
  unfold TxConsensusGraph.childrenOf
  rw [change.lists, change.childNodes]

theorem nList : graph'.nList = graph.nList := by
  unfold TxConsensusGraph.nList
  rw [change.lists]

theorem unList : graph'.unList = graph.unList := by
  unfold TxConsensusGraph.unList
  rw [change.lists]

theorem txIdOf : graph'.txIdOf other = graph.txIdOf other := by
  unfold TxConsensusGraph.txIdOf
  rw [change.choosedNode]

end Restated

variable {graph graph' : TxConsensusGraph} {target : NodeRef}

theorem expandDelete_changed (changed : (graph.node target).state = .changedState) :
    (expandDelete graph target).1 = graph := by
  unfold expandDelete deleteWrites
  rw [if_neg]
  rw [changed]
  decide

section Verdicts

variable (graph target)

theorem restated_commit : Restated graph (expandDelete (graph.commit target) target).1 target := by
  have written : (expandDelete (graph.commit target) target).1.nodes = (graph.commit target).nodes := by
    unfold expandDelete deleteWrites
    split <;> rfl
  have node : ∀ other, (expandDelete (graph.commit target) target).1.node other =
      (graph.commit target).node other := fun other => congrArg (fun heap => heap.read other) written
  refine ⟨?_, ?_, ?_, ?_, ?_, ?_⟩
  · rw [written]
    rfl
  · unfold expandDelete deleteWrites
    split <;> rfl
  · unfold expandDelete deleteWrites
    split <;> rfl
  · unfold expandDelete deleteWrites
    split <;> rfl
  · intro other different
    rw [node, node_commit, if_neg different]
  · rw [node, node_commit, if_pos rfl]

theorem commit_state : ((expandDelete (graph.commit target) target).1.node target).state = .committed := by
  have committed : ((graph.commit target).node target).state = .committed := by
    rw [node_commit, if_pos rfl]
  unfold expandDelete deleteWrites
  rw [if_pos committed]
  exact committed

theorem commit_log : (expandDelete (graph.commit target) target).1.stateLog =
      graph.stateLog ++ [(target, .committed)] := by
  unfold expandDelete deleteWrites
  split <;> rfl

theorem commit_tasks : (expandDelete (graph.commit target) target).2 = (expandDelete graph target).2 := by
  have same := node_commit graph target target
  rw [if_pos rfl] at same
  unfold expandDelete TxConsensusGraph.childrenOf txIdOf
  rw [same]
  rfl

theorem abort_state : ((graph.setState target .changedState).node target).state = .changedState := by
  rw [node_setState, if_pos rfl]

theorem abort_tasks :
    (expandDelete (graph.setState target .changedState) target).2 = (expandDelete graph target).2 := by
  have same := node_setState graph target target .changedState
  rw [if_pos rfl] at same
  unfold expandDelete TxConsensusGraph.childrenOf txIdOf
  rw [same]
  rfl

theorem restated_abort : Restated graph (graph.setState target .changedState) target := by
  refine ⟨rfl, rfl, rfl, rfl, ?_, ?_⟩
  · intro other different
    rw [node_setState, if_neg different]
  · rw [node_setState, if_pos rfl]

end Verdicts

theorem branch_expandDelete (txid : TxId) (dtxcn : NodeRef)
    (member : .branch txid dtxcn ∈ (expandDelete graph target).2) : dtxcn = target := by
  rcases mem_append.mp member with un | branch
  · obtain ⟨child, _, different⟩ := mem_map.mp un
    cases different
  · cases mem_singleton.mp branch
    rfl

theorem abort_not_mem_expandDelete (child : NodeRef) : .abort child ∉ (expandDelete graph target).2 := by
  intro member
  rcases mem_append.mp member with un | branch
  · obtain ⟨other, _, different⟩ := mem_map.mp un
    cases different
  · cases mem_singleton.mp branch

/-- One place of a node is released and its counter goes down. -/
structure Decremented (graph graph' : TxConsensusGraph) (target : NodeRef) : Prop where
  size : graph'.nodes.size = graph.nodes.size
  lists : graph'.childLists = graph.childLists
  waits : graph'.waitUnChoosedTxCNs = graph.waitUnChoosedTxCNs
  present : graph'.txCNs = graph.txCNs
  log : graph'.stateLog = graph.stateLog
  gState : graph'.gState = graph.gState
  readyBatch : graph'.readyBatch = graph.readyBatch
  numGCommittedNode : graph'.numGCommittedNode = graph.numGCommittedNode
  nodes : ∀ other, (graph'.node other).choosedNode = (graph.node other).choosedNode ∧
    (graph'.node other).childNodes = (graph.node other).childNodes ∧
    (graph'.node other).state = (graph.node other).state
  parentNum : ∀ other, (graph'.node other).parentNum = (graph.node other).parentNum - if target = other then 1 else 0

theorem decremented_modifyNode (graph : TxConsensusGraph) (target : NodeRef)
    (change : TxConsensusNode → TxConsensusNode) (kept : ∀ node, (change node).choosedNode = node.choosedNode ∧
      (change node).childNodes = node.childNodes ∧ (change node).state = node.state)
    (minus : ∀ node, (change node).parentNum = node.parentNum - 1) :
    Decremented graph (graph.modifyNode target change) target := by
  refine ⟨rfl, rfl, rfl, rfl, rfl, rfl, rfl, rfl, ?_, ?_⟩
  · intro other
    rw [node_modifyNode]
    split
    next same =>
      rw [same]
      exact kept _
    · exact ⟨rfl, rfl, rfl⟩
  · intro other
    rw [node_modifyNode]
    by_cases same : other = target
    · rw [if_pos same, if_pos same.symm, same]
      exact minus _
    · rw [if_neg same, if_neg (Ne.symm same)]
      omega

theorem decremented_dropParent (graph : TxConsensusGraph) (target : NodeRef) (txid : TxId) :
    Decremented graph (graph.dropParent target txid) target :=
  decremented_modifyNode graph target _ (fun _ => ⟨rfl, rfl, rfl⟩) (fun _ => rfl)

theorem decremented_dropUNParent (graph : TxConsensusGraph) (target : NodeRef) (txid : TxId) :
    Decremented graph (graph.dropUNParent target txid) target :=
  decremented_modifyNode graph target _ (fun _ => ⟨rfl, rfl, rfl⟩) (fun _ => rfl)

theorem Decremented.nList (change : Decremented graph graph' target) : graph'.nList = graph.nList := by
  unfold TxConsensusGraph.nList
  rw [change.lists]

theorem Decremented.txIdOf (change : Decremented graph graph' target) (other : NodeRef) :
    graph'.txIdOf other = graph.txIdOf other := by
  unfold TxConsensusGraph.txIdOf
  rw [(change.nodes other).1]

/-- The node whose counter a task decrements. -/
def Task.released : Task → Option NodeRef
  | .releaseUN _ child => some child
  | .branch _ _ => none
  | .abort _ => none
  | .release _ child => some child

/-- What a task does: it decrements a counter, commits a node at zero, opens the second loop,
or aborts a node. -/
inductive Performed (graph : TxConsensusGraph) : Task → TxConsensusGraph → List Task → Prop where
  | drops {task : Task} (dropped : TxConsensusGraph) (child : NodeRef)
      (releases : task.released = some child) (change : Decremented graph dropped child)
      (positive : (dropped.node child).parentNum ≠ 0) : Performed graph task dropped []
  | commits {task : Task} (dropped : TxConsensusGraph) (child : NodeRef)
      (releases : task.released = some child) (change : Decremented graph dropped child)
      (zero : (dropped.node child).parentNum = 0) :
      Performed graph task (expandDelete (dropped.commit child) child).1 (expandDelete dropped child).2
  | branchAborts (txid : TxId) (dtxcn : NodeRef) (dead : (graph.node dtxcn).state = .changedState) :
      Performed graph (.branch txid dtxcn) graph ((graph.childrenOf dtxcn).nChildNodes.map Task.abort)
  | branchReleases (txid : TxId) (dtxcn : NodeRef) (alive : (graph.node dtxcn).state ≠ .changedState) :
      Performed graph (.branch txid dtxcn) graph ((graph.childrenOf dtxcn).nChildNodes.map (Task.release txid))
  | aborts (child : NodeRef) (alive : (graph.node child).state ≠ .changedState) :
      Performed graph (.abort child) (graph.setState child .changedState) (expandDelete graph child).2
  | skips (child : NodeRef) (dead : (graph.node child).state = .changedState) :
      Performed graph (.abort child) graph []

theorem performed_release {task : Task} {dropped : TxConsensusGraph} {child : NodeRef}
    (releases : task.released = some child) (change : Decremented graph dropped child) :
    Performed graph task (if (dropped.node child).parentNum = 0 then expandDelete (dropped.commit child) child
        else (dropped, [])).1
      (if (dropped.node child).parentNum = 0 then expandDelete (dropped.commit child) child
        else (dropped, [])).2 := by
  split
  next zero =>
    rw [commit_tasks]
    exact .commits dropped child releases change zero
  next positive => exact .drops dropped child releases change positive

theorem Task.performed (graph : TxConsensusGraph) (task : Task) :
    Performed graph task (task.perform graph).1 (task.perform graph).2 := by
  cases task with
  | releaseUN txid child => exact performed_release rfl (decremented_dropUNParent graph child txid)
  | release txid child => exact performed_release rfl (decremented_dropParent graph child txid)
  | branch txid dtxcn =>
    unfold Task.perform
    dsimp only
    split
    next dead => exact .branchAborts txid dtxcn dead
    next alive => exact .branchReleases txid dtxcn alive
  | abort child =>
    unfold Task.perform
    dsimp only
    split
    next alive =>
      rw [expandDelete_changed (abort_state graph child), abort_tasks]
      exact .aborts child alive
    next dead => exact .skips child (not_not.mp dead)

/-- The committed nodes in the order of their commits. -/
def TxConsensusGraph.commits (graph : TxConsensusGraph) : List NodeRef :=
  graph.stateLog.filterMap fun entry => if entry.2 = .committed then some entry.1 else none

theorem TxConsensusGraph.mem_commits (graph : TxConsensusGraph) (target : NodeRef) :
    target ∈ graph.commits ↔ (target, NodeState.committed) ∈ graph.stateLog := by
  unfold commits
  simp only [mem_filterMap, Option.ite_none_right_eq_some, Option.some.injEq]
  constructor
  · rintro ⟨⟨node, state⟩, member, rfl, rfl⟩
    exact member
  · intro member
    exact ⟨_, member, rfl, rfl⟩

theorem commits_append {state : NodeState} (log : graph'.stateLog = graph.stateLog ++ [(target, state)]) :
    graph'.commits = graph.commits ++ if state = .committed then [target] else [] := by
  unfold commits
  rw [log, filterMap_append]
  split
  next committed =>
    rw [committed]
    rfl
  next different => simp [different]

end Pobl.Partialorder
