import Pobl.Proof.Graph.Filed
import Pobl.Proof.Graph.Provenance

namespace Pobl.Partialorder

open Library Protos TxConsensusGraph List

variable {before graph graph' : TxConsensusGraph} {txCN : NodeRef} {choosed : GVNode} {cut : List Envelope}
  {order : RangeOrder RangeSite} {final : TxConsensusGraph}

/-- A read of the arriving transaction is wrong: a parent did not write what it has read, or the state
does not hold what it has read from a committed parent. -/
inductive Misread (before : TxConsensusGraph) (choosed : GVNode) : Prop where
  | writes (parent : NodeRef) (inside : parent < (before.newNode choosed).nodes.size) (ptx : PtxKV)
      (named : choosed.pTx.lookup ((before.newNode choosed).txIdOf parent) = some ptx)
      (mismatch : disagrees ((before.newNode choosed).node parent).choosedNode.writeSet ptx.kv = true)
  | state (parent : NodeRef) (inside : parent < before.nodes.size) (ptx : PtxKV)
      (named : choosed.pTx.lookup (before.txIdOf parent) = some ptx)
      (committed : (before.node parent).state = .committed)
      (mismatch : stale before.gState ptx = true)

/-- Why an arriving transaction is aborted by its own call: it has a wrong read, or a child that
arrived earlier claims a read from it that it does not write. -/
def Blame (before : TxConsensusGraph) (choosed : GVNode) : Prop :=
  Misread before choosed ∨ Contradicted before choosed.txId choosed.writeSet

/-- A claim of the arriving transaction on itself is one of its own reads. -/
theorem Contradicted.blame (contradicted : Contradicted (before.newNode choosed) choosed.txId choosed.writeSet) :
    Blame before choosed := by
  obtain ⟨child, inside, key, value, ⟨ptx, named, claimed⟩, wrong⟩ := contradicted
  rcases Nat.lt_succ_iff_lt_or_eq.mp inside with old | same
  · rw [newNode_old before choosed child old] at named
    exact .inr ⟨child, old, key, value, ⟨ptx, named, claimed⟩, wrong⟩
  · have self := node_newNode_new before choosed
    rw [same, self] at named
    refine .inl (.writes child inside ptx ?_ ?_)
    · unfold txIdOf
      rw [same, self]
      exact named
    · rw [same, self]
      exact (disagrees_eq_true_iff _ _).mpr ⟨key, value, claimed, wrong⟩

/-- The graph while the call judges the arriving node. -/
structure Judging (before : TxConsensusGraph) (choosed : GVNode) (graph : TxConsensusGraph) : Prop
    extends Extends (before.newNode choosed) graph where
  bounded : Bounded graph []
  traced : Traced graph []
  states : ∀ target < before.nodes.size, (graph.node target).state = (before.node target).state
  verdict : (graph.node before.nodes.size).state = .wait ∨ (graph.node before.nodes.size).state = .changedState
  dead : (graph.node before.nodes.size).state = .changedState → (before.nodes.size, .changedState) ∈ graph.stateLog
  gState : graph.gState = before.gState
  blame : ∀ target, (target, .changedState) ∈ graph.stateLog →
    (target, .changedState) ∈ before.stateLog ∨ target = before.nodes.size ∧
      (Blame before choosed ∨ ParentAborted graph before.nodes.size)

theorem newNode_judging (traced : Traced before []) (bounded : Bounded before []) (choosed : GVNode) :
    Judging before choosed (before.newNode choosed) where
  toExtends := .refl _
  bounded := bounded.newNode choosed
  traced := traced.newNode bounded choosed
  states target inside := by rw [newNode_old before choosed target inside]
  verdict := by
    rw [node_newNode_new]
    exact .inl rfl
  dead aborted := by
    rw [node_newNode_new] at aborted
    cases aborted
  gState := rfl
  blame _ logged := .inl logged

theorem Judging.inside (judging : Judging before choosed graph) : before.nodes.size < graph.nodes.size := by
  rw [judging.size]
  exact Nat.lt_succ_self _

theorem Judging.choosedNode (judging : Judging before choosed graph) :
    (graph.node before.nodes.size).choosedNode = choosed := by
  rw [judging.contents, node_newNode_new]

theorem Judging.name (judging : Judging before choosed graph) :
    graph.txIdOf before.nodes.size = choosed.txId := congrArg GVNode.txId judging.choosedNode

theorem Judging.old_or_new (judging : Judging before choosed graph) {target : NodeRef}
    (inside : target < graph.nodes.size) : target < before.nodes.size ∨ target = before.nodes.size := by
  rw [judging.size] at inside
  exact Nat.lt_succ_iff_lt_or_eq.mp inside

/-- Each reason for a rejection puts the blame on the reads, on a parent or on a claim. -/
theorem Judging.blame_of_reason (judging : Judging before choosed graph) (recorded : Recorded cut before)
    (fresh : Fresh before choosed) (zero : choosed.consensusState = 0) (reason : Reason before.nodes.size graph) :
    (before.nodes.size, .changedState) ∈ graph.stateLog ∨ Blame before choosed ∨
      ParentAborted graph before.nodes.size := by
  cases reason with
  | again dead => exact .inl (judging.dead dead)
  | consensus different =>
    rw [judging.choosedNode] at different
    exact absurd zero different
  | expected waitTxcn found conflict =>
    rcases judging.traced.expected _ waitTxcn found with ⟨owner, inside, name, logged⟩ | explained
    · rcases judging.old_or_new inside with old | same
      · rw [judging.name, judging.txIdOf] at name
        unfold TxConsensusGraph.txIdOf at name
        rw [newNode_old before choosed owner old] at name
        exact absurd name (fresh owner old)
      · exact .inl (same ▸ logged)
    · have contradicted := explained.2 _ conflict
      rw [judging.contradicted, judging.name, judging.choosedNode] at contradicted
      exact .inr (.inl contradicted.blame)
  | removed ptxid ptx waitTxcn named absent found dead =>
    rcases judging.traced.expected ptxid waitTxcn found with aborted | explained
    · exact .inr (.inr ⟨ptxid, ptx, named, aborted⟩)
    · exact absurd explained.1 dead
  | writes ptxid ptx ptxcn named found mismatch =>
    obtain ⟨inside, name⟩ := judging.bounded.present ptxid ptxcn found
    rw [judging.choosedNode] at named
    rw [judging.size] at inside
    rw [judging.contents] at mismatch
    rw [judging.txIdOf] at name
    exact .inr (.inl (.inl (.writes ptxcn inside ptx (name ▸ named) mismatch)))
  | stale ptxid ptx ptxcn named found committed mismatch =>
    obtain ⟨inside, name⟩ := judging.bounded.present ptxid ptxcn found
    rcases judging.old_or_new inside with old | same
    · rw [judging.choosedNode] at named
      rw [judging.states ptxcn old] at committed
      rw [judging.gState] at mismatch
      rw [judging.txIdOf] at name
      unfold TxConsensusGraph.txIdOf at name
      rw [newNode_old before choosed ptxcn old] at name
      subst name
      exact .inr (.inl (.inl (.state ptxcn old ptx named committed mismatch)))
    · rw [same] at committed
      rcases judging.verdict with waits | dead
      · rw [waits] at committed
        cases committed
      · rw [dead] at committed
        cases committed
  | parent ptxid ptx ptxcn named found dead =>
    obtain ⟨inside, name⟩ := judging.bounded.present ptxid ptxcn found
    rcases judging.old_or_new inside with old | same
    · rw [judging.states ptxcn old] at dead
      have logged := recorded.logged ptxcn old (by rw [dead]; exact NodeState.noConfusion)
      rw [dead] at logged
      exact .inr (.inr ⟨ptxid, ptx, named, ptxcn, inside, name, judging.log logged⟩)
    · exact .inl (judging.dead (same ▸ dead))

theorem Move.judging (move : Move before.nodes.size graph graph') (judging : Judging before choosed graph)
    (recorded : Recorded cut before) (fresh : Fresh before choosed)
    (zero : choosed.consensusState = 0) : Judging before choosed graph' := by
  have inside := judging.inside
  have change := move.extends inside
  have traced : Traced graph' [] :=
    ⟨move.lists judging.bounded inside judging.traced.lists,
      move.expected inside judging.dead judging.traced.expected, nofun⟩
  have gState := move.gState.trans judging.gState
  have aborted : ParentAborted graph before.nodes.size → ParentAborted graph' before.nodes.size :=
    change.parentAborted
  rcases move.rejects_or_keeps with ⟨reason, same⟩ | ⟨log, states⟩
  · have blamed := judging.blame_of_reason recorded fresh zero reason
    have state := abort_state graph before.nodes.size
    have others := fun target different =>
      congrArg TxConsensusNode.state ((restated_abort graph before.nodes.size).others target different)
    have logged : graph'.stateLog = graph.stateLog ++ [(before.nodes.size, .changedState)] := by
      rw [same]
      rfl
    rw [← same] at state others
    refine ⟨judging.toExtends.trans change, move.bounded judging.bounded inside, traced, ?_, .inr state, ?_,
      gState, ?_⟩
    · intro target below
      exact (others target (Nat.ne_of_lt below)).trans (judging.states target below)
    · intro _
      rw [logged]
      exact mem_append_right _ (mem_singleton_self _)
    · intro target member
      have old : (target, .changedState) ∈ graph.stateLog →
          (target, .changedState) ∈ before.stateLog ∨ target = before.nodes.size ∧
            (Blame before choosed ∨ ParentAborted graph' before.nodes.size) := fun known =>
        (judging.blame target known).imp_right fun new => ⟨new.1, new.2.imp_right aborted⟩
      rw [logged, mem_append, mem_singleton] at member
      rcases member with known | new
      · exact old known
      · cases new
        rcases blamed with known | blame
        · exact old known
        · exact .inr ⟨rfl, blame.imp_right aborted⟩
  · refine ⟨judging.toExtends.trans change, move.bounded judging.bounded inside, traced, ?_, ?_, ?_, gState, ?_⟩
    · intro target below
      exact (states target).trans (judging.states target below)
    · rw [states]
      exact judging.verdict
    · rw [states, log]
      exact judging.dead
    · intro target member
      rw [log] at member
      exact (judging.blame target member).imp_right fun new => ⟨new.1, new.2.imp_right aborted⟩

section

variable (bounded : Bounded graph []) (inside : txCN < graph.nodes.size)
  (noUN : (graph.node txCN).choosedNode.unPTx = ∅)

include bounded inside noUN

/-- A node without other parents enters the graph in moves. -/
theorem enterGraph_moves (alive : (graph.node txCN).state ≠ .changedState)
    (done : enterGraph order txCN graph = some final) : Moves txCN graph final := by
  have move : Move txCN graph { graph with txCNs := graph.txCNs.insert (graph.txIdOf txCN) txCN } :=
    .enter alive
  have entered := Ready.enter bounded inside alive
  have others : order.visit .unPTx (graph.node txCN).choosedNode.unPTx.entries = [] := by
    rw [noUN]
    exact (order.perm .unPTx _).eq_nil
  unfold enterGraph at done
  dsimp only at done
  rw [others, map_nil] at done
  obtain ⟨visited, loop, same⟩ := Option.map_eq_some_iff.mp done
  rw [foldl_nil, ite_self] at same
  have moves := visitParents_moves entered (fun entry member => by
    rw [← GoMap.mem_entries_iff, ← order.mem_visit .pTx]
    exact member) loop
  exact same ▸ (Moves.single move).trans moves

/-- The call judges a decoded transaction in moves. -/
theorem prepareTX_moves (zero : (graph.node txCN).choosedNode.consensusState = 0)
    (done : prepareTX order txCN graph = some final) : Moves txCN graph final := by
  have checked := checkWait_moves txCN graph
  have content := (checked.keeps.2 txCN).1
  have resolved : resolveConsensus order txCN (checkWait txCN graph) = checkWait txCN graph := by
    unfold resolveConsensus
    rw [content, if_neg (by omega)]
  unfold prepareTX at done
  dsimp only at done
  rw [resolved, if_neg (show ¬ consensusPanics order _ _ from fun stops => by
    rw [consensusPanics, content] at stops
    omega)] at done
  split at done
  · split at done
    next alive =>
      have kept : Bounded (checkWait txCN graph) [] ∧ txCN < (checkWait txCN graph).nodes.size :=
        checked.steps.bounded bounded inside
      exact checked.trans (enterGraph_moves kept.1 kept.2 (content ▸ noUN) alive done)
    · cases done
      exact checked
  · cases done
    exact checked

end

/-- An arrival is judged in moves. -/
theorem Bounded.arrival_moves (bounded : Bounded before []) (zero : choosed.consensusState = 0)
    (noUN : choosed.unPTx = ∅) (first : prepareTX order before.nodes.size (before.newNode choosed) = some graph) :
    Moves before.nodes.size (before.newNode choosed) graph := by
  have self := node_newNode_new before choosed
  exact prepareTX_moves (bounded.newNode choosed) (Nat.lt_succ_self _) (by rw [self]; exact noUN)
    (by rw [self]; exact zero) first

theorem Moves.judging (moves : Moves before.nodes.size graph graph') (judging : Judging before choosed graph)
    (recorded : Recorded cut before) (fresh : Fresh before choosed)
    (zero : choosed.consensusState = 0) : Judging before choosed graph' :=
  moves.induct (Judging before choosed) (fun _ _ move known => move.judging known recorded fresh zero) judging

/-- The graph while the cascade of a call runs. -/
structure Cascading (cut : List Envelope) (start graph : TxConsensusGraph) (tasks : List Task) : Prop
    extends Extends start graph where
  bounded : Bounded graph tasks
  recorded : Recorded cut graph
  traced : Traced graph tasks
  blame : ∀ target, (target, .changedState) ∈ graph.stateLog →
    (target, .changedState) ∈ start.stateLog ∨ ParentAborted graph target

theorem Recorded.dead_logged (recorded : Recorded cut graph) (target : NodeRef) (inside : target < graph.nodes.size)
    (dead : (graph.node target).state = .changedState) : (target, .changedState) ∈ graph.stateLog := by
  have logged := recorded.logged target inside (by
    rw [dead]
    exact NodeState.noConfusion)
  rw [dead] at logged
  exact logged

theorem Cascading.task {start : TxConsensusGraph} {task : Task} {rest : List Task}
    (cascading : Cascading cut start graph (task :: rest)) (inside : txCN < start.nodes.size) :
    Cascading cut start (task.perform graph).1 ((task.perform graph).2 ++ rest) := by
  have performed := task.performed graph
  have change := performed.extends (cascading.bounded.taskNode task mem_cons_self)
  obtain ⟨traced, blame⟩ := performed.traced cascading.traced cascading.bounded cascading.recorded.dead_logged
  have step : Step txCN graph (task :: rest) (task.perform graph).1 ((task.perform graph).2 ++ rest) :=
    .task task rest
  refine ⟨cascading.toExtends.trans change, performed.bounded cascading.bounded,
    step.recorded cascading.bounded (cascading.size.symm ▸ inside) cascading.recorded, traced, ?_⟩
  intro target logged
  rcases blame target logged with old | new
  · exact (cascading.blame target old).imp_right change.parentAborted
  · exact .inr new

/-- The commit of a node keeps the traces. -/
theorem Traced.commit (traced : Traced graph []) (target : NodeRef) (tasks : List Task)
    (noAbort : ∀ child, .abort child ∉ tasks) (change : Extends graph (expandDelete (graph.commit target) target).1) :
    Traced (expandDelete (graph.commit target) target).1 tasks := by
  have restated := restated_commit graph target
  refine ⟨?_, ?_, fun child member => absurd member (noAbort child)⟩
  · intro list below
    rw [restated.lists] at below
    obtain ⟨name, labelled⟩ := traced.lists list below
    exact ⟨name, labelled.restate change restated⟩
  · intro txid waitTxcn found
    rw [restated.waits] at found
    exact (traced.expected txid waitTxcn found).imp change.aborted change.explained

theorem finish_cascading (bounded : Bounded graph []) (inside : txCN < graph.nodes.size)
    (recorded : Recorded cut graph) (traced : Traced graph [])
    (done : finish txCN graph = some final) : Cascading cut graph final [] := by
  refine finish_invariant (Cascading cut graph) (fun current task rest known => known.task inside) ?_ ?_ ?_ done
  · exact ⟨.refl graph, bounded, recorded, traced, fun _ logged => .inl logged⟩
  · intro alive zero
    have step : Step txCN graph [] _ _ := .commit alive zero
    have restated := restated_commit graph txCN
    have log := commit_log graph txCN
    have change : Extends graph (expandDelete (graph.commit txCN) txCN).1 :=
      ⟨restated.size, restated.choosedNode, log ▸ subset_append_left _ _⟩
    refine ⟨change, step.bounded bounded inside, step.recorded bounded inside recorded,
      traced.commit txCN _ (fun child => abort_not_mem_expandDelete child) change, ?_⟩
    intro target logged
    rw [log, mem_append, mem_singleton] at logged
    rcases logged with old | new
    · exact .inl old
    · cases new
  · intro dead
    have step : Step txCN graph [] _ _ := .abort dead
    have same := expandDelete_changed dead
    refine ⟨?_, step.bounded bounded inside, step.recorded bounded inside recorded, ?_, ?_⟩
    · rw [same]
      exact .refl graph
    · rw [same]
      exact ⟨traced.lists, traced.expected, fun child member =>
        absurd member (abort_not_mem_expandDelete child)⟩
    · rw [same]
      exact fun _ logged => .inl logged

/-- The node takes over its wait entry without a new verdict. -/
theorem takeWait_traced (traced : Traced graph []) (inside : txCN < graph.nodes.size)
    (recorded : Recorded cut graph) : Traced (takeWait txCN graph) [] ∧
      Extends graph (takeWait txCN graph) ∧ (takeWait txCN graph).stateLog = graph.stateLog := by
  cases found : graph.waitUnChoosedTxCNs.lookup (graph.txIdOf txCN) with
  | none =>
    rw [takeWait_none found]
    exact ⟨traced, .refl graph, rfl⟩
  | some waitTxcn =>
    have change := takeWait_handedOver found
    refine ⟨traced.handOver change inside found (recorded.dead_logged txCN inside), ?_, change.log⟩
    exact ⟨change.size, fun target => (change.nodes target).1, change.log ▸ List.Subset.refl _⟩

/-- Every abort of a call has a reason in the graph before the call, or an aborted parent. -/
theorem processTX_blame (bounded : Bounded before []) (recorded : Recorded cut before) (traced : Traced before [])
    (fresh : Fresh before choosed) (zero : choosed.consensusState = 0) (noUN : choosed.unPTx = ∅)
    (done : processTX order before.nodes.size (before.newNode choosed) = some final) :
    Traced final [] ∧ Extends (before.newNode choosed) final ∧ ∀ target, (target, .changedState) ∈ final.stateLog →
        (target, .changedState) ∈ before.stateLog ∨ ParentAborted final target ∨
          target = before.nodes.size ∧ Blame before choosed := by
  have start := bounded.newNode choosed
  have inside : before.nodes.size < (before.newNode choosed).nodes.size := Nat.lt_succ_self _
  obtain ⟨prepared, first, last⟩ := Option.bind_eq_some_iff.mp done
  have moves := bounded.arrival_moves zero noUN first
  have judging := moves.judging (newNode_judging traced bounded choosed) recorded fresh zero
  have prepares := moves.steps
  have record : Recorded cut prepared := prepares.recorded start inside (recorded.newNode choosed)
  have completes : ∃ taken, Extends prepared taken ∧ taken.stateLog = prepared.stateLog ∧
      Cascading cut taken final [] := by
    split at last
    · have steps := takeWait_steps before.nodes.size prepared
      obtain ⟨boundedAfter, insideAfter⟩ := steps.bounded judging.bounded judging.inside
      obtain ⟨tracedAfter, change, log⟩ := takeWait_traced judging.traced judging.inside record
      exact ⟨_, change, log, finish_cascading boundedAfter insideAfter
        (steps.recorded judging.bounded judging.inside record) tracedAfter last⟩
    · exact ⟨prepared, .refl prepared, rfl,
        finish_cascading judging.bounded judging.inside record judging.traced last⟩
  obtain ⟨taken, change, log, cascading⟩ := completes
  have completed := change.trans cascading.toExtends
  refine ⟨cascading.traced, judging.toExtends.trans completed, ?_⟩
  intro target logged
  rcases cascading.blame target logged with old | parent
  · rw [log] at old
    rcases judging.blame target old with earlier | ⟨same, blame | parent⟩
    · exact .inl earlier
    · exact .inr (.inr ⟨same, blame⟩)
    · exact .inr (.inl (same ▸ completed.parentAborted parent))
  · exact .inr (.inl parent)

end Pobl.Partialorder
