import Pobl.Library.Replay
import Pobl.Proof.Graph.Steps

namespace Pobl.Partialorder

open Library Protos TxConsensusGraph List

variable {graph graph' : TxConsensusGraph} {tasks tasks' added : List Task} {txCN : NodeRef}
  {before final : TxConsensusGraph} {cut : List Envelope} {order : RangeOrder RangeSite} {choosed : GVNode}
  {task : Task}

/-- A step keeps the states and their history, or it assigns the state of one node. -/
inductive Assigns (graph graph' : TxConsensusGraph) : Prop where
  | nothing (log : graph'.stateLog = graph.stateLog)
      (states : ∀ other, (graph'.node other).state = (graph.node other).state)
  | state (target : NodeRef) (inside : target < graph.nodes.size)
      (log : graph'.stateLog = graph.stateLog ++ [(target, (graph'.node target).state)])
      (states : ∀ other ≠ target, (graph'.node other).state = (graph.node other).state)

/-- A step emits nothing, or it commits one node: it appends its envelope and writes its state. -/
inductive Emits (graph graph' : TxConsensusGraph) : Prop where
  | nothing (gState : graph'.gState = graph.gState) (readyBatch : graph'.readyBatch = graph.readyBatch)
      (count : graph'.numGCommittedNode = graph.numGCommittedNode)
      (commits : graph'.commits = graph.commits)
  | node (target : NodeRef)
      (gState : graph'.gState = applyWriteSet graph.gState (graph.node target).choosedNode.writeSet)
      (readyBatch : graph'.readyBatch = graph.readyBatch ++ [(graph.node target).choosedNode.txResult])
      (count : graph'.numGCommittedNode = graph.numGCommittedNode + 1)
      (commits : graph'.commits = graph.commits ++ [target])

theorem commits_congr (log : graph'.stateLog = graph.stateLog) : graph'.commits = graph.commits := by
  unfold TxConsensusGraph.commits
  rw [log]

theorem commits_abort (graph : TxConsensusGraph) (target : NodeRef) :
    (graph.setState target .changedState).commits = graph.commits := by
  rw [commits_append rfl, if_neg (by decide), append_nil]

theorem emits_commit (graph : TxConsensusGraph) (target : NodeRef) :
    Emits graph (expandDelete (graph.commit target) target).1 := by
  have committed : ((graph.commit target).node target).state = .committed := by
    rw [node_commit, if_pos rfl]
  have content : ((graph.commit target).node target).choosedNode = (graph.node target).choosedNode := by
    rw [node_commit, if_pos rfl]
  have commits := commits_append (commit_log graph target)
  refine .node target ?_ ?_ ?_ commits
  · unfold expandDelete deleteWrites
    rw [if_pos committed, content]
    rfl
  · unfold expandDelete deleteWrites
    rw [if_pos committed]
    rfl
  · unfold expandDelete deleteWrites
    rw [if_pos committed]
    rfl

theorem Move.emits (move : Move txCN graph graph') : Emits graph graph' := by
  cases move with
  | note noted =>
    exact .nothing noted.gState noted.readyBatch noted.numGCommittedNode (commits_congr noted.log)
  | reject reason => exact .nothing rfl rfl rfl (commits_abort graph txCN)
  | enter | remove | registerWait | registerNode | tombstone | flag | await | expect =>
    exact .nothing rfl rfl rfl rfl

theorem Move.assigns (move : Move txCN graph graph') (inside : txCN < graph.nodes.size) : Assigns graph graph' := by
  cases move with
  | note noted =>
    refine .nothing noted.log fun other => ?_
    rw [noted.nodes other]
  | reject reason =>
    refine .state txCN inside ?_ fun other different => ?_
    · rw [abort_state]
      rfl
    · rw [node_setState, if_neg different]
  | registerWait | registerNode =>
    exact .nothing rfl fun other => ((enlisted_register graph _ txCN _).nodes other).2.2.1
  | enter | remove | tombstone | flag | await | expect => exact .nothing rfl fun _ => rfl

theorem Performed.emits (performed : Performed graph task graph' added) : Emits graph graph' := by
  cases performed with
  | drops dropped child releases change positive =>
    exact .nothing change.gState change.readyBatch change.numGCommittedNode (commits_congr change.log)
  | commits dropped child releases change zero =>
    cases emits_commit dropped child with
    | nothing gState readyBatch count commits =>
      exact .nothing (gState.trans change.gState) (readyBatch.trans change.readyBatch)
        (count.trans change.numGCommittedNode) (commits.trans (commits_congr change.log))
    | node target gState readyBatch count commits =>
      rw [change.gState, (change.nodes target).1] at gState
      rw [change.readyBatch, (change.nodes target).1] at readyBatch
      rw [change.numGCommittedNode] at count
      rw [commits_congr change.log] at commits
      exact .node target gState readyBatch count commits
  | branchAborts | branchReleases | skips => exact .nothing rfl rfl rfl rfl
  | aborts child alive => exact .nothing rfl rfl rfl (commits_abort graph child)

theorem Performed.assigns (performed : Performed graph task graph' added)
    (inside : task.target < graph.nodes.size) : Assigns graph graph' := by
  cases performed with
  | drops dropped child releases change positive =>
    exact .nothing change.log fun other => (change.nodes other).2.2
  | commits dropped child releases change zero =>
    have commit := restated_commit dropped child
    refine .state child (target_released releases ▸ inside) ?_ fun other different => ?_
    · rw [commit_log, commit_state, change.log]
    · rw [commit.others other different, (change.nodes other).2.2]
  | branchAborts | branchReleases | skips => exact .nothing rfl fun _ => rfl
  | aborts child alive =>
    refine .state child inside ?_ fun other different => ?_
    · rw [abort_state]
      rfl
    · rw [node_setState, if_neg different]

/-- Every step emits at most one node. -/
theorem Step.emits (step : Step txCN graph tasks graph' tasks') : Emits graph graph' := by
  cases step with
  | move move => exact move.emits
  | unMove move => cases move <;> exact .nothing rfl rfl rfl rfl
  | retarget pTx two => exact .nothing rfl rfl rfl rfl
  | takeWait waitTxcn found =>
    have change := takeWait_handedOver found
    exact .nothing change.gState change.readyBatch change.numGCommittedNode (commits_congr change.log)
  | commit alive free => exact emits_commit graph txCN
  | abort dead =>
    rw [expandDelete_changed dead]
    exact .nothing rfl rfl rfl rfl
  | task task rest => exact (task.performed graph).emits

/-- Every step assigns the state of at most one node. -/
theorem Step.assigns (step : Step txCN graph tasks graph' tasks') (bounded : Bounded graph tasks)
    (inside : txCN < graph.nodes.size) : Assigns graph graph' := by
  cases step with
  | move move => exact move.assigns inside
  | unMove move => exact .nothing (by cases move <;> rfl) fun other => (move.keeps.2.2 other).2.2
  | retarget pTx two =>
    refine .nothing rfl fun other => ?_
    rw [retarget_keeps]
  | takeWait waitTxcn found =>
    have change := takeWait_handedOver found
    exact .nothing change.log fun other => (change.nodes other).2.1
  | commit alive free =>
    have change := restated_commit graph txCN
    refine .state txCN inside ?_ fun other different => ?_
    · rw [commit_log, commit_state]
    · rw [change.others other different]
  | abort dead =>
    rw [expandDelete_changed dead]
    exact .nothing rfl fun _ => rfl
  | task task rest => exact (task.performed graph).assigns (bounded.taskNode task mem_cons_self)

/-- The history of the states only grows. -/
theorem Steps.grows {before after : TxConsensusGraph × List Task} (steps : Steps txCN before after)
    (bounded : Bounded before.1 before.2) (inside : txCN < before.1.nodes.size) :
    before.1.stateLog <+: after.1.stateLog := by
  induction steps with
  | refl => exact prefix_rfl
  | tail earlier step ih =>
    obtain ⟨known, below⟩ := Steps.bounded earlier bounded inside
    cases step.assigns known below with
    | nothing log states => exact log ▸ ih
    | state target targetIn log states => exact log ▸ ih.trans (prefix_append _ _)

/-- A write set as an entry of a log. -/
def logEntry (writeSet : GoMap GVWriteKV) : Key → Option Value :=
  fun key => (writeSet.lookup key).map GVWriteKV.value

/-- The value that the last of the write sets with this key gives it. -/
def replay (writeSets : List (GoMap GVWriteKV)) (key : Key) : Option Value :=
  writeSets.reverse.findSome? fun writeSet => logEntry writeSet key

theorem replay_eq (writeSets : List (GoMap GVWriteKV)) (key : Key) :
    replay writeSets key = Replay.replay (writeSets.map logEntry) key :=
  (Replay.replay_map_eq logEntry writeSets key).symm

/-- The write set that is applied to the state becomes the last one of the replay. -/
theorem lookup_applyWriteSet {writeSets : List (GoMap GVWriteKV)} {gState : GoMap Value} {key : Key}
    (writeSet : GoMap GVWriteKV) (before : gState.lookup key = replay writeSets key) :
    (applyWriteSet gState writeSet).lookup key = replay (writeSets ++ [writeSet]) key := by
  refine (GoMap.lookup_merge writeSet (fun write _ => write.value) gState key).trans ?_
  rw [before, replay_eq, replay_eq, map_append, Replay.replay_append]
  rfl

namespace TxConsensusGraph

def envelopeOf (graph : TxConsensusGraph) (target : NodeRef) : Envelope :=
  (graph.node target).choosedNode.txResult

def writeSetOf (graph : TxConsensusGraph) (target : NodeRef) : GoMap GVWriteKV :=
  (graph.node target).choosedNode.writeSet

end TxConsensusGraph

/-- The history of the states accounts for the states of the nodes, the emitted envelopes, the state
and the commit counter. The list holds the envelopes that were cut before. -/
structure Recorded (cut : List Envelope) (graph : TxConsensusGraph) : Prop where
  inside : ∀ target state, (target, state) ∈ graph.stateLog → target < graph.nodes.size
  logged : ∀ target < graph.nodes.size, (graph.node target).state ≠ .wait →
    (target, (graph.node target).state) ∈ graph.stateLog
  batch : cut ++ graph.readyBatch = graph.commits.map graph.envelopeOf
  state : ∀ key, graph.gState.lookup key = replay (graph.commits.map graph.writeSetOf) key
  count : graph.numGCommittedNode = graph.commits.length

theorem Recorded.commit_inside (recorded : Recorded cut graph) (target : NodeRef)
    (member : target ∈ graph.commits) : target < graph.nodes.size :=
  recorded.inside target _ ((mem_commits graph target).mp member)

theorem Recorded.of_contents (recorded : Recorded cut graph) (size : graph'.nodes.size = graph.nodes.size)
    (assigns : Assigns graph graph') (emits : Emits graph graph')
    (contents : ∀ target, graph'.envelopeOf target = graph.envelopeOf target ∧
      graph'.writeSetOf target = graph.writeSetOf target) : Recorded cut graph' := by
  have envelopes : graph'.envelopeOf = graph.envelopeOf := funext fun target => (contents target).1
  have writes : graph'.writeSetOf = graph.writeSetOf := funext fun target => (contents target).2
  refine ⟨?_, ?_, ?_, ?_, ?_⟩
  · intro target state member
    rw [size]
    cases assigns with
    | nothing log states => exact recorded.inside target state (log ▸ member)
    | state changed changedIn log states =>
      rw [log, mem_append, mem_singleton, Prod.mk.injEq] at member
      rcases member with old | ⟨same, _⟩
      · exact recorded.inside target state old
      · exact same ▸ changedIn
  · intro target below decided
    rw [size] at below
    cases assigns with
    | nothing log states =>
      rw [states, log]
      exact recorded.logged target below (states target ▸ decided)
    | state changed changedIn log states =>
      rw [log, mem_append]
      by_cases same : target = changed
      · rw [same]
        exact .inr (mem_singleton_self _)
      · rw [states target same]
        exact .inl (recorded.logged target below (states target same ▸ decided))
  · rw [envelopes]
    cases emits with
    | nothing gState readyBatch count commits =>
      rw [readyBatch, commits]
      exact recorded.batch
    | node target gState readyBatch count commits =>
      rw [readyBatch, commits, ← append_assoc, recorded.batch, map_append]
      rfl
  · rw [writes]
    cases emits with
    | nothing gState readyBatch count commits =>
      rw [gState, commits]
      exact recorded.state
    | node target gState readyBatch count commits =>
      intro key
      rw [gState, commits, map_append]
      exact lookup_applyWriteSet _ (recorded.state key)
  · cases emits with
    | nothing gState readyBatch count commits =>
      rw [count, commits]
      exact recorded.count
    | node target gState readyBatch count commits =>
      rw [count, commits, recorded.count, length_append]
      rfl

theorem Step.recorded (step : Step txCN graph tasks graph' tasks') (bounded : Bounded graph tasks)
    (inside : txCN < graph.nodes.size) (recorded : Recorded cut graph) : Recorded cut graph' := by
  obtain ⟨size, contents⟩ := step.keeps
  apply recorded.of_contents size (step.assigns bounded inside) step.emits
  intro target
  unfold envelopeOf writeSetOf
  rw [(contents target).1]
  exact ⟨rfl, rfl⟩

theorem Steps.recorded {before after : TxConsensusGraph × List Task} (steps : Steps txCN before after)
    (bounded : Bounded before.1 before.2) (inside : txCN < before.1.nodes.size) (recorded : Recorded cut before.1) :
    Recorded cut after.1 := by
  induction steps with
  | refl => exact recorded
  | tail earlier step ih =>
    obtain ⟨known, below⟩ := Steps.bounded earlier bounded inside
    exact step.recorded known below ih

theorem Recorded.newNode (recorded : Recorded cut graph) (choosed : GVNode) :
    Recorded cut (graph.newNode choosed) := by
  have old := newNode_old graph choosed
  have envelopes : graph.commits.map (graph.newNode choosed).envelopeOf = graph.commits.map graph.envelopeOf := by
    apply map_congr_left
    intro target member
    unfold envelopeOf
    rw [old target (recorded.commit_inside target member)]
  have writes : graph.commits.map (graph.newNode choosed).writeSetOf = graph.commits.map graph.writeSetOf := by
    apply map_congr_left
    intro target member
    unfold writeSetOf
    rw [old target (recorded.commit_inside target member)]
  refine ⟨?_, ?_, recorded.batch.trans envelopes.symm, ?_, recorded.count⟩
  · exact fun target state member => Nat.lt_succ_of_lt (recorded.inside target state member)
  · intro target below decided
    rcases Nat.lt_succ_iff_lt_or_eq.mp below with inside | same
    · rw [old target inside] at decided ⊢
      exact recorded.logged target inside decided
    · rw [same, node_newNode_new] at decided
      exact absurd rfl decided
  · exact fun key => (recorded.state key).trans (congrArg (replay · key) writes.symm)

section

variable (bounded : Bounded before [])
  (done : processTX order before.nodes.size (before.newNode choosed) = some final)

include bounded done

/-- A call of `ProcessTX` keeps the record and only extends the history. -/
theorem processTX_recorded (recorded : Recorded cut before) :
    Bounded final [] ∧ Recorded cut final ∧ before.stateLog <+: final.stateLog := by
  have start := bounded.newNode choosed
  have inside : before.nodes.size < (before.newNode choosed).nodes.size := Nat.lt_succ_self _
  have steps := processTX_steps start inside done
  exact ⟨(steps.bounded start inside).1, steps.recorded start inside (recorded.newNode choosed),
    steps.grows start inside⟩

theorem processTX_envelopeOf : (∀ target < before.nodes.size, final.envelopeOf target = before.envelopeOf target) ∧
      final.envelopeOf before.nodes.size = choosed.txResult :=
  processTX_field bounded done GVNode.txResult fun _ _ => rfl

/-- A call of `ProcessTX` appends the envelopes of the nodes that it commits to the ready batch. -/
theorem processTX_emits (recorded : Recorded cut before) : ∃ new, final.commits = before.commits ++ new ∧
      final.readyBatch = before.readyBatch ++ new.map final.envelopeOf := by
  obtain ⟨_, after, log, grows⟩ := processTX_recorded bounded done recorded
  have commits : final.commits = before.commits ++
      log.filterMap fun entry => if entry.2 = .committed then some entry.1 else none := by
    unfold TxConsensusGraph.commits
    rw [← grows, filterMap_append]
  have old : before.commits.map final.envelopeOf = before.commits.map before.envelopeOf :=
    map_congr_left fun target member =>
      (processTX_envelopeOf bounded done).1 target (recorded.commit_inside target member)
  refine ⟨_, commits, ?_⟩
  have batch := after.batch
  rw [commits, map_append, old, ← recorded.batch, append_assoc] at batch
  exact append_cancel_left batch

end

end Pobl.Partialorder
