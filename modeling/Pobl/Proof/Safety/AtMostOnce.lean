/-
This file shows that no node commits twice, whatever parents it names.
A node commits when its counter is zero, and after its arrival the counter never grows.
-/

import Pobl.Proof.Graph.Blame

namespace Pobl.Partialorder

open Library Protos TxConsensusGraph List

variable {graph graph' : TxConsensusGraph} {txCN target : NodeRef}

/-- Every node has committed at most once, and a committed node waits for no parent. -/
structure CommitsOnce (graph : TxConsensusGraph) : Prop where
  once : graph.commits.Nodup
  spent : ∀ target ∈ graph.commits, (graph.node target).parentNum ≤ 0

section

variable (known : CommitsOnce graph)

include known

theorem CommitsOnce.keep (commits : graph'.commits = graph.commits)
    (counters : ∀ target ∈ graph.commits, (graph'.node target).parentNum ≤ (graph.node target).parentNum) :
    CommitsOnce graph' where
  once := commits ▸ known.once
  spent target member := by
    rw [commits] at member
    exact Int.le_trans (counters target member) (known.spent target member)

theorem CommitsOnce.commit (uncommitted : target ∉ graph.commits) (zero : (graph.node target).parentNum = 0) :
    CommitsOnce (expandDelete (graph.commit target) target).1 := by
  have commits := commits_append (commit_log graph target)
  have counters := (restated_commit graph target).parentNum
  rw [if_pos rfl] at commits
  refine ⟨?_, fun other member => ?_⟩
  · rw [commits]
    exact concat_eq_append ▸ known.once.concat uncommitted
  · rw [commits, mem_append, mem_singleton] at member
    rw [counters]
    rcases member with old | rfl
    · exact known.spent other old
    · exact Int.le_of_eq zero

/-- A task lowers the counter of a node before it commits the node. -/
theorem Performed.commitsOnce {task : Task} {added : List Task} (performed : Performed graph task graph' added) :
    CommitsOnce graph' := by
  have drop {dropped : TxConsensusGraph} {child : NodeRef} (change : Decremented graph dropped child) :
      CommitsOnce dropped := by
    refine known.keep (commits_congr change.log) fun other _ => ?_
    rw [change.parentNum]
    split <;> omega
  cases performed with
  | drops dropped child releases change => exact drop change
  | commits dropped child releases change zero =>
    -- The counter was one before the task, which it is for no node that has committed.
    refine (drop change).commit (fun member => ?_) zero
    have spent := known.spent child (commits_congr change.log ▸ member)
    rw [change.parentNum, if_pos rfl] at zero
    omega
  | aborts child alive =>
    refine known.keep (commits_abort graph child) fun other _ => ?_
    exact Int.le_of_eq ((restated_abort graph child).parentNum other)
  | branchAborts | branchReleases | skips => exact known

end

/-- A move commits nothing, and it changes no counter but that of its node. -/
theorem Move.counters (move : Move txCN graph graph') : graph'.commits = graph.commits ∧
    ∀ other ≠ txCN, (graph'.node other).parentNum = (graph.node other).parentNum := by
  cases move with
  | note noted => exact ⟨commits_congr noted.log, fun other _ => by rw [noted.nodes other]⟩
  | reject => exact ⟨commits_abort graph txCN, fun other _ => (restated_abort graph txCN).parentNum other⟩
  | registerWait | registerNode =>
    refine ⟨rfl, fun other different => ?_⟩
    rw [(enlisted_register graph _ txCN _).parentNum, if_neg different.symm, Int.add_zero]
  | enter | remove | tombstone | flag | await | expect => exact ⟨rfl, fun _ _ => rfl⟩

theorem Moves.commitsOnce (moves : Moves txCN graph graph') (known : CommitsOnce graph)
    (uncommitted : txCN ∉ graph.commits) : CommitsOnce graph' ∧ txCN ∉ graph'.commits := by
  refine moves.induct (fun graph => CommitsOnce graph ∧ txCN ∉ graph.commits) ?_ ⟨known, uncommitted⟩
  rintro graph graph' move ⟨known, uncommitted⟩
  obtain ⟨commits, counters⟩ := move.counters
  refine ⟨known.keep commits fun other member => ?_, commits ▸ uncommitted⟩
  exact Int.le_of_eq (counters other fun same => uncommitted (same ▸ member))

theorem takeWait_commitsOnce (known : CommitsOnce graph) :
    CommitsOnce (takeWait txCN graph) ∧ (takeWait txCN graph).commits = graph.commits := by
  cases found : graph.waitUnChoosedTxCNs.lookup (graph.txIdOf txCN) with
  | none =>
    rw [takeWait_none found]
    exact ⟨known, rfl⟩
  | some waitTxcn =>
    have change := takeWait_handedOver found
    have commits := commits_congr change.log
    exact ⟨known.keep commits fun other _ => Int.le_of_eq (change.nodes other).2.2, commits⟩

/-- A decoded transaction commits at most once, and it makes no other node commit again. -/
theorem processTX_commitsOnce {order : RangeOrder RangeSite} {before final : TxConsensusGraph} {choosed : GVNode}
    {cut : List Envelope} (bounded : Bounded before []) (recorded : Recorded cut before)
    (known : CommitsOnce before) (zero : choosed.consensusState = 0) (noUN : choosed.unPTx = ∅)
    (done : processTX order before.nodes.size (before.newNode choosed) = some final) : CommitsOnce final := by
  have inside (target : NodeRef) (member : target ∈ before.commits) := recorded.commit_inside target member
  have start : CommitsOnce (before.newNode choosed) := known.keep rfl fun target member =>
    Int.le_of_eq (by rw [newNode_old before choosed target (inside target member)])
  -- The moves of the arrival may raise the counter of the new node, which has not committed.
  obtain ⟨prepared, first, last⟩ := Option.bind_eq_some_iff.mp done
  have moves := bounded.arrival_moves zero noUN first
  obtain ⟨judged, uncommitted⟩ := moves.commitsOnce start fun member => Nat.lt_irrefl _ (inside _ member)
  have finishes {taken : TxConsensusGraph} (known : CommitsOnce taken) (same : taken.commits = prepared.commits)
      (last : finish before.nodes.size taken = some final) : CommitsOnce final := by
    refine finish_invariant (fun graph _ => CommitsOnce graph)
      (fun graph task _ known => (task.performed graph).commitsOnce known) known ?_ ?_ last
    · exact fun _ zero => known.commit (same ▸ uncommitted) zero
    · intro dead
      rw [expandDelete_changed dead]
      exact known
  split at last
  · obtain ⟨taken, same⟩ := @takeWait_commitsOnce prepared before.nodes.size judged
    exact finishes taken same last
  · exact finishes judged rfl last

end Pobl.Partialorder
