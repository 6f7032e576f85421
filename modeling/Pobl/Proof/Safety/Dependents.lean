/-
This file bounds what the arrival of one transaction commits.
Only the transaction itself and the nodes that depend on it can commit, and each of them commits once.
-/

import Mathlib.Data.Finset.Card
import Pobl.Proof.Safety.AtMostOnce

namespace Pobl.Partialorder

open Library Protos TxConsensusGraph List

variable {graph graph' before final : TxConsensusGraph} {txCN : NodeRef} {members family : List NodeRef} {txid : TxId}
  {bound : Nat} {tasks added : List Task} {task : Task}

namespace TxConsensusGraph

/-- The nodes in both child lists of a reference. -/
def listed (graph : TxConsensusGraph) (list : ChildRef) : List NodeRef := graph.nList list ++ graph.unList list

/-- The nodes that wait for a missing transaction are among the members. -/
def Awaits (graph : TxConsensusGraph) (txid : TxId) (members : List NodeRef) : Prop :=
  ∀ waitTxcn ∈ graph.waitUnChoosedTxCNs.lookup txid, ∀ child ∈ graph.listed waitTxcn.childNodes, child ∈ members

/-- The children of the members are members. -/
def Closed (graph : TxConsensusGraph) (members : List NodeRef) : Prop :=
  ∀ owner ∈ members, ∀ child ∈ graph.listed (graph.node owner).childNodes, child ∈ members

/-- A family of nodes with all that depend on the transaction. -/
def Dependents (graph : TxConsensusGraph) (txid : TxId) (family : List NodeRef) : Prop :=
  (∀ child ∈ family, child < graph.nodes.size) ∧ graph.Awaits txid family ∧ graph.Closed family

instance (txid : TxId) (family : List NodeRef) : Decidable (graph.Dependents txid family) :=
  inferInstanceAs (Decidable ((∀ _ ∈ family, _) ∧
    (∀ _ ∈ graph.waitUnChoosedTxCNs.lookup txid, ∀ _ ∈ _, _) ∧ ∀ _ ∈ family, ∀ _ ∈ _, _))

/-- The members that still count open parents. -/
def waiting (graph : TxConsensusGraph) (members : List NodeRef) : Finset NodeRef :=
  members.toFinset.filter fun member => 0 < (graph.node member).parentNum

end TxConsensusGraph

theorem listed_congr (lists : graph'.childLists = graph.childLists) : graph'.listed = graph.listed := by
  unfold listed nList unList
  rw [lists]

theorem Closed.congr (closed : graph.Closed members) (lists : graph'.childLists = graph.childLists)
    (owners : ∀ owner, (graph'.node owner).childNodes = (graph.node owner).childNodes) : graph'.Closed members := by
  intro owner member
  rw [owners, listed_congr lists]
  exact closed owner member

/-- A move adds no node but the arriving one to a list. -/
theorem Move.encloses (move : Move txCN graph graph') (inside : txCN < graph.nodes.size) (self : txCN ∈ members)
    (known : graph.Awaits (graph.txIdOf txCN) members ∧ graph.Closed members) :
    graph'.Awaits (graph'.txIdOf txCN) members ∧ graph'.Closed members := by
  have owners (owner : NodeRef) := (move.keeps.2 owner).2
  have name : graph'.txIdOf txCN = graph.txIdOf txCN := congrArg GVNode.txId (move.keeps.2 txCN).1
  rw [name]
  obtain ⟨awaits, closed⟩ := known
  cases move.shape inside with
  | reshaped change =>
    refine ⟨fun waitTxcn' found => ?_, Closed.congr closed change.lists owners⟩
    obtain ⟨waitTxcn, old, same, _⟩ := change.waits _ _ found
    rw [listed_congr change.lists, ← same.1]
    exact awaits waitTxcn old
  | addWait txid diff choosed =>
    have listed (list : ChildRef) : (graph.addWait txid diff choosed).listed list =
        if list = graph.childLists.size then [] else graph.listed list := by
      unfold TxConsensusGraph.listed nList unList
      rw [childLists_addWait]
      split <;> rfl
    refine ⟨fun waitTxcn found child => ?_, fun owner member child => ?_⟩ <;> rw [listed]
    · rcases lookup_addWait graph txid diff choosed _ waitTxcn found with ⟨_, new, _⟩ | old
      · rw [if_pos new]
        exact nofun
      · split
        · exact nofun
        · exact awaits waitTxcn old child
    · split
      · exact nofun
      · exact closed owner member child
  | reject => exact ⟨awaits, Closed.congr closed rfl owners⟩
  | register list ptxid =>
    have change := enlisted_register graph list txCN ptxid
    have new (place : ChildRef) (inner : ∀ child ∈ graph.listed place, child ∈ members) :
        ∀ child ∈ (graph.register list txCN ptxid).listed place, child ∈ members := by
      intro child member
      rcases change.new place child (mem_append.mp member) with old | rfl
      · exact inner child (mem_append.mpr old)
      · exact self
    refine ⟨fun waitTxcn found => new _ (awaits waitTxcn (change.waits ▸ found)), fun owner member => ?_⟩
    rw [owners]
    exact new _ (closed owner member)

/-- The cascade stays among the members, and every commit lowers the number of those that wait. -/
structure Counting (members : List NodeRef) (bound : Nat) (graph : TxConsensusGraph) (tasks : List Task) : Prop where
  closed : graph.Closed members
  targets : ∀ task ∈ tasks, task.target ∈ members
  count : graph.commits.length + (graph.waiting members).card ≤ bound

theorem Closed.expandDelete_target (closed : graph.Closed members) {target : NodeRef} (inside : target ∈ members) :
    ∀ task ∈ (expandDelete graph target).2, task.target ∈ members := by
  intro task member
  rcases mem_append.mp member with un | branch
  · obtain ⟨child, listed, rfl⟩ := mem_map.mp un
    exact closed target inside child (mem_append_right _ listed)
  · rw [mem_singleton.mp branch]
    exact inside

theorem waiting_subset (members : List NodeRef)
    (lower : ∀ other, (graph'.node other).parentNum ≤ (graph.node other).parentNum) :
    graph'.waiting members ⊆ graph.waiting members := by
  intro other member
  rw [waiting, Finset.mem_filter] at member ⊢
  exact ⟨member.1, Int.lt_of_lt_of_le member.2 (lower other)⟩

theorem Performed.counting (performed : Performed graph task graph' added)
    (known : Counting members bound graph (task :: tasks)) : Counting members bound graph' (added ++ tasks) := by
  have inside := known.targets task mem_cons_self
  have rest : ∀ other ∈ tasks, other.target ∈ members := fun other member =>
    known.targets other (mem_cons_of_mem _ member)
  have children {dtxcn : NodeRef} (target : dtxcn ∈ members) (make : NodeRef → Task)
      (names : ∀ child, (make child).target = child) :
      ∀ other ∈ (graph.childrenOf dtxcn).nChildNodes.map make, other.target ∈ members := by
    intro other member
    obtain ⟨child, listed, rfl⟩ := mem_map.mp member
    rw [names]
    exact known.closed dtxcn target child (mem_append_left _ listed)
  cases performed with
  | drops dropped child releases change positive =>
    have lower (other : NodeRef) : (graph'.node other).parentNum ≤ (graph.node other).parentNum := by
      rw [change.parentNum]
      split <;> omega
    have fewer := Finset.card_le_card (waiting_subset members lower)
    have count := known.count
    refine ⟨Closed.congr known.closed change.lists fun other => (change.nodes other).2.1, rest, ?_⟩
    rw [commits_congr change.log]
    omega
  | commits dropped child releases change zero =>
    rw [target_released releases] at inside
    have closed := Closed.congr known.closed change.lists fun other => (change.nodes other).2.1
    have restated := restated_commit dropped child
    refine ⟨Closed.congr closed restated.lists restated.childNodes,
      forall_mem_append.mpr ⟨Closed.expandDelete_target closed inside, rest⟩, ?_⟩
    have commits := commits_append (commit_log dropped child)
    rw [if_pos rfl, commits_congr change.log] at commits
    have last : (graph.node child).parentNum = 1 := by
      rw [change.parentNum, if_pos rfl] at zero
      omega
    have fewer : (expandDelete (dropped.commit child) child).1.waiting members ⊂ graph.waiting members := by
      refine (Finset.ssubset_iff_of_subset (waiting_subset members fun other => ?_)).mpr ⟨child, ?_, ?_⟩
      · rw [restated.parentNum, change.parentNum]
        split <;> omega
      · rw [waiting, Finset.mem_filter, last]
        exact ⟨mem_toFinset.mpr inside, Int.one_pos⟩
      · rw [waiting, Finset.mem_filter, restated.parentNum, zero]
        exact fun member => Int.lt_irrefl 0 member.2
    have smaller := Finset.card_lt_card fewer
    have count := known.count
    rw [commits, length_append, length_singleton]
    omega
  | branchAborts txid dtxcn =>
    exact ⟨known.closed, forall_mem_append.mpr ⟨children inside _ fun _ => rfl, rest⟩, known.count⟩
  | branchReleases txid dtxcn =>
    exact ⟨known.closed, forall_mem_append.mpr ⟨children inside _ fun _ => rfl, rest⟩, known.count⟩
  | aborts child alive =>
    have restated := restated_abort graph child
    refine ⟨Closed.congr known.closed restated.lists restated.childNodes,
      forall_mem_append.mpr ⟨Closed.expandDelete_target known.closed inside, rest⟩, ?_⟩
    have fewer := Finset.card_le_card (waiting_subset members fun other =>
      Int.le_of_eq (restated.parentNum other))
    have count := known.count
    rw [commits_abort]
    omega
  | skips child dead => exact ⟨known.closed, rest, known.count⟩

/-- The node that arrives counts once more than the nodes that wait in its family. -/
theorem card_waiting_cons (apart : txCN ∉ family)
    (same : ∀ other ∈ family, (graph'.node other).parentNum = (graph.node other).parentNum) :
    (graph'.waiting (txCN :: family)).card =
      (graph.waiting family).card + if 0 < (graph'.node txCN).parentNum then 1 else 0 := by
  have rest : (family.toFinset.filter fun member => 0 < (graph'.node member).parentNum) = graph.waiting family :=
    Finset.filter_congr fun other member => by rw [same other (mem_toFinset.mp member)]
  rw [waiting, toFinset_cons, Finset.filter_insert, rest]
  split
  · refine Finset.card_insert_of_notMem fun member => apart ?_
    rw [waiting, Finset.mem_filter, mem_toFinset] at member
    exact member.1
  · rfl

theorem Dependents.newNode (bounded : Bounded before []) {choosed : GVNode}
    (dependents : before.Dependents choosed.txId family) :
    (before.newNode choosed).Awaits choosed.txId (before.nodes.size :: family) ∧
      (before.newNode choosed).Closed (before.nodes.size :: family) := by
  obtain ⟨inside, awaits, closed⟩ := dependents
  have old (list : ChildRef) (below : list < before.childLists.size) :
      (before.newNode choosed).listed list = before.listed list := by
    unfold listed nList unList
    rw [newNode_lists before choosed list below]
  refine ⟨fun waitTxcn found child => ?_, fun owner member child => ?_⟩
  · rw [old _ (bounded.waitOwned _ _ found)]
    exact fun listed => mem_cons_of_mem _ (awaits waitTxcn found child listed)
  · rcases mem_cons.mp member with rfl | member
    · unfold listed nList unList
      rw [node_newNode_new, childLists_newNode, if_pos rfl]
      exact nofun
    · rw [newNode_old before choosed owner (inside owner member),
        old _ (bounded.owned owner (inside owner member))]
      exact fun listed => mem_cons_of_mem _ (closed owner member child listed)

/-- The end of an arrival commits at most the new node and the members of the family that wait. -/
theorem finish_commits_le {taken : TxConsensusGraph} (apart : before.nodes.size ∉ family)
    (closed : taken.Closed (before.nodes.size :: family)) (commits : taken.commits = before.commits)
    (counters : ∀ other ∈ family, (taken.node other).parentNum = (before.node other).parentNum)
    (last : finish before.nodes.size taken = some final) :
    final.commits.length ≤ before.commits.length + 1 + (before.waiting family).card := by
  have card := card_waiting_cons apart counters
  have starts : Counting (before.nodes.size :: family) (before.commits.length + 1 + (before.waiting family).card)
      taken [] := by
    refine ⟨closed, forall_mem_nil _, ?_⟩
    rw [commits, card]
    split <;> omega
  refine Nat.le_trans (Nat.le_add_right _ _) (finish_invariant (Counting (before.nodes.size :: family) _)
    (fun graph task rest known => (task.performed graph).counting known) starts ?_ ?_ last).count
  · intro _ free
    have restated := restated_commit taken before.nodes.size
    refine ⟨Closed.congr closed restated.lists restated.childNodes, ?_, ?_⟩
    · rw [commit_tasks]
      exact Closed.expandDelete_target closed mem_cons_self
    · have fewer := Finset.card_le_card (waiting_subset (before.nodes.size :: family) fun other =>
        Int.le_of_eq (restated.parentNum other))
      rw [card, free, if_neg (Int.lt_irrefl 0)] at fewer
      rw [commits_append (commit_log taken before.nodes.size), if_pos rfl, length_append, length_singleton, commits]
      omega
  · intro dead
    rw [expandDelete_changed dead]
    exact { starts with targets := Closed.expandDelete_target closed mem_cons_self }

/-- An arrival commits at most its own transaction and the members of the family that wait. -/
theorem processTX_commits_le {order : RangeOrder RangeSite} {choosed : GVNode} (bounded : Bounded before [])
    (dependents : before.Dependents choosed.txId family) (zero : choosed.consensusState = 0) (noUN : choosed.unPTx = ∅)
    (done : processTX order before.nodes.size (before.newNode choosed) = some final) :
    final.commits.length ≤ before.commits.length + 1 + (before.waiting family).card := by
  have apart : before.nodes.size ∉ family := fun member => Nat.lt_irrefl _ (dependents.1 _ member)
  obtain ⟨prepared, first, last⟩ := Option.bind_eq_some_iff.mp done
  have moves := bounded.arrival_moves zero noUN first
  have size : (before.newNode choosed).nodes.size = before.nodes.size + 1 := rfl
  -- The moves of the arrival commit nothing and change only its own counter.
  obtain ⟨_, ⟨awaits, closed⟩, commits, counters⟩ := moves.induct (fun graph =>
    before.nodes.size < graph.nodes.size ∧ (graph.Awaits (graph.txIdOf before.nodes.size) (before.nodes.size :: family) ∧
      graph.Closed (before.nodes.size :: family)) ∧ graph.commits = before.commits ∧
      ∀ other ∈ family, (graph.node other).parentNum = (before.node other).parentNum) (by
    rintro graph graph' move ⟨inside, known, commits, counters⟩
    obtain ⟨same, others⟩ := move.counters
    refine ⟨move.keeps.1 ▸ inside, move.encloses inside mem_cons_self known, same.trans commits, ?_⟩
    exact fun other member => (others other fun wrong => apart (wrong ▸ member)).trans (counters other member))
    ⟨by omega, by rw [txIdOf_newNode_new]; exact Dependents.newNode bounded dependents, rfl,
      fun other member => by rw [newNode_old before choosed other (dependents.1 other member)]⟩
  split at last
  · cases found : prepared.waitUnChoosedTxCNs.lookup (prepared.txIdOf before.nodes.size) with
    | none =>
      rw [takeWait_none found] at last
      exact finish_commits_le apart closed commits counters last
    | some waitTxcn =>
      have change := takeWait_handedOver found
      refine finish_commits_le apart (fun owner member => ?_) ((commits_congr change.log).trans commits)
        (fun other member => (change.nodes other).2.2.trans (counters other member)) last
      rw [listed_congr change.lists]
      by_cases arrives : owner = before.nodes.size
      · rw [arrives, change.self]
        exact awaits waitTxcn found
      · rw [change.others owner arrives]
        exact closed owner member
  · exact finish_commits_le apart closed commits counters last

end Pobl.Partialorder
