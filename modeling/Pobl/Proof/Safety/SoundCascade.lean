import Pobl.Proof.Safety.Sound

namespace Pobl.Partialorder

open Library Protos TxConsensusGraph List

variable {graph graph' : TxConsensusGraph} {target parent child : NodeRef} {tasks rest added : List Task}
  {current : Option NodeRef} {state : NodeState} {task : Task} {txid : TxId}

theorem Restated.advances (change : Restated graph graph' target)
    (before : (graph.node target).state = .wait) : Advances graph graph' where
  size := change.size
  listsSize := Nat.le_of_eq (congrArg Heap.size change.lists.symm)
  txIdOf := change.txIdOf
  writeSet other := congrArg GVNode.writeSet (change.choosedNode other)
  childNodes := change.childNodes
  committed other state := by
    have different : other ≠ target := by
      intro same
      rw [same, before] at state
      cases state
    rw [change.others other different]
    exact state
  changed other state := by
    have different : other ≠ target := by
      intro same
      rw [same, before] at state
      cases state
    rw [change.others other different]
    exact state
  members list _ := by
    rw [change.nList]
    exact List.Subset.refl _
  waits txid waitTxcn found _ := by
    rw [change.waits] at found
    exact ⟨waitTxcn, found, rfl, id, fun _ _ same => same⟩

/-- A waiting node is the only owner of its lists. -/
theorem Linked.alone (linked : Linked graph tasks) (inside : target < graph.nodes.size)
    (before : (graph.node target).state = .wait) : ∀ other < graph.nodes.size, other ≠ target →
      (graph.node other).childNodes ≠ (graph.node target).childNodes := by
  intro other below different same
  have dead := linked.shared target inside other below (Ne.symm different) same.symm
  rw [before] at dead
  cases dead

/-- A verdict on a waiting node keeps the links when the counters are right again. -/
theorem Linked.restate (added : List Task) (linked : Linked graph tasks) (change : Restated graph graph' target)
    (before : (graph.node target).state = .wait)
    (after : (graph'.node target).state = .committed ∨ (graph'.node target).state = .changedState)
    (zero : (graph'.node target).state = .committed → (graph.node target).parentNum = 0)
    (counted : ∀ child < graph.nodes.size,
      graph'.openSlots child + pendingSlots graph' added child = graph.openSlots child)
    (addedNode : ∀ task ∈ added, task.target < graph.nodes.size)
    (addedBranch : ∀ txid dtxcn, .branch txid dtxcn ∈ added → dtxcn = target) : Linked graph' (added ++ tasks) := by
  have undecided : ∀ other, (graph.node other).state = .committed ∨
      (graph.node other).state = .changedState → other ≠ target := by
    intro other decided same
    rw [same, before] at decided
    rcases decided with state | state <;> cases state
  refine ⟨linked.toBounded.restate change ?_, ?_, ?_, ?_, ?_, ?_, ?_, ?_⟩
  · exact forall_mem_append.mpr ⟨addedNode, linked.taskNode⟩
  · intro first firstIn second secondIn different same
    rw [change.childNodes, change.childNodes] at same
    rw [change.size] at firstIn secondIn
    have dead := linked.shared first firstIn second secondIn different same
    rw [change.others first (undecided first (.inr dead))]
    exact dead
  · intro txid waitTxcn found owner inside points
    rw [change.waits] at found
    rw [change.childNodes] at points
    obtain ⟨dead, choosed⟩ := linked.waitShared txid waitTxcn found owner (change.size ▸ inside) points
    rw [change.others owner (undecided owner (.inr dead))]
    exact ⟨dead, choosed⟩
  · rw [change.waits]
    exact linked.waitApart
  · intro child inside
    rw [change.size] at inside
    have old := linked.counted child inside
    have same : pendingSlots graph' tasks child = pendingSlots graph tasks child := by
      apply pendingSlots_congr
      intro txid dtxcn member
      rw [change.others dtxcn (undecided dtxcn (linked.branchDecided txid dtxcn member)), change.childrenOf]
      exact ⟨rfl, rfl⟩
    have moved := counted child inside
    rw [change.parentNum, pendingSlots_append, same]
    omega
  · intro other inside state
    rw [change.parentNum]
    by_cases self : other = target
    · rw [self] at state ⊢
      exact zero state
    · rw [change.others other self] at state
      exact linked.committedZero other (change.size ▸ inside) state
  · intro other inside
    by_cases self : other = target
    · rw [self]
      rcases after with state | state <;> rw [state] <;> decide
    · rw [change.others other self]
      exact linked.notReady other (change.size ▸ inside)
  · intro txid dtxcn member
    rcases mem_append.mp member with new | old
    · rw [addedBranch txid dtxcn new]
      exact after
    · have decided := linked.branchDecided txid dtxcn old
      rw [change.others dtxcn (undecided dtxcn decided)]
      exact decided

/-- The tasks of `Delete` release the second list, and the first one unless the node is aborted. -/
theorem pendingSlots_expandDelete (change : Restated graph graph' target) (child : NodeRef) :
    pendingSlots graph' (expandDelete graph target).2 child = (graph.childrenOf target).unChildNodes.count child +
        if (graph'.node target).state = .changedState then 0
        else (graph.childrenOf target).nChildNodes.count child := by
  unfold expandDelete
  rw [pendingSlots_append, pendingSlots_map _ _ _ (fun _ => rfl), pendingSlots_cons,
    pendingSlots_nil, Nat.add_zero, Task.slots, change.childrenOf]

section

variable (linked : Linked graph tasks) (inside : target < graph.nodes.size)
  (before : (graph.node target).state = .wait)

include linked inside before

/-- The commit of a waiting node keeps the links. -/
theorem Linked.commit (zero : (graph.node target).parentNum = 0) :
    Linked (expandDelete (graph.commit target) target).1 ((expandDelete graph target).2 ++ tasks) := by
  have change := restated_commit graph target
  have after := commit_state graph target
  apply linked.restate _ change before (.inl after) (fun _ => zero)
  · intro child _
    have moved := change.openSlots_commit inside (linked.owned target inside)
      (linked.alone inside before) before after child
    rw [pendingSlots_expandDelete change, after, if_neg (by decide)]
    omega
  · exact linked.toBounded.expandDelete_target inside
  · exact branch_expandDelete

/-- The abort of a waiting node keeps the links. -/
theorem Linked.abort : Linked (graph.setState target .changedState) ((expandDelete graph target).2 ++ tasks) := by
  have change := restated_abort graph target
  have after := abort_state graph target
  apply linked.restate _ change before (.inr after)
  · intro committed
    rw [after] at committed
    cases committed
  · intro child _
    have moved := change.openSlots_abort inside (linked.owned target inside)
      (linked.alone inside before) before after child
    rw [pendingSlots_expandDelete change, after, if_pos rfl]
    omega
  · exact linked.toBounded.expandDelete_target inside
  · exact branch_expandDelete

end

section

variable (linked : Linked graph tasks) (inside : parent < graph.nodes.size)
  (dead : (graph.node parent).state = .changedState)

include linked inside dead

/-- The list of an aborted node is never released to its normal children. -/
theorem Linked.not_released : ¬ graph.Released NodeState.ReleasesN (graph.node parent).childNodes := by
  rintro ⟨owner, below, points, committed⟩
  have changed : (graph.node owner).state = .changedState := by
    by_cases same : owner = parent
    · rw [same]
      exact dead
    · exact linked.shared owner below parent inside same points
  rw [changed] at committed
  cases committed

/-- A child of an aborted node keeps an open place. -/
theorem Linked.openSlots_pos
    (member : child ∈ graph.nList (graph.node parent).childNodes) : 0 < graph.openSlots child := by
  have held := openCount_pos (linked.owned parent inside) (linked.not_released inside dead) member
  unfold openSlots
  omega

end

/-- Every parent of a node without open places has committed before. -/
theorem Covered.parent_committed {ptxid : TxId} {kv : GoMap Value} (covered : Covered graph child ptxid kv)
    (free : graph.openSlots child = 0) :
    ∃ parent < graph.nodes.size, graph.txIdOf parent = ptxid ∧ (graph.node parent).state = .committed ∧
      disagrees (graph.node parent).choosedNode.writeSet kv = false := by
  rcases covered with settled | ⟨list, below, member, owners, _⟩
  · exact settled
  · have released : graph.Released NodeState.ReleasesN list := by
      by_contra opened
      have held := openCount_pos below opened member
      unfold openSlots at free
      omega
    obtain ⟨owner, inside, points, committed⟩ := released
    have alive : (graph.node owner).state ≠ .changedState := by
      rw [committed]
      decide
    obtain ⟨name, writes⟩ := owners owner inside points alive
    exact ⟨owner, inside, name, committed, writes⟩

/-- A verdict on a waiting node keeps the invariant.
An aborted node needs a reason to stay aborted, and a committed node needs committed parents. -/
theorem Sound.decide (sound : Sound current graph tasks) (only : ∀ other, current = some other → other = target)
    (inside : target < graph.nodes.size) (change : Restated graph graph' target)
    (before : (graph.node target).state = .wait)
    (after : (graph'.node target).state = .committed ∨ (graph'.node target).state = .changedState)
    (linked : Linked graph' (added ++ tasks)) (noAbort : ∀ child, .abort child ∉ added)
    (log : graph'.stateLog = graph.stateLog ++ [(target, (graph'.node target).state)])
    (aborted : (graph'.node target).state = .changedState →
      ∃ parent < graph.nodes.size, (graph.node parent).state = .changedState ∧
        target ∈ graph.nList (graph.node parent).childNodes)
    (parents : (graph'.node target).state = .committed →
      ∀ entry ∈ (graph.node target).choosedNode.pTx.entries, ∃ parent < graph.nodes.size,
        graph.txIdOf parent = entry.1 ∧ (graph.node parent).state = .committed ∧
        disagrees (graph.node parent).choosedNode.writeSet entry.2.kv = false) :
    Sound none graph' (added ++ tasks) := by
  have commits := commits_append log
  have advances := change.advances before
  have old : ∀ node, node ≠ target → current ≠ some node := by
    intro node different same
    exact different (only node same)
  have waitingOther : ∀ node, (graph'.node node).state = .wait → node ≠ target := by
    intro node state same
    rw [same] at state
    rcases after with verdict | verdict <;> rw [verdict] at state <;> cases state
  refine ⟨linked, ?_, ?_, ?_, ?_, ?_, ?_, ?_, ?_⟩
  · intro node below _ dead
    by_cases same : node = target
    · rw [same] at dead ⊢
      exact .inr (advances.deadParent sound.toBounded (aborted dead))
    · rw [change.others node same] at dead ⊢
      rcases sound.aborted node (change.size ▸ below) (old node same) dead with none | reason
      · exact .inl none
      · exact .inr (advances.deadParent sound.toBounded reason)
  · intro node below _ alive
    have different := waitingOther node alive
    rw [change.others node different] at alive ⊢
    exact sound.waiting node (change.size ▸ below) (old node different) alive
  · intro node below _ alive entry member
    have different := waitingOther node alive
    rw [change.others node different] at alive member
    exact (sound.covered node (change.size ▸ below) (old node different) alive entry member).advance advances
  · intro child member
    rcases mem_append.mp member with new | existing
    · exact absurd new (noAbort child)
    · exact advances.deadParent sound.toBounded (sound.abortTask child existing)
  · intro node
    rw [log, mem_append, sound.committedLog, mem_singleton, Prod.mk.injEq, change.size]
    by_cases same : node = target
    · rw [same, before]
      simp [inside, eq_comm]
    · rw [change.others node same]
      simp [same]
  · intro node
    rw [log, mem_append, sound.changedLog, mem_singleton, Prod.mk.injEq, change.size]
    by_cases same : node = target
    · rw [same, before]
      simp [inside, eq_comm]
    · rw [change.others node same]
      simp [same]
  · rw [commits]
    split
    · rw [nodup_append]
      refine ⟨sound.once, nodup_singleton _, ?_⟩
      intro node member last isLast same
      rw [mem_singleton.mp isLast] at same
      rw [same, mem_commits, sound.committedLog, before] at member
      cases member.2
    · rw [append_nil]
      exact sound.once
  · intro position child found entry member
    rw [change.choosedNode] at member
    have reached : ∃ earlier < position, ∃ parent, graph.commits[earlier]? = some parent ∧
        graph.txIdOf parent = entry.1 ∧
        disagrees (graph.node parent).choosedNode.writeSet entry.2.kv = false := by
      rw [commits, List.getElem?_append] at found
      split at found
      · exact sound.causal position child found entry member
      next late =>
        split at found
        next committed =>
          have last : child = target := mem_singleton.mp (List.mem_of_getElem? found)
          obtain ⟨parent, parentIn, name, state, writes⟩ :=
            parents committed entry (last ▸ member)
          have listed : parent ∈ graph.commits := by
            rw [mem_commits, sound.committedLog]
            exact ⟨parentIn, state⟩
          obtain ⟨earlier, below, first⟩ := mem_iff_getElem.mp listed
          refine ⟨earlier, by omega, parent, ?_, name, writes⟩
          rw [List.getElem?_eq_getElem below, first]
        · cases found
    obtain ⟨earlier, sooner, parent, first, name, writes⟩ := reached
    refine ⟨earlier, sooner, parent, ?_, ?_, ?_⟩
    · rw [commits]
      exact List.getElem?_append_left (List.getElem?_eq_some_iff.mp first).1 ▸ first
    · rw [change.txIdOf]
      exact name
    · rw [change.choosedNode]
      exact writes

/-- The commit of a waiting node without open parents keeps the invariant. -/
theorem Sound.commit (sound : Sound (some target) graph tasks) (inside : target < graph.nodes.size)
    (before : (graph.node target).state = .wait) (zero : (graph.node target).parentNum = 0)
    (covered : ∀ entry ∈ (graph.node target).choosedNode.pTx.entries, Covered graph target entry.1 entry.2.kv) :
    Sound none (expandDelete (graph.commit target) target).1 ((expandDelete graph target).2 ++ tasks) := by
  have after := commit_state graph target
  have free : graph.openSlots target = 0 := by
    have counted := sound.counted target inside
    omega
  apply sound.decide (fun other same => (Option.some.inj same).symm) inside
    (restated_commit graph target) before (.inl after)
    (sound.toLinked.commit inside before zero) abort_not_mem_expandDelete
  · rw [after]
    exact commit_log graph target
  · intro dead
    rw [after] at dead
    cases dead
  · intro _ entry member
    exact (covered entry member).parent_committed free

/-- The abort of a waiting child of an aborted node keeps the invariant. -/
theorem Sound.abort (sound : Sound none graph tasks) (inside : target < graph.nodes.size)
    (before : (graph.node target).state = .wait)
    (reason : ∃ parent < graph.nodes.size, (graph.node parent).state = .changedState ∧
      target ∈ graph.nList (graph.node parent).childNodes) :
    Sound none (graph.setState target .changedState) ((expandDelete graph target).2 ++ tasks) := by
  have after := abort_state graph target
  apply sound.decide (fun other same => by cases same) inside (restated_abort graph target) before
    (.inr after) (sound.toLinked.abort inside before) abort_not_mem_expandDelete
  · rw [after]
    rfl
  · exact fun _ => reason
  · intro committed
    rw [after] at committed
    cases committed

theorem Decremented.advances (change : Decremented graph graph' target) : Advances graph graph' where
  size := change.size
  listsSize := Nat.le_of_eq (congrArg Heap.size change.lists.symm)
  txIdOf := change.txIdOf
  writeSet other := congrArg GVNode.writeSet (change.nodes other).1
  childNodes other := (change.nodes other).2.1
  committed other state := (change.nodes other).2.2.trans state
  changed other state := (change.nodes other).2.2.trans state
  members list _ := by
    rw [change.nList]
    exact List.Subset.refl _
  waits txid waitTxcn found _ := by
    rw [change.waits] at found
    exact ⟨waitTxcn, found, rfl, id, fun _ _ same => same⟩

/-- The node of a pending release has an open counter, so it has not committed. -/
theorem Linked.pending_pos (linked : Linked graph (task :: rest)) (inside : target < graph.nodes.size)
    (single : task.slots graph target = 1) : 0 < (graph.node target).parentNum := by
  have counted := linked.counted target inside
  rw [pendingSlots_cons, single] at counted
  omega

theorem Linked.decrement (linked : Linked graph (task :: rest)) (change : Decremented graph graph' target)
    (inside : target < graph.nodes.size)
    (single : ∀ other, task.slots graph other = if target = other then 1 else 0) : Linked graph' rest := by
  apply linked.reshape change.size change.lists change.txIdOf (fun other => (change.nodes other).2)
  · intro txid waitTxcn found
    rw [change.waits] at found
    exact ⟨waitTxcn, found, rfl, rfl⟩
  · intro txid txCN found
    rw [change.present] at found
    exact .inl found
  · exact subset_cons_self _ _
  · intro other below
    have counted := linked.counted other below
    rw [pendingSlots_cons, single] at counted
    rw [change.parentNum]
    by_cases same : target = other
    · rw [if_pos same] at counted ⊢
      omega
    · rw [if_neg same] at counted ⊢
      omega
  · intro other below committed
    have zero := linked.committedZero other below committed
    rw [change.parentNum, zero]
    have different : target ≠ other := by
      intro same
      have positive := linked.pending_pos inside (by rw [single, if_pos rfl])
      rw [same] at positive
      omega
    rw [if_neg different]
    rfl

/-- A change of one node, which is exempt afterwards, keeps the invariant of the other nodes. -/
theorem Sound.change (sound : Sound current graph tasks) (linked : Linked graph' rest)
    (size : graph'.nodes.size = graph.nodes.size) (only : ∀ other, current = some other → other = target)
    (others : ∀ other ≠ target, (graph'.node other).choosedNode = (graph.node other).choosedNode ∧
      (graph'.node other).state = (graph.node other).state ∧
      (graph'.node other).parentNum = (graph.node other).parentNum)
    (log : graph'.stateLog = graph.stateLog ∧ (graph'.node target).state = (graph.node target).state ∧
        ((graph.node target).state = .committed →
          (graph'.node target).choosedNode = (graph.node target).choosedNode) ∨
      graph'.stateLog = graph.stateLog ++ [(target, .changedState)] ∧ target < graph.nodes.size ∧
        (graph'.node target).state = .changedState ∧ (graph.node target).state ≠ .committed)
    (deadParent : ∀ child ≠ target, (∃ parent < graph.nodes.size, (graph.node parent).state = .changedState ∧
        child ∈ graph.nList (graph.node parent).childNodes) →
      ∃ parent < graph'.nodes.size, (graph'.node parent).state = .changedState ∧
        child ∈ graph'.nList (graph'.node parent).childNodes)
    (covered : ∀ {child ptxid kv}, Covered graph child ptxid kv → Covered graph' child ptxid kv)
    (abortTask : ∀ child, .abort child ∈ rest → ∃ parent < graph'.nodes.size,
      (graph'.node parent).state = .changedState ∧ child ∈ graph'.nList (graph'.node parent).childNodes) :
    Sound (some target) graph' rest := by
  have commits : graph'.commits = graph.commits := by
    unfold TxConsensusGraph.commits
    rcases log with ⟨same, _⟩ | ⟨appended, _⟩
    · rw [same]
    · rw [appended, filterMap_append]
      simp
  have old : ∀ other ≠ target, current ≠ some other := fun other different same => different (only other same)
  have different {other : NodeRef} (free : some target ≠ some other) : other ≠ target :=
    fun same => free (congrArg some same.symm)
  have choosedNode : ∀ other ∈ graph.commits, (graph'.node other).choosedNode = (graph.node other).choosedNode := by
    intro other listed
    by_cases same : other = target
    · have committed := ((sound.committedLog other).mp ((mem_commits graph other).mp listed)).2
      rw [same] at committed ⊢
      rcases log with ⟨_, _, kept⟩ | ⟨_, _, _, alive⟩
      · exact kept committed
      · exact absurd committed alive
    · exact (others other same).1
  refine ⟨linked, ?_, ?_, ?_, abortTask, ?_, ?_, commits ▸ sound.once, ?_⟩
  · intro node below free dead
    obtain ⟨_, sameState, sameNum⟩ := others node (different free)
    rw [sameState] at dead
    rw [sameNum]
    exact (sound.aborted node (size ▸ below) (old node (different free)) dead).imp_right
      (deadParent node (different free))
  · intro node below free waits
    obtain ⟨_, sameState, sameNum⟩ := others node (different free)
    rw [sameState] at waits
    rw [sameNum]
    exact sound.waiting node (size ▸ below) (old node (different free)) waits
  · intro node below free waits entry member
    obtain ⟨sameNode, sameState, _⟩ := others node (different free)
    rw [sameState] at waits
    rw [sameNode] at member
    exact covered (sound.covered node (size ▸ below) (old node (different free)) waits entry member)
  · intro node
    rw [size]
    rcases log with ⟨sameLog, sameState, _⟩ | ⟨appended, _, dead, alive⟩
    · rw [sameLog, sound.committedLog]
      by_cases same : node = target
      · rw [same, sameState]
      · rw [(others node same).2.1]
    · rw [appended, mem_append, sound.committedLog]
      by_cases same : node = target
      · simp [same, alive, dead]
      · simp [(others node same).2.1]
  · intro node
    rw [size]
    rcases log with ⟨sameLog, sameState, _⟩ | ⟨appended, inside, dead, _⟩
    · rw [sameLog, sound.changedLog]
      by_cases same : node = target
      · rw [same, sameState]
      · rw [(others node same).2.1]
    · rw [appended, mem_append, sound.changedLog]
      by_cases same : node = target
      · simp [same, dead, inside]
      · simp [same, (others node same).2.1]
  · intro position child found entry member
    rw [commits] at found ⊢
    rw [choosedNode child (List.mem_of_getElem? found)] at member
    obtain ⟨earlier, sooner, parent, first, agrees⟩ := sound.causal position child found entry member
    refine ⟨earlier, sooner, parent, first, ?_⟩
    unfold txIdOf
    rw [choosedNode parent (List.mem_of_getElem? first)]
    exact agrees

/-- A release keeps the invariant, except for the verdict on the node that it releases. -/
theorem Sound.decrement (sound : Sound none graph (task :: rest)) (change : Decremented graph graph' target)
    (inside : target < graph.nodes.size)
    (single : ∀ other, task.slots graph other = if target = other then 1 else 0) :
    Sound (some target) graph' rest := by
  have advances := change.advances
  refine sound.change (sound.toLinked.decrement change inside single) change.size nofun ?_
    (.inl ⟨change.log, (change.nodes target).2.2, fun _ => (change.nodes target).1⟩)
    (fun _ _ => advances.deadParent sound.toBounded) (·.advance advances)
    fun child member => advances.deadParent sound.toBounded (sound.abortTask child (mem_cons_of_mem _ member))
  intro other different
  refine ⟨(change.nodes other).1, (change.nodes other).2.2, ?_⟩
  rw [change.parentNum, if_neg different.symm, Int.sub_zero]

/-- The invariant holds for all nodes once the exempt node has a verdict or an open parent. -/
theorem Sound.complete (sound : Sound (some target) graph tasks)
    (aborted : (graph.node target).state = .changedState → (graph.node target).parentNum = 0 ∨
      ∃ parent < graph.nodes.size, (graph.node parent).state = .changedState ∧
        target ∈ graph.nList (graph.node parent).childNodes)
    (waiting : (graph.node target).state = .wait → 0 < (graph.node target).parentNum)
    (covered : (graph.node target).state = .wait → ∀ entry ∈ (graph.node target).choosedNode.pTx.entries,
        Covered graph target entry.1 entry.2.kv) : Sound none graph tasks := by
  refine { sound with aborted := ?_, waiting := ?_, covered := ?_ }
  · intro node below _ dead
    by_cases same : node = target
    · rw [same] at dead ⊢
      exact aborted dead
    · exact sound.aborted node below (fun self => same (Option.some.inj self).symm) dead
  · intro node below _ alive
    by_cases same : node = target
    · rw [same] at alive ⊢
      exact waiting alive
    · exact sound.waiting node below (fun self => same (Option.some.inj self).symm) alive
  · intro node below _ alive
    by_cases same : node = target
    · rw [same] at alive ⊢
      exact covered alive
    · exact sound.covered node below (fun self => same (Option.some.inj self).symm) alive

/-- A node whose last place is released is waiting. -/
theorem Sound.wait_of_last (sound : Sound none graph (task :: rest)) (inside : target < graph.nodes.size)
    (single : task.slots graph target = 1)
    (last : (graph.node target).parentNum = 1) : (graph.node target).state = .wait := by
  cases state : (graph.node target).state with
  | wait => rfl
  | ready => exact absurd state (sound.notReady target inside)
  | committed =>
    have zero := sound.committedZero target inside state
    omega
  | changedState =>
    rcases sound.aborted target inside nofun state with zero | ⟨parent, parentIn, dead, member⟩
    · omega
    · have held := sound.toLinked.openSlots_pos parentIn dead member
      have counted := sound.counted target inside
      rw [pendingSlots_cons, single] at counted
      omega

/-- Both loops that release a child keep the invariant. -/
theorem Sound.release (sound : Sound none graph (task :: rest)) (change : Decremented graph graph' target)
    (inside : target < graph.nodes.size)
    (single : ∀ other, task.slots graph other = if target = other then 1 else 0) :
    ((graph'.node target).parentNum = 0 → Sound none (expandDelete (graph'.commit target) target).1
      ((expandDelete graph' target).2 ++ rest)) ∧
    ((graph'.node target).parentNum ≠ 0 → Sound none graph' rest) := by
  have self : task.slots graph target = 1 := by rw [single, if_pos rfl]
  have dropped := sound.decrement change inside single
  have minus := change.parentNum target
  rw [if_pos rfl] at minus
  have insideAfter : target < graph'.nodes.size := change.size.symm ▸ inside
  have coveredAfter : (graph.node target).state = .wait → ∀ entry ∈ (graph'.node target).choosedNode.pTx.entries,
        Covered graph' target entry.1 entry.2.kv := by
    intro alive entry member
    rw [(change.nodes target).1] at member
    exact (sound.covered target inside nofun alive entry member).advance change.advances
  constructor
  · intro zero
    have alive := sound.wait_of_last inside self (by omega)
    exact dropped.commit insideAfter ((change.nodes target).2.2.trans alive) zero (coveredAfter alive)
  · intro positive
    apply dropped.complete
    · intro dead
      rw [(change.nodes target).2.2] at dead
      rcases sound.aborted target inside nofun dead with zero | ⟨parent, parentIn, parentDead, member⟩
      · have open' := sound.toLinked.pending_pos inside self
        omega
      · refine .inr ⟨parent, change.size.symm ▸ parentIn, (change.nodes parent).2.2.trans parentDead, ?_⟩
        rw [change.nList, (change.nodes parent).2.1]
        exact member
    · intro _
      have counted := dropped.counted target insideAfter
      omega
    · intro alive
      exact coveredAfter ((change.nodes target).2.2.symm.trans alive)

section

variable (sound : Sound none graph (.branch txid target :: rest))

include sound

/-- The branch between the loops keeps the invariant when its tasks release the same places. -/
theorem Sound.branch (wrap : NodeRef → Task) (wraps : ∀ child, (wrap child).target = child)
    (slots : ∀ child, pendingSlots graph ((graph.childrenOf target).nChildNodes.map wrap) child =
      (Task.branch txid target).slots graph child)
    (noBranch : ∀ child other dtxcn, wrap child ≠ .branch other dtxcn)
    (abortTask : ∀ child other, wrap child = .abort other → (graph.node target).state = .changedState) :
    Sound none graph ((graph.childrenOf target).nChildNodes.map wrap ++ rest) := by
  have inside : target < graph.nodes.size := sound.taskNode _ mem_cons_self
  refine ⟨{ sound with toBounded := sound.toBounded.retask ?_, counted := ?_, branchDecided := ?_ }, sound.aborted,
    sound.waiting, sound.covered, ?_,
    sound.committedLog, sound.changedLog, sound.once, sound.causal⟩
  · intro task member
    rcases mem_append.mp member with new | old
    · obtain ⟨child, listed, rfl⟩ := mem_map.mp new
      rw [wraps]
      exact sound.listed _ (sound.owned target inside) child (.inl listed)
    · exact sound.taskNode task (mem_cons_of_mem _ old)
  · intro child below
    have counted := sound.counted child below
    rw [pendingSlots_append, slots]
    exact counted
  · intro other dtxcn member
    rcases mem_append.mp member with new | old
    · obtain ⟨child, _, same⟩ := mem_map.mp new
      exact absurd same (noBranch child other dtxcn)
    · exact sound.branchDecided other dtxcn (mem_cons_of_mem _ old)
  · intro other member
    rcases mem_append.mp member with new | old
    · obtain ⟨child, listed, same⟩ := mem_map.mp new
      obtain rfl : child = other := by rw [← wraps child, same, Task.target]
      exact ⟨target, inside, abortTask child child same, listed⟩
    · exact sound.abortTask other (mem_cons_of_mem _ old)

theorem Sound.branchAborts (dead : (graph.node target).state = .changedState) :
    Sound none graph ((graph.childrenOf target).nChildNodes.map Task.abort ++ rest) := by
  refine sound.branch Task.abort (fun _ => rfl) ?_ (fun _ _ _ => Task.noConfusion) fun _ _ _ => dead
  intro child
  rw [pendingSlots_abort, Task.slots, if_pos dead]

theorem Sound.branchReleases (alive : (graph.node target).state ≠ .changedState) :
    Sound none graph ((graph.childrenOf target).nChildNodes.map (Task.release txid) ++ rest) := by
  refine sound.branch (Task.release txid) (fun _ => rfl) ?_ (fun _ _ _ => Task.noConfusion)
    fun _ _ => Task.noConfusion
  intro child
  rw [pendingSlots_map _ _ _ (fun _ => rfl), Task.slots, if_neg alive]

end

/-- A task without places is dropped. -/
theorem Sound.skip (sound : Sound none graph (task :: rest))
    (empty : ∀ child, task.slots graph child = 0) : Sound none graph rest := by
  refine ⟨{ sound with toBounded := sound.toBounded.retask ?_, counted := ?_, branchDecided := ?_ }, sound.aborted,
    sound.waiting, sound.covered, ?_,
    sound.committedLog, sound.changedLog, sound.once, sound.causal⟩
  · exact fun other member => sound.taskNode other (mem_cons_of_mem _ member)
  · intro child below
    have counted := sound.counted child below
    rw [pendingSlots_cons, empty] at counted
    omega
  · exact fun other dtxcn member => sound.branchDecided other dtxcn (mem_cons_of_mem _ member)
  · exact fun child member => sound.abortTask child (mem_cons_of_mem _ member)

/-- Every task keeps the invariant. -/
theorem Task.perform_sound (graph : TxConsensusGraph) (task : Task) (rest : List Task)
    (sound : Sound none graph (task :: rest)) :
    Sound none (task.perform graph).1 ((task.perform graph).2 ++ rest) := by
  have inside := sound.taskNode task mem_cons_self
  have performed := task.performed graph
  generalize (task.perform graph).1 = next, (task.perform graph).2 = added at performed
  cases performed with
  | drops dropped child releases change positive =>
    exact (sound.release change (target_released releases ▸ inside) (slots_released releases)).2 positive
  | commits dropped child releases change zero =>
    exact (sound.release change (target_released releases ▸ inside) (slots_released releases)).1 zero
  | branchAborts txid dtxcn dead => exact sound.branchAborts dead
  | branchReleases txid dtxcn alive => exact sound.branchReleases alive
  | aborts child alive =>
    obtain ⟨parent, parentIn, dead, member⟩ := sound.abortTask child mem_cons_self
    have held := sound.toLinked.openSlots_pos parentIn dead member
    have waits : (graph.node child).state = .wait := by
      cases state : (graph.node child).state with
      | wait => rfl
      | ready => exact absurd state (sound.notReady child inside)
      | changedState => exact absurd state alive
      | committed =>
        have zero := sound.committedZero child inside state
        have counted := sound.counted child inside
        omega
    exact (sound.skip (fun _ => rfl)).abort inside waits ⟨parent, parentIn, dead, member⟩
  | skips child dead => exact sound.skip (fun _ => rfl)

/-- The whole cascade keeps the invariant. -/
theorem delete_sound {graph final : TxConsensusGraph} {dtxcn : NodeRef} (done : delete graph dtxcn = some final)
    (sound : Sound none (expandDelete graph dtxcn).1 ((expandDelete graph dtxcn).2 ++ [])) : Sound none final [] :=
  deleteFuel_invariant (Sound none) Task.perform_sound _ graph final dtxcn [] done sound

end Pobl.Partialorder
