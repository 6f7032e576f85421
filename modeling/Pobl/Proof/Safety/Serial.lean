/-
This file shows that every committed transaction has read the current state at its commit,
when no transaction that an arrival sets free shadows a read of another one.
-/

import Pobl.Proof.Graph.Decoding
import Pobl.Proof.Graph.Filed
import Pobl.Proof.Safety.Arrival

namespace Pobl.Partialorder

open Library Protos TxConsensusGraph List

variable {graph : TxConsensusGraph} {position index : Nat} {child parent target : NodeRef} {key : Key}
  {rkv : GVReadKV}

/-- The child names the parent in its reads. -/
def Names (graph : TxConsensusGraph) (parent child : NodeRef) : Prop :=
  parent < graph.nodes.size ∧ ∃ ptx, (graph.node child).choosedNode.pTx.lookup (graph.txIdOf parent) = some ptx

/-- A chain of parents leads from the second node back to the first one. -/
def Precedes (graph : TxConsensusGraph) : NodeRef → NodeRef → Prop := Relation.TransGen (Names graph)

/-- The waiting nodes all of whose parents have committed or are set free themselves. -/
inductive Freed (graph : TxConsensusGraph) : NodeRef → Prop where
  | intro (target : NodeRef) (inside : target < graph.nodes.size) (waits : (graph.node target).state = .wait)
      (known : ∀ entry ∈ (graph.node target).choosedNode.pTx.entries,
        ∃ parent < graph.nodes.size, graph.txIdOf parent = entry.1)
      (freed : ∀ entry ∈ (graph.node target).choosedNode.pTx.entries,
        ∀ parent < graph.nodes.size, graph.txIdOf parent = entry.1 →
        (graph.node parent).state ≠ .committed → Freed graph parent) : Freed graph target

/-- The condition on an arrival: what a waiting transaction has read from a committed parent is
still current when it is set free, and no other transaction that is set free writes another value
to its key, unless the chains of parents force the writer to commit too late or too early. -/
structure Unshadowed (graph : TxConsensusGraph) (choosed : GVNode) : Prop where
  current : ∀ reader < graph.nodes.size, Freed (graph.newNode choosed) reader →
    ∀ key rkv, (graph.node reader).choosedNode.readSet.lookup key = some rkv →
    ∀ parent < graph.nodes.size, graph.txIdOf parent = rkv.parentTxId →
    (graph.node parent).state = .committed → graph.gState.lookup key = some rkv.value
  ordered : ∀ reader writer, Freed (graph.newNode choosed) reader →
    Freed (graph.newNode choosed) writer → writer ≠ reader → ∀ key rkv wkv,
    ((graph.newNode choosed).node reader).choosedNode.readSet.lookup key = some rkv →
    ((graph.newNode choosed).node writer).choosedNode.writeSet.lookup key = some wkv →
    wkv.value ≠ rkv.value → Precedes (graph.newNode choosed) reader writer ∨
      ∃ parent < (graph.newNode choosed).nodes.size, (graph.newNode choosed).txIdOf parent = rkv.parentTxId ∧
        Precedes (graph.newNode choosed) writer parent

/-- No node has committed, and the writes of all nodes agree with the reads of the same key. -/
def Agreeing (graph : TxConsensusGraph) (choosed : GVNode) : Prop :=
  (∀ parent < graph.nodes.size, (graph.node parent).state ≠ .committed) ∧
  ∀ reader < (graph.newNode choosed).nodes.size, ∀ writer < (graph.newNode choosed).nodes.size,
    ∀ read ∈ ((graph.newNode choosed).node reader).choosedNode.readSet.entries,
    ∀ write ∈ ((graph.newNode choosed).node writer).choosedNode.writeSet.entries,
      read.1 = write.1 → write.2.value = read.2.value

instance (graph : TxConsensusGraph) (choosed : GVNode) : Decidable (Agreeing graph choosed) :=
  inferInstanceAs (Decidable (_ ∧ _))

theorem Freed.inside (freed : Freed graph target) : target < graph.nodes.size := by
  cases freed with
  | intro _ inside => exact inside

/-- Transactions that agree on every key shadow nothing. -/
theorem Agreeing.unshadowed {choosed : GVNode} (agreeing : Agreeing graph choosed) : Unshadowed graph choosed where
  current := fun _ _ _ _ _ _ parent inside _ committed => absurd committed (agreeing.1 parent inside)
  ordered := by
    intro reader writer readerFreed writerFreed _ key rkv wkv read written different
    exact absurd (agreeing.2 reader readerFreed.inside writer writerFreed.inside ⟨key, rkv⟩
      ((GoMap.mem_entries_iff _ _).mpr read) ⟨key, wkv⟩ ((GoMap.mem_entries_iff _ _).mpr written) rfl)
      different

/-- Each committed node has read the state that its predecessors left. -/
def Serial (graph : TxConsensusGraph) : Prop :=
  ∀ position child, graph.commits[position]? = some child →
    ∀ key rkv, (graph.node child).choosedNode.readSet.lookup key = some rkv →
      replay ((graph.commits.take position).map graph.writeSetOf) key = some rkv.value

theorem commits_prefix {graph' : TxConsensusGraph} (grows : graph.stateLog <+: graph'.stateLog) :
    graph.commits <+: graph'.commits := .filterMap _ grows

/-- The entries of the log up to a position belong to the committed nodes. -/
theorem writer_of_entry {final : TxConsensusGraph} {entry : Key → Option Value}
    (lookup : (((final.commits.take position).map final.writeSetOf).map logEntry)[index]? = some entry) :
    index < position ∧ ∃ writer, final.commits[index]? = some writer ∧
      entry = logEntry (final.writeSetOf writer) := by
  rw [List.getElem?_map, List.getElem?_map, List.getElem?_take] at lookup
  split at lookup
  next sooner =>
    obtain ⟨writeSet, some, rfl⟩ := Option.map_eq_some_iff.mp lookup
    obtain ⟨writer, found, rfl⟩ := Option.map_eq_some_iff.mp some
    exact ⟨sooner, writer, found, rfl⟩
  · cases lookup

section Call

variable {order : RangeOrder RangeSite} {choosed : GVNode} {cut : List Envelope} {before final : TxConsensusGraph}

/-- The facts about one call that the argument uses. -/
structure Called (before : TxConsensusGraph) (choosed : GVNode) (final : TxConsensusGraph) : Prop where
  soundBefore : Sound none before []
  sound : Sound none final []
  filed : Filed final
  size : final.nodes.size = before.nodes.size + 1
  contents : ∀ target, (final.node target).choosedNode = ((before.newNode choosed).node target).choosedNode
  grows : before.stateLog <+: final.stateLog
  current : (before.nodes.size ∈ final.commits) → ∀ key rkv, choosed.readSet.lookup key = some rkv →
    ∀ parent < before.nodes.size, before.txIdOf parent = rkv.parentTxId →
    (before.node parent).state = .committed → before.gState.lookup key = some rkv.value

namespace Called

variable (called : Called before choosed final)

include called

theorem txIdOf (target : NodeRef) : final.txIdOf target = (before.newNode choosed).txIdOf target :=
  congrArg GVNode.txId (called.contents target)

theorem commit_inside (found : final.commits[position]? = some child) :
    child < (before.newNode choosed).nodes.size := by
  have listed := (mem_commits final child).mp (List.mem_of_getElem? found)
  have inside := ((called.sound.committedLog child).mp listed).1
  rw [called.size] at inside
  exact inside

theorem position_unique {first second : Nat} (one : final.commits[first]? = some child)
    (two : final.commits[second]? = some child) : first = second := by
  obtain ⟨inside, _⟩ := List.getElem?_eq_some_iff.mp one
  exact (List.getElem?_inj inside called.sound.once).mp (one.trans two.symm)

theorem getElem?_old (old : position < before.commits.length) :
    final.commits[position]? = before.commits[position]? := by
  obtain ⟨new, same⟩ := commits_prefix called.grows
  rw [← same, List.getElem?_append_left old]

theorem take_old (old : position ≤ before.commits.length) :
    final.commits.take position = before.commits.take position := by
  obtain ⟨new, same⟩ := commits_prefix called.grows
  rw [← same, take_append_of_le_length old]

/-- A position belongs to the old commits exactly when its node had committed before the call. -/
theorem old_iff (found : final.commits[position]? = some child) : position < before.commits.length ↔
      child < before.nodes.size ∧ (before.node child).state = .committed := by
  rw [← called.soundBefore.committedLog, ← mem_commits]
  constructor
  · intro old
    rw [called.getElem?_old old] at found
    exact List.mem_of_getElem? found
  · intro member
    obtain ⟨index, lookup⟩ := List.mem_iff_getElem?.mp member
    obtain ⟨inside, _⟩ := List.getElem?_eq_some_iff.mp lookup
    rw [← called.getElem?_old inside] at lookup
    rw [called.position_unique found lookup]
    exact inside

/-- A node that commits in the call has been waiting for it. -/
theorem waits (found : final.commits[position]? = some child) (new : before.commits.length ≤ position) :
    ((before.newNode choosed).node child).state = .wait := by
  have inside := called.commit_inside found
  rcases Nat.lt_succ_iff_lt_or_eq.mp inside with old | same
  · rw [newNode_old before choosed child old]
    cases state : (before.node child).state with
    | wait => rfl
    | ready => exact absurd state (called.soundBefore.notReady child old)
    | committed =>
      have early := (called.old_iff found).mpr ⟨old, state⟩
      omega
    | changedState =>
      have logged := (called.soundBefore.changedLog child).mpr ⟨old, state⟩
      have dead := ((called.sound.changedLog child).mp (called.grows.subset logged)).2
      have listed := (mem_commits final child).mp (List.mem_of_getElem? found)
      rw [((called.sound.committedLog child).mp listed).2] at dead
      cases dead
  · rw [same, node_newNode_new]

/-- A parent that a committed node names has committed before it. -/
theorem names_before (names : Names (before.newNode choosed) parent child)
    (found : final.commits[position]? = some child) :
    ∃ earlier < position, final.commits[earlier]? = some parent := by
  obtain ⟨parentIn, ptx, named⟩ := names
  rw [← called.contents, ← called.txIdOf] at named
  obtain ⟨earlier, sooner, other, committed, name, _⟩ := called.sound.causal position child found
    ⟨final.txIdOf parent, ptx⟩ ((GoMap.mem_entries_iff _ _).mpr named)
  have otherIn := called.commit_inside committed
  have same := called.filed.distinct other (called.size ▸ otherIn) parent (called.size ▸ parentIn) name
  exact ⟨earlier, sooner, same ▸ committed⟩

theorem precedes_before {first last : NodeRef} (precedes : Precedes (before.newNode choosed) first last)
    (found : final.commits[position]? = some last) : ∃ earlier < position, final.commits[earlier]? = some first := by
  induction precedes generalizing position with
  | single names => exact called.names_before names found
  | tail _ names ih =>
    obtain ⟨middle, sooner, committed⟩ := called.names_before names found
    obtain ⟨earlier, before', found'⟩ := ih committed
    exact ⟨earlier, Nat.lt_trans before' sooner, found'⟩

/-- The call commits only nodes that it sets free. -/
theorem freed (found : final.commits[position]? = some child)
    (new : before.commits.length ≤ position) : Freed (before.newNode choosed) child := by
  induction position using Nat.strong_induction_on generalizing child with
  | _ position ih =>
    have parents : ∀ entry ∈ ((before.newNode choosed).node child).choosedNode.pTx.entries,
        ∃ earlier < position, ∃ parent, final.commits[earlier]? = some parent ∧
          (before.newNode choosed).txIdOf parent = entry.1 := by
      intro entry member
      rw [← called.contents] at member
      obtain ⟨earlier, sooner, parent, committed, name, _⟩ :=
        called.sound.causal position child found entry member
      exact ⟨earlier, sooner, parent, committed, (called.txIdOf parent).symm.trans name⟩
    refine .intro child (called.commit_inside found) (called.waits found new) ?_ ?_
    · intro entry member
      obtain ⟨earlier, _, parent, committed, name⟩ := parents entry member
      exact ⟨parent, called.commit_inside committed, name⟩
    · intro entry member parent parentIn name undecided
      obtain ⟨earlier, sooner, other, committed, otherName⟩ := parents entry member
      have otherIn := called.commit_inside committed
      have same : other = parent := by
        apply called.filed.distinct other (called.size ▸ otherIn) parent (called.size ▸ parentIn)
        rw [called.txIdOf, called.txIdOf, otherName, name]
      rw [same] at committed
      apply ih earlier sooner committed
      by_contra old
      obtain ⟨below, state⟩ := (called.old_iff committed).mp (by omega)
      rw [newNode_old before choosed parent below] at undecided
      exact undecided state

/-- No node that commits in the call between a parent and its reader writes another value. -/
theorem unshadowed_between (unshadowed : Unshadowed before choosed) {source : Nat} {reader writer : NodeRef}
    {wkv : GVWriteKV} (found : final.commits[position]? = some reader)
    (read : ((before.newNode choosed).node reader).choosedNode.readSet.lookup key = some rkv)
    (fromParent : final.commits[source]? = some parent)
    (name : (before.newNode choosed).txIdOf parent = rkv.parentTxId) (writes : final.commits[index]? = some writer)
    (written : ((before.newNode choosed).node writer).choosedNode.writeSet.lookup key = some wkv)
    (new : before.commits.length ≤ index) (after : source < index ∨ source < before.commits.length)
    (sooner : index < position) : wkv.value = rkv.value := by
  by_contra different
  have other : writer ≠ reader := by
    intro same
    rw [same] at writes
    have equal := called.position_unique writes found
    omega
  rcases unshadowed.ordered reader writer (called.freed found (by omega)) (called.freed writes new)
    other key rkv wkv read written different with late | ⟨sibling, siblingIn, siblingName, early⟩
  · obtain ⟨earlier, before', committed⟩ := called.precedes_before late writes
    have equal := called.position_unique committed found
    omega
  · have same : sibling = parent := by
      apply called.filed.distinct sibling (called.size ▸ siblingIn) parent
        (called.size ▸ called.commit_inside fromParent)
      rw [called.txIdOf, called.txIdOf, siblingName, name]
    rw [same] at early
    obtain ⟨earlier, before', committed⟩ := called.precedes_before early fromParent
    have equal := called.position_unique committed writes
    omega

theorem writeSetOf_old (old : target < before.nodes.size) : final.writeSetOf target = before.writeSetOf target := by
  unfold writeSetOf
  rw [called.contents, newNode_old before choosed target old]

/-- A read from a parent that had committed before the call is current at the start of the call. -/
theorem current_before (unshadowed : Unshadowed before choosed) {reader : NodeRef}
    (found : final.commits[position]? = some reader) (new : before.commits.length ≤ position)
    (read : ((before.newNode choosed).node reader).choosedNode.readSet.lookup key = some rkv)
    (inside : parent < before.nodes.size) (committed : (before.node parent).state = .committed)
    (name : before.txIdOf parent = rkv.parentTxId) : before.gState.lookup key = some rkv.value := by
  rcases Nat.lt_succ_iff_lt_or_eq.mp (called.commit_inside found) with old | same
  · rw [newNode_old before choosed reader old] at read
    exact unshadowed.current reader old (called.freed found new) key rkv read parent inside name committed
  · rw [same] at found read
    rw [node_newNode_new] at read
    exact called.current (List.mem_of_getElem? found) key rkv read parent inside name committed

/-- A call keeps the commits serial. -/
theorem serial (unshadowed : Unshadowed before choosed) (serialBefore : Serial before)
    (recorded : Recorded cut before) (named : ∀ target < (before.newNode choosed).nodes.size,
      ReadsNamed ((before.newNode choosed).node target).choosedNode) : Serial final := by
  intro position child found key rkv read
  rw [called.contents] at read
  by_cases old : position < before.commits.length
  · have childOld := ((called.old_iff found).mp old).1
    have same : (final.commits.take position).map final.writeSetOf =
        (before.commits.take position).map before.writeSetOf := by
      rw [called.take_old (Nat.le_of_lt old)]
      apply map_congr_left
      intro target member
      exact called.writeSetOf_old (recorded.commit_inside target (mem_of_mem_take member))
    rw [same]
    rw [called.getElem?_old old] at found
    rw [newNode_old before choosed child childOld] at read
    exact serialBefore position child found key rkv read
  · have new : before.commits.length ≤ position := Nat.le_of_not_lt old
    obtain ⟨ptx, lookup, value, _⟩ := named child (called.commit_inside found) key rkv read
    rw [← called.contents] at lookup
    obtain ⟨source, sooner, parent, committed, name, agrees⟩ := called.sound.causal position child found
      ⟨rkv.parentTxId, ptx⟩ ((GoMap.mem_entries_iff _ _).mpr lookup)
    obtain ⟨wkv, written, sameValue⟩ := (disagrees_eq_false_iff _ _).mp agrees key rkv.value value
    rw [called.txIdOf] at name
    have between : ∀ index entry, before.commits.length ≤ index → source < index ∨ source < before.commits.length →
        (((final.commits.take position).map final.writeSetOf).map logEntry)[index]? = some entry →
        ∀ other, entry key = some other → other = rkv.value := by
      intro index entry newIndex after atIndex other assigned
      obtain ⟨indexSooner, writer, writes, rfl⟩ := writer_of_entry atIndex
      obtain ⟨otherWkv, otherWritten, rfl⟩ := Option.map_eq_some_iff.mp assigned
      unfold writeSetOf at otherWritten
      rw [called.contents] at otherWritten
      exact called.unshadowed_between unshadowed found read committed name writes otherWritten newIndex
        after indexSooner
    rw [replay_eq]
    by_cases oldParent : source < before.commits.length
    · obtain ⟨parentIn, state⟩ := (called.old_iff committed).mp oldParent
      have nameBefore : before.txIdOf parent = rkv.parentTxId := by
        unfold TxConsensusGraph.txIdOf at name ⊢
        rw [newNode_old before choosed parent parentIn] at name
        exact name
      have start := called.current_before unshadowed found new read parentIn state nameBefore
      have history : (((final.commits.take position).map final.writeSetOf).map logEntry).take
          before.commits.length = (before.commits.map before.writeSetOf).map logEntry := by
        rw [← map_take, ← map_take, take_take, Nat.min_eq_left new,
          called.take_old (Nat.le_refl _), take_length]
        congr 1
        apply map_congr_left
        intro target member
        exact called.writeSetOf_old (recorded.commit_inside target member)
      rw [← take_append_drop before.commits.length
        (((final.commits.take position).map final.writeSetOf).map logEntry), Replay.replay_append, history]
      apply Replay.foldl_write_same
      · rw [← replay_eq, ← recorded.state]
        exact start
      · intro entry member other assigned
        obtain ⟨index, atIndex⟩ := List.mem_iff_getElem?.mp member
        rw [List.getElem?_drop] at atIndex
        exact between _ entry (Nat.le_add_right _ _) (.inr oldParent) atIndex other assigned
    · have fromParent : (((final.commits.take position).map final.writeSetOf).map logEntry)[source]? =
          some (logEntry (final.writeSetOf parent)) := by
        rw [List.getElem?_map, List.getElem?_map, List.getElem?_take, if_pos sooner, committed]
        rfl
      refine Replay.replay_unshadowed fromParent ?_ ?_
      · unfold logEntry writeSetOf
        rw [written, Option.map_some, sameValue]
      · intro index entry later atIndex other assigned
        exact between index entry (by omega) (.inl later) atIndex other assigned

end Called

section

variable (sound : Sound none before []) (recorded : Recorded cut before) (filed : Filed before)
  (fresh : Fresh before choosed) (decodes : processEnvForBC choosed.txResult = some choosed)

include sound recorded filed fresh decodes

/-- A transaction that is not aborted on arrival has read the current state from each committed
parent. -/
theorem arrival_current (accepted : ∀ entry ∈ choosed.pTx.entries, rejects before choosed entry = false)
    (read : choosed.readSet.lookup key = some rkv) (inside : parent < before.nodes.size)
    (name : before.txIdOf parent = rkv.parentTxId) (committed : (before.node parent).state = .committed) :
    before.gState.lookup key = some rkv.value := by
  obtain ⟨ptx, lookup, value, type⟩ := processEnvForBC_named decodes key rkv read
  have present : before.txCNs.lookup rkv.parentTxId = some parent := by
    rw [← name]
    apply filed.present parent inside
    rw [sound.changedLog, committed]
    exact fun dead => NodeState.noConfusion dead.2
  have other : rkv.parentTxId ≠ choosed.txId := name ▸ fresh parent inside
  have verdict := accepted ⟨rkv.parentTxId, ptx⟩ ((GoMap.mem_entries_iff _ _).mpr lookup)
  unfold rejects at verdict
  rw [if_neg other, present] at verdict
  simp only [committed, Bool.or_eq_false_iff, decide_true, Bool.true_and] at verdict
  obtain ⟨agrees, _, notStale⟩ := verdict
  obtain ⟨wkv, written, _⟩ := (disagrees_eq_false_iff _ _).mp agrees key rkv.value value
  have held := (stale_eq_false_iff _ _).mp notStale key rkv.value value (by rw [type]; decide)
  have assigned : (before.gState.lookup key).isSome := by
    rw [recorded.state, replay_eq]
    have listed : parent ∈ before.commits :=
      (mem_commits before parent).mpr ((sound.committedLog parent).mpr ⟨inside, committed⟩)
    refine Replay.replay_isSome (mem_map_of_mem (mem_map_of_mem listed)) ?_
    unfold logEntry writeSetOf
    rw [written]
    rfl
  obtain ⟨current, found⟩ := Option.isSome_iff_exists.mp assigned
  rw [found, Option.getD_some] at held
  rw [found, held]

/-- The facts about a clear call with a fresh decoded transaction. -/
theorem processTX_called (clear : Clear order before choosed)
    (done : processTX order before.nodes.size (before.newNode choosed) = some final) :
    Called before choosed final := by
  have zero := (processEnvForBC_origin decodes).2.1
  obtain ⟨size, contents⟩ := processTX_contents sound.toBounded done
  obtain ⟨soundAfter, accepted⟩ := processTX_judged sound clear done
  have parents : loopParents order before choosed = choosed.pTx := by
    unfold loopParents
    rw [if_neg (by omega)]
  rw [parents] at accepted
  refine ⟨sound, soundAfter, processTX_filed sound.toBounded recorded done fresh filed, size,
    fun target => (contents target).2 (by omega), (processTX_recorded sound.toBounded done recorded).2.2, ?_⟩
  intro committed key rkv read parent inside name state
  have alive : (final.node before.nodes.size).state ≠ .changedState := by
    rw [mem_commits, soundAfter.committedLog] at committed
    rw [committed.2]
    exact NodeState.noConfusion
  exact arrival_current sound recorded filed fresh decodes (accepted alive) read inside name state

end

end Call

end Pobl.Partialorder
