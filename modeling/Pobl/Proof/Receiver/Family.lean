/-
This file treats transactions that fit together: each read matches the write of its parent,
no key is written twice, and the parents form no cycle.
No arrival order makes the graph abort such a transaction.
-/

import Pobl.Proof.Receiver.Tracked

namespace Pobl.BlockCutter

open Library Protos Partialorder TxConsensusGraph

/-- A member of the family names the first identifier as a parent of the second one. -/
def NamesParent (member : GVNode → Prop) (ptxid txid : TxId) : Prop :=
  ∃ child, member child ∧ child.txId = txid ∧ ∃ ptx, child.pTx.lookup ptxid = some ptx

/-- The members of the family fit together. -/
structure Harmonious (member : GVNode → Prop) : Prop where
  parent : ∀ child, member child → ∀ ptxid ptx, child.pTx.lookup ptxid = some ptx →
    ∃ parent, member parent ∧ parent.txId = ptxid ∧ disagrees parent.writeSet ptx.kv = false
  distinct : ∀ first second, member first → member second → first.txId = second.txId → first = second
  acyclic : WellFounded (NamesParent member)
  once : ∀ first second key, member first → member second → (first.writeSet.lookup key).isSome →
    (second.writeSet.lookup key).isSome → first = second

/-- What a session keeps while the members of a family arrive. -/
structure Completing (member : GVNode → Prop) (graph : TxConsensusGraph) (cut : List Envelope) : Prop
    extends Tracked graph cut where
  members : ∀ target < graph.nodes.size, member (graph.node target).choosedNode

section Arrival

variable {member : GVNode → Prop} {before final : TxConsensusGraph} {cut : List Envelope} {choosed : GVNode}

theorem Harmonious.not_self (harmonious : Harmonious member) (new : member choosed) :
    choosed.pTx.lookup choosed.txId = none := by
  rw [Option.eq_none_iff_forall_ne_some]
  intro ptx named
  exact harmonious.acyclic.irrefl.irrefl choosed.txId ⟨choosed, new, rfl, ptx, named⟩

/-- The reads of a member match the member that has the parent's identifier. -/
theorem Harmonious.agrees (harmonious : Harmonious member) {child parent : GVNode} (new : member child)
    (old : member parent) {ptx : PtxKV} (named : child.pTx.lookup parent.txId = some ptx) :
    disagrees parent.writeSet ptx.kv = false := by
  obtain ⟨other, known, name, agrees⟩ := harmonious.parent child new parent.txId ptx named
  rw [← harmonious.distinct other parent known old name]
  exact agrees

section

variable (completing : Completing member before cut) (harmonious : Harmonious member)

include completing harmonious

/-- The state holds what a committed member wrote. -/
theorem Completing.current {parent : NodeRef} (committed : parent ∈ before.commits) {key : Key} {wkv : GVWriteKV}
    (written : (before.writeSetOf parent).lookup key = some wkv) : before.gState.lookup key = some wkv.value := by
  have recorded := completing.fed.kept.2
  have inside := fun target (listed : target ∈ before.commits) => recorded.commit_inside target listed
  obtain ⟨position, found⟩ := List.mem_iff_getElem?.mp committed
  rw [recorded.state, replay_eq]
  have fromParent : ((before.commits.map before.writeSetOf).map logEntry)[position]? =
      some (logEntry (before.writeSetOf parent)) := by
    rw [List.getElem?_map, List.getElem?_map, found]
    rfl
  refine Replay.replay_unshadowed fromParent ?_ ?_
  · unfold logEntry
    rw [written]
    rfl
  · intro index entry _ atIndex other assigned
    rw [List.getElem?_map, List.getElem?_map] at atIndex
    obtain ⟨writeSet, some, rfl⟩ := Option.map_eq_some_iff.mp atIndex
    obtain ⟨writer, writes, rfl⟩ := Option.map_eq_some_iff.mp some
    obtain ⟨otherWkv, otherWritten, rfl⟩ := Option.map_eq_some_iff.mp assigned
    have listed := List.mem_of_getElem? writes
    have same : before.writeSetOf writer = before.writeSetOf parent :=
      congrArg GVNode.writeSet (harmonious.once _ _ key (completing.members writer (inside writer listed))
        (completing.members parent (inside parent committed))
        (by
          rw [show (before.node writer).choosedNode.writeSet.lookup key = _ from otherWritten]
          rfl)
        (by
          rw [show (before.node parent).choosedNode.writeSet.lookup key = _ from written]
          rfl))
    rw [same, written, Option.some.injEq] at otherWritten
    rw [otherWritten]

/-- An arriving member fits. -/
theorem Completing.fits (new : member choosed) : Fits before choosed where
  notSelf := harmonious.not_self new
  agrees := fun parent inside _ named => harmonious.agrees new (completing.members parent inside) named
  current := by
    intro parent inside ptx named committed
    rw [stale_eq_false_iff]
    intro key value read _
    have agrees := harmonious.agrees new (completing.members parent inside) named
    obtain ⟨wkv, written, same⟩ := (disagrees_eq_false_iff _ _).mp agrees key value read
    have listed : parent ∈ before.commits :=
      (mem_commits before parent).mpr ((completing.fed.kept.1.committedLog parent).mpr ⟨inside, committed⟩)
    rw [completing.current harmonious listed written, Option.getD_some]
    exact same
  expected := by
    rintro ⟨child, inside, key, value, ⟨ptx, named, claimed⟩, wrong⟩
    have agrees := harmonious.agrees (completing.members child inside) new named
    obtain ⟨wkv, written, same⟩ := (disagrees_eq_false_iff _ _).mp agrees key value claimed
    exact wrong wkv written same

/-- The arrival of a member returns and keeps everything. -/
theorem Completing.arrives (new : member choosed) (admitted : Admitted before choosed)
    (order : RangeOrder RangeSite) :
    ∃ final, processTX order before.nodes.size (before.newNode choosed) = some final ∧
      Completing member final cut := by
  have fits := completing.fits harmonious new
  obtain ⟨final, done, change, blame⟩ := completing.toTracked.arrives admitted fits order
  have members : ∀ target < final.nodes.size, member (final.node target).choosedNode := by
    intro target inside
    rw [change.size] at inside
    rw [change.contents]
    rcases Nat.lt_succ_iff_lt_or_eq.mp inside with old | same
    · rw [newNode_old before choosed target old]
      exact completing.members target old
    · rw [same, node_newNode_new]
      exact new
  have recorded := (processTX_recorded completing.bounded done completing.fed.kept.2).2.1
  -- An aborted member has an aborted parent, so the induction is along the parents.
  have clean : ∀ txid target, final.txIdOf target = txid → (target, .changedState) ∉ final.stateLog := by
    intro txid
    induction txid using harmonious.acyclic.induction with
    | _ txid ih =>
      intro target name logged
      obtain ⟨ptxid, ptx, named, owner, _, owned, aborted⟩ := blame target logged
      have inside := recorded.inside target _ logged
      exact ih ptxid ⟨_, members target inside, name, ptx, named⟩ owner owned aborted
  exact ⟨final, done, completing.toTracked.processTX admitted fits (fun target => clean _ target rfl) done, members⟩

end

end Arrival

section Complete

variable {member : GVNode → Prop} {graph : TxConsensusGraph} {cut : List Envelope}
  (completing : Completing member graph cut) (harmonious : Harmonious member)
  (arrived : ∀ gvnode, member gvnode → ∃ target < graph.nodes.size, (graph.node target).choosedNode = gvnode)

include completing harmonious arrived

/-- A parent of an arrived member has arrived. -/
theorem Completing.parent_arrived : ∀ child < graph.nodes.size, ∀ ptxid ptx,
    (graph.node child).choosedNode.pTx.lookup ptxid = some ptx →
      ∃ parent < graph.nodes.size, graph.txIdOf parent = ptxid := by
  intro child inside ptxid ptx named
  obtain ⟨parent, known, name, _⟩ := harmonious.parent _ (completing.members child inside) ptxid ptx named
  obtain ⟨target, targetIn, same⟩ := arrived parent known
  exact ⟨target, targetIn, (congrArg GVNode.txId same).trans name⟩

/-- Every member commits. -/
theorem Completing.all_committed : ∀ target < graph.nodes.size, (graph.node target).state = .committed := by
  have each : ∀ txid, ∀ target < graph.nodes.size, graph.txIdOf target = txid →
      (graph.node target).state = .committed := by
    intro txid
    induction txid using harmonious.acyclic.induction with
    | _ txid ih =>
      intro target inside name
      refine completing.toTracked.committed (completing.parent_arrived harmonious arrived) inside ?_
      rintro parent parentIn ⟨ptx, named⟩
      exact ih _ ⟨_, completing.members target inside, name, ptx, named⟩ parent parentIn rfl
  exact fun target inside => each _ target inside rfl

end Complete

end Pobl.BlockCutter
