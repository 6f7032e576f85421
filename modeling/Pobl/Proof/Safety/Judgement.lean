import Pobl.Proof.Safety.SoundProcess

namespace Pobl.Partialorder

open Library Protos TxConsensusGraph List Option

variable {ptxcn txCN : NodeRef} {ptxid : TxId} {ptx : PtxKV}

/-- The node that an aborted transaction has left in its wait entry. -/
def TxConsensusGraph.tombstone (graph : TxConsensusGraph) (txid : TxId) : Option NodeRef :=
  (graph.waitUnChoosedTxCNs.lookup txid).bind (·.choosedNode)

/-- A named parent rejects the arriving transaction: the writes of the parent or the current state
contradict its reads, or the parent is aborted. -/
def rejects (graph : TxConsensusGraph) (choosed : GVNode) (entry : GoEntry PtxKV) : Bool :=
  if entry.1 = choosed.txId then disagrees choosed.writeSet entry.2.kv
  else
    match graph.txCNs.lookup entry.1 with
    | some ptxcn =>
      disagrees (graph.node ptxcn).choosedNode.writeSet entry.2.kv ||
        (decide ((graph.node ptxcn).state = .changedState) ||
          (decide ((graph.node ptxcn).state = .committed) && stale graph.gState entry.2))
    | none => (graph.tombstone entry.1).isSome

/-- A named parent has no verdict yet, so the arriving transaction would wait for it. -/
def undecided (graph : TxConsensusGraph) (choosed : GVNode) (entry : GoEntry PtxKV) : Bool :=
  if entry.1 = choosed.txId then !disagrees choosed.writeSet entry.2.kv
  else
    match graph.txCNs.lookup entry.1 with
    | some ptxcn => decide ((graph.node ptxcn).state = .wait)
    | none => (graph.tombstone entry.1).isNone

/-- The graph during the loop still looks like the graph before the arrival,
and the arriving node waits in it. -/
structure Looks (before : TxConsensusGraph) (choosed : GVNode) (graph : TxConsensusGraph) : Prop where
  nodes : ∀ target < before.nodes.size, graph.node target = before.node target
  name : graph.txIdOf before.nodes.size = choosed.txId
  writes : (graph.node before.nodes.size).choosedNode.writeSet = choosed.writeSet
  waits : (graph.node before.nodes.size).state = .wait
  gState : graph.gState = before.gState
  others : ∀ txid ≠ choosed.txId, graph.txCNs.lookup txid = before.txCNs.lookup txid
  here : graph.txCNs.lookup choosed.txId = some before.nodes.size
  tombstone : ∀ txid, graph.tombstone txid = before.tombstone txid

variable {before graph graph' : TxConsensusGraph} {choosed : GVNode} {entry : GoEntry PtxKV}
  (inside : ∀ txid target, before.txCNs.lookup txid = some target → target < before.nodes.size) {kv : GoMap Value}

theorem Looks.missing (looks : Looks before choosed graph) (absent : graph.txCNs.lookup entry.1 = none) :
    rejects before choosed entry = (graph.tombstone entry.1).isSome ∧
      undecided before choosed entry = (graph.tombstone entry.1).isNone := by
  have other : entry.1 ≠ choosed.txId := by
    intro same
    rw [same, looks.here] at absent
    cases absent
  have old : before.txCNs.lookup entry.1 = none := (looks.others _ other).symm.trans absent
  unfold rejects undecided
  rw [if_neg other, if_neg other, old, looks.tombstone]
  exact ⟨rfl, rfl⟩

include inside in
theorem Looks.present (looks : Looks before choosed graph) (found : graph.txCNs.lookup entry.1 = some ptxcn) :
    rejects before choosed entry = (disagrees (graph.node ptxcn).choosedNode.writeSet entry.2.kv ||
        (decide ((graph.node ptxcn).state = .changedState) ||
          (decide ((graph.node ptxcn).state = .committed) && stale graph.gState entry.2))) ∧
    (undecided before choosed entry = false → (graph.node ptxcn).state = .wait → ptxcn = before.nodes.size ∧
        disagrees (graph.node ptxcn).choosedNode.writeSet entry.2.kv = true) := by
  by_cases self : entry.1 = choosed.txId
  · rw [self, looks.here, Option.some.injEq] at found
    subst ptxcn
    unfold rejects undecided
    rw [if_pos self, if_pos self, looks.writes, looks.waits]
    refine ⟨by simp, fun decided _ => ⟨rfl, ?_⟩⟩
    simpa using decided
  · have old : before.txCNs.lookup entry.1 = some ptxcn := (looks.others _ self).symm.trans found
    have same := looks.nodes ptxcn (inside entry.1 ptxcn old)
    unfold rejects undecided
    rw [if_neg self, if_neg self, old, same, looks.gState]
    refine ⟨rfl, fun decided waits => ?_⟩
    simp [waits] at decided

/-- The graph keeps its look when only the arriving node changes and its verdict stays open. -/
theorem Looks.step (looks : Looks before choosed graph)
    (nodes : ∀ target ≠ before.nodes.size, graph'.node target = graph.node target)
    (self : (graph'.node before.nodes.size).choosedNode = (graph.node before.nodes.size).choosedNode ∧
      (graph'.node before.nodes.size).state = (graph.node before.nodes.size).state)
    (gState : graph'.gState = graph.gState) (present : graph'.txCNs = graph.txCNs)
    (tombstone : ∀ txid, graph'.tombstone txid = graph.tombstone txid) : Looks before choosed graph' where
  nodes target inside := (nodes target (Nat.ne_of_lt inside)).trans (looks.nodes target inside)
  name := (congrArg GVNode.txId self.1).trans looks.name
  writes := (congrArg GVNode.writeSet self.1).trans looks.writes
  waits := self.2.trans looks.waits
  gState := gState.trans looks.gState
  others txid other := by
    rw [present]
    exact looks.others txid other
  here := by
    rw [present]
    exact looks.here
  tombstone txid := (tombstone txid).trans (looks.tombstone txid)

/-- What the registration with a missing parent leaves behind. -/
structure Awaits (graph graph' : TxConsensusGraph) (txCN : NodeRef) (ptxid : TxId) (ptx : PtxKV) : Prop where
  nodes : ∀ target ≠ txCN, graph'.node target = graph.node target
  self : (graph'.node txCN).choosedNode = (graph.node txCN).choosedNode ∧
    (graph'.node txCN).state = (graph.node txCN).state
  gState : graph'.gState = graph.gState
  present : graph'.txCNs = graph.txCNs
  others : ∀ txid ≠ ptxid, graph'.waitUnChoosedTxCNs.lookup txid = graph.waitUnChoosedTxCNs.lookup txid
  entry : ∃ waitTxcn, graph'.waitUnChoosedTxCNs.lookup ptxid = some waitTxcn ∧
    waitTxcn.choosedNode = none ∧ txCN ∈ graph'.nList waitTxcn.childNodes ∧
    (waitTxcn.diffWaitWKV = false → ∀ key value, ptx.kv.lookup key = some value →
      waitTxcn.writeSet.lookup key = some value)

theorem Awaits.tombstone (awaits : Awaits graph graph' txCN ptxid ptx) (none : graph.tombstone ptxid = none)
    (txid : TxId) : graph'.tombstone txid = graph.tombstone txid := by
  unfold TxConsensusGraph.tombstone
  by_cases same : txid = ptxid
  · obtain ⟨waitTxcn, found, undecided, _⟩ := awaits.entry
    rw [same, found, bind_some, undecided]
    exact none.symm
  · rw [awaits.others txid same]

theorem visitMissingParent_await (order : RangeOrder RangeSite) (txCN : NodeRef) (ptx : PtxKV)
    (none : graph.tombstone ptxid = none) :
    (visitMissingParent order txCN ptxid ptx graph).2 = false ∧
      Awaits graph (visitMissingParent order txCN ptxid ptx graph).1 txCN ptxid ptx := by
  obtain ⟨sameNodes, samePresent⟩ := ensureWait_nodes graph ptxid
  obtain ⟨waitTxcn, found⟩ := ensureWait_lookup graph ptxid
  have sameState : (ensureWait graph ptxid).gState = graph.gState := by
    unfold ensureWait
    split <;> rfl
  have undecided : waitTxcn.choosedNode = Option.none := by
    unfold ensureWait at found
    split at found
    · rw [waits_addWait, if_pos rfl] at found
      cases found
      rfl
    · unfold TxConsensusGraph.tombstone at none
      rw [found] at none
      exact none
  have otherWaits : ∀ txid ≠ ptxid, (ensureWait graph ptxid).waitUnChoosedTxCNs.lookup txid =
      graph.waitUnChoosedTxCNs.lookup txid := by
    intro txid different
    unfold ensureWait
    split
    · exact AList.lookup_insert_ne different
    · rfl
  have node : ∀ target, (ensureWait graph ptxid).node target = graph.node target :=
    fun target => congrArg (fun heap => heap.read target) sameNodes
  unfold visitMissingParent
  dsimp only
  rw [found, getD_some]
  split
  next decided =>
    refine ⟨rfl, ?_, ?_, sameState, samePresent, ?_, ?_⟩
    · intro target different
      rw [node_register_other _ _ _ _ different, node_setWait, node_modifyNode, if_neg different, node]
    · rw [((enlisted_register _ _ _ _).nodes _).1, ((enlisted_register _ _ _ _).nodes _).2.2.1, node_setWait,
        node_modifyNode, if_pos rfl, node]
      exact ⟨rfl, rfl⟩
    · intro txid different
      exact (AList.lookup_insert_ne different).trans (otherWaits txid different)
    · refine ⟨_, AList.lookup_insert _, ?_, ?_, ?_⟩
      · exact (expectKV_childNodes _ _).2.trans undecided
      · rw [(expectKV_childNodes _ _).1]
        rw [nList_register, if_pos rfl]
        exact mem_append_right _ (mem_singleton.mpr rfl)
      · intro clear key value read
        refine expectKV_expects _ _ clear ⟨key, value⟩ ?_
        rw [order.mem_visit, GoMap.mem_entries_iff]
        exact read
  next other decided =>
    rw [undecided] at decided
    cases decided

theorem inheritWaitPTX_other {txid : TxId} {other : NodeRef} {ancestors : List TxId} {graph final : TxConsensusGraph}
    (different : other ≠ txCN) (done : inheritWaitPTX txid txCN ancestors graph = some final) :
    final.node other = graph.node other := by
  induction ancestors generalizing graph with
  | nil =>
    cases done
    rfl
  | cons waitptx rest ih =>
    unfold inheritWaitPTX at done
    dsimp only at done
    split at done
    · cases done
    · rw [ih done, node_setWait, node_modifyNode, if_neg different]

theorem Noted.tombstone (noted : Noted graph graph') (txid : TxId) :
    graph'.tombstone txid = graph.tombstone txid := by
  have same := congrArg (fun entry => entry.bind fun core => core.2.2.2) (noted.waits txid)
  simp only [bind_map] at same
  exact same

/-- A registration in the list of an undecided wait entry accounts for the parent. -/
theorem Linked.covered_wait (linked : Linked graph []) {waitTxcn : WaitTxConsensusNode}
    (found : graph.waitUnChoosedTxCNs.lookup ptxid = some waitTxcn) (undecided : waitTxcn.choosedNode = none)
    (member : txCN ∈ graph.nList waitTxcn.childNodes)
    (expects : waitTxcn.diffWaitWKV = false → ∀ key value, kv.lookup key = some value →
      waitTxcn.writeSet.lookup key = some value) : Covered graph txCN ptxid kv := by
  refine .inr ⟨waitTxcn.childNodes, linked.waitOwned ptxid waitTxcn found, member, ?_, ?_⟩
  · intro owner inside points _
    exact absurd undecided (linked.waitShared ptxid waitTxcn found owner inside points).2
  · intro txid other lookup points
    have name := linked.waitApart txid ptxid other waitTxcn lookup found points
    rw [name, found, Option.some.injEq] at lookup
    exact ⟨name, lookup ▸ expects⟩

/-- A registration in the list of a waiting node accounts for the parent. -/
theorem Linked.covered_node (linked : Linked graph []) (inside : ptxcn < graph.nodes.size)
    (undecided : (graph.node ptxcn).state = .wait) (member : txCN ∈ graph.nList (graph.node ptxcn).childNodes)
    (agrees : disagrees (graph.node ptxcn).choosedNode.writeSet kv = false) :
    Covered graph txCN (graph.txIdOf ptxcn) kv := by
  refine .inr ⟨_, linked.owned ptxcn inside, member, ?_, ?_⟩
  · intro owner below points _
    have same : owner = ptxcn := by
      by_contra different
      exact linked.alone inside undecided owner below different points
    rw [same]
    exact ⟨rfl, agrees⟩
  · intro txid waitTxcn found points
    have dead := (linked.waitShared txid waitTxcn found ptxcn inside points.symm).1
    rw [undecided] at dead
    cases dead

variable {order : RangeOrder RangeSite} {stop : Bool}

include inside in
/-- A parent that does not reject the node is accounted for, and the loop goes on. -/
theorem visitParent_accepted (looks : Looks before choosed graph) (entering : Entering before.nodes.size graph)
    (entered : Entering before.nodes.size graph') (accepted : rejects before choosed entry = false)
    (done : visitParent order before.nodes.size entry.1 entry.2 graph = some (graph', stop)) :
    stop = false ∧ Looks before choosed graph' ∧ Covered graph' before.nodes.size entry.1 entry.2.kv := by
  unfold visitParent at done
  split at done
  next absent =>
    have none : graph.tombstone entry.1 = none := by
      rw [(looks.missing absent).1] at accepted
      exact not_isSome_iff_eq_none.mp (by rw [accepted]; decide)
    obtain ⟨flag, awaits⟩ := visitMissingParent_await order before.nodes.size entry.2 none
    have sameGraph := congrArg Prod.fst (Option.some.inj done)
    have sameStop := congrArg Prod.snd (Option.some.inj done)
    rw [sameGraph] at awaits
    refine ⟨sameStop.symm.trans flag, looks.step awaits.nodes awaits.self awaits.gState awaits.present
      (awaits.tombstone none), ?_⟩
    obtain ⟨waitTxcn, found, undecided, member, expects⟩ := awaits.entry
    exact entered.sound.toLinked.covered_wait found undecided member expects
  next ptxcn found =>
    obtain ⟨parentIn, name⟩ := entering.sound.present entry.1 ptxcn found
    rw [(looks.present inside found).1, Bool.or_eq_false_iff, Bool.or_eq_false_iff] at accepted
    obtain ⟨agrees, alive, current⟩ := accepted
    unfold visitPresentParent at done
    rw [if_neg (by rw [agrees]; decide)] at done
    unfold followParent at done
    split at done
    next committed =>
      have fresh : stale graph.gState entry.2 = false := by
        simpa [committed] using current
      have waits : (graph.node before.nodes.size).state ≠ .changedState := by
        rw [looks.waits]
        decide
      rw [fresh] at done
      simp only [Bool.false_eq_true, if_false, waits] at done
      cases done
      exact ⟨rfl, looks, .inl ⟨ptxcn, parentIn, name, committed, agrees⟩⟩
    next ready => exact absurd ready (entering.sound.notReady ptxcn parentIn)
    next undecided =>
      obtain ⟨final, inherited, same⟩ := map_eq_some_iff.mp done
      cases same
      have noted := inheritWaitPTX_noted inherited
      have nodes := (enlisted_register graph (graph.node ptxcn).childNodes before.nodes.size entry.1).nodes
      have parent : (graph'.node ptxcn).choosedNode = (graph.node ptxcn).choosedNode ∧
          (graph'.node ptxcn).childNodes = (graph.node ptxcn).childNodes ∧
          (graph'.node ptxcn).state = (graph.node ptxcn).state := by
        rw [noted.nodes ptxcn]
        exact ⟨(nodes ptxcn).1, (nodes ptxcn).2.1, (nodes ptxcn).2.2.1⟩
      refine ⟨rfl, looks.step ?_ ?_ noted.gState noted.present noted.tombstone, ?_⟩
      · intro target different
        rw [inheritWaitPTX_other different inherited, node_register_other _ _ _ _ different]
      · rw [noted.nodes before.nodes.size]
        exact ⟨(nodes _).1, (nodes _).2.2.1⟩
      · have covered : Covered graph' before.nodes.size (graph'.txIdOf ptxcn) entry.2.kv := by
          apply entered.sound.toLinked.covered_node
          · rw [noted.size]
            exact parentIn
          · rw [parent.2.2]
            exact undecided
          · rw [nList, noted.lists, parent.2.1, ← nList, nList_register, if_pos rfl]
            exact mem_append_right _ (mem_singleton.mpr rfl)
          · rw [parent.1]
            exact agrees
        have sameName : graph'.txIdOf ptxcn = entry.1 :=
          (congrArg GVNode.txId parent.1).trans name
        rw [sameName] at covered
        exact covered
    next dead =>
      rw [dead] at alive
      simp at alive

theorem parentNum_reject (graph : TxConsensusGraph) (txCN : NodeRef) (state : NodeState) :
    ((graph.setState txCN state).node txCN).parentNum = (graph.node txCN).parentNum := by
  rw [node_setState, if_pos rfl]

theorem Noted.parentNum (noted : Noted graph graph') (target : NodeRef) :
    (graph'.node target).parentNum = (graph.node target).parentNum := by
  rw [noted.nodes target]

theorem addTombstone_node (graph : TxConsensusGraph) (txid : TxId) (txCN other : NodeRef) :
    (graph.addTombstone txid txCN).node other = graph.node other :=
  congrArg (fun heap => heap.read other) (addTombstone_nodes graph txid txCN).1

/-- A parent with a verdict never registers the node, and a rejection by it ends the loop. -/
theorem followParent_decided (decided : (graph.node ptxcn).state ≠ .wait)
    (notReady : (graph.node ptxcn).state ≠ .ready)
    (done : followParent txCN ptxcn ptxid ptx graph = some (graph', stop)) :
    (graph'.node txCN).parentNum = (graph.node txCN).parentNum ∧
      ((graph.node txCN).state = .changedState ∨ (graph.node ptxcn).state = .changedState ∨
        stale graph.gState ptx = true → stop = true) := by
  unfold followParent at done
  dsimp only at done
  split at done
  next committed =>
    have judged : ∃ judged, judged = (if stale graph.gState ptx then
        (graph.countChangedState 1).setState txCN .changedState else graph) ∧
        (judged.node txCN).parentNum = (graph.node txCN).parentNum ∧
        ((graph.node txCN).state = .changedState ∨ stale graph.gState ptx = true →
          (judged.node txCN).state = .changedState) := by
      refine ⟨_, rfl, ?_, ?_⟩
      · split
        · rw [parentNum_reject]
          rfl
        · rfl
      · intro reason
        split
        · rw [node_setState, if_pos rfl]
        next fresh =>
          rcases reason with dead | old
          · exact dead
          · exact absurd old fresh
    obtain ⟨judged, same, sameNum, dead⟩ := judged
    rw [← same] at done
    split at done
    · cases done
      refine ⟨?_, fun _ => rfl⟩
      change ((judged.addTombstone _ txCN).node txCN).parentNum = _
      rw [addTombstone_node]
      exact sameNum
    next alive =>
      cases done
      refine ⟨sameNum, ?_⟩
      rintro (self | parent | old)
      · exact absurd (dead (.inl self)) alive
      · rw [committed] at parent
        cases parent
      · exact absurd (dead (.inr old)) alive
  next ready => exact absurd ready notReady
  next waits => exact absurd waits decided
  · obtain ⟨final, inherited, same⟩ := map_eq_some_iff.mp done
    cases same
    refine ⟨?_, fun _ => rfl⟩
    rw [(inheritWaitPTX_noted inherited).parentNum, parentNum_reject]
    rfl

include inside in
/-- A decided parent leaves the counter of the node alone. -/
theorem visitParent_decided (looks : Looks before choosed graph) (entering : Entering before.nodes.size graph)
    (decided : undecided before choosed entry = false)
    (done : visitParent order before.nodes.size entry.1 entry.2 graph = some (graph', stop)) :
    (graph'.node before.nodes.size).parentNum = (graph.node before.nodes.size).parentNum ∧
      (rejects before choosed entry = true → stop = true) := by
  unfold visitParent at done
  split at done
  next absent =>
    rw [(looks.missing absent).2] at decided
    obtain ⟨dead, some⟩ : ∃ dead, graph.tombstone entry.1 = some dead := by
      cases known : graph.tombstone entry.1 with
      | none =>
        rw [known] at decided
        cases decided
      | some dead => exact ⟨dead, rfl⟩
    obtain ⟨waitTxcn, found, choosedDead⟩ := bind_eq_some_iff.mp some
    have ensured : ensureWait graph entry.1 = graph := by
      unfold ensureWait
      rw [found]
    have same := Option.some.inj done
    unfold visitMissingParent at same
    dsimp only at same
    rw [ensured, found, getD_some, choosedDead] at same
    cases same
    refine ⟨?_, fun _ => rfl⟩
    rw [parentNum_reject, node_countChangedState, node_setWait, node_modifyNode, if_pos rfl]
  next ptxcn found =>
    obtain ⟨parentIn, _⟩ := entering.sound.present entry.1 ptxcn found
    have notReady := entering.sound.notReady ptxcn parentIn
    obtain ⟨reasons, waiting⟩ := looks.present inside found
    unfold visitPresentParent at done
    split at done
    next mismatch =>
      have node := rejectWrites_node graph before.nodes.size
      have dead : ((rejectWrites before.nodes.size graph).node before.nodes.size).state = .changedState := by
        rw [node, if_pos rfl]
      have notWait : ((rejectWrites before.nodes.size graph).node ptxcn).state ≠ .wait := by
        rw [node]
        split
        · exact NodeState.noConfusion
        next other =>
          intro waits
          exact other (waiting decided waits).1
      have stillNotReady : ((rejectWrites before.nodes.size graph).node ptxcn).state ≠ .ready := by
        rw [node]
        split
        · exact NodeState.noConfusion
        · exact notReady
      obtain ⟨sameNum, stops⟩ := followParent_decided notWait stillNotReady done
      refine ⟨sameNum.trans ?_, fun _ => stops (.inl dead)⟩
      rw [node, if_pos rfl]
    next agrees =>
      have notWait : (graph.node ptxcn).state ≠ .wait := by
        intro waits
        exact agrees (waiting decided waits).2
      obtain ⟨sameNum, stops⟩ := followParent_decided notWait notReady done
      refine ⟨sameNum, fun rejected => stops ?_⟩
      rw [reasons, Bool.or_eq_true, Bool.or_eq_true, Bool.and_eq_true, decide_eq_true_eq] at rejected
      rcases rejected with mismatch | parentDead | old
      · exact absurd mismatch agrees
      · exact .inr (.inl parentDead)
      · exact .inr (.inr old.2)

/-- The loop stops early only for an aborted node. -/
theorem followParent_stop (done : followParent txCN ptxcn ptxid ptx graph = some (graph', true)) :
    (graph'.node txCN).state = .changedState := by
  unfold followParent at done
  dsimp only at done
  split at done
  · generalize (if stale graph.gState ptx then
        (graph.countChangedState 1).setState txCN .changedState else graph) = judged at *
    split at done
    next dead =>
      cases done
      change ((judged.addTombstone _ txCN).node txCN).state = _
      rw [addTombstone_node]
      exact dead
    · cases done
  · cases done
  · obtain ⟨final, _, same⟩ := map_eq_some_iff.mp done
    cases same
  · obtain ⟨final, inherited, same⟩ := map_eq_some_iff.mp done
    cases same
    rw [(inheritWaitPTX_noted inherited).nodes txCN]
    exact abort_state _ txCN

theorem visitParent_stop (done : visitParent order txCN ptxid ptx graph = some (graph', true)) :
    (graph'.node txCN).state = .changedState := by
  unfold visitParent at done
  split at done
  · have same := Option.some.inj done
    unfold visitMissingParent at same
    dsimp only at same
    split at same
    · cases same
    · cases same
      exact abort_state _ txCN
  · exact followParent_stop done

section Loop

variable {entries : List (GoEntry PtxKV)} {final : TxConsensusGraph}

include inside

section

variable (looks : Looks before choosed graph) (entering : Entering before.nodes.size graph)
  (ready : Ready before.nodes.size graph)
  (named : ∀ entry ∈ entries, (graph.node before.nodes.size).choosedNode.pTx.lookup entry.1 = some entry.2)
  (done : visitParents order before.nodes.size entries graph = some final)

include looks entering ready named done

/-- When no parent rejects the node, it waits after the loop and all parents are accounted for. -/
theorem visitParents_accepted (accepted : ∀ entry ∈ entries, rejects before choosed entry = false) :
    Looks before choosed final ∧ ∀ entry ∈ entries, Covered final before.nodes.size entry.1 entry.2.kv := by
  induction entries generalizing graph with
  | nil =>
    cases done
    exact ⟨looks, nofun⟩
  | cons entry rest ih =>
    have namedFirst := named entry mem_cons_self
    have acceptedFirst := accepted entry mem_cons_self
    unfold visitParents at done
    split at done
    · cases done
    next next visited =>
      have entered := (visitParent_moves ready namedFirst visited).entering entering
      cases (visitParent_accepted inside looks entering entered acceptedFirst visited).1
    next next visited =>
      have moves := visitParent_moves ready namedFirst visited
      have entered := moves.entering entering
      obtain ⟨_, looksNext, covered⟩ :=
        visitParent_accepted inside looks entering entered acceptedFirst visited
      have namedRest : ∀ other ∈ rest,
          (next.node before.nodes.size).choosedNode.pTx.lookup other.1 = some other.2 := by
        intro other member
        rw [(moves.keeps.2 _).1]
        exact named other (mem_cons_of_mem _ member)
      have later := visitParents_moves (moves.ready ready) namedRest done
      obtain ⟨looksFinal, coveredRest⟩ := ih looksNext entered (moves.ready ready) namedRest done
        fun other member => accepted other (mem_cons_of_mem _ member)
      refine ⟨looksFinal, ?_⟩
      intro other member
      rcases mem_cons.mp member with same | inRest
      · rw [same]
        exact covered.advance (later.advances entered)
      · exact coveredRest other inRest

/-- When every parent has a verdict, the node never registers. -/
theorem visitParents_decided (decided : ∀ entry ∈ entries, undecided before choosed entry = false) :
    (final.node before.nodes.size).parentNum = (graph.node before.nodes.size).parentNum ∧
    ((final.node before.nodes.size).state ≠ .changedState →
      ∀ entry ∈ entries, rejects before choosed entry = false) := by
  induction entries generalizing graph with
  | nil =>
    cases done
    exact ⟨rfl, fun _ => nofun⟩
  | cons entry rest ih =>
    have namedFirst := named entry mem_cons_self
    have decidedFirst := decided entry mem_cons_self
    unfold visitParents at done
    split at done
    · cases done
    next next visited =>
      cases done
      refine ⟨(visitParent_decided inside looks entering decidedFirst visited).1, fun alive => ?_⟩
      exact absurd (visitParent_stop visited) alive
    next next visited =>
      have moves := visitParent_moves ready namedFirst visited
      have entered := moves.entering entering
      obtain ⟨sameNum, stops⟩ := visitParent_decided inside looks entering decidedFirst visited
      have acceptedFirst : rejects before choosed entry = false := by
        by_contra rejected
        cases stops (Bool.eq_true_of_not_eq_false rejected)
      obtain ⟨_, looksNext, _⟩ :=
        visitParent_accepted inside looks entering entered acceptedFirst visited
      obtain ⟨restNum, acceptedRest⟩ := ih looksNext entered (moves.ready ready) (fun other member => by
          rw [(moves.keeps.2 _).1]
          exact named other (mem_cons_of_mem _ member)) done
        fun other member => decided other (mem_cons_of_mem _ member)
      refine ⟨restNum.trans sameNum, fun alive other member => ?_⟩
      rcases mem_cons.mp member with same | inRest
      · rw [same]
        exact acceptedFirst
      · exact acceptedRest alive other inRest

end

end Loop

end Pobl.Partialorder
