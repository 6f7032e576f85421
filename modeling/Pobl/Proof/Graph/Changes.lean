import Pobl.Proof.Graph.Cascade
import Pobl.Proof.Graph.Moves

namespace Pobl.Partialorder

open Library Protos TxConsensusGraph WaitTxConsensusNode

variable {graph graph' : TxConsensusGraph} {tasks tasks' : List Task} {txCN : NodeRef}
  {waitTxcn : WaitTxConsensusNode}

/-- The conflict flag and the expectations of a wait entry only grow. -/
theorem expectKV_grows (entries : List (GoEntry Value)) (waitTxcn : WaitTxConsensusNode) :
    ((expectKV entries waitTxcn).diffWaitWKV = false → waitTxcn.diffWaitWKV = false) ∧
      ∀ key value, waitTxcn.writeSet.lookup key = some value →
        (expectKV entries waitTxcn).writeSet.lookup key = some value := by
  induction entries generalizing waitTxcn with
  | nil => exact ⟨id, fun _ _ same => same⟩
  | cons entry rest ih =>
    unfold expectKV
    split
    next absent =>
      obtain ⟨clear, kept⟩ := ih { waitTxcn with writeSet := waitTxcn.writeSet.insert entry.1 entry.2 }
      refine ⟨clear, fun key value expected => kept key value ?_⟩
      rw [GoMap.lookup_insert_apply]
      split
      next same =>
        rw [same, absent] at expected
        cases expected
      · exact expected
    · split
      · exact ⟨nofun, fun _ _ same => same⟩
      · exact ih waitTxcn

/-- Without a conflict the entry expects every read of the child. -/
theorem expectKV_expects (entries : List (GoEntry Value)) (waitTxcn : WaitTxConsensusNode)
    (clear : (expectKV entries waitTxcn).diffWaitWKV = false) :
    ∀ entry ∈ entries, (expectKV entries waitTxcn).writeSet.lookup entry.1 = some entry.2 := by
  induction entries generalizing waitTxcn with
  | nil => nofun
  | cons entry rest ih =>
    intro target member
    unfold expectKV at clear ⊢
    split at clear
    next absent =>
      rcases List.mem_cons.mp member with same | later
      · subst target
        apply (expectKV_grows rest _).2
        exact AList.lookup_insert _
      · exact ih _ clear target later
    next value found =>
      split at clear
      · cases clear
      next agree =>
        rw [if_neg agree]
        rcases List.mem_cons.mp member with same | later
        · subst target
          apply (expectKV_grows rest _).2
          rw [found, not_not.mp agree]
        · exact ih _ clear target later

/-- The nodes, the lists and the history stay, and the wait entries keep their expectations. -/
structure Reshaped (graph graph' : TxConsensusGraph) : Prop where
  size : graph'.nodes.size = graph.nodes.size
  lists : graph'.childLists = graph.childLists
  log : graph'.stateLog = graph.stateLog
  nodes : ∀ target, (graph'.node target).choosedNode = (graph.node target).choosedNode ∧
    (graph'.node target).childNodes = (graph.node target).childNodes ∧
    (graph'.node target).state = (graph.node target).state
  parentNum : ∀ target, (graph'.node target).parentNum = (graph.node target).parentNum
  present : ∀ txid target, graph'.txCNs.lookup txid = some target → graph.txCNs.lookup txid = some target ∨
      target < graph.nodes.size ∧ graph.txIdOf target = txid
  waits : ∀ txid waitTxcn', graph'.waitUnChoosedTxCNs.lookup txid = some waitTxcn' →
    ∃ waitTxcn, graph.waitUnChoosedTxCNs.lookup txid = some waitTxcn ∧
      (waitTxcn.childNodes = waitTxcn'.childNodes ∧ waitTxcn.choosedNode = waitTxcn'.choosedNode) ∧
      (waitTxcn'.diffWaitWKV = false → waitTxcn.diffWaitWKV = false) ∧
      ∀ key value, waitTxcn.writeSet.lookup key = some value → waitTxcn'.writeSet.lookup key = some value

theorem reshaped_setWait {txid : TxId} {waitTxcn' : WaitTxConsensusNode}
    (found : graph.waitUnChoosedTxCNs.lookup txid = some waitTxcn)
    (same : waitTxcn.childNodes = waitTxcn'.childNodes ∧ waitTxcn.choosedNode = waitTxcn'.choosedNode)
    (clear : waitTxcn'.diffWaitWKV = false → waitTxcn.diffWaitWKV = false)
    (kept : ∀ key value, waitTxcn.writeSet.lookup key = some value →
      waitTxcn'.writeSet.lookup key = some value) : Reshaped graph (graph.setWait txid waitTxcn') := by
  refine ⟨rfl, rfl, rfl, fun _ => ⟨rfl, rfl, rfl⟩, fun _ => rfl, fun _ _ old => .inl old, ?_⟩
  intro name entry lookup
  rw [waits_setWait] at lookup
  split at lookup
  next self =>
    cases lookup
    rw [self]
    exact ⟨waitTxcn, found, same, clear, kept⟩
  · exact ⟨entry, lookup, ⟨rfl, rfl⟩, id, fun _ _ old => old⟩

theorem Noted.reshaped (noted : Noted graph graph') : Reshaped graph graph' := by
  refine ⟨noted.size, noted.lists, noted.log, ?_, ?_, ?_, ?_⟩
  · intro target
    rw [noted.nodes target]
    exact ⟨rfl, rfl, rfl⟩
  · intro target
    rw [noted.nodes target]
  · intro txid target found
    exact .inl (noted.present ▸ found)
  · intro txid waitTxcn' found
    obtain ⟨waitTxcn, old, core⟩ := noted.waits_old found
    obtain ⟨lists, writes, diff, choosed⟩ := core_fields core
    refine ⟨waitTxcn, old, ⟨lists, choosed⟩, fun clear => diff.trans clear, ?_⟩
    intro key value expected
    rw [← writes]
    exact expected

/-- The node takes the child lists of its wait entry.
The entry is removed, or it stays and remembers the aborted node. -/
structure HandedOver (graph graph' : TxConsensusGraph) (txCN : NodeRef) (waitTxcn : WaitTxConsensusNode) : Prop where
  size : graph'.nodes.size = graph.nodes.size
  lists : graph'.childLists = graph.childLists
  log : graph'.stateLog = graph.stateLog
  present : graph'.txCNs = graph.txCNs
  gState : graph'.gState = graph.gState
  readyBatch : graph'.readyBatch = graph.readyBatch
  numGCommittedNode : graph'.numGCommittedNode = graph.numGCommittedNode
  nodes : ∀ target, (graph'.node target).choosedNode = (graph.node target).choosedNode ∧
    (graph'.node target).state = (graph.node target).state ∧
    (graph'.node target).parentNum = (graph.node target).parentNum
  others : ∀ target ≠ txCN, (graph'.node target).childNodes = (graph.node target).childNodes
  self : (graph'.node txCN).childNodes = waitTxcn.childNodes
  waits : ∀ txid waitTxcn', graph'.waitUnChoosedTxCNs.lookup txid = some waitTxcn' →
    ∃ old, graph.waitUnChoosedTxCNs.lookup txid = some old ∧
      old.childNodes = waitTxcn'.childNodes ∧ old.diffWaitWKV = waitTxcn'.diffWaitWKV ∧
      old.writeSet = waitTxcn'.writeSet ∧
      (txid ≠ graph.txIdOf txCN → old.choosedNode = waitTxcn'.choosedNode) ∧
      (txid = graph.txIdOf txCN → waitTxcn'.choosedNode = some txCN ∧ (graph.node txCN).state = .changedState)

section

variable (change : HandedOver graph graph' txCN waitTxcn)

include change

theorem HandedOver.txIdOf (target : NodeRef) :
    graph'.txIdOf target = graph.txIdOf target := congrArg GVNode.txId (change.nodes target).1

theorem HandedOver.nList : graph'.nList = graph.nList := by
  unfold TxConsensusGraph.nList
  rw [change.lists]

theorem HandedOver.unList : graph'.unList = graph.unList := by
  unfold TxConsensusGraph.unList
  rw [change.lists]

end

/-- The loop over the waiting children only updates bookkeeping. -/
theorem clearWaitPTX_noted (txid : TxId) (entries : List (GoEntry NodeRef)) (graph : TxConsensusGraph) :
    Noted graph (entries.foldl (fun graph entry => graph.modifyNode entry.2 fun node =>
      { node with waitPTX := node.waitPTX.erase txid }) graph) := by
  induction entries generalizing graph with
  | nil => exact Noted.refl graph
  | cons entry rest ih =>
    exact (noted_modifyNode graph entry.2
      (fun node => { node with waitPTX := node.waitPTX.erase txid }) (fun _ => rfl)).trans (ih _)

theorem takeWait_none (absent : graph.waitUnChoosedTxCNs.lookup (graph.txIdOf txCN) = none) :
    takeWait txCN graph = graph := by
  unfold takeWait
  dsimp only
  rw [absent]

theorem takeWait_handedOver (found : graph.waitUnChoosedTxCNs.lookup (graph.txIdOf txCN) = some waitTxcn) :
    HandedOver graph (takeWait txCN graph) txCN waitTxcn := by
  have node := fun other => node_modifyNode graph txCN other fun node =>
    { node with childNodes := waitTxcn.childNodes }
  have kept : ∀ target, ((graph.modifyNode txCN fun node =>
        { node with childNodes := waitTxcn.childNodes }).node target).choosedNode =
        (graph.node target).choosedNode ∧
      ((graph.modifyNode txCN fun node =>
        { node with childNodes := waitTxcn.childNodes }).node target).state =
        (graph.node target).state ∧
      ((graph.modifyNode txCN fun node =>
        { node with childNodes := waitTxcn.childNodes }).node target).parentNum =
        (graph.node target).parentNum := by
    intro target
    rw [node]
    split
    next same =>
      rw [same]
      exact ⟨rfl, rfl, rfl⟩
    · exact ⟨rfl, rfl, rfl⟩
  unfold takeWait
  dsimp only
  rw [found]
  dsimp only
  split
  next alive =>
    have noted := clearWaitPTX_noted (graph.txIdOf txCN) waitTxcn.childWait.entries
      (graph.modifyNode txCN fun node => { node with childNodes := waitTxcn.childNodes })
    generalize waitTxcn.childWait.entries.foldl (fun graph' entry => graph'.modifyNode entry.2 fun node =>
      { node with waitPTX := node.waitPTX.erase (graph.txIdOf txCN) })
      (graph.modifyNode txCN fun node => { node with childNodes := waitTxcn.childNodes }) = cleared at *
    refine { noted with nodes := ?_, others := ?_, self := ?_, waits := ?_ }
    · intro target
      change (cleared.node target).choosedNode = _ ∧ (cleared.node target).state = _ ∧
        (cleared.node target).parentNum = _
      rw [noted.nodes target]
      exact kept target
    · intro target different
      change (cleared.node target).childNodes = _
      rw [noted.nodes target, node, if_neg different]
    · change (cleared.node txCN).childNodes = _
      rw [noted.nodes txCN, node, if_pos rfl]
    · intro txid waitTxcn' lookup
      obtain ⟨different, lookup⟩ := GoMap.of_lookup_erase lookup
      obtain ⟨old, foundOld, core⟩ := noted.waits_old lookup
      obtain ⟨lists, writes, diff, choosed⟩ := core_fields core
      exact ⟨old, foundOld, lists, diff, writes, fun _ => choosed, fun same => absurd same different⟩
  next dead =>
    rw [not_not] at dead
    refine ⟨rfl, rfl, rfl, rfl, rfl, rfl, rfl, kept, ?_, ?_, ?_⟩
    · intro target different
      exact congrArg TxConsensusNode.childNodes ((node target).trans (if_neg different))
    · exact congrArg TxConsensusNode.childNodes ((node txCN).trans (if_pos rfl))
    · intro txid waitTxcn' lookup
      rcases GoMap.of_lookup_insert lookup with ⟨rfl, rfl⟩ | ⟨different, lookup⟩
      · refine ⟨waitTxcn, found, rfl, rfl, rfl, fun different => absurd rfl different, fun _ => ⟨rfl, ?_⟩⟩
        exact (kept txCN).2.1.symm.trans dead
      · exact ⟨waitTxcn', lookup, rfl, rfl, rfl, fun _ => rfl, fun same => absurd same different⟩

/-- The node that a task changes or reads. -/
def Task.target : Task → NodeRef
  | .releaseUN _ child => child
  | .branch _ dtxcn => dtxcn
  | .abort child => child
  | .release _ child => child

theorem target_released {task : Task} {child : NodeRef} (releases : task.released = some child) :
    task.target = child := by
  cases task with
  | releaseUN | release =>
    cases releases
    rfl
  | branch | abort => cases releases

/-- The references of the graph stay inside its heaps, and the maps file each node under its name. -/
structure Bounded (graph : TxConsensusGraph) (tasks : List Task) : Prop where
  owned : ∀ owner < graph.nodes.size, (graph.node owner).childNodes < graph.childLists.size
  listed : ∀ list < graph.childLists.size, ∀ child,
    child ∈ graph.nList list ∨ child ∈ graph.unList list → child < graph.nodes.size
  waitOwned : ∀ txid waitTxcn, graph.waitUnChoosedTxCNs.lookup txid = some waitTxcn →
    waitTxcn.childNodes < graph.childLists.size
  present : ∀ txid txCN, graph.txCNs.lookup txid = some txCN → txCN < graph.nodes.size ∧ graph.txIdOf txCN = txid
  removed : ∀ txid waitTxcn txCN, graph.waitUnChoosedTxCNs.lookup txid = some waitTxcn →
    waitTxcn.choosedNode = some txCN → txCN < graph.nodes.size ∧ graph.txIdOf txCN = txid
  taskNode : ∀ task ∈ tasks, task.target < graph.nodes.size

namespace Bounded

section

variable (bounded : Bounded graph tasks)

include bounded

/-- The bounds survive every change that keeps the lists, the owners and the names. -/
theorem reshape (size : graph'.nodes.size = graph.nodes.size) (lists : graph'.childLists = graph.childLists)
    (names : ∀ target, graph'.txIdOf target = graph.txIdOf target)
    (owners : ∀ target, (graph'.node target).childNodes = (graph.node target).childNodes)
    (waits : ∀ txid waitTxcn', graph'.waitUnChoosedTxCNs.lookup txid = some waitTxcn' →
      ∃ waitTxcn, graph.waitUnChoosedTxCNs.lookup txid = some waitTxcn ∧
        waitTxcn.childNodes = waitTxcn'.childNodes ∧ waitTxcn.choosedNode = waitTxcn'.choosedNode)
    (present : ∀ txid txCN, graph'.txCNs.lookup txid = some txCN →
      graph.txCNs.lookup txid = some txCN ∨ txCN < graph.nodes.size ∧ graph.txIdOf txCN = txid)
    (taskNode : ∀ task ∈ tasks', task.target < graph.nodes.size) : Bounded graph' tasks' := by
  refine ⟨?_, ?_, ?_, ?_, ?_, ?_⟩
  · intro owner inside
    rw [owners, lists]
    exact bounded.owned owner (size ▸ inside)
  · intro list below child
    unfold nList unList
    rw [lists, size]
    exact bounded.listed list (lists ▸ below) child
  · intro txid waitTxcn' found
    obtain ⟨waitTxcn, old, same, _⟩ := waits txid waitTxcn' found
    rw [← same, lists]
    exact bounded.waitOwned txid waitTxcn old
  · intro txid txCN found
    rw [names, size]
    rcases present txid txCN found with old | new
    · exact bounded.present txid txCN old
    · exact new
  · intro txid waitTxcn' txCN found choosed
    obtain ⟨waitTxcn, old, _, same⟩ := waits txid waitTxcn' found
    rw [names, size]
    exact bounded.removed txid waitTxcn txCN old (same.trans choosed)
  · intro task member
    rw [size]
    exact taskNode task member

theorem retask (taskNode : ∀ task ∈ tasks', task.target < graph.nodes.size) : Bounded graph tasks' :=
  { bounded with taskNode := taskNode }

/-- The tasks of `Delete` are about the node and its second child list. -/
theorem expandDelete_target {target : NodeRef} (inside : target < graph.nodes.size) :
    ∀ task ∈ (expandDelete graph target).2, task.target < graph.nodes.size := by
  intro task member
  rcases List.mem_append.mp member with un | branch
  · obtain ⟨child, listed, rfl⟩ := List.mem_map.mp un
    exact bounded.listed _ (bounded.owned target inside) child (.inr listed)
  · rw [List.mem_singleton.mp branch]
    exact inside

theorem restate {target : NodeRef} (change : Restated graph graph' target)
    (taskNode : ∀ task ∈ tasks', task.target < graph.nodes.size) : Bounded graph' tasks' := by
  apply bounded.reshape change.size change.lists change.txIdOf change.childNodes
  · intro txid waitTxcn found
    exact ⟨waitTxcn, change.waits ▸ found, rfl, rfl⟩
  · intro txid txCN found
    exact .inl (change.present ▸ found)
  · exact taskNode

theorem decrement {target : NodeRef} (change : Decremented graph graph' target)
    (taskNode : ∀ task ∈ tasks', task.target < graph.nodes.size) : Bounded graph' tasks' := by
  apply bounded.reshape change.size change.lists change.txIdOf (fun other => (change.nodes other).2.1)
  · intro txid waitTxcn found
    exact ⟨waitTxcn, change.waits ▸ found, rfl, rfl⟩
  · intro txid txCN found
    exact .inl (change.present ▸ found)
  · exact taskNode

end

theorem reshaped (bounded : Bounded graph []) (change : Reshaped graph graph') : Bounded graph' [] := by
  apply bounded.reshape change.size change.lists (fun target => congrArg GVNode.txId (change.nodes target).1)
    (fun target => (change.nodes target).2.1)
  · intro txid waitTxcn' found
    obtain ⟨waitTxcn, old, same, _⟩ := change.waits txid waitTxcn' found
    exact ⟨waitTxcn, old, same⟩
  · exact change.present
  · exact nofun

theorem enlist (bounded : Bounded graph []) (change : Enlisted graph graph' txCN)
    (inside : txCN < graph.nodes.size) : Bounded graph' [] := by
  have names : ∀ other, graph'.txIdOf other = graph.txIdOf other :=
    fun other => congrArg GVNode.txId (change.nodes other).1
  refine ⟨?_, ?_, ?_, ?_, ?_, nofun⟩
  · intro owner ownerIn
    rw [(change.nodes owner).2.1, change.listsSize]
    exact bounded.owned owner (change.size ▸ ownerIn)
  · intro list below child member
    rw [change.size]
    rcases change.new list child member with old | same
    · exact bounded.listed list (change.listsSize ▸ below) child old
    · exact same ▸ inside
  · rw [change.waits, change.listsSize]
    exact bounded.waitOwned
  · intro txid node found
    rw [names, change.size]
    exact bounded.present txid node (change.present ▸ found)
  · intro txid waitTxcn node found decided
    rw [names, change.size]
    exact bounded.removed txid waitTxcn node (change.waits ▸ found) decided

theorem addWait (bounded : Bounded graph []) (txid : TxId) (diff : Bool) (choosed : Option NodeRef)
    (named : ∀ txCN, choosed = some txCN → txCN < graph.nodes.size ∧ graph.txIdOf txCN = txid) :
    Bounded (graph.addWait txid diff choosed) [] := by
  have fresh := lookup_addWait graph txid diff choosed
  refine ⟨?_, ?_, ?_, bounded.present, ?_, nofun⟩
  · intro owner inside
    exact Nat.lt_succ_of_lt (bounded.owned owner inside)
  · intro list below child
    unfold nList unList
    rw [childLists_addWait]
    split
    · simp
    next old =>
      exact bounded.listed list (Nat.lt_of_le_of_ne (Nat.le_of_lt_succ below) old) child
  · intro name waitTxcn found
    rcases fresh name waitTxcn found with ⟨_, new, _⟩ | old
    · rw [new]
      exact Nat.lt_succ_self _
    · exact Nat.lt_succ_of_lt (bounded.waitOwned name waitTxcn old)
  · intro name waitTxcn txCN found decided
    rcases fresh name waitTxcn found with ⟨same, _, new⟩ | old
    · rw [same]
      exact named txCN (new ▸ decided)
    · exact bounded.removed name waitTxcn txCN old decided

theorem newNode (bounded : Bounded graph []) (choosed : GVNode) : Bounded (graph.newNode choosed) [] := by
  have old := newNode_old graph choosed
  have kept : ∀ txid target, target < graph.nodes.size ∧ graph.txIdOf target = txid →
      target < (graph.newNode choosed).nodes.size ∧ (graph.newNode choosed).txIdOf target = txid := by
    rintro txid target ⟨inside, name⟩
    refine ⟨Nat.lt_succ_of_lt inside, ?_⟩
    unfold txIdOf
    rw [old target inside]
    exact name
  refine ⟨?_, ?_, ?_, ?_, ?_, nofun⟩
  · intro owner inside
    rcases Nat.lt_succ_iff_lt_or_eq.mp inside with below | same
    · rw [old owner below]
      exact Nat.lt_succ_of_lt (bounded.owned owner below)
    · rw [same, node_newNode_new]
      exact Nat.lt_succ_self _
  · intro list below child
    unfold nList unList
    rcases Nat.lt_succ_iff_lt_or_eq.mp below with inside | same
    · rw [newNode_lists graph choosed list inside]
      exact fun member => Nat.lt_succ_of_lt (bounded.listed list inside child member)
    · rw [same, childLists_newNode, if_pos rfl]
      simp
  · intro txid waitTxcn found
    exact Nat.lt_succ_of_lt (bounded.waitOwned txid waitTxcn found)
  · exact fun txid target found => kept txid target (bounded.present txid target found)
  · exact fun txid waitTxcn target found decided =>
      kept txid target (bounded.removed txid waitTxcn target found decided)

theorem handOver (bounded : Bounded graph tasks) (change : HandedOver graph graph' txCN waitTxcn)
    (inside : txCN < graph.nodes.size) (found : graph.waitUnChoosedTxCNs.lookup (graph.txIdOf txCN) = some waitTxcn)
    (taskNode : ∀ task ∈ tasks', task.target < graph.nodes.size) : Bounded graph' tasks' := by
  refine ⟨?_, ?_, ?_, ?_, ?_, ?_⟩
  · intro owner below
    rw [change.lists]
    by_cases same : owner = txCN
    · rw [same, change.self]
      exact bounded.waitOwned _ _ found
    · rw [change.others owner same]
      exact bounded.owned owner (change.size ▸ below)
  · intro list below child
    rw [change.nList, change.unList, change.size]
    exact bounded.listed list (change.lists ▸ below) child
  · intro txid waitTxcn' lookup
    obtain ⟨old, foundOld, same, _⟩ := change.waits txid waitTxcn' lookup
    rw [← same, change.lists]
    exact bounded.waitOwned txid old foundOld
  · intro txid target lookup
    rw [change.size, change.txIdOf]
    exact bounded.present txid target (change.present ▸ lookup)
  · intro txid waitTxcn' target lookup decided
    obtain ⟨old, foundOld, _, _, _, otherName, sameName⟩ := change.waits txid waitTxcn' lookup
    rw [change.size, change.txIdOf]
    by_cases name : txid = graph.txIdOf txCN
    · have self := (sameName name).1.symm.trans decided
      cases self
      exact ⟨inside, name.symm⟩
    · exact bounded.removed txid old target foundOld ((otherName name).trans decided)
  · intro task member
    rw [change.size]
    exact taskNode task member

end Bounded

theorem Bounded.list_lt {list : ChildRef} (bounded : Bounded graph tasks) (opened : graph.Open list) :
    list < graph.childLists.size := by
  rcases opened with ⟨txid, waitTxcn, found, _, same⟩ | ⟨owner, inside, _, same⟩
  · rw [← same]
    exact bounded.waitOwned txid waitTxcn found
  · rw [← same]
    exact bounded.owned owner inside

/-- The shapes of the moves, as far as the links of the graph are concerned. -/
inductive Shape (txCN : NodeRef) (graph : TxConsensusGraph) : TxConsensusGraph → Prop where
  | reshaped {graph' : TxConsensusGraph} (change : Reshaped graph graph') : Shape txCN graph graph'
  | addWait (txid : TxId) (diff : Bool) (choosed : Option NodeRef)
      (named : ∀ target, choosed = some target → target = txCN ∧ graph.txIdOf txCN = txid) :
      Shape txCN graph (graph.addWait txid diff choosed)
  | reject : Shape txCN graph (graph.setState txCN .changedState)
  | register (list : ChildRef) (ptxid : TxId) (opened : graph.Open list)
      (named : ∃ ptx, (graph.node txCN).choosedNode.pTx.lookup ptxid = some ptx)
      (parent : (∃ waitTxcn, graph.waitUnChoosedTxCNs.lookup ptxid = some waitTxcn ∧ waitTxcn.childNodes = list) ∨
        ∃ owner < graph.nodes.size, graph.txIdOf owner = ptxid ∧ (graph.node owner).childNodes = list) :
      Shape txCN graph (graph.register list txCN ptxid)

theorem Move.shape (move : Move txCN graph graph') (inside : txCN < graph.nodes.size) : Shape txCN graph graph' := by
  cases move with
  | note noted => exact .reshaped noted.reshaped
  | enter alive =>
    refine .reshaped ⟨rfl, rfl, rfl, fun _ => ⟨rfl, rfl, rfl⟩, fun _ => rfl, ?_,
      fun _ waitTxcn found => ⟨waitTxcn, found, ⟨rfl, rfl⟩, id, fun _ _ same => same⟩⟩
    intro txid target found
    rcases GoMap.of_lookup_insert found with ⟨same, rfl⟩ | ⟨_, found⟩
    · exact .inr ⟨inside, same.symm⟩
    · exact .inl found
  | remove dead =>
    refine .reshaped ⟨rfl, rfl, rfl, fun _ => ⟨rfl, rfl, rfl⟩, fun _ => rfl, ?_,
      fun _ waitTxcn found => ⟨waitTxcn, found, ⟨rfl, rfl⟩, id, fun _ _ same => same⟩⟩
    exact fun txid target found => .inl (GoMap.of_lookup_erase found).2
  | reject => exact .reject
  | tombstone dead absent =>
    refine .addWait _ _ _ ?_
    rintro target ⟨⟩
    exact ⟨rfl, rfl⟩
  | await => exact .addWait _ _ _ nofun
  | flag dead waitTxcn found =>
    exact .reshaped (reshaped_setWait found ⟨rfl, rfl⟩ nofun (fun _ _ same => same))
  | expect ptxid ptx entries waitTxcn waitTxcn' named reads other found undecided same =>
    obtain ⟨lists, choosed⟩ := expectKV_childNodes entries waitTxcn
    obtain ⟨clear, kept⟩ := expectKV_grows entries waitTxcn
    obtain ⟨lists', writes', diff', choosed'⟩ := core_fields same
    apply Shape.reshaped
    apply reshaped_setWait found
    · exact ⟨(lists'.trans lists).symm, (choosed'.trans choosed).symm⟩
    · intro noDiff
      exact clear (diff'.symm.trans noDiff)
    · intro key value expected
      rw [writes']
      exact kept key value expected
  | registerWait ptxid ptx waitTxcn named found undecided =>
    exact .register _ ptxid (.inl ⟨ptxid, waitTxcn, found, undecided, rfl⟩) ⟨ptx, named⟩ (.inl ⟨waitTxcn, found, rfl⟩)
  | registerNode ptxid ptx ptxcn named parentIn name undecided =>
    exact .register _ ptxid (.inr ⟨ptxcn, parentIn, undecided, rfl⟩) ⟨ptx, named⟩ (.inr ⟨ptxcn, parentIn, name, rfl⟩)

theorem Move.bounded (move : Move txCN graph graph') (bounded : Bounded graph [])
    (inside : txCN < graph.nodes.size) : Bounded graph' [] := by
  cases move.shape inside with
  | reshaped change => exact bounded.reshaped change
  | addWait txid diff choosed named =>
    apply bounded.addWait
    intro target same
    rw [(named target same).1]
    exact ⟨inside, (named target same).2⟩
  | reject => exact bounded.restate (restated_abort graph txCN) nofun
  | register list ptxid => exact bounded.enlist (enlisted_register graph list txCN ptxid) inside

/-- A node that enters the graph is ready for its parents. -/
theorem Ready.enter (bounded : Bounded graph []) (inside : txCN < graph.nodes.size)
    (alive : (graph.node txCN).state ≠ .changedState) :
    Ready txCN { graph with txCNs := graph.txCNs.insert (graph.txIdOf txCN) txCN } :=
  ⟨inside, (Move.bounded (.enter alive) bounded inside).present, fun _ => AList.lookup_insert _⟩

theorem UNMove.bounded (move : UNMove txCN graph graph') (bounded : Bounded graph [])
    (inside : txCN < graph.nodes.size) : Bounded graph' [] := by
  cases move with
  | await ptxid => exact bounded.addWait ptxid false none nofun
  | register list ptxid => exact bounded.enlist (enlisted_registerUN graph list txCN ptxid) inside

end Pobl.Partialorder
