import Pobl.Proof.Graph.Blame
import Pobl.Proof.Graph.WaitSets

namespace Pobl.Partialorder

open Library Protos TxConsensusGraph

variable {before graph graph' final : TxConsensusGraph} {txCN : NodeRef} {choosed : GVNode} {cut : List Envelope}
  {waitTxcn : WaitTxConsensusNode} {txid : TxId}

/-- Some node owns the list, or some wait entry keeps it. -/
def Held (graph : TxConsensusGraph) (list : ChildRef) : Prop :=
  (∃ owner < graph.nodes.size, (graph.node owner).childNodes = list) ∨
    ∃ txid waitTxcn, graph.waitUnChoosedTxCNs.lookup txid = some waitTxcn ∧ waitTxcn.childNodes = list

/-- The wait entries are those of missing parents that some node names, and the lists with members
are held. -/
structure Pending (graph : TxConsensusGraph) : Prop where
  missing : ∀ txid waitTxcn, graph.waitUnChoosedTxCNs.lookup txid = some waitTxcn →
    ∀ target < graph.nodes.size, graph.txIdOf target ≠ txid
  asked : ∀ txid waitTxcn, graph.waitUnChoosedTxCNs.lookup txid = some waitTxcn →
    ∃ child < graph.nodes.size, ∃ ptx, (graph.node child).choosedNode.pTx.lookup txid = some ptx
  held : ∀ list < graph.childLists.size, ∀ child ∈ graph.nList list, Held graph list
  plain : ∀ list < graph.childLists.size, graph.unList list = []

/-- A move removes no wait entry. -/
theorem Move.waits_kept (move : Move txCN graph graph')
    (found : graph.waitUnChoosedTxCNs.lookup txid = some waitTxcn) :
    ∃ waitTxcn', graph'.waitUnChoosedTxCNs.lookup txid = some waitTxcn' ∧
      waitTxcn'.childNodes = waitTxcn.childNodes := by
  have added : ∀ name diff chosen, graph.waitUnChoosedTxCNs.lookup name = none →
      ∃ waitTxcn', (graph.addWait name diff chosen).waitUnChoosedTxCNs.lookup txid = some waitTxcn' ∧
        waitTxcn'.childNodes = waitTxcn.childNodes := by
    intro name diff chosen absent
    refine ⟨waitTxcn, ?_, rfl⟩
    rw [waits_addWait, if_neg]
    · exact found
    · intro same
      rw [same, absent] at found
      cases found
  have replaced : ∀ name old new, graph.waitUnChoosedTxCNs.lookup name = some old → new.childNodes = old.childNodes →
      ∃ waitTxcn', (graph.setWait name new).waitUnChoosedTxCNs.lookup txid = some waitTxcn' ∧
        waitTxcn'.childNodes = waitTxcn.childNodes := by
    intro name old new foundOld same
    rw [waits_setWait]
    split
    next self =>
      rw [self, foundOld, Option.some.injEq] at found
      exact ⟨new, rfl, found ▸ same⟩
    · exact ⟨waitTxcn, found, rfl⟩
  cases move with
  | note noted =>
    have same := noted.waits txid
    rw [found, Option.map_some] at same
    obtain ⟨new, foundNew, core⟩ := Option.map_eq_some_iff.mp same
    exact ⟨new, foundNew, congrArg (·.1) core⟩
  | tombstone dead absent => exact added _ _ _ absent
  | await ptxid other absent => exact added _ _ _ absent
  | flag dead old foundOld => exact replaced _ old _ foundOld rfl
  | expect ptxid ptx entries old new named reads other foundOld undecided same =>
    refine replaced _ old _ foundOld ?_
    have lists : new.childNodes = (expectKV entries old).childNodes := congrArg (·.1) same
    exact lists.trans (expectKV_childNodes entries old).1
  | enter | remove | reject | registerWait | registerNode => exact ⟨waitTxcn, found, rfl⟩

/-- A list stays held when the owners and the wait entries stay. -/
theorem Held.keep {list : ChildRef} (held : Held graph list) (size : graph'.nodes.size = graph.nodes.size)
    (owners : ∀ owner, (graph'.node owner).childNodes = (graph.node owner).childNodes)
    (waits : ∀ txid waitTxcn, graph.waitUnChoosedTxCNs.lookup txid = some waitTxcn →
      ∃ waitTxcn', graph'.waitUnChoosedTxCNs.lookup txid = some waitTxcn' ∧
        waitTxcn'.childNodes = waitTxcn.childNodes) : Held graph' list := by
  rcases held with ⟨owner, inside, points⟩ | ⟨txid, waitTxcn, found, points⟩
  · exact .inl ⟨owner, size ▸ inside, (owners owner).trans points⟩
  · obtain ⟨waitTxcn', found', same⟩ := waits txid waitTxcn found
    exact .inr ⟨txid, waitTxcn', found', same.trans points⟩

/-- The graph while the arriving node looks for its parents. -/
structure Seeking (before : TxConsensusGraph) (choosed : GVNode) (graph : TxConsensusGraph) : Prop where
  others : ∀ txid ≠ choosed.txId, graph.txCNs.lookup txid = before.txCNs.lookup txid
  waits : (graph.node before.nodes.size).state ≠ .changedState → ∀ txid waitTxcn,
    graph.waitUnChoosedTxCNs.lookup txid = some waitTxcn →
    (before.waitUnChoosedTxCNs.lookup txid).isSome ∨
      txid ≠ choosed.txId ∧ before.txCNs.lookup txid = none ∧ (choosed.pTx.lookup txid).isSome
  held : ∀ list < graph.childLists.size, ∀ child ∈ graph.nList list, Held graph list
  plain : ∀ list < graph.childLists.size, graph.unList list = []
  own : ∀ child ∈ graph.nList (graph.node before.nodes.size).childNodes, child = before.nodes.size

/-- A move enters the node only into lists that are held. -/
theorem Move.lists_held (move : Move txCN graph graph') (bounded : Bounded graph [])
    (inside : txCN < graph.nodes.size)
    (held : ∀ list < graph.childLists.size, ∀ child ∈ graph.nList list, Held graph list)
    (plain : ∀ list < graph.childLists.size, graph.unList list = [])
    (own : ∀ child ∈ graph.nList (graph.node txCN).childNodes, child = txCN) :
    (∀ list < graph'.childLists.size, ∀ child ∈ graph'.nList list, Held graph' list) ∧
      (∀ list < graph'.childLists.size, graph'.unList list = []) ∧
      ∀ child ∈ graph'.nList (graph'.node txCN).childNodes, child = txCN := by
  have keep : ∀ list, Held graph list → Held graph' list := fun list known =>
    known.keep move.keeps.1 (fun owner => (move.keeps.2 owner).2) (fun _ _ found => move.waits_kept found)
  rw [(move.keeps.2 txCN).2]
  have below := bounded.owned txCN inside
  cases move.shape inside with
  | reshaped shape =>
    unfold nList unList
    rw [shape.lists]
    exact ⟨fun list below child member => keep list (held list below child member), plain, own⟩
  | addWait txid diff chosen =>
    unfold nList unList
    simp only [childLists_addWait]
    refine ⟨?_, ?_, ?_⟩
    · intro list listBelow child member
      split at member
      · cases member
      next old =>
        exact keep list (held list (by
          rcases Nat.lt_succ_iff_lt_or_eq.mp listBelow with inside | same
          · exact inside
          · exact absurd same old) child member)
    · intro list listBelow
      split
      · rfl
      next old =>
        exact plain list (by
          rcases Nat.lt_succ_iff_lt_or_eq.mp listBelow with inside | same
          · exact inside
          · exact absurd same old)
    · rw [if_neg (Nat.ne_of_lt below)]
      exact own
  | reject => exact ⟨fun list below child member => keep list (held list below child member), plain, own⟩
  | register target ptxid opened named parent =>
    have owner : Held graph target := by
      rcases parent with ⟨waitTxcn, found, points⟩ | ⟨owner, ownerIn, _, points⟩
      · exact .inr ⟨ptxid, waitTxcn, found, points⟩
      · exact .inl ⟨owner, ownerIn, points⟩
    simp only [nList_register, unList_register]
    refine ⟨?_, plain, ?_⟩
    · intro list listBelow child member
      split at member
      next same => exact keep list (same ▸ owner)
      · exact keep list (held list listBelow child member)
    · intro child member
      split at member
      next same =>
        rcases List.mem_append.mp member with old | new
        · exact own child (same ▸ old)
        · exact List.mem_singleton.mp new
      · exact own child member

theorem newNode_seeking (pending : Pending before) (choosed : GVNode) :
    Seeking before choosed (before.newNode choosed) where
  others _ _ := rfl
  waits _ txid waitTxcn found := .inl (by
    rw [show before.waitUnChoosedTxCNs.lookup txid = some waitTxcn from found]
    rfl)
  held list below child member := by
    unfold nList at member
    rw [childLists_newNode] at member
    split at member
    · cases member
    next old =>
      have inside : list < before.childLists.size := by
        rcases Nat.lt_succ_iff_lt_or_eq.mp below with inside | same
        · exact inside
        · exact absurd same old
      rcases pending.held list inside child member with ⟨owner, ownerIn, points⟩ | waiting
      · refine .inl ⟨owner, Nat.lt_succ_of_lt ownerIn, ?_⟩
        rw [newNode_old before choosed owner ownerIn]
        exact points
      · exact .inr waiting
  plain list below := by
    unfold unList
    rw [childLists_newNode]
    split
    · rfl
    next old =>
      apply pending.plain
      rcases Nat.lt_succ_iff_lt_or_eq.mp below with inside | same
      · exact inside
      · exact absurd same old
  own child member := by
    rw [node_newNode_new] at member
    unfold nList at member
    rw [childLists_newNode, if_pos rfl] at member
    cases member

theorem Move.seeking (move : Move before.nodes.size graph graph') (judging : Judging before choosed graph)
    (seeking : Seeking before choosed graph) : Seeking before choosed graph' := by
  obtain ⟨held, plain, own⟩ := move.lists_held judging.bounded judging.inside seeking.held seeking.plain seeking.own
  have present : ∀ txid ≠ choosed.txId, graph'.txCNs.lookup txid = graph.txCNs.lookup txid := by
    intro txid other
    have step : Step before.nodes.size graph [] graph' [] := .move move
    exact step.present_other txid (judging.name ▸ other)
  refine ⟨fun txid other => (present txid other).trans (seeking.others txid other), ?_, held, plain, own⟩
  intro alive txid waitTxcn found
  have aliveBefore : (graph.node before.nodes.size).state ≠ .changedState :=
    fun dead => alive (move.dead _ dead)
  have known := seeking.waits aliveBefore txid
  cases move with
  | note noted =>
    obtain ⟨old, foundOld, _⟩ := noted.waits_old found
    exact known old foundOld
  | tombstone dead => exact absurd dead aliveBefore
  | flag dead => exact absurd dead aliveBefore
  | await ptxid other absent named missing =>
    rcases lookup_addWait graph ptxid false none txid waitTxcn found with ⟨same, _⟩ | old
    · subst same
      have different : txid ≠ choosed.txId := judging.name ▸ other aliveBefore
      obtain ⟨ptx, lookup⟩ := named
      rw [judging.choosedNode] at lookup
      exact .inr ⟨different, (seeking.others txid different).symm.trans missing, by rw [lookup]; rfl⟩
    · exact known waitTxcn old
  | expect ptxid ptx entries old new named reads other foundOld undecided same =>
    rw [waits_setWait] at found
    split at found
    next self => exact known old (self ▸ foundOld)
    · exact known waitTxcn found
  | enter | remove | reject | registerWait | registerNode => exact known waitTxcn found

theorem Moves.seeking (moves : Moves before.nodes.size graph graph') (judging : Judging before choosed graph)
    (seeking : Seeking before choosed graph) (recorded : Recorded cut before) (fresh : Fresh before choosed)
    (zero : choosed.consensusState = 0) : Seeking before choosed graph' :=
  (moves.induct (fun graph => Judging before choosed graph ∧ Seeking before choosed graph)
    (fun _ _ move known => ⟨move.judging known.1 recorded fresh zero, move.seeking known.1 known.2⟩)
    ⟨judging, seeking⟩).2

/-- The links of the graph between nodes, lists and wait entries. -/
structure SameLinks (graph graph' : TxConsensusGraph) : Prop where
  size : graph'.nodes.size = graph.nodes.size
  lists : graph'.childLists = graph.childLists
  waits : graph'.waitUnChoosedTxCNs = graph.waitUnChoosedTxCNs
  nodes : ∀ target, (graph'.node target).choosedNode = (graph.node target).choosedNode ∧
    (graph'.node target).childNodes = (graph.node target).childNodes

theorem SameLinks.refl (graph : TxConsensusGraph) : SameLinks graph graph :=
  ⟨rfl, rfl, rfl, fun _ => ⟨rfl, rfl⟩⟩

theorem SameLinks.trans {first second third : TxConsensusGraph} (earlier : SameLinks first second)
    (later : SameLinks second third) : SameLinks first third :=
  ⟨later.size.trans earlier.size, later.lists.trans earlier.lists, later.waits.trans earlier.waits,
    fun target => ⟨(later.nodes target).1.trans (earlier.nodes target).1,
      (later.nodes target).2.trans (earlier.nodes target).2⟩⟩

theorem Restated.sameLinks {target : NodeRef} (change : Restated graph graph' target) : SameLinks graph graph' :=
  { change with nodes := fun other => ⟨change.choosedNode other, change.childNodes other⟩ }

theorem Performed.sameLinks {task : Task} {added : List Task}
    (performed : Performed graph task graph' added) : SameLinks graph graph' := by
  cases performed with
  | drops dropped child releases change positive =>
    exact { change with nodes := fun target => ⟨(change.nodes target).1, (change.nodes target).2.1⟩ }
  | commits dropped child releases change zero =>
    have first : SameLinks graph dropped := { change with nodes := fun target => ⟨(change.nodes target).1,
      (change.nodes target).2.1⟩ }
    exact first.trans (restated_commit dropped child).sameLinks
  | branchAborts | branchReleases | skips => exact SameLinks.refl graph
  | aborts child alive => exact (restated_abort graph child).sameLinks

/-- The cascade keeps the links. -/
theorem finish_sameLinks (done : finish txCN graph = some final) : SameLinks graph final := by
  refine finish_invariant (fun current _ => SameLinks graph current) ?_ (SameLinks.refl graph) ?_ ?_ done
  · exact fun current task _ same => same.trans (task.performed current).sameLinks
  · exact fun _ _ => (restated_commit graph txCN).sameLinks
  · intro dead
    rw [expandDelete_changed dead]
    exact SameLinks.refl graph

theorem Pending.sameLinks (pending : Pending graph) (same : SameLinks graph graph') : Pending graph' := by
  have names : ∀ target, graph'.txIdOf target = graph.txIdOf target :=
    fun target => congrArg GVNode.txId (same.nodes target).1
  refine ⟨?_, ?_, ?_, ?_⟩
  · simp only [same.waits, same.size, names]
    exact pending.missing
  · simp only [same.waits, same.size, (same.nodes _).1]
    exact pending.asked
  · unfold nList
    rw [same.lists]
    intro list below child member
    exact (pending.held list below child member).keep same.size (fun owner => (same.nodes owner).2)
      fun txid waitTxcn found => ⟨waitTxcn, same.waits ▸ found, rfl⟩
  · unfold unList
    rw [same.lists]
    exact pending.plain

section

variable (seeking : Seeking before choosed graph) (judging : Judging before choosed graph)

include seeking judging

/-- The wait entries after the visits belong to missing parents that some node names. -/
theorem Seeking.entry (pending : Pending before) (filed : Filed before)
    (clean : ∀ target, (target, .changedState) ∉ before.stateLog)
    (alive : (graph.node before.nodes.size).state ≠ .changedState)
    (found : graph.waitUnChoosedTxCNs.lookup txid = some waitTxcn) (other : txid ≠ choosed.txId) :
    (∀ target < graph.nodes.size, graph.txIdOf target ≠ txid) ∧
      ∃ child < graph.nodes.size, ∃ ptx, (graph.node child).choosedNode.pTx.lookup txid = some ptx := by
  have old : ∀ target < before.nodes.size, (graph.node target).choosedNode = (before.node target).choosedNode := by
    intro target inside
    rw [judging.contents, newNode_old before choosed target inside]
  have missing : (∀ target < before.nodes.size, before.txIdOf target ≠ txid) →
      ∀ target < graph.nodes.size, graph.txIdOf target ≠ txid := by
    intro absent target inside
    rcases judging.old_or_new inside with below | same
    · unfold txIdOf
      rw [old target below]
      exact absent target below
    · rw [same, judging.name]
      exact Ne.symm other
  rcases seeking.waits alive txid waitTxcn found with known | ⟨_, absent, named⟩
  · obtain ⟨entry, lookup⟩ := Option.isSome_iff_exists.mp known
    refine ⟨missing (pending.missing txid entry lookup), ?_⟩
    obtain ⟨child, inside, ptx, named⟩ := pending.asked txid entry lookup
    refine ⟨child, ?_, ptx, ?_⟩
    · rw [judging.size]
      exact Nat.lt_succ_of_lt inside
    · rw [old child inside]
      exact named
  · refine ⟨missing fun target inside same => ?_, before.nodes.size, judging.inside, ?_⟩
    · have present := filed.present target inside (clean target)
      rw [same, absent] at present
      cases present
    · rw [judging.choosedNode]
      exact Option.isSome_iff_exists.mp named

/-- The own list of a node that does not name itself is empty. -/
theorem Seeking.own_empty (notSelf : choosed.pTx.lookup choosed.txId = none) :
    graph.nList (graph.node before.nodes.size).childNodes = [] := by
  rw [List.eq_nil_iff_forall_not_mem]
  intro child member
  obtain ⟨name, labelled⟩ := judging.traced.lists _ (judging.bounded.owned _ judging.inside)
  obtain ⟨ptx, named⟩ := labelled.members child member
  have label := labelled.owners _ judging.inside rfl
  rw [seeking.own child member, judging.choosedNode, ← label, judging.name, notSelf] at named
  cases named

/-- The hand-over of a node that is not aborted leaves nothing behind. -/
theorem Seeking.takeWait (pending : Pending before) (filed : Filed before)
    (clean : ∀ target, (target, .changedState) ∉ before.stateLog)
    (alive : (graph.node before.nodes.size).state ≠ .changedState) (notSelf : choosed.pTx.lookup choosed.txId = none)
    (found : graph.waitUnChoosedTxCNs.lookup (graph.txIdOf before.nodes.size) = some waitTxcn) :
    Pending (takeWait before.nodes.size graph) := by
  have change := takeWait_handedOver found
  have entry : ∀ txid waitTxcn', (Partialorder.takeWait before.nodes.size graph).waitUnChoosedTxCNs.lookup
      txid = some waitTxcn' → txid ≠ choosed.txId ∧ ∃ old, graph.waitUnChoosedTxCNs.lookup txid = some old := by
    intro txid waitTxcn' lookup
    obtain ⟨old, foundOld, _, _, _, _, own⟩ := change.waits txid waitTxcn' lookup
    refine ⟨fun same => ?_, old, foundOld⟩
    exact alive (own (same.trans judging.name.symm)).2
  refine ⟨?_, ?_, ?_, ?_⟩
  · intro txid waitTxcn' lookup target inside
    obtain ⟨other, old, foundOld⟩ := entry txid waitTxcn' lookup
    rw [change.txIdOf]
    exact (seeking.entry judging pending filed clean alive foundOld other).1 target (change.size ▸ inside)
  · intro txid waitTxcn' lookup
    obtain ⟨other, old, foundOld⟩ := entry txid waitTxcn' lookup
    obtain ⟨child, inside, ptx, named⟩ := (seeking.entry judging pending filed clean alive foundOld other).2
    refine ⟨child, change.size.symm ▸ inside, ptx, ?_⟩
    rw [(change.nodes child).1]
    exact named
  · intro list below child member
    rw [change.nList] at member
    rw [change.lists] at below
    rcases seeking.held list below child member with ⟨owner, inside, points⟩ | ⟨txid, old, lookup, points⟩
    · refine .inl ⟨owner, change.size.symm ▸ inside, ?_⟩
      rw [change.others owner, points]
      intro same
      rw [← points, same, seeking.own_empty judging notSelf] at member
      cases member
    · by_cases own : txid = graph.txIdOf before.nodes.size
      · rw [own, found, Option.some.injEq] at lookup
        refine .inl ⟨before.nodes.size, change.size.symm ▸ judging.inside, ?_⟩
        rw [change.self, lookup, points]
      · exact .inr ⟨txid, old, (takeWait_waits_other _ graph own).trans lookup, points⟩
  · intro list below
    rw [change.unList]
    exact seeking.plain list (change.lists ▸ below)

end

/-- A call that aborts nothing leaves nothing behind. -/
theorem processTX_pending {order : RangeOrder RangeSite} (bounded : Bounded before [])
    (recorded : Recorded cut before) (traced : Traced before []) (filed : Filed before) (pending : Pending before)
    (fresh : Fresh before choosed) (zero : choosed.consensusState = 0) (noUN : choosed.unPTx = ∅)
    (notSelf : choosed.pTx.lookup choosed.txId = none) (clean : ∀ target, (target, .changedState) ∉ final.stateLog)
    (done : processTX order before.nodes.size (before.newNode choosed) = some final) : Pending final := by
  have cleanBefore : ∀ target, (target, .changedState) ∉ before.stateLog := fun target logged =>
    clean target ((processTX_recorded bounded done recorded).2.2.subset logged)
  obtain ⟨prepared, first, alive, _, last⟩ := processTX_alive bounded recorded done (clean _)
  have moves := bounded.arrival_moves zero noUN first
  have judged := newNode_judging traced bounded choosed
  have judging := moves.judging judged recorded fresh zero
  have seeking := moves.seeking judged (newNode_seeking pending choosed) recorded fresh zero
  have kept : prepared.waitUnChoosedTxCNs.lookup choosed.txId = none → Pending prepared := by
    intro absent
    have entry : ∀ txid waitTxcn, prepared.waitUnChoosedTxCNs.lookup txid = some waitTxcn → txid ≠ choosed.txId := by
      intro txid waitTxcn found same
      rw [same, absent] at found
      cases found
    exact ⟨fun txid waitTxcn found => (seeking.entry judging pending filed cleanBefore alive found
        (entry txid waitTxcn found)).1,
      fun txid waitTxcn found => (seeking.entry judging pending filed cleanBefore alive found
        (entry txid waitTxcn found)).2, seeking.held, seeking.plain⟩
  split at last
  · refine Pending.sameLinks ?_ (finish_sameLinks last)
    cases found : prepared.waitUnChoosedTxCNs.lookup (prepared.txIdOf before.nodes.size) with
    | none =>
      rw [takeWait_none found]
      exact kept (judging.name ▸ found)
    | some waitTxcn => exact seeking.takeWait judging pending filed cleanBefore alive notSelf found
  next absent =>
    refine Pending.sameLinks (kept ?_) (finish_sameLinks last)
    rw [Option.eq_none_iff_forall_ne_some]
    intro waitTxcn found
    rcases seeking.waits alive choosed.txId waitTxcn found with known | ⟨other, _⟩
    · exact absent known
    · exact other rfl

end Pobl.Partialorder
