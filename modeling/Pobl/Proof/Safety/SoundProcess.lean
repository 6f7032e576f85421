import Pobl.Proof.Safety.SoundEntry

namespace Pobl.Partialorder

open Library Protos TxConsensusGraph List

variable {graph graph' : TxConsensusGraph} {txCN child : NodeRef} {final : TxConsensusGraph} {kv : GoMap Value}
  {ptxid : TxId}

section Creation

variable (graph : TxConsensusGraph) (choosed : GVNode)

theorem newNode_released (verdict : NodeState → Prop) (list : ChildRef) (old : list < graph.childLists.size) :
    (graph.newNode choosed).Released verdict list ↔ graph.Released verdict list := by
  constructor
  · rintro ⟨owner, inside, points, state⟩
    rcases Nat.lt_succ_iff_lt_or_eq.mp inside with below | new
    · rw [newNode_old graph choosed owner below] at points state
      exact ⟨owner, below, points, state⟩
    · rw [new, node_newNode_new] at points
      exact absurd points.symm (Nat.ne_of_lt old)
  · rintro ⟨owner, below, points, state⟩
    refine ⟨owner, Nat.lt_succ_of_lt below, ?_, ?_⟩
    · rw [newNode_old graph choosed owner below]
      exact points
    · rw [newNode_old graph choosed owner below]
      exact state

/-- A new node changes no count, because it is in no list and owns two empty ones. -/
theorem newNode_openSlots (target : NodeRef) : (graph.newNode choosed).openSlots target = graph.openSlots target := by
  have empty : (graph.newNode choosed).childLists.read graph.childLists.size = ⟨[], []⟩ := by
    rw [childLists_newNode, if_pos rfl]
  exact openSlots_grow rfl (newNode_lists graph choosed) empty (newNode_released graph choosed) target

end Creation

/-- No list holds the reference of a node that does not exist yet. -/
theorem Linked.openSlots_new (linked : Linked graph []) : graph.openSlots graph.nodes.size = 0 := by
  by_contra held
  have positive : 0 < openCount graph.nList (graph.Released NodeState.ReleasesN)
        graph.childLists.size graph.nodes.size ∨
      0 < openCount graph.unList (graph.Released NodeState.ReleasesUN) graph.childLists.size graph.nodes.size := by
    unfold openSlots at held
    omega
  rcases positive with normal | other
  · obtain ⟨list, below, _, member⟩ := exists_open_of_openCount_pos normal
    exact absurd (linked.listed list below _ (.inl member)) (Nat.lt_irrefl _)
  · obtain ⟨list, below, _, member⟩ := exists_open_of_openCount_pos other
    exact absurd (linked.listed list below _ (.inr member)) (Nat.lt_irrefl _)

theorem Linked.newNode (linked : Linked graph []) (choosed : GVNode) : Linked (graph.newNode choosed) [] := by
  have cases' : ∀ target < (graph.newNode choosed).nodes.size,
      target < graph.nodes.size ∨ target = graph.nodes.size :=
    fun target inside => Nat.lt_succ_iff_lt_or_eq.mp inside
  have old := newNode_old graph choosed
  have new := node_newNode_new graph choosed
  refine ⟨linked.toBounded.newNode choosed, ?_, ?_, linked.waitApart, ?_, ?_, ?_, nofun⟩
  · intro first firstIn second secondIn different same
    rcases cases' first firstIn with firstOld | firstNew
    · rw [old first firstOld] at same ⊢
      rcases cases' second secondIn with secondOld | secondNew
      · rw [old second secondOld] at same
        exact linked.shared first firstOld second secondOld different same
      · rw [secondNew, new] at same
        exact absurd same (Nat.ne_of_lt (linked.owned first firstOld))
    · rcases cases' second secondIn with secondOld | secondNew
      · rw [firstNew, new, old second secondOld] at same
        exact absurd same.symm (Nat.ne_of_lt (linked.owned second secondOld))
      · exact absurd (firstNew.trans secondNew.symm) different
  · intro txid waitTxcn found owner inside points
    rcases cases' owner inside with below | same
    · rw [old owner below] at points ⊢
      exact linked.waitShared txid waitTxcn found owner below points
    · rw [same, new] at points
      exact absurd points.symm (Nat.ne_of_lt (linked.waitOwned txid waitTxcn found))
  · intro target inside
    rw [newNode_openSlots graph choosed]
    rcases cases' target inside with below | same
    · rw [old target below]
      exact linked.counted target below
    · rw [same, new, linked.openSlots_new]
      rfl
  · intro target inside committed
    rcases cases' target inside with below | same
    · rw [old target below] at committed ⊢
      exact linked.committedZero target below committed
    · rw [same, new]
  · intro target inside
    rcases cases' target inside with below | same
    · rw [old target below]
      exact linked.notReady target below
    · rw [same, new]
      exact NodeState.noConfusion

theorem Covered.newNode (covered : Covered graph child ptxid kv)
    (choosed : GVNode) : Covered (graph.newNode choosed) child ptxid kv := by
  have old := newNode_old graph choosed
  rcases covered with ⟨parent, inside, name, state, writes⟩ | ⟨list, below, member, owners, waits⟩
  · refine .inl ⟨parent, Nat.lt_succ_of_lt inside, ?_⟩
    unfold txIdOf
    rw [old parent inside]
    exact ⟨name, state, writes⟩
  · refine .inr ⟨list, Nat.lt_succ_of_lt below, ?_, ?_, waits⟩
    · unfold nList
      rw [newNode_lists graph choosed list below]
      exact member
    · intro owner inside points alive
      rcases Nat.lt_succ_iff_lt_or_eq.mp inside with ownerOld | new
      · unfold txIdOf
        rw [old owner ownerOld] at points alive ⊢
        exact owners owner ownerOld points alive
      · rw [new, node_newNode_new] at points
        exact absurd points.symm (Nat.ne_of_lt below)

/-- A new node starts to enter a sound graph. -/
theorem Sound.newNode (sound : Sound none graph []) (choosed : GVNode) :
    Entering graph.nodes.size (graph.newNode choosed) := by
  have cases' : ∀ target < (graph.newNode choosed).nodes.size,
      some graph.nodes.size ≠ some target → target < graph.nodes.size := by
    intro target inside different
    rcases Nat.lt_succ_iff_lt_or_eq.mp inside with below | same
    · exact below
    · exact absurd (congrArg some same.symm) different
  have old := newNode_old graph choosed
  have new := node_newNode_new graph choosed
  have logged : ∀ target state, (target, state) ∈ graph.stateLog →
      state = .committed ∨ state = .changedState → target < graph.nodes.size := by
    rintro target state member (rfl | rfl)
    · exact ((sound.committedLog target).mp member).1
    · exact ((sound.changedLog target).mp member).1
  have log : ∀ target state, state = .committed ∨ state = .changedState →
      (target < (graph.newNode choosed).nodes.size ∧ ((graph.newNode choosed).node target).state = state ↔
      target < graph.nodes.size ∧ (graph.node target).state = state) := by
    intro target state verdict
    constructor
    · rintro ⟨inside, same⟩
      rcases Nat.lt_succ_iff_lt_or_eq.mp inside with below | isNew
      · rw [old target below] at same
        exact ⟨below, same⟩
      · rw [isNew, new] at same
        rcases verdict with verdict | verdict <;> rw [verdict] at same <;> cases same
    · rintro ⟨below, same⟩
      rw [old target below]
      exact ⟨Nat.lt_succ_of_lt below, same⟩
  refine ⟨⟨sound.toLinked.newNode choosed, ?_, ?_, ?_, nofun, ?_, ?_, sound.once, ?_⟩, Nat.lt_succ_self _, ?_, ?_, ?_⟩
  · intro target inside different dead
    have below := cases' target inside different
    rw [old target below] at dead ⊢
    rcases sound.aborted target below nofun dead with zero | ⟨parent, parentIn, parentDead, member⟩
    · exact .inl zero
    · refine .inr ⟨parent, Nat.lt_succ_of_lt parentIn, ?_⟩
      unfold nList
      rw [old parent parentIn, newNode_lists graph choosed _ (sound.owned parent parentIn)]
      exact ⟨parentDead, member⟩
  · intro target inside different waits
    have below := cases' target inside different
    rw [old target below] at waits ⊢
    exact sound.waiting target below nofun waits
  · intro target inside different waits entry member
    have below := cases' target inside different
    rw [old target below] at waits member
    exact (sound.covered target below nofun waits entry member).newNode choosed
  · intro target
    rw [log target _ (.inl rfl)]
    exact sound.committedLog target
  · intro target
    rw [log target _ (.inr rfl)]
    exact sound.changedLog target
  · intro position child found entry member
    have below : ∀ node ∈ graph.commits, node < graph.nodes.size := by
      intro node listed
      exact logged node _ ((mem_commits graph node).mp listed) (.inl rfl)
    rw [old child (below child (List.mem_of_getElem? found))] at member
    obtain ⟨earlier, sooner, parent, first, name, writes⟩ :=
      sound.causal position child found entry member
    refine ⟨earlier, sooner, parent, first, ?_⟩
    unfold txIdOf
    rw [old parent (below parent (List.mem_of_getElem? first))]
    exact ⟨name, writes⟩
  · rw [new]
    exact .inl rfl
  · unfold unList
    rw [new, childLists_newNode, if_pos rfl]
  · unfold nList
    rw [new, childLists_newNode, if_pos rfl]
    nofun

/-- Other parents of the entering node change nothing for the other nodes. -/
theorem Entering.retarget (entering : Entering txCN graph) (pTx : GoMap PtxKV) :
    Entering txCN (graph.retarget txCN pTx) := by
  have node := fun other => node_modifyNode graph txCN other fun node =>
    { node with choosedNode := { node.choosedNode with pTx := pTx } }
  have nodes : ∀ other, ((graph.retarget txCN pTx).node other).choosedNode.txId =
        (graph.node other).choosedNode.txId ∧
      ((graph.retarget txCN pTx).node other).choosedNode.writeSet = (graph.node other).choosedNode.writeSet ∧
      ((graph.retarget txCN pTx).node other).childNodes = (graph.node other).childNodes ∧
      ((graph.retarget txCN pTx).node other).state = (graph.node other).state ∧
      ((graph.retarget txCN pTx).node other).parentNum = (graph.node other).parentNum := by
    intro other
    unfold TxConsensusGraph.retarget
    rw [node]
    split
    next same =>
      rw [same]
      exact ⟨rfl, rfl, rfl, rfl, rfl⟩
    · exact ⟨rfl, rfl, rfl, rfl, rfl⟩
  have advances : Advances graph (graph.retarget txCN pTx) := by
    refine ⟨rfl, Nat.le_refl _, fun other => (nodes other).1, fun other => (nodes other).2.1,
      fun other => (nodes other).2.2.1, ?_, ?_, fun _ _ => List.Subset.refl _,
      fun txid waitTxcn found _ => ⟨waitTxcn, found, rfl, id, fun _ _ same => same⟩⟩
    · exact fun other state => (nodes other).2.2.2.1.trans state
    · exact fun other state => (nodes other).2.2.2.1.trans state
  have linked : Linked (graph.retarget txCN pTx) [] := by
    apply entering.sound.toLinked.reshape
    · rfl
    · rfl
    · exact fun other => (nodes other).1
    · exact fun other => ⟨(nodes other).2.2.1, (nodes other).2.2.2.1⟩
    · exact fun txid waitTxcn found => ⟨waitTxcn, found, rfl, rfl⟩
    · exact fun txid target found => .inl found
    · exact List.Subset.refl _
    · intro target inside
      rw [(nodes target).2.2.2.2]
      exact entering.sound.counted target inside
    · intro target inside committed
      rw [(nodes target).2.2.2.2]
      exact entering.sound.committedZero target inside committed
  refine ⟨entering.sound.advance entering.inside entering.alive advances linked ?_
    (.inl ⟨rfl, (nodes txCN).2.2.2.1⟩), entering.inside, ?_, ?_, ?_⟩
  · intro other different
    unfold TxConsensusGraph.retarget
    rw [node, if_neg different]
    exact ⟨rfl, rfl, rfl⟩
  · rw [(nodes txCN).2.2.2.1]
    exact entering.verdict
  · rw [(nodes txCN).2.2.1]
    exact entering.empty
  · rw [(nodes txCN).2.2.1]
    exact entering.own

/-- The moves for the other parents keep the invariant while the node waits. -/
theorem UNMove.sound (move : UNMove txCN graph graph') (sound : Sound (some txCN) graph [])
    (inside : txCN < graph.nodes.size) (waits : (graph.node txCN).state = .wait) : Sound (some txCN) graph' [] := by
  have alive : (graph.node txCN).state ≠ .committed := by
    rw [waits]
    decide
  cases move with
  | await ptxid other absent =>
    exact sound.advance inside alive (advances_addWait ptxid false none)
      (sound.toLinked.addWait ptxid false none nofun) (fun _ _ => ⟨rfl, rfl, rfl⟩) (.inl ⟨rfl, rfl⟩)
  | register list ptxid opened =>
    exact sound.enlist inside alive (enlisted_registerUN graph list txCN ptxid)
      (openSlots_registerUN (sound.toBounded.list_lt opened)
        (sound.toLinked.open_not_released opened _ (by simp [NodeState.ReleasesUN])) txCN ptxid)

namespace HandedOver

variable {waitTxcn : WaitTxConsensusNode}

section

variable (change : HandedOver graph graph' txCN waitTxcn)

include change

/-- A list that the node releases neither before nor after the hand-over is released as before. -/
theorem released_iff (verdict : NodeState → Prop) {list : ChildRef}
    (after : verdict (graph.node txCN).state → waitTxcn.childNodes ≠ list)
    (before : verdict (graph.node txCN).state → (graph.node txCN).childNodes ≠ list) :
    graph'.Released verdict list ↔ graph.Released verdict list := by
  constructor
  · rintro ⟨owner, inside, points, state⟩
    rw [(change.nodes owner).2.1] at state
    have different : owner ≠ txCN := by
      rintro rfl
      exact after state (change.self.symm.trans points)
    rw [change.others owner different] at points
    exact ⟨owner, change.size ▸ inside, points, state⟩
  · rintro ⟨owner, inside, points, state⟩
    have different : owner ≠ txCN := by
      rintro rfl
      exact before state points
    refine ⟨owner, change.size.symm ▸ inside, (change.others owner different).trans points, ?_⟩
    rw [(change.nodes owner).2.1]
    exact state

/-- A node without a releasing verdict hands over without any release. -/
theorem released_same (verdict : NodeState → Prop)
    (none : ¬ verdict (graph.node txCN).state) : graph'.Released verdict = graph.Released verdict :=
  funext fun _ => propext (change.released_iff verdict (absurd · none) (absurd · none))

/-- The hand-over to a waiting node keeps all counts. -/
theorem openSlots_wait (waits : (graph.node txCN).state = .wait)
    (target : NodeRef) : graph'.openSlots target = graph.openSlots target := by
  unfold openSlots
  rw [change.nList, change.unList, change.lists,
    change.released_same NodeState.ReleasesN (by simp [NodeState.ReleasesN, waits]),
    change.released_same NodeState.ReleasesUN (by simp [NodeState.ReleasesUN, waits])]

end

section

variable (change : HandedOver graph graph' txCN waitTxcn)
  (found : graph.waitUnChoosedTxCNs.lookup (graph.txIdOf txCN) = some waitTxcn) {tasks : List Task}

include change found

/-- The hand-over to an aborted node releases the second list of the wait entry. -/
theorem openSlots_dead (linked : Linked graph []) (inside : txCN < graph.nodes.size)
    (dead : (graph.node txCN).state = .changedState) (empty : graph.unList (graph.node txCN).childNodes = [])
    (quiet : waitTxcn.choosedNode ≠ none → graph.unList waitTxcn.childNodes = []) (target : NodeRef) :
    graph'.openSlots target + (graph.unList waitTxcn.childNodes).count target = graph.openSlots target := by
  have normal := change.released_same NodeState.ReleasesN (by simp [NodeState.ReleasesN, dead])
  have shut : graph'.Released NodeState.ReleasesUN waitTxcn.childNodes := by
    refine ⟨txCN, change.size.symm ▸ inside, change.self, .inr ?_⟩
    rw [(change.nodes txCN).2.1]
    exact dead
  have others : openCount graph.unList (graph'.Released NodeState.ReleasesUN)
      graph.childLists.size target + (graph.unList waitTxcn.childNodes).count target =
      openCount graph.unList (graph.Released NodeState.ReleasesUN) graph.childLists.size target := by
    by_cases none : graph.unList waitTxcn.childNodes = []
    · rw [none, count_nil, Nat.add_zero]
      apply openCount_empty
      intro list _
      by_cases new : list = waitTxcn.childNodes
      · exact .inr (new ▸ none)
      · by_cases old : list = (graph.node txCN).childNodes
        · exact .inr (old ▸ empty)
        · exact .inl (change.released_iff _ (fun _ => Ne.symm new) fun _ => Ne.symm old)
    · have undecided : waitTxcn.choosedNode = Option.none := by
        by_contra decided
        exact none (quiet decided)
      have closed : openCount graph.unList (fun list =>
          graph.Released NodeState.ReleasesUN list ∨ list = waitTxcn.childNodes)
          graph.childLists.size target + (graph.unList waitTxcn.childNodes).count target =
          openCount graph.unList (graph.Released NodeState.ReleasesUN) graph.childLists.size target :=
        openCount_close graph.unList waitTxcn.childNodes (linked.waitOwned _ _ found)
          (linked.open_not_released (.inl ⟨_, waitTxcn, found, undecided, rfl⟩) _
            (by simp [NodeState.ReleasesUN])) (.inr rfl)
          (fun list _ different => by simp [different]) target
      rw [← closed]
      congr 1
      apply openCount_empty
      intro list _
      by_cases new : list = waitTxcn.childNodes
      · exact .inl ⟨fun _ => .inr new, fun _ => new ▸ shut⟩
      · by_cases old : list = (graph.node txCN).childNodes
        · exact .inr (old ▸ empty)
        · left
          rw [change.released_iff _ (fun _ => Ne.symm new) fun _ => Ne.symm old]
          simp [new]
  unfold openSlots
  rw [change.nList, change.unList, change.lists, normal]
  omega

/-- The hand-over keeps the links when the counters are right again. -/
theorem linked (linked : Linked graph []) (inside : txCN < graph.nodes.size)
    (verdict : (graph.node txCN).state = .changedState ∨ waitTxcn.choosedNode = none)
    (counted : ∀ target < graph.nodes.size, (graph.node target).parentNum =
      graph'.openSlots target + pendingSlots graph' tasks target)
    (taskNode : ∀ task ∈ tasks, task.target < graph.nodes.size)
    (branchDecided : ∀ txid dtxcn, .branch txid dtxcn ∈ tasks →
      (graph.node dtxcn).state = .committed ∨ (graph.node dtxcn).state = .changedState) :
    Linked graph' tasks := by
  have owners : ∀ other < graph.nodes.size, other ≠ txCN → (graph.node other).childNodes = waitTxcn.childNodes →
      (graph.node other).state = .changedState ∧ (graph.node txCN).state = .changedState := by
    intro other below different points
    obtain ⟨dead, choosed⟩ := linked.waitShared _ waitTxcn found other below points
    rcases verdict with self | undecided
    · exact ⟨dead, self⟩
    · exact absurd undecided choosed
  refine ⟨linked.toBounded.handOver change inside found taskNode, ?_, ?_, ?_, ?_, ?_, ?_, ?_⟩
  · intro first firstIn second secondIn different same
    rw [change.size] at firstIn secondIn
    rw [(change.nodes first).2.1]
    by_cases firstSelf : first = txCN
    · have secondOther : second ≠ txCN := fun self => different (firstSelf.trans self.symm)
      rw [firstSelf, change.self, change.others second secondOther] at same
      rw [firstSelf]
      exact (owners second secondIn secondOther same.symm).2
    · rw [change.others first firstSelf] at same
      by_cases secondSelf : second = txCN
      · rw [secondSelf, change.self] at same
        exact (owners first firstIn firstSelf same).1
      · rw [change.others second secondSelf] at same
        exact linked.shared first firstIn second secondIn different same
  · intro txid waitTxcn' lookup owner below points
    obtain ⟨old, foundOld, same, _, _, otherName, sameName⟩ := change.waits txid waitTxcn' lookup
    rw [change.size] at below
    rw [(change.nodes owner).2.1]
    by_cases self : owner = txCN
    · rw [self, change.self, ← same] at points
      have name := linked.waitApart _ _ _ _ foundOld found points.symm
      obtain ⟨choosed, dead⟩ := sameName name
      rw [self, choosed]
      exact ⟨dead, nofun⟩
    · rw [change.others owner self, ← same] at points
      obtain ⟨dead, choosed⟩ := linked.waitShared txid old foundOld owner below points
      refine ⟨dead, ?_⟩
      by_cases name : txid = graph.txIdOf txCN
      · rw [(sameName name).1]
        nofun
      · rw [← otherName name]
        exact choosed
  · exact WaitsApart.keep linked.waitApart fun txid wait found =>
      (change.waits txid wait found).imp fun _ old => ⟨old.1, old.2.1⟩
  · intro target below
    rw [(change.nodes target).2.2]
    exact counted target (change.size ▸ below)
  · intro target below committed
    rw [(change.nodes target).2.1] at committed
    rw [(change.nodes target).2.2]
    exact linked.committedZero target (change.size ▸ below) committed
  · intro target below
    rw [(change.nodes target).2.1]
    exact linked.notReady target (change.size ▸ below)
  · intro txid dtxcn member
    rw [(change.nodes dtxcn).2.1]
    exact branchDecided txid dtxcn member

/-- The hand-over keeps the accounts of all children. -/
theorem covered (accepted : (graph.node txCN).state ≠ .changedState → waitTxcn.diffWaitWKV = false ∧
      disagrees (graph.node txCN).choosedNode.writeSet waitTxcn.writeSet = false)
    (covered : Covered graph child ptxid kv) : Covered graph' child ptxid kv := by
  rcases covered with ⟨parent, inside, name, state, writes⟩ | ⟨list, below, member, owners, waits⟩
  · refine .inl ⟨parent, change.size.symm ▸ inside, (change.txIdOf parent).trans name, ?_, ?_⟩
    · rw [(change.nodes parent).2.1]
      exact state
    · rw [(change.nodes parent).1]
      exact writes
  · refine .inr ⟨list, change.lists.symm ▸ below, change.nList.symm ▸ member, ?_, ?_⟩
    · intro owner inside points alive
      rw [(change.nodes owner).2.1] at alive
      rw [change.txIdOf, (change.nodes owner).1]
      by_cases self : owner = txCN
      · rw [self, change.self] at points
        rw [self] at alive ⊢
        obtain ⟨name, expects⟩ := waits _ waitTxcn found points
        obtain ⟨clear, writes⟩ := accepted alive
        refine ⟨name, ?_⟩
        rw [disagrees_eq_false_iff] at writes ⊢
        intro key value read
        exact writes key value (expects clear key value read)
      · rw [change.others owner self] at points
        exact owners owner (change.size ▸ inside) points alive
    · intro txid waitTxcn' lookup points
      obtain ⟨old, foundOld, same, diff, writes, _⟩ := change.waits txid waitTxcn' lookup
      rw [← diff, ← writes]
      exact waits txid old foundOld (same.trans points)

/-- The hand-over keeps the invariant of the other nodes. -/
theorem sound (sound : Sound (some txCN) graph []) (linked : Linked graph' tasks)
    (own : (graph.node txCN).state = .changedState → ∀ child ∈ graph.nList (graph.node txCN).childNodes, child = txCN)
    (accepted : (graph.node txCN).state ≠ .changedState → waitTxcn.diffWaitWKV = false ∧
      disagrees (graph.node txCN).choosedNode.writeSet waitTxcn.writeSet = false)
    (noAbort : ∀ child, .abort child ∉ tasks) : Sound (some txCN) graph' tasks := by
  refine sound.change linked change.size (fun _ same => (Option.some.inj same).symm) (fun other _ => change.nodes other)
    (.inl ⟨change.log, (change.nodes txCN).2.1, fun _ => (change.nodes txCN).1⟩) ?_ (change.covered found accepted)
    fun child member => absurd member (noAbort child)
  rintro child different ⟨parent, parentIn, parentDead, member⟩
  have other : parent ≠ txCN := by
    intro same
    rw [same] at parentDead member
    exact different (own parentDead child member)
  refine ⟨parent, change.size.symm ▸ parentIn, ?_, ?_⟩
  · rw [(change.nodes parent).2.1]
    exact parentDead
  · rw [change.nList, change.others parent other]
    exact member

end

end HandedOver

/-- The entering node has its verdict or its open parents before the hand-over. -/
structure Judged (txCN : NodeRef) (graph : TxConsensusGraph) : Prop where
  sound : Sound (some txCN) graph []
  inside : txCN < graph.nodes.size
  verdict : (graph.node txCN).state = .wait ∨ (graph.node txCN).state = .changedState
  free : (graph.node txCN).state = .changedState → (graph.node txCN).parentNum = 0
  empty : (graph.node txCN).state = .changedState → graph.unList (graph.node txCN).childNodes = []
  own : (graph.node txCN).state = .changedState → ∀ child ∈ graph.nList (graph.node txCN).childNodes, child = txCN
  quiet : (graph.node txCN).state = .changedState → ∀ waitTxcn,
    graph.waitUnChoosedTxCNs.lookup (graph.txIdOf txCN) = some waitTxcn →
    waitTxcn.choosedNode ≠ none → graph.unList waitTxcn.childNodes = []
  covered : (graph.node txCN).state = .wait →
    ∀ entry ∈ (graph.node txCN).choosedNode.pTx.entries, Covered graph txCN entry.1 entry.2.kv
  accepted : (graph.node txCN).state = .wait → ∀ waitTxcn,
    graph.waitUnChoosedTxCNs.lookup (graph.txIdOf txCN) = some waitTxcn →
    waitTxcn.diffWaitWKV = false ∧ waitTxcn.choosedNode = none ∧
      disagrees (graph.node txCN).choosedNode.writeSet waitTxcn.writeSet = false

/-- The verdict on a waiting node keeps the invariant. -/
theorem finish_sound_wait (sound : Sound (some txCN) graph []) (inside : txCN < graph.nodes.size)
    (waits : (graph.node txCN).state = .wait) (covered : ∀ entry ∈ (graph.node txCN).choosedNode.pTx.entries,
      Covered graph txCN entry.1 entry.2.kv) (done : finish txCN graph = some final) : Sound none final [] := by
  have alive : (graph.node txCN).state ≠ .changedState := by
    rw [waits]
    decide
  unfold finish at done
  split at done
  next zero =>
    have committed := sound.commit inside waits zero.2 covered
    exact delete_sound done (by rw [commit_tasks]; exact committed)
  next open' =>
    cases done
    apply sound.complete
    · exact fun dead => absurd dead alive
    · intro _
      have counted := sound.counted txCN inside
      have different : (graph.node txCN).parentNum ≠ 0 := fun zero => open' ⟨alive, zero⟩
      omega
    · exact fun _ => covered

/-- The tasks of an aborted node keep the invariant. -/
theorem finish_sound_dead (dead : (graph.node txCN).state = .changedState) (free : (graph.node txCN).parentNum = 0)
    (sound : Sound (some txCN) graph ((expandDelete graph txCN).2 ++ []))
    (done : finish txCN graph = some final) : Sound none final [] := by
  unfold finish at done
  rw [if_neg (fun alive => alive.1 dead), if_pos dead] at done
  apply delete_sound done
  rw [expandDelete_changed dead]
  apply sound.complete
  · exact fun _ => .inl free
  · intro waits
    rw [dead] at waits
    cases waits
  · intro waits
    rw [dead] at waits
    cases waits

/-- The end of `ProcessTX` keeps the invariant when there is no hand-over. -/
theorem Judged.finish_sound (judged : Judged txCN graph)
    (done : finish txCN graph = some final) : Sound none final [] := by
  rcases judged.verdict with waits | dead
  · exact finish_sound_wait judged.sound judged.inside waits (judged.covered waits) done
  · have sound := judged.sound
    have pending : ∀ child, pendingSlots graph ((expandDelete graph txCN).2 ++ []) child = 0 := by
      intro child
      have none : (graph.childrenOf txCN).unChildNodes = [] := judged.empty dead
      rw [append_nil, pendingSlots_expandDelete (Restated.refl graph txCN), none, if_pos dead]
      rfl
    have linked : Linked graph ((expandDelete graph txCN).2 ++ []) := by
      refine { sound with toBounded := sound.toBounded.retask ?_, counted := ?_, branchDecided :=
        fun txid dtxcn member => ?_ }
      · rw [append_nil]
        exact sound.toBounded.expandDelete_target judged.inside
      · intro target inside
        rw [pending]
        exact sound.counted target inside
      · rw [append_nil] at member
        rw [branch_expandDelete txid dtxcn member]
        exact .inr dead
    refine finish_sound_dead dead (judged.free dead) { sound with toLinked := linked, abortTask := ?_ } done
    intro child member
    rw [append_nil] at member
    exact absurd member (abort_not_mem_expandDelete child)

/-- The end of `ProcessTX` keeps the invariant after the hand-over. -/
theorem Judged.takeWait_sound (judged : Judged txCN graph)
    (done : finish txCN (takeWait txCN graph) = some final) : Sound none final [] := by
  cases found : graph.waitUnChoosedTxCNs.lookup (graph.txIdOf txCN) with
  | none =>
    rw [takeWait_none found] at done
    exact judged.finish_sound done
  | some waitTxcn =>
    have change := takeWait_handedOver found
    have linked := judged.sound.toLinked
    generalize takeWait txCN graph = taken at *
    have inside : txCN < taken.nodes.size := change.size.symm ▸ judged.inside
    rcases judged.verdict with waits | dead
    · obtain ⟨clear, undecided, writes⟩ := judged.accepted waits waitTxcn found
      have accepted : (graph.node txCN).state ≠ .changedState → waitTxcn.diffWaitWKV = false ∧
          disagrees (graph.node txCN).choosedNode.writeSet waitTxcn.writeSet = false :=
        fun _ => ⟨clear, writes⟩
      have linkedAfter : Linked taken [] := by
        apply change.linked found linked judged.inside (.inr undecided)
        · intro target below
          rw [change.openSlots_wait waits]
          exact linked.counted target below
        · nofun
        · nofun
      have sound := change.sound found judged.sound linkedAfter judged.own accepted nofun
      refine finish_sound_wait sound inside ((change.nodes txCN).2.1.trans waits) ?_ done
      intro entry member
      rw [(change.nodes txCN).1] at member
      exact change.covered found accepted (judged.covered waits entry member)
    · have deadAfter := (change.nodes txCN).2.1.trans dead
      have lists : (taken.childrenOf txCN).unChildNodes = graph.unList waitTxcn.childNodes := by
        unfold TxConsensusGraph.childrenOf TxConsensusGraph.unList
        rw [change.self, change.lists]
      have linkedAfter : Linked taken ((expandDelete taken txCN).2 ++ []) := by
        apply change.linked found linked judged.inside (.inl dead)
        · intro target below
          have counted := linked.counted target below
          have moved := change.openSlots_dead found linked judged.inside dead (judged.empty dead)
            (judged.quiet dead waitTxcn found) target
          rw [append_nil, pendingSlots_expandDelete (Restated.refl taken txCN), lists, if_pos deadAfter, counted]
          simp only [pendingSlots_nil]
          omega
        · intro task member
          rw [append_nil] at member
          rcases mem_append.mp member with un | branch
          · obtain ⟨child, listed, rfl⟩ := mem_map.mp un
            rw [lists] at listed
            exact linked.listed _ (linked.waitOwned _ _ found) child (.inr listed)
          · rw [mem_singleton.mp branch]
            exact judged.inside
        · intro txid dtxcn member
          rw [append_nil] at member
          rw [branch_expandDelete txid dtxcn member]
          exact .inr dead
      have free : (taken.node txCN).parentNum = 0 := by
        rw [(change.nodes txCN).2.2]
        exact judged.free dead
      refine finish_sound_dead deadAfter free ?_ done
      apply change.sound found judged.sound linkedAfter judged.own
      · exact fun alive => absurd dead alive
      · intro child member
        rw [append_nil] at member
        exact abort_not_mem_expandDelete child member

end Pobl.Partialorder
