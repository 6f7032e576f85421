import Pobl.Proof.Safety.SoundCascade

namespace Pobl.Partialorder

open Library Protos TxConsensusGraph GVNode

variable {graph graph' : TxConsensusGraph} {txCN : NodeRef} {list : ChildRef}

theorem Enlisted.released (change : Enlisted graph graph' txCN) (verdict : NodeState → Prop) :
    graph'.Released verdict = graph.Released verdict :=
  released_congr verdict change.size fun owner _ => ⟨(change.nodes owner).2.1, by rw [(change.nodes owner).2.2.1]⟩

/-- A new place in an open list is counted once. -/
theorem openSlots_register (below : list < graph.childLists.size) (opened : ¬ graph.Released NodeState.ReleasesN list)
    (txCN : NodeRef) (ptxid : TxId) (child : NodeRef) : (graph.register list txCN ptxid).openSlots child =
      graph.openSlots child + if txCN = child then 1 else 0 := by
  have released := (enlisted_register graph list txCN ptxid).released
  have pushed := nList_register graph list txCN ptxid list
  rw [if_pos rfl] at pushed
  have normal := openCount_push list txCN below opened pushed
    (fun other _ different => (nList_register graph list txCN ptxid other).trans (if_neg different)) child
  change openCount _ _ graph.childLists.size child + openCount _ _ graph.childLists.size child = _
  rw [released, released, normal, funext (unList_register graph list txCN ptxid)]
  unfold openSlots
  omega

theorem openSlots_registerUN (below : list < graph.childLists.size)
    (opened : ¬ graph.Released NodeState.ReleasesUN list) (txCN : NodeRef) (ptxid : TxId)
    (child : NodeRef) : (graph.registerUN list txCN ptxid).openSlots child =
      graph.openSlots child + if txCN = child then 1 else 0 := by
  have released := (enlisted_registerUN graph list txCN ptxid).released
  have pushed := unList_registerUN graph list txCN ptxid list
  rw [if_pos rfl] at pushed
  have others := openCount_push list txCN below opened pushed
    (fun other _ different => (unList_registerUN graph list txCN ptxid other).trans (if_neg different)) child
  change openCount _ _ graph.childLists.size child + openCount _ _ graph.childLists.size child = _
  rw [released, released, others, funext (nList_registerUN graph list txCN ptxid)]
  unfold openSlots
  omega

/-- A new place in an open list keeps the links. -/
theorem Linked.enlist (linked : Linked graph []) (change : Enlisted graph graph' txCN)
    (slots : ∀ child, graph'.openSlots child = graph.openSlots child + if txCN = child then 1 else 0)
    (inside : txCN < graph.nodes.size) (alive : (graph.node txCN).state ≠ .committed) : Linked graph' [] := by
  refine ⟨linked.toBounded.enlist change inside, ?_, ?_, ?_, ?_, ?_, ?_, nofun⟩
  · intro first firstIn second secondIn different same
    rw [(change.nodes first).2.1, (change.nodes second).2.1] at same
    rw [(change.nodes first).2.2.1]
    exact linked.shared first (change.size ▸ firstIn) second (change.size ▸ secondIn) different same
  · intro txid waitTxcn found owner ownerIn points
    rw [(change.nodes owner).2.1] at points
    rw [(change.nodes owner).2.2.1]
    exact linked.waitShared txid waitTxcn (change.waits ▸ found) owner (change.size ▸ ownerIn) points
  · rw [change.waits]
    exact linked.waitApart
  · intro target targetIn
    have counted := linked.counted target (change.size ▸ targetIn)
    rw [change.parentNum, slots target, counted]
    simp only [pendingSlots_nil]
    split <;> omega
  · intro target targetIn committed
    rw [(change.nodes target).2.2.1] at committed
    have different : txCN ≠ target := fun same => alive (same ▸ committed)
    rw [change.parentNum, if_neg different, linked.committedZero target (change.size ▸ targetIn) committed]
    rfl
  · intro target targetIn
    rw [(change.nodes target).2.2.1]
    exact linked.notReady target (change.size ▸ targetIn)

theorem Enlisted.advances (change : Enlisted graph graph' txCN) : Advances graph graph' where
  size := change.size
  listsSize := Nat.le_of_eq change.listsSize.symm
  txIdOf other := congrArg txId (change.nodes other).1
  writeSet other := congrArg writeSet (change.nodes other).1
  childNodes other := (change.nodes other).2.1
  committed other state := (change.nodes other).2.2.1.trans state
  changed other state := (change.nodes other).2.2.1.trans state
  members list _ := change.kept list
  waits txid waitTxcn found _ := by
    rw [change.waits] at found
    exact ⟨waitTxcn, found, rfl, id, fun _ _ same => same⟩

/-- A new wait entry with its own empty lists keeps the links. -/
theorem Linked.addWait (linked : Linked graph []) (txid : TxId) (diff : Bool) (choosed : Option NodeRef)
    (named : ∀ txCN, choosed = some txCN → txCN < graph.nodes.size ∧ graph.txIdOf txCN = txid) :
    Linked (graph.addWait txid diff choosed) [] := by
  have fresh := lookup_addWait graph txid diff choosed
  have lists := addWait_lists graph txid diff choosed
  have empty := addWait_new_lists graph txid diff choosed
  refine ⟨linked.toBounded.addWait txid diff choosed named, linked.shared, ?_,
    WaitsApart.addWait linked.waitApart linked.toBounded txid diff choosed, ?_, linked.committedZero, linked.notReady,
    nofun⟩
  · intro name waitTxcn found owner inside points
    rcases fresh name waitTxcn found with ⟨_, new, _⟩ | old
    · have below := linked.owned owner inside
      exact absurd (points.trans new) (Nat.ne_of_lt below)
    · exact linked.waitShared name waitTxcn old owner inside points
  · intro target inside
    rw [openSlots_grow rfl lists empty (fun _ _ _ => Iff.rfl)]
    exact linked.counted target inside

theorem advances_addWait (txid : TxId) (diff : Bool) (choosed : Option NodeRef) :
    Advances graph (graph.addWait txid diff choosed) where
  size := rfl
  listsSize := Nat.le_succ _
  txIdOf _ := rfl
  writeSet _ := rfl
  childNodes _ := rfl
  committed _ same := same
  changed _ same := same
  members list below := by
    unfold nList
    rw [addWait_lists _ _ _ _ _ below]
    exact .refl _
  waits name waitTxcn found below := by
    rw [waits_addWait] at found
    split at found
    · cases found
      exact absurd below (Nat.lt_irrefl _)
    · exact ⟨waitTxcn, found, rfl, id, fun _ _ same => same⟩

/-- The rejection of the entering node keeps the links while its second list is empty. -/
theorem Linked.reject (linked : Linked graph []) (inside : txCN < graph.nodes.size)
    (verdict : (graph.node txCN).state = .wait ∨ (graph.node txCN).state = .changedState)
    (empty : graph.unList (graph.node txCN).childNodes = []) : Linked (graph.setState txCN .changedState) [] := by
  have change := restated_abort graph txCN
  rcases verdict with before | before
  · have after := abort_state graph txCN
    refine linked.restate [] change before (.inr after) ?_ ?_ nofun nofun
    · intro committed
      rw [after] at committed
      cases committed
    · intro child _
      have moved := change.openSlots_abort inside (linked.owned txCN inside)
        (linked.alone inside before) before after child
      have none : (graph.childrenOf txCN).unChildNodes = [] := empty
      rw [none, List.count_nil] at moved
      exact moved
  · have same : ∀ other, (graph.setState txCN .changedState).node other = graph.node other := by
      intro other
      rw [node_setState]
      split
      next self => rw [self, ← before]
      · rfl
    apply linked.reshape change.size change.lists change.txIdOf
    · intro other
      rw [same]
      exact ⟨rfl, rfl⟩
    · exact fun txid waitTxcn found => ⟨waitTxcn, found, rfl, rfl⟩
    · exact fun txid node found => .inl found
    · exact .refl _
    · intro other below
      rw [same]
      exact linked.counted other below
    · intro other below committed
      rw [same]
      exact linked.committedZero other below committed

theorem advances_reject (verdict : (graph.node txCN).state ≠ .committed) :
    Advances graph (graph.setState txCN .changedState) := by
  have change := restated_abort graph txCN
  refine ⟨rfl, Nat.le_refl _, change.txIdOf, fun other => congrArg writeSet (change.choosedNode other),
    change.childNodes, ?_, ?_, fun _ _ => List.Subset.refl _,
    fun txid waitTxcn found _ => ⟨waitTxcn, found, rfl, id, fun _ _ same => same⟩⟩
  · intro other committed
    rw [change.others other (fun same => verdict (same ▸ committed))]
    exact committed
  · intro other changed
    by_cases same : other = txCN
    · rw [same]
      exact abort_state graph txCN
    · rw [change.others other same]
      exact changed

/-- An update of the entering node keeps the invariant of the other nodes. -/
theorem Sound.advance (sound : Sound (some txCN) graph []) (inside : txCN < graph.nodes.size)
    (alive : (graph.node txCN).state ≠ .committed) (advances : Advances graph graph') (linked : Linked graph' [])
    (others : ∀ other ≠ txCN, (graph'.node other).choosedNode = (graph.node other).choosedNode ∧
      (graph'.node other).state = (graph.node other).state ∧
      (graph'.node other).parentNum = (graph.node other).parentNum)
    (log : graph'.stateLog = graph.stateLog ∧ (graph'.node txCN).state = (graph.node txCN).state ∨
      graph'.stateLog = graph.stateLog ++ [(txCN, .changedState)] ∧
        (graph'.node txCN).state = .changedState) : Sound (some txCN) graph' [] :=
  sound.change linked advances.size (fun _ same => (Option.some.inj same).symm) others
    (log.imp (fun same => ⟨same.1, same.2, fun committed => absurd committed alive⟩)
      fun ⟨appended, dead⟩ => ⟨appended, inside, dead, alive⟩)
    (fun _ _ => advances.deadParent sound.toBounded) (·.advance advances) nofun

theorem Reshaped.advances (change : Reshaped graph graph') : Advances graph graph' where
  size := change.size
  listsSize := Nat.le_of_eq (congrArg Heap.size change.lists.symm)
  txIdOf target := congrArg txId (change.nodes target).1
  writeSet target := congrArg writeSet (change.nodes target).1
  childNodes target := (change.nodes target).2.1
  committed target state := (change.nodes target).2.2.trans state
  changed target state := (change.nodes target).2.2.trans state
  members list _ := by
    unfold nList
    rw [change.lists]
    exact .refl _
  waits txid waitTxcn' found _ := by
    obtain ⟨waitTxcn, old, same, clear, kept⟩ := change.waits txid waitTxcn' found
    exact ⟨waitTxcn, old, same.1, clear, kept⟩

theorem Reshaped.linked (change : Reshaped graph graph') (linked : Linked graph []) : Linked graph' [] := by
  apply linked.reshape change.size change.lists
    (fun target => congrArg txId (change.nodes target).1) (fun target => (change.nodes target).2)
  · intro txid waitTxcn' found
    obtain ⟨waitTxcn, old, same, _⟩ := change.waits txid waitTxcn' found
    exact ⟨waitTxcn, old, same⟩
  · exact change.present
  · exact .refl _
  · intro target inside
    rw [change.parentNum]
    exact linked.counted target inside
  · intro target inside committed
    rw [change.parentNum]
    exact linked.committedZero target inside committed

/-- The invariant while a node enters the graph. -/
structure Entering (txCN : NodeRef) (graph : TxConsensusGraph) : Prop where
  sound : Sound (some txCN) graph []
  inside : txCN < graph.nodes.size
  verdict : (graph.node txCN).state = .wait ∨ (graph.node txCN).state = .changedState
  empty : graph.unList (graph.node txCN).childNodes = []
  own : ∀ child ∈ graph.nList (graph.node txCN).childNodes, child = txCN

section

variable (entering : Entering txCN graph)

include entering

theorem Entering.alive : (graph.node txCN).state ≠ .committed := by
  rcases entering.verdict with state | state <;> rw [state] <;> decide

theorem Entering.reshape (change : Reshaped graph graph') : Entering txCN graph' where
  sound := entering.sound.advance entering.inside entering.alive change.advances
    (change.linked entering.sound.toLinked)
    (fun other _ => ⟨(change.nodes other).1, (change.nodes other).2.2, change.parentNum other⟩)
    (.inl ⟨change.log, (change.nodes txCN).2.2⟩)
  inside := change.size.symm ▸ entering.inside
  verdict := by
    rw [(change.nodes txCN).2.2]
    exact entering.verdict
  empty := by
    unfold unList
    rw [change.lists, (change.nodes txCN).2.1]
    exact entering.empty
  own := by
    unfold nList
    rw [change.lists, (change.nodes txCN).2.1]
    exact entering.own

theorem Entering.addWait (txid : TxId) (diff : Bool) (choosed : Option NodeRef)
    (named : ∀ target, choosed = some target → target < graph.nodes.size ∧ graph.txIdOf target = txid) :
    Entering txCN (graph.addWait txid diff choosed) where
  sound := entering.sound.advance entering.inside entering.alive
    (advances_addWait txid diff choosed) (entering.sound.toLinked.addWait txid diff choosed named)
    (fun _ _ => ⟨rfl, rfl, rfl⟩) (.inl ⟨rfl, rfl⟩)
  inside := entering.inside
  verdict := entering.verdict
  empty := by
    have below := entering.sound.owned txCN entering.inside
    change ((graph.addWait txid diff choosed).childLists.read (graph.node txCN).childNodes).unChildNodes = []
    rw [addWait_lists _ _ _ _ _ below]
    exact entering.empty
  own := by
    have below := entering.sound.owned txCN entering.inside
    change ∀ child ∈ ((graph.addWait txid diff choosed).childLists.read
      (graph.node txCN).childNodes).nChildNodes, child = txCN
    rw [addWait_lists _ _ _ _ _ below]
    exact entering.own

theorem Entering.reject : Entering txCN (graph.setState txCN .changedState) where
  sound := entering.sound.advance entering.inside entering.alive (advances_reject entering.alive)
    (entering.sound.toLinked.reject entering.inside entering.verdict entering.empty)
    (fun other different => by
      rw [node_setState, if_neg different]
      exact ⟨rfl, rfl, rfl⟩)
    (.inr ⟨rfl, abort_state graph txCN⟩)
  inside := entering.inside
  verdict := .inr (abort_state graph txCN)
  empty := by
    rw [(restated_abort graph txCN).childNodes]
    exact entering.empty
  own := by
    rw [(restated_abort graph txCN).childNodes]
    exact entering.own

end

theorem Sound.enlist (sound : Sound (some txCN) graph []) (inside : txCN < graph.nodes.size)
    (alive : (graph.node txCN).state ≠ .committed) (change : Enlisted graph graph' txCN)
    (slots : ∀ child, graph'.openSlots child =
      graph.openSlots child + if txCN = child then 1 else 0) : Sound (some txCN) graph' [] :=
  sound.advance inside alive change.advances (sound.toLinked.enlist change slots inside alive)
    (fun other different => ⟨(change.nodes other).1, (change.nodes other).2.2.1, by
      rw [change.parentNum, if_neg (Ne.symm different), Int.add_zero]⟩)
    (.inl ⟨change.log, (change.nodes txCN).2.2.1⟩)

/-- An open list is not released: its wait entry has no owner, or its owner is alone. -/
theorem Linked.open_not_released (linked : Linked graph []) (opened : graph.Open list) (verdict : NodeState → Prop)
    (waits : ¬ verdict .wait) : ¬ graph.Released verdict list := by
  rintro ⟨owner, below, points, state⟩
  rcases opened with ⟨txid, waitTxcn, found, undecided, same⟩ | ⟨parent, inside, undecided, same⟩
  · exact (linked.waitShared txid waitTxcn found owner below (points.trans same.symm)).2 undecided
  · by_cases self : owner = parent
    · rw [self, undecided] at state
      exact waits state
    · exact linked.alone inside undecided owner below self (points.trans same.symm)

theorem Entering.register (entering : Entering txCN graph) (ptxid : TxId)
    (opened : graph.Open list) : Entering txCN (graph.register list txCN ptxid) := by
  have linked := entering.sound.toLinked
  have change := enlisted_register graph list txCN ptxid
  have slots := openSlots_register (linked.toBounded.list_lt opened)
    (linked.open_not_released opened _ (by simp [NodeState.ReleasesN])) txCN ptxid
  refine ⟨entering.sound.enlist entering.inside entering.alive change slots, entering.inside, ?_, ?_, ?_⟩
  · rw [(change.nodes txCN).2.2.1]
    exact entering.verdict
  · rw [(change.nodes txCN).2.1, unList_register]
    exact entering.empty
  · rw [(change.nodes txCN).2.1, nList_register]
    intro child member
    split at member
    next same =>
      rcases List.mem_append.mp member with old | new
      · exact entering.own child (same ▸ old)
      · exact List.mem_singleton.mp new
    · exact entering.own child member

/-- Every move keeps the invariant of the graph. -/
theorem Move.entering (move : Move txCN graph graph') (entering : Entering txCN graph) : Entering txCN graph' := by
  cases move.shape entering.inside with
  | reshaped change => exact entering.reshape change
  | addWait txid diff choosed named =>
    apply entering.addWait
    intro target same
    rw [(named target same).1]
    exact ⟨entering.inside, (named target same).2⟩
  | reject => exact entering.reject
  | register list ptxid opened => exact entering.register ptxid opened

/-- Every move lets the graph advance. -/
theorem Move.advances (move : Move txCN graph graph') (entering : Entering txCN graph) : Advances graph graph' := by
  cases move.shape entering.inside with
  | reshaped change => exact change.advances
  | addWait txid diff choosed => exact advances_addWait txid diff choosed
  | reject => exact advances_reject entering.alive
  | register list ptxid => exact (enlisted_register graph list txCN ptxid).advances

theorem Moves.entering (moves : Moves txCN graph graph') (entering : Entering txCN graph) : Entering txCN graph' :=
  moves.induct (Entering txCN) (fun _ _ move => move.entering) entering

theorem Moves.advances (moves : Moves txCN graph graph') (entering : Entering txCN graph) :
    Advances graph graph' := by
  induction moves with
  | refl => exact Advances.refl graph
  | tail earlier move ih => exact ih.trans (move.advances (Moves.entering earlier entering))

end Pobl.Partialorder
