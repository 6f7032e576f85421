import Pobl.Proof.Graph.Emission
import Pobl.Proof.Safety.Judgement

namespace Pobl.Partialorder

open Library Protos TxConsensusGraph

variable {before graph graph' : TxConsensusGraph} {choosed : GVNode} {txCN : NodeRef} {order : RangeOrder RangeSite}
  {final : TxConsensusGraph}

/-- The wait entry of a node that is not rejected agrees with its writes. -/
def Accepted (txCN : NodeRef) (graph : TxConsensusGraph) : Prop :=
  (graph.node txCN).state ≠ .changedState → ∀ waitTxcn,
    graph.waitUnChoosedTxCNs.lookup (graph.txIdOf txCN) = some waitTxcn →
    waitTxcn.diffWaitWKV = false ∧ waitTxcn.choosedNode = none ∧
      disagrees (graph.node txCN).choosedNode.writeSet waitTxcn.writeSet = false

/-- The wait entry of an aborted transaction releases nothing when the identifier arrives again. -/
def Quiet (txCN : NodeRef) (graph : TxConsensusGraph) : Prop :=
  ∀ waitTxcn, graph.waitUnChoosedTxCNs.lookup (graph.txIdOf txCN) = some waitTxcn →
    waitTxcn.choosedNode ≠ none → graph.unList waitTxcn.childNodes = []

theorem Move.accepted (move : Move txCN graph graph') (accepted : Accepted txCN graph) : Accepted txCN graph' := by
  intro alive waitTxcn found
  have before : (graph.node txCN).state ≠ .changedState := fun dead => alive (move.dead txCN dead)
  have known := accepted before
  rw [move.txIdOf] at found
  rw [(move.keeps.2 txCN).1]
  cases move with
  | note noted =>
    obtain ⟨old, foundOld, core⟩ := noted.waits_old found
    obtain ⟨_, writes, diff, choosed⟩ := WaitTxConsensusNode.core_fields core
    rw [← writes, ← diff, ← choosed]
    exact known old foundOld
  | reject => exact absurd (abort_state graph txCN) alive
  | tombstone dead => exact absurd dead before
  | flag dead => exact absurd dead before
  | await ptxid other =>
    rw [waits_addWait, if_neg (Ne.symm (other before))] at found
    exact known waitTxcn found
  | expect ptxid ptx entries old new named reads other =>
    rw [waits_setWait, if_neg (Ne.symm (other before))] at found
    exact known waitTxcn found
  | enter | remove | registerWait | registerNode => exact known waitTxcn found

theorem Move.quiet (move : Move txCN graph graph') (entering : Entering txCN graph)
    (quiet : Quiet txCN graph) : Quiet txCN graph' := by
  intro waitTxcn found dead
  rw [move.txIdOf] at found
  have grown : ∀ (txid : TxId) (diff : Bool) (choosed : Option NodeRef) (list : ChildRef),
      list < graph.childLists.size →
      (graph.addWait txid diff choosed).unList list = graph.unList list := by
    intro txid diff choosed list below
    unfold unList
    rw [addWait_lists _ _ _ _ _ below]
  cases move with
  | note noted =>
    obtain ⟨old, foundOld, core⟩ := noted.waits_old found
    obtain ⟨lists, _, _, choosed⟩ := WaitTxConsensusNode.core_fields core
    unfold unList
    rw [noted.lists, ← lists]
    exact quiet old foundOld (choosed ▸ dead)
  | tombstone _ absent =>
    rw [waits_addWait, if_pos rfl] at found
    cases found
    unfold unList
    rw [addWait_new_lists]
  | flag _ old foundOld =>
    rw [waits_setWait, if_pos rfl] at found
    cases found
    exact quiet old foundOld dead
  | await ptxid other absent =>
    have lookup := found
    rw [waits_addWait] at lookup
    split at lookup
    · cases lookup
      exact absurd rfl dead
    · rw [grown _ _ _ _ (entering.sound.waitOwned _ _ lookup)]
      exact quiet waitTxcn lookup dead
  | expect ptxid ptx entries old new named reads other foundOld undecided same =>
    have lookup := found
    rw [waits_setWait] at lookup
    split at lookup
    · cases lookup
      have choosed : waitTxcn.choosedNode = (expectKV entries old).choosedNode :=
        congrArg (·.2.2.2) same
      rw [choosed, (expectKV_childNodes entries old).2] at dead
      exact absurd undecided dead
    · exact quiet waitTxcn lookup dead
  | registerWait | registerNode =>
    rw [unList_register]
    exact quiet waitTxcn found dead
  | enter | remove | reject => exact quiet waitTxcn found dead

/-- What the moves of a node keep together. -/
structure Arriving (txCN : NodeRef) (graph : TxConsensusGraph) : Prop extends Entering txCN graph where
  quiet : Quiet txCN graph

theorem Moves.arriving (moves : Moves txCN graph graph') (arriving : Arriving txCN graph) : Arriving txCN graph' :=
  moves.induct (Arriving txCN) (fun _ _ move old =>
    ⟨move.entering old.toEntering, move.quiet old.toEntering old.quiet⟩) arriving

/-- The checks change only the verdict on the node. -/
theorem checkWait_node (txCN : NodeRef) (graph : TxConsensusGraph) : (checkWait txCN graph).node txCN =
      { graph.node txCN with state := ((checkWait txCN graph).node txCN).state } := by
  have rejected : ∀ state : TxConsensusGraph, state.node txCN =
      { graph.node txCN with state := (state.node txCN).state } →
      (state.setState txCN .changedState).node txCN =
        { graph.node txCN with state := ((state.setState txCN .changedState).node txCN).state } := by
    intro state same
    rw [node_setState, if_pos rfl, same]
  unfold checkWait
  dsimp only
  have first : (if (graph.node txCN).choosedNode.consensusState = 3 then
      graph.setState txCN .changedState else graph).node txCN = { graph.node txCN with
      state := ((if (graph.node txCN).choosedNode.consensusState = 3 then
        graph.setState txCN .changedState else graph).node txCN).state } := by
    split
    · exact rejected graph rfl
    · rfl
  generalize (if (graph.node txCN).choosedNode.consensusState = 3 then
    graph.setState txCN .changedState else graph) = start at *
  split
  · split
    · exact first
    · exact first
  next waitTxcn found =>
    have second : (if waitTxcn.diffWaitWKV then start.setState txCN .changedState
        else start).node txCN = { graph.node txCN with
        state := ((if waitTxcn.diffWaitWKV then start.setState txCN .changedState
          else start).node txCN).state } := by
      split
      · exact rejected start first
      · exact first
    generalize (if waitTxcn.diffWaitWKV then start.setState txCN .changedState else start) =
      middle at *
    split
    · exact rejected middle second
    · exact second

/-- An aborted node that never registered needs no further argument. -/
theorem Arriving.judged_of_dead (arriving : Arriving txCN graph) (dead : (graph.node txCN).state = .changedState)
    (free : (graph.node txCN).parentNum = 0) : Judged txCN graph where
  sound := arriving.sound
  inside := arriving.inside
  verdict := .inr dead
  free _ := free
  empty _ := arriving.empty
  own _ := arriving.own
  quiet _ := arriving.quiet
  covered waits := by
    rw [dead] at waits
    cases waits
  accepted waits := by
    rw [dead] at waits
    cases waits

theorem UNMove.advances (move : UNMove txCN graph graph') : Advances graph graph' := by
  cases move with
  | await ptxid other absent => exact advances_addWait ptxid false none
  | register list ptxid => exact (enlisted_registerUN graph list txCN ptxid).advances

theorem UNMove.accepted (move : UNMove txCN graph graph') (accepted : Accepted txCN graph) :
    Accepted txCN graph' := by
  obtain ⟨_, _, nodes⟩ := move.keeps
  intro alive waitTxcn found
  rw [(nodes txCN).2.2] at alive
  have known := accepted alive
  have name : graph'.txIdOf txCN = graph.txIdOf txCN := congrArg GVNode.txId (nodes txCN).1
  rw [name] at found
  rw [(nodes txCN).1]
  cases move with
  | await ptxid other absent =>
    rw [waits_addWait, if_neg (Ne.symm other)] at found
    exact known waitTxcn found
  | register => exact known waitTxcn found

/-- A waiting node keeps everything while it registers with its other parents. -/
theorem UNMoves.judged (moves : UNMoves txCN graph graph') (sound : Sound (some txCN) graph [])
    (inside : txCN < graph.nodes.size) (waits : (graph.node txCN).state = .wait) (accepted : Accepted txCN graph)
    (covered : ∀ entry ∈ (graph.node txCN).choosedNode.pTx.entries,
      Covered graph txCN entry.1 entry.2.kv) : Judged txCN graph' := by
  have kept : Sound (some txCN) graph' [] ∧ txCN < graph'.nodes.size ∧
      (graph'.node txCN).state = .wait ∧ Accepted txCN graph' ∧
      ∀ entry ∈ (graph'.node txCN).choosedNode.pTx.entries, Covered graph' txCN entry.1 entry.2.kv := by
    induction moves with
    | refl => exact ⟨sound, inside, waits, accepted, covered⟩
    | tail _ move ih =>
      obtain ⟨oldSound, oldInside, oldWaits, oldAccepted, oldCovered⟩ := ih
      obtain ⟨size, _, nodes⟩ := move.keeps
      refine ⟨move.sound oldSound oldInside oldWaits, size.symm ▸ oldInside,
        (nodes txCN).2.2.trans oldWaits, move.accepted oldAccepted, ?_⟩
      rw [(nodes txCN).1]
      intro entry member
      exact (oldCovered entry member).advance move.advances
  obtain ⟨soundAfter, insideAfter, waitsAfter, acceptedAfter, coveredAfter⟩ := kept
  have alive : (graph'.node txCN).state ≠ .changedState := by
    rw [waitsAfter]
    decide
  exact ⟨soundAfter, insideAfter, .inl waitsAfter, fun dead => absurd dead alive,
    fun dead => absurd dead alive, fun dead => absurd dead alive, fun dead => absurd dead alive,
    fun _ => coveredAfter, fun _ => acceptedAfter alive⟩

/-- The parents that the loop of `ProcessTX` visits. -/
def loopParents (order : RangeOrder RangeSite) (graph : TxConsensusGraph) (choosed : GVNode) : GoMap PtxKV :=
  if choosed.consensusState = 2 then (consensusPTx order graph choosed).tempptx else choosed.pTx

/-- The arriving transaction reaches the loop over its parents. -/
def passesChecks (order : RangeOrder RangeSite) (graph : TxConsensusGraph) (choosed : GVNode) : Bool :=
  choosed.consensusState ≠ 3 && ((match graph.waitUnChoosedTxCNs.lookup choosed.txId with
      | none => true
      | some waitTxcn => !waitTxcn.diffWaitWKV && !disagrees choosed.writeSet waitTxcn.writeSet) &&
    !(choosed.consensusState = 2 && (consensusPTx order graph choosed).intemp.length < choosed.readSet.entries.length))

/-- If a parent rejects the arriving transaction then no parent at all is undecided, not even this one. -/
def Unanimous (order : RangeOrder RangeSite) (graph : TxConsensusGraph) (choosed : GVNode) : Prop :=
  passesChecks order graph choosed = true →
    (∃ entry ∈ (loopParents order graph choosed).entries, rejects graph choosed entry = true) →
    ∀ entry ∈ (loopParents order graph choosed).entries, undecided graph choosed entry = false

instance (order : RangeOrder RangeSite) (graph : TxConsensusGraph) (choosed : GVNode) :
    Decidable (Unanimous order graph choosed) := inferInstanceAs (Decidable (_ → _))

/-- If the identifier belongs to an aborted transaction then its wait entry has a conflict
and no UN children. -/
def Replaceable (graph : TxConsensusGraph) (txid : TxId) : Prop :=
  ∀ waitTxcn ∈ graph.waitUnChoosedTxCNs.lookup txid, waitTxcn.choosedNode ≠ none →
    waitTxcn.diffWaitWKV = true ∧ graph.unList waitTxcn.childNodes = []

instance (graph : TxConsensusGraph) (txid : TxId) : Decidable (Replaceable graph txid) :=
  inferInstanceAs (Decidable (∀ waitTxcn ∈ graph.waitUnChoosedTxCNs.lookup txid, _))

/-- The condition on a call of `ProcessTX`. -/
structure Clear (order : RangeOrder RangeSite) (graph : TxConsensusGraph) (choosed : GVNode) : Prop where
  unanimous : Unanimous order graph choosed
  replaced : Replaceable graph choosed.txId

instance (order : RangeOrder RangeSite) (graph : TxConsensusGraph) (choosed : GVNode) :
    Decidable (Clear order graph choosed) :=
  decidable_of_iff (Unanimous order graph choosed ∧ Replaceable graph choosed.txId)
    ⟨fun both => ⟨both.1, both.2⟩, fun clear => ⟨clear.unanimous, clear.replaced⟩⟩

theorem retarget_self (graph : TxConsensusGraph) (txCN : NodeRef) :
    graph.retarget txCN (graph.node txCN).choosedNode.pTx = graph := by
  unfold retarget modifyNode Heap.modify node
  simp [Function.update_eq_self]

theorem consensusPTx_newNode (sound : Sound none before []) (choosed : GVNode) :
    consensusPTx order (before.newNode choosed) choosed = consensusPTx order before choosed := by
  unfold consensusPTx
  congr 1
  funext temp entry
  have kept : (before.newNode choosed).txCNs = before.txCNs := rfl
  rw [kept]
  cases found : before.txCNs.lookup entry.1 with
  | none => rfl
  | some ptxcn =>
    dsimp only
    rw [newNode_old before choosed ptxcn (sound.present entry.1 ptxcn found).1]

theorem resolveConsensus_parentNum (order : RangeOrder RangeSite) (txCN : NodeRef) (graph : TxConsensusGraph) :
    ((resolveConsensus order txCN graph).node txCN).parentNum = (graph.node txCN).parentNum := by
  unfold resolveConsensus
  dsimp only
  split
  · split
    · rw [addTombstone_node, parentNum_reject]
      rfl
    · rw [node_modifyNode, if_pos rfl]
  · rfl

/-- Consensus state 2 lets a node pass only with the confirmed parents. -/
theorem resolveConsensus_alive (sound : Sound none before [])
    (alive : ((resolveConsensus order before.nodes.size (before.newNode choosed)).node
      before.nodes.size).state ≠ .changedState) :
    resolveConsensus order before.nodes.size (before.newNode choosed) =
        (before.newNode choosed).retarget before.nodes.size (loopParents order before choosed) ∧
      ¬ (choosed.consensusState = 2 ∧
        (consensusPTx order before choosed).intemp.length < choosed.readSet.entries.length) := by
  have self := node_newNode_new before choosed
  have parents : (before.newNode choosed).retarget before.nodes.size choosed.pTx = before.newNode choosed := by
    have same := retarget_self (before.newNode choosed) before.nodes.size
    rw [self] at same
    exact same
  unfold resolveConsensus at alive ⊢
  dsimp only at alive ⊢
  rw [self] at alive ⊢
  rw [consensusPTx_newNode sound] at alive ⊢
  unfold loopParents
  by_cases two : choosed.consensusState = 2
  · simp only [if_pos two] at alive ⊢
    split at alive
    · rw [addTombstone_node] at alive
      exact absurd (abort_state _ _) alive
    next enough =>
      rw [if_neg enough]
      exact ⟨rfl, fun short => enough short.2⟩
  · simp only [if_neg two] at alive ⊢
    exact ⟨parents.symm, fun short => two short.1⟩

/-- The graph at the start of the loop over the parents. -/
def loopStart (order : RangeOrder RangeSite) (before : TxConsensusGraph) (choosed : GVNode) : TxConsensusGraph :=
  { (before.newNode choosed).retarget before.nodes.size (loopParents order before choosed) with
    txCNs := before.txCNs.insert choosed.txId before.nodes.size }

theorem loopStart_old (target : NodeRef) (old : target < before.nodes.size) :
    (loopStart order before choosed).node target = before.node target := by
  change ((before.newNode choosed).retarget before.nodes.size _).node target = _
  unfold retarget
  rw [node_modifyNode, if_neg (Nat.ne_of_lt old), newNode_old before choosed target old]

theorem loopStart_self : (loopStart order before choosed).node before.nodes.size =
    { (before.newNode choosed).node before.nodes.size with
      choosedNode := { choosed with pTx := loopParents order before choosed } } := by
  change ((before.newNode choosed).retarget before.nodes.size _).node before.nodes.size = _
  unfold retarget
  rw [node_modifyNode, if_pos rfl, node_newNode_new]

theorem loopStart_looks (order : RangeOrder RangeSite) (before : TxConsensusGraph) (choosed : GVNode) :
    Looks before choosed (loopStart order before choosed) where
  nodes := loopStart_old
  name := by
    unfold txIdOf
    rw [loopStart_self]
  writes := by
    rw [loopStart_self]
  waits := by
    rw [loopStart_self, node_newNode_new]
  gState := rfl
  others txid other := AList.lookup_insert_ne other
  here := AList.lookup_insert _
  tombstone _ := rfl

theorem loopStart_ready (order : RangeOrder RangeSite) (choosed : GVNode) (sound : Sound none before []) :
    Ready before.nodes.size (loopStart order before choosed) where
  inside := Nat.lt_succ_self _
  present txid target found := by
    rcases GoMap.of_lookup_insert found with ⟨rfl, rfl⟩ | ⟨_, lookup⟩
    · exact ⟨Nat.lt_succ_self _, (loopStart_looks order before choosed).name⟩
    · obtain ⟨inside, name⟩ := sound.present txid target lookup
      refine ⟨Nat.lt_succ_of_lt inside, ?_⟩
      unfold txIdOf
      rw [loopStart_old target inside]
      exact name
  here _ := by
    rw [(loopStart_looks order before choosed).name]
    exact (loopStart_looks order before choosed).here

variable (sound : Sound none before []) (clear : Clear order before choosed)

include sound clear

theorem newNode_arriving : Arriving before.nodes.size (before.newNode choosed) := by
  refine ⟨sound.newNode choosed, ?_⟩
  intro waitTxcn found dead
  unfold txIdOf at found
  rw [node_newNode_new] at found
  unfold unList
  rw [newNode_lists before choosed _ (sound.waitOwned choosed.txId waitTxcn found)]
  exact (clear.replaced waitTxcn found dead).2

theorem loopStart_arriving : Arriving before.nodes.size (loopStart order before choosed) := by
  have arriving := newNode_arriving sound clear
  have retargeted := arriving.toEntering.retarget (loopParents order before choosed)
  have name : ((before.newNode choosed).retarget before.nodes.size
      (loopParents order before choosed)).txIdOf before.nodes.size = choosed.txId :=
    (loopStart_looks order before choosed).name
  have alive : (((before.newNode choosed).retarget before.nodes.size
      (loopParents order before choosed)).node before.nodes.size).state ≠ .changedState := by
    have waits := (loopStart_looks order before choosed).waits
    change (((before.newNode choosed).retarget before.nodes.size
      (loopParents order before choosed)).node before.nodes.size).state = .wait at waits
    rw [waits]
    decide
  have entered := (Move.enter alive).entering retargeted
  rw [name] at entered
  refine ⟨entered, ?_⟩
  intro waitTxcn found dead
  rw [(loopStart_looks order before choosed).name] at found
  have quiet := arriving.quiet waitTxcn
  unfold txIdOf at quiet
  rw [node_newNode_new] at quiet
  exact quiet found dead

omit sound in
theorem loopStart_accepted (passes : passesChecks order before choosed = true) :
    Accepted before.nodes.size (loopStart order before choosed) := by
  intro _ waitTxcn found
  rw [(loopStart_looks order before choosed).name] at found
  have lookup : before.waitUnChoosedTxCNs.lookup choosed.txId = some waitTxcn := found
  unfold passesChecks at passes
  rw [lookup] at passes
  simp only [Bool.and_eq_true, Bool.not_eq_true'] at passes
  obtain ⟨_, ⟨noDiff, agrees⟩, _⟩ := passes
  refine ⟨noDiff, ?_, ?_⟩
  · by_contra dead
    rw [(clear.replaced waitTxcn lookup dead).1] at noDiff
    cases noDiff
  · rw [(loopStart_looks order before choosed).writes]
    exact agrees

/-- The loop over the parents judges the node. -/
theorem enterGraph_judged (passes : passesChecks order before choosed = true)
    (done : enterGraph order before.nodes.size ((before.newNode choosed).retarget before.nodes.size
      (loopParents order before choosed)) = some final) : Judged before.nodes.size final ∧
      ((final.node before.nodes.size).state ≠ .changedState →
        ∀ entry ∈ (loopParents order before choosed).entries, rejects before choosed entry = false) := by
  have inside : ∀ txid target, before.txCNs.lookup txid = some target → target < before.nodes.size :=
    fun txid target found => (sound.present txid target found).1
  have self : ((before.newNode choosed).retarget before.nodes.size
      (loopParents order before choosed)).node before.nodes.size =
      { (before.newNode choosed).node before.nodes.size with
        choosedNode := { choosed with pTx := loopParents order before choosed } } := loopStart_self
  unfold enterGraph at done
  rw [self] at done
  obtain ⟨visited, loop, last⟩ := Option.map_eq_some_iff.mp done
  change visitParents order before.nodes.size _ (loopStart order before choosed) = some visited at loop
  have arriving := loopStart_arriving sound clear
  have ready := loopStart_ready order choosed sound
  have named : ∀ entry ∈ order.visit .pTx (loopParents order before choosed).entries,
      ((loopStart order before choosed).node before.nodes.size).choosedNode.pTx.lookup entry.1 = some entry.2 := by
    intro entry member
    rw [loopStart_self, ← GoMap.mem_entries_iff, ← order.mem_visit .pTx]
    exact member
  have moves := visitParents_moves ready named loop
  have arrived := moves.arriving arriving
  by_cases rejected : ∃ entry ∈ (loopParents order before choosed).entries, rejects before choosed entry = true
  · have decided : ∀ entry ∈ order.visit .pTx (loopParents order before choosed).entries,
        undecided before choosed entry = false := by
      intro entry member
      exact clear.unanimous passes rejected entry ((order.mem_visit _ _ _).mp member)
    obtain ⟨sameNum, accepted⟩ := visitParents_decided inside (loopStart_looks order before choosed)
      arriving.toEntering ready named loop decided
    have dead : (visited.node before.nodes.size).state = .changedState := by
      by_contra alive
      obtain ⟨entry, member, rejects⟩ := rejected
      rw [accepted alive entry ((order.mem_visit _ _ _).mpr member)] at rejects
      cases rejects
    rw [if_neg (fun alive => alive dead)] at last
    rw [← last]
    refine ⟨arrived.judged_of_dead dead ?_, fun alive => absurd dead alive⟩
    rw [sameNum, loopStart_self, node_newNode_new]
  · have accepted : ∀ entry ∈ order.visit .pTx (loopParents order before choosed).entries,
        rejects before choosed entry = false := by
      intro entry member
      by_contra rejects
      exact rejected ⟨entry, (order.mem_visit _ _ _).mp member, Bool.eq_true_of_not_eq_false rejects⟩
    obtain ⟨looks, covered⟩ := visitParents_accepted inside (loopStart_looks order before choosed)
      arriving.toEntering ready named loop accepted
    have alive : (visited.node before.nodes.size).state ≠ .changedState := by
      rw [looks.waits]
      decide
    rw [if_pos alive] at last
    have others := visitUNParents_moves
      ((order.visit .unPTx choosed.unPTx.entries).map (·.1)) (moves.ready ready) alive
    rw [← last]
    refine ⟨others.judged arrived.sound arrived.inside looks.waits ?_ ?_,
      fun _ entry member => accepted entry ((order.mem_visit _ _ _).mpr member)⟩
    · exact moves.induct (Accepted before.nodes.size) (fun _ _ move => move.accepted)
        (loopStart_accepted clear passes)
    · rw [(moves.keeps.2 _).1, loopStart_self]
      intro entry member
      exact covered entry ((order.mem_visit _ _ _).mpr member)

/-- A clear call leaves the node judged before the hand-over.
A node that is not aborted then has been rejected by no parent. -/
theorem prepareTX_judged (done : prepareTX order before.nodes.size (before.newNode choosed) = some final) :
    Judged before.nodes.size final ∧ ((final.node before.nodes.size).state ≠ .changedState →
      ∀ entry ∈ (loopParents order before choosed).entries, rejects before choosed entry = false) := by
  have self := node_newNode_new before choosed
  have arriving := newNode_arriving sound clear
  have checkedMoves := checkWait_moves before.nodes.size (before.newNode choosed)
  unfold prepareTX at done
  dsimp only at done
  split at done
  next passed =>
    obtain ⟨same, notThree, agrees⟩ := checkWait_alive passed.1
    rw [same] at done
    split at done
    · cases done
    split at done
    next alive =>
      obtain ⟨resolved, enough⟩ := resolveConsensus_alive sound alive
      rw [resolved] at done
      apply enterGraph_judged sound clear ?_ done
      unfold txIdOf at agrees
      rw [self] at agrees notThree
      unfold passesChecks
      simp only [Bool.and_eq_true, Bool.not_eq_true', decide_eq_true_eq]
      refine ⟨notThree, ?_, ?_⟩
      · cases found : before.waitUnChoosedTxCNs.lookup choosed.txId with
        | none => rfl
        | some waitTxcn =>
          obtain ⟨noDiff, writes⟩ := agrees waitTxcn found
          dsimp only
          rw [noDiff, writes]
          rfl
      · simpa using enough
    next rejected =>
      cases done
      rw [not_not] at rejected
      rcases resolveConsensus_moves order before.nodes.size (before.newNode choosed) with
        moves | ⟨_, retargeted⟩
      · refine ⟨(moves.arriving arriving).judged_of_dead rejected ?_, fun alive => absurd rejected alive⟩
        rw [resolveConsensus_parentNum, self]
      · rw [retargeted] at rejected
        unfold retarget at rejected
        rw [node_modifyNode, if_pos rfl, self] at rejected
        cases rejected
  next failed =>
    cases done
    have dead : ((checkWait before.nodes.size (before.newNode choosed)).node
        before.nodes.size).state = .changedState := by
      by_contra alive
      apply failed
      refine ⟨alive, ?_⟩
      rw [(checkedMoves.keeps.2 _).1]
      exact (checkWait_alive alive).2.1
    refine ⟨(checkedMoves.arriving arriving).judged_of_dead dead ?_, fun alive => absurd dead alive⟩
    rw [checkWait_node, self]

/-- A clear call of `ProcessTX` keeps the invariant, and it aborts a node that a parent rejects. -/
theorem processTX_judged (done : processTX order before.nodes.size (before.newNode choosed) = some final) :
    Sound none final [] ∧ ((final.node before.nodes.size).state ≠ .changedState →
      ∀ entry ∈ (loopParents order before choosed).entries, rejects before choosed entry = false) := by
  obtain ⟨prepared, first, last⟩ := Option.bind_eq_some_iff.mp done
  obtain ⟨judged, accepted⟩ := prepareTX_judged sound clear first
  have finished : Sound none final [] ∧ Steps before.nodes.size (prepared, []) (final, []) := by
    split at last
    · exact ⟨judged.takeWait_sound last, .trans (takeWait_steps _ prepared) (finish_steps last)⟩
    · exact ⟨judged.finish_sound last, finish_steps last⟩
  obtain ⟨soundAfter, steps⟩ := finished
  refine ⟨soundAfter, fun alive => accepted fun dead => alive ?_⟩
  have logged := (judged.sound.changedLog _).mpr ⟨judged.inside, dead⟩
  have kept := (steps.grows judged.sound.toBounded judged.inside).subset logged
  exact ((soundAfter.changedLog _).mp kept).2

end Pobl.Partialorder
