import Pobl.Proof.Graph.Pending

namespace Pobl.Partialorder

open Library Protos TxConsensusGraph

variable {before graph graph' final : TxConsensusGraph} {txCN : NodeRef} {choosed : GVNode} {cut : List Envelope}
  {order : RangeOrder RangeSite} {txid : TxId}

/-- The child is in the list of a missing or an undecided transaction with the identifier. -/
def WaitsFor (graph : TxConsensusGraph) (child : NodeRef) (ptxid : TxId) : Prop :=
  (∃ waitTxcn, graph.waitUnChoosedTxCNs.lookup ptxid = some waitTxcn ∧ child ∈ graph.nList waitTxcn.childNodes) ∨
    ∃ parent < graph.nodes.size, graph.txIdOf parent = ptxid ∧ (graph.node parent).state = .wait ∧
      child ∈ graph.nList (graph.node parent).childNodes

/-- No wait entry has the identifier of a node that was never aborted. -/
def Unawaited (graph : TxConsensusGraph) : Prop :=
  ∀ target < graph.nodes.size, (target, .changedState) ∉ graph.stateLog →
    graph.waitUnChoosedTxCNs.lookup (graph.txIdOf target) = none

/-- A move adds no wait entry for another node that is filed, and none for its own node while this node is
not aborted. -/
theorem Move.waits_none (move : Move txCN graph graph')
    (known : txid ≠ graph.txIdOf txCN ∧ graph.txCNs.lookup txid ≠ none ∨
      txid = graph.txIdOf txCN ∧ (graph.node txCN).state ≠ .changedState)
    (absent : graph.waitUnChoosedTxCNs.lookup txid = none) : graph'.waitUnChoosedTxCNs.lookup txid = none := by
  have inserted : ∀ name entry, txid ≠ name → (graph.waitUnChoosedTxCNs.insert name entry).lookup txid = none := by
    intro name entry other
    rw [AList.lookup_insert_ne other]
    exact absent
  have alone : (graph.node txCN).state = .changedState → txid ≠ graph.txIdOf txCN := by
    intro dead
    rcases known with ⟨other, _⟩ | ⟨_, alive⟩
    · exact other
    · exact absurd dead alive
  cases move with
  | note noted =>
    have same := noted.waits txid
    rw [absent, Option.map_none] at same
    exact Option.map_eq_none_iff.mp same
  | tombstone dead => exact inserted _ _ (alone dead)
  | flag dead waitTxcn found => exact inserted _ _ (alone dead)
  | await ptxid other _ named missing =>
    apply inserted
    rintro rfl
    rcases known with ⟨_, present⟩ | ⟨own, alive⟩
    · exact present missing
    · exact other alive own
  | expect ptxid ptx entries waitTxcn waitTxcn' named reads other found =>
    apply inserted
    rintro rfl
    rw [absent] at found
    cases found
  | enter | remove | reject | registerWait | registerNode => exact absent

theorem Moves.waits_none_other (moves : Moves txCN graph graph') (other : txid ≠ graph.txIdOf txCN)
    (present : graph.txCNs.lookup txid ≠ none) (absent : graph.waitUnChoosedTxCNs.lookup txid = none) :
    graph'.waitUnChoosedTxCNs.lookup txid = none := by
  have kept := moves.induct (fun current => txid ≠ current.txIdOf txCN ∧ current.txCNs.lookup txid ≠ none ∧
    current.waitUnChoosedTxCNs.lookup txid = none) ?_ ⟨other, present, absent⟩
  · exact kept.2.2
  · rintro first second move ⟨other, present, absent⟩
    have step : Step txCN first [] second [] := .move move
    refine ⟨?_, ?_, move.waits_none (.inl ⟨other, present⟩) absent⟩
    · rw [move.txIdOf]
      exact other
    · rw [step.present_other txid other]
      exact present

theorem Moves.waits_none_own (moves : Moves txCN graph graph')
    (absent : graph.waitUnChoosedTxCNs.lookup (graph.txIdOf txCN) = none)
    (alive : (graph'.node txCN).state ≠ .changedState) :
    graph'.waitUnChoosedTxCNs.lookup (graph'.txIdOf txCN) = none := by
  refine moves.induct (fun current => (current.node txCN).state ≠ .changedState →
    current.waitUnChoosedTxCNs.lookup (current.txIdOf txCN) = none) ?_ (fun _ => absent) alive
  intro first second move absent alive
  have before : (first.node txCN).state ≠ .changedState := fun dead => alive (move.dead _ dead)
  rw [move.txIdOf]
  exact move.waits_none (.inr ⟨rfl, before⟩) (absent before)

/-- A node that is not aborted leaves no wait entry behind. -/
theorem takeWait_waits_own (alive : (graph.node txCN).state ≠ .changedState) :
    (takeWait txCN graph).waitUnChoosedTxCNs.lookup (graph.txIdOf txCN) = none := by
  cases found : graph.waitUnChoosedTxCNs.lookup (graph.txIdOf txCN) with
  | none => rwa [takeWait_none found]
  | some waitTxcn =>
    rw [Option.eq_none_iff_forall_ne_some]
    intro waitTxcn' lookup
    obtain ⟨_, _, _, _, _, _, own⟩ := (takeWait_handedOver found).waits _ waitTxcn' lookup
    exact alive (own rfl).2

section

variable (bounded : Bounded before []) (zero : choosed.consensusState = 0) (noUN : choosed.unPTx = ∅)
  (done : processTX order before.nodes.size (before.newNode choosed) = some final)

include bounded zero noUN done

/-- The call adds no wait entry for an earlier node that is filed. -/
theorem processTX_waits_other (other : txid ≠ choosed.txId) (present : before.txCNs.lookup txid ≠ none)
    (absent : before.waitUnChoosedTxCNs.lookup txid = none) : final.waitUnChoosedTxCNs.lookup txid = none := by
  have name := txIdOf_newNode_new before choosed
  obtain ⟨prepared, first, last⟩ := Option.bind_eq_some_iff.mp done
  have moves := bounded.arrival_moves zero noUN first
  have visited := moves.waits_none_other (name.symm ▸ other) present absent
  rw [(finish_sameLinks last).waits]
  split
  · rw [takeWait_waits_other _ prepared]
    · exact visited
    · rw [show prepared.txIdOf before.nodes.size = choosed.txId from
        (congrArg GVNode.txId (moves.keeps.2 _).1).trans name]
      exact other
  · exact visited

/-- The call leaves no wait entry for its node, unless the node is aborted. -/
theorem processTX_waits_own (recorded : Recorded cut before)
    (clean : (before.nodes.size, .changedState) ∉ final.stateLog) :
    final.waitUnChoosedTxCNs.lookup choosed.txId = none := by
  obtain ⟨prepared, first, alive, name, last⟩ := processTX_alive bounded recorded done clean
  have moves := bounded.arrival_moves zero noUN first
  rw [(finish_sameLinks last).waits, ← name]
  split
  · exact takeWait_waits_own alive
  next empty =>
    refine moves.waits_none_own ?_ alive
    unfold txIdOf
    rw [node_newNode_new]
    rw [name] at empty
    exact Option.not_isSome_iff_eq_none.mp empty

/-- A call with a fresh identifier leaves no wait entry for a node that was never aborted. -/
theorem processTX_unawaited (recorded : Recorded cut before) (filed : Filed before) (unawaited : Unawaited before)
    (fresh : Fresh before choosed) : Unawaited final := by
  obtain ⟨oldNames, newName⟩ := processTX_txIdOf bounded done
  intro target inside clean
  rw [(processTX_contents bounded done).1] at inside
  rcases Nat.lt_succ_iff_lt_or_eq.mp inside with old | same
  · have cleanBefore : (target, .changedState) ∉ before.stateLog := fun logged =>
      clean ((processTX_recorded bounded done recorded).2.2.subset logged)
    rw [oldNames target old]
    refine processTX_waits_other bounded zero noUN done (fresh target old) ?_ (unawaited target old cleanBefore)
    rw [filed.present target old cleanBefore]
    exact Option.some_ne_none target
  · rw [same] at clean ⊢
    rw [newName]
    exact processTX_waits_own bounded zero noUN done recorded clean

end

/-- No transaction waits for a committed one. -/
theorem Unawaited.not_waitsFor (unawaited : Unawaited graph) (filed : Filed graph) {target child : NodeRef}
    (inside : target < graph.nodes.size) (clean : (target, .changedState) ∉ graph.stateLog)
    (committed : (graph.node target).state = .committed) : ¬ WaitsFor graph child (graph.txIdOf target) := by
  rintro (⟨waitTxcn, found, _⟩ | ⟨parent, parentIn, name, waiting, _⟩)
  · rw [unawaited target inside clean] at found
    cases found
  · rw [filed.distinct parent parentIn target inside name, committed] at waiting
    cases waiting

end Pobl.Partialorder
