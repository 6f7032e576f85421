import Pobl.Proof.Graph.Emission

namespace Pobl.Partialorder

open Library Protos TxConsensusGraph

variable {graph graph' before : TxConsensusGraph} {tasks tasks' : List Task} {txCN : NodeRef}
  {order : RangeOrder RangeSite} {final : TxConsensusGraph} {cut : List Envelope} {choosed : GVNode}

/-- No node of the graph has the identifier of the arriving transaction. -/
def Fresh (graph : TxConsensusGraph) (choosed : GVNode) : Prop :=
  ∀ target < graph.nodes.size, graph.txIdOf target ≠ choosed.txId

instance (graph : TxConsensusGraph) (choosed : GVNode) : Decidable (Fresh graph choosed) :=
  inferInstanceAs (Decidable (∀ target, target < graph.nodes.size → _ ≠ _))

/-- Each node that was never aborted is filed under its identifier, and identifiers are distinct. -/
structure Filed (graph : TxConsensusGraph) : Prop where
  present : ∀ target < graph.nodes.size, (target, .changedState) ∉ graph.stateLog →
    graph.txCNs.lookup (graph.txIdOf target) = some target
  distinct : ∀ first < graph.nodes.size, ∀ second < graph.nodes.size,
    graph.txIdOf first = graph.txIdOf second → first = second

theorem Performed.present {task : Task} {added : List Task}
    (performed : Performed graph task graph' added) : graph'.txCNs = graph.txCNs := by
  cases performed with
  | drops dropped child releases change positive => exact change.present
  | commits dropped child releases change zero =>
    exact (restated_commit dropped child).present.trans change.present
  | branchAborts | branchReleases | skips | aborts => rfl

/-- A step files or removes only the node that enters. -/
theorem Step.present_other (step : Step txCN graph tasks graph' tasks') (txid : TxId)
    (other : txid ≠ graph.txIdOf txCN) : graph'.txCNs.lookup txid = graph.txCNs.lookup txid := by
  cases step with
  | move move =>
    cases move with
    | note noted => rw [noted.present]
    | enter => exact AList.lookup_insert_ne other
    | remove => exact AList.lookup_erase_ne other
    | reject | registerWait | registerNode | tombstone | flag | await | expect => rfl
  | unMove move => rw [move.keeps.2.1]
  | retarget => rfl
  | takeWait waitTxcn found => rw [(takeWait_handedOver found).present]
  | commit => rw [(restated_commit graph txCN).present]
  | abort dead => rw [expandDelete_changed dead]
  | task task rest => rw [(task.performed graph).present]

theorem Steps.present_other {before after : TxConsensusGraph × List Task} (steps : Steps txCN before after)
    (txid : TxId) (other : txid ≠ before.1.txIdOf txCN) : after.1.txCNs.lookup txid = before.1.txCNs.lookup txid := by
  induction steps with
  | refl => rfl
  | tail earlier step ih =>
    have later : txid ≠ _ := fun same => other (same.trans (Steps.txIdOf earlier txCN))
    exact (step.present_other txid later).trans ih

/-- A node that is not rejected before the hand-over is filed. -/
theorem prepareTX_present (bounded : Bounded graph []) (inside : txCN < graph.nodes.size)
    (done : prepareTX order txCN graph = some final) (alive : (final.node txCN).state ≠ .changedState) :
    final.txCNs.lookup (final.txIdOf txCN) = some txCN := by
  have checkedMoves := checkWait_moves txCN graph
  unfold prepareTX at done
  dsimp only at done
  split at done
  · split at done
    · cases done
    · split at done
      next aliveBefore =>
        have resolved : Steps txCN (graph, []) (resolveConsensus order txCN (checkWait txCN graph), []) :=
          Relation.ReflTransGen.trans checkedMoves.steps (resolveConsensus_steps order txCN _)
        obtain ⟨boundedAfter, insideAfter⟩ := resolved.bounded bounded inside
        exact (enterGraph_ready boundedAfter insideAfter aliveBefore done).2.here alive
      next dead =>
        cases done
        exact absurd alive dead
  next failed =>
    cases done
    rw [(checkedMoves.keeps.2 txCN).1] at failed
    exact absurd ⟨alive, (checkWait_alive alive).2.1⟩ failed

theorem takeWait_present (txCN : NodeRef) (graph : TxConsensusGraph) : (takeWait txCN graph).txCNs = graph.txCNs := by
  cases found : graph.waitUnChoosedTxCNs.lookup (graph.txIdOf txCN) with
  | none => rw [takeWait_none found]
  | some waitTxcn => exact (takeWait_handedOver found).present

theorem finish_present (done : finish txCN graph = some final) : final.txCNs = graph.txCNs := by
  refine finish_invariant (fun current _ => current.txCNs = graph.txCNs) ?_ rfl ?_ ?_ done
  · exact fun current task _ same => (task.performed current).present.trans same
  · exact fun _ _ => (restated_commit graph txCN).present
  · exact fun dead => congrArg _ (expandDelete_changed dead)

section

variable (bounded : Bounded before []) (recorded : Recorded cut before)
  (done : processTX order before.nodes.size (before.newNode choosed) = some final)

include bounded recorded done

/-- A node that is never aborted is alive before the hand-over. -/
theorem processTX_alive (clean : (before.nodes.size, .changedState) ∉ final.stateLog) :
    ∃ prepared, prepareTX order before.nodes.size (before.newNode choosed) = some prepared ∧
      (prepared.node before.nodes.size).state ≠ .changedState ∧
      prepared.txIdOf before.nodes.size = choosed.txId ∧
      finish before.nodes.size (if (before.waitUnChoosedTxCNs.lookup choosed.txId).isSome then
        takeWait before.nodes.size prepared else prepared) = some final := by
  have start := bounded.newNode choosed
  have inside : before.nodes.size < (before.newNode choosed).nodes.size := Nat.lt_succ_self _
  have arrived := txIdOf_newNode_new before choosed
  obtain ⟨prepared, first, last⟩ := Option.bind_eq_some_iff.mp done
  rw [arrived] at last
  have prepares := prepareTX_steps start inside first
  obtain ⟨preparedBounded, preparedInside⟩ := prepares.bounded start inside
  have record : Recorded cut prepared := prepares.recorded start inside (recorded.newNode choosed)
  refine ⟨prepared, first, fun dead => ?_, (prepares.txIdOf _).trans arrived, last⟩
  have finishes : Steps before.nodes.size (prepared, []) (final, []) := by
    split at last
    · exact Relation.ReflTransGen.trans (takeWait_steps _ prepared) (finish_steps last)
    · exact finish_steps last
  have logged := record.logged _ preparedInside (by
    rw [dead]
    exact NodeState.noConfusion)
  rw [dead] at logged
  exact clean ((finishes.grows preparedBounded preparedInside).subset logged)

/-- A call with a fresh identifier keeps the nodes filed. -/
theorem processTX_filed (fresh : Fresh before choosed) (filed : Filed before) : Filed final := by
  have start := bounded.newNode choosed
  have inside : before.nodes.size < (before.newNode choosed).nodes.size := Nat.lt_succ_self _
  have size := (processTX_contents bounded done).1
  obtain ⟨oldNames, newName⟩ := processTX_txIdOf bounded done
  have steps := processTX_steps start inside done
  have grows := steps.grows start inside
  have arrived := txIdOf_newNode_new before choosed
  refine ⟨?_, ?_⟩
  · intro target below clean
    rw [size] at below
    rcases Nat.lt_succ_iff_lt_or_eq.mp below with old | same
    · have different : before.txIdOf target ≠ (before.newNode choosed).txIdOf before.nodes.size := by
        rw [arrived]
        exact fresh target old
      rw [oldNames target old, steps.present_other _ different]
      exact filed.present target old fun logged => clean (grows.subset logged)
    · rw [same] at clean ⊢
      obtain ⟨prepared, first, alive, name, last⟩ := processTX_alive bounded recorded done clean
      have kept : final.txCNs = prepared.txCNs := by
        split at last
        · exact (finish_present last).trans (takeWait_present _ prepared)
        · exact finish_present last
      rw [newName, kept, ← name]
      exact prepareTX_present start inside first alive
  · rw [size]
    apply distinct_succ oldNames filed.distinct
    rw [newName]
    exact fresh

end

end Pobl.Partialorder
