import Pobl.Proof.Receiver.SafeSession

namespace Pobl.BlockCutter

open Library Protos Partialorder TxConsensusGraph Session

/-- A verdict is final: an aborted node never commits, and a committed node is never aborted.
The emitted envelopes are exactly those of the committed nodes, and each key of the state holds what the last
committed node that writes the key has written. -/
theorem abort_is_final (first second : List Call) (middle final : Session)
    (clear : Guarded step (Session.Allows Clear) initial (first ++ second))
    (reached : run step initial first = some middle)
    (later : run step middle second = some final) (target : NodeRef) :
    ((target, .changedState) ∈ middle.graph.stateLog →
      (final.graph.node target).state = .changedState ∧ target ∉ final.graph.commits) ∧
    ((target, .committed) ∈ middle.graph.stateLog → (final.graph.node target).state = .committed ∧
      (target, .changedState) ∉ final.graph.stateLog) ∧
    final.emitted = final.graph.commits.map final.graph.envelopeOf ∧
    ∀ key, final.graph.gState.lookup key = replay (final.graph.commits.map final.graph.writeSetOf) key := by
  rw [guarded_append] at clear
  have start : Kept initial.graph initial.cutEnvelopes := ⟨sound_initial, recorded_initial⟩
  have kept := run_kept first start clear.1 reached
  have grows := run_grows second kept (clear.2 middle reached) later
  obtain ⟨sound, recorded⟩ := run_kept second kept (clear.2 middle reached) later
  refine ⟨?_, ?_, recorded.batch, recorded.state⟩
  · intro aborted
    have dead := ((sound.changedLog target).mp (grows.subset aborted)).2
    refine ⟨dead, ?_⟩
    rw [mem_commits, sound.committedLog, dead]
    exact fun committed => NodeState.noConfusion committed.2
  · intro committed
    have state := ((sound.committedLog target).mp (grows.subset committed)).2
    refine ⟨state, ?_⟩
    rw [sound.changedLog, state]
    exact fun dead => NodeState.noConfusion dead.2

def rejectedCalls : List Call :=
  [ordinaryCall (sampleTx "p" [] [("k", [1])]), ordinaryCall (sampleTx "t" [("k", [2], "p")] [])]

/-- A committed parent rejects its child, and the child stays aborted. -/
theorem abort_is_final_rejected : ∃ middle final, run step initial rejectedCalls = some middle ∧
    run step middle [ordinaryCall (sampleTx "u" [("k", [1], "p")] [])] = some final ∧
    (1, .changedState) ∈ middle.graph.stateLog ∧
    (final.graph.node 1).state = .changedState ∧ 1 ∉ final.graph.commits := by
  obtain ⟨final, whole⟩ := Option.isSome_iff_exists.mp (show (run step initial
    (rejectedCalls ++ [ordinaryCall (sampleTx "u" [("k", [1], "p")] [])])).isSome = true by decide)
  rw [run_append] at whole
  obtain ⟨middle, reached, later⟩ := Option.bind_eq_some_iff.mp whole
  have aborted : (1, .changedState) ∈ middle.graph.stateLog := of_evaluated reached (by decide)
  exact ⟨middle, final, reached, later, aborted,
    (abort_is_final rejectedCalls _ middle final (by decide) reached later 1).1 aborted⟩

/-- The parent `a` waits for `z` when it rejects its child `t`. -/
def undecidedCalls : List Call :=
  [ordinaryCall (sampleTx "a" [("z", [9], "z")] [("k", [1])]),
    ordinaryCall (sampleTx "t" [("k", [2], "a")] [("w", [3])])]

/-- The child of an undecided parent is aborted, and it commits together with its parent. -/
theorem aborted_node_commits : (run step initial undecidedCalls).map
      (fun session => (session.graph.node 1).state) = some .changedState ∧
    (run step initial (undecidedCalls ++ [ordinaryCall (sampleTx "z" [] [("z", [9])])])).map
      (fun session => ((session.graph.node 1).state, session.emitted, session.graph.gState.lookup "w")) =
      some (.committed, [sampleTx "z" [] [("z", [9])], sampleTx "a" [("z", [9], "z")] [("k", [1])],
        sampleTx "t" [("k", [2], "a")] [("w", [3])]], some [3]) := by decide

end Pobl.BlockCutter
