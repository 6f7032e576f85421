import Pobl.Proof.Receiver.Feed

namespace Pobl.BlockCutter

open Library Protos Partialorder TxConsensusGraph Session

/-- What a session keeps without any condition on the reads of its transactions. -/
structure Accounted (graph : TxConsensusGraph) (cut : List Envelope) : Prop where
  bounded : Bounded graph []
  recorded : Recorded cut graph
  decoded : Decoded graph

theorem accounted_initial : Accounted initial.graph initial.cutEnvelopes :=
  ⟨bounded_initial, recorded_initial, nofun⟩

theorem Accounted.flush {graph : TxConsensusGraph} {cut : List Envelope} (accounted : Accounted graph cut) :
    Accounted (flush graph) (cut ++ graph.readyBatch) :=
  ⟨bounded_flush accounted.bounded, recorded_flush accounted.recorded, accounted.decoded⟩

theorem Accounted.processTX {before final : TxConsensusGraph} {cut : List Envelope} {order : RangeOrder RangeSite}
    {choosed : GVNode} (accounted : Accounted before cut) (admitted : Admitted before choosed)
    (done : processTX order before.nodes.size (before.newNode choosed) = some final) : Accounted final cut := by
  obtain ⟨bounded, recorded, _⟩ := processTX_recorded accounted.bounded done accounted.recorded
  exact ⟨bounded, recorded, processTX_decoded accounted.bounded accounted.decoded admitted.decodes done⟩

theorem Session.run_accounted {calls : List Call} {final : Session} (feed : Feed calls)
    (reached : run step initial calls = some final) : Accounted final.graph final.cutEnvelopes :=
  run_keeps Accounted (fun _ => Admitted)
    (fun _ _ _ _ _ admitted accounted done => accounted.processTX admitted done)
    (fun _ _ accounted => accounted.flush) calls initial final accounted_initial feed.admitted
    reached

/-- At every return the state holds for each key what the last emitted transaction that writes the key has
written, and the counter is the number of the emitted transactions. -/
theorem state_replays_emitted (calls : List Call) (final : Session) (feed : Feed calls)
    (reached : run step initial calls = some final) :
    (∀ key, final.graph.gState.lookup key = replayEnvelopes final.emitted key) ∧
      final.graph.numGCommittedNode = final.emitted.length := by
  obtain ⟨_, recorded, decoded⟩ := run_accounted feed reached
  have emits : final.emitted = final.graph.commits.map final.graph.envelopeOf := recorded.batch
  rw [emits]
  refine ⟨fun key => ?_, ?_⟩
  · rw [replayEnvelopes_envelopeOf decoded recorded.commit_inside]
    exact recorded.state key
  · rw [List.length_map]
    exact recorded.count

/-- The transaction `t` is aborted, and the overwriting child `c` of `p` commits inside the cascade. -/
def cascadeCalls : List Call :=
  [ordinaryCall (sampleTx "c" [("k", [1], "p")] [("k", [2])]), .cut,
    ordinaryCall (sampleTx "p" [] [("k", [1]), ("w", [3])]), .cut,
    ordinaryCall (sampleTx "t" [("k", [7], "p")] [("w", [4])])]

theorem state_replays_emitted_cascade : ∃ final, run step initial cascadeCalls = some final ∧
    final.emitted = [sampleTx "p" [] [("k", [1]), ("w", [3])], sampleTx "c" [("k", [1], "p")] [("k", [2])]] ∧
    final.graph.gState.lookup "k" = some [2] ∧ final.graph.gState.lookup "w" = some [3] ∧
    final.graph.gState.lookup "z" = none ∧ final.graph.numGCommittedNode = 2 := by
  refine exists_evaluated (by decide) fun final reached emits => ?_
  obtain ⟨state, count⟩ := state_replays_emitted cascadeCalls final (by decide) reached
  rw [state, state, state, count, emits]
  decide

end Pobl.BlockCutter
