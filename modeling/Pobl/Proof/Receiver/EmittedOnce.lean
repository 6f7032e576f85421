import Pobl.Proof.Receiver.AnyEnvelope
import Pobl.Proof.Receiver.StateReplay
import Pobl.Proof.Safety.AtMostOnce

namespace Pobl.BlockCutter

open Library Protos Partialorder TxConsensusGraph Session

theorem commitsOnce_initial : CommitsOnce TxConsensusGraph.initial := ⟨List.nodup_nil, nofun⟩

/-- Decoded nodes with distinct identifiers have distinct envelopes. -/
theorem envelopeOf_injective {graph : TxConsensusGraph} (decoded : Decoded graph) (filed : Filed graph)
    {first second : NodeRef} (firstIn : first < graph.nodes.size) (secondIn : second < graph.nodes.size)
    (same : graph.envelopeOf first = graph.envelopeOf second) : first = second := by
  have decodes := decoded first firstIn
  rw [same, decoded second secondIn, Option.some.injEq] at decodes
  exact filed.distinct first firstIn second secondIn (congrArg GVNode.txId decodes.symm)

/-- Every envelope occurs at most once among the emitted ones. -/
theorem emitted_at_most_once (calls : List Call) (final : Session) (feed : Feed calls)
    (reached : run step initial calls = some final) : final.emitted.Nodup := by
  obtain ⟨⟨_, recorded, decoded⟩, known, filed⟩ := run_keeps
    (fun graph cut => Accounted graph cut ∧ CommitsOnce graph ∧ Filed graph) (fun _ => Admitted) (by
      rintro graph cut order choosed after admitted ⟨accounted, known, filed⟩ done
      obtain ⟨_, zero, noUN⟩ := processEnvForBC_origin admitted.decodes
      exact ⟨accounted.processTX admitted done,
        processTX_commitsOnce accounted.bounded accounted.recorded known zero noUN done,
        processTX_filed accounted.bounded accounted.recorded done admitted.fresh filed⟩)
    (fun _ _ ⟨accounted, known, filed⟩ => ⟨accounted.flush, { known with }, { filed with }⟩) calls initial final
    ⟨accounted_initial, commitsOnce_initial, nofun, nofun⟩ feed.admitted reached
  have emits : final.emitted = final.graph.commits.map final.graph.envelopeOf := recorded.batch
  rw [emits]
  refine List.Nodup.map_on ?_ known.once
  intro first firstCommitted second secondCommitted same
  exact envelopeOf_injective decoded filed (recorded.commit_inside first firstCommitted)
    (recorded.commit_inside second secondCommitted) same

/-- The transaction `s` names itself, `a` and `b` name each other, and `t` is aborted while it waits
for `z`. -/
def tangledCalls : List Call :=
  [ordinaryCall (sampleTx "s" [("k", [1], "s")] [("k", [1])]),
    ordinaryCall (sampleTx "a" [("k", [1], "b")] [("w", [2])]),
    ordinaryCall (sampleTx "b" [("w", [2], "a")] [("k", [1])]), .cut,
    ordinaryCall (sampleTx "d" [("z", [9], "z")] [("k", [1])]),
    ordinaryCall (sampleTx "t" [("k", [2], "d")] []), ordinaryCall (sampleTx "z" [] [("z", [9])])]

theorem emitted_at_most_once_tangled : ∃ final, run step initial tangledCalls = some final ∧
    final.emitted = [sampleTx "z" [] [("z", [9])], sampleTx "d" [("z", [9], "z")] [("k", [1])],
      sampleTx "t" [("k", [2], "d")] []] ∧ final.emitted.Nodup := by
  refine exists_evaluated (by decide +kernel) fun final reached _ => ?_
  exact emitted_at_most_once tangledCalls final (by decide) reached

/-- Calls with decodable envelopes return, so does every later cascade that does not panic in consensus state 2, and no
node commits twice. -/
theorem cascades_terminate (calls : List Call) (forBC : ∀ call ∈ calls, call.ForBC)
    (decodable : ∀ call ∈ calls, call = .cut ∨ call.arrival.isSome) :
    ∃ final, run step initial calls = some final ∧ final.graph.commits.Nodup ∧
      ∀ order choosed, choosed.consensusState ≠ 2 → ∃ after,
        processTX order final.graph.nodes.size (final.graph.newNode choosed) = some after := by
  have decoded : Guarded step (Session.Allows fun _ _ choosed => processEnvForBC choosed.txResult = some choosed)
      initial calls :=
    guarded_of_forall step calls (fun call member _ _ _ created => (forBC call member).decodes created) _
  obtain ⟨final, reached, maintained, known⟩ := run_returns
    (fun graph cut => Maintained graph cut ∧ CommitsOnce graph) _ (by
      rintro graph cut order choosed decodes ⟨maintained, known⟩
      obtain ⟨_, zero, noUN⟩ := processEnvForBC_origin decodes
      have decided : choosed.consensusState ≠ 2 := by omega
      obtain ⟨after, done, kept⟩ := maintained.arrives order decided
      exact ⟨after, done, kept,
        processTX_commitsOnce maintained.bounded maintained.recorded known zero noUN done⟩)
    (fun _ _ ⟨maintained, known⟩ => ⟨maintained.flush, { known with }⟩) calls initial decodable
    ⟨maintained_initial, commitsOnce_initial⟩ decoded
  refine ⟨final, reached, known.once, fun order choosed decided => ?_⟩
  obtain ⟨after, done, _⟩ := maintained.arrives order decided
  exact ⟨after, done⟩

theorem cascades_terminate_tangled : ∃ final, run step initial tangledCalls = some final ∧
    final.graph.commits = [5, 3, 4] ∧ final.graph.commits.Nodup := by
  have decodable : ∀ call ∈ tangledCalls, call = .cut ∨ call.arrival.isSome := by
    simp only [tangledCalls, List.forall_mem_cons]
    exact ⟨.inr rfl, .inr rfl, .inr rfl, .inl trivial, .inr rfl, .inr rfl, .inr rfl, fun _ none => (by cases none)⟩
  obtain ⟨final, reached, once, _⟩ := cascades_terminate tangledCalls (by decide) decodable
  exact ⟨final, reached, of_evaluated reached (by decide +kernel), once⟩

end Pobl.BlockCutter
