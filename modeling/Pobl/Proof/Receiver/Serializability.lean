import Pobl.Proof.Receiver.SafeSession
import Pobl.Proof.Safety.Serial

namespace Pobl.BlockCutter

open Library Protos Partialorder TxConsensusGraph Session

/-- Each read of the transaction returns what the earlier transactions leave. -/
def ReadsCurrent (earlier : List Envelope) (env : Envelope) : Prop :=
  ∃ gvnode, processEnvForBC env = some gvnode ∧ ∀ key rkv, gvnode.readSet.lookup key = some rkv →
      replayEnvelopes earlier key = some rkv.value

theorem ReadsNamed.newNode {graph : TxConsensusGraph} {choosed : GVNode} (decoded : Decoded graph)
    (admitted : Admitted graph choosed) (target : NodeRef) (inside : target < (graph.newNode choosed).nodes.size) :
    ReadsNamed ((graph.newNode choosed).node target).choosedNode := by
  rcases Nat.lt_succ_iff_lt_or_eq.mp inside with old | same
  · rw [newNode_old graph choosed target old]
    exact processEnvForBC_named (decoded target old)
  · rw [same, node_newNode_new]
    exact processEnvForBC_named admitted.decodes

/-- A run of unanimous and unshadowed calls keeps the commits serial. -/
theorem Session.run_serial {calls : List Call} {final : Session} (feed : Feed calls)
    (guarded : Guarded step (Session.Allows fun order graph choosed =>
      Unanimous order graph choosed ∧ Unshadowed graph choosed) initial calls)
    (reached : run step initial calls = some final) :
    Fed final.graph final.cutEnvelopes ∧ Serial final.graph := by
  refine run_keeps (fun graph cut => Fed graph cut ∧ Serial graph)
    (fun order graph choosed => Admitted graph choosed ∧ Unanimous order graph choosed ∧
      Unshadowed graph choosed) ?_ ?_ calls initial final ⟨fed_initial, nofun⟩
    (feed.with guarded) reached
  · intro graph cut order choosed after allowed kept done
    obtain ⟨admitted, unanimous, unshadowed⟩ := allowed
    obtain ⟨fed, serial⟩ := kept
    obtain ⟨sound, recorded⟩ := fed.kept
    have called := processTX_called sound recorded fed.filed admitted.fresh admitted.decodes
      ⟨unanimous, admitted.replaceable sound.toBounded⟩ done
    exact ⟨fed.processTX admitted unanimous done,
      called.serial unshadowed serial recorded (ReadsNamed.newNode fed.decoded admitted)⟩
  · intro graph cut kept
    exact ⟨kept.1.flush, kept.2⟩

/-- Every emitted transaction has read the state that the transactions before it leave. -/
theorem emitted_reads_current (calls : List Call) (final : Session) (feed : Feed calls)
    (guarded : Guarded step (Session.Allows fun order graph choosed =>
      Unanimous order graph choosed ∧ Unshadowed graph choosed) initial calls)
    (reached : run step initial calls = some final) (position : Nat) (env : Envelope)
    (emitted : final.emitted[position]? = some env) : ReadsCurrent (final.emitted.take position) env := by
  obtain ⟨⟨⟨_, recorded⟩, decoded, _⟩, serial⟩ := run_serial feed guarded reached
  have emits : final.emitted = final.graph.commits.map final.graph.envelopeOf := recorded.batch
  rw [emits, List.getElem?_map] at emitted
  obtain ⟨child, committed, same⟩ := Option.map_eq_some_iff.mp emitted
  have childIn := recorded.commit_inside child (List.mem_of_getElem? committed)
  refine ⟨(final.graph.node child).choosedNode, same ▸ decoded child childIn, ?_⟩
  intro key rkv read
  rw [emits, ← List.map_take, replayEnvelopes_envelopeOf decoded]
  · exact serial position child committed key rkv read
  · intro target member
    exact recorded.commit_inside target (List.mem_of_mem_take member)

def waitingReaderCalls : List Call :=
  [ordinaryCall (sampleTx "c" [("k", [1], "p")] [("w", [2])]), ordinaryCall (sampleTx "p" [] [("k", [1])])]

/-- A reader that waits for its parent reads the value that the parent leaves. -/
theorem emitted_reads_current_waiting : ∃ final, run step initial waitingReaderCalls = some final ∧
    final.emitted[1]? = some (sampleTx "c" [("k", [1], "p")] [("w", [2])]) ∧
    ReadsCurrent (final.emitted.take 1) (sampleTx "c" [("k", [1], "p")] [("w", [2])]) := by
  refine exists_evaluated (by decide) fun final reached emitted => ?_
  have agreeing : Guarded step (Session.Allows fun order graph choosed =>
      Unanimous order graph choosed ∧ Agreeing graph choosed) initial waitingReaderCalls := by
    decide
  have guarded := guarded_combine (fun session call allowed _ order choosed created =>
    And.imp_right Agreeing.unshadowed (allowed order choosed created)) agreeing agreeing
  exact emitted_reads_current waitingReaderCalls final (by decide) guarded reached 1 _ emitted

/-- Both readers wait for the parent `p`, and the first one overwrites the key that the second one
has read. -/
def staleReaderCalls : List Call :=
  [ordinaryCall (sampleTx "u" [("k", [1], "p")] [("k", [5])]),
    ordinaryCall (sampleTx "v" [("k", [1], "p")] []), ordinaryCall (sampleTx "p" [] [("k", [1])])]

/-- A stale reader is emitted: it has read a value that the transaction before it overwrites. -/
theorem stale_reader_emitted : ∃ final,
    Feed staleReaderCalls ∧ run step initial staleReaderCalls = some final ∧
    final.emitted[2]? = some (sampleTx "v" [("k", [1], "p")] []) ∧
    ¬ ReadsCurrent (final.emitted.take 2) (sampleTx "v" [("k", [1], "p")] []) := by
  obtain ⟨final, reached, known⟩ := Option.map_eq_some_iff.mp
    (show (run step initial staleReaderCalls).map emitted =
      some [sampleTx "p" [] [("k", [1])], sampleTx "u" [("k", [1], "p")] [("k", [5])],
        sampleTx "v" [("k", [1], "p")] []] by decide)
  refine ⟨final, by decide, reached, by rw [known]; rfl, ?_⟩
  rw [known]
  rintro ⟨gvnode, decoded, current⟩
  have read : ((processEnvForBC (sampleTx "v" [("k", [1], "p")] [])).bind
      fun gvnode => gvnode.readSet.lookup "k").map GVReadKV.value = some [1] := by decide
  rw [decoded, Option.bind_some] at read
  obtain ⟨rkv, found, value⟩ := Option.map_eq_some_iff.mp read
  have held := current "k" rkv found
  rw [value] at held
  revert held
  decide

end Pobl.BlockCutter
