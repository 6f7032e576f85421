import Pobl.Proof.Receiver.Feed
import Pobl.Proof.Safety.Arrival

namespace Pobl.BlockCutter

open Library Protos Partialorder TxConsensusGraph Session

variable {graph : TxConsensusGraph} {final session : Session} {cut : List Envelope} {choosed : GVNode}
  {order : RangeOrder RangeSite} {position : Nat} {env : Envelope}

theorem sound_flush (sound : Sound none graph []) : Sound none (flush graph) [] :=
  { sound with toLinked := { sound with toBounded := bounded_flush sound.toBounded } }

theorem sound_initial : Sound none TxConsensusGraph.initial [] where
  toBounded := bounded_initial
  shared := nofun
  waitShared := nofun
  waitApart := nofun
  counted := nofun
  committedZero := nofun
  notReady := nofun
  branchDecided := nofun
  aborted := nofun
  waiting := nofun
  covered := nofun
  abortTask := nofun
  committedLog := by simp [TxConsensusGraph.initial, Heap.empty]
  changedLog := by simp [TxConsensusGraph.initial, Heap.empty]
  once := List.nodup_nil
  causal := nofun

/-- The graph is sound and its history accounts for what was emitted. -/
def Kept (graph : TxConsensusGraph) (cut : List Envelope) : Prop :=
  Sound none graph [] ∧ Recorded cut graph

theorem kept_processTX {before final : TxConsensusGraph} (clear : Clear order before choosed) (kept : Kept before cut)
    (done : processTX order before.nodes.size (before.newNode choosed) = some final) : Kept final cut :=
  ⟨(processTX_judged kept.1 clear done).1, (processTX_recorded kept.1.toBounded done kept.2).2.1⟩

section

variable (calls : List Call) (kept : Kept session.graph session.cutEnvelopes)
  (clear : Guarded step (Session.Allows Clear) session calls)
  (reached : run step session calls = some final)

include calls kept clear reached

theorem Session.run_kept : Kept final.graph final.cutEnvelopes :=
  run_keeps Kept Clear (fun _ _ _ _ _ allowed holds done => kept_processTX allowed holds done)
    (fun _ _ holds => ⟨sound_flush holds.1, recorded_flush holds.2⟩) calls session final kept clear reached

/-- The history of the states only grows along a run of clear calls. -/
theorem Session.run_grows : session.graph.stateLog <+: final.graph.stateLog := by
  have grown := run_keeps (fun graph cut => Kept graph cut ∧ session.graph.stateLog <+: graph.stateLog)
    Clear ?_ ?_ calls session final
    ⟨kept, List.prefix_rfl⟩ clear reached
  · exact grown.2
  · rintro graph cut order choosed after allowed ⟨holds, grows⟩ done
    exact ⟨kept_processTX allowed holds done, grows.trans (processTX_recorded holds.1.toBounded done holds.2).2.2⟩
  · rintro graph cut ⟨holds, grows⟩
    exact ⟨⟨sound_flush holds.1, recorded_flush holds.2⟩, grows⟩

end

/-- A fresh identifier does not belong to an aborted transaction. -/
theorem Admitted.replaceable (admitted : Admitted graph choosed) (bounded : Bounded graph []) :
    Replaceable graph choosed.txId := by
  intro waitTxcn found dead
  obtain ⟨txCN, choosedNode⟩ := Option.ne_none_iff_exists'.mp dead
  obtain ⟨inside, name⟩ := bounded.removed choosed.txId waitTxcn txCN found choosedNode
  exact absurd name (admitted.fresh txCN inside)

/-- What a session keeps whose calls feed decoded envelopes with distinct identifiers. -/
structure Fed (graph : TxConsensusGraph) (cut : List Envelope) : Prop where
  kept : Kept graph cut
  decoded : Decoded graph
  filed : Filed graph

theorem fed_initial : Fed initial.graph initial.cutEnvelopes :=
  ⟨⟨sound_initial, recorded_initial⟩, nofun, nofun, nofun⟩

theorem Fed.flush (fed : Fed graph cut) : Fed (flush graph) (cut ++ graph.readyBatch) :=
  ⟨⟨sound_flush fed.kept.1, recorded_flush fed.kept.2⟩, fed.decoded, fed.filed.present, fed.filed.distinct⟩

theorem Fed.processTX {before final : TxConsensusGraph} (fed : Fed before cut) (admitted : Admitted before choosed)
    (unanimous : Unanimous order before choosed)
    (done : processTX order before.nodes.size (before.newNode choosed) = some final) : Fed final cut := by
  have bounded := fed.kept.1.toBounded
  exact ⟨kept_processTX ⟨unanimous, admitted.replaceable bounded⟩ fed.kept done,
    processTX_decoded bounded fed.decoded admitted.decodes done,
    processTX_filed bounded fed.kept.2 done admitted.fresh fed.filed⟩

theorem Session.run_fed {calls : List Call} (feed : Feed calls)
    (unanimous : Guarded step (Session.Allows Unanimous) initial calls)
    (reached : run step initial calls = some final) : Fed final.graph final.cutEnvelopes :=
  run_keeps Fed (fun order graph choosed => Admitted graph choosed ∧ Unanimous order graph choosed)
    (fun _ _ _ _ _ allowed fed done => fed.processTX allowed.1 allowed.2 done) (fun _ _ fed => fed.flush)
    calls initial final fed_initial (feed.with unanimous) reached

/-- The transaction at the position decodes, and each of its parents is emitted before it with
writes that hold what it has read. -/
def FollowsParents (emitted : List Envelope) (position : Nat) (env : Envelope) : Prop :=
  ∃ gvnode, processEnvForBC env = some gvnode ∧ ∀ ptxid ptx, gvnode.pTx.lookup ptxid = some ptx →
      ∃ earlier < position, ∃ parent gvparent, emitted[earlier]? = some parent ∧
        processEnvForBC parent = some gvparent ∧ gvparent.txId = ptxid ∧
        ∀ key value, ptx.kv.lookup key = some value →
          ∃ wkv, gvparent.writeSet.lookup key = some wkv ∧ wkv.value = value

theorem Kept.followsParents (kept : Kept graph cut) (decoded : Decoded graph)
    (emitted : (cut ++ graph.readyBatch)[position]? = some env) :
    FollowsParents (cut ++ graph.readyBatch) position env := by
  obtain ⟨sound, recorded⟩ := kept
  rw [recorded.batch, List.getElem?_map] at emitted
  rw [recorded.batch]
  obtain ⟨child, committed, same⟩ := Option.map_eq_some_iff.mp emitted
  have below : ∀ index node, graph.commits[index]? = some node → node < graph.nodes.size :=
    fun _ node found => recorded.commit_inside node (List.mem_of_getElem? found)
  refine ⟨(graph.node child).choosedNode, same ▸ decoded child (below _ child committed), ?_⟩
  intro ptxid ptx named
  obtain ⟨earlier, sooner, parent, parentCommitted, name, agrees⟩ := sound.causal position child
    committed ⟨ptxid, ptx⟩ ((GoMap.mem_entries_iff _ _).mpr named)
  refine ⟨earlier, sooner, graph.envelopeOf parent, (graph.node parent).choosedNode, ?_,
    decoded parent (below _ parent parentCommitted), name, ?_⟩
  · rw [List.getElem?_map, parentCommitted, Option.map_some]
  · exact (disagrees_eq_false_iff _ _).mp agrees

theorem Fed.followsParents (fed : Fed session.graph session.cutEnvelopes)
    (emitted : session.emitted[position]? = some env) : FollowsParents session.emitted position env :=
  fed.kept.followsParents fed.decoded emitted

end Pobl.BlockCutter
