import Pobl.Proof.Graph.Decoding
import Pobl.Proof.Graph.Filed
import Pobl.Proof.Receiver.Session

namespace Pobl.BlockCutter

open Library Protos Partialorder TxConsensusGraph Session Call List

variable {order : RangeOrder RangeSite} {choosed : GVNode} {calls : List Call} {graph : TxConsensusGraph}
  {call : Call}

/-- The call passes an envelope to `OrderedRaftForBC`, or it cuts. -/
def Call.ForBC : Call → Prop
  | .orderedRaftForBC _ _ _ => True
  | .orderedRaft _ _ _ => False
  | .cut => True

instance (call : Call) : Decidable call.ForBC := by
  cases call <;> dsimp only [Call.ForBC] <;> infer_instance

/-- The calls feed envelopes with distinct identifiers. -/
structure Feed (calls : List Call) : Prop where
  forBC : ∀ call ∈ calls, call.ForBC
  distinct : (calls.filterMap txId).Nodup

instance (calls : List Call) : Decidable (Feed calls) :=
  decidable_of_iff ((∀ call ∈ calls, call.ForBC) ∧ (calls.filterMap txId).Nodup)
    ⟨fun both => ⟨both.1, both.2⟩, fun feed => ⟨feed.forBC, feed.distinct⟩⟩

theorem Feed.before {first second : List Call} (feed : Feed (first ++ second)) : Feed first := by
  refine ⟨fun call listed => feed.forBC call (mem_append_left _ listed), ?_⟩
  have distinct := feed.distinct
  rw [filterMap_append] at distinct
  exact (nodup_append.mp distinct).1

/-- The node of such a call is decoded from its message. -/
theorem Call.ForBC.arrives (forBC : call.ForBC) (created : call.arrival = some (order, choosed)) :
    ∃ batchSize msg, call = .orderedRaftForBC order batchSize msg ∧ processEnvForBC msg = some choosed := by
  cases call with
  | orderedRaftForBC given batchSize msg =>
    obtain ⟨gnode, decoded, same⟩ := Option.map_eq_some_iff.mp created
    cases same
    exact ⟨batchSize, msg, rfl, decoded⟩
  | orderedRaft => exact forBC.elim
  | cut => cases created

theorem Call.ForBC.decodes (forBC : call.ForBC) (created : call.arrival = some (order, choosed)) :
    processEnvForBC choosed.txResult = some choosed := by
  obtain ⟨_, msg, _, decoded⟩ := forBC.arrives created
  rw [(processEnvForBC_origin decoded).1]
  exact decoded

/-- The arriving transaction is a decoded envelope with a fresh identifier. -/
structure Admitted (graph : TxConsensusGraph) (choosed : GVNode) : Prop where
  fresh : Fresh graph choosed
  decodes : processEnvForBC choosed.txResult = some choosed

/-- The calls of a feed admit their transactions one after the other. -/
theorem Feed.guarded (feed : Feed calls) (session : Session) (bounded : Bounded session.graph [])
    (unused : ∀ target < session.graph.nodes.size, session.graph.txIdOf target ∉ calls.filterMap txId) :
    Guarded step (Session.Allows fun _ => Admitted) session calls := by
  induction calls generalizing session with
  | nil => trivial
  | cons call rest ih =>
    have later : Feed rest := by
      refine ⟨fun other member => feed.forBC other (mem_cons_of_mem _ member), ?_⟩
      have distinct := feed.distinct
      rw [filterMap_cons] at distinct
      split at distinct
      · exact distinct
      · exact (nodup_cons.mp distinct).2
    have subset : rest.filterMap txId ⊆ (call :: rest).filterMap txId := by
      rw [filterMap_cons]
      split
      · exact List.Subset.refl _
      · exact subset_cons_self _ _
    refine ⟨?_, ?_⟩
    · intro order choosed created
      refine ⟨?_, (feed.forBC call mem_cons_self).decodes created⟩
      intro target inside same
      apply unused target inside
      rw [same, mem_filterMap]
      exact ⟨call, mem_cons_self, by rw [txId, created, Option.map_some]⟩
    · intro next stepped
      cases step_cases stepped with
      | arrives order choosed final created processed result =>
        have txId : call.txId = some choosed.txId := by
          rw [txId, created, Option.map_some]
        have size := (processTX_contents bounded processed).1
        obtain ⟨oldNames, newName⟩ := processTX_txIdOf bounded processed
        have steps := processTX_steps (bounded.newNode choosed) (Nat.lt_succ_self _) processed
        have kept := (steps.bounded (bounded.newNode choosed) (Nat.lt_succ_self _)).1
        have after : Bounded next.graph [] ∧ next.graph.nodes.size = final.nodes.size ∧
            ∀ target, next.graph.txIdOf target = final.txIdOf target := by
          rcases result with ⟨same, _⟩ | ⟨same, _⟩ <;> rw [same]
          · exact ⟨kept, rfl, fun _ => rfl⟩
          · exact ⟨bounded_flush kept, rfl, fun _ => rfl⟩
        obtain ⟨nextBounded, nextSize, nextNames⟩ := after
        apply ih later next nextBounded
        intro target inside
        rw [nextSize, size] at inside
        rw [nextNames]
        rcases Nat.lt_succ_iff_lt_or_eq.mp inside with below | same
        · rw [oldNames target below]
          exact fun member => unused target below (subset member)
        · have distinct := feed.distinct
          rw [filterMap_cons, txId] at distinct
          rw [same, newName]
          exact (nodup_cons.mp distinct).1
      | cuts none graph batch =>
        apply ih later next
        · rw [graph]
          exact bounded_flush bounded
        · rw [graph]
          exact fun target inside member => unused target inside (subset member)

/-- A feed into a new receiver admits all its transactions. -/
theorem Feed.admitted (feed : Feed calls) :
    Guarded step (Session.Allows fun _ => Admitted) initial calls :=
  feed.guarded initial bounded_initial nofun

/-- A feed adds a condition to the admission of its transactions. -/
theorem Feed.with (feed : Feed calls) {condition : RangeOrder RangeSite → TxConsensusGraph → GVNode → Prop}
    (guarded : Guarded step (Session.Allows condition) initial calls) :
    Guarded step (Session.Allows fun order graph choosed =>
      Admitted graph choosed ∧ condition order graph choosed) initial calls :=
  guarded_combine (fun _ _ one two order choosed created =>
    ⟨one order choosed created, two order choosed created⟩) feed.admitted guarded

/-- The envelope that a call passes to `OrderedRaftForBC`. -/
def Call.message : Call → Option Envelope
  | .orderedRaftForBC _ _ msg => some msg
  | .orderedRaft _ _ _ => none
  | .cut => none

/-- The envelopes of the nodes in the order of their arrival. -/
def arrivals (graph : TxConsensusGraph) : List Envelope :=
  (range graph.nodes.size).map graph.envelopeOf

/-- The emitted envelopes have arrived. -/
theorem mem_arrivals_of_emitted {cut : List Envelope} {env : Envelope} (recorded : Recorded cut graph)
    (emitted : env ∈ cut ++ graph.readyBatch) : env ∈ arrivals graph := by
  rw [recorded.batch] at emitted
  obtain ⟨target, committed, same⟩ := mem_map.mp emitted
  exact mem_map.mpr ⟨target, mem_range.mpr (recorded.commit_inside target committed), same⟩

theorem processTX_arrivals {before final : TxConsensusGraph} (bounded : Bounded before [])
    (done : processTX order before.nodes.size (before.newNode choosed) = some final) :
    arrivals final = arrivals before ++ [choosed.txResult] := by
  obtain ⟨old, new⟩ := processTX_envelopeOf bounded done
  unfold arrivals
  rw [(processTX_contents bounded done).1, range_succ, map_append, map_singleton, new]
  congr 1
  exact map_congr_left fun target listed => old target (mem_range.mp listed)

/-- The graph holds the envelopes of the calls in the order of the calls. -/
theorem Session.run_arrivals {session final : Session} (bounded : Bounded session.graph [])
    (forBC : ∀ call ∈ calls, call.ForBC) (reached : run step session calls = some final) :
    arrivals final.graph = arrivals session.graph ++ calls.filterMap message := by
  induction calls generalizing session with
  | nil =>
    cases reached
    rw [filterMap_nil, append_nil]
  | cons call rest ih =>
    obtain ⟨next, stepped, reached⟩ := Option.bind_eq_some_iff.mp reached
    have later := fun other member => forBC other (mem_cons_of_mem _ member)
    have first := forBC call mem_cons_self
    cases step_cases stepped with
    | arrives order choosed middle created processed result =>
      have steps := processTX_steps (bounded.newNode choosed) (Nat.lt_succ_self _) processed
      have kept := (steps.bounded (bounded.newNode choosed) (Nat.lt_succ_self _)).1
      have message : call.message = some choosed.txResult := by
        obtain ⟨_, msg, rfl, decoded⟩ := first.arrives created
        rw [(processEnvForBC_origin decoded).1]
        rfl
      have after : Bounded next.graph [] ∧ arrivals next.graph = arrivals middle := by
        rcases result with ⟨same, _⟩ | ⟨same, _⟩ <;> rw [same]
        · exact ⟨kept, rfl⟩
        · exact ⟨bounded_flush kept, rfl⟩
      rw [ih after.1 later reached, after.2, processTX_arrivals bounded processed,
        filterMap_cons_some message, append_assoc, singleton_append]
    | cuts none graph batch =>
      have message : call.message = Option.none := by
        cases call with
        | orderedRaftForBC given batchSize msg =>
          rw [step, BlockCutter.orderedRaftForBC, Option.map_eq_none_iff.mp none] at stepped
          cases stepped
        | orderedRaft => rfl
        | cut => rfl
      rw [ih (by rw [graph]; exact bounded_flush bounded) later reached, graph, filterMap_cons_none message]
      rfl

/-- The nodes of the envelopes that decode. -/
def decodedNodes (family : List Envelope) : List GVNode := family.filterMap processEnvForBC

section Decoded

variable {family : List Envelope} {calls : List Call}

theorem mem_decodedNodes {gvnode : GVNode} :
    gvnode ∈ decodedNodes family ↔ ∃ env ∈ family, processEnvForBC env = some gvnode :=
  mem_filterMap

/-- The identifiers of the calls are those of the nodes that their messages decode to. -/
theorem filterMap_txId (forBC : ∀ call ∈ calls, call.ForBC) :
    calls.filterMap txId = (decodedNodes (calls.filterMap message)).map GVNode.txId := by
  unfold decodedNodes
  rw [filterMap_filterMap, map_filterMap]
  apply filterMap_congr
  intro call listed
  cases call with
  | orderedRaftForBC order batchSize msg =>
    simp [txId, arrival, message, Option.map_map, Function.comp_def]
  | orderedRaft => exact (forBC _ listed).elim
  | cut => rfl

end Decoded

/-- The value that the transaction in an envelope writes to a key. -/
def writtenBy (env : Envelope) (key : Key) : Option Value :=
  (processEnvForBC env).bind fun gvnode => (gvnode.writeSet.lookup key).map GVWriteKV.value

/-- The value of a key after a sequence of transactions: what the last of them that writes the key has written. -/
def replayEnvelopes (envs : List Envelope) (key : Key) : Option Value :=
  envs.reverse.findSome? fun env => writtenBy env key

/-- The nodes replay the same state as their envelopes. -/
theorem replayEnvelopes_envelopeOf (decoded : Decoded graph) {nodes : List NodeRef}
    (inside : ∀ target ∈ nodes, target < graph.nodes.size) (key : Key) :
    replayEnvelopes (nodes.map graph.envelopeOf) key = replay (nodes.map graph.writeSetOf) key := by
  rw [replayEnvelopes, ← Replay.replay_map_eq, replay_eq, map_map, map_map]
  congr 1
  apply map_congr_left
  intro target member
  have decodes : processEnvForBC (graph.envelopeOf target) = some (graph.node target).choosedNode :=
    decoded target (inside target member)
  funext key
  rw [Function.comp_apply, writtenBy, decodes]
  rfl

end Pobl.BlockCutter
