import Pobl.Library.Run
import Pobl.Construction.BlockCutter
import Pobl.Proof.Graph.Emission

namespace Pobl.BlockCutter

open Library Protos Partialorder TxConsensusGraph Session Option

variable {order : RangeOrder RangeSite} {choosed : GVNode} {session next : Session} {call : Call}
  {batchSize : BatchSize}

/-- The node that a call creates, and the order of its loops. -/
def Call.arrival : Call → Option (RangeOrder RangeSite × GVNode)
  | .orderedRaftForBC order _ msg => (processEnvForBC msg).map fun choosed => (order, choosed)
  | .orderedRaft order _ gvnode => some (order, gvnode)
  | .cut => none

def Call.txId (call : Call) : Option TxId := call.arrival.map fun arrival => arrival.2.txId

def Session.graph (session : Session) : TxConsensusGraph := session.receiver.tcg

/-- The envelopes that have left the receiver. -/
def Session.cutEnvelopes (session : Session) : List Envelope := session.batches.flatten

/-- A condition on the order of the loops, the graph and the arriving node, as a condition on a call. -/
def Session.Allows (condition : RangeOrder RangeSite → TxConsensusGraph → GVNode → Prop) (session : Session)
    (call : Call) : Prop :=
  ∀ order choosed, call.arrival = some (order, choosed) → condition order session.graph choosed

instance (condition : RangeOrder RangeSite → TxConsensusGraph → GVNode → Prop)
    [∀ order graph choosed, Decidable (condition order graph choosed)] (session : Session)
    (call : Call) : Decidable (session.Allows condition call) :=
  decidable_of_iff (∀ arrival ∈ call.arrival, condition arrival.1 session.graph arrival.2)
    ⟨fun all order choosed => all (order, choosed), fun all arrival => all arrival.1 arrival.2⟩

/-- The graph after its ready batch was cut. -/
def flush (graph : TxConsensusGraph) : TxConsensusGraph := { graph with readyBatch := [] }

theorem cutFullBatch_cases (batchSize : BatchSize) (r : Receiver) :
    (cutFullBatch batchSize r).1 = [] ∧ (cutFullBatch batchSize r).2.2.tcg = r.tcg ∨
      (cutFullBatch batchSize r).1 = [r.tcg.readyBatch] ∧ (cutFullBatch batchSize r).2.2.tcg = flush r.tcg := by
  unfold cutFullBatch
  split
  · exact .inr ⟨rfl, rfl⟩
  · exact .inl ⟨rfl, rfl⟩

/-- A step of a session processes the node of its call, and it may cut the ready batch. -/
inductive Session.Steps (session : Session) (call : Call) (next : Session) : Prop where
  | arrives (order : RangeOrder RangeSite) (choosed : GVNode) (final : TxConsensusGraph)
      (created : call.arrival = some (order, choosed))
      (processed : processTX order session.graph.nodes.size (session.graph.newNode choosed) = some final)
      (result : next.graph = final ∧ next.cutEnvelopes = session.cutEnvelopes ∨
        next.graph = flush final ∧ next.cutEnvelopes = session.cutEnvelopes ++ final.readyBatch)
  | cuts (none : call.arrival = none) (graph : next.graph = flush session.graph)
      (batch : next.cutEnvelopes = session.cutEnvelopes ++ session.graph.readyBatch)

/-- Both entry points create a node, process it and test the size of the ready batch. -/
theorem processNode_cases {r : Receiver} {result : List (List Envelope) × Bool × Receiver}
    (returned : (processNode order choosed r).map (cutFullBatch batchSize) = some result) :
    ∃ final, processTX order r.tcg.nodes.size (r.tcg.newNode choosed) = some final ∧
      (result.1 = [] ∧ result.2.2.tcg = final ∨ result.1 = [final.readyBatch] ∧ result.2.2.tcg = flush final) := by
  obtain ⟨receiver, processed, tested⟩ := map_eq_some_iff.mp returned
  obtain ⟨final, done, stored⟩ := map_eq_some_iff.mp processed
  subst stored tested
  exact ⟨final, done, cutFullBatch_cases batchSize _⟩

theorem Session.steps_of_processNode (created : call.arrival = some (order, choosed))
    (stepped : ((processNode order choosed session.receiver).map (cutFullBatch batchSize)).map
      (fun result => (⟨result.2.2, session.batches ++ result.1⟩ : Session)) = some next) :
    session.Steps call next := by
  obtain ⟨result, returned, same⟩ := map_eq_some_iff.mp stepped
  obtain ⟨final, done, ⟨none, kept⟩ | ⟨one, cut⟩⟩ := processNode_cases returned
  · subst same
    refine .arrives order choosed final created done (.inl ⟨kept, ?_⟩)
    unfold cutEnvelopes
    rw [none, List.append_nil]
  · subst same
    refine .arrives order choosed final created done (.inr ⟨cut, ?_⟩)
    unfold cutEnvelopes
    rw [one, List.flatten_append, List.flatten_singleton]

theorem Session.step_cases (stepped : session.step call = some next) : session.Steps call next := by
  cases call with
  | orderedRaftForBC order batchSize msg =>
    unfold step BlockCutter.orderedRaftForBC at stepped
    cases decoded : processEnvForBC msg with
    | none => simp [decoded] at stepped
    | some choosed =>
      have created : (Call.orderedRaftForBC order batchSize msg).arrival = some (order, choosed) := by
        simp only [Call.arrival, decoded, map_some]
      simp only [decoded, bind_some] at stepped
      exact steps_of_processNode created stepped
  | orderedRaft order batchSize gvnode => exact steps_of_processNode rfl stepped
  | cut =>
    cases stepped
    refine .cuts rfl rfl ?_
    exact List.flatten_append.trans (congrArg _ (List.flatten_singleton))

/-- An invariant of the graph and the cut envelopes holds after every guarded run of calls. -/
theorem Session.run_keeps (invariant : TxConsensusGraph → List Envelope → Prop)
    (condition : RangeOrder RangeSite → TxConsensusGraph → GVNode → Prop)
    (arrives : ∀ graph cut order choosed final, condition order graph choosed → invariant graph cut →
      processTX order graph.nodes.size (graph.newNode choosed) = some final → invariant final cut)
    (cuts : ∀ graph cut, invariant graph cut → invariant (flush graph) (cut ++ graph.readyBatch))
    (calls : List Call) (session final : Session)
    (initially : invariant session.graph session.cutEnvelopes)
    (guarded : Guarded step (Session.Allows condition) session calls)
    (reached : run step session calls = some final) : invariant final.graph final.cutEnvelopes := by
  refine run_invariant step _ (fun session => invariant session.graph session.cutEnvelopes)
    ?_ calls session final initially guarded reached
  intro session call next allowed holds stepped
  cases step_cases stepped with
  | arrives order choosed final created processed result =>
    have kept := arrives _ _ order choosed final (allowed order choosed created) holds processed
    rcases result with ⟨graph, cut⟩ | ⟨graph, cut⟩
    · rw [graph, cut]
      exact kept
    · rw [graph, cut]
      exact cuts final _ kept
  | cuts none graph batch =>
    rw [graph, batch]
    exact cuts session.graph _ holds

/-- A call that brings a node returns when its node is processed. -/
theorem Session.step_returns {final : TxConsensusGraph} (created : call.arrival = some (order, choosed))
    (processed : processTX order session.graph.nodes.size (session.graph.newNode choosed) = some final) :
    ∃ next, session.step call = some next := by
  have stored : processNode order choosed session.receiver = some { session.receiver with tcg := final } :=
    map_eq_some_iff.mpr ⟨final, processed, rfl⟩
  cases call with
  | orderedRaftForBC given batchSize msg =>
    obtain ⟨gnode, decoded, same⟩ := map_eq_some_iff.mp created
    cases same
    simp only [step, BlockCutter.orderedRaftForBC, decoded, bind_some, stored, map_some]
    exact ⟨_, rfl⟩
  | orderedRaft given batchSize gvnode =>
    cases created
    simp only [step, BlockCutter.orderedRaft, stored, map_some]
    exact ⟨_, rfl⟩
  | cut => cases created

/-- A run of calls returns when every node is processed and keeps the invariant. -/
theorem Session.run_returns (invariant : TxConsensusGraph → List Envelope → Prop)
    (condition : RangeOrder RangeSite → TxConsensusGraph → GVNode → Prop)
    (arrives : ∀ graph cut order choosed, condition order graph choosed → invariant graph cut →
      ∃ final, processTX order graph.nodes.size (graph.newNode choosed) = some final ∧ invariant final cut)
    (cuts : ∀ graph cut, invariant graph cut → invariant (flush graph) (cut ++ graph.readyBatch))
    (calls : List Call) (session : Session) (brings : ∀ call ∈ calls, call = .cut ∨ call.arrival.isSome)
    (initially : invariant session.graph session.cutEnvelopes)
    (guarded : Guarded step (Session.Allows condition) session calls) :
    ∃ final, run step session calls = some final ∧ invariant final.graph final.cutEnvelopes := by
  have bringing : Guarded step (fun _ call => call = .cut ∨ call.arrival.isSome) session calls :=
    guarded_of_forall step calls (fun call member _ => brings call member) session
  have both := guarded_combine (fun _ _ one two => And.intro one two) guarded bringing
  refine Library.run_returns step _ (fun session => invariant session.graph session.cutEnvelopes) ?_ calls
    session initially both
  rintro session call ⟨allowed, isCut | created⟩ holds
  · subst isCut
    refine ⟨_, rfl, ?_⟩
    cases step_cases (rfl : session.step .cut = some _) with
    | arrives order choosed final created => cases created
    | cuts none graph batch =>
      rw [graph, batch]
      exact cuts session.graph _ holds
  · obtain ⟨⟨order, choosed⟩, created⟩ := isSome_iff_exists.mp created
    obtain ⟨final, processed, kept⟩ := arrives _ _ order choosed (allowed order choosed created) holds
    obtain ⟨next, stepped⟩ := step_returns created processed
    refine ⟨next, stepped, ?_⟩
    cases step_cases stepped with
    | arrives given node other arrived done result =>
      rw [created, Option.some.injEq, Prod.mk.injEq] at arrived
      obtain ⟨rfl, rfl⟩ := arrived
      rw [processed, Option.some.injEq] at done
      subst done
      rcases result with ⟨graph, cut⟩ | ⟨graph, cut⟩
      · rw [graph, cut]
        exact kept
      · rw [graph, cut]
        exact cuts final _ kept
    | cuts none =>
      rw [created] at none
      cases none

theorem bounded_flush {graph : TxConsensusGraph} (bounded : Bounded graph []) : Bounded (flush graph) [] :=
  { bounded with }

theorem bounded_initial : Bounded TxConsensusGraph.initial [] where
  owned := nofun
  listed := nofun
  waitOwned := nofun
  present := nofun
  removed := nofun
  taskNode := nofun

theorem recorded_flush {graph : TxConsensusGraph} {cut : List Envelope}
    (recorded : Recorded cut graph) : Recorded (cut ++ graph.readyBatch) (flush graph) :=
  { recorded with batch := (List.append_nil _).trans recorded.batch }

theorem recorded_initial : Recorded [] TxConsensusGraph.initial :=
  ⟨nofun, nofun, rfl, fun _ => rfl, rfl⟩

/-- The calls of the examples iterate over the maps as they are stored. -/
def ordinaryCall (msg : Envelope) : Call :=
  .orderedRaftForBC (RangeOrder.stored RangeSite) ⟨100, 100⟩ msg

/-- A transaction with reads from parents and with writes. -/
def sampleTx (txId : TxId) (reads : List (Key × Value × TxId)) (writes : List (Key × Value)) : Envelope :=
  endorserEnvelope "cc" txId (reads.map fun read => ⟨read.1, read.2.1, true, read.2.2⟩)
    (writes.map fun write => ⟨write.1, false, write.2, true, txId⟩)

end Pobl.BlockCutter
