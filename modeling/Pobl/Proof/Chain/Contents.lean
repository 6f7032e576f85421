import Pobl.Proof.Chain.Accounting
import Pobl.Proof.Receiver.Feed

namespace Pobl.Etcdraft

open Library Protos Partialorder BlockCutter Pipeline List

/-- The messages in the channels, the nodes of the graph and the transactions that are leaving have the
property. -/
structure Pipeline.Carries (property : Envelope → Prop) (pipeline : Pipeline) : Prop where
  queued : ∀ env, ⟨some env⟩ ∈ pipeline.queued → property env
  blocked : ∀ env, pipeline.blocked = some ⟨some env⟩ → property env
  arrived : ∀ env ∈ arrivals pipeline.receiver.tcg, property env
  leaving : ∀ env ∈ pipeline.leaving, property env
  bounded : Bounded pipeline.receiver.tcg []
  recorded : ∃ cut, Recorded cut pipeline.receiver.tcg

/-- The pipeline and the normal messages in the created blocks have the property. -/
structure Chain.Carries (property : Envelope → Prop) (c : Chain) : Prop where
  pipeline : c.toPipeline.Carries property
  created : ∀ record ∈ c.created, ∀ env ∈ record.block.data, isConfig env ≠ some true → property env

namespace Pipeline.Carries

variable {property : Envelope → Prop} {pipeline next : Pipeline}

theorem initial (property : Envelope → Prop) (ledger : Ledger) (appliedIndex sequence : Nat) :
    (newChain ledger appliedIndex sequence).toPipeline.Carries property where
  queued := nofun
  blocked := nofun
  arrived := nofun
  leaving := nofun
  bounded := bounded_initial
  recorded := ⟨[], recorded_initial⟩

theorem mono {other : Envelope → Prop} (carries : pipeline.Carries property)
    (implies : ∀ env, property env → other env) : pipeline.Carries other where
  queued env member := implies env (carries.queued env member)
  blocked env sending := implies env (carries.blocked env sending)
  arrived env member := implies env (carries.arrived env member)
  leaving env member := implies env (carries.leaving env member)
  bounded := carries.bounded
  recorded := carries.recorded

/-- The ready transactions are nodes of the graph. -/
theorem ready (carries : pipeline.Carries property) : ∀ env ∈ pipeline.receiver.tcg.readyBatch, property env := by
  intro env member
  obtain ⟨cut, recorded⟩ := carries.recorded
  exact carries.arrived env (mem_arrivals_of_emitted recorded (mem_append_right _ member))

/-- A cut keeps the property, whatever happens to the batch. -/
theorem flush (carries : pipeline.Carries property) (graph : next.receiver.tcg = flush pipeline.receiver.tcg)
    (queued : next.queued ⊆ pipeline.queued)
    (blocked : ∀ env, next.blocked = some ⟨some env⟩ → pipeline.blocked = some ⟨some env⟩)
    (leaving : ∀ env ∈ next.leaving, env ∈ pipeline.leaving ∨ env ∈ pipeline.receiver.tcg.readyBatch) :
    next.Carries property where
  queued env member := carries.queued env (queued member)
  blocked env sending := carries.blocked env (blocked env sending)
  arrived := by
    rw [graph]
    exact carries.arrived
  leaving env member := (leaving env member).elim (carries.leaving env) (carries.ready env)
  bounded := by
    rw [graph]
    exact bounded_flush carries.bounded
  recorded := by
    obtain ⟨cut, recorded⟩ := carries.recorded
    rw [graph]
    exact ⟨_, recorded_flush recorded⟩

end Pipeline.Carries

namespace Chain

/-- The blocks that `propose` creates hold its batches. -/
theorem propose_created (opts : Options) (batches : List (List Envelope)) (c : Chain) :
    ∀ record ∈ (c.propose opts batches).created, record ∈ c.created ∨ record.block.data ∈ batches := by
  refine propose_rule opts (fun d => ∀ record ∈ d.created, record ∈ c.created ∨ record.block.data ∈ batches) batches c
    (fun _ => .inl) ?_
  intro d batch listed known record member
  rcases proposeBatch_created opts d batch with same | ⟨number, grown⟩
  · rw [same] at member
    exact known record member
  · rw [grown] at member
    rcases mem_append.mp member with old | new
    · exact known record old
    · rw [mem_singleton.mp new]
      exact .inr listed

variable {property : Envelope → Prop} {opts : Options} {c next : Chain} {event : Event}

theorem Carries.mono {other : Envelope → Prop} (carries : c.Carries property)
    (implies : ∀ env, property env → other env) : c.Carries other where
  pipeline := carries.pipeline.mono implies
  created record listed env member normal := implies env (carries.created record listed env member normal)

/-- The transaction that `ProcessEnvMsg` processes has the property. -/
theorem Carries.arrival {order : RangeOrder RangeSite} {choosed : GVNode} (carries : c.Carries property)
    (received : event.arrival c = some (order, choosed)) : property choosed.txResult := by
  cases event with
  | processEnvMsg given batchSize =>
    obtain ⟨gnode, found, same⟩ := Option.map_eq_some_iff.mp received
    obtain ⟨env, message, decoded⟩ := Option.bind_eq_some_iff.mp found
    obtain ⟨msg, taken, sent⟩ := Option.bind_eq_some_iff.mp message
    cases same
    rw [(processEnvForBC_origin decoded).1]
    apply carries.pipeline.queued env
    rw [show (⟨some env⟩ : EnvMsg) = msg by rw [← sent], queued_processing taken]
    exact mem_cons_self
  | _ => cases received

theorem Carries.step (carries : c.Carries property)
    (accepted : ∀ msg support env, event = .submitC (some msg) support →
      isCandidate c.soft.raftState = false → c.soft.lead = opts.raftID →
      ordered support c.sequence msg = .normal env → property env)
    (stepped : c.step opts event = some next) : next.Carries property := by
  obtain ⟨pipeline, created⟩ := carries
  cases step_cases stepped with
  | commits raftbatches rest serving queued =>
    have delivered : ∀ env ∈ raftbatches.flatten ++ rest.flatten.flatten, property env := by
      intro env listed
      apply pipeline.leaving env
      rw [leaving, queued, flatten_cons, flatten_append]
      exact mem_append_left _ listed
    refine ⟨?_, ?_⟩
    · rw [propose_toPipeline]
      refine { pipeline with leaving := ?_ }
      intro env listed
      apply pipeline.leaving env
      rw [leaving, queued, flatten_cons, flatten_append, append_assoc]
      exact mem_append_right _ listed
    · intro record listed env member normal
      rcases propose_created opts raftbatches _ record listed with old | new
      · exact created record old env member normal
      · exact delivered env (mem_append_left _ (mem_flatten.mpr ⟨_, new, member⟩))
  | configures msg support payload serving isOpen leads config =>
    refine ⟨?_, ?_⟩
    · rw [pause_toPipeline, propose_toPipeline]
      exact pipeline.flush rfl (List.Subset.refl _) (fun _ => id) (fun _ => .inl)
    · intro record listed env member normal
      have proposed : record ∈ (Chain.propose opts (c.configBatches payload)
          { c with receiver := (cut c.receiver).2 }.stopTimer).created := by
        rcases pause_cases opts (Chain.propose opts (c.configBatches payload) _) with same | same <;>
          rw [same] at listed <;> exact listed
      obtain ⟨first, batches, ready⟩ := c.configBatches_eq payload
      rcases propose_created opts (c.configBatches payload) _ record proposed with old | new
      · exact created record old env member normal
      · rw [batches] at new
        rcases mem_append.mp new with cut | last
        · apply pipeline.ready env
          rw [← ready]
          exact mem_flatten.mpr ⟨_, cut, member⟩
        · rw [mem_singleton.mp last, mem_singleton] at member
          rw [member] at normal
          exact absurd (ordered_config config).2 normal
  | accepts msg support env serving isOpen leads normal decided =>
    refine ⟨{ pipeline with blocked := ?_ }, created⟩
    intro other sending
    cases sending
    exact accepted msg support env rfl decided leads normal
  | applies app changed serving handled soft =>
    refine ⟨?_, ?_⟩
    · rw [acceptRequests_toPipeline, apply_toPipeline]
      rcases soft.pipeline with same | ⟨_, same⟩ <;> rw [same]
      · exact pipeline
      · exact pipeline.flush rfl (List.Subset.refl _) (fun _ => id) (fun _ => .inl)
    · rw [acceptRequests_created, apply_toProposals, soft.kept.2.2]
      exact created
  | expires serving =>
    exact ⟨{ pipeline with blocked := fun _ sending => (by cases sending) }, created⟩
  | catchesUp index pulled =>
    obtain ⟨same, _, proposals, _⟩ := onSnapC_frame index pulled c
    refine ⟨?_, ?_⟩
    · rw [same]
      exact pipeline
    · rw [proposals]
      exact created
  | sends msg running blocked room =>
    obtain ⟨same, records⟩ := onSent_frame opts msg c
    have longer := onSent_queued opts msg c
    refine ⟨?_, ?_⟩
    · rw [same] at longer ⊢
      refine { pipeline with queued := ?_, blocked := fun _ sending => (by cases sending) }
      intro env listed
      rw [longer] at listed
      rcases mem_append.mp listed with old | new
      · exact pipeline.queued env old
      · rw [← mem_singleton.mp new] at blocked
        exact pipeline.blocked env blocked
    · rw [records]
      exact created
  | takes msg rest running idle free first =>
    refine ⟨{ pipeline with queued := fun env listed => ?_ }, created⟩
    exact pipeline.queued env (queued_received free first ▸ listed)
  | receives order batchSize env choosed final receiver batches running idle taken decoded processed result =>
    obtain ⟨cut, recorded⟩ := pipeline.recorded
    obtain ⟨bounded, after, _⟩ := processTX_recorded pipeline.bounded processed recorded
    have first : property choosed.txResult := by
      rw [(processEnvForBC_origin decoded).1]
      apply pipeline.queued env
      rw [queued_processing taken]
      exact mem_cons_self
    have whole : ({ c.toPipeline with
        processing := none, receiver := { c.receiver with tcg := final } } : Pipeline).Carries property := by
      refine ⟨?_, pipeline.blocked, ?_, pipeline.leaving, bounded, cut, after⟩
      · intro other listed
        apply pipeline.queued other
        rw [queued_processing taken]
        exact mem_cons_of_mem _ listed
      · rw [processTX_arrivals pipeline.bounded processed]
        exact forall_mem_append.mpr ⟨pipeline.arrived, forall_mem_singleton.mpr first⟩
    refine ⟨?_, created⟩
    rcases result with ⟨none, graph⟩ | ⟨one, graph⟩
    · refine ⟨whole.queued, whole.blocked, ?_, ?_, ?_, cut, ?_⟩
      · rw [graph]
        exact whole.arrived
      · rw [none, ← idle]
        exact pipeline.leaving
      · rw [graph]
        exact bounded
      · rw [graph]
        exact after
    · refine whole.flush graph (List.Subset.refl _) (fun _ => id) fun other listed => ?_
      rcases mem_append.mp listed with old | new
      · exact .inl (mem_append_left _ old)
      · rw [one, Option.getD_some, flatten_singleton] at new
        exact .inr new
  | crashes order batchSize env running taken =>
    refine ⟨{ pipeline with queued := fun other listed => ?_ }, created⟩
    apply pipeline.queued other
    rw [queued_processing taken]
    exact mem_cons_of_mem _ listed
  | cuts order batchSize batches running idle taken result =>
    refine ⟨pipeline.flush rfl ?_ (fun _ => id) ?_, created⟩
    · rw [queued_processing taken]
      exact subset_cons_self _ _
    · intro env listed
      rcases mem_append.mp listed with old | new
      · exact .inl (mem_append_left _ old)
      · rcases result with ⟨none, _⟩ | ⟨one, _⟩
        · rw [none] at new
          cases new
        · rw [one, Option.getD_some, flatten_singleton] at new
          exact .inr new
  | forwards batches running sending =>
    refine ⟨{ pipeline with leaving := ?_ }, created⟩
    intro env listed
    apply pipeline.leaving env
    rw [leaving, Option.getD_none, flatten_nil, append_nil, flatten_append,
      flatten_append, flatten_singleton] at listed
    rw [leaving, sending, Option.getD_some]
    exact listed
  | skips | rejects | proposes | fails => exact ⟨pipeline, created⟩
  | restarts appliedIndex => exact ⟨.initial property c.ledger appliedIndex c.sequence, created⟩

end Chain

end Pobl.Etcdraft
