import Pobl.Proof.Chain.Steps

namespace Pobl.Etcdraft

open Library Protos Partialorder BlockCutter Chain

/-- Both channels are empty, no message is in work, and neither goroutine is sending. -/
def Pipeline.Quiet (pipeline : Pipeline) : Prop :=
  pipeline.queued = [] ∧ pipeline.commitC = [] ∧ pipeline.blocked = none ∧ pipeline.sending = none

instance (pipeline : Pipeline) : Decidable pipeline.Quiet := inferInstanceAs (Decidable (_ ∧ _ ∧ _ ∧ _))

/-- No envelope follows the last cut that waits for the block cutter or is in work. -/
def Pipeline.EndsWithCut (pipeline : Pipeline) : Prop :=
  pipeline.queued.getLast?.bind EnvMsg.env = none

instance (pipeline : Pipeline) : Decidable pipeline.EndsWithCut := inferInstanceAs (Decidable (_ = _))

/-- The messages that are not processed yet leave nothing ready behind them. -/
def Pipeline.Draining (pipeline : Pipeline) : Prop :=
  pipeline.EndsWithCut ∧ (pipeline.queued = [] → pipeline.receiver.tcg.readyBatch = [])

instance (pipeline : Pipeline) : Decidable pipeline.Draining := inferInstanceAs (Decidable (_ ∧ (_ → _)))

/-- The timer is stopped only when the messages before the block cutter leave nothing ready. A config message and
the loss of the leadership cut the ready batch themselves. -/
def Chain.StopsDrained (opts : Options) (c : Chain) (event : Event) : Prop :=
  (event.Delivers → c.Draining) ∧ (event.Configures opts c ∨ event.Deposes opts c → c.EndsWithCut)

instance (opts : Options) (c : Chain) (event : Event) : Decidable (c.StopsDrained opts event) :=
  inferInstanceAs (Decidable ((_ → _) ∧ (_ → _)))

/-- The timer runs, a send is under way, or nothing stays ready. -/
def Pipeline.Timed (pipeline : Pipeline) : Prop :=
  pipeline.ticking = true ∨ pipeline.blocked.isSome ∨ pipeline.Draining

theorem Pipeline.EndsWithCut.tail {pipeline next : Pipeline} {msg : EnvMsg} {rest : List EnvMsg}
    (ends : pipeline.EndsWithCut) (first : pipeline.queued = msg :: rest) (shorter : next.queued = rest) :
    next.EndsWithCut := by
  unfold EndsWithCut at *
  rw [shorter]
  cases rest with
  | nil => rfl
  | cons second rest => rwa [first, List.getLast?_cons_cons] at ends

/-- The goroutine processes one message. Only a cut can be the last one of a draining channel. -/
theorem Pipeline.Timed.drains {pipeline next : Pipeline} {msg : EnvMsg} {rest : List EnvMsg} (timed : pipeline.Timed)
    (first : pipeline.queued = msg :: rest) (shorter : next.queued = rest)
    (ticking : next.ticking = pipeline.ticking) (blocked : next.blocked = pipeline.blocked)
    (cuts : msg.env = none → next.receiver.tcg.readyBatch = []) : next.Timed := by
  unfold Timed at *
  rw [ticking, blocked]
  rcases timed with ticks | sends | ⟨ends, _⟩
  · exact .inl ticks
  · exact .inr (.inl sends)
  · refine .inr (.inr ⟨ends.tail first shorter, fun empty => cuts ?_⟩)
    rw [← shorter, empty] at first
    rwa [EndsWithCut, first] at ends

theorem Chain.step_timed {opts : Options} {c next : Chain} {event : Event} (drained : c.StopsDrained opts event)
    (timed : c.Timed) (stepped : c.step opts event = some next) : next.Timed := by
  cases step_cases stepped with
  | commits raftbatches rest serving queued =>
    rw [propose_toPipeline]
    exact .inr (.inr (drained.1 trivial))
  | skips => exact timed
  | rejects => exact timed
  | configures msg support payload serving isOpen leads config =>
    rw [pause_toPipeline, propose_toPipeline]
    exact .inr (.inr ⟨drained.2 (.inl ⟨leads, (ordered_config config).1⟩), fun _ => rfl⟩)
  | accepts => exact .inr (.inl rfl)
  | applies app changed serving handled soft =>
    rw [acceptRequests_toPipeline, apply_toPipeline]
    rcases soft.pipeline with same | ⟨deposes, same⟩
    · rw [same]
      exact timed
    · rw [same]
      exact .inr (.inr ⟨drained.2 (.inr deposes), fun _ => rfl⟩)
  | expires => exact .inr (.inl rfl)
  | catchesUp index pulled =>
    rw [(onSnapC_frame index pulled c).1]
    exact timed
  | sends msg running blocked room =>
    cases content : msg.env with
    | some env =>
      refine .inl ?_
      rw [(onSent_frame opts msg c).1, content]
      rfl
    | none =>
      refine .inr (.inr ⟨?_, fun empty => ?_⟩)
      · rw [Pipeline.EndsWithCut, onSent_queued, List.getLast?_concat]
        exact content
      · rw [onSent_queued] at empty
        cases List.concat_ne_nil _ _ empty
  | takes msg rest running idle free first =>
    unfold Pipeline.Timed Pipeline.Draining Pipeline.EndsWithCut
    rw [Pipeline.queued_received free first]
    exact timed
  | receives order batchSize env choosed final receiver batches running idle taken =>
    exact timed.drains (Pipeline.queued_processing taken) rfl rfl rfl nofun
  | crashes order batchSize env running taken =>
    exact timed.drains (Pipeline.queued_processing taken) rfl rfl rfl nofun
  | cuts order batchSize batches running idle taken =>
    exact timed.drains (Pipeline.queued_processing taken) rfl rfl rfl fun _ => rfl
  | forwards => exact timed
  | proposes => exact timed
  | fails => exact timed
  | restarts => exact .inr (.inr ⟨rfl, fun _ => rfl⟩)

/-- Nothing is ready in a quiet pipeline unless the timer runs. -/
theorem ready_batch_timed (opts : Options) (ledger : Ledger) (appliedIndex sequence : Nat) (events : List Event)
    (final : Chain)
    (drained : Guarded (step opts) (Chain.StopsDrained opts) (newChain ledger appliedIndex sequence) events)
    (reached : run (step opts) (newChain ledger appliedIndex sequence) events = some final)
    (quiet : final.Quiet) (ready : final.receiver.tcg.readyBatch ≠ []) : final.ticking = true := by
  have timed := run_invariant (step opts) (Chain.StopsDrained opts) (fun c => c.Timed)
    (fun _ _ _ => step_timed) events (newChain ledger appliedIndex sequence) final
    (.inr (.inr ⟨rfl, fun _ => rfl⟩)) drained reached
  obtain ⟨empty, _, free, _⟩ := quiet
  rcases timed with ticks | sends | ⟨_, nothing⟩
  · exact ticks
  · rw [free] at sends
    cases sends
  · exact absurd (nothing empty) ready

/-- The first batch is delivered while nothing else is under way, and a transaction arrives after it. -/
def drainedEvents : List Event :=
  [elects, submits (sampleTx "a" [] []), .sent, .received, processes 1, .forwarded, .commitC,
    submits (sampleTx "b" [] []), .sent, .received, processes 2]

theorem ready_batch_timed_next : ∃ final, run (step sampleOptions) sampleChain drainedEvents = some final ∧
    final.receiver.tcg.readyBatch = [sampleTx "b" [] []] ∧ final.ticking = true := by
  refine exists_evaluated (by decide) fun final reached known => ?_
  exact ready_batch_timed sampleOptions (Ledger.genesis []) 0 0 drainedEvents final (by decide) reached
    (of_evaluated reached (by decide)) (by rw [known]; nofun)

/-- The third transaction is ready before the batch of the first two is delivered. -/
def strandingEvents : List Event :=
  [elects, submits (sampleTx "a" [] []), .sent, submits (sampleTx "b" [] []), .sent,
    submits (sampleTx "c" [] []), .sent, .received, processes 2, .received, processes 2, .forwarded, .received,
    processes 2, .commitC]

/-- The delivery of the first batch stops the timer that the third transaction needs. -/
theorem ready_transaction_stranded : ∃ final,
    run (step sampleOptions) sampleChain strandingEvents = some final ∧
    final.soft.lead = sampleOptions.raftID ∧ final.Running ∧ final.Quiet ∧
    final.receiver.tcg.readyBatch = [sampleTx "c" [] []] ∧ final.ticking = false := by
  exact exists_evaluated (by decide) fun final reached _ => of_evaluated reached (by decide)

end Pobl.Etcdraft
