import Pobl.Proof.Chain.Steps
import Pobl.Proof.Graph.Termination

namespace Pobl.Etcdraft

open Library Protos Partialorder BlockCutter Chain List Option

/-- Both channels are full. -/
def Pipeline.Full (pipeline : Pipeline) : Prop :=
  pipeline.raftEnvMsgC.length = raftEnvMsgCapacity ∧ pipeline.commitC.length = commitCapacity

instance (pipeline : Pipeline) : Decidable pipeline.Full := inferInstanceAs (Decidable (_ ∧ _))

/-- Both channels are full, and `ProcessEnvMsg` has batches to send or a message in work that can make some. -/
def Pipeline.Clogged (pipeline : Pipeline) : Prop :=
  pipeline.Full ∧ (pipeline.sending.isSome ∨ pipeline.processing.isSome)

instance (pipeline : Pipeline) : Decidable pipeline.Clogged := inferInstanceAs (Decidable (_ ∧ (_ ∨ _)))

/-- The loop `serveRequest` and the goroutine `ProcessEnvMsg` both wait for a full channel. -/
def Chain.Deadlocked (c : Chain) : Prop := c.Running ∧ c.blocked.isSome ∧ c.sending.isSome ∧ c.Full

instance (c : Chain) : Decidable c.Deadlocked := inferInstanceAs (Decidable (_ ∧ _ ∧ _ ∧ _))

/-- The event makes the loop send to the block cutter. -/
def Event.Sends (opts : Options) (c : Chain) : Event → Prop
  | .timer => True
  | event => event.Submits opts c

instance (opts : Options) (c : Chain) (event : Event) : Decidable (event.Sends opts c) := by
  unfold Event.Sends
  split <;> infer_instance

/-- The loop does not send while the pipeline is clogged. -/
def Chain.Unclogged (opts : Options) (c : Chain) (event : Event) : Prop :=
  c.Clogged → ¬ event.Sends opts c

instance (opts : Options) (c : Chain) (event : Event) : Decidable (c.Unclogged opts event) :=
  inferInstanceAs (Decidable (_ → _))

/-- What a run keeps while the loop sends only to an unclogged pipeline. -/
structure Pipeline.Flowing (pipeline : Pipeline) : Prop where
  bounded : pipeline.raftEnvMsgC.length ≤ raftEnvMsgCapacity
  single : pipeline.sending.isSome → pipeline.processing = none
  moves : pipeline.blocked.isSome → ¬ pipeline.Clogged

theorem Pipeline.Flowing.idle {pipeline next : Pipeline} (flowing : pipeline.Flowing) (free : next.blocked = none)
    (same : next.raftEnvMsgC = pipeline.raftEnvMsgC) (sending : next.sending = pipeline.sending)
    (processing : next.processing = pipeline.processing) : next.Flowing := by
  refine ⟨same ▸ flowing.bounded, ?_, fun blocked => by simp [free] at blocked⟩
  rw [sending, processing]
  exact flowing.single

/-- The message in work leaves at most batches to send. -/
theorem Pipeline.Flowing.works {pipeline next : Pipeline} {msg : EnvMsg} (flowing : pipeline.Flowing)
    (taken : pipeline.processing = some msg) (done : next.processing = none)
    (same : next.raftEnvMsgC = pipeline.raftEnvMsgC) (commits : next.commitC = pipeline.commitC)
    (blocked : next.blocked = pipeline.blocked) : next.Flowing := by
  refine ⟨same ▸ flowing.bounded, fun _ => done, fun waits clogged => ?_⟩
  have full : pipeline.Full := by
    rw [Full, ← same, ← commits]
    exact clogged.1
  exact flowing.moves (blocked ▸ waits) ⟨full, .inr (by rw [taken]; rfl)⟩

theorem Chain.step_flowing {opts : Options} {c next : Chain} {event : Event} (unclogged : c.Unclogged opts event)
    (flowing : c.Flowing) (stepped : c.step opts event = some next) : next.Flowing := by
  cases step_cases stepped with
  | commits raftbatches rest serving queued =>
    rw [propose_toPipeline]
    exact flowing.idle serving.2 rfl rfl rfl
  | skips => exact flowing
  | rejects => exact flowing
  | configures msg support payload serving =>
    rw [pause_toPipeline, propose_toPipeline]
    exact flowing.idle serving.2 rfl rfl rfl
  | accepts msg support env serving isOpen leads normal =>
    refine ⟨flowing.bounded, flowing.single, fun _ clogged => ?_⟩
    exact unclogged clogged ⟨leads, (ordered_normal normal).2⟩
  | applies app changed serving handled soft =>
    rw [acceptRequests_toPipeline, apply_toPipeline]
    rcases soft.pipeline with same | ⟨_, same⟩
    · rw [same]
      exact flowing
    · rw [same]
      exact flowing.idle serving.2 rfl rfl rfl
  | expires => exact ⟨flowing.bounded, flowing.single, fun _ clogged => unclogged clogged trivial⟩
  | catchesUp index pulled =>
    rw [(onSnapC_frame index pulled c).1]
    exact flowing
  | sends msg running blocked room =>
    rw [(onSent_frame opts msg c).1]
    refine ⟨?_, flowing.single, fun blocked => by cases blocked⟩
    rw [length_append]
    exact room
  | takes msg rest running idle free first =>
    have bounded := flowing.bounded
    rw [first, length_cons] at bounded
    refine ⟨Nat.le_of_succ_le bounded, fun sends => ?_, fun _ clogged => ?_⟩
    · rw [idle] at sends
      cases sends
    · have full : rest.length = raftEnvMsgCapacity := clogged.1.1
      omega
  | receives order batchSize env choosed final receiver batches running idle taken =>
    exact flowing.works taken rfl rfl rfl rfl
  | crashes order batchSize env running taken => exact flowing.works taken rfl rfl rfl rfl
  | cuts order batchSize batches running idle taken => exact flowing.works taken rfl rfl rfl rfl
  | forwards batches running sending =>
    have free := flowing.single (by rw [sending]; rfl)
    refine ⟨flowing.bounded, fun _ => free, fun _ clogged => ?_⟩
    rcases clogged.2 with sends | works
    · cases sends
    · rw [free] at works
      cases works
  | proposes => exact flowing
  | fails => exact flowing
  | restarts => exact ⟨Nat.zero_le _, fun _ => rfl, fun blocked => by cases blocked⟩

/-- The goroutines never block each other when the loop does not send to a clogged pipeline. -/
theorem pipeline_never_deadlocks (opts : Options) (ledger : Ledger) (appliedIndex sequence : Nat)
    (events : List Event) (final : Chain)
    (unclogged : Guarded (step opts) (Chain.Unclogged opts) (newChain ledger appliedIndex sequence) events)
    (reached : run (step opts) (newChain ledger appliedIndex sequence) events = some final) :
    ¬ final.Deadlocked := by
  have flowing := run_invariant (step opts) (Chain.Unclogged opts) (fun c => c.Flowing)
    (fun _ _ _ => step_flowing) events (newChain ledger appliedIndex sequence) final
    ⟨Nat.zero_le _, fun _ => rfl, fun blocked => by cases blocked⟩ unclogged reached
  exact fun deadlocked => flowing.moves deadlocked.2.1 ⟨deadlocked.2.2.2, .inl deadlocked.2.2.1⟩

/-- A transaction without reads and writes. -/
def plainTx : Envelope := sampleTx "m" [] []

/-- The loop waits to send while the block cutter waits to send too, and both channels have room. -/
theorem pipeline_never_deadlocks_busy : ∃ final, run (step sampleOptions) sampleChain
      [elects, submits plainTx, .sent, .received, processes 1, submits plainTx] = some final ∧
    final.blocked.isSome ∧ final.sending.isSome ∧ ¬ final.Deadlocked := by
  refine exists_evaluated (by decide) fun final reached _ => ⟨of_evaluated reached (by decide), ?_⟩
  exact pipeline_never_deadlocks sampleOptions (Ledger.genesis []) 0 0 _ final (by decide) reached

/-- The leader accepts requests while `select` never takes the `CommitC` case. -/
structure Chain.Loading (c : Chain) (queued committed : Nat) (batches : Option (List (List Envelope))) : Prop where
  running : c.Running
  isOpen : c.submitC = true
  leads : c.soft = ⟨1, .leader⟩
  serves : c.blocked = none
  room : c.blockInflight = 0
  settled : c.configInflight = false
  current : c.sequence = 0
  queue : c.raftEnvMsgC = replicate queued ⟨some plainTx⟩
  sent : c.commitC.length = committed
  sending : c.sending = batches
  free : c.processing = none
  empty : c.receiver.tcg.readyBatch = []
  unawaited : c.receiver.tcg.waitUnChoosedTxCNs = ∅

theorem loading_elected : ∃ c, run (step sampleOptions) sampleChain [elects] = some c ∧ c.Loading 0 0 none :=
  ⟨_, rfl, rfl, rfl, rfl, rfl, rfl, rfl, rfl, rfl, rfl, rfl, rfl, rfl, rfl⟩

theorem Chain.step_sent (opts : Options) {c : Chain} {msg : EnvMsg} (running : c.Running)
    (blocked : c.blocked = some msg) (room : c.raftEnvMsgC.length < raftEnvMsgCapacity) :
    c.step opts .sent = some (c.onSent opts msg) := by
  simp only [step, blocked, running, room, and_self, if_true]

section Loading

variable {c : Chain} {queued committed : Nat} {batches : Option (List (List Envelope))}

theorem Chain.Loading.submits (loading : c.Loading queued committed batches) :
    c.step sampleOptions (submits plainTx) =
      some { c with blocked := some ⟨some plainTx⟩ } := by
  have serving : c.Serving := ⟨loading.running, loading.serves⟩
  have verdict : ordered permissive c.sequence ⟨plainTx, 0⟩ = .normal plainTx := by
    rw [loading.current]
    rfl
  simp only [step, Etcdraft.submits, serving, loading.isOpen, true_and, if_true, onSubmitC, loading.leads, verdict]
  rfl

/-- A request that is accepted waits in the channel of the block cutter. -/
theorem Chain.Loading.enqueues (loading : c.Loading queued committed batches) (below : queued < raftEnvMsgCapacity) :
    ∃ next, run (step sampleOptions) c [Etcdraft.submits plainTx, .sent] = some next ∧
      next.Loading (queued + 1) committed batches := by
  rw [run_cons, loading.submits, bind_some, run_cons]
  have short : c.raftEnvMsgC.length < raftEnvMsgCapacity := by
    rw [loading.queue, length_replicate]
    exact below
  have sent := step_sent sampleOptions
    (c := { c with blocked := some ⟨some plainTx⟩ })
    loading.running rfl short
  rw [sent, bind_some, run_nil]
  refine ⟨_, rfl, ?_⟩
  rw [onSent, if_pos isSome_some, pause, if_neg, if_neg]
  · refine { loading with serves := rfl, queue := ?_ }
    rw [replicate_succ', ← loading.queue]
    rfl
  · show ¬c.blockInflight ≥ 5
    rw [loading.room]
    decide
  · exact Bool.eq_false_iff.mp loading.settled

/-- The transaction is received, commits and fills a batch of one message. -/
theorem Chain.Loading.fills (loading : c.Loading (queued + 1) committed none) :
    ∃ next, run (step sampleOptions) c [.received, processes 1] = some next ∧
      next.Loading queued committed (some [[plainTx]]) := by
  obtain ⟨choosed, decoded, unread, unordered, decided, result⟩ : ∃ choosed,
      processEnvForBC plainTx = some choosed ∧ choosed.pTx = ∅ ∧ choosed.unPTx = ∅ ∧
        choosed.consensusState = 0 ∧ choosed.txResult = plainTx := ⟨_, rfl, rfl, rfl, rfl, rfl⟩
  have unawaited : c.receiver.tcg.waitUnChoosedTxCNs.lookup choosed.txId = none := by
    rw [loading.unawaited]
    rfl
  obtain ⟨final, processed, ready, waits⟩ := processTX_plain (RangeOrder.stored RangeSite) unread unordered
    decided unawaited
  rw [loading.empty, result, nil_append] at ready
  have returned : orderedRaftForBC (RangeOrder.stored RangeSite) ⟨1, 100⟩ plainTx c.receiver =
      some ([[plainTx]], false, (cut { c.receiver with tcg := final }).2) := by
    simp [orderedRaftForBC, decoded, processNode, processed, cutFullBatch, ready, cut, cutTx]
  have queue : c.raftEnvMsgC = ⟨some plainTx⟩ :: replicate queued ⟨some plainTx⟩ := loading.queue
  refine ⟨{ c with
      raftEnvMsgC := replicate queued ⟨some plainTx⟩
      receiver := (cut { c.receiver with tcg := final }).2
      processing := none
      sending := some [[plainTx]] }, ?_, ?_⟩
  · rw [run_cons, show c.step sampleOptions .received = some { c with
        processing := some ⟨some plainTx⟩
        raftEnvMsgC := replicate queued ⟨some plainTx⟩ } by
      simp only [step, queue, loading.running, loading.sending, loading.free, and_self, if_true],
      bind_some, run_cons]
    have running : c.panicked = none := loading.running
    simp only [step, processes, Running, running, loading.sending, true_and]
    simp only [onProcessEnvMsg, returned]
    rfl
  · exact { loading with queue := rfl, sending := rfl, free := rfl, empty := rfl, unawaited := waits.trans loading.unawaited }

theorem Chain.Loading.forwards {sent : List (List Envelope)} (loading : c.Loading queued committed (some sent))
    (below : committed < commitCapacity) :
    ∃ next, c.step sampleOptions .forwarded = some next ∧ next.Loading queued (committed + 1) none := by
  have short : c.commitC.length < commitCapacity := by
    rw [loading.sent]
    exact below
  refine ⟨{ c with commitC := c.commitC ++ [sent], sending := none }, ?_, ?_⟩
  · simp only [step, loading.sending, loading.running, short, and_self, if_true]
  · refine { loading with sent := ?_, sending := rfl }
    rw [length_append, loading.sent]
    rfl

/-- One round takes a request through the block cutter into `CommitC`. -/
theorem Chain.Loading.round (loading : c.Loading 0 committed none) (below : committed < commitCapacity) :
    ∃ next, run (step sampleOptions) c
        [Etcdraft.submits plainTx, .sent, .received, processes 1, .forwarded] = some next ∧
      next.Loading 0 (committed + 1) none := by
  obtain ⟨first, submitted, loading⟩ := loading.enqueues (by decide)
  obtain ⟨second, processed, loading⟩ := loading.fills
  obtain ⟨third, forwarded, loading⟩ := loading.forwards below
  refine ⟨third, ?_, loading⟩
  rw [show [Etcdraft.submits plainTx, .sent, .received, processes 1, .forwarded] =
    [Etcdraft.submits plainTx, .sent] ++ ([.received, processes 1] ++ [.forwarded]) from rfl, run_append, submitted,
    bind_some, run_append, processed, bind_some, run_cons, forwarded]
  rfl

end Loading

/-- The requests of the run: they fill `CommitC`, then `RaftEnvMsgC`, and one more is accepted. -/
def cloggingEvents : List Event :=
  [elects] ++ (replicate commitCapacity [submits plainTx, .sent, .received, processes 1, .forwarded]).flatten ++
    [submits plainTx, .sent, .received, processes 1] ++
    (replicate raftEnvMsgCapacity [submits plainTx, .sent]).flatten ++ [submits plainTx]

/-- The loop and the block cutter wait for each other. -/
theorem clogged_pipeline_deadlocks : ∃ final,
    run (step sampleOptions) sampleChain cloggingEvents = some final ∧ final.Deadlocked := by
  obtain ⟨c, elected, loading⟩ := loading_elected
  obtain ⟨full, filled, loading⟩ := run_repeats (step sampleOptions)
    (fun committed c => c.Loading 0 committed none) [submits plainTx, .sent, .received, processes 1, .forwarded]
    commitCapacity (fun _ below _ loading => loading.round below) c loading
  obtain ⟨first, submitted, loading⟩ := loading.enqueues (by decide)
  obtain ⟨second, processed, loading⟩ := loading.fills
  obtain ⟨clogged, stuffed, loading⟩ := run_repeats (step sampleOptions)
    (fun queued c => c.Loading queued commitCapacity (some [[plainTx]])) [submits plainTx, .sent]
    raftEnvMsgCapacity (fun _ below _ loading => loading.enqueues below) second loading
  refine ⟨{ clogged with blocked := some ⟨some plainTx⟩ },
    ?_, loading.running, rfl, ?_, ?_, loading.sent⟩
  · rw [cloggingEvents, run_append, run_append, run_append, run_append, elected, bind_some, filled,
      bind_some, show [submits plainTx, .sent, .received, processes 1] =
        [submits plainTx, .sent] ++ [.received, processes 1] from rfl, run_append, submitted, bind_some, processed,
      bind_some, stuffed, bind_some, run_cons, loading.submits]
    rfl
  · rw [loading.sending]
    rfl
  · rw [loading.queue, length_replicate]

end Pobl.Etcdraft
