/-
This file says what each step of the chain can do and which parts of the state it leaves alone.
-/

import Pobl.Construction.Chain
import Pobl.Proof.Receiver.Session

namespace Pobl.Etcdraft

open Library Protos Partialorder BlockCutter Chain Option

section Queued

variable {pipeline : Pipeline} {msg : EnvMsg} {rest : List EnvMsg}

/-- The messages that the block cutter has not processed: the one in work and those in the channel. -/
def Pipeline.queued (pipeline : Pipeline) : List EnvMsg := pipeline.processing.toList ++ pipeline.raftEnvMsgC

/-- A message that is received goes from the channel into work. -/
theorem Pipeline.queued_received (free : pipeline.processing = none) (first : pipeline.raftEnvMsgC = msg :: rest) :
    ({ pipeline with processing := some msg, raftEnvMsgC := rest } : Pipeline).queued = pipeline.queued := by
  rw [queued, queued, free, first]
  rfl

theorem Pipeline.queued_processing (taken : pipeline.processing = some msg) :
    pipeline.queued = msg :: pipeline.raftEnvMsgC := by
  rw [queued, taken]
  rfl

/-- Nothing is on its way from the submit case to the `CommitC` case. -/
def Pipeline.Empty (pipeline : Pipeline) : Prop :=
  pipeline.queued = [] ∧ pipeline.sending = none ∧ pipeline.commitC = []

instance (pipeline : Pipeline) : Decidable pipeline.Empty := inferInstanceAs (Decidable (_ ∧ _ ∧ _))

end Queued

namespace Chain

section Propose

variable (opts : Options)

theorem proposeBatch_frame (c : Chain) (batch : List Envelope) :
    (proposeBatch opts c batch).toPipeline = c.toPipeline ∧ (proposeBatch opts c batch).toRole = c.toRole ∧
      (proposeBatch opts c batch).toApplied = c.toApplied := by
  unfold proposeBatch
  split
  · exact ⟨rfl, rfl, rfl⟩
  · split
    · exact ⟨rfl, rfl, rfl⟩
    · dsimp only
      split
      · exact ⟨rfl, rfl, rfl⟩
      · split <;> exact ⟨rfl, rfl, rfl⟩

/-- At most one block is created for a batch. -/
theorem proposeBatch_created (c : Chain) (batch : List Envelope) :
    (proposeBatch opts c batch).created = c.created ∨ ∃ number, (proposeBatch opts c batch).created =
      c.created ++ [⟨c.blocks, ⟨number, batch⟩⟩] := by
  unfold proposeBatch
  split
  · exact .inl rfl
  · split
    · exact .inl rfl
    · dsimp only
      split
      · exact .inr ⟨_, rfl⟩
      · split <;> exact .inr ⟨_, rfl⟩

variable (batches : List (List Envelope)) (c : Chain)

@[simp] theorem propose_toPipeline : (propose opts batches c).toPipeline = c.toPipeline :=
  foldl_keeps _ toPipeline (fun c batch => (proposeBatch_frame opts c batch).1) batches _

@[simp] theorem propose_toRole : (propose opts batches c).toRole = c.toRole :=
  foldl_keeps _ toRole (fun c batch => (proposeBatch_frame opts c batch).2.1) batches _

@[simp] theorem propose_toApplied : (propose opts batches c).toApplied = c.toApplied :=
  foldl_keeps _ toApplied (fun c batch => (proposeBatch_frame opts c batch).2.2) batches _

end Propose

section Apply

/-- What `writeBlock` can do: it panics, it ignores an old block, or it writes the next block. -/
inductive Writes (c : Chain) (block : Block) : Chain → Prop where
  | unexpected (ahead : c.lastBlock.number + 1 < block.number) :
      Writes c block { c with panicked := some .unexpectedBlock }
  | ignored (behind : block.number < c.lastBlock.number + 1) : Writes c block c
  | written (next : block.number = c.lastBlock.number + 1) (configInflight : Bool) (sequence : Nat)
      (confChangeInProgress : Option ConfChange)
      (normal : isConfigBlock block = false → configInflight = c.configInflight ∧
        sequence = c.sequence ∧ confChangeInProgress = c.confChangeInProgress) :
      Writes c block
        { c with
          blockInflight := c.blockInflight - 1
          ledger := c.ledger.append block.data
          configInflight := configInflight
          sequence := sequence
          confChangeInProgress := confChangeInProgress }

theorem writeBlock_cases (c : Chain) (block : Block) (membership : Option ConfChange) :
    c.Writes block (c.writeBlock block membership) := by
  unfold writeBlock RaftApply.inOrder
  split
  · rename_i ahead
    exact .unexpected ahead
  · split
    · rename_i behind
      exact .ignored behind
    · have next : block.number = c.lastBlock.number + 1 := by omega
      split
      · rename_i config
        have normal : ∀ {goal : Prop}, isConfigBlock block = false → goal := by
          intro goal not
          rw [config] at not
          cases not
        unfold writeConfigBlock
        split
        · split
          · exact .written next false _ _ normal
          · exact .written next true _ _ normal
        · exact .written next false _ _ normal
      · exact .written next _ _ _ fun _ => ⟨rfl, rfl, rfl⟩

theorem writeBlock_frame (block : Block) (membership : Option ConfChange) (c : Chain) :
    (c.writeBlock block membership).toPipeline = c.toPipeline ∧ (c.writeBlock block membership).toRole = c.toRole ∧
      (c.writeBlock block membership).toProposals = c.toProposals := by
  have writes := writeBlock_cases c block membership
  generalize c.writeBlock block membership = next at writes
  cases writes <;> exact ⟨rfl, rfl, rfl⟩

variable (opts : Options)

theorem applyEntry_frame (c : Chain) (entry : Entry) :
    (applyEntry opts c entry).toPipeline = c.toPipeline ∧ (applyEntry opts c entry).toRole = c.toRole ∧
      (applyEntry opts c entry).toProposals = c.toProposals := by
  unfold applyEntry
  split
  · exact ⟨rfl, rfl, rfl⟩
  · split
    · exact ⟨rfl, rfl, rfl⟩
    · split
      · exact ⟨rfl, rfl, rfl⟩
      · exact writeBlock_frame _ _ c
    · dsimp only
      split <;> split <;> exact ⟨rfl, rfl, rfl⟩

theorem apply_keeps {Observed : Type*} (observe : Chain → Observed)
    (keeps : ∀ c entry, observe (applyEntry opts c entry) = observe c)
    (stops : ∀ c panic, observe { c with panicked := panic } = observe c) (ents : List Entry) (c : Chain) :
    observe (c.apply opts ents) = observe c := by
  unfold apply
  split
  · rfl
  · split
    · exact stops c _
    · exact foldl_keeps _ observe keeps _ c

variable (ents : List Entry) (c : Chain)

@[simp] theorem apply_toPipeline : (c.apply opts ents).toPipeline = c.toPipeline :=
  apply_keeps opts toPipeline (fun c entry => (applyEntry_frame opts c entry).1) (fun _ _ => rfl) ents c

@[simp] theorem apply_toRole : (c.apply opts ents).toRole = c.toRole :=
  apply_keeps opts toRole (fun c entry => (applyEntry_frame opts c entry).2.1) (fun _ _ => rfl) ents c

@[simp] theorem apply_toProposals : (c.apply opts ents).toProposals = c.toProposals :=
  apply_keeps opts toProposals (fun c entry => (applyEntry_frame opts c entry).2.2) (fun _ _ => rfl) ents c

end Apply

theorem onSnapC_frame (index : Nat) (pulled : List (List Envelope)) (c : Chain) :
    (c.onSnapC index pulled).toPipeline = c.toPipeline ∧ (c.onSnapC index pulled).toRole = c.toRole ∧
      (c.onSnapC index pulled).toProposals = c.toProposals ∧
      (c.onSnapC index pulled).toCounters = c.toCounters ∧ (c.onSnapC index pulled).raft = c.raft := by
  have keeps := fun start => foldl_keeps catchUpBlock
    (fun c => (c.toPipeline, c.toRole, c.toProposals, c.toCounters, c.raft)) (fun _ _ => rfl) pulled start
  simp only [Prod.mk.injEq] at keeps
  unfold onSnapC
  split
  · exact ⟨rfl, rfl, rfl, rfl, rfl⟩
  · exact keeps _

theorem pause_cases (opts : Options) (c : Chain) : pause opts c = c ∨ pause opts c = { c with submitC := false } := by
  unfold pause
  split
  · exact .inr rfl
  · split
    · exact .inr rfl
    · exact .inl rfl

@[simp] theorem pause_toPipeline (opts : Options) (c : Chain) : (pause opts c).toPipeline = c.toPipeline := by
  rcases pause_cases opts c with same | same <;> rw [same]

@[simp] theorem pause_created (opts : Options) (c : Chain) : (pause opts c).created = c.created := by
  rcases pause_cases opts c with same | same <;> rw [same]

/-- The message that was sent is the last one in the queue. -/
theorem onSent_frame (opts : Options) (msg : EnvMsg) (c : Chain) : (c.onSent opts msg).toPipeline =
        { c.toPipeline with
          raftEnvMsgC := c.raftEnvMsgC ++ [msg]
          blocked := none
          ticking := msg.env.isSome || c.ticking } ∧
      (c.onSent opts msg).created = c.created := by
  unfold onSent
  split
  · rename_i normal
    rw [pause_toPipeline, pause_created, normal]
    exact ⟨rfl, rfl⟩
  · rename_i request
    rw [Bool.eq_false_iff.mpr request]
    exact ⟨rfl, rfl⟩

theorem onSent_queued (opts : Options) (msg : EnvMsg) (c : Chain) :
    (c.onSent opts msg).queued = c.queued ++ [msg] := by
  rw [(onSent_frame opts msg c).1]
  exact (List.append_assoc ..).symm

/-- The end of the apply case leaves the chain as it is, opens or closes the channel, or makes a new
block creator. -/
inductive Accepts (opts : Options) (c : Chain) : Chain → Prop where
  | unchanged : Accepts opts c c
  | starts (elected : c.justElected = true) (settled : c.configInflight = false) : Accepts opts c
      { c with bc := some ⟨c.lastBlock.number⟩, submitC := true, justElected := false }
  | closes (serves : c.justElected = false) : Accepts opts c { c with submitC := false }
  | opens (serves : c.justElected = false) (settled : c.configInflight = false)
      (room : c.blockInflight < opts.maxInflightBlocks) : Accepts opts c { c with submitC := true }

theorem acceptRequests_cases (opts : Options) (lastIndex : Nat) (c : Chain) :
    Accepts opts c (c.acceptRequests opts lastIndex) := by
  unfold acceptRequests
  split
  · exact .unchanged
  · split
    · rename_i elected
      split
      · exact .unchanged
      · split
        · exact .unchanged
        · rename_i settled
          exact .starts elected (Bool.eq_false_iff.mpr settled)
    · rename_i serves
      have serves := Bool.eq_false_iff.mpr serves
      split
      · exact .closes serves
      · rename_i settled
        split
        · rename_i room
          exact .opens serves (Bool.eq_false_iff.mpr settled) room
        · exact .unchanged

@[simp] theorem acceptRequests_toPipeline (opts : Options) (lastIndex : Nat) (c : Chain) :
    (c.acceptRequests opts lastIndex).toPipeline = c.toPipeline := by
  have accepts := acceptRequests_cases opts lastIndex c
  generalize c.acceptRequests opts lastIndex = next at accepts
  cases accepts <;> rfl

@[simp] theorem acceptRequests_created (opts : Options) (lastIndex : Nat) (c : Chain) :
    (c.acceptRequests opts lastIndex).created = c.created := by
  have accepts := acceptRequests_cases opts lastIndex c
  generalize c.acceptRequests opts lastIndex = next at accepts
  cases accepts <;> rfl

/-- What the new soft state changes: nothing but the soft state, or the node gains or loses the
leadership. -/
inductive SoftChange (opts : Options) (c : Chain) (app : Apply) : Chain → Prop where
  | keeps (soft : SoftState) (leader : Nat) (same : soft.lead = opts.raftID ↔ c.soft.lead = opts.raftID) :
      SoftChange opts c app { c with soft := soft, lastKnownLeader := leader }
  | gains (soft : SoftState) (leader : Nat) (was : c.soft.lead ≠ opts.raftID) (leads : soft.lead = opts.raftID) :
      SoftChange opts c app { c.becomeLeader app.unapplied with soft := soft, lastKnownLeader := leader }
  | loses (soft : SoftState) (leader : Nat) (received : app.soft = some soft)
      (was : c.soft.lead = opts.raftID) (follows : soft.lead ≠ opts.raftID) :
      SoftChange opts c app { c.becomeFollower with soft := soft, lastKnownLeader := leader }

theorem applySoft_cases (opts : Options) (c : Chain) (app : Apply) :
    SoftChange opts c app (c.applySoft opts app) := by
  unfold applySoft
  cases received : app.soft with
  | none => exact .keeps c.soft c.lastKnownLeader Iff.rfl
  | some soft =>
    dsimp only
    by_cases moved : soft.lead = c.soft.lead
    · rw [if_neg (not_not_intro moved)]
      split
      · exact .keeps soft 0 (by rw [moved])
      · exact .keeps soft c.lastKnownLeader (by rw [moved])
    · by_cases leads : soft.lead = opts.raftID
      · have was : c.soft.lead ≠ opts.raftID := fun same => moved (leads.trans same.symm)
        split
        · exact .gains soft 0 was leads
        · exact .gains soft soft.lead was leads
      · by_cases was : c.soft.lead = opts.raftID
        · split
          · exact .loses soft 0 received was leads
          · exact .loses soft soft.lead received was leads
        · have same : soft.lead = opts.raftID ↔ c.soft.lead = opts.raftID :=
            ⟨fun now => absurd now leads, fun before => absurd before was⟩
          split
          · exact .keeps soft 0 same
          · exact .keeps soft soft.lead same

/-- The steps of the chain, one constructor for each way an event can end. -/
inductive Steps (opts : Options) (c : Chain) : Event → Chain → Prop where
  | commits (raftbatches : List (List Envelope)) (rest : List (List (List Envelope)))
      (serving : c.Serving) (queued : c.commitC = raftbatches :: rest) :
      Steps opts c .commitC (propose opts raftbatches { c with commitC := rest }.stopTimer)
  | skips (req : Option SubmitRequest) (support : Support) (serving : c.Serving)
      (isOpen : c.submitC = true) : Steps opts c (.submitC req support) c
  | rejects (req : Option SubmitRequest) (support : Support) (serving : c.Serving) (isOpen : c.submitC = true) :
      Steps opts c (.submitC req support) { c with panicked := some .channelHeader }
  | configures (msg : SubmitRequest) (support : Support) (payload : Envelope) (serving : c.Serving)
      (isOpen : c.submitC = true) (leads : c.soft.lead = opts.raftID)
      (config : ordered support c.sequence msg = .config payload) :
      Steps opts c (.submitC (some msg) support) (pause opts (propose opts (c.configBatches payload)
          { c with receiver := (cut c.receiver).2 }.stopTimer))
  | accepts (msg : SubmitRequest) (support : Support) (env : Envelope) (serving : c.Serving)
      (isOpen : c.submitC = true) (leads : c.soft.lead = opts.raftID)
      (normal : ordered support c.sequence msg = .normal env) (decided : isCandidate c.soft.raftState = false) :
      Steps opts c (.submitC (some msg) support)
        { c with blocked := some ⟨some env⟩ }
  | applies (app : Apply) (changed : Chain) (serving : c.Serving) (handled : c.applySoft opts app = changed)
      (soft : SoftChange opts c app changed)
      (increasing : app.entries.Pairwise fun first second => first.index < second.index)
      (own : changed.Accepting opts → freshBlocks app.entries c.appliedIndex <+: changed.raft) :
      Steps opts c (.applyC app) ((changed.apply opts app.entries).acceptRequests opts app.lastIndex)
  | expires (serving : c.Serving) (ticking : c.ticking = true) :
      Steps opts c .timer { c.stopTimer with blocked := some ⟨none⟩ }
  | catchesUp (index : Nat) (pulled : List (List Envelope)) (serving : c.Serving)
      (follows : c.soft.lead ≠ opts.raftID) : Steps opts c (.snapC index pulled) (c.onSnapC index pulled)
  | sends (msg : EnvMsg) (running : c.Running) (blocked : c.blocked = some msg)
      (room : c.raftEnvMsgC.length < raftEnvMsgCapacity) : Steps opts c .sent (c.onSent opts msg)
  | takes (msg : EnvMsg) (rest : List EnvMsg) (running : c.Running) (idle : c.sending = none)
      (free : c.processing = none) (first : c.raftEnvMsgC = msg :: rest) :
      Steps opts c .received { c with processing := some msg, raftEnvMsgC := rest }
  | receives (order : RangeOrder RangeSite) (batchSize : BatchSize) (env : Envelope) (choosed : GVNode)
      (final : TxConsensusGraph) (receiver : Receiver) (batches : Option (List (List Envelope)))
      (running : c.Running) (idle : c.sending = none) (taken : c.processing = some ⟨some env⟩)
      (decoded : processEnvForBC env = some choosed)
      (processed : processTX order c.receiver.tcg.nodes.size (c.receiver.tcg.newNode choosed) = some final)
      (result : batches = none ∧ receiver.tcg = final ∨
        batches = some [final.readyBatch] ∧ receiver.tcg = flush final) :
      Steps opts c (.processEnvMsg order batchSize)
        { c with processing := none, receiver := receiver, sending := batches }
  | crashes (order : RangeOrder RangeSite) (batchSize : BatchSize) (env : Envelope) (running : c.Running)
      (taken : c.processing = some ⟨some env⟩) :
      Steps opts c (.processEnvMsg order batchSize)
        { c with processing := none, panicked := some .nilHeader }
  | cuts (order : RangeOrder RangeSite) (batchSize : BatchSize) (batches : Option (List (List Envelope)))
      (running : c.Running) (idle : c.sending = none) (taken : c.processing = some ⟨none⟩)
      (result : batches = none ∧ c.receiver.tcg.readyBatch = [] ∨
        batches = some [c.receiver.tcg.readyBatch] ∧ c.receiver.tcg.readyBatch ≠ []) :
      Steps opts c (.processEnvMsg order batchSize)
        { c with processing := none, receiver := (cut c.receiver).2, sending := batches }
  | forwards (batches : List (List Envelope)) (running : c.Running) (sending : c.sending = some batches)
      (room : c.commitC.length < commitCapacity) :
      Steps opts c .forwarded { c with commitC := c.commitC ++ [batches], sending := none }
  | proposes (block : Block) (rest : List Block) (running : c.Running) (proposing : c.proposing = true)
      (queued : c.propC = some (block :: rest)) :
      Steps opts c .proposed { c with raft := c.raft ++ [block], propC := some rest }
  | fails (block : Block) (rest : List Block) (running : c.Running) (proposing : c.proposing = true)
      (queued : c.propC = some (block :: rest)) :
      Steps opts c .proposeFails { c with propC := some rest, proposing := false }
  | restarts (appliedIndex : Nat) (earlier : appliedIndex ≤ c.appliedIndex) : Steps opts c (.restart appliedIndex)
        { newChain c.ledger appliedIndex c.sequence with created := c.created, entered := c.entered }

theorem steps_onSubmitC {opts : Options} {c : Chain} (req : Option SubmitRequest) (support : Support)
    (serving : c.Serving) (isOpen : c.submitC = true) :
    Steps opts c (.submitC req support) (c.onSubmitC opts req support) := by
  unfold onSubmitC
  split
  · exact .skips none support serving isOpen
  · rename_i msg
    by_cases candidate : isCandidate c.soft.raftState = true
    · rw [if_pos candidate]
      exact .skips (some msg) support serving isOpen
    · rw [if_neg candidate]
      by_cases leads : c.soft.lead = opts.raftID
      · rw [if_neg (not_not_intro leads)]
        cases verdict : ordered support c.sequence msg with
        | panics => exact .rejects (some msg) support serving isOpen
        | fails err => exact .skips (some msg) support serving isOpen
        | config payload => exact .configures msg support payload serving isOpen leads verdict
        | normal env =>
          exact .accepts msg support env serving isOpen leads verdict (Bool.not_eq_true _ ▸ candidate)
      · rw [if_pos leads]
        exact .skips (some msg) support serving isOpen

theorem steps_onProcessEnvMsg {opts : Options} {c : Chain} (order : RangeOrder RangeSite) (batchSize : BatchSize)
    (msg : EnvMsg) (running : c.Running) (idle : c.sending = none) (taken : c.processing = some msg) :
    Steps opts c (.processEnvMsg order batchSize)
      ({ c with processing := none }.onProcessEnvMsg order batchSize msg) := by
  obtain ⟨env | env⟩ := msg
  · refine .cuts order batchSize _ running idle taken ?_
    by_cases empty : c.receiver.tcg.readyBatch = []
    · exact .inl ⟨by simp [empty], empty⟩
    · exact .inr ⟨if_pos (List.length_pos_of_ne_nil empty), empty⟩
  · unfold onProcessEnvMsg
    dsimp only
    cases returned : orderedRaftForBC order batchSize env c.receiver with
    | none => exact .crashes order batchSize env running taken
    | some result =>
      obtain ⟨choosed, decoded, tested⟩ := bind_eq_some_iff.mp returned
      obtain ⟨final, done, ⟨none, kept⟩ | ⟨one, cut⟩⟩ := processNode_cases tested
      · refine .receives order batchSize env choosed final _ _ running idle taken decoded done (.inl ⟨?_, kept⟩)
        simp [none]
      · refine .receives order batchSize env choosed final _ _ running idle taken decoded done (.inr ⟨?_, cut⟩)
        simp [one]

/-- A process that has ended can only be restarted. -/
theorem Steps.running {opts : Options} {c next : Chain} {event : Event} (steps : Steps opts c event next) :
    c.Running ∨ ∃ appliedIndex, event = .restart appliedIndex := by
  cases steps <;> first | exact .inr ⟨_, rfl⟩ | exact .inl ‹c.Running› | exact .inl (‹c.Serving›).1

/-- A step that happens ends in one of the described ways. -/
theorem step_cases {opts : Options} {c next : Chain} {event : Event}
    (stepped : c.step opts event = some next) : Steps opts c event next := by
  cases event with
  | commitC =>
    cases queued : c.commitC with
    | nil => simp [step, queued] at stepped
    | cons raftbatches rest =>
      simp only [step, queued, ite_none_right_eq_some, Option.some.injEq] at stepped
      obtain ⟨serving, rfl⟩ := stepped
      exact .commits raftbatches rest serving queued
  | submitC req support =>
    simp only [step, ite_none_right_eq_some, Option.some.injEq] at stepped
    obtain ⟨⟨serving, isOpen⟩, rfl⟩ := stepped
    exact steps_onSubmitC req support serving isOpen
  | applyC app =>
    simp only [step, ite_none_right_eq_some, Option.some.injEq] at stepped
    obtain ⟨⟨serving, increasing, own⟩, rfl⟩ := stepped
    exact .applies app (c.applySoft opts app) serving rfl (applySoft_cases opts c app) increasing own
  | timer =>
    simp only [step, ite_none_right_eq_some, Option.some.injEq] at stepped
    obtain ⟨⟨serving, ticking⟩, rfl⟩ := stepped
    exact .expires serving ticking
  | snapC index pulled =>
    simp only [step, ite_none_right_eq_some, Option.some.injEq] at stepped
    obtain ⟨⟨serving, follows⟩, rfl⟩ := stepped
    exact .catchesUp index pulled serving follows
  | sent =>
    cases blocked : c.blocked with
    | none => simp [step, blocked] at stepped
    | some msg =>
      simp only [step, blocked, ite_none_right_eq_some, Option.some.injEq] at stepped
      obtain ⟨⟨running, room⟩, rfl⟩ := stepped
      exact .sends msg running blocked room
  | received =>
    cases first : c.raftEnvMsgC with
    | nil => simp [step, first] at stepped
    | cons msg rest =>
      simp only [step, first, ite_none_right_eq_some, Option.some.injEq] at stepped
      obtain ⟨⟨running, idle, free⟩, rfl⟩ := stepped
      exact .takes msg rest running idle free first
  | processEnvMsg order batchSize =>
    cases taken : c.processing with
    | none => simp [step, taken] at stepped
    | some msg =>
      simp only [step, taken, ite_none_right_eq_some, Option.some.injEq] at stepped
      obtain ⟨⟨running, idle, _⟩, rfl⟩ := stepped
      exact steps_onProcessEnvMsg order batchSize msg running idle taken
  | forwarded =>
    cases sending : c.sending with
    | none => simp [step, sending] at stepped
    | some batches =>
      simp only [step, sending, ite_none_right_eq_some, Option.some.injEq] at stepped
      obtain ⟨⟨running, room⟩, rfl⟩ := stepped
      exact .forwards batches running sending room
  | proposed | proposeFails =>
    rcases queued : c.propC with _ | _ | ⟨block, rest⟩
    · simp [step, queued] at stepped
    · simp [step, queued] at stepped
    · simp only [step, queued, ite_none_right_eq_some, Option.some.injEq] at stepped
      obtain ⟨⟨running, proposing⟩, rfl⟩ := stepped
      first
        | exact .proposes block rest running proposing queued
        | exact .fails block rest running proposing queued
  | restart appliedIndex =>
    simp only [step, ite_none_right_eq_some, Option.some.injEq] at stepped
    obtain ⟨earlier, rfl⟩ := stepped
    exact .restarts appliedIndex earlier

end Chain

/-- The loop receives batches from `CommitC`. -/
def Event.Delivers : Event → Prop
  | .commitC => True
  | _ => False

instance (event : Event) : Decidable event.Delivers := by
  unfold Event.Delivers
  split <;> infer_instance

section Events

variable (opts : Options) (c : Chain)

/-- The leader accepts a normal message. -/
def Event.Submits : Event → Prop
  | .submitC (some msg) _ => c.soft.lead = opts.raftID ∧ isConfig msg.payload = some false
  | _ => False

/-- The leader accepts a config message. -/
def Event.Configures : Event → Prop
  | .submitC (some msg) _ => c.soft.lead = opts.raftID ∧ isConfig msg.payload = some true
  | _ => False

/-- The node loses the leadership. -/
def Event.Deposes : Event → Prop
  | .applyC app => c.soft.lead = opts.raftID ∧ ∃ soft ∈ app.soft, soft.lead ≠ opts.raftID
  | _ => False

instance (event : Event) : Decidable (event.Submits opts c) := by
  unfold Event.Submits
  split <;> infer_instance

instance (event : Event) : Decidable (event.Configures opts c) := by
  unfold Event.Configures
  split <;> infer_instance

variable {opts c} in
instance (event : Event) : Decidable (event.Deposes opts c) := by
  unfold Event.Deposes
  split <;> infer_instance

end Events

/-- Only a normal message goes to the block cutter, and it goes there as it was submitted. -/
theorem ordered_normal {support : Support} {sequence : Nat} {msg : SubmitRequest} {env : Envelope}
    (normal : ordered support sequence msg = .normal env) :
    env = msg.payload ∧ isConfig msg.payload = some false := by
  unfold ordered at normal
  split at normal
  · cases normal
  · split at normal
    · split at normal
      · cases normal
      · split at normal <;> cases normal
    · cases normal
  · rename_i config
    split at normal
    · split at normal
      · cases normal
      · cases normal
        exact ⟨rfl, config⟩
    · cases normal
      exact ⟨rfl, config⟩

/-- A config message is submitted as one, and what is ordered for it is one. -/
theorem ordered_config {support : Support} {sequence : Nat} {msg : SubmitRequest} {payload : Envelope}
    (config : ordered support sequence msg = .config payload) :
    isConfig msg.payload = some true ∧ isConfig payload = some true := by
  unfold ordered at config
  split at config
  · cases config
  · rename_i submitted
    split at config
    · split at config
      · cases config
      · rename_i returned
        split at config
        · cases config
        · cases config
          exact ⟨submitted, support.returnsConfig _ _ _ returned⟩
    · cases config
      exact ⟨submitted, submitted⟩
  · split at config
    · split at config <;> cases config
    · cases config

/-- The pipeline after the soft state was handled. A former leader has cut its ready batch. -/
theorem Chain.SoftChange.pipeline {opts : Options} {c changed : Chain} {app : Apply}
    (soft : SoftChange opts c app changed) :
    changed.toPipeline = c.toPipeline ∨ (Event.applyC app).Deposes opts c ∧
      changed.toPipeline = { c.toPipeline with receiver := (cut c.receiver).2, ticking := false } := by
  cases soft with
  | keeps => exact .inl rfl
  | gains => exact .inl rfl
  | loses soft leader received was follows => exact .inr ⟨⟨was, soft, received, follows⟩, rfl⟩

/-- The soft state leaves the applied entries and the ledger alone. -/
theorem Chain.SoftChange.kept {opts : Options} {c changed : Chain} {app : Apply}
    (soft : SoftChange opts c app changed) :
    changed.appliedIndex = c.appliedIndex ∧ changed.ledger = c.ledger ∧ changed.created = c.created := by
  cases soft <;> exact ⟨rfl, rfl, rfl⟩

/-- The node of the examples has the identifier 1 and may have five blocks in flight. -/
def sampleOptions : Options := ⟨1, 5, by decide⟩

/-- The examples start on a ledger that holds an empty genesis block. -/
def sampleChain : Chain := newChain (Ledger.genesis []) 0 0

/-- The filters of the examples accept every normal message and every config message. -/
def permissive : Support where
  processNormalMsg _ := .ok 0
  processConfigMsg env := if isConfig env = some true then .ok (env, 0) else .error "not a config message"
  checkConfigUpdateValidity _ := none
  returnsConfig env payload seq returned := by
    split at returned
    · cases returned
      assumption
    · cases returned

def elects : Event := .applyC ⟨some ⟨1, .leader⟩, [], 0, none⟩

def deposes : Event := .applyC ⟨some ⟨2, .follower⟩, [], 0, none⟩

def submits (env : Envelope) : Event := .submitC (some ⟨env, 0⟩) permissive

/-- The goroutine `ProcessEnvMsg` processes the message that it has received. -/
def processes (maxMessageCount : UInt32) : Event :=
  .processEnvMsg (RangeOrder.stored RangeSite) ⟨maxMessageCount, 100⟩

end Pobl.Etcdraft
