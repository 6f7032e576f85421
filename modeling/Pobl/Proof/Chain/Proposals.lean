import Pobl.Proof.Chain.Leadership

namespace Pobl.Etcdraft

open Library Protos Partialorder BlockCutter List

/-- The batches of `CommitC` and of a config message are received only while the blocks in flight leave room
for them, and the leadership is lost only while the pipeline is empty. A config message comes with a second
batch when something is ready or can become ready before its cut. -/
def Chain.Throttled (opts : Options) (c : Chain) (event : Event) : Prop :=
  (event.Delivers → c.blockInflight < opts.maxInflightBlocks) ∧ (event.Configures opts c →
      c.blockInflight + (if c.receiver.tcg.readyBatch = [] ∧ c.queued = [] then 1 else 2) ≤
        opts.maxInflightBlocks) ∧
    (event.Deposes opts c → c.Empty)

instance (opts : Options) (c : Chain) (event : Event) : Decidable (c.Throttled opts event) :=
  inferInstanceAs (Decidable ((_ → _) ∧ (_ → _) ∧ (_ → _)))

/-- Nothing is on its way, and nothing is about to be sent. -/
def Pipeline.Idle (pipeline : Pipeline) : Prop :=
  pipeline.Empty ∧ pipeline.blocked = none ∧ pipeline.ticking = false

/-- What a run keeps whose steps are throttled. -/
structure Chain.Measured (opts : Options) (c : Chain) : Prop where
  led : Led opts c.toRole c.toProposals
  busy : c.Accepting opts ∨ c.Idle
  single : ∀ batches, batches ∈ c.commitC ∨ c.sending = some batches → batches.length = 1
  elected : c.soft.lead = opts.raftID → c.justElected = true → c.raft = [] ∧ c.propC = some []
  counted : c.soft.lead = opts.raftID → c.raft.length + (c.propC.getD []).length ≤ c.blockInflight
  bounded : (c.propC.getD []).length ≤ opts.maxInflightBlocks
  alive : c.panicked ≠ some .inflightLimit ∧ c.panicked ≠ some .nilBlockCreator
  entered : ∀ call ∈ c.entered, call.leading = true ∧ call.creator = true

section Room

variable (opts : Options)

/-- The batches are all sent while the channel has room for them. -/
theorem Chain.foldl_proposeBatch_room (batches : List (List Envelope)) (c : Chain) (queue : List Block)
    (running : c.Running) (creator : c.bc.isSome) (channel : c.propC = some queue)
    (room : queue.length + batches.length ≤ opts.maxInflightBlocks) :
    (batches.foldl (proposeBatch opts) c).Running ∧
      (batches.foldl (proposeBatch opts) c).blockInflight = c.blockInflight + batches.length ∧
      (∃ longer, (batches.foldl (proposeBatch opts) c).propC = some longer ∧
        longer.length = queue.length + batches.length) ∧
      (batches.foldl (proposeBatch opts) c).entered = c.entered := by
  induction batches generalizing c queue with
  | nil => exact ⟨running, rfl, ⟨queue, channel, rfl⟩, rfl⟩
  | cons batch rest ih =>
    obtain ⟨bc, found⟩ := Option.isSome_iff_exists.mp creator
    rw [length_cons] at room
    have made := proposeBatch_room opts batch running found channel (by omega)
    obtain ⟨alive, counted, ⟨longer, sent, length⟩, kept⟩ := ih (proposeBatch opts c batch)
      (queue ++ [⟨bc.number + 1, batch⟩]) (by rw [made]; exact running) (by rw [made]; rfl) (by rw [made])
      (by rw [length_append, length_singleton]; omega)
    rw [foldl_cons]
    refine ⟨alive, ?_, ⟨longer, sent, ?_⟩, ?_⟩
    · rw [counted, made, length_cons]
      show c.blockInflight + 1 + _ = _
      omega
    · rw [length, length_append, length_singleton, length_cons]
      omega
    · rw [kept, made]

/-- The leader proposes while the blocks in flight leave room for its batches. -/
theorem Chain.Measured.propose {opts : Options} {c : Chain} (measured : c.Measured opts) (accepting : c.Accepting opts)
    (running : c.Running) (batches : List (List Envelope))
    (room : c.blockInflight + batches.length ≤ opts.maxInflightBlocks) : (c.propose opts batches).Measured opts := by
  have creator := measured.led.creator accepting
  obtain ⟨queue, channel⟩ := Option.isSome_iff_exists.mp (measured.led.channel accepting.1)
  have counted := measured.counted accepting.1
  rw [channel, Option.getD_some] at counted
  obtain ⟨alive, inflight, ⟨longer, sent, length⟩, entered⟩ := foldl_proposeBatch_room opts batches
    { c with entered := c.entered ++ [⟨decide (c.soft.lead = opts.raftID), c.bc.isSome⟩] } queue running creator
    channel (by omega)
  have led := measured.led.propose batches
  have pipeline := propose_toPipeline opts batches c
  have role := propose_toRole opts batches c
  have applied := propose_toApplied opts batches c
  change (c.propose opts batches).Running at alive
  change (c.propose opts batches).blockInflight = _ at inflight
  change (c.propose opts batches).propC = _ at sent
  change (c.propose opts batches).entered = _ at entered
  generalize c.propose opts batches = next at *
  refine ⟨led, ?_, ?_, ?_, ?_, ?_, ?_, ?_⟩
  · rw [role, pipeline]
    exact .inl accepting
  · rw [pipeline]
    exact measured.single
  · rw [role]
    intro leads elected
    rw [accepting.2] at elected
    cases elected
  · intro _
    rw [sent, Option.getD_some, length, inflight, applied]
    show c.raft.length + _ ≤ c.blockInflight + _
    omega
  · rw [sent, Option.getD_some, length]
    omega
  · rw [alive]
    exact ⟨nofun, nofun⟩
  · rw [entered]
    exact forall_mem_append.mpr ⟨measured.entered,
      forall_mem_singleton.mpr ⟨decide_eq_true accepting.1, creator⟩⟩

end Room

namespace Chain.Measured

variable {opts : Options} {c next : Chain}

theorem initial (opts : Options) (ledger : Ledger) (appliedIndex sequence : Nat) :
    (newChain ledger appliedIndex sequence).Measured opts where
  led := .initial opts ledger appliedIndex sequence
  busy := .inr ⟨⟨rfl, rfl, rfl⟩, rfl, rfl⟩
  single := by simp [newChain]
  elected leads := absurd leads.symm opts.raftID_ne_none
  counted leads := absurd leads.symm opts.raftID_ne_none
  bounded := Nat.zero_le _
  alive := ⟨nofun, nofun⟩
  entered := by simp [newChain]

section Keeps

variable (measured : c.Measured opts) {ents : List Entry}

include measured

/-- The node accepts requests while something is on its way. -/
theorem accepting (busy : ¬ c.Idle) : c.Accepting opts :=
  measured.busy.resolve_right busy

theorem working {msg : EnvMsg} (taken : c.processing = some msg) : c.Accepting opts := by
  refine measured.accepting fun idle => ?_
  have empty := idle.1.1
  rw [Pipeline.queued_processing taken] at empty
  cases empty

theorem pause : (c.pause opts).Measured opts := by
  have led := measured.led.pause
  rcases pause_cases opts c with same | same <;> rw [same] at led ⊢
  · exact measured
  · exact { measured with led := led }

theorem softChange {app : Apply} (serving : c.Serving) (empty : (Event.applyC app).Deposes opts c → c.Empty)
    (soft : SoftChange opts c app next) : next.Measured opts := by
  have led := measured.led.softChange soft
  cases soft with
  | keeps soft leader same =>
    exact ⟨led, measured.busy.imp (fun accepting => ⟨same.mpr accepting.1, accepting.2⟩) id, measured.single,
      fun leads => measured.elected (same.mp leads), fun leads => measured.counted (same.mp leads),
      measured.bounded, measured.alive, measured.entered⟩
  | gains soft leader was leads =>
    exact ⟨led, .inr (measured.busy.resolve_left fun accepting => was accepting.1), measured.single,
      fun _ _ => ⟨rfl, rfl⟩, fun _ => Nat.le_refl 0, Nat.zero_le _, measured.alive, measured.entered⟩
  | loses soft leader received was follows =>
    exact ⟨led, .inr ⟨empty ⟨was, soft, received, follows⟩, serving.2, rfl⟩, measured.single,
      fun leads => absurd leads follows, fun leads => absurd leads follows, measured.bounded, measured.alive,
      measured.entered⟩

theorem accepts (accepts : Accepts opts c next) : next.Measured opts := by
  have led := measured.led.accepts accepts
  cases accepts with
  | unchanged => exact measured
  | starts elected =>
    refine { measured with led := led, busy := .inr (measured.busy.resolve_left fun accepting => ?_), elected :=
      fun _ elected => Bool.noConfusion elected }
    rw [accepting.2] at elected
    cases elected
  | closes =>
    exact { measured with led := led }
  | opens =>
    exact { measured with led := led }

omit measured in
/-- The branches of `apply` never leave one of the two panics of `propose`. -/
theorem apply_alive (opts : Options) (ents : List Entry)
    (alive : c.panicked ≠ some .inflightLimit ∧ c.panicked ≠ some .nilBlockCreator) :
    (c.apply opts ents).panicked ≠ some .inflightLimit ∧ (c.apply opts ents).panicked ≠ some .nilBlockCreator := by
  refine apply_rule opts (fun c => c.panicked ≠ some .inflightLimit ∧ c.panicked ≠ some .nilBlockCreator) ents c
    (fun _ _ => ⟨nofun, nofun⟩) ?_ ?_ alive
  · intro c entry running idle _
    rw [(applyEntry_idle opts running idle).2.2.2.2]
    exact ⟨nofun, nofun⟩
  · intro c index block membership _ running fresh alive
    rw [applyEntry_fresh opts block membership running fresh]
    have writes := writeBlock_cases c block membership
    generalize c.writeBlock block membership = next at writes
    cases writes with
    | unexpected => exact ⟨nofun, nofun⟩
    | ignored => exact alive
    | written => exact alive

omit measured in
/-- Each of its own blocks that a leader applies leaves the counter and the blocks in raft. -/
theorem apply_counted (queued : Nat) (increasing : ents.Pairwise fun first second => first.index < second.index)
    (own : freshBlocks ents c.appliedIndex <+: c.raft) (counted : c.raft.length + queued ≤ c.blockInflight) :
    (c.apply opts ents).raft.length + queued ≤ (c.apply opts ents).blockInflight := by
  refine apply_own_rule opts (fun c => c.raft.length + queued ≤ c.blockInflight) ?_ ?_ ents c
    (fun _ counted => counted) increasing own counted
  · intro c entry running idle counted
    obtain ⟨raft, _, inflight, _⟩ := applyEntry_idle opts running idle
    rw [raft, inflight]
    exact counted
  · intro c index block membership rest running fresh raft counted
    rw [applyEntry_fresh opts block membership running fresh]
    have writes := writeBlock_cases c block membership
    generalize c.writeBlock block membership = next at writes
    show (c.raft.erase block).length + queued ≤ next.blockInflight
    rw [raft, erase_cons_head]
    rw [raft, length_cons] at counted
    cases writes with
    | unexpected =>
      show _ ≤ c.blockInflight
      omega
    | ignored => omega
    | written =>
      show _ ≤ c.blockInflight - 1
      omega

theorem apply (increasing : ents.Pairwise fun first second => first.index < second.index)
    (own : c.Accepting opts → freshBlocks ents c.appliedIndex <+: c.raft) : (c.apply opts ents).Measured opts := by
  have alive := apply_alive opts ents measured.alive
  refine ⟨?_, ?_, ?_, ?_, ?_, ?_, alive, ?_⟩
  · rw [apply_toRole, apply_toProposals]
    exact measured.led
  · rw [apply_toRole, apply_toPipeline]
    exact measured.busy
  · rw [apply_toPipeline]
    exact measured.single
  · rw [apply_toRole, apply_toProposals]
    intro leads elected
    obtain ⟨none, empty⟩ := measured.elected leads elected
    exact ⟨apply_raft_nil opts ents none, empty⟩
  · rw [apply_toRole, apply_toProposals]
    intro leads
    cases elected : c.justElected with
    | true =>
      obtain ⟨none, empty⟩ := measured.elected leads elected
      rw [apply_raft_nil opts ents none, empty]
      exact Nat.zero_le _
    | false => exact apply_counted _ increasing (own ⟨leads, elected⟩) (measured.counted leads)
  · rw [apply_toProposals]
    exact measured.bounded
  · rw [apply_toProposals]
    exact measured.entered

/-- A step that only moves something through the pipeline of an accepting node. -/
theorem moves (accepting : c.Accepting opts) (role : next.soft = c.soft) (elected : next.justElected = c.justElected)
    (closed : next.submitC = c.submitC) (proposals : next.toProposals = c.toProposals)
    (inflight : next.blockInflight = c.blockInflight) (raft : next.raft = c.raft)
    (single : ∀ batches, batches ∈ next.commitC ∨ next.sending = some batches → batches.length = 1)
    (alive : next.panicked ≠ some .inflightLimit ∧ next.panicked ≠ some .nilBlockCreator) : next.Measured opts := by
  refine ⟨⟨?_, ?_, ?_⟩, .inl ?_, single, ?_, ?_, ?_, alive, ?_⟩
  · rw [role, proposals]
    exact measured.led.channel
  · unfold Role.Accepting
    rw [role, elected, proposals]
    exact measured.led.creator
  · rw [role, elected, closed]
    exact measured.led.closed
  · unfold Role.Accepting
    rw [role, elected]
    exact accepting
  · rw [role, elected, raft, proposals]
    exact measured.elected
  · rw [role, raft, proposals, inflight]
    exact measured.counted
  · rw [proposals]
    exact measured.bounded
  · rw [proposals]
    exact measured.entered

/-- A block that leaves the channel of `propose` is at most one more block in raft. -/
theorem dequeues {block : Block} {rest raft : List Block} (proposing : Bool) (queued : c.propC = some (block :: rest))
    (length : raft.length ≤ c.raft.length + 1) :
    { c with raft := raft, propC := some rest, proposing := proposing }.Measured opts := by
  refine ⟨⟨fun _ => rfl, measured.led.creator, measured.led.closed⟩, measured.busy, measured.single, ?_, ?_, ?_,
    measured.alive, measured.entered⟩
  · intro leads elected
    have empty := (measured.elected leads elected).2
    rw [queued] at empty
    cases empty
  · intro leads
    have counted := measured.counted leads
    rw [queued, Option.getD_some, length_cons] at counted
    show raft.length + rest.length ≤ c.blockInflight
    omega
  · have bounded := measured.bounded
    rw [queued] at bounded
    exact Nat.le_of_succ_le bounded

end Keeps

theorem step {event : Event} (throttled : c.Throttled opts event) (measured : c.Measured opts)
    (stepped : c.step opts event = some next) : next.Measured opts := by
  obtain ⟨delivers, configures, deposes⟩ := throttled
  cases step_cases stepped with
  | commits raftbatches rest serving queued =>
    have accepting := measured.accepting fun idle => by simp [idle.1.2.2] at queued
    have single : raftbatches.length = 1 := measured.single _ (.inl (by rw [queued]; exact mem_cons_self))
    have received : ({ c with commitC := rest }.stopTimer).Measured opts := by
      refine measured.moves accepting rfl rfl rfl rfl rfl rfl ?_ measured.alive
      rintro batches (listed | sending)
      · exact measured.single batches (.inl (by rw [queued]; exact mem_cons_of_mem _ listed))
      · exact measured.single batches (.inr sending)
    refine received.propose accepting serving.1 raftbatches ?_
    have room := delivers trivial
    show c.blockInflight + _ ≤ _
    omega
  | skips => exact measured
  | rejects =>
    exact { measured with alive := ⟨nofun, nofun⟩ }
  | configures msg support payload serving isOpen leads config =>
    have accepting := measured.led.accepting leads isOpen
    have received : ({ c with receiver := (cut c.receiver).2 }.stopTimer).Measured opts :=
      measured.moves accepting rfl rfl rfl rfl rfl rfl measured.single measured.alive
    refine (received.propose accepting serving.1 _ ?_).pause
    have room := configures ⟨leads, (ordered_config config).1⟩
    have length : (c.configBatches payload).length ≤
        if c.receiver.tcg.readyBatch = [] ∧ c.queued = [] then 1 else 2 := by
      by_cases empty : c.receiver.tcg.readyBatch = []
      · have single : (c.configBatches payload).length = 1 := by simp [configBatches, cut, cutTx, empty]
        rw [single]
        split <;> decide
      · simp [configBatches, cut, cutTx, empty]
    exact Nat.le_trans (Nat.add_le_add_left length _) room
  | accepts msg support env serving isOpen leads normal =>
    have accepting := measured.led.accepting leads isOpen
    exact measured.moves accepting rfl rfl rfl rfl rfl rfl measured.single measured.alive
  | applies app changed serving handled soft increasing own =>
    rw [← soft.kept.1] at own
    exact ((measured.softChange serving deposes soft).apply increasing own).accepts (acceptRequests_cases _ _ _)
  | expires serving ticking =>
    have accepting := measured.accepting fun idle => by simp [idle.2.2] at ticking
    exact measured.moves accepting rfl rfl rfl rfl rfl rfl measured.single measured.alive
  | catchesUp index pulled serving follows =>
    obtain ⟨pipeline, role, proposals, counters, raft⟩ := onSnapC_frame index pulled c
    refine ⟨?_, ?_, ?_, ?_, ?_, ?_, ?_, ?_⟩
    · rw [role, proposals]
      exact measured.led
    · rw [role, pipeline]
      exact measured.busy
    · rw [pipeline]
      exact measured.single
    · rw [role]
      exact fun leads => absurd leads follows
    · rw [role]
      exact fun leads => absurd leads follows
    · rw [proposals]
      exact measured.bounded
    · rw [counters]
      exact measured.alive
    · rw [proposals]
      exact measured.entered
  | sends msg running blocked room =>
    have accepting := measured.accepting fun idle => by simp [idle.2.1] at blocked
    unfold onSent
    split
    · apply pause
      exact measured.moves accepting rfl rfl rfl rfl rfl rfl measured.single measured.alive
    · exact measured.moves accepting rfl rfl rfl rfl rfl rfl measured.single measured.alive
  | takes msg rest running _ free first =>
    have accepting := measured.accepting fun idle => by
      have empty := idle.1.1
      rw [← Pipeline.queued_received free first] at empty
      cases empty
    exact measured.moves accepting rfl rfl rfl rfl rfl rfl measured.single measured.alive
  | receives order batchSize env choosed final receiver batches running idle taken decoded processed result =>
    have accepting := measured.working taken
    refine measured.moves accepting rfl rfl rfl rfl rfl rfl ?_ measured.alive
    rintro other (listed | sending)
    · exact measured.single other (.inl listed)
    · rcases result with ⟨none, _⟩ | ⟨one, _⟩
      · rw [none] at sending
        cases sending
      · rw [one] at sending
        cases sending
        rfl
  | crashes order batchSize env running taken =>
    exact measured.moves (measured.working taken) rfl rfl rfl rfl rfl rfl measured.single ⟨nofun, nofun⟩
  | cuts order batchSize batches running idle taken result =>
    have accepting := measured.working taken
    refine measured.moves accepting rfl rfl rfl rfl rfl rfl ?_ measured.alive
    rintro other (listed | sending)
    · exact measured.single other (.inl listed)
    · rcases result with ⟨none, _⟩ | one
      · rw [none] at sending
        cases sending
      · rw [one.1] at sending
        cases sending
        rfl
  | forwards batches running sending room =>
    have accepting := measured.accepting fun idle => by simp [idle.1.2.1] at sending
    refine measured.moves accepting rfl rfl rfl rfl rfl rfl ?_ measured.alive
    rintro other (listed | sending)
    · rcases mem_append.mp listed with before | now
      · exact measured.single other (.inl before)
      · rw [mem_singleton.mp now]
        exact measured.single batches (.inr sending)
    · cases sending
  | proposes block rest running proposing queued =>
    exact measured.dequeues c.proposing queued (by rw [length_append, length_singleton])
  | fails block rest running proposing queued =>
    exact measured.dequeues false queued (Nat.le_succ _)
  | restarts appliedIndex =>
    have fresh := initial opts c.ledger appliedIndex c.sequence
    exact { fresh with led := ⟨fresh.led.channel, fresh.led.creator, fresh.led.closed⟩, entered := measured.entered }

end Chain.Measured

/-- The leader proposes, loses the leadership when nothing is on its way, and regains it. -/
def throttledEvents : List Event :=
  [elects, submits (sampleTx "a" [] []), .sent, .received, processes 1, .forwarded, .commitC, .proposed,
    .applyC ⟨some ⟨2, .follower⟩, [.normal 1 (some ⟨1, [sampleTx "a" [] []]⟩) none], 1, none⟩,
    .applyC ⟨some ⟨1, .leader⟩, [], 1, none⟩, submits (sampleTx "b" [] []), .sent, .received, processes 1, .forwarded,
    .commitC]

/-- The batch is delivered after the leadership was lost. -/
def lateEvents : List Event :=
  [elects, submits (sampleTx "a" [] []), .sent, .received, processes 1, .forwarded, deposes, .commitC]

end Pobl.Etcdraft
