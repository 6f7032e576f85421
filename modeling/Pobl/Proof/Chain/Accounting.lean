/-
This file follows the blocks of a leader from `propose` to the ledger and accounts for the transactions
that leave the block cutter.
-/

import Pobl.Proof.Chain.Leadership
import Pobl.Proof.Graph.Decoding

namespace Pobl.Etcdraft

open Library Protos Partialorder BlockCutter Pipeline List Option

/-- The blocks that batches become. -/
def blocksOf : Nat → List (List Envelope) → List Block
  | _, [] => []
  | number, batch :: rest => ⟨number, batch⟩ :: blocksOf (number + 1) rest

theorem blocksOf_append (number : Nat) (first second : List (List Envelope)) :
    blocksOf number (first ++ second) = blocksOf number first ++ blocksOf (number + first.length) second := by
  induction first generalizing number with
  | nil => rfl
  | cons batch rest ih =>
    rw [cons_append, blocksOf, ih, blocksOf, cons_append, length_cons, Nat.add_right_comm,
      Nat.add_assoc]

/-- The records of the blocks that are created from batches. -/
def recordsOf : List Block → List (List Envelope) → List Created
  | _, [] => []
  | chain, batch :: rest =>
    ⟨chain, ⟨chain.length, batch⟩⟩ :: recordsOf (chain ++ [⟨chain.length, batch⟩]) rest

/-- The records of the second batches follow those of the first. -/
theorem recordsOf_append (chain : List Block) (first second : List (List Envelope)) :
    recordsOf chain (first ++ second) =
      recordsOf chain first ++ recordsOf (chain ++ blocksOf chain.length first) second := by
  induction first generalizing chain with
  | nil =>
    rw [blocksOf, append_nil]
    rfl
  | cons batch rest ih =>
    rw [cons_append, recordsOf, ih, recordsOf, blocksOf, length_append, length_singleton, append_assoc,
      singleton_append, cons_append]

/-- The next block of the leader extends the chain. -/
structure Chain.Extends (c : Chain) : Prop where
  proposing : c.proposing = true
  channel : c.propC.isSome
  creator : ∃ bc, c.bc = some bc ∧ bc.number + 1 = c.blocks.length
  numbered : c.blocks.map Block.number = range c.blocks.length

namespace Chain

variable {c next : Chain}

section Propose

variable (opts : Options)

theorem blocks_of_proposing {queue : List Block} (proposing : c.proposing = true)
    (channel : c.propC = some queue) : c.blocks = c.ledger.blocks ++ (c.raft ++ queue) := by
  rw [blocks, inFlight, if_pos proposing, channel, getD_some]

/-- One block is created, and it extends the chain unless `propose` panics. -/
theorem Extends.proposeBatch (extending : c.Extends) (running : c.Running) (batch : List Envelope) :
    (c.proposeBatch opts batch).created = c.created ++ [⟨c.blocks, ⟨c.blocks.length, batch⟩⟩] ∧
    ((c.proposeBatch opts batch).Running → (c.proposeBatch opts batch).Extends ∧
    (c.proposeBatch opts batch).blocks = c.blocks ++ [⟨c.blocks.length, batch⟩]) := by
  obtain ⟨bc, creator, number⟩ := extending.creator
  obtain ⟨queue, channel⟩ := isSome_iff_exists.mp extending.channel
  by_cases room : queue.length < opts.maxInflightBlocks
  · have made := proposeBatch_room opts batch running creator channel room
    rw [number] at made
    generalize c.proposeBatch opts batch = next at made
    have proposing : next.proposing = true := by rw [made]; exact extending.proposing
    have longer : next.propC = some (queue ++ [⟨c.blocks.length, batch⟩]) := by rw [made]
    have blocks : next.blocks = c.blocks ++ [⟨c.blocks.length, batch⟩] := by
      rw [blocks_of_proposing proposing longer, blocks_of_proposing extending.proposing channel, made]
      simp only [append_assoc]
    refine ⟨by rw [made], fun _ => ⟨⟨proposing, by rw [longer]; rfl, ⟨⟨c.blocks.length⟩, by rw [made], ?_⟩, ?_⟩,
      blocks⟩⟩
    · rw [blocks, length_append]
      rfl
    · rw [blocks]
      exact numbered_append extending.numbered batch
  · have alive : c.panicked.isSome = false := by rw [running]; rfl
    have stopped : c.proposeBatch opts batch =
        { c with
          bc := some ⟨bc.number + 1⟩
          created := c.created ++ [⟨c.blocks, ⟨bc.number + 1, batch⟩⟩]
          panicked := some .inflightLimit } := by
      simp only [Chain.proposeBatch, alive, Bool.false_eq_true, if_false, creator, createNextBlock, channel, room]
    rw [stopped, number]
    exact ⟨rfl, fun alive => (by cases alive)⟩

/-- A panic leaves the remaining batches alone. -/
theorem foldl_proposeBatch_stopped (stopped : ¬ c.Running)
    (batches : List (List Envelope)) : batches.foldl (.proposeBatch opts) c = c :=
  foldl_invariant _ (fun state => state = c) batches (fun state _ _ same => by
      rw [same]
      exact if_pos (isSome_iff_ne_none.mpr stopped)) _ rfl

/-- The batches become blocks one after the other, as long as `propose` does not panic. -/
theorem Extends.foldl_proposeBatch (extending : c.Extends) (running : c.Running) (batches : List (List Envelope)) :
    ∃ made, made <+: recordsOf c.blocks batches ∧
    (batches.foldl (.proposeBatch opts) c).created = c.created ++ made ∧
    ((batches.foldl (.proposeBatch opts) c).Running →
    (batches.foldl (.proposeBatch opts) c).Extends ∧
    (batches.foldl (.proposeBatch opts) c).blocks = c.blocks ++ blocksOf c.blocks.length batches ∧
        made = recordsOf c.blocks batches) := by
  induction batches generalizing c with
  | nil =>
    exact ⟨[], nil_prefix, (append_nil _).symm, fun _ => ⟨extending, (append_nil _).symm, rfl⟩⟩
  | cons batch rest ih =>
    obtain ⟨created, continues⟩ := extending.proposeBatch opts running batch
    rw [foldl_cons]
    by_cases alive : (c.proposeBatch opts batch).Running
    · obtain ⟨next, blocks⟩ := continues alive
      obtain ⟨made, part, records, later⟩ := ih next alive
      rw [blocks] at part later
      refine ⟨⟨c.blocks, ⟨c.blocks.length, batch⟩⟩ :: made, cons_prefix_cons.mpr ⟨rfl, part⟩, ?_, fun running => ?_⟩
      · rw [records, created, append_assoc, singleton_append]
      · obtain ⟨extending, longer, all⟩ := later running
        refine ⟨extending, ?_, ?_⟩
        · rw [longer, append_assoc, singleton_append, length_append, length_singleton]
          rfl
        · rw [all]
          rfl
    · rw [foldl_proposeBatch_stopped opts alive, created]
      exact ⟨[⟨c.blocks, ⟨c.blocks.length, batch⟩⟩], cons_prefix_cons.mpr ⟨rfl, nil_prefix⟩, rfl,
        fun running => absurd running alive⟩

/-- The records and the blocks that one call of `propose` makes. -/
theorem Extends.propose (extending : c.Extends) (running : c.Running) (batches : List (List Envelope)) :
    ∃ made, made <+: recordsOf c.blocks batches ∧
    (c.propose opts batches).created = c.created ++ made ∧
    ((c.propose opts batches).Running → (c.propose opts batches).Extends ∧
    (c.propose opts batches).blocks = c.blocks ++ blocksOf c.blocks.length batches ∧
        made = recordsOf c.blocks batches) :=
  Extends.foldl_proposeBatch opts
    (c := { c with entered := c.entered ++ [⟨decide (c.soft.lead = opts.raftID), c.bc.isSome⟩] })
    { extending with } running batches

end Propose

/-- Without a block creator no block is created, and the first batch makes `propose` panic. -/
theorem propose_nil (opts : Options) (running : c.Running) (creator : c.bc = none) (batches : List (List Envelope)) :
    (c.propose opts batches).created = c.created ∧ ((c.propose opts batches).Running → batches = []) := by
  cases batches with
  | nil => exact ⟨rfl, fun _ => rfl⟩
  | cons batch rest =>
    have alive : c.panicked.isSome = false := by rw [running]; rfl
    unfold Chain.propose
    rw [foldl_cons]
    simp only [Chain.proposeBatch, alive, Bool.false_eq_true, if_false, creator]
    rw [foldl_proposeBatch_stopped]
    · exact ⟨rfl, fun stopped => (by cases stopped)⟩
    · exact fun stopped => by cases stopped

theorem Extends.congr (extending : c.Extends) (proposing : next.proposing = c.proposing)
    (channel : next.propC = c.propC) (creator : next.bc = c.bc) (blocks : next.blocks = c.blocks) : next.Extends := by
  refine ⟨?_, ?_, ?_, ?_⟩
  · rw [proposing]
    exact extending.proposing
  · rw [channel]
    exact extending.channel
  · rw [creator, blocks]
    exact extending.creator
  · rw [blocks]
    exact extending.numbered

theorem blocks_congr (role : next.proposing = c.proposing) (channel : next.propC = c.propC)
    (raft : next.raft = c.raft) (ledger : next.ledger = c.ledger) : next.blocks = c.blocks := by
  rw [blocks, inFlight, role, channel, raft, ledger]
  rfl

/-- An entry without a new block leaves the blocks alone. -/
theorem Extends.applyEntry_idle (opts : Options) {entry : Entry} (extending : c.Extends) (running : c.Running)
    (idle : ¬ c.Fresh entry) :
    (applyEntry opts c entry).Extends ∧ (applyEntry opts c entry).blocks = c.blocks ∧
    (applyEntry opts c entry).inFlight = c.inFlight := by
  obtain ⟨_, role, proposals⟩ := applyEntry_frame opts c entry
  obtain ⟨raft, ledger, _⟩ := Chain.applyEntry_idle opts running idle
  have blocks : (applyEntry opts c entry).blocks = c.blocks :=
    blocks_congr (by rw [role]) (by rw [proposals]) raft ledger
  refine ⟨extending.congr (by rw [role]) (by rw [proposals]) (by rw [proposals]) blocks, blocks, ?_⟩
  rw [inFlight, role, proposals, raft]
  rfl

/-- The first block in raft is the next one of the ledger, and it moves from raft to the ledger. -/
theorem Extends.applyEntry_own (opts : Options) {index : Nat} {block : Block} {rest : List Block}
    (extending : c.Extends) (membership : Option ConfChange) (running : c.Running) (fresh : c.appliedIndex < index)
    (raft : c.raft = block :: rest) :
    (applyEntry opts c (.normal index (some block) membership)).Extends ∧
    (applyEntry opts c (.normal index (some block) membership)).blocks = c.blocks ∧
      c.inFlight = block :: (applyEntry opts c (.normal index (some block) membership)).inFlight ∧
      block.number = c.ledger.blocks.length ∧
      ∃ next, c.Writes block next ∧ next.ledger.blocks = c.ledger.blocks ++ [block] ∧
        applyEntry opts c (.normal index (some block) membership) = { next.advance index with raft := rest } := by
  obtain ⟨queue, channel⟩ := isSome_iff_exists.mp extending.channel
  obtain ⟨_, role, proposals⟩ := applyEntry_frame opts c (.normal index (some block) membership)
  have before : c.inFlight = block :: (rest ++ queue) := by
    rw [inFlight, if_pos extending.proposing, channel, raft]
    rfl
  have number : block.number = c.ledger.blocks.length := by
    refine number_of_numbered extending.numbered ?_
    rw [blocks, before, List.getElem?_append_right (Nat.le_refl _), Nat.sub_self]
    rfl
  have last : c.lastBlock.number + 1 = c.ledger.blocks.length := c.ledger.lastBlock_number
  have writes := writeBlock_cases c block membership
  have ledger : (c.writeBlock block membership).ledger.blocks = c.ledger.blocks ++ [block] := by
    generalize c.writeBlock block membership = next at writes
    cases writes with
    | unexpected ahead => omega
    | ignored behind => omega
    | written =>
      show c.ledger.blocks ++ [⟨c.ledger.blocks.length, block.data⟩] = _
      rw [← number]
  have applied := applyEntry_fresh opts block membership running fresh
  rw [raft, erase_cons_head] at applied
  have after : (applyEntry opts c (.normal index (some block) membership)).inFlight = rest ++ queue := by
    rw [inFlight, role, proposals, if_pos extending.proposing, channel, applied]
    rfl
  have same : (applyEntry opts c (.normal index (some block) membership)).blocks = c.blocks := by
    rw [blocks, after, blocks, before, applied]
    show (c.writeBlock block membership).ledger.blocks ++ (rest ++ queue) = _
    rw [ledger, append_assoc, singleton_append]
  exact ⟨extending.congr (by rw [role]) (by rw [proposals]) (by rw [proposals]) same, same, by rw [before, after],
    number, _, writes, ledger, applied⟩

/-- A leader that applies its own blocks moves them from raft to the ledger. -/
theorem Extends.apply_own (opts : Options) {ents : List Entry} (extending : c.Extends)
    (increasing : ents.Pairwise fun first second => first.index < second.index)
    (own : freshBlocks ents c.appliedIndex <+: c.raft) : (c.apply opts ents).blocks = c.blocks := by
  have kept := apply_own_rule opts (fun d => d.Extends ∧ d.blocks = c.blocks) ?_ ?_ ents c
    (fun _ kept => ⟨kept.1.congr rfl rfl rfl rfl, kept.2⟩) increasing own ⟨extending, rfl⟩
  · exact kept.2
  · rintro d entry running idle ⟨extending, blocks⟩
    obtain ⟨next, same, _⟩ := extending.applyEntry_idle opts running idle
    exact ⟨next, same.trans blocks⟩
  · rintro d index block membership rest running fresh raft ⟨extending, blocks⟩
    obtain ⟨next, same, _⟩ := extending.applyEntry_own opts membership running fresh raft
    exact ⟨next, same.trans blocks⟩

end Chain

/-- The transactions that have left the block cutter and are not in a block yet. -/
def Pipeline.leaving (pipeline : Pipeline) : List Envelope :=
  pipeline.commitC.flatten.flatten ++ (pipeline.sending.getD []).flatten

/-- The data of the blocks in the ledger that the node did not propose as the current leader. After a
restart these are all blocks. -/
def Event.brought (opts : Options) (c : Chain) : Event → List (List Envelope)
  | .applyC app =>
    if (c.applySoft opts app).Accepting opts then []
    else (app.entries.filterMap Entry.block).map Block.data
  | .snapC _ pulled => pulled
  | .restart _ => c.ledger.blocks.map Block.data
  | _ => []

/-- The transaction that `ProcessEnvMsg` processes, with the order of its loops. -/
def Event.arrival (c : Chain) : Event → Option (RangeOrder RangeSite × GVNode)
  | .processEnvMsg order _ =>
    ((c.processing.bind EnvMsg.env).bind processEnvForBC).map fun choosed => (order, choosed)
  | _ => none

/-- A condition on the order of the loops, the graph and the arriving node, as a condition on an event. -/
def Event.Allows (condition : RangeOrder RangeSite → TxConsensusGraph → GVNode → Prop) (c : Chain)
    (event : Event) : Prop :=
  ∀ order choosed, event.arrival c = some (order, choosed) → condition order c.receiver.tcg choosed

instance (condition : RangeOrder RangeSite → TxConsensusGraph → GVNode → Prop)
    [∀ order graph choosed, Decidable (condition order graph choosed)] (c : Chain) (event : Event) :
    Decidable (event.Allows condition c) :=
  decidable_of_iff (∀ arrival ∈ event.arrival c, condition arrival.1 c.receiver.tcg arrival.2)
    ⟨fun all order choosed => all (order, choosed), fun all arrival => all arrival.1 arrival.2⟩

/-- An envelope that arrives is decoded. -/
theorem Event.arrival_decodes {c : Chain} {event : Event} {order : RangeOrder RangeSite} {choosed : GVNode}
    (received : event.arrival c = some (order, choosed)) : processEnvForBC choosed.txResult = some choosed := by
  cases event with
  | processEnvMsg given batchSize =>
    obtain ⟨gnode, found, same⟩ := map_eq_some_iff.mp received
    obtain ⟨env, _, decoded⟩ := bind_eq_some_iff.mp found
    cases same
    rw [(processEnvForBC_origin decoded).1]
    exact decoded
  | _ => cases received

/-- The batches of a config message are the ready transactions and the message itself. -/
theorem Chain.configBatches_eq (c : Chain) (payload : Envelope) : ∃ first,
    c.configBatches payload = first ++ [[payload]] ∧ first.flatten = c.receiver.tcg.readyBatch := by
  refine ⟨_, rfl, ?_⟩
  show (if c.receiver.tcg.readyBatch.length ≠ 0 then [c.receiver.tcg.readyBatch] else []).flatten = _
  split
  · exact flatten_singleton
  · rename_i empty
    rw [length_eq_zero_iff.mp (not_not.mp empty)]
    rfl

/-- A block that was proposed is refused by raft. -/
def Event.Fails : Event → Prop
  | .proposeFails => True
  | _ => False

instance (event : Event) : Decidable event.Fails := by
  unfold Event.Fails
  split <;> infer_instance

/-- The batches in `CommitC` are received only by a leader that accepts requests, or by a node without a block
creator, which panics, and raft refuses no block. -/
def Chain.Steady (opts : Options) (c : Chain) (event : Event) : Prop :=
  (event.Delivers → c.Accepting opts ∨ c.bc = none) ∧ ¬ event.Fails

instance (opts : Options) (c : Chain) (event : Event) : Decidable (c.Steady opts event) :=
  inferInstanceAs (Decidable ((_ → _) ∧ ¬ _))

/-- Nothing that has left the block cutter is lost or overtaken: the step is steady, `serveRequest` cuts only
while no message waits for the block cutter or is in work, a config message does not overtake batches in
`CommitC`, and the leadership is lost only while nothing is ready and no block is in flight. -/
def Chain.Coherent (opts : Options) (c : Chain) (event : Event) : Prop :=
  c.Steady opts event ∧
    (event.Configures opts c → c.queued = [] ∧ (c.leaving = [] ∨ c.receiver.tcg.readyBatch = [])) ∧
    (event.Deposes opts c → c.queued = [] ∧ c.receiver.tcg.readyBatch = [] ∧ c.inFlight = [])

instance (opts : Options) (c : Chain) (event : Event) : Decidable (c.Coherent opts event) :=
  inferInstanceAs (Decidable (_ ∧ (_ → _) ∧ (_ → _)))

/-- What one steady step does to the graph, to the transactions that are leaving, and to the blocks. -/
inductive Chain.Flow (opts : Options) (c : Chain) (event : Event) (next : Chain) : Prop where
  | still (graph : next.receiver.tcg = c.receiver.tcg) (leaving : next.leaving = c.leaving)
      (blocks : next.blocks = c.blocks)
  | arrives (order : RangeOrder RangeSite) (choosed : GVNode) (final : TxConsensusGraph)
      (received : event.arrival c = some (order, choosed))
      (processed : processTX order c.receiver.tcg.nodes.size (c.receiver.tcg.newNode choosed) = some final)
      (result : next.receiver.tcg = final ∧ next.leaving = c.leaving ∨
        next.receiver.tcg = flush final ∧ next.leaving = c.leaving ++ final.readyBatch)
      (blocks : next.blocks = c.blocks)
  | cuts (graph : next.receiver.tcg = flush c.receiver.tcg)
      (leaving : next.leaving = c.leaving ++ c.receiver.tcg.readyBatch) (blocks : next.blocks = c.blocks)
  | places (batches : List (List Envelope)) (graph : next.receiver.tcg = c.receiver.tcg)
      (leaving : c.leaving = batches.flatten ++ next.leaving)
      (blocks : next.blocks = c.blocks ++ blocksOf c.blocks.length batches)
  | configures (payload : Envelope) (config : isConfig payload = some true) (configured : event.Configures opts c)
      (graph : next.receiver.tcg = flush c.receiver.tcg) (leaving : next.leaving = c.leaving)
      (blocks : next.blocks = c.blocks ++ blocksOf c.blocks.length (c.configBatches payload))
  | grows (written : List Block) (foreign : ∀ block ∈ written, block.data ∈ event.brought opts c)
      (graph : next.receiver.tcg = c.receiver.tcg) (leaving : next.leaving = c.leaving)
      (blocks : next.blocks = c.blocks ++ written)
  | loses (written : List Block) (foreign : ∀ block ∈ written, block.data ∈ event.brought opts c)
      (lost : event.Deposes opts c) (graph : next.receiver.tcg = flush c.receiver.tcg)
      (leaving : next.leaving = c.leaving) (blocks : next.blocks = c.ledger.blocks ++ written)
  | resets (graph : next.receiver.tcg = TxConsensusGraph.initial) (leaving : next.leaving = [])
      (foreign : ∀ block ∈ next.blocks, block.data ∈ event.brought opts c)

/-- The blocks that one steady step creates. -/
inductive Chain.Creates (opts : Options) (c : Chain) (event : Event) (next : Chain) : Prop where
  | none (created : next.created = c.created)
  | delivered (batches : List (List Envelope)) (rest : List Envelope) (made : List Created)
      (running : c.Running) (extending : c.Extends)
      (leaving : c.leaving = batches.flatten ++ rest)
      (part : made <+: recordsOf c.blocks batches)
      (created : next.created = c.created ++ made)
  | configured (payload : Envelope) (config : isConfig payload = some true) (made : List Created)
      (serving : c.Serving) (extending : c.Extends)
      (configured : event.Configures opts c)
      (part : made <+: recordsOf c.blocks (c.configBatches payload))
      (created : next.created = c.created ++ made)

/-- What the blocks of a leader keep along steady steps. -/
structure Chain.Lined (opts : Options) (c : Chain) : Prop where
  led : Led opts c.toRole c.toProposals
  proposing : c.proposing = true ↔ c.soft.lead = opts.raftID
  extending : c.Running → c.Accepting opts → c.Extends
  idle : c.Running → ¬ c.Accepting opts → c.inFlight = []

namespace Chain.Lined

variable {opts : Options} {c next : Chain}

theorem initial (opts : Options) (ledger : Ledger) (appliedIndex sequence : Nat) :
    (newChain ledger appliedIndex sequence).Lined opts where
  led := .initial opts ledger appliedIndex sequence
  proposing := ⟨nofun, fun leads => absurd leads.symm opts.raftID_ne_none⟩
  extending _ accepting := absurd accepting.1.symm opts.raftID_ne_none
  idle _ _ := rfl

/-- A step that leaves the role and the blocks alone. -/
theorem frame (lined : c.Lined opts) (led : Led opts next.toRole next.toProposals) (soft : next.soft = c.soft)
    (elected : next.justElected = c.justElected) (proposing : next.proposing = c.proposing)
    (channel : next.propC = c.propC) (creator : next.bc = c.bc) (raft : next.raft = c.raft)
    (ledger : next.ledger = c.ledger) (running : c.Running) : next.Lined opts ∧ next.blocks = c.blocks := by
  have blocks := blocks_congr proposing channel raft ledger
  refine ⟨⟨led, ?_, ?_, ?_⟩, blocks⟩
  · rw [proposing, soft]
    exact lined.proposing
  · unfold Role.Accepting
    rw [soft, elected]
    exact fun _ accepting => (lined.extending running accepting).congr proposing channel creator blocks
  · unfold Role.Accepting
    rw [soft, elected, inFlight, proposing, channel, raft]
    exact fun _ other => lined.idle running other

/-- The end of the apply case starts to accept requests only when no block is in flight. -/
theorem accepts (lined : c.Lined opts) (accepts : Accepts opts c next) :
    next.Lined opts ∧ next.blocks = c.blocks := by
  have led := lined.led.accepts accepts
  cases accepts with
  | unchanged => exact ⟨lined, rfl⟩
  | starts elected =>
    refine ⟨⟨led, lined.proposing, ?_, ?_⟩, rfl⟩
    · intro running accepting
      have empty := lined.idle running fun before => by
        rw [before.2] at elected
        cases elected
      have blocks : c.blocks = c.ledger.blocks := by rw [Chain.blocks, empty, append_nil]
      refine ⟨lined.proposing.mpr accepting.1, lined.led.channel accepting.1, ⟨_, rfl, ?_⟩, ?_⟩
      · show c.lastBlock.number + 1 = c.blocks.length
        rw [blocks]
        exact c.ledger.lastBlock_number
      · show c.blocks.map Block.number = range c.blocks.length
        rw [blocks]
        exact c.ledger.numbered
    · intro running _
      exact lined.idle running fun before => by
        rw [before.2] at elected
        cases elected
  | closes =>
    exact ⟨⟨led, lined.proposing, fun running accepting =>
      (lined.extending running accepting).congr rfl rfl rfl rfl, lined.idle⟩, rfl⟩
  | opens =>
    exact ⟨⟨led, lined.proposing, fun running accepting =>
      (lined.extending running accepting).congr rfl rfl rfl rfl, lined.idle⟩, rfl⟩

theorem softChange {app : Apply} (lined : c.Lined opts) (running : c.Running) (soft : SoftChange opts c app next) :
    next.Lined opts ∧ (next.blocks = c.blocks ∧ next.receiver = c.receiver ∨
      (Event.applyC app).Deposes opts c ∧ next.blocks = c.ledger.blocks ∧
        next.receiver = (cut c.receiver).2) := by
  have led := lined.led.softChange soft
  cases soft with
  | keeps soft leader same =>
    refine ⟨⟨led, lined.proposing.trans same.symm, ?_, ?_⟩, .inl ⟨rfl, rfl⟩⟩
    · intro running accepting
      exact (lined.extending running ⟨same.mp accepting.1, accepting.2⟩).congr rfl rfl rfl rfl
    · intro running other
      exact lined.idle running fun before => other ⟨same.mpr before.1, before.2⟩
  | gains soft leader was leads =>
    have blocks : c.inFlight = [] := lined.idle running fun before => was before.1
    refine ⟨⟨led, ⟨fun _ => leads, fun _ => rfl⟩, fun _ accepting => Bool.noConfusion accepting.2,
      fun _ _ => rfl⟩, .inl ⟨?_, rfl⟩⟩
    show c.ledger.blocks ++ [] = c.blocks
    rw [Chain.blocks, blocks]
  | loses soft leader received was follows =>
    refine ⟨⟨led, ⟨nofun, fun leads => absurd leads follows⟩, fun _ accepting => absurd accepting.1 follows,
      fun _ _ => rfl⟩, .inr ⟨⟨was, soft, received, follows⟩, append_nil _, rfl⟩⟩

/-- An accepting leader applies its own blocks, and every other node applies the blocks of the leader. -/
theorem apply {ents : List Entry} (lined : c.Lined opts) (running : c.Running)
    (increasing : ents.Pairwise fun first second => first.index < second.index)
    (own : c.Accepting opts → freshBlocks ents c.appliedIndex <+: c.raft) :
    (c.apply opts ents).Lined opts ∧ ∃ written, (c.apply opts ents).blocks = c.blocks ++ written ∧
      (c.Accepting opts → written = []) ∧ ∀ block ∈ written, ∃ entry ∈ ents, entry.block = some block := by
  have role := apply_toRole opts ents c
  have proposals := apply_toProposals opts ents c
  have led : Led opts (c.apply opts ents).toRole (c.apply opts ents).toProposals := by
    rw [role, proposals]
    exact lined.led
  by_cases accepting : c.Accepting opts
  · have extending := lined.extending running accepting
    have blocks := extending.apply_own opts increasing (own accepting)
    refine ⟨⟨led, ?_, ?_, ?_⟩, [], by rw [blocks, append_nil], fun _ => rfl, by simp⟩
    · rw [role]
      exact lined.proposing
    · exact fun _ _ => extending.congr (by rw [role]) (by rw [proposals]) (by rw [proposals]) blocks
    · rw [role]
      exact fun _ other => absurd accepting other
  · have empty : (c.apply opts ents).inFlight = [] := by
      have before := lined.idle running accepting
      unfold inFlight at before ⊢
      rw [role, proposals]
      split at before
      · rename_i proposing
        obtain ⟨raft, queue⟩ := append_eq_nil_iff.mp before
        rw [if_pos proposing, apply_raft_nil opts ents raft, queue]
        rfl
      · rename_i proposing
        rw [if_neg proposing]
    obtain ⟨written, ledger, origin⟩ := apply_writes opts ents c
    refine ⟨⟨led, ?_, ?_, ?_⟩, written, ?_, fun yes => absurd yes accepting, origin⟩
    · rw [role]
      exact lined.proposing
    · rw [role]
      exact fun _ yes => absurd yes accepting
    · exact fun _ _ => empty
    · rw [Chain.blocks, empty, ledger, Chain.blocks, lined.idle running accepting, append_nil, append_nil]

/-- The leader proposes batches that extend the chain. -/
theorem propose (lined : c.Lined opts) (running : c.Running) (accepting : c.Accepting opts)
    (batches : List (List Envelope)) :
    (c.propose opts batches).Lined opts ∧ ((c.propose opts batches).Running →
      (c.propose opts batches).blocks = c.blocks ++ blocksOf c.blocks.length batches) := by
  obtain ⟨_, _, _, continues⟩ := (lined.extending running accepting).propose opts running batches
  refine ⟨⟨lined.led.propose batches, ?_, fun alive _ => (continues alive).1, ?_⟩, fun alive => (continues alive).2.1⟩
  · rw [propose_toRole]
    exact lined.proposing
  · rw [propose_toRole]
    exact fun _ other => absurd accepting other

theorem pause (lined : c.Lined opts) : (c.pause opts).Lined opts ∧ (c.pause opts).blocks = c.blocks ∧
    ((c.pause opts).Running → c.Running) := by
  have led := lined.led.pause
  rcases pause_cases opts c with same | same <;> rw [same] at led ⊢
  · exact ⟨lined, rfl, id⟩
  · exact ⟨⟨led, lined.proposing, fun running accepting =>
      (lined.extending running accepting).congr rfl rfl rfl rfl, lined.idle⟩, rfl, id⟩

theorem step {event : Event} (steady : c.Steady opts event) (lined : c.Lined opts)
    (stepped : c.step opts event = some next) : next.Lined opts ∧ (next.Running → c.Flow opts event next) := by
  obtain ⟨delivers, lossless⟩ := steady
  have led := lined.led.step stepped
  cases step_cases stepped with
  | commits raftbatches rest serving queued =>
    have started : ({ c with commitC := rest }.stopTimer).Lined opts ∧ _ :=
      lined.frame lined.led rfl rfl rfl rfl rfl rfl rfl serving.1
    rcases delivers trivial with accepting | creator
    · obtain ⟨kept, blocks⟩ := started.1.propose serving.1 accepting raftbatches
      refine ⟨kept, fun running => .places raftbatches ?_ ?_ (blocks running)⟩
      · rw [propose_toPipeline]
        rfl
      · rw [propose_toPipeline, leaving, queued, flatten_cons, flatten_append, append_assoc]
        rfl
    · have panics := (propose_nil opts (c := { c with commitC := rest }.stopTimer) serving.1 creator raftbatches).2
      cases raftbatches with
      | nil =>
        obtain ⟨kept, blocks⟩ := lined.frame led rfl rfl rfl rfl rfl rfl rfl serving.1
        refine ⟨kept, fun _ => .still rfl ?_ blocks⟩
        rw [propose_toPipeline, leaving, leaving, queued, flatten_cons]
        rfl
      | cons batch others =>
        refine ⟨⟨led, ?_, fun running => (nomatch panics running), fun running => (nomatch panics running)⟩,
          fun running => nomatch panics running⟩
        rw [propose_toRole]
        exact lined.proposing
  | skips => exact ⟨lined, fun _ => .still rfl rfl rfl⟩
  | rejects => exact ⟨⟨led, lined.proposing, nofun, nofun⟩, nofun⟩
  | configures msg support payload serving isOpen leads config =>
    have started : ({ c with receiver := (cut c.receiver).2 }.stopTimer).Lined opts ∧ _ :=
      lined.frame lined.led rfl rfl rfl rfl rfl rfl rfl serving.1
    obtain ⟨proposed, blocks⟩ := started.1.propose serving.1 (lined.led.accepting leads isOpen)
      (c.configBatches payload)
    obtain ⟨kept, same, alive⟩ := proposed.pause
    obtain ⟨submitted, ordered⟩ := ordered_config config
    refine ⟨kept, fun running => .configures payload ordered ⟨leads, submitted⟩ ?_ ?_
      (same.trans (blocks (alive running)))⟩
    · rw [pause_toPipeline, propose_toPipeline]
      rfl
    · rw [pause_toPipeline, propose_toPipeline]
      rfl
  | accepts msg support env serving =>
    obtain ⟨kept, blocks⟩ := lined.frame led rfl rfl rfl rfl rfl rfl rfl serving.1
    exact ⟨kept, fun _ => .still rfl rfl blocks⟩
  | applies app changed serving handled soft increasing own =>
    obtain ⟨first, moved⟩ := lined.softChange serving.1 soft
    have running : changed.Running := by cases soft <;> exact serving.1
    rw [← soft.kept.1] at own
    obtain ⟨second, written, longer, none, origin⟩ := first.apply running increasing own
    obtain ⟨third, last⟩ := second.accepts (acceptRequests_cases opts app.lastIndex _)
    have pipeline : ((changed.apply opts app.entries).acceptRequests opts app.lastIndex).toPipeline =
        changed.toPipeline := by rw [acceptRequests_toPipeline, apply_toPipeline]
    have leaving : changed.leaving = c.leaving := by
      rcases soft.pipeline with same | ⟨_, same⟩ <;> rw [same]
      rfl
    have foreign : ∀ block ∈ written, block.data ∈ (Event.applyC app).brought opts c := by
      intro block listed
      rw [Event.brought, handled, if_neg fun accepting => by rw [none accepting] at listed; cases listed]
      obtain ⟨entry, member, found⟩ := origin block listed
      exact mem_map_of_mem (mem_filterMap.mpr ⟨entry, member, found⟩)
    refine ⟨third, fun _ => ?_⟩
    rcases moved with ⟨same, receiver⟩ | ⟨lost, same, receiver⟩
    · refine .grows written foreign ?_ ?_ ?_
      · rw [pipeline, receiver]
      · rw [pipeline, leaving]
      · rw [last, longer, same]
    · refine .loses written foreign lost ?_ ?_ ?_
      · rw [pipeline, receiver]
        rfl
      · rw [pipeline, leaving]
      · rw [last, longer, same]
  | expires serving =>
    obtain ⟨kept, blocks⟩ := lined.frame led rfl rfl rfl rfl rfl rfl rfl serving.1
    exact ⟨kept, fun _ => .still rfl rfl blocks⟩
  | catchesUp index pulled serving follows =>
    obtain ⟨pipeline, role, proposals, _, _⟩ := onSnapC_frame index pulled c
    obtain ⟨written, ledger, origin⟩ := onSnapC_writes index pulled c
    have stopped : c.proposing = false := Bool.eq_false_iff.mpr fun proposing => follows (lined.proposing.mp proposing)
    have empty : (c.onSnapC index pulled).inFlight = [] := by
      rw [inFlight, role, stopped]
      rfl
    refine ⟨⟨led, ?_, ?_, fun _ _ => empty⟩, fun _ => .grows written origin ?_ ?_ ?_⟩
    · rw [role]
      exact lined.proposing
    · rw [role]
      exact fun _ accepting => absurd accepting.1 follows
    · rw [pipeline]
    · rw [pipeline]
    · rw [Chain.blocks, empty, ledger, Chain.blocks, inFlight, stopped, append_nil]
      exact congrArg (· ++ written) (append_nil _).symm
  | sends msg running blocked room =>
    have started : ({ c with raftEnvMsgC := c.raftEnvMsgC ++ [msg], blocked := none } : Chain).Lined opts ∧ _ :=
      lined.frame lined.led rfl rfl rfl rfl rfl rfl rfl running
    have ticking : ({ c with raftEnvMsgC := c.raftEnvMsgC ++ [msg], blocked := none }.startTimer).Lined opts ∧ _ :=
      lined.frame lined.led rfl rfl rfl rfl rfl rfl rfl running
    unfold onSent
    split
    · obtain ⟨kept, same, _⟩ := ticking.1.pause
      refine ⟨kept, fun _ => .still ?_ ?_ same⟩ <;> rw [pause_toPipeline] <;> rfl
    · exact ⟨started.1, fun _ => .still rfl rfl started.2⟩
  | takes msg rest running =>
    obtain ⟨kept, blocks⟩ := lined.frame led rfl rfl rfl rfl rfl rfl rfl running
    exact ⟨kept, fun _ => .still rfl rfl blocks⟩
  | receives order batchSize env choosed final receiver batches running idle taken decoded processed result =>
    obtain ⟨kept, blocks⟩ := lined.frame led rfl rfl rfl rfl rfl rfl rfl running
    have received : (Event.processEnvMsg order batchSize).arrival c = some (order, choosed) := by
      simp [Event.arrival, taken, decoded]
    refine ⟨kept, fun _ => .arrives order choosed final received processed ?_ blocks⟩
    unfold leaving
    rw [idle]
    rcases result with ⟨none, graph⟩ | ⟨one, graph⟩
    · exact .inl ⟨graph, by rw [none]⟩
    · refine .inr ⟨graph, ?_⟩
      rw [one, getD_some, getD_none, flatten_singleton, flatten_nil, append_nil]
  | crashes => exact ⟨⟨led, lined.proposing, nofun, nofun⟩, nofun⟩
  | cuts order batchSize batches running idle taken result =>
    obtain ⟨kept, blocks⟩ := lined.frame led rfl rfl rfl rfl rfl rfl rfl running
    refine ⟨kept, fun _ => .cuts rfl ?_ blocks⟩
    unfold leaving
    rw [idle]
    rcases result with ⟨none, empty⟩ | one
    · rw [none, empty, append_nil]
    · rw [one.1, getD_some, getD_none, flatten_singleton, flatten_nil, append_nil]
  | forwards batches running sending =>
    obtain ⟨kept, blocks⟩ := lined.frame led rfl rfl rfl rfl rfl rfl rfl running
    refine ⟨kept, fun _ => .still rfl ?_ blocks⟩
    unfold leaving
    rw [sending, getD_some, getD_none, flatten_append, flatten_append,
      flatten_singleton, flatten_nil, append_nil]
  | proposes block rest running proposing queued =>
    have blocks : ({ c with raft := c.raft ++ [block], propC := some rest } : Chain).blocks = c.blocks := by
      rw [blocks_of_proposing (c := { c with raft := c.raft ++ [block], propC := some rest }) proposing rfl,
        blocks_of_proposing proposing queued, append_assoc, singleton_append]
    refine ⟨⟨led, lined.proposing, ?_, ?_⟩, fun _ => .still rfl rfl blocks⟩
    · intro _ accepting
      have extending := lined.extending running accepting
      exact ⟨proposing, rfl, by rw [blocks]; exact extending.creator, by rw [blocks]; exact extending.numbered⟩
    · intro _ other
      have empty := lined.idle running other
      rw [inFlight, if_pos proposing, queued, getD_some] at empty
      simp at empty
  | fails => exact absurd trivial lossless
  | restarts appliedIndex =>
    have fresh := initial opts c.ledger appliedIndex c.sequence
    refine ⟨⟨led, fresh.proposing, fun running accepting => ?_, fun _ _ => rfl⟩, fun _ => .resets rfl rfl ?_⟩
    · exact absurd accepting.1.symm opts.raftID_ne_none
    · intro block listed
      exact mem_map_of_mem ((append_nil c.ledger.blocks) ▸ listed)

theorem creates {event : Event} (steady : c.Steady opts event) (lined : c.Lined opts)
    (stepped : c.step opts event = some next) : c.Creates opts event next := by
  obtain ⟨delivers, _⟩ := steady
  cases step_cases stepped with
  | commits raftbatches rest serving queued =>
    rcases delivers trivial with accepting | creator
    · have extending := lined.extending serving.1 accepting
      have started : ({ c with commitC := rest }.stopTimer).Extends := extending.congr rfl rfl rfl rfl
      obtain ⟨made, part, created, _⟩ := started.propose opts serving.1 raftbatches
      refine .delivered raftbatches (rest.flatten.flatten ++ (c.sending.getD []).flatten) made serving.1 extending
        ?_ part created
      rw [leaving, queued, flatten_cons, flatten_append, append_assoc]
    · exact .none (propose_nil opts (c := { c with commitC := rest }.stopTimer) serving.1 creator raftbatches).1
  | configures msg support payload serving isOpen leads config =>
    have extending := lined.extending serving.1 (lined.led.accepting leads isOpen)
    have started : ({ c with receiver := (cut c.receiver).2 }.stopTimer).Extends :=
      extending.congr rfl rfl rfl rfl
    obtain ⟨made, part, created, _⟩ := started.propose opts serving.1 (c.configBatches payload)
    obtain ⟨submitted, ordered⟩ := ordered_config config
    refine .configured payload ordered made serving extending ⟨leads, submitted⟩ part ?_
    rw [pause_created]
    exact created
  | applies app changed serving handled soft =>
    refine .none ?_
    rw [acceptRequests_created, apply_toProposals]
    exact soft.kept.2.2
  | catchesUp index pulled =>
    refine .none ?_
    rw [(onSnapC_frame index pulled c).2.2.1]
  | sends msg => exact .none (onSent_frame opts msg c).2
  | skips | rejects | accepts | expires | takes | receives | crashes | cuts | forwards | proposes | fails | restarts =>
    exact .none rfl

end Chain.Lined

end Pobl.Etcdraft
