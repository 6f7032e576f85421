import Pobl.Proof.Chain.Steps

namespace Pobl.Etcdraft

open Library Protos Partialorder BlockCutter Chain List

variable {blocks : List Block} {index : Nat} {block : Block}

section

variable (numbered : blocks.map Block.number = range blocks.length)

include numbered

/-- The blocks of a chain are numbered from 0 on. -/
theorem number_of_numbered (found : blocks[index]? = some block) : block.number = index := by
  have inside : index < blocks.length := (List.getElem?_eq_some_iff.mp found).1
  have same := congrArg (fun numbers => numbers[index]?) numbered
  simp only [List.getElem?_map, found, Option.map_some, List.getElem?_range inside] at same
  exact Option.some.inj same

theorem number_lt_of_numbered (member : block ∈ blocks) : block.number < blocks.length := by
  have listed : block.number ∈ blocks.map Block.number := mem_map_of_mem member
  rw [numbered] at listed
  exact mem_range.mp listed

theorem numbered_append (data : List Envelope) : (blocks ++ [Block.mk blocks.length data]).map Block.number =
      range (blocks ++ [Block.mk blocks.length data]).length := by
  rw [map_append, numbered, length_append, length_singleton, range_succ]
  rfl

end

theorem Ledger.lastBlock_number (ledger : Ledger) : ledger.lastBlock.number + 1 = ledger.blocks.length := by
  have positive := length_pos_of_ne_nil ledger.nonempty
  have last : ledger.blocks[ledger.blocks.length - 1]? = some ledger.lastBlock := by
    rw [← List.getLast?_eq_getElem?]
    exact List.getLast?_eq_some_getLast ledger.nonempty
  rw [number_of_numbered ledger.numbered last]
  omega

namespace Chain

variable {c : Chain}

/-- An invariant of `createNextBlock` and the send after it holds after `propose`. -/
theorem propose_rule (opts : Options) (invariant : Chain → Prop) (batches : List (List Envelope)) (c : Chain)
    (enters : invariant
    { c with entered := c.entered ++ [⟨decide (c.soft.lead = opts.raftID), c.bc.isSome⟩] })
    (preserved : ∀ c, ∀ batch ∈ batches, invariant c → invariant (proposeBatch opts c batch)) :
    invariant (propose opts batches c) :=
  foldl_invariant (proposeBatch opts) invariant batches preserved _ enters

/-- The next block is created and sent while the channel has room. -/
theorem proposeBatch_room (opts : Options) {bc : BlockCreator} {queue : List Block} (batch : List Envelope)
    (running : c.Running) (creator : c.bc = some bc) (channel : c.propC = some queue)
    (room : queue.length < opts.maxInflightBlocks) :
    proposeBatch opts c batch =
    { c with
        bc := some ⟨bc.number + 1⟩
        created := c.created ++ [⟨c.blocks, ⟨bc.number + 1, batch⟩⟩]
        propC := some (queue ++ [⟨bc.number + 1, batch⟩])
        configInflight := c.configInflight || isConfigBlock ⟨bc.number + 1, batch⟩
        blockInflight := c.blockInflight + 1 } := by
  have alive : c.panicked.isSome = false := by rw [running]; rfl
  simp only [proposeBatch, alive, Bool.false_eq_true, if_false, creator, createNextBlock, channel, room, if_true]

section Apply

variable (opts : Options) {entry : Entry}

/-- The entry brings a block that is not applied yet. -/
def Fresh (c : Chain) (entry : Entry) : Prop := entry.block.isSome ∧ c.appliedIndex < entry.index

theorem applyEntry_stopped (entry : Entry) (stopped : ¬ c.Running) : applyEntry opts c entry = c :=
  if_pos (Option.isSome_iff_ne_none.mpr stopped)

theorem applyEntry_appliedIndex (entry : Entry) (running : c.Running) :
    (applyEntry opts c entry).appliedIndex = max c.appliedIndex entry.index := by
  unfold applyEntry
  rw [running, Option.isSome_none, if_neg Bool.false_ne_true]
  split
  · rfl
  · split
    · rfl
    · rename_i index block membership _
      have writes := writeBlock_cases c block membership
      generalize c.writeBlock block membership = next at writes
      cases writes <;> rfl
  · dsimp only
    split <;> split <;> rfl

/-- What an entry without a new block leaves alone. -/
theorem applyEntry_idle (running : c.Running) (idle : ¬ c.Fresh entry) :
    (applyEntry opts c entry).raft = c.raft ∧ (applyEntry opts c entry).ledger = c.ledger ∧
    (applyEntry opts c entry).blockInflight = c.blockInflight ∧
    (applyEntry opts c entry).sequence = c.sequence ∧ (applyEntry opts c entry).panicked = none := by
  have alive : ¬ c.panicked.isSome = true := by
    rw [running]
    exact Bool.false_ne_true
  unfold applyEntry
  rw [if_neg alive]
  split
  · exact ⟨rfl, rfl, rfl, rfl, running⟩
  · rename_i index block membership
    have old : index ≤ c.appliedIndex := Nat.le_of_not_lt fun fresh => idle ⟨rfl, fresh⟩
    rw [if_pos old]
    exact ⟨rfl, rfl, rfl, rfl, running⟩
  · dsimp only
    split <;> split <;> exact ⟨rfl, rfl, rfl, rfl, running⟩

theorem applyEntry_fresh (block : Block) (membership : Option ConfChange) (running : c.Running)
    (fresh : c.appliedIndex < index) :
    applyEntry opts c (.normal index (some block) membership) =
    { (c.writeBlock block membership).advance index with raft := c.raft.erase block } := by
  unfold applyEntry
  rw [running, Option.isSome_none, if_neg Bool.false_ne_true]
  dsimp only
  rw [if_neg (Nat.not_le_of_lt fresh)]

theorem freshBlocks_advance {ents : List Entry} {appliedIndex : Nat} (later : ∀ entry ∈ ents, index < entry.index) :
    freshBlocks ents (max appliedIndex index) = freshBlocks ents appliedIndex := by
  unfold freshBlocks
  congr 1
  apply filter_congr
  intro entry listed
  have below := later entry listed
  rw [decide_eq_decide]
  omega

/-- The rule for `apply`. An entry leaves the blocks alone or brings the next one. -/
theorem apply_rule (invariant : Chain → Prop) (ents : List Entry) (c : Chain)
    (stops : ∀ c, invariant c → invariant { c with panicked := some .firstIndex })
    (idle : ∀ c entry, c.Running → ¬ c.Fresh entry → invariant c → invariant (applyEntry opts c entry))
    (writes : ∀ c index block membership, .normal index (some block) membership ∈ ents → c.Running →
      c.appliedIndex < index → invariant c → invariant (applyEntry opts c (.normal index (some block) membership)))
    (holds : invariant c) : invariant (c.apply opts ents) := by
  unfold apply
  split
  · exact holds
  · split
    · exact stops c holds
    · refine foldl_invariant _ invariant _ ?_ c holds
      intro c entry listed holds
      by_cases running : c.Running
      · by_cases fresh : c.Fresh entry
        · cases entry with
          | normal index block membership =>
            obtain ⟨block, rfl⟩ := Option.isSome_iff_exists.mp fresh.1
            exact writes c index block membership listed running fresh.2 holds
          | confChange => cases fresh.1
        · exact idle c entry running fresh holds
      · rwa [applyEntry_stopped opts entry running]

theorem freshBlocks_cons_fresh {membership : Option ConfChange} (rest : List Entry) (fresh : c.appliedIndex < index) :
    freshBlocks (.normal index (some block) membership :: rest) c.appliedIndex =
      block :: freshBlocks rest c.appliedIndex := by
  have above : decide (c.appliedIndex < (Entry.normal index (some block) membership).index) = true :=
    decide_eq_true fresh
  unfold freshBlocks
  rw [filter_cons, if_pos above]
  rfl

theorem freshBlocks_cons_idle (rest : List Entry) (idle : ¬ c.Fresh entry) :
    freshBlocks (entry :: rest) c.appliedIndex = freshBlocks rest c.appliedIndex := by
  unfold freshBlocks
  rw [filter_cons]
  split
  · rename_i above
    rw [filterMap_cons_none]
    exact Option.not_isSome_iff_eq_none.mp fun some => idle ⟨some, of_decide_eq_true above⟩
  · rfl

section Own

variable (invariant : Chain → Prop)
  (idle : ∀ c entry, c.Running → ¬ c.Fresh entry → invariant c → invariant (applyEntry opts c entry))
  (writes : ∀ c index block membership rest, c.Running → c.appliedIndex < index →
    c.raft = block :: rest → invariant c → invariant (applyEntry opts c (.normal index (some block) membership)))

include idle writes

/-- The entries that are left stay a part of the blocks in raft as long as the process runs. -/
theorem foldl_applyEntry_own (ents : List Entry) (c : Chain)
    (increasing : ents.Pairwise fun first second => first.index < second.index)
    (own : c.Running → freshBlocks ents c.appliedIndex <+: c.raft) (holds : invariant c) :
    invariant (ents.foldl (applyEntry opts) c) := by
  induction ents generalizing c with
  | nil => exact holds
  | cons entry rest ih =>
    obtain ⟨later, sorted⟩ := pairwise_cons.mp increasing
    rw [foldl_cons]
    by_cases running : c.Running
    · have own := own running
      have advanced := applyEntry_appliedIndex opts entry running
      by_cases fresh : c.Fresh entry
      · cases entry with
        | normal index block membership =>
          obtain ⟨block, rfl⟩ := Option.isSome_iff_exists.mp fresh.1
          have above : c.appliedIndex < index := fresh.2
          rw [freshBlocks_cons_fresh rest above] at own
          obtain ⟨tail, raft⟩ := own
          rw [cons_append] at raft
          refine ih _ sorted (fun _ => ?_) (writes c index block membership _ running above raft.symm holds)
          rw [advanced, freshBlocks_advance later, applyEntry_fresh opts block membership running above]
          rw [← raft, erase_cons_head]
          exact prefix_append _ _
        | confChange => cases fresh.1
      · refine ih _ sorted (fun _ => ?_) (idle c entry running fresh holds)
        rw [advanced, freshBlocks_advance later, (applyEntry_idle opts running fresh).1]
        rwa [freshBlocks_cons_idle rest fresh] at own
    · rw [applyEntry_stopped opts entry running]
      exact ih c sorted (fun alive => absurd alive running) holds

/-- The rule for `apply` on an accepting leader. It applies its own blocks in their order. -/
theorem apply_own_rule (ents : List Entry) (c : Chain)
    (stops : ∀ c, invariant c → invariant { c with panicked := some .firstIndex })
    (increasing : ents.Pairwise fun first second => first.index < second.index)
    (own : freshBlocks ents c.appliedIndex <+: c.raft) (holds : invariant c) : invariant (c.apply opts ents) := by
  unfold apply
  split
  · exact holds
  · split
    · exact stops c holds
    · exact foldl_applyEntry_own opts invariant idle writes _ c increasing (fun _ => own) holds

end Own

/-- A leader that was just elected has no blocks of its own to apply. -/
theorem apply_raft_nil (ents : List Entry) (none : c.raft = []) : (c.apply opts ents).raft = [] := by
  refine apply_rule opts (fun c => c.raft = []) ents c (fun _ none => none) ?_ ?_ none
  · intro c entry running idle none
    rw [(applyEntry_idle opts running idle).1]
    exact none
  · intro c index block membership _ running fresh none
    rw [applyEntry_fresh opts block membership running fresh]
    rw [none]
    rfl

/-- The blocks that `apply` writes on top of the ledger come from the entries. -/
theorem apply_writes (ents : List Entry) (c : Chain) :
    ∃ written, (c.apply opts ents).ledger.blocks = c.ledger.blocks ++ written ∧
      ∀ block ∈ written, ∃ entry ∈ ents, entry.block = some block := by
  refine apply_rule opts (fun d => ∃ written, d.ledger.blocks = c.ledger.blocks ++ written ∧
    ∀ block ∈ written, ∃ entry ∈ ents, entry.block = some block) ents c (fun _ written => written) ?_ ?_
    ⟨[], (append_nil _).symm, by simp⟩
  · intro d entry running idle written
    rw [(applyEntry_idle opts running idle).2.1]
    exact written
  · rintro d index block membership listed running fresh ⟨written, ledger, origin⟩
    rw [applyEntry_fresh opts block membership running fresh]
    have writes := writeBlock_cases d block membership
    generalize d.writeBlock block membership = next at writes
    cases writes with
    | unexpected => exact ⟨written, ledger, origin⟩
    | ignored => exact ⟨written, ledger, origin⟩
    | written number =>
      refine ⟨written ++ [block], ?_, ?_⟩
      · show d.ledger.blocks ++ [⟨d.ledger.blocks.length, block.data⟩] = _
        rw [← d.ledger.lastBlock_number, show d.ledger.lastBlock.number + 1 = block.number from number.symm,
          ledger, append_assoc]
      · exact forall_mem_append.mpr ⟨origin, forall_mem_singleton.mpr ⟨_, listed, rfl⟩⟩

end Apply

/-- The blocks that a node pulls are those of the puller. -/
theorem onSnapC_writes (index : Nat) (pulled : List (List Envelope)) (c : Chain) :
    ∃ written, (c.onSnapC index pulled).ledger.blocks = c.ledger.blocks ++ written ∧
      ∀ block ∈ written, block.data ∈ pulled := by
  have none : ∃ written : List Block, c.ledger.blocks = c.ledger.blocks ++ written ∧
      ∀ block ∈ written, block.data ∈ pulled := ⟨[], (append_nil _).symm, by simp⟩
  unfold onSnapC
  split
  · exact none
  · refine foldl_invariant catchUpBlock (fun d => ∃ written, d.ledger.blocks = c.ledger.blocks ++ written ∧
      ∀ block ∈ written, block.data ∈ pulled) pulled ?_ _ none
    rintro d data listed ⟨written, ledger, origin⟩
    refine ⟨written ++ [⟨d.ledger.blocks.length, data⟩], ?_, ?_⟩
    · show d.ledger.blocks ++ _ = _
      rw [ledger, append_assoc]
    · exact forall_mem_append.mpr ⟨origin, forall_mem_singleton.mpr listed⟩

end Chain

/-- What holds of the leader in every run: it has a channel to the proposing goroutine, it has a block
creator once it accepts requests, and it accepts none before. -/
structure Led (opts : Options) (role : Role) (proposals : Proposals) : Prop where
  channel : role.soft.lead = opts.raftID → proposals.propC.isSome
  creator : role.Accepting opts → proposals.bc.isSome
  closed : role.soft.lead = opts.raftID → role.justElected = true → role.submitC = false

namespace Led

variable {opts : Options} {c next : Chain}

theorem initial (opts : Options) (ledger : Ledger) (appliedIndex sequence : Nat) :
    Led opts (newChain ledger appliedIndex sequence).toRole (newChain ledger appliedIndex sequence).toProposals :=
  ⟨fun leads => absurd leads.symm opts.raftID_ne_none, fun accepting => absurd accepting.1.symm opts.raftID_ne_none,
    nofun⟩

variable (led : Led opts c.toRole c.toProposals)

include led

theorem accepting (leads : c.soft.lead = opts.raftID) (isOpen : c.submitC = true) : c.Accepting opts := by
  refine ⟨leads, Bool.eq_false_iff.mpr fun elected => ?_⟩
  rw [led.closed leads elected] at isOpen
  cases isOpen

theorem proposeBatch (batch : List Envelope) :
    Led opts (c.proposeBatch opts batch).toRole (c.proposeBatch opts batch).toProposals := by
  rw [(proposeBatch_frame opts c batch).2.1]
  refine ⟨fun leads => ?_, fun accepting => ?_, led.closed⟩
  · have channel := led.channel leads
    unfold Chain.proposeBatch
    split
    · exact channel
    · split
      · exact channel
      · dsimp only
        split
        · exact channel
        · split
          · rfl
          · exact channel
  · have creator := led.creator accepting
    unfold Chain.proposeBatch
    split
    · exact creator
    · split
      · exact creator
      · dsimp only
        split
        · rfl
        · split <;> rfl

theorem propose (batches : List (List Envelope)) :
    Led opts (c.propose opts batches).toRole (c.propose opts batches).toProposals :=
  Chain.propose_rule opts (fun c => Led opts c.toRole c.toProposals) batches c
    { led with } (fun _ batch _ led => led.proposeBatch batch)

theorem pause : Led opts (c.pause opts).toRole (c.pause opts).toProposals := by
  rcases pause_cases opts c with same | same <;> rw [same]
  · exact led
  · exact ⟨led.channel, led.creator, fun _ _ => rfl⟩

theorem softChange {app : Apply}
    (soft : Chain.SoftChange opts c app next) : Led opts next.toRole next.toProposals := by
  cases soft with
  | keeps soft leader same =>
    exact ⟨fun leads => led.channel (same.mp leads), fun accepting => led.creator ⟨same.mp accepting.1, accepting.2⟩,
      fun leads elected => led.closed (same.mp leads) elected⟩
  | gains => exact ⟨fun _ => rfl, fun accepting => Bool.noConfusion accepting.2, fun _ _ => rfl⟩
  | loses soft leader received was follows =>
    exact ⟨fun leads => absurd leads follows, fun accepting => absurd accepting.1 follows,
      fun leads _ => absurd leads follows⟩

theorem accepts (accepts : Chain.Accepts opts c next) : Led opts next.toRole next.toProposals := by
  cases accepts with
  | unchanged => exact led
  | starts => exact ⟨led.channel, fun _ => rfl, fun _ elected => Bool.noConfusion elected⟩
  | closes => exact ⟨led.channel, led.creator, fun _ _ => rfl⟩
  | opens serves =>
    refine ⟨led.channel, led.creator, fun _ elected => ?_⟩
    rw [show c.justElected = true from elected] at serves
    cases serves

theorem step {event : Event} (stepped : c.step opts event = some next) : Led opts next.toRole next.toProposals := by
  cases step_cases stepped with
  | commits =>
    apply Led.propose
    exact led
  | skips => exact led
  | rejects => exact led
  | configures =>
    apply Led.pause
    apply Led.propose
    exact led
  | accepts => exact { led with }
  | applies app changed serving handled soft =>
    refine Led.accepts ?_ (acceptRequests_cases opts app.lastIndex _)
    rw [apply_toRole, apply_toProposals]
    exact led.softChange soft
  | expires => exact led
  | catchesUp index pulled =>
    obtain ⟨_, role, proposals, _⟩ := onSnapC_frame index pulled c
    rw [role, proposals]
    exact led
  | sends msg =>
    unfold onSent
    split
    · apply Led.pause
      exact led
    · exact led
  | takes => exact led
  | receives => exact led
  | crashes => exact led
  | cuts => exact led
  | forwards => exact led
  | proposes => exact ⟨fun _ => rfl, led.creator, led.closed⟩
  | fails => exact ⟨fun _ => rfl, led.creator, led.closed⟩
  | restarts =>
    have fresh := initial opts c.ledger 0 c.sequence
    exact { fresh with }

end Led

end Pobl.Etcdraft
