/-
This file models the etcdraft chain: the loop `serveRequest`, the goroutine `ProcessEnvMsg` of the block
cutter, and the goroutine that hands blocks to raft. A send on a bounded channel is a step of its own.
Indices and numbers stay below 2 ^ 64.
-/

import Pobl.Construction.BlockCutter
import Pobl.Construction.RaftApply

namespace Pobl.Etcdraft

open Library Protos Partialorder BlockCutter

/-- The header and the data of a block. Hashes and metadata are left out. -/
structure Block where
  number : Nat
  data : List Envelope
  deriving DecidableEq, Inhabited

def isConfigHeader (hdr : ChannelHeader) : Bool :=
  hdr.type = .config || hdr.type = .ordererTransaction

/-- The function `isConfig` panics when the envelope has no channel header. -/
def isConfig (env : Envelope) : Option Bool := (channelHeader env).map isConfigHeader

def configChannelHeader (data : List Envelope) : Option ChannelHeader := data.head?.bind channelHeader

/-- The function `utils.IsConfigBlock` looks at the first envelope only. -/
def isConfigBlock (block : Block) : Bool := (configChannelHeader block.data).any isConfigHeader

structure BlockCreator where
  number : Nat
  deriving DecidableEq

def createNextBlock (bc : BlockCreator) (envs : List Envelope) : Block × BlockCreator :=
  (⟨bc.number + 1, envs⟩, ⟨bc.number + 1⟩)

/-- The identifier 0 is `raft.None`, so it does not belong to a node. -/
structure Options where
  raftID : Nat
  maxInflightBlocks : Nat
  raftID_ne_none : raftID ≠ 0

inductive StateType where
  | follower
  | candidate
  | leader
  | preCandidate
  deriving DecidableEq

structure SoftState where
  lead : Nat
  raftState : StateType

def isCandidate (state : StateType) : Bool := state = .preCandidate || state = .candidate

inductive ConfChangeType where
  | addNode
  | removeNode
  deriving DecidableEq

structure ConfChange where
  type : ConfChangeType
  nodeID : Nat
  deriving DecidableEq

/-- A message to the block cutter. Without an envelope it asks for a cut. -/
structure EnvMsg where
  env : Option Envelope
  deriving DecidableEq

structure SubmitRequest where
  payload : Envelope
  lastValidationSeq : Nat

/-- The functions of the consenter support that `ordered` calls, as they behave at one moment.
The message that `ProcessConfigMsg` returns is a config message. -/
structure Support where
  processNormalMsg : Envelope → Except String Nat
  processConfigMsg : Envelope → Except String (Envelope × Nat)
  checkConfigUpdateValidity : Envelope → Option String
  returnsConfig : ∀ env payload seq, processConfigMsg env = .ok (payload, seq) → isConfig payload = some true

inductive Panic where
  | nilBlockCreator
  | inflightLimit
  | unexpectedBlock
  | firstIndex
  | channelHeader
  | nilHeader
  deriving DecidableEq

/-- What is recorded when a block is created: the blocks before it and the block. -/
structure Created where
  chain : List Block
  block : Block
  deriving DecidableEq

structure Entered where
  leading : Bool
  creator : Bool
  deriving DecidableEq

/-- The blocks of a channel, numbered from the genesis block on. -/
structure Ledger where
  blocks : List Block
  nonempty : blocks ≠ []
  numbered : blocks.map Block.number = List.range blocks.length

namespace Ledger

def lastBlock (ledger : Ledger) : Block := ledger.blocks.getLast ledger.nonempty

def append (ledger : Ledger) (data : List Envelope) : Ledger where
  blocks := ledger.blocks ++ [⟨ledger.blocks.length, data⟩]
  nonempty := by simp
  numbered := by simp [ledger.numbered, List.range_succ]

def genesis (data : List Envelope) : Ledger := ⟨[⟨0, data⟩], by simp, rfl⟩

end Ledger

/-- The block cutter and the channels around it. The field `blocked` holds the message that
`serveRequest` is sending. The field `processing` holds the message that `ProcessEnvMsg` has received, and
the field `sending` holds the batches that it is sending. -/
structure Pipeline where
  receiver : Receiver
  raftEnvMsgC : List EnvMsg
  processing : Option EnvMsg
  commitC : List (List (List Envelope))
  sending : Option (List (List Envelope))
  blocked : Option EnvMsg
  ticking : Bool

/-- The role of the node in raft. The field `submitC` tells whether the channel is open. -/
structure Role where
  soft : SoftState
  lastKnownLeader : Nat
  submitC : Bool
  justElected : Bool
  proposing : Bool

/-- The block creator and the channel to the proposing goroutine, with the recorded calls of
`createNextBlock` and `propose`. -/
structure Proposals where
  bc : Option BlockCreator
  propC : Option (List Block)
  created : List Created
  entered : List Entered

/-- The counters that `propose` and `apply` share. -/
structure Counters where
  blockInflight : Nat
  configInflight : Bool
  panicked : Option Panic

/-- What `apply` changes. The blocks that raft has accepted from this leader and that are not applied
yet are recorded in `raft`. -/
structure Applied where
  appliedIndex : Nat
  ledger : Ledger
  sequence : Nat
  confChangeInProgress : Option ConfChange
  raft : List Block

structure Chain extends Pipeline, Role, Proposals, Counters, Applied

def raftEnvMsgCapacity : Nat := 10000

def commitCapacity : Nat := 1000

/-- A new chain on an existing ledger is a follower. -/
def newChain (ledger : Ledger) (appliedIndex sequence : Nat) : Chain where
  receiver := newReceiverImpl
  raftEnvMsgC := []
  processing := none
  commitC := []
  sending := none
  blocked := none
  ticking := false
  soft := ⟨0, .follower⟩
  lastKnownLeader := 0
  submitC := true
  justElected := false
  proposing := false
  bc := none
  propC := none
  created := []
  entered := []
  blockInflight := 0
  configInflight := false
  panicked := none
  appliedIndex := appliedIndex
  ledger := ledger
  sequence := sequence
  confChangeInProgress := none
  raft := []

namespace Chain

/-- The blocks that are proposed and not applied yet. A stopped goroutine discards its queue. -/
def inFlight (c : Chain) : List Block := if c.proposing then c.raft ++ c.propC.getD [] else []

def blocks (c : Chain) : List Block := c.ledger.blocks ++ c.inFlight

def lastBlock (c : Chain) : Block := c.ledger.lastBlock

def startTimer (c : Chain) : Chain := { c with ticking := true }

def stopTimer (c : Chain) : Chain := { c with ticking := false }

/-- One iteration of `propose`. A full channel and a nil channel take the default branch. -/
def proposeBatch (opts : Options) (c : Chain) (batch : List Envelope) : Chain :=
  if c.panicked.isSome then c
  else
    match c.bc with
    | none => { c with panicked := some .nilBlockCreator }
    | some bc =>
      let (block, bc) := createNextBlock bc batch
      let c := { c with
        bc := some bc
        created := c.created ++ [Created.mk c.blocks block] }
      match c.propC with
      | none => { c with panicked := some .inflightLimit }
      | some queue =>
        if queue.length < opts.maxInflightBlocks then
          { c with
            propC := some (queue ++ [block])
            configInflight := c.configInflight || isConfigBlock block
            blockInflight := c.blockInflight + 1 }
        else { c with panicked := some .inflightLimit }

def propose (opts : Options) (batches : List (List Envelope)) (c : Chain) : Chain :=
  batches.foldl (proposeBatch opts)
    { c with entered := c.entered ++ [Entered.mk (c.soft.lead = opts.raftID) c.bc.isSome] }

def pause (opts : Options) (c : Chain) : Chain :=
  if c.configInflight then { c with submitC := false }
  else if c.blockInflight ≥ opts.maxInflightBlocks then { c with submitC := false }
  else c

/-- The config block takes effect. The membership change of a CONFIG block keeps the flag set. -/
def writeConfigBlock (block : Block) (membership : Option ConfChange) (c : Chain) : Chain :=
  match (configChannelHeader block.data).map ChannelHeader.type with
  | some .config =>
    let c := { c with sequence := c.sequence + 1 }
    match membership with
    | none => { c with configInflight := false }
    | some change => { c with configInflight := true, confChangeInProgress := some change }
  | _ => { c with configInflight := false }

def writeBlock (block : Block) (membership : Option ConfChange) (c : Chain) : Chain :=
  RaftApply.inOrder c.lastBlock.number block.number { c with panicked := some .unexpectedBlock } c <|
    let c := { c with
      blockInflight := c.blockInflight - 1
      ledger := c.ledger.append block.data }
    if isConfigBlock block then c.writeConfigBlock block membership else c

end Chain

/-- A committed entry. A normal entry may be empty, and a config block comes with the change of the
membership that `detectConfChange` finds in it. -/
inductive Entry where
  | normal (index : Nat) (block : Option Block) (membership : Option ConfChange)
  | confChange (index : Nat) (change : ConfChange)

def Entry.index : Entry → Nat
  | .normal index _ _ => index
  | .confChange index _ => index

def Entry.block : Entry → Option Block
  | .normal _ block _ => block
  | .confChange _ _ => none

/-- A message on `applyC`, with the last index of the raft log when it is handled, and with the membership
change that the comparison of the last config block with the raft configuration gives. -/
structure Apply where
  soft : Option SoftState
  entries : List Entry
  lastIndex : Nat
  unapplied : Option ConfChange

namespace Chain

def advance (index : Nat) (c : Chain) : Chain := { c with appliedIndex := max c.appliedIndex index }

def applyEntry (opts : Options) (c : Chain) (entry : Entry) : Chain :=
  if c.panicked.isSome then c
  else
    match entry with
    | .normal index none _ => c.advance index
    | .normal index (some block) membership =>
      if index ≤ c.appliedIndex then c.advance index
      else { (c.writeBlock block membership).advance index with raft := c.raft.erase block }
    | .confChange index change =>
      let c :=
        if c.confChangeInProgress = some change then
          { c with configInflight := false, confChangeInProgress := none }
        else c
      let c :=
        if change.type = .removeNode ∧ change.nodeID = opts.raftID ∧ c.lastKnownLeader = opts.raftID then
          { c with configInflight := true }
        else c
      c.advance index

def apply (opts : Options) (ents : List Entry) (c : Chain) : Chain :=
  match ents with
  | [] => c
  | first :: _ =>
    if first.index > c.appliedIndex + 1 then { c with panicked := some .firstIndex }
    else ents.foldl (applyEntry opts) c

def getInFlightConfChange (unapplied : Option ConfChange) (c : Chain) : Option ConfChange :=
  match c.confChangeInProgress with
  | some change => some change
  | none =>
    if c.lastBlock.number = 0 then none
    else if isConfigBlock c.lastBlock then unapplied
    else none

/-- The new leader gets a new channel and a new goroutine, and it waits before it accepts requests.
An unfinished membership change is resumed. -/
def becomeLeader (unapplied : Option ConfChange) (c : Chain) : Chain :=
  let cc := c.getInFlightConfChange unapplied
  { c with
    blockInflight := 0
    justElected := true
    submitC := false
    propC := some []
    proposing := true
    raft := []
    confChangeInProgress := cc
    configInflight := c.configInflight || cc.isSome }

/-- The former leader discards the batch that it cuts and gives up the blocks in flight. The flag
`justElected` is not reset. -/
def becomeFollower (c : Chain) : Chain :=
  { c.stopTimer with
    proposing := false
    blockInflight := 0
    receiver := (cut c.receiver).2
    submitC := true
    bc := none
    raft := [] }

def applySoft (opts : Options) (app : Apply) (c : Chain) : Chain :=
  match app.soft with
  | none => c
  | some soft =>
    let changed :=
      if soft.lead ≠ c.soft.lead then
        let elected := { c with lastKnownLeader := soft.lead }
        let elected := if soft.lead = opts.raftID then elected.becomeLeader app.unapplied else elected
        if c.soft.lead = opts.raftID then elected.becomeFollower else elected
      else c
    let changed :=
      if isCandidate soft.raftState || soft.lead = 0 then { changed with lastKnownLeader := 0 }
      else changed
    { changed with soft := soft }

/-- The end of the apply case decides whether requests are accepted. -/
def acceptRequests (opts : Options) (lastIndex : Nat) (c : Chain) : Chain :=
  if c.panicked.isSome then c
  else if c.justElected then
    if lastIndex > c.appliedIndex then c
    else if c.configInflight then c
    else { c with bc := some ⟨c.lastBlock.number⟩, submitC := true, justElected := false }
  else if c.configInflight then { c with submitC := false }
  else if c.blockInflight < opts.maxInflightBlocks then { c with submitC := true }
  else c

end Chain

def Role.Accepting (opts : Options) (role : Role) : Prop :=
  role.soft.lead = opts.raftID ∧ role.justElected = false

instance (opts : Options) (role : Role) : Decidable (role.Accepting opts) :=
  inferInstanceAs (Decidable (_ ∧ _))

def freshBlocks (ents : List Entry) (appliedIndex : Nat) : List Block :=
  (ents.filter fun entry => decide (appliedIndex < entry.index)).filterMap Entry.block

/-- What raft guarantees: the indices of the entries increase, and a leader that accepts requests applies
the blocks that it has handed to raft, in their order. -/
def Apply.Lawful (opts : Options) (c : Chain) (app : Apply) : Prop :=
  app.entries.Pairwise (fun first second => first.index < second.index) ∧
    ((c.applySoft opts app).Accepting opts →
      freshBlocks app.entries c.appliedIndex <+: (c.applySoft opts app).raft)

instance (opts : Options) (c : Chain) (app : Apply) : Decidable (app.Lawful opts c) :=
  inferInstanceAs (Decidable (_ ∧ _))

/-- The result of `ordered`: an error, the payload of a config message, or a normal message that is sent
to the block cutter. -/
inductive Ordered where
  | panics
  | fails (err : String)
  | config (payload : Envelope)
  | normal (env : Envelope)

/-- A message is validated again when the configuration has advanced since its last validation. -/
def ordered (support : Support) (sequence : Nat) (msg : SubmitRequest) : Ordered :=
  match isConfig msg.payload with
  | none => .panics
  | some true =>
    if msg.lastValidationSeq < sequence then
      match support.processConfigMsg msg.payload with
      | .error err => .fails ("bad config message: " ++ err)
      | .ok (payload, _) =>
        match support.checkConfigUpdateValidity payload with
        | some err => .fails ("bad config message: " ++ err)
        | none => .config payload
    else .config msg.payload
  | some false =>
    if msg.lastValidationSeq < sequence then
      match support.processNormalMsg msg.payload with
      | .error err => .fails ("bad normal message: " ++ err)
      | .ok _ => .normal msg.payload
    else .normal msg.payload

/-- The steps of the goroutines and of their environment.
The first five are the cases of the loop `serveRequest`. -/
inductive Event where
  | commitC
  | submitC (req : Option SubmitRequest) (support : Support)
  | applyC (app : Apply)
  | timer
  | snapC (index : Nat) (pulled : List (List Envelope))
  | sent
  | received
  | processEnvMsg (order : RangeOrder RangeSite) (batchSize : BatchSize)
  | forwarded
  | proposed
  | proposeFails
  | restart (appliedIndex : Nat)

namespace Chain

/-- A config message cuts the ready batch, and its block follows the block of this batch. -/
def configBatches (payload : Envelope) (c : Chain) : List (List Envelope) :=
  (if (cut c.receiver).1.length ≠ 0 then [(cut c.receiver).1] else []) ++ [[payload]]

/-- The submit case. A request without content was polled by `WaitReady`. -/
def onSubmitC (opts : Options) (req : Option SubmitRequest) (support : Support) (c : Chain) : Chain :=
  match req with
  | none => c
  | some msg =>
    if isCandidate c.soft.raftState then c
    else if c.soft.lead ≠ opts.raftID then c
    else
      match ordered support c.sequence msg with
      | .panics => { c with panicked := some .channelHeader }
      | .fails _ => c
      | .config payload =>
        let batches := c.configBatches payload
        pause opts (propose opts batches { c with receiver := (cut c.receiver).2 }.stopTimer)
      | .normal env => { c with blocked := some ⟨some env⟩ }

def onApplyC (opts : Options) (app : Apply) (c : Chain) : Chain :=
  ((c.applySoft opts app).apply opts app.entries).acceptRequests opts app.lastIndex

/-- The next block is pulled and written. The flags do not change. -/
def catchUpBlock (c : Chain) (data : List Envelope) : Chain :=
  { c with
    ledger := c.ledger.append data
    sequence := if (configChannelHeader data).map ChannelHeader.type = some .config then c.sequence + 1
      else c.sequence }

/-- A snapshot makes the node pull the blocks after its last one. The index 0 belongs to an artificial
snapshot. -/
def onSnapC (index : Nat) (pulled : List (List Envelope)) (c : Chain) : Chain :=
  if index ≠ 0 ∧ index ≤ c.appliedIndex then c
  else pulled.foldl catchUpBlock { c with appliedIndex := if index ≠ 0 then index else c.appliedIndex }

/-- The goroutine `ProcessEnvMsg` processes one message and leaves the batches that it has to send. -/
def onProcessEnvMsg (order : RangeOrder RangeSite) (batchSize : BatchSize) (msg : EnvMsg) (c : Chain) : Chain :=
  match msg.env with
  | some env =>
    match orderedRaftForBC order batchSize env c.receiver with
    | none => { c with panicked := some .nilHeader }
    | some (batches, _, receiver) =>
      { c with receiver := receiver, sending := if batches.length > 0 then some batches else none }
  | none =>
    let (batch, receiver) := cut c.receiver
    { c with receiver := receiver, sending := if batch.length > 0 then some [batch] else none }

/-- The send of `serveRequest` ends. With an envelope it belongs to `ordered`, and the submit case goes
on. Otherwise the timer case is over. -/
def onSent (opts : Options) (msg : EnvMsg) (c : Chain) : Chain :=
  let c := { c with raftEnvMsgC := c.raftEnvMsgC ++ [msg], blocked := none }
  if msg.env.isSome then pause opts c.startTimer else c

def Running (c : Chain) : Prop := c.panicked = none

instance (c : Chain) : Decidable c.Running := inferInstanceAs (Decidable (_ = _))

/-- The loop `serveRequest` waits at its `select`. -/
def Serving (c : Chain) : Prop := c.Running ∧ c.blocked = none

instance (c : Chain) : Decidable c.Serving := inferInstanceAs (Decidable (_ ∧ _))

/-- One step of the node. The result `none` means that the event cannot happen. A case of `serveRequest`
uses what it shares with `ProcessEnvMsg` once, by a call of `Cut` or by an operation on a channel, and its
step stands for this moment. No lock separates `Cut` from a message in work.
The channel configuration guarantees a positive message count, and raft sends snapshots to followers
only. A process that has ended, by a panic or not, can be restarted. -/
def step (opts : Options) (c : Chain) (event : Event) : Option Chain :=
  match event with
  | .commitC =>
    match c.commitC with
    | raftbatches :: rest =>
      if c.Serving then some (propose opts raftbatches { c with commitC := rest }.stopTimer) else none
    | [] => none
  | .submitC req support =>
    if c.Serving ∧ c.submitC then some (c.onSubmitC opts req support) else none
  | .applyC app => if c.Serving ∧ app.Lawful opts c then some (c.onApplyC opts app) else none
  | .timer =>
    if c.Serving ∧ c.ticking then some { c.stopTimer with blocked := some ⟨none⟩ } else none
  | .snapC index pulled =>
    if c.Serving ∧ c.soft.lead ≠ opts.raftID then some (c.onSnapC index pulled) else none
  | .sent =>
    match c.blocked with
    | some msg =>
      if c.Running ∧ c.raftEnvMsgC.length < raftEnvMsgCapacity then some (c.onSent opts msg) else none
    | none => none
  | .received =>
    match c.raftEnvMsgC with
    | msg :: rest =>
      if c.Running ∧ c.sending = none ∧ c.processing = none then
        some { c with processing := some msg, raftEnvMsgC := rest }
      else none
    | [] => none
  | .processEnvMsg order batchSize =>
    match c.processing with
    | some msg =>
      if c.Running ∧ c.sending = none ∧ batchSize.maxMessageCount ≠ 0 then
        some ({ c with processing := none }.onProcessEnvMsg order batchSize msg)
      else none
    | none => none
  | .forwarded =>
    match c.sending with
    | some batches =>
      if c.Running ∧ c.commitC.length < commitCapacity then
        some { c with commitC := c.commitC ++ [batches], sending := none }
      else none
    | none => none
  | .proposed =>
    match c.propC with
    | some (block :: rest) =>
      if c.Running ∧ c.proposing then some { c with raft := c.raft ++ [block], propC := some rest }
      else none
    | _ => none
  | .proposeFails =>
    match c.propC with
    | some (_ :: rest) =>
      if c.Running ∧ c.proposing then some { c with propC := some rest, proposing := false } else none
    | _ => none
  | .restart appliedIndex =>
    if appliedIndex ≤ c.appliedIndex then
      some { newChain c.ledger appliedIndex c.sequence with created := c.created, entered := c.entered }
    else none

end Chain

end Pobl.Etcdraft
