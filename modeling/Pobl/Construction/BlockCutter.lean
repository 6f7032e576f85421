/-
This file models the receiver of `blockcutter.go` and sequences of calls to it.
The graph mode and the plain mode share the receiver and the function `Cut`.
-/

import Pobl.Construction.ProcessTX

namespace Pobl.BlockCutter

open Library Protos Partialorder

structure BatchSize where
  maxMessageCount : UInt32
  preferredMaxBytes : UInt32

/-- The receiver without its clocks and counters for the log. -/
structure Receiver where
  tcg : TxConsensusGraph
  pendingBatch : List Envelope
  pendingBatchSizeBytes : UInt32

def newReceiverImpl : Receiver := ⟨TxConsensusGraph.initial, [], 0⟩

def cutTx (r : Receiver) : List Envelope × Receiver :=
  (r.tcg.readyBatch, { r with tcg := { r.tcg with readyBatch := [] } })

/-- The function `Cut` returns the ready batch of the graph and clears the pending batch. -/
def cut (r : Receiver) : List Envelope × Receiver :=
  let (batch, r) := cutTx r
  (batch, { r with pendingBatch := [], pendingBatchSizeBytes := 0 })

/-- Both graph entry points end with the same test of the batch size. -/
def cutFullBatch (batchSize : BatchSize) (r : Receiver) : List (List Envelope) × Bool × Receiver :=
  if UInt32.ofNat r.tcg.readyBatch.length ≥ batchSize.maxMessageCount then
    let (messageBatch, r) := cut r
    ([messageBatch], false, r)
  else ([], decide (r.tcg.readyBatch.length > 0), r)

def processNode (order : RangeOrder RangeSite) (choosed : GVNode) (r : Receiver) : Option Receiver :=
  (processTX order r.tcg.nodes.size (r.tcg.newNode choosed)).map fun tcg => { r with tcg := tcg }

def orderedRaftForBC (order : RangeOrder RangeSite) (batchSize : BatchSize) (msg : Envelope)
    (r : Receiver) : Option (List (List Envelope) × Bool × Receiver) :=
  (processEnvForBC msg).bind fun choosed =>
    (processNode order choosed r).map (cutFullBatch batchSize)

def orderedRaft (order : RangeOrder RangeSite) (batchSize : BatchSize) (gvnode : GVNode)
    (r : Receiver) : Option (List (List Envelope) × Bool × Receiver) :=
  (processNode order gvnode r).map (cutFullBatch batchSize)

inductive Call where
  | orderedRaftForBC (order : RangeOrder RangeSite) (batchSize : BatchSize) (msg : Envelope)
  | orderedRaft (order : RangeOrder RangeSite) (batchSize : BatchSize) (gvnode : GVNode)
  | cut

/-- A session is a receiver with the batches that its calls have returned. -/
structure Session where
  receiver : Receiver
  batches : List (List Envelope)

def Session.initial : Session := ⟨newReceiverImpl, []⟩

def Session.emitted (session : Session) : List Envelope :=
  session.batches.flatten ++ session.receiver.tcg.readyBatch

def Session.step (session : Session) : Call → Option Session
  | .orderedRaftForBC order batchSize msg =>
    (BlockCutter.orderedRaftForBC order batchSize msg session.receiver).map fun result =>
      ⟨result.2.2, session.batches ++ result.1⟩
  | .orderedRaft order batchSize gvnode =>
    (BlockCutter.orderedRaft order batchSize gvnode session.receiver).map fun result =>
      ⟨result.2.2, session.batches ++ result.1⟩
  | .cut =>
    let (batch, r) := BlockCutter.cut session.receiver
    some ⟨r, session.batches ++ [batch]⟩

def messageSizeBytes (message : Envelope) : UInt32 := UInt32.ofNat message.sizeBytes

/-- The batch that is cut under a condition, as a list of at most one batch. -/
def cutIf (condition : Bool) (r : Receiver) : List (List Envelope) × Receiver :=
  if condition then
    let (messageBatch, r) := cut r
    ([messageBatch], r)
  else ([], r)

def enqueue (msg : Envelope) (r : Receiver) : Receiver :=
  { r with
    pendingBatch := r.pendingBatch ++ [msg]
    pendingBatchSizeBytes := r.pendingBatchSizeBytes + messageSizeBytes msg }

/-- The function `Ordered` of the plain cutter, which the solo and kafka chains call. -/
def ordered (batchSize : BatchSize) (msg : Envelope) (r : Receiver) : List (List Envelope) × Bool × Receiver :=
  if messageSizeBytes msg > batchSize.preferredMaxBytes then
    -- The message is isolated in its own batch, and a pending batch is cut before it.
    let (messageBatches, r) := cutIf (decide (r.pendingBatch.length > 0)) r
    (messageBatches ++ [[msg]], false, r)
  else
    let (overflow, r) := cutIf
      (decide (r.pendingBatchSizeBytes + messageSizeBytes msg > batchSize.preferredMaxBytes)) r
    let r := enqueue msg r
    let full := decide (UInt32.ofNat r.pendingBatch.length ≥ batchSize.maxMessageCount)
    let (messageBatches, r) := cutIf full r
    (overflow ++ messageBatches, !full, r)

inductive PlainCall where
  | ordered (batchSize : BatchSize) (msg : Envelope)
  | cut

def PlainCall.message : PlainCall → Option Envelope
  | .ordered _ msg => some msg
  | .cut => none

/-- What one call returned, with the receiver before and after it. The function `Cut` returns no flag. -/
structure Returned where
  call : PlainCall
  before : Receiver
  batches : List (List Envelope)
  pending : Option Bool
  after : Receiver

structure PlainSession where
  receiver : Receiver
  returned : List Returned

def PlainSession.initial : PlainSession := ⟨newReceiverImpl, []⟩

def PlainSession.messages (session : PlainSession) : List Envelope :=
  session.returned.filterMap fun result => result.call.message

def PlainSession.batches (session : PlainSession) : List (List Envelope) :=
  session.returned.flatMap Returned.batches

def PlainCall.perform (r : Receiver) (call : PlainCall) : Returned :=
  match call with
  | .ordered batchSize msg =>
    let (batches, pending, after) := BlockCutter.ordered batchSize msg r
    ⟨call, r, batches, some pending, after⟩
  | .cut =>
    let (batch, after) := BlockCutter.cut r
    ⟨call, r, [batch], none, after⟩

def PlainSession.step (session : PlainSession) (call : PlainCall) : Option PlainSession :=
  let result := call.perform session.receiver
  some ⟨result.after, session.returned ++ [result]⟩

end Pobl.BlockCutter
