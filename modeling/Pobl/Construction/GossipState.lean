/-
This file models how a peer takes blocks from other peers: the payloads buffer in `payloads_buffer.go`, and
`addPayload`, `deliverPayloads` and `handleStateRequest` in `state.go`.
A nil list and an empty list of byte strings are one value, as they are in proto3.
-/

import Mathlib.Data.List.AList
import Pobl.Library.Wire

namespace Pobl.Gossip

open Library.Wire

structure BlockHeader where
  number : UInt64
  previousHash : Bytes
  dataHash : Bytes
  deriving DecidableEq

/-- The data and the metadata of a block are messages with one list of byte strings. -/
structure Block where
  header : Option BlockHeader
  data : Option (List Bytes)
  metadata : Option (List Bytes)
  deriving DecidableEq

structure PvtDataPayload where
  txSeqInBlock : UInt64
  payload : Bytes

structure CollectionPvtReadWriteSet where
  collectionName : Bytes
  rwset : Bytes
  deriving DecidableEq

structure NsPvtReadWriteSet where
  ns : Bytes
  collectionPvtRwset : List CollectionPvtReadWriteSet
  deriving DecidableEq

structure TxPvtReadWriteSet where
  dataModel : Int32
  nsPvtRwset : List NsPvtReadWriteSet
  deriving DecidableEq

structure TxPvtData where
  seqInBlock : UInt64
  writeSet : Option TxPvtReadWriteSet
  deriving DecidableEq

structure Payload where
  seqNum : UInt64
  data : Bytes
  privateData : List Bytes
  deriving DecidableEq

section Tables

def BlockHeader.zero : BlockHeader := ⟨0, [], []⟩
def Block.zero : Block := ⟨none, none, none⟩
def PvtDataPayload.zero : PvtDataPayload := ⟨0, []⟩
def CollectionPvtReadWriteSet.zero : CollectionPvtReadWriteSet := ⟨[], []⟩
def NsPvtReadWriteSet.zero : NsPvtReadWriteSet := ⟨[], []⟩
def TxPvtReadWriteSet.zero : TxPvtReadWriteSet := ⟨0, []⟩

def BlockHeader.table : Table BlockHeader
  | 1 => some (readVarint fun value header => { header with number := value })
  | 2 => some (readBytes fun value header => { header with previousHash := value })
  | 3 => some (readBytes fun value header => { header with dataHash := value })
  | _ => none

def byteStringsTable : Table (List Bytes)
  | 1 => some (readBytes fun value earlier => earlier ++ [value])
  | _ => none

def Block.table : Table Block
  | 1 => some (readMessage BlockHeader.table (fun block => block.header.getD .zero)
      fun header block => { block with header := some header })
  | 2 => some (readMessage byteStringsTable (fun block => block.data.getD [])
      fun data block => { block with data := some data })
  | 3 => some (readMessage byteStringsTable (fun block => block.metadata.getD [])
      fun metadata block => { block with metadata := some metadata })
  | _ => none

def PvtDataPayload.table : Table PvtDataPayload
  | 1 => some (readVarint fun value payload => { payload with txSeqInBlock := value })
  | 2 => some (readBytes fun value payload => { payload with payload := value })
  | _ => none

def CollectionPvtReadWriteSet.table : Table CollectionPvtReadWriteSet
  | 1 => some (readString fun value collection => { collection with collectionName := value })
  | 2 => some (readBytes fun value collection => { collection with rwset := value })
  | _ => none

def NsPvtReadWriteSet.table : Table NsPvtReadWriteSet
  | 1 => some (readString fun value rwset => { rwset with ns := value })
  | 2 => some (readElement CollectionPvtReadWriteSet.table .zero
      fun collection rwset => { rwset with collectionPvtRwset := rwset.collectionPvtRwset ++ [collection] })
  | _ => none

def TxPvtReadWriteSet.table : Table TxPvtReadWriteSet
  | 1 => some (readInt32 fun value rwset => { rwset with dataModel := value })
  | 2 => some (readElement NsPvtReadWriteSet.table .zero
      fun nsRwset rwset => { rwset with nsPvtRwset := rwset.nsPvtRwset ++ [nsRwset] })
  | _ => none

def BlockHeader.marshal (header : BlockHeader) : Bytes × Bool :=
  Library.Wire.marshal
    [appendNumber 1 header.number, appendBytes 2 header.previousHash, appendBytes 3 header.dataHash]

def marshalByteStrings (strings : List Bytes) : Bytes × Bool :=
  Library.Wire.marshal [appendElements 1 (strings.map fun string => (string, true))]

def Block.marshal (block : Block) : Bytes × Bool :=
  Library.Wire.marshal
    [appendMessage 1 (block.header.map BlockHeader.marshal), appendMessage 2 (block.data.map marshalByteStrings),
      appendMessage 3 (block.metadata.map marshalByteStrings)]

def PvtDataPayload.marshal (payload : PvtDataPayload) : Bytes × Bool :=
  Library.Wire.marshal [appendNumber 1 payload.txSeqInBlock, appendBytes 2 payload.payload]

def CollectionPvtReadWriteSet.marshal (collection : CollectionPvtReadWriteSet) : Bytes × Bool :=
  Library.Wire.marshal [appendString 1 collection.collectionName, appendBytes 2 collection.rwset]

def NsPvtReadWriteSet.marshal (rwset : NsPvtReadWriteSet) : Bytes × Bool :=
  Library.Wire.marshal
    [appendString 1 rwset.ns, appendElements 2 (rwset.collectionPvtRwset.map CollectionPvtReadWriteSet.marshal)]

def TxPvtReadWriteSet.marshal (rwset : TxPvtReadWriteSet) : Bytes × Bool :=
  Library.Wire.marshal
    [appendInt32 1 rwset.dataModel, appendElements 2 (rwset.nsPvtRwset.map NsPvtReadWriteSet.marshal)]

end Tables

/-- A message that could not be read to its end is an error. -/
def decode {Message : Type} (table : Table Message) (zero : Message) (bytes : Bytes) : Option Message :=
  match unmarshal table zero bytes with
  | (message, true) => some message
  | (_, false) => none

def encoded : Bytes × Bool → Option Bytes
  | (bytes, true) => some bytes
  | (_, false) => none

/-- `Unmarshal` of the private data stops at the first entry it cannot read. -/
def unmarshalPvtData : List Bytes → Option (List TxPvtData)
  | [] => some []
  | each :: rest => do
    let payload ← decode PvtDataPayload.table .zero each
    let pvtRWSet ← decode TxPvtReadWriteSet.table .zero payload.payload
    let pvt ← unmarshalPvtData rest
    return ⟨payload.txSeqInBlock, some pvtRWSet⟩ :: pvt

/-- `Marshal` of the private data stops at the first entry that is nil or has a part it cannot write. -/
def marshalPvtData : List (Option TxPvtData) → Option (List Bytes)
  | [] => some []
  | each :: rest => do
    let each ← each
    let writeSet ← each.writeSet
    let pvtBytes ← encoded writeSet.marshal
    let payloadBytes ← encoded (PvtDataPayload.marshal ⟨each.seqInBlock, pvtBytes⟩)
    let pvtDataBytes ← marshalPvtData rest
    return payloadBytes :: pvtDataBytes

/-- The buffer of payloads. Its channel has room for one signal. -/
structure PayloadsBuffer where
  next : UInt64
  buf : AList fun _ : UInt64 => Payload
  readyChan : Bool

namespace PayloadsBuffer

def newPayloadsBuffer (next : UInt64) : PayloadsBuffer := ⟨next, ∅, false⟩

def size (b : PayloadsBuffer) : Nat := b.buf.entries.length

/-- The payload is thrown away if it is below the next number or already buffered. -/
def isProcessed (b : PayloadsBuffer) (payload : Payload) : Bool :=
  payload.seqNum < b.next || (b.buf.lookup payload.seqNum).isSome

def push (b : PayloadsBuffer) (payload : Payload) : PayloadsBuffer :=
  if b.isProcessed payload then b
  else
    { b with
      buf := b.buf.insert payload.seqNum payload
      readyChan := b.readyChan || payload.seqNum == b.next }

def drainReadChannel (b : PayloadsBuffer) : PayloadsBuffer :=
  if b.size = 0 then { b with readyChan := false } else b

/-- The next number is raised as soon as its payload is taken. -/
def pop (b : PayloadsBuffer) : Option Payload × PayloadsBuffer :=
  match b.buf.lookup b.next with
  | none => (none, b)
  | some result => (some result, drainReadChannel { b with next := b.next + 1, buf := b.buf.erase b.next })

end PayloadsBuffer

/-- What a goroutine that holds the mutex of the buffer does next on the channel. -/
inductive Mutex where
  | free
  | checking
  | sending
  | draining
  deriving DecidableEq

/-- A buffer with the calls of `Push` that wait for its mutex. The consumer waits on `Ready` or collects payloads. -/
structure SharedBuffer where
  buffer : PayloadsBuffer
  mutex : Mutex
  pushing : List Payload
  collecting : Bool

inductive BufferStep where
  | call (payload : Payload)
  | push (index : Nat)
  | check
  | send
  | receive
  | pop
  | drain

namespace SharedBuffer

def newSharedBuffer (next : UInt64) : SharedBuffer := ⟨.newPayloadsBuffer next, .free, [], false⟩

/-- The steps of the goroutines. The mutex protects the map, and each access to the channel is a step of its own. -/
def step (s : SharedBuffer) : BufferStep → Option SharedBuffer
  | .call payload => some { s with pushing := s.pushing ++ [payload] }
  | .push index =>
    match s.mutex, s.pushing[index]? with
    | .free, some payload =>
      let pushing := s.pushing.eraseIdx index
      if s.buffer.isProcessed payload then some { s with pushing := pushing }
      else
        some { s with
          pushing := pushing
          buffer := { s.buffer with buf := s.buffer.buf.insert payload.seqNum payload }
          mutex := if payload.seqNum = s.buffer.next then .checking else .free }
    | _, _ => none
  | .check =>
    if s.mutex = .checking then some { s with mutex := if s.buffer.readyChan then .free else .sending } else none
  | .send =>
    if s.mutex = .sending ∧ s.buffer.readyChan = false then
      some { s with buffer := { s.buffer with readyChan := true }, mutex := .free }
    else none
  | .receive =>
    if s.collecting = false ∧ s.buffer.readyChan = true then
      some { s with buffer := { s.buffer with readyChan := false }, collecting := true }
    else none
  | .pop =>
    if s.mutex = .free ∧ s.collecting = true then
      match s.buffer.buf.lookup s.buffer.next with
      | none => some { s with collecting := false }
      | some _ =>
        let buffer := { s.buffer with next := s.buffer.next + 1, buf := s.buffer.buf.erase s.buffer.next }
        some { s with buffer := buffer, mutex := if buffer.size = 0 then .draining else .free }
    else none
  | .drain =>
    if s.mutex = .draining then
      some (if s.buffer.readyChan then { s with buffer := { s.buffer with readyChan := false } }
        else { s with mutex := .free })
    else none

end SharedBuffer

/-- The ledger of the committer with the blocks that were stored since the start.
`isExecutionErr` tells which failed blocks are reported as failures of the VSCC. -/
structure Ledger where
  ledgerHeight : UInt64
  stored : List (Block × List TxPvtData)
  isExecutionErr : Block → Bool

/-- A block is stored exactly if its number is the height. The error is the kind of the failure. -/
def Ledger.storeBlock (ledger : Ledger) (block : Block) (pvtData : List TxPvtData) : Except Bool Ledger :=
  if block.header.map BlockHeader.number = some ledger.ledgerHeight then
    .ok { ledger with
      ledgerHeight := ledger.ledgerHeight + 1
      stored := ledger.stored ++ [(block, pvtData)] }
  else .error (ledger.isExecutionErr block)

structure StateConfig where
  antiEntropyBatchSize : UInt64
  maxBlockDistance : Int64

def Payload.rawBlock (payload : Payload) : Option (Block × List TxPvtData) := do
  let rawBlock ← decode Block.table .zero payload.data
  if rawBlock.data.isNone || rawBlock.header.isNone then none
  else
    let p ← unmarshalPvtData payload.privateData
    return (rawBlock, p)

/-- Where the routine `deliverPayloads` is: in its select statement, before a call of `Pop`, with a payload in hand,
or at its end. -/
inductive DeliverPayloads where
  | waiting
  | collecting
  | popped (payload : Payload)
  | returned
  | panicked
  deriving DecidableEq

/-- A call of `addPayload` that has passed its first checks.
The flag says that it still waits for room in the buffer. -/
structure AddPayload where
  payload : Payload
  blocked : Bool
  deriving DecidableEq

structure GossipStateProvider where
  config : StateConfig
  payloads : PayloadsBuffer
  ledger : Ledger
  adding : List AddPayload
  deliver : DeliverPayloads

inductive StateStep where
  | addPayload (payload : Option Payload) (blockingMode : Bool)
  | checkSize (call : Nat)
  | push (call : Nat)
  | ready
  | pop
  | commit
  | stop

namespace GossipStateProvider

def newGossipStateProvider (config : StateConfig) (height : UInt64) (isExecutionErr : Block → Bool) :
    GossipStateProvider where
  config := config
  payloads := .newPayloadsBuffer height
  ledger := ⟨height, [], isExecutionErr⟩
  adding := []
  deliver := .waiting

/-- The first checks of `addPayload`. The difference of the numbers wraps around. -/
def checkPayload (s : GossipStateProvider) (payload : Option Payload) (blockingMode : Bool) :
    Except String AddPayload :=
  match payload with
  | none => .error "Given payload is nil"
  | some payload =>
    if !blockingMode && s.config.maxBlockDistance.toUInt64 ≤ payload.seqNum - s.ledger.ledgerHeight then
      .error s!"Ledger height is at {s.ledger.ledgerHeight}, cannot enqueue block with sequence of {payload.seqNum}"
    else .ok ⟨payload, blockingMode⟩

def commitPayload (s : GossipStateProvider) (payload : Payload) : GossipStateProvider :=
  match payload.rawBlock with
  | none => { s with deliver := .collecting }
  | some (rawBlock, p) =>
    match s.ledger.storeBlock rawBlock p with
    | .ok ledger => { s with ledger := ledger, deliver := .collecting }
    | .error true => { s with deliver := .returned }
    | .error false => { s with deliver := .panicked }

def step (s : GossipStateProvider) : StateStep → Option GossipStateProvider
  | .addPayload payload blockingMode =>
    match s.checkPayload payload blockingMode with
    | .error _ => some s
    | .ok call => some { s with adding := s.adding ++ [call] }
  | .checkSize index =>
    match s.adding[index]? with
    | some ⟨payload, true⟩ =>
      if (s.config.maxBlockDistance * 2).toInt < s.payloads.size then some s
      else some { s with adding := s.adding.set index ⟨payload, false⟩ }
    | _ => none
  | .push index =>
    match s.adding[index]? with
    | some ⟨payload, false⟩ =>
      some { s with payloads := s.payloads.push payload, adding := s.adding.eraseIdx index }
    | _ => none
  | .ready =>
    if s.deliver = .waiting ∧ s.payloads.readyChan then
      some { s with payloads := { s.payloads with readyChan := false }, deliver := .collecting }
    else none
  | .pop =>
    if s.deliver = .collecting then
      match s.payloads.pop with
      | (none, payloads) => some { s with payloads := payloads, deliver := .waiting }
      | (some payload, payloads) => some { s with payloads := payloads, deliver := .popped payload }
    else none
  | .commit =>
    match s.deliver with
    | .popped payload => some (s.commitPayload payload)
    | _ => none
  | .stop => if s.deliver = .waiting then some { s with deliver := .returned } else none

end GossipStateProvider

structure RemoteStateRequest where
  startSeqNum : UInt64
  endSeqNum : UInt64

/-- What the ledger answers to a reader of blocks: an error, or a block and its private data, each maybe nil. -/
structure BlockSource where
  ledgerHeight : Except String UInt64
  getPvtDataAndBlockByNum : UInt64 → Except String (Option Block × List (Option TxPvtData))

/-- `validate` of a state request. The sum wraps around. -/
def validateRequest (request : RemoteStateRequest) (batchSize : UInt64) : Except String Unit :=
  if request.startSeqNum > request.endSeqNum then
    .error s!"Invalid sequence interval [{request.startSeqNum}...{request.endSeqNum})."
  else if request.endSeqNum > batchSize + request.startSeqNum then
    .error (s!"Requesting blocks range [{request.startSeqNum}-{request.endSeqNum}) greater than configured allowed" ++
      s!" ({batchSize}) batching size for anti-entropy.")
  else .ok ()

/-- The minimum is chosen by the sign bit of the difference. -/
def min (a b : UInt64) : UInt64 := b ^^^ ((a ^^^ b) &&& -((a - b) >>> 63))

def readPayload (ledger : BlockSource) (seqNum : UInt64) : Option Payload :=
  match ledger.getPvtDataAndBlockByNum seqNum with
  | .error _ => none
  | .ok (block, pvtData) => do
    let block ← block
    let blockBytes ← encoded block.marshal
    let pvtBytes ← marshalPvtData pvtData
    return ⟨seqNum, blockBytes, pvtBytes⟩

/-- The loop over the requested blocks, which runs its body at most `fuel` times. -/
def readPayloads (ledger : BlockSource) (endSeqNum : UInt64) : Nat → UInt64 → Option (List Payload)
  | 0, seqNum => if seqNum ≤ endSeqNum then none else some []
  | fuel + 1, seqNum =>
    if seqNum ≤ endSeqNum then
      (readPayloads ledger endSeqNum fuel (seqNum + 1)).map ((readPayload ledger seqNum).toList ++ ·)
    else some []

inductive StateResponse where
  | ignored
  | response (payloads : List Payload)

/-- `handleStateRequest` returns if its loop ends after at most `fuel` rounds. -/
def handleStateRequest (config : StateConfig) (ledger : BlockSource) (fuel : Nat) (request : RemoteStateRequest) :
    Option StateResponse :=
  match validateRequest request config.antiEntropyBatchSize with
  | .error _ => some .ignored
  | .ok () =>
    match ledger.ledgerHeight with
    | .error _ => some .ignored
    | .ok currentHeight =>
      (readPayloads ledger (min currentHeight request.endSeqNum) fuel request.startSeqNum).map .response

end Pobl.Gossip
