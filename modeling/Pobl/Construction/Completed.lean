/-
This file models the messages that end a call of a chaincode: `handleInit` and `ValidateAndCommit` of the shim,
`HandleCompleted` and `processChaincodeExecutionResult` of the peer, and the wire format of their payloads.
Go strings are byte lists, and nil and empty bytes are one value, as they are in proto3.
-/

import Pobl.Library.Wire

namespace Pobl.Chaincode

open Library.Wire

structure Version where
  blockNum : UInt64
  txNum : UInt64
  deriving DecidableEq

structure KVRead where
  key : Bytes
  version : Option Version
  value : Bytes
  isRead : Bool
  txid : Bytes
  deriving DecidableEq

structure KVWrite where
  key : Bytes
  isDelete : Bool
  value : Bytes
  isWrite : Bool
  txid : Bytes
  deriving DecidableEq

structure BuildRwset where
  readSet : List KVRead
  writeSet : List KVWrite
  collection : Bytes
  txnCount : Int64
  status : Int32
  message : Bytes
  payload : Bytes
  deriving DecidableEq

structure Response where
  status : Int32
  message : Bytes
  payload : Bytes
  deriving DecidableEq

def Version.zero : Version := ⟨0, 0⟩
def KVRead.zero : KVRead := ⟨[], none, [], false, []⟩
def KVWrite.zero : KVWrite := ⟨[], false, [], false, []⟩
def BuildRwset.zero : BuildRwset := ⟨[], [], [], 0, 0, [], []⟩
def Response.zero : Response := ⟨0, [], []⟩

def Version.marshal (version : Version) : Bytes × Bool :=
  Library.Wire.marshal [appendNumber 1 version.blockNum, appendNumber 2 version.txNum]

def KVRead.marshal (read : KVRead) : Bytes × Bool :=
  Library.Wire.marshal
    [appendString 1 read.key, appendMessage 2 (read.version.map Version.marshal), appendBytes 3 read.value,
      appendBool 4 read.isRead, appendString 5 read.txid]

def KVWrite.marshal (write : KVWrite) : Bytes × Bool :=
  Library.Wire.marshal
    [appendString 1 write.key, appendBool 2 write.isDelete, appendBytes 3 write.value,
      appendBool 4 write.isWrite, appendString 5 write.txid]

def BuildRwset.marshal (buildRwset : BuildRwset) : Bytes × Bool :=
  Library.Wire.marshal
    [appendElements 1 (buildRwset.readSet.map KVRead.marshal),
      appendElements 2 (buildRwset.writeSet.map KVWrite.marshal), appendString 3 buildRwset.collection,
      appendInt64 4 buildRwset.txnCount, appendInt32 5 buildRwset.status, appendString 6 buildRwset.message,
      appendBytes 7 buildRwset.payload]

def Response.marshal (response : Response) : Bytes × Bool :=
  Library.Wire.marshal
    [appendInt32 1 response.status, appendString 2 response.message, appendBytes 3 response.payload]

def Version.table : Table Version
  | 1 => some (readVarint fun value version => { version with blockNum := value })
  | 2 => some (readVarint fun value version => { version with txNum := value })
  | _ => none

def KVRead.table : Table KVRead
  | 1 => some (readString fun value read => { read with key := value })
  | 2 => some (readMessage Version.table (fun read => read.version.getD .zero)
      fun version read => { read with version := some version })
  | 3 => some (readBytes fun value read => { read with value := value })
  | 4 => some (readBool fun value read => { read with isRead := value })
  | 5 => some (readString fun value read => { read with txid := value })
  | _ => none

def KVWrite.table : Table KVWrite
  | 1 => some (readString fun value write => { write with key := value })
  | 2 => some (readBool fun value write => { write with isDelete := value })
  | 3 => some (readBytes fun value write => { write with value := value })
  | 4 => some (readBool fun value write => { write with isWrite := value })
  | 5 => some (readString fun value write => { write with txid := value })
  | _ => none

def BuildRwset.addRead (read : KVRead) (buildRwset : BuildRwset) : BuildRwset :=
  { buildRwset with readSet := buildRwset.readSet ++ [read] }

def BuildRwset.addWrite (write : KVWrite) (buildRwset : BuildRwset) : BuildRwset :=
  { buildRwset with writeSet := buildRwset.writeSet ++ [write] }

def BuildRwset.table : Table BuildRwset
  | 1 => some (readElement KVRead.table .zero BuildRwset.addRead)
  | 2 => some (readElement KVWrite.table .zero BuildRwset.addWrite)
  | 3 => some (readString fun value buildRwset => { buildRwset with collection := value })
  | 4 => some (readInt64 fun value buildRwset => { buildRwset with txnCount := value })
  | 5 => some (readInt32 fun value buildRwset => { buildRwset with status := value })
  | 6 => some (readString fun value buildRwset => { buildRwset with message := value })
  | 7 => some (readBytes fun value buildRwset => { buildRwset with payload := value })
  | _ => none

def Response.table : Table Response
  | 1 => some (readInt32 fun value response => { response with status := value })
  | 2 => some (readString fun value response => { response with message := value })
  | 3 => some (readBytes fun value response => { response with payload := value })
  | _ => none

inductive ChaincodeMessage where
  | completed (payload : Bytes)
  | error (payload : Bytes)
  deriving DecidableEq

def error : Int32 := 500

/-- The only error that the writing of a response can report. -/
def invalidUTF8Error : String := "proto: field \"protos.Response.Message\" contains invalid UTF-8"

def handleInit (res : Response) : ChaincodeMessage :=
  if error ≤ res.status then .error res.message
  else
    match res.marshal with
    | (resBytes, true) => .completed resBytes
    | (_, false) => .error invalidUTF8Error.toUTF8.toList

/-- The message that `ValidateAndCommit` sends for the response of Invoke and the final sets of its simulator.
The error of the writing is ignored. -/
def validateAndCommit (finalReadSet : List KVRead) (finalWriteSet : List KVWrite) (txidCount : Int64)
    (res : Response) : ChaincodeMessage :=
  .completed
    (BuildRwset.marshal ⟨finalReadSet, finalWriteSet, [], txidCount, res.status, res.message, res.payload⟩).1

/-- What `HandleCompleted` gives the simulator of the transaction, and the payload it hands on. -/
structure Handled where
  buildRWset : Option BuildRwset
  payload : Bytes
  deriving DecidableEq

def isCollectionSet (collection : Bytes) : Bool := collection != []

/-- The error of the reading is ignored, so that a part of the message may be taken for the whole. -/
def handleCompleted (isValidTxSim : Bool) (payload : Bytes) : Handled where
  buildRWset :=
    let buildRwset := (unmarshal BuildRwset.table .zero payload).1
    if isCollectionSet buildRwset.collection then none
    else if isValidTxSim then if buildRwset.txnCount = -1 then none else some buildRwset
    else none
  payload :=
    let buildRwset := (unmarshal BuildRwset.table .zero payload).1
    (Response.marshal ⟨buildRwset.status, buildRwset.message, buildRwset.payload⟩).1

inductive ExecutionError where
  | unmarshal
  | failure (payload : Bytes)
  deriving DecidableEq

/-- The peer reads the response from the payload that is handed on. -/
def processChaincodeExecutionResult : ChaincodeMessage → Except ExecutionError Response
  | .completed payload =>
    match unmarshal Response.table .zero payload with
    | (res, true) => .ok res
    | (_, false) => .error .unmarshal
  | .error payload => .error (.failure payload)

end Pobl.Chaincode
