/-
This file models the local state of the chaincode shim and its commit loop:
`localstate.go`, `localtxnsimulator.go` and `Handler.ValidateAndCommit` of `handler.go`.
Chaincode executions run concurrently with the loop.
-/

import Pobl.Construction.Envelope
import Pobl.Library.GoMap
import Pobl.Library.Heap

namespace Pobl.Shim

open Library Protos

abbrev CellRef := Nat

/-- The fields of a cell that the lock-free path uses. A nil value is absent. -/
structure KeyValue where
  value : Option Value
  strValue : Value
  fromTxnid : TxId
  deriving DecidableEq, Inhabited

structure LocalState where
  cells : Heap KeyValue
  localKeyValues : GoMap CellRef

/-- One entry of the read set or the write set of an execution. A write has no cell. -/
structure UNLockKV where
  keyValue : Option CellRef
  key : Key
  strValue : Value
  btValue : Option Value
  pTxid : TxId
  deriving DecidableEq, Inhabited

/-- The lists `observed` and `written` record the results of the reads of an execution and the values that it has
put, in order. -/
structure LocalTxnSimulator where
  txid : TxId
  txidCount : Int
  finalReadSet : List KVRead
  finalWriteSet : List KVWrite
  unLockReadSets : GoMap UNLockKV
  unLockWriteSets : GoMap UNLockKV
  observed : List (Key × Option Value)
  written : List (Key × Option Value)

def newLocalTxnSimulator (txid : TxId) : LocalTxnSimulator where
  txid := txid
  txidCount := 0
  finalReadSet := []
  finalWriteSet := []
  unLockReadSets := ∅
  unLockWriteSets := ∅
  observed := []
  written := []

def LocalState.getUnLockState (ls : LocalState) (key : Key) : Option CellRef := ls.localKeyValues.lookup key

/-- The function returns the previous writer of the key and its value.
A new cell already names the writing transaction when the previous writer is read. -/
def LocalState.setUnLockKVForWrite (ls : LocalState) (key : Key) (btvalue : Option Value) (strvalue : Value)
    (txid : TxId) : LocalState × TxId × Option Value :=
  match ls.localKeyValues.lookup key with
  | none =>
    ({ cells := ls.cells.alloc ⟨btvalue, strvalue, txid⟩
       localKeyValues := ls.localKeyValues.insert key ls.cells.size }, txid, btvalue)
  | some cell =>
    ({ ls with cells := ls.cells.modify cell fun _ => ⟨btvalue, strvalue, txid⟩ },
      (ls.cells.read cell).fromTxnid, (ls.cells.read cell).value)

/-- A read of a key without a cell returns nil and does not enter the read set.
Reads do not see the writes of their own execution. -/
def LocalTxnSimulator.getState (ls : LocalState) (key : Key) (lts : LocalTxnSimulator) :
    Option Value × LocalTxnSimulator :=
  match ls.getUnLockState key with
  | none => (none, { lts with observed := lts.observed ++ [(key, none)] })
  | some lk =>
    let tempstr := (ls.cells.read lk).strValue
    let rkv : UNLockKV := ⟨some lk, key, tempstr, some tempstr, (ls.cells.read lk).fromTxnid⟩
    (some tempstr,
      { lts with
        unLockReadSets := lts.unLockReadSets.insert key rkv
        observed := lts.observed ++ [(key, some tempstr)] })

/-- The entry of the write set holds a copy of the value as a string, and the byte slice of the caller itself. -/
def LocalTxnSimulator.setState (key : Key) (value : Option Value) (lts : LocalTxnSimulator) : LocalTxnSimulator :=
  { lts with
    unLockWriteSets := lts.unLockWriteSets.insert key ⟨none, key, value.getD [], value, ""⟩
    written := lts.written ++ [(key, value)] }

def LocalTxnSimulator.deleteState (key : Key) (lts : LocalTxnSimulator) : LocalTxnSimulator :=
  lts.setState key none

/-- The built-in function `copy` does not change the length of a slice. -/
def copyBytes (dst src : Value) : Value := src.take dst.length ++ dst.drop src.length

/-- The chaincode copies bytes into the slice that it has put under the key. The write set holds the same slice. -/
def LocalTxnSimulator.copySlice (key : Key) (src : Value) (lts : LocalTxnSimulator) : LocalTxnSimulator :=
  match lts.unLockWriteSets.lookup key with
  | none => lts
  | some wkv =>
    { lts with unLockWriteSets :=
        lts.unLockWriteSets.insert key { wkv with btValue := wkv.btValue.map fun dst => copyBytes dst src } }

structure Response where
  status : Int
  message : String
  payload : Value
  deriving DecidableEq, Inhabited

def ok : Int := 200
def errorThreshold : Int := 400
def error : Int := 500

/-- A chaincode is a program over the state functions of its stub. It may change a slice that it has put. -/
inductive Program where
  | getState (key : Key) (next : Option Value → Program)
  | putState (key : Key) (value : Option Value) (next : Option String → Program)
  | delState (key : Key) (next : Program)
  | copy (key : Key) (src : Value) (next : Program)
  | done (res : Response)

/-- The stub refuses to put a value under the empty key. -/
def putState (key : Key) (value : Option Value) (lts : LocalTxnSimulator) : Option String × LocalTxnSimulator :=
  if key = "" then (some "key must not be an empty string", lts) else (none, lts.setState key value)

def Program.call (ls : LocalState) : Program → LocalTxnSimulator → Program × LocalTxnSimulator
  | .getState key next, lts =>
    let (value, lts) := lts.getState ls key
    (next value, lts)
  | .putState key value next, lts =>
    let (err, lts) := Shim.putState key value lts
    (next err, lts)
  | .delState key next, lts => (next, lts.deleteState key)
  | .copy key src next, lts => (next, lts.copySlice key src)
  | .done res, lts => (.done res, lts)

/-- An execution to the end while the local state does not change. -/
def Program.invoke (ls : LocalState) : Program → LocalTxnSimulator → LocalTxnSimulator × Response
  | .getState key next, lts =>
    let (value, lts) := lts.getState ls key
    (next value).invoke ls lts
  | .putState key value next, lts =>
    let (err, lts) := Shim.putState key value lts
    (next err).invoke ls lts
  | .delState key next, lts => next.invoke ls (lts.deleteState key)
  | .copy key src next, lts => next.invoke ls (lts.copySlice key src)
  | .done res, lts => (lts, res)

/-- The stub of an invocation. The chaincode runs `invoke` first and `reinvoke` if its reads are
outdated at the commit. A deterministic chaincode has the same program for both. -/
structure ChaincodeStub where
  txID : TxId
  lts : LocalTxnSimulator
  invoke : Program
  reinvoke : Program

structure CommitMsg where
  stub : ChaincodeStub
  res : Response

structure BuildRwset where
  readSet : List KVRead
  writeSet : List KVWrite
  collection : String
  txnCount : Int
  status : Int
  message : String
  payload : Value
  deriving DecidableEq, Inhabited

inductive ChaincodeMessage where
  | error (txid : TxId) (payload : String)
  | completed (txid : TxId) (payload : BuildRwset)
  deriving DecidableEq

/-- The `range` statements of the commit whose order can change the result. -/
inductive RangeSite where
  | unLockReadSets
  | unLockWriteSets
  deriving DecidableEq

/-- The reads are compared by value with the cells that they came from. -/
def flagCommit (ls : LocalState) (lts : LocalTxnSimulator) : Bool :=
  lts.unLockReadSets.entries.all fun rkv =>
    rkv.2.keyValue.all fun cell => rkv.2.strValue = (ls.cells.read cell).strValue

/-- The parent of a read is the transaction that its cell names at the commit. -/
def finalRead (ls : LocalState) (rkv : GoEntry UNLockKV) : KVRead where
  key := rkv.1
  value := rkv.2.strValue
  isRead := true
  txid := rkv.2.keyValue.elim "" fun cell => (ls.cells.read cell).fromTxnid

def finalReads (order : RangeOrder RangeSite) (ls : LocalState) (lts : LocalTxnSimulator) : LocalTxnSimulator :=
  let reads := (order.visit .unLockReadSets lts.unLockReadSets.entries).map (finalRead ls)
  { lts with finalReadSet := lts.finalReadSet ++ reads }

def finalWrite (ls : LocalState) (txid : TxId) (wkv : GoEntry UNLockKV) (lts : LocalTxnSimulator) :
    LocalState × LocalTxnSimulator :=
  let (ls, ptxid, _) := ls.setUnLockKVForWrite wkv.1 wkv.2.btValue wkv.2.strValue txid
  let write : KVWrite := ⟨wkv.1, wkv.2.btValue.isNone, wkv.2.btValue.getD [], true, ptxid⟩
  (ls, { lts with finalWriteSet := lts.finalWriteSet ++ [write] })

/-- The commit loop inside `ValidateAndCommit`, with the writes that it has still to do. -/
structure Committing where
  txid : TxId
  lts : LocalTxnSimulator
  res : Response
  writes : List (GoEntry UNLockKV)

/-- The execution that is committed: the received one, or a new one if its reads are outdated. -/
def executed (ls : LocalState) (msg : CommitMsg) : LocalTxnSimulator × Response :=
  if flagCommit ls msg.stub.lts then (msg.stub.lts, msg.res)
  else msg.stub.reinvoke.invoke ls (newLocalTxnSimulator msg.stub.txID)

/-- The first part of `ValidateAndCommit` tests the reads and collects the final read set.
Both of its branches then write in the same way. -/
def validate (order : RangeOrder RangeSite) (ls : LocalState) (msg : CommitMsg) : Committing :=
  let (lts, res) := executed ls msg
  let lts := finalReads order ls lts
  ⟨msg.stub.txID, lts, res, order.visit .unLockWriteSets lts.unLockWriteSets.entries⟩

/-- The payload of the message that ends a commit. The status of the response plays no part. -/
def Committing.payload (commit : Committing) : BuildRwset where
  readSet := commit.lts.finalReadSet
  writeSet := commit.lts.finalWriteSet
  collection := ""
  txnCount := commit.lts.txidCount
  status := commit.res.status
  message := commit.res.message
  payload := commit.res.payload

structure Execution where
  stub : ChaincodeStub
  program : Program

def Execution.call (ls : LocalState) (execution : Execution) : Execution :=
  let (program, lts) := execution.program.call ls execution.stub.lts
  ⟨{ execution.stub with lts := lts }, program⟩

/-- The handler with its running executions, the channel of its commit loop and the sent messages. -/
structure Handler where
  localState : LocalState
  running : List Execution
  commitC : List CommitMsg
  committing : Option Committing
  sent : List ChaincodeMessage

def newChaincodeHandler : Handler := ⟨⟨Heap.empty, ∅⟩, [], [], none, []⟩

def commitCapacity : Nat := 5000

/-- The steps of the goroutines of a handler.
An invocation starts with its decoded input or with an error, calls its stub, and sends its result to
the commit loop. The loop receives a result, writes its cells one by one and sends the message. -/
inductive Event where
  | handleTransaction (txid : TxId) (input : Except String (Program × Program))
  | call (index : Nat)
  | send (index : Nat)
  | receive (order : RangeOrder RangeSite)
  | write
  | complete

def handleTransaction (txid : TxId) (input : Except String (Program × Program)) (handler : Handler) : Handler :=
  match input with
  | .error err => { handler with sent := handler.sent ++ [.error txid err] }
  | .ok (invoke, reinvoke) =>
    { handler with running := handler.running ++
        [⟨⟨txid, newLocalTxnSimulator txid, invoke, reinvoke⟩, invoke⟩] }

/-- A step is not possible when its channel operation blocks or its goroutine is elsewhere. -/
def Handler.step (handler : Handler) : Event → Option Handler
  | .handleTransaction txid input => some (Shim.handleTransaction txid input handler)
  | .call index =>
    handler.running[index]?.map fun execution =>
      { handler with running := handler.running.set index (execution.call handler.localState) }
  | .send index =>
    match handler.running[index]? with
    | some ⟨stub, .done res⟩ =>
      if handler.commitC.length < commitCapacity then
        some { handler with
          running := handler.running.eraseIdx index
          commitC := handler.commitC ++ [⟨stub, res⟩] }
      else none
    | _ => none
  | .receive order =>
    match handler.committing, handler.commitC with
    | none, msg :: rest =>
      some { handler with
        commitC := rest
        committing := some (validate order handler.localState msg) }
    | _, _ => none
  | .write =>
    match handler.committing with
    | some ⟨txid, lts, res, wkv :: writes⟩ =>
      let (ls, lts) := finalWrite handler.localState txid wkv lts
      some { handler with localState := ls, committing := some ⟨txid, lts, res, writes⟩ }
    | _ => none
  | .complete =>
    match handler.committing with
    | some commit =>
      if commit.writes = [] then
        some { handler with committing := none, sent := handler.sent ++ [.completed commit.txid commit.payload] }
      else none
    | none => none

end Pobl.Shim
