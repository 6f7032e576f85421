/-
This file models the reads of one transaction simulator between the commits of blocks and the sets that it collects:
`lockbased_txmgr.go`, `lockbased_tx_simulator.go` and the query helper in `helper.go`. Each access to the database is
one step.
-/

import Pobl.Construction.RWSetBuilder

namespace Pobl.Txmgmt

open Library

/-- An iterator reads the database as it was when the iterator was opened. -/
structure ResultsItr where
  ns : String
  startKey : String
  endKey : String
  dbItr : List VersionedKV
  position : Nat

/-- A value of the query options. -/
inductive OptionValue where
  | int32 (value : Int32)
  | other
  deriving DecidableEq

/-- The limit is the only option, and no options are no limit. -/
def requestedLimit : Option (GoMap OptionValue) → Option Int32
  | none => some 0
  | some metadata =>
    if metadata.entries.all fun entry => entry.1 = "limit" ∧ entry.2 ≠ .other then
      match metadata.lookup "limit" with
      | some (.int32 limit) => some limit
      | _ => some 0
    else none

/-- The results that a scanner with a limit returns. -/
def limited (limit : Int32) (results : List VersionedKV) : List VersionedKV :=
  if 0 < limit then results.take limit.toInt.toNat else results

/-- The iterator of a simulator, which also records the range query. -/
structure SimulatorItr (Hash : Type) extends ResultsItr where
  rangeQueryInfo : RangeQueryInfo Hash
  rangeQueryResultsHelper : RangeQueryResultsHelper (String × Height) Hash

namespace SimulatorItr

variable {Hash : Type} (hashing : Hashing (String × Height) Hash)

/-- The end key is set when results are returned. -/
def newResultsItr (ns startKey endKey : String) (metadata : Option (GoMap OptionValue)) (db : CommonStorageDB)
    (enableHashing : Bool) (maxDegree : UInt32) : Option (SimulatorItr Hash) :=
  (requestedLimit metadata).bind fun limit =>
    (RangeQueryResultsHelper.newRangeQueryResultsHelper enableHashing maxDegree).map fun resultsHelper =>
      { ns := ns
        startKey := startKey
        endKey := endKey
        dbItr := limited limit (db.getStateRangeScanIterator ns startKey endKey)
        position := 0
        rangeQueryInfo := ⟨startKey, "", false, .empty⟩
        rangeQueryResultsHelper := resultsHelper }

def updateRangeQueryInfo (queryResult : Option VersionedKV) (itr : SimulatorItr Hash) : SimulatorItr Hash :=
  match queryResult with
  | none => { itr with rangeQueryInfo := { itr.rangeQueryInfo with itrExhausted := true, endKey := itr.endKey } }
  | some versionedKV =>
    { itr with
      rangeQueryResultsHelper :=
        itr.rangeQueryResultsHelper.addResult hashing (versionedKV.1, versionedKV.2.version)
      rangeQueryInfo := { itr.rangeQueryInfo with endKey := versionedKV.1 } }

def next (itr : SimulatorItr Hash) : Option VersionedKV × SimulatorItr Hash :=
  let queryResult := itr.dbItr[itr.position]?
  (queryResult, updateRangeQueryInfo hashing queryResult { itr with position := itr.position + 1 })

/-- The results are set if there are any, and a summary replaces them. -/
def readsInfo : List (String × Height) × Option (QueryReadsMerkleSummary Hash) → ReadsInfo Hash
  | (_, some hash) => .readsMerkleHashes hash
  | ([], none) => .empty
  | (results, none) => .rawReads (results.map fun result => newKVRead result.1 (some result.2))

def recorded (itr : SimulatorItr Hash) : RangeQueryInfo Hash :=
  { itr.rangeQueryInfo with readsInfo := readsInfo (itr.rangeQueryResultsHelper.done hashing) }

end SimulatorItr

/-- What the database returned to the simulator: the state of a key, or one result of an iterator. -/
inductive Returned where
  | state (ns key : String) (versionedValue : Option VersionedValue)
  | next (ns startKey endKey : String) (position : Nat) (queryResult : Option VersionedKV)

/-- The transaction manager with one simulator.
The keys of a call for many keys wait in `requested` until each of them is read. -/
structure LockBasedTxMgr where
  db : CommonStorageDB
  committed : List CommonStorageDB
  readLocks : Nat
  writeLock : Bool
  itrs : List ResultsItr
  requested : List (String × String)
  returned : List Returned
  doneInvoked : Bool

/-- The accesses of the simulator and the parts of a commit. -/
inductive TxMgrStep where
  | getState (ns key : String)
  | getStateMultipleKeys (ns : String) (keys : List String)
  | nextKey
  | getStateRangeScanIterator (ns startKey endKey : String)
  | next (itr : Nat)
  | done
  | commitLock
  | applyPrivacyAwareUpdates (updates : PubAndHashUpdates)
  | commitUnlock

namespace LockBasedTxMgr

/-- A new simulator takes no read lock. -/
def newTxSimulator (db : CommonStorageDB) : LockBasedTxMgr where
  db := db
  committed := [db]
  readLocks := 0
  writeLock := false
  itrs := []
  requested := []
  returned := []
  doneInvoked := false

/-- A call starts after the last one returned. After `Done` it is an error. -/
def call (txmgr : LockBasedTxMgr) (start : LockBasedTxMgr → Option LockBasedTxMgr) : Option LockBasedTxMgr :=
  if txmgr.requested ≠ [] then none else if txmgr.doneInvoked then some txmgr else start txmgr

def returnState (ns key : String) (txmgr : LockBasedTxMgr) : LockBasedTxMgr :=
  { txmgr with returned := txmgr.returned ++ [.state ns key (txmgr.db.getState ns key)] }

def step (txmgr : LockBasedTxMgr) : TxMgrStep → Option LockBasedTxMgr
  | .getState ns key => txmgr.call fun txmgr => some (txmgr.returnState ns key)
  | .getStateMultipleKeys ns keys => txmgr.call fun txmgr => some { txmgr with requested := keys.map (ns, ·) }
  | .nextKey =>
    match txmgr.requested with
    | [] => none
    | (ns, key) :: requested => some { txmgr.returnState ns key with requested := requested }
  | .getStateRangeScanIterator ns startKey endKey =>
    txmgr.call fun txmgr =>
      some { txmgr with
        itrs := txmgr.itrs ++
          [⟨ns, startKey, endKey, txmgr.db.getStateRangeScanIterator ns startKey endKey, 0⟩] }
  | .next index =>
    txmgr.call fun txmgr =>
      (txmgr.itrs[index]?).map fun itr =>
        { txmgr with
          itrs := txmgr.itrs.set index { itr with position := itr.position + 1 }
          returned := txmgr.returned ++
            [.next itr.ns itr.startKey itr.endKey itr.position (itr.dbItr[itr.position]?)] }
  | .done => txmgr.call fun txmgr => some { txmgr with doneInvoked := true }
  | .commitLock =>
    if txmgr.readLocks ≠ 0 ∨ txmgr.writeLock then none else some { txmgr with writeLock := true }
  | .applyPrivacyAwareUpdates updates =>
    if txmgr.writeLock then
      some { txmgr with
        db := txmgr.db.applyPrivacyAwareUpdates updates
        committed := txmgr.db.applyPrivacyAwareUpdates updates :: txmgr.committed }
    else none
  | .commitUnlock => if txmgr.writeLock then some { txmgr with writeLock := false } else none

end LockBasedTxMgr

/-- The sets of a transaction that the shim returns. -/
structure BuildRwset where
  readSet : List KVRead
  writeSet : List KVWrite
  txnCount : Int64

structure LockBasedTxSimulator (Hash : Type) where
  rwsetBuilder : RWSetBuilder Hash
  isBroadcast : Bool
  txnCount : Int64

/-- The calls of the handler for public keys, each with the database as it is at the call. -/
inductive SimulatorCall where
  | getState (db : CommonStorageDB) (ns key : String)
  | setState (ns key : String) (value : Option Wire.Bytes)

namespace LockBasedTxSimulator

variable {Hash : Type}

def newLockBasedTxSimulator : LockBasedTxSimulator Hash := ⟨.newRWSetBuilder, false, -1⟩

def call (simulator : LockBasedTxSimulator Hash) : SimulatorCall → LockBasedTxSimulator Hash
  | .getState db ns key =>
    { simulator with
      rwsetBuilder := simulator.rwsetBuilder.addToReadSet ns key ((db.getState ns key).map VersionedValue.version) }
  | .setState ns key value =>
    { simulator with rwsetBuilder := simulator.rwsetBuilder.addToWriteSet ns key value }

def buildRWset (buildRwset : BuildRwset) (ns : String) (simulator : LockBasedTxSimulator Hash) :
    LockBasedTxSimulator Hash where
  rwsetBuilder :=
    let read := buildRwset.readSet.foldl (fun builder rkv => builder.addToReadSetResult ns rkv) simulator.rwsetBuilder
    buildRwset.writeSet.foldl (fun builder wkv => builder.addToWriteSetResult ns wkv) read
  isBroadcast := if 0 < buildRwset.writeSet.length then true else simulator.isBroadcast
  txnCount := buildRwset.txnCount

end LockBasedTxSimulator

end Pobl.Txmgmt
