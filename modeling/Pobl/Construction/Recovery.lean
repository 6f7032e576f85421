/-
This file models how a peer brings its databases up to the block store: `recoverDBs` in `kvledger/kv_ledger.go`.
-/

import Pobl.Library.Checks

namespace Pobl.Recovery

open Library

/-- A database with its save point, and the blocks that were committed to it in order. -/
structure Recoverable where
  name : String
  enabled : Bool
  savepoint : Option UInt64
  commits : List UInt64
  deriving DecidableEq

structure TxPvtData where
  seqInBlock : UInt64
  writeSet : List UInt8
  deriving DecidableEq

inductive Database where
  | state
  | history
  deriving DecidableEq

/-- The block store has the blocks below its height. The private data of old blocks waits in its own store, and
`passed` has what the transaction manager got from it. -/
structure KvLedger where
  height : UInt64
  isValid : UInt64 → UInt64 → Bool
  stateDB : Recoverable
  historyDB : Recoverable
  lastUpdatedOldBlocks : List (UInt64 × List TxPvtData)
  passed : List (List (UInt64 × List TxPvtData))

/-- The history database can be switched off. -/
def Recoverable.shouldRecover (db : Recoverable) (lastAvailableBlock : UInt64) : Bool × UInt64 :=
  if !db.enabled then (false, 0)
  else
    match db.savepoint with
    | none => (true, 0)
    | some savepoint => (savepoint ≠ lastAvailableBlock, savepoint + 1)

def Recoverable.commitLostBlock (db : Recoverable) (block : UInt64) : Recoverable :=
  { db with savepoint := some block, commits := db.commits ++ [block] }

namespace KvLedger

def db (l : KvLedger) : Database → Recoverable
  | .state => l.stateDB
  | .history => l.historyDB

def commitLostBlock (l : KvLedger) (block : UInt64) : Database → KvLedger
  | .state => { l with stateDB := l.stateDB.commitLostBlock block }
  | .history => { l with historyDB := l.historyDB.commitLostBlock block }

/-- The largest number asks for the last block. -/
def retrieveBlockByNumber (l : KvLedger) (blockNum : UInt64) : Except (String × KvLedger) UInt64 :=
  let blockNum := if blockNum = -1 then l.height - 1 else blockNum
  if blockNum < l.height then .ok blockNum else .error ("Entry not found in index", l)

/-- The numbers of the loop. The last one is below a height, so the counter does not wrap. -/
def blockNumbers (firstBlockNum lastBlockNum : UInt64) : List UInt64 :=
  (List.range' firstBlockNum.toNat (lastBlockNum.toNat + 1 - firstBlockNum.toNat)).map UInt64.ofNat

def recommitLostBlocks (firstBlockNum lastBlockNum : UInt64) (recoverables : List Database) (l : KvLedger) :
    Except (String × KvLedger) KvLedger :=
  (blockNumbers firstBlockNum lastBlockNum).foldlM (fun l blockNumber => do
    let block ← l.retrieveBlockByNumber blockNumber
    return recoverables.foldl (fun l database => l.commitLostBlock block database) l) l

structure Recoverer where
  firstBlockNum : UInt64
  recoverable : Database

def recoverers (l : KvLedger) (lastAvailableBlockNum : UInt64) :
    List Database → Except (String × KvLedger) (List Recoverer)
  | [] => .ok []
  | database :: rest => do
    let (recoverFlag, firstBlockNum) := (l.db database).shouldRecover lastAvailableBlockNum
    let name := (l.db database).name
    require (firstBlockNum ≤ lastAvailableBlockNum + 1)
      (s!"the {name} database [height={firstBlockNum}] is ahead of the block store " ++
        s!"[height={lastAvailableBlockNum + 1}]. This is possible when the {name} database is not dropped after a " ++
        s!"ledger reset/rollback. The {name} database can safely be dropped and will be rebuilt up to block store " ++
        "height upon the next peer start.", l)
    let later ← l.recoverers lastAvailableBlockNum rest
    return if recoverFlag then ⟨firstBlockNum, database⟩ :: later else later

/-- The database that lags is brought up to the other one first. -/
def syncStateAndHistoryDBWithBlockstore (l : KvLedger) : Except (String × KvLedger) KvLedger :=
  if l.height = 0 then .ok l
  else do
    let lastAvailableBlockNum := l.height - 1
    match ← l.recoverers lastAvailableBlockNum [.state, .history] with
    | [] => return l
    | [only] => l.recommitLostBlocks only.firstBlockNum lastAvailableBlockNum [only.recoverable]
    | one :: two :: _ =>
      let (lagger, other) := if one.firstBlockNum > two.firstBlockNum then (two, one) else (one, two)
      let l ←
        if lagger.firstBlockNum ≠ other.firstBlockNum then
          l.recommitLostBlocks lagger.firstBlockNum (other.firstBlockNum - 1) [lagger.recoverable]
        else pure l
      l.recommitLostBlocks other.firstBlockNum lastAvailableBlockNum [lagger.recoverable, other.recoverable]

/-- At height zero the bound wraps around, and nothing is filtered. -/
def filterYetToCommitBlocks (l : KvLedger) : List (UInt64 × List TxPvtData) :=
  l.lastUpdatedOldBlocks.filter fun entry => ¬ entry.1 > l.height - 1

def filterPvtDataOfInvalidTx (l : KvLedger) (blocksPvtData : List (UInt64 × List TxPvtData)) :
    Except (String × KvLedger) (List (UInt64 × List TxPvtData)) :=
  blocksPvtData.mapM fun entry => do
    let block ← l.retrieveBlockByNumber entry.1
    return (entry.1, entry.2.filter fun pvtData => l.isValid block pvtData.seqInBlock)

def syncStateDBWithPvtdatastore (l : KvLedger) : Except (String × KvLedger) KvLedger := do
  let committedPvtData ← l.filterPvtDataOfInvalidTx l.filterYetToCommitBlocks
  return { l with passed := l.passed ++ [committedPvtData], lastUpdatedOldBlocks := [] }

def recoverDBs (l : KvLedger) : Except (String × KvLedger) KvLedger := do
  let l ← l.syncStateAndHistoryDBWithBlockstore
  l.syncStateDBWithPvtdatastore

end KvLedger

end Pobl.Recovery
