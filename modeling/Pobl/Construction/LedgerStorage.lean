/-
This file models how the ledger storage commits a block with its private data and how it opens after a crash:
`ledgerstorage/store.go` and `pvtdatastorage/store_impl.go`. Each write of a batch and each append is atomic. The
numbers of blocks stay below 2 ^ 64.
-/

import Pobl.Library.Checks

namespace Pobl.LedgerStorage

open Library

structure Disk (Block Data : Type) where
  blocks : List Block
  lastCommittedBlock : Option Nat
  pendingCommit : Bool
  pvtData : List (Nat × Data)
  deriving DecidableEq

/-- An open storage. The list `images` has the disk at the start of an operation and after each of its writes. -/
structure Store (Block Data : Type) where
  disk : Disk Block Data
  isEmpty : Bool
  lastCommittedBlock : Nat
  batchPending : Bool
  isPvtstoreAheadOfBlockstore : Bool
  images : List (Disk Block Data)

variable {Block Data : Type}

namespace Store

def write (s : Store Block Data) (disk : Disk Block Data) : Store Block Data :=
  { s with disk, images := s.images ++ [disk] }

def nextBlockNum (s : Store Block Data) : Nat := if s.isEmpty then 0 else s.lastCommittedBlock + 1

def lastCommittedBlockHeight (s : Store Block Data) : Nat := if s.isEmpty then 0 else s.lastCommittedBlock + 1

def prepare (s : Store Block Data) (blockNum : Nat) (data : Data) : Except String (Store Block Data) := do
  require (s.batchPending = false) ("A pending batch exists as as result of last invoke to \"Prepare\" call.\n" ++
    "\t\t\t Invoke \"Commit\" on the pending batch before invoking \"Prepare\" function")
  let expectedBlockNum := s.nextBlockNum
  require (expectedBlockNum = blockNum)
    s!"Expected block number={expectedBlockNum}, received block number={blockNum}"
  let s := s.write { s.disk with pvtData := s.disk.pvtData ++ [(blockNum, data)], pendingCommit := true }
  return { s with batchPending := true }

def commit (s : Store Block Data) : Except String (Store Block Data) := do
  require (s.batchPending = true) "No pending batch to commit"
  let committingBlockNum := s.nextBlockNum
  let s := s.write { s.disk with pendingCommit := false, lastCommittedBlock := some committingBlockNum }
  return { s with batchPending := false, isEmpty := false, lastCommittedBlock := committingBlockNum }

def initLastCommittedBlock (s : Store Block Data) (blockNum : Nat) : Except String (Store Block Data) := do
  require (s.isEmpty = true ∧ s.batchPending = false)
    "The private data store is not empty. InitLastCommittedBlock() function call is not allowed"
  let s := s.write { s.disk with lastCommittedBlock := some blockNum }
  return { s with isEmpty := false, lastCommittedBlock := blockNum }

def addBlock (s : Store Block Data) (blockNum : Nat) (block : Block) : Except String (Store Block Data) := do
  let height := s.disk.blocks.length
  require (blockNum = height) s!"block number should have been {height} but was {blockNum}"
  return s.write { s.disk with blocks := s.disk.blocks ++ [block] }

def commitWithPvtData (s : Store Block Data) (blockNum : Nat) (block : Block) (data : Data) :
    Except String (Store Block Data) := do
  let pvtBlkStoreHt := s.lastCommittedBlockHeight
  let writtenToPvtStore := decide (pvtBlkStoreHt < blockNum + 1)
  let s ← if writtenToPvtStore then s.prepare blockNum data else pure s
  let s ← s.addBlock blockNum block
  let s := if pvtBlkStoreHt = blockNum + 1 then { s with isPvtstoreAheadOfBlockstore := false } else s
  if writtenToPvtStore then s.commit else return s

/-- The handle of the private data store reads its state from the disk. -/
def initState (disk : Disk Block Data) : Store Block Data where
  disk
  isEmpty := disk.lastCommittedBlock.isNone
  lastCommittedBlock := disk.lastCommittedBlock.getD 0
  batchPending := disk.pendingCommit
  isPvtstoreAheadOfBlockstore := false
  images := [disk]

def initPvtdataStoreFromExistingBlockchain (s : Store Block Data) : Except String (Bool × Store Block Data) :=
  if s.isEmpty ∧ s.disk.blocks.length > 0 then do
    let s ← s.initLastCommittedBlock (s.disk.blocks.length - 1)
    return (true, s)
  else return (false, s)

def commitPendingBatchInPvtdataStore (s : Store Block Data) : Except String (Store Block Data) :=
  if s.batchPending then s.commit else return s

def init (s : Store Block Data) : Except String (Store Block Data) := do
  let (initialized, s) ← s.initPvtdataStoreFromExistingBlockchain
  if initialized then return s else s.commitPendingBatchInPvtdataStore

def openStore (disk : Disk Block Data) : Except String (Store Block Data) := do
  let s ← (initState disk).init
  return { s with isPvtstoreAheadOfBlockstore := s.lastCommittedBlockHeight > s.disk.blocks.length }

/-- The storage is opened after a crash. The opening itself crashes after the given numbers of writes. -/
def reopen (disk : Disk Block Data) : List Nat → Except String (Store Block Data)
  | [] => openStore disk
  | writes :: rest => do
    let s ← openStore disk
    reopen (s.images[writes]?.getD s.disk) rest

/-- The next block of a chain is committed. With crash points, the commit ends after the first number of writes,
and the storage is opened again. A retry has the same private data: the coordinator reads what is stored. -/
def commitNext (chain : Nat → Block × Data) (s : Store Block Data) (crashes : List Nat) :
    Option (Store Block Data) := do
  let blockNum := s.disk.blocks.length
  let block := chain blockNum
  let after ← ({ s with images := [s.disk] }.commitWithPvtData blockNum block.1 block.2).toOption
  match crashes with
  | [] => return after
  | writes :: rest => (reopen (after.images[writes]?.getD after.disk) rest).toOption

end Store

end Pobl.LedgerStorage
