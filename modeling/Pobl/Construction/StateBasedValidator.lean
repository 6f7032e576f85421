/-
This file models the validation of a block against the state and the preparation of its updates:
`state_based_validator.go`, `combined_iterator.go`, `range_query_validator.go`, `val.go` and `tx_ops_preparation.go`.
-/

import Pobl.Construction.RWSetBuilder
import Pobl.Construction.Validation

namespace Pobl.Txmgmt

open Library Library.Wire Peer

/-- How the validation of a block ends without a result. -/
inductive ValidatorPanic where
  | nilValue
  | rangeQuery (stop : RangeQueryPanic)
  deriving DecidableEq

variable {Hash : Type}

structure CompositeKey where
  ns : String
  coll : String
  key : String
  deriving DecidableEq

structure KeyOps where
  flag : UInt8
  value : Option Bytes
  metadata : Option Bytes
  deriving DecidableEq

def upsertVal : UInt8 := 1
def metadataUpdate : UInt8 := 2
def metadataDelete : UInt8 := 4
def keyDelete : UInt8 := 8

namespace KeyOps

def isDelete (keyops : KeyOps) : Bool := keyops.flag &&& keyDelete = keyDelete

def isUpsertAndMetadataUpdate (keyops : KeyOps) : Bool :=
  if keyops.flag &&& upsertVal = upsertVal then
    keyops.flag &&& metadataUpdate = metadataUpdate ∨ keyops.flag &&& metadataDelete = metadataDelete
  else false

def isOnlyUpsert (keyops : KeyOps) : Bool := keyops.flag ||| upsertVal = upsertVal

end KeyOps

abbrev TxOps := AList fun _ : CompositeKey => KeyOps

def serializeMetadata (entries : List KVMetadataEntry) : Bytes × Bool :=
  marshal [appendElements 2 (entries.map fun entry => marshal [appendString 1 entry.name, appendBytes 2 entry.value])]

namespace TxOps

def getOrCreateKeyEntry (key : CompositeKey) (txops : TxOps) : KeyOps := (txops.lookup key).getD ⟨0, none, none⟩

def upsert (key : CompositeKey) (value : Option Bytes) (txops : TxOps) : TxOps :=
  let keyops := getOrCreateKeyEntry key txops
  txops.insert key { keyops with flag := keyops.flag + upsertVal, value := value }

def delete (key : CompositeKey) (txops : TxOps) : TxOps :=
  let keyops := getOrCreateKeyEntry key txops
  txops.insert key { keyops with flag := keyops.flag + keyDelete }

def metadataUpdate (key : CompositeKey) (metadata : Bytes) (txops : TxOps) : TxOps :=
  let keyops := getOrCreateKeyEntry key txops
  txops.insert key { keyops with flag := keyops.flag + Txmgmt.metadataUpdate, metadata := some metadata }

def metadataDelete (key : CompositeKey) (txops : TxOps) : TxOps :=
  let keyops := getOrCreateKeyEntry key txops
  txops.insert key { keyops with flag := keyops.flag + Txmgmt.metadataDelete }

def applyKVWrite (ns coll : String) (txops : TxOps) (kvWrite : KVWrite) : TxOps :=
  if kvWrite.isDelete then delete ⟨ns, coll, kvWrite.key⟩ txops else upsert ⟨ns, coll, kvWrite.key⟩ kvWrite.value txops

/-- An entry that cannot be serialized is an error, which the caller ignores. -/
def applyMetadata (ns coll : String) (txops : TxOps) (metadataWrite : KVMetadataWrite) : TxOps :=
  if metadataWrite.entries = [] then metadataDelete ⟨ns, coll, metadataWrite.key⟩ txops
  else
    match serializeMetadata metadataWrite.entries with
    | (metadataBytes, true) => metadataUpdate ⟨ns, coll, metadataWrite.key⟩ metadataBytes txops
    | (_, false) => txops

def applyColl (ns : String) (txops : TxOps) (coll : CollHashedRwSet) : TxOps :=
  let written := coll.hashedWrites.foldl
    (fun txops write =>
      applyKVWrite ns coll.collectionName txops ⟨write.keyHash, write.isDelete, write.valueHash, ""⟩) txops
  coll.metadataWrites.foldl
    (fun txops write => applyMetadata ns coll.collectionName txops ⟨write.keyHash, write.entries⟩) written

def applyNs (txops : TxOps) (nsRWSet : NsRwSet Hash) : TxOps :=
  let written := nsRWSet.kvRwSet.writes.foldl (applyKVWrite nsRWSet.nameSpace "") txops
  let updated := nsRWSet.kvRwSet.metadataWrites.foldl (applyMetadata nsRWSet.nameSpace "") written
  nsRWSet.collHashedRwSets.foldl (applyColl nsRWSet.nameSpace) updated

def applyTxRwset (rwset : TxRwSet Hash) : TxOps := rwset.nsRwSets.foldl applyNs ∅

end TxOps

/-- The value of the key in the updates of the block, where a deleted key has a nil value, or else in the database. -/
def retrieveLatestState (ck : CompositeKey) (precedingUpdates : PubAndHashUpdates) (db : CommonStorageDB) :
    Option VersionedValue :=
  if ck.coll = "" then (precedingUpdates.pubUpdates.get ck.ns ck.key).or (db.getState ck.ns ck.key)
  else (precedingUpdates.hashUpdates.get ck.ns ck.coll ck.key).or (db.getValueHash ck.ns ck.coll ck.key)

def retrieveLatestMetadata (ck : CompositeKey) (precedingUpdates : PubAndHashUpdates) (db : CommonStorageDB) :
    Option Bytes :=
  if ck.coll = "" then
    match precedingUpdates.pubUpdates.get ck.ns ck.key with
    | some vv => vv.metadata
    | none => db.getStateMetadata ck.ns ck.key
  else
    match precedingUpdates.hashUpdates.get ck.ns ck.coll ck.key with
    | some vv => vv.metadata
    | none => db.getPrivateDataMetadataByHash ck.ns ck.coll ck.key

/-- The part that a transaction does not write is taken from the latest state. A key that has none is skipped. -/
def prepareKeyOps (precedingUpdates : PubAndHashUpdates) (db : CommonStorageDB) (ck : CompositeKey) (keyop : KeyOps) :
    Option KeyOps :=
  if keyop.isDelete || keyop.isUpsertAndMetadataUpdate then some keyop
  else if keyop.isOnlyUpsert then some { keyop with metadata := retrieveLatestMetadata ck precedingUpdates db }
  else (retrieveLatestState ck precedingUpdates db).map fun latestVal => { keyop with value := latestVal.value }

def prepareTxOps (rwset : TxRwSet Hash) (precedingUpdates : PubAndHashUpdates) (db : CommonStorageDB) :
    List (CompositeKey × KeyOps) :=
  (TxOps.applyTxRwset rwset).entries.filterMap fun entry =>
    (prepareKeyOps precedingUpdates db entry.1 entry.2).map fun keyops => (entry.1, keyops)

namespace PubAndHashUpdates

def applyKeyOps (txHeight : Height) (ck : CompositeKey) (keyops : KeyOps) (updates : PubAndHashUpdates) :
    Except ValidatorPanic PubAndHashUpdates :=
  if ck.coll = "" then
    if keyops.isDelete then .ok { updates with pubUpdates := updates.pubUpdates.delete ck.ns ck.key txHeight }
    else
      match updates.pubUpdates.putValAndMetadata ck.ns ck.key keyops.value keyops.metadata txHeight with
      | none => .error .nilValue
      | some pubUpdates => .ok { updates with pubUpdates := pubUpdates }
  else if keyops.isDelete then
    .ok { updates with hashUpdates := updates.hashUpdates.delete ck.ns ck.coll ck.key txHeight }
  else
    match updates.hashUpdates.putValHashAndMetadata ck.ns ck.coll ck.key keyops.value keyops.metadata txHeight with
    | none => .error .nilValue
    | some hashUpdates => .ok { updates with hashUpdates := hashUpdates }

def applyTxOps (txHeight : Height) : List (CompositeKey × KeyOps) → PubAndHashUpdates →
    Except ValidatorPanic PubAndHashUpdates
  | [], updates => .ok updates
  | (ck, keyops) :: txops, updates => (updates.applyKeyOps txHeight ck keyops).bind (applyTxOps txHeight txops)

def applyWriteSet (txRWSet : TxRwSet Hash) (txHeight : Height) (db : CommonStorageDB) (updates : PubAndHashUpdates) :
    Except ValidatorPanic PubAndHashUpdates :=
  updates.applyTxOps txHeight (prepareTxOps txRWSet updates db)

end PubAndHashUpdates

/-- The selected item is returned unless it is deleted. -/
def serve (selectedItem : VersionedKV) (later : List VersionedKV) : List VersionedKV :=
  if selectedItem.2.isDelete then later else selectedItem :: later

/-- The items from `dbItem` on. If both iterators are at one key, the item of the updates is taken for both. -/
def nextFrom (dbItem : VersionedKV) (later : List VersionedKV → List VersionedKV) : List VersionedKV → List VersionedKV
  | [] => serve dbItem (later [])
  | updatesItem :: updatesItr =>
    if dbItem.1 < updatesItem.1 then serve dbItem (later (updatesItem :: updatesItr))
    else if dbItem.1 = updatesItem.1 then serve updatesItem (later updatesItr)
    else serve updatesItem (nextFrom dbItem later updatesItr)

def combine : List VersionedKV → List VersionedKV → List VersionedKV
  | [] => fun updatesItr => updatesItr.foldr serve []
  | dbItem :: dbItr => nextFrom dbItem (combine dbItr)

def serveEndKeyIfNeeded (db : CommonStorageDB) (updates : UpdateBatch) (ns endKey : String) (includeEndKey : Bool) :
    List VersionedKV :=
  if includeEndKey then
    match (updates.get ns endKey).or (db.getState ns endKey) with
    | none => []
    | some vv => serve (endKey, ⟨vv.value, none, vv.version⟩) []
  else []

def combinedIterator (db : CommonStorageDB) (updates : UpdateBatch) (ns startKey endKey : String)
    (includeEndKey : Bool) : List VersionedKV :=
  combine (db.getStateRangeScanIterator ns startKey endKey) (updates.getRangeScanIterator ns startKey endKey) ++
    serveEndKeyIfNeeded db updates ns endKey includeEndKey

/-- The iterator with the items that its two sources still have. The first of them is the one it looks ahead to. -/
structure CombinedIterator where
  ns : String
  db : CommonStorageDB
  updates : UpdateBatch
  endKey : String
  includeEndKey : Bool
  dbItems : List VersionedKV
  updatesItems : List VersionedKV
  endKeyServed : Bool

namespace CombinedIterator

def newCombinedIterator (db : CommonStorageDB) (updates : UpdateBatch) (ns startKey endKey : String)
    (includeEndKey : Bool) : CombinedIterator where
  ns := ns
  db := db
  updates := updates
  endKey := endKey
  includeEndKey := includeEndKey
  dbItems := db.getStateRangeScanIterator ns startKey endKey
  updatesItems := updates.getRangeScanIterator ns startKey endKey
  endKeyServed := false

/-- The smaller item is selected, and the item of the updates if the keys are equal. -/
def select (itr : CombinedIterator) : Option (VersionedKV × CombinedIterator) :=
  match itr.dbItems, itr.updatesItems with
  | [], [] => none
  | dbItem :: dbItr, [] => some (dbItem, { itr with dbItems := dbItr })
  | [], updatesItem :: updatesItr => some (updatesItem, { itr with updatesItems := updatesItr })
  | dbItem :: dbItr, updatesItem :: updatesItr =>
    if dbItem.1 < updatesItem.1 then some (dbItem, { itr with dbItems := dbItr })
    else if dbItem.1 = updatesItem.1 then
      some (updatesItem, { itr with dbItems := dbItr, updatesItems := updatesItr })
    else some (updatesItem, { itr with updatesItems := updatesItr })

theorem select_decreases {itr moved : CombinedIterator} {selectedItem : VersionedKV}
    (selected : itr.select = some (selectedItem, moved)) :
    moved.dbItems.length + moved.updatesItems.length < itr.dbItems.length + itr.updatesItems.length := by
  unfold select at selected
  grind

def serveEndKeyIfNeeded (itr : CombinedIterator) : Option VersionedKV × CombinedIterator :=
  if !itr.includeEndKey || itr.endKeyServed then (none, itr)
  else
    ((Txmgmt.serveEndKeyIfNeeded itr.db itr.updates itr.ns itr.endKey true).head?, { itr with endKeyServed := true })

/-- A deleted item is passed over. -/
def next (itr : CombinedIterator) : Option VersionedKV × CombinedIterator :=
  match _selected : itr.select with
  | none => itr.serveEndKeyIfNeeded
  | some (selectedItem, moved) => if selectedItem.2.isDelete then moved.next else (some selectedItem, moved)
termination_by itr.dbItems.length + itr.updatesItems.length
decreasing_by exact select_decreases _selected

/-- The calls of `Next` return the items in order and then nil. -/
inductive Delivers : CombinedIterator → List VersionedKV → Prop where
  | done {itr : CombinedIterator} (last : itr.next.1 = none) : Delivers itr []
  | more {itr : CombinedIterator} {item : VersionedKV} {items : List VersionedKV} (returned : itr.next.1 = some item)
      (later : Delivers itr.next.2 items) : Delivers itr (item :: items)

end CombinedIterator

/-- The results are compared one by one. The version of a result is read without a check for nil. -/
def validateResults : List KVRead → List VersionedKV → Except RangeQueryPanic Bool
  | [], results => .ok results.isEmpty
  | _ :: _, [] => .ok false
  | kvRead :: rqResults, result :: results =>
    if result.1 ≠ kvRead.key then .ok false
    else
      match kvRead.version with
      | none => .error .nilPointer
      | some version => if result.2.version ≠ version then .ok false else validateResults rqResults results

section Validator

variable [DecidableEq Hash] (hashing : Hashing (String × Height) Hash) (db : CommonStorageDB)

/-- The value is compared, and an absent key has a nil value. -/
def validateKVRead (ns : String) (kvRead : KVRead) (updates : UpdateBatch) : Bool :=
  match updates.get ns kvRead.key with
  | some vv => vv.value.getD [] = kvRead.value.getD []
  | none =>
    match db.getState ns kvRead.key with
    | none => kvRead.value = none
    | some vv => vv.value.getD [] = kvRead.value.getD []

/-- Only the reads of the shim are checked. -/
def validateReadSet (ns : String) (kvReads : List KVRead) (updates : UpdateBatch) : Bool :=
  kvReads.all fun kvRead => !kvRead.isRead || validateKVRead db ns kvRead updates

def validateRangeQuery (ns : String) (rangeQueryInfo : RangeQueryInfo Hash) (updates : UpdateBatch) :
    Except RangeQueryPanic Bool :=
  let combinedItr := combinedIterator db updates ns rangeQueryInfo.startKey rangeQueryInfo.endKey
    (!rangeQueryInfo.itrExhausted)
  match rangeQueryInfo.readsInfo with
  | .readsMerkleHashes inMerkle =>
    validateHashes hashing inMerkle (combinedItr.map fun result => (result.1, result.2.version))
  | .rawReads kvReads => validateResults kvReads combinedItr
  | .empty => validateResults [] combinedItr

def validateRangeQueries (ns : String) (updates : UpdateBatch) :
    List (RangeQueryInfo Hash) → Except RangeQueryPanic Bool
  | [] => .ok true
  | rqi :: rangeQueriesInfo =>
    match validateRangeQuery hashing db ns rqi updates with
    | .ok true => validateRangeQueries ns updates rangeQueriesInfo
    | stop => stop

def validateKVReadHash (ns coll : String) (kvReadHash : KVReadHash) (updates : HashedUpdateBatch) : Bool :=
  !updates.contains ns coll kvReadHash.keyHash && db.getKeyHashVersion ns coll kvReadHash.keyHash = kvReadHash.version

def validateNsHashedReadSets (ns : String) (collHashedRWSets : List CollHashedRwSet) (updates : HashedUpdateBatch) :
    Bool :=
  collHashedRWSets.all fun coll =>
    coll.hashedReads.all fun kvReadHash => validateKVReadHash db ns coll.collectionName kvReadHash updates

def validateNs (updates : PubAndHashUpdates) (nsRWSet : NsRwSet Hash) : Except ValidatorPanic TxValidationCode :=
  let ns := nsRWSet.nameSpace
  if !validateReadSet db ns nsRWSet.kvRwSet.reads updates.pubUpdates then .ok .mvccReadConflict
  else
    match validateRangeQueries hashing db ns updates.pubUpdates nsRWSet.kvRwSet.rangeQueriesInfo with
    | .error stop => .error (.rangeQuery stop)
    | .ok false => .ok .phantomReadConflict
    | .ok true =>
      if !validateNsHashedReadSets db ns nsRWSet.collHashedRwSets updates.hashUpdates then .ok .mvccReadConflict
      else .ok .valid

/-- The first namespace that is not valid gives the code. -/
def validateTx (updates : PubAndHashUpdates) : List (NsRwSet Hash) → Except ValidatorPanic TxValidationCode
  | [] => .ok .valid
  | nsRWSet :: nsRwSets =>
    match validateNs hashing db updates nsRWSet with
    | .ok .valid => validateTx updates nsRwSets
    | stop => stop

def validateEndorserTX (txRWSet : TxRwSet Hash) (doMVCCValidation : Bool) (updates : PubAndHashUpdates) :
    Except ValidatorPanic TxValidationCode :=
  if doMVCCValidation then validateTx hashing db updates txRWSet.nsRwSets else .ok .valid

end Validator

structure Transaction (Hash : Type) where
  indexInBlock : UInt64
  rwSet : TxRwSet Hash
  deriving DecidableEq

structure Block (Hash : Type) where
  num : UInt64
  txs : List (Transaction Hash)
  deriving DecidableEq

section Batch

variable [DecidableEq Hash] (hashing : Hashing (String × Height) Hash) (db : CommonStorageDB)

/-- One turn of the loop: the code of the transaction and the updates after it. -/
def validateAndPrepareTx (num : UInt64) (doMVCCValidation : Bool) (updates : PubAndHashUpdates)
    (tx : Transaction Hash) : Except ValidatorPanic (TxValidationCode × PubAndHashUpdates) :=
  match validateEndorserTX hashing db tx.rwSet doMVCCValidation updates with
  | .error stop => .error stop
  | .ok .valid => (updates.applyWriteSet tx.rwSet ⟨num, tx.indexInBlock⟩ db).map fun updates => (.valid, updates)
  | .ok code => .ok (code, updates)

def validateAndPrepareFrom (num : UInt64) (doMVCCValidation : Bool) :
    List (Transaction Hash) → PubAndHashUpdates → Except ValidatorPanic (List TxValidationCode × PubAndHashUpdates)
  | [], updates => .ok ([], updates)
  | tx :: txs, updates =>
    match validateAndPrepareTx hashing db num doMVCCValidation updates tx with
    | .error stop => .error stop
    | .ok (code, updates) =>
      (validateAndPrepareFrom num doMVCCValidation txs updates).map fun rest => (code :: rest.1, rest.2)

def validateAndPrepareBatch (block : Block Hash) (doMVCCValidation : Bool) :
    Except ValidatorPanic (List TxValidationCode × PubAndHashUpdates) :=
  validateAndPrepareFrom hashing db block.num doMVCCValidation block.txs .newPubAndHashUpdates

end Batch

end Pobl.Txmgmt
