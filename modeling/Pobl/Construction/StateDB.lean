/-
This file models the state database of the peer: `statedb.go`, `stateleveldb.go` and `common_storage_db.go`.
The hashes of private data have a part of their own here, where the source derives a namespace for each collection.
-/

import Pobl.Library.Listing
import Pobl.Library.Wire

namespace Pobl.Txmgmt

open Library Library.Wire GoMap Option

structure Height where
  blockNum : UInt64
  txNum : UInt64
  deriving DecidableEq

/-- Nil bytes are `none`. The value of a key that is deleted is nil. -/
structure VersionedValue where
  value : Option Bytes
  metadata : Option Bytes
  version : Height
  deriving DecidableEq

def VersionedValue.isDelete (vv : VersionedValue) : Bool := vv.value.isNone

abbrev VersionedKV := String × VersionedValue

def find {Value : Type} (spaces : GoMap (GoMap Value)) (ns key : String) : Option Value :=
  (spaces.lookup ns).bind fun space => space.lookup key

theorem lookup_getD {Value : Type} (spaces : GoMap (GoMap Value)) (ns key : String) :
    ((spaces.lookup ns).getD ∅).lookup key = find spaces ns key := by
  rw [find]
  cases spaces.lookup ns <;> simp

structure UpdateBatch where
  updates : GoMap (GoMap VersionedValue)
  deriving DecidableEq

namespace UpdateBatch

def newUpdateBatch : UpdateBatch := ⟨∅⟩

def get (ns key : String) (batch : UpdateBatch) : Option VersionedValue := find batch.updates ns key

def «exists» (ns key : String) (batch : UpdateBatch) : Bool := (batch.get ns key).isSome

def update (ns key : String) (vv : VersionedValue) (batch : UpdateBatch) : UpdateBatch :=
  ⟨batch.updates.insert ns (((batch.updates.lookup ns).getD ∅).insert key vv)⟩

/-- The function panics if the value is nil. -/
def putValAndMetadata (ns key : String) (value metadata : Option Bytes) (version : Height) (batch : UpdateBatch) :
    Option UpdateBatch :=
  match value with
  | none => none
  | some value => some (batch.update ns key ⟨value, metadata, version⟩)

def delete (ns key : String) (version : Height) (batch : UpdateBatch) : UpdateBatch :=
  batch.update ns key ⟨none, none, version⟩

def getRangeScanIterator (ns startKey endKey : String) (batch : UpdateBatch) : List VersionedKV :=
  ((batch.updates.lookup ns).getD ∅).rangeScan startKey endKey

@[simp] theorem get_newUpdateBatch (ns key : String) : newUpdateBatch.get ns key = none := by
  simp [newUpdateBatch, get, find]

theorem get_update (ns key : String) (vv : VersionedValue) (batch : UpdateBatch) (ns' key' : String) :
    (batch.update ns key vv).get ns' key' = if ns' = ns ∧ key' = key then some vv else batch.get ns' key' := by
  by_cases same : ns' = ns
  · subst ns'
    simp only [get, update, find, AList.lookup_insert, bind_some, lookup_insert_apply, lookup_getD,
      true_and]
  · simp [get, update, find, same]

end UpdateBatch

/-- The updates of the hashes by namespace and collection. -/
structure HashedUpdateBatch where
  updateMap : GoMap UpdateBatch
  deriving DecidableEq

namespace HashedUpdateBatch

def newHashedUpdateBatch : HashedUpdateBatch := ⟨∅⟩

def get (ns coll keyHash : String) (batch : HashedUpdateBatch) : Option VersionedValue :=
  (batch.updateMap.lookup ns).bind (·.get coll keyHash)

def contains (ns coll keyHash : String) (batch : HashedUpdateBatch) : Bool := (batch.get ns coll keyHash).isSome

def getOrCreateNsBatch (ns : String) (batch : HashedUpdateBatch) : UpdateBatch :=
  (batch.updateMap.lookup ns).getD .newUpdateBatch

def putValHashAndMetadata (ns coll keyHash : String) (value metadata : Option Bytes) (version : Height)
    (batch : HashedUpdateBatch) : Option HashedUpdateBatch :=
  ((batch.getOrCreateNsBatch ns).putValAndMetadata coll keyHash value metadata version).map fun nsBatch =>
    ⟨batch.updateMap.insert ns nsBatch⟩

def delete (ns coll keyHash : String) (version : Height) (batch : HashedUpdateBatch) : HashedUpdateBatch :=
  ⟨batch.updateMap.insert ns ((batch.getOrCreateNsBatch ns).delete coll keyHash version)⟩

end HashedUpdateBatch

structure PubAndHashUpdates where
  pubUpdates : UpdateBatch
  hashUpdates : HashedUpdateBatch
  deriving DecidableEq

def PubAndHashUpdates.newPubAndHashUpdates : PubAndHashUpdates := ⟨.newUpdateBatch, .newHashedUpdateBatch⟩

/-- The database keeps nil and empty bytes alike. -/
structure StoredValue where
  value : Bytes
  metadata : Bytes
  version : Height
  deriving DecidableEq

def encodeValue (vv : VersionedValue) : StoredValue := ⟨vv.value.getD [], vv.metadata.getD [], vv.version⟩

/-- A value that was read is never nil, while empty metadata is read as nil. -/
def decodeValue (stored : StoredValue) : VersionedValue :=
  ⟨some stored.value, if stored.metadata = [] then none else some stored.metadata, stored.version⟩

def applyNsUpdates (updates : GoMap VersionedValue) (stored : GoMap StoredValue) : GoMap StoredValue :=
  updates.entries.foldl
    (fun stored entry =>
      if entry.2.value = none then stored.erase entry.1 else stored.insert entry.1 (encodeValue entry.2)) stored

def applyUpdates (batch : UpdateBatch) (spaces : GoMap (GoMap StoredValue)) : GoMap (GoMap StoredValue) :=
  batch.updates.entries.foldl
    (fun spaces entry => spaces.insert entry.1 (applyNsUpdates entry.2 ((spaces.lookup entry.1).getD ∅))) spaces

def applyHashedUpdates (batch : HashedUpdateBatch) (hashes : GoMap (GoMap (GoMap StoredValue))) :
    GoMap (GoMap (GoMap StoredValue)) :=
  batch.updateMap.entries.foldl
    (fun hashes entry => hashes.insert entry.1 (applyUpdates entry.2 ((hashes.lookup entry.1).getD ∅))) hashes

def VersionedValue.stored (vv : VersionedValue) : Option StoredValue :=
  if vv.value = none then none else some (encodeValue vv)

theorem lookup_applyNsUpdates (updates : GoMap VersionedValue) (stored : GoMap StoredValue) (key : String) :
    (applyNsUpdates updates stored).lookup key =
      ((updates.lookup key).map VersionedValue.stored).getD (stored.lookup key) := by
  refine lookup_foldl updates _ (fun vv _ => vv.stored) ?_ stored key
  intro stored entry query
  rw [VersionedValue.stored]
  split
  · rw [lookup_erase_apply]
  · rw [lookup_insert_apply]

theorem find_applyUpdates (batch : UpdateBatch) (spaces : GoMap (GoMap StoredValue)) (ns key : String) :
    find (applyUpdates batch spaces) ns key =
      ((batch.get ns key).map VersionedValue.stored).getD (find spaces ns key) := by
  rw [applyUpdates, find,
    lookup_merge batch.updates fun updates space => applyNsUpdates updates (space.getD ∅)]
  cases found : batch.updates.lookup ns with
  | none => simp [UpdateBatch.get, find, found]
  | some updates =>
    rw [map_some, some_or, bind_some, lookup_applyNsUpdates, lookup_getD]
    simp [UpdateBatch.get, find, found]

def findHash (hashes : GoMap (GoMap (GoMap StoredValue))) (ns coll keyHash : String) : Option StoredValue :=
  (hashes.lookup ns).bind fun spaces => find spaces coll keyHash

theorem findHash_applyHashedUpdates (batch : HashedUpdateBatch) (hashes : GoMap (GoMap (GoMap StoredValue)))
    (ns coll keyHash : String) :
    findHash (applyHashedUpdates batch hashes) ns coll keyHash =
      ((batch.get ns coll keyHash).map VersionedValue.stored).getD (findHash hashes ns coll keyHash) := by
  rw [applyHashedUpdates, findHash,
    lookup_merge batch.updateMap fun updates spaces => applyUpdates updates (spaces.getD ∅)]
  cases found : batch.updateMap.lookup ns with
  | none => simp [HashedUpdateBatch.get, findHash, found]
  | some updates =>
    rw [map_some, some_or, bind_some, find_applyUpdates]
    have before : find ((hashes.lookup ns).getD ∅) coll keyHash = findHash hashes ns coll keyHash := by
      rw [findHash]
      cases hashes.lookup ns <;> simp [find]
    simp [HashedUpdateBatch.get, found, before]

def UpdateBatch.hasMetadata (batch : UpdateBatch) (ns : String) : Bool :=
  ((batch.updates.lookup ns).getD ∅).entries.any fun entry => entry.2.metadata.isSome

/-- The namespaces that `filterNamespacesThatHasMetadata` gives. -/
def PubAndHashUpdates.hasMetadata (updates : PubAndHashUpdates) (ns : String) : Bool :=
  updates.pubUpdates.hasMetadata ns ||
    (updates.hashUpdates.getOrCreateNsBatch ns).updates.entries.any fun coll =>
      coll.2.entries.any fun entry => entry.2.metadata.isSome

/-- The database of a channel. A namespace without the hint has no metadata. -/
structure CommonStorageDB where
  state : GoMap (GoMap StoredValue)
  hashes : GoMap (GoMap (GoMap StoredValue))
  metadataHint : String → Bool
  hinted : ∀ {ns : String}, metadataHint ns = false →
    (∀ {key : String} {stored : StoredValue}, find state ns key = some stored → stored.metadata = []) ∧
      ∀ {coll keyHash : String} {stored : StoredValue},
        findHash hashes ns coll keyHash = some stored → stored.metadata = []

theorem UpdateBatch.metadata_of_hasMetadata {batch : UpdateBatch} {ns : String} (unused : batch.hasMetadata ns = false)
    {key : String} {vv : VersionedValue} (found : batch.get ns key = some vv) : vv.metadata = none := by
  rw [hasMetadata, List.any_eq_false] at unused
  rw [get, ← lookup_getD] at found
  have member := (mem_entries_iff _ ⟨key, vv⟩).mpr found
  simpa using unused ⟨key, vv⟩ member

theorem PubAndHashUpdates.metadata_of_hasMetadata {updates : PubAndHashUpdates} {ns : String}
    (unused : updates.hasMetadata ns = false) {coll keyHash : String} {vv : VersionedValue}
    (found : updates.hashUpdates.get ns coll keyHash = some vv) : vv.metadata = none := by
  rw [hasMetadata, Bool.or_eq_false_iff, List.any_eq_false] at unused
  obtain ⟨nsBatch, inMap, found⟩ := bind_eq_some_iff.mp found
  obtain ⟨updates', inBatch, found⟩ := bind_eq_some_iff.mp found
  have colls := unused.2 ⟨coll, updates'⟩ ((mem_entries_iff _ ⟨coll, updates'⟩).mpr
    (by rw [HashedUpdateBatch.getOrCreateNsBatch, inMap]; exact inBatch))
  rw [Bool.not_eq_true, List.any_eq_false] at colls
  simpa using colls ⟨keyHash, vv⟩ ((mem_entries_iff _ ⟨keyHash, vv⟩).mpr found)

theorem metadata_of_stored {vv : VersionedValue} {stored : StoredValue} (none : vv.metadata = none)
    (left : vv.stored = some stored) : stored.metadata = [] := by
  rw [VersionedValue.stored] at left
  split at left
  · exact nomatch left
  · rw [← Option.some.inj left, encodeValue, none]
    rfl

namespace CommonStorageDB

def newCommonStorageDB : CommonStorageDB where
  state := ∅
  hashes := ∅
  metadataHint := fun _ => false
  hinted := by
    intro ns _
    refine ⟨fun found => ?_, fun found => ?_⟩
    · simp [find] at found
    · simp [findHash] at found

def getState (ns key : String) (db : CommonStorageDB) : Option VersionedValue := (find db.state ns key).map decodeValue

def getStateRangeScanIterator (ns startKey endKey : String) (db : CommonStorageDB) : List VersionedKV :=
  (((db.state.lookup ns).getD ∅).rangeScan startKey endKey).map fun entry => (entry.1, decodeValue entry.2)

def getValueHash (ns coll keyHash : String) (db : CommonStorageDB) : Option VersionedValue :=
  (findHash db.hashes ns coll keyHash).map decodeValue

def getKeyHashVersion (ns coll keyHash : String) (db : CommonStorageDB) : Option Height :=
  (db.getValueHash ns coll keyHash).map VersionedValue.version

def getStateMetadata (ns key : String) (db : CommonStorageDB) : Option Bytes :=
  if db.metadataHint ns then (db.getState ns key).bind VersionedValue.metadata else none

def getPrivateDataMetadataByHash (ns coll keyHash : String) (db : CommonStorageDB) : Option Bytes :=
  if db.metadataHint ns then (db.getValueHash ns coll keyHash).bind VersionedValue.metadata else none

/-- The hint of each namespace that gets metadata is set before the updates are written. -/
def applyPrivacyAwareUpdates (updates : PubAndHashUpdates) (db : CommonStorageDB) : CommonStorageDB where
  state := applyUpdates updates.pubUpdates db.state
  hashes := applyHashedUpdates updates.hashUpdates db.hashes
  metadataHint := fun ns => db.metadataHint ns || updates.hasMetadata ns
  hinted := by
    intro ns unset
    obtain ⟨unhinted, unused⟩ := Bool.or_eq_false_iff.mp unset
    obtain ⟨plain, hashed⟩ := db.hinted unhinted
    refine ⟨fun {key stored} found => ?_, fun {coll keyHash stored} found => ?_⟩
    · rw [find_applyUpdates] at found
      cases updated : updates.pubUpdates.get ns key with
      | none => exact plain (by simpa [updated] using found)
      | some vv =>
        have none := UpdateBatch.metadata_of_hasMetadata (Bool.or_eq_false_iff.mp unused).1 updated
        exact metadata_of_stored none (by simpa [updated] using found)
    · rw [findHash_applyHashedUpdates] at found
      cases updated : updates.hashUpdates.get ns coll keyHash with
      | none => exact hashed (by simpa [updated] using found)
      | some vv =>
        exact metadata_of_stored (PubAndHashUpdates.metadata_of_hasMetadata unused updated)
          (by simpa [updated] using found)

/-- The hint saves a lookup and does not change its result. -/
theorem bind_metadata_of_hint {hint : Bool} {stored : Option StoredValue}
    (unused : hint = false → ∀ {value : StoredValue}, stored = some value → value.metadata = []) :
    (if hint then (stored.map decodeValue).bind VersionedValue.metadata else none) =
      (stored.map decodeValue).bind VersionedValue.metadata := by
  cases hint with
  | true => rfl
  | false =>
    cases stored with
    | none => rfl
    | some value => simp [decodeValue, unused rfl rfl]

theorem getStateMetadata_eq (ns key : String) (db : CommonStorageDB) :
    db.getStateMetadata ns key = (db.getState ns key).bind VersionedValue.metadata :=
  bind_metadata_of_hint fun unhinted => (db.hinted unhinted).1

end CommonStorageDB

end Pobl.Txmgmt
