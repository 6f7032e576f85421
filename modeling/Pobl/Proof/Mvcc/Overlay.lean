/-
This file gives the state that the validation of a transaction sees: the database under the updates of the block.
The combined iterator lists it, as the iterator of the database does after the updates are applied.
-/

import Pobl.Construction.StateBasedValidator

namespace Pobl.Txmgmt

open Library Library.Wire VersionedValue List

variable {dbItr updatesItr later : List VersionedKV} {selectedItem : VersionedKV}

theorem mem_serve {entry : VersionedKV} :
    entry ∈ serve selectedItem later ↔ entry = selectedItem ∧ selectedItem.2.isDelete = false ∨ entry ∈ later := by
  rw [serve]
  split
  next deleted => simp [deleted]
  next kept => simp [kept]

theorem mem_nextFrom {dbItem : VersionedKV} (ascending : Ascending (dbItem :: dbItr))
    (ascending' : Ascending updatesItr) {later : List VersionedKV → List VersionedKV}
    (laterMem : ∀ updatesItr, Ascending updatesItr → ∀ entry, entry ∈ later updatesItr ↔ entry.2.isDelete = false ∧
        (entry ∈ updatesItr ∨ entry ∈ dbItr ∧ ∀ update ∈ updatesItr, update.1 ≠ entry.1)) (entry : VersionedKV) :
    entry ∈ nextFrom dbItem later updatesItr ↔ entry.2.isDelete = false ∧
      (entry ∈ updatesItr ∨ entry ∈ dbItem :: dbItr ∧ ∀ update ∈ updatesItr, update.1 ≠ entry.1) := by
  obtain ⟨least, _⟩ := pairwise_cons.mp ascending
  induction updatesItr with
  | nil =>
    rw [nextFrom, mem_serve, laterMem [] ascending']
    grind
  | cons updatesItem updatesItr ih =>
    obtain ⟨least', rest'⟩ := pairwise_cons.mp ascending'
    rw [nextFrom]
    split
    next first =>
      rw [mem_serve, laterMem _ ascending']
      grind
    next notFirst =>
      split
      next same =>
        rw [mem_serve, laterMem _ rest']
        grind
      next different =>
        have first : updatesItem.1 < dbItem.1 := lt_of_le_of_ne (not_lt.mp notFirst) (Ne.symm different)
        rw [mem_serve, ih rest']
        grind

/-- The combined items are those of the updates that are not deleted and those of the database that are not updated. -/
theorem mem_combine (ascending : Ascending dbItr) (ascending' : Ascending updatesItr) (entry : VersionedKV) :
    entry ∈ combine dbItr updatesItr ↔ entry.2.isDelete = false ∧
      (entry ∈ updatesItr ∨ entry ∈ dbItr ∧ ∀ update ∈ updatesItr, update.1 ≠ entry.1) := by
  induction dbItr generalizing updatesItr entry with
  | nil =>
    simp only [combine]
    clear ascending'
    induction updatesItr with
    | nil => simp
    | cons updatesItem updatesItr ih =>
      rw [foldr_cons, mem_serve, ih]
      grind
  | cons dbItem dbItr ih =>
    exact mem_nextFrom ascending ascending'
      (fun updatesItr ascending' entry => ih (pairwise_cons.mp ascending).2 ascending' entry) entry

theorem ascending_serve (ascending : Ascending later)
    (least : ∀ entry ∈ later, selectedItem.1 < entry.1) : Ascending (serve selectedItem later) := by
  rw [serve]
  split
  · exact ascending
  · exact pairwise_cons.mpr ⟨least, ascending⟩

/-- The combined items stay behind a key that stands before both lists. -/
theorem lt_of_mem_combine (ascending : Ascending dbItr) (ascending' : Ascending updatesItr) {key : String}
    (least : ∀ entry ∈ dbItr, key < entry.1)
    (least' : ∀ entry ∈ updatesItr, key < entry.1) : ∀ entry ∈ combine dbItr updatesItr, key < entry.1 := by
  intro entry member
  rcases ((mem_combine ascending ascending' entry).mp member).2 with member | ⟨member, _⟩
  · exact least' entry member
  · exact least entry member

theorem ascending_combine (ascending : Ascending dbItr)
    (ascending' : Ascending updatesItr) : Ascending (combine dbItr updatesItr) := by
  induction dbItr generalizing updatesItr with
  | nil =>
    induction updatesItr with
    | nil => exact List.Pairwise.nil
    | cons updatesItem updatesItr ih =>
      obtain ⟨least', rest'⟩ := pairwise_cons.mp ascending'
      refine ascending_serve (ih rest') ?_
      exact lt_of_mem_combine ascending rest' (by simp) least'
  | cons dbItem dbItr ih =>
    obtain ⟨least, rest⟩ := pairwise_cons.mp ascending
    induction updatesItr with
    | nil => exact ascending_serve (ih rest ascending') (lt_of_mem_combine rest ascending' least (by simp))
    | cons updatesItem updatesItr ihUpdates =>
      obtain ⟨least', rest'⟩ := pairwise_cons.mp ascending'
      rw [combine, nextFrom]
      split
      next first =>
        refine ascending_serve (ih rest ascending') (lt_of_mem_combine rest ascending' least ?_)
        intro update member
        rcases mem_cons.mp member with rfl | member
        · exact first
        · exact first.trans (least' update member)
      next notFirst =>
        split
        next same =>
          refine ascending_serve (ih rest rest') (lt_of_mem_combine rest rest' ?_ least')
          exact fun item member => same ▸ least item member
        next different =>
          have first : updatesItem.1 < dbItem.1 := lt_of_le_of_ne (not_lt.mp notFirst) (Ne.symm different)
          refine ascending_serve (ihUpdates rest') (lt_of_mem_combine ascending rest' ?_ least')
          intro item member
          rcases mem_cons.mp member with rfl | member
          · exact first
          · exact first.trans (least item member)

/-- The value of a key in the database under the updates. A key that the updates delete has none. -/
def overlay (db : CommonStorageDB) (updates : UpdateBatch) (ns key : String) : Option VersionedValue :=
  match updates.get ns key with
  | some vv => if vv.isDelete then none else some vv
  | none => db.getState ns key

@[simp] theorem overlay_newUpdateBatch (db : CommonStorageDB) (ns key : String) :
    overlay db .newUpdateBatch ns key = db.getState ns key := by
  simp [overlay]

theorem isDelete_of_getState {db : CommonStorageDB} {ns key : String} {vv : VersionedValue}
    (found : db.getState ns key = some vv) : vv.isDelete = false := by
  obtain ⟨stored, _, rfl⟩ := Option.map_eq_some_iff.mp found
  rfl

section Iterator

variable (db : CommonStorageDB) (updates : UpdateBatch) (ns startKey endKey : String)

theorem mem_getStateRangeScanIterator (entry : VersionedKV) :
    entry ∈ db.getStateRangeScanIterator ns startKey endKey ↔
      db.getState ns entry.1 = some entry.2 ∧ startKey ≤ entry.1 ∧ (endKey = "" ∨ entry.1 < endKey) := by
  obtain ⟨key, vv⟩ := entry
  simp only [CommonStorageDB.getStateRangeScanIterator, CommonStorageDB.getState, mem_map, GoMap.mem_rangeScan,
    lookup_getD, Option.map_eq_some_iff, Prod.exists, Prod.mk.injEq]
  constructor
  · rintro ⟨_, stored, ⟨found, inRange⟩, rfl, rfl⟩
    exact ⟨⟨stored, found, rfl⟩, inRange⟩
  · rintro ⟨⟨stored, found, rfl⟩, inRange⟩
    exact ⟨key, stored, ⟨found, inRange⟩, rfl, rfl⟩

theorem mem_getRangeScanIterator (entry : VersionedKV) : entry ∈ updates.getRangeScanIterator ns startKey endKey ↔
      updates.get ns entry.1 = some entry.2 ∧ startKey ≤ entry.1 ∧ (endKey = "" ∨ entry.1 < endKey) := by
  rw [UpdateBatch.getRangeScanIterator, GoMap.mem_rangeScan, lookup_getD]
  rfl

def combinedRange : List VersionedKV :=
  combine (db.getStateRangeScanIterator ns startKey endKey) (updates.getRangeScanIterator ns startKey endKey)

theorem ascending_dbItr : Ascending (db.getStateRangeScanIterator ns startKey endKey) :=
  (GoMap.ascending_rangeScan _ startKey endKey).map decodeValue

theorem ascending_updatesItr : Ascending (updates.getRangeScanIterator ns startKey endKey) :=
  GoMap.ascending_rangeScan _ startKey endKey

/-- The combined iterator lists the overlay in its range. -/
theorem mem_combinedRange (entry : VersionedKV) : entry ∈ combinedRange db updates ns startKey endKey ↔
      overlay db updates ns entry.1 = some entry.2 ∧ startKey ≤ entry.1 ∧ (endKey = "" ∨ entry.1 < endKey) := by
  obtain ⟨key, vv⟩ := entry
  have combined := mem_combine (ascending_dbItr db ns startKey endKey) (ascending_updatesItr updates ns startKey endKey)
    (key, vv)
  rw [combinedRange, combined, mem_getRangeScanIterator, mem_getStateRangeScanIterator, overlay]
  have fresh : (∀ update ∈ updates.getRangeScanIterator ns startKey endKey, update.1 ≠ key) ↔
      (startKey ≤ key ∧ (endKey = "" ∨ key < endKey) → updates.get ns key = none) := by
    constructor
    · intro fresh inRange
      cases found : updates.get ns key with
      | none => rfl
      | some updated =>
        exact absurd rfl (fresh (key, updated) ((mem_getRangeScanIterator ..).mpr ⟨found, inRange⟩))
    · rintro fresh update member rfl
      obtain ⟨found, inRange⟩ := (mem_getRangeScanIterator ..).mp member
      exact nomatch found.symm.trans (fresh inRange)
  cases found : updates.get ns key with
  | none =>
    have kept : db.getState ns key = some vv → vv.isDelete = false := isDelete_of_getState
    grind
  | some updated => grind

theorem ascending_combinedRange : Ascending (combinedRange db updates ns startKey endKey) :=
  ascending_combine (ascending_dbItr db ns startKey endKey) (ascending_updatesItr updates ns startKey endKey)

theorem serveEndKeyIfNeeded_eq (includeEndKey : Bool) : serveEndKeyIfNeeded db updates ns endKey includeEndKey =
      if includeEndKey then
        ((overlay db updates ns endKey).map fun vv => (endKey, ⟨vv.value, none, vv.version⟩)).toList
      else [] := by
  rw [serveEndKeyIfNeeded]
  cases includeEndKey with
  | false => rfl
  | true =>
    simp only [if_true, overlay]
    cases found : updates.get ns endKey with
    | none =>
      cases stored : db.getState ns endKey with
      | none => rfl
      | some vv =>
        have kept := isDelete_of_getState stored
        rw [isDelete] at kept
        simp [serve, isDelete, kept]
    | some vv =>
      simp only [Option.some_or, serve, isDelete]
      by_cases deleted : vv.value.isNone = true <;> simp [deleted]

end Iterator

/-- Two pairs of a database and updates that give the same values give the same results of a range query. -/
theorem combinedIterator_congr {db db' : CommonStorageDB} {updates updates' : UpdateBatch} {ns : String}
    (same : ∀ key, overlay db updates ns key = overlay db' updates' ns key) (startKey endKey : String)
    (includeEndKey : Bool) :
    combinedIterator db updates ns startKey endKey includeEndKey =
      combinedIterator db' updates' ns startKey endKey includeEndKey := by
  have range : combinedRange db updates ns startKey endKey = combinedRange db' updates' ns startKey endKey := by
    refine (ascending_combinedRange ..).eq_of_mem_iff (ascending_combinedRange ..) fun entry => ?_
    rw [mem_combinedRange, mem_combinedRange, same]
  rw [combinedRange, combinedRange] at range
  rw [combinedIterator, combinedIterator, range, serveEndKeyIfNeeded_eq, serveEndKeyIfNeeded_eq, same]

end Pobl.Txmgmt
