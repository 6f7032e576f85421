/-
This file treats the cells of the local state as a map from keys,
and the read and write sets that executions collect from them.
-/

import Pobl.Construction.Shim

namespace Pobl.Shim

open Library Protos GoMap

/-- The cell of each key that has one. -/
def LocalState.view (ls : LocalState) (key : Key) : Option KeyValue :=
  (ls.localKeyValues.lookup key).map ls.cells.read

/-- Every key has its own cell. -/
structure LocalState.Proper (ls : LocalState) : Prop where
  inside : ∀ key cell, ls.localKeyValues.lookup key = some cell → cell < ls.cells.size
  apart : ∀ first second cell, ls.localKeyValues.lookup first = some cell →
    ls.localKeyValues.lookup second = some cell → first = second

/-- The keys keep their cells. -/
def LocalState.Extends (ls ls' : LocalState) : Prop :=
  ∀ key cell, ls.localKeyValues.lookup key = some cell → ls'.localKeyValues.lookup key = some cell

section Write

variable {ls : LocalState} (proper : ls.Proper) (key : Key) (btvalue : Option Value) (strvalue : Value) (txid : TxId)

include proper

/-- A write replaces the cell of its key and no other cell. -/
theorem LocalState.view_setUnLockKVForWrite (query : Key) :
    (ls.setUnLockKVForWrite key btvalue strvalue txid).1.view query =
      if query = key then some ⟨btvalue, strvalue, txid⟩ else ls.view query := by
  unfold setUnLockKVForWrite view
  cases found : ls.localKeyValues.lookup key with
  | none =>
    dsimp only
    rw [lookup_insert_apply]
    split
    · simp
    · cases other : ls.localKeyValues.lookup query with
      | none => rfl
      | some cell =>
        rw [Option.map_some, Option.map_some, Heap.read_alloc_old _ _ (Nat.ne_of_lt (proper.inside query cell other))]
  | some cell =>
    dsimp only
    split
    next same => rw [same, found, Option.map_some, Heap.read_modify_same]
    next differs =>
      cases other : ls.localKeyValues.lookup query with
      | none => rfl
      | some otherCell =>
        have distinct : otherCell ≠ cell := by
          intro same
          subst same
          exact differs (proper.apart query key otherCell other found)
        rw [Option.map_some, Option.map_some, Heap.read_modify_other _ _ distinct]

theorem LocalState.Proper.setUnLockKVForWrite : (ls.setUnLockKVForWrite key btvalue strvalue txid).1.Proper := by
  unfold LocalState.setUnLockKVForWrite
  cases found : ls.localKeyValues.lookup key with
  | none =>
    refine ⟨?_, ?_⟩
    · intro query cell lookup
      rcases of_lookup_insert lookup with ⟨_, rfl⟩ | ⟨_, lookup⟩
      · exact Nat.lt_succ_self _
      · exact Nat.lt_succ_of_lt (proper.inside query cell lookup)
    · intro first second cell one two
      rcases of_lookup_insert one with ⟨rfl, rfl⟩ | ⟨_, one⟩ <;>
        rcases of_lookup_insert two with ⟨same, new⟩ | ⟨_, two⟩
      · exact same.symm
      · exact absurd (proper.inside second _ two) (Nat.lt_irrefl _)
      · exact absurd (proper.inside first _ (new ▸ one)) (Nat.lt_irrefl _)
      · exact proper.apart first second cell one two
  | some cell => exact ⟨proper.inside, proper.apart⟩

omit proper in
theorem LocalState.extends_setUnLockKVForWrite : ls.Extends (ls.setUnLockKVForWrite key btvalue strvalue txid).1 := by
  intro query cell found
  unfold setUnLockKVForWrite
  cases known : ls.localKeyValues.lookup key with
  | none =>
    have differs : query ≠ key := by
      intro same
      rw [same, known] at found
      cases found
    rw [AList.lookup_insert_ne differs]
    exact found
  | some other => exact found

omit proper in
/-- The previous writer of a key is named by its cell. A new key names the writing transaction. -/
theorem LocalState.ptxid_setUnLockKVForWrite : (ls.setUnLockKVForWrite key btvalue strvalue txid).2.1 =
      ((ls.view key).map KeyValue.fromTxnid).getD txid := by
  unfold setUnLockKVForWrite view
  cases ls.localKeyValues.lookup key <;> rfl

end Write

/-- The value that was put last under the key. A deleted key has an empty string. -/
def lastPut (written : List (Key × Option Value)) (key : Key) : Option Value :=
  (written.reverse.find? fun put => put.1 = key).map fun put => put.2.getD []

/-- The reads of the execution point to the cells of their keys, the strings of its writes are what it has put,
and its final sets are empty. -/
structure Tracks (ls : LocalState) (lts : LocalTxnSimulator) : Prop where
  reads : ∀ key rkv, lts.unLockReadSets.lookup key = some rkv →
    ∃ cell, rkv.keyValue = some cell ∧ ls.localKeyValues.lookup key = some cell
  writes : ∀ key, (lts.unLockWriteSets.lookup key).map UNLockKV.strValue = lastPut lts.written key
  unread : lts.finalReadSet = []
  unwritten : lts.finalWriteSet = []

theorem tracks_new (ls : LocalState) (txid : TxId) : Tracks ls (newLocalTxnSimulator txid) :=
  ⟨fun _ _ found => (nomatch found), fun _ => rfl, rfl, rfl⟩

section Execution

variable {ls : LocalState} {lts : LocalTxnSimulator}

theorem Tracks.extends {ls' : LocalState} (tracks : Tracks ls lts) (grows : ls.Extends ls') : Tracks ls' lts := by
  refine { tracks with reads := ?_ }
  intro key rkv found
  obtain ⟨cell, points, lookup⟩ := tracks.reads key rkv found
  exact ⟨cell, points, grows key cell lookup⟩

theorem Tracks.getState (tracks : Tracks ls lts) (key : Key) : Tracks ls (lts.getState ls key).2 := by
  unfold LocalTxnSimulator.getState LocalState.getUnLockState
  cases found : ls.localKeyValues.lookup key with
  | none => exact { tracks with }
  | some cell =>
    refine { tracks with reads := ?_ }
    intro query rkv lookup
    rcases of_lookup_insert lookup with ⟨rfl, rfl⟩ | ⟨_, lookup⟩
    · exact ⟨cell, rfl, found⟩
    · exact tracks.reads query rkv lookup

theorem Tracks.setState (tracks : Tracks ls lts) (key : Key) (value : Option Value) :
    Tracks ls (lts.setState key value) := by
  refine { tracks with writes := fun query => ?_ }
  change ((lts.unLockWriteSets.insert key _).lookup query).map _ = lastPut (lts.written ++ [(key, value)]) query
  rw [lookup_insert_apply, lastPut, List.reverse_append, List.reverse_singleton, List.singleton_append]
  by_cases same : query = key
  · simp [same]
  · have other : ¬ key = query := fun wrong => same wrong.symm
    rw [if_neg same, tracks.writes, lastPut]
    simp [other]

/-- The strings of the write set are copies. -/
theorem Tracks.copySlice (tracks : Tracks ls lts) (key : Key) (src : Value) : Tracks ls (lts.copySlice key src) := by
  unfold LocalTxnSimulator.copySlice
  split
  · exact tracks
  next wkv found =>
    refine { tracks with writes := fun query => ?_ }
    rw [← tracks.writes, lookup_insert_apply]
    split
    next same => rw [same, found, Option.map_some, Option.map_some]
    · rfl

theorem Tracks.putState (tracks : Tracks ls lts) (key : Key) (value : Option Value) :
    Tracks ls (Shim.putState key value lts).2 := by
  unfold Shim.putState
  split
  · exact tracks
  · exact tracks.setState key value

theorem Tracks.call (tracks : Tracks ls lts) (program : Program) : Tracks ls (program.call ls lts).2 := by
  cases program with
  | getState key next => exact tracks.getState key
  | putState key value next => exact tracks.putState key value
  | delState key next => exact tracks.setState key none
  | copy key src next => exact tracks.copySlice key src
  | done res => exact tracks

theorem Tracks.invoke (program : Program) (tracks : Tracks ls lts) : Tracks ls (program.invoke ls lts).1 := by
  induction program generalizing lts with
  | getState key next ih => exact ih _ (tracks.getState key)
  | putState key value next ih => exact ih _ (tracks.putState key value)
  | delState key next ih => exact ih (tracks.setState key none)
  | copy key src next ih => exact ih (tracks.copySlice key src)
  | done res => exact tracks

/-- What the reads hold is the content of their cells. -/
def ReadsCells (ls : LocalState) (lts : LocalTxnSimulator) : Prop :=
  ∀ key rkv, lts.unLockReadSets.lookup key = some rkv → ∃ cell, ls.view key = some cell ∧ rkv.strValue = cell.strValue

theorem readsCells_of_flagCommit (tracks : Tracks ls lts) (flag : flagCommit ls lts = true) : ReadsCells ls lts := by
  intro key rkv found
  obtain ⟨cell, points, lookup⟩ := tracks.reads key rkv found
  have same := List.all_eq_true.mp flag ⟨key, rkv⟩ ((mem_entries_iff _ _).mpr found)
  simp only [points, Option.all_some, decide_eq_true_eq] at same
  exact ⟨ls.cells.read cell, by rw [LocalState.view, lookup, Option.map_some], same⟩

theorem ReadsCells.getState (reads : ReadsCells ls lts) (key : Key) : ReadsCells ls (lts.getState ls key).2 := by
  unfold LocalTxnSimulator.getState LocalState.getUnLockState
  cases found : ls.localKeyValues.lookup key with
  | none => exact reads
  | some cell =>
    intro query rkv lookup
    rcases of_lookup_insert lookup with ⟨rfl, rfl⟩ | ⟨_, lookup⟩
    · exact ⟨ls.cells.read cell, by rw [LocalState.view, found, Option.map_some], rfl⟩
    · exact reads query rkv lookup

theorem ReadsCells.putState (reads : ReadsCells ls lts) (key : Key) (value : Option Value) :
    ReadsCells ls (Shim.putState key value lts).2 := by
  unfold Shim.putState
  split <;> exact reads

theorem unLockReadSets_copySlice (key : Key) (src : Value) (lts : LocalTxnSimulator) :
    (lts.copySlice key src).unLockReadSets = lts.unLockReadSets ∧
      (lts.copySlice key src).observed = lts.observed := by
  unfold LocalTxnSimulator.copySlice
  split <;> exact ⟨rfl, rfl⟩

/-- An execution in the commit loop reads what the cells hold. -/
theorem ReadsCells.invoke (program : Program) (reads : ReadsCells ls lts) :
    ReadsCells ls (program.invoke ls lts).1 := by
  induction program generalizing lts with
  | getState key next ih => exact ih _ (reads.getState key)
  | putState key value next ih => exact ih _ (reads.putState key value)
  | delState key next ih => exact ih reads
  | copy key src next ih =>
    apply ih
    unfold ReadsCells
    rw [(unLockReadSets_copySlice key src lts).1]
    exact reads
  | done res => exact reads

/-- The committed execution tracks the cells and has read what they hold. -/
theorem executed_reads {msg : CommitMsg} (tracks : Tracks ls msg.stub.lts) :
    Tracks ls (executed ls msg).1 ∧ ReadsCells ls (executed ls msg).1 := by
  unfold executed
  split
  next flag => exact ⟨tracks, readsCells_of_flagCommit tracks flag⟩
  · have fresh : ReadsCells ls (newLocalTxnSimulator msg.stub.txID) := fun _ _ found => (nomatch found)
    exact ⟨(tracks_new ls _).invoke _, fresh.invoke _⟩

end Execution

end Pobl.Shim
