import Pobl.Construction.TxMgr
import Pobl.Library.Run
import Pobl.Proof.Mvcc.Overlay

namespace Pobl.Txmgmt

open Library List

variable {updates : PubAndHashUpdates} {txmgr : LockBasedTxMgr}

/-- The state returns this result. -/
def Returned.TakenFrom (state : CommonStorageDB) : Returned → Prop
  | .state ns key versionedValue => state.getState ns key = versionedValue
  | .next ns startKey endKey position queryResult =>
    (state.getStateRangeScanIterator ns startKey endKey)[position]? = queryResult

/-- The updates have no key that the result is about. -/
def Returned.avoids (updates : UpdateBatch) : Returned → Bool
  | .state ns key _ => !updates.exists ns key
  | .next ns startKey endKey _ _ => (updates.getRangeScanIterator ns startKey endKey).isEmpty

theorem getState_of_absent {ns key : String} (absent : updates.pubUpdates.get ns key = none) (db : CommonStorageDB) :
    (db.applyPrivacyAwareUpdates updates).getState ns key = db.getState ns key := by
  rw [CommonStorageDB.getState, CommonStorageDB.applyPrivacyAwareUpdates, find_applyUpdates, absent]
  rfl

/-- Updates outside a range leave its results. -/
theorem rangeScan_of_absent {ns startKey endKey : String}
    (absent : updates.pubUpdates.getRangeScanIterator ns startKey endKey = []) (db : CommonStorageDB) :
    (db.applyPrivacyAwareUpdates updates).getStateRangeScanIterator ns startKey endKey =
      db.getStateRangeScanIterator ns startKey endKey := by
  refine (ascending_dbItr ..).eq_of_mem_iff (ascending_dbItr ..) fun entry => ?_
  rw [mem_getStateRangeScanIterator, mem_getStateRangeScanIterator]
  refine and_congr_left fun inRange => ?_
  have unchanged : updates.pubUpdates.get ns entry.1 = none := by
    cases found : updates.pubUpdates.get ns entry.1 with
    | none => rfl
    | some vv =>
      have member := (mem_getRangeScanIterator updates.pubUpdates ns startKey endKey (entry.1, vv)).mpr
        ⟨found, inRange⟩
      rw [absent] at member
      exact nomatch member
  rw [getState_of_absent unchanged]

theorem Returned.takenFrom_apply {result : Returned} (avoids : result.avoids updates.pubUpdates = true)
    {db : CommonStorageDB} (taken : result.TakenFrom db) :
    result.TakenFrom (db.applyPrivacyAwareUpdates updates) := by
  cases result with
  | state ns key versionedValue =>
    have absent : updates.pubUpdates.get ns key = none := by
      simpa [Returned.avoids, UpdateBatch.exists] using avoids
    exact (getState_of_absent absent db).trans taken
  | next ns startKey endKey position queryResult =>
    have scan := rangeScan_of_absent (isEmpty_iff.mp avoids) db
    rw [TakenFrom, scan]
    exact taken

namespace LockBasedTxMgr

/-- The updates have no key that the simulator has read or that an iterator of it may still read. -/
def avoids (updates : UpdateBatch) (txmgr : LockBasedTxMgr) : Bool :=
  txmgr.returned.all (·.avoids updates) &&
    txmgr.itrs.all fun itr => (updates.getRangeScanIterator itr.ns itr.startKey itr.endKey).isEmpty

/-- A commit does not change what the simulator reads, unless the simulator is done. -/
def Undisturbed (txmgr : LockBasedTxMgr) : TxMgrStep → Prop
  | .applyPrivacyAwareUpdates updates => txmgr.doneInvoked = true ∨ txmgr.avoids updates.pubUpdates = true
  | _ => True

instance (txmgr : LockBasedTxMgr) : ∀ label, Decidable (txmgr.Undisturbed label)
  | .applyPrivacyAwareUpdates updates =>
    inferInstanceAs (Decidable (txmgr.doneInvoked = true ∨ txmgr.avoids updates.pubUpdates = true))
  | .getState .. | .getStateMultipleKeys .. | .nextKey | .getStateRangeScanIterator .. | .next .. | .done
  | .commitLock | .commitUnlock => .isTrue trivial

/-- The results are taken from the database while the simulator is used, and from one committed state after that. -/
structure Snapshot (txmgr : LockBasedTxMgr) : Prop where
  current : txmgr.db ∈ txmgr.committed
  inUse : txmgr.doneInvoked = false → (∀ result ∈ txmgr.returned, result.TakenFrom txmgr.db) ∧
    ∀ itr ∈ txmgr.itrs, itr.dbItr = txmgr.db.getStateRangeScanIterator itr.ns itr.startKey itr.endKey
  closed : txmgr.doneInvoked = true → txmgr.requested = [] ∧
    ∃ state ∈ txmgr.committed, ∀ result ∈ txmgr.returned, result.TakenFrom state

theorem snapshot_newTxSimulator (db : CommonStorageDB) : (newTxSimulator db).Snapshot where
  current := mem_singleton_self db
  inUse := fun _ => by simp [newTxSimulator]
  closed := nofun

/-- A call of the simulator that goes on is made while it is in use. -/
theorem call_eq_some {next : LockBasedTxMgr} {start : LockBasedTxMgr → Option LockBasedTxMgr}
    (called : txmgr.call start = some next) :
    txmgr.requested = [] ∧
      (txmgr.doneInvoked = true ∧ next = txmgr ∨ txmgr.doneInvoked = false ∧ start txmgr = some next) := by
  rw [call] at called
  split at called
  · exact nomatch called
  next free =>
    refine ⟨not_not.mp free, ?_⟩
    split at called
    next closed => exact .inl ⟨closed, (Option.some.inj called).symm⟩
    next inUse => exact .inr ⟨Bool.eq_false_iff.mpr inUse, called⟩

theorem snapshot_returnState (snapshot : txmgr.Snapshot) (inUse : txmgr.doneInvoked = false) (ns key : String)
    (requested : List (String × String)) : Snapshot { txmgr.returnState ns key with requested := requested } where
  current := snapshot.current
  inUse := fun _ => by
    obtain ⟨taken, opened⟩ := snapshot.inUse inUse
    refine ⟨fun result member => ?_, opened⟩
    rcases mem_append.mp member with earlier | last
    · exact taken result earlier
    · rw [mem_singleton.mp last]
      rfl
  closed := fun closed => absurd (inUse.symm.trans closed) Bool.false_ne_true

theorem snapshot_next (snapshot : txmgr.Snapshot) (inUse : txmgr.doneInvoked = false) {index : Nat} {itr : ResultsItr}
    (found : txmgr.itrs[index]? = some itr) :
    Snapshot { txmgr with
      itrs := txmgr.itrs.set index { itr with position := itr.position + 1 }
      returned := txmgr.returned ++ [.next itr.ns itr.startKey itr.endKey itr.position (itr.dbItr[itr.position]?)] } where
  current := snapshot.current
  inUse := fun _ => by
    obtain ⟨taken, opened⟩ := snapshot.inUse inUse
    have same := opened itr (List.mem_of_getElem? found)
    refine ⟨fun result member => ?_, fun other member => ?_⟩
    · rcases mem_append.mp member with earlier | last
      · exact taken result earlier
      · rw [mem_singleton.mp last, Returned.TakenFrom, same]
    · rcases mem_or_eq_of_mem_set member with earlier | rfl
      · exact opened other earlier
      · exact same
  closed := fun closed => absurd (inUse.symm.trans closed) Bool.false_ne_true

theorem snapshot_open (snapshot : txmgr.Snapshot) (inUse : txmgr.doneInvoked = false) (ns startKey endKey : String) :
    Snapshot { txmgr with
      itrs := txmgr.itrs ++ [⟨ns, startKey, endKey, txmgr.db.getStateRangeScanIterator ns startKey endKey, 0⟩] } where
  current := snapshot.current
  inUse := fun _ => by
    obtain ⟨taken, opened⟩ := snapshot.inUse inUse
    refine ⟨taken, fun itr member => ?_⟩
    rcases mem_append.mp member with earlier | last
    · exact opened itr earlier
    · rw [mem_singleton.mp last]
  closed := fun closed => absurd (inUse.symm.trans closed) Bool.false_ne_true

/-- A commit that avoids what the simulator reads keeps the results of the simulator current. -/
theorem snapshot_apply (snapshot : txmgr.Snapshot)
    (undisturbed : txmgr.doneInvoked = true ∨ txmgr.avoids updates.pubUpdates = true) :
    Snapshot { txmgr with
      db := txmgr.db.applyPrivacyAwareUpdates updates
      committed := txmgr.db.applyPrivacyAwareUpdates updates :: txmgr.committed } where
  current := mem_cons_self
  inUse := fun inUse => by
    have inUse : txmgr.doneInvoked = false := inUse
    obtain ⟨taken, opened⟩ := snapshot.inUse inUse
    have avoids := undisturbed.resolve_left (by simp [inUse])
    rw [LockBasedTxMgr.avoids, Bool.and_eq_true, all_eq_true, all_eq_true] at avoids
    refine ⟨fun result member => (taken result member) |> Returned.takenFrom_apply (avoids.1 result member), ?_⟩
    intro itr member
    rw [rangeScan_of_absent (isEmpty_iff.mp (avoids.2 itr member))]
    exact opened itr member
  closed := fun closed => by
    obtain ⟨free, state, member, taken⟩ := snapshot.closed closed
    exact ⟨free, state, mem_cons_of_mem _ member, taken⟩

theorem snapshot_done (snapshot : txmgr.Snapshot) (inUse : txmgr.doneInvoked = false)
    (free : txmgr.requested = []) : Snapshot { txmgr with doneInvoked := true } where
  current := snapshot.current
  inUse := nofun
  closed := fun _ => ⟨free, txmgr.db, snapshot.current, (snapshot.inUse inUse).1⟩

/-- Each step keeps the snapshot. -/
theorem snapshot_step (txmgr : LockBasedTxMgr) (label : TxMgrStep) (next : LockBasedTxMgr)
    (undisturbed : txmgr.Undisturbed label) (snapshot : txmgr.Snapshot) (stepped : txmgr.step label = some next) :
    next.Snapshot := by
  cases label with
  | getState ns key =>
    rw [step] at stepped
    obtain ⟨free, ⟨_, rfl⟩ | ⟨inUse, started⟩⟩ := call_eq_some stepped
    · exact snapshot
    · cases started
      exact snapshot_returnState snapshot inUse ns key txmgr.requested
  | getStateMultipleKeys ns keys =>
    rw [step] at stepped
    obtain ⟨free, ⟨_, rfl⟩ | ⟨inUse, started⟩⟩ := call_eq_some stepped
    · exact snapshot
    · cases started
      exact { snapshot with closed := fun closed => absurd (inUse.symm.trans closed) Bool.false_ne_true }
  | nextKey =>
    rw [step] at stepped
    split at stepped
    · exact nomatch stepped
    next ns key requested waiting =>
      cases stepped
      have inUse : txmgr.doneInvoked = false := by
        by_contra closed
        have free := (snapshot.closed (by simpa using closed)).1
        exact nomatch waiting.symm.trans free
      exact snapshot_returnState snapshot inUse ns key requested
  | getStateRangeScanIterator ns startKey endKey =>
    rw [step] at stepped
    obtain ⟨free, ⟨_, rfl⟩ | ⟨inUse, started⟩⟩ := call_eq_some stepped
    · exact snapshot
    · cases started
      exact snapshot_open snapshot inUse ns startKey endKey
  | next index =>
    rw [step] at stepped
    obtain ⟨free, ⟨_, rfl⟩ | ⟨inUse, started⟩⟩ := call_eq_some stepped
    · exact snapshot
    · obtain ⟨itr, found, rfl⟩ := Option.map_eq_some_iff.mp started
      exact snapshot_next snapshot inUse found
  | done =>
    rw [step] at stepped
    obtain ⟨free, ⟨_, rfl⟩ | ⟨inUse, started⟩⟩ := call_eq_some stepped
    · exact snapshot
    · cases started
      exact snapshot_done snapshot inUse free
  | commitLock =>
    rw [step] at stepped
    split at stepped
    · exact nomatch stepped
    · cases stepped
      exact { snapshot with }
  | applyPrivacyAwareUpdates updates =>
    rw [step] at stepped
    split at stepped
    · cases stepped
      exact snapshot_apply snapshot undisturbed
    · exact nomatch stepped
  | commitUnlock =>
    rw [step] at stepped
    split at stepped
    · cases stepped
      exact { snapshot with }
    · exact nomatch stepped

/-- In every run without a commit to what the simulator reads, all its results are taken from one committed state. -/
theorem exists_snapshot (db : CommonStorageDB) (labels : List TxMgrStep) (final : LockBasedTxMgr)
    (guarded : Guarded step Undisturbed (newTxSimulator db) labels)
    (reached : run step (newTxSimulator db) labels = some final) :
    ∃ state ∈ final.committed, ∀ result ∈ final.returned, result.TakenFrom state := by
  have snapshot := run_invariant step Undisturbed Snapshot snapshot_step labels (newTxSimulator db) final
    (snapshot_newTxSimulator db) guarded reached
  cases closed : final.doneInvoked with
  | false => exact ⟨final.db, snapshot.current, (snapshot.inUse closed).1⟩
  | true => exact (snapshot.closed closed).2

section Runs

/-- The updates of a block that writes one key. -/
def keyUpdates (key : String) : PubAndHashUpdates :=
  ⟨UpdateBatch.newUpdateBatch.update "cc" key ⟨some [1], none, ⟨1, 0⟩⟩, .newHashedUpdateBatch⟩

theorem exists_snapshot_around_commit : ∃ final, run step (newTxSimulator .newCommonStorageDB)
        [.getState "cc" "k", .commitLock, .applyPrivacyAwareUpdates (keyUpdates "other"), .commitUnlock,
          .getState "cc" "other", .done] = some final ∧
      ∃ state ∈ final.committed, ∀ result ∈ final.returned, result.TakenFrom state := by
  exact ⟨_, rfl, exists_snapshot .newCommonStorageDB
    [.getState "cc" "k", .commitLock, .applyPrivacyAwareUpdates (keyUpdates "other"), .commitUnlock,
      .getState "cc" "other", .done] _ (by decide) rfl⟩

/-- A block is committed between two reads of one key, and no state has both results. -/
theorem no_snapshot_around_commit : ∃ final, run step (newTxSimulator .newCommonStorageDB)
        [.getState "cc" "k", .commitLock, .applyPrivacyAwareUpdates (keyUpdates "k"), .commitUnlock,
          .getState "cc" "k", .done] = some final ∧
      ¬ ∃ state, ∀ result ∈ final.returned, result.TakenFrom state := by
  refine ⟨_, rfl, ?_⟩
  rintro ⟨state, taken⟩
  have first := taken _ mem_cons_self
  have second := taken _ (mem_cons_of_mem _ mem_cons_self)
  exact absurd (first.symm.trans second) (by decide)

end Runs

end LockBasedTxMgr

end Pobl.Txmgmt
