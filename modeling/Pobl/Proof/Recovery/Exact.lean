import Pobl.Construction.Recovery

namespace Pobl.Recovery

open Library Recoverable List

variable {l : KvLedger} {number first block : UInt64} {database : Database}

/-- The blocks are committed in order. -/
def Recoverable.caughtUp (db : Recoverable) (blocks : List UInt64) : Recoverable :=
  blocks.foldl commitLostBlock db

theorem caughtUp_eq (db : Recoverable) (blocks : List UInt64) : db.caughtUp blocks =
      { db with savepoint := blocks.getLast?.or db.savepoint, commits := db.commits ++ blocks } := by
  induction blocks generalizing db with
  | nil => simp [caughtUp]
  | cons block rest ih =>
    rw [caughtUp, foldl_cons, ← caughtUp, ih]
    simp [commitLostBlock, List.getLast?_cons]

namespace KvLedger

/-- The blocks that the recovery commits to a database. -/
def lost (l : KvLedger) (database : Database) : List UInt64 :=
  let (recoverFlag, firstBlockNum) := (l.db database).shouldRecover (l.height - 1)
  if 0 < l.height ∧ recoverFlag then blockNumbers firstBlockNum (l.height - 1) else []

/-- The save point of a database is a block of the store. -/
def Below (l : KvLedger) (database : Database) : Prop := ∀ savepoint ∈ (l.db database).savepoint, savepoint < l.height

/-- The ledger after some blocks were committed to some databases. -/
structure CaughtUp (l next : KvLedger) (blocks : Database → List UInt64) : Prop where
  db : ∀ database, next.db database = (l.db database).caughtUp (blocks database)
  height : next.height = l.height
  isValid : next.isValid = l.isValid
  old : next.lastUpdatedOldBlocks = l.lastUpdatedOldBlocks
  passed : next.passed = l.passed

theorem CaughtUp.refl (l : KvLedger) : l.CaughtUp l fun _ => [] := ⟨fun _ => rfl, rfl, rfl, rfl, rfl⟩

theorem CaughtUp.trans {first second third : KvLedger} {blocks others : Database → List UInt64}
    (earlier : first.CaughtUp second blocks) (later : second.CaughtUp third others) :
    first.CaughtUp third fun database => blocks database ++ others database where
  db database := by rw [later.db, earlier.db, caughtUp, caughtUp, ← foldl_append]; rfl
  height := later.height.trans earlier.height
  isValid := later.isValid.trans earlier.isValid
  old := later.old.trans earlier.old
  passed := later.passed.trans earlier.passed

theorem CaughtUp.congr {next : KvLedger} {blocks others : Database → List UInt64} (caught : l.CaughtUp next blocks)
    (same : ∀ database, blocks database = others database) : l.CaughtUp next others :=
  funext same ▸ caught

theorem caughtUp_commitLostBlock (l : KvLedger) (block : UInt64) (database : Database) :
    l.CaughtUp (l.commitLostBlock block database) fun other => if other = database then [block] else [] := by
  cases database <;> exact ⟨fun other => by cases other <;> rfl, rfl, rfl, rfl, rfl⟩

theorem caughtUp_foldl (l : KvLedger) (block : UInt64) {databases : List Database} (distinct : databases.Nodup) :
    l.CaughtUp (databases.foldl (fun l database => l.commitLostBlock block database) l) fun other =>
      if other ∈ databases then [block] else [] := by
  induction databases generalizing l with
  | nil => simpa using CaughtUp.refl l
  | cons database rest ih =>
    obtain ⟨absent, later⟩ := nodup_cons.mp distinct
    refine ((caughtUp_commitLostBlock l block database).trans (ih _ later)).congr fun other => ?_
    by_cases same : other = database
    · simp [same, absent]
    · simp [same]

theorem retrieveBlockByNumber_eq_ok (stored : block < l.height) : l.retrieveBlockByNumber block = .ok block := by
  have other : block ≠ -1 := by
    rintro rfl
    have := UInt64.toNat_lt l.height
    exact absurd (UInt64.lt_iff_toNat_lt.mp stored) (by simp; omega)
  simp [retrieveBlockByNumber, other, stored]

theorem mem_blockNumbers {last : UInt64} : block ∈ blockNumbers first last ↔ first ≤ block ∧ block ≤ last := by
  have bound := last.toNat_lt
  simp only [blockNumbers, mem_map, mem_range'_1, UInt64.le_iff_toNat_le]
  constructor
  · rintro ⟨number, between, rfl⟩
    rw [UInt64.toNat_ofNat', Nat.mod_eq_of_lt (by omega)]
    omega
  · exact fun between => ⟨block.toNat, by omega, UInt64.ofNat_toNat⟩

theorem pairwise_blockNumbers (first last : UInt64) : (blockNumbers first last).Pairwise (· < ·) := by
  have bound := last.toNat_lt
  refine pairwise_map.mpr ((@pairwise_lt_range' _ _ 1 Nat.one_pos).imp_of_mem fun {small large} _ later less => ?_)
  have between := mem_range'_1.mp later
  rw [UInt64.lt_iff_toNat_lt, UInt64.toNat_ofNat', UInt64.toNat_ofNat', Nat.mod_eq_of_lt, Nat.mod_eq_of_lt]
  all_goals omega

/-- All blocks up to the last one are in the store, so the loop commits each of them. -/
theorem recommitLostBlocks_eq_ok {firstBlockNum lastBlockNum : UInt64} {databases : List Database}
    (distinct : databases.Nodup) (stored : lastBlockNum < l.height) :
    ∃ next, l.recommitLostBlocks firstBlockNum lastBlockNum databases = .ok next ∧
      l.CaughtUp next fun other => if other ∈ databases then blockNumbers firstBlockNum lastBlockNum else [] := by
  rw [recommitLostBlocks]
  have inside : ∀ block ∈ blockNumbers firstBlockNum lastBlockNum, block < l.height := fun block member =>
    UInt64.lt_of_le_of_lt (mem_blockNumbers.mp member).2 stored
  generalize blockNumbers firstBlockNum lastBlockNum = blocks at inside
  induction blocks generalizing l with
  | nil => exact ⟨l, rfl, by simpa using CaughtUp.refl l⟩
  | cons block rest ih =>
    obtain ⟨here, later⟩ := forall_mem_cons.mp inside
    have one := caughtUp_foldl l block distinct
    obtain ⟨next, made, caught⟩ := ih (by rw [one.height]; exact stored) (by rw [one.height]; exact later)
    refine ⟨next, ?_, ?_⟩
    · rw [foldlM_cons, retrieveBlockByNumber_eq_ok here]
      exact made
    · refine (one.trans caught).congr fun other => ?_
      split <;> rfl

theorem toNat_pred (positive : 0 < number) : (number - 1).toNat = number.toNat - 1 := by
  exact UInt64.toNat_sub_of_le _ _ (UInt64.le_iff_toNat_le.mpr positive)

theorem blockNumbers_append {middle last : UInt64} (early : first ≤ middle) (late : middle ≤ last)
    (positive : 0 < middle) :
    blockNumbers first (middle - 1) ++ blockNumbers middle last = blockNumbers first last := by
  rw [UInt64.le_iff_toNat_le] at early late
  simp only [blockNumbers, ← map_append, toNat_pred positive]
  rw [UInt64.lt_iff_toNat_lt, UInt64.toNat_zero] at positive
  have joined := @range'_append_1 first.toNat (middle.toNat - first.toNat) (last.toNat + 1 - middle.toNat)
  rw [show first.toNat + (middle.toNat - first.toNat) = middle.toNat by omega] at joined
  rw [show middle.toNat - 1 + 1 - first.toNat = middle.toNat - first.toNat by omega, joined]
  congr 2
  omega

/-- A database recovers from the block after its save point, which is at most the height. -/
theorem shouldRecover_le (positive : 0 < l.height) (below : l.Below database) {recoverFlag : Bool}
    (checked : (l.db database).shouldRecover (l.height - 1) = (recoverFlag, first)) :
    first ≤ l.height ∧ (recoverFlag = true → first ≤ l.height - 1) := by
  cases found : (l.db database).savepoint with
  | none =>
    simp only [shouldRecover, found] at checked
    grind
  | some savepoint =>
    have stored := below savepoint found
    simp only [shouldRecover, found] at checked
    grind

theorem lost_eq (positive : 0 < l.height) {recoverFlag : Bool}
    (checked : (l.db database).shouldRecover (l.height - 1) = (recoverFlag, first)) :
    l.lost database = if recoverFlag then blockNumbers first (l.height - 1) else [] := by
  simp [lost, checked, positive]

theorem recoverers_eq_ok {state history : Bool × UInt64}
    (stateBehind : l.stateDB.shouldRecover (l.height - 1) = state)
    (historyBehind : l.historyDB.shouldRecover (l.height - 1) = history) (stateWithin : state.2 ≤ l.height)
    (historyWithin : history.2 ≤ l.height) :
    l.recoverers (l.height - 1) [.state, .history] =
      .ok ((if state.1 then [⟨state.2, .state⟩] else []) ++ if history.1 then [⟨history.2, .history⟩] else []) := by
  have height : l.height - 1 + 1 = l.height := by simp
  simp only [recoverers, db, stateBehind, historyBehind, height, require, stateWithin, historyWithin, if_true]
  rcases state with ⟨_ | _, _⟩ <;> rcases history with ⟨_ | _, _⟩ <;> rfl

/-- The lagging database is brought up to the other one, and then both to the block store. -/
theorem recommit_both {behind ahead last : UInt64} {lagger other : Database} (distinct : lagger ≠ other)
    (ordered : behind ≤ ahead) (within : ahead ≤ last) (stored : last < l.height) :
    ∃ next, (do
      let l ← if behind ≠ ahead then l.recommitLostBlocks behind (ahead - 1) [lagger] else pure l
      l.recommitLostBlocks ahead last [lagger, other]) = .ok next ∧
      l.CaughtUp next fun database =>
        if database = lagger then blockNumbers behind last else
          if database = other then blockNumbers ahead last else [] := by
  have both {l : KvLedger} (stored : last < l.height) :=
    @recommitLostBlocks_eq_ok l ahead last [lagger, other] (by simpa using distinct) stored
  by_cases same : behind = ahead
  · obtain ⟨next, made, caught⟩ := both stored
    refine ⟨next, by simpa [same] using made, caught.congr fun database => ?_⟩
    grind
  · have positive : 0 < ahead := UInt64.lt_of_le_of_lt UInt64.zero_le (UInt64.lt_of_le_of_ne ordered same)
    obtain ⟨middle, first, alone⟩ := @recommitLostBlocks_eq_ok l behind (ahead - 1) [lagger] (by simp)
      (by grind)
    obtain ⟨next, made, caught⟩ := both (alone.height ▸ stored)
    refine ⟨next, ?_, (alone.trans caught).congr fun database => ?_⟩
    · rw [if_pos same, first]
      exact made
    · by_cases lagging : database = lagger
      · simp [lagging, blockNumbers_append ordered within positive]
      · simp [lagging]

theorem syncStateAndHistoryDBWithBlockstore_eq_ok (below : ∀ database, l.Below database) :
    ∃ next, l.syncStateAndHistoryDBWithBlockstore = .ok next ∧ l.CaughtUp next l.lost := by
  rw [syncStateAndHistoryDBWithBlockstore]
  by_cases empty : l.height = 0
  · exact ⟨l, if_pos empty, (CaughtUp.refl l).congr fun database => by simp [lost, empty]⟩
  rw [if_neg empty]
  have positive : 0 < l.height := UInt64.pos_iff_ne_zero.mpr empty
  have last : l.height - 1 < l.height := by grind
  rcases state : l.stateDB.shouldRecover (l.height - 1) with ⟨stateFlag, stateFirst⟩
  rcases history : l.historyDB.shouldRecover (l.height - 1) with ⟨historyFlag, historyFirst⟩
  obtain ⟨stateWithin, stateMisses⟩ := shouldRecover_le positive (below .state) state
  obtain ⟨historyWithin, historyMisses⟩ := shouldRecover_le positive (below .history) history
  simp only [recoverers_eq_ok state history stateWithin historyWithin]
  have stateLost := @lost_eq _ _ .state positive _ state
  have historyLost := @lost_eq _ _ .history positive _ history
  cases stateFlag <;> cases historyFlag
  · exact ⟨l, rfl, (CaughtUp.refl l).congr fun | .state => stateLost.symm | .history => historyLost.symm⟩
  · obtain ⟨next, made, caught⟩ := @recommitLostBlocks_eq_ok l historyFirst (l.height - 1) [.history] (by simp) last
    exact ⟨next, made, caught.congr fun | .state => stateLost.symm | .history => historyLost.symm⟩
  · obtain ⟨next, made, caught⟩ := @recommitLostBlocks_eq_ok l stateFirst (l.height - 1) [.state] (by simp) last
    exact ⟨next, made, caught.congr fun | .state => stateLost.symm | .history => historyLost.symm⟩
  · by_cases order : stateFirst > historyFirst
    · obtain ⟨next, made, caught⟩ := @recommit_both l historyFirst stateFirst (l.height - 1) .history .state (by simp)
        (UInt64.le_of_lt order) (stateMisses rfl) last
      refine ⟨next, by simpa [order] using made, caught.congr ?_⟩
      exact fun | .state => stateLost.symm | .history => historyLost.symm
    · obtain ⟨next, made, caught⟩ := @recommit_both l stateFirst historyFirst (l.height - 1) .state .history (by simp)
        (UInt64.not_lt.mp order) (historyMisses rfl) last
      refine ⟨next, by simpa [order] using made, caught.congr ?_⟩
      exact fun | .state => stateLost.symm | .history => historyLost.symm

/-- The lost blocks are those of the store above the save point of a database that is in use. -/
theorem mem_lost (below : l.Below database) : block ∈ l.lost database ↔ (l.db database).enabled = true ∧
    block < l.height ∧ ∀ savepoint ∈ (l.db database).savepoint, savepoint < block := by
  cases enabled : (l.db database).enabled with
  | false => simp [lost, shouldRecover, enabled]
  | true =>
    cases found : (l.db database).savepoint with
    | none =>
      simp only [lost, shouldRecover, enabled, found]
      grind [mem_blockNumbers]
    | some savepoint =>
      have stored := below savepoint found
      have next : savepoint < block ↔ savepoint + 1 ≤ block := by grind
      simp only [lost, shouldRecover, enabled, found, Option.mem_some_iff, forall_eq', Bool.not_true,
        Bool.false_eq_true, if_false]
      split
      · rw [mem_blockNumbers]
        grind
      · grind

theorem pairwise_lost (l : KvLedger) (database : Database) : (l.lost database).Pairwise (· < ·) := by
  simp only [lost]
  split
  · exact pairwise_blockNumbers _ _
  · exact .nil

/-- A database in use ends at the last block of the store. -/
theorem getLast_lost (positive : 0 < l.height) (below : l.Below database) (enabled : (l.db database).enabled = true) :
    (l.lost database).getLast?.or (l.db database).savepoint = some (l.height - 1) := by
  by_cases current : (l.db database).savepoint = some (l.height - 1)
  · have none : l.lost database = [] := by
      refine eq_nil_iff_forall_not_mem.mpr fun block member => ?_
      obtain ⟨-, stored, missed⟩ := (mem_lost below).mp member
      have := missed _ current
      grind
    simp [none, current]
  · have last : l.height - 1 ∈ l.lost database := by
      refine (mem_lost below).mpr ⟨enabled, by grind, fun savepoint found => ?_⟩
      have stored := below _ found
      have other : savepoint ≠ l.height - 1 := fun same => current (same ▸ found)
      grind
    obtain ⟨front, rest, split⟩ := append_of_mem last
    have ordered := pairwise_lost l database
    have none : rest = [] := by
      refine eq_nil_iff_forall_not_mem.mpr fun block member => ?_
      rw [split, pairwise_append, pairwise_cons] at ordered
      obtain ⟨-, stored, -⟩ := (mem_lost below).mp (split ▸ mem_append_right _ (mem_cons_of_mem _ member))
      have above := ordered.2.1.1 block member
      grind
    simp [split, none]

/-- The private data of a call belongs to blocks of the store. -/
def PassesOld (l : KvLedger) (call : List (UInt64 × List TxPvtData)) : Prop :=
  ∀ entry ∈ call, entry.1 < l.height ∧ ∃ old ∈ l.lastUpdatedOldBlocks, entry.1 = old.1 ∧ entry.2.Sublist old.2

theorem filterPvtDataOfInvalidTx_eq_ok {items : List (UInt64 × List TxPvtData)}
    (stored : ∀ entry ∈ items, entry.1 < l.height) :
    l.filterPvtDataOfInvalidTx items =
      .ok (items.map fun entry => (entry.1, entry.2.filter fun pvtData => l.isValid entry.1 pvtData.seqInBlock)) := by
  rw [filterPvtDataOfInvalidTx, mapM_eq_ok, forall₂_map_right_iff, forall₂_same]
  intro entry member
  rw [retrieveBlockByNumber_eq_ok (stored entry member)]
  rfl

/-- On an empty store the bound of the filter lets all old blocks pass, and then the first of them is not found. -/
theorem syncStateDBWithPvtdatastore_cases (l : KvLedger) :
    (l.height = 0 ∧ ∃ message, l.syncStateDBWithPvtdatastore = .error (message, l)) ∨
    ∃ call, l.PassesOld call ∧
      l.syncStateDBWithPvtdatastore = .ok { l with passed := l.passed ++ [call], lastUpdatedOldBlocks := [] } := by
  rw [syncStateDBWithPvtdatastore]
  by_cases empty : l.height = 0
  · cases waiting : l.filterYetToCommitBlocks with
    | nil => exact .inr ⟨[], by simp [PassesOld], rfl⟩
    | cons entry rest =>
      have missing : l.retrieveBlockByNumber entry.1 = .error ("Entry not found in index", l) := by
        simp [retrieveBlockByNumber, empty]
      refine .inl ⟨empty, "Entry not found in index", ?_⟩
      rw [filterPvtDataOfInvalidTx, mapM_cons, missing]
      rfl
  · have positive : 0 < l.height := UInt64.pos_iff_ne_zero.mpr empty
    have stored : ∀ entry ∈ l.filterYetToCommitBlocks, entry.1 < l.height := fun entry member =>
      UInt64.lt_of_le_of_lt (UInt64.not_lt.mp (by simpa using (mem_filter.mp member).2)) (by grind)
    refine .inr ⟨_, ?_, by rw [filterPvtDataOfInvalidTx_eq_ok stored]; rfl⟩
    intro entry member
    obtain ⟨old, found, rfl⟩ := mem_map.mp member
    exact ⟨stored old found, old, (mem_filter.mp found).1, rfl, filter_sublist⟩

/-- The ledger that a recovery leaves, also when it fails. -/
def after : Except (String × KvLedger) KvLedger → KvLedger
  | .ok l => l
  | .error (_, l) => l

/-- The recovery commits to each database in use the blocks above its save point, once each and in order, and passes
only the private data of blocks of the store. -/
theorem recoverDBs_exact (l : KvLedger) (below : ∀ database, l.Below database) :
    (∀ database, ∃ blocks, ((after l.recoverDBs).db database).commits = (l.db database).commits ++ blocks ∧
      blocks.Pairwise (· < ·) ∧
      (∀ block, block ∈ blocks ↔ (l.db database).enabled = true ∧ block < l.height ∧
        ∀ savepoint ∈ (l.db database).savepoint, savepoint < block) ∧
      (0 < l.height → (l.db database).enabled = true →
        ((after l.recoverDBs).db database).savepoint = some (l.height - 1))) ∧
    (∃ calls, (after l.recoverDBs).passed = l.passed ++ calls ∧ ∀ call ∈ calls, l.PassesOld call) ∧
    (0 < l.height → ∃ next, l.recoverDBs = .ok next) := by
  obtain ⟨synced, made, caught⟩ := syncStateAndHistoryDBWithBlockstore_eq_ok below
  have recovered : l.recoverDBs = synced.syncStateDBWithPvtdatastore := by rw [recoverDBs, made]; rfl
  have same : (after l.recoverDBs).db = synced.db ∧
      (∃ calls, (after l.recoverDBs).passed = l.passed ++ calls ∧ ∀ call ∈ calls, l.PassesOld call) ∧
      (0 < l.height → ∃ next, l.recoverDBs = .ok next) := by
    rw [recovered]
    rcases syncStateDBWithPvtdatastore_cases synced with ⟨empty, message, failed⟩ | ⟨call, old, passed⟩
    · rw [failed]
      refine ⟨rfl, ⟨[], by simp [after, caught.passed], by simp⟩, fun positive => ?_⟩
      simp [← caught.height, empty] at positive
    · rw [passed]
      refine ⟨funext fun database => by cases database <;> rfl, ⟨[call], by simp [after, caught.passed], ?_⟩, by simp⟩
      simpa [PassesOld, caught.height, caught.old] using old
  refine ⟨fun database => ⟨l.lost database, ?_, pairwise_lost l database, fun _ => mem_lost (below database), ?_⟩, same.2⟩
  · rw [same.1, caught.db, caughtUp_eq]
  · intro positive enabled
    rw [same.1, caught.db, caughtUp_eq]
    exact getLast_lost positive (below database) enabled

/-- A ledger of three blocks whose databases lag differently, with private data of a block above the store. -/
def lagging : KvLedger where
  height := 3
  isValid _ _ := true
  stateDB := ⟨"state", true, some 0, [0]⟩
  historyDB := ⟨"history", true, none, []⟩
  lastUpdatedOldBlocks := [(1, []), (3, [])]
  passed := []

theorem below_lagging : ∀ database, lagging.Below database
  | .state => by simp [Below, db, lagging]
  | .history => by simp [Below, db, lagging]

theorem recoverDBs_exact_lagging : (∃ next, lagging.recoverDBs = .ok next) ∧
    ∀ database, ((after lagging.recoverDBs).db database).savepoint = some 2 :=
  have exact := recoverDBs_exact lagging below_lagging
  ⟨exact.2.2 (by decide), fun database =>
    (exact.1 database).choose_spec.2.2.2 (by decide) (by cases database <;> rfl)⟩

end KvLedger

end Pobl.Recovery
