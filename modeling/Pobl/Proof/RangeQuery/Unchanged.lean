import Pobl.Construction.TxMgr
import Pobl.Proof.RangeQuery.CombinedIterator
import Pobl.Proof.RangeQuery.Exactness

namespace Pobl.Txmgmt

open Library RangeQueryResultsHelper SimulatorItr
open MerkleTree (addHash isEmpty maxLevel maxLevelHashes update newMerkleTree trees)

variable {Hash : Type} {hashing : Hashing (String × Height) Hash} {maxDegree : UInt32}
  {reads : List (String × Height)} {enableHashing : Bool} {vv : VersionedValue}

/-- What the record of a range query keeps of its results. -/
def versions (items : List VersionedKV) : List (String × Height) := items.map fun item => (item.1, item.2.version)

theorem versions_append (first second : List VersionedKV) :
    versions (first ++ second) = versions first ++ versions second := List.map_append

section Recorded

variable {Result : Type} {hashes : Hashing Result Hash} {helper : RangeQueryResultsHelper Result Hash}

/-- A tree with a leaf is not empty. -/
theorem isEmpty_update (mt : MerkleTree Hash) (hash : Hash) : (mt.update hashes hash).isEmpty = false := by
  have filled : (addHash hashes mt.maxDegree hash mt.levels).length ≠ 1 ∨
      (addHash hashes mt.maxDegree hash mt.levels).getLast?.getD [] ≠ [] := by
    cases mt.levels with
    | nil => simp [addHash]
    | cons level higher =>
      rw [addHash]
      split
      · cases higher <;> simp
      · left
        cases higher <;> grind [addHash]
  rw [isEmpty, decide_eq_false_iff_not]
  simpa [maxLevel, maxLevelHashes, update, imp_iff_not_or] using filled

/-- The results are all pending until the first of them are hashed. -/
theorem pending_of_isEmpty (fresh : helper.pendingResults = []) (results : List Result)
    (unhashed : ∀ mt, (results.foldl (addResult hashes) helper).mt = some mt → mt.isEmpty = true) :
    (results.foldl (addResult hashes) helper).pendingResults = results := by
  induction results using List.reverseRecOn with
  | nil => exact fresh
  | append_singleton results result ih =>
    rw [List.foldl_append, List.foldl_cons, List.foldl_nil] at unhashed ⊢
    generalize results.foldl (addResult hashes) helper = before at *
    obtain ⟨pending, mt, maxDegree⟩ := before
    cases mt with
    | none => exact congrArg (· ++ [result]) (ih fun _ found => (by cases found))
    | some mt =>
      by_cases exceeds : maxDegree < UInt32.ofNat (pending ++ [result]).length
      · simp only [addResult, exceeds, if_true] at unhashed
        cases (isEmpty_update mt _).symm.trans (unhashed _ rfl)
      · simp only [addResult, exceeds, if_false] at unhashed ⊢
        exact congrArg (· ++ [result]) (ih unhashed)

theorem foldl_addResult_none (pending results : List Result) (maxDegree : UInt32) :
    results.foldl (addResult hashes) ⟨pending, none, maxDegree⟩ = ⟨pending ++ results, none, maxDegree⟩ := by
  induction results generalizing pending with
  | nil => rw [List.append_nil, List.foldl_nil]
  | cons result results ih => simp [addResult, ih]

variable (hashes) in
/-- The record has all results, or their summary. -/
theorem done_cases (created : newRangeQueryResultsHelper enableHashing maxDegree = some helper)
    (results : List Result) :
    done hashes (results.foldl (addResult hashes) helper) = (results, none) ∨
    (done hashes (results.foldl (addResult hashes) helper)).2 = summarise hashes maxDegree results ∧
    (summarise hashes maxDegree results).isSome := by
  cases enableHashing with
  | false =>
    left
    rw [← Option.some.inj created, foldl_addResult_none]
    rfl
  | true =>
    have summary : (done hashes (results.foldl (addResult hashes) helper)).2 = summarise hashes maxDegree results := by
      rw [summarise, created]
    obtain ⟨empty, _, rfl⟩ := Option.map_eq_some_iff.mp created
    rw [← summary]
    by_cases unhashed : ∀ mt, (results.foldl (addResult hashes) ⟨[], some empty, maxDegree⟩).mt = some mt →
        mt.isEmpty = true
    · left
      rw [done, pending_of_isEmpty rfl results unhashed]
      cases found : (results.foldl (addResult hashes) ⟨[], some empty, maxDegree⟩).mt with
      | none => rfl
      | some mt => simp [unhashed mt found]
    · right
      push Not at unhashed
      obtain ⟨mt, found, filled⟩ := unhashed
      refine ⟨rfl, ?_⟩
      rw [done, found]
      grind

end Recorded

theorem validateResults_newKVRead (reads : List (String × Height)) (results : List VersionedKV) :
    validateResults (reads.map fun read => newKVRead read.1 (some read.2)) results = .ok true ↔
      versions results = reads := by
  induction reads generalizing results with
  | nil => cases results <;> simp [validateResults, versions]
  | cons read reads ih =>
    obtain ⟨key, version⟩ := read
    cases results with
    | nil => simp [validateResults, versions]
    | cons result results =>
      rw [List.map_cons, validateResults, versions, List.map_cons, ← versions, List.cons.injEq, Prod.mk.injEq, ← ih]
      by_cases sameKey : result.1 = key <;> by_cases sameVersion : result.2.version = version <;>
        simp [newKVRead, sameKey, sameVersion]

theorem summarise_of_le_one (degree : 2 ≤ maxDegree)
    (few : reads.length ≤ 1) : summarise hashing maxDegree reads = none := by
  have large : ¬ maxDegree < 2 := UInt32.not_lt.mpr degree
  have larger : ¬ maxDegree < 1 := fun less => large (UInt32.lt_trans less (by decide))
  match reads with
  | [] => simp [summarise, newRangeQueryResultsHelper, newMerkleTree, large, done, isEmpty,
      maxLevel, maxLevelHashes]
  | [read] => simp [summarise, newRangeQueryResultsHelper, newMerkleTree, large, larger, addResult, done,
      isEmpty, maxLevel, maxLevelHashes]

/-- A record is accepted if the results are the same, and for a single result or without hashing only then. -/
theorem validateRangeQuery_recorded [DecidableEq Hash] (degree : 2 ≤ maxDegree)
    {helper : RangeQueryResultsHelper (String × Height) Hash}
    (created : newRangeQueryResultsHelper enableHashing maxDegree = some helper) {db : CommonStorageDB} {ns : String}
    {updates : UpdateBatch} {itr : SimulatorItr Hash} (reads : List (String × Height))
    (added : itr.rangeQueryResultsHelper = reads.foldl (addResult hashing) helper) (results : List VersionedKV)
    (listed : combinedIterator db updates ns itr.rangeQueryInfo.startKey itr.rangeQueryInfo.endKey
    (!itr.rangeQueryInfo.itrExhausted) = results)
    (decided : versions results = reads ∨ reads.length ≤ 1 ∨ enableHashing = false) :
    validateRangeQuery hashing db ns (itr.recorded hashing) updates = .ok true ↔ versions results = reads := by
  subst listed
  rw [recorded, added, validateRangeQuery]
  rcases done_cases hashing created reads with raw | ⟨summary, made⟩
  · rw [raw]
    cases reads with
    | nil => exact validateResults_newKVRead [] _
    | cons read reads => exact validateResults_newKVRead (read :: reads) _
  · obtain ⟨inMerkle, summarised⟩ := Option.isSome_iff_exists.mp made
    rw [summarised] at summary
    have same : versions (combinedIterator db updates ns itr.rangeQueryInfo.startKey itr.rangeQueryInfo.endKey
        (!itr.rangeQueryInfo.itrExhausted)) = reads := by
      rcases decided with same | few | raw
      · exact same
      · cases (summarise_of_le_one degree few).symm.trans summarised
      · subst raw
        rw [← Option.some.inj created, foldl_addResult_none] at summary
        cases summary
    generalize done hashing (reads.foldl (addResult hashing) helper) = pair at summary
    obtain ⟨_, _⟩ := pair
    subst summary same
    exact iff_of_true (validateHashes_self summarised) rfl

section Scan

variable (db : CommonStorageDB) (ns startKey endKey : String)

theorem combinedRange_newUpdateBatch :
    combinedRange db .newUpdateBatch ns startKey endKey = db.getStateRangeScanIterator ns startKey endKey := by
  refine (ascending_combinedRange ..).eq_of_mem_iff (ascending_dbItr ..) fun entry => ?_
  rw [mem_combinedRange, mem_getStateRangeScanIterator, overlay_newUpdateBatch]

variable {db ns startKey endKey} {index : Nat} {item : VersionedKV}
  (found : (db.getStateRangeScanIterator ns startKey endKey)[index]? = some item)

include found

/-- A scan that ends at one of the results lists those before it. -/
theorem scan_to_result (named : item.1 ≠ "") :
    db.getStateRangeScanIterator ns startKey item.1 = (db.getStateRangeScanIterator ns startKey endKey).take index := by
  have ascending := ascending_dbItr db ns startKey endKey
  refine (ascending_dbItr ..).eq_of_mem_iff (ascending.sublist (List.take_sublist _ _)) fun entry => ?_
  rw [ascending.mem_take_iff found, mem_getStateRangeScanIterator, mem_getStateRangeScanIterator]
  have last := ((mem_getStateRangeScanIterator ..).mp (List.mem_of_getElem? found)).2.2
  have below (less : entry.1 < item.1) : endKey = "" ∨ entry.1 < endKey := last.imp_right less.trans
  tauto

/-- The record up to one of the results lists it last. -/
theorem versions_to_result (named : item.1 ≠ "") :
    versions (combinedIterator db .newUpdateBatch ns startKey item.1 true) =
      versions ((db.getStateRangeScanIterator ns startKey endKey).take (index + 1)) := by
  have stored := ((mem_getStateRangeScanIterator ..).mp (List.mem_of_getElem? found)).1
  rw [combinedIterator_eq, combinedRange_newUpdateBatch, scan_to_result found named, overlay_newUpdateBatch, stored,
    List.take_add_one, found, versions_append, versions_append]
  rfl

omit found in
/-- Without an end key the whole rest of the namespace is listed, and then the empty key. -/
theorem versions_open_eq_nil_iff : versions (combinedIterator db .newUpdateBatch ns startKey "" true) = [] ↔
      ∀ key, startKey ≤ key ∨ key = "" → db.getState ns key = none := by
  have listed := mem_combinedIterator db .newUpdateBatch ns startKey "" true
  simp only [overlay_newUpdateBatch, true_or, and_true, true_and] at listed
  rw [versions, List.map_eq_nil_iff, List.eq_nil_iff_forall_not_mem]
  constructor
  · intro none key inRange
    cases stored : db.getState ns key with
    | none => rfl
    | some vv =>
      obtain ⟨metadata, member⟩ := (listed key vv.value vv.version).mpr ⟨⟨vv.metadata, stored⟩, inRange⟩
      exact absurd member (none _)
  · rintro none ⟨key, value, metadata, version⟩ member
    obtain ⟨⟨_, stored⟩, inRange⟩ := (listed key value version).mp ⟨metadata, member⟩
    exact nomatch (none key inRange).symm.trans stored

omit found in
/-- The empty key is listed twice if it is the end key of its own scan. -/
theorem versions_empty_key_ne (stored : db.getState ns "" = some vv) (few : reads.length ≤ 1) :
    versions (combinedIterator db .newUpdateBatch ns "" "" true) ≠ reads := by
  rintro rfl
  have member : ("", vv) ∈ combinedRange db .newUpdateBatch ns "" "" :=
    (mem_combinedRange ..).mpr ⟨(overlay_newUpdateBatch ..).trans stored, le_rfl, .inl rfl⟩
  have positive := List.length_pos_of_mem member
  rw [combinedIterator_eq, overlay_newUpdateBatch, stored, versions, List.length_map, List.length_append] at few
  simp only [if_true, Option.map_some, Option.toList_some, List.length_singleton] at few
  omega

end Scan

/-- The end key after some calls of `Next`. -/
def endKeyAfter (endKey : String) (results : List VersionedKV) : Nat → String
  | 0 => ""
  | calls + 1 => ((results[calls]?).map Prod.fst).getD endKey

/-- After some calls the iterator has recorded the results that they returned. -/
theorem iterate_next (ns startKey endKey : String) (results : List VersionedKV)
    (helper : RangeQueryResultsHelper (String × Height) Hash) (calls : Nat) :
    (fun itr => (next hashing itr).2)^[calls]
        ⟨⟨ns, startKey, endKey, results, 0⟩, ⟨startKey, "", false, .empty⟩, helper⟩ =
      ⟨⟨ns, startKey, endKey, results, calls⟩,
        ⟨startKey, endKeyAfter endKey results calls, decide (results.length < calls), .empty⟩,
    (versions (results.take calls)).foldl (addResult hashing) helper⟩ := by
  induction calls with
  | zero => rfl
  | succ calls ih =>
    rw [Function.iterate_succ_apply', ih, List.take_add_one, versions_append, List.foldl_append]
    cases found : results[calls]? with
    | none =>
      have past := List.getElem?_eq_none_iff.mp found
      simp [next, updateRangeQueryInfo, endKeyAfter, found, versions,
        Nat.lt_succ_iff.mpr past]
    | some item =>
      have inside := (List.getElem?_eq_some_iff.mp found).1
      have before : ¬ results.length < calls := by omega
      have after : ¬ results.length < calls + 1 := by omega
      simp only [next, updateRangeQueryInfo, endKeyAfter, found, before, after]
      rfl

/-- The calls do not reach a limit that cuts the results. -/
def Covered (limit : Int32) (results : List VersionedKV) (calls : Nat) : Prop :=
  0 < limit → calls ≤ limit.toInt.toNat ∨ results.length ≤ limit.toInt.toNat

/-- A limit that is not reached leaves the record as it is. -/
theorem record_limited {limit : Int32} {results : List VersionedKV} {calls : Nat}
    (covered : Covered limit results calls) (endKey : String) :
    endKeyAfter endKey (limited limit results) calls = endKeyAfter endKey results calls ∧
      ((limited limit results).length < calls ↔ results.length < calls) ∧
      (limited limit results).take calls = results.take calls := by
  rw [limited]
  split
  next positive =>
    rcases covered positive with few | all
    · refine ⟨?_, by rw [List.length_take]; omega, by rw [List.take_take, Nat.min_eq_left few]⟩
      cases calls with
      | zero => rfl
      | succ calls => rw [endKeyAfter, endKeyAfter, List.getElem?_take_of_lt few]
    · rw [List.take_of_length_le all]
      exact ⟨rfl, Iff.rfl, rfl⟩
  · exact ⟨rfl, Iff.rfl, rfl⟩

theorem empty_lt {key : String} (named : key ≠ "") : "" < key :=
  lt_of_le_of_ne (not_lt.mp (not_lt_empty key)) (Ne.symm named)

section Accepted

variable (db : CommonStorageDB) (ns startKey endKey : String) (calls : Nat)

/-- The condition under which the results up to a number of calls are listed again. -/
def Repeatable : Prop :=
  (calls = 0 → ∀ key, startKey ≤ key ∨ key = "" → db.getState ns key = none) ∧
    (calls = 1 → startKey = "" → db.getState ns "" = none)

/-- The results that the validator compares. -/
def compared : List VersionedKV :=
  combinedIterator db .newUpdateBatch ns startKey
    (endKeyAfter endKey (db.getStateRangeScanIterator ns startKey endKey) calls)
    (!decide ((db.getStateRangeScanIterator ns startKey endKey).length < calls))

/-- The results that the simulator saw. -/
def returned : List VersionedKV := (db.getStateRangeScanIterator ns startKey endKey).take calls

variable {db ns startKey endKey calls}

variable (endKey) in
theorem mem_scan_empty_key (stored : db.getState ns "" = some vv) :
    ("", vv) ∈ db.getStateRangeScanIterator ns "" endKey :=
  (mem_getStateRangeScanIterator ..).mpr ⟨stored, le_rfl, (eq_or_ne endKey "").imp_right empty_lt⟩

theorem compared_exhausted (past : (db.getStateRangeScanIterator ns startKey endKey).length ≤ calls) :
    versions (compared db ns startKey endKey (calls + 1)) = versions (returned db ns startKey endKey (calls + 1)) ∧
      Repeatable db ns startKey (calls + 1) := by
  refine ⟨?_, nofun, fun one empty => ?_⟩
  · rw [compared, endKeyAfter, List.getElem?_eq_none past, decide_eq_true (Nat.lt_succ_iff.mpr past),
      combinedIterator_eq, returned, List.take_of_length_le (by omega)]
    simp [combinedRange_newUpdateBatch]
  · subst empty
    cases stored : db.getState ns "" with
    | none => rfl
    | some vv =>
      have positive := List.length_pos_of_mem (mem_scan_empty_key endKey stored)
      omega

section Result

variable {item : VersionedKV} (found : (db.getStateRangeScanIterator ns startKey endKey)[calls]? = some item)

include found

theorem compared_to_result :
    compared db ns startKey endKey (calls + 1) = combinedIterator db .newUpdateBatch ns startKey item.1 true := by
  have inside := (List.getElem?_eq_some_iff.mp found).1
  rw [compared, endKeyAfter, found, decide_eq_false (by omega)]
  rfl

theorem repeatable_of_named (named : item.1 ≠ "") : Repeatable db ns startKey (calls + 1) := by
  refine ⟨nofun, fun one empty => ?_⟩
  subst empty
  obtain rfl : calls = 0 := by omega
  cases stored : db.getState ns "" with
  | none => rfl
  | some vv =>
    have ascending := ascending_dbItr db ns "" endKey
    exact nomatch (ascending.mem_take_iff found _).mpr ⟨mem_scan_empty_key endKey stored, empty_lt named⟩

/-- Only the first result of a scan from the empty key on can be the empty key. -/
theorem first_of_empty_key (unnamed : item.1 = "") : calls = 0 ∧ startKey = "" ∧ db.getState ns "" = some item.2 := by
  have ascending := ascending_dbItr db ns startKey endKey
  obtain ⟨stored, started, _⟩ := (mem_getStateRangeScanIterator ..).mp (List.mem_of_getElem? found)
  rw [unnamed] at stored started
  refine ⟨?_, le_antisymm started (not_lt.mp (not_lt_empty startKey)), stored⟩
  have none : (db.getStateRangeScanIterator ns startKey endKey).take calls = [] := by
    refine List.eq_nil_iff_forall_not_mem.mpr fun other member => not_lt_empty other.1 ?_
    exact unnamed ▸ ((ascending.mem_take_iff found other).mp member).2
  have inside := (List.getElem?_eq_some_iff.mp found).1
  rcases List.take_eq_nil_iff.mp none with zero | empty
  · exact zero
  · exact absurd inside (by simp [empty])

end Result

/-- The compared results are those that were seen exactly if the query can be repeated. A query that cannot has at most
one result. -/
theorem compared_eq_returned_iff :
    (versions (compared db ns startKey endKey calls) = versions (returned db ns startKey endKey calls) ∨ calls ≤ 1) ∧
    (versions (compared db ns startKey endKey calls) = versions (returned db ns startKey endKey calls) ↔
        Repeatable db ns startKey calls) := by
  cases calls with
  | zero =>
    refine ⟨.inr (Nat.zero_le 1), ?_⟩
    refine versions_open_eq_nil_iff.trans ?_
    simp [Repeatable]
  | succ calls =>
    cases found : (db.getStateRangeScanIterator ns startKey endKey)[calls]? with
    | none =>
      obtain ⟨same, repeatable⟩ := compared_exhausted (List.getElem?_eq_none_iff.mp found)
      exact ⟨.inl same, iff_of_true same repeatable⟩
    | some item =>
      by_cases unnamed : item.1 = ""
      · obtain ⟨rfl, rfl, stored⟩ := first_of_empty_key found unnamed
        refine ⟨.inr le_rfl, iff_of_false ?_ fun repeatable => ?_⟩
        · rw [compared_to_result found, unnamed]
          exact versions_empty_key_ne stored (by simp [versions, returned])
        · exact nomatch (repeatable.2 rfl rfl).symm.trans stored
      · have same := compared_to_result found ▸ versions_to_result found unnamed
        exact ⟨.inl same, iff_of_true same (repeatable_of_named found unnamed)⟩

end Accepted

/-- A recorded range query is accepted against the state it was run on, unless no result was asked for and the range
is not empty to the end of the namespace, or the only result asked for was the empty key. A query that was asked for
more than a limit which cuts its results is not accepted, at least if its results are not hashed. -/
theorem unchanged_range_accepted_iff [DecidableEq Hash] (db : CommonStorageDB) (ns startKey endKey : String)
    {metadata : Option (GoMap OptionValue)} {limit : Int32} (options : requestedLimit metadata = some limit)
    (enableHashing : Bool) {maxDegree : UInt32} (degree : 2 ≤ maxDegree) (calls : Nat) :
    ∃ itr, newResultsItr ns startKey endKey metadata db enableHashing maxDegree = some itr ∧
      (Covered limit (db.getStateRangeScanIterator ns startKey endKey) calls ∨ enableHashing = false →
        (validateRangeQuery hashing db ns
            (((fun itr => (next hashing itr).2)^[calls] itr).recorded hashing) .newUpdateBatch = .ok true ↔
          Covered limit (db.getStateRangeScanIterator ns startKey endKey) calls ∧
            Repeatable db ns startKey calls)) := by
  have large : ¬ maxDegree < 2 := UInt32.not_lt.mpr degree
  obtain ⟨helper, created⟩ : ∃ helper : RangeQueryResultsHelper (String × Height) Hash,
      newRangeQueryResultsHelper enableHashing maxDegree = some helper := by
    cases enableHashing <;> simp [newRangeQueryResultsHelper, newMerkleTree, large]
  refine ⟨_, by rw [newResultsItr, options, created]; rfl, fun allowed => ?_⟩
  rw [iterate_next]
  by_cases covered : Covered limit (db.getStateRangeScanIterator ns startKey endKey) calls
  · obtain ⟨decided, exact⟩ := @compared_eq_returned_iff db ns startKey endKey calls
    obtain ⟨lastKey, length, taken⟩ := record_limited covered endKey
    rw [and_iff_right covered, ← exact]
    refine validateRangeQuery_recorded degree created _ (by rw [taken]; rfl) _ ?_ (decided.imp_right fun few => .inl ?_)
    · rw [compared, lastKey, decide_eq_decide.mpr length]
    · rw [versions, List.length_map, returned, List.length_take]
      omega
  · -- The record ends at the end key of the query although the scanner has more results.
    refine iff_of_false (fun accepted => ?_) fun both => covered both.1
    rw [Covered, Classical.not_imp, not_or, not_le, not_le] at covered
    obtain ⟨positive, beyond, cut⟩ := covered
    have unhashed := allowed.resolve_left fun both => by
      have := both positive
      omega
    rw [limited, if_pos positive] at accepted
    have same := (validateRangeQuery_recorded degree created _ rfl _ rfl (.inr (.inr unhashed))).mp accepted
    have ended : endKeyAfter endKey ((db.getStateRangeScanIterator ns startKey endKey).take limit.toInt.toNat) calls =
        endKey := by
      cases calls with
      | zero => omega
      | succ calls =>
        rw [endKeyAfter, List.getElem?_eq_none (by rw [List.length_take]; omega)]
        rfl
    have lengths := congrArg List.length same
    simp only [ended, versions, List.length_map, List.length_take] at lengths
    rw [decide_eq_true (by omega), combinedIterator_eq, combinedRange_newUpdateBatch] at lengths
    simp only [Bool.not_true, Bool.false_eq_true, if_false, List.append_nil] at lengths
    omega

/-- A state with two keys. -/
def scannedKeys : CommonStorageDB :=
  .applyPrivacyAwareUpdates ⟨(UpdateBatch.newUpdateBatch.update "cc" "a" ⟨some [1], none, ⟨1, 0⟩⟩).update "cc" "b"
    ⟨some [2], none, ⟨1, 1⟩⟩, .newHashedUpdateBatch⟩ .newCommonStorageDB

def limitTwo : GoMap OptionValue := AList.insert "limit" (.int32 2) ∅

/-- With a limit of two both keys are returned and then nothing. -/
theorem unchanged_range_accepted_exhausted : requestedLimit (some limitTwo) = some 2 ∧
    ∃ itr, newResultsItr "cc" "a" "c" (some limitTwo) scannedKeys true 2 = some itr ∧
      validateRangeQuery trees scannedKeys "cc" (((fun itr => (next trees itr).2)^[3] itr).recorded trees)
        .newUpdateBatch = .ok true := by
  obtain ⟨itr, created, accepted⟩ := @unchanged_range_accepted_iff _ trees _ scannedKeys "cc" "a" "c"
    (some limitTwo) 2 rfl true 2 (by decide) 3
  have covered : Covered 2 (scannedKeys.getStateRangeScanIterator "cc" "a" "c") 3 := fun _ => .inr (by decide)
  exact ⟨rfl, itr, created, (accepted (.inl covered)).mpr ⟨covered, nofun, nofun⟩⟩

/-- The chaincode opens an iterator over two keys and asks for no result. -/
theorem unasked_range_rejected : (newResultsItr "cc" "a" "c" none scannedKeys true 2).map (fun itr =>
      validateRangeQuery trees scannedKeys "cc" (itr.recorded trees) .newUpdateBatch) =
        some (.ok false) := by
  rfl

end Pobl.Txmgmt
