/-
This file compares the validation of a block with the validation and commit of its transactions one after the other.
The database that is committed to step by step holds what the updates of the block leave over the first database.
-/

import Pobl.Proof.Mvcc.Builder
import Pobl.Proof.Mvcc.NilValue
import Pobl.Proof.Mvcc.Overlay

namespace Pobl.Txmgmt

open Option
open Library Library.Wire Peer PubAndHashUpdates CommonStorageDB VersionedValue UpdateBatch RWSetBuilder

variable {Hash : Type} [DecidableEq Hash]

/-- Each transaction is a block of its own and is committed before the next one is validated. -/
def commitOneByOne (hashing : Hashing (String × Height) Hash) (num : UInt64) (doMVCCValidation : Bool) :
    List (Transaction Hash) → CommonStorageDB → Except ValidatorPanic (List TxValidationCode × CommonStorageDB)
  | [], db => .ok ([], db)
  | tx :: txs, db =>
    match validateAndPrepareBatch hashing db ⟨num, [tx]⟩ doMVCCValidation with
    | .error stop => .error stop
    | .ok (codes, updates) =>
      (commitOneByOne hashing num doMVCCValidation txs (db.applyPrivacyAwareUpdates updates)).map fun rest =>
        (codes ++ rest.1, rest.2)

/-- The metadata of the updates is what the database gives back, and a deleted key has none. -/
def Proper (updates : UpdateBatch) : Prop :=
  ∀ ns key vv, updates.get ns key = some vv → vv.metadata ≠ some [] ∧ (vv.value = none → vv.metadata = none)

theorem proper_newUpdateBatch : Proper .newUpdateBatch := by
  intro ns key vv found
  simp at found

theorem decodeValue_encodeValue {vv : VersionedValue} (present : vv.value ≠ none) (proper : vv.metadata ≠ some []) :
    decodeValue (encodeValue vv) = vv := by
  obtain ⟨value, metadata, version⟩ := vv
  obtain ⟨bytes, rfl⟩ := ne_none_iff_exists'.mp present
  cases metadata with
  | none => rfl
  | some metadata =>
    have filled : metadata ≠ [] := by simpa using proper
    simp [decodeValue, encodeValue, filled]

/-- The state after a commit is the overlay of its updates. -/
theorem getState_applyPrivacyAwareUpdates {db : CommonStorageDB} {updates : PubAndHashUpdates}
    (proper : Proper updates.pubUpdates) (ns key : String) :
    (db.applyPrivacyAwareUpdates updates).getState ns key = overlay db updates.pubUpdates ns key := by
  rw [getState, applyPrivacyAwareUpdates, find_applyUpdates, overlay]
  cases found : updates.pubUpdates.get ns key with
  | none => rfl
  | some vv =>
    rw [map_some, getD_some, stored]
    simp only [isDelete, isNone_iff_eq_none]
    by_cases deleted : vv.value = none
    · simp only [deleted, if_true, map_none]
    · simp only [deleted, if_false, map_some, decodeValue_encodeValue deleted (proper ns key vv found).1]

/-- The second database holds what the updates leave over the first. -/
def Simulates (db : CommonStorageDB) (updates : UpdateBatch) (db' : CommonStorageDB) : Prop :=
  ∀ ns key, db'.getState ns key = overlay db updates ns key

variable {db db' : CommonStorageDB} {updates : PubAndHashUpdates} (simulates : Simulates db updates.pubUpdates db')
  (proper : Proper updates.pubUpdates)

section Validation

variable {hashing : Hashing (String × Height) Hash}

include simulates

theorem validateKVRead_eq {ns : String} {read : KVRead} (filled : read.value ≠ some []) :
    validateKVRead db ns read updates.pubUpdates = validateKVRead db' ns read .newUpdateBatch := by
  rw [validateKVRead, validateKVRead, get_newUpdateBatch]
  simp only [simulates ns read.key, overlay]
  cases updates.pubUpdates.get ns read.key with
  | none => rfl
  | some vv =>
    simp only [isDelete, isNone_iff_eq_none]
    by_cases deleted : vv.value = none
    · simp only [deleted, if_true, getD_none]
      cases value : read.value with
      | none => rfl
      | some bytes =>
        rw [value] at filled
        simpa [eq_comm] using filled
    · simp only [deleted, if_false]

theorem validateRangeQueries_eq (ns : String) (rangeQueriesInfo : List (RangeQueryInfo Hash)) :
    validateRangeQueries hashing db ns updates.pubUpdates rangeQueriesInfo =
      validateRangeQueries hashing db' ns .newUpdateBatch rangeQueriesInfo := by
  have same : ∀ key, overlay db updates.pubUpdates ns key = overlay db' .newUpdateBatch ns key := by
    intro key
    rw [overlay_newUpdateBatch, simulates]
  have one (rqi : RangeQueryInfo Hash) : validateRangeQuery hashing db ns rqi updates.pubUpdates =
      validateRangeQuery hashing db' ns rqi .newUpdateBatch := by
    rw [validateRangeQuery, validateRangeQuery, combinedIterator_congr same]
  induction rangeQueriesInfo with
  | nil => rfl
  | cons rqi rangeQueriesInfo ih => rw [validateRangeQueries, validateRangeQueries, one, ih]

theorem validateNs_eq {nsRWSet : NsRwSet Hash} (plain : nsRWSet.Plain) :
    validateNs hashing db updates nsRWSet = validateNs hashing db' .newPubAndHashUpdates nsRWSet := by
  have reads : validateReadSet db nsRWSet.nameSpace nsRWSet.kvRwSet.reads updates.pubUpdates =
      validateReadSet db' nsRWSet.nameSpace nsRWSet.kvRwSet.reads .newUpdateBatch := by
    rw [validateReadSet, validateReadSet, Bool.eq_iff_iff, List.all_eq_true, List.all_eq_true]
    refine forall₂_congr fun read recorded => ?_
    rw [validateKVRead_eq simulates (plain.readValues read recorded)]
  rw [validateNs, validateNs, plain.noCollections, reads, validateRangeQueries_eq simulates]
  rfl

theorem validateEndorserTX_eq {rwset : TxRwSet Hash} (plain : rwset.Plain) (doMVCCValidation : Bool) :
    validateEndorserTX hashing db rwset doMVCCValidation updates =
      validateEndorserTX hashing db' rwset doMVCCValidation .newPubAndHashUpdates := by
  have all : ∀ nsRwSets : List (NsRwSet Hash), (∀ nsRWSet ∈ nsRwSets, nsRWSet.Plain) →
      validateTx hashing db updates nsRwSets = validateTx hashing db' .newPubAndHashUpdates nsRwSets := by
    intro nsRwSets plain
    induction nsRwSets with
    | nil => rfl
    | cons first rest ih =>
      obtain ⟨plainFirst, plainRest⟩ := List.forall_mem_cons.mp plain
      rw [validateTx, validateTx, validateNs_eq simulates plainFirst, ih plainRest]
  rw [validateEndorserTX, validateEndorserTX, all rwset.nsRwSets plain.each]

end Validation

section Writes

omit [DecidableEq Hash]

variable {ck : CompositeKey} {rwset : TxRwSet Hash} {keyops : KeyOps}

include simulates proper in
theorem retrieveLatestMetadata_eq (coll : ck.coll = "") :
    retrieveLatestMetadata ck updates db = retrieveLatestMetadata ck .newPubAndHashUpdates db' := by
  rw [retrieveLatestMetadata, retrieveLatestMetadata, if_pos coll, if_pos coll, newPubAndHashUpdates]
  simp only [get_newUpdateBatch, getStateMetadata_eq, simulates ck.ns ck.key, overlay]
  cases found : updates.pubUpdates.get ck.ns ck.key with
  | none => rfl
  | some vv =>
    simp only [isDelete, isNone_iff_eq_none]
    by_cases deleted : vv.value = none
    · simp only [deleted, if_true, (proper ck.ns ck.key vv found).2 deleted, bind_none]
    · simp only [deleted, if_false, bind_some]

/-- The latest metadata is never empty. -/
theorem retrieveLatestMetadata_ne_nil (proper : Proper updates.pubUpdates) (coll : ck.coll = "") :
    retrieveLatestMetadata ck updates db ≠ some [] := by
  rw [retrieveLatestMetadata, if_pos coll]
  cases found : updates.pubUpdates.get ck.ns ck.key with
  | some vv => exact (proper ck.ns ck.key vv found).1
  | none =>
    simp only [getStateMetadata_eq, getState]
    cases find db.state ck.ns ck.key with
    | none => exact fun same => by cases same
    | some stored =>
      simp only [map_some, bind_some, decodeValue]
      split
      · exact fun same => by cases same
      next filled => simpa using filled

include simulates proper in
theorem prepareKeyOps_eq (settled : TxOps.Settled ck keyops) :
    prepareKeyOps updates db ck keyops = prepareKeyOps .newPubAndHashUpdates db' ck keyops := by
  obtain ⟨coll, settled, _⟩ := settled
  rw [KeyOps.settled, Bool.or_eq_true] at settled
  rw [prepareKeyOps, prepareKeyOps]
  by_cases complete : (keyops.isDelete || keyops.isUpsertAndMetadataUpdate) = true
  · simp only [complete, if_true]
  · simp only [complete, settled.resolve_left complete, if_true, retrieveLatestMetadata_eq simulates proper coll]

include simulates proper in
theorem prepareTxOps_eq (plain : rwset.Plain) :
    prepareTxOps rwset updates db = prepareTxOps rwset .newPubAndHashUpdates db' := by
  refine List.filterMap_congr fun entry member => ?_
  have settled := TxOps.settled_applyTxRwset plain (AList.mem_lookup_iff.mpr member)
  rw [prepareKeyOps_eq simulates proper settled]

/-- The prepared operations have no empty metadata. -/
theorem mem_prepareTxOps (proper : Proper updates.pubUpdates) (plain : rwset.Plain) {op : CompositeKey × KeyOps}
    (member : op ∈ prepareTxOps rwset updates db) : op.2.metadata ≠ some [] := by
  obtain ⟨entry, listed, prepared⟩ := List.mem_filterMap.mp member
  obtain ⟨keyops, prepared, rfl⟩ := map_eq_some_iff.mp prepared
  obtain ⟨coll, settled, filled⟩ := TxOps.settled_applyTxRwset plain (AList.mem_lookup_iff.mpr listed)
  rw [KeyOps.settled, Bool.or_eq_true] at settled
  rw [prepareKeyOps] at prepared
  by_cases complete : (entry.2.isDelete || entry.2.isUpsertAndMetadataUpdate) = true
  · rw [if_pos complete] at prepared
    cases prepared
    exact filled
  · rw [if_neg complete, if_pos (settled.resolve_left complete)] at prepared
    cases prepared
    exact retrieveLatestMetadata_ne_nil proper coll

/-- The updates after the operations, for two starts: the same operation decides a key, or neither start is changed. -/
theorem get_putAll_cases (txHeight : Height) (txops : List (CompositeKey × KeyOps))
    (updates updates' : PubAndHashUpdates) (ns key : String) :
    (∃ op ∈ txops, (updates.putAll txHeight txops).pubUpdates.get ns key = some (op.2.written txHeight) ∧
    (updates'.putAll txHeight txops).pubUpdates.get ns key = some (op.2.written txHeight)) ∨
    (updates.putAll txHeight txops).pubUpdates.get ns key = updates.pubUpdates.get ns key ∧
    (updates'.putAll txHeight txops).pubUpdates.get ns key = updates'.pubUpdates.get ns key := by
  rw [get_putAll, get_putAll]
  cases last : txops.findRev? fun op => op.1 = ⟨ns, "", key⟩ with
  | none => exact .inr ⟨rfl, rfl⟩
  | some op =>
    rw [List.findRev?_eq_find?_reverse] at last
    exact .inl ⟨op, List.mem_reverse.mp (List.mem_of_find?_eq_some last), rfl, rfl⟩

theorem proper_written (txHeight : Height) (filled : keyops.metadata ≠ some [])
    (present : keyops.hasNilValue = false) :
    (keyops.written txHeight).metadata ≠ some [] ∧
    ((keyops.written txHeight).value = none → (keyops.written txHeight).metadata = none) := by
  rw [KeyOps.written]
  split
  · exact ⟨fun same => (by cases same), fun _ => rfl⟩
  next kept =>
    refine ⟨filled, fun absent => ?_⟩
    have value : keyops.value = none := absent
    simp [KeyOps.hasNilValue, kept, value] at present

include simulates proper in
/-- A write set keeps the simulation. -/
theorem applyWriteSet_simulates (plain : rwset.Plain) (txHeight : Height) :
    (updates.applyWriteSet rwset txHeight db = .error .nilValue ∧
        newPubAndHashUpdates.applyWriteSet rwset txHeight db' = .error .nilValue) ∨
      ∃ next own, updates.applyWriteSet rwset txHeight db = .ok next ∧
        newPubAndHashUpdates.applyWriteSet rwset txHeight db' = .ok own ∧
        Proper next.pubUpdates ∧ Simulates db next.pubUpdates (db'.applyPrivacyAwareUpdates own) := by
  rw [applyWriteSet, applyWriteSet, ← prepareTxOps_eq simulates proper plain,
    applyTxOps_eq, applyTxOps_eq]
  cases nil : (prepareTxOps rwset updates db).any fun op => op.2.hasNilValue with
  | true => exact .inl ⟨rfl, rfl⟩
  | false =>
    right
    refine ⟨_, _, rfl, rfl, ?_⟩
    have present := List.any_eq_false.mp nil
    have written (op) (member : op ∈ prepareTxOps rwset updates db) :=
      proper_written txHeight (mem_prepareTxOps proper plain member) (by simpa using present op member)
    have folded := get_putAll_cases txHeight (prepareTxOps rwset updates db) updates .newPubAndHashUpdates
    generalize updates.putAll txHeight _ = next at folded ⊢
    generalize newPubAndHashUpdates.putAll txHeight _ = own at folded ⊢
    have properOwn : Proper own.pubUpdates := by
      intro ns key vv found
      rcases folded ns key with ⟨op, member, _, own⟩ | ⟨_, own⟩
      · rw [own] at found
        cases found
        exact written op member
      · rw [own] at found
        simp [newPubAndHashUpdates] at found
    refine ⟨?_, ?_⟩
    · intro ns key vv found
      rcases folded ns key with ⟨op, member, next, _⟩ | ⟨next, _⟩
      · rw [next] at found
        cases found
        exact written op member
      · rw [next] at found
        exact proper ns key vv found
    · intro ns key
      rw [getState_applyPrivacyAwareUpdates properOwn, overlay, overlay]
      rcases folded ns key with ⟨op, member, next, own⟩ | ⟨next, own⟩
      · rw [next, own]
      · rw [next, own, newPubAndHashUpdates, get_newUpdateBatch]
        exact simulates ns key

end Writes

section Blocks

variable (hashing : Hashing (String × Height) Hash) (num : UInt64) (doMVCCValidation : Bool)

include simulates proper in
/-- One turn of the loop keeps the simulation and gives the same code. -/
theorem validateAndPrepareTx_simulates {tx : Transaction Hash} (plain : tx.rwSet.Plain) :
    (∃ stop, validateAndPrepareTx hashing db num doMVCCValidation updates tx = .error stop ∧
        validateAndPrepareTx hashing db' num doMVCCValidation .newPubAndHashUpdates tx = .error stop) ∨
      ∃ code next own, validateAndPrepareTx hashing db num doMVCCValidation updates tx = .ok (code, next) ∧
        validateAndPrepareTx hashing db' num doMVCCValidation .newPubAndHashUpdates tx = .ok (code, own) ∧
        Proper next.pubUpdates ∧ Simulates db next.pubUpdates (db'.applyPrivacyAwareUpdates own) := by
  rw [validateAndPrepareTx, validateAndPrepareTx, ← validateEndorserTX_eq simulates plain]
  cases validateEndorserTX hashing db tx.rwSet doMVCCValidation updates with
  | error stop => exact .inl ⟨stop, rfl, rfl⟩
  | ok code =>
    by_cases valid : code = .valid
    · subst code
      rcases applyWriteSet_simulates simulates proper plain ⟨num, tx.indexInBlock⟩ with
        ⟨first, second⟩ | ⟨next, own, first, second, kept⟩
      · exact .inl ⟨.nilValue, by simp only [first]; rfl, by simp only [second]; rfl⟩
      · exact .inr ⟨.valid, next, own, by simp only [first]; rfl, by simp only [second]; rfl, kept⟩
    · refine .inr ⟨code, updates, .newPubAndHashUpdates, ?_, ?_, proper, ?_⟩
      · cases code <;> first | rfl | exact absurd rfl valid
      · cases code <;> first | rfl | exact absurd rfl valid
      · intro ns key
        exact (overlay_newUpdateBatch ..).trans (simulates ns key)

theorem validateAndPrepareBatch_singleton (tx : Transaction Hash) :
    validateAndPrepareBatch hashing db' ⟨num, [tx]⟩ doMVCCValidation =
      (validateAndPrepareTx hashing db' num doMVCCValidation .newPubAndHashUpdates tx).map fun turn =>
        ([turn.1], turn.2) := by
  rw [validateAndPrepareBatch, validateAndPrepareFrom]
  cases validateAndPrepareTx hashing db' num doMVCCValidation .newPubAndHashUpdates tx <;> rfl

include simulates proper in
theorem validateAndPrepareFrom_simulates {txs : List (Transaction Hash)} (plain : ∀ tx ∈ txs, tx.rwSet.Plain) :
    (∃ stop, validateAndPrepareFrom hashing db num doMVCCValidation txs updates = .error stop ∧
        commitOneByOne hashing num doMVCCValidation txs db' = .error stop) ∨
      ∃ codes final last, validateAndPrepareFrom hashing db num doMVCCValidation txs updates = .ok (codes, final) ∧
        commitOneByOne hashing num doMVCCValidation txs db' = .ok (codes, last) ∧
        Proper final.pubUpdates ∧ Simulates db final.pubUpdates last := by
  induction txs generalizing updates db' with
  | nil => exact .inr ⟨[], updates, db', rfl, rfl, proper, simulates⟩
  | cons tx txs ih =>
    obtain ⟨plainFirst, plainRest⟩ := List.forall_mem_cons.mp plain
    rw [validateAndPrepareFrom, commitOneByOne, validateAndPrepareBatch_singleton]
    rcases validateAndPrepareTx_simulates simulates proper hashing num doMVCCValidation plainFirst with
      ⟨stop, first, second⟩ | ⟨code, next, own, first, second, properNext, simulatesNext⟩
    · refine .inl ⟨stop, ?_, ?_⟩
      · simp only [first]
      · simp only [second, Except.map]
    · simp only [first, second, Except.map]
      rcases ih simulatesNext properNext plainRest with ⟨stop, ran, ran'⟩ | ⟨codes, final, last, ran, ran', kept⟩
      · exact .inl ⟨stop, by simp only [ran], by simp only [ran']⟩
      · exact .inr ⟨code :: codes, final, last, by simp only [ran], by simp only [ran']; rfl, kept⟩

/-- A block gets the codes, and leaves the state, of its transactions validated and committed one after the other. -/
theorem validateAndPrepareBatch_sequential (hashing : Hashing (String × Height) Hash) (db : CommonStorageDB)
    (block : Block Hash) (doMVCCValidation : Bool) (plain : ∀ tx ∈ block.txs, tx.rwSet.Plain) :
    (∃ stop, validateAndPrepareBatch hashing db block doMVCCValidation = .error stop ∧
        commitOneByOne hashing block.num doMVCCValidation block.txs db = .error stop) ∨
      ∃ codes updates last, validateAndPrepareBatch hashing db block doMVCCValidation = .ok (codes, updates) ∧
        commitOneByOne hashing block.num doMVCCValidation block.txs db = .ok (codes, last) ∧
        ∀ ns key, (db.applyPrivacyAwareUpdates updates).getState ns key = last.getState ns key := by
  have start : Simulates db newPubAndHashUpdates.pubUpdates db := fun ns key =>
    (overlay_newUpdateBatch db ns key).symm
  rcases validateAndPrepareFrom_simulates start proper_newUpdateBatch hashing block.num doMVCCValidation plain with
    stopped | ⟨codes, updates, last, ran, ran', proper, simulates⟩
  · exact .inl stopped
  · refine .inr ⟨codes, updates, last, ran, ran', fun ns key => ?_⟩
    rw [getState_applyPrivacyAwareUpdates proper, simulates]

/-- The calls of a simulator that creates two keys, one of them with metadata. -/
def creatingCalls : List (BuilderCall Unit) :=
  [.writeSet "cc" "j" (some [3]), .writeSet "cc" "k" (some [1]), .metadataWriteSet "cc" "k" [⟨[97], [2]⟩]]

/-- The calls of a simulator whose chaincode read a key and deletes it. -/
def removingCalls : List (BuilderCall Unit) :=
  [.readSetResult "cc" ⟨"k", none, some [1], true, "t"⟩,
    .rangeQuerySet "cc" ⟨"", "", true, .rawReads [newKVRead "j" (some ⟨1, 0⟩), newKVRead "k" (some ⟨1, 0⟩)]⟩,
    .writeSet "cc" "k" none]

def collected (calls : List (BuilderCall Unit)) : TxRwSet Unit :=
  (calls.foldl call .newRWSetBuilder).getTxReadWriteSet.decoded

def twoTxs : List (Transaction Unit) := [⟨0, collected creatingCalls⟩, ⟨1, collected removingCalls⟩]

theorem validateAndPrepareBatch_sequential_two : ∃ updates last,
    validateAndPrepareBatch ⟨fun _ => (), fun _ => ()⟩ .newCommonStorageDB ⟨1, twoTxs⟩ true =
        .ok ([.valid, .valid], updates) ∧
      commitOneByOne ⟨fun _ => (), fun _ => ()⟩ 1 true twoTxs .newCommonStorageDB = .ok ([.valid, .valid], last) ∧
      (last.getState "cc" "j").map VersionedValue.value = some (some [3]) ∧ last.getState "cc" "k" = none ∧
      ∀ ns key, (newCommonStorageDB.applyPrivacyAwareUpdates updates).getState ns key = last.getState ns key := by
  have left : (commitOneByOne ⟨fun _ => (), fun _ => ()⟩ 1 true twoTxs .newCommonStorageDB).map (fun result =>
      (result.1, (result.2.getState "cc" "j").map VersionedValue.value, result.2.getState "cc" "k")) =
        .ok ([.valid, .valid], some (some [3]), none) := by
    decide +kernel
  have plain : ∀ tx ∈ twoTxs, tx.rwSet.Plain := by
    intro tx member
    rcases List.mem_pair.mp member with rfl | rfl
    · exact plain_of_calls creatingCalls (by decide +kernel)
    · exact plain_of_calls removingCalls (by decide +kernel)
  rcases validateAndPrepareBatch_sequential ⟨fun _ => (), fun _ => ()⟩ .newCommonStorageDB ⟨1, twoTxs⟩ true plain with
    ⟨stop, _, failed⟩ | ⟨codes, updates, last, ran, ran', same⟩
  · rw [failed] at left
    cases left
  · rw [ran'] at left
    simp only [Except.map, Except.ok.injEq, Prod.mk.injEq] at left
    obtain ⟨rfl, first, second⟩ := left
    exact ⟨updates, last, ran, ran', first, second, same⟩

end Blocks

end Pobl.Txmgmt
