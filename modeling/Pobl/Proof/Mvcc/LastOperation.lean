import Mathlib.Data.List.Induction
import Pobl.Proof.Mvcc.NilValue
import Pobl.Proof.Mvcc.Plain

namespace Pobl.Txmgmt

open Library Library.Wire KeyOps List

variable {Hash : Type}

/-- An operation of a write set on a key. -/
inductive KeyOperation where
  | upsert (value : Option Bytes)
  | delete
  | metadataUpdate (metadata : Bytes)
  | metadataDelete
  deriving DecidableEq

def KVWrite.operation (write : KVWrite) : KeyOperation := if write.isDelete then .delete else .upsert write.value

def KVMetadataWrite.operation (write : KVMetadataWrite) : Option KeyOperation :=
  if write.entries = [] then some .metadataDelete
  else
    match serializeMetadata write.entries with
    | (metadataBytes, true) => some (.metadataUpdate metadataBytes)
    | (_, false) => none

def listed (ns coll : String) (writes : List KVWrite) (metadataWrites : List KVMetadataWrite) :
    List (CompositeKey × KeyOperation) :=
  writes.map (fun write => (⟨ns, coll, write.key⟩, write.operation)) ++
    metadataWrites.filterMap fun write => write.operation.map (⟨ns, coll, write.key⟩, ·)

/-- The operations of a write set in the order of its lists. -/
def TxRwSet.operations (rwset : TxRwSet Hash) : List (CompositeKey × KeyOperation) :=
  rwset.nsRwSets.flatMap fun nsRWSet =>
    listed nsRWSet.nameSpace "" nsRWSet.kvRwSet.writes nsRWSet.kvRwSet.metadataWrites ++
      nsRWSet.collHashedRwSets.flatMap fun coll =>
        listed nsRWSet.nameSpace coll.collectionName
          (coll.hashedWrites.map fun write => ⟨write.keyHash, write.isDelete, write.valueHash, ""⟩)
          (coll.metadataWrites.map fun write => ⟨write.keyHash, write.entries⟩)

def TxRwSet.operationsOn (ck : CompositeKey) (rwset : TxRwSet Hash) : List KeyOperation :=
  rwset.operations.filterMap fun op => if op.1 = ck then some op.2 else none

/-- How an operation is noted for its key: its flag is added. -/
def KeyOps.note (keyops : KeyOps) : KeyOperation → KeyOps
  | .upsert value => { keyops with flag := keyops.flag + upsertVal, value := value }
  | .delete => { keyops with flag := keyops.flag + keyDelete }
  | .metadataUpdate metadata => { keyops with flag := keyops.flag + metadataUpdate, metadata := some metadata }
  | .metadataDelete => { keyops with flag := keyops.flag + metadataDelete }

def noted (ops : List KeyOperation) : KeyOps := ops.foldl note ⟨0, none, none⟩

namespace TxOps

def record (txops : TxOps) (op : CompositeKey × KeyOperation) : TxOps :=
  txops.insert op.1 ((getOrCreateKeyEntry op.1 txops).note op.2)

theorem applyKVWrite_eq (ns coll : String) (txops : TxOps) (write : KVWrite) :
    applyKVWrite ns coll txops write = record txops (⟨ns, coll, write.key⟩, write.operation) := by
  rw [applyKVWrite, KVWrite.operation]
  split <;> rfl

theorem foldl_listed (ns coll : String) (writes : List KVWrite) (metadataWrites : List KVMetadataWrite) (txops : TxOps) :
    (listed ns coll writes metadataWrites).foldl record txops =
      metadataWrites.foldl (applyMetadata ns coll) (writes.foldl (applyKVWrite ns coll) txops) := by
  rw [listed, foldl_append, foldl_map, foldl_filterMap]
  simp only [← applyKVWrite_eq]
  congr 1
  funext txops write
  rw [applyMetadata, KVMetadataWrite.operation]
  by_cases removed : write.entries = []
  · simp only [removed, if_true]
    rfl
  · simp only [removed, if_false]
    rcases serializeMetadata write.entries with ⟨metadataBytes, _ | _⟩ <;> rfl

theorem applyTxRwset_eq (rwset : TxRwSet Hash) : applyTxRwset rwset = rwset.operations.foldl record ∅ := by
  simp only [TxRwSet.operations, foldl_flatMap, foldl_append, foldl_listed, foldl_map]
  rfl

/-- The entry of a key notes its own operations. -/
theorem lookup_foldl_record (ck : CompositeKey) (ops : List (CompositeKey × KeyOperation)) (txops : TxOps) :
    (ops.foldl record txops).lookup ck = (ops.filterMap fun op => if op.1 = ck then some op.2 else none).foldl
        (fun found op => some ((found.getD ⟨0, none, none⟩).note op)) (txops.lookup ck) := by
  induction ops generalizing txops with
  | nil => rfl
  | cons op ops ih =>
    rw [foldl_cons, ih, record, GoMap.lookup_insert_apply]
    by_cases own : op.1 = ck
    · subst ck
      simp [getOrCreateKeyEntry]
    · simp [own, Ne.symm own]

theorem lookup_applyTxRwset (ck : CompositeKey) (rwset : TxRwSet Hash) : (applyTxRwset rwset).lookup ck =
      if rwset.operationsOn ck = [] then none else some (noted (rwset.operationsOn ck)) := by
  have merged (ops : List KeyOperation) (keyops : KeyOps) :
      ops.foldl (fun found op => some ((found.getD ⟨0, none, none⟩).note op)) (some keyops) =
        some (ops.foldl note keyops) := by
    induction ops generalizing keyops with
    | nil => rfl
    | cons op ops ih => exact ih _
  rw [applyTxRwset_eq, lookup_foldl_record, ← TxRwSet.operationsOn]
  cases rwset.operationsOn ck with
  | nil => rfl
  | cons op ops => exact merged ops _

end TxOps

variable (rwset : TxRwSet Hash) (updates : PubAndHashUpdates) (db : CommonStorageDB) (ck : CompositeKey)

theorem mem_prepareTxOps_iff (keyops : KeyOps) : (ck, keyops) ∈ prepareTxOps rwset updates db ↔
    ((TxOps.applyTxRwset rwset).lookup ck).bind (prepareKeyOps updates db ck) = some keyops := by
  simp [prepareTxOps, Option.bind_eq_some_iff, ← AList.mem_lookup_iff, Sigma.exists]

/-- The operation that is prepared for a key, if any. -/
def preparedFor : Option KeyOps :=
  ((prepareTxOps rwset updates db).find? fun op => op.1 = ck).map Prod.snd

theorem preparedFor_eq :
    preparedFor rwset updates db ck = ((TxOps.applyTxRwset rwset).lookup ck).bind (prepareKeyOps updates db ck) := by
  have prepared := mem_prepareTxOps_iff rwset updates db
  rw [preparedFor]
  cases found : (prepareTxOps rwset updates db).find? fun op => op.1 = ck with
  | none =>
    refine (Option.eq_none_iff_forall_ne_some.mpr fun keyops known => ?_).symm
    simpa using List.find?_eq_none.mp found _ ((prepared ck keyops).mpr known)
  | some op =>
    obtain rfl : op.1 = ck := by simpa using List.find?_some found
    exact ((prepared op.1 op.2).mp (List.mem_of_find?_eq_some found)).symm

/-- The latest value of a key, if the key exists, and its metadata. -/
structure KeyState where
  value : Option (Option Bytes)
  metadata : Option Bytes

def keyState (latest : Option VersionedValue) : KeyState where
  value := (latest.filter fun vv => !vv.isDelete).map VersionedValue.value
  metadata := latest.bind VersionedValue.metadata

namespace KeyState

/-- What a reader of the key finds. -/
def content (state : KeyState) : Option (Option Bytes × Option Bytes) := state.value.map (·, state.metadata)

def applyValue (state : KeyState) : KeyOperation → KeyState
  | .upsert value => { state with value := some value }
  | .delete => ⟨none, none⟩
  | _ => state

def applyMetadata (state : KeyState) : KeyOperation → KeyState
  | .metadataUpdate metadata => { state with metadata := some metadata }
  | .metadataDelete => { state with metadata := none }
  | _ => state

/-- The value operations are applied in their order, and then the metadata operations in theirs. -/
def inOrder (ops : List KeyOperation) (state : KeyState) : KeyState :=
  ops.foldl applyMetadata (ops.foldl applyValue state)

end KeyState

/-- What a reader finds after the prepared operation. -/
def outcome (prepared : Option KeyOps) (latest : KeyState) : Option (Option Bytes × Option Bytes) :=
  match prepared with
  | none => latest.content
  | some keyops => if keyops.isDelete then none else some (keyops.value, keyops.metadata)

section Last

variable (ops : List KeyOperation)

/-- The value that the last value operation writes, where a deletion writes none. -/
def lastValue : Option (Option (Option Bytes)) :=
  (ops.filterMap fun
    | .upsert value => some (some value)
    | .delete => some none
    | _ => none).getLast?

def lastMetadata : Option (Option Bytes) :=
  (ops.filterMap fun
    | .metadataUpdate metadata => some (some metadata)
    | .metadataDelete => some none
    | _ => none).getLast?

theorem KeyState.foldl_applyValue (state : KeyState) : ops.foldl applyValue state =
      ⟨(lastValue ops).getD state.value, if .delete ∈ ops then none else state.metadata⟩ := by
  induction ops using reverseRecOn with
  | nil => rfl
  | append_singleton ops op ih =>
    rw [foldl_append, ih]
    cases op <;> simp [lastValue, applyValue]

theorem KeyState.foldl_applyMetadata (state : KeyState) :
    ops.foldl applyMetadata state = ⟨state.value, (lastMetadata ops).getD state.metadata⟩ := by
  induction ops using reverseRecOn with
  | nil => rfl
  | append_singleton ops op ih =>
    rw [foldl_append, ih]
    cases op <;> simp [lastMetadata, applyMetadata]

theorem value_noted {value : Option Bytes} (last : lastValue ops = some (some value)) : (noted ops).value = value := by
  induction ops using reverseRecOn with
  | nil => cases last
  | append_singleton ops op ih =>
    rw [noted, foldl_append, ← noted]
    cases op <;> simp_all [lastValue, note]

theorem value_noted_of_none (last : lastValue ops = none) : (noted ops).value = none := by
  induction ops using reverseRecOn with
  | nil => rfl
  | append_singleton ops op ih =>
    rw [noted, foldl_append, ← noted]
    cases op <;> simp_all [lastValue, note]

/-- The value that the value operations leave, if the key exists after them. -/
def valueLeft (latest : Option VersionedValue) : Option (Option Bytes) := (lastValue ops).getD (keyState latest).value

/-- The metadata that the operations leave. A deletion removes the metadata with the value. -/
def metadataLeft (latest : Option VersionedValue) : Option Bytes :=
  (lastMetadata ops).getD (if .delete ∈ ops then none else latest.bind VersionedValue.metadata)

/-- The sum of the flags of the key selects a branch that fits its operations and its latest state. -/
def Classified (latest : Option VersionedValue) : Prop :=
  if (noted ops).isDelete then valueLeft ops latest = none
  else if (noted ops).isUpsertAndMetadataUpdate then
    (∃ value, lastValue ops = some (some value)) ∧ (noted ops).metadata = metadataLeft ops latest
  else if (noted ops).isOnlyUpsert then
    (∃ value, lastValue ops = some (some value)) ∧ latest.bind VersionedValue.metadata = metadataLeft ops latest
  else
    valueLeft ops latest = latest.map VersionedValue.value ∧
      (latest ≠ none → (noted ops).metadata = metadataLeft ops latest)

/-- What a reader finds after the noted operations are prepared over the latest state. -/
def KeyOps.leaves (keyops : KeyOps) (latest : Option VersionedValue) : Option (Option Bytes × Option Bytes) :=
  if keyops.isDelete then none
  else if keyops.isUpsertAndMetadataUpdate then some (keyops.value, keyops.metadata)
  else if keyops.isOnlyUpsert then some (keyops.value, latest.bind VersionedValue.metadata)
  else latest.map fun vv => (vv.value, keyops.metadata)

theorem content_inOrder (latest : Option VersionedValue) :
    ((keyState latest).inOrder ops).content = (valueLeft ops latest).map (·, metadataLeft ops latest) := by
  rw [KeyState.inOrder, KeyState.foldl_applyValue, KeyState.foldl_applyMetadata]
  rfl

/-- A key that exists has a value. -/
theorem keyState_value_ne (latest : Option VersionedValue) : (keyState latest).value ≠ some none := by
  rcases latest with _ | ⟨_ | value, metadata, version⟩ <;> simp [keyState, VersionedValue.isDelete]

/-- A written value is left if and only if the last value operation is a write. -/
theorem written_eq_left_iff (latest : Option VersionedValue) (metadata : Option Bytes) :
    some ((noted ops).value, metadata) = (valueLeft ops latest).map (·, metadataLeft ops latest) ↔
      (∃ value, lastValue ops = some (some value)) ∧ metadata = metadataLeft ops latest := by
  rcases last : lastValue ops with _ | _ | value
  · have exists_value := keyState_value_ne latest
    rw [valueLeft, last, Option.getD_none, value_noted_of_none ops last]
    cases present : (keyState latest).value with
    | none => simp
    | some value =>
      rw [present] at exists_value
      have other : ¬ none = value := fun wrong => exists_value (congrArg some wrong.symm)
      simp [other]
  · simp [valueLeft, last]
  · simp [valueLeft, last, value_noted ops last]

theorem leaves_noted_iff (latest : Option VersionedValue) :
    (noted ops).leaves latest = ((keyState latest).inOrder ops).content ↔ Classified ops latest := by
  rw [content_inOrder, leaves, Classified]
  split_ifs
  · rw [eq_comm, Option.map_eq_none_iff]
  · exact written_eq_left_iff ops latest _
  · exact written_eq_left_iff ops latest _
  · cases latest with
    | none => simp [eq_comm]
    | some vv => cases valueLeft ops (some vv) <;> simp [eq_comm]

end Last

theorem retrieveLatestMetadata_eq_bind :
    retrieveLatestMetadata ck updates db = (retrieveLatestState ck updates db).bind VersionedValue.metadata := by
  rw [retrieveLatestMetadata, retrieveLatestState]
  split
  · cases updates.pubUpdates.get ck.ns ck.key with
    | none => exact db.getStateMetadata_eq ck.ns ck.key
    | some vv => rfl
  · cases updates.hashUpdates.get ck.ns ck.coll ck.key with
    | none => exact CommonStorageDB.bind_metadata_of_hint fun unhinted => (db.hinted unhinted).2
    | some vv => rfl

theorem outcome_preparedFor (present : rwset.operationsOn ck ≠ []) :
    outcome (preparedFor rwset updates db ck) (keyState (retrieveLatestState ck updates db)) =
      (noted (rwset.operationsOn ck)).leaves (retrieveLatestState ck updates db) := by
  rw [preparedFor_eq, TxOps.lookup_applyTxRwset, if_neg present, Option.bind_some, prepareKeyOps, leaves,
    retrieveLatestMetadata_eq_bind]
  generalize noted (rwset.operationsOn ck) = keyops
  have same (value metadata : Option Bytes) : isDelete ⟨keyops.flag, value, metadata⟩ = keyops.isDelete := rfl
  cases deleted : keyops.isDelete with
  | true => simp [outcome, deleted]
  | false =>
    cases both : keyops.isUpsertAndMetadataUpdate with
    | true => simp [outcome, deleted]
    | false =>
      cases keyops.isOnlyUpsert with
      | true => simp [outcome, same, deleted]
      | false =>
        simp only [outcome]
        cases retrieveLatestState ck updates db with
        | none => rfl
        | some vv => simp [same, deleted]

/-- A write set that writes a key twice. -/
def twiceWritten : TxRwSet Unit := ⟨[⟨"cc", ⟨[], [], [newKVWrite "k" (some [1]), newKVWrite "k" (some [2])], []⟩, []⟩]⟩

end Pobl.Txmgmt
