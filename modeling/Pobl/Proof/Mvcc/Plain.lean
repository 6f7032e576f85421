import Pobl.Construction.StateBasedValidator
import Pobl.Library.Keyed
import Pobl.Library.WireFields

namespace Pobl.Txmgmt

open Library Library.Wire CompositeKey List

variable {Hash : Type} {ns coll : String} {txops : TxOps} {keyops : KeyOps} {ck : CompositeKey}
  {write : KVMetadataWrite}

/-- The public sets of a namespace that write each key at most once and set no metadata without a value. -/
structure NsRwSet.Plain (nsRWSet : NsRwSet Hash) : Prop where
  noCollections : nsRWSet.collHashedRwSets = []
  writtenOnce : (nsRWSet.kvRwSet.writes.map KVWrite.key).Nodup
  setOnce : (nsRWSet.kvRwSet.metadataWrites.map KVMetadataWrite.key).Nodup
  noMetadataOnly : ∀ metadataWrite ∈ nsRWSet.kvRwSet.metadataWrites,
    ∃ write ∈ nsRWSet.kvRwSet.writes, write.key = metadataWrite.key
  readValues : ∀ read ∈ nsRWSet.kvRwSet.reads, read.value ≠ some []

structure TxRwSet.Plain (rwset : TxRwSet Hash) : Prop where
  distinct : (rwset.nsRwSets.map NsRwSet.nameSpace).Nodup
  each : ∀ nsRWSet ∈ rwset.nsRwSets, nsRWSet.Plain

/-- The operations on a key need no value from the latest state. -/
def KeyOps.settled (keyops : KeyOps) : Bool :=
  keyops.isDelete || keyops.isUpsertAndMetadataUpdate || keyops.isOnlyUpsert

theorem serializeMetadata_ne_nil {entries : List KVMetadataEntry} (present : entries ≠ []) :
    (serializeMetadata entries).1 ≠ [] := by
  obtain ⟨entry, more, rfl⟩ := exists_cons_of_ne_nil present
  have tag : ∀ value : Bytes, delimitedField 2 value ≠ [] := fun value => cons_ne_nil _ _
  rw [serializeMetadata, appendElements]
  split <;> simp [marshal, tag]

namespace TxOps

theorem lookup_applyKVWrite_ne {write : KVWrite}
    (other : ck ≠ ⟨ns, coll, write.key⟩) : (applyKVWrite ns coll txops write).lookup ck = txops.lookup ck := by
  rw [applyKVWrite]
  split
  · exact AList.lookup_insert_ne other
  · exact AList.lookup_insert_ne other

theorem lookup_applyMetadata_ne
    (other : ck ≠ ⟨ns, coll, write.key⟩) : (applyMetadata ns coll txops write).lookup ck = txops.lookup ck := by
  rw [applyMetadata]
  split
  · exact AList.lookup_insert_ne other
  · split
    · exact AList.lookup_insert_ne other
    · rfl

/-- The first write of a key leaves one flag. -/
theorem lookup_applyKVWrite_first {write : KVWrite} (fresh : txops.lookup ⟨ns, coll, write.key⟩ = none) :
    ∃ keyops, (applyKVWrite ns coll txops write).lookup ⟨ns, coll, write.key⟩ = some keyops ∧
      (keyops.flag = 1 ∨ keyops.flag = 8) ∧ keyops.metadata = none := by
  rw [applyKVWrite]
  split
  · refine ⟨⟨8, none, none⟩, ?_, .inr rfl, rfl⟩
    simp [delete, getOrCreateKeyEntry, fresh, keyDelete]
  · refine ⟨⟨1, write.value, none⟩, ?_, .inl rfl, rfl⟩
    simp [upsert, getOrCreateKeyEntry, fresh, upsertVal]

theorem settled_of_flag
    (flags : keyops.flag = 1 ∨ keyops.flag = 8 ∨ keyops.flag = 3 ∨ keyops.flag = 10 ∨ keyops.flag = 5 ∨
      keyops.flag = 12) : keyops.settled = true := by
  rw [KeyOps.settled, KeyOps.isDelete, KeyOps.isUpsertAndMetadataUpdate, KeyOps.isOnlyUpsert]
  rcases flags with flag | flag | flag | flag | flag | flag <;> rw [flag] <;> decide

/-- Metadata for a key that is written needs nothing else. -/
theorem lookup_applyMetadata_written (found : txops.lookup ⟨ns, coll, write.key⟩ = some keyops)
    (flag : keyops.flag = 1 ∨ keyops.flag = 8) (none : keyops.metadata = none) :
    ∃ keyops', (applyMetadata ns coll txops write).lookup ⟨ns, coll, write.key⟩ = some keyops' ∧
      keyops'.settled = true ∧ keyops'.metadata ≠ some [] := by
  rw [applyMetadata]
  split
  · refine ⟨{ keyops with flag := keyops.flag + Txmgmt.metadataDelete }, ?_, ?_, by simp [none]⟩
    · simp [metadataDelete, getOrCreateKeyEntry, found]
    · apply settled_of_flag
      rcases flag with flag | flag <;> simp [flag, Txmgmt.metadataDelete]
  next present =>
    split
    next metadataBytes serialized =>
      have filled := serializeMetadata_ne_nil present
      rw [serialized] at filled
      refine ⟨{ keyops with flag := keyops.flag + Txmgmt.metadataUpdate, metadata := some metadataBytes }, ?_, ?_, ?_⟩
      · simp [metadataUpdate, getOrCreateKeyEntry, found]
      · apply settled_of_flag
        rcases flag with flag | flag <;> simp [flag, Txmgmt.metadataUpdate]
      · simpa using filled
    next =>
      refine ⟨keyops, found, settled_of_flag ?_, by simp [none]⟩
      exact flag.imp_right .inl

section Namespace

variable {nsRWSet : NsRwSet Hash} {ck : CompositeKey}

theorem lookup_writes (txops : TxOps) (absent : ∀ write ∈ nsRWSet.kvRwSet.writes,
    ck ≠ ⟨nsRWSet.nameSpace, "", write.key⟩) :
    (nsRWSet.kvRwSet.writes.foldl (applyKVWrite nsRWSet.nameSpace "") txops).lookup ck = txops.lookup ck :=
  foldl_other_keys (applyKVWrite nsRWSet.nameSpace "") (fun write => mk nsRWSet.nameSpace "" write.key)
    (AList.lookup ck) (fun _ _ other => lookup_applyKVWrite_ne other.symm)
    (fun write member => (absent write member).symm) txops

theorem lookup_metadataWrites (txops : TxOps) (absent : ∀ write ∈ nsRWSet.kvRwSet.metadataWrites,
    ck ≠ ⟨nsRWSet.nameSpace, "", write.key⟩) :
    (nsRWSet.kvRwSet.metadataWrites.foldl (applyMetadata nsRWSet.nameSpace "") txops).lookup ck = txops.lookup ck :=
  foldl_other_keys (applyMetadata nsRWSet.nameSpace "") (fun write => mk nsRWSet.nameSpace "" write.key)
    (AList.lookup ck) (fun _ _ other => lookup_applyMetadata_ne other.symm)
    (fun write member => (absent write member).symm) txops

theorem lookup_applyNs_other (plain : nsRWSet.Plain) (txops : TxOps)
    (other : ck.ns ≠ nsRWSet.nameSpace ∨ ck.coll ≠ "") : (applyNs txops nsRWSet).lookup ck = txops.lookup ck := by
  have apart : ∀ key, ck ≠ ⟨nsRWSet.nameSpace, "", key⟩ := by
    rintro key rfl
    simp at other
  rw [applyNs, plain.noCollections, foldl_nil, lookup_metadataWrites _ fun write _ => apart write.key,
    lookup_writes _ fun write _ => apart write.key]

/-- A key that a namespace writes once is settled. -/
theorem settled_applyNs (plain : nsRWSet.Plain) {key : String}
    (fresh : txops.lookup ⟨nsRWSet.nameSpace, "", key⟩ = none)
    (found : (applyNs txops nsRWSet).lookup ⟨nsRWSet.nameSpace, "", key⟩ = some keyops) :
    keyops.settled = true ∧ keyops.metadata ≠ some [] := by
  rw [applyNs, plain.noCollections, foldl_nil] at found
  by_cases written : ∃ write ∈ nsRWSet.kvRwSet.writes, write.key = key
  · obtain ⟨write, member, rfl⟩ := written
    obtain ⟨before, kept, reached⟩ := foldl_only_key (applyKVWrite nsRWSet.nameSpace "") KVWrite.key
      (AList.lookup ⟨nsRWSet.nameSpace, "", write.key⟩)
      (fun _ other apart => lookup_applyKVWrite_ne (by simpa using Ne.symm apart)) plain.writtenOnce member rfl txops
    obtain ⟨first, lookup, flag, none⟩ := lookup_applyKVWrite_first (kept.trans fresh)
    rw [lookup] at reached
    by_cases updated : ∃ metadataWrite ∈ nsRWSet.kvRwSet.metadataWrites, metadataWrite.key = write.key
    · obtain ⟨metadataWrite, member', same⟩ := updated
      obtain ⟨before', kept', reached'⟩ := foldl_only_key (applyMetadata nsRWSet.nameSpace "") KVMetadataWrite.key
        (AList.lookup ⟨nsRWSet.nameSpace, "", write.key⟩)
        (fun _ other apart => lookup_applyMetadata_ne (by simpa using Ne.symm apart)) plain.setOnce member' same
        (nsRWSet.kvRwSet.writes.foldl (applyKVWrite nsRWSet.nameSpace "") txops)
      rw [reached'] at found
      rw [← same] at kept' reached found
      obtain ⟨last, lookup', settled, filled⟩ := lookup_applyMetadata_written (kept'.trans reached) flag none
      rw [lookup'] at found
      cases found
      exact ⟨settled, filled⟩
    · have unset : ∀ metadataWrite ∈ nsRWSet.kvRwSet.metadataWrites,
          mk nsRWSet.nameSpace "" write.key ≠ ⟨nsRWSet.nameSpace, "", metadataWrite.key⟩ := by
        intro metadataWrite member' same
        exact updated ⟨metadataWrite, member', (mk.inj same).2.2.symm⟩
      rw [lookup_metadataWrites _ unset, reached] at found
      cases found
      exact ⟨settled_of_flag (flag.imp_right .inl), by simp [none]⟩
  · have unwritten : ∀ write ∈ nsRWSet.kvRwSet.writes,
        mk nsRWSet.nameSpace "" key ≠ ⟨nsRWSet.nameSpace, "", write.key⟩ := by
      intro write member same
      exact written ⟨write, member, (mk.inj same).2.2.symm⟩
    have unset : ∀ metadataWrite ∈ nsRWSet.kvRwSet.metadataWrites,
        mk nsRWSet.nameSpace "" key ≠ ⟨nsRWSet.nameSpace, "", metadataWrite.key⟩ := by
      intro metadataWrite member same
      obtain ⟨write, member', same'⟩ := plain.noMetadataOnly metadataWrite member
      exact written ⟨write, member', same'.trans (mk.inj same).2.2.symm⟩
    rw [lookup_metadataWrites _ unset, lookup_writes _ unwritten, fresh] at found
    exact nomatch found

end Namespace

/-- The operation on the key is public and settled. -/
def Settled (ck : CompositeKey) (keyops : KeyOps) : Prop :=
  ck.coll = "" ∧ keyops.settled = true ∧ keyops.metadata ≠ some []

theorem settled_foldl {nsRwSets : List (NsRwSet Hash)} (distinct : (nsRwSets.map NsRwSet.nameSpace).Nodup)
    (plain : ∀ nsRWSet ∈ nsRwSets, nsRWSet.Plain)
    (fresh : ∀ nsRWSet ∈ nsRwSets, ∀ key, txops.lookup ⟨nsRWSet.nameSpace, "", key⟩ = none)
    (settled : ∀ ck keyops, txops.lookup ck = some keyops → Settled ck keyops) :
    ∀ ck keyops, (nsRwSets.foldl applyNs txops).lookup ck = some keyops → Settled ck keyops := by
  induction nsRwSets generalizing txops with
  | nil => exact settled
  | cons first rest ih =>
    obtain ⟨apart, distinctRest⟩ := nodup_cons.mp distinct
    obtain ⟨plainFirst, plainRest⟩ := forall_mem_cons.mp plain
    obtain ⟨freshFirst, freshRest⟩ := forall_mem_cons.mp fresh
    refine ih distinctRest plainRest ?_ ?_
    · intro nsRWSet member key
      have different : nsRWSet.nameSpace ≠ first.nameSpace := fun same =>
        apart (mem_map.mpr ⟨nsRWSet, member, same⟩)
      rw [lookup_applyNs_other plainFirst txops (.inl different)]
      exact freshRest nsRWSet member key
    · intro ck keyops found
      by_cases own : ck.ns = first.nameSpace ∧ ck.coll = ""
      · obtain ⟨ns, coll, key⟩ := ck
        obtain ⟨rfl, rfl⟩ := own
        exact ⟨rfl, settled_applyNs plainFirst (freshFirst key) found⟩
      · rw [lookup_applyNs_other plainFirst txops (not_and_or.mp own)] at found
        exact settled ck keyops found

/-- Every operation of a plain write set is settled. -/
theorem settled_applyTxRwset {rwset : TxRwSet Hash} (plain : rwset.Plain)
    (found : (applyTxRwset rwset).lookup ck = some keyops) : Settled ck keyops := by
  refine settled_foldl plain.distinct plain.each ?_ ?_ ck keyops found
  · intro nsRWSet member key
    exact AList.lookup_empty _
  · intro ck keyops found
    exact nomatch found

end TxOps

end Pobl.Txmgmt
