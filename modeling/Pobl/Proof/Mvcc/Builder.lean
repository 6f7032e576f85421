import Pobl.Library.Run
import Pobl.Proof.Mvcc.Plain

namespace Pobl.Txmgmt

open Library Library.Wire List

variable {Hash Item : Type} {builder : RWSetBuilder Hash} {key : Item → String} {map : GoMap Item}

/-- Each read and each write is kept under its own key. -/
structure NsPubRwBuilder.Keyed (builder : NsPubRwBuilder Hash) : Prop where
  reads : ∀ key read, builder.readMap.lookup key = some read → read.key = key
  writes : ∀ key write, builder.writeMap.lookup key = some write → write.key = key
  metadataWrites : ∀ key write, builder.metadataWriteMap.lookup key = some write → write.key = key

def RWSetBuilder.Keyed (builder : RWSetBuilder Hash) : Prop :=
  ∀ ns nsBuilder, builder.pubRwBuilderMap.lookup ns = some nsBuilder → nsBuilder.Keyed

namespace RWSetBuilder

theorem keyed_getOrCreate (keyed : builder.Keyed) (ns : String) : (builder.getOrCreateNsPubRwBuilder ns).Keyed := by
  rw [getOrCreateNsPubRwBuilder]
  cases found : builder.pubRwBuilderMap.lookup ns with
  | none =>
    refine ⟨fun key read found => ?_, fun key write found => ?_, fun key write found => ?_⟩ <;>
      simp [NsPubRwBuilder.newNsPubRwBuilder] at found
  | some nsBuilder => exact keyed ns nsBuilder found

theorem keyed_set (keyed : builder.Keyed) (ns : String) {nsBuilder : NsPubRwBuilder Hash}
    (keyedNs : nsBuilder.Keyed) : (builder.setNsPubRwBuilder ns nsBuilder).Keyed := by
  intro ns' nsBuilder' found
  rcases GoMap.of_lookup_insert found with ⟨_, rfl⟩ | ⟨_, found⟩
  · exact keyedNs
  · exact keyed ns' nsBuilder' found

theorem keyed_insert (keyed : ∀ name item, map.lookup name = some item → key item = name) (item : Item) :
    ∀ name found, (map.insert (key item) item).lookup name = some found → key found = name := by
  intro name found lookup
  rcases GoMap.of_lookup_insert lookup with ⟨same, rfl⟩ | ⟨_, lookup⟩
  · exact same.symm
  · exact keyed name found lookup

theorem keyed_call (keyed : builder.Keyed) (call : BuilderCall Hash) : (builder.call call).Keyed := by
  cases call with
  | readSetResult ns readkv =>
    have keyedNs := keyed_getOrCreate keyed ns
    refine keyed_set keyed ns ?_
    split
    · exact keyedNs
    · exact { keyedNs with reads := keyed_insert keyedNs.reads readkv }
  | writeSetResult ns writekv =>
    have keyedNs := keyed_getOrCreate keyed ns
    refine keyed_set keyed ns ?_
    split
    · exact keyedNs
    · exact { keyedNs with writes := keyed_insert keyedNs.writes writekv }
  | readSet ns key version =>
    have keyedNs := keyed_getOrCreate keyed ns
    exact keyed_set keyed ns
      { keyedNs with reads := keyed_insert keyedNs.reads (newKVRead key version) }
  | writeSet ns key value =>
    have keyedNs := keyed_getOrCreate keyed ns
    exact keyed_set keyed ns
      { keyedNs with writes := keyed_insert keyedNs.writes (newKVWrite key value) }
  | metadataWriteSet ns key entries =>
    have keyedNs := keyed_getOrCreate keyed ns
    exact keyed_set keyed ns ⟨keyedNs.reads, keyedNs.writes, keyed_insert keyedNs.metadataWrites ⟨key, entries⟩⟩
  | rangeQuerySet ns rqi =>
    have keyedNs := keyed_getOrCreate keyed ns
    refine keyed_set keyed ns ?_
    split
    · exact keyedNs
    · exact { keyedNs with }

theorem keyed_calls (calls : List (BuilderCall Hash)) : (calls.foldl call newRWSetBuilder).Keyed := by
  refine foldl_invariant call Keyed calls (fun _ label _ keyed => keyed_call keyed label) _ fun ns nsBuilder found => ?_
  simp [newRWSetBuilder] at found

theorem nodup_keys (map : GoMap Item) : (map.sorted.map Prod.fst).Nodup :=
  pairwise_map.mpr (map.ascending_sorted.imp ne_of_lt)

/-- The values of a map in the order of their keys have different keys. -/
theorem nodup_sorted (keyed : ∀ name item, map.lookup name = some item → key item = name) :
    ((map.sorted.map Prod.snd).map key).Nodup := by
  have same : (map.sorted.map Prod.snd).map key = map.sorted.map Prod.fst := by
    rw [map_map]
    exact map_congr_left fun entry member => keyed entry.1 entry.2 ((map.mem_sorted entry).mp member)
  rw [same]
  exact nodup_keys map

/-- The sets that the simulator collects are plain if every key that gets metadata is written. -/
theorem plain_of_calls (calls : List (BuilderCall Hash))
    (noMetadataOnly : ∀ nsRWSet ∈ (calls.foldl call newRWSetBuilder).getTxReadWriteSet.decoded.nsRwSets,
      ∀ metadataWrite ∈ nsRWSet.kvRwSet.metadataWrites,
        ∃ write ∈ nsRWSet.kvRwSet.writes, write.key = metadataWrite.key) :
    (calls.foldl call newRWSetBuilder).getTxReadWriteSet.decoded.Plain := by
  have keyed := @keyed_calls Hash calls
  refine ⟨?_, fun nsRWSet member => ?_⟩
  · rw [TxRwSet.decoded, getTxReadWriteSet, map_map, map_map]
    exact nodup_keys _
  · have complete := noMetadataOnly nsRWSet member
    obtain ⟨built, built_mem, rfl⟩ := mem_map.mp member
    obtain ⟨⟨ns, nsBuilder⟩, entry, rfl⟩ := mem_map.mp built_mem
    have keyedNs := keyed ns nsBuilder ((GoMap.mem_sorted _ _).mp entry)
    refine ⟨rfl, ?_, nodup_sorted keyedNs.metadataWrites, complete, ?_⟩
    · have same : KVWrite.key ∘ KVWrite.decoded = KVWrite.key := rfl
      rw [map_map, same]
      exact nodup_sorted keyedNs.writes
    · intro read recorded
      obtain ⟨raw, _, rfl⟩ := mem_map.mp recorded
      rw [KVRead.decoded, decodedBytes]
      split
      · exact nofun
      next filled => exact filled

end RWSetBuilder

end Pobl.Txmgmt
