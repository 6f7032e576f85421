import Mathlib.Data.List.Induction
import Pobl.Construction.TxMgr
import Pobl.Proof.Mvcc.Builder

namespace Pobl.Txmgmt

open Library Library.Wire KVWrite NsPubRwBuilder List

variable {Hash Item Data : Type}

/-- What a read carries. The messages write nil and empty bytes alike. -/
def KVRead.carried (read : KVRead) : Bytes × Bool × String := (read.value.getD [], read.isRead, read.txid)

def KVWrite.carried (write : KVWrite) : Bytes × Bool × String := (write.value.getD [], write.isDelete, write.txid)

/-- The results have an entry with the key and the data of the item. -/
def TxRwSet.Carries (ns : String) (listed : KVRWSet Hash → List Item) (key : Item → String) (carried : Item → Data)
    (item : Item) (results : TxRwSet Hash) : Prop :=
  ∃ nsRwSet ∈ results.nsRwSets, nsRwSet.nameSpace = ns ∧
    ∃ kept ∈ listed nsRwSet.kvRwSet, key kept = key item ∧ carried kept = carried item

section FirstWins

variable (key : Item → String)

/-- An item is added unless there is one with its key. -/
def addFirst (map : GoMap Item) (item : Item) : GoMap Item :=
  if (map.lookup (key item)).isSome then map else map.insert (key item) item

theorem lookup_foldl_addFirst (items : List Item) (map : GoMap Item) (name : String) :
    (items.foldl (addFirst key) map).lookup name = (map.lookup name).or (items.find? fun item => key item = name) := by
  induction items generalizing map with
  | nil => simp
  | cons item items ih =>
    rw [foldl_cons, ih, addFirst, List.find?_cons]
    by_cases same : key item = name
    · subst name
      cases found : map.lookup (key item) <;> simp [found]
    · have other : ∀ value, (map.insert (key item) value).lookup name = map.lookup name := fun value =>
        AList.lookup_insert_ne (Ne.symm same)
      split <;> simp [same, other]

/-- The items agree with each other and with those that were there first. -/
def Agree (carried : Item → Data) (first : String → Option Item) (items : List Item) : Prop :=
  ∀ item ∈ items, (∀ kept, first (key item) = some kept → carried kept = carried item) ∧
    ∀ other ∈ items, key other = key item → carried other = carried item

theorem foldl_addFirst_iff (carried : Item → Data) (items : List Item) (map : GoMap Item) :
    (∀ item ∈ items, ∃ kept, (items.foldl (addFirst key) map).lookup (key item) = some kept ∧
        carried kept = carried item) ↔ Agree key carried map.lookup items := by
  simp only [lookup_foldl_addFirst]
  constructor
  · intro all item member
    obtain ⟨kept, found, same⟩ := all item member
    refine ⟨fun earlier (known : map.lookup (key item) = some earlier) => ?_, fun other otherIn sameKey => ?_⟩
    · rw [known, Option.some_or] at found
      rw [Option.some.inj found, same]
    · obtain ⟨kept', found', same'⟩ := all other otherIn
      rw [sameKey, found] at found'
      rw [← same', ← Option.some.inj found', same]
  · intro agree item member
    cases known : map.lookup (key item) with
    | some kept => exact ⟨kept, rfl, (agree item member).1 kept known⟩
    | none =>
      cases found : items.find? fun other => key other = key item with
      | none => simpa using List.find?_eq_none.mp found item member
      | some kept =>
        exact ⟨kept, rfl, (agree item member).2 kept (List.mem_of_find?_eq_some found)
          (by simpa using List.find?_some found)⟩

end FirstWins

/-- The entry that the last read of the key at the peer leaves. -/
def peerRead (ns : String) (calls : List SimulatorCall) (key : String) : Option KVRead :=
  (calls.filterMap fun
    | .getState db ns' key' =>
      if ns' = ns ∧ key' = key then some (newKVRead key ((db.getState ns key).map VersionedValue.version)) else none
    | _ => none).getLast?

def peerWrite (ns : String) (calls : List SimulatorCall) (key : String) : Option KVWrite :=
  (calls.filterMap fun
    | .setState ns' key' value => if ns' = ns ∧ key' = key then some (newKVWrite key value) else none
    | _ => none).getLast?

/-- What a call at the peer does to the builder. -/
def SimulatorCall.builderCall : SimulatorCall → BuilderCall Hash
  | .getState db ns key => .readSet ns key ((db.getState ns key).map VersionedValue.version)
  | .setState ns key value => .writeSet ns key value

namespace LockBasedTxSimulator

open RWSetBuilder

section Merge

variable (ns : String) (builder : RWSetBuilder Hash)

theorem getOrCreate_set (nsBuilder : NsPubRwBuilder Hash) (ns' : String) :
    (builder.setNsPubRwBuilder ns nsBuilder).getOrCreateNsPubRwBuilder ns' =
      if ns' = ns then nsBuilder else builder.getOrCreateNsPubRwBuilder ns' := by
  rw [getOrCreateNsPubRwBuilder, setNsPubRwBuilder, GoMap.lookup_insert_apply]
  split <;> rfl

theorem getOrCreate_readResults (rkvs : List KVRead) :
    (rkvs.foldl (fun builder rkv => builder.addToReadSetResult ns rkv) builder).getOrCreateNsPubRwBuilder ns =
      { builder.getOrCreateNsPubRwBuilder ns with
        readMap := rkvs.foldl (addFirst KVRead.key) (builder.getOrCreateNsPubRwBuilder ns).readMap } := by
  induction rkvs generalizing builder with
  | nil => rfl
  | cons rkv rkvs ih =>
    rw [foldl_cons, ih, addToReadSetResult, getOrCreate_set, if_pos rfl, foldl_cons, addFirst]
    split <;> rfl

theorem getOrCreate_writeResults (wkvs : List KVWrite) :
    (wkvs.foldl (fun builder wkv => builder.addToWriteSetResult ns wkv) builder).getOrCreateNsPubRwBuilder ns =
      { builder.getOrCreateNsPubRwBuilder ns with
        writeMap := wkvs.foldl (addFirst key) (builder.getOrCreateNsPubRwBuilder ns).writeMap } := by
  induction wkvs generalizing builder with
  | nil => rfl
  | cons wkv wkvs ih =>
    rw [foldl_cons, ih, addToWriteSetResult, getOrCreate_set, if_pos rfl, foldl_cons, addFirst]
    split <;> rfl

/-- The results carry an item if and only if the map of its namespace does. -/
theorem carries_iff (select : NsPubRwBuilder Hash → GoMap Item) {listed : KVRWSet Hash → List Item}
    {key : Item → String} {carried : Item → Data}
    (built : ∀ nsBuilder, listed (build ns nsBuilder).kvRwSet = (select nsBuilder).sorted.map Prod.snd)
    (empty : select .newNsPubRwBuilder = ∅) (keyed : ∀ nsBuilder, builder.pubRwBuilderMap.lookup ns = some nsBuilder →
      ∀ name item, (select nsBuilder).lookup name = some item → key item = name) (item : Item) :
    builder.getTxReadWriteSet.Carries ns listed key carried item ↔
      ∃ kept, (select (builder.getOrCreateNsPubRwBuilder ns)).lookup (key item) = some kept ∧
        carried kept = carried item := by
  rw [getOrCreateNsPubRwBuilder]
  constructor
  · rintro ⟨_, member, sameNs, kept, listedIn, sameKey, same⟩
    obtain ⟨⟨ns', nsBuilder⟩, entry, rfl⟩ := mem_map.mp member
    obtain rfl : ns' = ns := sameNs
    rw [built] at listedIn
    obtain ⟨⟨name, kept⟩, entryIn, rfl⟩ := mem_map.mp listedIn
    have known : builder.pubRwBuilderMap.lookup ns' = some nsBuilder := (GoMap.mem_sorted _ _).mp entry
    have found : (select nsBuilder).lookup name = some kept := (GoMap.mem_sorted _ _).mp entryIn
    refine ⟨kept, ?_, same⟩
    rw [known, Option.getD_some, ← sameKey, keyed nsBuilder known name kept found]
    exact found
  · rintro ⟨kept, found, same⟩
    cases known : builder.pubRwBuilderMap.lookup ns with
    | none => simp [known, empty] at found
    | some nsBuilder =>
      rw [known, Option.getD_some] at found
      refine ⟨nsBuilder.build ns, mem_map.mpr ⟨(ns, nsBuilder), (GoMap.mem_sorted _ _).mpr known, rfl⟩, rfl, kept,
        ?_, keyed nsBuilder known _ kept found, same⟩
      rw [built]
      exact mem_map.mpr ⟨(key item, kept), (GoMap.mem_sorted _ _).mpr found, rfl⟩

end Merge

variable (calls : List SimulatorCall) (buildRwset : BuildRwset) (ns : String)

/-- The public results of the simulation. -/
def results : TxRwSet Hash :=
  ((calls.foldl call newLockBasedTxSimulator).buildRWset buildRwset ns).rwsetBuilder.getTxReadWriteSet

theorem keyed_results : ((calls.foldl call newLockBasedTxSimulator : LockBasedTxSimulator Hash).buildRWset buildRwset
    ns).rwsetBuilder.Keyed := by
  have called : (calls.foldl call newLockBasedTxSimulator : LockBasedTxSimulator Hash).rwsetBuilder =
      (calls.map SimulatorCall.builderCall).foldl RWSetBuilder.call newRWSetBuilder := by
    rw [foldl_map]
    exact (foldl_hom rwsetBuilder fun _ label => by cases label <;> rfl).symm
  have keyed := @keyed_calls Hash (calls.map SimulatorCall.builderCall ++ buildRwset.readSet.map (.readSetResult ns) ++
    buildRwset.writeSet.map (.writeSetResult ns))
  rw [foldl_append, foldl_append, ← called, foldl_map, foldl_map] at keyed
  exact keyed

theorem lookup_calls (key : String) :
    ((calls.foldl call newLockBasedTxSimulator : LockBasedTxSimulator Hash).rwsetBuilder.getOrCreateNsPubRwBuilder
        ns).readMap.lookup key = peerRead ns calls key ∧
      ((calls.foldl call newLockBasedTxSimulator : LockBasedTxSimulator Hash).rwsetBuilder.getOrCreateNsPubRwBuilder
        ns).writeMap.lookup key = peerWrite ns calls key := by
  induction calls using reverseRecOn with
  | nil => simp [newLockBasedTxSimulator, newRWSetBuilder, getOrCreateNsPubRwBuilder,
      newNsPubRwBuilder, peerRead, peerWrite]
  | append_singleton calls last ih =>
    rw [foldl_append, foldl_cons, foldl_nil]
    generalize calls.foldl call newLockBasedTxSimulator = simulator at ih
    rcases last with ⟨db, ns', key'⟩ | ⟨ns', key', value⟩
    all_goals
      simp only [call, addToReadSet, addToWriteSet, getOrCreate_set]
      by_cases own : ns' = ns
      · subst ns'
        by_cases same : key' = key
        · simp [peerRead, peerWrite, same, ih]
        · simp [peerRead, peerWrite, same, Ne.symm same, ih]
      · simp [peerRead, peerWrite, own, Ne.symm own, ih]

/-- The results keep what the shim returned if and only if its entries agree with each other and with the last calls
for their keys at the peer. -/
theorem shim_results_kept_iff (calls : List SimulatorCall) (buildRwset : BuildRwset) (ns : String) :
    ((∀ rkv ∈ buildRwset.readSet,
          (results calls buildRwset ns : TxRwSet Hash).Carries ns KVRWSet.reads KVRead.key KVRead.carried rkv) ∧
        ∀ wkv ∈ buildRwset.writeSet,
          (results calls buildRwset ns : TxRwSet Hash).Carries ns KVRWSet.writes key carried wkv) ↔
      Agree KVRead.key KVRead.carried (peerRead ns calls) buildRwset.readSet ∧
        Agree key carried (peerWrite ns calls) buildRwset.writeSet := by
  have keyed := @keyed_results Hash calls buildRwset ns
  have first := @lookup_calls Hash calls ns
  refine and_congr ?_ ?_
  · rw [← funext fun key => (first key).1, ← foldl_addFirst_iff]
    refine forall₂_congr fun rkv _ => ?_
    rw [results, carries_iff _ _ readMap (fun _ => rfl) rfl fun nsBuilder known =>
      (keyed ns nsBuilder known).reads, buildRWset, getOrCreate_writeResults, getOrCreate_readResults]
  · rw [← funext fun key => (first key).2, ← foldl_addFirst_iff]
    refine forall₂_congr fun wkv _ => ?_
    rw [results, carries_iff _ _ writeMap (fun _ => rfl) rfl fun nsBuilder known =>
      (keyed ns nsBuilder known).writes, buildRWset, getOrCreate_writeResults, getOrCreate_readResults]

/-- The peer reads and writes a key itself, and the entries of the shim for it are dropped. -/
theorem shim_entries_dropped :
    let results : TxRwSet Unit := results [.getState .newCommonStorageDB "cc" "k", .setState "cc" "k" (some [9])]
      ⟨[⟨"k", none, some [1], true, "t"⟩], [⟨"k", false, some [2], "t"⟩], 1⟩ "cc"
    ¬ results.Carries "cc" KVRWSet.reads KVRead.key KVRead.carried ⟨"k", none, some [1], true, "t"⟩ ∧
      ¬ results.Carries "cc" KVRWSet.writes key carried ⟨"k", false, some [2], "t"⟩ := by
  intro results
  have entries : results.nsRwSets = [⟨"cc", ⟨[newKVRead "k" none], [], [newKVWrite "k" (some [9])], []⟩, []⟩] := by
    rfl
  simp [TxRwSet.Carries, entries, newKVRead, newKVWrite, KVRead.carried, carried]

end LockBasedTxSimulator

end Pobl.Txmgmt
