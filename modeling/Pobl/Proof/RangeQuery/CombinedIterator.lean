import Pobl.Proof.Mvcc.Overlay

namespace Pobl.Txmgmt

open Library Library.Wire CombinedIterator List

namespace CombinedIterator

/-- The items that the iterator still has to return. -/
def remaining (itr : CombinedIterator) : List VersionedKV :=
  combine itr.dbItems itr.updatesItems ++
    if itr.endKeyServed then [] else Txmgmt.serveEndKeyIfNeeded itr.db itr.updates itr.ns itr.endKey itr.includeEndKey

variable {itr moved : CombinedIterator} {selectedItem : VersionedKV}

theorem combine_of_select (selected : itr.select = some (selectedItem, moved)) :
    combine itr.dbItems itr.updatesItems = serve selectedItem (combine moved.dbItems moved.updatesItems) ∧
      moved = { itr with dbItems := moved.dbItems, updatesItems := moved.updatesItems } := by
  unfold select at selected
  split at selected
  · exact nomatch selected
  next dbs updates =>
    cases selected
    simp [dbs, updates, combine, nextFrom]
  next dbs updates =>
    cases selected
    simp [dbs, updates, combine]
  next dbs updates =>
    rw [dbs, updates, combine, nextFrom]
    split at selected
    next less =>
      cases selected
      simp [less, updates]
    next notLess =>
      split at selected
      next same =>
        cases selected
        simp [same]
      next different =>
        cases selected
        simp [notLess, different, dbs, combine]

theorem remaining_of_select
    (selected : itr.select = some (selectedItem, moved)) : itr.remaining = serve selectedItem moved.remaining := by
  obtain ⟨combined, same⟩ := combine_of_select selected
  rw [remaining, remaining, combined, same, serve, serve]
  split <;> rfl

theorem items_of_select_none (finished : itr.select = none) : itr.dbItems = [] ∧ itr.updatesItems = [] := by
  unfold select at finished
  grind

/-- A call of `Next` returns the first of the remaining items. -/
theorem next_eq (itr : CombinedIterator) :
    itr.next.1 = itr.remaining.head? ∧ itr.next.2.remaining = itr.remaining.tail := by
  fun_induction next itr with
  | case1 itr finished =>
    obtain ⟨dbs, updates⟩ := items_of_select_none finished
    obtain ⟨ns, db, batch, endKey, includeEndKey, _, _, endKeyServed⟩ := itr
    subst dbs updates
    cases includeEndKey <;> cases endKeyServed <;> cases found : overlay db batch ns endKey <;>
      simp [remaining, combine, serveEndKeyIfNeeded, serveEndKeyIfNeeded_eq, found]
  | case2 itr selectedItem moved selected deleted ih =>
    rw [remaining_of_select selected, serve, if_pos deleted]
    exact ih
  | case3 itr selectedItem moved selected kept =>
    rw [remaining_of_select selected, serve, if_neg kept]
    exact ⟨rfl, rfl⟩

theorem delivers_iff {items : List VersionedKV} : itr.Delivers items ↔ items = itr.remaining := by
  constructor
  · intro delivers
    induction delivers with
    | @done itr last =>
      rw [(next_eq itr).1, List.head?_eq_none_iff] at last
      exact last.symm
    | @more itr item items returned later ih =>
      rw [(next_eq itr).1] at returned
      rw [ih, (next_eq itr).2]
      exact (List.eq_cons_of_mem_head? returned).symm
  · rintro rfl
    generalize rest : itr.remaining = items
    induction items generalizing itr with
    | nil => exact .done (by rw [(next_eq itr).1, rest]; rfl)
    | cons item items ih =>
      refine .more (by rw [(next_eq itr).1, rest]; rfl) (ih ?_)
      rw [(next_eq itr).2, rest]
      rfl

end CombinedIterator

theorem not_lt_empty (key : String) : ¬ key < "" := by
  exact not_lt_nil _

section Listing

variable (db : CommonStorageDB) (updates : UpdateBatch) (ns startKey endKey : String) (includeEndKey : Bool)

/-- The keys of the items increase, and the items are the keys of the range that the overlay has, with its values. -/
structure ListsOverlay (items : List VersionedKV) : Prop where
  ascending : Ascending items
  exact : ∀ key value version, (∃ metadata, (key, ⟨value, metadata, version⟩) ∈ items) ↔
      (∃ metadata, overlay db updates ns key = some ⟨value, metadata, version⟩) ∧
        (startKey ≤ key ∧ (endKey = "" ∨ key < endKey) ∨ includeEndKey = true ∧ key = endKey)

theorem combinedIterator_eq : combinedIterator db updates ns startKey endKey includeEndKey =
      combinedRange db updates ns startKey endKey ++ if includeEndKey then
    ((overlay db updates ns endKey).map fun vv => (endKey, ⟨vv.value, none, vv.version⟩)).toList else [] := by
  rw [combinedIterator, ← combinedRange, serveEndKeyIfNeeded_eq]

theorem mem_combinedIterator (key : String) (value : Option Bytes) (version : Height) :
    (∃ metadata, (key, ⟨value, metadata, version⟩) ∈ combinedIterator db updates ns startKey endKey includeEndKey) ↔
    (∃ metadata, overlay db updates ns key = some ⟨value, metadata, version⟩) ∧
    (startKey ≤ key ∧ (endKey = "" ∨ key < endKey) ∨ includeEndKey = true ∧ key = endKey) := by
  simp only [combinedIterator_eq, mem_append, mem_combinedRange]
  cases includeEndKey with
  | false => grind
  | true =>
    cases found : overlay db updates ns endKey with
    | none => grind
    | some vv =>
      obtain ⟨value', metadata', version'⟩ := vv
      by_cases last : key = endKey
      · subst last
        grind
      · grind

theorem ascending_combinedIterator_iff : Ascending (combinedIterator db updates ns startKey endKey includeEndKey) ↔
      ¬ (includeEndKey = true ∧ endKey = "" ∧ (overlay db updates ns "").isSome ∧
        ∃ key, startKey ≤ key ∧ (overlay db updates ns key).isSome) := by
  have inRange := ascending_combinedRange db updates ns startKey endKey
  have ends (item : VersionedKV) (same : item.1 = endKey) :
      Ascending (combinedRange db updates ns startKey endKey ++ [item]) ↔
        ¬ (endKey = "" ∧ ∃ key, startKey ≤ key ∧ (overlay db updates ns key).isSome) := by
    rw [Ascending, pairwise_append]
    constructor
    · rintro ⟨_, _, below⟩ ⟨rfl, key, started, present⟩
      obtain ⟨vv, found⟩ := Option.isSome_iff_exists.mp present
      have less := below (key, vv) ((mem_combinedRange ..).mpr ⟨found, started, .inl rfl⟩) item (by simp)
      exact not_lt_empty key (same ▸ less)
    · refine fun bounded => ⟨inRange, pairwise_singleton _ _, ?_⟩
      intro entry member other single
      obtain ⟨found, started, last⟩ := (mem_combinedRange ..).mp member
      rw [mem_singleton.mp single, same]
      exact last.resolve_left fun unbounded => bounded ⟨unbounded, entry.1, started, by rw [found]; rfl⟩
  rw [combinedIterator_eq]
  cases includeEndKey with
  | false => simpa using inRange
  | true =>
    cases found : overlay db updates ns endKey with
    | none => grind
    | some vv =>
      grind

variable {db updates ns startKey endKey includeEndKey} in
theorem not_open_of_lists {items : List VersionedKV}
    (delivers : (newCombinedIterator db updates ns startKey endKey includeEndKey).Delivers items)
    (lists : ListsOverlay db updates ns startKey endKey includeEndKey items) :
    ¬ (includeEndKey = true ∧ endKey = "" ∧ (overlay db updates ns "").isSome ∧
      ∃ key, startKey ≤ key ∧ (overlay db updates ns key).isSome) := by
  rw [← ascending_combinedIterator_iff]
  obtain rfl := delivers_iff.mp delivers
  exact lists.ascending

/-- The iterator lists the overlay unless the range is open, the end key is asked for and the empty key is present,
which is then returned behind the other keys. -/
theorem combinedIterator_lists_overlay_iff :
    (∃ items, (newCombinedIterator db updates ns startKey endKey includeEndKey).Delivers items ∧
        ListsOverlay db updates ns startKey endKey includeEndKey items) ↔
      ¬ (includeEndKey = true ∧ endKey = "" ∧ (overlay db updates ns "").isSome ∧
        ∃ key, startKey ≤ key ∧ (overlay db updates ns key).isSome) := by
  constructor
  · rintro ⟨items, delivers, lists⟩
    exact not_open_of_lists delivers lists
  · intro bounded
    exact ⟨_, delivers_iff.mpr rfl, (ascending_combinedIterator_iff ..).mpr bounded,
      mem_combinedIterator _ _ _ _ _ _⟩

end Listing

/-- A batch with a value for the empty key, which is returned twice for an open range with its end key. -/
theorem combinedIterator_repeats_empty_key : ¬ ∃ items, (newCombinedIterator .newCommonStorageDB
    (UpdateBatch.newUpdateBatch.update "cc" "" ⟨some [1], none, ⟨1, 0⟩⟩) "cc" "" "" true).Delivers items ∧
      ListsOverlay .newCommonStorageDB (UpdateBatch.newUpdateBatch.update "cc" "" ⟨some [1], none, ⟨1, 0⟩⟩)
        "cc" "" "" true items := by
  rintro ⟨items, delivers, lists⟩
  exact not_open_of_lists delivers lists ⟨rfl, rfl, rfl, "", le_rfl, rfl⟩

end Pobl.Txmgmt
