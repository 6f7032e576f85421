/-
This file models the maps of the Go language with string keys.
The iteration order of a `range` statement is a parameter.
-/

import Mathlib.Data.List.AList

namespace Pobl.Library

/-- A Go map with string keys stores at most one value for each key. -/
abbrev GoMap (Value : Type) := AList (fun _ : String => Value)

/-- One entry of a Go map is a key with its value. -/
abbrev GoEntry (Value : Type) := Sigma (fun _ : String => Value)

namespace GoMap

variable {Value Source Key : Type}

theorem lookup_insert_apply [DecidableEq Key] (map : AList (fun _ : Key => Value)) (key query : Key)
    (value : Value) : (map.insert key value).lookup query = if query = key then some value else map.lookup query := by
  by_cases same : query = key
  · subst query
    simp
  · rw [if_neg same, AList.lookup_insert_ne same]

theorem lookup_erase_apply [DecidableEq Key] (map : AList (fun _ : Key => Value)) (key query : Key) :
    (map.erase key).lookup query = if query = key then none else map.lookup query := by
  by_cases same : query = key
  · subst query
    simp
  · rw [if_neg same, AList.lookup_erase_ne same]

section Inversion

variable {Key : Type} [DecidableEq Key] {map : AList (fun _ : Key => Value)} {key query : Key} {value found : Value}

theorem of_lookup_insert (lookup : (map.insert key value).lookup query = some found) :
    query = key ∧ value = found ∨ query ≠ key ∧ map.lookup query = some found := by
  rw [lookup_insert_apply] at lookup
  split at lookup
  next same => exact .inl ⟨same, Option.some.inj lookup⟩
  next other => exact .inr ⟨other, lookup⟩

theorem of_lookup_erase (lookup : (map.erase key).lookup query = some found) :
    query ≠ key ∧ map.lookup query = some found := by
  rw [lookup_erase_apply] at lookup
  split at lookup
  · cases lookup
  next other => exact ⟨other, lookup⟩

end Inversion

/-- The entries of a map are exactly its successful lookups. -/
theorem mem_entries_iff (map : GoMap Value) (entry : GoEntry Value) :
    entry ∈ map.entries ↔ map.lookup entry.1 = some entry.2 := by
  rw [← Option.mem_def, AList.mem_lookup_iff]

/-- A loop over the entries of a map acts on a key only by the entry of this key. -/
theorem lookup_foldl_at [DecidableEq Key] (source : AList fun _ : Key => Source)
    (step : (AList fun _ : Key => Value) → (Σ _ : Key, Source) → AList fun _ : Key => Value) (query : Key)
    (change : Source → Option Value → Option Value) (own : ∀ map entry, (step map entry).lookup query =
      if query = entry.1 then change entry.2 (map.lookup query) else map.lookup query)
    (map : AList fun _ : Key => Value) :
    (source.entries.foldl step map).lookup query =
      ((source.lookup query).map fun value => change value (map.lookup query)).getD (map.lookup query) := by
  have changed : ∀ entries : List (Σ _ : Key, Source), entries.NodupKeys → ∀ map : AList fun _ : Key => Value,
      (entries.foldl step map).lookup query =
        ((entries.dlookup query).map fun value => change value (map.lookup query)).getD (map.lookup query) := by
    intro entries distinct
    induction entries with
    | nil => exact fun map => rfl
    | cons entry rest ih =>
      intro map
      obtain ⟨absent, later⟩ := List.nodupKeys_cons.mp distinct
      rw [List.foldl_cons, ih later, own]
      by_cases same : query = entry.1
      · subst query
        rw [List.dlookup_eq_none.mpr absent, if_pos rfl, List.dlookup_cons_eq]
        rfl
      · rw [if_neg same, List.dlookup_cons_ne _ _ same]
  exact changed source.entries source.nodupKeys map

/-- A loop over the entries of a map that changes only the key of each entry changes exactly the keys of the map. -/
theorem lookup_foldl (source : GoMap Source) (step : GoMap Value → GoEntry Source → GoMap Value)
    (change : Source → Option Value → Option Value) (own : ∀ map entry query, (step map entry).lookup query =
      if query = entry.1 then change entry.2 (map.lookup query) else map.lookup query)
    (map : GoMap Value) (query : String) :
    (source.entries.foldl step map).lookup query =
      ((source.lookup query).map fun value => change value (map.lookup query)).getD (map.lookup query) :=
  lookup_foldl_at source step query change (fun map entry => own map entry query) map

/-- Merging the entries of one map into another changes exactly their keys. -/
theorem lookup_merge (source : GoMap Source) (merge : Source → Option Value → Value) (map : GoMap Value)
    (query : String) :
    (source.entries.foldl (fun map entry => map.insert entry.1 (merge entry.2 (map.lookup entry.1))) map).lookup query =
      ((source.lookup query).map fun value => merge value (map.lookup query)).or (map.lookup query) := by
  rw [lookup_foldl source _ (fun value old => some (merge value old))]
  · cases source.lookup query <;> rfl
  · intro map entry query
    rw [lookup_insert_apply]
    by_cases same : query = entry.1
    · rw [same]
    · rw [if_neg same, if_neg same]

end GoMap

/-- A range order gives the order in which each `range` statement visits a map.
The language fixes no order, so every permutation of the entries is possible. -/
structure RangeOrder (Site : Type) where
  visit : Site → {Value : Type} → List (GoEntry Value) → List (GoEntry Value)
  perm : ∀ (site : Site) {Value : Type} (entries : List (GoEntry Value)), (visit site entries).Perm entries

/-- This order visits the entries as they are stored. -/
def RangeOrder.stored (Site : Type) : RangeOrder Site where
  visit := fun _ _ entries => entries
  perm := fun _ _ _ => List.Perm.refl _

@[simp] theorem RangeOrder.visit_nil {Site Value : Type} (order : RangeOrder Site) (site : Site) :
    order.visit site ([] : List (GoEntry Value)) = [] :=
  List.perm_nil.mp (order.perm site [])

theorem RangeOrder.mem_visit {Site : Type} (order : RangeOrder Site) (site : Site) {Value : Type}
    (entries : List (GoEntry Value)) (entry : GoEntry Value) : entry ∈ order.visit site entries ↔ entry ∈ entries :=
  (order.perm site entries).mem_iff

end Pobl.Library
