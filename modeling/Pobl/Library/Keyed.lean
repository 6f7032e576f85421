/-
This file gives rules for folds whose items have keys.
An item changes only the part of the state that belongs to its key.
-/

import Mathlib.Data.List.Nodup

namespace Pobl.Library

open List

variable {State Item Key Observed : Type*} (step : State → Item → State) (key : Item → Key)
  (observe : State → Observed) {target : Key} {items : List Item}

/-- Items with other keys leave the part of a key alone. -/
theorem foldl_other_keys (others : ∀ state item, key item ≠ target → observe (step state item) = observe state)
    (absent : ∀ item ∈ items, key item ≠ target) (state : State) :
    observe (items.foldl step state) = observe state := by
  induction items generalizing state with
  | nil => rfl
  | cons item rest ih =>
    have first := others state item (absent item mem_cons_self)
    have later := ih (fun other member => absent other (mem_cons_of_mem _ member)) (step state item)
    exact later.trans first

/-- The only item with a key decides the part of this key. -/
theorem foldl_only_key (others : ∀ state item, key item ≠ target → observe (step state item) = observe state)
    (distinct : (items.map key).Nodup) {item : Item} (member : item ∈ items) (same : key item = target)
    (state : State) :
    ∃ before, observe before = observe state ∧ observe (items.foldl step state) = observe (step before item) := by
  induction items generalizing state with
  | nil => cases member
  | cons first rest ih =>
    obtain ⟨apart, distinctRest⟩ := nodup_cons.mp distinct
    rcases mem_cons.mp member with rfl | later
    · refine ⟨state, rfl, foldl_other_keys step key observe others ?_ (step state item)⟩
      intro other listed equal
      exact apart (mem_map.mpr ⟨other, listed, equal.trans same.symm⟩)
    · have different : key first ≠ target := by
        intro equal
        exact apart (mem_map.mpr ⟨item, later, same.trans equal.symm⟩)
      obtain ⟨before, kept, reached⟩ := ih distinctRest later (step state first)
      exact ⟨before, kept.trans (others state first different), reached⟩

section First

variable {Value : Type*} [DecidableEq Value] {value : Item → Option Value} {seen : List Value} {items : List Item}

/-- The first item for each value that is not in the list. -/
def firstBy (value : Item → Option Value) (seen : List Value) : List Item → List Item
  | [] => []
  | item :: items =>
    match value item with
    | none => firstBy value seen items
    | some found => if found ∈ seen then firstBy value seen items else item :: firstBy value (found :: seen) items

theorem nodup_firstBy : ((firstBy value seen items).map value).Nodup ∧
    ∀ found ∈ seen, some found ∉ (firstBy value seen items).map value := by
  induction items generalizing seen with
  | nil => simp [firstBy]
  | cons item items ih => grind [firstBy]

theorem exists_firstBy {found : Value} (fresh : found ∉ seen) (present : some found ∈ items.map value) :
    some found ∈ (firstBy value seen items).map value := by
  induction items generalizing seen with
  | nil => simp at present
  | cons item items ih => grind [firstBy]

/-- The values are compared in the same way through an injective function. -/
theorem firstBy_map {Other : Type*} [DecidableEq Other] {change : Value → Other} {values : List Value}
    (injective : ∀ first ∈ values, ∀ second ∈ values, change first = change second → first = second)
    (listed : ∀ item ∈ items, ∀ found ∈ value item, found ∈ values) (known : seen ⊆ values) :
    firstBy (fun item => (value item).map change) (seen.map change) items = firstBy value seen items := by
  induction items generalizing seen with
  | nil => rfl
  | cons item items ih =>
    simp only [mem_cons, forall_eq_or_imp] at listed
    have rest := fun seen known => @ih seen listed.2 known
    rw [firstBy, firstBy]
    cases found : value item with
    | none => exact rest seen known
    | some found' =>
      have inside := listed.1 found' found
      have same : change found' ∈ seen.map change ↔ found' ∈ seen := by grind
      simp only [Option.map_some, same, rest seen known, ← map_cons,
        rest (found' :: seen) (cons_subset.mpr ⟨inside, known⟩)]

end First

end Pobl.Library
