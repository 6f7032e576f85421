/-
This file counts the places that an item holds in the open lists of a numbered family.
A release closes one list, and every item of the list loses its places there.
-/

import Mathlib.Algebra.BigOperators.Group.Finset.Basic
import Mathlib.Algebra.Order.BigOperators.Group.Finset

namespace Pobl.Library

variable {Item : Type*} [DecidableEq Item] {lists lists' : Nat → List Item} {closed closed' : Nat → Prop}
  {index bound : Nat} {item : Item}

open Classical in
/-- The number of places of the item in one list. A closed list counts as empty. -/
noncomputable def openPlaces (lists : Nat → List Item) (closed : Nat → Prop) (item : Item) (index : Nat) : Nat :=
  if closed index then 0 else (lists index).count item

/-- The number of places of the item in the lists below the bound that are not closed. -/
noncomputable def openCount (lists : Nat → List Item) (closed : Nat → Prop) (bound : Nat) (item : Item) : Nat :=
  ∑ index ∈ Finset.range bound, openPlaces lists closed item index

theorem openPlaces_of_closed (shut : closed index)
    (item : Item) : openPlaces lists closed item index = 0 := if_pos shut

theorem openPlaces_of_open (opened : ¬ closed index) (item : Item) :
    openPlaces lists closed item index = (lists index).count item := if_neg opened

theorem openPlaces_congr (sameList : lists' index = lists index) (sameClosed : closed' index ↔ closed index)
    (item : Item) : openPlaces lists' closed' item index = openPlaces lists closed item index := by
  unfold openPlaces
  rw [sameList, propext sameClosed]

/-- A sum that changes at one index changes by the difference there. -/
theorem sum_range_change (first second : Nat → Nat) (bound target : Nat) (below : target < bound)
    (same : ∀ index < bound, index ≠ target → second index = first index) :
    (∑ index ∈ Finset.range bound, second index) + first target =
    (∑ index ∈ Finset.range bound, first index) + second target := by
  have inside := Finset.mem_range.mpr below
  rw [← Finset.add_sum_erase _ second inside, ← Finset.add_sum_erase _ first inside]
  have rest : ∑ index ∈ (Finset.range bound).erase target, second index =
      ∑ index ∈ (Finset.range bound).erase target, first index := by
    apply Finset.sum_congr rfl
    intro index member
    obtain ⟨different, member⟩ := Finset.mem_erase.mp member
    exact same index (Finset.mem_range.mp member) different
  omega

/-- A release of one list removes exactly the places in this list. -/
theorem openCount_close (lists : Nat → List Item) (target : Nat) (below : target < bound) (opened : ¬ closed target)
    (shut : closed' target) (others : ∀ index < bound, index ≠ target → (closed' index ↔ closed index))
    (item : Item) :
    openCount lists closed' bound item + (lists target).count item = openCount lists closed bound item := by
  have changed := sum_range_change (openPlaces lists closed item) (openPlaces lists closed' item)
    bound target below (fun index inside different =>
      openPlaces_congr rfl (others index inside different) item)
  rw [openPlaces_of_open opened, openPlaces_of_closed shut] at changed
  exact changed

/-- An empty list holds no place, whether it is closed or not. -/
theorem openCount_empty (same : ∀ index < bound, (closed' index ↔ closed index) ∨ lists index = []) (item : Item) :
    openCount lists closed' bound item = openCount lists closed bound item := by
  apply Finset.sum_congr rfl
  intro index inside
  rcases same index (Finset.mem_range.mp inside) with sameClosed | empty
  · exact openPlaces_congr rfl sameClosed item
  · simp [openPlaces, empty]

/-- A new last item of an open list gains one place. -/
theorem openCount_push (target : Nat) (added : Item) (below : target < bound) (opened : ¬ closed target)
    (pushed : lists' target = lists target ++ [added])
    (others : ∀ index < bound, index ≠ target → lists' index = lists index) (item : Item) :
    openCount lists' closed bound item = openCount lists closed bound item + if added = item then 1 else 0 := by
  have changed := sum_range_change (openPlaces lists closed item) (openPlaces lists' closed item)
    bound target below (fun index inside different =>
      openPlaces_congr (others index inside different) Iff.rfl item)
  rw [openPlaces_of_open opened, openPlaces_of_open opened, pushed, List.count_append, List.count_singleton] at changed
  simp only [beq_iff_eq] at changed
  unfold openCount
  omega

/-- A new empty list adds no place. -/
theorem openCount_grow (sameLists : ∀ index < bound, lists' index = lists index)
    (sameClosed : ∀ index < bound, closed' index ↔ closed index) (empty : lists' bound = []) (item : Item) :
    openCount lists' closed' (bound + 1) item = openCount lists closed bound item := by
  have none : openPlaces lists' closed' item bound = 0 := by
    simp [openPlaces, empty]
  unfold openCount
  rw [Finset.sum_range_succ, none, Nat.add_zero]
  refine Finset.sum_congr rfl fun index inside => ?_
  have below := Finset.mem_range.mp inside
  exact openPlaces_congr (sameLists index below) (sameClosed index below) item

/-- A member of an open list holds a place. -/
theorem openCount_pos {target : Nat} (below : target < bound) (opened : ¬ closed target)
    (member : item ∈ lists target) : 0 < openCount lists closed bound item := by
  apply Finset.sum_pos'
  · intro index _
    exact Nat.zero_le _
  · refine ⟨target, Finset.mem_range.mpr below, ?_⟩
    rw [openPlaces_of_open opened]
    exact List.count_pos_iff.mpr member

/-- An item that holds a place is a member of some open list. -/
theorem exists_open_of_openCount_pos (holds : 0 < openCount lists closed bound item) :
    ∃ index < bound, ¬ closed index ∧ item ∈ lists index := by
  obtain ⟨index, inside, positive⟩ := Finset.exists_ne_zero_of_sum_ne_zero (Nat.pos_iff_ne_zero.mp holds)
  refine ⟨index, Finset.mem_range.mp inside, ?_⟩
  by_cases shut : closed index
  · exact absurd (openPlaces_of_closed shut item) positive
  · rw [openPlaces_of_open shut] at positive
    exact ⟨shut, List.count_pos_iff.mp (Nat.pos_of_ne_zero positive)⟩

end Pobl.Library
