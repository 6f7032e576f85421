/-
This file gives lists in which each item is judged by the items before it.
-/

import Mathlib.Data.List.Induction

namespace Pobl.Library

open List

variable {Item : Type*} {log : List Item} {holds : List Item → Item → Prop}

/-- Each item of the list meets the condition with the items before it. -/
def EachAfter (holds : List Item → Item → Prop) (log : List Item) : Prop :=
  ∀ position item, log[position]? = some item → holds (log.take position) item

theorem eachAfter_nil (holds : List Item → Item → Prop) : EachAfter holds [] := nofun

/-- A new item is judged by the whole list before it. -/
theorem eachAfter_concat (holds : List Item → Item → Prop) (log : List Item) (item : Item) :
    EachAfter holds (log ++ [item]) ↔ EachAfter holds log ∧ holds log item := by
  constructor
  · intro all
    refine ⟨fun position other found => ?_, ?_⟩
    · have inside := (List.getElem?_eq_some_iff.mp found).1
      have judged := all position other (by rw [List.getElem?_append_left inside]; exact found)
      rwa [take_append_of_le_length (Nat.le_of_lt inside)] at judged
    · have judged := all log.length item (by simp)
      rwa [take_left] at judged
  · rintro ⟨old, new⟩ position other found
    rw [List.getElem?_append] at found
    split at found
    next inside =>
      rw [take_append_of_le_length (Nat.le_of_lt inside)]
      exact old position other found
    next beyond =>
      rw [List.getElem?_singleton] at found
      split at found
      next first =>
        cases found
        have whole : position = log.length := by omega
        rw [whole, take_left]
        exact new
      · cases found

/-- The beginning of the list keeps its judgements. -/
theorem EachAfter.before {first : List Item} (all : EachAfter holds log)
    (starts : first <+: log) : EachAfter holds first := by
  obtain ⟨rest, rfl⟩ := starts
  intro position item found
  have inside := (List.getElem?_eq_some_iff.mp found).1
  have judged := all position item (by rw [List.getElem?_append_left inside]; exact found)
  rwa [take_append_of_le_length (Nat.le_of_lt inside)] at judged

theorem EachAfter.map {Image : Type*} {image : Item → Image} {holds : List Image → Image → Prop}
    (all : EachAfter (fun earlier item => holds (earlier.map image) (image item)) log) :
    EachAfter holds (log.map image) := by
  intro position item found
  rw [List.getElem?_map] at found
  obtain ⟨source, here, rfl⟩ := Option.map_eq_some_iff.mp found
  rw [← map_take]
  exact all position source here

/-- In a list with distinct names no item has the name of an earlier one. -/
theorem eachAfter_of_nodup {Name : Type*} {name : Item → Name}
    (distinct : (log.map name).Nodup) : EachAfter (fun earlier item => name item ∉ earlier.map name) log := by
  induction log using reverseRecOn with
  | nil => exact eachAfter_nil _
  | append_singleton rest item ih =>
    rw [map_append, nodup_append] at distinct
    refine (eachAfter_concat _ _ _).mpr ⟨ih distinct.1, fun listed => ?_⟩
    exact distinct.2.2 (name item) listed (name item) mem_cons_self rfl

/-- The kept items can be judged among themselves. -/
theorem EachAfter.filter {keep : Item → Bool}
    (all : EachAfter (fun earlier item => keep item = true → holds (earlier.filter keep) item) log) :
    EachAfter holds (log.filter keep) := by
  induction log using reverseRecOn with
  | nil => exact eachAfter_nil holds
  | append_singleton rest item ih =>
    obtain ⟨old, new⟩ := (eachAfter_concat _ _ _).mp all
    rw [filter_append]
    by_cases kept : keep item = true
    · rw [filter_cons_of_pos kept, filter_nil]
      exact (eachAfter_concat _ _ _).mpr ⟨ih old, new kept⟩
    · rw [filter_cons_of_neg kept, filter_nil, append_nil]
      exact ih old

end Pobl.Library
