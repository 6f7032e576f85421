/-
This file gives the replay of a log of writes and tells which write of a key survives.
A log entry assigns values to some keys.
-/

import Mathlib.Data.List.Induction

namespace Pobl.Library.Replay

open List

variable {Key Value : Type*} {log : List (Key → Option Value)} {entry : Key → Option Value} {key : Key} {value : Value}

/-- The entry overwrites the keys that it assigns. -/
def write (state entry : Key → Option Value) : Key → Option Value :=
  fun key => (entry key).or (state key)

/-- The replay writes the entries in order into the empty state. -/
def replay (log : List (Key → Option Value)) : Key → Option Value := log.foldl write fun _ => none

theorem replay_append (first second : List (Key → Option Value)) :
    replay (first ++ second) = second.foldl write (replay first) := foldl_append

/-- The last item whose entry assigns a key decides it. -/
theorem replay_map_eq {Item : Type*} (entry : Item → Key → Option Value) (items : List Item) (key : Key) :
    replay (items.map entry) key = items.reverse.findSome? fun item => entry item key := by
  induction items using reverseRecOn with
  | nil => rfl
  | append_singleton rest item ih =>
    rw [map_append, replay_append, reverse_append, reverse_singleton, singleton_append, findSome?_cons, ← ih]
    change (entry item key).or _ = _
    cases entry item key <;> rfl

/-- The entries overwrite the keys that their replay assigns. -/
theorem foldl_write_apply (log : List (Key → Option Value)) (state : Key → Option Value) (key : Key) :
    log.foldl write state key = (replay log key).or (state key) := by
  induction log generalizing state with
  | nil => rfl
  | cons entry rest ih =>
    change rest.foldl write (write state entry) key = (rest.foldl write (write _ entry) key).or _
    rw [ih, ih]
    simp only [write, Option.or_none, Option.or_assoc]

/-- The replay of the images is the image of the replay. -/
theorem replay_map {Image : Type*} (image : Value → Image) (log : List (Key → Option Value)) (key : Key) :
    replay (log.map fun entry key => (entry key).map image) key = (replay log key).map image := by
  induction log using reverseRecOn with
  | nil => rfl
  | append_singleton rest entry ih =>
    rw [map_append, replay_append, replay_append]
    change ((entry key).map image).or _ = ((entry key).or _).map image
    rw [ih, Option.map_or]

/-- A value stays while no entry assigns another value to its key. -/
theorem foldl_write_same {state : Key → Option Value} (before : state key = some value)
    (same : ∀ entry ∈ log, ∀ other, entry key = some other → other = value) :
    log.foldl write state key = some value := by
  induction log generalizing state with
  | nil => exact before
  | cons entry rest ih =>
    refine ih ?_ fun later member => same later (mem_cons_of_mem _ member)
    unfold write
    cases assigned : entry key with
    | none => exact before
    | some other => exact congrArg some (same entry mem_cons_self other assigned)

/-- The entry at a position decides a key when no later entry assigns another value. -/
theorem replay_unshadowed {position : Nat} (found : log[position]? = some entry) (assigns : entry key = some value)
    (later : ∀ index entry, position < index → log[index]? = some entry →
      ∀ other, entry key = some other → other = value) : replay log key = some value := by
  obtain ⟨inside, rfl⟩ := List.getElem?_eq_some_iff.mp found
  have split : log = log.take (position + 1) ++ log.drop (position + 1) := (take_append_drop _ _).symm
  rw [split, replay_append]
  apply foldl_write_same
  · rw [take_succ_eq_append_getElem inside, replay_append]
    change (log[position] key).or _ = _
    rw [assigns, Option.some_or]
  · intro entry member other assigned
    obtain ⟨index, lookup⟩ := List.mem_iff_getElem?.mp member
    rw [List.getElem?_drop] at lookup
    exact later (position + 1 + index) entry (by omega) lookup other assigned

/-- A key that some entry assigns has a value. -/
theorem replay_isSome (member : entry ∈ log) (assigns : (entry key).isSome) : (replay log key).isSome := by
  have kept : ∀ (rest : List (Key → Option Value)) (state : Key → Option Value), (state key).isSome →
      (rest.foldl write state key).isSome := by
    intro rest
    induction rest with
    | nil => exact fun _ before => before
    | cons other rest ih =>
      intro state before
      apply ih
      unfold write
      rw [Option.isSome_or, before, Bool.or_true]
  obtain ⟨first, second, rfl⟩ := append_of_mem member
  rw [replay_append, foldl_cons]
  apply kept
  unfold write
  rw [Option.isSome_or, assigns, Bool.true_or]

/-- A key of the replay comes from some entry. -/
theorem exists_entry_of_replay (found : replay log key = some value) : ∃ entry ∈ log, entry key = some value := by
  induction log using reverseRecOn with
  | nil => cases found
  | append_singleton rest entry ih =>
    rw [replay_append] at found
    change (entry key).or (replay rest key) = _ at found
    cases assigned : entry key with
    | none =>
      rw [assigned, Option.none_or] at found
      obtain ⟨earlier, member, same⟩ := ih found
      exact ⟨earlier, mem_append_left _ member, same⟩
    | some other =>
      rw [assigned, Option.some_or] at found
      exact ⟨entry, mem_append_right _ mem_cons_self, assigned.trans found⟩

end Pobl.Library.Replay
