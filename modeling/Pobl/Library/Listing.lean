/-
This file gives sorted listings of maps and of key ranges.
A listing is determined by its entries.
-/

import Mathlib.Data.List.Sort
import Pobl.Library.GoMap
import Mathlib.Data.String.Basic

namespace Pobl.Library

open List

section Ascending

variable {Key Item : Type} [LinearOrder Key] {listing : List (Key × Item)}

/-- The keys of a listing increase. -/
def Ascending (listing : List (Key × Item)) : Prop := listing.Pairwise fun first second => first.1 < second.1

theorem Ascending.nodup (ascending : Ascending listing) : listing.Nodup :=
  ascending.imp fun less same => absurd (congrArg Prod.fst same) (ne_of_lt less)

/-- Listings with the same entries are equal. -/
theorem Ascending.eq_of_mem_iff {first second : List (Key × Item)} (ascending : Ascending first)
    (ascending' : Ascending second) (same : ∀ entry, entry ∈ first ↔ entry ∈ second) : first = second := by
  refine List.Perm.eq_of_pairwise ?_ ascending ascending' ?_
  · exact fun entry entry' _ _ less greater => absurd (less.trans greater) (lt_irrefl _)
  · exact (perm_ext_iff_of_nodup ascending.nodup ascending'.nodup).mpr same

section

variable (ascending : Ascending listing)

include ascending

theorem Ascending.filter (keep : Key × Item → Bool) : Ascending (listing.filter keep) :=
  List.Pairwise.filter keep ascending

theorem Ascending.map {Image : Type}
    (image : Item → Image) : Ascending (listing.map fun entry => (entry.1, image entry.2)) :=
  pairwise_map.mpr ascending

/-- The entries before an entry are those with smaller keys. -/
theorem Ascending.mem_take_iff {index : Nat} {entry : Key × Item} (found : listing[index]? = some entry)
    (other : Key × Item) :
    other ∈ listing.take index ↔ other ∈ listing ∧ other.1 < entry.1 := by
  obtain ⟨inside, rfl⟩ := List.getElem?_eq_some_iff.mp found
  have split := (take_append_drop index listing).symm
  rw [drop_eq_getElem_cons inside] at split
  rw [split] at ascending
  obtain ⟨_, later, below⟩ := pairwise_append.mp ascending
  have above := (pairwise_cons.mp later).1
  constructor
  · exact fun member => ⟨mem_of_mem_take member, below other member _ mem_cons_self⟩
  · rintro ⟨member, less⟩
    rw [split, mem_append, mem_cons] at member
    rcases member with before | same | after
    · exact before
    · exact absurd less (same ▸ lt_irrefl _)
    · exact absurd less (above other after).asymm

/-- The entries below a bound come before the others. -/
theorem Ascending.takeWhile_and_dropWhile (bound : Key) :
    listing.takeWhile (fun entry => entry.1 < bound) = listing.filter (fun entry => entry.1 < bound) ∧
      listing.dropWhile (fun entry => entry.1 < bound) = listing.filter fun entry => bound ≤ entry.1 := by
  induction listing with
  | nil => exact ⟨rfl, rfl⟩
  | cons entry rest ih =>
    obtain ⟨least, later⟩ := pairwise_cons.mp ascending
    by_cases below : entry.1 < bound
    · simpa [below] using ih later
    · have above : ∀ other ∈ rest, bound ≤ other.1 := fun other member =>
        (not_lt.mp below).trans (least other member).le
      have kept : rest.filter (fun entry => bound ≤ entry.1) = rest := filter_eq_self.mpr (by simpa using above)
      simpa [below, not_lt.mp below, kept] using above

end

end Ascending

namespace GoMap

variable {Value : Type}

/-- The entries of a map in the order of their keys. -/
def sorted (map : GoMap Value) : List (String × Value) :=
  (map.keys.insertionSort (· ≤ ·)).filterMap fun key => (map.lookup key).map (key, ·)

/-- The entries between two keys. An empty end key stands for no bound. -/
def rangeScan (map : GoMap Value) (startKey endKey : String) : List (String × Value) :=
  let started := map.sorted.dropWhile fun entry => entry.1 < startKey
  if endKey = "" then started else started.takeWhile fun entry => entry.1 < endKey

theorem mem_sorted (map : GoMap Value) (entry : String × Value) :
    entry ∈ map.sorted ↔ map.lookup entry.1 = some entry.2 := by
  obtain ⟨key, value⟩ := entry
  simp only [sorted, mem_filterMap, mem_insertionSort, Option.map_eq_some_iff, Prod.mk.injEq]
  constructor
  · rintro ⟨_, _, _, found, rfl, rfl⟩
    exact found
  · intro found
    refine ⟨key, ?_, value, found, rfl, rfl⟩
    exact AList.lookup_isSome.mp (by rw [found]; rfl)

theorem ascending_sorted (map : GoMap Value) : Ascending map.sorted := by
  have strict : (map.keys.insertionSort (· ≤ ·)).Pairwise (· < ·) := by
    have distinct : (map.keys.insertionSort (· ≤ ·)).Nodup :=
      (perm_insertionSort (· ≤ ·) map.keys).nodup_iff.mpr map.keys_nodup
    refine ((pairwise_insertionSort (· ≤ ·) map.keys).and distinct).imp fun ordered => ?_
    exact lt_of_le_of_ne ordered.1 ordered.2
  refine List.Pairwise.filterMap _ ?_ strict
  intro key key' less entry found entry' found'
  obtain ⟨_, _, rfl⟩ := Option.map_eq_some_iff.mp found
  obtain ⟨_, _, rfl⟩ := Option.map_eq_some_iff.mp found'
  exact less

theorem rangeScan_eq_filter (map : GoMap Value) (startKey endKey : String) : map.rangeScan startKey endKey =
      map.sorted.filter fun entry => startKey ≤ entry.1 ∧ (endKey = "" ∨ entry.1 < endKey) := by
  have started := (map.ascending_sorted.takeWhile_and_dropWhile startKey).2
  rw [rangeScan, started]
  by_cases unbounded : endKey = ""
  · simp [unbounded]
  · rw [if_neg unbounded, ((map.ascending_sorted.filter _).takeWhile_and_dropWhile _).1, filter_filter]
    refine filter_congr fun entry _ => ?_
    rw [Bool.eq_iff_iff]
    simp only [Bool.and_eq_true, decide_eq_true_iff, unbounded, false_or, and_comm]

theorem ascending_rangeScan (map : GoMap Value) (startKey endKey : String) :
    Ascending (map.rangeScan startKey endKey) := by
  rw [rangeScan_eq_filter]
  exact map.ascending_sorted.filter _

theorem mem_rangeScan (map : GoMap Value) (startKey endKey : String) (entry : String × Value) :
    entry ∈ map.rangeScan startKey endKey ↔
      map.lookup entry.1 = some entry.2 ∧ startKey ≤ entry.1 ∧ (endKey = "" ∨ entry.1 < endKey) := by
  rw [rangeScan_eq_filter, mem_filter, mem_sorted, decide_eq_true_iff]

end GoMap

end Pobl.Library
