/-
This file shows what the levels of the Merkle tree hold while results are added.
The trees are taken as their own hashes.
-/

import Pobl.Construction.QueryResults
import Pobl.Library.HashTree

namespace Pobl.Txmgmt.MerkleTree

open Library HashTree List

variable {Result Hash : Type} {maxDegree : UInt32} {levels : List (List (HashTree Result))}

/-- The hashes that cannot collide are the trees. -/
def trees : Hashing Result (HashTree Result) := ⟨.leaf, .node⟩

/-- The hashes at the last level. -/
def top {Hash : Type} (levels : List (List Hash)) : List Hash := levels.getLast?.getD []

@[simp] theorem top_singleton (hashes : List Hash) : top [hashes] = hashes := rfl

@[simp] theorem top_cons_cons (hashes next : List Hash) (higher : List (List Hash)) :
    top (hashes :: next :: higher) = top (next :: higher) := by
  simp [top]

theorem top_cons (hashes : List Hash) {higher : List (List Hash)} (present : higher ≠ []) :
    top (hashes :: higher) = top higher := by
  obtain ⟨next, rest, rfl⟩ := exists_cons_of_ne_nil present
  exact top_cons_cons hashes next rest

theorem addHash_ne_nil (hashing : Hashing Result Hash) (maxDegree : UInt32) (hash : Hash)
    (levels : List (List Hash)) : addHash hashing maxDegree hash levels ≠ [] := by
  cases levels with
  | nil => exact cons_ne_nil _ _
  | cons hashes higher =>
      simp only [addHash]
      split <;> exact cons_ne_nil _ _

/-- The results below the levels, the highest level first. -/
def contents : List (List (HashTree Result)) → List Result
  | [] => []
  | hashes :: higher => contents higher ++ itemsAll hashes

/-- No level has more hashes than the degree. -/
def Bounded (maxDegree : UInt32) (levels : List (List (HashTree Result))) : Prop :=
  ∀ hashes ∈ levels, hashes.length ≤ maxDegree.toNat

/-- The hashes at each level are full trees of that height. -/
def Leveled (maxDegree : UInt32) : Nat → List (List (HashTree Result)) → Prop
  | _, [] => True
  | height, hashes :: higher =>
      (∀ tree ∈ hashes, Full (maxDegree.toNat + 1) height tree) ∧ Leveled maxDegree (height + 1) higher

/-- The last level is kept, or gets one more hash, or is replaced by one hash at a new level. -/
inductive Grown (maxDegree : UInt32) (before after : List (List (HashTree Result))) : Prop
  | kept (sameLevel : after.length = before.length) (sameTop : top after = top before)
  | extended (sameLevel : after.length = before.length) (tree : HashTree Result)
      (longer : top after = top before ++ [tree])
  | raised (nextLevel : after.length = before.length + 1) (full : (top before).length = maxDegree.toNat)
      (tree : HashTree Result) (single : top after = [tree])

/-- A degree that leaves room for one more hash can be compared without overflow. -/
theorem ofNat_le_iff (room : maxDegree.toNat + 1 < 2 ^ 32) {length : Nat} (short : length ≤ maxDegree.toNat + 1) :
    UInt32.ofNat length ≤ maxDegree ↔ length ≤ maxDegree.toNat := by
  rw [UInt32.le_iff_toNat_le, UInt32.toNat_ofNat', Nat.mod_eq_of_lt (Nat.lt_of_le_of_lt short room)]

theorem contents_addHash (tree : HashTree Result) :
    contents (addHash trees maxDegree tree levels) = contents levels ++ tree.items := by
  induction levels generalizing tree with
  | nil => simp [addHash, contents]
  | cons hashes higher ih =>
      simp only [addHash]
      split
      · simp [contents]
      · rw [contents, contents, ih]
        simp [trees]

section

variable (room : maxDegree.toNat + 1 < 2 ^ 32) (bounded : Bounded maxDegree levels)

include room bounded

theorem bounded_addHash (positive : 1 ≤ maxDegree.toNat) (tree : HashTree Result) :
    Bounded maxDegree (addHash trees maxDegree tree levels) := by
  induction levels generalizing tree with
  | nil => simpa [addHash, Bounded] using positive
  | cons hashes higher ih =>
      obtain ⟨short, later⟩ := forall_mem_cons.mp bounded
      simp only [addHash]
      split
      next fits =>
        rw [ofNat_le_iff room (by simpa using short)] at fits
        exact forall_mem_cons.mpr ⟨fits, later⟩
      next => exact forall_mem_cons.mpr ⟨Nat.zero_le _, ih later _⟩

theorem leveled_addHash {height : Nat} (leveled : Leveled maxDegree height levels) {tree : HashTree Result}
    (full : Full (maxDegree.toNat + 1) height tree) :
    Leveled maxDegree height (addHash trees maxDegree tree levels) := by
  induction levels generalizing tree height with
  | nil => simpa [addHash, Leveled] using full
  | cons hashes higher ih =>
      obtain ⟨short, later⟩ := forall_mem_cons.mp bounded
      have allFull : ∀ child ∈ hashes ++ [tree], Full (maxDegree.toNat + 1) height child := by
        simpa [or_imp, forall_and] using ⟨leveled.1, full⟩
      simp only [addHash]
      split
      next => exact ⟨allFull, leveled.2⟩
      next exceeds =>
        rw [ofNat_le_iff room (by simpa using short), length_append, length_singleton] at exceeds
        refine ⟨by simp, ih later leveled.2 ⟨?_, allFull⟩⟩
        rw [length_append, length_singleton]
        omega

theorem grown_addHash (nonempty : levels ≠ []) (tree : HashTree Result) :
    Grown maxDegree levels (addHash trees maxDegree tree levels) := by
  induction levels generalizing tree with
  | nil => exact absurd rfl nonempty
  | cons hashes higher ih =>
      obtain ⟨short, later⟩ := forall_mem_cons.mp bounded
      simp only [addHash]
      split
      next =>
        cases higher with
        | nil => exact .extended rfl tree rfl
        | cons next higher => exact .kept rfl (by simp)
      next exceeds =>
        rw [ofNat_le_iff room (by simpa using short), length_append, length_singleton] at exceeds
        cases higher with
        | nil => exact .raised rfl (by simpa using Nat.le_antisymm short (by omega)) _ rfl
        | cons next higher =>
            have passed := top_cons ([] : List (HashTree Result))
              (addHash_ne_nil trees maxDegree (trees.computeCombinedHash (hashes ++ [tree])) (next :: higher))
            cases ih later (by simp) (trees.computeCombinedHash (hashes ++ [tree])) with
            | kept sameLevel sameTop => exact .kept (by simpa using sameLevel) (by rw [passed, sameTop, top_cons_cons])
            | extended sameLevel child longer =>
                exact .extended (by simpa using sameLevel) child (by rw [passed, longer, top_cons_cons])
            | raised nextLevel full child single =>
                exact .raised (by simpa using nextLevel) (by rw [top_cons_cons, full]) child (by rw [passed, single])

end

theorem itemsAll_joinHashes (hashes : List (HashTree Result)) :
    itemsAll (joinHashes trees hashes).toList = itemsAll hashes := by
  match hashes with
  | [] => rfl
  | [tree] => rfl
  | first :: second :: more => simp [joinHashes, trees]

theorem joinLevels_ne_nil (hashing : Hashing Result Hash) (maxDegree : UInt32) (carried : Option Hash)
    {levels : List (List Hash)} (nonempty : levels ≠ []) : joinLevels hashing maxDegree carried levels ≠ [] := by
  match levels with
  | [] => exact absurd rfl nonempty
  | [hashes] =>
      simp only [joinLevels]
      split <;> exact cons_ne_nil _ _
  | hashes :: next :: higher => exact cons_ne_nil _ _

/-- The hashes of the completed tree stand for all results. They extend the last level, or stand one above it. -/
theorem joinLevels_spec (room : maxDegree.toNat + 1 < 2 ^ 32) (positive : 1 ≤ maxDegree.toNat)
    (bounded : Bounded maxDegree levels) (nonempty : levels ≠ []) (carried : Option (HashTree Result)) :
    itemsAll (top (joinLevels trees maxDegree carried levels)) = contents levels ++ itemsAll carried.toList ∧
      (top (joinLevels trees maxDegree carried levels)).length ≤ maxDegree.toNat ∧
      ((joinLevels trees maxDegree carried levels).length = levels.length ∧
          top levels <+: top (joinLevels trees maxDegree carried levels) ∨
        (joinLevels trees maxDegree carried levels).length = levels.length + 1) := by
  induction levels generalizing carried with
  | nil => exact absurd rfl nonempty
  | cons hashes higher ih =>
      obtain ⟨short, later⟩ := forall_mem_cons.mp bounded
      cases higher with
      | nil =>
          have length : (hashes ++ carried.toList).length ≤ maxDegree.toNat + 1 := by
            have one : carried.toList.length ≤ 1 := by cases carried <;> simp
            rw [length_append]
            omega
          have fits := ofNat_le_iff room length
          simp only [joinLevels]
          split
          next exceeds => simpa [contents, trees, top] using positive
          next enough =>
            rw [UInt32.not_lt, fits] at enough
            simpa [contents] using enough
      | cons next higher =>
          obtain ⟨items, few, level⟩ := ih later (by simp) (joinHashes trees (hashes ++ carried.toList))
          have passed : top (joinLevels trees maxDegree carried (hashes :: next :: higher)) =
              top (joinLevels trees maxDegree (joinHashes trees (hashes ++ carried.toList)) (next :: higher)) :=
            top_cons [] (joinLevels_ne_nil trees maxDegree _ (by simp))
          rw [passed, items, itemsAll_joinHashes, top_cons_cons]
          refine ⟨by simp [contents], few, ?_⟩
          rw [joinLevels, length_cons, length_cons, Nat.add_right_cancel_iff, Nat.add_right_cancel_iff]
          exact level

section Sizes

variable {height : Nat}

theorem length_itemsAll_of_full {hashes : List (HashTree Result)}
    (full : ∀ tree ∈ hashes, Full (maxDegree.toNat + 1) height tree) :
    (itemsAll hashes).length = hashes.length * (maxDegree.toNat + 1) ^ (height + 1) :=
  length_itemsAll fun tree member => length_items_of_full (full tree member)

section

variable (bounded : Bounded maxDegree levels) (leveled : Leveled maxDegree height levels) (nonempty : levels ≠ [])

include bounded leveled nonempty

/-- The number of results is the one whose digits are the lengths of the levels. -/
theorem contents_bounds {lower : Nat} (small : lower < (maxDegree.toNat + 1) ^ (height + 1)) :
    (top levels).length * (maxDegree.toNat + 1) ^ (height + levels.length) ≤ (contents levels).length ∧
      (contents levels).length + lower <
        ((top levels).length + 1) * (maxDegree.toNat + 1) ^ (height + levels.length) := by
  induction levels generalizing height lower with
  | nil => exact absurd rfl nonempty
  | cons hashes higher ih =>
      obtain ⟨short, later⟩ := forall_mem_cons.mp bounded
      have size := length_itemsAll_of_full leveled.1
      cases higher with
      | nil =>
          simp only [contents, nil_append, size, top_singleton, length_singleton, Nat.add_mul, Nat.one_mul]
          omega
      | cons next higher =>
          have digit : lower + hashes.length * (maxDegree.toNat + 1) ^ (height + 1) <
              (maxDegree.toNat + 1) ^ (height + 1 + 1) := by
            have most := Nat.mul_le_mul_right ((maxDegree.toNat + 1) ^ (height + 1)) short
            rw [Nat.pow_succ _ (height + 1), Nat.mul_comm _ (maxDegree.toNat + 1), Nat.add_mul, Nat.one_mul]
            omega
          obtain ⟨least, most⟩ := ih later leveled.2 (by simp) digit
          rw [Nat.add_right_comm height 1, Nat.add_assoc height] at least most
          rw [contents, length_append, size, top_cons_cons, length_cons]
          omega

/-- If there are no results below the lower levels, the completed tree is the tree. -/
theorem joinLevels_of_contents (room : maxDegree.toNat + 1 < 2 ^ 32)
    (all : (contents levels).length = (top levels).length * (maxDegree.toNat + 1) ^ (height + levels.length)) :
    joinLevels trees maxDegree none levels = levels := by
  induction levels generalizing height with
  | nil => exact absurd rfl nonempty
  | cons hashes higher ih =>
      obtain ⟨short, later⟩ := forall_mem_cons.mp bounded
      have size := length_itemsAll_of_full leveled.1
      cases higher with
      | nil =>
          have fits : ¬ maxDegree < UInt32.ofNat hashes.length := by
            rw [UInt32.not_lt, ofNat_le_iff room (by omega)]
            exact short
          simp [joinLevels, fits]
      | cons next higher =>
          obtain ⟨least, _⟩ := contents_bounds later leveled.2 (by simp) (Nat.pow_pos (Nat.succ_pos _))
          rw [Nat.add_right_comm height 1, Nat.add_assoc height] at least
          rw [contents, length_append, size, top_cons_cons, length_cons] at all
          have none : hashes = [] := by
            have zero : hashes.length * (maxDegree.toNat + 1) ^ (height + 1) = 0 := by omega
            exact length_eq_zero_iff.mp ((Nat.mul_eq_zero.mp zero).resolve_right (Nat.pow_pos (Nat.succ_pos _)).ne')
          subst none
          rw [joinLevels, nil_append, Option.toList_none, joinHashes, ih later leveled.2 (by simp)]
          rw [Nat.add_right_comm height 1, Nat.add_assoc height]
          simpa using all

end

end Sizes

end Pobl.Txmgmt.MerkleTree
