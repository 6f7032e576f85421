import Mathlib.Data.List.Induction
import Pobl.Proof.RangeQuery.Levels

namespace Pobl.Txmgmt.MerkleTree

open Library HashTree RangeQueryResultsHelper List

variable {Result : Type} {maxDegree : UInt32}

/-- The helper after the results were added, with trees as hashes. -/
def helperAfter (maxDegree : UInt32) (results : List Result) : RangeQueryResultsHelper Result (HashTree Result) :=
  results.foldl (addResult trees) ⟨[], some ⟨[[]], maxDegree⟩, maxDegree⟩

def levelsAfter (maxDegree : UInt32) (results : List Result) : List (List (HashTree Result)) :=
  ((helperAfter maxDegree results).mt.map MerkleTree.levels).getD []

theorem helperAfter_concat (results : List Result) (result : Result) :
    helperAfter maxDegree (results ++ [result]) = addResult trees (helperAfter maxDegree results) result := by
  rw [helperAfter, helperAfter, foldl_append, foldl_cons, foldl_nil]

theorem levelsAfter_of_helper {results pending : List Result} {levels : List (List (HashTree Result))}
    (helper : helperAfter maxDegree results = ⟨pending, some ⟨levels, maxDegree⟩, maxDegree⟩) :
    levelsAfter maxDegree results = levels := by
  rw [levelsAfter, helper]
  rfl

/-- The levels hold all results but the pending ones, in full trees. -/
structure Built (maxDegree : UInt32) (results pending : List Result) (levels : List (List (HashTree Result))) :
    Prop where
  nonempty : levels ≠ []
  bounded : Bounded maxDegree levels
  leveled : Leveled maxDegree 0 levels
  present : levels = [[]] ∨ top levels ≠ []
  short : pending.length ≤ maxDegree.toNat
  all : contents levels ++ pending = results

section Building

variable {results pending : List Result} {levels : List (List (HashTree Result))}

theorem top_addHash_ne_nil (room : maxDegree.toNat + 1 < 2 ^ 32) (built : Built maxDegree results pending levels)
    (tree : HashTree Result) : top (addHash trees maxDegree tree levels) ≠ [] := by
  rcases built.present with empty | present
  · rw [empty]
    simp only [addHash]
    split <;> simp [top]
  · cases grown_addHash room built.bounded built.nonempty tree with
    | kept sameLevel sameTop => rwa [sameTop]
    | extended sameLevel child longer => simp [longer]
    | raised nextLevel full child single => simp [single]

/-- One more result stays pending, or the pending results become a full leaf. -/
theorem built_addResult (room : maxDegree.toNat + 1 < 2 ^ 32) (positive : 1 ≤ maxDegree.toNat)
    (built : Built maxDegree results pending levels) (result : Result) :
    ∃ pending' levels', addResult trees ⟨pending, some ⟨levels, maxDegree⟩, maxDegree⟩ result =
        ⟨pending', some ⟨levels', maxDegree⟩, maxDegree⟩ ∧
      Built maxDegree (results ++ [result]) pending' levels' ∧ Grown maxDegree levels levels' := by
  have short := built.short
  have length : (pending ++ [result]).length = pending.length + 1 := by simp
  have fits := ofNat_le_iff room (length.trans_le (Nat.add_le_add_right short 1))
  by_cases exceeds : maxDegree < UInt32.ofNat (pending ++ [result]).length
  · have leaf : Full (maxDegree.toNat + 1) 0 (.leaf (pending ++ [result])) := by
      rw [← UInt32.not_le, fits] at exceeds
      rw [Full]
      omega
    refine ⟨[], addHash trees maxDegree (.leaf (pending ++ [result])) levels, ?_, ?_, ?_⟩
    · simp only [addResult, exceeds, if_true]
      rfl
    · exact ⟨addHash_ne_nil _ _ _ _, bounded_addHash room built.bounded positive _,
        leveled_addHash room built.bounded built.leveled leaf, .inr (top_addHash_ne_nil room built _), Nat.zero_le _,
        by rw [contents_addHash, items_leaf, append_nil, ← append_assoc, built.all]⟩
    · exact grown_addHash room built.bounded built.nonempty _
  · refine ⟨pending ++ [result], levels, ?_, ?_, .kept rfl rfl⟩
    · simp only [addResult, exceeds, if_false]
    · rw [UInt32.not_lt, fits] at exceeds
      exact { built with short := exceeds, all := by rw [← append_assoc, built.all] }

end Building

section Degree

variable (room : maxDegree.toNat + 1 < 2 ^ 32) (positive : 1 ≤ maxDegree.toNat)

include room positive

theorem built_after (results : List Result) :
    ∃ pending, helperAfter maxDegree results = ⟨pending, some ⟨levelsAfter maxDegree results, maxDegree⟩, maxDegree⟩ ∧
      Built maxDegree results pending (levelsAfter maxDegree results) := by
  induction results using reverseRecOn with
  | nil =>
    exact ⟨[], rfl, cons_ne_nil _ _, by simp [Bounded, levelsAfter, helperAfter], ⟨by simp, trivial⟩, .inl rfl,
      Nat.zero_le _, rfl⟩
  | append_singleton results result ih =>
    obtain ⟨pending, helper, built⟩ := ih
    obtain ⟨pending', levels', added, builtNext, _⟩ := built_addResult room positive built result
    have next : helperAfter maxDegree (results ++ [result]) = ⟨pending', some ⟨levels', maxDegree⟩, maxDegree⟩ := by
      rw [helperAfter_concat, helper, added]
    rw [levelsAfter_of_helper next]
    exact ⟨pending', next, builtNext⟩

theorem grown_after (results : List Result) (result : Result) :
    Grown maxDegree (levelsAfter maxDegree results) (levelsAfter maxDegree (results ++ [result])) := by
  obtain ⟨pending, helper, built⟩ := built_after room positive results
  obtain ⟨pending', levels', added, _, grown⟩ := built_addResult room positive built result
  have next : helperAfter maxDegree (results ++ [result]) = ⟨pending', some ⟨levels', maxDegree⟩, maxDegree⟩ := by
    rw [helperAfter_concat, helper, added]
  rwa [levelsAfter_of_helper next]

/-- The last level only grows until a new level replaces it. -/
theorem top_prefix_of_prefix (results more : List Result) :
    (levelsAfter maxDegree results).length < (levelsAfter maxDegree (results ++ more)).length ∨
      (levelsAfter maxDegree results).length = (levelsAfter maxDegree (results ++ more)).length ∧
        top (levelsAfter maxDegree results) <+: top (levelsAfter maxDegree (results ++ more)) := by
  induction more using reverseRecOn with
  | nil => exact .inr (by simp)
  | append_singleton more result ih =>
    rw [← append_assoc]
    cases grown_after room positive (results ++ more) result with
    | kept sameLevel sameTop => rwa [sameLevel, sameTop]
    | extended sameLevel tree longer =>
      rw [sameLevel, longer]
      exact ih.imp_right fun same => ⟨same.1, same.2.trans (prefix_append _ _)⟩
    | raised nextLevel full tree single =>
      left
      omega

end Degree

section Length

variable {pending results : List Result} {levels : List (List (HashTree Result))} {level : Nat}

section

variable (built : Built maxDegree results pending levels)

include built

/-- The number of results bounds the number of levels and of hashes at the last one. -/
theorem Built.length_bounds : (top levels).length * (maxDegree.toNat + 1) ^ levels.length ≤ results.length ∧
      results.length < ((top levels).length + 1) * (maxDegree.toNat + 1) ^ levels.length := by
  have few : pending.length < (maxDegree.toNat + 1) ^ (0 + 1) := by
    have short := built.short
    simpa using Nat.lt_succ_of_le short
  have bounds := contents_bounds built.bounded built.leveled built.nonempty few
  rw [Nat.zero_add] at bounds
  rw [← built.all, length_append]
  omega

theorem Built.top_le : (top levels).length ≤ maxDegree.toNat := by
  have member : top levels ∈ levels := by
    rw [top, List.getLast?_eq_some_getLast built.nonempty]
    exact getLast_mem built.nonempty
  exact built.bounded _ member

/-- The number of levels is the number of digits of the number of results. -/
theorem Built.length_eq (positive : 1 ≤ maxDegree.toNat) (one : 1 ≤ level)
    (least : (maxDegree.toNat + 1) ^ level ≤ results.length)
    (most : results.length < (maxDegree.toNat + 1) ^ (level + 1)) : levels.length = level := by
  obtain ⟨lower, upper⟩ := built.length_bounds
  have short := built.short
  have wide : 0 < maxDegree.toNat + 1 := Nat.succ_pos _
  have fewer : ((top levels).length + 1) * (maxDegree.toNat + 1) ^ levels.length ≤
      (maxDegree.toNat + 1) ^ (levels.length + 1) := by
    rw [Nat.pow_succ, Nat.mul_comm]
    exact Nat.mul_le_mul_left _ (Nat.succ_le_succ built.top_le)
  rcases built.present with empty | present
  · have pendingOnly : results.length = pending.length := by simp [← built.all, empty, contents]
    have digit := Nat.pow_le_pow_right wide one
    rw [Nat.pow_one] at digit
    omega
  · have some : (maxDegree.toNat + 1) ^ levels.length ≤ results.length :=
      (Nat.le_mul_of_pos_left _ (length_pos_of_ne_nil present)).trans lower
    have base : 1 < maxDegree.toNat + 1 := Nat.lt_succ_of_le positive
    have above := (Nat.pow_lt_pow_iff_right base).mp (Nat.lt_of_le_of_lt some most)
    have below := (Nat.pow_lt_pow_iff_right base).mp (Nat.lt_of_le_of_lt least (Nat.lt_of_lt_of_le upper fewer))
    omega

end

/-- The levels of the completed tree. The pending results are one more leaf, which need not be full. -/
def completed (maxDegree : UInt32) (pending : List Result) (levels : List (List (HashTree Result))) :
    List (List (HashTree Result)) :=
  joinLevels trees maxDegree none (if pending = [] then levels else addHash trees maxDegree (.leaf pending) levels)

/-- The summary of the helper is nil if and only if nothing was hashed. -/
theorem done_eq (maxDegree : UInt32) (pending : List Result) (levels : List (List (HashTree Result))) :
    (RangeQueryResultsHelper.done trees ⟨pending, some ⟨levels, maxDegree⟩, maxDegree⟩).2 =
      if levels.length = 1 ∧ top levels = [] then none
      else some ⟨maxDegree, (completed maxDegree pending levels).length, top (completed maxDegree pending levels)⟩ := by
  have empty : (MerkleTree.mk levels maxDegree).isEmpty = decide (levels.length = 1 ∧ top levels = []) := by
    rw [Bool.eq_iff_iff, decide_eq_true_iff]
    simp [MerkleTree.isEmpty, maxLevel, maxLevelHashes, top]
  by_cases unhashed : levels.length = 1 ∧ top levels = []
  · simp [RangeQueryResultsHelper.done, empty, unhashed]
  · rw [decide_eq_false unhashed] at empty
    rw [if_neg unhashed]
    simp only [RangeQueryResultsHelper.done, empty]
    cases pending with
    | nil => rfl
    | cons result more => rfl

/-- A summary stands for the results, and its hashes extend the last level or stand above it. -/
structure Summarises (maxDegree : UInt32) (results : List Result) (levels : List (List (HashTree Result)))
    (merkle : QueryReadsMerkleSummary (HashTree Result)) : Prop where
  degree : merkle.maxDegree = maxDegree
  items : itemsAll merkle.maxLevelHashes = results
  few : merkle.maxLevelHashes.length ≤ maxDegree.toNat
  level : merkle.maxLevel = levels.length ∧ top levels <+: merkle.maxLevelHashes ∨ levels.length < merkle.maxLevel

section

variable (room : maxDegree.toNat + 1 < 2 ^ 32) (positive : 1 ≤ maxDegree.toNat)
  (built : Built maxDegree results pending levels)

include room positive built

theorem Built.summarises_completed : Summarises maxDegree results levels
      ⟨maxDegree, (completed maxDegree pending levels).length, top (completed maxDegree pending levels)⟩ := by
  by_cases settled : pending = []
  · rw [completed, if_pos settled]
    obtain ⟨items, few, level⟩ := joinLevels_spec room positive built.bounded built.nonempty none
    refine ⟨rfl, ?_, few, level.imp_right fun above => ?_⟩
    · rw [← built.all, settled]
      exact items
    · exact Nat.lt_of_lt_of_eq (Nat.lt_succ_self _) above.symm
  · rw [completed, if_neg settled]
    have bounded := bounded_addHash room built.bounded positive (.leaf pending)
    obtain ⟨items, few, level⟩ :=
      joinLevels_spec room positive bounded (addHash_ne_nil trees maxDegree (.leaf pending) levels) none
    rw [contents_addHash, items_leaf, built.all] at items
    refine ⟨rfl, by simpa using items, few, ?_⟩
    cases grown_addHash room built.bounded built.nonempty (.leaf pending) with
    | kept sameLevel sameTop =>
      rw [sameLevel, sameTop] at level
      exact level.imp_right fun above => Nat.lt_of_lt_of_eq (Nat.lt_succ_self _) above.symm
    | extended sameLevel tree longer =>
      rw [sameLevel, longer] at level
      refine level.imp (fun same => ⟨same.1, (prefix_append _ _).trans same.2⟩) fun above => ?_
      exact Nat.lt_of_lt_of_eq (Nat.lt_succ_self _) above.symm
    | raised nextLevel full tree single =>
      right
      change levels.length < (joinLevels trees maxDegree none _).length
      omega

/-- If the number of results is the degree times a power, the last level is full and there is nothing below it. -/
theorem Built.completed_of_length (one : 1 ≤ level)
    (length : results.length = maxDegree.toNat * (maxDegree.toNat + 1) ^ level) :
    levels.length = level ∧ (top levels).length = maxDegree.toNat ∧ completed maxDegree pending levels = levels := by
  have power : 0 < (maxDegree.toNat + 1) ^ level := Nat.pow_pos (Nat.succ_pos _)
  have digits : levels.length = level := by
    refine built.length_eq positive one ?_ ?_
    · rw [length]
      exact Nat.le_mul_of_pos_left _ positive
    · rw [length, Nat.pow_succ, Nat.mul_comm _ (maxDegree.toNat + 1)]
      exact Nat.mul_lt_mul_of_pos_right (Nat.lt_succ_self _) power
  obtain ⟨lower, upper⟩ := built.length_bounds
  rw [digits, length] at lower upper
  have full : (top levels).length = maxDegree.toNat :=
    Nat.le_antisymm (Nat.le_of_mul_le_mul_right lower power) (Nat.le_of_lt_succ (Nat.lt_of_mul_lt_mul_right upper))
  obtain ⟨least, _⟩ := contents_bounds built.bounded built.leveled built.nonempty (Nat.pow_pos (Nat.succ_pos _))
  have all := congrArg List.length built.all
  rw [length_append, length] at all
  rw [Nat.zero_add, digits, full] at least
  have settled : pending = [] := length_eq_zero_iff.mp (by omega)
  refine ⟨digits, full, ?_⟩
  rw [completed, if_pos settled]
  refine joinLevels_of_contents built.bounded built.leveled built.nonempty room ?_
  rw [Nat.zero_add, digits, full]
  omega

end

end Length

end Pobl.Txmgmt.MerkleTree
