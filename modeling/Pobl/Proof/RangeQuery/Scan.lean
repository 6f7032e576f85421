import Pobl.Proof.RangeQuery.Summary

namespace Pobl.Txmgmt.MerkleTree

open Library HashTree RangeQueryResultsHelper List

variable {Result : Type} {maxDegree : UInt32} {inMerkle : QueryReadsMerkleSummary (HashTree Result)}

/-- The hashes over these results agree with the given summary as far as they go. -/
def Agrees (maxDegree : UInt32) (inMerkle : QueryReadsMerkleSummary (HashTree Result)) (results : List Result) : Prop :=
  (levelsAfter maxDegree results).length < inMerkle.maxLevel ∨
    (levelsAfter maxDegree results).length = inMerkle.maxLevel ∧
      top (levelsAfter maxDegree results) <+: inMerkle.maxLevelHashes

/-- The number of hashes that were compared. -/
def matchedAfter (maxDegree : UInt32) (inMerkle : QueryReadsMerkleSummary (HashTree Result)) (results : List Result) :
    Nat :=
  if (levelsAfter maxDegree results).length < inMerkle.maxLevel then 0
  else (top (levelsAfter maxDegree results)).length

theorem concat_prefix_iff {Item : Type} {first all : List Item} (begins : first <+: all) (next : Item) :
    first ++ [next] <+: all ↔ all[first.length]? = some next := by
  obtain ⟨rest, rfl⟩ := begins
  cases rest with
  | nil =>
    have longer : ¬ first ++ [next] <+: first := fun begins => by simpa using begins.length_le
    simp [longer]
  | cons item rest => simp [prefix_append_right_inj, cons_prefix_cons, eq_comm]

section Step

variable [DecidableEq (HashTree Result)] {merkle : QueryReadsMerkleSummary (HashTree Result)}

/-- A new hash is compared with the one at its place in the given summary. -/
theorem compareHashes_concat {first : List (HashTree Result)} {next : HashTree Result}
    (reached : inMerkle.maxLevel ≤ merkle.maxLevel) (longer : merkle.maxLevelHashes = first ++ [next]) :
    compareHashes inMerkle merkle first.length =
      if inMerkle.maxLevelHashes[first.length]? = some next then .ok (some (first.length + 1)) else .ok none := by
  rw [compareHashes, if_neg (Nat.not_lt.mpr reached), longer, if_neg (by simp)]
  by_cases more : inMerkle.maxLevelHashes.length < (first ++ [next]).length
  · have outside : inMerkle.maxLevelHashes[first.length]? = none := by
      simpa [Nat.lt_succ_iff] using more
    rw [if_pos more, outside, if_neg nofun]
  · have inside : first.length < inMerkle.maxLevelHashes.length := by simpa [Nat.succ_le_iff] using more
    rw [if_neg more, List.getElem?_concat_length, List.getElem?_eq_getElem inside]
    simp [eq_comm]

/-- The index of the next comparison lies outside the single hash of a new level. -/
theorem compareHashes_singleton {tree : HashTree Result} {matched : Nat}
    (reached : inMerkle.maxLevel ≤ merkle.maxLevel) (single : merkle.maxLevelHashes = [tree])
    (present : inMerkle.maxLevelHashes ≠ []) (more : 2 ≤ matched) :
    compareHashes inMerkle merkle matched = .error .indexOutOfRange := by
  have positive := length_pos_of_ne_nil present
  rw [compareHashes, if_neg (Nat.not_lt.mpr reached), single, length_singleton, if_neg (by omega),
    if_neg (by omega), List.getElem?_eq_none (by simpa using Nat.le_of_succ_le more)]

/-- While the hashes agree the comparison goes on. Then it fails, or it runs out of the hashes of a new level. -/
theorem compareHashes_after (room : maxDegree.toNat + 1 < 2 ^ 32) (two : 2 ≤ maxDegree.toNat)
    (present : inMerkle.maxLevelHashes ≠ []) {taken : List Result} (agrees : Agrees maxDegree inMerkle taken)
    (result : Result) :
    (Agrees maxDegree inMerkle (taken ++ [result]) ∧
        compareHashes inMerkle ⟨maxDegree, (levelsAfter maxDegree (taken ++ [result])).length,
            top (levelsAfter maxDegree (taken ++ [result]))⟩ (matchedAfter maxDegree inMerkle taken) =
          .ok (some (matchedAfter maxDegree inMerkle (taken ++ [result])))) ∨
      ¬ Agrees maxDegree inMerkle (taken ++ [result]) ∧
        compareHashes inMerkle ⟨maxDegree, (levelsAfter maxDegree (taken ++ [result])).length,
            top (levelsAfter maxDegree (taken ++ [result]))⟩ (matchedAfter maxDegree inMerkle taken) =
          if inMerkle.maxLevel < (levelsAfter maxDegree (taken ++ [result])).length then .error .indexOutOfRange
          else .ok none := by
  have grown := grown_after room (Nat.le_of_succ_le two) taken result
  unfold Agrees matchedAfter at *
  generalize levelsAfter maxDegree taken = before at *
  generalize levelsAfter maxDegree (taken ++ [result]) = after at *
  -- the next hash at the level of the summary
  have compared (first : List (HashTree Result)) (begins : first <+: inMerkle.maxLevelHashes) (tree : HashTree Result)
      (reached : after.length = inMerkle.maxLevel) (longer : top after = first ++ [tree]) :
      ((after.length < inMerkle.maxLevel ∨ after.length = inMerkle.maxLevel ∧ top after <+: inMerkle.maxLevelHashes) ∧
          compareHashes inMerkle ⟨maxDegree, after.length, top after⟩ first.length =
            .ok (some (if after.length < inMerkle.maxLevel then 0 else (top after).length))) ∨
        ¬ (after.length < inMerkle.maxLevel ∨
            after.length = inMerkle.maxLevel ∧ top after <+: inMerkle.maxLevelHashes) ∧
          compareHashes inMerkle ⟨maxDegree, after.length, top after⟩ first.length =
            if inMerkle.maxLevel < after.length then .error .indexOutOfRange else .ok none := by
    rw [compareHashes_concat reached.ge longer, longer, concat_prefix_iff begins, reached]
    by_cases same : inMerkle.maxLevelHashes[first.length]? = some tree <;> simp [same]
  rcases agrees with below | ⟨reached, begins⟩
  · rw [if_pos below]
    by_cases later : after.length < inMerkle.maxLevel
    · left
      refine ⟨.inl later, ?_⟩
      rw [compareHashes, if_pos later, if_pos later]
    · cases grown with
      | kept sameLevel sameTop => omega
      | extended sameLevel tree longer => omega
      | raised nextLevel full tree single =>
        exact compared [] nil_prefix tree (by omega) single
  · rw [if_neg (by omega)]
    cases grown with
    | kept sameLevel sameTop =>
      left
      rw [sameTop]
      refine ⟨.inr ⟨by omega, begins⟩, ?_⟩
      rw [compareHashes, if_neg (by simp only []; omega), if_pos rfl, if_neg (by omega)]
    | extended sameLevel tree longer => exact compared (top before) begins tree (by omega) longer
    | raised nextLevel full tree single =>
      right
      refine ⟨by omega, ?_⟩
      rw [if_pos (by omega)]
      exact compareHashes_singleton (by simp only []; omega) single present (by omega)

end Step

end Pobl.Txmgmt.MerkleTree
