import Pobl.Proof.RangeQuery.Scan
import Pobl.Proof.RangeQuery.Transfer

namespace Pobl.Txmgmt

open Library HashTree RangeQueryResultsHelper MerkleTree List

variable {Result : Type} {maxDegree : UInt32}

/-- The simulated results fill the last level of their tree, and the delivered ones go on to fill the next. -/
def Overrun (maxDegree : UInt32) (simulated delivered : List Result) : Prop :=
  ∃ level, 1 ≤ level ∧ simulated.length = maxDegree.toNat * (maxDegree.toNat + 1) ^ level ∧ simulated <+: delivered ∧
    (maxDegree.toNat + 1) ^ (level + 1) ≤ delivered.length

namespace MerkleTree

section Scanning

variable [DecidableEq (HashTree Result)] {inMerkle : QueryReadsMerkleSummary (HashTree Result)}

/-- The validator takes all results while the hashes agree, or it ends at the first result after which they do not. -/
theorem scan_outcome (room : maxDegree.toNat + 1 < 2 ^ 32) (two : 2 ≤ maxDegree.toNat)
    (present : inMerkle.maxLevelHashes ≠ []) (results : List Result) {taken : List Result}
    (agrees : Agrees maxDegree inMerkle taken) :
    ((∀ later, later <+: results → Agrees maxDegree inMerkle (taken ++ later)) ∧
        validateHashesFrom trees inMerkle results (helperAfter maxDegree taken)
            (matchedAfter maxDegree inMerkle taken) =
          .ok (decide ((RangeQueryResultsHelper.done trees (helperAfter maxDegree (taken ++ results))).2 =
            some inMerkle))) ∨
      ∃ later result, later ++ [result] <+: results ∧ Agrees maxDegree inMerkle (taken ++ later) ∧
        ¬ Agrees maxDegree inMerkle (taken ++ later ++ [result]) ∧
        validateHashesFrom trees inMerkle results (helperAfter maxDegree taken)
            (matchedAfter maxDegree inMerkle taken) =
          if inMerkle.maxLevel < (levelsAfter maxDegree (taken ++ later ++ [result])).length then
            .error .indexOutOfRange
          else .ok false := by
  induction results generalizing taken with
  | nil =>
    left
    refine ⟨fun later begins => ?_, ?_⟩
    · rwa [prefix_nil.mp begins, append_nil]
    · rw [append_nil]
      rfl
  | cons result results ih =>
    obtain ⟨pending, helper, built⟩ := built_after room (Nat.le_of_succ_le two) (taken ++ [result])
    have summary : (helperAfter maxDegree (taken ++ [result])).getMerkleSummary =
        some ⟨maxDegree, (levelsAfter maxDegree (taken ++ [result])).length,
          top (levelsAfter maxDegree (taken ++ [result]))⟩ := by
      rw [helper]
      rfl
    rw [validateHashesFrom, ← helperAfter_concat]
    simp only [summary]
    rcases compareHashes_after room two present agrees result with ⟨next, compared⟩ | ⟨next, compared⟩
    · simp only [compared]
      rcases ih next with ⟨all, answer⟩ | ⟨later, last, begins, good, bad, answer⟩
      · left
        rw [append_cons taken result results]
        refine ⟨fun later begins => ?_, answer⟩
        rcases prefix_cons_iff.mp begins with rfl | ⟨rest, rfl, continues⟩
        · rwa [append_nil]
        · rw [append_cons]
          exact all rest continues
      · right
        refine ⟨result :: later, last, ?_, ?_, ?_, ?_⟩
        · simpa using begins
        · rwa [append_cons taken result later]
        · rwa [append_cons taken result later]
        · rwa [append_cons taken result later]
    · right
      refine ⟨[], result, by simp, by rwa [append_nil], by rwa [append_nil], ?_⟩
      rw [append_nil]
      simp only [compared]
      by_cases above : inMerkle.maxLevel < (levelsAfter maxDegree (taken ++ [result])).length <;>
        simp only [above, if_true, if_false]

end Scanning

section Sizes

variable {levels : List (List (HashTree Result))}

theorem itemsAll_top_prefix (levels : List (List (HashTree Result))) : itemsAll (top levels) <+: contents levels := by
  induction levels with
  | nil => exact nil_prefix
  | cons hashes higher ih =>
    cases higher with
    | nil => exact prefix_rfl
    | cons next higher =>
      exact ih.trans (prefix_append _ _)

theorem length_itemsAll_top {height : Nat} (leveled : Leveled maxDegree height levels) (nonempty : levels ≠ []) :
    (itemsAll (top levels)).length = (top levels).length * (maxDegree.toNat + 1) ^ (height + levels.length) := by
  induction levels generalizing height with
  | nil => exact absurd rfl nonempty
  | cons hashes higher ih =>
    cases higher with
    | nil => exact length_itemsAll_of_full leveled.1
    | cons next higher =>
      rw [top_cons_cons, ih leveled.2 (cons_ne_nil _ _), Nat.add_right_comm height 1, Nat.add_assoc height]
      rfl

end Sizes

section Summarising

variable {simulated delivered : List Result} {inMerkle : QueryReadsMerkleSummary (HashTree Result)}

/-- A summary is only made with a degree that is neither too small nor the largest number. -/
theorem degree_of_summarise (summarised : summarise trees maxDegree simulated = some inMerkle) :
    2 ≤ maxDegree.toNat ∧ maxDegree.toNat + 1 < 2 ^ 32 ∧
      (RangeQueryResultsHelper.done trees (helperAfter maxDegree simulated)).2 = some inMerkle := by
  by_cases small : maxDegree < 2
  · simp [summarise, newRangeQueryResultsHelper, newMerkleTree, small] at summarised
  · have done : (RangeQueryResultsHelper.done trees (helperAfter maxDegree simulated)).2 = some inMerkle := by
      simpa [summarise, newRangeQueryResultsHelper, newMerkleTree, helperAfter, small] using summarised
    refine ⟨UInt32.not_lt.mp small, ?_, done⟩
    by_contra large
    -- no number of pending results is larger than the degree
    have pending : helperAfter maxDegree simulated = ⟨simulated, some ⟨[[]], maxDegree⟩, maxDegree⟩ := by
      clear summarised done
      induction simulated using reverseRecOn with
      | nil => rfl
      | append_singleton results result ih =>
        have fits : ¬ maxDegree < UInt32.ofNat (results ++ [result]).length := by
          rw [UInt32.lt_iff_toNat_lt]
          have bound := (UInt32.ofNat (results ++ [result]).length).toNat_lt
          omega
        rw [helperAfter_concat, ih]
        simp only [addResult, fits, if_false]
    rw [pending, done_eq, if_pos ⟨rfl, rfl⟩] at done
    cases done

section Degree

variable (room : maxDegree.toNat + 1 < 2 ^ 32) (positive : 1 ≤ maxDegree.toNat) {first : List Result}

include room positive

theorem summarises_of_done
    (done : (RangeQueryResultsHelper.done trees (helperAfter maxDegree simulated)).2 = some inMerkle) :
    Summarises maxDegree simulated (levelsAfter maxDegree simulated) inMerkle ∧ inMerkle.maxLevelHashes ≠ [] := by
  obtain ⟨pending, helper, built⟩ := built_after room positive simulated
  rw [helper, done_eq] at done
  split at done
  · exact nomatch done
  next hashed =>
    have summary := built.summarises_completed room positive
    rw [Option.some.inj done] at summary
    refine ⟨summary, fun none => hashed ?_⟩
    rw [← summary.items, none]
    exact ⟨rfl, rfl⟩

/-- While the delivered results are simulated ones their hashes agree. -/
theorem Summarises.agrees (summary : Summarises maxDegree simulated (levelsAfter maxDegree simulated) inMerkle)
    (begins : first <+: simulated) : Agrees maxDegree inMerkle first := by
  obtain ⟨more, rfl⟩ := begins
  unfold Agrees
  rcases top_prefix_of_prefix room positive first more with lower | ⟨same, begins⟩
  · rcases summary.level with ⟨level, _⟩ | level <;> omega
  · rcases summary.level with ⟨level, longer⟩ | level
    · exact .inr ⟨by omega, begins.trans longer⟩
    · omega

/-- The hashes run out behind a summary that is full. -/
theorem overrun_of_raised (summary : Summarises maxDegree simulated (levelsAfter maxDegree simulated) inMerkle)
    {later : List Result} {result : Result} (agrees : Agrees maxDegree inMerkle later)
    (above : inMerkle.maxLevel < (levelsAfter maxDegree (later ++ [result])).length)
    (begins : later ++ [result] <+: delivered) : Overrun maxDegree simulated delivered := by
  obtain ⟨pending, _, built⟩ := built_after room positive later
  obtain ⟨_, _, builtNext⟩ := built_after room positive (later ++ [result])
  have grown := grown_after room positive later result
  unfold Agrees at agrees
  cases grown with
  | kept sameLevel sameTop => omega
  | extended sameLevel tree longer => omega
  | raised nextLevel full tree single =>
    obtain ⟨reached, matched⟩ := agrees.resolve_left (by omega)
    have few := summary.few
    have same : top (levelsAfter maxDegree later) = inMerkle.maxLevelHashes :=
      matched.eq_of_length_le (by omega)
    have items : itemsAll (top (levelsAfter maxDegree later)) = simulated := by rw [same, summary.items]
    have count := length_itemsAll_top built.leveled built.nonempty
    rw [items, full, Nat.zero_add] at count
    obtain ⟨least, _⟩ := builtNext.length_bounds
    rw [single, length_singleton, Nat.one_mul, nextLevel] at least
    refine ⟨_, length_pos_of_ne_nil built.nonempty, count, ?_, Nat.le_trans least begins.length_le⟩
    have front := itemsAll_top_prefix (levelsAfter maxDegree later)
    rw [items] at front
    exact front.trans (((prefix_append _ _).trans (Eq.subst built.all prefix_rfl)).trans
      ((prefix_append _ _).trans begins))

section

variable (done : (RangeQueryResultsHelper.done trees (helperAfter maxDegree simulated)).2 = some inMerkle)

include done

/-- The tree of the simulated results is full at its last level. -/
theorem top_of_length {level : Nat} (one : 1 ≤ level)
    (length : simulated.length = maxDegree.toNat * (maxDegree.toNat + 1) ^ level) :
    (levelsAfter maxDegree simulated).length = level ∧ inMerkle.maxLevel = level ∧
      inMerkle.maxLevelHashes = top (levelsAfter maxDegree simulated) ∧
      inMerkle.maxLevelHashes.length = maxDegree.toNat := by
  obtain ⟨pending, helper, built⟩ := built_after room positive simulated
  obtain ⟨digits, full, complete⟩ := built.completed_of_length room positive one length
  rw [helper, done_eq, complete] at done
  split at done
  · exact nomatch done
  · rw [← Option.some.inj done]
    exact ⟨digits, digits, rfl, full⟩

/-- Before the next level is reached the hashes agree. -/
theorem agrees_of_overrun (overrun : Overrun maxDegree simulated delivered) (begins : first <+: delivered)
    (low : (levelsAfter maxDegree first).length ≤ inMerkle.maxLevel) : Agrees maxDegree inMerkle first := by
  obtain ⟨level, one, length, front, _⟩ := overrun
  obtain ⟨summary, _⟩ := summarises_of_done room positive done
  rcases Nat.le_total first.length simulated.length with shorter | longer
  · exact summary.agrees room positive (prefix_of_prefix_length_le begins front shorter)
  · obtain ⟨more, rfl⟩ := prefix_of_prefix_length_le front begins longer
    obtain ⟨digits, reached, hashes, full⟩ := top_of_length room positive done one length
    obtain ⟨_, _, built⟩ := built_after room positive (simulated ++ more)
    have few := built.top_le
    rcases top_prefix_of_prefix room positive simulated more with lower | ⟨same, matched⟩
    · omega
    · rw [← hashes] at matched
      have equal := matched.eq_of_length_le (by omega)
      exact .inr ⟨by omega, Eq.subst equal.symm prefix_rfl⟩

/-- The next level is reached if the results go on for long enough. -/
theorem exists_not_agrees (overrun : Overrun maxDegree simulated delivered) :
    ∃ first, first <+: delivered ∧ ¬ Agrees maxDegree inMerkle first := by
  obtain ⟨level, one, length, front, long⟩ := overrun
  obtain ⟨_, reached, _, _⟩ := top_of_length room positive done one length
  refine ⟨delivered.take ((maxDegree.toNat + 1) ^ (level + 1)), take_prefix _ _, ?_⟩
  obtain ⟨_, _, built⟩ := built_after room positive (delivered.take ((maxDegree.toNat + 1) ^ (level + 1)))
  have count : (delivered.take ((maxDegree.toNat + 1) ^ (level + 1))).length = (maxDegree.toNat + 1) ^ (level + 1) :=
    length_take_of_le long
  have digits := built.length_eq positive (Nat.le_add_left 1 level) count.ge
    (count.trans_lt (Nat.pow_lt_pow_right (by omega) (by omega)))
  unfold Agrees
  omega

end

end Degree

/-- The check is exact on trees unless the hashes run out. -/
theorem validateHashes_trees [DecidableEq (HashTree Result)]
    (summarised : summarise trees maxDegree simulated = some inMerkle) (delivered : List Result) :
    (∃ answer, validateHashes trees inMerkle delivered = .ok answer ∧ (answer = true ↔ delivered = simulated)) ↔
      ¬ Overrun maxDegree simulated delivered := by
  obtain ⟨two, room, done⟩ := degree_of_summarise summarised
  have positive := Nat.le_of_succ_le two
  obtain ⟨summary, present⟩ := summarises_of_done room positive done
  have start : validateHashes trees inMerkle delivered =
      validateHashesFrom trees inMerkle delivered (helperAfter maxDegree []) (matchedAfter maxDegree inMerkle []) := by
    have none : matchedAfter maxDegree inMerkle [] = 0 := ite_self 0
    have large : ¬ maxDegree < 2 := UInt32.not_lt.mpr two
    rw [none, validateHashes, summary.degree, newRangeQueryResultsHelper, newMerkleTree, if_pos rfl, if_neg large]
    rfl
  rw [start]
  rcases scan_outcome room two present delivered (summary.agrees room positive nil_prefix) with
    ⟨all, answer⟩ | ⟨later, result, begins, good, bad, answer⟩
  · refine iff_of_true ⟨_, answer, ?_⟩ fun overrun => ?_
    · rw [decide_eq_true_iff, nil_append]
      constructor
      · intro same
        rw [← (summarises_of_done room positive same).1.items, summary.items]
      · rintro rfl
        exact done
    · obtain ⟨first, begins, bad⟩ := exists_not_agrees room positive done overrun
      exact bad (all first begins)
  · rw [answer]
    split
    next above =>
      refine iff_of_false (by rintro ⟨_, failed, _⟩; cases failed) fun exact => exact ?_
      exact overrun_of_raised room positive summary good above begins
    next low =>
      refine iff_of_true ⟨false, rfl, iff_of_false Bool.false_ne_true ?_⟩ fun overrun => bad ?_
      · rintro rfl
        exact bad (summary.agrees room positive begins)
      · exact agrees_of_overrun room positive done overrun begins (Nat.not_lt.mp low)

end Summarising

end MerkleTree

section Hashes

variable {Hash : Type} {hashing : Hashing Result Hash}

theorem Hashing.maps_digest (hashing : Hashing Result Hash) :
    trees.Maps hashing (digest hashing.serializedHash hashing.computeCombinedHash) :=
  ⟨digest_leaf _ _, digest_node _ _⟩

/-- The check of a summary answers, and accepts exactly the simulated results, unless the hashes run out. -/
theorem validateHashes_exact_iff [DecidableEq Hash]
    (free : CollisionFree hashing.serializedHash hashing.computeCombinedHash) {simulated : List Result}
    {inMerkle : QueryReadsMerkleSummary Hash} (summarised : summarise hashing maxDegree simulated = some inMerkle)
    (delivered : List Result) :
    (∃ answer, validateHashes hashing inMerkle delivered = .ok answer ∧ (answer = true ↔ delivered = simulated)) ↔
      ¬ Overrun maxDegree simulated delivered := by
  classical
  have embeds : trees.Embeds hashing (digest hashing.serializedHash hashing.computeCombinedHash) :=
    ⟨hashing.maps_digest, eq_of_digest_eq free⟩
  rw [embeds.toMaps.summarise, Option.map_eq_some_iff] at summarised
  obtain ⟨merkle, made, rfl⟩ := summarised
  rw [embeds.validateHashes]
  exact validateHashes_trees made delivered

/-- The check accepts the results that were summarised. -/
theorem validateHashes_self [DecidableEq Hash] {simulated : List Result} {inMerkle : QueryReadsMerkleSummary Hash}
    (summarised : summarise hashing maxDegree simulated = some inMerkle) :
    validateHashes hashing inMerkle simulated = .ok true := by
  classical
  have maps := hashing.maps_digest
  rw [maps.summarise, Option.map_eq_some_iff] at summarised
  obtain ⟨merkle, made, rfl⟩ := summarised
  have enough : ¬ Overrun maxDegree simulated simulated := by
    rintro ⟨level, _, length, _, long⟩
    rw [length, pow_succ'] at long
    exact absurd long (Nat.not_le.mpr (Nat.mul_lt_mul_of_pos_right (Nat.lt_succ_self _) (Nat.pow_pos (Nat.succ_pos _))))
  obtain ⟨answer, checked, exact⟩ := (validateHashes_trees made simulated).mpr enough
  rw [exact.mpr rfl] at checked
  exact maps.validateHashes_true checked

theorem validateHashes_exact_four :
    (∃ answer, validateHashes trees ⟨2, 1, [.leaf [1, 2, 3]]⟩ [1, 2, 3, 4] = .ok answer ∧
        (answer = true ↔ [1, 2, 3, 4] = [1, 2, 3])) ↔ ¬ Overrun 2 [1, 2, 3] [1, 2, 3, 4] :=
  validateHashes_exact_iff collisionFree rfl [1, 2, 3, 4]

/-- Six results fill the last level for degree two. Three more results are taken for another level. -/
theorem validateHashes_index_out_of_range :
    summarise trees 2 [1, 2, 3, 4, 5, 6] = some ⟨2, 1, [.leaf [1, 2, 3], .leaf [4, 5, 6]]⟩ ∧
      validateHashes trees ⟨2, 1, [.leaf [1, 2, 3], .leaf [4, 5, 6]]⟩ [1, 2, 3, 4, 5, 6, 7, 8, 9] =
        .error .indexOutOfRange :=
  ⟨rfl, rfl⟩

end Hashes

end Pobl.Txmgmt
