/-
This file shows that the merge of principal sets is sound, and when it is complete.
-/

import Pobl.Construction.Inquire
import Mathlib.Data.Finset.Max
import Mathlib.Data.Prod.Lex
import Mathlib.Data.List.Perm.Subperm

namespace Pobl.Inquire

open ComparablePrincipalSets ComparablePrincipalSetPair List

/-- Different principals of the first set stand for the principals of the second one. -/
def Satisfies (set wanted : ComparablePrincipalSet) : Prop :=
  ∃ chosen : ComparablePrincipalSet, chosen.Subperm set ∧ List.Forall₂ (fun cp other => cp.isA other) chosen wanted

theorem isSubset_iff {cps sets : ComparablePrincipalSet} : cps.isSubset sets ↔ cps ⊆ sets := by
  have equal (cp other : ComparablePrincipal) : cp.equal other ↔ other = cp := by
    cases cp
    cases other
    simp [ComparablePrincipal.equal]
    tauto
  simp [ComparablePrincipalSet.isSubset, equal, subset_def]

section Reduce

variable {cps : ComparablePrincipalSets} {i : Nat} {s1 : ComparablePrincipalSet}

/-- The flag is set only by a contained set that does not clear it at once. -/
theorem of_foldl_eq_true {items : List (ComparablePrincipalSet × Nat)} {flag : Bool}
    (marked : items.foldl (markContaining i s1) flag = true) :
    flag = true ∨ ∃ entry ∈ items, entry.2 ≠ i ∧ entry.1 ⊆ s1 ∧ ¬ (s1 ⊆ entry.1 ∧ i < entry.2) := by
  induction items generalizing flag with
  | nil => exact .inl marked
  | cons entry rest ih =>
    have here := ih marked
    simp only [markContaining, isSubset_iff] at here
    grind

/-- A contained set sets the flag, and only a later set that contains this one clears it. -/
theorem of_foldl_eq_false {items : List (ComparablePrincipalSet × Nat)} {flag : Bool}
    (cleared : items.foldl (markContaining i s1) flag = false)
    (set : flag = true ∨ ∃ entry ∈ items, entry.2 ≠ i ∧ entry.1 ⊆ s1) :
    ∃ entry ∈ items, s1 ⊆ entry.1 ∧ i < entry.2 := by
  induction items generalizing flag with
  | nil => simp_all
  | cons entry rest ih =>
    by_cases clears : s1 ⊆ entry.1 ∧ i < entry.2
    · exact ⟨entry, mem_cons_self, clears⟩
    · obtain ⟨later, member, found⟩ := ih cleared (by
        simp only [markContaining, isSubset_iff, clears, if_false]
        grind)
      exact ⟨later, mem_cons_of_mem _ member, found⟩

theorem mem_reduceOnce : s1 ∈ cps.reduceOnce ↔ ∃ i, cps[i]? = some s1 ∧ cps.isContaining i s1 = false := by
  simp [reduceOnce, List.mem_zipIdx_iff_getElem?]

/-- The smallest set with the lowest index below a set is kept. -/
theorem exists_reduceOnce (listed : s1 ∈ cps) : ∃ kept ∈ cps.reduceOnce, kept ⊆ s1 := by
  let below := cps.zipIdx.toFinset.filter fun entry => entry.1 ⊆ s1
  obtain ⟨i, found⟩ := List.getElem?_of_mem listed
  have nonempty : below.Nonempty := ⟨(s1, i), by simp [below, List.mem_zipIdx_iff_getElem?, found]⟩
  obtain ⟨⟨least, j⟩, inside, minimal⟩ :=
    below.exists_min_image (fun entry => toLex (entry.1.toFinset.card, entry.2)) nonempty
  simp only [below, Finset.mem_filter, mem_toFinset, List.mem_zipIdx_iff_getElem?] at inside minimal
  refine ⟨least, mem_reduceOnce.mpr ⟨j, inside.1, ?_⟩, inside.2⟩
  rw [← Bool.not_eq_true]
  intro containing
  obtain containing | ⟨⟨set, k⟩, member, other, contained, keeps⟩ := of_foldl_eq_true containing
  · cases containing
  have first := minimal (set, k) ⟨List.mem_zipIdx_iff_getElem?.mp member, List.Subset.trans contained inside.2⟩
  have fewer : set.toFinset ⊆ least.toFinset := fun cp => by simpa using @contained cp
  rw [Prod.Lex.toLex_le_toLex] at first
  rcases first with smaller | ⟨same, sooner⟩
  · exact Nat.not_lt.mpr (Finset.card_le_card fewer) smaller
  · have equal := Finset.eq_of_subset_of_card_le fewer same.le
    exact keeps ⟨fun cp listed => mem_toFinset.mp (equal ▸ mem_toFinset.mpr listed),
      Nat.lt_of_le_of_ne sooner other.symm⟩

/-- A list that keeps its length has no set that contains another. -/
theorem not_subset_of_length (same : cps.length = cps.reduceOnce.length) {i j : Nat} {s1 s2 : ComparablePrincipalSet}
    (found : cps[i]? = some s1) (found' : cps[j]? = some s2) (other : j ≠ i) : ¬ s2 ⊆ s1 := by
  intro contained
  have kept : cps.isContaining i s1 = false := by
    rw [reduceOnce, length_map, ← length_zipIdx, eq_comm, length_filter_eq_length_iff] at same
    simpa using same (s1, i) (List.mem_zipIdx_iff_getElem?.mpr found)
  obtain ⟨⟨s3, k⟩, member, larger, later⟩ := of_foldl_eq_false kept
    (.inr ⟨(s2, j), List.mem_zipIdx_iff_getElem?.mpr found', other, contained⟩)
  have found'' : cps[k]? = some s3 := List.mem_zipIdx_iff_getElem?.mp member
  have inside := (List.getElem?_eq_some_iff.mp found'').1
  exact not_subset_of_length same found'' found (Nat.ne_of_lt later) larger
termination_by cps.length - i

theorem reduceOnce_sublist : cps.reduceOnce.Sublist cps := by
  simpa [reduceOnce] using (filter_sublist (l := cps.zipIdx)).map Prod.fst

/-- The rounds keep a set below every set, and with enough rounds the last one removes nothing. -/
theorem reduceUpTo_spec (rounds : Nat) (cps : ComparablePrincipalSets) (enough : cps.length < rounds) :
    (reduceUpTo rounds cps).Sublist cps ∧ (∀ set ∈ cps, ∃ kept ∈ reduceUpTo rounds cps, kept ⊆ set) ∧
      (reduceUpTo rounds cps).length = (reduceUpTo rounds cps).reduceOnce.length := by
  induction rounds generalizing cps with
  | zero => omega
  | succ rounds ih =>
    have shorter := (@reduceOnce_sublist cps).length_le
    simp only [reduceUpTo]
    split_ifs with same
    · have unchanged := reduceOnce_sublist.eq_of_length same.symm
      exact ⟨reduceOnce_sublist, fun set => exists_reduceOnce, by rw [unchanged, same, unchanged]⟩
    · obtain ⟨sublist, below, fixed⟩ := ih cps.reduceOnce (by omega)
      refine ⟨sublist.trans reduceOnce_sublist, fun set listed => ?_, fixed⟩
      obtain ⟨kept, member, contained⟩ := exists_reduceOnce listed
      obtain ⟨least, last, contained'⟩ := below kept member
      exact ⟨least, last, List.Subset.trans contained' contained⟩

theorem reduce_spec (cps : ComparablePrincipalSets) :
    cps.reduce.Sublist cps ∧ (∀ set ∈ cps, ∃ kept ∈ cps.reduce, kept ⊆ set) ∧
      cps.reduce.length = cps.reduce.reduceOnce.length :=
  reduceUpTo_spec (cps.length + 1) cps (Nat.lt_succ_self _)

end Reduce

section Plurality

theorem isA_refl (cp : ComparablePrincipal) : cp.isA cp := by simp [ComparablePrincipal.isA]

theorem isContainedIn_refl (set : ComparablePrincipalSet) : set.isContainedIn set :=
  all_eq_true.mpr fun cp listed => any_eq_true.mpr ⟨cp, listed, isA_refl cp⟩

/-- Every principal is covered by an unused one or is added itself. -/
theorem satisfies_principalsToAdd (contained unused : ComparablePrincipalSet) :
    Satisfies (unused ++ principalsToAdd contained unused) contained := by
  induction contained generalizing unused with
  | nil => exact ⟨[], nil_subperm, .nil⟩
  | cons principal rest ih =>
    unfold principalsToAdd
    split_ifs with covered
    · obtain ⟨cover, member, isA⟩ := any_eq_true.mp covered
      obtain ⟨chosen, left, right, -, isA, split, erased⟩ := exists_of_eraseP (p := (·.isA principal)) member isA
      obtain ⟨others, inside, all⟩ := ih (unused.eraseP (·.isA principal))
      refine ⟨chosen :: others, ?_, .cons isA all⟩
      rw [erased] at inside ⊢
      rw [split]
      exact ((subperm_cons chosen).mpr inside).trans (by simpa using perm_middle.symm.subperm)
    · obtain ⟨others, inside, all⟩ := ih unused
      exact ⟨principal :: others,
        ((subperm_cons principal).mpr inside).trans perm_middle.symm.subperm, .cons (isA_refl principal) all⟩

theorem satisfies_mergeWithPlurality (pair : ComparablePrincipalSetPair) :
    Satisfies pair.mergeWithPlurality pair.contained ∧ Satisfies pair.mergeWithPlurality pair.containing :=
  ⟨satisfies_principalsToAdd .., pair.containing, (sublist_append_left ..).subperm,
    forall₂_same.mpr fun cp _ => isA_refl cp⟩

end Plurality

section Merge

variable {cps s1 s2 : ComparablePrincipalSets} {a b : ComparablePrincipalSet} {first second : MappingOrder}

theorem mem_mapping {i j : Nat} : (i, j) ∈ computeContainedInMapping s1 s2 ↔
    ∃ x y, s1[i]? = some x ∧ s2[j]? = some y ∧ x.isContainedIn y := by
  simp [computeContainedInMapping, List.mem_zipIdx_iff_getElem?]

theorem mapped_iff {i : Nat} : (∃ j, (i, j) ∈ computeContainedInMapping s1 s2) ↔
    ∃ x, s1[i]? = some x ∧ ∃ y ∈ s2, x.isContainedIn y := by
  simp only [mem_mapping]
  simp only [List.mem_iff_getElem?]
  tauto

theorem inverted_iff {j : Nat} : (∃ i, (j, i) ∈ (computeContainedInMapping s1 s2).invert) ↔
    ∃ y, s2[j]? = some y ∧ ∃ x ∈ s1, x.isContainedIn y := by
  simp only [IntMapping.invert, mem_map, Prod.exists, Prod.swap_prod_mk, mem_mapping]
  simp only [List.mem_iff_getElem?]
  grind

theorem mem_cartesianProduct {pair : ComparablePrincipalSetPair} :
    pair ∈ s1.cartesianProduct s2 ↔ pair.contained ∈ s1 ∧ pair.containing ∈ s2 := by
  cases pair
  simp [cartesianProduct]

/-- A visited pair is a set with a set of the other list that contains it. -/
theorem mem_ofMapping {order : MappingOrder} {pair : ComparablePrincipalSetPair} :
    pair ∈ s1.ofMapping order (computeContainedInMapping s1 s2) s2 ↔
      pair.contained ∈ s1 ∧ pair.containing ∈ s2 ∧ pair.contained.isContainedIn pair.containing := by
  simp only [ofMapping, mem_map, (order.perm _).mem_iff, Prod.exists, mem_mapping]
  constructor
  · rintro ⟨i, j, ⟨x, y, found, found', contained⟩, rfl⟩
    simpa [found, found', contained] using ⟨List.mem_of_getElem? found, List.mem_of_getElem? found'⟩
  · rintro ⟨left, right, contained⟩
    obtain ⟨i, found⟩ := List.getElem?_of_mem left
    obtain ⟨j, found'⟩ := List.getElem?_of_mem right
    exact ⟨i, j, ⟨_, _, found, found', contained⟩, by simp [found, found']⟩

/-- The sets whose index the mapping does not contain remain. -/
theorem mem_excludeIndices {mapping : IntMapping} :
    a ∈ cps.excludeIndices mapping ↔ ∃ p, cps[p]? = some a ∧ ¬ ∃ j, (p, j) ∈ mapping := by
  simp [excludeIndices, List.mem_zipIdx_iff_getElem?]
  grind

/-- The sets of the second list that are in no set of the first list that is still considered. -/
def unmatched (s1 s2 : ComparablePrincipalSets) : ComparablePrincipalSets :=
  s2.filter fun y => !s1.any fun x => !s2.any x.isContainedIn && y.isContainedIn x

/-- An index of the set in the shortened list is the index of a set without a contained one in the whole list. -/
def Stays (s1 s2 : ComparablePrincipalSets) (b : ComparablePrincipalSet) : Prop :=
  ∃ p : Nat, (unmatched s1 s2)[p]? = some b ∧ ∀ y, s2[p]? = some y → ∀ x ∈ s1, ¬ x.isContainedIn y

/-- The pairs that the code merges: sets with a set that contains them, and sets that are unrelated or stay. -/
def Paired (s1 s2 : ComparablePrincipalSets) (pair : ComparablePrincipalSetPair) : Prop :=
  ((pair.contained ∈ s1 ∧ pair.containing ∈ s2 ∧ pair.contained.isContainedIn pair.containing) ∨
    pair.contained ∈ s2 ∧ (pair.containing ∈ s1 ∧ ∀ y ∈ s2, ¬ pair.containing.isContainedIn y) ∧
      pair.contained.isContainedIn pair.containing) ∨
  (pair.contained ∈ s1 ∧ ∀ y ∈ s2, ¬ pair.contained.isContainedIn y ∧ ¬ y.isContainedIn pair.contained) ∧
    Stays s1 s2 pair.containing

theorem excludeIndices_mapping : s1.excludeIndices (computeContainedInMapping s1 s2) =
    s1.filter fun x => !s2.any x.isContainedIn := by
  have keep : ∀ entry ∈ s1.zipIdx, (!(computeContainedInMapping s1 s2).any (·.1 = entry.2)) =
      !s2.any entry.1.isContainedIn := by
    rintro ⟨x, i⟩ listed
    have found := List.mem_zipIdx_iff_getElem?.mp listed
    have none := @mapped_iff s1 s2 i
    rw [Bool.eq_iff_iff]
    simp [found] at none ⊢
    grind
  have outer := filter_map (p := fun x : ComparablePrincipalSet => !s2.any x.isContainedIn) (l := s1.zipIdx)
    (f := Prod.fst)
  rw [excludeIndices, filter_congr keep]
  rwa [zipIdx_map_fst, eq_comm] at outer

theorem merge_eq : ∃ pairs : List ComparablePrincipalSetPair, (∀ pair, pair ∈ pairs ↔ Paired s1 s2 pair) ∧
    merge first second s1 s2 = reduce (pairs.map (·.mergeWithPlurality)) := by
  let rest := s1.excludeIndices (computeContainedInMapping s1 s2)
  let short := s2.excludeIndices (computeContainedInMapping s2 rest)
  have mem_rest (x : ComparablePrincipalSet) : x ∈ rest ↔ x ∈ s1 ∧ ∀ y ∈ s2, ¬ x.isContainedIn y := by
    simp [rest, excludeIndices_mapping]
  have left (x : ComparablePrincipalSet) : x ∈ rest.excludeIndices (computeContainedInMapping s2 rest).invert ↔
      x ∈ s1 ∧ ∀ y ∈ s2, ¬ x.isContainedIn y ∧ ¬ y.isContainedIn x := by
    simp only [mem_excludeIndices, inverted_iff, forall_and, ← and_assoc, ← mem_rest]
    rw [List.mem_iff_getElem?]
    grind
  have right (y : ComparablePrincipalSet) :
      y ∈ short.excludeIndices (computeContainedInMapping s1 s2).invert ↔ Stays s1 s2 y := by
    have same : short = unmatched s1 s2 := by
      simp only [short, excludeIndices_mapping, rest, unmatched, any_filter]
    simp only [mem_excludeIndices, inverted_iff, Stays, same]
    grind
  refine ⟨(s1.ofMapping first (computeContainedInMapping s1 s2) s2 ++
    s2.ofMapping second (computeContainedInMapping s2 rest) rest) ++
      cartesianProduct (rest.excludeIndices (computeContainedInMapping s2 rest).invert)
        (short.excludeIndices (computeContainedInMapping s1 s2).invert), fun pair => ?_, ?_⟩
  · simp only [mem_append, mem_ofMapping, mem_rest, mem_cartesianProduct, left, right, Paired]
  · simp only [merge, map_append]
    split_ifs with none
    · obtain none | none := none
      · simp [rest, length_eq_zero_iff.mp none, cartesianProduct]
      · simp [rest, short, length_eq_zero_iff.mp none, cartesianProduct, flatMap_def]
    · rfl

/-- Two lists without related sets keep all their sets. -/
theorem exists_paired (nonempty : s1 ≠ []) (nonempty' : s2 ≠ []) : ∃ pair, Paired s1 s2 pair := by
  by_cases inSecond : ∃ x ∈ s1, ∃ y ∈ s2, x.isContainedIn y
  · obtain ⟨x, left, y, right, contained⟩ := inSecond
    exact ⟨⟨x, y⟩, .inl (.inl ⟨left, right, contained⟩)⟩
  by_cases inFirst : ∃ x ∈ s1, ∃ y ∈ s2, y.isContainedIn x
  · obtain ⟨x, left, y, right, contained⟩ := inFirst
    exact ⟨⟨y, x⟩, .inl (.inr ⟨right, ⟨left, by grind⟩, contained⟩)⟩
  obtain ⟨x, left⟩ := exists_mem_of_ne_nil s1 nonempty
  obtain ⟨y, rest, rfl⟩ := exists_cons_of_ne_nil nonempty'
  have all : unmatched s1 (y :: rest) = y :: rest := filter_eq_self.mpr (by grind)
  exact ⟨⟨x, y⟩, .inr ⟨⟨left, by grind⟩, 0, by simp [all], by grind⟩⟩

/-- Every merged set satisfies a set of either list, and a reduction keeps the least sets. -/
theorem merge_sound (first second : MappingOrder) (s1 s2 : ComparablePrincipalSets) (nonempty : s1 ≠ [])
    (nonempty' : s2 ≠ []) :
    (∀ set ∈ merge first second s1 s2, (∃ a ∈ s1, Satisfies set a) ∧ ∃ b ∈ s2, Satisfies set b) ∧
    merge first second s1 s2 ≠ [] ∧
    ∀ cps : ComparablePrincipalSets, cps.reduce.Sublist cps ∧
      (∀ (i j : Nat) (a b : ComparablePrincipalSet),
        cps.reduce[i]? = some a → cps.reduce[j]? = some b → j ≠ i → ¬ b.isSubset a) ∧
      ∀ set ∈ cps, ∃ kept ∈ cps.reduce, kept.isSubset set := by
  obtain ⟨pairs, paired, merged⟩ := @merge_eq s1 s2 first second
  obtain ⟨sublist, below, -⟩ := reduce_spec (pairs.map (·.mergeWithPlurality))
  rw [← merged] at sublist below
  refine ⟨fun set listed => ?_, fun none => ?_, fun cps => ?_⟩
  · obtain ⟨pair, candidate, rfl⟩ := mem_map.mp (sublist.subset listed)
    obtain ⟨contained, containing⟩ := satisfies_mergeWithPlurality pair
    obtain (⟨left, right, -⟩ | ⟨right, ⟨left, -⟩, -⟩) | ⟨⟨left, -⟩, p, found, -⟩ := (paired pair).mp candidate
    · exact ⟨⟨_, left, contained⟩, _, right, containing⟩
    · exact ⟨⟨_, left, containing⟩, _, right, contained⟩
    · exact ⟨⟨_, left, contained⟩, _, (mem_filter.mp (List.mem_of_getElem? found)).1, containing⟩
  · obtain ⟨pair, listed⟩ := exists_paired nonempty nonempty'
    simpa [none] using below _ (mem_map_of_mem ((paired pair).mpr listed))
  · obtain ⟨sublist, below, fixed⟩ := reduce_spec cps
    simp only [isSubset_iff]
    exact ⟨sublist, fun i j a b found found' other => not_subset_of_length fixed found found' other, below⟩

def inOrder : MappingOrder := ⟨id, fun _ => .refl _⟩

/-- The marshaled member roles of organizations whose names have one letter. -/
def membersOf (mspIDs : List String) : ComparablePrincipalSet :=
  mspIDs.map fun mspID => ⟨⟨0, 10 :: 1 :: mspID.toUTF8.toList⟩, mspID, member⟩

/-- Two members of `A` are contained in one of them, and their merge requires two again. -/
theorem merge_sound_plurality :
    merge inOrder inOrder ([["A", "A"], ["D"]].map membersOf) ([["A"], ["B"]].map membersOf) =
      [["A", "A"], ["B", "D"]].map membersOf ∧
    ∀ set ∈ [["A", "A"], ["B", "D"]].map membersOf,
      (∃ a ∈ [["A", "A"], ["D"]].map membersOf, Satisfies set a) ∧
        ∃ b ∈ [["A"], ["B"]].map membersOf, Satisfies set b := by
  have merged : merge inOrder inOrder ([["A", "A"], ["D"]].map membersOf) ([["A"], ["B"]].map membersOf) =
      [["A", "A"], ["B", "D"]].map membersOf := by decide +kernel
  have sound := (merge_sound inOrder inOrder ([["A", "A"], ["D"]].map membersOf) ([["A"], ["B"]].map membersOf)
    (cons_ne_nil _ _) (cons_ne_nil _ _)).1
  rw [merged] at sound
  exact ⟨merged, sound⟩

/-- An unrelated pair whose second set stays has a merged set. If the second set does not stay, the pair is not merged,
and only another pair can give such a set. -/
theorem merge_complete_of_stays (first second : MappingOrder) (s1 s2 : ComparablePrincipalSets)
    (a b : ComparablePrincipalSet) (left : a ∈ s1)
    (unrelated : ∀ y ∈ s2, ¬ a.isContainedIn y ∧ ¬ y.isContainedIn a) :
    (Stays s1 s2 b → ∃ set ∈ merge first second s1 s2, set.isContainedIn (mergeWithPlurality ⟨a, b⟩)) ∧
    (¬ Stays s1 s2 b → ∀ set ∈ merge first second s1 s2,
      ∃ pair, Paired s1 s2 pair ∧ pair ≠ ⟨a, b⟩ ∧ set = pair.mergeWithPlurality) := by
  obtain ⟨pairs, paired, merged⟩ := @merge_eq s1 s2 first second
  obtain ⟨sublist, below, -⟩ := reduce_spec (pairs.map (·.mergeWithPlurality))
  rw [← merged] at sublist below
  constructor
  · intro stays
    obtain ⟨kept, member, subset⟩ := below _ (mem_map_of_mem ((paired ⟨a, b⟩).mpr (.inr ⟨⟨left, unrelated⟩, stays⟩)))
    have itself := all_eq_true.mp (isContainedIn_refl (mergeWithPlurality ⟨a, b⟩))
    exact ⟨kept, member, all_eq_true.mpr fun cp listed => itself cp (subset listed)⟩
  · intro goes set listed
    obtain ⟨pair, candidate, rfl⟩ := mem_map.mp (sublist.subset listed)
    refine ⟨pair, (paired pair).mp candidate, ?_, rfl⟩
    rintro rfl
    rcases (paired _).mp candidate with (⟨-, right, contained⟩ | ⟨right, -, -⟩) | ⟨-, stays⟩
    · exact (unrelated b right).1 contained
    · exact (unrelated a right).1 (isContainedIn_refl a)
    · exact goes stays

/-- The set `B` stays although the set behind it is removed. -/
theorem merge_complete_of_stays_first :
    ∃ set ∈ merge inOrder inOrder ([["A"], ["A", "C"], ["D"]].map membersOf) ([["B"], ["A"]].map membersOf),
      set.isContainedIn (mergeWithPlurality ⟨membersOf ["D"], membersOf ["B"]⟩) :=
  (merge_complete_of_stays inOrder inOrder ([["A"], ["A", "C"], ["D"]].map membersOf) ([["B"], ["A"]].map membersOf)
    (membersOf ["D"]) (membersOf ["B"]) (by decide +kernel) (by decide +kernel)).1
    ⟨0, by decide +kernel, fun y found => by cases found; decide +kernel⟩

/-- The first set of the second list is removed, and then its index removes an unrelated set. -/
theorem merge_shifted_index :
    (∀ y ∈ [["A"], ["B"]].map membersOf, ¬ (membersOf ["D"]).isContainedIn y ∧ ¬ y.isContainedIn (membersOf ["D"])) ∧
    (∀ x ∈ [["A"], ["A", "C"], ["D"]].map membersOf,
      ¬ (membersOf ["B"]).isContainedIn x ∧ ¬ x.isContainedIn (membersOf ["B"])) ∧
    ∀ set ∈ merge inOrder inOrder ([["A"], ["A", "C"], ["D"]].map membersOf) ([["A"], ["B"]].map membersOf),
      ¬ set.isContainedIn (mergeWithPlurality ⟨membersOf ["D"], membersOf ["B"]⟩) := by
  decide +kernel

end Merge

end Pobl.Inquire
