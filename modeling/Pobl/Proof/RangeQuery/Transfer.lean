import Pobl.Construction.QueryResults

namespace Pobl.Txmgmt

open Option

variable {Result Hash Image : Type}

/-- A map of hashes that keeps the two hash functions. -/
structure Hashing.Maps (hashing : Hashing Result Hash) (images : Hashing Result Image) (image : Hash → Image) :
    Prop where
  serialized : ∀ results, image (hashing.serializedHash results) = images.serializedHash results
  combined : ∀ hashes, image (hashing.computeCombinedHash hashes) = images.computeCombinedHash (hashes.map image)

/-- A map that also keeps different hashes apart. -/
structure Hashing.Embeds (hashing : Hashing Result Hash) (images : Hashing Result Image) (image : Hash → Image) : Prop
    extends hashing.Maps images image where
  injective : Function.Injective image

def MerkleTree.map (image : Hash → Image) (tree : MerkleTree Hash) : MerkleTree Image :=
  ⟨tree.levels.map (List.map image), tree.maxDegree⟩

def QueryReadsMerkleSummary.map (image : Hash → Image) (merkle : QueryReadsMerkleSummary Hash) :
    QueryReadsMerkleSummary Image :=
  ⟨merkle.maxDegree, merkle.maxLevel, merkle.maxLevelHashes.map image⟩

def RangeQueryResultsHelper.map (image : Hash → Image) (helper : RangeQueryResultsHelper Result Hash) :
    RangeQueryResultsHelper Result Image :=
  { helper with mt := helper.mt.map (.map image) }

theorem MerkleTree.getSummery_map (image : Hash → Image) (tree : MerkleTree Hash) :
    (tree.map image).getSummery = tree.getSummery.map image := by
  simp only [getSummery, MerkleTree.map, QueryReadsMerkleSummary.map, maxLevel, maxLevelHashes, List.length_map,
    List.getLast?_map, QueryReadsMerkleSummary.mk.injEq, true_and]
  cases tree.levels.getLast? <;> rfl

theorem RangeQueryResultsHelper.getMerkleSummary_map (image : Hash → Image)
    (helper : RangeQueryResultsHelper Result Hash) :
    (helper.map image).getMerkleSummary = helper.getMerkleSummary.map (.map image) := by
  simp [getMerkleSummary, RangeQueryResultsHelper.map, Function.comp_def, MerkleTree.getSummery_map]

namespace Hashing.Maps

open MerkleTree RangeQueryResultsHelper

variable {hashing : Hashing Result Hash} {images : Hashing Result Image} {image : Hash → Image}

variable (maps : hashing.Maps images image)

include maps

theorem addHash (maxDegree : UInt32) (hash : Hash) (levels : List (List Hash)) :
    MerkleTree.addHash images maxDegree (image hash) (levels.map (List.map image)) =
      (MerkleTree.addHash hashing maxDegree hash levels).map (List.map image) := by
  induction levels generalizing hash with
  | nil => rfl
  | cons hashes higher ih =>
    have step : hashes.map image ++ [image hash] = (hashes ++ [hash]).map image := by simp
    simp only [List.map_cons, MerkleTree.addHash, step, List.length_map]
    split
    · rfl
    · rw [← maps.combined, ih]
      rfl

theorem joinHashes (hashes : List Hash) :
    MerkleTree.joinHashes images (hashes.map image) = (MerkleTree.joinHashes hashing hashes).map image := by
  match hashes with
  | [] => rfl
  | [hash] => rfl
  | first :: second :: more => simp [MerkleTree.joinHashes, maps.combined]

theorem joinLevels (maxDegree : UInt32) (carried : Option Hash) (levels : List (List Hash)) :
    MerkleTree.joinLevels images maxDegree (carried.map image) (levels.map (List.map image)) =
      (MerkleTree.joinLevels hashing maxDegree carried levels).map (List.map image) := by
  have joined (hashes : List Hash) (carried : Option Hash) :
      hashes.map image ++ (carried.map image).toList = (hashes ++ carried.toList).map image := by
    cases carried <;> simp
  induction levels generalizing carried with
  | nil => rfl
  | cons hashes higher ih =>
    cases higher with
    | nil =>
      simp only [List.map_cons, List.map_nil, MerkleTree.joinLevels, joined, List.length_map]
      split <;> simp [maps.combined]
    | cons next higher =>
      simp only [List.map_cons, MerkleTree.joinLevels, joined, maps.joinHashes]
      rw [← List.map_cons, ih]
      rfl

theorem update (hash : Hash) (tree : MerkleTree Hash) :
    (tree.map image).update images (image hash) = (tree.update hashing hash).map image := by
  simp only [MerkleTree.update, MerkleTree.map, maps.addHash]

theorem done (tree : MerkleTree Hash) : (tree.map image).done images = (tree.done hashing).map image := by
  simp only [MerkleTree.done, MerkleTree.map]
  rw [← maps.joinLevels, map_none]

theorem addResult (helper : RangeQueryResultsHelper Result Hash) (result : Result) :
    (helper.map image).addResult images result = (helper.addResult hashing result).map image := by
  obtain ⟨pending, mt, maxDegree⟩ := helper
  cases mt with
  | none => rfl
  | some mt =>
    by_cases exceeds : maxDegree < UInt32.ofNat (pending ++ [result]).length
    · simp only [RangeQueryResultsHelper.addResult, RangeQueryResultsHelper.map, map_some, exceeds, if_true,
        processPendingResults, ← maps.serialized, maps.update]
    · simp only [RangeQueryResultsHelper.addResult, RangeQueryResultsHelper.map, map_some, exceeds, if_false]

theorem summary (helper : RangeQueryResultsHelper Result Hash) :
    ((helper.map image).done images).2 = (helper.done hashing).2.map (.map image) := by
  obtain ⟨pending, mt, maxDegree⟩ := helper
  cases mt with
  | none => rfl
  | some mt =>
    have empty : (mt.map image).isEmpty = mt.isEmpty := by
      have summary := getSummery_map image mt
      simp only [getSummery, QueryReadsMerkleSummary.map, QueryReadsMerkleSummary.mk.injEq] at summary
      rw [isEmpty, isEmpty, summary.2.1, summary.2.2, List.length_map]
    simp only [RangeQueryResultsHelper.done, RangeQueryResultsHelper.map, map_some, empty]
    by_cases unhashed : mt.isEmpty
    · simp [unhashed]
    · by_cases settled : pending = [] <;>
        simp [unhashed, settled, ← maps.serialized, maps.update, maps.done, getSummery_map]

theorem summarise (maxDegree : UInt32) (results : List Result) :
    RangeQueryResultsHelper.summarise images maxDegree results =
      (RangeQueryResultsHelper.summarise hashing maxDegree results).map (QueryReadsMerkleSummary.map image) := by
  have added (helper : RangeQueryResultsHelper Result Hash) :
      results.foldl (.addResult images) (helper.map image) =
        (results.foldl (.addResult hashing) helper).map image := by
    induction results generalizing helper with
    | nil => rfl
    | cons result results ih => rw [List.foldl_cons, List.foldl_cons, maps.addResult, ih]
  by_cases small : maxDegree < 2
  · simp [RangeQueryResultsHelper.summarise, newRangeQueryResultsHelper, newMerkleTree, small]
  · simp only [RangeQueryResultsHelper.summarise, newRangeQueryResultsHelper, newMerkleTree, small, if_true, if_false,
      map_some]
    rw [← maps.summary, ← added]
    rfl

section Check

variable [DecidableEq Hash] [DecidableEq Image] {inMerkle : QueryReadsMerkleSummary Hash} {results : List Result}

omit maps in
/-- Hashes that match have images that match. -/
theorem compareHashes_some (image : Hash → Image) {merkle : QueryReadsMerkleSummary Hash} {matched matched' : Nat}
    (compared : compareHashes inMerkle merkle matched = .ok (some matched')) :
    compareHashes (inMerkle.map image) (merkle.map image) matched = .ok (some matched') := by
  simp only [compareHashes, QueryReadsMerkleSummary.map, List.length_map, List.getElem?_map] at compared ⊢
  grind

/-- A check that accepts also accepts the images. -/
theorem validateHashesFrom_true {helper : RangeQueryResultsHelper Result Hash} {matched : Nat}
    (accepted : validateHashesFrom hashing inMerkle results helper matched = .ok true) :
    validateHashesFrom images (inMerkle.map image) results (helper.map image) matched = .ok true := by
  induction results generalizing helper matched with
  | nil =>
    simp only [validateHashesFrom, Except.ok.injEq, decide_eq_true_iff, maps.summary] at accepted ⊢
    rw [accepted, map_some]
  | cons result results ih =>
    simp only [validateHashesFrom, maps.addResult, getMerkleSummary_map] at accepted ⊢
    cases merkle : (helper.addResult hashing result).getMerkleSummary with
    | none => simp [merkle] at accepted
    | some merkle' =>
      simp only [merkle, map_some] at accepted ⊢
      split at accepted
      · exact nomatch accepted
      · exact nomatch accepted
      next matched' compared =>
        rw [compareHashes_some image compared]
        exact ih accepted

theorem validateHashes_true (accepted : validateHashes hashing inMerkle results = .ok true) :
    validateHashes images (inMerkle.map image) results = .ok true := by
  by_cases small : inMerkle.maxDegree < 2
  · simp [validateHashes, newRangeQueryResultsHelper, newMerkleTree, small] at accepted
  · simp only [validateHashes, newRangeQueryResultsHelper, newMerkleTree, QueryReadsMerkleSummary.map, if_true, small,
      if_false, map_some] at accepted ⊢
    exact maps.validateHashesFrom_true accepted

end Check

end Hashing.Maps

namespace Hashing.Embeds

open MerkleTree RangeQueryResultsHelper

variable [DecidableEq Hash] [DecidableEq Image] {hashing : Hashing Result Hash} {images : Hashing Result Image}
  {image : Hash → Image} (embeds : hashing.Embeds images image) (inMerkle : QueryReadsMerkleSummary Hash)

include embeds

theorem compareHashes (merkle : QueryReadsMerkleSummary Hash) (matched : Nat) :
    Txmgmt.compareHashes (inMerkle.map image) (merkle.map image) matched =
      Txmgmt.compareHashes inMerkle merkle matched := by
  simp only [Txmgmt.compareHashes, QueryReadsMerkleSummary.map, List.length_map, List.getElem?_map]
  cases merkle.maxLevelHashes[matched]? with
  | none => rfl
  | some hash =>
    cases inMerkle.maxLevelHashes[matched]? with
    | none => rfl
    | some expected => simp [embeds.injective.eq_iff]

theorem validateHashesFrom (results : List Result) (helper : RangeQueryResultsHelper Result Hash) (matched : Nat) :
    Txmgmt.validateHashesFrom images (inMerkle.map image) results (helper.map image) matched =
      Txmgmt.validateHashesFrom hashing inMerkle results helper matched := by
  have summary_injective : Function.Injective (QueryReadsMerkleSummary.map image) := by
    rintro ⟨degree, level, hashes⟩ ⟨degree', level', hashes'⟩ same
    simp only [QueryReadsMerkleSummary.map, QueryReadsMerkleSummary.mk.injEq] at same
    rw [same.1, same.2.1, embeds.injective.list_map same.2.2]
  induction results generalizing helper matched with
  | nil =>
    have same : (helper.done hashing).2.map (.map image) = some (inMerkle.map image) ↔
        (helper.done hashing).2 = some inMerkle := by
      rw [← map_some, (map_injective summary_injective).eq_iff]
    simp [Txmgmt.validateHashesFrom, embeds.toMaps.summary, same]
  | cons result results ih =>
    simp only [Txmgmt.validateHashesFrom, embeds.toMaps.addResult, getMerkleSummary_map]
    cases (helper.addResult hashing result).getMerkleSummary with
    | none => rfl
    | some merkle => simp only [map_some, embeds.compareHashes, ih]

theorem validateHashes (results : List Result) :
    Txmgmt.validateHashes images (inMerkle.map image) results = Txmgmt.validateHashes hashing inMerkle results := by
  by_cases small : inMerkle.maxDegree < 2
  · simp [Txmgmt.validateHashes, QueryReadsMerkleSummary.map, newRangeQueryResultsHelper, newMerkleTree, small]
  · have whole := embeds.validateHashesFrom inMerkle results ⟨[], some ⟨[[]], inMerkle.maxDegree⟩, inMerkle.maxDegree⟩ 0
    simpa [Txmgmt.validateHashes, QueryReadsMerkleSummary.map, newRangeQueryResultsHelper, newMerkleTree, small,
      RangeQueryResultsHelper.map, MerkleTree.map] using whole

end Hashing.Embeds

end Pobl.Txmgmt
