/-
This file models `query_results_helper.go`: the results of a range query are summarised by a Merkle tree
that is built as they arrive.
-/

import Mathlib.Data.List.Basic

namespace Pobl.Txmgmt

/-- The two hashes of the tree: of a batch of serialized results, and of the joined hashes below a node. -/
structure Hashing (Result Hash : Type) where
  serializedHash : List Result → Hash
  computeCombinedHash : List Hash → Hash

variable {Result Hash : Type}

/-- The hashes at each level of the tree, from the leaf level to `maxLevel`. -/
structure MerkleTree (Hash : Type) where
  levels : List (List Hash)
  maxDegree : UInt32
  deriving DecidableEq

structure QueryReadsMerkleSummary (Hash : Type) where
  maxDegree : UInt32
  maxLevel : Nat
  maxLevelHashes : List Hash
  deriving DecidableEq

namespace MerkleTree

/-- A tree with a smaller degree is refused. -/
def newMerkleTree (maxDegree : UInt32) : Option (MerkleTree Hash) :=
  if maxDegree < 2 then none else some ⟨[[]], maxDegree⟩

/-- A level that exceeds the degree is replaced by one hash at the next level. -/
def addHash (hashing : Hashing Result Hash) (maxDegree : UInt32) (hash : Hash) : List (List Hash) → List (List Hash)
  | [] => [[hash]]
  | hashes :: higher =>
    let currentLevelHashes := hashes ++ [hash]
    if UInt32.ofNat currentLevelHashes.length ≤ maxDegree then currentLevelHashes :: higher
    else [] :: addHash hashing maxDegree (hashing.computeCombinedHash currentLevelHashes) higher

def update (hashing : Hashing Result Hash) (nextLeafLevelHash : Hash) (tree : MerkleTree Hash) : MerkleTree Hash :=
  { tree with levels := addHash hashing tree.maxDegree nextLeafLevelHash tree.levels }

/-- A single hash goes up to the next level as it is. -/
def joinHashes (hashing : Hashing Result Hash) : List Hash → Option Hash
  | [] => none
  | [hash] => some hash
  | hashes => some (hashing.computeCombinedHash hashes)

/-- The levels below the last are joined from the leaf level on. -/
def joinLevels (hashing : Hashing Result Hash) (maxDegree : UInt32) : Option Hash → List (List Hash) → List (List Hash)
  | _, [] => []
  | carried, [hashes] =>
    let finalHashes := hashes ++ carried.toList
    if maxDegree < UInt32.ofNat finalHashes.length then [[], [hashing.computeCombinedHash finalHashes]]
    else [finalHashes]
  | carried, hashes :: next :: higher =>
    [] :: joinLevels hashing maxDegree (joinHashes hashing (hashes ++ carried.toList)) (next :: higher)

/-- The tree is completed at its last level or one above it. -/
def done (hashing : Hashing Result Hash) (tree : MerkleTree Hash) : MerkleTree Hash :=
  { tree with levels := joinLevels hashing tree.maxDegree none tree.levels }

def maxLevel (tree : MerkleTree Hash) : Nat := tree.levels.length

def maxLevelHashes (tree : MerkleTree Hash) : List Hash := tree.levels.getLast?.getD []

def getSummery (tree : MerkleTree Hash) : QueryReadsMerkleSummary Hash :=
  ⟨tree.maxDegree, tree.maxLevel, tree.maxLevelHashes⟩

def isEmpty (tree : MerkleTree Hash) : Bool := tree.maxLevel = 1 ∧ tree.maxLevelHashes.length = 0

end MerkleTree

/-- Without hashing there is no tree. -/
structure RangeQueryResultsHelper (Result Hash : Type) where
  pendingResults : List Result
  mt : Option (MerkleTree Hash)
  maxDegree : UInt32
  deriving DecidableEq

namespace RangeQueryResultsHelper

def newRangeQueryResultsHelper (enableHashing : Bool) (maxDegree : UInt32) :
    Option (RangeQueryResultsHelper Result Hash) :=
  if enableHashing then
    (MerkleTree.newMerkleTree maxDegree).map fun mt => ⟨[], some mt, maxDegree⟩
  else some ⟨[], none, maxDegree⟩

def processPendingResults (hashing : Hashing Result Hash) (mt : MerkleTree Hash)
    (helper : RangeQueryResultsHelper Result Hash) : RangeQueryResultsHelper Result Hash :=
  { helper with pendingResults := [], mt := some (mt.update hashing (hashing.serializedHash helper.pendingResults)) }

def addResult (hashing : Hashing Result Hash) (helper : RangeQueryResultsHelper Result Hash) (result : Result) :
    RangeQueryResultsHelper Result Hash :=
  let added := { helper with pendingResults := helper.pendingResults ++ [result] }
  match helper.mt with
  | none => added
  | some mt =>
    if helper.maxDegree < UInt32.ofNat added.pendingResults.length then added.processPendingResults hashing mt
    else added

/-- The results that are still pending, and the summary if results were hashed. -/
def done (hashing : Hashing Result Hash) (helper : RangeQueryResultsHelper Result Hash) :
    List Result × Option (QueryReadsMerkleSummary Hash) :=
  match helper.mt with
  | none => (helper.pendingResults, none)
  | some mt =>
    if mt.isEmpty then (helper.pendingResults, none)
    else if helper.pendingResults.length ≠ 0 then
      ([], some ((mt.update hashing (hashing.serializedHash helper.pendingResults)).done hashing).getSummery)
    else (helper.pendingResults, some (mt.done hashing).getSummery)

def getMerkleSummary (helper : RangeQueryResultsHelper Result Hash) : Option (QueryReadsMerkleSummary Hash) :=
  helper.mt.map MerkleTree.getSummery

def summarise (hashing : Hashing Result Hash) (maxDegree : UInt32) (results : List Result) :
    Option (QueryReadsMerkleSummary Hash) :=
  match newRangeQueryResultsHelper true maxDegree with
  | none => none
  | some helper => (done hashing (results.foldl (addResult hashing) helper)).2

end RangeQueryResultsHelper

/-- How a range query validator ends without an answer. -/
inductive RangeQueryPanic where
  | indexOutOfRange
  | nilPointer
  deriving DecidableEq

open RangeQueryResultsHelper

/-- The comparison after one more result: the number of hashes that match so far, or none at a mismatch.
Here `matched` is one more than `lastMatchedIndex`. -/
def compareHashes [DecidableEq Hash] (inMerkle merkle : QueryReadsMerkleSummary Hash) (matched : Nat) :
    Except RangeQueryPanic (Option Nat) :=
  if merkle.maxLevel < inMerkle.maxLevel then .ok (some matched)
  else if matched = merkle.maxLevelHashes.length then .ok (some matched)
  else if inMerkle.maxLevelHashes.length < merkle.maxLevelHashes.length then .ok none
  else
    match merkle.maxLevelHashes[matched]?, inMerkle.maxLevelHashes[matched]? with
    | some hash, some expected => if hash = expected then .ok (some (matched + 1)) else .ok none
    | _, _ => .error .indexOutOfRange

/-- The results of the iterator are added one by one, and the tree is compared with the summary after each. -/
def validateHashesFrom [DecidableEq Hash] (hashing : Hashing Result Hash) (inMerkle : QueryReadsMerkleSummary Hash) :
    List Result → RangeQueryResultsHelper Result Hash → Nat → Except RangeQueryPanic Bool
  | [], helper, _ => .ok (decide ((done hashing helper).2 = some inMerkle))
  | result :: results, helper, matched =>
    let helper := addResult hashing helper result
    match helper.getMerkleSummary with
    | none => .error .nilPointer
    | some merkle =>
      match compareHashes inMerkle merkle matched with
      | .error stop => .error stop
      | .ok none => .ok false
      | .ok (some matched) => validateHashesFrom hashing inMerkle results helper matched

/-- The validator for a summary. The error of a degree that is too small is ignored, so that the helper is nil. -/
def validateHashes [DecidableEq Hash] (hashing : Hashing Result Hash) (inMerkle : QueryReadsMerkleSummary Hash)
    (results : List Result) : Except RangeQueryPanic Bool :=
  match newRangeQueryResultsHelper true inMerkle.maxDegree with
  | none => .error .nilPointer
  | some helper => validateHashesFrom hashing inMerkle results helper 0

end Pobl.Txmgmt
