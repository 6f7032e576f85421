/-
This file gives trees of hashes over batches of items.
A tree stands for the hash that is computed from it, and equal hashes come from equal trees.
-/

import Mathlib.Data.List.Basic
import Mathlib.Tactic.Ring

namespace Pobl.Library

open List

/-- A tree has a batch of items at each leaf. -/
inductive HashTree (Item : Type) where
  | leaf (items : List Item)
  | node (below : List (HashTree Item))

namespace HashTree

variable {Item Hash : Type}

mutual
def decEq [DecidableEq Item] : (first second : HashTree Item) → Decidable (first = second)
  | .leaf items, .leaf items' => decidable_of_iff (items = items') (by simp)
  | .leaf _, .node _ => isFalse nofun
  | .node _, .leaf _ => isFalse nofun
  | .node below, .node below' =>
      match decEqAll below below' with
      | isTrue same => isTrue (congrArg node same)
      | isFalse different => isFalse fun same => different (node.inj same)

def decEqAll [DecidableEq Item] : (first second : List (HashTree Item)) → Decidable (first = second)
  | [], [] => isTrue rfl
  | [], _ :: _ => isFalse nofun
  | _ :: _, [] => isFalse nofun
  | tree :: trees, tree' :: trees' =>
      match decEq tree tree', decEqAll trees trees' with
      | isTrue same, isTrue later => isTrue (by rw [same, later])
      | isFalse different, _ => isFalse fun same => different (List.cons.inj same).1
      | _, isFalse different => isFalse fun same => different (List.cons.inj same).2
end

instance [DecidableEq Item] : DecidableEq (HashTree Item) := decEq

mutual
/-- The items of a tree from left to right. -/
def items : HashTree Item → List Item
  | .leaf items => items
  | .node below => itemsAll below

def itemsAll : List (HashTree Item) → List Item
  | [] => []
  | tree :: trees => tree.items ++ itemsAll trees
end

@[simp] theorem items_leaf (items : List Item) : (leaf items).items = items := by rw [HashTree.items]
@[simp] theorem items_node (below : List (HashTree Item)) : (node below).items = itemsAll below := by rw [HashTree.items]
@[simp] theorem itemsAll_nil : itemsAll ([] : List (HashTree Item)) = [] := by rw [itemsAll]
@[simp] theorem itemsAll_cons (tree : HashTree Item) (trees : List (HashTree Item)) :
    itemsAll (tree :: trees) = tree.items ++ itemsAll trees := by rw [itemsAll]

@[simp] theorem itemsAll_append (first second : List (HashTree Item)) :
    itemsAll (first ++ second) = itemsAll first ++ itemsAll second := by
  induction first with
  | nil => simp
  | cons tree trees ih => simp [ih]

section Digest

variable (ofItems : List Item → Hash) (ofHashes : List Hash → Hash)

mutual
/-- The hash of a tree. -/
def digest : HashTree Item → Hash
  | .leaf items => ofItems items
  | .node below => ofHashes (digestAll below)

def digestAll : List (HashTree Item) → List Hash
  | [] => []
  | tree :: trees => digest tree :: digestAll trees
end

theorem digestAll_eq_map (trees : List (HashTree Item)) :
    digestAll ofItems ofHashes trees = trees.map (digest ofItems ofHashes) := by
  induction trees with
  | nil => rw [digestAll, map_nil]
  | cons tree trees ih => rw [digestAll, ih, map_cons]

@[simp] theorem digest_leaf (items : List Item) : digest ofItems ofHashes (leaf items) = ofItems items := by
  rw [digest]

@[simp] theorem digest_node (below : List (HashTree Item)) :
    digest ofItems ofHashes (node below) = ofHashes (below.map (digest ofItems ofHashes)) := by
  rw [digest, digestAll_eq_map]

end Digest

/-- Two different inputs never have the same hash. -/
structure CollisionFree (ofItems : List Item → Hash) (ofHashes : List Hash → Hash) : Prop where
  items_injective : Function.Injective ofItems
  hashes_injective : Function.Injective ofHashes
  disjoint : ∀ items hashes, ofItems items ≠ ofHashes hashes

section Injective

variable {ofItems : List Item → Hash} {ofHashes : List Hash → Hash}

mutual
theorem eq_of_digest_eq (free : CollisionFree ofItems ofHashes) : ∀ first second : HashTree Item,
    digest ofItems ofHashes first = digest ofItems ofHashes second → first = second
  | .leaf items, .leaf items', same => by
      rw [free.items_injective same]
  | .leaf items, .node below, same => by
      exact absurd same (free.disjoint _ _)
  | .node below, .leaf items, same => by
      exact absurd same.symm (free.disjoint _ _)
  | .node below, .node below', same => by
      rw [digest_node, digest_node] at same
      rw [eq_of_map_digest_eq free below below' (free.hashes_injective same)]

theorem eq_of_map_digest_eq (free : CollisionFree ofItems ofHashes) : ∀ first second : List (HashTree Item),
    first.map (digest ofItems ofHashes) = second.map (digest ofItems ofHashes) → first = second
  | [], [], _ => rfl
  | [], _ :: _, same => nomatch same
  | _ :: _, [], same => nomatch same
  | tree :: trees, tree' :: trees', same => by
      rw [map_cons, map_cons, List.cons.injEq] at same
      rw [eq_of_digest_eq free tree tree' same.1, eq_of_map_digest_eq free trees trees' same.2]
end

end Injective

/-- A full tree of a given height has the same number of children at each node, and of items at each leaf. -/
def Full (width : Nat) : Nat → HashTree Item → Prop
  | 0, .leaf items => items.length = width
  | height + 1, .node below => below.length = width ∧ ∀ tree ∈ below, Full width height tree
  | _, _ => False

theorem length_itemsAll {size : Nat} {trees : List (HashTree Item)} (same : ∀ tree ∈ trees, tree.items.length = size) :
    (itemsAll trees).length = trees.length * size := by
  induction trees with
  | nil => simp
  | cons tree trees ih =>
      rw [forall_mem_cons] at same
      rw [itemsAll_cons, length_append, same.1, ih same.2, length_cons]
      ring

theorem length_items_of_full {width height : Nat} {tree : HashTree Item} (full : Full width height tree) :
    tree.items.length = width ^ (height + 1) := by
  induction height generalizing tree with
  | zero =>
      cases tree with
      | leaf items => simpa [Full] using full
      | node below => exact full.elim
  | succ height ih =>
      cases tree with
      | leaf items => exact full.elim
      | node below =>
          rw [items_node, length_itemsAll fun tree member => ih (full.2 tree member), full.1, ← Nat.pow_succ']

/-- The trees themselves are hashes without collisions. -/
theorem collisionFree : @CollisionFree Item (HashTree Item) .leaf .node :=
  ⟨fun _ _ => leaf.inj, fun _ _ => node.inj, nofun⟩

end HashTree

end Pobl.Library
