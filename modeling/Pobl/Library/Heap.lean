/-
This file models a heap of mutable objects that are never freed.
-/

import Mathlib.Logic.Function.Basic

namespace Pobl.Library

/-- A heap holds one object for each reference below its size. -/
structure Heap (Object : Type) where
  read : Nat → Object
  size : Nat

namespace Heap

variable {Object : Type}

def empty [Inhabited Object] : Heap Object := ⟨fun _ => default, 0⟩

/-- The new object takes the reference that equals the old size. -/
def alloc (heap : Heap Object) (object : Object) : Heap Object :=
  ⟨Function.update heap.read heap.size object, heap.size + 1⟩

/-- The update changes one object in place. -/
def modify (heap : Heap Object) (target : Nat) (change : Object → Object) : Heap Object :=
  ⟨Function.update heap.read target (change (heap.read target)), heap.size⟩

section

variable (heap : Heap Object)

include heap

@[simp] theorem size_alloc (object : Object) : (heap.alloc object).size = heap.size + 1 := rfl

@[simp] theorem read_alloc_new (object : Object) : (heap.alloc object).read heap.size = object := by
  simp [alloc]

theorem read_alloc_old (object : Object) {target : Nat}
    (old : target ≠ heap.size) : (heap.alloc object).read target = heap.read target := by
  simp [alloc, old]

@[simp] theorem read_modify_same (target : Nat) (change : Object → Object) :
    (heap.modify target change).read target = change (heap.read target) := by
  simp [modify]

theorem read_modify_other {target other : Nat} (change : Object → Object)
    (different : other ≠ target) : (heap.modify target change).read other = heap.read other := by
  simp [modify, different]

theorem read_modify (target other : Nat) (change : Object → Object) : (heap.modify target change).read other =
      if other = target then change (heap.read target) else heap.read other := by
  by_cases same : other = target
  · subst other
    simp
  · rw [if_neg same, read_modify_other heap change same]

end

end Heap

/-- Distinct values stay distinct when one that differs from all of them is added at the end. -/
theorem distinct_succ {Value : Type*} {old new : Nat → Value} {size : Nat}
    (same : ∀ index < size, new index = old index)
    (distinct : ∀ first < size, ∀ second < size, old first = old second → first = second)
    (fresh : ∀ index < size, old index ≠ new size) :
    ∀ first < size + 1, ∀ second < size + 1, new first = new second → first = second := by
  simp only [Nat.forall_lt_succ_right]
  refine ⟨fun first firstIn => ⟨fun second secondIn equal => ?_, fun equal => ?_⟩,
    fun second secondIn equal => ?_, fun _ => trivial⟩
  · rw [same first firstIn, same second secondIn] at equal
    exact distinct first firstIn second secondIn equal
  · rw [same first firstIn] at equal
    exact absurd equal (fresh first firstIn)
  · rw [same second secondIn] at equal
    exact absurd equal.symm (fresh second secondIn)

end Pobl.Library
