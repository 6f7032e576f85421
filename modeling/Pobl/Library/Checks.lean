/-
This file gives rules for sequences of checks.
A check returns a value or stops with an error.
-/

import Mathlib.Data.List.Forall2

namespace Pobl.Library

variable {Stop First Second : Type}

/-- A missing value stops the sequence. -/
def fetch (stop : Stop) : Option First → Except Stop First
  | none => .error stop
  | some value => .ok value

/-- A condition that does not hold stops the sequence. -/
def require (condition : Prop) [Decidable condition] (stop : Stop) : Except Stop Unit :=
  if condition then .ok () else .error stop

/-- The items are checked in order until one of the checks stops. -/
def checkAll (check : First → Except Stop Unit) : List First → Except Stop Unit
  | [] => .ok ()
  | item :: rest => do
    check item
    checkAll check rest

@[simp] theorem bind_eq_ok (first : Except Stop First) (next : First → Except Stop Second) (result : Second) :
    (first >>= next) = .ok result ↔ ∃ value, first = .ok value ∧ next value = .ok result := by
  cases first with
  | error stop => exact ⟨nofun, fun ⟨_, returned, _⟩ => nomatch returned⟩
  | ok value => exact ⟨fun returned => ⟨value, rfl, returned⟩, fun ⟨_, rfl, returned⟩ => returned⟩

@[simp] theorem pure_eq_ok (value result : First) :
    (pure value : Except Stop First) = .ok result ↔ value = result := by
  constructor
  · exact Except.ok.inj
  · rintro rfl
    rfl

@[simp] theorem mapError_eq_ok {Other : Type} (change : Stop → Other) (check : Except Stop First) (result : First) :
    check.mapError change = .ok result ↔ check = .ok result := by
  cases check with
  | error stop => exact ⟨nofun, nofun⟩
  | ok value => simp [Except.mapError]

@[simp] theorem fetch_eq_ok (stop : Stop) (value : Option First) (result : First) :
    fetch stop value = .ok result ↔ value = some result := by
  cases value with
  | none => exact ⟨nofun, nofun⟩
  | some value => simp [fetch]

@[simp] theorem require_eq_ok (condition : Prop) [Decidable condition] (stop : Stop) (result : Unit) :
    require condition stop = .ok result ↔ condition := by
  by_cases holds : condition <;> simp [require, holds]

@[simp] theorem checkAll_eq_ok (check : First → Except Stop Unit) (items : List First) (result : Unit) :
    checkAll check items = .ok result ↔ ∀ item ∈ items, check item = .ok () := by
  induction items with
  | nil => simp [checkAll]
  | cons item rest ih =>
    rw [checkAll, bind_eq_ok, List.forall_mem_cons]
    constructor
    · rintro ⟨⟨⟩, first, later⟩
      exact ⟨first, ih.mp later⟩
    · rintro ⟨first, later⟩
      exact ⟨(), first, ih.mpr later⟩

/-- The items are changed in order, and the results stand in the same order. -/
theorem mapM_eq_ok (change : First → Except Stop Second) (items : List First) (results : List Second) :
    items.mapM change = .ok results ↔ List.Forall₂ (fun item result => change item = .ok result) items results := by
  induction items generalizing results with
  | nil => rw [List.mapM_nil, pure_eq_ok, List.forall₂_nil_left_iff, eq_comm]
  | cons item rest ih =>
    simp only [List.mapM_cons, bind_eq_ok, pure_eq_ok, List.forall₂_cons_left_iff, ih]
    constructor
    · rintro ⟨first, changed, later, all, rfl⟩
      exact ⟨first, later, changed, all, rfl⟩
    · rintro ⟨first, later, changed, all, rfl⟩
      exact ⟨first, changed, later, all, rfl⟩

end Pobl.Library
