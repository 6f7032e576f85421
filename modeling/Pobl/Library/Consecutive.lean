/-
This file gives lists of machine numbers that follow each other.
-/

import Mathlib.Data.List.Nodup
import Mathlib.Data.List.Iterate

namespace Pobl.Library

open List

/-- The numbers that follow each other from the first one on. They wrap around. -/
def consecutive (first : UInt64) (count : Nat) : List UInt64 := iterate (· + 1) first count

theorem iterate_succ_eq (first : UInt64) (count : Nat) :
    (fun number : UInt64 => number + 1)^[count] first = first + UInt64.ofNat count := by
  induction count with
  | zero => simp
  | succ count ih =>
    rw [Function.iterate_succ_apply', ih, UInt64.ofNat_add, UInt64.add_assoc]
    rfl

theorem consecutive_cons (first : UInt64) (count : Nat) :
    consecutive first (count + 1) = first :: consecutive (first + 1) count := rfl

theorem consecutive_succ (first : UInt64) (count : Nat) :
    consecutive first (count + 1) = consecutive first count ++ [first + UInt64.ofNat count] := by
  rw [consecutive, iterate_add, iterate_succ_eq]
  rfl

/-- No number comes twice before all of them were used. -/
theorem nodup_consecutive (first : UInt64) {count : Nat} (bounded : count ≤ 2 ^ 64) :
    (consecutive first count).Nodup := by
  rw [nodup_iff_injective_getElem]
  intro one two same
  have within := one.isLt
  have below := two.isLt
  simp only [consecutive, length_iterate] at within below
  simp only [consecutive, getElem_iterate, iterate_succ_eq, UInt64.add_right_inj] at same
  have equal := congrArg UInt64.toNat same
  simp only [UInt64.toNat_ofNat'] at equal
  apply Fin.ext
  omega

/-- Without a wrap the numbers are those of an interval. -/
theorem mem_consecutive {first : UInt64} {count : Nat} (bounded : first.toNat + count ≤ 2 ^ 64) (number : UInt64) :
    number ∈ consecutive first count ↔ first.toNat ≤ number.toNat ∧ number.toNat < first.toNat + count := by
  induction count with
  | zero =>
    simp only [consecutive, iterate, not_mem_nil, false_iff]
    omega
  | succ count ih =>
    have last : (first + UInt64.ofNat count).toNat = first.toNat + count := by
      rw [UInt64.toNat_add, UInt64.toNat_ofNat']
      omega
    rw [consecutive_succ, mem_append, mem_singleton, ih (by omega), ← UInt64.toNat_inj, last]
    omega

end Pobl.Library
