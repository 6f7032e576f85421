/-
This file gives numbers as bytes with the highest byte first.
Numbers of one length have the order of their bytes, and so do numbers without leading zeros behind their lengths.
-/

import Pobl.Library.Wire

namespace Pobl.Library

open Wire List

/-- The last bytes of a number. -/
def putBytes : Nat → Nat → Bytes
  | 0, _ => []
  | count + 1, number => UInt8.ofNat (number / 256 ^ count) :: putBytes count number

def ofBytes : Bytes → Nat
  | [] => 0
  | byte :: rest => byte.toNat * 256 ^ rest.length + ofBytes rest

def trimBytes (bytes : Bytes) : Bytes := bytes.dropWhile (· = 0)

variable {bytes first second : Bytes}

@[simp] theorem length_putBytes (count number : Nat) : (putBytes count number).length = count := by
  induction count with
  | zero => rfl
  | succ count ih => rw [putBytes, length_cons, ih]

theorem ofBytes_putBytes (count number : Nat) : ofBytes (putBytes count number) = number % 256 ^ count := by
  induction count with
  | zero => rw [Nat.pow_zero, Nat.mod_one, putBytes, ofBytes]
  | succ count ih =>
    have digit : (UInt8.ofNat (number / 256 ^ count)).toNat = number / 256 ^ count % 256 := rfl
    rw [putBytes, ofBytes, ih, length_putBytes, digit, Nat.pow_succ', Nat.mul_comm 256, Nat.mod_mul, Nat.mul_comm,
      Nat.add_comm]

theorem ofBytes_lt (bytes : Bytes) : ofBytes bytes < 256 ^ bytes.length := by
  induction bytes with
  | nil => exact Nat.one_pos
  | cons byte rest ih =>
    calc byte.toNat * 256 ^ rest.length + ofBytes rest
      _ < (byte.toNat + 1) * 256 ^ rest.length := by rw [Nat.succ_mul]; omega
      _ ≤ 256 * 256 ^ rest.length := Nat.mul_le_mul_right _ byte.toNat_lt
      _ = 256 ^ (rest.length + 1) := (Nat.pow_succ').symm

/-- The highest digit decides, and the rest is below its weight. -/
theorem digit_lt_iff {high high' low low' weight : Nat} (below : low < weight) (below' : low' < weight) :
    high * weight + low < high' * weight + low' ↔ high < high' ∨ high = high' ∧ low < low' := by
  rcases Nat.lt_trichotomy high high' with less | rfl | more
  · have step := Nat.mul_le_mul_right weight less
    rw [Nat.succ_mul] at step
    omega
  · omega
  · have step := Nat.mul_le_mul_right weight more
    rw [Nat.succ_mul] at step
    omega

/-- Bytes of one length are compared like their numbers, whatever follows them. -/
theorem append_lt_append_iff (same : first.length = second.length) (rest rest' : Bytes) :
    first ++ rest < second ++ rest' ↔ ofBytes first < ofBytes second ∨ first = second ∧ rest < rest' := by
  induction first generalizing second with
  | nil => simp [eq_nil_of_length_eq_zero same.symm, ofBytes]
  | cons byte bytes ih =>
    obtain ⟨byte', bytes', rfl⟩ := exists_cons_of_length_eq_add_one same.symm
    -- The first byte decides in both orders, and what the other bytes add stays below its weight.
    have same := Nat.succ.inj same
    have below := ofBytes_lt bytes'
    rw [← same] at below
    rw [cons_append, cons_append, cons_lt_cons_iff, ih same, ofBytes, ofBytes, ← same,
      digit_lt_iff (ofBytes_lt bytes) below, UInt8.lt_iff_toNat_lt, cons.injEq, ← UInt8.toNat_inj]
    tauto

theorem ofBytes_trimBytes (bytes : Bytes) : ofBytes (trimBytes bytes) = ofBytes bytes := by
  induction bytes with
  | nil => rfl
  | cons byte rest ih =>
    rw [trimBytes, dropWhile_cons]
    split
    next zero =>
      rw [ofBytes, of_decide_eq_true zero, UInt8.toNat_zero, Nat.zero_mul, Nat.zero_add]
      exact ih
    · rfl

theorem ofBytes_replicate_append (count : Nat) (bytes : Bytes) :
    ofBytes (replicate count 0 ++ bytes) = ofBytes bytes := by
  induction count with
  | zero => rfl
  | succ count ih => rw [replicate_succ, cons_append, ofBytes, UInt8.toNat_zero, Nat.zero_mul, Nat.zero_add, ih]

/-- The first byte that is left is not zero. -/
theorem le_ofBytes (nonempty : trimBytes bytes ≠ []) : 256 ^ ((trimBytes bytes).length - 1) ≤ ofBytes bytes := by
  obtain ⟨byte, rest, trimmed⟩ := exists_cons_of_ne_nil nonempty
  have leading := head?_dropWhile_not (fun byte : UInt8 => decide (byte = 0)) bytes
  rw [trimBytes] at trimmed
  simp only [trimmed, head?_cons, decide_eq_false_iff_not] at leading
  have positive : 0 < byte.toNat := Nat.pos_of_ne_zero fun zero => leading (UInt8.toNat_inj.mp zero)
  rw [← ofBytes_trimBytes, trimBytes, trimmed, ofBytes, length_cons, Nat.add_sub_cancel]
  exact Nat.le_add_right_of_le (Nat.le_mul_of_pos_left _ positive)

/-- A number with more bytes is larger. -/
theorem lt_of_length_lt (shorter : (trimBytes first).length < (trimBytes second).length) :
    ofBytes first < ofBytes second := by
  have nonempty : trimBytes second ≠ [] := length_pos_iff.mp (Nat.zero_lt_of_lt shorter)
  calc ofBytes first
    _ = ofBytes (trimBytes first) := (ofBytes_trimBytes first).symm
    _ < 256 ^ (trimBytes first).length := ofBytes_lt _
    _ ≤ 256 ^ ((trimBytes second).length - 1) := Nat.pow_le_pow_right (by decide) (by omega)
    _ ≤ ofBytes second := le_ofBytes nonempty

/-- A number without leading zeros behind its length. -/
def orderedBytes (count number : Nat) : Bytes :=
  UInt8.ofNat (trimBytes (putBytes count number)).length :: trimBytes (putBytes count number)

theorem length_trimBytes_le (count number : Nat) : (trimBytes (putBytes count number)).length ≤ count := by
  simpa [trimBytes] using (dropWhile_sublist (l := putBytes count number) (· = 0)).length_le

/-- The lengths decide first, then the bytes of one length, then what follows. -/
theorem orderedBytes_append_lt_iff {count number number' : Nat} (small : count < 256) (fits : number < 256 ^ count)
    (fits' : number' < 256 ^ count) (rest rest' : Bytes) :
    orderedBytes count number ++ rest < orderedBytes count number' ++ rest' ↔
      number < number' ∨ number = number' ∧ rest < rest' := by
  have value {number : Nat} (fits : number < 256 ^ count) : ofBytes (putBytes count number) = number := by
    rw [ofBytes_putBytes, Nat.mod_eq_of_lt fits]
  have size (number : Nat) : (UInt8.ofNat (trimBytes (putBytes count number)).length).toNat =
      (trimBytes (putBytes count number)).length :=
    Nat.mod_eq_of_lt (Nat.lt_of_le_of_lt (length_trimBytes_le count number) small)
  rw [orderedBytes, orderedBytes, cons_append, cons_append, cons_lt_cons_iff, UInt8.lt_iff_toNat_lt, ← UInt8.toNat_inj,
    size, size]
  -- A number with fewer bytes has the smaller length in front, so the bytes are only compared for one length.
  rcases Nat.lt_trichotomy (trimBytes (putBytes count number)).length (trimBytes (putBytes count number')).length
    with shorter | same | longer
  · have less := lt_of_length_lt shorter
    rw [value fits, value fits'] at less
    simp [shorter, less]
  · have equal : trimBytes (putBytes count number) = trimBytes (putBytes count number') ↔ number = number' := by
      refine ⟨fun equal => ?_, fun equal => by rw [equal]⟩
      rw [← value fits, ← value fits', ← ofBytes_trimBytes, equal, ofBytes_trimBytes]
    rw [append_lt_append_iff same, ofBytes_trimBytes, ofBytes_trimBytes, value fits, value fits', equal]
    simp [same]
  · have less := lt_of_length_lt longer
    rw [value fits, value fits'] at less
    omega

end Pobl.Library
