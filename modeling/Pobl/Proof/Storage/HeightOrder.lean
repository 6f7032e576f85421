/-
This file shows that the encoding of numbers keeps their order, also in heights and in the keys of the expiry keeper,
and when the comparison of heights agrees with the stored order.
-/

import Mathlib.Algebra.Group.Nat.Defs
import Pobl.Construction.Heights

namespace Pobl.Txmgmt

open Library Library.Wire List

theorem encode_eq (number : UInt64) :
    encodeOrderPreservingVarUint64 number = some (orderedBytes 8 number.toNat) := by
  have short := length_trimBytes_le 8 number.toNat
  have size : (UInt64.ofNat (trimBytes (putBytes 8 number.toNat)).length).toNat =
      (trimBytes (putBytes 8 number.toNat)).length := Nat.mod_eq_of_lt (by omega)
  simp only [encodeOrderPreservingVarUint64, appendVarint, appendVarintUpTo, size]
  rw [if_pos (by omega), orderedBytes]

/-- The length and the bytes behind it are read back, whatever follows them. -/
theorem decode_orderedBytes (number : UInt64) (rest : Bytes) :
    decodeOrderPreservingVarUint64 (orderedBytes 8 number.toNat ++ rest) =
      .ok (number, (orderedBytes 8 number.toNat).length) := by
  have short := length_trimBytes_le 8 number.toNat
  have value : ofBytes (trimBytes (putBytes 8 number.toNat)) = number.toNat := by
    rw [ofBytes_trimBytes, ofBytes_putBytes]
    exact Nat.mod_eq_of_lt number.toNat_lt
  generalize trimmed : trimBytes (putBytes 8 number.toNat) = bytes at short value
  -- At most eight bytes follow, so the length is a varint of one byte.
  have byte : (UInt8.ofNat bytes.length).toNat = bytes.length := Nat.mod_eq_of_lt (by omega)
  have size : (UInt64.ofNat (bytes.length * 2 ^ 0)).toNat = bytes.length := by
    rw [Nat.pow_zero, Nat.mul_one]
    exact Nat.mod_eq_of_lt (by omega)
  have counted : ¬ 8 < UInt64.ofNat (bytes.length * 2 ^ 0) := by
    rw [UInt64.lt_iff_toNat_lt, size]
    exact Nat.not_lt.mpr short
  simp only [decodeOrderPreservingVarUint64, orderedBytes, trimmed, cons_append, protoDecodeVarint, byte,
    if_pos (show bytes.length < 128 by omega), if_neg counted, size, ne_eq, not_true, if_false, length_cons, tail_cons]
  rw [if_neg (by simp), take_left, ofBytes_replicate_append, value, UInt64.ofNat_toNat]

theorem orderedBytes_lt_iff (number number' : UInt64) (rest rest' : Bytes) :
    orderedBytes 8 number.toNat ++ rest < orderedBytes 8 number'.toNat ++ rest' ↔
      number < number' ∨ number = number' ∧ rest < rest' := by
  rw [orderedBytes_append_lt_iff (by decide) number.toNat_lt number'.toNat_lt, UInt64.lt_iff_toNat_lt, UInt64.toNat_inj]

/-- Every item is encoded and read back whatever follows it, and the encodings keep the order of the items. -/
structure OrderPreserving {Item Result : Type} (encode : Item → Option Bytes)
    (decode : Bytes → Except DecodeError Result) (result : Item → Nat → Result) (before : Item → Item → Prop) :
    Prop where
  decodes : ∀ item, ∃ bytes, encode item = some bytes ∧
    ∀ rest, decode (bytes ++ rest) = .ok (result item bytes.length)
  apart : ∀ item item' bytes bytes', encode item = some bytes → encode item' = some bytes' →
    bytes <+: bytes' → item = item'
  ordered : ∀ item item' bytes bytes', encode item = some bytes → encode item' = some bytes' →
    (bytes < bytes' ↔ before item item')

/-- An encoding that is read back is the beginning of no other. -/
theorem orderPreserving_of {Item Result : Type} {encode : Item → Option Bytes}
    {decode : Bytes → Except DecodeError Result} {result : Item → Nat → Result} {before : Item → Item → Prop}
    (written : Item → Bytes) (encodes : ∀ item, encode item = some (written item))
    (decodes : ∀ item rest, decode (written item ++ rest) = .ok (result item (written item).length))
    (injective : ∀ item item' count count', result item count = result item' count' → item = item')
    (ordered : ∀ item item', written item < written item' ↔ before item item') :
    OrderPreserving encode decode result before where
  decodes item := ⟨written item, encodes item, decodes item⟩
  apart item item' bytes bytes' encoded encoded' begins := by
    cases (encodes item).symm.trans encoded
    cases (encodes item').symm.trans encoded'
    obtain ⟨rest, longer⟩ := begins
    have same := decodes item rest
    rw [longer, ← append_nil (written item'), decodes item' [], Except.ok.injEq] at same
    exact (injective _ _ _ _ same).symm
  ordered item item' bytes bytes' encoded encoded' := by
    cases (encodes item).symm.trans encoded
    cases (encodes item').symm.trans encoded'
    exact ordered item item'

def Height.Before (h h1 : Height) : Prop := h.blockNum < h1.blockNum ∨ h.blockNum = h1.blockNum ∧ h.txNum < h1.txNum

instance (h h1 : Height) : Decidable (h.Before h1) := inferInstanceAs (Decidable (_ ∨ _))

def ExpiryInfoKey.Before (key key1 : ExpiryInfoKey) : Prop :=
  key.expiryBlk < key1.expiryBlk ∨ key.expiryBlk = key1.expiryBlk ∧ key.committingBlk < key1.committingBlk

theorem orderedBytes_pair_lt_iff (first second first' second' : UInt64) :
    orderedBytes 8 first.toNat ++ orderedBytes 8 second.toNat <
        orderedBytes 8 first'.toNat ++ orderedBytes 8 second'.toNat ↔
      first < first' ∨ first = first' ∧ second < second' := by
  have last := orderedBytes_lt_iff second second' [] []
  rw [append_nil, append_nil] at last
  rw [orderedBytes_lt_iff, last]
  simp

theorem toBytes_eq (h : Height) :
    h.toBytes = some (orderedBytes 8 h.blockNum.toNat ++ orderedBytes 8 h.txNum.toNat) := by
  simp only [Height.toBytes, encode_eq, Option.pure_def, Option.bind_eq_bind, Option.bind_some]

theorem toBytes_orderPreserving :
    OrderPreserving Height.toBytes Height.newHeightFromBytes (fun h count => (h, count)) Height.Before := by
  refine orderPreserving_of _ toBytes_eq ?_ ?_ ?_
  · intro h rest
    simp only [Height.newHeightFromBytes, append_assoc, decode_orderedBytes, bind, Except.bind, drop_left, pure,
      Except.pure, length_append]
  · intro h h1 count count' same
    exact congrArg Prod.fst same
  · intro h h1
    exact orderedBytes_pair_lt_iff ..

theorem encodeExpiryInfoKey_orderPreserving :
    OrderPreserving encodeExpiryInfoKey decodeExpiryInfoKey (fun key _ => key) ExpiryInfoKey.Before := by
  refine orderPreserving_of (fun key =>
    expiryPrefix :: (orderedBytes 8 key.expiryBlk.toNat ++ orderedBytes 8 key.committingBlk.toNat)) ?_ ?_ ?_ ?_
  · intro key
    simp only [encodeExpiryInfoKey, encode_eq, Option.pure_def, Option.bind_eq_bind, Option.bind_some, cons_append,
      nil_append]
  · intro key rest
    simp only [decodeExpiryInfoKey, cons_append, append_assoc, drop_succ_cons, drop_zero, decode_orderedBytes, bind,
      Except.bind, drop_left, pure, Except.pure]
  · intro key key1 count count' same
    exact same
  · intro key key1
    rw [cons_lt_cons_iff, or_iff_right (UInt8.lt_irrefl _), and_iff_right rfl, orderedBytes_pair_lt_iff]
    exact .rfl

/-- Numbers, heights and the keys of the expiry keeper are stored in their order. -/
theorem encodings_order_preserving :
    OrderPreserving encodeOrderPreservingVarUint64 decodeOrderPreservingVarUint64 (fun n count => (n, count)) (· < ·) ∧
    OrderPreserving Height.toBytes Height.newHeightFromBytes (fun h count => (h, count)) Height.Before ∧
    OrderPreserving encodeExpiryInfoKey decodeExpiryInfoKey (fun key _ => key) ExpiryInfoKey.Before := by
  refine ⟨orderPreserving_of _ encode_eq decode_orderedBytes ?_ ?_, toBytes_orderPreserving,
    encodeExpiryInfoKey_orderPreserving⟩
  · intro number number' count count' same
    exact congrArg Prod.fst same
  · intro number number'
    have order := orderedBytes_lt_iff number number' [] []
    rwa [append_nil, append_nil, or_iff_left (fun less => List.lt_irrefl [] less.2)] at order

theorem toInt64_pos_iff (number : UInt64) : 0 < number.toInt64 ↔ 0 < number.toNat ∧ number.toNat < 2 ^ 63 := by
  have bound := number.toNat_lt
  have value : number.toInt64.toInt = (number.toNat : Int).bmod (2 ^ 64) :=
    BitVec.toInt_eq_toNat_bmod number.toBitVec
  rw [Int64.lt_iff_toInt_lt, value, Int.bmod, Int64.toInt_zero]
  omega

/-- The numbers are less than half of the range apart. -/
def Close (number number1 : UInt64) : Prop :=
  number.toNat < number1.toNat + 2 ^ 63 ∧ number1.toNat < number.toNat + 2 ^ 63

/-- The numbers whose difference decides the comparison are close. -/
def Height.Near (h h1 : Height) : Prop :=
  if h.blockNum ≠ h1.blockNum then Close h.blockNum h1.blockNum
  else if h.txNum ≠ h1.txNum then Close h.txNum h1.txNum
  else True

/-- The lexicographic order of two heights. -/
def Height.order (h h1 : Height) : Int := if h.Before h1 then -1 else if h = h1 then 0 else 1

/-- The result of `bytes.Compare`. -/
def compareBytes (bytes bytes1 : Bytes) : Int := if bytes < bytes1 then -1 else if bytes = bytes1 then 0 else 1

/-- The sign of the difference as a signed number and the order of the numbers agree. -/
def SignRight (number number1 : UInt64) : Prop :=
  (if 0 < (number - number1).toInt64 then (1 : Int) else -1) = (if number < number1 then -1 else 1)

/-- The difference wraps around, so its sign is right in both directions only within half of the range. -/
theorem signRight_iff {number number1 : UInt64} (different : number ≠ number1) :
    SignRight number number1 ∧ SignRight number1 number ↔ Close number number1 := by
  have bound := number.toNat_lt
  have bound1 := number1.toNat_lt
  have apart : number.toNat ≠ number1.toNat := fun same => different (UInt64.toNat_inj.mp same)
  have right {first second : UInt64} (apart : first.toNat ≠ second.toNat) : SignRight first second ↔
      first.toNat < second.toNat + 2 ^ 63 ∧ second.toNat ≤ first.toNat + 2 ^ 63 := by
    have bound := first.toNat_lt
    have bound1 := second.toNat_lt
    simp only [SignRight, toInt64_pos_iff, UInt64.toNat_sub, UInt64.lt_iff_toNat_lt]
    split <;> split <;> omega
  rw [right apart, right apart.symm, Close]
  omega

theorem compare_eq_zero_iff (h h1 : Height) : h.compare h1 = 0 ↔ h = h1 := by
  obtain ⟨blockNum, txNum⟩ := h
  obtain ⟨blockNum1, txNum1⟩ := h1
  rw [Height.compare, Height.mk.injEq]
  split
  · rename_i different
    split <;> simp [different]
  · split
    · rename_i different
      split <;> simp [different]
    · simp_all

/-- Two heights are compared right in both directions exactly when they are near. -/
theorem compare_eq_iff (h h1 : Height) :
    h.compare h1 = h.order h1 ∧ h1.compare h = h1.order h ↔ h.Near h1 := by
  obtain ⟨blockNum, txNum⟩ := h
  obtain ⟨blockNum1, txNum1⟩ := h1
  simp only [Height.order, Height.Before, Height.compare, Height.Near, Height.mk.injEq]
  by_cases block : blockNum = blockNum1
  · by_cases tx : txNum = txNum1
    · simp [block, tx]
    · simpa [block, tx, eq_comm, SignRight] using signRight_iff tx
  · simpa [block, eq_comm, SignRight] using signRight_iff block

/-- The bytes of two heights have the lexicographic order of the heights. -/
theorem compareBytes_toBytes (h h1 : Height) :
    ∃ bytes bytes1, h.toBytes = some bytes ∧ h1.toBytes = some bytes1 ∧ compareBytes bytes bytes1 = h.order h1 := by
  have less := toBytes_orderPreserving.ordered h h1 _ _ (toBytes_eq h) (toBytes_eq h1)
  have apart := toBytes_orderPreserving.apart h h1 _ _ (toBytes_eq h) (toBytes_eq h1)
  have same : orderedBytes 8 h.blockNum.toNat ++ orderedBytes 8 h.txNum.toNat =
      orderedBytes 8 h1.blockNum.toNat ++ orderedBytes 8 h1.txNum.toNat ↔ h = h1 :=
    ⟨fun equal => apart (equal ▸ prefix_rfl), fun equal => by rw [equal]⟩
  refine ⟨_, _, toBytes_eq h, toBytes_eq h1, ?_⟩
  simp only [compareBytes, less, same, Height.order]

theorem order_antisymm (h h1 : Height) : h.order h1 = -h1.order h := by
  obtain ⟨blockNum, txNum⟩ := h
  obtain ⟨blockNum1, txNum1⟩ := h1
  simp only [Height.order, Height.Before, Height.mk.injEq, UInt64.lt_iff_toNat_lt, ← UInt64.toNat_inj]
  split_ifs <;> omega

theorem order_trans (h h1 h2 : Height) (first : h.order h1 ≤ 0) (second : h1.order h2 ≤ 0) : h.order h2 ≤ 0 := by
  obtain ⟨blockNum, txNum⟩ := h
  obtain ⟨blockNum1, txNum1⟩ := h1
  obtain ⟨blockNum2, txNum2⟩ := h2
  simp only [Height.order, Height.Before, Height.mk.injEq, UInt64.lt_iff_toNat_lt, ← UInt64.toNat_inj] at *
  split_ifs at * <;> omega

/-- The comparison of the heights in a set is their lexicographic total order and the order of their bytes. -/
structure TotalOrder (heights : Set Height) : Prop where
  lexicographic : ∀ h ∈ heights, ∀ h1 ∈ heights, h.compare h1 = h.order h1
  antisymmetric : ∀ h ∈ heights, ∀ h1 ∈ heights, h.compare h1 = -h1.compare h
  transitive : ∀ h ∈ heights, ∀ h1 ∈ heights, ∀ h2 ∈ heights,
    h.compare h1 ≤ 0 → h1.compare h2 ≤ 0 → h.compare h2 ≤ 0
  same : ∀ h ∈ heights, ∀ h1 ∈ heights, Height.areSame (some h) (some h1) ↔ h = h1
  stored : ∀ h ∈ heights, ∀ h1 ∈ heights, ∃ bytes bytes1, h.toBytes = some bytes ∧ h1.toBytes = some bytes1 ∧
    h.compare h1 = compareBytes bytes bytes1

/-- The comparison orders the heights of a set as they are stored exactly when any two of them are near. -/
theorem compare_total_order_iff (heights : Set Height) :
    TotalOrder heights ↔ ∀ h ∈ heights, ∀ h1 ∈ heights, h.Near h1 := by
  constructor
  · intro total h listed h1 listed1
    exact (compare_eq_iff h h1).mp ⟨total.lexicographic h listed h1 listed1, total.lexicographic h1 listed1 h listed⟩
  · intro near
    have right : ∀ h ∈ heights, ∀ h1 ∈ heights, h.compare h1 = h.order h1 := fun h listed h1 listed1 =>
      ((compare_eq_iff h h1).mpr (near h listed h1 listed1)).1
    refine ⟨right, fun h listed h1 listed1 => ?_, fun h listed h1 listed1 h2 listed2 => ?_,
      fun h _ h1 _ => ?_, fun h listed h1 listed1 => ?_⟩
    · rw [right h listed h1 listed1, right h1 listed1 h listed, order_antisymm]
    · rw [right h listed h1 listed1, right h1 listed1 h2 listed2, right h listed h2 listed2]
      exact order_trans h h1 h2
    · rw [← compare_eq_zero_iff]
      exact decide_eq_true_iff
    · obtain ⟨bytes, bytes1, encoded, encoded1, compared⟩ := compareBytes_toBytes h h1
      exact ⟨bytes, bytes1, encoded, encoded1, (right h listed h1 listed1).trans compared.symm⟩

/-- The version of what expires in a block is compared as older than the first transaction of the block. -/
theorem expiry_version_before_first :
    (⟨1, 0⟩ : Height).Before ⟨1, 18446744073709551615⟩ ∧ (⟨1, 18446744073709551615⟩ : Height).compare ⟨1, 0⟩ = -1 :=
  ⟨.inr ⟨rfl, by decide⟩, by decide⟩

end Pobl.Txmgmt
