/-
This file shows that fields on the wire are read back as they were written.
-/

import Pobl.Library.Wire

namespace Pobl.Library.Wire

open Written Reads List

variable {Message Sub : Type} {table : Table Message} {number : Nat} {before after : Message} {element : Sub}

/-- The bytes a field writes, also when it reports an error. -/
def Written.bytes : Written → Bytes
  | .complete bytes => bytes
  | .invalidUTF8 bytes => bytes
  | .failed bytes => bytes

@[simp] theorem marshal_nil : marshal [] = ([], true) := rfl

section Append

variable (number : Nat) (later : List Written)

@[simp] theorem marshal_appendNumber (value : UInt64) : marshal (appendNumber number value :: later) =
      ((appendNumber number value).bytes ++ (marshal later).1, (marshal later).2) := rfl

@[simp] theorem marshal_appendInt32 (value : Int32) : marshal (appendInt32 number value :: later) =
      ((appendInt32 number value).bytes ++ (marshal later).1, (marshal later).2) := rfl

@[simp] theorem marshal_appendInt64 (value : Int64) : marshal (appendInt64 number value :: later) =
      ((appendInt64 number value).bytes ++ (marshal later).1, (marshal later).2) := rfl

@[simp] theorem marshal_appendBool (value : Bool) : marshal (appendBool number value :: later) =
      ((appendBool number value).bytes ++ (marshal later).1, (marshal later).2) := rfl

@[simp] theorem marshal_appendBytes (value : Bytes) : marshal (appendBytes number value :: later) =
      ((appendBytes number value).bytes ++ (marshal later).1, (marshal later).2) := rfl

@[simp] theorem marshal_appendString (value : Bytes) : marshal (appendString number value :: later) =
      ((appendString number value).bytes ++ (marshal later).1, validString value && (marshal later).2) := by
  by_cases valid : validString value <;> simp [appendString, marshal, bytes, valid]

end Append

/-- The value is no longer than the field that holds it. -/
theorem length_le_delimitedField (number : Nat) (value : Bytes) :
    value.length ≤ (delimitedField number value).length := by
  simp only [delimitedField, appendDelimited, length_append]
  omega

theorem length_le_appendBytes (number : Nat) (value : Bytes) :
    value.length ≤ (appendBytes number value).bytes.length := by
  by_cases empty : value = []
  · simp [empty]
  · simpa [appendBytes, bytes, empty] using length_le_delimitedField number value

theorem bytes_appendString (number : Nat) (value : Bytes) :
    (appendString number value).bytes = (appendBytes number value).bytes := by
  by_cases valid : validString value <;> simp [appendString, appendBytes, bytes, valid]

theorem length_le_appendString (number : Nat) (value : Bytes) :
    value.length ≤ (appendString number value).bytes.length := by
  rw [bytes_appendString]
  exact length_le_appendBytes number value

section Elements

variable {elements : List Sub} {encode : Sub → Bytes × Bool}

theorem bytes_appendElements (number : Nat) (elements : List Sub) (encode : Sub → Bytes × Bool) :
    (appendElements number (elements.map encode)).bytes =
      elements.flatMap fun element => delimitedField number (encode element).1 := by
  by_cases valid : (elements.map encode).all Prod.snd <;>
    simp only [appendElements, valid, if_true, Bool.false_eq_true, if_false, bytes, flatMap_map]

theorem marshal_appendElements (valid : ∀ element ∈ elements, (encode element).2 = true) (number : Nat)
    (later : List Written) :
    marshal (appendElements number (elements.map encode) :: later) =
      ((appendElements number (elements.map encode)).bytes ++ (marshal later).1, (marshal later).2) := by
  have all : (elements.map encode).all Prod.snd = true := by simpa using valid
  simp only [appendElements, all, if_true, marshal, bytes]

theorem marshal_appendElements_of_invalid (invalid : ∃ element ∈ elements, (encode element).2 = false) (number : Nat)
    (later : List Written) :
    marshal (appendElements number (elements.map encode) :: later) =
      ((appendElements number (elements.map encode)).bytes, false) := by
  have some : (elements.map encode).all Prod.snd = false := by simpa using invalid
  simp only [appendElements, some, Bool.false_eq_true, if_false, marshal, bytes]

end Elements

section Numbers

variable (table) (number : Nat)

theorem reads_number (value : UInt64) (before : Message) {set : UInt64 → Message → Message}
    (entry : table number = some (readVarint set)) (tag : 8 * number < 2 ^ 64) (unset : set 0 before = before) :
    Reads table (appendNumber number value).bytes true before (set value before) := by
  by_cases zero : value = 0
  · rw [zero, unset]
    exact nil table before
  · simp only [appendNumber, bytes, zero, if_false]
    refine field (by simpa [wireVarint] using tag) (by decide) fun rest => ?_
    simp [readField, entry, readVarint]

theorem reads_int32 (value : Int32) (before : Message) {set : Int32 → Message → Message}
    (entry : table number = some (readInt32 set)) (tag : 8 * number < 2 ^ 64) (unset : set 0 before = before) :
    Reads table (appendInt32 number value).bytes true before (set value before) := by
  have back : value.toInt64.toUInt64.toInt64.toInt32 = value := by simp
  have read := reads_number table number value.toInt64.toUInt64 before entry tag unset
  rwa [back] at read

theorem reads_int64 (value : Int64) (before : Message) {set : Int64 → Message → Message}
    (entry : table number = some (readInt64 set)) (tag : 8 * number < 2 ^ 64) (unset : set 0 before = before) :
    Reads table (appendInt64 number value).bytes true before (set value before) := by
  have back : value.toUInt64.toInt64 = value := by simp
  have read := reads_number table number value.toUInt64 before entry tag unset
  rwa [back] at read

theorem reads_bool (value : Bool) (before : Message) {set : Bool → Message → Message}
    (entry : table number = some (readBool set)) (tag : 8 * number < 2 ^ 64) (unset : set false before = before) :
    Reads table (appendBool number value).bytes true before (set value before) := by
  cases value with
  | false => exact reads_number table number 0 before entry tag unset
  | true => exact reads_number table number 1 before entry tag unset

end Numbers

section Delimited

variable (table) (number : Nat) (value : Bytes) (before : Message) {set : Bytes → Message → Message}

theorem reads_bytes (entry : table number = some (readBytes set)) (tag : 8 * number + 2 < 2 ^ 64)
    (short : value.length < 2 ^ 64) (unset : set [] before = before) :
    Reads table (appendBytes number value).bytes true before (set value before) := by
  by_cases empty : value = []
  · rw [empty, unset]
    exact nil table before
  · simp only [appendBytes, bytes, empty, if_false, delimitedField]
    refine field (by simpa [wireBytes] using tag) (by decide) fun rest => ?_
    simp [readField, entry, readBytes, decodeDelimited_append short]

theorem reads_string (entry : table number = some (readString set)) (tag : 8 * number + 2 < 2 ^ 64)
    (short : value.length < 2 ^ 64) (unset : set [] before = before) :
    Reads table (appendString number value).bytes (validString value) before (set value before) := by
  rw [bytes_appendString]
  by_cases empty : value = []
  · rw [empty, unset, validString_nil]
    exact nil table before
  · simp only [appendBytes, bytes, empty, if_false, delimitedField]
    by_cases valid : validString value
    · rw [valid]
      refine field (by simpa [wireBytes] using tag) (by decide) fun rest => ?_
      simp [readField, entry, readString, decodeDelimited_append short, valid]
    · rw [Bool.eq_false_iff.mpr valid]
      refine invalidField (by simpa [wireBytes] using tag) (by decide) fun rest => ?_
      simp [readField, entry, readString, decodeDelimited_append short, valid]

end Delimited

section Messages

variable {subTable : Table Sub} {body : Bytes}

theorem reads_message {get : Message → Sub} {set : Sub → Message → Message} {sub : Sub}
    (entry : table number = some (readMessage subTable get set)) (tag : 8 * number + 2 < 2 ^ 64)
    (short : body.length < 2 ^ 64) (decoded : unmarshal subTable (get before) body = (sub, true))
    (changed : set sub before = after) : Reads table (delimitedField number body) true before after := by
  refine field (by simpa [wireBytes] using tag) (by decide) fun rest => ?_
  simp [readField, entry, readMessage, decodeDelimited_append short, decoded, changed]

variable {zero : Sub} {add : Sub → Message → Message} (entry : table number = some (readElement subTable zero add))
  (tag : 8 * number + 2 < 2 ^ 64) {encode : Sub → Bytes × Bool} {elements : List Sub}

include entry tag

theorem reads_element (short : body.length < 2 ^ 64) (decoded : unmarshal subTable zero body = (element, true)) :
    Reads table (delimitedField number body) true before (add element before) := by
  refine field (by simpa [wireBytes] using tag) (by decide) fun rest => ?_
  simp [readField, entry, readElement, decodeDelimited_append short, decoded]

theorem stops_element (short : body.length < 2 ^ 64) (decoded : unmarshal subTable zero body = (element, false)) :
    Stops table (delimitedField number body) before before := by
  refine Stops.field (by simpa [wireBytes] using tag) (by decide) fun rest => ?_
  simp [readField, entry, readElement, decodeDelimited_append short, decoded]

variable (back : ∀ element, (encode element).1.length < 2 ^ 64 →
  unmarshal subTable zero (encode element).1 = (element, (encode element).2))

include back

/-- The elements are added in order if all of them can be read. -/
theorem reads_elements (short : (appendElements number (elements.map encode)).bytes.length < 2 ^ 64)
    (valid : ∀ element ∈ elements, (encode element).2 = true)
    (changed : elements.foldl (fun message element => add element message) before = after) :
    Reads table (appendElements number (elements.map encode)).bytes true before after := by
  rw [bytes_appendElements] at short ⊢
  subst changed
  induction elements generalizing before with
  | nil => exact nil table before
  | cons element later ih =>
    have shorter := length_le_delimitedField number (encode element).1
    simp only [flatMap_cons, length_append] at short ⊢
    rw [forall_mem_cons] at valid
    have decoded := back element (by omega)
    rw [valid.1] at decoded
    exact (reads_element entry tag (by omega) decoded).append (ih (by omega) valid.2)

/-- Otherwise the elements before the first bad one are added. -/
theorem stops_elements (short : (appendElements number (elements.map encode)).bytes.length < 2 ^ 64)
    (bad : ∃ element ∈ elements, (encode element).2 = false) :
    ∃ good : List Sub, good.length < elements.length ∧
      Stops table (appendElements number (elements.map encode)).bytes before
        (good.foldl (fun message element => add element message) before) := by
  rw [bytes_appendElements] at short ⊢
  induction elements generalizing before with
  | nil =>
    obtain ⟨_, missing, _⟩ := bad
    cases missing
  | cons element later ih =>
    have shorter := length_le_delimitedField number (encode element).1
    simp only [flatMap_cons, length_append] at short ⊢
    have decoded := back element (by omega)
    cases valid : (encode element).2 with
    | false =>
      rw [valid] at decoded
      exact ⟨[], by simp, (stops_element entry tag (by omega) decoded).append _⟩
    | true =>
      have badLater : ∃ element ∈ later, (encode element).2 = false := by simpa [valid] using bad
      obtain ⟨good, fewer, stops⟩ := ih (by omega) badLater
      rw [valid] at decoded
      exact ⟨element :: good, by simpa using fewer, (reads_element entry tag (by omega) decoded).stops stops⟩

end Messages

/-- A number in a field of another wire type is passed over. -/
theorem reads_skipped_number {reader : Reader Message} (entry : table number = some reader)
    (refused : ∀ bytes message, reader wireVarint bytes message = .badWireType) (tag : 8 * number < 2 ^ 64)
    (value : UInt64) : Reads table (appendNumber number value).bytes true before before := by
  by_cases zero : value = 0
  · simpa [appendNumber, bytes, zero] using nil table before
  · simp only [appendNumber, bytes, zero, if_false]
    refine field (by simpa [wireVarint] using tag) (by decide) fun rest => ?_
    simp only [readField, entry, Option.elim_some, refused]
    simp [skipField, skipFlat, wireVarint, wireStartGroup]

end Pobl.Library.Wire
