/-
This file gives the wire format of protocol buffers.
A message is written field by field, and a table of readers says what a field number does to the message.
-/

import Mathlib.Algebra.Group.Nat.Defs
import Mathlib.Data.List.Basic

namespace Pobl.Library.Wire

open UInt8 List

abbrev Bytes := List UInt8

/-- The last of at most `more + 1` bytes carries the bits that are left. -/
def appendVarintUpTo : Nat → Nat → Bytes
  | 0, value => [ofNat value]
  | more + 1, value =>
    if value < 128 then [ofNat value]
    else ofNat (value % 128 + 128) :: appendVarintUpTo more (value / 128)

/-- A varint has seven bits in each byte, the lowest first, in at most ten bytes. -/
def appendVarint (value : UInt64) : Bytes := appendVarintUpTo 9 value.toNat

/-- The tenth byte of a varint may only hold the one bit that is left of 64. -/
def decodeVarintUpTo : Nat → Bytes → Option (Nat × Bytes)
  | _, [] => none
  | 0, byte :: rest => if byte.toNat < 2 then some (byte.toNat, rest) else none
  | more + 1, byte :: rest =>
    if byte.toNat < 128 then some (byte.toNat, rest)
    else
      match decodeVarintUpTo more rest with
      | none => none
      | some (high, rest) => some (byte.toNat - 128 + 128 * high, rest)

/-- A varint is read together with the bytes behind it. -/
def decodeVarint (bytes : Bytes) : Option (UInt64 × Bytes) :=
  match decodeVarintUpTo 9 bytes with
  | none => none
  | some (value, rest) => some (UInt64.ofNat value, rest)

def wireVarint : Nat := 0
def wireFixed64 : Nat := 1
def wireBytes : Nat := 2
def wireStartGroup : Nat := 3
def wireEndGroup : Nat := 4
def wireFixed32 : Nat := 5

/-- A field begins with its number and its wire type. -/
def appendTag (number wire : Nat) : Bytes := appendVarint (UInt64.ofNat (8 * number + wire))

/-- A length stands before the bytes it counts. -/
def appendDelimited (value : Bytes) : Bytes := appendVarint (UInt64.ofNat value.length) ++ value

/-- The counted bytes are read, unless fewer are left. -/
def decodeDelimited (bytes : Bytes) : Option (Bytes × Bytes) :=
  match decodeVarint bytes with
  | none => none
  | some (length, rest) =>
    if rest.length < length.toNat then none else some (rest.take length.toNat, rest.drop length.toNat)

/-- A field that is not a group is passed over by its wire type. -/
def skipFlat (wire : Nat) (bytes : Bytes) : Option Bytes :=
  if wire = wireVarint then (decodeVarint bytes).map Prod.snd
  else if wire = wireFixed32 then if bytes.length < 4 then none else some (bytes.drop 4)
  else if wire = wireFixed64 then if bytes.length < 8 then none else some (bytes.drop 8)
  else if wire = wireBytes then (decodeDelimited bytes).map Prod.snd
  else none

/-- The group ends with the first end tag that no nested group takes. -/
def findEndGroup : Nat → Nat → Bytes → Option Bytes
  | 0, _, _ => none
  | fuel + 1, depth, bytes =>
    match decodeVarint bytes with
    | none => none
    | some (tag, rest) =>
      if tag.toNat % 8 = wireStartGroup then findEndGroup fuel (depth + 1) rest
      else if tag.toNat % 8 = wireEndGroup then
        if depth = 1 then some rest else findEndGroup fuel (depth - 1) rest
      else
        match skipFlat (tag.toNat % 8) rest with
        | none => none
        | some rest => findEndGroup fuel depth rest

/-- A field without a reader is passed over. -/
def skipField (wire : Nat) (bytes : Bytes) : Option Bytes :=
  if wire = wireStartGroup then findEndGroup bytes.length 1 bytes else skipFlat wire bytes

variable {Message Sub : Type}

/-- A reader sets its field, refuses the wire type, or gives up. -/
inductive FieldResult (Message : Type) where
  | done (message : Message) (rest : Bytes)
  | invalidUTF8 (message : Message) (rest : Bytes)
  | badWireType
  | failed (message : Message)

/-- A reader gets the wire type and the bytes behind the tag. -/
abbrev Reader (Message : Type) := Nat → Bytes → Message → FieldResult Message

abbrev Table (Message : Type) := Nat → Option (Reader Message)

/-- A field of unknown number or of another wire type is passed over. -/
def readField (table : Table Message) (number wire : Nat) (bytes : Bytes) (message : Message) : FieldResult Message :=
  match (table number).elim .badWireType fun reader => reader wire bytes message with
  | .badWireType =>
    match skipField wire bytes with
    | none => .failed message
    | some rest => .done message rest
  | result => result

/-- Text that is not UTF-8 makes the result an error but does not end the reading. -/
def unmarshalLoop (table : Table Message) : Nat → Message → Bool → Bytes → Message × Bool
  | _, message, valid, [] => (message, valid)
  | 0, message, _, _ :: _ => (message, false)
  | fuel + 1, message, valid, byte :: bytes =>
    match decodeVarint (byte :: bytes) with
    | none => (message, false)
    | some (tag, rest) =>
      match readField table (tag.toNat / 8) (tag.toNat % 8) rest message with
      | .done message rest => unmarshalLoop table fuel message valid rest
      | .invalidUTF8 message rest => unmarshalLoop table fuel message false rest
      | .badWireType => (message, false)
      | .failed message => (message, false)

/-- The fields are read into the message, and the flag says whether there was no error. -/
def unmarshal (table : Table Message) (message : Message) (bytes : Bytes) : Message × Bool :=
  unmarshalLoop table bytes.length message true bytes

/-- Text is valid if it is UTF-8. -/
def validString (text : Bytes) : Bool := (ByteArray.mk text.toArray).validateUTF8

@[simp] theorem validString_nil : validString [] = true := by decide

section Readers

variable (set : UInt64 → Message → Message) (setBytes : Bytes → Message → Message)

/-- Numbers and flags are set from a varint. -/
def readVarint : Reader Message := fun wire bytes message =>
  if wire = wireVarint then
    match decodeVarint bytes with
    | none => .failed message
    | some (value, rest) => .done (set value message) rest
  else .badWireType

def readInt32 (set : Int32 → Message → Message) : Reader Message :=
  readVarint fun value => set value.toInt64.toInt32

def readInt64 (set : Int64 → Message → Message) : Reader Message :=
  readVarint fun value => set value.toInt64

def readBool (set : Bool → Message → Message) : Reader Message :=
  readVarint fun value => set (value != 0)

def readBytes : Reader Message := fun wire bytes message =>
  if wire = wireBytes then
    match decodeDelimited bytes with
    | none => .failed message
    | some (value, rest) => .done (setBytes value message) rest
  else .badWireType

def readString : Reader Message := fun wire bytes message =>
  if wire = wireBytes then
    match decodeDelimited bytes with
    | none => .failed message
    | some (value, rest) =>
      if validString value then .done (setBytes value message) rest
      else .invalidUTF8 (setBytes value message) rest
  else .badWireType

/-- An element of a list of messages is added only if all of it could be read. -/
def readElement (table : Table Sub) (zero : Sub) (add : Sub → Message → Message) : Reader Message :=
  fun wire bytes message =>
    if wire = wireBytes then
      match decodeDelimited bytes with
      | none => .failed message
      | some (value, rest) =>
        match unmarshal table zero value with
        | (element, true) => .done (add element message) rest
        | (_, false) => .failed message
    else .badWireType

/-- A single message is read into the one that is there, and kept even if its reading fails. -/
def readMessage (table : Table Sub) (get : Message → Sub) (set : Sub → Message → Message) : Reader Message :=
  fun wire bytes message =>
    if wire = wireBytes then
      match decodeDelimited bytes with
      | none => .failed message
      | some (value, rest) =>
        match unmarshal table (get message) value with
        | (sub, true) => .done (set sub message) rest
        | (sub, false) => .failed (set sub message)
    else .badWireType

end Readers

/-- What one field writes, and the error it reports. -/
inductive Written where
  | complete (bytes : Bytes)
  | invalidUTF8 (bytes : Bytes)
  | failed (bytes : Bytes)

/-- A failed field ends the writing, while invalid text is reported only at the end. -/
def marshal : List Written → Bytes × Bool
  | [] => ([], true)
  | .complete bytes :: later => (bytes ++ (marshal later).1, (marshal later).2)
  | .invalidUTF8 bytes :: later => (bytes ++ (marshal later).1, false)
  | .failed bytes :: _ => (bytes, false)

/-- A zero value is not written. -/
def appendNumber (number : Nat) (value : UInt64) : Written :=
  .complete (if value = 0 then [] else appendTag number wireVarint ++ appendVarint value)

def appendInt32 (number : Nat) (value : Int32) : Written := appendNumber number value.toInt64.toUInt64
def appendInt64 (number : Nat) (value : Int64) : Written := appendNumber number value.toUInt64
def appendBool (number : Nat) (value : Bool) : Written := appendNumber number (if value then 1 else 0)

def delimitedField (number : Nat) (value : Bytes) : Bytes :=
  appendTag number wireBytes ++ appendDelimited value

def appendBytes (number : Nat) (value : Bytes) : Written :=
  .complete (if value = [] then [] else delimitedField number value)

def appendString (number : Nat) (value : Bytes) : Written :=
  let bytes := if value = [] then [] else delimitedField number value
  if validString value then .complete bytes else .invalidUTF8 bytes

/-- All elements are written, and an error in one of them is reported behind the last. -/
def appendElements (number : Nat) (elements : List (Bytes × Bool)) : Written :=
  let bytes := elements.flatMap fun element => delimitedField number element.1
  if elements.all Prod.snd then .complete bytes else .failed bytes

def appendMessage (number : Nat) : Option (Bytes × Bool) → Written
  | none => .complete []
  | some (bytes, true) => .complete (delimitedField number bytes)
  | some (bytes, false) => .failed (delimitedField number bytes)

theorem decodeVarintUpTo_append (more value : Nat) (rest : Bytes) (small : value < 2 ^ (7 * more + 1)) :
    decodeVarintUpTo more (appendVarintUpTo more value ++ rest) = some (value, rest) := by
  induction more generalizing value with
  | zero =>
    have byte : (ofNat value).toNat = value := by
      rw [toNat_ofNat']
      omega
    simp only [appendVarintUpTo, cons_append, nil_append, decodeVarintUpTo, byte]
    rw [if_pos (by omega)]
  | succ more ih =>
    by_cases last : value < 128
    · have byte : (ofNat value).toNat = value := by
        rw [toNat_ofNat']
        omega
      simp only [appendVarintUpTo, last, if_true, cons_append, nil_append, decodeVarintUpTo, byte]
    · have byte : (ofNat (value % 128 + 128)).toNat = value % 128 + 128 := by
        rw [toNat_ofNat']
        omega
      have high : value / 128 < 2 ^ (7 * more + 1) := by
        rw [Nat.div_lt_iff_lt_mul (by decide)]
        calc value < 2 ^ (7 * (more + 1) + 1) := small
          _ = 2 ^ (7 * more + 1) * 128 := by rw [show 7 * (more + 1) + 1 = 7 * more + 1 + 7 by omega, Nat.pow_add]
      simp only [appendVarintUpTo, last, if_false, cons_append, decodeVarintUpTo, byte, ih _ high]
      rw [if_neg (by omega)]
      congr 2
      omega

@[simp] theorem decodeVarint_append (value : UInt64) (rest : Bytes) :
    decodeVarint (appendVarint value ++ rest) = some (value, rest) := by
  have small : value.toNat < 2 ^ (7 * 9 + 1) := value.toNat_lt
  simp [decodeVarint, appendVarint, decodeVarintUpTo_append 9 _ _ small]

theorem appendVarint_ne_nil (value : UInt64) : appendVarint value ≠ [] := by
  rw [appendVarint, appendVarintUpTo]
  split <;> exact cons_ne_nil _ _

/-- Delimited bytes are read back if their length is a machine integer. -/
theorem decodeDelimited_append {value : Bytes} (short : value.length < 2 ^ 64) (rest : Bytes) :
    decodeDelimited (appendDelimited value ++ rest) = some (value, rest) := by
  have length : (UInt64.ofNat value.length).toNat = value.length := by
    rw [UInt64.toNat_ofNat']
    omega
  simp [decodeDelimited, appendDelimited, length]

section Reading

variable {table : Table Message} {first second : Bytes} {valid validSecond : Bool} {before between after : Message}

/-- The bytes are whole fields that take the message from one value to the other. -/
def Reads (table : Table Message) (bytes : Bytes) (valid : Bool) (before after : Message) : Prop :=
  ∃ fields, fields ≤ bytes.length ∧ ∀ fuel ok rest,
    unmarshalLoop table (fields + fuel) before ok (bytes ++ rest) = unmarshalLoop table fuel after (ok && valid) rest

/-- The reading ends inside the bytes with an error. -/
def Stops (table : Table Message) (bytes : Bytes) (before after : Message) : Prop :=
  ∃ fields, fields ≤ bytes.length ∧ ∀ fuel ok rest,
    unmarshalLoop table (fields + fuel) before ok (bytes ++ rest) = (after, false)

theorem unmarshalLoop_nil (table : Table Message) (fuel : Nat) (message : Message) (valid : Bool) :
    unmarshalLoop table fuel message valid [] = (message, valid) := by
  cases fuel <;> rfl

theorem Reads.nil (table : Table Message) (message : Message) : Reads table [] true message message :=
  ⟨0, Nat.le_refl 0, fun fuel ok rest => by simp⟩

theorem Reads.append (one : Reads table first valid before between)
    (two : Reads table second validSecond between after) :
    Reads table (first ++ second) (valid && validSecond) before after := by
  obtain ⟨fields, few, reads⟩ := one
  obtain ⟨more, fewMore, readsMore⟩ := two
  refine ⟨fields + more, by rw [length_append]; omega, fun fuel ok rest => ?_⟩
  rw [append_assoc, Nat.add_assoc, reads, readsMore, Bool.and_assoc]

theorem Reads.stops (one : Reads table first valid before between) (two : Stops table second between after) :
    Stops table (first ++ second) before after := by
  obtain ⟨fields, few, reads⟩ := one
  obtain ⟨more, fewMore, stops⟩ := two
  refine ⟨fields + more, by rw [length_append]; omega, fun fuel ok rest => ?_⟩
  rw [append_assoc, Nat.add_assoc, reads, stops]

theorem Stops.append (one : Stops table first before after) (second : Bytes) :
    Stops table (first ++ second) before after := by
  obtain ⟨fields, few, stops⟩ := one
  refine ⟨fields, by rw [length_append]; omega, fun fuel ok rest => ?_⟩
  rw [append_assoc, stops]

theorem Reads.unmarshal (reads : Reads table first valid before after) :
    unmarshal table before first = (after, valid) := by
  obtain ⟨fields, few, reads⟩ := reads
  have loop := reads (first.length - fields) true []
  rw [append_nil, Nat.add_sub_cancel' few, unmarshalLoop_nil] at loop
  simpa [Wire.unmarshal] using loop

theorem Stops.unmarshal (stops : Stops table first before after) : unmarshal table before first = (after, false) := by
  obtain ⟨fields, few, stops⟩ := stops
  have loop := stops (first.length - fields) true []
  rwa [append_nil, Nat.add_sub_cancel' few] at loop

variable {number wire : Nat} {body : Bytes}

/-- One turn of the loop reads the tag and hands the rest to the field. -/
theorem unmarshalLoop_tag (tag : 8 * number + wire < 2 ^ 64) (small : wire < 8) (fuel : Nat) (ok : Bool)
    (bytes : Bytes) :
    unmarshalLoop table (fuel + 1) before ok (appendTag number wire ++ bytes) =
      match readField table number wire bytes before with
      | .done message rest => unmarshalLoop table fuel message ok rest
      | .invalidUTF8 message rest => unmarshalLoop table fuel message false rest
      | .badWireType => (before, false)
      | .failed message => (message, false) := by
  have value : (UInt64.ofNat (8 * number + wire)).toNat = 8 * number + wire := by
    rw [UInt64.toNat_ofNat']
    omega
  obtain ⟨byte, later, nonempty⟩ := exists_cons_of_ne_nil (appendVarint_ne_nil (UInt64.ofNat (8 * number + wire)))
  have decoded := decodeVarint_append (UInt64.ofNat (8 * number + wire)) bytes
  rw [appendTag]
  rw [nonempty, cons_append] at decoded ⊢
  simp only [unmarshalLoop, decoded, value]
  rw [show (8 * number + wire) / 8 = number by omega, show (8 * number + wire) % 8 = wire by omega]

theorem length_appendTag_pos (number wire : Nat) (bytes : Bytes) : 1 ≤ (appendTag number wire ++ bytes).length := by
  have nonempty := length_pos_of_ne_nil (appendVarint_ne_nil (UInt64.ofNat (8 * number + wire)))
  rw [length_append, appendTag]
  omega

section

variable (tag : 8 * number + wire < 2 ^ 64) (small : wire < 8)

include tag small

theorem Reads.field (read : ∀ rest, readField table number wire (body ++ rest) before = .done after rest) :
    Reads table (appendTag number wire ++ body) true before after := by
  refine ⟨1, length_appendTag_pos number wire body, fun fuel ok rest => ?_⟩
  rw [Nat.add_comm, append_assoc, unmarshalLoop_tag tag small, read]
  simp

theorem Reads.invalidField
    (read : ∀ rest, readField table number wire (body ++ rest) before = .invalidUTF8 after rest) :
    Reads table (appendTag number wire ++ body) false before after := by
  refine ⟨1, length_appendTag_pos number wire body, fun fuel ok rest => ?_⟩
  rw [Nat.add_comm, append_assoc, unmarshalLoop_tag tag small, read]
  simp

theorem Stops.field (read : ∀ rest, readField table number wire (body ++ rest) before = .failed after) :
    Stops table (appendTag number wire ++ body) before after := by
  refine ⟨1, length_appendTag_pos number wire body, fun fuel ok rest => ?_⟩
  rw [Nat.add_comm, append_assoc, unmarshalLoop_tag tag small, read]

end

end Reading

end Pobl.Library.Wire
