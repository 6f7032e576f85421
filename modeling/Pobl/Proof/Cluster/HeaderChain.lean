/-
This file shows what the last header of a verified sequence of blocks determines.
It determines all headers and the bytes of all transactions, but not where a transaction ends.
-/

import Mathlib.Data.List.Flatten
import Pobl.Construction.BlockVerification

namespace Pobl.Cluster

open Library List
open Cauthdsl (Bytes)

variable {Config : Type} {functions : Functions Config} {verifier : BlockVerifier Config} {blockBuff : List Block}
  {i : Nat}

/-- What an accepted block says about itself and about the block before it. -/
structure Verified (functions : Functions Config) (blockBuff : List Block) (i : Nat) (header : BlockHeader)
    (data : List Bytes) : Prop where
  headed : blockBuff[i]?.bind Block.header = some header
  filled : blockBuff[i]?.bind Block.data = some data
  dataHash : header.dataHash = functions.sha256 data.flatten
  previousHash : ∀ before, i = before + 1 → ∃ previous, blockBuff[before]?.bind Block.header = some previous ∧
    header.previousHash = functions.sha256 (functions.marshalHeader previous)

theorem verified_of_verifyBlockHash (accepted : verifyBlockHash functions i blockBuff = .ok ()) :
    ∃ header data, Verified functions blockBuff i header data := by
  simp only [verifyBlockHash, Block.dataHash, bind_eq_ok, fetch_eq_ok, pure_eq_ok, require_eq_ok] at accepted
  obtain ⟨block, found, header, headed, hash, ⟨data, filled, rfl⟩, _, same, linked⟩ := accepted
  refine ⟨header, data, by rw [found]; exact headed, by rw [found]; exact filled, same.symm, ?_⟩
  rintro before rfl
  simp only [verifyPrevious, BlockHeader.hash, BlockHeader.bytes, bind_eq_ok, fetch_eq_ok, pure_eq_ok,
    require_eq_ok] at linked
  obtain ⟨previous, earlier, above, held, _, _, hash, ⟨bytes, encoded, rfl⟩, equal⟩ := linked
  split at encoded
  · cases encoded
  · cases encoded
    exact ⟨above, by rw [earlier]; exact held, equal⟩

theorem verified_of_verifyBlocks (accepted : verifyBlocks functions verifier blockBuff = .ok ())
    (inside : i < blockBuff.length) : ∃ header data, Verified functions blockBuff i header data := by
  simp only [verifyBlocks, bind_eq_ok, fetch_eq_ok, checkAll_eq_ok] at accepted
  obtain ⟨_, _, _, checked, _⟩ := accepted
  exact verified_of_verifyBlockHash (checked i (mem_range.mpr inside))

section TwoBuffers

variable {first second : List Block} (free : Function.Injective functions.sha256)
  (injective : Function.Injective functions.marshalHeader) (length : first.length = second.length)
  (verified : ∀ i < first.length, ∃ header data, Verified functions first i header data)
  (verifiedOther : ∀ i < second.length, ∃ header data, Verified functions second i header data)
  (last : first.getLast?.bind Block.header = second.getLast?.bind Block.header)
include free injective length verified verifiedOther last

/-- The headers agree from the last one backwards, since each one has the hash of the one before it. -/
theorem headers_eq (back i : Nat) (inside : i + back + 1 = first.length) :
    first[i]?.bind Block.header = second[i]?.bind Block.header := by
  induction back generalizing i with
  | zero =>
    rw [List.getLast?_eq_getElem?, List.getLast?_eq_getElem?, ← length] at last
    have position : first.length - 1 = i := by omega
    rwa [position] at last
  | succ back ih =>
    have later := ih (i + 1) (by omega)
    obtain ⟨header, _, one⟩ := verified (i + 1) (by omega)
    obtain ⟨other, _, two⟩ := verifiedOther (i + 1) (by omega)
    obtain rfl : header = other := Option.some.inj (one.headed.symm.trans (later.trans two.headed))
    obtain ⟨previous, before, hash⟩ := one.previousHash i rfl
    obtain ⟨previous', before', hash'⟩ := two.previousHash i rfl
    rw [before, before', injective (free (hash.symm.trans hash'))]

theorem transactions_eq (inside : i < first.length) :
    (first[i]?.bind Block.data).map flatten = (second[i]?.bind Block.data).map flatten := by
  have same := headers_eq free injective length verified verifiedOther last (first.length - (i + 1)) i (by omega)
  obtain ⟨header, data, one⟩ := verified i inside
  obtain ⟨other, data', two⟩ := verifiedOther i (length ▸ inside)
  obtain rfl : header = other := Option.some.inj (one.headed.symm.trans (same.trans two.headed))
  rw [one.filled, two.filled, Option.map_some, Option.map_some, free (one.dataHash.symm.trans two.dataHash)]

end TwoBuffers

/-- Equal last headers give equal headers and equal bytes of the transactions at each position. The lists of
transactions are equal exactly where the transactions have the same lengths. -/
theorem headers_bind_transactions {verifier other : BlockVerifier Config} {first second : List Block}
    (free : Function.Injective functions.sha256) (injective : Function.Injective functions.marshalHeader)
    (length : first.length = second.length) (accepted : verifyBlocks functions verifier first = .ok ())
    (acceptedOther : verifyBlocks functions other second = .ok ())
    (last : first.getLast?.bind Block.header = second.getLast?.bind Block.header) (i : Nat) :
    first[i]?.bind Block.header = second[i]?.bind Block.header ∧
      (first[i]?.bind Block.data).map flatten = (second[i]?.bind Block.data).map flatten ∧
      (first[i]?.bind Block.data = second[i]?.bind Block.data ↔
        (first[i]?.bind Block.data).map (map List.length) =
          (second[i]?.bind Block.data).map (map List.length)) := by
  have verified (i : Nat) (inside : i < first.length) := verified_of_verifyBlocks accepted inside
  have verifiedOther (i : Nat) (inside : i < second.length) := verified_of_verifyBlocks acceptedOther inside
  rcases Nat.lt_or_ge i first.length with inside | outside
  · have bytes := transactions_eq free injective length verified verifiedOther last inside
    refine ⟨headers_eq free injective length verified verifiedOther last (first.length - (i + 1)) i (by omega), bytes,
      fun same => by rw [same], fun lengths => ?_⟩
    obtain ⟨_, data, one⟩ := verified i inside
    obtain ⟨_, data', two⟩ := verifiedOther i (length ▸ inside)
    simp only [one.filled, two.filled, Option.map_some, Option.some.injEq] at bytes lengths ⊢
    exact eq_iff_flatten_eq.mpr ⟨bytes, lengths⟩
  · rw [List.getElem?_eq_none outside, List.getElem?_eq_none (length ▸ outside)]
    simp

/-- A header with its numbers in unary, so that no two headers are encoded alike. -/
def unaryHeader (header : BlockHeader) : Bytes :=
  replicate header.number.toNat 0 ++ 1 :: (replicate header.previousHash.length 0 ++ 1 ::
    (header.previousHash ++ header.dataHash))

theorem unary_injective {one two : Nat} {rest others : Bytes}
    (same : replicate one 0 ++ 1 :: rest = replicate two 0 ++ 1 :: others) : one = two ∧ rest = others := by
  induction one generalizing two with
  | zero => cases two <;> simp_all [replicate_succ]
  | succ one ih => cases two <;> simp_all [replicate_succ]

theorem unaryHeader_injective : Function.Injective unaryHeader := by
  rintro ⟨number, previous, data⟩ ⟨number', previous', data'⟩ same
  obtain ⟨numbers, rest⟩ := unary_injective same
  obtain ⟨lengths, rest⟩ := unary_injective rest
  obtain ⟨hashes, hashes'⟩ := append_inj rest lengths
  simp_all [UInt64.toNat_inj]

/-- Nothing is hashed, and every block is a normal one without signatures. -/
def plain : Functions Unit where
  sha256 := id
  marshalHeader := unaryHeader
  payload := fun _ => .ok ⟨[], some []⟩
  isConfig := fun _ => .ok false
  configEnvelope := fun _ => .ok ()
  metadata := fun _ => .ok ⟨[], []⟩
  creator := fun _ => .ok []

/-- Two blocks, the second one with the given transactions. -/
def twoBlocks (data : List Bytes) : List Block :=
  [⟨some ⟨1, [], [7]⟩, some [[7]], some [[]]⟩,
    ⟨some ⟨2, unaryHeader ⟨1, [], [7]⟩, data.flatten⟩, some data, some [[]]⟩]

theorem headers_bind_transactions_split : let buffers := (twoBlocks [[1], [2]], twoBlocks [[1, 2]])
    buffers.1[0]?.bind Block.header = buffers.2[0]?.bind Block.header ∧
      (buffers.1[0]?.bind Block.data).map flatten = (buffers.2[0]?.bind Block.data).map flatten ∧
      (buffers.1[0]?.bind Block.data = buffers.2[0]?.bind Block.data ↔
        (buffers.1[0]?.bind Block.data).map (map List.length) =
          (buffers.2[0]?.bind Block.data).map (map List.length)) :=
  @headers_bind_transactions Unit plain (fun _ _ => .ok ()) (fun _ _ => .ok ()) (twoBlocks [[1], [2]])
    (twoBlocks [[1, 2]]) Function.injective_id unaryHeader_injective rfl (by decide) (by decide) rfl 0

/-- One transaction is accepted in place of two under the same header. -/
theorem transactions_not_bound : Function.Injective plain.sha256 ∧ Function.Injective plain.marshalHeader ∧
      verifyBlocks plain (fun _ _ => .ok ()) (twoBlocks [[1], [2]]) = .ok () ∧
      verifyBlocks plain (fun _ _ => .ok ()) (twoBlocks [[1, 2]]) = .ok () ∧
      (twoBlocks [[1], [2]]).getLast?.bind Block.header = (twoBlocks [[1, 2]]).getLast?.bind Block.header ∧
      (twoBlocks [[1], [2]]).map Block.data ≠ (twoBlocks [[1, 2]]).map Block.data :=
  ⟨Function.injective_id, unaryHeader_injective, by decide, by decide, by decide, by decide⟩

end Pobl.Cluster
