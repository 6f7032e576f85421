/-
This file models how a chain applies the committed entries of raft: `apply`, `writeBlock` and `gc` in
`etcdraft/chain.go`. A panic is the absence of a result. Indices and numbers stay below 2 ^ 64.
-/

import Pobl.Construction.SignaturePolicy

namespace Pobl.RaftApply

open Cauthdsl (Bytes)

inductive EntryType where
  | normal
  | confChange
  deriving DecidableEq

structure Entry where
  index : Nat
  type : EntryType
  data : Bytes
  deriving DecidableEq

/-- A decoded block. The bytes of another message can decode to a block without a header. -/
structure Block where
  header : Option Nat
  isConfigBlock : Bool
  deriving DecidableEq

/-- The decoders, and what config blocks and configuration changes do to the membership and to the size limit. -/
structure Setting (Membership ConfChange : Type) where
  unmarshalBlock : Bytes → Option Block
  unmarshalConfChange : Bytes → Option ConfChange
  applyConfChange : Membership → ConfChange → Option Membership
  writeConfigBlock : Membership × UInt32 → Block → Nat → Option (Membership × UInt32)

/-- The data that is handed over for a snapshot. -/
structure Gc (Membership : Type) where
  index : Nat
  state : Membership
  data : Bytes

/-- The state of the chain, with the blocks that it wrote and the snapshots that it asked for. -/
structure Chain (Membership : Type) where
  appliedIndex : Nat
  lastBlock : Nat
  accDataSize : UInt32
  sizeLimit : UInt32
  lastSnapBlockNum : Nat
  membership : Membership
  written : List (Block × Nat)
  snapshots : List (Gc Membership)

variable {Membership ConfChange : Type}

/-- How `writeBlock` treats the number of a block: a gap is unexpected, and an old block is ignored. -/
def inOrder {Outcome : Type} (last number : Nat) (unexpected ignored written : Outcome) : Outcome :=
  if number > last + 1 then unexpected else if number < last + 1 then ignored else written

namespace Chain

def writeBlock (s : Setting Membership ConfChange) (block : Block) (index : Nat) (c : Chain Membership) :
    Option (Chain Membership) := do
  let number ← block.header
  inOrder c.lastBlock number none (some c) do
    let c := { c with lastBlock := number, written := c.written ++ [(block, index)] }
    if block.isConfigBlock then
      let (membership, sizeLimit) ← s.writeConfigBlock (c.membership, c.sizeLimit) block index
      return { c with membership, sizeLimit }
    else return c

def accumulate (c : Chain Membership) (data : Bytes) : Chain Membership :=
  { c with accDataSize := c.accDataSize + UInt32.ofNat data.length }

def advance (c : Chain Membership) (index : Nat) : Chain Membership :=
  { c with appliedIndex := max c.appliedIndex index }

/-- One iteration of `apply`. The second component is the entry at `position`. -/
def applyEntry (s : Setting Membership ConfChange) :
    Chain Membership × Entry → Entry → Option (Chain Membership × Entry)
  | (c, position), entry =>
    match entry.type with
    | .normal =>
      if entry.data = [] then some (c.advance entry.index, position)
      else
        let c := c.accumulate entry.data
        if entry.index ≤ c.appliedIndex then some (c.advance entry.index, entry)
        else do
          let block ← s.unmarshalBlock entry.data
          let c ← c.writeBlock s block entry.index
          return (c.advance entry.index, entry)
    | .confChange =>
      match s.unmarshalConfChange entry.data with
      -- The iteration is left before the applied index is updated.
      | none => some (c, position)
      | some cc => do
        let membership ← s.applyConfChange c.membership cc
        return ({ c with membership }.advance entry.index, position)

/-- The hand-over at the end of `apply`. The channel has no buffer, so it accepts only while `gc` waits for it. -/
def takeSnapshot (s : Setting Membership ConfChange) (position : Entry) (gcWaits : Bool) (c : Chain Membership) :
    Option (Chain Membership) :=
  if c.accDataSize ≥ c.sizeLimit then do
    let b ← s.unmarshalBlock position.data
    if gcWaits then
      let number ← b.header
      return { c with
        snapshots := c.snapshots ++ [⟨c.appliedIndex, c.membership, position.data⟩]
        accDataSize := 0
        lastSnapBlockNum := number }
    else return c
  else some c

def apply (s : Setting Membership ConfChange) (c : Chain Membership) : List Entry × Bool → Option (Chain Membership)
  | ([], _) => some c
  | (first :: rest, gcWaits) =>
    if first.index > c.appliedIndex + 1 then none
    else do
      let (c, position) ← (first :: rest).foldlM (applyEntry s) (c, first)
      c.takeSnapshot s position gcWaits

end Chain

end Pobl.RaftApply
