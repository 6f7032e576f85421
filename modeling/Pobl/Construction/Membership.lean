/-
This file models the membership that the etcdraft chain stores in its blocks: `ComputeMembershipChanges` in
`etcdraft/util.go`, `writeBlock` and `writeConfigBlock` in `etcdraft/chain.go`. A panic is the absence of a result.
Indices and numbers stay below 2 ^ 64.
-/

import Mathlib.Data.List.AList
import Pobl.Construction.RaftApply

namespace Pobl.Membership

open Cauthdsl (Bytes)

structure Consenter where
  host : String
  port : UInt32
  clientTlsCert : Bytes
  serverTlsCert : Bytes
  deriving DecidableEq

abbrev Consenters := AList (fun _ : UInt64 => Consenter)

structure BlockMetadata where
  consenterIds : List UInt64
  nextConsenterId : UInt64
  raftIndex : Nat
  deriving DecidableEq

inductive ConfChange where
  | addNode (nodeID : UInt64)
  | removeNode (nodeID : UInt64)
  deriving DecidableEq

structure MembershipChanges where
  newBlockMetadata : BlockMetadata
  newConsenters : Consenters
  addedNodes : List Consenter
  removedNodes : List Consenter
  confChange : Option ConfChange := none
  rotatedNode : UInt64 := 0

def membershipByCert (consenters : Consenters) : AList (fun _ : Bytes => UInt64) :=
  consenters.entries.foldl (fun set entry => set.insert entry.2.clientTlsCert entry.1) ∅

def consentersToMap (consenters : List Consenter) : List Bytes := consenters.map Consenter.clientTlsCert

/-- The identifiers of the consenters that stay and those consenters. A new consenter has no identifier yet. -/
def matchConsenters (current : AList (fun _ : Bytes => UInt64)) (newConsenters : List Consenter) :
    List UInt64 × Consenters :=
  (newConsenters.map fun c => (current.lookup c.clientTlsCert).getD 0,
    newConsenters.foldl (fun map c => match current.lookup c.clientTlsCert with
      | some nodeID => map.insert nodeID c
      | none => map) ∅)

/-- The clone of the metadata keeps the raft index. -/
def computeMembershipChanges (oldMetadata : BlockMetadata) (oldConsenters : Consenters)
    (newConsenters : List Consenter) : Except String MembershipChanges :=
  let current := membershipByCert oldConsenters
  let (ids, matched) := matchConsenters current newConsenters
  let added := newConsenters.zipIdx.filter fun entry => (current.lookup entry.1.clientTlsCert).isNone
  let removed := oldConsenters.entries.filter fun entry => entry.2.clientTlsCert ∉ consentersToMap newConsenters
  let result : MembershipChanges :=
    { newBlockMetadata := { oldMetadata with consenterIds := ids }
      newConsenters := matched
      addedNodes := added.map Prod.fst
      removedNodes := removed.map Sigma.snd }
  match added, removed with
  | [(c, addedNodeIndex)], [⟨deletedNodeID, _⟩] =>
    .ok { result with
      rotatedNode := deletedNodeID
      newBlockMetadata := { result.newBlockMetadata with consenterIds := ids.set addedNodeIndex deletedNodeID }
      newConsenters := matched.insert deletedNodeID c }
  | [(c, addedNodeIndex)], [] =>
    let nodeID := oldMetadata.nextConsenterId
    .ok { result with
      newConsenters := matched.insert nodeID c
      newBlockMetadata := { result.newBlockMetadata with
        consenterIds := ids.set addedNodeIndex nodeID
        nextConsenterId := nodeID + 1 }
      confChange := some (.addNode nodeID) }
  | [], [⟨nodeID, _⟩] =>
    .ok { result with
      confChange := some (.removeNode nodeID)
      newConsenters := matched.erase nodeID }
  | [], [] => .ok result
  | _, _ =>
    .error ("update of more than one consenter at a time is not supported, requested changes: add " ++
      toString added.length ++ " node(s), remove " ++ toString removed.length ++ " node(s)")

structure ConfigMetadata where
  snapshotIntervalSize : Option UInt32
  consenters : List Consenter

/-- The types of a block. A config block of this channel may carry new consensus metadata. -/
inductive BlockType where
  | normal
  | config (metadata : Option ConfigMetadata)
  | ordererTransaction
  | other

structure Block where
  number : Nat
  type : BlockType

/-- A block in the ledger, with the metadata in it and the raft index of its entry. -/
structure Stored where
  block : Block
  metadata : BlockMetadata
  index : Nat

structure Chain where
  blockMetadata : BlockMetadata
  consenters : Consenters
  sizeLimit : UInt32
  lastBlock : Block
  confChangeInProgress : Option ConfChange
  configInflight : Bool
  written : List Stored

namespace Chain

def detectConfChange (c : Chain) : Option ConfigMetadata → Option (Chain × Option MembershipChanges)
  | none => some (c, none)
  | some configMetadata =>
    let size := configMetadata.snapshotIntervalSize.getD 0
    let c := { c with sizeLimit := if size ≠ 0 ∧ size ≠ c.sizeLimit then size else c.sizeLimit }
    match computeMembershipChanges c.blockMetadata c.consenters configMetadata.consenters with
    | .error _ => none
    | .ok changes => some (c, some changes)

def setRaftIndex (c : Chain) (index : Nat) : Chain :=
  { c with blockMetadata := { c.blockMetadata with raftIndex := index } }

def store (c : Chain) (block : Block) (index : Nat) : Chain :=
  { c with written := c.written ++ [⟨block, c.blockMetadata, index⟩] }

/-- The new metadata replaces the metadata whose raft index has just been set. -/
def writeConfigBlock (c : Chain) (block : Block) (index : Nat) : Option Chain :=
  let c := { c with configInflight := false }
  match block.type with
  | .config metadata =>
    match c.detectConfChange metadata with
    | none => none
    | some (c, none) => some ((c.setRaftIndex index).store block index)
    | some (c, some changes) =>
      let c := { c.setRaftIndex index with
        blockMetadata := changes.newBlockMetadata
        consenters := changes.newConsenters }
      let c := c.store block index
      match changes.confChange with
      | none => some c
      | some change => some { c with confChangeInProgress := some change, configInflight := true }
  | .ordererTransaction => some ((c.setRaftIndex index).store block index)
  | _ => none

def writeBlock (c : Chain) (entry : Block × Nat) : Option Chain :=
  let (block, index) := entry
  RaftApply.inOrder c.lastBlock.number block.number none (some c) <|
    let c := { c with lastBlock := block }
    match block.type with
    | .normal => some ((c.setRaftIndex index).store block index)
    | _ => c.writeConfigBlock block index

end Chain

end Pobl.Membership
