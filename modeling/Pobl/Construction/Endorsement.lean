/-
This file models the layouts of an endorsement descriptor: `endorsement.go`.
A group is the number in its name, and the order in which principals get their groups is a parameter.
-/

import Pobl.Construction.SignaturePolicy
import Mathlib.Data.List.Dedup

namespace Pobl.Discovery

open Cauthdsl

abbrev PKIid := String

/-- The quantities by group. -/
abbrev Layout := List (Nat × UInt32)

/-- The principals of all sets, each once, in the order of their groups. -/
structure PrincipalGroupMapper (principalsSets : List (List MSPPrincipal)) where
  principals : List MSPPrincipal
  perm : principals.Perm principalsSets.flatten.dedup

/-- The principals of a set with their repetitions. -/
def uniqueSet (principalSet : List MSPPrincipal) : List (MSPPrincipal × UInt32) :=
  principalSet.dedup.map fun principal => (principal, .ofNat (principalSet.count principal))

structure Context where
  aliveMembership : List PKIid
  principalsSets : List (List MSPPrincipal)
  satisfiesPrincipal : PKIid → MSPPrincipal → Bool

structure EndorsementDescriptor where
  layouts : List Layout
  endorsersByGroups : Nat → List PKIid

namespace Context

variable (ctx : Context) (principalGroups : PrincipalGroupMapper ctx.principalsSets)

/-- The peers that are connected to a principal. A vertex has one neighbor for each identifier. -/
def neighbors (principal : MSPPrincipal) : List PKIid :=
  (ctx.aliveMembership.filter (ctx.satisfiesPrincipal · principal)).dedup

/-- The neighbors of the principal of each group. -/
def principalsToPeersGraph : List (List PKIid) := principalGroups.principals.map ctx.neighbors

/-- Each group of a layout has enough peers. Other groups with the same peers are not considered. -/
def isLayoutSatisfied (layout : Layout) : Bool :=
  layout.all fun entry => entry.2.toNat ≤ ((ctx.principalsToPeersGraph principalGroups).getD entry.1 []).length

def layout (principalSet : List MSPPrincipal) : Layout :=
  (uniqueSet principalSet).map fun entry => (principalGroups.principals.idxOf entry.1, entry.2)

def computeLayouts : List Layout :=
  (ctx.principalsSets.map (ctx.layout principalGroups)).filter (ctx.isLayoutSatisfied principalGroups)

/-- The groups of the layouts are mapped to their peers. -/
def endorsersByGroup (layouts : List Layout) (grp : Nat) : List PKIid :=
  if grp ∈ layouts.flatMap (·.map Prod.fst) then (ctx.principalsToPeersGraph principalGroups).getD grp [] else []

def computeEndorsementResponse : Except String EndorsementDescriptor :=
  let layouts := ctx.computeLayouts principalGroups
  if layouts.isEmpty then .error "cannot satisfy any principal combination"
  else .ok ⟨layouts, ctx.endorsersByGroup principalGroups layouts⟩

end Context

end Pobl.Discovery
