/-
This file models how sets of principals are compared and merged: `inquire/compare.go` and `inquire/merge.go`.
A principal is one that `NewComparablePrincipal` returns, so it is a role or an organization unit.
-/

import Pobl.Construction.SignaturePolicy

namespace Pobl.Inquire

open Cauthdsl

inductive Kind where
  | role (role : Int)
  | ou (organizationalUnitIdentifier : String) (certifiersIdentifier : Bytes)
  deriving DecidableEq

/-- The role of every member of an MSP. -/
def member : Kind := .role 0

structure ComparablePrincipal where
  principal : MSPPrincipal
  mspID : String
  kind : Kind
  deriving DecidableEq

def ComparablePrincipal.equal (cp cp2 : ComparablePrincipal) : Bool :=
  cp.mspID = cp2.mspID ∧ cp.principal = cp2.principal ∧ cp.kind = cp2.kind

/-- All identities that satisfy this principal also satisfy the other one. A role is never compared with a unit. -/
def ComparablePrincipal.isA (this other : ComparablePrincipal) : Bool :=
  this.mspID = other.mspID ∧ (other.kind = member ∨ this.kind = other.kind)

abbrev ComparablePrincipalSet := List ComparablePrincipal

namespace ComparablePrincipalSet

def contains (cps : ComparablePrincipalSet) (s : ComparablePrincipal) : Bool := cps.any (·.isA s)

def isContainedIn (cps set : ComparablePrincipalSet) : Bool := cps.all set.contains

def isSubset (cps sets : ComparablePrincipalSet) : Bool := cps.all fun p1 => sets.any p1.equal

end ComparablePrincipalSet

structure ComparablePrincipalSetPair where
  contained : ComparablePrincipalSet
  containing : ComparablePrincipalSet

/-- Each principal takes the first unused one that covers it. The principals without a cover are returned. -/
def principalsToAdd : ComparablePrincipalSet → ComparablePrincipalSet → ComparablePrincipalSet
  | [], _ => []
  | principal :: rest, unused =>
    if unused.any (·.isA principal) then principalsToAdd rest (unused.eraseP (·.isA principal))
    else principal :: principalsToAdd rest unused

def ComparablePrincipalSetPair.mergeWithPlurality (pair : ComparablePrincipalSetPair) : ComparablePrincipalSet :=
  pair.containing ++ principalsToAdd pair.contained pair.containing

abbrev ComparablePrincipalSets := List ComparablePrincipalSet

/-- A map from an index to a list of indices, as the list of its pairs. -/
abbrev IntMapping := List (Nat × Nat)

def computeContainedInMapping (s1 s2 : ComparablePrincipalSets) : IntMapping :=
  s1.zipIdx.flatMap fun ps1 => (s2.zipIdx.filter fun ps2 => ps1.1.isContainedIn ps2.1).map fun ps2 => (ps1.2, ps2.2)

def IntMapping.invert (im : IntMapping) : IntMapping := im.map Prod.swap

/-- The order in which a `range` statement visits a mapping. -/
structure MappingOrder where
  visit : IntMapping → IntMapping
  perm : ∀ mapping, (visit mapping).Perm mapping

namespace ComparablePrincipalSets

def ofMapping (order : MappingOrder) (cps : ComparablePrincipalSets) (mapping : IntMapping)
    (sets2 : ComparablePrincipalSets) : List ComparablePrincipalSetPair :=
  (order.visit mapping).map fun entry => ⟨cps.getD entry.1 [], sets2.getD entry.2 []⟩

def excludeIndices (cps : ComparablePrincipalSets) (mapping : IntMapping) : ComparablePrincipalSets :=
  (cps.zipIdx.filter fun entry => !mapping.any (·.1 = entry.2)).map Prod.fst

def cartesianProduct (s1 s2 : ComparablePrincipalSets) : List ComparablePrincipalSetPair :=
  s1.flatMap fun x => s2.map fun y => ⟨x, y⟩

/-- One iteration of the inner loop. A later set that contains this one clears the flag again. -/
def markContaining (i : Nat) (s1 : ComparablePrincipalSet) (isContaining : Bool)
    (entry : ComparablePrincipalSet × Nat) : Bool :=
  if entry.2 = i then isContaining
  else if s1.isSubset entry.1 ∧ i < entry.2 then false
  else if entry.1.isSubset s1 then true
  else isContaining

def isContaining (cps : ComparablePrincipalSets) (i : Nat) (s1 : ComparablePrincipalSet) : Bool :=
  cps.zipIdx.foldl (markContaining i s1) false

def reduceOnce (cps : ComparablePrincipalSets) : ComparablePrincipalSets :=
  (cps.zipIdx.filter fun entry => !cps.isContaining entry.2 entry.1).map Prod.fst

/-- The loop ends when the length stays the same. -/
def reduceUpTo : Nat → ComparablePrincipalSets → ComparablePrincipalSets
  | 0, current => current
  | rounds + 1, current =>
    let reduced := current.reduceOnce
    if current.length = reduced.length then reduced else reduceUpTo rounds reduced

def reduce (cps : ComparablePrincipalSets) : ComparablePrincipalSets := reduceUpTo (cps.length + 1) cps

end ComparablePrincipalSets

/-- The second list has been shortened when it is filtered by the indices of the first mapping. -/
def merge (first second : MappingOrder) (s1 s2 : ComparablePrincipalSets) : ComparablePrincipalSets :=
  let setsIn1ToTheContainingSetsIn2 := computeContainedInMapping s1 s2
  let setsIn1ThatAreIn2 := s1.ofMapping first setsIn1ToTheContainingSetsIn2 s2
  let s1 := s1.excludeIndices setsIn1ToTheContainingSetsIn2
  let setsIn2ToTheContainingSetsIn1 := computeContainedInMapping s2 s1
  let setsIn2ThatAreIn1 := s2.ofMapping second setsIn2ToTheContainingSetsIn1 s1
  let s2 := s2.excludeIndices setsIn2ToTheContainingSetsIn1
  let res : ComparablePrincipalSets := (setsIn1ThatAreIn2 ++ setsIn2ThatAreIn1).map (·.mergeWithPlurality)
  let s1 := s1.excludeIndices setsIn2ToTheContainingSetsIn1.invert
  let s2 := s2.excludeIndices setsIn1ToTheContainingSetsIn2.invert
  if s1.length = 0 ∨ s2.length = 0 then res.reduce
  else ComparablePrincipalSets.reduce (res ++ (s1.cartesianProduct s2).map (·.mergeWithPlurality))

end Pobl.Inquire
