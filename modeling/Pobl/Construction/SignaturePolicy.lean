/-
This file models the signature policies: `cauthdsl.go` and `policy.go`.
A policy is compiled to an evaluator, and the evaluator is applied to the signed data without duplicates.
-/

import Pobl.Construction.Envelope

namespace Pobl.Cauthdsl

open Protos

abbrev Bytes := List UInt8

structure MSPPrincipal where
  principalClassification : Int
  principal : Bytes
  deriving DecidableEq, Inhabited

structure IdentityIdentifier where
  mspid : String
  id : String
  deriving DecidableEq

/-- The identity deserializer of a channel and the methods of its identities. A check that returns an error
returns false here. -/
structure IdentityDeserializer (Identity : Type) where
  deserializeIdentity : Bytes → Option Identity
  getIdentifier : Identity → IdentityIdentifier
  satisfiesPrincipal : Identity → MSPPrincipal → Bool
  validate : Identity → Bool
  verify : Identity → (msg sig : Bytes) → Bool

/-- The rules of a signature policy. A rule may be a nil pointer, and its type may be unset. -/
inductive SignaturePolicy where
  | nil
  | unset
  | signedBy (index : Int32)
  | nOutOf (n : Int32) (rules : List SignaturePolicy)

structure SignaturePolicyEnvelope where
  version : Int32
  rule : SignaturePolicy
  identities : List MSPPrincipal

/-- An evaluator takes the signed data and a flag for each of them that says whether it is used.
It returns its decision and the flags that it leaves. -/
abbrev Evaluator := List SignedData → List Bool → Bool × List Bool

/-- The rules are evaluated in order. The flags that a rule leaves are kept when it succeeds. -/
def verifyRules (signedData : List SignedData) : List Evaluator → Int32 → List Bool → Int32 × List Bool
  | [], verified, used => (verified, used)
  | policy :: policies, verified, used =>
    match policy signedData used with
    | (true, used') => verifyRules signedData policies (verified + 1) used'
    | (false, _) => verifyRules signedData policies verified used

def evaluateNOutOf (n : Int32) (policies : List Evaluator) : Evaluator := fun signedData used =>
  let (verified, used') := verifyRules signedData policies 0 used
  (decide (n ≤ verified), used')

variable {Identity : Type} (deserializer : IdentityDeserializer Identity)

def signs (principal : MSPPrincipal) (sd : SignedData) : Bool :=
  match deserializer.deserializeIdentity sd.identity with
  | none => false
  | some identity =>
    deserializer.satisfiesPrincipal identity principal && deserializer.verify identity sd.data sd.signature

/-- The first unused entry that satisfies the principal is used. There is a flag for each entry. -/
def evaluateSignedBy (principal : MSPPrincipal) : Evaluator
  | [], used => (false, used)
  | _ :: _, [] => (false, [])
  | sd :: signedData, used :: rest =>
    if used = false ∧ signs deserializer principal sd = true then (true, true :: rest)
    else
      let (verified, rest') := evaluateSignedBy principal signedData rest
      (verified, used :: rest')

section Compile

variable (identities : List MSPPrincipal)

mutual

def compile : SignaturePolicy → Except String Evaluator
  | .nil => .error "Empty policy element"
  | .unset => .error "Unknown type: <nil>:<nil>"
  | .signedBy index =>
    if index < 0 ∨ Int32.ofNat identities.length ≤ index then
      .error ("identity index out of range, requested " ++ toString index ++
        ", but identities length is " ++ toString identities.length)
    else .ok (evaluateSignedBy deserializer (identities.getD index.toNatClampNeg default))
  | .nOutOf n rules =>
    match compileRules rules with
    | .error err => .error err
    | .ok policies => .ok (evaluateNOutOf n policies)

def compileRules : List SignaturePolicy → Except String (List Evaluator)
  | [] => .ok []
  | rule :: rules =>
    match compile rule with
    | .error err => .error err
    | .ok policy =>
      match compileRules rules with
      | .error err => .error err
      | .ok policies => .ok (policy :: policies)

end

end Compile

/-- The first entry of each identity is kept. The key of an identity is one string. -/
def deduplicateFrom (ids : List String) : List SignedData → List SignedData
  | [] => []
  | sd :: sds =>
    match deserializer.deserializeIdentity sd.identity with
    | none => deduplicateFrom ids sds
    | some identity =>
      let identifier := deserializer.getIdentifier identity
      let key := identifier.mspid ++ identifier.id
      if key ∈ ids then deduplicateFrom ids sds
      else sd :: deduplicateFrom (key :: ids) sds

def deduplicate (sds : List SignedData) : List SignedData := deduplicateFrom deserializer [] sds

def accepts (evaluator : Evaluator) (signatureSet : List SignedData) : Bool :=
  (evaluator (deduplicate deserializer signatureSet) (List.replicate signatureSet.length false)).1

/-- The function `Evaluate` of a policy, which may be a nil pointer. A signature set that does not satisfy the
policy is logged: the statement that returned the error is commented out. -/
def evaluate (policy : Option Evaluator) (signatureSet : List SignedData) : Except String Unit :=
  match policy with
  | none => .error "No such policy"
  | some evaluator => if accepts deserializer evaluator signatureSet then .ok () else .ok ()

/-- The function `NewPolicy`, after the bytes of the policy are decoded. -/
def newPolicy (sigPolicy : Option SignaturePolicyEnvelope) : Except String Evaluator :=
  match sigPolicy with
  | none => .error "Error unmarshaling to SignaturePolicy"
  | some sigPolicy =>
    if sigPolicy.version ≠ 0 then
      .error ("This evaluator only understands messages of version 0, but version was " ++
        toString sigPolicy.version)
    else compile deserializer sigPolicy.identities sigPolicy.rule

/-- The function `SignedByAnyMember` requires one signature of a member of one of the organizations. -/
def signedByAnyMember (memberRole : String → MSPPrincipal) (ids : List String) : SignaturePolicyEnvelope :=
  let sorted := ids.mergeSort (fun first second => decide (first ≤ second))
  { version := 0
    rule := .nOutOf 1 (sorted.zipIdx.map fun entry => .signedBy (Int32.ofNat entry.2))
    identities := sorted.map memberRole }

end Pobl.Cauthdsl
