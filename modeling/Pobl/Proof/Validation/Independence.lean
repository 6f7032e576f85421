/-
This file shows that the flags of a block do not depend on the verification of signatures, on the evaluation of
policies or on the proposal hashes.
-/

import Pobl.Construction.TxValidator

namespace Pobl.Cauthdsl

variable {Identity : Type} (first second : IdentityDeserializer Identity)

/-- The error of a rule that does not compile is independent of how signatures are verified. -/
theorem compile_congr (identities : List MSPPrincipal) (rule : SignaturePolicy) :
    (compile first identities rule).map (fun _ => ()) = (compile second identities rule).map fun _ => () := by
  refine @SignaturePolicy.rec
    (fun rule => (compile first identities rule).map (fun _ => ()) =
      (compile second identities rule).map fun _ => ())
    (fun rules => (compileRules first identities rules).map (fun _ => ()) =
      (compileRules second identities rules).map fun _ => ())
    rfl rfl ?_ ?_ rfl ?_ rule
  · intro index
    simp only [compile]
    split <;> rfl
  · intro n rules ih
    simp only [compile]
    cases one : compileRules first identities rules <;> cases two : compileRules second identities rules <;>
      simp_all [Except.map]
  · intro rule rules head tail
    simp only [compileRules]
    cases one : compile first identities rule <;> cases two : compile second identities rule <;>
      cases three : compileRules first identities rules <;> cases four : compileRules second identities rules <;>
      simp_all [Except.map]

theorem newPolicy_congr (sigPolicy : Option SignaturePolicyEnvelope) :
    (newPolicy first sigPolicy).map (fun _ => ()) = (newPolicy second sigPolicy).map fun _ => () := by
  cases sigPolicy with
  | none => rfl
  | some sigPolicy =>
    simp only [newPolicy]
    split
    · rfl
    · exact compile_congr first second sigPolicy.identities sigPolicy.rule

end Pobl.Cauthdsl

namespace Pobl.Peer.Setting

open Library Protos Cauthdsl

variable {Identity : Type}

/-- Other outcomes of the three checks of authenticity: the verification of signatures, the principals that an
identity satisfies, and the proposal hash in a response. -/
structure Checks (Identity : Type) where
  creatorVerify : Identity → (msg sig : Bytes) → Bool
  satisfiesPrincipal : Identity → MSPPrincipal → Bool
  verify : Identity → (msg sig : Bytes) → Bool
  proposalHash : Bytes → Bytes

/-- The same peer with these outcomes. -/
def recheck (checks : Checks Identity) (setting : Setting Identity) : Setting Identity :=
  { setting with
    codec := { setting.codec with
      proposalResponsePayload := fun bytes => (setting.codec.proposalResponsePayload bytes).map fun prp =>
        { prp with proposalHash := checks.proposalHash bytes } }
    crypto := { setting.crypto with
      getIdentityDeserializer := fun channel => (setting.crypto.getIdentityDeserializer channel).map fun mspObj =>
        { mspObj with verify := checks.creatorVerify } }
    deserializer := { setting.deserializer with
      satisfiesPrincipal := checks.satisfiesPrincipal
      verify := checks.verify } }

section Recheck

variable (checks : Checks Identity) (setting : Setting Identity)

/-- The function `Evaluate` returns an error only for a policy that does not compile. -/
theorem evaluatePolicy_recheck : (setting.recheck checks).evaluatePolicy = setting.evaluatePolicy := by
  have ignores (setting : Setting Identity) (policyBytes : Bytes) (signatureSet : List SignedData) :
      setting.evaluatePolicy policyBytes signatureSet =
        (newPolicy setting.deserializer (setting.codec.signaturePolicyEnvelope policyBytes)).map fun _ => () := by
    unfold evaluatePolicy
    cases newPolicy setting.deserializer (setting.codec.signaturePolicyEnvelope policyBytes) <;>
      simp [evaluate, Except.map]
  funext policyBytes signatureSet
  rw [ignores, ignores]
  exact newPolicy_congr _ _ _

theorem checkCCEPIfCondition_recheck :
    (setting.recheck checks).checkCCEPIfCondition = setting.checkCCEPIfCondition := by
  unfold checkCCEPIfCondition
  rw [evaluatePolicy_recheck]

theorem checkKeys_recheck : (setting.recheck checks).checkKeys = setting.checkKeys := by
  funext vsccName ccEP signatureSet cc blockNum txNum keys checker
  induction keys generalizing checker with
  | nil => rfl
  | cons entry keys ih =>
    simp only [checkKeys, checkSBAndCCEP, checkParameter, checkCCEPIfCondition_recheck, evaluatePolicy_recheck, ih]
    rfl

/-- The extension of a response is read, and its proposal hash is not. -/
theorem decodeResults_recheck : (setting.recheck checks).decodeResults = setting.decodeResults := by
  funext action
  simp only [decodeResults, recheck]
  cases setting.codec.proposalResponsePayload action.proposalResponsePayload.bytes <;> rfl

theorem getActionFromEnvelope_recheck :
    (setting.recheck checks).getActionFromEnvelope = setting.getActionFromEnvelope := by
  funext envBytes
  simp only [getActionFromEnvelope, recheck, Option.bind_eq_bind, Option.bind_map, Function.comp_def]

/-- The recursion reads only the serialized identities. -/
theorem deduplicateIdentity_recheck : (setting.recheck checks).deduplicateIdentity = setting.deduplicateIdentity := by
  delta deduplicateIdentity deduplicateIdentityFrom
  rfl

theorem validateWithPlugin_recheck : (setting.recheck checks).validateWithPlugin = setting.validateWithPlugin := by
  funext block namespaceName seq vsccName policy
  simp only [validateWithPlugin, validateV13, validateV12, validateKeyLevel, checkKeys_recheck,
    checkCCEPIfCondition_recheck, evaluatePolicy_recheck, decodeResults_recheck, deduplicateIdentity_recheck]
  rfl

theorem scanNamespaces_recheck : (setting.recheck checks).scanNamespaces = setting.scanNamespaces := by
  funext ccID rwset scan
  induction rwset generalizing scan with
  | nil => rfl
  | cons ns rest ih =>
    simp only [scanNamespaces, ih]
    rfl

theorem vsccValidateTx_recheck : (setting.recheck checks).vsccValidateTx = setting.vsccValidateTx := by
  have namespaces : (setting.recheck checks).validateNamespace = setting.validateNamespace := by
    unfold validateNamespace
    rw [validateWithPlugin_recheck]
    rfl
  have plan : (setting.recheck checks).vsccPlan = setting.vsccPlan := by
    have event : (setting.recheck checks).checkEvent = setting.checkEvent := rfl
    unfold vsccPlan
    rw [getActionFromEnvelope_recheck, scanNamespaces_recheck, event]
    rfl
  unfold vsccValidateTx
  rw [plan, namespaces]

theorem validateTransaction_recheck :
    validateTransaction (setting.recheck checks).codec (setting.recheck checks).crypto =
      validateTransaction setting.codec setting.crypto := by
  have action : validateAction (setting.recheck checks).codec (setting.recheck checks).crypto =
      validateAction setting.codec setting.crypto := by
    funext hdr act
    simp only [validateAction, recheck, ite_self]
    repeat refine bind_congr fun _ => ?_
    generalize setting.codec.proposalResponsePayload _ = prp
    cases prp <;> rfl
  funext e
  simp only [validateTransaction, validateEndorserTransaction, action]
  rfl

/-- The flags of a block do not depend on the outcomes of the three checks. -/
theorem validate_recheck (schedule : Schedule) (block : Block) :
    (setting.recheck checks).validate schedule block = setting.validate schedule block := by
  have all : (setting.recheck checks).validateTxs = setting.validateTxs := by
    funext block tIdx data
    induction data generalizing tIdx with
    | nil => rfl
    | cons d rest ih =>
      simp only [validateTxs, validateTx, validateEnvelope, validateType, vsccValidateTx_recheck,
        validateTransaction_recheck, ih]
      rfl
  unfold validate
  rw [all]
  rfl

end Recheck

end Pobl.Peer.Setting
