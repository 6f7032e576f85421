import Pobl.Construction.EndorsementValidation
import Pobl.Proof.Validation.Headers

namespace Pobl.Peer

open Library Protos Cauthdsl List

namespace Setting

variable {Identity : Type} (setting : Setting Identity)

/-- The bytes of a policy decode and compile. -/
def Compiles (policy : Bytes) : Prop :=
  ∃ evaluator, newPolicy setting.deserializer (setting.codec.signaturePolicyEnvelope policy) = .ok evaluator

/-- The evaluator that is compiled from a policy accepts the signature set without duplicates. -/
def Satisfies (policy : Bytes) (signatureSet : List SignedData) : Prop :=
  ∃ evaluator, newPolicy setting.deserializer (setting.codec.signaturePolicyEnvelope policy) = .ok evaluator ∧
    accepts setting.deserializer evaluator signatureSet = true

/-- The function `Evaluate` fails only on a policy that does not compile. -/
theorem evaluatePolicy_eq_ok (policy : Bytes) (signatureSet : List SignedData) (result : Unit) :
    setting.evaluatePolicy policy signatureSet = .ok result ↔ setting.Compiles policy := by
  unfold evaluatePolicy Compiles
  cases newPolicy setting.deserializer (setting.codec.signaturePolicyEnvelope policy) with
  | error err => simp
  | ok evaluator => simp [evaluate]

section KeyLevel

variable (vsccName cc : String) (blockNum : UInt64) (txNum : Nat)

/-- A key has no validation parameter, so the policy of the chaincode applies. -/
def FallsBack (entry : String × Bytes) : Prop :=
  setting.getValidationParameterForKey vsccName cc entry.1 entry.2 blockNum txNum = .error .undefinedCollection ∨
    setting.getValidationParameterForKey vsccName cc entry.1 entry.2 blockNum txNum = .ok []

/-- A key has no validation parameter, or it has one that compiles. -/
def Permits (entry : String × Bytes) : Prop :=
  setting.FallsBack vsccName cc blockNum txNum entry ∨ ∃ parameter, parameter ≠ [] ∧ setting.Compiles parameter ∧
      setting.getValidationParameterForKey vsccName cc entry.1 entry.2 blockNum txNum = .ok parameter

variable (ccEP : Bytes) (signatureSet : List SignedData)

theorem checkCCEPIfCondition_eq_ok (checker result : PolicyChecker) (condition : Bool) :
    setting.checkCCEPIfCondition ccEP signatureSet checker condition = .ok result ↔
      (condition = true ∧ result = checker) ∨
        (condition = false ∧ setting.Compiles ccEP ∧ result = ⟨true, true⟩) := by
  unfold checkCCEPIfCondition
  cases condition with
  | true => simp [eq_comm]
  | false =>
    have compiled := setting.evaluatePolicy_eq_ok ccEP signatureSet ()
    cases evaluated : setting.evaluatePolicy ccEP signatureSet with
    | error err => simp [← compiled, evaluated]
    | ok value => simp [← compiled, evaluated, eq_comm]

/-- What the check of one key leaves. -/
theorem checkSBAndCCEP_eq_ok (entry : String × Bytes) (checker result : PolicyChecker) :
    setting.checkSBAndCCEP vsccName ccEP signatureSet cc entry.1 entry.2 blockNum txNum checker = .ok result ↔
      (setting.FallsBack vsccName cc blockNum txNum entry ∧ ((checker.ccEPChecked = true ∧ result = checker) ∨
          (checker.ccEPChecked = false ∧ setting.Compiles ccEP ∧ result = ⟨true, true⟩))) ∨
      (¬setting.FallsBack vsccName cc blockNum txNum entry ∧ setting.Permits vsccName cc blockNum txNum entry ∧
        result = { checker with someEPChecked := true }) := by
  unfold checkSBAndCCEP checkParameter Permits FallsBack
  cases found : setting.getValidationParameterForKey vsccName cc entry.1 entry.2 blockNum txNum with
  | error err =>
    cases err with
    | updated => simp
    | undefinedCollection => simp [checkCCEPIfCondition_eq_ok]
    | other err => simp
  | ok parameter =>
    cases parameter with
    | nil => simp [checkCCEPIfCondition_eq_ok]
    | cons first rest =>
      have compiled := setting.evaluatePolicy_eq_ok (first :: rest) signatureSet ()
      cases evaluated : setting.evaluatePolicy (first :: rest) signatureSet with
      | error err => simp [← compiled, evaluated]
      | ok value =>
        simp [← compiled, evaluated]
        exact eq_comm

/-- The policy of the chaincode is needed for a key without a parameter and for a namespace without keys. -/
def NeedsPolicy (keys : List (String × Bytes)) (checker : PolicyChecker) : Prop :=
  checker.ccEPChecked = false ∧ ((∃ entry ∈ keys, setting.FallsBack vsccName cc blockNum txNum entry) ∨
      (keys = [] ∧ checker.someEPChecked = false))

/-- The checks of the keys succeed, and so does the last check of the policy of the chaincode. -/
def KeysPass (keys : List (String × Bytes)) (checker : PolicyChecker) : Prop :=
  ∃ left result, setting.checkKeys vsccName ccEP signatureSet cc blockNum txNum keys checker = .ok left ∧
    setting.checkCCEPIfCondition ccEP signatureSet left left.someEPChecked = .ok result

theorem keysPass_cons (entry : String × Bytes) (keys : List (String × Bytes)) (checker : PolicyChecker) :
    setting.KeysPass vsccName cc blockNum txNum ccEP signatureSet (entry :: keys) checker ↔
      ∃ next, setting.checkSBAndCCEP vsccName ccEP signatureSet cc entry.1 entry.2 blockNum txNum checker = .ok next ∧
        setting.KeysPass vsccName cc blockNum txNum ccEP signatureSet keys next := by
  simp only [KeysPass, checkKeys, bind_eq_ok]
  constructor
  · rintro ⟨left, result, ⟨next, checked, later⟩, last⟩
    exact ⟨next, checked, left, result, later, last⟩
  · rintro ⟨next, checked, left, result, later, last⟩
    exact ⟨left, result, ⟨next, checked, later⟩, last⟩

/-- The keys of a namespace pass if each of them is permitted and the policy of the chaincode compiles where it is
needed. -/
theorem keysPass_iff (keys : List (String × Bytes)) (checker : PolicyChecker)
    (consistent : checker.ccEPChecked = true → checker.someEPChecked = true) :
    setting.KeysPass vsccName cc blockNum txNum ccEP signatureSet keys checker ↔
      (∀ entry ∈ keys, setting.Permits vsccName cc blockNum txNum entry) ∧
        (setting.NeedsPolicy vsccName cc blockNum txNum keys checker → setting.Compiles ccEP) := by
  induction keys generalizing checker with
  | nil =>
    obtain ⟨someChecked, ccChecked⟩ := checker
    cases someChecked <;> cases ccChecked <;>
      simp_all [KeysPass, checkKeys, checkCCEPIfCondition_eq_ok, NeedsPolicy]
  | cons entry keys ih =>
    simp only [keysPass_cons, checkSBAndCCEP_eq_ok, forall_mem_cons]
    by_cases falls : setting.FallsBack vsccName cc blockNum txNum entry
    · have permitted : setting.Permits vsccName cc blockNum txNum entry := .inl falls
      cases checked : checker.ccEPChecked with
      | true => simp [falls, permitted, NeedsPolicy, checked, ih checker consistent]
      | false => simp [falls, permitted, NeedsPolicy, checked, ih, and_comm]
    · simp [falls, NeedsPolicy, ih, and_assoc]

/-- The keys that a transaction writes in a namespace. -/
def keysOf (rwset : List NsRwSet) (cc : String) : List (String × Bytes) :=
  (rwset.filter fun ns => ns.nameSpace = cc).flatMap writtenKeys

theorem validateKeyLevel_eq_ok (rwsetBytes : Bytes) (rwset : List NsRwSet)
    (decoded : setting.codec.txRwSet rwsetBytes = some rwset) (result : Unit) :
    setting.validateKeyLevel vsccName ccEP signatureSet cc blockNum txNum rwsetBytes = .ok result ↔
      (∀ entry ∈ keysOf rwset cc, setting.Permits vsccName cc blockNum txNum entry) ∧
        (setting.NeedsPolicy vsccName cc blockNum txNum (keysOf rwset cc) ⟨false, false⟩ →
          setting.Compiles ccEP) := by
  rw [← setting.keysPass_iff vsccName cc blockNum txNum ccEP signatureSet _ ⟨false, false⟩ nofun]
  simp [validateKeyLevel, KeysPass, decoded, keysOf, -bind_pure_comp]

end KeyLevel

section Namespaces

variable (ccID : String)

/-- The namespaces that a transaction writes. -/
def written (rwset : List NsRwSet) : List String := (rwset.filter setting.txWritesToNamespace).map NsRwSet.nameSpace

/-- A namespace belongs to a system chaincode that an application chaincode cannot invoke. -/
def NotInvokable (ns : String) : Prop :=
  setting.sccprovider.isSysCCAndNotInvokableCC2CC ns = true ∨
    setting.sccprovider.isSysCCAndNotInvokableExternal ns = true

theorem written_cons (ns : NsRwSet) (rest : List NsRwSet) : setting.written (ns :: rest) =
      if setting.txWritesToNamespace ns then ns.nameSpace :: setting.written rest else setting.written rest := by
  unfold written
  cases writes : setting.txWritesToNamespace ns <;> simp [writes]

/-- The scan succeeds if and only if no namespace occurs twice. -/
theorem scanNamespaces_isOk (rwset : List NsRwSet) (scan : NamespaceScan) :
    (∃ result, setting.scanNamespaces ccID rwset scan = .ok result) ↔
      (rwset.map NsRwSet.nameSpace).Nodup ∧ ∀ ns ∈ rwset, ns.nameSpace ∉ scan.namespaces := by
  induction rwset generalizing scan with
  | nil => simp [scanNamespaces]
  | cons ns rest ih =>
    unfold scanNamespaces
    by_cases seen : ns.nameSpace ∈ scan.namespaces
    · simp [seen]
    · rw [if_neg seen]
      simp only [map_cons, nodup_cons, mem_map, not_exists, not_and, forall_mem_cons, seen,
        not_false_eq_true, true_and]
      split <;> rw [ih] <;> simp only [mem_cons, not_or, forall₂_and] <;> tauto

/-- What the scan collects. -/
theorem scanNamespaces_collects {rwset : List NsRwSet} {scan result : NamespaceScan}
    (scanned : setting.scanNamespaces ccID rwset scan = .ok result) :
    (∀ ns, ns ∈ result.wrNamespace ↔ ns ∈ scan.wrNamespace ∨
      (ns ∈ setting.written rwset ∧ (ns ≠ ccID ∨ setting.capabilities.v1_2Validation = false))) ∧
    (result.writesToLSCC = false ↔ scan.writesToLSCC = false ∧ "lscc" ∉ setting.written rwset) ∧
    (result.writesToNonInvokableSCC = false ↔
      scan.writesToNonInvokableSCC = false ∧ ∀ ns ∈ setting.written rwset, ¬setting.NotInvokable ns) := by
  induction rwset generalizing scan with
  | nil =>
    cases scanned
    simp [written]
  | cons ns rest ih =>
    unfold scanNamespaces at scanned
    rw [written_cons]
    split at scanned
    · cases scanned
    · cases writes : setting.txWritesToNamespace ns with
      | false =>
        simp only [writes, Bool.false_eq_true, if_false] at scanned
        have collected := ih scanned
        exact collected
      | true =>
        simp only [writes, if_true] at scanned
        obtain ⟨names, lscc, invokable⟩ := ih scanned
        refine ⟨?_, ?_, ?_⟩
        · intro name
          split <;> simp <;> grind
        · rw [lscc]
          simp only [Bool.or_eq_false_iff, decide_eq_false_iff_not, if_true, mem_cons, not_or, and_assoc,
            @eq_comm _ ns.nameSpace]
        · rw [invokable]
          simp [NotInvokable, and_assoc]

end Namespaces

end Setting

/-- The messages about the execution of a transaction. -/
structure Effects where
  hdrExt : ChaincodeHeaderExtension
  response : ChaincodeAction
  rwset : List NsRwSet
  invoked : ChaincodeID
  executed : ChaincodeID

/-- The messages are decoded from the parts of a transaction. -/
structure Effects.Of (codec : Codec) (parts : Parts) (effects : Effects) : Prop where
  hdrExt : codec.chaincodeHeaderExtension parts.chdr.extension = some effects.hdrExt
  prp : parts.action.proposalResponsePayload.isSome
  response : ∃ extension, parts.prp.extension = some extension ∧
    codec.chaincodeAction extension = some effects.response
  rwset : codec.txRwSet effects.response.results = some effects.rwset
  invoked : effects.hdrExt.chaincodeId = some effects.invoked
  executed : effects.response.chaincodeId = some effects.executed

/-- A transaction fixes the messages about its execution. -/
theorem Effects.Of.unique {codec : Codec} {parts : Parts} {first second : Effects} (one : first.Of codec parts)
    (two : second.Of codec parts) : first = second := by
  obtain ⟨hdrExt, _, ⟨extension, present, response⟩, rwset, invoked, executed⟩ := one
  obtain ⟨hdrExt', _, ⟨extension', present', response'⟩, rwset', invoked', executed'⟩ := two
  cases first
  cases second
  cases hdrExt.symm.trans hdrExt'
  cases present.symm.trans present'
  cases response.symm.trans response'
  cases rwset.symm.trans rwset'
  cases invoked.symm.trans invoked'
  cases executed.symm.trans executed'
  rfl

namespace Setting

variable {Identity : Type} (setting : Setting Identity)

/-- The checks of the plugin that do not depend on the decision of a policy. -/
@[mk_iff]
structure PluginChecks (block : Block) (tIdx : Nat) (parts : Parts) (effects : Effects) (ns : String)
    (info : ValidationInfo) : Prop where
  registered : setting.hasPlugin info.vscc = true
  preValidated : setting.capabilities.v1_3Validation = true → setting.preValidate info.vscc block tIdx = .ok ()
  permitted : setting.capabilities.v1_3Validation = true →
    ∀ entry ∈ keysOf effects.rwset ns, setting.Permits info.vscc ns block.number tIdx entry
  compiles : (setting.capabilities.v1_3Validation = true →
      setting.NeedsPolicy info.vscc ns block.number tIdx (keysOf effects.rwset ns) ⟨false, false⟩) →
    setting.Compiles info.policy
  identities : setting.capabilities.v1_3Validation = false → (setting.deduplicateIdentity parts.action).isSome
  lscc : ns = "lscc" →
    setting.validateLSCCInvocation parts.chdr.channelId parts.env parts.cap parts.payload = some (.ok ())

variable {setting} {block : Block} {tIdx : Nat} {d : Bytes} {parts : Parts} {effects : Effects}

section

variable (of : parts.Of setting.codec d)

include of

theorem decodeArtifacts_eq (found : block.data[tIdx]? = some (some d))
    (endorser : parts.chdr.type = .endorserTransaction) :
    setting.decodeArtifacts block tIdx = .ok { parts with payl := parts.payload } := by
  have bytes : Slice.bytes (block.data.getD tIdx none) = d := by
    rw [List.getD_eq_getElem?_getD, found]
    rfl
  simp only [decodeArtifacts, bytes, bind_eq_ok, fetch_eq_ok, require_eq_ok, pure_eq_ok]
  exact ⟨_, of.env, _, of.payload, _, of.header, _, of.chdr, (), endorser, _, of.transaction_bytes,
    _, rfl, _, of.cap, _, of.action, rfl⟩

theorem decodeResults_eq (executed : effects.Of setting.codec parts) :
    setting.decodeResults parts.action = .ok effects.response.results := by
  obtain ⟨extension, present, decoded⟩ := executed.response
  simp only [decodeResults, bind_eq_ok, fetch_eq_ok, pure_eq_ok]
  exact ⟨_, of.prp, _, present, _, decoded, rfl⟩

theorem getActionFromEnvelope_eq (prp : parts.action.proposalResponsePayload.isSome) (response : ChaincodeAction) :
    setting.getActionFromEnvelope d = some response ↔
      ∃ extension, parts.prp.extension = some extension ∧ setting.codec.chaincodeAction extension = some response := by
  obtain ⟨prpBytes, present⟩ := Option.isSome_iff_exists.mp prp
  have decoded : setting.codec.proposalResponsePayload prpBytes = some parts.prp := by
    have decoded := of.prp
    rwa [present] at decoded
  simp [getActionFromEnvelope, of.env, of.payload, of.transaction_bytes, of.cap, of.action, present, decoded,
    Option.bind_eq_some_iff]

theorem getActionFromEnvelope_prp {response : ChaincodeAction}
    (decoded : setting.getActionFromEnvelope d = some response) : parts.action.proposalResponsePayload.isSome := by
  cases present : parts.action.proposalResponsePayload with
  | none => simp [getActionFromEnvelope, of.env, of.payload, of.transaction_bytes, of.cap, of.action, present] at decoded
  | some prpBytes => rfl

end

theorem validateLSCC_eq_ok (ns : String) (va : ValidationArtifacts) (result : Unit) :
    setting.validateLSCC ns va = .ok result ↔
      (ns = "lscc" → setting.validateLSCCInvocation va.chdr.channelId va.env va.cap va.payl = some (.ok ())) := by
  by_cases lscc : ns = "lscc" <;> simp [validateLSCC, lscc, bind_eq_ok, fetch_eq_ok]

/-- The plugin accepts a transaction if and only if it passes the checks that do not depend on the decision of a
policy. -/
theorem validateWithPlugin_eq_ok (found : block.data[tIdx]? = some (some d)) (of : parts.Of setting.codec d)
    (endorser : parts.chdr.type = .endorserTransaction) (executed : effects.Of setting.codec parts) (ns : String)
    (info : ValidationInfo) (result : Unit) :
    setting.validateWithPlugin block ns tIdx info.vscc info.policy = .ok result ↔
      setting.PluginChecks block tIdx parts effects ns info := by
  have decoded := decodeArtifacts_eq of found endorser
  rw [validateWithPlugin, pluginChecks_iff]
  cases version : setting.capabilities.v1_3Validation with
  | true =>
    simp [validateV13, decoded, decodeResults_eq of executed, validateLSCC_eq_ok, and_assoc,
      validateKeyLevel_eq_ok _ _ _ _ _ _ _ _ _ executed.rwset, Unique.exists_iff]
  | false =>
    simp [validateV12, decoded, evaluatePolicy_eq_ok, validateLSCC_eq_ok, Option.isSome_iff_exists, and_left_comm]

variable (setting) in
/-- The namespaces whose endorsement policies apply to a transaction. -/
def Governs (effects : Effects) (ns : String) : Prop :=
  if setting.sccprovider.isSysCC effects.invoked.name then ns = effects.invoked.name
  else (setting.capabilities.v1_2Validation = true ∧ ns = effects.invoked.name) ∨ ns ∈ setting.written effects.rwset

variable (setting) in
/-- The checks of `VSCCValidateTx` that do not depend on the decision of a policy. -/
@[mk_iff]
structure VsccChecks (block : Block) (tIdx : Nat) (parts : Parts) (effects : Effects) : Prop where
  named : effects.invoked.name ≠ ""
  consistent : effects.invoked.name = effects.executed.name
  versioned : effects.executed.version ≠ ""
  event : setting.capabilities.v1_2Validation = true → ∀ events, effects.response.events = some events →
    ∃ event, setting.codec.chaincodeEvent events = some event ∧ event.chaincodeId = effects.invoked.name
  distinct : (effects.rwset.map NsRwSet.nameSpace).Nodup
  invokable : setting.sccprovider.isSysCC effects.invoked.name = true →
    setting.sccprovider.isSysCCAndNotInvokableExternal effects.invoked.name = false
  separate : setting.sccprovider.isSysCC effects.invoked.name = false →
    "lscc" ∉ setting.written effects.rwset ∧ ∀ ns ∈ setting.written effects.rwset, ¬setting.NotInvokable ns
  namespaces : ∀ ns, setting.Governs effects ns → ∃ info, setting.getInfoForValidate parts.chdr ns = .ok info ∧
    (setting.sccprovider.isSysCC effects.invoked.name = false → ns = effects.invoked.name →
      info.version = effects.executed.version) ∧
    setting.PluginChecks block tIdx parts effects ns info

theorem checkEvent_eq_ok (ccID : String) (events : Slice) (result : Unit) :
    setting.checkEvent ccID events = .ok result ↔
      (setting.capabilities.v1_2Validation = true → ∀ bytes, events = some bytes →
        ∃ event, setting.codec.chaincodeEvent bytes = some event ∧ event.chaincodeId = ccID) := by
  unfold checkEvent
  cases setting.capabilities.v1_2Validation with
  | true => cases events <;> simp
  | false => simp

theorem validateNamespace_eq_ok (found : block.data[tIdx]? = some (some d)) (of : parts.Of setting.codec d)
    (endorser : parts.chdr.type = .endorserTransaction) (executed : effects.Of setting.codec parts)
    (ccID ccVer ns : String) (namespaces : List String) (application : Bool) (result : Unit) :
    setting.validateNamespace block ⟨parts.chdr, ccID, ccVer, namespaces, application⟩ tIdx ns = .ok result ↔
      ∃ info, setting.getInfoForValidate parts.chdr ns = .ok info ∧
        (application = true → ns = ccID → info.version = ccVer) ∧
        setting.PluginChecks block tIdx parts effects ns info := by
  simp [validateNamespace, namespaceInfo, validateWithPlugin_eq_ok found of endorser executed]

/-- The namespaces that the scan leaves are those whose policies apply to an invocation of an application
chaincode. -/
theorem mem_scanned {scan : NamespaceScan} (application : setting.sccprovider.isSysCC effects.invoked.name = false)
    (scanned : setting.scanNamespaces effects.invoked.name effects.rwset
      ⟨[], if setting.capabilities.v1_2Validation then [effects.invoked.name] else [], false, false⟩ = .ok scan)
    (ns : String) : ns ∈ scan.wrNamespace ↔ setting.Governs effects ns := by
  rw [(setting.scanNamespaces_collects _ scanned).1]
  unfold Governs
  rw [application]
  by_cases invoked : ns = effects.invoked.name
  · cases setting.capabilities.v1_2Validation <;> simp [invoked]
  · cases setting.capabilities.v1_2Validation <;> simp [invoked]

/-- A transaction that decodes passes `VSCCValidateTx` if and only if it passes the checks that do not depend on the
decision of a policy. -/
theorem vsccValidateTx_decoded (found : block.data[tIdx]? = some (some d)) (of : parts.Of setting.codec d)
    (endorser : parts.chdr.type = .endorserTransaction) (executed : effects.Of setting.codec parts) (result : Unit) :
    setting.vsccValidateTx block tIdx parts.header d = .ok result ↔ setting.VsccChecks block tIdx parts effects := by
  have responded := (getActionFromEnvelope_eq of executed.prp _).mpr executed.response
  have scans := setting.scanNamespaces_isOk effects.invoked.name effects.rwset
    ⟨[], if setting.capabilities.v1_2Validation then [effects.invoked.name] else [], false, false⟩
  simp only [vsccValidateTx, vsccPlan, bind_eq_ok, fetch_eq_ok, require_eq_ok, of.chdr, executed.hdrExt, responded,
    executed.rwset, executed.invoked, executed.executed, Option.some.injEq, exists_eq_left', checkEvent_eq_ok,
    vsccChecks_iff]
  cases scanned : setting.scanNamespaces effects.invoked.name effects.rwset
    ⟨[], if setting.capabilities.v1_2Validation then [effects.invoked.name] else [], false, false⟩ with
  | error stop => simp_all
  | ok scan =>
    have distinct := (scans.mp ⟨scan, scanned⟩).1
    obtain ⟨-, lscc, invokable⟩ := setting.scanNamespaces_collects _ scanned
    cases system : setting.sccprovider.isSysCC effects.invoked.name with
    | true =>
      simp only [if_true, bind_eq_ok, require_eq_ok, pure_eq_ok]
      simp [Governs, system, distinct, checkAll_eq_ok, and_assoc, validateNamespace_eq_ok found of endorser executed]
    | false =>
      simp only [Bool.false_eq_true, if_false, bind_eq_ok, require_eq_ok, pure_eq_ok]
      simp [distinct, lscc, invokable, mem_scanned system scanned, checkAll_eq_ok, and_assoc,
        validateNamespace_eq_ok found of endorser executed]

/-- A transaction passes `VSCCValidateTx` if and only if it decodes and passes the checks that do not depend on the
decision of a policy. -/
theorem vsccValidateTx_eq_ok (found : block.data[tIdx]? = some (some d)) (of : parts.Of setting.codec d)
    (endorser : parts.chdr.type = .endorserTransaction) (result : Unit) :
    setting.vsccValidateTx block tIdx parts.header d = .ok result ↔
      ∃ effects : Effects, effects.Of setting.codec parts ∧ setting.VsccChecks block tIdx parts effects := by
  constructor
  · intro passed
    have decodes := passed
    simp only [vsccValidateTx, vsccPlan, bind_eq_ok, fetch_eq_ok, of.chdr, Option.some.injEq, exists_eq_left'] at decodes
    obtain ⟨_, ⟨hdrExt, extended, response, responded, rwset, decoded, invoked, invokes, executed, executes, -⟩, -⟩ :=
      decodes
    have prp := getActionFromEnvelope_prp of responded
    have effectsOf : Effects.Of setting.codec parts ⟨hdrExt, response, rwset, invoked, executed⟩ :=
      ⟨extended, prp, (getActionFromEnvelope_eq of prp response).mp responded, decoded, invokes, executes⟩
    exact ⟨_, effectsOf, (vsccValidateTx_decoded found of endorser effectsOf result).mp passed⟩
  · rintro ⟨effects, effectsOf, checks⟩
    exact (vsccValidateTx_decoded found of endorser effectsOf result).mpr checks

end Setting

end Pobl.Peer
