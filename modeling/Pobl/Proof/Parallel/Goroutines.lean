import Pobl.Proof.Parallel.Routines

namespace Pobl.Peer

open Library Protos Cauthdsl Setting List

namespace Setting

variable {Identity : Type} (setting : Setting Identity) (block : Block)

/-- The function `validateTx` prepares a transaction, validates its namespaces and completes it. -/
theorem validateEnvelope_eq (tIdx : Nat) (d : Bytes) : setting.validateEnvelope block tIdx d = (do
      let prepared ← setting.prepare block tIdx d
      match prepared with
      | .endorser _ _ _ _ plan => checkAll (setting.validateNamespace block plan tIdx) plan.namespaces
      | .other _ _ => pure ()
      setting.complete prepared) := by
  simp only [validateEnvelope, prepare, bind_assoc]
  repeat refine bind_congr fun _ => ?_
  split
  next endorser =>
    simp only [validateType, endorser, bind_assoc, pure_bind, vsccValidateTx, complete]
  · simp only [bind_assoc, pure_bind, complete]

/-- The version 1.3 of the validation logic without `PreValidate`. -/
def validateArtifacts (vsccName namespaceName : String) (txPosition : Nat) (policyBytes : Bytes) :
    Except Stop Unit := do
  let va ← setting.decodeArtifacts block txPosition
  let rwset ← setting.decodeResults va.action
  setting.validateKeyLevel vsccName policyBytes (signatureSet va.action) namespaceName block.number txPosition rwset
  setting.validateLSCC namespaceName va

/-- The default plugin without `PreValidate`. -/
def validatePlugin (vsccName namespaceName : String) (seq : Nat) (policy : Bytes) : Except Stop Unit := do
  require (setting.hasPlugin vsccName = true)
    (.terminal ("plugin with name " ++ vsccName ++ " couldn't be used: plugin with name " ++ vsccName ++
      " wasn't found"))
  if setting.capabilities.v1_3Validation then setting.validateArtifacts block vsccName namespaceName seq policy
  else setting.validateV12 block namespaceName seq policy

/-- The validation of a namespace that no other transaction interferes with. -/
def validateAlone (plan : VsccPlan) (seq : Nat) (ns : String) : Except Stop Unit := do
  let info ← setting.namespaceInfo plan ns
  setting.validatePlugin block info.vscc ns seq info.policy

/-- No earlier transaction updates the parameter of a key that a transaction writes in a namespace. -/
def Alone (position : Nat) (ns : String) : Prop :=
  ∀ kid ∈ setting.checkedKeys block position ns, setting.Undisputed block position kid

/-- The plan of an endorser transaction that is not rejected before its namespaces are validated. -/
def planOf (position : Nat) : Option VsccPlan :=
  match block.data.getD position none with
  | none => none
  | some d =>
    match setting.prepare block position d with
    | .ok (.endorser _ _ _ _ plan) => some plan
    | _ => none

/-- A plugin makes the key-level validation of a namespace. -/
def ValidatedBy (plan : VsccPlan) (plugin : Plugin) (ns : String) : Prop :=
  setting.capabilities.v1_3Validation = true ∧ ∃ info, setting.namespaceInfo plan ns = .ok info ∧
    setting.hasPlugin info.vscc = true ∧ plugin = ⟨info.vscc, plan.chdr.channelId⟩

/-- One of the namespaces is validated by the plugin, and those before it pass alone. -/
def SignalsIn (plan : VsccPlan) (position : Nat) (namespaces : List String) (plugin : Plugin) (ns : String) : Prop :=
  ∃ before after, namespaces = before ++ ns :: after ∧ setting.ValidatedBy plan plugin ns ∧
    ∀ earlier ∈ before, setting.validateAlone block plan position earlier = .ok () ∧ setting.Alone block position earlier

/-- The rules of the lifecycle chaincode do not panic on a transaction. -/
def Deploys (position : Nat) (ns : String) : Prop :=
  ns = "lscc" → ∀ va, setting.decodeArtifacts block position = .ok va →
    (setting.validateLSCCInvocation va.chdr.channelId va.env va.cap va.payl).isSome = true

/-- A transaction signals a result for a namespace in any case. -/
def Signals (position : Nat) (plugin : Plugin) (ns : String) : Prop :=
  ∃ plan, setting.planOf block position = some plan ∧ setting.SignalsIn block plan position plan.namespaces plugin ns

variable {setting block}

theorem decodeResults_ne_panic (action : ChaincodeEndorsedAction) : setting.decodeResults action ≠ .error .panic :=
  bind_ne_panic (fetch_ne_panic (by decide) _) fun _ _ => bind_ne_panic (fetch_ne_panic (by decide) _) fun _ _ =>
    bind_ne_panic (fetch_ne_panic (by decide) _) fun _ _ => nofun

theorem validateLSCC_ne_panic {txPosition : Nat} {namespaceName : String} {va : ValidationArtifacts}
    (deploys : setting.Deploys block txPosition namespaceName)
    (artifacts : setting.decodeArtifacts block txPosition = .ok va) :
    setting.validateLSCC namespaceName va ≠ .error .panic := by
  rw [validateLSCC]
  split
  next lscc =>
    obtain ⟨result, returned⟩ := Option.isSome_iff_exists.mp (deploys lscc va artifacts)
    rw [returned]
    exact mapError_ne_panic (fun err same => by cases err <;> cases same) result
  · exact fun same => (by cases same)

theorem validateV12_ne_panic {txPosition : Nat} {namespaceName : String}
    (calm : setting.decodeArtifacts block txPosition ≠ .error .panic)
    (deploys : setting.Deploys block txPosition namespaceName) (policyBytes : Bytes) :
    setting.validateV12 block namespaceName txPosition policyBytes ≠ .error .panic :=
  bind_ne_panic calm fun _ artifacts => bind_ne_panic (fetch_ne_panic (by decide) _) fun _ _ =>
    bind_ne_panic (mapError_ne_panic (fun _ => by decide) _) fun _ _ => validateLSCC_ne_panic deploys artifacts

theorem getCDataForCC_ne_panic (ccid : String) : setting.getCDataForCC ccid ≠ .error .panic :=
  bind_ne_panic (fetch_ne_panic (by decide) _) fun _ _ => bind_ne_panic (mapError_ne_panic (by exact fun _ => nofun) _)
    fun _ _ => bind_ne_panic (fetch_ne_panic (by decide) _) fun _ _ =>
      bind_ne_panic (fetch_ne_panic (by decide) _) fun _ _ => bind_ne_panic (require_ne_panic (by decide)) fun _ _ =>
        bind_ne_panic (require_ne_panic (by decide)) fun _ _ => nofun

theorem namespaceInfo_ne_panic (plan : VsccPlan) (ns : String) : setting.namespaceInfo plan ns ≠ .error .panic := by
  refine bind_ne_panic ?_ fun _ _ => bind_ne_panic (require_ne_panic (by decide)) fun _ _ same => (by cases same)
  rw [getInfoForValidate]
  split
  · exact bind_ne_panic (fetch_ne_panic (by decide) _) fun _ _ same => (by cases same)
  · exact bind_ne_panic (getCDataForCC_ne_panic ns) fun _ _ same => (by cases same)

/-- The goroutine of a transaction and `extractDependenciesForTx` decode the same read and write set. -/
theorem extractedResults_of_decoded {position : Nat} {va : ValidationArtifacts} {rwsetBytes : Bytes}
    (artifacts : setting.decodeArtifacts block position = .ok va)
    (results : setting.decodeResults va.action = .ok rwsetBytes) :
    setting.extractedResults (block.data.getD position none) = .ok (some rwsetBytes) := by
  simp only [decodeArtifacts, bind_eq_ok, fetch_eq_ok, require_eq_ok, pure_eq_ok] at artifacts
  obtain ⟨env, envelope, payl, payload, header, _, chdr, _, _, _, tx, transaction, act, first, cap, capDecoded,
    action, present, rfl⟩ := artifacts
  simp only [decodeResults, bind_eq_ok, fetch_eq_ok, pure_eq_ok] at results
  obtain ⟨pRespPayload, response, extension, extended, respPayload, decoded, rfl⟩ := results
  obtain ⟨rest, actions⟩ := List.head?_eq_some_iff.mp first
  have bytes : Slice.bytes pRespPayload.extension = extension := by
    rw [extended]
    rfl
  simp only [extractedResults, envelope, payload, transaction, actions, capDecoded, present, response,
    Option.bind_eq_bind, Option.bind_some, bytes, decoded, Option.pure_def]

end Setting

section Goroutines

variable {Identity : Type} {setting : Setting Identity} {block : Block} {signals : Nat → Plugin → String → Prop}
  {goroutine : Nat} {validators : Validators}
  (holds : (discipline block (setting.extractedKeys block)).invariant validators)
  (idle : Idle block goroutine validators) (inside : goroutine < block.data.length)
  (calm : setting.decodeArtifacts block goroutine ≠ .error .panic) {plugin : Plugin}

include holds idle calm in
theorem follows_validateArtifacts (ns : String) (policy : Bytes) (deploys : setting.Deploys block goroutine ns)
    (finished : ∀ position < goroutine, Finished block plugin position validators)
    (expected : ∀ kid ∈ setting.checkedKeys block goroutine ns, Expected setting block signals goroutine plugin kid) :
    Follows block (setting.extractedKeys block) signals goroutine
      (Returns block goroutine (setting.Alone block goroutine ns)
        (setting.validateArtifacts block plugin.vsccName ns goroutine policy))
      (.validateArtifacts setting block plugin ns goroutine policy) validators := by
  refine follows_returns_compute_bind idle calm fun va artifacts => ?_
  refine follows_returns_compute_bind idle (decodeResults_ne_panic _) fun rwsetBytes results => ?_
  have extracted := extractedResults_of_decoded artifacts results
  have checked : ∀ rwset, setting.codec.txRwSet rwsetBytes = some rwset → ∀ entry ∈ keysOf rwset ns,
      (⟨ns, entry.1, entry.2⟩ : LedgerKeyID) ∈ setting.checkedKeys block goroutine ns := by
    intro rwset decoded entry member
    rw [checkedKeys, extracted]
    simp only [decoded, Option.elim_some]
    exact mem_map.mpr ⟨entry, member, rfl⟩
  refine follows_returns_bind (follows_validateKeyLevel holds idle policy (signatureSet va.action) ns finished
    rwsetBytes ?_ ?_) holds fun _ after _ _ idle => ?_
  · exact fun rwset decoded entry member => expected _ (checked rwset decoded entry member)
  · exact fun rwset decoded entry member alone => alone _ (checked rwset decoded entry member)
  · exact follows_returns_compute idle (validateLSCC_ne_panic deploys artifacts)

theorem follows_postValidate (holds : (discipline block (setting.extractedKeys block)).invariant validators)
    (idle : Idle block goroutine validators) (plugin : Plugin) (ns : String) (err : Except Stop Unit) :
    Follows block (setting.extractedKeys block) signals goroutine
      (fun _ after => Idle block goroutine after ∧ (after plugin).signalled block goroutine ns = true)
      (.postValidate plugin ns goroutine err) validators := by
  refine (follows_forBlock local_idle idle).bind holds fun _ after holds _ known => ?_
  refine (follows_getOrCreate local_idle known.1 known.2 goroutine).bind holds fun _ after holds _ known => ?_
  exact follows_signalValidationResult known.1 known.2 goroutine ns err.isOk

include holds idle inside calm

/-- The version 1.3 of the validation logic signals its result. -/
theorem follows_validateV13 (ns : String) (policy : Bytes) (deploys : setting.Deploys block goroutine ns)
    (extracted : ∀ position ≤ goroutine, ∃ results,
      setting.extractedResults (block.data.getD position none) = .ok results)
    (expected : ∀ kid ∈ setting.checkedKeys block goroutine ns, Expected setting block signals goroutine plugin kid) :
    Follows block (setting.extractedKeys block) signals goroutine
      (fun result after => Returns block goroutine (setting.Alone block goroutine ns)
          (setting.validateArtifacts block plugin.vsccName ns goroutine policy) result after ∧
        (after plugin).signalled block goroutine ns = true)
      (.validateV13 setting block plugin ns goroutine policy) validators := by
  refine (follows_preValidate holds idle inside extracted).bind holds fun _ after holds _ known => ?_
  refine (follows_validateArtifacts holds known.1 calm ns policy deploys
    (fun position earlier => known.2 position (Nat.le_of_lt earlier)) expected).bind holds
    fun err after holds _ returned => ?_
  refine (follows_postValidate holds returned.idle plugin ns err).bind holds fun _ after _ _ known => ?_
  exact fun later rely => ⟨⟨known.1.rely rely, returned.calm, returned.same⟩,
    (rely.evolves plugin).signalled goroutine ns known.2⟩

/-- A plugin that makes the key-level validation signals the result. -/
theorem follows_validateWithPlugin (plugin : Plugin) (ns : String) (policy : Bytes)
    (deploys : setting.Deploys block goroutine ns)
    (extracted : setting.capabilities.v1_3Validation = true → setting.hasPlugin plugin.vsccName = true →
      ∀ position ≤ goroutine, ∃ results, setting.extractedResults (block.data.getD position none) = .ok results)
    (expected : setting.capabilities.v1_3Validation = true → setting.hasPlugin plugin.vsccName = true →
      ∀ kid ∈ setting.checkedKeys block goroutine ns, Expected setting block signals goroutine plugin kid) :
    Follows block (setting.extractedKeys block) signals goroutine
      (fun result after => Returns block goroutine (setting.Alone block goroutine ns)
          (setting.validatePlugin block plugin.vsccName ns goroutine policy) result after ∧
        (setting.capabilities.v1_3Validation = true → setting.hasPlugin plugin.vsccName = true →
          (after plugin).signalled block goroutine ns = true))
      (.validateWithPlugin setting block plugin ns goroutine policy) validators := by
  rw [validatePlugin, Goroutine.validateWithPlugin, require]
  by_cases registered : setting.hasPlugin plugin.vsccName = true
  · rw [if_pos registered]
    cases version : setting.capabilities.v1_3Validation with
    | true =>
      refine (follows_validateV13 holds idle inside calm ns policy deploys (extracted version registered)
        (expected version registered)).weaken fun result after _ reached => ?_
      exact ⟨reached.1, fun _ _ => reached.2⟩
    | false =>
      have quiet := validateV12_ne_panic calm deploys policy
      exact follows_compute quiet fun later rely =>
        ⟨⟨idle.rely rely, quiet, fun _ => rfl⟩, fun wrong => (by cases wrong)⟩
  · rw [if_neg registered]
    exact fun later rely => ⟨⟨idle.rely rely, fun same => (by cases same), fun _ => rfl⟩,
      fun _ wrong => absurd wrong registered⟩

/-- The validation of one namespace. -/
theorem follows_validateNamespace (plan : VsccPlan) (ns : String) (deploys : setting.Deploys block goroutine ns)
    (extracted : ∀ plugin, setting.ValidatedBy plan plugin ns → ∀ position ≤ goroutine, ∃ results,
      setting.extractedResults (block.data.getD position none) = .ok results)
    (expected : ∀ plugin, setting.ValidatedBy plan plugin ns → ∀ kid ∈ setting.checkedKeys block goroutine ns,
      Expected setting block signals goroutine plugin kid) :
    Follows block (setting.extractedKeys block) signals goroutine
      (fun result after => Returns block goroutine (setting.Alone block goroutine ns)
          (setting.validateAlone block plan goroutine ns) result after ∧
        ∀ plugin, setting.ValidatedBy plan plugin ns → (after plugin).signalled block goroutine ns = true)
      (.validateNamespace setting block plan goroutine ns) validators := by
  rw [validateAlone]
  refine follows_compute_bind (namespaceInfo_ne_panic plan ns) ?_ ?_
  · intro stop failed later rely
    have quiet : setting.namespaceInfo plan ns ≠ .error .panic := namespaceInfo_ne_panic plan ns
    rw [failed] at quiet ⊢
    refine ⟨⟨idle.rely rely, error_ne_panic quiet, fun _ => rfl⟩, ?_⟩
    rintro plugin ⟨_, info, found, _⟩
    cases failed.symm.trans found
  · intro info found
    rw [found]
    have validated (version : setting.capabilities.v1_3Validation = true)
        (registered : setting.hasPlugin info.vscc = true) :
        setting.ValidatedBy plan ⟨info.vscc, plan.chdr.channelId⟩ ns :=
      ⟨version, info, found, registered, rfl⟩
    refine (follows_validateWithPlugin holds idle inside calm ⟨info.vscc, plan.chdr.channelId⟩ ns info.policy
      deploys (fun version registered => extracted _ (validated version registered))
      (fun version registered => expected _ (validated version registered))).weaken fun result after _ reached => ?_
    refine ⟨reached.1, ?_⟩
    rintro plugin ⟨version, info', found', registered, rfl⟩
    cases found.symm.trans found'
    exact reached.2 version registered

/-- The validation of the namespaces of a transaction. -/
theorem follows_validateNamespaces (plan : VsccPlan) (namespaces : List String)
    (deploys : ∀ ns ∈ namespaces, setting.Deploys block goroutine ns)
    (extracted : ∀ ns ∈ namespaces, ∀ plugin, setting.ValidatedBy plan plugin ns → ∀ position ≤ goroutine,
      ∃ results, setting.extractedResults (block.data.getD position none) = .ok results)
    (expected : ∀ ns ∈ namespaces, ∀ plugin, setting.ValidatedBy plan plugin ns →
      ∀ kid ∈ setting.checkedKeys block goroutine ns, Expected setting block signals goroutine plugin kid) :
    Follows block (setting.extractedKeys block) signals goroutine
      (fun result after => (Idle block goroutine after ∧ result ≠ .error .panic) ∧
        ∀ plugin ns, setting.SignalsIn block plan goroutine namespaces plugin ns →
          (after plugin).signalled block goroutine ns = true)
      (.validateNamespaces setting block plan goroutine namespaces) validators := by
  induction namespaces generalizing validators with
  | nil =>
    refine fun later rely => ⟨⟨idle.rely rely, nofun⟩, ?_⟩
    rintro plugin ns ⟨before, after, split, _⟩
    cases before <;> cases split
  | cons ns rest ih =>
    refine follows_bind (follows_validateNamespace holds idle inside calm plan ns (deploys ns mem_cons_self)
      (extracted ns mem_cons_self) (expected ns mem_cons_self)) holds ?_ ?_
    · intro stop after _ reached later rely
      refine ⟨⟨reached.1.idle.rely rely, error_ne_panic reached.1.calm⟩, ?_⟩
      rintro plugin other ⟨before, after', split, validated, passed⟩
      cases before with
      | nil =>
        cases split
        exact (rely.evolves plugin).signalled goroutine ns (reached.2 plugin validated)
      | cons first before =>
        -- A namespace that passes alone does not stop the loop.
        cases split
        obtain ⟨succeeds, alone⟩ := passed ns mem_cons_self
        exact nomatch (reached.1.same alone).trans succeeds
    · intro _ after holds evolves reached
      refine (ih holds reached.1.idle (fun other member => deploys other (mem_cons_of_mem _ member))
        (fun other member => extracted other (mem_cons_of_mem _ member))
        (fun other member => expected other (mem_cons_of_mem _ member))).weaken ?_
      rintro result later evolves ⟨returned, signalled⟩
      refine ⟨returned, ?_⟩
      rintro plugin other ⟨before, after', split, validated, passed⟩
      cases before with
      | nil =>
        cases split
        exact (evolves plugin).signalled goroutine ns (reached.2 plugin validated)
      | cons first before =>
        cases split
        exact signalled plugin other ⟨before, after', rfl, validated,
          fun earlier member => passed earlier (mem_cons_of_mem _ member)⟩

end Goroutines

end Pobl.Peer
