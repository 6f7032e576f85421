import Pobl.Proof.Validation.Codes
import Pobl.Proof.Validation.Endorsements
import Pobl.Proof.Validation.Independence

namespace Pobl.Peer

open Library Protos Cauthdsl

namespace Setting

variable {Identity : Type} (setting : Setting Identity)

/-- The checks of an endorser transaction that do not depend on its signatures or on its proposal hash. -/
structure TransactionChecks (block : Block) (tIdx : Nat) (parts : Parts) (effects : Effects)
    (invocation : Invocation) : Prop where
  headers : parts.HeaderChecks setting.crypto
  unknown : setting.getTransactionByID parts.chdr.txId = .notFoundInIndex
  vscc : setting.VsccChecks block tIdx parts effects
  chaincodes : ∃ invoked upgraded, setting.getTxCCInstance parts.payload parts.header = .ok (invoked, upgraded) ∧
    invocation = ⟨some invoked, upgraded, parts.chdr.txId⟩
  marshals : (setting.codec.marshalEnvelope parts.env).isSome

/-- The transaction at a position is an endorser transaction that passes these checks. -/
def Invokes (block : Block) (tIdx : Nat) (invocation : Invocation) : Prop :=
  ∃ d parts effects, block.data[tIdx]? = some (some d) ∧ Parts.Of setting.codec d parts ∧
    Effects.Of setting.codec parts effects ∧ setting.TransactionChecks block tIdx parts effects invocation

variable {setting} {block : Block} {tIdx : Nat} {d : Bytes} {res : BlockValidationResult} {invocation : Invocation}

theorem checkTxIdDupsLedger_eq_ok (txid : TxId) (result : Unit) :
    setting.checkTxIdDupsLedger txid = .ok result ↔ setting.getTransactionByID txid = .notFoundInIndex := by
  unfold checkTxIdDupsLedger
  split <;> simp_all

/-- The steps of `validateTx` that are taken for every envelope. -/
theorem validateEnvelope_eq_ok (invocation : Invocation) : setting.validateEnvelope block tIdx d = .ok invocation ↔
      ∃ env, setting.codec.envelope d = some env ∧ ∃ payload hdr,
        validateTransaction setting.codec setting.crypto env = .ok (payload, hdr) ∧
        ∃ chdr, setting.codec.channelHeader hdr.channelHeader.bytes = some chdr ∧
          setting.validateType block tIdx d payload hdr chdr = .ok invocation ∧
          (setting.codec.marshalEnvelope env).isSome := by
  simp [validateEnvelope, Option.isSome_iff_exists, -bind_pure_comp]

theorem validateType_endorser {payload : Payload} {hdr : Header} {chdr : ChannelHeader}
    (endorser : chdr.type = .endorserTransaction) (invocation : Invocation) :
    setting.validateType block tIdx d payload hdr chdr = .ok invocation ↔
      setting.getTransactionByID chdr.txId = .notFoundInIndex ∧ setting.vsccValidateTx block tIdx hdr d = .ok () ∧
        ∃ invoked upgraded, setting.getTxCCInstance payload hdr = .ok (invoked, upgraded) ∧
          invocation = ⟨some invoked, upgraded, chdr.txId⟩ := by
  simp [validateType, endorser, checkTxIdDupsLedger_eq_ok, @eq_comm _ invocation, Unique.exists_iff, -bind_pure_comp]

/-- An endorser transaction passes the checks of `validateTx` if and only if it decodes and passes the checks that do
not depend on its signatures or on its proposal hash. -/
theorem validateEnvelope_endorser (found : block.data[tIdx]? = some (some d)) (invocation : Invocation) :
    (setting.validateEnvelope block tIdx d = .ok invocation ∧ IsEndorserTransaction setting.codec d) ↔
      ∃ parts effects, Parts.Of setting.codec d parts ∧ Effects.Of setting.codec parts effects ∧
        setting.TransactionChecks block tIdx parts effects invocation := by
  rw [validateEnvelope_eq_ok]
  constructor
  · rintro ⟨⟨env, decoded, payload, hdr, checked, chdr, channel, typed, marshals⟩,
      env', payload', hdr', chdr', decoded', payloadDecoded, present, channel', endorser⟩
    cases decoded.symm.trans decoded'
    obtain ⟨payloadFound, headerFound⟩ := validateTransaction_found checked
    cases payloadFound.symm.trans payloadDecoded
    cases headerFound.symm.trans present
    cases channel.symm.trans channel'
    obtain ⟨parts, of, headers, rfl, rfl, rfl⟩ :=
      (validateTransaction_endorser decoded payload hdr chdr channel endorser).mp checked
    obtain ⟨unknown, validated, chaincodes⟩ := (validateType_endorser endorser invocation).mp typed
    obtain ⟨effects, executed, vscc⟩ := (vsccValidateTx_eq_ok found of endorser ()).mp validated
    cases decoded.symm.trans of.env
    exact ⟨parts, effects, of, executed, headers, unknown, vscc, chaincodes, marshals⟩
  · rintro ⟨parts, effects, of, executed, checks⟩
    have endorser := checks.headers.endorser
    refine ⟨⟨parts.env, of.env, parts.payload, parts.header, ?_, parts.chdr, of.chdr, ?_, checks.marshals⟩,
      parts.env, parts.payload, parts.header, parts.chdr, of.env, of.payload, of.header, of.chdr, endorser⟩
    · exact (validateTransaction_endorser of.env _ _ _ of.chdr endorser).mpr
        ⟨parts, of, checks.headers, rfl, rfl, rfl⟩
    · exact (validateType_endorser endorser invocation).mpr ⟨checks.unknown,
        (vsccValidateTx_eq_ok found of endorser ()).mpr ⟨effects, executed, checks.vscc⟩, checks.chaincodes⟩

/-- A transaction that is not an endorser transaction names no chaincode and has no identifier. -/
theorem validateEnvelope_other (validated : setting.validateEnvelope block tIdx d = .ok invocation)
    (other : ¬IsEndorserTransaction setting.codec d) : invocation = ⟨none, none, ""⟩ := by
  obtain ⟨env, decoded, payload, hdr, checked, chdr, channel, typed, -⟩ :=
    (validateEnvelope_eq_ok invocation).mp validated
  obtain ⟨payloadFound, headerFound⟩ := validateTransaction_found checked
  unfold validateType at typed
  split at typed
  next endorser =>
    exact absurd ⟨env, payload, hdr, chdr, decoded, payloadFound, headerFound, channel, endorser⟩ other
  · simp only [bind_eq_ok, pure_eq_ok] at typed
    obtain ⟨-, -, -, -, rfl⟩ := typed
    rfl
  · cases typed

/-- The result of a transaction that passes the checks. -/
def Invocation.result (invocation : Invocation) (tIdx : Nat) : BlockValidationResult where
  tIdx := tIdx
  txsChaincodeName := invocation.invoked
  txsUpgradedChaincode := invocation.upgraded
  txid := invocation.txid

/-- A valid result belongs to a transaction that is nil or passes the checks. -/
theorem validateTx_valid {slice : Slice} (validated : setting.validateTx block tIdx slice = .ok res)
    (succeeded : res.err = none) (valid : res.validationCode = .valid) :
    (slice = none ∧ res = { tIdx := tIdx }) ∨
      ∃ d invocation, slice = some d ∧ setting.validateEnvelope block tIdx d = .ok invocation ∧
        res = Invocation.result invocation tIdx := by
  unfold validateTx at validated
  split at validated
  · cases validated
    exact .inl ⟨rfl, rfl⟩
  next d =>
    split at validated
    next invocation passed =>
      cases validated
      exact .inr ⟨d, invocation, rfl, passed, rfl⟩
    next code rejected _ =>
      cases validated
      exact absurd valid rejected
    · cases validated
      cases succeeded
    · cases validated

variable (setting) in
/-- The other transactions of the block leave a transaction valid: its identifier is not a duplicate, its upgrade is
the latest one of its chaincode, and the chaincode that it invokes is not upgraded. -/
@[mk_iff]
structure Undisturbed (block : Block) (tIdx : Nat) (invocation : Invocation) : Prop where
  first : setting.capabilities.forbidDuplicateTXIdInBlock = true → invocation.txid ≠ "" →
    ∀ earlier other, earlier < tIdx → setting.Invokes block earlier other → other.txid ≠ invocation.txid
  latest : ∀ cc, invocation.upgraded = some cc → ∀ place other upgraded, setting.Invokes block place other →
    other.upgraded = some upgraded → generateCCKey upgraded = generateCCKey cc → place ≤ tIdx
  current : ∀ cc, invocation.invoked = some cc → ∀ place other upgraded, setting.Invokes block place other →
    other.upgraded = some upgraded → generateCCKey upgraded ≠ generateCCKey cc

section Results

variable {results : List BlockValidationResult} (returned : setting.validateTxs block 0 block.data = .ok results)

include returned

/-- A transaction that passes the checks has a valid result. -/
theorem result_of_invokes (invokes : setting.Invokes block tIdx invocation) :
    results[tIdx]? = some (Invocation.result invocation tIdx) := by
  obtain ⟨d, parts, effects, found, of, executed, checks⟩ := invokes
  obtain ⟨length, each⟩ := validateTxs_eq_ok returned
  have inRange : tIdx < results.length := by
    rw [length]
    exact (List.getElem?_eq_some_iff.mp found).1
  have listed := List.getElem?_eq_getElem inRange
  obtain ⟨slice, foundAgain, validated⟩ := each tIdx _ listed
  cases found.symm.trans foundAgain
  have passed := ((validateEnvelope_endorser found invocation).mpr ⟨parts, effects, of, executed, checks⟩).1
  rw [Nat.zero_add, validateTx, passed] at validated
  rw [listed]
  exact congrArg some (Except.ok.inj validated).symm

/-- A valid result that upgrades a chaincode or has an identifier belongs to a transaction that passes the checks. -/
theorem invokes_of_result (succeeded : ∀ res ∈ results, res.err = none) (found : results[tIdx]? = some res)
    (valid : res.validationCode = .valid) (named : res.txsUpgradedChaincode ≠ none ∨ res.txid ≠ "") :
    ∃ invocation, setting.Invokes block tIdx invocation ∧ invocation.upgraded = res.txsUpgradedChaincode ∧
      invocation.txid = res.txid := by
  obtain ⟨slice, listed, validated⟩ := (validateTxs_eq_ok returned).2 tIdx res found
  rw [Nat.zero_add] at validated
  rcases validateTx_valid validated (succeeded res (List.mem_of_getElem? found)) valid with
    ⟨-, rfl⟩ | ⟨d, invocation, rfl, passed, rfl⟩
  · rcases named with wrong | wrong
    · exact absurd rfl wrong
    · exact absurd rfl wrong
  · by_cases endorser : IsEndorserTransaction setting.codec d
    · obtain ⟨parts, effects, of, executed, checks⟩ := (validateEnvelope_endorser listed invocation).mp ⟨passed, endorser⟩
      exact ⟨invocation, ⟨d, parts, effects, listed, of, executed, checks⟩, rfl, rfl⟩
    · rw [validateEnvelope_other passed endorser] at named
      rcases named with wrong | wrong
      · exact absurd rfl wrong
      · exact absurd rfl wrong

/-- The passes over the block leave a transaction valid if and only if the other transactions do. -/
theorem undisturbed_iff_passes (succeeded : ∀ res ∈ results, res.err = none)
    (found : results[tIdx]? = some (Invocation.result invocation tIdx)) :
    setting.Undisturbed block tIdx invocation ↔
      ¬(setting.capabilities.forbidDuplicateTXIdInBlock = true ∧ Repeats results tIdx) ∧ ¬Outdated results tIdx ∧
        ¬Disrupted results tIdx := by
  have named (place : Nat) {txid : TxId} (named : txid ≠ "") : (∃ res, results[place]? = some res ∧
      res.validationCode = .valid ∧ res.txid = txid) ↔ ∃ other, setting.Invokes block place other ∧ other.txid = txid := by
    constructor
    · rintro ⟨res, listed, valid, rfl⟩
      obtain ⟨other, invokes, -, same⟩ := invokes_of_result returned succeeded listed valid (.inr named)
      exact ⟨other, invokes, same⟩
    · rintro ⟨other, invokes, rfl⟩
      exact ⟨_, result_of_invokes returned invokes, rfl, rfl⟩
  have upgraded (place : Nat) (key : String) : Upgrades results key place ↔ ∃ other cc,
      setting.Invokes block place other ∧ other.upgraded = some cc ∧ generateCCKey cc = key := by
    constructor
    · rintro ⟨res, listed, valid, cc, upgrades, same⟩
      obtain ⟨other, invokes, again, -⟩ :=
        invokes_of_result returned succeeded listed valid (.inl (by simp [upgrades]))
      exact ⟨other, cc, invokes, again.trans upgrades, same⟩
    · rintro ⟨other, cc, invokes, upgrades, same⟩
      exact ⟨_, result_of_invokes returned invokes, rfl, cc, upgrades, same⟩
  rw [undisturbed_iff]
  refine and_congr ?_ (and_congr ?_ ?_)
  · by_cases empty : invocation.txid = ""
    · simp [Repeats, found, Invocation.result, empty]
    · simp [Repeats, found, Invocation.result, empty, named _ empty]
      grind
  · have own (key : String) : Upgrades results key tIdx ↔ ∃ cc, invocation.upgraded = some cc ∧
        generateCCKey cc = key := by simp [Upgrades, found, Invocation.result]
    simp only [Outdated, own]
    simp [upgraded]
    grind
  · simp [Disrupted, upgraded, Peer.Invokes, found, Invocation.result]
    grind

end Results

/-- An endorser transaction is left valid if and only if it passes the checks that do not depend on its signatures or
on its proposal hash and the other transactions leave it valid. -/
theorem valid_endorser_iff {schedule : Schedule} {flags : List TxValidationCode}
    (validated : setting.validate schedule block = .ok flags) (found : block.data[tIdx]? = some (some d))
    (endorser : IsEndorserTransaction setting.codec d) :
    flags[tIdx]? = some .valid ↔
      ∃ parts effects invocation, Parts.Of setting.codec d parts ∧ Effects.Of setting.codec parts effects ∧
        setting.TransactionChecks block tIdx parts effects invocation ∧
        setting.Undisturbed block tIdx invocation := by
  obtain ⟨results, returned, succeeded, codes⟩ := validate_valid_iff validated
  rw [codes]
  constructor
  · rintro ⟨res, listed, valid, kept⟩
    obtain ⟨slice, foundAgain, checked⟩ := (validateTxs_eq_ok returned).2 tIdx res listed
    cases found.symm.trans foundAgain
    rw [Nat.zero_add] at checked
    rcases validateTx_valid checked (succeeded res (List.mem_of_getElem? listed)) valid with
      ⟨wrong, -⟩ | ⟨_, invocation, same, passed, rfl⟩
    · cases wrong
    · cases same
      obtain ⟨parts, effects, of, executed, checks⟩ := (validateEnvelope_endorser found invocation).mp ⟨passed, endorser⟩
      exact ⟨parts, effects, invocation, of, executed, checks,
        (undisturbed_iff_passes returned succeeded listed).mpr kept⟩
  · rintro ⟨parts, effects, invocation, of, executed, checks, undisturbed⟩
    have listed := result_of_invokes returned ⟨d, parts, effects, found, of, executed, checks⟩
    exact ⟨_, listed, rfl, (undisturbed_iff_passes returned succeeded listed).mp undisturbed⟩

/-- The envelope signature verifies under the creator in the signature header. -/
def SignedByCreator (crypto : Crypto Identity) (parts : Parts) : Prop :=
  ∃ mspObj creator, crypto.getIdentityDeserializer parts.chdr.channelId = some mspObj ∧
    mspObj.deserializeIdentity parts.shdr.creator = some creator ∧
    mspObj.verify creator parts.env.payload.bytes parts.env.signature.bytes = true

variable (setting)

/-- The signature set that the plugin evaluates. -/
def endorsementSet (action : ChaincodeEndorsedAction) : Option (List SignedData) :=
  if setting.capabilities.v1_3Validation then some (signatureSet action) else setting.deduplicateIdentity action

/-- The endorsements without duplicates satisfy the evaluator that is compiled from the policy of a namespace. -/
def EndorsedFor (parts : Parts) (ns : String) : Prop :=
  ∃ info set, setting.getInfoForValidate parts.chdr ns = .ok info ∧ setting.endorsementSet parts.action = some set ∧
    setting.Satisfies info.policy set

/-- A transaction is signed by its creator, its endorsers have seen its proposal, and it is endorsed for each
namespace whose policy applies to it. -/
structure Authentic (parts : Parts) (effects : Effects) : Prop where
  signature : SignedByCreator setting.crypto parts
  proposalHash : parts.proposalHash setting.crypto = some parts.prp.proposalHash
  endorsements : ∀ ns, setting.Governs effects ns → setting.EndorsedFor parts ns

variable {setting}

/-- The flags of a block are the same whatever the three checks of authenticity say. So the endorser transactions
that are left valid are authentic if and only if the transactions that pass the checks that are still made are. -/
theorem valid_transactions_authentic (setting : Setting Identity) (schedule : Schedule) (block : Block)
    (flags : List TxValidationCode) (validated : setting.validate schedule block = .ok flags) :
    (∀ checks : Checks Identity, (setting.recheck checks).validate schedule block = .ok flags) ∧
      ((∀ (tIdx : Nat) (d : Bytes), block.data[tIdx]? = some (some d) → IsEndorserTransaction setting.codec d →
          flags[tIdx]? = some .valid →
          ∃ parts effects, Parts.Of setting.codec d parts ∧ Effects.Of setting.codec parts effects ∧
            setting.Authentic parts effects) ↔
        (∀ tIdx d parts effects invocation, block.data[tIdx]? = some (some d) → Parts.Of setting.codec d parts →
          Effects.Of setting.codec parts effects → setting.TransactionChecks block tIdx parts effects invocation →
          setting.Undisturbed block tIdx invocation → setting.Authentic parts effects)) := by
  refine ⟨fun checks => (validate_recheck checks setting schedule block).trans validated, ?_, ?_⟩
  · intro authentic tIdx d parts effects invocation found of executed checks undisturbed
    have endorser : IsEndorserTransaction setting.codec d :=
      ⟨parts.env, parts.payload, parts.header, parts.chdr, of.env, of.payload, of.header, of.chdr,
        checks.headers.endorser⟩
    have valid := (valid_endorser_iff validated found endorser).mpr
      ⟨parts, effects, invocation, of, executed, checks, undisturbed⟩
    obtain ⟨parts', effects', of', executed', genuine⟩ := authentic tIdx d found endorser valid
    cases of.unique of'
    cases executed.unique executed'
    exact genuine
  · intro genuine tIdx d found endorser valid
    obtain ⟨parts, effects, invocation, of, executed, checks, undisturbed⟩ :=
      (valid_endorser_iff validated found endorser).mp valid
    exact ⟨parts, effects, of, executed, genuine tIdx d parts effects invocation found of executed checks undisturbed⟩

/-- A peer on which an identity is its bytes and signs with them, and the hash is the identity. The bytes of a
transaction are the signature of its envelope. The chaincode requires one endorsement. -/
def sample (proposalHash : Bytes) (endorsements : List Endorsement) : Setting Bytes where
  codec :=
    { envelope := fun d => some ⟨some [1], some d⟩
      marshalEnvelope := fun _ => some []
      payload := fun _ => some ⟨some ⟨some [2], some [3]⟩, some [4]⟩
      channelHeader := fun _ => some ⟨.endorserTransaction, "channel", "0907", 0, []⟩
      signatureHeader := fun _ => some ⟨[7], [9]⟩
      transaction := fun _ => some ⟨[⟨some [5], [6]⟩]⟩
      chaincodeActionPayload := fun _ => some ⟨some [8], some ⟨some [10], endorsements⟩⟩
      proposalResponsePayload := fun _ => some ⟨proposalHash, some []⟩
      chaincodeAction := fun _ => some ⟨[], none, some ⟨"cc", "1"⟩⟩
      chaincodeHeaderExtension := fun _ => some ⟨some ⟨"cc", "1"⟩⟩
      chaincodeEvent := fun _ => none
      txRwSet := fun _ => some [⟨"cc", [[1]], [], []⟩]
      chaincodeProposalPayloadInput := fun _ => none
      chaincodeInvocationSpec := fun _ => none
      chaincodeDeploymentSpec := fun _ => none
      chaincodeData := fun _ => some ⟨"cc", "1", "vscc", [1]⟩
      serializedIdentity := fun _ => none
      signaturePolicyEnvelope := fun _ => some ⟨0, .signedBy 0, [⟨0, []⟩]⟩
      marshalPolicy := fun _ => none
      configEnvelope := fun _ => none }
  crypto := ⟨some, fun _ => some ⟨some, fun _ => ⟨"org", "id"⟩, fun _ _ => true, fun _ => true,
    fun identity _ sig => decide (sig = identity)⟩⟩
  deserializer := ⟨some, fun _ => ⟨"org", "id"⟩, fun _ _ => true, fun _ => true,
    fun identity _ sig => decide (sig = identity)⟩
  capabilities := ⟨true, true, true, true, true⟩
  sccprovider := ⟨fun _ => false, fun _ => false, fun _ => false⟩
  sysCCVersion := ""
  getMSPIDs := fun _ => []
  memberRole := fun _ => ⟨0, []⟩
  hasPlugin := fun _ => true
  getTransactionByID := fun _ => .notFoundInIndex
  getState := some fun _ => .ok (some [])
  getValidationParameterForKey := fun _ _ _ _ _ _ => .ok []
  validateLSCCInvocation := fun _ _ _ _ => some (.ok ())
  blockDep := fun _ => ⟨0, []⟩
  apply := fun _ => .ok ()

/-- The messages of a transaction of the sample peer. -/
def sampleParts (proposalHash : Bytes) (endorsements : List Endorsement) (d : Bytes) : Parts where
  env := ⟨some [1], some d⟩
  payload := ⟨some ⟨some [2], some [3]⟩, some [4]⟩
  header := ⟨some [2], some [3]⟩
  chdr := ⟨.endorserTransaction, "channel", "0907", 0, []⟩
  shdr := ⟨[7], [9]⟩
  data := [4]
  act := ⟨some [5], [6]⟩
  actHdr := ⟨[7], [9]⟩
  cap := ⟨some [8], some ⟨some [10], endorsements⟩⟩
  action := ⟨some [10], endorsements⟩
  prp := ⟨proposalHash, some []⟩

def sampleEffects : Effects where
  hdrExt := ⟨some ⟨"cc", "1"⟩⟩
  response := ⟨[], none, some ⟨"cc", "1"⟩⟩
  rwset := [⟨"cc", [[1]], [], []⟩]
  invoked := ⟨"cc", "1"⟩
  executed := ⟨"cc", "1"⟩

section

variable (proposalHash : Bytes) (endorsements : List Endorsement)

include proposalHash endorsements

theorem sampleParts_of (d : Bytes) :
    (sampleParts proposalHash endorsements d).Of (sample proposalHash endorsements).codec d :=
  ⟨rfl, rfl, rfl, rfl, rfl, rfl, rfl, rfl, rfl, rfl, rfl⟩

theorem sampleEffects_of (d : Bytes) :
    sampleEffects.Of (sample proposalHash endorsements).codec (sampleParts proposalHash endorsements d) :=
  ⟨rfl, rfl, ⟨[], rfl, rfl⟩, rfl, rfl, rfl⟩

/-- The policy of the sample chaincode applies to the sample transactions. -/
theorem sample_governs (ns : String) : (sample proposalHash endorsements).Governs sampleEffects ns ↔ ns = "cc" := by
  simp [Governs, sample, sampleEffects, written, txWritesToNamespace]

end

/-- No signature verifies, nobody satisfies a principal, and every response has an empty hash. -/
def failing : Checks Bytes := ⟨fun _ _ _ => false, fun _ _ => false, fun _ _ _ => false, fun _ => []⟩

/-- An honest transaction is left valid, and it is authentic. It is left valid as well when its checks fail. -/
theorem valid_transactions_authentic_honest :
    (sample [2, 5, 8] [⟨[11], [11]⟩]).validate .inOrder ⟨1, [some [7]]⟩ = .ok [.valid] ∧
      ((sample [2, 5, 8] [⟨[11], [11]⟩]).recheck failing).validate .inOrder ⟨1, [some [7]]⟩ = .ok [.valid] ∧
      ∃ parts effects, Parts.Of (sample [2, 5, 8] [⟨[11], [11]⟩]).codec [7] parts ∧
        Effects.Of (sample [2, 5, 8] [⟨[11], [11]⟩]).codec parts effects ∧
        (sample [2, 5, 8] [⟨[11], [11]⟩]).Authentic parts effects := by
  have validated : (sample [2, 5, 8] [⟨[11], [11]⟩]).validate .inOrder ⟨1, [some [7]]⟩ = .ok [.valid] := by rfl
  have endorser : IsEndorserTransaction (sample [2, 5, 8] [⟨[11], [11]⟩]).codec [7] :=
    ⟨_, _, _, _, rfl, rfl, rfl, rfl, rfl⟩
  obtain ⟨ignored, exactly⟩ := valid_transactions_authentic _ .inOrder _ _ validated
  refine ⟨validated, ignored failing, exactly.mpr ?_ 0 [7] rfl endorser rfl⟩
  intro tIdx d parts effects invocation found of executed _ _
  have only : d = [7] := by
    cases tIdx with
    | zero =>
      cases found
      rfl
    | succ tIdx => cases found
  subst only
  cases of.unique (sampleParts_of _ _ _)
  cases executed.unique (sampleEffects_of _ _ _)
  refine ⟨⟨_, [7], rfl, rfl, rfl⟩, rfl, fun ns governs => ?_⟩
  exact ⟨⟨"1", "vscc", [1]⟩, [⟨[10, 11], [11], [11]⟩], rfl, rfl, _, rfl, rfl⟩

/-- A transaction with a wrong signature, a wrong proposal hash and no endorsement is left valid. -/
theorem forged_transaction_valid : (sample [] []).validate .inOrder ⟨1, [some [0]]⟩ = .ok [.valid] ∧
      IsEndorserTransaction (sample [] []).codec [0] ∧
      ∀ parts effects, Parts.Of (sample [] []).codec [0] parts → Effects.Of (sample [] []).codec parts effects →
        ¬SignedByCreator (sample [] []).crypto parts ∧
        parts.proposalHash (sample [] []).crypto ≠ some parts.prp.proposalHash ∧
        ¬∀ ns, (sample [] []).Governs effects ns → (sample [] []).EndorsedFor parts ns := by
  refine ⟨by rfl, ⟨_, _, _, _, rfl, rfl, rfl, rfl, rfl⟩, fun parts effects of executed => ?_⟩
  cases of.unique (sampleParts_of _ _ _)
  cases executed.unique (sampleEffects_of _ _ _)
  refine ⟨?_, by decide, fun endorsed => ?_⟩
  · rintro ⟨mspObj, creator, known, deserialized, verified⟩
    cases known
    cases deserialized
    cases verified
  · obtain ⟨info, set, known, evaluated, evaluator, compiled, accepted⟩ :=
      endorsed "cc" ((sample_governs _ _ _).mpr rfl)
    cases known
    cases evaluated
    cases compiled
    cases accepted

end Setting

end Pobl.Peer
