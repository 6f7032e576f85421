/-
This file models the validation of the endorsements of a transaction: the default plugin with its two versions
of the validation logic, the key-level validator and `vscc_validator.go`.
-/

import Pobl.Construction.Validation

namespace Pobl.Peer

open Library Protos Cauthdsl

structure Block where
  number : UInt64
  data : List Slice
  deriving DecidableEq

structure Capabilities where
  forbidDuplicateTXIdInBlock : Bool
  privateChannelData : Bool
  keyLevelEndorsement : Bool
  v1_2Validation : Bool
  v1_3Validation : Bool

structure SystemChaincodeProvider where
  isSysCC : String → Bool
  isSysCCAndNotInvokableCC2CC : String → Bool
  isSysCCAndNotInvokableExternal : String → Bool

/-- The errors of `GetValidationParameterForKey`. Another transaction of the block has updated the parameter, the
collection is not defined or has an invalid name, or the lookup has failed. -/
inductive ParameterError where
  | updated
  | undefinedCollection
  | other (err : String)
  deriving DecidableEq

inductive TxValidationError where
  | endorsementPolicy
  | executionFailure (err : String)
  deriving DecidableEq

inductive TransactionLookup where
  | found
  | notFoundInIndex
  | failed (err : String)
  deriving DecidableEq

/-- The block whose dependencies the key-level validator extracts. A flag says whether a transaction is done. -/
structure BlockDependency where
  blockNum : UInt64
  txDepOnce : List Bool

/-- The configuration of the channel and the ledger during the validation of one block, and the functions that the
validation calls. A block with a config transaction has no other transaction, so the configuration is fixed.
The function `getState` reads the state of the lifecycle chaincode and has no value without a query executor.
The function `validateLSCCInvocation` has no value if it panics. Each plugin has a key-level validator of its own. -/
structure Setting (Identity : Type) where
  codec : Codec
  crypto : Crypto Identity
  deserializer : IdentityDeserializer Identity
  capabilities : Capabilities
  sccprovider : SystemChaincodeProvider
  sysCCVersion : String
  getMSPIDs : String → List String
  memberRole : String → MSPPrincipal
  hasPlugin : String → Bool
  getTransactionByID : TxId → TransactionLookup
  getState : Option (String → Except String (Option Bytes))
  getValidationParameterForKey : (vsccName cc coll : String) → (key : Bytes) → (blockNum : UInt64) →
    (txNum : Nat) → Except ParameterError Bytes
  validateLSCCInvocation : String → Envelope → ChaincodeActionPayload → Payload → Option (Except TxValidationError Unit)
  blockDep : (vsccName : String) → BlockDependency
  apply : Bytes → Except String Unit

/-- The data that an endorser signs: the bytes of the proposal response and the endorser. -/
def endorsementData (prp : Slice) (endorsement : Endorsement) : SignedData where
  data := prp.bytes ++ endorsement.endorser
  identity := endorsement.endorser
  signature := endorsement.signature

def policyErr : Stop := .invalid .endorsementPolicyFailure

/-- What `VSCCValidateTx` decides before it calls a plugin. The version is checked for an application chaincode. -/
structure VsccPlan where
  chdr : ChannelHeader
  ccID : String
  ccVer : String
  namespaces : List String
  application : Bool

namespace Setting

variable {Identity : Type} (setting : Setting Identity)

def evaluatePolicy (policyBytes : Bytes) (signatureSet : List SignedData) : Except String Unit :=
  match newPolicy setting.deserializer (setting.codec.signaturePolicyEnvelope policyBytes) with
  | .error err => .error err
  | .ok policy => evaluate setting.deserializer (some policy) signatureSet

section KeyLevel

structure PolicyChecker where
  someEPChecked : Bool
  ccEPChecked : Bool
  deriving DecidableEq

variable (vsccName : String) (ccEP : Bytes) (signatureSet : List SignedData)

def checkCCEPIfCondition (checker : PolicyChecker) (condition : Bool) : Except Stop PolicyChecker :=
  if condition then .ok checker
  else
    match setting.evaluatePolicy ccEP signatureSet with
    | .error _ => .error policyErr
    | .ok () => .ok ⟨true, true⟩

/-- A parameter of the key replaces the policy of the chaincode. -/
def checkParameter (vp : Except ParameterError Bytes) (checker : PolicyChecker) : Except Stop PolicyChecker :=
  match vp with
  | .error .updated => .error policyErr
  | .error .undefinedCollection => setting.checkCCEPIfCondition ccEP signatureSet checker checker.ccEPChecked
  | .error (.other err) => .error (.terminal err)
  | .ok [] => setting.checkCCEPIfCondition ccEP signatureSet checker checker.ccEPChecked
  | .ok (first :: rest) =>
    match setting.evaluatePolicy (first :: rest) signatureSet with
    | .error _ => .error policyErr
    | .ok () => .ok { checker with someEPChecked := true }

def checkSBAndCCEP (cc coll : String) (key : Bytes) (blockNum : UInt64) (txNum : Nat) (checker : PolicyChecker) :
    Except Stop PolicyChecker :=
  setting.checkParameter ccEP signatureSet
    (setting.getValidationParameterForKey vsccName cc coll key blockNum txNum) checker

/-- The keys that a transaction writes in one namespace, in the order in which they are validated. -/
def writtenKeys (ns : NsRwSet) : List (String × Bytes) :=
  ns.writes.map (fun key => ("", key)) ++ ns.metadataWrites.map (fun key => ("", key)) ++
    ns.collHashedRwSets.flatMap (fun coll => coll.hashedWrites.map fun key => (coll.collectionName, key)) ++
    ns.collHashedRwSets.flatMap (fun coll => coll.metadataWrites.map fun key => (coll.collectionName, key))

def checkKeys (cc : String) (blockNum : UInt64) (txNum : Nat) :
    List (String × Bytes) → PolicyChecker → Except Stop PolicyChecker
  | [], checker => .ok checker
  | (coll, key) :: keys, checker => do
    let checker ← setting.checkSBAndCCEP vsccName ccEP signatureSet cc coll key blockNum txNum checker
    checkKeys cc blockNum txNum keys checker

/-- The function `KeyLevelValidator.Validate`, after the signature set is built. -/
def validateKeyLevel (cc : String) (blockNum : UInt64) (txNum : Nat) (rwsetBytes : Bytes) : Except Stop Unit := do
  let rwset ← fetch policyErr (setting.codec.txRwSet rwsetBytes)
  let keys := (rwset.filter fun ns => ns.nameSpace = cc).flatMap writtenKeys
  let checker ← setting.checkKeys vsccName ccEP signatureSet cc blockNum txNum keys ⟨false, false⟩
  let _ ← setting.checkCCEPIfCondition ccEP signatureSet checker checker.someEPChecked
  return ()

end KeyLevel

/-- The function `extractDependenciesForTx` skips a transaction that does not decode. It reads the first action and
the action inside its payload without a check. -/
def extractDependenciesForTx (envelopeBytes : Slice) : Except Stop Unit :=
  match setting.codec.envelope envelopeBytes.bytes with
  | none => .ok ()
  | some env =>
    match setting.codec.payload env.payload.bytes with
    | none => .ok ()
    | some payl =>
      match setting.codec.transaction payl.data.bytes with
      | none => .ok ()
      | some tx =>
        match tx.actions with
        | [] => .error .panic
        | act :: _ =>
          match setting.codec.chaincodeActionPayload act.payload with
          | none => .ok ()
          | some cap => if cap.action.isSome then .ok () else .error .panic

/-- The dependencies of the transactions up to a position are extracted once, from the last to the first. The list
of flags is replaced when the number of the block is a new one. -/
def preValidate (vsccName : String) (block : Block) (txNum : Nat) : Except Stop Unit :=
  let blockDep := setting.blockDep vsccName
  let txDepOnce := if blockDep.blockNum = block.number then blockDep.txDepOnce
    else List.replicate block.data.length false
  checkAll (fun position =>
    match txDepOnce[position]? with
    | none => .error .panic
    | some true => .ok ()
    | some false => setting.extractDependenciesForTx (block.data.getD position none))
    (List.range (txNum + 1)).reverse

structure ValidationArtifacts where
  chdr : ChannelHeader
  env : Envelope
  payl : Payload
  cap : ChaincodeActionPayload
  action : ChaincodeEndorsedAction
  deriving DecidableEq

/-- The first decoding steps, which the two versions have in common. The header, the first action and the action
inside its payload are read without a check. -/
def decodeArtifacts (block : Block) (txPosition : Nat) : Except Stop ValidationArtifacts := do
  let env ← fetch policyErr (setting.codec.envelope (Slice.bytes (block.data.getD txPosition none)))
  let payl ← fetch policyErr (setting.codec.payload env.payload.bytes)
  let header ← fetch .panic payl.header
  let chdr ← fetch policyErr (setting.codec.channelHeader header.channelHeader.bytes)
  require (chdr.type = .endorserTransaction) policyErr
  let tx ← fetch policyErr (setting.codec.transaction payl.data.bytes)
  let act ← fetch .panic tx.actions.head?
  let cap ← fetch policyErr (setting.codec.chaincodeActionPayload act.payload)
  let action ← fetch .panic cap.action
  return ⟨chdr, env, payl, cap, action⟩

/-- The last decoding steps of `extractValidationArtifacts`, which return the bytes of the read and write set. -/
def decodeResults (action : ChaincodeEndorsedAction) : Except Stop Bytes := do
  let pRespPayload ← fetch policyErr (setting.codec.proposalResponsePayload action.proposalResponsePayload.bytes)
  let extension ← fetch policyErr pRespPayload.extension
  let respPayload ← fetch policyErr (setting.codec.chaincodeAction extension)
  return respPayload.results

/-- The lifecycle chaincode has validation rules of its own. They panic on a collection without a signature policy. -/
def validateLSCC (namespaceName : String) (va : ValidationArtifacts) : Except Stop Unit :=
  if namespaceName = "lscc" then do
    let result ← fetch .panic (setting.validateLSCCInvocation va.chdr.channelId va.env va.cap va.payl)
    result.mapError fun err =>
      match err with
      | .endorsementPolicy => policyErr
      | .executionFailure err => .terminal err
  else .ok ()

def signatureSet (action : ChaincodeEndorsedAction) : List SignedData :=
  action.endorsements.map (endorsementData action.proposalResponsePayload)

def validateV13 (vsccName : String) (block : Block) (namespaceName : String) (txPosition : Nat)
    (policyBytes : Bytes) : Except Stop Unit := do
  setting.preValidate vsccName block txPosition
  let va ← setting.decodeArtifacts block txPosition
  let rwset ← setting.decodeResults va.action
  setting.validateKeyLevel vsccName policyBytes (signatureSet va.action) namespaceName block.number txPosition rwset
  setting.validateLSCC namespaceName va

/-- The function `deduplicateIdentity` of the version 1.2 keeps the first endorsement of each serialized identity. -/
def deduplicateIdentityFrom (prespBytes : Slice) (seen : List (List UInt8)) :
    List Endorsement → Option (List SignedData)
  | [] => some []
  | endorsement :: rest =>
    match setting.codec.serializedIdentity endorsement.endorser with
    | none => none
    | some serializedIdentity =>
      let identity := serializedIdentity.mspid.toUTF8.toList ++ serializedIdentity.idBytes
      if identity ∈ seen then deduplicateIdentityFrom prespBytes seen rest
      else
        match deduplicateIdentityFrom prespBytes (identity :: seen) rest with
        | none => none
        | some set => some (endorsementData prespBytes endorsement :: set)

def deduplicateIdentity (action : ChaincodeEndorsedAction) : Option (List SignedData) :=
  setting.deduplicateIdentityFrom action.proposalResponsePayload [] action.endorsements

def validateV12 (block : Block) (namespaceName : String) (txPosition : Nat) (policyBytes : Bytes) :
    Except Stop Unit := do
  let va ← setting.decodeArtifacts block txPosition
  let signatureSet ← fetch policyErr (setting.deduplicateIdentity va.action)
  (setting.evaluatePolicy policyBytes signatureSet).mapError fun _ => policyErr
  setting.validateLSCC namespaceName va

def validateWithPlugin (block : Block) (namespaceName : String) (seq : Nat) (vsccName : String) (policy : Bytes) :
    Except Stop Unit := do
  require (setting.hasPlugin vsccName = true)
    (.terminal ("plugin with name " ++ vsccName ++ " couldn't be used: plugin with name " ++ vsccName ++
      " wasn't found"))
  if setting.capabilities.v1_3Validation then setting.validateV13 vsccName block namespaceName seq policy
  else setting.validateV12 block namespaceName seq policy

def getCDataForCC (ccid : String) : Except Stop ChaincodeData := do
  let other := Stop.invalid .invalidOtherReason
  let getState ← fetch other setting.getState
  let state ← (getState ccid).mapError fun err =>
    .terminal ("Could not retrieve state for chaincode " ++ ccid ++ ", error " ++ err)
  let bytes ← fetch other state
  let cd ← fetch other (setting.codec.chaincodeData bytes)
  require (cd.vscc ≠ "") other
  require (cd.policy ≠ []) other
  return cd

structure ValidationInfo where
  version : String
  vscc : String
  policy : Bytes
  deriving DecidableEq

/-- A system chaincode has the default plugin, and a signature of any member of the channel is enough. -/
def getInfoForValidate (chdr : ChannelHeader) (ccID : String) : Except Stop ValidationInfo :=
  if setting.sccprovider.isSysCC ccID then do
    let policy ← fetch (.invalid .invalidOtherReason)
      (setting.codec.marshalPolicy (signedByAnyMember setting.memberRole (setting.getMSPIDs chdr.channelId)))
    return ⟨setting.sysCCVersion, "vscc", policy⟩
  else do
    let cd ← setting.getCDataForCC ccID
    return ⟨cd.version, cd.vscc, cd.policy⟩

def txWritesToNamespace (ns : NsRwSet) : Bool :=
  !ns.writes.isEmpty ||
    (setting.capabilities.privateChannelData && ns.collHashedRwSets.any fun coll =>
      !coll.hashedWrites.isEmpty || (setting.capabilities.keyLevelEndorsement && !coll.metadataWrites.isEmpty)) ||
    (setting.capabilities.keyLevelEndorsement && !ns.metadataWrites.isEmpty)

structure NamespaceScan where
  namespaces : List String
  wrNamespace : List String
  writesToLSCC : Bool
  writesToNonInvokableSCC : Bool
  deriving DecidableEq

/-- The loop over the namespaces of a transaction. A namespace that occurs twice is an error. -/
def scanNamespaces (ccID : String) : List NsRwSet → NamespaceScan → Except Stop NamespaceScan
  | [], scan => .ok scan
  | ns :: rest, scan =>
    if ns.nameSpace ∈ scan.namespaces then .error (.invalid .illegalWriteset)
    else
      let scan := { scan with namespaces := ns.nameSpace :: scan.namespaces }
      if setting.txWritesToNamespace ns then
        scanNamespaces ccID rest
          { scan with
            wrNamespace :=
              if ns.nameSpace ≠ ccID ∨ setting.capabilities.v1_2Validation = false then
                scan.wrNamespace ++ [ns.nameSpace]
              else scan.wrNamespace
            writesToLSCC := scan.writesToLSCC || decide (ns.nameSpace = "lscc")
            writesToNonInvokableSCC := scan.writesToNonInvokableSCC ||
              setting.sccprovider.isSysCCAndNotInvokableCC2CC ns.nameSpace ||
              setting.sccprovider.isSysCCAndNotInvokableExternal ns.nameSpace }
      else scanNamespaces ccID rest scan

/-- The function `GetActionFromEnvelope` decodes the action of the first transaction action. -/
def getActionFromEnvelope (envBytes : Bytes) : Option ChaincodeAction := do
  let env ← setting.codec.envelope envBytes
  let payl ← setting.codec.payload env.payload.bytes
  let tx ← setting.codec.transaction payl.data.bytes
  let act ← tx.actions.head?
  let ccPayload ← setting.codec.chaincodeActionPayload act.payload
  let action ← ccPayload.action
  let prpBytes ← action.proposalResponsePayload
  let pRespPayload ← setting.codec.proposalResponsePayload prpBytes
  let extension ← pRespPayload.extension
  setting.codec.chaincodeAction extension

/-- Where the original namespace is always enforced, an event of the transaction names the chaincode that is
invoked. -/
def checkEvent (ccID : String) (events : Slice) : Except Stop Unit :=
  if setting.capabilities.v1_2Validation then
    match events with
    | none => .ok ()
    | some events => do
      let ccEvent ← fetch (.invalid .invalidOtherReason) (setting.codec.chaincodeEvent events)
      require (ccEvent.chaincodeId = ccID) (.invalid .invalidOtherReason)
  else .ok ()

/-- The function `VSCCValidateTx` before the namespaces are validated. -/
def vsccPlan (hdr : Header) (envBytes : Bytes) : Except Stop VsccPlan := do
  let other := Stop.invalid .invalidOtherReason
  -- The channel header is decoded twice, and the first error has a code of its own.
  let chdr ← fetch (.invalid .badHeaderExtension) (setting.codec.channelHeader hdr.channelHeader.bytes)
  let hdrExt ← fetch (.invalid .badHeaderExtension) (setting.codec.chaincodeHeaderExtension chdr.extension)
  let respPayload ← fetch (.invalid .badResponsePayload) (setting.getActionFromEnvelope envBytes)
  let txRWSet ← fetch (.invalid .badRwset) (setting.codec.txRwSet respPayload.results)
  let invoked ← fetch other hdrExt.chaincodeId
  let executed ← fetch other respPayload.chaincodeId
  require (invoked.name ≠ "") other
  require (invoked.name = executed.name) other
  require (executed.version ≠ "") other
  setting.checkEvent invoked.name respPayload.events
  let scan ← setting.scanNamespaces invoked.name txRWSet
    ⟨[], if setting.capabilities.v1_2Validation then [invoked.name] else [], false, false⟩
  if setting.sccprovider.isSysCC invoked.name then
    require (setting.sccprovider.isSysCCAndNotInvokableExternal invoked.name = false) (.invalid .illegalWriteset)
    return ⟨chdr, invoked.name, executed.version, [invoked.name], false⟩
  else
    require (scan.writesToLSCC = false) (.invalid .illegalWriteset)
    require (scan.writesToNonInvokableSCC = false) (.invalid .illegalWriteset)
    return ⟨chdr, invoked.name, executed.version, scan.wrNamespace, true⟩

def namespaceInfo (plan : VsccPlan) (ns : String) : Except Stop ValidationInfo := do
  let info ← setting.getInfoForValidate plan.chdr ns
  require (¬(plan.application = true ∧ ns = plan.ccID ∧ info.version ≠ plan.ccVer)) (.invalid .expiredChaincode)
  return info

def validateNamespace (block : Block) (plan : VsccPlan) (seq : Nat) (ns : String) : Except Stop Unit := do
  let info ← setting.namespaceInfo plan ns
  setting.validateWithPlugin block ns seq info.vscc info.policy

def vsccValidateTx (block : Block) (seq : Nat) (hdr : Header) (envBytes : Bytes) : Except Stop Unit := do
  let plan ← setting.vsccPlan hdr envBytes
  checkAll (setting.validateNamespace block plan seq) plan.namespaces

end Setting

end Pobl.Peer
