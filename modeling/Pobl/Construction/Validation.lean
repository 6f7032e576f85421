/-
This file models the checks of a transaction before its endorsements: `msgvalidation.go`.
The messages are decoded by functions that are parameters. A byte slice may be nil.
-/

import Pobl.Construction.SignaturePolicy
import Pobl.Library.Checks

namespace Pobl.Peer

open Library Protos Cauthdsl

/-- A byte slice of the Go language. The empty slice is not nil. -/
abbrev Slice := Option Bytes

def Slice.bytes (slice : Slice) : Bytes := slice.getD []

structure Envelope where
  payload : Slice
  signature : Slice
  deriving DecidableEq

structure Header where
  channelHeader : Slice
  signatureHeader : Slice
  deriving DecidableEq

structure Payload where
  header : Option Header
  data : Slice
  deriving DecidableEq

structure ChannelHeader where
  type : HeaderType
  channelId : String
  txId : TxId
  epoch : UInt64
  extension : Bytes
  deriving DecidableEq

structure SignatureHeader where
  creator : Bytes
  nonce : Bytes
  deriving DecidableEq

structure TransactionAction where
  header : Slice
  payload : Bytes
  deriving DecidableEq

/-- The actions of a transaction. A decoded list has no nil element. -/
structure Transaction where
  actions : List TransactionAction
  deriving DecidableEq

structure Endorsement where
  endorser : Bytes
  signature : Bytes
  deriving DecidableEq

structure ChaincodeEndorsedAction where
  proposalResponsePayload : Slice
  endorsements : List Endorsement
  deriving DecidableEq

structure ChaincodeActionPayload where
  chaincodeProposalPayload : Slice
  action : Option ChaincodeEndorsedAction
  deriving DecidableEq

structure ProposalResponsePayload where
  proposalHash : Bytes
  extension : Slice
  deriving DecidableEq

structure ChaincodeID where
  name : String
  version : String
  deriving DecidableEq

structure ChaincodeAction where
  results : Bytes
  events : Slice
  chaincodeId : Option ChaincodeID
  deriving DecidableEq

structure ChaincodeHeaderExtension where
  chaincodeId : Option ChaincodeID
  deriving DecidableEq

structure ChaincodeEvent where
  chaincodeId : String
  deriving DecidableEq

/-- The keys that a transaction writes in one collection. A key is the byte sequence of a Go string. -/
structure CollHashedRwSet where
  collectionName : String
  hashedWrites : List Bytes
  metadataWrites : List Bytes
  deriving DecidableEq

structure NsRwSet where
  nameSpace : String
  writes : List Bytes
  metadataWrites : List Bytes
  collHashedRwSets : List CollHashedRwSet
  deriving DecidableEq

/-- The arguments of the invoked function are absent when one of the messages around them is nil. -/
structure ChaincodeInvocationSpec where
  args : Option (List Bytes)
  deriving DecidableEq

/-- The chaincode is absent when one of the messages around it is nil. -/
structure ChaincodeDeploymentSpec where
  chaincodeId : Option ChaincodeID
  deriving DecidableEq

structure ChaincodeData where
  name : String
  version : String
  vscc : String
  policy : Bytes
  deriving DecidableEq

structure SerializedIdentity where
  mspid : String
  idBytes : Bytes
  deriving DecidableEq

/-- The functions that decode the messages. A decoding error has no value. -/
structure Codec where
  envelope : Bytes → Option Envelope
  marshalEnvelope : Envelope → Option Bytes
  payload : Bytes → Option Payload
  channelHeader : Bytes → Option ChannelHeader
  signatureHeader : Bytes → Option SignatureHeader
  transaction : Bytes → Option Transaction
  chaincodeActionPayload : Bytes → Option ChaincodeActionPayload
  proposalResponsePayload : Bytes → Option ProposalResponsePayload
  chaincodeAction : Bytes → Option ChaincodeAction
  chaincodeHeaderExtension : Bytes → Option ChaincodeHeaderExtension
  chaincodeEvent : Bytes → Option ChaincodeEvent
  txRwSet : Bytes → Option (List NsRwSet)
  chaincodeProposalPayloadInput : Bytes → Option Bytes
  chaincodeInvocationSpec : Bytes → Option ChaincodeInvocationSpec
  chaincodeDeploymentSpec : Bytes → Option ChaincodeDeploymentSpec
  chaincodeData : Bytes → Option ChaincodeData
  serializedIdentity : Bytes → Option SerializedIdentity
  signaturePolicyEnvelope : Bytes → Option SignaturePolicyEnvelope
  marshalPolicy : SignaturePolicyEnvelope → Option Bytes
  configEnvelope : Bytes → Option Bytes

/-- The validation codes that the functions of the committer assign. -/
inductive TxValidationCode where
  | valid
  | nilEnvelope
  | badPayload
  | badCommonHeader
  | invalidEndorserTransaction
  | invalidConfigTransaction
  | unsupportedTxPayload
  | badProposalTxid
  | duplicateTxid
  | endorsementPolicyFailure
  | mvccReadConflict
  | phantomReadConflict
  | unknownTxType
  | marshalTxError
  | expiredChaincode
  | chaincodeVersionConflict
  | badHeaderExtension
  | badChannelHeader
  | badResponsePayload
  | badRwset
  | illegalWriteset
  | notValidated
  | invalidOtherReason
  deriving DecidableEq, Inhabited

class TxValidationCode.Rejects (code : TxValidationCode) : Prop where
  rejected : code ≠ .valid

instance : TxValidationCode.badCommonHeader.Rejects := ⟨nofun⟩
instance : TxValidationCode.badHeaderExtension.Rejects := ⟨nofun⟩
instance : TxValidationCode.badPayload.Rejects := ⟨nofun⟩
instance : TxValidationCode.badProposalTxid.Rejects := ⟨nofun⟩
instance : TxValidationCode.badResponsePayload.Rejects := ⟨nofun⟩
instance : TxValidationCode.badRwset.Rejects := ⟨nofun⟩
instance : TxValidationCode.duplicateTxid.Rejects := ⟨nofun⟩
instance : TxValidationCode.endorsementPolicyFailure.Rejects := ⟨nofun⟩
instance : TxValidationCode.expiredChaincode.Rejects := ⟨nofun⟩
instance : TxValidationCode.illegalWriteset.Rejects := ⟨nofun⟩
instance : TxValidationCode.invalidConfigTransaction.Rejects := ⟨nofun⟩
instance : TxValidationCode.invalidEndorserTransaction.Rejects := ⟨nofun⟩
instance : TxValidationCode.invalidOtherReason.Rejects := ⟨nofun⟩
instance : TxValidationCode.marshalTxError.Rejects := ⟨nofun⟩
instance : TxValidationCode.unknownTxType.Rejects := ⟨nofun⟩
instance : TxValidationCode.unsupportedTxPayload.Rejects := ⟨nofun⟩

/-- A transaction is invalid, the validation of the block ends with an error, or the peer panics. -/
inductive Stop where
  | invalid (code : TxValidationCode) (rejected : code ≠ .valid := by exact TxValidationCode.Rejects.rejected)
  | terminal (err : String)
  | panic
  deriving DecidableEq

/-- The functions that the validation of a message calls. -/
structure Crypto (Identity : Type) where
  hash : Bytes → Option Bytes
  getIdentityDeserializer : String → Option (IdentityDeserializer Identity)

variable {Identity : Type} (codec : Codec) (crypto : Crypto Identity)

def validateSignatureHeader (sHdr : SignatureHeader) : Except String Unit := do
  require (sHdr.nonce ≠ []) "invalid nonce specified in the header"
  require (sHdr.creator ≠ []) "invalid creator specified in the header"

def validateChannelHeader (cHdr : ChannelHeader) : Except String Unit := do
  require (cHdr.type = .endorserTransaction ∨ cHdr.type = .configUpdate ∨ cHdr.type = .config ∨
    cHdr.type = .tokenTransaction) "invalid header type"
  require (cHdr.epoch = 0) ("invalid Epoch in ChannelHeader. Expected 0, got [" ++ toString cHdr.epoch ++ "]")

def validateCommonHeader (hdr : Option Header) : Except String (Header × ChannelHeader × SignatureHeader) := do
  let hdr ← fetch "nil header" hdr
  let chdr ← fetch "error unmarshaling ChannelHeader" (codec.channelHeader hdr.channelHeader.bytes)
  let shdr ← fetch "error unmarshaling SignatureHeader" (codec.signatureHeader hdr.signatureHeader.bytes)
  validateChannelHeader chdr
  validateSignatureHeader shdr
  return (hdr, chdr, shdr)

def hexDigit (digit : Nat) : Char :=
  if digit < 10 then Char.ofNat ('0'.toNat + digit) else Char.ofNat ('a'.toNat + (digit - 10))

def encodeToString (digest : Bytes) : String :=
  String.ofList (digest.flatMap fun byte => [hexDigit (byte.toNat / 16), hexDigit (byte.toNat % 16)])

def computeTxID (nonce creator : Bytes) : Option TxId := (crypto.hash (nonce ++ creator)).map encodeToString

def checkTxID (txid : TxId) (nonce creator : Bytes) : Except String Unit := do
  let computedTxID ← fetch "error computing target txid" (computeTxID crypto nonce creator)
  require (txid = computedTxID) ("invalid txid. got [" ++ txid ++ "], expected [" ++ computedTxID ++ "]")

/-- The function `GetProposalHash2` hashes the two headers and the payload of the proposal. -/
def getProposalHash2 (channelHeader signatureHeader ccPropPayl : Slice) : Except String Bytes := do
  let channelHeader ← fetch "nil arguments" channelHeader
  let signatureHeader ← fetch "nil arguments" signatureHeader
  let ccPropPayl ← fetch "nil arguments" ccPropPayl
  fetch "error instantiating hash function" (crypto.hash (channelHeader ++ signatureHeader ++ ccPropPayl))

/-- The checks of the only action of an endorser transaction. The action inside the payload is read without a
check. A proposal hash that does not match is logged: the statement that returned the error is commented out. -/
def validateAction (hdr : Header) (act : TransactionAction) : Except Stop Unit := do
  let invalid := Stop.invalid .invalidEndorserTransaction
  let sHdr ← fetch invalid (codec.signatureHeader act.header.bytes)
  (validateSignatureHeader sHdr).mapError fun _ => invalid
  let ccActionPayload ← fetch invalid (codec.chaincodeActionPayload act.payload)
  let action ← fetch .panic ccActionPayload.action
  let prp ← fetch invalid (codec.proposalResponsePayload action.proposalResponsePayload.bytes)
  let pHash ← (getProposalHash2 crypto hdr.channelHeader act.header
    ccActionPayload.chaincodeProposalPayload).mapError fun _ => invalid
  if pHash ≠ prp.proposalHash then pure () else pure ()

def validateEndorserTransaction (data : Slice) (hdr : Header) : Except Stop Unit := do
  let invalid := Stop.invalid .invalidEndorserTransaction
  let data ← fetch invalid data
  let tx ← fetch invalid (codec.transaction data)
  require (tx.actions.length = 1) invalid
  checkAll (validateAction codec crypto hdr) tx.actions

/-- The function `ValidateTransaction` returns the payload of a transaction that passes the checks. The call of
`checkSignatureFromCreator` is commented out. -/
def validateTransaction (e : Envelope) : Except Stop (Payload × Header) := do
  let payload ← fetch (.invalid .badPayload) (codec.payload e.payload.bytes)
  let (hdr, chdr, shdr) ← (validateCommonHeader codec payload.header).mapError fun _ => .invalid .badCommonHeader
  match chdr.type with
  | .endorserTransaction =>
    (checkTxID crypto chdr.txId shdr.nonce shdr.creator).mapError fun _ => .invalid .badProposalTxid
    validateEndorserTransaction codec crypto payload.data hdr
    return (payload, hdr)
  | .config =>
    require (payload.data.isSome = true) (.invalid .invalidConfigTransaction)
    return (payload, hdr)
  | .tokenTransaction =>
    (checkTxID crypto chdr.txId shdr.nonce shdr.creator).mapError fun _ => .invalid .badProposalTxid
    return (payload, hdr)
  | _ => .error (.invalid .unsupportedTxPayload)

end Pobl.Peer
