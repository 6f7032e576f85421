/-
This file models the envelopes that the orderer receives.
An envelope is described by the results of decoding its bytes.
-/

import Mathlib.Data.List.AList

namespace Pobl.Protos

abbrev TxId := String
abbrev Key := String

/-- A value is the byte sequence of a Go string. -/
abbrev Value := List UInt8

structure SignedData where
  data : List UInt8
  identity : List UInt8
  signature : List UInt8
  deriving DecidableEq

structure KVRead where
  key : Key
  value : Value
  isRead : Bool
  txid : TxId
  deriving DecidableEq, Inhabited

structure KVWrite where
  key : Key
  isDelete : Bool
  value : Value
  isWrite : Bool
  txid : TxId
  deriving DecidableEq, Inhabited

structure NsRwSet where
  nameSpace : String
  reads : List KVRead
  writes : List KVWrite
  deriving DecidableEq, Inhabited

/-- The header types of the protocol and the codes that it does not define. -/
inductive HeaderType where
  | message
  | config
  | configUpdate
  | endorserTransaction
  | ordererTransaction
  | deliverSeekInfo
  | chaincodePackage
  | peerAdminOperation
  | tokenTransaction
  | undefinedCode (code : Int)
  deriving DecidableEq, Inhabited

structure ChannelHeader where
  type : HeaderType
  txId : TxId
  deriving DecidableEq, Inhabited

/-- The result field is absent when `TxRwSet.FromProtoBytes` fails on the action's results. -/
structure ChaincodeAction where
  results : Option (List NsRwSet)
  deriving DecidableEq, Inhabited

/-- An action is absent when `GetPayloads` fails on it. -/
structure Transaction where
  actions : List (Option ChaincodeAction)
  deriving DecidableEq, Inhabited

/-- An optional bytes field is not set, does not decode, or decodes to a value. -/
inductive Field (Message : Type) where
  | missing
  | malformed
  | decoded (message : Message)
  deriving DecidableEq, Inhabited

structure Header where
  channelHeader : Field ChannelHeader
  deriving DecidableEq, Inhabited

/-- The header may be nil. The data field is absent when `GetTransaction` fails on it. -/
structure Payload where
  header : Option Header
  data : Option Transaction
  deriving DecidableEq, Inhabited

/-- The payload is absent when `GetPayload` fails on the envelope.
The number `sizeBytes` is the length of the payload and the signature. -/
structure Envelope where
  payload : Option Payload
  sizeBytes : Nat
  deriving DecidableEq, Inhabited

/-- The function `utils.ChannelHeader` returns no header on a decoding error. -/
def channelHeader (env : Envelope) : Option ChannelHeader :=
  match env.payload with
  | none => none
  | some envPayload =>
    match envPayload.header with
    | none => none
    | some header =>
      match header.channelHeader with
      | .missing => none
      | .malformed => none
      | .decoded chdr => some chdr

/-- The function `utils.GetActionAndTxidFromEnvelopeMsg` decodes the first action
before it looks at the header. -/
def getActionAndTxidFromEnvelopeMsg (env : Envelope) : Except String (ChannelHeader × ChaincodeAction) :=
  match env.payload with
  | none => .error "zs: GetActionAndTxidFromEnvelopeMsg payl, err := GetPayload(env)"
  | some payl =>
    match payl.data with
    | none => .error "zs: GetActionAndTxidFromEnvelopeMsg tx, err := GetTransaction(payl.Data)"
    | some tx =>
      match tx.actions with
      | [] => .error "zs: GetActionAndTxidFromEnvelopeMsg len(tx.Actions) == 0"
      | none :: _ =>
        .error ("zs: GetActionAndTxidFromEnvelopeMsg " ++
          "_, respPayload, err := GetPayloads(tx.Actions[0])")
      | some respPayload :: _ =>
        match payl.header with
        | none => .error "zs: GetActionAndTxidFromEnvelopeMsg payl.Header == nil"
        | some header =>
          match header.channelHeader with
          | .missing =>
            .error "zs: GetActionAndTxidFromEnvelopeMsg payl.Header.ChannelHeader == nil"
          | .malformed =>
            .error ("zs: GetActionAndTxidFromEnvelopeMsg " ++
              "proto.Unmarshal(payl.Header.ChannelHeader, chdr)")
          | .decoded chdr => .ok (chdr, respPayload)

def endorserEnvelope (nameSpace : String) (txId : TxId) (reads : List KVRead) (writes : List KVWrite) : Envelope where
  payload := some
    { header := some ⟨.decoded ⟨.endorserTransaction, txId⟩⟩
      data := some ⟨[some ⟨some [⟨nameSpace, reads, writes⟩]⟩]⟩ }
  sizeBytes := 1

end Pobl.Protos
