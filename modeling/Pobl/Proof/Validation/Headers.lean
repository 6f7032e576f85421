import Pobl.Construction.Validation

namespace Pobl.Peer

open Library Protos Cauthdsl

/-- The messages inside an endorser transaction with one action. -/
structure Parts where
  env : Envelope
  payload : Payload
  header : Header
  chdr : ChannelHeader
  shdr : SignatureHeader
  data : Bytes
  act : TransactionAction
  actHdr : SignatureHeader
  cap : ChaincodeActionPayload
  action : ChaincodeEndorsedAction
  prp : ProposalResponsePayload

/-- The messages are decoded from the bytes of a transaction. -/
structure Parts.Of (codec : Codec) (d : Bytes) (parts : Parts) : Prop where
  env : codec.envelope d = some parts.env
  payload : codec.payload parts.env.payload.bytes = some parts.payload
  header : parts.payload.header = some parts.header
  chdr : codec.channelHeader parts.header.channelHeader.bytes = some parts.chdr
  shdr : codec.signatureHeader parts.header.signatureHeader.bytes = some parts.shdr
  data : parts.payload.data = some parts.data
  transaction : codec.transaction parts.data = some ⟨[parts.act]⟩
  actHdr : codec.signatureHeader parts.act.header.bytes = some parts.actHdr
  cap : codec.chaincodeActionPayload parts.act.payload = some parts.cap
  action : parts.cap.action = some parts.action
  prp : codec.proposalResponsePayload parts.action.proposalResponsePayload.bytes = some parts.prp

variable {Identity : Type} {codec : Codec} {crypto : Crypto Identity} {d : Bytes}

theorem Parts.Of.transaction_bytes {parts : Parts} (of : parts.Of codec d) :
    codec.transaction parts.payload.data.bytes = some ⟨[parts.act]⟩ := by
  rw [of.data]
  exact of.transaction

/-- The bytes of a transaction fix its messages. -/
theorem Parts.Of.unique {first second : Parts} (one : first.Of codec d) (two : second.Of codec d) :
    first = second := by
  obtain ⟨env, payload, header, chdr, shdr, data, transaction, actHdr, cap, action, prp⟩ := one
  obtain ⟨env', payload', header', chdr', shdr', data', transaction', actHdr', cap', action', prp'⟩ := two
  cases first
  cases second
  cases env.symm.trans env'
  cases payload.symm.trans payload'
  cases header.symm.trans header'
  cases chdr.symm.trans chdr'
  cases shdr.symm.trans shdr'
  cases data.symm.trans data'
  cases transaction.symm.trans transaction'
  cases actHdr.symm.trans actHdr'
  cases cap.symm.trans cap'
  cases action.symm.trans action'
  cases prp.symm.trans prp'
  rfl

/-- A transaction that decodes to a channel header of the endorser type. -/
def IsEndorserTransaction (codec : Codec) (d : Bytes) : Prop :=
  ∃ env payload header chdr, codec.envelope d = some env ∧ codec.payload env.payload.bytes = some payload ∧
    payload.header = some header ∧ codec.channelHeader header.channelHeader.bytes = some chdr ∧
    chdr.type = .endorserTransaction

/-- The hash of the proposal, which is computed from the headers and the payload of the proposal. -/
def Parts.proposalHash (crypto : Crypto Identity) (parts : Parts) : Option Bytes := do
  let channelHeader ← parts.header.channelHeader
  let signatureHeader ← parts.act.header
  let ccPropPayl ← parts.cap.chaincodeProposalPayload
  crypto.hash (channelHeader ++ signatureHeader ++ ccPropPayl)

/-- The checks of the headers that the code makes. The proposal hash is computed and not compared. -/
structure Parts.HeaderChecks (crypto : Crypto Identity) (parts : Parts) : Prop where
  endorser : parts.chdr.type = .endorserTransaction
  epoch : parts.chdr.epoch = 0
  nonce : parts.shdr.nonce ≠ []
  creator : parts.shdr.creator ≠ []
  txid : computeTxID crypto parts.shdr.nonce parts.shdr.creator = some parts.chdr.txId
  actionNonce : parts.actHdr.nonce ≠ []
  actionCreator : parts.actHdr.creator ≠ []
  hashed : (parts.proposalHash crypto).isSome

theorem validateSignatureHeader_eq_ok (sHdr : SignatureHeader) (result : Unit) :
    validateSignatureHeader sHdr = .ok result ↔ sHdr.nonce ≠ [] ∧ sHdr.creator ≠ [] := by
  simp [validateSignatureHeader]

theorem validateCommonHeader_eq_ok (hdr : Option Header) (header : Header) (chdr : ChannelHeader)
    (shdr : SignatureHeader) : validateCommonHeader codec hdr = .ok (header, chdr, shdr) ↔
      hdr = some header ∧ codec.channelHeader header.channelHeader.bytes = some chdr ∧
        codec.signatureHeader header.signatureHeader.bytes = some shdr ∧
        validateChannelHeader chdr = .ok () ∧ shdr.nonce ≠ [] ∧ shdr.creator ≠ [] := by
  simp only [validateCommonHeader, bind_eq_ok, fetch_eq_ok, pure_eq_ok, Prod.mk.injEq, validateSignatureHeader_eq_ok]
  grind

theorem checkTxID_eq_ok (txid : TxId) (nonce creator : Bytes) (result : Unit) :
    checkTxID crypto txid nonce creator = .ok result ↔ computeTxID crypto nonce creator = some txid := by
  simp [checkTxID]

theorem getProposalHash2_eq_ok {channelHeader signatureHeader ccPropPayl : Slice} {hash : Bytes} :
    getProposalHash2 crypto channelHeader signatureHeader ccPropPayl = .ok hash ↔
      (do let channelHeader ← channelHeader
          let signatureHeader ← signatureHeader
          let ccPropPayl ← ccPropPayl
          crypto.hash (channelHeader ++ signatureHeader ++ ccPropPayl)) = some hash := by
  simp [getProposalHash2, Option.bind_eq_some_iff]

theorem validateEndorserTransaction_eq_ok (data : Slice) (hdr : Header) (result : Unit) :
    validateEndorserTransaction codec crypto data hdr = .ok result ↔
      ∃ bytes act, data = some bytes ∧ codec.transaction bytes = some ⟨[act]⟩ ∧
        validateAction codec crypto hdr act = .ok () := by
  simp only [validateEndorserTransaction, bind_eq_ok, fetch_eq_ok, require_eq_ok, checkAll_eq_ok]
  constructor
  · rintro ⟨bytes, present, ⟨actions⟩, decoded, _, single, checked⟩
    obtain ⟨act, rfl⟩ := List.length_eq_one_iff.mp single
    exact ⟨bytes, act, present, decoded, checked act (List.mem_singleton_self act)⟩
  · rintro ⟨bytes, act, present, decoded, checked⟩
    exact ⟨bytes, present, _, decoded, (), rfl, by simpa using checked⟩

/-- The payload and the header that `ValidateTransaction` returns are those of the envelope. -/
theorem validateTransaction_found {env : Envelope} {payload : Payload} {header : Header}
    (checked : validateTransaction codec crypto env = .ok (payload, header)) :
    codec.payload env.payload.bytes = some payload ∧ payload.header = some header := by
  simp only [validateTransaction, bind_eq_ok, fetch_eq_ok, mapError_eq_ok] at checked
  obtain ⟨_, found, ⟨_, chdr, shdr⟩, common, checked⟩ := checked
  have present := ((validateCommonHeader_eq_ok _ _ _ _).mp common).1
  split at checked <;> simp only [bind_eq_ok, pure_eq_ok, Prod.mk.injEq, reduceCtorEq] at checked <;> grind

/-- An endorser transaction passes the checks of `ValidateTransaction` if and only if it decodes and passes the
checks of its headers. -/
theorem validateTransaction_endorser {env : Envelope} (decoded : codec.envelope d = some env) (payload : Payload)
    (header : Header) (chdr : ChannelHeader) (channel : codec.channelHeader header.channelHeader.bytes = some chdr)
    (endorser : chdr.type = .endorserTransaction) :
    validateTransaction codec crypto env = .ok (payload, header) ↔
      ∃ parts : Parts, parts.Of codec d ∧ parts.HeaderChecks crypto ∧ parts.payload = payload ∧
        parts.header = header ∧ parts.chdr = chdr := by
  have valid : validateChannelHeader chdr = .ok () ↔ chdr.epoch = 0 := by simp [validateChannelHeader, endorser]
  constructor
  · intro checked
    obtain ⟨found, present⟩ := validateTransaction_found checked
    simp only [validateTransaction, found, bind_eq_ok, fetch_eq_ok, mapError_eq_ok] at checked
    obtain ⟨_, ⟨⟩, ⟨_, _, shdr⟩, common, checked⟩ := checked
    obtain ⟨same, channel', signed, passes, nonce, creator⟩ := (validateCommonHeader_eq_ok _ _ _ _).mp common
    cases present.symm.trans same
    cases channel.symm.trans channel'
    simp only [endorser, bind_eq_ok, mapError_eq_ok, checkTxID_eq_ok, validateEndorserTransaction_eq_ok,
      validateAction, fetch_eq_ok, validateSignatureHeader_eq_ok] at checked
    obtain ⟨_, txid, _, ⟨data, act, dataPresent, transaction, actHdr, actSigned, _, actChecks, cap, capDecoded,
      action, actionPresent, prp, response, hash, hashed, _⟩, _⟩ := checked
    let parts : Parts := ⟨env, payload, header, chdr, shdr, data, act, actHdr, cap, action, prp⟩
    have proposal : parts.proposalHash crypto = some hash := getProposalHash2_eq_ok.mp hashed
    exact ⟨parts, ⟨decoded, found, present, channel, signed, dataPresent, transaction, actSigned, capDecoded,
      actionPresent, response⟩, ⟨endorser, valid.mp passes, nonce, creator, txid, actChecks.1, actChecks.2,
        by rw [proposal]; rfl⟩, rfl, rfl, rfl⟩
  · rintro ⟨parts, of, checks, rfl, rfl, rfl⟩
    cases decoded.symm.trans of.env
    obtain ⟨hash, hashed⟩ := Option.isSome_iff_exists.mp checks.hashed
    have common := (validateCommonHeader_eq_ok parts.payload.header _ _ _).mpr
      ⟨of.header, of.chdr, of.shdr, valid.mpr checks.epoch, checks.nonce, checks.creator⟩
    simp only [validateTransaction, bind_eq_ok, fetch_eq_ok, mapError_eq_ok]
    refine ⟨_, of.payload, _, common, ?_⟩
    simp only [endorser, bind_eq_ok, mapError_eq_ok, checkTxID_eq_ok, validateEndorserTransaction_eq_ok,
      validateAction, fetch_eq_ok, validateSignatureHeader_eq_ok, ite_self, pure_eq_ok]
    exact ⟨(), checks.txid, (), ⟨parts.data, parts.act, of.data, of.transaction, parts.actHdr, of.actHdr, (),
      ⟨checks.actionNonce, checks.actionCreator⟩, parts.cap, of.cap, parts.action, of.action, parts.prp, of.prp,
      hash, getProposalHash2_eq_ok.mpr hashed, trivial⟩, trivial⟩

end Pobl.Peer
