/-
This file models the validation of a block: `validator.go` of the package `txvalidator`.
The transactions are validated concurrently, so their results arrive in any order.
-/

import Pobl.Construction.EndorsementValidation
import Pobl.Library.GoMap

namespace Pobl.Peer

open Library Protos Cauthdsl

structure ChaincodeInstance where
  chainID : String
  chaincodeName : String
  chaincodeVersion : String
  deriving DecidableEq

/-- The result of the validation of one transaction. The fields are the zero values by default. -/
structure BlockValidationResult where
  tIdx : Nat
  validationCode : TxValidationCode := .valid
  txsChaincodeName : Option ChaincodeInstance := none
  txsUpgradedChaincode : Option ChaincodeInstance := none
  err : Option String := none
  txid : TxId := ""
  deriving DecidableEq

structure Invocation where
  invoked : Option ChaincodeInstance
  upgraded : Option ChaincodeInstance
  txid : TxId
  deriving DecidableEq

namespace Setting

variable {Identity : Type} (setting : Setting Identity)

/-- The chaincode that an upgrade deploys. The name is read without a check. -/
def getUpgradeTxInstance (chainID : String) (cdsBytes : Bytes) : Except Stop (Option ChaincodeInstance) :=
  match setting.codec.chaincodeDeploymentSpec cdsBytes with
  | none => .ok none
  | some cds => do
    let chaincodeId ← fetch .panic cds.chaincodeId
    return some ⟨chainID, chaincodeId.name, chaincodeId.version⟩

/-- The arguments of the function that a transaction invokes. They are absent on a decoding error. -/
def invocationSpec (payload : Payload) : Except Stop (Option ChaincodeInvocationSpec) :=
  match setting.codec.transaction payload.data.bytes with
  | none => .ok none
  | some tx => do
    let act ← fetch .panic tx.actions.head?
    return do
      let cap ← setting.codec.chaincodeActionPayload act.payload
      let input ← setting.codec.chaincodeProposalPayloadInput cap.chaincodeProposalPayload.bytes
      setting.codec.chaincodeInvocationSpec input

/-- The chaincode that a transaction invokes and the chaincode that it upgrades. The identifier of the invoked
chaincode and the arguments of the lifecycle chaincode are read without a check. -/
def getTxCCInstance (payload : Payload) (hdr : Header) :
    Except Stop (ChaincodeInstance × Option ChaincodeInstance) := do
  let other := Stop.invalid .invalidOtherReason
  let chdr ← fetch other (setting.codec.channelHeader hdr.channelHeader.bytes)
  let hdrExt ← fetch other (setting.codec.chaincodeHeaderExtension chdr.extension)
  let invokeCC ← fetch .panic hdrExt.chaincodeId
  let invokeIns : ChaincodeInstance := ⟨chdr.channelId, invokeCC.name, invokeCC.version⟩
  match ← setting.invocationSpec payload with
  | none => return (invokeIns, none)
  | some cis =>
    if invokeCC.name = "lscc" then
      let args ← fetch .panic cis.args
      let function ← fetch .panic args.head?
      if function = "upgrade".toUTF8.toList then
        let cdsBytes ← fetch .panic args[2]?
        let upgradeIns ← setting.getUpgradeTxInstance chdr.channelId cdsBytes
        return (invokeIns, upgradeIns)
      else return (invokeIns, none)
    else return (invokeIns, none)

/-- A transaction with the same identifier may be in the ledger. -/
def checkTxIdDupsLedger (txid : TxId) : Except Stop Unit :=
  match setting.getTransactionByID txid with
  | .found => .error (.invalid .duplicateTxid)
  | .failed err => .error (.terminal err)
  | .notFoundInIndex => .ok ()

/-- The checks that depend on the type of a transaction. A config transaction becomes the new configuration. -/
def validateType (block : Block) (tIdx : Nat) (d : Bytes) (payload : Payload) (hdr : Header) (chdr : ChannelHeader) :
    Except Stop Invocation :=
  match chdr.type with
  | .endorserTransaction => do
    setting.checkTxIdDupsLedger chdr.txId
    setting.vsccValidateTx block tIdx hdr d
    let (invokeCC, upgradeCC) ← setting.getTxCCInstance payload hdr
    return ⟨some invokeCC, upgradeCC, chdr.txId⟩
  | .config => do
    let configEnvelope ← fetch (.terminal "error unmarshalling config which passed initial validity checks")
      (setting.codec.configEnvelope payload.data.bytes)
    (setting.apply configEnvelope).mapError fun err =>
      .terminal ("error validating config which passed initial validity checks: " ++ err)
    return ⟨none, none, ""⟩
  | _ => .error (.invalid .unknownTxType)

def validateEnvelope (block : Block) (tIdx : Nat) (d : Bytes) : Except Stop Invocation := do
  let other := Stop.invalid .invalidOtherReason
  let env ← fetch other (setting.codec.envelope d)
  let (payload, hdr) ← validateTransaction setting.codec setting.crypto env
  let chdr ← fetch other (setting.codec.channelHeader hdr.channelHeader.bytes)
  let invocation ← setting.validateType block tIdx d payload hdr chdr
  let _ ← fetch (.invalid .marshalTxError) (setting.codec.marshalEnvelope env)
  return invocation

/-- The function `validateTx`. A panic ends the peer. -/
def validateTx (block : Block) (tIdx : Nat) (d : Slice) : Except Unit BlockValidationResult :=
  match d with
  | none => .ok { tIdx := tIdx }
  | some d =>
    match setting.validateEnvelope block tIdx d with
    | .ok invocation =>
      .ok
        { tIdx := tIdx
          txsChaincodeName := invocation.invoked
          txsUpgradedChaincode := invocation.upgraded
          txid := invocation.txid }
    | .error (.invalid code _) => .ok { tIdx := tIdx, validationCode := code }
    | .error (.terminal err) => .ok { tIdx := tIdx, err := some err }
    | .error .panic => .error ()

def validateTxs (block : Block) : Nat → List Slice → Except Unit (List BlockValidationResult)
  | _, [] => .ok []
  | tIdx, d :: rest => do
    let res ← setting.validateTx block tIdx d
    let results ← validateTxs block (tIdx + 1) rest
    return res :: results

end Setting

abbrev ChaincodeMap := AList (fun _ : Nat => ChaincodeInstance)

structure Gathered where
  err : Option (String × Nat)
  txsfltr : List TxValidationCode
  txsChaincodeNames : ChaincodeMap
  txsUpgradedChaincodes : ChaincodeMap
  txidArray : List TxId

def newGathered (size : Nat) : Gathered where
  err := none
  txsfltr := List.replicate size .notValidated
  txsChaincodeNames := ∅
  txsUpgradedChaincodes := ∅
  txidArray := List.replicate size ""

def record (map : ChaincodeMap) (tIdx : Nat) : Option ChaincodeInstance → ChaincodeMap
  | none => map
  | some cc => map.insert tIdx cc

/-- The committer reads one result. The error of the first transaction in the block is kept. -/
def gather (gathered : Gathered) (res : BlockValidationResult) : Gathered :=
  match res.err with
  | some err =>
    match gathered.err with
    | none => { gathered with err := some (err, res.tIdx) }
    | some (_, errPos) =>
      if res.tIdx < errPos then { gathered with err := some (err, res.tIdx) } else gathered
  | none =>
    let gathered := { gathered with txsfltr := gathered.txsfltr.set res.tIdx res.validationCode }
    if res.validationCode = .valid then
      { gathered with
        txsChaincodeNames := record gathered.txsChaincodeNames res.tIdx res.txsChaincodeName
        txsUpgradedChaincodes := record gathered.txsUpgradedChaincodes res.tIdx res.txsUpgradedChaincode
        txidArray := gathered.txidArray.set res.tIdx res.txid }
    else gathered

/-- A transaction whose identifier occurs earlier in the block is a duplicate. -/
def markTXIdDuplicatesFrom (txidMap : List TxId) (id : Nat) :
    List TxId → List TxValidationCode → List TxValidationCode
  | [], txsfltr => txsfltr
  | txid :: txids, txsfltr =>
    if txid = "" then markTXIdDuplicatesFrom txidMap (id + 1) txids txsfltr
    else if txid ∈ txidMap then markTXIdDuplicatesFrom txidMap (id + 1) txids (txsfltr.set id .duplicateTxid)
    else markTXIdDuplicatesFrom (txid :: txidMap) (id + 1) txids txsfltr

def markTXIdDuplicates (txids : List TxId) (txsfltr : List TxValidationCode) : List TxValidationCode :=
  markTXIdDuplicatesFrom [] 0 txids txsfltr

def generateCCKey (cc : ChaincodeInstance) : String := cc.chaincodeName ++ "/" ++ cc.chainID

structure UpgradeScan where
  finalValidUpgradeTXs : GoMap Nat
  upgradedChaincodes : GoMap ChaincodeInstance
  txsfltr : List TxValidationCode

/-- The latest upgrade of a chaincode stays valid. -/
def scanUpgrade (scan : UpgradeScan) (entry : Σ _ : Nat, ChaincodeInstance) : UpgradeScan :=
  let key := generateCCKey entry.2
  match scan.finalValidUpgradeTXs.lookup key with
  | none =>
    { scan with
      finalValidUpgradeTXs := scan.finalValidUpgradeTXs.insert key entry.1
      upgradedChaincodes := scan.upgradedChaincodes.insert key entry.2 }
  | some finalIdx =>
    if finalIdx < entry.1 then
      { finalValidUpgradeTXs := scan.finalValidUpgradeTXs.insert key entry.1
        upgradedChaincodes := scan.upgradedChaincodes.insert key entry.2
        txsfltr := scan.txsfltr.set finalIdx .chaincodeVersionConflict }
    else { scan with txsfltr := scan.txsfltr.set entry.1 .chaincodeVersionConflict }

/-- A transaction that invokes an upgraded chaincode is invalid. -/
def scanInvocation (upgradedChaincodes : GoMap ChaincodeInstance) (txsfltr : List TxValidationCode)
    (entry : Σ _ : Nat, ChaincodeInstance) : List TxValidationCode :=
  if (upgradedChaincodes.lookup (generateCCKey entry.2)).isSome ∧ txsfltr[entry.1]? = some .valid then
    txsfltr.set entry.1 .chaincodeVersionConflict
  else txsfltr

/-- The lists whose order the Go language does not fix: the results of the concurrent validations and the entries
of the two maps. -/
inductive Site where
  | results
  | upgradedChaincodes
  | chaincodeNames
  deriving DecidableEq

/-- A schedule fixes the order of each of these lists. -/
structure Schedule where
  arrange : Site → {Item : Type} → List Item → List Item
  perm : ∀ (site : Site) {Item : Type} (items : List Item), (arrange site items).Perm items

def Schedule.inOrder : Schedule where
  arrange := fun _ _ items => items
  perm := fun _ _ items => List.Perm.refl items

def invalidTXsForUpgradeCC (schedule : Schedule) (txsChaincodeNames txsUpgradedChaincodes : ChaincodeMap)
    (txsfltr : List TxValidationCode) : List TxValidationCode :=
  let scan := (schedule.arrange .upgradedChaincodes txsUpgradedChaincodes.entries).foldl scanUpgrade ⟨∅, ∅, txsfltr⟩
  (schedule.arrange .chaincodeNames txsChaincodeNames.entries).foldl (scanInvocation scan.upgradedChaincodes)
    scan.txsfltr

/-- The validation of a block ends with a panic, with the error of a transaction, or because a transaction has
skipped validation. -/
inductive Abort where
  | panic
  | terminal (err : String)
  | skipped (tIdx : Nat)
  deriving DecidableEq

def Setting.validate {Identity : Type} (setting : Setting Identity) (schedule : Schedule) (block : Block) :
    Except Abort (List TxValidationCode) :=
  match setting.validateTxs block 0 block.data with
  | .error () => .error .panic
  | .ok results =>
    let gathered := (schedule.arrange .results results).foldl gather (newGathered block.data.length)
    match gathered.err with
    | some (err, _) => .error (.terminal err)
    | none =>
      let marked := if setting.capabilities.forbidDuplicateTXIdInBlock then
        markTXIdDuplicates gathered.txidArray gathered.txsfltr else gathered.txsfltr
      let txsfltr := invalidTXsForUpgradeCC schedule gathered.txsChaincodeNames gathered.txsUpgradedChaincodes
        marked
      match txsfltr.findIdx? (· = .notValidated) with
      | some tIdx => .error (.skipped tIdx)
      | none => .ok txsfltr

end Pobl.Peer
