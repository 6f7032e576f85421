/-
This file models the goroutines that validate the transactions of a block: `validator_keylevel.go`,
`vpmanagerimpl.go`, and the functions that call them. Each access to the shared validators is one call.
-/

import Pobl.Construction.TxValidator
import Pobl.Library.Threads

namespace Pobl.Peer

open Library Protos Cauthdsl

structure LedgerKeyID where
  cc : String
  coll : String
  key : Bytes
  deriving DecidableEq

/-- What one transaction introduces. A result says whether the transaction has passed for a namespace. -/
structure TxDependency where
  depInserted : Bool
  validationResultMap : GoMap Bool

def newTxDependency : TxDependency := ⟨false, ∅⟩

/-- An object of the type `sync.Once`. Others wait while one goroutine runs the function. -/
inductive Once where
  | fresh
  | running (goroutine : Nat)
  | done
  deriving DecidableEq

/-- The dependencies inside one block. The maps of a new context are nil. -/
structure ValidationContext where
  blockHeight : UInt64
  depsByTxnumMap : Option (AList fun _ : Nat => TxDependency)
  depsByLedgerKeyIDMap : List (LedgerKeyID × Nat)

/-- The key-level validator of a plugin, with its manager of validation parameters. -/
structure KeyLevelValidator where
  blockNum : UInt64
  txDepOnce : List Once
  validationCtx : ValidationContext

def newKeyLevelValidator : KeyLevelValidator := ⟨0, [], ⟨0, none, []⟩⟩

/-- The accesses to a validator that happen in one piece. -/
inductive Operation where
  | lockBlockDep
  | enterOnce (position : Nat)
  | leaveOnce (position : Nat)
  | forBlock
  | getOrCreateDependencyByTxnum (txnum : Nat)
  | addDependency (kid : LedgerKeyID) (txnum : Nat)
  | signalDepInserted (txnum : Nat)
  | waitForDepInserted (txnum : Nat)
  | dependenciesForTxnum (kid : LedgerKeyID) (txnum : Nat)
  | waitForAndRetrieveValidationResult (txnum : Nat) (ns : String)
  | signalValidationResult (txnum : Nat) (ns : String) (passed : Bool)

/-- The function of a `sync.Once` is run or not, and a context has a list of dependencies. -/
abbrev Operation.Reply : Operation → Type
  | .enterOnce _ => Bool
  | .dependenciesForTxnum .. => List Nat
  | .waitForAndRetrieveValidationResult .. => Bool
  | _ => Unit

/-- The dependency of a transaction. A goroutine has created the object before it uses it. -/
def ValidationContext.dependency (ctx : ValidationContext) (txnum : Nat) : TxDependency :=
  (ctx.depsByTxnumMap.bind fun deps => deps.lookup txnum).getD newTxDependency

def ValidationContext.setDependency (ctx : ValidationContext) (txnum : Nat) (dep : TxDependency) :
    ValidationContext :=
  { ctx with depsByTxnumMap := ctx.depsByTxnumMap.map fun deps => deps.insert txnum dep }

/-- The function `forBlock`. A higher block resets the context. -/
def ValidationContext.forBlock (newHeight : UInt64) (ctx : ValidationContext) : Option ValidationContext :=
  if newHeight < ctx.blockHeight then none
  else if ctx.blockHeight < newHeight then some ⟨newHeight, some ∅, []⟩
  else some ctx

/-- The transactions before a position that change the validation parameter of a key. -/
def ValidationContext.dependenciesForTxnum (ctx : ValidationContext) (kid : LedgerKeyID) (txnum : Nat) : List Nat :=
  (ctx.depsByLedgerKeyIDMap.filter fun entry => entry.1 = kid ∧ entry.2 < txnum).map (·.2)

/-- How a validator answers an operation of a goroutine. The order of a map is free. -/
def KeyLevelValidator.answer (block : Block) (goroutine : Nat) (order : List Nat) :
    (operation : Operation) → KeyLevelValidator → Answer operation.Reply KeyLevelValidator
  | .lockBlockDep, klv =>
    .reply () (if klv.blockNum = block.number then klv
      else { klv with blockNum := block.number, txDepOnce := List.replicate block.data.length .fresh })
  | .enterOnce position, klv =>
    match klv.txDepOnce[position]? with
    | none => .panic
    | some .fresh => .reply true { klv with txDepOnce := klv.txDepOnce.set position (.running goroutine) }
    | some (.running _) => .wait
    | some .done => .reply false klv
  | .leaveOnce position, klv => .reply () { klv with txDepOnce := klv.txDepOnce.set position .done }
  | .forBlock, klv =>
    match klv.validationCtx.forBlock block.number with
    | none => .panic
    | some ctx => .reply () { klv with validationCtx := ctx }
  | .getOrCreateDependencyByTxnum txnum, klv =>
    match klv.validationCtx.depsByTxnumMap with
    | none => .panic
    | some _ =>
      .reply () { klv with
        validationCtx := klv.validationCtx.setDependency txnum (klv.validationCtx.dependency txnum) }
  | .addDependency kid txnum, klv =>
    .reply () { klv with
      validationCtx := { klv.validationCtx with
        depsByLedgerKeyIDMap := klv.validationCtx.depsByLedgerKeyIDMap.insert (kid, txnum) } }
  | .signalDepInserted txnum, klv =>
    let dep := klv.validationCtx.dependency txnum
    if dep.depInserted then .panic
    else
      .reply () { klv with
        validationCtx := klv.validationCtx.setDependency txnum { dep with depInserted := true } }
  | .waitForDepInserted txnum, klv =>
    if (klv.validationCtx.dependency txnum).depInserted then .reply () klv else .wait
  | .dependenciesForTxnum kid txnum, klv =>
    let deps := klv.validationCtx.dependenciesForTxnum kid txnum
    .reply (if order.Perm deps then order else deps) klv
  | .waitForAndRetrieveValidationResult txnum ns, klv =>
    match (klv.validationCtx.dependency txnum).validationResultMap.lookup ns with
    | none => .wait
    | some passed => .reply passed klv
  | .signalValidationResult txnum ns passed, klv =>
    let dep := klv.validationCtx.dependency txnum
    .reply () { klv with
      validationCtx := klv.validationCtx.setDependency txnum
        { dep with validationResultMap := dep.validationResultMap.insert ns passed } }

/-- A plugin has an instance for each channel. The channel is the one that the transaction names. -/
structure Plugin where
  vsccName : String
  channel : String
  deriving DecidableEq

structure Request where
  plugin : Plugin
  operation : Operation

abbrev Request.Reply (request : Request) : Type := request.operation.Reply

abbrev Validators := Plugin → KeyLevelValidator

def answer (block : Block) (goroutine : Nat) (order : List Nat) (request : Request) (validators : Validators) :
    Answer request.Reply Validators :=
  match (validators request.plugin).answer block goroutine order request.operation with
  | .wait => .wait
  | .panic => .panic
  | .reply value klv => .reply value (Function.update validators request.plugin klv)

abbrev Goroutine := Program Request Request.Reply

abbrev Routine := ExceptT Stop Goroutine

def ask (plugin : Plugin) (operation : Operation) : Goroutine operation.Reply :=
  Program.ask (⟨plugin, operation⟩ : Request)

/-- A computation without access to the validators. A panic is not an error that is returned. -/
def compute {Value : Type} : Except Stop Value → Routine Value
  | .ok value => ExceptT.mk (.done (.ok value))
  | .error .panic => ExceptT.mk .panic
  | .error stop => ExceptT.mk (.done (.error stop))

def metadataKeys (rwset : List NsRwSet) : List LedgerKeyID :=
  rwset.flatMap fun rws =>
    rws.metadataWrites.map (fun key => ⟨rws.nameSpace, "", key⟩) ++
      rws.collHashedRwSets.flatMap fun cw => cw.metadataWrites.map fun key => ⟨rws.nameSpace, cw.collectionName, key⟩

/-- A transaction before its namespaces are validated. -/
inductive Prepared where
  | endorser (env : Envelope) (payload : Payload) (hdr : Header) (txid : TxId) (plan : VsccPlan)
  | other (env : Envelope) (invocation : Invocation)

namespace Setting

variable {Identity : Type} (setting : Setting Identity)

/-- The read and write set that `extractDependenciesForTx` finds. A transaction that does not decode is skipped, and
the first action and the action inside its payload are read without a check. -/
def extractedResults (envelopeBytes : Slice) : Except Stop (Option Bytes) :=
  match setting.codec.envelope envelopeBytes.bytes with
  | none => .ok none
  | some env =>
    match setting.codec.payload env.payload.bytes with
    | none => .ok none
    | some payl =>
      match setting.codec.transaction payl.data.bytes with
      | none => .ok none
      | some tx =>
        match tx.actions with
        | [] => .error .panic
        | act :: _ =>
          match setting.codec.chaincodeActionPayload act.payload with
          | none => .ok none
          | some cap =>
            match cap.action with
            | none => .error .panic
            | some action => .ok do
                let pRespPayload ←
                  setting.codec.proposalResponsePayload action.proposalResponsePayload.bytes
                let respPayload ← setting.codec.chaincodeAction pRespPayload.extension.bytes
                return respPayload.results

/-- The keys that are inserted for a transaction. A broken read and write set has none. -/
def insertedKeys (rwsetBytes : Bytes) : List LedgerKeyID := (setting.codec.txRwSet rwsetBytes).elim [] metadataKeys

/-- The function `validateTx` before the namespaces are validated. -/
def prepare (block : Block) (tIdx : Nat) (d : Bytes) : Except Stop Prepared := do
  let other := Stop.invalid .invalidOtherReason
  let env ← fetch other (setting.codec.envelope d)
  let (payload, hdr) ← validateTransaction setting.codec setting.crypto env
  let chdr ← fetch other (setting.codec.channelHeader hdr.channelHeader.bytes)
  if chdr.type = .endorserTransaction then
    setting.checkTxIdDupsLedger chdr.txId
    let plan ← setting.vsccPlan hdr d
    return .endorser env payload hdr chdr.txId plan
  else
    let invocation ← setting.validateType block tIdx d payload hdr chdr
    return .other env invocation

def complete : Prepared → Except Stop Invocation
  | .endorser env payload hdr txid _ => do
    let (invokeCC, upgradeCC) ← setting.getTxCCInstance payload hdr
    let _ ← fetch (.invalid .marshalTxError) (setting.codec.marshalEnvelope env)
    return ⟨some invokeCC, upgradeCC, txid⟩
  | .other env invocation => do
    let _ ← fetch (.invalid .marshalTxError) (setting.codec.marshalEnvelope env)
    return invocation

end Setting

namespace Goroutine

variable {Identity : Type} (setting : Setting Identity) (block : Block)

def extractValidationParameterDependency (plugin : Plugin) (txNum : Nat) (rwsetBytes : Bytes) : Goroutine Unit := do
  ask plugin .forBlock
  ask plugin (.getOrCreateDependencyByTxnum txNum)
  (setting.insertedKeys rwsetBytes).forM fun kid => ask plugin (.addDependency kid txNum)
  ask plugin (.signalDepInserted txNum)

def extractDependenciesForTx (plugin : Plugin) (txNum : Nat) (envelopeBytes : Slice) : Goroutine Unit :=
  match setting.extractedResults envelopeBytes with
  | .error _ => .panic
  | .ok none => pure ()
  | .ok (some rwsetBytes) => extractValidationParameterDependency setting plugin txNum rwsetBytes

/-- The dependencies of one transaction are extracted once. -/
def extractOnce (plugin : Plugin) (position : Nat) : Goroutine Unit := do
  if ← ask plugin (.enterOnce position) then
    extractDependenciesForTx setting plugin position (block.data.getD position none)
    ask plugin (.leaveOnce position)
  else pure ()

def preValidate (plugin : Plugin) (txNum : Nat) : Goroutine Unit := do
  ask plugin .lockBlockDep
  (List.range (txNum + 1)).reverse.forM fun position => extractOnce setting block plugin position

/-- The first dependency that is valid ends the loop. -/
def waitForValidationResults (plugin : Plugin) (cc : String) : List Nat → Goroutine Bool
  | [] => pure false
  | dep :: deps => do
    if ← ask plugin (.waitForAndRetrieveValidationResult dep cc) then pure true
    else waitForValidationResults plugin cc deps

def waitForDependencies (plugin : Plugin) (txNum : Nat) : Goroutine Unit :=
  (List.range txNum).reverse.forM fun position => do
    ask plugin (.getOrCreateDependencyByTxnum position)
    ask plugin (.waitForDepInserted position)

def getValidationParameterForKey (plugin : Plugin) (kid : LedgerKeyID) (txNum : Nat) :
    Goroutine (Except ParameterError Bytes) := do
  ask plugin .forBlock
  waitForDependencies plugin txNum
  let deps ← ask plugin (.dependenciesForTxnum kid txNum)
  let updated ← waitForValidationResults plugin kid.cc deps
  if updated then pure (.error .updated)
  else pure (setting.getValidationParameterForKey plugin.vsccName kid.cc kid.coll kid.key block.number txNum)

section KeyLevel

variable (plugin : Plugin) (ccEP : Bytes) (signatureSet : List SignedData) (cc : String) (txNum : Nat)

def checkSBAndCCEP (coll : String) (key : Bytes) (checker : Setting.PolicyChecker) :
    Routine Setting.PolicyChecker := ExceptT.mk do
  let vp ← getValidationParameterForKey setting block plugin ⟨cc, coll, key⟩ txNum
  (compute (setting.checkParameter ccEP signatureSet vp checker)).run

def checkKeys : List (String × Bytes) → Setting.PolicyChecker → Routine Setting.PolicyChecker
  | [], checker => pure checker
  | (coll, key) :: keys, checker => do
    let checker ← checkSBAndCCEP setting block plugin ccEP signatureSet cc txNum coll key checker
    checkKeys keys checker

def validateKeyLevel (rwsetBytes : Bytes) : Routine Unit := do
  let rwset ← compute (fetch policyErr (setting.codec.txRwSet rwsetBytes))
  let keys := (rwset.filter fun ns => ns.nameSpace = cc).flatMap Setting.writtenKeys
  let checker ← checkKeys setting block plugin ccEP signatureSet cc txNum keys ⟨false, false⟩
  let _ ← compute (setting.checkCCEPIfCondition ccEP signatureSet checker checker.someEPChecked)
  pure ()

end KeyLevel

/-- The version 1.3 of the validation logic, between `PreValidate` and `PostValidate`. -/
def validateArtifacts (plugin : Plugin) (namespaceName : String) (txPosition : Nat) (policyBytes : Bytes) :
    Routine Unit := do
  let va ← compute (setting.decodeArtifacts block txPosition)
  let rwset ← compute (setting.decodeResults va.action)
  validateKeyLevel setting block plugin policyBytes (Setting.signatureSet va.action) namespaceName txPosition rwset
  compute (setting.validateLSCC namespaceName va)

def postValidate (plugin : Plugin) (namespaceName : String) (txNum : Nat) (err : Except Stop Unit) :
    Goroutine Unit := do
  ask plugin .forBlock
  ask plugin (.getOrCreateDependencyByTxnum txNum)
  ask plugin (.signalValidationResult txNum namespaceName err.isOk)

/-- The version 1.3 of the validation logic. Each way out of it calls `PostValidate`. -/
def validateV13 (plugin : Plugin) (namespaceName : String) (txPosition : Nat) (policyBytes : Bytes) :
    Routine Unit := ExceptT.mk do
  preValidate setting block plugin txPosition
  let err ← (validateArtifacts setting block plugin namespaceName txPosition policyBytes).run
  postValidate plugin namespaceName txPosition err
  pure err

def validateWithPlugin (plugin : Plugin) (namespaceName : String) (seq : Nat) (policy : Bytes) : Routine Unit := do
  compute (require (setting.hasPlugin plugin.vsccName = true)
    (.terminal ("plugin with name " ++ plugin.vsccName ++ " couldn't be used: plugin with name " ++
      plugin.vsccName ++ " wasn't found")))
  if setting.capabilities.v1_3Validation then validateV13 setting block plugin namespaceName seq policy
  else compute (setting.validateV12 block namespaceName seq policy)

def validateNamespace (plan : VsccPlan) (seq : Nat) (ns : String) : Routine Unit := do
  let info ← compute (setting.namespaceInfo plan ns)
  validateWithPlugin setting block ⟨info.vscc, plan.chdr.channelId⟩ ns seq info.policy

/-- The namespaces are validated in order until one of them fails. -/
def validateNamespaces (plan : VsccPlan) (seq : Nat) : List String → Routine Unit
  | [] => pure ()
  | ns :: rest => do
    validateNamespace setting block plan seq ns
    validateNamespaces plan seq rest

def validatePrepared (seq : Nat) : Prepared → Routine Unit
  | .endorser _ _ _ _ plan => validateNamespaces setting block plan seq plan.namespaces
  | .other _ _ => pure ()

def validateEnvelope (tIdx : Nat) (d : Bytes) : Routine Invocation := do
  let prepared ← compute (setting.prepare block tIdx d)
  validatePrepared setting block tIdx prepared
  compute (setting.complete prepared)

def report (tIdx : Nat) : Except Stop Invocation → Goroutine BlockValidationResult
  | .ok invocation =>
    pure
      { tIdx := tIdx
        txsChaincodeName := invocation.invoked
        txsUpgradedChaincode := invocation.upgraded
        txid := invocation.txid }
  | .error (.invalid code _) => pure { tIdx := tIdx, validationCode := code }
  | .error (.terminal err) => pure { tIdx := tIdx, err := some err }
  | .error .panic => .panic

def validateTx (tIdx : Nat) : Slice → Goroutine BlockValidationResult
  | none => pure { tIdx := tIdx }
  | some d => do
    let outcome ← (validateEnvelope setting block tIdx d).run
    report tIdx outcome

end Goroutine

abbrev BlockPool := Pool Request Request.Reply BlockValidationResult Validators

/-- The validation of a block starts. The semaphore has a permit for each worker. -/
def startValidation {Identity : Type} (setting : Setting Identity) (workers : Nat) (validators : Validators)
    (block : Block) : BlockPool where
  workers := workers
  waiting := block.data.mapIdx (Goroutine.validateTx setting block)
  threads := []
  shared := validators

abbrev validationStep (block : Block) : BlockPool → PoolStep (List Nat) → Option BlockPool := Pool.step (answer block)

end Pobl.Peer
