/-
This file models the message processor of a standard channel: the filters and the functions that validate
normal messages and config messages.
-/

import Pobl.Construction.Chain

namespace Pobl.MsgProcessor

open Protos Etcdraft

/-- The states of the consensus type and the codes that the protocol does not define. -/
inductive ConsensusState where
  | normal
  | maintenance
  | undefinedCode (code : Int)
  deriving DecidableEq

abbrev ConfigEnvelope := List UInt8

inductive Error where
  | emptyMessage
  | tooLarge (size maxBytes : UInt32)
  | noSignedData (err : String)
  | identityExpired
  | policyNotFound (policyName : String)
  | permissionDenied (err : String)
  | maintenanceMode
  | withMessage (message : String) (err : Error)
  | other (err : String)
  deriving DecidableEq

namespace Error

def text : Error → String
  | emptyMessage => "Message was empty"
  | tooLarge size maxBytes =>
    "message payload is " ++ toString size ++ " bytes and exceeds maximum allowed " ++ toString maxBytes ++ " bytes"
  | noSignedData err => "could not convert message to signedData: " ++ err
  | identityExpired => "identity expired"
  | policyNotFound policyName => "could not find policy " ++ policyName
  | permissionDenied err => err ++ ": permission denied"
  | maintenanceMode => "maintenance mode"
  | withMessage message err => message ++ ": " ++ err.text
  | other err => err

/-- The function `errors.Cause` drops the messages around an error. -/
def cause : Error → Error
  | withMessage _ err => err.cause
  | err => err

end Error

/-- The channel configuration and the local configuration, as they are during one call, and the functions that
the filters call. The function `expiresAt` returns nothing for the zero time. -/
structure Resources where
  chainID : String
  sequence : Nat
  consensusTypeMigration : Bool
  consensusState : ConsensusState
  absoluteMaxBytes : UInt32
  expirationCheck : Bool
  noExpirationChecks : Bool
  now : Nat
  payloadIsNil : Envelope → Bool
  asSignedData : Envelope → Except String SignedData
  expiresAt : List UInt8 → Option Nat
  getPolicy : String → Option (SignedData → Except String Unit)
  proposeConfigUpdate : Envelope → Except Error ConfigEnvelope
  createSignedEnvelope : ConfigEnvelope → Except Error Envelope
  maintenanceFilter : Envelope → Except Error Unit
  lastUpdate : Envelope → Except Error Envelope
  checkConfigUpdateValidity : Envelope → Option String
  createsConfig : ∀ configEnvelope config, createSignedEnvelope configEnvelope = .ok config →
    isConfig config = some true

abbrev Rule := Envelope → Except Error Unit

/-- The rules are applied in order until one of them returns an error. -/
def applyRules : List Rule → Rule
  | [], _ => .ok ()
  | rule :: rest, message =>
    match rule message with
    | .error err => .error err
    | .ok () => applyRules rest message

def messageByteSize (message : Envelope) : UInt32 := UInt32.ofNat message.sizeBytes

def channelWriters : String := "/Channel/Writers"

def channelOrdererWriters : String := "/Channel/Orderer/Writers"

namespace Resources

variable (resources : Resources)

def emptyRejectRule : Rule := fun message =>
  if resources.payloadIsNil message then .error .emptyMessage else .ok ()

def sizeFilter : Rule := fun message =>
  if messageByteSize message > resources.absoluteMaxBytes then
    .error (.tooLarge (messageByteSize message) resources.absoluteMaxBytes)
  else .ok ()

def expirationRejectRule : Rule := fun message =>
  if resources.expirationCheck then
    match resources.asSignedData message with
    | .error err => .error (.noSignedData err)
    | .ok signedData =>
      match resources.expiresAt signedData.identity with
      | none => .ok ()
      | some expirationTime =>
        if resources.now < expirationTime then .ok () else .error .identityExpired
  else .ok ()

/-- In maintenance mode the policy of the orderer organizations applies. -/
def sigFilter (normalPolicyName maintenancePolicyName : String) : Rule := fun message =>
  match resources.asSignedData message with
  | .error err => .error (.noSignedData err)
  | .ok signedData =>
    let policyName :=
      if resources.consensusState = .maintenance then maintenancePolicyName else normalPolicyName
    match resources.getPolicy policyName with
    | none => .error (.policyNotFound policyName)
    | some policy =>
      match policy signedData with
      | .error err => .error (.permissionDenied err)
      | .ok () => .ok ()

def createStandardChannelFilters : List Rule :=
  let rules := [resources.emptyRejectRule, resources.sizeFilter,
    resources.sigFilter channelWriters channelOrdererWriters]
  if resources.noExpirationChecks then rules
  else rules.take 2 ++ (resources.expirationRejectRule :: rules.drop 2)

def applyFilters : Rule := applyRules resources.createStandardChannelFilters

/-- A normal message is accepted at the current config sequence number. -/
def processNormalMsg (env : Envelope) : Except Error Nat :=
  if resources.consensusTypeMigration ∧ resources.consensusState ≠ .normal then
    .error (.withMessage "normal transactions are rejected" .maintenanceMode)
  else
    match resources.applyFilters env with
    | .error err => .error err
    | .ok () => .ok resources.sequence

/-- The checks of a config message that was made from a config update. -/
def finalChecks (config : Envelope) : Except Error (Envelope × Nat) :=
  match resources.applyFilters config with
  | .error err => .error (.withMessage "config update for existing channel did not pass final checks" err)
  | .ok () =>
    match resources.maintenanceFilter config with
    | .error err => .error (.withMessage "config update for existing channel did not pass maintenance checks" err)
    | .ok () => .ok (config, resources.sequence)

/-- The config update becomes a config message, and the filters are applied to both of them. -/
def processConfigUpdateMsg (env : Envelope) : Except Error (Envelope × Nat) :=
  match resources.applyFilters env with
  | .error err => .error (.withMessage "config update for existing channel did not pass initial checks" err)
  | .ok () =>
    match resources.proposeConfigUpdate env with
    | .error err =>
      .error (.withMessage ("error applying config update to existing channel '" ++ resources.chainID ++ "'") err)
    | .ok configEnvelope =>
      match resources.createSignedEnvelope configEnvelope with
      | .error err => .error err
      | .ok config => resources.finalChecks config

/-- The update inside a config message is processed again. -/
def processConfigMsg (env : Envelope) : Except Error (Envelope × Nat) :=
  match resources.lastUpdate env with
  | .error err => .error err
  | .ok update => resources.processConfigUpdateMsg update

theorem processConfigUpdateMsg_config {env config : Envelope} {seq : Nat}
    (returned : resources.processConfigUpdateMsg env = .ok (config, seq)) : isConfig config = some true := by
  unfold processConfigUpdateMsg at returned
  split at returned
  · cases returned
  · split at returned
    · cases returned
    · split at returned
      · cases returned
      next created =>
        unfold finalChecks at returned
        split at returned
        · cases returned
        · split at returned
          · cases returned
          · cases returned
            exact resources.createsConfig _ _ created

def support : Support where
  processNormalMsg env := (resources.processNormalMsg env).mapError Error.text
  processConfigMsg env := (resources.processConfigMsg env).mapError Error.text
  checkConfigUpdateValidity := resources.checkConfigUpdateValidity
  returnsConfig env payload seq returned := by
    unfold processConfigMsg at returned
    split at returned
    · cases returned
    next update _ =>
      cases processed : resources.processConfigUpdateMsg update with
      | error err =>
        rw [processed] at returned
        cases returned
      | ok result =>
        rw [processed] at returned
        cases returned
        exact resources.processConfigUpdateMsg_config processed

end Resources

end Pobl.MsgProcessor
