/-
This file models how a peer answers a proposal after it has executed the chaincode:
`HandleCompleted` of the chaincode handler and `callChaincode`, `SimulateProposal`, `endorseProposal`
and `ProcessProposal` of the endorser, for proposals to chaincodes other than `lscc`.
-/

import Pobl.Construction.Shim

namespace Pobl.Endorser

open Protos Shim

structure Endorsement where
  endorser : Value
  signature : Value
  deriving DecidableEq, Inhabited

/-- A response without an endorsement cannot become a transaction. -/
structure ProposalResponse where
  version : Int
  response : Response
  payload : Value
  endorsement : Option Endorsement
  deriving DecidableEq, Inhabited

/-- The services of the peer for one proposal. Each of them can fail with an error text. -/
structure Support (ChaincodeEvent : Type) where
  getBytesChaincodeEvent : ChaincodeEvent → Except String Value
  getProposalHash1 : Except String Value
  getBytesProposalResponsePayload : Value → Response → Value → Value → Except String Value
  getOrCreatePlugin : Except String (Value → Except String (Endorsement × Value))

variable {ChaincodeEvent : Type}

/-- The peer takes the response from the message of the shim. -/
def handleCompleted (buildRwset : BuildRwset) : Response :=
  ⟨buildRwset.status, buildRwset.message, buildRwset.payload⟩

def callChaincode (execute : Except String (Response × Option ChaincodeEvent)) :
    Except String (Response × Option ChaincodeEvent) :=
  match execute with
  | .error err => .error err
  | .ok (res, ccevent) => if res.status ≥ errorThreshold then .ok (res, none) else .ok (res, ccevent)

structure Simulation (ChaincodeEvent : Type) where
  res : Response
  pubSimResBytes : Value
  ccevent : Option ChaincodeEvent

def simulateProposal (execute : Except String (Response × Option ChaincodeEvent))
    (getPubSimulationBytes : Except String Value) : Except String (Simulation ChaincodeEvent) :=
  match callChaincode execute with
  | .error err => .error err
  | .ok (res, ccevent) =>
    match getPubSimulationBytes with
    | .error err => .error err
    | .ok pubSimResBytes => .ok ⟨res, pubSimResBytes, ccevent⟩

def eventBytes (support : Support ChaincodeEvent) (event : Option ChaincodeEvent) : Except String Value :=
  match event with
  | none => .ok []
  | some event =>
    match support.getBytesChaincodeEvent event with
    | .error err => .error ("failed to marshal event bytes: " ++ err)
    | .ok bytes => .ok bytes

def createProposalResponseFailure (support : Support ChaincodeEvent) (response : Response)
    (results events : Value) : Except String ProposalResponse :=
  match support.getProposalHash1 with
  | .error err => .error ("error computing proposal hash: " ++ err)
  | .ok pHashBytes =>
    match support.getBytesProposalResponsePayload pHashBytes response results events with
    | .error err => .error err
    | .ok prpBytes => .ok ⟨0, response, prpBytes, none⟩

def proposalResponsePayloadFromContext (support : Support ChaincodeEvent) (response : Response)
    (simRes event : Value) : Except String Value :=
  match support.getProposalHash1 with
  | .error err => .error ("could not compute proposal hash: " ++ err)
  | .ok pHashBytes =>
    match support.getBytesProposalResponsePayload pHashBytes response simRes event with
    | .error _ => .error "failure while marshaling the ProposalResponsePayload"
    | .ok prpBytes => .ok prpBytes

def endorseWithPlugin (support : Support ChaincodeEvent) (response : Response) (simRes event : Value) :
    Except String ProposalResponse :=
  if response.status ≥ errorThreshold then .ok ⟨0, response, [], none⟩
  else
    match support.getOrCreatePlugin with
    | .error err => .error err
    | .ok plugin =>
      match proposalResponsePayloadFromContext support response simRes event with
      | .error err => .error ("failed assembling proposal response payload: " ++ err)
      | .ok prpBytes =>
        match plugin prpBytes with
        | .error err => .error err
        | .ok (endorsement, prpBytes) => .ok ⟨1, response, prpBytes, some endorsement⟩

def endorseProposal (support : Support ChaincodeEvent) (response : Response) (simRes : Value)
    (event : Option ChaincodeEvent) : Except String ProposalResponse :=
  match eventBytes support event with
  | .error err => .error err
  | .ok bytes => endorseWithPlugin support response simRes bytes

/-- An error text becomes a response with status 500. -/
def errorResponse (message : String) : ProposalResponse := ⟨0, ⟨500, message, []⟩, [], none⟩

/-- The answer to a proposal that passed its checks. Proposals without a channel are not endorsed. -/
def processProposal (support : Support ChaincodeEvent) (chainID : String)
    (simulated : Except String (Simulation ChaincodeEvent)) : Except String ProposalResponse :=
  match simulated with
  | .error err => .ok (errorResponse err)
  | .ok ⟨res, simulationResult, ccevent⟩ =>
    if res.status ≥ Shim.error then
      match eventBytes support ccevent with
      | .error err => .error err
      | .ok cceventBytes =>
        match createProposalResponseFailure support res simulationResult cceventBytes with
        | .error err => .ok (errorResponse err)
        | .ok pResp => .ok pResp
    else if chainID = "" then .ok ⟨0, res, [], none⟩
    else
      match endorseProposal support res simulationResult ccevent with
      | .error err => .ok (errorResponse err)
      | .ok pResp =>
        if pResp.response.status ≥ errorThreshold then .ok pResp
        else .ok { pResp with response := res }

end Pobl.Endorser
