/-
This file models the two ways in which a message reaches the chain: the handler of `Broadcast`, which validates
the message, and the handler of `LocalDeliver`, which passes it on.
-/

import Pobl.Construction.MsgProcessor

namespace Pobl.Ingress

open Protos Etcdraft MsgProcessor

inductive Status where
  | badRequest
  | forbidden
  | serviceUnavailable
  deriving DecidableEq

/-- The errors of a standard channel as status codes. -/
def classifyError (err : Error) : Status :=
  match err.cause with
  | .permissionDenied _ => .forbidden
  | .maintenanceMode => .serviceUnavailable
  | _ => .badRequest

inductive Classification where
  | normalMsg
  | configUpdateMsg
  | configMsg
  deriving DecidableEq

def classifyMsg (chdr : ChannelHeader) : Classification :=
  match chdr.type with
  | .configUpdate => .configUpdateMsg
  | .ordererTransaction => .configMsg
  | .config => .configMsg
  | _ => .normalMsg

structure BroadcastResponse where
  status : Status
  info : String
  deriving DecidableEq

/-- The function `ProcessNormalMsg` has accepted a message under the resources and returned the sequence number. -/
structure Acceptance where
  resources : Resources
  sequence : Nat

inductive Origin where
  | broadcast
  | localDeliver
  deriving DecidableEq

/-- A request on its way to the leader, with the acceptances that are recorded for it. -/
structure Submission where
  request : SubmitRequest
  origin : Origin
  acceptances : List Acceptance

/-- The function `ProcessMessage` validates a message and passes it to `Order` or `Configure`. A message that
waits in `WaitReady` is on its way to the leader, too. -/
def processMessage (resources : Resources) (msg : Envelope) : Except BroadcastResponse Submission :=
  match channelHeader msg with
  | none => .error ⟨.badRequest, "could not determine channel ID"⟩
  | some chdr =>
    match classifyMsg chdr with
    | .configMsg => .error ⟨.badRequest, "message is of type that cannot be processed directly"⟩
    | .normalMsg =>
      match resources.processNormalMsg msg with
      | .error err => .error ⟨classifyError err, err.text⟩
      | .ok configSeq => .ok ⟨⟨msg, configSeq⟩, .broadcast, [⟨resources, configSeq⟩]⟩
    | .configUpdateMsg =>
      match resources.processConfigUpdateMsg msg with
      | .error err => .error ⟨classifyError err, err.text⟩
      | .ok (config, configSeq) =>
        match resources.checkConfigUpdateValidity config with
        | some err => .error ⟨.serviceUnavailable, err⟩
        | none => .ok ⟨⟨config, configSeq⟩, .broadcast, []⟩

/-- The sequence number that `LocalDeliver` attaches to every message. -/
def localDeliverSeq : Nat := 521

/-- The function `deliverBlocks` of `LocalDeliver` calls `Order` with a constant sequence number. -/
def deliverBlocks (envelope : Envelope) : Except Status Submission :=
  match channelHeader envelope with
  | none => .error .badRequest
  | some _ => .ok ⟨⟨envelope, localDeliverSeq⟩, .localDeliver, []⟩

/-- What is recorded when the leader accepts a normal message: the config sequence number at this moment, the
acceptances of the message, and the sequence numbers at which `ordered` has validated it again. -/
structure Ordering where
  env : Envelope
  sequence : Nat
  acceptances : List Acceptance
  revalidations : List Nat

/-- One orderer with the requests that this orderer or another one of the channel has passed on. -/
structure Orderer where
  chain : Chain
  inTransit : List Submission
  orderings : List Ordering

/-- The chain hands the message to `ordered`. Otherwise `Submit` forwards it to the leader that it knows. -/
def Orderer.Orders (opts : Options) (o : Orderer) : Prop :=
  isCandidate o.chain.soft.raftState = false ∧ o.chain.soft.lead = opts.raftID

instance (opts : Options) (o : Orderer) : Decidable (o.Orders opts) := inferInstanceAs (Decidable (_ ∧ _))

def Submission.ordering (submission : Submission) (resources : Resources) (sequence : Nat) : List Ordering :=
  match ordered resources.support sequence submission.request with
  | .normal env =>
    if submission.request.lastValidationSeq < sequence then
      [⟨env, sequence, submission.acceptances ++ [⟨resources, sequence⟩], [sequence]⟩]
    else [⟨env, sequence, submission.acceptances, []⟩]
  | _ => []

/-- The steps of the handlers and of the chain. A message is validated by any orderer of the channel, whose
configuration may be older or newer than that of this one. -/
inductive Action where
  | broadcast (resources : Resources) (msg : Envelope)
  | localDeliver (envelope : Envelope)
  | submit (position : Nat) (resources : Resources)
  | chain (event : Event)

def submits : Event → Bool
  | .submitC (some _) _ => true
  | _ => false

/-- One step. The chain receives a request only from the handlers. -/
def Orderer.step (opts : Options) (o : Orderer) (action : Action) : Option Orderer :=
  match action with
  | .broadcast resources msg =>
    match processMessage resources msg with
    | .error _ => some o
    | .ok submission => some { o with inTransit := o.inTransit ++ [submission] }
  | .localDeliver envelope =>
    match deliverBlocks envelope with
    | .error _ => some o
    | .ok submission => some { o with inTransit := o.inTransit ++ [submission] }
  | .submit position resources =>
    match o.inTransit[position]? with
    | none => none
    | some submission =>
      if resources.sequence = o.chain.sequence then
        (o.chain.step opts (.submitC (some submission.request) resources.support)).map fun chain =>
          if o.Orders opts then
            { chain := chain
              inTransit := o.inTransit.eraseIdx position
              orderings := o.orderings ++ submission.ordering resources o.chain.sequence }
          else { o with chain := chain }
      else none
  | .chain event =>
    if submits event then none else (o.chain.step opts event).map fun chain => { o with chain := chain }

def newOrderer (ledger : Ledger) (appliedIndex sequence : Nat) : Orderer :=
  ⟨newChain ledger appliedIndex sequence, [], []⟩

end Pobl.Ingress
