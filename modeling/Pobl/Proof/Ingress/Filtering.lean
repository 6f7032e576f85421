import Pobl.Construction.Ingress
import Pobl.Proof.Chain.Contents

namespace Pobl.MsgProcessor

open Protos Etcdraft

theorem applyRules_ok_iff (rules : List Rule) (message : Envelope) :
    applyRules rules message = .ok () ↔ ∀ rule ∈ rules, rule message = .ok () := by
  induction rules with
  | nil => simp [applyRules]
  | cons rule rest ih =>
    rw [applyRules, List.forall_mem_cons, ← ih]
    cases rule message <;> simp

namespace Resources

/-- The message has a payload of an allowed size, its creator has not expired, and its signature satisfies the
policy of the writers. -/
structure Passes (resources : Resources) (env : Envelope) : Prop where
  present : resources.payloadIsNil env = false
  size : messageByteSize env ≤ resources.absoluteMaxBytes
  unexpired : resources.noExpirationChecks = false → resources.expirationCheck = true →
    ∃ signedData, resources.asSignedData env = .ok signedData ∧
      ∀ time, resources.expiresAt signedData.identity = some time → resources.now < time
  signed : ∃ signedData policy, resources.asSignedData env = .ok signedData ∧
    resources.getPolicy (if resources.consensusState = .maintenance then channelOrdererWriters else channelWriters) =
      some policy ∧ policy signedData = .ok ()

variable {resources : Resources} {env : Envelope}

theorem expirationRejectRule_ok (accepted : resources.expirationRejectRule env = .ok ())
    (checked : resources.expirationCheck = true) :
    ∃ signedData, resources.asSignedData env = .ok signedData ∧
      ∀ time, resources.expiresAt signedData.identity = some time → resources.now < time := by
  rw [expirationRejectRule, if_pos checked] at accepted
  cases signed : resources.asSignedData env with
  | error err =>
    rw [signed] at accepted
    cases accepted
  | ok signedData =>
    refine ⟨signedData, rfl, fun time expires => ?_⟩
    rw [signed] at accepted
    dsimp only at accepted
    rw [expires] at accepted
    by_contra late
    simp [late] at accepted

theorem sigFilter_ok {normalPolicyName maintenancePolicyName : String}
    (accepted : resources.sigFilter normalPolicyName maintenancePolicyName env = .ok ()) :
    ∃ signedData policy, resources.asSignedData env = .ok signedData ∧
      resources.getPolicy (if resources.consensusState = .maintenance then maintenancePolicyName
        else normalPolicyName) = some policy ∧ policy signedData = .ok () := by
  unfold sigFilter at accepted
  split at accepted
  · cases accepted
  next signedData signed =>
    dsimp only at accepted
    split at accepted
    · cases accepted
    next policy found =>
      refine ⟨signedData, policy, signed, found, ?_⟩
      cases verdict : policy signedData with
      | error err =>
        rw [verdict] at accepted
        cases accepted
      | ok result => rfl

/-- An accepted normal message passes all filters. -/
theorem processNormalMsg_ok {seq : Nat} (accepted : resources.processNormalMsg env = .ok seq) :
    seq = resources.sequence ∧ resources.Passes env := by
  unfold processNormalMsg at accepted
  split at accepted
  · cases accepted
  · split at accepted
    · cases accepted
    next applied =>
      cases accepted
      refine ⟨rfl, ?_⟩
      have rules := (applyRules_ok_iff _ env).mp applied
      have basic : ∀ rule, rule = resources.emptyRejectRule ∨ rule = resources.sizeFilter ∨
          rule = resources.sigFilter channelWriters channelOrdererWriters → rule env = .ok () := by
        intro rule listed
        apply rules
        unfold createStandardChannelFilters
        split <;> simp <;> tauto
      refine ⟨?_, ?_, ?_, sigFilter_ok (basic _ (.inr (.inr rfl)))⟩
      · have nonempty := basic _ (.inl rfl)
        unfold emptyRejectRule at nonempty
        split at nonempty
        · cases nonempty
        next filled => exact Bool.not_eq_true _ ▸ filled
      · have small := basic _ (.inr (.inl rfl))
        unfold sizeFilter at small
        split at small
        · cases small
        next fits => exact UInt32.not_lt.mp fits
      · intro included checked
        refine expirationRejectRule_ok (rules _ ?_) checked
        simp [createStandardChannelFilters, included]

end Resources

end Pobl.MsgProcessor

namespace Pobl.Ingress

open Library Protos Etcdraft MsgProcessor

/-- The function `ProcessNormalMsg` has accepted the message under a configuration that is not older than the one
under which the message was ordered, and not older than those under which it was validated again. -/
def Ordering.Filtered (ordering : Ordering) : Prop :=
  ∃ acceptance ∈ ordering.acceptances, acceptance.resources.processNormalMsg ordering.env = .ok acceptance.sequence ∧
    acceptance.resources.Passes ordering.env ∧ ordering.sequence ≤ acceptance.sequence ∧
    ∀ again ∈ ordering.revalidations, again ≤ acceptance.sequence

/-- A normal message of `Broadcast` was accepted at the attached sequence number, and `LocalDeliver` attaches its
constant. -/
structure Submission.Attached (submission : Submission) : Prop where
  accepted : submission.origin = .broadcast → isConfig submission.request.payload = some false →
    ∃ acceptance ∈ submission.acceptances, acceptance.sequence = submission.request.lastValidationSeq ∧
      acceptance.resources.processNormalMsg submission.request.payload = .ok acceptance.sequence
  constant : submission.origin = .localDeliver → submission.request.lastValidationSeq = localDeliverSeq

variable {resources : Resources} {submission : Submission} {sequence : Nat} {env : Envelope}

theorem processMessage_attached {msg : Envelope}
    (passed : processMessage resources msg = .ok submission) : submission.Attached := by
  unfold processMessage at passed
  split at passed
  · cases passed
  · split at passed
    · cases passed
    · split at passed
      · cases passed
      next configSeq accepted =>
        cases passed
        exact ⟨fun _ _ => ⟨_, List.mem_singleton_self _, rfl, accepted⟩, nofun⟩
    · split at passed
      · cases passed
      next config configSeq processed =>
        split at passed
        · cases passed
        · cases passed
          refine ⟨fun _ normal => ?_, nofun⟩
          rw [resources.processConfigUpdateMsg_config processed] at normal
          cases normal

theorem deliverBlocks_attached {envelope : Envelope}
    (passed : deliverBlocks envelope = .ok submission) : submission.Attached := by
  unfold deliverBlocks at passed
  split at passed
  · cases passed
  · cases passed
    exact ⟨nofun, fun _ => rfl⟩

/-- A message that was validated before the current configuration is validated again. -/
theorem ordered_validates {msg : SubmitRequest} (normal : ordered resources.support sequence msg = .normal env)
    (older : msg.lastValidationSeq < sequence) : resources.processNormalMsg env = .ok resources.sequence := by
  obtain ⟨rfl, kind⟩ := ordered_normal normal
  unfold ordered at normal
  rw [kind] at normal
  dsimp only at normal
  rw [if_pos older] at normal
  cases verdict : resources.processNormalMsg msg.payload with
  | error err => simp [Resources.support, verdict, Except.mapError] at normal
  | ok seq => rw [(Resources.processNormalMsg_ok verdict).1]

theorem Submission.mem_ordering (normal : ordered resources.support sequence submission.request = .normal env) :
    ∃ ordering ∈ submission.ordering resources sequence, ordering.env = env := by
  unfold Submission.ordering
  rw [normal]
  dsimp only
  split
  · exact ⟨_, List.mem_singleton_self _, rfl⟩
  · exact ⟨_, List.mem_singleton_self _, rfl⟩

/-- A message is filtered when it is ordered, unless it comes from `LocalDeliver` and is not validated again. -/
theorem Submission.Attached.filtered (attached : submission.Attached) (current : resources.sequence = sequence)
    (covered : submission.origin = .localDeliver → isConfig submission.request.payload = some false →
      localDeliverSeq < sequence) :
    ∀ ordering ∈ submission.ordering resources sequence, ordering.Filtered := by
  intro ordering listed
  unfold Submission.ordering at listed
  split at listed
  next env normal =>
    obtain ⟨same, kind⟩ := ordered_normal normal
    split at listed
    next older =>
      have accepted := ordered_validates normal older
      rw [List.mem_singleton.mp listed]
      refine ⟨⟨resources, sequence⟩, List.mem_append_right _ (List.mem_singleton_self _), ?_,
        (Resources.processNormalMsg_ok accepted).2, Nat.le_refl _, ?_⟩
      · rw [← current]
        exact accepted
      · intro again repeated
        exact Nat.le_of_eq (List.mem_singleton.mp repeated)
    next recent =>
      rw [List.mem_singleton.mp listed]
      cases origin : submission.origin with
      | broadcast =>
        obtain ⟨acceptance, member, seq, accepted⟩ := attached.accepted origin kind
        rw [← same] at accepted
        exact ⟨acceptance, member, accepted, (Resources.processNormalMsg_ok accepted).2,
          seq ▸ Nat.not_lt.mp recent, nofun⟩
      | localDeliver =>
        have later := covered origin kind
        rw [attached.constant origin] at recent
        exact absurd later recent
  · cases listed

namespace Orderer

variable {opts : Options} {o next : Orderer} {action : Action}

/-- What the ways into the chain guarantee. -/
structure Filtering (o : Orderer) : Prop where
  attached : ∀ submission ∈ o.inTransit, submission.Attached
  filtered : ∀ ordering ∈ o.orderings, ordering.Filtered
  carries : o.chain.Carries fun env => ∃ ordering ∈ o.orderings, ordering.env = env

/-- A normal message of `LocalDeliver` is ordered only after more config changes than the number that
`LocalDeliver` attaches. -/
def Covers (opts : Options) (o : Orderer) : Action → Prop
  | .submit position _ => ∀ submission ∈ o.inTransit[position]?, o.Orders opts → submission.origin = .localDeliver →
      isConfig submission.request.payload = some false → localDeliverSeq < o.chain.sequence
  | _ => True

instance (opts : Options) (o : Orderer) (action : Action) : Decidable (o.Covers opts action) := by
  unfold Covers
  split <;> infer_instance

theorem Filtering.submit (filtering : o.Filtering) (attached : submission.Attached) :
    ({ o with inTransit := o.inTransit ++ [submission] } : Orderer).Filtering := by
  refine { filtering with attached := ?_ }
  exact List.forall_mem_append.mpr ⟨filtering.attached, List.forall_mem_singleton.mpr attached⟩

theorem Filtering.step (covers : o.Covers opts action) (filtering : o.Filtering)
    (stepped : o.step opts action = some next) : next.Filtering := by
  cases action with
  | broadcast resources msg =>
    unfold Orderer.step at stepped
    dsimp only at stepped
    split at stepped
    · cases stepped
      exact filtering
    next passed =>
      cases stepped
      exact filtering.submit (processMessage_attached passed)
  | localDeliver envelope =>
    unfold Orderer.step at stepped
    dsimp only at stepped
    split at stepped
    · cases stepped
      exact filtering
    next passed =>
      cases stepped
      exact filtering.submit (deliverBlocks_attached passed)
  | submit position resources =>
    unfold Orderer.step at stepped
    dsimp only at stepped
    split at stepped
    · cases stepped
    next submission found =>
      split at stepped
      next current =>
        obtain ⟨chain, chained, same⟩ := Option.map_eq_some_iff.mp stepped
        have attached := filtering.attached submission (List.mem_of_getElem? found)
        split at same
        next orders =>
          cases same
          refine ⟨fun other listed => filtering.attached other (List.mem_of_mem_eraseIdx listed), ?_, ?_⟩
          · exact List.forall_mem_append.mpr ⟨filtering.filtered,
              attached.filtered current (covers submission found orders)⟩
          · refine Chain.Carries.step (filtering.carries.mono ?_) ?_ chained
            · rintro env ⟨ordering, listed, same⟩
              exact ⟨ordering, List.mem_append_left _ listed, same⟩
            · intro msg support env event _ _ normal
              cases event
              obtain ⟨ordering, listed, same⟩ := Submission.mem_ordering normal
              exact ⟨ordering, List.mem_append_right _ listed, same⟩
        next forwards =>
          cases same
          refine { filtering with carries := filtering.carries.step ?_ chained }
          intro msg support env _ decided leads
          exact absurd ⟨decided, leads⟩ forwards
      · cases stepped
  | chain event =>
    unfold Orderer.step at stepped
    dsimp only at stepped
    split at stepped
    · cases stepped
    next internal =>
      obtain ⟨chain, chained, rfl⟩ := Option.map_eq_some_iff.mp stepped
      refine { filtering with carries := filtering.carries.step ?_ chained }
      rintro msg support env rfl
      exact absurd rfl internal

end Orderer

/-- In every run in which each message of `LocalDeliver` is validated again, the normal messages in the blocks of
the leader are filtered. -/
theorem proposed_messages_filtered (opts : Options) (ledger : Ledger) (appliedIndex sequence : Nat)
    (actions : List Action) (final : Orderer)
    (covers : Guarded (Orderer.step opts) (Orderer.Covers opts) (newOrderer ledger appliedIndex sequence) actions)
    (reached : run (Orderer.step opts) (newOrderer ledger appliedIndex sequence) actions = some final) :
    ∀ record ∈ final.chain.created, ∀ env ∈ record.block.data, isConfig env ≠ some true →
      ∃ ordering ∈ final.orderings, ordering.env = env ∧ ordering.Filtered := by
  have filtering := run_invariant (Orderer.step opts) (Orderer.Covers opts) Orderer.Filtering
    (fun _ _ _ => Orderer.Filtering.step) actions (newOrderer ledger appliedIndex sequence) final
    ⟨nofun, nofun, .initial _ ledger appliedIndex sequence, nofun⟩ covers reached
  intro record listed env member normal
  obtain ⟨ordering, found, same⟩ := filtering.carries.created record listed env member normal
  exact ⟨ordering, found, same, filtering.filtered ordering found⟩

/-- The examples use a channel that takes messages of at most 100 bytes. -/
def sampleResources (sequence : Nat) : Resources where
  chainID := "ch"
  sequence := sequence
  consensusTypeMigration := false
  consensusState := .normal
  absoluteMaxBytes := 100
  expirationCheck := true
  noExpirationChecks := false
  now := 1
  payloadIsNil env := env.payload.isNone
  asSignedData _ := .ok ⟨[], [], []⟩
  expiresAt _ := some 2
  getPolicy name := if name = channelWriters then some fun _ => .ok () else none
  proposeConfigUpdate _ := .error (.other "no config update")
  createSignedEnvelope _ := .error (.other "no config update")
  maintenanceFilter _ := .ok ()
  lastUpdate _ := .error (.other "no config update")
  checkConfigUpdateValidity _ := none
  createsConfig := nofun

/-- After 522 config changes a message of `LocalDeliver` is validated again. -/
def coveredActions : List Action :=
  [.chain elects, .broadcast (sampleResources 522) (BlockCutter.sampleTx "a" [] []),
    .localDeliver (BlockCutter.sampleTx "b" [] []), .submit 0 (sampleResources 522), .chain .sent,
    .submit 0 (sampleResources 522), .chain .sent, .chain .received, .chain (processes 2),
    .chain .received, .chain (processes 2), .chain .forwarded, .chain .commitC]

theorem proposed_messages_filtered_both : ∃ final,
    run (Orderer.step sampleOptions) (newOrderer (Ledger.genesis []) 0 522) coveredActions = some final ∧
    final.chain.created.map Created.block =
    [⟨1, [BlockCutter.sampleTx "a" [] [], BlockCutter.sampleTx "b" [] []]⟩] ∧
    ∀ record ∈ final.chain.created, ∀ env ∈ record.block.data, isConfig env ≠ some true →
      ∃ ordering ∈ final.orderings, ordering.env = env ∧ ordering.Filtered := by
  refine exists_evaluated (by decide +kernel) fun final reached _ => ?_
  exact proposed_messages_filtered sampleOptions (.genesis []) 0 522 coveredActions final (by decide +kernel)
    reached

/-- A message of more bytes than the channel allows. -/
def largeTx : Envelope := { BlockCutter.sampleTx "a" [] [] with sizeBytes := 1000 }

/-- The message is sent to `LocalDeliver` under the first configuration. -/
def bypassingActions : List Action :=
  [.chain elects, .localDeliver largeTx, .submit 0 (sampleResources 0), .chain .sent, .chain .received,
    .chain (processes 1), .chain .forwarded, .chain .commitC]

/-- The filters reject the message, but it is never validated, and the leader proposes it. -/
theorem local_message_bypasses_filters :
    (sampleResources 0).processNormalMsg largeTx = .error (.tooLarge 1000 100) ∧ ∃ final,
      run (Orderer.step sampleOptions) (newOrderer (Ledger.genesis []) 0 0) bypassingActions = some final ∧
      final.chain.created.map Created.block = [⟨1, [largeTx]⟩] ∧ isConfig largeTx = some false ∧
    (∀ ordering ∈ final.orderings, ordering.acceptances = []) ∧
      ¬ ∃ ordering ∈ final.orderings, ordering.env = largeTx ∧ ordering.Filtered := by
  refine ⟨by decide, exists_evaluated (by decide) fun final reached _ => ?_⟩
  have never : final.orderings.all fun ordering => ordering.acceptances.isEmpty := of_evaluated reached (by decide)
  have none : ∀ ordering ∈ final.orderings, ordering.acceptances = [] := by
    intro ordering listed
    exact List.isEmpty_iff.mp (List.all_eq_true.mp never ordering listed)
  refine ⟨by decide, none, ?_⟩
  rintro ⟨ordering, listed, _, acceptance, member, _⟩
  rw [none ordering listed] at member
  cases member

end Pobl.Ingress
