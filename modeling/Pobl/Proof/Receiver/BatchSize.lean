import Pobl.Proof.Receiver.AnyEnvelope
import Pobl.Proof.Safety.Dependents

namespace Pobl.BlockCutter

open Library Protos Partialorder TxConsensusGraph Session List

variable {m : UInt32} {session next : Session} {call : Call} {ready : List Envelope}

/-- The call passes an envelope to `OrderedRaftForBC` under the maximal message count, or it cuts. -/
def Call.Sized (m : UInt32) : Call → Prop
  | .orderedRaftForBC _ batchSize _ => batchSize.maxMessageCount = m
  | .orderedRaft _ _ _ => False
  | .cut => True

instance (m : UInt32) : (call : Call) → Decidable (call.Sized m)
  | .orderedRaftForBC _ batchSize _ => inferInstanceAs (Decidable (batchSize.maxMessageCount = m))
  | .orderedRaft _ _ _ => inferInstanceAs (Decidable False)
  | .cut => .isTrue trivial

/-- The decoded transaction has no consensus state and no parents that it has not read. -/
theorem Call.arrival_plain {order : RangeOrder RangeSite} {choosed : GVNode} (sized : call.Sized m)
    (created : call.arrival = some (order, choosed)) : choosed.consensusState = 0 ∧ choosed.unPTx = ∅ := by
  cases call with
  | orderedRaft => exact sized.elim
  | cut => cases created
  | orderedRaftForBC given batchSize msg =>
    obtain ⟨gnode, decoded, pair⟩ := Option.map_eq_some_iff.mp created
    cases pair
    exact (processEnvForBC_origin decoded).2

/-- No transaction waits for the arriving one, or all that depend on it fit into the ready batch together with it. -/
def Session.Fits (m : UInt32) (session : Session) (call : Call) : Prop :=
  ∀ order choosed, call.arrival = some (order, choosed) →
    ∃ family, session.graph.Dependents choosed.txId family ∧ ((session.graph.waiting family).card = 0 ∨
      session.graph.readyBatch.length + (session.graph.waiting family).card < m.toNat)

/-- The batches that the calls have returned, and the one that a `Cut` now returns, respect the bound. -/
def Session.Within (m : UInt32) (session : Session) : Prop :=
  (∀ batch ∈ session.batches, batch.length ≤ m.toNat) ∧ session.graph.readyBatch.length ≤ m.toNat

/-- The ready batch grows by the envelopes that the call commits. Then it is cut, or it is not full. -/
structure Collects (m : UInt32) (session next : Session) (ready : List Envelope) : Prop where
  committed : next.graph.numGCommittedNode + session.graph.readyBatch.length =
    session.graph.numGCommittedNode + ready.length
  grows : session.graph.readyBatch.length ≤ ready.length
  result : next.batches = session.batches ∧ next.graph.readyBatch = ready ∧ UInt32.ofNat ready.length < m ∨
    next.batches = session.batches ++ [ready] ∧ next.graph.readyBatch = []

theorem Session.step_collects (maintained : Maintained session.graph session.cutEnvelopes) (sized : call.Sized m)
    (stepped : session.step call = some next) : ∃ ready, Collects m session next ready := by
  cases call with
  | orderedRaft => exact sized.elim
  | cut =>
    cases stepped
    exact ⟨_, rfl, Nat.le_refl _, .inr ⟨rfl, rfl⟩⟩
  | orderedRaftForBC order batchSize msg =>
    obtain ⟨result, returned, rfl⟩ := Option.map_eq_some_iff.mp stepped
    obtain ⟨choosed, decoded, rest⟩ := Option.bind_eq_some_iff.mp returned
    obtain ⟨receiver, processed, rfl⟩ := Option.map_eq_some_iff.mp rest
    obtain ⟨final, done, rfl⟩ := Option.map_eq_some_iff.mp processed
    obtain ⟨_, recorded, _⟩ := processTX_recorded maintained.bounded done maintained.recorded
    obtain ⟨new, _, emitted⟩ := processTX_emits maintained.bounded done maintained.recorded
    have before := congrArg List.length maintained.recorded.batch
    have after := congrArg List.length recorded.batch
    simp only [length_append, length_map] at before after
    have committed : final.numGCommittedNode + session.graph.readyBatch.length =
        session.graph.numGCommittedNode + final.readyBatch.length := by
      rw [recorded.count, maintained.recorded.count]
      omega
    have grows : session.graph.readyBatch.length ≤ final.readyBatch.length := by
      rw [emitted, length_append]
      exact Nat.le_add_right _ _
    refine ⟨final.readyBatch, ?_⟩
    unfold cutFullBatch
    split
    · exact ⟨committed, grows, .inr ⟨rfl, rfl⟩⟩
    next room =>
      rw [ge_iff_le, UInt32.not_le, sized] at room
      exact ⟨committed, grows, .inl ⟨append_nil _, rfl, room⟩⟩

/-- A call that fits keeps the bound, and its test of the size leaves room for one more envelope. -/
theorem Collects.forward (collects : Collects m session next ready) (positive : 1 ≤ m.toNat)
    (within : session.Within m) (room : session.graph.readyBatch.length < m.toNat)
    (fits : next.graph.numGCommittedNode ≤
      session.graph.numGCommittedNode + max 1 (m.toNat - session.graph.readyBatch.length : Nat)) :
    next.Within m ∧ next.graph.readyBatch.length < m.toNat := by
  have length : ready.length ≤ m.toNat := by
    have committed := collects.committed
    omega
  unfold Session.Within at within ⊢
  rcases collects.result with ⟨batches, kept, below⟩ | ⟨batches, empty⟩
  · rw [batches, kept]
    -- The length is at most the bound, so the conversion to 32 bits loses nothing.
    have same : (UInt32.ofNat ready.length).toNat = ready.length :=
      UInt32.toNat_ofNat_of_lt (Nat.lt_of_le_of_lt length m.toNat_lt)
    rw [UInt32.lt_iff_toNat_lt, same] at below
    exact ⟨⟨within.1, length⟩, below⟩
  · rw [batches, empty, forall_mem_append, forall_mem_singleton]
    exact ⟨⟨⟨within.1, length⟩, Nat.zero_le _⟩, positive⟩

/-- A call that fits commits one transaction, or as many as the ready batch has room for. -/
theorem Session.Fits.committed (fits : session.Fits m call) (sized : call.Sized m)
    (maintained : Maintained session.graph session.cutEnvelopes) (stepped : session.step call = some next) :
    next.graph.numGCommittedNode ≤
      session.graph.numGCommittedNode + max 1 (m.toNat - session.graph.readyBatch.length : Nat) := by
  have kept := step_maintained maintained stepped
  cases step_cases stepped with
  | cuts none graph batch =>
    rw [graph]
    exact Int.le_add_of_nonneg_right (Int.natCast_nonneg _)
  | arrives order choosed final created processed result =>
    obtain ⟨family, dependents, room⟩ := fits order choosed created
    have plain : choosed.consensusState = 0 ∧ choosed.unPTx = ∅ := call.arrival_plain sized created
    have commits := processTX_commits_le maintained.bounded dependents plain.1 plain.2 processed
    have log : next.graph.commits = final.commits := by
      rcases result with ⟨graph, _⟩ | ⟨graph, _⟩
      · rw [graph]
      · rw [graph]
        rfl
    rw [kept.recorded.count, maintained.recorded.count, log]
    omega

/-- The batches respect the bound when at each call what depends on the arriving transaction fits. -/
theorem batches_within (m : UInt32) (positive : 1 ≤ m) (calls : List Call) (sized : ∀ call ∈ calls, call.Sized m)
    (fits : Guarded step (Session.Fits m) initial calls) (final : Session)
    (reached : run step initial calls = some final) : final.Within m := by
  have labels : Guarded step (fun _ call => call.Sized m) initial calls :=
    guarded_of_forall step calls (fun call member _ => sized call member) _
  have one : 1 ≤ m.toNat := UInt32.le_iff_toNat_le.mp positive
  have kept := run_invariant step (fun session call => session.Fits m call ∧ call.Sized m)
    (fun session => Maintained session.graph session.cutEnvelopes ∧ session.Within m ∧
      session.graph.readyBatch.length < m.toNat) ?_ calls initial final ?_
    (guarded_combine (fun _ _ fits sized => And.intro fits sized) fits labels) reached
  · exact kept.2.1
  · rintro session call next ⟨fits, sized⟩ ⟨maintained, within, room⟩ stepped
    obtain ⟨ready, collects⟩ := step_collects maintained sized stepped
    exact ⟨step_maintained maintained stepped,
      collects.forward one within room (fits.committed sized maintained stepped)⟩
  · exact ⟨maintained_initial, ⟨nofun, Nat.zero_le _⟩, one⟩

/-- The child waits for its parent, and both are emitted when the parent arrives. -/
def overfullCalls (m : UInt32) : List Call :=
  [.orderedRaftForBC (RangeOrder.stored RangeSite) ⟨m, 100⟩ (sampleTx "c" [("k", [1], "p")] []),
    .orderedRaftForBC (RangeOrder.stored RangeSite) ⟨m, 100⟩ (sampleTx "p" [] [("k", [1])])]

/-- Batches of two leave room for the parent and the child. -/
theorem batches_within_two : ∃ final, run step initial (overfullCalls 2) = some final ∧
    final.batches.map List.length = [2] ∧ final.Within 2 := by
  refine exists_evaluated (by decide) fun final reached _ =>
    batches_within 2 (by decide) (overfullCalls 2) (by decide) ⟨?_, fun middle stepped => ⟨?_, fun _ _ => trivial⟩⟩
      final reached
  · rintro order choosed ⟨⟩
    exact ⟨[], by decide, .inl rfl⟩
  · rintro order choosed ⟨⟩
    exact ⟨[0], of_evaluated stepped (by decide), .inr (of_evaluated stepped (by decide))⟩

/-- With batches of one envelope the arrival of the parent returns a batch of two. -/
theorem batch_exceeds_one : (run step initial (overfullCalls 1)).map (fun final =>
    final.batches.map List.length) = some [2] := by decide

end Pobl.BlockCutter
