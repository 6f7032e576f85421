/-
This file treats sessions without a condition on their envelopes.
The identifiers may repeat, and the envelopes need not decode.
-/

import Pobl.Proof.Graph.Unawaited
import Pobl.Proof.Receiver.Feed

namespace Pobl.BlockCutter

open Library Protos Partialorder TxConsensusGraph Session

/-- What every session keeps. -/
structure Maintained (graph : TxConsensusGraph) (cut : List Envelope) : Prop where
  bounded : Bounded graph []
  recorded : Recorded cut graph
  waitSets : WaitSets graph

theorem maintained_initial : Maintained initial.graph initial.cutEnvelopes :=
  ⟨bounded_initial, recorded_initial, nofun, nofun⟩

theorem Maintained.flush {graph : TxConsensusGraph} {cut : List Envelope} (maintained : Maintained graph cut) :
    Maintained (flush graph) (cut ++ graph.readyBatch) :=
  ⟨bounded_flush maintained.bounded, recorded_flush maintained.recorded,
    maintained.waitSets.nodup, maintained.waitSets.known⟩

theorem Maintained.processTX {before final : TxConsensusGraph} {cut : List Envelope}
    (maintained : Maintained before cut) {order : RangeOrder RangeSite} {choosed : GVNode}
    (done : processTX order before.nodes.size (before.newNode choosed) = some final) : Maintained final cut := by
  obtain ⟨bounded, recorded, _⟩ := processTX_recorded maintained.bounded done maintained.recorded
  rcases maintained.waitSets.arrives maintained.bounded order choosed with ⟨other, same, waitSets⟩ | ⟨stops, _⟩
  · rw [done, Option.some.injEq] at same
    exact ⟨bounded, recorded, same ▸ waitSets⟩
  · rw [done] at stops
    cases stops

theorem Maintained.arrives {before : TxConsensusGraph} {cut : List Envelope} (maintained : Maintained before cut)
    (order : RangeOrder RangeSite) {choosed : GVNode} (decided : choosed.consensusState ≠ 2) :
    ∃ final, Partialorder.processTX order before.nodes.size (before.newNode choosed) = some final ∧
      Maintained final cut := by
  obtain ⟨final, done, _⟩ := maintained.waitSets.arrives_decided maintained.bounded order decided
  exact ⟨final, done, maintained.processTX done⟩

theorem Session.step_maintained {session next : Session} {call : Call}
    (maintained : Maintained session.graph session.cutEnvelopes) (stepped : session.step call = some next) :
    Maintained next.graph next.cutEnvelopes := by
  cases step_cases stepped with
  | arrives order choosed final created processed result =>
    have kept := maintained.processTX processed
    rcases result with ⟨graph, cut⟩ | ⟨graph, cut⟩ <;> rw [graph, cut]
    · exact kept
    · exact kept.flush
  | cuts none graph batch =>
    rw [graph, batch]
    exact maintained.flush

theorem Session.run_maintained {calls : List Call} {final : Session}
    (reached : run step initial calls = some final) : Maintained final.graph final.cutEnvelopes :=
  run_invariant step (fun _ _ => True) (fun session => Maintained session.graph session.cutEnvelopes)
    (fun _ _ _ _ maintained stepped => step_maintained maintained stepped) calls initial final
    maintained_initial (guarded_of_forall step calls (fun _ _ _ => trivial) _) reached

/-- Calls with decodable envelopes return unless a node has consensus state 2, and every missing ancestor of a node in
`TxCNs` has a wait entry that points back to the node. -/
theorem wait_sets_consistent (calls : List Call) (decodable : ∀ call ∈ calls, call = .cut ∨ call.arrival.isSome)
    (decided : ∀ call ∈ calls, ∀ arrival ∈ call.arrival, arrival.2.consensusState ≠ 2) :
    ∃ final, run step initial calls = some final ∧
      ∀ txid txCN, final.graph.txCNs.lookup txid = some txCN → final.graph.txIdOf txCN = txid ∧
        ∀ awaited ∈ (final.graph.node txCN).waitPTX,
          ∃ waitTxcn, final.graph.waitUnChoosedTxCNs.lookup awaited = some waitTxcn ∧
            waitTxcn.childWait.lookup txid = some txCN := by
  obtain ⟨final, reached, maintained⟩ := run_returns Maintained
    (fun _ _ choosed => choosed.consensusState ≠ 2)
    (fun _ _ order _ decided maintained => maintained.arrives order decided)
    (fun _ _ maintained => maintained.flush) calls initial decodable maintained_initial
    (guarded_of_forall step calls (fun call member _ _ _ created => decided call member _ created) _)
  refine ⟨final, reached, fun txid txCN present => ?_⟩
  have name := (maintained.bounded.present txid txCN present).2
  subst name
  exact ⟨rfl, maintained.waitSets.known txCN present⟩

/-- The child arrives twice before its parent. -/
def repeatedCalls : List Call :=
  [ordinaryCall (sampleTx "c" [("k", [1], "p")] []), ordinaryCall (sampleTx "c" [("k", [1], "p")] [])]

/-- The wait entry of the parent points to the second of the two nodes. -/
theorem wait_sets_consistent_repeated : ∃ final, run step initial repeatedCalls = some final ∧
    final.graph.txCNs.lookup "c" = some 1 ∧ (final.graph.node 1).waitPTX = ["p"] ∧
    ∃ waitTxcn, final.graph.waitUnChoosedTxCNs.lookup "p" = some waitTxcn ∧
      waitTxcn.childWait.lookup "c" = some 1 := by
  have decodable : ∀ call ∈ repeatedCalls, call.arrival.isSome := by decide
  obtain ⟨final, reached, known⟩ := wait_sets_consistent repeatedCalls
    (fun call member => .inr (decodable call member)) (by decide)
  have filed : final.graph.txCNs.lookup "c" = some 1 := of_evaluated reached (by decide)
  have waits : (final.graph.node 1).waitPTX = ["p"] := of_evaluated reached (by decide)
  refine ⟨final, reached, filed, waits, (known "c" 1 filed).2 "p" ?_⟩
  rw [waits]
  exact List.mem_singleton_self _

/-- The envelope does not decode, or it has no action, or the read/write set of its action does not decode. -/
def Malformed (msg : Envelope) : Prop :=
  ∀ chdr respPayload, getActionAndTxidFromEnvelopeMsg msg = .ok (chdr, respPayload) → respPayload.results = none

/-- The contents of a wait entry, with the lookups of its maps. -/
def contents (waitTxcn : WaitTxConsensusNode) :=
  (waitTxcn.childNum, waitTxcn.childNodes, (waitTxcn.writeSet.lookup ·), waitTxcn.diffWaitWKV, waitTxcn.choosedNode,
    (waitTxcn.childWait.lookup ·))

/-- The two graphs agree on the lookups in the maps, the ready batch and the counters. -/
structure SameTCG (graph graph' : TxConsensusGraph) : Prop where
  gState : ∀ key, graph'.gState.lookup key = graph.gState.lookup key
  txCNs : ∀ txid, graph'.txCNs.lookup txid = graph.txCNs.lookup txid
  waitUnChoosedTxCNs : ∀ txid, (graph'.waitUnChoosedTxCNs.lookup txid).map contents =
    (graph.waitUnChoosedTxCNs.lookup txid).map contents
  readyBatch : graph'.readyBatch = graph.readyBatch
  numGCommittedNode : graph'.numGCommittedNode = graph.numGCommittedNode
  numChangedState : graph'.numChangedState = graph.numChangedState

/-- The arrival of a transaction that has a wait entry changes this entry. -/
theorem processTX_awaited {before final : TxConsensusGraph} {order : RangeOrder RangeSite} {choosed : GVNode}
    {waitTxcn : WaitTxConsensusNode} (bounded : Bounded before [])
    (awaited : before.waitUnChoosedTxCNs.lookup choosed.txId = some waitTxcn)
    (done : processTX order before.nodes.size (before.newNode choosed) = some final) :
    (final.waitUnChoosedTxCNs.lookup choosed.txId).map contents ≠ some (contents waitTxcn) := by
  intro same
  obtain ⟨kept, still, same⟩ := Option.map_eq_some_iff.mp same
  have chosen : kept.choosedNode = waitTxcn.choosedNode := congrArg (fun parts => parts.2.2.2.2.1) same
  have arrived := txIdOf_newNode_new before choosed
  obtain ⟨prepared, first, last⟩ := Option.bind_eq_some_iff.mp done
  have name := ((prepareTX_steps (bounded.newNode choosed) (Nat.lt_succ_self _) first).txIdOf _).trans arrived
  have entry : ((before.newNode choosed).waitUnChoosedTxCNs.lookup choosed.txId).isSome :=
    Option.isSome_iff_exists.mpr ⟨waitTxcn, awaited⟩
  rw [arrived, if_pos entry] at last
  have taken : (takeWait before.nodes.size prepared).waitUnChoosedTxCNs.lookup choosed.txId = some kept := by
    rw [← (finish_sameLinks last).waits]
    exact still
  cases found : prepared.waitUnChoosedTxCNs.lookup (prepared.txIdOf before.nodes.size) with
  | none =>
    rw [takeWait_none found, ← name, found] at taken
    cases taken
  | some old =>
    -- The entry now holds the new node, which is in no entry of the graph before.
    obtain ⟨_, _, _, _, _, _, own⟩ := (takeWait_handedOver found).waits _ kept taken
    exact Nat.lt_irrefl _ (bounded.removed _ _ _ awaited (chosen ▸ (own name.symm).1)).1

/-- No call rejects a malformed envelope cleanly: it panics or changes the graph. -/
theorem malformed_not_rejected (calls : List Call) (session : Session)
    (reached : run step initial calls = some session) (order : RangeOrder RangeSite)
    (batchSize : BatchSize) (msg : Envelope) (malformed : Malformed msg) :
    ¬ ∃ next, session.step (.orderedRaftForBC order batchSize msg) = some next ∧
      SameTCG session.graph next.graph := by
  rintro ⟨next, stepped, same⟩
  have maintained := run_maintained reached
  cases step_cases stepped with
  | cuts none =>
    simp only [step, orderedRaftForBC] at stepped
    simp only [Call.arrival, Option.map_eq_none_iff] at none
    simp [none] at stepped
  | arrives given choosed final created processed result =>
    obtain ⟨gnode, decoded, pair⟩ := Option.map_eq_some_iff.mp created
    cases pair
    have counters : next.graph.waitUnChoosedTxCNs = final.waitUnChoosedTxCNs ∧
        next.graph.numGCommittedNode = final.numGCommittedNode := by
      rcases result with ⟨graph, _⟩ | ⟨graph, _⟩ <;> rw [graph] <;> exact ⟨rfl, rfl⟩
    cases awaited : session.graph.waitUnChoosedTxCNs.lookup choosed.txId with
    | some waitTxcn =>
      have entry := same.waitUnChoosedTxCNs choosed.txId
      rw [counters.1, awaited] at entry
      exact processTX_awaited maintained.bounded awaited processed entry
    | none =>
      have plain : choosed.pTx = ∅ ∧ choosed.unPTx = ∅ ∧ choosed.consensusState = 0 := by
        unfold processEnvForBC at decoded
        split at decoded
        · cases decoded
        next chdr respPayload found =>
          rw [malformed chdr respPayload found] at decoded
          cases decoded
          exact ⟨rfl, rfl, rfl⟩
      obtain ⟨other, done, ready, _⟩ := processTX_plain order plain.1 plain.2.1 plain.2.2 awaited
      rw [processed, Option.some.injEq] at done
      subst done
      -- The empty transaction has committed, so the counter is higher.
      obtain ⟨_, recorded, _⟩ := processTX_recorded maintained.bounded processed maintained.recorded
      have before := congrArg List.length maintained.recorded.batch
      have after := congrArg List.length recorded.batch
      have count := counters.2.symm.trans same.numGCommittedNode
      rw [recorded.count, maintained.recorded.count] at count
      simp only [ready, List.length_append, List.length_map, List.length_singleton] at before after
      omega

/-- An envelope whose read/write set does not decode. -/
def garbledEnvelope : Envelope where
  payload := some ⟨some ⟨.decoded ⟨.endorserTransaction, "t"⟩⟩, some ⟨[some ⟨none⟩]⟩⟩
  sizeBytes := 1

theorem malformed_not_rejected_garbled : Malformed garbledEnvelope ∧
    ¬ ∃ next, initial.step (ordinaryCall garbledEnvelope) = some next ∧
      SameTCG initial.graph next.graph := by
  have malformed : Malformed garbledEnvelope := by
    rintro chdr respPayload found
    cases found
    rfl
  exact ⟨malformed, malformed_not_rejected [] initial rfl _ _ _ malformed⟩

/-- An envelope without a payload panics, and an undecodable read/write set is emitted as a transaction. -/
theorem malformed_envelopes_processed :
    Malformed ⟨none, 1⟩ ∧ initial.step (ordinaryCall ⟨none, 1⟩) = none ∧ Malformed garbledEnvelope ∧
      (initial.step (ordinaryCall garbledEnvelope)).map (fun next =>
        (next.emitted, next.graph.txCNs.lookup "t", next.graph.numGCommittedNode)) =
          some ([garbledEnvelope], some 0, 1) := by
  refine ⟨nofun, rfl, ?_, by decide⟩
  rintro chdr respPayload found
  cases found
  rfl

end Pobl.BlockCutter
