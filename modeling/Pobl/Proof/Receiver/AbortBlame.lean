import Pobl.Proof.Graph.Blame
import Pobl.Proof.Receiver.Feed

namespace Pobl.BlockCutter

open Library Protos Partialorder TxConsensusGraph Session

variable {cut : List Envelope} {order : RangeOrder RangeSite} {choosed : GVNode}

/-- What a session keeps about the causes of its aborts. -/
structure Sourced (graph : TxConsensusGraph) (cut : List Envelope) : Prop where
  bounded : Bounded graph []
  recorded : Recorded cut graph
  traced : Traced graph []

theorem sourced_initial : Sourced initial.graph initial.cutEnvelopes :=
  ⟨bounded_initial, recorded_initial, nofun, nofun, nofun⟩

theorem Sourced.flush {graph : TxConsensusGraph} (sourced : Sourced graph cut) :
    Sourced (flush graph) (cut ++ graph.readyBatch) :=
  ⟨bounded_flush sourced.bounded, recorded_flush sourced.recorded, sourced.traced.withReadyBatch []⟩

theorem Sourced.processTX {before final : TxConsensusGraph} (sourced : Sourced before cut)
    (admitted : Admitted before choosed)
    (done : processTX order before.nodes.size (before.newNode choosed) = some final) :
    Sourced final cut ∧ ∀ target, (target, .changedState) ∈ final.stateLog →
      (target, .changedState) ∈ before.stateLog ∨ ParentAborted final target ∨
        target = before.nodes.size ∧ Blame before choosed := by
  obtain ⟨_, zero, noUN⟩ := processEnvForBC_origin admitted.decodes
  obtain ⟨traced, _, blame⟩ := processTX_blame sourced.bounded sourced.recorded sourced.traced
    admitted.fresh zero noUN done
  obtain ⟨bounded, recorded, _⟩ := processTX_recorded sourced.bounded done sourced.recorded
  exact ⟨⟨bounded, recorded, traced⟩, blame⟩

/-- The cause of an abort stays known: a blame that was fixed before, or an aborted parent. -/
def Caused (blame : Prop) (target : NodeRef) (graph : TxConsensusGraph) : Prop :=
  target < graph.nodes.size ∧ ((target, .changedState) ∈ graph.stateLog → blame ∨ ParentAborted graph target)

/-- A later call aborts an old node only because of an aborted parent. -/
theorem Caused.processTX {blame : Prop} {target : NodeRef} {before final : TxConsensusGraph}
    (caused : Caused blame target before) (sourced : Sourced before cut) (admitted : Admitted before choosed)
    (done : processTX order before.nodes.size (before.newNode choosed) = some final) : Caused blame target final := by
  obtain ⟨inside, known⟩ := caused
  obtain ⟨_, zero, noUN⟩ := processEnvForBC_origin admitted.decodes
  obtain ⟨_, change, causes⟩ := processTX_blame sourced.bounded sourced.recorded sourced.traced
    admitted.fresh zero noUN done
  refine ⟨?_, fun logged => ?_⟩
  · rw [change.size]
    exact Nat.lt_succ_of_lt inside
  · rcases causes target logged with old | parent | ⟨same, _⟩
    · refine (known old).imp_right fun parent => change.parentAborted ?_
      obtain ⟨ptxid, ptx, named, aborted⟩ := parent
      rw [← newNode_old before choosed target inside] at named
      exact ⟨ptxid, ptx, named, aborted.newNode⟩
    · exact .inr parent
    · exact absurd same (Nat.ne_of_lt inside)

theorem Session.run_sourced {calls : List Call} {session : Session}
    (guarded : Guarded step (Session.Allows fun _ => Admitted) initial calls)
    (reached : run step initial calls = some session) : Sourced session.graph session.cutEnvelopes :=
  run_keeps Sourced (fun _ => Admitted)
    (fun _ _ _ _ _ admitted sourced done => (sourced.processTX admitted done).1)
    (fun _ _ sourced => sourced.flush) calls initial session sourced_initial guarded reached

/-- The call that brings a transaction fixes the blame for its abort. -/
theorem Session.step_caused {before next : Session} {call : Call} (sourced : Sourced before.graph before.cutEnvelopes)
    (created : call.arrival = some (order, choosed)) (admitted : Admitted before.graph choosed)
    (stepped : before.step call = some next) : Sourced next.graph next.cutEnvelopes ∧
      Caused (Blame before.graph choosed) before.graph.nodes.size next.graph := by
  cases step_cases stepped with
  | arrives given node final arrived processed result =>
    rw [created, Option.some.injEq, Prod.mk.injEq] at arrived
    obtain ⟨rfl, rfl⟩ := arrived
    obtain ⟨after, causes⟩ := sourced.processTX admitted processed
    have caused : Caused (Blame before.graph choosed) before.graph.nodes.size final := by
      refine ⟨?_, fun logged => ?_⟩
      · rw [(processTX_contents sourced.bounded processed).1]
        exact Nat.lt_succ_self _
      · rcases causes before.graph.nodes.size logged with old | parent | ⟨_, blame⟩
        · exact absurd (sourced.recorded.inside _ _ old) (Nat.lt_irrefl _)
        · exact .inr parent
        · exact .inl blame
    rcases result with ⟨graph, batch⟩ | ⟨graph, batch⟩
    · rw [graph, batch]
      exact ⟨after, caused⟩
    · rw [graph, batch]
      exact ⟨after.flush, caused⟩
  | cuts none =>
    rw [created] at none
    cases none

/-- A transaction ends aborted only because one of its reads is wrong, because one of its parents was
aborted, or because a child that arrived earlier claims a read from it that it does not write. -/
theorem abort_is_blamed (first rest : List Call) (call : Call) (before final : Session) (order : RangeOrder RangeSite)
    (choosed : GVNode) (feed : Feed (first ++ call :: rest))
    (reached : run step initial first = some before) (created : call.arrival = some (order, choosed))
    (later : run step before (call :: rest) = some final)
    (dead : (final.graph.node before.graph.nodes.size).state = .changedState) :
    Misread before.graph choosed ∨ ParentAborted final.graph before.graph.nodes.size ∨
      Contradicted before.graph choosed.txId choosed.writeSet := by
  have admitted := feed.admitted
  rw [guarded_append] at admitted
  have guarded := admitted.2 before reached
  have sourced := run_sourced admitted.1 reached
  obtain ⟨next, stepped, finished⟩ := Option.bind_eq_some_iff.mp later
  obtain ⟨after, caused⟩ := step_caused sourced created (guarded.1 order choosed created) stepped
  obtain ⟨last, inside, causes⟩ := run_keeps
    (fun graph cut => Sourced graph cut ∧ Caused (Blame before.graph choosed) before.graph.nodes.size graph)
    (fun _ => Admitted)
    (fun _ _ _ _ _ admitted known done => ⟨(known.1.processTX admitted done).1,
      known.2.processTX known.1 admitted done⟩)
    (fun _ _ known => ⟨known.1.flush, known.2⟩) rest next final ⟨after, caused⟩
    (guarded.2 next stepped) finished
  rcases causes (last.recorded.dead_logged _ inside dead) with (misread | claim) | parent
  · exact .inl misread
  · exact .inr (.inr claim)
  · exact .inr (.inl parent)

/-- The parent `p` commits, and its child `t` has read another value. -/
theorem abort_is_blamed_misread : ∃ before final choosed,
    run step initial [ordinaryCall (sampleTx "p" [] [("k", [1])])] = some before ∧
    run step before [ordinaryCall (sampleTx "t" [("k", [2], "p")] [])] = some final ∧
    processEnvForBC (sampleTx "t" [("k", [2], "p")] []) = some choosed ∧
    (final.graph.node before.graph.nodes.size).state = .changedState ∧
    (Misread before.graph choosed ∨ ParentAborted final.graph before.graph.nodes.size ∨
      Contradicted before.graph choosed.txId choosed.writeSet) := by
  obtain ⟨final, whole, known⟩ := Option.map_eq_some_iff.mp
    (show (run step initial ([ordinaryCall (sampleTx "p" [] [("k", [1])])] ++
      [ordinaryCall (sampleTx "t" [("k", [2], "p")] [])])).map
      (fun session => (session.graph.node 1).state) = some .changedState by decide)
  rw [run_append] at whole
  obtain ⟨before, reached, later⟩ := Option.bind_eq_some_iff.mp whole
  have size : before.graph.nodes.size = 1 := of_evaluated reached (by decide)
  obtain ⟨choosed, decoded⟩ := Option.isSome_iff_exists.mp
    (show (processEnvForBC (sampleTx "t" [("k", [2], "p")] [])).isSome = true by decide)
  have dead : (final.graph.node before.graph.nodes.size).state = .changedState := size ▸ known
  refine ⟨before, final, choosed, reached, later, decoded, dead, ?_⟩
  refine abort_is_blamed _ [] _ before final (RangeOrder.stored RangeSite) choosed (by decide) reached ?_ later dead
  simp only [ordinaryCall, Call.arrival, decoded, Option.map_some]

def slanderCall : Call := ordinaryCall (sampleTx "t" [("k", [2], "a")] [])

def slanderedCall : Call := ordinaryCall (sampleTx "a" [] [("k", [1])])

/-- The transaction `a` reads nothing and has no parents, and it is aborted because the child `t`
claims to have read another value from it. -/
theorem parent_aborted_by_child : ∃ before final choosed, Feed [slanderCall, slanderedCall] ∧
    run step initial [slanderCall] = some before ∧
    run step before [slanderedCall] = some final ∧
    processEnvForBC (sampleTx "a" [] [("k", [1])]) = some choosed ∧
    (final.graph.node before.graph.nodes.size).state = .changedState ∧
    ¬ (Misread before.graph choosed ∨ ParentAborted final.graph before.graph.nodes.size) := by
  obtain ⟨final, whole, known⟩ := Option.map_eq_some_iff.mp
    (show (run step initial ([slanderCall] ++ [slanderedCall])).map
      (fun session => ((session.graph.node 1).state, (session.graph.node 1).choosedNode.pTx.entries.isEmpty)) =
        some (.changedState, true) by decide)
  rw [Prod.mk.injEq, List.isEmpty_iff] at known
  rw [run_append] at whole
  obtain ⟨before, reached, later⟩ := Option.bind_eq_some_iff.mp whole
  have size : before.graph.nodes.size = 1 := of_evaluated reached (by decide)
  obtain ⟨choosed, decoded⟩ := Option.isSome_iff_exists.mp
    (show (processEnvForBC (sampleTx "a" [] [("k", [1])])).isSome = true by decide)
  have noReads : choosed.pTx.entries.isEmpty := of_evaluated decoded (by decide)
  rw [List.isEmpty_iff] at noReads
  rw [← size] at known
  refine ⟨before, final, choosed, by decide, reached, later, decoded, known.1, ?_⟩
  rintro (misread | ⟨ptxid, ptx, named, _⟩)
  · cases misread with
    | writes parent inside ptx named mismatch =>
      have member := (GoMap.mem_entries_iff choosed.pTx ⟨_, ptx⟩).mpr named
      rw [noReads] at member
      cases member
    | state parent inside ptx named committed mismatch =>
      have member := (GoMap.mem_entries_iff choosed.pTx ⟨_, ptx⟩).mpr named
      rw [noReads] at member
      cases member
  · have member := (GoMap.mem_entries_iff _ ⟨ptxid, ptx⟩).mpr named
    rw [known.2] at member
    cases member

end Pobl.BlockCutter
