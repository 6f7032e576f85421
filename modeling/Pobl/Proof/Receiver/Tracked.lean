import Pobl.Proof.Graph.Pending
import Pobl.Proof.Receiver.SafeSession

namespace Pobl.BlockCutter

open Library Protos Partialorder TxConsensusGraph

/-- What a session keeps while nothing is aborted. -/
structure Tracked (graph : TxConsensusGraph) (cut : List Envelope) : Prop where
  fed : Fed graph cut
  traced : Traced graph []
  waitSets : WaitSets graph
  pending : Pending graph
  clean : ∀ target, (target, .changedState) ∉ graph.stateLog

/-- The reads of the arriving transaction match its parents and the state, and its writes match what
its children have read. -/
structure Fits (graph : TxConsensusGraph) (choosed : GVNode) : Prop where
  notSelf : choosed.pTx.lookup choosed.txId = none
  agrees : ∀ parent < graph.nodes.size, ∀ ptx, choosed.pTx.lookup (graph.txIdOf parent) = some ptx →
    disagrees (graph.writeSetOf parent) ptx.kv = false
  current : ∀ parent < graph.nodes.size, ∀ ptx, choosed.pTx.lookup (graph.txIdOf parent) = some ptx →
    (graph.node parent).state = .committed → stale graph.gState ptx = false
  expected : ¬ Contradicted graph choosed.txId choosed.writeSet

theorem tracked_initial : Tracked Session.initial.graph Session.initial.cutEnvelopes where
  fed := fed_initial
  traced := ⟨nofun, nofun, nofun⟩
  waitSets := ⟨nofun, nofun⟩
  pending := ⟨nofun, nofun, nofun, nofun⟩
  clean := nofun

theorem Tracked.flush {graph : TxConsensusGraph} {cut : List Envelope} (tracked : Tracked graph cut) :
    Tracked (flush graph) (cut ++ graph.readyBatch) :=
  ⟨tracked.fed.flush, tracked.traced.withReadyBatch [], ⟨tracked.waitSets.nodup, tracked.waitSets.known⟩,
    ⟨tracked.pending.missing, tracked.pending.asked, tracked.pending.held, tracked.pending.plain⟩,
    tracked.clean⟩

section Arrival

variable {before final : TxConsensusGraph} {cut : List Envelope} {choosed : GVNode}

theorem Tracked.bounded (tracked : Tracked before cut) : Bounded before [] := tracked.fed.kept.1.toBounded

theorem Tracked.alive (tracked : Tracked before cut) {target : NodeRef}
    (inside : target < before.nodes.size) : (before.node target).state ≠ .changedState :=
  fun dead => tracked.clean target (tracked.fed.kept.2.dead_logged target inside dead)

/-- No parent rejects a transaction that fits. -/
theorem Tracked.accepted (tracked : Tracked before cut) (fits : Fits before choosed) :
    ∀ entry ∈ choosed.pTx.entries, rejects before choosed entry = false := by
  intro entry listed
  have named := (GoMap.mem_entries_iff _ _).mp listed
  have other : entry.1 ≠ choosed.txId := by
    intro same
    rw [same, fits.notSelf] at named
    cases named
  unfold rejects
  rw [if_neg other]
  cases found : before.txCNs.lookup entry.1 with
  | some ptxcn =>
    obtain ⟨inside, name⟩ := tracked.bounded.present entry.1 ptxcn found
    rw [← name] at named
    have agrees : disagrees (before.node ptxcn).choosedNode.writeSet entry.2.kv = false :=
      fits.agrees ptxcn inside _ named
    have alive := tracked.alive inside
    simp only [agrees, alive, decide_false, Bool.false_or, Bool.and_eq_false_iff, decide_eq_false_iff_not]
    by_cases committed : (before.node ptxcn).state = .committed
    · exact .inr (fits.current ptxcn inside _ named committed)
    · exact .inl committed
  | none =>
    unfold tombstone
    cases waiting : before.waitUnChoosedTxCNs.lookup entry.1 with
    | none => rfl
    | some waitTxcn =>
      cases dead : waitTxcn.choosedNode with
      | none => simp [dead]
      | some target =>
        obtain ⟨inside, name⟩ := tracked.bounded.removed entry.1 waitTxcn target waiting dead
        exact absurd name (tracked.pending.missing entry.1 waitTxcn waiting target inside)

theorem Tracked.unanimous (tracked : Tracked before cut) (fits : Fits before choosed)
    (zero : choosed.consensusState = 0) (order : RangeOrder RangeSite) : Unanimous order before choosed := by
  have parents : loopParents order before choosed = choosed.pTx := by
    unfold loopParents
    rw [if_neg (by omega)]
  unfold Unanimous
  rw [parents]
  rintro _ ⟨entry, listed, rejected⟩
  rw [tracked.accepted fits entry listed] at rejected
  cases rejected

/-- Nothing in the graph is a reason to abort a transaction that fits. -/
theorem Fits.not_blamed (fits : Fits before choosed) : ¬ Blame before choosed := by
  rintro (misread | contradicted)
  · cases misread with
    | writes parent inside ptx named mismatch =>
      unfold txIdOf at named
      rcases Nat.lt_succ_iff_lt_or_eq.mp inside with old | same
      · rw [newNode_old before choosed parent old] at named mismatch
        have agrees : disagrees (before.node parent).choosedNode.writeSet ptx.kv = false :=
          fits.agrees parent old ptx named
        rw [agrees] at mismatch
        cases mismatch
      · rw [same, node_newNode_new, fits.notSelf] at named
        cases named
    | state parent inside ptx named committed mismatch =>
      rw [fits.current parent inside ptx named committed] at mismatch
      cases mismatch
  · exact fits.expected contradicted

/-- The arrival of a transaction that fits returns, and it aborts only children of aborted parents. -/
theorem Tracked.arrives (tracked : Tracked before cut) (admitted : Admitted before choosed)
    (fits : Fits before choosed) (order : RangeOrder RangeSite) :
    ∃ final, processTX order before.nodes.size (before.newNode choosed) = some final ∧
      Extends (before.newNode choosed) final ∧
      ∀ target, (target, .changedState) ∈ final.stateLog → ParentAborted final target := by
  obtain ⟨_, zero, noUN⟩ := processEnvForBC_origin admitted.decodes
  have decided : choosed.consensusState ≠ 2 := by omega
  obtain ⟨final, done, _⟩ := tracked.waitSets.arrives_decided tracked.bounded order decided
  obtain ⟨_, change, blame⟩ := processTX_blame tracked.bounded tracked.fed.kept.2 tracked.traced
    admitted.fresh zero noUN done
  refine ⟨final, done, change, fun target logged => ?_⟩
  rcases blame target logged with old | aborted | ⟨_, blamed⟩
  · exact absurd old (tracked.clean target)
  · exact aborted
  · exact absurd blamed fits.not_blamed

/-- A session stays tracked while the arrivals abort nothing. -/
theorem Tracked.processTX (tracked : Tracked before cut) (admitted : Admitted before choosed)
    (fits : Fits before choosed) (clean : ∀ target, (target, .changedState) ∉ final.stateLog)
    {order : RangeOrder RangeSite}
    (done : processTX order before.nodes.size (before.newNode choosed) = some final) : Tracked final cut := by
  obtain ⟨_, zero, noUN⟩ := processEnvForBC_origin admitted.decodes
  have recorded := tracked.fed.kept.2
  have decided : choosed.consensusState ≠ 2 := by omega
  obtain ⟨returned, same, waitSets⟩ := tracked.waitSets.arrives_decided tracked.bounded order decided
  rw [done, Option.some.injEq] at same
  exact ⟨tracked.fed.processTX admitted (tracked.unanimous fits zero order) done,
    (processTX_blame tracked.bounded recorded tracked.traced admitted.fresh zero noUN done).1, same ▸ waitSets,
    processTX_pending tracked.bounded recorded tracked.traced tracked.fed.filed tracked.pending
      admitted.fresh zero noUN fits.notSelf clean done, clean⟩

end Arrival

section Complete

variable {graph : TxConsensusGraph} {cut : List Envelope} (tracked : Tracked graph cut)
  (arrived : ∀ child < graph.nodes.size, ∀ ptxid ptx, (graph.node child).choosedNode.pTx.lookup ptxid = some ptx →
      ∃ parent < graph.nodes.size, graph.txIdOf parent = ptxid)

include tracked arrived

/-- Nothing waits for a missing parent when all parents have arrived. -/
theorem Tracked.no_waits (txid : TxId) : graph.waitUnChoosedTxCNs.lookup txid = none := by
  rw [Option.eq_none_iff_forall_ne_some]
  intro waitTxcn found
  obtain ⟨child, inside, ptx, named⟩ := tracked.pending.asked txid waitTxcn found
  obtain ⟨parent, parentIn, name⟩ := arrived child inside txid ptx named
  exact tracked.pending.missing txid waitTxcn found parent parentIn name

/-- A waiting transaction has a place in the list of a parent that has not committed. -/
theorem Tracked.open_parent {target : NodeRef} (inside : target < graph.nodes.size)
    (waits : (graph.node target).state = .wait) :
    ∃ parent < graph.nodes.size, (graph.node parent).state ≠ .committed ∧
      ∃ ptx, (graph.node target).choosedNode.pTx.lookup (graph.txIdOf parent) = some ptx := by
  have sound := tracked.fed.kept.1
  have positive := sound.waiting target inside (by simp) waits
  have counted := sound.counted target inside
  rw [pendingSlots_nil] at counted
  have plain : openCount graph.unList (graph.Released NodeState.ReleasesUN) graph.childLists.size target = 0 := by
    apply Finset.sum_eq_zero
    intro list below
    simp [openPlaces, tracked.pending.plain list (Finset.mem_range.mp below)]
  unfold openSlots at counted
  have places : 0 < openCount graph.nList (graph.Released NodeState.ReleasesN) graph.childLists.size
      target := by omega
  obtain ⟨list, below, opened, listed⟩ := exists_open_of_openCount_pos places
  rcases tracked.pending.held list below target listed with ⟨owner, ownerIn, points⟩ | ⟨txid, entry, found, _⟩
  · obtain ⟨name, labelled⟩ := tracked.traced.lists list below
    refine ⟨owner, ownerIn, ?_, ?_⟩
    · intro committed
      exact opened ⟨owner, ownerIn, points, committed⟩
    · rw [labelled.owners owner ownerIn points]
      exact labelled.members target listed
  · rw [tracked.no_waits arrived txid] at found
    cases found

/-- Every transaction is committed when the parents of each waiting one are. -/
theorem Tracked.committed {target : NodeRef} (inside : target < graph.nodes.size)
    (parents : ∀ parent < graph.nodes.size,
      (∃ ptx, (graph.node target).choosedNode.pTx.lookup (graph.txIdOf parent) = some ptx) →
        (graph.node parent).state = .committed) : (graph.node target).state = .committed := by
  cases state : (graph.node target).state with
  | committed => rfl
  | ready => exact absurd state (tracked.fed.kept.1.notReady target inside)
  | changedState => exact absurd state (tracked.alive inside)
  | wait =>
    obtain ⟨parent, parentIn, undecided, named⟩ := tracked.open_parent arrived inside state
    exact absurd (parents parent parentIn named) undecided

end Complete

/-- Every node is committed exactly once. -/
theorem Tracked.commits_perm {graph : TxConsensusGraph} {cut : List Envelope} (tracked : Tracked graph cut)
    (committed : ∀ target < graph.nodes.size, (graph.node target).state = .committed) :
    graph.commits.Perm (List.range graph.nodes.size) := by
  obtain ⟨sound, recorded⟩ := tracked.fed.kept
  refine (List.perm_ext_iff_of_nodup sound.once List.nodup_range).mpr fun target => ?_
  rw [List.mem_range]
  constructor
  · exact recorded.commit_inside target
  · intro inside
    exact (mem_commits _ target).mpr ((sound.committedLog target).mpr ⟨inside, committed target inside⟩)

theorem Tracked.emitted_perm {session : Session} (tracked : Tracked session.graph session.cutEnvelopes)
    (committed : ∀ target < session.graph.nodes.size, (session.graph.node target).state = .committed) :
    session.emitted.Perm (arrivals session.graph) := by
  rw [show session.emitted = session.graph.commits.map session.graph.envelopeOf from tracked.fed.kept.2.batch]
  exact (tracked.commits_perm committed).map _

end Pobl.BlockCutter
