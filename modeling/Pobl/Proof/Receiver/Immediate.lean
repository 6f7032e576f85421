import Pobl.Library.History
import Pobl.Proof.Receiver.Tracked

namespace Pobl.BlockCutter

open Library Protos Partialorder TxConsensusGraph Session Call List

/-- What the writes of a transaction leave in a key, with the name of the transaction. -/
def signedWrites (gvnode : GVNode) : Key → Option (Value × TxId) :=
  fun key => (gvnode.writeSet.lookup key).map fun wkv => (wkv.value, gvnode.txId)

/-- Each read is what the last of the earlier transactions that write its key has left. -/
def ReadsLast (earlier : List GVNode) (gvnode : GVNode) : Prop :=
  ∀ ptxid ptx, gvnode.pTx.lookup ptxid = some ptx → ∀ key value, ptx.kv.lookup key = some value →
    Replay.replay (earlier.map signedWrites) key = some (value, ptxid)

/-- The transactions of the graph in the order of their arrival. -/
def arrivedNodes (graph : TxConsensusGraph) : List GVNode :=
  (range graph.nodes.size).map fun target => (graph.node target).choosedNode

theorem arrivedNodes_eq {graph : TxConsensusGraph} (decoded : Decoded graph) :
    arrivedNodes graph = decodedNodes (arrivals graph) := by
  unfold arrivedNodes decodedNodes arrivals
  rw [filterMap_map, ← filterMap_eq_map]
  apply filterMap_congr
  intro target listed
  exact (decoded target (mem_range.mp listed)).symm

/-- What a session keeps while every transaction commits on arrival. -/
structure Prompt (graph : TxConsensusGraph) (cut : List Envelope) : Prop extends Tracked graph cut where
  parents : ∀ child < graph.nodes.size, ∀ ptxid ptx, (graph.node child).choosedNode.pTx.lookup ptxid = some ptx →
      ∃ parent < graph.nodes.size, graph.txIdOf parent = ptxid
  settled : ∀ target < graph.nodes.size, (graph.node target).state = .committed
  inOrder : graph.commits = range graph.nodes.size

section Arrival

variable {before : TxConsensusGraph} {cut : List Envelope} {choosed : GVNode}

/-- A read names an earlier transaction, and it holds what that transaction wrote. -/
theorem ReadsLast.parent (reads : ReadsLast (arrivedNodes before) choosed) {ptxid : TxId} {ptx : PtxKV}
    (named : choosed.pTx.lookup ptxid = some ptx) {key : Key} {value : Value}
    (read : ptx.kv.lookup key = some value) :
    ∃ parent < before.nodes.size, before.txIdOf parent = ptxid ∧
      ∃ wkv, (before.writeSetOf parent).lookup key = some wkv ∧ wkv.value = value := by
  obtain ⟨_, listed, assigned⟩ := Replay.exists_entry_of_replay (reads ptxid ptx named key value read)
  obtain ⟨gvnode, arrived, rfl⟩ := mem_map.mp listed
  obtain ⟨parent, inside, rfl⟩ := mem_map.mp arrived
  obtain ⟨wkv, written, same⟩ := Option.map_eq_some_iff.mp assigned
  cases same
  exact ⟨parent, mem_range.mp inside, rfl, wkv, written, rfl⟩

/-- The state holds the current values of all keys. -/
theorem Prompt.gState (prompt : Prompt before cut) (key : Key) : before.gState.lookup key =
      (Replay.replay ((arrivedNodes before).map signedWrites) key).map Prod.fst := by
  rw [prompt.fed.kept.2.state, replay_eq, ← Replay.replay_map, prompt.inOrder, map_map, map_map,
    arrivedNodes, map_map]
  congr 2
  funext target key
  simp [signedWrites, logEntry, writeSetOf, Function.comp_def]

section

variable (prompt : Prompt before cut) (admitted : Admitted before choosed)
  (reads : ReadsLast (arrivedNodes before) choosed)

include prompt admitted reads

theorem Prompt.fits : Fits before choosed where
  notSelf := by
    rw [Option.eq_none_iff_forall_ne_some]
    intro ptx named
    obtain ⟨⟨key, value, read⟩, _⟩ := processEnvForBC_listed admitted.decodes _ _ named
    obtain ⟨parent, inside, name, _⟩ := reads.parent named read
    exact admitted.fresh parent inside name
  agrees := by
    intro parent inside ptx named
    rw [disagrees_eq_false_iff]
    intro key value read
    obtain ⟨writer, writerIn, name, written⟩ := reads.parent named read
    rwa [prompt.fed.filed.distinct writer writerIn parent inside name] at written
  current := by
    intro parent inside ptx named _
    rw [stale_eq_false_iff]
    intro key value read _
    rw [prompt.gState, reads _ _ named key value read]
    rfl
  expected := by
    rintro ⟨child, inside, _, _, ⟨ptx, named, _⟩, _⟩
    obtain ⟨parent, parentIn, name⟩ := prompt.parents child inside _ ptx named
    exact admitted.fresh parent parentIn name

/-- A transaction whose reads are current commits on arrival, after all earlier ones. -/
theorem Prompt.arrives (order : RangeOrder RangeSite) :
    ∃ final, processTX order before.nodes.size (before.newNode choosed) = some final ∧ Prompt final cut := by
  have fits := prompt.fits admitted reads
  obtain ⟨_, zero, _⟩ := processEnvForBC_origin admitted.decodes
  obtain ⟨final, done, change, blame⟩ := prompt.toTracked.arrives admitted fits order
  have fed := prompt.fed.processTX admitted (prompt.unanimous fits zero order) done
  have grows := (processTX_recorded prompt.bounded done prompt.fed.kept.2).2.2
  obtain ⟨oldNames, newName⟩ := processTX_txIdOf prompt.bounded done
  have size : final.nodes.size = before.nodes.size + 1 := change.size
  have oldSettled : ∀ target < before.nodes.size, (final.node target).state = .committed := by
    intro target inside
    have logged := (prompt.fed.kept.1.committedLog target).mpr ⟨inside, prompt.settled target inside⟩
    exact ((fed.kept.1.committedLog target).mp (grows.subset logged)).2
  have newContents : (final.node before.nodes.size).choosedNode = choosed := by
    rw [change.contents, node_newNode_new]
  -- An old node is committed, so only the new node could be aborted, and it is not its own parent.
  have onlyNew : ∀ target, (target, .changedState) ∈ final.stateLog → target = before.nodes.size := by
    intro target logged
    obtain ⟨inside, dead⟩ := (fed.kept.1.changedLog target).mp logged
    rw [size] at inside
    rcases Nat.lt_succ_iff_lt_or_eq.mp inside with old | same
    · rw [oldSettled target old] at dead
      cases dead
    · exact same
  have clean : ∀ target, (target, .changedState) ∉ final.stateLog := by
    intro target logged
    obtain ⟨ptxid, ptx, named, owner, _, owned, aborted⟩ := blame target logged
    rw [onlyNew target logged, newContents] at named
    rw [onlyNew owner aborted, newName] at owned
    rw [← owned, fits.notSelf] at named
    cases named
  have tracked := prompt.toTracked.processTX admitted fits clean done
  have parents : ∀ child < final.nodes.size, ∀ ptxid ptx, (final.node child).choosedNode.pTx.lookup ptxid = some ptx →
        ∃ parent < before.nodes.size, final.txIdOf parent = ptxid := by
    intro child inside ptxid ptx named
    rw [size] at inside
    rcases Nat.lt_succ_iff_lt_or_eq.mp inside with old | same
    · rw [change.contents, newNode_old before choosed child old] at named
      obtain ⟨parent, parentIn, name⟩ := prompt.parents child old ptxid ptx named
      exact ⟨parent, parentIn, (oldNames parent parentIn).trans name⟩
    · rw [same, newContents] at named
      obtain ⟨⟨key, value, read⟩, _⟩ := processEnvForBC_listed admitted.decodes _ _ named
      obtain ⟨parent, parentIn, name, _⟩ := reads.parent named read
      exact ⟨parent, parentIn, (oldNames parent parentIn).trans name⟩
  have arrived : ∀ child < final.nodes.size, ∀ ptxid ptx, (final.node child).choosedNode.pTx.lookup ptxid = some ptx →
        ∃ parent < final.nodes.size, final.txIdOf parent = ptxid := by
    intro child inside ptxid ptx named
    obtain ⟨parent, parentIn, name⟩ := parents child inside ptxid ptx named
    exact ⟨parent, by omega, name⟩
  have settled : ∀ target < final.nodes.size, (final.node target).state = .committed := by
    intro target inside
    rw [size] at inside
    rcases Nat.lt_succ_iff_lt_or_eq.mp inside with old | same
    · exact oldSettled target old
    · subst same
      refine tracked.committed arrived (by rw [size]; exact Nat.lt_succ_self _) ?_
      rintro parent parentIn ⟨ptx, named⟩
      rw [size] at parentIn
      rcases Nat.lt_succ_iff_lt_or_eq.mp parentIn with old | same
      · exact oldSettled parent old
      · rw [newContents, same, newName, fits.notSelf] at named
        cases named
  refine ⟨final, done, tracked, arrived, settled, ?_⟩
  obtain ⟨later, longer⟩ : before.commits <+: final.commits := grows.filterMap _
  have perm := tracked.commits_perm settled
  rw [← longer, prompt.inOrder, size, range_succ, perm_append_left_iff] at perm
  rw [← longer, prompt.inOrder, size, range_succ, perm_singleton.mp perm]

end

end Arrival

theorem prompt_initial : Prompt initial.graph initial.cutEnvelopes :=
  ⟨tracked_initial, nofun, nofun, rfl⟩

theorem Prompt.flush {graph : TxConsensusGraph} {cut : List Envelope} (prompt : Prompt graph cut) :
    Prompt (flush graph) (cut ++ graph.readyBatch) :=
  { prompt with toTracked := prompt.toTracked.flush }

theorem Prompt.emitted {session : Session} (prompt : Prompt session.graph session.cutEnvelopes) :
    session.emitted = arrivals session.graph := by
  rw [show session.emitted = session.graph.commits.map session.graph.envelopeOf from
    prompt.fed.kept.2.batch, prompt.inOrder, arrivals]

/-- Envelopes whose reads are current in the order of their arrival are all emitted on arrival. -/
theorem Session.run_prompt {calls : List Call} (feed : Feed calls)
    (decodes : ∀ msg ∈ calls.filterMap message, (processEnvForBC msg).isSome)
    (reads : EachAfter ReadsLast (decodedNodes (calls.filterMap message))) :
    ∃ session, run step initial calls = some session ∧
      Prompt session.graph session.cutEnvelopes ∧ session.emitted = calls.filterMap message := by
  induction calls using reverseRecOn with
  | nil => exact ⟨initial, rfl, prompt_initial, rfl⟩
  | append_singleton rest call ih =>
    rw [filterMap_append] at decodes reads
    rw [decodedNodes, filterMap_append] at reads
    obtain ⟨session, reached, prompt, emitted⟩ := ih feed.before
      (fun msg listed => decodes msg (mem_append_left _ listed)) (reads.before (prefix_append _ _))
    have arrived : arrivedNodes session.graph = decodedNodes (rest.filterMap message) := by
      rw [arrivedNodes_eq prompt.fed.decoded, ← prompt.emitted, emitted]
    have admitted := ((guarded_append _ _ _ _ _).mp feed.admitted).2 session reached
    have forBC := feed.forBC call (mem_append_right _ mem_cons_self)
    have allowed : session.Allows (fun _ graph choosed =>
        Admitted graph choosed ∧ ReadsLast (arrivedNodes graph) choosed) call := by
      intro order choosed created
      refine ⟨admitted.1 order choosed created, ?_⟩
      rw [arrived]
      obtain ⟨batchSize, msg, rfl, decoded⟩ := forBC.arrives created
      have last : decodedNodes (filterMap message [.orderedRaftForBC order batchSize msg]) =
          [choosed] := by simp [decodedNodes, message, decoded]
      exact ((eachAfter_concat _ _ _).mp (last ▸ reads)).2
    have brings : ∀ other ∈ [call], other = .cut ∨ other.arrival.isSome := by
      intro other listed
      rw [mem_singleton.mp listed]
      cases call with
      | orderedRaftForBC order batchSize msg =>
        refine .inr ?_
        rw [arrival, Option.isSome_map]
        exact decodes msg (mem_append_right _ mem_cons_self)
      | orderedRaft => exact forBC.elim
      | cut => exact .inl rfl
    obtain ⟨final, last, kept⟩ := run_returns Prompt _
      (fun _ _ order _ both prompt => prompt.arrives both.1 both.2 order) (fun _ _ prompt => prompt.flush)
      [call] session brings prompt ⟨allowed, fun _ _ => trivial⟩
    have whole : run step initial (rest ++ [call]) = some final := by
      rw [run_append, reached]
      exact last
    have bounded : Bounded initial.graph [] := bounded_initial
    refine ⟨final, whole, kept, ?_⟩
    rw [kept.emitted, run_arrivals bounded feed.forBC whole]
    exact nil_append _

end Pobl.BlockCutter
