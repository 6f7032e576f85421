import Mathlib.Data.Finite.Defs
import Mathlib.Order.WellFounded
import Mathlib.Data.Set.Finite.List
import Pobl.Proof.Receiver.Family

namespace Pobl.BlockCutter

open Library Protos Partialorder TxConsensusGraph Session Call Relation List

/-- A family of envelopes with distinct identifiers in which every parent is inside, every read is
what its parent wrote, no transaction is its own ancestor, and no key has two writers. -/
structure ClosedFamily (family : List Envelope) : Prop where
  decodes : ∀ env ∈ family, (processEnvForBC env).isSome
  distinct : ((decodedNodes family).map GVNode.txId).Nodup
  parents : ∀ child ∈ decodedNodes family, ∀ ptxid ptx, child.pTx.lookup ptxid = some ptx →
    ∃ parent ∈ decodedNodes family, parent.txId = ptxid ∧ ∀ key value, ptx.kv.lookup key = some value →
        ∃ wkv, parent.writeSet.lookup key = some wkv ∧ wkv.value = value
  acyclic : ∀ txid, ¬ TransGen (NamesParent (· ∈ decodedNodes family)) txid txid
  once : ∀ first ∈ decodedNodes family, ∀ second ∈ decodedNodes family, ∀ key,
    (first.writeSet.lookup key).isSome → (second.writeSet.lookup key).isSome → first = second

/-- A relation without cycles whose smaller elements are in a finite list is well founded. -/
theorem wellFounded_of_acyclic {Item : Type} {relation : Item → Item → Prop} (items : List Item)
    (listed : ∀ smaller larger, relation smaller larger → smaller ∈ items)
    (acyclic : ∀ item, ¬ TransGen relation item item) : WellFounded relation := by
  have finite : Finite { item // item ∈ items } := (finite_toSet items).to_subtype
  let descends : { item // item ∈ items } → { item // item ∈ items } → Prop :=
    fun smaller larger => TransGen relation smaller.1 larger.1
  have irreflexive : Std.Irrefl descends := ⟨fun item => acyclic item.1⟩
  have founded : WellFounded descends := Finite.wellFounded_of_trans_of_irrefl descends
  have inside : ∀ item : { item // item ∈ items }, Acc relation item.1 := by
    intro item
    induction item using founded.induction with
    | _ item ih =>
      exact ⟨_, fun smaller below => ih ⟨smaller, listed smaller item.1 below⟩ (.single below)⟩
  exact ⟨fun item => ⟨_, fun smaller below => inside ⟨smaller, listed smaller item below⟩⟩⟩

theorem ClosedFamily.harmonious {family : List Envelope} (closed : ClosedFamily family) :
    Harmonious (· ∈ decodedNodes family) where
  parent := by
    intro child known ptxid ptx named
    obtain ⟨parent, parentKnown, name, agrees⟩ := closed.parents child known ptxid ptx named
    exact ⟨parent, parentKnown, name, (disagrees_eq_false_iff _ _).mpr agrees⟩
  distinct := fun _ _ one two same => inj_on_of_nodup_map closed.distinct one two same
  acyclic := by
    refine wellFounded_of_acyclic ((decodedNodes family).map GVNode.txId) ?_ closed.acyclic
    rintro ptxid txid ⟨child, known, -, ptx, named⟩
    obtain ⟨parent, parentKnown, rfl, -⟩ := closed.parents child known ptxid ptx named
    exact mem_map_of_mem parentKnown
  once := fun first second key one two => closed.once first one second two key

theorem ClosedFamily.nodup {family : List Envelope} (closed : ClosedFamily family) : family.Nodup := by
  have distinct := closed.distinct
  rw [decodedNodes, map_filterMap, List.Nodup, pairwise_filterMap] at distinct
  refine distinct.imp_of_mem fun {first second} listed _ differ same => ?_
  subst same
  obtain ⟨gvnode, decoded⟩ := Option.isSome_iff_exists.mp (closed.decodes first listed)
  have txId : (processEnvForBC first).map GVNode.txId = some gvnode.txId := by
    rw [decoded, Option.map_some]
  exact differ _ txId _ txId rfl

section Feeding

variable {family : List Envelope} {calls : List Call}

theorem ClosedFamily.feed (closed : ClosedFamily family) (forBC : ∀ call ∈ calls, call.ForBC)
    (feeds : (calls.filterMap message).Perm family) : Feed calls := by
  refine ⟨forBC, ?_⟩
  rw [filterMap_txId forBC]
  exact ((feeds.filterMap processEnvForBC).map GVNode.txId).nodup_iff.mpr closed.distinct

/-- Every call of a closed family brings a member. -/
theorem arrival_of_feeds (forBC : ∀ call ∈ calls, call.ForBC) (feeds : (calls.filterMap message).Perm family)
    {call : Call} (listed : call ∈ calls) {order : RangeOrder RangeSite} {choosed : GVNode}
    (created : call.arrival = some (order, choosed)) : choosed ∈ decodedNodes family := by
  obtain ⟨_, msg, rfl, decoded⟩ := (forBC call listed).arrives created
  exact mem_decodedNodes.mpr ⟨msg, feeds.mem_iff.mp (mem_filterMap.mpr ⟨_, listed, rfl⟩), decoded⟩

theorem ClosedFamily.brings (closed : ClosedFamily family) (forBC : ∀ call ∈ calls, call.ForBC)
    (feeds : (calls.filterMap message).Perm family) : ∀ call ∈ calls, call = .cut ∨ call.arrival.isSome := by
  intro call listed
  cases call with
  | orderedRaftForBC order batchSize msg =>
    refine .inr ?_
    rw [arrival, Option.isSome_map]
    exact closed.decodes msg (feeds.mem_iff.mp (mem_filterMap.mpr ⟨_, listed, rfl⟩))
  | orderedRaft => exact (forBC _ listed).elim
  | cut => exact .inl rfl

/-- The calls of a closed family return and complete it. -/
theorem ClosedFamily.completes (closed : ClosedFamily family) (forBC : ∀ call ∈ calls, call.ForBC)
    (feeds : (calls.filterMap message).Perm family) :
    ∃ final, run step initial calls = some final ∧
      Completing (· ∈ decodedNodes family) final.graph final.cutEnvelopes := by
  have members : Guarded step (Session.Allows fun _ _ choosed => choosed ∈ decodedNodes family)
      initial calls :=
    guarded_of_forall step calls
      (fun _ listed _ _ _ created => arrival_of_feeds forBC feeds listed created) initial
  exact run_returns (Completing (· ∈ decodedNodes family)) _ (fun _ _ order _ allowed completing =>
      completing.arrives closed.harmonious allowed.2 allowed.1 order)
    (fun _ _ completing => ⟨completing.toTracked.flush, completing.members⟩) calls initial
    (closed.brings forBC feeds) ⟨tracked_initial, nofun⟩ ((closed.feed forBC feeds).with members)

end Feeding

section Outcome

variable {member : GVNode → Prop} {session : Session} {family : List Envelope}
  (completing : Completing member session.graph session.cutEnvelopes)
  (committed : ∀ target < session.graph.nodes.size, (session.graph.node target).state = .committed)

include completing committed

/-- The state holds what the nodes have written. -/
theorem Completing.gState_iff (harmonious : Harmonious member) (key : Key) (value : Value) :
    session.graph.gState.lookup key = some value ↔ ∃ target < session.graph.nodes.size, ∃ wkv,
        (session.graph.writeSetOf target).lookup key = some wkv ∧ wkv.value = value := by
  have recorded := completing.fed.kept.2
  have all := completing.toTracked.commits_perm committed
  constructor
  · intro found
    rw [recorded.state, replay_eq] at found
    obtain ⟨_, listed, assigned⟩ := Replay.exists_entry_of_replay found
    obtain ⟨_, written, rfl⟩ := mem_map.mp listed
    obtain ⟨target, commits, rfl⟩ := mem_map.mp written
    obtain ⟨wkv, some, same⟩ := Option.map_eq_some_iff.mp assigned
    exact ⟨target, recorded.commit_inside target commits, wkv, some, same⟩
  · rintro ⟨target, inside, wkv, written, rfl⟩
    exact completing.current harmonious (all.mem_iff.mpr (mem_range.mpr inside)) written

end Outcome

/-- A closed family is emitted completely, whatever the order of its arrival and of the map iterations,
and whenever batches are cut.
No transaction is aborted, each one follows its parents, nothing is left waiting,
and the final state depends only on the family. -/
theorem closed_family_emitted (family : List Envelope) (closed : ClosedFamily family) (calls : List Call)
    (forBC : ∀ call ∈ calls, call.ForBC) (feeds : (calls.filterMap message).Perm family) :
    ∃ final, run step initial calls = some final ∧ final.emitted.Perm family ∧ family.Nodup ∧
      (∀ target < final.graph.nodes.size, (final.graph.node target).state = .committed) ∧
      (∀ target, (target, .changedState) ∉ final.graph.stateLog) ∧
      (∀ position env, final.emitted[position]? = some env → FollowsParents final.emitted position env) ∧
      (∀ txid, final.graph.waitUnChoosedTxCNs.lookup txid = none) ∧
      ∀ key value, final.graph.gState.lookup key = some value ↔
        ∃ gvnode ∈ decodedNodes family, ∃ wkv, gvnode.writeSet.lookup key = some wkv ∧ wkv.value = value := by
  obtain ⟨final, reached, completing⟩ := closed.completes forBC feeds
  have harmonious := closed.harmonious
  have bounded : Bounded initial.graph [] := bounded_initial
  have messages : arrivals final.graph = calls.filterMap message :=
    (run_arrivals bounded forBC reached).trans (nil_append _)
  have decoded := completing.fed.decoded
  have arrived : ∀ gvnode ∈ decodedNodes family, ∃ target < final.graph.nodes.size,
      (final.graph.node target).choosedNode = gvnode := by
    intro gvnode known
    obtain ⟨env, listed, decodes⟩ := mem_decodedNodes.mp known
    rw [← feeds.mem_iff, ← messages] at listed
    obtain ⟨target, inside, rfl⟩ := mem_map.mp listed
    have below := mem_range.mp inside
    refine ⟨target, below, ?_⟩
    rw [decoded target below, Option.some.injEq] at decodes
    exact decodes
  have committed := completing.all_committed harmonious arrived
  have emitted := (completing.toTracked.emitted_perm committed).trans (messages ▸ feeds)
  refine ⟨final, reached, emitted, closed.nodup, committed, completing.clean, fun _ _ found =>
    completing.fed.followsParents found, completing.toTracked.no_waits (completing.parent_arrived harmonious arrived), ?_⟩
  intro key value
  rw [completing.gState_iff committed harmonious]
  constructor
  · rintro ⟨target, inside, wkv, written, same⟩
    exact ⟨_, completing.members target inside, wkv, written, same⟩
  · rintro ⟨gvnode, known, wkv, written, same⟩
    obtain ⟨target, inside, rfl⟩ := arrived gvnode known
    exact ⟨target, inside, wkv, written, same⟩

/-- A child, its parent and their common ancestor. -/
def chainFamily : List Envelope :=
  [sampleTx "g" [] [("k", [1])], sampleTx "p" [("k", [1], "g")] [("l", [2])],
    sampleTx "c" [("k", [1], "g"), ("l", [2], "p")] [("m", [3])]]

def chainRank (txid : TxId) : Nat := if txid = "g" then 0 else if txid = "p" then 1 else 2

theorem chainFamily_closed : ClosedFamily chainFamily where
  decodes := by decide
  distinct := by decide
  parents := by
    have checked : ∀ child ∈ decodedNodes chainFamily, ∀ entry ∈ child.pTx.entries,
        ∃ parent ∈ decodedNodes chainFamily, parent.txId = entry.1 ∧
          disagrees parent.writeSet entry.2.kv = false := by decide
    intro child known ptxid ptx named
    obtain ⟨parent, parentKnown, name, agrees⟩ := checked child known ⟨ptxid, ptx⟩
      ((GoMap.mem_entries_iff _ _).mpr named)
    exact ⟨parent, parentKnown, name, (disagrees_eq_false_iff _ _).mp agrees⟩
  acyclic := by
    have checked : ∀ child ∈ decodedNodes chainFamily, ∀ entry ∈ child.pTx.entries,
        chainRank entry.1 < chainRank child.txId := by decide
    have ranked : ∀ ptxid txid, TransGen (NamesParent (· ∈ decodedNodes chainFamily)) ptxid txid →
        chainRank ptxid < chainRank txid := by
      intro ptxid txid related
      induction related with
      | single names =>
        obtain ⟨child, known, rfl, ptx, named⟩ := names
        exact checked child known ⟨ptxid, ptx⟩ ((GoMap.mem_entries_iff _ _).mpr named)
      | tail _ names ih =>
        obtain ⟨child, known, rfl, ptx, named⟩ := names
        exact ih.trans (checked child known ⟨_, ptx⟩ ((GoMap.mem_entries_iff _ _).mpr named))
    exact fun txid cycle => Nat.lt_irrefl _ (ranked txid txid cycle)
  once := by
    have checked : ∀ first ∈ decodedNodes chainFamily, ∀ second ∈ decodedNodes chainFamily,
        first.txId ≠ second.txId → ∀ entry ∈ first.writeSet.entries,
          (second.writeSet.lookup entry.1).isNone := by decide
    have distinct : ((decodedNodes chainFamily).map GVNode.txId).Nodup := by decide
    intro first one second two key writes alsoWrites
    by_contra differ
    obtain ⟨wkv, written⟩ := Option.isSome_iff_exists.mp writes
    have absent := checked first one second two
      (fun same => differ (inj_on_of_nodup_map distinct one two same)) ⟨key, wkv⟩
      ((GoMap.mem_entries_iff _ _).mpr written)
    rw [Option.isNone_iff_eq_none.mp absent] at alsoWrites
    cases alsoWrites

/-- The ancestor arrives last, after a cut of the empty batch. -/
def chainCalls : List Call :=
  [ordinaryCall (sampleTx "c" [("k", [1], "g"), ("l", [2], "p")] [("m", [3])]), .cut,
    ordinaryCall (sampleTx "p" [("k", [1], "g")] [("l", [2])]), ordinaryCall (sampleTx "g" [] [("k", [1])])]

/-- The family whose ancestor arrives last is emitted from the ancestor on. -/
theorem closed_family_emitted_chain : ∃ final,
    run step initial chainCalls = some final ∧ final.emitted.Perm chainFamily ∧
      final.graph.gState.lookup "m" = some [3] := by
  have feeds : (chainCalls.filterMap message).Perm chainFamily := reverse_perm chainFamily
  obtain ⟨final, reached, emitted, _, _, _, _, _, state⟩ :=
    closed_family_emitted chainFamily chainFamily_closed chainCalls (by decide) feeds
  have written : ∃ gvnode ∈ decodedNodes chainFamily, ∃ wkv ∈ gvnode.writeSet.lookup "m", wkv.value = [3] := by decide
  exact ⟨final, reached, emitted, (state "m" [3]).mpr written⟩

end Pobl.BlockCutter
