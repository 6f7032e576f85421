import Pobl.Proof.Graph.Steps
import Pobl.Proof.Graph.Termination

namespace Pobl.Partialorder

open Library Protos TxConsensusGraph List

variable {graph graph' : TxConsensusGraph} {txCN : NodeRef} {waitTxcn : WaitTxConsensusNode} {txid : TxId}
  {ancestors : List TxId}

/-- The node is in the map `TxCNs`, so no later node has taken its identifier. -/
def InTxCNs (graph : TxConsensusGraph) (target : NodeRef) : Prop :=
  graph.txCNs.lookup (graph.txIdOf target) = some target

/-- Each missing ancestor of a node in `TxCNs` has a wait entry that points back to the node. -/
structure WaitSets (graph : TxConsensusGraph) : Prop where
  nodup : ∀ target < graph.nodes.size, (graph.node target).waitPTX.Nodup
  known : ∀ target, InTxCNs graph target → ∀ txid ∈ (graph.node target).waitPTX,
    ∃ waitTxcn, graph.waitUnChoosedTxCNs.lookup txid = some waitTxcn ∧
      waitTxcn.childWait.lookup (graph.txIdOf target) = some target

/-- The change keeps the missing ancestors of all nodes, and the wait entries that point back. -/
structure KeepsWaits (graph graph' : TxConsensusGraph) : Prop where
  size : graph'.nodes.size = graph.nodes.size
  txIdOf : ∀ target, graph'.txIdOf target = graph.txIdOf target
  waitPTX : ∀ target, (graph'.node target).waitPTX = (graph.node target).waitPTX
  waits : ∀ txid waitTxcn, graph.waitUnChoosedTxCNs.lookup txid = some waitTxcn →
    ∃ waitTxcn', graph'.waitUnChoosedTxCNs.lookup txid = some waitTxcn' ∧ waitTxcn'.childWait = waitTxcn.childWait
  txCNs : ∀ txid target, graph'.txCNs.lookup txid = some target → graph.txCNs.lookup txid = some target

namespace KeepsWaits

variable (graph)

theorem refl : KeepsWaits graph graph :=
  ⟨rfl, fun _ => rfl, fun _ => rfl, fun _ waitTxcn found => ⟨waitTxcn, found, rfl⟩, fun _ _ present => present⟩

theorem trans {first second third : TxConsensusGraph} (earlier : KeepsWaits first second)
    (later : KeepsWaits second third) : KeepsWaits first third where
  size := later.size.trans earlier.size
  txIdOf target := (later.txIdOf target).trans (earlier.txIdOf target)
  waitPTX target := (later.waitPTX target).trans (earlier.waitPTX target)
  waits txid waitTxcn found := by
    obtain ⟨middle, foundMiddle, same⟩ := earlier.waits txid waitTxcn found
    obtain ⟨last, foundLast, sameLast⟩ := later.waits txid middle foundMiddle
    exact ⟨last, foundLast, sameLast.trans same⟩
  txCNs txid target present := earlier.txCNs txid target (later.txCNs txid target present)

theorem modifyNode (target : NodeRef) (change : TxConsensusNode → TxConsensusNode)
    (kept : ∀ node, (change node).choosedNode.txId = node.choosedNode.txId ∧
      (change node).waitPTX = node.waitPTX) : KeepsWaits graph (graph.modifyNode target change) := by
  have node : ∀ other, ((graph.modifyNode target change).node other).choosedNode.txId =
      (graph.node other).choosedNode.txId ∧
      ((graph.modifyNode target change).node other).waitPTX = (graph.node other).waitPTX := by
    intro other
    rw [node_modifyNode]
    split
    next same =>
      rw [same]
      exact kept _
    · exact ⟨rfl, rfl⟩
  exact ⟨rfl, fun other => (node other).1, fun other => (node other).2,
    fun _ waitTxcn found => ⟨waitTxcn, found, rfl⟩, fun _ _ present => present⟩

theorem setState (target : NodeRef) (state : NodeState) : KeepsWaits graph (graph.setState target state) := by
  obtain ⟨size, names, waitPTX, waits, txCNs⟩ := modifyNode graph target
    (fun node => { node with state := state }) (fun _ => ⟨rfl, rfl⟩)
  exact ⟨size, names, waitPTX, waits, txCNs⟩

variable {graph}

theorem addWait {diff : Bool} {choosed : Option NodeRef}
    (absent : graph.waitUnChoosedTxCNs.lookup txid = none) : KeepsWaits graph (graph.addWait txid diff choosed) := by
  refine ⟨rfl, fun _ => rfl, fun _ => rfl, ?_, fun _ _ present => present⟩
  intro name waitTxcn found
  refine ⟨waitTxcn, ?_, rfl⟩
  rw [waits_addWait, if_neg]
  · exact found
  · intro same
    rw [same, absent] at found
    cases found

theorem setWait (waitTxcn' : WaitTxConsensusNode) (found : graph.waitUnChoosedTxCNs.lookup txid = some waitTxcn)
    (same : waitTxcn'.childWait = waitTxcn.childWait) : KeepsWaits graph (graph.setWait txid waitTxcn') := by
  refine ⟨rfl, fun _ => rfl, fun _ => rfl, ?_, fun _ _ present => present⟩
  intro name entry lookup
  rw [waits_setWait]
  split
  next self =>
    rw [self, found, Option.some.injEq] at lookup
    exact ⟨waitTxcn', rfl, lookup ▸ same⟩
  · exact ⟨entry, lookup, rfl⟩

theorem enlisted (change : Enlisted graph graph' txCN) : KeepsWaits graph graph' := by
  refine ⟨change.size, fun target => congrArg GVNode.txId (change.nodes target).1,
    fun target => (change.nodes target).2.2.2, ?_, ?_⟩
  · intro txid waitTxcn found
    rw [change.waits]
    exact ⟨waitTxcn, found, rfl⟩
  · rw [change.present]
    exact fun _ _ present => present

theorem erase (kept : KeepsWaits graph graph') (txid : TxId) :
    KeepsWaits graph { graph' with txCNs := graph'.txCNs.erase txid } := by
  refine { kept with txCNs := fun name target present => ?_ }
  exact kept.txCNs name target (GoMap.of_lookup_erase present).2

variable (graph)

theorem addTombstone (txid : TxId) (txCN : NodeRef) : KeepsWaits graph (graph.addTombstone txid txCN) := by
  unfold TxConsensusGraph.addTombstone
  split
  next absent => exact addWait absent
  · exact refl graph

theorem ensureWait (ptxid : TxId) : KeepsWaits graph (Partialorder.ensureWait graph ptxid) := by
  unfold Partialorder.ensureWait
  split
  next absent => exact addWait absent
  · exact refl graph

theorem countChangedState (amount : Int) : KeepsWaits graph (graph.countChangedState amount) :=
  ⟨rfl, fun _ => rfl, fun _ => rfl, fun _ waitTxcn found => ⟨waitTxcn, found, rfl⟩, fun _ _ present => present⟩

theorem reject (txCN : NodeRef) : KeepsWaits graph ((graph.countChangedState 1).setState txCN .changedState) :=
  (countChangedState graph 1).trans (setState _ txCN .changedState)

theorem rejectWrites (txCN : NodeRef) (graph : TxConsensusGraph) :
    KeepsWaits graph (Partialorder.rejectWrites txCN graph) :=
  ((reject graph txCN).trans (addTombstone _ (graph.txIdOf txCN) txCN)).erase _

theorem checkWait (txCN : NodeRef) (graph : TxConsensusGraph) :
    KeepsWaits graph (Partialorder.checkWait txCN graph) := by
  have rejected : ∀ (current : TxConsensusGraph) (condition : Prop) [Decidable condition],
      KeepsWaits graph current → current.waitUnChoosedTxCNs = graph.waitUnChoosedTxCNs →
      KeepsWaits graph (if condition then current.setState txCN .changedState else current) ∧
        (if condition then current.setState txCN .changedState else current).waitUnChoosedTxCNs =
          graph.waitUnChoosedTxCNs := by
    intro current condition _ kept same
    split
    · exact ⟨kept.trans (setState current txCN .changedState), same⟩
    · exact ⟨kept, same⟩
  unfold Partialorder.checkWait
  dsimp only
  obtain ⟨first, firstWaits⟩ := rejected graph ((graph.node txCN).choosedNode.consensusState = 3) (refl graph) rfl
  split
  next absent =>
    split
    next three =>
      rw [if_pos three] at first
      exact first.trans (addWait absent)
    next other =>
      rw [if_neg other] at first
      exact first
  next waitTxcn found =>
    obtain ⟨second, secondWaits⟩ := rejected _ (waitTxcn.diffWaitWKV = true) first firstWaits
    generalize (if waitTxcn.diffWaitWKV = true then _ else _) = judged at second secondWaits ⊢
    split
    · have lookup : (judged.setState txCN .changedState).waitUnChoosedTxCNs.lookup
          (graph.node txCN).choosedNode.txId = some waitTxcn :=
        (congrArg (AList.lookup _) secondWaits).trans found
      exact (second.trans (setState judged txCN .changedState)).trans (setWait _ lookup rfl)
    · exact second

theorem resolveConsensus (order : RangeOrder RangeSite) (txCN : NodeRef) (graph : TxConsensusGraph) :
    KeepsWaits graph (Partialorder.resolveConsensus order txCN graph) := by
  unfold Partialorder.resolveConsensus
  dsimp only
  split
  · split
    · exact (reject graph txCN).trans (addTombstone _ (graph.node txCN).choosedNode.txId txCN)
    · exact modifyNode graph txCN _ fun _ => ⟨rfl, rfl⟩
  · exact refl graph

theorem visitUNParent (txCN : NodeRef) (graph : TxConsensusGraph) (ptxid : TxId) :
    KeepsWaits graph (Partialorder.visitUNParent txCN graph ptxid) := by
  unfold Partialorder.visitUNParent
  split
  · dsimp only
    split
    · exact (ensureWait graph ptxid).trans (enlisted (enlisted_registerUN _ _ txCN ptxid))
    · exact ensureWait graph ptxid
  · split
    · exact enlisted (enlisted_registerUN _ _ txCN ptxid)
    · exact refl graph

/-- The commit of a node and the copy of its writes keep the bookkeeping. -/
theorem expandDelete (dtxcn : NodeRef) : KeepsWaits graph (Partialorder.expandDelete graph dtxcn).1 := by
  unfold Partialorder.expandDelete deleteWrites
  split <;> exact ⟨rfl, fun _ => rfl, fun _ => rfl, fun _ waitTxcn found => ⟨waitTxcn, found, rfl⟩,
    fun _ _ present => present⟩

theorem commit (target : NodeRef) : KeepsWaits graph (graph.commit target) := by
  obtain ⟨size, names, waitPTX, waits, txCNs⟩ := setState graph target .committed
  exact ⟨size, names, waitPTX, waits, txCNs⟩

theorem perform (task : Task) : KeepsWaits graph (task.perform graph).1 := by
  have released : ∀ dropped child, KeepsWaits graph dropped →
      KeepsWaits graph (if (dropped.node child).parentNum = 0 then
        Partialorder.expandDelete (dropped.commit child) child else (dropped, [])).1 := by
    intro dropped child kept
    split
    · exact (kept.trans (commit dropped child)).trans (expandDelete _ child)
    · exact kept
  cases task with
  | releaseUN txid child => exact released _ child (modifyNode graph child _ fun _ => ⟨rfl, rfl⟩)
  | release txid child => exact released _ child (modifyNode graph child _ fun _ => ⟨rfl, rfl⟩)
  | branch txid dtxcn =>
    unfold Task.perform
    dsimp only
    split <;> exact refl graph
  | abort child =>
    unfold Task.perform
    dsimp only
    split
    · exact (setState graph child .changedState).trans (expandDelete _ child)
    · exact refl graph

variable {graph}

theorem finish {final : TxConsensusGraph} (done : Partialorder.finish txCN graph = some final) :
    KeepsWaits graph final := by
  refine finish_invariant (fun current _ => KeepsWaits graph current) ?_ (refl graph) ?_ ?_ done
  · exact fun current task _ known => known.trans (perform current task)
  · exact fun _ _ => (commit graph txCN).trans (expandDelete _ txCN)
  · exact fun _ => expandDelete graph txCN

end KeepsWaits

namespace WaitSets

theorem keep (waitSets : WaitSets graph) (kept : KeepsWaits graph graph') : WaitSets graph' := by
  obtain ⟨size, names, waitPTX, waits, txCNs⟩ := kept
  refine ⟨?_, ?_⟩
  · simp only [size, waitPTX]
    exact waitSets.nodup
  · intro target present txid member
    rw [waitPTX] at member
    have before : InTxCNs graph target := txCNs _ _ (names target ▸ present)
    obtain ⟨waitTxcn, found, points⟩ := waitSets.known target before txid member
    obtain ⟨waitTxcn', found', same⟩ := waits txid waitTxcn found
    exact ⟨waitTxcn', found', by rw [same, names]; exact points⟩

theorem newNode (waitSets : WaitSets graph) (bounded : Bounded graph []) (choosed : GVNode) :
    WaitSets (graph.newNode choosed) := by
  have old : ∀ target < graph.nodes.size, (graph.newNode choosed).node target = graph.node target :=
    newNode_old graph choosed
  refine ⟨?_, ?_⟩
  · intro target inside
    rcases Nat.lt_succ_iff_lt_or_eq.mp inside with below | same
    · rw [old target below]
      exact waitSets.nodup target below
    · rw [same, node_newNode_new]
      exact nodup_nil
  · intro target present txid member
    have below : target < graph.nodes.size := (bounded.present _ target present).1
    have name := txIdOf_newNode_old graph choosed target below
    rw [old target below] at member
    unfold InTxCNs at present
    rw [name] at present ⊢
    exact waitSets.known target present txid member

end WaitSets

/-- The wait sets while a node enters the graph. Only the node itself is filed under its identifier. -/
structure EnteringWaits (txCN : NodeRef) (graph : TxConsensusGraph) : Prop extends WaitSets graph where
  owner : ∀ other, graph.txCNs.lookup (graph.txIdOf txCN) = some other → other = txCN

namespace EnteringWaits

theorem start (waitSets : WaitSets graph) (new : (graph.node txCN).waitPTX = []) :
    EnteringWaits txCN { graph with txCNs := graph.txCNs.insert (graph.txIdOf txCN) txCN } := by
  refine ⟨⟨waitSets.nodup, ?_⟩, ?_⟩
  · intro target present txid member
    change (graph.txCNs.insert (graph.txIdOf txCN) txCN).lookup (graph.txIdOf target) = some target at present
    change txid ∈ (graph.node target).waitPTX at member
    rcases GoMap.of_lookup_insert present with ⟨_, rfl⟩ | ⟨_, present⟩
    · rw [new] at member
      cases member
    · exact waitSets.known target present txid member
  · intro other present
    exact (Option.some.inj ((AList.lookup_insert _).symm.trans present)).symm

theorem keep (entering : EnteringWaits txCN graph) (kept : KeepsWaits graph graph') : EnteringWaits txCN graph' where
  toWaitSets := entering.toWaitSets.keep kept
  owner other present := by
    rw [kept.txIdOf] at present
    exact entering.owner other (kept.txCNs _ _ present)

/-- A node notes one more missing ancestor, and the wait entry of the ancestor notes the node. -/
theorem note (entering : EnteringWaits txCN graph) (inside : txCN < graph.nodes.size) {ptxid : TxId}
    (waitTxcn' : WaitTxConsensusNode) (found : graph.waitUnChoosedTxCNs.lookup ptxid = some waitTxcn)
    (same : waitTxcn'.childWait = waitTxcn.childWait.insert (graph.txIdOf txCN) txCN) :
    EnteringWaits txCN ((graph.modifyNode txCN fun node =>
      { node with waitPTX := node.waitPTX.insert ptxid }).setWait ptxid waitTxcn') := by
  have node : ∀ target, ((graph.modifyNode txCN fun node =>
      { node with waitPTX := node.waitPTX.insert ptxid }).setWait ptxid waitTxcn').node target =
      if target = txCN then { graph.node txCN with waitPTX := (graph.node txCN).waitPTX.insert ptxid }
      else graph.node target := by
    intro target
    rw [node_setWait, node_modifyNode]
  have names : ∀ target, ((graph.modifyNode txCN fun node =>
      { node with waitPTX := node.waitPTX.insert ptxid }).setWait ptxid waitTxcn').txIdOf target =
      graph.txIdOf target := by
    intro target
    unfold txIdOf
    rw [node]
    split
    next self => rw [self]
    · rfl
  refine ⟨⟨?_, ?_⟩, ?_⟩
  · intro target targetIn
    rw [node]
    split
    · exact (entering.nodup txCN inside).insert
    · exact entering.nodup target targetIn
  · intro target present txid member
    unfold InTxCNs at present
    rw [names] at present
    have old : txid = ptxid ∧ target = txCN ∨ txid ∈ (graph.node target).waitPTX := by
      rw [node] at member
      split at member
      next self =>
        rw [self]
        rcases mem_insert_iff.mp member with new | old
        · exact .inl ⟨new, rfl⟩
        · exact .inr old
      · exact .inr member
    rw [names]
    rw [waits_setWait]
    by_cases self : txid = ptxid
    · rw [if_pos self]
      refine ⟨waitTxcn', rfl, ?_⟩
      rw [same, GoMap.lookup_insert_apply]
      by_cases equal : graph.txIdOf target = graph.txIdOf txCN
      · rw [if_pos equal, entering.owner target (equal ▸ present)]
      · rw [if_neg equal]
        rcases old with ⟨_, new⟩ | old
        · exact absurd (congrArg graph.txIdOf new) equal
        · obtain ⟨entry, lookup, points⟩ := entering.known target present txid old
          rw [self, found, Option.some.injEq] at lookup
          exact lookup ▸ points
    · rw [if_neg self]
      rcases old with ⟨new, _⟩ | old
      · exact absurd new self
      · exact entering.known target present txid old
  · intro other present
    rw [names] at present
    exact entering.owner other present

end EnteringWaits

/-- The expectations on a missing parent do not touch its waiting children. -/
theorem expectKV_childWait (entries : List (GoEntry Value)) (waitTxcn : WaitTxConsensusNode) :
    (expectKV entries waitTxcn).childWait = waitTxcn.childWait := by
  induction entries generalizing waitTxcn with
  | nil => rfl
  | cons entry rest ih =>
    unfold expectKV
    split
    · exact ih _
    · split
      · rfl
      · exact ih _

/-- The inheritance of missing ancestors finds a wait entry for each of them. -/
theorem inheritWaitPTX_returns (entering : EnteringWaits txCN graph) (inside : txCN < graph.nodes.size)
    (known : ∀ txid ∈ ancestors, (graph.waitUnChoosedTxCNs.lookup txid).isSome) :
    ∃ final, inheritWaitPTX (graph.txIdOf txCN) txCN ancestors graph = some final ∧ EnteringWaits txCN final := by
  induction ancestors generalizing graph with
  | nil => exact ⟨graph, rfl, entering⟩
  | cons waitptx rest ih =>
    obtain ⟨waitTxcn, found⟩ := Option.isSome_iff_exists.mp (known waitptx mem_cons_self)
    have noted := entering.note inside
      { waitTxcn with childWait := waitTxcn.childWait.insert (graph.txIdOf txCN) txCN } found rfl
    unfold inheritWaitPTX
    dsimp only
    have lookup : (graph.modifyNode txCN fun node =>
        { node with waitPTX := node.waitPTX.insert waitptx }).waitUnChoosedTxCNs.lookup waitptx =
          some waitTxcn := found
    have name : ((graph.modifyNode txCN fun node =>
        { node with waitPTX := node.waitPTX.insert waitptx }).setWait waitptx
          { waitTxcn with childWait := waitTxcn.childWait.insert (graph.txIdOf txCN) txCN }).txIdOf txCN =
        graph.txIdOf txCN := by
      unfold txIdOf
      rw [node_setWait, node_modifyNode, if_pos rfl]
    rw [lookup]
    have later := ih noted inside (by
      intro txid member
      rw [waits_setWait]
      split
      · rfl
      · exact known txid (mem_cons_of_mem _ member))
    rw [name] at later
    exact later

/-- The visit of a missing parent notes it as an ancestor. -/
theorem visitMissingParent_waitSets (order : RangeOrder RangeSite) (ptxid : TxId) (ptx : PtxKV)
    (entering : EnteringWaits txCN graph) (inside : txCN < graph.nodes.size) :
    EnteringWaits txCN (visitMissingParent order txCN ptxid ptx graph).1 := by
  have ensured := KeepsWaits.ensureWait graph ptxid
  obtain ⟨waitTxcn, found⟩ := ensureWait_lookup graph ptxid
  unfold visitMissingParent
  dsimp only
  rw [found, Option.getD_some, ← ensured.txIdOf]
  have noted := fun waitTxcn' => (entering.keep ensured).note (ensured.size.symm ▸ inside) waitTxcn' found
  split
  · refine (noted _ ?_).keep (.enlisted (enlisted_register _ _ txCN ptxid))
    exact expectKV_childWait _ _
  · exact (noted _ rfl).keep (.reject _ txCN)

theorem WaitSets.isSome (waitSets : WaitSets graph) {target : NodeRef} (present : InTxCNs graph target) :
    ∀ txid ∈ (graph.node target).waitPTX, (graph.waitUnChoosedTxCNs.lookup txid).isSome := by
  intro txid member
  obtain ⟨waitTxcn, found, _⟩ := waitSets.known target present txid member
  rw [found]
  rfl

theorem KeepsWaits.isSome (kept : KeepsWaits graph graph')
    (known : ∀ txid ∈ ancestors, (graph.waitUnChoosedTxCNs.lookup txid).isSome) :
    ∀ txid ∈ ancestors, (graph'.waitUnChoosedTxCNs.lookup txid).isSome := by
  intro txid member
  obtain ⟨waitTxcn, found⟩ := Option.isSome_iff_exists.mp (known txid member)
  obtain ⟨waitTxcn', found', _⟩ := kept.waits txid waitTxcn found
  rw [found']
  rfl

theorem followParent_returns {ptxcn : NodeRef} (ptxid : TxId) (ptx : PtxKV) (entering : EnteringWaits txCN graph)
    (inside : txCN < graph.nodes.size)
    (known : ∀ txid ∈ (graph.node ptxcn).waitPTX, (graph.waitUnChoosedTxCNs.lookup txid).isSome) :
    ∃ result, followParent txCN ptxcn ptxid ptx graph = some result ∧ EnteringWaits txCN result.1 := by
  have inherits : ∀ next, KeepsWaits graph next → ∀ stop : Bool, ∃ result : TxConsensusGraph × Bool,
      (inheritWaitPTX (graph.txIdOf txCN) txCN (graph.node ptxcn).waitPTX next).map
        (fun graph => (graph, stop)) = some result ∧ EnteringWaits txCN result.1 := by
    intro next kept stop
    obtain ⟨final, done, after⟩ := inheritWaitPTX_returns (entering.keep kept)
      (kept.size.symm ▸ inside) (kept.isSome known)
    rw [kept.txIdOf] at done
    exact ⟨(final, stop), by rw [done]; rfl, after⟩
  unfold followParent
  dsimp only
  split
  · have judged : KeepsWaits graph (if stale graph.gState ptx then
        (graph.countChangedState 1).setState txCN .changedState else graph) := by
      split
      · exact .reject graph txCN
      · exact .refl graph
    generalize (if stale graph.gState ptx then
      (graph.countChangedState 1).setState txCN .changedState else graph) = next at judged ⊢
    split
    · have marked := judged.trans (.addTombstone next (graph.txIdOf txCN) txCN)
      exact ⟨_, rfl, entering.keep (marked.erase _)⟩
    · exact ⟨_, rfl, entering.keep judged⟩
  · exact ⟨_, rfl, entering⟩
  · exact inherits _ (.enlisted (enlisted_register graph _ txCN ptxid)) false
  · exact inherits _ (.reject graph txCN) true

/-- The visit of a parent returns. -/
theorem visitParent_returns (order : RangeOrder RangeSite) (ptxid : TxId) (ptx : PtxKV)
    (entering : EnteringWaits txCN graph) (ready : Ready txCN graph) :
    ∃ result, visitParent order txCN ptxid ptx graph = some result ∧ EnteringWaits txCN result.1 := by
  unfold visitParent
  split
  · exact ⟨_, rfl, visitMissingParent_waitSets order ptxid ptx entering ready.inside⟩
  next ptxcn found =>
    have present : InTxCNs graph ptxcn := by
      unfold InTxCNs
      rw [(ready.present ptxid ptxcn found).2]
      exact found
    have known := entering.isSome present
    unfold visitPresentParent
    split
    · have rejected := KeepsWaits.rejectWrites txCN graph
      -- A node that is its own parent is no longer in the map here, but its ancestors still have entries.
      exact followParent_returns ptxid ptx (entering.keep rejected) (rejected.size.symm ▸ ready.inside)
        (rejected.waitPTX ptxcn ▸ rejected.isSome known)
    · exact followParent_returns ptxid ptx entering ready.inside known

/-- The loop over the parents returns. -/
theorem visitParents_returns {order : RangeOrder RangeSite} {entries : List (GoEntry PtxKV)}
    (entering : EnteringWaits txCN graph) (ready : Ready txCN graph)
    (named : ∀ entry ∈ entries, (graph.node txCN).choosedNode.pTx.lookup entry.1 = some entry.2) :
    ∃ final, visitParents order txCN entries graph = some final ∧ EnteringWaits txCN final := by
  induction entries generalizing graph with
  | nil => exact ⟨graph, rfl, entering⟩
  | cons entry rest ih =>
    obtain ⟨⟨next, stop⟩, visited, after⟩ := visitParent_returns order entry.1 entry.2 entering ready
    have moves := visitParent_moves ready (named entry mem_cons_self) visited
    unfold visitParents
    rw [visited]
    cases stop with
    | true => exact ⟨next, rfl, after⟩
    | false =>
      apply ih after (moves.ready ready)
      intro other member
      rw [(moves.keeps.2 txCN).1]
      exact named other (mem_cons_of_mem _ member)

/-- The loop over the waiting children removes the identifier from each of them. -/
theorem clearWaitPTX_waitPTX (txid : TxId) (entries : List (GoEntry NodeRef)) (graph : TxConsensusGraph)
    (target : NodeRef) (nodup : (graph.node target).waitPTX.Nodup) :
    ((entries.foldl (fun graph entry => graph.modifyNode entry.2 fun node =>
      { node with waitPTX := node.waitPTX.erase txid }) graph).node target).waitPTX =
      if target ∈ entries.map (·.2) then (graph.node target).waitPTX.erase txid
      else (graph.node target).waitPTX := by
  induction entries generalizing graph with
  | nil => simp
  | cons entry rest ih =>
    have first : ((graph.modifyNode entry.2 fun node =>
        { node with waitPTX := node.waitPTX.erase txid }).node target).waitPTX =
        if target = entry.2 then (graph.node target).waitPTX.erase txid
        else (graph.node target).waitPTX := by
      rw [node_modifyNode]
      split
      next same => rw [same]
      · rfl
    have twice : ((graph.node target).waitPTX.erase txid).erase txid = (graph.node target).waitPTX.erase txid :=
      erase_of_not_mem fun member => ((List.Nodup.mem_erase_iff nodup).mp member).1 rfl
    rw [foldl_cons, ih _ (by
      rw [first]
      split
      · exact nodup.erase txid
      · exact nodup), first]
    by_cases here : target = entry.2
    · rw [if_pos here, if_pos (mem_map.mpr ⟨entry, mem_cons_self, here.symm⟩), twice, ite_self]
    · rw [if_neg here]
      apply if_congr _ rfl rfl
      exact ⟨mem_cons_of_mem _, fun member => (mem_cons.mp member).resolve_left here⟩

theorem clearWaitPTX_waits (txid : TxId) (entries : List (GoEntry NodeRef)) (graph : TxConsensusGraph) :
    (entries.foldl (fun graph entry => graph.modifyNode entry.2 fun node =>
      { node with waitPTX := node.waitPTX.erase txid }) graph).waitUnChoosedTxCNs =
      graph.waitUnChoosedTxCNs := by
  induction entries generalizing graph with
  | nil => rfl
  | cons entry rest ih => exact ih _

/-- The hand-over touches only the wait entry of the node. -/
theorem takeWait_waits_other (txCN : NodeRef) (graph : TxConsensusGraph) (other : txid ≠ graph.txIdOf txCN) :
    (takeWait txCN graph).waitUnChoosedTxCNs.lookup txid = graph.waitUnChoosedTxCNs.lookup txid := by
  unfold takeWait
  dsimp only
  split
  · rfl
  · split
    · rw [AList.lookup_erase_ne other, clearWaitPTX_waits]
      rfl
    · unfold setWait countChangedState
      rw [AList.lookup_insert_ne other]
      rfl

/-- The node that takes over its wait entry keeps the missing ancestors of all nodes known. -/
theorem takeWait_waitSets (waitSets : WaitSets graph) (bounded : Bounded graph []) :
    WaitSets (takeWait txCN graph) := by
  unfold takeWait
  dsimp only
  split
  · exact waitSets
  next waitTxcn found =>
    have kept := KeepsWaits.modifyNode graph txCN
      (fun node => { node with childNodes := waitTxcn.childNodes }) (fun _ => ⟨rfl, rfl⟩)
    have moved := waitSets.keep kept
    generalize (graph.modifyNode txCN fun node => { node with childNodes := waitTxcn.childNodes }) = current at *
    obtain ⟨entry, lookup, same⟩ := kept.waits _ waitTxcn found
    split
    · have noted := clearWaitPTX_noted (graph.txIdOf txCN) waitTxcn.childWait.entries current
      have waitPTX := fun target inside => clearWaitPTX_waitPTX (graph.txIdOf txCN)
        waitTxcn.childWait.entries current target (moved.nodup target inside)
      have waits := clearWaitPTX_waits (graph.txIdOf txCN) waitTxcn.childWait.entries current
      generalize waitTxcn.childWait.entries.foldl (fun current entry => current.modifyNode entry.2
        fun node => { node with waitPTX := node.waitPTX.erase (graph.txIdOf txCN) }) current =
        cleared at noted waitPTX waits ⊢
      have name : ∀ target, cleared.txIdOf target = current.txIdOf target := by
        intro target
        unfold txIdOf
        rw [noted.nodes target]
      refine ⟨?_, ?_⟩
      · intro target inside
        change (cleared.node target).waitPTX.Nodup
        have old : target < current.nodes.size := noted.size ▸ inside
        rw [waitPTX target old]
        split
        · exact (moved.nodup target old).erase _
        · exact moved.nodup target old
      · intro target present txid member
        have before : InTxCNs current target := by
          unfold InTxCNs
          rw [← name, ← noted.present]
          exact present
        have old : target < current.nodes.size := by
          rw [kept.size]
          exact (bounded.present _ target (kept.txCNs _ _ before)).1
        change txid ∈ (cleared.node target).waitPTX at member
        rw [waitPTX target old] at member
        have waiting : txid ∈ (current.node target).waitPTX := by
          split at member
          · exact mem_of_mem_erase member
          · exact member
        obtain ⟨known, foundKnown, points⟩ := moved.known target before txid waiting
        have other : txid ≠ graph.txIdOf txCN := by
          intro self
          rw [self, lookup, Option.some.injEq] at foundKnown
          rw [← foundKnown, same] at points
          rw [self, if_pos (mem_map.mpr
            ⟨⟨current.txIdOf target, target⟩, (GoMap.mem_entries_iff _ _).mpr points, rfl⟩)] at member
          exact ((List.Nodup.mem_erase_iff (moved.nodup target old)).mp member).1 rfl
        refine ⟨known, ?_, (congrArg (AList.lookup · known.childWait) (name target)).trans points⟩
        rw [AList.lookup_erase_ne other, waits]
        exact foundKnown
    · exact moved.keep ((KeepsWaits.setWait { waitTxcn with choosedNode := some txCN } lookup
        same.symm).trans (KeepsWaits.countChangedState _ _))

theorem visitUNParents_waitSets (ptxids : List TxId) (waitSets : WaitSets graph) :
    WaitSets (ptxids.foldl (visitUNParent txCN) graph) := by
  induction ptxids generalizing graph with
  | nil => exact waitSets
  | cons ptxid rest ih => exact ih (waitSets.keep (KeepsWaits.visitUNParent txCN graph ptxid))

section Returns

variable (order : RangeOrder RangeSite) (waitSets : WaitSets graph) (bounded : Bounded graph [])
  (inside : txCN < graph.nodes.size) (new : (graph.node txCN).waitPTX = [])

include waitSets bounded inside new

theorem enterGraph_returns (alive : (graph.node txCN).state ≠ .changedState) :
    ∃ final, enterGraph order txCN graph = some final ∧ WaitSets final := by
  have ready := Ready.enter bounded inside alive
  have named : ∀ entry ∈ order.visit .pTx (graph.node txCN).choosedNode.pTx.entries,
      (graph.node txCN).choosedNode.pTx.lookup entry.1 = some entry.2 := by
    intro entry member
    rw [order.mem_visit] at member
    exact (GoMap.mem_entries_iff _ _).mp member
  obtain ⟨visited, loop, after⟩ := visitParents_returns (EnteringWaits.start waitSets new) ready named
  refine ⟨_, Option.map_eq_some_iff.mpr ⟨visited, loop, rfl⟩, ?_⟩
  split
  · exact visitUNParents_waitSets _ after.toWaitSets
  · exact after.toWaitSets

/-- The judgement of a node returns, or it panics in consensus state 2. -/
theorem prepareTX_returns : (∃ prepared, prepareTX order txCN graph = some prepared ∧ WaitSets prepared) ∨
    prepareTX order txCN graph = none ∧ (graph.node txCN).choosedNode.consensusState = 2 := by
  have checked := KeepsWaits.checkWait txCN graph
  have resolved := checked.trans (KeepsWaits.resolveConsensus order txCN _)
  have steps : Steps txCN (graph, []) (resolveConsensus order txCN (checkWait txCN graph), []) :=
    Relation.ReflTransGen.trans (checkWait_moves txCN graph).steps (resolveConsensus_steps order txCN _)
  unfold prepareTX
  dsimp only
  split
  · split
    next panics =>
      rw [consensusPanics, ((checkWait_moves txCN graph).keeps.2 txCN).1] at panics
      exact .inr ⟨rfl, panics.1⟩
    · split
      next alive =>
        obtain ⟨boundedAfter, insideAfter⟩ := steps.bounded bounded inside
        exact .inl (enterGraph_returns order (waitSets.keep resolved) boundedAfter insideAfter
          ((resolved.waitPTX txCN).trans new) alive)
      · exact .inl ⟨_, rfl, waitSets.keep resolved⟩
  · exact .inl ⟨_, rfl, waitSets.keep checked⟩

/-- A call of `ProcessTX` returns and keeps the wait sets, or it panics in consensus state 2. -/
theorem processTX_returns : (∃ final, processTX order txCN graph = some final ∧ WaitSets final) ∨
    processTX order txCN graph = none ∧ (graph.node txCN).choosedNode.consensusState = 2 := by
  rcases prepareTX_returns order waitSets bounded inside new with ⟨prepared, first, after⟩ | ⟨stops, two⟩
  case inr =>
    refine .inr ⟨?_, two⟩
    rw [processTX, stops, Option.bind_none]
  obtain ⟨boundedAfter, insideAfter⟩ := (prepareTX_steps bounded inside first).bounded bounded inside
  have taken : WaitSets (if (graph.waitUnChoosedTxCNs.lookup (graph.txIdOf txCN)).isSome then
      takeWait txCN prepared else prepared) := by
    split
    · exact takeWait_waitSets after boundedAfter
    · exact after
  have steps : Steps txCN (prepared, []) (if (graph.waitUnChoosedTxCNs.lookup
      (graph.txIdOf txCN)).isSome then takeWait txCN prepared else prepared, []) := by
    split
    · exact takeWait_steps txCN prepared
    · exact .refl
  obtain ⟨boundedTaken, insideTaken⟩ := steps.bounded boundedAfter insideAfter
  obtain ⟨final, done⟩ := finish_returns boundedTaken insideTaken
  refine .inl ⟨final, ?_, taken.keep (.finish done)⟩
  unfold processTX
  rw [first, Option.bind_some]
  exact done

end Returns

/-- The arrival of any transaction returns and keeps the wait sets, or it panics in consensus state 2. -/
theorem WaitSets.arrives (waitSets : WaitSets graph) (bounded : Bounded graph []) (order : RangeOrder RangeSite)
    (choosed : GVNode) :
    (∃ final, processTX order graph.nodes.size (graph.newNode choosed) = some final ∧ WaitSets final) ∨
      processTX order graph.nodes.size (graph.newNode choosed) = none ∧ choosed.consensusState = 2 := by
  have created := node_newNode_new graph choosed
  have returns := processTX_returns order (waitSets.newNode bounded choosed) (bounded.newNode choosed)
    (Nat.lt_succ_self _) (congrArg TxConsensusNode.waitPTX created)
  rwa [created] at returns

theorem WaitSets.arrives_decided (waitSets : WaitSets graph) (bounded : Bounded graph [])
    (order : RangeOrder RangeSite) {choosed : GVNode} (decided : choosed.consensusState ≠ 2) :
    ∃ final, processTX order graph.nodes.size (graph.newNode choosed) = some final ∧ WaitSets final :=
  (waitSets.arrives bounded order choosed).resolve_right fun stops => decided stops.2

end Pobl.Partialorder
