import Pobl.Proof.Chain.Contents
import Pobl.Proof.Chain.LedgerClosure
import Pobl.Proof.Graph.Unawaited

namespace Pobl.Etcdraft

open Library Protos Partialorder BlockCutter Chain List

/-- The normal messages in the blocks. -/
def transactions (blocks : List Block) : List Envelope :=
  (blocks.flatMap Block.data).filter fun env => decide (isConfig env = some false)

theorem transactions_append (first second : List Block) :
    transactions (first ++ second) = transactions first ++ transactions second := by
  simp only [transactions, flatMap_append, filter_append]

theorem transactions_normal {block : Block} (normal : ∀ env ∈ block.data, isConfig env = some false) :
    transactions [block] = block.data := by
  simpa [transactions] using normal

theorem transactions_none {block : Block} (none : ∀ env ∈ block.data, isConfig env ≠ some false) :
    transactions [block] = [] := by
  simpa [transactions] using none

/-- The transactions that the graph has committed and that are not in the ledger yet. -/
def Chain.underway (c : Chain) : List Envelope :=
  transactions c.inFlight ++ c.leaving ++ c.receiver.tcg.readyBatch

/-- Each transaction of the ledger is a committed node that is filed under its identifier, and no transaction waits
for it. Each key of the state holds what the last transaction of the ledger, or of those on their way to it, that
writes the key has written. -/
structure Chain.AgreesWithLedger (c : Chain) : Prop where
  committed : ∀ env ∈ transactions c.ledger.blocks, ∃ target gvnode, processEnvForBC env = some gvnode ∧
    c.receiver.tcg.txCNs.lookup gvnode.txId = some target ∧ c.receiver.tcg.envelopeOf target = env ∧
    (c.receiver.tcg.node target).state = .committed
  unawaited : ∀ env ∈ transactions c.ledger.blocks, ∀ gvnode, processEnvForBC env = some gvnode →
    ∀ child, ¬ WaitsFor c.receiver.tcg child gvnode.txId
  state : ∀ key, c.receiver.tcg.gState.lookup key = replayEnvelopes (transactions c.ledger.blocks ++ c.underway) key

/-- The graph is fed normal messages with distinct identifiers, and no transaction waits for a committed one. -/
structure Indexed (graph : TxConsensusGraph) (cut : List Envelope) : Prop where
  fed : Fed graph cut
  unawaited : Unawaited graph
  normal : ∀ env ∈ arrivals graph, isConfig env = some false

/-- The arriving transaction has a fresh identifier, and its parents do not disagree on it. -/
def Distinct (order : RangeOrder RangeSite) (graph : TxConsensusGraph) (choosed : GVNode) : Prop :=
  Fresh graph choosed ∧ Unanimous order graph choosed

instance (order : RangeOrder RangeSite) (graph : TxConsensusGraph) (choosed : GVNode) :
    Decidable (Distinct order graph choosed) := inferInstanceAs (Decidable (_ ∧ _))

theorem Indexed.processTX {before final : TxConsensusGraph} {cut : List Envelope} {order : RangeOrder RangeSite}
    {choosed : GVNode} (indexed : Indexed before cut) (decodes : processEnvForBC choosed.txResult = some choosed)
    (distinct : Distinct order before choosed) (normal : isConfig choosed.txResult = some false)
    (done : processTX order before.nodes.size (before.newNode choosed) = some final) : Indexed final cut := by
  have bounded := indexed.fed.kept.1.toBounded
  obtain ⟨_, zero, noUN⟩ := processEnvForBC_origin decodes
  refine ⟨indexed.fed.processTX ⟨distinct.1, decodes⟩ distinct.2 done,
    processTX_unawaited bounded zero noUN done indexed.fed.kept.2 indexed.fed.filed indexed.unawaited distinct.1, ?_⟩
  rw [processTX_arrivals bounded done]
  exact forall_mem_append.mpr ⟨indexed.normal, forall_mem_singleton.mpr normal⟩

/-- The emitted transactions are committed nodes. -/
theorem Indexed.emitted {graph : TxConsensusGraph} {cut : List Envelope} {env : Envelope}
    (indexed : Indexed graph cut) (listed : env ∈ cut ++ graph.readyBatch) : ∃ target < graph.nodes.size,
    processEnvForBC env = some (graph.node target).choosedNode ∧ graph.envelopeOf target = env ∧
      (graph.node target).state = .committed ∧ (target, .changedState) ∉ graph.stateLog := by
  obtain ⟨⟨sound, recorded⟩, decoded, _⟩ := indexed.fed
  rw [recorded.batch] at listed
  obtain ⟨target, committed, rfl⟩ := mem_map.mp listed
  obtain ⟨inside, state⟩ := (sound.committedLog target).mp ((TxConsensusGraph.mem_commits graph target).mp committed)
  refine ⟨target, inside, decoded target inside, rfl, state, fun logged => ?_⟩
  have aborted := ((sound.changedLog target).mp logged).2
  rw [state] at aborted
  cases aborted

/-- The account of the transactions in the blocks. -/
def stateAccount : Account where
  invariant := Indexed
  condition order graph choosed := Distinct order graph choosed ∧ isConfig choosed.txResult = some false
  foreign data := ∀ env ∈ data, isConfig env ≠ some false
  track placed blocks := transactions blocks = placed
  initially := ⟨fed_initial, nofun, nofun⟩
  arrives decodes allowed indexed done := indexed.processTX decodes allowed.1 allowed.2 done
  cuts indexed := { indexed with fed := indexed.fed.flush }
  starts := rfl
  places {graph placed batch rest blocks number} indexed tracked := by
    have normal : ∀ env ∈ batch, isConfig env = some false := fun env listed =>
      indexed.normal env (mem_arrivals_of_emitted indexed.fed.kept.2
        (mem_append_left _ (mem_append_left _ (mem_append_right _ listed))))
    rw [transactions_append, tracked, transactions_normal normal]
  configures {placed blocks number payload} config tracked := by
    rw [transactions_append, tracked, transactions_none, append_nil]
    intro env listed normal
    rw [mem_singleton.mp listed, config] at normal
    cases normal
  grows foreign tracked := by
    rw [transactions_append, tracked, transactions_none foreign, append_nil]

/-- A balanced account gives the agreement. -/
theorem Chain.AgreesWithLedger.of_balanced {c : Chain} (balanced : stateAccount.Balanced c) : c.AgreesWithLedger := by
  obtain ⟨placed, indexed, tracked⟩ := balanced
  have split : placed = transactions c.ledger.blocks ++ transactions c.inFlight := by
    rw [← transactions_append]
    exact tracked.symm
  have emits : ∀ env ∈ transactions c.ledger.blocks, env ∈ placed ++ c.leaving ++ c.receiver.tcg.readyBatch := by
    intro env listed
    rw [split]
    exact mem_append_left _ (mem_append_left _ (mem_append_left _ listed))
  obtain ⟨⟨sound, recorded⟩, decoded, filed⟩ := indexed.fed
  refine ⟨?_, ?_, ?_⟩
  · intro env listed
    obtain ⟨target, inside, decodes, same, state, clean⟩ := indexed.emitted (emits env listed)
    exact ⟨target, _, decodes, filed.present target inside clean, same, state⟩
  · intro env listed gvnode decodes child
    obtain ⟨target, inside, node, _, state, clean⟩ := indexed.emitted (emits env listed)
    rw [decodes, Option.some.injEq] at node
    rw [node]
    exact indexed.unawaited.not_waitsFor filed inside clean state
  · have whole : transactions c.ledger.blocks ++ c.underway = placed ++ c.leaving ++ c.receiver.tcg.readyBatch := by
      rw [split, underway]
      simp only [append_assoc]
    intro key
    rw [whole, recorded.batch, replayEnvelopes_envelopeOf decoded recorded.commit_inside]
    exact recorded.state key

/-- The account is followed, and the messages in the pipeline are normal. -/
structure Chain.Indexing (opts : Options) (c : Chain) : Prop where
  follows : stateAccount.Follows opts c
  normal : c.Carries fun env => isConfig env = some false

theorem Chain.Indexing.step {opts : Options} {c next : Chain} {event : Event} (coherent : c.Coherent opts event)
    (distinct : event.Allows Distinct c)
    (own : ∀ data ∈ event.brought opts c, ∀ env ∈ data, isConfig env ≠ some false) (indexing : c.Indexing opts)
    (stepped : c.step opts event = some next) : next.Indexing opts := by
  refine ⟨indexing.follows.step coherent ⟨?_, own⟩ stepped, indexing.normal.step ?_ stepped⟩
  · intro order choosed received
    exact ⟨distinct order choosed received, indexing.normal.arrival received⟩
  · intro msg support env _ _ _ normal
    obtain ⟨same, kind⟩ := ordered_normal normal
    rwa [same]

/-- In every coherent run in which the blocks of others hold no transaction, and in which transactions arrive with
distinct identifiers, the graph agrees with the ledger. -/
theorem graph_agrees_with_ledger (opts : Options) (ledger : Ledger) (appliedIndex sequence : Nat)
    (events : List Event) (final : Chain)
    (empty : ∀ block ∈ ledger.blocks, ∀ env ∈ block.data, isConfig env ≠ some false)
    (coherent : Guarded (step opts) (Chain.Coherent opts) (newChain ledger appliedIndex sequence) events)
    (distinct : Guarded (step opts) (fun c event => event.Allows Distinct c)
      (newChain ledger appliedIndex sequence) events)
    (own : Guarded (step opts)
      (fun c event => ∀ data ∈ event.brought opts c, ∀ env ∈ data, isConfig env ≠ some false)
      (newChain ledger appliedIndex sequence) events)
    (reached : run (step opts) (newChain ledger appliedIndex sequence) events = some final)
    (running : final.Running) : final.AgreesWithLedger := by
  have guards := guarded_combine (fun _ _ => And.intro) (guarded_combine (fun _ _ => And.intro) coherent distinct) own
  have indexing := run_invariant (step opts) _ (fun c => c.Indexing opts)
    (fun _ _ _ guard => Chain.Indexing.step guard.1.1 guard.1.2 guard.2) events
    (newChain ledger appliedIndex sequence) final
    ⟨.initial opts ledger appliedIndex sequence empty, .initial _ ledger appliedIndex sequence, nofun⟩ guards reached
  exact .of_balanced (indexing.follows.balanced running)

def configTx : Envelope where
  payload := some ⟨some ⟨.decoded ⟨.config, "config"⟩⟩, none⟩
  sizeBytes := 1

/-- The node orders the parent, follows another leader that proposes a config block, and orders the child in its
next term. -/
def agreeingEvents : List Event :=
  [elects, submits parentTx, .sent, .received, processes 1, .forwarded, .commitC, .proposed,
    .applyC ⟨none, [.normal 1 (some ⟨1, [parentTx]⟩) none], 1, none⟩, deposes,
    .applyC ⟨none, [.normal 2 (some ⟨2, [configTx]⟩) none], 2, none⟩,
    .applyC ⟨some ⟨1, .leader⟩, [], 2, none⟩, submits childTx, .sent, .received, processes 1]

theorem graph_agrees_with_ledger_next_term : ∃ final,
    run (step sampleOptions) sampleChain agreeingEvents = some final ∧
    transactions final.ledger.blocks = [parentTx] ∧ final.underway = [childTx] ∧
    final.receiver.tcg.gState.lookup "k" = some [1] ∧ final.AgreesWithLedger := by
  refine exists_evaluated (by decide) fun final reached _ =>
    ⟨of_evaluated reached (by decide), of_evaluated reached (by decide), ?_⟩
  exact graph_agrees_with_ledger sampleOptions (Ledger.genesis []) 0 0 agreeingEvents final (by decide) (by decide)
    (by decide) (by decide) reached (of_evaluated reached (by decide))

/-- The node applies a block of another leader, restarts, becomes the leader and orders a child of a transaction in
this block. -/
def strandedEvents : List Event :=
  [.applyC ⟨some ⟨2, .follower⟩, [.normal 1 (some ⟨1, [parentTx]⟩) none], 1, none⟩, .restart 1,
    .applyC ⟨some ⟨1, .leader⟩, [], 1, none⟩, submits childTx, .sent, .received, processes 1]

/-- The parent is in the ledger and not in the graph, its writes are missing from the state, and the child waits
for it. -/
theorem child_waits_for_ledger : ∃ final, run (step sampleOptions) sampleChain strandedEvents = some final ∧
    transactions final.ledger.blocks = [parentTx] ∧ final.underway = [] ∧
    final.receiver.tcg.txCNs.lookup "p" = none ∧ WaitsFor final.receiver.tcg 0 "p" ∧
    final.receiver.tcg.gState.lookup "k" = none ∧
    replayEnvelopes (transactions final.ledger.blocks) "k" = some [1] ∧ ¬ final.AgreesWithLedger := by
  refine exists_evaluated (by decide) fun final reached ledger => ?_
  have filed : final.receiver.tcg.txCNs.lookup "p" = none := of_evaluated reached (by decide)
  have written : final.receiver.tcg.gState.lookup "k" = none := of_evaluated reached (by decide)
  have awaited : ((final.receiver.tcg.waitUnChoosedTxCNs.lookup "p").map fun entry =>
      final.receiver.tcg.nList entry.childNodes) = some [0] := of_evaluated reached (by decide)
  obtain ⟨waitTxcn, found, children⟩ := Option.map_eq_some_iff.mp awaited
  have waits : WaitsFor final.receiver.tcg 0 "p" :=
    .inl ⟨waitTxcn, found, by rw [children]; exact mem_singleton_self 0⟩
  refine ⟨of_evaluated reached (by decide), filed, waits, written, ?_, fun agrees => ?_⟩
  · rw [ledger]
    decide
  · obtain ⟨target, gvnode, decodes, present, _⟩ := agrees.committed parentTx (by rw [ledger]; decide)
    have name : gvnode.txId = "p" := of_evaluated decodes (by decide)
    rw [name, filed] at present
    cases present

end Pobl.Etcdraft
