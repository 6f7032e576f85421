/-
This file ties an invariant of the consensus graph to the blocks of the chain along coherent runs.
-/

import Pobl.Proof.Chain.Accounting

namespace Pobl.Etcdraft

open Library Protos Partialorder BlockCutter List

/-- An account follows the transactions that the graph has committed into the blocks of the chain.
It keeps an invariant of the graph and the transactions that were cut, under a condition on each arrival,
and it relates the transactions that were placed to the blocks, under a condition on the data of the blocks
that the node did not propose. -/
structure Account where
  invariant : TxConsensusGraph → List Envelope → Prop
  condition : RangeOrder RangeSite → TxConsensusGraph → GVNode → Prop
  foreign : List Envelope → Prop
  track : List Envelope → List Block → Prop
  initially : invariant TxConsensusGraph.initial []
  arrives : ∀ {graph cut order choosed final}, processEnvForBC choosed.txResult = some choosed →
    condition order graph choosed → invariant graph cut →
      processTX order graph.nodes.size (graph.newNode choosed) = some final → invariant final cut
  cuts : ∀ {graph cut}, invariant graph cut → invariant (flush graph) (cut ++ graph.readyBatch)
  starts : track [] []
  places : ∀ {graph placed batch rest blocks number}, invariant graph (placed ++ batch ++ rest) →
    track placed blocks → track (placed ++ batch) (blocks ++ [⟨number, batch⟩])
  configures : ∀ {placed blocks number payload}, isConfig payload = some true → track placed blocks →
    track placed (blocks ++ [⟨number, [payload]⟩])
  grows : ∀ {placed blocks block}, foreign block.data → track placed blocks → track placed (blocks ++ [block])

namespace Account

variable (account : Account) {blocks : List Block}

/-- The event meets the conditions of the account. -/
def Admits (opts : Options) (c : Chain) (event : Event) : Prop :=
  event.Allows account.condition c ∧ ∀ data ∈ event.brought opts c, account.foreign data

/-- The committed transactions are placed in blocks, or they are leaving, or they are ready. -/
def Balanced (c : Chain) : Prop :=
  ∃ placed, account.invariant c.receiver.tcg (placed ++ c.leaving) ∧ account.track placed c.blocks

theorem places_all {graph : TxConsensusGraph} {placed rest : List Envelope} {number : Nat}
    (batches : List (List Envelope)) (kept : account.invariant graph (placed ++ batches.flatten ++ rest))
    (tracked : account.track placed blocks) :
    account.track (placed ++ batches.flatten) (blocks ++ blocksOf number batches) := by
  induction batches generalizing placed blocks number with
  | nil =>
    rw [flatten_nil, blocksOf, append_nil, append_nil]
    exact tracked
  | cons batch others ih =>
    rw [flatten_cons] at kept ⊢
    have here : account.invariant graph (placed ++ batch ++ (others.flatten ++ rest)) := by
      simpa only [append_assoc] using kept
    rw [blocksOf, append_cons, ← append_assoc]
    refine ih ?_ (account.places here tracked)
    simpa only [append_assoc] using kept

theorem grows_all {placed : List Envelope} (written : List Block)
    (foreign : ∀ block ∈ written, account.foreign block.data) (tracked : account.track placed blocks) :
    account.track placed (blocks ++ written) := by
  induction written generalizing blocks with
  | nil => rwa [append_nil]
  | cons block rest ih =>
    rw [append_cons]
    exact ih (fun other listed => foreign other (mem_cons_of_mem _ listed))
      (account.grows (foreign block mem_cons_self) tracked)

variable {account} {opts : Options} {c next : Chain} {event : Event}

/-- A new node starts with an empty graph and with the blocks of others. -/
theorem Balanced.resets (graph : c.receiver.tcg = TxConsensusGraph.initial) (leaving : c.leaving = [])
    (foreign : ∀ block ∈ c.blocks, account.foreign block.data) : account.Balanced c := by
  refine ⟨[], ?_, account.grows_all c.blocks foreign account.starts⟩
  rw [graph, leaving]
  exact account.initially

theorem Balanced.flow (balanced : account.Balanced c) (coherent : c.Coherent opts event)
    (admits : account.Admits opts c event) (flow : c.Flow opts event next) : account.Balanced next := by
  obtain ⟨placed, kept, tracked⟩ := balanced
  obtain ⟨_, inOrder, nothingLost⟩ := coherent
  cases flow with
  | still graph leaving blocks =>
    refine ⟨placed, ?_, blocks ▸ tracked⟩
    rw [graph, leaving]
    exact kept
  | arrives order choosed final received processed result blocks =>
    have arrived := account.arrives (Event.arrival_decodes received) (admits.1 order choosed received) kept processed
    refine ⟨placed, ?_, blocks ▸ tracked⟩
    rcases result with ⟨graph, leaving⟩ | ⟨graph, leaving⟩ <;> rw [graph, leaving]
    · exact arrived
    · rw [← append_assoc]
      exact account.cuts arrived
  | cuts graph leaving blocks =>
    refine ⟨placed, ?_, blocks ▸ tracked⟩
    rw [graph, leaving, ← append_assoc]
    exact account.cuts kept
  | places batches graph leaving blocks =>
    rw [leaving, ← append_assoc] at kept
    refine ⟨placed ++ batches.flatten, graph ▸ kept, ?_⟩
    rw [blocks]
    exact account.places_all batches kept tracked
  | configures payload config configured graph leaving blocks =>
    obtain ⟨first, batches, ready⟩ := c.configBatches_eq payload
    have flushed : account.invariant (flush c.receiver.tcg) (placed ++ first.flatten ++ c.leaving) := by
      rw [ready]
      have cut := account.cuts kept
      rcases (inOrder configured).2 with none | none <;> simpa only [none, append_nil] using cut
    refine ⟨placed ++ first.flatten, ?_, ?_⟩
    · rw [graph, leaving]
      exact flushed
    · rw [blocks, batches, blocksOf_append, ← append_assoc]
      exact account.configures config (account.places_all first flushed tracked)
  | grows written foreign graph leaving blocks =>
    refine ⟨placed, ?_, ?_⟩
    · rw [graph, leaving]
      exact kept
    · rw [blocks]
      exact account.grows_all written (fun block listed => admits.2 _ (foreign block listed)) tracked
  | loses written foreign lost graph leaving blocks =>
    obtain ⟨_, ready, landed⟩ := nothingLost lost
    have whole : next.blocks = c.blocks ++ written := by
      rw [blocks, Chain.blocks, landed, append_nil]
    have same : flush c.receiver.tcg = c.receiver.tcg := by
      rw [flush, ← ready]
    refine ⟨placed, ?_, ?_⟩
    · rw [graph, leaving, same]
      exact kept
    · rw [whole]
      exact account.grows_all written (fun block listed => admits.2 _ (foreign block listed)) tracked
  | resets graph leaving foreign =>
    exact .resets graph leaving fun block listed => admits.2 _ (foreign block listed)

/-- What an account keeps along coherent steps. -/
structure Follows (account : Account) (opts : Options) (c : Chain) : Prop where
  lined : c.Lined opts
  balanced : c.Running → account.Balanced c

theorem Follows.initial (opts : Options) (ledger : Ledger) (appliedIndex sequence : Nat)
    (foreign : ∀ block ∈ ledger.blocks, account.foreign block.data) :
    account.Follows opts (newChain ledger appliedIndex sequence) where
  lined := Chain.Lined.initial opts ledger appliedIndex sequence
  balanced _ := .resets rfl rfl (by
    rw [show (newChain ledger appliedIndex sequence).blocks = ledger.blocks from append_nil _]
    exact foreign)

theorem Follows.step (coherent : c.Coherent opts event) (admits : account.Admits opts c event)
    (follows : account.Follows opts c) (stepped : c.step opts event = some next) : account.Follows opts next := by
  obtain ⟨lined, flow⟩ := follows.lined.step coherent.1 stepped
  refine ⟨lined, fun running => ?_⟩
  have steps := Chain.step_cases stepped
  rcases steps.running with alive | ⟨appliedIndex, rfl⟩
  · exact (follows.balanced alive).flow coherent admits (flow running)
  · cases steps
    refine .resets rfl rfl fun block listed => admits.2 _ ?_
    exact mem_map_of_mem ((append_nil c.ledger.blocks) ▸ listed)

end Account

end Pobl.Etcdraft
