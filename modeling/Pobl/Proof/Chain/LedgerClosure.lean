import Pobl.Proof.Chain.Tracking
import Pobl.Proof.Receiver.SafeSession

namespace Pobl.Etcdraft

open Library Protos Partialorder BlockCutter Chain List

variable {placed : List Envelope} {blocks : List Block}

/-- The parents of each transaction of the block are before it in the block or in an earlier block. -/
def Created.Closed (record : Created) : Prop :=
  ∀ (position : Nat) env gvnode, record.block.data[position]? = some env → isConfig env ≠ some true →
    processEnvForBC env = some gvnode → ∀ ptxid ptx, gvnode.pTx.lookup ptxid = some ptx →
      ∃ parent gvparent, processEnvForBC parent = some gvparent ∧ gvparent.txId = ptxid ∧
        ((∃ earlier < position, record.block.data[earlier]? = some parent) ∨
          ∃ block ∈ record.chain, block.number < record.block.number ∧ parent ∈ block.data)

/-- Every placed transaction is in a block. -/
def Placed (placed : List Envelope) (blocks : List Block) : Prop :=
  ∀ env ∈ placed, ∃ block ∈ blocks, env ∈ block.data

theorem Placed.append (all : Placed placed blocks) (block : Block) :
    Placed (placed ++ block.data) (blocks ++ [block]) := by
  intro env listed
  rcases mem_append.mp listed with old | new
  · obtain ⟨found, member, data⟩ := all env old
    exact ⟨found, mem_append_left _ member, data⟩
  · exact ⟨block, mem_append_right _ mem_cons_self, new⟩

theorem Placed.grow (all : Placed placed blocks) (block : Block) : Placed placed (blocks ++ [block]) :=
  fun env listed => all.append block env (mem_append_left _ listed)

/-- The account of the transactions that follow their parents. -/
def closureAccount : Account where
  invariant graph cut := Kept graph cut ∧ Decoded graph
  condition := Clear
  foreign _ := True
  track := Placed
  initially := ⟨⟨sound_initial, recorded_initial⟩, nofun⟩
  arrives decodes clear kept done :=
    ⟨kept_processTX clear kept.1 done, processTX_decoded kept.1.1.toBounded kept.2 decodes done⟩
  cuts kept := ⟨⟨sound_flush kept.1.1, recorded_flush kept.1.2⟩, kept.2⟩
  starts := nofun
  places _ all := all.append ⟨_, _⟩
  configures _ all := all.grow _
  grows _ all := all.grow _

/-- The records of batches that continue the emitted transactions are closed. -/
theorem recordsOf_closed {emitted : List Envelope}
    (causal : ∀ position env, emitted[position]? = some env → FollowsParents emitted position env)
    (batches : List (List Envelope)) (rest : List Envelope)
    (split : placed ++ batches.flatten ++ rest = emitted) (all : Placed placed blocks)
    (numbered : blocks.map Block.number = range blocks.length) :
    ∀ record ∈ recordsOf blocks batches, record.Closed := by
  induction batches generalizing placed blocks with
  | nil => nofun
  | cons batch others ih =>
    intro record listed
    rw [flatten_cons] at split
    rcases mem_cons.mp listed with rfl | later
    · intro position env gvnode found _ decoded ptxid ptx named
      have inside : position < batch.length := (List.getElem?_eq_some_iff.mp found).1
      have here : emitted[placed.length + position]? = some env := by
        rw [← split, append_assoc, List.getElem?_append_right (Nat.le_add_right _ _), Nat.add_sub_cancel_left,
          append_assoc, List.getElem?_append_left inside]
        exact found
      obtain ⟨node, same, parents⟩ := causal _ env here
      rw [decoded, Option.some.injEq] at same
      subst same
      obtain ⟨earlier, sooner, parent, gvparent, emits, decodes, name, _⟩ := parents ptxid ptx named
      refine ⟨parent, gvparent, decodes, name, ?_⟩
      rw [← split, append_assoc, append_assoc] at emits
      by_cases before : earlier < placed.length
      · rw [List.getElem?_append_left before] at emits
        obtain ⟨block, member, data⟩ := all parent (List.mem_of_getElem? emits)
        exact .inr ⟨block, member, number_lt_of_numbered numbered member, data⟩
      · rw [List.getElem?_append_right (Nat.not_lt.mp before)] at emits
        rw [List.getElem?_append_left (by omega)] at emits
        exact .inl ⟨earlier - placed.length, by omega, emits⟩
    · refine ih (show placed ++ batch ++ others.flatten ++ rest = emitted from ?_)
        (all.append ⟨blocks.length, batch⟩) (numbered_append numbered batch) record later
      simpa only [append_assoc] using split

/-- The account follows the transactions, and the blocks that were created are closed. -/
structure Chain.Closing (opts : Options) (c : Chain) : Prop where
  follows : closureAccount.Follows opts c
  closed : ∀ record ∈ c.created, record.Closed

theorem Chain.Closing.step {opts : Options} {c next : Chain} {event : Event} (coherent : c.Coherent opts event)
    (clear : event.Allows Clear c) (closing : c.Closing opts) (stepped : c.step opts event = some next) :
    next.Closing opts := by
  refine ⟨closing.follows.step coherent ⟨clear, fun _ _ => trivial⟩ stepped, ?_⟩
  have old := closing.closed
  cases closing.follows.lined.creates coherent.1 stepped with
  | none created => rwa [created]
  | delivered batches rest made running extending leaving part created =>
    obtain ⟨placed, ⟨kept, decoded⟩, all⟩ := closing.follows.balanced running
    intro record listed
    rw [created] at listed
    rcases mem_append.mp listed with before | now
    · exact old record before
    · refine recordsOf_closed (fun _ _ => kept.followsParents decoded) batches
        (rest ++ c.receiver.tcg.readyBatch) ?_ all extending.numbered record (part.subset now)
      rw [leaving]
      simp only [append_assoc]
  | configured payload config made serving extending configured part created =>
    obtain ⟨placed, ⟨kept, decoded⟩, all⟩ := closing.follows.balanced serving.1
    obtain ⟨first, batches, ready⟩ := c.configBatches_eq payload
    intro record listed
    rw [created] at listed
    rcases mem_append.mp listed with before | now
    · exact old record before
    · have made := part.subset now
      rw [batches, recordsOf_append] at made
      rcases mem_append.mp made with cut | last
      · refine recordsOf_closed (fun _ _ => kept.followsParents decoded) first c.leaving ?_ all extending.numbered
          record cut
        rw [ready]
        rcases (coherent.2.1 configured).2 with none | none <;> simp only [none, append_nil]
      · cases mem_singleton.mp last
        rintro (_ | position) env gvnode found normal
        · cases found
          exact absurd config normal
        · cases found

/-- In every coherent run with clear arrivals, the blocks that the node creates are closed under parents. -/
theorem created_blocks_closed (opts : Options) (ledger : Ledger) (appliedIndex sequence : Nat) (events : List Event)
    (final : Chain)
    (coherent : Guarded (step opts) (Chain.Coherent opts) (newChain ledger appliedIndex sequence) events)
    (clear : Guarded (step opts) (fun c event => event.Allows Clear c)
      (newChain ledger appliedIndex sequence) events)
    (reached : run (step opts) (newChain ledger appliedIndex sequence) events = some final) :
    ∀ record ∈ final.created, record.Closed := by
  have closing := run_invariant (step opts) (fun c event => c.Coherent opts event ∧ event.Allows Clear c)
    (fun c => c.Closing opts) (fun _ _ _ guards => Chain.Closing.step guards.1 guards.2) events
    (newChain ledger appliedIndex sequence) final
    ⟨.initial opts ledger appliedIndex sequence fun _ _ => trivial, nofun⟩
    (guarded_combine (fun _ _ => And.intro) coherent clear) reached
  exact closing.closed

def parentTx : Envelope := sampleTx "p" [] [("k", [1])]

def childTx : Envelope := sampleTx "c" [("k", [1], "p")] []

/-- The block of the parent is applied when the leadership is lost, and the child follows in the next term. -/
def closedEvents : List Event :=
  [elects, submits parentTx, .sent, .received, processes 1, .forwarded, .commitC, .proposed,
    .applyC ⟨none, [.normal 1 (some ⟨1, [parentTx]⟩) none], 1, none⟩, deposes,
    .applyC ⟨some ⟨1, .leader⟩, [], 1, none⟩, submits childTx, .sent, .received, processes 1, .forwarded, .commitC]

theorem created_blocks_closed_next_term : ∃ final,
    run (step sampleOptions) sampleChain closedEvents = some final ∧
    final.created.map Created.block = [⟨1, [parentTx]⟩, ⟨2, [childTx]⟩] ∧
    ∀ record ∈ final.created, record.Closed := by
  refine exists_evaluated (by decide) fun final reached _ => ?_
  exact created_blocks_closed sampleOptions (Ledger.genesis []) 0 0 closedEvents final (by decide) (by decide) reached

/-- The leadership is lost while the parent is ready, and the child follows in the next term. -/
def losingEvents : List Event :=
  [elects, submits parentTx, .sent, .received, processes 2, deposes, elects, submits childTx, .sent, .received,
    processes 1, .forwarded, .commitC]

/-- The discarded batch held the parent, so the block of the child is proposed without it. -/
theorem block_without_parent : ∃ final, run (step sampleOptions) sampleChain losingEvents = some final ∧
    ∃ record ∈ final.created, record.block = ⟨1, [childTx]⟩ ∧ ¬ record.Closed := by
  obtain ⟨final, reached, known⟩ := Option.map_eq_some_iff.mp
    (show (run (step sampleOptions) sampleChain losingEvents).map
      (fun c => c.created.map fun record => (record.chain, record.block)) =
        some [([⟨0, []⟩], ⟨1, [childTx]⟩)] by decide)
  obtain ⟨record, records, same⟩ := map_eq_singleton_iff.mp known
  obtain ⟨chain, block⟩ := Prod.mk.inj same
  refine ⟨final, reached, record, by rw [records]; exact mem_singleton_self _, block, fun closed => ?_⟩
  have named : ∃ gvnode, processEnvForBC childTx = some gvnode ∧ (gvnode.pTx.lookup "p").isSome := by
    refine ⟨_, rfl, ?_⟩
    decide
  obtain ⟨gvnode, decoded, parent⟩ := named
  obtain ⟨ptx, found⟩ := Option.isSome_iff_exists.mp parent
  obtain ⟨env, _, _, _, ⟨_, none, _⟩ | ⟨other, member, _, data⟩⟩ := closed 0 childTx gvnode
    (by rw [block]; rfl) (by decide) decoded "p" ptx found
  · exact absurd none (Nat.not_lt_zero _)
  · rw [chain] at member
    rw [mem_singleton.mp member] at data
    cases data

end Pobl.Etcdraft
