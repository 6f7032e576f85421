/-
This file states how the counters, the child lists and the wait entries of the graph belong together.
The counter of a node is the number of its places in the lists that are not released yet.
-/

import Mathlib.Algebra.GroupWithZero.Nat
import Pobl.Library.Slots
import Pobl.Proof.Graph.Changes

namespace Pobl.Partialorder

open Library Protos TxConsensusGraph ChildNodes

def NodeState.ReleasesN (state : NodeState) : Prop := state = .committed

def NodeState.ReleasesUN (state : NodeState) : Prop := state = .committed ∨ state = .changedState

namespace TxConsensusGraph

variable (graph : TxConsensusGraph)

/-- Some owner of the list has a state that releases it. -/
def Released (verdict : NodeState → Prop) (list : ChildRef) : Prop :=
  ∃ owner < graph.nodes.size, (graph.node owner).childNodes = list ∧ verdict (graph.node owner).state

/-- The places of a node in the lists that are not released.
A commit releases both lists of its node, and an abort only the second one. -/
noncomputable def openSlots (target : NodeRef) : Nat :=
  openCount graph.nList (graph.Released NodeState.ReleasesN) graph.childLists.size target +
    openCount graph.unList (graph.Released NodeState.ReleasesUN) graph.childLists.size target

end TxConsensusGraph

/-- The places of a node that a task still has to release. -/
def Task.slots (graph : TxConsensusGraph) (target : NodeRef) : Task → Nat
  | .releaseUN _ child => if child = target then 1 else 0
  | .branch _ dtxcn =>
    if (graph.node dtxcn).state = .changedState then 0
    else (graph.childrenOf dtxcn).nChildNodes.count target
  | .abort _ => 0
  | .release _ child => if child = target then 1 else 0

/-- A task that decrements a counter releases exactly one place of its node. -/
theorem slots_released {graph : TxConsensusGraph} {task : Task} {child : NodeRef}
    (releases : task.released = some child) (other : NodeRef) :
    task.slots graph other = if child = other then 1 else 0 := by
  cases task with
  | releaseUN | release =>
    cases releases
    rfl
  | branch | abort => cases releases

def pendingSlots (graph : TxConsensusGraph) (tasks : List Task) (target : NodeRef) : Nat :=
  (tasks.map (Task.slots graph target)).sum

@[simp] theorem pendingSlots_nil (graph : TxConsensusGraph) (target : NodeRef) :
    pendingSlots graph [] target = 0 := rfl

@[simp] theorem pendingSlots_cons (graph : TxConsensusGraph) (task : Task) (tasks : List Task) (target : NodeRef) :
    pendingSlots graph (task :: tasks) target = task.slots graph target + pendingSlots graph tasks target := by
  simp [pendingSlots]

@[simp] theorem pendingSlots_append (graph : TxConsensusGraph) (first second : List Task) (target : NodeRef) :
    pendingSlots graph (first ++ second) target =
      pendingSlots graph first target + pendingSlots graph second target := by
  simp [pendingSlots]

/-- One task for each child releases exactly the places in the list. -/
theorem pendingSlots_map (graph : TxConsensusGraph) (task : NodeRef → Task) (target : NodeRef)
    (single : ∀ child, (task child).slots graph target = if child = target then 1 else 0) (children : List NodeRef) :
    pendingSlots graph (children.map task) target = children.count target := by
  induction children with
  | nil => rfl
  | cons child rest ih =>
    rw [List.map_cons, pendingSlots_cons, ih, single, List.count_cons]
    simp only [beq_iff_eq]
    omega

theorem pendingSlots_abort (graph : TxConsensusGraph) (target : NodeRef)
    (children : List NodeRef) : pendingSlots graph (children.map Task.abort) target = 0 := by
  induction children with
  | nil => rfl
  | cons child rest ih => rw [List.map_cons, pendingSlots_cons, ih]; rfl

/-- The tasks after a change have the same places when every branch keeps its lists and its verdict. -/
theorem pendingSlots_congr {graph graph' : TxConsensusGraph} {tasks : List Task}
    (same : ∀ txid dtxcn, .branch txid dtxcn ∈ tasks → (graph'.node dtxcn).state = (graph.node dtxcn).state ∧
        (graph'.childrenOf dtxcn).nChildNodes = (graph.childrenOf dtxcn).nChildNodes)
    (target : NodeRef) : pendingSlots graph' tasks target = pendingSlots graph tasks target := by
  induction tasks with
  | nil => rfl
  | cons task rest ih =>
    have later := ih fun txid dtxcn member => same txid dtxcn (List.mem_cons_of_mem _ member)
    rw [pendingSlots_cons, pendingSlots_cons, later]
    cases task with
    | branch txid dtxcn =>
      obtain ⟨state, lists⟩ := same txid dtxcn List.mem_cons_self
      simp only [Task.slots, state, lists]
    | releaseUN | abort | release => rfl

/-- Different wait entries have different lists. -/
def WaitsApart (graph : TxConsensusGraph) : Prop :=
  ∀ first second waitFirst waitSecond, graph.waitUnChoosedTxCNs.lookup first = some waitFirst →
    graph.waitUnChoosedTxCNs.lookup second = some waitSecond →
    waitFirst.childNodes = waitSecond.childNodes → first = second

section

variable {graph graph' : TxConsensusGraph} (apart : WaitsApart graph)

include apart

theorem WaitsApart.keep (waits : ∀ txid waitTxcn', graph'.waitUnChoosedTxCNs.lookup txid = some waitTxcn' →
      ∃ waitTxcn, graph.waitUnChoosedTxCNs.lookup txid = some waitTxcn ∧
        waitTxcn.childNodes = waitTxcn'.childNodes) : WaitsApart graph' := by
  intro first second waitFirst' waitSecond' foundFirst foundSecond same
  obtain ⟨waitFirst, oldFirst, sameFirst⟩ := waits first waitFirst' foundFirst
  obtain ⟨waitSecond, oldSecond, sameSecond⟩ := waits second waitSecond' foundSecond
  exact apart first second waitFirst waitSecond oldFirst oldSecond (by rw [sameFirst, sameSecond, same])

theorem WaitsApart.addWait {tasks : List Task} (bounded : Bounded graph tasks) (txid : TxId) (diff : Bool)
    (choosed : Option NodeRef) : WaitsApart (graph.addWait txid diff choosed) := by
  have fresh := lookup_addWait graph txid diff choosed
  intro first second waitFirst waitSecond foundFirst foundSecond same
  rcases fresh first waitFirst foundFirst with ⟨nameFirst, newFirst, _⟩ | oldFirst
  · rcases fresh second waitSecond foundSecond with ⟨nameSecond, _⟩ | oldSecond
    · rw [nameFirst, nameSecond]
    · exact absurd (same.symm.trans newFirst) (Nat.ne_of_lt (bounded.waitOwned second _ oldSecond))
  · rcases fresh second waitSecond foundSecond with ⟨_, newSecond, _⟩ | oldSecond
    · exact absurd (same.trans newSecond) (Nat.ne_of_lt (bounded.waitOwned first _ oldFirst))
    · exact apart first second waitFirst waitSecond oldFirst oldSecond same

end

/-- The shape of the graph that every call and every task keeps. -/
structure Linked (graph : TxConsensusGraph) (tasks : List Task) : Prop extends Bounded graph tasks where
  shared : ∀ first < graph.nodes.size, ∀ second < graph.nodes.size, first ≠ second →
    (graph.node first).childNodes = (graph.node second).childNodes →
    (graph.node first).state = .changedState
  waitShared : ∀ txid waitTxcn, graph.waitUnChoosedTxCNs.lookup txid = some waitTxcn →
    ∀ owner < graph.nodes.size, (graph.node owner).childNodes = waitTxcn.childNodes →
    (graph.node owner).state = .changedState ∧ waitTxcn.choosedNode ≠ none
  waitApart : ∀ first second waitFirst waitSecond, graph.waitUnChoosedTxCNs.lookup first = some waitFirst →
    graph.waitUnChoosedTxCNs.lookup second = some waitSecond →
    waitFirst.childNodes = waitSecond.childNodes → first = second
  counted : ∀ target < graph.nodes.size,
    (graph.node target).parentNum = graph.openSlots target + pendingSlots graph tasks target
  committedZero : ∀ target < graph.nodes.size, (graph.node target).state = .committed →
    (graph.node target).parentNum = 0
  notReady : ∀ target < graph.nodes.size, (graph.node target).state ≠ .ready
  branchDecided : ∀ txid dtxcn, .branch txid dtxcn ∈ tasks →
    (graph.node dtxcn).state = .committed ∨ (graph.node dtxcn).state = .changedState

namespace TxConsensusGraph

variable {graph graph' : TxConsensusGraph}

theorem released_congr (verdict : NodeState → Prop) (size : graph'.nodes.size = graph.nodes.size)
    (same : ∀ owner < graph.nodes.size, (graph'.node owner).childNodes = (graph.node owner).childNodes ∧
        (verdict (graph'.node owner).state ↔ verdict (graph.node owner).state)) :
    graph'.Released verdict = graph.Released verdict := by
  funext list
  unfold Released
  rw [size, eq_iff_iff]
  constructor
  · rintro ⟨owner, inside, points, state⟩
    obtain ⟨sameList, sameState⟩ := same owner inside
    exact ⟨owner, inside, sameList ▸ points, sameState.mp state⟩
  · rintro ⟨owner, inside, points, state⟩
    obtain ⟨sameList, sameState⟩ := same owner inside
    exact ⟨owner, inside, sameList.trans points, sameState.mpr state⟩

theorem openSlots_congr (size : graph'.nodes.size = graph.nodes.size) (lists : graph'.childLists = graph.childLists)
    (same : ∀ owner < graph.nodes.size, (graph'.node owner).childNodes = (graph.node owner).childNodes ∧
        (graph'.node owner).state = (graph.node owner).state) (target : NodeRef) :
    graph'.openSlots target = graph.openSlots target := by
  have released (verdict : NodeState → Prop) : graph'.Released verdict = graph.Released verdict :=
    released_congr verdict size fun owner inside => ⟨(same owner inside).1, by rw [(same owner inside).2]⟩
  unfold openSlots nList unList
  rw [lists, released, released]

/-- A new empty list changes no count. -/
theorem openSlots_grow (size : graph'.childLists.size = graph.childLists.size + 1)
    (lists : ∀ list < graph.childLists.size, graph'.childLists.read list = graph.childLists.read list)
    (empty : graph'.childLists.read graph.childLists.size = ⟨[], []⟩)
    (released : ∀ verdict, ∀ list < graph.childLists.size, graph'.Released verdict list ↔ graph.Released verdict list)
    (target : NodeRef) : graph'.openSlots target = graph.openSlots target := by
  unfold openSlots
  rw [size]
  congr 1
  · exact openCount_grow (fun list below => congrArg nChildNodes (lists list below)) (released _)
      (congrArg nChildNodes empty) target
  · exact openCount_grow (fun list below => congrArg unChildNodes (lists list below)) (released _)
      (congrArg unChildNodes empty) target

end TxConsensusGraph

namespace Restated

variable {graph graph' : TxConsensusGraph} {target : NodeRef}

/-- A verdict on the only owner releases exactly its list. -/
theorem openCount_release (change : Restated graph graph' target) (inside : target < graph.nodes.size)
    (owned : (graph.node target).childNodes < graph.childLists.size)
    (alone : ∀ other < graph.nodes.size, other ≠ target →
      (graph.node other).childNodes ≠ (graph.node target).childNodes)
    (verdict : NodeState → Prop) (before : ¬ verdict (graph.node target).state)
    (after : verdict (graph'.node target).state) (lists : ChildRef → List NodeRef)
    (child : NodeRef) :
    openCount lists (graph'.Released verdict) graph.childLists.size child +
      (lists (graph.node target).childNodes).count child =
        openCount lists (graph.Released verdict) graph.childLists.size child := by
  apply openCount_close lists _ owned
  · rintro ⟨owner, below, points, state⟩
    by_cases same : owner = target
    · exact before (same ▸ state)
    · exact alone owner below same points
  · exact ⟨target, change.size ▸ inside, change.childNodes target, after⟩
  · intro list _ different
    constructor
    · rintro ⟨owner, below, points, state⟩
      rw [change.childNodes] at points
      have other : owner ≠ target := fun same => different (points ▸ same ▸ rfl)
      exact ⟨owner, change.size ▸ below, points, change.others owner other ▸ state⟩
    · rintro ⟨owner, below, points, state⟩
      have other : owner ≠ target := fun same => different (points ▸ same ▸ rfl)
      exact ⟨owner, change.size ▸ below, (change.childNodes owner).trans points,
        (change.others owner other).symm ▸ state⟩

/-- A verdict that the change of the state does not touch releases the same lists. -/
theorem released_same (change : Restated graph graph' target) (verdict : NodeState → Prop)
    (same : verdict (graph'.node target).state ↔ verdict (graph.node target).state) :
    graph'.Released verdict = graph.Released verdict := by
  apply released_congr verdict change.size
  intro owner _
  refine ⟨change.childNodes owner, ?_⟩
  by_cases self : owner = target
  · rw [self]
    exact same
  · rw [change.others owner self]

section

variable (change : Restated graph graph' target) (inside : target < graph.nodes.size)
  (owned : (graph.node target).childNodes < graph.childLists.size)
  (alone : ∀ other < graph.nodes.size, other ≠ target → (graph.node other).childNodes ≠ (graph.node target).childNodes)
  (before : (graph.node target).state = .wait)

include change inside owned alone before

/-- A commit of the only owner releases both lists. -/
theorem openSlots_commit (after : (graph'.node target).state = .committed) (child : NodeRef) :
    graph'.openSlots child + (graph.childrenOf target).nChildNodes.count child +
      (graph.childrenOf target).unChildNodes.count child = graph.openSlots child := by
  have normal := change.openCount_release inside owned alone NodeState.ReleasesN
    (by simp [NodeState.ReleasesN, before]) after graph.nList child
  have other := change.openCount_release inside owned alone NodeState.ReleasesUN
    (by simp [NodeState.ReleasesUN, before]) (.inl after) graph.unList child
  unfold openSlots
  rw [change.nList, change.unList, change.lists]
  unfold TxConsensusGraph.nList TxConsensusGraph.unList TxConsensusGraph.childrenOf at *
  omega

/-- An abort of the only owner releases the second list. -/
theorem openSlots_abort (after : (graph'.node target).state = .changedState) (child : NodeRef) :
    graph'.openSlots child + (graph.childrenOf target).unChildNodes.count child = graph.openSlots child := by
  have normal := change.released_same NodeState.ReleasesN (by simp [NodeState.ReleasesN, before, after])
  have other := change.openCount_release inside owned alone NodeState.ReleasesUN
    (by simp [NodeState.ReleasesUN, before]) (.inr after) graph.unList child
  unfold openSlots
  rw [change.nList, change.unList, change.lists, normal]
  unfold TxConsensusGraph.unList TxConsensusGraph.childrenOf at *
  omega

end

end Restated

/-- The links survive every change that keeps the lists, the verdicts and the owners. -/
theorem Linked.reshape {graph graph' : TxConsensusGraph} {tasks tasks' : List Task} (linked : Linked graph tasks)
    (size : graph'.nodes.size = graph.nodes.size) (lists : graph'.childLists = graph.childLists)
    (names : ∀ target, graph'.txIdOf target = graph.txIdOf target)
    (nodes : ∀ target, (graph'.node target).childNodes = (graph.node target).childNodes ∧
      (graph'.node target).state = (graph.node target).state)
    (waits : ∀ txid waitTxcn', graph'.waitUnChoosedTxCNs.lookup txid = some waitTxcn' →
      ∃ waitTxcn, graph.waitUnChoosedTxCNs.lookup txid = some waitTxcn ∧
        waitTxcn.childNodes = waitTxcn'.childNodes ∧ waitTxcn.choosedNode = waitTxcn'.choosedNode)
    (present : ∀ txid txCN, graph'.txCNs.lookup txid = some txCN →
      graph.txCNs.lookup txid = some txCN ∨ txCN < graph.nodes.size ∧ graph.txIdOf txCN = txid)
    (fewer : tasks' ⊆ tasks)
    (counted : ∀ target < graph.nodes.size, (graph'.node target).parentNum =
      graph.openSlots target + pendingSlots graph tasks' target)
    (committedZero : ∀ target < graph.nodes.size, (graph.node target).state = .committed →
      (graph'.node target).parentNum = 0) : Linked graph' tasks' := by
  refine ⟨linked.toBounded.reshape size lists names (fun target => (nodes target).1) waits present
    (fun task member => linked.taskNode task (fewer member)), ?_, ?_, ?_, ?_, ?_, ?_, ?_⟩
  · intro first firstIn second secondIn different same
    rw [(nodes first).1, (nodes second).1] at same
    rw [(nodes first).2]
    exact linked.shared first (size ▸ firstIn) second (size ▸ secondIn) different same
  · intro txid waitTxcn' found owner inside points
    obtain ⟨waitTxcn, old, same, choosed⟩ := waits txid waitTxcn' found
    rw [(nodes owner).1, ← same] at points
    rw [(nodes owner).2, ← choosed]
    exact linked.waitShared txid waitTxcn old owner (size ▸ inside) points
  · exact WaitsApart.keep linked.waitApart fun txid wait found =>
      (waits txid wait found).imp fun _ old => ⟨old.1, old.2.1⟩
  · intro target inside
    rw [size] at inside
    have slots := openSlots_congr size lists (fun owner _ => nodes owner) target
    have pending : pendingSlots graph' tasks' target = pendingSlots graph tasks' target := by
      apply pendingSlots_congr
      intro txid dtxcn _
      unfold TxConsensusGraph.childrenOf
      rw [(nodes dtxcn).1, (nodes dtxcn).2, lists]
      exact ⟨rfl, rfl⟩
    rw [slots, pending]
    exact counted target inside
  · intro target inside state
    rw [(nodes target).2] at state
    exact committedZero target (size ▸ inside) state
  · intro target inside
    rw [(nodes target).2]
    exact linked.notReady target (size ▸ inside)
  · intro txid dtxcn member
    rw [(nodes dtxcn).2]
    exact linked.branchDecided txid dtxcn (fewer member)

end Pobl.Partialorder
