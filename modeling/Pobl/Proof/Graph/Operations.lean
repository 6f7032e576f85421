import Pobl.Construction.ProcessTX

namespace Pobl.Partialorder

open Library Protos Heap GoMap

/-- A write set agrees with the reads when it holds each of them. -/
theorem disagrees_eq_false_iff (writeSet : GoMap GVWriteKV) (kv : GoMap Value) :
    disagrees writeSet kv = false ↔ ∀ key value, kv.lookup key = some value →
      ∃ wkv, writeSet.lookup key = some wkv ∧ wkv.value = value := by
  unfold disagrees
  rw [List.any_eq_false]
  constructor
  · intro agrees key value read
    have entry := agrees ⟨key, value⟩ ((mem_entries_iff kv ⟨key, value⟩).mpr read)
    cases found : writeSet.lookup key with
    | none => simp [found] at entry
    | some wkv =>
      simp only [found, ne_eq, decide_not, Bool.not_eq_true', decide_eq_false_iff_not, not_not] at entry
      exact ⟨wkv, rfl, entry⟩
  · intro agrees entry member
    obtain ⟨wkv, found, same⟩ := agrees entry.1 entry.2 ((mem_entries_iff kv entry).mp member)
    simp [found, same]

/-- A write set disagrees with the reads when one of them is not held. -/
theorem disagrees_eq_true_iff (writeSet : GoMap GVWriteKV) (kv : GoMap Value) :
    disagrees writeSet kv = true ↔ ∃ key value, kv.lookup key = some value ∧
      ∀ wkv, writeSet.lookup key = some wkv → wkv.value ≠ value := by
  rw [← Bool.not_eq_false, disagrees_eq_false_iff]
  push Not
  rfl

/-- The reads are current when the state holds each of them. -/
theorem stale_eq_false_iff (gState : GoMap Value) (ptx : PtxKV) :
    stale gState ptx = false ↔ ∀ key value, ptx.kv.lookup key = some value →
      (ptx.type.lookup key).getD 0 ≠ 2 → (gState.lookup key).getD [] = value := by
  unfold stale
  rw [List.any_eq_false]
  constructor
  · intro current key value read normal
    have entry := current ⟨key, value⟩ ((mem_entries_iff ptx.kv ⟨key, value⟩).mpr read)
    simp only [ne_eq, decide_not, Bool.and_eq_true, Bool.not_eq_true', decide_eq_false_iff_not,
      not_and, not_not] at entry
    exact entry normal
  · intro current entry member
    have same := current entry.1 entry.2 ((mem_entries_iff ptx.kv entry).mp member)
    simp only [ne_eq, decide_not, Bool.and_eq_true, Bool.not_eq_true', decide_eq_false_iff_not, not_and, not_not]
    exact same

namespace TxConsensusGraph

variable (graph : TxConsensusGraph) (target other : NodeRef)

theorem node_modifyNode (change : TxConsensusNode → TxConsensusNode) : (graph.modifyNode target change).node other =
      if other = target then change (graph.node target) else graph.node other :=
  read_modify graph.nodes target other change

theorem node_setState (state : NodeState) : (graph.setState target state).node other =
      if other = target then { graph.node target with state := state } else graph.node other :=
  node_modifyNode graph target other fun node => { node with state := state }

theorem node_commit : (graph.commit target).node other =
      if other = target then { graph.node target with state := .committed }
      else graph.node other :=
  node_modifyNode graph target other fun node => { node with state := .committed }

theorem node_newNode_new (choosed : GVNode) : (graph.newNode choosed).node graph.nodes.size =
      { choosedNode := choosed, parentNum := 0, parentTxConsensusNode := [],
        unParentTxConsensusNode := [], childNodes := graph.childLists.size, waitPTX := [],
        state := .wait } :=
  read_alloc_new graph.nodes _

@[simp] theorem node_setWait (txid : TxId) (waitTxcn : WaitTxConsensusNode) :
    (graph.setWait txid waitTxcn).node other = graph.node other := rfl

@[simp] theorem node_countChangedState (amount : Int) :
    (graph.countChangedState amount).node other = graph.node other := rfl

theorem waits_setWait (txid : TxId) (waitTxcn : WaitTxConsensusNode) (name : TxId) :
    (graph.setWait txid waitTxcn).waitUnChoosedTxCNs.lookup name =
      if name = txid then some waitTxcn else graph.waitUnChoosedTxCNs.lookup name :=
  lookup_insert_apply _ _ _ _

theorem waits_addWait (txid : TxId) (diff : Bool) (choosed : Option NodeRef) (name : TxId) :
    (graph.addWait txid diff choosed).waitUnChoosedTxCNs.lookup name =
      if name = txid then some ⟨0, graph.childLists.size, ∅, diff, choosed, ∅⟩
      else graph.waitUnChoosedTxCNs.lookup name :=
  lookup_insert_apply _ _ _ _

def nList (list : ChildRef) : List NodeRef := (graph.childLists.read list).nChildNodes

def unList (list : ChildRef) : List NodeRef := (graph.childLists.read list).unChildNodes

section Registration

variable (graph : TxConsensusGraph) (list : ChildRef) (txCN : NodeRef) (ptxid : TxId)

theorem node_register_other {other : NodeRef} (different : other ≠ txCN) :
    (graph.register list txCN ptxid).node other = graph.node other := by
  unfold node register
  rw [read_modify_other graph.nodes _ different]

theorem nList_register (other : ChildRef) : (graph.register list txCN ptxid).nList other =
      if other = list then graph.nList list ++ [txCN] else graph.nList other := by
  unfold nList register
  rw [read_modify]
  split <;> rfl

theorem unList_register (other : ChildRef) : (graph.register list txCN ptxid).unList other = graph.unList other := by
  unfold unList register
  rw [read_modify]
  split
  next same => rw [same]
  · rfl

theorem unList_registerUN (other : ChildRef) : (graph.registerUN list txCN ptxid).unList other =
      if other = list then graph.unList list ++ [txCN] else graph.unList other := by
  unfold unList registerUN
  rw [read_modify]
  split <;> rfl

theorem nList_registerUN (other : ChildRef) : (graph.registerUN list txCN ptxid).nList other = graph.nList other := by
  unfold nList registerUN
  rw [read_modify]
  split
  next same => rw [same]
  · rfl

end Registration

section

variable (txid : TxId) (diff : Bool) (choosed : Option NodeRef)

include txid diff choosed

theorem childLists_addWait (list : ChildRef) : (graph.addWait txid diff choosed).childLists.read list =
      if list = graph.childLists.size then ⟨[], []⟩ else graph.childLists.read list := by
  unfold addWait
  split
  next same =>
    rw [same]
    exact read_alloc_new _ _
  next old => exact read_alloc_old _ _ old

theorem addWait_lists (list : ChildRef) (old : list < graph.childLists.size) :
    (graph.addWait txid diff choosed).childLists.read list = graph.childLists.read list := by
  rw [childLists_addWait, if_neg (Nat.ne_of_lt old)]

theorem addWait_new_lists : (graph.addWait txid diff choosed).childLists.read graph.childLists.size = ⟨[], []⟩ := by
  rw [childLists_addWait, if_pos rfl]

/-- A new wait entry is the only one that `addWait` changes. -/
theorem lookup_addWait (name : TxId) (waitTxcn : WaitTxConsensusNode)
    (found : (graph.addWait txid diff choosed).waitUnChoosedTxCNs.lookup name = some waitTxcn) :
    (name = txid ∧ waitTxcn.childNodes = graph.childLists.size ∧ waitTxcn.choosedNode = choosed) ∨
      graph.waitUnChoosedTxCNs.lookup name = some waitTxcn := by
  rw [waits_addWait] at found
  split at found
  next same =>
    cases found
    exact .inl ⟨same, rfl, rfl⟩
  · exact .inr found

end

theorem childLists_newNode (choosed : GVNode) (list : ChildRef) : (graph.newNode choosed).childLists.read list =
      if list = graph.childLists.size then ⟨[], []⟩ else graph.childLists.read list := by
  unfold newNode
  split
  next same =>
    rw [same]
    exact read_alloc_new _ _
  next old => exact read_alloc_old _ _ old

theorem newNode_old (choosed : GVNode) (target : NodeRef) (old : target < graph.nodes.size) :
    (graph.newNode choosed).node target = graph.node target :=
  read_alloc_old graph.nodes _ (Nat.ne_of_lt old)

theorem txIdOf_newNode_old (choosed : GVNode) (target : NodeRef) (old : target < graph.nodes.size) :
    (graph.newNode choosed).txIdOf target = graph.txIdOf target := by
  unfold txIdOf
  rw [newNode_old graph choosed target old]

theorem txIdOf_newNode_new (choosed : GVNode) : (graph.newNode choosed).txIdOf graph.nodes.size = choosed.txId := by
  unfold txIdOf
  rw [node_newNode_new]

theorem newNode_lists (choosed : GVNode) (list : ChildRef) (old : list < graph.childLists.size) :
    (graph.newNode choosed).childLists.read list = graph.childLists.read list := by
  rw [childLists_newNode, if_neg (Nat.ne_of_lt old)]

end TxConsensusGraph

open TxConsensusGraph

/-- A node takes one new place in a list, and its counter goes up. -/
structure Enlisted (graph graph' : TxConsensusGraph) (txCN : NodeRef) : Prop where
  size : graph'.nodes.size = graph.nodes.size
  listsSize : graph'.childLists.size = graph.childLists.size
  waits : graph'.waitUnChoosedTxCNs = graph.waitUnChoosedTxCNs
  present : graph'.txCNs = graph.txCNs
  log : graph'.stateLog = graph.stateLog
  nodes : ∀ other, (graph'.node other).choosedNode = (graph.node other).choosedNode ∧
    (graph'.node other).childNodes = (graph.node other).childNodes ∧
    (graph'.node other).state = (graph.node other).state ∧
    (graph'.node other).waitPTX = (graph.node other).waitPTX
  parentNum : ∀ other, (graph'.node other).parentNum = (graph.node other).parentNum + if txCN = other then 1 else 0
  kept : ∀ list, graph.nList list ⊆ graph'.nList list
  new : ∀ list child, child ∈ graph'.nList list ∨ child ∈ graph'.unList list →
    (child ∈ graph.nList list ∨ child ∈ graph.unList list) ∨ child = txCN

section Enlisted

variable (graph : TxConsensusGraph) (list : ChildRef) (txCN : NodeRef)

theorem enlisted_modify {push : ChildNodes → ChildNodes} {change : TxConsensusNode → TxConsensusNode}
    (kept : ∀ node, ((change node).choosedNode = node.choosedNode ∧ (change node).childNodes = node.childNodes ∧
      (change node).state = node.state ∧ (change node).waitPTX = node.waitPTX) ∧
      (change node).parentNum = node.parentNum + 1)
    (grows : ∀ children, children.nChildNodes ⊆ (push children).nChildNodes ∧
      ∀ child, child ∈ (push children).nChildNodes ∨ child ∈ (push children).unChildNodes →
        (child ∈ children.nChildNodes ∨ child ∈ children.unChildNodes) ∨ child = txCN) :
    Enlisted graph { graph with
      childLists := graph.childLists.modify list push
      nodes := graph.nodes.modify txCN change } txCN := by
  refine ⟨rfl, rfl, rfl, rfl, rfl, fun other => ?_, fun other => ?_, fun other => ?_, fun other => ?_⟩
  · unfold node
    by_cases same : other = txCN
    · simpa [same] using (kept _).1
    · simp [read_modify, same]
  · unfold node
    by_cases same : other = txCN
    · simpa [same] using (kept _).2
    · simp [read_modify, same, Ne.symm same]
  · unfold nList
    by_cases same : other = list
    · simpa [same] using (grows _).1
    · simp [read_modify, same]
  · unfold nList unList
    by_cases same : other = list
    · simpa [same] using (grows _).2
    · simp +contextual [read_modify, same]

theorem enlisted_register (ptxid : TxId) : Enlisted graph (graph.register list txCN ptxid) txCN :=
  enlisted_modify graph list txCN (fun _ => ⟨⟨rfl, rfl, rfl, rfl⟩, rfl⟩) fun _ => by simp; tauto

theorem enlisted_registerUN (ptxid : TxId) : Enlisted graph (graph.registerUN list txCN ptxid) txCN :=
  enlisted_modify graph list txCN (fun _ => ⟨⟨rfl, rfl, rfl, rfl⟩, rfl⟩) fun _ => by simp; tauto

end Enlisted

end Pobl.Partialorder
