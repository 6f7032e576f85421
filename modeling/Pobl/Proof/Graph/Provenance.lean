import Pobl.Proof.Graph.Emission

namespace Pobl.Partialorder

open Library Protos TxConsensusGraph List

variable {before graph graph' : TxConsensusGraph} {tasks tasks' added : List Task} {txCN child : NodeRef}
  {txid : TxId} {choosed : GVNode} {waitTxcn : WaitTxConsensusNode} {list : ChildRef} {name : TxId} {task : Task}

/-- The child claims to have read the value from the transaction. -/
def Claims (graph : TxConsensusGraph) (child : NodeRef) (txid : TxId) (key : Key) (value : Value) : Prop :=
  ∃ ptx, (graph.node child).choosedNode.pTx.lookup txid = some ptx ∧ ptx.kv.lookup key = some value

/-- Some child claims a read from the transaction that the writes do not hold. -/
def Contradicted (graph : TxConsensusGraph) (txid : TxId) (writeSet : GoMap GVWriteKV) : Prop :=
  ∃ child < graph.nodes.size, ∃ key value, Claims graph child txid key value ∧
    ∀ wkv, writeSet.lookup key = some wkv → wkv.value ≠ value

/-- A node with the identifier has been aborted. -/
def Aborted (graph : TxConsensusGraph) (txid : TxId) : Prop :=
  ∃ owner < graph.nodes.size, graph.txIdOf owner = txid ∧ (owner, .changedState) ∈ graph.stateLog

/-- The node names a parent that has been aborted. -/
def ParentAborted (graph : TxConsensusGraph) (child : NodeRef) : Prop :=
  ∃ ptxid ptx, (graph.node child).choosedNode.pTx.lookup ptxid = some ptx ∧ Aborted graph ptxid

/-- The owners and the wait entry of the list have the name, and its members name it as a parent. -/
structure Labelled (graph : TxConsensusGraph) (list : ChildRef) (name : TxId) : Prop where
  owners : ∀ owner < graph.nodes.size, (graph.node owner).childNodes = list → graph.txIdOf owner = name
  waits : ∀ txid waitTxcn, graph.waitUnChoosedTxCNs.lookup txid = some waitTxcn →
    waitTxcn.childNodes = list → txid = name
  members : ∀ child ∈ graph.nList list, ∃ ptx, (graph.node child).choosedNode.pTx.lookup name = some ptx

/-- The wait entry rejects only writes that contradict a claim of a child. -/
def Explained (graph : TxConsensusGraph) (txid : TxId) (waitTxcn : WaitTxConsensusNode) : Prop :=
  waitTxcn.choosedNode = none ∧ ∀ writeSet, waitTxcn.diffWaitWKV = true ∨
    disagrees writeSet waitTxcn.writeSet = true → Contradicted graph txid writeSet

/-- Every list has a name, every wait entry is explained or belongs to an aborted transaction,
and every task that aborts a node has an aborted parent. -/
structure Traced (graph : TxConsensusGraph) (tasks : List Task) : Prop where
  lists : ∀ list < graph.childLists.size, ∃ name, Labelled graph list name
  expected : ∀ txid waitTxcn, graph.waitUnChoosedTxCNs.lookup txid = some waitTxcn →
    Aborted graph txid ∨ Explained graph txid waitTxcn
  abortTask : ∀ child, .abort child ∈ tasks → ParentAborted graph child

/-- The ready batch plays no part in the causes of aborts. -/
theorem Traced.withReadyBatch {graph : TxConsensusGraph} {tasks : List Task} (traced : Traced graph tasks)
    (batch : List Envelope) : Traced { graph with readyBatch := batch } tasks := by
  refine { traced with lists := ?_ }
  intro list below
  obtain ⟨name, owners, waits, members⟩ := traced.lists list below
  exact ⟨name, owners, waits, members⟩

/-- The nodes keep their contents, and the history of the states grows. -/
structure Extends (graph graph' : TxConsensusGraph) : Prop where
  size : graph'.nodes.size = graph.nodes.size
  contents : ∀ target, (graph'.node target).choosedNode = (graph.node target).choosedNode
  log : graph.stateLog ⊆ graph'.stateLog

namespace Extends

theorem refl (graph : TxConsensusGraph) : Extends graph graph :=
  ⟨rfl, fun _ => rfl, List.Subset.refl _⟩

theorem trans {first second third : TxConsensusGraph} (earlier : Extends first second)
    (later : Extends second third) : Extends first third :=
  ⟨later.size.trans earlier.size, fun target => (later.contents target).trans (earlier.contents target),
    List.Subset.trans earlier.log later.log⟩

section

variable (change : Extends graph graph')

include change

theorem txIdOf (target : NodeRef) :
    graph'.txIdOf target = graph.txIdOf target := congrArg GVNode.txId (change.contents target)

theorem contradicted {writeSet : GoMap GVWriteKV} :
    Contradicted graph' txid writeSet ↔ Contradicted graph txid writeSet := by
  simp only [Contradicted, Claims, change.size, change.contents]

theorem aborted (aborted : Aborted graph txid) : Aborted graph' txid := by
  obtain ⟨owner, inside, name, logged⟩ := aborted
  exact ⟨owner, change.size ▸ inside, (change.txIdOf owner).trans name, change.log logged⟩

theorem parentAborted (blamed : ParentAborted graph child) : ParentAborted graph' child := by
  obtain ⟨ptxid, ptx, named, aborted⟩ := blamed
  rw [← change.contents] at named
  exact ⟨ptxid, ptx, named, change.aborted aborted⟩

theorem explained (explained : Explained graph txid waitTxcn) : Explained graph' txid waitTxcn :=
  ⟨explained.1, fun writeSet conflict => change.contradicted.mpr (explained.2 writeSet conflict)⟩

end

end Extends

theorem Move.extends (move : Move txCN graph graph') (inside : txCN < graph.nodes.size) : Extends graph graph' := by
  refine ⟨move.keeps.1, fun target => (move.keeps.2 target).1, ?_⟩
  cases move.assigns inside with
  | nothing log states => exact log ▸ List.Subset.refl _
  | state target targetIn log states => exact log ▸ subset_append_left _ _

/-- A move keeps the states and their history, or it rejects the node. -/
theorem Move.rejects_or_keeps (move : Move txCN graph graph') :
    (Reason txCN graph ∧ graph' = graph.setState txCN .changedState) ∨ graph'.stateLog = graph.stateLog ∧
        ∀ target, (graph'.node target).state = (graph.node target).state := by
  cases move with
  | reject reason => exact .inl ⟨reason, rfl⟩
  | note noted =>
    refine .inr ⟨noted.log, fun target => ?_⟩
    rw [noted.nodes target]
  | registerWait | registerNode =>
    exact .inr ⟨rfl, fun target => ((enlisted_register graph _ txCN _).nodes target).2.2.1⟩
  | enter | remove | tombstone | flag | await | expect => exact .inr ⟨rfl, fun _ => rfl⟩

theorem Move.gState (move : Move txCN graph graph') : graph'.gState = graph.gState := by
  cases move with
  | note noted => exact noted.gState
  | enter | remove | reject | registerWait | registerNode | tombstone | flag | await | expect => rfl

theorem Performed.extends (performed : Performed graph task graph' added)
    (inside : task.target < graph.nodes.size) : Extends graph graph' := by
  refine ⟨performed.keeps.1, performed.keeps.2, ?_⟩
  cases performed.assigns inside with
  | nothing log states => exact log ▸ List.Subset.refl _
  | state target targetIn log states => exact log ▸ subset_append_left _ _

/-- A label survives when the owners, the wait entries and the members stay. -/
theorem Labelled.reshape (labelled : Labelled graph list name) (change : Extends graph graph')
    (owners : ∀ owner, (graph'.node owner).childNodes = (graph.node owner).childNodes)
    (waits : ∀ txid waitTxcn', graph'.waitUnChoosedTxCNs.lookup txid = some waitTxcn' →
      waitTxcn'.childNodes = list → ∃ waitTxcn, graph.waitUnChoosedTxCNs.lookup txid = some waitTxcn ∧
        waitTxcn.childNodes = list) (members : ∀ child ∈ graph'.nList list, child ∈ graph.nList list ∨ ∃ ptx,
      (graph.node child).choosedNode.pTx.lookup name = some ptx) : Labelled graph' list name := by
  refine ⟨?_, ?_, ?_⟩
  · intro owner inside points
    rw [change.txIdOf]
    exact labelled.owners owner (change.size ▸ inside) ((owners owner).symm.trans points)
  · intro txid waitTxcn' found points
    obtain ⟨waitTxcn, old, same⟩ := waits txid waitTxcn' found points
    exact labelled.waits txid waitTxcn old same
  · intro child member
    rw [change.contents]
    rcases members child member with old | new
    · exact labelled.members child old
    · exact new

/-- A change of the verdicts keeps every label. -/
theorem Labelled.restate {target : NodeRef} (labelled : Labelled graph list name) (change : Extends graph graph')
    (restated : Restated graph graph' target) : Labelled graph' list name := by
  apply labelled.reshape change restated.childNodes
  · intro txid waitTxcn' found points
    exact ⟨waitTxcn', restated.waits ▸ found, points⟩
  · intro child member
    rw [restated.nList] at member
    exact .inl member

/-- A new place belongs to a child that names the owner of the list. -/
theorem Labelled.register {other : ChildRef} {ptxid : TxId} (labelled : Labelled graph other name)
    (change : Extends graph (graph.register list txCN ptxid))
    (named : ∃ ptx, (graph.node txCN).choosedNode.pTx.lookup ptxid = some ptx)
    (parent : (∃ waitTxcn, graph.waitUnChoosedTxCNs.lookup ptxid = some waitTxcn ∧ waitTxcn.childNodes = list) ∨
      ∃ owner < graph.nodes.size, graph.txIdOf owner = ptxid ∧ (graph.node owner).childNodes = list) :
    Labelled (graph.register list txCN ptxid) other name := by
  apply labelled.reshape change (fun owner => ((enlisted_register graph list txCN ptxid).nodes owner).2.1)
    (fun _ waitTxcn found points => ⟨waitTxcn, found, points⟩)
  intro child member
  rw [nList_register] at member
  split at member
  next same =>
    rw [same] at labelled ⊢
    have label : ptxid = name := by
      rcases parent with ⟨waitTxcn, found, points⟩ | ⟨owner, inside, owned, points⟩
      · exact labelled.waits ptxid waitTxcn found points
      · exact owned.symm.trans (labelled.owners owner inside points)
    rcases mem_append.mp member with old | new
    · exact .inl old
    · rw [mem_singleton.mp new, ← label]
      exact .inr named
  · exact .inl member

theorem Labelled.addWait {diff : Bool} {choosed : Option NodeRef} (labelled : Labelled graph list name)
    (below : list < graph.childLists.size) (change : Extends graph (graph.addWait txid diff choosed)) :
    Labelled (graph.addWait txid diff choosed) list name := by
  apply labelled.reshape change (fun _ => rfl)
  · intro other waitTxcn found points
    rcases lookup_addWait graph txid diff choosed other waitTxcn found with ⟨_, fresh, _⟩ | kept
    · exact absurd (fresh.symm.trans points) (Nat.ne_of_gt below)
    · exact ⟨waitTxcn, kept, points⟩
  · intro child member
    unfold nList at member
    rw [addWait_lists _ _ _ _ _ below] at member
    exact .inl member

/-- The list of a new wait entry has the name of the entry. -/
theorem labelled_addWait (bounded : Bounded graph []) (txid : TxId) (diff : Bool) (choosed : Option NodeRef) :
    Labelled (graph.addWait txid diff choosed) graph.childLists.size txid := by
  refine ⟨?_, ?_, ?_⟩
  · intro owner ownerIn points
    exact absurd points (Nat.ne_of_lt (bounded.owned owner ownerIn))
  · intro other waitTxcn found points
    rcases lookup_addWait graph txid diff choosed other waitTxcn found with ⟨same, _, _⟩ | kept
    · exact same
    · exact absurd points (Nat.ne_of_lt (bounded.waitOwned other waitTxcn kept))
  · intro child member
    unfold nList at member
    rw [addWait_new_lists] at member
    cases member

theorem Move.lists (move : Move txCN graph graph') (bounded : Bounded graph []) (inside : txCN < graph.nodes.size)
    (lists : ∀ list < graph.childLists.size, ∃ name, Labelled graph list name) :
    ∀ list < graph'.childLists.size, ∃ name, Labelled graph' list name := by
  have change := move.extends inside
  intro list below
  cases move.shape inside with
  | reshaped shape =>
    rw [shape.lists] at below
    obtain ⟨name, labelled⟩ := lists list below
    refine ⟨name, labelled.reshape change (fun owner => (shape.nodes owner).2.1) ?_ ?_⟩
    · intro txid waitTxcn' found points
      obtain ⟨waitTxcn, old, ⟨same, _⟩, _⟩ := shape.waits txid waitTxcn' found
      exact ⟨waitTxcn, old, same.trans points⟩
    · intro child member
      unfold nList at member
      rw [shape.lists] at member
      exact .inl member
  | addWait txid diff choosed =>
    rcases Nat.lt_succ_iff_lt_or_eq.mp below with old | new
    · obtain ⟨name, labelled⟩ := lists list old
      exact ⟨name, labelled.addWait old change⟩
    · rw [new]
      exact ⟨txid, labelled_addWait bounded txid diff choosed⟩
  | reject =>
    obtain ⟨name, labelled⟩ := lists list below
    exact ⟨name, labelled.restate change (restated_abort graph txCN)⟩
  | register target ptxid opened named parent =>
    obtain ⟨name, labelled⟩ := lists list below
    exact ⟨name, labelled.register change named parent⟩

/-- New expectations come from the claims of the child that enters. -/
theorem explained_expectKV (inside : child < graph.nodes.size) (entries : List (GoEntry Value))
    (claims : ∀ entry ∈ entries, Claims graph child txid entry.1 entry.2)
    (explained : Explained graph txid waitTxcn) : Explained graph txid (expectKV entries waitTxcn) := by
  induction entries generalizing waitTxcn with
  | nil => exact explained
  | cons entry rest ih =>
    have here := claims entry mem_cons_self
    have later := fun other member => claims other (mem_cons_of_mem _ member)
    unfold expectKV
    split
    next absent =>
      apply ih later
      refine ⟨explained.1, ?_⟩
      rintro writeSet (diff | mismatch)
      · exact explained.2 writeSet (.inl diff)
      · obtain ⟨key, value, lookup, wrong⟩ := (disagrees_eq_true_iff _ _).mp mismatch
        rcases GoMap.of_lookup_insert lookup with ⟨same, rfl⟩ | ⟨_, lookup⟩
        · exact ⟨child, inside, entry.1, entry.2, here, same ▸ wrong⟩
        · exact explained.2 writeSet (.inr ((disagrees_eq_true_iff _ _).mpr ⟨key, value, lookup, wrong⟩))
    next waitValue found =>
      split
      next different =>
        refine ⟨explained.1, fun writeSet _ => ?_⟩
        by_cases held : ∃ wkv, writeSet.lookup entry.1 = some wkv ∧ wkv.value = entry.2
        · obtain ⟨wkv, written, same⟩ := held
          refine explained.2 writeSet (.inr ((disagrees_eq_true_iff _ _).mpr
            ⟨entry.1, waitValue, found, fun other lookup => ?_⟩))
          rw [written, Option.some.injEq] at lookup
          rw [← lookup, same]
          exact different
        · exact ⟨child, inside, entry.1, entry.2, here, fun wkv written same => held ⟨wkv, written, same⟩⟩
      · exact ih later explained

/-- An explanation depends only on the deciding part of a wait entry. -/
theorem Explained.core {waitTxcn' : WaitTxConsensusNode} (explained : Explained graph txid waitTxcn)
    (same : waitTxcn'.core = waitTxcn.core) : Explained graph txid waitTxcn' := by
  obtain ⟨_, writes, diff, choosed⟩ := WaitTxConsensusNode.core_fields same
  unfold Explained
  rw [choosed, diff, writes]
  exact explained

theorem Move.expected (move : Move txCN graph graph') (inside : txCN < graph.nodes.size)
    (dead : (graph.node txCN).state = .changedState → (txCN, .changedState) ∈ graph.stateLog)
    (expected : ∀ txid waitTxcn, graph.waitUnChoosedTxCNs.lookup txid = some waitTxcn →
      Aborted graph txid ∨ Explained graph txid waitTxcn) :
    ∀ txid waitTxcn, graph'.waitUnChoosedTxCNs.lookup txid = some waitTxcn →
      Aborted graph' txid ∨ Explained graph' txid waitTxcn := by
  have change := move.extends inside
  have kept : ∀ txid waitTxcn, graph.waitUnChoosedTxCNs.lookup txid = some waitTxcn →
      Aborted graph' txid ∨ Explained graph' txid waitTxcn :=
    fun txid waitTxcn found => (expected txid waitTxcn found).imp change.aborted change.explained
  intro txid waitTxcn found
  cases move with
  | note noted =>
    obtain ⟨old, foundOld, core⟩ := noted.waits_old found
    exact (kept txid old foundOld).imp_right fun explained => explained.core core.symm
  | tombstone aborted =>
    rw [waits_addWait] at found
    split at found
    next same => exact .inl ⟨txCN, inside, same.symm, dead aborted⟩
    · exact kept txid waitTxcn found
  | flag aborted old foundOld =>
    rw [waits_setWait] at found
    split at found
    next same => exact .inl ⟨txCN, inside, same.symm, dead aborted⟩
    · exact kept txid waitTxcn found
  | await ptxid other absent =>
    rw [waits_addWait] at found
    split at found
    · cases found
      refine .inr ⟨rfl, ?_⟩
      rintro writeSet (diff | mismatch)
      · cases diff
      · cases mismatch
    · exact kept txid waitTxcn found
  | expect ptxid ptx entries old new named reads other foundOld undecided same =>
    rw [waits_setWait] at found
    split at found
    next self =>
      cases found
      rw [self]
      refine (kept ptxid old foundOld).imp_right fun explained => ?_
      refine (explained_expectKV inside entries ?_ explained).core same
      intro entry member
      exact ⟨ptx, named, (GoMap.mem_entries_iff _ _).mp (reads.mem_iff.mp member)⟩
    · exact kept txid waitTxcn found
  | enter | remove | reject | registerWait | registerNode => exact kept txid waitTxcn found

theorem Aborted.newNode (aborted : Aborted before txid) : Aborted (before.newNode choosed) txid := by
  obtain ⟨owner, inside, name, logged⟩ := aborted
  refine ⟨owner, Nat.lt_succ_of_lt inside, ?_, logged⟩
  unfold txIdOf
  rw [newNode_old before choosed owner inside]
  exact name

theorem Explained.newNode (explained : Explained before txid waitTxcn) :
    Explained (before.newNode choosed) txid waitTxcn := by
  refine ⟨explained.1, fun writeSet conflict => ?_⟩
  obtain ⟨child, inside, key, value, claims, wrong⟩ := explained.2 writeSet conflict
  refine ⟨child, Nat.lt_succ_of_lt inside, key, value, ?_, wrong⟩
  unfold Claims
  rw [newNode_old before choosed child inside]
  exact claims

theorem Labelled.newNode (labelled : Labelled before list name) (bounded : Bounded before [])
    (below : list < before.childLists.size) : Labelled (before.newNode choosed) list name := by
  refine ⟨?_, labelled.waits, ?_⟩
  · intro owner inside points
    rcases Nat.lt_succ_iff_lt_or_eq.mp inside with old | same
    · unfold txIdOf
      rw [newNode_old before choosed owner old] at points ⊢
      exact labelled.owners owner old points
    · rw [same, node_newNode_new] at points
      exact absurd points (Nat.ne_of_gt below)
  · intro child member
    unfold nList at member
    rw [newNode_lists before choosed list below] at member
    rw [newNode_old before choosed child (bounded.listed list below child (.inl member))]
    exact labelled.members child member

/-- The list of a new node has the name of the node. -/
theorem labelled_newNode (bounded : Bounded before []) (choosed : GVNode) :
    Labelled (before.newNode choosed) before.childLists.size choosed.txId := by
  refine ⟨?_, ?_, ?_⟩
  · intro owner inside points
    rcases Nat.lt_succ_iff_lt_or_eq.mp inside with old | same
    · rw [newNode_old before choosed owner old] at points
      exact absurd points (Nat.ne_of_lt (bounded.owned owner old))
    · unfold txIdOf
      rw [same, node_newNode_new]
  · intro txid waitTxcn found points
    exact absurd points (Nat.ne_of_lt (bounded.waitOwned txid waitTxcn found))
  · intro child member
    unfold nList at member
    rw [childLists_newNode, if_pos rfl] at member
    cases member

theorem Traced.newNode (traced : Traced before []) (bounded : Bounded before []) (choosed : GVNode) :
    Traced (before.newNode choosed) [] := by
  refine ⟨?_, ?_, nofun⟩
  · intro list below
    rcases Nat.lt_succ_iff_lt_or_eq.mp below with old | new
    · obtain ⟨name, labelled⟩ := traced.lists list old
      exact ⟨name, labelled.newNode bounded old⟩
    · rw [new]
      exact ⟨choosed.txId, labelled_newNode bounded choosed⟩
  · intro txid waitTxcn found
    exact (traced.expected txid waitTxcn found).imp Aborted.newNode Explained.newNode

/-- The hand-over of the child lists keeps the traces. -/
theorem Traced.handOver (traced : Traced graph []) (change : HandedOver graph graph' txCN waitTxcn)
    (inside : txCN < graph.nodes.size) (found : graph.waitUnChoosedTxCNs.lookup (graph.txIdOf txCN) = some waitTxcn)
    (dead : (graph.node txCN).state = .changedState → (txCN, .changedState) ∈ graph.stateLog) : Traced graph' [] := by
  have grows : Extends graph graph' :=
    ⟨change.size, fun target => (change.nodes target).1, change.log ▸ List.Subset.refl _⟩
  refine ⟨?_, ?_, nofun⟩
  · intro list below
    rw [change.lists] at below
    obtain ⟨name, labelled⟩ := traced.lists list below
    refine ⟨name, ?_, ?_, ?_⟩
    · intro owner ownerIn points
      rw [grows.txIdOf]
      by_cases same : owner = txCN
      · rw [same, change.self] at points
        rw [same]
        exact labelled.waits _ waitTxcn found points
      · rw [change.others owner same] at points
        exact labelled.owners owner (change.size ▸ ownerIn) points
    · intro txid waitTxcn' lookup points
      obtain ⟨old, foundOld, same, _⟩ := change.waits txid waitTxcn' lookup
      exact labelled.waits txid old foundOld (same.trans points)
    · intro child member
      rw [change.nList] at member
      rw [grows.contents]
      exact labelled.members child member
  · intro txid waitTxcn' lookup
    obtain ⟨old, foundOld, lists, diff, writes, otherName, sameName⟩ := change.waits txid waitTxcn' lookup
    by_cases name : txid = graph.txIdOf txCN
    · exact .inl (grows.aborted ⟨txCN, inside, name.symm, dead (sameName name).2⟩)
    · have core : waitTxcn'.core = old.core := by
        simp [WaitTxConsensusNode.core, lists, diff, writes, otherName name]
      exact (traced.expected txid old foundOld).imp grows.aborted
        fun explained => grows.explained (explained.core core)

/-- One task of the cascade keeps the traces, and it aborts only children of aborted parents. -/
theorem Performed.traced {rest : List Task} (performed : Performed graph task graph' added)
    (traced : Traced graph (task :: rest)) (bounded : Bounded graph (task :: rest))
    (logged : ∀ target < graph.nodes.size, (graph.node target).state = .changedState →
      (target, .changedState) ∈ graph.stateLog) :
    Traced graph' (added ++ rest) ∧ ∀ target, (target, .changedState) ∈ graph'.stateLog →
      (target, .changedState) ∈ graph.stateLog ∨ ParentAborted graph' target := by
  have inside := bounded.taskNode task mem_cons_self
  have change := performed.extends inside
  have later : ∀ child, .abort child ∈ rest → ParentAborted graph' child := fun child member =>
    change.parentAborted (traced.abortTask child (mem_cons_of_mem _ member))
  have kept : (∀ owner, (graph'.node owner).childNodes = (graph.node owner).childNodes) →
      graph'.childLists = graph.childLists → graph'.waitUnChoosedTxCNs = graph.waitUnChoosedTxCNs →
      (∀ child, .abort child ∈ added → ParentAborted graph' child) → Traced graph' (added ++ rest) := by
    intro owners lists waits new
    refine ⟨?_, ?_, ?_⟩
    · intro list below
      rw [lists] at below
      obtain ⟨name, labelled⟩ := traced.lists list below
      refine ⟨name, labelled.reshape change owners ?_ ?_⟩
      · exact fun txid waitTxcn found points => ⟨waitTxcn, waits ▸ found, points⟩
      · intro child member
        unfold nList at member
        rw [lists] at member
        exact .inl member
    · intro txid waitTxcn found
      rw [waits] at found
      exact (traced.expected txid waitTxcn found).imp change.aborted change.explained
    · intro child member
      exact (mem_append.mp member).elim (new child) (later child)
  cases performed with
  | drops dropped child releases drop positive =>
    refine ⟨kept (fun owner => (drop.nodes owner).2.1) drop.lists drop.waits nofun, ?_⟩
    intro target member
    exact .inl (drop.log ▸ member)
  | commits dropped child releases drop zero =>
    have commit := restated_commit dropped child
    refine ⟨kept (fun owner => (commit.childNodes owner).trans (drop.nodes owner).2.1)
      (commit.lists.trans drop.lists) (commit.waits.trans drop.waits)
      (fun other member => absurd member (abort_not_mem_expandDelete other)), ?_⟩
    intro target member
    rw [commit_log, drop.log, mem_append, mem_singleton] at member
    rcases member with old | new
    · exact .inl old
    · cases new
  | branchAborts txid dtxcn dead =>
    refine ⟨kept (fun _ => rfl) rfl rfl ?_, fun _ member => .inl member⟩
    intro child member
    obtain ⟨other, listed, same⟩ := mem_map.mp member
    cases same
    have parentIn : dtxcn < graph.nodes.size := inside
    obtain ⟨name, labelled⟩ := traced.lists _ (bounded.owned dtxcn parentIn)
    obtain ⟨ptx, named⟩ := labelled.members child listed
    exact ⟨name, ptx, named, dtxcn, parentIn, labelled.owners dtxcn parentIn rfl, logged dtxcn parentIn dead⟩
  | branchReleases txid dtxcn alive =>
    refine ⟨kept (fun _ => rfl) rfl rfl ?_, fun _ member => .inl member⟩
    intro child member
    obtain ⟨other, _, different⟩ := mem_map.mp member
    cases different
  | aborts child alive =>
    have abort := restated_abort graph child
    refine ⟨kept abort.childNodes rfl rfl (fun other member => absurd member (abort_not_mem_expandDelete other)), ?_⟩
    intro target member
    have log : (graph.setState child .changedState).stateLog = graph.stateLog ++ [(child, .changedState)] := rfl
    rw [log, mem_append, mem_singleton] at member
    rcases member with old | new
    · exact .inl old
    · cases new
      exact .inr (change.parentAborted (traced.abortTask child mem_cons_self))
  | skips child dead => exact ⟨kept (fun _ => rfl) rfl rfl nofun, fun _ member => .inl member⟩

end Pobl.Partialorder
