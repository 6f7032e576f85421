import Pobl.Proof.Graph.Emission

namespace Pobl.Partialorder

open Library Protos TxConsensusGraph List

variable {env : Envelope} {gnode : GVNode} {reads : List KVRead}

/-- Reading and writing sets keep the envelope, the identifier and the consensus state. -/
structure SameOrigin (gnode gnode' : GVNode) : Prop where
  txResult : gnode'.txResult = gnode.txResult
  txId : gnode'.txId = gnode.txId
  consensusState : gnode'.consensusState = gnode.consensusState
  unPTx : gnode'.unPTx = gnode.unPTx

theorem SameOrigin.foldl {Item : Type} (step : GVNode → Item → GVNode)
    (each : ∀ gnode item, SameOrigin gnode (step gnode item)) (items : List Item) (gnode : GVNode) :
    SameOrigin gnode (items.foldl step gnode) := by
  induction items generalizing gnode with
  | nil => exact ⟨rfl, rfl, rfl, rfl⟩
  | cons item rest ih =>
    have first := each gnode item
    have later := ih (step gnode item)
    exact ⟨later.txResult.trans first.txResult, later.txId.trans first.txId,
      later.consensusState.trans first.consensusState, later.unPTx.trans first.unPTx⟩

theorem processRead_origin (gnode : GVNode) (rkv : KVRead) : SameOrigin gnode (processRead gnode rkv) := by
  unfold processRead
  split <;> exact ⟨rfl, rfl, rfl, rfl⟩

theorem processNsRwSet_origin (gnode : GVNode) (rwset : NsRwSet) : SameOrigin gnode (processNsRwSet gnode rwset) := by
  unfold processNsRwSet
  split
  · exact ⟨rfl, rfl, rfl, rfl⟩
  · have reads := SameOrigin.foldl processRead processRead_origin rwset.reads gnode
    have writes := SameOrigin.foldl processWrite (fun _ _ => ⟨rfl, rfl, rfl, rfl⟩) rwset.writes
      (rwset.reads.foldl processRead gnode)
    exact ⟨writes.txResult.trans reads.txResult, writes.txId.trans reads.txId,
      writes.consensusState.trans reads.consensusState, writes.unPTx.trans reads.unPTx⟩

/-- The decoded node keeps its envelope and has consensus state 0 and no other parents. -/
theorem processEnvForBC_origin (decoded : processEnvForBC env = some gnode) :
    gnode.txResult = env ∧ gnode.consensusState = 0 ∧ gnode.unPTx = ∅ := by
  unfold processEnvForBC at decoded
  split at decoded
  · cases decoded
  · cases decoded
    have same := SameOrigin.foldl processNsRwSet processNsRwSet_origin
    exact ⟨(same _ _).txResult, (same _ _).consensusState, (same _ _).unPTx⟩

/-- Each read of the node is among the reads of its parent, with the type of a normal read. -/
def ReadsNamed (gnode : GVNode) : Prop :=
  ∀ key rkv, gnode.readSet.lookup key = some rkv → ∃ ptx,
    gnode.pTx.lookup rkv.parentTxId = some ptx ∧ ptx.kv.lookup key = some rkv.value ∧ ptx.type.lookup key = some 1

theorem processRead_named (named : ReadsNamed gnode) (read : KVRead) : ReadsNamed (processRead gnode read) := by
  unfold processRead
  split
  · intro key rkv found
    rw [GoMap.lookup_insert_apply] at found ⊢
    split at found
    next same =>
      cases found
      subst same
      exact ⟨_, if_pos rfl, AList.lookup_insert _, AList.lookup_insert _⟩
    next other =>
      obtain ⟨ptx, lookup, value, type⟩ := named key rkv found
      split
      next same =>
        refine ⟨_, rfl, ?_, ?_⟩
        · rw [AList.lookup_insert_ne other, ← same, lookup]
          exact value
        · rw [AList.lookup_insert_ne other, ← same, lookup]
          exact type
      · exact ⟨ptx, lookup, value, type⟩
  · exact named

theorem processNsRwSet_named (named : ReadsNamed gnode) (rwset : NsRwSet) :
    ReadsNamed (processNsRwSet gnode rwset) := by
  unfold processNsRwSet
  split
  · exact named
  · have reads : ReadsNamed (rwset.reads.foldl processRead gnode) :=
      foldlRecOn _ _ named fun _ known read _ => processRead_named known read
    exact foldlRecOn _ _ reads fun _ known _ _ => known

theorem processEnvForBC_named (decoded : processEnvForBC env = some gnode) : ReadsNamed gnode := by
  unfold processEnvForBC at decoded
  split at decoded
  · cases decoded
  · cases decoded
    exact foldlRecOn _ _ nofun fun _ known rwset _ => processNsRwSet_named known rwset

/-- The reads of all namespaces of an envelope. -/
def envelopeReads (env : Envelope) : List KVRead :=
  match getActionAndTxidFromEnvelopeMsg env with
  | .error _ => []
  | .ok (_, respPayload) => (respPayload.results.getD []).flatMap NsRwSet.reads

/-- Every parent of the node has reads, and they are among the given ones. -/
def ReadsListed (reads : List KVRead) (gnode : GVNode) : Prop :=
  ∀ ptxid ptx, gnode.pTx.lookup ptxid = some ptx → (∃ key value, ptx.kv.lookup key = some value) ∧
      ∀ key value, ptx.kv.lookup key = some value →
        ∃ read ∈ reads, read.key = key ∧ read.value = value ∧ read.txid = ptxid

theorem processRead_listed (listed : ReadsListed reads gnode) {read : KVRead}
    (member : read ∈ reads) : ReadsListed reads (processRead gnode read) := by
  unfold processRead
  split
  · intro ptxid ptx found
    rcases GoMap.of_lookup_insert found with ⟨same, rfl⟩ | ⟨_, found⟩
    · refine ⟨⟨read.key, read.value, AList.lookup_insert _⟩, ?_⟩
      intro key value lookup
      rcases GoMap.of_lookup_insert lookup with ⟨here, rfl⟩ | ⟨_, lookup⟩
      · exact ⟨read, member, here.symm, rfl, same.symm⟩
      · cases earlier : gnode.pTx.lookup read.txid with
        | none =>
          rw [earlier] at lookup
          cases lookup
        | some ptx =>
          rw [earlier] at lookup
          rw [same]
          exact (listed _ ptx earlier).2 key value lookup
    · exact listed ptxid ptx found
  · exact listed

theorem processNsRwSet_listed (listed : ReadsListed reads gnode) {rwset : NsRwSet}
    (inside : rwset.reads ⊆ reads) : ReadsListed reads (processNsRwSet gnode rwset) := by
  unfold processNsRwSet
  split
  · exact listed
  · have reading : ReadsListed reads (rwset.reads.foldl processRead gnode) :=
      foldlRecOn _ _ listed fun _ known _ member => processRead_listed known (inside member)
    exact foldlRecOn _ _ reading fun _ known _ _ => known

theorem processEnvForBC_listed
    (decoded : processEnvForBC env = some gnode) : ReadsListed (envelopeReads env) gnode := by
  unfold processEnvForBC at decoded
  split at decoded
  · cases decoded
  next chdr respPayload found =>
    cases decoded
    rw [envelopeReads, found]
    exact foldlRecOn _ _ nofun fun _ known rwset member =>
      processNsRwSet_listed known fun _ read => mem_flatMap.mpr ⟨rwset, member, read⟩

/-- The nodes of the graph are decoded envelopes. -/
def Decoded (graph : TxConsensusGraph) : Prop :=
  ∀ target < graph.nodes.size, processEnvForBC (graph.envelopeOf target) = some (graph.node target).choosedNode

theorem processTX_decoded {order : RangeOrder RangeSite} {choosed : GVNode} {before final : TxConsensusGraph}
    (bounded : Bounded before []) (decoded : Decoded before) (new : processEnvForBC choosed.txResult = some choosed)
    (done : processTX order before.nodes.size (before.newNode choosed) = some final) : Decoded final := by
  obtain ⟨size, contents⟩ := processTX_contents bounded done
  have zero := (processEnvForBC_origin new).2.1
  intro target inside
  unfold envelopeOf
  rw [(contents target).2 (by omega)]
  rw [size] at inside
  rcases Nat.lt_succ_iff_lt_or_eq.mp inside with below | same
  · rw [newNode_old before choosed target below]
    exact decoded target below
  · rw [same, node_newNode_new]
    exact new

end Pobl.Partialorder
