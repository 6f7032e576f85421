import Pobl.Construction.Membership
import Pobl.Library.Run

namespace Pobl.Membership

open Library Chain List

variable {c c' : Chain} {block : Block} {index : Nat} {entries : List (Block × Nat)}

/-- A config block carries new consensus metadata of its channel. -/
def Block.Reconfigures (block : Block) : Prop := ∃ metadata, block.type = .config (some metadata)

/-- Each block in the ledger has the raft index of its entry. A chain that restarts from the last one skips the
entries up to this block. -/
structure Persisted (c : Chain) : Prop where
  raftIndex : ∀ stored ∈ c.written, stored.metadata.raftIndex = stored.index
  restart : ∀ stored, c.written.getLast? = some stored → ∀ (Members Change : Type)
    (setting : RaftApply.Setting Members Change) (chain : RaftApply.Chain Members) (position entry : RaftApply.Entry),
    chain.appliedIndex = stored.metadata.raftIndex → entry.type = .normal → entry.index ≤ stored.index →
    ∃ next, RaftApply.Chain.applyEntry setting (chain, position) entry = some next ∧ next.1.written = chain.written

theorem persisted_iff : Persisted c ↔ ∀ stored ∈ c.written, stored.metadata.raftIndex = stored.index := by
  refine ⟨Persisted.raftIndex, fun same => ⟨same, ?_⟩⟩
  intro stored last Members Change setting chain position entry restarted normal below
  rw [← same stored (List.mem_of_getLast? last), ← restarted] at below
  simp only [RaftApply.Chain.applyEntry, normal]
  split_ifs with empty above
  · exact ⟨_, rfl, rfl⟩
  · exact ⟨_, rfl, rfl⟩
  · exact absurd below above

theorem computeMembershipChanges_raftIndex {metadata : BlockMetadata} {consenters : Consenters}
    {newConsenters : List Consenter} {changes : MembershipChanges}
    (computed : computeMembershipChanges metadata consenters newConsenters = .ok changes) :
    changes.newBlockMetadata.raftIndex = metadata.raftIndex := by
  unfold computeMembershipChanges at computed
  dsimp only at computed
  split at computed <;> cases computed <;> rfl

/-- A block that is written has its raft index, unless it carries new consensus metadata. Then the metadata in it is a
clone that was made before the index was set. -/
theorem writeBlock_written (above : c.blockMetadata.raftIndex < index) (wrote : c.writeBlock (block, index) = some c') :
    c'.blockMetadata.raftIndex ≤ index ∧
      if block.number = c.lastBlock.number + 1 then ∃ metadata, c'.written = c.written ++ [⟨block, metadata, index⟩] ∧
        (metadata.raftIndex = index ↔ ¬block.Reconfigures)
      else c'.written = c.written := by
  unfold writeBlock RaftApply.inOrder at wrote
  dsimp only at wrote
  split_ifs at wrote with later earlier
  · cases wrote
    grind
  rw [if_pos (by omega)]
  unfold writeConfigBlock detectConfChange at wrote
  cases type : block.type with
  | normal =>
    rw [type] at wrote
    cases wrote
    exact ⟨le_rfl, _, rfl, by simp [Block.Reconfigures, type, setRaftIndex]⟩
  | config metadata =>
    simp only [type] at wrote
    cases metadata with
    | none =>
      cases wrote
      exact ⟨le_rfl, _, rfl, by simp [Block.Reconfigures, type, setRaftIndex]⟩
    | some configMetadata =>
      cases computed : computeMembershipChanges c.blockMetadata c.consenters configMetadata.consenters with
      | error err => simp [computed] at wrote
      | ok changes =>
        have stale := computeMembershipChanges_raftIndex computed
        have different : changes.newBlockMetadata.raftIndex ≠ index := by omega
        simp only [computed] at wrote
        have reconfigures : block.Reconfigures := ⟨configMetadata, type⟩
        split at wrote <;> cases wrote <;> exact ⟨stale.trans_le above.le, _, rfl, by simp [different, reconfigures]⟩
  | ordererTransaction =>
    simp only [type] at wrote
    cases wrote
    exact ⟨le_rfl, _, rfl, by simp [Block.Reconfigures, type, setRaftIndex]⟩
  | other => simp [type] at wrote

/-- The raft index is in each block if and only if no block that is written carries new consensus metadata. -/
theorem raftIndex_persisted_iff (fresh : c.written = [])
    (ascending : (c.blockMetadata.raftIndex :: entries.map Prod.snd).Pairwise (· < ·))
    (reached : run writeBlock c entries = some c') :
    Persisted c' ↔ Guarded writeBlock
      (fun c entry => entry.1.number = c.lastBlock.number + 1 → ¬entry.1.Reconfigures) c entries := by
  have general : (∀ stored ∈ c'.written, stored.metadata.raftIndex = stored.index) ↔
      (∀ stored ∈ c.written, stored.metadata.raftIndex = stored.index) ∧ Guarded writeBlock
        (fun c entry => entry.1.number = c.lastBlock.number + 1 → ¬entry.1.Reconfigures) c entries := by
    clear fresh
    induction entries generalizing c with
    | nil =>
      cases reached
      simp [Guarded]
    | cons entry rest ih =>
      obtain ⟨next, wrote, reached⟩ := Option.bind_eq_some_iff.mp reached
      rw [map_cons, pairwise_cons, pairwise_cons] at ascending
      obtain ⟨above, later, rest⟩ := ascending
      obtain ⟨bound, written⟩ := writeBlock_written (above _ mem_cons_self) wrote
      rw [ih (pairwise_cons.mpr ⟨fun index listed => bound.trans_lt (later index listed), rest⟩) reached]
      simp only [Guarded, wrote, Option.some.injEq, forall_eq']
      split_ifs at written with due
      · obtain ⟨metadata, written, index⟩ := written
        simp only [written, forall_mem_append, forall_mem_singleton, index, due, forall_const, and_assoc]
      · simp [written, due]
  rw [persisted_iff, general, fresh]
  simp

def sampleConsenter : Consenter := ⟨"orderer", 7050, [1], [2]⟩

def sampleChain : Chain where
  blockMetadata := ⟨[1], 2, 5⟩
  consenters := AList.singleton 1 sampleConsenter
  sizeLimit := 100
  lastBlock := ⟨1, .normal⟩
  confChangeInProgress := none
  configInflight := false
  written := []

/-- A normal block and a config block without consensus metadata have their indices. -/
theorem raftIndex_persisted_two :
    ∃ c', run writeBlock sampleChain [(⟨2, .normal⟩, 6), (⟨3, .config none⟩, 8)] = some c' ∧ Persisted c' := by
  have reached : run writeBlock sampleChain [(⟨2, .normal⟩, 6), (⟨3, .config none⟩, 8)] = some _ := rfl
  refine ⟨_, reached, (raftIndex_persisted_iff rfl (by decide) reached).mpr (guarded_of_forall _ _ ?_ _)⟩
  simp [Block.Reconfigures]

/-- A config block with the same consenters has the index of the block before it. -/
theorem raftIndex_not_persisted :
    (run writeBlock sampleChain [(⟨2, .config (some ⟨none, [sampleConsenter]⟩)⟩, 6)]).map
      (fun c => c.written.map fun stored => (stored.metadata.raftIndex, stored.index)) = some [(5, 6)] := by
  rfl

end Pobl.Membership
