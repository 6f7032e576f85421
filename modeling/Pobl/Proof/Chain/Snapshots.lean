import Pobl.Construction.RaftApply
import Pobl.Library.Run
import Mathlib.Data.Nat.Count

namespace Pobl.RaftApply

open Library List

variable {Membership ConfChange : Type} {s : Setting Membership ConfChange} {log : Nat → Entry}
  {base genesis start count i : Nat} {c before : Chain Membership} {membership : Membership} {accDataSize : UInt32}
  {block : Block}

/-- The entry carries a block. -/
def Entry.IsBlock (entry : Entry) : Prop := entry.type = .normal ∧ entry.data ≠ []

instance : DecidablePred Entry.IsBlock := fun _ => inferInstanceAs (Decidable (_ ∧ _))

/-- The number of blocks of the log below an index. -/
def blocks (log : Nat → Entry) (index : Nat) : Nat := Nat.count (fun i => (log i).IsBlock) index

/-- The committed log of a channel: its blocks are numbered in order, and its configuration changes are legal. -/
structure Committed (s : Setting Membership ConfChange) (log : Nat → Entry) (base : Nat) : Prop where
  index : ∀ i, (log i).index = i
  block : ∀ i, (log i).IsBlock → ∃ b, s.unmarshalBlock (log i).data = some b ∧
    b.header = some (base + blocks log (i + 1)) ∧
    (b.isConfigBlock = true → ∀ config, (s.writeConfigBlock config b i).isSome)
  confChange : ∀ i, (log i).type = .confChange → ∃ cc, s.unmarshalConfChange (log i).data = some cc ∧
    ∀ membership, (s.applyConfChange membership cc).isSome

/-- The data of the snapshot is the last block at or below its index. -/
def LastBlock (log : Nat → Entry) (snapshot : Gc Membership) : Prop :=
  ∃ i ≤ snapshot.index, (log i).IsBlock ∧ (log i).data = snapshot.data ∧
    ∀ later, i < later → later ≤ snapshot.index → ¬ (log later).IsBlock

/-- The chain wrote the blocks of the log above the genesis number, each once and in order. -/
structure Applied (s : Setting Membership ConfChange) (log : Nat → Entry) (base genesis : Nat)
    (c : Chain Membership) : Prop where
  last : c.lastBlock = max genesis (base + blocks log (c.appliedIndex + 1))
  numbers : c.written.map (·.1.header) = (range' (genesis + 1) (c.lastBlock - genesis)).map some
  source : ∀ entry ∈ c.written, (log entry.2).IsBlock ∧ s.unmarshalBlock (log entry.2).data = some entry.1
  snapshots : ∀ snapshot ∈ c.snapshots, LastBlock log snapshot

/-- Only a new block raises the number of applied blocks. -/
theorem blocks_advance {applied : Nat} (next : i ≤ applied + 1) (old : (log i).IsBlock → i ≤ applied) :
    blocks log (max applied i + 1) = blocks log (applied + 1) := by
  rcases Nat.le_or_eq_of_le_succ next with before | rfl
  · rw [Nat.max_eq_left before]
  · have empty : ¬ (log (applied + 1)).IsBlock := fun block => by have := old block; omega
    simp [blocks, Nat.count_succ, empty]

/-- An iteration without a new block keeps what was written. -/
theorem Applied.advance (applied : Applied s log base genesis c) (next : i ≤ c.appliedIndex + 1)
    (old : (log i).IsBlock → i ≤ c.appliedIndex) :
    Applied s log base genesis (.advance { c with membership, accDataSize } i) :=
  { applied with last := by rw [Chain.advance, blocks_advance next old]; exact applied.last }

/-- A block with at most the next number is written if it has the next number. -/
theorem writeBlock_eq_some {number index : Nat} (header : block.header = some number)
    (next : number ≤ c.lastBlock + 1)
    (legal : block.isConfigBlock = true → ∀ config, (s.writeConfigBlock config block index).isSome) :
    ∃ membership sizeLimit, c.writeBlock s block index = some { c with
      lastBlock := max c.lastBlock number
      written := c.written ++ if number = c.lastBlock + 1 then [(block, index)] else []
      membership, sizeLimit } := by
  have notAbove : ¬ number > c.lastBlock + 1 := by omega
  simp only [Chain.writeBlock, inOrder, header, Option.bind_eq_bind, Option.bind_some, notAbove, if_false]
  rcases Nat.lt_or_eq_of_le next with old | rfl
  · have different : number ≠ c.lastBlock + 1 := by omega
    have known : max c.lastBlock number = c.lastBlock := by omega
    refine ⟨c.membership, c.sizeLimit, ?_⟩
    simp [old, different, known]
  · by_cases config : block.isConfigBlock = true
    · obtain ⟨⟨membership, sizeLimit⟩, made⟩ := Option.isSome_iff_exists.mp (legal config (c.membership, c.sizeLimit))
      exact ⟨membership, sizeLimit, by simp [config, made]⟩
    · exact ⟨c.membership, c.sizeLimit, by simp [config]⟩

/-- The next block of the log is written, unless the ledger has it already. -/
theorem Applied.write (applied : Applied s log base genesis c) {sizeLimit : UInt32}
    (isBlock : (log (c.appliedIndex + 1)).IsBlock)
    (decoded : s.unmarshalBlock (log (c.appliedIndex + 1)).data = some block)
    (header : block.header = some (base + blocks log (c.appliedIndex + 1 + 1))) :
    Applied s log base genesis (.advance { c with
      lastBlock := max c.lastBlock (base + blocks log (c.appliedIndex + 1 + 1))
      written := c.written ++
        if base + blocks log (c.appliedIndex + 1 + 1) = c.lastBlock + 1 then [(block, c.appliedIndex + 1)] else []
      membership, sizeLimit, accDataSize } (c.appliedIndex + 1)) := by
  have count : blocks log (c.appliedIndex + 1 + 1) = blocks log (c.appliedIndex + 1) + 1 := by
    simp [blocks, Nat.count_succ, isBlock]
  have last := applied.last
  refine ⟨?_, ?_, ?_, applied.snapshots⟩
  · simp only [Chain.advance, Nat.max_eq_right (Nat.le_succ c.appliedIndex), count, last]
    omega
  · simp only [Chain.advance]
    split
    next same =>
      have above : c.lastBlock + 1 - genesis = c.lastBlock - genesis + 1 := by omega
      have number : genesis + 1 + (c.lastBlock - genesis) = c.lastBlock + 1 := by omega
      simp [above, range'_concat, applied.numbers, header, same, number]
    next other =>
      have known : max c.lastBlock (base + blocks log (c.appliedIndex + 1 + 1)) = c.lastBlock := by omega
      simp [known, applied.numbers]
  · simp only [Chain.advance]
    split
    · simpa [or_imp, forall_and, isBlock, decoded] using applied.source
    · simpa using applied.source

/-- The size of the data after a batch. -/
def Chain.accumulated (c : Chain Membership) (ents : List Entry) : UInt32 :=
  ents.foldl (fun size entry => if entry.IsBlock then size + UInt32.ofNat entry.data.length else size) c.accDataSize

/-- What the loop has done after some entries of a batch: the position is the last block of them, and without a new
block the limit is the old one. -/
structure Looped (s : Setting Membership ConfChange) (log : Nat → Entry) (base genesis : Nat)
    (before : Chain Membership) (start count : Nat) (state : Chain Membership × Entry) : Prop where
  bounded : start ≤ before.appliedIndex + 1
  applied : Applied s log base genesis state.1
  index : state.1.appliedIndex = max before.appliedIndex (start + count - 1)
  size : state.1.accDataSize = before.accumulated ((range' start count).map log)
  limit : (∀ i, start ≤ i → i < start + count → (log i).IsBlock → i ≤ before.appliedIndex) →
    state.1.sizeLimit = before.sizeLimit
  position : (∃ i, start ≤ i ∧ i < start + count ∧ (log i).IsBlock) → ∃ i < start + count, (log i).IsBlock ∧
    state.2 = log i ∧ ∀ later, i < later → later < start + count → ¬ (log later).IsBlock

theorem accumulated_concat (start count : Nat) : before.accumulated ((range' start (count + 1)).map log) =
      let size := before.accumulated ((range' start count).map log)
      if (log (start + count)).IsBlock then size + UInt32.ofNat (log (start + count)).data.length else size := by
  simp [Chain.accumulated, range'_concat]

theorem Looped.next {state next : Chain Membership × Entry}
    (looped : Looped s log base genesis before start count state) (applied : Applied s log base genesis next.1)
    (index : next.1.appliedIndex = max state.1.appliedIndex (start + count))
    (size : next.1.accDataSize = if (log (start + count)).IsBlock then
      state.1.accDataSize + UInt32.ofNat (log (start + count)).data.length else state.1.accDataSize)
    (limit : ((log (start + count)).IsBlock → start + count ≤ before.appliedIndex) →
      next.1.sizeLimit = state.1.sizeLimit)
    (position : next.2 = if (log (start + count)).IsBlock then log (start + count) else state.2) :
    Looped s log base genesis before start (count + 1) next := by
  refine ⟨looped.bounded, applied, ?_, ?_, ?_, ?_⟩
  · rw [index, looped.index]
    omega
  · rw [size, accumulated_concat, looped.size]
  · intro old
    rw [limit (old (start + count) (by omega) (by omega)), looped.limit]
    exact fun i from' below => old i from' (by omega)
  · rintro ⟨i, from', below, block⟩
    by_cases here : (log (start + count)).IsBlock
    · exact ⟨start + count, by omega, here, by rw [position, if_pos here], by omega⟩
    · have different : i ≠ start + count := fun same => here (same ▸ block)
      obtain ⟨last, inside, lastBlock, same, none⟩ := looped.position ⟨i, from', by omega, block⟩
      refine ⟨last, by omega, lastBlock, by rw [position, if_neg here, same], fun later above within => ?_⟩
      by_cases same : later = start + count
      · exact same ▸ here
      · exact none later above (by omega)

/-- One iteration. The entry is at most the one after the applied ones. -/
theorem Looped.step (committed : Committed s log base) {state : Chain Membership × Entry}
    (looped : Looped s log base genesis before start count state) :
    ∃ next, Chain.applyEntry s state (log (start + count)) = some next ∧
      Looped s log base genesis before start (count + 1) next := by
  obtain ⟨c, position⟩ := state
  have applied := looped.applied
  have reached := looped.index
  have nextIndex : start + count ≤ c.appliedIndex + 1 := by
    dsimp only at reached
    omega
  have index := committed.index (start + count)
  cases kind : (log (start + count)).type with
  | normal =>
    by_cases empty : (log (start + count)).data = []
    · have noBlock : ¬ (log (start + count)).IsBlock := fun block => block.2 empty
      refine ⟨(c.advance (start + count), position), by simp [Chain.applyEntry, kind, empty, index], ?_⟩
      exact looped.next (applied.advance nextIndex (absurd · noBlock)) rfl (by simp [noBlock, Chain.advance])
        (fun _ => rfl) (by simp [noBlock])
    · have block : (log (start + count)).IsBlock := ⟨kind, empty⟩
      by_cases old : start + count ≤ c.appliedIndex
      · refine ⟨((c.accumulate (log (start + count)).data).advance (start + count), log (start + count)), ?_, ?_⟩
        · simp [Chain.applyEntry, kind, empty, index, Chain.accumulate, old]
        · exact looped.next (applied.advance nextIndex fun _ => old) rfl
            (by simp [block, Chain.advance, Chain.accumulate]) (fun _ => rfl) (by simp [block])
      · have fresh : start + count = c.appliedIndex + 1 := by omega
        obtain ⟨b, decoded, header, legal⟩ := committed.block _ block
        have number : base + blocks log (start + count + 1) ≤ c.lastBlock + 1 := by
          have last := applied.last
          dsimp only at last
          rw [fresh, blocks, Nat.count_succ, ← blocks]
          split <;> omega
        obtain ⟨membership, sizeLimit, written⟩ := writeBlock_eq_some
          (c := c.accumulate (log (start + count)).data) header number legal
        have made : Chain.applyEntry s (c, position) (log (start + count)) =
            ((c.accumulate (log (start + count)).data).writeBlock s b (start + count)).map fun c =>
              (c.advance (start + count), log (start + count)) := by
          simp [Chain.applyEntry, kind, empty, index, decoded, old, Chain.accumulate, Option.map_eq_bind]
        rw [made, written]
        refine ⟨_, rfl, ?_⟩
        refine looped.next ?_ rfl (by simp [block, Chain.advance, Chain.accumulate]) (fun none => ?_) (by simp [block])
        · rw [fresh] at block decoded header ⊢
          exact applied.write block decoded header
        · dsimp only at reached
          have := none block
          omega
  | confChange =>
    have noBlock : ¬ (log (start + count)).IsBlock := fun block => nomatch kind.symm.trans block.1
    obtain ⟨cc, decoded, legal⟩ := committed.confChange _ kind
    obtain ⟨membership, made⟩ := Option.isSome_iff_exists.mp (legal c.membership)
    refine ⟨(Chain.advance { c with membership } (start + count), position), ?_, ?_⟩
    · simp [Chain.applyEntry, kind, decoded, made, index]
    · exact looped.next (applied.advance nextIndex (absurd · noBlock)) rfl (by simp [noBlock, Chain.advance])
        (fun _ => rfl) (by simp [noBlock])

theorem looped_batch (committed : Committed s log base) (bounded : start ≤ before.appliedIndex + 1)
    (applied : Applied s log base genesis before) (first : Entry) (count : Nat) :
    ∃ state, ((range' start count).map log).foldlM (Chain.applyEntry s) (before, first) = some state ∧
      Looped s log base genesis before start count state := by
  induction count with
  | zero => exact ⟨_, rfl, bounded, applied, by simp; omega, rfl, fun _ => rfl, by rintro ⟨i, _, _, _⟩; omega⟩
  | succ count ih =>
    obtain ⟨state, reached, looped⟩ := ih
    obtain ⟨next, stepped, after⟩ := looped.step committed
    refine ⟨next, ?_, after⟩
    simp [range'_concat, foldlM_append, reached, stepped]

/-- The batch is the part of the log from an entry that is at most the next one. -/
def Chain.Delivered (log : Nat → Entry) (c : Chain Membership) (ents : List Entry) : Prop :=
  ∃ start count, ents = (range' start count).map log ∧ start ≤ c.appliedIndex + 1

/-- The batch has a block and is not behind the applied entries, or the data stays below the limit. -/
def Chain.Placed (c : Chain Membership) (ents : List Entry) : Prop :=
  ((∃ entry ∈ ents, entry.IsBlock) ∧ ∀ last ∈ ents.getLast?, c.appliedIndex ≤ last.index) ∨
    c.accumulated ents < c.sizeLimit

theorem apply_returns (committed : Committed s log base) (applied : Applied s log base genesis before)
    {ents : List Entry} (gcWaits : Bool) (delivered : before.Delivered log ents) (placed : before.Placed ents) :
    ∃ next, before.apply s (ents, gcWaits) = some next ∧ Applied s log base genesis next := by
  obtain ⟨start, count, rfl, bounded⟩ := delivered
  cases count with
  | zero => exact ⟨before, rfl, applied⟩
  | succ count =>
    obtain ⟨⟨c, position⟩, reached, looped⟩ := looped_batch committed bounded applied (log start) (count + 1)
    have notAhead : ¬ (log start).index > before.appliedIndex + 1 := by rw [committed.index]; omega
    have unfolded : before.apply s ((range' start (count + 1)).map log, gcWaits) =
        c.takeSnapshot s position gcWaits := by
      rw [range'_succ, map_cons] at reached ⊢
      simp [Chain.apply, notAhead, reached]
    rw [unfolded, Chain.takeSnapshot]
    have after := looped.applied
    have index := looped.index
    by_cases full : c.accDataSize ≥ c.sizeLimit
    · have ahead : (∃ i, start ≤ i ∧ i < start + (count + 1) ∧ (log i).IsBlock) ∧
          before.appliedIndex ≤ start + count := by
        rcases placed with ⟨⟨entry, member, block⟩, last⟩ | small
        · obtain ⟨i, inside, rfl⟩ := mem_map.mp member
          rw [mem_range'_1] at inside
          refine ⟨⟨i, inside.1, inside.2, block⟩, ?_⟩
          simpa [range'_concat, committed.index] using last
        · by_contra behind
          have limit := looped.limit fun i from' below block => by
            by_contra fresh
            exact behind ⟨⟨i, from', below, block⟩, by omega⟩
          rw [← looped.size, ← limit] at small
          exact UInt32.not_le.mpr small full
      obtain ⟨i, inside, block, rfl, none⟩ := looped.position ahead.1
      obtain ⟨b, decoded, header, -⟩ := committed.block i block
      cases gcWaits with
      | false => exact ⟨c, by simp [full, decoded], after⟩
      | true =>
        simp only [full, decoded, header, if_true, Option.bind_eq_bind, Option.bind_some]
        refine ⟨_, rfl, after.last, after.numbers, after.source, ?_⟩
        have latest : LastBlock log ⟨c.appliedIndex, c.membership, (log i).data⟩ := by
          dsimp only at index
          refine ⟨i, by dsimp only; omega, block, rfl, fun later above below => none later above ?_⟩
          dsimp only at below
          omega
        simpa [or_imp, forall_and, latest] using after.snapshots
    · exact ⟨c, by simp [full], after⟩

/-- In every run whose batches keep the position at the last block, no call panics, the blocks are written in order and
each snapshot has the last block at its index. -/
theorem apply_safe (committed : Committed s log base) (unwritten : c.written = []) (unasked : c.snapshots = [])
    (known : base + blocks log (c.appliedIndex + 1) ≤ c.lastBlock) (batches : List (List Entry × Bool))
    (delivered : Guarded (Chain.apply s) (fun c batch => c.Delivered log batch.1) c batches)
    (placed : Guarded (Chain.apply s) (fun c batch => c.Placed batch.1) c batches) :
    ∃ final, run (Chain.apply s) c batches = some final ∧ Applied s log base c.lastBlock final := by
  have initially : Applied s log base c.lastBlock c :=
    ⟨(Nat.max_eq_left known).symm, by simp [unwritten], by simp [unwritten], by simp [unasked]⟩
  refine run_returns _ _ _ (fun _ batch both applied => ?_) batches c initially
    (guarded_combine (fun _ _ => And.intro) delivered placed)
  exact apply_returns committed applied batch.2 both.1 both.2

section Sample

/-- Blocks are one byte long, and the empty message has no header. -/
def oneByte : Setting Unit Unit where
  unmarshalBlock
    | [] => some ⟨none, false⟩
    | [number] => some ⟨some number.toNat, false⟩
    | _ => none
  unmarshalConfChange _ := some ()
  applyConfChange _ _ := some ()
  writeConfigBlock config _ _ := some config

/-- A log with one block, and then only the empty entries of new leaders. -/
def oneBlock : Nat → Entry
  | 1 => ⟨1, .normal, [1]⟩
  | i => ⟨i, .normal, []⟩

def fresh : Chain Unit := ⟨0, 0, 0, 1, 0, (), [], []⟩

theorem committed_oneBlock : Committed oneByte oneBlock 0 where
  index
    | 0 | 1 | _ + 2 => rfl
  block
    | 0, block | _ + 2, block => absurd rfl block.2
    | 1, _ => ⟨⟨some 1, false⟩, rfl, rfl, nofun⟩
  confChange
    | 0, other | 1, other | _ + 2, other => nomatch other

theorem apply_safe_oneBlock : ∃ final,
    run (Chain.apply oneByte) fresh [([oneBlock 1, oneBlock 2], true)] = some final ∧
    Applied oneByte oneBlock 0 0 final :=
  apply_safe (c := fresh) committed_oneBlock rfl rfl (by decide) [([oneBlock 1, oneBlock 2], true)]
    ⟨⟨1, 2, rfl, by decide⟩, fun _ _ => trivial⟩
    ⟨.inl ⟨⟨oneBlock 1, by simp, by decide⟩, by simp [fresh]⟩, fun _ _ => trivial⟩

/-- The snapshot is asked for with an empty entry after a hand-over that found no receiver. -/
theorem apply_panics : Committed oneByte oneBlock 0 ∧
    Guarded (Chain.apply oneByte) (fun c batch => c.Delivered oneBlock batch.1) fresh
      [([oneBlock 1], false), ([oneBlock 2], true)] ∧
    run (Chain.apply oneByte) fresh [([oneBlock 1], false), ([oneBlock 2], true)] = none := by
  refine ⟨committed_oneBlock, ⟨⟨1, 1, rfl, by decide⟩, fun next stepped => ?_⟩, by decide⟩
  cases stepped
  exact ⟨⟨2, 1, rfl, by decide⟩, fun _ _ => trivial⟩

end Sample

end Pobl.RaftApply
