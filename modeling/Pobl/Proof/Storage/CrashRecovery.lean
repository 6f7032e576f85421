/-
This file shows that the ledger storage opens after every crash but one: a crash between the append of the first block
and the commit of its private data.
-/

import Pobl.Construction.LedgerStorage
import Pobl.Library.Run

namespace Pobl.LedgerStorage

open Library

variable {Block Data : Type} {chain : Nat → Block × Data} {height pvtHeight : Nat} {pending : Bool}
  {s : Store Block Data}

/-- The disk with the first blocks of a chain and with the private data of its first blocks. -/
def image (chain : Nat → Block × Data) (height pvtHeight : Nat) (pending : Bool) : Disk Block Data where
  blocks := (List.range height).map fun n => (chain n).1
  lastCommittedBlock := if pvtHeight = 0 then none else some (pvtHeight - 1)
  pendingCommit := pending
  pvtData := (List.range (pvtHeight + if pending then 1 else 0)).map fun n => (n, (chain n).2)

namespace Store

/-- The storage is open over such a disk. -/
structure At (chain : Nat → Block × Data) (height pvtHeight : Nat) (pending : Bool) (s : Store Block Data) :
    Prop where
  disk : s.disk = image chain height pvtHeight pending
  isEmpty : s.isEmpty = decide (pvtHeight = 0)
  lastCommittedBlock : s.lastCommittedBlock = pvtHeight - 1
  batchPending : s.batchPending = pending

theorem At.nextBlockNum (opened : At chain height pvtHeight pending s) : s.nextBlockNum = pvtHeight := by
  simp only [Store.nextBlockNum, opened.isEmpty, opened.lastCommittedBlock, decide_eq_true_eq]
  split <;> omega

theorem At.initState : At chain height pvtHeight pending (initState (image chain height pvtHeight pending)) := by
  refine ⟨rfl, ?_, ?_, rfl⟩
  · by_cases empty : pvtHeight = 0 <;> simp [Store.initState, image, empty]
  · by_cases empty : pvtHeight = 0 <;> simp [Store.initState, image, empty]

theorem At.prepare (opened : At chain height pvtHeight false s) :
    ∃ after, s.prepare pvtHeight (chain pvtHeight).2 = .ok after ∧ At chain height pvtHeight true after ∧
      after.images = s.images ++ [image chain height pvtHeight true] := by
  refine ⟨{ s.write (image chain height pvtHeight true) with batchPending := true }, ?_,
    ⟨rfl, opened.isEmpty, opened.lastCommittedBlock, rfl⟩, rfl⟩
  simp [Store.prepare, require, opened.batchPending, opened.nextBlockNum, opened.disk, image, List.range_succ]

theorem At.commit (opened : At chain height pvtHeight true s) :
    ∃ after, s.commit = .ok after ∧ At chain height (pvtHeight + 1) false after ∧
      after.images = s.images ++ [image chain height (pvtHeight + 1) false] := by
  refine ⟨{ s.write (image chain height (pvtHeight + 1) false) with
    batchPending := false, isEmpty := false, lastCommittedBlock := pvtHeight }, ?_, ⟨rfl, by simp, rfl, rfl⟩, rfl⟩
  simp [Store.commit, require, opened.batchPending, opened.nextBlockNum, opened.disk, image]

theorem At.addBlock (opened : At chain height pvtHeight pending s) :
    ∃ after, s.addBlock height (chain height).1 = .ok after ∧ At chain (height + 1) pvtHeight pending after ∧
      after.images = s.images ++ [image chain (height + 1) pvtHeight pending] := by
  refine ⟨s.write (image chain (height + 1) pvtHeight pending), ?_,
    { opened with disk := rfl }, rfl⟩
  simp [Store.addBlock, require, opened.disk, image, List.range_succ]

/-- The commit of the next block, and the disks that a crash of it can leave. -/
theorem At.commitWithPvtData (opened : At chain height pvtHeight false s) (start : s.images = [s.disk])
    (notBehind : height ≤ pvtHeight) (near : pvtHeight ≤ height + 1) :
    ∃ after, s.commitWithPvtData height (chain height).1 (chain height).2 = .ok after ∧
      At chain (height + 1) (height + 1) false after ∧
      after.images = if pvtHeight = height then
          [image chain height height false, image chain height height true, image chain (height + 1) height true,
            image chain (height + 1) (height + 1) false]
        else [image chain height (height + 1) false, image chain (height + 1) (height + 1) false] := by
  have level : s.lastCommittedBlockHeight = pvtHeight := opened.nextBlockNum
  rw [opened.disk] at start
  rcases Nat.le_or_eq_of_le_succ near with below | rfl
  · obtain rfl : pvtHeight = height := by omega
    obtain ⟨prepared, first, openedFirst, imagesFirst⟩ := opened.prepare
    obtain ⟨added, second, openedSecond, imagesSecond⟩ := openedFirst.addBlock
    obtain ⟨committed, third, openedThird, imagesThird⟩ := openedSecond.commit
    refine ⟨committed, ?_, openedThird, by simp [imagesThird, imagesSecond, imagesFirst, start]⟩
    simp [Store.commitWithPvtData, level, first, second, third]
  · obtain ⟨added, made, openedAfter, images⟩ := opened.addBlock
    refine ⟨{ added with isPvtstoreAheadOfBlockstore := false }, ?_,
      { openedAfter with }, ?_⟩
    · simp [Store.commitWithPvtData, level, made]
    · simp [images, start]

/-- A disk opens unless it has blocks while no private data was ever committed. -/
theorem openStore_returns (notStuck : pvtHeight = 0 → height = 0) :
    ∃ after, openStore (image chain height pvtHeight pending) = .ok after ∧
      At chain height (pvtHeight + if pending then 1 else 0) false after ∧
      after.images = image chain height pvtHeight pending ::
        if pending then [image chain height (pvtHeight + 1) false] else [] := by
  have opened := @At.initState _ _ chain height pvtHeight pending
  have present : ¬ ((initState (image chain height pvtHeight pending)).isEmpty = true ∧
      (initState (image chain height pvtHeight pending)).disk.blocks.length > 0) := by
    rw [opened.isEmpty, opened.disk]
    simpa [image] using notStuck
  have started : (initState (image chain height pvtHeight pending)).init =
      (initState (image chain height pvtHeight pending)).commitPendingBatchInPvtdataStore := by
    rw [init, initPvtdataStoreFromExistingBlockchain, if_neg present]
    rfl
  rw [openStore, started, commitPendingBatchInPvtdataStore, opened.batchPending]
  cases pending with
  | false => exact ⟨_, rfl, { opened with }, rfl⟩
  | true =>
    obtain ⟨committed, made, after, images⟩ := opened.commit
    rw [if_pos rfl, made]
    exact ⟨_, rfl, { after with }, images⟩

/-- However often the opening crashes, the storage opens in the end. -/
theorem reopen_returns (notStuck : pvtHeight = 0 → height = 0) (crashes : List Nat) :
    ∃ after, reopen (image chain height pvtHeight pending) crashes = .ok after ∧
      At chain height (pvtHeight + if pending then 1 else 0) false after := by
  induction crashes generalizing pvtHeight pending with
  | nil =>
    obtain ⟨after, made, opened, -⟩ := @openStore_returns _ _ chain _ _ pending notStuck
    exact ⟨after, made, opened⟩
  | cons writes rest ih =>
    obtain ⟨after, made, opened, images⟩ := @openStore_returns _ _ chain _ _ pending notStuck
    have again : reopen (image chain height pvtHeight pending) (writes :: rest) =
        reopen (after.images[writes]?.getD after.disk) rest := by
      rw [reopen, made]
      rfl
    rw [again, images, opened.disk]
    -- The opening crashes before its only write or after it.
    cases pending with
    | false =>
      rcases writes with _ | writes
      · exact ih notStuck
      · exact ih notStuck
    | true =>
      rcases writes with _ | _ | writes
      · exact ih notStuck
      · exact ih nofun
      · exact ih nofun

/-- The crash does not hit the commit of the first block between its second and its third write. -/
def Spared (s : Store Block Data) : List Nat → Prop
  | 2 :: _ => ¬ (s.disk.blocks.length = 0 ∧ s.isEmpty = true)
  | _ => True

/-- The commit does not end before the append of its block. -/
def Appends (s : Store Block Data) : List Nat → Prop
  | [] => True
  | writes :: _ => (if s.nextBlockNum = s.disk.blocks.length then 2 else 1) ≤ writes

/-- The storage has the blocks of the chain and the private data of at least these blocks. -/
structure Recovered (chain : Nat → Block × Data) (height pvtHeight : Nat) (s : Store Block Data) : Prop where
  opened : At chain height pvtHeight false s
  notBehind : height ≤ pvtHeight
  near : pvtHeight ≤ height + 1

theorem Recovered.length (recovered : Recovered chain height pvtHeight s) : s.disk.blocks.length = height := by
  simp [recovered.opened.disk, image]

theorem Recovered.commitNext (recovered : Recovered chain height pvtHeight s) {crashes : List Nat}
    (spared : s.Spared crashes) :
    ∃ after height' pvtHeight', s.commitNext chain crashes = some after ∧ Recovered chain height' pvtHeight' after ∧
      height ≤ height' ∧ (s.Appends crashes → height' = height + 1) := by
  have length := recovered.length
  obtain ⟨opened, notBehind, near⟩ := recovered
  obtain ⟨after, made, done, images⟩ := At.commitWithPvtData (s := { s with images := [s.disk] })
    { opened with } rfl notBehind near
  simp only [Store.commitNext, Appends, opened.nextBlockNum, length, made]
  cases crashes with
  | nil =>
    exact ⟨after, height + 1, height + 1, rfl, ⟨done, by omega, by omega⟩, by omega, fun _ => rfl⟩
  | cons writes rest =>
    have never {number : Nat} : height + 1 = 0 → number = 0 := fun zero => absurd zero (Nat.succ_ne_zero height)
    have left : ∃ height' pvtHeight' pending',
        after.images[writes]?.getD after.disk = image chain height' pvtHeight' pending' ∧
        (pvtHeight' = 0 → height' = 0) ∧ height ≤ height' ∧
        ((if pvtHeight = height then 2 else 1) ≤ writes → height' = height + 1) ∧
        height' ≤ pvtHeight' + (if pending' then 1 else 0) ∧
        pvtHeight' + (if pending' then 1 else 0) ≤ height' + 1 := by
      rw [images, done.disk]
      split
      next level =>
        rcases writes with _ | _ | _ | _ | writes
        · exact ⟨height, height, false, rfl, id, by simp⟩
        · exact ⟨height, height, true, rfl, id, by simp⟩
        · refine ⟨height + 1, height, true, rfl, fun zero => absurd ?_ spared, by simp⟩
          exact ⟨length.trans zero, by simp [opened.isEmpty, level, zero]⟩
        · exact ⟨height + 1, height + 1, false, rfl, never, by simp⟩
        · exact ⟨height + 1, height + 1, false, rfl, never, by simp⟩
      next ahead =>
        rcases writes with _ | _ | writes
        · exact ⟨height, height + 1, false, rfl, never, by simp⟩
        · exact ⟨height + 1, height + 1, false, rfl, never, by simp⟩
        · exact ⟨height + 1, height + 1, false, rfl, never, by simp⟩
    obtain ⟨height', pvtHeight', pending', same, notStuck, grown, kept, behind, close⟩ := left
    obtain ⟨reopened, again, openedAgain⟩ := @reopen_returns _ _ chain _ _ pending' notStuck rest
    refine ⟨reopened, height', _, ?_, ⟨openedAgain, behind, close⟩, grown, kept⟩
    simp [same, again, Except.toOption]

/-- However the commits of a run crash, a block that is appended is kept. -/
theorem Recovered.survives (recovered : Recovered chain height pvtHeight s) {crashes : List (List Nat)}
    (spared : Guarded (Store.commitNext chain) Spared s crashes) :
    ∃ final height' pvtHeight', run (Store.commitNext chain) s crashes = some final ∧
      Recovered chain height' pvtHeight' final ∧ height + crashes.count [] ≤ height' ∧
      Guarded (Store.commitNext chain) (fun s crash => s.Appends crash → s.disk.blocks.length < height') s crashes := by
  induction crashes generalizing s height pvtHeight with
  | nil => exact ⟨_, _, _, rfl, recovered, Nat.le_refl _, trivial⟩
  | cons crash rest ih =>
    obtain ⟨after, height', pvtHeight', made, between, grown, kept⟩ := recovered.commitNext spared.1
    obtain ⟨final, height'', pvtHeight'', reached, last, counted, guarded⟩ := ih between (spared.2 after made)
    refine ⟨final, height'', pvtHeight'', by rw [run_cons, made]; exact reached, last, ?_, fun appends => ?_, ?_⟩
    · by_cases empty : crash = []
      · have appended := kept (empty ▸ trivial)
        simp only [empty, List.count_cons_self]
        omega
      · simp only [List.count_cons_of_ne empty]
        omega
    · have appended := kept appends
      rw [recovered.length]
      omega
    · intro after' made'
      cases made.symm.trans made'
      exact guarded

/-- The storage of a new ledger. -/
def fresh : Store Block Data := initState ⟨[], none, false, []⟩

/-- In every run whose crashes spare the first block, the storage opens again, keeps every block that was appended
with its private data, and accepts the next block. -/
theorem commits_survive_crashes (chain : Nat → Block × Data) (crashes : List (List Nat))
    (spared : Guarded (Store.commitNext chain) Spared fresh crashes) :
    ∃ final height pvtHeight, run (Store.commitNext chain) fresh crashes = some final ∧
      final.disk = image chain height pvtHeight false ∧ crashes.count [] ≤ height ∧ height ≤ pvtHeight ∧
      Guarded (Store.commitNext chain) (fun s crash => s.Appends crash → s.disk.blocks.length < height) fresh crashes ∧
      ∃ next, final.commitNext chain [] = some next ∧ next.disk.blocks.length = height + 1 := by
  have start : Recovered chain 0 0 fresh := ⟨At.initState, Nat.le_refl _, Nat.zero_le _⟩
  obtain ⟨final, height, pvtHeight, reached, recovered, counted, guarded⟩ := start.survives spared
  have uncrashed : final.Spared [] := trivial
  obtain ⟨next, height', pvtHeight', made, after, -, grown⟩ := recovered.commitNext uncrashed
  refine ⟨final, height, pvtHeight, reached, recovered.opened.disk, by omega, recovered.notBehind, guarded, next,
    made, ?_⟩
  rw [after.length, grown trivial]

theorem commits_survive_crashes_second : ∃ final : Store Nat Nat, ∃ height pvtHeight,
    run (Store.commitNext fun n => (n, n)) fresh [[], [1, 0], [2]] = some final ∧
    final.disk = image (fun n => (n, n)) height pvtHeight false ∧ 1 ≤ height ∧ height ≤ pvtHeight ∧
    Guarded (Store.commitNext fun n => (n, n)) (fun s crash => s.Appends crash → s.disk.blocks.length < height) fresh
      [[], [1, 0], [2]] ∧
    ∃ next, final.commitNext (fun n => (n, n)) [] = some next ∧ next.disk.blocks.length = height + 1 := by
  refine commits_survive_crashes (fun n => (n, n)) [[], [1, 0], [2]] ⟨trivial, fun first made => ⟨trivial, ?_⟩⟩
  cases made
  intro second made
  cases made
  exact ⟨fun empty => absurd empty.1 (by decide), fun _ _ => trivial⟩

/-- After a crash between the append of the first block and the commit of its private data, nothing opens. -/
theorem first_block_stuck : run (Store.commitNext fun n => (n, n)) (fresh : Store Nat Nat) [[2]] = none ∧
    openStore (image (fun n => (n, n)) 1 0 true : Disk Nat Nat) =
      .error "The private data store is not empty. InitLastCommittedBlock() function call is not allowed" :=
  ⟨rfl, rfl⟩

end Store

end Pobl.LedgerStorage
