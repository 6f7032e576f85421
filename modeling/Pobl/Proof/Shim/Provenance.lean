import Pobl.Proof.Shim.CommitLoop

namespace Pobl.Shim

open Library Protos Replay Handler List

def writeOf (key : Key) (commit : TxId × BuildRwset) : Option (TxId × KVWrite) :=
  (commit.2.writeSet.find? fun wkv => wkv.key = key).map fun wkv => (commit.1, wkv)

/-- The last of the transactions that writes the key, with its write. -/
def lastWriter (commits : List (TxId × BuildRwset)) (key : Key) : Option (TxId × KVWrite) :=
  commits.reverse.findSome? (writeOf key)

theorem lastWriter_concat (commits : List (TxId × BuildRwset)) (commit : TxId × BuildRwset) (key : Key) :
    lastWriter (commits ++ [commit]) key = (writeOf key commit).or (lastWriter commits key) := by
  unfold lastWriter
  rw [reverse_append, reverse_singleton, singleton_append, List.findSome?_cons]
  cases writeOf key commit <;> rfl

theorem replay_writeEntries {txid : TxId} {writes : List KVWrite} (distinct : (writes.map KVWrite.key).Nodup)
    (key : Key) :
    replay (writeEntries txid writes) key =
      (writes.find? fun wkv => wkv.key = key).map fun wkv => (wkv.value, txid) := by
  induction writes using reverseRecOn with
  | nil => rfl
  | append_singleton rest write ih =>
    rw [map_append, nodup_append] at distinct
    rw [writeEntries, map_append, replay_append, List.find?_append]
    change (cellEntry txid write key).or (replay (writeEntries txid rest) key) = _
    rw [ih distinct.1, cellEntry]
    by_cases same : key = write.key
    · have absent : (rest.find? fun wkv => wkv.key = key) = none := by
        rw [List.find?_eq_none]
        intro wkv listed
        have differs := distinct.2.2 wkv.key (mem_map_of_mem listed) write.key (by simp)
        simpa [same] using differs
      rw [if_pos same, absent, Option.some_or, Option.none_or]
      simp [same]
    · have other : ¬ write.key = key := fun wrong => same wrong.symm
      rw [if_neg same, Option.none_or]
      simp [other]

theorem replay_commitEntries {commits : List (TxId × BuildRwset)}
    (distinct : ∀ commit ∈ commits, (commit.2.writeSet.map KVWrite.key).Nodup) (key : Key) :
    replay (commitEntries commits) key = (lastWriter commits key).map fun last => (last.2.value, last.1) := by
  induction commits using reverseRecOn with
  | nil => rfl
  | append_singleton rest commit ih =>
    rw [replay_commitEntries_concat, lastWriter_concat, Option.map_or,
      ih fun other listed => distinct other (mem_append_left _ listed),
      replay_writeEntries (distinct commit (mem_append_right _ mem_cons_self)), writeOf, Option.map_map]
    rfl

/-- The transaction that the cell of the key names after the commits, or the writing transaction. -/
def previousWriter (commits : List (TxId × BuildRwset)) (txid : TxId) (key : Key) : TxId :=
  ((replay (commitEntries commits) key).map Prod.snd).getD txid

/-- The write sets have distinct keys, and they name the previous writers. -/
structure Attributed (handler : Handler) : Prop where
  distinct : ∀ commit, handler.committing = some commit →
    (commit.lts.finalWriteSet.map KVWrite.key ++ commit.writes.map Sigma.fst).Nodup
  current : ∀ commit, handler.committing = some commit → ∀ wkv ∈ commit.lts.finalWriteSet,
    wkv.txid = previousWriter handler.commits commit.txid wkv.key
  writes : EachAfter (fun earlier commit => (commit.2.writeSet.map KVWrite.key).Nodup ∧
    ∀ wkv ∈ commit.2.writeSet, wkv.txid = previousWriter earlier commit.1 wkv.key) handler.commits

theorem attributed_initial : Attributed newChaincodeHandler := ⟨nofun, nofun, nofun⟩

theorem replay_writeEntries_other {txid : TxId} {writes : List KVWrite} {key : Key}
    (absent : key ∉ writes.map KVWrite.key) : replay (writeEntries txid writes) key = none := by
  rw [Option.eq_none_iff_forall_ne_some]
  intro cell found
  obtain ⟨_, listed, assigned⟩ := exists_entry_of_replay found
  obtain ⟨wkv, member, rfl⟩ := mem_map.mp listed
  unfold cellEntry at assigned
  split at assigned
  next same => exact absent (same ▸ mem_map_of_mem member)
  · cases assigned

theorem Attributed.step {handler next : Handler} {event : Event} (attributed : Attributed handler)
    (consistent : Consistent handler) (stepped : handler.step event = some next) : Attributed next := by
  obtain ⟨distinct, current, writes⟩ := attributed
  cases steps_of_step stepped with
  | refused txid err =>
    refine ⟨distinct, ?_, ?_⟩ <;> rw [commits_refused]
    · exact current
    · exact writes
  | started => exact ⟨distinct, current, writes⟩
  | called => exact ⟨distinct, current, writes⟩
  | sent => exact ⟨distinct, current, writes⟩
  | received order msg rest idle queue =>
    have tracks := consistent.queued msg (by rw [queue]; exact mem_cons_self)
    have unwritten := validate_writes order tracks
    refine ⟨?_, ?_, writes⟩
    · intro commit busy
      cases busy
      rw [unwritten, map_nil, nil_append]
      have keys : ((executed handler.localState msg).1.unLockWriteSets.entries.map Sigma.fst).Nodup :=
        (executed handler.localState msg).1.unLockWriteSets.keys_nodup
      exact ((order.perm .unLockWriteSets _).map Sigma.fst).nodup_iff.mpr keys
    · intro commit busy
      cases busy
      rw [unwritten]
      intro write listed
      cases listed
  | wrote commit wkv remaining busy split =>
    have fresh := distinct commit busy
    rw [split, map_cons] at fresh
    have absent : wkv.1 ∉ commit.lts.finalWriteSet.map KVWrite.key := by
      intro listed
      exact (nodup_append.mp fresh).2.2 wkv.1 listed wkv.1 mem_cons_self rfl
    have cell : (handler.localState.view wkv.1).map KeyValue.fromTxnid =
        (replay (commitEntries handler.commits) wkv.1).map Prod.snd := by
      have signed := congrArg (Option.map Prod.snd) (consistent.cells wkv.1)
      rw [Option.map_map] at signed
      refine signed.trans ?_
      rw [ entries, busy, replay_append, foldl_write_apply]
      change ((replay (writeEntries _ _) _).or _).map _ = _
      rw [replay_writeEntries_other absent, Option.none_or]
    have named : (handler.localState.setUnLockKVForWrite wkv.1 wkv.2.btValue wkv.2.strValue
        commit.txid).2.1 = previousWriter handler.commits commit.txid wkv.1 := by
      rw [LocalState.ptxid_setUnLockKVForWrite, cell, previousWriter]
    refine ⟨?_, ?_, writes⟩
    · intro other same
      cases same
      change ((commit.lts.finalWriteSet ++ [_]).map KVWrite.key ++ remaining.map Sigma.fst).Nodup
      rw [map_append, append_assoc]
      exact fresh
    · intro other same
      cases same
      exact forall_mem_append.mpr ⟨current commit busy, forall_mem_singleton.mpr named⟩
  | completed commit busy written =>
    refine ⟨fun _ busy => (by cases busy), fun _ busy => (by cases busy), ?_⟩
    rw [commits_completed, eachAfter_concat]
    have keys := distinct commit busy
    rw [written, map_nil, append_nil] at keys
    exact ⟨writes, keys, current commit busy⟩

theorem run_attributed {events : List Event} {handler : Handler}
    (reached : run step newChaincodeHandler events = some handler) :
    Consistent handler ∧ Attributed handler :=
  run_invariant step (fun _ _ => True) (fun handler => Consistent handler ∧ Attributed handler)
    (fun _ _ _ _ both stepped => ⟨both.1.step stepped, both.2.step both.1 stepped⟩)
    events newChaincodeHandler handler ⟨consistent_initial, attributed_initial⟩
    (guarded_of_forall _ _ (fun _ _ _ => trivial) _) reached

/-- Each read is what the last committed writer of its key wrote and names that writer.
Each write names the previous writer of its key, or its own transaction if there was none.
Between two commits each cell is what the last committed writer of its key left.
The write set that a commit sends holds what its execution has put last under each key. -/
theorem committed_provenance (events : List Event) (handler : Handler)
    (keeps : Guarded step Handler.KeepsSlices newChaincodeHandler events)
    (reached : run step newChaincodeHandler events = some handler) :
    EachAfter (fun earlier commit =>
      (∀ read ∈ commit.2.readSet, ∃ wkv, lastWriter earlier read.key = some (read.txid, wkv) ∧
        wkv.value = read.value) ∧
      ∀ wkv ∈ commit.2.writeSet, wkv.txid = ((lastWriter earlier wkv.key).map Prod.fst).getD commit.1)
      handler.commits ∧
    (handler.committing = none → ∀ key,
      (handler.localState.view key).map (fun cell => (cell.fromTxnid, cell.strValue)) =
        (lastWriter handler.commits key).map fun last => (last.1, last.2.value)) ∧
    ∀ commit, handler.committing = some commit → commit.writes = [] → ∀ key,
      (commit.lts.finalWriteSet.find? fun wkv => wkv.key = key).map KVWrite.value =
        lastPut commit.lts.written key := by
  obtain ⟨consistent, attributed⟩ := run_attributed reached
  have copied := run_copied keeps reached
  have distinct : ∀ commit ∈ handler.commits, (commit.2.writeSet.map KVWrite.key).Nodup := by
    intro commit listed
    obtain ⟨position, found⟩ := List.mem_iff_getElem?.mp listed
    exact (attributed.writes position commit found).1
  have earlierDistinct : ∀ position, ∀ commit ∈ handler.commits.take position,
      (commit.2.writeSet.map KVWrite.key).Nodup :=
    fun _ commit listed => distinct commit (mem_of_mem_take listed)
  refine ⟨?_, ?_, ?_⟩
  · intro position commit found
    constructor
    · intro read listed
      have left := copied.reads position commit found read listed
      rw [ReadsFrom, replay_commitEntries (earlierDistinct position)] at left
      obtain ⟨⟨writer, wkv⟩, last, same⟩ := Option.map_eq_some_iff.mp left
      obtain ⟨value, writer⟩ := Prod.mk.injEq _ _ _ _ ▸ same
      exact ⟨wkv, last.trans (congrArg (fun txid => some (txid, wkv)) writer), value⟩
    · intro wkv listed
      rw [(attributed.writes position commit found).2 wkv listed, previousWriter,
        replay_commitEntries (earlierDistinct position), Option.map_map]
      rfl
  · intro idle key
    have cells := consistent.cells key
    rw [entries, idle, Option.elim_none, append_nil, replay_commitEntries distinct] at cells
    have swapped := congrArg (Option.map Prod.swap) cells
    rw [Option.map_map, Option.map_map] at swapped
    refine Eq.trans (Option.map_congr fun cell viewed => ?_) swapped
    exact congrArg (Prod.mk cell.fromTxnid) (copied.cells key cell viewed).symm
  · intro commit busy written key
    have sends := copied.puts commit busy key
    rw [Committing.sends, written, List.find?_nil, Option.map_none, Option.or_none] at sends
    exact sends

def writeKey (value : Value) : Program := .putState "k" (some value) fun _ => .done ⟨ok, "", []⟩

/-- The chaincode reads a key and writes it. -/
def overwriteKey : Program := .getState "k" fun _ => writeKey [3]

/-- The transaction `t` reads the key before `q` overwrites it, so the commit loop executes `t` again. -/
def reexecutedEvents : List Event :=
  [.handleTransaction "p" (.ok (writeKey [1], writeKey [1])), .call 0, .send 0,
    .receive (RangeOrder.stored RangeSite), .write, .complete,
    .handleTransaction "t" (.ok (overwriteKey, overwriteKey)), .call 0, .call 0,
    .handleTransaction "q" (.ok (writeKey [2], writeKey [2])), .call 1, .send 1, .send 0,
    .receive (RangeOrder.stored RangeSite), .write, .complete,
    .receive (RangeOrder.stored RangeSite), .write, .complete]

/-- The transaction that was executed again reads `[2]` from `q` and names `q` in its write. -/
theorem committed_provenance_reexecuted : ∃ handler,
    run step newChaincodeHandler reexecutedEvents = some handler ∧
    handler.commits.map (fun commit => (commit.1, commit.2.readSet, commit.2.writeSet)) =
      [("p", [], [⟨"k", false, [1], true, "p"⟩]), ("q", [], [⟨"k", false, [2], true, "p"⟩]),
        ("t", [⟨"k", [2], true, "q"⟩], [⟨"k", false, [3], true, "q"⟩])] ∧
    (∀ commit, handler.commits[2]? = some commit →
      ∀ read ∈ commit.2.readSet, ∃ wkv, lastWriter (handler.commits.take 2) read.key = some (read.txid, wkv) ∧
        wkv.value = read.value) ∧
    (handler.localState.view "k").map (fun cell => (cell.fromTxnid, cell.strValue)) = some ("t", [3]) := by
  refine exists_evaluated (by decide) fun handler reached sets => ?_
  have provenance := committed_provenance reexecutedEvents handler (by decide) reached
  refine ⟨fun commit found => (provenance.1 2 commit found).1, ?_⟩
  exact (provenance.2.1 (of_evaluated reached (by decide)) "k").trans (of_evaluated reached (by decide))

/-- The chaincode puts `[1]` and then copies `[2]` into the slice. -/
def reuseSlice : Program := .putState "k" (some [1]) fun _ => .copy "k" [2] (.done ⟨ok, "", []⟩)

def reusedSliceEvents : List Event :=
  [.handleTransaction "p" (.ok (reuseSlice, reuseSlice)), .call 0, .call 0, .send 0,
    .receive (RangeOrder.stored RangeSite), .write, .complete,
    .handleTransaction "t" (.ok (overwriteKey, overwriteKey)), .call 0, .call 0, .send 0,
    .receive (RangeOrder.stored RangeSite), .write, .complete]

/-- The transaction `p` sends `[2]`, and `t` reads `[1]` from it. -/
theorem reused_slice_misread : ∃ handler,
    run step newChaincodeHandler reusedSliceEvents = some handler ∧
    handler.commits.map (fun commit => (commit.1, commit.2.readSet, commit.2.writeSet)) =
      [("p", [], [⟨"k", false, [2], true, "p"⟩]),
        ("t", [⟨"k", [1], true, "p"⟩], [⟨"k", false, [3], true, "p"⟩])] ∧
    lastWriter (handler.commits.take 1) "k" = some ("p", ⟨"k", false, [2], true, "p"⟩) := by
  exact exists_evaluated (by decide) fun handler reached _ => of_evaluated reached (by decide)

end Pobl.Shim
