import Mathlib.Data.List.Perm.Basic
import Pobl.Proof.Shim.CommitLoop

namespace Pobl.Shim

open Library Protos Handler Event Replay List

variable {handler next : Handler} {events : List Event} {cell : Value × TxId} {event : Event} {key : Key}

/-- The endorser accepts the responses below the error threshold. -/
def successful (commit : TxId × BuildRwset) : Bool := commit.2.status < errorThreshold

def failedIds (commits : List (TxId × BuildRwset)) : List TxId :=
  (commits.filter fun commit => !successful commit).map Prod.fst

/-- The successful transactions in the order of their commits. -/
def Handler.successful (handler : Handler) : List (TxId × BuildRwset) :=
  handler.commits.filter Shim.successful

/-- A successful execution reads no cell that a failed transaction was the last to write. -/
def Handler.ReadsSettled (handler : Handler) : Event → Prop
  | .receive _ => ∀ msg ∈ handler.commitC.head?, (executed handler.localState msg).2.status < errorThreshold →
        ∀ rkv ∈ (executed handler.localState msg).1.unLockReadSets.entries,
          ∀ cell ∈ handler.localState.view rkv.1, cell.fromTxnid ∉ failedIds handler.commits
  | _ => True

instance (handler : Handler) : (event : Event) → Decidable (handler.ReadsSettled event)
  | .receive _ => by dsimp only [Handler.ReadsSettled]; infer_instance
  | .handleTransaction _ _ | .call _ | .send _ | .write | .complete => .isTrue trivial

/-- The reads of the successful transactions name no failed transaction. -/
structure Settled (handler : Handler) : Prop where
  current : ∀ commit, handler.committing = some commit → commit.res.status < errorThreshold →
    ∀ read ∈ commit.lts.finalReadSet, read.txid ∉ failedIds handler.commits
  reads : EachAfter (fun earlier commit => successful commit = true →
    ∀ read ∈ commit.2.readSet, read.txid ∉ failedIds earlier) handler.commits

theorem settled_initial : Settled newChaincodeHandler := ⟨nofun, nofun⟩

theorem Settled.step (settled : Settled handler) (consistent : Consistent handler)
    (allowed : handler.ReadsSettled event) (stepped : handler.step event = some next) : Settled next := by
  obtain ⟨current, reads⟩ := settled
  cases steps_of_step stepped with
  | refused txid err =>
    refine ⟨?_, ?_⟩ <;> rw [commits_refused]
    · exact current
    · exact reads
  | started => exact ⟨current, reads⟩
  | called => exact ⟨current, reads⟩
  | sent => exact ⟨current, reads⟩
  | received order msg rest idle queue =>
    refine ⟨?_, reads⟩
    intro commit busy status read listed
    cases busy
    have tracks := consistent.queued msg (by rw [queue]; exact mem_cons_self)
    obtain ⟨rkv, member, cell, key, viewed, _, parent⟩ := validate_reads order tracks read listed
    rw [← parent]
    exact allowed msg (by rw [queue]; rfl) status rkv member cell (by rw [key]; exact viewed)
  | wrote commit wkv writes busy remaining =>
    refine ⟨?_, reads⟩
    intro other same
    cases same
    exact current commit busy
  | completed commit busy written =>
    refine ⟨nofun, ?_⟩
    rw [commits_completed, eachAfter_concat]
    refine ⟨reads, fun success => current commit busy ?_⟩
    exact of_decide_eq_true success

/-- The transaction that an event starts. -/
def Event.started : Event → Option TxId
  | .handleTransaction txid (.ok _) => some txid
  | _ => none

/-- The identifiers of all transactions that have started. -/
def Handler.txids (handler : Handler) : List TxId :=
  handler.commits.map Prod.fst ++ (handler.committing.toList.map Committing.txid ++
    (handler.commitC.map (fun msg => msg.stub.txID) ++ handler.running.map fun execution => execution.stub.txID))

theorem Handler.step_txids (stepped : handler.step event = some next) :
    next.txids.Perm (handler.txids ++ event.started.toList) := by
  cases steps_of_step stepped with
  | refused txid err => simp [txids, commits_refused, started]
  | started txid invoke reinvoke => simp [txids, commits, started]
  | called index execution found =>
    have same : (handler.running.set index (execution.call handler.localState)).map
        (fun execution => execution.stub.txID) = handler.running.map fun execution => execution.stub.txID := by
      apply List.ext_getElem?
      intro other
      rw [List.getElem?_map, List.getElem?_map, List.getElem?_set]
      split
      next here =>
        subst here
        rw [if_pos (List.getElem?_eq_some_iff.mp found).1, found]
        rfl
      · rfl
    simp [txids, commits, started, same]
  | sent index stub res found =>
    obtain ⟨inside, same⟩ := List.getElem?_eq_some_iff.mp found
    have moved := (getElem_cons_eraseIdx_perm inside).map fun execution => execution.stub.txID
    rw [map_cons, same] at moved
    simp only [txids, commits, started, map_append, map_singleton,
      append_assoc, singleton_append, Option.toList_none, append_nil]
    exact ((moved.append_left _).append_left _).append_left _
  | received order msg rest idle queue =>
    simp [txids, commits, started, idle, queue, validate]
  | wrote commit wkv writes busy remaining =>
    simp [txids, commits, started, busy]
  | completed commit busy written =>
    simp [txids, commits_completed, started, busy]

theorem Handler.run_txids {final : Handler} (reached : run step handler events = some final) :
    final.txids.Perm (handler.txids ++ events.filterMap started) := by
  induction events generalizing handler with
  | nil =>
    cases reached
    rw [filterMap_nil, append_nil]
  | cons event rest ih =>
    obtain ⟨next, stepped, reached⟩ := Option.bind_eq_some_iff.mp reached
    refine (ih reached).trans ?_
    have first := (step_txids stepped).append_right (rest.filterMap started)
    cases started : event.started with
    | none => simpa [filterMap_cons_none started, started] using first
    | some txid => simpa [filterMap_cons_some started, started] using first

/-- Transactions that start with distinct identifiers commit with distinct identifiers. -/
theorem Handler.commits_nodup (distinct : (events.filterMap started).Nodup)
    (reached : run step newChaincodeHandler events = some handler) :
    (handler.commits.map Prod.fst).Nodup := by
  have ids : handler.txids.Nodup := (run_txids reached).nodup_iff.mpr distinct
  exact (nodup_append.mp ids).1

/-- The writes of a transaction leave its identifier in their cells. -/
theorem fromTxnid_of_writeEntries {txid : TxId} {writes : List KVWrite}
    (found : replay (writeEntries txid writes) key = some cell) : cell.2 = txid := by
  obtain ⟨entry, listed, assigned⟩ := exists_entry_of_replay found
  obtain ⟨write, _, rfl⟩ := mem_map.mp listed
  unfold cellEntry at assigned
  split at assigned
  · cases assigned
    rfl
  · cases assigned

/-- A cell that no failed transaction was the last to write is left by the successful ones. -/
theorem replay_successful {commits : List (TxId × BuildRwset)}
    (found : replay (commitEntries commits) key = some cell) (settled : cell.2 ∉ failedIds commits) :
    replay (commitEntries (commits.filter successful)) key = some cell := by
  induction commits using reverseRecOn with
  | nil => exact found
  | append_singleton rest commit ih =>
    rw [replay_commitEntries_concat] at found
    rw [filter_append]
    have earlier : cell.2 ∉ failedIds rest := by
      intro failed
      apply settled
      rw [failedIds, filter_append, map_append]
      exact mem_append_left _ failed
    cases written : replay (writeEntries commit.1 commit.2.writeSet) key with
    | none =>
      rw [written, Option.none_or] at found
      by_cases success : successful commit = true
      · rw [filter_cons_of_pos success, filter_nil, replay_commitEntries_concat, written, Option.none_or]
        exact ih found earlier
      · rw [filter_cons_of_neg success, filter_nil, append_nil]
        exact ih found earlier
    | some own =>
      rw [written, Option.some_or, Option.some.injEq] at found
      subst found
      have success : successful commit = true := by
        by_contra failed
        apply settled
        rw [fromTxnid_of_writeEntries written, failedIds, filter_append, map_append]
        apply mem_append_right
        exact mem_map.mpr ⟨commit, mem_filter.mpr ⟨mem_cons_self, by simp [failed]⟩, rfl⟩
      rw [filter_cons_of_pos success, filter_nil, replay_commitEntries_concat, written, Option.some_or]

/-- Along a run whose slices keep what was put and whose successful executions read no failed writes, the
successful transactions have distinct identifiers and read only from each other. -/
theorem successful_reads (distinct : (events.filterMap started).Nodup)
    (keeps : Guarded step Handler.KeepsSlices newChaincodeHandler events)
    (allowed : Guarded step Handler.ReadsSettled newChaincodeHandler events)
    (reached : run step newChaincodeHandler events = some handler) :
    (handler.successful.map Prod.fst).Nodup ∧
      EachAfter (fun earlier commit => ∀ read ∈ commit.2.readSet, ReadsFrom (commitEntries earlier) read)
        handler.successful := by
  obtain ⟨_, settled⟩ := run_invariant step Handler.ReadsSettled
    (fun handler => Consistent handler ∧ Settled handler)
    (fun _ _ _ permitted both stepped => ⟨both.1.step stepped, both.2.step both.1 permitted stepped⟩)
    events newChaincodeHandler handler ⟨consistent_initial, settled_initial⟩ allowed reached
  constructor
  · exact (commits_nodup distinct reached).sublist ((filter_sublist).map Prod.fst)
  · apply EachAfter.filter
    intro position commit found success read listed
    have left := (run_copied keeps reached).reads position commit found read listed
    exact replay_successful left (settled.reads position commit found success read listed)

end Pobl.Shim
