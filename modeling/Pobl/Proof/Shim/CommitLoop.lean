import Pobl.Library.History
import Pobl.Library.Replay
import Pobl.Library.Run
import Pobl.Proof.Shim.LocalState

namespace Pobl.Shim

open Library Protos Handler Replay LocalState List

def ChaincodeMessage.rwset : ChaincodeMessage → Option (TxId × BuildRwset)
  | .error _ _ => none
  | .completed txid payload => some (txid, payload)

/-- The committed transactions in the order of their commits. -/
def Handler.commits (handler : Handler) : List (TxId × BuildRwset) :=
  handler.sent.filterMap ChaincodeMessage.rwset

/-- The bytes in a cell with their writer. -/
def KeyValue.signed (cell : KeyValue) : Value × TxId := (cell.value.getD [], cell.fromTxnid)

/-- What a write of the transaction leaves in its cell. -/
def cellEntry (txid : TxId) (wkv : KVWrite) : Key → Option (Value × TxId) := fun key =>
  if key = wkv.key then some (wkv.value, txid) else none

def writeEntries (txid : TxId) (writes : List KVWrite) : List (Key → Option (Value × TxId)) :=
  writes.map (cellEntry txid)

def commitEntries (commits : List (TxId × BuildRwset)) : List (Key → Option (Value × TxId)) :=
  commits.flatMap fun commit => writeEntries commit.1 commit.2.writeSet

/-- The writes that have reached the cells, in order. -/
def Handler.entries (handler : Handler) : List (Key → Option (Value × TxId)) :=
  commitEntries handler.commits ++
    handler.committing.elim [] fun commit => writeEntries commit.txid commit.lts.finalWriteSet

/-- The transaction that the read names is the last one in the log that writes its key. -/
def NamesWriter (log : List (Key → Option (Value × TxId))) (read : KVRead) : Prop :=
  (replay log read.key).map Prod.snd = some read.txid

/-- The log leaves the value of the read in its key, written by the transaction that the read names. -/
def ReadsFrom (log : List (Key → Option (Value × TxId))) (read : KVRead) : Prop :=
  replay log read.key = some (read.value, read.txid)

/-- What the handler keeps along every run. -/
structure Consistent (handler : Handler) : Prop where
  proper : handler.localState.Proper
  running : ∀ execution ∈ handler.running, Tracks handler.localState execution.stub.lts
  queued : ∀ msg ∈ handler.commitC, Tracks handler.localState msg.stub.lts
  cells : ∀ key, (handler.localState.view key).map KeyValue.signed = replay handler.entries key
  currentReads : ∀ commit, handler.committing = some commit → ∀ read ∈ commit.lts.finalReadSet,
    NamesWriter (commitEntries handler.commits) read
  reads : EachAfter (fun earlier commit => ∀ read ∈ commit.2.readSet, NamesWriter (commitEntries earlier) read)
    handler.commits

theorem consistent_initial : Consistent newChaincodeHandler where
  proper := ⟨nofun, nofun⟩
  running := nofun
  queued := nofun
  cells := fun _ => rfl
  currentReads := nofun
  reads := nofun

/-- The final read set names the contents of the cells. -/
theorem validate_reads {ls : LocalState} {msg : CommitMsg} (order : RangeOrder RangeSite)
    (tracks : Tracks ls msg.stub.lts) :
    ∀ read ∈ (validate order ls msg).lts.finalReadSet, ∃ rkv ∈ (executed ls msg).1.unLockReadSets.entries,
      ∃ cell, rkv.1 = read.key ∧ ls.view read.key = some cell ∧ cell.strValue = read.value ∧
        cell.fromTxnid = read.txid := by
  obtain ⟨tracked, reads⟩ := executed_reads tracks
  intro read listed
  change read ∈ (executed ls msg).1.finalReadSet ++ _ at listed
  rw [tracked.unread, nil_append] at listed
  obtain ⟨rkv, visited, rfl⟩ := mem_map.mp listed
  have member := (order.mem_visit .unLockReadSets _ rkv).mp visited
  have found := (GoMap.mem_entries_iff _ _).mp member
  obtain ⟨cell, points, lookup⟩ := tracked.reads rkv.1 rkv.2 found
  obtain ⟨content, viewed, value⟩ := reads rkv.1 rkv.2 found
  rw [view, lookup, Option.map_some, Option.some.injEq] at viewed
  refine ⟨rkv, member, content, rfl, ?_, value.symm, ?_⟩
  · change ls.view rkv.1 = _
    rw [view, lookup, Option.map_some, viewed]
  · simp [finalRead, points, viewed]

theorem validate_writes {ls : LocalState} {msg : CommitMsg} (order : RangeOrder RangeSite)
    (tracks : Tracks ls msg.stub.lts) : (validate order ls msg).lts.finalWriteSet = [] :=
  (executed_reads tracks).1.unwritten

/-- The iteration over the write set changes the cells as its log entry says. -/
theorem view_finalWrite {ls : LocalState} (proper : ls.Proper) (txid : TxId) (wkv : GoEntry UNLockKV)
    (lts : LocalTxnSimulator) :
    ∃ write, (finalWrite ls txid wkv lts).2.finalWriteSet = lts.finalWriteSet ++ [write] ∧
      ∀ key, ((finalWrite ls txid wkv lts).1.view key).map KeyValue.signed =
        (cellEntry txid write key).or ((ls.view key).map KeyValue.signed) := by
  refine ⟨_, rfl, fun key => ?_⟩
  unfold finalWrite cellEntry
  rw [view_setUnLockKVForWrite proper]
  split <;> rfl

/-- The steps of a handler with what makes them possible. -/
inductive Handler.Steps (handler : Handler) : Event → Handler → Prop where
  | refused (txid : TxId) (err : String) : handler.Steps (.handleTransaction txid (.error err))
      { handler with sent := handler.sent ++ [.error txid err] }
  | started (txid : TxId) (invoke reinvoke : Program) :
      handler.Steps (.handleTransaction txid (.ok (invoke, reinvoke)))
        { handler with running := handler.running ++
            [⟨⟨txid, newLocalTxnSimulator txid, invoke, reinvoke⟩, invoke⟩] }
  | called (index : Nat) (execution : Execution) (running : handler.running[index]? = some execution) :
      handler.Steps (.call index)
        { handler with running := handler.running.set index (execution.call handler.localState) }
  | sent (index : Nat) (stub : ChaincodeStub) (res : Response)
      (running : handler.running[index]? = some ⟨stub, .done res⟩) :
      handler.Steps (.send index)
        { handler with
          running := handler.running.eraseIdx index
          commitC := handler.commitC ++ [⟨stub, res⟩] }
  | received (order : RangeOrder RangeSite) (msg : CommitMsg) (rest : List CommitMsg)
      (idle : handler.committing = none) (queue : handler.commitC = msg :: rest) :
      handler.Steps (.receive order)
        { handler with commitC := rest, committing := some (validate order handler.localState msg) }
  | wrote (commit : Committing) (wkv : GoEntry UNLockKV) (writes : List (GoEntry UNLockKV))
      (busy : handler.committing = some commit) (next : commit.writes = wkv :: writes) :
      handler.Steps .write
        { handler with
          localState := (finalWrite handler.localState commit.txid wkv commit.lts).1
          committing := some
            { commit with
              lts := (finalWrite handler.localState commit.txid wkv commit.lts).2
              writes := writes } }
  | completed (commit : Committing) (busy : handler.committing = some commit) (written : commit.writes = []) :
      handler.Steps .complete
        { handler with committing := none, sent := handler.sent ++ [.completed commit.txid commit.payload] }

theorem Handler.steps_of_step {handler next : Handler} {event : Event}
    (stepped : handler.step event = some next) : handler.Steps event next := by
  cases event with
  | handleTransaction txid input =>
    cases stepped
    cases input with
    | error err => exact .refused txid err
    | ok programs => exact .started txid programs.1 programs.2
  | call index =>
    obtain ⟨execution, running, rfl⟩ := Option.map_eq_some_iff.mp stepped
    exact .called index execution running
  | send index =>
    unfold step at stepped
    dsimp only at stepped
    split at stepped
    next stub res running =>
      split at stepped
      · cases stepped
        exact .sent index stub res running
      · cases stepped
    · cases stepped
  | receive order =>
    unfold step at stepped
    dsimp only at stepped
    split at stepped
    next msg rest idle queue =>
      cases stepped
      exact .received order msg rest idle queue
    · cases stepped
  | write =>
    unfold step at stepped
    dsimp only at stepped
    split at stepped
    next txid lts res wkv writes busy =>
      cases stepped
      exact .wrote ⟨txid, lts, res, wkv :: writes⟩ wkv writes busy rfl
    · cases stepped
  | complete =>
    unfold step at stepped
    dsimp only at stepped
    split at stepped
    next commit busy =>
      split at stepped
      next written =>
        cases stepped
        exact .completed commit busy written
      · cases stepped
    · cases stepped

theorem commits_refused (handler : Handler) (txid : TxId) (err : String) :
    ({ handler with sent := handler.sent ++ [.error txid err] } : Handler).commits = handler.commits := by
  rw [commits, filterMap_append]
  exact append_nil _

theorem commits_completed (handler : Handler) (commit : Committing) :
    ({ handler with committing := none, sent := handler.sent ++ [.completed commit.txid commit.payload] } :
        Handler).commits =
      handler.commits ++ [(commit.txid, commit.payload)] := by
  simp [commits, ChaincodeMessage.rwset]

theorem commitEntries_append (first second : List (TxId × BuildRwset)) :
    commitEntries (first ++ second) = commitEntries first ++ commitEntries second :=
  flatMap_append

theorem replay_commitEntries_concat (commits : List (TxId × BuildRwset)) (commit : TxId × BuildRwset) (key : Key) :
    replay (commitEntries (commits ++ [commit])) key =
      (replay (writeEntries commit.1 commit.2.writeSet) key).or
        (replay (commitEntries commits) key) := by
  rw [commitEntries_append, replay_append, foldl_write_apply]
  simp [commitEntries]

theorem Consistent.step {handler next : Handler} {event : Event} (consistent : Consistent handler)
    (stepped : handler.step event = some next) : Consistent next := by
  obtain ⟨proper, running, queued, cells, currentReads, reads⟩ := consistent
  cases steps_of_step stepped with
  | refused txid err =>
    have same := commits_refused handler txid err
    refine ⟨proper, running, queued, ?_, ?_, ?_⟩
    · intro key
      rw [entries, same]
      exact cells key
    · rw [same]
      exact currentReads
    · rw [same]
      exact reads
  | started txid invoke reinvoke =>
    refine ⟨proper, ?_, queued, cells, currentReads, reads⟩
    exact forall_mem_append.mpr ⟨running, forall_mem_singleton.mpr (tracks_new _ txid)⟩
  | called index execution found =>
    refine ⟨proper, ?_, queued, cells, currentReads, reads⟩
    intro other listed
    rcases mem_or_eq_of_mem_set listed with old | new
    · exact running other old
    · subst new
      exact (running execution (List.mem_of_getElem? found)).call execution.program
  | sent index stub res found =>
    refine ⟨proper, ?_, ?_, cells, currentReads, reads⟩
    · exact fun execution listed => running execution (mem_of_mem_eraseIdx listed)
    · exact forall_mem_append.mpr ⟨queued,
        forall_mem_singleton.mpr (running _ (List.mem_of_getElem? found))⟩
  | received order msg rest idle queue =>
    have tracks := queued msg (by rw [queue]; exact mem_cons_self)
    have current : ∀ key, (handler.localState.view key).map KeyValue.signed =
        replay (commitEntries handler.commits) key := by
      intro key
      rw [cells, entries, idle]
      simp
    refine ⟨proper, running, ?_, ?_, ?_, reads⟩
    · exact fun other listed => queued other (by rw [queue]; exact mem_cons_of_mem _ listed)
    · intro key
      change _ = replay (commitEntries handler.commits ++ writeEntries _ _) key
      rw [validate_writes order tracks, writeEntries, map_nil, append_nil]
      exact current key
    · intro commit busy read listed
      cases busy
      obtain ⟨_, _, cell, _, viewed, _, parent⟩ := validate_reads order tracks read listed
      have here := current read.key
      rw [viewed] at here
      exact (congrArg (Option.map Prod.snd) here.symm).trans (congrArg some parent)
  | wrote commit wkv writes busy remaining =>
    have grows : handler.localState.Extends (finalWrite handler.localState commit.txid wkv commit.lts).1 :=
      extends_setUnLockKVForWrite _ _ _ _
    obtain ⟨write, appended, viewed⟩ := view_finalWrite proper commit.txid wkv commit.lts
    refine ⟨proper.setUnLockKVForWrite _ _ _ _, ?_, ?_, ?_, ?_, reads⟩
    · exact fun execution listed => (running execution listed).extends grows
    · exact fun msg listed => (queued msg listed).extends grows
    · intro key
      change _ = replay (commitEntries handler.commits ++ writeEntries _ _) key
      rw [viewed, cells, entries, busy, appended, writeEntries, map_append, ← append_assoc,
        replay_append _ (map _ [write])]
      rfl
    · intro other same
      cases same
      exact currentReads commit busy
  | completed commit busy written =>
    have grown := commits_completed handler commit
    refine ⟨proper, running, queued, ?_, nofun, ?_⟩
    · intro key
      rw [entries, grown, commitEntries_append]
      change _ = replay ((_ ++ (writeEntries _ _ ++ [])) ++ []) key
      rw [append_nil, append_nil, cells, entries, busy]
      rfl
    · rw [grown, eachAfter_concat]
      exact ⟨reads, currentReads commit busy⟩

/-- The slices that the committed execution has put still hold what it has put. -/
def Handler.KeepsSlices (handler : Handler) : Event → Prop
  | .receive _ => ∀ msg ∈ handler.commitC.head?,
      ∀ wkv ∈ (executed handler.localState msg).1.unLockWriteSets.entries, wkv.2.btValue.getD [] = wkv.2.strValue
  | _ => True

instance (handler : Handler) : (event : Event) → Decidable (handler.KeepsSlices event)
  | .receive _ => by dsimp only [Handler.KeepsSlices]; infer_instance
  | .handleTransaction _ _ | .call _ | .send _ | .write | .complete => .isTrue trivial

/-- The value that the commit has given to the key in its final write set, or is still to give it. -/
def Committing.sends (commit : Committing) (key : Key) : Option Value :=
  ((commit.lts.finalWriteSet.find? fun wkv => wkv.key = key).map KVWrite.value).or
    ((commit.writes.find? fun wkv => wkv.1 = key).map fun wkv => wkv.2.btValue.getD [])

/-- The strings of the cells and of the writes are their bytes, the writes are what the execution has put, and the
reads are what the writes leave. -/
structure Copied (handler : Handler) : Prop where
  cells : ∀ key, ∀ cell ∈ handler.localState.view key, cell.value.getD [] = cell.strValue
  pending : ∀ commit, handler.committing = some commit → ∀ wkv ∈ commit.writes, wkv.2.btValue.getD [] = wkv.2.strValue
  puts : ∀ commit, handler.committing = some commit → ∀ key, commit.sends key = lastPut commit.lts.written key
  current : ∀ commit, handler.committing = some commit → ∀ read ∈ commit.lts.finalReadSet,
    ReadsFrom (commitEntries handler.commits) read
  reads : EachAfter (fun earlier commit => ∀ read ∈ commit.2.readSet, ReadsFrom (commitEntries earlier) read)
    handler.commits

theorem copied_initial : Copied newChaincodeHandler := ⟨nofun, nofun, nofun, nofun, nofun⟩

/-- A key is found in any order of the entries as by its lookup. -/
theorem find?_visit {Site : Type} (order : RangeOrder Site) (site : Site) {Value : Type} (map : GoMap Value)
    (key : Key) :
    ((order.visit site map.entries).find? fun entry => entry.1 = key).map Sigma.snd = map.lookup key := by
  cases found : (order.visit site map.entries).find? fun entry => entry.1 = key with
  | none =>
    rw [Option.map_none, eq_comm, Option.eq_none_iff_forall_ne_some]
    intro value known
    have listed := (order.mem_visit site _ ⟨key, value⟩).mpr ((GoMap.mem_entries_iff map ⟨key, value⟩).mpr known)
    simpa using List.find?_eq_none.mp found _ listed
  | some entry =>
    have same : entry.1 = key := by simpa using List.find?_some found
    have listed := (order.mem_visit site _ entry).mp (List.mem_of_find?_eq_some found)
    rw [← same, (GoMap.mem_entries_iff map entry).mp listed]
    rfl

theorem Copied.step {handler next : Handler} {event : Event} (copied : Copied handler) (consistent : Consistent handler)
    (keeps : handler.KeepsSlices event) (stepped : handler.step event = some next) : Copied next := by
  obtain ⟨cells, pending, puts, current, reads⟩ := copied
  cases steps_of_step stepped with
  | refused txid err =>
    refine ⟨cells, pending, puts, ?_, ?_⟩ <;> rw [commits_refused]
    · exact current
    · exact reads
  | started => exact ⟨cells, pending, puts, current, reads⟩
  | called => exact ⟨cells, pending, puts, current, reads⟩
  | sent => exact ⟨cells, pending, puts, current, reads⟩
  | received order msg rest idle queue =>
    have tracks := consistent.queued msg (by rw [queue]; exact mem_cons_self)
    have kept : ∀ wkv ∈ (validate order handler.localState msg).writes,
        wkv.2.btValue.getD [] = wkv.2.strValue := fun wkv visited =>
      keeps msg (by rw [queue]; rfl) wkv ((order.mem_visit .unLockWriteSets _ wkv).mp visited)
    refine ⟨cells, ?_, ?_, ?_, reads⟩
    · intro commit busy
      cases busy
      exact kept
    · intro commit busy key
      cases busy
      change _ = lastPut (executed handler.localState msg).1.written key
      rw [Committing.sends, validate_writes order tracks, ← (executed_reads tracks).1.writes,
        ← find?_visit order .unLockWriteSets, Option.map_map]
      exact Option.map_congr fun wkv found => kept wkv (List.mem_of_find?_eq_some found)
    · intro commit busy read listed
      cases busy
      obtain ⟨_, _, cell, _, viewed, value, parent⟩ := validate_reads order tracks read listed
      have here := consistent.cells read.key
      rw [entries, idle, viewed, Option.map_some, KeyValue.signed, cells _ _ viewed, value, parent,
        Option.elim_none, append_nil] at here
      exact here.symm
  | wrote commit wkv writes busy remaining =>
    have bytes := pending commit busy
    rw [remaining] at bytes
    refine ⟨?_, ?_, ?_, ?_, reads⟩
    · intro key cell viewed
      unfold finalWrite at viewed
      rw [view_setUnLockKVForWrite consistent.proper] at viewed
      split at viewed
      · cases viewed
        exact bytes wkv mem_cons_self
      · exact cells key cell viewed
    · intro other same
      cases same
      exact fun entry listed => bytes entry (mem_cons_of_mem _ listed)
    · intro other same key
      cases same
      have sends := puts commit busy key
      rw [Committing.sends, remaining] at sends
      rw [Committing.sends]
      change (((commit.lts.finalWriteSet ++ [_]).find? _).map _).or _ = _
      rw [List.find?_append, Option.map_or, Option.or_assoc]
      refine Eq.trans ?_ sends
      by_cases here : wkv.1 = key <;> simp [here]
    · intro other same
      cases same
      exact current commit busy
  | completed commit busy written =>
    refine ⟨cells, nofun, nofun, nofun, ?_⟩
    rw [commits_completed, eachAfter_concat]
    exact ⟨reads, current commit busy⟩

theorem run_copied {events : List Event} {handler : Handler}
    (keeps : Guarded Handler.step Handler.KeepsSlices newChaincodeHandler events)
    (reached : run Handler.step newChaincodeHandler events = some handler) : Copied handler :=
  (run_invariant Handler.step Handler.KeepsSlices (fun handler => Consistent handler ∧ Copied handler)
    (fun _ _ _ permitted both stepped => ⟨both.1.step stepped, both.2.step both.1 permitted stepped⟩)
    events newChaincodeHandler handler ⟨consistent_initial, copied_initial⟩ keeps reached).2

end Pobl.Shim
