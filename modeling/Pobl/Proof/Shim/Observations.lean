import Pobl.Proof.Shim.CommitLoop

namespace Pobl.Shim

open Library Protos Handler RangeOrder LocalState List

variable {lts : LocalTxnSimulator} {ls : LocalState}

/-- What a read of the key returns. -/
def LocalState.answer (ls : LocalState) (key : Key) : Option Value := (ls.view key).map KeyValue.strValue

theorem getState_answer (ls : LocalState) (key : Key) (lts : LocalTxnSimulator) :
    (lts.getState ls key).1 = ls.answer key ∧
      (lts.getState ls key).2.observed = lts.observed ++ [(key, ls.answer key)] := by
  unfold LocalTxnSimulator.getState getUnLockState answer view
  cases ls.localKeyValues.lookup key <;> exact ⟨rfl, rfl⟩

/-- What a put under the key returns. -/
def putError (key : Key) : Option String := if key = "" then some "key must not be an empty string" else none

theorem putState_putError (key : Key) (value : Option Value) (lts : LocalTxnSimulator) :
    (Shim.putState key value lts).1 = putError key ∧ (Shim.putState key value lts).2.observed = lts.observed := by
  unfold Shim.putState putError
  split <;> exact ⟨rfl, rfl⟩

/-- The program has come to the remaining program after it has observed the given results. -/
inductive Traces (start : Program) : List (Key × Option Value) → Program → Prop where
  | start : Traces start [] start
  | getState {observed : List (Key × Option Value)} {key : Key} {next : Option Value → Program}
      (earlier : Traces start observed (.getState key next)) (value : Option Value) :
      Traces start (observed ++ [(key, value)]) (next value)
  | putState {observed : List (Key × Option Value)} {key : Key} {value : Option Value}
      {next : Option String → Program} (earlier : Traces start observed (.putState key value next)) :
      Traces start observed (next (putError key))
  | delState {observed : List (Key × Option Value)} {key : Key} {next : Program}
      (earlier : Traces start observed (.delState key next)) : Traces start observed next
  | copy {observed : List (Key × Option Value)} {key : Key} {src : Value} {next : Program}
      (earlier : Traces start observed (.copy key src next)) : Traces start observed next

/-- One call of an execution extends its trace. -/
theorem Traces.call {start program : Program} (traces : Traces start lts.observed program) (ls : LocalState) :
    Traces start (program.call ls lts).2.observed (program.call ls lts).1 := by
  cases program with
  | getState key next =>
    obtain ⟨result, grown⟩ := getState_answer ls key lts
    change Traces start (lts.getState ls key).2.observed (next (lts.getState ls key).1)
    rw [grown, result]
    exact traces.getState _
  | putState key value next =>
    obtain ⟨result, same⟩ := putState_putError key value lts
    change Traces start (Shim.putState key value lts).2.observed (next (Shim.putState key value lts).1)
    rw [same, result]
    exact traces.putState
  | delState key next => exact traces.delState
  | copy key src next =>
    change Traces start (lts.copySlice key src).observed next
    rw [(unLockReadSets_copySlice key src lts).2]
    exact traces.copy
  | done res => exact traces

/-- An execution alone comes along the trace when it gets the same answers. -/
theorem Traces.alone {start remaining : Program} {observed : List (Key × Option Value)}
    (traces : Traces start observed remaining) (answers : ∀ entry ∈ observed, entry.2 = ls.answer entry.1)
    (lts : LocalTxnSimulator) :
    ∃ lts', start.invoke ls lts = remaining.invoke ls lts' ∧ lts'.observed = lts.observed ++ observed := by
  induction traces with
  | start => exact ⟨lts, rfl, (append_nil _).symm⟩
  | @getState observed key next earlier value ih =>
    obtain ⟨lts', same, grown⟩ := ih fun entry listed => answers entry (mem_append_left _ listed)
    have here : value = ls.answer key := answers (key, value) (mem_append_right _ mem_cons_self)
    obtain ⟨result, added⟩ := getState_answer ls key lts'
    refine ⟨(lts'.getState ls key).2, ?_, ?_⟩
    · rw [same, here, ← result]
      rfl
    · rw [added, grown, here, append_assoc]
  | @putState observed key value next earlier ih =>
    obtain ⟨lts', same, grown⟩ := ih answers
    obtain ⟨result, kept⟩ := putState_putError key value lts'
    refine ⟨(Shim.putState key value lts').2, ?_, kept.trans grown⟩
    rw [same, ← result]
    rfl
  | @delState observed key next earlier ih =>
    obtain ⟨lts', same, grown⟩ := ih answers
    exact ⟨lts'.deleteState key, same, grown⟩
  | @copy observed key src next earlier ih =>
    obtain ⟨lts', same, grown⟩ := ih answers
    exact ⟨lts'.copySlice key src, same, (unLockReadSets_copySlice key src lts').2.trans grown⟩

/-- An execution alone observes the answers of the state. -/
theorem invoke_answers (program : Program) (answers : ∀ entry ∈ lts.observed, entry.2 = ls.answer entry.1) :
    ∀ entry ∈ (program.invoke ls lts).1.observed, entry.2 = ls.answer entry.1 := by
  induction program generalizing lts with
  | getState key next ih =>
    have grown : ∀ entry ∈ (lts.getState ls key).2.observed, entry.2 = ls.answer entry.1 := by
      rw [(getState_answer ls key lts).2]
      intro entry listed
      rcases mem_append.mp listed with old | new
      · exact answers entry old
      · rw [mem_singleton.mp new]
    exact ih _ grown
  | putState key value next ih =>
    have kept : ∀ entry ∈ (Shim.putState key value lts).2.observed, entry.2 = ls.answer entry.1 := by
      rw [(putState_putError key value lts).2]
      exact answers
    exact ih _ kept
  | delState key next ih => exact ih answers
  | copy key src next ih =>
    apply ih
    rw [(unLockReadSets_copySlice key src lts).2]
    exact answers
  | done res => exact answers

/-- Every value that the execution has read is in its read set. -/
def Records (lts : LocalTxnSimulator) : Prop :=
  ∀ key value, (key, some value) ∈ lts.observed → (lts.unLockReadSets.lookup key).isSome

theorem Records.getState (records : Records lts) (ls : LocalState) (key : Key) : Records (lts.getState ls key).2 := by
  unfold LocalTxnSimulator.getState
  cases ls.getUnLockState key with
  | none =>
    intro query value listed
    rcases mem_append.mp listed with old | new
    · exact records query value old
    · cases mem_singleton.mp new
  | some cell =>
    intro query value listed
    rw [GoMap.lookup_insert_apply]
    split
    · rfl
    next differs =>
      rcases mem_append.mp listed with old | new
      · exact records query value old
      · cases mem_singleton.mp new
        exact absurd rfl differs

theorem Records.call (records : Records lts) (ls : LocalState) (program : Program) :
    Records (program.call ls lts).2 := by
  cases program with
  | getState key next => exact records.getState ls key
  | putState key value next =>
    change Records (Shim.putState key value lts).2
    unfold Shim.putState
    split <;> exact records
  | delState key next => exact records
  | copy key src next =>
    obtain ⟨reads, observed⟩ := unLockReadSets_copySlice key src lts
    change Records (lts.copySlice key src)
    unfold Records
    rw [reads, observed]
    exact records
  | done res => exact records

/-- Every key that the execution found absent has no cell, and every value that it has read is the
last value that it has read from the key. -/
def ObservesLast (ls : LocalState) (lts : LocalTxnSimulator) : Prop :=
  ∀ entry ∈ lts.observed, match entry.2 with
    | none => ls.localKeyValues.lookup entry.1 = none
    | some value => ∃ rkv ∈ lts.unLockReadSets.lookup entry.1, rkv.strValue = value

instance (ls : LocalState) (lts : LocalTxnSimulator) : Decidable (ObservesLast ls lts) := by
  unfold ObservesLast
  refine @decidableBAll _ _ (fun entry => ?_) lts.observed
  cases entry.2 <;> infer_instance

/-- The execution that passes the test of its reads has observed the answers of the state exactly if it
observes last values. -/
theorem answers_iff_observesLast (tracks : Tracks ls lts) (records : Records lts) (flag : flagCommit ls lts = true) :
    (∀ entry ∈ lts.observed, entry.2 = ls.answer entry.1) ↔ ObservesLast ls lts := by
  have current := readsCells_of_flagCommit tracks flag
  have absent : ∀ key, ls.answer key = none ↔ ls.localKeyValues.lookup key = none := by
    intro key
    rw [answer, view, Option.map_map, Option.map_eq_none_iff]
  refine forall₂_congr fun entry listed => ?_
  obtain ⟨key, result⟩ := entry
  cases result with
  | none => exact eq_comm.trans (absent key)
  | some value =>
    obtain ⟨rkv, found⟩ := Option.isSome_iff_exists.mp (records key value listed)
    obtain ⟨cell, viewed, same⟩ := current key rkv found
    have answered : ls.answer key = some rkv.strValue := by
      rw [answer, viewed, Option.map_some, same]
    rw [answered, Option.some.injEq]
    constructor
    · exact fun equal => ⟨rkv, found, equal.symm⟩
    · rintro ⟨other, otherFound, equal⟩
      rw [Option.mem_def, found, Option.some.injEq] at otherFound
      rw [otherFound, equal]

/-- A chaincode runs the same program whenever it is invoked. -/
def Event.Deterministic : Event → Prop
  | .handleTransaction _ (.ok (invoke, reinvoke)) => reinvoke = invoke
  | _ => True

/-- The stub has recorded its reads on the way to the remaining program. -/
structure Follows (stub : ChaincodeStub) (program : Program) : Prop where
  records : Records stub.lts
  traces : Traces stub.invoke stub.lts.observed program
  deterministic : stub.reinvoke = stub.invoke

/-- All executions follow their programs, and the queued ones have come to their end. -/
structure Following (handler : Handler) : Prop where
  running : ∀ execution ∈ handler.running, Follows execution.stub execution.program
  queued : ∀ msg ∈ handler.commitC, Follows msg.stub (.done msg.res)

theorem Following.step {handler next : Handler} {event : Event} (following : Following handler)
    (deterministic : event.Deterministic) (stepped : handler.step event = some next) : Following next := by
  obtain ⟨running, queued⟩ := following
  cases steps_of_step stepped with
  | refused => exact ⟨running, queued⟩
  | started txid invoke reinvoke =>
    refine ⟨?_, queued⟩
    exact forall_mem_append.mpr ⟨running, forall_mem_singleton.mpr ⟨nofun, .start, deterministic⟩⟩
  | called index execution found =>
    refine ⟨?_, queued⟩
    intro other listed
    rcases mem_or_eq_of_mem_set listed with old | new
    · exact running other old
    · subst new
      obtain ⟨records, traces, same⟩ := running execution (List.mem_of_getElem? found)
      exact ⟨records.call _ _, traces.call _, same⟩
  | sent index stub res found =>
    refine ⟨fun execution listed => running execution (mem_of_mem_eraseIdx listed), ?_⟩
    exact forall_mem_append.mpr ⟨queued, forall_mem_singleton.mpr (running _ (List.mem_of_getElem? found))⟩
  | received order msg rest idle queue =>
    exact ⟨running, fun other listed => queued other (by rw [queue]; exact mem_cons_of_mem _ listed)⟩
  | wrote => exact ⟨running, queued⟩
  | completed => exact ⟨running, queued⟩

/-- The committed execution has observed what it would observe alone. -/
def ObservesAlone (ls : LocalState) (msg : CommitMsg) : Prop :=
  (executed ls msg).1.observed = (msg.stub.invoke.invoke ls (newLocalTxnSimulator msg.stub.txID)).1.observed

/-- An execution that is not repeated commits what it would observe alone exactly if it observes
last values. -/
theorem observesAlone_iff {msg : CommitMsg} (tracks : Tracks ls msg.stub.lts)
    (follows : Follows msg.stub (.done msg.res)) :
    ObservesAlone ls msg ↔ (flagCommit ls msg.stub.lts = true → ObservesLast ls msg.stub.lts) := by
  unfold ObservesAlone executed
  split
  next flag =>
    rw [← answers_iff_observesLast tracks follows.records flag]
    constructor
    · intro same _
      rw [show msg.stub.lts.observed = _ from same]
      exact invoke_answers msg.stub.invoke nofun
    · intro answers
      obtain ⟨lts, alone, grown⟩ := follows.traces.alone (answers flag) (newLocalTxnSimulator msg.stub.txID)
      rw [alone]
      exact grown.symm
  next outdated =>
    rw [follows.deterministic]
    exact ⟨fun _ flag => absurd flag outdated, fun _ => rfl⟩

/-- An execution that the commit loop accepts observes last values. -/
def Handler.AcceptsLast (handler : Handler) : Event → Prop
  | .receive _ => ∀ msg ∈ handler.commitC.head?, flagCommit handler.localState msg.stub.lts = true →
      ObservesLast handler.localState msg.stub.lts
  | _ => True

instance (handler : Handler) : (event : Event) → Decidable (handler.AcceptsLast event)
  | .receive _ => by dsimp only [Handler.AcceptsLast]; infer_instance
  | .handleTransaction _ _ | .call _ | .send _ | .write | .complete => .isTrue trivial

/-- Everything that a committed execution has read is what it would read alone at its commit. -/
theorem committed_observations (events : List Event) (order : RangeOrder RangeSite) (handler next : Handler)
    (deterministic : ∀ event ∈ events, event.Deterministic)
    (accepts : Guarded step Handler.AcceptsLast newChaincodeHandler (events ++ [.receive order]))
    (reached : run step newChaincodeHandler events = some handler)
    (received : handler.step (.receive order) = some next) :
    ∃ msg commit, handler.commitC.head? = some msg ∧ next.committing = some commit ∧ commit.txid = msg.stub.txID ∧
      commit.lts.observed =
        (msg.stub.invoke.invoke handler.localState (newLocalTxnSimulator msg.stub.txID)).1.observed := by
  obtain ⟨consistent, following⟩ := run_invariant step (fun _ event => event.Deterministic)
    (fun handler => Consistent handler ∧ Following handler)
    (fun _ _ _ same both stepped => ⟨both.1.step stepped, both.2.step same stepped⟩)
    events newChaincodeHandler handler ⟨consistent_initial, nofun, nofun⟩
    (guarded_of_forall _ _ (fun event listed _ => deterministic event listed) _) reached
  have accepted := (((guarded_append _ _ _ _ _).mp accepts).2 handler reached).1
  cases steps_of_step received with
  | received _ msg rest idle queue =>
    have listed : msg ∈ handler.commitC := by
      rw [queue]
      exact mem_cons_self
    have head : handler.commitC.head? = some msg := by rw [queue, List.head?_cons]
    refine ⟨msg, _, head, rfl, rfl, ?_⟩
    exact (observesAlone_iff (consistent.queued msg listed) (following.queued msg listed)).mpr (accepted msg head)

/-- The chaincode writes a key if it is absent. -/
def createKey : Program := .getState "k" fun value =>
  match value with
  | none => .putState "k" (some [1]) fun _ => .done ⟨ok, "", []⟩
  | some _ => .done ⟨ok, "", []⟩

/-- The chaincode reads a key and writes it. -/
def updateKey : Program := .getState "k" fun _ => .putState "k" (some [2]) fun _ => .done ⟨ok, "", []⟩

/-- The transaction `t` reads the key of `p`, and `q` overwrites it before `t` is received. -/
def overtakenEvents : List Event :=
  [.handleTransaction "p" (.ok (createKey, createKey)), .call 0, .call 0, .send 0,
    .receive (stored RangeSite), .write, .complete,
    .handleTransaction "t" (.ok (createKey, createKey)), .call 0,
    .handleTransaction "q" (.ok (updateKey, updateKey)), .call 1, .call 1, .send 1, .send 0,
    .receive (stored RangeSite), .write, .complete]

/-- The transaction `t` has read `[1]`, and it commits with the `[2]` that it reads at its commit. -/
theorem committed_observations_overtaken : ∃ handler next msg commit,
    run step newChaincodeHandler overtakenEvents = some handler ∧
    handler.step (.receive (stored RangeSite)) = some next ∧
    handler.commitC.head? = some msg ∧ next.committing = some commit ∧
    msg.stub.txID = "t" ∧ msg.stub.lts.observed = [("k", some [1])] ∧ commit.lts.observed = [("k", some [2])] ∧
    commit.lts.observed =
      (msg.stub.invoke.invoke handler.localState (newLocalTxnSimulator msg.stub.txID)).1.observed := by
  have known : ((run step newChaincodeHandler overtakenEvents).bind fun handler =>
      handler.commitC.head?.bind fun msg =>
        (handler.step (.receive (stored RangeSite))).bind fun next =>
          next.committing.map fun commit => (msg.stub.txID, msg.stub.lts.observed, commit.lts.observed)) =
      some ("t", [("k", some [1])], [("k", some [2])]) := rfl
  obtain ⟨handler, reached, known⟩ := Option.bind_eq_some_iff.mp known
  obtain ⟨msg, head, known⟩ := Option.bind_eq_some_iff.mp known
  obtain ⟨next, received, known⟩ := Option.bind_eq_some_iff.mp known
  obtain ⟨commit, busy, known⟩ := Option.map_eq_some_iff.mp known
  simp only [Prod.mk.injEq] at known
  obtain ⟨first, last, first_head, last_busy, _, same⟩ := committed_observations overtakenEvents (stored RangeSite)
    handler next (by simp [overtakenEvents, Event.Deterministic]) (by decide) reached received
  cases head.symm.trans first_head
  cases busy.symm.trans last_busy
  exact ⟨handler, next, msg, commit, reached, received, head, busy, known.1, known.2.1, known.2.2, same⟩

/-- The transactions `p` and `t` both find the key absent, and `p` commits first. -/
def absentKeyEvents : List Event :=
  [.handleTransaction "p" (.ok (createKey, createKey)), .call 0, .call 0,
    .handleTransaction "t" (.ok (createKey, createKey)), .call 1, .call 1, .send 0, .send 0,
    .receive (stored RangeSite), .write, .complete]

/-- The transaction `t` commits without a new execution although it found a key absent that now exists. -/
theorem absent_key_committed : ∃ handler next msg commit, (∀ event ∈ absentKeyEvents, event.Deterministic) ∧
    run step newChaincodeHandler absentKeyEvents = some handler ∧
    handler.step (.receive (stored RangeSite)) = some next ∧
    handler.commitC.head? = some msg ∧ msg.stub.txID = "t" ∧ next.committing = some commit ∧
    commit.lts.observed = [("k", none)] ∧
    (msg.stub.invoke.invoke handler.localState (newLocalTxnSimulator msg.stub.txID)).1.observed =
      [("k", some [1])] := by
  have known : ((run step newChaincodeHandler absentKeyEvents).bind fun handler =>
      handler.commitC.head?.bind fun msg =>
        (handler.step (.receive (stored RangeSite))).bind fun next =>
          next.committing.map fun commit => (msg.stub.txID, commit.lts.observed,
            (msg.stub.invoke.invoke handler.localState (newLocalTxnSimulator msg.stub.txID)).1.observed)) =
      some ("t", [("k", none)], [("k", some [1])]) := rfl
  obtain ⟨handler, reached, known⟩ := Option.bind_eq_some_iff.mp known
  obtain ⟨msg, head, known⟩ := Option.bind_eq_some_iff.mp known
  obtain ⟨next, received, known⟩ := Option.bind_eq_some_iff.mp known
  obtain ⟨commit, busy, known⟩ := Option.map_eq_some_iff.mp known
  simp only [Prod.mk.injEq] at known
  exact ⟨handler, next, msg, commit, by simp [absentKeyEvents, Event.Deterministic], reached, received, head,
    known.1, busy, known.2.1, known.2.2⟩

end Pobl.Shim
