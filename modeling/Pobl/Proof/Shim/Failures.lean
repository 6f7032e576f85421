import Pobl.Construction.Endorser
import Pobl.Proof.Shim.Provenance
import Pobl.Proof.Shim.Successful

namespace Pobl.Shim

open Library Protos Endorser Handler List

/-- An execution that fails has written nothing. -/
def Handler.FailsClean (handler : Handler) : Event → Prop
  | .receive _ => ∀ msg ∈ handler.commitC.head?, error ≤ (executed handler.localState msg).2.status →
      (executed handler.localState msg).1.unLockWriteSets.entries = []
  | _ => True

instance (handler : Handler) : (event : Event) → Decidable (handler.FailsClean event)
  | .receive _ => by dsimp only [Handler.FailsClean]; infer_instance
  | .handleTransaction _ _ | .call _ | .send _ | .write | .complete => .isTrue trivial

/-- The failed transactions have no writes. -/
structure CleanFailures (handler : Handler) : Prop where
  current : ∀ commit, handler.committing = some commit → error ≤ commit.res.status →
    commit.lts.finalWriteSet = [] ∧ commit.writes = []
  commits : ∀ commit ∈ handler.commits, error ≤ commit.2.status → commit.2.writeSet = []

theorem cleanFailures_initial : CleanFailures newChaincodeHandler := ⟨nofun, nofun⟩

theorem CleanFailures.step {handler next : Handler} {event : Event} (clean : CleanFailures handler)
    (consistent : Consistent handler) (allowed : handler.FailsClean event)
    (stepped : handler.step event = some next) : CleanFailures next := by
  obtain ⟨current, commits⟩ := clean
  cases steps_of_step stepped with
  | refused txid err =>
    refine ⟨current, ?_⟩
    rw [commits_refused]
    exact commits
  | started => exact ⟨current, commits⟩
  | called => exact ⟨current, commits⟩
  | sent => exact ⟨current, commits⟩
  | received order msg rest idle queue =>
    refine ⟨?_, commits⟩
    intro commit busy failed
    cases busy
    have tracks := consistent.queued msg (by rw [queue]; exact mem_cons_self)
    have unwritten := allowed msg (by rw [queue]; rfl) failed
    refine ⟨validate_writes order tracks, ?_⟩
    have visited := order.perm .unLockWriteSets (executed handler.localState msg).1.unLockWriteSets.entries
    rw [unwritten] at visited
    change order.visit _ (executed handler.localState msg).1.unLockWriteSets.entries = []
    rw [unwritten]
    exact visited.eq_nil
  | wrote commit wkv writes busy remaining =>
    refine ⟨?_, commits⟩
    intro other same failed
    cases same
    rw [(current commit busy failed).2] at remaining
    cases remaining
  | completed commit busy written =>
    refine ⟨nofun, ?_⟩
    rw [commits_completed]
    intro other listed failed
    rcases mem_append.mp listed with old | new
    · exact commits other old failed
    · rw [mem_singleton.mp new] at failed ⊢
      exact (current commit busy failed).1

/-- Only the commit loop changes cells, and only for a transaction that has not failed. -/
theorem CleanFailures.localState {handler next : Handler} {event : Event} (clean : CleanFailures handler)
    (stepped : handler.step event = some next) :
    next.localState = handler.localState ∨
      ∃ commit, handler.committing = some commit ∧ commit.res.status < error := by
  cases steps_of_step stepped with
  | wrote commit wkv writes busy remaining =>
    refine .inr ⟨commit, busy, ?_⟩
    by_contra failed
    rw [(clean.current commit busy (Int.not_lt.mp failed)).2] at remaining
    cases remaining
  | _ => exact .inl rfl

/-- A cell names a committed transaction that has written. -/
theorem writer_of_replay {commits : List (TxId × BuildRwset)} {key : Key} {cell : Value × TxId}
    (found : Replay.replay (commitEntries commits) key = some cell) :
    ∃ commit ∈ commits, commit.1 = cell.2 ∧ commit.2.writeSet ≠ [] := by
  obtain ⟨entry, listed, assigned⟩ := Replay.exists_entry_of_replay found
  obtain ⟨commit, member, written⟩ := mem_flatMap.mp listed
  obtain ⟨wkv, writes, rfl⟩ := mem_map.mp written
  unfold cellEntry at assigned
  split at assigned
  · cases assigned
    exact ⟨commit, member, rfl, ne_nil_of_mem writes⟩
  · cases assigned

/-- A response with an error status is never endorsed. -/
theorem processProposal_failed {ChaincodeEvent : Type} (support : Endorser.Support ChaincodeEvent) (chainID : String)
    (payload : BuildRwset) (ccevent : Option ChaincodeEvent) (results : Except String Value)
    (failed : error ≤ payload.status) (pResp : Endorser.ProposalResponse)
    (answered : processProposal support chainID
      (simulateProposal (.ok (handleCompleted payload, ccevent)) results) = .ok pResp) :
    pResp.endorsement = none := by
  have above : (handleCompleted payload).status ≥ errorThreshold :=
    Int.le_trans (by decide : errorThreshold ≤ error) failed
  unfold simulateProposal callChaincode at answered
  dsimp only at answered
  rw [if_pos above] at answered
  cases results with
  | error err =>
    cases answered
    rfl
  | ok pubSimResBytes =>
    unfold processProposal at answered
    dsimp only at answered
    rw [if_pos (show (handleCompleted payload).status ≥ error from failed)] at answered
    dsimp only [eventBytes] at answered
    unfold createProposalResponseFailure at answered
    cases hashed : support.getProposalHash1 with
    | error err =>
      rw [hashed] at answered
      cases answered
      rfl
    | ok pHashBytes =>
      rw [hashed] at answered
      dsimp only at answered
      cases assembled : support.getBytesProposalResponsePayload pHashBytes
          (handleCompleted payload) pubSimResBytes [] with
      | error err =>
        rw [assembled] at answered
        cases answered
        rfl
      | ok prpBytes =>
        rw [assembled] at answered
        cases answered
        rfl

/-- Failed invocations whose chaincode has written nothing change no cell, are named by no later
transaction, and are not endorsed. -/
theorem failed_invocation_no_effect (events : List Event) (handler : Handler)
    (distinct : (events.filterMap Event.started).Nodup)
    (clean : Guarded step Handler.FailsClean newChaincodeHandler events)
    (reached : run step newChaincodeHandler events = some handler) :
    (∀ event next, handler.step event = some next → next.localState = handler.localState ∨
      ∃ commit, handler.committing = some commit ∧ commit.res.status < error) ∧
    EachAfter (fun earlier commit => ∀ failed ∈ earlier, error ≤ failed.2.status →
      (∀ read ∈ commit.2.readSet, read.txid ≠ failed.1) ∧ ∀ wkv ∈ commit.2.writeSet, wkv.txid ≠ failed.1)
      handler.commits ∧
    ∀ commit ∈ handler.commits, error ≤ commit.2.status →
      ∀ (ChaincodeEvent : Type) (support : Endorser.Support ChaincodeEvent) chainID ccevent results pResp,
        processProposal support chainID
          (simulateProposal (.ok (handleCompleted commit.2, ccevent)) results) = .ok pResp →
        pResp.endorsement = none := by
  obtain ⟨consistent, failures⟩ := run_invariant step Handler.FailsClean
    (fun handler => Consistent handler ∧ CleanFailures handler)
    (fun _ _ _ permitted both stepped => ⟨both.1.step stepped, both.2.step both.1 permitted stepped⟩)
    events newChaincodeHandler handler ⟨consistent_initial, cleanFailures_initial⟩ clean reached
  have attributed := (run_attributed reached).2
  have ids := commits_nodup distinct reached
  have unnamed : ∀ position, ∀ failed ∈ handler.commits.take position, error ≤ failed.2.status →
      ∀ key cell, Replay.replay (commitEntries (handler.commits.take position)) key = some cell →
        cell.2 ≠ failed.1 := by
    intro position failed earlier status key cell found same
    obtain ⟨writer, member, name, writes⟩ := writer_of_replay found
    have here := mem_of_mem_take earlier
    rw [inj_on_of_nodup_map ids (mem_of_mem_take member) here (name.trans same)] at writes
    exact writes (failures.commits failed here status)
  refine ⟨fun event next stepped => failures.localState stepped, ?_,
    fun commit _ failed _ support chainID ccevent results pResp =>
      processProposal_failed support chainID commit.2 ccevent results failed pResp⟩
  intro position commit found failed earlier status
  constructor
  · intro read listed
    obtain ⟨cell, left, parent⟩ := Option.map_eq_some_iff.mp (consistent.reads position commit found read listed)
    rw [← parent]
    exact unnamed position failed earlier status _ cell left
  · intro wkv listed
    rw [(attributed.writes position commit found).2 wkv listed, previousWriter]
    cases left : Replay.replay (commitEntries (handler.commits.take position)) wkv.key with
    | some cell => exact unnamed position failed earlier status _ cell left
    | none =>
      intro same
      have name : commit.1 = failed.1 := same
      exact eachAfter_of_nodup ids position commit found (name ▸ mem_map_of_mem earlier)

/-- A chaincode that reads a key and fails. -/
def readAndFail : Program := .getState "k" fun _ => .done ⟨error, "", []⟩

def writeAndFail : Program := .putState "k" (some [1]) fun _ => .done ⟨error, "", []⟩

def failingEvents : List Event :=
  [.handleTransaction "p" (.ok (writeKey [1], writeKey [1])), .call 0, .send 0,
    .receive (.stored RangeSite), .write, .complete,
    .handleTransaction "f" (.ok (readAndFail, readAndFail)), .call 0, .send 0,
    .receive (.stored RangeSite), .complete]

/-- The transaction `f` has failed after a read, and the cell of the key still names `p`. -/
theorem failed_invocation_no_effect_reader : ∃ handler,
    run step newChaincodeHandler failingEvents = some handler ∧
    handler.commits.map (fun commit => (commit.1, commit.2.status)) = [("p", ok), ("f", error)] ∧
    ∀ event next, handler.step event = some next → next.localState = handler.localState ∨
      ∃ commit, handler.committing = some commit ∧ commit.res.status < error := by
  refine exists_evaluated (by decide) fun handler reached _ => ?_
  exact (failed_invocation_no_effect failingEvents handler (by decide) (by decide) reached).1

def failedWriteTrace : List Event :=
  [.handleTransaction "f" (.ok (writeAndFail, writeAndFail)), .call 0, .send 0,
    .receive (.stored RangeSite), .write, .complete]

/-- The invocation `f` has failed, and the cell that it created holds its value and names it. -/
theorem failed_write_stays : ∃ handler, run step newChaincodeHandler failedWriteTrace = some handler ∧
    handler.commits.map (fun commit => (commit.1, commit.2.status)) = [("f", error)] ∧
    handler.localState.view "k" = some ⟨some [1], [1], "f"⟩ ∧
    newChaincodeHandler.localState.view "k" = none := by
  exact exists_evaluated (by decide) fun handler reached _ => ⟨of_evaluated reached (by decide), rfl⟩

end Pobl.Shim
