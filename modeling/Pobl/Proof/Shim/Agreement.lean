import Pobl.Proof.Receiver.Immediate
import Pobl.Proof.Shim.Successful

namespace Pobl.Shim

open Library Protos BlockCutter Session Replay List
open Partialorder (GVNode processEnvForBC processNsRwSet processRead processWrite NodeState)

/-- The envelope of a committed transaction in one namespace. -/
def endorsed (nameSpace : String) (commit : TxId × BuildRwset) : Envelope :=
  endorserEnvelope nameSpace commit.1 commit.2.readSet commit.2.writeSet

/-- The node of the envelope of a committed transaction. -/
def endorsedNode (nameSpace : String) (commit : TxId × BuildRwset) : GVNode :=
  processNsRwSet
    { txResult := endorsed nameSpace commit, txId := commit.1, readSet := ∅, writeSet := ∅, pTx := ∅,
      unPTx := ∅, consensusState := 0 }
    ⟨nameSpace, commit.2.readSet, commit.2.writeSet⟩

theorem txId_endorsedNode (nameSpace : String) (commit : TxId × BuildRwset) :
    (endorsedNode nameSpace commit).txId = commit.1 :=
  (Partialorder.processNsRwSet_origin _ _).txId

theorem decodedNodes_endorsed (nameSpace : String) (commits : List (TxId × BuildRwset)) :
    decodedNodes (commits.map (endorsed nameSpace)) = commits.map (endorsedNode nameSpace) := by
  rw [decodedNodes, filterMap_map, ← filterMap_eq_map]
  rfl

/-- The write set of a decoded node holds what the writes leave in the cells. -/
theorem lookup_foldl_processWrite (writes : List KVWrite) (gnode : GVNode) (empty : gnode.writeSet = ∅) (txid : TxId)
    (key : Key) :
    ((writes.foldl processWrite gnode).writeSet.lookup key).map (fun wkv => (wkv.value, txid)) =
      replay (writeEntries txid writes) key := by
  induction writes using reverseRecOn with
  | nil =>
    rw [foldl_nil, empty]
    rfl
  | append_singleton rest write ih =>
    rw [foldl_append, writeEntries, map_append, replay_append]
    change (((rest.foldl processWrite gnode).writeSet.insert write.key ⟨write.key, write.value⟩).lookup key).map _ =
      (cellEntry txid write key).or (replay (writeEntries txid rest) key)
    rw [GoMap.lookup_insert_apply, cellEntry]
    split
    · rfl
    · exact ih

theorem signedWrites_endorsedNode {nameSpace : String} (kept : nameSpace ≠ "lscc") (commit : TxId × BuildRwset)
    (key : Key) :
    signedWrites (endorsedNode nameSpace commit) key = replay (writeEntries commit.1 commit.2.writeSet) key := by
  unfold signedWrites
  rw [txId_endorsedNode, endorsedNode, processNsRwSet, if_neg kept]
  apply lookup_foldl_processWrite
  refine foldlRecOn (motive := fun gnode : GVNode => gnode.writeSet = ∅) _ _ rfl ?_
  intro gnode unwritten read _
  unfold processRead
  split <;> exact unwritten

/-- The nodes of the committed transactions leave what their writes left in the cells. -/
theorem replay_endorsedNodes {nameSpace : String} (kept : nameSpace ≠ "lscc") (commits : List (TxId × BuildRwset))
    (key : Key) :
    replay ((commits.map (endorsedNode nameSpace)).map signedWrites) key = replay (commitEntries commits) key := by
  induction commits using reverseRecOn with
  | nil => rfl
  | append_singleton rest commit ih =>
    rw [replay_commitEntries_concat, map_append, map_append, replay_append]
    change (signedWrites (endorsedNode nameSpace commit) key).or _ = _
    rw [ih, signedWrites_endorsedNode kept]

/-- A transaction whose reads come from the cells reads what the last writers left. -/
theorem readsLast_endorsedNode (nameSpace : String) {earlier : List (TxId × BuildRwset)} {commit : TxId × BuildRwset}
    (reads : ∀ read ∈ commit.2.readSet, ReadsFrom (commitEntries earlier) read) :
    ReadsLast (earlier.map (endorsedNode nameSpace)) (endorsedNode nameSpace commit) := by
  intro ptxid ptx named key value read
  by_cases kept : nameSpace = "lscc"
  · rw [endorsedNode, processNsRwSet, if_pos kept] at named
    cases named
  · obtain ⟨source, listed, rfl, rfl, rfl⟩ := (Partialorder.processEnvForBC_listed
      (show processEnvForBC (endorsed nameSpace commit) = some (endorsedNode nameSpace commit) from rfl)
        ptxid ptx named).2 key value read
    have member : source ∈ commit.2.readSet := by
      simpa [Partialorder.envelopeReads, endorsed, endorserEnvelope, getActionAndTxidFromEnvelopeMsg] using listed
    rw [replay_endorsedNodes kept]
    exact reads source member

/-- The successful transactions are emitted at once and in the order of their commits. -/
theorem shim_commits_emitted (nameSpace : String) (events : List Event) (handler : Handler)
    (distinct : (events.filterMap Event.started).Nodup)
    (keeps : Guarded Handler.step Handler.KeepsSlices newChaincodeHandler events)
    (settled : Guarded Handler.step Handler.ReadsSettled newChaincodeHandler events)
    (reached : run Handler.step newChaincodeHandler events = some handler) (calls : List Call)
    (forBC : ∀ call ∈ calls, call.ForBC)
    (fed : calls.filterMap Call.message <+: handler.successful.map (endorsed nameSpace)) :
    ∃ session, run step initial calls = some session ∧
      session.emitted = calls.filterMap Call.message ∧
      (∀ target < session.graph.nodes.size, (session.graph.node target).state = .committed) ∧
      (∀ target, (target, NodeState.changedState) ∉ session.graph.stateLog) ∧
      ∀ txid, session.graph.waitUnChoosedTxCNs.lookup txid = none := by
  obtain ⟨ids, reads⟩ := successful_reads distinct keeps settled reached
  have nodes : decodedNodes (calls.filterMap Call.message) <+: handler.successful.map (endorsedNode nameSpace) := by
    rw [← decodedNodes_endorsed]
    exact fed.filterMap _
  have current : EachAfter ReadsLast (handler.successful.map (endorsedNode nameSpace)) := by
    apply EachAfter.map
    exact fun position commit found => readsLast_endorsedNode nameSpace (reads position commit found)
  have feed : Feed calls := by
    refine ⟨forBC, ?_⟩
    rw [filterMap_txId forBC]
    refine List.Nodup.sublist (nodes.sublist.map GVNode.txId) ?_
    rw [map_map]
    exact (map_congr_left fun commit _ => txId_endorsedNode nameSpace commit) ▸ ids
  have decodes : ∀ msg ∈ calls.filterMap Call.message, (processEnvForBC msg).isSome := by
    intro msg listed
    obtain ⟨commit, _, rfl⟩ := mem_map.mp (fed.subset listed)
    rfl
  obtain ⟨session, fedAll, prompt, emitted⟩ := run_prompt feed decodes (current.before nodes)
  exact ⟨session, fedAll, emitted, prompt.settled, prompt.clean, prompt.no_waits prompt.parents⟩

def readThenSucceed (key : Key) : Program := .getState key fun _ => .done ⟨ok, "", []⟩

def writeThenRespond (key : Key) (value : Value) (status : Int) : Program :=
  .putState key (some value) fun _ => .done ⟨status, "", []⟩

/-- A transaction runs alone from its start to the receipt of its commit, with one call of its stub. -/
def startedAlone (txid : TxId) (program : Program) : List Event :=
  [.handleTransaction txid (.ok (program, program)), .call 0, .send 0, .receive (RangeOrder.stored RangeSite)]

/-- The transaction `f` fails after it has written `l`, and `t` reads what `p` has written to `k`. -/
def settledEvents : List Event :=
  startedAlone "p" (writeThenRespond "k" [1] ok) ++ [.write, .complete] ++
    startedAlone "f" (writeThenRespond "l" [2] error) ++ [.write, .complete] ++
      startedAlone "t" (readThenSucceed "k") ++ [.complete]

def settledCalls : List Call :=
  [ordinaryCall (endorserEnvelope "cc" "p" [] [⟨"k", false, [1], true, "p"⟩]),
    ordinaryCall (endorserEnvelope "cc" "t" [⟨"k", [1], true, "p"⟩] [])]

theorem shim_commits_emitted_settled : ∃ session, run step initial settledCalls = some session ∧
      session.emitted = settledCalls.filterMap Call.message := by
  obtain ⟨handler, reached, known⟩ := Option.map_eq_some_iff.mp
    (show (run Handler.step newChaincodeHandler settledEvents).map
      (fun handler => handler.successful.map (endorsed "cc")) = some (settledCalls.filterMap Call.message) by decide)
  obtain ⟨session, fed, emitted, _⟩ := shim_commits_emitted "cc" settledEvents handler (by decide) (by decide)
    (by decide) reached settledCalls (by decide) (known ▸ prefix_rfl)
  exact ⟨session, fed, emitted⟩

/-- The transaction `t` reads what the failed transaction `f` has written. -/
def failedWriteEvents : List Event :=
  startedAlone "f" (writeThenRespond "k" [1] error) ++ [.write, .complete] ++
    startedAlone "t" (readThenSucceed "k") ++ [.complete]

def failedWriteReader : Envelope := endorserEnvelope "cc" "t" [⟨"k", [1], true, "f"⟩] []

/-- The successful transaction `t` waits for the failed transaction `f`, which never reaches the orderer. -/
theorem failed_write_reader_waits : ∃ handler session, (failedWriteEvents.filterMap Event.started).Nodup ∧
    run Handler.step newChaincodeHandler failedWriteEvents = some handler ∧
    handler.successful.map (endorsed "cc") = [failedWriteReader] ∧
    run step initial [ordinaryCall failedWriteReader] = some session ∧
    session.emitted = [] ∧ (session.graph.node 0).state = .wait := by
  obtain ⟨handler, reached⟩ := Option.isSome_iff_exists.mp
    (show (run Handler.step newChaincodeHandler failedWriteEvents).isSome = true by decide)
  obtain ⟨session, fed⟩ := Option.isSome_iff_exists.mp
    (show (run step initial [ordinaryCall failedWriteReader]).isSome = true by decide)
  exact ⟨handler, session, by decide, reached, of_evaluated reached (by decide), fed, of_evaluated fed (by decide),
    of_evaluated fed (by decide)⟩

end Pobl.Shim
