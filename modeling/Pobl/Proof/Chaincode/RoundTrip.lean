import Pobl.Proof.Chaincode.Decoding

namespace Pobl.Chaincode

open Library.Wire BuildRwset List

variable {buildRwset : BuildRwset} {res : Response}

/-- A call of a chaincode: what Init returned, or what Invoke returned and the sets that its simulator holds. -/
inductive Call where
  | init (res : Response)
  | invoke (finalReadSet : List KVRead) (finalWriteSet : List KVWrite) (res : Response)

namespace Call

def response : Call → Response
  | .init res => res
  | .invoke _ _ res => res

/-- The reads that the shim puts into the message. -/
def reads : Call → List KVRead
  | .init _ => []
  | .invoke finalReadSet _ _ => finalReadSet

/-- The writes that the shim puts into the message. -/
def writes : Call → List KVWrite
  | .init _ => []
  | .invoke _ finalWriteSet _ => finalWriteSet

def message : Call → ChaincodeMessage
  | .init res => handleInit res
  | .invoke finalReadSet finalWriteSet res => validateAndCommit finalReadSet finalWriteSet 0 res

/-- A message that ends the call gives the peer the response, and its simulator the reads and the writes. -/
def Delivered (call : Call) : Prop :=
  ∀ payload, call.message = .completed payload →
    processChaincodeExecutionResult (.completed (handleCompleted true payload).payload) = .ok call.response ∧
    ((handleCompleted true payload).buildRWset.map fun buildRwset => (buildRwset.readSet, buildRwset.writeSet)) =
      some (call.reads, call.writes)

/-- Init is reported as an error or returns nothing, or Invoke has only strings in UTF-8. -/
def Carried : Call → Prop
  | .init res => error ≤ res.status ∨ validString res.message = false ∨ res = .zero
  | .invoke finalReadSet finalWriteSet res =>
    validString res.message = true ∧ (∀ read ∈ finalReadSet, read.valid = true) ∧
      ∀ write ∈ finalWriteSet, write.valid = true

/-- The payload of the message is a Go slice. -/
def Fits (call : Call) : Prop := ∀ payload, call.message = .completed payload → payload.length < 2 ^ 63

end Call

theorem foldl_addRead (reads : List KVRead) (buildRwset : BuildRwset) :
    reads.foldl (fun message read => message.addRead read) buildRwset =
      { buildRwset with readSet := buildRwset.readSet ++ reads } := by
  induction reads generalizing buildRwset with
  | nil => simp
  | cons read later ih =>
    rw [foldl_cons, ih]
    simp [addRead]

theorem foldl_addWrite (writes : List KVWrite) (buildRwset : BuildRwset) :
    writes.foldl (fun message write => message.addWrite write) buildRwset =
      { buildRwset with writeSet := buildRwset.writeSet ++ writes } := by
  induction writes generalizing buildRwset with
  | nil => simp
  | cons write later ih =>
    rw [foldl_cons, ih]
    simp [addWrite]

theorem readSet_entry : table 1 = some (readElement KVRead.table .zero addRead) := rfl

theorem writeSet_entry : table 2 = some (readElement KVWrite.table .zero addWrite) := rfl

/-- The sets of a message are read back if all strings in them are UTF-8. -/
theorem BuildRwset.unmarshal_marshal (short : buildRwset.marshal.1.length < 2 ^ 64)
    (reads : ∀ read ∈ buildRwset.readSet, read.marshal.2 = true)
    (writes : ∀ write ∈ buildRwset.writeSet, write.marshal.2 = true) :
    (unmarshal table .zero buildRwset.marshal.1).1 = buildRwset := by
  obtain ⟨readSet, writeSet, collection, txnCount, status, message, payload⟩ := buildRwset
  have collectionLength := length_le_appendString 3 collection
  have messageLength := length_le_appendString 6 message
  have payloadLength := length_le_appendBytes 7 payload
  simp only [marshal, marshal_appendElements reads, marshal_appendElements writes,
    marshal_appendString, marshal_appendInt64, marshal_appendInt32, marshal_appendBytes,
    marshal_nil, append_nil, length_append] at short ⊢
  have first : Reads table (appendElements 1 (readSet.map KVRead.marshal)).bytes true .zero
      ⟨readSet, [], [], 0, 0, [], []⟩ :=
    reads_elements readSet_entry (by decide) @KVRead.unmarshal_marshal (by omega) reads (foldl_addRead readSet _)
  have second : Reads table (appendElements 2 (writeSet.map KVWrite.marshal)).bytes true
      ⟨readSet, [], [], 0, 0, [], []⟩ ⟨readSet, writeSet, [], 0, 0, [], []⟩ :=
    reads_elements writeSet_entry (by decide) @KVWrite.unmarshal_marshal (by omega) writes (foldl_addWrite writeSet _)
  have third := reads_string table 3 collection ⟨readSet, writeSet, [], 0, 0, [], []⟩ rfl (by decide) (by omega) rfl
  have fourth := reads_int64 table 4 txnCount ⟨readSet, writeSet, collection, 0, 0, [], []⟩ rfl (by decide) rfl
  have fifth := reads_int32 table 5 status ⟨readSet, writeSet, collection, txnCount, 0, [], []⟩ rfl (by decide) rfl
  have sixth := reads_string table 6 message ⟨readSet, writeSet, collection, txnCount, status, [], []⟩ rfl (by decide)
    (by omega) rfl
  have seventh := reads_bytes table 7 payload ⟨readSet, writeSet, collection, txnCount, status, message, []⟩ rfl
    (by decide) (by omega) rfl
  have all := first.append (second.append (third.append (fourth.append (fifth.append (sixth.append seventh)))))
  rw [all.unmarshal]

/-- The text and the payload are no longer than the message that holds them. -/
theorem BuildRwset.length_le_marshal (buildRwset : BuildRwset)
    (reads : ∀ read ∈ buildRwset.readSet, read.marshal.2 = true)
    (writes : ∀ write ∈ buildRwset.writeSet, write.marshal.2 = true) :
    buildRwset.message.length ≤ buildRwset.marshal.1.length ∧
      buildRwset.payload.length ≤ buildRwset.marshal.1.length := by
  have messageLength := length_le_appendString 6 buildRwset.message
  have payloadLength := length_le_appendBytes 7 buildRwset.payload
  simp only [marshal, marshal_appendElements reads, marshal_appendElements writes,
    marshal_appendString, marshal_appendInt64, marshal_appendInt32, marshal_appendBytes, length_append]
  omega

/-- Otherwise the peer misses an element of one of the sets. -/
theorem BuildRwset.unmarshal_marshal_of_invalid (short : buildRwset.marshal.1.length < 2 ^ 64)
    (invalid : (∃ read ∈ buildRwset.readSet, read.marshal.2 = false) ∨
      ∃ write ∈ buildRwset.writeSet, write.marshal.2 = false) :
    (unmarshal table .zero buildRwset.marshal.1).1.readSet.length < buildRwset.readSet.length ∨
      (unmarshal table .zero buildRwset.marshal.1).1.writeSet.length < buildRwset.writeSet.length := by
  by_cases bad : ∃ read ∈ buildRwset.readSet, read.marshal.2 = false
  · left
    simp only [marshal, marshal_appendElements_of_invalid bad] at short ⊢
    obtain ⟨good, fewer, stops⟩ := stops_elements readSet_entry (by decide) @KVRead.unmarshal_marshal short bad
    rw [stops.unmarshal, foldl_addRead]
    exact fewer
  · right
    have reads : ∀ read ∈ buildRwset.readSet, read.marshal.2 = true := by simpa using bad
    have badWrite := invalid.resolve_left bad
    simp only [marshal, marshal_appendElements reads, marshal_appendElements_of_invalid badWrite,
      length_append] at short ⊢
    have first : Reads table (appendElements 1 (buildRwset.readSet.map KVRead.marshal)).bytes true .zero
        ⟨buildRwset.readSet, [], [], 0, 0, [], []⟩ :=
      reads_elements readSet_entry (by decide) @KVRead.unmarshal_marshal (by omega) reads (foldl_addRead _ _)
    obtain ⟨good, fewer, stops⟩ := stops_elements writeSet_entry (by decide) @KVWrite.unmarshal_marshal (by omega) badWrite
    rw [(first.stops stops).unmarshal, foldl_addWrite]
    exact fewer

/-- Read as a set of reads and writes, the response of Init has no status, no message and no payload. -/
theorem unmarshal_response (short : res.marshal.1.length < 2 ^ 64) :
    ∃ writes collection, (unmarshal table .zero res.marshal.1).1 =
      ⟨[], writes, collection, 0, 0, [], []⟩ := by
  have messageLength := length_le_appendString 2 res.message
  have payloadLength := length_le_appendBytes 3 res.payload
  simp only [Response.marshal, marshal_appendInt32, marshal_appendString, marshal_appendBytes,
    marshal_nil, append_nil, length_append] at short ⊢
  have status : Reads table (appendInt32 1 res.status).bytes true .zero .zero :=
    reads_skipped_number (by rfl) (fun _ _ => rfl) (by decide) _
  have payload (writes : List KVWrite) : Reads table (appendBytes 3 res.payload).bytes
      (validString res.payload) ⟨[], writes, [], 0, 0, [], []⟩ ⟨[], writes, res.payload, 0, 0, [], []⟩ := by
    rw [← bytes_appendString]
    exact reads_string table 3 res.payload ⟨[], writes, [], 0, 0, [], []⟩ rfl (by decide) (by omega) rfl
  by_cases empty : res.message = []
  · have message : Reads table (appendString 2 res.message).bytes true .zero .zero := by
      rw [bytes_appendString, empty]
      exact .nil table .zero
    exact ⟨[], res.payload, by rw [(status.append (message.append (payload []))).unmarshal]⟩
  · have field : (appendString 2 res.message).bytes = delimitedField 2 res.message := by
      rw [bytes_appendString]
      simp [appendBytes, Written.bytes, empty]
    rw [field]
    cases decoded : unmarshal KVWrite.table .zero res.message with
    | mk write valid =>
      cases valid with
      | true =>
        have message : Reads table (delimitedField 2 res.message) true .zero
            ⟨[], [write], [], 0, 0, [], []⟩ :=
          reads_element writeSet_entry (by decide) (by omega) decoded
        exact ⟨[write], res.payload, by rw [(status.append (message.append (payload [write]))).unmarshal]⟩
      | false =>
        have message : Stops table (delimitedField 2 res.message) .zero .zero :=
          stops_element writeSet_entry (by decide) (by omega) decoded
        exact ⟨[], [], by rw [(status.stops (message.append _)).unmarshal]; rfl⟩

/-- The simulator gets what the peer could read. -/
theorem handed_eq {payload : Bytes} (handed : (handleCompleted true payload).buildRWset = some buildRwset) :
    buildRwset = (unmarshal table .zero payload).1 := by
  simp only [handleCompleted, if_true] at handed
  split at handed
  · cases handed
  · split at handed
    · cases handed
    · exact (Option.some.inj handed).symm

namespace Call

/-- The message of Init is delivered only if there is nothing in it. -/
theorem delivered_init_iff (fits : (Call.init res).Fits) : (Call.init res).Delivered ↔ (Call.init res).Carried := by
  by_cases failed : error ≤ res.status
  · have sent : (Call.init res).message = .error res.message := if_pos failed
    exact ⟨fun _ => .inl failed, fun _ payload completed => (by cases sent.symm.trans completed)⟩
  cases valid : validString res.message with
  | false =>
    have sent : (Call.init res).message = .error invalidUTF8Error.toUTF8.toList := by
      have marshaled : res.marshal = (res.marshal.1, false) := by simp [Response.marshal, valid]
      rw [message, handleInit, if_neg failed, marshaled]
    exact ⟨fun _ => .inr (.inl valid), fun _ payload completed => (by cases sent.symm.trans completed)⟩
  | true =>
    have sent : (Call.init res).message = .completed res.marshal.1 := by
      have marshaled : res.marshal = (res.marshal.1, true) := by simp [Response.marshal, valid]
      rw [message, handleInit, if_neg failed, marshaled]
    obtain ⟨writes, collection, decoded⟩ :=
      unmarshal_response (Nat.lt_trans (fits _ sent) (by decide))
    have returned : (handleCompleted true res.marshal.1).payload = Response.zero.marshal.1 := by
      simp [handleCompleted, decoded, Response.zero]
    have process : processChaincodeExecutionResult (.completed Response.zero.marshal.1) = .ok .zero := by decide
    constructor
    · intro delivered
      obtain ⟨response, _⟩ := delivered _ sent
      rw [returned, process] at response
      exact .inr (.inr (Except.ok.inj response).symm)
    · rintro (failure | invalid | rfl) payload completed
      · exact absurd failure failed
      · cases valid.symm.trans invalid
      · cases sent.symm.trans completed
        exact ⟨by rw [returned, process, response], by decide⟩

/-- The message of Invoke is delivered if its strings are UTF-8. -/
theorem delivered_invoke_iff {reads : List KVRead} {writes : List KVWrite}
    (fits : (Call.invoke reads writes res).Fits) :
    (Call.invoke reads writes res).Delivered ↔ (Call.invoke reads writes res).Carried := by
  let sent : BuildRwset := ⟨reads, writes, [], 0, res.status, res.message, res.payload⟩
  have completed : (Call.invoke reads writes res).message = .completed sent.marshal.1 := rfl
  have short : sent.marshal.1.length < 2 ^ 64 := Nat.lt_trans (fits _ completed) (by decide)
  by_cases valid : (∀ read ∈ reads, read.valid = true) ∧ ∀ write ∈ writes, write.valid = true
  · have readsValid : ∀ read ∈ reads, read.marshal.2 = true := by simpa [KVRead.marshal_valid] using valid.1
    have writesValid : ∀ write ∈ writes, write.marshal.2 = true := by simpa [KVWrite.marshal_valid] using valid.2
    have decoded : (unmarshal table .zero sent.marshal.1).1 = sent :=
      unmarshal_marshal short readsValid writesValid
    have handled : handleCompleted true sent.marshal.1 = ⟨some sent, res.marshal.1⟩ := by
      simp [handleCompleted, decoded, sent, isCollectionSet]
    obtain ⟨shortMessage, shortPayload⟩ := sent.length_le_marshal readsValid writesValid
    have read := Response.unmarshal_marshal (Nat.lt_of_le_of_lt shortMessage short)
      (Nat.lt_of_le_of_lt shortPayload short)
    constructor
    · intro delivered
      refine ⟨?_, valid⟩
      obtain ⟨response, _⟩ := delivered _ completed
      rw [handled] at response
      cases text : validString res.message with
      | true => rfl
      | false =>
        rw [processChaincodeExecutionResult, read, text] at response
        cases response
    · rintro ⟨text, _⟩ payload same
      cases completed.symm.trans same
      rw [handled, processChaincodeExecutionResult, read, text]
      exact ⟨rfl, rfl⟩
  · have invalid : (∃ read ∈ reads, read.marshal.2 = false) ∨ ∃ write ∈ writes, write.marshal.2 = false := by
      rw [not_and_or] at valid
      simpa [KVRead.marshal_valid, KVWrite.marshal_valid] using valid
    refine iff_of_false (fun delivered => ?_) fun carried => valid carried.2
    obtain ⟨_, handed⟩ := delivered _ completed
    obtain ⟨buildRwset, handedSet, sets⟩ := Option.map_eq_some_iff.mp handed
    obtain ⟨sameReads, sameWrites⟩ := Prod.mk.inj sets
    rw [handed_eq handedSet] at sameReads sameWrites
    rcases unmarshal_marshal_of_invalid short invalid with fewer | fewer
    · rw [sameReads] at fewer
      exact Nat.lt_irrefl _ fewer
    · rw [sameWrites] at fewer
      exact Nat.lt_irrefl _ fewer

/-- For every call whose message is a Go slice, the message that ends it reaches the peer and its simulator
unchanged if and only if it is carried. -/
theorem delivered_iff_carried (call : Call) (fits : call.Fits) : call.Delivered ↔ call.Carried := by
  cases call with
  | init res => exact delivered_init_iff fits
  | invoke reads writes res => exact delivered_invoke_iff fits

/-- A transaction that read and wrote one key. -/
theorem delivered_invoke_one :
    (Call.invoke [⟨[97], none, [49], true, []⟩] [⟨[97], false, [50], true, [116]⟩] ⟨200, [], [111, 107]⟩).Delivered :=
  (delivered_iff_carried _ (by rintro _ ⟨⟩; decide)).mpr ⟨by decide, by decide, by decide⟩

/-- An Init that succeeds with status 200 is taken for one with status 0. -/
theorem init_success_not_delivered : ¬ (Call.init ⟨200, [], []⟩).Delivered := by
  intro delivered
  obtain ⟨response, _⟩ := delivered [8, 200, 1] (by decide)
  exact absurd response (by decide)

end Call

end Pobl.Chaincode
