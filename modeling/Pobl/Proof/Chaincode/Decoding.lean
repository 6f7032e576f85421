import Pobl.Construction.Completed
import Pobl.Library.WireFields

namespace Pobl.Chaincode

open Library.Wire KVRead

/-- The strings of a read are UTF-8. -/
def KVRead.valid (read : KVRead) : Bool := validString read.key && validString read.txid

/-- The strings of a write are UTF-8. -/
def KVWrite.valid (write : KVWrite) : Bool := validString write.key && validString write.txid

theorem Version.unmarshal_marshal (version : Version) :
    unmarshal Version.table .zero version.marshal.1 = (version, true) := by
  have one := reads_number Version.table 1 version.blockNum .zero rfl (by decide) rfl
  have two := reads_number Version.table 2 version.txNum ⟨version.blockNum, 0⟩ rfl (by decide) rfl
  simpa [Version.marshal] using (one.append two).unmarshal

theorem Version.marshal_valid (version : Version) : version.marshal.2 = true := by
  simp [Version.marshal]

@[simp] theorem marshal_version (version : Option Version) (later : List Written) :
    marshal (appendMessage 2 (version.map Version.marshal) :: later) =
      ((appendMessage 2 (version.map Version.marshal)).bytes ++ (marshal later).1, (marshal later).2) := by
  cases version with
  | none => rfl
  | some version =>
    have valid : version.marshal = (version.marshal.1, true) := by rw [← version.marshal_valid]
    rfl

theorem reads_version {read : KVRead} {version : Option Version} (unset : read.version = none)
    (short : (appendMessage 2 (version.map Version.marshal)).bytes.length < 2 ^ 64) :
    Reads table (appendMessage 2 (version.map Version.marshal)).bytes true read
      { read with version := version } := by
  cases version with
  | none =>
    rw [show ({ read with version := none } : KVRead) = read by rw [← unset]]
    exact Reads.nil table read
  | some version =>
    have valid : version.marshal = (version.marshal.1, true) := by rw [← version.marshal_valid]
    refine reads_message (by rfl) (by decide) ?_ ?_ (by rfl)
    · exact Nat.lt_of_le_of_lt (length_le_delimitedField 2 _) short
    · rw [unset]
      exact version.unmarshal_marshal

theorem KVRead.marshal_valid (read : KVRead) : read.marshal.2 = read.valid := by
  simp [marshal, valid]

theorem KVWrite.marshal_valid (write : KVWrite) : write.marshal.2 = write.valid := by
  simp [KVWrite.marshal, KVWrite.valid]

theorem KVRead.unmarshal_marshal {read : KVRead} (short : read.marshal.1.length < 2 ^ 64) :
    unmarshal table .zero read.marshal.1 = (read, read.marshal.2) := by
  have keyLength := length_le_appendString 1 read.key
  have valueLength := length_le_appendBytes 3 read.value
  have txidLength := length_le_appendString 5 read.txid
  simp only [marshal, marshal_appendString, marshal_version, marshal_appendBytes, marshal_appendBool,
    marshal_nil, List.append_nil, List.length_append, Bool.and_true] at short ⊢
  have key := reads_string table 1 read.key .zero rfl (by decide) (by omega) rfl
  have version : Reads table (appendMessage 2 (read.version.map Version.marshal)).bytes true
      ⟨read.key, none, [], false, []⟩ ⟨read.key, read.version, [], false, []⟩ :=
    reads_version rfl (by omega)
  have value := reads_bytes table 3 read.value ⟨read.key, read.version, [], false, []⟩ rfl (by decide) (by omega) rfl
  have isRead := reads_bool table 4 read.isRead ⟨read.key, read.version, read.value, false, []⟩ rfl (by decide) rfl
  have txid := reads_string table 5 read.txid { read with txid := [] } rfl (by decide) (by omega) rfl
  simpa using (key.append (version.append (value.append (isRead.append txid)))).unmarshal

theorem KVWrite.unmarshal_marshal {write : KVWrite} (short : write.marshal.1.length < 2 ^ 64) :
    unmarshal KVWrite.table .zero write.marshal.1 = (write, write.marshal.2) := by
  have keyLength := length_le_appendString 1 write.key
  have valueLength := length_le_appendBytes 3 write.value
  have txidLength := length_le_appendString 5 write.txid
  simp only [KVWrite.marshal, marshal_appendString, marshal_appendBytes, marshal_appendBool,
    marshal_nil, List.append_nil, List.length_append, Bool.and_true] at short ⊢
  have key := reads_string KVWrite.table 1 write.key .zero rfl (by decide) (by omega) rfl
  have isDelete := reads_bool KVWrite.table 2 write.isDelete ⟨write.key, false, [], false, []⟩ rfl (by decide) rfl
  have value := reads_bytes KVWrite.table 3 write.value ⟨write.key, write.isDelete, [], false, []⟩ rfl (by decide)
    (by omega) rfl
  have isWrite := reads_bool KVWrite.table 4 write.isWrite ⟨write.key, write.isDelete, write.value, false, []⟩ rfl
    (by decide) rfl
  have txid := reads_string KVWrite.table 5 write.txid { write with txid := [] } rfl (by decide) (by omega) rfl
  simpa using (key.append (isDelete.append (value.append (isWrite.append txid)))).unmarshal

theorem Response.unmarshal_marshal {response : Response} (shortMessage : response.message.length < 2 ^ 64)
    (shortPayload : response.payload.length < 2 ^ 64) :
    unmarshal Response.table .zero response.marshal.1 = (response, validString response.message) := by
  simp only [Response.marshal, marshal_appendInt32, marshal_appendString, marshal_appendBytes,
    marshal_nil, List.append_nil]
  have status := reads_int32 Response.table 1 response.status .zero rfl (by decide) rfl
  have message := reads_string Response.table 2 response.message ⟨response.status, [], []⟩ rfl (by decide) shortMessage rfl
  have payload := reads_bytes Response.table 3 response.payload { response with payload := [] } rfl (by decide)
    shortPayload rfl
  simpa using (status.append (message.append payload)).unmarshal

end Pobl.Chaincode
