import Pobl.Proof.Mvcc.LastOperation
import Pobl.Proof.Mvcc.Overlay

namespace Pobl.Txmgmt

open Library Library.Wire Peer VersionedValue PubAndHashUpdates

variable {Hash : Type} [DecidableEq Hash] {hashing : Hashing (String × Height) Hash} {db : CommonStorageDB}
  {updates : PubAndHashUpdates} {nsRwSets : List (NsRwSet Hash)} {nsRWSet : NsRwSet Hash} {read : KVRead}

/-- The version of the read is the one of the key. -/
def VersionCurrent (db : CommonStorageDB) (updates : UpdateBatch) (ns : String) (read : KVRead) : Prop :=
  (overlay db updates ns read.key).map version = read.version

/-- The value of the read is the one of the key. Messages do not tell empty bytes from nil. -/
def ValueCurrent (db : CommonStorageDB) (updates : UpdateBatch) (ns : String) (read : KVRead) : Prop :=
  ((overlay db updates ns read.key).bind value).getD [] = read.value.getD []

/-- What was recorded by the shim or by the peer is the same now. -/
def Current (db : CommonStorageDB) (updates : UpdateBatch) (ns : String) (read : KVRead) : Prop :=
  if read.isRead then ValueCurrent db updates ns read else VersionCurrent db updates ns read

section Decidable

variable (updates : UpdateBatch) (ns : String) (read : KVRead)

instance : Decidable (VersionCurrent db updates ns read) := inferInstanceAs (Decidable (_ = _))

instance : Decidable (ValueCurrent db updates ns read) := inferInstanceAs (Decidable (_ = _))

instance : Decidable (Current db updates ns read) :=
  inferInstanceAs (Decidable (if read.isRead = true then _ else VersionCurrent db updates ns read))

end Decidable

theorem valueCurrent_of_validateKVRead {updates : UpdateBatch} {ns : String}
    (valid : validateKVRead db ns read updates = true) : ValueCurrent db updates ns read := by
  rw [validateKVRead] at valid
  rw [ValueCurrent, overlay]
  cases found : updates.get ns read.key with
  | some vv =>
    simp only [found, decide_eq_true_iff] at valid
    rw [← valid]
    simp only [isDelete, Option.isNone_iff_eq_none]
    by_cases deleted : vv.value = none <;> simp [deleted]
  | none =>
    simp only [found] at valid
    cases stored : db.getState ns read.key with
    | none =>
      simp only [stored, decide_eq_true_iff] at valid
      rw [valid]
      rfl
    | some vv => simpa [stored] using valid

theorem validateReadSet_of_validateNs (valid : validateNs hashing db updates nsRWSet = .ok .valid) :
    validateReadSet db nsRWSet.nameSpace nsRWSet.kvRwSet.reads updates.pubUpdates = true := by
  by_contra conflict
  rw [Bool.not_eq_true] at conflict
  simp [validateNs, conflict] at valid

theorem validateNs_of_validateTx (valid : validateTx hashing db updates nsRwSets = .ok .valid) :
    ∀ nsRWSet ∈ nsRwSets, validateNs hashing db updates nsRWSet = .ok .valid := by
  induction nsRwSets with
  | nil => exact fun _ member => nomatch member
  | cons first rest ih =>
    rw [validateTx] at valid
    split at valid
    next passed =>
      intro nsRWSet member
      rcases List.mem_cons.mp member with rfl | member
      · exact passed
      · exact ih valid nsRWSet member
    next failed => exact absurd valid (failed ·)

/-- The reads of the shim are current in a transaction that passes. -/
theorem current_of_validateTx (valid : validateTx hashing db updates nsRwSets = .ok .valid)
    (member : nsRWSet ∈ nsRwSets) (recorded : read ∈ nsRWSet.kvRwSet.reads) (shim : read.isRead = true) :
    ValueCurrent db updates.pubUpdates nsRWSet.nameSpace read := by
  have checked := validateReadSet_of_validateNs (validateNs_of_validateTx valid nsRWSet member)
  rw [validateReadSet, List.all_eq_true] at checked
  have passed := checked read recorded
  rw [shim, Bool.not_true, Bool.false_or] at passed
  exact valueCurrent_of_validateKVRead passed

/-- A valid one of the transactions has an operation on the key. -/
def touched (ck : CompositeKey) (turns : List (Transaction Hash × TxValidationCode)) : Bool :=
  turns.any fun turn => turn.2 = .valid ∧ turn.1.rwSet.operationsOn ck ≠ []

/-- The committed state has the key as it was recorded, and no valid transaction before this one in the block has an
operation on the key. -/
def Untouched (db : CommonStorageDB) (block : Block Hash) (codes : List TxValidationCode) (position : Nat)
    (ns : String) (read : KVRead) : Prop :=
  (db.getState ns read.key).map version = read.version ∧
    touched ⟨ns, "", read.key⟩ ((block.txs.take position).zip (codes.take position)) = false

instance (block : Block Hash) (codes : List TxValidationCode) (position : Nat) (ns : String) (read : KVRead) :
    Decidable (Untouched db block codes position ns read) := inferInstanceAs (Decidable (_ ∧ _))

section Touched

variable {num : UInt64} {tx : Transaction Hash} {next : PubAndHashUpdates} {code : TxValidationCode}

omit [DecidableEq Hash] in
theorem operationsOn_of_prepared_none {ck : CompositeKey} (rwset : TxRwSet Hash)
    (none : ((TxOps.applyTxRwset rwset).lookup ck).bind (prepareKeyOps updates db ck) = none)
    (latest : retrieveLatestState ck updates db ≠ .none) : rwset.operationsOn ck = [] := by
  by_contra present
  rw [TxOps.lookup_applyTxRwset, if_neg present, Option.bind_some, prepareKeyOps] at none
  split at none
  · cases none
  · split at none
    · cases none
    · exact latest (Option.map_eq_none_iff.mp none)

/-- A turn leaves the key as it was, or it is the turn of a valid transaction that sets it. -/
theorem get_of_turn (turn : validateAndPrepareTx hashing db num true updates tx = .ok (code, next)) (ns key : String) :
    next.pubUpdates.get ns key = updates.pubUpdates.get ns key ∧ (code = .valid →
        ((TxOps.applyTxRwset tx.rwSet).lookup ⟨ns, "", key⟩).bind (prepareKeyOps updates db ⟨ns, "", key⟩) = none) ∨
      (code = .valid ∧ tx.rwSet.operationsOn ⟨ns, "", key⟩ ≠ []) ∧
        ∃ vv, next.pubUpdates.get ns key = some vv ∧ vv.version.blockNum = num := by
  rw [validateAndPrepareTx] at turn
  split at turn
  · cases turn
  · rw [applyWriteSet, applyTxOps_eq] at turn
    split at turn
    · cases turn
    · cases turn
      rw [get_putAll]
      cases last : (prepareTxOps tx.rwSet updates db).findRev? fun op => op.1 = ⟨ns, "", key⟩ with
      | none =>
        refine .inl ⟨rfl, fun _ => Option.eq_none_iff_forall_ne_some.mpr fun keyops prepared => ?_⟩
        rw [List.findRev?_eq_find?_reverse, List.find?_eq_none] at last
        have listed := (mem_prepareTxOps_iff tx.rwSet updates db _ keyops).mpr prepared
        exact last _ (List.mem_reverse.mpr listed) (decide_eq_true rfl)
      | some op =>
        rw [List.findRev?_eq_find?_reverse] at last
        have own : op.1 = ⟨ns, "", key⟩ := by simpa using List.find?_some last
        have prepared := (mem_prepareTxOps_iff tx.rwSet updates db op.1 op.2).mp
          (List.mem_reverse.mp (List.mem_of_find?_eq_some last))
        refine .inr ⟨⟨rfl, fun none => ?_⟩, op.2.written ⟨num, tx.indexInBlock⟩, rfl, ?_⟩
        · rw [own, TxOps.lookup_applyTxRwset, if_pos none] at prepared
          cases prepared
        · rw [KeyOps.written]
          split <;> rfl
  next invalid _ =>
    cases turn
    exact .inl ⟨rfl, fun valid => (invalid valid).elim⟩

/-- The transactions leave the key as it was, or a valid one of them has set it. A committed key is left only by
transactions that do not touch it. -/
theorem get_of_run {txs : List (Transaction Hash)} {codes : List TxValidationCode} {final : PubAndHashUpdates}
    (ran : validateAndPrepareFrom hashing db num true txs updates = .ok (codes, final)) (ns key : String) :
    final.pubUpdates.get ns key = updates.pubUpdates.get ns key ∧ (updates.pubUpdates.get ns key = none →
        db.getState ns key ≠ none → touched ⟨ns, "", key⟩ (txs.zip codes) = false) ∨
      touched ⟨ns, "", key⟩ (txs.zip codes) = true ∧
        ∃ vv, final.pubUpdates.get ns key = some vv ∧ vv.version.blockNum = num := by
  induction txs generalizing updates codes with
  | nil =>
    cases ran
    exact .inl ⟨rfl, fun _ _ => rfl⟩
  | cons tx txs ih =>
    obtain ⟨code, next, later, turn, ranLater, rfl⟩ := validateAndPrepareFrom_cons_eq_ok.mp ran
    rw [List.zip_cons_cons, touched, List.any_cons, ← touched, Bool.or_eq_true, Bool.or_eq_false_iff,
      decide_eq_true_iff, decide_eq_false_iff_not]
    rcases get_of_turn turn ns key with ⟨same, unprepared⟩ | ⟨touches, vv, found, height⟩
    · rcases ih ranLater with ⟨left, untouched⟩ | ⟨touches, set⟩
      · refine .inl ⟨left.trans same, fun absent stored => ⟨fun touches => touches.2 ?_, ?_⟩⟩
        · refine operationsOn_of_prepared_none tx.rwSet (unprepared touches.1) ?_
          rw [retrieveLatestState, if_pos rfl, absent]
          exact stored
        · exact untouched (same.trans absent) stored
      · exact .inr ⟨.inr touches, set⟩
    · rcases ih ranLater with ⟨left, _⟩ | ⟨_, set⟩
      · exact .inr ⟨.inl touches, vv, left.trans found, height⟩
      · exact .inr ⟨.inl touches, set⟩

end Touched

/-- All public reads of a valid transaction are current if those of the peer are untouched. A read of the peer that is
current without being untouched is one of a key that was absent and that the block has touched. -/
theorem reads_current_of_untouched {block : Block Hash} {codes : List TxValidationCode} {final : PubAndHashUpdates}
    (ran : validateAndPrepareBatch hashing db block true = .ok (codes, final)) {position : Nat} {tx : Transaction Hash}
    (here : block.txs[position]? = some tx) (valid : codes[position]? = some .valid) :
    ∃ before, validateAndPrepareBatch hashing db ⟨block.num, block.txs.take position⟩ true =
        .ok (codes.take position, before) ∧
      ((∀ nsRWSet ∈ tx.rwSet.nsRwSets, ∀ read ∈ nsRWSet.kvRwSet.reads, read.isRead = false →
          Untouched db block codes position nsRWSet.nameSpace read) →
        ∀ nsRWSet ∈ tx.rwSet.nsRwSets, ∀ read ∈ nsRWSet.kvRwSet.reads,
          Current db before.pubUpdates nsRWSet.nameSpace read) ∧
      ∀ nsRWSet ∈ tx.rwSet.nsRwSets, ∀ read ∈ nsRWSet.kvRwSet.reads, read.isRead = false →
        (∀ height, read.version = some height → height.blockNum ≠ block.num) →
        Current db before.pubUpdates nsRWSet.nameSpace read →
          Untouched db block codes position nsRWSet.nameSpace read ∨ read.version = none ∧
            touched ⟨nsRWSet.nameSpace, "", read.key⟩ ((block.txs.take position).zip (codes.take position)) = true := by
  obtain ⟨before, after, ranBefore, turn⟩ := exists_turn ran here valid
  have passed : validateTx hashing db before tx.rwSet.nsRwSets = .ok .valid := validateEndorserTX_of_valid turn
  have fresh (ns key : String) : newPubAndHashUpdates.pubUpdates.get ns key = none :=
    UpdateBatch.get_newUpdateBatch ns key
  refine ⟨before, ranBefore, ?_, ?_⟩
  · intro untouched nsRWSet member read recorded
    rw [Current]
    split
    next shim => exact current_of_validateTx passed member recorded shim
    next peer =>
      obtain ⟨same, untouched⟩ := untouched nsRWSet member read recorded (Bool.eq_false_iff.mpr peer)
      rcases get_of_run ranBefore nsRWSet.nameSpace read.key with ⟨left, _⟩ | ⟨touches, _⟩
      · rw [VersionCurrent, overlay, left, fresh]
        exact same
      · rw [untouched] at touches
        cases touches
  · intro nsRWSet member read recorded peer earlier current
    rw [Current, peer, if_neg Bool.false_ne_true, VersionCurrent, overlay] at current
    rw [Untouched]
    rcases get_of_run ranBefore nsRWSet.nameSpace read.key with ⟨left, kept⟩ | ⟨touches, vv, set, height⟩
    · rw [left, fresh] at current
      cases stored : db.getState nsRWSet.nameSpace read.key with
      | some vv =>
        rw [stored] at current kept
        exact .inl ⟨current, kept (fresh _ _) (Option.some_ne_none _)⟩
      | none =>
        rw [stored] at current
        rw [Bool.eq_false_iff]
        by_cases touches : touched ⟨nsRWSet.nameSpace, "", read.key⟩
            ((block.txs.take position).zip (codes.take position)) = true
        · exact .inr ⟨current.symm, touches⟩
        · exact .inl ⟨current, touches⟩
    · rw [set] at current
      dsimp only at current
      split at current
      · exact .inr ⟨current.symm, touches⟩
      · exact absurd height (earlier _ current.symm)

section Stale

/-- A state with two keys. -/
def twoKeysDB : CommonStorageDB :=
  CommonStorageDB.newCommonStorageDB.applyPrivacyAwareUpdates
    ⟨(UpdateBatch.newUpdateBatch.update "cc" "j" ⟨some [3], none, ⟨1, 0⟩⟩).update "cc" "k" ⟨some [1], none, ⟨1, 0⟩⟩,
      .newHashedUpdateBatch⟩

def constantHashing : Hashing (String × Height) Unit := ⟨fun _ => (), fun _ => ()⟩

/-- A transaction that writes one of the keys. -/
def writingTx : Transaction Unit :=
  ⟨0, (RWSetBuilder.newRWSetBuilder.addToWriteSet "cc" "k" (some [2])).getTxReadWriteSet⟩

/-- A transaction for which the peer read the other key and the shim the value that was written. -/
def observingTx : Transaction Unit :=
  ⟨1, ((RWSetBuilder.newRWSetBuilder.addToReadSet "cc" "j" (some ⟨1, 0⟩)).addToReadSetResult "cc"
    ⟨"k", none, some [2], true, "t"⟩).getTxReadWriteSet⟩

/-- A transaction for which the peer read the written key before the block. -/
def readingTx : Transaction Unit :=
  ⟨1, (RWSetBuilder.newRWSetBuilder.addToReadSet "cc" "k" (some ⟨1, 0⟩)).getTxReadWriteSet⟩

theorem reads_current_of_untouched_second :
    ∃ before, validateAndPrepareBatch constantHashing twoKeysDB ⟨2, [writingTx]⟩ true = .ok ([.valid], before) ∧
      (observingTx.rwSet.nsRwSets.map fun nsRWSet => nsRWSet.kvRwSet.reads.map KVRead.key) = [["j", "k"]] ∧
      ∀ nsRWSet ∈ observingTx.rwSet.nsRwSets, ∀ read ∈ nsRWSet.kvRwSet.reads,
        Current twoKeysDB before.pubUpdates nsRWSet.nameSpace read := by
  obtain ⟨before, ran, current, _⟩ := @reads_current_of_untouched Unit _ constantHashing twoKeysDB
    ⟨2, [writingTx, observingTx]⟩ [.valid, .valid] _ rfl 1 observingTx rfl rfl
  exact ⟨before, ran, by decide +kernel, current (by decide +kernel)⟩

/-- The read of the peer is not current, and the transaction is valid. -/
theorem stale_peer_read_valid :
    (validateAndPrepareBatch constantHashing twoKeysDB ⟨2, [writingTx, readingTx]⟩ true).map Prod.fst =
        .ok [.valid, .valid] ∧
      (validateAndPrepareBatch constantHashing twoKeysDB ⟨2, [writingTx]⟩ true).map
          (fun result => decide (Current twoKeysDB result.2.pubUpdates "cc" (newKVRead "k" (some ⟨1, 0⟩)))) =
        .ok false := by
  decide +kernel

end Stale

end Pobl.Txmgmt
