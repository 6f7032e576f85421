import Pobl.Proof.Mvcc.Turns

namespace Pobl.Txmgmt

open Library Library.Wire Peer KeyOps PubAndHashUpdates RWSetBuilder

variable {Hash : Type}

/-- The key would be written with a nil value. -/
def KeyOps.hasNilValue (keyops : KeyOps) : Bool := !keyops.isDelete && keyops.value.isNone

/-- What an operation leaves in the updates. -/
def KeyOps.written (txHeight : Height) (keyops : KeyOps) : VersionedValue :=
  if keyops.isDelete then ⟨none, none, txHeight⟩ else ⟨keyops.value, keyops.metadata, txHeight⟩

def HashedUpdateBatch.update (ns coll keyHash : String) (vv : VersionedValue) (batch : HashedUpdateBatch) :
    HashedUpdateBatch :=
  ⟨batch.updateMap.insert ns ((batch.getOrCreateNsBatch ns).update coll keyHash vv)⟩

namespace PubAndHashUpdates

def put (ck : CompositeKey) (vv : VersionedValue) (updates : PubAndHashUpdates) : PubAndHashUpdates :=
  if ck.coll = "" then { updates with pubUpdates := updates.pubUpdates.update ck.ns ck.key vv }
  else { updates with hashUpdates := updates.hashUpdates.update ck.ns ck.coll ck.key vv }

theorem applyKeyOps_eq (txHeight : Height) (ck : CompositeKey) (keyops : KeyOps) (updates : PubAndHashUpdates) :
    updates.applyKeyOps txHeight ck keyops =
      if keyops.hasNilValue then .error .nilValue else .ok (updates.put ck (keyops.written txHeight)) := by
  rw [applyKeyOps, put, hasNilValue, written]
  by_cases deleted : keyops.isDelete = true
  · simp only [deleted, if_true, Bool.not_true, Bool.false_and]
    split <;> rfl
  · cases value : keyops.value with
    | none =>
      simp only [deleted, UpdateBatch.putValAndMetadata, HashedUpdateBatch.putValHashAndMetadata]
      split <;> rfl
    | some bytes =>
      simp only [deleted, UpdateBatch.putValAndMetadata, HashedUpdateBatch.putValHashAndMetadata]
      split <;> rfl

def putAll (txHeight : Height) (txops : List (CompositeKey × KeyOps)) (updates : PubAndHashUpdates) :
    PubAndHashUpdates :=
  txops.foldl (fun updates op => updates.put op.1 (op.2.written txHeight)) updates

/-- The last operation on a public key decides it. -/
theorem get_putAll (txHeight : Height) (txops : List (CompositeKey × KeyOps)) (updates : PubAndHashUpdates)
    (ns key : String) : (updates.putAll txHeight txops).pubUpdates.get ns key =
      ((txops.findRev? fun op => op.1 = ⟨ns, "", key⟩).map fun op => op.2.written txHeight).or
        (updates.pubUpdates.get ns key) := by
  induction txops generalizing updates with
  | nil => rfl
  | cons op txops ih =>
    have put : (updates.put op.1 (op.2.written txHeight)).pubUpdates.get ns key =
        if op.1 = ⟨ns, "", key⟩ then some (op.2.written txHeight) else updates.pubUpdates.get ns key := by
      rw [put]
      split
      next coll =>
        rw [UpdateBatch.get_update]
        refine if_congr ⟨fun own => ?_, fun own => ?_⟩ rfl rfl
        · rw [own.1, own.2, ← coll]
        · rw [own]
          exact ⟨rfl, rfl⟩
      next coll => exact (if_neg fun own => coll (by rw [own])).symm
    have later : updates.putAll txHeight (op :: txops) =
        (updates.put op.1 (op.2.written txHeight)).putAll txHeight txops := rfl
    rw [later, ih, put, List.findRev?]
    cases txops.findRev? fun op => op.1 = ⟨ns, "", key⟩ with
    | some last => rfl
    | none => by_cases own : op.1 = ⟨ns, "", key⟩ <;> simp [own]

/-- The operations are all applied, or one of them would write a nil value. -/
theorem applyTxOps_eq (txHeight : Height) (txops : List (CompositeKey × KeyOps)) (updates : PubAndHashUpdates) :
    updates.applyTxOps txHeight txops = if txops.any fun op => op.2.hasNilValue then .error .nilValue
      else .ok (updates.putAll txHeight txops) := by
  induction txops generalizing updates with
  | nil => rfl
  | cons op txops ih =>
    obtain ⟨ck, keyops⟩ := op
    rw [applyTxOps, applyKeyOps_eq, List.any_cons, putAll, List.foldl_cons]
    cases keyops.hasNilValue with
    | true => rfl
    | false => exact ih _

/-- The last operation on the key in the block so far is a delete. -/
def deletes (ck : CompositeKey) (updates : PubAndHashUpdates) : Bool :=
  (if ck.coll = "" then updates.pubUpdates.get ck.ns ck.key
    else updates.hashUpdates.get ck.ns ck.coll ck.key).any VersionedValue.isDelete

end PubAndHashUpdates

/-- A key that is not deleted is written with a value, or gets metadata while the block did not delete it. -/
def KeyOps.writable (updates : PubAndHashUpdates) (ck : CompositeKey) (keyops : KeyOps) : Bool :=
  if keyops.isDelete then true
  else if keyops.isUpsertAndMetadataUpdate || keyops.isOnlyUpsert then keyops.value.isSome
  else !updates.deletes ck

/-- Every key of the write set can be written. -/
def Writable (updates : PubAndHashUpdates) (rwset : TxRwSet Hash) : Prop :=
  ∀ entry ∈ (TxOps.applyTxRwset rwset).entries, entry.2.writable updates entry.1 = true

theorem any_isDelete_retrieveLatestState (ck : CompositeKey) (updates : PubAndHashUpdates) (db : CommonStorageDB) :
    (retrieveLatestState ck updates db).any VersionedValue.isDelete = updates.deletes ck := by
  have kept (stored : Option StoredValue) : (stored.map decodeValue).any VersionedValue.isDelete = false := by
    cases stored <;> rfl
  rw [retrieveLatestState, deletes]
  split
  · cases updates.pubUpdates.get ck.ns ck.key with
    | none => exact kept _
    | some vv => rfl
  · cases updates.hashUpdates.get ck.ns ck.coll ck.key with
    | none => exact kept _
    | some vv => rfl

theorem any_hasNilValue_prepareKeyOps (updates : PubAndHashUpdates) (db : CommonStorageDB) (ck : CompositeKey)
    (keyops : KeyOps) :
    (prepareKeyOps updates db ck keyops).any hasNilValue = !keyops.writable updates ck := by
  rw [prepareKeyOps, writable]
  cases deleted : keyops.isDelete with
  | true => simp [hasNilValue, deleted]
  | false =>
    cases both : keyops.isUpsertAndMetadataUpdate with
    | true => simp [hasNilValue, deleted]
    | false =>
      cases only : keyops.isOnlyUpsert with
      | true =>
        have same (metadata : Option Bytes) : ({ keyops with metadata := metadata } : KeyOps).isDelete = false :=
          deleted
        simp [hasNilValue, same]
      | false =>
        have same (value : Option Bytes) : ({ keyops with value := value } : KeyOps).isDelete = false := deleted
        rw [← any_isDelete_retrieveLatestState ck updates db]
        cases retrieveLatestState ck updates db with
        | none => rfl
        | some latestVal => simp [hasNilValue, same, VersionedValue.isDelete]

/-- The write set of a transaction is applied if and only if every key can be written. -/
theorem applyWriteSet_eq_nilValue_iff (rwset : TxRwSet Hash) (txHeight : Height) (db : CommonStorageDB)
    (updates : PubAndHashUpdates) :
    updates.applyWriteSet rwset txHeight db = .error .nilValue ↔ ¬ Writable updates rwset := by
  have same : ((prepareTxOps rwset updates db).any fun op => op.2.hasNilValue) = true ↔ ¬ Writable updates rwset := by
    simp only [prepareTxOps, Writable, List.any_eq_true, List.mem_filterMap, Option.map_eq_some_iff, not_forall,
      Bool.not_eq_true]
    constructor
    · rintro ⟨_, ⟨entry, member, keyops, prepared, rfl⟩, nilValue⟩
      have any := any_hasNilValue_prepareKeyOps updates db entry.1 entry.2
      rw [prepared, Option.any_some, nilValue] at any
      exact ⟨entry, member, by simpa using any.symm⟩
    · rintro ⟨entry, member, unwritable⟩
      have any := any_hasNilValue_prepareKeyOps updates db entry.1 entry.2
      rw [unwritable, Bool.not_false, Option.any_eq_true_iff_get] at any
      obtain ⟨some, nilValue⟩ := any
      exact ⟨_, ⟨entry, member, _, Option.some_get some |>.symm, rfl⟩, nilValue⟩
  rw [applyWriteSet, applyTxOps_eq, ← same]
  split
  next any => exact iff_of_true rfl any
  next none => exact iff_of_false nofun none

section Blocks

variable [DecidableEq Hash] {hashing : Hashing (String × Height) Hash} {db : CommonStorageDB} {num : UInt64}
  {doMVCCValidation : Bool}

/-- The validation itself never writes a value. -/
theorem validateTx_ne_nilValue (updates : PubAndHashUpdates) (nsRwSets : List (NsRwSet Hash)) :
    validateTx hashing db updates nsRwSets ≠ .error .nilValue := by
  induction nsRwSets with
  | nil => exact nofun
  | cons nsRWSet nsRwSets ih =>
    have checked : validateNs hashing db updates nsRWSet ≠ .error .nilValue := by
      rw [validateNs]
      split
      · exact nofun
      · split
        · exact nofun
        · exact nofun
        · split <;> exact nofun
    rw [validateTx]
    split
    · exact ih
    · exact checked

theorem validateAndPrepareTx_eq_nilValue_iff (updates : PubAndHashUpdates) (tx : Transaction Hash) :
    validateAndPrepareTx hashing db num doMVCCValidation updates tx = .error .nilValue ↔
      validateEndorserTX hashing db tx.rwSet doMVCCValidation updates = .ok .valid ∧ ¬ Writable updates tx.rwSet := by
  have checked : validateEndorserTX hashing db tx.rwSet doMVCCValidation updates ≠ .error .nilValue := by
    rw [validateEndorserTX]
    split
    · exact validateTx_ne_nilValue updates _
    · exact fun same => (by cases same)
  rw [validateAndPrepareTx]
  cases outcome : validateEndorserTX hashing db tx.rwSet doMVCCValidation updates with
  | error stop =>
    refine iff_of_false (fun panicked => checked ?_) fun valid => (by cases valid.1)
    rw [outcome, Except.error.inj panicked]
  | ok code =>
    by_cases valid : code = .valid
    · subst code
      rw [← applyWriteSet_eq_nilValue_iff tx.rwSet ⟨num, tx.indexInBlock⟩ db updates]
      cases updates.applyWriteSet tx.rwSet ⟨num, tx.indexInBlock⟩ db <;> simp [Except.map]
    · refine iff_of_false ?_ fun passed => valid (Except.ok.inj passed.1)
      split
      next failed => cases failed
      next same => exact absurd (Except.ok.inj same) valid
      next => exact fun same => (by cases same)

/-- A block reaches the panic at the first valid transaction that has a key which cannot be written. -/
theorem validateAndPrepareFrom_eq_nilValue_iff (txs : List (Transaction Hash)) (updates : PubAndHashUpdates) :
    validateAndPrepareFrom hashing db num doMVCCValidation txs updates = .error .nilValue ↔
      ∃ (position : Nat) (tx : Transaction Hash) (codes : List TxValidationCode) (before : PubAndHashUpdates),
        txs[position]? = some tx ∧
        validateAndPrepareFrom hashing db num doMVCCValidation (txs.take position) updates = .ok (codes, before) ∧
        validateEndorserTX hashing db tx.rwSet doMVCCValidation before = .ok .valid ∧ ¬ Writable before tx.rwSet := by
  induction txs generalizing updates with
  | nil => exact iff_of_false nofun fun ⟨_, _, _, _, here, _⟩ => nomatch here
  | cons first txs ih =>
    constructor
    · intro panicked
      rw [validateAndPrepareFrom] at panicked
      split at panicked
      next stop turn =>
        cases panicked
        obtain ⟨valid, unwritable⟩ := (validateAndPrepareTx_eq_nilValue_iff updates first).mp turn
        exact ⟨0, first, [], updates, rfl, rfl, valid, unwritable⟩
      next code next turn =>
        have later : validateAndPrepareFrom hashing db num doMVCCValidation txs next = .error .nilValue := by
          cases ran : validateAndPrepareFrom hashing db num doMVCCValidation txs next <;>
            simp_all [Except.map]
        obtain ⟨position, tx, codes, before, here, ran, valid, unwritable⟩ := (ih next).mp later
        refine ⟨position + 1, tx, code :: codes, before, here, ?_, valid, unwritable⟩
        exact validateAndPrepareFrom_cons_eq_ok.mpr ⟨code, next, codes, turn, ran, rfl⟩
    · rintro ⟨position, tx, codes, before, here, ran, valid, unwritable⟩
      rw [validateAndPrepareFrom]
      cases position with
      | zero =>
        cases here
        cases ran
        rw [(validateAndPrepareTx_eq_nilValue_iff updates first).mpr ⟨valid, unwritable⟩]
      | succ position =>
        obtain ⟨code, next, later, turn, ranLater, rfl⟩ := validateAndPrepareFrom_cons_eq_ok.mp ran
        have panicked := (ih next).mpr ⟨position, tx, later, before, here, ranLater, valid, unwritable⟩
        simp only [turn, panicked]
        rfl

/-- A block never reaches the panic if and only if every key of its valid transactions can be written. -/
theorem validateAndPrepareBatch_ne_nilValue_iff (hashing : Hashing (String × Height) Hash) (db : CommonStorageDB)
    (block : Block Hash) (doMVCCValidation : Bool) :
    validateAndPrepareBatch hashing db block doMVCCValidation ≠ .error .nilValue ↔
      ∀ (position : Nat) (tx : Transaction Hash) (codes : List TxValidationCode) (before : PubAndHashUpdates),
        block.txs[position]? = some tx →
        validateAndPrepareBatch hashing db ⟨block.num, block.txs.take position⟩ doMVCCValidation =
          .ok (codes, before) →
        validateEndorserTX hashing db tx.rwSet doMVCCValidation before = .ok .valid → Writable before tx.rwSet := by
  rw [validateAndPrepareBatch, Ne, validateAndPrepareFrom_eq_nilValue_iff]
  constructor
  · intro never position tx codes before here ran valid
    by_contra unwritable
    exact never ⟨position, tx, codes, before, here, ran, valid, unwritable⟩
  · rintro always ⟨position, tx, codes, before, here, ran, valid, unwritable⟩
    exact unwritable (always position tx codes before here ran valid)

end Blocks

section Counterexamples

/-- A write of the shim with an empty value, as the committer reads it. -/
def emptyValueTx : Transaction Unit :=
  ⟨0, (newRWSetBuilder.addToWriteSetResult "cc" ⟨"k", false, some [], ""⟩).getTxReadWriteSet.decoded⟩

def deletingTx : Transaction Unit :=
  ⟨0, (newRWSetBuilder.addToWriteSet "cc" "k" none).getTxReadWriteSet.decoded⟩

/-- A transaction that sets only the metadata of the key. -/
def metadataTx : Transaction Unit :=
  ⟨1, (newRWSetBuilder.addToMetadataWriteSet "cc" "k" [⟨[], [1]⟩]).getTxReadWriteSet.decoded⟩

theorem nilValue_reached :
    validateAndPrepareBatch ⟨fun _ => (), fun _ => ()⟩ .newCommonStorageDB ⟨1, [emptyValueTx]⟩ true =
        .error .nilValue ∧
      validateAndPrepareBatch ⟨fun _ => (), fun _ => ()⟩ .newCommonStorageDB ⟨1, [deletingTx, metadataTx]⟩ true =
        .error .nilValue :=
  ⟨rfl, rfl⟩

end Counterexamples

end Pobl.Txmgmt
