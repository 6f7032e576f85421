import Pobl.Construction.StateBasedValidator

namespace Pobl.Txmgmt

open Peer

variable {Hash : Type} [DecidableEq Hash] {hashing : Hashing (String × Height) Hash} {db : CommonStorageDB}
  {num : UInt64} {doMVCCValidation : Bool} {tx : Transaction Hash} {updates final : PubAndHashUpdates}
  {txs : List (Transaction Hash)} {codes : List TxValidationCode}

theorem validateAndPrepareFrom_cons_eq_ok :
    validateAndPrepareFrom hashing db num doMVCCValidation (tx :: txs) updates = .ok (codes, final) ↔
      ∃ code next later, validateAndPrepareTx hashing db num doMVCCValidation updates tx = .ok (code, next) ∧
        validateAndPrepareFrom hashing db num doMVCCValidation txs next = .ok (later, final) ∧
        codes = code :: later := by
  rw [validateAndPrepareFrom]
  cases validateAndPrepareTx hashing db num doMVCCValidation updates tx with
  | error stop => simp
  | ok turn =>
    obtain ⟨code, next⟩ := turn
    dsimp only
    cases ran : validateAndPrepareFrom hashing db num doMVCCValidation txs next with
    | error stop => simp [ran, Except.map]
    | ok rest =>
      obtain ⟨later, last⟩ := rest
      simp only [Except.map, Except.ok.injEq, Prod.mk.injEq]
      constructor
      · rintro ⟨rfl, rfl⟩
        exact ⟨code, next, later, ⟨rfl, rfl⟩, ran, rfl⟩
      · rintro ⟨_, _, _, ⟨rfl, rfl⟩, ran', rfl⟩
        cases ran.symm.trans ran'
        exact ⟨rfl, rfl⟩

/-- The code of a transaction is given on the updates of the transactions before it. -/
theorem exists_turn (ran : validateAndPrepareFrom hashing db num doMVCCValidation txs updates = .ok (codes, final))
    {position : Nat} {code : TxValidationCode} (here : txs[position]? = some tx)
    (coded : codes[position]? = some code) :
    ∃ before after,
      validateAndPrepareFrom hashing db num doMVCCValidation (txs.take position) updates =
          .ok (codes.take position, before) ∧
        validateAndPrepareTx hashing db num doMVCCValidation before tx = .ok (code, after) := by
  induction txs generalizing updates codes position with
  | nil => simp at here
  | cons first txs ih =>
    obtain ⟨firstCode, next, later, turn, ranLater, rfl⟩ := validateAndPrepareFrom_cons_eq_ok.mp ran
    cases position with
    | zero =>
      cases here
      cases coded
      exact ⟨updates, next, rfl, turn⟩
    | succ position =>
      obtain ⟨before, after, ranBefore, turn'⟩ := ih ranLater here coded
      refine ⟨before, after, ?_, turn'⟩
      rw [List.take_succ_cons, validateAndPrepareFrom_cons_eq_ok]
      exact ⟨firstCode, next, later.take position, turn, ranBefore, rfl⟩

theorem validateEndorserTX_of_valid {updates' : PubAndHashUpdates}
    (turn : validateAndPrepareTx hashing db num doMVCCValidation updates tx = .ok (.valid, updates')) :
    validateEndorserTX hashing db tx.rwSet doMVCCValidation updates = .ok .valid := by
  rw [validateAndPrepareTx] at turn
  cases checked : validateEndorserTX hashing db tx.rwSet doMVCCValidation updates with
  | error stop => simp [checked] at turn
  | ok code =>
    cases code with
    | valid => rfl
    | _ => simp [checked] at turn

end Pobl.Txmgmt
