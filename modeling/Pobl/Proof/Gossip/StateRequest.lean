import Pobl.Construction.GossipState
import Pobl.Library.Consecutive

namespace Pobl.Gossip

open Library

def StateResponse.payloads : StateResponse → List Payload
  | .ignored => []
  | .response payloads => payloads

/-- The request is answered after at most one round more than the batch size, with blocks of the requested interval
up to the height. -/
def Bounded (config : StateConfig) (ledger : BlockSource) (height : UInt64) (request : RemoteStateRequest) : Prop :=
  ∃ result, handleStateRequest config ledger (config.antiEntropyBatchSize.toNat + 1) request = some result ∧
    ∀ payload ∈ result.payloads, request.startSeqNum ≤ payload.seqNum ∧
      payload.seqNum.toNat ≤ Nat.min request.endSeqNum.toNat height.toNat

/-- The request is refused, or its end is not so far above the height that the difference loses its sign,
or the loop still ends and passes over every block. -/
def Answerable (config : StateConfig) (ledger : BlockSource) (height : UInt64) (request : RemoteStateRequest) : Prop :=
  validateRequest request config.antiEntropyBatchSize ≠ .ok () ∨ request.endSeqNum.toNat ≤ height.toNat + 2 ^ 63 ∨
    request.endSeqNum.toNat ≠ 2 ^ 64 - 1 ∧
      ∀ seqNum, request.startSeqNum ≤ seqNum → seqNum ≤ request.endSeqNum → readPayload ledger seqNum = none

/-- The sign bit selects one of the two numbers. -/
theorem min_eq (a b : UInt64) : min a b = if (a - b).toNat < 2 ^ 63 then b else a := by
  have sign : ((a - b) >>> 63).toNat = (a - b).toNat / 2 ^ 63 := by
    rw [UInt64.toNat_shiftRight, Nat.shiftRight_eq_div_pow]
    rfl
  have bound := (a - b).toNat_lt
  rw [min]
  split
  next low =>
    have zero : (a - b) >>> 63 = 0 := UInt64.toNat_inj.mp (by rw [sign, UInt64.toNat_zero]; omega)
    simp [zero]
  next high =>
    have one : (a - b) >>> 63 = 1 := UInt64.toNat_inj.mp (by rw [sign, UInt64.toNat_one]; omega)
    rw [one, UInt64.and_neg_one, UInt64.xor_comm a b, ← UInt64.xor_assoc, UInt64.xor_self, UInt64.zero_xor]

/-- The minimum is right unless the second number is too far above the first. -/
theorem toNat_min {a b : UInt64} (low : a.toNat < 2 ^ 63) :
    (min a b).toNat = if b.toNat ≤ a.toNat + 2 ^ 63 then Nat.min b.toNat a.toNat else b.toNat := by
  have difference : (a - b).toNat = (2 ^ 64 - b.toNat + a.toNat) % 2 ^ 64 := UInt64.toNat_sub a b
  have least : Nat.min b.toNat a.toNat = if b.toNat ≤ a.toNat then b.toNat else a.toNat := rfl
  rw [min_eq, least]
  repeat' split
  all_goals omega

/-- A sum that wraps around lies below the start, so the check refuses the request. -/
theorem interval_of_validateRequest {request : RemoteStateRequest} {batchSize : UInt64}
    (valid : validateRequest request batchSize = .ok ()) :
    request.startSeqNum.toNat ≤ request.endSeqNum.toNat ∧
      request.endSeqNum.toNat ≤ request.startSeqNum.toNat + batchSize.toNat := by
  rw [validateRequest] at valid
  split at valid
  · exact nomatch valid
  next ordered =>
    split at valid
    · exact nomatch valid
    next short =>
      rw [gt_iff_lt, UInt64.lt_iff_toNat_lt] at ordered short
      rw [UInt64.toNat_add] at short
      omega

theorem seqNum_of_readPayload {ledger : BlockSource} {seqNum : UInt64} {payload : Payload}
    (read : readPayload ledger seqNum = some payload) : payload.seqNum = seqNum := by
  rw [readPayload] at read
  split at read
  · exact nomatch read
  · simp only [Option.bind_eq_bind, Option.bind_eq_some_iff, pure, Option.some.injEq] at read
    obtain ⟨_, _, _, _, _, _, rfl⟩ := read
    rfl

/-- The loop reads the blocks of its interval, unless the interval ends with the largest number. -/
theorem readPayloads_eq (ledger : BlockSource) {endSeqNum : UInt64} (inner : endSeqNum.toNat ≠ 2 ^ 64 - 1) (fuel : Nat)
    (seqNum : UInt64) (enough : endSeqNum.toNat + 1 ≤ seqNum.toNat + fuel) :
    readPayloads ledger endSeqNum fuel seqNum =
      some ((consecutive seqNum (endSeqNum.toNat + 1 - seqNum.toNat)).filterMap (readPayload ledger)) := by
  have bound := endSeqNum.toNat_lt
  induction fuel generalizing seqNum with
  | zero =>
    have after : ¬ seqNum ≤ endSeqNum := by
      rw [UInt64.le_iff_toNat_le]
      omega
    have empty : endSeqNum.toNat + 1 - seqNum.toNat = 0 := by omega
    rw [readPayloads, if_neg after, empty]
    rfl
  | succ fuel ih =>
    by_cases within : seqNum ≤ endSeqNum
    · have below := UInt64.le_iff_toNat_le.mp within
      have next : (seqNum + 1).toNat = seqNum.toNat + 1 := by
        rw [UInt64.toNat_add, UInt64.toNat_one]
        omega
      have count : endSeqNum.toNat + 1 - seqNum.toNat = (endSeqNum.toNat + 1 - (seqNum + 1).toNat) + 1 := by omega
      rw [readPayloads, if_pos within, ih (seqNum + 1) (by omega), count, consecutive_cons, List.filterMap_cons]
      cases readPayload ledger seqNum <;> rfl
    · have after := mt UInt64.le_iff_toNat_le.mpr within
      have empty : endSeqNum.toNat + 1 - seqNum.toNat = 0 := by omega
      rw [readPayloads, if_neg within, empty]
      rfl

/-- No number is above the largest one, so the loop does not end. -/
theorem readPayloads_diverges (ledger : BlockSource) {endSeqNum : UInt64} (last : endSeqNum.toNat = 2 ^ 64 - 1)
    (fuel : Nat) (seqNum : UInt64) : readPayloads ledger endSeqNum fuel seqNum = none := by
  have within (seqNum : UInt64) : seqNum ≤ endSeqNum := by
    rw [UInt64.le_iff_toNat_le, last]
    have bound := seqNum.toNat_lt
    omega
  induction fuel generalizing seqNum with
  | zero => rw [readPayloads, if_pos (within seqNum)]
  | succ fuel ih => rw [readPayloads, if_pos (within seqNum), ih, Option.map_none]

section Requests

variable {config : StateConfig} {ledger : BlockSource} {height : UInt64} {request : RemoteStateRequest}

theorem handleStateRequest_of_valid (read : ledger.ledgerHeight = .ok height)
    (valid : validateRequest request config.antiEntropyBatchSize = .ok ()) (fuel : Nat) :
    handleStateRequest config ledger fuel request =
      (readPayloads ledger (min height request.endSeqNum) fuel request.startSeqNum).map .response := by
  rw [handleStateRequest, valid, read]

theorem bounded_of_refused (refused : validateRequest request config.antiEntropyBatchSize ≠ .ok ()) :
    Bounded config ledger height request := by
  refine ⟨.ignored, ?_, nofun⟩
  rw [handleStateRequest]
  split
  · rfl
  next accepted => exact absurd accepted refused

/-- With a loop that ends, the request is bounded if every block above the height is passed over. -/
theorem bounded_iff_of_inner (read : ledger.ledgerHeight = .ok height)
    (valid : validateRequest request config.antiEntropyBatchSize = .ok ())
    (inner : (min height request.endSeqNum).toNat ≠ 2 ^ 64 - 1)
    (below : (min height request.endSeqNum).toNat ≤ request.endSeqNum.toNat) :
    Bounded config ledger height request ↔
      ∀ seqNum, request.startSeqNum.toNat ≤ seqNum.toNat → seqNum.toNat ≤ (min height request.endSeqNum).toNat →
        height.toNat < seqNum.toNat → readPayload ledger seqNum = none := by
  obtain ⟨ordered, short⟩ := interval_of_validateRequest valid
  have bound := (min height request.endSeqNum).toNat_lt
  have start := request.startSeqNum.toNat_lt
  have loop := readPayloads_eq ledger inner (config.antiEntropyBatchSize.toNat + 1) request.startSeqNum (by omega)
  have member (seqNum : UInt64) : seqNum ∈ consecutive request.startSeqNum
          ((min height request.endSeqNum).toNat + 1 - request.startSeqNum.toNat) ↔
        request.startSeqNum.toNat ≤ seqNum.toNat ∧ seqNum.toNat ≤ (min height request.endSeqNum).toNat := by
    rw [mem_consecutive (by omega)]
    omega
  have answer := (handleStateRequest_of_valid read valid _).trans (congrArg (Option.map StateResponse.response) loop)
  constructor
  · rintro ⟨result, answered, inside⟩ seqNum above within high
    rw [answer, Option.map_some, Option.some.injEq] at answered
    cases found : readPayload ledger seqNum with
    | none => rfl
    | some payload =>
      have listed : payload ∈ result.payloads := by
        rw [← answered]
        exact List.mem_filterMap.mpr ⟨seqNum, (member seqNum).mpr ⟨above, within⟩, found⟩
      have low := Nat.le_trans (inside payload listed).2 (Nat.min_le_right _ _)
      rw [seqNum_of_readPayload found] at low
      omega
  · intro skipped
    refine ⟨_, answer, fun payload listed => ?_⟩
    obtain ⟨seqNum, inside, found⟩ := List.mem_filterMap.mp listed
    obtain ⟨above, within⟩ := (member seqNum).mp inside
    rw [seqNum_of_readPayload found, UInt64.le_iff_toNat_le]
    refine ⟨above, Nat.le_min.mpr ⟨Nat.le_trans within below, Nat.le_of_not_lt fun high => ?_⟩⟩
    exact nomatch (skipped seqNum above within high).symm.trans found

/-- A request is bounded exactly if it is answerable. -/
theorem bounded_iff_answerable (config : StateConfig) (ledger : BlockSource) (height : UInt64)
    (request : RemoteStateRequest) (batch : config.antiEntropyBatchSize.toNat < 2 ^ 32) (low : height.toNat < 2 ^ 63)
    (read : ledger.ledgerHeight = .ok height) :
    Bounded config ledger height request ↔ Answerable config ledger height request := by
  by_cases valid : validateRequest request config.antiEntropyBatchSize = .ok ()
  · obtain ⟨ordered, short⟩ := interval_of_validateRequest valid
    have least := toNat_min (b := request.endSeqNum) low
    by_cases near : request.endSeqNum.toNat ≤ height.toNat + 2 ^ 63
    · -- The minimum is the true one, so no block above the height is read.
      rw [if_pos near] at least
      have atMost : (min height request.endSeqNum).toNat ≤ height.toNat := least.trans_le (Nat.min_le_right _ _)
      have within : (min height request.endSeqNum).toNat ≤ request.endSeqNum.toNat :=
        least.trans_le (Nat.min_le_left _ _)
      refine iff_of_true ((bounded_iff_of_inner read valid (by omega) (by omega)).mpr ?_) (.inr (.inl near))
      intro seqNum _ inside high
      omega
    · rw [if_neg near] at least
      by_cases last : request.endSeqNum.toNat = 2 ^ 64 - 1
      · refine iff_of_false ?_ ?_
        · rintro ⟨result, answered, _⟩
          rw [handleStateRequest_of_valid read valid, readPayloads_diverges ledger (least.trans last)] at answered
          exact nomatch answered
        · rintro (refused | close | ⟨inner, _⟩)
          · exact refused valid
          · exact near close
          · exact inner last
      · -- The batch is small, so the whole interval lies above the height.
        rw [bounded_iff_of_inner read valid (by omega) (by omega)]
        constructor
        · intro skipped
          refine .inr (.inr ⟨last, fun seqNum above within => ?_⟩)
          rw [UInt64.le_iff_toNat_le] at above within
          exact skipped seqNum above (by omega) (by omega)
        · rintro (refused | close | ⟨_, skipped⟩) seqNum above within _
          · exact absurd valid refused
          · exact absurd close near
          · exact skipped seqNum (UInt64.le_iff_toNat_le.mpr above) (UInt64.le_iff_toNat_le.mpr (by omega))
  · exact iff_of_true (bounded_of_refused valid) (.inl valid)

/-- A ledger of one block, which also answers the largest number with its last block. -/
def oneBlock : BlockSource where
  ledgerHeight := .ok 1
  getPvtDataAndBlockByNum := fun seqNum =>
    if seqNum = 0 ∨ seqNum = 18446744073709551615 then .ok (some ⟨some ⟨0, [], []⟩, some [], none⟩, [])
    else .error "Entry not found in index"

theorem bounded_iff_answerable_one : Bounded ⟨10, 100⟩ oneBlock 1 ⟨0, 5⟩ ∧
      handleStateRequest ⟨10, 100⟩ oneBlock 11 ⟨0, 5⟩ = some (.response [⟨0, [10, 0, 18, 0], []⟩]) :=
  ⟨(bounded_iff_answerable ⟨10, 100⟩ oneBlock 1 ⟨0, 5⟩ (by decide) (by decide) rfl).mpr (.inr (.inl (by decide))), rfl⟩

/-- A request for the last eleven numbers is accepted and never answered. -/
theorem handleStateRequest_diverges : validateRequest ⟨18446744073709551605, 18446744073709551615⟩ 10 = .ok () ∧
      ∀ fuel, handleStateRequest ⟨10, 100⟩ oneBlock fuel ⟨18446744073709551605, 18446744073709551615⟩ = none := by
  refine ⟨rfl, fun fuel => ?_⟩
  have read : oneBlock.ledgerHeight = .ok 1 := rfl
  rw [handleStateRequest_of_valid read rfl, readPayloads_diverges oneBlock (by decide), Option.map_none]

end Requests

end Pobl.Gossip
