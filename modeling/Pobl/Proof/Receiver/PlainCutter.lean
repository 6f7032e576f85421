import Pobl.Library.Run
import Pobl.Construction.BlockCutter

namespace Pobl.BlockCutter

open Library Protos Partialorder PlainSession PlainCall List

variable {session next : PlainSession} {call : PlainCall} {r : Receiver} {batchSize : BatchSize} {msg : Envelope}

/-- The returned batches and the pending batch are the messages in their order. -/
def PlainSession.Lossless (session : PlainSession) : Prop :=
  session.batches.flatten ++ session.receiver.pendingBatch = session.messages

/-- Only `Cut` on an empty receiver returns an empty batch, and the flag says whether messages are
pending. -/
structure Returned.Lawful (result : Returned) : Prop where
  nonempty : ∀ batch ∈ result.batches, batch = [] → result.call = .cut ∧ result.before.pendingBatch = []
  pending : ∀ flag, result.pending = some flag → (flag = true ↔ result.after.pendingBatch ≠ [])

/-- The receiver is only used by the plain cutter. -/
structure Plain (r : Receiver) : Prop where
  noGraph : r.tcg.readyBatch = []
  noBytes : r.pendingBatch = [] → r.pendingBatchSizeBytes = 0

/-- The call cuts no batch while messages are pending, and it does not fill a batch. -/
def PlainCall.Spares (r : Receiver) : PlainCall → Prop
  | .ordered batchSize msg =>
    if messageSizeBytes msg > batchSize.preferredMaxBytes then r.pendingBatch = []
    else r.pendingBatchSizeBytes + messageSizeBytes msg ≤ batchSize.preferredMaxBytes ∧
      UInt32.ofNat (r.pendingBatch.length + 1) < batchSize.maxMessageCount
  | .cut => r.pendingBatch = []

instance (r : Receiver) (call : PlainCall) : Decidable (call.Spares r) := by
  cases call <;> dsimp only [PlainCall.Spares] <;> infer_instance

/-- A call keeps its messages and obeys the contract of its results. -/
def PlainCall.Keeps (r : Receiver) (call : PlainCall) : Prop :=
  (call.perform r).batches.flatten ++ (call.perform r).after.pendingBatch =
      r.pendingBatch ++ call.message.toList ∧ (call.perform r).Lawful

theorem cut_plain (plain : Plain r) : (cut r).1 = [] ∧ (cut r).2.pendingBatch = [] ∧ Plain (cut r).2 :=
  ⟨plain.noGraph, rfl, rfl, fun _ => rfl⟩

theorem cutIf_plain (plain : Plain r) (condition : Bool) : Plain (cutIf condition r).2 := by
  unfold cutIf
  split
  · exact (cut_plain plain).2.2
  · exact plain

theorem enqueue_plain (plain : Plain r) (msg : Envelope) : Plain (enqueue msg r) := by
  refine ⟨plain.noGraph, fun empty => ?_⟩
  simp [enqueue] at empty

theorem perform_plain (plain : Plain r) (call : PlainCall) : Plain (call.perform r).after := by
  cases call with
  | cut => exact (cut_plain plain).2.2
  | ordered batchSize msg =>
    change Plain (ordered batchSize msg r).2.2
    unfold ordered
    split
    · exact cutIf_plain plain _
    · exact cutIf_plain (enqueue_plain (cutIf_plain plain _) msg) _

/-- An isolated message is kept exactly when nothing is pending. -/
theorem keeps_isolated (plain : Plain r) (large : messageSizeBytes msg > batchSize.preferredMaxBytes) :
    (PlainCall.ordered batchSize msg).Keeps r ↔ r.pendingBatch = [] := by
  by_cases empty : r.pendingBatch = []
  · refine ⟨fun _ => empty, fun _ => ?_⟩
    have result : ordered batchSize msg r = ([[msg]], false, r) := by
      simp [ordered, large, cutIf, empty]
    refine ⟨?_, ?_, ?_⟩ <;> simp [PlainCall.perform, result, empty, message]
  · refine ⟨fun keeps => ?_, fun same => absurd same empty⟩
    have result : ordered batchSize msg r = ([(cut r).1, [msg]], false, (cut r).2) := by
      simp [ordered, large, cutIf, length_pos_iff, empty]
    have kept := keeps.1
    simpa [PlainCall.perform, result, cut_plain plain, message] using kept

section

variable (small : ¬ messageSizeBytes msg > batchSize.preferredMaxBytes)

include small

/-- A message of moderate size is added to the pending batch between two possible cuts. -/
theorem ordered_small {overflow full : Bool}
    (overflows : overflow = decide (r.pendingBatchSizeBytes + messageSizeBytes msg > batchSize.preferredMaxBytes))
    (fills : full = decide (UInt32.ofNat (enqueue msg (cutIf overflow r).2).pendingBatch.length ≥
      batchSize.maxMessageCount)) :
    ordered batchSize msg r = ((cutIf overflow r).1 ++ (cutIf full (enqueue msg (cutIf overflow r).2)).1, !full,
        (cutIf full (enqueue msg (cutIf overflow r).2)).2) := by
  subst overflows fills
  unfold ordered
  rw [if_neg small]

/-- An overflow cuts a pending batch, and the cut loses it. -/
theorem overflow_loses (plain : Plain r)
    (overflow : r.pendingBatchSizeBytes + messageSizeBytes msg > batchSize.preferredMaxBytes) :
    ¬ (PlainCall.ordered batchSize msg).Keeps r := by
  have waiting : r.pendingBatch ≠ [] := by
    intro empty
    rw [plain.noBytes empty, UInt32.zero_add] at overflow
    exact small overflow
  have result := ordered_small small (decide_eq_true overflow).symm rfl
  rintro ⟨kept, _⟩
  unfold PlainCall.perform at kept
  dsimp only at kept
  rw [result] at kept
  generalize decide (UInt32.ofNat (enqueue msg (cutIf true r).2).pendingBatch.length ≥
    batchSize.maxMessageCount) = full at kept
  cases full with
  | true =>
    simp [cutIf, cut, cutTx, enqueue, plain.noGraph, message] at kept
  | false =>
    apply waiting
    simpa [cutIf, cut, cutTx, enqueue, plain.noGraph, message] using kept

/-- A message that is added to the pending batch is kept exactly when it does not fill the batch. -/
theorem keeps_enqueued (plain : Plain r)
    (fits : ¬ r.pendingBatchSizeBytes + messageSizeBytes msg > batchSize.preferredMaxBytes) :
    (PlainCall.ordered batchSize msg).Keeps r ↔
      UInt32.ofNat (r.pendingBatch.length + 1) < batchSize.maxMessageCount := by
  have length : (enqueue msg (cutIf false r).2).pendingBatch.length = r.pendingBatch.length + 1 :=
    length_append
  have result := ordered_small small (decide_eq_false fits).symm rfl
  rw [length] at result
  have perform : (PlainCall.ordered batchSize msg).perform r = ⟨.ordered batchSize msg, r,
      (ordered batchSize msg r).1, some (ordered batchSize msg r).2.1, (ordered batchSize msg r).2.2⟩ := rfl
  rw [result] at perform
  unfold PlainCall.Keeps
  rw [perform]
  by_cases room : UInt32.ofNat (r.pendingBatch.length + 1) < batchSize.maxMessageCount
  · rw [decide_eq_false (UInt32.not_le.mpr room)]
    refine ⟨fun _ => room, fun _ => ⟨?_, ?_, ?_⟩⟩ <;> simp [cutIf, enqueue, message]
  · rw [decide_eq_true (UInt32.not_lt.mp room)]
    refine ⟨fun keeps => ?_, fun same => absurd same room⟩
    have lost := keeps.1
    simp [cutIf, cut, cutTx, enqueue, plain.noGraph, message] at lost

end

/-- A call of the plain cutter keeps its messages exactly when it cuts nothing that is pending. -/
theorem keeps_iff_spares (plain : Plain r) (call : PlainCall) : call.Keeps r ↔ call.Spares r := by
  cases call with
  | ordered batchSize msg =>
    by_cases large : messageSizeBytes msg > batchSize.preferredMaxBytes
    · rw [PlainCall.Spares, if_pos large]
      exact keeps_isolated plain large
    · rw [PlainCall.Spares, if_neg large]
      by_cases overflow : r.pendingBatchSizeBytes + messageSizeBytes msg > batchSize.preferredMaxBytes
      · refine ⟨fun keeps => absurd keeps (overflow_loses large plain overflow), fun spares => ?_⟩
        exact absurd overflow (UInt32.not_lt.mpr spares.1)
      · rw [keeps_enqueued large plain overflow]
        exact ⟨fun room => ⟨UInt32.not_lt.mp overflow, room⟩, fun spares => spares.2⟩
  | cut =>
    have perform : PlainCall.cut.perform r = ⟨.cut, r, [(cut r).1], none, (cut r).2⟩ := rfl
    unfold PlainCall.Keeps PlainCall.Spares
    rw [perform]
    constructor
    · intro keeps
      have kept := keeps.1
      simpa [cut_plain plain, message] using kept.symm
    · intro empty
      refine ⟨?_, ?_, ?_⟩
      · simp [cut_plain plain, message, empty]
      · exact fun _ _ _ => ⟨rfl, empty⟩
      · intro flag returned
        cases returned

/-- What a session of the plain cutter keeps. -/
structure Faithful (session : PlainSession) : Prop where
  plain : Plain session.receiver
  lossless : session.Lossless
  lawful : ∀ result ∈ session.returned, result.Lawful

theorem faithful_initial : Faithful initial :=
  ⟨⟨rfl, fun _ => rfl⟩, rfl, fun _ listed => absurd listed not_mem_nil⟩

theorem Faithful.step (faithful : Faithful session) (spares : call.Spares session.receiver)
    (stepped : session.step call = some next) : Faithful next := by
  cases stepped
  obtain ⟨kept, lawful⟩ := (keeps_iff_spares faithful.plain call).mpr spares
  have called : (call.perform session.receiver).call = call := by
    cases call <;> rfl
  refine ⟨perform_plain faithful.plain call, ?_, ?_⟩
  · have before := faithful.lossless
    unfold PlainSession.Lossless batches messages at before ⊢
    rw [flatMap_append, flatten_append, flatMap_singleton, append_assoc, kept,
      ← append_assoc, before, filterMap_append, filterMap_cons, filterMap_nil, called]
    cases call.message <;> rfl
  · exact forall_mem_append.mpr ⟨faithful.lawful, forall_mem_singleton.mpr lawful⟩

/-- In every run whose calls cut nothing that is pending, the returned batches and the pending batch are
the messages in their order, and every call obeys the contract of its results. -/
theorem plain_cutter_lossless (calls : List PlainCall) (final : PlainSession)
    (spares : Guarded step (fun session call => call.Spares session.receiver) initial calls)
    (reached : run step initial calls = some final) :
    final.Lossless ∧ ∀ result ∈ final.returned, result.Lawful := by
  have faithful := run_invariant step (fun session call => call.Spares session.receiver)
    Faithful (fun _ _ _ spared known stepped => known.step spared stepped) calls initial final
    faithful_initial spares reached
  exact ⟨faithful.lossless, faithful.lawful⟩

/-- One message is isolated and the other one waits in a batch that is not full. -/
def sparingCalls : List PlainCall :=
  [.ordered ⟨3, 10⟩ ⟨none, 1000⟩, .cut, .ordered ⟨3, 10⟩ ⟨none, 4⟩]

theorem plain_cutter_lossless_sparing : ∃ final,
    run step initial sparingCalls = some final ∧
    final.messages = [⟨none, 1000⟩, ⟨none, 4⟩] ∧
    final.Lossless ∧ ∀ result ∈ final.returned, result.Lawful := by
  refine exists_evaluated (by decide) fun final reached _ => ?_
  exact plain_cutter_lossless sparingCalls final (by decide) reached

/-- A message that fills its batch is lost: the call returns an empty batch and nothing is pending. -/
theorem full_batch_lost : ∃ final,
    run step initial [.ordered ⟨1, 10⟩ ⟨none, 4⟩] = some final ∧
    final.messages = [⟨none, 4⟩] ∧ final.batches = [[]] ∧ final.receiver.pendingBatch = [] ∧
    ¬ final.Lossless ∧ ¬ ∀ result ∈ final.returned, result.Lawful := by
  refine ⟨_, rfl, rfl, rfl, rfl, nofun, fun lawful => ?_⟩
  obtain ⟨isCut, _⟩ := (lawful _ (mem_singleton_self _)).nonempty [] (mem_singleton_self _) rfl
  cases isCut

end Pobl.BlockCutter
