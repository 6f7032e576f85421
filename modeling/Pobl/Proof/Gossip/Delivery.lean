/-
This file shows when `deliverPayloads` commits the blocks in order.
The buffer counts a payload as done when it is taken, also if the payload is dropped after that.
-/

import Pobl.Construction.GossipState
import Pobl.Library.Consecutive
import Pobl.Library.Run

namespace Pobl.Gossip

open Library Library.Wire PayloadsBuffer List

variable {payload : Payload}

/-- The payload is read to its end and holds the block of its own number. -/
def Payload.Sound (payload : Payload) : Prop :=
  (payload.rawBlock.bind fun raw => raw.1.header.map BlockHeader.number) = some payload.seqNum

instance (payload : Payload) : Decidable payload.Sound :=
  inferInstanceAs (Decidable (_ = some payload.seqNum))

/-- The numbers of the stored blocks. -/
def Ledger.numbers (ledger : Ledger) : List (Option UInt64) :=
  ledger.stored.map fun entry => entry.1.header.map BlockHeader.number

namespace GossipStateProvider

/-- A payload that is put into the buffer is sound. -/
def PushesSound (s : GossipStateProvider) : StateStep → Prop
  | .push index =>
    ∀ call ∈ s.adding[index]?, call.blocked = false → s.payloads.isProcessed call.payload = false → call.payload.Sound
  | _ => True

instance (s : GossipStateProvider) : ∀ label, Decidable (s.PushesSound label)
  | .push index => inferInstanceAs (Decidable (∀ call ∈ s.adding[index]?, _))
  | .addPayload .. | .checkSize .. | .ready | .pop | .commit | .stop => .isTrue trivial

/-- The next number of the buffer is the height of the ledger, except while a payload is in hand. -/
def InStep (s : GossipStateProvider) : Prop :=
  match s.deliver with
  | .popped payload =>
    s.payloads.next = s.ledger.ledgerHeight + 1 ∧ payload.seqNum = s.ledger.ledgerHeight ∧ payload.Sound
  | .panicked => False
  | .waiting | .collecting | .returned => s.payloads.next = s.ledger.ledgerHeight

/-- What holds between the buffer, the loop and the ledger. -/
structure InOrder (first : UInt64) (s : GossipStateProvider) : Prop where
  buffered : ∀ seqNum payload, s.payloads.buf.lookup seqNum = some payload → payload.seqNum = seqNum ∧ payload.Sound
  stored : s.ledger.numbers = (consecutive first s.ledger.stored.length).map some
  height : s.ledger.ledgerHeight = first + UInt64.ofNat s.ledger.stored.length
  inStep : s.InStep

theorem inOrder_new (config : StateConfig) (height : UInt64) (isExecutionErr : Block → Bool) :
    (newGossipStateProvider config height isExecutionErr).InOrder height where
  buffered := fun seqNum payload found => nomatch (AList.lookup_empty seqNum).symm.trans found
  stored := rfl
  height := by simp [newGossipStateProvider]
  inStep := rfl

variable {first : UInt64} {s next : GossipStateProvider}

/-- A push changes no number, and adds only a sound payload. -/
theorem inOrder_push (inOrder : s.InOrder first) (sound : s.payloads.isProcessed payload = false → payload.Sound)
    (adding : List AddPayload) : InOrder first { s with payloads := s.payloads.push payload, adding := adding } := by
  cases processed : s.payloads.isProcessed payload with
  | true =>
    have same : s.payloads.push payload = s.payloads := by rw [push, processed, if_pos rfl]
    rw [same]
    exact { inOrder with }
  | false =>
    rw [push, processed, if_neg Bool.false_ne_true]
    refine { inOrder with buffered := fun seqNum other found => ?_ }
    by_cases same : seqNum = payload.seqNum
    · subst same
      rw [AList.lookup_insert, Option.some.injEq] at found
      subst found
      exact ⟨rfl, sound processed⟩
    · rw [AList.lookup_insert_ne same] at found
      exact inOrder.buffered seqNum other found

@[simp] theorem drainReadChannel_next (b : PayloadsBuffer) : b.drainReadChannel.next = b.next := by
  rw [drainReadChannel]
  split <;> rfl

@[simp] theorem drainReadChannel_buf (b : PayloadsBuffer) : b.drainReadChannel.buf = b.buf := by
  rw [drainReadChannel]
  split <;> rfl

/-- The payload that is taken has the number of the ledger, and the buffer goes one number ahead. -/
theorem inOrder_pop (inOrder : s.InOrder first) (collecting : s.deliver = .collecting)
    (stepped : s.step .pop = some next) : next.InOrder first := by
  have level : s.payloads.next = s.ledger.ledgerHeight := by
    simpa only [InStep, collecting] using inOrder.inStep
  rw [step, if_pos collecting, pop] at stepped
  cases found : s.payloads.buf.lookup s.payloads.next with
  | none =>
    rw [found] at stepped
    cases stepped
    exact { inOrder with inStep := level }
  | some payload =>
    rw [found] at stepped
    cases stepped
    obtain ⟨number, sound⟩ := inOrder.buffered _ payload found
    refine ⟨fun seqNum other held => ?_, inOrder.stored, inOrder.height, ?_, number.trans level, sound⟩
    · rw [drainReadChannel_buf] at held
      by_cases same : seqNum = s.payloads.next
      · subst same
        rw [AList.lookup_erase] at held
        exact nomatch held
      · rw [AList.lookup_erase_ne same] at held
        exact inOrder.buffered seqNum other held
    · rw [drainReadChannel_next]
      exact congrArg (· + 1) level

/-- A sound payload of the right number is stored. -/
theorem storeBlock_of_sound (sound : payload.Sound) {ledger : Ledger}
    (number : payload.seqNum = ledger.ledgerHeight) :
    ∃ rawBlock p, payload.rawBlock = some (rawBlock, p) ∧
      rawBlock.header.map BlockHeader.number = some ledger.ledgerHeight ∧
      ledger.storeBlock rawBlock p =
        .ok { ledger with ledgerHeight := ledger.ledgerHeight + 1, stored := ledger.stored ++ [(rawBlock, p)] } := by
  obtain ⟨⟨rawBlock, p⟩, read, own⟩ := Option.bind_eq_some_iff.mp sound
  have same : rawBlock.header.map BlockHeader.number = some ledger.ledgerHeight := own.trans (congrArg some number)
  refine ⟨rawBlock, p, read, same, ?_⟩
  rw [Ledger.storeBlock, if_pos same]

/-- The payload in hand is committed, and the ledger is level with the buffer again. -/
theorem inOrder_commit (inOrder : s.InOrder first) (popped : s.deliver = .popped payload) :
    (s.commitPayload payload).InOrder first := by
  obtain ⟨ahead, number, sound⟩ :
      s.payloads.next = s.ledger.ledgerHeight + 1 ∧ payload.seqNum = s.ledger.ledgerHeight ∧ payload.Sound := by
    simpa only [InStep, popped] using inOrder.inStep
  obtain ⟨rawBlock, p, read, own, stored⟩ := storeBlock_of_sound sound number
  have committed : s.commitPayload payload =
      { s with
        ledger := { s.ledger with
          ledgerHeight := s.ledger.ledgerHeight + 1
          stored := s.ledger.stored ++ [(rawBlock, p)] }
        deliver := .collecting } := by
    rw [commitPayload, read]
    simp only [stored]
  rw [committed]
  refine ⟨inOrder.buffered, ?_, ?_, ahead⟩
  · have earlier := inOrder.stored
    simp only [Ledger.numbers] at earlier
    simp only [Ledger.numbers, map_append, map_cons, map_nil, length_append, length_cons,
      length_nil, Nat.zero_add, consecutive_succ, earlier, own, inOrder.height]
  · simp only [length_append, length_cons, length_nil, Nat.zero_add, inOrder.height,
      UInt64.ofNat_add, UInt64.add_assoc]
    rfl

theorem inOrder_step (s : GossipStateProvider) (label : StateStep) (next : GossipStateProvider)
    (guarded : s.PushesSound label) (inOrder : s.InOrder first) (stepped : s.step label = some next) :
    next.InOrder first := by
  cases label with
  | addPayload payload blockingMode =>
    rw [step] at stepped
    split at stepped <;> cases stepped
    · exact inOrder
    · exact { inOrder with }
  | checkSize index =>
    rw [step] at stepped
    split at stepped
    · split at stepped <;> cases stepped
      · exact inOrder
      · exact { inOrder with }
    · exact nomatch stepped
  | push index =>
    rw [step] at stepped
    split at stepped
    next payload found =>
      cases stepped
      exact inOrder_push inOrder (guarded ⟨payload, false⟩ found rfl) _
    · exact nomatch stepped
  | ready =>
    rw [step] at stepped
    split at stepped
    next signalled =>
      cases stepped
      have level : s.payloads.next = s.ledger.ledgerHeight := by
        simpa only [InStep, signalled.1] using inOrder.inStep
      exact { inOrder with inStep := level }
    · exact nomatch stepped
  | pop =>
    by_cases collecting : s.deliver = .collecting
    · exact inOrder_pop inOrder collecting stepped
    · rw [step, if_neg collecting] at stepped
      exact nomatch stepped
  | commit =>
    rw [step] at stepped
    split at stepped
    next payload popped =>
      cases stepped
      exact inOrder_commit inOrder popped
    · exact nomatch stepped
  | stop =>
    rw [step] at stepped
    split at stepped
    next waiting =>
      cases stepped
      have level : s.payloads.next = s.ledger.ledgerHeight := by
        simpa only [InStep, waiting] using inOrder.inStep
      exact { inOrder with inStep := level }
    · exact nomatch stepped

/-- If only sound payloads are buffered, the blocks are stored one after the other, the buffer waits for the block
that the ledger needs, and the loop does not panic. -/
theorem deliverPayloads_in_order (config : StateConfig) (height : UInt64) (isExecutionErr : Block → Bool)
    (labels : List StateStep) (final : GossipStateProvider)
    (sound : Guarded step PushesSound (newGossipStateProvider config height isExecutionErr) labels)
    (reached : run step (newGossipStateProvider config height isExecutionErr) labels = some final) :
    final.ledger.numbers = (consecutive height final.ledger.stored.length).map some ∧
      (final.ledger.stored.length ≤ 2 ^ 64 → final.ledger.numbers.Nodup) ∧
      (final.deliver = .waiting → final.payloads.next = final.ledger.ledgerHeight) ∧
      final.deliver ≠ .panicked := by
  have inOrder := run_invariant step PushesSound (InOrder height) inOrder_step labels _ final
    (inOrder_new config height isExecutionErr) sound reached
  refine ⟨inOrder.stored, fun bounded => ?_, fun waiting => ?_, fun panicked => ?_⟩
  · rw [inOrder.stored]
    exact (nodup_consecutive height bounded).map fun _ _ => Option.some.inj
  · simpa only [InStep, waiting] using inOrder.inStep
  · simpa only [InStep, panicked] using inOrder.inStep

/-- The bytes of a block without transactions, with its private data. -/
def smallPayload (number : UInt8) (privateData : List Bytes) : Payload where
  seqNum := number.toUInt64
  data := [10, 2, 8, number, 18, 0]
  privateData := privateData

/-- A provider at height one. -/
def providerAtOne : GossipStateProvider := newGossipStateProvider ⟨10, 100⟩ 1 fun _ => false

/-- The second block arrives first, and the first one arrives twice. -/
def deliverTwo : List StateStep :=
  [.addPayload (some (smallPayload 2 [])) false, .addPayload (some (smallPayload 1 [])) true,
    .addPayload (some (smallPayload 1 [[255]])) false, .push 0, .checkSize 0, .push 0, .ready, .push 0, .pop, .commit,
    .pop, .commit, .pop]

theorem deliverPayloads_in_order_two :
    ∃ final, run step providerAtOne deliverTwo = some final ∧ final.ledger.numbers = [some 1, some 2] ∧
      final.payloads.next = final.ledger.ledgerHeight := by
  refine ⟨_, rfl, by decide, ?_⟩
  have inOrder := deliverPayloads_in_order ⟨10, 100⟩ 1 (fun _ => false) deliverTwo _ (by decide) rfl
  exact inOrder.2.2.1 rfl

/-- The first block comes with private data that cannot be read, and the second one with none. -/
def dropFirst : List StateStep :=
  [.addPayload (some (smallPayload 1 [[255]])) true, .checkSize 0, .push 0, .ready, .pop, .commit, .pop]

/-- The dropped payload leaves the buffer ahead of the ledger, and the payload after it makes the loop panic. -/
theorem deliverPayloads_panics :
    (∃ middle, run step providerAtOne dropFirst = some middle ∧ middle.deliver = .waiting ∧
      middle.payloads.next = 2 ∧ middle.ledger.ledgerHeight = 1) ∧
    ∃ final, run step providerAtOne (dropFirst ++ [.addPayload (some (smallPayload 2 [])) true, .checkSize 0,
      .push 0, .ready, .pop, .commit]) = some final ∧ final.deliver = .panicked :=
  ⟨⟨_, rfl, by decide, by decide, by decide⟩, _, rfl, by decide⟩

end GossipStateProvider

end Pobl.Gossip
