/-
This file shows that the consumer of the payload buffer misses no notification.
-/

import Pobl.Construction.GossipState
import Pobl.Library.Run

namespace Pobl.Gossip.SharedBuffer

open Library

/-- The payload that the consumer needs next is in the buffer. -/
def HasNext (s : SharedBuffer) : Prop := (s.buffer.buf.lookup s.buffer.next).isSome

/-- No call of `Push` waits for the mutex or holds it. -/
def NoPush (s : SharedBuffer) : Prop := s.pushing = [] ∧ s.mutex ≠ .checking ∧ s.mutex ≠ .sending

/-- A sender finds the channel empty, only the consumer drains it, and a waiting consumer is notified or a call of
`Push` is about to do so. -/
structure Notified (s : SharedBuffer) : Prop where
  empty : s.mutex = .sending → s.buffer.readyChan = false
  drains : s.mutex = .draining → s.collecting = true
  ready : s.collecting = false → s.HasNext → s.buffer.readyChan = true ∨ s.mutex = .checking ∨ s.mutex = .sending

variable {s next : SharedBuffer}

/-- A payload with another number leaves the next payload as it is. -/
theorem Notified.push (notified : s.Notified) (free : s.mutex = .free) (payload : Payload) (pushing : List Payload) :
    Notified { s with
      pushing := pushing
      buffer := { s.buffer with buf := s.buffer.buf.insert payload.seqNum payload }
      mutex := if payload.seqNum = s.buffer.next then .checking else .free } where
  empty := by split <;> simp
  drains := by split <;> simp
  ready := by
    intro waiting has
    by_cases expected : payload.seqNum = s.buffer.next
    · simp [expected]
    · have before : s.HasNext := by simpa [HasNext, AList.lookup_insert_ne (Ne.symm expected)] using has
      simpa [free, expected] using notified.ready waiting before

/-- Each step of a goroutine keeps the notification. -/
theorem Notified.step (notified : s.Notified) (label : BufferStep) (stepped : s.step label = some next) :
    next.Notified := by
  obtain ⟨empty, drains, ready⟩ := notified
  cases label with
  | call payload =>
    cases stepped
    exact ⟨empty, drains, ready⟩
  | push index =>
    rw [SharedBuffer.step] at stepped
    split at stepped
    next payload free found =>
      split at stepped
      · cases stepped
        exact ⟨empty, drains, ready⟩
      · cases stepped
        exact Notified.push ⟨empty, drains, ready⟩ free payload _
    · cases stepped
  | check =>
    simp only [SharedBuffer.step, Option.ite_none_right_eq_some, Option.some.injEq] at stepped
    obtain ⟨checking, rfl⟩ := stepped
    cases pending : s.buffer.readyChan <;> exact ⟨by simp [pending], by simp, by simp [pending]⟩
  | send =>
    simp only [SharedBuffer.step, Option.ite_none_right_eq_some, Option.some.injEq] at stepped
    obtain ⟨-, rfl⟩ := stepped
    exact ⟨by simp, by simp, fun _ _ => .inl rfl⟩
  | receive =>
    simp only [SharedBuffer.step, Option.ite_none_right_eq_some, Option.some.injEq] at stepped
    obtain ⟨-, rfl⟩ := stepped
    exact ⟨fun _ => rfl, fun _ => rfl, by simp⟩
  | pop =>
    simp only [SharedBuffer.step, Option.ite_none_right_eq_some] at stepped
    obtain ⟨⟨free, collecting⟩, popped⟩ := stepped
    split at popped
    next absent =>
      cases popped
      exact ⟨empty, by simp [free], fun _ has => by simp [HasNext, absent] at has⟩
    · cases popped
      exact ⟨by dsimp only; split <;> simp, fun _ => collecting, by simp [collecting]⟩
  | drain =>
    simp only [SharedBuffer.step, Option.ite_none_right_eq_some, Option.some.injEq] at stepped
    obtain ⟨draining, rfl⟩ := stepped
    have collecting := drains draining
    split <;> exact ⟨by simp [draining], by simp [collecting], by simp [collecting]⟩

/-- In every state that the goroutines reach, a call of `Push` that holds the mutex can go on, and a consumer that waits
while no `Push` is in progress finds a notification if the next payload is in the buffer. -/
theorem no_lost_wakeup (first : UInt64) (labels : List BufferStep)
    (reached : run SharedBuffer.step (newSharedBuffer first) labels = some s) :
    ((s.mutex = .checking → (s.step .check).isSome) ∧ (s.mutex = .sending → (s.step .send).isSome)) ∧
      (s.collecting = false → s.NoPush → s.HasNext → s.buffer.readyChan = true) := by
  have initially : (newSharedBuffer first).Notified :=
    ⟨by simp [newSharedBuffer], by simp [newSharedBuffer], fun _ has => by
      simp [HasNext, newSharedBuffer, PayloadsBuffer.newPayloadsBuffer] at has⟩
  have notified : s.Notified := run_invariant SharedBuffer.step (fun _ _ => True) Notified
    (fun _ label _ _ notified stepped => notified.step label stepped) labels _ s initially
    (guarded_of_forall SharedBuffer.step labels (fun _ _ _ => trivial) _) reached
  refine ⟨⟨fun checking => by simp [SharedBuffer.step, checking], fun sending => ?_⟩, fun waiting idle has => ?_⟩
  · simp [SharedBuffer.step, sending, notified.empty sending]
  · rcases notified.ready waiting has with ready | checking | sending
    · exact ready
    · exact absurd checking idle.2.1
    · exact absurd sending idle.2.2

/-- Two payloads arrive one after the other, and the consumer takes the first. -/
def twoPayloads : List BufferStep :=
  [.call ⟨5, [], []⟩, .push 0, .check, .send, .receive, .pop, .drain, .pop, .call ⟨6, [], []⟩, .push 0, .check, .send]

/-- The consumer is notified of the second payload. -/
theorem no_lost_wakeup_second : ∃ s, run SharedBuffer.step (newSharedBuffer 5) twoPayloads = some s ∧
    s.buffer.next = 6 ∧ s.HasNext ∧ s.buffer.readyChan = true := by
  refine ⟨_, rfl, rfl, rfl, ?_⟩
  exact (no_lost_wakeup 5 twoPayloads rfl).2 rfl ⟨rfl, by decide, by decide⟩ rfl

end Pobl.Gossip.SharedBuffer
