/-
This file gives the runs of a partial step function and their induction rules.
-/

import Mathlib.Order.Basic

namespace Pobl.Library

open List

variable {State Label : Type*}

/-- A run executes the labels in order and stops when a step fails. -/
def run (step : State → Label → Option State) : State → List Label → Option State
  | state, [] => some state
  | state, label :: rest => (step state label).bind fun next => run step next rest

/-- Every step of the run meets the condition in the state before the step. -/
def Guarded (step : State → Label → Option State) (condition : State → Label → Prop) : State → List Label → Prop
  | _, [] => True
  | state, label :: rest =>
    condition state label ∧ ∀ next, step state label = some next → Guarded step condition next rest

/-- A guard can be evaluated by running its labels. -/
instance Guarded.decidable (step : State → Label → Option State) (condition : State → Label → Prop)
    [∀ state label, Decidable (condition state label)] :
    ∀ (state : State) (labels : List Label), Decidable (Guarded step condition state labels)
  | _, [] => .isTrue trivial
  | state, label :: rest =>
    have (next : State) := Guarded.decidable step condition next rest
    inferInstanceAs (Decidable (condition state label ∧ ∀ next ∈ step state label, Guarded step condition next rest))

@[simp] theorem run_nil (step : State → Label → Option State) (state : State) : run step state [] = some state := rfl

theorem run_cons (step : State → Label → Option State) (state : State) (label : Label) (rest : List Label) :
    run step state (label :: rest) = (step state label).bind fun next => run step next rest := rfl

theorem run_append (step : State → Label → Option State) (state : State) (first second : List Label) :
    run step state (first ++ second) = (run step state first).bind fun middle => run step middle second := by
  induction first generalizing state with
  | nil => rfl
  | cons label rest ih =>
    simp only [cons_append, run_cons, Option.bind_assoc]
    congr 1
    funext next
    exact ih next

/-- A guarded run is guarded in its first part and, after it, in its second part. -/
theorem guarded_append (step : State → Label → Option State) (condition : State → Label → Prop) (state : State)
    (first second : List Label) :
    Guarded step condition state (first ++ second) ↔ Guarded step condition state first ∧
        ∀ middle, run step state first = some middle → Guarded step condition middle second := by
  induction first generalizing state with
  | nil => simp [Guarded]
  | cons label rest ih =>
    simp only [cons_append, Guarded, ih, run_cons, Option.bind_eq_some_iff]
    constructor
    · rintro ⟨here, later⟩
      refine ⟨⟨here, fun next stepped => (later next stepped).1⟩, ?_⟩
      rintro middle ⟨next, stepped, reached⟩
      exact (later next stepped).2 middle reached
    · rintro ⟨⟨here, first⟩, second⟩
      exact ⟨here, fun next stepped => ⟨first next stepped,
        fun middle reached => second middle ⟨next, stepped, reached⟩⟩⟩

/-- Two conditions that guard a run give every condition that follows from them. -/
theorem guarded_combine {step : State → Label → Option State} {first second both : State → Label → Prop}
    (follows : ∀ state label, first state label → second state label → both state label) {state : State}
    {labels : List Label} (one : Guarded step first state labels)
    (two : Guarded step second state labels) : Guarded step both state labels := by
  induction labels generalizing state with
  | nil => trivial
  | cons label rest ih =>
    exact ⟨follows state label one.1 two.1, fun next stepped => ih (one.2 next stepped) (two.2 next stepped)⟩

/-- An invariant of every guarded step holds after every guarded run. -/
theorem run_invariant (step : State → Label → Option State) (condition : State → Label → Prop)
    (invariant : State → Prop) (preserved : ∀ state label next, condition state label → invariant state →
      step state label = some next → invariant next)
    (labels : List Label) (state final : State) (initially : invariant state)
    (guarded : Guarded step condition state labels) (reached : run step state labels = some final) :
    invariant final := by
  induction labels generalizing state with
  | nil =>
    rw [run_nil, Option.some.injEq] at reached
    exact reached ▸ initially
  | cons label rest ih =>
    rw [run_cons, Option.bind_eq_some_iff] at reached
    obtain ⟨next, stepped, reached⟩ := reached
    exact ih next (preserved state label next guarded.1 initially stepped) (guarded.2 next stepped) reached

/-- A guarded run returns when every guarded step does. -/
theorem run_returns (step : State → Label → Option State) (condition : State → Label → Prop)
    (invariant : State → Prop) (returns : ∀ state label, condition state label → invariant state →
      ∃ next, step state label = some next ∧ invariant next)
    (labels : List Label) (state : State) (initially : invariant state)
    (guarded : Guarded step condition state labels) :
    ∃ final, run step state labels = some final ∧ invariant final := by
  induction labels generalizing state with
  | nil => exact ⟨state, rfl, initially⟩
  | cons label rest ih =>
    obtain ⟨next, stepped, kept⟩ := returns state label guarded.1 initially
    obtain ⟨final, reached, last⟩ := ih next kept (guarded.2 next stepped)
    refine ⟨final, ?_, last⟩
    rw [run_cons, stepped]
    exact reached

/-- Labels that advance a counter can be repeated until the counter reaches the count. -/
theorem run_repeats (step : State → Label → Option State) (invariant : Nat → State → Prop) (labels : List Label)
    (count : Nat) (advances : ∀ done < count, ∀ state, invariant done state →
      ∃ next, run step state labels = some next ∧ invariant (done + 1) next)
    (state : State) (initially : invariant 0 state) :
    ∃ final, run step state (replicate count labels).flatten = some final ∧ invariant count final := by
  induction count with
  | zero => exact ⟨state, rfl, initially⟩
  | succ count ih =>
    obtain ⟨middle, reached, holds⟩ := ih fun done below => advances done (Nat.lt_succ_of_lt below)
    obtain ⟨final, last, kept⟩ := advances count (Nat.lt_succ_self count) middle holds
    refine ⟨final, ?_, kept⟩
    rw [replicate_succ', flatten_append, flatten_singleton, run_append, reached]
    exact last

/-- A condition on the labels alone guards every run of such labels. -/
theorem guarded_of_forall (step : State → Label → Option State) {condition : State → Label → Prop}
    (labels : List Label) (all : ∀ label ∈ labels, ∀ state, condition state label) (state : State) :
    Guarded step condition state labels := by
  induction labels generalizing state with
  | nil => trivial
  | cons label rest ih =>
    exact ⟨all label mem_cons_self state,
      fun next _ => ih (fun other member => all other (mem_cons_of_mem _ member)) next⟩

section Evaluation

variable {computed : Option State}

/-- A property that is evaluated for a result holds for it. -/
@[elab_as_elim]
theorem of_evaluated {motive : State → Prop} [DecidablePred motive] {state : State} (found : computed = some state)
    (evaluated : computed.all (motive ·) = true) : motive state := by
  simpa [found] using evaluated

theorem exists_evaluated {first second : State → Prop} [DecidablePred first]
    (evaluated : computed.any (first ·) = true)
    (implies : ∀ state, computed = some state → first state → second state) :
    ∃ state, computed = some state ∧ first state ∧ second state := by
  cases computed with
  | none => cases evaluated
  | some state =>
    have holds := of_decide_eq_true evaluated
    exact ⟨state, rfl, holds, implies state rfl holds⟩

end Evaluation

/-- An invariant of every step of a fold holds after the whole fold. -/
theorem foldl_invariant (step : State → Label → State) (invariant : State → Prop) (labels : List Label)
    (preserved : ∀ state, ∀ label ∈ labels, invariant state → invariant (step state label)) (state : State)
    (initially : invariant state) : invariant (labels.foldl step state) := by
  induction labels generalizing state with
  | nil => exact initially
  | cons label rest ih =>
    exact ih (fun state other listed => preserved state other (mem_cons_of_mem _ listed)) _
      (preserved state label mem_cons_self initially)

/-- What every step of a fold leaves alone, the whole fold leaves alone. -/
theorem foldl_keeps {Observed : Type*} (step : State → Label → State) (observe : State → Observed)
    (keeps : ∀ state label, observe (step state label) = observe state) (labels : List Label)
    (state : State) : observe (labels.foldl step state) = observe state := by
  induction labels generalizing state with
  | nil => rfl
  | cons label rest ih => exact (ih (step state label)).trans (keeps state label)

end Pobl.Library
