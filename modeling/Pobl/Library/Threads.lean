/-
This file gives programs that run in parallel on a shared state.
A discipline says what each thread keeps for the others, and each program is proved alone.
-/

import Pobl.Library.Run

namespace Pobl.Library

open List

/-- A program calls the shared state and goes on with the reply. -/
inductive Program (Request : Type) (Reply : Request → Type) (Result : Type) where
  | done (result : Result)
  | panic
  | call (request : Request) (resume : Reply request → Program Request Reply Result)

/-- The shared state lets a call wait, panics, or replies and changes. -/
inductive Answer (Value Shared : Type) where
  | wait
  | panic
  | reply (value : Value) (shared : Shared)

variable {Request : Type} {Reply : Request → Type} {Result Next Shared Choice : Type} {after : Shared}

namespace Program

def bind : Program Request Reply Result → (Result → Program Request Reply Next) → Program Request Reply Next
  | .done result, next => next result
  | .panic, _ => .panic
  | .call request resume, next => .call request fun reply => (resume reply).bind next

instance : Monad (Program Request Reply) where
  pure := .done
  bind := bind

/-- The program that makes one call. -/
def ask (request : Request) : Program Request Reply (Reply request) := .call request .done

/-- The program has returned. -/
def isDone : Program Request Reply Result → Bool
  | .done _ => true
  | .panic | .call .. => false

/-- One call of a program. -/
def step (handle : (request : Request) → Shared → Answer (Reply request) Shared) (shared : Shared) :
    Program Request Reply Result → Option (Program Request Reply Result × Shared)
  | .done _ | .panic => none
  | .call request resume =>
    match handle request shared with
    | .wait => none
    | .panic => some (.panic, shared)
    | .reply value after => some (resume value, after)

end Program

/-- Threads with a shared state. A waiting program starts when fewer than `workers` threads run. -/
structure Pool (Request : Type) (Reply : Request → Type) (Result Shared : Type) where
  workers : Nat
  waiting : List (Program Request Reply Result)
  threads : List (Program Request Reply Result)
  shared : Shared

/-- The next program starts, or one thread makes a call. The choice fixes what the call leaves open. -/
inductive PoolStep (Choice : Type) where
  | start
  | call (thread : Nat) (choice : Choice)

/-- A discipline has an invariant of the shared state, a relation for the steps of all threads, and a relation for
the steps that other threads may make while a thread runs. -/
structure Discipline (Shared : Type) where
  invariant : Shared → Prop
  evolves : Shared → Shared → Prop
  keeps : Nat → Shared → Shared → Prop
  evolves_refl : ∀ shared, evolves shared shared
  evolves_trans : ∀ {first second third}, evolves first second → evolves second third → evolves first third
  keeps_refl : ∀ thread shared, keeps thread shared shared
  keeps_trans : ∀ {thread first second third}, keeps thread first second → keeps thread second third →
    keeps thread first third

namespace Discipline

variable (discipline : Discipline Shared)

/-- What a thread relies on between two of its calls. -/
structure Rely (thread : Nat) (before after : Shared) : Prop where
  invariant : discipline.invariant after
  evolves : discipline.evolves before after
  keeps : discipline.keeps thread before after

/-- What a call of a thread guarantees. -/
structure Guarantee (thread : Nat) (before after : Shared) : Prop where
  invariant : discipline.invariant after
  evolves : discipline.evolves before after
  keeps : ∀ other, other ≠ thread → discipline.keeps other before after

variable {discipline} {thread : Nat}

theorem Rely.refl {shared : Shared} (holds : discipline.invariant shared) : discipline.Rely thread shared shared :=
  ⟨holds, discipline.evolves_refl shared, discipline.keeps_refl thread shared⟩

theorem Rely.trans {first second third : Shared} (one : discipline.Rely thread first second)
    (two : discipline.Rely thread second third) : discipline.Rely thread first third :=
  ⟨two.invariant, discipline.evolves_trans one.evolves two.evolves, discipline.keeps_trans one.keeps two.keeps⟩

theorem Guarantee.rely {before : Shared} (guarantee : discipline.Guarantee thread before after) {other : Nat}
    (different : other ≠ thread) : discipline.Rely other before after :=
  { guarantee with keeps := guarantee.keeps other different }

variable (discipline) (handle : Nat → Choice → (request : Request) → Shared → Answer (Reply request) Shared)
  (waits : Nat → Request → Shared → Prop) (thread : Nat)

/-- The program of a thread follows the discipline from a state on: no call panics, a call waits only where it may,
and the result meets the postcondition. -/
def Assured (post : Result → Shared → Prop) : Program Request Reply Result → Shared → Prop
  | .done result, shared => ∀ later, discipline.Rely thread shared later → post result later
  | .panic, _ => False
  | .call request resume, shared => ∀ later, discipline.Rely thread shared later → ∀ choice,
      match handle thread choice request later with
      | .wait => waits thread request later
      | .panic => False
      | .reply value after => discipline.Guarantee thread later after ∧ Assured post (resume value) after

variable {discipline handle waits thread} {post : Result → Shared → Prop} {program : Program Request Reply Result}
  {shared : Shared} {last : Next → Shared → Prop}

/-- The steps of other threads leave a program assured. -/
theorem Assured.later (assured : discipline.Assured handle waits thread post program shared)
    (rely : discipline.Rely thread shared after) : discipline.Assured handle waits thread post program after := by
  cases program with
  | done result => exact fun later further => assured later (rely.trans further)
  | panic => exact assured
  | call request resume => exact fun later further => assured later (rely.trans further)

/-- A program that makes the same call goes on after each reply. -/
theorem Assured.resumed {request : Request} {resume : Reply request → Program Request Reply Result}
    (assured : discipline.Assured handle waits thread post (.call request resume) shared)
    {next : Reply request → Program Request Reply Next}
    (continues : ∀ value after, discipline.invariant after → discipline.evolves shared after →
      discipline.Assured handle waits thread post (resume value) after →
      discipline.Assured handle waits thread last (next value) after) :
    discipline.Assured handle waits thread last (.call request next) shared := by
  intro later rely choice
  have answered := assured later rely choice
  cases given : handle thread choice request later with
  | wait => rwa [given] at answered
  | panic => rwa [given] at answered
  | reply value after =>
    rw [given] at answered
    have evolves := discipline.evolves_trans rely.evolves answered.1.evolves
    exact ⟨answered.1, continues value after answered.1.invariant evolves answered.2⟩

/-- What follows from the postcondition may use that the state evolved. -/
theorem Assured.weaken (assured : discipline.Assured handle waits thread post program shared)
    {weaker : Result → Shared → Prop}
    (implies : ∀ result after, discipline.evolves shared after → post result after → weaker result after) :
    discipline.Assured handle waits thread weaker program shared := by
  induction program generalizing shared with
  | done result => exact fun later rely => implies result later rely.evolves (assured later rely)
  | panic => exact assured
  | call request resume ih =>
    refine assured.resumed fun value after _ evolves assured => ih value assured fun result final further => ?_
    exact implies result final (discipline.evolves_trans evolves further)

/-- Two programs in a row. What the first one leaves is known when the second one starts. -/
theorem Assured.bind (assured : discipline.Assured handle waits thread post program shared)
    (holds : discipline.invariant shared) {next : Result → Program Request Reply Next}
    (continues : ∀ result after, discipline.invariant after → discipline.evolves shared after → post result after →
      discipline.Assured handle waits thread last (next result) after) :
    discipline.Assured handle waits thread last (program.bind next) shared := by
  induction program generalizing shared with
  | done result =>
    exact continues result shared holds (discipline.evolves_refl shared) (assured shared (.refl holds))
  | panic => exact assured
  | call request resume ih =>
    refine assured.resumed fun value after invariant evolves assured => ih value assured invariant ?_
    intro result final invariant further
    exact continues result final invariant (discipline.evolves_trans evolves further)

/-- A loop whose body keeps an assertion of the shared state. -/
theorem assured_forM {Item : Type} (items : List Item) (body : Item → Program Request Reply PUnit)
    (known : List Item → Shared → Prop)
    (each : ∀ before item after, items = before ++ item :: after → ∀ shared, discipline.invariant shared →
      known before shared → discipline.Assured handle waits thread (fun _ => known (before ++ [item])) (body item)
        shared)
    (stable : ∀ shared later, discipline.Rely thread shared later → known items shared → known items later)
    (holds : discipline.invariant shared) (initially : known [] shared) :
    discipline.Assured handle waits thread (fun _ => known items) (items.forM body) shared := by
  suffices rest : ∀ after before shared, items = before ++ after → discipline.invariant shared → known before shared →
      discipline.Assured handle waits thread (fun _ => known items) (after.forM body) shared from
    rest items [] shared rfl holds initially
  intro after
  induction after with
  | nil =>
    intro before shared split _ reached
    rw [append_nil] at split
    subst split
    exact fun later rely => stable shared later rely reached
  | cons item after ih =>
    intro before shared split holds reached
    refine (each before item after split shared holds reached).bind holds ?_
    intro _ final invariant _ further
    exact ih (before ++ [item]) final (by rw [split, append_assoc]; rfl) invariant further

end Discipline

namespace Pool

variable (handle : Nat → Choice → (request : Request) → Shared → Answer (Reply request) Shared)

/-- The threads that have not returned. -/
def running (pool : Pool Request Reply Result Shared) : Nat := pool.threads.countP fun program => !program.isDone

/-- One step of the threads. -/
def step (pool : Pool Request Reply Result Shared) : PoolStep Choice → Option (Pool Request Reply Result Shared)
  | .start =>
    match pool.waiting with
    | [] => none
    | program :: rest =>
      if pool.running < pool.workers then
        some { pool with waiting := rest, threads := pool.threads ++ [program] }
      else none
  | .call thread choice =>
    match pool.threads[thread]? with
    | none => none
    | some program =>
      (program.step (handle thread choice) pool.shared).map fun (next, after) =>
        { pool with threads := pool.threads.set thread next, shared := after }

/-- No step is possible. -/
def Terminal (pool : Pool Request Reply Result Shared) : Prop := ∀ label, pool.step handle label = none

/-- All programs follow the discipline. The precondition of a thread holds until the thread starts. -/
structure Assured (discipline : Discipline Shared) (waits : Nat → Request → Shared → Prop) (pre : Nat → Shared → Prop)
    (post : Nat → Result → Shared → Prop) (pool : Pool Request Reply Result Shared) : Prop where
  invariant : discipline.invariant pool.shared
  threads : ∀ thread program, pool.threads[thread]? = some program →
    discipline.Assured handle waits thread (post thread) program pool.shared
  unstarted : ∀ thread, pool.threads.length ≤ thread → pre thread pool.shared
  waiting : ∀ index program, pool.waiting[index]? = some program → ∀ shared, discipline.invariant shared →
    pre (pool.threads.length + index) shared →
    discipline.Assured handle waits (pool.threads.length + index) (post (pool.threads.length + index)) program shared

variable {handle} {discipline : Discipline Shared} {waits : Nat → Request → Shared → Prop} {pre : Nat → Shared → Prop}
  {post : Nat → Result → Shared → Prop} {pool : Pool Request Reply Result Shared}
  {program : Program Request Reply Result} {thread : Nat}

theorem Assured.start (assured : pool.Assured handle discipline waits pre post)
    {rest : List (Program Request Reply Result)} (first : pool.waiting = program :: rest) :
    Assured handle discipline waits pre post { pool with waiting := rest, threads := pool.threads ++ [program] } where
  invariant := assured.invariant
  threads := by
    intro thread other found
    rcases Nat.lt_or_ge thread pool.threads.length with earlier | last
    · rw [List.getElem?_append_left earlier] at found
      exact assured.threads thread other found
    · rw [List.getElem?_append_right last, List.getElem?_singleton] at found
      split at found
      next same =>
        cases found
        have next := assured.waiting 0 program (by rw [first]; rfl) pool.shared assured.invariant
          (assured.unstarted _ (Nat.le_refl _))
        have same : pool.threads.length + 0 = thread := by omega
        rwa [same] at next
      · cases found
  unstarted := by
    intro thread started
    rw [length_append] at started
    exact assured.unstarted thread (by omega)
  waiting := by
    intro index other found shared holds
    have next := assured.waiting (index + 1) other (by rw [first]; exact found) shared holds
    have same : pool.threads.length + (index + 1) = (pool.threads ++ [program]).length + index := by
      rw [length_append, length_singleton]
      omega
    rwa [same] at next

theorem Assured.call (assured : pool.Assured handle discipline waits pre post)
    (stable : ∀ thread before after, discipline.Rely thread before after → pre thread before → pre thread after)
    {choice : Choice} {next : Program Request Reply Result} (found : pool.threads[thread]? = some program)
    (stepped : program.step (handle thread choice) pool.shared = some (next, after)) :
    Assured handle discipline waits pre post { pool with threads := pool.threads.set thread next, shared := after } := by
  have own := assured.threads thread program found
  have guaranteed : discipline.Guarantee thread pool.shared after ∧
      discipline.Assured handle waits thread (post thread) next after := by
    cases program with
    | done result => cases stepped
    | panic => cases stepped
    | call request resume =>
      have answered := own pool.shared (.refl assured.invariant) choice
      rw [Program.step] at stepped
      split at stepped
      next waiting => cases stepped
      next panicked =>
        rw [panicked] at answered
        exact answered.elim
      next value final replied =>
        rw [replied] at answered
        cases stepped
        exact answered
  have started := (List.getElem?_eq_some_iff.mp found).1
  refine ⟨guaranteed.1.invariant, ?_, ?_, ?_⟩
  · intro other program' found'
    by_cases same : thread = other
    · subst same
      rw [List.getElem?_set_self started] at found'
      cases found'
      exact guaranteed.2
    · rw [List.getElem?_set_ne same] at found'
      exact (assured.threads other program' found').later (guaranteed.1.rely (Ne.symm same))
  · intro other unstarted
    rw [length_set] at unstarted
    exact stable other _ _ (guaranteed.1.rely (by omega)) (assured.unstarted other unstarted)
  · intro index other found' shared holds
    rw [length_set]
    exact assured.waiting index other found' shared holds

/-- Each step leaves all programs assured. -/
theorem assured_step
    (stable : ∀ thread before after, discipline.Rely thread before after → pre thread before → pre thread after)
    (label : PoolStep Choice) (next : Pool Request Reply Result Shared)
    (assured : pool.Assured handle discipline waits pre post) (stepped : pool.step handle label = some next) :
    next.Assured handle discipline waits pre post := by
  cases label with
  | start =>
    rw [step] at stepped
    split at stepped
    · cases stepped
    next program rest first =>
      split at stepped
      · cases stepped
        exact assured.start first
      · cases stepped
  | call thread choice =>
    rw [step] at stepped
    split at stepped
    · cases stepped
    next program found =>
      obtain ⟨⟨program', after⟩, made, rfl⟩ := Option.map_eq_some_iff.mp stepped
      exact assured.call stable found made

/-- Each run leaves all programs assured. -/
theorem assured_run
    (stable : ∀ thread before after, discipline.Rely thread before after → pre thread before → pre thread after)
    (labels : List (PoolStep Choice)) (final : Pool Request Reply Result Shared)
    (assured : pool.Assured handle discipline waits pre post) (reached : run (step handle) pool labels = some final) :
    final.Assured handle discipline waits pre post :=
  run_invariant (step handle) (fun _ _ => True) (Assured handle discipline waits pre post)
    (fun _ label next _ assured stepped => assured_step stable label next assured stepped) labels pool final assured
    (guarded_of_forall (step handle) labels (fun _ _ _ => trivial) pool) reached

/-- An assured program has not panicked. -/
theorem Assured.ne_panic (assured : pool.Assured handle discipline waits pre post) (thread : Nat) :
    pool.threads[thread]? ≠ some .panic := fun panicked => assured.threads thread .panic panicked

/-- Where no step is possible, each thread has returned or waits where it may. -/
theorem Assured.terminal (assured : pool.Assured handle discipline waits pre post) (terminal : pool.Terminal handle)
    (choice : Choice) (found : pool.threads[thread]? = some program) :
    (∃ result, program = .done result ∧ post thread result pool.shared) ∨
      ∃ request resume, program = .call request resume ∧ waits thread request pool.shared := by
  have own := assured.threads thread program found
  cases program with
  | done result => exact .inl ⟨result, rfl, own pool.shared (.refl assured.invariant)⟩
  | panic => exact own.elim
  | call request resume =>
    refine .inr ⟨request, resume, rfl, ?_⟩
    have stuck := terminal (.call thread choice)
    have answered := own pool.shared (.refl assured.invariant) choice
    rw [step, found] at stuck
    have waiting := Option.map_eq_none_iff.mp stuck
    rw [Program.step] at waiting
    split at waiting
    next answer =>
      rw [answer] at answered
      exact answered
    · cases waiting
    · cases waiting

/-- Where no step is possible and all threads have returned, no program waits to start. -/
theorem Terminal.waiting_eq_nil (terminal : pool.Terminal handle) (positive : 0 < pool.workers)
    (returned : ∀ (thread : Nat) (program : Program Request Reply Result), pool.threads[thread]? = some program →
      program.isDone = true) :
    pool.waiting = [] := by
  have stuck := terminal .start
  rw [step] at stuck
  split at stuck
  next empty => exact empty
  next program rest first =>
    have idle : pool.running = 0 := by
      rw [running, countP_eq_zero]
      intro program member
      obtain ⟨thread, found⟩ := List.mem_iff_getElem?.mp member
      rw [returned thread program found]
      decide
    rw [if_pos (idle ▸ positive)] at stuck
    cases stuck

end Pool

end Pobl.Library
