import Causer.Library.Machine
import Mathlib.Logic.Function.Basic

/-!
# Interleaved threads

Threads with local states take turns on a shared one.  A thread is described by
a partial function of the shared state, its local state and a choice.  The rule
of this module reduces an invariant of all interleavings to obligations about
one step of one thread: each thread has an assertion about the shared state,
stable under a rely relation, and every step establishes its own assertion and
the rely relation of all other threads.  A second rule finds a thread that can
move among threads that wait for each other.
-/

namespace Interleaving

variable {Thread Shared Local Choice : Type*}

/-- A shared state and a local state for every thread. -/
structure State (Thread Shared Local : Type*) where
  shared : Shared
  locals : Thread → Local

/-- The step of one thread. -/
def step [DecidableEq Thread]
    (advance : Thread → Shared → Local → Choice → Option (Shared × Local))
    (state : State Thread Shared Local) (label : Thread × Choice) :
    Option (State Thread Shared Local) :=
  (advance label.1 state.shared (state.locals label.1) label.2).map
    fun moved =>
      { shared := moved.1
        locals := Function.update state.locals label.1 moved.2 }

/-- A fact about the shared state, and the assertion of every thread. -/
structure Invariant (fact : Shared → Prop)
    (assertion : Thread → Shared → Local → Prop)
    (state : State Thread Shared Local) : Prop where
  fact : fact state.shared
  assertion : ∀ thread, assertion thread state.shared (state.locals thread)

variable [DecidableEq Thread]
  {advance : Thread → Shared → Local → Choice → Option (Shared × Local)}

/-- What a step consists of. -/
theorem step_eq_some
    {state next : State Thread Shared Local}
    {label : Thread × Choice}
    (stepped : step advance state label = some next) :
    ∃ shared position,
      advance label.1 state.shared (state.locals label.1) label.2 =
          some (shared, position) ∧
        next =
          { shared := shared
            locals := Function.update state.locals label.1 position } := by
  obtain ⟨⟨shared, position⟩, moved, rfl⟩ := Option.map_eq_some_iff.mp stepped
  exact ⟨shared, position, moved, rfl⟩

/-- A thread that takes no step of a run keeps its local state. -/
theorem run_locals
    {state final : State Thread Shared Local}
    {labels : List (Thread × Choice)}
    {thread : Thread}
    (absent : ∀ label ∈ labels, label.1 ≠ thread)
    (executed : Machine.run (step advance) state labels = some final) :
    final.locals thread = state.locals thread := by
  induction labels generalizing state with
  | nil =>
      rw [Machine.run_nil, Option.some.injEq] at executed
      rw [executed]
  | cons label labels inductionHypothesis =>
      obtain ⟨next, stepped, rest⟩ := Machine.run_cons_eq_some executed
      obtain ⟨first, others⟩ := List.forall_mem_cons.mp absent
      obtain ⟨shared, position, -, rfl⟩ := step_eq_some stepped
      rw [inductionHypothesis others rest]
      exact Function.update_of_ne first.symm ..

/-- A step preserves the invariant when it re-establishes the fact and its own
assertion and gives the others what they rely on. -/
theorem Invariant.step
    {fact : Shared → Prop}
    {assertion : Thread → Shared → Local → Prop}
    {rely : Thread → Shared → Shared → Prop}
    (stable : ∀ thread before after position,
      assertion thread before position → rely thread before after →
      assertion thread after position)
    {state next : State Thread Shared Local}
    {label : Thread × Choice}
    (invariant : Invariant fact assertion state)
    (sound : ∀ shared position,
      advance label.1 state.shared (state.locals label.1) label.2 =
        some (shared, position) →
      fact shared ∧ assertion label.1 shared position ∧
        ∀ other ≠ label.1, rely other state.shared shared)
    (stepped : Interleaving.step advance state label = some next) :
    Invariant fact assertion next := by
  obtain ⟨shared, position, moved, rfl⟩ := step_eq_some stepped
  obtain ⟨factAfter, own, others⟩ := sound shared position moved
  refine ⟨factAfter, fun thread => ?_⟩
  by_cases same : thread = label.1
  · subst same
    simpa using own
  · have kept := stable thread state.shared shared (state.locals thread)
      (invariant.assertion thread) (others thread same)
    simpa [same] using kept

omit [DecidableEq Thread] in
/-- Some unfinished thread can move when each of them that cannot waits for an
unfinished thread of a lower rank. -/
theorem exists_movable
    {unfinished movable : Thread → Prop}
    (rank : Thread → Nat)
    (waits : ∀ thread, unfinished thread → movable thread ∨
      ∃ other, unfinished other ∧ rank other < rank thread)
    {thread : Thread}
    (busy : unfinished thread) :
    ∃ other, unfinished other ∧ movable other := by
  induction bound : rank thread using Nat.strong_induction_on
    generalizing thread with
  | _ bound inductionHypothesis =>
      rcases waits thread busy with moves | ⟨other, otherBusy, lower⟩
      · exact ⟨thread, busy, moves⟩
      · exact inductionHypothesis (rank other) (bound ▸ lower) otherBusy rfl

end Interleaving
