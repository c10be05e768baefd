import Mathlib.Data.List.Infix

/-!
# Labelled partial machines

A machine is a partial step function `State → Label → Option State`.  A run
executes a list of labels and fails as soon as one step is undefined.  This
module supplies the run combinators and the three rules by which facts about
one step become facts about every run: an invariant, an invariant under a
condition that each step meets, and the equivalence that holds when the
condition of a step is exactly what preserves a property.  Two further rules
are about measures: one bounds how many steps of a kind a run can have by what
they use up, the other finds a run that leads to a goal.
-/

namespace Machine

variable {State Label : Type*}

/-- Execute a list of labels, failing at the first undefined step. -/
def run (step : State → Label → Option State) :
    State → List Label → Option State
  | state, [] => some state
  | state, label :: labels =>
      (step state label).bind fun next => run step next labels

@[simp] theorem run_nil
    (step : State → Label → Option State)
    (state : State) :
    run step state [] = some state := rfl

@[simp] theorem run_cons
    (step : State → Label → Option State)
    (state : State)
    (label : Label)
    (labels : List Label) :
    run step state (label :: labels) =
      (step state label).bind fun next => run step next labels := rfl

/-- A run splits at any point of its label list. -/
theorem run_append
    (step : State → Label → Option State)
    (state : State)
    (first second : List Label) :
    run step state (first ++ second) =
      (run step state first).bind fun middle => run step middle second := by
  induction first generalizing state with
  | nil => rfl
  | cons label labels inductionHypothesis =>
      rw [List.cons_append, run_cons, run_cons]
      cases step state label with
      | none => rfl
      | some next => exact inductionHypothesis next

/-- Two successful runs in a row. -/
theorem run_append_eq_some
    {step : State → Label → Option State}
    {state middle final : State}
    {first second : List Label}
    (executedFirst : run step state first = some middle)
    (executedSecond : run step middle second = some final) :
    run step state (first ++ second) = some final := by
  rw [run_append, executedFirst]
  exact executedSecond

/-- The two parts of a successful run. -/
theorem run_split
    {step : State → Label → Option State}
    {state final : State}
    {first second : List Label}
    (executed : run step state (first ++ second) = some final) :
    ∃ middle, run step state first = some middle ∧
      run step middle second = some final := by
  rw [run_append] at executed
  exact Option.bind_eq_some_iff.mp executed

/-- The first step of a successful run and the run that follows it. -/
theorem run_cons_eq_some
    {step : State → Label → Option State}
    {state final : State}
    {label : Label}
    {labels : List Label}
    (executed : run step state (label :: labels) = some final) :
    ∃ next, step state label = some next ∧
      run step next labels = some final := by
  rw [run_cons] at executed
  exact Option.bind_eq_some_iff.mp executed

/-- Every step taken along the run meets a condition on the state before it. -/
def Along (step : State → Label → Option State)
    (condition : State → Label → Prop) :
    State → List Label → Prop
  | _, [] => True
  | state, label :: labels =>
      condition state label ∧
        ∀ next, step state label = some next →
          Along step condition next labels

/-- Whether a condition holds along a run can be computed. -/
instance decidableAlong
    (step : State → Label → Option State)
    (condition : State → Label → Prop)
    [∀ state label, Decidable (condition state label)] :
    ∀ state labels, Decidable (Along step condition state labels)
  | _, [] => isTrue trivial
  | state, label :: labels =>
      match stepped : step state label with
      | none =>
          decidable_of_iff (condition state label) (by simp [Along, stepped])
      | some next =>
          have := decidableAlong step condition next labels
          decidable_of_iff
            (condition state label ∧ Along step condition next labels)
            (by simp [Along, stepped])

/-- A condition along a run whose first step is known. -/
theorem along_cons
    {step : State → Label → Option State}
    {condition : State → Label → Prop}
    {state next : State}
    {label : Label}
    {labels : List Label}
    (stepped : step state label = some next)
    (met : condition state label)
    (rest : Along step condition next labels) :
    Along step condition state (label :: labels) := by
  refine ⟨met, fun other otherStep => ?_⟩
  rw [stepped, Option.some.injEq] at otherStep
  exact otherStep ▸ rest

/-- A condition along a run in two parts. -/
theorem along_append
    {step : State → Label → Option State}
    {condition : State → Label → Prop}
    {state middle : State}
    {first second : List Label}
    (along : Along step condition state (first ++ second))
    (executed : run step state first = some middle) :
    Along step condition state first ∧
      Along step condition middle second := by
  induction first generalizing state with
  | nil =>
      rw [run_nil, Option.some.injEq] at executed
      subst executed
      exact ⟨trivial, along⟩
  | cons label labels inductionHypothesis =>
      obtain ⟨next, stepped, rest⟩ := Option.bind_eq_some_iff.mp executed
      obtain ⟨met, later⟩ := along
      obtain ⟨alongRest, alongSecond⟩ :=
        inductionHypothesis (later next stepped) rest
      exact ⟨along_cons stepped met alongRest, alongSecond⟩

/-- Two conditions that both hold along a run. -/
theorem along_and
    {step : State → Label → Option State}
    {first second : State → Label → Prop}
    {state : State}
    {labels : List Label}
    (alongFirst : Along step first state labels)
    (alongSecond : Along step second state labels) :
    Along step (fun state label => first state label ∧ second state label)
      state labels := by
  induction labels generalizing state with
  | nil => trivial
  | cons label labels inductionHypothesis =>
      exact ⟨⟨alongFirst.1, alongSecond.1⟩, fun next stepped =>
        inductionHypothesis (alongFirst.2 next stepped)
          (alongSecond.2 next stepped)⟩

/-- A property holds in every state that the run reaches, its first included. -/
def Always (step : State → Label → Option State)
    (property : State → Prop) :
    State → List Label → Prop
  | state, [] => property state
  | state, label :: labels =>
      property state ∧
        ∀ next, step state label = some next →
          Always step property next labels

/-- What holds in every state holds in the first. -/
theorem always_head
    {step : State → Label → Option State}
    {property : State → Prop}
    {state : State}
    {labels : List Label}
    (always : Always step property state labels) :
    property state := by
  cases labels with
  | nil => exact always
  | cons _ _ => exact always.1

/-- Some step taken along the run meets a condition on the state before it. -/
def Sometime (step : State → Label → Option State)
    (condition : State → Label → Prop) :
    State → List Label → Prop
  | _, [] => False
  | state, label :: labels =>
      condition state label ∨
        ∃ next, step state label = some next ∧
          Sometime step condition next labels

/-- An invariant that conditional steps preserve holds at the end of every run
whose steps all meet the condition. -/
theorem run_invariant
    {step : State → Label → Option State}
    {condition : State → Label → Prop}
    {invariant : State → Prop}
    (preserved : ∀ state label next, invariant state →
      condition state label → step state label = some next →
      invariant next)
    {state final : State}
    {labels : List Label}
    (initially : invariant state)
    (along : Along step condition state labels)
    (executed : run step state labels = some final) :
    invariant final := by
  induction labels generalizing state with
  | nil =>
      rw [run_nil, Option.some.injEq] at executed
      exact executed ▸ initially
  | cons label labels inductionHypothesis =>
      obtain ⟨next, stepped, rest⟩ := run_cons_eq_some executed
      have nextInvariant :=
        preserved state label next initially along.1 stepped
      exact inductionHypothesis nextInvariant (along.2 next stepped) rest

/-- What an invariant and the condition of each step imply of the step holds
along every run whose steps meet the condition. -/
theorem along_of_invariant
    {step : State → Label → Option State}
    {condition property : State → Label → Prop}
    {invariant : State → Prop}
    (preserved : ∀ state label next, invariant state →
      condition state label → step state label = some next →
      invariant next)
    (met : ∀ state label, invariant state → condition state label →
      property state label)
    {state : State}
    {labels : List Label}
    (initially : invariant state)
    (along : Along step condition state labels) :
    Along step property state labels := by
  induction labels generalizing state with
  | nil => trivial
  | cons label labels inductionHypothesis =>
      refine ⟨met state label initially along.1, fun next stepped => ?_⟩
      exact inductionHypothesis
        (preserved state label next initially along.1 stepped)
        (along.2 next stepped)

/-- The trivial condition holds along every run. -/
theorem along_true
    (step : State → Label → Option State)
    (state : State)
    (labels : List Label) :
    Along step (fun _ _ => True) state labels := by
  induction labels generalizing state with
  | nil => trivial
  | cons label labels inductionHypothesis =>
      exact ⟨trivial, fun next _ => inductionHypothesis next⟩

/-- A condition that every label of the run meets in every state. -/
theorem along_of_forall
    {step : State → Label → Option State}
    {condition : Label → Prop}
    {state : State}
    {labels : List Label}
    (met : ∀ label ∈ labels, condition label) :
    Along step (fun _ label => condition label) state labels := by
  induction labels generalizing state with
  | nil => trivial
  | cons label labels inductionHypothesis =>
      refine ⟨met label List.mem_cons_self, fun next _ => ?_⟩
      exact inductionHypothesis fun other member =>
        met other (List.mem_cons_of_mem label member)

/-- An invariant that every step preserves holds at the end of every run. -/
theorem run_invariant_of_step
    {step : State → Label → Option State}
    {invariant : State → Prop}
    (preserved : ∀ state label next, invariant state →
      step state label = some next → invariant next)
    {state final : State}
    {labels : List Label}
    (initially : invariant state)
    (executed : run step state labels = some final) :
    invariant final :=
  run_invariant
    (fun current label next holds _ stepped =>
      preserved current label next holds stepped)
    initially (along_true step state labels) executed

/-- If each step of a machine is a step of another one as seen through a view,
or changes nothing that is seen, then so is each of its runs, and what holds of
the steps of the one holds of those of the other. -/
theorem exists_run_view
    {Seen Action : Type*}
    {step : State → Label → Option State}
    {seenStep : Seen → Action → Option Seen}
    (view : State → Seen)
    {condition : State → Label → Prop}
    {seenCondition : Seen → Action → Prop}
    (shown : ∀ state label next, condition state label →
      step state label = some next →
      view next = view state ∨
        ∃ action, seenCondition (view state) action ∧
          seenStep (view state) action = some (view next))
    {state final : State}
    {labels : List Label}
    (along : Along step condition state labels)
    (executed : run step state labels = some final) :
    ∃ actions, Along seenStep seenCondition (view state) actions ∧
      run seenStep (view state) actions = some (view final) := by
  induction labels generalizing state with
  | nil =>
      rw [run_nil, Option.some.injEq] at executed
      exact ⟨[], trivial, congrArg (some ∘ view) executed⟩
  | cons label labels inductionHypothesis =>
      obtain ⟨next, stepped, rest⟩ := run_cons_eq_some executed
      obtain ⟨actions, met, seen⟩ :=
        inductionHypothesis (along.2 next stepped) rest
      rcases shown state label next along.1 stepped with
        same | ⟨action, here, moved⟩
      · rw [same] at met seen
        exact ⟨actions, met, seen⟩
      · refine ⟨action :: actions, along_cons moved here met, ?_⟩
        rw [run_cons, moved]
        exact seen

/-- When an invariant makes the condition of a step exactly what preserves a
property, the property holds in every state of a run if and only if every step
of the run meets the condition. -/
theorem always_iff_along_of_invariant
    {step : State → Label → Option State}
    {condition : State → Label → Prop}
    {invariant property : State → Prop}
    (preserved : ∀ state label next, invariant state →
      step state label = some next → invariant next)
    (exact_step : ∀ state label next, invariant state → property state →
      step state label = some next →
      (property next ↔ condition state label))
    {state final : State}
    {labels : List Label}
    (initially : invariant state)
    (holds : property state)
    (executed : run step state labels = some final) :
    Always step property state labels ↔
      Along step condition state labels := by
  induction labels generalizing state with
  | nil => exact ⟨fun _ => trivial, fun _ => holds⟩
  | cons label labels inductionHypothesis =>
      obtain ⟨next, stepped, rest⟩ := run_cons_eq_some executed
      have atStep := exact_step state label next initially holds stepped
      have nextInvariant := preserved state label next initially stepped
      have only : ∀ other, step state label = some other → other = next :=
        fun other otherStep => by
          rw [stepped, Option.some.injEq] at otherStep
          exact otherStep.symm
      constructor
      · rintro ⟨_, always⟩
        have nextAlways := always next stepped
        have nextHolds := always_head nextAlways
        refine ⟨atStep.mp nextHolds, fun other otherStep => ?_⟩
        rw [only other otherStep]
        exact (inductionHypothesis nextInvariant nextHolds rest).mp nextAlways
      · rintro ⟨condition, along⟩
        have nextHolds := atStep.mpr condition
        refine ⟨holds, fun other otherStep => ?_⟩
        rw [only other otherStep]
        exact (inductionHypothesis nextInvariant nextHolds rest).mpr
          (along next stepped)

/-- When the condition of a step is exactly what preserves a property, the
property holds in every state of a run if and only if every step of the run
meets the condition. -/
theorem always_iff_along
    {step : State → Label → Option State}
    {condition : State → Label → Prop}
    {property : State → Prop}
    (exact_step : ∀ state label next, property state →
      step state label = some next →
      (property next ↔ condition state label))
    {state final : State}
    {labels : List Label}
    (holds : property state)
    (executed : run step state labels = some final) :
    Always step property state labels ↔
      Along step condition state labels :=
  always_iff_along_of_invariant (fun _ _ _ _ _ => trivial)
    (fun current label next _ => exact_step current label next)
    trivial holds executed

/-- How many steps of a run are of a kind. -/
def countAlong (step : State → Label → Option State)
    (kind : State → Label → Bool) :
    State → List Label → Nat
  | _, [] => 0
  | state, label :: labels =>
      (if kind state label then 1 else 0) +
        (step state label).elim 0 fun next => countAlong step kind next labels

/-- If the steps of a kind decrease a measure that no other step increases until
a goal is reached, which is not lost again, then a run has no more of them than
the measure says, or has reached the goal. -/
theorem goal_or_countAlong_le
    {step : State → Label → Option State}
    {kind : State → Label → Bool}
    {condition : State → Label → Prop}
    {invariant goal : State → Prop}
    {measure : State → Nat}
    (kept : ∀ state label next, goal state →
      step state label = some next → goal next)
    (pays : ∀ state label next, invariant state → condition state label →
      step state label = some next →
      goal next ∨ invariant next ∧
        (if kind state label then 1 else 0) + measure next ≤ measure state)
    {state final : State}
    {labels : List Label}
    (initially : invariant state)
    (along : Along step condition state labels)
    (executed : run step state labels = some final) :
    goal final ∨ invariant final ∧
      countAlong step kind state labels + measure final ≤ measure state := by
  induction labels generalizing state with
  | nil =>
      rw [run_nil, Option.some.injEq] at executed
      subst executed
      exact Or.inr ⟨initially, by rw [countAlong, Nat.zero_add]⟩
  | cons label labels inductionHypothesis =>
      obtain ⟨next, stepped, rest⟩ := run_cons_eq_some executed
      rcases pays state label next initially along.1 stepped with
        reached | ⟨nextInvariant, paid⟩
      · exact Or.inl (run_invariant_of_step kept reached rest)
      · refine (inductionHypothesis nextInvariant (along.2 next stepped)
          rest).imp_right fun ⟨still, bounded⟩ => ⟨still, ?_⟩
        rw [countAlong, stepped, Option.elim_some]
        omega

/-- If a machine can go on wherever it has not reached a goal, with less left to
do, then some run leads to the goal. -/
theorem exists_run_to_goal
    {step : State → Label → Option State}
    {condition : Label → Prop}
    {invariant goal : State → Prop}
    (measure : State → Nat)
    (advances : ∀ state, invariant state → ¬goal state →
      ∃ label next, condition label ∧ step state label = some next ∧
        invariant next ∧ measure next < measure state)
    {state : State}
    (initially : invariant state) :
    ∃ labels final, (∀ label ∈ labels, condition label) ∧
      run step state labels = some final ∧ invariant final ∧ goal final := by
  induction bound : measure state using Nat.strong_induction_on
    generalizing state with
  | _ bound inductionHypothesis =>
      by_cases reached : goal state
      · exact ⟨[], state, List.forall_mem_nil _, rfl, initially, reached⟩
      · obtain ⟨label, next, allowed, stepped, nextInvariant, less⟩ :=
          advances state initially reached
        obtain ⟨labels, final, allAllowed, executed, outcome⟩ :=
          inductionHypothesis (measure next) (bound ▸ less) nextInvariant rfl
        refine ⟨label :: labels, final,
          List.forall_mem_cons.mpr ⟨allowed, allAllowed⟩, ?_, outcome⟩
        rw [run_cons, stepped]
        exact executed

/-- A fact that only steps of one kind can end does end along every run whose
last step is impossible while it lasts, unless it is such a step itself. -/
theorem sometime_of_ended
    {step : State → Label → Option State}
    {condition : State → Label → Prop}
    {fact : State → Prop}
    (kept : ∀ state label next, fact state →
      step state label = some next → fact next ∨ condition state label)
    {state final : State}
    {labels : List Label}
    {last : Label}
    (holds : fact state)
    (executed : run step state labels = some final)
    (ended : fact final → condition final last) :
    Sometime step condition state (labels ++ [last]) := by
  induction labels generalizing state with
  | nil =>
      rw [run_nil, Option.some.injEq] at executed
      subst executed
      exact Or.inl (ended holds)
  | cons label labels inductionHypothesis =>
      obtain ⟨next, stepped, rest⟩ := run_cons_eq_some executed
      rcases kept state label next holds stepped with still | ends
      · exact Or.inr ⟨next, stepped, inductionHypothesis still rest⟩
      · exact Or.inl ends

end Machine
