import Mathlib.Data.List.Basic

/-!
# Computations that log their effects

A value together with the effects of the computation that produced it, in
order.  The state on which the effects act is left out: a list of effects can
be replayed on any state.
-/

/-- A value and the effects that came before it. -/
@[ext] structure Logged (Effect Value : Type*) where
  value : Value
  effects : List Effect

namespace Logged

universe u

variable {Effect State : Type*} {Value Result : Type u}

/-- One effect, and no value of interest. -/
def log (effect : Effect) : Logged Effect PUnit := ⟨⟨⟩, [effect]⟩

instance : Monad (Logged Effect) where
  pure value := ⟨value, []⟩
  bind first next :=
    ⟨(next first.value).value, first.effects ++ (next first.value).effects⟩

@[simp] theorem pure_value
    (value : Value) :
    (pure value : Logged Effect Value).value = value := rfl

@[simp] theorem pure_effects
    (value : Value) :
    (pure value : Logged Effect Value).effects = [] := rfl

@[simp] theorem bind_value
    (first : Logged Effect Value)
    (next : Value → Logged Effect Result) :
    (first >>= next).value = (next first.value).value := rfl

/-- The effects of two computations in a row. -/
@[simp] theorem bind_effects
    (first : Logged Effect Value)
    (next : Value → Logged Effect Result) :
    (first >>= next).effects =
      first.effects ++ (next first.value).effects := rfl

@[simp] theorem map_value
    (change : Value → Result)
    (logged : Logged Effect Value) :
    (change <$> logged).value = change logged.value := rfl

@[simp] theorem map_effects
    (change : Value → Result)
    (logged : Logged Effect Value) :
    (change <$> logged).effects = logged.effects :=
  List.append_nil logged.effects

@[simp] theorem log_effects
    (effect : Effect) :
    (log effect).effects = [effect] := rfl

/-- Replay effects on a state, the first one first. -/
def replay (act : Effect → State → State) (effects : List Effect)
    (state : State) : State :=
  effects.foldl (fun state effect => act effect state) state

@[simp] theorem replay_nil
    (act : Effect → State → State)
    (state : State) :
    replay act [] state = state := rfl

@[simp] theorem replay_cons
    (act : Effect → State → State)
    (effect : Effect)
    (effects : List Effect)
    (state : State) :
    replay act (effect :: effects) state =
      replay act effects (act effect state) := rfl

@[simp] theorem replay_append
    (act : Effect → State → State)
    (first second : List Effect)
    (state : State) :
    replay act (first ++ second) state =
      replay act second (replay act first state) :=
  List.foldl_append

/-- Run a logged computation on a state. -/
def runOn (act : Effect → State → State) (logged : Logged Effect Value)
    (state : State) : Value × State :=
  (logged.value, replay act logged.effects state)

@[simp] theorem runOn_pure
    (act : Effect → State → State)
    (value : Value)
    (state : State) :
    runOn act (pure value) state = (value, state) := rfl

@[simp] theorem runOn_log
    (act : Effect → State → State)
    (effect : Effect)
    (state : State) :
    runOn act (log effect) state = (⟨⟩, act effect state) := rfl

/-- Two computations run in a row. -/
@[simp] theorem runOn_bind
    (act : Effect → State → State)
    (first : Logged Effect Value)
    (next : Value → Logged Effect Result)
    (state : State) :
    runOn act (first >>= next) state =
      runOn act (next (runOn act first state).1) (runOn act first state).2 := by
  rw [runOn, bind_effects, replay_append]
  rfl

end Logged
