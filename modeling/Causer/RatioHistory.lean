import Causer.Library.Machine
import Causer.Callstack
import Mathlib.Data.List.Perm.Basic

/-!
# Ratios from run to run

A chain of program runs that hand their call sites on through the history file,
which is taken record by record.  Within a run the steps are those of
`startWatch`, which finds or adds a call site and later updates it, and the
marks of `checkPointer` and `checkAllMemory`; the run ends with
`saveHistoryInfo`, and the next one begins with `loadHistoryInfo`.  Which order
the saved call sites come in and where the next run maps their code is chosen
outside.
-/

namespace Causer

/-- An entry of `_csMap` or a record of the file. -/
structure Site where
  /-- Not a field of the source: the entry that was added, and the records and
  entries that come from it in later runs, have one number. -/
  serial : Nat
  /-- The key of the entry. -/
  key : Callstack
  /-- The value of the entry, or the record. -/
  value : Callstack
  /-- Not a field of the source: how often it has been marked. -/
  marks : Nat
  deriving DecidableEq

/-- A run of the program and the file that it has been given or has left. -/
structure RunState where
  /-- The entries in the order in which they were added. -/
  entries : List Site
  boostratio : Int
  file : List Site
  /-- How many entries have been added so far, in all runs. -/
  serials : Nat
  /-- The call sites have not been saved yet. -/
  running : Bool

/-- A step of a run, or its end, or the beginning of the next one. -/
inductive RunAction
  /-- `startWatch` looks up its call site. -/
  | findOrAdd (key : Callstack)
  /-- `startWatch` updates an entry, for an object that is watched or not. -/
  | updateWatchedInfo (entry : Nat) (watched : Bool) (depth : Int)
      (frames : Frames)
  /-- An object of an entry is found to be overflowed. -/
  | mark (entry : Nat)
  /-- `saveHistoryInfo` goes through the entries in some order. -/
  | saveHistoryInfo (visited : List Site)
  /-- `loadHistoryInfo` in the next run finds the frames at other addresses. -/
  | loadHistoryInfo (relocate : Word → Word)

namespace Site

/-- The ratio of the call site. -/
abbrev ratio (site : Site) : Int := site.value.watchedRatio

/-- The record that is written for an entry. -/
def record (boostratio : Int) (site : Site) : Site :=
  { site with
    value :=
      { site.value with
        watchedRatio := site.value.writtenRatio boostratio } }

/-- The entry that is inserted for a record. -/
def loaded (relocate : Word → Word) (site : Site) : Site :=
  let value : Callstack :=
    { site.value with stack := relocate ∘ site.value.stack }
  { site with
    key := { value with hashcode := value.hash }
    value := { value with hashcode := value.hash } }

end Site

namespace RunState

/-- No file, and no call site. -/
def start : RunState where
  entries := []
  boostratio := 1
  file := []
  serials := 0
  running := true

@[simp] theorem start_entries : start.entries = [] := rfl

@[simp] theorem start_file : start.file = [] := rfl

/-- `HashMap::findOrAdd`. -/
def findOrAdd (key : Callstack) (state : RunState) : RunState :=
  if state.entries.any fun site => site.key.same key then state
  else
    { state with
      entries := state.entries ++ [⟨state.serials, key, key.reset, 0⟩]
      serials := state.serials + 1 }

/-- Change one entry. -/
def change (entry : Nat) (update : Site → Site) (state : RunState) :
    RunState :=
  { state with entries := state.entries.modify entry update }

@[simp] theorem change_entries
    (entry : Nat) (update : Site → Site) (state : RunState) :
    (state.change entry update).entries = state.entries.modify entry update :=
  rfl

@[simp] theorem change_running
    (entry : Nat) (update : Site → Site) (state : RunState) :
    (state.change entry update).running = state.running :=
  rfl

/-- `causer::saveHistoryInfo`.  A map without entries leaves the file. -/
def saveHistoryInfo (visited : List Site) (state : RunState) : RunState :=
  let boostratio := Callstack.savedBoostratio state.boostratio
    (visited.map Site.value)
  { state with
    boostratio := boostratio
    file :=
      if 0 < state.entries.length then visited.map (Site.record boostratio)
      else state.file
    running := false }

/-- `causer::loadHistoryInfo` in a new process. -/
def loadHistoryInfo (relocate : Word → Word) (state : RunState) :
    RunState :=
  { state with
    entries := (state.file.filter fun site => ¬site.value.depth < 1).map
      (Site.loaded relocate)
    boostratio := 1
    running := true }

/-- The effect of one action. -/
def step (state : RunState) : RunAction → Option RunState
  | .findOrAdd key =>
      if state.running then some (state.findOrAdd key) else none
  | .updateWatchedInfo entry watched depth frames =>
      if state.running ∧ entry < state.entries.length then
        some (state.change entry fun site =>
          { site with
            value := site.value.updateWatchedInfo watched depth frames })
      else none
  | .mark entry =>
      if state.running ∧ entry < state.entries.length then
        some (state.change entry fun site =>
          { site with value := site.value.mark, marks := site.marks + 1 })
      else none
  | .saveHistoryInfo visited =>
      if state.running ∧ visited.Perm state.entries then
        some (state.saveHistoryInfo visited)
      else none
  | .loadHistoryInfo relocate =>
      if state.running then none else some (state.loadHistoryInfo relocate)

/-- Execute a list of actions. -/
abbrev run : RunState → List RunAction → Option RunState :=
  Machine.run step

/-- Everything a step can do. -/
inductive Stepped (state : RunState) : RunAction → RunState → Prop
  | findOrAdd (key : Callstack) (running : state.running = true) :
      Stepped state (.findOrAdd key) (state.findOrAdd key)
  | updateWatchedInfo (entry : Nat) (watched : Bool) (depth : Int)
      (frames : Frames) (running : state.running = true) :
      Stepped state (.updateWatchedInfo entry watched depth frames)
        (state.change entry fun site =>
          { site with
            value := site.value.updateWatchedInfo watched depth frames })
  | mark (entry : Nat) (running : state.running = true) :
      Stepped state (.mark entry)
        (state.change entry fun site =>
          { site with value := site.value.mark, marks := site.marks + 1 })
  | saveHistoryInfo (visited : List Site) (running : state.running = true)
      (perm : visited.Perm state.entries) :
      Stepped state (.saveHistoryInfo visited)
        (state.saveHistoryInfo visited)
  | loadHistoryInfo (relocate : Word → Word)
      (ended : ¬state.running = true) :
      Stepped state (.loadHistoryInfo relocate)
        (state.loadHistoryInfo relocate)

theorem stepped_of_step
    {state next : RunState} {action : RunAction}
    (stepped : step state action = some next) :
    Stepped state action next := by
  cases action with
  | findOrAdd key =>
      simp only [step, Option.ite_none_right_eq_some, Option.some.injEq]
        at stepped
      obtain ⟨running, rfl⟩ := stepped
      exact .findOrAdd key running
  | updateWatchedInfo entry watched depth frames =>
      simp only [step, Option.ite_none_right_eq_some, Option.some.injEq]
        at stepped
      obtain ⟨⟨running, -⟩, rfl⟩ := stepped
      exact .updateWatchedInfo entry watched depth frames running
  | mark entry =>
      simp only [step, Option.ite_none_right_eq_some, Option.some.injEq]
        at stepped
      obtain ⟨⟨running, -⟩, rfl⟩ := stepped
      exact .mark entry running
  | saveHistoryInfo visited =>
      simp only [step, Option.ite_none_right_eq_some, Option.some.injEq]
        at stepped
      obtain ⟨⟨running, perm⟩, rfl⟩ := stepped
      exact .saveHistoryInfo visited running perm
  | loadHistoryInfo relocate =>
      simp only [step, Option.ite_none_left_eq_some, Option.some.injEq]
        at stepped
      obtain ⟨ended, rfl⟩ := stepped
      exact .loadHistoryInfo relocate ended

end RunState

end Causer
