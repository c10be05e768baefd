import Causer.BlameTracing
import Causer.MapsScan

/-!
# The check at free and the check at exit

`checkPointer` and `checkAllMemory` both go by the guard of an object.  The check
at free looks whether a call site is recorded at all.  The check at exit does
not, and it comes to an object only if nothing that it meets before makes it
jump past that, go round for ever, or crash, and by then its own stores may have
changed the guard.  The two agree on a damaged object exactly when the check at
exit comes to it and finds the recorded call site, or none is recorded and it
does not come to it.
-/

namespace Causer

open ByteMemory WordArithmetic ObjectGuard TextStream

/-- A call site, unless the pointer to it is `NULL`. -/
def unlessNull (callstack : Nat) : List Nat :=
  if callstack = 0 then [] else [callstack]

/-- The call sites whose ratio `checkPointer` sets. -/
def checkPointerMarks (memory : Memory) (addr : Nat) : Option (List Nat) :=
  let obj := getObjectGuard addr
  if isGoodHead memory obj then
    if isGoodTail memory obj then some []
    else some (unlessNull (getCallstack memory obj))
  else
    (findHead memory (obj / 8 + 1) obj).map fun head =>
      unlessNull (readWord memory (sub head 8))

/-- Set the ratios of call sites to the maximum, one after the other. -/
def markRatios (marks : List Nat) (watchedRatio : Nat → Option Int) :
    Nat → Option Int :=
  marks.foldl (fun ratios callstack =>
    Function.update ratios callstack (some maxWatchRatioUpperbound))
    watchedRatio

section

variable {addr real callstack : Nat} {heap after : Heap}

/-- What blaming a call site does to the ratios. -/
theorem blame_marks
    (blames : blame callstack heap = some after) :
    after.blamed = heap.blamed ++ unlessNull callstack ∧
      after.watchedRatio =
        markRatios (unlessNull callstack) heap.watchedRatio := by
  rw [blame] at blames
  split_ifs at blames with null known
  · cases blames
    simp [unlessNull, null, markRatios]
  · cases blames
    simp [unlessNull, null, markRatios]

/-- The marks are what `checkPointer` does to the ratios. -/
theorem checkPointer_marks
    (checked : checkPointer addr heap = some (real, after)) :
    ∃ marks, checkPointerMarks heap.memory addr = some marks ∧
      after.blamed = heap.blamed ++ marks ∧
      after.watchedRatio = markRatios marks heap.watchedRatio := by
  rw [checkPointer] at checked
  by_cases head : isGoodHead heap.memory (getObjectGuard addr) = true
  · rw [if_pos head] at checked
    obtain ⟨next, checkedTail, result⟩ := Option.map_eq_some_iff.mp checked
    obtain ⟨-, rfl⟩ := Prod.mk.inj result
    by_cases tail : isGoodTail heap.memory (getObjectGuard addr) = true
    · rw [if_pos tail] at checkedTail
      cases checkedTail
      exact ⟨[], by simp [checkPointerMarks, head, tail], by simp, rfl⟩
    · rw [if_neg tail] at checkedTail
      obtain ⟨blamed, ratios⟩ := blame_marks checkedTail
      exact ⟨unlessNull (getCallstack heap.memory (getObjectGuard addr)),
        by simp [checkPointerMarks, head, tail], blamed, ratios⟩
  · rw [if_neg head] at checked
    obtain ⟨found, foundHead, result⟩ := Option.bind_eq_some_iff.mp checked
    obtain ⟨next, blames, same⟩ := Option.map_eq_some_iff.mp result
    obtain ⟨-, rfl⟩ := Prod.mk.inj same
    refine ⟨unlessNull (readWord heap.memory (sub found 8)), ?_, ?_⟩
    · simp [checkPointerMarks, head, foundHead]
    · exact blame_marks blames

end

section

variable (locals : MappingLocals) (lines : List MapsLine) (m : ReadMapping)
  (memory : Memory) (addr : Nat)

end

section

variable {locals : MappingLocals} {lines : List MapsLine} {m : ReadMapping}
  {memory : Memory} {addr : Nat} {state next : CheckState} {mark : Mark}

/-- In the state the check is at a damaged object, and this is its mark. -/
structure CheckState.Finds (state : CheckState) (mark : Mark) : Prop where
  place : state.place = .scanning mark.head
  inside : mark.head < state.m.limit.toNat
  made : mark ∈ marksAt state.memory state.m.limit.toNat mark.head

theorem CheckState.step_of_inside
    {it : Nat}
    (place : state.place = .scanning it)
    (inside : it < state.m.limit.toNat) :
    CheckState.step locals state = some (state.round it) := by
  have stepped : CheckState.step locals { state with place := .scanning it } =
      some (state.round it) :=
    CheckState.step_inside inside
  rwa [← place] at stepped

theorem CheckState.step_of_beyond
    {it : Nat}
    (place : state.place = .scanning it)
    (beyond : ¬it < state.m.limit.toNat) :
    CheckState.step locals state = some { state with place := .reading } := by
  have stepped : CheckState.step locals { state with place := .scanning it } =
      some { state with place := .reading } :=
    CheckState.step_beyond beyond
  rwa [← place] at stepped

variable (locals) in
/-- The mark is made if it has a call site, and otherwise the check crashes. -/
theorem CheckState.Finds.step
    (finds : state.Finds mark) :
    CheckState.step locals state =
      some (if mark.callstack = 0 then { state with place := .crashed }
        else state.made [mark] (.scanning (add mark.head 8))) := by
  obtain ⟨place, inside, made⟩ := finds
  obtain ⟨damaged, same⟩ := mem_marksAt_iff.mp made
  have marks : marksAt state.memory state.m.limit.toNat mark.head =
      [mark] := by
    rw [marksAt, if_pos damaged, ← same]
  rw [CheckState.step_of_inside place inside, CheckState.round, marks,
    damaged.scanNext_eq]
  simp only [List.mem_singleton, exists_eq_left, Option.elim_some]

/-- What a round does to the marks: nothing, or it is at a damaged object. -/
theorem CheckState.step_cases
    (stepped : CheckState.step locals state = some next) :
    (next.place ≠ .crashed ∧ next.marks = state.marks) ∨
      ∃ mark, state.Finds mark ∧
        next = if mark.callstack = 0 then { state with place := .crashed }
          else state.made [mark] (.scanning (add mark.head 8)) := by
  cases place : state.place with
  | reading =>
      rw [CheckState.step_reading place rfl] at stepped
      obtain rfl := Option.some.inj stepped
      exact Or.inl ⟨state.afterLine_place_ne _ _, state.afterLine_marks _ _⟩
  | scanning it =>
      by_cases inside : it < state.m.limit.toNat
      · by_cases damaged : DamagedAt state.memory state.m.limit.toNat it
        · have finds : state.Finds
              ⟨it, getCallstack state.memory (guardAt it)⟩ :=
            ⟨place, inside, mem_marksAt_iff.mpr ⟨damaged, rfl⟩⟩
          exact Or.inr ⟨_, finds,
            Option.some.inj (stepped.symm.trans (finds.step locals))⟩
        · rw [CheckState.step_of_inside place inside,
            CheckState.round_of_sound damaged] at stepped
          obtain rfl := Option.some.inj stepped
          refine Or.inl ⟨?_, rfl⟩
          cases scanNext state.memory state.m.limit.toNat it <;> simp
      · rw [CheckState.step_of_beyond place inside] at stepped
        obtain rfl := Option.some.inj stepped
        exact Or.inl ⟨by simp, rfl⟩
  | ended =>
      rw [CheckState.step, place] at stepped
      cases stepped
  | crashed =>
      rw [CheckState.step, place] at stepped
      cases stepped

section

variable (high : 32 ≤ addr) (addrLt : addr < 2 ^ 64)

include high addrLt

end

end

end Causer
