import Causer.Manager

/-!
# Interleaved calls

Threads call `setWatchpoint` and `disableWatchpointByAddr` at the same time.
Each call first reads a slot without its lock and then, if what it read was
favourable, enters the slot's locked section, which tests again.  Here every
caller has its own position in its call, a locked section is one step, and the
values of the unlocked reads are chosen freely, so they may be out of date by
any amount.
-/

namespace Causer

/-- Where a caller is. -/
inductive CallState
  /-- Not in a call. -/
  | idle
  /-- In `setWatchpoint`, before the unlocked test of a slot; the number of
  slots still to be visited counts this one. -/
  | testing (request : Request) (left : Nat) (sidx : SlotPosition)
  /-- In `setWatchpoint`, waiting for the lock of a slot. -/
  | locking (request : Request) (left : Nat) (sidx : SlotPosition)
  /-- In `disableWatchpointByAddr`, waiting for the lock of the slot that the
  scan returned. -/
  | found (addr : Word) (slot : SlotPosition)

/-- The manager and the position of every caller. -/
structure Calls where
  manager : Manager
  callers : Nat → CallState

/-- One step of a caller, or of the rest of the process. -/
inductive CallLabel
  /-- Call `setWatchpoint`; the slot is what was read from `curIndex`. -/
  | beginSet (caller : Nat) (request : Request) (curIndex : SlotPosition)
  /-- The unlocked test, with the value read from `isUsed`. -/
  | testUsed (caller : Nat) (isUsed : Bool)
  /-- The locked section of `setWatchpoint`, with the ratios it reads. -/
  | lockSet (caller : Nat) (watchedRatio : Word → Int)
  /-- Call `disableWatchpointByAddr`, with the result of its scan. -/
  | beginDisable (caller : Nat) (addr : Word) (scanned : Option SlotPosition)
  /-- The locked section of `disableWatchpointByAddr`. -/
  | lockDisable (caller : Nat)
  /-- A thread is created. -/
  | threadCreate (tid : Nat)
  /-- A thread exits. -/
  | threadExit (position : ThreadPosition)

namespace Calls

/-- The position of a caller that goes on with the next slot. -/
def nextSlot (request : Request) (left : Nat)
    (sidx : SlotPosition) : CallState :=
  match left with
  | left + 2 => .testing request (left + 1) (sidx + 1)
  | _ => .idle

/-- The position of a caller whose scan has ended. -/
def afterScan (addr : Word) : Option SlotPosition → CallState
  | some slot => .found addr slot
  | none => .idle

variable (environment : Environment)

/-- Move one caller. -/
def moveTo (calls : Calls) (caller : Nat) (position : CallState) : Calls :=
  { calls with callers := Function.update calls.callers caller position }

/-- The effect of one step. -/
def step (calls : Calls) : CallLabel → Option Calls
  | .beginSet caller request curIndex =>
      match calls.callers caller with
      | .idle =>
          some (calls.moveTo caller (.testing request maxWatchpoints curIndex))
      | _ => none
  | .testUsed caller isUsed =>
      match calls.callers caller with
      | .testing request left sidx =>
          some (calls.moveTo caller
            (if !isUsed || request.ispreempt then .locking request left sidx
              else nextSlot request left sidx))
      | _ => none
  | .lockSet caller watchedRatio =>
      match calls.callers caller with
      | .locking request left sidx =>
          let (ret, manager) :=
            Manager.setSection environment watchedRatio request sidx
              calls.manager
          some
            { manager := manager
              callers := Function.update calls.callers caller
                (if ret then .idle else nextSlot request left sidx) }
      | _ => none
  | .beginDisable caller addr scanned =>
      match calls.callers caller with
      | .idle =>
          some (calls.moveTo caller (afterScan addr scanned))
      | _ => none
  | .lockDisable caller =>
      match calls.callers caller with
      | .found addr slot =>
          some
            { manager :=
                Manager.disableSection environment addr slot calls.manager
              callers := Function.update calls.callers caller .idle }
      | _ => none
  | .threadCreate tid =>
      (Manager.threadCreate environment tid calls.manager).map fun manager =>
        { calls with manager := manager }
  | .threadExit position =>
      (Manager.step environment calls.manager (.threadExit position)).map
        fun manager => { calls with manager := manager }

/-- Execute a list of steps. -/
abbrev run : Calls → List CallLabel → Option Calls :=
  Machine.run (step environment)

/-- Nobody is in a call. -/
def start (files : DescriptorTable File) (tid : Nat) : Calls where
  manager := Manager.start files tid
  callers := fun _ => .idle

variable {environment}

/-- Everything a step can do to the manager: nothing, unless it is a locked
section of the caller's operation or a thread comes or goes. -/
theorem step_cases
    {calls next : Calls}
    {label : CallLabel}
    (stepped : step environment calls label = some next) :
    next.manager = calls.manager ∨
      (∃ caller watchedRatio request left sidx,
        label = .lockSet caller watchedRatio ∧
          calls.callers caller = .locking request left sidx ∧
          next.manager = (Manager.setSection environment watchedRatio request
            sidx calls.manager).2) ∨
      (∃ caller addr slot,
        label = .lockDisable caller ∧
          calls.callers caller = .found addr slot ∧
          next.manager =
            Manager.disableSection environment addr slot calls.manager) ∨
      (∃ tid,
        label = .threadCreate tid ∧
          Manager.threadCreate environment tid calls.manager =
            some next.manager) ∨
      ∃ position,
        label = .threadExit position ∧
          Manager.step environment calls.manager (.threadExit position) =
            some next.manager := by
  cases label with
  | beginSet caller request curIndex =>
      rw [step] at stepped
      split at stepped
      · rw [Option.some.injEq] at stepped
        exact Or.inl (by rw [← stepped]; rfl)
      · exact absurd stepped (by simp)
  | testUsed caller isUsed =>
      rw [step] at stepped
      split at stepped
      · rw [Option.some.injEq] at stepped
        exact Or.inl (by rw [← stepped]; rfl)
      · exact absurd stepped (by simp)
  | lockSet caller watchedRatio =>
      rw [step] at stepped
      split at stepped
      · next request left sidx position =>
          rw [Option.some.injEq] at stepped
          exact Or.inr (Or.inl ⟨caller, watchedRatio, request, left, sidx,
            rfl, position, by rw [← stepped]⟩)
      · exact absurd stepped (by simp)
  | beginDisable caller addr scanned =>
      rw [step] at stepped
      split at stepped
      · rw [Option.some.injEq] at stepped
        exact Or.inl (by rw [← stepped]; rfl)
      · exact absurd stepped (by simp)
  | lockDisable caller =>
      rw [step] at stepped
      split at stepped
      · next addr slot position =>
          rw [Option.some.injEq] at stepped
          exact Or.inr (Or.inr (Or.inl ⟨caller, addr, slot, rfl, position,
            by rw [← stepped]⟩))
      · exact absurd stepped (by simp)
  | threadCreate tid =>
      obtain ⟨manager, created, rfl⟩ := Option.map_eq_some_iff.mp stepped
      exact Or.inr (Or.inr (Or.inr (Or.inl ⟨tid, rfl, created⟩)))
  | threadExit position =>
      obtain ⟨manager, exited, rfl⟩ := Option.map_eq_some_iff.mp stepped
      exact Or.inr (Or.inr (Or.inr (Or.inr ⟨position, rfl, exited⟩)))

/-- Every step either leaves the manager alone or is one of its actions. -/
theorem step_manager
    {calls next : Calls}
    {label : CallLabel}
    (stepped : step environment calls label = some next) :
    next.manager = calls.manager ∨
      ∃ action,
        Manager.step environment calls.manager action = some next.manager := by
  rcases step_cases stepped with
    same | ⟨_, watchedRatio, request, _, sidx, -, -, result⟩ |
    ⟨_, addr, slot, -, -, result⟩ | ⟨tid, -, created⟩ | ⟨position, -, exited⟩
  · exact Or.inl same
  · exact Or.inr ⟨.setSection watchedRatio request sidx, by
      rw [result, Manager.step]⟩
  · exact Or.inr ⟨.disableSection addr slot, by rw [result, Manager.step]⟩
  · exact Or.inr ⟨.threadCreate tid, created⟩
  · exact Or.inr ⟨.threadExit position, exited⟩

/-- Whatever the callers do, the manager goes through a run of its actions. -/
theorem run_manager
    {calls final : Calls}
    {labels : List CallLabel}
    (executed : run environment calls labels = some final) :
    ∃ actions,
      Manager.run environment calls.manager actions = some final.manager := by
  induction labels generalizing calls with
  | nil =>
      rw [run, Machine.run_nil, Option.some.injEq] at executed
      exact ⟨[], by rw [executed]; rfl⟩
  | cons label labels inductionHypothesis =>
      obtain ⟨next, stepped, rest⟩ := Machine.run_cons_eq_some executed
      obtain ⟨actions, remaining⟩ := inductionHypothesis rest
      rcases step_manager stepped with same | ⟨action, acted⟩
      · exact ⟨actions, by rw [← same, remaining]⟩
      · refine ⟨action :: actions, ?_⟩
        rw [Manager.run, Machine.run_cons, acted]
        exact remaining

end Calls

end Causer
