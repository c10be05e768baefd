import Causer.DeadlockFreedom

/-!
# Traps and the flag of a thread

A watchpoint stops its thread wherever that is, and `trapHandler` runs on top of
what it has interrupted.  What keeps the tool from watching and reporting itself
is the flag `isWatching` of every thread: wrappers of library functions,
`malloc`, `pthread_create` and `fork` turn it off and on again, they nest, and
the handler leaves at once when it is off.  Here a step of a thread is one of
`Locking`, one of a wrapper, or one of its handler; a trap may come at any time.
The handler takes the global lock for reading, beside what its thread has.
-/

namespace Causer

open Locks

namespace Trapping

/-- A function of the tool that has turned the flag off and has not returned. -/
inductive Wrapper
  /-- A function between `COND_DISABLE` and `COND_ENABLE`, with what `isCauser`
  returned: `fopen`, `open`, `fread`, `backtrace`, `setlocale`, `unlink`,
  `calloc` and the like. -/
  | cond (watching : Bool)
  /-- `pthread_create`, which has the same brackets around `thread_create`. -/
  | pthreadCreate (watching : Bool)
  /-- `xxmalloc_install_watchpoint`, around `startWatch`. -/
  | install
  /-- `fork`, with the next slot of its loop. -/
  | fork (i : Nat)
  /-- `finalizer`, which does not turn the flag on again. -/
  | finalizer
  deriving DecidableEq

/-- Where `trapHandler` is. -/
inductive Handling
  /-- Before the test of the flag. -/
  | entered
  /-- The flag is off; before it is known whether the access is benign. -/
  | judging
  | acquiring
  | reporting
  | releasing
  | leaving
  deriving DecidableEq

/-- What the threads share. -/
structure Shared where
  locking : Locking.Shared
  /-- The threads whose handlers have the global lock for reading. -/
  handlers : Finset Nat

/-- A thread: where it is, its flag, and what runs on top. -/
structure Local where
  caller : Locking.Caller
  isWatching : Bool
  /-- The wrappers that have not returned, the last one first. -/
  wrappers : List Wrapper
  handling : Option Handling

/-- What a thread does next. -/
inductive Choice
  /-- A step of the operation that the thread is in, or the call of one. -/
  | base (choice : Locking.Choice)
  /-- The call of a function with `COND_DISABLE`. -/
  | cond
  | pthreadCreate
  | install
  | fork
  /-- The loop of `fork` goes on. -/
  | forkNext
  | finalizer
  /-- The wrapper that was called last returns. -/
  | leave
  /-- A watchpoint stops the thread. -/
  | trap
  /-- The next instruction of the handler, with its verdict. -/
  | handle (benign : Bool)

variable (environment : Environment)

/-- The next instruction takes the global lock for writing. -/
def locksForWriting : Locking.Position → Bool
  | .creating => true
  | .exiting => true
  | _ => false

/-- A step of an operation.  Who takes the global lock for writing waits for the
handlers that have it. -/
def operate (thread : Nat) (shared : Shared) (own : Local)
    (choice : Locking.Choice) : Option (Shared × Local) :=
  if locksForWriting own.caller.position ∧ shared.handlers ≠ ∅ then none
  else
    (Locking.advance environment thread shared.locking own.caller choice).map
      fun moved =>
        ({ shared with locking := moved.1 }, { own with caller := moved.2 })

/-- Call a wrapper, which turns the flag off. -/
def enter (own : Local) (wrapper : Wrapper) : Local :=
  { own with isWatching := false, wrappers := wrapper :: own.wrappers }

/-- The flag after the return of a wrapper. -/
def Wrapper.enables (isWatching : Bool) : Wrapper → Bool
  | .cond watching => watching || isWatching
  | .pthreadCreate watching => watching || isWatching
  | .install => true
  | .fork _ => true
  | .finalizer => isWatching

/-- The wrapper can return: the loop of `fork` is over, and `finalizer` is the
last that a process runs. -/
def Wrapper.Returns : Wrapper → Prop
  | .fork i => maxWatchpoints ≤ i
  | .finalizer => False
  | _ => True

instance : DecidablePred Wrapper.Returns
  | .cond _ => isTrue trivial
  | .pthreadCreate _ => isTrue trivial
  | .install => isTrue trivial
  | .fork i => inferInstanceAs (Decidable (maxWatchpoints ≤ i))
  | .finalizer => isFalse id

/-- Calls of the operations, where the program makes them.  `startThread` turns
the flag off and on, and off before `threadExit`. -/
def perform (thread : Nat) (shared : Shared) (own : Local) :
    Locking.Choice → Option (Shared × Local)
  | .setWatchpoint request =>
      if own.wrappers.head? = some .install then
        operate environment thread shared own (.setWatchpoint request)
      else none
  | .disableWatchpointByAddr addr =>
      if own.isWatching then
        operate environment thread shared own (.disableWatchpointByAddr addr)
      else none
  | .threadCreate => none
  | .threadExit =>
      if own.wrappers = [] then
        operate environment thread shared { own with isWatching := false }
          .threadExit
      else none
  | .spawn child => operate environment thread shared own (.spawn child)
  | .start =>
      operate environment thread shared
        { own with isWatching := false, wrappers := [] } .start
  | .proceed watchedRatio =>
      match own.caller.position with
      | .childMeeting _ =>
          operate environment thread shared { own with isWatching := true }
            (.proceed watchedRatio)
      | _ => operate environment thread shared own (.proceed watchedRatio)

/-- `trapHandler`. -/
def trapHandler (thread : Nat) (shared : Shared) (own : Local)
    (benign : Bool) : Handling → Option (Shared × Local)
  | .entered =>
      if own.isWatching then
        some (shared, { own with
          isWatching := false
          handling := some .judging })
      else some (shared, { own with handling := none })
  | .judging =>
      if benign then some (shared, { own with handling := some .leaving })
      else some (shared, { own with handling := some .acquiring })
  | .acquiring =>
      if shared.locking.rwlock.writer = none then
        some ({ shared with handlers := insert thread shared.handlers },
          { own with handling := some .reporting })
      else none
  | .reporting => some (shared, { own with handling := some .releasing })
  | .releasing =>
      some ({ shared with handlers := shared.handlers.erase thread },
        { own with handling := some .leaving })
  | .leaving =>
      some (shared, { own with isWatching := true, handling := none })

/-- The step of a thread in none of its handlers. -/
def advanceOutside (thread : Nat) (shared : Shared) (own : Local) :
    Choice → Option (Shared × Local)
  | .base choice => perform environment thread shared own choice
  | .cond =>
      match own.caller.position with
      | .idle => some (shared, enter own (.cond own.isWatching))
      | _ => none
  | .pthreadCreate =>
      if own.wrappers = [] then
        operate environment thread shared
          (enter own (.pthreadCreate own.isWatching)) .threadCreate
      else none
  | .install =>
      match own.caller.position with
      | .idle =>
          if own.isWatching then some (shared, enter own .install) else none
      | _ => none
  | .fork =>
      match own.caller.position, own.wrappers with
      | .idle, [] => some (shared, enter own (.fork 0))
      | _, _ => none
  | .forkNext =>
      match own.wrappers with
      | .fork i :: outer =>
          if i < maxWatchpoints then
            operate environment thread shared
              { own with wrappers := .fork (i + 1) :: outer }
              (.disableWatchpointByAddr
                (shared.locking.manager.wp (Fin.ofNat _ i)).addr)
          else none
      | _ => none
  | .finalizer =>
      match own.caller.position, own.wrappers with
      | .idle, [] => some (shared, enter own .finalizer)
      | _, _ => none
  | .leave =>
      match own.caller.position, own.wrappers with
      | .idle, wrapper :: outer =>
          if wrapper.Returns then
            some (shared, { own with
              isWatching := wrapper.enables own.isWatching
              wrappers := outer })
          else none
      | _, _ => none
  | .trap =>
      if own.caller.position.present then
        some (shared, { own with handling := some .entered })
      else none
  | .handle _ => none

/-- The step of a thread. -/
def advance (thread : Nat) (shared : Shared) (own : Local) (choice : Choice) :
    Option (Shared × Local) :=
  match own.handling with
  | none => advanceOutside environment thread shared own choice
  | some handling =>
      match choice with
      | .handle benign => trapHandler thread shared own benign handling
      | _ => none

/-- The threads and what they share. -/
abbrev State := Interleaving.State Nat Shared Local

/-- One step of one thread. -/
abbrev step : State → Nat × Choice → Option State :=
  Interleaving.step (advance environment)

/-- Execute a list of steps. -/
abbrev run : State → List (Nat × Choice) → Option State :=
  Machine.run (step environment)

/-- Only the initial thread runs, and `causer_libc_start_main` has turned its
flag on. -/
def start (files : DescriptorTable File) (tid : Nat) : State where
  shared := ⟨(Locking.start files tid).shared, ∅⟩
  locals := fun thread =>
    { caller := (Locking.start files tid).locals thread
      isWatching := thread == 0
      wrappers := []
      handling := none }

/-! ## Where the flag is on -/

/-- The part of the program that a thread is in. -/
inductive Area
  | absent
  /-- The application, the libraries that it calls, and `stopWatch`. -/
  | application
  /-- The prologue of `startThread`. -/
  | starting
  /-- `threadExit`. -/
  | exiting
  /-- `setWatchpoint`. -/
  | installing
  /-- `thread_create`. -/
  | creating
  deriving DecidableEq

def area : Locking.Position → Area
  | .absent => .absent
  | .idle => .application
  | .scanning _ => .application
  | .found .. => .application
  | .rechecking .. => .application
  | .stopAcquiring .. => .application
  | .disabling .. => .application
  | .stopReleasing _ => .application
  | .stopUnlocking _ => .application
  | .initializing => .starting
  | .watching => .starting
  | .childArriving => .starting
  | .childMeeting _ => .starting
  | .exiting => .exiting
  | .exitDisabling => .exiting
  | .exitReleasing => .exiting
  | .creating => .creating
  | .allocating => .creating
  | .spawning _ => .creating
  | .arriving .. => .creating
  | .meeting .. => .creating
  | .inserting _ => .creating
  | .createReleasing => .creating
  | .testing .. => .installing
  | .locking .. => .installing
  | .locked .. => .installing
  | .acquiring .. => .installing
  | .writing .. => .installing
  | .releasing .. => .installing
  | .unlocking .. => .installing

/-- Only functions of libraries are called inside other wrappers, and they find
the flag off there. -/
def Nested : List Wrapper → Prop
  | [] => True
  | .cond watching :: outer => watching = outer.isEmpty ∧ Nested outer
  | .pthreadCreate watching :: outer => watching = true ∧ outer = []
  | .install :: outer => outer = []
  | .fork _ :: outer => outer = []
  | .finalizer :: outer => outer = []

/-- The handler has found the flag on. -/
def Handling.Active : Option Handling → Prop
  | none => False
  | some .entered => False
  | _ => True

instance : DecidablePred Handling.Active
  | none => isFalse id
  | some .entered => isFalse id
  | some .judging => isTrue trivial
  | some .acquiring => isTrue trivial
  | some .reporting => isTrue trivial
  | some .releasing => isTrue trivial
  | some .leaving => isTrue trivial

/-- Whether wrappers are open in a part of the program. -/
def Area.Admits : Area → List Wrapper → Prop
  | .absent, wrappers => wrappers = []
  | .application, _ => True
  | .starting, wrappers => wrappers = []
  | .exiting, wrappers => wrappers = []
  | .installing, wrappers => wrappers ≠ []
  | .creating, wrappers => wrappers ≠ []

/-- A thread is in the application itself or in the `stopWatch` of a call of
`free` by the application. -/
def Local.Exposed (own : Local) : Prop :=
  area own.caller.position = .application ∧ own.wrappers = []

/-- The flag of a thread is on exactly where an access is the application's, and
its handler is past the test of the flag only there. -/
structure Local.Fits (own : Local) : Prop where
  nested : Nested own.wrappers
  admits : (area own.caller.position).Admits own.wrappers
  flag : own.isWatching = true ↔
    own.Exposed ∧ ¬Handling.Active own.handling
  active : Handling.Active own.handling → own.Exposed
  absent : own.caller.position = .absent → own.handling = none

section Flag

variable {environment : Environment}
variable {thread : Nat} {shared after : Shared} {own moved : Local}

/-- Outside of its handler the flag of a thread is on where it is exposed. -/
theorem Local.Fits.of_outside
    (outside : own.handling = none)
    (nested : Nested own.wrappers)
    (admits : (area own.caller.position).Admits own.wrappers)
    (flag : own.isWatching = true ↔ own.Exposed) :
    own.Fits := by
  refine ⟨nested, admits, ?_, ?_, fun _ => outside⟩
  · rw [flag, outside]
    simp [Handling.Active]
  · intro active
    rw [outside] at active
    exact active.elim

theorem Local.Fits.flag_outside
    (fits : own.Fits)
    (outside : own.handling = none) :
    own.isWatching = true ↔ own.Exposed := by
  have flag := fits.flag
  rw [outside] at flag
  simpa [Handling.Active] using flag

/-- Where a thread is not exposed its flag is off. -/
theorem Local.Fits.off
    (fits : own.Fits)
    (hidden : area own.caller.position ≠ .application ∨ own.wrappers ≠ []) :
    own.isWatching = false := by
  by_contra on
  obtain ⟨exposed, -⟩ := fits.flag.mp (by simpa using on)
  rcases hidden with elsewhere | wrapped
  · exact elsewhere exposed.1
  · exact wrapped exposed.2

/-- The next instruction of an operation stays in it or ends it. -/
theorem proceed_area
    {watchedRatio : Word → Int}
    {current : ThreadPosition}
    {locking reached : Locking.Shared}
    {position next : Locking.Position}
    (proceeds : Locking.proceed environment watchedRatio thread current locking
      position = some (reached, next)) :
    area next = area position ∨
      (area position = .installing ∨ area position = .creating ∨
        ∃ ticket, position = .childMeeting ticket) ∧ next = .idle ∨
      area position = .exiting ∧ next = .absent := by
  have afterSlot (ret : Bool) (request : Request) (left : Nat)
      (sidx : SlotPosition) :
      area (if ret then .idle else Locking.nextSlot request left sidx) =
          .installing ∨
        (if ret then .idle else Locking.nextSlot request left sidx) =
          .idle := by
    cases ret with
    | true => exact Or.inr rfl
    | false =>
        rcases left with _ | _ | left
        · exact Or.inr rfl
        · exact Or.inr rfl
        · exact Or.inl rfl
  cases position with
  | testing request left sidx =>
      simp only [Locking.proceed] at proceeds
      split_ifs at proceeds
      · cases proceeds
        exact Or.inl rfl
      · cases proceeds
        rcases afterSlot false request left sidx with same | ends
        · exact Or.inl same
        · exact Or.inr (Or.inl ⟨Or.inl rfl, ends⟩)
  | unlocking ret request left sidx =>
      cases proceeds
      rcases afterSlot ret request left sidx with same | ends
      · exact Or.inl same
      · exact Or.inr (Or.inl ⟨Or.inl rfl, ends⟩)
  | createReleasing =>
      cases proceeds
      exact Or.inr (Or.inl ⟨Or.inr (Or.inl rfl), rfl⟩)
  | childMeeting ticket =>
      simp only [Locking.proceed] at proceeds
      split_ifs at proceeds
      cases proceeds
      exact Or.inr (Or.inl ⟨Or.inr (Or.inr ⟨ticket, rfl⟩), rfl⟩)
  | exitReleasing =>
      cases proceeds
      exact Or.inr (Or.inr ⟨rfl, rfl⟩)
  | absent => simp [Locking.proceed] at proceeds
  | idle => simp [Locking.proceed] at proceeds
  | spawning tindex => simp [Locking.proceed] at proceeds
  | locked request left sidx =>
      simp only [Locking.proceed, Option.some.injEq, Prod.mk.injEq] at proceeds
      obtain ⟨-, rfl⟩ := proceeds
      split_ifs
      · exact Or.inl rfl
      · exact Or.inl rfl
  | acquiring request left sidx =>
      obtain ⟨_, _, result⟩ := Option.map_eq_some_iff.mp proceeds
      cases result
      exact Or.inl rfl
  | stopAcquiring addr slot =>
      obtain ⟨_, _, result⟩ := Option.map_eq_some_iff.mp proceeds
      cases result
      exact Or.inl rfl
  | creating =>
      obtain ⟨_, _, result⟩ := Option.map_eq_some_iff.mp proceeds
      cases result
      exact Or.inl rfl
  | exiting =>
      obtain ⟨_, _, result⟩ := Option.map_eq_some_iff.mp proceeds
      cases result
      exact Or.inl rfl
  | scanning addr =>
      simp only [Locking.proceed] at proceeds
      split at proceeds <;> cases proceeds <;> exact Or.inl rfl
  | rechecking addr slot =>
      simp only [Locking.proceed] at proceeds
      split_ifs at proceeds <;> cases proceeds <;> exact Or.inl rfl
  | locking request left sidx =>
      simp only [Locking.proceed] at proceeds
      split_ifs at proceeds
      cases proceeds
      exact Or.inl rfl
  | found addr slot =>
      simp only [Locking.proceed] at proceeds
      split_ifs at proceeds
      cases proceeds
      exact Or.inl rfl
  | meeting tindex child ticket =>
      simp only [Locking.proceed] at proceeds
      split_ifs at proceeds
      cases proceeds
      exact Or.inl rfl
  | allocating =>
      simp only [Locking.proceed] at proceeds
      split at proceeds
      · cases proceeds
        exact Or.inl rfl
      · contradiction
  | _ =>
      cases proceeds
      exact Or.inl rfl

/-- What a step of an operation consists of. -/
theorem operate_eq_some
    {choice : Locking.Choice}
    (operated : operate environment thread shared own choice =
      some (after, moved)) :
    ∃ locking caller,
      Locking.advance environment thread shared.locking own.caller choice =
          some (locking, caller) ∧
        after = { shared with locking := locking } ∧
        moved = { own with caller := caller } ∧
        (locksForWriting own.caller.position = true →
          shared.handlers = ∅) := by
  unfold operate at operated
  split_ifs at operated with waits
  obtain ⟨⟨locking, caller⟩, advanced, result⟩ :=
    Option.map_eq_some_iff.mp operated
  rw [Prod.mk.injEq] at result
  refine ⟨locking, caller, advanced, result.1.symm, result.2.symm, ?_⟩
  intro writing
  by_contra busy
  exact waits ⟨writing, busy⟩

/-- The part of the program that a call leads to. -/
def calledArea : Locking.Choice → Option Area
  | .setWatchpoint _ => some .installing
  | .disableWatchpointByAddr _ => some .application
  | .threadCreate => some .creating
  | .threadExit => some .exiting
  | _ => none

/-- A call takes an idle thread into an operation. -/
theorem advance_call
    {choice : Locking.Choice}
    {target : Area}
    {locking reached : Locking.Shared}
    {caller next : Locking.Caller}
    (calls : calledArea choice = some target)
    (advanced : Locking.advance environment thread locking caller choice =
      some (reached, next)) :
    caller.position = .idle ∧ area next.position = target := by
  obtain ⟨current, position⟩ := caller
  cases choice with
  | setWatchpoint request =>
      cases position <;> simp only [Locking.advance, reduceCtorEq] at advanced
      cases advanced
      exact ⟨rfl, Option.some.inj calls⟩
  | disableWatchpointByAddr addr =>
      cases position <;> simp only [Locking.advance, reduceCtorEq] at advanced
      cases advanced
      exact ⟨rfl, Option.some.inj calls⟩
  | threadCreate =>
      cases position <;> simp only [Locking.advance, reduceCtorEq] at advanced
      cases advanced
      exact ⟨rfl, Option.some.inj calls⟩
  | threadExit =>
      cases position <;> simp only [Locking.advance, reduceCtorEq] at advanced
      split_ifs at advanced
      cases advanced
      exact ⟨rfl, Option.some.inj calls⟩
  | spawn child => cases calls
  | start => cases calls
  | proceed watchedRatio => cases calls

/-- The call of an operation, with the flag as it has to be there. -/
theorem fits_of_call
    {choice : Locking.Choice}
    {target : Area}
    (calls : calledArea choice = some target)
    (outside : own.handling = none)
    (nested : Nested own.wrappers)
    (admits : target.Admits own.wrappers)
    (flag : own.isWatching = true ↔
      target = .application ∧ own.wrappers = [])
    (operated : operate environment thread shared own choice =
      some (after, moved)) :
    moved.Fits := by
  obtain ⟨locking, caller, advanced, -, rfl, -⟩ := operate_eq_some operated
  obtain ⟨-, rfl⟩ := advance_call calls advanced
  exact .of_outside outside nested admits flag

/-- The next instruction of an operation, with the flag turned on where
`startThread` does so. -/
theorem fits_of_proceed
    {watchedRatio : Word → Int}
    (fits : own.Fits)
    (outside : own.handling = none)
    (performed : perform environment thread shared own
      (.proceed watchedRatio) = some (after, moved)) :
    moved.Fits := by
  have flag := fits.flag_outside outside
  have admits := fits.admits
  have nested := fits.nested
  obtain ⟨⟨current, position⟩, isWatching, wrappers, handling⟩ := own
  dsimp only at outside admits nested
  subst outside
  by_cases meets : ∃ ticket, position = .childMeeting ticket
  · obtain ⟨ticket, rfl⟩ := meets
    obtain ⟨locking, caller, advanced, -, rfl, -⟩ :=
      operate_eq_some performed
    obtain ⟨⟨reached, next⟩, proceeds, result⟩ :=
      Option.map_eq_some_iff.mp advanced
    cases result
    have empty : wrappers = [] := admits
    simp only [Locking.proceed] at proceeds
    split_ifs at proceeds
    cases proceeds
    exact .of_outside rfl nested trivial (by simp [Local.Exposed, area, empty])
  have plainly : operate environment thread shared
      ⟨⟨current, position⟩, isWatching, wrappers, none⟩
      (.proceed watchedRatio) = some (after, moved) := by
    cases position with
    | childMeeting ticket => exact absurd ⟨ticket, rfl⟩ meets
    | _ => exact performed
  obtain ⟨locking, caller, advanced, -, rfl, -⟩ := operate_eq_some plainly
  obtain ⟨⟨reached, next⟩, proceeds, result⟩ :=
    Option.map_eq_some_iff.mp advanced
  cases result
  rcases proceed_area proceeds with same | ⟨ends, rfl⟩ | ⟨exits, rfl⟩
  · refine .of_outside rfl nested ?_ ?_
    · simpa only [same] using admits
    · simpa only [Local.Exposed, same] using flag
  · -- the operation has been called inside a wrapper
    have wrapped : area position ≠ .application ∧ wrappers ≠ [] := by
      rcases ends with installs | creates | meeting
      · rw [installs] at admits
        exact ⟨by rw [installs]; decide, admits⟩
      · rw [creates] at admits
        exact ⟨by rw [creates]; decide, admits⟩
      · exact absurd meeting meets
    refine .of_outside rfl nested trivial ?_
    rw [flag]
    simp [Local.Exposed, wrapped.1, wrapped.2]
  · have off : isWatching = false := fits.off (Or.inl (by rw [exits]; decide))
    rw [exits] at admits
    exact .of_outside rfl nested admits (by simp [off, Local.Exposed, area])

/-- The steps of the operations keep the flag where it belongs. -/
theorem fits_of_perform
    {choice : Locking.Choice}
    (fits : own.Fits)
    (outside : own.handling = none)
    (performed : perform environment thread shared own choice =
      some (after, moved)) :
    moved.Fits := by
  have flag := fits.flag_outside outside
  cases choice with
  | proceed watchedRatio => exact fits_of_proceed fits outside performed
  | threadCreate => cases performed
  | setWatchpoint request =>
      simp only [perform] at performed
      split_ifs at performed with installs
      have wrapped : own.wrappers ≠ [] := by
        rintro empty
        simp [empty] at installs
      have calls : calledArea (.setWatchpoint request) = some .installing := rfl
      exact fits_of_call calls outside fits.nested wrapped
        (by simp [fits.off (Or.inr wrapped)]) performed
  | disableWatchpointByAddr addr =>
      simp only [perform] at performed
      split_ifs at performed with on
      have calls : calledArea (.disableWatchpointByAddr addr) =
          some .application := rfl
      exact fits_of_call calls outside fits.nested trivial
        (by simp [on, (flag.mp on).2]) performed
  | threadExit =>
      simp only [perform] at performed
      split_ifs at performed with empty
      have calls : calledArea .threadExit = some .exiting := rfl
      refine fits_of_call calls ?_ ?_ ?_ ?_ performed
      · exact outside
      · exact fits.nested
      · exact empty
      · simp
  | spawn child =>
      obtain ⟨locking, caller, advanced, -, rfl, -⟩ :=
        operate_eq_some performed
      obtain ⟨⟨current, position⟩, isWatching, wrappers, handling⟩ := own
      cases position <;> simp only [Locking.advance, reduceCtorEq] at advanced
      split_ifs at advanced
      cases advanced
      exact .of_outside outside fits.nested fits.admits flag
  | start =>
      obtain ⟨locking, caller, advanced, -, rfl, -⟩ :=
        operate_eq_some performed
      simp only [Locking.advance] at advanced
      split at advanced
      · cases advanced
        exact .of_outside outside trivial rfl (by simp [Local.Exposed, area])
      · contradiction

/-- A wrapper turns the flag off and remembers what it found. -/
theorem fits_of_enter
    {wrapper : Wrapper}
    (outside : own.handling = none)
    (idle : own.caller.position = .idle)
    (nested : Nested (wrapper :: own.wrappers)) :
    (enter own wrapper).Fits := by
  refine .of_outside outside nested ?_ ?_
  · simp [enter, idle, area, Area.Admits]
  · simp [enter, Local.Exposed]

/-- A wrapper that returns leaves the flag as it found it. -/
theorem fits_of_leave
    {wrapper : Wrapper}
    {outer : List Wrapper}
    (fits : own.Fits)
    (outside : own.handling = none)
    (idle : own.caller.position = .idle)
    (wrappers : own.wrappers = wrapper :: outer)
    (returns : wrapper.Returns) :
    ({ own with
        isWatching := wrapper.enables own.isWatching
        wrappers := outer } : Local).Fits := by
  have off : own.isWatching = false :=
    fits.off (Or.inr (by simp [wrappers]))
  have nested := fits.nested
  rw [wrappers] at nested
  have applies : area own.caller.position = .application := by
    rw [idle]
    rfl
  cases wrapper with
  | cond watching =>
      refine .of_outside outside nested.2 (by simp [applies, Area.Admits]) ?_
      simp [Wrapper.enables, off, nested.1, Local.Exposed, applies]
  | pthreadCreate watching =>
      obtain ⟨rfl, rfl⟩ := nested
      refine .of_outside outside trivial (by simp [applies, Area.Admits]) ?_
      simp [Wrapper.enables, Local.Exposed, applies]
  | install =>
      obtain rfl : outer = [] := nested
      refine .of_outside outside trivial (by simp [applies, Area.Admits]) ?_
      simp [Wrapper.enables, Local.Exposed, applies]
  | fork i =>
      obtain rfl : outer = [] := nested
      refine .of_outside outside trivial (by simp [applies, Area.Admits]) ?_
      simp [Wrapper.enables, Local.Exposed, applies]
  | finalizer => exact returns.elim

/-- A thread that its handler has interrupted where it is exposed. -/
theorem Local.Fits.of_inside
    (exposed : own.Exposed)
    (off : own.isWatching = false)
    (active : Handling.Active own.handling) :
    own.Fits := by
  refine ⟨?_, ?_, ?_, fun _ => exposed, fun absent => ?_⟩
  · rw [exposed.2]
    trivial
  · rw [exposed.1]
    trivial
  · simp [off, active]
  · have applies := exposed.1
    rw [absent] at applies
    cases applies

/-- The handler keeps the flag where it belongs. -/
theorem fits_of_trapHandler
    {benign : Bool}
    {handling : Handling}
    (fits : own.Fits)
    (inside : own.handling = some handling)
    (handled : trapHandler thread shared own benign handling =
      some (after, moved)) :
    moved.Fits := by
  have flag := fits.flag
  have exposed : Handling.Active (some handling) → own.Exposed := by
    rw [← inside]
    exact fits.active
  have off : Handling.Active (some handling) → own.isWatching = false := by
    intro active
    rw [inside] at flag
    simpa [active] using flag
  cases handling with
  | entered =>
      rw [inside] at flag
      simp only [trapHandler] at handled
      split_ifs at handled with on
      · cases handled
        exact .of_inside (flag.mp on).1 rfl trivial
      · cases handled
        refine .of_outside rfl fits.nested fits.admits ?_
        simpa [Handling.Active, Local.Exposed] using flag
  | judging =>
      simp only [trapHandler] at handled
      split_ifs at handled <;> cases handled <;>
        exact .of_inside (exposed trivial) (off trivial) trivial
  | acquiring =>
      simp only [trapHandler] at handled
      split_ifs at handled
      cases handled
      exact .of_inside (exposed trivial) (off trivial) trivial
  | reporting =>
      cases handled
      exact .of_inside (exposed trivial) (off trivial) trivial
  | releasing =>
      cases handled
      exact .of_inside (exposed trivial) (off trivial) trivial
  | leaving =>
      cases handled
      exact .of_outside rfl fits.nested fits.admits
        ⟨fun _ => exposed trivial, fun _ => rfl⟩

/-- Whatever a thread does keeps its flag where it belongs. -/
theorem fits_of_advance
    {choice : Choice}
    (fits : own.Fits)
    (advanced : advance environment thread shared own choice =
      some (after, moved)) :
    moved.Fits := by
  cases inside : own.handling with
  | some handling =>
      rw [advance, inside] at advanced
      cases choice <;> simp only [reduceCtorEq] at advanced
      exact fits_of_trapHandler fits inside advanced
  | none =>
      rw [advance, inside] at advanced
      have flag := fits.flag_outside inside
      cases choice with
      | base choice => exact fits_of_perform fits inside advanced
      | handle benign => cases advanced
      | cond =>
          simp only [advanceOutside] at advanced
          split at advanced
          · next idle =>
              cases advanced
              refine fits_of_enter inside idle ⟨?_, fits.nested⟩
              rw [Bool.eq_iff_iff, flag, List.isEmpty_iff]
              simp [Local.Exposed, idle, area]
          · contradiction
      | pthreadCreate =>
          have calls : calledArea .threadCreate = some .creating := rfl
          simp only [advanceOutside] at advanced
          split_ifs at advanced with empty
          have idle : own.caller.position = .idle := by
            obtain ⟨_, _, called, -⟩ := operate_eq_some advanced
            exact (advance_call calls called).1
          have on : own.isWatching = true := by
            rw [flag, Local.Exposed, idle]
            exact ⟨rfl, empty⟩
          refine fits_of_call calls ?_ ?_ ?_ ?_ advanced
          · exact inside
          · exact ⟨on, empty⟩
          · simp [enter, Area.Admits]
          · simp [enter]
      | install =>
          simp only [advanceOutside] at advanced
          split at advanced
          · next idle =>
              split_ifs at advanced with on
              cases advanced
              exact fits_of_enter inside idle (flag.mp on).2
          · contradiction
      | fork =>
          simp only [advanceOutside] at advanced
          split at advanced
          · next idle empty =>
              cases advanced
              exact fits_of_enter inside idle empty
          · contradiction
      | forkNext =>
          simp only [advanceOutside] at advanced
          split at advanced
          · next i outer wrappers =>
              split_ifs at advanced
              have nested := fits.nested
              rw [wrappers] at nested
              have off : own.isWatching = false :=
                fits.off (Or.inr (by simp [wrappers]))
              have calls (addr : Word) :
                  calledArea (.disableWatchpointByAddr addr) =
                    some .application := rfl
              refine fits_of_call (calls _) ?_ ?_ ?_ ?_ advanced
              · exact inside
              · exact nested
              · trivial
              · simp [off]
          · contradiction
      | finalizer =>
          simp only [advanceOutside] at advanced
          split at advanced
          · next idle empty =>
              cases advanced
              exact fits_of_enter inside idle empty
          · contradiction
      | leave =>
          simp only [advanceOutside] at advanced
          split at advanced
          · next wrapper outer idle wrappers =>
              split_ifs at advanced with returns
              cases advanced
              exact fits_of_leave fits inside idle wrappers returns
          · contradiction
      | trap =>
          simp only [advanceOutside] at advanced
          split_ifs at advanced with present
          cases advanced
          refine ⟨fits.nested, fits.admits, ?_, fun active => active.elim,
            fun absent => ?_⟩
          · simpa [Handling.Active, Local.Exposed] using flag
          · rw [absent] at present
            cases present

end Flag

/-- The flag of every thread fits where it is, in every state of a run. -/
theorem fits_of_run
    {environment : Environment}
    {files : DescriptorTable File}
    {tid : Nat}
    {labels : List (Nat × Choice)}
    {state : State}
    (executed : run environment (start files tid) labels = some state)
    (thread : Nat) :
    (state.locals thread).Fits := by
  have preserved (before : State) (label : Nat × Choice) (after : State)
      (fits : ∀ thread, (before.locals thread).Fits)
      (stepped : step environment before label = some after) :
      ∀ thread, (after.locals thread).Fits := by
    obtain ⟨shared, moved, advanced, rfl⟩ := Interleaving.step_eq_some stepped
    intro thread
    dsimp only
    by_cases acts : thread = label.1
    · subst acts
      rw [Function.update_self]
      exact fits_of_advance (fits label.1) advanced
    · rw [Function.update_of_ne acts]
      exact fits thread
  refine Machine.run_invariant_of_step preserved (fun thread => ?_) executed
    thread
  by_cases initial : thread = 0
  · refine .of_outside rfl trivial ?_ ?_ <;>
      simp [start, Locking.start, initial, area, Area.Admits, Local.Exposed]
  · refine .of_outside rfl trivial ?_ ?_ <;>
      simp [start, Locking.start, initial, area, Area.Admits, Local.Exposed]

/-- `startWatch` is not called inside itself. -/
theorem count_install_le_one
    {wrappers : List Wrapper}
    (nested : Nested wrappers) :
    wrappers.count .install ≤ 1 := by
  induction wrappers with
  | nil => exact Nat.zero_le 1
  | cons wrapper outer inductionHypothesis =>
      cases wrapper with
      | cond watching => simpa using inductionHypothesis nested.2
      | pthreadCreate watching => simp [nested.2]
      | install =>
          obtain rfl : outer = [] := nested
          simp
      | fork i =>
          obtain rfl : outer = [] := nested
          simp
      | finalizer =>
          obtain rfl : outer = [] := nested
          simp

/-- However wrappers nest and wherever traps come, the flag of a thread is on
exactly if the thread is in the application or in its `stopWatch`, with no
wrapper open and no handler past the test; a handler gets past the test only
there, and `startWatch` is not called inside itself. -/
theorem isWatching_iff_of_run
    {environment : Environment}
    {files : DescriptorTable File}
    {tid : Nat}
    {labels : List (Nat × Choice)}
    {state : State}
    (executed : run environment (start files tid) labels = some state)
    (thread : Nat) :
    ((state.locals thread).isWatching = true ↔
        (state.locals thread).Exposed ∧
          ¬Handling.Active (state.locals thread).handling) ∧
      (Handling.Active (state.locals thread).handling →
        (state.locals thread).Exposed) ∧
      (state.locals thread).wrappers.count .install ≤ 1 := by
  have fits := fits_of_run executed thread
  exact ⟨fits.flag, fits.active, count_install_le_one fits.nested⟩

/-- A thread is stopped in `startWatch`, inside a function of a library, where
its handler leaves at once, and then in the application. -/
def trappedRun : List (Nat × Choice) :=
  [(0, .install), (0, .cond), (0, .trap), (0, .handle false), (0, .leave),
    (0, .leave), (0, .trap), (0, .handle false), (0, .handle false),
    (0, .handle false)]

theorem isWatching_iff_of_run_trappedRun :
    ∃ state,
      run Manager.steadyEnvironment (start Manager.standardFiles 1)
          trappedRun = some state ∧
        (state.locals 0).handling = some .reporting ∧
        (Handling.Active (state.locals 0).handling →
          (state.locals 0).Exposed) := by
  have executed : run Manager.steadyEnvironment
      (start Manager.standardFiles 1) trappedRun = some _ := rfl
  exact ⟨_, executed, rfl, (isWatching_iff_of_run executed 0).2.1⟩

end Trapping

end Causer
