import Causer.Trapping

/-!
# Handlers do not stop the threads

A handler takes the global lock for reading while its thread may have the lock
of a slot or the global lock itself.  It does not lead to a wait without end: a
thread that has the global lock for writing has its flag off, so the handler
that waits for the lock waits for a thread that no handler holds up, and a
handler whose thread reads under the lock gets it.
-/

namespace Causer

open Locks

namespace Trapping

/-! ## The operations under the handlers -/

section Views

variable {environment : Environment}

/-- The threads without their flags, wrappers and handlers. -/
def locking (state : State) : Locking.State where
  shared := state.shared.locking
  locals := fun thread => (state.locals thread).caller

section Steps

variable {thread : Nat} {shared after : Shared} {own moved : Local}

/-- Outside of its handler a thread changes nothing below, or takes a step of
`Locking`; then it takes the global lock for writing only if no handler has it. -/
structure Shows (environment : Environment) (thread : Nat) (shared : Shared)
    (own : Local) (after : Shared) (moved : Local) : Prop where
  handlers : after.handlers = shared.handlers
  handling : moved.handling = own.handling ∨ moved.handling = some .entered
  locking : after.locking = shared.locking ∧ moved.caller = own.caller ∨
    ∃ choice,
      Locking.advance environment thread shared.locking own.caller choice =
          some (after.locking, moved.caller) ∧
        (locksForWriting own.caller.position = true → shared.handlers = ∅)

theorem shows_of_operate
    {changed : Local}
    {choice : Locking.Choice}
    (operated : operate environment thread shared changed choice =
      some (after, moved))
    (caller : changed.caller = own.caller)
    (handling : changed.handling = own.handling) :
    Shows environment thread shared own after moved := by
  obtain ⟨reached, next, advanced, rfl, rfl, available⟩ :=
    operate_eq_some operated
  rw [caller] at advanced available
  exact ⟨rfl, Or.inl handling, Or.inr ⟨choice, advanced, available⟩⟩

/-- What a step outside of the handler shows of the operations. -/
theorem shows_of_advanceOutside
    {choice : Choice}
    (advanced : advanceOutside environment thread shared own choice =
      some (after, moved)) :
    Shows environment thread shared own after moved := by
  cases choice with
  | handle benign => cases advanced
  | base choice =>
      simp only [advanceOutside] at advanced
      cases choice with
      | threadCreate => cases advanced
      | spawn child => exact shows_of_operate advanced rfl rfl
      | start => exact shows_of_operate advanced rfl rfl
      | setWatchpoint request =>
          simp only [perform] at advanced
          split_ifs at advanced
          exact shows_of_operate advanced rfl rfl
      | disableWatchpointByAddr addr =>
          simp only [perform] at advanced
          split_ifs at advanced
          exact shows_of_operate advanced rfl rfl
      | threadExit =>
          simp only [perform] at advanced
          split_ifs at advanced
          exact shows_of_operate advanced rfl rfl
      | proceed watchedRatio =>
          simp only [perform] at advanced
          split at advanced <;> exact shows_of_operate advanced rfl rfl
  | pthreadCreate =>
      simp only [advanceOutside] at advanced
      split_ifs at advanced
      exact shows_of_operate advanced rfl rfl
  | forkNext =>
      simp only [advanceOutside] at advanced
      split at advanced
      · split_ifs at advanced
        exact shows_of_operate advanced rfl rfl
      · contradiction
  | cond =>
      simp only [advanceOutside] at advanced
      split at advanced <;> cases advanced
      exact ⟨rfl, Or.inl rfl, Or.inl ⟨rfl, rfl⟩⟩
  | install =>
      simp only [advanceOutside] at advanced
      split at advanced
      · split_ifs at advanced
        cases advanced
        exact ⟨rfl, Or.inl rfl, Or.inl ⟨rfl, rfl⟩⟩
      · contradiction
  | fork =>
      simp only [advanceOutside] at advanced
      split at advanced <;> cases advanced
      exact ⟨rfl, Or.inl rfl, Or.inl ⟨rfl, rfl⟩⟩
  | finalizer =>
      simp only [advanceOutside] at advanced
      split at advanced <;> cases advanced
      exact ⟨rfl, Or.inl rfl, Or.inl ⟨rfl, rfl⟩⟩
  | leave =>
      simp only [advanceOutside] at advanced
      split at advanced
      · split_ifs at advanced
        cases advanced
        exact ⟨rfl, Or.inl rfl, Or.inl ⟨rfl, rfl⟩⟩
      · contradiction
  | trap =>
      simp only [advanceOutside] at advanced
      split_ifs at advanced
      cases advanced
      exact ⟨rfl, Or.inr rfl, Or.inl ⟨rfl, rfl⟩⟩

/-- A handler touches nothing below it. -/
theorem trapHandler_locking
    {benign : Bool}
    {handling : Handling}
    (handled : trapHandler thread shared own benign handling =
      some (after, moved)) :
    after.locking = shared.locking ∧ moved.caller = own.caller := by
  cases handling <;> simp only [trapHandler] at handled <;>
    (try split_ifs at handled) <;> cases handled <;> exact ⟨rfl, rfl⟩

/-- A step of a thread is one outside of its handler or one of its handler. -/
theorem advance_cases
    {choice : Choice}
    (advanced : advance environment thread shared own choice =
      some (after, moved)) :
    own.handling = none ∧ Shows environment thread shared own after moved ∨
      ∃ handling benign, own.handling = some handling ∧
        trapHandler thread shared own benign handling =
          some (after, moved) := by
  cases inside : own.handling with
  | none =>
      rw [advance, inside] at advanced
      exact Or.inl ⟨rfl, shows_of_advanceOutside advanced⟩
  | some handling =>
      rw [advance, inside] at advanced
      cases choice <;> simp only [reduceCtorEq] at advanced
      exact Or.inr ⟨handling, _, rfl, advanced⟩

end Steps

/-- Below the handlers a run is a run of `Locking`. -/
theorem exists_locking_run
    {files : DescriptorTable File}
    {tid : Nat}
    {labels : List (Nat × Choice)}
    {state : State}
    (executed : run environment (start files tid) labels = some state) :
    ∃ actions, Locking.run environment (Locking.start files tid) actions =
      some (locking state) := by
  have shown (before : State) (label : Nat × Choice) (after : State)
      (_ : True) (stepped : step environment before label = some after) :
      locking after = locking before ∨
        ∃ action, True ∧
          Locking.step environment (locking before) action =
            some (locking after) := by
    obtain ⟨shared, moved, advanced, rfl⟩ := Interleaving.step_eq_some stepped
    have callers (caller : Locking.Caller) (same : moved.caller = caller) :
        (fun thread =>
          (Function.update before.locals label.1 moved thread).caller) =
          Function.update (locking before).locals label.1 caller := by
      rw [← same]
      exact Function.comp_update Local.caller before.locals label.1 moved
    have moves : shared.locking = before.shared.locking ∧
          moved.caller = (before.locals label.1).caller ∨
        ∃ choice, Locking.advance environment label.1 before.shared.locking
          (before.locals label.1).caller choice =
            some (shared.locking, moved.caller) := by
      rcases advance_cases advanced with
        ⟨-, shows⟩ | ⟨handling, benign, -, handled⟩
      · rcases shows.locking with same | ⟨choice, basic, -⟩
        · exact Or.inl same
        · exact Or.inr ⟨choice, basic⟩
      · exact Or.inl (trapHandler_locking handled)
    rcases moves with ⟨same, caller⟩ | ⟨choice, basic⟩
    · refine Or.inl ?_
      simp only [locking, same, callers _ caller, Function.update_eq_self]
    · refine Or.inr ⟨(label.1, choice), trivial, ?_⟩
      simp only [Locking.step, Interleaving.step]
      rw [show (locking before).shared = before.shared.locking from rfl,
        show (locking before).locals label.1 =
          (before.locals label.1).caller from rfl, basic]
      simp only [Option.map_some, locking, callers _ rfl]
  have refined : ∃ actions,
      Machine.Along (Locking.step environment) (fun _ _ => True)
          (Locking.start files tid) actions ∧
        Locking.run environment (Locking.start files tid) actions =
          some (locking state) :=
    Machine.exists_run_view locking shown (Machine.along_true _ _ _) executed
  obtain ⟨actions, -, reached⟩ := refined
  exact ⟨actions, reached⟩

/-- The locks know their holders below the handlers. -/
theorem lockInvariant_of_run
    {files : DescriptorTable File}
    {tid : Nat}
    {labels : List (Nat × Choice)}
    {state : State}
    (executed : run environment (start files tid) labels = some state) :
    Locking.LockInvariant (locking state).shared
      (Locking.views (locking state)) := by
  obtain ⟨actions, basic⟩ := exists_locking_run executed
  exact Locking.lockInvariant_of_run basic

end Views

/-! ## The global lock of the handlers -/

/-- The handler has the global lock. -/
def Handling.Reads : Option Handling → Prop
  | some .reporting => True
  | some .releasing => True
  | _ => False

/-- The handlers that have the global lock are known, and no thread writes
under it meanwhile. -/
structure HandlersKnown (state : State) : Prop where
  readers : ∀ thread, thread ∈ state.shared.handlers ↔
    Handling.Reads (state.locals thread).handling
  excluded : state.shared.handlers ≠ ∅ →
    state.shared.locking.rwlock.writer = none

section Handlers

variable {environment : Environment}
variable {thread : Nat} {shared after : Shared} {own moved : Local}

/-- Only the first steps of `thread_create` and `threadExit` bring a writer. -/
theorem writer_of_proceed
    {watchedRatio : Word → Int}
    {current : ThreadPosition}
    {locking reached : Locking.Shared}
    {position next : Locking.Position}
    (proceeds : Locking.proceed environment watchedRatio thread current locking
      position = some (reached, next))
    (reads : locksForWriting position = false)
    (nobody : locking.rwlock.writer = none) :
    reached.rwlock.writer = none := by
  have unlocked : (locking.rwlock.unlock thread).writer = none := by
    simp [RwLock.unlock, nobody]
  have shared {rwlock : RwLock Nat}
      (taken : locking.rwlock.rdlock thread = some rwlock) :
      rwlock.writer = none := by
    simp only [RwLock.rdlock, nobody, if_true, Option.some.injEq] at taken
    rw [← taken]
  cases position with
  | creating => cases reads
  | exiting => cases reads
  | acquiring request left sidx =>
      obtain ⟨rwlock, taken, result⟩ := Option.map_eq_some_iff.mp proceeds
      cases result
      exact shared taken
  | stopAcquiring addr slot =>
      obtain ⟨rwlock, taken, result⟩ := Option.map_eq_some_iff.mp proceeds
      cases result
      exact shared taken
  | _ =>
      simp only [Locking.proceed] at proceeds
      (try split at proceeds) <;> cases proceeds <;>
        first
        | exact nobody
        | exact unlocked

theorem writer_of_advance
    {locking reached : Locking.Shared}
    {caller next : Locking.Caller}
    {choice : Locking.Choice}
    (advanced : Locking.advance environment thread locking caller choice =
      some (reached, next))
    (reads : locksForWriting caller.position = false)
    (nobody : locking.rwlock.writer = none) :
    reached.rwlock.writer = none := by
  cases choice with
  | proceed watchedRatio =>
      obtain ⟨⟨changed, position⟩, proceeds, result⟩ :=
        Option.map_eq_some_iff.mp advanced
      cases result
      exact writer_of_proceed proceeds reads nobody
  | threadExit =>
      simp only [Locking.advance] at advanced
      split at advanced
      · split_ifs at advanced
        cases advanced
        exact nobody
      · contradiction
  | spawn child =>
      simp only [Locking.advance] at advanced
      split at advanced
      · split_ifs at advanced
        cases advanced
        exact nobody
      · contradiction
  | _ =>
      simp only [Locking.advance] at advanced
      split at advanced <;> cases advanced
      exact nobody

/-- A handler takes the lock and gives it back. -/
theorem handlers_of_trapHandler
    {benign : Bool}
    {handling : Handling}
    (known : thread ∈ shared.handlers ↔ Handling.Reads (some handling))
    (handled : trapHandler thread shared own benign handling =
      some (after, moved)) :
    (thread ∈ after.handlers ↔ Handling.Reads moved.handling) ∧
      (∀ other ≠ thread,
        other ∈ after.handlers ↔ other ∈ shared.handlers) ∧
      (after.handlers ≠ ∅ →
        shared.handlers ≠ ∅ ∨ shared.locking.rwlock.writer = none) := by
  cases handling with
  | entered =>
      simp only [trapHandler] at handled
      split_ifs at handled <;> cases handled <;>
        exact ⟨known, fun _ _ => Iff.rfl, Or.inl⟩
  | judging =>
      simp only [trapHandler] at handled
      split_ifs at handled <;> cases handled <;>
        exact ⟨known, fun _ _ => Iff.rfl, Or.inl⟩
  | acquiring =>
      simp only [trapHandler] at handled
      split_ifs at handled with nobody
      cases handled
      refine ⟨by simp [Handling.Reads], fun other different => ?_,
        fun _ => Or.inr nobody⟩
      simp [different]
  | reporting =>
      cases handled
      exact ⟨known, fun _ _ => Iff.rfl, Or.inl⟩
  | releasing =>
      cases handled
      refine ⟨by simp [Handling.Reads], fun other different => ?_,
        fun remain => Or.inl ?_⟩
      · simp [different]
      · rintro empty
        simp [empty] at remain
  | leaving =>
      cases handled
      exact ⟨known, fun _ _ => Iff.rfl, Or.inl⟩

/-- The handlers that have the global lock are known in every state of a run. -/
theorem handlersKnown_of_run
    {files : DescriptorTable File}
    {tid : Nat}
    {labels : List (Nat × Choice)}
    {state : State}
    (executed : run environment (start files tid) labels = some state) :
    HandlersKnown state := by
  have preserved (before : State) (label : Nat × Choice) (after : State)
      (known : HandlersKnown before)
      (stepped : step environment before label = some after) :
      HandlersKnown after := by
    obtain ⟨shared, moved, advanced, rfl⟩ := Interleaving.step_eq_some stepped
    have spread
        (own : label.1 ∈ shared.handlers ↔ Handling.Reads moved.handling)
        (others : ∀ other ≠ label.1,
          other ∈ shared.handlers ↔ other ∈ before.shared.handlers)
        (thread : Nat) :
        thread ∈ shared.handlers ↔ Handling.Reads
          (Function.update before.locals label.1 moved thread).handling := by
      by_cases acts : thread = label.1
      · subst acts
        rwa [Function.update_self]
      · rw [Function.update_of_ne acts, others thread acts]
        exact known.readers thread
    rcases advance_cases advanced with
      ⟨outside, shows⟩ | ⟨handling, benign, inside, handled⟩
    · have silent : ¬Handling.Reads moved.handling := by
        rcases shows.handling with same | entered
        · rw [same, outside]
          exact id
        · rw [entered]
          exact id
      have without : label.1 ∉ before.shared.handlers := by
        rw [known.readers, outside]
        exact id
      refine ⟨spread ?_ fun _ _ => by rw [shows.handlers], fun busy => ?_⟩
      · rw [shows.handlers]
        exact iff_of_false without silent
      · rw [shows.handlers] at busy
        have nobody := known.excluded busy
        rcases shows.locking with ⟨same, -⟩ | ⟨choice, basic, available⟩
        · rw [same]
          exact nobody
        · refine writer_of_advance basic ?_ nobody
          by_contra writes
          exact busy (available (by simpa using writes))
    · have own := known.readers label.1
      rw [inside] at own
      obtain ⟨ownAfter, others, taken⟩ := handlers_of_trapHandler own handled
      refine ⟨spread ownAfter others, fun busy => ?_⟩
      rw [(trapHandler_locking handled).1]
      exact (taken busy).elim known.excluded id
  refine Machine.run_invariant_of_step preserved ⟨fun thread => ?_, ?_⟩
    executed
  · simp [start, Handling.Reads]
  · simp [start]

end Handlers

/-! ## Who waits for whom -/

/-- What an operation may have to wait for: the partner at a barrier, a writer,
the readers or a slot's lock. -/
def waitsFor : Locking.Position → Nat
  | .locking .. => 4
  | .found .. => 4
  | .creating => 3
  | .exiting => 3
  | .acquiring .. => 2
  | .stopAcquiring .. => 2
  | .meeting .. => 1
  | .childMeeting _ => 1
  | _ => 0

/-- A handler has to wait for a writer at most. -/
def Local.rank (own : Local) : Nat :=
  match own.handling with
  | none => waitsFor own.caller.position
  | some .acquiring => 2
  | some _ => 0

/-- The thread has an operation or a handler to finish. -/
def Unfinished (state : State) (thread : Nat) : Prop :=
  Locking.Unfinished (locking state) thread ∨
    (state.locals thread).handling ≠ none

/-- The thread can go on without being stopped again. -/
def CanGoOn (environment : Environment) (state : State) (thread : Nat) :
    Prop :=
  ∃ choice ≠ .trap, ∃ next, step environment state (thread, choice) = some next

section Waiting

variable {environment : Environment} {state : State} {thread : Nat}

theorem waitsFor_of_slot
    {position : Locking.Position}
    {slot : SlotPosition}
    (holds : position.slot = some slot) :
    position.busy = true ∧ waitsFor position ≤ 2 := by
  cases position <;>
    simp_all [Locking.Position.slot, Locking.Position.busy, waitsFor]

theorem waitsFor_of_writing
    {position : Locking.Position}
    (writes : position.mode = .writing) :
    position.busy = true ∧ waitsFor position ≤ 1 ∧
      area position ≠ .application := by
  cases position <;>
    simp_all [Locking.Position.mode, Locking.Position.busy, waitsFor, area]

theorem waitsFor_of_reading
    {position : Locking.Position}
    (reads : position.mode = .reading) :
    position.busy = true ∧ waitsFor position = 0 := by
  cases position <;>
    simp_all [Locking.Position.mode, Locking.Position.busy, waitsFor]

theorem waitsFor_of_host
    {position : Locking.Position}
    {current tindex : ThreadPosition}
    {child : Nat}
    (isHost : position.role current = .host tindex child none) :
    position.busy = true ∧ waitsFor position = 0 ∧
      area position ≠ .application := by
  cases position <;>
    simp_all [Locking.Position.role, Locking.Position.busy, waitsFor, area]

theorem waitsFor_of_guest
    {position : Locking.Position}
    {current tindex : ThreadPosition}
    (isGuest : position.role current = .guest tindex none) :
    position.busy = true ∧ waitsFor position = 0 ∧
      area position ≠ .application := by
  cases position <;>
    simp_all [Locking.Position.role, Locking.Position.busy, waitsFor, area]

/-- A handler is never worse than a slot's lock. -/
theorem Local.rank_le
    (own : Local) :
    own.rank ≤ max (waitsFor own.caller.position) 2 := by
  unfold Local.rank
  split <;> omega

/-- The handler of a thread that is not in the application leaves at once. -/
theorem Local.Fits.rank_le
    {own : Local}
    (fits : own.Fits)
    (hidden : area own.caller.position ≠ .application) :
    own.rank ≤ waitsFor own.caller.position := by
  unfold Local.rank
  split
  · exact le_rfl
  · next acquires =>
      have active : Handling.Active own.handling := by
        rw [acquires]
        trivial
      exact absurd (fits.active active).1 hidden
  · exact Nat.zero_le _

variable
  (invariant : Locking.LockInvariant (locking state).shared
    (Locking.views (locking state)))
  (known : HandlersKnown state)
  (fits : ∀ thread, (state.locals thread).Fits)

include invariant in
/-- Who has a slot's lock waits at most for a writer. -/
theorem slot_holder
    {slot : SlotPosition}
    (taken : state.shared.locking.lock slot ≠ none) :
    ∃ holder, Unfinished state holder ∧ (state.locals holder).rank ≤ 2 := by
  obtain ⟨holder, held⟩ := Option.ne_none_iff_exists'.mp taken
  obtain ⟨busy, low⟩ :=
    waitsFor_of_slot ((invariant.slots slot holder).mp held)
  refine ⟨holder, Or.inl (Or.inr busy), ?_⟩
  exact (Local.rank_le _).trans (max_le low le_rfl)

include invariant fits in
/-- A writer waits at most at a barrier, and no handler holds it up. -/
theorem writer_waits
    {writer : Nat}
    (writes : state.shared.locking.rwlock.writer = some writer) :
    Unfinished state writer ∧ (state.locals writer).rank ≤ 1 := by
  obtain ⟨busy, low, hidden⟩ :=
    waitsFor_of_writing ((invariant.global.writer writer).mp writes)
  exact ⟨Or.inl (Or.inr busy), ((fits writer).rank_le hidden).trans low⟩

include invariant fits in
/-- A reader that cannot get the global lock waits for a writer. -/
theorem waits_of_rdlock
    (blocked : state.shared.locking.rwlock.writer ≠ none) :
    ∃ other, Unfinished state other ∧ (state.locals other).rank ≤ 1 := by
  obtain ⟨writer, writes⟩ := Option.ne_none_iff_exists'.mp blocked
  exact ⟨writer, writer_waits invariant fits writes⟩

include invariant known fits in
/-- Who cannot write under the global lock waits at most for a reader whose
handler waits for a writer. -/
theorem waits_of_wrlock
    (blocked : state.shared.locking.rwlock.wrlock thread = none ∨
      state.shared.handlers ≠ ∅) :
    ∃ other, Unfinished state other ∧ (state.locals other).rank ≤ 2 := by
  by_cases nobody : state.shared.locking.rwlock.writer = none
  swap
  · obtain ⟨other, busy, low⟩ := waits_of_rdlock invariant fits nobody
    exact ⟨other, busy, by omega⟩
  by_cases handled : state.shared.handlers = ∅
  · have taken : state.shared.locking.rwlock.wrlock thread = none :=
      blocked.resolve_right fun busy => busy handled
    unfold RwLock.wrlock at taken
    split_ifs at taken with available
    obtain ⟨reader, reads⟩ := Finset.nonempty_iff_ne_empty.mpr
      fun empty => available ⟨nobody, empty⟩
    obtain ⟨busy, low⟩ :=
      waitsFor_of_reading ((invariant.global.readers reader).mp reads)
    refine ⟨reader, Or.inl (Or.inr busy), ?_⟩
    exact (Local.rank_le _).trans (max_le (by
      rw [show waitsFor (state.locals reader).caller.position = 0 from low]
      omega) le_rfl)
  · obtain ⟨reader, member⟩ := Finset.nonempty_iff_ne_empty.mpr handled
    have reads := (known.readers reader).mp member
    refine ⟨reader, Or.inr ?_, ?_⟩
    · intro outside
      rw [outside] at reads
      exact reads
    · unfold Local.rank
      split
      · next outside =>
          rw [outside] at reads
          exact reads.elim
      · exact le_rfl
      · exact Nat.zero_le _

include invariant fits in
/-- A new thread that has not arrived at its barrier does not wait. -/
theorem guest_moves
    {tindex : ThreadPosition}
    {guest : Nat}
    (isGuest : Locking.roleOf (state.shared.locking.tasks guest)
      (Locking.views (locking state) guest) = .guest tindex none) :
    Unfinished state guest ∧ (state.locals guest).rank = 0 := by
  have runs (running : (Locking.views (locking state) guest).role =
      .guest tindex none) :
      Unfinished state guest ∧ (state.locals guest).rank = 0 := by
    obtain ⟨busy, low, hidden⟩ := waitsFor_of_guest running
    have below := (fits guest).rank_le hidden
    rw [show waitsFor (state.locals guest).caller.position = 0 from low]
      at below
    exact ⟨Or.inl (Or.inr busy), Nat.le_zero.mp below⟩
  cases task : state.shared.locking.tasks guest with
  | created place =>
      have created : (locking state).shared.tasks guest = .created place :=
        task
      have absent : (state.locals guest).caller.position = .absent :=
        invariant.absent_of_created created
      refine ⟨Or.inl (Or.inl ⟨place, task⟩), ?_⟩
      simp [Local.rank, (fits guest).absent absent, absent, waitsFor]
  | free =>
      rw [task] at isGuest
      exact runs isGuest
  | running =>
      rw [task] at isGuest
      exact runs isGuest

include fits in
/-- A parent that has not arrived at the barrier does not wait. -/
theorem host_moves
    {tindex : ThreadPosition}
    {host child : Nat}
    (isHost : Locking.roleOf (state.shared.locking.tasks host)
      (Locking.views (locking state) host) = .host tindex child none) :
    Unfinished state host ∧ (state.locals host).rank = 0 := by
  obtain ⟨busy, low, hidden⟩ :=
    waitsFor_of_host (Locking.role_of_roleOf isHost)
  have below := (fits host).rank_le hidden
  rw [show waitsFor (state.locals host).caller.position = 0 from low] at below
  exact ⟨Or.inl (Or.inr busy), Nat.le_zero.mp below⟩

include invariant fits in
/-- A thread that waits in a barrier for the thread it has created waits for
nothing beyond. -/
theorem waits_of_meeting
    {tindex : ThreadPosition}
    {child ticket : Nat}
    (position : (state.locals thread).caller.position =
      .meeting tindex child ticket)
    (waits : ¬ticket < (state.shared.locking.barrier tindex).round) :
    ∃ other, Unfinished state other ∧ (state.locals other).rank ≤ 0 := by
  have here : ((locking state).locals thread).position =
      .meeting tindex child ticket := position
  have present : ((locking state).locals thread).position.present = true := by
    rw [here]
    rfl
  have isHost : Locking.roleOf (state.shared.locking.tasks thread)
      (Locking.views (locking state) thread) =
        .host tindex child (some ticket) := by
    have role := invariant.role_of_present present
    rw [here] at role
    exact role
  obtain ⟨other, isGuest, expects⟩ := invariant.meeting.host thread tindex
    child (some ticket) isHost (by simpa [Barrier.Open, locking] using waits)
  cases expects
  obtain ⟨childBusy, low⟩ := guest_moves invariant fits isGuest
  exact ⟨child, childBusy, low.le⟩

include invariant fits in
/-- So does one that waits for its creator. -/
theorem waits_of_childMeeting
    {ticket : Nat}
    (position : (state.locals thread).caller.position = .childMeeting ticket)
    (waits : ¬ticket < (state.shared.locking.barrier
      (state.locals thread).caller.current).round) :
    ∃ other, Unfinished state other ∧ (state.locals other).rank ≤ 0 := by
  have here : ((locking state).locals thread).position =
      .childMeeting ticket := position
  have present : ((locking state).locals thread).position.present = true := by
    rw [here]
    rfl
  have isGuest : Locking.roleOf (state.shared.locking.tasks thread)
      (Locking.views (locking state) thread) =
        .guest (state.locals thread).caller.current (some ticket) := by
    have role := invariant.role_of_present present
    rw [here] at role
    exact role
  obtain ⟨parent, other, isHost, expects⟩ := invariant.meeting.guest
    thread _ (some ticket) isGuest
    (by simpa [Barrier.Open, locking] using waits)
  cases expects
  obtain ⟨parentBusy, low⟩ := host_moves fits isHost
  exact ⟨parent, parentBusy, low.le⟩

omit invariant known fits in
/-- A thread that looks for a free structure finds one. -/
theorem allocating_goesOn
    (free : Locking.FreeSlot state.shared.locking.manager.threads) :
    Locking.proceed environment (fun _ => 0) thread
      (state.locals thread).caller.current state.shared.locking .allocating ≠
        none := by
  obtain ⟨fewer, position, available⟩ := free
  obtain ⟨found, search⟩ := ThreadTable.exists_findAvailable available
    state.shared.locking.manager.threads.threadIndex
  obtain ⟨table, allocates⟩ := ThreadTable.exists_allocThreadIndex fewer search
  simp [Locking.proceed, allocates]

include invariant known fits in
/-- An operation whose next instruction is not possible waits for a thread that
waits for less. -/
theorem waits_of_blocked
    (room : ∀ thread,
      (state.locals thread).caller.position = .allocating →
      Locking.FreeSlot state.shared.locking.manager.threads)
    (busy : (state.locals thread).caller.position.busy = true)
    (outside : (state.locals thread).handling = none)
    (instruction : ∀ tindex,
      (state.locals thread).caller.position ≠ .spawning tindex)
    (blocked : Locking.proceed environment (fun _ => 0) thread
        (state.locals thread).caller.current state.shared.locking
        (state.locals thread).caller.position = none ∨
      locksForWriting (state.locals thread).caller.position = true ∧
        state.shared.handlers ≠ ∅) :
    ∃ other, Unfinished state other ∧
      (state.locals other).rank < (state.locals thread).rank := by
  have rank : (state.locals thread).rank =
      waitsFor (state.locals thread).caller.position := by
    rw [Local.rank, outside]
  rw [rank]
  have below {low high : Nat}
      (holder : ∃ other, Unfinished state other ∧
        (state.locals other).rank ≤ low)
      (less : low < high) :
      ∃ other, Unfinished state other ∧
        (state.locals other).rank < high := by
    obtain ⟨other, otherBusy, isLow⟩ := holder
    exact ⟨other, otherBusy, by omega⟩
  have writing (writes : Locking.proceed environment (fun _ => 0) thread
        (state.locals thread).caller.current state.shared.locking
        (state.locals thread).caller.position = none →
      state.shared.locking.rwlock.wrlock thread = none) :
      ∃ other, Unfinished state other ∧
        (state.locals other).rank ≤ 2 :=
    waits_of_wrlock invariant known fits
      (blocked.imp writes fun handled => handled.2)
  cases position : (state.locals thread).caller.position with
  | absent => simp [position, Locking.Position.busy] at busy
  | idle => simp [position, Locking.Position.busy] at busy
  | spawning tindex => exact absurd position (instruction tindex)
  | creating =>
      refine below (writing fun none => ?_) (Nat.lt_succ_self _)
      simpa [position, Locking.proceed] using none
  | exiting =>
      refine below (writing fun none => ?_) (Nat.lt_succ_self _)
      simpa [position, Locking.proceed] using none
  | locking request left sidx =>
      have taken : state.shared.locking.lock sidx ≠ none := by
        simpa [position, Locking.proceed, locksForWriting] using blocked
      exact below (slot_holder invariant taken) (show 2 < 4 by decide)
  | found addr slot =>
      have taken : state.shared.locking.lock slot ≠ none := by
        simpa [position, Locking.proceed, locksForWriting] using blocked
      exact below (slot_holder invariant taken) (show 2 < 4 by decide)
  | acquiring request left sidx =>
      have taken : state.shared.locking.rwlock.writer ≠ none := by
        simpa [position, Locking.proceed, locksForWriting, RwLock.rdlock]
          using blocked
      exact below (waits_of_rdlock invariant fits taken) (Nat.lt_succ_self _)
  | stopAcquiring addr slot =>
      have taken : state.shared.locking.rwlock.writer ≠ none := by
        simpa [position, Locking.proceed, locksForWriting, RwLock.rdlock]
          using blocked
      exact below (waits_of_rdlock invariant fits taken) (Nat.lt_succ_self _)
  | meeting tindex child ticket =>
      have waits : ¬ticket < (state.shared.locking.barrier tindex).round := by
        simpa [position, Locking.proceed, locksForWriting] using blocked
      exact below (waits_of_meeting invariant fits position waits)
        (Nat.lt_succ_self _)
  | childMeeting ticket =>
      have waits : ¬ticket < (state.shared.locking.barrier
          (state.locals thread).caller.current).round := by
        simpa [position, Locking.proceed, locksForWriting] using blocked
      exact below (waits_of_childMeeting invariant fits position waits)
        (Nat.lt_succ_self _)
  | allocating =>
      rw [position] at blocked
      exact absurd (blocked.resolve_right (by simp [locksForWriting]))
        (allocating_goesOn (room thread position))
  | testing request left sidx =>
      rw [position] at blocked
      simp only [Locking.proceed, locksForWriting] at blocked
      split_ifs at blocked <;> simp at blocked
  | scanning addr =>
      rw [position] at blocked
      simp only [Locking.proceed, locksForWriting] at blocked
      split at blocked <;> simp at blocked
  | rechecking addr slot =>
      rw [position] at blocked
      simp only [Locking.proceed, locksForWriting] at blocked
      split_ifs at blocked <;> simp at blocked
  | _ => simp [position, Locking.proceed, locksForWriting] at blocked

omit invariant known fits in
/-- What a thread can do is a step. -/
theorem canGoOn_of_advance
    {choice : Choice}
    (possible : advance environment thread state.shared (state.locals thread)
      choice ≠ none)
    (same : choice ≠ .trap) :
    CanGoOn environment state thread := by
  obtain ⟨moved, advances⟩ := Option.ne_none_iff_exists'.mp possible
  exact ⟨choice, same,
    ⟨moved.1, Function.update state.locals thread moved.2⟩,
    by simp [Interleaving.step, advances]⟩

/-- The next instruction of an operation, as a step of the thread. -/
theorem canGoOn_of_operate
    {changed : Local}
    {choice : Locking.Choice}
    (outside : (state.locals thread).handling = none)
    (performs : perform environment thread state.shared (state.locals thread)
        choice =
      operate environment thread state.shared changed choice)
    (caller : changed.caller = (state.locals thread).caller)
    (available : ¬(locksForWriting (state.locals thread).caller.position =
      true ∧ state.shared.handlers ≠ ∅))
    (possible : Locking.advance environment thread state.shared.locking
      (state.locals thread).caller choice ≠ none) :
    CanGoOn environment state thread := by
  have goesOn : advance environment thread state.shared (state.locals thread)
      (.base choice) ≠ none := by
    rw [advance, outside]
    simp only [advanceOutside]
    rw [performs, operate, caller, if_neg available]
    simpa using possible
  exact canGoOn_of_advance goesOn (by simp)

include invariant known fits in
/-- An unfinished thread can go on or waits for a thread that waits for less. -/
theorem goesOn_or_waits
    (environment : Environment)
    (room : ∀ thread,
      (state.locals thread).caller.position = .allocating →
      Locking.FreeSlot state.shared.locking.manager.threads)
    (busy : Unfinished state thread) :
    CanGoOn environment state thread ∨
      ∃ other, Unfinished state other ∧
        (state.locals other).rank < (state.locals thread).rank := by
  cases inside : (state.locals thread).handling with
  | some handling =>
      by_cases waits : handling = .acquiring ∧
          state.shared.locking.rwlock.writer ≠ none
      · obtain ⟨rfl, blocked⟩ := waits
        obtain ⟨other, otherBusy, low⟩ := waits_of_rdlock invariant fits blocked
        refine Or.inr ⟨other, otherBusy, ?_⟩
        simp only [Local.rank, inside] at low ⊢
        omega
      · have possible : advance environment thread state.shared
            (state.locals thread) (.handle true) ≠ none := by
          rw [advance, inside]
          cases handling <;> simp only [trapHandler] <;>
            (try split_ifs) <;> simp_all
        exact Or.inl (canGoOn_of_advance possible (by simp))
  | none =>
      rcases busy with (⟨tindex, created⟩ | busy) | handled
      · have task : state.shared.locking.tasks thread = .created tindex :=
          created
        have absent : (state.locals thread).caller.position = .absent :=
          invariant.absent_of_created created
        refine Or.inl (canGoOn_of_operate inside
          (show perform environment thread state.shared (state.locals thread)
            .start = _ from rfl) rfl ?_ ?_)
        · simp [absent, locksForWriting]
        · simp [Locking.advance, absent, task]
      swap
      · exact absurd inside handled
      by_cases spawns : ∃ tindex,
          (state.locals thread).caller.position = .spawning tindex
      · obtain ⟨tindex, position⟩ := spawns
        obtain ⟨bound, free⟩ := invariant.numbers
        have unused : state.shared.locking.tasks bound = .free :=
          free bound le_rfl
        refine Or.inl (canGoOn_of_operate inside
          (show perform environment thread state.shared (state.locals thread)
            (.spawn bound) = _ from rfl) rfl ?_ ?_)
        · simp [position, locksForWriting]
        · simp [Locking.advance, position, unused]
      by_cases blocked : Locking.proceed environment (fun _ => 0) thread
          (state.locals thread).caller.current state.shared.locking
          (state.locals thread).caller.position = none ∨
        locksForWriting (state.locals thread).caller.position = true ∧
          state.shared.handlers ≠ ∅
      · exact Or.inr (waits_of_blocked invariant known fits room busy inside
          (fun tindex position => spawns ⟨tindex, position⟩) blocked)
      · rw [not_or] at blocked
        have possible : Locking.advance environment thread
            state.shared.locking (state.locals thread).caller
            (.proceed fun _ => 0) ≠ none := by
          simpa [Locking.advance] using blocked.1
        by_cases meets : ∃ ticket,
            (state.locals thread).caller.position = .childMeeting ticket
        · obtain ⟨ticket, position⟩ := meets
          have performs : perform environment thread state.shared
              (state.locals thread) (.proceed fun _ => 0) =
                operate environment thread state.shared
                  { state.locals thread with isWatching := true }
                  (.proceed fun _ => 0) := by
            simp only [perform, position]
          exact Or.inl (canGoOn_of_operate inside performs rfl blocked.2
            possible)
        · have performs : perform environment thread state.shared
              (state.locals thread) (.proceed fun _ => 0) =
                operate environment thread state.shared (state.locals thread)
                  (.proceed fun _ => 0) := by
            simp only [perform]
            split
            · next ticket position => exact absurd ⟨ticket, position⟩ meets
            · rfl
          exact Or.inl (canGoOn_of_operate inside performs rfl blocked.2
            possible)

end Waiting

/-- In every state that a run with traps reaches, if some thread has an
operation or a handler to finish, then such a thread can go on: traps, wherever
they come, bring about no deadlock. -/
theorem trapped_thread_can_go_on
    {environment : Environment}
    {files : DescriptorTable File}
    {tid : Nat}
    {labels : List (Nat × Choice)}
    {state : State}
    (executed : run environment (start files tid) labels = some state)
    (room : ∀ thread,
      (state.locals thread).caller.position = .allocating →
      Locking.FreeSlot state.shared.locking.manager.threads)
    (busy : ∃ thread, Unfinished state thread) :
    ∃ thread, Unfinished state thread ∧ CanGoOn environment state thread := by
  obtain ⟨thread, unfinished⟩ := busy
  have invariant := lockInvariant_of_run executed
  have known := handlersKnown_of_run executed
  exact Interleaving.exists_movable (fun thread => (state.locals thread).rank)
    (fun _ isBusy =>
      goesOn_or_waits invariant known (fits_of_run executed) environment room
        isBusy)
    unfinished

/-- The next instructions of a thread. -/
def going (thread count : Nat) : List (Nat × Choice) :=
  List.replicate count (thread, .base (.proceed fun _ => 0))

/-- A thread that has the global lock in `stopWatch` is stopped, and its handler
asks for the lock while another thread waits to write under it. -/
def stoppedRun : List (Nat × Choice) :=
  (0, .pthreadCreate) :: going 0 2 ++ [(0, .base (.spawn 1))] ++
    [(1, .base .start)] ++ going 1 3 ++ going 0 4 ++ [(0, .leave)] ++
    going 1 1 ++
    [(0, .install), (0, .base (.setWatchpoint ⟨24, 8, 16, 40, false⟩))] ++
    going 0 7 ++ [(0, .leave), (0, .base (.disableWatchpointByAddr 8))] ++
    going 0 4 ++ [(0, .trap), (1, .pthreadCreate), (0, .handle false),
      (0, .handle false)]

/-- The handler goes on. -/
theorem trapped_thread_can_go_on_stoppedRun :
    ∃ state,
      run Manager.steadyEnvironment (start Manager.standardFiles 1)
          stoppedRun = some state ∧
        (state.locals 0).caller.position = .disabling 8 0 ∧
        (state.locals 0).handling = some .acquiring ∧
        (state.locals 1).caller.position = .creating ∧
        ∃ thread, Unfinished state thread ∧
          CanGoOn Manager.steadyEnvironment state thread := by
  have executed : run Manager.steadyEnvironment
      (start Manager.standardFiles 1) stoppedRun = some _ := rfl
  refine ⟨_, executed, rfl, rfl, rfl,
    trapped_thread_can_go_on executed ?_ ⟨0, Or.inr (by simp)⟩⟩
  intro thread position
  by_cases first : thread = 0
  · subst first
    cases position
  by_cases second : thread = 1
  · subst second
    cases position
  · have apart : ∀ label ∈ stoppedRun, label.1 ≠ thread := by
      simp [stoppedRun, going, Ne.symm first, Ne.symm second]
    rw [Interleaving.run_locals apart executed] at position
    simp [start, Locking.start, first] at position

end Trapping

end Causer
