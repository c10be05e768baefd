import Causer.Locking

/-!
# No cyclic wait

Whatever the threads do, the locks know their holders and the two parties of a
barrier find each other.  A thread that waits therefore waits for a thread that
is in an operation, and that one waits for less: who has a slot's lock waits at
most for the global lock, who has the global lock at most at a barrier, and the
partner at a barrier for nothing.
-/

namespace Causer

open Locks

namespace Locking

/-! ## What a thread has -/

/-- The locks that a thread has and its part in a meeting. -/
structure View where
  slot : Option SlotPosition
  mode : Mode
  role : Role ThreadPosition Nat
  present : Bool

/-- The slot whose lock is held. -/
def Position.slot : Position → Option SlotPosition
  | .locked _ _ sidx => some sidx
  | .acquiring _ _ sidx => some sidx
  | .writing _ _ sidx => some sidx
  | .releasing _ _ _ sidx => some sidx
  | .unlocking _ _ _ sidx => some sidx
  | .rechecking _ slot => some slot
  | .stopAcquiring _ slot => some slot
  | .disabling _ slot => some slot
  | .stopReleasing slot => some slot
  | .stopUnlocking slot => some slot
  | _ => none

/-- How the global lock is held. -/
def Position.mode : Position → Mode
  | .writing .. => .reading
  | .releasing .. => .reading
  | .disabling .. => .reading
  | .stopReleasing .. => .reading
  | .allocating => .writing
  | .spawning _ => .writing
  | .arriving .. => .writing
  | .meeting .. => .writing
  | .inserting _ => .writing
  | .createReleasing => .writing
  | .exitDisabling => .writing
  | .exitReleasing => .writing
  | _ => .out

/-- The part in a meeting; a parent is the host of its child. -/
def Position.role (current : ThreadPosition) :
    Position → Role ThreadPosition Nat
  | .arriving tindex child => .host tindex child none
  | .meeting tindex child ticket => .host tindex child (some ticket)
  | .initializing => .guest current none
  | .watching => .guest current none
  | .childArriving => .guest current none
  | .childMeeting ticket => .guest current (some ticket)
  | _ => .out

/-- There is such a thread. -/
def Position.present : Position → Bool
  | .absent => false
  | _ => true

def Caller.view (caller : Caller) : View where
  slot := caller.position.slot
  mode := caller.position.mode
  role := caller.position.role caller.current
  present := caller.position.present

section

variable (current : ThreadPosition) (position : Position)

@[simp] theorem view_slot :
    (Caller.view ⟨current, position⟩).slot = position.slot := rfl

@[simp] theorem view_mode :
    (Caller.view ⟨current, position⟩).mode = position.mode := rfl

@[simp] theorem view_role :
    (Caller.view ⟨current, position⟩).role = position.role current := rfl

@[simp] theorem view_present :
    (Caller.view ⟨current, position⟩).present = position.present := rfl

end

/-- The part of a thread that has been created is known before it runs. -/
def roleOf (task : Task) (view : View) : Role ThreadPosition Nat :=
  match task with
  | .created tindex => .guest tindex none
  | _ => view.role

/-- Only a thread that has the global lock for writing has a guest. -/
theorem Caller.mode_of_host
    {caller : Caller}
    {tindex : ThreadPosition}
    {child : Nat}
    {ticket : Option Nat}
    (isHost : caller.view.role = .host tindex child ticket) :
    caller.view.mode = .writing := by
  obtain ⟨current, position⟩ := caller
  cases position <;>
    simp_all [Position.role, Position.mode]

/-! ## What a step can do -/

/-- Everything a step of a thread can do to locks, barriers and threads. -/
inductive Effect (thread : Nat) (shared : Shared) (caller next : Caller) :
    Shared → Prop
  | internal (manager : Manager)
      (running : caller.view.present = true)
      (view : next.view = caller.view) :
      Effect thread shared caller next { shared with manager := manager }
  | lock (slot : SlotPosition)
      (free : shared.lock slot = none)
      (running : caller.view.present = true)
      (without : caller.view.slot = none)
      (view : next.view = { caller.view with slot := some slot }) :
      Effect thread shared caller next { shared with
        lock := Function.update shared.lock slot (some thread) }
  | unlock (slot : SlotPosition)
      (running : caller.view.present = true)
      (owned : caller.view.slot = some slot)
      (view : next.view = { caller.view with slot := none }) :
      Effect thread shared caller next { shared with
        lock := Function.update shared.lock slot none }
  | rdlock (rwlock : RwLock Nat)
      (taken : shared.rwlock.rdlock thread = some rwlock)
      (running : caller.view.present = true)
      (view : next.view = { caller.view with mode := .reading }) :
      Effect thread shared caller next { shared with rwlock := rwlock }
  | wrlock (rwlock : RwLock Nat)
      (taken : shared.rwlock.wrlock thread = some rwlock)
      (running : caller.view.present = true)
      (view : next.view = { caller.view with mode := .writing }) :
      Effect thread shared caller next { shared with rwlock := rwlock }
  | release
      (running : caller.view.present = true)
      (owned : caller.view.mode ≠ .out)
      (view : next.view = { caller.view with mode := .out }) :
      Effect thread shared caller next { shared with
        rwlock := shared.rwlock.unlock thread }
  | exit
      (running : caller.view = ⟨none, .writing, .out, true⟩)
      (view : next.view = ⟨none, .out, .out, false⟩) :
      Effect thread shared caller next { shared with
        rwlock := shared.rwlock.unlock thread
        tasks := Function.update shared.tasks thread .free }
  | spawn (child : Nat) (tindex : ThreadPosition)
      (free : shared.tasks child = .free)
      (running : caller.view = ⟨none, .writing, .out, true⟩)
      (view : next.view =
        { caller.view with role := .host tindex child none }) :
      Effect thread shared caller next { shared with
        tasks := Function.update shared.tasks child (.created tindex) }
  | start (tindex : ThreadPosition)
      (created : shared.tasks thread = .created tindex)
      (absent : caller.view = ⟨none, .out, .out, false⟩)
      (view : next.view = ⟨none, .out, .guest tindex none, true⟩) :
      Effect thread shared caller next { shared with
        tasks := Function.update shared.tasks thread .running }
  | hostArrives (tindex : ThreadPosition) (child : Nat)
      (running : caller.view.present = true)
      (isHost : caller.view.role = .host tindex child none)
      (view : next.view = { caller.view with
        role := .host tindex child (some (shared.barrier tindex).round) }) :
      Effect thread shared caller next { shared with
        barrier := Function.update shared.barrier tindex
          (shared.barrier tindex).arrive }
  | guestArrives (tindex : ThreadPosition)
      (running : caller.view.present = true)
      (isGuest : caller.view.role = .guest tindex none)
      (view : next.view = { caller.view with
        role := .guest tindex (some (shared.barrier tindex).round) }) :
      Effect thread shared caller next { shared with
        barrier := Function.update shared.barrier tindex
          (shared.barrier tindex).arrive }
  | leave
      (running : caller.view.present = true)
      (finished : caller.view.role.Over shared.barrier)
      (view : next.view = { caller.view with role := .out }) :
      Effect thread shared caller next shared

/-- The function of the source that a thread is in. -/
inductive Operation
  | setWatchpoint
  | disableWatchpointByAddr
  | threadCreate
  | startThread
  | threadExit
  deriving DecidableEq

/-- The function that a position belongs to. -/
def Position.operation : Position → Option Operation
  | .testing _ _ _ | .locking _ _ _ | .locked _ _ _ | .acquiring _ _ _
  | .writing _ _ _ | .releasing _ _ _ _ | .unlocking _ _ _ _ =>
      some .setWatchpoint
  | .scanning _ | .found _ _ | .rechecking _ _ | .stopAcquiring _ _
  | .disabling _ _ | .stopReleasing _ | .stopUnlocking _ =>
      some .disableWatchpointByAddr
  | .creating | .allocating | .spawning _ | .arriving _ _ | .meeting _ _ _
  | .inserting _ | .createReleasing => some .threadCreate
  | .initializing | .watching | .childArriving | .childMeeting _ =>
      some .startThread
  | .exiting | .exitDisabling | .exitReleasing => some .threadExit
  | _ => none

section Steps

variable {environment : Environment}
variable {thread : Nat} {shared after : Shared} {caller next : Caller}

/-- Going on with the next slot needs nothing. -/
theorem view_nextSlot (current : ThreadPosition) (ret : Bool)
    (request : Request) (left : Nat) (sidx : SlotPosition) :
    Caller.view ⟨current, if ret then .idle else nextSlot request left sidx⟩ =
      ⟨none, .out, .out, true⟩ := by
  cases ret with
  | true => rfl
  | false =>
      cases left with
      | zero => rfl
      | succ left => cases left <;> rfl

/-- The ticket of a round that is over. -/
theorem not_open_some
    {barrier : Barrier}
    {ticket : Nat}
    (finished : ticket < barrier.round) :
    ¬barrier.Open (some ticket) := by
  intro isOpen
  have reached := isOpen ticket rfl
  omega

section Operations

variable {watchedRatio : Word → Int} {current : ThreadPosition}
variable {position moved : Position}

/-- The effect of an instruction of `setWatchpoint`. -/
theorem setWatchpoint_effect
    (inside : position.operation = some .setWatchpoint)
    (proceeds : proceed environment watchedRatio thread current shared
      position = some (after, moved)) :
    Effect thread shared ⟨current, position⟩ ⟨current, moved⟩ after := by
  cases position with
  | testing request left sidx =>
      simp only [proceed] at proceeds
      split_ifs at proceeds with test
      · cases proceeds
        exact .internal shared.manager rfl rfl
      · cases proceeds
        exact .internal shared.manager rfl (view_nextSlot current false ..)
  | locking request left sidx =>
      simp only [proceed] at proceeds
      split_ifs at proceeds with free
      cases proceeds
      exact .lock sidx free rfl rfl rfl
  | locked request left sidx =>
      simp only [proceed, Option.some.injEq, Prod.mk.injEq] at proceeds
      obtain ⟨rfl, rfl⟩ := proceeds
      split_ifs with valid
      · exact .internal _ rfl rfl
      · exact .internal _ rfl rfl
  | acquiring request left sidx =>
      obtain ⟨rwlock, taken, result⟩ := Option.map_eq_some_iff.mp proceeds
      cases result
      exact .rdlock rwlock taken rfl rfl
  | writing request left sidx =>
      cases proceeds
      exact .internal _ rfl rfl
  | releasing ret request left sidx =>
      cases proceeds
      exact .release rfl (by simp [Position.mode]) rfl
  | unlocking ret request left sidx =>
      cases proceeds
      exact .unlock sidx rfl rfl (view_nextSlot current ret ..)
  | _ => cases inside

/-- The effect of an instruction of `disableWatchpointByAddr`. -/
theorem disableWatchpointByAddr_effect
    (inside : position.operation = some .disableWatchpointByAddr)
    (proceeds : proceed environment watchedRatio thread current shared
      position = some (after, moved)) :
    Effect thread shared ⟨current, position⟩ ⟨current, moved⟩ after := by
  cases position with
  | scanning addr =>
      simp only [proceed] at proceeds
      split at proceeds
      · cases proceeds
        exact .internal shared.manager rfl rfl
      · cases proceeds
        exact .internal shared.manager rfl rfl
  | found addr slot =>
      simp only [proceed] at proceeds
      split_ifs at proceeds with free
      cases proceeds
      exact .lock slot free rfl rfl rfl
  | rechecking addr slot =>
      simp only [proceed] at proceeds
      split_ifs at proceeds with test
      · cases proceeds
        exact .internal shared.manager rfl rfl
      · cases proceeds
        exact .internal shared.manager rfl rfl
  | stopAcquiring addr slot =>
      obtain ⟨rwlock, taken, result⟩ := Option.map_eq_some_iff.mp proceeds
      cases result
      exact .rdlock rwlock taken rfl rfl
  | disabling addr slot =>
      cases proceeds
      exact .internal _ rfl rfl
  | stopReleasing slot =>
      cases proceeds
      exact .release rfl (by simp [Position.mode]) rfl
  | stopUnlocking slot =>
      cases proceeds
      exact .unlock slot rfl rfl rfl
  | _ => cases inside

/-- The effect of an instruction of `thread_create`. -/
theorem threadCreate_effect
    (inside : position.operation = some .threadCreate)
    (proceeds : proceed environment watchedRatio thread current shared
      position = some (after, moved)) :
    Effect thread shared ⟨current, position⟩ ⟨current, moved⟩ after := by
  cases position with
  | creating =>
      obtain ⟨rwlock, taken, result⟩ := Option.map_eq_some_iff.mp proceeds
      cases result
      exact .wrlock rwlock taken rfl rfl
  | allocating =>
      simp only [proceed] at proceeds
      split at proceeds
      · cases proceeds
        exact .internal _ rfl rfl
      · contradiction
  | spawning tindex => simp [proceed] at proceeds
  | arriving tindex child =>
      cases proceeds
      exact .hostArrives tindex child rfl rfl rfl
  | meeting tindex child ticket =>
      simp only [proceed] at proceeds
      split_ifs at proceeds with finished
      cases proceeds
      exact .leave rfl (not_open_some finished) rfl
  | inserting tindex =>
      cases proceeds
      exact .internal _ rfl rfl
  | createReleasing =>
      cases proceeds
      exact .release rfl (by simp [Position.mode]) rfl
  | _ => cases inside

/-- The effect of an instruction of `startThread`, before the thread's function. -/
theorem startThread_effect
    (inside : position.operation = some .startThread)
    (proceeds : proceed environment watchedRatio thread current shared
      position = some (after, moved)) :
    Effect thread shared ⟨current, position⟩ ⟨current, moved⟩ after := by
  cases position with
  | initializing =>
      cases proceeds
      exact .internal _ rfl rfl
  | watching =>
      cases proceeds
      exact .internal _ rfl rfl
  | childArriving =>
      cases proceeds
      exact .guestArrives current rfl rfl rfl
  | childMeeting ticket =>
      simp only [proceed] at proceeds
      split_ifs at proceeds with finished
      cases proceeds
      exact .leave rfl (not_open_some finished) rfl
  | _ => cases inside

/-- The effect of an instruction of `threadExit`. -/
theorem threadExit_effect
    (inside : position.operation = some .threadExit)
    (proceeds : proceed environment watchedRatio thread current shared
      position = some (after, moved)) :
    Effect thread shared ⟨current, position⟩ ⟨current, moved⟩ after := by
  cases position with
  | exiting =>
      obtain ⟨rwlock, taken, result⟩ := Option.map_eq_some_iff.mp proceeds
      cases result
      exact .wrlock rwlock taken rfl rfl
  | exitDisabling =>
      cases proceeds
      exact .internal _ rfl rfl
  | exitReleasing =>
      cases proceeds
      exact .exit rfl rfl
  | _ => cases inside

/-- The effect of the next instruction. -/
theorem proceed_effect
    (proceeds : proceed environment watchedRatio thread current shared
      position = some (after, moved)) :
    Effect thread shared ⟨current, position⟩ ⟨current, moved⟩ after := by
  cases inside : position.operation with
  | some operation =>
      cases operation with
      | setWatchpoint => exact setWatchpoint_effect inside proceeds
      | disableWatchpointByAddr => exact disableWatchpointByAddr_effect inside proceeds
      | threadCreate => exact threadCreate_effect inside proceeds
      | startThread => exact startThread_effect inside proceeds
      | threadExit => exact threadExit_effect inside proceeds
  | none =>
      cases position with
      | absent => simp [proceed] at proceeds
      | idle => simp [proceed] at proceeds
      | _ => cases inside

end Operations

/-- The effect of a step. -/
theorem advance_effect
    {choice : Choice}
    (moved : advance environment thread shared caller choice =
      some (after, next)) :
    Effect thread shared caller next after := by
  obtain ⟨current, position⟩ := caller
  cases choice with
  | setWatchpoint request =>
      cases position <;> simp only [advance, reduceCtorEq] at moved
      cases moved
      exact .internal shared.manager rfl rfl
  | disableWatchpointByAddr addr =>
      cases position <;> simp only [advance, reduceCtorEq] at moved
      cases moved
      exact .internal shared.manager rfl rfl
  | threadCreate =>
      cases position <;> simp only [advance, reduceCtorEq] at moved
      cases moved
      exact .internal shared.manager rfl rfl
  | threadExit =>
      cases position <;> simp only [advance, reduceCtorEq] at moved
      split_ifs at moved
      cases moved
      exact .internal shared.manager rfl rfl
  | spawn child =>
      cases position <;> simp only [advance, reduceCtorEq] at moved
      split_ifs at moved with free
      cases moved
      exact .spawn child _ free rfl rfl
  | start =>
      simp only [advance] at moved
      split at moved
      · next absent created =>
          cases moved
          cases absent
          exact .start _ created rfl rfl
      · contradiction
  | proceed watchedRatio =>
      obtain ⟨⟨reached, position⟩, proceeds, result⟩ :=
        Option.map_eq_some_iff.mp moved
      cases result
      exact proceed_effect proceeds

end Steps

/-! ## What a step keeps -/

/-- The locks know their holders, the parties of the barriers find each other,
and a thread runs exactly when the kernel says so. -/
structure LockInvariant (shared : Shared) (views : Nat → View) : Prop where
  slots : Held shared.lock fun thread => (views thread).slot
  global : shared.rwlock.HeldBy fun thread => (views thread).mode
  running : ∀ thread,
    shared.tasks thread = .running ↔ (views thread).present = true
  meeting : Meeting shared.barrier fun thread =>
    roleOf (shared.tasks thread) (views thread)
  /-- The kernel does not run out of numbers. -/
  numbers : ∃ bound, ∀ thread, bound ≤ thread → shared.tasks thread = .free

section Effects

variable {thread : Nat} {shared after : Shared} {caller next : Caller}

/-- A step takes a free lock or gives back its own. -/
theorem Effect.slots
    {slots : Nat → Option SlotPosition}
    (effect : Effect thread shared caller next after)
    (held : Held shared.lock slots)
    (own : slots thread = caller.view.slot) :
    Held after.lock (Function.update slots thread next.view.slot) := by
  have keep (same : next.view.slot = caller.view.slot) :
      Held shared.lock (Function.update slots thread next.view.slot) := by
    rwa [same, ← own, Function.update_eq_self]
  cases effect with
  | lock slot free running without view =>
      rw [view]
      exact held.lock free (own.trans without)
  | unlock slot running owned view =>
      rw [view]
      exact held.unlock (own.trans owned)
  | exit running view => exact keep (by rw [view, running])
  | start tindex created absent view => exact keep (by rw [view, absent])
  | internal manager running view => exact keep (by rw [view])
  | rdlock rwlock taken running view => exact keep (by rw [view])
  | wrlock rwlock taken running view => exact keep (by rw [view])
  | release running owned view => exact keep (by rw [view])
  | spawn child tindex free running view => exact keep (by rw [view])
  | hostArrives tindex child running isHost view => exact keep (by rw [view])
  | guestArrives tindex running isGuest view => exact keep (by rw [view])
  | leave running finished view => exact keep (by rw [view])

/-- A step takes the global lock when it is available or gives it back. -/
theorem Effect.global
    {modes : Nat → Mode}
    (effect : Effect thread shared caller next after)
    (held : shared.rwlock.HeldBy modes)
    (own : modes thread = caller.view.mode) :
    after.rwlock.HeldBy (Function.update modes thread next.view.mode) := by
  have keep (same : next.view.mode = caller.view.mode) :
      shared.rwlock.HeldBy
        (Function.update modes thread next.view.mode) := by
    rwa [same, ← own, Function.update_eq_self]
  cases effect with
  | rdlock rwlock taken running view =>
      rw [view]
      exact held.rdlock taken
  | wrlock rwlock taken running view =>
      rw [view]
      exact held.wrlock taken
  | release running owned view =>
      rw [view]
      exact held.unlock (own.trans_ne owned)
  | exit running view =>
      rw [view]
      exact held.unlock (by rw [own, running]; exact Mode.noConfusion)
  | start tindex created absent view => exact keep (by rw [view, absent])
  | internal manager running view => exact keep (by rw [view])
  | lock slot free running without view => exact keep (by rw [view])
  | unlock slot running owned view => exact keep (by rw [view])
  | spawn child tindex free running view => exact keep (by rw [view])
  | hostArrives tindex child running isHost view => exact keep (by rw [view])
  | guestArrives tindex running isGuest view => exact keep (by rw [view])
  | leave running finished view => exact keep (by rw [view])

/-- The parts after a step of a running thread. -/
theorem roleOf_update
    {tasks : Nat → Task}
    {views : Nat → View}
    (running : tasks thread = .running)
    (view : View) :
    (fun other => roleOf (tasks other)
        (Function.update views thread view other)) =
      Function.update (fun other => roleOf (tasks other) (views other))
        thread view.role := by
  funext other
  by_cases same : other = thread
  · subst same
    simp [roleOf, running]
  · simp [same]

/-- A host runs. -/
theorem role_of_roleOf
    {task : Task}
    {view : View}
    {tindex : ThreadPosition}
    {child : Nat}
    {ticket : Option Nat}
    (isHost : roleOf task view = .host tindex child ticket) :
    view.role = .host tindex child ticket := by
  unfold roleOf at isHost
  split at isHost
  · contradiction
  · exact isHost

variable {views : Nat → View}

/-- A host has the global lock, so there is only one. -/
theorem LockInvariant.oneHost
    (invariant : LockInvariant shared views)
    (hosts : ∀ thread tindex child ticket,
      (views thread).role = .host tindex child ticket →
      (views thread).mode = .writing) :
    OneHost fun thread => roleOf (shared.tasks thread) (views thread) := by
  intro first second _ _ _ _ _ _ firstHosts secondHosts
  exact invariant.global.writer_unique
    (hosts _ _ _ _ (role_of_roleOf firstHosts))
    (hosts _ _ _ _ (role_of_roleOf secondHosts))

/-- The parties of the barriers go on finding each other. -/
theorem Effect.meeting
    (effect : Effect thread shared caller next after)
    (invariant : LockInvariant shared views)
    (own : views thread = caller.view)
    (hosts : ∀ thread tindex child ticket,
      (views thread).role = .host tindex child ticket →
      (views thread).mode = .writing) :
    Meeting after.barrier fun other => roleOf (after.tasks other)
      (Function.update views thread next.view other) := by
  have oneHost := invariant.oneHost hosts
  have runs (present : caller.view.present = true) :
      shared.tasks thread = .running := by
    rwa [invariant.running, own]
  have role (present : caller.view.present = true) :
      roleOf (shared.tasks thread) (views thread) = caller.view.role := by
    rw [runs present, own]
    rfl
  have keep (present : caller.view.present = true)
      (same : next.view.role = caller.view.role) :
      Meeting shared.barrier fun other => roleOf (shared.tasks other)
        (Function.update views thread next.view other) := by
    rw [roleOf_update (runs present), same, ← role present,
      Function.update_eq_self]
    exact invariant.meeting
  cases effect with
  | internal manager running view => exact keep running (by rw [view])
  | lock slot free running without view => exact keep running (by rw [view])
  | unlock slot running owned view => exact keep running (by rw [view])
  | rdlock rwlock taken running view => exact keep running (by rw [view])
  | wrlock rwlock taken running view => exact keep running (by rw [view])
  | release running owned view => exact keep running (by rw [view])
  | exit running view =>
      convert invariant.meeting using 2 with other
      by_cases same : other = thread
      · subst same
        rw [role (by rw [running]), running]
        simp [view, roleOf]
      · simp [same]
  | spawn child tindex free running view =>
      have present : caller.view.present = true := by rw [running]
      have different : child ≠ thread := by
        rintro rfl
        rw [runs present] at free
        contradiction
      have alone : ∀ other place guest ticket,
          roleOf (shared.tasks other) (views other) ≠
            .host place guest ticket := by
        intro other place guest ticket isHost
        have same : other = thread := invariant.global.writer_unique
          (hosts _ _ _ _ (role_of_roleOf isHost))
          (by simp only [own, running])
        subst same
        rw [role present, running] at isHost
        contradiction
      have invited : Meeting shared.barrier (Function.update
          (Function.update
            (fun other => roleOf (shared.tasks other) (views other))
            thread (.host tindex child none))
          child (.guest tindex none)) :=
        invariant.meeting.invite alone different
      convert invited using 2 with other
      by_cases asChild : other = child
      · subst asChild
        simp [roleOf]
      by_cases asParent : other = thread
      · subst asParent
        simp [asChild, runs present, view, roleOf]
      · simp [asChild, asParent]
  | start tindex created absent view =>
      convert invariant.meeting using 2 with other
      by_cases same : other = thread
      · subst same
        simp [roleOf, created, view]
      · simp [same]
  | hostArrives tindex child running isHost view =>
      rw [roleOf_update (runs running), view]
      exact invariant.meeting.hostArrives oneHost
        ((role running).trans isHost)
  | guestArrives tindex running isGuest view =>
      rw [roleOf_update (runs running), view]
      exact invariant.meeting.guestArrives oneHost
        ((role running).trans isGuest)
  | leave running finished view =>
      rw [roleOf_update (runs running), view]
      exact invariant.meeting.leave (by rwa [role running])

/-- A thread runs from its first step to the end of `threadExit`. -/
theorem Effect.running
    (effect : Effect thread shared caller next after)
    (invariant : LockInvariant shared views)
    (own : views thread = caller.view)
    (other : Nat) :
    after.tasks other = .running ↔
      (Function.update views thread next.view other).present = true := by
  have before := invariant.running other
  have keep (same : next.view.present = caller.view.present) :
      shared.tasks other = .running ↔
        (Function.update views thread next.view other).present = true := by
    by_cases asThread : other = thread
    · subst asThread
      rw [Function.update_self, same, ← own]
      exact before
    · rwa [Function.update_of_ne asThread]
  cases effect with
  | internal manager running view => exact keep (by rw [view])
  | lock slot free running without view => exact keep (by rw [view])
  | unlock slot running owned view => exact keep (by rw [view])
  | rdlock rwlock taken running view => exact keep (by rw [view])
  | wrlock rwlock taken running view => exact keep (by rw [view])
  | release running owned view => exact keep (by rw [view])
  | hostArrives tindex child running isHost view => exact keep (by rw [view])
  | guestArrives tindex running isGuest view => exact keep (by rw [view])
  | leave running finished view => exact keep (by rw [view])
  | exit running view =>
      by_cases same : other = thread
      · subst same
        simp [view]
      · simpa [same] using before
  | start tindex created absent view =>
      by_cases same : other = thread
      · subst same
        simp [view]
      · simpa [same] using before
  | spawn child tindex free running view =>
      have kept := keep (by rw [view])
      by_cases same : other = child
      · subst same
        rw [free] at kept
        simpa using kept
      · simpa [same] using kept

/-- A step uses at most one new number. -/
theorem Effect.numbers
    (effect : Effect thread shared caller next after)
    (numbers : ∃ bound, ∀ other, bound ≤ other → shared.tasks other = .free) :
    ∃ bound, ∀ other, bound ≤ other → after.tasks other = .free := by
  obtain ⟨bound, free⟩ := numbers
  cases effect with
  | exit running view =>
      refine ⟨bound, fun other beyond => ?_⟩
      by_cases same : other = thread
      · simp [same]
      · simpa [same] using free other beyond
  | spawn child tindex unused running view =>
      refine ⟨max bound (child + 1), fun other beyond => ?_⟩
      have apart : other ≠ child := by omega
      simpa [apart] using free other (by omega)
  | start tindex created absent view =>
      refine ⟨bound, fun other beyond => ?_⟩
      have apart : other ≠ thread := by
        rintro rfl
        rw [free other beyond] at created
        contradiction
      simpa [apart] using free other beyond
  | _ => exact ⟨bound, free⟩

/-- A step keeps the invariant. -/
theorem Effect.lockInvariant
    (effect : Effect thread shared caller next after)
    (invariant : LockInvariant shared views)
    (own : views thread = caller.view)
    (hosts : ∀ thread tindex child ticket,
      (views thread).role = .host tindex child ticket →
      (views thread).mode = .writing) :
    LockInvariant after (Function.update views thread next.view) where
  slots := by
    have held := effect.slots invariant.slots (by rw [own])
    convert held using 1
    exact Function.comp_update View.slot views thread next.view
  global := by
    have held := effect.global invariant.global (by rw [own])
    convert held using 1
    exact Function.comp_update View.mode views thread next.view
  running := effect.running invariant own
  meeting := effect.meeting invariant own hosts
  numbers := effect.numbers invariant.numbers

end Effects

section Runs

variable {environment : Environment}

/-- What the threads of a state have. -/
def views (state : State) (thread : Nat) : View :=
  (state.locals thread).view

theorem lockInvariant_start (files : DescriptorTable File) (tid : Nat) :
    LockInvariant (start files tid).shared (views (start files tid)) where
  slots := by
    intro slot thread
    by_cases initial : thread = 0 <;>
      simp [start, views, initial, Position.slot]
  global := by
    constructor
    · intro thread
      by_cases initial : thread = 0 <;>
        simp [start, views, initial, Position.mode]
    · intro thread
      by_cases initial : thread = 0 <;>
        simp [start, views, initial, Position.mode]
  running := by
    intro thread
    by_cases initial : thread = 0 <;>
      simp [start, views, initial, Position.present]
  meeting := by
    have out : ∀ thread, roleOf ((start files tid).shared.tasks thread)
        (views (start files tid) thread) = .out := by
      intro thread
      by_cases initial : thread = 0 <;>
        simp [start, views, initial, Position.role, roleOf]
    constructor
    · intro thread tindex child ticket isHost
      rw [out] at isHost
      contradiction
    · intro thread tindex ticket isGuest
      rw [out] at isGuest
      contradiction
    · intro tindex arrived
      contradiction
  numbers := by
    refine ⟨1, fun thread beyond => ?_⟩
    have other : thread ≠ 0 := by omega
    simp [start, other]

/-- The invariant holds in every state that a run reaches. -/
theorem lockInvariant_of_run
    {files : DescriptorTable File}
    {tid : Nat}
    {labels : List (Nat × Choice)}
    {state : State}
    (executed : run environment (start files tid) labels = some state) :
    LockInvariant state.shared (views state) := by
  have preserved (before : State) (label : Nat × Choice) (after : State)
      (invariant : LockInvariant before.shared (views before))
      (stepped : step environment before label = some after) :
      LockInvariant after.shared (views after) := by
    obtain ⟨shared, caller, moved, rfl⟩ := Interleaving.step_eq_some stepped
    have kept := (advance_effect moved).lockInvariant invariant rfl
      fun _ _ _ _ isHost => Caller.mode_of_host isHost
    convert kept using 1
    exact Function.comp_update Caller.view before.locals label.1 caller
  exact Machine.run_invariant_of_step preserved
    (lockInvariant_start files tid) executed

end Runs

/-! ## Who waits for whom -/

/-- The thread is in an operation. -/
def Position.busy : Position → Bool
  | .absent => false
  | .idle => false
  | _ => true

/-- What the thread may have to wait for: the partner at a barrier, the global
lock or a slot's lock. -/
def Position.rank : Position → Nat
  | .locking .. => 3
  | .found .. => 3
  | .acquiring .. => 2
  | .stopAcquiring .. => 2
  | .creating => 2
  | .exiting => 2
  | .meeting .. => 1
  | .childMeeting _ => 1
  | _ => 0

/-- The thread has an operation to finish, the prologue of `startThread` when it
has just been created. -/
def Unfinished (state : State) (thread : Nat) : Prop :=
  (∃ tindex, state.shared.tasks thread = .created tindex) ∨
    (state.locals thread).position.busy = true

/-- The thread can take a step. -/
def CanStep (environment : Environment) (state : State) (thread : Nat) :
    Prop :=
  ∃ choice next, step environment state (thread, choice) = some next

/-- `allocThreadIndex` finds its counter below the number of structures and one
of them available. -/
def FreeSlot (table : ThreadTable) : Prop :=
  table.totalAliveThreads < maxAliveThreads ∧
    ∃ position, (table.threads position).available = true

section Waiting

variable {environment : Environment} {state : State} {thread : Nat}

theorem Position.busy_of_slot
    {position : Position}
    {slot : SlotPosition}
    (holds : position.slot = some slot) :
    position.busy = true ∧ position.rank ≤ 2 := by
  cases position <;> simp_all [Position.slot, Position.busy, Position.rank]

theorem Position.busy_of_mode
    {position : Position}
    (holds : position.mode ≠ .out) :
    position.busy = true ∧ position.rank ≤ 1 := by
  cases position <;> simp_all [Position.mode, Position.busy, Position.rank]

theorem Position.busy_of_host
    {position : Position}
    {current tindex : ThreadPosition}
    {child : Nat}
    (isHost : position.role current = .host tindex child none) :
    position.busy = true ∧ position.rank = 0 := by
  cases position <;> simp_all [Position.role, Position.busy, Position.rank]

theorem Position.busy_of_guest
    {position : Position}
    {current tindex : ThreadPosition}
    (isGuest : position.role current = .guest tindex none) :
    position.busy = true ∧ position.rank = 0 := by
  cases position <;> simp_all [Position.role, Position.busy, Position.rank]

theorem Position.eq_absent
    {position : Position}
    (absent : position.present = false) :
    position = .absent := by
  cases position <;> first | rfl | contradiction

variable (invariant : LockInvariant state.shared (views state))
include invariant

/-- A thread that has been created has not begun. -/
theorem LockInvariant.absent_of_created
    {tindex : ThreadPosition}
    (created : state.shared.tasks thread = .created tindex) :
    (state.locals thread).position = .absent := by
  apply Position.eq_absent
  have stopped := (invariant.running thread).not
  rw [created] at stopped
  simpa [views, Caller.view] using stopped

/-- A thread that runs takes the part of its position. -/
theorem LockInvariant.role_of_present
    (present : (state.locals thread).position.present = true) :
    roleOf (state.shared.tasks thread) (views state thread) =
      (state.locals thread).position.role (state.locals thread).current := by
  rw [(invariant.running thread).mpr present]
  rfl

/-- Who has a slot's lock waits at most for the global lock. -/
theorem LockInvariant.slot_holder
    {slot : SlotPosition}
    (taken : state.shared.lock slot ≠ none) :
    ∃ holder, Unfinished state holder ∧
      (state.locals holder).position.rank ≤ 2 := by
  obtain ⟨holder, held⟩ := Option.ne_none_iff_exists'.mp taken
  obtain ⟨busy, low⟩ :=
    Position.busy_of_slot ((invariant.slots slot holder).mp held)
  exact ⟨holder, Or.inr busy, low⟩

/-- Who has the global lock waits at most at a barrier. -/
theorem LockInvariant.lock_holder
    (taken : state.shared.rwlock.wrlock thread = none) :
    ∃ holder, Unfinished state holder ∧
      (state.locals holder).position.rank ≤ 1 := by
  have holder (other : Nat) (has : (views state other).mode ≠ .out) :
      ∃ holder, Unfinished state holder ∧
        (state.locals holder).position.rank ≤ 1 := by
    obtain ⟨busy, low⟩ := Position.busy_of_mode has
    exact ⟨other, Or.inr busy, low⟩
  unfold RwLock.wrlock at taken
  split_ifs at taken with available
  by_cases nobody : state.shared.rwlock.writer = none
  · obtain ⟨reader, reads⟩ := Finset.nonempty_iff_ne_empty.mpr
      fun empty => available ⟨nobody, empty⟩
    exact holder reader (by simp [(invariant.global.readers reader).mp reads])
  · obtain ⟨writer, writes⟩ := Option.ne_none_iff_exists'.mp nobody
    exact holder writer (by simp [(invariant.global.writer writer).mp writes])

/-- What blocks a reader blocks a writer. -/
theorem LockInvariant.lock_holder_of_rdlock
    (taken : state.shared.rwlock.rdlock thread = none) :
    ∃ holder, Unfinished state holder ∧
      (state.locals holder).position.rank ≤ 1 := by
  have blocked : state.shared.rwlock.wrlock thread = none := by
    unfold RwLock.rdlock at taken
    split_ifs at taken with free
    simp [RwLock.wrlock, free]
  exact invariant.lock_holder blocked

/-- The child for which a parent waits does not wait. -/
theorem LockInvariant.child_of_meeting
    {tindex : ThreadPosition}
    {child ticket : Nat}
    (position : (state.locals thread).position =
      .meeting tindex child ticket)
    (waits : ¬ticket < (state.shared.barrier tindex).round) :
    ∃ other, Unfinished state other ∧
      (state.locals other).position.rank = 0 := by
  have isHost : roleOf (state.shared.tasks thread) (views state thread) =
      .host tindex child (some ticket) := by
    rw [invariant.role_of_present (by rw [position]; rfl), position]
    rfl
  obtain ⟨other, isGuest, expects⟩ :=
    invariant.meeting.host thread tindex child (some ticket) isHost
      (by simpa [Barrier.Open] using waits)
  cases expects
  refine ⟨child, ?_⟩
  cases task : state.shared.tasks child with
  | created place =>
      exact ⟨Or.inl ⟨place, task⟩,
        by rw [invariant.absent_of_created task]; rfl⟩
  | free =>
      rw [task] at isGuest
      obtain ⟨busy, low⟩ := Position.busy_of_guest isGuest
      exact ⟨Or.inr busy, low⟩
  | running =>
      rw [task] at isGuest
      obtain ⟨busy, low⟩ := Position.busy_of_guest isGuest
      exact ⟨Or.inr busy, low⟩

/-- The parent for which a child waits does not wait. -/
theorem LockInvariant.parent_of_childMeeting
    {ticket : Nat}
    (position : (state.locals thread).position = .childMeeting ticket)
    (waits : ¬ticket < (state.shared.barrier
      (state.locals thread).current).round) :
    ∃ other, Unfinished state other ∧
      (state.locals other).position.rank = 0 := by
  have isGuest : roleOf (state.shared.tasks thread) (views state thread) =
      .guest (state.locals thread).current (some ticket) := by
    rw [invariant.role_of_present (by rw [position]; rfl), position]
    rfl
  obtain ⟨parent, other, isHost, expects⟩ :=
    invariant.meeting.guest thread _ (some ticket) isGuest
      (by simpa [Barrier.Open] using waits)
  cases expects
  obtain ⟨busy, low⟩ := Position.busy_of_host (role_of_roleOf isHost)
  exact ⟨parent, Or.inr busy, low⟩

omit invariant in
/-- What a thread can do is a step. -/
theorem canStep_of_advance
    {environment : Environment}
    {choice : Choice}
    (possible : advance environment thread state.shared
      (state.locals thread) choice ≠ none) :
    CanStep environment state thread := by
  obtain ⟨moved, advances⟩ := Option.ne_none_iff_exists'.mp possible
  exact ⟨choice, ⟨moved.1, Function.update state.locals thread moved.2⟩,
    by simp [Interleaving.step, advances]⟩

/-- A thread whose next instruction is not possible waits for a thread that
waits for less. -/
theorem LockInvariant.waits_of_blocked
    {environment : Environment}
    (room : ∀ thread, (state.locals thread).position = .allocating →
      FreeSlot state.shared.manager.threads)
    (busy : (state.locals thread).position.busy = true)
    (instruction : ∀ tindex,
      (state.locals thread).position ≠ .spawning tindex)
    (blocked : proceed environment (fun _ => 0) thread
      (state.locals thread).current state.shared
      (state.locals thread).position = none) :
    ∃ other, Unfinished state other ∧
      (state.locals other).position.rank <
        (state.locals thread).position.rank := by
  have below {low high : Nat}
      (holder : ∃ holder, Unfinished state holder ∧
        (state.locals holder).position.rank ≤ low)
      (less : low < high) :
      ∃ other, Unfinished state other ∧
        (state.locals other).position.rank < high := by
    obtain ⟨other, otherBusy, isLow⟩ := holder
    exact ⟨other, otherBusy, by omega⟩
  cases position : (state.locals thread).position with
  | absent => simp [position, Position.busy] at busy
  | idle => simp [position, Position.busy] at busy
  | spawning tindex => exact absurd position (instruction tindex)
  | locking request left sidx =>
      have taken : state.shared.lock sidx ≠ none := by
        simpa [position, proceed] using blocked
      exact below (invariant.slot_holder taken) (Nat.lt_succ_self _)
  | found addr slot =>
      have taken : state.shared.lock slot ≠ none := by
        simpa [position, proceed] using blocked
      exact below (invariant.slot_holder taken) (Nat.lt_succ_self _)
  | acquiring request left sidx =>
      have taken : state.shared.rwlock.rdlock thread = none := by
        simpa [position, proceed] using blocked
      exact below (invariant.lock_holder_of_rdlock taken) (Nat.lt_succ_self _)
  | stopAcquiring addr slot =>
      have taken : state.shared.rwlock.rdlock thread = none := by
        simpa [position, proceed] using blocked
      exact below (invariant.lock_holder_of_rdlock taken) (Nat.lt_succ_self _)
  | creating =>
      have taken : state.shared.rwlock.wrlock thread = none := by
        simpa [position, proceed] using blocked
      exact below (invariant.lock_holder taken) (Nat.lt_succ_self _)
  | exiting =>
      have taken : state.shared.rwlock.wrlock thread = none := by
        simpa [position, proceed] using blocked
      exact below (invariant.lock_holder taken) (Nat.lt_succ_self _)
  | meeting tindex child ticket =>
      have waits : ¬ticket < (state.shared.barrier tindex).round := by
        simpa [position, proceed] using blocked
      obtain ⟨other, otherBusy, low⟩ :=
        invariant.child_of_meeting position waits
      exact below ⟨other, otherBusy, low.le⟩ (Nat.lt_succ_self _)
  | childMeeting ticket =>
      have waits : ¬ticket < (state.shared.barrier
          (state.locals thread).current).round := by
        simpa [position, proceed] using blocked
      obtain ⟨other, otherBusy, low⟩ :=
        invariant.parent_of_childMeeting position waits
      exact below ⟨other, otherBusy, low.le⟩ (Nat.lt_succ_self _)
  | allocating =>
      obtain ⟨below, free, available⟩ := room thread position
      obtain ⟨found, search⟩ := ThreadTable.exists_findAvailable available
        state.shared.manager.threads.threadIndex
      obtain ⟨table, allocates⟩ :=
        ThreadTable.exists_allocThreadIndex below search
      simp [position, proceed, allocates] at blocked
  | testing request left sidx =>
      rw [position] at blocked
      simp only [proceed] at blocked
      split_ifs at blocked
  | scanning addr =>
      rw [position] at blocked
      simp only [proceed] at blocked
      split at blocked <;> contradiction
  | rechecking addr slot =>
      rw [position] at blocked
      simp only [proceed] at blocked
      split_ifs at blocked
  | _ => simp [position, proceed] at blocked

/-- An unfinished thread can take a step or waits for a thread that waits for
less. -/
theorem LockInvariant.moves_or_waits
    (environment : Environment)
    (room : ∀ thread, (state.locals thread).position = .allocating →
      FreeSlot state.shared.manager.threads)
    (busy : Unfinished state thread) :
    CanStep environment state thread ∨
      ∃ other, Unfinished state other ∧
        (state.locals other).position.rank <
          (state.locals thread).position.rank := by
  rcases busy with ⟨tindex, created⟩ | busy
  · have absent := invariant.absent_of_created created
    have possible : advance environment thread state.shared
        (state.locals thread) .start ≠ none := by
      simp [advance, absent, created]
    exact Or.inl (canStep_of_advance possible)
  by_cases spawns : ∃ tindex,
      (state.locals thread).position = .spawning tindex
  · obtain ⟨tindex, position⟩ := spawns
    obtain ⟨bound, free⟩ := invariant.numbers
    have possible : advance environment thread state.shared
        (state.locals thread) (.spawn bound) ≠ none := by
      simp [advance, position, free bound le_rfl]
    exact Or.inl (canStep_of_advance possible)
  by_cases blocked : proceed environment (fun _ => 0) thread
      (state.locals thread).current state.shared
      (state.locals thread).position = none
  · exact Or.inr (invariant.waits_of_blocked room busy
      (fun tindex position => spawns ⟨tindex, position⟩) blocked)
  · have possible : advance environment thread state.shared
        (state.locals thread) (.proceed fun _ => 0) ≠ none := by
      simpa [advance] using blocked
    exact Or.inl (canStep_of_advance possible)

end Waiting

/-- In every state that a run reaches, if some thread has not finished its
operation, then a thread that has not finished its operation can take a step. -/
theorem unfinished_thread_can_step
    {environment : Environment}
    {files : DescriptorTable File}
    {tid : Nat}
    {labels : List (Nat × Choice)}
    {state : State}
    (executed : run environment (start files tid) labels = some state)
    (room : ∀ thread, (state.locals thread).position = .allocating →
      FreeSlot state.shared.manager.threads)
    (busy : ∃ thread, Unfinished state thread) :
    ∃ thread, Unfinished state thread ∧
      CanStep environment state thread := by
  obtain ⟨thread, unfinished⟩ := busy
  have invariant := lockInvariant_of_run executed
  exact Interleaving.exists_movable
    (fun thread => (state.locals thread).position.rank)
    (fun _ isBusy => invariant.moves_or_waits environment room isBusy)
    unfinished

/-- A thread is created, and its creator waits for it at the barrier. -/
def meetingRun : List (Nat × Choice) :=
  [(0, .threadCreate), (0, .proceed fun _ => 0), (0, .proceed fun _ => 0),
    (0, .spawn 1), (0, .proceed fun _ => 0)]

/-- The creator waits, and the new thread can start. -/
theorem unfinished_thread_can_step_meetingRun :
    ∃ state,
      run Manager.steadyEnvironment (start Manager.standardFiles 1)
          meetingRun = some state ∧
        ∃ thread, Unfinished state thread ∧
          CanStep Manager.steadyEnvironment state thread := by
  have executed : run Manager.steadyEnvironment
      (start Manager.standardFiles 1) meetingRun = some _ := rfl
  refine ⟨_, executed,
    unfinished_thread_can_step executed ?_ ⟨0, Or.inr rfl⟩⟩
  intro thread position
  by_cases first : thread = 0
  · subst first
    cases position
  · have apart : ∀ label ∈ meetingRun, label.1 ≠ thread := by
      simp [meetingRun, Ne.symm first]
    rw [Interleaving.run_locals apart executed] at position
    simp [start, first] at position

end Locking

end Causer
