import Causer.Library.Interleaving
import Causer.Library.Locks
import Causer.Manager

/-!
# Threads, locks and barriers

Every thread has its place in `setWatchpoint`, `disableWatchpointByAddr`,
`thread_create`, `startThread` or `threadExit`.  To take a slot's spin lock or
the global lock, to give it back, to arrive at a barrier and to leave it is a
step each; what is done between two of them is one step on the manager.  The number
of a thread that has been created is its kernel identifier.
-/

namespace Causer

open Locks

namespace Locking

/-- What the kernel knows of a thread number. -/
inductive Task
  | free
  /-- `pthread_create` has made the thread, `startThread` has not begun. -/
  | created (index : ThreadPosition)
  | running
  deriving DecidableEq

/-- What the threads share. -/
structure Shared where
  manager : Manager
  /-- The holder of the lock of every slot. -/
  lock : SlotPosition → Option Nat
  rwlock : RwLock Nat
  /-- The barriers of the thread structures. -/
  barrier : ThreadPosition → Barrier
  tasks : Nat → Task

/-- Where a thread is. -/
inductive Position
  /-- There is no such thread. -/
  | absent
  /-- In none of the operations. -/
  | idle
  /-- In `setWatchpoint`, before the unlocked test of a slot. -/
  | testing (request : Request) (left : Nat) (sidx : SlotPosition)
  | locking (request : Request) (left : Nat) (sidx : SlotPosition)
  /-- Before the test under the slot's lock. -/
  | locked (request : Request) (left : Nat) (sidx : SlotPosition)
  /-- The slot is valid, the global lock has not been acquired. -/
  | acquiring (request : Request) (left : Nat) (sidx : SlotPosition)
  | writing (request : Request) (left : Nat) (sidx : SlotPosition)
  | releasing (ret : Bool) (request : Request) (left : Nat)
      (sidx : SlotPosition)
  | unlocking (ret : Bool) (request : Request) (left : Nat)
      (sidx : SlotPosition)
  /-- In `disableWatchpointByAddr`, before the scan. -/
  | scanning (addr : Word)
  | found (addr : Word) (slot : SlotPosition)
  /-- Before the test under the slot's lock. -/
  | rechecking (addr : Word) (slot : SlotPosition)
  | stopAcquiring (addr : Word) (slot : SlotPosition)
  | disabling (addr : Word) (slot : SlotPosition)
  | stopReleasing (slot : SlotPosition)
  | stopUnlocking (slot : SlotPosition)
  /-- In `thread_create`, before the global lock has been acquired. -/
  | creating
  | allocating
  /-- Before `pthread_create`. -/
  | spawning (tindex : ThreadPosition)
  | arriving (tindex : ThreadPosition) (child : Nat)
  | meeting (tindex : ThreadPosition) (child : Nat) (ticket : Nat)
  /-- Before the new thread is added to the alive list. -/
  | inserting (tindex : ThreadPosition)
  | createReleasing
  /-- In `startThread`, before `initializeCurrentThread`. -/
  | initializing
  /-- Before `setWatchpointByThread`. -/
  | watching
  | childArriving
  | childMeeting (ticket : Nat)
  /-- In `threadExit`, before the global lock has been acquired. -/
  | exiting
  | exitDisabling
  | exitReleasing

/-- A thread: its structure and where it is. -/
structure Caller where
  current : ThreadPosition
  position : Position

/-- What a thread does where its program or the kernel has a choice. -/
inductive Choice
  | setWatchpoint (request : Request)
  | disableWatchpointByAddr (addr : Word)
  | threadCreate
  | threadExit
  /-- `pthread_create` returns the number of the new thread. -/
  | spawn (child : Nat)
  /-- `startThread` begins. -/
  | start
  /-- The next instruction, with the ratios it may read. -/
  | proceed (watchedRatio : Word → Int)

/-- Where `setWatchpoint` goes on after a slot that it did not install. -/
def nextSlot (request : Request) (left : Nat) (sidx : SlotPosition) :
    Position :=
  match left with
  | left + 2 => .testing request (left + 1) (sidx + 1)
  | _ => .idle

variable (environment : Environment)

/-- The next instruction of a thread in one of the operations. -/
def proceed (watchedRatio : Word → Int) (thread : Nat)
    (current : ThreadPosition) (shared : Shared) :
    Position → Option (Shared × Position)
  | .testing request left sidx =>
      if !(shared.manager.wp sidx).isUsed || request.ispreempt then
        some (shared, .locking request left sidx)
      else some (shared, nextSlot request left sidx)
  | .locking request left sidx =>
      if shared.lock sidx = none then
        some ({ shared with
          lock := Function.update shared.lock sidx (some thread) },
          .locked request left sidx)
      else none
  | .locked request left sidx =>
      let (isvalid, kernel) :=
        Manager.isValid environment watchedRatio request
          (shared.manager.wp sidx) shared.manager.kernel
      some ({ shared with manager := { shared.manager with kernel := kernel } },
        if isvalid then .acquiring request left sidx
        else .unlocking false request left sidx)
  | .acquiring request left sidx =>
      (shared.rwlock.rdlock thread).map fun rwlock =>
        ({ shared with rwlock := rwlock }, .writing request left sidx)
  | .writing request left sidx =>
      let (ret, manager) :=
        Manager.writeSlot environment request sidx shared.manager
      some ({ shared with manager := manager },
        .releasing ret request left sidx)
  | .releasing ret request left sidx =>
      some ({ shared with rwlock := shared.rwlock.unlock thread },
        .unlocking ret request left sidx)
  | .unlocking ret request left sidx =>
      some ({ shared with lock := Function.update shared.lock sidx none },
        if ret then .idle else nextSlot request left sidx)
  | .scanning addr =>
      match shared.manager.getWatchpointObjectByAddr addr with
      | some slot => some (shared, .found addr slot)
      | none => some (shared, .idle)
  | .found addr slot =>
      if shared.lock slot = none then
        some ({ shared with
          lock := Function.update shared.lock slot (some thread) },
          .rechecking addr slot)
      else none
  | .rechecking addr slot =>
      if (shared.manager.wp slot).isUsed ∧
          addr = (shared.manager.wp slot).objectstart then
        some (shared, .stopAcquiring addr slot)
      else some (shared, .stopUnlocking slot)
  | .stopAcquiring addr slot =>
      (shared.rwlock.rdlock thread).map fun rwlock =>
        ({ shared with rwlock := rwlock }, .disabling addr slot)
  | .disabling _ slot =>
      some ({ shared with
        manager :=
          (Manager.disableWatchpointObject environment slot
            shared.manager).2 }, .stopReleasing slot)
  | .stopReleasing slot =>
      some ({ shared with rwlock := shared.rwlock.unlock thread },
        .stopUnlocking slot)
  | .stopUnlocking slot =>
      some ({ shared with lock := Function.update shared.lock slot none },
        .idle)
  | .creating =>
      (shared.rwlock.wrlock thread).map fun rwlock =>
        ({ shared with rwlock := rwlock }, .allocating)
  | .allocating =>
      match shared.manager.threads.allocThreadIndex with
      | some (some tindex, table) =>
          some ({ shared with
            manager := { shared.manager with threads := table } },
            .spawning tindex)
      | _ => none
  | .arriving tindex child =>
      some ({ shared with
        barrier := Function.update shared.barrier tindex
          (shared.barrier tindex).arrive },
        .meeting tindex child (shared.barrier tindex).round)
  | .meeting tindex _ ticket =>
      if ticket < (shared.barrier tindex).round then
        some (shared, .inserting tindex)
      else none
  | .inserting tindex =>
      some ({ shared with
        manager :=
          { shared.manager with
            threads := shared.manager.threads.insertTail tindex } },
        .createReleasing)
  | .createReleasing =>
      some ({ shared with rwlock := shared.rwlock.unlock thread }, .idle)
  | .initializing =>
      some ({ shared with
        manager :=
          { shared.manager with
            threads := shared.manager.threads.setThread current thread } },
        .watching)
  | .watching =>
      some ({ shared with
        manager :=
          (Manager.setWatchpointByThread environment
            (shared.manager.threads.threads current) shared.manager).2 },
        .childArriving)
  | .childArriving =>
      some ({ shared with
        barrier := Function.update shared.barrier current
          (shared.barrier current).arrive },
        .childMeeting (shared.barrier current).round)
  | .childMeeting ticket =>
      if ticket < (shared.barrier current).round then some (shared, .idle)
      else none
  | .exiting =>
      (shared.rwlock.wrlock thread).map fun rwlock =>
        ({ shared with rwlock := rwlock }, .exitDisabling)
  | .exitDisabling =>
      some ({ shared with
        manager := Manager.threadExit environment current shared.manager },
        .exitReleasing)
  | .exitReleasing =>
      some ({ shared with
        rwlock := shared.rwlock.unlock thread
        tasks := Function.update shared.tasks thread .free }, .absent)
  | .absent => none
  | .idle => none
  | .spawning _ => none

/-- The step of a thread.  The initial thread, number zero, does not leave
through `threadExit`. -/
def advance (thread : Nat) (shared : Shared) (caller : Caller) :
    Choice → Option (Shared × Caller)
  | .setWatchpoint request =>
      match caller.position with
      | .idle => some (shared, { caller with
          position :=
            .testing request maxWatchpoints shared.manager.curIndex })
      | _ => none
  | .disableWatchpointByAddr addr =>
      match caller.position with
      | .idle => some (shared, { caller with position := .scanning addr })
      | _ => none
  | .threadCreate =>
      match caller.position with
      | .idle => some (shared, { caller with position := .creating })
      | _ => none
  | .threadExit =>
      match caller.position with
      | .idle =>
          if thread ≠ 0 then
            some (shared, { caller with position := .exiting })
          else none
      | _ => none
  | .spawn child =>
      match caller.position with
      | .spawning tindex =>
          if shared.tasks child = .free then
            some ({ shared with
              tasks := Function.update shared.tasks child (.created tindex) },
              { caller with position := .arriving tindex child })
          else none
      | _ => none
  | .start =>
      match caller.position, shared.tasks thread with
      | .absent, .created tindex =>
          some ({ shared with
            tasks := Function.update shared.tasks thread .running },
            ⟨tindex, .initializing⟩)
      | _, _ => none
  | .proceed watchedRatio =>
      (proceed environment watchedRatio thread caller.current shared
        caller.position).map fun moved =>
          (moved.1, { caller with position := moved.2 })

/-- The threads and what they share. -/
abbrev State := Interleaving.State Nat Shared Caller

/-- One step of one thread. -/
abbrev step : State → Nat × Choice → Option State :=
  Interleaving.step (advance environment)

/-- Execute a list of steps. -/
abbrev run : State → List (Nat × Choice) → Option State :=
  Machine.run (step environment)

/-- Only the initial thread runs. -/
def start (files : DescriptorTable File) (tid : Nat) : State where
  shared :=
    { manager := Manager.start files tid
      lock := fun _ => none
      rwlock := ⟨none, ∅⟩
      barrier := fun _ => ⟨false, 0⟩
      tasks := fun thread => if thread = 0 then .running else .free }
  locals := fun thread =>
    ⟨0, if thread = 0 then .idle else .absent⟩

end Locking

end Causer
