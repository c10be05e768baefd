import Causer.Library.Interleaving
import Causer.Watchpoint

/-!
# Slots, field by field

Here every read and write of a slot is a step of its own.  A thread in
`malloc` tests a slot, locks it, tests it again and writes its fields one after
the other; a thread in `free` scans the slots without a lock, reading first
`isUsed` and then `objectstart`, and locks the slot it stops at for the recheck
and the release.  System calls succeed, so an installation always returns true
and a release always clears `isUsed`.
-/

namespace Causer

/-- A slot, without its descriptors, and the holder of its lock. -/
structure SharedSlot where
  isUsed : Bool
  addr : Word
  objectstart : Word
  objectsize : Word
  callstack : Word
  lock : Option Nat
  /-- Not a field of the source: `isUsed` has been written into an unused slot,
  and `objectstart` has not been written since. -/
  incomplete : Bool

/-- Where an address stands with the allocator. -/
inductive ObjectStatus
  | unallocated
  /-- Returned by the allocator to a thread whose `startWatch` is not over. -/
  | starting (owner : Nat)
  | live
  /-- Passed to `free` by a thread that has not returned from it. -/
  | freeing (owner : Nat)
  deriving DecidableEq

/-- What the threads share. -/
structure Shared where
  slots : SlotPosition → SharedSlot
  objects : Word → ObjectStatus

/-- The fields that `setWatchpoint` writes. -/
inductive Field
  | isUsed
  | addr
  | objectstart
  | objectsize
  | callstack

/-- Where a thread is. -/
inductive Position
  | idle
  /-- In `startWatch`, not in `setWatchpoint`. -/
  | starting (request : Request)
  /-- Before the unlocked test of a slot. -/
  | testing (request : Request) (left : Nat) (sidx : SlotPosition)
  | locking (request : Request) (left : Nat) (sidx : SlotPosition)
  /-- Holding the lock, before the second test. -/
  | locked (request : Request) (left : Nat) (sidx : SlotPosition)
  /-- Before the write of a field. -/
  | writing (request : Request) (sidx : SlotPosition) (field : Field)
  /-- Before the unlock of an installed slot. -/
  | installed (request : Request) (sidx : SlotPosition)
  /-- Before the unlock of a slot that was not valid. -/
  | unlocking (request : Request) (left : Nat) (sidx : SlotPosition)
  /-- `startWatch` returns true. -/
  | watched (request : Request)
  /-- In the scan of `stopWatch`, before reading `isUsed`. -/
  | scanning (object : Word) (slot : SlotPosition)
  /-- In the scan, before reading `objectstart`. -/
  | comparing (object : Word) (slot : SlotPosition)
  | waiting (object : Word) (slot : SlotPosition)
  /-- Holding the lock, before the recheck. -/
  | rechecking (object : Word) (slot : SlotPosition)
  | releasing (object : Word) (slot : SlotPosition)
  /-- Before the unlock in `disableWatchpointByAddr`. -/
  | unlockingStop (object : Word) (slot : SlotPosition)
  /-- `stopWatch` returns. -/
  | returning (object : Word)
  /-- Between `stopWatch` and the end of `free`. -/
  | stopped (object : Word)

/-- What a thread does where its program leaves a choice. -/
inductive Choice
  | malloc (request : Request)
  | free (object : Word)
  /-- Call `setWatchpoint`, starting at what was read from `curIndex`. -/
  | setWatchpoint (ispreempt : Bool) (curIndex : SlotPosition)
  /-- Leave `startWatch`. -/
  | finishStart
  /-- The next instruction; the flag is the outcome of a preemption test. -/
  | proceed (passes : Bool)

namespace SharedSlot

/-- The write of one field. -/
def write (request : Request) : Field → SharedSlot → SharedSlot
  | .isUsed, slot =>
      { slot with
        isUsed := true
        incomplete := slot.incomplete || !slot.isUsed }
  | .addr, slot => { slot with addr := request.addr }
  | .objectstart, slot =>
      { slot with objectstart := request.objectstart, incomplete := false }
  | .objectsize, slot => { slot with objectsize := request.objectsize }
  | .callstack, slot => { slot with callstack := request.callstack }

end SharedSlot

namespace Shared

/-- Replace one slot. -/
def setSlot (shared : Shared) (slot : SlotPosition)
    (object : SharedSlot) : Shared :=
  { shared with slots := Function.update shared.slots slot object }

/-- Take or give back a slot's lock. -/
def setLock (shared : Shared) (slot : SlotPosition)
    (holder : Option Nat) : Shared :=
  shared.setSlot slot { shared.slots slot with lock := holder }

/-- Change where an address stands. -/
def setObject (shared : Shared) (object : Word)
    (status : ObjectStatus) : Shared :=
  { shared with objects := Function.update shared.objects object status }

section

variable (shared : Shared) (slot : SlotPosition)

@[simp] theorem setSlot_objects (object : SharedSlot) :
    (shared.setSlot slot object).objects = shared.objects :=
  rfl

@[simp] theorem setSlot_slots_self (object : SharedSlot) :
    (shared.setSlot slot object).slots slot = object :=
  Function.update_self ..

@[simp] theorem setSlot_slots_of_ne
    {other : SlotPosition} (different : other ≠ slot) (object : SharedSlot) :
    (shared.setSlot slot object).slots other = shared.slots other :=
  Function.update_of_ne different ..

@[simp] theorem setLock_objects (holder : Option Nat) :
    (shared.setLock slot holder).objects = shared.objects :=
  rfl

/-- The lock that has just been taken. -/
@[simp] theorem lock_setLock_self (holder : Option Nat) :
    ((shared.setLock slot holder).slots slot).lock = holder := by
  simp [setLock]

@[simp] theorem setObject_slots (object : Word) (status : ObjectStatus) :
    (shared.setObject object status).slots = shared.slots :=
  rfl

@[simp] theorem setObject_objects_self
    (object : Word) (status : ObjectStatus) :
    (shared.setObject object status).objects object = status :=
  Function.update_self ..

@[simp] theorem setObject_objects_of_ne
    {object other : Word} (different : other ≠ object)
    (status : ObjectStatus) :
    (shared.setObject object status).objects other = shared.objects other :=
  Function.update_of_ne different ..

end

end Shared

namespace Position

/-- Where the writes go on after one of them. -/
def afterWrite (request : Request) (sidx : SlotPosition) : Field → Position
  | .isUsed => .writing request sidx .addr
  | .addr => .writing request sidx .objectstart
  | .objectstart => .writing request sidx .objectsize
  | .objectsize => .writing request sidx .callstack
  | .callstack => .installed request sidx

/-- Where `setWatchpoint` goes on after a slot it did not install. -/
def nextSlot (request : Request) (left : Nat)
    (sidx : SlotPosition) : Position :=
  match left with
  | left + 2 => .testing request (left + 1) (sidx + 1)
  | _ => .starting request

/-- Where the scan goes on after a slot that does not match. -/
def nextScan (object : Word) (slot : SlotPosition) : Position :=
  if slot = 3 then .returning object else .scanning object (slot + 1)

end Position

/-- The next step of a thread. -/
def advance (caller : Nat) (shared : Shared) :
    Position → Choice → Option (Shared × Position)
  | .idle, .malloc request =>
      if shared.objects request.objectstart = .unallocated then
        some (shared.setObject request.objectstart (.starting caller),
          .starting request)
      else none
  | .idle, .free object =>
      if shared.objects object = .live then
        some (shared.setObject object (.freeing caller), .scanning object 0)
      else none
  | .starting request, .setWatchpoint ispreempt curIndex =>
      some (shared, .testing { request with ispreempt := ispreempt }
        maxWatchpoints curIndex)
  | .starting request, .finishStart =>
      some (shared.setObject request.objectstart .live, .idle)
  | .testing request left sidx, .proceed _ =>
      if !(shared.slots sidx).isUsed || request.ispreempt then
        some (shared, .locking request left sidx)
      else some (shared, .nextSlot request left sidx)
  | .locking request left sidx, .proceed _ =>
      if (shared.slots sidx).lock = none then
        some (shared.setLock sidx (some caller), .locked request left sidx)
      else none
  | .locked request left sidx, .proceed passes =>
      if !(shared.slots sidx).isUsed || (request.ispreempt && passes) then
        some (shared, .writing request sidx .isUsed)
      else some (shared, .unlocking request left sidx)
  | .writing request sidx field, .proceed _ =>
      some (shared.setSlot sidx ((shared.slots sidx).write request field),
        .afterWrite request sidx field)
  | .installed request sidx, .proceed _ =>
      some (shared.setLock sidx none, .watched request)
  | .unlocking request left sidx, .proceed _ =>
      some (shared.setLock sidx none, .nextSlot request left sidx)
  | .watched request, .finishStart =>
      some (shared.setObject request.objectstart .live, .idle)
  | .scanning object slot, .proceed _ =>
      if (shared.slots slot).isUsed then
        some (shared, .comparing object slot)
      else some (shared, .nextScan object slot)
  | .comparing object slot, .proceed _ =>
      if (shared.slots slot).objectstart = object then
        some (shared, .waiting object slot)
      else some (shared, .nextScan object slot)
  | .waiting object slot, .proceed _ =>
      if (shared.slots slot).lock = none then
        some (shared.setLock slot (some caller), .rechecking object slot)
      else none
  | .rechecking object slot, .proceed _ =>
      if (shared.slots slot).isUsed ∧
          object = (shared.slots slot).objectstart then
        some (shared, .releasing object slot)
      else some (shared, .unlockingStop object slot)
  | .releasing object slot, .proceed _ =>
      some (shared.setSlot slot { shared.slots slot with isUsed := false },
        .unlockingStop object slot)
  | .unlockingStop object slot, .proceed _ =>
      some (shared.setLock slot none, .returning object)
  | .returning object, .proceed _ => some (shared, .stopped object)
  | .stopped object, .proceed _ =>
      some (shared.setObject object .unallocated, .idle)
  | _, _ => none

namespace FieldWrites

/-- Slots and threads together. -/
abbrev State := Interleaving.State Nat Shared Position

/-- One step of one thread. -/
abbrev step : State → Nat × Choice → Option State :=
  Interleaving.step advance

/-- Execute a list of steps. -/
abbrev run : State → List (Nat × Choice) → Option State :=
  Machine.run step

/-- No slot is used, nothing is allocated, every thread is idle. -/
def start : State where
  shared :=
    { slots := fun _ =>
        { isUsed := false
          addr := 0
          objectstart := 0
          objectsize := 0
          callstack := 0
          lock := none
          incomplete := false }
      objects := fun _ => .unallocated }
  locals := fun _ => .idle

end FieldWrites

end Causer
