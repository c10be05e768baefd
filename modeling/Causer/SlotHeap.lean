import Causer.FieldWrites
import Causer.Manager

/-!
# Slots and objects

Threads call `malloc`, `free` and `realloc`, each call with the calling
thread's watching flag on or off, and the calls overlap.  A step is an unlocked
read of one field of a slot, the write of one, a locked section of the manager,
or a call of the underlying allocator.  The state keeps the slots and, of the
heap, which objects there are: how long an object is, and whether the
application has it or a call works on it.

A section of `setWatchpoint` that takes a slot holds the slot's lock while it
writes the fields one after the other.  What it does to the rest of the manager
is one step, as elsewhere: the manager is kept as the section leaves it, and
beside it, until the section ends, the slot as it was and how far the writes
have come.

The allocator's answers are chosen outside, among the addresses at which no
object starts.  So are the draws of `startWatch`, what it reads of the counter
and of `curIndex`, and, in `realloc`, whether the two usable sizes agree: they
are found through guards that the application may have overwritten.
-/

namespace Causer

/-- The field that `setWatchpoint` writes after one of them. -/
def Field.next : Field → Option Field
  | .isUsed => some .addr
  | .addr => some .objectstart
  | .objectstart => some .objectsize
  | .objectsize => some .callstack
  | .callstack => none

/-- A slot in memory, as long as the fields from this one on are still the
former ones. -/
def WatchpointObject.partlyWritten (former object : WatchpointObject) :
    Field → WatchpointObject
  | .isUsed =>
      { object with
        isUsed := former.isUsed
        addr := former.addr
        objectstart := former.objectstart
        objectsize := former.objectsize
        callstack := former.callstack }
  | .addr =>
      { object with
        isUsed := true
        addr := former.addr
        objectstart := former.objectstart
        objectsize := former.objectsize
        callstack := former.callstack }
  | .objectstart =>
      { object with
        isUsed := true
        objectstart := former.objectstart
        objectsize := former.objectsize
        callstack := former.callstack }
  | .objectsize =>
      { object with
        isUsed := true
        objectsize := former.objectsize
        callstack := former.callstack }
  | .callstack =>
      { object with
        isUsed := true
        callstack := former.callstack }

namespace SlotHeap

/-- An object that has been allocated and not yet freed. -/
structure HeapObject where
  start : Word
  size : Word
  /-- The thread whose call works on the object; none if it is live. -/
  caller : Option Nat

/-- A section of `setWatchpoint` that is writing the fields of a slot, with the
slot's lock held. -/
structure Unfinished where
  writer : Nat
  /-- The slot before the section. -/
  former : WatchpointObject
  /-- The field that is written next. -/
  field : Field

/-- What the threads share. -/
structure Shared where
  /-- The manager as the sections in progress will leave it. -/
  manager : Manager
  unfinished : SlotPosition → Option Unfinished
  objects : List HeapObject

/-- A call of the application. -/
inductive Call
  | malloc (sz : Word)
  | free (ptr : Word)
  | realloc (ptr sz : Word)

/-- What a call does once an object has been freed. -/
inductive AfterFree
  | done
  /-- `realloc` returns the new object. -/
  | handOut (buf : Word)
  /-- `realloc` keeps the old object and gives it its new size. -/
  | keep (ptr sz : Word)
  deriving DecidableEq

/-- What a call does once a watchpoint has been removed. -/
inductive AfterRemove
  | free (next : AfterFree)
  /-- `realloc` goes on with the allocation. -/
  | malloc (sz : Word)
  deriving DecidableEq

/-- What a call does once `xxmalloc_install_watchpoint` has returned. -/
inductive AfterInstall
  | handOut
  /-- `realloc` compares the new object with an old one. -/
  | compare (ptr : Word)
  deriving DecidableEq

/-- Where a thread is. -/
inductive Position
  | idle
  /-- In the unlocked scan of `disableWatchpointByAddr`, before reading `isUsed`
  of the first of these slots. -/
  | scanning (ptr : Word) (slots : List SlotPosition) (next : AfterRemove)
  /-- In the scan, before reading `objectstart` of a slot. -/
  | matching (ptr : Word) (slot : SlotPosition) (slots : List SlotPosition)
      (next : AfterRemove)
  /-- Before the locked section of `disableWatchpointByAddr`. -/
  | disabling (ptr : Word) (slot : SlotPosition) (next : AfterRemove)
  /-- Before the underlying `free`. -/
  | freeing (ptr : Word) (next : AfterFree)
  /-- Before the underlying `malloc`. -/
  | allocating (sz : Word) (next : AfterInstall)
  /-- At the start of `startWatch`. -/
  | starting (ptr sz : Word) (next : AfterInstall)
  /-- In `setWatchpoint`, before the unlocked test of a slot; the number of
  slots still to be visited counts this one. -/
  | testing (request : Request) (left : Nat) (sidx : SlotPosition)
      (next : AfterInstall)
  /-- In `setWatchpoint`, before the locked section of a slot. -/
  | locking (request : Request) (left : Nat) (sidx : SlotPosition)
      (next : AfterInstall)
  /-- In the locked section, before the write of a field; whether the section
  will return true. -/
  | writing (request : Request) (left : Nat) (sidx : SlotPosition)
      (ret : Bool) (next : AfterInstall)
  /-- In `startWatch`, before the draw that decides on preemption. -/
  | drawing (request : Request) (next : AfterInstall)
  /-- In `realloc`, before the comparison of the usable sizes. -/
  | comparing (ptr buf sz : Word)
  /-- In `realloc`, before `xxmalloc_updateheader`. -/
  | updating (ptr sz : Word)
  /-- Before the return of an object to the application. -/
  | returning (ptr : Word)
  deriving DecidableEq

/-- A thread's flag and where it is. -/
structure Caller where
  isCauser : Bool
  position : Position

/-- What a thread does where its program leaves a choice. -/
inductive Choice
  | call (isCauser : Bool) (call : Call)
  /-- The next step of a call. -/
  | proceed
  /-- The underlying `malloc` returns a block whose object starts here. -/
  | answer (ptr : Word)
  /-- `startWatch` finds a call site, and calls `setWatchpoint` at once or not:
  a slot looks free, and the call site has allocated less often than the
  threshold in this period.  The search begins at what is read from
  `curIndex`. -/
  | startWatch (callstack : Word) (search : Bool) (curIndex : SlotPosition)
  /-- The random draw is not above the call site's ratio, or it is. -/
  | draw (low : Bool) (curIndex : SlotPosition)
  /-- A locked section that reads these ratios. -/
  | lock (watchedRatio : Word → Int)
  /-- The usable sizes agree or not. -/
  | compared (same : Bool)
  | threadCreate (tid : Nat)
  | threadExit (position : ThreadPosition)

/-- `xxfree` of an object. -/
def xxfree (isCauser : Bool) (ptr : Word) (next : AfterFree) : Position :=
  if isCauser then .scanning ptr slotPositions (.free next)
  else .freeing ptr next

/-- `CUSTOM_MALLOC`, which returns `NULL` for a size that is too large. -/
def customMalloc (isCauser : Bool) (sz : Word) (next : AfterInstall) :
    Position :=
  if sz >>> 63 ≠ 0 then
    match next with
    | .handOut => .idle
    | .compare ptr => xxfree isCauser ptr .done
  else .allocating sz next

/-- What follows the removal of an object's watchpoint. -/
def AfterRemove.position (isCauser : Bool) (ptr : Word) :
    AfterRemove → Position
  | .free next => .freeing ptr next
  | .malloc sz => customMalloc isCauser sz (.compare ptr)

/-- `xxmalloc_remove_watchpoint`. -/
def removeWatchpoint (isCauser : Bool) (ptr : Word)
    (next : AfterRemove) : Position :=
  if isCauser then .scanning ptr slotPositions next
  else next.position isCauser ptr

/-- What follows the installation of a watchpoint for an object. -/
def AfterInstall.position (ptr sz : Word) : AfterInstall → Position
  | .handOut => .returning ptr
  | .compare old => .comparing old ptr sz

/-- `xxmalloc_install_watchpoint`. -/
def installWatchpoint (isCauser : Bool) (ptr sz : Word)
    (next : AfterInstall) : Position :=
  if isCauser then .starting ptr sz next else next.position ptr sz

/-- What follows the underlying `free`. -/
def AfterFree.position : AfterFree → Position
  | .done => .idle
  | .handOut buf => .returning buf
  | .keep ptr sz => .updating ptr sz

/-- The request of `startWatch`. -/
def watchRequest (ptr sz callstack : Word) (ispreempt : Bool) : Request where
  addr := ptr + sz
  objectstart := ptr
  objectsize := sz
  callstack := callstack
  ispreempt := ispreempt

/-- What follows a call of `setWatchpoint` that returned false. -/
def failed (request : Request) (next : AfterInstall) : Position :=
  if request.ispreempt then
    next.position request.objectstart request.objectsize
  else .drawing request next

/-- Where `setWatchpoint` goes on after a slot it did not write. -/
def nextSlot (request : Request) (left : Nat) (sidx : SlotPosition)
    (next : AfterInstall) : Position :=
  match left with
  | left + 2 => .testing request (left + 1) (sidx + 1) next
  | _ => failed request next

/-- Where `setWatchpoint` goes on when a section has returned. -/
def afterSection (request : Request) (left : Nat) (sidx : SlotPosition)
    (ret : Bool) (next : AfterInstall) : Position :=
  if ret then next.position request.objectstart request.objectsize
  else nextSlot request left sidx next

namespace Shared

/-- A slot as it is in memory. -/
def wp (shared : Shared) (slot : SlotPosition) : WatchpointObject :=
  match shared.unfinished slot with
  | none => shared.manager.wp slot
  | some unfinished =>
      unfinished.former.partlyWritten (shared.manager.wp slot)
        unfinished.field

/-- Nobody holds a slot's lock to write the slot. -/
def Settled (shared : Shared) : Prop :=
  ∀ slot, (shared.unfinished slot).isNone = true

instance (shared : Shared) : Decidable shared.Settled :=
  inferInstanceAs (Decidable (∀ _, _ = true))

/-- Begin, carry on or end the writes to a slot. -/
def setUnfinished (shared : Shared) (slot : SlotPosition)
    (unfinished : Option Unfinished) : Shared :=
  { shared with
    unfinished := Function.update shared.unfinished slot unfinished }

section SetUnfinished

variable (shared : Shared) (slot : SlotPosition)
variable (unfinished : Option Unfinished)

@[simp] theorem setUnfinished_manager :
    (shared.setUnfinished slot unfinished).manager = shared.manager :=
  rfl

@[simp] theorem setUnfinished_self :
    (shared.setUnfinished slot unfinished).unfinished slot = unfinished :=
  Function.update_self _ _ _

@[simp] theorem setUnfinished_of_ne
    {other : SlotPosition}
    (different : other ≠ slot) :
    (shared.setUnfinished slot unfinished).unfinished other =
      shared.unfinished other :=
  Function.update_of_ne different _ _

end SetUnfinished

/-- Change the object at an address. -/
def adjust (shared : Shared) (ptr : Word)
    (change : HeapObject → HeapObject) : Shared :=
  { shared with
    objects := shared.objects.map fun object =>
      if object.start = ptr then change object else object }

/-- Give the object at an address to a thread's call, or to the application. -/
def assign (shared : Shared) (ptr : Word) (caller : Option Nat) : Shared :=
  shared.adjust ptr fun object => { object with caller := caller }

/-- `xxmalloc_updateheader`. -/
def updateHeader (shared : Shared) (ptr sz : Word) : Shared :=
  shared.adjust ptr fun object => { object with size := sz }

/-- The underlying `malloc`, for a thread's call. -/
def allocate (shared : Shared) (ptr sz : Word) (thread : Nat) : Shared :=
  { shared with objects := shared.objects ++ [⟨ptr, sz, some thread⟩] }

/-- The underlying `free`. -/
def free (shared : Shared) (ptr : Word) : Shared :=
  { shared with
    objects := shared.objects.filter fun object => object.start ≠ ptr }

/-- Some object starts at the address and is live. -/
def IsLive (shared : Shared) (ptr : Word) : Prop :=
  ∃ object ∈ shared.objects, object.start = ptr ∧ object.caller = none

instance (shared : Shared) (ptr : Word) : Decidable (shared.IsLive ptr) :=
  inferInstanceAs (Decidable (∃ object ∈ shared.objects, _ ∧ _))

end Shared

/-- A call begins.  A pointer given to it is `NULL` or that of a live object,
which is the call's until it ends. -/
def beginCall (thread : Nat) (shared : Shared) (isCauser : Bool) :
    Call → Option (Shared × Position)
  | .malloc sz => some (shared, customMalloc isCauser sz .handOut)
  | .free ptr =>
      if ptr = 0 then some (shared, .idle)
      else if shared.IsLive ptr then
        some (shared.assign ptr (some thread), xxfree isCauser ptr .done)
      else none
  | .realloc ptr sz =>
      if ptr = 0 then some (shared, customMalloc isCauser sz .handOut)
      else if shared.IsLive ptr then
        some (shared.assign ptr (some thread),
          if sz = 0 then xxfree isCauser ptr .done
          else removeWatchpoint isCauser ptr (.malloc sz))
      else none

variable (environment : Environment)

/-- The next step of a call. -/
def proceed (shared : Shared) (isCauser : Bool) :
    Position → Option (Shared × Position)
  | .scanning ptr [] next => some (shared, next.position isCauser ptr)
  | .scanning ptr (slot :: slots) next =>
      if (shared.wp slot).isUsed then
        some (shared, .matching ptr slot slots next)
      else some (shared, .scanning ptr slots next)
  | .matching ptr slot slots next =>
      if (shared.wp slot).objectstart = ptr then
        some (shared, .disabling ptr slot next)
      else some (shared, .scanning ptr slots next)
  | .disabling ptr slot next =>
      if (shared.unfinished slot).isNone then
        some
          ({ shared with
              manager := Manager.disableSection environment ptr slot
                shared.manager },
            next.position isCauser ptr)
      else none
  | .freeing ptr next =>
      some (shared.free ptr, next.position)
  | .testing request left sidx next =>
      if !(shared.wp sidx).isUsed || request.ispreempt then
        some (shared, .locking request left sidx next)
      else some (shared, nextSlot request left sidx next)
  | .writing request left sidx ret next =>
      match shared.unfinished sidx with
      | none => none
      | some unfinished =>
          match unfinished.field.next with
          | some field =>
              some
                (shared.setUnfinished sidx
                    (some { unfinished with field := field }),
                  .writing request left sidx ret next)
          | none =>
              some (shared.setUnfinished sidx none,
                afterSection request left sidx ret next)
  | .updating ptr sz =>
      some (shared.updateHeader ptr sz,
        installWatchpoint isCauser ptr sz .handOut)
  | .returning ptr => some (shared.assign ptr none, .idle)
  | _ => none

/-- The next step of a thread. -/
def advance (thread : Nat) (shared : Shared) (caller : Caller)
    (choice : Choice) : Option (Shared × Caller) :=
  match caller.position, choice with
  | .idle, .call isCauser call =>
      (beginCall thread shared isCauser call).map fun (shared, position) =>
        (shared, ⟨isCauser, position⟩)
  | position, .proceed =>
      (proceed environment shared caller.isCauser position).map
        fun (shared, position) => (shared, { caller with position := position })
  | .allocating sz next, .answer ptr =>
      if ptr ≠ 0 ∧ ∀ object ∈ shared.objects, object.start ≠ ptr then
        some
          (shared.allocate ptr sz thread,
            { caller with
              position := installWatchpoint caller.isCauser ptr sz next })
      else none
  | .starting ptr sz next, .startWatch callstack search curIndex =>
      let request := watchRequest ptr sz callstack false
      some (shared,
        { caller with
          position :=
            if search then .testing request maxWatchpoints curIndex next
            else .drawing request next })
  | .locking request left sidx next, .lock watchedRatio =>
      if (shared.unfinished sidx).isNone then
        let former := shared.manager.wp sidx
        let isavalid := (Manager.isValid environment watchedRatio request
          former shared.manager.kernel).1
        let (ret, manager) :=
          Manager.setSection environment watchedRatio request sidx
            shared.manager
        let shared := { shared with manager := manager }
        if isavalid then
          some (shared.setUnfinished sidx (some ⟨thread, former, .isUsed⟩),
            { caller with position := .writing request left sidx ret next })
        else
          some (shared,
            { caller with position := nextSlot request left sidx next })
      else none
  | .drawing request next, .draw low curIndex =>
      some (shared,
        { caller with
          position :=
            if low then
              .testing { request with ispreempt := true } maxWatchpoints
                curIndex next
            else next.position request.objectstart request.objectsize })
  | .comparing ptr buf sz, .compared same =>
      some (shared,
        { caller with
          position :=
            if same then xxfree caller.isCauser buf (.keep ptr sz)
            else xxfree caller.isCauser ptr (.handOut buf) })
  | .idle, .threadCreate tid =>
      -- the write lock waits for the sections in progress
      if shared.Settled then
        (Manager.threadCreate environment tid shared.manager).map
          fun manager => ({ shared with manager := manager }, caller)
      else none
  | .idle, .threadExit position =>
      if shared.Settled then
        (Manager.step environment shared.manager (.threadExit position)).map
          fun manager => ({ shared with manager := manager }, caller)
      else none
  | _, _ => none

/-- Slots, objects and threads together. -/
abbrev State := Interleaving.State Nat Shared Caller

/-- One step of one thread. -/
abbrev step : State → Nat × Choice → Option State :=
  Interleaving.step (advance environment)

/-- Execute a list of steps. -/
abbrev run : State → List (Nat × Choice) → Option State :=
  Machine.run (step environment)

/-- No slot is used, nothing is allocated, every thread is idle. -/
def start (files : DescriptorTable File) (tid : Nat) : State where
  shared :=
    { manager := Manager.start files tid
      unfinished := fun _ => none
      objects := [] }
  locals := fun _ => ⟨true, .idle⟩

end SlotHeap

end Causer
