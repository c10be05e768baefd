import Causer.Kernel
import Causer.ThreadTable
import Mathlib.Algebra.Order.Ring.Unbundled.Rat
import Mathlib.Data.Int.DivMod

/-!
# The watchpoint manager

The four slots of `watchpoint` and the functions that install, preempt,
release and look them up.  A locked section is the part of a function between
`pthread_spin_lock` and `pthread_spin_unlock`; every section is a definition of
its own, and the functions are written in terms of their sections.
-/

namespace Causer

/-- Position of a slot in `_wp`. -/
abbrev SlotPosition := Fin maxWatchpoints

/-- The per-thread records of one slot. -/
abbrev Records := ThreadPosition → Descriptor

/-- One slot of `_wp`. -/
structure WatchpointObject where
  /-- Whether the slot is in use. -/
  isUsed : Bool
  /-- When the current watchpoint was installed. -/
  installtime : Word
  /-- The watched address. -/
  addr : Word
  /-- Start of the watched object. -/
  objectstart : Word
  /-- Size of the watched object. -/
  objectsize : Word
  /-- The call site of the watched object. -/
  callstack : Word
  /-- The descriptor installed for each thread index. -/
  fd : Records

/-- The arguments of `setWatchpoint`. -/
structure Request where
  /-- The address to watch. -/
  addr : Word
  /-- Start of the object. -/
  objectstart : Word
  /-- Size of the object. -/
  objectsize : Word
  /-- The call site of the object. -/
  callstack : Word
  /-- Whether a used slot may be taken over. -/
  ispreempt : Bool
  deriving DecidableEq

/-- The state of `watchpoint`, of `xthread` and of the kernel behind them. -/
structure Manager where
  /-- `_numWatchpoints`. -/
  numWatchpoints : Int
  /-- `curIndex`. -/
  curIndex : SlotPosition
  /-- `_wp`. -/
  wp : SlotPosition → WatchpointObject
  /-- The thread table. -/
  threads : ThreadTable
  /-- The kernel. -/
  kernel : Kernel

/-- A 32-bit signed counter after an atomic addition. -/
def atomicAddFetch (counter amount : Int) : Int :=
  Int.bmod (counter + amount) (2 ^ 32)

section Loops

variable (environment : Environment)

/-- The loop that disables a slot's record for every alive thread and clears
it.  The flag tells whether no call of `disable_watchpoint` was negative. -/
def disableThreads :
    List Thread → Records → Kernel → Bool × Records × Kernel
  | [], fd, kernel => (true, fd, kernel)
  | thread :: threads, fd, kernel =>
      let (result, kernel) :=
        disableWatchpoint environment (fd thread.index) kernel
      let (rest, fd, kernel) :=
        disableThreads threads
          (Function.update fd thread.index .minusOne) kernel
      (!decide (result < 0) && rest, fd, kernel)

/-- The first loop of the inner `setWatchpoint`: install and enable thread by
thread until one fails, counting the threads that got their watchpoint. -/
def installThreads (addr : Word) :
    List Thread → Records → Kernel → Bool × Nat × Records × Kernel
  | [], fd, kernel => (true, 0, fd, kernel)
  | thread :: threads, fd, kernel =>
      let (watched, record, kernel) :=
        watchThread environment addr thread.tid kernel
      let fd := Function.update fd thread.index record
      if watched then
        let (ret, installednum, fd, kernel) :=
          installThreads addr threads fd kernel
        (ret, installednum + 1, fd, kernel)
      else
        (false, 0, fd, kernel)

/-- The second loop of the inner `setWatchpoint`: close what was installed,
up to and including the thread that failed. -/
def rollbackThreads :
    List Thread → Nat → Records → Kernel → Records × Kernel
  | [], _, fd, kernel => (fd, kernel)
  | thread :: threads, installednum, fd, kernel =>
      let (fd, kernel) :=
        if (fd thread.index).number ≠ -1 then
          (Function.update fd thread.index .minusOne,
            (disableWatchpoint environment (fd thread.index) kernel).2)
        else (fd, kernel)
      -- `--installednum < 0` ends the loop.
      match installednum with
      | 0 => (fd, kernel)
      | installednum + 1 =>
          rollbackThreads threads installednum fd kernel

/-- `setWatchpoint(addr, fd)`: install one address for every alive thread and
count it, or undo everything. -/
def setWatchpointFds (addr : Word) (threads : List Thread)
    (numWatchpoints : Int) (fd : Records) (kernel : Kernel) :
    Bool × Int × Records × Kernel :=
  let (ret, installednum, fd, kernel) :=
    installThreads environment addr threads fd kernel
  if ret then
    (true, atomicAddFetch numWatchpoints 1, fd, kernel)
  else
    let (fd, kernel) :=
      rollbackThreads environment threads installednum fd kernel
    (false, numWatchpoints, fd, kernel)

/-- `setWatchpointByThread` over the slots that are left: watch every used
slot for one thread until an installation fails. -/
def setWatchpointByThreadLoop (thread : Thread) :
    List SlotPosition → (SlotPosition → WatchpointObject) → Kernel →
      Bool × (SlotPosition → WatchpointObject) × Kernel
  | [], wp, kernel => (true, wp, kernel)
  | slot :: slots, wp, kernel =>
      if (wp slot).isUsed then
        let (watched, record, kernel) :=
          watchThread environment (wp slot).addr thread.tid kernel
        let wp := Function.update wp slot
          { wp slot with
            fd := Function.update (wp slot).fd thread.index record }
        if watched then
          setWatchpointByThreadLoop thread slots wp kernel
        else
          (false, wp, kernel)
      else
        setWatchpointByThreadLoop thread slots wp kernel

/-- The loop of `threadExit` over the slots: disable the exiting thread's
record of every slot, used or not, and leave the record as it is. -/
def exitSlots (wp : SlotPosition → WatchpointObject)
    (index : ThreadPosition) : List SlotPosition → Kernel → Kernel
  | [], kernel => kernel
  | slot :: slots, kernel =>
      exitSlots wp index slots
        (disableWatchpoint environment ((wp slot).fd index) kernel).2

end Loops

/-- Every position of `_wp` in order. -/
def slotPositions : List SlotPosition := List.finRange maxWatchpoints

/-- `watchedRatio * WP_PREEMPT_WEIGHT * (1 - difftime * 1.0 /
WP_PREEMPT_TIME_REDUCTION_BASE)`.  The first product is one of `int`s, the other
operations are on `double` and round their results. -/
def preemptionWeight (rounding : Rounding doublePrecision) (watchedRatio : Int)
    (difftime : Nat) : ℚ :=
  let share := rounding.round
    (rounding.round difftime / (wpPreemptTimeReductionBase : ℚ))
  rounding.round
    (((watchedRatio * wpPreemptWeight : Int) : ℚ) * rounding.round (1 - share))

-- Rounding decides ties: 1 - 0.8 is a little less than 0.2 as a `double`.
example :
    preemptionWeight nearestDouble 5 8000 < 2 ∧
      preemptionWeight (.exact doublePrecision) 5 8000 = 2 := by
  decide +kernel

/-- The test under which a used slot may be taken over. -/
def preemptionTest (rounding : Rounding doublePrecision)
    (watchedRatio : Word → Int) (installed : WatchpointObject)
    (current now : Word) : Bool :=
  let difftime : Nat := (now - installed.installtime).toNat
  decide (wpInstallMinTime ≤ difftime) &&
    decide (preemptionWeight rounding (watchedRatio installed.callstack)
      difftime < watchedRatio current)

namespace Manager

variable (environment : Environment)

/-- The locked test of `setWatchpoint`: a slot may be written when it is unused
or when the request preempts it. -/
def isValid (watchedRatio : Word → Int) (request : Request)
    (object : WatchpointObject) (kernel : Kernel) : Bool × Kernel :=
  if !object.isUsed then
    (true, kernel)
  else if request.ispreempt then
    let (now, kernel) := getCurrentTime environment kernel
    (preemptionTest environment.rounding watchedRatio object request.callstack
      now, kernel)
  else
    (false, kernel)

/-- Disable what a slot watches before it is taken over; an unused slot is
left alone. -/
def vacateSlot (threads : List Thread) (object : WatchpointObject)
    (kernel : Kernel) : Records × Kernel :=
  if object.isUsed then
    let (_, fd, kernel) := disableThreads environment threads object.fd kernel
    (fd, kernel)
  else (object.fd, kernel)

/-- The body of the locked section once a slot has been found valid: vacate
it, write the new object into it and install its address for every alive
thread. -/
def writeSlot (request : Request) (slot : SlotPosition)
    (manager : Manager) : Bool × Manager :=
  let object := manager.wp slot
  let threads := manager.threads.aliveThreads
  let (fd, kernel) := vacateSlot environment threads object manager.kernel
  let (ret, numWatchpoints, fd, kernel) :=
    setWatchpointFds environment request.addr threads
      manager.numWatchpoints fd kernel
  let written : WatchpointObject :=
    { isUsed := true
      installtime := object.installtime
      addr := request.addr
      objectstart := request.objectstart
      objectsize := request.objectsize
      callstack := request.callstack
      fd := fd }
  if ret then
    let (installtime, kernel) := getCurrentTime environment kernel
    (true,
      { manager with
        numWatchpoints := numWatchpoints
        -- `sidx` has been advanced past the slot.
        curIndex := slot + 1
        wp := Function.update manager.wp slot
          { written with installtime := installtime }
        kernel := kernel })
  else
    (false,
      { manager with
        numWatchpoints := numWatchpoints
        wp := Function.update manager.wp slot
          { written with isUsed := false }
        kernel := kernel })

/-- The locked section of `setWatchpoint` on one slot. -/
def setSection (watchedRatio : Word → Int) (request : Request)
    (slot : SlotPosition) (manager : Manager) : Bool × Manager :=
  let (isvalid, kernel) :=
    isValid environment watchedRatio request (manager.wp slot) manager.kernel
  if isvalid then
    writeSlot environment request slot { manager with kernel := kernel }
  else
    (false, { manager with kernel := kernel })

/-- `disableWatchpoint` on one slot. -/
def disableWatchpointObject (slot : SlotPosition)
    (manager : Manager) : Bool × Manager :=
  let object := manager.wp slot
  let (ret, fd, kernel) :=
    disableThreads environment manager.threads.aliveThreads object.fd
      manager.kernel
  (ret,
    { manager with
      numWatchpoints :=
        if ret then atomicAddFetch manager.numWatchpoints (-1)
        else manager.numWatchpoints
      wp := Function.update manager.wp slot
        { object with isUsed := if ret then false else object.isUsed, fd := fd }
      kernel := kernel })

/-- The locked section of `disableWatchpointByAddr` on the slot that the
unlocked scan returned. -/
def disableSection (addr : Word) (slot : SlotPosition)
    (manager : Manager) : Manager :=
  if (manager.wp slot).isUsed ∧ addr = (manager.wp slot).objectstart then
    (disableWatchpointObject environment slot manager).2
  else manager

/-- The loop of `setWatchpoint` for as many slots as are left. -/
def setWatchpointLoop (watchedRatio : Word → Int) (request : Request) :
    Nat → SlotPosition → Manager → Bool × Manager
  | 0, _, manager => (false, manager)
  | left + 1, sidx, manager =>
      if !(manager.wp sidx).isUsed || request.ispreempt then
        let (ret, manager) :=
          setSection environment watchedRatio request sidx manager
        if ret then (true, manager)
        else setWatchpointLoop watchedRatio request left (sidx + 1) manager
      else setWatchpointLoop watchedRatio request left (sidx + 1) manager

/-- `setWatchpoint`. -/
def setWatchpoint (watchedRatio : Word → Int) (request : Request)
    (manager : Manager) : Bool × Manager :=
  setWatchpointLoop environment watchedRatio request maxWatchpoints
    manager.curIndex manager

/-- `getWatchpointObjectByAddr`: the first used slot with an object start. -/
def getWatchpointObjectByAddr (addr : Word)
    (manager : Manager) : Option SlotPosition :=
  slotPositions.find? fun slot =>
    (manager.wp slot).isUsed && decide ((manager.wp slot).objectstart = addr)

/-- `getWatchpointObjectByFd`: the first used slot in which some alive thread
has the descriptor. -/
def getWatchpointObjectByFd (fd : Int)
    (manager : Manager) : Option SlotPosition :=
  slotPositions.find? fun slot =>
    (manager.wp slot).isUsed &&
      manager.threads.aliveThreads.any fun thread =>
        decide (((manager.wp slot).fd thread.index).number = fd)

/-- `disableWatchpointByAddr`. -/
def disableWatchpointByAddr (addr : Word) (manager : Manager) : Manager :=
  match manager.getWatchpointObjectByAddr addr with
  | some slot => disableSection environment addr slot manager
  | none => manager

/-- `setWatchpointByThread`. -/
def setWatchpointByThread (thread : Thread)
    (manager : Manager) : Bool × Manager :=
  let (ret, wp, kernel) :=
    setWatchpointByThreadLoop environment thread slotPositions manager.wp
      manager.kernel
  (ret, { manager with wp := wp, kernel := kernel })

/-- `thread_create` together with the prologue of `startThread` that the
parent waits for.  Undefined when no structure can be allocated: the code then
indexes `_threads` with `-1`. -/
def threadCreate (tid : Nat) (manager : Manager) : Option Manager :=
  match manager.threads.allocThreadIndex with
  | some (some tindex, table) =>
      let table := table.setThread tindex tid
      let (_, manager) :=
        setWatchpointByThread environment (table.threads tindex)
          { manager with threads := table }
      some { manager with threads := manager.threads.insertTail tindex }
  | _ => none

/-- `threadExit` of the thread at a position. -/
def threadExit (position : ThreadPosition) (manager : Manager) : Manager :=
  { manager with
    kernel := exitSlots environment manager.wp
      (manager.threads.threads position).index slotPositions manager.kernel
    threads := manager.threads.release position }

/-- The state after the constructors have run, in a process that has some
files open and whose initial thread has the given identifier. -/
def start (files : DescriptorTable File) (tid : Nat) : Manager where
  numWatchpoints := 0
  curIndex := 0
  wp := fun _ =>
    { isUsed := false
      installtime := 0
      addr := 0
      objectstart := 0
      objectsize := 0
      callstack := 0
      fd := fun _ => .zero }
  threads := ThreadTable.initializeTable tid
  kernel :=
    { files := files
      calls := 0
      opened := 0
      closings := [] }

end Manager

end Causer
