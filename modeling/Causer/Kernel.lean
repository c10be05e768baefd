import Causer.Library.DescriptorTable
import Causer.Library.Rounding
import Causer.Xdefines

/-!
# The kernel as the watchpoint manager sees it

The manager talks to the kernel through `perf_event_open`, `fcntl`, `ioctl`,
`close` and `clock_gettime`.  What the kernel decides by itself, namely which
calls fail, which free descriptor an open call returns and what the clock
reads, is collected in an `Environment` indexed by the number of calls made so
far, so that a quantifier over environments ranges over everything the kernel
can do.  The rounding of the machine's arithmetic on `double` is part of it.

A descriptor carries the event that its opening call created and whether the
event was enabled.  The code only ever looks at the number; the rest records
where the number came from.
-/

namespace Causer

/-- A hardware breakpoint event, opened for one thread at one address.  The
serial number tells it apart from every other event of the run. -/
structure PerfEvent where
  /-- How many events were opened before this one. -/
  serial : Nat
  /-- The watched address, `bp_addr`. -/
  address : Word
  /-- The thread for which the event was opened. -/
  tid : Nat
  deriving DecidableEq

/-- What an open descriptor refers to. -/
inductive File
  | app
  | perf (event : PerfEvent)
  deriving DecidableEq

/-- An `int` descriptor together with its history. -/
structure Descriptor where
  /-- The value the code sees. -/
  number : Int
  /-- The event whose installation returned this value, if one did. -/
  origin : Option PerfEvent
  /-- Whether that event was enabled through this value. -/
  enabled : Bool
  deriving DecidableEq

namespace Descriptor

/-- The literal `-1`. -/
def minusOne : Descriptor := ⟨-1, none, false⟩

/-- The value of a record in static storage that was never written. -/
def zero : Descriptor := ⟨0, none, false⟩

@[simp] theorem minusOne_number : minusOne.number = -1 := rfl

@[simp] theorem zero_number : zero.number = 0 := rfl

end Descriptor

/-- Binary digits of a `double`. -/
abbrev doublePrecision : Nat := 53

/-- To the nearest `double`. -/
def nearestDouble : Rounding doublePrecision := .toNearest doublePrecision (by decide)

/-- The choices of the kernel, indexed by the number of calls made before. -/
structure Environment where
  /-- Whether a call fails. -/
  fails : Nat → Bool
  /-- The descriptor that an opening call returns. -/
  descriptor : Nat → DescriptorTable File → Nat
  /-- Only free descriptors are handed out. -/
  descriptor_free : ∀ (call : Nat) (files : DescriptorTable File),
    files.lookup (descriptor call files) = none
  /-- The clock in milliseconds. -/
  clock : Nat → Word
  /-- How the machine rounds the results of arithmetic on `double`. -/
  rounding : Rounding doublePrecision

namespace Environment

/-- Every call succeeds. -/
def AllSucceed (environment : Environment) : Prop :=
  ∀ call, environment.fails call = false

/-- Every descriptor handed out is at least three. -/
def AboveStandard (environment : Environment) : Prop :=
  ∀ call files, 3 ≤ environment.descriptor call files

/-- The environment that hands out the lowest free descriptor, fails on the
calls selected by a predicate, reads its clock from a function and rounds to the
nearest `double`. -/
def lowestFree (fails : Nat → Bool) (clock : Nat → Word) : Environment where
  fails := fails
  descriptor := fun _ files => files.lowestFree
  descriptor_free := fun _ files => files.lookup_lowestFree
  clock := clock
  rounding := nearestDouble

end Environment

/-- One use of a descriptor by `disable_watchpoint`: the record it was given
and what the descriptor referred to at that moment. -/
structure Closing where
  /-- The record passed to `ioctl` and `close`. -/
  record : Descriptor
  /-- The file open under the record's number, if any. -/
  file : Option File
  deriving DecidableEq

/-- The kernel side of the manager's state. -/
structure Kernel where
  /-- The open descriptors of the process. -/
  files : DescriptorTable File
  /-- Number of calls made so far. -/
  calls : Nat
  /-- Number of perf events opened so far. -/
  opened : Nat
  /-- Every descriptor `disable_watchpoint` has closed, latest first. -/
  closings : List Closing

namespace Kernel

/-- Count one more call. -/
def tick (kernel : Kernel) : Kernel :=
  { kernel with calls := kernel.calls + 1 }

@[simp] theorem tick_files (kernel : Kernel) :
    kernel.tick.files = kernel.files := rfl

@[simp] theorem tick_closings (kernel : Kernel) :
    kernel.tick.closings = kernel.closings := rfl

@[simp] theorem tick_opened (kernel : Kernel) :
    kernel.tick.opened = kernel.opened := rfl

@[simp] theorem tick_calls (kernel : Kernel) :
    kernel.tick.calls = kernel.calls + 1 := rfl

end Kernel

variable (environment : Environment)

/-- `perf_event_open` for one thread and one address; `-1` on failure. -/
def perfEventOpen (address : Word) (tid : Nat)
    (kernel : Kernel) : Descriptor × Kernel :=
  if environment.fails kernel.calls then
    (.minusOne, kernel.tick)
  else
    let number : Nat := environment.descriptor kernel.calls kernel.files
    let event : PerfEvent := ⟨kernel.opened, address, tid⟩
    (⟨number, some event, false⟩,
      { kernel.tick with
        files := kernel.files.insert number (.perf event)
        opened := kernel.opened + 1 })

/-- A call that only reports success or failure, as `fcntl` and `ioctl` do for
the requests made here. -/
def plainCall (kernel : Kernel) : Int × Kernel :=
  (if environment.fails kernel.calls then -1 else 0, kernel.tick)

@[simp] theorem plainCall_snd (kernel : Kernel) :
    (plainCall environment kernel).2 = kernel.tick := rfl

/-- `close`.  The descriptor is released whatever the call reports. -/
def close (number : Nat) (kernel : Kernel) : Int × Kernel :=
  (if environment.fails kernel.calls then -1 else 0,
    { kernel.tick with files := kernel.files.erase number })

/-- `getCurrentTime`; a clock that cannot be read yields zero. -/
def getCurrentTime (kernel : Kernel) : Word × Kernel :=
  (if environment.fails kernel.calls then 0
    else environment.clock kernel.calls, kernel.tick)

@[simp] theorem getCurrentTime_snd (kernel : Kernel) :
    (getCurrentTime environment kernel).2 = kernel.tick := rfl

/-- `install_watchpoint`: open the event, then make it asynchronous, choose
its signal and its owner.  A failure after the first call returns `-1` and
leaves the event open. -/
def installWatchpoint (address : Word) (tid : Nat)
    (kernel : Kernel) : Descriptor × Kernel :=
  let (perfFd, kernel) := perfEventOpen environment address tid kernel
  if perfFd.number = -1 then
    (.minusOne, kernel)
  else
    -- The result of `F_GETFL` is or-ed into the flags without being tested.
    let (_, kernel) := plainCall environment kernel
    let (setFlags, kernel) := plainCall environment kernel
    if setFlags = -1 then
      (.minusOne, kernel)
    else
      let (setSignal, kernel) := plainCall environment kernel
      if setSignal = -1 then
        (.minusOne, kernel)
      else
        let (setOwner, kernel) := plainCall environment kernel
        if setOwner = -1 then
          (.minusOne, kernel)
        else
          (perfFd, kernel)

/-- `enable_watchpoint`: the `ENABLE` request on one descriptor. -/
def enableWatchpoint (_record : Descriptor)
    (kernel : Kernel) : Int × Kernel :=
  plainCall environment kernel

/-- The two calls made wherever a thread gets a watchpoint: install it, and
enable it unless the installation failed.  The flag tells whether both
succeeded. -/
def watchThread (address : Word) (tid : Nat)
    (kernel : Kernel) : Bool × Descriptor × Kernel :=
  let (record, kernel) := installWatchpoint environment address tid kernel
  if record.number = -1 then
    (false, record, kernel)
  else
    let (enabled, kernel) := enableWatchpoint environment record kernel
    if enabled = -1 then
      (false, record, kernel)
    else
      (true, { record with enabled := true }, kernel)

/-- `disable_watchpoint`: nothing but `-1` for the standard descriptors, else
the `DISABLE` request and `close`.  Both results are subtracted, so a failed
call makes the sum positive. -/
def disableWatchpoint (record : Descriptor)
    (kernel : Kernel) : Int × Kernel :=
  if record.number < 3 then
    (-1, kernel)
  else
    let number := record.number.toNat
    let closing : Closing := ⟨record, kernel.files.lookup number⟩
    let (disabled, kernel) := plainCall environment kernel
    let (closed, kernel) := close environment number kernel
    (0 - disabled - closed,
      { kernel with closings := closing :: kernel.closings })

/-- The event that an installation opens. -/
def Kernel.nextEvent (kernel : Kernel) (address : Word) (tid : Nat) :
    PerfEvent :=
  ⟨kernel.opened, address, tid⟩

/-- The descriptor that the environment hands out next. -/
def Kernel.nextNumber (kernel : Kernel) : Nat :=
  environment.descriptor kernel.calls kernel.files

/-- The kernel after an installation whose event could be opened: one more
event, one more descriptor, and no change to what was closed. -/
structure Kernel.Opened (kernel after : Kernel)
    (address : Word) (tid : Nat) : Prop where
  files : after.files = kernel.files.insert (kernel.nextNumber environment)
    (.perf (kernel.nextEvent address tid))
  opened : after.opened = kernel.opened + 1
  closings : after.closings = kernel.closings

theorem plainCall_cases (kernel : Kernel) :
    plainCall environment kernel = (0, kernel.tick) ∨
      plainCall environment kernel = (-1, kernel.tick) ∧
        environment.fails kernel.calls = true := by
  cases failed : environment.fails kernel.calls with
  | false => exact Or.inl (by simp [plainCall, failed])
  | true => exact Or.inr ⟨by simp [plainCall, failed], rfl⟩

variable {environment} in
theorem Kernel.Opened.tick
    {kernel after : Kernel}
    {address : Word}
    {tid : Nat}
    (opening : kernel.Opened environment after address tid) :
    kernel.Opened environment after.tick address tid :=
  ⟨opening.files, opening.opened, opening.closings⟩

/-- Opening an event either fails and changes nothing, or opens it under a
fresh descriptor. -/
theorem perfEventOpen_cases
    (address : Word) (tid : Nat) (kernel : Kernel) :
    (perfEventOpen environment address tid kernel = (.minusOne, kernel.tick) ∧
        environment.fails kernel.calls = true) ∨
      ∃ after,
        perfEventOpen environment address tid kernel =
          (⟨kernel.nextNumber environment,
            some (kernel.nextEvent address tid), false⟩, after) ∧
        kernel.Opened environment after address tid ∧
        after.calls = kernel.calls + 1 := by
  cases failed : environment.fails kernel.calls with
  | true => exact Or.inl ⟨by simp [perfEventOpen, failed], rfl⟩
  | false =>
      refine Or.inr ⟨{ kernel.tick with
        files := kernel.files.insert (kernel.nextNumber environment)
          (.perf (kernel.nextEvent address tid))
        opened := kernel.opened + 1 }, ?_, ⟨rfl, rfl, rfl⟩, rfl⟩
      simp [perfEventOpen, failed, Kernel.nextNumber, Kernel.nextEvent]

/-- Installing and enabling a watchpoint for a thread either opens no event
and yields `-1`, or opens one and yields `-1` or its descriptor.  It takes six
calls when it is successful, and it is unsuccessful only when one of these
fails that is not `F_GETFL`, the second. -/
theorem watchThread_cases
    (address : Word) (tid : Nat) (kernel : Kernel) :
    ∃ watched record after,
      watchThread environment address tid kernel = (watched, record, after) ∧
      (watched = true → after.calls = kernel.calls + 6) ∧
      (watched = false → ∃ offset < 6, offset ≠ 1 ∧
        environment.fails (kernel.calls + offset) = true) ∧
      (watched = false ∧ record = .minusOne ∧ after = kernel.tick ∨
        kernel.Opened environment after address tid ∧
          (watched = false ∧ record = .minusOne ∨
            record = ⟨kernel.nextNumber environment,
              some (kernel.nextEvent address tid), watched⟩)) := by
  rcases perfEventOpen_cases environment address tid kernel with
    ⟨failed, fails⟩ | ⟨first, succeeded, opening, calls⟩
  · refine ⟨false, .minusOne, kernel.tick, ?_, by simp,
      fun _ => ⟨0, by omega, by omega, fails⟩, Or.inl ⟨rfl, rfl, rfl⟩⟩
    simp [watchThread, installWatchpoint, failed]
  · have valid : ((kernel.nextNumber environment : Nat) : Int) ≠ -1 := by
      omega
    rcases plainCall_cases environment first.tick with
      setFlags | ⟨setFlags, fails⟩
    swap
    · refine ⟨false, .minusOne, first.tick.tick, ?_, by simp,
        fun _ => ⟨2, by omega, by omega, by simpa [calls] using fails⟩,
        Or.inr ⟨opening.tick.tick, Or.inl ⟨rfl, rfl⟩⟩⟩
      simp [watchThread, installWatchpoint, succeeded, valid, setFlags]
    rcases plainCall_cases environment first.tick.tick with
      setSignal | ⟨setSignal, fails⟩
    swap
    · refine ⟨false, .minusOne, first.tick.tick.tick, ?_, by simp,
        fun _ => ⟨3, by omega, by omega, by simpa [calls] using fails⟩,
        Or.inr ⟨opening.tick.tick.tick, Or.inl ⟨rfl, rfl⟩⟩⟩
      simp [watchThread, installWatchpoint, succeeded, valid, setFlags,
        setSignal]
    rcases plainCall_cases environment first.tick.tick.tick with
      setOwner | ⟨setOwner, fails⟩
    swap
    · refine ⟨false, .minusOne, first.tick.tick.tick.tick, ?_, by simp,
        fun _ => ⟨4, by omega, by omega, by simpa [calls] using fails⟩,
        Or.inr ⟨opening.tick.tick.tick.tick, Or.inl ⟨rfl, rfl⟩⟩⟩
      simp [watchThread, installWatchpoint, succeeded, valid, setFlags,
        setSignal, setOwner]
    rcases plainCall_cases environment first.tick.tick.tick.tick with
      enabling | ⟨enabling, fails⟩
    · refine ⟨true, _, first.tick.tick.tick.tick.tick, ?_,
        fun _ => by simp [calls], by simp,
        Or.inr ⟨opening.tick.tick.tick.tick.tick, Or.inr rfl⟩⟩
      simp [watchThread, installWatchpoint, succeeded, valid, setFlags,
        setSignal, setOwner, enableWatchpoint, enabling]
    · refine ⟨false, _, first.tick.tick.tick.tick.tick, ?_, by simp,
        fun _ => ⟨5, by omega, by omega, by simpa [calls] using fails⟩,
        Or.inr ⟨opening.tick.tick.tick.tick.tick, Or.inr rfl⟩⟩
      simp [watchThread, installWatchpoint, succeeded, valid, setFlags,
        setSignal, setOwner, enableWatchpoint, enabling]

/-- The kernel after a descriptor has been disabled and closed. -/
def Kernel.closed (kernel : Kernel) (record : Descriptor) : Kernel :=
  { kernel.tick.tick with
    files := kernel.files.erase record.number.toNat
    closings :=
      ⟨record, kernel.files.lookup record.number.toNat⟩ :: kernel.closings }

theorem disableWatchpoint_of_lt
    {record : Descriptor}
    (standard : record.number < 3)
    (kernel : Kernel) :
    disableWatchpoint environment record kernel = (-1, kernel) := by
  simp [disableWatchpoint, standard]

theorem disableWatchpoint_of_ge
    {record : Descriptor}
    (above : 3 ≤ record.number)
    (kernel : Kernel) :
    ∃ result, disableWatchpoint environment record kernel =
      (result, kernel.closed record) ∧
        (environment.AllSucceed → result = 0) := by
  have notStandard : ¬record.number < 3 := by omega
  refine ⟨(disableWatchpoint environment record kernel).1, ?_, ?_⟩
  · simp [disableWatchpoint, notStandard, plainCall, close, Kernel.closed]
  · intro succeed
    simp [disableWatchpoint, notStandard, plainCall, close, succeed _]

/-- A record is refused exactly when its number is below three; a call that
fails makes the result positive. -/
theorem disableWatchpoint_negative_iff
    (record : Descriptor) (kernel : Kernel) :
    (disableWatchpoint environment record kernel).1 < 0 ↔
      record.number < 3 := by
  by_cases standard : record.number < 3
  · rw [disableWatchpoint_of_lt environment standard]
    simp [standard]
  · rw [disableWatchpoint, if_neg standard]
    simp only [standard, iff_false, not_lt]
    rcases plainCall_cases environment kernel with
      disabled | ⟨disabled, -⟩ <;>
    · rw [disabled, close]
      dsimp only
      split_ifs <;> omega

end Causer
