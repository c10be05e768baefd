import Causer.Library.Machine
import Causer.Watchpoint

/-!
# Runs of the watchpoint manager

The manager is driven by the locked sections of `setWatchpoint` and
`disableWatchpointByAddr`, by thread creation and exit, which hold the write
lock throughout, and by the application's own use of the descriptor table.
Sections on one slot exclude each other through the slot's lock, and creation
and exit exclude every section that has reached its read lock, so a run is a
list of such actions.  The actions are not tied to particular calls: any slot
may be visited at any time, as when the unlocked tests read stale values.
-/

namespace Causer

/-- One uninterrupted step of some thread. -/
inductive Action
  | setSection (watchedRatio : Word → Int) (request : Request)
      (slot : SlotPosition)
  | disableSection (addr : Word) (slot : SlotPosition)
  | threadCreate (tid : Nat)
  | threadExit (position : ThreadPosition)
  | appOpen
  | appClose (number : Nat)

namespace Manager

variable (environment : Environment)

/-- The application opens a file. -/
def appOpen (manager : Manager) : Manager :=
  let kernel := manager.kernel
  if environment.fails kernel.calls then
    { manager with kernel := kernel.tick }
  else
    { manager with
      kernel :=
        { kernel.tick with
          files := kernel.files.insert
            (environment.descriptor kernel.calls kernel.files) .app } }

/-- The application closes one of its files. -/
def appClose (number : Nat) (manager : Manager) : Option Manager :=
  if manager.kernel.files.lookup number = some .app then
    some { manager with kernel := (close environment number manager.kernel).2 }
  else none

/-- The effect of one action.  The initial thread, at position zero, never
leaves through `threadExit`. -/
def step (manager : Manager) : Action → Option Manager
  | .setSection watchedRatio request slot =>
      some (setSection environment watchedRatio request slot manager).2
  | .disableSection addr slot =>
      some (disableSection environment addr slot manager)
  | .threadCreate tid => threadCreate environment tid manager
  | .threadExit position =>
      if position ∈ manager.threads.aliveThreadsList ∧ position ≠ 0 then
        some (threadExit environment position manager)
      else none
  | .appOpen => some (appOpen environment manager)
  | .appClose number => appClose environment number manager

/-- The descriptor table of a process with only its standard streams open. -/
def standardFiles : DescriptorTable File :=
  ((DescriptorTable.empty.insert 0 .app).insert 1 .app).insert 2 .app

/-- A kernel on which every call succeeds, descriptors come lowest first and
each call takes a tenth of a second. -/
def steadyEnvironment : Environment :=
  .lowestFree (fun _ => false) fun call => 100 * BitVec.ofNat 64 call

/-- A request for an object of sixteen bytes. -/
def sampleRequest (objectstart callstack : Word) (ispreempt : Bool) :
    Request where
  addr := objectstart + 16
  objectstart := objectstart
  objectsize := 16
  callstack := callstack
  ispreempt := ispreempt

/-- Execute a list of actions. -/
abbrev run : Manager → List Action → Option Manager :=
  Machine.run (step environment)

section Sections

variable {request : Request} {slot : SlotPosition} {manager : Manager}

/-- The locked test changes nothing but the number of calls. -/
theorem isValid_snd
    (watchedRatio : Word → Int)
    (object : WatchpointObject)
    (kernel : Kernel) :
    (isValid environment watchedRatio request object kernel).2 = kernel ∨
      (isValid environment watchedRatio request object kernel).2 =
        kernel.tick := by
  unfold isValid
  split
  · exact Or.inl rfl
  · split
    · exact Or.inr rfl
    · exact Or.inl rfl

variable {environment} in
/-- A section on a slot that is not valid only reads the clock. -/
theorem setSection_of_invalid
    {watchedRatio : Word → Int}
    (invalid : (isValid environment watchedRatio request (manager.wp slot)
      manager.kernel).1 = false) :
    setSection environment watchedRatio request slot manager =
      (false, { manager with
        kernel := (isValid environment watchedRatio request
          (manager.wp slot) manager.kernel).2 }) := by
  simp [setSection, invalid]

variable {environment} in
/-- A section on a valid slot writes it. -/
theorem setSection_of_valid
    {watchedRatio : Word → Int}
    (valid : (isValid environment watchedRatio request (manager.wp slot)
      manager.kernel).1 = true) :
    setSection environment watchedRatio request slot manager =
      writeSlot environment request slot
        { manager with
          kernel := (isValid environment watchedRatio request
            (manager.wp slot) manager.kernel).2 } := by
  simp [setSection, valid]

/-- The result of `setWatchpoint(addr, fd)` tells whether it counted. -/
theorem setWatchpointFds_count
    (addr : Word) (threads : List Thread) (numWatchpoints : Int)
    (fd : Records) (kernel : Kernel) :
    (setWatchpointFds environment addr threads numWatchpoints fd
        kernel).2.1 =
      if (setWatchpointFds environment addr threads numWatchpoints fd
          kernel).1 then atomicAddFetch numWatchpoints 1
      else numWatchpoints := by
  unfold setWatchpointFds
  rcases installThreads environment addr threads fd kernel with
    ⟨_ | _, installednum, installed, after⟩
  · rfl
  · rfl

/-- The two loops a write consists of. -/
theorem exists_writeSlot_loops (request : Request) (slot : SlotPosition)
    (manager : Manager) :
    ∃ vacated vacatedKernel ret numWatchpoints fd kernel,
      vacateSlot environment manager.threads.aliveThreads (manager.wp slot)
          manager.kernel = (vacated, vacatedKernel) ∧
        setWatchpointFds environment request.addr
            manager.threads.aliveThreads manager.numWatchpoints vacated
            vacatedKernel = (ret, numWatchpoints, fd, kernel) :=
  ⟨_, _, _, _, _, _, rfl, rfl⟩

variable {environment} in
/-- A write in terms of the results of its two loops. -/
theorem writeSlot_eq
    {vacated fd : Records}
    {vacatedKernel kernel : Kernel}
    {ret : Bool}
    {numWatchpoints : Int}
    (vacates : vacateSlot environment manager.threads.aliveThreads
      (manager.wp slot) manager.kernel = (vacated, vacatedKernel))
    (installs : setWatchpointFds environment request.addr
      manager.threads.aliveThreads manager.numWatchpoints vacated
      vacatedKernel = (ret, numWatchpoints, fd, kernel)) :
    writeSlot environment request slot manager =
      (ret,
        { manager with
          numWatchpoints := numWatchpoints
          curIndex := if ret then slot + 1 else manager.curIndex
          wp := Function.update manager.wp slot
            { isUsed := ret
              installtime :=
                if ret then (getCurrentTime environment kernel).1
                else (manager.wp slot).installtime
              addr := request.addr
              objectstart := request.objectstart
              objectsize := request.objectsize
              callstack := request.callstack
              fd := fd }
          kernel := if ret then kernel.tick else kernel }) := by
  cases ret <;> simp [writeSlot, vacates, installs]

/-- What a write does to everything but the records: the slot holds the
request and is used exactly when the write succeeded. -/
theorem writeSlot_wp
    (request : Request) (slot : SlotPosition) (manager : Manager) :
    ∃ installtime fd,
      (writeSlot environment request slot manager).2.wp =
        Function.update manager.wp slot
          { isUsed := (writeSlot environment request slot manager).1
            installtime := installtime
            addr := request.addr
            objectstart := request.objectstart
            objectsize := request.objectsize
            callstack := request.callstack
            fd := fd } := by
  obtain ⟨_, _, ret, _, _, _, vacates, installs⟩ :=
    exists_writeSlot_loops environment request slot manager
  rw [writeSlot_eq vacates installs]
  exact ⟨_, _, rfl⟩

@[simp] theorem writeSlot_threads
    (request : Request) (slot : SlotPosition) (manager : Manager) :
    (writeSlot environment request slot manager).2.threads =
      manager.threads := by
  obtain ⟨_, _, ret, _, _, _, vacates, installs⟩ :=
    exists_writeSlot_loops environment request slot manager
  rw [writeSlot_eq vacates installs]

/-- Only a write that succeeds is counted. -/
theorem writeSlot_numWatchpoints
    (request : Request) (slot : SlotPosition) (manager : Manager) :
    (writeSlot environment request slot manager).2.numWatchpoints =
      if (writeSlot environment request slot manager).1 then
        atomicAddFetch manager.numWatchpoints 1
      else manager.numWatchpoints := by
  obtain ⟨vacated, vacatedKernel, ret, _, _, _, vacates, installs⟩ :=
    exists_writeSlot_loops environment request slot manager
  have counted := setWatchpointFds_count environment request.addr
    manager.threads.aliveThreads manager.numWatchpoints vacated vacatedKernel
  rw [installs] at counted
  rw [writeSlot_eq vacates installs]
  exact counted

variable {environment} in
/-- One round of the prologue at a used slot. -/
theorem setWatchpointByThreadLoop_of_used
    {thread : Thread}
    {first : SlotPosition}
    {wp : SlotPosition → WatchpointObject}
    {kernel after : Kernel}
    {watched : Bool}
    {record : Descriptor}
    (used : (wp first).isUsed = true)
    (installs : watchThread environment (wp first).addr thread.tid kernel =
      (watched, record, after))
    (slots : List SlotPosition) :
    ∃ between : SlotPosition → WatchpointObject,
      between first =
          { wp first with
            fd := Function.update (wp first).fd thread.index record } ∧
        (∀ slot ≠ first, between slot = wp slot) ∧
        setWatchpointByThreadLoop environment thread (first :: slots) wp
            kernel =
          if watched then
            setWatchpointByThreadLoop environment thread slots between after
          else (false, between, after) := by
  refine ⟨_, Function.update_self .., fun slot different =>
    Function.update_of_ne different .., ?_⟩
  simp [setWatchpointByThreadLoop, used, installs]

/-- The prologue of a thread changes nothing of a slot but the record at the
thread's index, and not even that where the slot is unused or not visited. -/
theorem setWatchpointByThreadLoop_wp
    (thread : Thread) (slots : List SlotPosition)
    (wp : SlotPosition → WatchpointObject) (kernel : Kernel)
    (slot : SlotPosition) :
    ∃ record, (setWatchpointByThreadLoop environment thread slots wp
        kernel).2.1 slot =
          { wp slot with
            fd := Function.update (wp slot).fd thread.index record } ∧
      (slot ∉ slots ∨ (wp slot).isUsed = false →
        record = (wp slot).fd thread.index) := by
  induction slots generalizing wp kernel with
  | nil =>
      refine ⟨(wp slot).fd thread.index, ?_, fun _ => rfl⟩
      simp [setWatchpointByThreadLoop]
  | cons first rest inductionHypothesis =>
      cases used : (wp first).isUsed with
      | false =>
          obtain ⟨record, result, kept⟩ := inductionHypothesis wp kernel
          refine ⟨record, ?_, fun untouched => kept ?_⟩
          · simpa [setWatchpointByThreadLoop, used] using result
          · exact untouched.imp_left fun absent member =>
              absent (List.mem_cons_of_mem _ member)
      | true =>
          rcases installs : watchThread environment (wp first).addr thread.tid
            kernel with ⟨watched, installed, after⟩
          obtain ⟨between, atFirst, elsewhere, step⟩ :=
            setWatchpointByThreadLoop_of_used used installs rest
          rw [step]
          by_cases same : slot = first
          · subst same
            have touched : ¬(slot ∉ slot :: rest ∨
                (wp slot).isUsed = false) := by
              simp [used]
            cases watched with
            | false =>
                exact ⟨installed, atFirst,
                  fun untouched => absurd untouched touched⟩
            | true =>
                obtain ⟨record, result, _⟩ := inductionHypothesis between after
                rw [atFirst, Function.update_idem] at result
                exact ⟨record, result,
                  fun untouched => absurd untouched touched⟩
          · cases watched with
            | false =>
                refine ⟨(wp slot).fd thread.index, ?_, fun _ => rfl⟩
                simpa using elsewhere slot same
            | true =>
                obtain ⟨record, result, kept⟩ :=
                  inductionHypothesis between after
                rw [elsewhere slot same] at result kept
                refine ⟨record, result, fun untouched => kept ?_⟩
                exact untouched.imp_left fun absent member =>
                  absent (List.mem_cons_of_mem _ member)

variable {environment} in
/-- What a successful thread creation does. -/
theorem threadCreate_eq_some
    {tid : Nat}
    {next : Manager}
    (created : threadCreate environment tid manager = some next) :
    ∃ tindex table,
      manager.threads.allocThreadIndex = some (some tindex, table) ∧
        next =
          { manager with
            wp := (setWatchpointByThreadLoop environment
              ((table.setThread tindex tid).threads tindex) slotPositions
              manager.wp manager.kernel).2.1
            kernel := (setWatchpointByThreadLoop environment
              ((table.setThread tindex tid).threads tindex) slotPositions
              manager.wp manager.kernel).2.2
            threads := (table.setThread tindex tid).insertTail tindex } := by
  unfold threadCreate at created
  split at created
  · next tindex table allocated =>
      rw [Option.some.injEq] at created
      exact ⟨tindex, table, allocated, created.symm⟩
  · exact absurd created (by simp)

/-- A release leaves every other slot and the thread table alone. -/
theorem disableWatchpointObject_eq
    (slot : SlotPosition) (manager : Manager) :
    ∃ ret fd kernel,
      disableThreads environment manager.threads.aliveThreads
          (manager.wp slot).fd manager.kernel = (ret, fd, kernel) ∧
        disableWatchpointObject environment slot manager =
          (ret,
            { manager with
              numWatchpoints :=
                if ret then atomicAddFetch manager.numWatchpoints (-1)
                else manager.numWatchpoints
              wp := Function.update manager.wp slot
                { manager.wp slot with
                  isUsed := if ret then false else (manager.wp slot).isUsed
                  fd := fd }
              kernel := kernel }) :=
  ⟨_, _, _, rfl, rfl⟩

/-- What a section of `disableWatchpointByAddr` can do: nothing, or it empties
the records of its slot, which is used for the address. -/
theorem disableSection_cases
    (addr : Word) (slot : SlotPosition) (manager : Manager) :
    disableSection environment addr slot manager = manager ∨
      ((manager.wp slot).isUsed = true ∧
          addr = (manager.wp slot).objectstart) ∧
        ∃ ret fd kernel,
          disableThreads environment manager.threads.aliveThreads
              (manager.wp slot).fd manager.kernel = (ret, fd, kernel) ∧
            disableSection environment addr slot manager =
              { manager with
                numWatchpoints :=
                  if ret then atomicAddFetch manager.numWatchpoints (-1)
                  else manager.numWatchpoints
                wp := Function.update manager.wp slot
                  { manager.wp slot with
                    isUsed := if ret then false else (manager.wp slot).isUsed
                    fd := fd }
                kernel := kernel } := by
  by_cases matched :
      (manager.wp slot).isUsed = true ∧ addr = (manager.wp slot).objectstart
  · obtain ⟨ret, fd, kernel, disabled, result⟩ :=
      disableWatchpointObject_eq environment slot manager
    refine Or.inr ⟨matched, ret, fd, kernel, disabled, ?_⟩
    rw [disableSection, if_pos matched, result]
  · exact Or.inl (if_neg matched)

@[simp] theorem setSection_threads
    (watchedRatio : Word → Int) (request : Request) (slot : SlotPosition)
    (manager : Manager) :
    (setSection environment watchedRatio request slot manager).2.threads =
      manager.threads := by
  cases valid : (isValid environment watchedRatio request (manager.wp slot)
      manager.kernel).1 with
  | false => rw [setSection_of_invalid valid]
  | true => rw [setSection_of_valid valid, writeSlot_threads]

@[simp] theorem disableSection_threads
    (addr : Word) (slot : SlotPosition) (manager : Manager) :
    (disableSection environment addr slot manager).threads =
      manager.threads := by
  unfold disableSection
  split
  · rfl
  · rfl

/-- The application's calls leave slots, counter and threads alone. -/
theorem appOpen_frame (manager : Manager) :
    (appOpen environment manager).wp = manager.wp ∧
      (appOpen environment manager).threads = manager.threads ∧
      (appOpen environment manager).numWatchpoints =
        manager.numWatchpoints := by
  unfold appOpen
  dsimp only
  split
  · exact ⟨rfl, rfl, rfl⟩
  · exact ⟨rfl, rfl, rfl⟩

variable {environment} in
/-- Closing a file of the application erases its descriptor. -/
theorem appClose_eq_some
    {number : Nat}
    {next : Manager}
    (closed : appClose environment number manager = some next) :
    manager.kernel.files.lookup number = some .app ∧
      next = { manager with
        kernel := (close environment number manager.kernel).2 } := by
  unfold appClose at closed
  split at closed
  · next isApp =>
      rw [Option.some.injEq] at closed
      exact ⟨isApp, closed.symm⟩
  · exact absurd closed (by simp)

variable {environment} in
/-- What a step of an exiting thread does. -/
theorem step_threadExit_eq_some
    {position : ThreadPosition}
    {next : Manager}
    (stepped : step environment manager (.threadExit position) = some next) :
    position ∈ manager.threads.aliveThreadsList ∧
      next = threadExit environment position manager := by
  rw [step] at stepped
  split at stepped
  · next alive =>
      rw [Option.some.injEq] at stepped
      exact ⟨alive.1, stepped.symm⟩
  · exact absurd stepped (by simp)

variable {environment} in
/-- Every step keeps the thread table well formed. -/
theorem step_wellFormed
    {next : Manager}
    {action : Action}
    (wellFormed : manager.threads.WellFormed)
    (stepped : step environment manager action = some next) :
    next.threads.WellFormed := by
  cases action with
  | setSection watchedRatio request slot =>
      rw [step, Option.some.injEq] at stepped
      subst stepped
      rwa [setSection_threads]
  | disableSection addr slot =>
      rw [step, Option.some.injEq] at stepped
      subst stepped
      rwa [disableSection_threads]
  | threadCreate tid =>
      obtain ⟨tindex, table, allocated, rfl⟩ := threadCreate_eq_some stepped
      exact wellFormed.create allocated tid
  | threadExit position =>
      obtain ⟨alive, rfl⟩ := step_threadExit_eq_some stepped
      exact wellFormed.release alive
  | appOpen =>
      rw [step, Option.some.injEq] at stepped
      subst stepped
      rwa [(appOpen_frame environment manager).2.1]
  | appClose number =>
      obtain ⟨_, rfl⟩ := appClose_eq_some stepped
      exact wellFormed

/-- A call of `setWatchpoint` is a run of sections for its request. -/
theorem setWatchpointLoop_run
    (watchedRatio : Word → Int) (request : Request)
    (left : Nat) (sidx : SlotPosition) (manager : Manager) :
    ∃ slots : List SlotPosition,
      run environment manager
          (slots.map (Action.setSection watchedRatio request)) =
        some (setWatchpointLoop environment watchedRatio request left sidx
          manager).2 := by
  induction left generalizing sidx manager with
  | zero => exact ⟨[], rfl⟩
  | succ left inductionHypothesis =>
      rw [setWatchpointLoop]
      split
      · rcases written :
          setSection environment watchedRatio request sidx manager with
          ⟨_ | _, next⟩
        · obtain ⟨slots, executed⟩ := inductionHypothesis (sidx + 1) next
          refine ⟨sidx :: slots, ?_⟩
          simpa [run, step, written] using executed
        · exact ⟨[sidx], by simp [run, step, written]⟩
      · exact inductionHypothesis (sidx + 1) manager

theorem setWatchpoint_run
    (watchedRatio : Word → Int) (request : Request) (manager : Manager) :
    ∃ slots : List SlotPosition,
      run environment manager
          (slots.map (Action.setSection watchedRatio request)) =
        some (setWatchpoint environment watchedRatio request manager).2 :=
  setWatchpointLoop_run environment watchedRatio request maxWatchpoints
    manager.curIndex manager

/-- A call of `disableWatchpointByAddr` is at most one section. -/
theorem disableWatchpointByAddr_run (addr : Word) (manager : Manager) :
    ∃ slots : List SlotPosition,
      run environment manager (slots.map (Action.disableSection addr)) =
        some (disableWatchpointByAddr environment addr manager) := by
  unfold disableWatchpointByAddr
  split
  · next slot _ => exact ⟨[slot], rfl⟩
  · exact ⟨[], rfl⟩

end Sections

end Manager

end Causer
