import Causer.EventLeaks
import Causer.OverflowReport
import Causer.WatchedObjects

/-!
# Accesses past the end of an object

The kernel signals an access of a thread through the events that are open for
the thread at the address, and the signal carries the event's descriptor.  With
system calls succeeding and no stale record inherited, the open events are
those of the used slots, one for each alive thread, and each of them leads back
to its slot.  Whatever calls of malloc, free and realloc overlap, the slots
change by one locked section after the other, so this holds between them; what
is signalled is then an access at the end of a live object that is watched, and
every such access of an alive thread is.
-/

namespace Causer

section Standard

variable {environment : Environment} {kernel : Kernel}

theorem StandardOpen.watch
    (environment : Environment)
    (standardOpen : StandardOpen kernel)
    (addr : Word) (tid : Nat) :
    StandardOpen (watchThread environment addr tid kernel).2.2 := by
  obtain ⟨watched, record, after, result, -, -, outcome⟩ :=
    watchThread_cases environment addr tid kernel
  rw [result]
  rcases outcome with ⟨-, -, rfl⟩ | ⟨opening, -⟩
  · exact standardOpen
  · intro number below
    show after.files.lookup number ≠ none
    rw [opening.files]
    by_cases own : number = kernel.nextNumber environment
    · rw [own, DescriptorTable.lookup_insert_self]
      simp
    · rw [DescriptorTable.lookup_insert_of_ne _ _ own]
      exact standardOpen number below

theorem StandardOpen.installThreads
    (standardOpen : StandardOpen kernel)
    (addr : Word) (threads : List Thread) (fd : Records) :
    StandardOpen (installThreads environment addr threads fd kernel).2.2.2 := by
  induction threads generalizing fd kernel with
  | nil => exact standardOpen
  | cons thread threads inductionHypothesis =>
      have watched := standardOpen.watch environment addr thread.tid
      rcases result : watchThread environment addr thread.tid kernel with
        ⟨_ | _, record, after⟩
      · rw [result] at watched
        simpa [Causer.installThreads, result] using watched
      · rw [result] at watched
        simpa [Causer.installThreads, result] using
          inductionHypothesis watched (Function.update fd thread.index record)

theorem StandardOpen.rollbackThreads
    (standardOpen : StandardOpen kernel)
    (threads : List Thread) (installednum : Nat) (fd : Records) :
    StandardOpen
      (rollbackThreads environment threads installednum fd kernel).2 := by
  induction threads generalizing installednum fd kernel with
  | nil => exact standardOpen
  | cons thread threads inductionHypothesis =>
      have disabled : StandardOpen
          (disableWatchpoint environment (fd thread.index) kernel).2 :=
        standardOpen.disable (fd thread.index)
      rw [Causer.rollbackThreads]
      by_cases closes : (fd thread.index).number ≠ -1
      · rw [if_pos closes]
        cases installednum with
        | zero => exact disabled
        | succ left => exact inductionHypothesis disabled left _
      · rw [if_neg closes]
        cases installednum with
        | zero => exact standardOpen
        | succ left => exact inductionHypothesis standardOpen left _

theorem StandardOpen.setWatchpointByThreadLoop
    (standardOpen : StandardOpen kernel)
    (thread : Thread) (slots : List SlotPosition)
    (wp : SlotPosition → WatchpointObject) :
    StandardOpen (setWatchpointByThreadLoop environment thread slots wp
      kernel).2.2 := by
  induction slots generalizing wp kernel with
  | nil => exact standardOpen
  | cons slot slots inductionHypothesis =>
      cases used : (wp slot).isUsed with
      | false =>
          simpa [Causer.setWatchpointByThreadLoop, used] using
            inductionHypothesis standardOpen wp
      | true =>
          have watched := standardOpen.watch environment (wp slot).addr
            thread.tid
          rcases result : watchThread environment (wp slot).addr thread.tid
            kernel with ⟨ret, record, after⟩
          rw [result] at watched
          obtain ⟨between, -, -, step⟩ :=
            Manager.setWatchpointByThreadLoop_of_used used result slots
          rw [step]
          cases ret with
          | false => exact watched
          | true => exact inductionHypothesis watched between

theorem StandardOpen.exitSlots
    (standardOpen : StandardOpen kernel)
    (wp : SlotPosition → WatchpointObject) (index : ThreadPosition)
    (slots : List SlotPosition) :
    StandardOpen (exitSlots environment wp index slots kernel) := by
  induction slots generalizing kernel with
  | nil => exact standardOpen
  | cons slot slots inductionHypothesis =>
      exact inductionHypothesis (standardOpen.disable ((wp slot).fd index))

end Standard

namespace Manager

variable {environment : Environment} {manager next : Manager}

theorem writeSlot_standardOpen
    (standardOpen : StandardOpen manager.kernel)
    (request : Request) (slot : SlotPosition) :
    StandardOpen (writeSlot environment request slot manager).2.kernel := by
  obtain ⟨vacated, vacatedKernel, ret, numWatchpoints, fd, kernel, vacates,
    installs⟩ := exists_writeSlot_loops environment request slot manager
  have vacant : StandardOpen vacatedKernel := by
    unfold vacateSlot at vacates
    split at vacates
    · rw [Prod.mk.injEq] at vacates
      rw [← vacates.2]
      exact standardOpen.disableThreads _ _
    · rw [Prod.mk.injEq] at vacates
      rwa [← vacates.2]
  have written : StandardOpen kernel := by
    have installed : StandardOpen (installThreads environment request.addr
        manager.threads.aliveThreads vacated vacatedKernel).2.2.2 :=
      vacant.installThreads _ _ _
    rcases result : installThreads environment request.addr
      manager.threads.aliveThreads vacated vacatedKernel with
      ⟨_ | _, installednum, installedFd, installedKernel⟩
    · simp only [setWatchpointFds, result, Bool.false_eq_true, if_false,
        Prod.mk.injEq] at installs
      rw [result] at installed
      rw [← installs.2.2.2]
      exact installed.rollbackThreads _ _ _
    · simp only [setWatchpointFds, result, if_true, Prod.mk.injEq] at installs
      rw [result] at installed
      rwa [← installs.2.2.2]
  rw [writeSlot_eq vacates installs]
  cases ret with
  | false => exact written
  | true => exact written

theorem setSection_standardOpen
    (standardOpen : StandardOpen manager.kernel)
    (watchedRatio : Word → Int) (request : Request) (slot : SlotPosition) :
    StandardOpen
      (setSection environment watchedRatio request slot manager).2.kernel := by
  have tested : StandardOpen (isValid environment watchedRatio request
      (manager.wp slot) manager.kernel).2 := by
    rcases isValid_snd environment watchedRatio (manager.wp slot)
      manager.kernel with same | same
    · rw [same]
      exact standardOpen
    · rw [same]
      exact standardOpen
  cases valid : (isValid environment watchedRatio request (manager.wp slot)
      manager.kernel).1 with
  | false =>
      rw [setSection_of_invalid valid]
      exact tested
  | true =>
      rw [setSection_of_valid valid]
      exact writeSlot_standardOpen tested request slot

/-- Every step keeps the standard descriptors open, unless the application
closes one itself. -/
theorem step_standardOpen
    {action : Action}
    (standardOpen : StandardOpen manager.kernel)
    (spared : ∀ number, action = .appClose number → 3 ≤ number)
    (stepped : step environment manager action = some next) :
    StandardOpen next.kernel := by
  cases action with
  | setSection watchedRatio request slot =>
      rw [step, Option.some.injEq] at stepped
      subst stepped
      exact setSection_standardOpen standardOpen watchedRatio request slot
  | disableSection addr slot =>
      rw [step, Option.some.injEq] at stepped
      subst stepped
      obtain same | ⟨-, ret, fd, kernel, disabled, result⟩ :=
        disableSection_cases environment addr slot manager
      · rw [same]
        exact standardOpen
      · have released : StandardOpen (disableThreads environment
            manager.threads.aliveThreads (manager.wp slot).fd
            manager.kernel).2.2 :=
          standardOpen.disableThreads _ _
        rw [disabled] at released
        rw [result]
        exact released
  | threadCreate tid =>
      obtain ⟨tindex, table, -, rfl⟩ := threadCreate_eq_some stepped
      exact standardOpen.setWatchpointByThreadLoop _ _ _
  | threadExit position =>
      obtain ⟨-, rfl⟩ := step_threadExit_eq_some stepped
      exact standardOpen.exitSlots _ _ _
  | appOpen =>
      rw [step, Option.some.injEq] at stepped
      subst stepped
      unfold appOpen
      dsimp only
      split
      · exact standardOpen
      · intro number below
        by_cases own : number = environment.descriptor manager.kernel.calls
            manager.kernel.files
        · rw [own]
          simp
        · show (manager.kernel.files.insert _ _).lookup number ≠ none
          rw [DescriptorTable.lookup_insert_of_ne _ _ own]
          exact standardOpen number below
  | appClose number =>
      obtain ⟨-, rfl⟩ := appClose_eq_some stepped
      intro other below
      have different : other ≠ number := by
        have := spared number rfl
        omega
      show (manager.kernel.files.erase number).lookup other ≠ none
      rw [DescriptorTable.lookup_erase_of_ne _ different]
      exact standardOpen other below

/-- The kernel signals the descriptor when the thread accesses the address. -/
def Signals (manager : Manager) (tid : Nat) (address : Word) (fd : Nat) :
    Prop :=
  ∃ serial,
    manager.kernel.files.lookup fd = some (.perf ⟨serial, address, tid⟩)

/-- The open events are those of the used slots, one for each alive thread,
and the descriptor of each leads to its slot. -/
structure EventsMatch (manager : Manager) : Prop where
  opened : ∀ slot, (manager.wp slot).isUsed = true →
    ∀ thread ∈ manager.threads.aliveThreads, ∃ fd : Nat,
      ((manager.wp slot).fd thread.index).number = fd ∧
        ((manager.wp slot).fd thread.index).enabled = true ∧
        manager.Signals thread.tid (manager.wp slot).addr fd
  found : ∀ fd event,
    manager.kernel.files.lookup fd = some (.perf event) →
    ∃ slot, ∃ thread ∈ manager.threads.aliveThreads,
      manager.getWatchpointObjectByFd fd = some slot ∧
        ((manager.wp slot).fd thread.index).number = fd ∧
        event.address = (manager.wp slot).addr ∧ event.tid = thread.tid
  distinct : ∀ first second, (manager.wp first).isUsed = true →
    (manager.wp second).isUsed = true →
    ∀ thread ∈ manager.threads.aliveThreads,
      ∀ other ∈ manager.threads.aliveThreads,
        ((manager.wp first).fd thread.index).number =
          ((manager.wp second).fd other.index).number →
        first = second ∧ thread = other

/-- What holds throughout a run in which nothing fails and nothing stale is
inherited. -/
structure TrackingInvariant (manager : Manager) : Prop where
  ownership : OwnershipInvariant 0 manager
  coverage : CoverageInvariant manager
  records : RecordInvariant manager
  standardOpen : StandardOpen manager.kernel

/-- No stale record is inherited and no standard descriptor closed. -/
def Tracks (environment : Environment) (manager : Manager) (action : Action) :
    Prop :=
  InheritsNothing 0 environment manager action ∧
    ∀ number, action = .appClose number → 3 ≤ number

theorem cleanInstalls_of_succeed
    (succeed : environment.AllSucceed)
    (left calls : Nat) :
    CleanInstalls environment left calls := by
  induction left generalizing calls with
  | zero => trivial
  | succ left inductionHypothesis =>
      exact ⟨fun _ => ⟨succeed _, succeed _, succeed _⟩,
        fun _ _ => inductionHypothesis (calls + 6)⟩

theorem installsCleanly_of_succeed
    (succeed : environment.AllSucceed)
    (standardOpen : StandardOpen manager.kernel)
    (action : Action) :
    InstallsCleanly environment manager action := by
  cases action with
  | setSection watchedRatio request slot =>
      exact fun _ => ⟨standardOpen, cleanInstalls_of_succeed succeed _ _⟩
  | threadCreate tid =>
      exact ⟨standardOpen, cleanInstalls_of_succeed succeed _ _⟩
  | disableSection addr slot => trivial
  | threadExit position => trivial
  | appOpen => trivial
  | appClose number => trivial

theorem TrackingInvariant.step
    (succeed : environment.AllSucceed)
    (above : environment.AboveStandard)
    (invariant : manager.TrackingInvariant)
    {action : Action}
    (tracks : Tracks environment manager action)
    (stepped : Manager.step environment manager action = some next) :
    next.TrackingInvariant where
  ownership :=
    step_owned le_rfl (by decide) invariant.ownership tracks.1 stepped
  coverage := invariant.coverage.step succeed above stepped
  records := step_recorded invariant.records
    (installsCleanly_of_succeed succeed invariant.standardOpen action) stepped
  standardOpen := step_standardOpen invariant.standardOpen tracks.2 stepped

theorem trackingInvariant_start
    {files : DescriptorTable File}
    (noEvent : ∀ number event, files.lookup number ≠ some (.perf event))
    (standard : ∀ number < 3, files.lookup number ≠ none)
    (tid : Nat) :
    TrackingInvariant (start files tid) where
  ownership := ownershipInvariant_start 0 files tid
  coverage := coverageInvariant_start files tid
  records := ⟨ThreadTable.wellFormed_initializeTable tid,
    fun number event isOpen => absurd isOpen (noEvent number event)⟩
  standardOpen := standard

/-- The duty at a used slot for an alive thread. -/
theorem TrackingInvariant.duty_eq
    (invariant : manager.TrackingInvariant)
    {slot : SlotPosition}
    (used : (manager.wp slot).isUsed = true)
    {thread : Thread}
    (alive : thread ∈ manager.threads.aliveThreads) :
    manager.duty 0 (slot, thread.index) =
      some ⟨0, some (manager.wp slot).addr⟩ := by
  have listed : thread.index ∈ manager.threads.aliveThreadsList := by
    rw [← invariant.ownership.wellFormed.map_index_aliveThreads]
    exact List.mem_map_of_mem alive
  rw [duty, dutyFor_of_mem listed, slotDuty_of_used used]

/-- The record of an alive thread in a used slot is an open event of the
thread at the slot's address. -/
theorem TrackingInvariant.signals
    (invariant : manager.TrackingInvariant)
    {slot : SlotPosition}
    (used : (manager.wp slot).isUsed = true)
    {thread : Thread}
    (alive : thread ∈ manager.threads.aliveThreads) :
    ∃ fd : Nat, ((manager.wp slot).fd thread.index).number = fd ∧
      ((manager.wp slot).fd thread.index).enabled = true ∧
      manager.Signals thread.tid (manager.wp slot).addr fd := by
  obtain ⟨number_ge, enabled, event, origin, address, tid⟩ :=
    invariant.coverage.covered slot used thread alive
  obtain ⟨owner, ownerOrigin, isOpen, -⟩ :=
    invariant.ownership.owned.opened (slot, thread.index) _
      (invariant.duty_eq used alive) (by
        show 0 ≤ ((manager.wp slot).fd thread.index).number
        omega)
  have same : owner = event :=
    Option.some.inj (ownerOrigin.symm.trans origin)
  refine ⟨((manager.wp slot).fd thread.index).number.toNat, by omega, enabled,
    event.serial, ?_⟩
  rw [← address, ← tid, ← same]
  exact isOpen

/-- Two used slots have no record of alive threads in common. -/
theorem TrackingInvariant.record_inj
    (invariant : manager.TrackingInvariant)
    {first second : SlotPosition}
    (firstUsed : (manager.wp first).isUsed = true)
    (secondUsed : (manager.wp second).isUsed = true)
    {thread other : Thread}
    (alive : thread ∈ manager.threads.aliveThreads)
    (otherAlive : other ∈ manager.threads.aliveThreads)
    (same : ((manager.wp first).fd thread.index).number =
      ((manager.wp second).fd other.index).number) :
    first = second ∧ thread = other := by
  have demanded : ∀ slot, (manager.wp slot).isUsed = true →
      ∀ candidate ∈ manager.threads.aliveThreads,
        Demanded (manager.duty 0) (recordsOf manager.wp)
          (slot, candidate.index) := by
    intro slot used candidate member
    obtain ⟨fd, number, -⟩ := invariant.signals used member
    refine ⟨_, invariant.duty_eq used member, ?_⟩
    show 0 ≤ ((manager.wp slot).fd candidate.index).number
    omega
  have equal := invariant.ownership.owned.distinct
    (first, thread.index) (second, other.index)
    (demanded first firstUsed thread alive)
    (demanded second secondUsed other otherAlive)
    (congrArg Int.toNat same)
  rw [Prod.mk.injEq] at equal
  refine ⟨equal.1, ?_⟩
  exact List.inj_on_of_nodup_map
    invariant.coverage.wellFormed.nodup_index alive otherAlive equal.2

theorem TrackingInvariant.eventsMatch
    (invariant : manager.TrackingInvariant) :
    manager.EventsMatch := by
  refine ⟨fun slot used thread alive => invariant.signals used alive, ?_,
    fun first second firstUsed secondUsed thread alive other otherAlive =>
      invariant.record_inj firstUsed secondUsed alive otherAlive⟩
  intro fd event isOpen
  obtain ⟨-, slot, used, thread, alive, number⟩ :=
    invariant.records.recorded fd event isOpen
  obtain ⟨own, ownNumber, -, serial, ownOpen⟩ := invariant.signals used alive
  obtain rfl : own = fd := by
    rw [number] at ownNumber
    exact (Int.natCast_inj.mp ownNumber).symm
  rw [isOpen, Option.some.injEq, File.perf.injEq] at ownOpen
  -- the slot's own record is found, so some slot is, and its record is the same
  cases lookup : manager.getWatchpointObjectByFd own with
  | none =>
      have misses := List.find?_eq_none.mp lookup slot (List.mem_finRange slot)
      simp only [used, Bool.true_and, List.any_eq_true, decide_eq_true_eq,
        not_exists, not_and] at misses
      exact absurd number (misses thread alive)
  | some named =>
      obtain ⟨namedUsed, other, otherAlive, otherNumber⟩ :=
        getWatchpointObjectByFd_eq_some lookup
      obtain ⟨rfl, rfl⟩ := invariant.record_inj namedUsed used otherAlive alive
        (otherNumber.trans number.symm)
      refine ⟨named, other, otherAlive, rfl, number, ?_, ?_⟩
      · rw [ownOpen]
      · rw [ownOpen]

/-- In every run in which the system calls succeed, no stale record is inherited
and the application keeps its standard descriptors, the open perf events are
those of the used slots, one for each alive thread; each of these is enabled,
and a lookup by its descriptor finds its slot. -/
theorem events_match_slots
    (succeed : environment.AllSucceed)
    (above : environment.AboveStandard)
    {files : DescriptorTable File}
    (noEvent : ∀ number event, files.lookup number ≠ some (.perf event))
    (standard : ∀ number < 3, files.lookup number ≠ none)
    (tid : Nat)
    {actions : List Action}
    {final : Manager}
    (tracks : Machine.Along (step environment) (Tracks environment)
      (start files tid) actions)
    (executed : run environment (start files tid) actions = some final) :
    final.EventsMatch :=
  TrackingInvariant.eventsMatch <|
    Machine.run_invariant
      (fun _ _ _ invariant tracks stepped =>
        TrackingInvariant.step succeed above invariant tracks stepped)
      (trackingInvariant_start noEvent standard tid) tracks executed

instance (environment : Environment)
    (wp : SlotPosition → WatchpointObject) (slots : List SlotPosition)
    (kernel : Kernel) (slot : SlotPosition) :
    Decidable (Reached environment wp slots kernel slot) :=
  inferInstanceAs (Decidable (∀ offset < _, _ → _))

instance (environment : Environment) (manager : Manager) (tid : Nat) :
    Decidable (InheritsNothing 0 environment manager (.threadCreate tid)) :=
  match allocated : manager.threads.allocThreadIndex with
  | some (some tindex, _) =>
      decidable_of_iff
        (∀ slot, (if (manager.wp slot).isUsed then (0 : Int) else 3) ≤
            ((manager.wp slot).fd tindex).number →
          (manager.wp slot).isUsed = true ∧
            Reached environment manager.wp slotPositions manager.kernel slot)
        (by simp [InheritsNothing, allocated])
  | some (none, _) => isTrue (by simp [InheritsNothing, allocated])
  | none => isTrue (by simp [InheritsNothing, allocated])

instance (environment : Environment) (manager : Manager) :
    ∀ action, Decidable (Tracks environment manager action)
  | .threadCreate tid =>
      decidable_of_iff
        (InheritsNothing 0 environment manager (.threadCreate tid))
        ⟨fun inherits => ⟨inherits, nofun⟩, And.left⟩
  | .appClose number =>
      decidable_of_iff (3 ≤ number)
        ⟨fun above => ⟨trivial, by rintro _ ⟨⟩; exact above⟩,
          fun tracks => tracks.2 number rfl⟩
  | .setSection _ _ _ => isTrue ⟨trivial, nofun⟩
  | .disableSection _ _ => isTrue ⟨trivial, nofun⟩
  | .threadExit _ => isTrue ⟨trivial, nofun⟩
  | .appOpen => isTrue ⟨trivial, nofun⟩

/-- Two threads, two slots and a file of the application; the second thread
exits and a third one is created. -/
def trackedRun : List Action :=
  [.setSection (fun _ => 1000) (sampleRequest 0x1000 1 false) 0,
    .threadCreate 2, .appOpen,
    .setSection (fun _ => 1000) (sampleRequest 0x2000 1 false) 1,
    .disableSection 0x1000 0, .threadExit 1, .threadCreate 3]

theorem standardFiles_noEvent :
    ∀ number event, standardFiles.lookup number ≠ some (.perf event) := by
  intro number event
  simp only [standardFiles, DescriptorTable.insert, DescriptorTable.empty]
  split_ifs <;> simp

/-- The run ends with one slot watched for two threads. -/
theorem events_match_slots_trackedRun :
    ∃ final,
      run nonstandardEnvironment (start standardFiles 1) trackedRun =
          some final ∧ final.EventsMatch := by
  have defined : (run nonstandardEnvironment (start standardFiles 1)
      trackedRun).isSome = true := by
    decide +kernel
  have tracks : Machine.Along (step nonstandardEnvironment)
      (Tracks nonstandardEnvironment) (start standardFiles 1) trackedRun := by
    decide +kernel
  obtain ⟨final, executed⟩ := Option.isSome_iff_exists.mp defined
  have succeed : nonstandardEnvironment.AllSucceed := fun _ => rfl
  exact ⟨final, executed,
    events_match_slots succeed aboveStandard_nonstandardEnvironment
      standardFiles_noEvent (by decide) 1 tracks executed⟩

end Manager

namespace SlotHeap

variable {environment : Environment}

/-- The beginning of a call leaves the slots alone. -/
theorem beginCall_manager
    {thread : Nat}
    {shared after : Shared}
    {isCauser : Bool}
    {call : Call}
    {position : Position}
    (begun : beginCall thread shared isCauser call = some (after, position)) :
    after.manager = shared.manager := by
  cases call with
  | malloc sz =>
      simp only [beginCall, Option.some.injEq, Prod.mk.injEq] at begun
      rw [← begun.1]
  | free ptr =>
      simp only [beginCall] at begun
      split_ifs at begun <;>
        simp only [Option.some.injEq, Prod.mk.injEq] at begun <;>
        exact begun.1 ▸ rfl
  | realloc ptr sz =>
      simp only [beginCall] at begun
      split_ifs at begun <;>
        simp only [Option.some.injEq, Prod.mk.injEq] at begun <;>
        exact begun.1 ▸ rfl

/-- Without a choice, the slots change in the section of
`disableWatchpointByAddr` only. -/
theorem proceed_manager
    {shared after : Shared}
    {isCauser : Bool}
    {position reached : Position}
    (proceeds : proceed environment shared isCauser position =
      some (after, reached)) :
    after.manager = shared.manager ∨
      ∃ ptr slot, after.manager =
        Manager.disableSection environment ptr slot shared.manager := by
  cases position with
  | disabling ptr slot next =>
      simp only [proceed] at proceeds
      split_ifs at proceeds
      simp only [Option.some.injEq, Prod.mk.injEq] at proceeds
      rw [← proceeds.1]
      exact Or.inr ⟨ptr, slot, rfl⟩
  | scanning ptr slots next =>
      left
      cases slots with
      | nil =>
          simp only [proceed, Option.some.injEq, Prod.mk.injEq] at proceeds
          rw [← proceeds.1]
      | cons slot slots =>
          simp only [proceed] at proceeds
          split_ifs at proceeds <;>
            simp only [Option.some.injEq, Prod.mk.injEq] at proceeds <;>
            rw [← proceeds.1]
  | matching ptr slot slots next =>
      left
      simp only [proceed] at proceeds
      split_ifs at proceeds <;>
        simp only [Option.some.injEq, Prod.mk.injEq] at proceeds <;>
        rw [← proceeds.1]
  | testing request left sidx next =>
      left
      simp only [proceed] at proceeds
      split_ifs at proceeds <;>
        simp only [Option.some.injEq, Prod.mk.injEq] at proceeds <;>
        rw [← proceeds.1]
  | writing request left sidx ret next =>
      left
      simp only [proceed] at proceeds
      split at proceeds
      · cases proceeds
      · split at proceeds <;>
          simp only [Option.some.injEq, Prod.mk.injEq] at proceeds <;>
          rw [← proceeds.1, Shared.setUnfinished_manager]
  | freeing ptr next =>
      simp only [proceed, Option.some.injEq, Prod.mk.injEq] at proceeds
      rw [← proceeds.1]
      exact Or.inl rfl
  | updating ptr sz =>
      simp only [proceed, Option.some.injEq, Prod.mk.injEq] at proceeds
      rw [← proceeds.1]
      exact Or.inl rfl
  | returning ptr =>
      simp only [proceed, Option.some.injEq, Prod.mk.injEq] at proceeds
      rw [← proceeds.1]
      exact Or.inl rfl
  | _ => simp [proceed] at proceeds

/-- A step of a thread changes the slots by one step of the manager, if at
all. -/
theorem advance_manager
    {thread : Nat}
    {shared after : Shared}
    {caller moved : Caller}
    {choice : Choice}
    (advanced : advance environment thread shared caller choice =
      some (after, moved)) :
    after.manager = shared.manager ∨
      ∃ action, Manager.step environment shared.manager action =
          some after.manager ∧
        (∀ number, action ≠ .appClose number) ∧
        ∀ tid, action = .threadCreate tid → choice = .threadCreate tid := by
  obtain ⟨isCauser, position⟩ := caller
  cases choice with
  | proceed =>
      have forward : (proceed environment shared isCauser position).map
          (fun result => (result.1, Caller.mk isCauser result.2)) =
            some (after, moved) := by
        cases position <;> exact advanced
      obtain ⟨⟨reached, position⟩, proceeds, result⟩ :=
        Option.map_eq_some_iff.mp forward
      rw [Prod.mk.injEq] at result
      obtain ⟨rfl, -⟩ := result
      rcases proceed_manager proceeds with same | ⟨ptr, slot, released⟩
      · exact Or.inl same
      · refine Or.inr ⟨.disableSection ptr slot, ?_, by simp, by simp⟩
        rw [released, Manager.step]
  | call flag call =>
      cases position with
      | idle =>
          obtain ⟨⟨reached, position⟩, begun, result⟩ :=
            Option.map_eq_some_iff.mp advanced
          rw [Prod.mk.injEq] at result
          obtain ⟨rfl, -⟩ := result
          exact Or.inl (beginCall_manager begun)
      | _ => simp [advance] at advanced
  | answer ptr =>
      cases position with
      | allocating sz follows =>
          simp only [advance] at advanced
          split_ifs at advanced
          rw [Option.some.injEq, Prod.mk.injEq] at advanced
          rw [← advanced.1]
          exact Or.inl rfl
      | _ => simp [advance] at advanced
  | startWatch callstack search curIndex =>
      cases position with
      | starting ptr sz follows =>
          simp only [advance, Option.some.injEq, Prod.mk.injEq] at advanced
          exact Or.inl (advanced.1 ▸ rfl)
      | _ => simp [advance] at advanced
  | draw low curIndex =>
      cases position with
      | drawing request follows =>
          simp only [advance, Option.some.injEq, Prod.mk.injEq] at advanced
          exact Or.inl (advanced.1 ▸ rfl)
      | _ => simp [advance] at advanced
  | compared same =>
      cases position with
      | comparing ptr buf sz =>
          simp only [advance, Option.some.injEq, Prod.mk.injEq] at advanced
          exact Or.inl (advanced.1 ▸ rfl)
      | _ => simp [advance] at advanced
  | lock watchedRatio =>
      cases position with
      | locking request left sidx follows =>
          simp only [advance] at advanced
          refine Or.inr ⟨.setSection watchedRatio request sidx, ?_, by simp,
            by simp⟩
          split_ifs at advanced <;>
            simp only [Option.some.injEq, Prod.mk.injEq] at advanced <;>
            rw [← advanced.1, Manager.step]
          rw [Shared.setUnfinished_manager]
      | _ => simp [advance] at advanced
  | threadCreate tid =>
      cases position with
      | idle =>
          simp only [advance] at advanced
          split_ifs at advanced
          obtain ⟨manager, created, result⟩ :=
            Option.map_eq_some_iff.mp advanced
          rw [Prod.mk.injEq] at result
          obtain ⟨rfl, -⟩ := result
          refine Or.inr ⟨.threadCreate tid, created, by simp, ?_⟩
          rintro other same
          cases same
          rfl
      | _ => simp [advance] at advanced
  | threadExit leaving =>
      cases position with
      | idle =>
          simp only [advance] at advanced
          split_ifs at advanced
          obtain ⟨manager, exited, result⟩ :=
            Option.map_eq_some_iff.mp advanced
          rw [Prod.mk.injEq] at result
          obtain ⟨rfl, -⟩ := result
          exact Or.inr ⟨.threadExit leaving, exited, by simp, by simp⟩
      | _ => simp [advance] at advanced

/-- A thread that is created inherits no stale record. -/
def Inherits (environment : Environment) (state : State)
    (label : Nat × Choice) : Prop :=
  ∀ tid, label.2 = .threadCreate tid →
    Manager.InheritsNothing 0 environment state.shared.manager
      (.threadCreate tid)

/-- However the calls of threads overlap, what becomes of the slots is a run of
the manager. -/
theorem exists_manager_run
    {files : DescriptorTable File}
    {tid : Nat}
    {labels : List (Nat × Choice)}
    {final : State}
    (inherits : Machine.Along (step environment) (Inherits environment)
      (start files tid) labels)
    (executed : run environment (start files tid) labels = some final) :
    ∃ actions,
      Machine.Along (Manager.step environment) (Manager.Tracks environment)
          (Manager.start files tid) actions ∧
        Manager.run environment (Manager.start files tid) actions =
          some final.shared.manager := by
  refine Machine.exists_run_view (fun state => state.shared.manager) ?_
    inherits executed
  intro state label next inherits stepped
  obtain ⟨shared, caller, advanced, rfl⟩ := Interleaving.step_eq_some stepped
  rcases advance_manager advanced with same | ⟨action, moved, spares, created⟩
  · exact Or.inl same
  · refine Or.inr ⟨action, ⟨?_, fun number closes => ?_⟩, moved⟩
    · cases action with
      | threadCreate tid => exact inherits tid (created tid rfl)
      | _ => trivial
    · exact absurd closes (spares number)

/-- What is signalled to the handler, and whom it finds, while nobody writes a
slot: an access of an alive thread at the end of a live object that a slot
watches is signalled with a descriptor that leads to that slot, and only such
accesses are signalled. -/
structure Detects (shared : Shared) : Prop where
  settled : shared.Settled
  signalled : ∀ object ∈ shared.objects, ∀ slot,
    shared.manager.Watches slot object.start →
    ∀ thread ∈ shared.manager.threads.aliveThreads, ∃ fd : Nat,
      shared.manager.Signals thread.tid (object.start + object.size) fd ∧
        shared.manager.getWatchpointObjectByFd fd = some slot
  justified : ∀ tid address fd, shared.manager.Signals tid address fd →
    ∃ slot, ∃ object ∈ shared.objects,
      shared.manager.getWatchpointObjectByFd fd = some slot ∧
        shared.manager.Watches slot object.start ∧
        object.caller = none ∧ address = object.start + object.size ∧
        ∃ thread ∈ shared.manager.threads.aliveThreads, thread.tid = tid

/-- Whatever calls of any number of threads have overlapped, once nobody is in
a call the handler is told of every access of an alive thread at the end of a
live object that is watched, finds that object, and is told of nothing else. -/
theorem detects_of_run
    (succeed : environment.AllSucceed)
    (above : environment.AboveStandard)
    {files : DescriptorTable File}
    (noEvent : ∀ number event, files.lookup number ≠ some (.perf event))
    (standard : ∀ number < 3, files.lookup number ≠ none)
    (tid : Nat)
    {labels : List (Nat × Choice)}
    {final : State}
    (spares : Machine.Along (step environment) StepSpares (start files tid)
      labels)
    (inherits : Machine.Along (step environment) (Inherits environment)
      (start files tid) labels)
    (executed : run environment (start files tid) labels = some final)
    (quiet : BetweenCalls final) :
    Detects final.shared := by
  have invariant := invariant_of_spares succeed above spares executed
  obtain ⟨actions, tracks, ran⟩ := exists_manager_run inherits executed
  have matched : final.shared.manager.EventsMatch :=
    Manager.TrackingInvariant.eventsMatch <|
      Machine.run_invariant
        (fun _ _ _ holds tracks stepped =>
          Manager.TrackingInvariant.step succeed above holds tracks stepped)
        (Manager.trackingInvariant_start noEvent standard tid) tracks ran
  have ends : ∀ slot, (final.shared.manager.wp slot).isUsed = true →
      ∃ object ∈ final.shared.objects,
        final.shared.manager.Watches slot object.start ∧
          (final.shared.manager.wp slot).addr = object.start + object.size := by
    intro slot used
    obtain ⟨object, member, starts, addr⟩ := invariant.fact.watched slot used
    exact ⟨object, member, ⟨used, starts.symm⟩, addr⟩
  refine ⟨fun slot => ?_, ?_, ?_⟩
  · rw [unfinished_of_quiet invariant quiet slot, Option.isNone_none]
  · intro object member slot watches thread alive
    obtain ⟨other, otherMember, otherWatches, addr⟩ := ends slot watches.1
    obtain rfl : other = object :=
      invariant.fact.eq_of_start otherMember member
        (otherWatches.2.symm.trans watches.2)
    obtain ⟨fd, number, -, signals⟩ :=
      matched.opened slot watches.1 thread alive
    rw [addr] at signals
    obtain ⟨serial, isOpen⟩ := signals
    obtain ⟨named, candidate, candidateAlive, found, candidateNumber, -⟩ :=
      matched.found fd _ isOpen
    obtain ⟨namedUsed, -⟩ := Manager.getWatchpointObjectByFd_eq_some found
    obtain ⟨rfl, -⟩ := matched.distinct named slot namedUsed watches.1
      candidate candidateAlive thread alive
      (candidateNumber.trans number.symm)
    exact ⟨fd, ⟨serial, isOpen⟩, found⟩
  · rintro signalled address fd ⟨serial, isOpen⟩
    obtain ⟨slot, thread, alive, found, -, isAddress, isTid⟩ :=
      matched.found fd _ isOpen
    obtain ⟨used, -⟩ := Manager.getWatchpointObjectByFd_eq_some found
    obtain ⟨object, member, watches, addr⟩ := ends slot used
    exact ⟨slot, object, member, found, watches,
      isLive_of_quiet invariant quiet member, isAddress.trans addr, thread,
      alive, isTid.symm⟩

instance (environment : Environment) (state : State) (label : Nat × Choice) :
    Decidable (Inherits environment state label) :=
  match label with
  | (_, .threadCreate tid) =>
      decidable_of_iff
        (Manager.InheritsNothing 0 environment state.shared.manager
          (.threadCreate tid))
        ⟨fun inherits => by rintro _ ⟨⟩; exact inherits,
          fun inherits => inherits tid rfl⟩
  | (_, .call _ _) | (_, .proceed) | (_, .answer _) | (_, .startWatch _ _ _)
  | (_, .draw _ _) | (_, .lock _) | (_, .compared _) | (_, .threadExit _) =>
      isTrue nofun

/-- An object is watched before a second thread is created, another one
after it. -/
def twoThreadsRun : List (Nat × Choice) :=
  watchedMalloc 1 16 0x1000 0 ++ (1, .threadCreate 2) ::
    watchedMalloc 2 8 0x2000 1

/-- Each thread's access at the end of either object is signalled. -/
theorem detects_of_run_twoThreadsRun :
    run Manager.nonstandardEnvironment (start Manager.standardFiles 1)
        twoThreadsRun = some (reached twoThreadsRun) ∧
      Detects (reached twoThreadsRun).shared := by
  have executed := run_reached (by decide +kernel :
    (run Manager.nonstandardEnvironment (start Manager.standardFiles 1)
      twoThreadsRun).isSome = true)
  have succeed : Manager.nonstandardEnvironment.AllSucceed := fun _ => rfl
  have spares : Machine.Along (step Manager.nonstandardEnvironment)
      StepSpares (start Manager.standardFiles 1) twoThreadsRun := by
    decide +kernel
  have inherits : Machine.Along (step Manager.nonstandardEnvironment)
      (Inherits Manager.nonstandardEnvironment)
      (start Manager.standardFiles 1) twoThreadsRun := by
    decide +kernel
  have idle : ∀ label ∈ twoThreadsRun,
      ((reached twoThreadsRun).locals label.1).position = .idle := by
    decide +kernel
  exact ⟨executed, detects_of_run succeed
    Manager.aboveStandard_nonstandardEnvironment Manager.standardFiles_noEvent
    (by decide) 1 spares inherits executed (betweenCalls_of_run executed idle)⟩

end SlotHeap

end Causer
