import Causer.OwnershipLoops
import Causer.WatchCoverage

/-!
# No perf event is leaked

An open perf event can only be closed through a record of a used slot for an
alive thread.  Each loop of the manager hands the events over: what it disables
it closes, and what it opens it records.  The exception is an installation whose
event is open when one of the three settings of its descriptor fails; the event
then stays open without a record.  Nor is a standard descriptor ever closed.
-/

namespace Causer

/-- Every open perf event has a number from three on that meets a condition. -/
def Recorded (recorded : Nat → Prop) (kernel : Kernel) : Prop :=
  ∀ number event, kernel.files.lookup number = some (.perf event) →
    3 ≤ number ∧ recorded number

/-- The standard descriptors are open. -/
def StandardOpen (kernel : Kernel) : Prop :=
  ∀ number < 3, kernel.files.lookup number ≠ none

instance (kernel : Kernel) : Decidable (StandardOpen kernel) :=
  inferInstanceAs (Decidable (∀ number < 3, _))

/-- The installation that starts at a call does not fail once its event is open:
`F_SETFL`, `F_SETSIG` and `F_SETOWN_EX` are the third to fifth calls. -/
def CleanInstall (environment : Environment) (calls : Nat) : Prop :=
  environment.fails calls = false →
    environment.fails (calls + 2) = false ∧
      environment.fails (calls + 3) = false ∧
      environment.fails (calls + 4) = false

instance (environment : Environment) (calls : Nat) :
    Decidable (CleanInstall environment calls) :=
  inferInstanceAs (Decidable (_ → _))

/-- As many installations in a row as are left do not fail once their event is
open.  Each takes six calls, and a loop goes on after one only if it and the
call that enables its event succeed. -/
def CleanInstalls (environment : Environment) : Nat → Nat → Prop
  | 0, _ => True
  | left + 1, calls =>
      CleanInstall environment calls ∧
        (environment.fails calls = false →
          environment.fails (calls + 5) = false →
            CleanInstalls environment left (calls + 6))

instance decidableCleanInstalls (environment : Environment) :
    ∀ left calls, Decidable (CleanInstalls environment left calls)
  | 0, _ => isTrue trivial
  | left + 1, calls =>
      have := decidableCleanInstalls environment left (calls + 6)
      inferInstanceAs (Decidable (_ ∧ (_ → _ → _)))

/-! ## What the calls on one descriptor keep -/

section Calls

variable {environment : Environment} {kernel : Kernel}
variable {recorded weaker : Nat → Prop}

theorem Recorded.imp
    (holds : Recorded recorded kernel)
    (implies : ∀ number, 3 ≤ number → recorded number → weaker number) :
    Recorded weaker kernel := by
  intro number event isOpen
  obtain ⟨above, met⟩ := holds number event isOpen
  exact ⟨above, implies number above met⟩

/-- Disabling a record closes the event it records. -/
theorem Recorded.disable
    (environment : Environment)
    {record : Descriptor}
    (holds : Recorded
      (fun number => record.number = number ∨ recorded number) kernel) :
    Recorded recorded (disableWatchpoint environment record kernel).2 := by
  rcases Int.lt_or_le record.number 3 with standard | above
  · rw [disableWatchpoint_of_lt environment standard]
    apply holds.imp
    rintro number above (same | met)
    · omega
    · exact met
  · obtain ⟨result, disabled, -⟩ :=
      disableWatchpoint_of_ge environment above kernel
    rw [disabled]
    intro number event isOpen
    by_cases same : number = record.number.toNat
    · rw [same] at isOpen
      exact absurd isOpen (by simp [Kernel.closed])
    · have before : kernel.files.lookup number = some (.perf event) :=
        (DescriptorTable.lookup_erase_of_ne _ same).symm.trans isOpen
      obtain ⟨aboveThree, met⟩ := holds number event before
      exact ⟨aboveThree, met.resolve_left (by omega)⟩

/-- Disabling a descriptor leaves the standard ones open. -/
theorem StandardOpen.disable
    (standardOpen : StandardOpen kernel)
    (record : Descriptor) :
    StandardOpen (disableWatchpoint environment record kernel).2 := by
  rcases Int.lt_or_le record.number 3 with standard | above
  · rw [disableWatchpoint_of_lt environment standard]
    exact standardOpen
  · obtain ⟨result, disabled, -⟩ :=
      disableWatchpoint_of_ge environment above kernel
    rw [disabled]
    intro number below
    have different : number ≠ record.number.toNat := by omega
    change (kernel.files.erase _).lookup number ≠ none
    rw [DescriptorTable.lookup_erase_of_ne _ different]
    exact standardOpen number below

/-- A clean installation opens no event, or it opens one, makes six calls and
yields the event's descriptor; whether it was enabled is up to the last call. -/
theorem watchThread_cleanly
    (clean : CleanInstall environment kernel.calls)
    (addr : Word) (tid : Nat) :
    environment.fails kernel.calls = true ∧
        watchThread environment addr tid kernel =
          (false, .minusOne, kernel.tick) ∨
      environment.fails kernel.calls = false ∧ ∃ after,
        kernel.Opened environment after addr tid ∧
          after.calls = kernel.calls + 6 ∧
          watchThread environment addr tid kernel =
            (!environment.fails (kernel.calls + 5),
              ⟨kernel.nextNumber environment,
                some (kernel.nextEvent addr tid),
                !environment.fails (kernel.calls + 5)⟩, after) := by
  rcases perfEventOpen_cases environment addr tid kernel with
    ⟨failed, fails⟩ | ⟨first, succeeded, opening, calls⟩
  · refine Or.inl ⟨fails, ?_⟩
    simp [watchThread, installWatchpoint, failed]
  have opens : environment.fails kernel.calls = false := by
    rw [← Bool.not_eq_true]
    intro failing
    simp [perfEventOpen, failing, Descriptor.minusOne] at succeeded
  obtain ⟨setFlags, setSignal, setOwner⟩ := clean opens
  have valid : ((kernel.nextNumber environment : Nat) : Int) ≠ -1 := by
    omega
  have installed : installWatchpoint environment addr tid kernel =
      (⟨kernel.nextNumber environment, some (kernel.nextEvent addr tid),
        false⟩, first.tick.tick.tick.tick) := by
    simp [installWatchpoint, succeeded, valid, plainCall, calls, setFlags,
      setSignal, setOwner]
  refine Or.inr ⟨opens, first.tick.tick.tick.tick.tick,
    opening.tick.tick.tick.tick.tick, by simp [calls], ?_⟩
  cases enabling : environment.fails (kernel.calls + 5) with
  | true =>
      simp [watchThread, installed, valid, enableWatchpoint, plainCall, calls,
        enabling]
  | false =>
      simp [watchThread, installed, valid, enableWatchpoint, plainCall, calls,
        enabling]

/-- What a clean installation does: nothing, or it opens an event and its record
has the event's number. -/
theorem watchThread_clean
    (clean : CleanInstall environment kernel.calls)
    (addr : Word) (tid : Nat) :
    ∃ watched record after,
      watchThread environment addr tid kernel = (watched, record, after) ∧
        (watched = true → environment.fails kernel.calls = false ∧
          environment.fails (kernel.calls + 5) = false ∧
          after.calls = kernel.calls + 6) ∧
        (after.files = kernel.files ∨
          after.files = kernel.files.insert (kernel.nextNumber environment)
              (.perf (kernel.nextEvent addr tid)) ∧
            record.number = kernel.nextNumber environment) := by
  rcases watchThread_cleanly clean addr tid with
    ⟨-, failed⟩ | ⟨opens, after, opening, calls, result⟩
  · exact ⟨_, _, _, failed, by simp, Or.inl rfl⟩
  · refine ⟨_, _, _, result, fun watched => ⟨opens, ?_, calls⟩,
      Or.inr ⟨opening.files, rfl⟩⟩
    simpa using watched

/-- A clean installation for one thread keeps the other events recorded and
records its own. -/
theorem Recorded.watch
    {addr : Word}
    {tid : Nat}
    {watched : Bool}
    {record : Descriptor}
    {after : Kernel}
    (holds : Recorded recorded kernel)
    (standardOpen : StandardOpen kernel)
    (clean : CleanInstall environment kernel.calls)
    (watches : watchThread environment addr tid kernel =
      (watched, record, after)) :
    Recorded (fun number => record.number = number ∨ recorded number) after ∧
      StandardOpen after ∧
      (watched = true → environment.fails kernel.calls = false ∧
        environment.fails (kernel.calls + 5) = false ∧
        after.calls = kernel.calls + 6) := by
  obtain ⟨_, _, _, result, calls, files⟩ :=
    watchThread_clean clean addr tid
  rw [watches, Prod.mk.injEq, Prod.mk.injEq] at result
  obtain ⟨rfl, rfl, rfl⟩ := result
  have free : kernel.files.lookup (kernel.nextNumber environment) = none :=
    environment.descriptor_free _ _
  rcases files with same | ⟨inserted, number⟩
  · refine ⟨?_, ?_, calls⟩
    · intro number event isOpen
      rw [same] at isOpen
      exact (holds number event isOpen).imp_right Or.inr
    · intro number below
      rw [same]
      exact standardOpen number below
  · refine ⟨?_, ?_, calls⟩
    · intro other event isOpen
      by_cases own : other = kernel.nextNumber environment
      · have above : ¬other < 3 := by
          intro below
          rw [own] at below
          exact standardOpen _ below free
        exact ⟨by omega, Or.inl (by omega)⟩
      · rw [inserted, DescriptorTable.lookup_insert_of_ne _ _ own] at isOpen
        exact (holds other event isOpen).imp_right Or.inr
    · intro other below
      rw [inserted]
      by_cases own : other = kernel.nextNumber environment
      · rw [own, DescriptorTable.lookup_insert_self]
        simp
      · rw [DescriptorTable.lookup_insert_of_ne _ _ own]
        exact standardOpen other below

end Calls

/-! ## What the loops over the alive threads keep -/

section Threads

variable {environment : Environment} {kernel : Kernel}
variable {recorded : Nat → Prop} {threads : List Thread} {fd : Records}

/-- Some thread's record has the number. -/
def HeldBy (threads : List Thread) (fd : Records) (number : Nat) : Prop :=
  ∃ thread ∈ threads, (fd thread.index).number = number

/-- Writing a record of another thread index does not matter. -/
theorem HeldBy.of_update
    {index : ThreadPosition}
    {record : Descriptor}
    (absent : index ∉ threads.map Thread.index)
    (number : Nat) :
    HeldBy threads (Function.update fd index record) number ↔
      HeldBy threads fd number := by
  unfold HeldBy
  refine exists_congr fun thread => and_congr_right fun member => ?_
  rw [Function.update_of_ne]
  rintro rfl
  exact absent (List.mem_map_of_mem member)

@[simp] theorem HeldBy.not_nil (fd : Records) (number : Nat) :
    ¬HeldBy [] fd number := by
  rintro ⟨thread, member, -⟩
  cases member

theorem HeldBy.cons_iff (thread : Thread) (number : Nat) :
    HeldBy (thread :: threads) fd number ↔
      (fd thread.index).number = number ∨ HeldBy threads fd number := by
  simp [HeldBy]

/-- The first thread's record is a cause of its own. -/
theorem HeldBy.cons_or_iff (thread : Thread) (number : Nat) :
    HeldBy (thread :: threads) fd number ∨ recorded number ↔
      (fd thread.index).number = number ∨
        HeldBy threads fd number ∨ recorded number := by
  rw [HeldBy.cons_iff, or_assoc]

/-- The releasing loop closes every event that its threads' records hold. -/
theorem disableThreads_recorded
    (environment : Environment)
    (distinct : (threads.map Thread.index).Nodup)
    (holds : Recorded
      (fun number => HeldBy threads fd number ∨ recorded number) kernel) :
    Recorded recorded
      (disableThreads environment threads fd kernel).2.2 := by
  induction threads generalizing fd kernel with
  | nil =>
      exact holds.imp fun number above cause =>
        cause.resolve_left (HeldBy.not_nil fd number)
  | cons thread threads inductionHypothesis =>
      rw [List.map_cons, List.nodup_cons] at distinct
      have expanded := holds.imp fun number above =>
        (HeldBy.cons_or_iff thread number).mp
      have disabled := expanded.disable environment
      apply inductionHypothesis distinct.2
      simp only [HeldBy.of_update distinct.1]
      exact disabled

/-- The releasing loop leaves the standard descriptors open. -/
theorem StandardOpen.disableThreads
    (standardOpen : StandardOpen kernel)
    (threads : List Thread) (fd : Records) :
    StandardOpen (disableThreads environment threads fd kernel).2.2 := by
  induction threads generalizing fd kernel with
  | nil => exact standardOpen
  | cons thread threads inductionHypothesis =>
      exact inductionHypothesis (standardOpen.disable (fd thread.index)) _

/-- How many calls the releasing loop makes: two for each record that is not a
standard descriptor. -/
theorem disableThreads_calls
    (distinct : (threads.map Thread.index).Nodup)
    (fd : Records) (kernel : Kernel) :
    (disableThreads environment threads fd kernel).2.2.calls =
      kernel.calls +
        2 * threads.countP fun thread =>
          decide (3 ≤ (fd thread.index).number) := by
  induction threads generalizing fd kernel with
  | nil => rfl
  | cons thread threads inductionHypothesis =>
      rw [List.map_cons, List.nodup_cons] at distinct
      have later : threads.countP (fun other => decide (3 ≤
            (Function.update fd thread.index .minusOne other.index).number)) =
          threads.countP fun other =>
            decide (3 ≤ (fd other.index).number) := by
        apply List.countP_congr
        intro other member
        rw [Function.update_of_ne]
        rintro same
        exact distinct.1 (same ▸ List.mem_map_of_mem member)
      rw [disableThreads]
      dsimp only
      rw [inductionHypothesis distinct.2, later]
      rcases Int.lt_or_le (fd thread.index).number 3 with standard | above
      · rw [disableWatchpoint_of_lt environment standard,
          List.countP_cons_of_neg (by simpa using standard)]
      · obtain ⟨result, disabled, -⟩ :=
          disableWatchpoint_of_ge environment above kernel
        rw [disabled, List.countP_cons_of_pos (by simpa using above)]
        simp only [Kernel.closed, Kernel.tick_calls]
        omega

/-- As long as the installing loop goes on, its events are recorded; it stops
at the first thread that is not watched. -/
theorem installThreads_recorded
    {addr : Word}
    (distinct : (threads.map Thread.index).Nodup)
    (clean : CleanInstalls environment threads.length kernel.calls)
    (holds : Recorded recorded kernel)
    (standardOpen : StandardOpen kernel)
    {ret : Bool}
    {installednum : Nat}
    {after : Records}
    {afterKernel : Kernel}
    (result : installThreads environment addr threads fd kernel =
      (ret, installednum, after, afterKernel)) :
    Recorded (fun number =>
        HeldBy (threads.take (installednum + 1)) after number ∨
          recorded number) afterKernel ∧
      StandardOpen afterKernel := by
  induction threads generalizing recorded fd kernel ret installednum with
  | nil =>
      simp only [installThreads, Prod.mk.injEq] at result
      obtain ⟨-, -, -, rfl⟩ := result
      exact ⟨holds.imp fun number above met => Or.inr met, standardOpen⟩
  | cons thread threads inductionHypothesis =>
      rw [List.map_cons, List.nodup_cons] at distinct
      rcases watches : watchThread environment addr thread.tid kernel with
        ⟨watched, record, middle⟩
      obtain ⟨kept, middleOpen, goesOn⟩ :=
        holds.watch standardOpen clean.1 watches
      rw [installThreads, watches] at result
      cases watched with
      | false =>
          simp only [Bool.false_eq_true, if_false, Prod.mk.injEq] at result
          obtain ⟨-, rfl, rfl, rfl⟩ := result
          refine ⟨kept.imp fun number above cause => ?_, middleOpen⟩
          rw [List.take_succ_cons, HeldBy.cons_or_iff, Function.update_self]
          exact cause.imp_right Or.inr
      | true =>
          rcases rest : installThreads environment addr threads
            (Function.update fd thread.index record) middle with
            ⟨restRet, restNum, restFd, restKernel⟩
          simp only [if_true, rest, Prod.mk.injEq] at result
          obtain ⟨-, rfl, rfl, rfl⟩ := result
          obtain ⟨opens, enables, calls⟩ := goesOn rfl
          have later := clean.2 opens enables
          rw [← calls] at later
          obtain ⟨restHolds, restOpen⟩ := inductionHypothesis distinct.2 later
            kept middleOpen rest
          have own := installThreads_of_not_mem environment addr distinct.1
            (Function.update fd thread.index record) middle
          rw [rest, Function.update_self] at own
          refine ⟨restHolds.imp fun number above cause => ?_, restOpen⟩
          dsimp only at own
          rw [List.take_succ_cons, HeldBy.cons_or_iff, own]
          exact or_left_comm.mp cause

/-- Undoing an installation closes what it has recorded. -/
theorem rollbackThreads_recorded
    {installednum : Nat}
    (distinct : (threads.map Thread.index).Nodup)
    (holds : Recorded (fun number =>
      HeldBy (threads.take (installednum + 1)) fd number ∨
        recorded number) kernel) :
    Recorded recorded
      (rollbackThreads environment threads installednum fd kernel).2 := by
  induction threads generalizing installednum fd kernel with
  | nil =>
      exact holds.imp fun number above cause =>
        cause.resolve_left (HeldBy.not_nil fd number)
  | cons thread threads inductionHypothesis =>
      rw [List.map_cons, List.nodup_cons] at distinct
      obtain ⟨between, middle, round, step⟩ := rollbackThreads_cons
        environment thread threads installednum fd kernel
      have absent : thread.index ∉
          (threads.take installednum).map Thread.index := by
        intro member
        rw [List.map_take] at member
        exact distinct.1 (List.mem_of_mem_take member)
      have undone : Recorded (fun number =>
          HeldBy (threads.take installednum) between number ∨
            recorded number) middle := by
        have expanded := holds.imp fun number above =>
          (HeldBy.cons_or_iff thread number).mp
        rcases round with ⟨rfl, rfl⟩ | ⟨undone, rfl, rfl⟩
        · simp only [HeldBy.of_update absent]
          exact expanded.disable environment
        · refine expanded.imp ?_
          rintro number above (same | cause)
          · omega
          · exact cause
      rw [step]
      cases installednum with
      | zero =>
          exact undone.imp fun number above cause =>
            cause.resolve_left (HeldBy.not_nil between number)
      | succ left => exact inductionHypothesis distinct.2 undone

/-- The inner `setWatchpoint` records every event it leaves open. -/
theorem setWatchpointFds_recorded
    {addr : Word}
    (distinct : (threads.map Thread.index).Nodup)
    (clean : CleanInstalls environment threads.length kernel.calls)
    (holds : Recorded recorded kernel)
    (standardOpen : StandardOpen kernel)
    {ret : Bool}
    {numWatchpoints number : Int}
    {after : Records}
    {afterKernel : Kernel}
    (result : setWatchpointFds environment addr threads numWatchpoints fd
      kernel = (ret, number, after, afterKernel)) :
    Recorded (fun number =>
      ret = true ∧ HeldBy threads after number ∨ recorded number)
      afterKernel := by
  rcases installed : installThreads environment addr threads fd kernel with
    ⟨installs, installednum, installedFd, installedKernel⟩
  obtain ⟨kept, -⟩ := installThreads_recorded distinct clean holds
    standardOpen installed
  cases installs with
  | true =>
      simp only [setWatchpointFds, installed, if_true, Prod.mk.injEq]
        at result
      obtain ⟨rfl, -, rfl, rfl⟩ := result
      refine kept.imp fun number above cause => ?_
      refine cause.imp_left ?_
      rintro ⟨thread, member, same⟩
      exact ⟨rfl, thread, List.mem_of_mem_take member, same⟩
  | false =>
      simp only [setWatchpointFds, installed, Bool.false_eq_true, if_false,
        Prod.mk.injEq] at result
      obtain ⟨rfl, -, rfl, rfl⟩ := result
      exact (rollbackThreads_recorded distinct kept).imp
        fun number above met => Or.inr met

end Threads

/-! ## What the loops over the slots keep -/

section Slots

variable {environment : Environment}
variable {recorded : Nat → Prop} {wp : SlotPosition → WatchpointObject}

/-- The prologue records the events that it opens for its thread. -/
theorem setWatchpointByThreadLoop_recorded
    (thread : Thread)
    {slots : List SlotPosition}
    {kernel : Kernel}
    (distinct : slots.Nodup)
    (clean : CleanInstalls environment
      (slots.countP fun slot => (wp slot).isUsed) kernel.calls)
    (holds : Recorded recorded kernel)
    (standardOpen : StandardOpen kernel) :
    Recorded (fun number =>
        (∃ slot ∈ slots, (wp slot).isUsed = true ∧
          (((setWatchpointByThreadLoop environment thread slots wp
            kernel).2.1 slot).fd thread.index).number = number) ∨
          recorded number)
      (setWatchpointByThreadLoop environment thread slots wp kernel).2.2 := by
  induction slots generalizing recorded wp kernel with
  | nil => exact holds.imp fun number above met => Or.inr met
  | cons first slots inductionHypothesis =>
      rw [List.nodup_cons] at distinct
      cases used : (wp first).isUsed with
      | false =>
          have skipped : setWatchpointByThreadLoop environment thread
              (first :: slots) wp kernel =
                setWatchpointByThreadLoop environment thread slots wp
                  kernel := by
            simp [setWatchpointByThreadLoop, used]
          rw [List.countP_cons_of_neg (by simp [used])] at clean
          rw [skipped]
          refine (inductionHypothesis distinct.2 clean holds
            standardOpen).imp ?_
          rintro number above (⟨slot, member, found⟩ | met)
          · exact Or.inl ⟨slot, List.mem_cons_of_mem _ member, found⟩
          · exact Or.inr met
      | true =>
          rw [List.countP_cons_of_pos (by simp [used])] at clean
          rcases watches : watchThread environment (wp first).addr thread.tid
            kernel with ⟨watched, record, after⟩
          obtain ⟨kept, afterOpen, goesOn⟩ :=
            holds.watch standardOpen clean.1 watches
          obtain ⟨between, atFirst, elsewhere, step⟩ :=
            Manager.setWatchpointByThreadLoop_of_used used watches slots
          rw [step]
          cases watched with
          | false =>
              refine kept.imp ?_
              rintro number above (same | met)
              · refine Or.inl ⟨first, List.mem_cons_self, used, ?_⟩
                simpa [atFirst] using same
              · exact Or.inr met
          | true =>
              obtain ⟨opens, enables, calls⟩ := goesOn rfl
              have later := clean.2 opens enables
              have differs : ∀ slot ∈ slots, slot ≠ first := by
                rintro slot member rfl
                exact distinct.1 member
              have sameCount : slots.countP (fun slot => (wp slot).isUsed) =
                  slots.countP fun slot => (between slot).isUsed := by
                apply List.countP_congr
                intro slot member
                rw [elsewhere slot (differs slot member)]
              rw [← calls, sameCount] at later
              refine (inductionHypothesis distinct.2 later kept
                afterOpen).imp ?_
              rintro number above (⟨slot, member, found⟩ | same | met)
              · rw [elsewhere slot (differs slot member)] at found
                exact Or.inl ⟨slot, List.mem_cons_of_mem _ member, found⟩
              · refine Or.inl ⟨first, List.mem_cons_self, used, ?_⟩
                obtain ⟨last, result, untouched⟩ :=
                  Manager.setWatchpointByThreadLoop_wp environment thread
                    slots between after first
                rw [if_pos rfl, result, untouched (Or.inl distinct.1), atFirst]
                simpa using same
              · exact Or.inr met

/-- The loop of `threadExit` closes what the records of its thread hold. -/
theorem exitSlots_recorded
    {index : ThreadPosition}
    {slots : List SlotPosition}
    {kernel : Kernel}
    (holds : Recorded (fun number =>
      (∃ slot ∈ slots, ((wp slot).fd index).number = number) ∨
        recorded number) kernel) :
    Recorded recorded (exitSlots environment wp index slots kernel) := by
  induction slots generalizing kernel with
  | nil => exact holds.imp fun number above cause => by simpa using cause
  | cons slot slots inductionHypothesis =>
      apply inductionHypothesis
      apply Recorded.disable
      refine holds.imp fun number above cause => ?_
      rwa [List.exists_mem_cons_iff, or_assoc] at cause

end Slots

namespace Manager

/-! ## What each operation keeps -/

/-- The number is recorded in a used slot for a thread in the alive list. -/
def RecordedInSlot (manager : Manager) (number : Nat) : Prop :=
  ∃ slot, (manager.wp slot).isUsed = true ∧
    HeldBy manager.threads.aliveThreads (manager.wp slot).fd number

/-- No perf event is leaked: each that is open is recorded. -/
def NoLeak (manager : Manager) : Prop :=
  ∀ number event, manager.kernel.files.lookup number = some (.perf event) →
    manager.RecordedInSlot number

/-- How many calls have been made when the installation into a valid slot
begins: a used slot takes one for the clock and two for each record that is
closed. -/
def installCalls (manager : Manager) (slot : SlotPosition) : Nat :=
  manager.kernel.calls +
    if (manager.wp slot).isUsed then
      1 + 2 * manager.threads.aliveThreads.countP fun thread =>
        decide (3 ≤ ((manager.wp slot).fd thread.index).number)
    else 0

/-- Wherever the action installs watchpoints, the standard descriptors are open
and no installation fails once its event is open. -/
def InstallsCleanly (environment : Environment) (manager : Manager) :
    Action → Prop
  | .setSection watchedRatio request slot =>
      (isValid environment watchedRatio request (manager.wp slot)
          manager.kernel).1 = true →
        StandardOpen manager.kernel ∧
          CleanInstalls environment manager.threads.aliveThreads.length
            (manager.installCalls slot)
  | .threadCreate _ =>
      StandardOpen manager.kernel ∧
        CleanInstalls environment
          (slotPositions.countP fun slot => (manager.wp slot).isUsed)
          manager.kernel.calls
  | _ => True

instance decidableInstallsCleanly
    (environment : Environment) (manager : Manager) :
    ∀ action, Decidable (InstallsCleanly environment manager action)
  | .setSection _ _ _ => inferInstanceAs (Decidable (_ → _))
  | .disableSection _ _ => isTrue trivial
  | .threadCreate _ => inferInstanceAs (Decidable (_ ∧ _))
  | .threadExit _ => isTrue trivial
  | .appOpen => isTrue trivial
  | .appClose _ => isTrue trivial

section Steps

variable {environment : Environment} {manager next : Manager}

/-- What the run keeps: every open perf event has a number from three on and is
recorded. -/
structure RecordInvariant (manager : Manager) : Prop where
  wellFormed : manager.threads.WellFormed
  recorded : Recorded manager.RecordedInSlot manager.kernel

/-- The number is recorded in a used slot other than one. -/
def RecordedElsewhere (manager : Manager) (slot : SlotPosition)
    (number : Nat) : Prop :=
  ∃ other ≠ slot, (manager.wp other).isUsed = true ∧
    HeldBy manager.threads.aliveThreads (manager.wp other).fd number

/-- Once one slot has been rewritten, a number is recorded there or where it
was before. -/
theorem recordedInSlot_update
    (manager : Manager)
    {slot : SlotPosition}
    {object : WatchpointObject}
    {number : Nat}
    (wp_eq : next.wp = Function.update manager.wp slot object)
    (threads_eq : next.threads = manager.threads) :
    next.RecordedInSlot number ↔
      object.isUsed = true ∧
          HeldBy manager.threads.aliveThreads object.fd number ∨
        manager.RecordedElsewhere slot number := by
  unfold RecordedInSlot RecordedElsewhere
  rw [wp_eq, threads_eq]
  constructor
  · rintro ⟨other, used, held⟩
    by_cases same : other = slot
    · subst same
      rw [Function.update_self] at used held
      exact Or.inl ⟨used, held⟩
    · rw [Function.update_of_ne same] at used held
      exact Or.inr ⟨other, same, used, held⟩
  · rintro (⟨used, held⟩ | ⟨other, different, used, held⟩)
    · refine ⟨slot, ?_, ?_⟩
      · rwa [Function.update_self]
      · rwa [Function.update_self]
    · refine ⟨other, ?_, ?_⟩
      · rwa [Function.update_of_ne different]
      · rwa [Function.update_of_ne different]

/-- A number is recorded in one slot or in another. -/
theorem recordedInSlot_iff
    (manager : Manager) (slot : SlotPosition) (number : Nat) :
    manager.RecordedInSlot number ↔
      (manager.wp slot).isUsed = true ∧
          HeldBy manager.threads.aliveThreads (manager.wp slot).fd number ∨
        manager.RecordedElsewhere slot number :=
  recordedInSlot_update manager
    (Function.update_eq_self slot manager.wp).symm rfl

variable (environment) in
/-- Vacating a slot closes what the slot records, in the calls counted. -/
theorem vacateSlot_recorded
    (invariant : manager.RecordInvariant)
    (standardOpen : StandardOpen manager.kernel)
    (slot : SlotPosition) :
    let kernel := (vacateSlot environment manager.threads.aliveThreads
      (manager.wp slot) manager.kernel).2
    Recorded (manager.RecordedElsewhere slot) kernel ∧
      StandardOpen kernel ∧
      kernel.calls = manager.kernel.calls +
        if (manager.wp slot).isUsed then
          2 * manager.threads.aliveThreads.countP fun thread =>
            decide (3 ≤ ((manager.wp slot).fd thread.index).number)
        else 0 := by
  have distinct := invariant.wellFormed.nodup_index
  unfold vacateSlot
  cases used : (manager.wp slot).isUsed with
  | false =>
      refine ⟨invariant.recorded.imp fun number above met => ?_,
        standardOpen, rfl⟩
      rw [recordedInSlot_iff manager slot, used] at met
      simpa using met
  | true =>
      have holds := invariant.recorded.imp fun number above met => by
        rw [recordedInSlot_iff manager slot] at met
        exact met.imp_left And.right
      exact ⟨disableThreads_recorded environment distinct holds,
        standardOpen.disableThreads _ _, disableThreads_calls distinct _ _⟩

/-- A write records what it leaves open. -/
theorem writeSlot_recorded
    (invariant : manager.RecordInvariant)
    (standardOpen : StandardOpen manager.kernel)
    {request : Request}
    {slot : SlotPosition}
    (clean : CleanInstalls environment manager.threads.aliveThreads.length
      (manager.kernel.calls +
        if (manager.wp slot).isUsed then
          2 * manager.threads.aliveThreads.countP fun thread =>
            decide (3 ≤ ((manager.wp slot).fd thread.index).number)
        else 0)) :
    RecordInvariant (writeSlot environment request slot manager).2 := by
  obtain ⟨vacated, vacatedKernel, ret, _, fd, kernel, vacates, installs⟩ :=
    exists_writeSlot_loops environment request slot manager
  have emptied := vacateSlot_recorded environment invariant standardOpen
    slot
  rw [vacates] at emptied
  obtain ⟨elsewhere, stillOpen, calls⟩ := emptied
  rw [← calls] at clean
  have recorded := setWatchpointFds_recorded
    invariant.wellFormed.nodup_index clean elsewhere stillOpen installs
  rw [writeSlot_eq vacates installs]
  refine ⟨invariant.wellFormed, ?_⟩
  intro number event isOpen
  have openBefore : kernel.files.lookup number = some (.perf event) := by
    cases ret <;> exact isOpen
  refine (recorded number event openBefore).imp_right fun cause => ?_
  exact Iff.mpr (recordedInSlot_update manager rfl rfl) cause

/-- The locked test reads the clock on a used slot before it finds it valid. -/
theorem isValid_kernel
    {watchedRatio : Word → Int}
    {request : Request}
    {object : WatchpointObject}
    {kernel : Kernel}
    (valid : (isValid environment watchedRatio request object kernel).1 =
      true) :
    (isValid environment watchedRatio request object kernel).2 =
      if object.isUsed then kernel.tick else kernel := by
  unfold isValid at valid ⊢
  cases used : object.isUsed <;> cases preempt : request.ispreempt <;>
    simp_all

/-- A section of `setWatchpoint` that installs cleanly leaks nothing. -/
theorem setSection_recorded
    (invariant : manager.RecordInvariant)
    {watchedRatio : Word → Int}
    {request : Request}
    {slot : SlotPosition}
    (clean : InstallsCleanly environment manager
      (.setSection watchedRatio request slot)) :
    RecordInvariant
      (setSection environment watchedRatio request slot manager).2 := by
  have sameFiles : (isValid environment watchedRatio request
      (manager.wp slot) manager.kernel).2.files = manager.kernel.files := by
    unfold isValid
    split
    · rfl
    · split
      · rfl
      · rfl
  have afterTest : RecordInvariant { manager with
      kernel := (isValid environment watchedRatio request (manager.wp slot)
        manager.kernel).2 } := by
    refine ⟨invariant.wellFormed, fun number event isOpen => ?_⟩
    dsimp only at isOpen
    rw [sameFiles] at isOpen
    exact invariant.recorded number event isOpen
  cases valid : (isValid environment watchedRatio request (manager.wp slot)
      manager.kernel).1 with
  | false =>
      rw [setSection_of_invalid valid]
      exact afterTest
  | true =>
      obtain ⟨standardOpen, installs⟩ := clean valid
      rw [setSection_of_valid valid]
      apply writeSlot_recorded afterTest
      · intro number below
        dsimp only
        rw [sameFiles]
        exact standardOpen number below
      · dsimp only
        rw [isValid_kernel valid]
        unfold installCalls at installs
        cases used : (manager.wp slot).isUsed with
        | false => simpa [used] using installs
        | true => simpa [used, Nat.add_assoc] using installs

/-- A release closes what the slot records. -/
theorem disableSection_recorded
    (invariant : manager.RecordInvariant)
    (addr : Word) (slot : SlotPosition) :
    RecordInvariant (disableSection environment addr slot manager) := by
  obtain same | ⟨-, ret, fd, kernel, disables, result⟩ :=
    disableSection_cases environment addr slot manager
  · rw [same]
    exact invariant
  · rw [result]
    refine ⟨invariant.wellFormed, ?_⟩
    have holds := invariant.recorded.imp fun number above met => by
      rw [recordedInSlot_iff manager slot] at met
      exact met.imp_left And.right
    have recorded := disableThreads_recorded environment
      invariant.wellFormed.nodup_index holds
    rw [disables] at recorded
    exact recorded.imp fun number above elsewhere =>
      Iff.mpr (recordedInSlot_update manager rfl rfl) (Or.inr elsewhere)

/-- A thread creation that installs cleanly records what it opens for the new
thread. -/
theorem threadCreate_recorded
    (invariant : manager.RecordInvariant)
    {tid : Nat}
    (clean : InstallsCleanly environment manager (.threadCreate tid))
    (created : threadCreate environment tid manager = some next) :
    next.RecordInvariant := by
  obtain ⟨standardOpen, installs⟩ := clean
  obtain ⟨tindex, table, allocated, rfl⟩ := threadCreate_eq_some created
  obtain ⟨available, -⟩ := ThreadTable.allocThreadIndex_eq_some allocated
  have absent := invariant.wellFormed.not_mem_of_available available
  have alive := invariant.wellFormed.aliveThreads_create allocated tid
  have isChild : (table.setThread tindex tid).threads tindex =
      ⟨tindex, tid, false⟩ := by
    obtain ⟨-, rfl⟩ := ThreadTable.allocThreadIndex_eq_some allocated
    simp
  rw [isChild]
  refine ⟨invariant.wellFormed.create allocated tid, ?_⟩
  have recorded := setWatchpointByThreadLoop_recorded ⟨tindex, tid, false⟩
    (List.nodup_finRange _) installs invariant.recorded standardOpen
  refine recorded.imp ?_
  unfold RecordedInSlot
  dsimp only
  rw [alive]
  rintro number above (⟨slot, -, used, same⟩ | ⟨slot, used, thread, old, same⟩)
  · obtain ⟨record, result, -⟩ := setWatchpointByThreadLoop_wp environment
      ⟨tindex, tid, false⟩ slotPositions manager.wp manager.kernel slot
    refine ⟨slot, by rwa [result], ⟨tindex, tid, false⟩,
      List.mem_append_right _ List.mem_cons_self, same⟩
  · obtain ⟨record, result, -⟩ := setWatchpointByThreadLoop_wp environment
      ⟨tindex, tid, false⟩ slotPositions manager.wp manager.kernel slot
    have different : thread.index ≠ tindex := by
      rintro rfl
      apply absent
      rw [← invariant.wellFormed.map_index_aliveThreads]
      exact List.mem_map_of_mem old
    refine ⟨slot, by rwa [result], thread, List.mem_append_left _ old, ?_⟩
    rw [result]
    simpa [different] using same

/-- A thread that exits has the events of its records closed. -/
theorem threadExit_recorded
    (invariant : manager.RecordInvariant)
    {position : ThreadPosition}
    (member : position ∈ manager.threads.aliveThreadsList) :
    RecordInvariant (threadExit environment position manager) := by
  refine ⟨invariant.wellFormed.release member, ?_⟩
  apply exitSlots_recorded
  refine invariant.recorded.imp ?_
  rintro number above ⟨slot, used, thread, alive, same⟩
  rw [invariant.wellFormed.index_eq]
  by_cases own : thread.index = position
  · subst own
    exact Or.inl ⟨slot, List.mem_finRange slot, same⟩
  · exact Or.inr ⟨slot, used, thread,
      invariant.wellFormed.mem_aliveThreads_release.mpr ⟨alive, own⟩, same⟩

/-- Each step that installs cleanly keeps the events recorded. -/
theorem step_recorded
    {action : Action}
    (invariant : manager.RecordInvariant)
    (clean : InstallsCleanly environment manager action)
    (stepped : step environment manager action = some next) :
    next.RecordInvariant := by
  cases action with
  | setSection watchedRatio request slot =>
      rw [step, Option.some.injEq] at stepped
      subst stepped
      exact setSection_recorded invariant clean
  | disableSection addr slot =>
      rw [step, Option.some.injEq] at stepped
      subst stepped
      exact disableSection_recorded invariant addr slot
  | threadCreate tid => exact threadCreate_recorded invariant clean stepped
  | threadExit position =>
      obtain ⟨member, rfl⟩ := step_threadExit_eq_some stepped
      exact threadExit_recorded invariant member
  | appOpen =>
      rw [step, Option.some.injEq] at stepped
      subst stepped
      unfold appOpen
      dsimp only
      split
      · exact ⟨invariant.wellFormed, invariant.recorded⟩
      · refine ⟨invariant.wellFormed, fun number event isOpen => ?_⟩
        by_cases own : number = environment.descriptor manager.kernel.calls
            manager.kernel.files
        · rw [own] at isOpen
          exact absurd isOpen (by simp)
        · refine invariant.recorded number event ?_
          exact (DescriptorTable.lookup_insert_of_ne _ _ own).symm.trans isOpen
  | appClose number =>
      obtain ⟨-, rfl⟩ := appClose_eq_some stepped
      refine ⟨invariant.wellFormed, fun other event isOpen => ?_⟩
      by_cases own : other = number
      · rw [own] at isOpen
        exact absurd isOpen (by simp [close])
      · refine invariant.recorded other event ?_
        exact (DescriptorTable.lookup_erase_of_ne _ own).symm.trans isOpen

end Steps

/-! ## Runs -/

/-- In every run in which each step installs cleanly no perf event is ever
leaked, whichever other calls fail. -/
theorem noLeak_of_installsCleanly
    (environment : Environment)
    {files : DescriptorTable File}
    (noEvent : ∀ number event, files.lookup number ≠ some (.perf event))
    (tid : Nat)
    {actions : List Action}
    {final : Manager}
    (clean : Machine.Along (step environment) (InstallsCleanly environment)
      (start files tid) actions)
    (executed : run environment (start files tid) actions = some final) :
    final.NoLeak := by
  have initial : RecordInvariant (start files tid) :=
    ⟨ThreadTable.wellFormed_initializeTable tid,
      fun number event isOpen => absurd isOpen (noEvent number event)⟩
  have invariant := Machine.run_invariant
    (fun _ _ _ invariant clean stepped =>
      step_recorded invariant clean stepped) initial clean executed
  intro number event isOpen
  exact (invariant.recorded number event isOpen).2

/-- An installation that cannot be enabled and is undone, one that succeeds,
and a thread whose event for the slot cannot be opened. -/
def failingRun : List Action :=
  [.setSection (fun _ => 1000) (sampleRequest 0x1000 1 false) 0,
    .setSection (fun _ => 1000) (sampleRequest 0x1000 1 false) 0,
    .threadCreate 2, .threadExit 1]

theorem noLeak_failingRun :
    let environment := Environment.lowestFree
      (fun call => decide (call = 5 ∨ call = 15)) fun _ => 0
    ∃ final,
      run environment (start standardFiles 1) failingRun = some final ∧
        final.NoLeak := by
  intro environment
  have noEvent : ∀ number event,
      standardFiles.lookup number ≠ some (.perf event) := by
    intro number event
    simp only [standardFiles, DescriptorTable.insert, DescriptorTable.empty]
    split_ifs <;> simp
  have clean : Machine.Along (step environment)
      (InstallsCleanly environment) (start standardFiles 1) failingRun := by
    decide +kernel
  have defined : (run environment (start standardFiles 1)
      failingRun).isSome = true := by decide +kernel
  obtain ⟨final, executed⟩ := Option.isSome_iff_exists.mp defined
  exact ⟨final, executed,
    noLeak_of_installsCleanly environment noEvent 1 clean executed⟩

/-- When `F_SETFL` fails during an installation, its event stays open although
no slot is used. -/
theorem leak_setFlags :
    let environment := Environment.lowestFree (fun call => decide (call = 2))
      fun _ => 0
    ∃ final,
      run environment (start standardFiles 1)
          [.setSection (fun _ => 1000) (sampleRequest 0x1000 1 false) 0] =
        some final ∧
      ¬final.NoLeak := by
  refine ⟨_, rfl, fun noLeak => ?_⟩
  obtain ⟨slot, used, -⟩ := noLeak 3 ⟨0, 0x1010, 1⟩ rfl
  revert slot
  decide +kernel

end Manager

end Causer
