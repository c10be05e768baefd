import Causer.Manager

/-!
# Every alive thread is watched

When every system call succeeds, each record of a used slot at the index of an
alive thread is the result of an installation made for that thread at the
slot's current address.  Records are written by three loops and never cleared
when a thread exits; the invariant only speaks of alive threads, and a thread
that takes over an index writes its own records before it is listed.
-/

namespace Causer

/-- The record was returned by an installation for a thread at an address, and
was enabled. -/
structure Watching (record : Descriptor) (addr : Word) (tid : Nat) :
    Prop where
  number_ge : 3 ≤ record.number
  enabled : record.enabled = true
  origin : ∃ event, record.origin = some event ∧
    event.address = addr ∧ event.tid = tid

section Loops

/-- Installing and enabling succeeds and yields a watching record. -/
theorem watchThread_succeeds
    {environment : Environment}
    (succeed : environment.AllSucceed)
    (above : environment.AboveStandard)
    (addr : Word) (tid : Nat) (kernel : Kernel) :
    ∃ record after,
      watchThread environment addr tid kernel = (true, record, after) ∧
        Watching record addr tid := by
  obtain ⟨watched, record, after, result, -, failure, outcome⟩ :=
    watchThread_cases environment addr tid kernel
  have isWatched : watched = true := by
    cases watched with
    | true => rfl
    | false =>
        obtain ⟨offset, -, -, fails⟩ := failure rfl
        rw [succeed] at fails
        exact absurd fails (by simp)
  subst isWatched
  refine ⟨record, after, result, ?_⟩
  have number_ge := above kernel.calls kernel.files
  rcases outcome with ⟨impossible, _⟩ | ⟨_, ⟨impossible, _⟩ | rfl⟩
  · exact absurd impossible (by simp)
  · exact absurd impossible (by simp)
  · exact ⟨Int.ofNat_le.mpr number_ge, rfl, _, rfl, rfl, rfl⟩

/-- The releasing loop reports success exactly when none of its threads has a
standard descriptor. -/
theorem disableThreads_fst
    (environment : Environment)
    {threads : List Thread}
    (distinct : (threads.map Thread.index).Nodup)
    (fd : Records) (kernel : Kernel) :
    (disableThreads environment threads fd kernel).1 = true ↔
      ∀ thread ∈ threads, 3 ≤ (fd thread.index).number := by
  induction threads generalizing fd kernel with
  | nil => simp [disableThreads]
  | cons thread threads inductionHypothesis =>
      rw [List.map_cons, List.nodup_cons] at distinct
      have apart : ∀ other ∈ threads,
          Function.update fd thread.index .minusOne other.index =
            fd other.index := by
        intro other member
        have different : other.index ≠ thread.index := fun same =>
          distinct.1 (same ▸ List.mem_map_of_mem member)
        exact Function.update_of_ne different ..
      rw [disableThreads]
      simp only [Bool.and_eq_true, Bool.not_eq_true', decide_eq_false_iff_not,
        disableWatchpoint_negative_iff, not_lt, List.forall_mem_cons,
        inductionHypothesis distinct.2]
      refine and_congr_right fun _ => forall₂_congr fun other member => ?_
      rw [apart other member]

/-- The installing loop only writes the records of its threads. -/
theorem installThreads_of_not_mem
    (environment : Environment)
    (addr : Word)
    {threads : List Thread}
    {index : ThreadPosition}
    (absent : index ∉ threads.map Thread.index)
    (fd : Records) (kernel : Kernel) :
    (installThreads environment addr threads fd kernel).2.2.1 index =
      fd index := by
  induction threads generalizing fd kernel with
  | nil => rfl
  | cons thread threads inductionHypothesis =>
      rw [List.map_cons, List.mem_cons, not_or] at absent
      rw [installThreads]
      rcases watchThread environment addr thread.tid kernel with
        ⟨_ | _, record, after⟩
      · exact Function.update_of_ne absent.1 ..
      · exact (inductionHypothesis absent.2 _ after).trans
          (Function.update_of_ne absent.1 ..)

/-- The installing loop succeeds and watches every one of its threads. -/
theorem installThreads_succeeds
    {environment : Environment}
    (succeed : environment.AllSucceed)
    (above : environment.AboveStandard)
    (addr : Word)
    {threads : List Thread}
    (distinct : (threads.map Thread.index).Nodup)
    (fd : Records) (kernel : Kernel) :
    ∃ installednum after afterKernel,
      installThreads environment addr threads fd kernel =
          (true, installednum, after, afterKernel) ∧
        ∀ thread ∈ threads,
          Watching (after thread.index) addr thread.tid := by
  induction threads generalizing fd kernel with
  | nil => exact ⟨_, _, _, rfl, by simp⟩
  | cons thread threads inductionHypothesis =>
      rw [List.map_cons, List.nodup_cons] at distinct
      obtain ⟨record, middle, watched, watching⟩ :=
        watchThread_succeeds succeed above addr thread.tid kernel
      obtain ⟨installednum, after, afterKernel, rest, others⟩ :=
        inductionHypothesis distinct.2
          (Function.update fd thread.index record) middle
      have kept := installThreads_of_not_mem environment addr
        distinct.1 (Function.update fd thread.index record) middle
      refine ⟨installednum + 1, after, afterKernel, ?_, ?_⟩
      · simp [installThreads, watched, rest]
      · intro other member
        rcases List.mem_cons.mp member with rfl | member
        · rw [rest, Function.update_self] at kept
          have isRecord : after other.index = record := kept
          rwa [isRecord]
        · exact others other member

/-- The prologue watches every used slot for its thread. -/
theorem setWatchpointByThreadLoop_succeeds
    {environment : Environment}
    (succeed : environment.AllSucceed)
    (above : environment.AboveStandard)
    (thread : Thread)
    {slots : List SlotPosition}
    (distinct : slots.Nodup)
    (wp : SlotPosition → WatchpointObject) (kernel : Kernel)
    {slot : SlotPosition}
    (member : slot ∈ slots)
    (usedSlot : (wp slot).isUsed = true) :
    Watching (((setWatchpointByThreadLoop environment thread slots wp
      kernel).2.1 slot).fd thread.index) (wp slot).addr thread.tid := by
  induction slots generalizing wp kernel with
  | nil => exact absurd member List.not_mem_nil
  | cons first slots inductionHypothesis =>
      rw [List.nodup_cons] at distinct
      cases used : (wp first).isUsed with
      | false =>
          have different : slot ≠ first := by
            rintro rfl
            rw [used] at usedSlot
            exact absurd usedSlot (by simp)
          have later := List.mem_of_ne_of_mem different member
          simpa [setWatchpointByThreadLoop, used] using
            inductionHypothesis distinct.2 wp kernel later usedSlot
      | true =>
          obtain ⟨record, middle, watched, isWatching⟩ :=
            watchThread_succeeds succeed above (wp first).addr thread.tid
              kernel
          obtain ⟨between, atFirst, elsewhere, step⟩ :=
            Manager.setWatchpointByThreadLoop_of_used used watched slots
          rw [step, if_pos rfl]
          by_cases same : slot = first
          · subst same
            obtain ⟨last, result, kept⟩ :=
              Manager.setWatchpointByThreadLoop_wp environment thread slots
                between middle slot
            rw [result, kept (Or.inl distinct.1), atFirst]
            simpa using isWatching
          · have later := List.mem_of_ne_of_mem same member
            rw [← elsewhere slot same] at usedSlot ⊢
            exact inductionHypothesis distinct.2 between middle later usedSlot

end Loops

namespace Manager

/-- For every used slot, the record of every alive thread watches the slot's
address. -/
def Covered (manager : Manager) : Prop :=
  ∀ slot, (manager.wp slot).isUsed = true →
    ∀ thread ∈ manager.threads.aliveThreads,
      Watching ((manager.wp slot).fd thread.index) (manager.wp slot).addr
        thread.tid

/-- What every state of a run without failing calls satisfies. -/
structure CoverageInvariant (manager : Manager) : Prop where
  wellFormed : manager.threads.WellFormed
  covered : manager.Covered

section Steps

variable {environment : Environment} {manager next : Manager}

/-- Coverage only depends on the slots and the threads. -/
theorem Covered.congr
    (covered : manager.Covered)
    (wp_eq : next.wp = manager.wp)
    (threads_eq : next.threads = manager.threads) :
    next.Covered := by
  rw [Covered, wp_eq, threads_eq]
  exact covered

/-- A write covers its slot. -/
theorem writeSlot_covered
    (succeed : environment.AllSucceed)
    (above : environment.AboveStandard)
    (covered : manager.Covered)
    (wellFormed : manager.threads.WellFormed)
    (request : Request) (slot : SlotPosition) :
    (writeSlot environment request slot manager).2.Covered := by
  rcases vacates : vacateSlot environment manager.threads.aliveThreads
      (manager.wp slot) manager.kernel with ⟨vacated, vacatedKernel⟩
  obtain ⟨installednum, fd, kernel, installed, watching⟩ :=
    installThreads_succeeds succeed above request.addr
      wellFormed.nodup_index vacated vacatedKernel
  have installs : setWatchpointFds environment request.addr
      manager.threads.aliveThreads manager.numWatchpoints vacated
      vacatedKernel =
        (true, atomicAddFetch manager.numWatchpoints 1, fd, kernel) := by
    simp [setWatchpointFds, installed]
  rw [writeSlot_eq vacates installs]
  intro other
  by_cases same : other = slot
  · subst same
    intro _ thread alive
    simpa using watching thread alive
  · simpa [same] using covered other

/-- A section of `setWatchpoint` keeps the coverage. -/
theorem setSection_covered
    (succeed : environment.AllSucceed)
    (above : environment.AboveStandard)
    (wellFormed : manager.threads.WellFormed)
    (covered : manager.Covered)
    (watchedRatio : Word → Int) (request : Request) (slot : SlotPosition) :
    (setSection environment watchedRatio request slot manager).2.Covered := by
  cases valid : (isValid environment watchedRatio request (manager.wp slot)
      manager.kernel).1 with
  | false =>
      rw [setSection_of_invalid valid]
      exact covered.congr rfl rfl
  | true =>
      rw [setSection_of_valid valid]
      have afterTest : Covered { manager with
          kernel := (isValid environment watchedRatio request
            (manager.wp slot) manager.kernel).2 } := covered.congr rfl rfl
      exact writeSlot_covered succeed above afterTest wellFormed request slot

/-- A covered slot is released. -/
theorem disableWatchpointObject_releases
    (wellFormed : manager.threads.WellFormed)
    (covered : manager.Covered)
    {slot : SlotPosition}
    (used : (manager.wp slot).isUsed = true) :
    ∃ object, object.isUsed = false ∧
      (disableWatchpointObject environment slot manager).2.wp =
        Function.update manager.wp slot object := by
  obtain ⟨ret, fd, kernel, disabled, result⟩ :=
    disableWatchpointObject_eq environment slot manager
  have succeeds := (disableThreads_fst environment wellFormed.nodup_index
    (manager.wp slot).fd manager.kernel).mpr
      fun thread alive => (covered slot used thread alive).number_ge
  rw [disabled] at succeeds
  have isTrue : ret = true := succeeds
  subst isTrue
  exact ⟨_, rfl, congrArg (fun outcome => outcome.2.wp) result⟩

/-- A section of `disableWatchpointByAddr` keeps the coverage. -/
theorem disableSection_covered
    (wellFormed : manager.threads.WellFormed)
    (covered : manager.Covered)
    (addr : Word) (slot : SlotPosition) :
    (disableSection environment addr slot manager).Covered := by
  have threads_eq := disableSection_threads environment addr slot manager
  unfold disableSection at threads_eq ⊢
  split at threads_eq
  · next matched =>
      rw [if_pos matched]
      obtain ⟨object, unused, wp_eq⟩ :=
        disableWatchpointObject_releases wellFormed covered matched.1
      intro other
      rw [wp_eq, threads_eq]
      by_cases same : other = slot
      · subst same
        intro used
        rw [Function.update_self, unused] at used
        exact absurd used (by simp)
      · rw [Function.update_of_ne same]
        exact covered other
  · next unmatched =>
      rw [if_neg unmatched]
      exact covered

/-- A created thread has installed its own watchpoints when it is listed. -/
theorem threadCreate_covered
    (succeed : environment.AllSucceed)
    (above : environment.AboveStandard)
    (wellFormed : manager.threads.WellFormed)
    (covered : manager.Covered)
    {tid : Nat}
    (created : threadCreate environment tid manager = some next) :
    next.Covered := by
  obtain ⟨tindex, table, allocated, rfl⟩ := threadCreate_eq_some created
  obtain ⟨available, -⟩ := ThreadTable.allocThreadIndex_eq_some allocated
  have absent := wellFormed.not_mem_of_available available
  generalize child : (table.setThread tindex tid).threads tindex = thread
  have alive := wellFormed.aliveThreads_create allocated tid
  have isChild : thread = ⟨tindex, tid, false⟩ := by
    obtain ⟨-, rfl⟩ := ThreadTable.allocThreadIndex_eq_some allocated
    simp [← child]
  subst isChild
  intro slot used other member
  obtain ⟨record, result, -⟩ := setWatchpointByThreadLoop_wp environment
    ⟨tindex, tid, false⟩ slotPositions manager.wp manager.kernel slot
  dsimp only at used member ⊢
  rw [result] at used
  rw [alive, List.mem_append, List.mem_singleton] at member
  rcases member with old | rfl
  · have different : other.index ≠ tindex := by
      rintro rfl
      apply absent
      rw [← wellFormed.map_index_aliveThreads]
      exact List.mem_map_of_mem old
    rw [result]
    simpa [different] using covered slot used other old
  · have watching := setWatchpointByThreadLoop_succeeds succeed above
      ⟨tindex, tid, false⟩ (List.nodup_finRange _) manager.wp manager.kernel
      (List.mem_finRange slot) used
    rw [result]
    rw [slotPositions] at result
    rwa [result] at watching

/-- Every step keeps the coverage. -/
theorem step_covered
    (succeed : environment.AllSucceed)
    (above : environment.AboveStandard)
    (wellFormed : manager.threads.WellFormed)
    (covered : manager.Covered)
    {action : Action}
    (stepped : step environment manager action = some next) :
    next.Covered := by
  cases action with
  | setSection watchedRatio request slot =>
      rw [step, Option.some.injEq] at stepped
      subst stepped
      exact setSection_covered succeed above wellFormed covered watchedRatio
        request slot
  | disableSection addr slot =>
      rw [step, Option.some.injEq] at stepped
      subst stepped
      exact disableSection_covered wellFormed covered addr slot
  | threadCreate tid =>
      exact threadCreate_covered succeed above wellFormed covered stepped
  | threadExit position =>
      obtain ⟨_, rfl⟩ := step_threadExit_eq_some stepped
      intro slot used thread alive
      exact covered slot used thread
        (wellFormed.mem_aliveThreads_release.mp alive).1
  | appOpen =>
      rw [step, Option.some.injEq] at stepped
      subst stepped
      obtain ⟨wp_eq, threads_eq, -⟩ := appOpen_frame environment manager
      exact covered.congr wp_eq threads_eq
  | appClose number =>
      obtain ⟨_, rfl⟩ := appClose_eq_some stepped
      exact covered.congr rfl rfl

/-- Every step keeps the invariant. -/
theorem CoverageInvariant.step
    (succeed : environment.AllSucceed)
    (above : environment.AboveStandard)
    (invariant : manager.CoverageInvariant)
    {action : Action}
    (stepped : Manager.step environment manager action = some next) :
    next.CoverageInvariant :=
  ⟨step_wellFormed invariant.wellFormed stepped,
    step_covered succeed above invariant.wellFormed invariant.covered stepped⟩

end Steps

/-- The scan finds the first used slot with an object start. -/
theorem getWatchpointObjectByAddr_eq_some
    {manager : Manager}
    {addr : Word}
    {slot : SlotPosition}
    (used : (manager.wp slot).isUsed = true)
    (starts : (manager.wp slot).objectstart = addr)
    (first : ∀ earlier < slot, (manager.wp earlier).isUsed = true →
      (manager.wp earlier).objectstart ≠ addr) :
    manager.getWatchpointObjectByAddr addr = some slot := by
  rw [getWatchpointObjectByAddr, slotPositions,
    List.find?_eq_some_iff_getElem]
  refine ⟨by simp [used, starts], slot.val, by simp, by simp, ?_⟩
  intro earlier before
  have less : (⟨earlier, before.trans slot.isLt⟩ : SlotPosition) < slot :=
    before
  cases earlierUsed : (manager.wp ⟨earlier, before.trans slot.isLt⟩).isUsed
  · simp [earlierUsed]
  · simpa [earlierUsed] using first _ less earlierUsed

theorem coverageInvariant_start
    (files : DescriptorTable File) (tid : Nat) :
    CoverageInvariant (start files tid) := by
  refine ⟨ThreadTable.wellFormed_initializeTable tid, fun slot used => ?_⟩
  exact absurd used (by simp [start])

theorem coverageInvariant_of_run
    {environment : Environment}
    (succeed : environment.AllSucceed)
    (above : environment.AboveStandard)
    (files : DescriptorTable File)
    (tid : Nat)
    {actions : List Action}
    {final : Manager}
    (executed : run environment (start files tid) actions = some final) :
    CoverageInvariant final := by
  exact Machine.run_invariant_of_step
    (fun _ _ _ invariant stepped => invariant.step succeed above stepped)
    (coverageInvariant_start files tid) executed

/-- With every call succeeding, after every run each used slot is covered, and
disabling an address releases the first slot that watches it. -/
theorem run_covered
    {environment : Environment}
    (succeed : environment.AllSucceed)
    (above : environment.AboveStandard)
    (files : DescriptorTable File)
    (tid : Nat)
    {actions : List Action}
    {final : Manager}
    (executed : run environment (start files tid) actions = some final) :
    final.Covered ∧
      ∀ addr slot,
        (final.wp slot).isUsed = true →
        (final.wp slot).objectstart = addr →
        (∀ earlier < slot, (final.wp earlier).isUsed = true →
          (final.wp earlier).objectstart ≠ addr) →
        ((disableWatchpointByAddr environment addr final).wp slot).isUsed =
          false := by
  obtain ⟨wellFormed, covered⟩ :=
    coverageInvariant_of_run succeed above files tid executed
  refine ⟨covered, fun addr slot used starts first => ?_⟩
  have found := getWatchpointObjectByAddr_eq_some used starts first
  obtain ⟨object, unused, wp_eq⟩ :=
    disableWatchpointObject_releases wellFormed covered used
  rw [disableWatchpointByAddr, found]
  simp only [disableSection]
  rw [if_pos ⟨used, starts.symm⟩, wp_eq, Function.update_self, unused]

/-- A kernel that never hands out a standard descriptor. -/
def nonstandardEnvironment : Environment where
  fails := fun _ => false
  descriptor := fun _ files =>
    if 3 ≤ files.lowestFree then files.lowestFree else max 3 files.bound
  descriptor_free := by
    intro _ files
    split
    · exact files.lookup_lowestFree
    · exact files.lookup_of_bound_le _ (le_max_right ..)
  clock := fun call => 100 * BitVec.ofNat 64 call
  rounding := nearestDouble

theorem aboveStandard_nonstandardEnvironment :
    nonstandardEnvironment.AboveStandard := by
  intro _ files
  show 3 ≤ ite _ _ _
  split
  · assumption
  · exact le_max_left ..

/-- A run with an installation, a created and an exited thread, a takeover and
a reused slot. -/
def coverageRun : List Action :=
  let watchedRatio : Word → Int := fun callstack =>
    if callstack = 2 then initWatchRatio else 1000
  [.setSection watchedRatio (sampleRequest 0x1000 1 false) 0,
    .threadCreate 2,
    .setSection watchedRatio (sampleRequest 0x2000 2 true) 0,
    .threadExit 1,
    .threadCreate 3,
    .setSection watchedRatio (sampleRequest 0x3000 1 false) 1]

theorem run_covered_coverageRun :
    ∃ final,
      run nonstandardEnvironment (start standardFiles 1) coverageRun =
        some final ∧ final.Covered := by
  have defined : (run nonstandardEnvironment (start standardFiles 1)
      coverageRun).isSome = true := by
    decide +kernel
  obtain ⟨final, executed⟩ := Option.isSome_iff_exists.mp defined
  have succeed : nonstandardEnvironment.AllSucceed := fun _ => rfl
  exact ⟨final, executed,
    (run_covered succeed aboveStandard_nonstandardEnvironment standardFiles 1
      executed).1⟩

end Manager

end Causer
