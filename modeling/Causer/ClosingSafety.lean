import Causer.OwnershipRuns

/-!
# Which descriptors the tool closes

`threadExit` closes the exiting thread's descriptors and leaves their numbers
in the records.  After enough creations and exits the thread's index is handed
out again; if the slot is unused by then, the prologue of the new thread does
not touch the record, and the new thread's exit closes a number that may belong
to anybody.  Without such an inheritance every closing is legitimate.
-/

namespace Causer
namespace Manager

/-- In every run in which no thread inherits a stale record, each descriptor
that `disable_watchpoint` closes is open and belongs to the event whose
installation returned it. -/
theorem closings_legitimate
    (environment : Environment)
    (files : DescriptorTable File)
    (tid : Nat)
    {actions : List Action}
    {final : Manager}
    (inherits : Machine.Along (step environment)
      (InheritsNothing 3 environment) (start files tid) actions)
    (executed : run environment (start files tid) actions = some final) :
    ∀ closing ∈ final.kernel.closings, closing.Legitimate :=
  (run_owned (by decide) (by decide) files tid inherits
    executed).owned.legitimate

/-- An installation, a thread that gets its own watchpoint and exits, and the
release of the slot. -/
def exitRun : List Action :=
  [.setSection (fun _ => 1000) (sampleRequest 0x1000 1 false) 0,
    .threadCreate 2, .threadExit 1, .disableSection 0x1000 0]

theorem closings_legitimate_exitRun :
    ∃ final,
      run steadyEnvironment (start standardFiles 1) exitRun = some final ∧
        ∀ closing ∈ final.kernel.closings, closing.Legitimate := by
  have inherits : Machine.Along (step steadyEnvironment)
      (InheritsNothing 3 steadyEnvironment) (start standardFiles 1)
      exitRun := by
    refine Machine.along_cons rfl trivial ?_
    refine Machine.along_cons rfl ?_ ?_
    · refine inheritsNothing_of_found 1 (by decide +kernel) ?_ 2
      unfold Reached
      decide +kernel
    refine Machine.along_cons rfl trivial ?_
    exact Machine.along_cons rfl trivial trivial
  exact ⟨_, rfl, closings_legitimate steadyEnvironment standardFiles 1
    inherits rfl⟩

/-- Nobody but the initial thread is alive and no slot is used. -/
structure Alone (manager : Manager) (threadIndex : ThreadPosition) :
    Prop where
  wellFormed : manager.threads.WellFormed
  aliveThreadsList : manager.threads.aliveThreadsList = [0]
  threadIndex_eq : manager.threads.threadIndex = threadIndex
  unused : ∀ slot, (manager.wp slot).isUsed = false

section Rounds

variable (environment : Environment)

/-- The prologue does nothing when no slot is used. -/
theorem setWatchpointByThreadLoop_of_unused
    {wp : SlotPosition → WatchpointObject}
    (unused : ∀ slot, (wp slot).isUsed = false)
    (thread : Thread) (slots : List SlotPosition) (kernel : Kernel) :
    setWatchpointByThreadLoop environment thread slots wp kernel =
      (true, wp, kernel) := by
  induction slots with
  | nil => rfl
  | cons slot slots inductionHypothesis =>
      simp [setWatchpointByThreadLoop, unused slot, inductionHypothesis]

/-- The exit loop does nothing when all records are standard descriptors. -/
theorem exitSlots_of_lt
    {wp : SlotPosition → WatchpointObject}
    {index : ThreadPosition}
    {slots : List SlotPosition}
    (below : ∀ slot ∈ slots, ((wp slot).fd index).number < 3)
    (kernel : Kernel) :
    exitSlots environment wp index slots kernel = kernel := by
  induction slots with
  | nil => rfl
  | cons slot slots inductionHypothesis =>
      rw [exitSlots, disableWatchpoint_of_lt environment
        (below slot List.mem_cons_self)]
      exact inductionHypothesis fun other member =>
        below other (List.mem_cons_of_mem _ member)

/-- Creating a thread while the initial one is alone changes nothing but the
thread table. -/
theorem threadCreate_of_alone
    {manager : Manager}
    {threadIndex tindex : ThreadPosition}
    (alone : manager.Alone threadIndex)
    (found : ThreadTable.findAvailable manager.threads.threads
      maxAliveThreads threadIndex = some tindex)
    (tid : Nat) :
    ∃ next,
      threadCreate environment tid manager = some next ∧
        next.wp = manager.wp ∧
        next.kernel = manager.kernel ∧
        next.threads.WellFormed ∧
        next.threads.aliveThreadsList = [0, tindex] ∧
        next.threads.threadIndex = tindex + 1 := by
  have room : manager.threads.totalAliveThreads < maxAliveThreads := by
    rw [alone.wellFormed.total_eq, alone.aliveThreadsList]
    decide
  rw [← alone.threadIndex_eq] at found
  obtain ⟨table, allocated⟩ := ThreadTable.exists_allocThreadIndex room found
  obtain ⟨-, isTable⟩ := ThreadTable.allocThreadIndex_eq_some allocated
  have prologue := setWatchpointByThreadLoop_of_unused environment alone.unused
    ((table.setThread tindex tid).threads tindex) slotPositions
    manager.kernel
  refine ⟨_, by rw [threadCreate, allocated], ?_⟩
  simp only [setWatchpointByThread, prologue, true_and]
  refine ⟨alone.wellFormed.create allocated tid, ?_, ?_⟩
  · simp [isTable, alone.aliveThreadsList]
  · rw [isTable]
    rfl

/-- One creation and the exit of the created thread leave everything but the
rotating index as it was, unless some record at the index could be closed. -/
theorem round_of_alone
    {manager : Manager}
    {threadIndex : ThreadPosition}
    (alone : manager.Alone threadIndex)
    (notInitial : threadIndex ≠ 0)
    (below : ∀ slot, ((manager.wp slot).fd threadIndex).number < 3)
    (tid : Nat) :
    ∃ next,
      run environment manager
          [.threadCreate tid, .threadExit threadIndex] = some next ∧
        next.wp = manager.wp ∧
        next.kernel = manager.kernel ∧
        next.Alone (threadIndex + 1) := by
  have available : (manager.threads.threads threadIndex).available =
      true := by
    have absent : threadIndex ∉ manager.threads.aliveThreadsList := by
      simpa [alone.aliveThreadsList] using notInitial
    rw [alone.wellFormed.mem_alive_iff] at absent
    simpa using absent
  have found : ThreadTable.findAvailable manager.threads.threads
      maxAliveThreads threadIndex = some threadIndex := by
    simp [ThreadTable.findAvailable, available]
  obtain ⟨middle, created, wp_eq, kernel_eq, wellFormed, alive, next_eq⟩ :=
    threadCreate_of_alone environment alone found tid
  have member : threadIndex ∈ middle.threads.aliveThreadsList := by
    simp [alive]
  have exited : step environment middle (.threadExit threadIndex) =
      some (threadExit environment threadIndex middle) := by
    rw [step, if_pos ⟨member, notInitial⟩]
  have untouched : exitSlots environment middle.wp threadIndex slotPositions
      middle.kernel = middle.kernel := by
    apply exitSlots_of_lt
    intro slot _
    rw [wp_eq]
    exact below slot
  refine ⟨threadExit environment threadIndex middle, ?_, wp_eq, ?_, ?_⟩
  · rw [run, Machine.run_cons, step, created]
    show (step environment middle (.threadExit threadIndex)).bind _ = _
    rw [exited]
    rfl
  · rw [threadExit, wellFormed.index_eq, untouched]
    exact kernel_eq
  · refine ⟨wellFormed.release member, ?_, next_eq, ?_⟩
    · show middle.threads.aliveThreadsList.erase threadIndex = [0]
      rw [alive]
      simp [notInitial.symm]
    · intro slot
      show (middle.wp slot).isUsed = false
      rw [wp_eq]
      exact alone.unused slot

/-- Creations and exits one after the other, each thread getting the next
index. -/
def rounds : Nat → ThreadPosition → List Action
  | 0, _ => []
  | count + 1, position =>
      .threadCreate 2 :: .threadExit position :: rounds count (position + 1)

/-- The rotating index can be moved to the end of the table and around. -/
theorem rounds_of_alone
    {manager : Manager}
    {count : Nat}
    {threadIndex : ThreadPosition}
    (alone : manager.Alone threadIndex)
    (notInitial : threadIndex ≠ 0)
    (fits : threadIndex.val + (count + 1) = 1025)
    (below : ∀ slot, ∀ index, threadIndex ≤ index →
      ((manager.wp slot).fd index).number < 3) :
    ∃ next,
      run environment manager (rounds (count + 1) threadIndex) = some next ∧
        next.wp = manager.wp ∧
        next.kernel = manager.kernel ∧
        next.Alone 0 := by
  induction count generalizing manager threadIndex with
  | zero =>
      obtain ⟨next, executed, wp_eq, kernel_eq, after⟩ :=
        round_of_alone environment alone notInitial
          (fun slot => below slot threadIndex (le_refl _)) 2
      have wraps : threadIndex + 1 = 0 := by
        apply Fin.ext
        show (threadIndex.val + 1) % 1025 = 0
        omega
      rw [wraps] at after
      exact ⟨next, executed, wp_eq, kernel_eq, after⟩
  | succ count inductionHypothesis =>
      obtain ⟨middle, executed, wp_eq, kernel_eq, after⟩ :=
        round_of_alone environment alone notInitial
          (fun slot => below slot threadIndex (le_refl _)) 2
      have successor : (threadIndex + 1).val = threadIndex.val + 1 := by
        show (threadIndex.val + 1) % 1025 = threadIndex.val + 1
        omega
      obtain ⟨next, rest, wp_eq', kernel_eq', final⟩ :=
        inductionHypothesis after
          (fun same => by
            have isZero := congrArg Fin.val same
            rw [successor, Fin.val_zero] at isZero
            omega)
          (by omega)
          (fun slot index above => by
            rw [wp_eq]
            apply below slot index
            rw [Fin.le_def] at above ⊢
            omega)
      refine ⟨next, ?_, wp_eq'.trans wp_eq, kernel_eq'.trans kernel_eq, final⟩
      have split : rounds (count + 1 + 1) threadIndex =
          [.threadCreate 2, .threadExit threadIndex] ++
            rounds (count + 1) (threadIndex + 1) := rfl
      rw [split, run, Machine.run_append]
      show (run environment manager _).bind _ = _
      rw [executed]
      exact rest

/-- The exit loop only adds to the closings. -/
theorem mem_closings_exitSlots
    {wp : SlotPosition → WatchpointObject}
    {index : ThreadPosition}
    (slots : List SlotPosition)
    {kernel : Kernel}
    {closing : Closing}
    (member : closing ∈ kernel.closings) :
    closing ∈ (exitSlots environment wp index slots kernel).closings := by
  induction slots generalizing kernel with
  | nil => exact member
  | cons slot slots inductionHypothesis =>
      rw [exitSlots]
      apply inductionHypothesis
      rcases Int.lt_or_le ((wp slot).fd index).number 3 with below | above
      · rw [disableWatchpoint_of_lt environment below]
        exact member
      · obtain ⟨result, disabled, -⟩ :=
          disableWatchpoint_of_ge environment above kernel
        rw [disabled]
        exact List.mem_cons_of_mem _ member

/-- A thread that is created while the initial one is alone and exits at once
closes the record that it inherits for the first slot. -/
theorem closes_inherited
    {manager : Manager}
    (alone : manager.Alone 0)
    (above : 3 ≤ ((manager.wp 0).fd 1).number)
    (tid : Nat) :
    ∃ final,
      run environment manager [.threadCreate tid, .threadExit 1] =
          some final ∧
        ⟨(manager.wp 0).fd 1, manager.kernel.files.lookup
            ((manager.wp 0).fd 1).number.toNat⟩ ∈ final.kernel.closings := by
  have zeroAlive := (alone.wellFormed.mem_alive_iff 0).mp
    (by simp [alone.aliveThreadsList])
  have oneAvailable : (manager.threads.threads 1).available = true := by
    have absent : (1 : ThreadPosition) ∉ manager.threads.aliveThreadsList := by
      simp [alone.aliveThreadsList]
    rw [alone.wellFormed.mem_alive_iff] at absent
    simpa using absent
  have found : ThreadTable.findAvailable manager.threads.threads
      maxAliveThreads 0 = some 1 := by
    simp [ThreadTable.findAvailable, zeroAlive, oneAvailable]
  obtain ⟨middle, created, wp_eq, kernel_eq, wellFormed, alive, -⟩ :=
    threadCreate_of_alone environment alone found tid
  have member : (1 : ThreadPosition) ∈ middle.threads.aliveThreadsList := by
    simp [alive]
  have exited : step environment middle (.threadExit 1) =
      some (threadExit environment 1 middle) := by
    rw [step, if_pos ⟨member, by decide⟩]
  refine ⟨threadExit environment 1 middle, ?_, ?_⟩
  · rw [run, Machine.run_cons, step, created]
    show (step environment middle (.threadExit 1)).bind _ = _
    rw [exited]
    rfl
  · obtain ⟨result, disabled, -⟩ :=
      disableWatchpoint_of_ge environment above manager.kernel
    rw [threadExit, wellFormed.index_eq, wp_eq, kernel_eq]
    show _ ∈ (exitSlots environment manager.wp 1 [1, 2, 3]
      (disableWatchpoint environment ((manager.wp 0).fd 1)
        manager.kernel).2).closings
    apply mem_closings_exitSlots
    rw [disabled]
    exact List.mem_cons_self

end Rounds

/-- A thread exits, the slot it was watched by is released, and the application
opens two files, the second under the number that the thread had. -/
def leadingActions : List Action := exitRun ++ [.appOpen, .appOpen]

/-- The state after the leading actions. -/
def afterLeading : Manager :=
  (run steadyEnvironment (start standardFiles 1) leadingActions).getD
    (start standardFiles 1)

/-- The leading actions, then threads that come and go until the first thread's
index is due again, then a thread that gets it. -/
def inheritanceRun : List Action :=
  leadingActions ++ (rounds 1023 2 ++ [.threadCreate 2, .threadExit 1])

theorem alone_afterLeading : afterLeading.Alone 2 := by
  have executed : run steadyEnvironment (start standardFiles 1)
      leadingActions = some afterLeading := rfl
  refine ⟨?_, by decide +kernel, by decide +kernel, by decide +kernel⟩
  exact Machine.run_invariant_of_step
    (fun _ _ _ wellFormed stepped => step_wellFormed wellFormed stepped)
    (ThreadTable.wellFormed_initializeTable 1) executed

set_option maxRecDepth 4000 in
theorem below_afterLeading :
    ∀ slot, ∀ index, (2 : ThreadPosition) ≤ index →
      ((afterLeading.wp slot).fd index).number < 3 := by
  decide +kernel

/-- The run closes a descriptor that belongs to the application. -/
theorem exit_closes_application_file :
    ∃ final,
      run steadyEnvironment (start standardFiles 1) inheritanceRun =
          some final ∧
        ∃ closing ∈ final.kernel.closings,
          closing.file = some .app ∧ ¬closing.Legitimate := by
  have executed : run steadyEnvironment (start standardFiles 1)
      leadingActions = some afterLeading := rfl
  have fits : (2 : ThreadPosition).val + (1022 + 1) = 1025 := rfl
  obtain ⟨middle, turned, wp_eq, kernel_eq, alone⟩ :=
    rounds_of_alone steadyEnvironment alone_afterLeading (by decide) fits
      below_afterLeading
  have number : ((afterLeading.wp 0).fd 1).number = 4 := by decide +kernel
  have isApp : afterLeading.kernel.files.lookup 4 = some .app := by
    decide +kernel
  obtain ⟨final, last, member⟩ := closes_inherited steadyEnvironment alone
    (by rw [wp_eq, number]; decide) 2
  refine ⟨final, ?_, _, member, ?_, ?_⟩
  · exact Machine.run_append_eq_some executed
      (Machine.run_append_eq_some turned last)
  · rw [wp_eq, kernel_eq, number]
    exact isApp
  · rintro ⟨event, -, isOpen⟩
    rw [wp_eq, kernel_eq, number] at isOpen
    rw [show ((4 : Int).toNat) = 4 from rfl, isApp] at isOpen
    exact absurd isOpen (by simp)

end Manager
end Causer
