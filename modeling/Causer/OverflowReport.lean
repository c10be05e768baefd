import Causer.OwnershipRuns

/-!
# Whom an overflow report names

`trapHandler` finds the overflowed object by the descriptor that the signal
carries: it takes the first used slot in which some alive thread's record has
that number.  A record that was never written holds zero, and one left by an
exited thread holds a number that has been closed; either can agree with the
descriptor of a watchpoint in another slot.
-/

namespace Causer
namespace Manager

/-- What the slot found for a descriptor has to do with it. -/
theorem getWatchpointObjectByFd_eq_some
    {manager : Manager}
    {fd : Int}
    {slot : SlotPosition}
    (found : manager.getWatchpointObjectByFd fd = some slot) :
    (manager.wp slot).isUsed = true ∧
      ∃ thread ∈ manager.threads.aliveThreads,
        ((manager.wp slot).fd thread.index).number = fd := by
  have test := List.find?_some found
  simpa using test

/-- Under ownership from zero on, the slot found for an open event watches the
event's address. -/
theorem OwnershipInvariant.addr_of_found
    {manager : Manager}
    (invariant : OwnershipInvariant 0 manager)
    {number : Nat}
    {event : PerfEvent}
    (isOpen : manager.kernel.files.lookup number = some (.perf event))
    {slot : SlotPosition}
    (found : manager.getWatchpointObjectByFd number = some slot) :
    (manager.wp slot).addr = event.address := by
  obtain ⟨used, thread, member, isNumber⟩ :=
    getWatchpointObjectByFd_eq_some found
  have alive : thread.index ∈ manager.threads.aliveThreadsList := by
    rw [← invariant.wellFormed.map_index_aliveThreads]
    exact List.mem_map_of_mem member
  have isDuty : manager.duty 0 (slot, thread.index) =
      some ⟨0, some (manager.wp slot).addr⟩ := by
    rw [duty, dutyFor_of_mem alive, slotDuty_of_used used]
  obtain ⟨owner, -, ownerOpen, watches⟩ :=
    invariant.owned.opened (slot, thread.index) _ isDuty (by
      show 0 ≤ ((manager.wp slot).fd thread.index).number
      rw [isNumber]
      exact Int.natCast_nonneg number)
  have sameNumber :
      (recordsOf manager.wp (slot, thread.index)).number.toNat = number := by
    show ((manager.wp slot).fd thread.index).number.toNat = number
    rw [isNumber]
    rfl
  rw [sameNumber, isOpen, Option.some.injEq, File.perf.injEq] at ownerOpen
  rw [ownerOpen]
  exact (watches _ rfl).symm

/-- In every run in which no thread inherits a stale record, zero counting as
one in a used slot, a lookup by the descriptor of an open event finds a slot
with the event's address or none. -/
theorem report_names_watched_object
    (environment : Environment)
    (files : DescriptorTable File)
    (tid : Nat)
    {actions : List Action}
    {final : Manager}
    (inherits : Machine.Along (step environment)
      (InheritsNothing 0 environment) (start files tid) actions)
    (executed : run environment (start files tid) actions = some final) :
    ∀ number event slot,
      final.kernel.files.lookup number = some (.perf event) →
      final.getWatchpointObjectByFd number = some slot →
      (final.wp slot).addr = event.address :=
  fun _ _ _ isOpen found =>
    (run_owned (by decide) (by decide) files tid inherits
      executed).addr_of_found isOpen found

/-- Two installations and a thread that gets both watchpoints. -/
def reportRun : List Action :=
  [.setSection (fun _ => 1000) (sampleRequest 0x1000 1 false) 0,
    .setSection (fun _ => 1000) (sampleRequest 0x2000 1 false) 1,
    .threadCreate 2]

/-- The created thread's descriptor of the second slot leads to that slot. -/
theorem report_names_watched_object_reportRun :
    ∃ final,
      run steadyEnvironment (start standardFiles 1) reportRun = some final ∧
        final.kernel.files.lookup 6 = some (.perf ⟨3, 0x2010, 2⟩) ∧
        final.getWatchpointObjectByFd 6 = some 1 ∧
        (final.wp 1).addr = 0x2010 := by
  have inherits : Machine.Along (step steadyEnvironment)
      (InheritsNothing 0 steadyEnvironment) (start standardFiles 1)
      reportRun := by
    refine Machine.along_cons rfl trivial ?_
    refine Machine.along_cons rfl trivial ?_
    refine Machine.along_cons rfl ?_ trivial
    refine inheritsNothing_of_found 1 (by decide +kernel) ?_ 2
    unfold Reached
    decide +kernel
  refine ⟨_, rfl, by decide +kernel, by decide +kernel, ?_⟩
  exact report_names_watched_object steadyEnvironment standardFiles 1
    inherits rfl 6 ⟨3, 0x2010, 2⟩ 1 (by decide +kernel) (by decide +kernel)

/-- A kernel on which only the twenty-third call fails. -/
def interruptedEnvironment : Environment :=
  .lowestFree (fun call => call == 22) fun call =>
    100 * BitVec.ofNat 64 call

/-- The application closes its standard input, the third installation gets the
free number, and a thread's prologue fails at the first slot: its record of
the second slot keeps the zero it was loaded with. -/
def interruptedRun : List Action :=
  [.setSection (fun _ => 1000) (sampleRequest 0x1000 1 false) 0,
    .setSection (fun _ => 1000) (sampleRequest 0x2000 1 false) 1,
    .appClose 0,
    .setSection (fun _ => 1000) (sampleRequest 0x3000 1 false) 2,
    .threadCreate 2]

/-- The descriptor of the third slot leads to the second. -/
theorem report_names_another_object :
    ∃ final event slot,
      run interruptedEnvironment (start standardFiles 1) interruptedRun =
          some final ∧
        final.kernel.files.lookup 0 = some (.perf event) ∧
        final.getWatchpointObjectByFd 0 = some slot ∧
        (final.wp slot).addr ≠ event.address :=
  ⟨_, ⟨2, 0x3010, 1⟩, 1, rfl, by decide +kernel, by decide +kernel,
    by decide +kernel⟩

end Manager
end Causer
