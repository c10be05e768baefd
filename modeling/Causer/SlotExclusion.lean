import Causer.Calls
import Causer.WatchCoverage

/-!
# Exclusion on a slot

The unlocked reads of the two operations may be arbitrarily old, and still no
call destroys what another has put into a slot: a locked section tests again
before it writes.  A watchpoint leaves its slot only through the release of its
own address or through a takeover that passed the preemption test against it.
-/

namespace Causer

/-- The caller that takes a step. -/
def CallLabel.caller : CallLabel → Option Nat
  | .beginSet caller _ _ => some caller
  | .testUsed caller _ => some caller
  | .lockSet caller _ => some caller
  | .beginDisable caller _ _ => some caller
  | .lockDisable caller => some caller
  | .threadCreate _ => none
  | .threadExit _ => none

/-- The request of a caller that is in `setWatchpoint`. -/
def CallState.request : CallState → Option Request
  | .testing request _ _ => some request
  | .locking request _ _ => some request
  | _ => none

/-- The address of a caller that is in `disableWatchpointByAddr`. -/
def CallState.addr : CallState → Option Word
  | .found addr _ => some addr
  | _ => none

/-- The slot is used by the watchpoint of a request. -/
structure Occupies (request : Request) (object : WatchpointObject) :
    Prop where
  isUsed : object.isUsed = true
  addr : object.addr = request.addr
  objectstart : object.objectstart = request.objectstart
  objectsize : object.objectsize = request.objectsize
  callstack : object.callstack = request.callstack

namespace Manager

variable {environment : Environment} {manager : Manager}

/-- When calls succeed, installing for a list of threads succeeds. -/
theorem installThreads_of_succeed
    (succeed : environment.AllSucceed)
    (addr : Word) (threads : List Thread) (fd : Records) (kernel : Kernel) :
    (installThreads environment addr threads fd kernel).1 = true := by
  induction threads generalizing fd kernel with
  | nil => rfl
  | cons thread threads inductionHypothesis =>
      obtain ⟨watched, record, after, result, -, failure, -⟩ :=
        watchThread_cases environment addr thread.tid kernel
      cases watched with
      | false =>
          obtain ⟨offset, -, -, fails⟩ := failure rfl
          rw [succeed] at fails
          exact absurd fails (by simp)
      | true =>
          have rest := inductionHypothesis
            (Function.update fd thread.index record) after
          simpa [installThreads, result] using rest

/-- When calls succeed, a section on a valid slot returns true. -/
theorem writeSlot_of_succeed
    (succeed : environment.AllSucceed)
    (request : Request) (slot : SlotPosition) (manager : Manager) :
    (writeSlot environment request slot manager).1 = true := by
  obtain ⟨vacated, vacatedKernel, ret, numWatchpoints, fd, kernel, vacates,
    installs⟩ := exists_writeSlot_loops environment request slot manager
  rw [writeSlot_eq vacates installs]
  have installed := installThreads_of_succeed succeed request.addr
    manager.threads.aliveThreads vacated vacatedKernel
  simp only [setWatchpointFds, installed, if_true, Prod.mk.injEq] at installs
  exact installs.1.symm

/-- A section leaves the other slots alone. -/
@[simp] theorem setSection_wp_of_ne
    (watchedRatio : Word → Int) (request : Request)
    {slot other : SlotPosition}
    (different : other ≠ slot) :
    (setSection environment watchedRatio request slot manager).2.wp other =
      manager.wp other := by
  cases valid : (isValid environment watchedRatio request (manager.wp slot)
      manager.kernel).1 with
  | false => rw [setSection_of_invalid valid]
  | true =>
      rw [setSection_of_valid valid]
      obtain ⟨_, _, wp_eq⟩ := writeSlot_wp environment request slot
        { manager with
          kernel := (isValid environment watchedRatio request
            (manager.wp slot) manager.kernel).2 }
      rw [wp_eq, Function.update_of_ne different]

/-- A section that returns true has put its request into the slot. -/
theorem setSection_occupies
    {watchedRatio : Word → Int}
    {request : Request}
    {slot : SlotPosition}
    (returned : (setSection environment watchedRatio request slot
      manager).1 = true) :
    Occupies request ((setSection environment watchedRatio request slot
      manager).2.wp slot) := by
  cases valid : (isValid environment watchedRatio request (manager.wp slot)
      manager.kernel).1 with
  | false =>
      rw [setSection_of_invalid valid] at returned
      exact absurd returned (by simp)
  | true =>
      rw [setSection_of_valid valid] at returned ⊢
      obtain ⟨_, _, wp_eq⟩ := writeSlot_wp environment request slot
        { manager with
          kernel := (isValid environment watchedRatio request
            (manager.wp slot) manager.kernel).2 }
      rw [wp_eq, Function.update_self]
      exact ⟨returned, rfl, rfl, rfl, rfl⟩

/-- A used slot is valid only for a preempting request that passes the
preemption test. -/
theorem isValid_of_used
    {watchedRatio : Word → Int}
    {request : Request}
    {object : WatchpointObject}
    {kernel : Kernel}
    (used : object.isUsed = true)
    (valid : (isValid environment watchedRatio request object kernel).1 =
      true) :
    request.ispreempt = true ∧
      preemptionTest environment.rounding watchedRatio object request.callstack
        (getCurrentTime environment kernel).1 = true := by
  cases ispreempt : request.ispreempt with
  | false => simp [isValid, used, ispreempt] at valid
  | true => exact ⟨rfl, by simpa [isValid, used, ispreempt] using valid⟩

/-- The section of a request without preemption leaves used slots alone. -/
theorem setSection_wp_of_used
    (watchedRatio : Word → Int)
    {request : Request}
    (gentle : request.ispreempt = false)
    (visited : SlotPosition)
    {slot : SlotPosition}
    (used : (manager.wp slot).isUsed = true) :
    (setSection environment watchedRatio request visited manager).2.wp slot =
      manager.wp slot := by
  by_cases same : slot = visited
  · subst same
    have invalid : (isValid environment watchedRatio request
        (manager.wp slot) manager.kernel).1 = false := by
      simp [isValid, used, gentle]
    rw [setSection_of_invalid invalid]
  · exact setSection_wp_of_ne watchedRatio request same

/-- The section of `disableWatchpointByAddr` leaves the slots of other objects
alone. -/
@[simp] theorem disableSection_wp_of_ne
    (environment : Environment)
    {addr : Word}
    (found : SlotPosition)
    {slot : SlotPosition}
    (other : (manager.wp slot).objectstart ≠ addr) :
    (disableSection environment addr found manager).wp slot =
      manager.wp slot := by
  obtain same | ⟨matched, _, _, _, _, result⟩ :=
    disableSection_cases environment addr found manager
  · rw [same]
  · have different : slot ≠ found := by
      rintro rfl
      exact other matched.2.symm
    rw [result]
    exact Function.update_of_ne different ..

/-- A section of `disableWatchpointByAddr` releases a slot or leaves its
occupant in place. -/
theorem disableSection_occupies
    (environment : Environment)
    (addr : Word) (found : SlotPosition)
    {request : Request}
    {slot : SlotPosition}
    (occupies : Occupies request (manager.wp slot)) :
    Occupies request
        ((disableSection environment addr found manager).wp slot) ∨
      slot = found ∧
        ((disableSection environment addr found manager).wp slot).isUsed =
          false := by
  obtain kept | ⟨-, ret, fd, _, _, result⟩ :=
    disableSection_cases environment addr found manager
  · rw [kept]
    exact Or.inl occupies
  · rw [result]
    by_cases same : slot = found
    · subst same
      simp only [Function.update_self]
      cases ret with
      | true => exact Or.inr ⟨trivial, rfl⟩
      | false =>
          refine Or.inl { occupies with isUsed := ?_ }
          simpa using occupies.isUsed
    · simp only [Function.update_of_ne same]
      exact Or.inl occupies

end Manager

namespace Calls

variable (environment : Environment)

/-- The step makes a call of `setWatchpoint` return true for a slot. -/
def ReturnsTrue (calls : Calls) (label : CallLabel)
    (request : Request) (slot : SlotPosition) : Prop :=
  ∃ caller watchedRatio left,
    label = .lockSet caller watchedRatio ∧
      calls.callers caller = .locking request left slot ∧
      (Manager.setSection environment watchedRatio request slot
        calls.manager).1 = true

/-- The step is a call of `disableWatchpointByAddr` releasing a used slot. -/
def Releases (calls : Calls) (label : CallLabel)
    (slot : SlotPosition) : Prop :=
  ∃ caller addr,
    label = .lockDisable caller ∧
      calls.callers caller = .found addr slot ∧
      (calls.manager.wp slot).isUsed = true ∧
      ((Manager.disableSection environment addr slot
        calls.manager).wp slot).isUsed = false

/-- The step makes a call return true for a slot that an earlier request
occupies, after passing the preemption test against it. -/
def Preempts (calls : Calls) (label : CallLabel)
    (request : Request) (slot : SlotPosition) (earlier : Request) : Prop :=
  ∃ caller watchedRatio left,
    label = .lockSet caller watchedRatio ∧
      calls.callers caller = .locking request left slot ∧
      (Manager.setSection environment watchedRatio request slot
        calls.manager).1 = true ∧
      request.ispreempt = true ∧
      Occupies earlier (calls.manager.wp slot) ∧
      preemptionTest environment.rounding watchedRatio (calls.manager.wp slot)
        request.callstack
        (getCurrentTime environment calls.manager.kernel).1 = true

variable {environment}

/-- A caller in `setWatchpoint` without preemption changes no used slot. -/
theorem step_wp_of_gentle
    {calls next : Calls}
    {label : CallLabel}
    {caller : Nat}
    {request : Request}
    (stepped : step environment calls label = some next)
    (steps : label.caller = some caller)
    (inCall : (calls.callers caller).request = some request)
    (gentle : request.ispreempt = false)
    {slot : SlotPosition}
    (used : (calls.manager.wp slot).isUsed = true) :
    next.manager.wp slot = calls.manager.wp slot := by
  rcases step_cases stepped with
    same | ⟨other, watchedRatio, visiting, left, visited, rfl, position,
      result⟩ | ⟨other, addr, found, rfl, position, -⟩ | ⟨tid, rfl, -⟩ |
    ⟨exiting, rfl, -⟩
  · rw [same]
  · obtain rfl : other = caller := Option.some.inj steps
    rw [position] at inCall
    obtain rfl : visiting = request := Option.some.inj inCall
    rw [result]
    exact Manager.setSection_wp_of_used watchedRatio gentle visited used
  · obtain rfl : other = caller := Option.some.inj steps
    rw [position] at inCall
    exact absurd inCall (by simp [CallState.request])
  · exact absurd steps (by simp [CallLabel.caller])
  · exact absurd steps (by simp [CallLabel.caller])

/-- A caller in `disableWatchpointByAddr` changes no slot of another object. -/
theorem step_wp_of_disabling
    {calls next : Calls}
    {label : CallLabel}
    {caller : Nat}
    {addr : Word}
    (stepped : step environment calls label = some next)
    (steps : label.caller = some caller)
    (inCall : (calls.callers caller).addr = some addr)
    {slot : SlotPosition}
    (different : (calls.manager.wp slot).objectstart ≠ addr) :
    next.manager.wp slot = calls.manager.wp slot := by
  rcases step_cases stepped with
    same | ⟨other, _, _, _, _, rfl, position, -⟩ |
    ⟨other, disabling, found, rfl, position, result⟩ | ⟨tid, rfl, -⟩ |
    ⟨exiting, rfl, -⟩
  · rw [same]
  · obtain rfl : other = caller := Option.some.inj steps
    rw [position] at inCall
    exact absurd inCall (by simp [CallState.addr])
  · obtain rfl : other = caller := Option.some.inj steps
    rw [position] at inCall
    obtain rfl : disabling = addr := Option.some.inj inCall
    rw [result]
    exact Manager.disableSection_wp_of_ne environment found different
  · exact absurd steps (by simp [CallLabel.caller])
  · exact absurd steps (by simp [CallLabel.caller])

/-- A locked section of `setWatchpoint` on an occupied slot leaves the occupant
in place or preempts it. -/
theorem lockSet_occupies_or_preempts
    (succeed : environment.AllSucceed)
    {calls : Calls}
    {caller left : Nat}
    {watchedRatio : Word → Int}
    {request earlier : Request}
    {sidx slot : SlotPosition}
    (position : calls.callers caller = .locking request left sidx)
    (occupies : Occupies earlier (calls.manager.wp slot)) :
    Occupies earlier ((Manager.setSection environment watchedRatio request
        sidx calls.manager).2.wp slot) ∨
      Preempts environment calls (.lockSet caller watchedRatio) request slot
        earlier := by
  by_cases same : slot = sidx
  · subst same
    cases valid : (Manager.isValid environment watchedRatio request
        (calls.manager.wp slot) calls.manager.kernel).1 with
    | false =>
        rw [Manager.setSection_of_invalid valid]
        exact Or.inl occupies
    | true =>
        have returned : (Manager.setSection environment watchedRatio request
            slot calls.manager).1 = true := by
          rw [Manager.setSection_of_valid valid]
          exact Manager.writeSlot_of_succeed succeed request slot _
        obtain ⟨ispreempt, tested⟩ :=
          Manager.isValid_of_used occupies.isUsed valid
        exact Or.inr ⟨caller, watchedRatio, left, rfl, position, returned,
          ispreempt, occupies, tested⟩
  · rw [Manager.setSection_wp_of_ne watchedRatio request same]
    exact Or.inl occupies

/-- The watchpoint of a request leaves its slot only through a release or a
takeover. -/
theorem step_occupies
    (succeed : environment.AllSucceed)
    {calls next : Calls}
    {label : CallLabel}
    {earlier : Request}
    {slot : SlotPosition}
    (occupies : Occupies earlier (calls.manager.wp slot))
    (stepped : step environment calls label = some next) :
    Occupies earlier (next.manager.wp slot) ∨
      (Releases environment calls label slot ∨
        ∃ request, Preempts environment calls label request slot earlier) := by
  rcases step_cases stepped with
    same | ⟨caller, watchedRatio, request, left, sidx, rfl, position,
      result⟩ | ⟨caller, addr, found, rfl, position, result⟩ |
    ⟨tid, rfl, created⟩ | ⟨exiting, rfl, exited⟩
  · rw [same]
    exact Or.inl occupies
  · rw [result]
    rcases lockSet_occupies_or_preempts succeed position occupies with
      kept | preempts
    · exact Or.inl kept
    · exact Or.inr (Or.inr ⟨request, preempts⟩)
  · rw [result]
    rcases Manager.disableSection_occupies environment addr found occupies
      with kept | ⟨rfl, unused⟩
    · exact Or.inl kept
    · exact Or.inr (Or.inl ⟨caller, addr, rfl, position, occupies.isUsed,
        unused⟩)
  · obtain ⟨tindex, table, -, result⟩ := Manager.threadCreate_eq_some created
    obtain ⟨record, wp_eq, -⟩ := Manager.setWatchpointByThreadLoop_wp
      environment ((table.setThread tindex tid).threads tindex)
      slotPositions calls.manager.wp calls.manager.kernel slot
    rw [result]
    dsimp only
    rw [wp_eq]
    exact Or.inl ⟨occupies.isUsed, occupies.addr, occupies.objectstart,
      occupies.objectsize, occupies.callstack⟩
  · obtain ⟨-, result⟩ := Manager.step_threadExit_eq_some exited
    rw [result]
    exact Or.inl occupies

/-- A step that returns true for an occupied slot preempts the occupant. -/
theorem ReturnsTrue.preempts
    {calls : Calls}
    {label : CallLabel}
    {later earlier : Request}
    {slot : SlotPosition}
    (returns : ReturnsTrue environment calls label later slot)
    (occupies : Occupies earlier (calls.manager.wp slot)) :
    Preempts environment calls label later slot earlier := by
  obtain ⟨caller, watchedRatio, left, rfl, position, returned⟩ := returns
  cases valid : (Manager.isValid environment watchedRatio later
      (calls.manager.wp slot) calls.manager.kernel).1 with
  | false =>
      rw [Manager.setSection_of_invalid valid] at returned
      exact absurd returned (by simp)
  | true =>
      obtain ⟨ispreempt, tested⟩ :=
        Manager.isValid_of_used occupies.isUsed valid
      exact ⟨caller, watchedRatio, left, rfl, position, returned, ispreempt,
        occupies, tested⟩

/-- A step that returns true for a slot puts its request there. -/
theorem ReturnsTrue.occupies
    {calls next : Calls}
    {label : CallLabel}
    {request : Request}
    {slot : SlotPosition}
    (returns : ReturnsTrue environment calls label request slot)
    (stepped : step environment calls label = some next) :
    Occupies request (next.manager.wp slot) := by
  obtain ⟨caller, watchedRatio, left, rfl, position, returned⟩ := returns
  simp only [step, position, Option.some.injEq] at stepped
  subst stepped
  exact Manager.setSection_occupies returned

/-- Between two calls that return true for one slot, the earlier one's
watchpoint is released or preempted. -/
theorem sometime_vacated
    (succeed : environment.AllSucceed)
    {calls next final : Calls}
    {first last : CallLabel}
    {middle : List CallLabel}
    {earlier later : Request}
    {slot : SlotPosition}
    (firstReturns : ReturnsTrue environment calls first earlier slot)
    (stepped : step environment calls first = some next)
    (executed : run environment next middle = some final)
    (lastReturns : ReturnsTrue environment final last later slot) :
    Machine.Sometime (step environment)
      (fun state label => Releases environment state label slot ∨
        ∃ request, Preempts environment state label request slot earlier)
      next (middle ++ [last]) :=
  Machine.sometime_of_ended
    (fun _ _ _ occupies stepped => step_occupies succeed occupies stepped)
    (firstReturns.occupies stepped) executed
    (fun occupies => Or.inr ⟨later, lastReturns.preempts occupies⟩)

/-- Whatever the unlocked reads return: a call without preemption never
overwrites a used slot; between two calls that return true for one slot the
earlier one's watchpoint is released or preempted under the test; and
`disableWatchpointByAddr` never touches a slot of another object. -/
theorem slots_excluded
    {environment : Environment}
    (succeed : environment.AllSucceed)
    (calls next : Calls)
    (label : CallLabel)
    (stepped : step environment calls label = some next) :
    (∀ caller request slot,
      label.caller = some caller →
      (calls.callers caller).request = some request →
      request.ispreempt = false →
      (calls.manager.wp slot).isUsed = true →
      next.manager.wp slot = calls.manager.wp slot) ∧
    (∀ middle final last earlier later slot,
      ReturnsTrue environment calls label earlier slot →
      run environment next middle = some final →
      ReturnsTrue environment final last later slot →
      Machine.Sometime (step environment)
        (fun state between => Releases environment state between slot ∨
          ∃ request,
            Preempts environment state between request slot earlier)
        next (middle ++ [last])) ∧
    ∀ caller addr slot,
      label.caller = some caller →
      (calls.callers caller).addr = some addr →
      (calls.manager.wp slot).objectstart ≠ addr →
      next.manager.wp slot = calls.manager.wp slot := by
  refine ⟨?_, ?_, ?_⟩
  · intro caller request slot steps inCall gentle used
    exact step_wp_of_gentle stepped steps inCall gentle used
  · intro middle final last earlier later slot first executed second
    exact sometime_vacated succeed first stepped executed second
  · intro caller addr slot steps inCall different
    exact step_wp_of_disabling stepped steps inCall different

/-- Coverage holds in every interleaving. -/
theorem coverage_of_interleaving
    {environment : Environment}
    (succeed : environment.AllSucceed)
    (above : environment.AboveStandard)
    (files : DescriptorTable File)
    (tid : Nat)
    {labels : List CallLabel}
    {final : Calls}
    (executed : run environment (start files tid) labels = some final) :
    final.manager.Covered := by
  obtain ⟨actions, manager_run⟩ := run_manager executed
  exact (Manager.coverageInvariant_of_run succeed above files tid
    manager_run).covered

/-- The ratios of three call sites, each able to preempt the one before. -/
def risingRatio : Word → Int := fun callstack =>
  if callstack = 3 then maxWatchRatioUpperbound
  else if callstack = 2 then initWatchRatio
  else 1000

/-- One call installs its watchpoint, a second one is about to take the slot
over. -/
def firstCalls : List CallLabel :=
  [.beginSet 1 (Manager.sampleRequest 0x1000 1 false) 0, .testUsed 1 false]

/-- The second call takes the slot over, and a third one is about to. -/
def laterCalls : List CallLabel :=
  [.beginSet 2 (Manager.sampleRequest 0x2000 2 true) 0, .testUsed 2 true,
    .lockSet 2 risingRatio,
    .beginSet 3 (Manager.sampleRequest 0x3000 3 true) 0, .testUsed 3 true]

/-- The state after a list of steps from the start. -/
def reached (labels : List CallLabel) : Calls :=
  (run Manager.steadyEnvironment (start Manager.standardFiles 1)
    labels).getD (start Manager.standardFiles 1)

/-- In a run of three calls the first one's watchpoint is released or preempted
after it has returned and by the time the third returns. -/
theorem slots_excluded_takeovers :
    Machine.Sometime (step Manager.steadyEnvironment)
      (fun state between =>
        Releases Manager.steadyEnvironment state between 0 ∨
          ∃ request, Preempts Manager.steadyEnvironment state between
            request 0 (Manager.sampleRequest 0x1000 1 false))
      (reached (firstCalls ++ [.lockSet 1 risingRatio]))
      (laterCalls ++ [.lockSet 3 risingRatio]) := by
  have succeed : Manager.steadyEnvironment.AllSucceed := fun _ => rfl
  have excluded := slots_excluded succeed (reached firstCalls)
    (reached (firstCalls ++ [.lockSet 1 risingRatio]))
    (.lockSet 1 risingRatio) rfl
  apply excluded.2.1 laterCalls
    (reached (firstCalls ++ .lockSet 1 risingRatio :: laterCalls))
    (.lockSet 3 risingRatio) (Manager.sampleRequest 0x1000 1 false)
    (Manager.sampleRequest 0x3000 3 true) 0
  · exact ⟨1, risingRatio, 4, rfl, rfl, by decide +kernel⟩
  · rfl
  · exact ⟨3, risingRatio, 4, rfl, rfl, by decide +kernel⟩

/-- The third call returns true for the slot of the first, nothing has been
released in between, and it is not the first one's watchpoint that the third
call preempts. -/
theorem third_call_preempts_second :
    ∃ first second final,
      run Manager.steadyEnvironment (start Manager.standardFiles 1)
          firstCalls = some first ∧
        ReturnsTrue Manager.steadyEnvironment first (.lockSet 1 risingRatio)
          (Manager.sampleRequest 0x1000 1 false) 0 ∧
        step Manager.steadyEnvironment first (.lockSet 1 risingRatio) =
          some second ∧
        run Manager.steadyEnvironment second laterCalls = some final ∧
        ReturnsTrue Manager.steadyEnvironment final (.lockSet 3 risingRatio)
          (Manager.sampleRequest 0x3000 3 true) 0 ∧
        ¬Machine.Sometime (step Manager.steadyEnvironment)
          (fun state between =>
            Releases Manager.steadyEnvironment state between 0)
          second laterCalls ∧
        ¬Preempts Manager.steadyEnvironment final (.lockSet 3 risingRatio)
          (Manager.sampleRequest 0x3000 3 true) 0
          (Manager.sampleRequest 0x1000 1 false) := by
  refine ⟨reached firstCalls,
    reached (firstCalls ++ [.lockSet 1 risingRatio]),
    reached (firstCalls ++ .lockSet 1 risingRatio :: laterCalls),
    rfl, ?_, rfl, rfl, ?_, ?_, ?_⟩
  · exact ⟨1, risingRatio, 4, rfl, rfl, by decide +kernel⟩
  · exact ⟨3, risingRatio, 4, rfl, rfl, by decide +kernel⟩
  · simp [laterCalls, Machine.Sometime, Releases]
  · rintro ⟨_, _, _, -, -, -, -, occupies, -⟩
    exact absurd occupies.objectstart (by decide +kernel)

end Calls

end Causer
