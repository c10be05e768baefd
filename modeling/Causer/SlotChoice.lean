import Causer.Library.CyclicOrder
import Causer.SlotExclusion

/-!
# The slot that a request takes

When calls succeed, `setWatchpoint` writes the first slot, in cyclic order from
`curIndex`, that is unused or may be preempted at the time the loop comes to it.
When there is none it changes nothing.  The rounds of the loop are followed for
any rounding; read over exact rationals, the comparison is the one of the formula.
-/

namespace Causer
namespace Manager

/-- Milliseconds since the installation of a slot's watchpoint. -/
def elapsed (object : WatchpointObject) (now : Word) : Nat :=
  (now - object.installtime).toNat

/-- A slot lets a request in: it is unused, or the request preempts it. -/
def Admits (environment : Environment) (watchedRatio : Word → Int)
    (request : Request) (object : WatchpointObject) (now : Word) : Prop :=
  object.isUsed = false ∨
    request.ispreempt = true ∧ wpInstallMinTime ≤ elapsed object now ∧
      (watchedRatio request.callstack : ℚ) >
        preemptionWeight environment.rounding (watchedRatio object.callstack)
          (elapsed object now)

/-- The same over exact rationals. -/
def Eligible (watchedRatio : Word → Int) (request : Request)
    (object : WatchpointObject) (now : Word) : Prop :=
  object.isUsed = false ∨
    request.ispreempt = true ∧ wpInstallMinTime ≤ elapsed object now ∧
      (watchedRatio request.callstack : ℚ) >
        watchedRatio object.callstack * wpPreemptWeight *
          (1 - elapsed object now / wpPreemptTimeReductionBase)

/-- The clock when a call comes to a slot.  It has been read once for each of
the slots before. -/
def clockAt (environment : Environment) (manager : Manager)
    (slot : SlotPosition) : Word :=
  environment.clock (manager.kernel.calls + (slot - manager.curIndex).val)

/-- The slot lets the request in when a call comes to it. -/
def AdmitsIn (environment : Environment) (watchedRatio : Word → Int)
    (request : Request) (manager : Manager) (slot : SlotPosition) : Prop :=
  Admits environment watchedRatio request (manager.wp slot)
    (clockAt environment manager slot)

/-- The same over exact rationals. -/
def EligibleIn (environment : Environment) (watchedRatio : Word → Int)
    (request : Request) (manager : Manager) (slot : SlotPosition) : Prop :=
  Eligible watchedRatio request (manager.wp slot)
    (clockAt environment manager slot)

/-- A request has been written into one slot and into no other one. -/
structure Written (environment : Environment) (request : Request)
    (before after : Manager) (slot : SlotPosition) : Prop where
  isUsed : (after.wp slot).isUsed = true
  addr : (after.wp slot).addr = request.addr
  objectstart : (after.wp slot).objectstart = request.objectstart
  objectsize : (after.wp slot).objectsize = request.objectsize
  callstack : (after.wp slot).callstack = request.callstack
  installtime : ∃ call, after.kernel.calls = call + 1 ∧
    (after.wp slot).installtime = environment.clock call
  others : ∀ other ≠ slot, after.wp other = before.wp other
  curIndex : after.curIndex = slot + 1

section Rounds

variable {environment : Environment} {watchedRatio : Word → Int}
  {request : Request} {manager : Manager}

/-- What a request without preemption may write does not depend on the
clock. -/
theorem admits_iff_of_gentle
    (gentle : request.ispreempt = false)
    (object : WatchpointObject) (now : Word) :
    Admits environment watchedRatio request object now ↔ object.isUsed = false := by
  simp [Admits, gentle]

/-- The locked test finds a slot valid exactly when it may be written. -/
theorem isValid_iff
    (succeed : environment.AllSucceed)
    (object : WatchpointObject) (kernel : Kernel) :
    (isValid environment watchedRatio request object kernel).1 = true ↔
      Admits environment watchedRatio request object
        (environment.clock kernel.calls) := by
  cases used : object.isUsed with
  | false => simp [isValid, Admits, used]
  | true =>
      cases gentle : request.ispreempt with
      | false => simp [isValid, Admits, used, gentle]
      | true =>
          simp [isValid, Admits, used, gentle, preemptionTest, elapsed,
            getCurrentTime, succeed _]

/-- A write puts the request into its slot. -/
theorem writeSlot_written
    (succeed : environment.AllSucceed)
    (request : Request) (slot : SlotPosition) (manager : Manager) :
    Written environment request manager
      (writeSlot environment request slot manager).2 slot := by
  have returned := writeSlot_of_succeed succeed request slot manager
  obtain ⟨vacated, vacatedKernel, ret, numWatchpoints, fd, kernel, vacates,
    installs⟩ := exists_writeSlot_loops environment request slot manager
  rw [writeSlot_eq vacates installs] at returned ⊢
  obtain rfl : ret = true := returned
  constructor
  case installtime =>
    refine ⟨kernel.calls, rfl, ?_⟩
    simp [getCurrentTime, succeed _]
  case others =>
    intro other different
    exact Function.update_of_ne different ..
  case curIndex => rfl
  all_goals simp

/-- The test before the lock lets every slot pass that may be written. -/
theorem tested_of_admits
    {sidx : SlotPosition}
    {now : Word}
    (admits : Admits environment watchedRatio request (manager.wp sidx) now) :
    (!(manager.wp sidx).isUsed || request.ispreempt) = true := by
  rcases admits with isUnused | ⟨ispreempt, -⟩
  · simp [isUnused]
  · simp [ispreempt]

/-- The section on a slot that may be written writes it. -/
theorem setSection_of_admits
    (succeed : environment.AllSucceed)
    {sidx : SlotPosition}
    (admits : Admits environment watchedRatio request (manager.wp sidx)
      (environment.clock manager.kernel.calls)) :
    (setSection environment watchedRatio request sidx manager).1 = true ∧
      Written environment request manager
        (setSection environment watchedRatio request sidx manager).2 sidx := by
  have valid := (isValid_iff succeed _ _).mpr admits
  have returned := writeSlot_of_succeed succeed request sidx
    { manager with
      kernel := (isValid environment watchedRatio request (manager.wp sidx)
        manager.kernel).2 }
  have written := writeSlot_written succeed request sidx
    { manager with
      kernel := (isValid environment watchedRatio request (manager.wp sidx)
        manager.kernel).2 }
  rw [setSection_of_valid valid]
  exact ⟨returned, written.isUsed, written.addr, written.objectstart,
    written.objectsize, written.callstack, written.installtime,
    written.others, written.curIndex⟩

/-- The round at a slot that may be written is the last one. -/
theorem setWatchpointLoop_of_admits
    (succeed : environment.AllSucceed)
    {sidx : SlotPosition}
    (admits : Admits environment watchedRatio request (manager.wp sidx)
      (environment.clock manager.kernel.calls))
    (left : Nat) :
    (setWatchpointLoop environment watchedRatio request (left + 1) sidx
        manager).1 = true ∧
      Written environment request manager
        (setWatchpointLoop environment watchedRatio request (left + 1) sidx
          manager).2 sidx := by
  obtain ⟨returned, written⟩ := setSection_of_admits succeed admits
  rw [setWatchpointLoop, if_pos (tested_of_admits admits)]
  dsimp only
  rw [if_pos returned]
  exact ⟨rfl, written⟩

/-- The round at a slot that may not be written at most reads the clock. -/
theorem setWatchpointLoop_of_refused
    (succeed : environment.AllSucceed)
    {sidx : SlotPosition}
    (refused : ¬Admits environment watchedRatio request (manager.wp sidx)
      (environment.clock manager.kernel.calls))
    (left : Nat) :
    ∃ calls,
      setWatchpointLoop environment watchedRatio request (left + 1) sidx
          manager =
        setWatchpointLoop environment watchedRatio request left (sidx + 1)
          { manager with kernel := { manager.kernel with calls := calls } } ∧
      ∀ object offset,
        Admits environment watchedRatio request object
            (environment.clock (calls + offset)) ↔
          Admits environment watchedRatio request object
            (environment.clock (manager.kernel.calls + (offset + 1))) := by
  have isUsed : (manager.wp sidx).isUsed = true := by
    rw [← Bool.not_eq_false]
    exact fun isUnused => refused (Or.inl isUnused)
  cases gentle : request.ispreempt with
  | false =>
      refine ⟨manager.kernel.calls, ?_, fun object offset => ?_⟩
      · simp [setWatchpointLoop, isUsed, gentle]
      · rw [admits_iff_of_gentle gentle, admits_iff_of_gentle gentle]
  | true =>
      refine ⟨manager.kernel.calls + 1, ?_, fun object offset => ?_⟩
      · have invalid : (isValid environment watchedRatio request
            (manager.wp sidx) manager.kernel).1 = false := by
          rw [← Bool.not_eq_true, isValid_iff succeed]
          exact refused
        have ticked : (isValid environment watchedRatio request
            (manager.wp sidx) manager.kernel).2 = manager.kernel.tick := by
          simp [isValid, isUsed, gentle]
        rw [setWatchpointLoop, if_pos (by simp [gentle]),
          setSection_of_invalid invalid, ticked]
        rfl
      · rw [Nat.add_assoc, Nat.add_comm 1 offset]

variable (watchedRatio request) in
/-- A loop either takes the first slot that it may write, or may write none of
those it comes to and changes nothing. -/
theorem setWatchpointLoop_chooses
    (succeed : environment.AllSucceed)
    (left : Nat) (sidx : SlotPosition) (manager : Manager) :
    (∃ offset < left,
      Admits environment watchedRatio request
          (manager.wp (CyclicOrder.visited sidx offset))
          (environment.clock (manager.kernel.calls + offset)) ∧
        (∀ earlier < offset, ¬Admits environment watchedRatio request
          (manager.wp (CyclicOrder.visited sidx earlier))
          (environment.clock (manager.kernel.calls + earlier))) ∧
        (setWatchpointLoop environment watchedRatio request left sidx
          manager).1 = true ∧
        Written environment request manager
          (setWatchpointLoop environment watchedRatio request left sidx
            manager).2 (CyclicOrder.visited sidx offset)) ∨
    (∀ offset < left, ¬Admits environment watchedRatio request
        (manager.wp (CyclicOrder.visited sidx offset))
        (environment.clock (manager.kernel.calls + offset))) ∧
      ∃ calls,
        setWatchpointLoop environment watchedRatio request left sidx manager =
          (false, { manager with
            kernel := { manager.kernel with calls := calls } }) := by
  induction left generalizing sidx manager with
  | zero => exact Or.inr ⟨by simp, manager.kernel.calls, rfl⟩
  | succ left inductionHypothesis =>
      by_cases admits : Admits environment watchedRatio request (manager.wp sidx)
        (environment.clock manager.kernel.calls)
      · refine Or.inl ⟨0, by omega, ?_, by simp, ?_⟩
        · simpa using admits
        · rw [CyclicOrder.visited_zero]
          exact setWatchpointLoop_of_admits succeed admits left
      · obtain ⟨calls, round, later⟩ :=
          setWatchpointLoop_of_refused succeed admits left
        -- The first visit is to `sidx`, the others are those of the rest.
        have passed : ∀ bound,
            (∀ offset < bound, ¬Admits environment watchedRatio request
              (manager.wp (CyclicOrder.visited (sidx + 1) offset))
              (environment.clock (calls + offset))) →
            ∀ offset < bound + 1, ¬Admits environment watchedRatio request
              (manager.wp (CyclicOrder.visited sidx offset))
              (environment.clock (manager.kernel.calls + offset)) := by
          intro bound missed offset small
          cases offset with
          | zero => simpa using admits
          | succ offset =>
              rw [CyclicOrder.visited_succ, ← later]
              exact missed offset (by omega)
        rw [round]
        rcases inductionHypothesis (sidx + 1)
          { manager with kernel := { manager.kernel with calls := calls } }
          with ⟨offset, small, has, before, returned, written⟩ |
            ⟨missed, changed⟩
        · refine Or.inl ⟨offset + 1, by omega, ?_, passed offset before,
            returned, ?_⟩
          · rw [CyclicOrder.visited_succ, ← later]
            exact has
          · rw [CyclicOrder.visited_succ]
            exact ⟨written.isUsed, written.addr, written.objectstart,
              written.objectsize, written.callstack, written.installtime,
              written.others, written.curIndex⟩
        · exact Or.inr ⟨passed left missed, changed⟩

end Rounds

/-- The arithmetic of the program is read over exact rationals. -/
def ReadsExactly (environment : Environment) : Prop :=
  environment.rounding = .exact doublePrecision

/-- Without rounding the weight is the one of the formula. -/
theorem admitsIn_iff_of_exact
    {environment : Environment}
    (exact : ReadsExactly environment)
    (watchedRatio : Word → Int) (request : Request) (manager : Manager)
    (slot : SlotPosition) :
    AdmitsIn environment watchedRatio request manager slot ↔
      EligibleIn environment watchedRatio request manager slot := by
  rw [ReadsExactly] at exact
  simp only [AdmitsIn, EligibleIn, Admits, Eligible, preemptionWeight, exact,
    Rounding.exact_round, Int.cast_mul]

/-- When calls succeed, a request is granted exactly when some slot lets it in.
It is written into the first such slot from `curIndex` on and into no other one;
a request that is not granted changes nothing but the number of calls. -/
theorem setWatchpoint_admits
    {environment : Environment}
    (succeed : environment.AllSucceed)
    (watchedRatio : Word → Int) (request : Request) (manager : Manager) :
    ((setWatchpoint environment watchedRatio request manager).1 = true ↔
      ∃ slot, AdmitsIn environment watchedRatio request manager slot) ∧
    ((setWatchpoint environment watchedRatio request manager).1 = true →
      ∃ slot,
        CyclicOrder.First manager.curIndex
            (AdmitsIn environment watchedRatio request manager) slot ∧
          Written environment request manager
            (setWatchpoint environment watchedRatio request manager).2 slot) ∧
    ((setWatchpoint environment watchedRatio request manager).1 = false →
      ∃ calls,
        (setWatchpoint environment watchedRatio request manager).2 =
          { manager with
            kernel := { manager.kernel with calls := calls } }) := by
  have visits : ∀ offset < maxWatchpoints,
      AdmitsIn environment watchedRatio request manager
          (CyclicOrder.visited manager.curIndex offset) ↔
        Admits environment watchedRatio request
          (manager.wp (CyclicOrder.visited manager.curIndex offset))
          (environment.clock (manager.kernel.calls + offset)) := by
    intro offset small
    rw [AdmitsIn, clockAt, CyclicOrder.val_visited_sub _ small]
  rw [setWatchpoint]
  rcases setWatchpointLoop_chooses watchedRatio request succeed maxWatchpoints
    manager.curIndex manager with
    ⟨offset, small, has, before, returned, written⟩ |
      ⟨missed, calls, unchanged⟩
  · have first : CyclicOrder.First manager.curIndex
        (AdmitsIn environment watchedRatio request manager)
        (CyclicOrder.visited manager.curIndex offset) :=
      CyclicOrder.first_visited small ((visits offset small).mpr has)
        fun earlier lower admits => before earlier lower
          ((visits earlier (lower.trans small)).mp admits)
    rw [returned]
    exact ⟨iff_of_true rfl ⟨_, first.1⟩, fun _ => ⟨_, first, written⟩, nofun⟩
  · rw [unchanged]
    refine ⟨iff_of_false Bool.false_ne_true ?_, nofun, fun _ => ⟨calls, rfl⟩⟩
    rintro ⟨slot, admits⟩
    rw [← CyclicOrder.visited_sub manager.curIndex slot] at admits
    have small := (slot - manager.curIndex).isLt
    exact missed _ small ((visits _ small).mp admits)

/-- When calls succeed and the comparison is read over exact rationals, a request
is granted exactly when some slot may be written for it.  It is written into the
first such slot from `curIndex` on and into no other one; a request that is not
granted changes nothing but the number of calls. -/
theorem setWatchpoint_chooses
    {environment : Environment}
    (succeed : environment.AllSucceed)
    (exact : ReadsExactly environment)
    (watchedRatio : Word → Int) (request : Request) (manager : Manager) :
    ((setWatchpoint environment watchedRatio request manager).1 = true ↔
      ∃ slot, EligibleIn environment watchedRatio request manager slot) ∧
    ((setWatchpoint environment watchedRatio request manager).1 = true →
      ∃ slot,
        CyclicOrder.First manager.curIndex
            (EligibleIn environment watchedRatio request manager) slot ∧
          Written environment request manager
            (setWatchpoint environment watchedRatio request manager).2 slot) ∧
    ((setWatchpoint environment watchedRatio request manager).1 = false →
      ∃ calls,
        (setWatchpoint environment watchedRatio request manager).2 =
          { manager with
            kernel := { manager.kernel with calls := calls } }) := by
  have same : AdmitsIn environment watchedRatio request manager =
      EligibleIn environment watchedRatio request manager := by
    funext slot
    exact propext
      (admitsIn_iff_of_exact exact watchedRatio request manager slot)
  rw [← same]
  exact setWatchpoint_admits succeed watchedRatio request manager

/-- A machine on which the arithmetic is exact. -/
def exactEnvironment : Environment :=
  { steadyEnvironment with rounding := .exact doublePrecision }

/-- The ratios of three call sites, of which the second is a poor one. -/
def threeRatios (callstack : Word) : Int :=
  if callstack = 2 then 1000 else if callstack = 3 then 3000 else 5000

/-- Four slots are taken, the third one by the poor call site. -/
def fullActions : List Action :=
  [.setSection threeRatios (sampleRequest 0x1000 1 false) 0,
    .setSection threeRatios (sampleRequest 0x2000 1 false) 1,
    .setSection threeRatios (sampleRequest 0x3000 2 false) 2,
    .setSection threeRatios (sampleRequest 0x4000 1 false) 3]

/-- A request that only the third slot gives way to. -/
theorem setWatchpoint_chooses_third :
    ∃ manager,
      run exactEnvironment (start standardFiles 1) fullActions =
          some manager ∧
      (∃ slot,
        CyclicOrder.First manager.curIndex
            (EligibleIn exactEnvironment threeRatios
              (sampleRequest 0x5000 3 true) manager) slot ∧
          Written exactEnvironment (sampleRequest 0x5000 3 true) manager
            (setWatchpoint exactEnvironment threeRatios
              (sampleRequest 0x5000 3 true) manager).2 slot) ∧
      ((setWatchpoint exactEnvironment threeRatios
            (sampleRequest 0x5000 3 true) manager).2.wp 2).addr = 0x5010 :=
  ⟨_, rfl,
    (setWatchpoint_chooses (fun _ => rfl)
      (show ReadsExactly exactEnvironment from rfl) _ _ _).2.1
      (by decide +kernel),
    by decide +kernel⟩

end Manager
end Causer
