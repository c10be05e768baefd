import Causer.SlotChoice
import Causer.StartWatch

/-!
# What one call of startWatch leaves

A call makes at most two attempts at a slot, the second only when the first one
was refused, and then updates its call site once.  When calls succeed, an
attempt writes one slot or none, and the update records which.
-/

namespace Causer

namespace Manager

/-- A slot that does not let the request in is not tried, or its section only reads the
clock. -/
theorem setWatchpointLoop_passes
    {environment : Environment}
    (succeed : environment.AllSucceed)
    {watchedRatio : Word → Int} {request : Request}
    {sidx : SlotPosition} {manager : Manager}
    (refused : ¬Admits environment watchedRatio request (manager.wp sidx)
      (environment.clock manager.kernel.calls))
    (left : Nat) :
    ∃ kernel,
      setWatchpointLoop environment watchedRatio request (left + 1) sidx
          manager =
        setWatchpointLoop environment watchedRatio request left (sidx + 1)
          { manager with kernel := kernel } ∧
      setWatchpointLoopWrites environment watchedRatio request (left + 1) sidx
          manager =
        setWatchpointLoopWrites environment watchedRatio request left
          (sidx + 1) { manager with kernel := kernel } := by
  have invalid : (isValid environment watchedRatio request
      (manager.wp sidx) manager.kernel).1 = false := by
    rw [← Bool.not_eq_true, isValid_iff succeed]
    exact refused
  cases tested : !(manager.wp sidx).isUsed || request.ispreempt with
  | false =>
      refine ⟨manager.kernel, ?_, ?_⟩
      · simp [setWatchpointLoop, tested]
      · simp [setWatchpointLoopWrites, tested]
  | true =>
      refine ⟨(isValid environment watchedRatio request
        (manager.wp sidx) manager.kernel).2, ?_, ?_⟩
      · rw [setWatchpointLoop, if_pos tested, setSection_of_invalid invalid]
        rfl
      · rw [setWatchpointLoopWrites, if_pos tested,
          setSection_of_invalid invalid, invalid]
        rfl

/-- When calls succeed, `setWatchpoint` writes one slot and returns true, or
writes none, leaves the slots and returns false. -/
theorem setWatchpointLoop_writes
    {environment : Environment}
    (succeed : environment.AllSucceed)
    (watchedRatio : Word → Int) (request : Request)
    (left : Nat) (sidx : SlotPosition) (manager : Manager) :
    (∃ slot,
      setWatchpointLoopWrites environment watchedRatio request left sidx
          manager = [slot] ∧
        (setWatchpointLoop environment watchedRatio request left sidx
          manager).1 = true ∧
        Written environment request manager
          (setWatchpointLoop environment watchedRatio request left sidx
            manager).2 slot) ∨
    setWatchpointLoopWrites environment watchedRatio request left sidx
        manager = [] ∧
      (setWatchpointLoop environment watchedRatio request left sidx
        manager).1 = false ∧
      (setWatchpointLoop environment watchedRatio request left sidx
        manager).2.wp = manager.wp := by
  induction left generalizing sidx manager with
  | zero => exact Or.inr ⟨rfl, rfl, rfl⟩
  | succ left inductionHypothesis =>
      by_cases admits : Admits environment watchedRatio request (manager.wp sidx)
        (environment.clock manager.kernel.calls)
      · left
        obtain ⟨returned, written⟩ :=
          setWatchpointLoop_of_admits succeed admits left
        have valid := (isValid_iff succeed _ _).mpr admits
        have sectionReturned := (setSection_of_admits succeed admits).1
        refine ⟨sidx, ?_, returned, written⟩
        rw [setWatchpointLoopWrites, if_pos (tested_of_admits admits)]
        dsimp only
        rw [if_pos sectionReturned, if_pos valid]
      · obtain ⟨kernel, loop, writes⟩ :=
          setWatchpointLoop_passes succeed admits left
        rw [loop, writes]
        rcases inductionHypothesis (sidx + 1)
          { manager with kernel := kernel } with
          ⟨slot, wrote, returned, written⟩ | refused
        · exact Or.inl ⟨slot, wrote, returned, written.isUsed, written.addr,
            written.objectstart, written.objectsize, written.callstack,
            written.installtime, written.others, written.curIndex⟩
        · exact Or.inr refused

end Manager

/-- A slot has been rewritten to watch the end of an object, and no other slot
has changed. -/
structure Rewritten (ptr sz callstack : Word)
    (before after : SlotPosition → WatchpointObject) (slot : SlotPosition) :
    Prop where
  isUsed : (after slot).isUsed = true
  addr : (after slot).addr = ptr + sz
  objectstart : (after slot).objectstart = ptr
  objectsize : (after slot).objectsize = sz
  callstack : (after slot).callstack = callstack
  others : ∀ other ≠ slot, after other = before other

/-- No counter of a call site is at the limit of an `int`. -/
structure CountersBelowLimit (callstack : TimedCallstack) : Prop where
  calledCounter : -2 ^ 31 ≤ callstack.calledCounter ∧
    callstack.calledCounter < 2 ^ 31 - 1
  watchedCounter : -2 ^ 31 ≤ callstack.watchedCounter ∧
    callstack.watchedCounter < 2 ^ 31 - 1

/-- What `startWatch` should make of a ratio. -/
def expectedRatio (result : Bool) (watchedRatio : Int) : Int :=
  if watchedRatio = maxWatchRatioUpperbound then maxWatchRatioUpperbound
  else if result then max 1 (watchedRatio / 2)
  else max 1 (watchedRatio - 1)

namespace WatchState

/-- The result of a call says what has happened to the slots, and the update of
the call site agrees with it.  No other call site changes. -/
structure Accounted (call : WatchCall) (placement : EntryPlacement)
    (before after : WatchState) (site : EntryAddress)
    (found : TimedCallstack) (result : Bool) : Prop where
  granted : result = true ↔ ∃ slot,
    after.written = before.written ++ [slot] ∧
      Rewritten call.ptr call.sz (placement.address site) before.manager.wp
        after.manager.wp slot
  refused : result = false ↔
    after.written = before.written ∧ after.manager.wp = before.manager.wp
  callsite : (after.csMap.entries site).key.val.stack 0 = call.callsite
  offset : (after.csMap.entries site).key.val.offset = call.offset
  calledCounter :
    (after.value site).calledCounter = found.calledCounter + 1
  watchedCounter :
    (after.value site).watchedCounter =
      found.watchedCounter + if result then 1 else 0
  watchedRatio :
    (after.value site).watchedRatio = expectedRatio result found.watchedRatio
  others : ∀ other ≠ site,
    after.csMap.entries other = before.csMap.entries other

variable {environment : Environment} {placement : EntryPlacement}
  {call : WatchCall} {foundcs : EntryAddress} {state : WatchState}

/-- What an attempt has done to the slots, by its result. -/
inductive Attempted (placement : EntryPlacement) (call : WatchCall)
    (foundcs : EntryAddress) (before after : WatchState) : Bool → Prop
  | granted (slot : SlotPosition)
      (written : after.written = before.written ++ [slot])
      (rewritten : Rewritten call.ptr call.sz (placement.address foundcs)
        before.manager.wp after.manager.wp slot) :
      Attempted placement call foundcs before after true
  | refused
      (written : after.written = before.written)
      (wp : after.manager.wp = before.manager.wp) :
      Attempted placement call foundcs before after false

variable (environment placement call foundcs) in
/-- The one or two attempts of a call. -/
def attempts (state : WatchState) : Bool × WatchState :=
  if (state.value foundcs).BelowThreshold then
    let (ret, state) := attemptFree environment placement call foundcs state
    if ret then (true, state)
    else
      attemptSampled environment placement call foundcs
        (call.random maxWatchRatioUpperbound) state
  else
    attemptSampled environment placement call foundcs
      (call.random maxWatchRatioSecondUpperbound) state

/-- The update comes last, once, and knows the result. -/
theorem watchSite_eq :
    watchSite environment placement call foundcs state =
      ((attempts environment placement call foundcs state).1,
        updateWatchedInfo environment call foundcs
          (attempts environment placement call foundcs state).1
          (attempts environment placement call foundcs state).2) := by
  rw [watchSite, attempts]
  by_cases below : (state.value foundcs).BelowThreshold
  · rw [if_pos below, if_pos below]
    rcases attemptFree environment placement call foundcs state with
      ⟨_ | _, between⟩
    · dsimp only
      rcases attemptSampled environment placement call foundcs
        (call.random maxWatchRatioUpperbound) between with ⟨_ | _, after⟩
      · rfl
      · rfl
    · rfl
  · rw [if_neg below, if_neg below]
    dsimp only
    rcases attemptSampled environment placement call foundcs
      (call.random maxWatchRatioSecondUpperbound) state with ⟨_ | _, after⟩
    · rfl
    · rfl

/-- A call that has found or added its entry. -/
theorem startWatch_of_found
    {begun : WatchState}
    (found : findOrAdd call state = some (foundcs, begun)) :
    startWatch environment placement call state =
      some (foundcs,
        (attempts environment placement call foundcs
          (setCallstack placement call foundcs begun)).1,
        updateWatchedInfo environment call foundcs
          (attempts environment placement call foundcs
            (setCallstack placement call foundcs begun)).1
          (attempts environment placement call foundcs
            (setCallstack placement call foundcs begun)).2) := by
  rw [startWatch, found, Option.map_some]
  exact congrArg (fun outcome => some (foundcs, outcome)) watchSite_eq

/-- Attempts leave the map of call sites. -/
theorem attemptFree_csMap :
    (attemptFree environment placement call foundcs state).2.csMap =
      state.csMap := by
  rw [attemptFree]
  split
  · rfl
  · rfl

theorem attemptSampled_csMap (rnd : Int) :
    (attemptSampled environment placement call foundcs rnd state).2.csMap =
      state.csMap := by
  rw [attemptSampled]
  split
  · rfl
  · rfl

theorem attempts_csMap :
    (attempts environment placement call foundcs state).2.csMap =
      state.csMap := by
  rw [attempts]
  have first : (attemptFree environment placement call foundcs
      state).2.csMap = state.csMap := attemptFree_csMap
  split
  · rcases free : attemptFree environment placement call foundcs state with
      ⟨_ | _, between⟩
    · rw [free] at first
      exact (attemptSampled_csMap _).trans first
    · rw [free] at first
      exact first
  · exact attemptSampled_csMap _

/-- An attempt at a slot, when calls succeed. -/
theorem attempted_setWatchpoint
    (succeed : environment.AllSucceed)
    (ispreempt : Bool) (state : WatchState) :
    Attempted placement call foundcs state
      (setWatchpoint environment placement
        (request placement call foundcs ispreempt) state).2
      (setWatchpoint environment placement
        (request placement call foundcs ispreempt) state).1 := by
  rcases Manager.setWatchpointLoop_writes succeed
    (state.watchedRatio placement) (request placement call foundcs ispreempt)
    maxWatchpoints state.manager.curIndex state.manager with
    ⟨slot, writes, returned, written⟩ | ⟨writes, returned, wp⟩
  · have result : (setWatchpoint environment placement
        (request placement call foundcs ispreempt) state).1 = true := returned
    rw [result]
    refine .granted slot ?_ ⟨written.isUsed, written.addr,
      written.objectstart, written.objectsize, written.callstack,
      written.others⟩
    exact congrArg (state.written ++ ·) writes
  · have result : (setWatchpoint environment placement
        (request placement call foundcs ispreempt) state).1 = false := returned
    rw [result]
    refine .refused ?_ wp
    exact (congrArg (state.written ++ ·) writes).trans (List.append_nil _)

/-- An attempt that is not made is refused. -/
theorem Attempted.not_made : Attempted placement call foundcs state state false :=
  .refused rfl rfl

/-- A refused attempt before another one is as if it had not been made. -/
theorem Attempted.after_refused
    {between after : WatchState} {result : Bool}
    (later : Attempted placement call foundcs between after result)
    (written : between.written = state.written)
    (wp : between.manager.wp = state.manager.wp) :
    Attempted placement call foundcs state after result := by
  cases later with
  | granted slot laterWritten rewritten =>
      refine .granted slot (written ▸ laterWritten)
        { rewritten with others := fun other different => ?_ }
      rw [rewritten.others other different, wp]
  | refused laterWritten laterWp =>
      exact .refused (laterWritten.trans written) (laterWp.trans wp)

theorem attempted_attemptFree
    (succeed : environment.AllSucceed)
    (state : WatchState) :
    Attempted placement call foundcs state
      (attemptFree environment placement call foundcs state).2
      (attemptFree environment placement call foundcs state).1 := by
  rw [attemptFree]
  split
  · exact attempted_setWatchpoint succeed false state
  · exact .not_made

theorem attempted_attemptSampled
    (succeed : environment.AllSucceed)
    (rnd : Int) (state : WatchState) :
    Attempted placement call foundcs state
      (attemptSampled environment placement call foundcs rnd state).2
      (attemptSampled environment placement call foundcs rnd state).1 := by
  rw [attemptSampled]
  split
  · exact attempted_setWatchpoint succeed true state
  · exact .not_made

/-- The attempts of a call write one slot or none. -/
theorem attempted_attempts
    (succeed : environment.AllSucceed)
    (state : WatchState) :
    Attempted placement call foundcs state
      (attempts environment placement call foundcs state).2
      (attempts environment placement call foundcs state).1 := by
  rw [attempts]
  split
  · have first : Attempted placement call foundcs state _ _ :=
      attempted_attemptFree succeed state
    rcases free : attemptFree environment placement call foundcs state with
      ⟨_ | _, between⟩
    · rw [free] at first
      cases first with
      | refused written wp =>
          exact (attempted_attemptSampled succeed _ between).after_refused
            written wp
    · rw [free] at first
      exact first
  · exact attempted_attemptSampled succeed _ state

/-- The result tells the two outcomes apart. -/
theorem Attempted.iff
    {after : WatchState} {result : Bool}
    (attempted : Attempted placement call foundcs state after result) :
    (result = true ↔ ∃ slot, after.written = state.written ++ [slot] ∧
      Rewritten call.ptr call.sz (placement.address foundcs) state.manager.wp
        after.manager.wp slot) ∧
    (result = false ↔
      after.written = state.written ∧
        after.manager.wp = state.manager.wp) := by
  cases attempted with
  | granted slot written rewritten =>
      refine ⟨iff_of_true rfl ⟨slot, written, rewritten⟩,
        iff_of_false nofun ?_⟩
      rintro ⟨same, -⟩
      simp [same] at written
  | refused written wp =>
      refine ⟨iff_of_false Bool.false_ne_true ?_,
        iff_of_true rfl ⟨written, wp⟩⟩
      rintro ⟨slot, wrote, -⟩
      simp [written] at wrote

/-- Recording the call site in the guard leaves the map. -/
@[simp] theorem setCallstack_csMap (state : WatchState) :
    (setCallstack placement call foundcs state).csMap = state.csMap := by
  cases state with
  | mk csMap manager memory written => exact Eq.refl csMap

/-- The entry of the call site is updated. -/
@[simp] theorem value_updateWatchedInfo (watched : Bool) (state : WatchState) :
    (updateWatchedInfo environment call foundcs watched state).value foundcs =
      (state.value foundcs).updateWatchedInfo watched call.depth call.frames
        (getCurrentTime environment state.manager.kernel).1 := by
  simp [updateWatchedInfo, value]

/-- Keys stay, and so do other entries. -/
@[simp] theorem key_updateWatchedInfo
    (watched : Bool) (state : WatchState) (site : EntryAddress) :
    ((updateWatchedInfo environment call foundcs watched
      state).csMap.entries site).key = (state.csMap.entries site).key :=
  HashMap.key_assign ..

theorem entries_updateWatchedInfo
    (watched : Bool) (state : WatchState) {site : EntryAddress}
    (different : site ≠ foundcs) :
    (updateWatchedInfo environment call foundcs watched
      state).csMap.entries site = state.csMap.entries site :=
  HashMap.entries_assign_of_ne different ..

end WatchState

/-- An increment below the limit does not wrap. -/
theorem intIncrement_of_lt
    {counter : Int}
    (low : -2 ^ 31 ≤ counter)
    (high : counter < 2 ^ 31 - 1) :
    intIncrement counter = counter + 1 := by
  rw [intIncrement, Int.bmod_def]
  omega

/-- What the update makes of a ratio. -/
theorem updateWatchedInfo_eq_expectedRatio (watched : Bool) (ratio : Int) :
    updateWatchedInfo watched ratio = expectedRatio watched ratio := by
  have halved : max 1 (Int.tdiv (ratio * 5) 10) = max 1 (ratio / 2) := by
    rcases Int.le_total 0 ratio with nonneg | negative
    · rw [Int.tdiv_eq_ediv_of_nonneg (by omega)]
      omega
    · have low : Int.tdiv (ratio * 5) 10 ≤ Int.tdiv 0 10 :=
        Int.tdiv_le_tdiv (by decide) (by omega)
      change Int.tdiv (ratio * 5) 10 ≤ 0 at low
      omega
  simp only [updateWatchedInfo, expectedRatio, maxWatchRatioUpperbound,
    watchedReduction, calledReduction, reductionToMin]
  split_ifs <;> omega

namespace TimedCallstack

variable {callstack : TimedCallstack} {watched : Bool} {depth : Int}
  {frames : Frames} {now : Word}

/-- The period does not enter the other fields. -/
@[simp] theorem toCallstack_updateWatchedInfo :
    (callstack.updateWatchedInfo watched depth frames now).toCallstack =
      callstack.toCallstack.updateWatchedInfo watched depth frames := by
  rw [updateWatchedInfo]
  dsimp only
  split
  · rfl
  · rfl

end TimedCallstack

/-- What the update makes of the counters and of the ratio. -/
theorem Callstack.updateWatchedInfo_fields
    (watched : Bool) (depth : Int) (frames : Frames) (callstack : Callstack) :
    (callstack.updateWatchedInfo watched depth frames).calledCounter =
        intIncrement callstack.calledCounter ∧
      (callstack.updateWatchedInfo watched depth frames).watchedCounter =
        (if watched then intIncrement callstack.watchedCounter
          else callstack.watchedCounter) ∧
      (callstack.updateWatchedInfo watched depth frames).watchedRatio =
        Causer.updateWatchedInfo watched callstack.watchedRatio := by
  rw [Callstack.updateWatchedInfo]
  dsimp only
  split
  · exact ⟨rfl, rfl, rfl⟩
  · exact ⟨rfl, rfl, rfl⟩

namespace WatchState

variable {environment : Environment} {call : WatchCall}
  {foundcs : EntryAddress} {state : WatchState}

open HashMap in
/-- An entry that has been located has no counter at the limit if none of the
map has. -/
theorem countersBelowLimit_of_located
    {map : TimedMap}
    {key : SizedKey HashedCallstack} {newval found : TimedCallstack}
    {site : EntryAddress}
    (below : ∀ other, CountersBelowLimit (map.entries other).value)
    (located : Located timedFunctions map key newval site found) :
    CountersBelowLimit found := by
  cases located with
  | found => exact below site
  | added =>
      have zero : (-2 ^ 31 : Int) ≤ 0 ∧ (0 : Int) < 2 ^ 31 - 1 := by decide
      exact ⟨zero, zero⟩

/-- The keys that are the same as that of a call. -/
theorem same_key_iff (key : HashedCallstack) (keylen : Nat) :
    timedFunctions.keycmp key call.key.1 keylen = true ↔
      key.val.stack 0 = call.callsite ∧ key.val.offset = call.offset := by
  have first : call.stored.hashed.val.stack 0 = call.callsite := by
    rw [Callstack.hashed_stack]
    exact Function.update_self 0 call.callsite call.curstack.stack
  have offset : call.stored.hashed.val.offset = call.offset :=
    Callstack.hashed_offset _
  simp only [timedFunctions, callstackFunctions, Callstack.same,
    Bool.and_eq_true, beq_iff_eq, WatchCall.key, first, offset]

variable (environment call) in
/-- What the update of a call site accounts for. -/
theorem updateWatchedInfo_accounts
    (result : Bool)
    {found : TimedCallstack}
    (holds : state.value foundcs = found)
    (below : CountersBelowLimit found) :
    ((updateWatchedInfo environment call foundcs result state).value
        foundcs).calledCounter = found.calledCounter + 1 ∧
      ((updateWatchedInfo environment call foundcs result state).value
          foundcs).watchedCounter =
        found.watchedCounter + (if result then 1 else 0) ∧
      ((updateWatchedInfo environment call foundcs result state).value
          foundcs).watchedRatio =
        expectedRatio result found.watchedRatio := by
  obtain ⟨called, watched, ratio⟩ :=
    found.toCallstack.updateWatchedInfo_fields result call.depth call.frames
  rw [value_updateWatchedInfo, holds,
    TimedCallstack.toCallstack_updateWatchedInfo, called, watched, ratio,
    intIncrement_of_lt below.calledCounter.1 below.calledCounter.2,
    intIncrement_of_lt below.watchedCounter.1 below.watchedCounter.2,
    updateWatchedInfo_eq_expectedRatio]
  cases result with
  | true => exact ⟨rfl, rfl, rfl⟩
  | false => exact ⟨rfl, (Int.add_zero _).symm, rfl⟩

/-- When calls succeed, `startWatch` returns true exactly when it has rewritten
one slot for the object and false exactly when it has written none, and it
accounts for that once, in the entry of its call site and in no other one. -/
theorem startWatch_accounted
    {bindings : List (HashMap.MapBinding HashedCallstack TimedCallstack)}
    (succeed : environment.AllSucceed)
    (laid : HashMap.Laid timedFunctions state.csMap bindings)
    (below : ∀ site, CountersBelowLimit (state.value site))
    (placement : EntryPlacement) (call : WatchCall) :
    ∃ site found result final,
      startWatch environment placement call state =
          some (site, result, final) ∧
        HashMap.Located timedFunctions state.csMap call.key call.newval site
          found ∧
        Accounted call placement state final site found result := by
  obtain ⟨site, found, csMap, located, isFound, holds, matched, others⟩ :=
    laid.findOrAdd_located lawful_timedFunctions call.key call.newval
  let begun := setCallstack placement call site { state with csMap := csMap }
  have attempted : Attempted placement call site begun _ _ :=
    attempted_attempts succeed begun
  have kept : (attempts environment placement call site begun).2.csMap =
      csMap := attempts_csMap
  have begunSlots : begun.written = state.written ∧
      begun.manager.wp = state.manager.wp := ⟨rfl, rfl⟩
  obtain ⟨granted, refused⟩ :=
    (attempted.after_refused begunSlots.1 begunSlots.2).iff
  have attemptedValue :
      (attempts environment placement call site begun).2.value site =
        found := by
    rw [value, kept, holds]
  obtain ⟨callsite, offset⟩ := (same_key_iff _ _).mp matched
  obtain ⟨called, watched, ratio⟩ :=
    updateWatchedInfo_accounts environment call
      (attempts environment placement call site begun).1 attemptedValue
      (countersBelowLimit_of_located below isFound)
  refine ⟨site, found, _, updateWatchedInfo environment call site _ _, ?_,
    isFound, ⟨granted, refused, ?_, ?_, called, watched, ratio, ?_⟩⟩
  · apply startWatch_of_found
    rw [findOrAdd, located, Option.map_some]
  · rw [key_updateWatchedInfo, kept]
    exact callsite
  · rw [key_updateWatchedInfo, kept]
    exact offset
  · intro other different
    rw [entries_updateWatchedInfo _ _ different, kept]
    exact others other different

/-- Four other objects are watched. -/
def fullManager : Manager :=
  (Manager.run Manager.steadyEnvironment (.start Manager.standardFiles 1)
    (slotPositions.map fun slot =>
      .setSection (fun _ => initWatchRatio)
        (Manager.sampleRequest (0x1000 * (slot.val + 1)) 1 false) slot)).getD
    (.start Manager.standardFiles 1)

/-- An allocation whose draw is low. -/
def preemptingCall : WatchCall :=
  { sampleCall with random := fun _ => 0 }

/-- A later allocation of a call site that is known, with every slot taken. -/
theorem startWatch_accounted_known :
    (∀ slot, (fullManager.wp slot).isUsed = true) ∧
      ∃ known csMap,
        HashMap.findOrAdd timedFunctions sampleCall.key.1 sampleCall.key.2
            sampleCall.newval start.csMap = some (known, csMap) ∧
          ∃ site found result final,
            WatchState.startWatch Manager.steadyEnvironment samplePlacement
                preemptingCall
                { start with csMap := csMap, manager := fullManager } =
              some (site, result, final) ∧
            HashMap.Located timedFunctions csMap preemptingCall.key
              preemptingCall.newval site found ∧
            Accounted preemptingCall samplePlacement
              { start with csMap := csMap, manager := fullManager } final site
              found result := by
  have pooled : HashMap.Pooled timedFunctions start.csMap [] :=
    ⟨HashMap.laid_initializeMap timedFunctions blankMap (by decide)
      (by decide), rfl⟩
  have zero : (-2 ^ 31 : Int) ≤ 0 ∧ (0 : Int) < 2 ^ 31 - 1 := by decide
  have fresh : ∀ site, CountersBelowLimit (start.value site) :=
    fun _ => ⟨zero, zero⟩
  obtain ⟨known, value, csMap, added, located, holds, -, others⟩ :=
    pooled.laid.findOrAdd_located lawful_timedFunctions sampleCall.key
      sampleCall.newval
  obtain ⟨later, laterPooled, -⟩ := pooled.findOrAdd located added
  have below : ∀ site, CountersBelowLimit (csMap.entries site).value := by
    intro site
    by_cases same : site = known
    · rw [same, holds]
      exact countersBelowLimit_of_located fresh located
    · rw [others site same]
      exact fresh site
  exact ⟨by decide +kernel, known, csMap, added,
    startWatch_accounted (fun _ => rfl) laterPooled.laid below
      samplePlacement preemptingCall⟩

end WatchState

end Causer
