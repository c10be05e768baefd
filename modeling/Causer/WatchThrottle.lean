import Causer.WatchAccounting

/-!
# When a call site is throttled

A call site that has allocated too often in its period draws from a wider range
and gets no free slot.  The number of calls is tested before the call looks
whether the period is over, so the first call after a pause is judged by the
calls before the pause.  As long as no call finds a full count in a period that
is over, a throttled call site has indeed called often enough of late.
-/

namespace Causer

/-- The state, and the calls that have been made: their call sites and their
times, in order. -/
structure WatchHistory where
  state : WatchState
  visits : List (EntryAddress × Word)

/-- Calls of `startWatch`, and what else happens. -/
inductive WatchStep
  | startWatch (call : WatchCall)
  /-- `checkPointer` sets the ratio of a call site. -/
  | mark (site : EntryAddress)
  /-- The rest of the program leaves the map of call sites alone. -/
  | others (manager : Manager) (memory : ByteMemory.Memory)

namespace WatchHistory

variable (environment : Environment) (placement : EntryPlacement)

/-- The time that the update of a call site reads. -/
def callTime (call : WatchCall) (foundcs : EntryAddress)
    (state : WatchState) : Word :=
  (getCurrentTime environment
    (WatchState.attempts environment placement call foundcs
      (WatchState.setCallstack placement call foundcs
        state)).2.manager.kernel).1

/-- The effect of one step. -/
def step (history : WatchHistory) : WatchStep → Option WatchHistory
  | .startWatch call =>
      (WatchState.findOrAdd call history.state).bind fun (foundcs, begun) =>
        (WatchState.startWatch environment placement call history.state).map
          fun (_, _, final) =>
            { state := final
              visits := history.visits ++
                [(foundcs, callTime environment placement call foundcs begun)] }
  | .mark site =>
      some { history with
        state := { history.state with
          csMap := history.state.csMap.assign site
            { history.state.value site with
              toCallstack := (history.state.value site).toCallstack.mark } } }
  | .others manager memory =>
      some { history with
        state := { history.state with manager := manager, memory := memory } }

/-- What holds of each call, of its call site, of the time and of the state in
which the site has been found. -/
def AtCalls
    (condition : WatchHistory → EntryAddress → Word → TimedCallstack → Prop)
    (history : WatchHistory) : WatchStep → Prop
  | .startWatch call =>
      ∀ foundcs begun,
        WatchState.findOrAdd call history.state = some (foundcs, begun) →
        condition history foundcs
          (callTime environment placement call foundcs begun)
          (begun.value foundcs)
  | _ => True

/-- The clock has not gone back since the earlier calls from the site and since
its period began. -/
def InOrder (history : WatchHistory) (site : EntryAddress) (time : Word)
    (found : TimedCallstack) : Prop :=
  (∀ visit ∈ history.visits, visit.1 = site → visit.2 ≤ time) ∧
    found.period ≤ time

/-- How many calls from a site lie in the last period before a time. -/
def recentCalls (history : WatchHistory) (site : EntryAddress)
    (time : Word) : Nat :=
  history.visits.countP fun visit =>
    visit.1 = site ∧ visit.2 ≤ time ∧
      time.toNat ≤ visit.2.toNat + maxWatchPeriod

/-- A throttled call site has called often enough of late. -/
def Justified (history : WatchHistory) (site : EntryAddress) (time : Word)
    (found : TimedCallstack) : Prop :=
  ¬found.BelowThreshold → maxWatchThreshold ≤ history.recentCalls site time

/-- A full count is found only in a period that is not over. -/
def PeriodCurrent (_ : WatchHistory) (_ : EntryAddress) (time : Word)
    (found : TimedCallstack) : Prop :=
  ¬found.BelowThreshold → time.toNat ≤ found.period.toNat + maxWatchPeriod

/-- No call has been made, and none has been counted. -/
structure Started (history : WatchHistory) : Prop where
  visits : history.visits = []
  pooled : ∃ bindings,
    HashMap.Pooled timedFunctions history.state.csMap bindings ∧
      ∀ site ∈ bindings.map FiniteMap.Binding.address,
        (history.state.value site).periodcalled = 0

/-- Every call that an entry counts has been made in its period. -/
structure Counted (history : WatchHistory) : Prop where
  pooled : ∃ bindings,
    HashMap.Pooled timedFunctions history.state.csMap bindings ∧
      ∀ site ∈ bindings.map FiniteMap.Binding.address,
        (history.state.value site).periodcalled.toNat ≤
          history.visits.countP fun visit =>
            visit.1 = site ∧ (history.state.value site).period ≤ visit.2

end WatchHistory

/-- An update begins a new period or counts one more call. -/
theorem TimedCallstack.updateWatchedInfo_period
    (watched : Bool) (depth : Int) (frames : Frames) (now : Word)
    (callstack : TimedCallstack) :
    (callstack.updateWatchedInfo watched depth frames now).periodcalled = 0 ∨
      (callstack.updateWatchedInfo watched depth frames now).periodcalled =
          callstack.periodcalled + 1 ∧
        (callstack.updateWatchedInfo watched depth frames now).period =
          callstack.period := by
  rw [updateWatchedInfo]
  dsimp only
  split
  · exact Or.inl rfl
  · exact Or.inr ⟨rfl, rfl⟩

namespace WatchHistory

variable {environment : Environment} {placement : EntryPlacement}
  {call : WatchCall} {foundcs : EntryAddress}
  {history next : WatchHistory} {begun : WatchState}

variable (environment placement) in
/-- A call that has found its site updates that entry at the time of the
call. -/
theorem csMap_of_found
    {state : WatchState}
    (found : WatchState.findOrAdd call state = some (foundcs, begun)) :
    ∃ result final,
      WatchState.startWatch environment placement call state =
          some (foundcs, result, final) ∧
        final.csMap = begun.csMap.assign foundcs
          ((begun.value foundcs).updateWatchedInfo result call.depth
            call.frames
            (callTime environment placement call foundcs begun)) := by
  have kept : (WatchState.attempts environment placement call foundcs
      (WatchState.setCallstack placement call foundcs begun)).2.csMap =
        begun.csMap := by
    rw [WatchState.attempts_csMap, WatchState.setCallstack_csMap]
  refine ⟨_, _, WatchState.startWatch_of_found found, ?_⟩
  rw [WatchState.updateWatchedInfo, WatchState.value, kept, callTime]

/-- What a call finds, and where its entry is. -/
theorem findOrAdd_located
    {state : WatchState}
    {bindings : List (HashMap.MapBinding HashedCallstack TimedCallstack)}
    (pooled : HashMap.Pooled timedFunctions state.csMap bindings)
    (found : WatchState.findOrAdd call state = some (foundcs, begun)) :
    HashMap.Located timedFunctions state.csMap call.key call.newval foundcs
        (begun.value foundcs) ∧
      (∀ other ≠ foundcs, begun.csMap.entries other =
        state.csMap.entries other) ∧
      ∃ later, HashMap.Pooled timedFunctions begun.csMap later ∧
        ∀ other, other ∈ later.map FiniteMap.Binding.address ↔
          other = foundcs ∨
            other ∈ bindings.map FiniteMap.Binding.address := by
  obtain ⟨site, value, csMap, located, isFound, holds, -, others⟩ :=
    pooled.laid.findOrAdd_located lawful_timedFunctions call.key call.newval
  rw [WatchState.findOrAdd, located, Option.map_some, Option.some.injEq,
    Prod.mk.injEq] at found
  obtain ⟨rfl, rfl⟩ := found
  subst holds
  exact ⟨isFound, others, pooled.findOrAdd isFound located⟩

/-- What the entry of a call counts when it is found. -/
theorem counted_of_located
    {map : TimedMap}
    {bindings : List (HashMap.MapBinding HashedCallstack TimedCallstack)}
    {found : TimedCallstack}
    {visits : List (EntryAddress × Word)}
    (laid : HashMap.Laid timedFunctions map bindings)
    (counted : ∀ site ∈ bindings.map FiniteMap.Binding.address,
      (map.entries site).value.periodcalled.toNat ≤
        visits.countP fun visit =>
          visit.1 = site ∧ (map.entries site).value.period ≤ visit.2)
    (located : HashMap.Located timedFunctions map call.key call.newval foundcs
      found) :
    found.periodcalled.toNat ≤
      visits.countP fun visit =>
        visit.1 = foundcs ∧ found.period ≤ visit.2 := by
  cases located with
  | found searched => exact counted _ (laid.mem_of_getEntry searched)
  | added => exact Nat.zero_le _

/-- A call counts itself, unless it begins a new period. -/
theorem counted_of_updated
    {visits : List (EntryAddress × Word)}
    {found : TimedCallstack}
    {time : Word}
    (counted : found.periodcalled.toNat ≤
      visits.countP fun visit =>
        visit.1 = foundcs ∧ found.period ≤ visit.2)
    (ordered : found.period ≤ time)
    (watched : Bool) (depth : Int) (frames : Frames) :
    (found.updateWatchedInfo watched depth frames time).periodcalled.toNat ≤
      (visits ++ [(foundcs, time)]).countP fun visit =>
        visit.1 = foundcs ∧
          (found.updateWatchedInfo watched depth frames time).period ≤
            visit.2 := by
  rcases found.updateWatchedInfo_period watched depth frames time with
    reset | ⟨periodcalled, period⟩
  · simp [reset]
  · have increment : (found.periodcalled + 1).toNat ≤
        found.periodcalled.toNat + 1 := by
      rw [BitVec.toNat_add]
      exact Nat.mod_le _ _
    rw [periodcalled, period, List.countP_append]
    refine increment.trans (Nat.add_le_add counted ?_)
    simp [ordered]

/-- Every step keeps the counts within the calls that have been made. -/
theorem Counted.step
    (counted : Counted history)
    {action : WatchStep}
    (ordered : AtCalls environment placement InOrder history action)
    (stepped : step environment placement history action = some next) :
    Counted next := by
  obtain ⟨bindings, pooled, bounded⟩ := counted.pooled
  cases action with
  | startWatch call =>
      rw [WatchHistory.step] at stepped
      obtain ⟨⟨foundcs, begun⟩, found, started⟩ :=
        Option.bind_eq_some_iff.mp stepped
      obtain ⟨result, final, returned, csMap⟩ :=
        csMap_of_found environment placement found
      obtain ⟨isFound, others, later, laterPooled, handed⟩ :=
        findOrAdd_located pooled found
      obtain ⟨-, inPeriod⟩ := ordered foundcs begun found
      dsimp only at started
      rw [returned, Option.map_some, Option.some.injEq] at started
      subst started
      refine ⟨later, ?_, fun site member => ?_⟩
      · rw [csMap]
        exact laterPooled.assign _ _
      · by_cases same : site = foundcs
        · subst same
          rw [WatchState.value, csMap, HashMap.value_assign_self]
          exact counted_of_updated
            (counted_of_located pooled.laid bounded isFound) inPeriod
            result call.depth call.frames
        · have value : final.value site = history.state.value site := by
            rw [WatchState.value, csMap, HashMap.entries_assign_of_ne same,
              others site same]
          rw [value, List.countP_append]
          exact (bounded site (((handed site).mp member).resolve_left
            same)).trans (Nat.le_add_right _ _)
  | mark marked =>
      rw [WatchHistory.step, Option.some.injEq] at stepped
      subst stepped
      refine ⟨bindings, pooled.assign _ _, fun site member => ?_⟩
      have earlier := bounded site member
      by_cases same : site = marked
      · subst same
        rw [WatchState.value, HashMap.value_assign_self]
        exact earlier
      · rw [WatchState.value, HashMap.entries_assign_of_ne same]
        exact earlier
  | others manager memory =>
      rw [WatchHistory.step, Option.some.injEq] at stepped
      subst stepped
      exact ⟨bindings, pooled, bounded⟩

/-- Nothing has been counted at the start. -/
theorem Started.counted (started : Started history) : Counted history := by
  obtain ⟨bindings, pooled, zero⟩ := started.pooled
  refine ⟨bindings, pooled, fun site member => ?_⟩
  rw [zero site member]
  exact Nat.zero_le _

/-- In a period that is not over, every counted call is recent. -/
theorem Counted.justified
    (counted : Counted history)
    {action : WatchStep}
    (ordered : AtCalls environment placement InOrder history action)
    (current : AtCalls environment placement PeriodCurrent history action) :
    AtCalls environment placement Justified history action := by
  obtain ⟨bindings, pooled, bounded⟩ := counted.pooled
  cases action with
  | startWatch call =>
      intro foundcs begun found throttled
      obtain ⟨inOrder, -⟩ := ordered foundcs begun found
      have notOver := current foundcs begun found throttled
      have counts := counted_of_located pooled.laid bounded
        (findOrAdd_located pooled found).1
      have full : maxWatchThreshold ≤
          (begun.value foundcs).periodcalled.toNat :=
        Nat.le_of_not_lt throttled
      refine full.trans (counts.trans (List.countP_mono_left ?_))
      intro visit made inPeriod
      rw [decide_eq_true_eq] at inPeriod ⊢
      obtain ⟨fromSite, after⟩ := inPeriod
      rw [BitVec.le_def] at after
      exact ⟨fromSite, inOrder visit made fromSite, by omega⟩
  | mark | others => trivial

/-- In every run whose calls come in order, if no call finds a full count in a
period that is over, then every call that is throttled comes after as many
recent calls from its site as the threshold says. -/
theorem throttled_justified
    {start : WatchHistory}
    {steps : List WatchStep}
    (started : Started start)
    (ordered : Machine.Along (step environment placement)
      (AtCalls environment placement InOrder) start steps)
    (current : Machine.Along (step environment placement)
      (AtCalls environment placement PeriodCurrent) start steps) :
    Machine.Along (step environment placement)
      (AtCalls environment placement Justified) start steps := by
  have preserved : ∀ reached action next, Counted reached →
      AtCalls environment placement InOrder reached action ∧
        AtCalls environment placement PeriodCurrent reached action →
      step environment placement reached action = some next →
      Counted next :=
    fun _ _ _ counted met stepped => counted.step met.1 stepped
  exact Machine.along_of_invariant preserved
    (fun _ _ counted met => counted.justified met.1 met.2) started.counted
    (Machine.along_and ordered current)

/-- Every call succeeds.  The clock stands still for a number of allocations and
then goes on by twenty seconds. -/
def pauseEnvironment (steady : Nat) : Environment :=
  .lowestFree (fun _ => false) fun call =>
    if call < 29 + steady then 1000000 else 1020000

/-- Four other objects are watched. -/
def busyManager : Manager :=
  (Manager.run (pauseEnvironment 5000) (.start Manager.standardFiles 1)
    (slotPositions.map fun slot =>
      .setSection (fun _ => initWatchRatio)
        (Manager.sampleRequest (0x1000 * (slot.val + 1)) 1 false) slot)).getD
    (.start Manager.standardFiles 1)

/-- The entry of the first call site. -/
abbrev firstSite : EntryAddress := HashMap.addressAt callstackMapSize 0

/-- A call that finds every slot taken and draws too high only updates its
entry. -/
theorem attempts_of_busy
    {state : WatchState}
    (taken : maxWatchpoints ≤ state.manager.numWatchpoints)
    (low : (state.value foundcs).watchedRatio ≤ initWatchRatio) :
    WatchState.attempts environment placement sampleCall foundcs state =
      (false, state) := by
  have noSlot : ¬state.manager.numWatchpoints < maxWatchpoints :=
    not_lt.mpr taken
  have drawn : ∀ bound ≥ maxWatchRatioUpperbound,
      ¬sampleCall.random bound ≤ (state.value foundcs).watchedRatio := by
    intro bound large
    have ordered : initWatchRatio < maxWatchRatioUpperbound - 1 := by decide
    change ¬bound - 1 ≤ _
    omega
  have first := drawn maxWatchRatioUpperbound le_rfl
  have second := drawn maxWatchRatioSecondUpperbound (by decide)
  rw [WatchState.attempts, WatchState.attemptFree, if_neg noSlot,
    WatchState.attemptSampled, if_neg second]
  dsimp only
  rw [WatchState.attemptSampled, if_neg first]
  split
  · rfl
  · rfl

/-- A state in which every slot is taken, and the call sites that have been
found. -/
structure Busy (history : WatchHistory)
    (bindings : List (HashMap.MapBinding HashedCallstack TimedCallstack))
    (calls : Nat) : Prop where
  holds : HashMap.Holds timedFunctions callstackMapSize history.state.csMap
    bindings
  few : bindings.length ≤ 1
  taken : history.state.manager.numWatchpoints = maxWatchpoints
  calls : history.state.manager.kernel.calls = calls

/-- A few call sites always fit. -/
theorem Busy.fits
    {bindings : List (HashMap.MapBinding HashedCallstack TimedCallstack)}
    {calls : Nat}
    (busy : Busy history bindings calls) :
    HashMap.Fits timedFunctions history.state.csMap
      (.findOrAdd sampleCall.key sampleCall.newval) := by
  have few := busy.few
  have inBucket : (HashMap.inBucket timedFunctions history.state.csMap
      (HashMap.hashIndex timedFunctions history.state.csMap sampleCall.key.1
        sampleCall.key.2) bindings).length ≤ bindings.length :=
    List.length_filter_le ..
  have count := busy.holds.represents.count _
    (busy.holds.represents.hashIndex_lt sampleCall.key.1 sampleCall.key.2)
  refine ⟨⟨?_, ?_⟩, ?_⟩
  · change callstackLength < 2 ^ 31
    decide
  · rw [count]
    omega
  · rw [busy.holds.total_eq]
    omega

section Clock

variable {steady : Nat}

variable (placement steady) in
/-- No attempt of a call succeeds in such a state. -/
theorem Busy.refused
    {bindings : List (HashMap.MapBinding HashedCallstack TimedCallstack)}
    {calls : Nat}
    (busy : Busy history bindings calls)
    {csMap : TimedMap}
    (low : (csMap.entries firstSite).value.watchedRatio ≤ initWatchRatio) :
    let begun : WatchState := { history.state with csMap := csMap }
    WatchState.attempts (pauseEnvironment steady) placement sampleCall
        firstSite (WatchState.setCallstack placement sampleCall firstSite begun) =
      (false, WatchState.setCallstack placement sampleCall firstSite
        begun) := by
  apply attempts_of_busy
  · exact busy.taken.ge
  · rw [WatchState.value, WatchState.setCallstack_csMap]
    exact low

variable (placement steady) in
/-- What a call does in such a state. -/
theorem Busy.step
    {bindings later :
      List (HashMap.MapBinding HashedCallstack TimedCallstack)}
    {calls : Nat} {value : TimedCallstack}
    (busy : Busy history bindings calls)
    (leads : FiniteMap.step (HashMap.policy timedFunctions callstackMapSize)
      bindings (.findOrAdd sampleCall.key sampleCall.newval) =
        (.entry firstSite, later))
    (holds : later = [⟨sampleCall.key, firstSite, value⟩])
    (low : value.watchedRatio ≤ initWatchRatio) :
    ∃ begun next,
      WatchState.findOrAdd sampleCall history.state =
          some (firstSite, begun) ∧
        begun.value firstSite = value ∧
        callTime (pauseEnvironment steady) placement sampleCall firstSite
            begun = (pauseEnvironment steady).clock calls ∧
        WatchHistory.step (pauseEnvironment steady) placement history
            (.startWatch sampleCall) = some next ∧
        next.visits = history.visits ++
          [(firstSite, (pauseEnvironment steady).clock calls)] ∧
        Busy next
          [⟨sampleCall.key, firstSite, value.updateWatchedInfo false
            sampleCall.depth sampleCall.frames
            ((pauseEnvironment steady).clock calls)⟩] (calls + 1) := by
  obtain ⟨csMap, located, mapHolds⟩ :=
    busy.holds.findOrAdd lawful_timedFunctions busy.fits leads
  let begun : WatchState := { history.state with csMap := csMap }
  have found : WatchState.findOrAdd sampleCall history.state =
      some (firstSite, begun) := by
    rw [WatchState.findOrAdd, located, Option.map_some]
  have isValue : begun.value firstSite = value := by
    have member : ⟨sampleCall.key, firstSite, value⟩ ∈ later := by
      rw [holds]
      exact List.mem_singleton_self _
    exact congrArg Entry.value
      (mapHolds.represents.entries _ member)
  have quiet : WatchState.attempts (pauseEnvironment steady) placement
      sampleCall firstSite (WatchState.setCallstack placement sampleCall firstSite
        begun) =
      (false, WatchState.setCallstack placement sampleCall firstSite
        begun) :=
    busy.refused placement steady
      ((congrArg (fun found => found.watchedRatio) isValue).trans_le low)
  have time : callTime (pauseEnvironment steady) placement sampleCall
      firstSite begun = (pauseEnvironment steady).clock calls := by
    rw [callTime, quiet]
    exact congrArg (pauseEnvironment steady).clock busy.calls
  let final : WatchState :=
    WatchState.updateWatchedInfo (pauseEnvironment steady) sampleCall firstSite
      false (WatchState.setCallstack placement sampleCall firstSite begun)
  have finalMap : final.csMap = csMap.assign firstSite
      (value.updateWatchedInfo false sampleCall.depth sampleCall.frames
        ((pauseEnvironment steady).clock calls)) := by
    rw [callTime, quiet] at time
    simp only [final, WatchState.updateWatchedInfo, WatchState.value,
      WatchState.setCallstack_csMap]
    rw [time]
    exact congrArg (fun found => csMap.assign firstSite
      (TimedCallstack.updateWatchedInfo false sampleCall.depth
        sampleCall.frames ((pauseEnvironment steady).clock calls)
        found)) isValue
  refine ⟨begun, ⟨final, history.visits ++
    [(firstSite, (pauseEnvironment steady).clock calls)]⟩, found, isValue,
    time, ?_, rfl, ?_⟩
  · rw [WatchHistory.step, found, Option.bind_some]
    dsimp only
    rw [WatchState.startWatch_of_found found, quiet, Option.map_some, time]
  · refine ⟨?_, le_rfl, busy.taken, congrArg (· + 1) busy.calls⟩
    have assigned := mapHolds.assign firstSite
      (value.updateWatchedInfo false sampleCall.depth sampleCall.frames
        ((pauseEnvironment steady).clock calls))
    rw [holds] at assigned
    rw [finalMap]
    simpa [FiniteMap.assign] using assigned

/-- The first call site has been found, and a number of calls have been counted
since. -/
structure Counting (calls : Nat) (history : WatchHistory) : Prop where
  entry : ∃ value,
    Busy history [⟨sampleCall.key, firstSite, value⟩] (29 + calls) ∧
      value.periodcalled = BitVec.ofNat 64 calls ∧
      value.period = 1000000 ∧ value.watchedRatio ≤ initWatchRatio
  visits : history.visits = List.replicate (calls + 1) (firstSite, 1000000)

/-- A map with one binding leads to it. -/
theorem step_findOrAdd_singleton (value : TimedCallstack) :
    FiniteMap.step (HashMap.policy timedFunctions callstackMapSize)
        [⟨sampleCall.key, firstSite, value⟩]
        (.findOrAdd sampleCall.key sampleCall.newval) =
      (.entry firstSite, [⟨sampleCall.key, firstSite, value⟩]) := by
  have itself : (HashMap.policy timedFunctions callstackMapSize).same
      sampleCall.key sampleCall.key = true :=
    (lawful_timedFunctions.policy_lawful callstackMapSize).refl _
  simp [FiniteMap.step, FiniteMap.lookup, itself]

/-- A ratio that is not the maximum does not rise. -/
theorem watchedRatio_updateWatchedInfo_le
    {value : TimedCallstack}
    (low : value.watchedRatio ≤ initWatchRatio)
    (depth : Int) (frames : Frames) (now : Word) :
    (value.updateWatchedInfo false depth frames now).watchedRatio ≤
      initWatchRatio := by
  have ordered : initWatchRatio < maxWatchRatioUpperbound ∧
      1 ≤ initWatchRatio := by decide
  rw [TimedCallstack.toCallstack_updateWatchedInfo,
    (Callstack.updateWatchedInfo_fields ..).2.2,
    updateWatchedInfo_eq_expectedRatio, expectedRatio, if_neg (by omega)]
  exact max_le ordered.2 (by omega)

variable (placement steady) in
/-- Until the pause each call is counted. -/
theorem Counting.step
    {calls : Nat}
    (counting : Counting calls history)
    (early : calls < steady) :
    ∃ next,
      WatchHistory.step (pauseEnvironment steady) placement history
          (.startWatch sampleCall) = some next ∧
        Counting (calls + 1) next := by
  obtain ⟨value, busy, periodcalled, period, low⟩ := counting.entry
  obtain ⟨begun, next, -, -, -, stepped, visits, nextBusy⟩ :=
    busy.step placement steady (step_findOrAdd_singleton value) rfl low
  have clock : (pauseEnvironment steady).clock (29 + calls) = 1000000 :=
    if_pos (by omega)
  rw [clock] at visits nextBusy
  have counted : value.updateWatchedInfo false sampleCall.depth
      sampleCall.frames 1000000 =
      { toCallstack := value.toCallstack.updateWatchedInfo false
          sampleCall.depth sampleCall.frames
        period := value.period
        periodcalled := value.periodcalled + 1 } := by
    rw [TimedCallstack.updateWatchedInfo]
    apply if_neg
    rw [period]
    decide
  refine ⟨next, stepped, ⟨_, nextBusy, ?_, ?_, ?_⟩, ?_⟩
  · rw [counted, BitVec.ofNat_add, ← periodcalled]
    rfl
  · rw [counted, period]
  · exact watchedRatio_updateWatchedInfo_le low ..
  · rw [visits, counting.visits, ← List.replicate_succ']

/-- The clock does not go back. -/
theorem Counting.inOrder
    {calls : Nat}
    (counting : Counting calls history) :
    AtCalls (pauseEnvironment steady) placement InOrder history
      (.startWatch sampleCall) := by
  obtain ⟨value, busy, periodcalled, period, low⟩ := counting.entry
  obtain ⟨begun, next, found, isValue, time, -⟩ :=
    busy.step placement steady (step_findOrAdd_singleton value) rfl low
  have late : 1000000 ≤ (pauseEnvironment steady).clock (29 + calls) := by
    change 1000000 ≤ if 29 + calls < 29 + steady then (1000000 : Word)
      else 1020000
    split <;> decide
  intro foundcs other sameFound
  rw [found, Option.some.injEq, Prod.mk.injEq] at sameFound
  obtain ⟨rfl, rfl⟩ := sameFound
  rw [time]
  refine ⟨fun visit made _ => ?_, ?_⟩
  · rw [counting.visits] at made
    rw [List.eq_of_mem_replicate made]
    exact late
  · rw [isValue, period]
    exact late

/-- Before the pause the period is not over. -/
theorem Counting.periodCurrent
    {calls : Nat}
    (counting : Counting calls history)
    (early : calls < steady) :
    AtCalls (pauseEnvironment steady) placement PeriodCurrent history
      (.startWatch sampleCall) := by
  obtain ⟨value, busy, periodcalled, period, low⟩ := counting.entry
  obtain ⟨begun, next, found, isValue, time, -⟩ :=
    busy.step placement steady (step_findOrAdd_singleton value) rfl low
  have clock : (pauseEnvironment steady).clock (29 + calls) = 1000000 :=
    if_pos (by omega)
  intro foundcs other sameFound _
  rw [found, Option.some.injEq, Prod.mk.injEq] at sameFound
  obtain ⟨rfl, rfl⟩ := sameFound
  rw [time, clock, isValue, period]
  exact Nat.le_add_right _ _

variable (placement steady) in
/-- The call that finds the whole threshold counted is throttled. -/
theorem Counting.throttled
    (counting : Counting 5000 history) :
    ∃ begun,
      WatchState.findOrAdd sampleCall history.state =
          some (firstSite, begun) ∧
        ¬(begun.value firstSite).BelowThreshold ∧
        callTime (pauseEnvironment steady) placement sampleCall firstSite
          begun = (pauseEnvironment steady).clock (29 + 5000) := by
  obtain ⟨value, busy, periodcalled, period, low⟩ := counting.entry
  obtain ⟨begun, next, found, isValue, time, -⟩ :=
    busy.step placement steady (step_findOrAdd_singleton value) rfl low
  refine ⟨begun, found, ?_, time⟩
  rw [isValue, TimedCallstack.BelowThreshold, periodcalled]
  decide

variable (placement steady) in
/-- Calls before the pause are counted one after the other. -/
theorem Counting.advances
    {calls left : Nat}
    (counting : Counting calls history)
    (early : calls + left ≤ steady) :
    ∃ next,
      Machine.run (WatchHistory.step (pauseEnvironment steady) placement)
          history (List.replicate left (.startWatch sampleCall)) = some next ∧
        Counting (calls + left) next := by
  induction left generalizing calls history with
  | zero => exact ⟨history, rfl, counting⟩
  | succ left inductionHypothesis =>
      obtain ⟨next, stepped, nextCounting⟩ :=
        counting.step placement steady (by omega)
      obtain ⟨final, executed, finalCounting⟩ :=
        inductionHypothesis nextCounting (by omega)
      refine ⟨final, ?_, ?_⟩
      · rw [List.replicate_succ, Machine.run_cons, stepped]
        exact executed
      · rwa [show calls + (left + 1) = calls + 1 + left by omega]

variable (placement steady) in
/-- What holds of every counted call before the pause, and of what comes after
them, holds along the whole run. -/
theorem Counting.along
    {condition : WatchHistory → WatchStep → Prop}
    {calls left : Nat}
    {rest : List WatchStep}
    (counting : Counting calls history)
    (early : calls + left ≤ steady)
    (meets : ∀ (counted : Nat) (reached : WatchHistory),
      Counting counted reached → counted < steady →
      condition reached (.startWatch sampleCall))
    (later : ∀ reached, Counting (calls + left) reached →
      Machine.Along (WatchHistory.step (pauseEnvironment steady) placement)
        condition reached rest) :
    Machine.Along (WatchHistory.step (pauseEnvironment steady) placement)
      condition history
      (List.replicate left (.startWatch sampleCall) ++ rest) := by
  induction left generalizing calls history with
  | zero => exact later history counting
  | succ left inductionHypothesis =>
      obtain ⟨next, stepped, nextCounting⟩ :=
        counting.step placement steady (by omega)
      refine Machine.along_cons stepped
        (meets calls history counting (by omega)) ?_
      refine inductionHypothesis nextCounting (by omega) ?_
      rwa [show calls + 1 + left = calls + (left + 1) by omega]

variable (steady) in
/-- The first call of all begins a period. -/
theorem counting_first :
    ∃ next,
      WatchHistory.step (pauseEnvironment steady) samplePlacement
          ⟨{ WatchState.start with manager := busyManager }, []⟩
          (.startWatch sampleCall) = some next ∧
        Counting 0 next ∧
        ∀ condition : WatchHistory → EntryAddress → Word → TimedCallstack →
            Prop,
          condition ⟨{ WatchState.start with manager := busyManager }, []⟩
              firstSite 1000000 (timedFunctions.reset sampleCall.newval) →
          AtCalls (pauseEnvironment steady) samplePlacement condition
            ⟨{ WatchState.start with manager := busyManager }, []⟩
            (.startWatch sampleCall) := by
  have slots : busyManager.numWatchpoints = maxWatchpoints ∧
      busyManager.kernel.calls = 28 := by decide +kernel
  have busy : Busy ⟨{ WatchState.start with manager := busyManager }, []⟩ []
      28 :=
    { holds := HashMap.holds_initializeMap timedFunctions blankMap
        (by decide : 19 < 64)
      few := Nat.zero_le _
      taken := slots.1
      calls := slots.2 }
  obtain ⟨begun, next, found, isValue, time, stepped, visits, nextBusy⟩ :=
    busy.step samplePlacement steady rfl rfl le_rfl
  have clock : (pauseEnvironment steady).clock 28 = 1000000 :=
    if_pos (by omega)
  rw [clock] at time visits nextBusy
  refine ⟨next, stepped, ⟨⟨_, nextBusy, ?_, ?_, ?_⟩, ?_⟩, ?_⟩
  · rfl
  · rfl
  · exact watchedRatio_updateWatchedInfo_le le_rfl ..
  · exact visits
  · intro condition holds foundcs other sameFound
    rw [found, Option.some.injEq, Prod.mk.injEq] at sameFound
    obtain ⟨rfl, rfl⟩ := sameFound
    rw [time, isValue]
    exact holds

variable (steady) in
/-- The first call comes in order. -/
theorem inOrder_first :
    AtCalls (pauseEnvironment steady) samplePlacement InOrder
      ⟨{ WatchState.start with manager := busyManager }, []⟩
      (.startWatch sampleCall) := by
  obtain ⟨-, -, -, first⟩ := counting_first steady
  exact first InOrder ⟨nofun, BitVec.le_def.mpr (Nat.zero_le _)⟩

end Clock

/-- No call has been made when the process starts. -/
theorem started_start : Started ⟨WatchState.start, []⟩ := by
  refine ⟨rfl, [], ⟨?_, rfl⟩, nofun⟩
  exact HashMap.laid_initializeMap timedFunctions blankMap (by decide)
    (by decide)

/-- Calls from one site while four other objects are watched: the first one, and
a number of later ones. -/
def callsFrom (later : Nat) : List WatchStep :=
  .others busyManager (fun _ => 0) :: .startWatch sampleCall ::
    (List.replicate later (.startWatch sampleCall) ++
      [.startWatch sampleCall])

/-- A condition along these calls. -/
theorem along_callsFrom
    {steady later : Nat}
    {condition : WatchHistory → WatchStep → Prop}
    (early : later ≤ steady)
    (before : condition ⟨WatchState.start, []⟩
      (.others busyManager fun _ => 0))
    (first : condition ⟨{ WatchState.start with manager := busyManager }, []⟩
      (.startWatch sampleCall))
    (meets : ∀ (counted : Nat) (reached : WatchHistory),
      Counting counted reached → counted < steady →
      condition reached (.startWatch sampleCall))
    (last : ∀ reached, Counting later reached →
      condition reached (.startWatch sampleCall)) :
    Machine.Along (step (pauseEnvironment steady) samplePlacement) condition
      ⟨WatchState.start, []⟩ (callsFrom later) := by
  obtain ⟨next, stepped, counting, -⟩ := counting_first steady
  refine Machine.along_cons rfl before (Machine.along_cons stepped first ?_)
  refine counting.along samplePlacement steady
    ((Nat.zero_add later).trans_le early) meets fun reached counted => ?_
  exact ⟨last reached (by rwa [Nat.zero_add] at counted), fun _ _ => trivial⟩

/-- The state in which the last call is made. -/
theorem exists_last_call
    {steady later : Nat}
    (early : later ≤ steady) :
    ∃ reached, Counting later reached ∧
      ∀ condition,
        Machine.Along (step (pauseEnvironment steady) samplePlacement)
            condition ⟨WatchState.start, []⟩ (callsFrom later) →
          condition reached (.startWatch sampleCall) := by
  obtain ⟨next, stepped, counting, -⟩ := counting_first steady
  obtain ⟨reached, executed, counted⟩ :=
    counting.advances samplePlacement steady
      ((Nat.zero_add later).trans_le early)
  refine ⟨reached, by rwa [Nat.zero_add] at counted, fun condition along => ?_⟩
  exact (Machine.along_append ((along.2 _ rfl).2 next stepped) executed).2.1

/-- A call site that has called five thousand times in no time is throttled
after a pause of twenty seconds. -/
theorem throttled_after_pause :
    Started ⟨WatchState.start, []⟩ ∧
      Machine.Along (WatchHistory.step (pauseEnvironment 5000) samplePlacement)
        (AtCalls (pauseEnvironment 5000) samplePlacement InOrder)
        ⟨WatchState.start, []⟩ (callsFrom 5000) ∧
      ¬Machine.Along
        (WatchHistory.step (pauseEnvironment 5000) samplePlacement)
        (AtCalls (pauseEnvironment 5000) samplePlacement Justified)
        ⟨WatchState.start, []⟩ (callsFrom 5000) := by
  refine ⟨started_start, ?_, fun justified => ?_⟩
  · exact along_callsFrom le_rfl trivial (inOrder_first 5000)
      (fun _ _ counting _ => counting.inOrder)
      fun _ counting => counting.inOrder
  · obtain ⟨reached, counting, last⟩ := exists_last_call (le_refl 5000)
    obtain ⟨begun, found, throttled, time⟩ :=
      counting.throttled samplePlacement 5000
    have recent := last _ justified firstSite begun found throttled
    have none : reached.recentCalls firstSite
        ((pauseEnvironment 5000).clock (29 + 5000)) = 0 := by
      rw [recentCalls, List.countP_eq_zero]
      intro visit made
      rw [counting.visits] at made
      rw [List.eq_of_mem_replicate made]
      decide
    rw [time, none] at recent
    exact absurd recent (by decide)

/-- Without a pause the call that finds the whole threshold counted is throttled
and justified. -/
theorem throttled_justified_full :
    Machine.Along (step (pauseEnvironment 5001) samplePlacement)
        (AtCalls (pauseEnvironment 5001) samplePlacement Justified)
        ⟨WatchState.start, []⟩ (callsFrom 5000) ∧
      ¬Machine.Along (step (pauseEnvironment 5001) samplePlacement)
        (AtCalls (pauseEnvironment 5001) samplePlacement
          fun _ _ _ found => found.BelowThreshold)
        ⟨WatchState.start, []⟩ (callsFrom 5000) := by
  refine ⟨throttled_justified started_start ?_ ?_, fun below => ?_⟩
  · exact along_callsFrom (by decide) trivial (inOrder_first 5001)
      (fun _ _ counting _ => counting.inOrder)
      fun _ counting => counting.inOrder
  · obtain ⟨-, -, -, first⟩ := counting_first 5001
    refine along_callsFrom (by decide) trivial
      (first PeriodCurrent fun throttled => absurd ?_ throttled)
      (fun _ _ counting early => counting.periodCurrent early)
      fun _ counting => counting.periodCurrent (by decide)
    decide
  · obtain ⟨reached, counting, last⟩ :=
      exists_last_call (by decide : 5000 ≤ 5001)
    obtain ⟨begun, found, throttled, -⟩ :=
      counting.throttled samplePlacement 5001
    exact throttled (last _ below firstSite begun found)

end WatchHistory

end Causer
