import Causer.WatchThrottle
import Mathlib.Algebra.Order.Field.Rat
import Mathlib.Data.Nat.Cast.Order.Ring
import Mathlib.Data.Rat.Cast.Order
import Mathlib.Tactic.Linarith

/-!
# What a marked call site gets

`startWatch` takes an unused slot while it thinks that there is one, and
otherwise lets a draw decide whether it asks for the slot of another object.  At
a call site that an overflow has been traced to, the draw never says no: its
objects are watched whenever some slot is unused or its watchpoint may be given
up, and that does not change for the rest of the run.
-/

namespace Causer

namespace Manager

variable {environment : Environment} {watchedRatio : Word → Int}
  {request : Request}

/-- A request without preemption that finds every slot taken does nothing. -/
theorem setWatchpointLoop_of_taken
    (gentle : request.ispreempt = false)
    {manager : Manager}
    (taken : ∀ slot, (manager.wp slot).isUsed = true)
    (left : Nat) (sidx : SlotPosition) :
    setWatchpointLoop environment watchedRatio request left sidx manager =
      (false, manager) := by
  induction left generalizing sidx with
  | zero => rfl
  | succ left inductionHypothesis =>
      rw [setWatchpointLoop, if_neg (by simp [taken sidx, gentle])]
      exact inductionHypothesis (sidx + 1)

variable (watchedRatio) in
/-- A request without preemption is granted an unused slot, or refused without
any effect. -/
theorem setWatchpoint_of_gentle
    (succeed : environment.AllSucceed)
    (gentle : request.ispreempt = false)
    (manager : Manager) :
    (∃ slot, (manager.wp slot).isUsed = false) ∧
        (setWatchpoint environment watchedRatio request manager).1 = true ∨
      (∀ slot, (manager.wp slot).isUsed = true) ∧
        setWatchpoint environment watchedRatio request manager =
          (false, manager) := by
  by_cases unused : ∃ slot, (manager.wp slot).isUsed = false
  · refine Or.inl ⟨unused,
      (setWatchpoint_admits succeed watchedRatio request manager).1.mpr ?_⟩
    obtain ⟨slot, isUnused⟩ := unused
    exact ⟨slot, (admits_iff_of_gentle gentle _ _).mpr isUnused⟩
  · have taken : ∀ slot, (manager.wp slot).isUsed = true := by
      simpa using unused
    exact Or.inr ⟨taken, setWatchpointLoop_of_taken gentle taken ..⟩

end Manager

namespace WatchState

variable {environment : Environment} {placement : EntryPlacement}
  {call : WatchCall} {foundcs : EntryAddress} {state : WatchState}

/-- Some slot may be given to an object of the call site: it is unused, or the
test of preemption lets it go. -/
def Available (environment : Environment) (placement : EntryPlacement)
    (call : WatchCall) (foundcs : EntryAddress) (state : WatchState) : Prop :=
  ∃ slot, Manager.AdmitsIn environment (state.watchedRatio placement)
    (request placement call foundcs true) state.manager slot

/-- Which slots are available depends on the slots and the call sites. -/
theorem available_congr
    {other : WatchState}
    (manager : other.manager = state.manager)
    (csMap : other.csMap = state.csMap) :
    Available environment placement call foundcs other ↔
      Available environment placement call foundcs state := by
  have watchedRatio : other.watchedRatio placement =
      state.watchedRatio placement := by
    funext pointer
    simp only [WatchState.watchedRatio, WatchState.value, csMap]
  rw [Available, watchedRatio, manager, Available]

/-- Recording the call site in the guard leaves the slots. -/
@[simp] theorem setCallstack_manager (state : WatchState) :
    (setCallstack placement call foundcs state).manager = state.manager := by
  cases state with
  | mk csMap manager memory written => exact Eq.refl manager

/-- The number that a call draws. -/
def draw (call : WatchCall) (callstack : TimedCallstack) : Int :=
  if callstack.BelowThreshold then call.random maxWatchRatioUpperbound
  else call.random maxWatchRatioSecondUpperbound

/-- The sampled attempt is granted exactly when the draw is not above the ratio
and some slot is available. -/
theorem attemptSampled_granted_iff
    (succeed : environment.AllSucceed)
    (rnd : Int) (state : WatchState) :
    (attemptSampled environment placement call foundcs rnd state).1 = true ↔
      rnd ≤ (state.value foundcs).watchedRatio ∧
        Available environment placement call foundcs state := by
  rw [attemptSampled]
  by_cases low : rnd ≤ (state.value foundcs).watchedRatio
  · rw [if_pos low]
    refine (Manager.setWatchpoint_admits succeed _ _ state.manager).1.trans ?_
    exact ⟨fun available => ⟨low, available⟩, fun granted => granted.2⟩
  · rw [if_neg low]
    exact iff_of_false Bool.false_ne_true fun granted => low granted.1

variable (placement call foundcs) in
/-- The free attempt is granted an unused slot, if the counter admits it, or
leaves slots and call sites. -/
theorem attemptFree_cases
    (succeed : environment.AllSucceed)
    (state : WatchState) :
    (state.manager.numWatchpoints < maxWatchpoints ∧
        (∃ slot, (state.manager.wp slot).isUsed = false) ∧
        (attemptFree environment placement call foundcs state).1 = true) ∨
      ¬(state.manager.numWatchpoints < maxWatchpoints ∧
          ∃ slot, (state.manager.wp slot).isUsed = false) ∧
        (attemptFree environment placement call foundcs state).1 = false ∧
        (attemptFree environment placement call foundcs state).2.manager =
          state.manager ∧
        (attemptFree environment placement call foundcs state).2.csMap =
          state.csMap := by
  rw [attemptFree]
  by_cases room : state.manager.numWatchpoints < maxWatchpoints
  · rw [if_pos room]
    have gentle : (request placement call foundcs false).ispreempt = false :=
      rfl
    rcases Manager.setWatchpoint_of_gentle (state.watchedRatio placement)
      succeed gentle state.manager with
      ⟨unused, granted⟩ | ⟨taken, refused⟩
    · exact Or.inl ⟨room, unused, granted⟩
    · refine Or.inr ⟨?_, congrArg Prod.fst refused, congrArg Prod.snd refused,
        rfl⟩
      rintro ⟨-, slot, isUnused⟩
      rw [taken slot] at isUnused
      contradiction
  · rw [if_neg room]
    exact Or.inr ⟨fun both => room both.1, rfl, rfl, rfl⟩

/-- A call gets a slot exactly when its call site is not throttled, the counter
admits a free slot and there is one, or when the draw is not above the ratio and
some slot is available. -/
theorem attempts_granted_iff
    (succeed : environment.AllSucceed)
    (state : WatchState) :
    (attempts environment placement call foundcs state).1 = true ↔
      ((state.value foundcs).BelowThreshold ∧
          state.manager.numWatchpoints < maxWatchpoints ∧
          ∃ slot, (state.manager.wp slot).isUsed = false) ∨
        draw call (state.value foundcs) ≤ (state.value foundcs).watchedRatio ∧
          Available environment placement call foundcs state := by
  by_cases below : (state.value foundcs).BelowThreshold
  · rw [attempts, if_pos below, draw, if_pos below]
    dsimp only
    rcases attemptFree_cases placement call foundcs succeed state with
      ⟨room, unused, granted⟩ | ⟨full, refused, manager, csMap⟩
    · rw [if_pos granted]
      exact iff_of_true rfl (Or.inl ⟨below, room, unused⟩)
    · rw [if_neg (by simp [refused]), attemptSampled_granted_iff succeed,
        WatchState.value, csMap, available_congr manager csMap]
      refine ⟨Or.inr, fun either => either.resolve_left ?_⟩
      exact fun free => full free.2
  · rw [attempts, if_neg below, draw, if_neg below,
      attemptSampled_granted_iff succeed]
    exact ⟨Or.inr, fun either => either.resolve_left fun free => below free.1⟩

/-- When the draw does not say no, a call gets a slot exactly if one is
available. -/
theorem attempts_granted_iff_available
    (succeed : environment.AllSucceed)
    {state : WatchState}
    (low : draw call (state.value foundcs) ≤
      (state.value foundcs).watchedRatio) :
    (attempts environment placement call foundcs state).1 = true ↔
      Available environment placement call foundcs state := by
  rw [attempts_granted_iff succeed]
  constructor
  · rintro (⟨-, -, slot, unused⟩ | ⟨-, available⟩)
    · exact ⟨slot, Or.inl unused⟩
    · exact available
  · exact fun available => Or.inr ⟨low, available⟩

end WatchState

/-- No ratio of an entry is negative or above the greatest one. -/
def RatiosLimited (map : TimedMap) : Prop :=
  ∀ site, 0 ≤ (map.entries site).value.watchedRatio ∧
    (map.entries site).value.watchedRatio ≤ maxWatchRatioUpperbound

/-- An update leaves the bounds of a ratio and the greatest ratio. -/
theorem updateWatchedInfo_within
    (watched : Bool)
    {ratio : Int}
    (bounded : 0 ≤ ratio ∧ ratio ≤ maxWatchRatioUpperbound) :
    (0 ≤ updateWatchedInfo watched ratio ∧
        updateWatchedInfo watched ratio ≤ maxWatchRatioUpperbound) ∧
      (ratio = maxWatchRatioUpperbound →
        updateWatchedInfo watched ratio = maxWatchRatioUpperbound) := by
  rw [updateWatchedInfo_eq_expectedRatio, expectedRatio]
  simp only [maxWatchRatioUpperbound] at bounded ⊢
  split_ifs <;> omega

theorem TimedCallstack.watchedRatio_updateWatchedInfo
    (watched : Bool) (depth : Int) (frames : Frames) (now : Word)
    (callstack : TimedCallstack) :
    (callstack.updateWatchedInfo watched depth frames now).watchedRatio =
      Causer.updateWatchedInfo watched callstack.watchedRatio := by
  rw [TimedCallstack.toCallstack_updateWatchedInfo,
    (Callstack.updateWatchedInfo_fields ..).2.2]

theorem RatiosLimited.assign
    {map : TimedMap}
    (bounded : RatiosLimited map)
    (address : EntryAddress)
    {value : TimedCallstack}
    (within : 0 ≤ value.watchedRatio ∧
      value.watchedRatio ≤ maxWatchRatioUpperbound) :
    RatiosLimited (map.assign address value) := by
  intro site
  by_cases same : site = address
  · subst same
    rw [HashMap.value_assign_self]
    exact within
  · rw [HashMap.entries_assign_of_ne same]
    exact bounded site

namespace WatchHistory

variable {environment : Environment} {placement : EntryPlacement}
  {call : WatchCall} {foundcs site : EntryAddress}
  {history next : WatchHistory} {begun : WatchState}
  {bindings : List (HashMap.MapBinding HashedCallstack TimedCallstack)}

/-- A new call site begins in the middle of the ratios. -/
theorem bounded_of_found
    (pooled : HashMap.Pooled timedFunctions history.state.csMap bindings)
    (bounded : RatiosLimited history.state.csMap)
    (found : WatchState.findOrAdd call history.state =
      some (foundcs, begun)) :
    RatiosLimited begun.csMap := by
  obtain ⟨located, others, -⟩ := findOrAdd_located pooled found
  intro site
  by_cases same : site = foundcs
  · subst same
    change 0 ≤ (begun.value site).watchedRatio ∧
      (begun.value site).watchedRatio ≤ maxWatchRatioUpperbound
    generalize begun.value site = value at located ⊢
    cases located with
    | found searched => exact bounded site
    | added searched =>
        have initially : (0 : Int) ≤ initWatchRatio ∧
            initWatchRatio ≤ maxWatchRatioUpperbound := by decide
        exact initially
  · rw [others site same]
    exact bounded site

/-- Looking for a call site leaves the others, and itself if it is there. -/
theorem value_of_found
    (pooled : HashMap.Pooled timedFunctions history.state.csMap bindings)
    (handed : site ∈ bindings.map FiniteMap.Binding.address)
    (found : WatchState.findOrAdd call history.state =
      some (foundcs, begun)) :
    begun.value site = history.state.value site := by
  obtain ⟨located, others, -⟩ := findOrAdd_located pooled found
  by_cases same : site = foundcs
  · subst same
    generalize begun.value site = value at located ⊢
    cases located with
    | found searched => rfl
    | added searched =>
        have created := (pooled.laid.insertEntry pooled.addresses call.key.1
          call.key.2 call.newval call.newval).1
        change (HashMap.createNewEntry call.key.1 call.key.2 call.newval
          history.state.csMap).1 = _ at created
        rw [created] at handed
        exact absurd handed (HashMap.addressAt_not_mem pooled.addresses)
  · exact congrArg Entry.value (others site same)

/-- The map is laid out, the call sites that were there or have been found are
in it, and the ratios are bounded. -/
structure Known (handed : List EntryAddress) (history : WatchHistory) :
    Prop where
  pooled : ∃ bindings,
    HashMap.Pooled timedFunctions history.state.csMap bindings ∧
      ∀ site, site ∈ handed ∨ site ∈ history.visits.map Prod.fst →
        site ∈ bindings.map FiniteMap.Binding.address
  bounded : RatiosLimited history.state.csMap

/-- Every step keeps the call sites, their bounds, and the greatest ratio of one
that it knows. -/
theorem Known.step
    {handed : List EntryAddress}
    {action : WatchStep}
    (known : Known handed history)
    (stepped : step environment placement history action = some next) :
    Known handed next ∧
      (∀ site, site ∈ history.visits.map Prod.fst →
        site ∈ next.visits.map Prod.fst) ∧
      ∀ site, site ∈ handed ∨ site ∈ history.visits.map Prod.fst →
        (history.state.value site).watchedRatio = maxWatchRatioUpperbound →
        (next.state.value site).watchedRatio = maxWatchRatioUpperbound := by
  obtain ⟨bindings, pooled, inside⟩ := known.pooled
  cases action with
  | startWatch call =>
      rw [WatchHistory.step] at stepped
      obtain ⟨⟨foundcs, begun⟩, found, started⟩ :=
        Option.bind_eq_some_iff.mp stepped
      obtain ⟨result, final, returned, csMap⟩ :=
        csMap_of_found environment placement found
      obtain ⟨-, -, later, laterPooled, addresses⟩ :=
        findOrAdd_located pooled found
      have bounded := bounded_of_found pooled known.bounded found
      dsimp only at started
      rw [returned, Option.map_some, Option.some.injEq] at started
      subst started
      refine ⟨⟨⟨later, ?_, fun site known => ?_⟩, ?_⟩, fun site visited => ?_,
        fun site member marked => ?_⟩
      · rw [csMap]
        exact laterPooled.assign _ _
      · rw [addresses]
        simp only [List.map_append, List.map_cons, List.map_nil,
          List.mem_append, List.mem_singleton, ← or_assoc] at known
        exact known.symm.imp id (inside site)
      · rw [csMap]
        refine bounded.assign foundcs ?_
        rw [TimedCallstack.watchedRatio_updateWatchedInfo]
        exact (updateWatchedInfo_within result (bounded foundcs)).1
      · simp only [List.map_append, List.mem_append]
        exact Or.inl visited
      · have value := value_of_found pooled (inside site member) found
        rw [WatchState.value, csMap]
        by_cases same : site = foundcs
        · subst same
          rw [HashMap.value_assign_self,
            TimedCallstack.watchedRatio_updateWatchedInfo, value]
          exact (updateWatchedInfo_within result (known.bounded site)).2 marked
        · rw [HashMap.entries_assign_of_ne same]
          exact (congrArg (fun found => found.watchedRatio) value).trans marked
  | mark found =>
      rw [WatchHistory.step, Option.some.injEq] at stepped
      subst stepped
      have greatest : (0 : Int) ≤ maxWatchRatioUpperbound := by decide
      refine ⟨⟨⟨bindings, pooled.assign _ _, inside⟩,
        known.bounded.assign found ⟨greatest, le_rfl⟩⟩, fun _ => id,
        fun site _ marked => ?_⟩
      rw [WatchState.value]
      by_cases same : site = found
      · subst same
        rw [HashMap.value_assign_self]
        rfl
      · rw [HashMap.entries_assign_of_ne same]
        exact marked
  | others manager memory =>
      rw [WatchHistory.step, Option.some.injEq] at stepped
      subst stepped
      exact ⟨⟨⟨bindings, pooled, inside⟩, known.bounded⟩, fun _ => id,
        fun _ _ => id⟩

/-- The slot is unused, or its watchpoint is older than half of the base, or it
has had its time and belongs to a call site whose ratio is at most that of a new
one. -/
def GivesWay (environment : Environment) (placement : EntryPlacement)
    (state : WatchState) (slot : SlotPosition) : Prop :=
  (state.manager.wp slot).isUsed = false ∨
    wpPreemptTimeReductionBase < 2 * Manager.elapsed (state.manager.wp slot)
        (Manager.clockAt environment state.manager slot) ∨
    wpInstallMinTime ≤ Manager.elapsed (state.manager.wp slot)
        (Manager.clockAt environment state.manager slot) ∧
      state.watchedRatio placement (state.manager.wp slot).callstack ≤
        initWatchRatio

/-- A bound of the weight that a ratio has left, from a share of the base that has
gone by for certain. -/
theorem preemptionWeight_le
    (rounding : Rounding doublePrecision)
    {ratio : Int}
    {waited age : Nat}
    (share bound : ℚ)
    (nonneg : 0 ≤ ratio)
    (old : waited ≤ age)
    (small : (waited : ℤ) ≤ 2 ^ doublePrecision)
    (shareFits : Representable doublePrecision share)
    (gone : share ≤ waited / (wpPreemptTimeReductionBase : ℚ))
    (restFits : Representable doublePrecision (1 - share))
    (boundFits : Representable doublePrecision bound)
    (product : ((ratio * wpPreemptWeight : Int) : ℚ) * (1 - share) ≤ bound) :
    preemptionWeight rounding ratio age ≤ bound := by
  have waitedFits : Representable doublePrecision waited :=
    ⟨waited, 0, by rwa [abs_of_nonneg (Int.natCast_nonneg waited)], by simp⟩
  have elapsed : (waited : ℚ) ≤ rounding.round age :=
    rounding.le_round waitedFits (by exact_mod_cast old)
  have quotient : share ≤
      rounding.round age / (wpPreemptTimeReductionBase : ℚ) :=
    gone.trans (div_le_div_of_nonneg_right elapsed (by norm_num))
  have rest := rounding.round_le restFits
    (sub_le_sub_left (rounding.le_round shareFits quotient) 1)
  have weighted : (0 : ℚ) ≤ ((ratio * wpPreemptWeight : Int) : ℚ) := by
    exact_mod_cast mul_nonneg nonneg (by decide : (0 : Int) ≤ wpPreemptWeight)
  exact rounding.round_le boundFits
    ((mul_le_mul_of_nonneg_left rest weighted).trans product)

/-- The test of preemption for the greatest ratio. -/
theorem preempts_of_greatest
    (rounding : Rounding doublePrecision)
    {ratio : Int}
    {age : Nat}
    (bounded : 0 ≤ ratio ∧ ratio ≤ maxWatchRatioUpperbound)
    (old : wpPreemptTimeReductionBase < 2 * age ∨
      wpInstallMinTime ≤ age ∧ ratio ≤ initWatchRatio) :
    (maxWatchRatioUpperbound : ℚ) > preemptionWeight rounding ratio age := by
  rcases old with old | ⟨waited, initial⟩
  · -- the weight has lost more than one half
    have high : (ratio : ℚ) ≤ 10000 := by exact_mod_cast bounded.2
    have late : 5001 ≤ age := by
      simp only [wpPreemptTimeReductionBase] at old
      omega
    refine lt_of_le_of_lt (preemptionWeight_le rounding (8193 / 2 ^ 14) 9999
      bounded.1 late (by norm_num)
      ⟨8193, -14, by norm_num, by norm_num⟩ (by norm_num)
      ⟨8191, -14, by norm_num, by norm_num⟩
      ⟨9999, 0, by norm_num, by norm_num⟩ ?_) (by norm_num)
    push_cast [wpPreemptWeight]
    linarith
  · have half : (ratio : ℚ) ≤ 5000 := by exact_mod_cast initial
    refine lt_of_le_of_lt (preemptionWeight_le rounding (1 / 2 ^ 14)
      (19999 / 2) bounded.1 waited (by norm_num)
      ⟨1, -14, by norm_num, by norm_num⟩ (by norm_num)
      ⟨16383, -14, by norm_num, by norm_num⟩
      ⟨19999, -1, by norm_num, by norm_num⟩ ?_) (by norm_num)
    push_cast [wpPreemptWeight]
    linarith

/-- A slot that gives way is available to a marked call site. -/
theorem available_of_givesWay
    {state : WatchState}
    (fits : placement.fits foundcs)
    (bounded : RatiosLimited state.csMap)
    (marked : (state.value foundcs).watchedRatio = maxWatchRatioUpperbound)
    {slot : SlotPosition}
    (way : GivesWay environment placement state slot) :
    WatchState.Available environment placement call foundcs state := by
  refine ⟨slot, ?_⟩
  rcases way with unused | old
  · exact Or.inl unused
  · have own : state.watchedRatio placement (placement.address foundcs) =
        maxWatchRatioUpperbound := by
      rw [WatchState.watchedRatio, placement.entry_address foundcs fits]
      exact marked
    have waited : wpInstallMinTime ≤ Manager.elapsed (state.manager.wp slot)
        (Manager.clockAt environment state.manager slot) := by
      rcases old with late | ⟨waited, -⟩
      · simp only [wpPreemptTimeReductionBase, wpInstallMinTime] at late ⊢
        omega
      · exact waited
    refine Or.inr ⟨rfl, waited, ?_⟩
    have preempts := preempts_of_greatest environment.rounding
      (bounded (placement.entry (state.manager.wp slot).callstack)) old
    change (state.watchedRatio placement (placement.address foundcs) : ℚ) > _
    rw [own]
    exact preempts

/-- `arc4random_uniform` draws a number below its bound. -/
def DrawsBelow (call : WatchCall) : Prop :=
  ∀ bound, 0 < bound → 0 ≤ call.random bound ∧ call.random bound < bound

/-- What a call does for the object of one call site, as long as the site is not
throttled: it gets a slot exactly if one is available, and whenever some slot is
unused, has watched for more than half of the base, or has watched for its time
on behalf of a site that is no more suspicious than a new one. -/
def ServesMarked (environment : Environment) (placement : EntryPlacement)
    (site : EntryAddress) (history : WatchHistory) : WatchStep → Prop
  | .startWatch call =>
      ∀ begun, WatchState.findOrAdd call history.state = some (site, begun) →
        (begun.value site).BelowThreshold → DrawsBelow call →
        ∃ result final,
          WatchState.startWatch environment placement call history.state =
              some (site, result, final) ∧
            (result = true ↔
              WatchState.Available environment placement call site begun) ∧
            ((∃ slot, GivesWay environment placement begun slot) →
              result = true)
  | _ => True

/-- A call from a marked site is served. -/
theorem Known.serves
    (succeed : environment.AllSucceed)
    (fits : placement.fits site)
    {handed : List EntryAddress}
    (known : Known handed history)
    (member : site ∈ handed ∨ site ∈ history.visits.map Prod.fst)
    (marked : (history.state.value site).watchedRatio =
      maxWatchRatioUpperbound)
    (action : WatchStep) :
    ServesMarked environment placement site history action := by
  obtain ⟨bindings, pooled, inside⟩ := known.pooled
  cases action with
  | startWatch call =>
      intro begun found below draws
      have bounded := bounded_of_found pooled known.bounded found
      have greatest : (begun.value site).watchedRatio =
          maxWatchRatioUpperbound := by
        rw [value_of_found pooled (inside site member) found]
        exact marked
      have low : WatchState.draw call (begun.value site) ≤
          (begun.value site).watchedRatio := by
        rw [WatchState.draw, if_pos below, greatest]
        exact (draws _ (by decide)).2.le
      have granted : (WatchState.attempts environment placement call site
            (WatchState.setCallstack placement call site begun)).1 = true ↔
          WatchState.Available environment placement call site begun := by
        have same : (WatchState.setCallstack placement call site
            begun).value site = begun.value site := by
          rw [WatchState.value, WatchState.setCallstack_csMap]
        rw [← same] at low
        exact (WatchState.attempts_granted_iff_available succeed low).trans
          (WatchState.available_congr (WatchState.setCallstack_manager begun)
            (WatchState.setCallstack_csMap begun))
      refine ⟨_, _, WatchState.startWatch_of_found found, granted, ?_⟩
      rintro ⟨slot, way⟩
      exact granted.mpr (available_of_givesWay fits bounded greatest way)
  | mark | others => trivial

/-- Once a call site has the greatest ratio, because it has been marked or
because the history says so, every later call of `startWatch` from it that is not
throttled gets a slot exactly if one is available, in every continuation of the
run. -/
theorem marked_site_served
    (succeed : environment.AllSucceed)
    (fits : placement.fits site)
    {start : WatchHistory}
    (pooled : HashMap.Pooled timedFunctions start.state.csMap bindings)
    (bounded : RatiosLimited start.state.csMap)
    (unvisited : start.visits = [])
    {before : List WatchStep}
    (executed : Machine.run (step environment placement) start before =
      some history)
    (member : site ∈ bindings.map FiniteMap.Binding.address ∨
      site ∈ history.visits.map Prod.fst)
    (marked : (history.state.value site).watchedRatio =
      maxWatchRatioUpperbound)
    (after : List WatchStep) :
    Machine.Along (step environment placement)
      (ServesMarked environment placement site) history after := by
  have initially : Known (bindings.map FiniteMap.Binding.address) start :=
    ⟨⟨bindings, pooled, fun site known =>
      known.resolve_right (by simp [unvisited])⟩, bounded⟩
  have known : Known (bindings.map FiniteMap.Binding.address) history :=
    Machine.run_invariant_of_step
      (fun _ _ _ known stepped => (known.step stepped).1) initially executed
  have preserved (current : WatchHistory) (action : WatchStep)
      (next : WatchHistory)
      (holds : Known (bindings.map FiniteMap.Binding.address) current ∧
        (site ∈ bindings.map FiniteMap.Binding.address ∨
          site ∈ current.visits.map Prod.fst) ∧
        (current.state.value site).watchedRatio = maxWatchRatioUpperbound)
      (_ : True)
      (stepped : step environment placement current action = some next) :
      Known (bindings.map FiniteMap.Binding.address) next ∧
        (site ∈ bindings.map FiniteMap.Binding.address ∨
          site ∈ next.visits.map Prod.fst) ∧
        (next.state.value site).watchedRatio = maxWatchRatioUpperbound := by
    obtain ⟨known, member, marked⟩ := holds
    obtain ⟨knownNext, visited, kept⟩ := known.step stepped
    exact ⟨knownNext, member.imp id (visited site), kept site member marked⟩
  exact Machine.along_of_invariant preserved
    (fun current action holds _ =>
      holds.1.serves succeed fits holds.2.1 holds.2.2 action)
    ⟨known, member, marked⟩ (Machine.along_true _ _ _)

/-- A map in which nothing has been stored has no ratios out of bounds. -/
theorem ratiosLimited_start : RatiosLimited WatchState.start.csMap := by
  intro site
  have zero : (0 : Int) ≤ 0 ∧ (0 : Int) ≤ maxWatchRatioUpperbound := by decide
  exact zero

/-- The first call site of a process is marked after its first call. -/
theorem marked_site_served_first :
    ∃ history,
      Machine.run (step (pauseEnvironment 5000) samplePlacement)
          ⟨{ WatchState.start with manager := busyManager }, []⟩
          [.startWatch sampleCall, .mark firstSite] = some history ∧
        Machine.Along (step (pauseEnvironment 5000) samplePlacement)
          (ServesMarked (pauseEnvironment 5000) samplePlacement firstSite) history
          [.startWatch sampleCall, .startWatch sampleCall] := by
  obtain ⟨next, stepped, counting, -⟩ := counting_first 5000
  obtain ⟨history, marking⟩ :
      ∃ history,
        step (pauseEnvironment 5000) samplePlacement next (.mark firstSite) =
          some history := ⟨_, rfl⟩
  have executed : Machine.run (step (pauseEnvironment 5000) samplePlacement)
      ⟨{ WatchState.start with manager := busyManager }, []⟩
      [.startWatch sampleCall, .mark firstSite] = some history := by
    rw [Machine.run_cons, stepped, Option.bind_some, Machine.run_cons, marking]
    rfl
  rw [WatchHistory.step, Option.some.injEq] at marking
  have laid := HashMap.laid_initializeMap timedFunctions blankMap
    (by decide : 0 < callstackMapSize) (by decide)
  have fits : samplePlacement.fits firstSite := by
    have inside : (0 : Nat) < 0x100000 ∧ 0 < callstackMapSize := by decide
    exact inside
  refine ⟨_, executed, marked_site_served (fun _ => rfl) fits ⟨laid, rfl⟩
    ratiosLimited_start rfl executed (Or.inr ?_) ?_ _⟩
  · rw [← marking, counting.visits]
    exact List.mem_cons_self
  · rw [← marking, WatchState.value, HashMap.value_assign_self]
    rfl

end WatchHistory

end Causer
