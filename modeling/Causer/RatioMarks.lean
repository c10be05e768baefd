import Causer.RatioBounds

/-!
# The greatest ratio as a mark

The greatest ratio stands for a call site that is known to overflow.  The save
raises other ratios too, and keeps what exceeds the greatest one below it, but
not what equals it.
-/

namespace Causer

/-- What the save adds takes the ratio exactly to the greatest one. -/
def ExactHit (watchedCounter ratio : Int) : Prop :=
  watchedCounter < 2 ∧ ratio = 5000 ∨
    watchedCounter = 2 ∧ ratio = 6667 ∨
    watchedCounter = 3 ∧ ratio = 7500 ∨
    watchedCounter = 4 ∧ ratio = 8000

instance (watchedCounter ratio : Int) :
    Decidable (ExactHit watchedCounter ratio) :=
  inferInstanceAs (Decidable (_ ∨ _))

namespace Callstack

/-- A save that finds an overflowed call site writes the ratios as they are. -/
@[simp] theorem writtenRatio_zero
    {callstack : Callstack}
    (bounded : Bounded callstack.watchedRatio) :
    callstack.writtenRatio 0 = callstack.watchedRatio := by
  have greatest := bounded.2
  have added : boost callstack.watchedCounter 0 = 0 := by
    unfold boost
    split_ifs <;> simp
  unfold writtenRatio
  rw [added]
  dsimp only
  split_ifs <;> omega

/-- What the other saves add. -/
theorem boost_one (watchedCounter : Int) :
    boost watchedCounter 1 =
      if watchedCounter < 2 then 5000
      else if watchedCounter = 2 then 3333
      else if watchedCounter = 3 then 2500
      else if watchedCounter = 4 then 2000
      else 0 := by
  unfold boost
  split_ifs with few some two three four two three four
  · decide
  · subst two
    decide
  · subst three
    decide
  · subst four
    decide
  · omega
  · omega
  · omega
  · omega
  · rfl

/-- The other saves turn exactly these ratios into the greatest one. -/
theorem writtenRatio_one_eq_iff
    {callstack : Callstack}
    (smaller : callstack.watchedRatio ≠ maxWatchRatioUpperbound) :
    callstack.writtenRatio 1 = maxWatchRatioUpperbound ↔
      ExactHit callstack.watchedCounter callstack.watchedRatio := by
  unfold writtenRatio
  rw [if_pos smaller, boost_one]
  simp only [maxWatchRatioUpperbound, ExactHit] at smaller ⊢
  split_ifs <;> omega

end Callstack

namespace RunState

/-- Every call site with the greatest ratio has been marked. -/
def OnlyMarked (state : RunState) : Prop :=
  ∀ site ∈ state.entries ++ state.file,
    site.ratio = maxWatchRatioUpperbound → 0 < site.marks

instance (state : RunState) : Decidable state.OnlyMarked :=
  inferInstanceAs (Decidable (∀ _ ∈ _, _))

/-- A save finds an entry with the greatest ratio, or no unmarked entry's ratio
is one that is raised exactly to it. -/
def SavesNoHit (state : RunState) : RunAction → Prop
  | .saveHistoryInfo _ =>
      (∃ site ∈ state.entries, site.ratio = maxWatchRatioUpperbound) ∨
        ∀ site ∈ state.entries, site.marks = 0 →
          ¬ExactHit site.value.watchedCounter site.ratio
  | _ => True

instance (state : RunState) (action : RunAction) :
    Decidable (state.SavesNoHit action) :=
  match action with
  | .findOrAdd _ => isTrue trivial
  | .updateWatchedInfo _ _ _ _ => isTrue trivial
  | .mark _ => isTrue trivial
  | .saveHistoryInfo _ => inferInstanceAs (Decidable (_ ∨ _))
  | .loadHistoryInfo _ => isTrue trivial

/-- What the characterisation of the marks needs of a state. -/
structure MarkInvariant (state : RunState) : Prop where
  ratios : state.RatioInvariant
  /-- A run adds to the ratios until it has found a call site to overflow. -/
  boostratio : state.running = true → state.boostratio = 1

@[simp] theorem boostratio_findOrAdd
    (key : Callstack)
    (state : RunState) :
    (state.findOrAdd key).boostratio = state.boostratio := by
  unfold RunState.findOrAdd
  split_ifs <;> rfl

theorem MarkInvariant.step
    {state next : RunState}
    (invariant : state.MarkInvariant)
    {action : RunAction}
    (stepped : RunState.step state action = some next) :
    next.MarkInvariant := by
  refine ⟨invariant.ratios.step stepped, fun stillRunning => ?_⟩
  cases stepped_of_step stepped with
  | findOrAdd key running =>
      rw [boostratio_findOrAdd]
      exact invariant.boostratio running
  | updateWatchedInfo entry watched depth frames running =>
      exact invariant.boostratio running
  | mark entry running =>
      exact invariant.boostratio running
  | saveHistoryInfo visited running perm =>
      change false = true at stillRunning
      exact absurd stillRunning (by decide)
  | loadHistoryInfo relocate ended => rfl

theorem markInvariant_start : start.MarkInvariant :=
  ⟨ratioInvariant_start, fun _ => rfl⟩

section Steps

variable {state : RunState}

/-- A change that gives the greatest ratio only with a mark. -/
theorem OnlyMarked.change
    (marked : state.OnlyMarked)
    (entry : Nat)
    {update : Site → Site}
    (keeps : ∀ site ∈ state.entries,
      (site.ratio = maxWatchRatioUpperbound → 0 < site.marks) →
        (update site).ratio = maxWatchRatioUpperbound →
          0 < (update site).marks) :
    (state.change entry update).OnlyMarked := by
  intro site member greatest
  rcases List.mem_append.mp member with inside | inFile
  · rcases mem_change inside with before | ⟨former, before, rfl⟩
    · exact marked site (List.mem_append_left _ before) greatest
    · exact keeps former before
        (marked former (List.mem_append_left _ before)) greatest
  · exact marked site (List.mem_append_right _ inFile) greatest

theorem OnlyMarked.findOrAdd
    (marked : state.OnlyMarked)
    (key : Callstack) :
    (state.findOrAdd key).OnlyMarked := by
  unfold RunState.findOrAdd
  split_ifs
  · exact marked
  intro site member greatest
  rcases List.mem_append.mp member with inside | inFile
  · rcases List.mem_append.mp inside with before | new
    · exact marked site (List.mem_append_left _ before) greatest
    · rw [List.mem_singleton.mp new] at greatest
      exact absurd greatest (by decide : initWatchRatio ≠ _)
  · exact marked site (List.mem_append_right _ inFile) greatest

/-- An update that leaves a ratio at the greatest one has found it there. -/
theorem updateWatchedInfo_eq_maximum
    {watched : Bool}
    {ratio : Int}
    (bounded : Bounded ratio)
    (greatest : Causer.updateWatchedInfo watched ratio =
      maxWatchRatioUpperbound) :
    ratio = maxWatchRatioUpperbound := by
  have lower := (updateWatchedInfo_bounds watched bounded.1).2.1
  rw [greatest] at lower
  exact le_antisymm bounded.2 lower

theorem OnlyMarked.loadHistoryInfo
    (marked : state.OnlyMarked)
    (relocate : Word → Word) :
    (state.loadHistoryInfo relocate).OnlyMarked := by
  intro site member greatest
  rcases List.mem_append.mp member with inside | inFile
  · obtain ⟨record, found, rfl⟩ := List.mem_map.mp inside
    rw [Site.loaded_ratio] at greatest
    rw [Site.loaded_marks]
    exact marked record
      (List.mem_append_right _ (List.mem_of_mem_filter found)) greatest
  · exact marked site (List.mem_append_right _ inFile) greatest

/-- What the save makes of `boostratio`. -/
theorem savedBoostratio_eq
    (boostratio : Int)
    {visited : List Site}
    (visits : visited.Perm state.entries) :
    Callstack.savedBoostratio boostratio (visited.map Site.value) =
      if ∃ site ∈ state.entries, site.ratio = maxWatchRatioUpperbound then 0
      else boostratio := by
  have same : ((visited.map Site.value).any fun entry =>
      decide (entry.watchedRatio = maxWatchRatioUpperbound)) = true ↔
        ∃ site ∈ state.entries, site.ratio = maxWatchRatioUpperbound := by
    simp only [List.any_map, List.any_eq_true, Function.comp_apply,
      decide_eq_true_eq, visits.mem_iff]
  unfold Callstack.savedBoostratio
  simp only [same]

/-- What has to be marked once the call sites have been saved. -/
theorem onlyMarked_saveHistoryInfo
    (marked : state.OnlyMarked)
    {visited : List Site}
    (visits : visited.Perm state.entries) :
    (state.saveHistoryInfo visited).OnlyMarked ↔
      ∀ site ∈ state.entries,
        site.value.writtenRatio (Callstack.savedBoostratio state.boostratio
            (visited.map Site.value)) = maxWatchRatioUpperbound →
          0 < site.marks := by
  by_cases nonempty : 0 < state.entries.length
  · have file : (state.saveHistoryInfo visited).file =
        visited.map (Site.record (Callstack.savedBoostratio state.boostratio
          (visited.map Site.value))) := if_pos nonempty
    constructor
    · intro kept site member greatest
      refine kept (site.record _) (List.mem_append_right _ ?_) greatest
      rw [file]
      exact List.mem_map_of_mem (visits.mem_iff.mpr member)
    · intro raised site member greatest
      rcases List.mem_append.mp member with inside | inFile
      · exact marked site (List.mem_append_left _ inside) greatest
      · rw [file] at inFile
        obtain ⟨former, found, rfl⟩ := List.mem_map.mp inFile
        exact raised former (visits.mem_iff.mp found) greatest
  · have empty : state.entries = [] :=
      List.eq_nil_of_length_eq_zero (by omega)
    have file : (state.saveHistoryInfo visited).file = state.file :=
      if_neg nonempty
    constructor
    · intro _ site member
      rw [empty] at member
      exact absurd member List.not_mem_nil
    · intro _ site member greatest
      rw [file] at member
      exact marked site member greatest

/-- A save keeps the property exactly when it raises no unmarked call site to
the greatest ratio. -/
theorem onlyMarked_saveHistoryInfo_iff
    (invariant : state.RatioInvariant)
    (boostratio : state.boostratio = 1)
    (marked : state.OnlyMarked)
    {visited : List Site}
    (visits : visited.Perm state.entries) :
    (state.saveHistoryInfo visited).OnlyMarked ↔
      state.SavesNoHit (.saveHistoryInfo visited) := by
  rw [onlyMarked_saveHistoryInfo marked visits, savedBoostratio_eq _ visits,
    boostratio]
  by_cases found : ∃ site ∈ state.entries,
    site.ratio = maxWatchRatioUpperbound
  · rw [if_pos found]
    refine ⟨fun _ => Or.inl found, fun _ site member greatest => ?_⟩
    rw [Callstack.writtenRatio_zero (invariant.entries site member)] at greatest
    exact marked site (List.mem_append_left _ member) greatest
  · rw [if_neg found]
    have hits : ∀ site ∈ state.entries,
        (site.value.writtenRatio 1 = maxWatchRatioUpperbound ↔
          ExactHit site.value.watchedCounter site.ratio) :=
      fun site member => Callstack.writtenRatio_one_eq_iff
        fun greatest => found ⟨site, member, greatest⟩
    constructor
    · intro raised
      refine Or.inr fun site member unmarked hit => ?_
      have positive := raised site member ((hits site member).mpr hit)
      omega
    · rintro (greatest | misses) site member raised
      · exact absurd greatest found
      · by_contra unmarked
        exact misses site member (by omega) ((hits site member).mp raised)

/-- A step keeps the property exactly when it meets the condition. -/
theorem onlyMarked_step_iff
    {next : RunState}
    {action : RunAction}
    (invariant : state.MarkInvariant)
    (marked : state.OnlyMarked)
    (stepped : RunState.step state action = some next) :
    next.OnlyMarked ↔ state.SavesNoHit action := by
  cases stepped_of_step stepped with
  | findOrAdd key running =>
      exact iff_of_true (marked.findOrAdd key) trivial
  | updateWatchedInfo entry watched depth frames running =>
      refine iff_of_true (marked.change entry fun site member earlier => ?_)
        trivial
      intro greatest
      unfold Site.ratio at greatest
      rw [Callstack.updateWatchedInfo_ratio] at greatest
      exact earlier (updateWatchedInfo_eq_maximum
        (invariant.ratios.entries site member) greatest)
  | mark entry running =>
      exact iff_of_true
        (marked.change entry fun site _ _ _ => Nat.succ_pos site.marks) trivial
  | saveHistoryInfo visited running perm =>
      exact onlyMarked_saveHistoryInfo_iff invariant.ratios
        (invariant.boostratio running) marked perm
  | loadHistoryInfo relocate ended =>
      exact iff_of_true (marked.loadHistoryInfo relocate) trivial

/-- Over a whole chain of runs, only marked call sites have the greatest ratio
exactly when no save raises an unmarked one to it. -/
theorem onlyMarked_iff
    {actions : List RunAction}
    {final : RunState}
    (executed : run start actions = some final) :
    Machine.Always step OnlyMarked start actions ↔
      Machine.Along step SavesNoHit start actions := by
  have preserved : ∀ state action next, MarkInvariant state →
      RunState.step state action = some next → MarkInvariant next :=
    fun _ _ _ invariant stepped => invariant.step stepped
  have exactly : ∀ state action next, MarkInvariant state →
      OnlyMarked state → RunState.step state action = some next →
        (OnlyMarked next ↔ SavesNoHit state action) :=
    fun _ _ _ invariant marked stepped =>
      onlyMarked_step_iff invariant marked stepped
  exact Machine.always_iff_along_of_invariant preserved exactly
    markInvariant_start (by decide) executed

end Steps

/-- A run that begins with the file of earlier ones, calls one call site for
objects that are watched or not, and ends. -/
def nextRun (earlier : List RunAction) (watched : List Bool) :
    List RunAction :=
  saved (earlier ++ .loadHistoryInfo id :: watched.flatMap fun isWatched =>
    [.findOrAdd sampleKey, .updateWatchedInfo 0 isWatched 1 fun _ => 0x1000])

/-- A first run with one marked call site, and a second without. -/
def twoRuns : List RunAction :=
  nextRun markedRun [true, false]

theorem onlyMarked_iff_twoRuns :
    Machine.Always step OnlyMarked start twoRuns ↔
      Machine.Along step SavesNoHit start twoRuns := by
  have defined : (run start twoRuns).isSome = true := by decide +kernel
  obtain ⟨final, executed⟩ := Option.isSome_iff_exists.mp defined
  exact onlyMarked_iff executed

/-- A call site is watched three times in the first run and once in the fourth,
which calls it sixty-two times more.  Its ratio is 4000 then, and the fourth,
the fifth and the sixth save each add 2000. -/
def sixRuns : List RunAction :=
  let first := saved (([true, true, true]).flatMap fun isWatched =>
    [.findOrAdd sampleKey, .updateWatchedInfo 0 isWatched 1 fun _ => 0x1000])
  let third := nextRun (nextRun first []) []
  let fourth := nextRun third (true :: List.replicate 62 false)
  nextRun (nextRun fourth []) []

/-- The sixth save writes the greatest ratio for a call site that has never been
marked. -/
theorem sixRuns_maximum :
    ∃ final, run start sixRuns = some final ∧
      ∃ site ∈ final.file,
        site.ratio = maxWatchRatioUpperbound ∧ site.marks = 0 := by
  have reached : ∃ final ∈ run start sixRuns, ∃ site ∈ final.file,
      site.ratio = maxWatchRatioUpperbound ∧ site.marks = 0 := by
    decide +kernel
  exact reached

end RunState

end Causer
