import Causer.RatioHistory

/-!
# The bounds of a ratio

Over any chain of runs every ratio lies between its least and its greatest
value.  Within a run it rises only when its call site is marked, and once it is
the greatest value it stays so, in memory and through the file.
-/

namespace Causer

/-- The ratio is between its least and its greatest value. -/
def Bounded (ratio : Int) : Prop :=
  reductionToMin ≤ ratio ∧ ratio ≤ maxWatchRatioUpperbound

instance (ratio : Int) : Decidable (Bounded ratio) :=
  inferInstanceAs (Decidable (_ ∧ _))

/-- An update lowers a ratio, but not below the least one, and leaves the
greatest one. -/
theorem updateWatchedInfo_bounds
    (watched : Bool)
    {ratio : Int}
    (least : reductionToMin ≤ ratio) :
    reductionToMin ≤ updateWatchedInfo watched ratio ∧
      updateWatchedInfo watched ratio ≤ ratio ∧
      (ratio = maxWatchRatioUpperbound →
        updateWatchedInfo watched ratio = maxWatchRatioUpperbound) := by
  simp only [updateWatchedInfo, reductionToMin, watchedReduction,
    calledReduction, maxWatchRatioUpperbound] at least ⊢
  have halved : 0 ≤ Int.tdiv (ratio * 5) 10 ∧
      Int.tdiv (ratio * 5) 10 ≤ ratio := by
    rw [Int.tdiv_eq_ediv_of_nonneg (by omega)]
    omega
  split_ifs <;> omega

namespace Callstack

/-- What is added to a ratio is not negative. -/
theorem boost_nonneg
    (watchedCounter : Int)
    {boostratio : Int}
    (nonnegative : 0 ≤ boostratio) :
    0 ≤ boost watchedCounter boostratio := by
  have half : (0 : Int) ≤ Int.shiftRight 10000 1 := by decide
  unfold boost
  split_ifs with few some
  · exact Int.mul_nonneg half nonnegative
  · refine Int.mul_nonneg ?_ nonnegative
    exact Int.tdiv_nonneg (by decide) (by omega)
  · exact Int.le_refl 0

/-- What is written for a bounded ratio is bounded, and for the greatest ratio
it is the greatest. -/
theorem writtenRatio_bounds
    {boostratio : Int}
    (nonnegative : 0 ≤ boostratio)
    {callstack : Callstack}
    (bounded : Bounded callstack.watchedRatio) :
    Bounded (callstack.writtenRatio boostratio) ∧
      (callstack.watchedRatio = maxWatchRatioUpperbound →
        callstack.writtenRatio boostratio = maxWatchRatioUpperbound) := by
  obtain ⟨least, greatest⟩ := bounded
  have added := boost_nonneg callstack.watchedCounter nonnegative
  simp only [writtenRatio, Bounded, reductionToMin,
    maxWatchRatioUpperbound] at least greatest ⊢
  split_ifs <;> omega

theorem savedBoostratio_nonneg
    {boostratio : Int}
    (nonnegative : 0 ≤ boostratio)
    (entries : List Callstack) :
    0 ≤ savedBoostratio boostratio entries := by
  unfold savedBoostratio
  split_ifs
  · exact Int.le_refl 0
  · exact nonnegative

@[simp] theorem updateWatchedInfo_ratio
    (watched : Bool) (depth : Int) (frames : Frames)
    (callstack : Callstack) :
    (callstack.updateWatchedInfo watched depth frames).watchedRatio =
      Causer.updateWatchedInfo watched callstack.watchedRatio := by
  unfold updateWatchedInfo
  dsimp only
  split <;> rfl

/-- An update records frames only where none are recorded. -/
theorem updateWatchedInfo_depth
    (watched : Bool) (depth : Int) (frames : Frames)
    {callstack : Callstack}
    (recorded : 1 ≤ callstack.depth) :
    (callstack.updateWatchedInfo watched depth frames).depth =
      callstack.depth := by
  have different : callstack.depth ≠ 0 := by omega
  simp [updateWatchedInfo, different]

end Callstack

-- The hash value is general here, so that no comparison of terms computes one.
theorem Callstack.ratio_rehashed (callstack : Callstack) (frames : Frames)
    (hashcode : Word) :
    ({ callstack with
        stack := frames
        hashcode := hashcode } : Callstack).watchedRatio =
      callstack.watchedRatio := rfl

theorem Callstack.depth_rehashed (callstack : Callstack) (frames : Frames)
    (hashcode : Word) :
    ({ callstack with
        stack := frames
        hashcode := hashcode } : Callstack).depth =
      callstack.depth := rfl

theorem Site.loaded_watchedRatio (relocate : Word → Word) (site : Site) :
    (site.loaded relocate).value.watchedRatio = site.value.watchedRatio :=
  site.value.ratio_rehashed _ _

@[simp] theorem Site.loaded_ratio (relocate : Word → Word) (site : Site) :
    (site.loaded relocate).ratio = site.ratio :=
  site.loaded_watchedRatio relocate

@[simp] theorem Site.loaded_serial (relocate : Word → Word) (site : Site) :
    (site.loaded relocate).serial = site.serial := rfl

@[simp] theorem Site.loaded_depth (relocate : Word → Word) (site : Site) :
    (site.loaded relocate).value.depth = site.value.depth :=
  site.value.depth_rehashed _ _
@[simp] theorem Site.loaded_marks (relocate : Word → Word) (site : Site) :
    (site.loaded relocate).marks = site.marks := rfl

namespace RunState

/-- What every state of a chain satisfies. -/
structure RatioInvariant (state : RunState) : Prop where
  entries : ∀ site ∈ state.entries, Bounded site.ratio
  file : ∀ site ∈ state.file, Bounded site.ratio
  boostratio : 0 ≤ state.boostratio
  /-- Entries have different numbers, and so have records. -/
  nodup : (state.entries.map Site.serial).Nodup
  fileNodup : (state.file.map Site.serial).Nodup
  /-- No number has been given away that is still to come. -/
  serials : ∀ site ∈ state.entries ++ state.file,
    site.serial < state.serials
  /-- Between two runs each entry has a record. -/
  saved : state.running = false → ∀ site ∈ state.entries,
    ∃ record ∈ state.file,
      record.serial = site.serial ∧
        record.value.depth = site.value.depth ∧
        (site.ratio = maxWatchRatioUpperbound →
          record.ratio = maxWatchRatioUpperbound)

section Changes

variable {state : RunState} {entry : Nat} {update : Site → Site}

/-- An entry after one of them has been changed. -/
theorem mem_change
    {site : Site}
    (member : site ∈ (state.change entry update).entries) :
    site ∈ state.entries ∨
      ∃ former ∈ state.entries, site = update former := by
  obtain ⟨index, inside, rfl⟩ := List.mem_iff_getElem.mp member
  rw [change_entries, List.length_modify] at inside
  simp only [change_entries, List.getElem_modify]
  split_ifs
  · exact Or.inr ⟨_, List.getElem_mem inside, rfl⟩
  · exact Or.inl (List.getElem_mem inside)

/-- Where an entry is after one of them has been changed. -/
theorem exists_mem_change
    (entry : Nat) (update : Site → Site)
    {former : Site}
    (member : former ∈ state.entries) :
    ∃ site ∈ (state.change entry update).entries,
      site = former ∨ site = update former := by
  obtain ⟨index, inside, rfl⟩ := List.mem_iff_getElem.mp member
  have changed : index < (state.change entry update).entries.length := by
    simpa using inside
  refine ⟨_, List.getElem_mem changed, ?_⟩
  simp only [change_entries, List.getElem_modify]
  split_ifs
  · exact Or.inr rfl
  · exact Or.inl rfl

/-- A change that keeps numbers keeps their list. -/
theorem map_serial_change
    (keeps : ∀ site, (update site).serial = site.serial) :
    (state.change entry update).entries.map Site.serial =
      state.entries.map Site.serial := by
  apply List.ext_getElem
  · simp
  · intro index inside _
    simp only [List.getElem_map, change_entries, List.getElem_modify]
    split_ifs
    · exact keeps _
    · rfl

/-- A change of a running state that keeps numbers and bounds. -/
theorem RatioInvariant.change
    (invariant : state.RatioInvariant)
    (running : state.running = true)
    (keeps : ∀ site, (update site).serial = site.serial)
    (bounded : ∀ site ∈ state.entries, Bounded (update site).ratio) :
    (state.change entry update).RatioInvariant where
  entries := by
    intro site member
    rcases mem_change member with before | ⟨former, before, rfl⟩
    · exact invariant.entries site before
    · exact bounded former before
  file := invariant.file
  boostratio := invariant.boostratio
  nodup := by
    rw [map_serial_change keeps]
    exact invariant.nodup
  fileNodup := invariant.fileNodup
  serials := by
    intro site member
    rcases List.mem_append.mp member with inside | inFile
    · rcases mem_change inside with before | ⟨former, before, rfl⟩
      · exact invariant.serials site (List.mem_append_left _ before)
      · rw [keeps]
        exact invariant.serials former (List.mem_append_left _ before)
    · exact invariant.serials site (List.mem_append_right _ inFile)
  saved := fun stopped => by
    rw [change_running, running] at stopped
    exact absurd stopped (by simp)

end Changes

section Steps

variable {state next : RunState}

theorem RatioInvariant.findOrAdd
    (invariant : state.RatioInvariant)
    (running : state.running = true)
    (key : Callstack) :
    (state.findOrAdd key).RatioInvariant := by
  unfold RunState.findOrAdd
  split_ifs
  · exact invariant
  have older : ∀ serial ∈ state.entries.map Site.serial,
      serial < state.serials := by
    intro serial member
    obtain ⟨site, inside, rfl⟩ := List.mem_map.mp member
    exact invariant.serials site (List.mem_append_left _ inside)
  refine
    { entries := fun site member => ?_
      file := invariant.file
      boostratio := invariant.boostratio
      nodup := ?_
      fileNodup := invariant.fileNodup
      serials := fun site member => ?_
      saved := fun stopped => ?_ }
  · rcases List.mem_append.mp member with before | new
    · exact invariant.entries site before
    · rw [List.mem_singleton.mp new]
      exact (by decide : Bounded initWatchRatio)
  · rw [List.map_append, List.map_singleton, List.nodup_append]
    refine ⟨invariant.nodup, List.nodup_singleton _, ?_⟩
    intro serial member other isNew
    rw [List.mem_singleton.mp isNew]
    exact Nat.ne_of_lt (older serial member)
  · rw [List.mem_append, List.mem_append, List.mem_singleton] at member
    rcases member with (before | rfl) | inFile
    · have earlier := invariant.serials site (List.mem_append_left _ before)
      exact Nat.lt_succ_of_lt earlier
    · exact Nat.lt_succ_self _
    · have earlier := invariant.serials site (List.mem_append_right _ inFile)
      exact Nat.lt_succ_of_lt earlier
  · rw [running] at stopped
    exact absurd stopped (by simp)

/-- After the save each entry has a record. -/
theorem RatioInvariant.saveHistoryInfo
    (invariant : state.RatioInvariant)
    {visited : List Site}
    (visits : visited.Perm state.entries) :
    (state.saveHistoryInfo visited).RatioInvariant := by
  have nonnegative : 0 ≤ Callstack.savedBoostratio state.boostratio
      (visited.map Site.value) :=
    Callstack.savedBoostratio_nonneg invariant.boostratio _
  by_cases nonempty : 0 < state.entries.length
  · have saved : (state.saveHistoryInfo visited).file =
        visited.map (Site.record (Callstack.savedBoostratio state.boostratio
          (visited.map Site.value))) := if_pos nonempty
    refine
      { entries := invariant.entries
        file := fun site member => ?_
        boostratio := nonnegative
        nodup := invariant.nodup
        fileNodup := ?_
        serials := fun site member => ?_
        saved := fun _ site member => ?_ }
    · rw [saved] at member
      obtain ⟨former, inside, rfl⟩ := List.mem_map.mp member
      exact (Callstack.writtenRatio_bounds nonnegative
        (invariant.entries former (visits.mem_iff.mp inside))).1
    · rw [saved, List.map_map]
      exact (visits.map Site.serial).nodup_iff.mpr invariant.nodup
    · rcases List.mem_append.mp member with inside | inFile
      · exact invariant.serials site (List.mem_append_left _ inside)
      · rw [saved] at inFile
        obtain ⟨former, inside, rfl⟩ := List.mem_map.mp inFile
        exact invariant.serials former
          (List.mem_append_left _ (visits.mem_iff.mp inside))
    · refine ⟨site.record (Callstack.savedBoostratio state.boostratio
        (visited.map Site.value)), ?_, rfl, rfl, fun greatest =>
        (Callstack.writtenRatio_bounds nonnegative
          (invariant.entries site member)).2 greatest⟩
      rw [saved]
      exact List.mem_map_of_mem (visits.mem_iff.mpr member)
  · have empty : state.entries = [] :=
      List.eq_nil_of_length_eq_zero (by omega)
    have kept : (state.saveHistoryInfo visited).file = state.file :=
      if_neg nonempty
    refine
      { entries := invariant.entries
        file := ?_
        boostratio := nonnegative
        nodup := invariant.nodup
        fileNodup := ?_
        serials := ?_
        saved := fun _ site member => ?_ }
    · rw [kept]
      exact invariant.file
    · rw [kept]
      exact invariant.fileNodup
    · rw [kept]
      exact invariant.serials
    · change site ∈ state.entries at member
      rw [empty] at member
      exact absurd member List.not_mem_nil

/-- The entries of the next run are those of the records with a frame. -/
theorem RatioInvariant.loadHistoryInfo
    (invariant : state.RatioInvariant)
    (relocate : Word → Word) :
    (state.loadHistoryInfo relocate).RatioInvariant := by
  have fromFile : ∀ site ∈ (state.loadHistoryInfo relocate).entries,
      ∃ record ∈ state.file, site = record.loaded relocate := by
    intro site member
    obtain ⟨record, inside, rfl⟩ := List.mem_map.mp member
    exact ⟨record, List.mem_of_mem_filter inside, rfl⟩
  refine
    { entries := fun site member => ?_
      file := invariant.file
      boostratio := Int.zero_le_ofNat 1
      nodup := ?_
      fileNodup := invariant.fileNodup
      serials := fun site member => ?_
      saved := fun stopped => ?_ }
  · obtain ⟨record, inside, rfl⟩ := fromFile site member
    rw [Site.loaded_ratio]
    exact invariant.file record inside
  · have sameNumbers : Site.serial ∘ Site.loaded relocate = Site.serial :=
      funext (Site.loaded_serial relocate)
    rw [RunState.loadHistoryInfo, List.map_map, sameNumbers]
    exact (List.filter_sublist.map Site.serial).nodup invariant.fileNodup
  · rcases List.mem_append.mp member with inside | inFile
    · obtain ⟨record, inFile, rfl⟩ := fromFile site inside
      rw [Site.loaded_serial]
      exact invariant.serials record (List.mem_append_right _ inFile)
    · exact invariant.serials site (List.mem_append_right _ inFile)
  · change true = false at stopped
    exact absurd stopped (by decide)

/-- Every step keeps the invariant. -/
theorem RatioInvariant.step
    (invariant : state.RatioInvariant)
    {action : RunAction}
    (stepped : RunState.step state action = some next) :
    next.RatioInvariant := by
  cases stepped_of_step stepped with
  | findOrAdd key running =>
      exact invariant.findOrAdd running key
  | updateWatchedInfo entry watched depth frames running =>
      refine invariant.change running (fun _ => rfl) fun site member => ?_
      obtain ⟨least, greatest⟩ := invariant.entries site member
      obtain ⟨stillLeast, lower, -⟩ := updateWatchedInfo_bounds watched least
      unfold Site.ratio
      rw [Callstack.updateWatchedInfo_ratio]
      exact ⟨stillLeast, lower.trans greatest⟩
  | mark entry running =>
      exact invariant.change running (fun _ => rfl) fun _ _ =>
        (by decide : Bounded maxWatchRatioUpperbound)
  | saveHistoryInfo visited running perm =>
      exact invariant.saveHistoryInfo perm
  | loadHistoryInfo relocate ended =>
      exact invariant.loadHistoryInfo relocate

theorem ratioInvariant_start : start.RatioInvariant where
  entries := by simp
  file := by simp
  boostratio := by decide
  nodup := List.nodup_nil
  fileNodup := List.nodup_nil
  serials := by simp
  saved := by simp

/-- The invariant holds in every state of a chain. -/
theorem ratioInvariant_of_run
    {actions : List RunAction}
    {final : RunState}
    (executed : run start actions = some final) :
    final.RatioInvariant :=
  Machine.run_invariant_of_step (fun _ _ _ invariant stepped =>
    invariant.step stepped) ratioInvariant_start executed

/-- The call sites of a run, or between two runs those of the file. -/
def current (state : RunState) : List Site :=
  if state.running then state.entries else state.file

/-- Each entry is still there, and it has been marked or its ratio has not
become greater. -/
def Descends (before after : RunState) : Prop :=
  ∀ site ∈ before.entries, ∃ later ∈ after.entries,
    later.serial = site.serial ∧
      (site.marks < later.marks ∨
        later.marks = site.marks ∧ later.ratio ≤ site.ratio)

/-- Each call site with a frame and the greatest ratio still has it. -/
def Retains (before after : RunState) : Prop :=
  ∀ site ∈ before.current, site.ratio = maxWatchRatioUpperbound →
    1 ≤ site.value.depth →
      ∃ later ∈ after.current,
        later.serial = site.serial ∧
          later.ratio = maxWatchRatioUpperbound ∧ 1 ≤ later.value.depth

theorem Descends.trans
    {first second third : RunState}
    (before : Descends first second)
    (after : Descends second third) :
    Descends first third := by
  intro site member
  obtain ⟨middle, inside, sameNumber, earlier⟩ := before site member
  obtain ⟨later, found, stillSame, rest⟩ := after middle inside
  refine ⟨later, found, stillSame.trans sameNumber, ?_⟩
  rcases earlier with marked | ⟨unmarked, lower⟩ <;>
    rcases rest with markedLater | ⟨unmarkedLater, lowerLater⟩
  · exact Or.inl (marked.trans markedLater)
  · exact Or.inl (unmarkedLater ▸ marked)
  · exact Or.inl (unmarked ▸ markedLater)
  · exact Or.inr ⟨unmarkedLater.trans unmarked, lowerLater.trans lower⟩

theorem Retains.trans
    {first second third : RunState}
    (before : Retains first second)
    (after : Retains second third) :
    Retains first third := by
  intro site member greatest recorded
  obtain ⟨middle, inside, sameNumber, stillGreatest, stillRecorded⟩ :=
    before site member greatest recorded
  obtain ⟨later, found, sameLater, rest⟩ :=
    after middle inside stillGreatest stillRecorded
  exact ⟨later, found, sameLater.trans sameNumber, rest⟩

/-- Entries that are all still there have not risen. -/
theorem descends_of_subset
    (remain : state.entries ⊆ next.entries) :
    Descends state next := fun site member =>
  ⟨site, remain member, rfl, Or.inr ⟨rfl, le_rfl⟩⟩

/-- Call sites that are all still there keep their ratio. -/
theorem retains_of_subset
    (remain : state.current ⊆ next.current) :
    Retains state next := fun site member greatest recorded =>
  ⟨site, remain member, rfl, greatest, recorded⟩

theorem descends_change
    {entry : Nat} {update : Site → Site}
    (keeps : ∀ site, (update site).serial = site.serial)
    (lowers : ∀ site ∈ state.entries, site.marks < (update site).marks ∨
      (update site).marks = site.marks ∧ (update site).ratio ≤ site.ratio) :
    Descends state (state.change entry update) := by
  intro site member
  obtain ⟨later, found, same | changed⟩ :=
    exists_mem_change entry update member
  · exact ⟨later, found, by rw [same], Or.inr (by simp [same])⟩
  · subst changed
    exact ⟨update site, found, keeps site, lowers site member⟩

theorem retains_change
    (running : state.running = true)
    {entry : Nat} {update : Site → Site}
    (keeps : ∀ site, (update site).serial = site.serial)
    (retained : ∀ site ∈ state.entries,
      site.ratio = maxWatchRatioUpperbound →
        (update site).ratio = maxWatchRatioUpperbound)
    (recorded : ∀ site, 1 ≤ site.value.depth →
      (update site).value.depth = site.value.depth) :
    Retains state (state.change entry update) := by
  intro site member greatest deep
  have inside : site ∈ state.entries := by
    rwa [current, if_pos running] at member
  have still : (state.change entry update).current =
      (state.change entry update).entries := if_pos running
  rw [still]
  obtain ⟨later, found, same | changed⟩ :=
    exists_mem_change entry update inside
  · subst same
    exact ⟨later, found, rfl, greatest, deep⟩
  · subst changed
    refine ⟨update site, found, keeps site, retained site inside greatest, ?_⟩
    rw [recorded site deep]
    exact deep

theorem entries_subset_findOrAdd
    (key : Callstack) :
    state.entries ⊆ (state.findOrAdd key).entries := by
  unfold RunState.findOrAdd
  split_ifs
  · exact List.Subset.refl _
  · exact List.subset_append_left _ _

@[simp] theorem running_findOrAdd
    (key : Callstack) :
    (state.findOrAdd key).running = state.running := by
  unfold RunState.findOrAdd
  split_ifs <;> rfl

/-- A run saves every call site that it has. -/
theorem retains_saveHistoryInfo
    (invariant : state.RatioInvariant)
    (running : state.running = true)
    {visited : List Site}
    (visits : visited.Perm state.entries) :
    Retains state (state.saveHistoryInfo visited) := by
  intro site member greatest deep
  rw [current, if_pos running] at member
  obtain ⟨record, found, sameNumber, sameDepth, stillGreatest⟩ :=
    (invariant.saveHistoryInfo visits).saved rfl site member
  exact ⟨record, found, sameNumber, stillGreatest greatest,
    sameDepth.symm ▸ deep⟩

/-- The next run has an entry for every record with a frame. -/
theorem retains_loadHistoryInfo
    (stopped : ¬state.running = true)
    (relocate : Word → Word) :
    Retains state (state.loadHistoryInfo relocate) := by
  intro site member greatest deep
  rw [current, if_neg stopped] at member
  have kept : site ∈ state.file.filter fun site => ¬site.value.depth < 1 := by
    rw [List.mem_filter]
    exact ⟨member, decide_eq_true (by omega)⟩
  refine ⟨site.loaded relocate, List.mem_map_of_mem kept, rfl, ?_, ?_⟩
  · rw [Site.loaded_ratio]
    exact greatest
  · rw [Site.loaded_depth]
    exact deep

/-- The next run has not begun. -/
def WithinRun : RunAction → Prop
  | .loadHistoryInfo _ => False
  | _ => True

instance (action : RunAction) : Decidable (WithinRun action) :=
  match action with
  | .findOrAdd _ => isTrue trivial
  | .updateWatchedInfo _ _ _ _ => isTrue trivial
  | .mark _ => isTrue trivial
  | .saveHistoryInfo _ => isTrue trivial
  | .loadHistoryInfo _ => isFalse id

/-- A step of a run raises a ratio only as a mark. -/
theorem Descends.step
    (invariant : state.RatioInvariant)
    {action : RunAction}
    (within : WithinRun action)
    (stepped : RunState.step state action = some next) :
    Descends state next := by
  cases stepped_of_step stepped with
  | findOrAdd key running =>
      exact descends_of_subset (entries_subset_findOrAdd key)
  | updateWatchedInfo entry watched depth frames running =>
      refine descends_change (fun _ => rfl) fun site member => Or.inr ⟨rfl, ?_⟩
      have least := (invariant.entries site member).1
      unfold Site.ratio
      rw [Callstack.updateWatchedInfo_ratio]
      exact (updateWatchedInfo_bounds watched least).2.1
  | mark entry running =>
      exact descends_change (fun _ => rfl) fun site _ =>
        Or.inl (Nat.lt_succ_self site.marks)
  | saveHistoryInfo visited running perm =>
      exact descends_of_subset (List.Subset.refl _)
  | loadHistoryInfo relocate ended => exact absurd within id

/-- No step takes the greatest ratio away. -/
theorem Retains.step
    (invariant : state.RatioInvariant)
    {action : RunAction}
    (stepped : RunState.step state action = some next) :
    Retains state next := by
  cases stepped_of_step stepped with
  | findOrAdd key running =>
      apply retains_of_subset
      rw [current, current, running_findOrAdd, if_pos running, if_pos running]
      exact entries_subset_findOrAdd key
  | updateWatchedInfo entry watched depth frames running =>
      refine retains_change running (fun _ => rfl) ?_ fun site recorded =>
        Callstack.updateWatchedInfo_depth watched depth frames recorded
      intro site member greatest
      have least := (invariant.entries site member).1
      unfold Site.ratio
      rw [Callstack.updateWatchedInfo_ratio]
      exact (updateWatchedInfo_bounds watched least).2.2 greatest
  | mark entry running =>
      exact retains_change running (fun _ => rfl) (fun _ _ _ => rfl)
        fun _ _ => rfl
  | saveHistoryInfo visited running perm =>
      exact retains_saveHistoryInfo invariant running perm
  | loadHistoryInfo relocate ended =>
      exact retains_loadHistoryInfo ended relocate

theorem descends_of_run
    {actions : List RunAction}
    (invariant : state.RatioInvariant)
    (within : ∀ action ∈ actions, WithinRun action)
    (executed : run state actions = some next) :
    Descends state next := by
  have preserved : ∀ reached action following,
      reached.RatioInvariant ∧ Descends state reached →
        WithinRun action → RunState.step reached action = some following →
          following.RatioInvariant ∧ Descends state following := by
    intro reached action following earlier met stepped
    obtain ⟨holds, descended⟩ := earlier
    exact ⟨holds.step stepped,
      descended.trans (Descends.step holds met stepped)⟩
  exact (Machine.run_invariant preserved
    ⟨invariant, descends_of_subset (List.Subset.refl _)⟩
    (Machine.along_of_forall within) executed).2

theorem retains_of_run
    {actions : List RunAction}
    (invariant : state.RatioInvariant)
    (executed : run state actions = some next) :
    Retains state next := by
  have preserved : ∀ reached action following,
      reached.RatioInvariant ∧ Retains state reached →
        RunState.step reached action = some following →
          following.RatioInvariant ∧ Retains state following := by
    intro reached action following earlier stepped
    obtain ⟨holds, retained⟩ := earlier
    exact ⟨holds.step stepped, retained.trans (Retains.step holds stepped)⟩
  exact (Machine.run_invariant_of_step preserved
    ⟨invariant, retains_of_subset (List.Subset.refl _)⟩ executed).2

/-- In every state of a chain of runs each ratio, in memory and in the file, is
between the least and the greatest value; as long as the run goes on no entry's
ratio rises unless it is marked; and over the whole chain a call site with a
frame and the greatest ratio keeps that ratio. -/
theorem ratios_bounded_and_kept
    {actions laterActions : List RunAction}
    {middle final : RunState}
    (executed : run start actions = some middle)
    (continued : run middle laterActions = some final) :
    (∀ site ∈ middle.entries ++ middle.file, Bounded site.ratio) ∧
      (middle.entries.map Site.serial).Nodup ∧
      (middle.file.map Site.serial).Nodup ∧
      ((∀ action ∈ laterActions, WithinRun action) →
        Descends middle final) ∧
      Retains middle final := by
  have invariant : middle.RatioInvariant := ratioInvariant_of_run executed
  refine ⟨fun site member => ?_, invariant.nodup, invariant.fileNodup,
    fun within => descends_of_run invariant within continued,
    retains_of_run invariant continued⟩
  rcases List.mem_append.mp member with inside | inFile
  · exact invariant.entries site inside
  · exact invariant.file site inFile

end Steps

/-- The record with which `startWatch` looks up a call site. -/
def sampleKey : Callstack :=
  let key : Callstack := ⟨0, 0, 0, 0, 0x40, 0, fun _ => 0x1000⟩
  { key with hashcode := key.hash }

/-- The end of a first run that saves its call sites in their order. -/
def saved (actions : List RunAction) : List RunAction :=
  actions ++ [.saveHistoryInfo ((run start actions).elim [] RunState.entries)]

/-- A call site is watched, found to be overflowed, and saved. -/
def markedRun : List RunAction :=
  saved [.findOrAdd sampleKey,
    .updateWatchedInfo 0 true 1 fun _ => 0x1000, .mark 0]

/-- In the next run it is found again and watched again. -/
def markedLater : List RunAction :=
  [.loadHistoryInfo (· + 0x2000), .findOrAdd sampleKey,
    .updateWatchedInfo 0 true 1 fun _ => 0x3000]

theorem ratios_bounded_and_kept_markedRun :
    ∃ middle final,
      run start markedRun = some middle ∧
        run middle markedLater = some final ∧
        (∀ site ∈ middle.entries ++ middle.file, Bounded site.ratio) ∧
        (middle.entries.map Site.serial).Nodup ∧
        (middle.file.map Site.serial).Nodup ∧
        ((∀ action ∈ markedLater, WithinRun action) →
          Descends middle final) ∧
        Retains middle final := by
  have defined : (run start (markedRun ++ markedLater)).isSome = true := by
    decide +kernel
  obtain ⟨final, executed⟩ := Option.isSome_iff_exists.mp defined
  obtain ⟨middle, first, second⟩ := Machine.run_split executed
  exact ⟨middle, final, first, second, ratios_bounded_and_kept first second⟩

end RunState

end Causer
