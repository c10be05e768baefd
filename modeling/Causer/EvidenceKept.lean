import Causer.HeapRuns

/-!
# What happens to the evidence of an overflow

The tail word of an object is looked at when the object goes through
`checkPointer`.  Every way out of free and realloc does that, except the one on
which realloc keeps the block: it writes a fresh tail word over the damaged
one, and the call site is not blamed.
-/

namespace Causer

open ByteMemory WordArithmetic ObjectGuard

/-- Call sites are recorded for permanent objects only, after initialisation,
and no ratio exceeds the maximum. -/
structure SitesInvariant (state : HeapState) : Prop where
  recorded : ∀ object ∈ state.live, object.callstack ≠ 0 →
    object.temporary = false ∧ state.heap.libInitialized = true
  bounded : RatiosBounded state.heap.watchedRatio

/-- Whether a call on the object ends on the path of realloc that keeps the
block. -/
def KeepsBlock (arena : Arena) (state : HeapState) (object : Object) :
    HeapAction → Prop
  | .realloc _ sz answer watch =>
      0 < sz ∧ sz < 2 ^ 63 ∧
        reportedSize object =
          reportedSize (reallocBuffer arena state sz answer watch)
  | _ => False

/-- A call of free or realloc on the object. -/
def ReleasesOrResizes (object : Object) : HeapAction → Prop
  | .free ptr => ptr = object.start
  | .realloc ptr _ _ _ => ptr = object.start
  | _ => False

section

variable {arena : Arena} {state next : HeapState} {object : Object}

/-- A release changes ratios only by setting one to the maximum. -/
theorem Released.bounded
    {before after : Heap}
    (released : Released before after object)
    (bounded : RatiosBounded before.watchedRatio) :
    RatiosBounded after.watchedRatio := by
  have blamedBounded : ∀ {middle : Heap} {callstack : Nat},
      Blamed before middle callstack → RatiosBounded middle.watchedRatio := by
    intro middle callstack blamed site ratio found
    by_cases unrecorded : callstack = 0
    · rw [blamed.unrecorded unrecorded] at found
      exact bounded site ratio found
    · rw [blamed.ratio unrecorded] at found
      by_cases same : site = callstack
      · subst same
        rw [Function.update_self, Option.some.injEq] at found
        exact found.ge
      · rw [Function.update_of_ne same] at found
        exact bounded site ratio found
  cases released with
  | temporary isTemporary same => rwa [same]
  | good notTemporary head tail result =>
      rwa [result, Real.free_watchedRatio]
  | overflowed notTemporary head tail middle blamed result =>
      rw [result, Real.free_watchedRatio]
      change RatiosBounded middle.watchedRatio
      exact blamedBounded blamed
  | lost notTemporary noHead head found blamed => exact blamedBounded blamed

/-- A release of an object whose head word is intact and whose tail word is
not blames its call site. -/
theorem Released.blames
    {before after : Heap}
    (released : Released before after object)
    (fits : object.Fits)
    (permanent : object.temporary = false)
    (recorded : object.callstack ≠ 0)
    (holds : Holds before.memory object.guard object.base object.size
      object.callstack)
    (head : HasHead before.memory object.guard)
    (noTail : ¬HasTail before.memory object.guard object.size) :
    after.watchedRatio object.callstack = some maxWatchRatioUpperbound := by
  cases released with
  | temporary isTemporary same =>
      rw [permanent] at isTemporary
      cases isTemporary
  | good notTemporary head tail result =>
      exact absurd ((isGoodTail_iff_hasTail fits holds).mp tail) noTail
  | overflowed notTemporary head tail middle blamed result =>
      rw [holds.callstack] at blamed
      rw [result, Real.free_watchedRatio, blamed.ratio recorded,
        Function.update_self]
  | lost notTemporary noHead found search blamed => exact absurd head noHead

theorem SitesInvariant.handOut
    {after : Heap}
    (invariant : SitesInvariant state)
    (allocated : Allocated arena state.heap after object) :
    SitesInvariant (state.handOut after object) := by
  rw [HeapState.handOut_of_fits allocated.fits]
  refine ⟨?_, allocated.ratios.bounded invariant.bounded⟩
  intro other live recorded
  rcases List.mem_append.mp live with former | new
  · obtain ⟨permanent, initialised⟩ :=
      invariant.recorded other former recorded
    exact ⟨permanent, allocated.libInitialized.trans initialised⟩
  · rw [List.mem_singleton.mp new] at recorded ⊢
    have initialised := allocated.recorded recorded
    exact ⟨allocated.permanent initialised,
      allocated.libInitialized.trans initialised⟩

theorem SitesInvariant.release
    {after : Heap}
    (invariant : SitesInvariant state)
    (released : Released state.heap after object)
    (libInitialized : after.libInitialized = state.heap.libInitialized) :
    SitesInvariant (state.release after object) := by
  refine ⟨?_, released.bounded invariant.bounded⟩
  intro other otherLive recorded
  obtain ⟨permanent, initialised⟩ :=
    invariant.recorded other (List.mem_filter.mp otherLive).1 recorded
  exact ⟨permanent, libInitialized.trans initialised⟩

/-- A temporary object is not kept once threads may be watched. -/
theorem SitesInvariant.keep
    {sz : Nat}
    {answer : Block}
    {watch : Option (Watch × Watch)}
    {after : Heap}
    (invariant : SitesInvariant state)
    (live : object ∈ state.live)
    (sameSize : reportedSize object =
      reportedSize (reallocBuffer arena state sz answer watch))
    (bufferFits : (reallocBuffer arena state sz answer watch).Fits)
    (valid : ∀ found ∈ watch.map Prod.snd, found.Valid state.heap)
    (kept : KeptInPlace arena state object sz
      (reallocBuffer arena state sz answer watch).block (watch.map Prod.snd)
      after) :
    SitesInvariant
      (state.reallocated arena object sz answer watch object.start after) := by
  rw [HeapState.reallocated_kept]
  refine ⟨?_, kept.ratios.bounded invariant.bounded⟩
  intro other otherLive recorded
  rcases List.mem_append.mp otherLive with former | new
  · obtain ⟨permanent, initialised⟩ :=
      invariant.recorded other (List.mem_filter.mp former).1 recorded
    exact ⟨permanent, kept.libInitialized.trans initialised⟩
  · rw [List.mem_singleton.mp new] at recorded ⊢
    cases watch with
    | none =>
        obtain ⟨permanent, initialised⟩ :=
          invariant.recorded object live recorded
        exact ⟨permanent, kept.libInitialized.trans initialised⟩
    | some pair =>
        have initialised := (valid pair.2 rfl).2.2
        refine ⟨?_, kept.libInitialized.trans initialised⟩
        change object.temporary = false
        have guardInside := bufferFits.guardInside
        have tailInside := bufferFits.tailInside
        have permanent : (reallocBuffer arena state sz answer
            (some pair)).temporary = false := by
          simp [initialised]
        by_contra temporary
        rw [reportedSize, if_pos (Bool.eq_true_of_not_eq_false temporary),
          reportedSize, permanent, if_neg Bool.false_ne_true] at sameSize
        omega

/-- The steps keep the invariant of the call sites. -/
theorem Effect.sites
    {label : HeapAction}
    (effect : Effect arena state label next)
    (layout : Layout arena state)
    (invariant : SitesInvariant state) :
    SitesInvariant next := by
  cases effect with
  | nothing libInitialized stays result =>
      rw [result]
      exact ⟨fun object live recorded =>
        ⟨(invariant.recorded object live recorded).1,
          stays (invariant.recorded object live recorded).2⟩,
        invariant.bounded⟩
  | written address bytes isWrite result =>
      rw [result]
      exact ⟨invariant.recorded, invariant.bounded⟩
  | allocated object after allocated serial result =>
      rw [result]
      exact invariant.handOut allocated
  | released object after live pointer released result =>
      rw [result]
      exact invariant.release released
        (released.returned pointer).libInitialized
  | kept object sz answer watch after live isRealloc pointer sameSize
      bufferFits tailInside valid bufferApart kept result =>
      rw [result]
      exact invariant.keep live sameSize bufferFits valid kept
  | moved object sz answer watch middle after live isRealloc pointer placement
      released result =>
      have copied := placement.copyInto object
        (min_le_right (reportedSize object) sz)
      have returned := released.returned fun _ =>
        pointer.of_agreesOn (layout.agrees_of_allocated copied (Or.inl live))
      have handedOut := invariant.handOut copied
      rw [HeapState.handOut_of_fits copied.fits] at handedOut
      rw [result, HeapState.reallocated_moved layout live copied,
        HeapState.handOut_of_fits copied.fits]
      exact handedOut.release released returned.libInitialized

end

/-- Respectful runs keep the layout and the invariant of the call sites. -/
theorem sites_of_run
    {arena : Arena}
    {heap : Heap}
    {labels : List HeapAction}
    {final : HeapState}
    (sound : heap.Sound arena)
    (bounded : RatiosBounded heap.watchedRatio)
    (respects : Machine.Along (HeapState.step arena) (Respects arena)
      (HeapState.start heap) labels)
    (executed : Machine.run (HeapState.step arena) (HeapState.start heap)
      labels = some final) :
    Layout arena final ∧ SitesInvariant final := by
  have preserved : ∀ state label next,
      Layout arena state ∧ SitesInvariant state →
      Respects arena state label →
      HeapState.step arena state label = some next →
      Layout arena next ∧ SitesInvariant next := by
    rintro state label next ⟨layout, invariant⟩ respectful stepped
    have effect := effect_of_step layout respectful stepped
    exact ⟨effect.layout layout, effect.sites layout invariant⟩
  have initially : SitesInvariant (HeapState.start heap) :=
    ⟨fun object live => absurd (Or.inl live)
      (HeapState.not_placed_start object), bounded⟩
  exact Machine.run_invariant preserved ⟨layout_start sound, initially⟩
    respects executed

section

variable {arena : Arena} {state next : HeapState} {object : Object}

/-- The end of a call of realloc that does not keep the block blames the call
site, and one that keeps the block leaves its ratio as it was. -/
theorem ReallocEnd.evidence
    {sz result : Nat}
    {answer : Block}
    {watch : Option (Watch × Watch)}
    {after : Heap}
    (ended : ReallocEnd arena state object sz answer watch result after)
    (layout : Layout arena state)
    (invariant : SitesInvariant state)
    (live : object ∈ state.live)
    (validSecond : ∀ found ∈ watch.map Prod.snd, found.Valid state.heap)
    (recorded : object.callstack ≠ 0)
    (holds : Holds state.heap.memory object.guard object.base object.size
      object.callstack)
    (head : HasHead state.heap.memory object.guard)
    (noTail : ¬HasTail state.heap.memory object.guard object.size) :
    after.watchedRatio object.callstack = some maxWatchRatioUpperbound ↔
      state.heap.watchedRatio object.callstack =
          some maxWatchRatioUpperbound ∨
        ¬KeepsBlock arena state object
          (.realloc object.start sz answer watch) := by
  have fits := layout.fits object (Or.inl live)
  obtain ⟨permanent, initialised⟩ := invariant.recorded object live recorded
  cases ended with
  | freed nothing resultEq released =>
      have blamed := released.blames fits permanent recorded holds head noTail
      refine iff_of_true blamed (Or.inr fun keeps => ?_)
      have := keeps.1
      have := keeps.2.1
      omega
  | kept szPos szLt sameSize middle freed placement bufferFreed resultEq
      afterEq =>
      have kept := keptInPlace layout (Or.inl live) szLt validSecond
        (placement (Or.inl initialised)) bufferFreed
      rw [← afterEq] at kept
      constructor
      · intro maximal
        exact Or.inl (kept.ratios.onlyMaximal invariant.bounded _ maximal)
      · rintro (maximal | notKept)
        · exact kept.ratios.maximal _ maximal
        · exact absurd ⟨szPos, szLt, sameSize⟩ notKept
  | moved szPos szLt differentSize middle placement resultEq released =>
      have copied := (placement (Or.inl initialised)).copyInto object
        (min_le_right (reportedSize object) sz)
      have agrees := layout.agrees_of_allocated copied (Or.inl live)
      have blamed := released.blames fits permanent recorded
        (holds_of_span holds agrees) ((hasHead_iff_of_span agrees).mpr head)
        (mt (hasTail_iff_of_span agrees).mp noTail)
      exact iff_of_true blamed (Or.inr fun keeps =>
        differentSize keeps.2.2)

end

/-- In every state that a respectful run reaches, a call of free or realloc on
an object whose tail word is damaged, while its guard is not, leaves the
maximal ratio at its call site exactly if the ratio was there already or the
call is not a realloc that keeps the block. -/
theorem evidence_recorded_iff
    {arena : Arena}
    {heap : Heap}
    {labels : List HeapAction}
    {state : HeapState}
    (sound : heap.Sound arena)
    (bounded : RatiosBounded heap.watchedRatio)
    (respects : Machine.Along (HeapState.step arena) (Respects arena)
      (HeapState.start heap) labels)
    (executed : Machine.run (HeapState.step arena) (HeapState.start heap)
      labels = some state)
    {object : Object}
    {label : HeapAction}
    {next : HeapState}
    (live : object ∈ state.live)
    (recorded : object.callstack ≠ 0)
    (holds : Holds state.heap.memory object.guard object.base object.size
      object.callstack)
    (head : HasHead state.heap.memory object.guard)
    (noTail : ¬HasTail state.heap.memory object.guard object.size)
    (call : ReleasesOrResizes object label)
    (stepped : HeapState.step arena state label = some next) :
    next.heap.watchedRatio object.callstack = some maxWatchRatioUpperbound ↔
      state.heap.watchedRatio object.callstack =
          some maxWatchRatioUpperbound ∨
        ¬KeepsBlock arena state object label := by
  obtain ⟨layout, invariant⟩ :=
    sites_of_run sound bounded respects executed
  have fits := layout.fits object (Or.inl live)
  have guardInside := fits.guardInside
  obtain ⟨permanent, _⟩ := invariant.recorded object live recorded
  cases label with
  | free ptr =>
      rcases free_effect layout stepped with
        ⟨null, _⟩ | ⟨other, otherLive, start, after, released, rfl⟩
      · rw [call] at null
        omega
      · obtain rfl := layout.eq_of_start (Or.inl otherLive) (Or.inl live)
          (start.trans call)
        exact iff_of_true
          (released.blames fits permanent recorded holds head noTail)
          (Or.inr id)
  | realloc ptr sz answer watch =>
      have ptrEq : ptr = object.start := call
      subst ptrEq
      have points : ∀ other ∈ state.live, other.start = object.start →
          Points state.heap.memory other := by
        intro other otherLive start
        obtain rfl := layout.eq_of_start (Or.inl otherLive) (Or.inl live) start
        exact holds.realPtr
      obtain ⟨_, validSecond, other, otherLive, start, result, after, ended,
        rfl⟩ := realloc_end layout (by omega) points stepped
      obtain rfl := layout.eq_of_start (Or.inl otherLive) (Or.inl live) start
      rw [HeapState.reallocated_heap]
      exact ended.evidence layout invariant live validSecond recorded holds
        head noTail
  | initialise => exact call.elim
  | malloc sz answer watch => exact call.elim
  | calloc nelem elsize answer => exact call.elim
  | memalign alignment size answer watch => exact call.elim
  | posixMemalign alignment size answer watch => exact call.elim
  | write address bytes => exact call.elim

/-- An object of 100 bytes, and a byte written past its end. -/
def overflowRun : List HeapAction :=
  [.malloc 100 (blockAt 16 152) (some ⟨100, false⟩),
    .write (2 ^ 32 + 148) [0]]

/-- The object of the run. -/
def overflowedObject : Object :=
  ⟨0, 2 ^ 32 + 48, 100, 2 ^ 32 + 16, 152, 16, 100, false⟩

/-- Freeing the object blames its call site. -/
theorem evidence_recorded_iff_overflowRun :
    ∃ state next,
      Machine.run (HeapState.step sampleArena)
          (HeapState.start (zeroHeap true)) overflowRun = some state ∧
        HeapState.step sampleArena state (.free (2 ^ 32 + 48)) = some next ∧
        next.heap.watchedRatio 100 = some maxWatchRatioUpperbound := by
  have listed : (Machine.run (HeapState.step sampleArena)
      (HeapState.start (zeroHeap true)) overflowRun).map HeapState.live =
        some [overflowedObject] := by
    decide +kernel
  have damaged : ∀ state ∈ Machine.run (HeapState.step sampleArena)
      (HeapState.start (zeroHeap true)) overflowRun,
      Holds state.heap.memory (2 ^ 32 + 16) (2 ^ 32 + 16) 100 100 ∧
        HasHead state.heap.memory (2 ^ 32 + 16) ∧
        ¬HasTail state.heap.memory (2 ^ 32 + 16) 100 ∧
        (HeapState.step sampleArena state
          (.free (2 ^ 32 + 48))).isSome := by
    decide +kernel
  have respects : Machine.Along (HeapState.step sampleArena)
      (Respects sampleArena) (HeapState.start (zeroHeap true))
      overflowRun := by
    decide +kernel
  have bounded : RatiosBounded (zeroHeap true).watchedRatio := by
    simp [RatiosBounded, zeroHeap]
  obtain ⟨state, executed, live⟩ := Option.map_eq_some_iff.mp listed
  obtain ⟨holds, head, noTail, defined⟩ := damaged state executed
  obtain ⟨next, stepped⟩ := Option.isSome_iff_exists.mp defined
  have member : overflowedObject ∈ state.live :=
    live ▸ List.mem_singleton.mpr rfl
  exact ⟨state, next, executed, stepped,
    (evidence_recorded_iff (zeroHeap_sound true) bounded respects executed
      member (by decide) holds head noTail
      (show ReleasesOrResizes overflowedObject (.free (2 ^ 32 + 48)) from rfl)
      stepped).mpr (Or.inr id)⟩

/-- A realloc that keeps the block writes a new tail word and blames nobody. -/
theorem realloc_discards_evidence :
    ∃ state next,
      Machine.run (HeapState.step sampleArena)
          (HeapState.start (zeroHeap true)) overflowRun = some state ∧
        overflowedObject ∈ state.live ∧
        HasHead state.heap.memory overflowedObject.guard ∧
        ¬HasTail state.heap.memory overflowedObject.guard
          overflowedObject.size ∧
        HeapState.step sampleArena state
            (.realloc overflowedObject.start 108 (blockAt 176 152)
              (some (⟨100, false⟩, ⟨100, false⟩))) = some next ∧
        HasTail next.heap.memory overflowedObject.guard 108 ∧
        next.heap.watchedRatio overflowedObject.callstack ≠
          some maxWatchRatioUpperbound := by
  have before : ∀ state ∈ Machine.run (HeapState.step sampleArena)
      (HeapState.start (zeroHeap true)) overflowRun,
      overflowedObject ∈ state.live ∧
        HasHead state.heap.memory overflowedObject.guard ∧
        ¬HasTail state.heap.memory overflowedObject.guard
          overflowedObject.size := by
    decide +kernel
  have defined : (Machine.run (HeapState.step sampleArena)
      (HeapState.start (zeroHeap true)) (overflowRun ++
        [.realloc overflowedObject.start 108 (blockAt 176 152)
          (some (⟨100, false⟩, ⟨100, false⟩))])).isSome = true := by
    decide +kernel
  have after : ∀ next ∈ Machine.run (HeapState.step sampleArena)
      (HeapState.start (zeroHeap true)) (overflowRun ++
        [.realloc overflowedObject.start 108 (blockAt 176 152)
          (some (⟨100, false⟩, ⟨100, false⟩))]),
      HasTail next.heap.memory overflowedObject.guard 108 ∧
        next.heap.watchedRatio overflowedObject.callstack ≠
          some maxWatchRatioUpperbound := by
    decide +kernel
  obtain ⟨next, executed⟩ := Option.isSome_iff_exists.mp defined
  have reached := after next executed
  obtain ⟨state, executedFirst, last⟩ := Machine.run_split executed
  obtain ⟨live, head, noTail⟩ := before state executedFirst
  obtain ⟨final, stepped, ended⟩ := Machine.run_cons_eq_some last
  rw [Machine.run_nil, Option.some.injEq] at ended
  subst ended
  exact ⟨state, final, executedFirst, live, head, noTail, stepped, reached⟩

end Causer
