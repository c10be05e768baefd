import Causer.HeapRuns

/-!
# Guards stay intact

While the application writes only inside its objects, every effect of a call
leaves the guards and tail words of all live objects as they were made.  After
initialisation, frees then hand the underlying allocator exactly the pointers
that it returned.
-/

namespace Causer

open ByteMemory WordArithmetic ObjectGuard

/-- A write inside a live object, or away from every block and from the
temporary buffer. -/
def Confined (arena : Arena) (state : HeapState) (written : Region) : Prop :=
  (∃ object ∈ state.live, written.Within object.data) ∨
    (∀ block ∈ state.heap.blocks, written.Apart block.region) ∧
      written.Apart ⟨arena.buf, initialMallocSize⟩

instance (arena : Arena) (state : HeapState) (written : Region) :
    Decidable (Confined arena state written) :=
  inferInstanceAs (Decidable (_ ∨ _ ∧ _))

/-- Every live object is guarded. -/
def AllGuarded (state : HeapState) : Prop :=
  ∀ object ∈ state.live, Guarded state.heap.memory object

section

variable {arena : Arena} {state next : HeapState}

/-- A piece of a block keeps clear of writes outside every block. -/
theorem Layout.apart_of_foreign
    {written : Region}
    (layout : Layout arena state)
    (blocksApart : ∀ block ∈ state.heap.blocks, written.Apart block.region)
    (arenaApart : written.Apart ⟨arena.buf, initialMallocSize⟩)
    {object : Object}
    (placed : state.Placed object) :
    written.Apart object.block := by
  have housed := layout.housed object placed
  cases temporary : object.temporary with
  | true =>
      have inArena := housed.temporary temporary
      have allocatedLe := layout.sound.allocatedLe
      apply arenaApart.of_within ⟨le_rfl, le_rfl⟩
      simp only [Region.Within, initialMallocSize] at allocatedLe ⊢
      omega
  | false => exact blocksApart _ (housed.granted temporary)

/-- Confined writes leave the guards alone. -/
theorem AllGuarded.write
    {address : Nat}
    {bytes : List UInt8}
    (layout : Layout arena state)
    (guarded : AllGuarded state)
    (confined : Confined arena state ⟨address, bytes.length⟩) :
    AllGuarded (state.write address bytes) := by
  intro object live
  have fits := layout.fits object (Or.inl live)
  rw [HeapState.write_memory]
  rcases confined with ⟨target, targetLive, within⟩ | ⟨blocks, offArena⟩
  · by_cases same : object = target
    · subst same
      exact (guarded object live).blit fits within _
    · have apart := layout.apart target object (Or.inl targetLive)
        (Or.inl live) (Ne.symm same)
      have targetFits := layout.fits target (Or.inl targetLive)
      apply (guarded object live).of_agreesOn
      apply agreesOn_blit
      exact apart.of_within (within.trans targetFits.data_within)
        fits.span_within
  · have apart := layout.apart_of_foreign blocks offArena (Or.inl live)
    apply (guarded object live).of_agreesOn
    apply agreesOn_blit
    exact apart.of_within ⟨le_rfl, le_rfl⟩ fits.span_within

theorem AllGuarded.handOut
    {object : Object}
    {after : Heap}
    (layout : Layout arena state)
    (guarded : AllGuarded state)
    (allocated : Allocated arena state.heap after object) :
    AllGuarded (state.handOut after object) := by
  intro other live
  rw [HeapState.handOut_of_fits allocated.fits] at live ⊢
  rcases List.mem_append.mp live with former | new
  · exact (guarded other former).of_agreesOn
      (layout.agrees_of_allocated allocated (Or.inl former))
  · rw [List.mem_singleton.mp new]
    exact allocated.guarded

theorem AllGuarded.release
    {object : Object}
    {after : Heap}
    (layout : Layout arena state)
    (guarded : AllGuarded state)
    (live : object ∈ state.live)
    (returned : Returned state.heap after object) :
    AllGuarded (state.release after object) := by
  intro other otherReleased
  obtain ⟨otherLive, different⟩ := List.mem_filter.mp otherReleased
  exact (guarded other otherLive).of_agreesOn
    (layout.agrees_of_returned returned (Or.inl live) (Or.inl otherLive)
      (of_decide_eq_true different))

theorem AllGuarded.keep
    {object : Object}
    {sz : Nat}
    {answer : Block}
    {watch : Option (Watch × Watch)}
    {buffer : Region}
    {after : Heap}
    (layout : Layout arena state)
    (guarded : AllGuarded state)
    (live : object ∈ state.live)
    (tailInside : object.start + sz + 8 ≤ object.base + object.len)
    (bufferApart : ∀ other, state.Placed other → buffer.Apart other.block)
    (kept : KeptInPlace arena state object sz buffer (watch.map Prod.snd)
      after) :
    AllGuarded
      (state.reallocated arena object sz answer watch object.start after) := by
  have fits := layout.fits object (Or.inl live)
  have guardAdd := fits.guard_add
  have guardInside := fits.guardInside
  intro other otherLive
  rw [HeapState.reallocated_kept] at otherLive ⊢
  rcases List.mem_append.mp otherLive with former | new
  · obtain ⟨otherBefore, different⟩ := List.mem_filter.mp former
    have otherFits := layout.fits other (Or.inl otherBefore)
    have apart := layout.apart object other (Or.inl live) (Or.inl otherBefore)
      (of_decide_eq_true different).symm
    apply (guarded other otherBefore).of_agreesOn
    apply kept.frame
    · exact (bufferApart other (Or.inl otherBefore)).of_within ⟨le_rfl, le_rfl⟩
        otherFits.span_within
    · apply apart.of_within _ otherFits.span_within
      simp only [Region.Within]
      omega
    · apply apart.of_within _ otherFits.span_within
      simp only [Region.Within]
      omega
  · rw [List.mem_singleton.mp new]
    have before := guarded object live
    exact ⟨kept.holds before.holds, kept.head before.head, kept.tail⟩

/-- No effect damages a guard when writes are confined. -/
theorem Effect.allGuarded
    {label : HeapAction}
    (effect : Effect arena state label next)
    (layout : Layout arena state)
    (guarded : AllGuarded state)
    (confined : ∀ address bytes, label = .write address bytes →
      Confined arena state ⟨address, bytes.length⟩) :
    AllGuarded next := by
  cases effect with
  | nothing libInitialized stays result =>
      rw [result]
      exact guarded
  | written address bytes isWrite result =>
      rw [result]
      exact guarded.write layout (confined address bytes isWrite)
  | allocated object after allocated serial result =>
      rw [result]
      exact guarded.handOut layout allocated
  | released object after live pointer released result =>
      rw [result]
      exact guarded.release layout live (released.returned pointer)
  | kept object sz answer watch after live isRealloc pointer sameSize
      bufferFits tailInside valid bufferApart kept result =>
      rw [result]
      exact guarded.keep layout live tailInside bufferApart kept
  | moved object sz answer watch middle after live isRealloc pointer placement
      released result =>
      rw [result]
      have copied := placement.copyInto object
        (min_le_right (reportedSize object) sz)
      have handedOut := guarded.handOut layout copied
      have handedLayout := layout.handOut copied rfl
      have objectGuarded : Guarded _ object :=
        (guarded object live).of_agreesOn
          (layout.agrees_of_allocated copied (Or.inl live))
      rw [HeapState.reallocated_moved layout live copied]
      apply handedOut.release handedLayout
      · rw [HeapState.handOut_of_fits copied.fits]
        exact List.mem_append_left _ live
      · rw [HeapState.handOut_of_fits copied.fits]
        exact released.returned fun _ => objectGuarded.holds.realPtr

end

/-- The calls and writes considered after initialisation: aligned requests have
power-of-two alignments and padded sizes that do not wrap, and writes are
confined. -/
def AfterInitialisation (arena : Arena) (state : HeapState) :
    HeapAction → Prop
  | .malloc _ _ _ => True
  | .calloc _ _ _ => True
  | .memalign alignment size _ _ => AlignedRequest alignment size
  | .posixMemalign alignment size _ _ =>
      alignment < 2 ^ 64 ∧
        (alignment.isPowerOfTwo → AlignedRequest alignment size)
  | .free _ => True
  | .write address bytes => Confined arena state ⟨address, bytes.length⟩
  | .initialise => False
  | .realloc _ _ _ _ => False

instance (arena : Arena) (state : HeapState) :
    ∀ label, Decidable (AfterInitialisation arena state label)
  | .initialise
  | .malloc _ _ _
  | .calloc _ _ _
  | .memalign _ _ _ _
  | .posixMemalign _ _ _ _
  | .free _
  | .realloc _ _ _ _
  | .write _ _ => by
      unfold AfterInitialisation
      infer_instance

/-- What holds throughout such a run. -/
structure GuardInvariant (arena : Arena) (state : HeapState) : Prop where
  layout : Layout arena state
  guarded : AllGuarded state
  initialised : state.heap.libInitialized = true
  permanent : ∀ object ∈ state.live, object.temporary = false
  freed : state.heap.freed = state.retired.map Object.base

section

variable {arena : Arena} {state next : HeapState}

/-- With intact guards, the calls respect the layout. -/
theorem GuardInvariant.respects
    {label : HeapAction}
    (invariant : GuardInvariant arena state)
    (condition : AfterInitialisation arena state label) :
    Respects arena state label := by
  cases label with
  | initialise => exact trivial
  | malloc sz answer watch => exact Or.inl invariant.initialised
  | calloc nelem elsize answer => exact Or.inl invariant.initialised
  | memalign alignment size answer watch => exact condition
  | posixMemalign alignment size answer watch => exact condition
  | free ptr =>
      intro object live _ _
      exact (invariant.guarded object live).holds.realPtr
  | realloc ptr sz answer watch => exact condition.elim
  | write address bytes => exact trivial

/-- The release of a live object passes on its block's address. -/
theorem GuardInvariant.freed_release
    {object : Object}
    {after : Heap}
    (invariant : GuardInvariant arena state)
    (live : object ∈ state.live)
    (released : Released state.heap after object) :
    after.freed = state.heap.freed ++ [object.base] := by
  have layout := invariant.layout
  have permanent := invariant.permanent object live
  have fits := layout.fits object (Or.inl live)
  have housed := layout.housed object (Or.inl live)
  have clean := released.clean fits (invariant.guarded object live)
    (fun _ => (layout.sound.granted _ (housed.granted permanent)).positive.ne')
  rw [clean.freed, permanent, if_neg Bool.false_ne_true]

theorem GuardInvariant.step
    {label : HeapAction}
    (invariant : GuardInvariant arena state)
    (condition : AfterInitialisation arena state label)
    (stepped : HeapState.step arena state label = some next) :
    GuardInvariant arena next := by
  have layout := invariant.layout
  have effect := effect_of_step layout (invariant.respects condition) stepped
  have guarded : AllGuarded next := by
    apply effect.allGuarded layout invariant.guarded
    rintro address bytes rfl
    exact condition
  have nextLayout := effect.layout layout
  cases effect with
  | nothing libInitialized stays result =>
      subst result
      exact ⟨nextLayout, guarded, stays invariant.initialised,
        invariant.permanent, invariant.freed⟩
  | written address bytes isWrite result =>
      subst result
      exact ⟨nextLayout, guarded, invariant.initialised, invariant.permanent,
        invariant.freed⟩
  | allocated object after allocated serial result =>
      subst result
      refine ⟨nextLayout, guarded, ?_, ?_, ?_⟩
      · rw [HeapState.handOut_of_fits allocated.fits]
        exact allocated.libInitialized.trans invariant.initialised
      · rw [HeapState.handOut_of_fits allocated.fits]
        intro other member
        rcases List.mem_append.mp member with former | new
        · exact invariant.permanent other former
        · rw [List.mem_singleton.mp new]
          exact allocated.permanent invariant.initialised
      · rw [HeapState.handOut_of_fits allocated.fits]
        exact allocated.freed.trans invariant.freed
  | released object after live pointer released result =>
      subst result
      have returned := released.returned pointer
      refine ⟨nextLayout, guarded, ?_, ?_, ?_⟩
      · exact returned.libInitialized.trans invariant.initialised
      · intro other member
        exact invariant.permanent other (List.mem_filter.mp member).1
      · rw [HeapState.release, invariant.freed_release live released,
          invariant.freed, List.map_append]
        rfl
  | kept object sz answer watch after live isRealloc =>
      rw [isRealloc] at condition
      exact condition.elim
  | moved object sz answer watch middle after live isRealloc =>
      rw [isRealloc] at condition
      exact condition.elim

/-- The application's pointer leads to its object. -/
theorem Layout.find_live
    {object : Object}
    (layout : Layout arena state)
    (live : object ∈ state.live) :
    state.live.find? (·.start = object.start) = some object := by
  cases found : state.live.find? (·.start = object.start) with
  | none =>
      have := List.find?_eq_none.mp found object live
      simp at this
  | some other =>
      obtain ⟨otherLive, sameStart⟩ := HeapState.find_live found
      rw [layout.eq_of_start (Or.inl otherLive) (Or.inl live) sameStart]

/-- Freeing a live object succeeds and passes on its block's address. -/
theorem GuardInvariant.free
    {object : Object}
    (invariant : GuardInvariant arena state)
    (live : object ∈ state.live) :
    ∃ next, HeapState.step arena state (.free object.start) = some next ∧
      next.heap.freed = state.heap.freed ++ [object.base] ∧
      object ∉ next.live := by
  have layout := invariant.layout
  have fits := layout.fits object (Or.inl live)
  have guardInside := fits.guardInside
  have sited := layout.sited (Or.inl live)
  obtain ⟨after, freed⟩ := customFree_guarded sited fits
    (invariant.permanent object live) (invariant.guarded object live)
  have released := customFree_released sited fits freed
  refine ⟨state.release after object, ?_,
    invariant.freed_release live released, ?_⟩
  · rw [HeapState.step, HeapState.freeStep, if_neg (by omega),
      layout.find_live live, Option.bind_some, freed]
    rfl
  · simp

end

/-- In every run after initialisation in which the application writes only
inside its objects, every live object keeps its guard and its tail word inside
a block of its own, starts at a multiple of its alignment, and can be freed;
and the pointers passed to the underlying allocator's `free` are those of the
blocks of the objects freed, each object's once. -/
theorem guards_intact
    {arena : Arena}
    {heap : Heap}
    {labels : List HeapAction}
    {final : HeapState}
    (sound : heap.Sound arena)
    (initialised : heap.libInitialized = true)
    (nothingFreed : heap.freed = [])
    (along : Machine.Along (HeapState.step arena) (AfterInitialisation arena)
      (HeapState.start heap) labels)
    (executed : Machine.run (HeapState.step arena) (HeapState.start heap)
      labels = some final) :
    (∀ object ∈ final.live,
      readWord final.heap.memory (object.start - 32) = object.base ∧
      readWord final.heap.memory (object.start - 24) = object.size ∧
      readWord final.heap.memory (object.start - 8) = sentinelHeadWord ∧
      readWord final.heap.memory (object.start + object.size) =
        sentinelTailWord ∧
      object.base + 32 ≤ object.start ∧
      object.start + object.size + 8 ≤ object.base + object.len ∧
      Block.mk object.base object.len ∈ final.heap.blocks ∧
      object.alignment ∣ object.start ∧
      (∀ other ∈ final.live, other ≠ object →
        object.block.Apart other.block) ∧
      ∃ next, HeapState.step arena final (.free object.start) = some next ∧
        next.heap.freed = final.heap.freed ++ [object.base] ∧
        object ∉ next.live) ∧
    final.heap.freed = final.retired.map Object.base ∧
    ((final.live ++ final.retired).map Object.serial).Nodup := by
  have invariant : GuardInvariant arena final :=
    Machine.run_invariant
      (fun _ _ _ invariant condition stepped =>
        GuardInvariant.step invariant condition stepped)
      ⟨layout_start sound, by simp [AllGuarded, HeapState.start],
        initialised, by simp [HeapState.start], nothingFreed⟩
      along executed
  have layout := invariant.layout
  have counted := layout.counted
  refine ⟨?_, invariant.freed, ?_⟩
  · intro object live
    have fits := layout.fits object (Or.inl live)
    have housed := layout.housed object (Or.inl live)
    have guarded := invariant.guarded object live
    have guardAdd := fits.guard_add
    have sizeAddress : object.start - 24 = object.guard + 8 := by
      simp only [Object.guard] at guardAdd ⊢
      omega
    have headAddress : object.start - 8 = object.guard + 24 := by
      simp only [Object.guard] at guardAdd ⊢
      omega
    have tailAddress : object.start + object.size =
        object.guard + 32 + object.size := by
      rw [guardAdd]
    rw [sizeAddress, headAddress]
    exact ⟨guarded.holds.realPtr, guarded.holds.objectSize, guarded.head,
      tailAddress ▸ guarded.tail, fits.guardInside, fits.tailInside,
      housed.granted (invariant.permanent object live), fits.aligned,
      fun other otherLive different =>
        layout.apart object other (Or.inl live) (Or.inl otherLive)
          different.symm,
      invariant.free live⟩
  · rw [List.map_append, List.nodup_append]
    refine ⟨counted.liveNodup, counted.retiredNodup, ?_⟩
    intro first firstMember second secondMember
    obtain ⟨live, liveMember, rfl⟩ := List.mem_map.mp firstMember
    obtain ⟨retired, retiredMember, rfl⟩ := List.mem_map.mp secondMember
    exact counted.apart live liveMember retired retiredMember

/-- Objects of every allocating call, a write to one of them and a free. -/
def guardRun : List HeapAction :=
  [.malloc 13 (blockAt 16 56) (some ⟨100, true⟩),
    .memalign 64 5 (blockAt 128 80) (some ⟨200, false⟩),
    .calloc 3 7 (blockAt 224 62),
    .posixMemalign 8 0 (blockAt 512 40) none,
    .write (2 ^ 32 + 48) [1, 2, 3],
    .free (2 ^ 32 + 256)]

/-- The aligned object of the run is the second live one, with its guard
right before it. -/
theorem guards_intact_guardRun :
    ∃ final object,
      Machine.run (HeapState.step sampleArena)
          (HeapState.start (zeroHeap true)) guardRun = some final ∧
        object ∈ final.live ∧ object.start = 2 ^ 32 + 192 ∧
        readWord final.heap.memory (2 ^ 32 + 160) = 2 ^ 32 + 128 ∧
        final.heap.freed = [2 ^ 32 + 224] := by
  have defined : (Machine.run (HeapState.step sampleArena)
      (HeapState.start (zeroHeap true)) guardRun).isSome = true := by
    decide +kernel
  have listed :
      ((Machine.run (HeapState.step sampleArena)
        (HeapState.start (zeroHeap true)) guardRun).map fun final =>
          (final.live[1]?.map fun object => (object.start, object.base),
            final.retired.map Object.base)) =
        some (some (2 ^ 32 + 192, 2 ^ 32 + 128), [2 ^ 32 + 224]) := by
    decide +kernel
  have along : Machine.Along (HeapState.step sampleArena)
      (AfterInitialisation sampleArena) (HeapState.start (zeroHeap true))
      guardRun := by
    decide +kernel
  obtain ⟨final, executed⟩ := Option.isSome_iff_exists.mp defined
  rw [executed, Option.map_some, Option.some.injEq, Prod.mk.injEq] at listed
  obtain ⟨object, found, place⟩ := Option.map_eq_some_iff.mp listed.1
  rw [Prod.mk.injEq] at place
  have live := List.mem_of_getElem? found
  obtain ⟨intact, freed, _⟩ := guards_intact (zeroHeap_sound true) rfl rfl
    along executed
  refine ⟨final, object, executed, live, place.1, ?_, freed.trans listed.2⟩
  have realPtr := (intact object live).1
  rwa [place.1, place.2] at realPtr

end Causer
