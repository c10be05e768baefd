import Causer.GuardIntegrity

/-!
# What recalloc clears

`CUSTOM_RECALLOC` clears a new object as far as its usable size says.  That is
the size of the whole block, although the object starts behind its guard, so the
zeros go over the tail word of the object and 32 bytes beyond its block.  Every
such object is reported when it is freed, and an object of malloc in a block that
follows at the usual distance is never given back to the underlying allocator.
-/

namespace Causer

open ByteMemory WordArithmetic ObjectGuard

/-- `CUSTOM_RECALLOC`. -/
def customRecalloc (arena : Arena) (p num sz : Nat) (answer : Block)
    (watch : Option (Watch × Watch)) (heap : Heap) : Option (Nat × Heap) :=
  (customRealloc arena p (mul num sz) answer watch heap).bind
    fun (ptr, heap) =>
      if p = 0 ∧ ptr ≠ 0 then
        -- clear out the memory
        (xxmallocUsableSize arena ptr heap).map fun size =>
          (ptr, { heap with memory := fill heap.memory ⟨ptr, size⟩ 0 })
      else some (ptr, heap)

/-- The bytes that are cleared for a new object. -/
abbrev Object.cleared (object : Object) : Region := ⟨object.start, object.len⟩

/-- The bytes behind its block that are among them. -/
abbrev Object.beyond (object : Object) : Region :=
  ⟨object.base + object.len, 32⟩

/-- The call site that a report names. -/
def Object.sites (object : Object) : List Nat :=
  if object.callstack = 0 then [] else [object.callstack]

/-- The heap after a new object has been cleared. -/
def clearedHeap (heap : Heap) (object : Object) : Heap :=
  { heap with memory := fill heap.memory object.cleared 0 }

section

variable {arena : Arena} {state : HeapState} {heap : Heap}
  {object other : Object}

/-- Nothing else is cleared. -/
theorem clearedHeap_agrees
    {region : Region}
    (apart : object.cleared.Apart region) :
    AgreesOn region heap.memory (clearedHeap heap object).memory :=
  agreesOn_blit heap.memory (fun _ => 0) apart

theorem readWord_clearedHeap
    {address : Nat}
    (within : (wordAt address).Within object.cleared) :
    readWord (clearedHeap heap object).memory address = 0 :=
  readWord_fill within

/-- The guard in front of the cleared bytes stays. -/
theorem guard_clearedHeap
    (fits : object.Fits)
    (guarded : Guarded heap.memory object) :
    Holds (clearedHeap heap object).memory object.guard object.base
        object.size object.callstack ∧
      HasHead (clearedHeap heap object).memory object.guard := by
  have guardAdd := fits.guard_add
  constructor
  · apply guarded.holds.of_agreesOn
    apply clearedHeap_agrees
    simp only [Region.Apart]
    omega
  · apply guarded.head.of_agreesOn
    apply clearedHeap_agrees
    simp only [Region.Apart]
    omega

/-- The tail word is lost. -/
theorem noTail_clearedHeap
    (fits : object.Fits) :
    ¬HasTail (clearedHeap heap object).memory object.guard object.size := by
  have guardAdd := fits.guard_add
  have guardInside := fits.guardInside
  have tailInside := fits.tailInside
  have within : (wordAt (object.guard + 32 + object.size)).Within
      object.cleared := by
    simp only [Region.Within]
    omega
  rw [HasTail, readWord_clearedHeap within]
  decide

/-- So the object is reported when it is freed, though nothing has been written
past its end but by the allocator. -/
theorem free_clearedHeap
    (fits : object.Fits)
    (sited : object.Sited arena)
    (permanent : object.temporary = false)
    (positive : object.base ≠ 0)
    (guarded : Guarded heap.memory object)
    (known : object.callstack ≠ 0 →
      (heap.watchedRatio object.callstack).isSome = true) :
    ∃ after, customFree arena object.start (clearedHeap heap object) =
        some after ∧
      after.freed = heap.freed ++ [object.base] ∧
      after.blamed = heap.blamed ++ object.sites := by
  have guardInside := fits.guardInside
  obtain ⟨holds, head⟩ := guard_clearedHeap fits guarded
  have badTail : ¬isGoodTail (clearedHeap heap object).memory object.guard =
      true :=
    mt (isGoodTail_iff_hasTail fits holds).mp (noTail_clearedHeap fits)
  obtain ⟨after, blamed⟩ : ∃ after,
      blame object.callstack (clearedHeap heap object) = some after := by
    unfold blame
    split_ifs with unrecorded isKnown
    · exact ⟨_, rfl⟩
    · exact ⟨_, rfl⟩
    · exact absurd (known unrecorded) isKnown
  have facts := blamed_of_blame blamed
  have freed : after.freed = heap.freed := by
    rw [facts.rest]
    rfl
  have realPtr : getRealPtr after.memory object.guard = object.base := by
    rw [facts.rest]
    exact holds.realPtr
  have sites : after.blamed = heap.blamed ++ object.sites := by
    unfold Object.sites
    split_ifs with unrecorded
    · rw [facts.unrecorded unrecorded, List.append_nil]
      rfl
    · exact facts.blamed unrecorded
  refine ⟨Real.free object.base
    { after with memory := resetHead after.memory object.guard }, ?_, ?_, ?_⟩
  · unfold customFree xxfree xxrealfree checkPointer
    dsimp only
    rw [if_pos ⟨by omega, sited.mp permanent⟩, fits.getObjectGuard_eq,
      if_pos (isGoodHead_iff.mpr head), if_neg badTail, holds.callstack,
      blamed, Option.map_some, Option.map_some, getRealPtr_resetHead, realPtr]
  · rw [Real.free, if_neg positive]
    dsimp only
    rw [freed]
  · rw [Real.free_blamed]
    exact sites

/-- An object that begins, guard included, 8 bytes behind the block has lost all
of its guard but the head word, and its own block is not given back. -/
theorem free_neighbour
    (fits : object.Fits)
    (front : object.start = object.base + 32)
    (otherFits : other.Fits)
    (sited : other.Sited arena)
    (permanent : other.temporary = false)
    (guarded : Guarded heap.memory other)
    (follows : other.guard = object.base + object.len + 8) :
    ∃ after, customFree arena other.start (clearedHeap heap object) =
        some after ∧
      after.freed = heap.freed ∧ after.blocks = heap.blocks ∧
      after.blamed = heap.blamed := by
  have tailInside := fits.tailInside
  have otherInside := otherFits.guardInside
  have head : HasHead (clearedHeap heap object).memory other.guard := by
    apply guarded.head.of_agreesOn
    apply clearedHeap_agrees
    simp only [Region.Apart]
    omega
  have realPtr : getRealPtr (clearedHeap heap object).memory other.guard =
      0 := by
    apply readWord_clearedHeap
    simp only [Region.Within]
    omega
  have site : getCallstack (clearedHeap heap object).memory other.guard =
      0 := by
    apply readWord_clearedHeap
    simp only [Region.Within]
    omega
  refine ⟨Real.free 0
    { clearedHeap heap object with
      memory := resetHead (clearedHeap heap object).memory other.guard },
    ?_, rfl, rfl, rfl⟩
  unfold customFree xxfree xxrealfree checkPointer
  dsimp only
  rw [if_pos ⟨by omega, sited.mp permanent⟩, otherFits.getObjectGuard_eq,
    if_pos (isGoodHead_iff.mpr head), site]
  have noSite : blame 0 (clearedHeap heap object) =
      some (clearedHeap heap object) := if_pos rfl
  rw [noSite, ite_self, Option.map_some, Option.map_some,
    getRealPtr_resetHead, realPtr]

/-- Objects in other blocks that are not reached keep their guards. -/
theorem guarded_clearedHeap
    (fits : object.Fits)
    (front : object.start = object.base + 32)
    (otherFits : other.Fits)
    (guarded : Guarded heap.memory other)
    (blocks : object.block.Apart other.block)
    (notReached : object.beyond.Apart other.block) :
    Guarded (clearedHeap heap object).memory other := by
  have tailInside := fits.tailInside
  have otherInside := otherFits.guardInside
  have otherTail := otherFits.tailInside
  apply guarded.of_agreesOn
  apply clearedHeap_agrees
  simp only [Region.Apart] at blocks notReached ⊢
  omega

end

/-- What recalloc leaves behind when it returns a new object. -/
structure Recalloced (arena : Arena) (state : HeapState) (object : Object)
    (after : Heap) : Prop where
  /-- All of the object is cleared, and 32 bytes beyond its block. -/
  zero : ∀ address, object.data.Contains address ∨
    object.beyond.Contains address → after.memory address = 0
  noTail : ¬HasTail after.memory object.guard object.size
  reported : ∃ freed, customFree arena object.start after = some freed ∧
    freed.freed = after.freed ++ [object.base] ∧
    freed.blamed = after.blamed ++ object.sites
  /-- Of the other objects those that are not reached keep their guards. -/
  spared : ∀ other ∈ state.live, object.beyond.Apart other.block →
    Guarded after.memory other
  /-- The block of one that follows closely is not given back any more. -/
  leaked : ∀ other ∈ state.live,
    other.guard = object.base + object.len + 8 →
    ∃ freed, customFree arena other.start after = some freed ∧
      freed.freed = after.freed ∧ freed.blocks = after.blocks

section

variable {arena : Arena} {state : HeapState} {sz ptr : Nat} {answer : Block}
  {middle : Heap}

/-- The call site of a watched object is known. -/
theorem known_of_customMalloc
    {watch : Option Watch}
    (returned : customMalloc arena sz answer watch state.heap =
      some (ptr, middle))
    (nonnull : ptr ≠ 0)
    (recorded : recordedCallstack 0 watch ≠ 0) :
    (middle.watchedRatio (recordedCallstack 0 watch)).isSome = true := by
  cases watch with
  | none => exact absurd rfl recorded
  | some watch =>
      unfold customMalloc at returned
      split_ifs at returned with large
      · rw [Option.some.injEq, Prod.mk.injEq] at returned
        exact absurd returned.1.symm nonnull
      · obtain ⟨⟨base, stocked⟩, -, placed⟩ :=
          Option.map_eq_some_iff.mp returned
        dsimp only [placeObject] at placed
        obtain ⟨rfl, rfl⟩ := Prod.mk.inj placed
        rw [xxmallocInstallWatchpoint, if_neg nonnull, startWatch]
        dsimp only [recordedCallstack]
        rw [Function.update_self]
        rfl

/-- What malloc hands out, in a state that keeps the invariant. -/
structure Handed (arena : Arena) (state : HeapState) (object : Object)
    (middle : Heap) : Prop where
  front : object.start = object.base + 32
  placement : Placement arena state.heap middle object
  invariant : GuardInvariant arena
    { state with
      heap := middle
      live := state.live ++ [object]
      count := state.count + 1 }

theorem GuardInvariant.handed
    {watch : Option Watch}
    (invariant : GuardInvariant arena state)
    (valid : ∀ found ∈ watch, found.Valid state.heap)
    (returned : customMalloc arena sz answer watch state.heap =
      some (ptr, middle))
    (nonnull : ptr ≠ 0) :
    ptr = (mallocPlaced arena state sz answer watch).start ∧
      Handed arena state (mallocPlaced arena state sz answer watch)
        middle := by
  rcases customMalloc_cases invariant.layout.sound valid returned with
    ⟨_, null, _⟩ | ⟨_, rfl, _, placement⟩
  · exact absurd null nonnull
  · have placed := placement (Or.inl invariant.initialised)
    have stepped : HeapState.step arena state (.malloc sz answer watch) =
        some (state.handOut middle
          (mallocPlaced arena state sz answer watch)) := by
      rw [HeapState.step, HeapState.watching, if_pos valid, returned]
      rfl
    have unconditional : AfterInitialisation arena state
        (.malloc sz answer watch) := trivial
    have handedOut := invariant.step unconditional stepped
    rw [HeapState.handOut_of_fits placed.fits] at handedOut
    exact ⟨rfl, rfl, placed, handedOut⟩

namespace Handed

variable {object : Object} (handed : Handed arena state object middle)

include handed

theorem permanent :
    object.temporary = false :=
  handed.invariant.permanent object List.mem_concat_self

theorem housed :
    Housed arena middle object :=
  handed.invariant.layout.housed object (Or.inl List.mem_concat_self)

theorem positive :
    object.base ≠ 0 :=
  (handed.invariant.layout.sound.granted _
    (handed.housed.granted handed.permanent)).positive.ne'

theorem usable :
    xxmallocUsableSize arena object.start middle = some object.len := by
  have layout := handed.invariant.layout
  have fits := handed.placement.fits
  rw [xxmallocUsableSize_eq layout.sound handed.housed fits.getObjectGuard_eq
    handed.placement.guarded.holds.realPtr, reportedSize, handed.permanent,
    if_neg Bool.false_ne_true]

/-- What clearing the new object does. -/
theorem recalloced
    (former : Layout arena state)
    (known : object.callstack ≠ 0 →
      (middle.watchedRatio object.callstack).isSome = true) :
    Recalloced arena state object (clearedHeap middle object) := by
  have layout := handed.invariant.layout
  have fits := handed.placement.fits
  have guarded := handed.placement.guarded
  have sited := handed.housed.sited layout.sound fits
  have others : ∀ other ∈ state.live, Guarded middle.memory other ∧
      other.Fits ∧ other.Sited arena ∧ other.temporary = false ∧
      object.block.Apart other.block := by
    intro other member
    have still : other ∈ state.live ++ [object] :=
      List.mem_append_left _ member
    exact ⟨handed.invariant.guarded other still,
      layout.fits other (Or.inl still), layout.sited (Or.inl still),
      handed.invariant.permanent other still,
      former.apart_new handed.placement.toAllocated (Or.inl member)⟩
  constructor
  · intro address inside
    have front := handed.front
    have tailInside := fits.tailInside
    apply if_pos
    simp only [Region.Contains] at inside ⊢
    omega
  · exact noTail_clearedHeap fits
  · exact free_clearedHeap fits sited handed.permanent handed.positive guarded
      known
  · intro other member notReached
    obtain ⟨otherGuarded, otherFits, -, -, apart⟩ := others other member
    exact guarded_clearedHeap fits handed.front otherFits otherGuarded apart
      notReached
  · intro other member follows
    obtain ⟨otherGuarded, otherFits, otherSited, otherPermanent, -⟩ :=
      others other member
    obtain ⟨freed, frees, sameFreed, sameBlocks, -⟩ :=
      free_neighbour fits handed.front otherFits otherSited otherPermanent
        otherGuarded follows
    exact ⟨freed, frees, sameFreed, sameBlocks⟩

end Handed

/-- Recalloc returns when its malloc does, with the object cleared. -/
theorem customRecalloc_null
    {num : Nat}
    {watch : Option (Watch × Watch)}
    (invariant : GuardInvariant arena state)
    (valid : ∀ found ∈ watch.map Prod.fst, found.Valid state.heap) :
    customRecalloc arena 0 num sz answer watch state.heap =
      (customMalloc arena (mul num sz) answer (watch.map Prod.fst)
        state.heap).map fun placed =>
          if placed.1 = 0 then placed
          else (placed.1, clearedHeap placed.2
            (mallocPlaced arena state (mul num sz) answer
              (watch.map Prod.fst))) := by
  rw [customRecalloc, customRealloc, if_pos rfl]
  cases returned : customMalloc arena (mul num sz) answer
      (watch.map Prod.fst) state.heap with
  | none => rfl
  | some placed =>
      obtain ⟨ptr, middle⟩ := placed
      rw [Option.bind_some, Option.map_some]
      dsimp only
      by_cases null : ptr = 0
      · rw [if_neg (by simp [null]), if_pos null]
      · obtain ⟨rfl, handed⟩ := invariant.handed valid returned null
        rw [if_pos ⟨rfl, null⟩, if_neg null, handed.usable]
        rfl

/-- In every state that is reached after initialisation while the application
writes only inside its objects, recalloc of `NULL` returns when its malloc does.
It clears the tail word of the object and 32 bytes beyond its block, so that the
object is reported when it is freed and the block of an object of malloc right
behind it is never given back. -/
theorem recalloc_damages
    {heap : Heap}
    {labels : List HeapAction}
    {watch : Option (Watch × Watch)}
    (sound : heap.Sound arena)
    (initialised : heap.libInitialized = true)
    (nothingFreed : heap.freed = [])
    (along : Machine.Along (HeapState.step arena) (AfterInitialisation arena)
      (HeapState.start heap) labels)
    (executed : Machine.run (HeapState.step arena) (HeapState.start heap)
      labels = some state)
    (valid : ∀ found ∈ watch.map Prod.fst, found.Valid state.heap)
    (num sz : Nat) (answer : Block) :
    (customRecalloc arena 0 num sz answer watch state.heap).isSome =
        (customMalloc arena (mul num sz) answer (watch.map Prod.fst)
          state.heap).isSome ∧
      ∀ ptr after,
        customRecalloc arena 0 num sz answer watch state.heap =
          some (ptr, after) →
        ptr ≠ 0 →
        ptr = (mallocPlaced arena state (mul num sz) answer
            (watch.map Prod.fst)).start ∧
          Recalloced arena state
            (mallocPlaced arena state (mul num sz) answer
              (watch.map Prod.fst)) after := by
  have invariant : GuardInvariant arena state :=
    Machine.run_invariant
      (fun _ _ _ invariant condition stepped =>
        GuardInvariant.step invariant condition stepped)
      ⟨layout_start sound, by simp [AllGuarded, HeapState.start],
        initialised, by simp [HeapState.start], nothingFreed⟩
      along executed
  rw [customRecalloc_null invariant valid]
  refine ⟨Option.isSome_map, fun ptr after returned nonnull => ?_⟩
  obtain ⟨⟨start, middle⟩, obtained, placed⟩ :=
    Option.map_eq_some_iff.mp returned
  dsimp only at placed
  split_ifs at placed with null
  · exact absurd ((Prod.mk.inj placed).1.symm.trans null) nonnull
  · obtain ⟨rfl, rfl⟩ := Prod.mk.inj placed
    obtain ⟨isStart, handed⟩ := invariant.handed valid obtained null
    exact ⟨isStart, handed.recalloced invariant.layout
      (known_of_customMalloc obtained null)⟩

end

/-- An object in the block behind the one that recalloc is going to get. -/
def neighbourRun : List HeapAction := [.malloc 24 (blockAt 96 72) none]

/-- The object of the run. -/
def neighbour : Object :=
  ⟨0, 2 ^ 32 + 128, 24, 2 ^ 32 + 96, 72, 16, 0, false⟩

/-- After recalloc, freeing the neighbour gives nothing back. -/
theorem recalloc_damages_neighbourRun :
    ∃ state ptr after freed,
      Machine.run (HeapState.step sampleArena)
          (HeapState.start (zeroHeap true)) neighbourRun = some state ∧
        customRecalloc sampleArena 0 3 8 (blockAt 16 72) none state.heap =
          some (ptr, after) ∧
        customFree sampleArena neighbour.start after = some freed ∧
        freed.freed = after.freed ∧ freed.blocks = after.blocks := by
  have along : Machine.Along (HeapState.step sampleArena)
      (AfterInitialisation sampleArena) (HeapState.start (zeroHeap true))
      neighbourRun := by
    decide +kernel
  have facts : ∃ state ∈ Machine.run (HeapState.step sampleArena)
      (HeapState.start (zeroHeap true)) neighbourRun,
      neighbour ∈ state.live ∧
        neighbour.guard =
          (mallocPlaced sampleArena state (mul 3 8) (blockAt 16 72) none).base +
            (mallocPlaced sampleArena state (mul 3 8) (blockAt 16 72)
              none).len + 8 ∧
        (customRecalloc sampleArena 0 3 8 (blockAt 16 72) none
          state.heap).map Prod.fst = some (2 ^ 32 + 48) := by
    decide +kernel
  obtain ⟨state, executed, live, follows, obtained⟩ := facts
  obtain ⟨⟨ptr, after⟩, returned, start⟩ := Option.map_eq_some_iff.mp obtained
  obtain rfl : ptr = 2 ^ 32 + 48 := start
  obtain ⟨-, damages⟩ := recalloc_damages (zeroHeap_sound true) rfl rfl
    along executed
    (by simp : ∀ found ∈ (none : Option (Watch × Watch)).map Prod.fst,
      found.Valid state.heap) 3 8 (blockAt 16 72)
  obtain ⟨-, recalloced⟩ := damages _ after returned (by decide)
  obtain ⟨freed, frees, same⟩ := recalloced.leaked neighbour live follows
  exact ⟨state, _, after, freed, executed, returned, frees, same⟩

end Causer
