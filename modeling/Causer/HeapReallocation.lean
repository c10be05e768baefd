import Causer.HeapLayout

/-!
# What realloc does

`CUSTOM_REALLOC` always asks for a new object first.  It then keeps the old
block when both report the same usable size, and moves the bytes otherwise.
Kept objects get a new size and a new tail word, wherever that falls.
-/

namespace Causer

open ByteMemory WordArithmetic ObjectGuard

section

variable {arena : Arena} {state : HeapState} {object : Object}

/-- The object that realloc asks `CUSTOM_MALLOC` for. -/
abbrev reallocBuffer (arena : Arena) (state : HeapState) (sz : Nat)
    (answer : Block) (watch : Option (Watch × Watch)) : Object :=
  mallocPlaced arena state sz answer (watch.map Prod.fst)

/-- What the header update writes. -/
structure Updated (before after : Memory) (guard size : Nat) : Prop where
  objectSize : getObjectSize after guard = size
  realPtr : getRealPtr after guard = getRealPtr before guard
  callstack : getCallstack after guard = getCallstack before guard
  head : HasHead before guard → HasHead after guard
  tail : HasTail after guard size
  frame : ∀ region : Region,
    (wordAt (guard + 8)).Apart region →
    (wordAt (guard + 32 + size)).Apart region →
    AgreesOn region before after

theorem updated
    (memory : Memory)
    {guard size : Nat}
    (sizeLt : size < 2 ^ 64)
    (noWrap : guard + 32 + size < 2 ^ 64) :
    Updated memory (setTailSentinel (setObjectSize memory guard size) guard)
      guard size := by
  have newSize : getObjectSize (setObjectSize memory guard size) guard =
      size := by
    rw [getObjectSize, setObjectSize, readWord_writeWord,
      Nat.mod_eq_of_lt sizeLt]
  rw [setTailSentinel, getTailSentinel_eq newSize noWrap]
  have field : ∀ offset ≤ 24,
      readWord (writeWord (setObjectSize memory guard size)
        (guard + 32 + size) sentinelTailWord) (guard + offset) =
      readWord (setObjectSize memory guard size) (guard + offset) := by
    intro offset offsetLe
    apply readWord_writeWord_of_apart
    simp only [Region.Apart]
    omega
  have untouched : ∀ offset : Nat, offset + 8 ≤ 8 ∨ 16 ≤ offset →
      readWord (setObjectSize memory guard size) (guard + offset) =
        readWord memory (guard + offset) := by
    intro offset offsetApart
    apply readWord_writeWord_of_apart
    simp only [Region.Apart]
    omega
  constructor
  · exact (field 8 (by omega)).trans newSize
  · exact (field 0 (by omega)).trans (untouched 0 (by omega))
  · exact (field 16 (by omega)).trans (untouched 16 (by omega))
  · intro head
    exact ((field 24 (by omega)).trans (untouched 24 (by omega))).trans head
  · rw [HasTail, readWord_writeWord]
    rfl
  · intro region sizeApart tailApart
    exact (agreesOn_writeWord memory size sizeApart).trans
      (agreesOn_writeWord _ sentinelTailWord tailApart)

/-- How a call of realloc on a live object can end. -/
inductive ReallocEnd (arena : Arena) (state : HeapState) (object : Object)
    (sz : Nat) (answer : Block) (watch : Option (Watch × Watch))
    (result : Nat) (after : Heap) : Prop
  | freed
      (nothing : sz = 0 ∨ 2 ^ 63 ≤ sz)
      (result : result = 0)
      (released : Released state.heap after object)
  | kept
      (szPos : 0 < sz)
      (szLt : sz < 2 ^ 63)
      (sameSize : reportedSize object =
        reportedSize (reallocBuffer arena state sz answer watch))
      (middle freed : Heap)
      (placement : NotCut state.heap sz →
        Placement arena state.heap middle
          (reallocBuffer arena state sz answer watch))
      (bufferFreed : customFree arena
        (reallocBuffer arena state sz answer watch).start middle = some freed)
      (result : result = object.start)
      (after : after = xxmallocInstallWatchpoint (watch.map Prod.snd)
        object.start (xxmallocUpdateheader object.start sz freed))
  | moved
      (szPos : 0 < sz)
      (szLt : sz < 2 ^ 63)
      (differentSize : reportedSize object ≠
        reportedSize (reallocBuffer arena state sz answer watch))
      (middle : Heap)
      (placement : NotCut state.heap sz →
        Placement arena state.heap middle
          (reallocBuffer arena state sz answer watch))
      (result : result = (reallocBuffer arena state sz answer watch).start)
      (released : Released
        { middle with
          memory := copy middle.memory
            (reallocBuffer arena state sz answer watch).start object.start
            (min (reportedSize object) sz) }
        after object)

/-- The object that realloc has asked for starts at an address. -/
theorem reallocBuffer_start_lt
    {watch : Option (Watch × Watch)}
    {sz : Nat}
    {answer : Block}
    {middle : Heap}
    (sound : state.heap.Sound arena)
    (placement : NotCut state.heap sz →
      Placement arena state.heap middle
        (reallocBuffer arena state sz answer watch)) :
    (reallocBuffer arena state sz answer watch).start < 2 ^ 64 := by
  cases initialised : state.heap.libInitialized with
  | true =>
      have fits := (placement (Or.inl initialised)).fits
      have := fits.tailInside
      have := fits.bounded
      omega
  | false =>
      have arenaBounded := arena.bounded
      have allocatedLe := sound.allocatedLe
      have start : (reallocBuffer arena state sz answer watch).start =
          (arena.buf + state.heap.allocated).toNat + 32 := by
        simp [HeapState.ownBlock, initialised]
      simp only [initialMallocSize] at arenaBounded allocatedLe
      omega

/-- The size that is reported for the object that realloc has asked for. -/
theorem bufferSize_eq
    {watch : Option (Watch × Watch)}
    {sz : Nat}
    {answer : Block}
    {middle : Heap}
    (sound : state.heap.Sound arena)
    (marked : ∃ stocked : Heap,
      Marked stocked middle (reallocBuffer arena state sz answer watch))
    (placement : NotCut state.heap sz →
      Placement arena state.heap middle
        (reallocBuffer arena state sz answer watch)) :
    xxmallocUsableSize arena (reallocBuffer arena state sz answer watch).start
      middle = some (reportedSize (reallocBuffer arena state sz answer
        watch)) := by
  obtain ⟨stocked, marked⟩ := marked
  have guardEq : getObjectGuard
      (reallocBuffer arena state sz answer watch).start =
        (reallocBuffer arena state sz answer watch).guard :=
    getObjectGuard_eq (Nat.le_add_left ..)
      (reallocBuffer_start_lt sound placement)
  have pointer := marked.guarded.holds.realPtr
  cases initialised : state.heap.libInitialized with
  | true =>
      have allocated := (placement (Or.inl initialised)).toAllocated
      exact xxmallocUsableSize_eq (allocated.sound sound)
        (allocated.housed sound).1 guardEq pointer
  | false =>
      -- a temporary block, though a cut request may not fit in it
      have allocatedLe := sound.allocatedLe
      have nonneg := sound.allocatedNonneg
      have base : (reallocBuffer arena state sz answer watch).base =
          (arena.buf + state.heap.allocated).toNat := by
        simp [HeapState.ownBlock, initialised]
      have temporary : (reallocBuffer arena state sz answer
          watch).temporary = true := by
        simp [initialised]
      rw [xxmallocUsableSize, guardEq, pointer, base, reportedSize,
        if_pos temporary]
      rw [if_pos (by simp only [initialMallocSize] at *; omega)]

/-- The ends of a call of realloc. -/
theorem customRealloc_end
    {sz result : Nat}
    {answer : Block}
    {watch : Option (Watch × Watch)}
    {after : Heap}
    (layout : Layout arena state)
    (placed : state.Placed object)
    (pointer : getRealPtr state.heap.memory object.guard = object.base)
    (valid : ∀ found ∈ watch.map Prod.fst, found.Valid state.heap)
    (returned : customRealloc arena object.start sz answer watch state.heap =
      some (result, after)) :
    ReallocEnd arena state object sz answer watch result after := by
  have sound := layout.sound
  have fits := layout.fits object placed
  have guardInside := fits.guardInside
  have sited := layout.sited placed
  have objSize := xxmallocUsableSize_eq sound (layout.housed object placed)
    fits.getObjectGuard_eq pointer
  unfold customRealloc at returned
  rw [if_neg (by omega)] at returned
  split_ifs at returned with empty
  · obtain ⟨freed, released, result⟩ := Option.map_eq_some_iff.mp returned
    rw [Prod.mk.injEq] at result
    obtain ⟨rfl, rfl⟩ := result
    exact .freed (Or.inl empty) rfl (customFree_released sited fits released)
  · rw [objSize, Option.bind_some] at returned
    obtain ⟨⟨buf, middle⟩, obtained, rest⟩ :=
      Option.bind_eq_some_iff.mp returned
    dsimp only at rest
    rcases customMalloc_cases sound valid obtained with
      ⟨large, rfl, rfl⟩ | ⟨szLt, rfl, marked, placement⟩
    · rw [if_neg (by simp)] at rest
      obtain ⟨freed, released, result⟩ := Option.map_eq_some_iff.mp rest
      rw [Prod.mk.injEq] at result
      obtain ⟨rfl, rfl⟩ := result
      exact .freed (Or.inr large) rfl
        (customFree_released sited fits released)
    · rw [if_pos (by omega)] at rest
      have bufSize := bufferSize_eq sound marked placement
      change xxmallocUsableSize arena (_ + 32) middle = _ at bufSize
      have minSize : (if reportedSize object < sz then reportedSize object
          else sz) = min (reportedSize object) sz := by
        split_ifs <;> omega
      rw [bufSize, Option.bind_some, minSize] at rest
      split_ifs at rest with sameSize
      · obtain ⟨freed, bufferFreed, result⟩ :=
          Option.map_eq_some_iff.mp rest
        rw [Prod.mk.injEq] at result
        exact .kept (Nat.pos_of_ne_zero empty) szLt sameSize middle freed
          placement bufferFreed result.1.symm result.2.symm
      · obtain ⟨freed, released, result⟩ := Option.map_eq_some_iff.mp rest
        rw [Prod.mk.injEq] at result
        obtain ⟨rfl, rfl⟩ := result
        exact .moved (Nat.pos_of_ne_zero empty) szLt sameSize middle
          placement rfl (customFree_released sited fits released)

/-- What realloc does to an object that it keeps. -/
structure KeptInPlace (arena : Arena) (state : HeapState) (object : Object)
    (sz : Nat) (buffer : Region) (watch : Option Watch) (after : Heap) :
    Prop where
  holds : Holds state.heap.memory object.guard object.base object.size
      object.callstack →
    Holds after.memory object.guard object.base sz
      (recordedCallstack object.callstack watch)
  head : HasHead state.heap.memory object.guard →
    HasHead after.memory object.guard
  tail : HasTail after.memory object.guard sz
  frame : ∀ region : Region, buffer.Apart region →
    Region.Apart ⟨object.guard + 8, 16⟩ region →
    (wordAt (object.guard + 32 + sz)).Apart region →
    AgreesOn region state.heap.memory after.memory
  sound : after.Sound arena
  housed : ∀ other, state.Placed other → Housed arena after other
  ratios : RatiosKept state.heap.watchedRatio after.watchedRatio
  libInitialized : after.libInitialized = state.heap.libInitialized
  blamed : after.blamed = state.heap.blamed

/-- Asking for an object and freeing it again changes its block only. -/
theorem bufferFreed_effect
    {buffer : Object}
    {middle freed : Heap}
    (layout : Layout arena state)
    (placement : Placement arena state.heap middle buffer)
    (bufferFreed : customFree arena buffer.start middle = some freed) :
    (∀ region : Region, buffer.block.Apart region →
        AgreesOn region state.heap.memory freed.memory) ∧
      freed.Sound arena ∧
      (∀ other, state.Placed other → Housed arena freed other) ∧
      RatiosKept state.heap.watchedRatio freed.watchedRatio ∧
      freed.libInitialized = state.heap.libInitialized ∧
      freed.blamed = state.heap.blamed := by
  have allocated := placement.toAllocated
  have fits := allocated.fits
  have middleSound := allocated.sound layout.sound
  obtain ⟨bufferHoused, stillHoused⟩ := allocated.housed layout.sound
  have released := customFree_released (bufferHoused.sited middleSound fits)
    fits bufferFreed
  have returned := released.returned
    (fun _ => allocated.guarded.holds.realPtr)
  have clean := released.clean fits allocated.guarded (fun notTemporary =>
    (middleSound.granted _ (bufferHoused.granted notTemporary)).positive.ne')
  refine ⟨?_, returned.sound middleSound, ?_, ?_, ?_, ?_⟩
  · intro region apart
    exact (allocated.frame region apart).trans (returned.outside fits apart)
  · intro other placed
    apply returned.housed (stillHoused other (layout.housed other placed))
    intro _
    have apart := layout.apart_new allocated placed
    have otherFits := layout.fits other placed
    have := fits.guardInside
    have := fits.tailInside
    have := otherFits.guardInside
    have := otherFits.tailInside
    simp only [Region.Apart] at apart
    omega
  · rw [clean.ratios]
    exact allocated.ratios
  · exact returned.libInitialized.trans allocated.libInitialized
  · exact clean.blamed.trans allocated.blamed

/-- Keeping a block writes the guard's size and call site and a tail word. -/
theorem keptInPlace
    {buffer : Object}
    {sz : Nat}
    {middle freed : Heap}
    {watch : Option Watch}
    (layout : Layout arena state)
    (placed : state.Placed object)
    (szLt : sz < 2 ^ 63)
    (valid : ∀ found ∈ watch, found.Valid state.heap)
    (placement : Placement arena state.heap middle buffer)
    (bufferFreed : customFree arena buffer.start middle = some freed) :
    KeptInPlace arena state object sz buffer.block watch
      (xxmallocInstallWatchpoint watch object.start
        (xxmallocUpdateheader object.start sz freed)) := by
  have fits := layout.fits object placed
  have guardAdd := fits.guard_add
  have tailInside := fits.tailInside
  have bounded := fits.bounded
  obtain ⟨frame, sound, housed, ratios, libInitialized, blamed⟩ :=
    bufferFreed_effect layout placement bufferFreed
  have bufferApart : buffer.block.Apart object.block :=
    layout.apart_new placement.toAllocated placed
  have spanAgrees : AgreesOn object.span state.heap.memory freed.memory :=
    frame object.span (bufferApart.of_within ⟨le_rfl, le_rfl⟩ fits.span_within)
  have header : Updated freed.memory
      (xxmallocUpdateheader object.start sz freed).memory object.guard sz := by
    have written : (xxmallocUpdateheader object.start sz freed).memory =
        setTailSentinel (setObjectSize freed.memory object.guard sz)
          object.guard := by
      simp only [xxmallocUpdateheader, fits.getObjectGuard_eq]
    rw [written]
    exact updated freed.memory (by omega) (by omega)
  have headerRest : xxmallocUpdateheader object.start sz freed =
      { freed with
        memory := (xxmallocUpdateheader object.start sz freed).memory } := by
    simp only [xxmallocUpdateheader]
  generalize xxmallocUpdateheader object.start sz freed = headed
    at header headerRest ⊢
  have watching := installed headed (show object.start ≠ 0 by omega)
    (fun found member => by
      have := (valid found member).2.1
      omega : ∀ found ∈ watch, found.callstack < 2 ^ 64)
  rw [fits.getObjectGuard_eq] at watching
  generalize xxmallocInstallWatchpoint watch object.start headed = after
    at watching ⊢
  have sameStock : after.allocated = freed.allocated ∧
      after.blocks = freed.blocks := by
    rw [watching.rest, headerRest]
    exact ⟨rfl, rfl⟩
  constructor
  · intro holds
    have held := holds.of_agreesOn (spanAgrees.of_within (by
      simp only [Region.Within, Object.guard]
      omega : Region.Within ⟨object.guard, 24⟩ object.span))
    apply watching.holds
    constructor
    · exact header.realPtr.trans held.realPtr
    · exact header.objectSize
    · exact header.callstack.trans held.callstack
  · intro head
    have held := head.of_agreesOn (spanAgrees.of_within (by
      simp only [Region.Within, Object.guard]
      omega : (wordAt (object.guard + 24)).Within object.span))
    apply (header.head held).of_agreesOn
    apply watching.frame
    simp [Region.Apart]
  · apply header.tail.of_agreesOn
    apply watching.frame
    simp only [Region.Apart]
    omega
  · intro region regionApart guardApart tailApart
    have sizeApart : (wordAt (object.guard + 8)).Apart region := by
      apply guardApart.of_within
      · simp [Region.Within]
      · exact ⟨le_rfl, le_rfl⟩
    have siteApart : (wordAt (object.guard + 16)).Apart region := by
      apply guardApart.of_within
      · simp only [Region.Within]
        omega
      · exact ⟨le_rfl, le_rfl⟩
    exact ((frame region regionApart).trans
      (header.frame region sizeApart tailApart)).trans
        (watching.frame region siteApart)
  · exact sound.of_eq sameStock.1 sameStock.2
  · intro other otherPlaced
    have otherHoused := housed other otherPlaced
    constructor
    · rw [sameStock.1]
      exact otherHoused.temporary
    · rw [sameStock.2]
      exact otherHoused.granted
  · have watchRatios := watching.ratios
    rw [headerRest] at watchRatios
    exact ratios.trans watchRatios
  · rw [watching.rest, headerRest]
    exact libInitialized
  · rw [watching.rest, headerRest]
    exact blamed

section Kept

variable {sz : Nat} {answer : Block} {watch : Option (Watch × Watch)}
  {after : Heap}

theorem HeapState.reallocated_kept :
    state.reallocated arena object sz answer watch object.start after =
      { state with
        heap := after
        live := state.live.filter (· ≠ object) ++
          [HeapState.keptObject object sz (watch.map Prod.snd)] } := by
  rw [HeapState.reallocated, if_pos rfl]

theorem HeapState.placed_reallocated_kept
    (counted : state.Counted)
    (live : object ∈ state.live)
    {other : Object}
    (placed : (state.reallocated arena object sz answer watch object.start
      after).Placed other) :
    state.Placed other ∧ other ≠ object ∨
      other = HeapState.keptObject object sz (watch.map Prod.snd) := by
  rw [HeapState.reallocated_kept] at placed
  rcases placed with member | ⟨retired, isTemporary⟩
  · rcases List.mem_append.mp member with former | new
    · obtain ⟨otherLive, different⟩ := List.mem_filter.mp former
      exact Or.inl ⟨Or.inl otherLive, of_decide_eq_true different⟩
    · exact Or.inr (List.mem_singleton.mp new)
  · refine Or.inl ⟨Or.inr ⟨retired, isTemporary⟩, ?_⟩
    rintro rfl
    exact counted.apart other live other retired rfl

theorem HeapState.Counted.keep
    (counted : state.Counted)
    (live : object ∈ state.live) :
    (state.reallocated arena object sz answer watch object.start
      after).Counted := by
  rw [HeapState.reallocated_kept]
  constructor
  · intro other member
    rcases List.mem_append.mp member with former | new
    · exact counted.liveBelow other (List.mem_filter.mp former).1
    · rw [List.mem_singleton.mp new]
      exact counted.liveBelow object live
  · exact counted.retiredBelow
  · rw [List.map_append, List.nodup_append]
    refine ⟨counted.liveNodup.sublist (List.filter_sublist.map _), by simp,
      ?_⟩
    intro first firstMember second secondMember
    obtain ⟨other, member, rfl⟩ := List.mem_map.mp firstMember
    obtain ⟨otherLive, different⟩ := List.mem_filter.mp member
    simp only [List.map_cons, List.map_nil, List.mem_singleton]
      at secondMember
    rw [secondMember]
    intro sameSerial
    exact of_decide_eq_true different
      (counted.eq_of_serial otherLive live sameSerial)
  · exact counted.retiredNodup
  · intro first firstMember second secondMember
    rcases List.mem_append.mp firstMember with former | new
    · exact counted.apart first (List.mem_filter.mp former).1 second
        secondMember
    · rw [List.mem_singleton.mp new]
      exact counted.apart object live second secondMember

/-- The kept object fits if the new tail word does. -/
theorem keptObject_fits
    {kept : Option Watch}
    (fits : object.Fits)
    (tailInside : object.start + sz + 8 ≤ object.base + object.len)
    (valid : ∀ found ∈ kept, found.Valid state.heap) :
    (HeapState.keptObject object sz kept).Fits where
  guardInside := fits.guardInside
  tailInside := tailInside
  bounded := fits.bounded
  aligned := fits.aligned
  callstack := by
    cases kept with
    | none => exact fits.callstack
    | some found => exact (valid found rfl).2.1

theorem Layout.keep
    {buffer : Region}
    (layout : Layout arena state)
    (live : object ∈ state.live)
    (tailInside : object.start + sz + 8 ≤ object.base + object.len)
    (valid : ∀ found ∈ watch.map Prod.snd, found.Valid state.heap)
    (kept : KeptInPlace arena state object sz buffer (watch.map Prod.snd)
      after) :
    Layout arena
      (state.reallocated arena object sz answer watch object.start after) := by
  have fits := layout.fits object (Or.inl live)
  have placed : ∀ other, (state.reallocated arena object sz answer watch
      object.start after).Placed other →
        state.Placed other ∧ other ≠ object ∨
          other = HeapState.keptObject object sz (watch.map Prod.snd) :=
    fun other isPlaced =>
      HeapState.placed_reallocated_kept layout.counted live isPlaced
  constructor
  · exact layout.counted.keep live
  · rw [HeapState.reallocated_kept]
    exact kept.sound
  · intro other isPlaced
    rcases placed other isPlaced with ⟨former, _⟩ | rfl
    · exact layout.fits other former
    · exact keptObject_fits fits tailInside valid
  · intro other isPlaced
    rw [HeapState.reallocated_kept]
    rcases placed other isPlaced with ⟨former, _⟩ | rfl
    · exact kept.housed other former
    · have housed := kept.housed object (Or.inl live)
      exact ⟨housed.temporary, housed.granted⟩
  · intro first second firstPlaced secondPlaced different
    rcases placed first firstPlaced with ⟨firstFormer, firstOther⟩ | rfl
    · rcases placed second secondPlaced with
        ⟨secondFormer, secondOther⟩ | rfl
      · exact layout.apart first second firstFormer secondFormer different
      · exact layout.apart first object firstFormer (Or.inl live) firstOther
    · rcases placed second secondPlaced with
        ⟨secondFormer, secondOther⟩ | rfl
      · exact layout.apart object second (Or.inl live) secondFormer
          secondOther.symm
      · exact absurd rfl different

end Kept

section Moved

variable {buffer : Object} {sz : Nat} {answer : Block}
  {watch : Option (Watch × Watch)} {after copied : Heap}

/-- Copying into the new object is part of allocating it. -/
theorem Placement.copyInto
    {middle : Heap}
    {length : Nat}
    (placement : Placement arena state.heap middle
      (reallocBuffer arena state sz answer watch))
    (object : Object)
    (lengthLe : length ≤ sz) :
    Allocated arena state.heap
      { middle with
        memory := copy middle.memory
          (reallocBuffer arena state sz answer watch).start object.start
          length }
      (reallocBuffer arena state sz answer watch) := by
  apply placement.toAllocated.blit
  simp only [Region.Within, HeapState.mallocObject]
  omega

/-- Moving is allocating and then releasing. -/
theorem HeapState.reallocated_moved
    (layout : Layout arena state)
    (live : object ∈ state.live)
    (allocated : Allocated arena state.heap copied
      (reallocBuffer arena state sz answer watch)) :
    state.reallocated arena object sz answer watch
        (reallocBuffer arena state sz answer watch).start after =
      (state.handOut copied
        (reallocBuffer arena state sz answer watch)).release after object := by
  have fits := layout.fits object (Or.inl live)
  have bufferFits := allocated.fits
  have apart := layout.apart_new allocated (Or.inl live)
  have := fits.guardInside
  have := fits.tailInside
  have := bufferFits.guardInside
  have := bufferFits.tailInside
  have different : (reallocBuffer arena state sz answer watch).start ≠
      object.start := by
    simp only [Region.Apart] at apart
    omega
  have differentObject : reallocBuffer arena state sz answer watch ≠
      object := by
    intro same
    exact different (by rw [same])
  have buffer : HeapState.mallocObject arena state
      (reallocBuffer arena state sz answer watch).start sz answer
      (watch.map Prod.fst) = reallocBuffer arena state sz answer watch := rfl
  rw [HeapState.reallocated, if_neg different, buffer,
    HeapState.handOut_of_fits bufferFits,
    HeapState.handOut_of_fits bufferFits]
  simp only [HeapState.release, List.filter_append, List.filter_cons,
    List.filter_nil, ne_eq, differentObject, not_false_eq_true,
    decide_true, if_true]

theorem Layout.move
    (layout : Layout arena state)
    (live : object ∈ state.live)
    (allocated : Allocated arena state.heap copied
      (reallocBuffer arena state sz answer watch))
    (returned : Returned copied after object) :
    Layout arena
      (state.reallocated arena object sz answer watch
        (reallocBuffer arena state sz answer watch).start after) := by
  rw [HeapState.reallocated_moved layout live allocated]
  apply (layout.handOut allocated rfl).release
  · rw [HeapState.handOut_of_fits allocated.fits]
    exact List.mem_append_left _ live
  · rw [HeapState.handOut_of_fits allocated.fits]
    exact returned

end Moved

end

end Causer
