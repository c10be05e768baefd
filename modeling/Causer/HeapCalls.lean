import Causer.HeapMachine

/-!
# What the calls do

Every allocation, whichever function makes it, leaves a guarded object inside a
block of its own and changes nothing outside that block.  A free passes on the
pointer in the guard, with a check of the sentinels before.  These are the two
facts about calls on which everything about runs rests.
-/

namespace Causer

open ByteMemory WordArithmetic ObjectGuard

/-- The guard and the tail word of an object are as the constructor left them,
with the call site recorded. -/
structure Guarded (memory : Memory) (object : Object) : Prop where
  holds : Holds memory object.guard object.base object.size object.callstack
  head : HasHead memory object.guard
  tail : HasTail memory object.guard object.size

instance (memory : Memory) (object : Object) :
    Decidable (Guarded memory object) :=
  decidable_of_iff
    (Holds memory object.guard object.base object.size object.callstack ∧
      HasHead memory object.guard ∧
      HasTail memory object.guard object.size)
    ⟨fun ⟨holds, head, tail⟩ => ⟨holds, head, tail⟩,
      fun ⟨holds, head, tail⟩ => ⟨holds, head, tail⟩⟩

section Span

variable {before after : Memory} {object : Object}

theorem hasHead_iff_of_span
    (agrees : AgreesOn object.span before after) :
    HasHead after object.guard ↔ HasHead before object.guard := by
  have within : (wordAt (object.guard + 24)).Within object.span := by
    simp only [Region.Within, Object.guard]
    omega
  rw [HasHead, HasHead, readWord_congr (agrees.of_within within)]

theorem hasTail_iff_of_span
    (agrees : AgreesOn object.span before after) :
    HasTail after object.guard object.size ↔
      HasTail before object.guard object.size := by
  have within : (wordAt (object.guard + 32 + object.size)).Within
      object.span := by
    simp only [Region.Within, Object.guard]
    omega
  rw [HasTail, HasTail, readWord_congr (agrees.of_within within)]

theorem holds_of_span
    (holds : Holds before object.guard object.base object.size
      object.callstack)
    (agrees : AgreesOn object.span before after) :
    Holds after object.guard object.base object.size object.callstack := by
  apply holds.of_agreesOn
  apply agrees.of_within
  simp only [Region.Within, Object.guard]
  omega

/-- A guarded object stays guarded while the bytes around it stay. -/
theorem Guarded.of_agreesOn
    (guarded : Guarded before object)
    (agrees : AgreesOn object.span before after) :
    Guarded after object where
  holds := holds_of_span guarded.holds agrees
  head := (hasHead_iff_of_span agrees).mpr guarded.head
  tail := (hasTail_iff_of_span agrees).mpr guarded.tail

end Span

/-- The object with its guard and tail word fits in its block. -/
structure Object.Fits (object : Object) : Prop where
  guardInside : object.base + 32 ≤ object.start
  tailInside : object.start + object.size + 8 ≤ object.base + object.len
  bounded : object.base + object.len < 2 ^ 63
  aligned : object.alignment ∣ object.start
  callstack : object.callstack < 2 ^ 63

theorem Object.Fits.span_within
    {object : Object}
    (fits : object.Fits) :
    object.span.Within object.block := by
  have := fits.guardInside
  have := fits.tailInside
  simp only [Region.Within]
  omega

theorem Object.Fits.data_within
    {object : Object}
    (fits : object.Fits) :
    object.data.Within object.block := by
  have := fits.guardInside
  have := fits.tailInside
  simp only [Region.Within]
  omega

/-- The guard that the code computes from the object's address. -/
theorem Object.Fits.getObjectGuard_eq
    {object : Object}
    (fits : object.Fits) :
    getObjectGuard object.start = object.guard := by
  have := fits.guardInside
  have := fits.tailInside
  have := fits.bounded
  exact Causer.getObjectGuard_eq (by omega) (by omega)

theorem Object.Fits.guard_add
    {object : Object}
    (fits : object.Fits) :
    object.guard + 32 = object.start := by
  have := fits.guardInside
  simp only [Object.guard]
  omega

theorem Object.Fits.tail_noWrap
    {object : Object}
    (fits : object.Fits) :
    object.guard + 32 + object.size < 2 ^ 64 := by
  have := fits.guard_add
  have := fits.tailInside
  have := fits.bounded
  omega

/-- A guarded object stays guarded while only its own bytes change. -/
theorem Guarded.blit
    {memory : Memory}
    {object : Object}
    (guarded : Guarded memory object)
    (fits : object.Fits)
    {written : Region}
    (within : written.Within object.data)
    (bytes : Nat → UInt8) :
    Guarded (ByteMemory.blit memory written bytes) object := by
  have guardAdd := fits.guard_add
  simp only [Region.Within] at within
  constructor
  · apply guarded.holds.of_agreesOn
    apply agreesOn_blit
    simp only [Region.Apart]
    omega
  · apply guarded.head.of_agreesOn
    apply agreesOn_blit
    simp only [Region.Apart]
    omega
  · apply guarded.tail.of_agreesOn
    apply agreesOn_blit
    simp only [Region.Apart]
    omega

/-- What the contract of the underlying allocator says about a block alone. -/
structure Block.Granted (arena : Arena) (block : Block) : Prop where
  positive : 0 < block.base
  nonempty : 0 < block.usable
  bounded : block.base + block.usable < 2 ^ 63
  offArena : block.base + block.usable ≤ arena.buf ∨
    arena.buf + initialMallocSize < block.base

theorem Grants.granted
    {arena : Arena}
    {heap : Heap}
    {alignment size : Nat}
    {answer : Block}
    (grants : Grants arena heap alignment size answer) :
    answer.Granted arena where
  positive := grants.positive
  nonempty := grants.nonempty
  bounded := grants.bounded
  offArena := grants.offArena

/-- The stock of blocks and of the temporary buffer. -/
structure Heap.Sound (arena : Arena) (heap : Heap) : Prop where
  allocatedNonneg : 0 ≤ heap.allocated
  allocatedLe : heap.allocated ≤ initialMallocSize
  allocatedMultiple : 8 ∣ heap.allocated
  granted : ∀ block ∈ heap.blocks, block.Granted arena
  apart : ∀ first ∈ heap.blocks, ∀ second ∈ heap.blocks, first ≠ second →
    first.region.Apart second.region

/-! ## Ratios -/

/-- No call site has more than the maximal ratio. -/
def RatiosBounded (watchedRatio : Nat → Option Int) : Prop :=
  ∀ callstack ratio, watchedRatio callstack = some ratio →
    ratio ≤ maxWatchRatioUpperbound

/-- What watching does to the ratios: the maximal ratio stays, and no other
ratio reaches it. -/
structure RatiosKept (before after : Nat → Option Int) : Prop where
  maximal : ∀ callstack,
    before callstack = some maxWatchRatioUpperbound →
    after callstack = some maxWatchRatioUpperbound
  onlyMaximal : RatiosBounded before → ∀ callstack,
    after callstack = some maxWatchRatioUpperbound →
    before callstack = some maxWatchRatioUpperbound
  bounded : RatiosBounded before → RatiosBounded after

theorem RatiosKept.refl
    (ratios : Nat → Option Int) :
    RatiosKept ratios ratios :=
  ⟨fun _ maximal => maximal, fun _ _ maximal => maximal,
    fun bounded => bounded⟩

theorem RatiosKept.trans
    {first second third : Nat → Option Int}
    (firstKept : RatiosKept first second)
    (secondKept : RatiosKept second third) :
    RatiosKept first third where
  maximal := fun callstack maximal =>
    secondKept.maximal callstack (firstKept.maximal callstack maximal)
  onlyMaximal := fun bounded callstack maximal =>
    firstKept.onlyMaximal bounded callstack
      (secondKept.onlyMaximal (firstKept.bounded bounded) callstack maximal)
  bounded := fun bounded => secondKept.bounded (firstKept.bounded bounded)

theorem updateWatchedInfo_max
    (watched : Bool) :
    updateWatchedInfo watched maxWatchRatioUpperbound =
      maxWatchRatioUpperbound := by
  cases watched <;> rfl

/-- A ratio below the maximum stays below it. -/
theorem updateWatchedInfo_lt
    (watched : Bool)
    {ratio : Int}
    (below : ratio < maxWatchRatioUpperbound) :
    updateWatchedInfo watched ratio < maxWatchRatioUpperbound := by
  simp only [updateWatchedInfo, maxWatchRatioUpperbound, watchedReduction,
    calledReduction, reductionToMin] at below ⊢
  have halved : Int.tdiv (ratio * 5) 10 ≤ Int.tdiv 50000 10 :=
    Int.tdiv_le_tdiv (by decide) (by omega)
  change Int.tdiv (ratio * 5) 10 ≤ 5000 at halved
  split_ifs <;> omega

/-- Counting an allocation keeps the ratios. -/
theorem ratiosKept_startWatch
    (watch : Watch)
    (ptr : Nat)
    (heap : Heap) :
    RatiosKept heap.watchedRatio (startWatch watch ptr heap).watchedRatio := by
  have entry :
      (startWatch watch ptr heap).watchedRatio watch.callstack =
        some (updateWatchedInfo watch.watched
          ((heap.watchedRatio watch.callstack).getD initWatchRatio)) :=
    Function.update_self ..
  have others : ∀ callstack ≠ watch.callstack,
      (startWatch watch ptr heap).watchedRatio callstack =
        heap.watchedRatio callstack :=
    fun callstack different => Function.update_of_ne different ..
  have updated : ∀ ratio ≤ maxWatchRatioUpperbound,
      updateWatchedInfo watch.watched ratio ≤ maxWatchRatioUpperbound := by
    intro ratio ratioLe
    rcases ratioLe.lt_or_eq with below | rfl
    · exact (updateWatchedInfo_lt watch.watched below).le
    · exact (updateWatchedInfo_max watch.watched).le
  have former : RatiosBounded heap.watchedRatio →
      (heap.watchedRatio watch.callstack).getD initWatchRatio ≤
        maxWatchRatioUpperbound := by
    intro bounded
    cases found : heap.watchedRatio watch.callstack with
    | none => decide
    | some ratio => exact bounded watch.callstack ratio found
  constructor
  · intro callstack maximal
    by_cases same : callstack = watch.callstack
    · subst same
      rw [entry, maximal, Option.getD_some, updateWatchedInfo_max]
    · rw [others callstack same, maximal]
  · intro bounded callstack maximal
    by_cases same : callstack = watch.callstack
    · subst same
      rw [entry, Option.some.injEq] at maximal
      cases found : heap.watchedRatio watch.callstack with
      | none =>
          rw [found] at maximal
          have := updateWatchedInfo_lt watch.watched
            (show initWatchRatio < maxWatchRatioUpperbound by decide)
          exact absurd maximal this.ne
      | some ratio =>
          rw [found, Option.getD_some] at maximal
          rcases (bounded _ ratio found).lt_or_eq with below | rfl
          · exact absurd maximal (updateWatchedInfo_lt _ below).ne
          · rfl
    · rwa [others callstack same] at maximal
  · intro bounded callstack ratio found
    by_cases same : callstack = watch.callstack
    · subst same
      rw [entry, Option.some.injEq] at found
      exact found ▸ updated _ (former bounded)
    · rw [others callstack same] at found
      exact bounded callstack ratio found

/-- What watching an object after its guard does: the call site is recorded in
the guard and the ratios are kept. -/
structure Installed (watch : Option Watch) (before after : Heap)
    (guard : Nat) : Prop where
  holds : ∀ ptr size callstack,
    Holds before.memory guard ptr size callstack →
    Holds after.memory guard ptr size (recordedCallstack callstack watch)
  frame : ∀ region : Region, (wordAt (guard + 16)).Apart region →
    AgreesOn region before.memory after.memory
  ratios : RatiosKept before.watchedRatio after.watchedRatio
  rest : after =
    { before with
      memory := after.memory
      watchedRatio := after.watchedRatio }

theorem installed
    {watch : Option Watch}
    {ptr : Nat}
    (heap : Heap)
    (nonnull : ptr ≠ 0)
    (callstackLt : ∀ found ∈ watch, found.callstack < 2 ^ 64) :
    Installed watch heap (xxmallocInstallWatchpoint watch ptr heap)
      (getObjectGuard ptr) := by
  cases watch with
  | none =>
      exact ⟨fun _ _ _ holds => holds, fun region _ => AgreesOn.refl region _,
        RatiosKept.refl _, rfl⟩
  | some watch =>
      rw [xxmallocInstallWatchpoint, if_neg nonnull]
      constructor
      · intro realPtr size callstack holds
        exact holds.setCallstack (callstackLt watch rfl)
      · intro region apart
        exact agreesOn_setCallstack apart
      · exact ratiosKept_startWatch watch ptr heap
      · rfl

/-! ## Allocation -/

/-- Where the block of a new object comes from. -/
inductive Housing (arena : Arena) (before after : Heap) (object : Object) :
    Prop
  | temporary
      (isTemporary : object.temporary = true)
      (base : (object.base : Int) = arena.buf + before.allocated)
      (allocated : after.allocated = before.allocated + object.len)
      (allocatedLe : after.allocated ≤ initialMallocSize)
      (multiple : 8 ∣ object.len)
      (blocks : after.blocks = before.blocks)
  | granted
      (notTemporary : object.temporary = false)
      (granted : Block.Granted arena ⟨object.base, object.len⟩)
      (apart : ∀ block ∈ before.blocks, object.block.Apart block.region)
      (allocated : after.allocated = before.allocated)
      (blocks : after.blocks = ⟨object.base, object.len⟩ :: before.blocks)

/-- What every allocation does: a guarded object in a block of its own, and
nothing changed outside that block. -/
structure Allocated (arena : Arena) (before after : Heap)
    (object : Object) : Prop where
  fits : object.Fits
  guarded : Guarded after.memory object
  frame : ∀ region : Region, object.block.Apart region →
    AgreesOn region before.memory after.memory
  housing : Housing arena before after object
  permanent : before.libInitialized = true → object.temporary = false
  recorded : object.callstack ≠ 0 → before.libInitialized = true
  ratios : RatiosKept before.watchedRatio after.watchedRatio
  libInitialized : after.libInitialized = before.libInitialized
  freed : after.freed = before.freed
  blamed : after.blamed = before.blamed

/-- An allocation that writes the guard and the tail word only. -/
structure Placement (arena : Arena) (before after : Heap) (object : Object) :
    Prop extends Allocated arena before after object where
  untouched : ∀ region : Region,
    Region.Apart ⟨object.guard, 32⟩ region →
    (wordAt (object.guard + 32 + object.size)).Apart region →
    AgreesOn region before.memory after.memory

/-- The bytes of the new object are those that its block had. -/
theorem Placement.fresh
    {arena : Arena}
    {before after : Heap}
    {object : Object}
    (placement : Placement arena before after object) :
    AgreesOn object.data before.memory after.memory := by
  have guardAdd := placement.fits.guard_add
  refine placement.untouched object.data ?_ ?_
  · simp only [Region.Apart]
    omega
  · simp only [Region.Apart]
    omega

/-- What guarding an object does to the heap. -/
structure Marked (before after : Heap) (object : Object) : Prop where
  guarded : Guarded after.memory object
  frame : ∀ region : Region,
    Region.Apart ⟨object.guard, 32⟩ region →
    (wordAt (object.guard + 32 + object.size)).Apart region →
    AgreesOn region before.memory after.memory
  ratios : RatiosKept before.watchedRatio after.watchedRatio
  rest : after =
    { before with
      memory := after.memory
      watchedRatio := after.watchedRatio }

/-- `placeObject` guards an object whose tail word does not wrap. -/
theorem placeObject_marked
    {heap : Heap}
    {object : Object}
    {watch : Option Watch}
    (guardAdd : object.guard + 32 = object.start)
    (noWrap : object.start + object.size + 8 < 2 ^ 64)
    (baseLe : object.base ≤ object.guard)
    (callstack : object.callstack = recordedCallstack 0 watch)
    (callstackLt : object.callstack < 2 ^ 63) :
    (placeObject watch object.guard object.base object.size heap).1 =
        object.start ∧
      Marked heap
        (placeObject watch object.guard object.base object.size heap).2
        object := by
  have start : getStartPtr object.guard = object.start := by
    rw [getStartPtr_eq (by omega), guardAdd]
  have guardEq : getObjectGuard object.start = object.guard :=
    getObjectGuard_eq (by omega) (by omega)
  have built : Constructed heap.memory
      (construct heap.memory object.guard object.base object.size)
      object.guard object.base object.size :=
    constructed (by omega) (by omega)
  simp only [placeObject, start]
  generalize construct heap.memory object.guard object.base object.size =
    written at built ⊢
  have watching := installed { heap with memory := written }
    (show object.start ≠ 0 by omega)
    (fun found member => by
      rw [callstack, Option.mem_def.mp member, recordedCallstack]
        at callstackLt
      omega : ∀ found ∈ watch, found.callstack < 2 ^ 64)
  rw [guardEq] at watching
  generalize xxmallocInstallWatchpoint watch object.start _ = after
    at watching ⊢
  refine ⟨trivial, ⟨?_, ?_, ?_⟩, ?_, watching.ratios, watching.rest⟩
  · have holds := watching.holds _ _ _ built.holds
    rwa [← callstack] at holds
  · apply built.head.of_agreesOn
    apply watching.frame
    simp [Region.Apart]
  · apply built.tail.of_agreesOn
    apply watching.frame
    simp only [Region.Apart]
    omega
  · intro region guardApart tailApart
    have siteApart : (wordAt (object.guard + 16)).Apart region := by
      apply guardApart.of_within
      · simp only [Region.Within]
        omega
      · exact ⟨le_rfl, le_rfl⟩
    exact (built.frame region guardApart tailApart).trans
      (watching.frame region siteApart)

/-- A guarded object in a block of its own is an allocation. -/
theorem Marked.placement
    {arena : Arena}
    {before stocked after : Heap}
    {object : Object}
    (marked : Marked stocked after object)
    (fits : object.Fits)
    (housing : Housing arena before stocked object)
    (permanent : before.libInitialized = true → object.temporary = false)
    (recorded : object.callstack ≠ 0 → before.libInitialized = true)
    (rest : stocked =
      { before with
        allocated := stocked.allocated
        blocks := stocked.blocks }) :
    Placement arena before after object := by
  have guardAdd := fits.guard_add
  have tailInside := fits.tailInside
  have guardInside := fits.guardInside
  have sameStock : after.allocated = stocked.allocated ∧
      after.blocks = stocked.blocks := by
    rw [marked.rest]
    exact ⟨rfl, rfl⟩
  have kept : after.libInitialized = before.libInitialized ∧
      after.freed = before.freed ∧ after.blamed = before.blamed := by
    rw [marked.rest, rest]
    exact ⟨rfl, rfl, rfl⟩
  have memory : stocked.memory = before.memory := by
    rw [rest]
  refine ⟨⟨fits, marked.guarded, ?_, ?_, permanent, recorded, ?_, kept.1,
    kept.2.1, kept.2.2⟩, ?_⟩
  · intro region apart
    rw [← memory]
    refine marked.frame region ?_ ?_
    · apply apart.of_within
      · simp only [Region.Within]
        omega
      · exact ⟨le_rfl, le_rfl⟩
    · apply apart.of_within
      · simp only [Region.Within]
        omega
      · exact ⟨le_rfl, le_rfl⟩
  · cases housing with
    | temporary isTemporary base allocated allocatedLe multiple blocks =>
        exact .temporary isTemporary base (sameStock.1.trans allocated)
          (sameStock.1 ▸ allocatedLe) multiple (sameStock.2.trans blocks)
    | granted notTemporary granted apart allocated blocks =>
        exact .granted notTemporary granted apart
          (sameStock.1.trans allocated) (sameStock.2.trans blocks)
  · have ratios := marked.ratios
    rwa [rest] at ratios
  · rw [← memory]
    exact marked.frame

theorem toInt_of_lt
    {size : Nat}
    (sizeLt : size < 2 ^ 31) :
    toInt size = size := by
  rw [toInt, BitVec.toInt_eq_toNat_of_lt]
  · rw [BitVec.toNat_ofNat, Nat.mod_eq_of_lt (by omega)]
  · rw [BitVec.toNat_ofNat, Nat.mod_eq_of_lt (by omega)]
    omega

/-- A request that the conversion to `int` does not cut is rounded up to a
multiple of eight. -/
theorem tempRealsize_eq
    {sz : Nat}
    (szLt : sz + 47 < 2 ^ 31) :
    tempRealsize sz = ((sz + 47) / 8 * 8 : Nat) := by
  have padded : add (mallocRealsize sz) 7 = sz + 47 := by
    simp only [mallocRealsize, add, objectGuardSize, sentinelSize]
    omega
  have masked := land_complement_low (show sz + 47 < 2 ^ 64 by omega)
    (show 3 ≤ 64 by omega)
  change (sz + 47) &&& complement 7 = (sz + 47) / 8 * 8 at masked
  rw [tempRealsize, padded, masked, toInt_of_lt (by omega)]

theorem mallocRealsize_eq
    {sz : Nat}
    (szLt : sz < 2 ^ 63) :
    mallocRealsize sz = sz + 40 := by
  simp only [mallocRealsize, add, objectGuardSize, sentinelSize]
  omega

/-- Before initialisation, the request must survive the conversion to
`int`. -/
def NotCut (heap : Heap) (sz : Nat) : Prop :=
  heap.libInitialized = true ∨ sz + 47 < 2 ^ 31

instance (heap : Heap) (sz : Nat) : Decidable (NotCut heap sz) :=
  inferInstanceAs (Decidable (_ ∨ _))

section Allocation

variable {arena : Arena} {state : HeapState} {answer : Block} {after : Heap}
  {ptr sz : Nat}

theorem Real.memalign_eq_some
    {heap : Heap}
    {alignment size : Nat}
    (returned : Real.memalign arena alignment size answer heap =
      some (ptr, after)) :
    Grants arena heap alignment size answer ∧ ptr = answer.base ∧
      after = { heap with blocks := answer :: heap.blocks } := by
  unfold Real.memalign at returned
  split_ifs at returned with grants
  rw [Option.some.injEq, Prod.mk.injEq] at returned
  exact ⟨grants, returned.1.symm, returned.2.symm⟩

theorem tempmalloc_eq_some
    {heap : Heap}
    {size : Int}
    (returned : tempmalloc arena size heap = some (ptr, after)) :
    heap.allocated + size ≤ initialMallocSize ∧
      ptr = (arena.buf + heap.allocated).toNat ∧
      after = { heap with allocated := heap.allocated + size } := by
  unfold tempmalloc at returned
  split_ifs at returned with exhausted
  rw [Option.some.injEq, Prod.mk.injEq] at returned
  exact ⟨Int.not_lt.mp exhausted, returned.1.symm, returned.2.symm⟩

/-- Threads are not watched before initialisation. -/
theorem recordedCallstack_initialised
    {heap : Heap}
    {watch : Option Watch}
    (valid : ∀ found ∈ watch, found.Valid heap)
    (recorded : recordedCallstack 0 watch ≠ 0) :
    heap.libInitialized = true := by
  cases watch with
  | none => exact absurd rfl recorded
  | some found => exact (valid found rfl).2.2

/-- The object of `malloc` that starts 32 bytes into its block. -/
abbrev mallocPlaced (arena : Arena) (state : HeapState) (sz : Nat)
    (answer : Block) (watch : Option Watch) : Object :=
  HeapState.mallocObject arena state
    ((HeapState.ownBlock arena state.heap sz answer).base + 32) sz answer watch

/-- A block of the underlying allocator holds a new object of `malloc`. -/
theorem malloc_granted
    {watch : Option Watch}
    (initialised : state.heap.libInitialized = true)
    (szLt : sz < 2 ^ 63)
    (callstackLt : recordedCallstack 0 watch < 2 ^ 63)
    (grants : Grants arena state.heap mallocAlignment (mallocRealsize sz)
      answer) :
    (mallocPlaced arena state sz answer watch).Fits ∧
      Housing arena state.heap
        { state.heap with blocks := answer :: state.heap.blocks }
        (mallocPlaced arena state sz answer watch) := by
  have large := grants.large
  have bounded := grants.bounded
  have aligned := grants.aligned
  rw [mallocRealsize_eq szLt] at large
  have own : HeapState.ownBlock arena state.heap sz answer = answer := by
    rw [HeapState.ownBlock, if_pos initialised]
  constructor
  · constructor
    · exact le_rfl
    · simp only [HeapState.mallocObject, own]
      omega
    · simp only [HeapState.mallocObject, own]
      omega
    · simp only [HeapState.mallocObject, own, initialised, if_true]
      exact Nat.dvd_add aligned (by decide)
    · exact callstackLt
  · apply Housing.granted
    · simp [initialised]
    · simp only [HeapState.mallocObject, own]
      exact grants.granted
    · simp only [HeapState.mallocObject, own]
      exact grants.apart
    · rfl
    · simp only [HeapState.mallocObject, own]

/-- So does a piece of the temporary buffer, if the request is not cut. -/
theorem malloc_temporary
    {watch : Option Watch}
    (sound : state.heap.Sound arena)
    (notInitialised : state.heap.libInitialized = false)
    (szLt : sz + 47 < 2 ^ 31)
    (callstackLt : recordedCallstack 0 watch < 2 ^ 63)
    (room : state.heap.allocated + tempRealsize sz ≤ initialMallocSize) :
    (mallocPlaced arena state sz answer watch).Fits ∧
      Housing arena state.heap
        { state.heap with
          allocated := state.heap.allocated + tempRealsize sz }
        (mallocPlaced arena state sz answer watch) := by
  have arenaBounded := arena.bounded
  have nonneg := sound.allocatedNonneg
  have size := tempRealsize_eq szLt
  simp only [initialMallocSize] at arenaBounded room
  have own : HeapState.ownBlock arena state.heap sz answer =
      ⟨(arena.buf + state.heap.allocated).toNat,
        (sz + 47) / 8 * 8⟩ := by
    rw [HeapState.ownBlock, if_neg (by simp [notInitialised]), size]
    rfl
  have multiple : 8 ∣ (arena.buf + state.heap.allocated).toNat := by
    have := arena.aligned
    have := sound.allocatedMultiple
    omega
  constructor
  · constructor
    · exact le_rfl
    · simp only [HeapState.mallocObject, own]
      omega
    · simp only [HeapState.mallocObject, own]
      omega
    · simp only [HeapState.mallocObject, own, notInitialised,
        Bool.false_eq_true, if_false]
      exact Nat.dvd_add multiple (by decide)
    · exact callstackLt
  · apply Housing.temporary
    · simp [notInitialised]
    · simp only [HeapState.mallocObject, own]
      omega
    · simp only [HeapState.mallocObject, own, size]
    · exact room
    · simp only [HeapState.mallocObject, own]
      exact Nat.dvd_mul_left 8 _
    · rfl

/-- Where `xxmalloc` gets a block from. -/
theorem xxmalloc_stocked
    {base : Nat}
    {stocked : Heap}
    {watch : Option Watch}
    (sound : state.heap.Sound arena)
    (szLt : sz < 2 ^ 63)
    (callstackLt : recordedCallstack 0 watch < 2 ^ 63)
    (obtained :
      (if state.heap.libInitialized then
        Real.malloc arena (mallocRealsize sz) answer state.heap
      else tempmalloc arena (tempRealsize sz) state.heap) =
        some (base, stocked)) :
    base = (HeapState.ownBlock arena state.heap sz answer).base ∧
      base + sz + 40 < 2 ^ 64 ∧
      stocked =
        { state.heap with
          allocated := stocked.allocated
          blocks := stocked.blocks } ∧
      (NotCut state.heap sz →
        (mallocPlaced arena state sz answer watch).Fits ∧
          Housing arena state.heap stocked
            (mallocPlaced arena state sz answer watch)) := by
  cases initialised : state.heap.libInitialized with
  | true =>
      rw [if_pos initialised] at obtained
      obtain ⟨grants, rfl, rfl⟩ := Real.memalign_eq_some obtained
      have large := grants.large
      have bounded := grants.bounded
      rw [mallocRealsize_eq szLt] at large
      refine ⟨?_, by omega, rfl, fun _ => ?_⟩
      · rw [HeapState.ownBlock, if_pos initialised]
      · exact malloc_granted initialised szLt callstackLt grants
  | false =>
      rw [if_neg (by simp [initialised])] at obtained
      obtain ⟨room, rfl, rfl⟩ := tempmalloc_eq_some obtained
      have arenaBounded := arena.bounded
      have allocatedLe := sound.allocatedLe
      simp only [initialMallocSize] at arenaBounded allocatedLe
      refine ⟨?_, by omega, rfl, fun notCut => ?_⟩
      · rw [HeapState.ownBlock, if_neg (by simp [initialised])]
      · rcases notCut with done | uncut
        · rw [initialised] at done
          cases done
        · exact malloc_temporary sound initialised uncut callstackLt room

/-- `xxmalloc` guards an object, and allocates if the request is not cut. -/
theorem xxmalloc_placement
    {watch : Option Watch}
    (sound : state.heap.Sound arena)
    (szLt : sz < 2 ^ 63)
    (valid : ∀ found ∈ watch, found.Valid state.heap)
    (returned : xxmalloc arena sz answer watch state.heap =
      some (ptr, after)) :
    ptr = (HeapState.ownBlock arena state.heap sz answer).base + 32 ∧
      (∃ stocked : Heap,
        Marked stocked after
          (HeapState.mallocObject arena state ptr sz answer watch)) ∧
      (NotCut state.heap sz →
        Placement arena state.heap after
          (HeapState.mallocObject arena state ptr sz answer watch)) := by
  have callstackLt : recordedCallstack 0 watch < 2 ^ 63 := by
    cases watch with
    | none => decide
    | some found => exact (valid found rfl).2.1
  have guard : (mallocPlaced arena state sz answer watch).guard =
      (HeapState.ownBlock arena state.heap sz answer).base :=
    Nat.add_sub_cancel ..
  unfold xxmalloc at returned
  obtain ⟨⟨base, stocked⟩, obtained, placed⟩ :=
    Option.map_eq_some_iff.mp returned
  obtain ⟨baseEq, noWrap, rest, housing⟩ :=
    xxmalloc_stocked sound szLt callstackLt obtained
  have marked : (placeObject watch
        (mallocPlaced arena state sz answer watch).guard
        (mallocPlaced arena state sz answer watch).base
        (mallocPlaced arena state sz answer watch).size stocked).1 =
          (mallocPlaced arena state sz answer watch).start ∧
      Marked stocked
        (placeObject watch (mallocPlaced arena state sz answer watch).guard
          (mallocPlaced arena state sz answer watch).base
          (mallocPlaced arena state sz answer watch).size stocked).2
        (mallocPlaced arena state sz answer watch) := by
    refine placeObject_marked ?_ ?_ ?_ rfl callstackLt
    · rw [guard]
      rfl
    · simp only [HeapState.mallocObject]
      omega
    · exact guard.ge
  have result : placeObject watch
      (mallocPlaced arena state sz answer watch).guard
      (mallocPlaced arena state sz answer watch).base
      (mallocPlaced arena state sz answer watch).size stocked =
        (ptr, after) := by
    rw [guard, ← placed, baseEq]
    rfl
  rw [result] at marked
  obtain ⟨start, marked⟩ := marked
  change ptr = (HeapState.ownBlock arena state.heap sz answer).base + 32
    at start
  subst start
  refine ⟨rfl, ⟨stocked, marked⟩, fun notCut => ?_⟩
  obtain ⟨fits, housed⟩ := housing notCut
  refine marked.placement fits housed (fun initialised => ?_)
    (recordedCallstack_initialised valid) rest
  simp [initialised]

/-- `CUSTOM_MALLOC` returns `NULL` for the requests that no object can meet,
and allocates otherwise. -/
theorem customMalloc_cases
    {watch : Option Watch}
    (sound : state.heap.Sound arena)
    (valid : ∀ found ∈ watch, found.Valid state.heap)
    (returned : customMalloc arena sz answer watch state.heap =
      some (ptr, after)) :
    (2 ^ 63 ≤ sz ∧ ptr = 0 ∧ after = state.heap) ∨
      (sz < 2 ^ 63 ∧
        ptr = (HeapState.ownBlock arena state.heap sz answer).base + 32 ∧
        (∃ stocked : Heap,
          Marked stocked after
            (HeapState.mallocObject arena state ptr sz answer watch)) ∧
        (NotCut state.heap sz →
          Placement arena state.heap after
            (HeapState.mallocObject arena state ptr sz answer watch))) := by
  unfold customMalloc at returned
  rw [Nat.shiftRight_eq_div_pow] at returned
  split_ifs at returned with large
  · rw [Option.some.injEq, Prod.mk.injEq] at returned
    exact Or.inl ⟨by omega, returned.1.symm, returned.2.symm⟩
  · have szLt : sz < 2 ^ 63 := by omega
    exact Or.inr ⟨szLt, xxmalloc_placement sound szLt valid returned⟩

/-- Writing the bytes of a new object touches neither its guard nor its tail
word. -/
theorem Allocated.blit
    {before middle : Heap}
    {object : Object}
    (allocated : Allocated arena before middle object)
    {written : Region}
    (within : written.Within object.data)
    (bytes : Nat → UInt8) :
    Allocated arena before
      { middle with memory := ByteMemory.blit middle.memory written bytes }
      object where
  fits := allocated.fits
  guarded := allocated.guarded.blit allocated.fits within bytes
  frame := fun region apart =>
    (allocated.frame region apart).trans
      (agreesOn_blit middle.memory bytes
        (apart.of_within (within.trans allocated.fits.data_within)
          ⟨le_rfl, le_rfl⟩))
  housing := by
    cases allocated.housing with
    | temporary isTemporary base allocated allocatedLe multiple blocks =>
        exact .temporary isTemporary base allocated allocatedLe multiple blocks
    | granted notTemporary granted apart allocated blocks =>
        exact .granted notTemporary granted apart allocated blocks
  permanent := allocated.permanent
  recorded := allocated.recorded
  ratios := allocated.ratios
  libInitialized := allocated.libInitialized
  freed := allocated.freed
  blamed := allocated.blamed

/-- `CUSTOM_CALLOC` returns `NULL` or allocates. -/
theorem customCalloc_cases
    {nelem elsize : Nat}
    (sound : state.heap.Sound arena)
    (notCut : NotCut state.heap (mul nelem elsize))
    (returned : customCalloc arena nelem elsize answer state.heap =
      some (ptr, after)) :
    (ptr = 0 ∧ after = state.heap) ∨
      Allocated arena state.heap after
        (HeapState.mallocObject arena state ptr (mul nelem elsize) answer
          none) := by
  unfold customCalloc at returned
  dsimp only at returned
  split_ifs at returned with overflow
  · rw [Option.some.injEq, Prod.mk.injEq] at returned
    exact Or.inl ⟨returned.1.symm, returned.2.symm⟩
  · obtain ⟨⟨start, middle⟩, obtained, cleared⟩ :=
      Option.map_eq_some_iff.mp returned
    rcases customMalloc_cases sound (by simp) obtained with
      ⟨_, rfl, rfl⟩ | ⟨_, startEq, _, placement⟩
    · left
      simpa [eq_comm] using cleared
    · right
      rw [if_pos (by omega), Prod.mk.injEq] at cleared
      obtain ⟨rfl, rfl⟩ := cleared
      exact (placement notCut).toAllocated.blit ⟨le_rfl, le_rfl⟩ _

/-- An aligned request whose padded size does not wrap. -/
def AlignedRequest (alignment size : Nat) : Prop :=
  alignment.isPowerOfTwo ∧ alignment < 2 ^ 64 ∧
    size + objguardsize alignment + 8 < 2 ^ 64

instance (alignment size : Nat) : Decidable (AlignedRequest alignment size) :=
  inferInstanceAs (Decidable (_ ∧ _ ∧ _))

/-- The guard of an aligned object fills up at least its own size, and keeps
the object aligned. -/
theorem objguardsize_spec
    {alignment : Nat}
    (power : alignment.isPowerOfTwo)
    (alignmentLt : alignment < 2 ^ 64) :
    alignment ∣ objguardsize alignment ∧ 32 ≤ objguardsize alignment ∧
      objguardsize alignment < 32 + alignment := by
  have half : alignment ≤ 2 ^ 63 := by
    obtain ⟨bits, rfl⟩ := power
    have := (Nat.pow_lt_pow_iff_right (a := 2) (by omega)).mp alignmentLt
    exact Nat.pow_le_pow_right (by omega) (by omega)
  exact alignup_spec power (by decide) (by
    simp only [objectGuardSize]
    omega)

/-- `xxmemalign` allocates. -/
theorem xxmemalign_placement
    {alignment size : Nat}
    {watch : Option Watch}
    (request : AlignedRequest alignment size)
    (valid : ∀ found ∈ watch, found.Valid state.heap)
    (returned : xxmemalign arena alignment size answer watch state.heap =
      some (ptr, after)) :
    Placement arena state.heap after
      (HeapState.memalignObject state ptr alignment size answer watch) := by
  have callstackLt : recordedCallstack 0 watch < 2 ^ 63 := by
    cases watch with
    | none => decide
    | some found => exact (valid found rfl).2.1
  obtain ⟨power, alignmentLt, noWrap⟩ := request
  obtain ⟨divides, guardLe, _⟩ := objguardsize_spec power alignmentLt
  unfold xxmemalign at returned
  obtain ⟨⟨base, stocked⟩, obtained, placed⟩ :=
    Option.map_eq_some_iff.mp returned
  obtain ⟨grants, rfl, rfl⟩ := Real.memalign_eq_some obtained
  have large := grants.large
  have bounded := grants.bounded
  have padded : memalignRealsize alignment size =
      size + objguardsize alignment + 8 := by
    simp only [memalignRealsize, add, sentinelSize]
    omega
  rw [padded] at large
  have guard : sub (add answer.base (objguardsize alignment))
      objectGuardSize =
        (HeapState.memalignObject state
          (answer.base + objguardsize alignment) alignment size answer
          watch).guard := by
    simp only [objectGuardSize, Object.guard, HeapState.memalignObject]
    rw [add_of_lt (by omega), sub_of_le (by omega) (by omega)]
  have fits : (HeapState.memalignObject state
      (answer.base + objguardsize alignment) alignment size answer
      watch).Fits := by
    constructor
    · simp only [HeapState.memalignObject]
      omega
    · simp only [HeapState.memalignObject]
      omega
    · exact bounded
    · exact Nat.dvd_add grants.aligned divides
    · exact callstackLt
  have housing : Housing arena state.heap
      { state.heap with blocks := answer :: state.heap.blocks }
      (HeapState.memalignObject state
        (answer.base + objguardsize alignment) alignment size answer watch) :=
    .granted rfl grants.granted grants.apart rfl rfl
  obtain ⟨start, marked⟩ :=
    placeObject_marked fits.guard_add
      (by
        have := fits.tailInside
        have := fits.bounded
        omega)
      (by
        have := fits.guardInside
        have := fits.guard_add
        omega)
      rfl callstackLt
  have result : placeObject watch
      (HeapState.memalignObject state
        (answer.base + objguardsize alignment) alignment size answer
        watch).guard answer.base size
      { state.heap with blocks := answer :: state.heap.blocks } =
        (ptr, after) := by
    rw [← guard]
    exact placed
  change (placeObject watch _ answer.base size _).1 = _ at start
  change Marked _ (placeObject watch _ answer.base size _).2 _ at marked
  rw [result] at start marked
  change ptr = answer.base + objguardsize alignment at start
  subst start
  exact marked.placement fits housing (fun _ => rfl)
    (recordedCallstack_initialised valid) rfl

end Allocation

/-! ## Release -/

/-- The object's block is a piece of the temporary buffer that has been given
out, or a block that is still allocated. -/
structure Housed (arena : Arena) (heap : Heap) (object : Object) : Prop where
  temporary : object.temporary = true →
    arena.buf ≤ object.base ∧
      (object.base + object.len : Int) ≤ arena.buf + heap.allocated
  granted : object.temporary = false →
    Block.mk object.base object.len ∈ heap.blocks

/-- Objects are temporary exactly when `xxrealfree` takes them to be. -/
def Object.Sited (arena : Arena) (object : Object) : Prop :=
  object.temporary = false ↔
    object.start > arena.buf + initialMallocSize ∨ object.start < arena.buf

theorem Housed.sited
    {arena : Arena}
    {heap : Heap}
    {object : Object}
    (housed : Housed arena heap object)
    (sound : heap.Sound arena)
    (fits : object.Fits) :
    object.Sited arena := by
  have guardInside := fits.guardInside
  have tailInside := fits.tailInside
  have allocatedLe := sound.allocatedLe
  simp only [Object.Sited, initialMallocSize] at allocatedLe ⊢
  cases temporary : object.temporary with
  | true =>
      have := housed.temporary temporary
      simp only [Bool.true_eq_false, false_iff]
      omega
  | false =>
      have := (sound.granted _ (housed.granted temporary)).offArena
      simp only [initialMallocSize] at this
      simp only [true_iff]
      omega

section

variable (ptr : Nat) (heap : Heap)

@[simp] theorem Real.free_memory :
    (Real.free ptr heap).memory = heap.memory := by
  unfold Real.free
  split_ifs <;> rfl

@[simp] theorem Real.free_watchedRatio :
    (Real.free ptr heap).watchedRatio = heap.watchedRatio := by
  unfold Real.free
  split_ifs <;> rfl

@[simp] theorem Real.free_blamed :
    (Real.free ptr heap).blamed = heap.blamed := by
  unfold Real.free
  split_ifs <;> rfl

end

/-- What setting the ratio of a recorded call site does. -/
structure Blamed (before after : Heap) (callstack : Nat) : Prop where
  rest : after =
    { before with
      watchedRatio := after.watchedRatio
      blamed := after.blamed }
  unrecorded : callstack = 0 → after = before
  ratio : callstack ≠ 0 →
    after.watchedRatio =
      Function.update before.watchedRatio callstack
        (some maxWatchRatioUpperbound)
  blamed : callstack ≠ 0 → after.blamed = before.blamed ++ [callstack]

theorem blamed_of_blame
    {before after : Heap}
    {callstack : Nat}
    (returned : blame callstack before = some after) :
    Blamed before after callstack := by
  unfold blame at returned
  split_ifs at returned with unrecorded known
  · rw [Option.some.injEq] at returned
    subst returned
    exact ⟨rfl, fun _ => rfl, absurd unrecorded, absurd unrecorded⟩
  · rw [Option.some.injEq] at returned
    subst returned
    exact ⟨rfl, fun absent => absurd absent unrecorded, fun _ => rfl,
      fun _ => rfl⟩

/-- `CUSTOM_FREE` of a guarded permanent object. -/
theorem customFree_guarded
    {arena : Arena}
    {heap : Heap}
    {object : Object}
    (sited : object.Sited arena)
    (fits : object.Fits)
    (permanent : object.temporary = false)
    (guarded : Guarded heap.memory object) :
    ∃ after, customFree arena object.start heap = some after := by
  have guardInside := fits.guardInside
  have goodTail : isGoodTail heap.memory object.guard = true :=
    (isGoodTail_iff guarded.holds fits.tail_noWrap).mpr guarded.tail
  unfold customFree xxfree xxrealfree checkPointer
  dsimp only
  rw [if_pos ⟨by omega, sited.mp permanent⟩, fits.getObjectGuard_eq,
    if_pos (isGoodHead_iff.mpr guarded.head), if_pos goodTail]
  exact ⟨_, rfl⟩

/-- What `CUSTOM_FREE` does to an object, by what its check finds. -/
inductive Released (before after : Heap) (object : Object) : Prop
  | temporary
      (isTemporary : object.temporary = true)
      (same : after = before)
  | good
      (notTemporary : object.temporary = false)
      (head : HasHead before.memory object.guard)
      (tail : isGoodTail before.memory object.guard = true)
      (result : after =
        Real.free (getRealPtr before.memory object.guard)
          { before with memory := resetHead before.memory object.guard })
  | overflowed
      (notTemporary : object.temporary = false)
      (head : HasHead before.memory object.guard)
      (tail : isGoodTail before.memory object.guard = false)
      (middle : Heap)
      (blamed : Blamed before middle
        (getCallstack before.memory object.guard))
      (result : after =
        Real.free (getRealPtr before.memory object.guard)
          { middle with memory := resetHead before.memory object.guard })
  | lost
      (notTemporary : object.temporary = false)
      (noHead : ¬HasHead before.memory object.guard)
      (head : Nat)
      (found : findHead before.memory (object.guard / 8 + 1) object.guard =
        some head)
      (blamed : Blamed before after
        (readWord before.memory (sub head 8)))

/-- Clearing the head word leaves the pointer to free. -/
theorem getRealPtr_resetHead
    (memory : Memory)
    (guard : Nat) :
    getRealPtr (resetHead memory guard) guard = getRealPtr memory guard :=
  readWord_writeWord_of_apart memory 0 (by simp [Region.Apart])

theorem customFree_released
    {arena : Arena}
    {before after : Heap}
    {object : Object}
    (sited : object.Sited arena)
    (fits : object.Fits)
    (returned : customFree arena object.start before = some after) :
    Released before after object := by
  have guardInside := fits.guardInside
  unfold customFree xxfree xxrealfree at returned
  cases temporary : object.temporary with
  | true =>
      have inside : ¬(object.start > arena.buf + initialMallocSize ∨
          object.start < arena.buf) := by
        intro outside
        have := sited.mpr outside
        rw [temporary] at this
        cases this
      rw [if_neg (fun outside => inside outside.2), Option.some.injEq]
        at returned
      exact .temporary temporary returned.symm
  | false =>
      rw [if_pos ⟨by omega, sited.mp temporary⟩] at returned
      obtain ⟨⟨ptr, middle⟩, checked, rfl⟩ :=
        Option.map_eq_some_iff.mp returned
      unfold checkPointer at checked
      dsimp only at checked
      rw [fits.getObjectGuard_eq] at checked
      split_ifs at checked with head tail
      · rw [Option.map_some, Option.some.injEq, Prod.mk.injEq,
          getRealPtr_resetHead] at checked
        obtain ⟨rfl, rfl⟩ := checked
        exact .good temporary (isGoodHead_iff.mp head) tail rfl
      · obtain ⟨blamedHeap, blamed, result⟩ :=
          Option.map_eq_some_iff.mp checked
        have blamedFacts := blamed_of_blame blamed
        have sameMemory : blamedHeap.memory = before.memory := by
          rw [blamedFacts.rest]
        rw [Prod.mk.injEq, getRealPtr_resetHead, sameMemory] at result
        obtain ⟨rfl, rfl⟩ := result
        exact .overflowed temporary (isGoodHead_iff.mp head)
          (Bool.eq_false_iff.mpr tail) blamedHeap blamedFacts rfl
      · obtain ⟨found, search, rest⟩ := Option.bind_eq_some_iff.mp checked
        obtain ⟨blamedHeap, blamed, result⟩ :=
          Option.map_eq_some_iff.mp rest
        rw [Prod.mk.injEq] at result
        obtain ⟨rfl, rfl⟩ := result
        refine .lost temporary ?_ found search (blamed_of_blame blamed)
        rwa [← isGoodHead_iff]

/-- What a release does to memory and to the stock. -/
structure Returned (before after : Heap) (object : Object) : Prop where
  frame : ∀ region : Region, (wordAt (object.guard + 24)).Apart region →
    AgreesOn region before.memory after.memory
  allocated : after.allocated = before.allocated
  libInitialized : after.libInitialized = before.libInitialized
  fewer : ∀ block ∈ after.blocks, block ∈ before.blocks
  others : ∀ block ∈ before.blocks, block.base ≠ object.base →
    block ∈ after.blocks

/-- A release changes nothing outside the object's block. -/
theorem Returned.outside
    {before after : Heap}
    {object : Object}
    (returned : Returned before after object)
    (fits : object.Fits)
    {region : Region}
    (apart : object.block.Apart region) :
    AgreesOn region before.memory after.memory := by
  apply returned.frame
  apply apart.of_within _ ⟨le_rfl, le_rfl⟩
  apply Region.Within.trans _ fits.span_within
  simp only [Region.Within, Object.guard]
  omega

/-- Freeing the object's block leaves the other blocks. -/
theorem returned_free
    {before middle : Heap}
    {object : Object}
    {ptr : Nat}
    (pointer : ptr = object.base)
    (allocated : middle.allocated = before.allocated)
    (libInitialized : middle.libInitialized = before.libInitialized)
    (blocks : middle.blocks = before.blocks) :
    Returned before
      (Real.free ptr
        { middle with memory := resetHead before.memory object.guard })
      object := by
  subst pointer
  unfold Real.free
  split_ifs with null
  · exact ⟨fun region apart => agreesOn_resetHead apart, allocated,
      libInitialized, fun block member => blocks ▸ member,
      fun block member _ => blocks ▸ member⟩
  · refine ⟨fun region apart => agreesOn_resetHead apart, allocated,
      libInitialized, ?_, ?_⟩
    · intro block member
      exact blocks ▸ (List.mem_filter.mp member).1
    · intro block member different
      exact List.mem_filter.mpr ⟨blocks ▸ member, decide_eq_true different⟩

theorem Released.returned
    {before after : Heap}
    {object : Object}
    (released : Released before after object)
    (pointer : HasHead before.memory object.guard →
      getRealPtr before.memory object.guard = object.base) :
    Returned before after object := by
  cases released with
  | temporary isTemporary same =>
      subst same
      exact ⟨fun region _ => AgreesOn.refl region _, rfl, rfl,
        fun _ member => member, fun _ member _ => member⟩
  | good notTemporary head tail result =>
      rw [result]
      exact returned_free (pointer head) rfl rfl rfl
  | overflowed notTemporary head tail middle blamed result =>
      rw [result]
      apply returned_free (pointer head)
      all_goals rw [blamed.rest]
  | lost notTemporary noHead head found blamed =>
      rw [blamed.rest]
      exact ⟨fun region _ => AgreesOn.refl region _, rfl, rfl,
        fun _ member => member, fun _ member _ => member⟩

/-- The tail that the check at free looks at is the object's. -/
theorem isGoodTail_iff_hasTail
    {memory : Memory}
    {object : Object}
    (fits : object.Fits)
    (holds : Holds memory object.guard object.base object.size
      object.callstack) :
    isGoodTail memory object.guard = true ↔
      HasTail memory object.guard object.size :=
  isGoodTail_iff holds fits.tail_noWrap

/-- The release of a guarded object: nothing is blamed, and exactly the pointer
that the underlying allocator returned goes back to it. -/
structure CleanRelease (before after : Heap) (object : Object) : Prop where
  ratios : after.watchedRatio = before.watchedRatio
  blamed : after.blamed = before.blamed
  freed : after.freed =
    before.freed ++ if object.temporary then [] else [object.base]

theorem Released.clean
    {before after : Heap}
    {object : Object}
    (released : Released before after object)
    (fits : object.Fits)
    (guarded : Guarded before.memory object)
    (basePos : object.temporary = false → object.base ≠ 0) :
    CleanRelease before after object := by
  have goodTail : isGoodTail before.memory object.guard = true :=
    (isGoodTail_iff_hasTail fits guarded.holds).mpr guarded.tail
  cases released with
  | temporary isTemporary same =>
      rw [same]
      exact ⟨rfl, rfl, by rw [if_pos isTemporary, List.append_nil]⟩
  | good notTemporary head tail result =>
      rw [result, guarded.holds.realPtr, Real.free,
        if_neg (basePos notTemporary)]
      exact ⟨rfl, rfl, by simp [notTemporary]⟩
  | overflowed notTemporary head tail middle blamed result =>
      rw [goodTail] at tail
      cases tail
  | lost notTemporary noHead head found blamed =>
      exact absurd guarded.head noHead

/-- The block of a permanent object is not reused before it is freed. -/
theorem Real.mallocUsableSize_of_mem
    {arena : Arena}
    {heap : Heap}
    {block : Block}
    (sound : heap.Sound arena)
    (member : block ∈ heap.blocks) :
    Real.mallocUsableSize block.base heap = some block.usable := by
  have granted := sound.granted block member
  rw [Real.mallocUsableSize, if_neg granted.positive.ne']
  cases found : heap.blocks.find? fun other => other.base = block.base with
  | none =>
      have := List.find?_eq_none.mp found block member
      simp at this
  | some other =>
      have otherMember := List.mem_of_find?_eq_some found
      have sameBase : other.base = block.base := by
        simpa using List.find?_some found
      have same : other = block := by
        by_contra different
        have apart := sound.apart other otherMember block member different
        have otherNonempty := (sound.granted other otherMember).nonempty
        have nonempty := granted.nonempty
        simp only [Region.Apart] at apart
        omega
      rw [same, Option.map_some]

/-- The size that `xxmalloc_usable_size` reports for an object. -/
def reportedSize (object : Object) : Nat :=
  if object.temporary then 1 else object.len

theorem xxmallocUsableSize_eq
    {arena : Arena}
    {heap : Heap}
    {object : Object}
    (sound : heap.Sound arena)
    (housed : Housed arena heap object)
    (guardEq : getObjectGuard object.start = object.guard)
    (pointer : getRealPtr heap.memory object.guard = object.base) :
    xxmallocUsableSize arena object.start heap =
      some (reportedSize object) := by
  simp only [xxmallocUsableSize, guardEq, pointer, reportedSize]
  cases temporary : object.temporary with
  | true =>
      have inArena := housed.temporary temporary
      have allocatedLe := sound.allocatedLe
      rw [if_pos (by omega), if_pos rfl]
  | false =>
      have member := housed.granted temporary
      have offArena := (sound.granted _ member).offArena
      have nonempty := (sound.granted _ member).nonempty
      simp only [initialMallocSize] at offArena nonempty ⊢
      rw [if_neg (by omega), if_neg Bool.false_ne_true]
      exact Real.mallocUsableSize_of_mem sound member

end Causer
