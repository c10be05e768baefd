import Causer.HeapRuns

/-!
# What is reported as usable

The size that is reported for an object is that of its block, counted from the
start of the block, but the object starts behind its guard.  The bytes reported
therefore end beyond the block, by as much as the object is into it, and
realloc copies some of those bytes whenever it asks for more than there are.
This concerns every object that the application holds and whose guard still
points to its block, whatever has happened to the rest of memory.
-/

namespace Causer

open ByteMemory WordArithmetic ObjectGuard

/-- The arguments of `memcpy`. -/
structure Memcpy where
  dest : Nat
  src : Nat
  n : Nat
  deriving DecidableEq

/-- The bytes that are read. -/
abbrev Memcpy.read (memcpy : Memcpy) : Region := ⟨memcpy.src, memcpy.n⟩

/-- The bytes that are written. -/
abbrev Memcpy.written (memcpy : Memcpy) : Region := ⟨memcpy.dest, memcpy.n⟩

/-- The copy that `CUSTOM_REALLOC` makes, if it makes one, and the heap that it
finds. -/
def reallocMemcpy (arena : Arena) (ptr sz : Nat) (answer : Block)
    (watch : Option (Watch × Watch)) (heap : Heap) :
    Option (Memcpy × Heap) :=
  if ptr = 0 ∨ sz = 0 then none
  else
    (xxmallocUsableSize arena ptr heap).bind fun objSize =>
      (customMalloc arena sz answer (watch.map Prod.fst) heap).bind
        fun (buf, heap) =>
          if buf ≠ 0 then
            (xxmallocUsableSize arena buf heap).bind fun bufSize =>
              if objSize = bufSize then none
              else some (⟨buf, ptr, if objSize < sz then objSize else sz⟩, heap)
          else none

section

variable {arena : Arena} {ptr sz : Nat} {answer : Block}
  {watch : Option (Watch × Watch)} {heap middle : Heap} {memcpy : Memcpy}

theorem lesser_eq_min
    (objSize sz : Nat) :
    (if objSize < sz then objSize else sz) = min objSize sz := by
  split_ifs <;> omega

/-- What is known when a copy is made. -/
theorem reallocMemcpy_eq_some
    (copies : reallocMemcpy arena ptr sz answer watch heap =
      some (memcpy, middle)) :
    ptr ≠ 0 ∧ sz ≠ 0 ∧
      ∃ objSize bufSize,
        xxmallocUsableSize arena ptr heap = some objSize ∧
        customMalloc arena sz answer (watch.map Prod.fst) heap =
          some (memcpy.dest, middle) ∧
        memcpy.dest ≠ 0 ∧
        xxmallocUsableSize arena memcpy.dest middle = some bufSize ∧
        objSize ≠ bufSize ∧
        memcpy = ⟨memcpy.dest, ptr, min objSize sz⟩ := by
  unfold reallocMemcpy at copies
  simp only [lesser_eq_min] at copies
  split_ifs at copies with trivialCall
  obtain ⟨nonnull, nonempty⟩ := not_or.mp trivialCall
  obtain ⟨objSize, reported, rest⟩ := Option.bind_eq_some_iff.mp copies
  obtain ⟨⟨buf, obtained⟩, allocates, rest⟩ := Option.bind_eq_some_iff.mp rest
  dsimp only at rest
  split_ifs at rest with bufNonnull
  obtain ⟨bufSize, bufReported, rest⟩ := Option.bind_eq_some_iff.mp rest
  split_ifs at rest with sameSize
  rw [Option.some.injEq, Prod.mk.injEq] at rest
  obtain ⟨rfl, rfl⟩ := rest
  refine ⟨nonnull, nonempty, objSize, bufSize, reported, allocates, bufNonnull,
    bufReported, sameSize, rfl⟩

/-- A call of realloc that makes a copy returns its destination. -/
theorem customRealloc_of_memcpy
    (copies : reallocMemcpy arena ptr sz answer watch heap =
      some (memcpy, middle)) :
    customRealloc arena ptr sz answer watch heap =
      (customFree arena ptr
        { middle with
          memory := copy middle.memory memcpy.dest memcpy.src memcpy.n }).map
        fun after => (memcpy.dest, after) := by
  obtain ⟨nonnull, nonempty, objSize, bufSize, reported, allocates, bufNonnull,
    bufReported, different, arguments⟩ := reallocMemcpy_eq_some copies
  rw [customRealloc, if_neg nonnull, if_neg nonempty, reported,
    Option.bind_some, allocates, Option.bind_some]
  dsimp only
  rw [if_pos bufNonnull, bufReported, Option.bind_some, if_neg different,
    lesser_eq_min]
  rw [arguments]

end

/-- A permanent object lies behind a guard in a block that was granted. -/
structure Object.Behind (arena : Arena) (object : Object) : Prop where
  granted : Block.Granted arena ⟨object.base, object.len⟩
  guardInside : object.base + 32 ≤ object.start
  bounded : object.start < 2 ^ 64

/-- Every permanent object does. -/
def AllBehind (arena : Arena) (state : HeapState) : Prop :=
  ∀ object ∈ state.live, object.temporary = false → object.Behind arena

/-- Alignments are those that `memalign` is specified for. -/
def ProperAlignment : HeapAction → Prop
  | .memalign alignment _ _ _ =>
      alignment.isPowerOfTwo ∧ alignment < 2 ^ 64
  | .posixMemalign alignment _ _ _ => alignment < 2 ^ 64
  | _ => True

instance : ∀ action, Decidable (ProperAlignment action)
  | .initialise
  | .malloc _ _ _
  | .calloc _ _ _
  | .memalign _ _ _ _
  | .posixMemalign _ _ _ _
  | .free _
  | .realloc _ _ _ _
  | .write _ _ => by
      unfold ProperAlignment
      infer_instance

section

variable {arena : Arena} {state next : HeapState} {answer : Block}
  {ptr sz : Nat} {after : Heap} {object : Object}

/-- A permanent object of `malloc` starts behind its guard. -/
theorem behind_of_customMalloc
    {watch : Option Watch}
    (returned : customMalloc arena sz answer watch state.heap =
      some (ptr, after))
    (nonnull : ptr ≠ 0)
    (recorded : Option Watch)
    (permanent : (HeapState.mallocObject arena state ptr sz answer
      recorded).temporary = false) :
    (HeapState.mallocObject arena state ptr sz answer recorded).Behind
      arena := by
  have initialised : state.heap.libInitialized = true := by
    simpa using permanent
  have own : HeapState.ownBlock arena state.heap sz answer = answer :=
    if_pos initialised
  unfold customMalloc at returned
  split_ifs at returned with large
  · rw [Option.some.injEq, Prod.mk.injEq] at returned
    exact absurd returned.1.symm nonnull
  · unfold xxmalloc at returned
    rw [if_pos initialised] at returned
    obtain ⟨⟨base, stocked⟩, obtained, placed⟩ :=
      Option.map_eq_some_iff.mp returned
    obtain ⟨grants, rfl, -⟩ := Real.memalign_eq_some obtained
    have bounded := grants.bounded
    have start : ptr = answer.base + 32 := by
      rw [← getStartPtr_eq (by omega)]
      exact (congrArg Prod.fst placed).symm
    constructor
    · simp only [HeapState.mallocObject, own]
      exact grants.granted
    · simp only [HeapState.mallocObject, own]
      omega
    · simp only [HeapState.mallocObject]
      omega

/-- So does one of `memalign`, also when the size wraps. -/
theorem behind_of_xxmemalign
    {alignment size : Nat}
    {watch : Option Watch}
    (power : alignment.isPowerOfTwo)
    (alignmentLt : alignment < 2 ^ 64)
    (returned : xxmemalign arena alignment size answer watch state.heap =
      some (ptr, after)) :
    (HeapState.memalignObject state ptr alignment size answer watch).Behind
      arena := by
  obtain ⟨divides, guardLe, guardLt⟩ := objguardsize_spec power alignmentLt
  obtain ⟨bits, rfl⟩ := power
  have bitsLt := (Nat.pow_lt_pow_iff_right (a := 2) (by omega)).mp alignmentLt
  have half : 2 ^ bits ≤ 2 ^ 63 :=
    Nat.pow_le_pow_right (by omega) (by omega)
  unfold xxmemalign at returned
  obtain ⟨⟨base, stocked⟩, obtained, placed⟩ :=
    Option.map_eq_some_iff.mp returned
  obtain ⟨grants, rfl, -⟩ := Real.memalign_eq_some obtained
  have bounded := grants.bounded
  -- a guard longer than its own 32 bytes is as long as the alignment
  have guardSize : objguardsize (2 ^ bits) ≤ 2 ^ 63 := by
    obtain ⟨times, multiple⟩ := divides
    rcases Nat.lt_or_ge (2 ^ bits) 32 with small | large
    · omega
    · have once : times ≤ 1 := by
        by_contra more
        have : 2 ^ bits * 2 ≤ 2 ^ bits * times :=
          Nat.mul_le_mul_left _ (by omega)
        omega
      calc
        objguardsize (2 ^ bits) = 2 ^ bits * times := multiple
        _ ≤ 2 ^ bits * 1 := Nat.mul_le_mul_left _ once
        _ ≤ 2 ^ 63 := by omega
  have start : ptr = answer.base + objguardsize (2 ^ bits) := by
    have guard : sub (add answer.base (objguardsize (2 ^ bits)))
        objectGuardSize =
          answer.base + objguardsize (2 ^ bits) - 32 := by
      rw [add_of_lt (by omega), objectGuardSize,
        sub_of_le (by omega) (by omega)]
    have placedStart : getStartPtr _ = ptr := congrArg Prod.fst placed
    rw [guard, getStartPtr_eq (by omega)] at placedStart
    omega
  constructor
  · exact grants.granted
  · simp only [HeapState.memalignObject]
    omega
  · simp only [HeapState.memalignObject]
    omega

/-- What realloc can return. -/
theorem customRealloc_result
    {watch : Option (Watch × Watch)}
    {heap : Heap}
    {result : Nat}
    (returned : customRealloc arena ptr sz answer watch heap =
      some (result, after)) :
    result = 0 ∨ result = ptr ∨
      ∃ middle, customMalloc arena sz answer (watch.map Prod.fst) heap =
        some (result, middle) := by
  unfold customRealloc at returned
  simp only [lesser_eq_min] at returned
  split_ifs at returned with null empty
  · exact Or.inr (Or.inr ⟨after, returned⟩)
  · obtain ⟨freed, -, resultEq⟩ := Option.map_eq_some_iff.mp returned
    exact Or.inl (congrArg Prod.fst resultEq).symm
  · obtain ⟨objSize, -, rest⟩ := Option.bind_eq_some_iff.mp returned
    obtain ⟨⟨buf, middle⟩, obtained, rest⟩ := Option.bind_eq_some_iff.mp rest
    dsimp only at rest
    split_ifs at rest with bufNonnull
    · obtain ⟨bufSize, -, rest⟩ := Option.bind_eq_some_iff.mp rest
      split_ifs at rest with sameSize
      · obtain ⟨freed, -, resultEq⟩ := Option.map_eq_some_iff.mp rest
        exact Or.inr (Or.inl (congrArg Prod.fst resultEq).symm)
      · obtain ⟨freed, -, resultEq⟩ := Option.map_eq_some_iff.mp rest
        obtain rfl : buf = result := congrArg Prod.fst resultEq
        exact Or.inr (Or.inr ⟨middle, obtained⟩)
    · obtain ⟨freed, -, resultEq⟩ := Option.map_eq_some_iff.mp rest
      obtain rfl : buf = result := congrArg Prod.fst resultEq
      exact Or.inr (Or.inr ⟨middle, obtained⟩)

theorem AllBehind.of_subset
    (behind : AllBehind arena state)
    (fewer : next.live ⊆ state.live) :
    AllBehind arena next :=
  fun object live permanent => behind object (fewer live) permanent

theorem AllBehind.release
    (behind : AllBehind arena state) :
    AllBehind arena (state.release after object) :=
  behind.of_subset fun _ member => List.mem_of_mem_filter member

theorem AllBehind.handOut
    (behind : AllBehind arena state)
    (new : object.start ≠ 0 → object.temporary = false →
      object.Behind arena) :
    AllBehind arena (state.handOut after object) := by
  unfold HeapState.handOut
  split_ifs with null
  · exact behind
  · intro other live permanent
    rcases List.mem_append.mp live with former | last
    · exact behind other former permanent
    · obtain rfl := List.mem_singleton.mp last
      exact new null permanent

/-- A call of realloc keeps objects behind their guards. -/
theorem AllBehind.realloc
    {watch : Option (Watch × Watch)}
    (behind : AllBehind arena state)
    (stepped : HeapState.reallocStep arena state ptr sz answer watch =
      some next) :
    AllBehind arena next := by
  unfold HeapState.reallocStep at stepped
  split_ifs at stepped with null
  · obtain ⟨⟨result, after⟩, returned, rfl⟩ :=
      Option.map_eq_some_iff.mp stepped
    rw [customRealloc, if_pos null] at returned
    exact behind.handOut fun nonnull permanent =>
      behind_of_customMalloc returned nonnull _ permanent
  · obtain ⟨object, found, rest⟩ := Option.bind_eq_some_iff.mp stepped
    obtain ⟨live, rfl⟩ := HeapState.find_live found
    obtain ⟨⟨result, after⟩, returned, rfl⟩ :=
      Option.map_eq_some_iff.mp rest
    dsimp only
    unfold HeapState.reallocated
    split_ifs with kept
    · intro other member permanent
      rcases List.mem_append.mp member with former | last
      · exact behind other (List.mem_of_mem_filter former) permanent
      · obtain rfl := List.mem_singleton.mp last
        have same := behind object live permanent
        exact ⟨same.granted, same.guardInside, same.bounded⟩
    · apply behind.release.handOut
      intro nonnull permanent
      rcases customRealloc_result returned with
        rfl | rfl | ⟨middle, obtained⟩
      · exact absurd rfl nonnull
      · exact absurd rfl kept
      · exact behind_of_customMalloc obtained nonnull _ permanent

/-- So does every other action. -/
theorem AllBehind.step
    {action : HeapAction}
    (behind : AllBehind arena state)
    (proper : ProperAlignment action)
    (stepped : HeapState.step arena state action = some next) :
    AllBehind arena next := by
  cases action with
  | initialise =>
      cases stepped
      exact behind
  | malloc sz answer watch =>
      obtain ⟨-, returned⟩ := HeapState.watching_eq_some stepped
      obtain ⟨⟨ptr, after⟩, obtained, rfl⟩ :=
        Option.map_eq_some_iff.mp returned
      exact behind.handOut fun nonnull permanent =>
        behind_of_customMalloc obtained nonnull _ permanent
  | calloc nelem elsize answer =>
      obtain ⟨⟨ptr, after⟩, obtained, rfl⟩ :=
        Option.map_eq_some_iff.mp stepped
      apply behind.handOut
      intro nonnull permanent
      unfold customCalloc at obtained
      dsimp only at obtained
      split_ifs at obtained with overflow
      · exact absurd (congrArg Prod.fst (Option.some.inj obtained)).symm
          nonnull
      · obtain ⟨⟨start, middle⟩, allocated, cleared⟩ :=
          Option.map_eq_some_iff.mp obtained
        have same : start = ptr := by
          dsimp only at cleared
          split_ifs at cleared <;> exact congrArg Prod.fst cleared
        subst same
        exact behind_of_customMalloc allocated nonnull _ permanent
  | memalign alignment size answer watch =>
      obtain ⟨-, returned⟩ := HeapState.watching_eq_some stepped
      obtain ⟨⟨ptr, after⟩, obtained, rfl⟩ :=
        Option.map_eq_some_iff.mp returned
      exact behind.handOut fun _ _ =>
        behind_of_xxmemalign proper.1 proper.2 obtained
  | posixMemalign alignment size answer watch =>
      obtain ⟨-, returned⟩ := HeapState.watching_eq_some stepped
      obtain ⟨⟨outcome, after⟩, obtained, rfl⟩ :=
        Option.map_eq_some_iff.mp returned
      unfold customPosixMemalign at obtained
      split_ifs at obtained with refused
      · cases obtained
        exact behind
      · have power := isPowerOfTwo_of_not_refused proper refused
        obtain ⟨⟨ptr, placed⟩, aligned, outcomeEq⟩ :=
          Option.map_eq_some_iff.mp obtained
        dsimp only at outcomeEq
        split_ifs at outcomeEq with null
        · cases outcomeEq
          exact behind
        · cases outcomeEq
          exact behind.handOut fun _ _ =>
            behind_of_xxmemalign power proper aligned
  | free ptr =>
      unfold HeapState.step HeapState.freeStep at stepped
      dsimp only at stepped
      split_ifs at stepped with null
      · obtain ⟨after, -, rfl⟩ := Option.map_eq_some_iff.mp stepped
        exact behind
      · obtain ⟨object, -, rest⟩ := Option.bind_eq_some_iff.mp stepped
        obtain ⟨after, -, rfl⟩ := Option.map_eq_some_iff.mp rest
        exact behind.release
  | realloc ptr sz answer watch =>
      obtain ⟨-, returned⟩ := HeapState.watching_eq_some stepped
      obtain ⟨-, returned⟩ := HeapState.watching_eq_some returned
      exact behind.realloc returned
  | write address bytes =>
      cases stepped
      exact behind

end

/-- In every run, permanent objects lie behind their guards. -/
theorem allBehind_of_run
    {arena : Arena}
    {heap : Heap}
    {actions : List HeapAction}
    {state : HeapState}
    (proper : Machine.Along (HeapState.step arena)
      (fun _ action => ProperAlignment action) (HeapState.start heap) actions)
    (executed : Machine.run (HeapState.step arena) (HeapState.start heap)
      actions = some state) :
    AllBehind arena state := by
  have preserved : ∀ state action next, AllBehind arena state →
      ProperAlignment action →
      HeapState.step arena state action = some next →
      AllBehind arena next :=
    fun _ _ _ behind proper stepped => behind.step proper stepped
  exact Machine.run_invariant preserved (by simp [AllBehind, HeapState.start])
    proper executed

/-- The usable bytes of an object lie in its own block, and so do those that
realloc copies from it, which it writes to the new object. -/
structure UsableInside (arena : Arena) (heap : Heap) (object : Object) :
    Prop where
  usable : ∀ size ∈ xxmallocUsableSize arena object.start heap,
    Region.Within ⟨object.start, size⟩ object.block
  read : ∀ sz answer watch memcpy middle,
    reallocMemcpy arena object.start sz answer watch heap =
      some (memcpy, middle) → memcpy.read.Within object.block
  written : ∀ sz answer watch memcpy middle,
    reallocMemcpy arena object.start sz answer watch heap =
      some (memcpy, middle) → memcpy.written.Within ⟨memcpy.dest, sz⟩

/-- A permanent object whose block is still allocated and whose guard points to
it is said to have as many usable bytes as the whole block has. -/
theorem xxmallocUsableSize_of_behind
    {arena : Arena}
    {heap : Heap}
    {object : Object}
    (behind : object.Behind arena)
    (points : Points heap.memory object)
    (exact : Real.mallocUsableSize object.base heap = some object.len) :
    xxmallocUsableSize arena object.start heap = some object.len := by
  have guardInside := behind.guardInside
  have offArena := behind.granted.offArena
  have nonempty := behind.granted.nonempty
  have guardEq : getObjectGuard object.start = object.guard :=
    getObjectGuard_eq (by omega) behind.bounded
  have pointer : getRealPtr heap.memory object.guard = object.base := points
  simp only [initialMallocSize] at offArena
  rw [xxmallocUsableSize, guardEq, pointer]
  dsimp only at nonempty offArena ⊢
  rw [if_neg (by simp only [initialMallocSize]; omega)]
  exact exact

/-- In no run do the usable bytes of a permanent object lie in its block.  What
realloc copies from it does exactly when the object could grow to the new size
in its block, and is written to the first bytes of the new object. -/
theorem not_usableInside
    {arena : Arena}
    {heap : Heap}
    {actions : List HeapAction}
    {state : HeapState}
    (proper : Machine.Along (HeapState.step arena)
      (fun _ action => ProperAlignment action) (HeapState.start heap) actions)
    (executed : Machine.run (HeapState.step arena) (HeapState.start heap)
      actions = some state)
    {object : Object}
    (live : object ∈ state.live)
    (permanent : object.temporary = false)
    (points : Points state.heap.memory object)
    (exact : Real.mallocUsableSize object.base state.heap =
      some object.len) :
    ¬UsableInside arena state.heap object ∧
      ∀ sz answer watch memcpy middle,
        reallocMemcpy arena object.start sz answer watch state.heap =
            some (memcpy, middle) →
          (memcpy.read.Within object.block ↔
            object.start + sz ≤ object.base + object.len) ∧
          memcpy.written.Within ⟨memcpy.dest, sz⟩ ∧
          customMalloc arena sz answer (watch.map Prod.fst) state.heap =
            some (memcpy.dest, middle) := by
  have behind := allBehind_of_run proper executed object live permanent
  have guardInside := behind.guardInside
  have reported := xxmallocUsableSize_of_behind behind points exact
  constructor
  · intro inside
    have within := (inside.usable _ reported).2
    dsimp only at within
    omega
  · intro sz answer watch memcpy middle copies
    obtain ⟨-, -, objSize, bufSize, objReported, allocates, -, -, -,
      arguments⟩ := reallocMemcpy_eq_some copies
    obtain rfl : objSize = object.len :=
      Option.some.inj (objReported.symm.trans reported)
    refine ⟨?_, ?_, allocates⟩
    · rw [arguments]
      simp only [Region.Within]
      omega
    · rw [arguments]
      simp only [Region.Within]
      omega

/-- An object of 16 bytes in a block of 56. -/
def smallRun : List HeapAction := [.malloc 16 (blockAt 16 56) none]

/-- The object of the run. -/
def smallObject : Object := ⟨0, 2 ^ 32 + 48, 16, 2 ^ 32 + 16, 56, 16, 0, false⟩

/-- The only object of the run is still as it was allocated. -/
theorem smallRun_executed :
    ∃ state,
      Machine.run (HeapState.step sampleArena)
          (HeapState.start (zeroHeap true)) smallRun = some state ∧
        smallObject ∈ state.live ∧ Points state.heap.memory smallObject ∧
        Real.mallocUsableSize smallObject.base state.heap =
          some smallObject.len ∧
        (reallocMemcpy sampleArena smallObject.start 100 (blockAt 80 152) none
          state.heap).map Prod.fst =
            some ⟨2 ^ 32 + 112, smallObject.start, 56⟩ := by
  have checked : ∀ state ∈ Machine.run (HeapState.step sampleArena)
      (HeapState.start (zeroHeap true)) smallRun,
      smallObject ∈ state.live ∧ Points state.heap.memory smallObject ∧
        Real.mallocUsableSize smallObject.base state.heap =
          some smallObject.len ∧
        (reallocMemcpy sampleArena smallObject.start 100 (blockAt 80 152) none
          state.heap).map Prod.fst =
            some ⟨2 ^ 32 + 112, smallObject.start, 56⟩ := by
    decide +kernel
  have ends : (Machine.run (HeapState.step sampleArena)
      (HeapState.start (zeroHeap true)) smallRun).isSome := by
    decide +kernel
  obtain ⟨state, executed⟩ := Option.isSome_iff_exists.mp ends
  exact ⟨state, executed, checked state executed⟩

/-- Of the 56 bytes that realloc copies from the object of 16 bytes, 32 lie
beyond the end of its block. -/
theorem usable_outside_smallObject :
    ∃ state memcpy middle,
      Machine.run (HeapState.step sampleArena)
          (HeapState.start (zeroHeap true)) smallRun = some state ∧
        smallObject ∈ state.live ∧
        xxmallocUsableSize sampleArena smallObject.start state.heap =
          some 56 ∧
        ¬Region.Within ⟨smallObject.start, 56⟩ smallObject.block ∧
        reallocMemcpy sampleArena smallObject.start 100 (blockAt 80 152) none
          state.heap = some (memcpy, middle) ∧
        memcpy.n = 56 ∧ ¬memcpy.read.Within smallObject.block := by
  obtain ⟨state, executed, live, points, exact, copied⟩ := smallRun_executed
  obtain ⟨⟨memcpy, middle⟩, copies, rfl⟩ := Option.map_eq_some_iff.mp copied
  have behind : smallObject.Behind sampleArena :=
    ⟨⟨by decide, by decide, by decide, by decide⟩, by decide, by decide⟩
  exact ⟨state, _, middle, executed, live,
    xxmallocUsableSize_of_behind behind points exact, by decide, copies, rfl,
    by decide⟩

/-- The size that is reported for the object of 16 bytes is too large. -/
theorem not_usableInside_smallObject :
    ∃ state,
      Machine.run (HeapState.step sampleArena)
          (HeapState.start (zeroHeap true)) smallRun = some state ∧
        ¬UsableInside sampleArena state.heap smallObject := by
  obtain ⟨state, executed, live, points, exact, -⟩ := smallRun_executed
  have proper : Machine.Along (HeapState.step sampleArena)
      (fun _ action => ProperAlignment action)
      (HeapState.start (zeroHeap true)) smallRun := by
    decide +kernel
  exact ⟨state, executed,
    (not_usableInside proper executed live rfl points exact).1⟩

end Causer
