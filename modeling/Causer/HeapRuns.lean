import Causer.HeapReallocation

/-!
# What a step of the heap does

Each action comes down to one of six effects.  They hold in every well laid out
state for every action that respects the layout: an allocation that is not cut,
a release of an object whose guard still points to its block, a reallocation
for which the new size has room.  Every such run keeps the layout.
-/

namespace Causer

open ByteMemory WordArithmetic ObjectGuard

/-- There is room for the new size where realloc puts it: in the old block if
that is kept, in a new one otherwise. -/
def Accommodates (arena : Arena) (state : HeapState) (object : Object)
    (sz : Nat) (answer : Block) (watch : Option (Watch × Watch)) : Prop :=
  if reportedSize object =
      reportedSize (reallocBuffer arena state sz answer watch) then
    object.start + sz + 8 ≤ object.base + object.len
  else NotCut state.heap sz

instance (arena : Arena) (state : HeapState) (object : Object) (sz : Nat)
    (answer : Block) (watch : Option (Watch × Watch)) :
    Decidable (Accommodates arena state object sz answer watch) :=
  inferInstanceAs
    (Decidable
      (if reportedSize object =
          reportedSize (reallocBuffer arena state sz answer watch) then
        object.start + sz + 8 ≤ object.base + object.len
      else NotCut state.heap sz))

/-- The guard points to the object's block. -/
def Points (memory : Memory) (object : Object) : Prop :=
  getRealPtr memory object.guard = object.base

instance (memory : Memory) (object : Object) :
    Decidable (Points memory object) :=
  inferInstanceAs (Decidable (_ = _))

theorem Points.of_agreesOn
    {before after : Memory}
    {object : Object}
    (points : Points before object)
    (agrees : AgreesOn object.span before after) :
    Points after object := by
  have within : (wordAt object.guard).Within object.span := by
    simp only [Region.Within, Object.guard]
    omega
  exact (readWord_congr (agrees.of_within within)).trans points

/-- The action respects the layout. -/
def Respects (arena : Arena) (state : HeapState) : HeapAction → Prop
  | .initialise => True
  | .malloc sz _ _ => NotCut state.heap sz
  | .calloc nelem elsize _ => NotCut state.heap (mul nelem elsize)
  | .memalign alignment size _ _ => AlignedRequest alignment size
  | .posixMemalign alignment size _ _ =>
      alignment < 2 ^ 64 ∧
        (alignment.isPowerOfTwo → AlignedRequest alignment size)
  | .free ptr =>
      ∀ object ∈ state.live, object.start = ptr →
        HasHead state.heap.memory object.guard →
        Points state.heap.memory object
  | .realloc ptr sz answer watch =>
      (ptr = 0 → NotCut state.heap sz) ∧
        ∀ object ∈ state.live, object.start = ptr →
          Points state.heap.memory object ∧
            (0 < sz → sz < 2 ^ 63 →
              Accommodates arena state object sz answer watch)
  | .write _ _ => True

instance (arena : Arena) (state : HeapState) :
    ∀ label, Decidable (Respects arena state label)
  | .initialise
  | .malloc _ _ _
  | .calloc _ _ _
  | .memalign _ _ _ _
  | .posixMemalign _ _ _ _
  | .free _
  | .realloc _ _ _ _
  | .write _ _ => by
      unfold Respects
      infer_instance

/-- What an action does to the heap and to the objects. -/
inductive Effect (arena : Arena) (state : HeapState) (label : HeapAction)
    (next : HeapState) : Prop
  | nothing
      (libInitialized : Bool)
      (stays : state.heap.libInitialized = true → libInitialized = true)
      (result : next =
        { state with
          heap := { state.heap with libInitialized := libInitialized } })
  | written
      (address : Nat)
      (bytes : List UInt8)
      (isWrite : label = .write address bytes)
      (result : next = state.write address bytes)
  | allocated
      (object : Object)
      (after : Heap)
      (allocated : Allocated arena state.heap after object)
      (serial : object.serial = state.count)
      (result : next = state.handOut after object)
  | released
      (object : Object)
      (after : Heap)
      (live : object ∈ state.live)
      (pointer : HasHead state.heap.memory object.guard →
        Points state.heap.memory object)
      (released : Released state.heap after object)
      (result : next = state.release after object)
  | kept
      (object : Object)
      (sz : Nat)
      (answer : Block)
      (watch : Option (Watch × Watch))
      (after : Heap)
      (live : object ∈ state.live)
      (isRealloc : label = .realloc object.start sz answer watch)
      (pointer : Points state.heap.memory object)
      (sameSize : reportedSize object =
        reportedSize (reallocBuffer arena state sz answer watch))
      (bufferFits : (reallocBuffer arena state sz answer watch).Fits)
      (tailInside : object.start + sz + 8 ≤ object.base + object.len)
      (valid : ∀ found ∈ watch.map Prod.snd, found.Valid state.heap)
      (bufferApart : ∀ other, state.Placed other →
        (reallocBuffer arena state sz answer watch).block.Apart other.block)
      (kept : KeptInPlace arena state object sz
        (reallocBuffer arena state sz answer watch).block
        (watch.map Prod.snd) after)
      (result : next =
        state.reallocated arena object sz answer watch object.start after)
  | moved
      (object : Object)
      (sz : Nat)
      (answer : Block)
      (watch : Option (Watch × Watch))
      (middle after : Heap)
      (live : object ∈ state.live)
      (isRealloc : label = .realloc object.start sz answer watch)
      (pointer : Points state.heap.memory object)
      (placement : Placement arena state.heap middle
        (reallocBuffer arena state sz answer watch))
      (released : Released
        { middle with
          memory := copy middle.memory
            (reallocBuffer arena state sz answer watch).start object.start
            (min (reportedSize object) sz) }
        after object)
      (result : next =
        state.reallocated arena object sz answer watch
          (reallocBuffer arena state sz answer watch).start after)

section

variable {arena : Arena} {state next : HeapState}

theorem HeapState.watching_eq_some
    {Result : Type}
    {watch : Option Watch}
    {result : Option Result}
    {value : Result}
    (watched : state.watching watch result = some value) :
    (∀ found ∈ watch, found.Valid state.heap) ∧ result = some value := by
  unfold HeapState.watching at watched
  split_ifs at watched with valid
  exact ⟨valid, watched⟩

/-- The object that the application names. -/
theorem HeapState.find_live
    {ptr : Nat}
    {object : Object}
    (found : state.live.find? (·.start = ptr) = some object) :
    object ∈ state.live ∧ object.start = ptr :=
  ⟨List.mem_of_find?_eq_some found, by simpa using List.find?_some found⟩

/-- A call of malloc. -/
theorem malloc_effect
    {sz : Nat}
    {answer : Block}
    {watch : Option Watch}
    (layout : Layout arena state)
    (notCut : NotCut state.heap sz)
    (stepped : HeapState.step arena state (.malloc sz answer watch) =
      some next) :
    next = state ∨
      sz < 2 ^ 63 ∧ (∀ found ∈ watch, found.Valid state.heap) ∧
        ∃ after : Heap,
          Placement arena state.heap after
            (mallocPlaced arena state sz answer watch) ∧
          next = state.handOut after
            (mallocPlaced arena state sz answer watch) := by
  obtain ⟨valid, returned⟩ := HeapState.watching_eq_some stepped
  obtain ⟨⟨ptr, after⟩, obtained, result⟩ := Option.map_eq_some_iff.mp returned
  rcases customMalloc_cases layout.sound valid obtained with
    ⟨_, rfl, rfl⟩ | ⟨szLt, rfl, _, placement⟩
  · left
    rw [← result]
    rfl
  · exact Or.inr ⟨szLt, valid, after, placement notCut, result.symm⟩

/-- A call of calloc. -/
theorem calloc_effect
    {nelem elsize : Nat}
    {answer : Block}
    (layout : Layout arena state)
    (notCut : NotCut state.heap (mul nelem elsize))
    (stepped : HeapState.step arena state (.calloc nelem elsize answer) =
      some next) :
    next = state ∨
      ∃ object : Object, ∃ after : Heap,
        Allocated arena state.heap after object ∧
        object.serial = state.count ∧
        next = state.handOut after object := by
  obtain ⟨⟨ptr, after⟩, obtained, result⟩ := Option.map_eq_some_iff.mp stepped
  rcases customCalloc_cases layout.sound notCut obtained with
    ⟨rfl, rfl⟩ | allocated
  · left
    rw [← result]
    rfl
  · exact Or.inr ⟨_, after, allocated, rfl, result.symm⟩

/-- A call of memalign. -/
theorem memalign_effect
    {alignment size : Nat}
    {answer : Block}
    {watch : Option Watch}
    (request : AlignedRequest alignment size)
    (stepped : HeapState.step arena state
      (.memalign alignment size answer watch) = some next) :
    ∃ object : Object, ∃ after : Heap,
      Allocated arena state.heap after object ∧
      object.serial = state.count ∧
      next = state.handOut after object := by
  obtain ⟨valid, returned⟩ := HeapState.watching_eq_some stepped
  obtain ⟨⟨ptr, after⟩, obtained, result⟩ := Option.map_eq_some_iff.mp returned
  have placement := xxmemalign_placement request valid obtained
  exact ⟨_, after, placement.toAllocated, rfl, result.symm⟩

/-- What posix_memalign does not refuse is a power of two. -/
theorem isPowerOfTwo_of_not_refused
    {alignment : Nat}
    (alignmentLt : alignment < 2 ^ 64)
    (notRefused : ¬(alignment = 0 ∨ alignment &&& sub alignment 1 ≠ 0)) :
    alignment.isPowerOfTwo := by
  rw [not_or, not_ne_iff] at notRefused
  apply Nat.ne_zero_and_sub_one_eq_zero_iff_isPowerOfTwo.mp
  rwa [sub_of_le (Nat.pos_of_ne_zero notRefused.1) alignmentLt] at notRefused

/-- A call of posix_memalign, which refuses alignments that are not powers of
two. -/
theorem posixMemalign_effect
    {alignment size : Nat}
    {answer : Block}
    {watch : Option Watch}
    (alignmentLt : alignment < 2 ^ 64)
    (request : alignment.isPowerOfTwo → AlignedRequest alignment size)
    (stepped : HeapState.step arena state
      (.posixMemalign alignment size answer watch) = some next) :
    next = state ∨
      ∃ object : Object, ∃ after : Heap,
        Allocated arena state.heap after object ∧
        object.serial = state.count ∧
        next = state.handOut after object := by
  obtain ⟨valid, returned⟩ := HeapState.watching_eq_some stepped
  obtain ⟨⟨outcome, after⟩, obtained, result⟩ :=
    Option.map_eq_some_iff.mp returned
  unfold customPosixMemalign at obtained
  split_ifs at obtained with refused
  · rw [Option.some.injEq, Prod.mk.injEq] at obtained
    obtain ⟨rfl, rfl⟩ := obtained
    exact Or.inl result.symm
  · obtain ⟨⟨ptr, placed⟩, aligned, outcomeEq⟩ :=
      Option.map_eq_some_iff.mp obtained
    have power := isPowerOfTwo_of_not_refused alignmentLt refused
    have placement := xxmemalign_placement (request power) valid aligned
    have := placement.fits.guardInside
    have nonnull : ptr ≠ 0 := by
      change _ ≤ ptr at this
      omega
    dsimp only at outcomeEq
    rw [if_neg nonnull, Prod.mk.injEq] at outcomeEq
    obtain ⟨rfl, rfl⟩ := outcomeEq
    exact Or.inr ⟨_, placed, placement.toAllocated, rfl, result.symm⟩

/-- A call of free. -/
theorem free_effect
    {ptr : Nat}
    (layout : Layout arena state)
    (stepped : HeapState.step arena state (.free ptr) = some next) :
    (ptr = 0 ∧ next = state) ∨
      ∃ object ∈ state.live, object.start = ptr ∧
        ∃ after : Heap,
          Released state.heap after object ∧
          next = state.release after object := by
  unfold HeapState.step HeapState.freeStep at stepped
  dsimp only at stepped
  split_ifs at stepped with null
  · left
    obtain ⟨after, freed, result⟩ := Option.map_eq_some_iff.mp stepped
    unfold customFree xxfree xxrealfree at freed
    rw [if_neg (fun nonnull => nonnull.1 null), Option.some.injEq] at freed
    subst freed
    exact ⟨null, result.symm⟩
  · obtain ⟨object, found, rest⟩ := Option.bind_eq_some_iff.mp stepped
    obtain ⟨live, rfl⟩ := HeapState.find_live found
    obtain ⟨after, freed, result⟩ := Option.map_eq_some_iff.mp rest
    have released := customFree_released (layout.sited (Or.inl live))
      (layout.fits object (Or.inl live)) freed
    exact Or.inr ⟨object, live, rfl, after, released, result.symm⟩

/-- A call of realloc on an object. -/
theorem realloc_end
    {ptr sz : Nat}
    {answer : Block}
    {watch : Option (Watch × Watch)}
    (layout : Layout arena state)
    (nonnull : ptr ≠ 0)
    (points : ∀ object ∈ state.live, object.start = ptr →
      Points state.heap.memory object)
    (stepped : HeapState.step arena state (.realloc ptr sz answer watch) =
      some next) :
    (∀ found ∈ watch.map Prod.fst, found.Valid state.heap) ∧
      (∀ found ∈ watch.map Prod.snd, found.Valid state.heap) ∧
      ∃ object ∈ state.live, object.start = ptr ∧
        ∃ result : Nat, ∃ after : Heap,
          ReallocEnd arena state object sz answer watch result after ∧
          next = state.reallocated arena object sz answer watch result
            after := by
  obtain ⟨validFirst, returnedFirst⟩ := HeapState.watching_eq_some stepped
  obtain ⟨validSecond, returned⟩ := HeapState.watching_eq_some returnedFirst
  unfold HeapState.reallocStep at returned
  rw [if_neg nonnull] at returned
  obtain ⟨object, found, rest⟩ := Option.bind_eq_some_iff.mp returned
  obtain ⟨live, rfl⟩ := HeapState.find_live found
  obtain ⟨⟨result, after⟩, reallocated, nextEq⟩ :=
    Option.map_eq_some_iff.mp rest
  exact ⟨validFirst, validSecond, object, live, rfl, result, after,
    customRealloc_end layout (Or.inl live) (points object live rfl)
      validFirst reallocated,
    nextEq.symm⟩

/-- A call of realloc on `NULL` is a call of malloc. -/
theorem reallocNull_effect
    {sz : Nat}
    {answer : Block}
    {watch : Option (Watch × Watch)}
    (layout : Layout arena state)
    (notCut : NotCut state.heap sz)
    (stepped : HeapState.step arena state (.realloc 0 sz answer watch) =
      some next) :
    next = state ∨
      ∃ after : Heap,
        Placement arena state.heap after
          (reallocBuffer arena state sz answer watch) ∧
        next = state.handOut after
          (reallocBuffer arena state sz answer watch) := by
  obtain ⟨valid, returnedFirst⟩ := HeapState.watching_eq_some stepped
  obtain ⟨_, returned⟩ := HeapState.watching_eq_some returnedFirst
  unfold HeapState.reallocStep customRealloc at returned
  rw [if_pos rfl, if_pos rfl] at returned
  obtain ⟨⟨result, after⟩, obtained, nextEq⟩ :=
    Option.map_eq_some_iff.mp returned
  rcases customMalloc_cases layout.sound valid obtained with
    ⟨_, rfl, rfl⟩ | ⟨szLt, rfl, _, placement⟩
  · left
    rw [← nextEq]
    rfl
  · exact Or.inr ⟨after, placement notCut, nextEq.symm⟩

/-- A temporary block is only kept for requests that are not cut. -/
theorem notCut_of_kept
    {object : Object}
    {sz : Nat}
    {answer : Block}
    {watch : Option (Watch × Watch)}
    (layout : Layout arena state)
    (placed : state.Placed object)
    (sameSize : reportedSize object =
      reportedSize (reallocBuffer arena state sz answer watch))
    (tailInside : object.start + sz + 8 ≤ object.base + object.len) :
    NotCut state.heap sz := by
  have fits := layout.fits object placed
  have guardInside := fits.guardInside
  cases initialised : state.heap.libInitialized with
  | true => exact Or.inl initialised
  | false =>
      right
      have bufferSize :
          reportedSize (reallocBuffer arena state sz answer watch) = 1 := by
        simp [reportedSize, initialised]
      rw [bufferSize, reportedSize] at sameSize
      split_ifs at sameSize with temporary
      · have inArena := (layout.housed object placed).temporary temporary
        have allocatedLe := layout.sound.allocatedLe
        simp only [initialMallocSize] at allocatedLe
        omega
      · omega

/-- The effect of the end of a call of realloc for which there is room. -/
theorem effect_of_reallocEnd
    {object : Object}
    {sz result : Nat}
    {answer : Block}
    {watch : Option (Watch × Watch)}
    {after : Heap}
    (layout : Layout arena state)
    (live : object ∈ state.live)
    (points : Points state.heap.memory object)
    (accommodates : 0 < sz → sz < 2 ^ 63 →
      Accommodates arena state object sz answer watch)
    (valid : ∀ found ∈ watch.map Prod.snd, found.Valid state.heap)
    (ended : ReallocEnd arena state object sz answer watch result after) :
    Effect arena state (.realloc object.start sz answer watch)
      (state.reallocated arena object sz answer watch result after) := by
  have fits := layout.fits object (Or.inl live)
  have guardInside := fits.guardInside
  cases ended with
  | freed nothing resultEq released =>
      subst resultEq
      have result : state.reallocated arena object sz answer watch 0 after =
          state.release after object := by
        rw [HeapState.reallocated, if_neg (by omega)]
        rfl
      rw [result]
      exact .released object after live (fun _ => points) released rfl
  | kept szPos szLt sameSize middle freed placement bufferFreed resultEq
      afterEq =>
      have room := accommodates szPos szLt
      rw [Accommodates, if_pos sameSize] at room
      have placed := placement
        (notCut_of_kept layout (Or.inl live) sameSize room)
      subst resultEq
      rw [afterEq]
      exact .kept object sz answer watch _ live rfl points sameSize
        placed.fits room valid
        (fun other isPlaced => layout.apart_new placed.toAllocated isPlaced)
        (keptInPlace layout (Or.inl live) szLt valid placed bufferFreed) rfl
  | moved szPos szLt differentSize middle placement resultEq released =>
      have notCut := accommodates szPos szLt
      rw [Accommodates, if_neg differentSize] at notCut
      subst resultEq
      exact .moved object sz answer watch middle after live rfl points
        (placement notCut) released rfl

/-- Every respectful action has one of the six effects. -/
theorem effect_of_step
    {label : HeapAction}
    (layout : Layout arena state)
    (respects : Respects arena state label)
    (stepped : HeapState.step arena state label = some next) :
    Effect arena state label next := by
  cases label with
  | initialise =>
      rw [HeapState.step, Option.some.injEq] at stepped
      exact .nothing true (fun _ => rfl) stepped.symm
  | malloc sz answer watch =>
      rcases malloc_effect layout respects stepped with
        rfl | ⟨_, _, after, placement, result⟩
      · exact .nothing _ (fun initialised => initialised) rfl
      · exact .allocated _ after placement.toAllocated rfl result
  | calloc nelem elsize answer =>
      rcases calloc_effect layout respects stepped with
        rfl | ⟨object, after, allocated, serial, result⟩
      · exact .nothing _ (fun initialised => initialised) rfl
      · exact .allocated object after allocated serial result
  | memalign alignment size answer watch =>
      obtain ⟨object, after, allocated, serial, result⟩ :=
        memalign_effect respects stepped
      exact .allocated object after allocated serial result
  | posixMemalign alignment size answer watch =>
      rcases posixMemalign_effect respects.1 respects.2 stepped with
        rfl | ⟨object, after, allocated, serial, result⟩
      · exact .nothing _ (fun initialised => initialised) rfl
      · exact .allocated object after allocated serial result
  | free ptr =>
      rcases free_effect layout stepped with
        ⟨_, rfl⟩ | ⟨object, live, start, after, released, result⟩
      · exact .nothing _ (fun initialised => initialised) rfl
      · exact .released object after live (respects object live start)
          released result
  | realloc ptr sz answer watch =>
      obtain ⟨notCut, respectsObject⟩ := respects
      by_cases null : ptr = 0
      · subst null
        rcases reallocNull_effect layout (notCut rfl) stepped with
          rfl | ⟨after, placement, result⟩
        · exact .nothing _ (fun initialised => initialised) rfl
        · exact .allocated _ after placement.toAllocated rfl result
      · obtain ⟨_, valid, object, live, rfl, result, after, ended, rfl⟩ :=
          realloc_end layout null
            (fun object live start => (respectsObject object live start).1)
            stepped
        obtain ⟨points, accommodates⟩ := respectsObject object live rfl
        exact effect_of_reallocEnd layout live points accommodates valid ended
  | write address bytes =>
      rw [HeapState.step, Option.some.injEq] at stepped
      exact .written address bytes rfl stepped.symm

/-- The effects keep the layout. -/
theorem Effect.layout
    {label : HeapAction}
    (effect : Effect arena state label next)
    (layout : Layout arena state) :
    Layout arena next := by
  cases effect with
  | nothing libInitialized stays result =>
      rw [result]
      exact layout.of_stock rfl rfl rfl rfl rfl
  | written address bytes isWrite result =>
      rw [result]
      exact layout.of_stock rfl rfl rfl rfl rfl
  | allocated object after allocated serial result =>
      rw [result]
      exact layout.handOut allocated serial
  | released object after live pointer released result =>
      rw [result]
      exact layout.release live (released.returned pointer)
  | kept object sz answer watch after live isRealloc pointer sameSize
      bufferFits tailInside valid bufferApart kept result =>
      rw [result]
      exact layout.keep live tailInside valid kept
  | moved object sz answer watch middle after live isRealloc pointer placement
      released result =>
      rw [result]
      have copied := placement.copyInto object
        (min_le_right (reportedSize object) sz)
      apply layout.move live copied
      exact released.returned fun _ =>
        pointer.of_agreesOn (layout.agrees_of_allocated copied (Or.inl live))

/-- A state without objects. -/
def HeapState.start (heap : Heap) : HeapState := ⟨heap, [], [], [], 0⟩

theorem HeapState.not_placed_start
    {heap : Heap}
    (object : Object) :
    ¬(HeapState.start heap).Placed object := by
  simp [HeapState.Placed, HeapState.start]

theorem layout_start
    {heap : Heap}
    (sound : heap.Sound arena) :
    Layout arena (HeapState.start heap) where
  counted := by
    constructor <;> simp [HeapState.start]
  sound := sound
  fits := fun object placed => absurd placed (HeapState.not_placed_start object)
  housed := fun object placed =>
    absurd placed (HeapState.not_placed_start object)
  apart := fun first _ firstPlaced =>
    absurd firstPlaced (HeapState.not_placed_start first)

/-- Respectful runs keep the layout. -/
theorem layout_of_run
    {heap : Heap}
    {labels : List HeapAction}
    {final : HeapState}
    (sound : heap.Sound arena)
    (respects : Machine.Along (HeapState.step arena) (Respects arena)
      (HeapState.start heap) labels)
    (executed : Machine.run (HeapState.step arena) (HeapState.start heap)
      labels = some final) :
    Layout arena final :=
  Machine.run_invariant
    (fun _ _ _ layout respects stepped =>
      (effect_of_step layout respects stepped).layout layout)
    (layout_start sound) respects executed

end

/-- A temporary buffer at the second mebibyte. -/
def sampleArena : Arena := ⟨2 ^ 20, by decide, by decide, by decide⟩

/-- A heap in zeroed memory, before or after initialisation. -/
def zeroHeap (libInitialized : Bool) : Heap where
  memory := fun _ => 0
  allocated := 0
  libInitialized := libInitialized
  blocks := []
  watchedRatio := fun _ => none
  freed := []
  blamed := []

theorem zeroHeap_sound (libInitialized : Bool) :
    (zeroHeap libInitialized).Sound sampleArena where
  allocatedNonneg := le_rfl
  allocatedLe := Int.natCast_nonneg initialMallocSize
  allocatedMultiple := Int.dvd_zero 8
  granted := by simp [zeroHeap]
  apart := by simp [zeroHeap]

/-- A block of the underlying allocator, at an offset from the fourth
gibibyte. -/
def blockAt (offset usable : Nat) : Block := ⟨2 ^ 32 + offset, usable⟩

end Causer
