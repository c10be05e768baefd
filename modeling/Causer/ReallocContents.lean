import Causer.GuardIntegrity

/-!
# When realloc keeps its promise

A block that is kept has room for the new size only if the padding before the
object leaves any, which the comparison of usable sizes does not see.  A block
that is moved loses bytes when fewer are reported for the old one than it
holds, as for every temporary object.  In all other cases the new object lies
in its own block with the old bytes in it, and no other object changes.
-/

namespace Causer

open ByteMemory WordArithmetic ObjectGuard

/-- The new object has room, and the bytes that are not copied are already
there. -/
def Preserves (arena : Arena) (state : HeapState) (object : Object) (sz : Nat)
    (answer : Block) (watch : Option (Watch × Watch)) : Prop :=
  if reportedSize object =
      reportedSize (reallocBuffer arena state sz answer watch) then
    object.start + sz + 8 ≤ object.base + object.len
  else
    NotCut state.heap sz ∧
      ∀ offset < min object.size sz, min (reportedSize object) sz ≤ offset →
        state.heap.memory
            ((reallocBuffer arena state sz answer watch).start + offset) =
          state.heap.memory (object.start + offset)

instance (arena : Arena) (state : HeapState) (object : Object) (sz : Nat)
    (answer : Block) (watch : Option (Watch × Watch)) :
    Decidable (Preserves arena state object sz answer watch) := by
  unfold Preserves
  infer_instance

/-- The own block of the object that realloc returns. -/
def resultBlock (arena : Arena) (state : HeapState) (object : Object)
    (sz : Nat) (answer : Block) (watch : Option (Watch × Watch))
    (result : Nat) : Region :=
  if result = object.start then object.block
  else (reallocBuffer arena state sz answer watch).block

/-- What realloc promises: the new object and its tail word lie in their own
block, apart from the other live objects, the bytes are those of the old
object, and neither the bytes nor the guards of the others change. -/
structure Reallocated (state : HeapState) (object : Object) (sz result : Nat)
    (block : Region) (after : Memory) : Prop where
  inside : Region.Within ⟨result, sz + 8⟩ block
  apart : ∀ other ∈ state.live, other ≠ object →
    Region.Apart ⟨result, sz + 8⟩ other.span
  contents : ∀ offset < min object.size sz,
    after (result + offset) = state.heap.memory (object.start + offset)
  others : ∀ other ∈ state.live, other ≠ object →
    AgreesOn other.span state.heap.memory after

theorem toInt_bounds
    {size : Nat}
    (multiple : 8 ∣ size) :
    8 ∣ toInt size ∧ toInt size < 2 ^ 31 := by
  rw [toInt, BitVec.toInt_eq_toNat_cond, BitVec.toNat_ofNat]
  split_ifs <;> omega

section

variable {arena : Arena} {state : HeapState} {object : Object} {sz : Nat}
  {answer : Block} {watch : Option (Watch × Watch)} {result : Nat}
  {after : Heap}

/-- A request that is cut does not get the room that it asks for. -/
theorem notCut_of_room
    (szLt : sz < 2 ^ 63)
    (room : sz + 40 ≤
      (HeapState.ownBlock arena state.heap sz answer).usable) :
    NotCut state.heap sz := by
  cases initialised : state.heap.libInitialized with
  | true => exact Or.inl initialised
  | false =>
      right
      rw [HeapState.ownBlock, if_neg (by simp [initialised])] at room
      have masked := land_complement_low (show sz + 47 < 2 ^ 64 by omega)
        (show 3 ≤ 64 by omega)
      change (sz + 47) &&& complement 7 = (sz + 47) / 8 * 8 at masked
      have padded : add (mallocRealsize sz) 7 = sz + 47 := by
        rw [mallocRealsize_eq szLt, add]
        omega
      have bounds := toInt_bounds (Nat.dvd_mul_left 8 ((sz + 47) / 8))
      simp only [tempRealsize, padded, masked] at room
      omega

/-- A new object never starts where a placed one does. -/
theorem Layout.buffer_start_ne
    (layout : Layout arena state)
    (placed : state.Placed object)
    (placement : NotCut state.heap sz →
      ∃ middle, Placement arena state.heap middle
        (reallocBuffer arena state sz answer watch)) :
    (reallocBuffer arena state sz answer watch).start ≠ object.start := by
  have fits := layout.fits object placed
  have housed := layout.housed object placed
  have guardInside := fits.guardInside
  have tailInside := fits.tailInside
  cases initialised : state.heap.libInitialized with
  | true =>
      obtain ⟨middle, allocated⟩ := placement (Or.inl initialised)
      have apart := layout.apart_new allocated.toAllocated placed
      have bufferFits := allocated.fits
      have := bufferFits.guardInside
      have := bufferFits.tailInside
      simp only [Region.Apart] at apart
      omega
  | false =>
      have start : (reallocBuffer arena state sz answer watch).start =
          (arena.buf + state.heap.allocated).toNat + 32 := by
        simp [HeapState.ownBlock, initialised]
      have nonneg := layout.sound.allocatedNonneg
      have allocatedLe := layout.sound.allocatedLe
      simp only [initialMallocSize] at allocatedLe
      rw [start]
      cases temporary : object.temporary with
      | true =>
          have := housed.temporary temporary
          omega
      | false =>
          have offArena :=
            (layout.sound.granted _ (housed.granted temporary)).offArena
          simp only [initialMallocSize] at offArena
          omega

/-- An object that is kept, for whose new size its block has room. -/
theorem reallocated_of_kept
    {buffer : Region}
    (layout : Layout arena state)
    (live : object ∈ state.live)
    (tailInside : object.start + sz + 8 ≤ object.base + object.len)
    (bufferApart : ∀ other, state.Placed other → buffer.Apart other.block)
    (kept : KeptInPlace arena state object sz buffer (watch.map Prod.snd)
      after) :
    Reallocated state object sz object.start object.block after.memory := by
  have fits := layout.fits object (Or.inl live)
  have guardAdd := fits.guard_add
  have guardInside := fits.guardInside
  have inside : Region.Within ⟨object.start, sz + 8⟩ object.block := by
    simp only [Region.Within]
    omega
  have blockApart : ∀ other ∈ state.live, other ≠ object →
      object.block.Apart other.span := by
    intro other otherLive different
    have otherFits := layout.fits other (Or.inl otherLive)
    exact (layout.apart object other (Or.inl live) (Or.inl otherLive)
      different.symm).of_within ⟨le_rfl, le_rfl⟩ otherFits.span_within
  constructor
  · exact inside
  · intro other otherLive different
    exact (blockApart other otherLive different).of_within inside
      ⟨le_rfl, le_rfl⟩
  · intro offset offsetLt
    have agrees : AgreesOn ⟨object.start, min object.size sz⟩
        state.heap.memory after.memory := by
      apply kept.frame
      · apply (bufferApart object (Or.inl live)).of_within ⟨le_rfl, le_rfl⟩
        simp only [Region.Within]
        omega
      · simp only [Region.Apart]
        omega
      · simp only [Region.Apart]
        omega
    apply agrees
    simp only [Region.Contains]
    omega
  · intro other otherLive different
    have otherFits := layout.fits other (Or.inl otherLive)
    have apart := blockApart other otherLive different
    apply kept.frame
    · exact (bufferApart other (Or.inl otherLive)).of_within ⟨le_rfl, le_rfl⟩
        otherFits.span_within
    · apply apart.of_within _ ⟨le_rfl, le_rfl⟩
      simp only [Region.Within]
      omega
    · apply apart.of_within _ ⟨le_rfl, le_rfl⟩
      simp only [Region.Within]
      omega

section Moved

variable {buffer : Object} {middle : Heap} {length : Nat}

/-- What a move leaves in memory: the bytes copied, the bytes that the new
block had, and the other objects. -/
structure MovedBytes (state : HeapState) (object buffer : Object)
    (length : Nat) (after : Memory) : Prop where
  copied : ∀ offset < length, offset < object.size →
    after (buffer.start + offset) = state.heap.memory (object.start + offset)
  fresh : ∀ offset < buffer.size, length ≤ offset →
    after (buffer.start + offset) = state.heap.memory (buffer.start + offset)
  others : ∀ other ∈ state.live, other ≠ object →
    AgreesOn other.span state.heap.memory after

theorem movedBytes
    (layout : Layout arena state)
    (live : object ∈ state.live)
    (placement : Placement arena state.heap middle buffer)
    (lengthLe : length ≤ buffer.size)
    (returned : Returned
      { middle with
        memory := copy middle.memory buffer.start object.start length }
      after object) :
    MovedBytes state object buffer length after.memory := by
  have allocated := placement.toAllocated
  have bufferFits := allocated.fits
  have fits := layout.fits object (Or.inl live)
  have apart := layout.apart_new allocated (Or.inl live)
  have newBytes := returned.outside fits
    (apart.symm.of_within ⟨le_rfl, le_rfl⟩ bufferFits.data_within)
  have oldBytes : AgreesOn object.data state.heap.memory middle.memory :=
    allocated.frame object.data
      (apart.of_within ⟨le_rfl, le_rfl⟩ fits.data_within)
  constructor
  · intro offset offsetLt inside
    rw [newBytes _ (by simp only [Region.Contains]; omega)]
    have copied := blit_of_lt middle.memory
      (fun offset => middle.memory (object.start + offset))
      (show offset < (Region.mk buffer.start length).length from offsetLt)
    exact copied.trans
      (oldBytes _ (by simp only [Region.Contains]; omega))
  · intro offset offsetLt beyond
    rw [newBytes _ (by simp only [Region.Contains]; omega)]
    have kept := blit_of_not_contains middle.memory
      (fun offset => middle.memory (object.start + offset))
      (show ¬(Region.mk buffer.start length).Contains
        (buffer.start + offset) by
        simp only [Region.Contains]
        omega)
    exact kept.trans
      (placement.fresh _ (by simp only [Region.Contains]; omega))
  · intro other otherLive different
    have otherFits := layout.fits other (Or.inl otherLive)
    have bufferApart := layout.apart_new allocated (Or.inl otherLive)
    have copiedAgrees : AgreesOn other.span middle.memory
        (copy middle.memory buffer.start object.start length) := by
      apply agreesOn_blit
      apply bufferApart.of_within _ otherFits.span_within
      apply Region.Within.trans _ bufferFits.data_within
      simp only [Region.Within]
      omega
    have objectApart := layout.apart object other (Or.inl live)
      (Or.inl otherLive) different.symm
    exact ((layout.agrees_of_allocated allocated (Or.inl otherLive)).trans
      copiedAgrees).trans (returned.outside fits
        (objectApart.of_within ⟨le_rfl, le_rfl⟩ otherFits.span_within))

end Moved

/-- A move keeps the promise exactly when the new object has room and the
bytes that are not copied are already there. -/
theorem reallocated_of_moved_iff
    {middle : Heap}
    (layout : Layout arena state)
    (guarded : AllGuarded state)
    (live : object ∈ state.live)
    (szLt : sz < 2 ^ 63)
    (placement : NotCut state.heap sz →
      Placement arena state.heap middle
        (reallocBuffer arena state sz answer watch))
    (released : Released
      { middle with
        memory := copy middle.memory
          (reallocBuffer arena state sz answer watch).start object.start
          (min (reportedSize object) sz) }
      after object) :
    Reallocated state object sz
        (reallocBuffer arena state sz answer watch).start
        (reallocBuffer arena state sz answer watch).block after.memory ↔
      NotCut state.heap sz ∧
        ∀ offset < min object.size sz,
          min (reportedSize object) sz ≤ offset →
          state.heap.memory
              ((reallocBuffer arena state sz answer watch).start + offset) =
            state.heap.memory (object.start + offset) := by
  have moved : NotCut state.heap sz →
      MovedBytes state object (reallocBuffer arena state sz answer watch)
        (min (reportedSize object) sz) after.memory := by
    intro notCut
    have placed := placement notCut
    have copied := placed.copyInto object
      (min_le_right (reportedSize object) sz)
    have objectGuarded : Guarded _ object :=
      (guarded object live).of_agreesOn
        (layout.agrees_of_allocated copied (Or.inl live))
    exact movedBytes layout live placed (min_le_right _ sz)
      (released.returned fun _ => objectGuarded.holds.realPtr)
  have bufferSize : (reallocBuffer arena state sz answer watch).size = sz :=
    rfl
  constructor
  · intro reallocated
    have notCut : NotCut state.heap sz := by
      have inside := reallocated.inside.2
      change _ ≤ (HeapState.ownBlock arena state.heap sz answer).base +
        (HeapState.ownBlock arena state.heap sz answer).usable at inside
      change (HeapState.ownBlock arena state.heap sz answer).base + 32 +
        (sz + 8) ≤ _ at inside
      have room : sz + 40 ≤
          (HeapState.ownBlock arena state.heap sz answer).usable := by
        omega
      exact notCut_of_room szLt room
    refine ⟨notCut, fun offset offsetLt beyond => ?_⟩
    have fresh := (moved notCut).fresh offset (by omega) beyond
    rw [← fresh]
    exact reallocated.contents offset offsetLt
  · rintro ⟨notCut, alreadyThere⟩
    have bytes := moved notCut
    have allocated := (placement notCut).toAllocated
    have bufferFits := allocated.fits
    have guardInside := bufferFits.guardInside
    have tailInside := bufferFits.tailInside
    have inside : Region.Within
        ⟨(reallocBuffer arena state sz answer watch).start, sz + 8⟩
        (reallocBuffer arena state sz answer watch).block := by
      simp only [Region.Within]
      omega
    constructor
    · exact inside
    · intro other otherLive different
      exact (layout.apart_new allocated (Or.inl otherLive)).of_within inside
        (layout.fits other (Or.inl otherLive)).span_within
    · intro offset offsetLt
      rcases Nat.lt_or_ge offset (min (reportedSize object) sz) with
        within | beyond
      · exact bytes.copied offset within (by omega)
      · rw [bytes.fresh offset (by omega) beyond]
        exact alreadyThere offset offsetLt beyond
    · exact bytes.others

/-- A call of realloc keeps its promise exactly under the condition. -/
theorem reallocated_iff_of_end
    (layout : Layout arena state)
    (guarded : AllGuarded state)
    (live : object ∈ state.live)
    (validSecond : ∀ found ∈ watch.map Prod.snd, found.Valid state.heap)
    (ended : ReallocEnd arena state object sz answer watch result after)
    (nonnull : result ≠ 0) :
    Reallocated state object sz result
        (resultBlock arena state object sz answer watch result)
        after.memory ↔
      Preserves arena state object sz answer watch := by
  cases ended with
  | freed nothing resultEq released => exact absurd resultEq nonnull
  | kept szPos szLt sameSize middle freed placement bufferFreed resultEq
      afterEq =>
      rw [resultBlock, if_pos resultEq, Preserves, if_pos sameSize, resultEq]
      constructor
      · intro reallocated
        exact Nat.add_assoc .. ▸ reallocated.inside.2
      · intro room
        have placed := placement
          (notCut_of_kept layout (Or.inl live) sameSize room)
        have kept := keptInPlace layout (Or.inl live) szLt validSecond placed
          bufferFreed
        rw [afterEq]
        exact reallocated_of_kept layout live room
          (fun other isPlaced =>
            layout.apart_new placed.toAllocated isPlaced) kept
  | moved szPos szLt differentSize middle placement resultEq released =>
      have different := layout.buffer_start_ne (Or.inl live)
        (fun notCut => ⟨middle, placement notCut⟩)
      rw [resultBlock, if_neg (resultEq ▸ different), Preserves,
        if_neg differentSize, resultEq]
      exact reallocated_of_moved_iff layout guarded live szLt placement
        released

end

/-- The application writes only inside its objects, no request is cut, aligned
requests do not wrap, and reallocations keep their promise. -/
def Careful (arena : Arena) (state : HeapState) : HeapAction → Prop
  | .initialise => True
  | .malloc sz _ _ => NotCut state.heap sz
  | .calloc nelem elsize _ => NotCut state.heap (mul nelem elsize)
  | .memalign alignment size _ _ => AlignedRequest alignment size
  | .posixMemalign alignment size _ _ =>
      alignment < 2 ^ 64 ∧
        (alignment.isPowerOfTwo → AlignedRequest alignment size)
  | .free _ => True
  | .realloc ptr sz answer watch =>
      (ptr = 0 → NotCut state.heap sz) ∧
        ∀ object ∈ state.live, object.start = ptr → 0 < sz → sz < 2 ^ 63 →
          Preserves arena state object sz answer watch
  | .write address bytes => Confined arena state ⟨address, bytes.length⟩

instance (arena : Arena) (state : HeapState) :
    ∀ label, Decidable (Careful arena state label)
  | .initialise
  | .malloc _ _ _
  | .calloc _ _ _
  | .memalign _ _ _ _
  | .posixMemalign _ _ _ _
  | .free _
  | .realloc _ _ _ _
  | .write _ _ => by
      unfold Careful
      infer_instance

theorem Preserves.accommodates
    {arena : Arena}
    {state : HeapState}
    {object : Object}
    {sz : Nat}
    {answer : Block}
    {watch : Option (Watch × Watch)}
    (preserves : Preserves arena state object sz answer watch) :
    Accommodates arena state object sz answer watch := by
  unfold Preserves at preserves
  unfold Accommodates
  split_ifs at preserves ⊢ with sameSize
  · exact preserves
  · exact preserves.1

/-- A careful step keeps the layout and the guards. -/
theorem careful_step
    {arena : Arena}
    {state next : HeapState}
    {label : HeapAction}
    (invariant : Layout arena state ∧ AllGuarded state)
    (careful : Careful arena state label)
    (stepped : HeapState.step arena state label = some next) :
    Layout arena next ∧ AllGuarded next := by
  obtain ⟨layout, guarded⟩ := invariant
  have points : ∀ object ∈ state.live, Points state.heap.memory object :=
    fun object live => (guarded object live).holds.realPtr
  have respects : Respects arena state label := by
    cases label with
    | initialise => exact trivial
    | malloc sz answer watch => exact careful
    | calloc nelem elsize answer => exact careful
    | memalign alignment size answer watch => exact careful
    | posixMemalign alignment size answer watch => exact careful
    | free ptr => exact fun object live _ _ => points object live
    | realloc ptr sz answer watch =>
        exact ⟨careful.1, fun object live start =>
          ⟨points object live, fun szPos szLt =>
            (careful.2 object live start szPos szLt).accommodates⟩⟩
    | write address bytes => exact trivial
  have effect := effect_of_step layout respects stepped
  refine ⟨effect.layout layout, effect.allGuarded layout guarded ?_⟩
  rintro address bytes rfl
  exact careful

/-- Careful runs keep the layout and the guards. -/
theorem careful_run
    {arena : Arena}
    {heap : Heap}
    {labels : List HeapAction}
    {final : HeapState}
    (sound : heap.Sound arena)
    (along : Machine.Along (HeapState.step arena) (Careful arena)
      (HeapState.start heap) labels)
    (executed : Machine.run (HeapState.step arena) (HeapState.start heap)
      labels = some final) :
    Layout arena final ∧ AllGuarded final := by
  have preserved : ∀ state label next,
      Layout arena state ∧ AllGuarded state → Careful arena state label →
      HeapState.step arena state label = some next →
      Layout arena next ∧ AllGuarded next :=
    fun _ _ _ invariant careful stepped => careful_step invariant careful
      stepped
  exact Machine.run_invariant preserved
    ⟨layout_start sound, by simp [AllGuarded, HeapState.start]⟩ along executed

/-- In a state that a careful run reaches, a call of realloc that returns an
object keeps its promise exactly under the condition on the reported sizes. -/
theorem reallocated_iff
    {arena : Arena}
    {heap : Heap}
    {labels : List HeapAction}
    {state : HeapState}
    (sound : heap.Sound arena)
    (along : Machine.Along (HeapState.step arena) (Careful arena)
      (HeapState.start heap) labels)
    (executed : Machine.run (HeapState.step arena) (HeapState.start heap)
      labels = some state)
    {object : Object}
    {sz result : Nat}
    {answer : Block}
    {watch : Option (Watch × Watch)}
    {after : Heap}
    (live : object ∈ state.live)
    (valid : ∀ found ∈ watch,
      found.1.Valid state.heap ∧ found.2.Valid state.heap)
    (returned : customRealloc arena object.start sz answer watch state.heap =
      some (result, after))
    (nonnull : result ≠ 0) :
    Reallocated state object sz result
        (resultBlock arena state object sz answer watch result)
        after.memory ↔
      Preserves arena state object sz answer watch := by
  obtain ⟨layout, guarded⟩ := careful_run sound along executed
  have validFirst : ∀ found ∈ watch.map Prod.fst, found.Valid state.heap := by
    intro found member
    obtain ⟨pair, pairMember, rfl⟩ := Option.mem_map.mp member
    exact (valid pair pairMember).1
  have validSecond : ∀ found ∈ watch.map Prod.snd, found.Valid state.heap := by
    intro found member
    obtain ⟨pair, pairMember, rfl⟩ := Option.mem_map.mp member
    exact (valid pair pairMember).2
  have ended := customRealloc_end layout (Or.inl live)
    (guarded object live).holds.realPtr validFirst returned
  exact reallocated_iff_of_end layout guarded live validSecond ended nonnull

/-- An object of 100 bytes in a block of 152. -/
def keepRun : List HeapAction :=
  [.malloc 100 (blockAt 16 152) (some ⟨100, false⟩)]

/-- The object of the run. -/
def keepObject : Object := ⟨0, 2 ^ 32 + 48, 100, 2 ^ 32 + 16, 152, 16, 100, false⟩

/-- The object grows in place to 108 bytes. -/
theorem reallocated_iff_keepRun :
    ∃ state after,
      Machine.run (HeapState.step sampleArena)
          (HeapState.start (zeroHeap true)) keepRun = some state ∧
        customRealloc sampleArena keepObject.start 108 (blockAt 176 152) none
          state.heap = some (keepObject.start, after) ∧
        Reallocated state keepObject 108 keepObject.start
          (resultBlock sampleArena state keepObject 108 (blockAt 176 152)
            none keepObject.start) after.memory := by
  have listed : (Machine.run (HeapState.step sampleArena)
      (HeapState.start (zeroHeap true)) keepRun).map HeapState.live =
        some [keepObject] := by
    decide +kernel
  have reallocates : (Machine.run (HeapState.step sampleArena)
      (HeapState.start (zeroHeap true)) keepRun).bind (fun state =>
        (customRealloc sampleArena keepObject.start 108 (blockAt 176 152) none
          state.heap).map Prod.fst) = some keepObject.start := by
    decide +kernel
  have along : Machine.Along (HeapState.step sampleArena)
      (Careful sampleArena) (HeapState.start (zeroHeap true)) keepRun := by
    decide +kernel
  obtain ⟨state, executed, live⟩ := Option.map_eq_some_iff.mp listed
  rw [executed, Option.bind_some] at reallocates
  obtain ⟨⟨result, after⟩, returned, rfl⟩ :=
    Option.map_eq_some_iff.mp reallocates
  have keeps : ∀ state ∈ Machine.run (HeapState.step sampleArena)
      (HeapState.start (zeroHeap true)) keepRun,
      Preserves sampleArena state keepObject 108 (blockAt 176 152) none := by
    decide +kernel
  exact ⟨state, after, executed, returned,
    (reallocated_iff (zeroHeap_sound true) along executed
      (live ▸ List.mem_singleton.mpr rfl) (by simp) returned
      (by decide)).mpr (keeps state executed)⟩

/-- An object of 100 bytes aligned to 64, in a block of 184. -/
def alignedRun : List HeapAction :=
  [.memalign 64 100 (blockAt 64 184) none]

/-- The object of the run, 64 bytes into its block. -/
def alignedObject : Object :=
  ⟨0, 2 ^ 32 + 128, 100, 2 ^ 32 + 64, 184, 64, 0, false⟩

/-- A block for 140 bytes reports the same size, so the aligned object is kept,
with 20 bytes of the new object and its tail word beyond the end of the
block. -/
theorem realloc_outgrows_aligned_block :
    ∃ state after,
      Machine.run (HeapState.step sampleArena)
          (HeapState.start (zeroHeap true)) alignedRun = some state ∧
        alignedObject ∈ state.live ∧
        customRealloc sampleArena alignedObject.start 140 (blockAt 272 184)
          none state.heap = some (alignedObject.start, after) ∧
        ¬Reallocated state alignedObject 140 alignedObject.start
          (resultBlock sampleArena state alignedObject 140 (blockAt 272 184)
            none alignedObject.start) after.memory := by
  have listed : (Machine.run (HeapState.step sampleArena)
      (HeapState.start (zeroHeap true)) alignedRun).map HeapState.live =
        some [alignedObject] := by
    decide +kernel
  have reallocates : (Machine.run (HeapState.step sampleArena)
      (HeapState.start (zeroHeap true)) alignedRun).bind (fun state =>
        (customRealloc sampleArena alignedObject.start 140 (blockAt 272 184)
          none state.heap).map Prod.fst) = some alignedObject.start := by
    decide +kernel
  obtain ⟨state, executed, live⟩ := Option.map_eq_some_iff.mp listed
  rw [executed, Option.bind_some] at reallocates
  obtain ⟨⟨result, after⟩, returned, rfl⟩ :=
    Option.map_eq_some_iff.mp reallocates
  refine ⟨state, after, executed, live ▸ List.mem_singleton.mpr rfl, returned,
    fun reallocated => ?_⟩
  have inside := reallocated.inside
  rw [resultBlock, if_pos rfl] at inside
  revert inside
  decide

end Causer
