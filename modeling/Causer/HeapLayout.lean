import Causer.HeapCalls

/-!
# Where objects lie

Objects fit in their blocks, the blocks do not overlap, and the block of a live
object is still allocated.  This layout does not depend on what the application
writes, as long as what it gives back still points to its block and what it
reallocates in place still fits.
-/

namespace Causer

open ByteMemory WordArithmetic ObjectGuard

namespace HeapState

/-- Objects whose block is theirs: the live ones and, since the temporary
allocator reuses nothing, the temporary ones that have been freed. -/
def Placed (state : HeapState) (object : Object) : Prop :=
  object ∈ state.live ∨ object ∈ state.retired ∧ object.temporary = true

end HeapState

/-- Every object handed out is live or has been freed once. -/
structure HeapState.Counted (state : HeapState) : Prop where
  liveBelow : ∀ object ∈ state.live, object.serial < state.count
  retiredBelow : ∀ object ∈ state.retired, object.serial < state.count
  liveNodup : (state.live.map Object.serial).Nodup
  retiredNodup : (state.retired.map Object.serial).Nodup
  apart : ∀ first ∈ state.live, ∀ second ∈ state.retired,
    first.serial ≠ second.serial

/-- How the objects lie in memory. -/
structure Layout (arena : Arena) (state : HeapState) : Prop where
  counted : state.Counted
  sound : state.heap.Sound arena
  fits : ∀ object, state.Placed object → object.Fits
  housed : ∀ object, state.Placed object → Housed arena state.heap object
  apart : ∀ first second, state.Placed first → state.Placed second →
    first ≠ second → first.block.Apart second.block

section

variable {arena : Arena} {state : HeapState} {after : Heap} {object : Object}

theorem Layout.sited
    (layout : Layout arena state)
    (placed : state.Placed object) :
    object.Sited arena :=
  (layout.housed object placed).sited layout.sound (layout.fits object placed)

/-- Objects at one address are one object. -/
theorem Layout.eq_of_start
    (layout : Layout arena state)
    {first second : Object}
    (firstPlaced : state.Placed first)
    (secondPlaced : state.Placed second)
    (sameStart : first.start = second.start) :
    first = second := by
  by_contra different
  have apart := layout.apart first second firstPlaced secondPlaced different
  have firstFits := layout.fits first firstPlaced
  have secondFits := layout.fits second secondPlaced
  have := firstFits.guardInside
  have := firstFits.tailInside
  have := secondFits.guardInside
  have := secondFits.tailInside
  simp only [Region.Apart] at apart
  omega

/-- A stock of the same size is sound. -/
theorem Heap.Sound.of_eq
    {before : Heap}
    (sound : before.Sound arena)
    (allocated : after.allocated = before.allocated)
    (blocks : after.blocks = before.blocks) :
    after.Sound arena where
  allocatedNonneg := allocated ▸ sound.allocatedNonneg
  allocatedLe := allocated ▸ sound.allocatedLe
  allocatedMultiple := allocated ▸ sound.allocatedMultiple
  granted := blocks ▸ sound.granted
  apart := blocks ▸ sound.apart

/-- The layout concerns the stock and the objects only. -/
theorem Layout.of_stock
    (layout : Layout arena state)
    {next : HeapState}
    (live : next.live = state.live)
    (retired : next.retired = state.retired)
    (count : next.count = state.count)
    (allocated : next.heap.allocated = state.heap.allocated)
    (blocks : next.heap.blocks = state.heap.blocks) :
    Layout arena next := by
  have placed : ∀ object, next.Placed object → state.Placed object := by
    intro object placed
    rwa [HeapState.Placed, live, retired] at placed
  constructor
  · have counted := layout.counted
    constructor
    · rw [live, count]
      exact counted.liveBelow
    · rw [retired, count]
      exact counted.retiredBelow
    · rw [live]
      exact counted.liveNodup
    · rw [retired]
      exact counted.retiredNodup
    · rw [live, retired]
      exact counted.apart
  · exact layout.sound.of_eq allocated blocks
  · exact fun object isPlaced => layout.fits object (placed object isPlaced)
  · intro object isPlaced
    have housed := layout.housed object (placed object isPlaced)
    constructor
    · rw [allocated]
      exact housed.temporary
    · rw [blocks]
      exact housed.granted
  · exact fun first second firstPlaced secondPlaced =>
      layout.apart first second (placed first firstPlaced)
        (placed second secondPlaced)

/-- The block of a new object is apart from that of every other one. -/
theorem Layout.apart_new
    (layout : Layout arena state)
    (allocated : Allocated arena state.heap after object)
    {other : Object}
    (placed : state.Placed other) :
    object.block.Apart other.block := by
  have sound := layout.sound
  have housed := layout.housed other placed
  have allocatedLe := sound.allocatedLe
  simp only [Region.Apart, initialMallocSize] at allocatedLe ⊢
  cases otherTemporary : other.temporary with
  | true =>
      have otherInside := housed.temporary otherTemporary
      cases allocated.housing with
      | temporary isTemporary base allocated allocatedLe multiple blocks =>
          omega
      | granted notTemporary granted apart allocated blocks =>
          have offArena := granted.offArena
          simp only [initialMallocSize] at offArena
          omega
  | false =>
      have member := housed.granted otherTemporary
      cases allocated.housing with
      | temporary isTemporary base allocated allocatedNextLe multiple blocks =>
          have offArena := (sound.granted _ member).offArena
          have nonneg := sound.allocatedNonneg
          simp only [initialMallocSize] at offArena allocatedNextLe
          omega
      | granted notTemporary granted apart allocated blocks =>
          have := apart _ member
          simpa only [Region.Apart] using this

/-- An allocation leaves the other objects alone. -/
theorem Layout.agrees_of_allocated
    (layout : Layout arena state)
    (allocated : Allocated arena state.heap after object)
    {other : Object}
    (placed : state.Placed other) :
    AgreesOn other.span state.heap.memory after.memory :=
  allocated.frame other.span
    ((layout.apart_new allocated placed).of_within ⟨le_rfl, le_rfl⟩
      (layout.fits other placed).span_within)

/-- The stock is sound after an allocation. -/
theorem Allocated.sound
    {before : Heap}
    (allocated : Allocated arena before after object)
    (sound : before.Sound arena) :
    after.Sound arena := by
  cases allocated.housing with
  | temporary isTemporary base allocatedEq allocatedLe multiple blocks =>
      have nonneg := sound.allocatedNonneg
      have multipleBefore := sound.allocatedMultiple
      constructor
      · omega
      · exact allocatedLe
      · omega
      · exact blocks ▸ sound.granted
      · exact blocks ▸ sound.apart
  | granted notTemporary granted apart allocatedEq blocks =>
      constructor
      · exact allocatedEq ▸ sound.allocatedNonneg
      · exact allocatedEq ▸ sound.allocatedLe
      · exact allocatedEq ▸ sound.allocatedMultiple
      · rw [blocks]
        intro block member
        rcases List.mem_cons.mp member with rfl | former
        · exact granted
        · exact sound.granted block former
      · rw [blocks]
        intro first firstMember second secondMember different
        rcases List.mem_cons.mp firstMember with rfl | firstFormer
        · rcases List.mem_cons.mp secondMember with rfl | secondFormer
          · exact absurd rfl different
          · exact apart second secondFormer
        · rcases List.mem_cons.mp secondMember with rfl | secondFormer
          · exact (apart first firstFormer).symm
          · exact sound.apart first firstFormer second secondFormer different

/-- A new object is housed, and the others stay housed. -/
theorem Allocated.housed
    {before : Heap}
    (allocated : Allocated arena before after object)
    (sound : before.Sound arena) :
    Housed arena after object ∧
      ∀ other, Housed arena before other → Housed arena after other := by
  cases allocated.housing with
  | temporary isTemporary base allocatedEq allocatedLe multiple blocks =>
      have nonneg := sound.allocatedNonneg
      constructor
      · constructor
        · intro _
          omega
        · intro notTemporary
          rw [isTemporary] at notTemporary
          cases notTemporary
      · intro other housed
        constructor
        · intro otherTemporary
          have := housed.temporary otherTemporary
          omega
        · intro otherGranted
          exact blocks ▸ housed.granted otherGranted
  | granted notTemporary granted apart allocatedEq blocks =>
      constructor
      · constructor
        · intro isTemporary
          rw [notTemporary] at isTemporary
          cases isTemporary
        · intro _
          rw [blocks]
          exact List.mem_cons_self
      · intro other housed
        constructor
        · intro otherTemporary
          rw [allocatedEq]
          exact housed.temporary otherTemporary
        · intro otherGranted
          rw [blocks]
          exact List.mem_cons_of_mem _ (housed.granted otherGranted)

theorem HeapState.handOut_of_fits
    (fits : object.Fits) :
    state.handOut after object =
      { state with
        heap := after
        live := state.live ++ [object]
        count := state.count + 1 } := by
  have := fits.guardInside
  rw [HeapState.handOut, if_neg (by omega)]

theorem HeapState.placed_handOut
    (fits : object.Fits)
    {other : Object} :
    (state.handOut after object).Placed other ↔
      state.Placed other ∨ other = object := by
  rw [HeapState.handOut_of_fits fits]
  simp only [HeapState.Placed, List.mem_append, List.mem_singleton]
  tauto

/-- A new object has a serial number of its own. -/
theorem HeapState.Counted.handOut
    (counted : state.Counted)
    (fits : object.Fits)
    (serial : object.serial = state.count) :
    (state.handOut after object).Counted := by
  rw [HeapState.handOut_of_fits fits]
  constructor
  · intro other member
    rcases List.mem_append.mp member with former | new
    · exact (counted.liveBelow other former).trans (Nat.lt_succ_self _)
    · rw [List.mem_singleton.mp new, serial]
      exact Nat.lt_succ_self _
  · intro other member
    exact (counted.retiredBelow other member).trans (Nat.lt_succ_self _)
  · rw [List.map_append, List.nodup_append]
    refine ⟨counted.liveNodup, by simp, ?_⟩
    intro first firstMember second secondMember
    obtain ⟨other, otherLive, rfl⟩ := List.mem_map.mp firstMember
    have := counted.liveBelow other otherLive
    simp only [List.map_cons, List.map_nil, List.mem_singleton]
      at secondMember
    omega
  · exact counted.retiredNodup
  · intro first firstMember second secondMember
    rcases List.mem_append.mp firstMember with former | new
    · exact counted.apart first former second secondMember
    · have := counted.retiredBelow second secondMember
      rw [List.mem_singleton.mp new]
      omega

/-- Handing out a new object. -/
theorem Layout.handOut
    (layout : Layout arena state)
    (allocated : Allocated arena state.heap after object)
    (serial : object.serial = state.count) :
    Layout arena (state.handOut after object) := by
  have fits := allocated.fits
  have heapEq : (state.handOut after object).heap = after := by
    rw [HeapState.handOut_of_fits fits]
  obtain ⟨newHoused, stillHoused⟩ := allocated.housed layout.sound
  constructor
  · exact layout.counted.handOut fits serial
  · rw [heapEq]
    exact allocated.sound layout.sound
  · intro other placed
    rcases (HeapState.placed_handOut fits).mp placed with former | rfl
    · exact layout.fits other former
    · exact fits
  · intro other placed
    rw [heapEq]
    rcases (HeapState.placed_handOut fits).mp placed with former | rfl
    · exact stillHoused other (layout.housed other former)
    · exact newHoused
  · intro first second firstPlaced secondPlaced different
    rcases (HeapState.placed_handOut fits).mp firstPlaced with
      firstFormer | rfl
    · rcases (HeapState.placed_handOut fits).mp secondPlaced with
        secondFormer | rfl
      · exact layout.apart first second firstFormer secondFormer different
      · exact (layout.apart_new allocated firstFormer).symm
    · rcases (HeapState.placed_handOut fits).mp secondPlaced with
        secondFormer | rfl
      · exact layout.apart_new allocated secondFormer
      · exact absurd rfl different

/-- The stock is sound after a release. -/
theorem Returned.sound
    {before : Heap}
    (returned : Returned before after object)
    (sound : before.Sound arena) :
    after.Sound arena where
  allocatedNonneg := returned.allocated ▸ sound.allocatedNonneg
  allocatedLe := returned.allocated ▸ sound.allocatedLe
  allocatedMultiple := returned.allocated ▸ sound.allocatedMultiple
  granted := fun block member =>
    sound.granted block (returned.fewer block member)
  apart := fun first firstMember second secondMember =>
    sound.apart first (returned.fewer first firstMember) second
      (returned.fewer second secondMember)

/-- Objects in other blocks stay housed. -/
theorem Returned.housed
    {before : Heap}
    (returned : Returned before after object)
    {other : Object}
    (housed : Housed arena before other)
    (different : other.temporary = false → other.base ≠ object.base) :
    Housed arena after other where
  temporary := by
    rw [returned.allocated]
    exact housed.temporary
  granted := fun notTemporary =>
    returned.others _ (housed.granted notTemporary) (different notTemporary)

/-- A release leaves the other objects alone. -/
theorem Layout.agrees_of_returned
    (layout : Layout arena state)
    (returned : Returned state.heap after object)
    (placed : state.Placed object)
    {other : Object}
    (otherPlaced : state.Placed other)
    (different : other ≠ object) :
    AgreesOn other.span state.heap.memory after.memory :=
  returned.outside (layout.fits object placed)
    ((layout.apart object other placed otherPlaced different.symm).of_within
      ⟨le_rfl, le_rfl⟩ (layout.fits other otherPlaced).span_within)

theorem HeapState.placed_release
    {other : Object}
    (live : object ∈ state.live)
    (placed : (state.release after object).Placed other) :
    state.Placed other ∧ (other.temporary = false → other ≠ object) := by
  simp only [HeapState.Placed, HeapState.release_live,
    HeapState.release_retired, List.mem_filter, List.mem_append,
    List.mem_singleton, decide_eq_true_eq] at placed
  rcases placed with ⟨member, different⟩ | ⟨former | rfl, isTemporary⟩
  · exact ⟨Or.inl member, fun _ => different⟩
  · refine ⟨Or.inr ⟨former, isTemporary⟩, fun notTemporary => ?_⟩
    rw [isTemporary] at notTemporary
    cases notTemporary
  · refine ⟨Or.inl live, fun notTemporary => ?_⟩
    rw [isTemporary] at notTemporary
    cases notTemporary

/-- Different objects have different blocks. -/
theorem Layout.base_ne
    (layout : Layout arena state)
    {other : Object}
    (placed : state.Placed object)
    (otherPlaced : state.Placed other)
    (different : other ≠ object) :
    other.base ≠ object.base := by
  have apart := layout.apart other object otherPlaced placed different
  have fits := layout.fits object placed
  have otherFits := layout.fits other otherPlaced
  have := fits.guardInside
  have := fits.tailInside
  have := otherFits.guardInside
  have := otherFits.tailInside
  simp only [Region.Apart] at apart
  omega

/-- Live objects with one serial number are one object. -/
theorem HeapState.Counted.eq_of_serial
    (counted : state.Counted)
    {first second : Object}
    (firstLive : first ∈ state.live)
    (secondLive : second ∈ state.live)
    (sameSerial : first.serial = second.serial) :
    first = second :=
  List.inj_on_of_nodup_map counted.liveNodup firstLive secondLive sameSerial

/-- A freed object moves from the live to the freed ones. -/
theorem HeapState.Counted.release
    (counted : state.Counted)
    (live : object ∈ state.live) :
    (state.release after object).Counted := by
  constructor
  · intro other member
    exact counted.liveBelow other (List.mem_filter.mp member).1
  · intro other member
    rcases List.mem_append.mp member with former | new
    · exact counted.retiredBelow other former
    · rw [List.mem_singleton.mp new]
      exact counted.liveBelow object live
  · exact counted.liveNodup.sublist (List.filter_sublist.map _)
  · rw [HeapState.release_retired, List.map_append, List.nodup_append]
    refine ⟨counted.retiredNodup, by simp, ?_⟩
    intro first firstMember second secondMember
    obtain ⟨other, retired, rfl⟩ := List.mem_map.mp firstMember
    simp only [List.map_cons, List.map_nil, List.mem_singleton]
      at secondMember
    rw [secondMember]
    exact (counted.apart object live other retired).symm
  · intro first firstMember second secondMember
    obtain ⟨firstLive, different⟩ := List.mem_filter.mp firstMember
    rcases List.mem_append.mp secondMember with former | new
    · exact counted.apart first firstLive second former
    · rw [List.mem_singleton.mp new]
      intro sameSerial
      exact of_decide_eq_true different
        (counted.eq_of_serial firstLive live sameSerial)

/-- Taking back an object whose guard still points to its block. -/
theorem Layout.release
    (layout : Layout arena state)
    (live : object ∈ state.live)
    (returned : Returned state.heap after object) :
    Layout arena (state.release after object) := by
  constructor
  · exact layout.counted.release live
  · exact returned.sound layout.sound
  · intro other placed
    exact layout.fits other (HeapState.placed_release live placed).1
  · intro other placed
    obtain ⟨former, different⟩ := HeapState.placed_release live placed
    apply returned.housed (layout.housed other former)
    intro notTemporary
    exact layout.base_ne (Or.inl live) former (different notTemporary)
  · intro first second firstPlaced secondPlaced
    exact layout.apart first second
      (HeapState.placed_release live firstPlaced).1
      (HeapState.placed_release live secondPlaced).1

end

end Causer
