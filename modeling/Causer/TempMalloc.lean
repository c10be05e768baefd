import Causer.Heap
import Causer.Library.Machine

/-!
# The temporary allocator

Before the library is initialised, blocks are cut from `_buf` at a counter of
type `int`.  The padded size of a request has 64 bits and is converted on the
way to the counter, so the test for the end of the buffer sees 32 bits of it
only.  Blocks lie apart from each other in the buffer exactly as long as every
request fits into what is left of it by its full size.
-/

namespace Causer

open WordArithmetic

/-- A block that `tempmalloc` has handed out: where it starts in `_buf`, and
the size that `xxmalloc` has computed for it. -/
structure TempBlock where
  offset : Int
  realsize : Nat
  deriving DecidableEq

namespace TempBlock

/-- The block lies in `_buf`. -/
def Inside (block : TempBlock) : Prop :=
  0 ≤ block.offset ∧ block.offset + block.realsize ≤ initialMallocSize

instance (block : TempBlock) : Decidable block.Inside :=
  inferInstanceAs (Decidable (_ ∧ _))

/-- The blocks have no byte in common. -/
def Apart (first second : TempBlock) : Prop :=
  first.offset + first.realsize ≤ second.offset ∨
    second.offset + second.realsize ≤ first.offset

instance (first second : TempBlock) : Decidable (first.Apart second) :=
  inferInstanceAs (Decidable (_ ∨ _))

end TempBlock

/-- `_allocated`, and the blocks handed out so far. -/
structure TempHeap where
  allocated : Int
  blocks : List TempBlock
  deriving DecidableEq

namespace TempHeap

/-- The size that `xxmalloc` passes to `tempmalloc`, before the conversion. -/
def paddedRealsize (sz : Nat) : Nat :=
  add (mallocRealsize sz) 7 &&& complement 7

/-- The sum of two `int`s, which wraps. -/
def intAdd (first second : Int) : Int := Int.bmod (first + second) (2 ^ 32)

/-- `tempmalloc`: the start of the block, and the counter after it. -/
def tempmalloc (allocated size : Int) : Option (Int × Int) :=
  if intAdd allocated size > initialMallocSize then none
  else some (allocated, intAdd allocated size)

/-- A request to `CUSTOM_MALLOC` before initialisation.  There is no next state
when the process aborts. -/
def step (heap : TempHeap) (sz : Nat) : Option TempHeap :=
  if sz >>> 63 ≠ 0 then some heap
  else
    (tempmalloc heap.allocated (toInt (paddedRealsize sz))).map
      fun (offset, allocated) =>
        { allocated := allocated
          blocks := heap.blocks ++ [⟨offset, paddedRealsize sz⟩] }

/-- Nothing has been handed out. -/
def start : TempHeap := ⟨0, []⟩

/-- The blocks lie apart from each other in `_buf`, and the counter does not
exceed its length. -/
structure Confined (heap : TempHeap) : Prop where
  inside : ∀ block ∈ heap.blocks, block.Inside
  apart : heap.blocks.Pairwise TempBlock.Apart
  allocatedLe : heap.allocated ≤ initialMallocSize

/-- The counter does not decrease in a step. -/
def Grows (heap : TempHeap) (sz : Nat) : Prop :=
  ∀ next, heap.step sz = some next → heap.allocated ≤ next.allocated

/-- The request is refused, or `_buf` has room for its full size. -/
def Fits (heap : TempHeap) (sz : Nat) : Prop :=
  2 ^ 63 ≤ sz ∨ heap.allocated + paddedRealsize sz ≤ initialMallocSize

instance (heap : TempHeap) (sz : Nat) : Decidable (heap.Fits sz) :=
  inferInstanceAs (Decidable (_ ∨ _))

variable {heap next : TempHeap} {sz : Nat}

theorem toInt_eq_bmod
    (size : Nat) :
    toInt size = Int.bmod size (2 ^ 32) :=
  BitVec.toInt_ofNat ..

/-- The counter sees the sum with the full size through 32 bits. -/
theorem intAdd_toInt
    (allocated : Int)
    (size : Nat) :
    intAdd allocated (toInt size) = Int.bmod (allocated + size) (2 ^ 32) := by
  rw [toInt_eq_bmod, intAdd, Int.add_bmod_bmod]

theorem bmod_of_int
    {sum : Int}
    (lower : -2 ^ 31 ≤ sum)
    (upper : sum < 2 ^ 31) :
    Int.bmod sum (2 ^ 32) = sum :=
  Int.bmod_eq_of_le (by omega) (by omega)

/-- The allocator of the heap's model does the same as long as the sum is an
`int`; where it is not, the source leaves the result undefined. -/
theorem heap_tempmalloc_eq
    (arena : Arena)
    {size : Int}
    {whole : Heap}
    (lower : -2 ^ 31 ≤ whole.allocated + size)
    (upper : whole.allocated + size < 2 ^ 31) :
    Causer.tempmalloc arena size whole =
      (tempmalloc whole.allocated size).map fun (offset, allocated) =>
        ((arena.buf + offset).toNat, { whole with allocated := allocated }) := by
  have sum : intAdd whole.allocated size = whole.allocated + size :=
    bmod_of_int lower upper
  rw [Causer.tempmalloc, tempmalloc, sum]
  split_ifs
  · rfl
  · rfl

/-- What a request does to the allocator. -/
theorem step_eq_some
    (stepped : heap.step sz = some next) :
    (2 ^ 63 ≤ sz ∧ next = heap) ∨
      sz < 2 ^ 63 ∧ next.allocated ≤ initialMallocSize ∧
        next.allocated =
          Int.bmod (heap.allocated + paddedRealsize sz) (2 ^ 32) ∧
        next.blocks = heap.blocks ++ [⟨heap.allocated, paddedRealsize sz⟩] := by
  unfold step at stepped
  rw [Nat.shiftRight_eq_div_pow] at stepped
  split_ifs at stepped with large
  · cases stepped
    exact Or.inl ⟨by omega, rfl⟩
  · right
    obtain ⟨⟨offset, allocated⟩, obtained, rfl⟩ :=
      Option.map_eq_some_iff.mp stepped
    unfold tempmalloc at obtained
    split_ifs at obtained with exhausted
    rw [Option.some.injEq, Prod.mk.injEq, intAdd_toInt] at obtained
    rw [intAdd_toInt] at exhausted
    obtain ⟨rfl, rfl⟩ := obtained
    exact ⟨by omega, Int.not_lt.mp exhausted, rfl, rfl⟩

/-- The process aborts exactly when the low 32 bits of the sum are an `int`
beyond the end of the buffer. -/
theorem step_eq_none_iff :
    heap.step sz = none ↔
      sz < 2 ^ 63 ∧
        initialMallocSize <
          Int.bmod (heap.allocated + paddedRealsize sz) (2 ^ 32) := by
  unfold step
  rw [Nat.shiftRight_eq_div_pow]
  split_ifs with large
  · simp only [false_iff, not_and]
    omega
  · rw [Option.map_eq_none_iff, tempmalloc, intAdd_toInt]
    split_ifs with exhausted
    · exact iff_of_true rfl ⟨by omega, exhausted⟩
    · simp only [false_iff, not_and]
      exact fun _ => exhausted

theorem blocks_subset_of_step
    (stepped : heap.step sz = some next) :
    heap.blocks ⊆ next.blocks := by
  rcases step_eq_some stepped with ⟨-, rfl⟩ | ⟨-, -, -, blocks⟩
  · exact List.Subset.refl _
  · rw [blocks]
    exact List.subset_append_left ..

/-- A request that does not fit leaves a block outside the buffer. -/
theorem outside_of_not_fits
    (stepped : heap.step sz = some next)
    (unfit : ¬heap.Fits sz) :
    ∃ block ∈ next.blocks, ¬block.Inside := by
  obtain ⟨accepted, beyond⟩ := not_or.mp unfit
  rcases step_eq_some stepped with ⟨large, -⟩ | ⟨-, -, -, blocks⟩
  · exact absurd large accepted
  · refine ⟨⟨heap.allocated, paddedRealsize sz⟩, ?_, fun inside => ?_⟩
    · rw [blocks]
      exact List.mem_append_right _ List.mem_cons_self
    · exact beyond inside.2

/-- The blocks are stacked up to the counter. -/
structure Stacked (heap : TempHeap) : Prop extends Confined heap where
  allocatedNonneg : 0 ≤ heap.allocated
  below : ∀ block ∈ heap.blocks,
    block.offset + block.realsize ≤ heap.allocated

theorem stacked_start : start.Stacked where
  inside := fun _ member => absurd member List.not_mem_nil
  apart := List.Pairwise.nil
  allocatedLe := by decide
  allocatedNonneg := le_rfl
  below := fun _ member => absurd member List.not_mem_nil

/-- The counter after a request that fits. -/
theorem Stacked.allocated_of_fits
    (stacked : heap.Stacked)
    (fits : heap.Fits sz)
    (stepped : heap.step sz = some next) :
    (next = heap) ∨
      next.allocated = heap.allocated + paddedRealsize sz ∧
        heap.allocated + paddedRealsize sz ≤ initialMallocSize ∧
        next.blocks = heap.blocks ++ [⟨heap.allocated, paddedRealsize sz⟩] := by
  rcases step_eq_some stepped with
    ⟨-, same⟩ | ⟨accepted, -, allocated, blocks⟩
  · exact Or.inl same
  · have nonneg := stacked.allocatedNonneg
    have room := fits.resolve_left (by omega)
    have sum : Int.bmod (heap.allocated + paddedRealsize sz) (2 ^ 32) =
        heap.allocated + paddedRealsize sz := by
      simp only [initialMallocSize] at room
      exact bmod_of_int (by omega) (by omega)
    exact Or.inr ⟨allocated.trans sum, room, blocks⟩

theorem Stacked.grows
    (stacked : heap.Stacked)
    (fits : heap.Fits sz) :
    heap.Grows sz := by
  intro next stepped
  rcases stacked.allocated_of_fits fits stepped with rfl | ⟨allocated, -, -⟩
  · exact le_rfl
  · omega

theorem Stacked.step
    (stacked : heap.Stacked)
    (fits : heap.Fits sz)
    (stepped : heap.step sz = some next) :
    next.Stacked := by
  rcases stacked.allocated_of_fits fits stepped with
    rfl | ⟨allocated, room, blocks⟩
  · exact stacked
  · have nonneg := stacked.allocatedNonneg
    constructor
    · constructor
      · rw [blocks]
        intro block member
        rcases List.mem_append.mp member with former | last
        · exact stacked.inside block former
        · obtain rfl := List.mem_singleton.mp last
          exact ⟨nonneg, room⟩
      · rw [blocks]
        refine List.pairwise_append.mpr
          ⟨stacked.apart, List.pairwise_singleton .., ?_⟩
        intro block former other last
        obtain rfl := List.mem_singleton.mp last
        exact Or.inl (stacked.below block former)
      · exact allocated ▸ room
    · omega
    · rw [blocks]
      intro block member
      rcases List.mem_append.mp member with former | last
      · have := stacked.below block former
        omega
      · obtain rfl := List.mem_singleton.mp last
        exact allocated.ge

/-- Blocks are never taken back. -/
theorem blocks_subset_of_run
    {requests : List Nat}
    {final : TempHeap}
    (executed : Machine.run TempHeap.step heap requests = some final) :
    heap.blocks ⊆ final.blocks := by
  have preserved : ∀ reached sz next, heap.blocks ⊆ reached.blocks →
      TempHeap.step reached sz = some next → heap.blocks ⊆ next.blocks :=
    fun _ _ _ kept stepped =>
      List.Subset.trans kept (blocks_subset_of_step stepped)
  exact Machine.run_invariant_of_step preserved (List.Subset.refl _) executed

/-- If no block lies outside the buffer at the end, then every request has
fitted. -/
theorem Stacked.fits_of_confined
    {requests : List Nat}
    {final : TempHeap}
    (stacked : heap.Stacked)
    (executed : Machine.run TempHeap.step heap requests = some final)
    (confined : final.Confined) :
    Machine.Along TempHeap.step Fits heap requests := by
  induction requests generalizing heap with
  | nil => trivial
  | cons sz requests inductionHypothesis =>
      obtain ⟨next, stepped, rest⟩ := Machine.run_cons_eq_some executed
      have fits : heap.Fits sz := by
        by_contra unfit
        obtain ⟨block, member, outside⟩ := outside_of_not_fits stepped unfit
        exact outside
          (confined.inside block (blocks_subset_of_run rest member))
      exact Machine.along_cons stepped fits
        (inductionHypothesis (stacked.step fits stepped) rest)

/-- After a sequence of requests in which the process does not abort, the
blocks lie apart in the buffer and the counter has never decreased exactly if
the buffer had room for the full size of every request. -/
theorem confined_iff_fits
    {requests : List Nat}
    {final : TempHeap}
    (executed : Machine.run TempHeap.step start requests = some final) :
    (final.Confined ∧ Machine.Along TempHeap.step Grows start requests) ↔
      Machine.Along TempHeap.step Fits start requests := by
  constructor
  · rintro ⟨confined, -⟩
    exact stacked_start.fits_of_confined executed confined
  · intro fits
    have preserved : ∀ reached sz next, Stacked reached → reached.Fits sz →
        TempHeap.step reached sz = some next → Stacked next :=
      fun _ _ _ stacked fits stepped => stacked.step fits stepped
    have stacked := Machine.run_invariant preserved stacked_start fits executed
    exact ⟨stacked.toConfined,
      Machine.along_of_invariant preserved
        (fun _ _ stacked fits => stacked.grows fits) stacked_start fits⟩

/-- Two small requests. -/
theorem confined_iff_fits_twice :
    Confined ⟨208, [⟨0, 64⟩, ⟨64, 144⟩]⟩ ∧
      Machine.Along TempHeap.step Grows start [24, 100] :=
  (confined_iff_fits rfl).mpr (by decide)

/-- The size of a request for nearly four gigabytes becomes zero: the request
gets a block at the start of the buffer that is longer than the buffer, and the
next one gets the same.  One for two gigabytes takes the counter below
zero. -/
theorem not_confined_four_gigabytes :
    (Machine.run TempHeap.step start [2 ^ 32 - 40, 24] =
        some ⟨64, [⟨0, 2 ^ 32⟩, ⟨0, 64⟩]⟩ ∧
      ¬Confined ⟨64, [⟨0, 2 ^ 32⟩, ⟨0, 64⟩]⟩) ∧
      ¬Machine.Along TempHeap.step Grows start [2 ^ 31 - 40] := by
  refine ⟨⟨by decide, fun confined => ?_⟩, fun grows => ?_⟩
  · exact absurd (confined.inside ⟨0, 2 ^ 32⟩ List.mem_cons_self) (by decide)
  · have shrinks : start.step (2 ^ 31 - 40) =
        some ⟨-2 ^ 31, [⟨0, 2 ^ 31⟩]⟩ := by
      decide
    exact absurd (grows.1 _ shrinks) (by decide)

end TempHeap

end Causer
