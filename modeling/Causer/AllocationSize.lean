import Causer.AllocationFailure
import Mathlib.Order.Bounds.Basic

/-!
# How much the underlying allocator is asked for

The wrappers guard their sums in different ways: `malloc` by a test of the top
bit, `calloc` also by a division, and the functions with an alignment not at
all.  So the first two always ask for enough, and the others exactly when the
sum of size, guard and tail word fits 64 bits.  `aligned_alloc` rounds up also
a size that is a multiple of the alignment already.
-/

namespace Causer.AllocationFailure

open ByteMemory WordArithmetic Logged

/-- A call of the underlying allocator. -/
inductive UnderlyingCall
  | malloc (size : Nat)
  | memalign (alignment size : Nat)
  deriving DecidableEq

/-- The number of bytes that a call asks for. -/
def UnderlyingCall.size : UnderlyingCall → Nat
  | malloc size => size
  | memalign _ size => size

/-- What the underlying allocator answers to a call. -/
def Underlying.answer (underlying : Underlying) : UnderlyingCall → Nat
  | .malloc size => underlying.malloc size
  | .memalign alignment size => underlying.memalign alignment size

/-- The call that `CUSTOM_MALLOC` makes, if it makes one. -/
def customMallocAsks (sz : Nat) : Option UnderlyingCall :=
  if sz >>> 63 ≠ 0 then none else some (.malloc (mallocRealsize sz))

/-- The call that `CUSTOM_CALLOC` makes, if it makes one. -/
def customCallocAsks (nelem elsize : Nat) : Option UnderlyingCall :=
  let n := mul nelem elsize
  if elsize ≠ 0 ∧ nelem ≠ n / elsize then none else customMallocAsks n

/-- The call that `CUSTOM_MEMALIGN` makes. -/
def customMemalignAsks (alignment size : Nat) : Option UnderlyingCall :=
  some (.memalign alignment (memalignRealsize alignment size))

/-- The call that `CUSTOM_POSIX_MEMALIGN` makes, if it makes one. -/
def customPosixMemalignAsks (alignment size : Nat) : Option UnderlyingCall :=
  if alignment = 0 ∨ alignment &&& sub alignment 1 ≠ 0 then none
  else customMemalignAsks alignment size

/-- The size that `CUSTOM_ALIGNED_ALLOC` passes on. -/
def alignedAllocSize (alignment size : Nat) : Nat :=
  sub (add size alignment) (size % alignment)

/-- The call that `CUSTOM_ALIGNED_ALLOC` makes, unless it traps. -/
def customAlignedAllocAsks (alignment size : Nat) : Option UnderlyingCall :=
  if alignment = 0 then none
  else customMemalignAsks alignment (alignedAllocSize alignment size)

namespace Request

/-- The call of the underlying allocator that a request leads to. -/
def asks : Request → Option UnderlyingCall
  | malloc sz | realloc sz | operatorNew sz | operatorNewNothrow sz =>
      customMallocAsks sz
  | calloc nelem elsize => customCallocAsks nelem elsize
  | memalign alignment size => customMemalignAsks alignment size
  | posixMemalign _ alignment size => customPosixMemalignAsks alignment size
  | alignedAlloc alignment size => customAlignedAllocAsks alignment size

/-- The number of bytes that the caller wants. -/
def size : Request → Nat
  | malloc sz | realloc sz | operatorNew sz | operatorNewNothrow sz => sz
  | calloc nelem elsize => nelem * elsize
  | memalign _ size | posixMemalign _ _ size | alignedAlloc _ size => size

/-- The length of the guard area before the object. -/
def guardArea : Request → Nat
  | malloc _ | realloc _ | operatorNew _ | operatorNewNothrow _ | calloc _ _ =>
      objectGuardSize
  | memalign alignment _ | posixMemalign _ alignment _
  | alignedAlloc alignment _ => objguardsize alignment

/-- Sizes are words and alignments powers of two. -/
def WellFormed : Request → Prop
  | malloc sz | realloc sz | operatorNew sz | operatorNewNothrow sz =>
      sz < 2 ^ 64
  | calloc nelem elsize => nelem < 2 ^ 64 ∧ elsize < 2 ^ 64
  | memalign alignment size | posixMemalign _ alignment size
  | alignedAlloc alignment size =>
      alignment.isPowerOfTwo ∧ alignment < 2 ^ 64 ∧ size < 2 ^ 64

/-- A request for an aligned object passes on the least multiple of the
alignment that is not below the size. -/
def RoundsUp : Request → Prop
  | alignedAlloc alignment size =>
      IsLeast {multiple | alignment ∣ multiple ∧ size ≤ multiple}
        (alignedAllocSize alignment size)
  | _ => True

/-- Whatever the underlying allocator is asked for is enough for the object,
the guard area before it and the tail word after it. -/
structure AsksEnough (request : Request) : Prop where
  enough : ∀ call, request.asks = some call →
    request.size + request.guardArea + sentinelSize ≤ call.size
  roundsUp : request.RoundsUp

/-- When a request asks for enough. -/
def SumFits : Request → Prop
  | malloc _ | realloc _ | operatorNew _ | operatorNewNothrow _
  | calloc _ _ => True
  | memalign alignment size | posixMemalign _ alignment size =>
      size + objguardsize alignment + sentinelSize < 2 ^ 64
  | alignedAlloc alignment size =>
      ¬alignment ∣ size ∧
        (size / alignment + 1) * alignment + objguardsize alignment +
          sentinelSize < 2 ^ 64

end Request

/-- The answers among the events. -/
def Event.answer : Event → Option Nat
  | answered ptr => some ptr
  | _ => none

section Logged

variable (underlying : Underlying) (isWatching : Bool)

/-- The answers that a computation has logged. -/
def answers {Value : Type} (served : Logged Event Value) : List Nat :=
  served.effects.filterMap Event.answer

@[simp] theorem answers_map {Value Result : Type}
    (change : Value → Result) (served : Logged Event Value) :
    answers (change <$> served) = answers served := by
  rw [answers, map_effects, answers]

theorem answers_bind {Value Result : Type}
    (first : Logged Event Value) (next : Value → Logged Event Result) :
    answers (first >>= next) =
      answers first ++ answers (next first.value) := by
  rw [answers, bind_effects, List.filterMap_append, answers, answers]

@[simp] theorem answers_placeObject (guard ptr sz : Nat) :
    answers (placeObject isWatching guard ptr sz) = [] := by
  have watched : ∀ start, answers
      (xxmallocInstallWatchpoint isWatching start sz) = [] := by
    intro start
    rw [xxmallocInstallWatchpoint]
    split
    · rfl
    · rfl
  simpa [placeObject, construct, answers, Event.answer, log] using
    watched (ObjectGuard.getStartPtr guard)

/-- The answers that follow from a call. -/
abbrev answersTo (call : Option UnderlyingCall) : List Nat :=
  call.toList.map underlying.answer

theorem answers_customMalloc (sz : Nat) :
    answers (customMalloc underlying isWatching sz) =
      answersTo underlying (customMallocAsks sz) := by
  rw [customMalloc, customMallocAsks]
  split
  · rfl
  · have placed := answers_placeObject isWatching
      (underlying.malloc (mallocRealsize sz))
      (underlying.malloc (mallocRealsize sz)) sz
    rw [answers] at placed
    simp [xxmalloc, answers, answersTo, log, Event.answer, placed,
      Underlying.answer]

theorem answers_customCalloc (nelem elsize : Nat) :
    answers (customCalloc underlying nelem elsize) =
      answersTo underlying (customCallocAsks nelem elsize) := by
  have rest : ∀ ptr, answers (do
      if ptr ≠ 0 then log (.clear ⟨ptr, mul nelem elsize⟩)
      return ptr : Logged Event Nat) = [] := by
    intro ptr
    split
    · rfl
    · rfl
  rw [customCalloc, customCallocAsks]
  dsimp only
  split
  · rfl
  · rw [answers_bind, rest, List.append_nil, answers_customMalloc]

theorem answers_customMemalign (alignment size : Nat) :
    answers (customMemalign underlying isWatching alignment size) =
      answersTo underlying (customMemalignAsks alignment size) := by
  have placed := answers_placeObject isWatching
    (sub (add (underlying.memalign alignment
      (memalignRealsize alignment size)) (objguardsize alignment))
      objectGuardSize)
    (underlying.memalign alignment (memalignRealsize alignment size)) size
  rw [answers] at placed
  simp [customMemalign, xxmemalign, customMemalignAsks, answers, answersTo,
    log, Event.answer, placed, Underlying.answer]

theorem answers_customPosixMemalign (memptr alignment size : Nat) :
    answers (customPosixMemalign underlying isWatching memptr alignment
        size) =
      answersTo underlying (customPosixMemalignAsks alignment size) := by
  have rest : ∀ ptr, answers (do
      if ptr = 0 then return some .enomem
      else
        log (.store memptr ptr)
        return none : Logged Event (Option Errno)) = [] := by
    intro ptr
    split
    · rfl
    · rfl
  rw [customPosixMemalign, customPosixMemalignAsks]
  by_cases invalid : alignment = 0 ∨ alignment &&& sub alignment 1 ≠ 0
  · rw [if_pos invalid, if_pos invalid]
    rfl
  · rw [if_neg invalid, if_neg invalid, answers_bind, rest,
      List.append_nil, answers_customMemalign]

theorem answers_operatorNew (sz : Nat) :
    answers (AllocationFailure.operatorNew underlying isWatching sz) =
      answersTo underlying (customMallocAsks sz) := by
  rw [AllocationFailure.operatorNew, answers_bind, answers_customMalloc]
  exact List.append_nil _

variable {underlying isWatching}

/-- Whatever the underlying allocator answers, a request calls it as said, once
or not at all. -/
theorem answers_perform
    {request : Request}
    {served : Logged Event Outcome}
    (performed : request.perform underlying isWatching = some served) :
    answers served = answersTo underlying request.asks := by
  cases request with
  | malloc sz | realloc sz | operatorNewNothrow sz =>
      cases performed
      rw [answers_map]
      exact answers_customMalloc underlying isWatching sz
  | calloc nelem elsize =>
      cases performed
      rw [answers_map]
      exact answers_customCalloc underlying nelem elsize
  | memalign alignment size =>
      cases performed
      rw [answers_map]
      exact answers_customMemalign underlying isWatching alignment size
  | posixMemalign memptr alignment size =>
      cases performed
      rw [answers_map]
      exact answers_customPosixMemalign underlying isWatching memptr
        alignment size
  | alignedAlloc alignment size =>
      rw [Request.perform, customAlignedAlloc] at performed
      rw [Request.asks, customAlignedAllocAsks]
      split_ifs at performed ⊢ with zero
      · cases performed
      · cases performed
        rw [answers_map]
        exact answers_customMemalign underlying isWatching alignment _
  | operatorNew sz =>
      cases performed
      rw [answers_map]
      exact answers_operatorNew underlying isWatching sz

end Logged

namespace Request

/-- `malloc` asks for enough. -/
theorem mallocRealsize_of_small
    {sz : Nat}
    (small : ¬sz >>> 63 ≠ 0) :
    mallocRealsize sz = sz + objectGuardSize + sentinelSize := by
  rw [not_not, Nat.shiftRight_eq_div_pow] at small
  have noWrap : sz + (objectGuardSize + sentinelSize) < 2 ^ 64 := by
    simp only [objectGuardSize, sentinelSize]
    omega
  rw [mallocRealsize, add_of_lt noWrap, Nat.add_assoc]

theorem customMallocAsks_enough
    {sz : Nat} {call : UnderlyingCall}
    (asked : customMallocAsks sz = some call) :
    sz + objectGuardSize + sentinelSize ≤ call.size := by
  rw [customMallocAsks] at asked
  split_ifs at asked with small
  · cases asked
    exact (mallocRealsize_of_small small).ge

/-- The division of `calloc` finds out whether the product has wrapped. -/
theorem mul_eq_of_div
    {nelem elsize : Nat}
    (tested : ¬(elsize ≠ 0 ∧ nelem ≠ mul nelem elsize / elsize)) :
    mul nelem elsize = nelem * elsize := by
  apply le_antisymm (Nat.mod_le _ _)
  rcases Nat.eq_zero_or_pos elsize with rfl | positive
  · exact Nat.zero_le _
  · have same : nelem = mul nelem elsize / elsize := by
      by_contra different
      exact tested ⟨positive.ne', different⟩
    calc nelem * elsize
        = mul nelem elsize / elsize * elsize := by rw [← same]
      _ ≤ mul nelem elsize := Nat.div_mul_le_self _ _

theorem customCallocAsks_enough
    {nelem elsize : Nat} {call : UnderlyingCall}
    (asked : customCallocAsks nelem elsize = some call) :
    nelem * elsize + objectGuardSize + sentinelSize ≤ call.size := by
  rw [customCallocAsks] at asked
  split_ifs at asked with tested
  · rw [← mul_eq_of_div tested]
    exact customMallocAsks_enough asked

/-- The sum of `memalign` is enough exactly when it does not wrap. -/
theorem memalignRealsize_enough_iff
    {alignment size : Nat}
    (least : Nat)
    (power : alignment.isPowerOfTwo)
    (alignmentLt : alignment < 2 ^ 64)
    (sizeLt : size < 2 ^ 64) :
    least + objguardsize alignment + sentinelSize ≤
        memalignRealsize alignment size ↔
      least ≤ size ∧
        size + objguardsize alignment + sentinelSize < 2 ^ 64 := by
  have half : alignment ≤ 2 ^ 63 := by
    obtain ⟨bits, rfl⟩ := power
    have := (Nat.pow_lt_pow_iff_right (a := 2) (by omega)).mp alignmentLt
    exact Nat.pow_le_pow_right (by omega) (by omega)
  have guard := (objguardsize_spec power alignmentLt).2.2
  simp only [memalignRealsize, add, sentinelSize]
  omega

/-- What `aligned_alloc` passes on for a size that is no multiple. -/
theorem alignedAllocSize_of_not_dvd
    {alignment size : Nat}
    (positive : 0 < alignment)
    (alignmentLt : alignment < 2 ^ 64)
    (between : ¬alignment ∣ size) :
    alignedAllocSize alignment size =
      (size / alignment + 1) * alignment % 2 ^ 64 := by
  have remainder := Nat.mod_lt size positive
  have inexact : size % alignment ≠ 0 :=
    fun zero => between (Nat.dvd_of_mod_eq_zero zero)
  have split := Nat.div_add_mod' size alignment
  rw [alignedAllocSize, sub, add, Nat.add_one_mul]
  omega

/-- The least multiple above a size that is no multiple. -/
theorem isLeast_multiple
    {alignment size : Nat}
    (positive : 0 < alignment)
    (between : ¬alignment ∣ size) :
    IsLeast {multiple | alignment ∣ multiple ∧ size ≤ multiple}
      ((size / alignment + 1) * alignment) := by
  refine ⟨⟨Nat.dvd_mul_left _ _, (Nat.lt_div_mul_add positive).le.trans ?_⟩,
    ?_⟩
  · rw [Nat.add_one_mul]
  · rintro multiple ⟨⟨factor, rfl⟩, above⟩
    have larger : size < alignment * factor := by
      refine above.lt_of_ne ?_
      rintro rfl
      exact between (Nat.dvd_mul_right _ _)
    rw [Nat.mul_comm alignment]
    exact Nat.mul_le_mul_right _
      ((Nat.div_lt_iff_lt_mul positive).mpr (by rwa [Nat.mul_comm]))

/-- `aligned_alloc` rounds up as it should when the size is no multiple and
the sum fits. -/
theorem roundsUp_iff
    {alignment : Nat}
    (size : Nat)
    (positive : 0 < alignment)
    (alignmentLt : alignment < 2 ^ 64) :
    IsLeast {multiple | alignment ∣ multiple ∧ size ≤ multiple}
        (alignedAllocSize alignment size) ↔
      ¬alignment ∣ size ∧ (size / alignment + 1) * alignment < 2 ^ 64 := by
  constructor
  · intro least
    have between : ¬alignment ∣ size := by
      intro divides
      -- a multiple is its own least multiple, and it is not passed on
      have itself : IsLeast {multiple | alignment ∣ multiple ∧
          size ≤ multiple} size := ⟨⟨divides, le_rfl⟩, fun _ above => above.2⟩
      have same := least.unique itself
      rw [alignedAllocSize, Nat.mod_eq_zero_of_dvd divides, sub, add] at same
      omega
    refine ⟨between, ?_⟩
    have isLeast := isLeast_multiple positive between
    have same := least.unique isLeast
    rw [← same, alignedAllocSize, sub]
    exact Nat.mod_lt _ (by decide)
  · rintro ⟨between, fits⟩
    rw [alignedAllocSize_of_not_dvd positive alignmentLt between,
      Nat.mod_eq_of_lt fits]
    exact isLeast_multiple positive between

/-- The test of `posix_memalign` lets every power of two pass. -/
theorem customPosixMemalignAsks_eq
    {alignment : Nat}
    (power : alignment.isPowerOfTwo)
    (alignmentLt : alignment < 2 ^ 64)
    (size : Nat) :
    customPosixMemalignAsks alignment size =
      customMemalignAsks alignment size := by
  have positive := Nat.pos_of_isPowerOfTwo power
  have mask : alignment &&& sub alignment 1 = 0 := by
    obtain ⟨bits, rfl⟩ := power
    rw [sub_of_le positive alignmentLt, Nat.and_two_pow_sub_one_eq_mod,
      Nat.mod_self]
  rw [customPosixMemalignAsks, if_neg]
  rintro (zero | clear)
  · exact positive.ne' zero
  · exact clear mask

theorem alignedAllocSize_lt (alignment size : Nat) :
    alignedAllocSize alignment size < 2 ^ 64 :=
  Nat.mod_lt _ (by decide)

/-- A request whose call is known. -/
theorem asksEnough_iff_of_asks
    {request : Request} {call : UnderlyingCall}
    (asked : request.asks = some call) :
    AsksEnough request ↔
      request.size + request.guardArea + sentinelSize ≤ call.size ∧
        request.RoundsUp := by
  refine ⟨fun asks => ⟨asks.enough call asked, asks.roundsUp⟩, fun holds =>
    ⟨fun other otherAsked => ?_, holds.2⟩⟩
  rw [← Option.some.inj (asked.symm.trans otherAsked)]
  exact holds.1

/-- A request for an aligned object, whose alignment and size are passed on to
`memalign`. -/
theorem asksEnough_iff_passedOn
    {request : Request} {alignment passedOn : Nat}
    (power : alignment.isPowerOfTwo)
    (alignmentLt : alignment < 2 ^ 64)
    (passedOnLt : passedOn < 2 ^ 64)
    (asked : request.asks = customMemalignAsks alignment passedOn)
    (guardArea : request.guardArea = objguardsize alignment) :
    AsksEnough request ↔
      (request.size ≤ passedOn ∧
        passedOn + objguardsize alignment + sentinelSize < 2 ^ 64) ∧
        request.RoundsUp := by
  have callSize : (UnderlyingCall.memalign alignment
      (memalignRealsize alignment passedOn)).size =
        memalignRealsize alignment passedOn := by
    rw [UnderlyingCall.size]
  rw [customMemalignAsks] at asked
  rw [asksEnough_iff_of_asks asked, guardArea, callSize,
    memalignRealsize_enough_iff request.size power alignmentLt passedOnLt]

/-- A request asks for enough exactly when its sum fits. -/
theorem asksEnough_iff_sumFits
    {request : Request}
    (wellFormed : request.WellFormed) :
    AsksEnough request ↔ SumFits request := by
  cases request with
  | malloc sz | realloc sz | operatorNew sz | operatorNewNothrow sz =>
      exact iff_of_true ⟨fun _ => customMallocAsks_enough, trivial⟩ trivial
  | calloc nelem elsize =>
      exact iff_of_true ⟨fun _ => customCallocAsks_enough, trivial⟩ trivial
  | memalign alignment size =>
      obtain ⟨power, alignmentLt, sizeLt⟩ := wellFormed
      rw [asksEnough_iff_passedOn power alignmentLt sizeLt rfl rfl]
      exact ⟨fun asks => asks.1.2, fun fits => ⟨⟨le_rfl, fits⟩, trivial⟩⟩
  | posixMemalign memptr alignment size =>
      obtain ⟨power, alignmentLt, sizeLt⟩ := wellFormed
      have tested : (posixMemalign memptr alignment size).asks =
          customMemalignAsks alignment size :=
        customPosixMemalignAsks_eq power alignmentLt size
      rw [asksEnough_iff_passedOn power alignmentLt sizeLt tested rfl]
      exact ⟨fun asks => asks.1.2, fun fits => ⟨⟨le_rfl, fits⟩, trivial⟩⟩
  | alignedAlloc alignment size =>
      obtain ⟨power, alignmentLt, sizeLt⟩ := wellFormed
      have positive := Nat.pos_of_isPowerOfTwo power
      have tested : (alignedAlloc alignment size).asks =
          customMemalignAsks alignment (alignedAllocSize alignment size) :=
        if_neg positive.ne'
      rw [asksEnough_iff_passedOn power alignmentLt
        (alignedAllocSize_lt alignment size) tested rfl, RoundsUp,
        roundsUp_iff size positive alignmentLt, SumFits]
      constructor
      · rintro ⟨⟨-, sum⟩, between, fits⟩
        rw [alignedAllocSize_of_not_dvd positive alignmentLt between,
          Nat.mod_eq_of_lt fits] at sum
        exact ⟨between, sum⟩
      · rintro ⟨between, sum⟩
        have fits : (size / alignment + 1) * alignment < 2 ^ 64 := by omega
        have least := (roundsUp_iff size positive alignmentLt).mpr
          ⟨between, fits⟩
        refine ⟨⟨least.1.2, ?_⟩, between, fits⟩
        rw [alignedAllocSize_of_not_dvd positive alignmentLt between,
          Nat.mod_eq_of_lt fits]
        exact sum

/-- `aligned_alloc` of seventeen bytes aligned to sixteen. -/
theorem asksEnough_iff_sumFits_seventeen :
    AsksEnough (.alignedAlloc 16 17) ↔ SumFits (.alignedAlloc 16 17) :=
  asksEnough_iff_sumFits ⟨⟨4, rfl⟩, by decide, by decide⟩

/-- `memalign` of nearly the whole address space asks for an empty block, and
`aligned_alloc` rounds sixteen bytes up to thirty-two. -/
theorem not_asksEnough_memalign :
    (WellFormed (.memalign 16 (2 ^ 64 - 40)) ∧
        asks (.memalign 16 (2 ^ 64 - 40)) = some (.memalign 16 0) ∧
        ¬AsksEnough (.memalign 16 (2 ^ 64 - 40))) ∧
      WellFormed (.alignedAlloc 16 16) ∧ alignedAllocSize 16 16 = 32 ∧
        ¬AsksEnough (.alignedAlloc 16 16) := by
  have nothing : asks (.memalign 16 (2 ^ 64 - 40)) =
      some (.memalign 16 0) := by decide
  refine ⟨⟨⟨⟨4, rfl⟩, by decide, by decide⟩, nothing, fun asks => ?_⟩,
    ⟨⟨4, rfl⟩, by decide, by decide⟩, by decide, fun asks => ?_⟩
  · exact absurd (asks.enough _ nothing) (by decide)
  · have least : alignedAllocSize 16 16 ≤ 16 :=
      asks.roundsUp.2 ⟨Nat.dvd_refl 16, le_rfl⟩
    exact absurd least (by decide)

end Request

end Causer.AllocationFailure
