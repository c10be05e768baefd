import Causer.GuardIntegrity

/-!
# Whom the check at free blames

When the head word of a freed object is gone, the check takes the nearest head
word below for that of the object that overran it.  In memory to which nobody
writes the head word, the words that look like one are the heads of objects, so
the call site blamed is that of the nearest object with an intact head.  Nobody
innocent is blamed as long as that object is one that has been overrun, and as
long as the guards whose heads are intact are intact altogether.
-/

namespace Causer

open ByteMemory WordArithmetic ObjectGuard

/-! ## Words that are not head words -/

/-- The tail word and the head word cannot overlap in memory. -/
theorem not_head_of_overlaps_tail
    {memory : Memory}
    {head tail : Nat}
    (tailWord : readWord memory tail = sentinelTailWord)
    (overlap : ¬(wordAt tail).Apart (wordAt head)) :
    readWord memory head ≠ sentinelHeadWord := by
  intro headWord
  simp only [Region.Apart] at overlap
  rcases Nat.le_total head tail with below | above
  · -- the last byte of a head word is no byte of a tail word
    have last := byte_of_readWord headWord (show 7 < 8 by omega)
    have inTail := byte_of_readWord tailWord
      (show head + 7 - tail < 8 by omega)
    rw [show tail + (head + 7 - tail) = head + 7 by omega, last] at inTail
    have noByte : ∀ index < 8,
        byteOf sentinelHeadWord 7 ≠ byteOf sentinelTailWord index := by
      decide
    exact noByte _ (by omega) inTail
  · -- the last byte of a tail word is no byte of a head word
    have last := byte_of_readWord tailWord (show 7 < 8 by omega)
    have inHead := byte_of_readWord headWord
      (show tail + 7 - head < 8 by omega)
    rw [show head + (tail + 7 - head) = tail + 7 by omega, last] at inHead
    have noByte : ∀ index < 8,
        byteOf sentinelTailWord 7 ≠ byteOf sentinelHeadWord index := by
      decide
    exact noByte _ (by omega) inHead

/-- The scan stops at the nearest head word. -/
theorem findHead_eq_some
    {memory : Memory}
    {fuel prev head : Nat}
    (found : findHead memory fuel prev = some head) :
    readWord memory head = sentinelHeadWord ∧ head ≤ prev ∧
      8 ∣ prev - head ∧
      ∀ between, head < between → between ≤ prev → 8 ∣ prev - between →
        readWord memory between ≠ sentinelHeadWord := by
  induction fuel generalizing prev with
  | zero => cases found
  | succ fuel inductionHypothesis =>
      unfold findHead at found
      split_ifs at found with here bottom
      · obtain rfl := Option.some.inj found
        exact ⟨here, le_rfl, by simp, fun _ above below => by omega⟩
      · obtain ⟨headWord, below, multiple, nearest⟩ :=
          inductionHypothesis found
        refine ⟨headWord, by omega, by omega, ?_⟩
        intro between above betweenLe betweenMultiple
        rcases Nat.lt_or_ge (prev - 8) between with high | low
        · have same : between = prev := by omega
          rwa [same]
        · exact nearest between above low (by omega)

/-! ## Runs of malloc and free with overruns -/

/-- The write neither stores the head word at an aligned address nor completes
one there. -/
def StoresNoHead (state : HeapState) (address : Nat) (bytes : List UInt8) :
    Prop :=
  ∀ index < bytes.length / 8 + 2,
    readWord (state.write address bytes).heap.memory
        ((address / 8 + index) * 8) = sentinelHeadWord →
      readWord state.heap.memory ((address / 8 + index) * 8) =
          sentinelHeadWord ∧
        ¬(wordAt ((address / 8 + index) * 8)).Within ⟨address, bytes.length⟩

instance (state : HeapState) (address : Nat) (bytes : List UInt8) :
    Decidable (StoresNoHead state address bytes) := by
  unfold StoresNoHead
  infer_instance

/-- A write past the end of a live object. -/
def Overruns (state : HeapState) (address : Nat) : Prop :=
  ∃ object ∈ state.live, object.start + object.size = address

instance (state : HeapState) (address : Nat) :
    Decidable (Overruns state address) := by
  unfold Overruns
  infer_instance

/-- Calls of malloc and free, and nonempty writes that are confined or start at
the end of a live object, none of which stores the head word. -/
def MallocAndFree (arena : Arena) (state : HeapState) : HeapAction → Prop
  | .initialise => True
  | .malloc _ _ _ => True
  | .free _ => True
  | .write address bytes =>
      bytes ≠ [] ∧ StoresNoHead state address bytes ∧
        (Confined arena state ⟨address, bytes.length⟩ ∨
          Overruns state address)
  | _ => False

instance (arena : Arena) (state : HeapState) :
    ∀ label, Decidable (MallocAndFree arena state label)
  | .initialise
  | .malloc _ _ _
  | .calloc _ _ _
  | .memalign _ _ _ _
  | .posixMemalign _ _ _ _
  | .free _
  | .realloc _ _ _ _
  | .write _ _ => by
      unfold MallocAndFree
      infer_instance

namespace HeapState

/-- The objects whose block is theirs. -/
def placed (state : HeapState) : List Object :=
  state.live ++ state.retired.filter (·.temporary)

theorem mem_placed
    {state : HeapState}
    {object : Object} :
    object ∈ state.placed ↔ state.Placed object := by
  simp [placed, Placed]

/-- An object of the call site has been overrun. -/
def Guilty (state : HeapState) (callstack : Nat) : Prop :=
  ∃ object ∈ state.overrun, object.callstack = callstack

end HeapState

/-- A search for a head word, from an object downwards, comes to a place. -/
def SearchReaches (state : HeapState) (place : Nat) (object : Object) : Prop :=
  place < object.start ∧
    ∀ other ∈ state.placed, place < other.start → other.start < object.start →
      ¬HasHead state.heap.memory other.guard

instance (state : HeapState) (place : Nat) (object : Object) :
    Decidable (SearchReaches state place object) :=
  inferInstanceAs (Decidable (_ ∧ _))

/-- The check at free can read the guards that it comes to: that of the object
if its head word is in place, and otherwise the nearest one below with a head
word. -/
structure Traceable (state : HeapState) (object : Object) : Prop where
  holds : HasHead state.heap.memory object.guard →
    Holds state.heap.memory object.guard object.base object.size
      object.callstack
  below : ¬HasHead state.heap.memory object.guard →
    ∀ culprit ∈ state.placed, HasHead state.heap.memory culprit.guard →
      SearchReaches state culprit.start object →
      Holds state.heap.memory culprit.guard culprit.base culprit.size
        culprit.callstack

instance (state : HeapState) (object : Object) :
    Decidable (Traceable state object) :=
  decidable_of_iff
    ((HasHead state.heap.memory object.guard →
        Holds state.heap.memory object.guard object.base object.size
          object.callstack) ∧
      (¬HasHead state.heap.memory object.guard →
        ∀ culprit ∈ state.placed, HasHead state.heap.memory culprit.guard →
          SearchReaches state culprit.start object →
          Holds state.heap.memory culprit.guard culprit.base culprit.size
            culprit.callstack))
    ⟨fun ⟨holds, below⟩ => ⟨holds, below⟩,
      fun ⟨holds, below⟩ => ⟨holds, below⟩⟩

/-- No search from a live object without a head word comes to the place. -/
def Unsearched (state : HeapState) (place : Nat) : Prop :=
  ∀ victim ∈ state.live, ¬HasHead state.heap.memory victim.guard →
    ¬SearchReaches state place victim

instance (state : HeapState) (place : Nat) :
    Decidable (Unsearched state place) := by
  unfold Unsearched
  infer_instance

/-- Requests are not cut, nothing is allocated where a search would come to it,
the permanent objects that are freed are traceable, and no head word is cleared
that a search would come to. -/
def KeepsTraces (arena : Arena) (state : HeapState) : HeapAction → Prop
  | .malloc sz answer _ =>
      NotCut state.heap sz ∧
        Unsearched state (HeapState.ownBlock arena state.heap sz answer).base
  | .free ptr =>
      ∀ object ∈ state.live, object.start = ptr →
        object.temporary = false →
          Traceable state object ∧
            (HasHead state.heap.memory object.guard →
              Unsearched state object.start)
  | _ => True

instance (arena : Arena) (state : HeapState) :
    ∀ label, Decidable (KeepsTraces arena state label)
  | .initialise
  | .malloc _ _ _
  | .calloc _ _ _
  | .memalign _ _ _ _
  | .posixMemalign _ _ _ _
  | .free _
  | .realloc _ _ _ _
  | .write _ _ => by
      unfold KeepsTraces
      infer_instance

/-- The words that look like heads are heads of objects. -/
def HeadsPlaced (state : HeapState) : Prop :=
  ∀ address, 8 ∣ address →
    readWord state.heap.memory address = sentinelHeadWord →
    ∃ object, state.Placed object ∧ address = object.guard + 24

/-- What holds of the heads throughout a run. -/
structure HeadsInvariant (arena : Arena) (state : HeapState) : Prop where
  layout : Layout arena state
  aligned : ∀ object, state.Placed object → 8 ∣ object.start
  heads : HeadsPlaced state

/-- What holds throughout a traceable run. -/
structure BlameInvariant (arena : Arena) (state : HeapState) : Prop where
  layout : Layout arena state
  aligned : ∀ object, state.Placed object → 8 ∣ object.start
  heads : HeadsPlaced state
  tails : ∀ object ∈ state.live,
    HasHead state.heap.memory object.guard →
    ¬HasTail state.heap.memory object.guard object.size →
    object ∈ state.overrun
  culprits : ∀ victim ∈ state.live, ¬HasHead state.heap.memory victim.guard →
    ∀ culprit, state.Placed culprit →
      HasHead state.heap.memory culprit.guard →
      SearchReaches state culprit.start victim →
      culprit ∈ state.overrun
  blamed : ∀ callstack ∈ state.heap.blamed,
    ∃ object ∈ state.overrun, object.callstack = callstack

section

variable {arena : Arena} {state next : HeapState} {object : Object}

/-- Aligned words are equal or apart. -/
theorem apart_of_aligned
    {first second : Nat}
    (firstAligned : 8 ∣ first)
    (secondAligned : 8 ∣ second)
    (different : first ≠ second) :
    (wordAt first).Apart (wordAt second) := by
  simp only [Region.Apart]
  omega

/-! ### Writes -/

/-- Every aligned head word was there before the write and has been reached by
it in part at most. -/
theorem StoresNoHead.before
    {address other : Nat}
    {bytes : List UInt8}
    (storesNoHead : StoresNoHead state address bytes)
    (aligned : 8 ∣ other)
    (headWord : readWord (state.write address bytes).heap.memory other =
      sentinelHeadWord) :
    readWord state.heap.memory other = sentinelHeadWord ∧
      ¬(wordAt other).Within ⟨address, bytes.length⟩ := by
  by_cases apart : Region.Apart ⟨address, bytes.length⟩ (wordAt other)
  · constructor
    · rw [← headWord]
      exact (readWord_congr (agreesOn_blit _ _ apart)).symm
    · simp only [Region.Within, Region.Apart] at apart ⊢
      omega
  · simp only [Region.Apart] at apart
    have place : (address / 8 + (other / 8 - address / 8)) * 8 = other := by
      omega
    have reached := storesNoHead (other / 8 - address / 8) (by omega)
    rw [place] at reached
    exact reached headWord

/-- A write that stores no head word makes none. -/
theorem HeadsPlaced.write
    {address : Nat}
    {bytes : List UInt8}
    (heads : HeadsPlaced state)
    (storesNoHead : StoresNoHead state address bytes) :
    HeadsPlaced (state.write address bytes) :=
  fun other aligned headWord =>
    heads other aligned (storesNoHead.before aligned headWord).1

theorem BlameInvariant.headsInvariant
    (invariant : BlameInvariant arena state) :
    HeadsInvariant arena state :=
  ⟨invariant.layout, invariant.aligned, invariant.heads⟩

/-- The head word of a placed object is at an aligned address. -/
theorem HeadsInvariant.head_aligned
    (invariant : HeadsInvariant arena state)
    (placed : state.Placed object) :
    8 ∣ object.guard + 24 := by
  have aligned := invariant.aligned object placed
  have guardAdd := (invariant.layout.fits object placed).guard_add
  omega

/-- An allowed write that reaches the tail word of an object and leaves its
head word starts at the end of the object. -/
theorem Layout.overruns_of_tail
    {address : Nat}
    {bytes : List UInt8}
    (layout : Layout arena state)
    (allowed : Confined arena state ⟨address, bytes.length⟩ ∨
      Overruns state address)
    (live : object ∈ state.live)
    (headSpared : ¬(wordAt (object.guard + 24)).Within
      ⟨address, bytes.length⟩)
    (tailReached : ¬Region.Apart ⟨address, bytes.length⟩
      (wordAt (object.guard + 32 + object.size))) :
    object.start + object.size = address := by
  have fits := layout.fits object (Or.inl live)
  have guardAdd := fits.guard_add
  have guardInside := fits.guardInside
  have tailInside := fits.tailInside
  have tailWithin :
      (wordAt (object.guard + 32 + object.size)).Within object.block := by
    simp only [Region.Within]
    omega
  rcases allowed with
    (⟨target, targetLive, within⟩ | ⟨blocks, offArena⟩) |
      ⟨source, sourceLive, ends⟩
  · by_cases same : target = object
    · subst same
      simp only [Region.Within, Region.Apart] at within tailReached
      omega
    · have apart := layout.apart target object (Or.inl targetLive)
        (Or.inl live) same
      have targetFits := layout.fits target (Or.inl targetLive)
      exact absurd
        (apart.of_within (within.trans targetFits.data_within) tailWithin)
        tailReached
  · have apart := layout.apart_of_foreign blocks offArena (Or.inl live)
    exact absurd (apart.of_within ⟨le_rfl, le_rfl⟩ tailWithin) tailReached
  · by_cases same : source = object
    · exact same ▸ ends
    · -- from below the write would pass over the head word
      have apart := layout.apart source object (Or.inl sourceLive)
        (Or.inl live) same
      have sourceFits := layout.fits source (Or.inl sourceLive)
      have sourceGuard := sourceFits.guardInside
      have sourceTail := sourceFits.tailInside
      simp only [Region.Within, Region.Apart] at apart headSpared tailReached
      omega

/-- An allowed write that reaches the head word of an object starts at the end of
an object below. -/
theorem Layout.source_of_head
    {address : Nat}
    {bytes : List UInt8}
    (layout : Layout arena state)
    (allowed : Confined arena state ⟨address, bytes.length⟩ ∨
      Overruns state address)
    (placed : state.Placed object)
    (reached : ¬Region.Apart ⟨address, bytes.length⟩
      (wordAt (object.guard + 24))) :
    ∃ source ∈ state.live, source.start + source.size = address ∧
      source.start < object.start := by
  have fits := layout.fits object placed
  have guardAdd := fits.guard_add
  have guardInside := fits.guardInside
  have tailInside := fits.tailInside
  have headWithin : (wordAt (object.guard + 24)).Within object.block := by
    simp only [Region.Within]
    omega
  rcases allowed with
    (⟨target, targetLive, within⟩ | ⟨blocks, offArena⟩) |
      ⟨source, sourceLive, ends⟩
  · by_cases same : target = object
    · subst same
      simp only [Region.Within, Region.Apart] at within reached
      omega
    · have apart := layout.apart target object (Or.inl targetLive) placed same
      have targetFits := layout.fits target (Or.inl targetLive)
      exact absurd
        (apart.of_within (within.trans targetFits.data_within) headWithin)
        reached
  · have apart := layout.apart_of_foreign blocks offArena placed
    exact absurd (apart.of_within ⟨le_rfl, le_rfl⟩ headWithin) reached
  · refine ⟨source, sourceLive, ends, ?_⟩
    by_cases same : source = object
    · subst same
      simp only [Region.Apart] at reached
      omega
    · have apart := layout.apart source object (Or.inl sourceLive) placed same
      have sourceFits := layout.fits source (Or.inl sourceLive)
      have sourceGuard := sourceFits.guardInside
      have sourceTail := sourceFits.tailInside
      simp only [Region.Apart] at apart reached
      omega

/-- A write that stores no head word keeps the heads where they are. -/
theorem HeadsInvariant.write
    {address : Nat}
    {bytes : List UInt8}
    (invariant : HeadsInvariant arena state)
    (storesNoHead : StoresNoHead state address bytes) :
    HeadsInvariant arena (state.write address bytes) :=
  ⟨invariant.layout.of_stock rfl rfl rfl rfl rfl, invariant.aligned,
    invariant.heads.write storesNoHead⟩

/-- After a write, a search from an object without a head word comes to an object
that has been overrun. -/
theorem BlameInvariant.culprits_write
    {address : Nat}
    {bytes : List UInt8}
    (invariant : BlameInvariant arena state)
    (storesNoHead : StoresNoHead state address bytes)
    (allowed : Confined arena state ⟨address, bytes.length⟩ ∨
      Overruns state address)
    {victim culprit : Object}
    (live : victim ∈ state.live)
    (noHead : ¬HasHead (state.write address bytes).heap.memory victim.guard)
    (placed : state.Placed culprit)
    (head : HasHead (state.write address bytes).heap.memory culprit.guard)
    (reaches : SearchReaches (state.write address bytes) culprit.start
      victim) :
    culprit ∈ state.overrun ∨
      culprit ∈ state.live.filter
        fun object => object.start + object.size = address := by
  have layout := invariant.layout
  have headsInvariant := invariant.headsInvariant
  obtain ⟨headBefore, headSpared⟩ :=
    storesNoHead.before (headsInvariant.head_aligned placed) head
  -- what the write does not reach has its head word as before
  have unreached : ∀ {other : Object},
      Region.Apart ⟨address, bytes.length⟩ (wordAt (other.guard + 24)) →
      ¬HasHead (state.write address bytes).heap.memory other.guard →
      ¬HasHead state.heap.memory other.guard := by
    intro other apart noHeadAfter headWord
    exact noHeadAfter
      ((readWord_congr (agreesOn_blit _ _ apart)).trans headWord)
  by_cases lost : ∃ other, state.Placed other ∧
      culprit.start < other.start ∧ other.start ≤ victim.start ∧
      HasHead state.heap.memory other.guard
  · obtain ⟨other, otherPlaced, above, upTo, otherHead⟩ := lost
    have otherLost :
        ¬HasHead (state.write address bytes).heap.memory other.guard := by
      rcases upTo.lt_or_eq with below | same
      · exact reaches.2 other (HeapState.mem_placed.mpr otherPlaced) above below
      · rwa [layout.eq_of_start otherPlaced (Or.inl live) same]
    obtain ⟨source, sourceLive, ends, sourceBelow⟩ :=
      layout.source_of_head allowed otherPlaced
        fun apart => unreached apart otherLost otherHead
    have sourceFits := layout.fits source (Or.inl sourceLive)
    have sourceAdd := sourceFits.guard_add
    have culpritFits := layout.fits culprit placed
    have culpritAdd := culpritFits.guard_add
    rcases lt_trichotomy culprit.start source.start with lower | same | higher
    · -- the source had lost its own head word before, and the search goes on
      left
      have sourceLost := reaches.2 source
        (HeapState.mem_placed.mpr (Or.inl sourceLive)) lower
        (sourceBelow.trans_le upTo)
      refine invariant.culprits source sourceLive
        (unreached ?_ sourceLost) culprit placed headBefore ⟨lower, ?_⟩
      · simp only [Region.Apart]
        omega
      · intro between member betweenAbove betweenBelow
        have betweenPlaced := HeapState.mem_placed.mp member
        have betweenFits := layout.fits between betweenPlaced
        have betweenAdd := betweenFits.guard_add
        refine unreached ?_ (reaches.2 between member betweenAbove
          (betweenBelow.trans (sourceBelow.trans_le upTo)))
        simp only [Region.Apart]
        omega
    · exact Or.inr (List.mem_filter.mpr
        ⟨(layout.eq_of_start placed (Or.inl sourceLive) same) ▸ sourceLive,
          by
            rw [layout.eq_of_start placed (Or.inl sourceLive) same]
            exact decide_eq_true ends⟩)
    · -- the write has gone over the head word of the culprit
      have otherFits := layout.fits other otherPlaced
      have otherAdd := otherFits.guard_add
      have otherGuard := otherFits.guardInside
      have otherTail := otherFits.tailInside
      have culpritGuard := culpritFits.guardInside
      have culpritTail := culpritFits.tailInside
      have sourceTail := sourceFits.tailInside
      have sourceGuard := sourceFits.guardInside
      have reached : ¬Region.Apart ⟨address, bytes.length⟩
          (wordAt (other.guard + 24)) :=
        fun apart => unreached apart otherLost otherHead
      have belowCulprit := layout.apart source culprit (Or.inl sourceLive)
        placed (by rintro rfl; omega)
      have belowOther := layout.apart culprit other placed otherPlaced
        (by rintro rfl; omega)
      refine absurd ?_ headSpared
      simp only [Region.Within, Region.Apart] at *
      omega
  · left
    push Not at lost
    refine invariant.culprits victim live
      (fun headWord => lost victim (Or.inl live) reaches.1 le_rfl headWord)
      culprit placed headBefore ⟨reaches.1, ?_⟩
    intro other member above below headWord
    exact lost other (HeapState.mem_placed.mp member) above below.le headWord

/-- A write keeps the invariant. -/
theorem BlameInvariant.write
    {address : Nat}
    {bytes : List UInt8}
    (invariant : BlameInvariant arena state)
    (nonempty : bytes ≠ [])
    (storesNoHead : StoresNoHead state address bytes)
    (allowed : Confined arena state ⟨address, bytes.length⟩ ∨
      Overruns state address) :
    BlameInvariant arena (state.write address bytes) := by
  have layout := invariant.layout
  have overrun : (state.write address bytes).overrun =
      state.overrun ++
        state.live.filter fun object =>
          object.start + object.size = address := by
    rw [HeapState.write, if_neg nonempty]
  obtain ⟨nextLayout, nextAligned, nextHeads⟩ :=
    invariant.headsInvariant.write storesNoHead
  refine ⟨nextLayout, nextAligned, nextHeads, ?_, ?_, ?_⟩
  · intro object live head noTail
    obtain ⟨headBefore, headSpared⟩ := storesNoHead.before
      (invariant.headsInvariant.head_aligned (Or.inl live)) head
    rw [overrun]
    by_cases tailApart : Region.Apart ⟨address, bytes.length⟩
        (wordAt (object.guard + 32 + object.size))
    · apply List.mem_append_left
      apply invariant.tails object live headBefore
      intro tail
      exact noTail
        ((readWord_congr (agreesOn_blit _ _ tailApart)).trans tail)
    · apply List.mem_append_right
      exact List.mem_filter.mpr ⟨live, decide_eq_true
        (layout.overruns_of_tail allowed live headSpared tailApart)⟩
  · intro victim live noHead culprit placed head reaches
    rw [overrun]
    exact List.mem_append.mpr (invariant.culprits_write storesNoHead allowed
      live noHead placed head reaches)
  · intro callstack blamed
    obtain ⟨object, member, site⟩ := invariant.blamed callstack blamed
    rw [overrun]
    exact ⟨object, List.mem_append_left _ member, site⟩

/-! ### Allocations -/

theorem ne_sentinelHeadWord
    {value : Nat}
    (valueLt : value < 2 ^ 63) :
    value ≠ sentinelHeadWord := by
  rw [sentinelHeadWord]
  omega

/-- The words of a new object that look like heads. -/
theorem Placement.head_cases
    {before after : Heap}
    {address : Nat}
    (placement : Placement arena before after object)
    (startAligned : 8 ∣ object.start)
    (aligned : 8 ∣ address)
    (headWord : readWord after.memory address = sentinelHeadWord) :
    address = object.guard + 24 ∨
      readWord before.memory address = sentinelHeadWord := by
  have fits := placement.fits
  have guardAdd := fits.guard_add
  have tailInside := fits.tailInside
  have bounded := fits.bounded
  have holds := placement.guarded.holds
  have tailApart : (wordAt (object.guard + 32 + object.size)).Apart
      (wordAt address) := by
    by_contra overlaps
    exact not_head_of_overlaps_tail placement.guarded.tail overlaps headWord
  by_cases guardApart : Region.Apart ⟨object.guard, 32⟩ (wordAt address)
  · right
    rw [← headWord]
    exact (readWord_congr
      (placement.untouched (wordAt address) guardApart tailApart)).symm
  · left
    -- the other fields of the guard are below the head word
    have field : address = object.guard ∨ address = object.guard + 8 ∨
        address = object.guard + 16 ∨ address = object.guard + 24 := by
      simp only [Region.Apart] at guardApart
      omega
    rcases field with rfl | rfl | rfl | isHead
    · exact absurd (holds.realPtr.symm.trans headWord)
        (ne_sentinelHeadWord (by omega))
    · exact absurd (holds.objectSize.symm.trans headWord)
        (ne_sentinelHeadWord (by omega))
    · exact absurd (holds.callstack.symm.trans headWord)
        (ne_sentinelHeadWord fits.callstack)
    · exact isHead

/-- A damaged tail word outlives what leaves the object alone. -/
theorem BlameInvariant.tails_of_span
    {memory : Memory}
    (invariant : BlameInvariant arena state)
    (agrees : AgreesOn object.span state.heap.memory memory)
    (live : object ∈ state.live)
    (head : HasHead memory object.guard)
    (noTail : ¬HasTail memory object.guard object.size) :
    object ∈ state.overrun :=
  invariant.tails object live ((hasHead_iff_of_span agrees).mp head)
    (mt (hasTail_iff_of_span agrees).mpr noTail)

/-- A new object has the only new head. -/
theorem HeadsInvariant.handOut
    {after : Heap}
    (invariant : HeadsInvariant arena state)
    (placement : Placement arena state.heap after object)
    (serial : object.serial = state.count)
    (startAligned : 8 ∣ object.start) :
    HeadsInvariant arena (state.handOut after object) := by
  have fits := placement.fits
  have placedIff : ∀ other, (state.handOut after object).Placed other ↔
      state.Placed other ∨ other = object :=
    fun _ => HeapState.placed_handOut fits
  have handedOut : state.handOut after object = _ :=
    HeapState.handOut_of_fits fits
  refine ⟨invariant.layout.handOut placement.toAllocated serial, ?_, ?_⟩
  · intro other placed
    rcases (placedIff other).mp placed with former | rfl
    · exact invariant.aligned other former
    · exact startAligned
  · intro address aligned headWord
    rw [handedOut] at headWord
    rcases placement.head_cases startAligned aligned headWord with
      isHead | former
    · exact ⟨object, (placedIff object).mpr (Or.inr rfl), isHead⟩
    · obtain ⟨other, placed, isHead⟩ := invariant.heads address aligned former
      exact ⟨other, (placedIff other).mpr (Or.inl placed), isHead⟩

/-- After an allocation where no search comes to, a search comes to an object that
has been overrun. -/
theorem BlameInvariant.culprits_handOut
    {after : Heap}
    (invariant : BlameInvariant arena state)
    (placement : Placement arena state.heap after object)
    (unsearched : Unsearched state object.base)
    {victim culprit : Object}
    (live : victim ∈ (state.handOut after object).live)
    (noHead : ¬HasHead after.memory victim.guard)
    (placed : (state.handOut after object).Placed culprit)
    (head : HasHead after.memory culprit.guard)
    (reaches : SearchReaches (state.handOut after object) culprit.start
      victim) :
    culprit ∈ state.overrun := by
  have layout := invariant.layout
  have fits := placement.fits
  have placedIff : ∀ other, (state.handOut after object).Placed other ↔
      state.Placed other ∨ other = object :=
    fun _ => HeapState.placed_handOut fits
  have handedOut : state.handOut after object = _ :=
    HeapState.handOut_of_fits fits
  rw [handedOut] at live
  have victimLive : victim ∈ state.live := by
    rcases List.mem_append.mp live with former | new
    · exact former
    · rw [List.mem_singleton.mp new] at noHead
      exact absurd placement.guarded.head noHead
  have sameHead : ∀ {other : Object}, state.Placed other →
      (HasHead after.memory other.guard ↔
        HasHead state.heap.memory other.guard) :=
    fun former => hasHead_iff_of_span
      (layout.agrees_of_allocated placement.toAllocated former)
  have noHeadBefore := mt (sameHead (Or.inl victimLive)).mpr noHead
  have bare : ∀ other, state.Placed other → culprit.start < other.start →
      other.start < victim.start → ¬HasHead state.heap.memory other.guard := by
    intro other former above below headWord
    refine reaches.2 other
      (HeapState.mem_placed.mpr ((placedIff other).mpr (Or.inl former)))
      above below ?_
    rw [handedOut]
    exact (sameHead former).mpr headWord
  rcases (placedIff culprit).mp placed with former | rfl
  · exact invariant.culprits victim victimLive noHeadBefore culprit former
      ((sameHead former).mp head) ⟨reaches.1, fun other member =>
        bare other (HeapState.mem_placed.mp member)⟩
  · -- the search would have come to the place of the new object
    refine absurd ⟨?_, ?_⟩ (unsearched victim victimLive noHeadBefore)
    · exact lt_of_lt_of_le (by have := fits.guardInside; omega) reaches.1
    · intro other member above below
      have former := HeapState.mem_placed.mp member
      have apart := layout.apart_new placement.toAllocated former
      have otherFits := layout.fits other former
      have otherGuard := otherFits.guardInside
      have otherTail := otherFits.tailInside
      have guardInside := fits.guardInside
      have tailInside := fits.tailInside
      refine bare other former ?_ below
      simp only [Region.Apart] at apart
      omega

/-- An allocation where no search comes to keeps the invariant. -/
theorem BlameInvariant.handOut
    {after : Heap}
    (invariant : BlameInvariant arena state)
    (placement : Placement arena state.heap after object)
    (unsearched : Unsearched state object.base)
    (serial : object.serial = state.count)
    (startAligned : 8 ∣ object.start) :
    BlameInvariant arena (state.handOut after object) := by
  have layout := invariant.layout
  have handedOut : state.handOut after object = _ :=
    HeapState.handOut_of_fits placement.fits
  obtain ⟨nextLayout, nextAligned, nextHeads⟩ :=
    invariant.headsInvariant.handOut placement serial startAligned
  refine ⟨nextLayout, nextAligned, nextHeads, ?_, ?_, ?_⟩
  · rw [handedOut]
    intro other live head noTail
    rcases List.mem_append.mp live with former | new
    · exact invariant.tails_of_span
        (layout.agrees_of_allocated placement.toAllocated (Or.inl former))
        former head noTail
    · rw [List.mem_singleton.mp new] at noTail
      exact absurd placement.guarded.tail noTail
  · intro victim live noHead culprit placed head reaches
    rw [HeapState.handOut_heap] at noHead head
    rw [HeapState.handOut_overrun]
    exact invariant.culprits_handOut placement unsearched live noHead placed
      head reaches
  · rw [handedOut]
    intro callstack blamed
    rw [placement.blamed] at blamed
    exact invariant.blamed callstack blamed

/-! ### Releases -/

/-- The placed objects after a release. -/
theorem HeapState.placed_release_of_placed
    {after : Heap}
    {other : Object}
    (placed : state.Placed other)
    (stays : other = object → other.temporary = true) :
    (state.release after object).Placed other := by
  simp only [HeapState.Placed, HeapState.release_live,
    HeapState.release_retired, List.mem_filter, List.mem_append,
    List.mem_singleton, decide_eq_true_eq]
  by_cases same : other = object
  · exact Or.inr ⟨Or.inr same, stays same⟩
  · rcases placed with live | ⟨retired, temporary⟩
    · exact Or.inl ⟨live, same⟩
    · exact Or.inr ⟨Or.inl retired, temporary⟩

/-- The check at free blames nobody innocent for a guilty call site. -/
theorem Blamed.all
    {before after : Heap}
    {callstack : Nat}
    (blamed : Blamed before after callstack)
    (guilty : state.Guilty callstack)
    (former : ∀ site ∈ before.blamed,
      ∃ object ∈ state.overrun, object.callstack = site) :
    ∀ site ∈ after.blamed,
      ∃ object ∈ state.overrun, object.callstack = site := by
  intro site member
  by_cases recorded : callstack = 0
  · rw [blamed.unrecorded recorded] at member
    exact former site member
  · rw [blamed.blamed recorded] at member
    rcases List.mem_append.mp member with old | new
    · exact former site old
    · rw [List.mem_singleton.mp new]
      exact guilty

/-- The scan ends at the nearest placed object with an intact head word, and
finds its call site. -/
theorem BlameInvariant.guilty_of_findHead
    {fuel head : Nat}
    (invariant : BlameInvariant arena state)
    (live : object ∈ state.live)
    (noHead : ¬HasHead state.heap.memory object.guard)
    (traceable : Traceable state object)
    (found : findHead state.heap.memory fuel object.guard = some head) :
    state.Guilty (readWord state.heap.memory (sub head 8)) := by
  have layout := invariant.layout
  have fits := layout.fits object (Or.inl live)
  have guardAdd := fits.guard_add
  have guardInside := fits.guardInside
  have tailInside := fits.tailInside
  have startAligned := invariant.aligned object (Or.inl live)
  obtain ⟨headWord, below, multiple, nearest⟩ := findHead_eq_some found
  obtain ⟨culprit, placed, place⟩ :=
    invariant.heads head (by omega) headWord
  have culpritFits := layout.fits culprit placed
  have culpritAdd := culpritFits.guard_add
  have bounded := culpritFits.bounded
  have culpritInside := culpritFits.tailInside
  have field : sub head 8 = culprit.guard + 16 := by
    rw [place, sub_of_le (by omega) (by omega)]
    omega
  have culpritHead : HasHead state.heap.memory culprit.guard := by
    rw [HasHead, ← place]
    exact headWord
  have between : ∀ other ∈ state.placed, culprit.start < other.start →
      other.start < object.start →
      ¬HasHead state.heap.memory other.guard := by
    intro other otherMember above belowObject
    have otherPlaced := HeapState.mem_placed.mp otherMember
    have otherFits := layout.fits other otherPlaced
    have otherAdd := otherFits.guard_add
    have otherGuard := otherFits.guardInside
    have otherTail := otherFits.tailInside
    have otherAligned := invariant.aligned other otherPlaced
    have different : other ≠ object := by
      rintro rfl
      omega
    have apart := layout.apart other object otherPlaced (Or.inl live) different
    simp only [Region.Apart] at apart
    exact nearest (other.guard + 24) (by omega) (by omega) (by omega)
  have reaches : SearchReaches state culprit.start object :=
    ⟨by omega, between⟩
  have holds := traceable.below noHead culprit
    (HeapState.mem_placed.mpr placed) culpritHead reaches
  have site : readWord state.heap.memory (culprit.guard + 16) =
      culprit.callstack :=
    holds.callstack
  rw [field, site]
  exact ⟨culprit, invariant.culprits object live noHead culprit placed
    culpritHead reaches, rfl⟩

/-- A release takes the head of its object away, unless that is temporary. -/
theorem HeadsInvariant.release
    {after : Heap}
    (invariant : HeadsInvariant arena state)
    (live : object ∈ state.live)
    (returned : Returned state.heap after object)
    (spent : object.temporary = false → ¬HasHead after.memory object.guard) :
    HeadsInvariant arena (state.release after object) := by
  have layout := invariant.layout
  refine ⟨layout.release live returned, ?_, ?_⟩
  · intro other placed
    exact invariant.aligned other (HeapState.placed_release live placed).1
  · intro address aligned headWord
    by_cases same : address = object.guard + 24
    · refine ⟨object, ?_, same⟩
      apply HeapState.placed_release_of_placed (Or.inl live)
      intro _
      by_contra permanent
      rw [same] at headWord
      exact spent (Bool.eq_false_of_not_eq_true permanent) headWord
    · have apart : (wordAt (object.guard + 24)).Apart (wordAt address) :=
        apart_of_aligned (invariant.head_aligned (Or.inl live)) aligned
          (Ne.symm same)
      obtain ⟨other, placed, place⟩ := invariant.heads address aligned
        ((readWord_congr (returned.frame _ apart)).symm.trans headWord)
      refine ⟨other, ?_, place⟩
      apply HeapState.placed_release_of_placed placed
      rintro rfl
      exact absurd place same

/-- After a release that clears no head word that a search comes to, a search comes
to an object that has been overrun. -/
theorem BlameInvariant.culprits_release
    {after : Heap}
    (invariant : BlameInvariant arena state)
    (live : object ∈ state.live)
    (returned : Returned state.heap after object)
    (spent : object.temporary = false → ¬HasHead after.memory object.guard)
    (unsearched : object.temporary = false →
      HasHead state.heap.memory object.guard →
      Unsearched state object.start)
    (stays : object.temporary = true → after.memory = state.heap.memory)
    {victim culprit : Object}
    (victimStays : victim ∈ (state.release after object).live)
    (noHead : ¬HasHead after.memory victim.guard)
    (placed : (state.release after object).Placed culprit)
    (head : HasHead after.memory culprit.guard)
    (reaches : SearchReaches (state.release after object) culprit.start
      victim) :
    culprit ∈ state.overrun := by
  have layout := invariant.layout
  obtain ⟨victimLive, different⟩ := List.mem_filter.mp victimStays
  -- apart from the head word that is cleared the heads are as before
  have sameHead : ∀ {other : Object}, state.Placed other →
      (other = object → other.temporary = true) →
      (HasHead after.memory other.guard ↔
        HasHead state.heap.memory other.guard) := by
    intro other former keeps
    by_cases same : other = object
    · rw [HasHead, HasHead, stays (same ▸ keeps same)]
    · exact hasHead_iff_of_span
        (layout.agrees_of_returned returned (Or.inl live) former same)
  have noHeadBefore : ¬HasHead state.heap.memory victim.guard :=
    mt (sameHead (Or.inl victimLive)
      fun same => absurd same (of_decide_eq_true different)).mpr noHead
  have culpritBefore := (HeapState.placed_release live placed).1
  have headBefore : HasHead state.heap.memory culprit.guard := by
    refine (sameHead culpritBefore ?_).mp head
    rintro rfl
    by_contra permanent
    exact spent (Bool.eq_false_of_not_eq_true permanent) head
  have bare : ∀ other, state.Placed other →
      (other = object → other.temporary = true) →
      culprit.start < other.start → other.start < victim.start →
      ¬HasHead state.heap.memory other.guard := by
    intro other former keeps above below headWord
    exact reaches.2 other (HeapState.mem_placed.mpr
        (HeapState.placed_release_of_placed former keeps)) above below
      ((sameHead former keeps).mpr headWord)
  refine invariant.culprits victim victimLive noHeadBefore culprit
    culpritBefore headBefore ⟨reaches.1, ?_⟩
  intro other member above below headWord
  by_cases cleared : other = object ∧ object.temporary = false
  · -- the search would have come to the object itself
    obtain ⟨rfl, permanent⟩ := cleared
    refine unsearched permanent headWord victim victimLive noHeadBefore
      ⟨below, ?_⟩
    intro between betweenMember betweenAbove betweenBelow
    refine bare between (HeapState.mem_placed.mp betweenMember) ?_
      (above.trans betweenAbove) betweenBelow
    rintro rfl
    exact absurd betweenAbove (lt_irrefl _)
  · refine bare other (HeapState.mem_placed.mp member) ?_ above below headWord
    rintro rfl
    by_contra permanent
    exact cleared ⟨rfl, Bool.eq_false_of_not_eq_true permanent⟩

/-- A release keeps the invariant if it does to memory what a release does, clears
no head word that a search comes to and blames nobody innocent. -/
theorem BlameInvariant.release
    {after : Heap}
    (invariant : BlameInvariant arena state)
    (live : object ∈ state.live)
    (returned : Returned state.heap after object)
    (spent : object.temporary = false → ¬HasHead after.memory object.guard)
    (unsearched : object.temporary = false →
      HasHead state.heap.memory object.guard →
      Unsearched state object.start)
    (stays : object.temporary = true → after.memory = state.heap.memory)
    (blamed : ∀ site ∈ after.blamed,
      ∃ object ∈ state.overrun, object.callstack = site) :
    BlameInvariant arena (state.release after object) := by
  have layout := invariant.layout
  obtain ⟨nextLayout, nextAligned, nextHeads⟩ :=
    invariant.headsInvariant.release live returned spent
  refine ⟨nextLayout, nextAligned, nextHeads, ?_, ?_, blamed⟩
  · intro other otherReleased head noTail
    obtain ⟨otherLive, different⟩ := List.mem_filter.mp otherReleased
    exact invariant.tails_of_span
      (layout.agrees_of_returned returned (Or.inl live) (Or.inl otherLive)
        (of_decide_eq_true different))
      otherLive head noTail
  · intro victim victimStays noHead culprit placed head reaches
    exact invariant.culprits_release live returned spent unsearched stays
      victimStays noHead placed head reaches

/-- A permanent object has no head word after its release. -/
theorem Released.spent
    {before after : Heap}
    (released : Released before after object)
    (permanent : object.temporary = false) :
    ¬HasHead after.memory object.guard := by
  cases released with
  | temporary isTemporary same =>
      rw [isTemporary] at permanent
      cases permanent
  | good notTemporary head tail result =>
      rw [result, Real.free_memory]
      exact not_hasHead_resetHead
  | overflowed notTemporary head tail middle blamed result =>
      rw [result, Real.free_memory]
      exact not_hasHead_resetHead
  | lost notTemporary noHead head found blamed =>
      have sameMemory : after.memory = before.memory := by
        rw [blamed.rest]
      rwa [sameMemory]

/-- The release of a temporary object does nothing. -/
theorem Released.memory_of_temporary
    {before after : Heap}
    (released : Released before after object)
    (temporary : object.temporary = true) :
    after.memory = before.memory := by
  cases released with
  | temporary isTemporary same => rw [same]
  | good notTemporary | overflowed notTemporary | lost notTemporary =>
      rw [temporary] at notTemporary
      cases notTemporary

/-- The pointer in the guard matters for permanent objects only. -/
theorem Released.returned_of_permanent
    {before after : Heap}
    (released : Released before after object)
    (pointer : object.temporary = false →
      HasHead before.memory object.guard → Points before.memory object) :
    Returned before after object := by
  cases temporary : object.temporary with
  | false => exact released.returned (pointer temporary)
  | true =>
      cases released with
      | temporary isTemporary same =>
          subst same
          exact ⟨fun region _ => AgreesOn.refl region _, rfl, rfl,
            fun _ member => member, fun _ member _ => member⟩
      | good notTemporary | overflowed notTemporary | lost notTemporary =>
          rw [temporary] at notTemporary
          cases notTemporary

/-- A free keeps the heads of the other objects. -/
theorem HeadsInvariant.free
    {after : Heap}
    (invariant : HeadsInvariant arena state)
    (live : object ∈ state.live)
    (pointer : object.temporary = false →
      HasHead state.heap.memory object.guard →
      Points state.heap.memory object)
    (released : Released state.heap after object) :
    HeadsInvariant arena (state.release after object) :=
  invariant.release live (released.returned_of_permanent pointer)
    released.spent

/-- A free keeps the invariant. -/
theorem BlameInvariant.free
    {after : Heap}
    (invariant : BlameInvariant arena state)
    (live : object ∈ state.live)
    (traceable : object.temporary = false → Traceable state object)
    (unsearched : object.temporary = false →
      HasHead state.heap.memory object.guard →
      Unsearched state object.start)
    (released : Released state.heap after object) :
    BlameInvariant arena (state.release after object) := by
  have fits := invariant.layout.fits object (Or.inl live)
  have pointer : object.temporary = false →
      HasHead state.heap.memory object.guard →
      Points state.heap.memory object :=
    fun permanent head => ((traceable permanent).holds head).realPtr
  refine invariant.release live (released.returned_of_permanent pointer)
    released.spent unsearched released.memory_of_temporary ?_
  cases released with
  | temporary isTemporary same =>
      subst same
      exact invariant.blamed
  | good notTemporary head tail result =>
      rw [result, Real.free_blamed]
      exact invariant.blamed
  | overflowed notTemporary head tail middle blamed result =>
      have holds := (traceable notTemporary).holds head
      have noTail : ¬HasTail state.heap.memory object.guard object.size := by
        rw [← isGoodTail_iff_hasTail fits holds, tail]
        exact Bool.false_ne_true
      have guilty : state.Guilty
          (getCallstack state.heap.memory object.guard) :=
        ⟨object, invariant.tails object live head noTail,
          holds.callstack.symm⟩
      rw [result, Real.free_blamed]
      exact blamed.all guilty invariant.blamed
  | lost notTemporary noHead head found blamed =>
      have guilty := invariant.guilty_of_findHead live noHead
        (traceable notTemporary) found
      exact blamed.all guilty invariant.blamed

/-- The new object of `malloc` is aligned. -/
theorem Placement.start_aligned
    {sz : Nat}
    {answer : Block}
    {watch : Option Watch}
    {after : Heap}
    (placement : Placement arena state.heap after
      (mallocPlaced arena state sz answer watch)) :
    8 ∣ (mallocPlaced arena state sz answer watch).start := by
  have aligned := placement.fits.aligned
  have divides : 8 ∣ (mallocPlaced arena state sz answer watch).alignment := by
    rw [HeapState.mallocObject_alignment]
    split_ifs <;> decide
  exact divides.trans aligned

/-- A step of malloc and free that keeps traces keeps the invariant. -/
theorem BlameInvariant.step
    {label : HeapAction}
    (invariant : BlameInvariant arena state)
    (plain : MallocAndFree arena state label)
    (keeps : KeepsTraces arena state label)
    (stepped : HeapState.step arena state label = some next) :
    BlameInvariant arena next := by
  have layout := invariant.layout
  cases label with
  | initialise =>
      rw [HeapState.step, Option.some.injEq] at stepped
      subst stepped
      exact ⟨layout.of_stock rfl rfl rfl rfl rfl, invariant.aligned,
        invariant.heads, invariant.tails, invariant.culprits,
        invariant.blamed⟩
  | malloc sz answer watch =>
      obtain ⟨notCut, unsearched⟩ := keeps
      rcases malloc_effect layout notCut stepped with
        rfl | ⟨_, _, after, placement, rfl⟩
      · exact invariant
      · exact invariant.handOut placement unsearched rfl
          placement.start_aligned
  | free ptr =>
      rcases free_effect layout stepped with
        ⟨_, rfl⟩ | ⟨object, live, start, after, released, rfl⟩
      · exact invariant
      · exact invariant.free live
          (fun permanent => (keeps object live start permanent).1)
          (fun permanent => (keeps object live start permanent).2) released
  | write address bytes =>
      rw [HeapState.step, Option.some.injEq] at stepped
      subst stepped
      obtain ⟨nonempty, storesNoHead, allowed⟩ := plain
      exact invariant.write nonempty storesNoHead allowed
  | calloc nelem elsize answer => exact plain.elim
  | memalign alignment size answer watch => exact plain.elim
  | posixMemalign alignment size answer watch => exact plain.elim
  | realloc ptr sz answer watch => exact plain.elim

end

/-- In every run of malloc and free that keeps traces, the check at free blames
only call sites that have had an overrun. -/
theorem blamed_sites_overrun
    {arena : Arena}
    {heap : Heap}
    {labels : List HeapAction}
    {final : HeapState}
    (sound : heap.Sound arena)
    (nobodyBlamed : heap.blamed = [])
    (noHeads : ∀ address, 8 ∣ address →
      readWord heap.memory address ≠ sentinelHeadWord)
    (plain : Machine.Along (HeapState.step arena) (MallocAndFree arena)
      (HeapState.start heap) labels)
    (keeps : Machine.Along (HeapState.step arena) (KeepsTraces arena)
      (HeapState.start heap) labels)
    (executed : Machine.run (HeapState.step arena) (HeapState.start heap)
      labels = some final) :
    ∀ callstack ∈ final.heap.blamed,
      ∃ object ∈ final.overrun, object.callstack = callstack := by
  have initially : BlameInvariant arena (HeapState.start heap) := by
    refine ⟨layout_start sound, ?_, ?_, ?_, ?_, ?_⟩
    · intro object placed
      exact absurd placed (HeapState.not_placed_start object)
    · intro address aligned headWord
      exact absurd headWord (noHeads address aligned)
    · intro object live
      exact absurd (Or.inl live) (HeapState.not_placed_start object)
    · intro object live
      exact absurd (Or.inl live) (HeapState.not_placed_start object)
    · intro callstack member
      change callstack ∈ heap.blamed at member
      rw [nobodyBlamed] at member
      cases member
  have invariant : BlameInvariant arena final :=
    Machine.run_invariant
      (fun _ _ _ invariant condition stepped =>
        BlameInvariant.step invariant condition.1 condition.2 stepped)
      initially (Machine.along_and plain keeps) executed
  exact invariant.blamed

/-- Three objects in a row. -/
def rowOfObjects : List HeapAction :=
  [.malloc 24 (blockAt 16 72) (some ⟨100, false⟩),
    .malloc 24 (blockAt 96 72) (some ⟨200, false⟩),
    .malloc 24 (blockAt 176 72) (some ⟨300, false⟩)]

/-- The second object overruns the third, which is freed first. -/
def blameRun : List HeapAction :=
  rowOfObjects ++
    [.write (2 ^ 32 + 152) (List.replicate 56 0),
      .free (2 ^ 32 + 208),
      .free (2 ^ 32 + 128)]

/-- The same overrun, with the object that made it freed first. -/
def wrongBlameRun : List HeapAction :=
  rowOfObjects ++
    [.write (2 ^ 32 + 152) (List.replicate 56 0),
      .free (2 ^ 32 + 128),
      .free (2 ^ 32 + 208)]

theorem zeroHeap_no_heads (libInitialized : Bool) :
    ∀ address, 8 ∣ address →
      readWord (zeroHeap libInitialized).memory address ≠
        sentinelHeadWord := by
  intro address _
  have zero : readWord (zeroHeap libInitialized).memory address = 0 := by
    simp [readWord, readBytes, zeroHeap]
  rw [zero]
  decide

/-- Only the call site of the second object is blamed. -/
theorem blamed_sites_overrun_blameRun :
    ∃ final,
      Machine.run (HeapState.step sampleArena)
          (HeapState.start (zeroHeap true)) blameRun = some final ∧
        final.heap.blamed = [200, 200] ∧
        ∃ object ∈ final.overrun, object.callstack = 200 := by
  have listed : (Machine.run (HeapState.step sampleArena)
      (HeapState.start (zeroHeap true)) blameRun).map (·.heap.blamed) =
        some [200, 200] := by
    decide +kernel
  have plain : Machine.Along (HeapState.step sampleArena)
      (MallocAndFree sampleArena) (HeapState.start (zeroHeap true))
      blameRun := by
    decide +kernel
  have keeps : Machine.Along (HeapState.step sampleArena)
      (KeepsTraces sampleArena) (HeapState.start (zeroHeap true))
      blameRun := by
    decide +kernel
  obtain ⟨final, executed, blamed⟩ := Option.map_eq_some_iff.mp listed
  exact ⟨final, executed, blamed,
    blamed_sites_overrun (zeroHeap_sound true) rfl (zeroHeap_no_heads true)
      plain keeps executed 200 (by simp [blamed])⟩

/-- When the second object is freed first, the scan from the third one finds
the head word of the first object, which nobody overran. -/
theorem innocent_site_blamed :
    Machine.Along (HeapState.step sampleArena) (MallocAndFree sampleArena)
        (HeapState.start (zeroHeap true)) wrongBlameRun ∧
      ∃ final,
        Machine.run (HeapState.step sampleArena)
            (HeapState.start (zeroHeap true)) wrongBlameRun = some final ∧
          100 ∈ final.heap.blamed ∧
          ∀ object ∈ final.overrun, object.callstack ≠ 100 := by
  have plain : Machine.Along (HeapState.step sampleArena)
      (MallocAndFree sampleArena) (HeapState.start (zeroHeap true))
      wrongBlameRun := by
    decide +kernel
  have listed : (Machine.run (HeapState.step sampleArena)
      (HeapState.start (zeroHeap true)) wrongBlameRun).map (fun final =>
        (final.heap.blamed, final.overrun.map Object.callstack)) =
        some ([200, 100], [200]) := by
    decide +kernel
  obtain ⟨final, executed, facts⟩ := Option.map_eq_some_iff.mp listed
  rw [Prod.mk.injEq] at facts
  refine ⟨plain, final, executed, ?_, ?_⟩
  · rw [facts.1]
    simp
  · intro object member
    have site := List.mem_map_of_mem (f := Object.callstack) member
    rw [facts.2, List.mem_singleton] at site
    rw [site]
    decide

end Causer
