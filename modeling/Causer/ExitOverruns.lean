import Causer.HeadSearch
import Causer.MapsScan

/-!
# What the check at exit finds after a run

In a run of malloc and free the words that look like heads are the heads of
objects, and an object whose head word has survived has lost its tail word only
if something has been written past its end.  So the check at exit, which goes by
the words alone, sets the ratios of call sites of overrun objects only.  It finds
all of them whose blocks lie in data mappings that it reads and whose guards are
intact.
-/

namespace Causer

open ByteMemory ObjectGuard

/-- What holds of heads and tails throughout a run. -/
structure EvidenceInvariant (arena : Arena) (state : HeapState) : Prop
    extends HeadsInvariant arena state where
  tails : ∀ object, state.Placed object →
    HasHead state.heap.memory object.guard →
    ¬HasTail state.heap.memory object.guard object.size →
    object ∈ state.overrun

section

variable {arena : Arena} {state next : HeapState} {object : Object}

/-- A write inside a live object, or away from all blocks, does not reach a tail
word. -/
theorem Layout.tail_apart_of_confined
    {written : Region}
    (layout : Layout arena state)
    (confined : Confined arena state written)
    (placed : state.Placed object) :
    written.Apart (wordAt (object.guard + 32 + object.size)) := by
  have fits := layout.fits object placed
  have guardAdd := fits.guard_add
  have guardInside := fits.guardInside
  have tailInside := fits.tailInside
  have tailWithin :
      (wordAt (object.guard + 32 + object.size)).Within object.block := by
    simp only [Region.Within]
    omega
  rcases confined with ⟨target, live, within⟩ | ⟨blocks, offArena⟩
  · by_cases same : target = object
    · subst same
      simp only [Region.Within, Region.Apart] at within ⊢
      omega
    · have targetFits := layout.fits target (Or.inl live)
      exact (layout.apart target object (Or.inl live) placed same).of_within
        (within.trans targetFits.data_within) tailWithin
  · exact (layout.apart_of_foreign blocks offArena placed).of_within
      ⟨le_rfl, le_rfl⟩ tailWithin

/-- A write from the end of an object that reaches the tail word of a placed one
and leaves its head word starts at the end of that one. -/
theorem Layout.ends_of_tail
    {address : Nat}
    {bytes : List UInt8}
    (layout : Layout arena state)
    (overruns : Overruns state address)
    (placed : state.Placed object)
    (headSpared : ¬(wordAt (object.guard + 24)).Within
      ⟨address, bytes.length⟩)
    (tailReached : ¬Region.Apart ⟨address, bytes.length⟩
      (wordAt (object.guard + 32 + object.size))) :
    object ∈ state.live ∧ object.start + object.size = address := by
  obtain ⟨source, live, ends⟩ := overruns
  by_cases same : source = object
  · subst same
    exact ⟨live, ends⟩
  · -- from below the write would pass over the head word
    have fits := layout.fits object placed
    have guardAdd := fits.guard_add
    have guardInside := fits.guardInside
    have tailInside := fits.tailInside
    have apart := layout.apart source object (Or.inl live) placed same
    have sourceFits := layout.fits source (Or.inl live)
    have sourceGuard := sourceFits.guardInside
    have sourceTail := sourceFits.tailInside
    simp only [Region.Within, Region.Apart] at apart headSpared tailReached
    omega

/-- A write keeps the invariant. -/
theorem EvidenceInvariant.write
    {address : Nat}
    {bytes : List UInt8}
    (invariant : EvidenceInvariant arena state)
    (nonempty : bytes ≠ [])
    (storesNoHead : StoresNoHead state address bytes)
    (allowed : Confined arena state ⟨address, bytes.length⟩ ∨
      Overruns state address) :
    EvidenceInvariant arena (state.write address bytes) := by
  refine ⟨invariant.toHeadsInvariant.write storesNoHead, ?_⟩
  intro object placed head noTail
  have overrun : (state.write address bytes).overrun =
      state.overrun ++
        state.live.filter fun object =>
          object.start + object.size = address := by
    rw [HeapState.write, if_neg nonempty]
  obtain ⟨headBefore, headSpared⟩ :=
    storesNoHead.before (invariant.head_aligned placed) head
  rw [overrun]
  by_cases tailApart : Region.Apart ⟨address, bytes.length⟩
      (wordAt (object.guard + 32 + object.size))
  · apply List.mem_append_left
    apply invariant.tails object placed headBefore
    intro tail
    exact noTail ((readWord_congr (agreesOn_blit _ _ tailApart)).trans tail)
  · apply List.mem_append_right
    have overruns : Overruns state address :=
      allowed.resolve_left fun confined =>
        tailApart (invariant.layout.tail_apart_of_confined confined placed)
    obtain ⟨live, ends⟩ :=
      invariant.layout.ends_of_tail overruns placed headSpared tailApart
    exact List.mem_filter.mpr ⟨live, decide_eq_true ends⟩

/-- A damaged tail word outlives what leaves the object alone. -/
theorem EvidenceInvariant.tails_of_span
    {memory : Memory}
    (invariant : EvidenceInvariant arena state)
    (placed : state.Placed object)
    (agrees : AgreesOn object.span state.heap.memory memory)
    (head : HasHead memory object.guard)
    (noTail : ¬HasTail memory object.guard object.size) :
    object ∈ state.overrun :=
  invariant.tails object placed ((hasHead_iff_of_span agrees).mp head)
    (mt (hasTail_iff_of_span agrees).mpr noTail)

/-- An allocation keeps the invariant. -/
theorem EvidenceInvariant.handOut
    {after : Heap}
    (invariant : EvidenceInvariant arena state)
    (placement : Placement arena state.heap after object)
    (serial : object.serial = state.count)
    (startAligned : 8 ∣ object.start) :
    EvidenceInvariant arena (state.handOut after object) := by
  refine ⟨invariant.toHeadsInvariant.handOut placement serial startAligned,
    ?_⟩
  intro other placed head noTail
  have fits := placement.fits
  have former := (HeapState.placed_handOut fits).mp placed
  rw [HeapState.handOut_of_fits fits] at head noTail ⊢
  rcases former with otherPlaced | rfl
  · exact invariant.tails_of_span otherPlaced
      (invariant.layout.agrees_of_allocated placement.toAllocated otherPlaced)
      head noTail
  · exact absurd placement.guarded.tail noTail

/-- A free keeps the invariant. -/
theorem EvidenceInvariant.free
    {after : Heap}
    (invariant : EvidenceInvariant arena state)
    (live : object ∈ state.live)
    (pointer : object.temporary = false →
      HasHead state.heap.memory object.guard →
      Points state.heap.memory object)
    (released : Released state.heap after object) :
    EvidenceInvariant arena (state.release after object) := by
  refine ⟨invariant.toHeadsInvariant.free live pointer released, ?_⟩
  intro other placed head noTail
  obtain ⟨otherPlaced, permanent⟩ := HeapState.placed_release live placed
  by_cases same : other = object
  · subst same
    have temporary : other.temporary = true :=
      Bool.eq_true_of_not_eq_false fun notTemporary =>
        permanent notTemporary rfl
    cases released with
    | temporary isTemporary sameHeap =>
        subst sameHeap
        exact invariant.tails other otherPlaced head noTail
    | good notTemporary | overflowed notTemporary | lost notTemporary =>
        rw [temporary] at notTemporary
        cases notTemporary
  · exact invariant.tails_of_span otherPlaced
      (invariant.layout.agrees_of_returned
        (released.returned_of_permanent pointer) (Or.inl live) otherPlaced
        same)
      head noTail

/-- A step of malloc and free keeps the invariant. -/
theorem EvidenceInvariant.step
    {label : HeapAction}
    (invariant : EvidenceInvariant arena state)
    (plain : MallocAndFree arena state label)
    (pointed : FreesPointed state label)
    (stepped : HeapState.step arena state label = some next) :
    EvidenceInvariant arena next := by
  have layout := invariant.layout
  cases label with
  | initialise =>
      cases stepped
      exact ⟨⟨layout.of_stock rfl rfl rfl rfl rfl, invariant.aligned,
        invariant.heads⟩, invariant.tails⟩
  | malloc sz answer watch =>
      rcases malloc_effect layout pointed stepped with
        rfl | ⟨_, _, after, placement, rfl⟩
      · exact invariant
      · exact invariant.handOut placement rfl placement.start_aligned
  | free ptr =>
      rcases free_effect layout stepped with
        ⟨_, rfl⟩ | ⟨object, live, start, after, released, rfl⟩
      · exact invariant
      · exact invariant.free live (pointed object live start) released
  | write address bytes =>
      cases stepped
      obtain ⟨nonempty, storesNoHead, allowed⟩ := plain
      exact invariant.write nonempty storesNoHead allowed
  | calloc nelem elsize answer => exact plain.elim
  | memalign alignment size answer watch => exact plain.elim
  | posixMemalign alignment size answer watch => exact plain.elim
  | realloc ptr sz answer watch => exact plain.elim

end

/-- The invariant holds wherever a run leads. -/
theorem evidence_of_run
    {arena : Arena}
    {heap : Heap}
    {labels : List HeapAction}
    {final : HeapState}
    (sound : heap.Sound arena)
    (noHeads : ∀ address, 8 ∣ address →
      readWord heap.memory address ≠ sentinelHeadWord)
    (plain : Machine.Along (HeapState.step arena) (MallocAndFree arena)
      (HeapState.start heap) labels)
    (pointed : Machine.Along (HeapState.step arena) FreesPointed
      (HeapState.start heap) labels)
    (executed : Machine.run (HeapState.step arena) (HeapState.start heap)
      labels = some final) :
    EvidenceInvariant arena final :=
  Machine.run_invariant
    (fun _ _ _ invariant condition stepped =>
      EvidenceInvariant.step invariant condition.1 condition.2 stepped)
    ⟨headsInvariant_start sound noHeads, fun object placed =>
      absurd placed (HeapState.not_placed_start object)⟩
    (Machine.along_and plain pointed) executed

namespace HeapState

variable (state : HeapState)

/-- The guards with an intact head word. -/
def survivors : List Nat :=
  (state.placed.filter fun object =>
    decide (HasHead state.heap.memory object.guard)).map Object.guard

variable {state}

theorem mem_survivors
    {guard : Nat} :
    guard ∈ state.survivors ↔
      ∃ object, state.Placed object ∧
        HasHead state.heap.memory object.guard ∧ object.guard = guard := by
  simp only [survivors, List.mem_map, List.mem_filter, mem_placed,
    decide_eq_true_eq, and_assoc]

end HeapState

/-- The heap when the check begins: blocks do not straddle the mappings that are
scanned, guards with an intact head word are intact altogether, and the ratios of
the call sites of overrun objects lie in no block. -/
structure ReadyForCheck (state : HeapState) (maps : List ReadMapping) :
    Prop where
  whole : ∀ m ∈ maps, m.isScanned = true →
    8 ∣ m.base.toNat ∧ m.limit.toNat + 8 ≤ 2 ^ 64
  blocks : ∀ m ∈ maps, m.isScanned = true →
    ∀ object, state.Placed object →
      object.block.Within m.region ∨ object.block.Apart m.region
  intact : ∀ object, state.Placed object →
    HasHead state.heap.memory object.guard →
    Holds state.heap.memory object.guard object.base object.size
      object.callstack
  sites : ∀ object ∈ state.overrun, object.callstack ≠ 0 →
    8 ∣ object.callstack ∧
      ∀ other, state.Placed other →
        (ratioOf object.callstack).Apart other.block

/-- The object lies in a data mapping whose line is read, and its words give it
away. -/
structure Evident (state : HeapState) (lines : List MapsLine)
    (object : Object) : Prop where
  placed : state.Placed object
  seen : ∃ line ∈ readLines lines, line.mapping.isScanned = true ∧
    object.block.Within line.mapping.region
  head : HasHead state.heap.memory object.guard
  noTail : ¬HasTail state.heap.memory object.guard object.size

section

variable {arena : Arena} {state : HeapState} {maps : List ReadMapping}
  {lines : List MapsLine} {object : Object} {m : ReadMapping}

/-- The span that a guard describes is that of its object. -/
theorem ReadyForCheck.guardedSpan_eq
    (ready : ReadyForCheck state maps)
    (placed : state.Placed object)
    (head : HasHead state.heap.memory object.guard) :
    guardedSpan state.heap.memory object.guard = object.span := by
  rw [guardedSpan, (ready.intact object placed head).objectSize,
    Nat.add_comm]

namespace EvidenceInvariant

variable (invariant : EvidenceInvariant arena state)
  (ready : ReadyForCheck state maps)

include invariant ready

/-- It lies in a mapping exactly if the block does. -/
theorem span_within_iff
    (member : m ∈ maps)
    (scanned : m.isScanned = true)
    (placed : state.Placed object)
    (head : HasHead state.heap.memory object.guard) :
    (guardedSpan state.heap.memory object.guard).Within m.region ↔
      object.block.Within m.region := by
  have fits := invariant.layout.fits object placed
  rw [ready.guardedSpan_eq placed head]
  constructor
  · intro within
    refine (ready.blocks m member scanned object placed).resolve_right
      fun apart => ?_
    have inside := fits.span_within
    simp only [Region.Within, Region.Apart] at within apart inside
    omega
  · exact fits.span_within.trans

/-- The objects whose heads have survived lie in the mappings. -/
theorem strewn
    (member : m ∈ maps)
    (scanned : m.isScanned = true) :
    Strewn state.heap.memory m.base.toNat m.limit.toNat
      (guardsIn state.heap.memory state.survivors m) where
  inside := fun guard within => (mem_guardsIn.mp within).2
  aligned := by
    intro guard within
    obtain ⟨object, placed, _, rfl⟩ :=
      HeapState.mem_survivors.mp (mem_guardsIn.mp within).1
    have aligned := invariant.head_aligned placed
    omega
  apart := by
    intro first firstWithin second secondWithin different
    obtain ⟨one, onePlaced, oneHead, rfl⟩ :=
      HeapState.mem_survivors.mp (mem_guardsIn.mp firstWithin).1
    obtain ⟨two, twoPlaced, twoHead, rfl⟩ :=
      HeapState.mem_survivors.mp (mem_guardsIn.mp secondWithin).1
    rw [ready.guardedSpan_eq onePlaced oneHead,
      ready.guardedSpan_eq twoPlaced twoHead]
    have apart := invariant.layout.apart one two onePlaced twoPlaced
      fun same => different (congrArg Object.guard same)
    exact apart.of_within (invariant.layout.fits one onePlaced).span_within
      (invariant.layout.fits two twoPlaced).span_within
  heads := by
    intro it above below aligned head
    obtain ⟨object, placed, rfl⟩ := invariant.heads it aligned head
    refine ⟨object.guard, mem_guardsIn.mpr
      ⟨HeapState.mem_survivors.mpr ⟨object, placed, head, rfl⟩, ?_⟩, rfl⟩
    apply (invariant.span_within_iff ready member scanned placed head).mpr
    -- the head word lies in the block and in the mapping
    refine (ready.blocks m member scanned object placed).resolve_right
      fun apart => ?_
    have fits := invariant.layout.fits object placed
    have inside := fits.span_within
    have guardAdd := fits.guard_add
    simp only [Region.Within, Region.Apart, ReadMapping.region] at apart inside
    omega

/-- The words of the heap are such as the check can be trusted with. -/
theorem furnished :
    Furnished state.heap.memory maps state.survivors where
  whole := ready.whole
  strewn := fun m member scanned => invariant.strewn ready member scanned
  sites := by
    intro guard member damaged recorded
    obtain ⟨object, placed, head, rfl⟩ := HeapState.mem_survivors.mp member
    have holds := ready.intact object placed head
    have noTail := damaged.tail
    rw [holds.objectSize] at noTail
    rw [holds.callstack] at recorded ⊢
    obtain ⟨aligned, apart⟩ := ready.sites object
      (invariant.tails object placed head noTail) recorded
    refine ⟨aligned, fun guard otherMember => ?_⟩
    obtain ⟨other, otherPlaced, otherHead, rfl⟩ :=
      HeapState.mem_survivors.mp otherMember
    have otherFits := invariant.layout.fits other otherPlaced
    have guardAdd := otherFits.guard_add
    have inside := otherFits.span_within
    have otherApart := apart other otherPlaced
    rw [(ready.intact other otherPlaced otherHead).objectSize]
    simp only [Region.Within, Region.Apart] at inside otherApart ⊢
    omega

end EvidenceInvariant

/-- The exposed guards are those of the objects that are evident. -/
theorem EvidenceInvariant.exposed_iff
    (invariant : EvidenceInvariant arena state)
    (ready : ReadyForCheck state
      ((readLines lines).map MapsLine.mapping))
    {guard : Nat} :
    Exposed state.heap.memory state.survivors lines guard ↔
      ∃ object, Evident state lines object ∧ object.guard = guard := by
  constructor
  · rintro ⟨listed, ⟨line, isRead, scanned, inside⟩, damaged⟩
    obtain ⟨object, placed, head, rfl⟩ := HeapState.mem_survivors.mp listed
    have noTail := damaged.tail
    rw [(ready.intact object placed head).objectSize] at noTail
    exact ⟨object, ⟨placed, ⟨line, isRead, scanned,
      (invariant.span_within_iff ready (List.mem_map_of_mem isRead) scanned
        placed head).mp inside⟩, head, noTail⟩, rfl⟩
  · rintro ⟨object, ⟨placed, ⟨line, isRead, scanned, inside⟩, head, noTail⟩,
      rfl⟩
    refine ⟨HeapState.mem_survivors.mpr ⟨object, placed, head, rfl⟩,
      ⟨line, isRead, scanned, (invariant.span_within_iff ready
        (List.mem_map_of_mem isRead) scanned placed head).mpr inside⟩,
      head, ?_⟩
    rw [(ready.intact object placed head).objectSize]
    exact noTail

end

/-- What the check at exit comes to: it has crashed exactly if the call site of
an evident object is `NULL`.  All its marks are on account of overruns.  If it
has not crashed, the ratios of the call sites of evident objects are set, and no
others. -/
structure ExitFindings (state : HeapState) (lines : List MapsLine)
    (stopped : CheckState) : Prop where
  crashed_iff : stopped.place = .crashed ↔
    ∃ object, Evident state lines object ∧ object.callstack = 0
  marks : ∀ mark ∈ stopped.marks, ∃ object ∈ state.overrun,
    Evident state lines object ∧
      mark = ⟨object.guard + 24, object.callstack⟩
  ratios : stopped.place ≠ .crashed → ∀ object, Evident state lines object →
    watchedRatioAt stopped.memory object.callstack =
      maxWatchRatioUpperbound.toNat
  others : stopped.place ≠ .crashed → ∀ callstack, 8 ∣ callstack →
    (∀ object ∈ state.overrun, Evident state lines object →
      object.callstack ≠ callstack) →
    watchedRatioAt stopped.memory callstack =
      watchedRatioAt state.heap.memory callstack

/-- What the check comes to in terms of words is this in terms of objects. -/
theorem EvidenceInvariant.findings
    {arena : Arena}
    {state : HeapState}
    {lines : List MapsLine}
    {stopped : CheckState}
    (invariant : EvidenceInvariant arena state)
    (ready : ReadyForCheck state
      ((readLines lines).map MapsLine.mapping))
    (checked : CheckedAll state.heap.memory state.survivors lines stopped) :
    ExitFindings state lines stopped := by
  have exposed : ∀ {guard},
      Exposed state.heap.memory state.survivors lines guard ↔
        ∃ object, Evident state lines object ∧ object.guard = guard :=
    invariant.exposed_iff ready
  have site : ∀ object, Evident state lines object →
      getCallstack state.heap.memory object.guard = object.callstack :=
    fun object evident =>
      (ready.intact object evident.placed evident.head).callstack
  have overrun : ∀ object, Evident state lines object →
      object ∈ state.overrun :=
    fun object evident =>
      invariant.tails object evident.placed evident.head evident.noTail
  have ended : stopped.place ≠ .crashed → stopped.place = .ended :=
    fun running => checked.stopped.resolve_right running
  constructor
  · rw [checked.crashed_iff]
    constructor
    · rintro ⟨guard, isExposed, null⟩
      obtain ⟨object, evident, rfl⟩ := exposed.mp isExposed
      exact ⟨object, evident, (site object evident).symm.trans null⟩
    · rintro ⟨object, evident, null⟩
      exact ⟨object.guard, exposed.mpr ⟨object, evident, rfl⟩,
        (site object evident).trans null⟩
  · intro mark member
    obtain ⟨guard, isExposed, rfl⟩ := checked.real mark member
    obtain ⟨object, evident, rfl⟩ := exposed.mp isExposed
    exact ⟨object, overrun object evident, evident,
      by rw [site object evident]⟩
  · intro running object evident
    have ratio := checked.ratios (ended running) object.guard
      (exposed.mpr ⟨object, evident, rfl⟩)
    rwa [site object evident] at ratio
  · intro running callstack aligned spared
    apply checked.others (ended running) callstack aligned
    intro guard isExposed
    obtain ⟨object, evident, rfl⟩ := exposed.mp isExposed
    rw [site object evident]
    exact spared object (overrun object evident) evident

/-- After a run of malloc and free in which nobody stores a head word, the check
at exit stops.  It sets the ratios of the call sites of those overrun objects
whose heads have survived and whose mappings it reads, and of no others, unless
one of these objects has no call site, at which it crashes. -/
theorem exit_check_after_run
    {arena : Arena}
    {heap : Heap}
    {labels : List HeapAction}
    {final : HeapState}
    {lines : List MapsLine}
    (sound : heap.Sound arena)
    (noHeads : ∀ address, 8 ∣ address →
      readWord heap.memory address ≠ sentinelHeadWord)
    (plain : Machine.Along (HeapState.step arena) (MallocAndFree arena)
      (HeapState.start heap) labels)
    (pointed : Machine.Along (HeapState.step arena) FreesPointed
      (HeapState.start heap) labels)
    (executed : Machine.run (HeapState.step arena) (HeapState.start heap)
      labels = some final)
    (ready : ReadyForCheck final ((readLines lines).map MapsLine.mapping))
    (locals : MappingLocals) (m : ReadMapping) :
    ∃ stopped,
      Iteration.Comes (CheckState.step locals)
          (CheckState.start lines m final.heap.memory) stopped ∧
        CheckState.step locals stopped = none ∧
        ExitFindings final lines stopped := by
  have invariant := evidence_of_run sound noHeads plain pointed executed
  have furnished := invariant.furnished ready
  have outcome : CheckOutcome locals _ _ :=
    furnished.start_comes_out m
  obtain ⟨stopped, comes, stuck, checked⟩ :=
    furnished.checked outcome rfl rfl
  exact ⟨stopped, comes, stuck, invariant.findings ready checked⟩

/-- Two objects, and a write past the end of the first one. -/
def exitRun : List HeapAction :=
  [.malloc 24 (blockAt 16 72) (some ⟨2 ^ 33, false⟩),
    .malloc 24 (blockAt 96 72) (some ⟨2 ^ 33 + 64, false⟩),
    .write (2 ^ 32 + 72) (List.replicate 8 0)]

/-- The first object. -/
def exitObject : Object :=
  ⟨0, 2 ^ 32 + 48, 24, 2 ^ 32 + 16, 72, 16, 2 ^ 33, false⟩

/-- The second object. -/
def spareObject : Object :=
  ⟨1, 2 ^ 32 + 128, 24, 2 ^ 32 + 96, 72, 16, 2 ^ 33 + 64, false⟩

/-- The mapping that the blocks lie in. -/
def heapLines : List MapsLine := [dataLine (2 ^ 32) (2 ^ 32 + 4096)]

theorem readyForCheck_exitRun
    {final : HeapState}
    (placed : final.placed = [exitObject, spareObject])
    (overrun : final.overrun = [exitObject])
    (intact : ∀ object ∈ final.placed,
      Holds final.heap.memory object.guard object.base object.size
        object.callstack) :
    ReadyForCheck final ((readLines heapLines).map MapsLine.mapping) := by
  have onlyLine : (readLines heapLines).map MapsLine.mapping =
      [(dataLine (2 ^ 32) (2 ^ 32 + 4096)).mapping] :=
    rfl
  have among : ∀ {object}, final.Placed object →
      object ∈ [exitObject, spareObject] :=
    fun isPlaced => placed ▸ HeapState.mem_placed.mpr isPlaced
  rw [onlyLine]
  constructor
  · rw [List.forall_mem_singleton]
    decide
  · rw [List.forall_mem_singleton]
    have inside : ∀ object ∈ [exitObject, spareObject],
        object.block.Within
          (dataLine (2 ^ 32) (2 ^ 32 + 4096)).mapping.region := by
      decide
    exact fun _ object isPlaced => Or.inl (inside object (among isPlaced))
  · exact fun object isPlaced _ =>
      intact object (HeapState.mem_placed.mpr isPlaced)
  · rw [overrun, List.forall_mem_singleton]
    have apart : ∀ other ∈ [exitObject, spareObject],
        (ratioOf exitObject.callstack).Apart other.block := by
      decide
    exact fun _ => ⟨by decide, fun other isPlaced =>
      apart other (among isPlaced)⟩

/-- The ratio of the first object's call site is set. -/
theorem exit_check_after_run_exitRun :
    ∃ final,
      Machine.run (HeapState.step sampleArena)
          (HeapState.start (zeroHeap true)) exitRun = some final ∧
        ∃ stopped,
          Iteration.Comes (CheckState.step zeroLocals)
              (CheckState.start heapLines invalidMapping final.heap.memory)
              stopped ∧
            stopped.place ≠ .crashed ∧
            watchedRatioAt stopped.memory (2 ^ 33) = 10000 := by
  have facts : (Machine.run (HeapState.step sampleArena)
      (HeapState.start (zeroHeap true)) exitRun).map (fun final =>
        (final.placed, final.overrun,
          decide ((∀ object ∈ final.placed,
            Holds final.heap.memory object.guard object.base object.size
              object.callstack) ∧
            HasHead final.heap.memory exitObject.guard ∧
            ¬HasTail final.heap.memory exitObject.guard
              exitObject.size))) =
      some ([exitObject, spareObject], [exitObject], true) := by
    decide +kernel
  obtain ⟨final, executed, facts⟩ := Option.map_eq_some_iff.mp facts
  simp only [Prod.mk.injEq, decide_eq_true_eq] at facts
  obtain ⟨placed, overrun, intact, head, noTail⟩ := facts
  have ready := readyForCheck_exitRun placed overrun intact
  obtain ⟨stopped, comes, -, found⟩ :=
    exit_check_after_run (zeroHeap_sound true) (zeroHeap_no_heads true)
      (by decide +kernel) (by decide +kernel) executed ready zeroLocals
      invalidMapping
  have isPlaced : final.Placed exitObject := by
    rw [← HeapState.mem_placed, placed]
    exact List.mem_cons_self
  have evident : Evident final heapLines exitObject :=
    ⟨isPlaced, ⟨_, List.mem_singleton_self _, by decide, by decide⟩, head,
      noTail⟩
  have recorded : stopped.place ≠ .crashed := by
    intro crashed
    obtain ⟨object, isEvident, null⟩ := found.crashed_iff.mp crashed
    have member := HeapState.mem_placed.mpr isEvident.placed
    rw [placed] at member
    revert null
    have sites : ∀ object ∈ [exitObject, spareObject],
        object.callstack ≠ 0 := by
      decide
    exact sites object member
  exact ⟨final, executed, stopped, comes, recorded,
    found.ratios recorded exitObject evident⟩

end Causer
