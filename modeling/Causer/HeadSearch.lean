import Causer.BlameTracing

/-!
# Where the search for a head ends

When the head word of an object is gone at its release, the check goes down in
memory word by word, with no lower bound, until it meets a head word.  A release
takes the head word of its own object away.  So the search stays in the memory
that the underlying allocator has handed out exactly as long as some guard
between its lowest block and the object still has its head word.
-/

namespace Causer

open ByteMemory ObjectGuard

/-- The addresses of the words that the search reads. -/
def findHeadReads (memory : Memory) : Nat → Nat → List Nat
  | 0, _ => []
  | fuel + 1, prev =>
      prev ::
        if readWord memory prev = sentinelHeadWord then []
        else if prev < 8 then []
        else findHeadReads memory fuel (prev - 8)

/-- The address is not below all blocks that the underlying allocator has ever
returned: those that are still allocated, and those of released objects. -/
def AboveLowest (state : HeapState) (address : Nat) : Prop :=
  (∃ block ∈ state.heap.blocks, block.base ≤ address) ∨
    ∃ object ∈ state.retired,
      object.temporary = false ∧ object.base ≤ address

instance (state : HeapState) (address : Nat) :
    Decidable (AboveLowest state address) :=
  inferInstanceAs (Decidable (_ ∨ _))

theorem AboveLowest.mono
    {state : HeapState}
    {lower higher : Nat}
    (above : AboveLowest state lower)
    (le : lower ≤ higher) :
    AboveLowest state higher := by
  rcases above with ⟨block, member, base⟩ | ⟨object, retired, permanent, base⟩
  · exact Or.inl ⟨block, member, base.trans le⟩
  · exact Or.inr ⟨object, retired, permanent, base.trans le⟩

/-- The search from the guard of an object ends at the head word of another
guard, before it reads below the lowest block. -/
structure SearchContained (state : HeapState) (object : Object) : Prop where
  ends : ∃ head,
    findHead state.heap.memory (object.guard / 8 + 1) object.guard =
        some head ∧
      ∃ other, state.Placed other ∧ other ≠ object ∧ head = other.guard + 24
  reads : ∀ address ∈
      findHeadReads state.heap.memory (object.guard / 8 + 1) object.guard,
    AboveLowest state address

/-- Another guard below the object, but not below the lowest block, still has
its head word. -/
def SurvivorBelow (state : HeapState) (object : Object) : Prop :=
  ∃ other ∈ state.placed, HasHead state.heap.memory other.guard ∧
    other.start < object.start ∧ AboveLowest state (other.guard + 24)

instance (state : HeapState) (object : Object) :
    Decidable (SurvivorBelow state object) :=
  inferInstanceAs (Decidable (∃ other ∈ state.placed, _))

/-- A condition on the permanent objects that are freed without their head
word. -/
def AtLostHeads (condition : HeapState → Object → Prop)
    (state : HeapState) : HeapAction → Prop
  | .free ptr =>
      ∀ object ∈ state.live, object.start = ptr →
        object.temporary = false →
        ¬HasHead state.heap.memory object.guard → condition state object
  | _ => True

instance (condition : HeapState → Object → Prop)
    [∀ state object, Decidable (condition state object)]
    (state : HeapState) :
    ∀ label, Decidable (AtLostHeads condition state label)
  | .initialise
  | .malloc _ _ _
  | .calloc _ _ _
  | .memalign _ _ _ _
  | .posixMemalign _ _ _ _
  | .free _
  | .realloc _ _ _ _
  | .write _ _ => by
      unfold AtLostHeads
      infer_instance

/-- Calls of malloc and free, and writes anywhere that store no head word. -/
def NoHeadStored (state : HeapState) : HeapAction → Prop
  | .initialise => True
  | .malloc _ _ _ => True
  | .free _ => True
  | .write address bytes => StoresNoHead state address bytes
  | _ => False

instance (state : HeapState) :
    ∀ label, Decidable (NoHeadStored state label)
  | .initialise
  | .malloc _ _ _
  | .calloc _ _ _
  | .memalign _ _ _ _
  | .posixMemalign _ _ _ _
  | .free _
  | .realloc _ _ _ _
  | .write _ _ => by
      unfold NoHeadStored
      infer_instance

/-- Requests are not cut, and a permanent object that is freed with its head
word points to its block. -/
def FreesPointed (state : HeapState) : HeapAction → Prop
  | .malloc sz _ _ => NotCut state.heap sz
  | .free ptr =>
      ∀ object ∈ state.live, object.start = ptr →
        object.temporary = false →
        HasHead state.heap.memory object.guard →
        Points state.heap.memory object
  | _ => True

instance (state : HeapState) :
    ∀ label, Decidable (FreesPointed state label)
  | .initialise
  | .malloc _ _ _
  | .calloc _ _ _
  | .memalign _ _ _ _
  | .posixMemalign _ _ _ _
  | .free _
  | .realloc _ _ _ _
  | .write _ _ => by
      unfold FreesPointed
      infer_instance

section

variable {memory : Memory} {fuel prev head target : Nat}

/-- The search reads down to the head that it finds. -/
theorem mem_findHeadReads
    (found : findHead memory fuel prev = some head) :
    head ∈ findHeadReads memory fuel prev ∧
      ∀ address ∈ findHeadReads memory fuel prev, head ≤ address := by
  induction fuel generalizing prev with
  | zero => cases found
  | succ fuel inductionHypothesis =>
      unfold findHead at found
      unfold findHeadReads
      split_ifs at found ⊢ with here bottom
      · obtain rfl := Option.some.inj found
        exact ⟨List.mem_cons_self, by simp⟩
      · obtain ⟨member, above⟩ := inductionHypothesis found
        refine ⟨List.mem_cons_of_mem _ member, fun address isRead => ?_⟩
        rcases List.mem_cons.mp isRead with rfl | later
        · exact (findHead_eq_some found).2.1.trans (Nat.sub_le ..)
        · exact above address later

/-- The search does not go past a head word. -/
theorem exists_findHead
    (enough : prev / 8 < fuel)
    (headWord : readWord memory target = sentinelHeadWord)
    (below : target ≤ prev)
    (multiple : 8 ∣ prev - target) :
    ∃ head, findHead memory fuel prev = some head ∧ target ≤ head := by
  induction fuel generalizing prev with
  | zero => exact absurd enough (Nat.not_lt_zero _)
  | succ fuel inductionHypothesis =>
      unfold findHead
      by_cases here : readWord memory prev = sentinelHeadWord
      · rw [if_pos here]
        exact ⟨prev, rfl, below⟩
      · have different : prev ≠ target := by
          rintro rfl
          exact here headWord
        rw [if_neg here, if_neg (by omega)]
        exact inductionHypothesis (by omega) (by omega) (by omega)

end

section

variable {arena : Arena} {state next : HeapState} {object : Object}

/-- The guard of a lower object ends below the guard of a higher one. -/
theorem HeadsInvariant.head_below
    (invariant : HeadsInvariant arena state)
    {other : Object}
    (otherPlaced : state.Placed other)
    (live : object ∈ state.live)
    (below : other.start < object.start) :
    other.guard + 24 ≤ object.guard ∧
      8 ∣ object.guard - (other.guard + 24) := by
  have layout := invariant.layout
  have fits := layout.fits object (Or.inl live)
  have otherFits := layout.fits other otherPlaced
  have aligned := invariant.aligned object (Or.inl live)
  have otherAligned := invariant.aligned other otherPlaced
  have := fits.guard_add
  have := fits.guardInside
  have := fits.tailInside
  have := otherFits.guard_add
  have := otherFits.guardInside
  have := otherFits.tailInside
  have different : other ≠ object := by
    rintro rfl
    omega
  have apart := layout.apart other object otherPlaced (Or.inl live) different
  simp only [Region.Apart] at apart
  omega

/-- The search from a guard is contained exactly if there is a survivor
below. -/
theorem HeadsInvariant.searchContained_iff
    (invariant : HeadsInvariant arena state)
    (live : object ∈ state.live) :
    SearchContained state object ↔ SurvivorBelow state object := by
  have layout := invariant.layout
  have guardAdd := (layout.fits object (Or.inl live)).guard_add
  constructor
  · rintro ⟨⟨head, found, other, placed, different, rfl⟩, reads⟩
    have otherAdd := (layout.fits other placed).guard_add
    obtain ⟨headWord, below, -, -⟩ := findHead_eq_some found
    exact ⟨other, HeapState.mem_placed.mpr placed, headWord, by omega,
      reads _ (mem_findHeadReads found).1⟩
  · rintro ⟨other, member, headWord, below, aboveLowest⟩
    obtain ⟨guardBelow, multiple⟩ := invariant.head_below
      (HeapState.mem_placed.mp member) live below
    obtain ⟨head, found, above⟩ := exists_findHead
      (Nat.lt_succ_self (object.guard / 8)) headWord guardBelow multiple
    obtain ⟨foundWord, foundBelow, foundMultiple, -⟩ :=
      findHead_eq_some found
    have aligned := invariant.aligned object (Or.inl live)
    constructor
    · obtain ⟨nearest, placed, rfl⟩ :=
        invariant.heads head (by omega) foundWord
      refine ⟨_, found, nearest, placed, ?_, rfl⟩
      rintro rfl
      omega
    · intro address isRead
      exact aboveLowest.mono
        (above.trans ((mem_findHeadReads found).2 address isRead))

/-- A step of malloc and free keeps the heads where they are. -/
theorem HeadsInvariant.step
    {label : HeapAction}
    (invariant : HeadsInvariant arena state)
    (plain : NoHeadStored state label)
    (pointed : FreesPointed state label)
    (stepped : HeapState.step arena state label = some next) :
    HeadsInvariant arena next := by
  have layout := invariant.layout
  cases label with
  | initialise =>
      cases stepped
      exact ⟨layout.of_stock rfl rfl rfl rfl rfl, invariant.aligned,
        invariant.heads⟩
  | malloc sz answer watch =>
      rcases malloc_effect layout pointed stepped with
        rfl | ⟨_, _, after, placement, rfl⟩
      · exact invariant
      · exact invariant.handOut placement rfl placement.start_aligned
  | free ptr =>
      rcases free_effect layout stepped with
        ⟨_, rfl⟩ | ⟨object, live, start, after, released, rfl⟩
      · exact invariant
      · exact invariant.free live (pointed object live start) released
  | write address bytes =>
      cases stepped
      exact invariant.write plain
  | calloc nelem elsize answer => exact plain.elim
  | memalign alignment size answer watch => exact plain.elim
  | posixMemalign alignment size answer watch => exact plain.elim
  | realloc ptr sz answer watch => exact plain.elim

/-- Objects freed without their head words are searched for within bounds
exactly if each has a survivor below it. -/
theorem HeadsInvariant.atLostHeads_iff
    (invariant : HeadsInvariant arena state)
    (label : HeapAction) :
    AtLostHeads SearchContained state label ↔
      AtLostHeads SurvivorBelow state label := by
  cases label with
  | free ptr =>
      constructor
      · intro contained object live start permanent lost
        exact (invariant.searchContained_iff live).mp
          (contained object live start permanent lost)
      · intro survivors object live start permanent lost
        exact (invariant.searchContained_iff live).mpr
          (survivors object live start permanent lost)
  | initialise => exact Iff.rfl
  | malloc sz answer watch => exact Iff.rfl
  | calloc nelem elsize answer => exact Iff.rfl
  | memalign alignment size answer watch => exact Iff.rfl
  | posixMemalign alignment size answer watch => exact Iff.rfl
  | realloc ptr sz answer watch => exact Iff.rfl
  | write address bytes => exact Iff.rfl

end

theorem headsInvariant_start
    {arena : Arena}
    {heap : Heap}
    (sound : heap.Sound arena)
    (noHeads : ∀ address, 8 ∣ address →
      readWord heap.memory address ≠ sentinelHeadWord) :
    HeadsInvariant arena (HeapState.start heap) := by
  refine ⟨layout_start sound, ?_, ?_⟩
  · intro object placed
    exact absurd placed (HeapState.not_placed_start object)
  · intro address aligned headWord
    exact absurd headWord (noHeads address aligned)

/-- In a run of malloc and free that stores no head word, every search for a
lost head is contained exactly if at every release without a head word another
guard below the object still has its own. -/
theorem searches_contained_iff
    {arena : Arena}
    {heap : Heap}
    {labels : List HeapAction}
    (sound : heap.Sound arena)
    (noHeads : ∀ address, 8 ∣ address →
      readWord heap.memory address ≠ sentinelHeadWord)
    (plain : Machine.Along (HeapState.step arena) NoHeadStored
      (HeapState.start heap) labels)
    (pointed : Machine.Along (HeapState.step arena) FreesPointed
      (HeapState.start heap) labels) :
    Machine.Along (HeapState.step arena) (AtLostHeads SearchContained)
        (HeapState.start heap) labels ↔
      Machine.Along (HeapState.step arena) (AtLostHeads SurvivorBelow)
        (HeapState.start heap) labels := by
  have initially := headsInvariant_start sound noHeads
  have regular := Machine.along_and plain pointed
  constructor
  · intro contained
    exact Machine.along_of_invariant
      (fun _ _ _ invariant condition stepped =>
        HeadsInvariant.step invariant condition.1.1 condition.1.2 stepped)
      (fun _ label invariant condition =>
        (invariant.atLostHeads_iff label).mp condition.2)
      initially (Machine.along_and regular contained)
  · intro survivors
    exact Machine.along_of_invariant
      (fun _ _ _ invariant condition stepped =>
        HeadsInvariant.step invariant condition.1.1 condition.1.2 stepped)
      (fun _ label invariant condition =>
        (invariant.atLostHeads_iff label).mpr condition.2)
      initially (Machine.along_and regular survivors)

/-- Two objects in a row, of which the second one is overrun from the first one
and freed before it. -/
def survivedRun : List HeapAction :=
  [.malloc 24 (blockAt 16 72) none, .malloc 24 (blockAt 96 72) none,
    .write (2 ^ 32 + 72) (List.replicate 56 0), .free (2 ^ 32 + 128),
    .free (2 ^ 32 + 48)]

/-- The search finds the head of the first object. -/
theorem searches_contained_iff_survivedRun :
    Machine.Along (HeapState.step sampleArena) (AtLostHeads SearchContained)
      (HeapState.start (zeroHeap true)) survivedRun :=
  (searches_contained_iff (zeroHeap_sound true) (zeroHeap_no_heads true)
    (by decide +kernel) (by decide +kernel)).mpr (by decide +kernel)

/-- The two objects, with the lower one freed first. -/
def unsurvivedRun : List HeapAction :=
  [.malloc 24 (blockAt 16 72) none, .malloc 24 (blockAt 96 72) none,
    .write (2 ^ 32 + 72) (List.replicate 56 0), .free (2 ^ 32 + 48)]

/-- The second object. -/
def lostObject : Object :=
  ⟨1, 2 ^ 32 + 128, 24, 2 ^ 32 + 96, 72, 16, 0, false⟩

/-- Once the first object has been freed, no guard is left with a head word, and
the search from the second object leaves the heap. -/
theorem search_leaves_heap :
    (Machine.Along (HeapState.step sampleArena) NoHeadStored
        (HeapState.start (zeroHeap true)) unsurvivedRun ∧
      Machine.Along (HeapState.step sampleArena) FreesPointed
        (HeapState.start (zeroHeap true)) unsurvivedRun) ∧
      ∃ state,
        Machine.run (HeapState.step sampleArena)
            (HeapState.start (zeroHeap true)) unsurvivedRun = some state ∧
          lostObject ∈ state.live ∧
          ¬HasHead state.heap.memory lostObject.guard ∧
          ¬SearchContained state lostObject := by
  have plain : Machine.Along (HeapState.step sampleArena) NoHeadStored
      (HeapState.start (zeroHeap true)) unsurvivedRun := by
    decide +kernel
  have pointed : Machine.Along (HeapState.step sampleArena) FreesPointed
      (HeapState.start (zeroHeap true)) unsurvivedRun := by
    decide +kernel
  have facts : (Machine.run (HeapState.step sampleArena)
      (HeapState.start (zeroHeap true)) unsurvivedRun).map (fun state =>
        (state.live,
          decide (¬HasHead state.heap.memory lostObject.guard ∧
            ¬SurvivorBelow state lostObject))) =
      some ([lostObject], true) := by
    decide +kernel
  obtain ⟨state, executed, facts⟩ := Option.map_eq_some_iff.mp facts
  simp only [Prod.mk.injEq, decide_eq_true_eq] at facts
  obtain ⟨listed, lost, unsurvived⟩ := facts
  have live : lostObject ∈ state.live := listed ▸ List.mem_singleton.mpr rfl
  have invariant : HeadsInvariant sampleArena state :=
    Machine.run_invariant
      (fun _ _ _ invariant condition stepped =>
        HeadsInvariant.step invariant condition.1 condition.2 stepped)
      (headsInvariant_start (zeroHeap_sound true) (zeroHeap_no_heads true))
      (Machine.along_and plain pointed) executed
  exact ⟨⟨plain, pointed⟩, state, executed, live, lost,
    mt (invariant.searchContained_iff live).mp unsurvived⟩

end Causer
