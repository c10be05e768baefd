import Causer.GuardIntegrity
import Causer.StringFunctions

/-!
# Copies of strings on the heap

The three functions that return a copy of a string in a new object.  Each may
read the string and write the bytes that it asked malloc for, nothing else.
What they do to the heap is a call of malloc followed by one write inside the
new object, so the results on runs of the heap hold of runs with them.
-/

namespace Causer

open ByteMemory WordArithmetic CString

/-- A thread may read and write an object that it has received. -/
def grant (access : Access) (object : Region) : Access :=
  ⟨object :: access.readable, object :: access.writable⟩

/-- `memcpy`, byte by byte. -/
def memcpy (access : Access) : Nat → Memory → Nat → Nat → Option Memory
  | 0, memory, _, _ => some memory
  | n + 1, memory, dest, src =>
      (access.load memory src).bind fun byte =>
        (access.store memory dest byte).bind fun memory =>
          memcpy access n memory (dest + 1) (src + 1)

/-- `strnlen`, with the bytes left to read. -/
def strnlen (access : Access) (memory : Memory) : Nat → Nat → Option Nat
  | 0, _ => some 0
  | maxlen + 1, s =>
      (access.load memory s).bind fun byte =>
        if byte = 0 then some 0
        else (strnlen access memory maxlen (s + 1)).map (· + 1)

section

variable (arena : Arena) (access : Access) (fuel : Nat)

/-- `strdup` of `libcauser.cpp`. -/
def strdup (str : Nat) (answer : Block) (watch : Option Watch) (heap : Heap) :
    Option (Nat × Heap) :=
  (strlen access heap.memory fuel str).bind fun length =>
    let siz := add length 1
    (customMalloc arena siz answer watch heap).bind fun (copy, heap) =>
      if copy = 0 then some (0, heap)
      else
        (memcpy (grant access ⟨copy, siz⟩) siz heap.memory copy str).map
          fun memory => (copy, { heap with memory := memory })

/-- `CUSTOM_STRDUP`. -/
def customStrdup (s : Nat) (answer : Block) (watch : Option Watch)
    (heap : Heap) : Option (Nat × Heap) :=
  if s ≠ 0 then
    (strlen access heap.memory fuel s).bind fun length =>
      let size := add length 1
      (customMalloc arena size answer watch heap).bind
        fun (newString, heap) =>
          if newString ≠ 0 then
            (strcpy (grant access ⟨newString, size⟩) heap.memory fuel
              newString s).map fun (_, memory) =>
                (newString, { heap with memory := memory })
          else some (newString, heap)
  else some (0, heap)

/-- `CUSTOM_STRNDUP`. -/
def customStrndup (s sz : Nat) (answer : Block) (watch : Option Watch)
    (heap : Heap) : Option (Nat × Heap) :=
  if s ≠ 0 then
    (strnlen access heap.memory sz s).bind fun cappedLength =>
      let size := add cappedLength 1
      (customMalloc arena size answer watch heap).bind
        fun (newString, heap) =>
          if newString ≠ 0 then
            let rights := grant access ⟨newString, size⟩
            (strncpy rights heap.memory newString s cappedLength).bind
              fun (_, memory) =>
                (rights.store memory (newString + cappedLength) 0).map
                  fun memory => (newString, { heap with memory := memory })
          else some (newString, heap)
  else some (0, heap)

end

section

variable {access : Access} {memory : Memory}

theorem memcpy_eq
    {n dest src : Nat}
    (readable : Covers access.readable ⟨src, n⟩)
    (writable : Covers access.writable ⟨dest, n⟩)
    (apart : Region.Apart ⟨dest, n⟩ ⟨src, n⟩) :
    memcpy access n memory dest src = some (copy memory dest src n) := by
  induction n generalizing memory dest src with
  | zero => rw [memcpy, copy, blit_empty]
  | succ n inductionHypothesis =>
      have restApart : Region.Apart ⟨dest + 1, n⟩ ⟨src + 1, n⟩ := by
        apply apart.of_within <;> simp only [Region.Within] <;> omega
      rw [memcpy, Access.load_of_permits readable.head, Option.bind_some,
        Access.store_of_permits writable.head, Option.bind_some,
        inductionHypothesis readable.tail writable.tail restApart, copy, copy,
        ← blit_cons]
      -- what was stored lies before the rest of the source
      refine congrArg some (blit_congr _ fun offset offsetLt => ?_)
      simp only [Region.Apart] at apart offsetLt
      rw [Function.update_of_ne (by omega)]
      congr 1
      omega

theorem strnlen_eq
    {maxlen s : Nat}
    (readable : Covers access.readable (textRegion memory maxlen s)) :
    strnlen access memory maxlen s =
      some (textWithin memory maxlen s).length := by
  induction maxlen generalizing s with
  | zero => rfl
  | succ maxlen inductionHypothesis =>
      have permits : Permits access.readable s := by
        apply readable
        simp [Region.Contains]
      rw [strnlen, Access.load_of_permits permits, Option.bind_some,
        textWithin]
      by_cases ended : memory s = 0
      · rw [if_pos ended, if_pos ended, List.length_nil]
      · rw [if_neg ended, if_neg ended, inductionHypothesis, Option.map_some,
          List.length_cons]
        apply readable.of_within
        simp only [Region.Within, textWithin, if_neg ended, List.length_cons]
        omega

/-- Appending the zero to a text that has been written. -/
theorem blit_snoc
    (memory : Memory)
    (start : Nat)
    (text : List UInt8) :
    Function.update
        (blit memory ⟨start, text.length⟩ fun offset => text.getD offset 0)
        (start + text.length) 0 =
      blit memory (stringAt start text) fun offset => text.getD offset 0 := by
  funext address
  by_cases here : address = start + text.length
  · have last := blit_of_lt memory (fun offset => text.getD offset 0)
      (show text.length < (stringAt start text).length from
        Nat.lt_succ_self _)
    rw [here, Function.update_self, last]
    simp
  · rw [Function.update_of_ne here]
    simp only [blit]
    congr 1
    simp only [Region.Contains, eq_iff_iff]
    omega

end

section

variable {arena : Arena} {access : Access} {state : HeapState}
  {object : Object} {s fuel : Nat} {text : List UInt8} {answer : Block}
  {watch : Option Watch}

/-- A string that the application holds in one of its objects. -/
structure HoldsString (state : HeapState) (object : Object) (s : Nat)
    (text : List UInt8) : Prop where
  live : object ∈ state.live
  inside : (stringAt s text).Within object.data
  isString : IsString state.heap.memory s text

/-- Put a text into a new object. -/
def withText (text : List UInt8) (placed : Nat × Heap) : Nat × Heap :=
  (placed.1,
    { placed.2 with
      memory := blit placed.2.memory (stringAt placed.1 text)
        fun offset => text.getD offset 0 })

/-- What malloc does while the application holds a string. -/
structure Fresh (arena : Arena) (state : HeapState) (s : Nat)
    (text kept : List UInt8) (answer : Block) (watch : Option Watch)
    (ptr : Nat) (after : Heap) : Prop where
  pointer : ptr =
    (mallocPlaced arena state (kept.length + 1) answer watch).start
  placement : Placement arena state.heap after
    (mallocPlaced arena state (kept.length + 1) answer watch)
  isString : IsString after.memory s text
  apart : (stringAt ptr kept).Apart (stringAt s text)

theorem HoldsString.length_lt
    (holds : HoldsString state object s text)
    (layout : Layout arena state) :
    text.length + 1 < 2 ^ 63 := by
  have fits := layout.fits object (Or.inl holds.live)
  have := fits.tailInside
  have := fits.bounded
  have inside := holds.inside
  simp only [Region.Within] at inside
  omega

theorem HoldsString.ne_zero
    (holds : HoldsString state object s text)
    (layout : Layout arena state) :
    s ≠ 0 := by
  have fits := layout.fits object (Or.inl holds.live)
  have := fits.guardInside
  have inside := holds.inside
  simp only [Region.Within] at inside
  omega

theorem HoldsString.fresh
    {kept : List UInt8}
    {ptr : Nat}
    {after : Heap}
    (holds : HoldsString state object s text)
    (layout : Layout arena state)
    (initialised : state.heap.libInitialized = true)
    (valid : ∀ found ∈ watch, found.Valid state.heap)
    (shorter : kept.length ≤ text.length)
    (returned : customMalloc arena (kept.length + 1) answer watch state.heap =
      some (ptr, after)) :
    Fresh arena state s text kept answer watch ptr after := by
  have short := holds.length_lt layout
  rcases customMalloc_cases layout.sound valid returned with
    ⟨large, _, _⟩ | ⟨_, rfl, _, placement⟩
  · omega
  · have placed := placement (Or.inl initialised)
    have apart := (layout.apart_new placed.toAllocated (Or.inl holds.live))
    have sourceWithin := holds.inside.trans
      (layout.fits object (Or.inl holds.live)).data_within
    refine ⟨rfl, placed, ?_, ?_⟩
    · apply holds.isString.of_agreesOn
      apply placed.frame
      exact apart.of_within ⟨le_rfl, le_rfl⟩ sourceWithin
    · exact apart.of_within placed.fits.data_within sourceWithin

theorem Covers.grant
    {region granted : Region}
    (covers : Covers access.readable region) :
    Covers (grant access granted).readable region := by
  intro address contains
  obtain ⟨permitted, member, inside⟩ := covers address contains
  exact ⟨permitted, List.mem_cons_of_mem granted member, inside⟩

theorem covers_granted
    (granted : Region) :
    Covers (grant access granted).writable granted :=
  covers_of_mem List.mem_cons_self

/-- The three functions come to a call of malloc and the text written into its
object. -/
theorem HoldsString.strdup_eq
    (holds : HoldsString state object s text)
    (layout : Layout arena state)
    (initialised : state.heap.libInitialized = true)
    (valid : ∀ found ∈ watch, found.Valid state.heap)
    (readable : Covers access.readable (stringAt s text))
    (enough : text.length < fuel) :
    strdup arena access fuel s answer watch state.heap =
      (customMalloc arena (text.length + 1) answer watch state.heap).map
        (withText text) := by
  have short := holds.length_lt layout
  have size : add text.length 1 = text.length + 1 :=
    Nat.mod_eq_of_lt (by omega)
  rw [strdup, strlen_eq holds.isString readable enough, Option.bind_some,
    size]
  dsimp only
  cases returned : customMalloc arena (text.length + 1) answer watch
      state.heap with
  | none => rfl
  | some placed =>
      obtain ⟨ptr, after⟩ := placed
      have fresh := holds.fresh layout initialised valid le_rfl returned
      have nonnull : ptr ≠ 0 := by
        rw [fresh.pointer]
        exact Nat.succ_ne_zero _
      rw [Option.bind_some, if_neg nonnull,
        memcpy_eq (Covers.grant readable) (covers_granted _) fresh.apart,
        fresh.isString.copy_eq]
      rfl

theorem HoldsString.customStrdup_eq
    (holds : HoldsString state object s text)
    (layout : Layout arena state)
    (initialised : state.heap.libInitialized = true)
    (valid : ∀ found ∈ watch, found.Valid state.heap)
    (readable : Covers access.readable (stringAt s text))
    (enough : text.length < fuel) :
    customStrdup arena access fuel s answer watch state.heap =
      (customMalloc arena (text.length + 1) answer watch state.heap).map
        (withText text) := by
  have short := holds.length_lt layout
  have size : add text.length 1 = text.length + 1 :=
    Nat.mod_eq_of_lt (by omega)
  rw [customStrdup, if_pos (holds.ne_zero layout),
    strlen_eq holds.isString readable enough, Option.bind_some, size]
  dsimp only
  cases returned : customMalloc arena (text.length + 1) answer watch
      state.heap with
  | none => rfl
  | some placed =>
      obtain ⟨ptr, after⟩ := placed
      have fresh := holds.fresh layout initialised valid le_rfl returned
      have nonnull : ptr ≠ 0 := by
        rw [fresh.pointer]
        exact Nat.succ_ne_zero _
      rw [Option.bind_some, if_pos nonnull,
        strcpy_eq fresh.isString (Covers.grant readable) (covers_granted _)
          fresh.apart enough,
        fresh.isString.copy_eq]
      rfl

theorem HoldsString.customStrndup_eq
    (holds : HoldsString state object s text)
    (layout : Layout arena state)
    (initialised : state.heap.libInitialized = true)
    (valid : ∀ found ∈ watch, found.Valid state.heap)
    (readable : Covers access.readable (stringAt s text))
    (sz : Nat) :
    customStrndup arena access s sz answer watch state.heap =
      (customMalloc arena ((text.take sz).length + 1) answer watch
        state.heap).map (withText (text.take sz)) := by
  have short := holds.length_lt layout
  have shorter : (text.take sz).length ≤ text.length :=
    List.length_take_le' sz text
  have size : add (text.take sz).length 1 = (text.take sz).length + 1 :=
    Nat.mod_eq_of_lt (by omega)
  have bounded : ∀ {memory : Memory}, IsString memory s text → ∀ bound,
      (textRegion memory bound s).Within (stringAt s text) := by
    intro memory isString bound
    rw [textRegion, isString.textWithin_eq]
    simp only [Region.Within, List.length_take]
    omega
  rw [customStrndup, if_pos (holds.ne_zero layout),
    strnlen_eq (readable.of_within (bounded holds.isString sz)),
    holds.isString.textWithin_eq, Option.bind_some, size]
  dsimp only
  cases returned : customMalloc arena ((text.take sz).length + 1) answer watch
      state.heap with
  | none => rfl
  | some placed =>
      obtain ⟨ptr, after⟩ := placed
      have fresh := holds.fresh layout initialised valid shorter returned
      have nonnull : ptr ≠ 0 := by
        rw [fresh.pointer]
        exact Nat.succ_ne_zero _
      have within := bounded fresh.isString (text.take sz).length
      have inObject : Region.Within ⟨ptr, (text.take sz).length⟩
          (stringAt ptr (text.take sz)) := by
        simp [Region.Within]
      have copied : textWithin after.memory (text.take sz).length s =
          text.take sz := by
        rw [fresh.isString.textWithin_eq, List.take_eq_take_iff,
          List.length_take]
        omega
      have written := strncpy_eq
        ((Covers.grant readable).of_within within)
        ((covers_granted _).of_within inObject)
        (fresh.apart.of_within inObject within)
      have last : Permits
          (grant access ⟨ptr, (text.take sz).length + 1⟩).writable
          (ptr + (text.take sz).length) := by
        apply covers_granted
        simp [Region.Contains]
      rw [copied] at written
      simp only [Option.bind_some, if_pos nonnull, written,
        Access.store_of_permits last, blit_snoc]
      rfl

/-- A zero after a text is what reading past its end gives. -/
theorem getD_append_zero
    (text : List UInt8)
    (offset : Nat) :
    (text ++ [0]).getD offset 0 = text.getD offset 0 := by
  rcases Nat.lt_or_ge offset text.length with inside | outside
  · rw [List.getD_eq_getElem?_getD, List.getD_eq_getElem?_getD,
      List.getElem?_append_left inside]
  · rw [List.getD_eq_getElem?_getD, List.getD_eq_getElem?_getD,
      List.getElem?_append_right outside, List.getElem?_eq_none outside]
    cases offset - text.length <;> simp

/-- Writing a text and a zero. -/
theorem store_string
    (memory : Memory)
    (address : Nat)
    (text : List UInt8) :
    store memory address (text ++ [0]) =
      blit memory (stringAt address text) fun offset => text.getD offset 0 := by
  rw [store, List.length_append, List.length_singleton]
  exact blit_congr memory fun offset _ => getD_append_zero text offset

/-- The functions that copy a string into a new object. -/
inductive Duplicator
  | strdup
  | customStrdup
  | customStrndup (sz : Nat)

namespace Duplicator

/-- The call of a copying function. -/
def call (arena : Arena) (access : Access) (fuel s : Nat) (answer : Block)
    (watch : Option Watch) (heap : Heap) : Duplicator → Option (Nat × Heap)
  | strdup => Causer.strdup arena access fuel s answer watch heap
  | customStrdup => Causer.customStrdup arena access fuel s answer watch heap
  | customStrndup sz =>
      Causer.customStrndup arena access s sz answer watch heap

/-- The part of the string that it copies. -/
def kept (text : List UInt8) : Duplicator → List UInt8
  | strdup => text
  | customStrdup => text
  | customStrndup sz => text.take sz

variable {duplicator : Duplicator}

theorem length_kept_le :
    (duplicator.kept text).length ≤ text.length := by
  cases duplicator with
  | strdup => exact le_rfl
  | customStrdup => exact le_rfl
  | customStrndup sz => exact List.length_take_le' sz text

theorem zero_notMem_kept
    (nonzero : 0 ∉ text) :
    0 ∉ duplicator.kept text := by
  cases duplicator with
  | strdup => exact nonzero
  | customStrdup => exact nonzero
  | customStrndup sz => exact fun member => nonzero (List.mem_of_mem_take member)

theorem call_eq
    (holds : HoldsString state object s text)
    (layout : Layout arena state)
    (initialised : state.heap.libInitialized = true)
    (valid : ∀ found ∈ watch, found.Valid state.heap)
    (readable : Covers access.readable (stringAt s text))
    (enough : text.length < fuel) :
    duplicator.call arena access fuel s answer watch state.heap =
      (customMalloc arena ((duplicator.kept text).length + 1) answer watch
        state.heap).map (withText (duplicator.kept text)) := by
  cases duplicator with
  | strdup =>
      exact holds.strdup_eq layout initialised valid readable enough
  | customStrdup =>
      exact holds.customStrdup_eq layout initialised valid readable enough
  | customStrndup sz =>
      exact holds.customStrndup_eq layout initialised valid readable sz

end Duplicator

/-- What a copying function leaves: the state after a call of malloc and a
write inside the new object, which holds the string. -/
structure Duplicated (arena : Arena) (state : HeapState) (s : Nat)
    (text kept : List UInt8) (answer : Block) (watch : Option Watch)
    (ptr : Nat) (after : Heap) (next : HeapState) (copy : Object) :
    Prop where
  executed : Machine.run (HeapState.step arena) state
    [.malloc (kept.length + 1) answer watch, .write ptr (kept ++ [0])] =
      some next
  heap : next.heap = after
  live : next.live = state.live ++ [copy]
  start : copy.start = ptr
  size : copy.size = kept.length + 1
  copied : IsString after.memory ptr kept
  source : IsString after.memory s text
  guarded : AllGuarded next
  untouched : ∀ other ∈ state.live,
    AgreesOn other.span state.heap.memory after.memory

theorem HoldsString.duplicated
    {duplicator : Duplicator}
    {ptr : Nat}
    {after : Heap}
    (holds : HoldsString state object s text)
    (invariant : GuardInvariant arena state)
    (valid : ∀ found ∈ watch, found.Valid state.heap)
    (returned : customMalloc arena ((duplicator.kept text).length + 1) answer
      watch state.heap = some (ptr, after)) :
    ∃ next copy,
      Duplicated arena state s text (duplicator.kept text) answer watch ptr
        (withText (duplicator.kept text) (ptr, after)).2 next copy := by
  have layout := invariant.layout
  have fresh := holds.fresh layout invariant.initialised valid
    Duplicator.length_kept_le returned
  have notMem : 0 ∉ duplicator.kept text :=
    Duplicator.zero_notMem_kept holds.isString.nonzero
  generalize duplicator.kept text = kept at returned fresh notMem ⊢
  have fits := fresh.placement.fits
  obtain ⟨rfl, placement, source, apart⟩ := fresh
  have allocated : HeapState.step arena state
      (.malloc (kept.length + 1) answer watch) =
      some (state.handOut after
        (mallocPlaced arena state (kept.length + 1) answer watch)) := by
    rw [HeapState.step, HeapState.watching, if_pos valid, returned]
    rfl
  have unconditional : AfterInitialisation arena state
      (.malloc (kept.length + 1) answer watch) := trivial
  have handedOut := invariant.step unconditional allocated
  rw [HeapState.handOut_of_fits fits] at allocated handedOut
  generalize copyEq :
    mallocPlaced arena state (kept.length + 1) answer watch = copy
    at allocated handedOut fits placement apart ⊢
  have size : copy.size = kept.length + 1 := copyEq ▸ rfl
  have within : (stringAt copy.start kept).Within copy.data := by
    simp [Region.Within, size]
  have confined : AfterInitialisation arena
      { state with
        heap := after
        live := state.live ++ [copy]
        count := state.count + 1 }
      (.write copy.start (kept ++ [0])) := by
    refine Or.inl ⟨copy, by simp, ?_⟩
    rwa [List.length_append, List.length_singleton]
  have written := handedOut.step confined rfl
  have memoryEq : (withText kept (copy.start, after)).2.memory =
      blit after.memory (stringAt copy.start kept)
        fun offset => kept.getD offset 0 := rfl
  refine ⟨_, copy, ?_, ?_, rfl, rfl, size, ?_, ?_, written.guarded, ?_⟩
  · rw [Machine.run_cons, allocated, Option.bind_some, Machine.run_cons]
    rfl
  · simp only [HeapState.write, withText, store_string]
  · rw [memoryEq]
    exact isString_blit after.memory copy.start notMem
  · rw [memoryEq]
    exact source.of_agreesOn (agreesOn_blit after.memory _ apart)
  · intro other live
    have blocksApart := layout.apart_new placement.toAllocated (Or.inl live)
    rw [memoryEq]
    apply (layout.agrees_of_allocated placement.toAllocated
      (Or.inl live)).trans
    apply agreesOn_blit
    apply blocksApart.of_within (within.trans fits.data_within)
    exact (layout.fits other (Or.inl live)).span_within

/-- In every state that is reached after initialisation while the application
writes only inside its objects, the functions that copy one of its strings read
no byte past the string and write none outside the object that they obtain.
They return exactly when their malloc does, all of them the same object for a
string that is not cut; then the object holds the string, or as much of it as
was asked for, and every guard and every other object is as it was. -/
theorem string_duplicated
    {heap : Heap}
    {labels : List HeapAction}
    (sound : heap.Sound arena)
    (initialised : heap.libInitialized = true)
    (nothingFreed : heap.freed = [])
    (along : Machine.Along (HeapState.step arena) (AfterInitialisation arena)
      (HeapState.start heap) labels)
    (executed : Machine.run (HeapState.step arena) (HeapState.start heap)
      labels = some state)
    (holds : HoldsString state object s text)
    (valid : ∀ found ∈ watch, found.Valid state.heap)
    (enough : text.length < fuel)
    (duplicator : Duplicator)
    (answer : Block) :
    (duplicator.call arena ⟨[stringAt s text], []⟩ fuel s answer watch
        state.heap).isSome =
      (customMalloc arena ((duplicator.kept text).length + 1) answer watch
        state.heap).isSome ∧
    (duplicator.kept text = text →
      duplicator.call arena ⟨[stringAt s text], []⟩ fuel s answer watch
          state.heap =
        Duplicator.strdup.call arena ⟨[stringAt s text], []⟩ fuel s answer
          watch state.heap) ∧
    ∀ ptr after,
      duplicator.call arena ⟨[stringAt s text], []⟩ fuel s answer watch
        state.heap = some (ptr, after) →
      ∃ next copy,
        Duplicated arena state s text (duplicator.kept text) answer watch ptr
          after next copy := by
  have invariant : GuardInvariant arena state :=
    Machine.run_invariant
      (fun _ _ _ invariant condition stepped =>
        GuardInvariant.step invariant condition stepped)
      ⟨layout_start sound, by simp [AllGuarded, HeapState.start],
        initialised, by simp [HeapState.start], nothingFreed⟩
      along executed
  have readable : Covers
      (Access.mk [stringAt s text] []).readable (stringAt s text) :=
    covers_of_mem List.mem_cons_self
  have called : ∀ function : Duplicator,
      function.call arena ⟨[stringAt s text], []⟩ fuel s answer watch
          state.heap =
        (customMalloc arena ((function.kept text).length + 1) answer watch
          state.heap).map (withText (function.kept text)) := fun _ =>
    Duplicator.call_eq holds invariant.layout invariant.initialised valid
      readable enough
  refine ⟨?_, fun whole => ?_, fun ptr after returned => ?_⟩
  · rw [called, Option.isSome_map]
  · rw [called, called, whole]
    rfl
  rw [called] at returned
  obtain ⟨⟨fresh, middle⟩, allocated, placed⟩ :=
    Option.map_eq_some_iff.mp returned
  obtain ⟨rfl, rfl⟩ := Prod.mk.injEq _ _ _ _ ▸ placed
  exact holds.duplicated invariant valid allocated

end

/-- Two bytes and a zero in an object of sixteen bytes. -/
def greetingRun : List HeapAction :=
  [.malloc 16 (blockAt 16 56) none, .write (2 ^ 32 + 48) [104, 105, 0]]

/-- The first byte of the string is copied, with a zero after it. -/
theorem string_duplicated_greetingRun :
    ∃ state ptr after next copy,
      Machine.run (HeapState.step sampleArena)
          (HeapState.start (zeroHeap true)) greetingRun = some state ∧
        Duplicated sampleArena state (2 ^ 32 + 48) [104, 105] [104]
          (blockAt 128 48) none ptr after next copy := by
  have facts :
      ((Machine.run (HeapState.step sampleArena)
        (HeapState.start (zeroHeap true)) greetingRun).map fun state =>
          (decide (∃ object ∈ state.live,
              (stringAt (2 ^ 32 + 48) [104, 105]).Within object.data),
            decide (IsString state.heap.memory (2 ^ 32 + 48) [104, 105]),
            (customMalloc sampleArena 2 (blockAt 128 48) none
              state.heap).isSome)) =
        some (true, true, true) := by
    decide +kernel
  have along : Machine.Along (HeapState.step sampleArena)
      (AfterInitialisation sampleArena) (HeapState.start (zeroHeap true))
      greetingRun := by
    decide +kernel
  obtain ⟨state, executed, found⟩ := Option.map_eq_some_iff.mp facts
  simp only [Prod.mk.injEq, decide_eq_true_eq] at found
  obtain ⟨⟨object, live, inside⟩, isString, allocated⟩ := found
  obtain ⟨returns, _, duplicates⟩ := string_duplicated (zeroHeap_sound true)
    rfl rfl along executed ⟨live, inside, isString⟩
    (nofun : ∀ found ∈ (none : Option Watch), found.Valid state.heap)
    (by decide : [104, 105].length < 3) (.customStrndup 1) (blockAt 128 48)
  obtain ⟨⟨ptr, after⟩, returned⟩ :=
    Option.isSome_iff_exists.mp (returns.trans allocated)
  obtain ⟨next, copy, duplicated⟩ := duplicates ptr after returned
  exact ⟨state, ptr, after, next, copy, executed, duplicated⟩

end Causer
