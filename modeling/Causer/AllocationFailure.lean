import Causer.HeapCalls
import Causer.Library.Logged

/-!
# Requests that the underlying allocator refuses

The wrappers after initialisation, with the answer of the underlying allocator
left open: it may be `NULL`.  What a wrapper does to memory and to watchpoints
is logged, since storing a value may leave memory as it was.  No function tests
what the underlying allocator has answered before it constructs a guard there,
so a refused request is never reported without a store.
-/

namespace Causer.AllocationFailure

open ByteMemory WordArithmetic Logged

/-- What the underlying allocator answers in the state of the heap at hand,
where zero is `NULL`. -/
structure Underlying where
  malloc (size : Nat) : Nat
  memalign (alignment size : Nat) : Nat

/-- What a wrapper does besides computing. -/
inductive Event
  /-- The underlying allocator has answered. -/
  | answered (ptr : Nat)
  /-- A word is stored. -/
  | store (address value : Nat)
  /-- A region is set to zero. -/
  | clear (region : Region)
  /-- A watchpoint is asked for. -/
  | startWatch (ptr sz : Nat)
  deriving DecidableEq

/-- The event writes memory or installs a watchpoint. -/
def Event.Touches : Event → Prop
  | answered _ => False
  | store _ _ => True
  | clear _ => True
  | startWatch _ _ => True

instance : DecidablePred Event.Touches
  | .answered _ => inferInstanceAs (Decidable False)
  | .store _ _ => inferInstanceAs (Decidable True)
  | .clear _ => inferInstanceAs (Decidable True)
  | .startWatch _ _ => inferInstanceAs (Decidable True)

/-- `xxmalloc_install_watchpoint`, under the thread's `isWatching`. -/
def xxmallocInstallWatchpoint (isWatching : Bool) (ptr sz : Nat) :
    Logged Event PUnit :=
  if isWatching ∧ ptr ≠ 0 then log (.startWatch ptr sz) else pure ⟨⟩

/-- The constructor of a guard: four fields, then the tail word. -/
def construct (guard ptr size : Nat) : Logged Event PUnit := do
  log (.store guard ptr)
  log (.store (guard + 8) size)
  log (.store (guard + 16) 0)
  log (.store (guard + 24) sentinelHeadWord)
  log (.store (add (add (add guard 24) size) sentinelSize) sentinelTailWord)

/-- Construct the guard of a block, and watch the object after it. -/
def placeObject (isWatching : Bool) (guard ptr sz : Nat) :
    Logged Event Nat := do
  construct guard ptr sz
  let start := ObjectGuard.getStartPtr guard
  xxmallocInstallWatchpoint isWatching start sz
  return start

variable (underlying : Underlying) (isWatching : Bool)

def xxmalloc (sz : Nat) : Logged Event Nat := do
  let ptr := underlying.malloc (mallocRealsize sz)
  log (.answered ptr)
  placeObject isWatching ptr ptr sz

def xxmemalign (alignment sz : Nat) : Logged Event Nat := do
  let ptr := underlying.memalign alignment (memalignRealsize alignment sz)
  log (.answered ptr)
  let guard := sub (add ptr (objguardsize alignment)) objectGuardSize
  placeObject isWatching guard ptr sz

def customMalloc (sz : Nat) : Logged Event Nat :=
  if sz >>> 63 ≠ 0 then return 0 else xxmalloc underlying isWatching sz

/-- `CUSTOM_CALLOC`, which switches watching off around the allocation. -/
def customCalloc (nelem elsize : Nat) : Logged Event Nat :=
  let n := mul nelem elsize
  if elsize ≠ 0 ∧ nelem ≠ n / elsize then return 0
  else do
    let ptr ← customMalloc underlying false n
    if ptr ≠ 0 then log (.clear ⟨ptr, n⟩)
    return ptr

def customMemalign (alignment size : Nat) : Logged Event Nat :=
  xxmemalign underlying isWatching alignment size

/-- `CUSTOM_POSIX_MEMALIGN`, with the error it returns. -/
def customPosixMemalign (memptr alignment size : Nat) :
    Logged Event (Option Errno) :=
  if alignment = 0 ∨ alignment &&& sub alignment 1 ≠ 0 then
    return some .einval
  else do
    let ptr ← customMemalign underlying isWatching alignment size
    if ptr = 0 then return some .enomem
    else
      log (.store memptr ptr)
      return none

/-- `CUSTOM_ALIGNED_ALLOC`; the remainder by zero traps. -/
def customAlignedAlloc (alignment size : Nat) : Option (Logged Event Nat) :=
  if alignment = 0 then none
  else
    let size := sub (add size alignment) (size % alignment)
    some (customMemalign underlying isWatching alignment size)

/-- The throwing `operator new` and `operator new[]`; without a pointer, they
throw `std::bad_alloc`. -/
def operatorNew (sz : Nat) : Logged Event (Option Nat) := do
  let ptr ← customMalloc underlying isWatching sz
  return if ptr = 0 then none else some ptr

/-- A request that may be refused. -/
inductive Request
  | malloc (sz : Nat)
  | calloc (nelem elsize : Nat)
  /-- `realloc` of `NULL`. -/
  | realloc (sz : Nat)
  | memalign (alignment size : Nat)
  | posixMemalign (memptr alignment size : Nat)
  | alignedAlloc (alignment size : Nat)
  /-- `operator new` and `operator new[]`. -/
  | operatorNew (sz : Nat)
  /-- The same with `std::nothrow`. -/
  | operatorNewNothrow (sz : Nat)

/-- What a request leaves its caller with. -/
inductive Outcome
  | pointer (ptr : Nat)
  | status (error : Option Errno)
  | badAlloc
  deriving DecidableEq

/-- Serve a request. -/
def Request.perform : Request → Option (Logged Event Outcome)
  | malloc sz => some (.pointer <$> customMalloc underlying isWatching sz)
  | calloc nelem elsize =>
      some (.pointer <$> customCalloc underlying nelem elsize)
  | realloc sz => some (.pointer <$> customMalloc underlying isWatching sz)
  | memalign alignment size =>
      some (.pointer <$> customMemalign underlying isWatching alignment size)
  | posixMemalign memptr alignment size =>
      some (.status <$>
        customPosixMemalign underlying isWatching memptr alignment size)
  | alignedAlloc alignment size =>
      (customAlignedAlloc underlying isWatching alignment size).map
        fun served => .pointer <$> served
  | operatorNew sz =>
      some ((fun ptr => ptr.elim .badAlloc .pointer) <$>
        AllocationFailure.operatorNew underlying isWatching sz)
  | operatorNewNothrow sz =>
      some (.pointer <$> customMalloc underlying isWatching sz)

/-- How the interface of a request reports failure. -/
def Request.failure : Request → Outcome
  | malloc _ | calloc _ _ | realloc _ | memalign _ _ | alignedAlloc _ _
  | operatorNewNothrow _ => .pointer 0
  | posixMemalign _ _ _ => .status (some .enomem)
  | operatorNew _ => .badAlloc

/-- Failure is reported, no memory is written and no watchpoint installed. -/
structure FailsCleanly (request : Request) (served : Logged Event Outcome) :
    Prop where
  reported : served.value = request.failure
  untouched : ∀ event ∈ served.effects, ¬event.Touches

/-! On a state whose allocator grants a block, the logged events do what the
functions over the heap's state do. -/

section Replay

variable {arena : Arena} {watch : Option Watch} {answer : Block} {heap : Heap}

/-- What an event does to the heap, for the block and the call site of the
request. -/
def Event.act (answer : Block) (watch : Option Watch) :
    Event → Heap → Heap
  | answered _, heap => { heap with blocks := answer :: heap.blocks }
  | store address value, heap =>
      { heap with memory := writeWord heap.memory address value }
  | clear region, heap => { heap with memory := fill heap.memory region 0 }
  | startWatch ptr _, heap =>
      Causer.xxmallocInstallWatchpoint watch ptr heap

/-- The logged stores of the constructor are those of the heap's. -/
theorem runOn_construct
    {guard ptr sz : Nat}
    (ptrLt : ptr < 2 ^ 64)
    (szLt : sz < 2 ^ 64) :
    (construct guard ptr sz).runOn (Event.act answer watch) heap =
      (⟨⟩, { heap with
        memory := ObjectGuard.construct heap.memory guard ptr sz }) := by
  have fields : ObjectGuard.Holds
      (ObjectGuard.initFields heap.memory guard ptr sz) guard ptr sz 0 :=
    ObjectGuard.holds_initFields ptrLt szLt
  rw [ObjectGuard.construct, ObjectGuard.setTailSentinel,
    ObjectGuard.getTailSentinel, fields.objectSize]
  rfl

theorem runOn_xxmallocInstallWatchpoint
    (ptr sz : Nat) :
    (xxmallocInstallWatchpoint watch.isSome ptr sz).runOn
        (Event.act answer watch) heap =
      (⟨⟩, Causer.xxmallocInstallWatchpoint watch ptr heap) := by
  cases watch with
  | none => rfl
  | some watch =>
      by_cases null : ptr = 0
      · simp [xxmallocInstallWatchpoint, Causer.xxmallocInstallWatchpoint,
          null]
      · simp [xxmallocInstallWatchpoint, Event.act, null]

theorem runOn_placeObject
    {guard ptr sz : Nat}
    (ptrLt : ptr < 2 ^ 64)
    (szLt : sz < 2 ^ 64) :
    (placeObject watch.isSome guard ptr sz).runOn (Event.act answer watch)
        heap =
      Causer.placeObject watch guard ptr sz heap := by
  rw [placeObject, runOn_bind, runOn_construct ptrLt szLt, runOn_bind,
    runOn_xxmallocInstallWatchpoint]
  rfl

theorem base_lt_of_grants
    {alignment size : Nat}
    (grants : Grants arena heap alignment size answer) :
    answer.base < 2 ^ 64 := by
  have := grants.bounded
  omega

/-- `xxmalloc` on a heap that grants the block. -/
theorem runOn_xxmalloc
    {sz : Nat}
    (szLt : sz < 2 ^ 64)
    (initialized : heap.libInitialized = true)
    (grants : Grants arena heap mallocAlignment (mallocRealsize sz) answer)
    (answers : underlying.malloc (mallocRealsize sz) = answer.base) :
    Causer.xxmalloc arena sz answer watch heap =
      some ((xxmalloc underlying watch.isSome sz).runOn
        (Event.act answer watch) heap) := by
  rw [Causer.xxmalloc, if_pos initialized, Real.malloc, Real.memalign,
    if_pos grants, Option.map_some, xxmalloc, answers, runOn_bind, runOn_log,
    runOn_placeObject (base_lt_of_grants grants) szLt]
  rfl

/-- `xxmemalign` on a heap that grants the block. -/
theorem runOn_xxmemalign
    {alignment sz : Nat}
    (szLt : sz < 2 ^ 64)
    (grants : Grants arena heap alignment (memalignRealsize alignment sz)
      answer)
    (answers : underlying.memalign alignment (memalignRealsize alignment sz) =
      answer.base) :
    Causer.xxmemalign arena alignment sz answer watch heap =
      some ((xxmemalign underlying watch.isSome alignment sz).runOn
        (Event.act answer watch) heap) := by
  rw [Causer.xxmemalign, Real.memalign, if_pos grants, Option.map_some,
    xxmemalign, answers, runOn_bind, runOn_log,
    runOn_placeObject (base_lt_of_grants grants) szLt]
  rfl

/-- `CUSTOM_MALLOC` on a heap that grants the block. -/
theorem runOn_customMalloc
    {sz : Nat}
    (szLt : sz < 2 ^ 64)
    (initialized : heap.libInitialized = true)
    (grants : Grants arena heap mallocAlignment (mallocRealsize sz) answer)
    (answers : underlying.malloc (mallocRealsize sz) = answer.base) :
    Causer.customMalloc arena sz answer watch heap =
      some ((customMalloc underlying watch.isSome sz).runOn
        (Event.act answer watch) heap) := by
  rw [Causer.customMalloc, customMalloc]
  by_cases large : sz >>> 63 ≠ 0
  · rw [if_pos large, if_pos large, runOn_pure]
  · rw [if_neg large, if_neg large]
    exact runOn_xxmalloc underlying szLt initialized grants answers

/-- `CUSTOM_CALLOC` on a heap that grants the block. -/
theorem runOn_customCalloc
    {nelem elsize : Nat}
    (initialized : heap.libInitialized = true)
    (grants : Grants arena heap mallocAlignment
      (mallocRealsize (mul nelem elsize)) answer)
    (answers : underlying.malloc (mallocRealsize (mul nelem elsize)) =
      answer.base) :
    Causer.customCalloc arena nelem elsize answer heap =
      some ((customCalloc underlying nelem elsize).runOn
        (Event.act answer none) heap) := by
  have szLt : mul nelem elsize < 2 ^ 64 :=
    Nat.mod_lt _ (Nat.two_pow_pos 64)
  have allocated : Causer.customMalloc arena (mul nelem elsize) answer none
      heap =
      some ((customMalloc underlying false (mul nelem elsize)).runOn
        (Event.act answer none) heap) :=
    runOn_customMalloc underlying szLt initialized grants answers
  rw [Causer.customCalloc, customCalloc]
  by_cases overflows : elsize ≠ 0 ∧ nelem ≠ mul nelem elsize / elsize
  · rw [if_pos overflows, if_pos overflows, runOn_pure]
  · rw [if_neg overflows, if_neg overflows, allocated, Option.map_some,
      runOn_bind]
    generalize (customMalloc underlying false (mul nelem elsize)).runOn
      (Event.act answer none) heap = placed
    obtain ⟨ptr, after⟩ := placed
    by_cases null : ptr = 0
    · simp [null]
    · simp [null, Event.act]

end Replay

/-- Some event of the log writes memory or installs a watchpoint. -/
def Touched (effects : List Event) : Prop :=
  ∃ event ∈ effects, event.Touches

/-- A guard is stored wherever the block is. -/
theorem touched_placeObject
    (guard ptr sz : Nat) :
    Touched (placeObject isWatching guard ptr sz).effects := by
  refine ⟨.store (guard + 24) sentinelHeadWord, ?_, trivial⟩
  simp [placeObject, construct]

theorem touched_xxmalloc
    (sz : Nat) :
    Touched (xxmalloc underlying isWatching sz).effects := by
  obtain ⟨event, member, touches⟩ := touched_placeObject isWatching
    (underlying.malloc (mallocRealsize sz))
    (underlying.malloc (mallocRealsize sz)) sz
  exact ⟨event, by simp [xxmalloc, member], touches⟩

theorem touched_xxmemalign
    (alignment sz : Nat) :
    Touched (xxmemalign underlying isWatching alignment sz).effects := by
  obtain ⟨event, member, touches⟩ := touched_placeObject isWatching
    (sub (add (underlying.memalign alignment (memalignRealsize alignment sz))
      (objguardsize alignment)) objectGuardSize)
    (underlying.memalign alignment (memalignRealsize alignment sz)) sz
  exact ⟨event, by simp [xxmemalign, member], touches⟩

/-- Nothing is logged, or something logged touches memory: what holds of every
wrapper, because each asks the underlying allocator only to store a guard. -/
def Heedless {Value : Type} (served : Logged Event Value) : Prop :=
  served.effects = [] ∨ Touched served.effects

section Rules

variable {Value Result : Type}

theorem heedless_pure
    (value : Value) :
    Heedless (pure value) :=
  .inl rfl

theorem heedless_log
    (event : Event)
    (touches : event.Touches) :
    Heedless (log event) :=
  .inr ⟨event, List.mem_singleton_self event, touches⟩

theorem Heedless.bind
    {first : Logged Event Value}
    {next : Value → Logged Event Result}
    (firstHeedless : Heedless first)
    (nextHeedless : ∀ value, Heedless (next value)) :
    Heedless (first >>= next) := by
  rw [Heedless, bind_effects]
  rcases firstHeedless with nothing | ⟨event, member, touches⟩
  · rw [nothing]
    exact nextHeedless first.value
  · exact .inr ⟨event, List.mem_append_left _ member, touches⟩

theorem Heedless.map
    {served : Logged Event Value}
    (heedless : Heedless served)
    (change : Value → Result) :
    Heedless (change <$> served) := by
  rw [Heedless, map_effects]
  exact heedless

end Rules

theorem heedless_customMalloc
    (sz : Nat) :
    Heedless (customMalloc underlying isWatching sz) := by
  rw [customMalloc]
  split_ifs with large
  · exact heedless_pure 0
  · exact .inr (touched_xxmalloc underlying isWatching sz)

theorem heedless_customCalloc
    (nelem elsize : Nat) :
    Heedless (customCalloc underlying nelem elsize) := by
  rw [customCalloc]
  split_ifs with overflows
  · exact heedless_pure 0
  · apply (heedless_customMalloc underlying false _).bind
    intro ptr
    split_ifs with null
    · exact (heedless_log (.clear _) trivial).bind fun _ => heedless_pure ptr
    · exact heedless_pure ptr

theorem heedless_customMemalign
    (alignment size : Nat) :
    Heedless (customMemalign underlying isWatching alignment size) :=
  .inr (touched_xxmemalign underlying isWatching alignment size)

theorem heedless_customPosixMemalign
    (memptr alignment size : Nat) :
    Heedless
      (customPosixMemalign underlying isWatching memptr alignment size) := by
  rw [customPosixMemalign]
  split_ifs with invalid
  · exact heedless_pure (some Errno.einval)
  · apply (heedless_customMemalign underlying isWatching alignment size).bind
    intro ptr
    split_ifs with null
    · exact heedless_pure (some Errno.enomem)
    · exact (heedless_log (.store _ _) trivial).bind fun _ =>
        heedless_pure none

theorem heedless_operatorNew
    (sz : Nat) :
    Heedless (AllocationFailure.operatorNew underlying isWatching sz) :=
  (heedless_customMalloc underlying isWatching sz).bind fun _ =>
    heedless_pure _

variable {underlying isWatching}

/-- Every request touches memory once it has asked the underlying
allocator. -/
theorem heedless_perform
    {request : Request}
    {served : Logged Event Outcome}
    (performed : request.perform underlying isWatching = some served) :
    Heedless served := by
  cases request with
  | malloc sz | realloc sz | operatorNewNothrow sz =>
      cases performed
      exact (heedless_customMalloc underlying isWatching sz).map
        Outcome.pointer
  | calloc nelem elsize =>
      cases performed
      exact (heedless_customCalloc underlying nelem elsize).map
        Outcome.pointer
  | memalign alignment size =>
      cases performed
      exact (heedless_customMemalign underlying isWatching alignment size).map
        Outcome.pointer
  | posixMemalign memptr alignment size =>
      cases performed
      exact (heedless_customPosixMemalign underlying isWatching memptr
        alignment size).map Outcome.status
  | alignedAlloc alignment size =>
      rw [Request.perform, customAlignedAlloc] at performed
      split_ifs at performed with zero
      · cases performed
      · cases performed
        exact (heedless_customMemalign underlying isWatching alignment _).map
          Outcome.pointer
  | operatorNew sz =>
      cases performed
      exact (heedless_operatorNew underlying isWatching sz).map _

/-- No request for which the underlying allocator answers `NULL` fails
cleanly, whatever else that allocator would answer. -/
theorem refused_request_not_failsCleanly
    {request : Request}
    {served : Logged Event Outcome}
    (performed : request.perform underlying isWatching = some served)
    (refused : .answered 0 ∈ served.effects) :
    ¬FailsCleanly request served := by
  intro clean
  rcases heedless_perform performed with
    noEffects | ⟨event, member, touches⟩
  · rw [noEffects] at refused
    exact List.not_mem_nil refused
  · exact clean.untouched event member touches

/-- An underlying allocator that has no memory left. -/
def exhausted : Underlying := ⟨fun _ => 0, fun _ _ => 0⟩

/-- What is logged for `malloc` of half the address space. -/
def servedHuge : Logged Event Outcome :=
  .pointer <$> customMalloc exhausted true (2 ^ 62)

theorem refused_request_not_failsCleanly_huge :
    (Request.malloc (2 ^ 62)).perform exhausted true = some servedHuge ∧
      ¬FailsCleanly (.malloc (2 ^ 62)) servedHuge :=
  have performed :
      (Request.malloc (2 ^ 62)).perform exhausted true = some servedHuge := rfl
  ⟨performed, refused_request_not_failsCleanly performed (by decide)⟩

/-- The request for which the underlying allocator answers `NULL` returns the
address 32, having stored a guard at address zero and asked for a watchpoint. -/
theorem malloc_at_null :
    ¬∀ (underlying : Underlying) (isWatching : Bool) (request : Request)
      (served : Logged Event Outcome),
      request.perform underlying isWatching = some served →
      .answered 0 ∈ served.effects →
      FailsCleanly request served := by
  intro claimed
  have clean := claimed exhausted true (.malloc (2 ^ 62)) servedHuge rfl
    (by decide)
  exact clean.untouched (.store 24 sentinelHeadWord) (by decide) trivial

example : servedHuge.value = .pointer 32 := by decide

end Causer.AllocationFailure
