import Causer.ObjectGuard
import Mathlib.Data.Set.Function

/-!
# The intercepted heap

The functions of `libcauser.cpp` and `gnuwrapper.cpp` that hand out and take
back objects, over a byte memory.  The underlying allocator is known through
its contract only: what it answers is chosen outside, and an answer that breaks
the contract is not considered.  So is which call site a watched allocation
belongs to and whether a watchpoint could be set for it.  A step that the
source leaves undefined, or in which the process aborts, has no result.
-/

namespace Causer

open ByteMemory WordArithmetic

/-- `InitialMallocSize`, the length of `_buf`. -/
abbrev initialMallocSize : Nat := 2 ^ 30

/-- The buffer of the temporary allocator, in the user's half of the address
space.  Arrays of this length are placed on a multiple of 16. -/
structure Arena where
  buf : Nat
  positive : 0 < buf
  aligned : 16 ∣ buf
  bounded : buf + initialMallocSize < 2 ^ 47

/-- A block of the underlying allocator. -/
structure Block where
  base : Nat
  usable : Nat
  deriving DecidableEq

/-- The addresses of a block. -/
abbrev Block.region (block : Block) : Region := ⟨block.base, block.usable⟩

/-- An allocation by a thread whose allocations are watched: the entry found
for the call site and whether a watchpoint was set. -/
structure Watch where
  callstack : Nat
  watched : Bool

/-- The state that allocation works on.  `freed` lists the pointers passed to
the underlying `free`, and `blamed` the call sites whose ratio `checkPointer`
has set, each in order. -/
structure Heap where
  memory : Memory
  allocated : Int
  libInitialized : Bool
  blocks : List Block
  watchedRatio : Nat → Option Int
  freed : List Nat
  blamed : List Nat

/-- Alignment of the blocks that the underlying `malloc` returns. -/
abbrev mallocAlignment : Nat := 16

/-- The contract of the underlying allocator: a block as large and as aligned
as asked and never empty, apart from every block not yet freed and, with the
header before it, from the temporary buffer. -/
structure Grants (arena : Arena) (heap : Heap) (alignment size : Nat)
    (answer : Block) : Prop where
  positive : 0 < answer.base
  nonempty : 0 < answer.usable
  aligned : alignment ∣ answer.base
  large : size ≤ answer.usable
  bounded : answer.base + answer.usable < 2 ^ 63
  offArena : answer.base + answer.usable ≤ arena.buf ∨
    arena.buf + initialMallocSize < answer.base
  apart : ∀ block ∈ heap.blocks, answer.region.Apart block.region

instance (arena : Arena) (heap : Heap) (alignment size : Nat)
    (answer : Block) : Decidable (Grants arena heap alignment size answer) :=
  decidable_of_iff
    (0 < answer.base ∧ 0 < answer.usable ∧
      alignment ∣ answer.base ∧ size ≤ answer.usable ∧
      answer.base + answer.usable < 2 ^ 63 ∧
      (answer.base + answer.usable ≤ arena.buf ∨
        arena.buf + initialMallocSize < answer.base) ∧
      ∀ block ∈ heap.blocks, answer.region.Apart block.region)
    ⟨fun ⟨positive, nonempty, aligned, large, bounded, offArena, apart⟩ =>
        ⟨positive, nonempty, aligned, large, bounded, offArena, apart⟩,
      fun ⟨positive, nonempty, aligned, large, bounded, offArena, apart⟩ =>
        ⟨positive, nonempty, aligned, large, bounded, offArena, apart⟩⟩

namespace Real

/-- `memalign` of the underlying allocator. -/
def memalign (arena : Arena) (alignment size : Nat) (answer : Block)
    (heap : Heap) : Option (Nat × Heap) :=
  if Grants arena heap alignment size answer then
    some (answer.base, { heap with blocks := answer :: heap.blocks })
  else none

/-- `malloc` of the underlying allocator. -/
def malloc (arena : Arena) (size : Nat) (answer : Block) (heap : Heap) :
    Option (Nat × Heap) :=
  memalign arena mallocAlignment size answer heap

/-- `free` of the underlying allocator. -/
def free (ptr : Nat) (heap : Heap) : Heap :=
  if ptr = 0 then heap
  else
    { heap with
      blocks := heap.blocks.filter fun block => block.base ≠ ptr
      freed := heap.freed ++ [ptr] }

/-- `malloc_usable_size` of the underlying allocator. -/
def mallocUsableSize (ptr : Nat) (heap : Heap) : Option Nat :=
  if ptr = 0 then some 0
  else (heap.blocks.find? fun block => block.base = ptr).map Block.usable

end Real

/-- The conversion of a `size_t` to an `int`. -/
def toInt (size : Nat) : Int := (BitVec.ofNat 32 size).toInt

/-- Temporary bump-pointer allocator for calls before initialisation. -/
def tempmalloc (arena : Arena) (size : Int) (heap : Heap) :
    Option (Nat × Heap) :=
  if heap.allocated + size > initialMallocSize then none
  else
    some ((arena.buf + heap.allocated).toNat,
      { heap with allocated := heap.allocated + size })

/-- How `updateWatchedInfo` changes the ratio of a call site, for an allocation
that is watched or only counted. -/
def updateWatchedInfo (watched : Bool) (watchedRatio : Int) : Int :=
  let reduced :=
    if watchedRatio = maxWatchRatioUpperbound then watchedRatio
    else if watched then Int.tdiv (watchedRatio * watchedReduction) 10
    else watchedRatio - calledReduction
  if reduced < reductionToMin then reductionToMin else reduced

/-- `causer::startWatch`: find or add the call site, record it in the guard and
update its ratio. -/
def startWatch (watch : Watch) (ptr : Nat) (heap : Heap) : Heap :=
  let watchedRatio :=
    (heap.watchedRatio watch.callstack).getD initWatchRatio
  { heap with
    memory :=
      ObjectGuard.setCallstack heap.memory (getObjectGuard ptr)
        watch.callstack
    watchedRatio :=
      Function.update heap.watchedRatio watch.callstack
        (some (updateWatchedInfo watch.watched watchedRatio)) }

/-- `xxmalloc_install_watchpoint`; there is a `watch` when `isCauser()`. -/
def xxmallocInstallWatchpoint (watch : Option Watch) (ptr : Nat)
    (heap : Heap) : Heap :=
  match watch with
  | none => heap
  | some watch => if ptr = 0 then heap else startWatch watch ptr heap

/-- Set the ratio of a call site to its maximum, unless none is recorded.  A
pointer to something else than a call site leaves the result undefined. -/
def blame (callstack : Nat) (heap : Heap) : Option Heap :=
  if callstack = 0 then some heap
  else if (heap.watchedRatio callstack).isSome then
    some
      { heap with
        watchedRatio :=
          Function.update heap.watchedRatio callstack
            (some maxWatchRatioUpperbound)
        blamed := heap.blamed ++ [callstack] }
  else none

/-- Construct the guard of a block, and watch the object after it. -/
def placeObject (watch : Option Watch) (guard ptr sz : Nat) (heap : Heap) :
    Nat × Heap :=
  let heap :=
    { heap with memory := ObjectGuard.construct heap.memory guard ptr sz }
  let start := ObjectGuard.getStartPtr guard
  (start, xxmallocInstallWatchpoint watch start heap)

/-- The size that `xxmalloc` asks the underlying allocator for. -/
def mallocRealsize (sz : Nat) : Nat :=
  add sz (objectGuardSize + sentinelSize)

/-- The size that `xxmalloc` asks the temporary allocator for. -/
def tempRealsize (sz : Nat) : Int :=
  toInt (add (mallocRealsize sz) 7 &&& complement 7)

def xxmalloc (arena : Arena) (sz : Nat) (answer : Block)
    (watch : Option Watch) (heap : Heap) : Option (Nat × Heap) :=
  let placed :=
    if heap.libInitialized then
      Real.malloc arena (mallocRealsize sz) answer heap
    else tempmalloc arena (tempRealsize sz) heap
  placed.map fun (ptr, heap) => placeObject watch ptr ptr sz heap

/-- The length of the padded guard before an aligned object. -/
def objguardsize (alignment : Nat) : Nat := alignup objectGuardSize alignment

/-- The size that `xxmemalign` asks the underlying allocator for. -/
def memalignRealsize (alignment sz : Nat) : Nat :=
  add sz (add (objguardsize alignment) sentinelSize)

def xxmemalign (arena : Arena) (alignment sz : Nat) (answer : Block)
    (watch : Option Watch) (heap : Heap) : Option (Nat × Heap) :=
  (Real.memalign arena alignment (memalignRealsize alignment sz) answer
    heap).map fun (ptr, heap) =>
      let guard := sub (add ptr (objguardsize alignment)) objectGuardSize
      placeObject watch guard ptr sz heap

/-- Scan down from an address for the nearest head word. -/
def findHead (memory : Memory) : Nat → Nat → Option Nat
  | 0, _ => none
  | fuel + 1, prev =>
      if readWord memory prev = sentinelHeadWord then some prev
      else if prev < 8 then none
      else findHead memory fuel (prev - 8)

/-- `causer::checkPointer`: check the sentinels of an object and return the
pointer to free. -/
def checkPointer (addr : Nat) (heap : Heap) : Option (Nat × Heap) :=
  let obj := getObjectGuard addr
  if ObjectGuard.isGoodHead heap.memory obj then
    let checked :=
      if ObjectGuard.isGoodTail heap.memory obj then some heap
      else blame (ObjectGuard.getCallstack heap.memory obj) heap
    checked.map fun heap =>
      let memory := ObjectGuard.resetHead heap.memory obj
      (ObjectGuard.getRealPtr memory obj, { heap with memory := memory })
  else
    -- the guard is gone: the word below the nearest head is a call site
    (findHead heap.memory (obj / 8 + 1) obj).bind fun head =>
      (blame (readWord heap.memory (sub head 8)) heap).map fun heap =>
        (0, heap)

def xxrealfree (arena : Arena) (ptr : Nat) (heap : Heap) : Option Heap :=
  if ptr ≠ 0 ∧ (ptr > arena.buf + initialMallocSize ∨ ptr < arena.buf) then
    (checkPointer ptr heap).map fun (ptr, heap) => Real.free ptr heap
  else some heap

/-- `xxfree`, whose removal of the watchpoint does not touch this state. -/
def xxfree (arena : Arena) (ptr : Nat) (heap : Heap) : Option Heap :=
  xxrealfree arena ptr heap

def xxmallocUsableSize (arena : Arena) (ptr : Nat) (heap : Heap) :
    Option Nat :=
  let ptr := ObjectGuard.getRealPtr heap.memory (getObjectGuard ptr)
  if ptr ≥ arena.buf ∧ ptr ≤ arena.buf + initialMallocSize then some 1
  else Real.mallocUsableSize ptr heap

def xxmallocUpdateheader (ptr sz : Nat) (heap : Heap) : Heap :=
  let obj := getObjectGuard ptr
  { heap with
    memory :=
      ObjectGuard.setTailSentinel
        (ObjectGuard.setObjectSize heap.memory obj sz) obj }

def customFree (arena : Arena) (ptr : Nat) (heap : Heap) : Option Heap :=
  xxfree arena ptr heap

def customMalloc (arena : Arena) (sz : Nat) (answer : Block)
    (watch : Option Watch) (heap : Heap) : Option (Nat × Heap) :=
  if sz >>> 63 ≠ 0 then some (0, heap)
  else xxmalloc arena sz answer watch heap

/-- `CUSTOM_CALLOC`, which switches watching off around the allocation. -/
def customCalloc (arena : Arena) (nelem elsize : Nat) (answer : Block)
    (heap : Heap) : Option (Nat × Heap) :=
  let n := mul nelem elsize
  if elsize ≠ 0 ∧ nelem ≠ n / elsize then some (0, heap)
  else
    (customMalloc arena n answer none heap).map fun (ptr, heap) =>
      if ptr ≠ 0 then
        (ptr, { heap with memory := fill heap.memory ⟨ptr, n⟩ 0 })
      else (ptr, heap)

def customMemalign (arena : Arena) (alignment size : Nat) (answer : Block)
    (watch : Option Watch) (heap : Heap) : Option (Nat × Heap) :=
  xxmemalign arena alignment size answer watch heap

/-- The errors of `posix_memalign`. -/
inductive Errno
  | einval
  | enomem
  deriving DecidableEq

def customPosixMemalign (arena : Arena) (alignment size : Nat)
    (answer : Block) (watch : Option Watch) (heap : Heap) :
    Option (Except Errno Nat × Heap) :=
  if alignment = 0 ∨ alignment &&& sub alignment 1 ≠ 0 then
    some (.error .einval, heap)
  else
    (customMemalign arena alignment size answer watch heap).map
      fun (ptr, heap) =>
        if ptr = 0 then (.error .enomem, heap) else (.ok ptr, heap)

/-- `CUSTOM_REALLOC`.  The first watch is that of the new object, the second
that of the old one when it is kept. -/
def customRealloc (arena : Arena) (ptr sz : Nat) (answer : Block)
    (watch : Option (Watch × Watch)) (heap : Heap) :
    Option (Nat × Heap) :=
  if ptr = 0 then customMalloc arena sz answer (watch.map Prod.fst) heap
  else if sz = 0 then
    (customFree arena ptr heap).map fun heap => (0, heap)
  else
    (xxmallocUsableSize arena ptr heap).bind fun objSize =>
      (customMalloc arena sz answer (watch.map Prod.fst) heap).bind
        fun (buf, heap) =>
          if buf ≠ 0 then
            (xxmallocUsableSize arena buf heap).bind fun bufSize =>
              if objSize = bufSize then
                (customFree arena buf heap).map fun heap =>
                  let heap := xxmallocUpdateheader ptr sz heap
                  (ptr, xxmallocInstallWatchpoint (watch.map Prod.snd) ptr
                    heap)
              else
                let minSize := if objSize < sz then objSize else sz
                let heap :=
                  { heap with memory := copy heap.memory buf ptr minSize }
                (customFree arena ptr heap).map fun heap => (buf, heap)
          else
            (customFree arena ptr heap).map fun heap => (buf, heap)

end Causer
