import Causer.Heap
import Causer.Library.Machine

/-!
# Runs of the heap

The steps are the calls of the application and the writes to memory, whoever
makes them: an allocator's bookkeeping and an overrun are writes like any
other.  Which writes are allowed is a condition on the run.  Next to the heap
the state keeps what the code does not know: the objects that are live with the
blocks they lie in, those that have been freed, and those past whose end the
application has written.
-/

namespace Causer

open ByteMemory WordArithmetic

/-- An object and the block that was obtained for it. -/
structure Object where
  serial : Nat
  start : Nat
  size : Nat
  base : Nat
  len : Nat
  alignment : Nat
  callstack : Nat
  temporary : Bool
  deriving DecidableEq

namespace Object

variable (object : Object)

/-- The address of the guard. -/
abbrev guard : Nat := object.start - 32

/-- The object's own block. -/
abbrev block : Region := ⟨object.base, object.len⟩

/-- The bytes that the application asked for. -/
abbrev data : Region := ⟨object.start, object.size⟩

/-- The guard, the bytes of the object and its tail word. -/
abbrev span : Region := ⟨object.start - 32, object.size + 40⟩

end Object

/-- The heap, the objects in it and their history. -/
structure HeapState where
  heap : Heap
  live : List Object
  retired : List Object
  overrun : List Object
  count : Nat

/-- Calls of the application, and writes to memory. -/
inductive HeapAction
  | initialise
  | malloc (sz : Nat) (answer : Block) (watch : Option Watch)
  | calloc (nelem elsize : Nat) (answer : Block)
  | memalign (alignment size : Nat) (answer : Block) (watch : Option Watch)
  | posixMemalign (alignment size : Nat) (answer : Block)
      (watch : Option Watch)
  | free (ptr : Nat)
  | realloc (ptr sz : Nat) (answer : Block) (watch : Option (Watch × Watch))
  | write (address : Nat) (bytes : List UInt8)

/-- Call sites are found at addresses of the user's half, and threads are
watched only once the library is initialised. -/
def Watch.Valid (heap : Heap) (watch : Watch) : Prop :=
  0 < watch.callstack ∧ watch.callstack < 2 ^ 63 ∧ heap.libInitialized = true

instance (heap : Heap) (watch : Watch) : Decidable (watch.Valid heap) :=
  inferInstanceAs (Decidable (_ ∧ _ ∧ _))

/-- The call site in the guard after a watch may have been installed. -/
def recordedCallstack (former : Nat) : Option Watch → Nat
  | none => former
  | some watch => watch.callstack

namespace HeapState

variable (arena : Arena)

/-- Carry out an allocation if its call site may be watched. -/
def watching {Result : Type} (state : HeapState) (watch : Option Watch)
    (result : Option Result) : Option Result :=
  if ∀ found ∈ watch, found.Valid state.heap then result else none

/-- The block of a new object of `malloc`. -/
def ownBlock (heap : Heap) (sz : Nat) (answer : Block) : Block :=
  if heap.libInitialized then answer
  else ⟨(arena.buf + heap.allocated).toNat, (tempRealsize sz).toNat⟩

/-- The new object of `malloc` at an address. -/
def mallocObject (state : HeapState) (ptr sz : Nat) (answer : Block)
    (watch : Option Watch) : Object where
  serial := state.count
  start := ptr
  size := sz
  base := (ownBlock arena state.heap sz answer).base
  len := (ownBlock arena state.heap sz answer).usable
  alignment := if state.heap.libInitialized then mallocAlignment else 8
  callstack := recordedCallstack 0 watch
  temporary := !state.heap.libInitialized

/-- The new object of `memalign` at an address. -/
def memalignObject (state : HeapState) (ptr alignment size : Nat)
    (answer : Block) (watch : Option Watch) : Object where
  serial := state.count
  start := ptr
  size := size
  base := answer.base
  len := answer.usable
  alignment := alignment
  callstack := recordedCallstack 0 watch
  temporary := false

section

variable (state : HeapState) (ptr sz : Nat) (answer : Block)
  (watch : Option Watch)

@[simp] theorem mallocObject_start :
    (mallocObject arena state ptr sz answer watch).start = ptr := rfl

@[simp] theorem mallocObject_size :
    (mallocObject arena state ptr sz answer watch).size = sz := rfl

@[simp] theorem mallocObject_base :
    (mallocObject arena state ptr sz answer watch).base =
      (ownBlock arena state.heap sz answer).base := rfl

@[simp] theorem mallocObject_len :
    (mallocObject arena state ptr sz answer watch).len =
      (ownBlock arena state.heap sz answer).usable := rfl

@[simp] theorem mallocObject_alignment :
    (mallocObject arena state ptr sz answer watch).alignment =
      if state.heap.libInitialized then mallocAlignment else 8 := rfl

@[simp] theorem mallocObject_callstack :
    (mallocObject arena state ptr sz answer watch).callstack =
      recordedCallstack 0 watch := rfl

@[simp] theorem mallocObject_temporary :
    (mallocObject arena state ptr sz answer watch).temporary =
      !state.heap.libInitialized := rfl

end

/-- The application receives an object, unless it is `NULL`. -/
def handOut (state : HeapState) (heap : Heap) (object : Object) :
    HeapState :=
  if object.start = 0 then { state with heap := heap }
  else
    { state with
      heap := heap
      live := state.live ++ [object]
      count := state.count + 1 }

/-- The application has given an object back. -/
def release (state : HeapState) (heap : Heap) (object : Object) :
    HeapState :=
  { state with
    heap := heap
    live := state.live.filter (· ≠ object)
    retired := state.retired ++ [object] }

section

variable (state : HeapState) (heap : Heap) (object : Object)

@[simp] theorem handOut_heap : (state.handOut heap object).heap = heap := by
  unfold handOut
  split_ifs <;> rfl

@[simp] theorem handOut_overrun :
    (state.handOut heap object).overrun = state.overrun := by
  unfold handOut
  split_ifs <;> rfl

@[simp] theorem release_heap : (state.release heap object).heap = heap := rfl

@[simp] theorem release_live :
    (state.release heap object).live = state.live.filter (· ≠ object) := rfl

@[simp] theorem release_retired :
    (state.release heap object).retired = state.retired ++ [object] := rfl

end

/-- The object that realloc leaves at the same address. -/
def keptObject (object : Object) (sz : Nat) (watch : Option Watch) :
    Object :=
  { object with
    size := sz
    callstack := recordedCallstack object.callstack watch }

/-- What the application holds after a call of realloc on one of its
objects. -/
def reallocated (state : HeapState) (object : Object) (sz : Nat)
    (answer : Block) (watch : Option (Watch × Watch)) (result : Nat)
    (heap : Heap) : HeapState :=
  if result = object.start then
    { state with
      heap := heap
      live := state.live.filter (· ≠ object) ++
        [keptObject object sz (watch.map Prod.snd)] }
  else
    (state.release heap object).handOut heap
      (mallocObject arena state result sz answer (watch.map Prod.fst))

@[simp] theorem reallocated_heap
    (state : HeapState) (object : Object) (sz : Nat) (answer : Block)
    (watch : Option (Watch × Watch)) (result : Nat) (heap : Heap) :
    (reallocated arena state object sz answer watch result heap).heap =
      heap := by
  unfold reallocated
  split_ifs
  · rfl
  · exact handOut_heap ..

/-- A call of free.  The pointer is `NULL` or that of a live object. -/
def freeStep (state : HeapState) (ptr : Nat) : Option HeapState :=
  if ptr = 0 then
    (customFree arena ptr state.heap).map fun heap =>
      { state with heap := heap }
  else
    (state.live.find? (·.start = ptr)).bind fun object =>
      (customFree arena ptr state.heap).map fun heap =>
        state.release heap object

/-- A call of realloc.  The pointer is `NULL` or that of a live object. -/
def reallocStep (state : HeapState) (ptr sz : Nat) (answer : Block)
    (watch : Option (Watch × Watch)) : Option HeapState :=
  if ptr = 0 then
    (customRealloc arena ptr sz answer watch state.heap).map
      fun (result, heap) =>
        state.handOut heap
          (mallocObject arena state result sz answer (watch.map Prod.fst))
  else
    (state.live.find? (·.start = ptr)).bind fun object =>
      (customRealloc arena ptr sz answer watch state.heap).map
        fun (result, heap) =>
          state.reallocated arena object sz answer watch result heap

/-- A write to memory, which overruns the objects that end where it starts. -/
def write (state : HeapState) (address : Nat) (bytes : List UInt8) :
    HeapState :=
  { state with
    heap := { state.heap with memory := store state.heap.memory address bytes }
    overrun :=
      if bytes = [] then state.overrun
      else
        state.overrun ++
          state.live.filter fun object => object.start + object.size = address }

@[simp] theorem write_memory (state : HeapState) (address : Nat)
    (bytes : List UInt8) :
    (state.write address bytes).heap.memory =
      blit state.heap.memory ⟨address, bytes.length⟩
        fun offset => bytes.getD offset 0 := rfl

/-- The effect of one action. -/
def step (state : HeapState) : HeapAction → Option HeapState
  | .initialise =>
      some { state with heap := { state.heap with libInitialized := true } }
  | .malloc sz answer watch =>
      state.watching watch <|
        (customMalloc arena sz answer watch state.heap).map
          fun (ptr, heap) =>
            state.handOut heap (mallocObject arena state ptr sz answer watch)
  | .calloc nelem elsize answer =>
      (customCalloc arena nelem elsize answer state.heap).map
        fun (ptr, heap) =>
          state.handOut heap
            (mallocObject arena state ptr (mul nelem elsize) answer none)
  | .memalign alignment size answer watch =>
      state.watching watch <|
        (customMemalign arena alignment size answer watch state.heap).map
          fun (ptr, heap) =>
            state.handOut heap
              (memalignObject state ptr alignment size answer watch)
  | .posixMemalign alignment size answer watch =>
      state.watching watch <|
        (customPosixMemalign arena alignment size answer watch
          state.heap).map fun (result, heap) =>
            match result with
            | .error _ => { state with heap := heap }
            | .ok ptr =>
                state.handOut heap
                  (memalignObject state ptr alignment size answer watch)
  | .free ptr => freeStep arena state ptr
  | .realloc ptr sz answer watch =>
      state.watching (watch.map Prod.fst) <|
        state.watching (watch.map Prod.snd) <|
          reallocStep arena state ptr sz answer watch
  | .write address bytes => some (state.write address bytes)

end HeapState

end Causer
