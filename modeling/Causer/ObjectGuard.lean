import Causer.Library.ByteMemory
import Causer.Library.WordArithmetic
import Causer.Xdefines

/-!
# Object guards

The guard of `objectguard.hh` takes the 32 bytes before every object: the
pointer that the underlying allocator returned, the requested size, the call
site and the head word.  The tail word follows the object, at the place that
the size in the guard gives.
-/

namespace Causer

open ByteMemory WordArithmetic

/-- `sizeof(objectGuard)`. -/
abbrev objectGuardSize : Nat := 32

/-- The guard before an object. -/
def getObjectGuard (ptr : Nat) : Nat := sub ptr objectGuardSize

namespace ObjectGuard

variable (memory : Memory) (guard : Nat)

def getStartPtr : Nat := add (add guard 24) sentinelSize

def getRealPtr : Nat := readWord memory guard

def getObjectSize : Nat := readWord memory (guard + 8)

def getCallstack : Nat := readWord memory (guard + 16)

def isGoodHead : Bool := readWord memory (guard + 24) == sentinelHeadWord

def getTailSentinel : Nat :=
  add (add (add guard 24) (getObjectSize memory guard)) sentinelSize

def isGoodTail : Bool :=
  readWord memory (getTailSentinel memory guard) == sentinelTailWord

def resetHead : Memory := writeWord memory (guard + 24) 0

def setObjectSize (size : Nat) : Memory := writeWord memory (guard + 8) size

def setCallstack (ptr : Nat) : Memory := writeWord memory (guard + 16) ptr

def setTailSentinel : Memory :=
  writeWord memory (getTailSentinel memory guard) sentinelTailWord

/-- The member initialisers of the constructor. -/
def initFields (ptr size : Nat) : Memory :=
  let memory := writeWord memory guard ptr
  let memory := writeWord memory (guard + 8) size
  let memory := writeWord memory (guard + 16) 0
  writeWord memory (guard + 24) sentinelHeadWord

/-- The constructor: the fields, then the tail word. -/
def construct (ptr size : Nat) : Memory :=
  setTailSentinel (initFields memory guard ptr size) guard

end ObjectGuard

/-- The guard of an object that does not lie at the bottom of memory. -/
theorem getObjectGuard_eq
    {ptr : Nat}
    (high : 32 ≤ ptr)
    (ptrLt : ptr < 2 ^ 64) :
    getObjectGuard ptr = ptr - 32 :=
  sub_of_le high ptrLt

namespace ObjectGuard

variable {memory : Memory} {guard : Nat}

theorem getStartPtr_eq
    (guardLt : guard + 32 < 2 ^ 64) :
    getStartPtr guard = guard + 32 := by
  simp only [getStartPtr, add, sentinelSize]
  omega

/-- The tail word follows the object when its address does not wrap. -/
theorem getTailSentinel_eq
    {size : Nat}
    (objectSize : getObjectSize memory guard = size)
    (noWrap : guard + 32 + size < 2 ^ 64) :
    getTailSentinel memory guard = guard + 32 + size := by
  simp only [getTailSentinel, add, sentinelSize, objectSize]
  omega

/-- What the guard's fields hold. -/
structure Holds (memory : Memory) (guard ptr size callstack : Nat) :
    Prop where
  realPtr : getRealPtr memory guard = ptr
  objectSize : getObjectSize memory guard = size
  callstack : getCallstack memory guard = callstack

instance (memory : Memory) (guard ptr size callstack : Nat) :
    Decidable (Holds memory guard ptr size callstack) :=
  decidable_of_iff
    (getRealPtr memory guard = ptr ∧ getObjectSize memory guard = size ∧
      getCallstack memory guard = callstack)
    ⟨fun ⟨realPtr, objectSize, callstack⟩ => ⟨realPtr, objectSize, callstack⟩,
      fun ⟨realPtr, objectSize, callstack⟩ => ⟨realPtr, objectSize, callstack⟩⟩

/-- The fields that precede the head word depend on their own bytes only. -/
theorem Holds.of_agreesOn
    {later : Memory}
    {ptr size callstack : Nat}
    (holds : Holds memory guard ptr size callstack)
    (agrees : AgreesOn ⟨guard, 24⟩ memory later) :
    Holds later guard ptr size callstack := by
  have field : ∀ offset ≤ 16,
      readWord later (guard + offset) = readWord memory (guard + offset) := by
    intro offset offsetLe
    apply readWord_congr
    apply agrees.of_within
    simp only [Region.Within]
    omega
  constructor
  · exact (field 0 (by omega)).trans holds.realPtr
  · exact (field 8 (by omega)).trans holds.objectSize
  · exact (field 16 (by omega)).trans holds.callstack

/-- The head word is intact. -/
def HasHead (memory : Memory) (guard : Nat) : Prop :=
  readWord memory (guard + 24) = sentinelHeadWord

instance (memory : Memory) (guard : Nat) :
    Decidable (HasHead memory guard) :=
  inferInstanceAs (Decidable (_ = _))

@[simp] theorem isGoodHead_iff :
    isGoodHead memory guard = true ↔ HasHead memory guard :=
  beq_iff_eq

theorem HasHead.of_agreesOn
    {later : Memory}
    (head : HasHead memory guard)
    (agrees : AgreesOn (wordAt (guard + 24)) memory later) :
    HasHead later guard :=
  (readWord_congr agrees).trans head

/-- The tail word of an object of the given size is intact. -/
def HasTail (memory : Memory) (guard size : Nat) : Prop :=
  readWord memory (guard + 32 + size) = sentinelTailWord

instance (memory : Memory) (guard size : Nat) :
    Decidable (HasTail memory guard size) :=
  inferInstanceAs (Decidable (_ = _))

theorem HasTail.of_agreesOn
    {later : Memory}
    {size : Nat}
    (tail : HasTail memory guard size)
    (agrees : AgreesOn (wordAt (guard + 32 + size)) memory later) :
    HasTail later guard size :=
  (readWord_congr agrees).trans tail

/-- The check of the tail looks at the object's tail when the guard holds its
size. -/
theorem isGoodTail_iff
    {ptr size callstack : Nat}
    (holds : Holds memory guard ptr size callstack)
    (noWrap : guard + 32 + size < 2 ^ 64) :
    isGoodTail memory guard = true ↔ HasTail memory guard size := by
  rw [isGoodTail, getTailSentinel_eq holds.objectSize noWrap]
  exact beq_iff_eq

section Writes

variable {ptr size callstack : Nat}

/-- Clearing the head word leaves everything else. -/
theorem agreesOn_resetHead
    {region : Region}
    (apart : (wordAt (guard + 24)).Apart region) :
    AgreesOn region memory (resetHead memory guard) :=
  agreesOn_writeWord memory 0 apart

theorem not_hasHead_resetHead :
    ¬HasHead (resetHead memory guard) guard := by
  rw [HasHead, resetHead, readWord_writeWord]
  decide

/-- Recording the call site leaves everything else. -/
theorem agreesOn_setCallstack
    {region : Region}
    (apart : (wordAt (guard + 16)).Apart region) :
    AgreesOn region memory (setCallstack memory guard callstack) :=
  agreesOn_writeWord memory callstack apart

theorem Holds.setCallstack
    {former : Nat}
    (holds : Holds memory guard ptr size former)
    (callstackLt : callstack < 2 ^ 64) :
    Holds (setCallstack memory guard callstack) guard ptr size callstack := by
  constructor
  · rw [← holds.realPtr]
    apply readWord_writeWord_of_apart
    simp [Region.Apart]
  · rw [← holds.objectSize]
    apply readWord_writeWord_of_apart
    simp [Region.Apart]
  · rw [getCallstack, ObjectGuard.setCallstack, readWord_writeWord,
      Nat.mod_eq_of_lt callstackLt]

theorem agreesOn_initFields
    {region : Region}
    (apart : Region.Apart ⟨guard, 32⟩ region) :
    AgreesOn region memory (initFields memory guard ptr size) := by
  have field : ∀ offset ≤ 24, (wordAt (guard + offset)).Apart region := by
    intro offset offsetLe
    apply apart.of_within
    · simp only [Region.Within]
      omega
    · exact ⟨le_rfl, le_rfl⟩
  have first := agreesOn_writeWord memory ptr (field 0 (by omega))
  have second := first.trans (agreesOn_writeWord _ size (field 8 (by omega)))
  have third := second.trans (agreesOn_writeWord _ 0 (field 16 (by omega)))
  exact third.trans
    (agreesOn_writeWord _ sentinelHeadWord (field 24 (by omega)))

theorem holds_initFields
    (ptrLt : ptr < 2 ^ 64)
    (sizeLt : size < 2 ^ 64) :
    Holds (initFields memory guard ptr size) guard ptr size 0 := by
  constructor
  · rw [getRealPtr, initFields, readWord_writeWord_of_apart,
      readWord_writeWord_of_apart, readWord_writeWord_of_apart,
      readWord_writeWord, Nat.mod_eq_of_lt ptrLt]
    all_goals simp [Region.Apart]
  · rw [getObjectSize, initFields, readWord_writeWord_of_apart,
      readWord_writeWord_of_apart, readWord_writeWord, Nat.mod_eq_of_lt sizeLt]
    all_goals simp [Region.Apart]
  · rw [getCallstack, initFields, readWord_writeWord_of_apart,
      readWord_writeWord, Nat.zero_mod]
    simp [Region.Apart]

theorem hasHead_initFields :
    HasHead (initFields memory guard ptr size) guard := by
  rw [HasHead, initFields, readWord_writeWord]
  rfl

/-- Where the constructor puts the tail word. -/
theorem construct_eq
    (sizeLt : size < 2 ^ 64)
    (noWrap : guard + 32 + size < 2 ^ 64)
    (ptrLt : ptr < 2 ^ 64) :
    construct memory guard ptr size =
      writeWord (initFields memory guard ptr size) (guard + 32 + size)
        sentinelTailWord := by
  have fields : Holds (initFields memory guard ptr size) guard ptr size 0 :=
    holds_initFields ptrLt sizeLt
  rw [construct, setTailSentinel, getTailSentinel_eq fields.objectSize noWrap]

/-- What the constructor leaves in the guard and after the object, and that it
writes nothing else. -/
structure Constructed (before after : Memory) (guard ptr size : Nat) :
    Prop where
  holds : Holds after guard ptr size 0
  head : HasHead after guard
  tail : HasTail after guard size
  frame : ∀ region : Region,
    Region.Apart ⟨guard, 32⟩ region →
    (wordAt (guard + 32 + size)).Apart region →
    AgreesOn region before after

theorem constructed
    (ptrLt : ptr < 2 ^ 64)
    (noWrap : guard + 32 + size < 2 ^ 64) :
    Constructed memory (construct memory guard ptr size) guard ptr size := by
  have sizeLt : size < 2 ^ 64 := by omega
  rw [construct_eq sizeLt noWrap ptrLt]
  have tailApart : ∀ region : Region, region.Within ⟨guard, 32⟩ →
      (wordAt (guard + 32 + size)).Apart region := by
    intro region within
    simp only [Region.Within, Region.Apart] at within ⊢
    omega
  constructor
  · apply (holds_initFields ptrLt sizeLt).of_agreesOn
    apply agreesOn_writeWord
    apply tailApart
    simp [Region.Within]
  · apply hasHead_initFields.of_agreesOn
    apply agreesOn_writeWord
    apply tailApart
    simp [Region.Within]
  · rw [HasTail, readWord_writeWord]
    rfl
  · intro region guardApart wordApart
    exact (agreesOn_initFields guardApart).trans
      (agreesOn_writeWord _ sentinelTailWord wordApart)

end Writes

end ObjectGuard

end Causer
