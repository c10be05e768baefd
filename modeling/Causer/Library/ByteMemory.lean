import Mathlib.Tactic.Ring

/-!
# Byte-addressed memory

A memory gives a byte at every address.  All stores are instances of one
operation that replaces the bytes of a region, so that one frame rule says
what every one of them leaves alone.  Words are eight bytes, least significant
first; a word is determined by its bytes and determines them.
-/

namespace ByteMemory

/-- A byte at every address. -/
abbrev Memory := Nat → UInt8

/-- The addresses from `start` on, `length` of them. -/
structure Region where
  start : Nat
  length : Nat
  deriving DecidableEq

namespace Region

/-- An address of the region. -/
def Contains (region : Region) (address : Nat) : Prop :=
  region.start ≤ address ∧ address < region.start + region.length

/-- One region lies inside another. -/
def Within (inner outer : Region) : Prop :=
  outer.start ≤ inner.start ∧
    inner.start + inner.length ≤ outer.start + outer.length

/-- One region ends before the other starts. -/
def Apart (first second : Region) : Prop :=
  first.start + first.length ≤ second.start ∨
    second.start + second.length ≤ first.start

instance (region : Region) (address : Nat) :
    Decidable (region.Contains address) :=
  inferInstanceAs (Decidable (_ ∧ _))

instance (inner outer : Region) : Decidable (inner.Within outer) :=
  inferInstanceAs (Decidable (_ ∧ _))

instance (first second : Region) : Decidable (first.Apart second) :=
  inferInstanceAs (Decidable (_ ∨ _))

theorem Within.contains
    {inner outer : Region}
    (within : inner.Within outer)
    {address : Nat}
    (contains : inner.Contains address) :
    outer.Contains address :=
  ⟨within.1.trans contains.1, contains.2.trans_le within.2⟩

theorem Within.trans
    {inner middle outer : Region}
    (first : inner.Within middle)
    (second : middle.Within outer) :
    inner.Within outer :=
  ⟨second.1.trans first.1, first.2.trans second.2⟩

theorem Apart.symm
    {first second : Region}
    (apart : first.Apart second) :
    second.Apart first :=
  Or.symm apart

/-- Parts of regions that are apart are apart. -/
theorem Apart.of_within
    {first second firstPart secondPart : Region}
    (apart : first.Apart second)
    (firstWithin : firstPart.Within first)
    (secondWithin : secondPart.Within second) :
    firstPart.Apart secondPart := by
  unfold Apart Within at *
  omega

theorem Apart.not_contains
    {first second : Region}
    (apart : first.Apart second)
    {address : Nat}
    (contains : second.Contains address) :
    ¬first.Contains address := by
  unfold Apart Contains at *
  omega

end Region

/-- Replace the bytes of a region by a function of the offset. -/
def blit (memory : Memory) (region : Region) (bytes : Nat → UInt8) : Memory :=
  fun address =>
    if region.Contains address then bytes (address - region.start)
    else memory address

theorem blit_of_lt
    (memory : Memory)
    (bytes : Nat → UInt8)
    {region : Region}
    {offset : Nat}
    (offsetLt : offset < region.length) :
    blit memory region bytes (region.start + offset) = bytes offset := by
  have contains : region.Contains (region.start + offset) := by
    unfold Region.Contains
    omega
  rw [blit, if_pos contains, Nat.add_sub_cancel_left]

theorem blit_of_not_contains
    (memory : Memory)
    (bytes : Nat → UInt8)
    {region : Region}
    {address : Nat}
    (outside : ¬region.Contains address) :
    blit memory region bytes address = memory address :=
  if_neg outside

/-- The second memory holds on the region what the first one holds there. -/
def AgreesOn (region : Region) (first second : Memory) : Prop :=
  ∀ address, region.Contains address → second address = first address

@[refl] theorem AgreesOn.refl
    (region : Region)
    (memory : Memory) :
    AgreesOn region memory memory :=
  fun _ _ => rfl

theorem AgreesOn.trans
    {region : Region}
    {first second third : Memory}
    (firstAgrees : AgreesOn region first second)
    (secondAgrees : AgreesOn region second third) :
    AgreesOn region first third :=
  fun address contains =>
    (secondAgrees address contains).trans (firstAgrees address contains)

theorem AgreesOn.of_within
    {inner outer : Region}
    {first second : Memory}
    (agrees : AgreesOn outer first second)
    (within : inner.Within outer) :
    AgreesOn inner first second :=
  fun address contains => agrees address (within.contains contains)

/-- The frame rule of every store. -/
theorem agreesOn_blit
    (memory : Memory)
    (bytes : Nat → UInt8)
    {written region : Region}
    (apart : written.Apart region) :
    AgreesOn region memory (blit memory written bytes) :=
  fun _ contains =>
    blit_of_not_contains memory bytes (apart.not_contains contains)

/-- Store a list of bytes. -/
def store (memory : Memory) (address : Nat) (bytes : List UInt8) : Memory :=
  blit memory ⟨address, bytes.length⟩ fun offset => bytes.getD offset 0

/-- Set every byte of a region to one value. -/
def fill (memory : Memory) (region : Region) (byte : UInt8) : Memory :=
  blit memory region fun _ => byte

/-- Copy bytes between regions that do not overlap. -/
def copy (memory : Memory) (destination source length : Nat) : Memory :=
  blit memory ⟨destination, length⟩ fun offset => memory (source + offset)

/-- The byte at a position of a number, the least significant first. -/
def byteOf (value index : Nat) : UInt8 :=
  UInt8.ofNat (value / 256 ^ index)

/-- The number whose `width` bytes start at the address. -/
def readBytes (memory : Memory) (address : Nat) : Nat → Nat
  | 0 => 0
  | width + 1 =>
      (memory address).toNat + 256 * readBytes memory (address + 1) width

theorem readBytes_congr
    {first second : Memory}
    {address width : Nat}
    (agrees : AgreesOn ⟨address, width⟩ first second) :
    readBytes second address width = readBytes first address width := by
  induction width generalizing address with
  | zero => rfl
  | succ width inductionHypothesis =>
      have here : second address = first address := by
        apply agrees
        simp [Region.Contains]
      have rest : AgreesOn ⟨address + 1, width⟩ first second := by
        apply agrees.of_within
        simp only [Region.Within]
        omega
      rw [readBytes, readBytes, here, inductionHypothesis rest]

/-- Reading back the bytes of a number. -/
theorem readBytes_of_bytes
    {memory : Memory}
    {address width value : Nat}
    (bytes : ∀ index < width, memory (address + index) = byteOf value index) :
    readBytes memory address width = value % 256 ^ width := by
  induction width generalizing address value with
  | zero => rw [readBytes, pow_zero, Nat.mod_one]
  | succ width inductionHypothesis =>
      have here : (memory address).toNat = value % 256 := by
        have first := bytes 0 width.succ_pos
        rw [Nat.add_zero] at first
        rw [first, byteOf, pow_zero, Nat.div_one, UInt8.toNat_ofNat']
      have rest : readBytes memory (address + 1) width =
          value / 256 % 256 ^ width := by
        apply inductionHypothesis
        intro index indexLt
        have shifted := bytes (index + 1) (Nat.succ_lt_succ indexLt)
        rw [show address + 1 + index = address + (index + 1) by omega, shifted,
          byteOf, byteOf, pow_succ', Nat.div_div_eq_div_mul]
      rw [readBytes, here, rest, pow_succ', Nat.mod_mul]

/-- A number determines the bytes that it was read from. -/
theorem byteOf_readBytes
    (memory : Memory)
    (address : Nat)
    {width index : Nat}
    (indexLt : index < width) :
    byteOf (readBytes memory address width) index =
      memory (address + index) := by
  induction width generalizing address index with
  | zero => exact absurd indexLt index.not_lt_zero
  | succ width inductionHypothesis =>
      have low := (memory address).toNat_lt
      cases index with
      | zero =>
          apply UInt8.toNat_inj.mp
          rw [byteOf, readBytes, pow_zero, Nat.div_one, UInt8.toNat_ofNat']
          change (_ + 256 * _) % 256 = _
          rw [Nat.add_mul_mod_self_left, Nat.mod_eq_of_lt low, Nat.add_zero]
      | succ index =>
          have rest := inductionHypothesis (address + 1)
            (Nat.lt_of_succ_lt_succ indexLt)
          rw [byteOf] at rest ⊢
          rw [readBytes, pow_succ', ← Nat.div_div_eq_div_mul,
            Nat.add_mul_div_left _ _ (by omega), Nat.div_eq_of_lt low,
            Nat.zero_add, rest]
          congr 1
          omega

/-- The region of a word. -/
abbrev wordAt (address : Nat) : Region := ⟨address, 8⟩

/-- The word at an address. -/
def readWord (memory : Memory) (address : Nat) : Nat :=
  readBytes memory address 8

/-- Store a word. -/
def writeWord (memory : Memory) (address value : Nat) : Memory :=
  blit memory (wordAt address) (byteOf value)

theorem readWord_congr
    {first second : Memory}
    {address : Nat}
    (agrees : AgreesOn (wordAt address) first second) :
    readWord second address = readWord first address :=
  readBytes_congr agrees

@[simp] theorem readWord_writeWord
    (memory : Memory)
    (address value : Nat) :
    readWord (writeWord memory address value) address = value % 2 ^ 64 :=
  readBytes_of_bytes fun _ indexLt => blit_of_lt memory (byteOf value) indexLt

theorem agreesOn_writeWord
    (memory : Memory)
    (value : Nat)
    {address : Nat}
    {region : Region}
    (apart : (wordAt address).Apart region) :
    AgreesOn region memory (writeWord memory address value) :=
  agreesOn_blit memory (byteOf value) apart

/-- A word at one address is not changed by storing another one. -/
theorem readWord_writeWord_of_apart
    (memory : Memory)
    (value : Nat)
    {address other : Nat}
    (apart : (wordAt address).Apart (wordAt other)) :
    readWord (writeWord memory address value) other = readWord memory other :=
  readWord_congr (agreesOn_writeWord memory value apart)

/-- The bytes of a word in memory. -/
theorem byte_of_readWord
    {memory : Memory}
    {address value : Nat}
    (read : readWord memory address = value)
    {index : Nat}
    (indexLt : index < 8) :
    memory (address + index) = byteOf value index := by
  rw [← read, readWord, byteOf_readBytes memory address indexLt]

/-- A word of zeros is zero. -/
theorem readBytes_fill
    {memory : Memory}
    {region : Region}
    {width address : Nat}
    (within : Region.Within ⟨address, width⟩ region) :
    readBytes (fill memory region 0) address width = 0 := by
  induction width generalizing address with
  | zero => rfl
  | succ width inductionHypothesis =>
      have here : fill memory region 0 address = 0 := by
        apply if_pos
        simp only [Region.Within, Region.Contains] at within ⊢
        omega
      have rest : Region.Within ⟨address + 1, width⟩ region := by
        simp only [Region.Within] at within ⊢
        omega
      rw [readBytes, here, inductionHypothesis rest]
      rfl

theorem readWord_fill
    {memory : Memory}
    {region : Region}
    {address : Nat}
    (within : (wordAt address).Within region) :
    readWord (fill memory region 0) address = 0 :=
  readBytes_fill within

end ByteMemory
