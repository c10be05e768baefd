import Causer.Library.ByteMemory

/-!
# Strings in memory

A string is a list of bytes other than zero with a zero byte after it.  The
functions on strings read and write single bytes; which ones they may is made
explicit, and an access anywhere else has no result.  A function that has a
result under the smallest rights therefore touches nothing else.
-/

namespace CString

open ByteMemory

/-- The regions that a function may read and those that it may write. -/
structure Access where
  readable : List Region
  writable : List Region

/-- The address lies in one of the regions. -/
def Permits (regions : List Region) (address : Nat) : Prop :=
  ∃ region ∈ regions, region.Contains address

instance (regions : List Region) (address : Nat) :
    Decidable (Permits regions address) :=
  inferInstanceAs (Decidable (∃ region ∈ regions, region.Contains address))

/-- Every address of the region is permitted. -/
def Covers (regions : List Region) (region : Region) : Prop :=
  ∀ address, region.Contains address → Permits regions address

theorem covers_of_mem
    {regions : List Region}
    {region : Region}
    (member : region ∈ regions) :
    Covers regions region :=
  fun _ contains => ⟨region, member, contains⟩

theorem Covers.of_within
    {regions : List Region}
    {inner outer : Region}
    (covers : Covers regions outer)
    (within : inner.Within outer) :
    Covers regions inner :=
  fun address contains => covers address (within.contains contains)

/-- The first address of a region. -/
theorem Covers.head
    {regions : List Region}
    {start length : Nat}
    (covers : Covers regions ⟨start, length + 1⟩) :
    Permits regions start :=
  covers start ⟨le_rfl, by simp⟩

/-- The addresses after the first one. -/
theorem Covers.tail
    {regions : List Region}
    {start length : Nat}
    (covers : Covers regions ⟨start, length + 1⟩) :
    Covers regions ⟨start + 1, length⟩ := by
  apply covers.of_within
  simp only [Region.Within]
  omega

namespace Access

variable (access : Access)

/-- Read a byte. -/
def load (memory : Memory) (address : Nat) : Option UInt8 :=
  if Permits access.readable address then some (memory address) else none

/-- Write a byte. -/
def store (memory : Memory) (address : Nat) (byte : UInt8) : Option Memory :=
  if Permits access.writable address then
    some (Function.update memory address byte)
  else none

variable {access}

theorem load_of_permits
    {memory : Memory}
    {address : Nat}
    (permits : Permits access.readable address) :
    access.load memory address = some (memory address) :=
  if_pos permits

theorem store_of_permits
    {memory : Memory}
    {address : Nat}
    {byte : UInt8}
    (permits : Permits access.writable address) :
    access.store memory address byte =
      some (Function.update memory address byte) :=
  if_pos permits

end Access

/-- Storing a byte leaves every region without its address. -/
theorem agreesOn_update
    (memory : Memory)
    (byte : UInt8)
    {address : Nat}
    {region : Region}
    (outside : ¬region.Contains address) :
    AgreesOn region memory (Function.update memory address byte) := by
  intro other contains
  rw [Function.update_of_ne]
  rintro rfl
  exact outside contains

/-- The bytes of a region, written from its first one on. -/
theorem blit_cons
    (memory : Memory)
    (start length : Nat)
    (bytes : Nat → UInt8) :
    blit (Function.update memory start (bytes 0)) ⟨start + 1, length⟩
        (fun offset => bytes (offset + 1)) =
      blit memory ⟨start, length + 1⟩ bytes := by
  funext address
  by_cases contains : Region.Contains ⟨start, length + 1⟩ address
  · obtain ⟨offset, rfl⟩ := Nat.exists_eq_add_of_le contains.1
    have offsetLt : offset < length + 1 := Nat.add_lt_add_iff_left.mp contains.2
    have here : blit memory ⟨start, length + 1⟩ bytes (start + offset) =
        bytes offset :=
      blit_of_lt memory bytes offsetLt
    rw [here]
    cases offset with
    | zero =>
        rw [blit_of_not_contains, Nat.add_zero, Function.update_self]
        simp [Region.Contains]
    | succ offset =>
        rw [show start + (offset + 1) = start + 1 + offset by omega]
        exact blit_of_lt _ (fun offset => bytes (offset + 1))
          (Nat.lt_of_succ_lt_succ offsetLt)
  · have outside : ¬Region.Contains ⟨start + 1, length⟩ address := by
      simp only [Region.Contains] at contains ⊢
      omega
    rw [blit_of_not_contains _ _ contains, blit_of_not_contains _ _ outside,
      Function.update_of_ne]
    rintro rfl
    exact contains ⟨le_rfl, by simp⟩

/-- No bytes are written to an empty region. -/
@[simp] theorem blit_empty
    (memory : Memory)
    (start : Nat)
    (bytes : Nat → UInt8) :
    blit memory ⟨start, 0⟩ bytes = memory := by
  funext address
  apply blit_of_not_contains
  simp only [Region.Contains]
  omega

/-- Only the bytes inside the region count. -/
theorem blit_congr
    (memory : Memory)
    {region : Region}
    {first second : Nat → UInt8}
    (same : ∀ offset < region.length, first offset = second offset) :
    blit memory region first = blit memory region second := by
  funext address
  by_cases contains : region.Contains address
  · rw [blit, blit, if_pos contains, if_pos contains]
    apply same
    have := contains.1
    have := contains.2
    omega
  · rw [blit_of_not_contains memory first contains,
      blit_of_not_contains memory second contains]

/-- The string at an address. -/
def IsString (memory : Memory) : Nat → List UInt8 → Prop
  | address, [] => memory address = 0
  | address, byte :: rest =>
      byte ≠ 0 ∧ memory address = byte ∧ IsString memory (address + 1) rest

instance (memory : Memory) :
    ∀ address text, Decidable (IsString memory address text)
  | address, [] => inferInstanceAs (Decidable (memory address = 0))
  | address, byte :: rest =>
      haveI := instDecidableIsString memory (address + 1) rest
      inferInstanceAs
        (Decidable (byte ≠ 0 ∧ memory address = byte ∧
          IsString memory (address + 1) rest))

/-- The bytes that a string takes, with the one that ends it. -/
abbrev stringAt (address : Nat) (text : List UInt8) : Region :=
  ⟨address, text.length + 1⟩

section

variable {memory later : Memory} {address : Nat} {text : List UInt8}

theorem IsString.of_agreesOn
    (isString : IsString memory address text)
    (agrees : AgreesOn (stringAt address text) memory later) :
    IsString later address text := by
  induction text generalizing address with
  | nil => exact (agrees address ⟨le_rfl, by simp⟩).trans isString
  | cons byte rest inductionHypothesis =>
      obtain ⟨nonzero, here, following⟩ := isString
      have kept := agrees address ⟨le_rfl, by simp⟩
      refine ⟨nonzero, kept.trans here, inductionHypothesis following ?_⟩
      apply agrees.of_within
      simp only [Region.Within, List.length_cons]
      omega

/-- The bytes of a string and the zero after it. -/
theorem IsString.byte
    (isString : IsString memory address text)
    {offset : Nat}
    (offsetLe : offset ≤ text.length) :
    memory (address + offset) = text.getD offset 0 := by
  induction text generalizing address offset with
  | nil =>
      obtain rfl : offset = 0 := Nat.le_zero.mp offsetLe
      exact isString
  | cons byte rest inductionHypothesis =>
      obtain ⟨_, here, following⟩ := isString
      cases offset with
      | zero => exact here
      | succ offset =>
          rw [show address + (offset + 1) = address + 1 + offset by omega,
            inductionHypothesis following (Nat.le_of_succ_le_succ offsetLe),
            List.getD_cons_succ]

theorem IsString.nonzero
    (isString : IsString memory address text) :
    0 ∉ text := by
  induction text generalizing address with
  | nil => exact List.not_mem_nil
  | cons byte rest inductionHypothesis =>
      rw [List.mem_cons, not_or]
      exact ⟨isString.1.symm, inductionHypothesis isString.2.2⟩

/-- Writing a text and the zero after it makes a string. -/
theorem isString_of_bytes
    (nonzero : 0 ∉ text)
    (bytes : ∀ offset ≤ text.length,
      memory (address + offset) = text.getD offset 0) :
    IsString memory address text := by
  induction text generalizing address with
  | nil => exact bytes 0 le_rfl
  | cons byte rest inductionHypothesis =>
      rw [List.mem_cons, not_or] at nonzero
      refine ⟨Ne.symm nonzero.1, bytes 0 (Nat.zero_le _), ?_⟩
      apply inductionHypothesis nonzero.2
      intro offset offsetLe
      have shifted := bytes (offset + 1) (Nat.succ_le_succ offsetLe)
      rwa [List.getD_cons_succ,
        show address + (offset + 1) = address + 1 + offset by omega] at shifted

/-- Copying the bytes of a string writes them and the zero after it. -/
theorem IsString.copy_eq
    (isString : IsString memory address text)
    (destination : Nat) :
    copy memory destination address (text.length + 1) =
      blit memory (stringAt destination text)
        fun offset => text.getD offset 0 :=
  blit_congr memory fun _ offsetLt =>
    isString.byte (Nat.le_of_lt_succ offsetLt)

/-- What is written as a string can be read as one. -/
theorem isString_blit
    (memory : Memory)
    (address : Nat)
    (nonzero : 0 ∉ text) :
    IsString
      (blit memory (stringAt address text) fun offset => text.getD offset 0)
      address text :=
  isString_of_bytes nonzero fun _ offsetLe =>
    blit_of_lt memory (fun offset => text.getD offset 0)
      (Nat.lt_succ_of_le offsetLe : _ < (stringAt address text).length)

end

/-- The bytes before the first zero, `bound` of them at most. -/
def textWithin (memory : Memory) : Nat → Nat → List UInt8
  | 0, _ => []
  | bound + 1, address =>
      if memory address = 0 then []
      else memory address :: textWithin memory bound (address + 1)

/-- The bytes that have to be read to find that text. -/
abbrev textRegion (memory : Memory) (bound address : Nat) : Region :=
  ⟨address, min bound ((textWithin memory bound address).length + 1)⟩

section

variable {memory later : Memory} {bound address : Nat} {text : List UInt8}

/-- The part of a string within a bound. -/
theorem IsString.textWithin_eq
    (isString : IsString memory address text)
    (bound : Nat) :
    textWithin memory bound address = text.take bound := by
  induction bound generalizing address text with
  | zero => rw [textWithin, List.take_zero]
  | succ bound inductionHypothesis =>
      cases text with
      | nil =>
          have ended : memory address = 0 := isString
          rw [textWithin, if_pos ended, List.take_nil]
      | cons byte rest =>
          obtain ⟨nonzero, here, following⟩ := isString
          rw [textWithin, here, if_neg nonzero, List.take_succ_cons,
            inductionHypothesis following]

/-- The text depends on the bytes that have to be read. -/
theorem textWithin_congr
    (agrees : AgreesOn (textRegion memory bound address) memory later) :
    textWithin later bound address = textWithin memory bound address := by
  induction bound generalizing address with
  | zero => rfl
  | succ bound inductionHypothesis =>
      have kept : later address = memory address := by
        apply agrees
        simp [Region.Contains]
      rw [textWithin, textWithin, kept]
      split
      · rfl
      · rename_i nonzero
        rw [inductionHypothesis]
        apply agrees.of_within
        simp only [Region.Within, textWithin, if_neg nonzero, List.length_cons]
        omega

end

end CString
