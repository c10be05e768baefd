import Mathlib.Data.Nat.Bits
import Mathlib.Algebra.Order.Ring.Nat

/-!
# Unsigned arithmetic of 64 bits

The operators of `size_t` on natural numbers, and what the usual mask
`(size + (alignment - 1)) & ~(alignment - 1)` computes for an alignment that is
a power of two: the least multiple of the alignment that is not below the size.
-/

namespace WordArithmetic

/-- Sum of two words. -/
def add (first second : Nat) : Nat := (first + second) % 2 ^ 64

/-- Difference of two words. -/
def sub (first second : Nat) : Nat := (first + (2 ^ 64 - second)) % 2 ^ 64

/-- Product of two words. -/
def mul (first second : Nat) : Nat := first * second % 2 ^ 64

/-- The bits that a word does not have. -/
def complement (word : Nat) : Nat := 2 ^ 64 - (word + 1)

theorem add_of_lt
    {first second : Nat}
    (noWrap : first + second < 2 ^ 64) :
    add first second = first + second :=
  Nat.mod_eq_of_lt noWrap

theorem sub_of_le
    {first second : Nat}
    (ordered : second ≤ first)
    (firstLt : first < 2 ^ 64) :
    sub first second = first - second := by
  unfold sub
  omega

/-- Masking with the complement of the low bits clears them. -/
theorem land_complement_low
    {word : Nat}
    (wordLt : word < 2 ^ 64)
    {bits : Nat}
    (bitsLe : bits ≤ 64) :
    word &&& complement (2 ^ bits - 1) = word / 2 ^ bits * 2 ^ bits := by
  have lowLt : 2 ^ bits - 1 < 2 ^ 64 := by
    have := Nat.pow_le_pow_right (n := 2) (by omega) bitsLe
    omega
  apply Nat.eq_of_testBit_eq
  intro index
  rw [Nat.testBit_and, complement, Nat.testBit_two_pow_sub_succ lowLt,
    Nat.testBit_two_pow_sub_one, ← Nat.shiftLeft_eq, ← Nat.shiftRight_eq_div_pow,
    Nat.testBit_shiftLeft, Nat.testBit_shiftRight]
  by_cases low : index < bits
  · simp [low]
  · have shifted : bits + (index - bits) = index := by omega
    simp only [low, decide_false, Bool.not_false, Bool.and_true, ge_iff_le,
      Nat.le_of_not_lt low, decide_true, Bool.true_and, shifted]
    by_cases high : index < 64
    · simp [high]
    · have clear : word.testBit index = false := by
        apply Nat.testBit_lt_two_pow
        exact wordLt.trans_le (Nat.pow_le_pow_right (by omega) (by omega))
      rw [clear, Bool.false_and]

/-- Round a size up to a multiple of the alignment. -/
def alignup (size alignment : Nat) : Nat :=
  sub (add size alignment) 1 &&& complement (sub alignment 1)

/-- Rounding up to a power of two. -/
theorem alignup_of_isPowerOfTwo
    {size alignment : Nat}
    (power : alignment.isPowerOfTwo)
    (sizePos : 0 < size)
    (noWrap : size + alignment < 2 ^ 64) :
    alignup size alignment =
      (size + alignment - 1) / alignment * alignment := by
  obtain ⟨bits, rfl⟩ := power
  have positive := Nat.two_pow_pos bits
  have bitsLe : bits ≤ 64 := by
    by_contra above
    have := Nat.pow_le_pow_right (n := 2) (by omega) (Nat.le_of_not_le above)
    omega
  rw [alignup, add_of_lt noWrap, sub_of_le (by omega) noWrap,
    sub_of_le (by omega) (by omega),
    land_complement_low (by omega) bitsLe]

/-- Rounding up to a power of two gives a multiple of it that is not below the
size and exceeds it by less than the alignment. -/
theorem alignup_spec
    {size alignment : Nat}
    (power : alignment.isPowerOfTwo)
    (sizePos : 0 < size)
    (noWrap : size + alignment < 2 ^ 64) :
    alignment ∣ alignup size alignment ∧
      size ≤ alignup size alignment ∧
      alignup size alignment < size + alignment := by
  have alignmentPos := Nat.pos_of_isPowerOfTwo power
  rw [alignup_of_isPowerOfTwo power sizePos noWrap]
  have split := Nat.div_add_mod' (size + alignment - 1) alignment
  have remainder := Nat.mod_lt (size + alignment - 1) alignmentPos
  refine ⟨Nat.dvd_mul_left _ _, ?_, ?_⟩
  · omega
  · omega

end WordArithmetic
