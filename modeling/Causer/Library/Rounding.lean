import Mathlib.Data.Int.ConditionallyCompleteOrder
import Mathlib.Data.Int.Log
import Mathlib.Data.Rat.Floor
import Mathlib.Algebra.Order.Floor.Ring
import Mathlib.Tactic.FieldSimp
import Mathlib.Tactic.Linarith
import Mathlib.Tactic.Positivity

/-!
# Rounded arithmetic

Arithmetic on floating-point numbers is arithmetic on rational numbers whose
results are rounded.  A rounding keeps the order, and keeps the numbers that have
few enough binary digits.  To the nearest number, ties to the even one, is the
rounding of the machines; to round nothing is the exact reading of a program.
The range of the exponent is unbounded.
-/

/-- The numbers with a given number of binary digits. -/
def Representable (precision : Nat) (value : ℚ) : Prop :=
  ∃ (significand : ℤ) (exponent : ℤ),
    |significand| ≤ 2 ^ precision ∧ value = significand * 2 ^ exponent

/-- A rounding to a given number of binary digits. -/
structure Rounding (precision : Nat) where
  /-- The number that a result becomes. -/
  round : ℚ → ℚ
  monotone : Monotone round
  keeps : ∀ value, Representable precision value → round value = value

namespace Rounding

/-- Nothing is rounded. -/
def exact (precision : Nat) : Rounding precision where
  round := id
  monotone := monotone_id
  keeps := fun _ _ => rfl

@[simp] theorem exact_round (precision : Nat) (value : ℚ) :
    (exact precision).round value = value :=
  rfl

section Bounds

variable {precision : Nat} (rounding : Rounding precision) {value bound : ℚ}

/-- A bound with few enough digits is a bound of the rounded result. -/
theorem round_le
    (representable : Representable precision bound)
    (le : value ≤ bound) :
    rounding.round value ≤ bound := by
  rw [← rounding.keeps bound representable]
  exact rounding.monotone le

theorem le_round
    (representable : Representable precision bound)
    (le : bound ≤ value) :
    bound ≤ rounding.round value := by
  rw [← rounding.keeps bound representable]
  exact rounding.monotone le

end Bounds

/-- The nearest integer, the even one of two. -/
def halfToEven (value : ℚ) : ℤ :=
  if value - ⌊value⌋ < 1 / 2 ∨ value - ⌊value⌋ = 1 / 2 ∧ Even ⌊value⌋ then
    ⌊value⌋
  else ⌊value⌋ + 1

theorem floor_le_halfToEven (value : ℚ) : ⌊value⌋ ≤ halfToEven value := by
  unfold halfToEven
  split_ifs <;> omega

theorem halfToEven_le_floor_add_one (value : ℚ) :
    halfToEven value ≤ ⌊value⌋ + 1 := by
  unfold halfToEven
  split_ifs <;> omega

theorem halfToEven_intCast (value : ℤ) : halfToEven value = value := by
  simp [halfToEven]

theorem halfToEven_monotone : Monotone halfToEven := by
  intro left right ordered
  rcases (Int.floor_mono ordered).lt_or_eq with lower | same
  · calc
      halfToEven left ≤ ⌊left⌋ + 1 := halfToEven_le_floor_add_one left
      _ ≤ ⌊right⌋ := lower
      _ ≤ halfToEven right := floor_le_halfToEven right
  · by_cases down : right - ⌊right⌋ < 1 / 2 ∨
        right - ⌊right⌋ = 1 / 2 ∧ Even ⌊right⌋
    · -- the smaller one of two with the same floor is rounded down as well
      have leftDown : left - ⌊left⌋ < 1 / 2 ∨
          left - ⌊left⌋ = 1 / 2 ∧ Even ⌊left⌋ := by
        rw [same]
        rcases down with below | ⟨half, even⟩
        · exact Or.inl (by linarith)
        · rcases ordered.lt_or_eq with less | equal
          · exact Or.inl (by linarith)
          · exact Or.inr ⟨by linarith, even⟩
      rw [halfToEven, if_pos leftDown, same]
      exact floor_le_halfToEven right
    · rw [halfToEven.eq_def right, if_neg down, ← same]
      exact halfToEven_le_floor_add_one left

/-- The floor on the other side of zero of a number that is no integer. -/
theorem floor_neg_of_fraction
    {value : ℚ}
    (fraction : (⌊value⌋ : ℚ) ≠ value) :
    ⌊-value⌋ = -⌊value⌋ - 1 := by
  rw [Int.floor_eq_iff]
  have below := lt_of_le_of_ne (Int.floor_le value) fraction
  have above := Int.lt_floor_add_one value
  push_cast
  constructor <;> linarith

theorem halfToEven_neg (value : ℚ) : halfToEven (-value) = -halfToEven value := by
  by_cases whole : (⌊value⌋ : ℚ) = value
  · rw [← whole, ← Int.cast_neg, halfToEven_intCast, halfToEven_intCast]
  · have floor := floor_neg_of_fraction whole
    have rest : -value - ((-⌊value⌋ - 1 : ℤ) : ℚ) = 1 - (value - ⌊value⌋) := by
      push_cast
      ring
    rw [halfToEven, floor, rest, halfToEven.eq_def value]
    rcases lt_trichotomy (value - ⌊value⌋) (1 / 2) with low | half | high
    · rw [if_pos (Or.inl low), if_neg]
      · ring
      · rintro (less | ⟨equal, -⟩) <;> linarith
    · by_cases even : Even ⌊value⌋
      · rw [if_neg, if_pos (Or.inr ⟨half, even⟩)]
        · ring
        · rintro (less | ⟨-, other⟩)
          · linarith
          · exact Int.not_even_iff_odd.mpr (even.neg.sub_odd odd_one) other
      · rw [if_pos, if_neg]
        · ring
        · rintro (less | ⟨-, other⟩)
          · linarith
          · exact even other
        · refine Or.inr ⟨by linarith, ?_⟩
          exact (Int.not_even_iff_odd.mp even).neg.sub_odd odd_one
    · rw [if_pos (Or.inl (by linarith)), if_neg]
      · ring
      · rintro (less | ⟨equal, -⟩) <;> linarith

/-- The distance of the numbers with the given number of digits about a value. -/
def ulp (precision : Nat) (value : ℚ) : ℚ :=
  2 ^ (Int.log 2 |value| + 1 - precision)

/-- The nearest number with the given number of digits. -/
def nearest (precision : Nat) (value : ℚ) : ℚ :=
  halfToEven (value / ulp precision value) * ulp precision value

theorem ulp_pos (precision : Nat) (value : ℚ) : 0 < ulp precision value :=
  zpow_pos two_pos _

section Nearest

variable {precision : Nat} {value : ℚ}

/-- Multiples of the distance bound what they bound. -/
theorem le_nearest (multiple : ℤ)
    (bound : multiple * ulp precision value ≤ value) :
    multiple * ulp precision value ≤ nearest precision value := by
  have positive := ulp_pos precision value
  have scaled : (multiple : ℚ) ≤ value / ulp precision value :=
    (le_div_iff₀ positive).mpr bound
  have rounded := halfToEven_monotone scaled
  rw [halfToEven_intCast] at rounded
  exact mul_le_mul_of_nonneg_right (by exact_mod_cast rounded) positive.le

theorem nearest_le (multiple : ℤ)
    (bound : value ≤ multiple * ulp precision value) :
    nearest precision value ≤ multiple * ulp precision value := by
  have positive := ulp_pos precision value
  have scaled : value / ulp precision value ≤ (multiple : ℚ) :=
    (div_le_iff₀ positive).mpr bound
  have rounded := halfToEven_monotone scaled
  rw [halfToEven_intCast] at rounded
  exact mul_le_mul_of_nonneg_right (by exact_mod_cast rounded) positive.le

theorem nearest_nonneg (nonneg : 0 ≤ value) : 0 ≤ nearest precision value := by
  simpa using le_nearest 0 (by simpa using nonneg)

theorem nearest_nonpos (nonpos : value ≤ 0) : nearest precision value ≤ 0 := by
  simpa using nearest_le 0 (by simpa using nonpos)

/-- The powers of two about a value are multiples of the distance. -/
theorem two_pow_mul_ulp (precision : Nat) (value : ℚ) :
    ((2 ^ precision : ℤ) : ℚ) * ulp precision value =
      2 ^ (Int.log 2 |value| + 1) := by
  push_cast
  rw [ulp, ← zpow_natCast, ← zpow_add₀ two_ne_zero]
  congr 1
  omega

theorem half_two_pow_mul_ulp (digits : 0 < precision) (value : ℚ) :
    ((2 ^ (precision - 1) : ℤ) : ℚ) * ulp precision value =
      2 ^ Int.log 2 |value| := by
  push_cast
  rw [ulp, ← zpow_natCast, ← zpow_add₀ two_ne_zero]
  congr 1
  omega

/-- Where a value lies between two powers of two. -/
theorem two_pow_log_le (nonzero : value ≠ 0) :
    (2 : ℚ) ^ Int.log 2 |value| ≤ |value| := by
  exact_mod_cast Int.zpow_log_le_self (b := 2) one_lt_two (abs_pos.mpr nonzero)

theorem lt_two_pow_log (value : ℚ) :
    |value| < (2 : ℚ) ^ (Int.log 2 |value| + 1) := by
  exact_mod_cast Int.lt_zpow_succ_log_self (b := 2) one_lt_two |value|

/-- The order is kept among positive numbers. -/
theorem nearest_le_nearest_of_pos {left right : ℚ}
    (digits : 0 < precision) (positive : 0 < left) (ordered : left ≤ right) :
    nearest precision left ≤ nearest precision right := by
  have rightPositive : 0 < right := positive.trans_le ordered
  have logs : Int.log 2 |left| ≤ Int.log 2 |right| :=
    Int.log_mono_right (abs_pos.mpr positive.ne')
      (by rwa [abs_of_pos positive, abs_of_pos rightPositive])
  rcases logs.lt_or_eq with lower | same
  · -- a power of two stands between them
    calc
      nearest precision left ≤ 2 ^ (Int.log 2 |left| + 1) := by
        rw [← two_pow_mul_ulp precision left]
        apply nearest_le
        rw [two_pow_mul_ulp]
        exact (le_abs_self left).trans (lt_two_pow_log left).le
      _ ≤ 2 ^ Int.log 2 |right| := zpow_le_zpow_right₀ one_le_two lower
      _ ≤ nearest precision right := by
        rw [← half_two_pow_mul_ulp digits right]
        apply le_nearest
        rw [half_two_pow_mul_ulp digits]
        exact (two_pow_log_le rightPositive.ne').trans_eq
          (abs_of_pos rightPositive)
  · have distance : ulp precision left = ulp precision right := by
      rw [ulp, ulp, same]
    have scaled : left / ulp precision right ≤ right / ulp precision right :=
      div_le_div_of_nonneg_right ordered (ulp_pos precision right).le
    rw [nearest, nearest, distance]
    exact mul_le_mul_of_nonneg_right
      (by exact_mod_cast halfToEven_monotone scaled) (ulp_pos precision right).le

theorem nearest_neg (precision : Nat) (value : ℚ) :
    nearest precision (-value) = -nearest precision value := by
  rw [nearest, nearest, ulp, abs_neg, ← ulp, neg_div, halfToEven_neg]
  push_cast
  ring

theorem nearest_monotone (digits : 0 < precision) :
    Monotone (nearest precision) := by
  intro left right ordered
  rcases lt_trichotomy left 0 with negative | rfl | positive
  · rcases lt_or_ge right 0 with rightNegative | nonneg
    · -- both are below zero
      have opposite := nearest_le_nearest_of_pos digits
        (neg_pos.mpr rightNegative) (neg_le_neg ordered)
      rw [nearest_neg, nearest_neg] at opposite
      exact neg_le_neg_iff.mp opposite
    · exact (nearest_nonpos negative.le).trans (nearest_nonneg nonneg)
  · exact (nearest_nonpos le_rfl).trans (nearest_nonneg ordered)
  · exact nearest_le_nearest_of_pos digits positive ordered

/-- A multiple of its distance is kept. -/
theorem nearest_of_multiple (multiple : ℤ)
    (equal : value = multiple * ulp precision value) :
    nearest precision value = value :=
  le_antisymm ((nearest_le multiple equal.le).trans_eq equal.symm)
    (equal.le.trans (le_nearest multiple equal.ge))

theorem nearest_of_representable
    (digits : 0 < precision)
    (representable : Representable precision value) :
    nearest precision value = value := by
  obtain ⟨significand, exponent, small, equal⟩ := representable
  by_cases zero : value = 0
  · exact nearest_of_multiple 0 (by simp [zero])
  have nonzero : (0 : ℚ) < 2 ^ exponent := zpow_pos two_pos _
  rcases le_or_gt (Int.log 2 |value| + 1 - precision) exponent with
    fine | coarse
  · -- the exponent is that of a multiple
    refine nearest_of_multiple
      (significand *
        2 ^ (exponent - (Int.log 2 |value| + 1 - precision)).toNat) ?_
    have exponents :
        (2 : ℚ) ^ exponent =
          2 ^ (exponent - (Int.log 2 |value| + 1 - precision)).toNat *
            ulp precision value := by
      rw [ulp, ← zpow_natCast, ← zpow_add₀ two_ne_zero]
      congr 1
      omega
    push_cast
    rw [mul_assoc, ← exponents]
    exact equal
  · -- the value is a power of two itself
    have bound : |value| ≤ 2 ^ Int.log 2 |value| := by
      have smallCast : (|significand| : ℚ) ≤ 2 ^ precision := by
        exact_mod_cast small
      calc
        |value| = |(significand : ℚ)| * 2 ^ exponent := by
          rw [equal, abs_mul, abs_of_pos nonzero]
        _ ≤ 2 ^ precision * 2 ^ exponent :=
          mul_le_mul_of_nonneg_right (by exact_mod_cast smallCast) nonzero.le
        _ = 2 ^ ((precision : ℤ) + exponent) := by
          rw [← zpow_natCast, ← zpow_add₀ two_ne_zero]
        _ ≤ 2 ^ Int.log 2 |value| :=
          zpow_le_zpow_right₀ one_le_two (by omega)
    have power : |value| = 2 ^ Int.log 2 |value| :=
      le_antisymm bound (two_pow_log_le zero)
    rw [← half_two_pow_mul_ulp digits] at power
    rcases abs_choice value with same | opposite
    · exact nearest_of_multiple _ (same.symm.trans power)
    · refine nearest_of_multiple (-2 ^ (precision - 1)) ?_
      rw [Int.cast_neg, neg_mul, ← power, opposite, neg_neg]

end Nearest

/-- To the nearest number, ties to the even one. -/
def toNearest (precision : Nat) (digits : 0 < precision) :
    Rounding precision where
  round := nearest precision
  monotone := nearest_monotone digits
  keeps := fun _ representable => nearest_of_representable digits representable

end Rounding
