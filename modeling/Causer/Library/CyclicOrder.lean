import Mathlib.Algebra.Group.Fin.Basic
import Mathlib.Algebra.GroupWithZero.Nat

/-!
# The first position in cyclic order

The positions of a table are visited from a start on, and the last one is
followed by the first.  The position that comes after `offset` others is
`start + offset`.
-/

namespace CyclicOrder

variable {size : Nat} [NeZero size]

/-- The position has a property, and none that is visited before it has. -/
def First (start : Fin size) (P : Fin size → Prop) (position : Fin size) :
    Prop :=
  P position ∧ ∀ earlier, earlier - start < position - start → ¬P earlier

/-- The position that is visited after some others. -/
def visited (start : Fin size) (offset : Nat) : Fin size :=
  start + Fin.ofNat size offset

@[simp] theorem visited_zero (start : Fin size) : visited start 0 = start :=
  Fin.add_zero start

/-- A visit that starts one position later is one ahead. -/
theorem visited_succ (start : Fin size) (offset : Nat) :
    visited start (offset + 1) = visited (start + 1) offset := by
  have split : Fin.ofNat size (offset + 1) = 1 + Fin.ofNat size offset := by
    rw [Nat.add_comm]
    apply Fin.ext
    simp [Fin.val_add]
  unfold visited
  rw [split, add_assoc]

/-- Every position is visited after the others in between. -/
theorem visited_sub (start position : Fin size) :
    visited start (position - start).val = position := by
  unfold visited
  rw [Fin.ofNat_val_eq_self]
  exact add_sub_cancel ..

/-- The first `size` visits go to different positions. -/
theorem val_visited_sub
    (start : Fin size)
    {offset : Nat}
    (small : offset < size) :
    (visited start offset - start).val = offset := by
  unfold visited
  rw [add_sub_cancel_left]
  exact Nat.mod_eq_of_lt small

variable {start : Fin size} {P : Fin size → Prop}

/-- A visit is the first one when the earlier visits are not to such a
position. -/
theorem first_visited
    {offset : Nat}
    (small : offset < size)
    (has : P (visited start offset))
    (before : ∀ earlier < offset, ¬P (visited start earlier)) :
    First start P (visited start offset) := by
  refine ⟨has, fun earlier lower => ?_⟩
  rw [Fin.lt_def, val_visited_sub start small] at lower
  have missed := before _ lower
  rwa [visited_sub] at missed

end CyclicOrder
