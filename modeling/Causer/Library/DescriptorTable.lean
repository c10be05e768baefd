import Mathlib.Data.List.Basic

/-!
# Descriptor tables

A descriptor table assigns an entry to finitely many natural numbers.  The
bound above which no number is assigned is part of the structure, so that every
table has a free number and the lowest free one can be computed.
-/

/-- A finite assignment of entries to descriptor numbers. -/
structure DescriptorTable (Entry : Type*) where
  /-- The entry of a number, if the number is assigned. -/
  lookup : Nat → Option Entry
  /-- No number from here on is assigned. -/
  bound : Nat
  /-- The bound is a bound. -/
  lookup_of_bound_le : ∀ number, bound ≤ number → lookup number = none

namespace DescriptorTable

variable {Entry : Type*}

/-- The table with no assigned number. -/
def empty : DescriptorTable Entry where
  lookup := fun _ => none
  bound := 0
  lookup_of_bound_le := fun _ _ => rfl

/-- Assign an entry to one number. -/
def insert (table : DescriptorTable Entry)
    (number : Nat) (entry : Entry) : DescriptorTable Entry where
  lookup := fun other =>
    if other = number then some entry else table.lookup other
  bound := max table.bound (number + 1)
  lookup_of_bound_le := by
    intro other above
    rw [if_neg (by omega)]
    exact table.lookup_of_bound_le other (by omega)

/-- Release one number. -/
def erase (table : DescriptorTable Entry)
    (number : Nat) : DescriptorTable Entry where
  lookup := fun other =>
    if other = number then none else table.lookup other
  bound := table.bound
  lookup_of_bound_le := by
    intro other above
    split
    · rfl
    · exact table.lookup_of_bound_le other above

@[simp] theorem lookup_insert_self
    (table : DescriptorTable Entry) (number : Nat) (entry : Entry) :
    (table.insert number entry).lookup number = some entry :=
  if_pos rfl

@[simp] theorem lookup_insert_of_ne
    (table : DescriptorTable Entry) {number other : Nat} (entry : Entry)
    (different : other ≠ number) :
    (table.insert number entry).lookup other = table.lookup other :=
  if_neg different

@[simp] theorem lookup_erase_self
    (table : DescriptorTable Entry) (number : Nat) :
    (table.erase number).lookup number = none :=
  if_pos rfl

@[simp] theorem lookup_erase_of_ne
    (table : DescriptorTable Entry) {number other : Nat}
    (different : other ≠ number) :
    (table.erase number).lookup other = table.lookup other :=
  if_neg different

/-- The least number without an entry. -/
def lowestFree (table : DescriptorTable Entry) : Nat :=
  ((List.range table.bound).find? fun number =>
    (table.lookup number).isNone).getD table.bound

/-- The least free number is free. -/
theorem lookup_lowestFree (table : DescriptorTable Entry) :
    table.lookup table.lowestFree = none := by
  unfold lowestFree
  cases found : (List.range table.bound).find? fun number =>
      (table.lookup number).isNone with
  | none => exact table.lookup_of_bound_le _ (Nat.le_refl _)
  | some number =>
      have isFree := List.find?_some found
      simpa using isFree

end DescriptorTable
