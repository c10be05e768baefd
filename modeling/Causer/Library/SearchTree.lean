import Mathlib.Data.List.Pairwise
import Mathlib.Data.List.Perm.Basic

/-!
# Search in an ordered tree

`find` of an ordered map goes down its tree to the first entry that is not less
than the key, and takes it unless the key is less than it.  It is the search
for an entry that is neither less nor greater, if the key divides the entries:
those less than it come before the others, and those greater after the others.
No more of an order is asked, so the key need not be one of those stored.
-/

namespace OrderedSearch

/-- A binary tree of entries. -/
inductive SearchTree (Entry : Type)
  | leaf
  | node (left : SearchTree Entry) (entry : Entry) (right : SearchTree Entry)

namespace SearchTree

variable {Entry : Type}

/-- The entries from left to right. -/
def entries : SearchTree Entry → List Entry
  | leaf => []
  | node left entry right => left.entries ++ entry :: right.entries

/-- Go down to the first entry that is not below. -/
def lowerBound (below : Entry → Bool) : SearchTree Entry → Option Entry
  | leaf => none
  | node left entry right =>
      if below entry then right.lowerBound below
      else (left.lowerBound below).or (some entry)

/-- The entry that is neither below nor above, as `find` searches it. -/
def search (below above : Entry → Bool) (tree : SearchTree Entry) :
    Option Entry :=
  (tree.lowerBound below).filter fun entry => !above entry

end SearchTree

/-- The entries below come before the others, those above after the others. -/
structure Divides {Entry : Type} (below above : Entry → Bool)
    (entries : List Entry) : Prop where
  below : entries.Pairwise fun first second =>
    below second = true → below first = true
  above : entries.Pairwise fun first second =>
    above first = true → above second = true

variable {Entry : Type} {below above : Entry → Bool}

/-- The descent finds the first entry that is not below. -/
theorem SearchTree.lowerBound_eq_find
    {tree : SearchTree Entry}
    (divided : tree.entries.Pairwise fun first second =>
      below second = true → below first = true) :
    tree.lowerBound below = tree.entries.find? fun entry => !below entry := by
  induction tree with
  | leaf => rfl
  | node left entry right leftHypothesis rightHypothesis =>
      rw [entries, List.pairwise_append, List.pairwise_cons] at divided
      obtain ⟨inLeft, ⟨-, inRight⟩, across⟩ := divided
      rw [lowerBound, entries, List.find?_append]
      cases isBelow : below entry with
      | true =>
          -- All entries to the left are below, too.
          have noneLeft : left.entries.find? (fun entry => !below entry) =
              none := by
            rw [List.find?_eq_none]
            intro other member
            simp [across other member entry List.mem_cons_self isBelow]
          rw [if_pos rfl, rightHypothesis inRight, noneLeft,
            List.find?_cons_of_neg (by simp [isBelow]), Option.none_or]
      | false =>
          rw [if_neg Bool.false_ne_true, leftHypothesis inLeft,
            List.find?_cons_of_pos (by simp [isBelow])]

/-- The first entry that is not below is neither below nor above, unless all
the entries from it on are above. -/
theorem filter_find_eq
    {entries : List Entry}
    (above_mono : entries.Pairwise fun first second =>
      above first = true → above second = true) :
    (entries.find? fun entry => !below entry).filter
        (fun entry => !above entry) =
      entries.find? fun entry => !below entry && !above entry := by
  induction entries with
  | nil => rfl
  | cons entry entries inductionHypothesis =>
      rw [List.pairwise_cons] at above_mono
      cases isBelow : below entry with
      | true =>
          rw [List.find?_cons_of_neg (by simp [isBelow]),
            List.find?_cons_of_neg (by simp [isBelow]),
            inductionHypothesis above_mono.2]
      | false =>
          rw [List.find?_cons_of_pos (by simp [isBelow])]
          cases isAbove : above entry with
          | true =>
              rw [List.find?_cons_of_neg (by simp [isAbove]), Eq.comm,
                Option.filter_some, isAbove]
              refine List.find?_eq_none.mpr fun other member => ?_
              simp [above_mono.1 other member isAbove]
          | false =>
              rw [List.find?_cons_of_pos (by simp [isBelow, isAbove]),
                Option.filter_some, isAbove]
              rfl

/-- The search in the tree finds what a search through all entries finds. -/
theorem SearchTree.search_eq_find
    {tree : SearchTree Entry}
    (divides : Divides below above tree.entries) :
    tree.search below above =
      tree.entries.find? fun entry => !below entry && !above entry := by
  rw [search, lowerBound_eq_find divides.below, filter_find_eq divides.above]

/-- If no two entries fit, the order in which they are searched is of no
matter. -/
theorem find_eq_of_perm
    {first second : List Entry} {fits : Entry → Bool}
    (perm : first.Perm second)
    (unique : ∀ entry ∈ first, ∀ other ∈ first,
      fits entry = true → fits other = true → entry = other) :
    first.find? fits = second.find? fits := by
  cases found : first.find? fits with
  | none =>
      rw [List.find?_eq_none] at found
      exact (List.find?_eq_none.mpr fun entry member =>
        found entry (perm.mem_iff.mpr member)).symm
  | some entry =>
      have member := List.mem_of_find?_eq_some found
      have entryFits := List.find?_some found
      have isSome : (second.find? fits).isSome := by
        rw [List.find?_isSome]
        exact ⟨entry, perm.mem_iff.mp member, entryFits⟩
      obtain ⟨other, foundOther⟩ := Option.isSome_iff_exists.mp isSome
      have otherMember := perm.mem_iff.mpr (List.mem_of_find?_eq_some foundOther)
      rw [foundOther, unique entry member other otherMember entryFits
        (List.find?_some foundOther)]

end OrderedSearch
