import Causer.HashMap
import Mathlib.Data.List.Perm.Basic

/-!
# Going through a hash map

The iterator stands at an entry and knows its bucket.  It follows the ring of the
bucket to its tail and then looks for the next bucket whose count is not zero.
A loop from `begin` to `end` visits every entry once, bucket by bucket.
-/

namespace Causer

/-- `iterator`.  The end has no entry. -/
structure Iterator where
  entry : Option EntryAddress
  pos : Nat

namespace HashMap

variable {Key Value : Type}

/-- `getFirstEntry`.  It fails when there is none but the bucket itself. -/
def getFirstEntry (map : HashMap Key Value) (bucket : Nat) :
    Option EntryAddress :=
  match map.links.next (.head bucket) with
  | .entry address => some address
  | .head _ => none

/-- The search for a bucket with entries among the remaining ones. -/
def seek (map : HashMap Key Value) : Nat → Nat → Option Iterator
  | 0, _ => some ⟨none, 0⟩
  | remaining + 1, pos =>
      if map.count pos ≠ 0 then
        (map.getFirstEntry pos).map fun address => ⟨some address, pos⟩
      else seek map remaining (pos + 1)

/-- `begin`. -/
def first (map : HashMap Key Value) : Option Iterator :=
  seek map map.buckets 0

/-- `operator++`, at an entry. -/
def advance (map : HashMap Key Value) (address : EntryAddress) (pos : Nat) :
    Option Iterator :=
  if Ring.isTail map.links (.entry address) (.head pos) then
    seek map (map.buckets - (pos + 1)) (pos + 1)
  else
    match map.links.next (.entry address) with
    | .entry following => some ⟨some following, pos⟩
    | .head _ => none

/-- The entries that a loop visits until the end, for a number of steps. -/
def visit (map : HashMap Key Value) :
    Nat → Iterator → Option (List EntryAddress)
  | _, ⟨none, _⟩ => some []
  | 0, ⟨some _, _⟩ => none
  | steps + 1, ⟨some address, pos⟩ => do
      let iterator ← map.advance address pos
      let later ← visit map steps iterator
      some (address :: later)

/-- The entries that a loop from `begin` to `end` visits. -/
def visited (map : HashMap Key Value) : Option (List EntryAddress) := do
  let iterator ← map.first
  visit map map.totalEntry iterator

/-- An entry is on the ring of a bucket. -/
def Stored (map : HashMap Key Value) (address : EntryAddress) : Prop :=
  ∃ bucket < map.buckets, ∃ addresses : List EntryAddress,
    Ring.IsRing map.links (.head bucket) (addresses.map .entry) ∧
      address ∈ addresses

section Visits

variable {functions : HashFunctions Key Value} {map : HashMap Key Value}
variable {bindings : List (MapBinding Key Value)}

/-- The bindings of the remaining buckets from one on. -/
def bucketsFrom (functions : HashFunctions Key Value) (map : HashMap Key Value)
    (bindings : List (MapBinding Key Value)) (remaining pos : Nat) :
    List (MapBinding Key Value) :=
  (List.range' pos remaining).flatMap fun bucket =>
    inBucket functions map bucket bindings

/-- The entries that are still to be visited. -/
def Remaining (functions : HashFunctions Key Value) (map : HashMap Key Value)
    (bindings : List (MapBinding Key Value)) (iterator : Iterator)
    (rest : List EntryAddress) : Prop :=
  match iterator.entry with
  | none => rest = []
  | some address =>
      ∃ here : List EntryAddress, iterator.pos < map.buckets ∧
        (BucketNode.entry address :: here.map BucketNode.entry ++
          [BucketNode.head iterator.pos]).IsChain (Ring.Linked map.links) ∧
        rest = address :: here ++
          (bucketsFrom functions map bindings
            (map.buckets - (iterator.pos + 1)) (iterator.pos + 1)).map
              FiniteMap.Binding.address

/-- The entries on the rings are those of the bindings. -/
theorem Laid.stored_iff
    (laid : Laid functions map bindings)
    {address : EntryAddress} :
    Stored map address ↔
      ∃ binding ∈ bindings, binding.address = address := by
  constructor
  · rintro ⟨bucket, inside, addresses, ring, member⟩
    have same := ring.unique (laid.ring bucket inside)
    have listed : BucketNode.entry address ∈ addresses.map .entry :=
      List.mem_map_of_mem member
    rw [same, List.map_map, List.mem_map] at listed
    obtain ⟨binding, inBucket, sameAddress⟩ := listed
    rw [Function.comp_apply, BucketNode.entry.injEq] at sameAddress
    exact ⟨binding, List.mem_of_mem_filter inBucket, sameAddress⟩
  · rintro ⟨binding, member, rfl⟩
    have inside := laid.hashIndex_lt binding.key.1 binding.key.2
    refine ⟨_, inside, _, laid.ring _ inside, ?_⟩
    apply List.mem_map_of_mem
    exact List.mem_filter.mpr ⟨member, decide_eq_true rfl⟩

/-- The count of a bucket says whether it has entries. -/
theorem Laid.count_eq_zero_iff
    (laid : Laid functions map bindings)
    (fits : bindings.length < 2 ^ 64)
    {bucket : Nat}
    (inside : bucket < map.buckets) :
    map.count bucket = 0 ↔ inBucket functions map bucket bindings = [] := by
  have short : (inBucket functions map bucket bindings).length ≤
      bindings.length := List.length_filter_le ..
  rw [laid.count bucket inside, Nat.mod_eq_of_lt (by omega),
    List.length_eq_zero_iff]

/-- The search stops at the first entry of the remaining buckets. -/
theorem Laid.seek_eq
    (laid : Laid functions map bindings)
    (fits : bindings.length < 2 ^ 64)
    {remaining pos : Nat}
    (total : pos + remaining = map.buckets) :
    ∃ iterator, map.seek remaining pos = some iterator ∧
      Remaining functions map bindings iterator
        ((bucketsFrom functions map bindings remaining pos).map
          FiniteMap.Binding.address) := by
  induction remaining generalizing pos with
  | zero => exact ⟨⟨none, 0⟩, rfl, rfl⟩
  | succ remaining inductionHypothesis =>
      have inside : pos < map.buckets := by omega
      have split : bucketsFrom functions map bindings (remaining + 1) pos =
          inBucket functions map pos bindings ++
            bucketsFrom functions map bindings remaining (pos + 1) := by
        rw [bucketsFrom, List.range'_succ, List.flatMap_cons, bucketsFrom]
      have ring := (laid.ring pos inside).chain
      rw [split, List.map_append, seek]
      cases held : inBucket functions map pos bindings with
      | nil =>
          rw [if_neg (not_not.mpr
            ((laid.count_eq_zero_iff fits inside).mpr held))]
          exact inductionHypothesis (by omega)
      | cons binding others =>
          have counted : map.count pos ≠ 0 := by
            intro none_counted
            rw [laid.count_eq_zero_iff fits inside, held] at none_counted
            exact absurd none_counted (List.cons_ne_nil _ _)
          rw [held] at ring
          simp only [List.map_cons, List.cons_append,
            List.isChain_cons_cons] at ring
          have start : map.getFirstEntry pos = some binding.address := by
            rw [getFirstEntry, ring.1.next]
          rw [if_pos counted, start, Option.map_some]
          refine ⟨_, rfl, others.map FiniteMap.Binding.address, inside, ?_, ?_⟩
          · exact ring.2
          · have left : map.buckets - (pos + 1) = remaining := by omega
            rw [left, List.map_cons]

/-- A step of the iterator leaves out the entry it has been at. -/
theorem Laid.advance_eq
    (laid : Laid functions map bindings)
    (fits : bindings.length < 2 ^ 64)
    {address : EntryAddress} {pos : Nat} {rest : List EntryAddress}
    (remaining : Remaining functions map bindings ⟨some address, pos⟩
      (address :: rest)) :
    ∃ iterator, map.advance address pos = some iterator ∧
      Remaining functions map bindings iterator rest := by
  obtain ⟨here, inside, chain, split⟩ := remaining
  dsimp only at inside chain split
  rw [List.cons_append, List.cons.injEq] at split
  obtain ⟨-, rfl⟩ := split
  cases here with
  | nil =>
      rw [List.map_nil, List.singleton_append, List.isChain_pair] at chain
      rw [advance, if_pos (by simpa [Ring.isTail] using chain.next)]
      exact laid.seek_eq fits (by omega)
  | cons following here =>
      simp only [List.map_cons, List.cons_append,
        List.isChain_cons_cons] at chain
      have notTail : ¬Ring.isTail map.links (.entry address) (.head pos) =
          true := by
        simp [Ring.isTail, chain.1.next]
      rw [advance, if_neg notTail, chain.1.next]
      exact ⟨_, rfl, here, inside, chain.2, rfl⟩

/-- The loop visits what remains. -/
theorem Laid.visit_eq
    (laid : Laid functions map bindings)
    (fits : bindings.length < 2 ^ 64)
    {steps : Nat} {iterator : Iterator} {rest : List EntryAddress}
    (enough : rest.length ≤ steps)
    (remaining : Remaining functions map bindings iterator rest) :
    map.visit steps iterator = some rest := by
  induction rest generalizing steps iterator with
  | nil =>
      cases iterator with
      | mk entry pos =>
          cases entry with
          | none => cases steps <;> rfl
          | some address =>
              obtain ⟨here, _, _, split⟩ := remaining
              exact absurd split.symm (List.cons_ne_nil _ _)
  | cons address rest inductionHypothesis =>
      cases iterator with
      | mk entry pos =>
          cases entry with
          | none => exact absurd remaining (List.cons_ne_nil _ _)
          | some current =>
              obtain ⟨here, inside, chain, split⟩ := id remaining
              rw [List.cons_append, List.cons.injEq] at split
              obtain ⟨rfl, -⟩ := split
              obtain ⟨following, advanced, left⟩ :=
                laid.advance_eq fits remaining
              cases steps with
              | zero => exact absurd enough (Nat.not_succ_le_zero _)
              | succ steps =>
                  have later : map.visit steps following = some rest :=
                    inductionHypothesis (Nat.le_of_succ_le_succ enough) left
                  rw [visit, advanced]
                  simp only [Option.bind_eq_bind, Option.bind_some, later]

/-- The values with each key below a bound are together the values with a key
below the bound. -/
theorem flatMap_filter_perm
    {α : Type*} (key : α → Nat) (values : List α) (bound : Nat) :
    ((List.range bound).flatMap fun index =>
        values.filter fun value => key value = index).Perm
      (values.filter fun value => key value < bound) := by
  induction bound with
  | zero => simp
  | succ bound inductionHypothesis =>
      have below : (values.filter fun value => key value < bound + 1).filter
          (fun value => key value < bound) =
            values.filter fun value => key value < bound := by
        rw [List.filter_filter]
        apply List.filter_congr
        intro value _
        rw [← Bool.decide_and, decide_eq_decide]
        omega
      have last : (values.filter fun value => key value < bound + 1).filter
          (fun value => !decide (key value < bound)) =
            values.filter fun value => key value = bound := by
        rw [List.filter_filter]
        apply List.filter_congr
        intro value _
        rw [← decide_not, ← Bool.decide_and, decide_eq_decide]
        omega
      have parts := List.filter_append_perm (fun value => key value < bound)
        (values.filter fun value => key value < bound + 1)
      rw [below, last] at parts
      rw [List.range_succ, List.flatMap_append, List.flatMap_singleton]
      exact (inductionHypothesis.append_right _).trans parts

/-- The buckets together hold every binding once. -/
theorem Laid.bucketsFrom_perm (laid : Laid functions map bindings) :
    (bucketsFrom functions map bindings map.buckets 0).Perm bindings := by
  rw [bucketsFrom, ← List.range_eq_range']
  refine (flatMap_filter_perm _ bindings map.buckets).trans ?_
  rw [List.filter_eq_self.mpr fun binding _ =>
    decide_eq_true (laid.hashIndex_lt binding.key.1 binding.key.2)]

/-- A loop over the map visits each of its entries once. -/
theorem Represents.visited_perm
    (represents : Represents functions map bindings)
    (fits : bindings.length < 2 ^ 64) :
    ∃ order : List (MapBinding Key Value), order.Perm bindings ∧
      map.visited = some (order.map FiniteMap.Binding.address) := by
  have laid := represents.laid
  have perm := laid.bucketsFrom_perm
  obtain ⟨iterator, found, remaining⟩ :=
    laid.seek_eq fits (Nat.zero_add map.buckets)
  refine ⟨_, perm, ?_⟩
  have enough : ((bucketsFrom functions map bindings map.buckets 0).map
      FiniteMap.Binding.address).length ≤ map.totalEntry := by
    rw [List.length_map, perm.length_eq, laid.total, Nat.mod_eq_of_lt fits]
  rw [visited, first, found, Option.bind_eq_bind, Option.bind_some,
    laid.visit_eq fits enough remaining]

end Visits

end HashMap

end Causer
