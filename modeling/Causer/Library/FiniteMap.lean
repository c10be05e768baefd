import Mathlib.Data.List.Basic
import Mathlib.Data.List.Induction

/-!
# Finite maps with stable addresses

A finite map whose bindings live at addresses that callers keep.  Keys are
compared by a Boolean equivalence, bindings are listed in the order in which
their keys were added, and the address of a new binding depends only on how
many there are.  Calls look keys up, add them when they are absent, and assign
to the value at an address.  The rules say what a whole sequence of calls
returns.
-/

namespace FiniteMap

variable {Key Address Value : Type*}

/-- A key, where its binding is, and its value. -/
structure Binding (Key Address Value : Type*) where
  key : Key
  address : Address
  value : Value

/-- A call on a finite map. -/
inductive Call (Key Address Value : Type*)
  | find (key : Key)
  | findOrAdd (key : Key) (value : Value)
  | insertIfAbsent (key : Key) (value : Value)
  | assign (address : Address) (value : Value)

/-- What a call returns. -/
inductive Result (Address Value : Type*)
  | found (value : Option Value)
  | entry (address : Address)
  | present (isFound : Bool)
  | assigned

/-- How keys are compared, where the next binding goes and what is stored for
the value of a key that `findOrAdd` adds. -/
structure Policy (Key Address Value : Type*) where
  same : Key → Key → Bool
  fresh : Nat → Address
  reset : Value → Value

/-- Comparison is an equivalence and bindings never share an address. -/
structure Policy.Lawful (policy : Policy Key Address Value) : Prop where
  refl : ∀ key, policy.same key key = true
  symm : ∀ {first second}, policy.same first second = true →
    policy.same second first = true
  trans : ∀ {first second third}, policy.same first second = true →
    policy.same second third = true → policy.same first third = true
  fresh_injective : Function.Injective policy.fresh

variable (policy : Policy Key Address Value)

/-- The binding of a key. -/
def lookup (map : List (Binding Key Address Value)) (key : Key) :
    Option (Binding Key Address Value) :=
  map.find? fun binding : Binding Key Address Value =>
    policy.same binding.key key

/-- Add a binding for a key. -/
def add (map : List (Binding Key Address Value))
    (key : Key) (value : Value) : List (Binding Key Address Value) :=
  map ++ [⟨key, policy.fresh map.length, value⟩]

variable [DecidableEq Address]

/-- Assign to the value at an address. -/
def assign (map : List (Binding Key Address Value))
    (address : Address) (value : Value) : List (Binding Key Address Value) :=
  map.map fun binding =>
    if binding.address = address then { binding with value := value }
    else binding

/-- One call. -/
def step (map : List (Binding Key Address Value)) :
    Call Key Address Value →
      Result Address Value × List (Binding Key Address Value)
  | .find key =>
      (.found ((lookup policy map key).map Binding.value), map)
  | .findOrAdd key value =>
      match lookup policy map key with
      | some binding => (.entry binding.address, map)
      | none =>
          (.entry (policy.fresh map.length),
            add policy map key (policy.reset value))
  | .insertIfAbsent key value =>
      match lookup policy map key with
      | some _ => (.present true, map)
      | none => (.present false, add policy map key value)
  | .assign address value => (.assigned, assign map address value)

/-- A sequence of calls, with what each returns. -/
def run (map : List (Binding Key Address Value)) :
    List (Call Key Address Value) →
      List (Result Address Value) × List (Binding Key Address Value)
  | [] => ([], map)
  | call :: calls =>
      let (result, next) := step policy map call
      let (results, final) := run next calls
      (result :: results, final)

/-- A call that adds a key unless it is there. -/
def Adds (key : Key) : Call Key Address Value → Prop
  | .findOrAdd other _ => policy.same other key = true
  | .insertIfAbsent other _ => policy.same other key = true
  | _ => False

/-- No key has two bindings, and every binding is where it was put. -/
structure Tidy (map : List (Binding Key Address Value)) : Prop where
  /-- Two bindings have different keys. -/
  distinct : (map.map Binding.key).Pairwise fun first second =>
    policy.same first second = false
  /-- The addresses are those handed out so far. -/
  addresses : map.map Binding.address =
    (List.range map.length).map policy.fresh

section Lookup

omit [DecidableEq Address]

variable {policy} {map : List (Binding Key Address Value)}

theorem lookup_eq_some
    {key : Key} {binding : Binding Key Address Value}
    (found : lookup policy map key = some binding) :
    binding ∈ map ∧ policy.same binding.key key = true := by
  rw [lookup] at found
  exact ⟨List.mem_of_find?_eq_some found,
    List.find?_some
      (p := fun binding : Binding Key Address Value =>
        policy.same binding.key key) found⟩

theorem lookup_eq_none {key : Key} :
    lookup policy map key = none ↔
      ∀ binding ∈ map, policy.same binding.key key = false := by
  simp [lookup]

/-- A key is found exactly when a binding has the same key. -/
theorem lookup_isSome {key : Key} :
    (lookup policy map key).isSome = true ↔
      ∃ binding ∈ map, policy.same binding.key key = true := by
  simp [lookup]

theorem Tidy.nil : Tidy policy [] :=
  ⟨List.Pairwise.nil, rfl⟩

/-- Adding an absent key keeps the map tidy. -/
theorem Tidy.add
    (tidy : Tidy policy map)
    {key : Key}
    (absent : lookup policy map key = none)
    (value : Value) :
    Tidy policy (add policy map key value) := by
  constructor
  · rw [FiniteMap.add, List.map_append, List.pairwise_append]
    refine ⟨tidy.distinct, List.pairwise_singleton _ _, ?_⟩
    intro first member second added
    obtain ⟨binding, listed, rfl⟩ := List.mem_map.mp member
    rw [List.map_singleton, List.mem_singleton] at added
    rw [added]
    exact lookup_eq_none.mp absent binding listed
  · rw [FiniteMap.add, List.map_append, tidy.addresses, List.length_append,
      List.length_singleton, List.range_succ, List.map_append]
    rfl

/-- In a tidy map two bindings with the same key have the same address. -/
theorem Tidy.same_iff
    (lawful : policy.Lawful)
    (tidy : Tidy policy map)
    {first second : Binding Key Address Value}
    (firstMember : first ∈ map)
    (secondMember : second ∈ map) :
    policy.same first.key second.key = true ↔
      first.address = second.address := by
  obtain ⟨i, firstBound, rfl⟩ := List.getElem_of_mem firstMember
  obtain ⟨j, secondBound, rfl⟩ := List.getElem_of_mem secondMember
  have addressAt : ∀ k (bound : k < map.length),
      map[k].address = policy.fresh k := by
    intro k bound
    have at_k := congrArg (fun addresses => addresses[k]?) tidy.addresses
    simpa [bound] using at_k
  rw [addressAt i firstBound, addressAt j secondBound,
    lawful.fresh_injective.eq_iff]
  constructor
  · intro same
    by_contra different
    have distinct := List.pairwise_iff_getElem.mp tidy.distinct
    simp only [List.length_map, List.getElem_map] at distinct
    rcases Nat.lt_or_gt_of_ne different with before | after
    · rw [distinct i j firstBound secondBound before] at same
      exact absurd same (by decide)
    · have flipped := lawful.symm same
      rw [distinct j i secondBound firstBound after] at flipped
      exact absurd flipped (by decide)
  · rintro rfl
    exact lawful.refl _

end Lookup

section Rules

variable {policy} {map : List (Binding Key Address Value)}

/-- An assignment changes neither keys nor addresses. -/
theorem map_assign
    {Other : Type*}
    (project : Binding Key Address Value → Other)
    (ignores : ∀ binding value,
      project { binding with value := value } = project binding)
    (address : Address) (value : Value) :
    (assign map address value).map project = map.map project := by
  rw [assign, List.map_map]
  apply List.map_congr_left
  intro binding _
  rw [Function.comp_apply]
  split
  · exact ignores binding value
  · rfl

theorem Tidy.assign
    (tidy : Tidy policy map)
    (address : Address) (value : Value) :
    Tidy policy (assign map address value) := by
  constructor
  · rw [map_assign Binding.key fun _ _ => rfl]
    exact tidy.distinct
  · rw [map_assign Binding.address fun _ _ => rfl, tidy.addresses,
      FiniteMap.assign, List.length_map]

/-- A call keeps the map tidy. -/
theorem Tidy.step
    (tidy : Tidy policy map)
    (call : Call Key Address Value) :
    Tidy policy (step policy map call).2 := by
  cases call with
  | find key => exact tidy
  | findOrAdd key value =>
      rw [FiniteMap.step]
      split
      · exact tidy
      · next absent => exact tidy.add absent _
  | insertIfAbsent key value =>
      rw [FiniteMap.step]
      split
      · exact tidy
      · next absent => exact tidy.add absent _
  | assign address value => exact tidy.assign address value

end Rules

section Runs

/-- The binding of a key is at an address. -/
def Placed (map : List (Binding Key Address Value))
    (key : Key) (address : Address) : Prop :=
  ∃ binding ∈ map, policy.same binding.key key = true ∧
    binding.address = address

variable {policy} {map : List (Binding Key Address Value)}

omit [DecidableEq Address] in
theorem lookup_isSome_iff_placed {key : Key} :
    (lookup policy map key).isSome = true ↔
      ∃ address, Placed policy map key address := by
  rw [lookup_isSome]
  simp [Placed]

omit [DecidableEq Address] in
theorem placed_add {key other : Key} {value : Value} {address : Address} :
    Placed policy (add policy map other value) key address ↔
      Placed policy map key address ∨
        policy.same other key = true ∧ policy.fresh map.length = address := by
  simp [Placed, add, or_and_right, exists_or]

theorem placed_assign
    {key : Key} {address target : Address} {value : Value} :
    Placed policy (assign map target value) key address ↔
      Placed policy map key address := by
  simp only [Placed, assign, List.mem_map, exists_exists_and_eq_and]
  apply exists_congr
  intro binding
  apply and_congr_right
  intro _
  split <;> rfl

omit [DecidableEq Address] in
/-- Different keys are at different addresses, and one key at one address. -/
theorem Tidy.placed_iff
    (lawful : policy.Lawful)
    (tidy : Tidy policy map)
    {first second : Key} {firstAddress secondAddress : Address}
    (firstPlaced : Placed policy map first firstAddress)
    (secondPlaced : Placed policy map second secondAddress) :
    policy.same first second = true ↔ firstAddress = secondAddress := by
  obtain ⟨one, oneMember, oneSame, rfl⟩ := firstPlaced
  obtain ⟨two, twoMember, twoSame, rfl⟩ := secondPlaced
  rw [← tidy.same_iff lawful oneMember twoMember]
  constructor
  · intro same
    exact lawful.trans (lawful.trans oneSame same) (lawful.symm twoSame)
  · intro same
    exact lawful.trans (lawful.trans (lawful.symm oneSame) same) twoSame

/-- Where keys are after a call. -/
theorem Placed.step
    {key : Key} {address : Address}
    (placed : Placed policy map key address)
    (call : Call Key Address Value) :
    Placed policy (step policy map call).2 key address := by
  cases call with
  | find other => exact placed
  | findOrAdd other value =>
      rw [FiniteMap.step]
      split
      · exact placed
      · exact placed_add.mpr (Or.inl placed)
  | insertIfAbsent other value =>
      rw [FiniteMap.step]
      split
      · exact placed
      · exact placed_add.mpr (Or.inl placed)
  | assign target value => exact placed_assign.mpr placed

/-- Which keys are bound after a call. -/
theorem placed_step_iff
    (lawful : policy.Lawful)
    {key : Key}
    (call : Call Key Address Value) :
    (∃ address, Placed policy (step policy map call).2 key address) ↔
      (∃ address, Placed policy map key address) ∨ Adds policy key call := by
  have present : ∀ {other : Key} {binding : Binding Key Address Value},
      lookup policy map other = some binding →
        policy.same other key = true →
          ∃ address, Placed policy map key address := by
    intro other binding found same
    obtain ⟨member, sameBinding⟩ := lookup_eq_some found
    exact ⟨_, binding, member, lawful.trans sameBinding same, rfl⟩
  cases call with
  | find other => simp [FiniteMap.step, Adds]
  | findOrAdd other value =>
      rw [FiniteMap.step, Adds]
      split
      · next binding found =>
          exact ⟨Or.inl, fun either => either.elim id (present found)⟩
      · simp [placed_add, exists_or]
  | insertIfAbsent other value =>
      rw [FiniteMap.step, Adds]
      split
      · next binding found =>
          exact ⟨Or.inl, fun either => either.elim id (present found)⟩
      · simp [placed_add, exists_or]
  | assign target value => simp [FiniteMap.step, Adds, placed_assign]

/-- The address `findOrAdd` returns is where the key's binding is. -/
theorem placed_findOrAdd
    (lawful : policy.Lawful)
    {key : Key} {value : Value} {address : Address}
    (returned : (step policy map (.findOrAdd key value)).1 = .entry address) :
    Placed policy (step policy map (.findOrAdd key value)).2 key address := by
  rw [FiniteMap.step] at returned ⊢
  split at returned
  · next binding found =>
      rw [Result.entry.injEq] at returned
      obtain ⟨member, same⟩ := lookup_eq_some found
      exact ⟨binding, member, same, returned⟩
  · next absent =>
      rw [Result.entry.injEq] at returned
      exact placed_add.mpr (Or.inr ⟨lawful.refl key, returned⟩)

/-- `findOrAdd` of a key that is bound changes nothing. -/
theorem step_findOrAdd_of_placed
    {key : Key} (value : Value)
    (bound : ∃ address, Placed policy map key address) :
    (step policy map (.findOrAdd key value)).2 = map := by
  rw [← lookup_isSome_iff_placed, Option.isSome_iff_exists] at bound
  obtain ⟨binding, found⟩ := bound
  rw [FiniteMap.step, found]

@[simp] theorem run_cons
    (call : Call Key Address Value)
    (calls : List (Call Key Address Value)) :
    run policy map (call :: calls) =
      ((step policy map call).1 :: (run policy (step policy map call).2 calls).1,
        (run policy (step policy map call).2 calls).2) := rfl

theorem run_append (first second : List (Call Key Address Value)) :
    run policy map (first ++ second) =
      ((run policy map first).1 ++
          (run policy (run policy map first).2 second).1,
        (run policy (run policy map first).2 second).2) := by
  induction first generalizing map with
  | nil => rfl
  | cons call calls inductionHypothesis =>
      rw [List.cons_append, run_cons, run_cons, inductionHypothesis]
      rfl

theorem length_run (calls : List (Call Key Address Value)) :
    (run policy map calls).1.length = calls.length := by
  induction calls generalizing map with
  | nil => rfl
  | cons call calls inductionHypothesis =>
      rw [run_cons, List.length_cons, List.length_cons, inductionHypothesis]

theorem Tidy.run
    (tidy : Tidy policy map)
    (calls : List (Call Key Address Value)) :
    Tidy policy (run policy map calls).2 := by
  induction calls generalizing map with
  | nil => exact tidy
  | cons call calls inductionHypothesis =>
      exact inductionHypothesis (tidy.step call)

theorem Placed.run
    {key : Key} {address : Address}
    (placed : Placed policy map key address)
    (calls : List (Call Key Address Value)) :
    Placed policy (run policy map calls).2 key address := by
  induction calls generalizing map with
  | nil => exact placed
  | cons call calls inductionHypothesis =>
      exact inductionHypothesis (placed.step call)

/-- The keys bound after a sequence of calls are those it has added. -/
theorem placed_run_iff
    (lawful : policy.Lawful)
    {key : Key}
    (calls : List (Call Key Address Value)) :
    (∃ address, Placed policy (run policy map calls).2 key address) ↔
      (∃ address, Placed policy map key address) ∨
        ∃ call ∈ calls, Adds policy key call := by
  induction calls generalizing map with
  | nil => simp [FiniteMap.run]
  | cons call calls inductionHypothesis =>
      rw [run_cons, inductionHypothesis, placed_step_iff lawful, or_assoc]
      simp

/-- An address a sequence of calls has returned for a key is the key's. -/
theorem placed_of_mem_zip
    (lawful : policy.Lawful)
    {calls : List (Call Key Address Value)}
    {key : Key} {value : Value} {address : Address}
    (member : (Call.findOrAdd key value, Result.entry address) ∈
      calls.zip (run policy map calls).1) :
    Placed policy (run policy map calls).2 key address := by
  induction calls generalizing map with
  | nil => simp at member
  | cons call calls inductionHypothesis =>
      rw [run_cons, List.zip_cons_cons, List.mem_cons] at member
      rcases member with first | later
      · rw [Prod.mk.injEq] at first
        obtain ⟨rfl, returned⟩ := first
        exact (placed_findOrAdd lawful returned.symm).run calls
      · exact inductionHypothesis later

/-- What a sequence of calls on an empty map returns and leaves. -/
structure Summary
    (policy : Policy Key Address Value)
    (calls : List (Call Key Address Value))
    (results : List (Result Address Value))
    (final : List (Binding Key Address Value)) : Prop where
  /-- There is at most one binding for each key. -/
  distinct : (final.map Binding.key).Pairwise fun first second =>
    policy.same first second = false
  /-- The keys bound in the end are those that have been added. -/
  bound : ∀ key, (∃ binding ∈ final, policy.same binding.key key = true) ↔
    ∃ call ∈ calls, Adds policy key call
  /-- Equal keys have been given one address and different keys different
  ones. -/
  entries : ∀ {first second : Key} {one two : Value} {here there : Address},
    (Call.findOrAdd first one, Result.entry here) ∈ calls.zip results →
    (Call.findOrAdd second two, Result.entry there) ∈ calls.zip results →
    (policy.same first second = true ↔ here = there)
  /-- A key has been found exactly when it was added before, with the value its
  binding had. -/
  finds : ∀ before key after, calls = before ++ .find key :: after →
    ∃ value, results[before.length]? = some (.found value) ∧
      value = (lookup policy (run policy [] before).2 key).map Binding.value ∧
      (value.isSome = true ↔ ∃ call ∈ before, Adds policy key call)
  /-- Looking for a key that was added before has changed no value. -/
  keeps : ∀ before key value after,
    calls = before ++ .findOrAdd key value :: after →
    (∃ call ∈ before, Adds policy key call) →
    (run policy [] (before ++ [.findOrAdd key value])).2 =
      (run policy [] before).2

omit [DecidableEq Address] in
@[simp] theorem not_placed_nil (key : Key) :
    ¬∃ address : Address, Placed policy [] key address := by
  simp [Placed]

/-- Every sequence of calls on an empty map is summarised so. -/
theorem summary_run
    (lawful : policy.Lawful)
    (calls : List (Call Key Address Value)) :
    Summary policy calls (run policy [] calls).1 (run policy [] calls).2 where
  distinct := (Tidy.nil.run calls).distinct
  bound := by
    intro key
    rw [← lookup_isSome, lookup_isSome_iff_placed, placed_run_iff lawful,
      or_iff_right (not_placed_nil key)]
  entries := fun firstReturned secondReturned =>
    (Tidy.nil.run calls).placed_iff lawful
      (placed_of_mem_zip lawful firstReturned)
      (placed_of_mem_zip lawful secondReturned)
  finds := by
    rintro before key after rfl
    refine ⟨_, ?_, rfl, ?_⟩
    · rw [run_append, List.getElem?_append_right
        (Nat.le_of_eq (length_run before)),
        length_run, Nat.sub_self]
      rfl
    · rw [Option.isSome_map, lookup_isSome_iff_placed, placed_run_iff lawful,
        or_iff_right (not_placed_nil key)]
  keeps := by
    rintro before key value after rfl added
    rw [run_append]
    apply step_findOrAdd_of_placed
    rw [placed_run_iff lawful]
    exact Or.inr added

end Runs

end FiniteMap
