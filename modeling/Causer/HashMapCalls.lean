import Causer.HashMap
import Causer.Library.Machine

/-!
# Calls on a hash map

Sequences of `find`, `findOrAdd` and `insertIfAbsent`, with writes through the
pointers that callers keep.  As long as the bucket that a call searches holds
fewer than `2 ^ 31` entries, a sequence of calls returns what it returns on the
finite map the memory represents.  A bucket with more entries is searched only
as far as an `int` counts.
-/

namespace Causer

namespace HashMap

variable {Key Value : Type}

/-- A call of a user of the map. -/
abbrev MapCall (Key Value : Type) :=
  FiniteMap.Call (SizedKey Key) EntryAddress Value

/-- What a call returns. -/
abbrev MapResult (Value : Type) := FiniteMap.Result EntryAddress Value

variable (functions : HashFunctions Key Value)

/-- One call. -/
def perform (map : HashMap Key Value) :
    MapCall Key Value → Option (MapResult Value × HashMap Key Value)
  | .find key =>
      (find functions key.1 key.2 map).map fun value => (.found value, map)
  | .findOrAdd key newval =>
      (findOrAdd functions key.1 key.2 newval map).map
        fun (entry, next) => (.entry entry, next)
  | .insertIfAbsent key value =>
      (insertIfAbsent functions key.1 key.2 value map).map
        fun (isFound, next) => (.present isFound, next)
  | .assign address value => some (.assigned, assign address value map)

/-- A sequence of calls, with what each returns. -/
def performAll (map : HashMap Key Value) :
    List (MapCall Key Value) → Option (List (MapResult Value) × HashMap Key Value)
  | [] => some ([], map)
  | call :: calls =>
      (perform functions map call).bind fun (result, next) =>
        (performAll next calls).map fun (results, final) =>
          (result :: results, final)

/-- The search for a key stays within an `int`: its length and the number of
entries in its bucket are below `2 ^ 31`. -/
structure Searchable (map : HashMap Key Value) (key : SizedKey Key) :
    Prop where
  keylen : key.2 < 2 ^ 31
  count : map.count (hashIndex functions map key.1 key.2) < 2 ^ 31

/-- A call that finds room: its search stays within an `int`, and an addition
does not overflow the total. -/
def Fits (map : HashMap Key Value) : MapCall Key Value → Prop
  | .find key => Searchable functions map key
  | .findOrAdd key _ | .insertIfAbsent key _ =>
      Searchable functions map key ∧ map.totalEntry + 1 < 2 ^ 64
  | .assign _ _ => True

instance (map : HashMap Key Value) (key : SizedKey Key) :
    Decidable (Searchable functions map key) :=
  decidable_of_iff
    (key.2 < 2 ^ 31 ∧
      map.count (hashIndex functions map key.1 key.2) < 2 ^ 31)
    ⟨fun ⟨keylen, count⟩ => ⟨keylen, count⟩,
      fun ⟨keylen, count⟩ => ⟨keylen, count⟩⟩

instance (map : HashMap Key Value) :
    ∀ call, Decidable (Fits functions map call)
  | .find key => inferInstanceAs (Decidable (Searchable functions map key))
  | .findOrAdd key _ | .insertIfAbsent key _ =>
      inferInstanceAs (Decidable (Searchable functions map key ∧ _))
  | .assign _ _ => inferInstanceAs (Decidable True)

/-- Every call of a sequence fits the map it is made on. -/
def FitsAlong (map : HashMap Key Value) (calls : List (MapCall Key Value)) :
    Prop :=
  Machine.Along
    (fun map call => (perform functions map call).map Prod.snd)
    (Fits functions) map calls

/-- A sequence of calls on a new map behaves as on a finite map: it returns the
same, the entries are the bindings, and their number is the number of distinct
keys that have been added. -/
def BehavesAsMap (map : HashMap Key Value) (calls : List (MapCall Key Value)) :
    Prop :=
  ∃ results final bindings,
    performAll functions map calls = some (results, final) ∧
      FiniteMap.run (policy functions map.buckets) [] calls =
        (results, bindings) ∧
      FiniteMap.Summary (policy functions map.buckets) calls results bindings ∧
      Represents functions final bindings ∧
      getEntryNumber final = bindings.length

section Simulation

variable {functions} {map : HashMap Key Value}
variable {bindings : List (MapBinding Key Value)}

/-- A memory with a given number of buckets represents a finite map whose size
fits a word. -/
structure Holds (functions : HashFunctions Key Value) (size : Nat)
    (map : HashMap Key Value) (bindings : List (MapBinding Key Value)) :
    Prop where
  buckets : map.buckets = size
  represents : Represents functions map bindings
  tidy : FiniteMap.Tidy (policy functions size) bindings
  length_lt : bindings.length < 2 ^ 64

variable {size : Nat}

theorem Holds.total_eq (holds : Holds functions size map bindings) :
    map.totalEntry = bindings.length := by
  rw [holds.represents.total, Nat.mod_eq_of_lt holds.length_lt]

/-- A bucket that can be searched has fewer than `2 ^ 31` entries. -/
theorem Searchable.length_lt
    (represents : Represents functions map bindings)
    (fits : bindings.length < 2 ^ 64)
    {key : SizedKey Key}
    (searchable : Searchable functions map key) :
    (inBucket functions map (hashIndex functions map key.1 key.2)
      bindings).length < 2 ^ 31 := by
  have counted := searchable.count
  have short : (inBucket functions map (hashIndex functions map key.1 key.2)
      bindings).length ≤ bindings.length := List.length_filter_le ..
  rw [represents.count _ (represents.hashIndex_lt key.1 key.2),
    Nat.mod_eq_of_lt (by omega)] at counted
  exact counted

/-- A search that stays within an `int` finds the binding of the key. -/
theorem Holds.getEntry_eq
    (lawful : Lawful functions)
    (holds : Holds functions size map bindings)
    {key : SizedKey Key}
    (searchable : Searchable functions map key) :
    getEntry functions map (hashIndex functions map key.1 key.2) key.1 key.2 =
      some ((FiniteMap.lookup (policy functions size) bindings key).map
        FiniteMap.Binding.address) := by
  rw [← holds.buckets]
  exact holds.represents.getEntry_eq lawful _ _
    (searchable.length_lt holds.represents holds.length_lt)

/-- An insertion into a map with room adds a binding. -/
theorem Holds.insertEntry
    (holds : Holds functions size map bindings)
    {key : SizedKey Key}
    (searchable : Searchable functions map key)
    (room : map.totalEntry + 1 < 2 ^ 64)
    (absent : FiniteMap.lookup (policy functions size) bindings key = none)
    (value : Value) :
    (insertEntry (hashIndex functions map key.1 key.2) key.1 key.2 value
        map).1 = addressAt size bindings.length ∧
      Holds functions size
        (insertEntry (hashIndex functions map key.1 key.2) key.1 key.2 value
          map).2
        (FiniteMap.add (policy functions size) bindings key value) := by
  obtain ⟨rfl, represents, tidy, length_lt⟩ := holds
  obtain ⟨address, inserted⟩ := represents.insertEntry tidy.addresses key.1
    value searchable.keylen
  refine ⟨address, insertEntry_buckets .., inserted, tidy.add absent value, ?_⟩
  rw [represents.total, Nat.mod_eq_of_lt length_lt] at room
  rw [FiniteMap.add, List.length_append, List.length_singleton]
  exact room

theorem Holds.assign
    (holds : Holds functions size map bindings)
    (address : EntryAddress) (value : Value) :
    Holds functions size (assign address value map)
      (FiniteMap.assign bindings address value) where
  buckets := holds.buckets
  represents := holds.represents.assign address value
  tidy := holds.tidy.assign address value
  length_lt := by
    rw [FiniteMap.assign, List.length_map]
    exact holds.length_lt

/-- Storing another value at the address of a binding that has just been
added. -/
theorem assign_add
    (addresses : bindings.map FiniteMap.Binding.address =
      (List.range bindings.length).map (addressAt size))
    (key : SizedKey Key) (first second : Value) :
    FiniteMap.assign (FiniteMap.add (policy functions size) bindings key first)
        (addressAt size bindings.length) second =
      FiniteMap.add (policy functions size) bindings key second := by
  have absent := addressAt_not_mem addresses
  rw [FiniteMap.assign, FiniteMap.add, List.map_append, FiniteMap.add]
  congr 1
  · refine (List.map_congr_left fun binding member => ?_).trans
      (List.map_id bindings)
    have different : binding.address ≠ addressAt size bindings.length :=
      fun same => absent (same ▸ List.mem_map_of_mem member)
    rw [if_neg different, id]
  · simp [policy]

/-- A call that fits returns what it returns on the represented map. -/
theorem Holds.perform
    (lawful : Lawful functions)
    (holds : Holds functions size map bindings)
    {call : MapCall Key Value}
    (fits : Fits functions map call) :
    ∃ next,
      perform functions map call =
        some ((FiniteMap.step (policy functions size) bindings call).1,
          next) ∧
      Holds functions size next
        (FiniteMap.step (policy functions size) bindings call).2 := by
  cases call with
  | find key =>
      refine ⟨map, ?_, holds⟩
      rw [HashMap.perform, HashMap.find]
      simp only [holds.represents.getHashEntry_eq,
        holds.getEntry_eq lawful fits, Option.bind_eq_bind, Option.bind_some,
        FiniteMap.step]
      cases found : FiniteMap.lookup (policy functions size) bindings key with
      | none => rfl
      | some binding =>
          have held := holds.represents.entries binding
            (FiniteMap.lookup_eq_some found).1
          simp [held]
  | findOrAdd key newval =>
      rw [HashMap.perform, HashMap.findOrAdd]
      simp only [holds.represents.getHashEntry_eq,
        holds.getEntry_eq lawful fits.1, Option.bind_eq_bind, Option.bind_some,
        FiniteMap.step]
      cases found : FiniteMap.lookup (policy functions size) bindings key with
      | some binding => exact ⟨map, rfl, holds⟩
      | none =>
          obtain ⟨address, inserted⟩ :=
            holds.insertEntry fits.1 fits.2 found newval
          -- the entry still holds the new value when its fields are reset
          have held := inserted.represents.entries
            ⟨key, addressAt size bindings.length, newval⟩ (by
              rw [FiniteMap.add]
              exact List.mem_append_right _ (List.mem_singleton_self _))
          have reset := inserted.assign (addressAt size bindings.length)
            (functions.reset newval)
          rw [assign_add holds.tidy.addresses] at reset
          refine ⟨_, ?_, reset⟩
          simp [address, HashMap.assign, held, policy]
  | insertIfAbsent key value =>
      rw [HashMap.perform, HashMap.insertIfAbsent]
      simp only [holds.represents.getHashEntry_eq,
        holds.getEntry_eq lawful fits.1, Option.bind_eq_bind, Option.bind_some,
        FiniteMap.step]
      cases found : FiniteMap.lookup (policy functions size) bindings key with
      | some binding => exact ⟨map, rfl, holds⟩
      | none =>
          exact ⟨_, rfl, (holds.insertEntry fits.1 fits.2 found value).2⟩
  | assign address value => exact ⟨_, rfl, holds.assign address value⟩

/-- `findOrAdd` leads where it leads in the represented map. -/
theorem Holds.findOrAdd
    (lawful : Lawful functions)
    (holds : Holds functions size map bindings)
    {key : SizedKey Key} {newval : Value}
    (fits : Fits functions map (.findOrAdd key newval))
    {address : EntryAddress} {later : List (MapBinding Key Value)}
    (leads : FiniteMap.step (policy functions size) bindings
      (.findOrAdd key newval) = (.entry address, later)) :
    ∃ next,
      HashMap.findOrAdd functions key.1 key.2 newval map =
          some (address, next) ∧
        Holds functions size next later := by
  obtain ⟨next, performed, nextHolds⟩ := holds.perform lawful fits
  rw [leads] at performed nextHolds
  obtain ⟨⟨entry, after⟩, found, result⟩ :=
    Option.map_eq_some_iff.mp performed
  simp only [Prod.mk.injEq, FiniteMap.Result.entry.injEq] at result
  obtain ⟨rfl, rfl⟩ := result
  exact ⟨after, found, nextHolds⟩

/-- A sequence of calls that all fit returns what it returns on the represented
map. -/
theorem Holds.performAll
    (lawful : Lawful functions)
    (holds : Holds functions size map bindings)
    {calls : List (MapCall Key Value)}
    (fits : FitsAlong functions map calls) :
    ∃ final,
      performAll functions map calls =
        some ((FiniteMap.run (policy functions size) bindings calls).1,
          final) ∧
      Holds functions size final
        (FiniteMap.run (policy functions size) bindings calls).2 := by
  induction calls generalizing map bindings with
  | nil => exact ⟨map, rfl, holds⟩
  | cons call calls inductionHypothesis =>
      obtain ⟨next, performed, nextHolds⟩ := holds.perform lawful fits.1
      have rest := fits.2 next (by simp [performed])
      obtain ⟨final, performedAll, finalHolds⟩ :=
        inductionHypothesis nextHolds rest
      refine ⟨final, ?_, finalHolds⟩
      rw [HashMap.performAll, performed, Option.bind_some]
      simp only [performedAll, Option.map_some, FiniteMap.run_cons]

theorem holds_initializeMap
    (functions : HashFunctions Key Value) (memory : HashMap Key Value)
    {exponent : Nat} (fits : exponent < 64) :
    Holds functions (2 ^ exponent) (initializeMap memory (2 ^ exponent)) [] where
  buckets := rfl
  represents := represents_initializeMap functions memory fits
  tidy := FiniteMap.Tidy.nil
  length_lt := by simp

/-- Every sequence of calls on a new map whose searches stay within an `int`
behaves as on a finite map. -/
theorem behavesAsMap_of_fits
    (lawful : Lawful functions)
    (memory : HashMap Key Value)
    {exponent : Nat}
    (word : exponent < 64)
    {calls : List (MapCall Key Value)}
    (fits : FitsAlong functions (initializeMap memory (2 ^ exponent)) calls) :
    BehavesAsMap functions (initializeMap memory (2 ^ exponent)) calls := by
  obtain ⟨final, performed, finalHolds⟩ :=
    (holds_initializeMap functions memory word).performAll lawful fits
  refine ⟨_, final, _, performed, rfl,
    FiniteMap.summary_run (lawful.policy_lawful _) calls,
    finalHolds.represents, finalHolds.total_eq⟩

end Simulation

/-- The entry that `findOrAdd` returns, with its value at that moment: an entry
that the search has found, or a new one whose value has been reset. -/
inductive Located (map : HashMap Key Value) (key : SizedKey Key)
    (newval : Value) : EntryAddress → Value → Prop
  | found {address : EntryAddress}
      (searched : getEntry functions map (hashIndex functions map key.1 key.2)
        key.1 key.2 = some (some address)) :
      Located map key newval address (map.entries address).value
  | added
      (searched : getEntry functions map (hashIndex functions map key.1 key.2)
        key.1 key.2 = some none) :
      Located map key newval (createNewEntry key.1 key.2 newval map).1
        (functions.reset newval)

section Locating

variable {functions} {map : HashMap Key Value}
variable {bindings : List (MapBinding Key Value)}

/-- What the entries hold after a write to a value. -/
@[simp] theorem value_assign_self
    (address : EntryAddress) (value : Value) (map : HashMap Key Value) :
    ((assign address value map).entries address).value = value := by
  simp [assign]

@[simp] theorem key_assign
    (address other : EntryAddress) (value : Value) (map : HashMap Key Value) :
    ((assign address value map).entries other).key =
      (map.entries other).key := by
  by_cases same : other = address
  · simp [assign, same]
  · simp [assign, same]

@[simp] theorem entries_assign_of_ne
    {address other : EntryAddress}
    (different : other ≠ address)
    (value : Value) (map : HashMap Key Value) :
    (assign address value map).entries other = map.entries other := by
  simp [assign, different]

/-- A search returns an entry that matches. -/
theorem matchesKey_of_getEntryLoop
    {key : Key} {keylen count : Nat} {node : BucketNode}
    {address : EntryAddress}
    (searched : getEntryLoop functions map key keylen count node =
      some (some address)) :
    matchesKey functions map key keylen address = true := by
  induction count generalizing node with
  | zero =>
      rw [getEntryLoop] at searched
      cases searched
  | succ count inductionHypothesis =>
      cases node with
      | head bucket =>
          rw [getEntryLoop] at searched
          cases searched
      | entry other =>
          rw [getEntryLoop] at searched
          split_ifs at searched with matched
          · cases searched
            exact matched
          · exact inductionHypothesis searched

/-- What an entry holds that has just been created, and what the others do. -/
theorem createNewEntry_entries
    (key : Key) (keylen : Nat) (value : Value) (map : HashMap Key Value) :
    (createNewEntry key keylen value map).2.entries =
      Function.update map.entries (createNewEntry key keylen value map).1
        ⟨key, sizeThroughInt keylen, value⟩ := by
  simp only [createNewEntry]
  split <;> rfl

/-- What `findOrAdd` does when the search finds nothing. -/
theorem findOrAdd_of_absent
    {key : SizedKey Key}
    (inBounds : map.getHashEntry (hashIndex functions map key.1 key.2) =
      some (hashIndex functions map key.1 key.2))
    (searched : getEntry functions map (hashIndex functions map key.1 key.2)
      key.1 key.2 = some none)
    (newval : Value) :
    findOrAdd functions key.1 key.2 newval map =
      some ((createNewEntry key.1 key.2 newval map).1,
        assign (createNewEntry key.1 key.2 newval map).1
          (functions.reset newval)
          (insertEntry (hashIndex functions map key.1 key.2) key.1 key.2
            newval map).2) := by
  have entries := createNewEntry_entries key.1 key.2 newval map
  simp [findOrAdd, inBounds, searched, insertEntry, assign, entries]

/-- `findOrAdd` always leads to an entry of the key, and touches no other
entry. -/
theorem Laid.findOrAdd_located
    (lawful : Lawful functions)
    (laid : Laid functions map bindings)
    (key : SizedKey Key) (newval : Value) :
    ∃ address value next,
      findOrAdd functions key.1 key.2 newval map = some (address, next) ∧
        Located functions map key newval address value ∧
        (next.entries address).value = value ∧
        functions.keycmp (next.entries address).key key.1 key.2 = true ∧
        ∀ other ≠ address, next.entries other = map.entries other := by
  have inBounds := laid.getHashEntry_eq key.1 key.2
  obtain ⟨result, searched⟩ :=
    Option.isSome_iff_exists.mp (laid.getEntry_isSome key.1 key.2)
  cases result with
  | some address =>
      have matched := matchesKey_of_getEntryLoop searched
      rw [matchesKey, Bool.and_eq_true] at matched
      refine ⟨address, _, map, ?_, .found searched, rfl, matched.1,
        fun _ _ => rfl⟩
      simp [findOrAdd, inBounds, searched]
  | none =>
      have entries := createNewEntry_entries key.1 key.2 newval map
      refine ⟨_, _, _, findOrAdd_of_absent inBounds searched newval,
        .added searched, ?_, ?_, ?_⟩
      · simp [assign]
      · simp [assign, HashMap.insertEntry, entries, lawful.refl]
      · intro other different
        simp [assign, HashMap.insertEntry, entries, different]

/-- The map is laid out, and its pool has handed out the addresses in order. -/
structure Pooled (functions : HashFunctions Key Value)
    (map : HashMap Key Value) (bindings : List (MapBinding Key Value)) :
    Prop where
  laid : Laid functions map bindings
  addresses : bindings.map FiniteMap.Binding.address =
    (List.range bindings.length).map (addressAt map.buckets)

/-- The layout does not depend on what the entries hold. -/
theorem Pooled.assign
    (pooled : Pooled functions map bindings)
    (address : EntryAddress) (value : Value) :
    Pooled functions (assign address value map) bindings where
  laid := { pooled.laid with }
  addresses := pooled.addresses

/-- The search returns addresses of bindings only. -/
theorem Laid.mem_of_getEntry
    (laid : Laid functions map bindings)
    {key : Key} {keylen : Nat} {address : EntryAddress}
    (searched : getEntry functions map (hashIndex functions map key keylen)
      key keylen = some (some address)) :
    address ∈ bindings.map FiniteMap.Binding.address := by
  have bound := laid.hashIndex_lt key keylen
  have chain := (laid.ring _ bound).chain.left_of_append
  have counted : (BitVec.ofNat 32 (map.count
      (hashIndex functions map key keylen))).toInt.toNat ≤
        ((inBucket functions map (hashIndex functions map key keylen)
          bindings).map FiniteMap.Binding.address).length :=
    laid.intCount_le bound
  rw [getEntry, getEntryLoop_take key keylen chain counted,
    Option.some.injEq] at searched
  have taken := List.mem_of_mem_take (List.mem_of_find?_eq_some searched)
  obtain ⟨binding, inside, rfl⟩ := List.mem_map.mp taken
  exact List.mem_map_of_mem (List.mem_of_mem_filter inside)

/-- `findOrAdd` keeps the layout.  It leads to an address that has been handed
out, or hands out another one. -/
theorem Pooled.findOrAdd
    (pooled : Pooled functions map bindings)
    {key : SizedKey Key} {newval value : Value} {address : EntryAddress}
    {next : HashMap Key Value}
    (located : Located functions map key newval address value)
    (found : HashMap.findOrAdd functions key.1 key.2 newval map =
      some (address, next)) :
    ∃ later, Pooled functions next later ∧
      ∀ other, other ∈ later.map FiniteMap.Binding.address ↔
        other = address ∨ other ∈ bindings.map FiniteMap.Binding.address := by
  have inBounds := pooled.laid.getHashEntry_eq key.1 key.2
  cases located with
  | found searched =>
      have same : next = map := by
        simpa [HashMap.findOrAdd, inBounds, searched, eq_comm] using found
      refine ⟨bindings, same ▸ pooled, fun other => ⟨Or.inr, ?_⟩⟩
      rintro (rfl | member)
      · exact pooled.laid.mem_of_getEntry searched
      · exact member
  | added searched =>
      rw [findOrAdd_of_absent inBounds searched newval, Option.some.injEq,
        Prod.mk.injEq] at found
      obtain ⟨-, rfl⟩ := found
      obtain ⟨created, laid⟩ := pooled.laid.insertEntry pooled.addresses key.1
        key.2 newval newval
      change (createNewEntry key.1 key.2 newval map).1 = _ at created
      refine ⟨_, Pooled.assign ⟨laid, ?_⟩ _ _, fun other => ?_⟩
      · rw [insertEntry_buckets, List.map_append, pooled.addresses,
          List.length_append, List.length_singleton, List.range_succ,
          List.map_append]
        rfl
      · rw [created, List.map_append, List.mem_append, List.map_singleton,
          List.mem_singleton, or_comm]

end Locating

/-- Numbers as keys, compared by equality. -/
def sampleFunctions : HashFunctions Nat Nat where
  hashfunc := fun key _ => BitVec.ofNat 64 key
  keycmp := fun first second _ => first == second
  reset := fun _ => 0

theorem lawful_sampleFunctions : Lawful sampleFunctions where
  refl := by simp [sampleFunctions]
  symm := by
    intro first second keylen same
    simp only [sampleFunctions, beq_iff_eq] at same ⊢
    exact same.symm
  trans := by
    intro first second third keylen same again
    simp only [sampleFunctions, beq_iff_eq] at same again ⊢
    exact same.trans again
  hash_eq := by
    intro first second keylen same
    simp only [sampleFunctions, beq_iff_eq] at same ⊢
    rw [same]

/-- A memory from which a map is made. -/
def sampleMemory : HashMap Nat Nat where
  buckets := 0
  count := fun _ => 0
  links := ⟨id, id⟩
  entries := fun _ => ⟨0, 0, 0⟩
  allentries := 0
  entryindex := 0
  totalEntry := 0

/-- Two keys in one bucket and one apart, an update and four searches. -/
def sampleCalls : List (MapCall Nat Nat) :=
  [.findOrAdd (5, 8) 1, .insertIfAbsent (7, 8) 2, .findOrAdd (6, 8) 3,
    .findOrAdd (5, 8) 4, .assign ⟨0, 0⟩ 9, .find (5, 8), .find (7, 8),
    .find (3, 8)]

theorem behavesAsMap_sample :
    BehavesAsMap sampleFunctions (initializeMap sampleMemory (2 ^ 1))
      sampleCalls :=
  behavesAsMap_of_fits lawful_sampleFunctions sampleMemory (by decide)
    (by unfold FitsAlong; decide +kernel)

/-- Calls that add consecutive keys. -/
def addCalls (first count : Nat) : List (MapCall Nat Nat) :=
  (List.range' first count).map fun key => .findOrAdd (key, 8) key

/-- Consecutive keys can be added to one bucket until it is crowded. -/
theorem Holds.addCalls
    {map : HashMap Nat Nat} {bindings : List (MapBinding Nat Nat)}
    {size first count : Nat}
    (holds : Holds sampleFunctions size map bindings)
    (length : bindings.length = first)
    (earlier : ∀ binding ∈ bindings, binding.key.1 < first)
    (fits : first + count ≤ 2 ^ 31) :
    FitsAlong sampleFunctions map (addCalls first count) ∧
      (FiniteMap.run (policy sampleFunctions size) bindings
        (addCalls first count)).2.length = first + count := by
  induction count generalizing map bindings first with
  | zero => exact ⟨trivial, length⟩
  | succ count inductionHypothesis =>
      have absent : FiniteMap.lookup (policy sampleFunctions size) bindings
          (first, 8) = none := by
        rw [FiniteMap.lookup_eq_none]
        intro binding member
        have below := earlier binding member
        simp [policy, sampleFunctions, below.ne]
      have stepped : FiniteMap.step (policy sampleFunctions size) bindings
          (.findOrAdd (first, 8) first) =
            (.entry (addressAt size first),
              FiniteMap.add (policy sampleFunctions size) bindings (first, 8)
                0) := by
        rw [FiniteMap.step, absent, ← length]
        rfl
      have fitsCall : Fits sampleFunctions map
          (.findOrAdd (first, 8) first) := by
        refine ⟨⟨show 8 < 2 ^ 31 by decide, ?_⟩, ?_⟩
        · have counted := holds.represents.count _
            (holds.represents.hashIndex_lt first 8)
          have short : (inBucket sampleFunctions map
              (hashIndex sampleFunctions map first 8) bindings).length ≤
                bindings.length := List.length_filter_le ..
          rw [counted]
          exact (Nat.mod_le _ _).trans_lt (by omega)
        · rw [holds.total_eq]
          omega
      obtain ⟨next, performed, nextHolds⟩ :=
        holds.perform lawful_sampleFunctions fitsCall
      rw [stepped] at performed nextHolds
      have lengthNext : (FiniteMap.add (policy sampleFunctions size) bindings
          (first, 8) 0).length = first + 1 := by
        simp [FiniteMap.add, length]
      have earlierNext : ∀ binding ∈ FiniteMap.add
          (policy sampleFunctions size) bindings (first, 8) 0,
            binding.key.1 < first + 1 := by
        intro binding member
        rw [FiniteMap.add, List.mem_append, List.mem_singleton] at member
        rcases member with old | rfl
        · exact (earlier binding old).trans (Nat.lt_succ_self first)
        · exact Nat.lt_succ_self first
      obtain ⟨fitsRest, lengthRest⟩ :=
        inductionHypothesis nextHolds lengthNext earlierNext (by omega)
      rw [HashMap.addCalls, List.range'_succ, List.map_cons]
      refine ⟨Machine.along_cons (by simp [performed]) fitsCall fitsRest, ?_⟩
      rw [FiniteMap.run_cons, stepped]
      refine lengthRest.trans ?_
      omega

/-- A sequence of calls in two parts. -/
theorem performAll_append
    {functions : HashFunctions Key Value} {map middle : HashMap Key Value}
    {first : List (MapCall Key Value)} {results : List (MapResult Value)}
    (performed : performAll functions map first = some (results, middle))
    (second : List (MapCall Key Value)) :
    performAll functions map (first ++ second) =
      (performAll functions middle second).map fun (more, final) =>
        (results ++ more, final) := by
  induction first generalizing map results with
  | nil =>
      rw [performAll, Option.some.injEq, Prod.mk.injEq] at performed
      obtain ⟨rfl, rfl⟩ := performed
      simp
  | cons call calls inductionHypothesis =>
      rw [performAll, Option.bind_eq_some_iff] at performed
      obtain ⟨⟨result, next⟩, performedCall, rest⟩ := performed
      obtain ⟨⟨others, final⟩, performedRest, same⟩ :=
        Option.map_eq_some_iff.mp rest
      rw [Prod.mk.injEq] at same
      obtain ⟨rfl, rfl⟩ := same
      rw [List.cons_append, performAll, performedCall, Option.bind_some]
      simp only [inductionHypothesis performedRest, Option.map_map]
      rfl

/-- In a bucket with `2 ^ 31` entries no key is found. -/
theorem find_crowded
    {map : HashMap Nat Nat} {bindings : List (MapBinding Nat Nat)}
    (holds : Holds sampleFunctions (2 ^ 0) map bindings)
    (crowded : bindings.length = 2 ^ 31)
    (key keylen : Nat) :
    find sampleFunctions key keylen map = some none := by
  have one : map.buckets = 1 := holds.buckets
  have only : ∀ other length,
      hashIndex sampleFunctions map other length = 0 := by
    intro other length
    have bound := holds.represents.hashIndex_lt other length
    omega
  have count : map.count 0 = 2 ^ 31 := by
    rw [holds.represents.count 0 (by omega), inBucket,
      List.filter_eq_self.mpr (by simp [only]), crowded]
    exact Nat.mod_eq_of_lt (by decide)
  have none_counted : (BitVec.ofNat 32 (2 ^ 31)).toInt.toNat = 0 := by decide
  rw [HashMap.find, holds.represents.getHashEntry_eq, only]
  simp only [Option.bind_eq_bind, Option.bind_some, getEntry, count,
    none_counted]
  rfl

/-- The calls that crowd the only bucket of a map, and a search for a key among
those they have added. -/
def crowdingCalls : List (MapCall Nat Nat) :=
  addCalls 0 (2 ^ 31) ++ [.find (0, 8)]

/-- With `2 ^ 31` entries in a bucket a key that has been added is not found. -/
theorem not_behavesAsMap_crowded :
    ¬BehavesAsMap sampleFunctions (initializeMap sampleMemory (2 ^ 0))
      crowdingCalls := by
  have start := holds_initializeMap sampleFunctions sampleMemory
    (show 0 < 64 by decide)
  obtain ⟨fits, length⟩ := start.addCalls List.length_nil (by simp)
    (show 0 + 2 ^ 31 ≤ 2 ^ 31 by simp)
  obtain ⟨crowded, performed, holds⟩ :=
    start.performAll lawful_sampleFunctions fits
  rintro ⟨results, final, bindings, performedAll, _, summary, _⟩
  obtain ⟨value, returned, _, foundIff⟩ :=
    summary.finds (addCalls 0 (2 ^ 31)) (0, 8) [] rfl
  have added : ∃ call ∈ addCalls 0 (2 ^ 31),
      FiniteMap.Adds (policy sampleFunctions (2 ^ 0)) (0, 8) call := by
    refine ⟨.findOrAdd (0, 8) 0, ?_, ?_⟩
    · exact List.mem_map.mpr ⟨0, List.mem_range'_1.mpr ⟨le_rfl, by simp⟩, rfl⟩
    · simp [FiniteMap.Adds, policy, sampleFunctions]
  have found := foundIff.mpr added
  have searched := find_crowded holds (by simpa using length) 0 8
  have last : performAll sampleFunctions crowded [.find (0, 8)] =
      some ([.found none], crowded) := by
    simp [HashMap.performAll, perform, searched]
  rw [crowdingCalls, performAll_append performed, last, Option.map_some,
    Option.some.injEq, Prod.mk.injEq] at performedAll
  rw [← performedAll.1, List.getElem?_append_right
    (Nat.le_of_eq (FiniteMap.length_run _)), FiniteMap.length_run,
    Nat.sub_self] at returned
  simp only [List.getElem?_cons_zero, Option.some.injEq,
    FiniteMap.Result.found.injEq] at returned
  rw [← returned] at found
  exact absurd found (by decide)

end HashMap

end Causer
