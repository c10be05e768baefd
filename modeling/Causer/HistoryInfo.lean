import Causer.HashMapCalls
import Causer.HashMapIterator
import Causer.HistoryFile

/-!
# Saving and loading call sites

`saveHistoryInfo` writes the number of entries and then every value that the
iterator goes through; `loadHistoryInfo` inserts what it reads into an empty
map, with the record as its own key.
-/

namespace Causer

open TextStream

/-- A record with its own hash, as `startWatch` and `operator>>` make it. -/
abbrev HashedCallstack :=
  {callstack : Callstack // callstack.hashcode = callstack.hash}

theorem Callstack.hashcode_stored (callstack : Callstack) (hashcode : Word) :
    ({ callstack with hashcode := hashcode } : Callstack).hashcode =
      hashcode := rfl

/-- The stored value does not enter the hash. -/
theorem Callstack.hash_stored (callstack : Callstack) (hashcode : Word) :
    ({ callstack with hashcode := hashcode } : Callstack).hash =
      callstack.hash := rfl

theorem Callstack.rehash_hashcode (callstack : Callstack) :
    callstack.rehash.hashcode = callstack.rehash.hash := by
  have stored : callstack.rehash.hashcode = callstack.hash :=
    callstack.hashcode_stored callstack.hash
  have same : callstack.rehash.hash = callstack.hash :=
    callstack.hash_stored callstack.hash
  exact stored.trans same.symm

/-- The record as a key. -/
def Callstack.hashed (callstack : Callstack) : HashedCallstack :=
  ⟨callstack.rehash, callstack.rehash_hashcode⟩

theorem Callstack.stack_stored (callstack : Callstack) (hashcode : Word) :
    ({ callstack with hashcode := hashcode } : Callstack).stack =
      callstack.stack := rfl

theorem Callstack.offset_stored (callstack : Callstack) (hashcode : Word) :
    ({ callstack with hashcode := hashcode } : Callstack).offset =
      callstack.offset := rfl

@[simp] theorem Callstack.hashed_stack (callstack : Callstack) :
    callstack.hashed.val.stack = callstack.stack :=
  callstack.stack_stored callstack.hash

@[simp] theorem Callstack.hashed_offset (callstack : Callstack) :
    callstack.hashed.val.offset = callstack.offset :=
  callstack.offset_stored callstack.hash

/-- `sizeof(callstack)`. -/
abbrev callstackLength : Nat := 168

/-- `hashCallStackT` and `compareCallStackT`. -/
def callstackFunctions : HashFunctions HashedCallstack Callstack where
  hashfunc := fun key _ => key.val.hashcode
  keycmp := fun first second _ => first.val.same second.val
  reset := Callstack.reset

/-- The type of `_csMap`. -/
abbrev CallstackMap := HashMap HashedCallstack Callstack

theorem lawful_callstackFunctions : HashMap.Lawful callstackFunctions where
  refl := by simp [callstackFunctions, Callstack.same]
  symm := by
    intro first second keylen same
    simp only [callstackFunctions, Callstack.same, Bool.and_eq_true,
      beq_iff_eq] at same ⊢
    exact ⟨same.1.symm, same.2.symm⟩
  trans := by
    intro first second third keylen same again
    simp only [callstackFunctions, Callstack.same, Bool.and_eq_true,
      beq_iff_eq] at same again ⊢
    exact ⟨same.1.trans again.1, same.2.trans again.2⟩
  hash_eq := by
    intro first second keylen same
    simp only [callstackFunctions, Callstack.same, Bool.and_eq_true,
      beq_iff_eq] at same ⊢
    rw [first.property, second.property, Callstack.hash, Callstack.hash,
      same.1, same.2]

/-- `saveHistoryInfo`: `boostratio` and the file that it leaves. -/
def saveHistoryInfo (selfmap : SelfMap) (boostratio : Int)
    (map : CallstackMap) (file : Option Text) : Option (Int × Option Text) :=
  if map.getEntryNumber > 0 then do
    let visited ← map.visited
    let values := visited.map fun address => (map.entries address).value
    let boostratio := Callstack.savedBoostratio boostratio values
    some (boostratio,
      some (writeUnsigned (BitVec.ofNat 64 map.getEntryNumber) ++
        '\n' :: writeCallstacks selfmap boostratio values))
  else some (boostratio, file)

/-- The loop of `loadHistoryInfo`, for the records that it reads. -/
def insertCallstacks : List Callstack → CallstackMap → Option CallstackMap
  | [], map => some map
  | callstack :: callstacks, map =>
      if callstack.depth < 1 then insertCallstacks callstacks map
      else
        (HashMap.insert callstackFunctions callstack.hashed callstackLength
          callstack map).bind (insertCallstacks callstacks)

/-- `loadHistoryInfo`, with the record that it reads into.  It fails on a map
with entries. -/
def loadHistoryInfo (selfmap : SelfMap) (callstack : Callstack)
    (file : Option Text) (map : CallstackMap) : Option CallstackMap :=
  match file with
  | none => some map
  | some text =>
      if map.getEntryNumber = 0 then
        match readUnsigned 64 text with
        | none => some map
        | some (_, text) =>
            insertCallstacks (readCallstacks selfmap callstack text) map
      else none

namespace HashMap

/-- What is known of a map between insertions. -/
structure Filled (size : Nat) (map : CallstackMap)
    (bindings : List (MapBinding HashedCallstack Callstack)) : Prop where
  buckets : map.buckets = size
  represents : Represents callstackFunctions map bindings
  addresses : bindings.map FiniteMap.Binding.address =
    (List.range bindings.length).map (addressAt size)

/-- The bindings of a list of records. -/
def recordBindings (size : Nat) (callstacks : List Callstack)
    (bindings : List (MapBinding HashedCallstack Callstack)) :
    List (MapBinding HashedCallstack Callstack) :=
  callstacks.foldl
    (fun bindings callstack =>
      FiniteMap.add (policy callstackFunctions size) bindings
        (callstack.hashed, callstackLength) callstack)
    bindings

/-- Each record is bound to its own key, in their order. -/
theorem map_recordBindings
    (size : Nat) (callstacks : List Callstack)
    (bindings : List (MapBinding HashedCallstack Callstack)) :
    (recordBindings size callstacks bindings).map
        (fun binding => (binding.key, binding.value)) =
      bindings.map (fun binding => (binding.key, binding.value)) ++
        callstacks.map fun callstack =>
          ((callstack.hashed, callstackLength), callstack) := by
  induction callstacks generalizing bindings with
  | nil => simp [recordBindings]
  | cons callstack callstacks inductionHypothesis =>
      rw [recordBindings, List.foldl_cons, ← recordBindings,
        inductionHypothesis, FiniteMap.add, List.map_append,
        List.append_assoc]
      rfl

theorem map_value_recordBindings
    (size : Nat) (callstacks : List Callstack) :
    (recordBindings size callstacks []).map FiniteMap.Binding.value =
      callstacks := by
  have pairs := congrArg (List.map Prod.snd)
    (map_recordBindings size callstacks [])
  rw [List.map_nil, List.nil_append, List.map_map, List.map_map] at pairs
  exact pairs.trans (List.map_id callstacks)

/-- Which keys and values are bound for a list of records. -/
theorem exists_recordBindings_iff
    (size : Nat) (callstacks : List Callstack)
    (key : SizedKey HashedCallstack) (value : Callstack) :
    (∃ binding ∈ recordBindings size callstacks [],
      binding.key = key ∧ binding.value = value) ↔
        value ∈ callstacks ∧ key = (value.hashed, callstackLength) := by
  have pairs := map_recordBindings size callstacks []
  rw [List.map_nil, List.nil_append] at pairs
  have listed : (key, value) ∈ (recordBindings size callstacks []).map
      (fun binding => (binding.key, binding.value)) ↔
        (key, value) ∈ callstacks.map fun callstack =>
          ((callstack.hashed, callstackLength), callstack) := by rw [pairs]
  simp only [List.mem_map, Prod.mk.injEq] at listed
  rw [listed]
  constructor
  · rintro ⟨callstack, member, sameKey, rfl⟩
    exact ⟨member, sameKey.symm⟩
  · rintro ⟨member, rfl⟩
    exact ⟨value, member, rfl, rfl⟩

theorem Filled.insert
    {size : Nat} {map : CallstackMap}
    {bindings : List (MapBinding HashedCallstack Callstack)}
    (filled : Filled size map bindings)
    (callstack : Callstack) :
    ∃ next,
      HashMap.insert callstackFunctions callstack.hashed callstackLength
        callstack map = some next ∧
      Filled size next
        (FiniteMap.add (policy callstackFunctions size) bindings
          (callstack.hashed, callstackLength) callstack) := by
  obtain ⟨rfl, represents, addresses⟩ := filled
  obtain ⟨-, inserted⟩ := represents.insertEntry addresses callstack.hashed
    callstack (show callstackLength < 2 ^ 31 by decide)
  refine ⟨_, ?_, insertEntry_buckets .., inserted, ?_⟩
  · rw [HashMap.insert, represents.getHashEntry_eq]
    rfl
  · rw [FiniteMap.add, List.map_append, addresses, List.length_append,
      List.length_singleton, List.range_succ, List.map_append]
    rfl

theorem Filled.insertCallstacks
    {size : Nat} {map : CallstackMap}
    {bindings : List (MapBinding HashedCallstack Callstack)}
    (filled : Filled size map bindings)
    {callstacks : List Callstack}
    (recorded : ∀ callstack ∈ callstacks, 1 ≤ callstack.depth) :
    ∃ final, insertCallstacks callstacks map = some final ∧
      Filled size final (recordBindings size callstacks bindings) := by
  induction callstacks generalizing map bindings with
  | nil => exact ⟨map, rfl, filled⟩
  | cons callstack callstacks inductionHypothesis =>
      rw [List.forall_mem_cons] at recorded
      obtain ⟨next, inserted, nextFilled⟩ := filled.insert callstack
      obtain ⟨final, rest, finalFilled⟩ :=
        inductionHypothesis nextFilled recorded.2
      refine ⟨final, ?_, finalFilled⟩
      rw [Causer.insertCallstacks, if_neg (by omega), inserted,
        Option.bind_some, rest]

/-- A map that has been initialised is filled with nothing. -/
theorem filled_initializeMap
    (memory : CallstackMap) {exponent : Nat} (word : exponent < 64) :
    Filled (2 ^ exponent) (initializeMap memory (2 ^ exponent)) [] where
  buckets := rfl
  represents := represents_initializeMap callstackFunctions memory word
  addresses := rfl

/-- A map with few entries can be searched. -/
theorem searchable_of_length
    {map : CallstackMap}
    {bindings : List (MapBinding HashedCallstack Callstack)}
    (represents : Represents callstackFunctions map bindings)
    (small : bindings.length < 2 ^ 31)
    {key : HashedCallstack} :
    Searchable callstackFunctions map (key, callstackLength) := by
  refine ⟨show callstackLength < 2 ^ 31 by decide, ?_⟩
  have short : (inBucket callstackFunctions map
      (hashIndex callstackFunctions map key callstackLength)
        bindings).length ≤ bindings.length := List.length_filter_le ..
  rw [represents.count _ (represents.hashIndex_lt key callstackLength)]
  exact (Nat.mod_le _ _).trans_lt (by omega)

/-- A search that finds a binding leaves the map as it is. -/
theorem Filled.findOrAdd
    {size : Nat} {map : CallstackMap}
    {bindings : List (MapBinding HashedCallstack Callstack)}
    (filled : Filled size map bindings)
    (fits : bindings.length < 2 ^ 64)
    {callstack : Callstack}
    (searchable : Searchable callstackFunctions map
      (callstack.hashed, callstackLength))
    {binding : MapBinding HashedCallstack Callstack}
    (found : FiniteMap.lookup (policy callstackFunctions size) bindings
      (callstack.hashed, callstackLength) = some binding)
    (newval : Callstack) :
    HashMap.findOrAdd callstackFunctions callstack.hashed callstackLength
        newval map = some (binding.address, map) ∧
      (map.entries binding.address).value = binding.value := by
  obtain ⟨rfl, represents, -⟩ := filled
  have searched := represents.getEntry_eq lawful_callstackFunctions _ _
    (searchable.length_lt represents fits)
  rw [found] at searched
  constructor
  · rw [HashMap.findOrAdd]
    simp only [represents.getHashEntry_eq, searched, Option.bind_eq_bind,
      Option.bind_some, Option.map_some]
    rfl
  · rw [represents.entries binding (FiniteMap.lookup_eq_some found).1]

/-- A search that finds none adds an entry. -/
theorem Filled.findOrAdd_absent
    {size : Nat} {map : CallstackMap}
    {bindings : List (MapBinding HashedCallstack Callstack)}
    (filled : Filled size map bindings)
    (fits : bindings.length < 2 ^ 64)
    {callstack : Callstack}
    (searchable : Searchable callstackFunctions map
      (callstack.hashed, callstackLength))
    (absent : FiniteMap.lookup (policy callstackFunctions size) bindings
      (callstack.hashed, callstackLength) = none)
    (newval : Callstack) :
    ∃ address, ∃ next : CallstackMap,
      HashMap.findOrAdd callstackFunctions callstack.hashed callstackLength
          newval map = some (address, next) ∧
        next.totalEntry = sizeIncrement map.totalEntry := by
  obtain ⟨rfl, represents, -⟩ := filled
  have searched := represents.getEntry_eq lawful_callstackFunctions _ _
    (searchable.length_lt represents fits)
  rw [absent] at searched
  have counted := insertEntry_totalEntry
    (hashIndex callstackFunctions map callstack.hashed callstackLength)
    callstack.hashed callstackLength newval map
  rw [HashMap.findOrAdd]
  simp only [represents.getHashEntry_eq, searched, Option.bind_eq_bind,
    Option.bind_some, Option.map_none]
  exact ⟨_, _, rfl, counted⟩

end HashMap

/-- Two keys with their hashes are the same when their sites are. -/
theorem same_hashed_iff (size : Nat) (first second : Callstack) :
    (HashMap.policy callstackFunctions size).same
        (first.hashed, callstackLength) (second.hashed, callstackLength) =
          true ↔
      first.stack 0 = second.stack 0 ∧ first.offset = second.offset := by
  simp only [HashMap.policy, callstackFunctions, Callstack.same,
    Callstack.hashed_stack, Callstack.hashed_offset, beq_self_eq_true,
    Bool.and_true, Bool.and_eq_true, beq_iff_eq]

/-- What is saved for a map with entries: their number, and their values in some
order. -/
theorem saveHistoryInfo_eq
    (selfmap : SelfMap) (boostratio : Int)
    {map : CallstackMap}
    {bindings : List (HashMap.MapBinding HashedCallstack Callstack)}
    (represents : HashMap.Represents callstackFunctions map bindings)
    (fits : bindings.length < 2 ^ 64)
    (nonempty : bindings ≠ [])
    (file : Option Text) :
    ∃ (order : List (HashMap.MapBinding HashedCallstack Callstack))
        (newBoost : Int),
      order.Perm bindings ∧
        newBoost = Callstack.savedBoostratio boostratio
          (order.map FiniteMap.Binding.value) ∧
        saveHistoryInfo selfmap boostratio map file =
          some (newBoost,
            some (writeUnsigned (BitVec.ofNat 64 map.getEntryNumber) ++
              '\n' :: writeCallstacks selfmap newBoost
                (order.map FiniteMap.Binding.value))) := by
  obtain ⟨order, perm, visited⟩ := represents.visited_perm fits
  have values : (order.map FiniteMap.Binding.address).map
      (fun address => (map.entries address).value) =
        order.map FiniteMap.Binding.value := by
    rw [List.map_map]
    apply List.map_congr_left
    intro binding member
    rw [Function.comp_apply,
      represents.entries binding (perm.mem_iff.mp member)]
  have positive : map.getEntryNumber > 0 := by
    rw [HashMap.getEntryNumber, represents.total, Nat.mod_eq_of_lt fits]
    exact List.length_pos_of_ne_nil nonempty
  refine ⟨order, _, perm, rfl, ?_⟩
  rw [saveHistoryInfo, if_pos positive, visited]
  simp only [Option.bind_eq_bind, Option.bind_some, values]

end Causer
