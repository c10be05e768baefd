import Causer.Xdefines
import Causer.Library.Ring
import Causer.Library.FiniteMap
import Mathlib.Data.List.Find

/-!
# The hash map

`HashMap` keeps one ring of entries for each bucket, a count for each bucket
that bounds every search, and a pool from which entries are taken in order and
which is replaced when it is used up.  Entries are never moved, and callers keep
pointers to their values.  The searches run down a machine integer that is
narrower than the count it is copied from.
-/

namespace Causer

/-- The address of an entry: the block of memory its pool was given, and the
place in it. -/
structure EntryAddress where
  block : Nat
  index : Nat
  deriving DecidableEq

/-- The address of a list node: the head of a bucket or an entry. -/
inductive BucketNode
  | head (bucket : Nat)
  | entry (address : EntryAddress)
  deriving DecidableEq

/-- An `Entry`, without its list node. -/
structure Entry (Key Value : Type) where
  key : Key
  keylen : Nat
  value : Value

/-- The functions a map is initialised with, and what `findOrAdd` stores for the
value of a key it adds. -/
structure HashFunctions (Key Value : Type) where
  hashfunc : Key → Nat → Word
  keycmp : Key → Key → Nat → Bool
  reset : Value → Value

/-- The data of a `HashMap`. -/
structure HashMap (Key Value : Type) where
  /-- `_buckets`. -/
  buckets : Nat
  /-- The `count` of every bucket. -/
  count : Nat → Nat
  /-- The pointers of all list nodes. -/
  links : Ring.Links BucketNode
  /-- The entries of all pools. -/
  entries : EntryAddress → Entry Key Value
  /-- The block `allentries` points to.  Blocks are numbered in the order in
  which the allocator hands them out. -/
  allentries : Nat
  /-- `entryindex`. -/
  entryindex : Nat
  /-- `_totalEntry`. -/
  totalEntry : Nat

/-- A `size_t` after an increment. -/
def sizeIncrement (size : Nat) : Nat := (size + 1) % 2 ^ 64

/-- A `size_t` passed as an `int` and stored as a `size_t` again. -/
def sizeThroughInt (size : Nat) : Nat :=
  ((BitVec.ofNat 32 size).signExtend 64).toNat

namespace HashMap

variable {Key Value : Type}

/-- `initialize`, for a memory with any contents. -/
def initializeMap (memory : HashMap Key Value) (size : Nat) :
    HashMap Key Value where
  buckets := size
  count := fun _ => 0
  links := (List.range size).foldl
    (fun links bucket => Ring.nodeInit links (.head bucket)) memory.links
  entries := memory.entries
  allentries := 0
  entryindex := 0
  totalEntry := 0

/-- `getHashEntry`. -/
def getHashEntry (map : HashMap Key Value) (index : Nat) : Option Nat :=
  if index < map.buckets then some index else none

/-- `createNewEntry`. -/
def createNewEntry (key : Key) (keylen : Nat) (value : Value)
    (map : HashMap Key Value) : EntryAddress × HashMap Key Value :=
  let map :=
    if map.entryindex > map.buckets - 1 then
      { map with allentries := map.allentries + 1, entryindex := 0 }
    else map
  let address : EntryAddress := ⟨map.allentries, map.entryindex⟩
  (address,
    { map with
      entryindex := sizeIncrement map.entryindex
      links := Ring.nodeInit map.links (.entry address)
      entries := Function.update map.entries address
        ⟨key, sizeThroughInt keylen, value⟩ })

/-- `insertEntry`. -/
def insertEntry (head : Nat) (key : Key) (keylen : Nat) (value : Value)
    (map : HashMap Key Value) : EntryAddress × HashMap Key Value :=
  let (entry, map) := createNewEntry key keylen value map
  (entry,
    { map with
      links := Ring.insertTail map.links (.entry entry) (.head head)
      count := Function.update map.count head
        (sizeIncrement (map.count head))
      totalEntry := sizeIncrement map.totalEntry })

/-- `getEntryNumber`. -/
def getEntryNumber (map : HashMap Key Value) : Nat := map.totalEntry

variable (functions : HashFunctions Key Value)

/-- `hashIndex`. -/
def hashIndex (map : HashMap Key Value) (key : Key) (keylen : Nat) : Nat :=
  (functions.hashfunc key keylen &&& (BitVec.ofNat 64 map.buckets - 1)).toNat

/-- The test of the search loop. -/
def matchesKey (map : HashMap Key Value) (key : Key) (keylen : Nat)
    (address : EntryAddress) : Bool :=
  functions.keycmp (map.entries address).key key keylen &&
    (map.entries address).keylen == keylen

/-- The loop of `getEntry`, for a count.  It fails when it reads a bucket as an
entry. -/
def getEntryLoop (map : HashMap Key Value) (key : Key) (keylen : Nat) :
    Nat → BucketNode → Option (Option EntryAddress)
  | 0, _ => some none
  | _ + 1, .head _ => none
  | count + 1, .entry address =>
      if matchesKey functions map key keylen address then some (some address)
      else getEntryLoop map key keylen count (map.links.next (.entry address))

/-- `getEntry`.  Its `count` is an `int`. -/
def getEntry (map : HashMap Key Value) (first : Nat)
    (key : Key) (keylen : Nat) : Option (Option EntryAddress) :=
  getEntryLoop functions map key keylen
    (BitVec.ofNat 32 (map.count first)).toInt.toNat
    (map.links.next (.head first))

/-- `find`: the value found, if any. -/
def find (key : Key) (keylen : Nat) (map : HashMap Key Value) :
    Option (Option Value) := do
  let first ← map.getHashEntry (hashIndex functions map key keylen)
  let entry ← getEntry functions map first key keylen
  pure (entry.map fun address => (map.entries address).value)

/-- `findOrAdd`: the entry whose value the result points to. -/
def findOrAdd (key : Key) (keylen : Nat) (newval : Value)
    (map : HashMap Key Value) : Option (EntryAddress × HashMap Key Value) := do
  let first ← map.getHashEntry (hashIndex functions map key keylen)
  match ← getEntry functions map first key keylen with
  | some entry => pure (entry, map)
  | none =>
      let (entry, map) := insertEntry first key keylen newval map
      pure (entry,
        { map with
          entries := Function.update map.entries entry
            { map.entries entry with
              value := functions.reset (map.entries entry).value } })

/-- `insert`. -/
def insert (key : Key) (keylen : Nat) (value : Value)
    (map : HashMap Key Value) : Option (HashMap Key Value) := do
  let first ← map.getHashEntry (hashIndex functions map key keylen)
  pure (insertEntry first key keylen value map).2

/-- `insertIfAbsent`: whether the key was there. -/
def insertIfAbsent (key : Key) (keylen : Nat) (value : Value)
    (map : HashMap Key Value) : Option (Bool × HashMap Key Value) := do
  let first ← map.getHashEntry (hashIndex functions map key keylen)
  match ← getEntry functions map first key keylen with
  | some _ => pure (true, map)
  | none => pure (false, (insertEntry first key keylen value map).2)

/-- A caller writes to a value through a pointer it has kept. -/
def assign (address : EntryAddress) (value : Value)
    (map : HashMap Key Value) : HashMap Key Value :=
  { map with
    entries := Function.update map.entries address
      { map.entries address with value := value } }

/-- A key with the length it is passed with. -/
abbrev SizedKey (Key : Type) := Key × Nat

/-- Where the entry of the key that is added next will be. -/
def addressAt (size number : Nat) : EntryAddress :=
  ⟨number / size, number % size⟩

/-- The finite map a hash map is meant to be. -/
def policy (size : Nat) :
    FiniteMap.Policy (SizedKey Key) EntryAddress Value where
  same := fun first second =>
    functions.keycmp first.1 second.1 second.2 && first.2 == second.2
  fresh := addressAt size
  reset := functions.reset

/-- Keys are compared by an equivalence and equal keys have equal hashes. -/
structure Lawful : Prop where
  refl : ∀ key keylen, functions.keycmp key key keylen = true
  symm : ∀ {first second keylen},
    functions.keycmp first second keylen = true →
      functions.keycmp second first keylen = true
  trans : ∀ {first second third keylen},
    functions.keycmp first second keylen = true →
      functions.keycmp second third keylen = true →
        functions.keycmp first third keylen = true
  hash_eq : ∀ {first second keylen},
    functions.keycmp first second keylen = true →
      functions.hashfunc first keylen = functions.hashfunc second keylen

/-- A binding of the represented map. -/
abbrev MapBinding (Key Value : Type) :=
  FiniteMap.Binding (SizedKey Key) EntryAddress Value

/-- The bindings in one bucket, in the order of the ring. -/
def inBucket (map : HashMap Key Value) (bucket : Nat)
    (bindings : List (MapBinding Key Value)) : List (MapBinding Key Value) :=
  bindings.filter fun binding =>
    hashIndex functions map binding.key.1 binding.key.2 = bucket

/-- The memory represents a finite map: the rings of the buckets go through the
entries of its bindings, the counts are their numbers, and the pool has handed
out exactly their addresses. -/
structure Represents (map : HashMap Key Value)
    (bindings : List (MapBinding Key Value)) : Prop where
  /-- The number of buckets is a power of two that fits a word. -/
  buckets : ∃ exponent < 64, map.buckets = 2 ^ exponent
  /-- Each bucket is the ring of its entries. -/
  ring : ∀ bucket < map.buckets,
    Ring.IsRing map.links (.head bucket)
      (((inBucket functions map bucket bindings).map
        FiniteMap.Binding.address).map .entry)
  /-- Each count is the number of its entries. -/
  count : ∀ bucket < map.buckets,
    map.count bucket =
      (inBucket functions map bucket bindings).length % 2 ^ 64
  /-- The entries hold keys, lengths and values. -/
  entries : ∀ binding ∈ bindings,
    map.entries binding.address =
      ⟨binding.key.1, binding.key.2, binding.value⟩
  /-- The pool has handed out as many entries as there are bindings. -/
  pool : map.allentries * map.buckets + map.entryindex = bindings.length
  /-- The pool is not overdrawn. -/
  entryindex : map.entryindex ≤ map.buckets
  /-- The total is the number of bindings. -/
  total : map.totalEntry = bindings.length % 2 ^ 64

/-- The layout that an insertion keeps, with any number of buckets and whatever
the entries hold. -/
structure Laid (map : HashMap Key Value)
    (bindings : List (MapBinding Key Value)) : Prop where
  buckets_pos : 0 < map.buckets
  buckets_lt : map.buckets < 2 ^ 64
  ring : ∀ bucket < map.buckets,
    Ring.IsRing map.links (.head bucket)
      (((inBucket functions map bucket bindings).map
        FiniteMap.Binding.address).map .entry)
  count : ∀ bucket < map.buckets,
    map.count bucket =
      (inBucket functions map bucket bindings).length % 2 ^ 64
  pool : map.allentries * map.buckets + map.entryindex = bindings.length
  entryindex : map.entryindex ≤ map.buckets
  total : map.totalEntry = bindings.length % 2 ^ 64

section Arithmetic

/-- A length below `2 ^ 31` is stored as it is. -/
theorem sizeThroughInt_of_lt {size : Nat} (small : size < 2 ^ 31) :
    sizeThroughInt size = size := by
  have value : (BitVec.ofNat 32 size).toNat = size := by
    rw [BitVec.toNat_ofNat]
    omega
  have msb : (BitVec.ofNat 32 size).msb = false := by
    rw [BitVec.msb_eq_false_iff_two_mul_lt, value]
    omega
  rw [sizeThroughInt, BitVec.signExtend_eq_setWidth_of_msb_false msb,
    BitVec.toNat_setWidth, value]
  omega

/-- A count below `2 ^ 31` is copied as it is. -/
theorem intCount_of_lt {count : Nat} (small : count < 2 ^ 31) :
    (BitVec.ofNat 32 count).toInt.toNat = count := by
  have value : (BitVec.ofNat 32 count).toNat = count := by
    rw [BitVec.toNat_ofNat]
    omega
  rw [BitVec.toInt_eq_toNat_of_lt (by rw [value]; omega), value,
    Int.toNat_natCast]

/-- Places in consecutive blocks are all different. -/
theorem addressAt_injective {size : Nat} :
    Function.Injective (addressAt size) := by
  intro first second same
  rw [addressAt, addressAt, EntryAddress.mk.injEq] at same
  rw [← Nat.div_add_mod first size, ← Nat.div_add_mod second size, same.1,
    same.2]

end Arithmetic

/-- The represented map compares keys by an equivalence. -/
theorem Lawful.policy_lawful
    {functions : HashFunctions Key Value}
    (lawful : Lawful functions) (size : Nat) :
    (policy functions size).Lawful where
  refl := by simp [policy, lawful.refl]
  symm := by
    rintro ⟨first, length⟩ ⟨second, other⟩ same
    simp only [policy, Bool.and_eq_true, beq_iff_eq] at same ⊢
    obtain ⟨same, rfl⟩ := same
    exact ⟨lawful.symm same, rfl⟩
  trans := by
    rintro ⟨first, length⟩ ⟨second, other⟩ ⟨third, last⟩ same again
    simp only [policy, Bool.and_eq_true, beq_iff_eq] at same again ⊢
    obtain ⟨same, rfl⟩ := same
    obtain ⟨again, rfl⟩ := again
    exact ⟨lawful.trans same again, rfl⟩
  fresh_injective := addressAt_injective

section Representation

variable {functions} {map : HashMap Key Value}
variable {bindings : List (MapBinding Key Value)}

/-- A map that is represented is laid out. -/
theorem Represents.laid (represents : Represents functions map bindings) :
    Laid functions map bindings := by
  obtain ⟨exponent, fits, buckets⟩ := represents.buckets
  exact
    { represents with
      buckets_pos := buckets ▸ Nat.two_pow_pos exponent
      buckets_lt := buckets ▸ Nat.pow_lt_pow_right (by decide) fits }

/-- Every key belongs to a bucket. -/
theorem Laid.hashIndex_lt
    (laid : Laid functions map bindings)
    (key : Key) (keylen : Nat) :
    hashIndex functions map key keylen < map.buckets := by
  have positive := laid.buckets_pos
  have bound := laid.buckets_lt
  have ordered : (1 : Word) ≤ BitVec.ofNat 64 map.buckets := by
    rw [BitVec.le_def, BitVec.toNat_ofNat, Nat.mod_eq_of_lt bound]
    exact positive
  have mask : (BitVec.ofNat 64 map.buckets - 1).toNat = map.buckets - 1 := by
    rw [BitVec.toNat_sub_of_le ordered, BitVec.toNat_ofNat,
      Nat.mod_eq_of_lt bound]
    rfl
  have masked : hashIndex functions map key keylen ≤ map.buckets - 1 := by
    rw [hashIndex, BitVec.toNat_and, mask]
    exact Nat.and_le_right
  omega

theorem Represents.hashIndex_lt
    (represents : Represents functions map bindings)
    (key : Key) (keylen : Nat) :
    hashIndex functions map key keylen < map.buckets :=
  represents.laid.hashIndex_lt key keylen

theorem Laid.getHashEntry_eq
    (laid : Laid functions map bindings)
    (key : Key) (keylen : Nat) :
    map.getHashEntry (hashIndex functions map key keylen) =
      some (hashIndex functions map key keylen) :=
  if_pos (laid.hashIndex_lt key keylen)

theorem Represents.getHashEntry_eq
    (represents : Represents functions map bindings)
    (key : Key) (keylen : Nat) :
    map.getHashEntry (hashIndex functions map key keylen) =
      some (hashIndex functions map key keylen) :=
  represents.laid.getHashEntry_eq key keylen

/-- Equal keys belong to one bucket. -/
theorem hashIndex_of_same
    (lawful : Lawful functions)
    {first second : SizedKey Key}
    (same : (policy functions map.buckets).same first second = true) :
    hashIndex functions map first.1 first.2 =
      hashIndex functions map second.1 second.2 := by
  simp only [policy, Bool.and_eq_true, beq_iff_eq] at same
  rw [hashIndex, hashIndex, same.2, lawful.hash_eq same.1]

/-- Searching along a chain of entries finds the first that matches, among as
many as are counted. -/
theorem getEntryLoop_take
    (key : Key) (keylen : Nat)
    {first : BucketNode} {addresses : List EntryAddress}
    (chain : (first :: addresses.map .entry).IsChain
      (Ring.Linked map.links))
    {count : Nat}
    (counted : count ≤ addresses.length) :
    getEntryLoop functions map key keylen count (map.links.next first) =
      some ((addresses.take count).find?
        (matchesKey functions map key keylen)) := by
  induction addresses generalizing first count with
  | nil =>
      obtain rfl : count = 0 := Nat.le_zero.mp counted
      rfl
  | cons address addresses inductionHypothesis =>
      cases count with
      | zero => rfl
      | succ count =>
          rw [List.map_cons, List.isChain_cons_cons] at chain
          rw [chain.1.next, getEntryLoop, List.take_succ_cons,
            List.find?_cons]
          cases matchesKey functions map key keylen address with
          | true => rfl
          | false =>
              exact inductionHypothesis chain.2
                (Nat.le_of_succ_le_succ counted)

/-- The `int` that a search counts down from is not above the number of
entries. -/
theorem Laid.intCount_le
    (laid : Laid functions map bindings)
    {bucket : Nat}
    (inside : bucket < map.buckets) :
    (BitVec.ofNat 32 (map.count bucket)).toInt.toNat ≤
      ((inBucket functions map bucket bindings).map
        FiniteMap.Binding.address).length := by
  rw [laid.count _ inside, List.length_map, Int.toNat_le,
    BitVec.toInt_eq_toNat_cond, BitVec.toNat_ofNat]
  split <;> omega

/-- A search never leaves the entries of its bucket. -/
theorem Laid.getEntry_isSome
    (laid : Laid functions map bindings)
    (key : Key) (keylen : Nat) :
    (getEntry functions map (hashIndex functions map key keylen) key
      keylen).isSome = true := by
  have bound := laid.hashIndex_lt key keylen
  have chain := (laid.ring _ bound).chain.left_of_append
  rw [getEntry, getEntryLoop_take key keylen chain (laid.intCount_le bound),
    Option.isSome_some]

/-- The entries of the bindings hold their keys, lengths and values. -/
def HoldsEntries (map : HashMap Key Value)
    (bindings : List (MapBinding Key Value)) : Prop :=
  ∀ binding ∈ bindings,
    map.entries binding.address =
      ⟨binding.key.1, binding.key.2, binding.value⟩

/-- The entry of a binding matches a key when the binding's key is the same. -/
theorem HoldsEntries.matchesKey_eq
    (entries : HoldsEntries map bindings)
    {binding : MapBinding Key Value}
    (member : binding ∈ bindings)
    (key : Key) (keylen : Nat) :
    matchesKey functions map key keylen binding.address =
      (policy functions map.buckets).same binding.key (key, keylen) := by
  rw [matchesKey, entries binding member]
  rfl

/-- `getEntry` finds the binding of a key when its bucket holds fewer than
`2 ^ 31` entries. -/
theorem Laid.getEntry_eq
    (lawful : Lawful functions)
    (laid : Laid functions map bindings)
    (entries : HoldsEntries map bindings)
    (key : Key) (keylen : Nat)
    (small : (inBucket functions map (hashIndex functions map key keylen)
      bindings).length < 2 ^ 31) :
    getEntry functions map (hashIndex functions map key keylen) key keylen =
      some ((FiniteMap.lookup (policy functions map.buckets) bindings
        (key, keylen)).map FiniteMap.Binding.address) := by
  have bound := laid.hashIndex_lt key keylen
  have chain := (laid.ring _ bound).chain.left_of_append
  have searched : getEntryLoop functions map key keylen _ _ = _ :=
    getEntryLoop_take key keylen chain le_rfl
  rw [List.take_length, List.length_map] at searched
  have count := laid.count _ bound
  rw [Nat.mod_eq_of_lt (by omega)] at count
  rw [getEntry, count, intCount_of_lt small, searched, List.find?_map,
    inBucket, List.find?_filter, FiniteMap.lookup]
  congr 2
  apply List.find?_congr
  intro binding member
  rw [Function.comp_apply, entries.matchesKey_eq member]
  cases same : (policy functions map.buckets).same binding.key (key, keylen) with
  | true => simp [hashIndex_of_same lawful same]
  | false => simp

theorem Represents.getEntry_eq
    (lawful : Lawful functions)
    (represents : Represents functions map bindings)
    (key : Key) (keylen : Nat)
    (small : (inBucket functions map (hashIndex functions map key keylen)
      bindings).length < 2 ^ 31) :
    getEntry functions map (hashIndex functions map key keylen) key keylen =
      some ((FiniteMap.lookup (policy functions map.buckets) bindings
        (key, keylen)).map FiniteMap.Binding.address) :=
  represents.laid.getEntry_eq lawful represents.entries key keylen small

/-- The pool hands out the next address. -/
theorem Laid.createNewEntry_eq
    (laid : Laid functions map bindings)
    (key : Key) (keylen : Nat) (value : Value) :
    ∃ allentries entryindex,
      allentries * map.buckets + entryindex = bindings.length + 1 ∧
      entryindex ≤ map.buckets ∧
      createNewEntry key keylen value map =
        (addressAt map.buckets bindings.length,
          { map with
            allentries := allentries
            entryindex := entryindex
            links := Ring.nodeInit map.links
              (.entry (addressAt map.buckets bindings.length))
            entries := Function.update map.entries
              (addressAt map.buckets bindings.length)
              ⟨key, sizeThroughInt keylen, value⟩ }) := by
  have positive := laid.buckets_pos
  have wide := laid.buckets_lt
  have pool := laid.pool
  have bound := laid.entryindex
  by_cases full : map.entryindex > map.buckets - 1
  · -- the pool is used up, so its index is the number of buckets
    have last : map.entryindex = map.buckets := by omega
    have length : bindings.length =
        (map.allentries + 1) * map.buckets + 0 := by
      rw [← pool, last, Nat.succ_mul, Nat.add_zero]
    have address : addressAt map.buckets bindings.length =
        ⟨map.allentries + 1, 0⟩ := by
      rw [addressAt, length, Nat.add_zero, Nat.mul_div_cancel _ positive,
        Nat.mul_mod_left]
    refine ⟨map.allentries + 1, 1, by omega, positive, ?_⟩
    rw [createNewEntry, if_pos full, address]
    rfl
  · have address : addressAt map.buckets bindings.length =
        ⟨map.allentries, map.entryindex⟩ := by
      have inside : map.entryindex < map.buckets := by omega
      rw [addressAt, ← pool, Nat.mul_add_mod_of_lt inside,
        Nat.mul_comm map.allentries, Nat.mul_add_div positive,
        Nat.div_eq_of_lt inside, Nat.add_zero]
    refine ⟨map.allentries, map.entryindex + 1, by omega, by omega, ?_⟩
    have increment : sizeIncrement map.entryindex = map.entryindex + 1 :=
      Nat.mod_eq_of_lt (by omega)
    rw [createNewEntry, if_neg full, address, increment]

/-- An insertion leaves the number of buckets. -/
theorem insertEntry_buckets
    (head : Nat) (key : Key) (keylen : Nat) (value : Value)
    (map : HashMap Key Value) :
    (insertEntry head key keylen value map).2.buckets = map.buckets := by
  simp only [insertEntry, createNewEntry]
  split <;> rfl

/-- An insertion counts one more entry. -/
theorem insertEntry_totalEntry
    (head : Nat) (key : Key) (keylen : Nat) (value : Value)
    (map : HashMap Key Value) :
    (insertEntry head key keylen value map).2.totalEntry =
      sizeIncrement map.totalEntry := by
  simp only [insertEntry, createNewEntry]
  split <;> rfl

/-- The next address has not been handed out. -/
theorem addressAt_not_mem
    {size : Nat}
    (addresses : bindings.map FiniteMap.Binding.address =
      (List.range bindings.length).map (addressAt size)) :
    addressAt size bindings.length ∉
      bindings.map FiniteMap.Binding.address := by
  rw [addresses, List.mem_map]
  rintro ⟨number, member, same⟩
  rw [addressAt_injective same, List.mem_range] at member
  exact absurd member (Nat.lt_irrefl _)

/-- Addresses that have been handed out in order are all different. -/
theorem nodup_addresses
    {size : Nat}
    (addresses : bindings.map FiniteMap.Binding.address =
      (List.range bindings.length).map (addressAt size)) :
    (bindings.map FiniteMap.Binding.address).Nodup := by
  rw [addresses]
  exact List.nodup_range.map addressAt_injective

/-- The nodes of one bucket are not those of another. -/
theorem disjoint_buckets
    (nodup : (bindings.map FiniteMap.Binding.address).Nodup)
    {first second : Nat}
    (different : first ≠ second) :
    (BucketNode.head first ::
        ((inBucket functions map first bindings).map
          FiniteMap.Binding.address).map .entry).Disjoint
      (BucketNode.head second ::
        ((inBucket functions map second bindings).map
          FiniteMap.Binding.address).map .entry) := by
  intro node inFirst inSecond
  simp only [List.mem_cons, List.map_map, List.mem_map, inBucket,
    List.mem_filter, decide_eq_true_eq, Function.comp_apply]
    at inFirst inSecond
  rcases inFirst with rfl | ⟨one, ⟨oneMember, oneBucket⟩, rfl⟩
  · simp [different] at inSecond
  · simp only [reduceCtorEq, false_or, BucketNode.entry.injEq] at inSecond
    obtain ⟨two, ⟨twoMember, twoBucket⟩, same⟩ := inSecond
    have equal := List.inj_on_of_nodup_map nodup twoMember oneMember same
    exact different (oneBucket.symm.trans (equal ▸ twoBucket))

/-- A new binding comes last in its bucket. -/
@[simp] theorem inBucket_append_self
    {binding : MapBinding Key Value} {bucket : Nat}
    (inside : hashIndex functions map binding.key.1 binding.key.2 = bucket) :
    inBucket functions map bucket (bindings ++ [binding]) =
      inBucket functions map bucket bindings ++ [binding] := by
  simp [inBucket, inside]

/-- A new binding leaves the other buckets alone. -/
@[simp] theorem inBucket_append_of_ne
    {binding : MapBinding Key Value} {bucket : Nat}
    (outside : hashIndex functions map binding.key.1 binding.key.2 ≠ bucket) :
    inBucket functions map bucket (bindings ++ [binding]) =
      inBucket functions map bucket bindings := by
  simp [inBucket, outside]

/-- An address that has not been handed out is in no bucket. -/
theorem entry_not_mem
    {address : EntryAddress}
    (absent : address ∉ bindings.map FiniteMap.Binding.address)
    (bucket : Nat) :
    BucketNode.entry address ∉
      BucketNode.head bucket ::
        ((inBucket functions map bucket bindings).map
          FiniteMap.Binding.address).map .entry := by
  intro member
  simp only [List.mem_cons, reduceCtorEq, false_or, List.map_map,
    List.mem_map, Function.comp_apply, BucketNode.entry.injEq] at member
  obtain ⟨binding, inside, same⟩ := member
  exact absent (List.mem_map.mpr
    ⟨binding, List.mem_of_mem_filter inside, same⟩)

/-- Inserting an entry appends a binding, whatever its value is. -/
theorem Laid.insertEntry
    (laid : Laid functions map bindings)
    (addresses : bindings.map FiniteMap.Binding.address =
      (List.range bindings.length).map (addressAt map.buckets))
    (key : Key) (keylen : Nat) (value stored : Value) :
    (insertEntry (hashIndex functions map key keylen) key keylen value
        map).1 = addressAt map.buckets bindings.length ∧
      Laid functions
        (insertEntry (hashIndex functions map key keylen) key keylen value
          map).2
        (bindings ++
          [⟨(key, keylen), addressAt map.buckets bindings.length, stored⟩]) := by
  have absent := addressAt_not_mem addresses
  obtain ⟨allentries, entryindex, pool, bound, created⟩ :=
    laid.createNewEntry_eq key keylen value
  rw [HashMap.insertEntry, created]
  refine ⟨rfl, ?_⟩
  let binding : MapBinding Key Value :=
    ⟨(key, keylen), addressAt map.buckets bindings.length, stored⟩
  have inside_own : hashIndex functions map binding.key.1 binding.key.2 =
      hashIndex functions map key keylen := rfl
  have initialised : ∀ bucket < map.buckets,
      Ring.IsRing (Ring.nodeInit map.links
          (.entry (addressAt map.buckets bindings.length))) (.head bucket)
        (((inBucket functions map bucket bindings).map
          FiniteMap.Binding.address).map .entry) :=
    fun bucket inside =>
      (laid.ring bucket inside).nodeInit (entry_not_mem absent bucket)
  have own := initialised _ (laid.hashIndex_lt key keylen)
  refine
    { buckets_pos := laid.buckets_pos
      buckets_lt := laid.buckets_lt
      ring := fun bucket inside => ?_
      count := fun bucket inside => ?_
      pool := ?_
      entryindex := bound
      total := ?_ }
  · change Ring.IsRing _ _
      (((inBucket functions map bucket (bindings ++ [binding])).map _).map _)
    by_cases same : hashIndex functions map key keylen = bucket
    · subst same
      rw [inBucket_append_self inside_own, List.map_append, List.map_append]
      exact own.insertTail (entry_not_mem absent _)
    · rw [inBucket_append_of_ne same]
      exact own.insertTail_apart (initialised bucket inside)
        (entry_not_mem absent bucket)
        (disjoint_buckets (nodup_addresses addresses) same)
  · change Function.update map.count _ _ bucket =
      (inBucket functions map bucket (bindings ++ [binding])).length % 2 ^ 64
    by_cases same : hashIndex functions map key keylen = bucket
    · subst same
      rw [inBucket_append_self inside_own, Function.update_self,
        laid.count _ inside, sizeIncrement, List.length_append,
        List.length_singleton, Nat.mod_add_mod]
    · rw [inBucket_append_of_ne same, Function.update_of_ne (Ne.symm same)]
      exact laid.count bucket inside
  · rw [List.length_append, List.length_singleton]
    exact pool
  · rw [List.length_append, List.length_singleton]
    change sizeIncrement map.totalEntry = _
    rw [laid.total, sizeIncrement, Nat.mod_add_mod]

/-- What the entries hold after an insertion. -/
theorem Laid.insertEntry_entries
    (laid : Laid functions map bindings)
    (head : Nat) (key : Key) (keylen : Nat) (value : Value) :
    (HashMap.insertEntry head key keylen value map).2.entries =
      Function.update map.entries (addressAt map.buckets bindings.length)
        ⟨key, sizeThroughInt keylen, value⟩ := by
  obtain ⟨allentries, entryindex, -, -, created⟩ :=
    laid.createNewEntry_eq key keylen value
  rw [HashMap.insertEntry, created]

/-- Inserting an entry adds a binding. -/
theorem Represents.insertEntry
    (represents : Represents functions map bindings)
    (addresses : bindings.map FiniteMap.Binding.address =
      (List.range bindings.length).map (addressAt map.buckets))
    (key : Key) {keylen : Nat} (value : Value)
    (small : keylen < 2 ^ 31) :
    (insertEntry (hashIndex functions map key keylen) key keylen value
        map).1 = addressAt map.buckets bindings.length ∧
      Represents functions
        (insertEntry (hashIndex functions map key keylen) key keylen value
          map).2
        (FiniteMap.add (policy functions map.buckets) bindings (key, keylen)
          value) := by
  have absent := addressAt_not_mem addresses
  obtain ⟨address, laid⟩ :=
    represents.laid.insertEntry addresses key keylen value value
  refine ⟨address, { laid with buckets := ?_, entries := ?_ }⟩
  · rw [insertEntry_buckets]
    exact represents.buckets
  · intro other member
    rw [represents.laid.insertEntry_entries]
    rw [FiniteMap.add, List.mem_append, List.mem_singleton] at member
    rcases member with old | rfl
    · have different : other.address ≠
          addressAt map.buckets bindings.length := by
        intro same
        exact absent (same ▸ List.mem_map_of_mem old)
      rw [Function.update_of_ne different]
      exact represents.entries other old
    · simp [policy, sizeThroughInt_of_lt small]

/-- An assignment changes the bindings of a bucket where they are. -/
theorem inBucket_assign
    (bucket : Nat) (address : EntryAddress) (value : Value) :
    inBucket functions map bucket (FiniteMap.assign bindings address value) =
      FiniteMap.assign (inBucket functions map bucket bindings) address
        value := by
  rw [inBucket, FiniteMap.assign, List.filter_map, FiniteMap.assign, inBucket]
  congr 2
  funext binding
  rw [Function.comp_apply]
  split <;> rfl

/-- Writing to a value assigns to a binding. -/
theorem Represents.assign
    (represents : Represents functions map bindings)
    (address : EntryAddress) (value : Value) :
    Represents functions (assign address value map)
      (FiniteMap.assign bindings address value) := by
  have length : (FiniteMap.assign bindings address value).length =
      bindings.length := List.length_map ..
  refine
    { buckets := represents.buckets
      ring := fun bucket inside => ?_
      count := fun bucket inside => ?_
      entries := fun binding member => ?_
      pool := represents.pool.trans length.symm
      entryindex := represents.entryindex
      total := by rw [length]; exact represents.total }
  · change Ring.IsRing _ _ (((inBucket functions map bucket _).map _).map _)
    rw [inBucket_assign, FiniteMap.map_assign FiniteMap.Binding.address
      fun _ _ => rfl]
    exact represents.ring bucket inside
  · change _ = (inBucket functions map bucket _).length % 2 ^ 64
    rw [inBucket_assign, FiniteMap.assign, List.length_map]
    exact represents.count bucket inside
  · obtain ⟨old, oldMember, rfl⟩ := List.mem_map.mp member
    have held := represents.entries old oldMember
    by_cases same : old.address = address
    · subst same
      simp [HashMap.assign, held]
    · simp [HashMap.assign, same, held]

/-- The loop of `initialize` makes every bucket a ring without entries. -/
theorem isRing_initialise
    (links : Ring.Links BucketNode) {bucket size : Nat}
    (inside : bucket < size) :
    Ring.IsRing
      ((List.range size).foldl
        (fun links bucket => Ring.nodeInit links (.head bucket)) links)
      (.head bucket) [] := by
  induction size with
  | zero => exact absurd inside (Nat.not_lt_zero bucket)
  | succ size inductionHypothesis =>
      rw [List.range_succ, List.foldl_append, List.foldl_cons, List.foldl_nil]
      by_cases last : bucket = size
      · subst last
        exact Ring.isRing_nodeInit _ _
      · apply (inductionHypothesis (by omega)).nodeInit
        simpa using Ne.symm last

/-- A map that has been initialised is laid out, with any number of buckets. -/
theorem laid_initializeMap
    (functions : HashFunctions Key Value)
    (memory : HashMap Key Value)
    {size : Nat}
    (positive : 0 < size)
    (fits : size < 2 ^ 64) :
    Laid functions (initializeMap memory size) [] where
  buckets_pos := positive
  buckets_lt := fits
  ring := fun _ inside => isRing_initialise memory.links inside
  count := fun _ _ => rfl
  pool := by simp [initializeMap]
  entryindex := Nat.zero_le _
  total := rfl

/-- A map that has been initialised represents the empty map. -/
theorem represents_initializeMap
    (functions : HashFunctions Key Value)
    (memory : HashMap Key Value)
    {exponent : Nat}
    (fits : exponent < 64) :
    Represents functions (initializeMap memory (2 ^ exponent)) [] where
  buckets := ⟨exponent, fits, rfl⟩
  ring := fun _ inside => isRing_initialise memory.links inside
  count := fun _ _ => rfl
  entries := by simp
  pool := by simp [initializeMap]
  entryindex := Nat.zero_le _
  total := rfl

end Representation

end HashMap

end Causer
