import Causer.IterationOrder
import Causer.Library.Machine

/-!
# Erasing entries

`erase` takes the entry that it finds out of its ring, and hands it to `free`
although entries are parts of a pool.  It decrements the count of the bucket
whether it has found an entry or not, and never the number of entries.  A ledger
says which entries have been inserted and not erased; without `erase` the map
agrees with it.
-/

namespace Causer

namespace HashMap

/-- A `size_t` after a decrement. -/
def sizeDecrement (size : Nat) : Nat := (size + (2 ^ 64 - 1)) % 2 ^ 64

variable {Key Value : Type} (functions : HashFunctions Key Value)

/-- `erase`: whether the key was there, what is passed to `free`, and the
map. -/
def erase (key : Key) (keylen : Nat) (map : HashMap Key Value) :
    Option (Bool × Option EntryAddress × HashMap Key Value) := do
  let first ← map.getHashEntry (hashIndex functions map key keylen)
  let entry ← getEntry functions map first key keylen
  let map :=
    match entry with
    | some address =>
        { map with links := Ring.removeNode map.links (.entry address) }
    | none => map
  pure (entry.isSome, entry,
    { map with
      count := Function.update map.count first
        (sizeDecrement (map.count first)) })

/-- A call that changes which entries there are. -/
inductive Update (Key Value : Type)
  | add (addition : Addition Key Value)
  | erase (key : SizedKey Key)

/-- The call is an `erase`. -/
def Update.isErase : Update Key Value → Bool
  | .add _ => false
  | .erase _ => true

/-- The map after a call. -/
def Update.perform (map : HashMap Key Value) :
    Update Key Value → Option (HashMap Key Value)
  | .add addition => addition.perform functions map
  | .erase key =>
      (HashMap.erase functions key.1 key.2 map).map fun result => result.2.2

/-- The entries that have been inserted and not erased, in the order of their
insertion, and how many have been inserted. -/
structure Ledger (Key Value : Type) where
  live : List (MapBinding Key Value)
  created : Nat

/-- The value that a call stores. -/
def Addition.stored : Addition Key Value → Value
  | .insert _ value | .insertIfAbsent _ value => value
  | .findOrAdd _ newval => functions.reset newval

/-- `insert` does not look for its key. -/
def Addition.looks : Addition Key Value → Bool
  | .insert _ _ => false
  | .insertIfAbsent _ _ | .findOrAdd _ _ => true

/-- The ledger after a call. -/
def Ledger.record (size : Nat) (ledger : Ledger Key Value) :
    Update Key Value → Ledger Key Value
  | .add addition =>
      if addition.looks ∧
          (FiniteMap.lookup (policy functions size) ledger.live
            addition.key).isSome then
        ledger
      else
        ⟨ledger.live ++
            [⟨addition.key, addressAt size ledger.created,
              addition.stored functions⟩],
          ledger.created + 1⟩
  | .erase key =>
      { ledger with
        live := ledger.live.eraseP fun binding =>
          (policy functions size).same binding.key key }

/-- A call on a map whose ledger is kept. -/
def recorded (size : Nat) (state : HashMap Key Value × Ledger Key Value)
    (update : Update Key Value) :
    Option (HashMap Key Value × Ledger Key Value) :=
  (update.perform functions state.1).map fun next =>
    (next, state.2.record functions size update)

/-- The map says what its ledger says: the count of every bucket is the number
of entries on its list, the number of entries is the sum of these, and searches
and loops see the live entries. -/
structure Consistent (map : HashMap Key Value)
    (live : List (MapBinding Key Value)) : Prop where
  ring : ∀ bucket < map.buckets,
    Ring.IsRing map.links (.head bucket)
      (((inBucket functions map bucket live).map
        FiniteMap.Binding.address).map .entry)
  count : ∀ bucket < map.buckets,
    map.count bucket = (inBucket functions map bucket live).length
  total : map.getEntryNumber =
    ((List.range map.buckets).map fun bucket =>
      (inBucket functions map bucket live).length).sum
  find : ∀ key keylen,
    find functions key keylen map =
      some ((FiniteMap.lookup (policy functions map.buckets) live
        (key, keylen)).map FiniteMap.Binding.value)
  goes : GoesThrough functions map live

/-- A sequence of calls goes through, and the map is consistent in every state
that it reaches. -/
def StaysConsistent (size : Nat)
    (state : HashMap Key Value × Ledger Key Value)
    (updates : List (Update Key Value)) : Prop :=
  (∃ final, Machine.run (recorded functions size) state updates =
    some final) ∧
  Machine.Always (recorded functions size)
    (fun state => Consistent functions state.1 state.2.live) state updates

/-- There is room for an entry: the length of its key and the number of entries
in its bucket stay within an `int`, the total within a `size_t`, and the first
bucket with entries within an `int`. -/
structure HasRoom (state : HashMap Key Value × Ledger Key Value)
    (key : SizedKey Key) : Prop where
  keylen : key.2 < 2 ^ 31
  count :
    state.1.count (hashIndex functions state.1 key.1 key.2) + 1 < 2 ^ 31
  total : state.1.totalEntry + 1 < 2 ^ 64
  first : hashIndex functions state.1 key.1 key.2 < 2 ^ 31 ∨
    ∃ binding ∈ state.2.live, bucketOf functions state.1 binding < 2 ^ 31

instance decidableHasRoom (state : HashMap Key Value × Ledger Key Value)
    (key : SizedKey Key) : Decidable (HasRoom functions state key) :=
  decidable_of_iff
    (key.2 < 2 ^ 31 ∧
      state.1.count (hashIndex functions state.1 key.1 key.2) + 1 < 2 ^ 31 ∧
      state.1.totalEntry + 1 < 2 ^ 64 ∧
      (hashIndex functions state.1 key.1 key.2 < 2 ^ 31 ∨
        ∃ binding ∈ state.2.live, bucketOf functions state.1 binding < 2 ^ 31))
    ⟨fun ⟨keylen, count, total, first⟩ => ⟨keylen, count, total, first⟩,
      fun ⟨keylen, count, total, first⟩ => ⟨keylen, count, total, first⟩⟩

/-- Every call that may add an entry has room for it. -/
def Roomy (state : HashMap Key Value × Ledger Key Value) :
    Update Key Value → Prop
  | .add addition => HasRoom functions state addition.key
  | .erase _ => True

instance decidableRoomy (state : HashMap Key Value × Ledger Key Value) :
    ∀ update, Decidable (Roomy functions state update)
  | .add addition =>
      inferInstanceAs (Decidable (HasRoom functions state addition.key))
  | .erase _ => inferInstanceAs (Decidable True)

section Ledgers

variable {functions} {map next : HashMap Key Value}
  {live : List (MapBinding Key Value)} {ledger : Ledger Key Value} {size : Nat}

/-- The bucket of a key depends on the number of buckets only. -/
theorem hashIndex_congr
    (same : next.buckets = map.buckets)
    (key : Key) (keylen : Nat) :
    hashIndex functions next key keylen =
      hashIndex functions map key keylen := by
  rw [hashIndex, hashIndex, same]

theorem inBucket_congr
    (same : next.buckets = map.buckets)
    (bucket : Nat) (bindings : List (MapBinding Key Value)) :
    inBucket functions next bucket bindings =
      inBucket functions map bucket bindings := by
  simp only [inBucket, hashIndex_congr same]

/-- A map whose entries are the live ones, in numbers that the searches and
loops can count. -/
structure Held (functions : HashFunctions Key Value) (size : Nat)
    (map : HashMap Key Value) (ledger : Ledger Key Value) : Prop where
  filling : Filling functions size map ledger.live
  entries : HoldsEntries map ledger.live
  created : ledger.created = ledger.live.length
  length : ledger.live.length < 2 ^ 64
  short : ∀ bucket < map.buckets,
    (inBucket functions map bucket ledger.live).length < 2 ^ 31
  first : ledger.live ≠ [] →
    ∃ binding ∈ ledger.live, bucketOf functions map binding < 2 ^ 31

theorem held_initializeMap
    (functions : HashFunctions Key Value) (memory : HashMap Key Value)
    (positive : 0 < size) (fits : size < 2 ^ 64) :
    Held functions size (initializeMap memory size) ⟨[], 0⟩ where
  filling := filling_initializeMap functions memory positive fits
  entries := by simp [HoldsEntries]
  created := rfl
  length := by simp
  short := by simp [inBucket]
  first := fun nonempty => absurd rfl nonempty

/-- A search finds what the ledger says. -/
theorem Held.getEntry_eq
    (lawful : Lawful functions)
    (held : Held functions size map ledger)
    (key : SizedKey Key) :
    getEntry functions map (hashIndex functions map key.1 key.2) key.1 key.2 =
      some ((FiniteMap.lookup (policy functions size) ledger.live key).map
        FiniteMap.Binding.address) := by
  rw [← held.filling.buckets]
  exact held.filling.laid.getEntry_eq lawful held.entries _ _
    (held.short _ (held.filling.laid.hashIndex_lt key.1 key.2))

/-- A map that is held is consistent. -/
theorem Held.consistent
    (lawful : Lawful functions)
    (held : Held functions size map ledger) :
    Consistent functions map ledger.live := by
  have laid := held.filling.laid
  have startFits : StartFits functions map ledger.live := by
    refine ⟨held.length, fun binding member least => Or.inl ?_⟩
    obtain ⟨other, otherMember, small⟩ :=
      held.first (List.ne_nil_of_mem member)
    exact (least other otherMember).trans_lt small
  have goes := held.filling.goesThrough_iff.mpr startFits
  refine
    { ring := laid.ring
      count := fun bucket inside => ?_
      total := ?_
      find := fun key keylen => ?_
      goes := goes }
  · have short := held.short bucket inside
    rw [laid.count bucket inside, Nat.mod_eq_of_lt (by omega)]
  · rw [← goes.counted, bucketsFrom, List.length_flatMap, List.range_eq_range']
  · rw [HashMap.find, laid.getHashEntry_eq]
    simp only [held.getEntry_eq lawful (key, keylen), Option.bind_eq_bind,
      Option.bind_some, Option.pure_def, Option.map_map, held.filling.buckets]
    cases found : FiniteMap.lookup (policy functions size) ledger.live
        (key, keylen) with
    | none => rfl
    | some binding =>
        rw [Option.map_some, Option.map_some, Function.comp_apply,
          held.entries binding (FiniteMap.lookup_eq_some found).1]

/-- A new entry in a map with room for it. -/
theorem Held.append
    (held : Held functions size map ledger)
    {key : SizedKey Key} {stored : Value}
    (room : HasRoom functions (map, ledger) key)
    (buckets : next.buckets = map.buckets)
    (laid : Laid functions next
      (ledger.live ++ [⟨key, addressAt size ledger.created, stored⟩]))
    (entries : next.entries =
      Function.update map.entries (addressAt size ledger.created)
        ⟨key.1, key.2, stored⟩) :
    Held functions size next
      ⟨ledger.live ++ [⟨key, addressAt size ledger.created, stored⟩],
        ledger.created + 1⟩ := by
  have own : hashIndex functions map key.1 key.2 < map.buckets :=
    held.filling.laid.hashIndex_lt key.1 key.2
  have addresses := held.filling.addresses
  have absent := addressAt_not_mem addresses
  rw [← held.created] at absent
  refine
    { filling := ⟨buckets.trans held.filling.buckets, laid, ?_⟩
      entries := fun binding member => ?_
      created := ?_
      length := ?_
      short := fun bucket inside => ?_
      first := fun _ => ?_ }
  · rw [List.map_append, addresses, List.length_append, List.length_singleton,
      List.range_succ, List.map_append, ← held.created]
    rfl
  · rw [entries]
    rw [List.mem_append, List.mem_singleton] at member
    rcases member with old | rfl
    · have different : binding.address ≠ addressAt size ledger.created :=
        fun same => absent (same ▸ List.mem_map_of_mem old)
      rw [Function.update_of_ne different]
      exact held.entries binding old
    · rw [Function.update_self]
  · rw [List.length_append, List.length_singleton, held.created]
  · have total := room.total
    have short := held.length
    rw [held.filling.laid.total, Nat.mod_eq_of_lt short] at total
    rw [List.length_append, List.length_singleton]
    exact total
  · rw [buckets] at inside
    have before := held.short bucket inside
    rw [inBucket_congr buckets]
    by_cases here : hashIndex functions map key.1 key.2 = bucket
    · have count := room.count
      dsimp only at count
      rw [held.filling.laid.count _ own, here,
        Nat.mod_eq_of_lt (by omega)] at count
      rw [inBucket_append_self here, List.length_append,
        List.length_singleton]
      exact count
    · rw [inBucket_append_of_ne here]
      exact before
  · rcases room.first with small | ⟨binding, member, small⟩
    · refine ⟨_, List.mem_append_right _ (List.mem_singleton_self _), ?_⟩
      rw [bucketOf, hashIndex_congr buckets]
      exact small
    · refine ⟨binding, List.mem_append_left _ member, ?_⟩
      rw [bucketOf, hashIndex_congr buckets]
      exact small

/-- What an insertion does to the layout and to the entries. -/
theorem Held.insertEntry
    (held : Held functions size map ledger)
    {key : SizedKey Key}
    (room : HasRoom functions (map, ledger) key)
    (value : Value) :
    (∀ stored, Laid functions
      (insertEntry (hashIndex functions map key.1 key.2) key.1 key.2 value
        map).2
      (ledger.live ++ [⟨key, addressAt size ledger.created, stored⟩])) ∧
    (insertEntry (hashIndex functions map key.1 key.2) key.1 key.2 value
      map).1 = addressAt size ledger.created ∧
    (insertEntry (hashIndex functions map key.1 key.2) key.1 key.2 value
      map).2.entries =
        Function.update map.entries (addressAt size ledger.created)
          ⟨key.1, key.2, value⟩ := by
  obtain ⟨rfl, laid, addresses⟩ := held.filling
  rw [held.created]
  refine ⟨fun stored => ?_, ?_, ?_⟩
  · exact (laid.insertEntry addresses key.1 key.2 value stored).2
  · exact (laid.insertEntry addresses key.1 key.2 value value).1
  · rw [laid.insertEntry_entries, sizeThroughInt_of_lt room.keylen]

/-- A call with room for its entry does what its ledger says. -/
theorem Held.perform
    (lawful : Lawful functions)
    (held : Held functions size map ledger)
    {addition : Addition Key Value}
    (room : HasRoom functions (map, ledger) addition.key) :
    ∃ next, addition.perform functions map = some next ∧
      Held functions size next
        (ledger.record functions size (.add addition)) := by
  have found := held.filling.laid.getHashEntry_eq addition.key.1
    addition.key.2
  have searched := held.getEntry_eq lawful addition.key
  obtain ⟨laid, address, entries⟩ := held.insertEntry room addition.value
  have buckets := insertEntry_buckets
    (hashIndex functions map addition.key.1 addition.key.2) addition.key.1
    addition.key.2 addition.value map
  cases addition with
  | insert key value =>
      refine ⟨_, ?_, held.append room buckets (laid value) entries⟩
      rw [Addition.perform, HashMap.insert]
      dsimp only [Addition.key] at found
      rw [found]
      rfl
  | insertIfAbsent key value =>
      dsimp only [Addition.key, Addition.value] at found searched
      rw [Addition.perform, HashMap.insertIfAbsent, found]
      simp only [Option.bind_eq_bind, Option.bind_some, searched]
      cases present : FiniteMap.lookup (policy functions size) ledger.live
          key with
      | some binding =>
          refine ⟨map, rfl, ?_⟩
          rw [Ledger.record, if_pos ⟨rfl, by rw [Addition.key, present]; rfl⟩]
          exact held
      | none =>
          refine ⟨_, rfl, ?_⟩
          rw [Ledger.record, if_neg (by simp [Addition.key, present])]
          exact held.append room buckets (laid value) entries
  | findOrAdd key newval =>
      dsimp only [Addition.key, Addition.value] at found searched
      rw [Addition.perform, HashMap.findOrAdd, found]
      simp only [Option.bind_eq_bind, Option.bind_some, searched]
      cases present : FiniteMap.lookup (policy functions size) ledger.live
          key with
      | some binding =>
          refine ⟨map, rfl, ?_⟩
          rw [Ledger.record, if_pos ⟨rfl, by rw [Addition.key, present]; rfl⟩]
          exact held
      | none =>
          refine ⟨_, rfl, ?_⟩
          rw [Ledger.record, if_neg (by simp [Addition.key, present])]
          -- the entry is reset after it has been inserted
          refine held.append room buckets
            { laid (functions.reset newval) with } ?_
          dsimp only [Addition.key, Addition.value] at address entries ⊢
          rw [address, entries, Function.update_self, Function.update_idem]
          rfl

end Ledgers

section Erasing

variable {functions} {map next : HashMap Key Value}
  {ledger : Ledger Key Value} {size : Nat}

/-- The buckets hold no more than the bindings. -/
theorem length_bucketsFrom_le
    (functions : HashFunctions Key Value) (map : HashMap Key Value)
    (bindings : List (MapBinding Key Value)) (count : Nat) :
    (bucketsFrom functions map bindings count 0).length ≤ bindings.length := by
  rw [bucketsFrom, ← List.range_eq_range']
  have perm := flatMap_filter_perm
    (fun binding : MapBinding Key Value => bucketOf functions map binding)
    bindings count
  exact perm.length_eq.trans_le (List.length_filter_le ..)

/-- An `erase` goes through. -/
theorem Held.erase
    (lawful : Lawful functions)
    (held : Held functions size map ledger)
    (key : SizedKey Key) :
    ∃ links,
      (Update.erase key).perform functions map =
        some
          { map with
            links := links
            count := Function.update map.count
              (hashIndex functions map key.1 key.2)
              (sizeDecrement
                (map.count (hashIndex functions map key.1 key.2))) } := by
  rw [Update.perform, HashMap.erase, held.filling.laid.getHashEntry_eq]
  simp only [Option.bind_eq_bind, Option.bind_some,
    held.getEntry_eq lawful key]
  cases FiniteMap.lookup (policy functions size) ledger.live key with
  | none => exact ⟨_, rfl⟩
  | some binding => exact ⟨_, rfl⟩

/-- After an `erase` the map is not consistent: when the key was absent the count
is too small, and when it was there the number of entries is too large. -/
theorem Held.not_consistent_erase
    (lawful : Lawful functions)
    (held : Held functions size map ledger)
    {key : SizedKey Key}
    (erased : (Update.erase key).perform functions map = some next) :
    ¬Consistent functions next
      (ledger.record functions size (.erase key)).live := by
  intro consistent
  have laid := held.filling.laid
  have inside := laid.hashIndex_lt key.1 key.2
  obtain ⟨links, performed⟩ := held.erase lawful key
  obtain rfl := Option.some.inj (erased.symm.trans performed)
  dsimp only [Ledger.record] at consistent
  cases present : FiniteMap.lookup (policy functions size) ledger.live key with
  | none =>
      rw [FiniteMap.lookup_eq_none] at present
      rw [List.eraseP_of_forall_not (by simpa using present)] at consistent
      have count : Function.update map.count _ (sizeDecrement _) _ =
          (inBucket functions map _ ledger.live).length :=
        consistent.count _ inside
      have before := (held.consistent lawful).count _ inside
      have short := held.short _ inside
      rw [Function.update_self, ← before, sizeDecrement] at count
      omega
  | some binding =>
      obtain ⟨member, same⟩ := FiniteMap.lookup_eq_some present
      have shorter : (ledger.live.eraseP fun binding =>
          (policy functions size).same binding.key key).length =
            ledger.live.length - 1 := List.length_eraseP_of_mem member same
      have nonempty := List.length_pos_of_mem member
      have counted : _ = map.getEntryNumber := consistent.goes.counted
      have before := (held.consistent lawful).goes.counted
      have bound := length_bucketsFrom_le functions map
        (ledger.live.eraseP fun binding =>
          (policy functions size).same binding.key key) map.buckets
      rw [laid.bucketsFrom_perm.length_eq, ← counted] at before
      exact absurd (before.trans_le bound) (by omega)

/-- On a map that is held, a sequence of calls with room for their entries
leaves the map consistent in every state that it reaches exactly when no call is
an `erase`. -/
theorem Held.roomy_iff
    (lawful : Lawful functions)
    (held : Held functions size map ledger)
    {updates : List (Update Key Value)}
    (roomy : Machine.Along (recorded functions size) (Roomy functions)
      (map, ledger) updates) :
    StaysConsistent functions size (map, ledger) updates ↔
      ∀ update ∈ updates, update.isErase = false := by
  induction updates generalizing map ledger with
  | nil =>
      refine ⟨fun _ => by simp, fun _ => ⟨⟨_, rfl⟩, held.consistent lawful⟩⟩
  | cons update updates inductionHypothesis =>
      rw [List.forall_mem_cons]
      cases update with
      | add addition =>
          obtain ⟨next, performed, nextHeld⟩ := held.perform lawful roomy.1
          have stepped : recorded functions size (map, ledger)
              (.add addition) =
                some (next, ledger.record functions size (.add addition)) := by
            rw [recorded, Update.perform, performed]
            rfl
          have rest := inductionHypothesis nextHeld (roomy.2 _ stepped)
          have split : StaysConsistent functions size (map, ledger)
              (.add addition :: updates) ↔
                StaysConsistent functions size
                  (next, ledger.record functions size (.add addition))
                  updates := by
            rw [StaysConsistent, StaysConsistent, Machine.run_cons, stepped,
              Option.bind_some, Machine.Always, stepped]
            simp only [Option.some.injEq, forall_eq',
              held.consistent lawful, true_and]
          rw [split, rest]
          exact (and_iff_right rfl).symm
      | erase key =>
          constructor
          · rintro ⟨-, -, always⟩
            obtain ⟨next, performed⟩ :
                ∃ next, (Update.erase key).perform functions map = some next :=
              ⟨_, (held.erase lawful key).choose_spec⟩
            have stepped : recorded functions size (map, ledger)
                (.erase key) =
                  some (next, ledger.record functions size (.erase key)) := by
              rw [recorded, performed]
              rfl
            exact absurd (Machine.always_head (always _ stepped))
              (held.not_consistent_erase lawful performed)
          · rintro ⟨impossible, -⟩
            cases impossible

end Erasing

section NewMaps

variable {functions} {size : Nat}

/-- On a new map, a sequence of calls with room for their entries leaves the
count of every bucket, the number of entries, searches and loops in agreement
with what has been inserted and not erased, in every state that it reaches,
exactly when no call is an `erase`. -/
theorem staysConsistent_iff
    (lawful : Lawful functions)
    (memory : HashMap Key Value)
    (positive : 0 < size)
    (fits : size < 2 ^ 64)
    {updates : List (Update Key Value)}
    (roomy : Machine.Along (recorded functions size) (Roomy functions)
      (initializeMap memory size, ⟨[], 0⟩) updates) :
    StaysConsistent functions size (initializeMap memory size, ⟨[], 0⟩)
        updates ↔
      ∀ update ∈ updates, update.isErase = false :=
  (held_initializeMap functions memory positive fits).roomy_iff
    lawful roomy

end NewMaps

/-- Two keys in one bucket, one of them twice, with three buckets. -/
def sampleUpdates : List (Update Nat Nat) :=
  [.add (.insert (4, 8) 1), .add (.findOrAdd (4, 8) 2),
    .add (.insert (4, 8) 3), .add (.insertIfAbsent (6, 8) 4)]

theorem staysConsistent_sample :
    StaysConsistent sampleFunctions 3 (initializeMap sampleMemory 3, ⟨[], 0⟩)
      sampleUpdates :=
  (staysConsistent_iff lawful_sampleFunctions sampleMemory (by decide)
    (by decide) (by decide +kernel)).mpr (by decide)

/-- Erasing a key that is absent makes the count of its empty bucket the greatest
`size_t`. -/
theorem erase_absent_not_consistent :
    ¬∀ (Key Value : Type) (functions : HashFunctions Key Value)
      (memory : HashMap Key Value) (size : Nat)
      (updates : List (Update Key Value)),
      Lawful functions → 0 < size → size < 2 ^ 64 →
        StaysConsistent functions size (initializeMap memory size, ⟨[], 0⟩)
          updates := by
  intro claimed
  have stays := claimed Nat Nat sampleFunctions sampleMemory 3 [.erase (5, 8)]
    lawful_sampleFunctions (by decide) (by decide)
  have held := held_initializeMap sampleFunctions sampleMemory
    (show 0 < 3 by decide) (by decide)
  have roomy : Machine.Along (recorded sampleFunctions 3)
      (Roomy sampleFunctions) (initializeMap sampleMemory 3, ⟨[], 0⟩)
      [.erase (5, 8)] := ⟨trivial, fun _ _ => trivial⟩
  have none_erased := (held.roomy_iff lawful_sampleFunctions
    roomy).mp stays _ (List.mem_singleton_self _)
  cases none_erased

end HashMap

end Causer
