import Causer.HistoryInfo

/-!
# The order of an iteration

Every call that may add an entry, on a map with any number of buckets.  A loop
from `begin` to `end` visits bucket by bucket what has been inserted.  `begin`
passes the position of the first bucket with entries as an `int`; when that is
another position, the loop does not find the tail of the ring and reads the
bucket as an entry.
-/

namespace Causer

open TextStream

namespace HashMap

variable {Key Value : Type}

/-- `begin`.  The constructor of `iterator` takes the position as an `int`. -/
def start (map : HashMap Key Value) : Option Iterator :=
  map.first.map fun iterator =>
    { iterator with pos := sizeThroughInt iterator.pos }

/-- `operator++`, at an entry.  No entry is the tail of a bucket that is not
there. -/
def increment (map : HashMap Key Value) (address : EntryAddress) (pos : Nat) :
    Option Iterator :=
  match map.getHashEntry pos with
  | some head => map.advance address head
  | none =>
      match map.links.next (.entry address) with
      | .entry following => some ⟨some following, pos⟩
      | .head _ => none

/-- The entries that a loop visits until the end, for a number of rounds. -/
def goThrough (map : HashMap Key Value) :
    Nat → Iterator → Option (List EntryAddress)
  | _, ⟨none, _⟩ => some []
  | 0, ⟨some _, _⟩ => none
  | rounds + 1, ⟨some address, pos⟩ => do
      let iterator ← map.increment address pos
      let later ← goThrough map rounds iterator
      some (address :: later)

/-- A call of `insert`, `insertIfAbsent` or `findOrAdd`. -/
inductive Addition (Key Value : Type)
  | insert (key : SizedKey Key) (value : Value)
  | insertIfAbsent (key : SizedKey Key) (value : Value)
  | findOrAdd (key : SizedKey Key) (newval : Value)

/-- The key of a call. -/
def Addition.key : Addition Key Value → SizedKey Key
  | .insert key _ | .insertIfAbsent key _ | .findOrAdd key _ => key

/-- The value of a call. -/
def Addition.value : Addition Key Value → Value
  | .insert _ value | .insertIfAbsent _ value | .findOrAdd _ value => value

variable (functions : HashFunctions Key Value)

/-- The map after a call. -/
def Addition.perform (map : HashMap Key Value) :
    Addition Key Value → Option (HashMap Key Value)
  | .insert key value => HashMap.insert functions key.1 key.2 value map
  | .insertIfAbsent key value =>
      (HashMap.insertIfAbsent functions key.1 key.2 value map).map Prod.snd
  | .findOrAdd key newval =>
      (HashMap.findOrAdd functions key.1 key.2 newval map).map Prod.snd

/-- What a call has inserted: nothing, or an entry with the address that
`createNewEntry` hands out. -/
def Addition.inserted (before after : HashMap Key Value)
    (addition : Addition Key Value) : List (MapBinding Key Value) :=
  if after.getEntryNumber = before.getEntryNumber then []
  else
    [⟨addition.key,
      (createNewEntry addition.key.1 addition.key.2 addition.value before).1,
      addition.value⟩]

/-- A sequence of calls: what has been inserted, in order, and the map. -/
def addAll (map : HashMap Key Value) :
    List (Addition Key Value) →
      Option (List (MapBinding Key Value) × HashMap Key Value)
  | [] => some ([], map)
  | addition :: additions => do
      let next ← addition.perform functions map
      let (later, final) ← addAll next additions
      some (addition.inserted map next ++ later, final)

/-- A loop from `begin` to `end` ends, and visits what has been inserted bucket
by bucket: every entry of the map, once, and as many as the map counts. -/
structure GoesThrough (map : HashMap Key Value)
    (log : List (MapBinding Key Value)) : Prop where
  loop : ∃ iterator rounds, map.start = some iterator ∧
    map.goThrough rounds iterator =
      some ((bucketsFrom functions map log map.buckets 0).map
        FiniteMap.Binding.address)
  once : ((bucketsFrom functions map log map.buckets 0).map
    FiniteMap.Binding.address).Nodup
  every : ∀ address,
    address ∈ (bucketsFrom functions map log map.buckets 0).map
      FiniteMap.Binding.address ↔ Stored map address
  counted : (bucketsFrom functions map log map.buckets 0).length =
    map.getEntryNumber

/-- The bucket of an entry. -/
def bucketOf (map : HashMap Key Value) (binding : MapBinding Key Value) :
    Nat :=
  hashIndex functions map binding.key.1 binding.key.2

/-- The number of entries fits a `size_t`, and the first bucket with entries is
the same after it has been an `int`. -/
structure StartFits (map : HashMap Key Value)
    (log : List (MapBinding Key Value)) : Prop where
  length : log.length < 2 ^ 64
  first : ∀ binding ∈ log,
    (∀ other ∈ log,
      bucketOf functions map binding ≤ bucketOf functions map other) →
    bucketOf functions map binding < 2 ^ 31 ∨
      2 ^ 64 - 2 ^ 31 ≤ bucketOf functions map binding

end HashMap

/-- `saveHistoryInfo`, with loops of a number of rounds at most. -/
def saveEntries (selfmap : SelfMap) (boostratio : Int) (rounds : Nat)
    (map : CallstackMap) (file : Option Text) : Option (Int × Option Text) :=
  if map.getEntryNumber > 0 then do
    let iterator ← map.start
    let visited ← map.goThrough rounds iterator
    let values := visited.map fun address => (map.entries address).value
    let boostratio := Callstack.savedBoostratio boostratio values
    some (boostratio,
      some (writeUnsigned (BitVec.ofNat 64 map.getEntryNumber) ++
        '\n' :: writeCallstacks selfmap boostratio values))
  else some (boostratio, file)

/-- `saveHistoryInfo` ends, and what follows the first line are as many records
as it says. -/
def SavesAll (selfmap : SelfMap) (boostratio : Int) (map : CallstackMap)
    (file : Option Text) : Prop :=
  ∃ rounds newBoost saved,
    saveEntries selfmap boostratio rounds map file = some (newBoost, saved) ∧
      (map.getEntryNumber > 0 → ∃ values : List Callstack,
        values.length = map.getEntryNumber ∧
          saved =
            some (writeUnsigned
                (BitVec.ofNat 64 map.getEntryNumber) ++
              '\n' :: writeCallstacks selfmap newBoost values))

namespace HashMap

variable {Key Value : Type} {functions : HashFunctions Key Value}
  {map : HashMap Key Value} {bindings : List (MapBinding Key Value)}

/-- A map in which all entries that were handed out are in their buckets. -/
structure Filling (functions : HashFunctions Key Value) (size : Nat)
    (map : HashMap Key Value) (bindings : List (MapBinding Key Value)) :
    Prop where
  buckets : map.buckets = size
  laid : Laid functions map bindings
  addresses : bindings.map FiniteMap.Binding.address =
    (List.range bindings.length).map (addressAt size)

variable {size : Nat}

/-- The address that the next entry gets. -/
theorem Filling.createNewEntry_fst
    (filling : Filling functions size map bindings)
    (key : Key) (keylen : Nat) (value : Value) :
    (createNewEntry key keylen value map).1 =
      addressAt size bindings.length := by
  obtain ⟨rfl, laid, -⟩ := filling
  obtain ⟨allentries, entryindex, -, -, created⟩ :=
    laid.createNewEntry_eq key keylen value
  rw [created]

/-- An insertion is logged with the next address. -/
theorem Filling.inserted_eq
    (filling : Filling functions size map bindings)
    (head : Nat) (addition : Addition Key Value) :
    addition.inserted map (insertEntry head addition.key.1 addition.key.2
        addition.value map).2 =
      [⟨addition.key, addressAt size bindings.length, addition.value⟩] := by
  have changed : (insertEntry head addition.key.1 addition.key.2
      addition.value map).2.getEntryNumber ≠ map.getEntryNumber := by
    rw [getEntryNumber, getEntryNumber, insertEntry_totalEntry,
      filling.laid.total, sizeIncrement]
    omega
  rw [Addition.inserted, if_neg changed, filling.createNewEntry_fst]

/-- An insertion adds what it logs. -/
theorem Filling.insertEntry
    (filling : Filling functions size map bindings)
    (addition : Addition Key Value) :
    Filling functions size
        (insertEntry
          (hashIndex functions map addition.key.1 addition.key.2)
          addition.key.1 addition.key.2 addition.value map).2
        (bindings ++ addition.inserted map
          (insertEntry
            (hashIndex functions map addition.key.1 addition.key.2)
            addition.key.1 addition.key.2 addition.value map).2) := by
  rw [filling.inserted_eq]
  obtain ⟨rfl, laid, addresses⟩ := filling
  refine ⟨insertEntry_buckets .., ?_, ?_⟩
  · exact (laid.insertEntry addresses addition.key.1 addition.key.2
      addition.value addition.value).2
  · rw [List.map_append, addresses, List.length_append, List.length_singleton,
      List.range_succ, List.map_append]
    rfl

/-- A call that leaves the map as it is logs nothing. -/
theorem Addition.inserted_self
    (addition : Addition Key Value) (map : HashMap Key Value) :
    addition.inserted map map = [] := if_pos rfl

/-- A call goes through, and logs what it inserts. -/
theorem Filling.perform
    (filling : Filling functions size map bindings)
    (addition : Addition Key Value) :
    ∃ next, addition.perform functions map = some next ∧
      Filling functions size next
        (bindings ++ addition.inserted map next) := by
  have laid := filling.laid
  have inserted := filling.insertEntry addition
  have unchanged : Filling functions size map
      (bindings ++ addition.inserted map map) := by
    rw [addition.inserted_self, List.append_nil]
    exact filling
  obtain ⟨found, searched⟩ := Option.isSome_iff_exists.mp
    (laid.getEntry_isSome addition.key.1 addition.key.2)
  cases addition with
  | insert key value =>
      refine ⟨_, ?_, inserted⟩
      rw [Addition.perform, HashMap.insert, laid.getHashEntry_eq]
      rfl
  | insertIfAbsent key value =>
      rw [Addition.perform, HashMap.insertIfAbsent, laid.getHashEntry_eq]
      simp only [Option.bind_eq_bind, Option.bind_some]
      rw [Addition.key] at searched
      rw [searched]
      cases found with
      | some address => exact ⟨map, rfl, unchanged⟩
      | none => exact ⟨_, rfl, inserted⟩
  | findOrAdd key newval =>
      rw [Addition.perform, HashMap.findOrAdd, laid.getHashEntry_eq]
      simp only [Option.bind_eq_bind, Option.bind_some]
      rw [Addition.key] at searched
      rw [searched]
      cases found with
      | some address => exact ⟨map, rfl, unchanged⟩
      | none =>
          -- the value is reset in the entry, which the layout does not see
          exact ⟨_, rfl, inserted.buckets, { inserted.laid with },
            inserted.addresses⟩

/-- A sequence of calls goes through, and logs what it inserts. -/
theorem Filling.addAll
    (filling : Filling functions size map bindings)
    (additions : List (Addition Key Value)) :
    ∃ log final, addAll functions map additions = some (log, final) ∧
      Filling functions size final (bindings ++ log) := by
  induction additions generalizing map bindings with
  | nil => exact ⟨[], map, rfl, by rw [List.append_nil]; exact filling⟩
  | cons addition additions inductionHypothesis =>
      obtain ⟨next, performed, nextFilling⟩ := filling.perform addition
      obtain ⟨log, final, rest, finalFilling⟩ :=
        inductionHypothesis nextFilling
      refine ⟨addition.inserted map next ++ log, final, ?_, ?_⟩
      · rw [HashMap.addAll, performed]
        simp only [Option.bind_eq_bind, Option.bind_some, rest]
      · rw [← List.append_assoc]
        exact finalFilling

theorem filling_initializeMap
    (functions : HashFunctions Key Value) (memory : HashMap Key Value)
    (positive : 0 < size) (fits : size < 2 ^ 64) :
    Filling functions size (initializeMap memory size) [] where
  buckets := rfl
  laid := laid_initializeMap functions memory positive fits
  addresses := rfl

/-- A `size_t` is the same after it has been an `int` when it is small, or so
large that its sign is extended to it. -/
theorem sizeThroughInt_eq_iff {size : Nat} (fits : size < 2 ^ 64) :
    sizeThroughInt size = size ↔ size < 2 ^ 31 ∨ 2 ^ 64 - 2 ^ 31 ≤ size := by
  rw [sizeThroughInt, BitVec.toNat_signExtend, BitVec.toNat_setWidth,
    BitVec.toNat_ofNat, BitVec.msb_eq_decide, BitVec.toNat_ofNat]
  split_ifs with negative
  · rw [decide_eq_true_eq] at negative
    omega
  · rw [decide_eq_true_eq] at negative
    omega

/-- A step leaves out the entry the iterator has been at. -/
theorem Laid.increment_eq
    (laid : Laid functions map bindings)
    (fits : bindings.length < 2 ^ 64)
    {address : EntryAddress} {pos : Nat} {rest : List EntryAddress}
    (remaining : Remaining functions map bindings ⟨some address, pos⟩
      (address :: rest)) :
    ∃ iterator, map.increment address pos = some iterator ∧
      Remaining functions map bindings iterator rest := by
  obtain ⟨here, inside, -⟩ := id remaining
  rw [increment, getHashEntry, if_pos inside]
  exact laid.advance_eq fits remaining

/-- The loop visits what remains. -/
theorem Laid.goThrough_eq
    (laid : Laid functions map bindings)
    (fits : bindings.length < 2 ^ 64)
    {iterator : Iterator} {rest : List EntryAddress}
    (remaining : Remaining functions map bindings iterator rest) :
    map.goThrough rest.length iterator = some rest := by
  induction rest generalizing iterator with
  | nil =>
      obtain ⟨entry, pos⟩ := iterator
      cases entry with
      | none => rfl
      | some address =>
          obtain ⟨here, -, -, split⟩ := remaining
          exact absurd split.symm (List.cons_ne_nil _ _)
  | cons address rest inductionHypothesis =>
      obtain ⟨entry, pos⟩ := iterator
      cases entry with
      | none => exact absurd remaining (List.cons_ne_nil _ _)
      | some current =>
          obtain ⟨here, -, -, split⟩ := id remaining
          rw [List.cons_append, List.cons.injEq] at split
          obtain ⟨rfl, -⟩ := split
          obtain ⟨following, stepped, left⟩ := laid.increment_eq fits remaining
          rw [List.length_cons, goThrough, stepped]
          simp only [Option.bind_eq_bind, Option.bind_some,
            inductionHypothesis left]

/-- An entry that is not the tail leads to the next one, or to the bucket as an
entry. -/
theorem increment_inside
    {address : EntryAddress} {pos : Nat}
    (notTail : map.links.next (.entry address) ≠ .head pos) :
    map.increment address pos =
      match map.links.next (.entry address) with
      | .entry following => some ⟨some following, pos⟩
      | .head _ => none := by
  rw [increment, getHashEntry]
  split_ifs with inside
  · have notEnd : ¬Ring.isTail map.links (.entry address) (.head pos) := by
      simpa [Ring.isTail] using notTail
    exact if_neg notEnd
  · rfl

/-- A loop with a position that is not its bucket's reads the bucket as an
entry. -/
theorem goThrough_misplaced
    {address : EntryAddress} {here : List EntryAddress} {pos bucket : Nat}
    (misplaced : pos ≠ bucket)
    (chain : (BucketNode.entry address :: here.map BucketNode.entry ++
      [BucketNode.head bucket]).IsChain (Ring.Linked map.links))
    (rounds : Nat) :
    map.goThrough rounds ⟨some address, pos⟩ = none := by
  induction rounds generalizing address here with
  | zero => rfl
  | succ rounds inductionHypothesis =>
      rw [goThrough]
      cases here with
      | nil =>
          rw [List.map_nil, List.singleton_append, List.isChain_pair] at chain
          rw [increment_inside (by simpa [chain.next] using misplaced.symm),
            chain.next]
          rfl
      | cons following here =>
          simp only [List.map_cons, List.cons_append,
            List.isChain_cons_cons] at chain
          rw [increment_inside (by simp [chain.1.next]), chain.1.next]
          simp only [Option.bind_eq_bind, Option.bind_some]
          rw [inductionHypothesis chain.2]
          rfl

/-- The search stops at the first bucket whose count is not zero. -/
theorem seek_some
    {remaining pos place : Nat} {address : EntryAddress}
    (found : map.seek remaining pos = some ⟨some address, place⟩) :
    pos ≤ place ∧ place < pos + remaining ∧ map.count place ≠ 0 ∧
      ∀ bucket, pos ≤ bucket → bucket < place → map.count bucket = 0 := by
  induction remaining generalizing pos with
  | zero => simp [seek] at found
  | succ remaining inductionHypothesis =>
      rw [seek] at found
      split_ifs at found with counted
      · obtain ⟨first, -, same⟩ := Option.map_eq_some_iff.mp found
        rw [Iterator.mk.injEq] at same
        obtain ⟨-, rfl⟩ := same
        exact ⟨le_rfl, by omega, counted, fun bucket _ _ => by omega⟩
      · obtain ⟨after, before, nonzero, zero⟩ := inductionHypothesis found
        refine ⟨by omega, by omega, nonzero, fun bucket low high => ?_⟩
        rcases Nat.lt_or_ge pos bucket with later | here
        · exact zero bucket later high
        · obtain rfl : bucket = pos := le_antisymm here low
          exact not_not.mp counted

/-- Where the search of `begin` stops: at the end of an empty map, or in the
first bucket with entries. -/
theorem Laid.first_cases
    (laid : Laid functions map bindings)
    (fits : bindings.length < 2 ^ 64) :
    ∃ iterator, map.first = some iterator ∧
      Remaining functions map bindings iterator
        ((bucketsFrom functions map bindings map.buckets 0).map
          FiniteMap.Binding.address) ∧
      ∀ address, iterator.entry = some address →
        (∃ binding ∈ bindings, bucketOf functions map binding = iterator.pos) ∧
        ∀ other ∈ bindings, iterator.pos ≤ bucketOf functions map other := by
  obtain ⟨iterator, found, remaining⟩ :=
    laid.seek_eq fits (Nat.zero_add map.buckets)
  refine ⟨iterator, found, remaining, ?_⟩
  rintro address held
  obtain ⟨entry, pos⟩ := iterator
  obtain rfl : entry = some address := held
  obtain ⟨-, inside, counted, before⟩ := seek_some found
  rw [Nat.zero_add] at inside
  constructor
  · rw [Ne, laid.count_eq_zero_iff fits inside] at counted
    obtain ⟨binding, member⟩ := List.exists_mem_of_ne_nil _ counted
    obtain ⟨listed, bucket⟩ := List.mem_filter.mp member
    exact ⟨binding, listed, of_decide_eq_true bucket⟩
  · intro other member
    by_contra low
    have otherInside : bucketOf functions map other < map.buckets :=
      laid.hashIndex_lt other.key.1 other.key.2
    have zero := before _ (Nat.zero_le _) (not_le.mp low)
    rw [laid.count_eq_zero_iff fits otherInside] at zero
    have listed : other ∈ inBucket functions map
        (bucketOf functions map other) bindings :=
      List.mem_filter.mpr ⟨member, decide_eq_true rfl⟩
    rw [zero] at listed
    exact List.not_mem_nil listed

/-- A loop over the map goes through what has been inserted exactly when its
start fits. -/
theorem Filling.goesThrough_iff
    (filling : Filling functions size map bindings) :
    GoesThrough functions map bindings ↔
      StartFits functions map bindings := by
  obtain ⟨rfl, laid, addresses⟩ := filling
  have perm := laid.bucketsFrom_perm
  constructor
  · intro goes
    have fits : bindings.length < 2 ^ 64 := by
      rw [← perm.length_eq, goes.counted, getEntryNumber, laid.total]
      exact Nat.mod_lt _ (by decide)
    refine ⟨fits, fun binding member least => ?_⟩
    obtain ⟨iterator, rounds, started, visited⟩ := goes.loop
    obtain ⟨⟨entry, pos⟩, found, remaining, placed⟩ := laid.first_cases fits
    cases entry with
    | none =>
        -- then nothing would have been inserted
        have none_listed := congrArg List.length
          (show _ = ([] : List EntryAddress) from remaining)
        rw [List.length_map, perm.length_eq, List.length_nil,
          List.length_eq_zero_iff] at none_listed
        rw [none_listed] at member
        exact absurd member List.not_mem_nil
    | some address =>
        obtain ⟨⟨first, firstMember, firstBucket⟩, lower⟩ := placed address rfl
        obtain ⟨here, inside, chain, -⟩ := remaining
        dsimp only at firstBucket lower inside chain
        have same : bucketOf functions map binding = pos :=
          le_antisymm (firstBucket ▸ least first firstMember)
            (lower binding member)
        rw [same, ← sizeThroughInt_eq_iff (inside.trans laid.buckets_lt)]
        by_contra misplaced
        rw [start, found, Option.map_some, Option.some.injEq] at started
        rw [← started, goThrough_misplaced misplaced chain] at visited
        cases visited
  · rintro ⟨fits, first⟩
    obtain ⟨⟨entry, pos⟩, found, remaining, placed⟩ := laid.first_cases fits
    have started : ∃ iterator, map.start = some iterator ∧
        Remaining functions map bindings iterator
          ((bucketsFrom functions map bindings map.buckets 0).map
            FiniteMap.Binding.address) := by
      rw [start, found, Option.map_some]
      refine ⟨_, rfl, ?_⟩
      cases entry with
      | none => exact remaining
      | some address =>
          obtain ⟨⟨binding, member, bucket⟩, lower⟩ := placed address rfl
          obtain ⟨here, inside, -⟩ := id remaining
          dsimp only at bucket lower inside
          have kept : sizeThroughInt pos = pos := by
            rw [sizeThroughInt_eq_iff (inside.trans laid.buckets_lt),
              ← bucket]
            exact first binding member (bucket ▸ lower)
          dsimp only
          rw [kept]
          exact remaining
    obtain ⟨iterator, isStart, left⟩ := started
    refine
      { loop := ⟨iterator, _, isStart, laid.goThrough_eq fits left⟩
        once := ?_
        every := fun address => ?_
        counted := ?_ }
    · exact (perm.map _).nodup_iff.mpr (nodup_addresses addresses)
    · rw [laid.stored_iff, (perm.map _).mem_iff, List.mem_map]
    · rw [perm.length_eq, getEntryNumber, laid.total, Nat.mod_eq_of_lt fits]

/-- Where a loop goes through the map, `saveHistoryInfo` writes as many records
as it says. -/
theorem GoesThrough.savesAll
    {map : CallstackMap}
    {log : List (MapBinding HashedCallstack Callstack)}
    (goes : GoesThrough callstackFunctions map log)
    (selfmap : SelfMap) (boostratio : Int) (file : Option Text) :
    SavesAll selfmap boostratio map file := by
  obtain ⟨iterator, rounds, started, visited⟩ := goes.loop
  refine ⟨rounds, ?_⟩
  rw [saveEntries]
  split_ifs with nonempty
  · simp only [started, visited, Option.bind_eq_bind, Option.bind_some,
      Option.some.injEq, Prod.mk.injEq]
    refine ⟨_, _, ⟨rfl, rfl⟩, fun _ => ⟨_, ?_, rfl⟩⟩
    rw [List.length_map, List.length_map, goes.counted]
  · exact ⟨_, _, rfl, fun positive => absurd positive nonempty⟩

/-- After any calls of `insert`, `insertIfAbsent` and `findOrAdd` on a new map
with any number of buckets, a loop goes through what has been inserted exactly
when its start fits, and then `saveHistoryInfo` writes as many records as it
says. -/
theorem addAll_goesThrough_iff
    (positive : 0 < size)
    (fits : size < 2 ^ 64) :
    (∀ {Key Value : Type} (functions : HashFunctions Key Value)
      (memory : HashMap Key Value) (additions : List (Addition Key Value)),
      ∃ log final,
        addAll functions (initializeMap memory size) additions =
          some (log, final) ∧
        (GoesThrough functions final log ↔
          StartFits functions final log)) ∧
    ∀ (memory : CallstackMap)
      (additions : List (Addition HashedCallstack Callstack)),
      ∃ log final,
        addAll callstackFunctions (initializeMap memory size) additions =
          some (log, final) ∧
        (StartFits callstackFunctions final log →
          ∀ (selfmap : SelfMap) (boostratio : Int) (file : Option Text),
            SavesAll selfmap boostratio final file) := by
  constructor
  · intro Key Value functions memory additions
    obtain ⟨log, final, added, filling⟩ :=
      (filling_initializeMap functions memory positive fits).addAll additions
    exact ⟨log, final, added, filling.goesThrough_iff⟩
  · intro memory additions
    obtain ⟨log, final, added, filling⟩ :=
      (filling_initializeMap callstackFunctions memory positive fits).addAll
        additions
    exact ⟨log, final, added, fun startFits =>
      (filling.goesThrough_iff.mpr startFits).savesAll⟩

/-- Two keys in one bucket, one apart and an empty bucket between them, with
three buckets. -/
theorem addAll_goesThrough_iff_three :
    (∃ log final,
      addAll sampleFunctions (initializeMap sampleMemory 3)
        [.insert (4, 8) 1, .findOrAdd (2, 8) 2, .insertIfAbsent (8, 8) 3] =
          some (log, final) ∧
      (GoesThrough sampleFunctions final log ↔
        StartFits sampleFunctions final log)) ∧
    ∀ memory : CallstackMap, ∃ log final,
      addAll callstackFunctions (initializeMap memory 3) [] =
        some (log, final) ∧
      (StartFits callstackFunctions final log →
        ∀ (selfmap : SelfMap) (boostratio : Int) (file : Option Text),
          SavesAll selfmap boostratio final file) := by
  have both := addAll_goesThrough_iff (show 0 < 3 by decide) (by decide)
  exact ⟨both.1 sampleFunctions sampleMemory _, fun memory =>
    both.2 memory []⟩

/-- One call of `insert` logs one entry. -/
theorem Filling.addAll_insert
    (filling : Filling functions size map bindings)
    (key : SizedKey Key) (value : Value) :
    ∃ final,
      HashMap.addAll functions map [.insert key value] =
        some ([⟨key, addressAt size bindings.length, value⟩], final) ∧
      Filling functions size final
        (bindings ++ [⟨key, addressAt size bindings.length, value⟩]) := by
  have inserted := filling.inserted_eq (hashIndex functions map key.1 key.2)
    (.insert key value)
  have kept := filling.insertEntry (.insert key value)
  dsimp only [Addition.key, Addition.value] at inserted kept
  rw [inserted] at kept
  refine ⟨_, ?_, kept⟩
  rw [HashMap.addAll, Addition.perform, HashMap.insert,
    filling.laid.getHashEntry_eq]
  simp only [Option.bind_eq_bind, Option.bind_some, Option.pure_def,
    HashMap.addAll, inserted, List.append_nil]

/-- A map with `2 ^ 32` buckets whose only entry is in the middle one cannot be
gone through. -/
theorem late_start_not_goesThrough :
    ¬∀ (Key Value : Type) (functions : HashFunctions Key Value)
      (memory : HashMap Key Value) (size : Nat)
      (additions : List (Addition Key Value)),
      0 < size → size < 2 ^ 64 →
        ∃ log final,
          addAll functions (initializeMap memory size) additions =
            some (log, final) ∧
          GoesThrough functions final log := by
  intro claimed
  obtain ⟨log, final, added, goes⟩ := claimed Nat Nat sampleFunctions
    sampleMemory (2 ^ 32) [.insert (2 ^ 31, 8) 0] (by decide) (by decide)
  have filling := filling_initializeMap sampleFunctions sampleMemory
    (show 0 < 2 ^ 32 by decide) (by decide)
  obtain ⟨only, inserted, filled⟩ := filling.addAll_insert (2 ^ 31, 8) 0
  rw [inserted, Option.some.injEq, Prod.mk.injEq] at added
  obtain ⟨rfl, rfl⟩ := added
  have bucket : ∀ address : EntryAddress,
      bucketOf sampleFunctions only ⟨(2 ^ 31, 8), address, 0⟩ = 2 ^ 31 := by
    intro address
    rw [bucketOf, hashIndex, filled.buckets]
    exact (by decide :
      (BitVec.ofNat 64 (2 ^ 31) &&& (BitVec.ofNat 64 (2 ^ 32) - 1)).toNat =
        2 ^ 31)
  have started := (filled.goesThrough_iff.mp goes).first _
    (List.mem_singleton_self _) (fun other member => by
      rw [List.mem_singleton.mp member])
  rw [bucket] at started
  omega

end HashMap

end Causer
