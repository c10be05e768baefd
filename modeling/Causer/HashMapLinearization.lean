import Causer.HashMapOwnership

/-!
# Concurrent additions take effect one after the other

An entry belongs to a key from the step on that increments the index of the
pool, and a key that is there is found under the lock of its bucket.  In the
order of these steps the calls of all threads return what they return on a
finite map, which the memory represents whenever all threads have returned.
-/

namespace Causer

namespace HashMap

open FiniteMap (Binding)

variable {Thread Key Value : Type}

/-! ## One step -/

section Soundness

variable [DecidableEq Thread] {functions : HashFunctions Key Value}
  {base : HashMap Key Value} {thread : Thread}
  {shared : AddShared Thread Key Value} {frame : AddFrame Key Value}
  {stage next : AddStage Key Value}
  {returned : List (MapCall Key Value × MapResult Value)}

/-- What a step gives back: the facts, the thread's own assertion and what the
others rely on. -/
abbrev SoundAdd (functions : HashFunctions Key Value)
    (base : HashMap Key Value) (thread : Thread)
    (before after : AddShared Thread Key Value)
    (caller : AddLocal Key Value) : Prop :=
  after.Fact functions base ∧ after.Assertion functions base thread caller ∧
    ∀ other ≠ thread, AddRely functions base other before after

/-- Two stages at which a thread holds the same locks and its call is decided
alike. -/
structure SameHold (frame : AddFrame Key Value)
    (stage next : AddStage Key Value) : Prop where
  bucket : next.holdsBucket = stage.holdsBucket
  pool : next.holdsPool = stage.holdsPool
  uncounted : next.uncounted = stage.uncounted
  decided : (AddPosition.active frame next).decided =
    (AddPosition.active frame stage).decided

/-- The thread goes on without a change of what is shared but for the map. -/
theorem assertion_next
    {after : AddShared Thread Key Value}
    (assertion : shared.Assertion functions base thread
      ⟨.active frame stage, returned⟩)
    (hold : SameHold frame stage next)
    (buckets : after.bucketOwner = shared.bucketOwner)
    (pool : after.poolOwner = shared.poolOwner)
    (uncounted : after.uncounted = shared.uncounted)
    (history : after.history = shared.history)
    (detail : BucketDetail functions base frame after.map after.bindings
      next) :
    after.Assertion functions base thread ⟨.active frame next, returned⟩ where
  buckets := fun bucket => by
    rw [buckets, assertion.buckets, AddPosition.bucket, AddPosition.bucket,
      hold.bucket]
  pool := by
    rw [pool, assertion.pool, AddPosition.holdsPool, AddPosition.holdsPool,
      hold.pool]
  uncounted := by
    rw [uncounted, assertion.uncounted, AddPosition.uncounted,
      AddPosition.uncounted, hold.uncounted]
  decided := by
    rw [AddShared.decidedFor, history, hold.decided]
    exact assertion.decided
  detail := detail

/-- A step that only loads. -/
theorem sound_load
    (fact : shared.Fact functions base)
    (assertion : shared.Assertion functions base thread
      ⟨.active frame stage, returned⟩)
    (hold : SameHold frame stage next)
    (detail : BucketDetail functions base frame shared.map shared.bindings
      next) :
    SoundAdd functions base thread shared shared
      ⟨.active frame next, returned⟩ :=
  ⟨fact, assertion_next assertion hold rfl rfl rfl rfl detail,
    fun _ _ => .refl⟩

/-- The map is changed only in one bucket. -/
structure OwnChange (functions : HashFunctions Key Value)
    (base : HashMap Key Value) (first : Nat)
    (shared : AddShared Thread Key Value) (map : HashMap Key Value) :
    Prop where
  buckets : map.buckets = shared.map.buckets
  allentries : map.allentries = shared.map.allentries
  entryindex : map.entryindex = shared.map.entryindex
  totalEntry : map.totalEntry = shared.map.totalEntry
  others : ∀ bucket ≠ first,
    SameOn (ownNodes functions base shared.bindings bucket) bucket shared.map map

/-- The owner of a bucket changes it. -/
theorem sound_setMap
    {map : HashMap Key Value}
    (fact : shared.Fact functions base)
    (assertion : shared.Assertion functions base thread
      ⟨.active frame stage, returned⟩)
    (hold : SameHold frame stage next)
    (holdsBucket : stage.holdsBucket = true)
    (change : OwnChange functions base frame.first shared map)
    (detail : BucketDetail functions base frame map shared.bindings next) :
    SoundAdd functions base thread shared (shared.setMap map)
      ⟨.active frame next, returned⟩ := by
  have owned : shared.bucketOwner frame.first = some thread :=
    (assertion.buckets frame.first).mpr (if_pos holdsBucket)
  have apart : ∀ bucket, shared.bucketOwner bucket ≠ some thread →
      bucket ≠ frame.first := by
    rintro bucket other rfl
    exact other owned
  have samePool : map.allentries = shared.map.allentries ∧
      map.entryindex = shared.map.entryindex ∧
      shared.bindings.length = shared.bindings.length :=
    ⟨change.allentries, change.entryindex, rfl⟩
  refine ⟨?_, assertion_next assertion hold rfl rfl rfl rfl detail,
    fun other different => ?_⟩
  · refine ⟨change.buckets.trans fact.buckets, fact.bucketLock,
      fact.entrylock, fact.legal, fun bucket inside unowned => ?_,
      fun free => PoolHolds.congr (fact.pool free) samePool, ?_, ?_⟩
    · refine (fact.free bucket inside unowned).congr
        (change.others bucket (apart bucket ?_))
      rw [show shared.bucketOwner bucket = none from unowned]
      nofun
    · rw [AddShared.setMap, change.totalEntry]
      exact fact.total
    · rw [AddShared.setMap, change.totalEntry]
      exact fact.totalEntry
  · refine ⟨fun _ => Iff.rfl, Iff.rfl, Iff.rfl, rfl, fun _ _ => rfl,
      fun bucket owns => change.others bucket (apart bucket ?_),
      fun _ => samePool⟩
    rw [owns, ne_eq, Option.some.injEq]
    exact different

/-- The owner of the pool changes it. -/
theorem sound_setPool
    {allentries entryindex : Nat}
    (fact : shared.Fact functions base)
    (assertion : shared.Assertion functions base thread
      ⟨.active frame stage, returned⟩)
    (hold : SameHold frame stage next)
    (holdsPool : stage.holdsPool = true)
    (detail : BucketDetail functions base frame
      { shared.map with
        allentries := allentries
        entryindex := entryindex } shared.bindings next) :
    SoundAdd functions base thread shared
      (shared.setMap
        { shared.map with
          allentries := allentries
          entryindex := entryindex })
      ⟨.active frame next, returned⟩ := by
  have owned : shared.poolOwner = some thread := assertion.pool.mpr holdsPool
  refine ⟨?_, assertion_next assertion hold rfl rfl rfl rfl detail,
    fun other different => ?_⟩
  · refine ⟨fact.buckets, fact.bucketLock, fact.entrylock, fact.legal,
      fun bucket inside unowned =>
        (fact.free bucket inside unowned).congr
          ⟨fun _ _ => rfl, fun _ _ => rfl, fun _ _ => rfl, rfl⟩,
      fun free => ?_, fact.total, fact.totalEntry⟩
    rw [show shared.poolOwner = none from free] at owned
    cases owned
  · refine ⟨fun _ => Iff.rfl, Iff.rfl, Iff.rfl, rfl, fun _ _ => rfl,
      fun bucket owns => ⟨fun _ _ => rfl, fun _ _ => rfl, fun _ _ => rfl, rfl⟩,
      fun owns => ?_⟩
    rw [owned, Option.some.injEq] at owns
    exact absurd owns.symm different

/-- A key's bucket is one of the map's. -/
theorem hashIndex_lt_buckets
    (functions : HashFunctions Key Value)
    (positive : 0 < base.buckets) (bound : base.buckets < 2 ^ 64)
    (key : Key) (keylen : Nat) :
    hashIndex functions base key keylen < base.buckets :=
  (laid_initializeMap functions base positive bound).hashIndex_lt key keylen

/-- The lock of a bucket is taken when it is free. -/
theorem sound_lockBucket
    (positive : 0 < base.buckets) (bound : base.buckets < 2 ^ 64)
    (fact : shared.Fact functions base)
    (assertion : shared.Assertion functions base thread
      ⟨.active frame .locking, returned⟩)
    (free : shared.bucketLock frame.first = false) :
    SoundAdd functions base thread shared
      (shared.lockBucket thread frame.first)
      ⟨.active frame .loadFirst, returned⟩ := by
  have noOwner : shared.bucketOwner frame.first = none := by
    rw [fact.bucketLock, Option.isSome_eq_false_iff,
      Option.isNone_iff_eq_none] at free
    exact free
  have detail : BucketDetail functions base frame shared.map shared.bindings
      .locking :=
    assertion.detail
  have inside : frame.first < base.buckets := by
    rw [detail.first]
    exact hashIndex_lt_buckets functions positive bound _ _
  refine ⟨?_, ⟨fun bucket => ?_, assertion.pool, assertion.uncounted,
    assertion.decided, detail.first, fun _ => fact.free _ inside noOwner,
    trivial⟩, fun other different => ⟨fun bucket => ?_, Iff.rfl, Iff.rfl, rfl,
      fun _ _ => rfl, fun _ _ => .refl, fun _ => ⟨rfl, rfl, rfl⟩⟩⟩
  · refine ⟨fact.buckets, fun bucket => ?_, fact.entrylock, fact.legal,
      fun bucket smaller unowned => ?_, fact.pool, fact.total,
      fact.totalEntry⟩
    · by_cases same : bucket = frame.first
      · simp [same]
      · simpa [same] using fact.bucketLock bucket
    · have apart : bucket ≠ frame.first := by
        rintro rfl
        simp at unowned
      rw [AddShared.lockBucket_bucketOwner, Function.update_of_ne apart] at unowned
      exact fact.free bucket smaller unowned
  · have without : shared.bucketOwner bucket ≠ some thread := by
      rw [Ne, assertion.buckets bucket]
      simp [AddPosition.bucket, AddStage.holdsBucket]
    by_cases same : bucket = frame.first
    · simp [AddPosition.bucket, AddStage.holdsBucket,
        same]
    · simpa [AddPosition.bucket, AddStage.holdsBucket,
        same, Ne.symm same] using without
  · by_cases same : bucket = frame.first
    · simp [same, noOwner, Ne.symm different]
    · simp [same]

/-- The lock of the pool is taken when it is free. -/
theorem sound_lockPool
    (fact : shared.Fact functions base)
    (assertion : shared.Assertion functions base thread
      ⟨.active frame .poolLocking, returned⟩)
    (free : shared.entrylock = false) :
    SoundAdd functions base thread shared (shared.lockPool thread)
      ⟨.active frame .testPool, returned⟩ := by
  have noOwner : shared.poolOwner = none := by
    rw [fact.entrylock, Option.isSome_eq_false_iff,
      Option.isNone_iff_eq_none] at free
    exact free
  have detail : BucketDetail functions base frame shared.map shared.bindings
      .poolLocking :=
    assertion.detail
  refine ⟨⟨fact.buckets, fact.bucketLock, rfl, fact.legal, fact.free,
      nofun, fact.total, fact.totalEntry⟩,
    ⟨assertion.buckets, iff_of_true rfl rfl, assertion.uncounted,
      assertion.decided, detail.first, detail.holds, detail.stage,
      fact.pool noOwner⟩,
    fun other different => ⟨fun _ => Iff.rfl, ?_, Iff.rfl, rfl, fun _ _ => rfl,
      fun _ _ => .refl, fun _ => ⟨rfl, rfl, rfl⟩⟩⟩
  rw [noOwner]
  simp [Ne.symm different]

/-- The lock of the pool is given back with an entry taken. -/
theorem sound_unlockPool
    {entry : EntryAddress}
    (fact : shared.Fact functions base)
    (assertion : shared.Assertion functions base thread
      ⟨.active frame (.poolUnlocking entry), returned⟩)
    (detail : BucketDetail functions base frame shared.map shared.bindings
      (.initialising entry (frame.initialisation entry))) :
    SoundAdd functions base thread shared shared.unlockPool
      ⟨.active frame (.initialising entry (frame.initialisation entry)),
        returned⟩ := by
  have owned : shared.poolOwner = some thread := assertion.pool.mpr rfl
  have earlier : BucketDetail functions base frame shared.map shared.bindings
      (.poolUnlocking entry) := assertion.detail
  refine ⟨⟨fact.buckets, fact.bucketLock, rfl, fact.legal, fact.free,
      fun _ => earlier.stage.2, fact.total, fact.totalEntry⟩,
    ⟨assertion.buckets, ⟨nofun, nofun⟩, assertion.uncounted,
      assertion.decided, detail⟩,
    fun other different => ⟨fun _ => Iff.rfl, ?_, Iff.rfl, rfl, fun _ _ => rfl,
      fun _ _ => .refl, fun _ => ⟨rfl, rfl, rfl⟩⟩⟩
  rw [owned]
  simp [Ne.symm different]

/-- The lock of a bucket is given back with the bucket complete. -/
theorem sound_unlockBucket
    {result : MapResult Value}
    (fact : shared.Fact functions base)
    (assertion : shared.Assertion functions base thread
      ⟨.active frame (.unlocking result), returned⟩) :
    SoundAdd functions base thread shared (shared.unlockBucket frame.first)
      ⟨.idle, returned ++ [(frame.call.toCall, result)]⟩ := by
  have owned : shared.bucketOwner frame.first = some thread :=
    (assertion.buckets frame.first).mpr rfl
  have detail : BucketDetail functions base frame shared.map shared.bindings
      (.unlocking result) :=
    assertion.detail
  refine ⟨?_, ⟨fun bucket => ?_, assertion.pool, assertion.uncounted,
    ?_, trivial⟩, fun other different => ⟨fun bucket => ?_, Iff.rfl, Iff.rfl,
      rfl, fun _ _ => rfl, fun _ _ => .refl, fun _ => ⟨rfl, rfl, rfl⟩⟩⟩
  · refine ⟨fact.buckets, fun bucket => ?_, fact.entrylock, fact.legal,
      fun bucket smaller unowned => ?_, fact.pool, fact.total,
      fact.totalEntry⟩
    · by_cases same : bucket = frame.first
      · simp [same]
      · simpa [same] using fact.bucketLock bucket
    · by_cases same : bucket = frame.first
      · subst same
        exact detail.holds rfl
      · rw [AddShared.unlockBucket_bucketOwner,
          Function.update_of_ne same] at unowned
        exact fact.free bucket smaller unowned
  · have only := assertion.buckets bucket
    by_cases same : bucket = frame.first
    · simp [AddPosition.bucket, same]
    · simpa [AddPosition.bucket,
        AddStage.holdsBucket, same, Ne.symm same] using only
  · have decided : shared.decidedFor thread =
        returned ++ [(frame.call.toCall, result)] := assertion.decided
    change shared.decidedFor thread = _ ++ []
    rw [decided, List.append_nil]
  · by_cases same : bucket = frame.first
    · simp [same, owned, Ne.symm different]
    · simp [same]

omit [DecidableEq Thread] in
/-- Another call has been decided. -/
theorem legal_append
    {call : MapCall Key Value} {result : MapResult Value}
    {bindings : List (MapBinding Key Value)}
    (fact : shared.Fact functions base)
    (decided : FiniteMap.step (policy functions base.buckets) shared.bindings
      call = (result, bindings)) :
    FiniteMap.run (policy functions base.buckets) []
        ((shared.history ++ [(thread, call, result)]).map
          fun event => event.2.1) =
      ((shared.history ++ [(thread, call, result)]).map
        fun event => event.2.2, bindings) := by
  rw [List.map_append, FiniteMap.run_append, fact.legal, List.map_cons,
    List.map_nil, FiniteMap.run_cons, decided, List.map_append]
  rfl

omit [DecidableEq Thread] in
/-- The bindings have different keys, and are where they were put. -/
theorem tidy_bindings (fact : shared.Fact functions base) :
    FiniteMap.Tidy (policy functions base.buckets) shared.bindings := by
  have empty : FiniteMap.Tidy (policy functions base.buckets) [] :=
    FiniteMap.Tidy.nil
  have tidy := empty.run (shared.history.map fun event => event.2.1)
  rw [fact.legal] at tidy
  exact tidy

/-- A key is found among all bindings as in its bucket. -/
theorem lookup_none_of_absent
    (lawful : Lawful functions)
    (first : frame.first =
      hashIndex functions base frame.call.key frame.call.keylen)
    {bindings : List (MapBinding Key Value)}
    (absent : Absent functions base frame bindings) :
    FiniteMap.lookup (policy functions base.buckets) bindings
      (frame.call.key, frame.call.keylen) = none := by
  rw [FiniteMap.lookup_eq_none]
  intro binding member
  by_contra same
  rw [Bool.not_eq_false] at same
  have inside : binding ∈ inBucket functions base frame.first bindings := by
    rw [inBucket, List.mem_filter, decide_eq_true_eq, first]
    exact ⟨member, hashIndex_of_same lawful same⟩
  rw [absent.different binding inside] at same
  cases same

/-- The call on the finite map, when the key is absent. -/
theorem step_toCall_of_none
    {bindings : List (MapBinding Key Value)} {call : AddCall Key Value}
    (none : FiniteMap.lookup (policy functions base.buckets) bindings
      (call.key, call.keylen) = none) :
    FiniteMap.step (policy functions base.buckets) bindings call.toCall =
      (call.result false (addressAt base.buckets bindings.length),
        bindings ++ [call.binding functions
          (addressAt base.buckets bindings.length)]) := by
  unfold AddCall.toCall AddCall.result AddCall.binding
  split_ifs <;>
    · rw [FiniteMap.step, none]
      rfl

/-- The call on the finite map, when the key is at an entry. -/
theorem step_toCall_of_some
    {bindings : List (MapBinding Key Value)} {call : AddCall Key Value}
    {binding : MapBinding Key Value}
    (found : FiniteMap.lookup (policy functions base.buckets) bindings
      (call.key, call.keylen) = some binding) :
    FiniteMap.step (policy functions base.buckets) bindings call.toCall =
      (call.result true binding.address, bindings) := by
  unfold AddCall.toCall AddCall.result
  split_ifs <;> rw [FiniteMap.step, found]

/-- A decided call is added to its thread's. -/
theorem decidedFor_append
    (shared after : AddShared Thread Key Value)
    {event : MapCall Key Value × MapResult Value}
    (history : after.history = shared.history ++ [(thread, event)])
    (other : Thread) :
    after.decidedFor other =
      shared.decidedFor other ++ if other = thread then [event] else [] := by
  rw [AddShared.decidedFor, history, List.filter_append, List.map_append]
  by_cases own : other = thread
  · simp [AddShared.decidedFor, own]
  · simp [AddShared.decidedFor, own, Ne.symm own]

/-- A key that has been found decides its call. -/
theorem sound_decide
    {entry : EntryAddress} {at_ : BucketNode} {count : Nat}
    (fact : shared.Fact functions base)
    (assertion : shared.Assertion functions base thread
      ⟨.active frame (.searching at_ count), returned⟩)
    (decided : FiniteMap.step (policy functions base.buckets) shared.bindings
      frame.call.toCall = (frame.call.result true entry, shared.bindings)) :
    SoundAdd functions base thread shared
      (shared.decide thread frame.call entry)
      ⟨.active frame (.unlocking (frame.call.result true entry)),
        returned⟩ := by
  have detail : BucketDetail functions base frame shared.map shared.bindings
    (.searching at_ count) := assertion.detail
  have history := decidedFor_append shared
    (shared.decide thread frame.call entry) rfl
  refine ⟨⟨fact.buckets, fact.bucketLock, fact.entrylock,
      legal_append fact decided, fact.free, fact.pool, fact.total,
      fact.totalEntry⟩,
    ⟨assertion.buckets, assertion.pool, assertion.uncounted, ?_,
      detail.first, detail.holds, trivial⟩,
    fun other different => ⟨fun _ => Iff.rfl, Iff.rfl, Iff.rfl, ?_,
      fun _ _ => rfl, fun _ _ => .refl, fun _ => ⟨rfl, rfl, rfl⟩⟩⟩
  · have before : shared.decidedFor thread = returned ++ [] :=
      assertion.decided
    rw [history thread, if_pos rfl, before, List.append_nil]
    rfl
  · rw [history other, if_neg different, List.append_nil]

/-- The entry at the index of the pool is the next one. -/
theorem addressAt_of_handed
    {size allentries entryindex number : Nat}
    (handed : allentries * size + entryindex = number)
    (room : entryindex < size) :
    addressAt size number = ⟨allentries, entryindex⟩ := by
  rw [addressAt, ← handed, Nat.mul_add_mod_of_lt room,
    Nat.mul_comm allentries, Nat.mul_add_div (by omega),
    Nat.div_eq_of_lt room, Nat.add_zero]

/-- An entry is taken from the pool. -/
theorem sound_take
    {entry : EntryAddress}
    (lawful : Lawful functions)
    (bound : base.buckets < 2 ^ 64)
    (fact : shared.Fact functions base)
    (assertion : shared.Assertion functions base thread
      ⟨.active frame (.storeIndex entry), returned⟩) :
    SoundAdd functions base thread shared
      (shared.take functions thread frame.call entry)
      ⟨.active frame (.poolUnlocking entry), returned⟩ := by
  have detail : BucketDetail functions base frame shared.map shared.bindings
    (.storeIndex entry) := assertion.detail
  obtain ⟨absent, pool, room, isEntry⟩ := detail.stage
  have address : addressAt base.buckets shared.bindings.length = entry := by
    rw [addressAt_of_handed pool.handed room, isEntry]
  have decided := step_toCall_of_none
    (lookup_none_of_absent lawful detail.first absent)
  rw [address] at decided
  have owned : shared.bucketOwner frame.first = some thread :=
    (assertion.buckets frame.first).mpr rfl
  have ownsPool : shared.poolOwner = some thread := assertion.pool.mpr rfl
  have untaken : thread ∉ shared.uncounted := fun member => by
    have taken := assertion.uncounted.mp member
    cases taken
  have inside : inBucket functions base frame.first
        (shared.take functions thread frame.call entry).bindings =
      inBucket functions base frame.first shared.bindings ++
        [frame.call.binding functions entry] :=
    inBucket_append_self detail.first.symm
  have outside : ∀ bucket ≠ frame.first,
      inBucket functions base bucket
          (shared.take functions thread frame.call entry).bindings =
        inBucket functions base bucket shared.bindings := by
    intro bucket apart
    exact inBucket_append_of_ne fun same =>
      apart (detail.first.trans same).symm
  have fresh : BucketNode.entry entry ∉
      ownNodes functions base shared.bindings frame.first := by
    rw [← address]
    exact entry_not_mem (addressAt_not_mem (tidy_bindings fact).addresses) _
  have history := decidedFor_append shared
    (shared.take functions thread frame.call entry) rfl
  have increment : sizeIncrement shared.map.entryindex =
      shared.map.entryindex + 1 := Nat.mod_eq_of_lt (by omega)
  have length : (shared.take functions thread frame.call entry).bindings.length =
      shared.bindings.length + 1 := List.length_append
  refine ⟨⟨fact.buckets, fact.bucketLock, fact.entrylock,
      legal_append fact decided, fun bucket smaller unowned => ?_,
      fun unowned => ?_, ?_, fact.totalEntry⟩,
    ⟨assertion.buckets, assertion.pool, ?_, ?_, detail.first, fun _ => ?_,
      ?_, ?_, ?_⟩,
    fun other different => ⟨fun _ => Iff.rfl, Iff.rfl, ?_, ?_,
      fun bucket owns => ?_, fun bucket owns => ?_, fun owns => ?_⟩⟩
  · have apart : bucket ≠ frame.first := by
      rintro rfl
      rw [show shared.bucketOwner frame.first = none from unowned] at owned
      cases owned
    rw [outside bucket apart]
    exact (fact.free bucket smaller unowned).congr (sameOn_of_eq rfl rfl rfl)
  · rw [show shared.poolOwner = none from unowned] at ownsPool
    cases ownsPool
  · rw [length]
    have total := fact.total
    simp only [AddShared.take_uncounted, AddShared.take_totalEntry,
      Finset.singleton_union, Finset.card_insert_of_notMem untaken]
    omega
  · simp [AddPosition.uncounted, AddStage.uncounted]
  · have before : shared.decidedFor thread = returned ++ [] :=
      assertion.decided
    rw [history thread, if_pos rfl, before, List.append_nil]
    rfl
  · rw [inside]
    have holds : BucketHolds frame.first
        (inBucket functions base frame.first shared.bindings)
        (shared.take functions thread frame.call entry).map :=
      (detail.holds rfl).congr (sameOn_of_eq rfl rfl rfl)
    exact holds.add fresh absent.few
  · have member : frame.call.binding functions entry ∈
        inBucket functions base frame.first
          (shared.take functions thread frame.call entry).bindings := by
      rw [inside]
      exact List.mem_concat_self ..
    exact entry_mem_nodesOf member
  · have handed := pool.handed
    rw [length, AddShared.take_entryindex, AddShared.take_allentries, increment]
    omega
  · rw [AddShared.take_entryindex, increment]
    exact room
  · simp [different]
  · rw [history other, if_neg different, List.append_nil]
  · refine outside bucket ?_
    rintro rfl
    rw [owned, Option.some.injEq] at owns
    exact different owns.symm
  · exact sameOn_of_eq rfl rfl rfl
  · rw [ownsPool, Option.some.injEq] at owns
    exact absurd owns.symm different

/-- An entry is counted. -/
theorem sound_count
    {entry : EntryAddress}
    (fact : shared.Fact functions base)
    (assertion : shared.Assertion functions base thread
      ⟨.active frame (.addTotal entry), returned⟩)
    (bucket : next.holdsBucket = true)
    (pool : next.holdsPool = false)
    (counted : next.uncounted = false)
    (decided : (AddPosition.active frame next).decided =
      [(frame.call.toCall, frame.call.result false entry)])
    (detail : BucketDetail functions base frame (shared.count thread).map
      shared.bindings next) :
    SoundAdd functions base thread shared (shared.count thread)
      ⟨.active frame next, returned⟩ := by
  have taken : thread ∈ shared.uncounted := assertion.uncounted.mpr rfl
  refine ⟨⟨fact.buckets, fact.bucketLock, fact.entrylock, fact.legal,
      fun bucket smaller unowned => ?_, fun unowned => ?_, ?_, ?_⟩,
    ⟨fun place => ?_, ?_, ?_, ?_, detail⟩,
    fun other different => ⟨fun _ => Iff.rfl, Iff.rfl, ?_, rfl,
      fun _ _ => rfl, fun _ _ => sameOn_of_eq rfl rfl rfl,
      fun _ => ⟨rfl, rfl, rfl⟩⟩⟩
  · exact (fact.free bucket smaller unowned).congr (sameOn_of_eq rfl rfl rfl)
  · exact ⟨(fact.pool unowned).handed, (fact.pool unowned).entryindex⟩
  · have total := fact.total
    have positive := Finset.card_pos.mpr ⟨thread, taken⟩
    simp only [AddShared.count_uncounted, AddShared.count_totalEntry,
      AddShared.count_bindings, Finset.card_erase_of_mem taken, sizeIncrement]
    omega
  · exact Nat.mod_lt _ (by decide)
  · rw [AddPosition.bucket, bucket]
    exact assertion.buckets place
  · rw [AddPosition.holdsPool, pool]
    exact assertion.pool
  · simp [AddPosition.uncounted, counted]
  · rw [decided]
    exact assertion.decided
  · simp [different]

/-! ## The search -/

omit [DecidableEq Thread] in
/-- The search starts at the first entry of the bucket. -/
theorem searching_first
    {bindings : List (MapBinding Key Value)} {map : HashMap Key Value}
    (holds : BucketHolds frame.first
      (inBucket functions base frame.first bindings) map)
    (roomy : map.count frame.first < 2 ^ 31) :
    Searching functions base frame bindings
      (map.links.next (.head frame.first))
      (BitVec.ofNat 32 (map.count frame.first)).toInt.toNat := by
  refine ⟨holds.count ▸ roomy, [], inBucket functions base frame.first bindings,
    rfl, nofun, ?_, holds.ring.linked_next.next⟩
  rw [intCount_of_lt roomy, holds.count]

omit [DecidableEq Thread] in
/-- An entry that does not match is passed. -/
theorem searching_next
    {bindings : List (MapBinding Key Value)} {map : HashMap Key Value}
    {entry : EntryAddress} {count : Nat}
    (buckets : map.buckets = base.buckets)
    (holds : BucketHolds frame.first
      (inBucket functions base frame.first bindings) map)
    (searching : Searching functions base frame bindings (.entry entry)
      (count + 1))
    (differs : matchesKey functions map frame.call.key frame.call.keylen
      entry = false) :
    Searching functions base frame bindings (map.links.next (.entry entry))
      count := by
  obtain ⟨few, before, after, split, passed, counted, here⟩ := searching
  cases after with
  | nil => cases counted
  | cons binding after =>
      simp only [List.map_cons, List.headD_cons, BucketNode.entry.injEq] at here
      subst here
      have member : binding ∈ inBucket functions base frame.first bindings := by
        rw [split]
        exact List.mem_append_right _ List.mem_cons_self
      have same : matchesKey functions map frame.call.key frame.call.keylen
          binding.address =
        (policy functions map.buckets).same binding.key
          (frame.call.key, frame.call.keylen) :=
        holds.entries.matchesKey_eq member _ _
      rw [differs, buckets] at same
      refine ⟨few, before ++ [binding], after, by rw [split]; simp, ?_,
        Nat.succ.inj counted, ?_⟩
      · intro other passes
        rcases List.mem_append.mp passes with earlier | this
        · exact passed other earlier
        · rw [List.mem_singleton.mp this]
          exact same.symm
      · have ring := holds.ring
        rw [split, List.map_append, List.map_append] at ring
        have cycle : Ring.IsCycle map.links ((.head frame.first ::
            (before.map Binding.address).map .entry) ++
              .entry binding.address ::
                (after.map Binding.address).map .entry) := ring
        rw [cycle.linked_next.next]
        cases after <;> rfl

omit [DecidableEq Thread] in
/-- A search that has come to its end has found no key. -/
theorem absent_of_searching
    {bindings : List (MapBinding Key Value)} {entry : BucketNode}
    (searching : Searching functions base frame bindings entry 0) :
    Absent functions base frame bindings := by
  obtain ⟨few, before, after, split, passed, counted, -⟩ := searching
  obtain rfl := List.eq_nil_of_length_eq_zero counted.symm
  rw [List.append_nil] at split
  exact ⟨few, split ▸ passed⟩

omit [DecidableEq Thread] in
/-- A match is the binding of the key. -/
theorem step_of_searching
    (lawful : Lawful functions)
    {entry : EntryAddress} {count : Nat}
    (fact : shared.Fact functions base)
    (holds : BucketHolds frame.first
      (inBucket functions base frame.first shared.bindings) shared.map)
    (searching : Searching functions base frame shared.bindings (.entry entry)
      (count + 1))
    (isMatch : matchesKey functions shared.map frame.call.key
      frame.call.keylen entry = true) :
    FiniteMap.step (policy functions base.buckets) shared.bindings
      frame.call.toCall =
        (frame.call.result true entry, shared.bindings) := by
  obtain ⟨few, before, after, split, passed, counted, here⟩ := searching
  cases after with
  | nil => cases counted
  | cons binding after =>
      simp only [List.map_cons, List.headD_cons, BucketNode.entry.injEq] at here
      subst here
      have inside : binding ∈
          inBucket functions base frame.first shared.bindings := by
        rw [split]
        exact List.mem_append_right _ List.mem_cons_self
      have member : binding ∈ shared.bindings := List.mem_of_mem_filter inside
      have same : matchesKey functions shared.map frame.call.key
          frame.call.keylen binding.address =
        (policy functions shared.map.buckets).same binding.key
          (frame.call.key, frame.call.keylen) :=
        holds.entries.matchesKey_eq inside _ _
      rw [isMatch, fact.buckets] at same
      have policyLawful := lawful.policy_lawful base.buckets
      obtain ⟨found, lookup⟩ := Option.isSome_iff_exists.mp
        (FiniteMap.lookup_isSome.mpr ⟨binding, member, same.symm⟩)
      obtain ⟨foundMember, foundSame⟩ := FiniteMap.lookup_eq_some lookup
      have address : found.address = binding.address :=
        ((tidy_bindings fact).same_iff policyLawful foundMember member).mp
          (policyLawful.trans foundSame (policyLawful.symm same.symm))
      rw [step_toCall_of_some lookup, address]

/-! ## The stages -/

omit [DecidableEq Thread] in
/-- The nodes of one bucket are written by its owner alone. -/
theorem apart_of_mem_ownNodes
    (fact : shared.Fact functions base)
    {node : BucketNode} {first bucket : Nat}
    (member : node ∈ ownNodes functions base shared.bindings first)
    (different : bucket ≠ first) :
    node ∉ ownNodes functions base shared.bindings bucket := by
  have nodup := nodup_addresses (tidy_bindings fact).addresses
  exact fun other => disjoint_buckets nodup different other member

omit [DecidableEq Thread] in
theorem ownChange_perform
    (fact : shared.Fact functions base)
    {store : NodeStore Key Value} {first : Nat}
    (place : store.place ∈ ownNodes functions base shared.bindings first) :
    OwnChange functions base first shared (store.perform shared.map) := by
  refine ⟨?_, ?_, ?_, ?_, fun bucket different =>
    sameOn_perform (apart_of_mem_ownNodes fact place different)⟩ <;>
  · cases store <;> rfl

omit [DecidableEq Thread] in
theorem ownChange_count
    {first count : Nat} :
    OwnChange functions base first shared
      { shared.map with
        count := Function.update shared.map.count first count } := by
  refine ⟨rfl, rfl, rfl, rfl, fun bucket different =>
    ⟨fun _ _ => rfl, fun _ _ => rfl, fun _ _ => rfl, ?_⟩⟩
  exact Function.update_of_ne different ..

omit [DecidableEq Thread] in
theorem ownChange_entry
    (fact : shared.Fact functions base)
    {entry : EntryAddress} {first : Nat} {stored : Entry Key Value}
    (member : .entry entry ∈ ownNodes functions base shared.bindings first) :
    OwnChange functions base first shared
      { shared.map with
        entries := Function.update shared.map.entries entry stored } := by
  refine ⟨rfl, rfl, rfl, rfl, fun bucket different =>
    ⟨fun _ _ => rfl, fun _ _ => rfl, fun other inside => ?_, rfl⟩⟩
  have apart : other ≠ entry := by
    rintro rfl
    exact apart_of_mem_ownNodes fact member different inside
  exact Function.update_of_ne apart ..

omit [DecidableEq Thread] in
/-- The last node of a bucket that is being linked belongs to the bucket. -/
theorem prev_head_mem_ownNodes
    {bindings : List (MapBinding Key Value)} {map : HashMap Key Value}
    {entry : EntryAddress}
    (member : .entry entry ∈ ownNodes functions base bindings frame.first)
    (holds : BucketHolds frame.first
      (inBucket functions base frame.first bindings)
      (frame.finish functions (.initialising entry []) map)) :
    map.links.prev (.head frame.first) ∈
      ownNodes functions base bindings frame.first := by
  have cycle : Ring.IsCycle (frame.finish functions (.initialising entry [])
      map).links (ownNodes functions base bindings frame.first) := holds.ring
  have linked : (frame.finish functions (.initialising entry []) map).links =
      Ring.insertTail map.links (.entry entry) (.head frame.first) := by
    simp only [AddFrame.finish, AddFrame.linkUp, AddFrame.countUp,
      AddFrame.resetUp, NodeStore.performAll, List.foldl_nil]
    split_ifs <;> rfl
  have before := cycle.prev_mem member
  rw [linked, Ring.insertTail, Ring.insertBetween_prev, if_neg (by simp),
    if_pos rfl] at before
  exact before

/-- The loop of `getEntry` stops at a match or at its end, and otherwise goes
on. -/
theorem sound_searching
    {after : AddShared Thread Key Value}
    {entry : BucketNode} {count : Nat}
    (lawful : Lawful functions)
    (fact : shared.Fact functions base)
    (assertion : shared.Assertion functions base thread
      ⟨.active frame (.searching entry count), returned⟩)
    (moved : advanceStage functions thread shared frame
      (.searching entry count) = some (after, next)) :
    SoundAdd functions base thread shared after
      ⟨.active frame next, returned⟩ := by
  have detail : BucketDetail functions base frame shared.map shared.bindings
    (.searching entry count) := assertion.detail
  match entry, count with
  | entry, 0 =>
      cases moved
      exact sound_load fact assertion ⟨rfl, rfl, rfl, rfl⟩
        ⟨detail.first, detail.holds, absent_of_searching detail.stage⟩
  | .head bucket, count + 1 => cases moved
  | .entry entry, count + 1 =>
      rw [advanceStage] at moved
      split_ifs at moved with isMatch
      · cases moved
        exact sound_decide fact assertion
          (step_of_searching lawful fact (detail.holds rfl) detail.stage
            isMatch)
      · cases moved
        exact sound_load fact assertion ⟨rfl, rfl, rfl, rfl⟩
          ⟨detail.first, detail.holds, searching_next fact.buckets
            (detail.holds rfl) detail.stage (Bool.eq_false_iff.mpr isMatch)⟩

/-- The pool has room or is full. -/
theorem sound_testPool
    {after : AddShared Thread Key Value}
    (positive : 0 < base.buckets)
    (fact : shared.Fact functions base)
    (assertion : shared.Assertion functions base thread
      ⟨.active frame .testPool, returned⟩)
    (moved : advanceStage functions thread shared frame .testPool =
      some (after, next)) :
    SoundAdd functions base thread shared after
      ⟨.active frame next, returned⟩ := by
  have detail : BucketDetail functions base frame shared.map shared.bindings
    .testPool := assertion.detail
  cases moved
  obtain ⟨absent, pool⟩ := detail.stage
  have limit := pool.entryindex
  rw [fact.buckets]
  split_ifs with full
  · exact sound_load fact assertion ⟨rfl, rfl, rfl, rfl⟩
      ⟨detail.first, detail.holds, absent, pool, by omega⟩
  · exact sound_load fact assertion ⟨rfl, rfl, rfl, rfl⟩
      ⟨detail.first, detail.holds, absent, pool, by omega⟩

/-- A new block has nothing handed out. -/
theorem sound_expanding
    {after : AddShared Thread Key Value}
    (fact : shared.Fact functions base)
    (assertion : shared.Assertion functions base thread
      ⟨.active frame .expanding, returned⟩)
    (moved : advanceStage functions thread shared frame .expanding =
      some (after, next)) :
    SoundAdd functions base thread shared after
      ⟨.active frame next, returned⟩ := by
  have detail : BucketDetail functions base frame shared.map shared.bindings
    .expanding := assertion.detail
  cases moved
  obtain ⟨absent, pool, full⟩ := detail.stage
  refine sound_setPool fact assertion ⟨rfl, rfl, rfl, rfl⟩ rfl
    ⟨detail.first, fun _ => (detail.holds rfl).congr
      (sameOn_of_eq rfl rfl rfl), absent, ?_⟩
  have handed := pool.handed
  rw [full] at handed
  rw [Nat.succ_mul]
  exact handed

/-- The stores that initialise an entry concern the call's own nodes. -/
theorem sound_initialising
    {after : AddShared Thread Key Value}
    {entry : EntryAddress} {stores : List (NodeStore Key Value)}
    (fact : shared.Fact functions base)
    (assertion : shared.Assertion functions base thread
      ⟨.active frame (.initialising entry stores), returned⟩)
    (moved : advanceStage functions thread shared frame
      (.initialising entry stores) = some (after, next)) :
    SoundAdd functions base thread shared after
      ⟨.active frame next, returned⟩ := by
  have detail : BucketDetail functions base frame shared.map shared.bindings
    (.initialising entry stores) := assertion.detail
  obtain ⟨member, places⟩ := detail.stage
  cases stores with
  | nil =>
      cases moved
      refine sound_load fact assertion ⟨rfl, rfl, rfl, rfl⟩
        ⟨detail.first, detail.holds, member, ?_⟩
      have tail := prev_head_mem_ownNodes member (detail.holds rfl)
      have head : BucketNode.head frame.first ∈
        ownNodes functions base shared.bindings frame.first :=
        List.mem_cons_self
      simp [AddFrame.insertBetween, NodeStore.place, member, tail, head]
  | cons store stores =>
      cases moved
      obtain ⟨first, others⟩ := List.forall_mem_cons.mp places
      exact sound_setMap fact assertion ⟨rfl, rfl, rfl, rfl⟩ rfl
        (ownChange_perform fact first)
        ⟨detail.first, detail.holds, member, others⟩

/-- So do the stores that link it. -/
theorem sound_linking
    {after : AddShared Thread Key Value}
    {entry : EntryAddress} {stores : List (NodeStore Key Value)}
    (fact : shared.Fact functions base)
    (assertion : shared.Assertion functions base thread
      ⟨.active frame (.linking entry stores), returned⟩)
    (moved : advanceStage functions thread shared frame
      (.linking entry stores) = some (after, next)) :
    SoundAdd functions base thread shared after
      ⟨.active frame next, returned⟩ := by
  have detail : BucketDetail functions base frame shared.map shared.bindings
    (.linking entry stores) := assertion.detail
  obtain ⟨member, places⟩ := detail.stage
  cases stores with
  | nil =>
      cases moved
      exact sound_load fact assertion ⟨rfl, rfl, rfl, rfl⟩
        ⟨detail.first, detail.holds, member, rfl⟩
  | cons store stores =>
      cases moved
      obtain ⟨first, others⟩ := List.forall_mem_cons.mp places
      exact sound_setMap fact assertion ⟨rfl, rfl, rfl, rfl⟩ rfl
        (ownChange_perform fact first)
        ⟨detail.first, detail.holds, member, others⟩

/-- The counted entry is given its value, if the call returns it. -/
theorem sound_addTotal
    {after : AddShared Thread Key Value}
    {entry : EntryAddress}
    (fact : shared.Fact functions base)
    (assertion : shared.Assertion functions base thread
      ⟨.active frame (.addTotal entry), returned⟩)
    (moved : advanceStage functions thread shared frame (.addTotal entry) =
      some (after, next)) :
    SoundAdd functions base thread shared after
      ⟨.active frame next, returned⟩ := by
  have detail : BucketDetail functions base frame shared.map shared.bindings
    (.addTotal entry) := assertion.detail
  cases moved
  have member : .entry entry ∈
    ownNodes functions base shared.bindings frame.first := detail.stage
  have holds : BucketHolds frame.first
      (inBucket functions base frame.first shared.bindings)
      (frame.resetUp functions entry (shared.count thread).map) :=
    (detail.holds rfl).congr (SameOn.resetUp (sameOn_of_eq rfl rfl rfl))
  by_cases returns : frame.call.returnsEntry = true
  · rw [if_pos returns]
    exact sound_count fact assertion rfl rfl rfl rfl
      ⟨detail.first, fun _ => holds, returns, member⟩
  · rw [AddFrame.resetUp, if_neg returns] at holds
    rw [if_neg returns]
    exact sound_count fact assertion rfl rfl rfl rfl
      ⟨detail.first, fun _ => holds, trivial⟩

/-- The value that is assigned is the one that the map is to hold. -/
theorem sound_resetting
    {after : AddShared Thread Key Value}
    {entry : EntryAddress}
    (fact : shared.Fact functions base)
    (assertion : shared.Assertion functions base thread
      ⟨.active frame (.resetting entry), returned⟩)
    (moved : advanceStage functions thread shared frame (.resetting entry) =
      some (after, next)) :
    SoundAdd functions base thread shared after
      ⟨.active frame next, returned⟩ := by
  have detail : BucketDetail functions base frame shared.map shared.bindings
    (.resetting entry) := assertion.detail
  cases moved
  obtain ⟨returns, member⟩ := detail.stage
  have holds : BucketHolds frame.first
      (inBucket functions base frame.first shared.bindings)
      (frame.resetUp functions entry shared.map) := detail.holds rfl
  rw [AddFrame.resetUp, if_pos returns] at holds
  exact sound_setMap fact assertion ⟨rfl, rfl, rfl, rfl⟩ rfl
    (ownChange_entry fact member) ⟨detail.first, fun _ => holds, trivial⟩

/-- Every access of a call is sound. -/
theorem sound_stage
    {after : AddShared Thread Key Value}
    (lawful : Lawful functions)
    (positive : 0 < base.buckets) (bound : base.buckets < 2 ^ 64)
    (roomy : ∀ bucket < base.buckets, shared.map.count bucket < 2 ^ 31)
    (fact : shared.Fact functions base)
    (assertion : shared.Assertion functions base thread
      ⟨.active frame stage, returned⟩)
    (moved : advanceStage functions thread shared frame stage =
      some (after, next)) :
    SoundAdd functions base thread shared after
      ⟨.active frame next, returned⟩ := by
  have detail : BucketDetail functions base frame shared.map shared.bindings
    stage := assertion.detail
  have inside : frame.first < base.buckets := by
    rw [detail.first]
    exact hashIndex_lt_buckets functions positive bound _ _
  cases stage with
  | locking =>
      rw [advanceStage] at moved
      split_ifs at moved with taken
      · cases moved
        exact ⟨fact, assertion, fun _ _ => .refl⟩
      · cases moved
        exact sound_lockBucket positive bound fact assertion
          (Bool.eq_false_iff.mpr taken)
  | loadFirst =>
      cases moved
      exact sound_load fact assertion ⟨rfl, rfl, rfl, rfl⟩
        ⟨detail.first, detail.holds, rfl⟩
  | loadCount entry =>
      cases moved
      refine sound_load fact assertion ⟨rfl, rfl, rfl, rfl⟩
        ⟨detail.first, detail.holds, ?_⟩
      have here : entry = shared.map.links.next (.head frame.first) :=
        detail.stage
      rw [here]
      exact searching_first (detail.holds rfl) (roomy _ inside)
  | searching entry count => exact sound_searching lawful fact assertion moved
  | poolLocking =>
      rw [advanceStage] at moved
      split_ifs at moved with taken
      · cases moved
        exact ⟨fact, assertion, fun _ _ => .refl⟩
      · cases moved
        exact sound_lockPool fact assertion (Bool.eq_false_iff.mpr taken)
  | testPool => exact sound_testPool positive fact assertion moved
  | expanding => exact sound_expanding fact assertion moved
  | resetIndex =>
      cases moved
      obtain ⟨absent, handed⟩ := detail.stage
      exact sound_setPool fact assertion ⟨rfl, rfl, rfl, rfl⟩ rfl
        ⟨detail.first, fun _ => (detail.holds rfl).congr
          (sameOn_of_eq rfl rfl rfl), absent, ⟨handed, Nat.zero_le _⟩,
          positive⟩
  | loadIndex =>
      cases moved
      obtain ⟨absent, pool, room⟩ := detail.stage
      exact sound_load fact assertion ⟨rfl, rfl, rfl, rfl⟩
        ⟨detail.first, detail.holds, absent, pool, room, rfl⟩
  | storeIndex entry =>
      cases moved
      exact sound_take lawful bound fact assertion
  | poolUnlocking entry =>
      cases moved
      obtain ⟨member, pool⟩ := detail.stage
      refine sound_unlockPool fact assertion
        ⟨detail.first, detail.holds, member, ?_⟩
      simp [AddFrame.initialisation, NodeStore.place, member]
  | initialising entry stores => exact sound_initialising fact assertion moved
  | linking entry stores => exact sound_linking fact assertion moved
  | storeCount entry count =>
      cases moved
      exact sound_setMap fact assertion ⟨rfl, rfl, rfl, rfl⟩ rfl
        ownChange_count ⟨detail.first, detail.holds, detail.stage.1⟩
  | addTotal entry => exact sound_addTotal fact assertion moved
  | resetting entry => exact sound_resetting fact assertion moved
  | unlocking result => cases moved

theorem sound_advance
    {after : AddShared Thread Key Value} {caller later : AddLocal Key Value}
    {choice : AddChoice Key Value}
    (lawful : Lawful functions)
    (positive : 0 < base.buckets) (bound : base.buckets < 2 ^ 64)
    (roomy : ∀ bucket < base.buckets, shared.map.count bucket < 2 ^ 31)
    (fact : shared.Fact functions base)
    (assertion : shared.Assertion functions base thread caller)
    (moved : advanceAdd functions thread shared caller choice =
      some (after, later)) :
    SoundAdd functions base thread shared after later := by
  obtain ⟨position, returned⟩ := caller
  rcases advanceAdd_cases moved with ⟨call, rfl, rfl, rfl⟩ |
    ⟨frame, result, rfl, rfl, rfl⟩ | ⟨frame, stage, next, rfl, advanced, rfl⟩
  · refine ⟨fact, ⟨assertion.buckets, assertion.pool, assertion.uncounted,
      assertion.decided, ?_, nofun, trivial⟩, fun _ _ => .refl⟩
    simp only [hashIndex, fact.buckets]
  · exact sound_unlockBucket fact assertion
  · exact sound_stage lawful positive bound roomy fact assertion advanced

end Soundness

/-! ## All runs -/

/-- No bucket counts more entries than an `int` can. -/
def CountsFit (state : AddState Thread Key Value)
    (_ : Thread × AddChoice Key Value) : Prop :=
  ∀ bucket < state.shared.map.buckets, state.shared.map.count bucket < 2 ^ 31

/-- The calls that have been made, in an order in which a finite map returns
what they return and becomes what the memory represents. -/
structure Explains [DecidableEq Thread] (functions : HashFunctions Key Value)
    (size : Nat) (state : AddState Thread Key Value)
    (history : List (Thread × MapCall Key Value × MapResult Value)) :
    Prop where
  results : (FiniteMap.run (policy functions size) []
      (history.map fun event => event.2.1)).1 =
    history.map fun event => event.2.2
  /-- For each thread these are its calls that have returned, and the one that
  it is in if that is decided. -/
  calls : ∀ thread, ∃ current,
    (history.filter fun event => event.1 = thread).map Prod.snd =
      (state.locals thread).returned ++ current ∧
    (current = [] ∨ ∃ frame stage result,
      (state.locals thread).position = .active frame stage ∧
        current = [(frame.call.toCall, result)])
  memory : (∀ thread, (state.locals thread).position = .idle) →
    Represents functions state.shared.map
      (FiniteMap.run (policy functions size) []
        (history.map fun event => event.2.1)).2

section Runs

variable [DecidableEq Thread] {functions : HashFunctions Key Value}
  {base : HashMap Key Value} {state final : AddState Thread Key Value}
  {labels : List (Thread × AddChoice Key Value)}

/-- The invariant of all interleavings. -/
abbrev AddInvariant (functions : HashFunctions Key Value)
    (base : HashMap Key Value) (state : AddState Thread Key Value) : Prop :=
  Interleaving.Invariant (AddShared.Fact functions base)
    (fun thread shared caller =>
      shared.Assertion functions base thread caller) state

theorem addInvariant_step
    (lawful : Lawful functions)
    (positive : 0 < base.buckets) (bound : base.buckets < 2 ^ 64)
    {label : Thread × AddChoice Key Value} {next : AddState Thread Key Value}
    (invariant : AddInvariant functions base state)
    (roomy : CountsFit state label)
    (stepped : addStep functions state label = some next) :
    AddInvariant functions base next := by
  apply Interleaving.Invariant.step addAssertion_stable invariant _ stepped
  intro shared caller moved
  refine sound_advance lawful positive bound (fun bucket inside => ?_)
    invariant.fact (invariant.assertion label.1) moved
  exact roomy bucket (by rw [invariant.fact.buckets]; exact inside)

theorem addInvariant_start
    (functions : HashFunctions Key Value) (memory : HashMap Key Value)
    {size : Nat} (positive : 0 < size) (bound : size < 2 ^ 64) :
    AddInvariant functions (initializeMap memory size)
      (addStart memory size : AddState Thread Key Value) := by
  have laid := laid_initializeMap functions memory positive bound
  refine ⟨⟨rfl, fun _ => rfl, rfl, rfl, fun bucket inside _ => ?_, fun _ => ?_,
    rfl, by simp [addStart, initializeMap]⟩, fun thread => ⟨fun bucket => ?_,
      ?_, ?_, rfl, trivial⟩⟩
  · refine ⟨laid.ring bucket inside, rfl, fun entry inside => ?_, Nat.zero_le _⟩
    cases inside
  · exact ⟨laid.pool, laid.entryindex⟩
  · constructor <;> intro impossible <;> cases impossible
  · constructor <;> intro impossible <;> cases impossible
  · simp [addStart, AddPosition.uncounted]

/-- The history explains every state in which the invariant holds. -/
theorem AddInvariant.explains
    {exponent : Nat} (fits : exponent < 64)
    (buckets : base.buckets = 2 ^ exponent)
    (invariant : AddInvariant functions base state) :
    Explains functions (2 ^ exponent) state state.shared.history := by
  have fact := invariant.fact
  have legal := fact.legal
  rw [buckets] at legal
  refine ⟨by rw [legal], fun thread => ?_, fun idle => ?_⟩
  · refine ⟨(state.locals thread).position.decided,
      (invariant.assertion thread).decided, ?_⟩
    generalize located : (state.locals thread).position = position
    cases position with
    | idle => exact .inl rfl
    | active frame stage =>
        cases stage <;> first | exact .inl rfl | exact .inr ⟨_, _, _, rfl, rfl⟩
  · have unowned : ∀ bucket, state.shared.bucketOwner bucket = none := by
      intro bucket
      by_contra owned
      obtain ⟨thread, owner⟩ := Option.ne_none_iff_exists'.mp owned
      have inside := ((invariant.assertion thread).buckets bucket).mp owner
      rw [idle thread] at inside
      cases inside
    have unpooled : state.shared.poolOwner = none := by
      by_contra owned
      obtain ⟨thread, owner⟩ := Option.ne_none_iff_exists'.mp owned
      have inside := (invariant.assertion thread).pool.mp owner
      rw [idle thread] at inside
      cases inside
    have counted : state.shared.uncounted = ∅ := by
      refine Finset.eq_empty_of_forall_notMem fun thread member => ?_
      have uncounted := (invariant.assertion thread).uncounted.mp member
      rw [idle thread] at uncounted
      cases uncounted
    have content : ∀ bucket, inBucket functions state.shared.map bucket
          state.shared.bindings =
        inBucket functions base bucket state.shared.bindings := by
      intro bucket
      unfold inBucket hashIndex
      rw [fact.buckets]
    have total := fact.total
    rw [counted, Finset.card_empty, Nat.add_zero,
      Nat.mod_eq_of_lt fact.totalEntry] at total
    have pool := fact.pool unpooled
    have holds : ∀ bucket < base.buckets, BucketHolds bucket
        (inBucket functions base bucket state.shared.bindings)
        state.shared.map :=
      fun bucket inside => fact.free bucket inside (unowned bucket)
    rw [legal]
    refine
      { buckets := ⟨exponent, fits, fact.buckets.trans buckets⟩
        ring := fun bucket inside => ?_
        count := fun bucket inside => ?_
        entries := fun binding member => ?_
        pool := by rw [fact.buckets]; exact pool.handed
        entryindex := by rw [fact.buckets]; exact pool.entryindex
        total := total }
    · rw [content]
      exact (holds bucket (fact.buckets ▸ inside)).ring
    · have held := holds bucket (fact.buckets ▸ inside)
      have few := held.few
      rw [content, held.count]
      omega
    · have positive : 0 < base.buckets := by
        rw [buckets]
        exact Nat.two_pow_pos exponent
      have bound : base.buckets < 2 ^ 64 := by
        rw [buckets]
        exact Nat.pow_lt_pow_right (by decide) fits
      have inside := hashIndex_lt_buckets functions positive bound
        binding.key.1 binding.key.2
      refine (holds _ inside).entries binding ?_
      rw [inBucket, List.mem_filter, decide_eq_true_eq]
      exact ⟨member, rfl⟩

/-- An access only adds to the history. -/
theorem history_advanceStage
    {thread : Thread} {shared after : AddShared Thread Key Value}
    {frame : AddFrame Key Value} {stage next : AddStage Key Value}
    (moved : advanceStage functions thread shared frame stage =
      some (after, next)) :
    shared.history <+: after.history := by
  cases stage with
  | locking =>
      rw [advanceStage] at moved
      split_ifs at moved <;>
        · cases moved
          exact List.prefix_rfl
  | searching entry count =>
      match entry, count with
      | entry, 0 =>
          cases moved
          exact List.prefix_rfl
      | .head bucket, count + 1 => cases moved
      | .entry entry, count + 1 =>
          rw [advanceStage] at moved
          split_ifs at moved
          · cases moved
            exact List.prefix_append ..
          · cases moved
            exact List.prefix_rfl
  | poolLocking =>
      rw [advanceStage] at moved
      split_ifs at moved <;>
        · cases moved
          exact List.prefix_rfl
  | storeIndex entry =>
      cases moved
      exact List.prefix_append ..
  | initialising entry stores =>
      cases stores <;>
        · cases moved
          exact List.prefix_rfl
  | linking entry stores =>
      cases stores <;>
        · cases moved
          exact List.prefix_rfl
  | unlocking result => cases moved
  | _ =>
      cases moved
      exact List.prefix_rfl

theorem history_addStep
    {label : Thread × AddChoice Key Value} {next : AddState Thread Key Value}
    (stepped : addStep functions state label = some next) :
    state.shared.history <+: next.shared.history := by
  obtain ⟨shared, caller, moved, rfl⟩ := Interleaving.step_eq_some stepped
  rcases advanceAdd_cases moved with ⟨call, -, rfl, -⟩ |
    ⟨frame, result, -, rfl, -⟩ | ⟨frame, stage, next, -, advanced, -⟩
  · exact List.prefix_rfl
  · exact List.prefix_rfl
  · exact history_advanceStage advanced

/-- Additions by any number of threads take effect one after the other: what has
been done so far is explained by a history that later steps only extend. -/
theorem explains_of_run
    (lawful : Lawful functions) (memory : HashMap Key Value)
    {exponent : Nat} (fits : exponent < 64)
    {before after : List (Thread × AddChoice Key Value)}
    {middle : AddState Thread Key Value}
    (roomy : Machine.Along (addStep functions) CountsFit
      (addStart memory (2 ^ exponent)) (before ++ after))
    (first : addRun functions (addStart memory (2 ^ exponent)) before =
      some middle)
    (second : addRun functions middle after = some final) :
    ∃ earlier later,
      Explains functions (2 ^ exponent) middle earlier ∧
        Explains functions (2 ^ exponent) final (earlier ++ later) := by
  have positive : 0 < 2 ^ exponent := Nat.two_pow_pos exponent
  have bound : 2 ^ exponent < 2 ^ 64 :=
    Nat.pow_lt_pow_right (by decide) fits
  obtain ⟨alongFirst, alongSecond⟩ := Machine.along_append roomy first
  have preserved : ∀ (state : AddState Thread Key Value) label next,
      AddInvariant functions (initializeMap memory (2 ^ exponent)) state →
      CountsFit state label → addStep functions state label = some next →
      AddInvariant functions (initializeMap memory (2 ^ exponent)) next :=
    fun _ _ _ invariant roomy stepped =>
      addInvariant_step lawful positive bound invariant roomy stepped
  have invariantMiddle := Machine.run_invariant preserved
    (addInvariant_start functions memory positive bound) alongFirst first
  have invariantFinal := Machine.run_invariant preserved invariantMiddle
    alongSecond second
  have added : ∀ (state : AddState Thread Key Value) label next,
      middle.shared.history <+: state.shared.history →
      addStep functions state label = some next →
      middle.shared.history <+: next.shared.history :=
    fun _ _ _ earlier stepped => earlier.trans (history_addStep stepped)
  obtain ⟨later, extended⟩ : middle.shared.history <+: final.shared.history :=
    Machine.run_invariant_of_step added List.prefix_rfl second
  refine ⟨middle.shared.history, later, invariantMiddle.explains fits rfl, ?_⟩
  rw [extended]
  exact invariantFinal.explains fits rfl

end Runs

/-- A call of `findOrAdd` for a key. -/
def addCall (key : Nat) : AddCall Nat Nat :=
  ⟨true, key, 8, 10 * key, by decide⟩

/-- Two threads add one key, and a third a key of another bucket.  The second
waits for the bucket of the first, and the third for the pool. -/
def crossingCalls : List (Nat × AddChoice Nat Nat) :=
  [(1, .call (addCall 0)), (1, .proceed), (2, .call (addCall 0)),
      (2, .proceed), (3, .call (addCall 1)), (3, .proceed)] ++
    List.replicate 6 (1, .proceed) ++ List.replicate 4 (3, .proceed)

/-- All of them return. -/
def finishingCalls : List (Nat × AddChoice Nat Nat) :=
  List.replicate 17 (1, .proceed) ++ List.replicate 5 (2, .proceed) ++
    List.replicate 20 (3, .proceed)

theorem explains_of_run_crossing :
    ∃ middle ∈ addRun sampleFunctions (addStart sampleMemory (2 ^ 1))
        crossingCalls,
      ∃ final ∈ addRun sampleFunctions middle finishingCalls,
        ∃ earlier later,
          Explains sampleFunctions (2 ^ 1) middle earlier ∧
            Explains sampleFunctions (2 ^ 1) final (earlier ++ later) := by
  have roomy : Machine.Along (addStep sampleFunctions) CountsFit
      (addStart sampleMemory (2 ^ 1)) (crossingCalls ++ finishingCalls) := by
    unfold CountsFit
    decide +kernel
  have reached : ∃ middle ∈ addRun sampleFunctions
        (addStart sampleMemory (2 ^ 1)) crossingCalls,
      (addRun sampleFunctions middle finishingCalls).isSome = true := by
    decide +kernel
  obtain ⟨middle, first, defined⟩ := reached
  obtain ⟨final, second⟩ := Option.isSome_iff_exists.mp defined
  exact ⟨middle, first, final, second, explains_of_run lawful_sampleFunctions
    sampleMemory (by decide) roomy first second⟩

end HashMap

end Causer
