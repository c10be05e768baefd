import Causer.HashMapThreads

/-!
# Who owns what in a hash map

A thread that has a bucket's lock owns the nodes of the bucket: while it changes
them, the assignments that its call has left would complete the ring, the count
and the new entry.  The thread that has the pool's lock alone adds bindings.
Nobody else changes what a thread knows of its bucket and of the pool.
-/

namespace Causer

namespace HashMap

open FiniteMap (Binding)

variable {Thread Key Value : Type}

/-- The nodes of a bucket. -/
def nodesOf (bucket : Nat) (content : List (MapBinding Key Value)) :
    List BucketNode :=
  .head bucket :: (content.map Binding.address).map .entry

/-- A bucket holds bindings, and not more than an `int` can count. -/
structure BucketHolds (bucket : Nat) (content : List (MapBinding Key Value))
    (map : HashMap Key Value) : Prop where
  ring : Ring.IsRing map.links (.head bucket)
    ((content.map Binding.address).map .entry)
  count : map.count bucket = content.length
  entries : HoldsEntries map content
  few : content.length ≤ 2 ^ 31

/-- Two maps do not differ on nodes and on the count of a bucket. -/
structure SameOn (nodes : List BucketNode) (bucket : Nat)
    (map other : HashMap Key Value) : Prop where
  next : ∀ node ∈ nodes, other.links.next node = map.links.next node
  prev : ∀ node ∈ nodes, other.links.prev node = map.links.prev node
  entries : ∀ entry, .entry entry ∈ nodes →
    other.entries entry = map.entries entry
  count : other.count bucket = map.count bucket

section Buckets

variable {bucket : Nat} {content : List (MapBinding Key Value)}
  {map other : HashMap Key Value} {nodes : List BucketNode}

theorem SameOn.refl : SameOn nodes bucket map map :=
  ⟨fun _ _ => rfl, fun _ _ => rfl, fun _ _ => rfl, rfl⟩

/-- What is not on nodes and not a count does not matter. -/
theorem sameOn_of_eq
    (links : other.links = map.links) (entries : other.entries = map.entries)
    (count : other.count = map.count) :
    SameOn nodes bucket map other :=
  ⟨fun _ _ => by rw [links], fun _ _ => by rw [links],
    fun _ _ => by rw [entries], by rw [count]⟩

theorem entry_mem_nodesOf
    {binding : MapBinding Key Value}
    (member : binding ∈ content) :
    .entry binding.address ∈ nodesOf bucket content :=
  List.mem_cons_of_mem _ (List.mem_map_of_mem (List.mem_map_of_mem member))

/-- What a bucket holds depends on its own nodes and its count only. -/
theorem BucketHolds.congr
    (holds : BucketHolds bucket content map)
    (same : SameOn (nodesOf bucket content) bucket map other) :
    BucketHolds bucket content other where
  ring := holds.ring.congr same.next same.prev
  count := same.count.trans holds.count
  entries := fun binding member =>
    (same.entries _ (entry_mem_nodesOf member)).trans
      (holds.entries binding member)
  few := holds.few

/-- An assignment keeps maps from differing. -/
theorem SameOn.perform
    (same : SameOn nodes bucket map other)
    (store : NodeStore Key Value) :
    SameOn nodes bucket (store.perform map) (store.perform other) := by
  cases store with
  | next node target =>
      refine ⟨fun place member => ?_, same.prev, same.entries, same.count⟩
      simp only [NodeStore.perform, Ring.setNext_next]
      rw [same.next place member]
  | prev node target =>
      refine ⟨same.next, fun place member => ?_, same.entries, same.count⟩
      simp only [NodeStore.perform, Ring.setPrev_prev]
      rw [same.prev place member]
  | _ entry stored =>
      refine ⟨same.next, same.prev, fun place member => ?_, same.count⟩
      by_cases here : place = entry
      · subst here
        simp [NodeStore.perform, same.entries place member]
      · simp [NodeStore.perform, here, same.entries place member]

theorem SameOn.performAll
    (same : SameOn nodes bucket map other)
    (stores : List (NodeStore Key Value)) :
    SameOn nodes bucket (NodeStore.performAll stores map)
      (NodeStore.performAll stores other) := by
  induction stores generalizing map other with
  | nil => exact same
  | cons store stores inductionHypothesis =>
      exact inductionHypothesis (same.perform store)

/-- An assignment to another node is not seen. -/
theorem sameOn_perform
    {store : NodeStore Key Value}
    (apart : store.place ∉ nodes) :
    SameOn nodes bucket map (store.perform map) := by
  have others : ∀ node ∈ nodes, node ≠ store.place :=
    fun node member same => apart (same ▸ member)
  cases store with
  | next node target =>
      refine ⟨fun place member => ?_, fun _ _ => rfl, fun _ _ => rfl, rfl⟩
      simp only [NodeStore.perform, Ring.setNext_next]
      exact if_neg (others place member)
  | prev node target =>
      refine ⟨fun _ _ => rfl, fun place member => ?_, fun _ _ => rfl, rfl⟩
      simp only [NodeStore.perform, Ring.setPrev_prev]
      exact if_neg (others place member)
  | _ entry stored =>
      refine ⟨fun _ _ => rfl, fun _ _ => rfl, fun place member => ?_, rfl⟩
      have different : place ≠ entry := fun same =>
        others _ member (congrArg BucketNode.entry same)
      simp [NodeStore.perform, different]

end Buckets

namespace AddFrame

variable (functions : HashFunctions Key Value) (frame : AddFrame Key Value)
  (entry : EntryAddress)

/-- From the assignment to the value on. -/
def resetUp (map : HashMap Key Value) : HashMap Key Value :=
  if frame.call.returnsEntry then
    { map with
      entries := Function.update map.entries entry
        { map.entries entry with
          value := functions.reset (map.entries entry).value } }
  else map

/-- From the increment of the count on. -/
def countUp (map : HashMap Key Value) : HashMap Key Value :=
  frame.resetUp functions entry
    { map with
      count := Function.update map.count frame.first
        (sizeIncrement (map.count frame.first)) }

/-- From the insertion on. -/
def linkUp (map : HashMap Key Value) : HashMap Key Value :=
  frame.countUp functions entry
    { map with
      links := Ring.insertTail map.links (.entry entry) (.head frame.first) }

/-- What the assignments that are left make of the nodes and the count of the
bucket. -/
def finish : AddStage Key Value → HashMap Key Value → HashMap Key Value
  | .poolUnlocking entry, map =>
      frame.linkUp functions entry
        (NodeStore.performAll (frame.initialisation entry) map)
  | .initialising entry stores, map =>
      frame.linkUp functions entry (NodeStore.performAll stores map)
  | .linking entry stores, map =>
      frame.countUp functions entry (NodeStore.performAll stores map)
  | .storeCount entry count, map =>
      frame.resetUp functions entry
        { map with count := Function.update map.count frame.first count }
  | .addTotal entry, map => frame.resetUp functions entry map
  | .resetting entry, map => frame.resetUp functions entry map
  | _, map => map

end AddFrame

section Finish

variable {functions : HashFunctions Key Value} {frame : AddFrame Key Value}
  {entry : EntryAddress} {bucket : Nat} {nodes : List BucketNode}
  {map other : HashMap Key Value}

theorem SameOn.resetUp
    (same : SameOn nodes bucket map other) :
    SameOn nodes bucket (frame.resetUp functions entry map)
      (frame.resetUp functions entry other) := by
  unfold AddFrame.resetUp
  split_ifs
  · refine ⟨same.next, same.prev, fun place member => ?_, same.count⟩
    by_cases here : place = entry
    · subst here
      simp [same.entries place member]
    · simp [here, same.entries place member]
  · exact same

theorem SameOn.countUp
    (same : SameOn nodes frame.first map other) :
    SameOn nodes frame.first (frame.countUp functions entry map)
      (frame.countUp functions entry other) := by
  refine SameOn.resetUp ⟨same.next, same.prev, same.entries, ?_⟩
  simp only [Function.update_self, same.count]

theorem SameOn.linkUp
    (same : SameOn nodes frame.first map other)
    (head : .head frame.first ∈ nodes) :
    SameOn nodes frame.first (frame.linkUp functions entry map)
      (frame.linkUp functions entry other) := by
  refine SameOn.countUp ⟨fun node member => ?_, fun node member => ?_,
    same.entries, same.count⟩
  · simp only [Ring.insertTail, Ring.insertBetween_next, same.prev _ head,
      same.next node member]
  · simp only [Ring.insertTail, Ring.insertBetween_prev, same.prev _ head,
      same.prev node member]

/-- What is left to do keeps maps from differing. -/
theorem SameOn.finish
    (same : SameOn nodes frame.first map other)
    (head : .head frame.first ∈ nodes)
    (stage : AddStage Key Value) :
    SameOn nodes frame.first (frame.finish functions stage map)
      (frame.finish functions stage other) := by
  cases stage with
  | poolUnlocking entry => exact (same.performAll _).linkUp head
  | initialising entry stores => exact (same.performAll stores).linkUp head
  | linking entry stores => exact (same.performAll stores).countUp
  | storeCount entry count =>
      refine SameOn.resetUp ⟨same.next, same.prev, same.entries, ?_⟩
      simp only [Function.update_self]
  | addTotal entry => exact same.resetUp
  | resetting entry => exact same.resetUp
  | _ => exact same

/-- Adding an entry that no node of the bucket uses. -/
theorem BucketHolds.add
    {content : List (MapBinding Key Value)}
    (holds : BucketHolds frame.first content map)
    (fresh : .entry entry ∉ nodesOf frame.first content)
    (few : content.length < 2 ^ 31) :
    BucketHolds frame.first
      (content ++ [frame.call.binding functions entry])
      (frame.finish functions (.poolUnlocking entry) map) := by
  have links : (frame.finish functions (.poolUnlocking entry) map).links =
      Ring.insertTail (Ring.nodeInit map.links (.entry entry)) (.entry entry)
        (.head frame.first) := by
    simp only [AddFrame.finish, AddFrame.linkUp, AddFrame.countUp,
      AddFrame.resetUp]
    split_ifs <;> rfl
  have count : (frame.finish functions (.poolUnlocking entry) map).count
      frame.first = sizeIncrement (map.count frame.first) := by
    simp only [AddFrame.finish, AddFrame.linkUp, AddFrame.countUp,
      AddFrame.resetUp]
    split_ifs <;> exact Function.update_self ..
  constructor
  · rw [links, List.map_append, List.map_append]
    exact (holds.ring.nodeInit fresh).insertTail fresh
  · rw [count, holds.count, sizeIncrement, List.length_append,
      List.length_singleton]
    omega
  · intro binding member
    rcases List.mem_append.mp member with old | new
    · have different : binding.address ≠ entry := by
        rintro rfl
        exact fresh (entry_mem_nodesOf old)
      rw [← holds.entries binding old]
      simp only [AddFrame.finish, AddFrame.linkUp, AddFrame.countUp,
        AddFrame.resetUp]
      split_ifs <;>
        simp [NodeStore.performAll, NodeStore.perform,
          AddFrame.initialisation, different]
    · obtain rfl := List.mem_singleton.mp new
      simp only [AddFrame.finish, AddFrame.linkUp, AddFrame.countUp,
        AddFrame.resetUp]
      split_ifs <;>
        simp [NodeStore.performAll, NodeStore.perform, AddCall.binding,
          AddFrame.initialisation, sizeThroughInt_of_lt frame.call.short, *]
  · rw [List.length_append, List.length_singleton]
    exact few

end Finish

section Details

variable (functions : HashFunctions Key Value) (base : HashMap Key Value)

/-- The nodes of a bucket that holds some of the bindings. -/
def ownNodes (bindings : List (MapBinding Key Value)) (bucket : Nat) :
    List BucketNode :=
  nodesOf bucket (inBucket functions base bucket bindings)

/-- The pool has handed out a number of entries. -/
structure PoolHolds (number : Nat) (map : HashMap Key Value) : Prop where
  handed : map.allentries * base.buckets + map.entryindex = number
  entryindex : map.entryindex ≤ base.buckets

variable (frame : AddFrame Key Value)

/-- No binding in the bucket of a call has its key. -/
structure Absent (bindings : List (MapBinding Key Value)) : Prop where
  few : (inBucket functions base frame.first bindings).length < 2 ^ 31
  different : ∀ binding ∈ inBucket functions base frame.first bindings,
    (policy functions base.buckets).same binding.key
      (frame.call.key, frame.call.keylen) = false

/-- The search has come to an entry, or back to the head. -/
def Searching (bindings : List (MapBinding Key Value)) (entry : BucketNode)
    (count : Nat) : Prop :=
  (inBucket functions base frame.first bindings).length < 2 ^ 31 ∧
  ∃ before after,
    inBucket functions base frame.first bindings = before ++ after ∧
    (∀ binding ∈ before, (policy functions base.buckets).same binding.key
      (frame.call.key, frame.call.keylen) = false) ∧
    count = after.length ∧
    entry = ((after.map Binding.address).map BucketNode.entry).headD
      (.head frame.first)

variable (map : HashMap Key Value) (bindings : List (MapBinding Key Value))

/-- What has been found out at a stage. -/
def StageDetail : AddStage Key Value → Prop
  | .loadCount entry => entry = map.links.next (.head frame.first)
  | .searching entry count =>
      Searching functions base frame bindings entry count
  | .poolLocking => Absent functions base frame bindings
  | .testPool =>
      Absent functions base frame bindings ∧
        PoolHolds base bindings.length map
  | .expanding =>
      Absent functions base frame bindings ∧
        PoolHolds base bindings.length map ∧ map.entryindex = base.buckets
  | .resetIndex =>
      Absent functions base frame bindings ∧
        map.allentries * base.buckets = bindings.length
  | .loadIndex =>
      Absent functions base frame bindings ∧
        PoolHolds base bindings.length map ∧ map.entryindex < base.buckets
  | .storeIndex entry =>
      Absent functions base frame bindings ∧
        PoolHolds base bindings.length map ∧ map.entryindex < base.buckets ∧
        entry = ⟨map.allentries, map.entryindex⟩
  | .poolUnlocking entry =>
      .entry entry ∈ ownNodes functions base bindings frame.first ∧
        PoolHolds base bindings.length map
  | .initialising entry stores =>
      .entry entry ∈ ownNodes functions base bindings frame.first ∧
        ∀ store ∈ stores,
          store.place ∈ ownNodes functions base bindings frame.first
  | .linking entry stores =>
      .entry entry ∈ ownNodes functions base bindings frame.first ∧
        ∀ store ∈ stores,
          store.place ∈ ownNodes functions base bindings frame.first
  | .storeCount entry count =>
      .entry entry ∈ ownNodes functions base bindings frame.first ∧
        count = sizeIncrement (map.count frame.first)
  | .addTotal entry =>
      .entry entry ∈ ownNodes functions base bindings frame.first
  | .resetting entry =>
      frame.call.returnsEntry = true ∧
        .entry entry ∈ ownNodes functions base bindings frame.first
  | _ => True

/-- What a thread knows of its bucket. -/
structure BucketDetail (stage : AddStage Key Value) : Prop where
  first : frame.first =
    hashIndex functions base frame.call.key frame.call.keylen
  /-- The assignments that are left complete the bucket. -/
  holds : stage.holdsBucket = true →
    BucketHolds frame.first (inBucket functions base frame.first bindings)
      (frame.finish functions stage map)
  stage : StageDetail functions base frame map bindings stage

end Details

namespace AddShared

variable (functions : HashFunctions Key Value) (base : HashMap Key Value)
  (shared : AddShared Thread Key Value)

/-- What a thread's calls have been decided to return. -/
def decidedFor [DecidableEq Thread] (thread : Thread) :
    List (MapCall Key Value × MapResult Value) :=
  (shared.history.filter fun event => event.1 = thread).map Prod.snd

/-- The facts that hold between all steps. -/
structure Fact : Prop where
  buckets : shared.map.buckets = base.buckets
  bucketLock : ∀ bucket,
    shared.bucketLock bucket = (shared.bucketOwner bucket).isSome
  entrylock : shared.entrylock = shared.poolOwner.isSome
  /-- The decided calls return what they return on a finite map. -/
  legal : FiniteMap.run (policy functions base.buckets) []
      (shared.history.map fun event => event.2.1) =
    (shared.history.map fun event => event.2.2, shared.bindings)
  free : ∀ bucket < base.buckets, shared.bucketOwner bucket = none →
    BucketHolds bucket (inBucket functions base bucket shared.bindings) shared.map
  pool : shared.poolOwner = none → PoolHolds base shared.bindings.length shared.map
  total : (shared.map.totalEntry + shared.uncounted.card) % 2 ^ 64 =
    shared.bindings.length % 2 ^ 64
  totalEntry : shared.map.totalEntry < 2 ^ 64

def Detail : AddPosition Key Value → Prop
  | .idle => True
  | .active frame stage => BucketDetail functions base frame shared.map shared.bindings stage

/-- What a thread knows between its steps. -/
structure Assertion [DecidableEq Thread] (thread : Thread)
    (caller : AddLocal Key Value) : Prop where
  buckets : ∀ bucket, shared.bucketOwner bucket = some thread ↔
    caller.position.bucket = some bucket
  pool : shared.poolOwner = some thread ↔ caller.position.holdsPool = true
  uncounted : thread ∈ shared.uncounted ↔ caller.position.uncounted = true
  decided : shared.decidedFor thread =
    caller.returned ++ caller.position.decided
  detail : shared.Detail functions base caller.position

end AddShared

/-- What a thread relies on. -/
structure AddRely [DecidableEq Thread] (functions : HashFunctions Key Value)
    (base : HashMap Key Value) (thread : Thread)
    (before after : AddShared Thread Key Value) : Prop where
  buckets : ∀ bucket, before.bucketOwner bucket = some thread ↔
    after.bucketOwner bucket = some thread
  poolOwner : before.poolOwner = some thread ↔ after.poolOwner = some thread
  uncounted : thread ∈ before.uncounted ↔ thread ∈ after.uncounted
  decided : after.decidedFor thread = before.decidedFor thread
  content : ∀ bucket, before.bucketOwner bucket = some thread →
    inBucket functions base bucket after.bindings = inBucket functions base bucket before.bindings
  same : ∀ bucket, before.bucketOwner bucket = some thread →
    SameOn (ownNodes functions base before.bindings bucket) bucket before.map after.map
  pool : before.poolOwner = some thread →
    after.map.allentries = before.map.allentries ∧
      after.map.entryindex = before.map.entryindex ∧
      after.bindings.length = before.bindings.length

section Stability

variable [DecidableEq Thread] {functions : HashFunctions Key Value}
  {base : HashMap Key Value}
  {before after : AddShared Thread Key Value}

theorem AddRely.refl {thread : Thread} {shared : AddShared Thread Key Value} :
    AddRely functions base thread shared shared :=
  ⟨fun _ => Iff.rfl, Iff.rfl, Iff.rfl, rfl, fun _ _ => rfl,
    fun _ _ => .refl, fun _ => ⟨rfl, rfl, rfl⟩⟩

omit [DecidableEq Thread] in
theorem PoolHolds.congr
    (holds : PoolHolds base before.bindings.length before.map)
    (same : after.map.allentries = before.map.allentries ∧
      after.map.entryindex = before.map.entryindex ∧
      after.bindings.length = before.bindings.length) :
    PoolHolds base after.bindings.length after.map := by
  obtain ⟨allentries, entryindex, length⟩ := same
  constructor
  · rw [allentries, entryindex, length]
    exact holds.handed
  · rw [entryindex]
    exact holds.entryindex

omit [DecidableEq Thread] in
/-- What has been found out at a stage is not changed by the others. -/
theorem stageDetail_stable
    {frame : AddFrame Key Value} {stage : AddStage Key Value}
    (content : inBucket functions base frame.first after.bindings =
      inBucket functions base frame.first before.bindings)
    (same : SameOn (ownNodes functions base before.bindings frame.first) frame.first
      before.map after.map)
    (pool : stage.holdsPool = true →
      after.map.allentries = before.map.allentries ∧
        after.map.entryindex = before.map.entryindex ∧
        after.bindings.length = before.bindings.length)
    (detail : StageDetail functions base frame before.map before.bindings stage) :
    StageDetail functions base frame after.map after.bindings stage := by
  have nodes : ownNodes functions base after.bindings frame.first =
      ownNodes functions base before.bindings frame.first := by
    rw [ownNodes, content, ownNodes]
  have absent : Absent functions base frame before.bindings →
      Absent functions base frame after.bindings := by
    rintro ⟨few, different⟩
    exact ⟨by rw [content]; exact few, by rw [content]; exact different⟩
  have head : BucketNode.head frame.first ∈
      ownNodes functions base before.bindings frame.first := List.mem_cons_self
  cases stage with
  | loadCount entry => exact detail.trans (same.next _ head).symm
  | searching entry count =>
      simp only [StageDetail, Searching, content] at detail ⊢
      exact detail
  | poolLocking => exact absent detail
  | testPool => exact ⟨absent detail.1, PoolHolds.congr detail.2 (pool rfl)⟩
  | expanding =>
      exact ⟨absent detail.1, PoolHolds.congr detail.2.1 (pool rfl),
        (pool rfl).2.1.trans detail.2.2⟩
  | resetIndex =>
      obtain ⟨allentries, -, length⟩ := pool rfl
      refine ⟨absent detail.1, ?_⟩
      rw [allentries, length]
      exact detail.2
  | loadIndex =>
      refine ⟨absent detail.1, PoolHolds.congr detail.2.1 (pool rfl), ?_⟩
      rw [(pool rfl).2.1]
      exact detail.2.2
  | storeIndex entry =>
      refine ⟨absent detail.1, PoolHolds.congr detail.2.1 (pool rfl), ?_⟩
      rw [(pool rfl).2.1, (pool rfl).1]
      exact detail.2.2
  | poolUnlocking entry =>
      exact ⟨nodes ▸ detail.1, PoolHolds.congr detail.2 (pool rfl)⟩
  | initialising entry stores =>
      simp only [StageDetail, nodes]
      exact detail
  | linking entry stores =>
      simp only [StageDetail, nodes]
      exact detail
  | storeCount entry count =>
      refine ⟨nodes ▸ detail.1, ?_⟩
      rw [same.count]
      exact detail.2
  | addTotal entry =>
      simp only [StageDetail, nodes]
      exact detail
  | resetting entry =>
      simp only [StageDetail, nodes]
      exact detail
  | _ => trivial

/-- The others do not change what a thread knows. -/
theorem addAssertion_stable
    (thread : Thread) (before after : AddShared Thread Key Value)
    (caller : AddLocal Key Value)
    (assertion : before.Assertion functions base thread caller)
    (rely : AddRely functions base thread before after) :
    after.Assertion functions base thread caller := by
  refine ⟨fun bucket => (rely.buckets bucket).symm.trans
      (assertion.buckets bucket), rely.poolOwner.symm.trans assertion.pool,
    rely.uncounted.symm.trans assertion.uncounted,
    rely.decided.trans assertion.decided, ?_⟩
  obtain ⟨position, returned⟩ := caller
  cases position with
  | idle => trivial
  | active frame stage =>
      have detail : BucketDetail functions base frame before.map
          before.bindings stage :=
        assertion.detail
      by_cases inside : stage.holdsBucket = true
      · have owned : before.bucketOwner frame.first = some thread :=
          (assertion.buckets frame.first).mpr (if_pos inside)
        refine ⟨detail.first, fun _ => ?_, stageDetail_stable
          (rely.content _ owned) (rely.same _ owned) (fun holdsPool =>
            rely.pool (assertion.pool.mpr holdsPool)) detail.stage⟩
        rw [rely.content _ owned]
        exact (detail.holds inside).congr
          ((rely.same _ owned).finish List.mem_cons_self stage)
      · refine ⟨detail.first, fun holds => absurd holds inside, ?_⟩
        cases stage with
        | locking => trivial
        | _ => exact absurd rfl inside

end Stability

end HashMap

end Causer
