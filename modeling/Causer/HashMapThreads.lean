import Causer.HashMapCalls
import Causer.Library.Interleaving
import Mathlib.Data.Finset.Card

/-!
# Threads that add to one hash map

`findOrAdd` and `insertIfAbsent` search a bucket and add to it under the lock of
the bucket, and take the new entry from the pool under a lock of its own.  The
total is counted without a lock.  Here any number of threads make these calls
access by access.  What callers store through the pointers they get is not part
of the map.
-/

namespace Causer

namespace HashMap

open FiniteMap (Binding)

variable {Thread Key Value : Type}

/-- A call that adds a key unless it is there. -/
structure AddCall (Key Value : Type) where
  /-- `findOrAdd`, or else `insertIfAbsent`. -/
  returnsEntry : Bool
  key : Key
  keylen : Nat
  value : Value
  /-- The length survives the `int` that `Entry::initialize` takes. -/
  short : keylen < 2 ^ 31

/-- The call on a finite map. -/
def AddCall.toCall (call : AddCall Key Value) : MapCall Key Value :=
  if call.returnsEntry then .findOrAdd (call.key, call.keylen) call.value
  else .insertIfAbsent (call.key, call.keylen) call.value

/-- What a call returns for an entry that it has found or added. -/
def AddCall.result (call : AddCall Key Value) (isFound : Bool)
    (entry : EntryAddress) : MapResult Value :=
  if call.returnsEntry then .entry entry else .present isFound

/-- The binding of a call's key at an entry that is added for it. -/
def AddCall.binding (functions : HashFunctions Key Value)
    (call : AddCall Key Value) (entry : EntryAddress) :
    MapBinding Key Value :=
  ⟨(call.key, call.keylen), entry,
    if call.returnsEntry then functions.reset call.value else call.value⟩

/-- An assignment to a field of a list node or of an entry. -/
inductive NodeStore (Key Value : Type)
  | next (node target : BucketNode)
  | prev (node target : BucketNode)
  | key (entry : EntryAddress) (key : Key)
  | keylen (entry : EntryAddress) (keylen : Nat)
  | value (entry : EntryAddress) (value : Value)

namespace NodeStore

def perform : NodeStore Key Value → HashMap Key Value → HashMap Key Value
  | .next node target, map =>
      { map with links := map.links.setNext node target }
  | .prev node target, map =>
      { map with links := map.links.setPrev node target }
  | .key entry stored, map =>
      { map with
        entries := Function.update map.entries entry
          { map.entries entry with key := stored } }
  | .keylen entry stored, map =>
      { map with
        entries := Function.update map.entries entry
          { map.entries entry with keylen := stored } }
  | .value entry stored, map =>
      { map with
        entries := Function.update map.entries entry
          { map.entries entry with value := stored } }

/-- The node or the entry that is written. -/
def place : NodeStore Key Value → BucketNode
  | .next node _ => node
  | .prev node _ => node
  | .key entry _ => .entry entry
  | .keylen entry _ => .entry entry
  | .value entry _ => .entry entry

def performAll (stores : List (NodeStore Key Value))
    (map : HashMap Key Value) : HashMap Key Value :=
  stores.foldl (fun map store => store.perform map) map

end NodeStore

/-- The call that a thread is in, and the bucket of its key. -/
structure AddFrame (Key Value : Type) where
  call : AddCall Key Value
  first : Nat

namespace AddFrame

variable (frame : AddFrame Key Value) (entry : EntryAddress)

/-- `Entry::initialize`. -/
def initialisation : List (NodeStore Key Value) :=
  [.prev (.entry entry) (.entry entry), .next (.entry entry) (.entry entry),
    .key entry frame.call.key,
    .keylen entry (sizeThroughInt frame.call.keylen),
    .value entry frame.call.value]

/-- `__insert_between`, for the node that is the last before. -/
def insertBetween (tail : BucketNode) : List (NodeStore Key Value) :=
  [.next (.entry entry) (.head frame.first), .prev (.entry entry) tail,
    .next tail (.entry entry), .prev (.head frame.first) (.entry entry)]

end AddFrame

/-- The next access of a call, with what has been loaded. -/
inductive AddStage (Key Value : Type)
  | locking
  | loadFirst
  | loadCount (entry : BucketNode)
  /-- The loop of `getEntry`. -/
  | searching (entry : BucketNode) (count : Nat)
  | poolLocking
  | testPool
  /-- The two assignments of `expendMapping`. -/
  | expanding
  | resetIndex
  | loadIndex
  | storeIndex (entry : EntryAddress)
  | poolUnlocking (entry : EntryAddress)
  | initialising (entry : EntryAddress) (stores : List (NodeStore Key Value))
  | linking (entry : EntryAddress) (stores : List (NodeStore Key Value))
  | storeCount (entry : EntryAddress) (count : Nat)
  | addTotal (entry : EntryAddress)
  /-- What `findOrAdd` assigns to the value. -/
  | resetting (entry : EntryAddress)
  | unlocking (result : MapResult Value)

namespace AddStage

def holdsBucket : AddStage Key Value → Bool
  | .locking => false
  | _ => true

def holdsPool : AddStage Key Value → Bool
  | .testPool => true
  | .expanding => true
  | .resetIndex => true
  | .loadIndex => true
  | .storeIndex _ => true
  | .poolUnlocking _ => true
  | _ => false

/-- An entry has been taken from the pool and not been counted. -/
def uncounted : AddStage Key Value → Bool
  | .poolUnlocking _ => true
  | .initialising _ _ => true
  | .linking _ _ => true
  | .storeCount _ _ => true
  | .addTotal _ => true
  | _ => false

end AddStage

/-- Where a thread is. -/
inductive AddPosition (Key Value : Type)
  | idle
  | active (frame : AddFrame Key Value) (stage : AddStage Key Value)

namespace AddPosition

/-- The bucket whose lock the thread holds. -/
def bucket : AddPosition Key Value → Option Nat
  | .idle => none
  | .active frame stage => if stage.holdsBucket then some frame.first else none

def holdsPool : AddPosition Key Value → Bool
  | .idle => false
  | .active _ stage => stage.holdsPool

def uncounted : AddPosition Key Value → Bool
  | .idle => false
  | .active _ stage => stage.uncounted

/-- What the call that the thread is in returns, once that is decided. -/
def decided : AddPosition Key Value →
    List (MapCall Key Value × MapResult Value)
  | .active frame (.poolUnlocking entry) =>
      [(frame.call.toCall, frame.call.result false entry)]
  | .active frame (.initialising entry _) =>
      [(frame.call.toCall, frame.call.result false entry)]
  | .active frame (.linking entry _) =>
      [(frame.call.toCall, frame.call.result false entry)]
  | .active frame (.storeCount entry _) =>
      [(frame.call.toCall, frame.call.result false entry)]
  | .active frame (.addTotal entry) =>
      [(frame.call.toCall, frame.call.result false entry)]
  | .active frame (.resetting entry) =>
      [(frame.call.toCall, frame.call.result false entry)]
  | .active frame (.unlocking result) => [(frame.call.toCall, result)]
  | _ => []

end AddPosition

/-- A thread, with the calls that have returned and what they returned. -/
structure AddLocal (Key Value : Type) where
  position : AddPosition Key Value
  returned : List (MapCall Key Value × MapResult Value)

/-- What the threads share. -/
structure AddShared (Thread Key Value : Type) where
  map : HashMap Key Value
  bucketLock : Nat → Bool
  /-- `entrylock`. -/
  entrylock : Bool
  /-- Not in memory: who has taken the lock of a bucket last and not given it
  back. -/
  bucketOwner : Nat → Option Thread
  /-- Not in memory: the same for the lock of the pool. -/
  poolOwner : Option Thread
  /-- Not in memory: the finite map. -/
  bindings : List (MapBinding Key Value)
  /-- Not in memory: the calls in the order in which they were decided, with what
  they return. -/
  history : List (Thread × MapCall Key Value × MapResult Value)
  /-- Not in memory: who has taken an entry and not counted it. -/
  uncounted : Finset Thread

/-- What a thread does next: it begins a call, or goes on with one. -/
inductive AddChoice (Key Value : Type)
  | call (call : AddCall Key Value)
  | proceed

namespace AddShared

variable (shared : AddShared Thread Key Value)

def setMap (map : HashMap Key Value) : AddShared Thread Key Value :=
  { shared with map := map }

def lockBucket (thread : Thread) (bucket : Nat) :
    AddShared Thread Key Value :=
  { shared with
    bucketLock := Function.update shared.bucketLock bucket true
    bucketOwner := Function.update shared.bucketOwner bucket (some thread) }

def unlockBucket (bucket : Nat) : AddShared Thread Key Value :=
  { shared with
    bucketLock := Function.update shared.bucketLock bucket false
    bucketOwner := Function.update shared.bucketOwner bucket none }

def lockPool (thread : Thread) : AddShared Thread Key Value :=
  { shared with entrylock := true, poolOwner := some thread }

def unlockPool : AddShared Thread Key Value :=
  { shared with entrylock := false, poolOwner := none }

/-- A call has found its key. -/
def decide (thread : Thread) (call : AddCall Key Value)
    (entry : EntryAddress) : AddShared Thread Key Value :=
  { shared with
    history := shared.history ++
      [(thread, call.toCall, call.result true entry)] }

/-- The index of the pool is incremented: the entry belongs to the key now. -/
def take [DecidableEq Thread] (functions : HashFunctions Key Value)
    (thread : Thread) (call : AddCall Key Value) (entry : EntryAddress) :
    AddShared Thread Key Value :=
  { shared with
    map :=
      { shared.map with
        entryindex := sizeIncrement shared.map.entryindex }
    bindings := shared.bindings ++ [call.binding functions entry]
    history := shared.history ++
      [(thread, call.toCall, call.result false entry)]
    uncounted := {thread} ∪ shared.uncounted }

/-- The total is incremented. -/
def count [DecidableEq Thread] (thread : Thread) :
    AddShared Thread Key Value :=
  { shared with
    map :=
      { shared.map with
        totalEntry := sizeIncrement shared.map.totalEntry }
    uncounted := shared.uncounted.erase thread }

@[simp] theorem setMap_map (map : HashMap Key Value) :
    (shared.setMap map).map = map :=
  rfl

@[simp] theorem setMap_bindings (map : HashMap Key Value) :
    (shared.setMap map).bindings = shared.bindings :=
  rfl

section

variable (thread : Thread) (bucket : Nat)

@[simp] theorem lockBucket_bucketLock :
    (shared.lockBucket thread bucket).bucketLock =
      Function.update shared.bucketLock bucket true :=
  rfl

@[simp] theorem lockBucket_bucketOwner :
    (shared.lockBucket thread bucket).bucketOwner =
      Function.update shared.bucketOwner bucket (some thread) :=
  rfl

@[simp] theorem unlockBucket_bucketLock :
    (shared.unlockBucket bucket).bucketLock =
      Function.update shared.bucketLock bucket false :=
  rfl

@[simp] theorem unlockBucket_bucketOwner :
    (shared.unlockBucket bucket).bucketOwner =
      Function.update shared.bucketOwner bucket none :=
  rfl

@[simp] theorem lockPool_poolOwner :
    (shared.lockPool thread).poolOwner = some thread :=
  rfl

@[simp] theorem unlockPool_poolOwner : shared.unlockPool.poolOwner = none :=
  rfl

end

section

variable [DecidableEq Thread] (functions : HashFunctions Key Value)
  (thread : Thread) (call : AddCall Key Value) (entry : EntryAddress)

@[simp] theorem take_entryindex :
    (shared.take functions thread call entry).map.entryindex =
      sizeIncrement shared.map.entryindex :=
  rfl

@[simp] theorem take_allentries :
    (shared.take functions thread call entry).map.allentries =
      shared.map.allentries :=
  rfl

@[simp] theorem take_totalEntry :
    (shared.take functions thread call entry).map.totalEntry =
      shared.map.totalEntry :=
  rfl

@[simp] theorem take_bindings :
    (shared.take functions thread call entry).bindings =
      shared.bindings ++ [call.binding functions entry] :=
  rfl

@[simp] theorem take_uncounted :
    (shared.take functions thread call entry).uncounted =
      {thread} ∪ shared.uncounted :=
  rfl

@[simp] theorem count_bindings :
    (shared.count thread).bindings = shared.bindings :=
  rfl

@[simp] theorem count_totalEntry :
    (shared.count thread).map.totalEntry =
      sizeIncrement shared.map.totalEntry :=
  rfl

@[simp] theorem count_uncounted :
    (shared.count thread).uncounted = shared.uncounted.erase thread :=
  rfl

end

end AddShared

variable [DecidableEq Thread] (functions : HashFunctions Key Value)

/-- One access of a call. -/
def advanceStage (thread : Thread) (shared : AddShared Thread Key Value)
    (frame : AddFrame Key Value) :
    AddStage Key Value →
      Option (AddShared Thread Key Value × AddStage Key Value)
  | .locking =>
      if shared.bucketLock frame.first then some (shared, .locking)
      else some (shared.lockBucket thread frame.first, .loadFirst)
  | .loadFirst =>
      some (shared, .loadCount (shared.map.links.next (.head frame.first)))
  | .loadCount entry =>
      some (shared, .searching entry
        (BitVec.ofNat 32 (shared.map.count frame.first)).toInt.toNat)
  | .searching _ 0 => some (shared, .poolLocking)
  | .searching (.head _) (_ + 1) => none
  | .searching (.entry entry) (count + 1) =>
      if matchesKey functions shared.map frame.call.key frame.call.keylen
        entry then
        some (shared.decide thread frame.call entry,
          .unlocking (frame.call.result true entry))
      else
        some (shared,
          .searching (shared.map.links.next (.entry entry)) count)
  | .poolLocking =>
      if shared.entrylock then some (shared, .poolLocking)
      else some (shared.lockPool thread, .testPool)
  | .testPool =>
      some (shared,
        if shared.map.entryindex > shared.map.buckets - 1 then .expanding
        else .loadIndex)
  | .expanding =>
      some (shared.setMap
        { shared.map with allentries := shared.map.allentries + 1 },
        .resetIndex)
  | .resetIndex =>
      some (shared.setMap { shared.map with entryindex := 0 }, .loadIndex)
  | .loadIndex =>
      some (shared,
        .storeIndex ⟨shared.map.allentries, shared.map.entryindex⟩)
  | .storeIndex entry =>
      some (shared.take functions thread frame.call entry,
        .poolUnlocking entry)
  | .poolUnlocking entry =>
      some (shared.unlockPool, .initialising entry (frame.initialisation entry))
  | .initialising entry (store :: stores) =>
      some (shared.setMap (store.perform shared.map),
        .initialising entry stores)
  | .initialising entry [] =>
      some (shared, .linking entry
        (frame.insertBetween entry (shared.map.links.prev (.head frame.first))))
  | .linking entry (store :: stores) =>
      some (shared.setMap (store.perform shared.map), .linking entry stores)
  | .linking entry [] =>
      some (shared, .storeCount entry
        (sizeIncrement (shared.map.count frame.first)))
  | .storeCount entry count =>
      some (shared.setMap
        { shared.map with
          count := Function.update shared.map.count frame.first count },
        .addTotal entry)
  | .addTotal entry =>
      some (shared.count thread,
        if frame.call.returnsEntry then .resetting entry
        else .unlocking (frame.call.result false entry))
  | .resetting entry =>
      some (shared.setMap
        { shared.map with
          entries := Function.update shared.map.entries entry
            { shared.map.entries entry with
              value := functions.reset (shared.map.entries entry).value } },
        .unlocking (frame.call.result false entry))
  | .unlocking _ => none

/-- One step of a thread. -/
def advanceAdd (thread : Thread) (shared : AddShared Thread Key Value)
    (caller : AddLocal Key Value) :
    AddChoice Key Value →
      Option (AddShared Thread Key Value × AddLocal Key Value)
  | .call call =>
      match caller.position with
      | .idle =>
          (shared.map.getHashEntry
            (hashIndex functions shared.map call.key call.keylen)).map
            fun first =>
              (shared,
                { caller with position := .active ⟨call, first⟩ .locking })
      | .active _ _ => none
  | .proceed =>
      match caller.position with
      | .idle => none
      | .active frame (.unlocking result) =>
          some (shared.unlockBucket frame.first,
            { position := .idle
              returned := caller.returned ++ [(frame.call.toCall, result)] })
      | .active frame stage =>
          (advanceStage functions thread shared frame stage).map
            fun (shared, stage) =>
              (shared, { caller with position := .active frame stage })

/-- What a step of a thread can be: it begins a call, returns from one, or makes
an access of it. -/
theorem advanceAdd_cases
    {functions : HashFunctions Key Value} {thread : Thread}
    {shared after : AddShared Thread Key Value}
    {caller later : AddLocal Key Value} {choice : AddChoice Key Value}
    (moved : advanceAdd functions thread shared caller choice =
      some (after, later)) :
    (∃ call, caller.position = .idle ∧ after = shared ∧
      later =
        { caller with
          position := .active
            ⟨call, hashIndex functions shared.map call.key call.keylen⟩
            .locking }) ∨
    (∃ frame result, caller.position = .active frame (.unlocking result) ∧
      after = shared.unlockBucket frame.first ∧
      later =
        { position := .idle
          returned := caller.returned ++ [(frame.call.toCall, result)] }) ∨
    ∃ frame stage next, caller.position = .active frame stage ∧
      advanceStage functions thread shared frame stage = some (after, next) ∧
      later = { caller with position := .active frame next } := by
  obtain ⟨position, returned⟩ := caller
  cases position with
  | idle =>
      cases choice with
      | proceed => cases moved
      | call call =>
          obtain ⟨first, found, returns⟩ := Option.map_eq_some_iff.mp moved
          cases returns
          obtain rfl :=
            Option.some.inj (Option.ite_none_right_eq_some.mp found).2
          exact .inl ⟨call, rfl, rfl, rfl⟩
  | active frame stage =>
      cases choice with
      | call call => cases moved
      | proceed =>
          by_cases ends : ∃ result, stage = .unlocking result
          · obtain ⟨result, rfl⟩ := ends
            cases moved
            exact .inr (.inl ⟨frame, result, rfl, rfl, rfl⟩)
          · have access : (advanceStage functions thread shared frame stage).map
                (fun moved => (moved.1,
                  (⟨.active frame moved.2, returned⟩ : AddLocal Key Value))) =
                some (after, later) := by
              cases stage with
              | unlocking result => exact absurd ⟨result, rfl⟩ ends
              | _ => exact moved
            obtain ⟨⟨shared', next⟩, advanced, returns⟩ :=
              Option.map_eq_some_iff.mp access
            cases returns
            exact .inr (.inr ⟨frame, stage, next, rfl, advanced, rfl⟩)

abbrev AddState (Thread Key Value : Type) :=
  Interleaving.State Thread (AddShared Thread Key Value) (AddLocal Key Value)

abbrev addStep :
    AddState Thread Key Value → Thread × AddChoice Key Value →
      Option (AddState Thread Key Value) :=
  Interleaving.step (advanceAdd functions)

abbrev addRun :
    AddState Thread Key Value → List (Thread × AddChoice Key Value) →
      Option (AddState Thread Key Value) :=
  Machine.run (addStep functions)

/-- A map that has been initialised, and threads that have not called it. -/
def addStart (memory : HashMap Key Value) (size : Nat) :
    AddState Thread Key Value where
  shared :=
    { map := initializeMap memory size
      bucketLock := fun _ => false
      entrylock := false
      bucketOwner := fun _ => none
      poolOwner := none
      bindings := []
      history := []
      uncounted := ∅ }
  locals := fun _ => ⟨.idle, []⟩

end HashMap

end Causer
