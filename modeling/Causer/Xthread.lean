import Causer.ThreadTable
import Causer.Library.Ring

/-!
# The thread table in memory

`xthread` as the source lays it out: the alive list is a ring of list nodes
embedded in the thread structures, indices are machine integers, and a function
that computes the address of `_threads[index]` may leave the array.  Every
function of the table carries the indices of the structures it reads or writes.
On a table that represents a well-formed `ThreadTable` each function does what
its counterpart there does, and stays inside the array.
-/

namespace Causer

/-- The address of a list node. -/
inductive ListNode
  | null
  /-- `_aliveThreadsList`. -/
  | aliveThreadsList
  /-- The `listentry` of a structure. -/
  | listentry (position : ThreadPosition)
  deriving DecidableEq

/-- A thread structure, without its list node and its barrier. -/
structure ThreadStructure where
  index : Int
  tid : Nat
  startFrame : Nat
  available : Bool
  pthreadt : Nat
  startArg : Nat
  startRoutine : Nat
  deriving DecidableEq

/-- The data of `xthread`. -/
structure Xthread where
  /-- `_totalAliveThreads`. -/
  totalAliveThreads : Int
  /-- `_totalThreads`. -/
  totalThreads : Int
  /-- `_threadIndex`. -/
  threadIndex : Int
  /-- `_threads`. -/
  threads : ThreadPosition → ThreadStructure
  /-- The pointers of all list nodes. -/
  links : Ring.Links ListNode

/-- Why a call does not return. -/
inductive Stop
  /-- It used a structure outside `_threads`. -/
  | strayed
  /-- Its loop has not ended within the fuel. -/
  | unfinished
  /-- It called `abort`. -/
  | aborted
  deriving DecidableEq

/-- An index of a structure in `_threads`. -/
def InArray (index : Int) : Prop := 0 ≤ index ∧ index < maxAliveThreads

instance (index : Int) : Decidable (InArray index) :=
  inferInstanceAs (Decidable (0 ≤ index ∧ index < maxAliveThreads))

theorem InArray.toNat_lt {index : Int} (inside : InArray index) :
    index.toNat < maxAliveThreads :=
  (Int.toNat_lt inside.1).mpr inside.2

theorem inArray_position (position : ThreadPosition) :
    InArray (position.val : Int) :=
  ⟨Int.natCast_nonneg _, Int.ofNat_lt.mpr position.isLt⟩

/-- A function on the thread table: the indices of the structures it reads or
writes, and its result with the table it leaves, if it returns. -/
def TableCall (Result : Type) : Type :=
  Xthread → List Int × Except Stop (Result × Xthread)

namespace TableCall

variable {Result Next : Type}

/-- Return without touching the table. -/
def ret (result : Result) : TableCall Result :=
  fun xthread => ([], .ok (result, xthread))

/-- One call after another. -/
def andThen (call : TableCall Result) (next : Result → TableCall Next) :
    TableCall Next :=
  fun xthread =>
    match call xthread with
    | (touched, .error stop) => (touched, .error stop)
    | (touched, .ok (result, after)) =>
        (touched ++ (next result after).1, (next result after).2)

instance : Monad TableCall where
  pure := ret
  bind := andThen

/-- The table as it is. -/
def current : TableCall Xthread :=
  fun xthread => ([], .ok (xthread, xthread))

/-- Assignments to the table's fields. -/
def modify (change : Xthread → Xthread) : TableCall Unit :=
  fun xthread => ([], .ok ((), change xthread))

/-- Give up. -/
def stop (reason : Stop) : TableCall Result :=
  fun _ => ([], .error reason)

/-- Use the structure at the address `getThread` computes from an index. -/
def useThread (index : Int) : TableCall ThreadPosition :=
  fun xthread =>
    ([index],
      if inside : InArray index then
        .ok (⟨index.toNat, inside.toNat_lt⟩, xthread)
      else .error .strayed)

@[simp] theorem pure_apply (result : Result) (xthread : Xthread) :
    (pure result : TableCall Result) xthread = ([], .ok (result, xthread)) :=
  rfl

@[simp] theorem current_apply (xthread : Xthread) :
    current xthread = ([], .ok (xthread, xthread)) := rfl

@[simp] theorem modify_apply
    (change : Xthread → Xthread) (xthread : Xthread) :
    modify change xthread = ([], .ok ((), change xthread)) := rfl

/-- Reading the table before a call. -/
theorem current_bind (next : Xthread → TableCall Next) (xthread : Xthread) :
    (current >>= next) xthread = next xthread xthread := rfl

/-- Assigning before a call. -/
theorem modify_bind
    (change : Xthread → Xthread) (next : Unit → TableCall Next)
    (xthread : Xthread) :
    (modify change >>= next) xthread = next () (change xthread) := rfl

@[simp] theorem stop_apply (reason : Stop) (xthread : Xthread) :
    (stop reason : TableCall Result) xthread = ([], .error reason) := rfl

/-- A call goes on where the first one has returned. -/
theorem bind_ok
    {call : TableCall Result} {next : Result → TableCall Next}
    {xthread after : Xthread} {touched : List Int} {result : Result}
    (returned : call xthread = (touched, .ok (result, after))) :
    (call >>= next) xthread =
      (touched ++ (next result after).1, (next result after).2) := by
  change andThen call next xthread = _
  rw [andThen, returned]

/-- A call that stops ends the whole. -/
theorem bind_error
    {call : TableCall Result} {next : Result → TableCall Next}
    {xthread : Xthread} {touched : List Int} {reason : Stop}
    (stopped : call xthread = (touched, .error reason)) :
    (call >>= next) xthread = (touched, .error reason) := by
  change andThen call next xthread = _
  rw [andThen, stopped]

/-- A position's own index leads to the position. -/
theorem useThread_position (position : ThreadPosition) (xthread : Xthread) :
    useThread (position.val : Int) xthread =
      ([(position.val : Int)], .ok (position, xthread)) := by
  rw [useThread, dif_pos (inArray_position position)]
  rfl

/-- An index outside the array leads outside. -/
theorem useThread_strayed
    {index : Int} (outside : ¬InArray index) (xthread : Xthread) :
    useThread index xthread = ([index], .error .strayed) := by
  rw [useThread, dif_neg outside]

/-- A call stays inside the array and returns, and its result and the table it
leaves meet a condition. -/
def Returns (call : TableCall Result) (xthread : Xthread)
    (post : Result → Xthread → Prop) : Prop :=
  ∃ touched result after,
    call xthread = (touched, .ok (result, after)) ∧
      (∀ index ∈ touched, InArray index) ∧ post result after

section Rules

variable {call : TableCall Result} {next : Result → TableCall Next}
variable {xthread : Xthread} {post : Result → Xthread → Prop}

theorem returns_pure {result : Result} (holds : post result xthread) :
    Returns (pure result) xthread post :=
  ⟨[], result, xthread, rfl, by simp, holds⟩

theorem returns_current_bind
    {next : Xthread → TableCall Result}
    (returns : Returns (next xthread) xthread post) :
    Returns (current >>= next) xthread post := by
  rwa [Returns, current_bind]

theorem returns_modify_bind
    {change : Xthread → Xthread} {next : Unit → TableCall Result}
    (returns : Returns (next ()) (change xthread) post) :
    Returns (modify change >>= next) xthread post := by
  rwa [Returns, modify_bind]

theorem returns_modify
    {change : Xthread → Xthread} {post : Unit → Xthread → Prop}
    (holds : post () (change xthread)) :
    Returns (modify change) xthread post :=
  ⟨[], (), change xthread, rfl, by simp, holds⟩

theorem returns_useThread_bind
    {position : ThreadPosition} {next : ThreadPosition → TableCall Result}
    (returns : Returns (next position) xthread post) :
    Returns (useThread (position.val : Int) >>= next) xthread post := by
  obtain ⟨touched, result, after, returned, inside, holds⟩ := returns
  refine ⟨_, result, after, bind_ok (useThread_position position xthread) |>.trans
    (by rw [returned]), ?_, holds⟩
  simpa using ⟨inArray_position position, inside⟩

/-- Two calls in a row: what the first one establishes is what the second one
starts from. -/
theorem Returns.bind
    {middle : Result → Xthread → Prop} {post : Next → Xthread → Prop}
    (first : Returns call xthread middle)
    (second : ∀ result after, middle result after →
      Returns (next result) after post) :
    Returns (call >>= next) xthread post := by
  obtain ⟨touched, result, after, returned, inside, holds⟩ := first
  obtain ⟨more, final, left, nextReturned, nextInside, established⟩ :=
    second result after holds
  refine ⟨touched ++ more, final, left, ?_, ?_, established⟩
  · rw [bind_ok returned, nextReturned]
  · intro index member
    rw [List.mem_append] at member
    exact member.elim (inside index) (nextInside index)

/-- A condition may be weakened. -/
theorem Returns.imp
    {weaker : Result → Xthread → Prop}
    (returns : Returns call xthread post)
    (implies : ∀ result after, post result after → weaker result after) :
    Returns call xthread weaker := by
  obtain ⟨touched, result, after, returned, inside, holds⟩ := returns
  exact ⟨touched, result, after, returned, inside,
    implies result after holds⟩

end Rules

end TableCall

namespace Xthread

open TableCall

/-- Assign to the fields of one structure. -/
def setStructure
    (position : ThreadPosition)
    (change : ThreadStructure → ThreadStructure)
    (xthread : Xthread) : Xthread :=
  { xthread with
    threads := Function.update xthread.threads position
      (change (xthread.threads position)) }

/-- Advance the rotating index. -/
def advance (xthread : Xthread) : Xthread :=
  { xthread with
    threadIndex := (xthread.threadIndex + 1).tmod xthread.totalThreads }

/-- `threadInitBeforeCreation`. -/
def threadInitBeforeCreation
    (position : ThreadPosition) (xthread : Xthread) : Xthread :=
  { xthread with
    links := Ring.nodeInit xthread.links (.listentry position) }

/-- The loop of `allocThreadIndex`. -/
def allocLoop : Nat → TableCall Int
  | 0 => stop .unfinished
  | fuel + 1 => do
      let index := (← current).threadIndex
      let thread ← useThread index
      if ((← current).threads thread).available then
        modify (setStructure thread fun fields =>
          { fields with available := false })
        modify fun xthread =>
          { xthread with totalAliveThreads := xthread.totalAliveThreads + 1 }
        modify advance
        modify (threadInitBeforeCreation thread)
        pure index
      else
        modify advance
        allocLoop fuel

/-- `allocThreadIndex`. -/
def allocThreadIndex (fuel : Nat) : TableCall Int := do
  let xthread ← current
  if xthread.totalAliveThreads ≥ xthread.totalThreads then pure (-1)
  else allocLoop fuel

/-- `initializeCurrentThread`, with the values it reads from the system. -/
def initializeCurrentThread
    (tid startFrame : Nat) (position : ThreadPosition) :
    Xthread → Xthread :=
  setStructure position fun fields =>
    { fields with tid := tid, startFrame := startFrame }

/-- Put a structure into the alive list. -/
def insertAlive (position : ThreadPosition) (xthread : Xthread) : Xthread :=
  { xthread with
    links := Ring.insertTail xthread.links (.listentry position)
      .aliveThreadsList }

/-- What the system and the caller supply when a thread is made. -/
structure ThreadArguments where
  tid : Nat
  startFrame : Nat
  pthreadt : Nat
  startArg : Nat
  startRoutine : Nat
  deriving DecidableEq

/-- `initializeInitialThread`.  Its assertion on the index is a `abort`. -/
def initializeInitialThread (fuel : Nat) (arguments : ThreadArguments) :
    TableCall Unit := do
  let tindex ← allocThreadIndex fuel
  if tindex = 0 then
    let thread ← useThread tindex
    modify (initializeCurrentThread arguments.tid arguments.startFrame thread)
    modify (setStructure thread fun fields =>
      { fields with pthreadt := arguments.pthreadt })
    modify (insertAlive thread)
  else stop .aborted

/-- The loop of `initialize` and `reInitializeAtRuntime` over all structures. -/
def markAvailable (xthread : Xthread) : Xthread :=
  { xthread with
    threads := fun position =>
      { xthread.threads position with available := true, index := position } }

/-- The `memset` of `initialize`. -/
def clearThreads (xthread : Xthread) : Xthread :=
  { xthread with
    threads := fun _ => ⟨0, 0, 0, false, 0, 0, 0⟩
    links :=
      { next := fun node => match node with
          | .listentry _ => .null
          | node => xthread.links.next node
        prev := fun node => match node with
          | .listentry _ => .null
          | node => xthread.links.prev node } }

/-- Start with an empty alive list. -/
def resetCounters (xthread : Xthread) : Xthread :=
  { xthread with
    totalAliveThreads := 0
    threadIndex := 0
    links := Ring.nodeInit xthread.links .aliveThreadsList }

/-- `initialize`. -/
def initializeTable (fuel : Nat) (arguments : ThreadArguments) :
    TableCall Unit := do
  modify resetCounters
  modify fun xthread => { xthread with totalThreads := maxAliveThreads }
  modify clearThreads
  modify markAvailable
  initializeInitialThread fuel arguments

/-- `reInitializeAtRuntime`. -/
def reInitializeAtRuntime (fuel : Nat) (arguments : ThreadArguments) :
    TableCall Unit := do
  modify resetCounters
  modify markAvailable
  initializeInitialThread fuel arguments

/-- `thread_create`, together with what the new thread writes into its own
structure before the barrier.  The thread may fail to be created. -/
def threadCreate (fuel : Nat) (created : Bool) (arguments : ThreadArguments) :
    TableCall Int := do
  let tindex ← allocThreadIndex fuel
  let children ← useThread tindex
  modify (setStructure children fun fields =>
    { fields with
      startArg := arguments.startArg
      startRoutine := arguments.startRoutine
      index := tindex })
  if created then
    modify (initializeCurrentThread arguments.tid arguments.startFrame children)
    modify (setStructure children fun fields =>
      { fields with pthreadt := arguments.pthreadt })
    modify (insertAlive children)
    pure 0
  else stop .aborted

/-- The part of `threadExit` that updates the table. -/
def threadExit (position : ThreadPosition) (xthread : Xthread) : Xthread :=
  { setStructure position (fun fields => { fields with available := true })
      xthread with
    links := Ring.removeNode xthread.links (.listentry position)
    totalAliveThreads := xthread.totalAliveThreads - 1 }

/-- The nodes a `FOR_EACH_THREAD` loop visits. -/
def forEachThread (fuel : Nat) (xthread : Xthread) :
    Option (List ListNode) :=
  Ring.traverse xthread.links .aliveThreadsList fuel
    (xthread.links.next .aliveThreadsList)

/-- A structure in memory holds what a structure of the list model does. -/
structure Describes (fields : ThreadStructure) (thread : Thread) : Prop where
  index : fields.index = thread.index.val
  tid : fields.tid = thread.tid
  available : fields.available = thread.available

theorem Describes.setAvailable
    {fields : ThreadStructure} {thread : Thread}
    (describes : Describes fields thread) (available : Bool) :
    Describes { fields with available := available }
      { thread with available := available } :=
  { describes with available := rfl }

/-- A table in memory holds what a table of the list model does, and its alive
list is a ring through the listed structures. -/
structure Represents (xthread : Xthread) (table : ThreadTable) : Prop where
  total : xthread.totalAliveThreads = table.totalAliveThreads
  limit : xthread.totalThreads = maxAliveThreads
  threadIndex : xthread.threadIndex = table.threadIndex.val
  threads : ∀ position,
    Describes (xthread.threads position) (table.threads position)
  ring : Ring.IsRing xthread.links .aliveThreadsList
    (table.aliveThreadsList.map .listentry)

section Refinement

variable {xthread : Xthread} {table : ThreadTable}

theorem Represents.setStructure
    (represents : Represents xthread table)
    (change : ThreadStructure → ThreadStructure)
    {position : ThreadPosition} {thread : Thread}
    (described : Describes (change (xthread.threads position)) thread) :
    Represents (setStructure position change xthread)
      { table with
        threads := Function.update table.threads position thread } := by
  refine { represents with threads := fun other => ?_ }
  by_cases same : other = position
  · subst same
    simpa [Xthread.setStructure] using described
  · simpa [Xthread.setStructure, same] using represents.threads other

theorem Represents.advance
    (represents : Represents xthread table) :
    Represents (advance xthread)
      { table with threadIndex := table.threadIndex + 1 } := by
  refine { represents with threadIndex := ?_ }
  have bound := table.threadIndex.isLt
  simp only [Xthread.advance, represents.threadIndex, represents.limit,
    Fin.val_add, Fin.val_one]
  rw [Int.tmod_eq_emod_of_nonneg (by omega)]
  push_cast
  rfl

theorem Represents.count
    (represents : Represents xthread table) :
    Represents
      { xthread with totalAliveThreads := xthread.totalAliveThreads + 1 }
      { table with totalAliveThreads := table.totalAliveThreads + 1 } :=
  { represents with total := congrArg (· + 1) represents.total }

/-- A listed position's node is in the ring, and no other structure's is. -/
theorem listentry_mem_iff {position : ThreadPosition} :
    ListNode.listentry position ∈
        ListNode.aliveThreadsList ::
          table.aliveThreadsList.map .listentry ↔
      position ∈ table.aliveThreadsList := by
  simp

theorem Represents.threadInitBeforeCreation
    (represents : Represents xthread table)
    {position : ThreadPosition}
    (absent : position ∉ table.aliveThreadsList) :
    Represents (threadInitBeforeCreation position xthread) table :=
  { represents with
    ring := represents.ring.nodeInit (listentry_mem_iff.not.mpr absent) }

theorem Represents.insertAlive
    (represents : Represents xthread table)
    {position : ThreadPosition}
    (absent : position ∉ table.aliveThreadsList) :
    Represents (insertAlive position xthread) (table.insertTail position) := by
  refine { represents with ring := ?_ }
  rw [ThreadTable.insertTail_aliveThreadsList, List.map_append,
    List.map_singleton]
  exact represents.ring.insertTail (listentry_mem_iff.not.mpr absent)

/-- The search loop ends where the search of the list model ends. -/
theorem Represents.allocLoop
    (represents : Represents xthread table)
    (unavailable : ∀ position ∈ table.aliveThreadsList,
      (table.threads position).available = false)
    {fuel : Nat} {tindex : ThreadPosition}
    (found : ThreadTable.findAvailable table.threads fuel table.threadIndex =
      some tindex) :
    Returns (Xthread.allocLoop fuel) xthread fun index after =>
      index = tindex.val ∧
        Represents after
          { table with
            threads := Function.update table.threads tindex
              { table.threads tindex with available := false }
            totalAliveThreads := table.totalAliveThreads + 1
            threadIndex := tindex + 1 } := by
  induction fuel generalizing xthread table with
  | zero => simp [ThreadTable.findAvailable] at found
  | succ fuel inductionHypothesis =>
      rw [ThreadTable.findAvailable] at found
      rw [Xthread.allocLoop]
      apply returns_current_bind
      rw [represents.threadIndex]
      apply returns_useThread_bind
      apply returns_current_bind
      rw [(represents.threads table.threadIndex).available]
      split
      · next available =>
          rw [if_pos available, Option.some.injEq] at found
          subst found
          have absent : table.threadIndex ∉ table.aliveThreadsList := by
            intro member
            rw [unavailable _ member] at available
            exact absurd available (by decide)
          apply returns_modify_bind
          apply returns_modify_bind
          apply returns_modify_bind
          apply returns_modify_bind
          refine returns_pure ⟨rfl, ?_⟩
          have taken := represents.setStructure
            (fun fields => { fields with available := false })
            ((represents.threads table.threadIndex).setAvailable false)
          exact taken.count.advance.threadInitBeforeCreation absent
      · next taken =>
          rw [if_neg taken] at found
          apply returns_modify_bind
          have rest := inductionHypothesis represents.advance unavailable found
          exact rest

/-- `allocThreadIndex` returns what the list model's does. -/
theorem Represents.allocThreadIndex
    (represents : Represents xthread table)
    (wellFormed : table.WellFormed)
    (room : table.totalAliveThreads < maxAliveThreads)
    {tindex : ThreadPosition} {allocated : ThreadTable}
    (succeeded : table.allocThreadIndex = some (some tindex, allocated))
    {fuel : Nat}
    (enough : maxAliveThreads ≤ fuel) :
    Returns (Xthread.allocThreadIndex fuel) xthread fun index after =>
      index = tindex.val ∧ Represents after allocated := by
  have notFull : ¬table.totalAliveThreads ≥ maxAliveThreads := by omega
  rw [ThreadTable.allocThreadIndex, if_neg notFull,
    Option.map_eq_some_iff] at succeeded
  obtain ⟨index, found, result⟩ := succeeded
  rw [Prod.mk.injEq, Option.some.injEq] at result
  obtain ⟨rfl, rfl⟩ := result
  apply returns_current_bind
  rw [represents.total, represents.limit, if_neg notFull]
  exact represents.allocLoop
    (fun position member => (wellFormed.mem_alive_iff position).mp member)
    (ThreadTable.findAvailable_mono found enough)

/-- `allocThreadIndex` reports a failure on a full table. -/
theorem Represents.allocThreadIndex_full
    (represents : Represents xthread table)
    (full : ¬table.totalAliveThreads < maxAliveThreads)
    (fuel : Nat) :
    Xthread.allocThreadIndex fuel xthread = ([], .ok (-1, xthread)) := by
  rw [Xthread.allocThreadIndex, current_bind, represents.total,
    represents.limit, if_pos (not_lt.mp full)]
  rfl

/-- Two assignments to one structure in a row. -/
theorem setStructure_setStructure
    (position : ThreadPosition)
    (first second : ThreadStructure → ThreadStructure)
    (xthread : Xthread) :
    Xthread.setStructure position second
        (Xthread.setStructure position first xthread) =
      Xthread.setStructure position (second ∘ first) xthread := by
  simp [Xthread.setStructure]

/-- Filling in a structure and listing it. -/
theorem Represents.fillIn
    (represents : Represents xthread table)
    {position : ThreadPosition}
    (absent : position ∉ table.aliveThreadsList)
    {change : ThreadStructure → ThreadStructure} {tid : Nat}
    (described : Describes (change (xthread.threads position))
      { table.threads position with index := position, tid := tid }) :
    Represents
      (Xthread.insertAlive position
        (Xthread.setStructure position change xthread))
      ((table.setThread position tid).insertTail position) :=
  (represents.setStructure change described).insertAlive absent

/-- `thread_create` does what the list model does when the table is not
full. -/
theorem Represents.threadCreate
    (represents : Represents xthread table)
    (wellFormed : table.WellFormed)
    (room : table.totalAliveThreads < maxAliveThreads)
    {tindex : ThreadPosition} {allocated : ThreadTable}
    (succeeded : table.allocThreadIndex = some (some tindex, allocated))
    {fuel : Nat}
    (enough : maxAliveThreads ≤ fuel)
    (arguments : ThreadArguments) :
    Returns (Xthread.threadCreate fuel true arguments) xthread
      fun result after =>
        result = 0 ∧
          Represents after
            ((allocated.setThread tindex arguments.tid).insertTail tindex) := by
  obtain ⟨available, rfl⟩ := ThreadTable.allocThreadIndex_eq_some succeeded
  have absent := wellFormed.not_mem_of_available available
  refine (represents.allocThreadIndex wellFormed room succeeded enough).bind ?_
  rintro _ after ⟨rfl, allocatedRepresents⟩
  apply returns_useThread_bind
  apply returns_modify_bind
  rw [if_pos rfl]
  apply returns_modify_bind
  apply returns_modify_bind
  apply returns_modify_bind
  refine returns_pure ⟨rfl, ?_⟩
  rw [initializeCurrentThread, setStructure_setStructure,
    setStructure_setStructure]
  apply allocatedRepresents.fillIn absent
  exact ⟨rfl, rfl, (allocatedRepresents.threads tindex).available⟩

/-- The table part of `threadExit` does what the list model's does. -/
theorem Represents.threadExit
    (represents : Represents xthread table)
    {position : ThreadPosition}
    (alive : position ∈ table.aliveThreadsList) :
    Represents (Xthread.threadExit position xthread)
      (table.release position) := by
  obtain ⟨before, after, _, split, erased⟩ := List.exists_erase_eq alive
  have ring := represents.ring
  rw [split, List.map_append, List.map_cons] at ring
  have released := represents.setStructure
    (fun fields => { fields with available := true })
    ((represents.threads position).setAvailable true)
  refine { released with total := ?_, ring := ?_ }
  · simp [Xthread.threadExit, represents.total]
  · rw [ThreadTable.release_aliveThreadsList, erased, List.map_append]
    exact ring.removeNode

/-- Emptying the table does what the list model's does. -/
theorem Represents.reset (represents : Represents xthread table) :
    Represents (markAvailable (resetCounters xthread)) table.reset where
  total := rfl
  limit := represents.limit
  threadIndex := rfl
  threads := fun position =>
    ⟨rfl, (represents.threads position).tid, rfl⟩
  ring := Ring.isRing_nodeInit _ _

/-- The table `initialize` builds before it enters the initial thread. -/
theorem represents_cleared (xthread : Xthread) :
    Represents
      (markAvailable (clearThreads
        { resetCounters xthread with totalThreads := maxAliveThreads }))
      ThreadTable.cleared where
  total := rfl
  limit := rfl
  threadIndex := rfl
  threads := fun position => ⟨rfl, rfl, rfl⟩
  ring := by
    apply (Ring.isRing_nodeInit xthread.links .aliveThreadsList).congr <;>
      simp [clearThreads, markAvailable, resetCounters]

/-- Entering the initial thread does what the list model's does. -/
theorem Represents.initializeInitialThread
    (represents : Represents xthread table)
    (wellFormed : table.WellFormed)
    (empty : table.totalAliveThreads = 0)
    (first : table.threadIndex = 0)
    (available : (table.threads 0).available = true)
    {fuel : Nat}
    (enough : maxAliveThreads ≤ fuel)
    (arguments : ThreadArguments) :
    Returns (Xthread.initializeInitialThread fuel arguments) xthread
      fun _ after =>
        Represents after
          (table.initializeInitialThread arguments.tid) := by
  have absent := wellFormed.not_mem_of_available available
  have room : table.totalAliveThreads < maxAliveThreads := by
    rw [empty]; decide
  have found : ThreadTable.findAvailable table.threads maxAliveThreads
      table.threadIndex = some 0 := by
    simp [ThreadTable.findAvailable, first, available]
  obtain ⟨allocated, succeeded⟩ :=
    ThreadTable.exists_allocThreadIndex room found
  rw [ThreadTable.initializeInitialThread, succeeded]
  have returns :=
    represents.allocThreadIndex wellFormed room succeeded enough
  obtain ⟨_, rfl⟩ := ThreadTable.allocThreadIndex_eq_some succeeded
  refine returns.bind ?_
  rintro _ after ⟨rfl, allocatedRepresents⟩
  rw [if_pos (show ((0 : ThreadPosition).val : Int) = 0 from rfl)]
  apply returns_useThread_bind
  apply returns_modify_bind
  apply returns_modify_bind
  apply returns_modify
  rw [initializeCurrentThread, setStructure_setStructure]
  apply allocatedRepresents.fillIn absent
  have described := allocatedRepresents.threads 0
  exact ⟨described.index.trans (by simp [wellFormed.index_eq]), rfl,
    described.available⟩

/-- `initialize` does what the list model's does, whatever the memory held. -/
theorem initializeTable_returns
    (xthread : Xthread)
    {fuel : Nat}
    (enough : maxAliveThreads ≤ fuel)
    (arguments : ThreadArguments) :
    Returns (initializeTable fuel arguments) xthread fun _ after =>
      Represents after (ThreadTable.initializeTable arguments.tid) := by
  apply returns_modify_bind
  apply returns_modify_bind
  apply returns_modify_bind
  apply returns_modify_bind
  exact (represents_cleared xthread).initializeInitialThread
    ThreadTable.wellFormed_cleared rfl rfl rfl enough arguments

/-- `reInitializeAtRuntime` does what the list model's does. -/
theorem Represents.reInitializeAtRuntime
    (represents : Represents xthread table)
    {fuel : Nat}
    (enough : maxAliveThreads ≤ fuel)
    (arguments : ThreadArguments) :
    Returns (Xthread.reInitializeAtRuntime fuel arguments) xthread
      fun _ after =>
        Represents after
          (table.reInitializeAtRuntime arguments.tid) := by
  apply returns_modify_bind
  apply returns_modify_bind
  exact represents.reset.initializeInitialThread
    (ThreadTable.wellFormed_reset table) rfl rfl rfl enough arguments

end Refinement

end Xthread

end Causer
