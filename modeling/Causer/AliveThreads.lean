import Causer.Xthread
import Causer.Library.Machine

/-!
# Alive threads

Runs of the thread table in memory.  Every table they reach represents a
well-formed one, so counter, flags, indices and ring agree, the loops over the
alive threads end, and so does the search for a free structure.  The search
reports a full table by `-1`; `thread_create` uses that value as an index.
-/

namespace Causer

open TableCall

/-- What happens to the thread table. -/
inductive TableAction
  | threadCreate (arguments : Xthread.ThreadArguments)
  | threadExit (position : ThreadPosition)
  | reInitializeAtRuntime (arguments : Xthread.ThreadArguments)
  deriving DecidableEq

/-- The table a call leaves, if it returns. -/
def TableCall.left {Result : Type}
    (call : TableCall Result) (xthread : Xthread) : Option Xthread :=
  match (call xthread).2 with
  | .ok (_, after) => some after
  | .error _ => none

/-- Every structure a call uses is inside the array, whether it returns or
not. -/
def TableCall.Inside {Result : Type}
    (call : TableCall Result) (xthread : Xthread) : Prop :=
  ∀ index ∈ (call xthread).1, InArray index

namespace TableCall

variable {Result Next : Type}
variable {call : TableCall Result} {next : Result → TableCall Next}
variable {xthread : Xthread} {post : Result → Xthread → Prop}

theorem Returns.exists_left (returns : Returns call xthread post) :
    ∃ result after, call.left xthread = some after ∧ post result after := by
  obtain ⟨touched, result, after, returned, _, holds⟩ := returns
  exact ⟨result, after, by rw [left, returned], holds⟩

/-- What a call that has returned leaves. -/
theorem Returns.of_left
    {after : Xthread}
    (returns : Returns call xthread post)
    (leaves : call.left xthread = some after) :
    ∃ result, post result after := by
  obtain ⟨result, other, leavesOther, holds⟩ := returns.exists_left
  rw [leaves, Option.some.injEq] at leavesOther
  exact ⟨result, leavesOther ▸ holds⟩

theorem Returns.inside (returns : Returns call xthread post) :
    Inside call xthread := by
  obtain ⟨touched, result, after, returned, inside, _⟩ := returns
  rwa [Inside, returned]

theorem Returns.inside_bind
    (first : Returns call xthread post)
    (second : ∀ result after, post result after →
      Inside (next result) after) :
    Inside (call >>= next) xthread := by
  obtain ⟨touched, result, after, returned, inside, holds⟩ := first
  rw [Inside, bind_ok returned]
  intro index member
  rw [List.mem_append] at member
  exact member.elim (inside index) (second result after holds index)

end TableCall

namespace Xthread

/-- The actions the program can take: threads are created while the table is
not full, and every alive thread but the initial one may exit. -/
def Permitted (xthread : Xthread) : TableAction → Prop
  | .threadCreate _ => xthread.totalAliveThreads < maxAliveThreads
  | .threadExit position =>
      (xthread.threads position).available = false ∧ position ≠ 0
  | .reInitializeAtRuntime _ => True

instance (xthread : Xthread) :
    ∀ action, Decidable (Permitted xthread action)
  | .threadCreate _ =>
      inferInstanceAs (Decidable (_ < _))
  | .threadExit _ =>
      inferInstanceAs (Decidable (_ ∧ _))
  | .reInitializeAtRuntime _ => inferInstanceAs (Decidable True)

/-- The effect of an action. -/
def perform (xthread : Xthread) : TableAction → Option Xthread
  | .threadCreate arguments =>
      (threadCreate maxAliveThreads true arguments).left xthread
  | .threadExit position => some (threadExit position xthread)
  | .reInitializeAtRuntime arguments =>
      (reInitializeAtRuntime maxAliveThreads arguments).left xthread

/-- One permitted action. -/
def step (xthread : Xthread) (action : TableAction) : Option Xthread :=
  if Permitted xthread action then perform xthread action else none

/-- `initialize` followed by a list of actions, in a memory of any contents. -/
def run (memory : Xthread) (arguments : ThreadArguments)
    (actions : List TableAction) : Option Xthread :=
  ((initializeTable maxAliveThreads arguments).left memory).bind fun xthread =>
    Machine.run step xthread actions

/-- The table represents a well-formed one in which the initial thread is
alive. -/
def Sound (xthread : Xthread) : Prop :=
  ∃ table : ThreadTable, table.WellFormed ∧ 0 ∈ table.aliveThreadsList ∧
    Represents xthread table

section Steps

variable {xthread next : Xthread}

theorem sound_initializeTable
    {memory : Xthread} {arguments : ThreadArguments}
    (started : (initializeTable maxAliveThreads arguments).left memory =
      some xthread) :
    Sound xthread := by
  obtain ⟨_, represents⟩ :=
    (initializeTable_returns memory le_rfl arguments).of_left started
  refine ⟨_, ThreadTable.wellFormed_initializeTable _, ?_, represents⟩
  rw [ThreadTable.initializeTable_eq]
  exact List.mem_singleton_self 0

/-- A permitted creation returns, and keeps the table sound. -/
theorem Sound.threadCreate
    (sound : Sound xthread)
    (room : xthread.totalAliveThreads < maxAliveThreads)
    (arguments : ThreadArguments) :
    Returns (threadCreate maxAliveThreads true arguments) xthread
      fun _ after => Sound after ∧
        after.totalAliveThreads = xthread.totalAliveThreads + 1 := by
  obtain ⟨table, wellFormed, initial, represents⟩ := sound
  rw [represents.total] at room
  obtain ⟨tindex, allocated, succeeded⟩ :=
    wellFormed.exists_allocThreadIndex room
  apply (represents.threadCreate wellFormed room succeeded le_rfl
    arguments).imp
  rintro _ after ⟨_, afterRepresents⟩
  have created := wellFormed.create succeeded arguments.tid
  obtain ⟨_, rfl⟩ := ThreadTable.allocThreadIndex_eq_some succeeded
  refine ⟨⟨_, created, ?_, afterRepresents⟩, ?_⟩
  · rw [ThreadTable.insertTail_aliveThreadsList]
    exact List.mem_append_left _ initial
  · rw [afterRepresents.total, represents.total]
    rfl

/-- A permitted exit keeps the table sound. -/
theorem Sound.threadExit
    (sound : Sound xthread)
    {position : ThreadPosition}
    (alive : (xthread.threads position).available = false)
    (notInitial : position ≠ 0) :
    Sound (threadExit position xthread) := by
  obtain ⟨table, wellFormed, initial, represents⟩ := sound
  have listed : position ∈ table.aliveThreadsList := by
    rw [wellFormed.mem_alive_iff, ← (represents.threads position).available,
      alive]
  refine ⟨_, wellFormed.release listed, ?_, represents.threadExit listed⟩
  exact (wellFormed.nodup.mem_erase_iff).mpr ⟨notInitial.symm, initial⟩

/-- The child of `fork` starts with a sound table. -/
theorem Sound.reInitializeAtRuntime
    (sound : Sound xthread)
    (arguments : ThreadArguments) :
    Returns (reInitializeAtRuntime maxAliveThreads arguments) xthread
      fun _ after => Sound after := by
  obtain ⟨table, _, _, represents⟩ := sound
  apply (represents.reInitializeAtRuntime le_rfl arguments).imp
  intro _ after afterRepresents
  refine ⟨_, ThreadTable.wellFormed_reInitializeAtRuntime _ _, ?_,
    afterRepresents⟩
  rw [ThreadTable.reInitializeAtRuntime_eq]
  exact List.mem_singleton_self 0

/-- What one action preserves. -/
theorem Sound.step
    (sound : Sound xthread)
    {action : TableAction}
    (stepped : step xthread action = some next) :
    Sound next := by
  rw [Xthread.step, Option.ite_none_right_eq_some] at stepped
  obtain ⟨permitted, performed⟩ := stepped
  cases action with
  | threadCreate arguments =>
      obtain ⟨_, after, _⟩ :=
        (sound.threadCreate permitted arguments).of_left performed
      exact after
  | threadExit position =>
      rw [perform, Option.some.injEq] at performed
      exact performed ▸ sound.threadExit permitted.1 permitted.2
  | reInitializeAtRuntime arguments =>
      obtain ⟨_, after⟩ :=
        (sound.reInitializeAtRuntime arguments).of_left performed
      exact after

/-- A permitted action always comes to its end. -/
theorem Sound.exists_step
    (sound : Sound xthread)
    {action : TableAction}
    (permitted : Permitted xthread action) :
    ∃ next, Xthread.step xthread action = some next := by
  rw [Xthread.step, if_pos permitted]
  cases action with
  | threadCreate arguments =>
      obtain ⟨_, after, leaves, _⟩ :=
        (sound.threadCreate permitted arguments).exists_left
      exact ⟨after, leaves⟩
  | threadExit position => exact ⟨_, rfl⟩
  | reInitializeAtRuntime arguments =>
      obtain ⟨_, after, leaves, _⟩ :=
        (sound.reInitializeAtRuntime arguments).exists_left
      exact ⟨after, leaves⟩

/-- Every table a run reaches is sound. -/
theorem sound_of_run
    {memory : Xthread} {arguments : ThreadArguments}
    {actions : List TableAction}
    (executed : run memory arguments actions = some xthread) :
    Sound xthread := by
  obtain ⟨initial, started, rest⟩ := Option.bind_eq_some_iff.mp executed
  exact Machine.run_invariant_of_step
    (fun _ _ _ sound stepped => Sound.step sound stepped)
    (sound_initializeTable started) rest

end Steps

/-- Counter, flags, indices and ring agree on which threads are alive, the loops
over them visit each once, and a free structure is found. -/
structure Agrees (xthread : Xthread) (alive : List ThreadPosition) : Prop where
  /-- The counter is the number of unavailable structures. -/
  total_eq_card : xthread.totalAliveThreads =
    (Finset.univ.filter fun position =>
      (xthread.threads position).available = false).card
  /-- The counter is the length of the alive list. -/
  total_eq_length : xthread.totalAliveThreads = alive.length
  /-- The alive list is a ring of the alive structures' nodes. -/
  ring : Ring.IsRing xthread.links .aliveThreadsList (alive.map .listentry)
  /-- Exactly the unavailable structures are listed. -/
  mem_iff : ∀ position,
    position ∈ alive ↔ (xthread.threads position).available = false
  /-- Each is listed once. -/
  nodup : alive.Nodup
  /-- Every structure carries its own position. -/
  index_eq : ∀ position, (xthread.threads position).index = position.val
  /-- The alive list is never empty. -/
  nonempty : alive ≠ []
  /-- A loop over the alive threads visits them in order and stops. -/
  visits : ∀ fuel, alive.length ≤ fuel →
    forEachThread fuel xthread = some (alive.map .listentry)
  /-- The search for a free structure ends at one inside the array. -/
  allocates : ∀ fuel, maxAliveThreads ≤ fuel →
    xthread.totalAliveThreads < maxAliveThreads →
    Returns (allocThreadIndex fuel) xthread fun index _ =>
      InArray index ∧ ∀ position ∈ alive,
        (xthread.threads position).index ≠ index

/-- A sound table agrees on its alive threads. -/
theorem Sound.exists_agrees {xthread : Xthread} (sound : Sound xthread) :
    ∃ alive, Agrees xthread alive := by
  obtain ⟨table, wellFormed, initial, represents⟩ := sound
  have mem_iff : ∀ position, position ∈ table.aliveThreadsList ↔
      (xthread.threads position).available = false := by
    intro position
    rw [wellFormed.mem_alive_iff, (represents.threads position).available]
  have index_eq : ∀ position,
      (xthread.threads position).index = position.val := by
    intro position
    rw [(represents.threads position).index, wellFormed.index_eq]
  have nonempty : table.aliveThreadsList ≠ [] :=
    List.ne_nil_of_mem initial
  have total : xthread.totalAliveThreads = table.aliveThreadsList.length :=
    represents.total.trans wellFormed.total_eq
  have unavailable :
      (Finset.univ.filter fun position =>
        (xthread.threads position).available = false) =
          table.aliveThreadsList.toFinset := by
    ext position
    simp [mem_iff]
  refine ⟨table.aliveThreadsList,
    { total_eq_card := ?_
      total_eq_length := total
      ring := represents.ring
      mem_iff := mem_iff
      nodup := wellFormed.nodup
      index_eq := index_eq
      nonempty := nonempty
      visits := ?_
      allocates := ?_ }⟩
  · rw [unavailable, List.toFinset_card_of_nodup wellFormed.nodup]
    exact total
  · intro fuel enough
    apply represents.ring.traverse_eq
    · simpa using nonempty
    · simpa using enough
  · intro fuel enough room
    rw [represents.total] at room
    obtain ⟨tindex, allocated, succeeded⟩ :=
      wellFormed.exists_allocThreadIndex room
    apply (represents.allocThreadIndex wellFormed room succeeded enough).imp
    rintro _ _ ⟨rfl, _⟩
    refine ⟨inArray_position tindex, fun position member same => ?_⟩
    rw [index_eq, Nat.cast_inj, ← Fin.ext_iff] at same
    have available := (ThreadTable.allocThreadIndex_eq_some succeeded).1
    exact wellFormed.not_mem_of_available available (same ▸ member)

/-- In every table a run reaches, counter, flags, indices and ring agree on the
alive threads, and every permitted action comes to its end. -/
theorem run_agrees
    {memory final : Xthread} {arguments : ThreadArguments}
    {actions : List TableAction}
    (executed : run memory arguments actions = some final) :
    (∃ alive, Agrees final alive) ∧
      ∀ action, Permitted final action →
        ∃ next, step final action = some next :=
  have sound := sound_of_run executed
  ⟨sound.exists_agrees, fun _ permitted => sound.exists_step permitted⟩

/-- A memory whose structures hold nothing sensible. -/
def sampleMemory : Xthread where
  totalAliveThreads := -7
  totalThreads := 0
  threadIndex := 99
  threads := fun _ => ⟨-1, 0, 0, false, 0, 0, 0⟩
  links := ⟨fun _ => .null, fun _ => .null⟩

/-- What a sample thread is made with. -/
def sampleArguments : ThreadArguments := ⟨700, 4096, 9, 0, 512⟩

/-- Two creations, an exit, a fork and a creation in the child. -/
def sampleActions : List TableAction :=
  [.threadCreate sampleArguments, .threadCreate sampleArguments,
    .threadExit 1, .reInitializeAtRuntime sampleArguments,
    .threadCreate sampleArguments]

theorem run_agrees_sample :
    (run sampleMemory sampleArguments sampleActions).isSome = true ∧
      ∀ final ∈ run sampleMemory sampleArguments sampleActions,
        (∃ alive, Agrees final alive) ∧
          ∀ action, Permitted final action →
            ∃ next, step final action = some next :=
  ⟨by decide +kernel, fun _ executed => run_agrees executed⟩

/-- `thread_create` uses only structures of the array, and on a full table it
reports a failure and changes nothing. -/
structure CreatesSafely
    (xthread : Xthread) (created : Bool) (arguments : ThreadArguments) :
    Prop where
  /-- Only structures of the array are used. -/
  inside : Inside (threadCreate maxAliveThreads created arguments) xthread
  /-- A full table is reported and left alone. -/
  reported : (∀ position, (xthread.threads position).available = false) →
    ∃ result, result ≠ 0 ∧
      (threadCreate maxAliveThreads created arguments xthread).2 =
        .ok (result, xthread)

/-- A creation uses only structures of the array when one of them is free. -/
theorem Represents.threadCreate_inside
    {xthread : Xthread} {table : ThreadTable}
    (represents : Represents xthread table)
    (wellFormed : table.WellFormed)
    (room : table.totalAliveThreads < maxAliveThreads)
    (created : Bool)
    (arguments : ThreadArguments) :
    Inside (Xthread.threadCreate maxAliveThreads created arguments)
      xthread := by
  obtain ⟨tindex, allocated, succeeded⟩ :=
    wellFormed.exists_allocThreadIndex room
  cases created with
  | true =>
      exact (represents.threadCreate wellFormed room succeeded le_rfl
        arguments).inside
  | false =>
      apply (represents.allocThreadIndex wellFormed room succeeded
        le_rfl).inside_bind
      rintro _ after ⟨rfl, _⟩
      rw [Inside, bind_ok (useThread_position tindex after), modify_bind]
      simpa using inArray_position tindex

/-- On a full table a creation uses the structure before the array. -/
theorem Represents.threadCreate_full
    {xthread : Xthread} {table : ThreadTable}
    (represents : Represents xthread table)
    (full : ¬table.totalAliveThreads < maxAliveThreads)
    (created : Bool)
    (arguments : ThreadArguments) :
    Xthread.threadCreate maxAliveThreads created arguments xthread =
      ([-1], .error .strayed) := by
  have strayed : useThread (-1) xthread = ([-1], .error .strayed) :=
    useThread_strayed (by decide) xthread
  rw [Xthread.threadCreate,
    bind_ok (represents.allocThreadIndex_full full maxAliveThreads),
    bind_error strayed]
  rfl

/-- In every table a run reaches, `thread_create` is safe exactly when some
structure is free. -/
theorem createsSafely_iff
    {memory final : Xthread} {arguments : ThreadArguments}
    {actions : List TableAction}
    (executed : run memory arguments actions = some final)
    (created : Bool)
    (next : ThreadArguments) :
    CreatesSafely final created next ↔
      ∃ position, (final.threads position).available = true := by
  obtain ⟨table, wellFormed, _, represents⟩ := sound_of_run executed
  constructor
  · intro safe
    by_contra taken
    have full : ¬table.totalAliveThreads < maxAliveThreads := by
      intro room
      obtain ⟨position, available⟩ := wellFormed.exists_available room
      rw [← (represents.threads position).available] at available
      exact taken ⟨position, available⟩
    have inside := safe.inside
    rw [Inside, represents.threadCreate_full full] at inside
    exact absurd (inside (-1) (List.mem_singleton_self _)) (by decide)
  · rintro ⟨position, available⟩
    constructor
    · rw [(represents.threads position).available] at available
      exact represents.threadCreate_inside wellFormed
        (wellFormed.room_of_available available) created next
    · intro taken
      rw [taken position] at available
      exact absurd available (by decide)

theorem createsSafely_iff_sample :
    (run sampleMemory sampleArguments sampleActions).isSome = true ∧
      ∀ final ∈ run sampleMemory sampleArguments sampleActions,
        CreatesSafely final true sampleArguments ↔
          ∃ position, (final.threads position).available = true :=
  ⟨by decide +kernel, fun _ executed =>
    createsSafely_iff executed true sampleArguments⟩

/-- Threads can be created until the table is full. -/
theorem Sound.run_threadCreate
    {xthread : Xthread}
    (sound : Sound xthread)
    (arguments : ThreadArguments)
    {count : Nat}
    (room : xthread.totalAliveThreads + count ≤ maxAliveThreads) :
    ∃ final,
      Machine.run Xthread.step xthread
          (List.replicate count (.threadCreate arguments)) = some final ∧
      Sound final ∧
      final.totalAliveThreads = xthread.totalAliveThreads + count := by
  induction count generalizing xthread with
  | zero => exact ⟨xthread, rfl, sound, by simp⟩
  | succ count inductionHypothesis =>
      rw [Nat.cast_succ] at room
      have below : xthread.totalAliveThreads < maxAliveThreads := by omega
      obtain ⟨_, after, leaves, afterSound, afterTotal⟩ :=
        (sound.threadCreate below arguments).exists_left
      obtain ⟨final, executed, finalSound, finalTotal⟩ :=
        inductionHypothesis afterSound (by omega)
      refine ⟨final, ?_, finalSound, by rw [Nat.cast_succ]; omega⟩
      have stepped : Xthread.step xthread (.threadCreate arguments) =
          some after := by
        rw [Xthread.step, if_pos (by exact below)]
        exact leaves
      rw [List.replicate_succ, Machine.run_cons, stepped]
      exact executed

/-- The creations that fill the table. -/
def fillingActions : List TableAction :=
  List.replicate 1024 (.threadCreate sampleArguments)

/-- After 1024 creations the table is full, and one more uses the structure
before the array. -/
theorem threadCreate_full_unsafe :
    ∃ final, run sampleMemory sampleArguments fillingActions = some final ∧
      ¬CreatesSafely final true sampleArguments := by
  obtain ⟨_, initial, started, represents⟩ :=
    (initializeTable_returns sampleMemory le_rfl sampleArguments).exists_left
  have sound := sound_initializeTable started
  have one : initial.totalAliveThreads = 1 := by
    rw [represents.total, ThreadTable.initializeTable_eq]
  have room : initial.totalAliveThreads + (1024 : Nat) ≤ maxAliveThreads := by
    rw [one]
    decide
  obtain ⟨final, filled, ⟨table, _, _, finalRepresents⟩, total⟩ :=
    sound.run_threadCreate sampleArguments room
  have full : ¬table.totalAliveThreads < maxAliveThreads := by
    rw [← finalRepresents.total, total, one]
    decide
  refine ⟨final, ?_, fun safe => ?_⟩
  · rw [run, started, Option.bind_some, fillingActions]
    exact filled
  · have inside := safe.inside
    rw [Inside, finalRepresents.threadCreate_full full] at inside
    exact absurd (inside (-1) (List.mem_singleton_self _)) (by decide)

end Xthread

end Causer
