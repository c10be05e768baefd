import Causer.Xdefines
import Mathlib.Data.List.Nodup
import Mathlib.Data.Fintype.Card

/-!
# The thread table

`xthread` keeps a fixed array of thread structures, a rotating index from which
the next free one is searched, and the list of alive threads.  The list is a
ring of the structures' own list nodes; it is represented here by the positions
of its nodes in list order.
-/

namespace Causer

/-- Position of a structure in `_threads`. -/
abbrev ThreadPosition := Fin maxAliveThreads

instance : LawfulBEq ThreadPosition := inferInstance

/-- A thread structure, without the fields that only `pthread` reads. -/
structure Thread where
  /-- Index of the thread's records in every slot. -/
  index : ThreadPosition
  /-- Kernel identifier. -/
  tid : Nat
  /-- Whether `allocThreadIndex` may use the structure. -/
  available : Bool
  deriving DecidableEq

/-- The state of `xthread`. -/
structure ThreadTable where
  /-- `_totalAliveThreads`. -/
  totalAliveThreads : Int
  /-- `_threadIndex`. -/
  threadIndex : ThreadPosition
  /-- `_threads`. -/
  threads : ThreadPosition → Thread
  /-- The nodes of `_aliveThreadsList` in order. -/
  aliveThreadsList : List ThreadPosition

namespace ThreadTable

/-- The alive threads in list order, as the `FOR_EACH_THREAD` loops see them. -/
def aliveThreads (table : ThreadTable) : List Thread :=
  table.aliveThreadsList.map table.threads

/-- The search loop of `allocThreadIndex` from one position on, for as many
positions as the fuel allows. -/
def findAvailable (threads : ThreadPosition → Thread) :
    Nat → ThreadPosition → Option ThreadPosition
  | 0, _ => none
  | fuel + 1, position =>
      if (threads position).available then some position
      else findAvailable threads fuel (position + 1)

/-- `allocThreadIndex`.  The outer option is `none` when the search would never
end, the inner one when the function returns `-1`. -/
def allocThreadIndex (table : ThreadTable) :
    Option (Option ThreadPosition × ThreadTable) :=
  if table.totalAliveThreads ≥ maxAliveThreads then
    some (none, table)
  else
    (findAvailable table.threads maxAliveThreads table.threadIndex).map
      fun index =>
        (some index,
          { table with
            threads := Function.update table.threads index
              { table.threads index with available := false }
            totalAliveThreads := table.totalAliveThreads + 1
            threadIndex := index + 1 })

/-- Fill in the structure of a thread that starts at a position. -/
def setThread (table : ThreadTable)
    (tindex : ThreadPosition) (tid : Nat) : ThreadTable :=
  { table with
    threads := Function.update table.threads tindex
      { table.threads tindex with index := tindex, tid := tid } }

/-- `listInsertTail` of a thread's node into the alive list. -/
def insertTail (table : ThreadTable)
    (tindex : ThreadPosition) : ThreadTable :=
  { table with aliveThreadsList := table.aliveThreadsList ++ [tindex] }

/-- The part of `threadExit` that updates the table. -/
def release (table : ThreadTable)
    (position : ThreadPosition) : ThreadTable :=
  { table with
    threads := Function.update table.threads position
      { table.threads position with available := true }
    aliveThreadsList := table.aliveThreadsList.erase position
    totalAliveThreads := table.totalAliveThreads - 1 }

/-- The table that `initialize` builds before it enters the initial thread. -/
def cleared : ThreadTable where
  totalAliveThreads := 0
  threadIndex := 0
  threads := fun position => ⟨position, 0, true⟩
  aliveThreadsList := []

/-- `initializeInitialThread`.  The assertion on the index it allocates is the
reason why the second case does not arise on the cleared table. -/
def initializeInitialThread (tid : Nat) (table : ThreadTable) :
    ThreadTable :=
  match table.allocThreadIndex with
  | some (some tindex, table) => (table.setThread tindex tid).insertTail tindex
  | _ => table

/-- `initialize`. -/
def initializeTable (tid : Nat) : ThreadTable :=
  initializeInitialThread tid cleared

/-- The table that `reInitializeAtRuntime` builds before it enters the initial
thread. -/
def reset (table : ThreadTable) : ThreadTable where
  totalAliveThreads := 0
  threadIndex := 0
  threads := fun position =>
    { table.threads position with index := position, available := true }
  aliveThreadsList := []

/-- `reInitializeAtRuntime`. -/
def reInitializeAtRuntime (tid : Nat) (table : ThreadTable) : ThreadTable :=
  initializeInitialThread tid table.reset

/-- The agreement of counter, flags, indices and list that every operation
keeps. -/
structure WellFormed (table : ThreadTable) : Prop where
  /-- Every structure carries its own position. -/
  index_eq : ∀ position, (table.threads position).index = position
  /-- No structure is listed twice. -/
  nodup : table.aliveThreadsList.Nodup
  /-- Exactly the listed structures are unavailable. -/
  mem_alive_iff : ∀ position,
    position ∈ table.aliveThreadsList ↔
      (table.threads position).available = false
  /-- The counter counts the listed structures. -/
  total_eq : table.totalAliveThreads = table.aliveThreadsList.length

@[simp] theorem insertTail_threads
    (table : ThreadTable) (tindex : ThreadPosition) :
    (table.insertTail tindex).threads = table.threads := rfl

@[simp] theorem insertTail_aliveThreadsList
    (table : ThreadTable) (tindex : ThreadPosition) :
    (table.insertTail tindex).aliveThreadsList =
      table.aliveThreadsList ++ [tindex] := rfl

@[simp] theorem setThread_aliveThreadsList
    (table : ThreadTable) (tindex : ThreadPosition) (tid : Nat) :
    (table.setThread tindex tid).aliveThreadsList =
      table.aliveThreadsList := rfl

@[simp] theorem setThread_threads_self
    (table : ThreadTable) (tindex : ThreadPosition) (tid : Nat) :
    (table.setThread tindex tid).threads tindex =
      { table.threads tindex with index := tindex, tid := tid } := by
  simp [setThread]

@[simp] theorem setThread_threads_of_ne
    (table : ThreadTable) {tindex position : ThreadPosition} (tid : Nat)
    (different : position ≠ tindex) :
    (table.setThread tindex tid).threads position =
      table.threads position := by
  simp [setThread, different]

@[simp] theorem insertTail_totalAliveThreads
    (table : ThreadTable) (tindex : ThreadPosition) :
    (table.insertTail tindex).totalAliveThreads = table.totalAliveThreads :=
  rfl

@[simp] theorem setThread_totalAliveThreads
    (table : ThreadTable) (tindex : ThreadPosition) (tid : Nat) :
    (table.setThread tindex tid).totalAliveThreads =
      table.totalAliveThreads :=
  rfl

@[simp] theorem release_aliveThreadsList
    (table : ThreadTable) (position : ThreadPosition) :
    (table.release position).aliveThreadsList =
      table.aliveThreadsList.erase position :=
  rfl

@[simp] theorem release_totalAliveThreads
    (table : ThreadTable) (position : ThreadPosition) :
    (table.release position).totalAliveThreads =
      table.totalAliveThreads - 1 :=
  rfl

@[simp] theorem release_threads_self
    (table : ThreadTable) (position : ThreadPosition) :
    (table.release position).threads position =
      { table.threads position with available := true } :=
  Function.update_self ..

@[simp] theorem release_threads_of_ne
    (table : ThreadTable) {position other : ThreadPosition}
    (different : other ≠ position) :
    (table.release position).threads other = table.threads other :=
  Function.update_of_ne different ..

/-- The position the search returns is available. -/
theorem findAvailable_available
    {threads : ThreadPosition → Thread}
    {fuel : Nat}
    {position found : ThreadPosition}
    (search : findAvailable threads fuel position = some found) :
    (threads found).available = true := by
  induction fuel generalizing position with
  | zero => simp [findAvailable] at search
  | succ fuel inductionHypothesis =>
      rw [findAvailable] at search
      split at search
      · next available =>
          rw [Option.some.injEq] at search
          exact search ▸ available
      · exact inductionHypothesis search

/-- The search finds nothing exactly when no position it looks at is
available. -/
theorem findAvailable_eq_none
    {threads : ThreadPosition → Thread}
    {fuel : Nat}
    {position : ThreadPosition} :
    findAvailable threads fuel position = none ↔
      ∀ distance < fuel,
        (threads (position + Fin.ofNat maxAliveThreads distance)).available =
          false := by
  induction fuel generalizing position with
  | zero => simp [findAvailable]
  | succ fuel inductionHypothesis =>
      have shifted : ∀ distance, position + 1 +
          Fin.ofNat maxAliveThreads distance =
            position + Fin.ofNat maxAliveThreads (distance + 1) := by
        intro distance
        rw [Fin.ext_iff]
        simp only [Fin.val_add, Fin.val_ofNat, Fin.val_one, maxAliveThreads]
        omega
      have unshifted : position + Fin.ofNat maxAliveThreads 0 = position := by
        simp
      rw [findAvailable, Nat.forall_lt_succ_left, unshifted]
      cases available : (threads position).available with
      | true => simp
      | false =>
          simp only [Bool.false_eq_true, if_false, inductionHypothesis,
            shifted, true_and]

/-- More fuel does not change what a search has found. -/
theorem findAvailable_mono
    {threads : ThreadPosition → Thread}
    {fuel more : Nat}
    {position found : ThreadPosition}
    (search : findAvailable threads fuel position = some found)
    (enough : fuel ≤ more) :
    findAvailable threads more position = some found := by
  induction fuel generalizing position more with
  | zero => simp [findAvailable] at search
  | succ fuel inductionHypothesis =>
      cases more with
      | zero => exact absurd enough (Nat.not_succ_le_zero fuel)
      | succ more =>
          rw [findAvailable] at search ⊢
          split at search
          · next available => rw [if_pos available, search]
          · next taken =>
              rw [if_neg taken]
              exact inductionHypothesis search (Nat.le_of_succ_le_succ enough)

/-- A search once around the table finds an available position if there is
one. -/
theorem exists_findAvailable
    {threads : ThreadPosition → Thread}
    {free : ThreadPosition}
    (available : (threads free).available = true)
    (position : ThreadPosition) :
    ∃ found, findAvailable threads maxAliveThreads position = some found := by
  rw [← Option.ne_none_iff_exists']
  intro missing
  have unavailable := findAvailable_eq_none.mp missing (free - position).val
    (free - position).isLt
  rw [Fin.ofNat_val_eq_self, add_sub_cancel, available] at unavailable
  exact absurd unavailable (by decide)

/-- Allocation succeeds when there is room and the search finds a position. -/
theorem exists_allocThreadIndex
    {table : ThreadTable}
    {tindex : ThreadPosition}
    (room : table.totalAliveThreads < maxAliveThreads)
    (found : findAvailable table.threads maxAliveThreads
      table.threadIndex = some tindex) :
    ∃ allocated, table.allocThreadIndex = some (some tindex, allocated) := by
  have notFull : ¬table.totalAliveThreads ≥ maxAliveThreads := by omega
  rw [allocThreadIndex, if_neg notFull, found]
  exact ⟨_, rfl⟩

/-- What a successful allocation does. -/
theorem allocThreadIndex_eq_some
    {table allocated : ThreadTable}
    {tindex : ThreadPosition}
    (succeeded : table.allocThreadIndex = some (some tindex, allocated)) :
    (table.threads tindex).available = true ∧
      allocated =
        { table with
          threads := Function.update table.threads tindex
            { table.threads tindex with available := false }
          totalAliveThreads := table.totalAliveThreads + 1
          threadIndex := tindex + 1 } := by
  unfold allocThreadIndex at succeeded
  split at succeeded
  · simp at succeeded
  · obtain ⟨index, search, result⟩ := Option.map_eq_some_iff.mp succeeded
    rw [Prod.mk.injEq, Option.some.injEq] at result
    obtain ⟨rfl, rfl⟩ := result
    exact ⟨findAvailable_available search, rfl⟩

/-- An available position belongs to no alive thread. -/
theorem WellFormed.not_mem_of_available
    {table : ThreadTable}
    (wellFormed : table.WellFormed)
    {tindex : ThreadPosition}
    (available : (table.threads tindex).available = true) :
    tindex ∉ table.aliveThreadsList := by
  intro present
  rw [wellFormed.mem_alive_iff, available] at present
  exact absurd present (by decide)

/-- A counter below the limit leaves an available position. -/
theorem WellFormed.exists_available
    {table : ThreadTable}
    (wellFormed : table.WellFormed)
    (room : table.totalAliveThreads < maxAliveThreads) :
    ∃ position, (table.threads position).available = true := by
  by_contra taken
  rw [not_exists] at taken
  have listed : (Finset.univ : Finset ThreadPosition) ⊆
      table.aliveThreadsList.toFinset := by
    intro position _
    rw [List.mem_toFinset, wellFormed.mem_alive_iff]
    exact Bool.eq_false_iff.mpr (taken position)
  have counted : maxAliveThreads ≤ table.aliveThreadsList.length := by
    calc maxAliveThreads = (Finset.univ : Finset ThreadPosition).card := by
          rw [Finset.card_univ, Fintype.card_fin]
      _ ≤ table.aliveThreadsList.toFinset.card := Finset.card_le_card listed
      _ ≤ table.aliveThreadsList.length := List.toFinset_card_le _
  have total := wellFormed.total_eq
  omega

/-- An available position keeps the counter below the limit. -/
theorem WellFormed.room_of_available
    {table : ThreadTable}
    (wellFormed : table.WellFormed)
    {position : ThreadPosition}
    (available : (table.threads position).available = true) :
    table.totalAliveThreads < maxAliveThreads := by
  have absent := wellFormed.not_mem_of_available available
  have counted : table.aliveThreadsList.length + 1 ≤ maxAliveThreads := by
    have nodup : (position :: table.aliveThreadsList).Nodup :=
      List.nodup_cons.mpr ⟨absent, wellFormed.nodup⟩
    simpa using nodup.length_le_card
  have total := wellFormed.total_eq
  omega

/-- Allocation succeeds on a well-formed table that is not full. -/
theorem WellFormed.exists_allocThreadIndex
    {table : ThreadTable}
    (wellFormed : table.WellFormed)
    (room : table.totalAliveThreads < maxAliveThreads) :
    ∃ tindex allocated,
      table.allocThreadIndex = some (some tindex, allocated) := by
  obtain ⟨free, available⟩ := wellFormed.exists_available room
  obtain ⟨tindex, found⟩ := exists_findAvailable available table.threadIndex
  exact ⟨tindex, ThreadTable.exists_allocThreadIndex room found⟩

/-- Allocating a structure, filling it in and listing it keeps the table well
formed. -/
theorem WellFormed.create
    {table allocated : ThreadTable}
    {tindex : ThreadPosition}
    (wellFormed : table.WellFormed)
    (succeeded : table.allocThreadIndex = some (some tindex, allocated))
    (tid : Nat) :
    ((allocated.setThread tindex tid).insertTail tindex).WellFormed := by
  obtain ⟨available, rfl⟩ := allocThreadIndex_eq_some succeeded
  have absent := wellFormed.not_mem_of_available available
  constructor
  · intro position
    by_cases same : position = tindex
    · subst same
      simp
    · rw [insertTail_threads, setThread_threads_of_ne _ _ same]
      simp only [Function.update_of_ne same]
      exact wellFormed.index_eq position
  · simp only [insertTail_aliveThreadsList, setThread_aliveThreadsList]
    rw [← List.concat_eq_append]
    exact wellFormed.nodup.concat absent
  · intro position
    by_cases same : position = tindex
    · subst same
      simp
    · rw [insertTail_threads, setThread_threads_of_ne _ _ same]
      simp only [insertTail_aliveThreadsList, setThread_aliveThreadsList,
        List.mem_append, List.mem_singleton, same, or_false,
        Function.update_of_ne same]
      exact wellFormed.mem_alive_iff position
  · have total := wellFormed.total_eq
    simp only [insertTail_totalAliveThreads, setThread_totalAliveThreads,
      insertTail_aliveThreadsList, setThread_aliveThreadsList,
      List.length_append, List.length_singleton, Nat.cast_add, Nat.cast_one]
    omega

/-- Releasing the structure of an alive thread keeps the table well formed. -/
theorem WellFormed.release
    {table : ThreadTable}
    {position : ThreadPosition}
    (wellFormed : table.WellFormed)
    (alive : position ∈ table.aliveThreadsList) :
    (table.release position).WellFormed := by
  constructor
  · intro other
    by_cases same : other = position
    · subst same
      simpa using wellFormed.index_eq other
    · simpa [same] using wellFormed.index_eq other
  · exact wellFormed.nodup.erase position
  · intro other
    by_cases same : other = position
    · subst same
      simp [wellFormed.nodup.mem_erase_iff]
    · simpa [same, wellFormed.nodup.mem_erase_iff] using
        wellFormed.mem_alive_iff other
  · have length := List.length_erase_of_mem alive
    have positive := List.length_pos_of_mem alive
    have total := wellFormed.total_eq
    rw [release_totalAliveThreads, release_aliveThreadsList]
    omega

/-- The indices of the alive threads are the listed positions. -/
theorem WellFormed.map_index_aliveThreads
    {table : ThreadTable}
    (wellFormed : table.WellFormed) :
    table.aliveThreads.map Thread.index = table.aliveThreadsList := by
  rw [aliveThreads, List.map_map]
  exact List.map_id'' wellFormed.index_eq table.aliveThreadsList

theorem WellFormed.nodup_index
    {table : ThreadTable}
    (wellFormed : table.WellFormed) :
    (table.aliveThreads.map Thread.index).Nodup :=
  wellFormed.map_index_aliveThreads ▸ wellFormed.nodup

/-- A created thread comes last, and the others stay as they are. -/
theorem WellFormed.aliveThreads_create
    {table allocated : ThreadTable}
    {tindex : ThreadPosition}
    (wellFormed : table.WellFormed)
    (succeeded : table.allocThreadIndex = some (some tindex, allocated))
    (tid : Nat) :
    ((allocated.setThread tindex tid).insertTail tindex).aliveThreads =
      table.aliveThreads ++ [⟨tindex, tid, false⟩] := by
  obtain ⟨available, rfl⟩ := allocThreadIndex_eq_some succeeded
  have absent := wellFormed.not_mem_of_available available
  simp only [aliveThreads, insertTail_aliveThreadsList,
    setThread_aliveThreadsList, insertTail_threads, List.map_append,
    List.map_cons, List.map_nil, setThread_threads_self,
    Function.update_self]
  congr 1
  apply List.map_congr_left
  intro position member
  have different : position ≠ tindex := fun same => absent (same ▸ member)
  rw [setThread_threads_of_ne _ _ different]
  exact Function.update_of_ne different ..

/-- The alive threads after a release are those at the other positions. -/
theorem WellFormed.mem_aliveThreads_release
    {table : ThreadTable}
    {position : ThreadPosition}
    (wellFormed : table.WellFormed)
    {thread : Thread} :
    thread ∈ (table.release position).aliveThreads ↔
      thread ∈ table.aliveThreads ∧ thread.index ≠ position := by
  simp only [aliveThreads, release_aliveThreadsList, List.mem_map,
    wellFormed.nodup.mem_erase_iff]
  constructor
  · rintro ⟨other, ⟨different, member⟩, rfl⟩
    rw [release_threads_of_ne _ different]
    exact ⟨⟨other, member, rfl⟩, by rwa [wellFormed.index_eq]⟩
  · rintro ⟨⟨other, member, rfl⟩, different⟩
    rw [wellFormed.index_eq] at different
    exact ⟨other, ⟨different, member⟩, release_threads_of_ne _ different⟩

/-- Entering the initial thread into an empty table takes position zero. -/
theorem initializeInitialThread_eq
    {table : ThreadTable}
    (tid : Nat)
    (empty : table.totalAliveThreads = 0)
    (first : table.threadIndex = 0)
    (available : (table.threads 0).available = true) :
    initializeInitialThread tid table =
      { totalAliveThreads := 1
        threadIndex := 1
        threads := Function.update table.threads 0 ⟨0, tid, false⟩
        aliveThreadsList := table.aliveThreadsList ++ [0] } := by
  simp [initializeInitialThread, allocThreadIndex, findAvailable, setThread,
    insertTail, empty, first, available]

/-- Entering the initial thread into an empty table makes it well formed. -/
theorem wellFormed_initializeInitialThread
    {table : ThreadTable}
    (tid : Nat)
    (wellFormed : table.WellFormed)
    (empty : table.totalAliveThreads = 0) :
    (initializeInitialThread tid table).WellFormed := by
  obtain ⟨tindex, allocated, succeeded⟩ :=
    wellFormed.exists_allocThreadIndex (by rw [empty]; decide)
  rw [initializeInitialThread, succeeded]
  exact wellFormed.create succeeded tid

/-- The table `initialize` leaves: one alive thread at position zero. -/
theorem initializeTable_eq (tid : Nat) :
    initializeTable tid =
      { totalAliveThreads := 1
        threadIndex := 1
        threads := Function.update cleared.threads 0 ⟨0, tid, false⟩
        aliveThreadsList := [0] } :=
  initializeInitialThread_eq tid rfl rfl rfl

/-- The table `reInitializeAtRuntime` leaves. -/
theorem reInitializeAtRuntime_eq (tid : Nat) (table : ThreadTable) :
    table.reInitializeAtRuntime tid =
      { totalAliveThreads := 1
        threadIndex := 1
        threads := Function.update table.reset.threads 0 ⟨0, tid, false⟩
        aliveThreadsList := [0] } :=
  initializeInitialThread_eq tid rfl rfl rfl

theorem wellFormed_cleared : cleared.WellFormed :=
  ⟨fun _ => rfl, List.nodup_nil, by simp [cleared], rfl⟩

theorem wellFormed_reset (table : ThreadTable) : table.reset.WellFormed :=
  ⟨fun _ => rfl, List.nodup_nil, by simp [reset], rfl⟩

/-- The initial table is well formed. -/
theorem wellFormed_initializeTable (tid : Nat) :
    (initializeTable tid).WellFormed :=
  wellFormed_initializeInitialThread tid wellFormed_cleared rfl

/-- A table that has been initialised again is well formed. -/
theorem wellFormed_reInitializeAtRuntime (tid : Nat) (table : ThreadTable) :
    (table.reInitializeAtRuntime tid).WellFormed :=
  wellFormed_initializeInitialThread tid table.wellFormed_reset rfl

end ThreadTable

end Causer
