import Causer.EventLeaks
import Causer.PreemptionFailure

/-!
# An installation that is undone

The inner `setWatchpoint` installs and enables one watchpoint after the other
until a call fails, and then walks the list again from its start.  Between the
two loops some events are open besides those of before, one for each thread
that got a descriptor.  The first loop adds them, the second one takes them
away in the same order.
-/

namespace Causer

/-- The first of some threads at which `perf_event_open` or the `ENABLE` request
fails.  A thread without failure takes six calls, of which these are the first
and the last. -/
def firstFailure (environment : Environment) : Nat → Nat → Option Nat
  | 0, _ => none
  | left + 1, calls =>
      if environment.fails calls || environment.fails (calls + 5) then some 0
      else (firstFailure environment left (calls + 6)).map (· + 1)

/-- The events of some threads in a row. -/
def openedEvents (addr : Word) : Nat → List Thread → List PerfEvent
  | _, [] => []
  | serial, thread :: threads =>
      ⟨serial, addr, thread.tid⟩ :: openedEvents addr (serial + 1) threads

section Outcomes

variable (addr : Word) (threads : List Thread) (numWatchpoints : Int)
  (fd : Records) (kernel : Kernel) (outcome : Bool × Int × Records × Kernel)

/-- Every thread got its watchpoint. -/
structure InstalledAll : Prop where
  returned : outcome.1 = true
  counted : outcome.2.1 = atomicAddFetch numWatchpoints 1
  enabled : ∀ thread ∈ threads,
    Watching (outcome.2.2.1 thread.index) addr thread.tid ∧
      Manager.EnabledIn outcome.2.2.2 (outcome.2.2.1 thread.index)
  others : ∀ index ∉ threads.map Thread.index,
    outcome.2.2.1 index = fd index
  opened : outcome.2.2.2.opened = kernel.opened + threads.length
  closings : outcome.2.2.2.closings = kernel.closings

/-- The installation failed at a thread and left nothing behind. -/
structure Undone (failing : Nat) : Prop where
  returned : outcome.1 = false
  counted : outcome.2.1 = numWatchpoints
  cleared : ∀ thread ∈ threads.take (failing + 1),
    (outcome.2.2.1 thread.index).number = -1
  others : ∀ index ∉ (threads.take (failing + 1)).map Thread.index,
    outcome.2.2.1 index = fd index
  /-- The failing thread may or may not have got a descriptor.  Each of the
  events opened was closed once, and nothing else was. -/
  closed : ∃ (count : Nat) (closed : List Closing),
    failing ≤ count ∧ count ≤ failing + 1 ∧
    outcome.2.2.2.opened = kernel.opened + count ∧
    outcome.2.2.2.closings = closed.reverse ++ kernel.closings ∧
    closed.map Closing.file =
      (openedEvents addr kernel.opened (threads.take count)).map
        fun event => some (.perf event)
  files : ∀ number,
    outcome.2.2.2.files.lookup number = kernel.files.lookup number

end Outcomes

/-- Some events are open besides what was open before. -/
structure Holds (before : DescriptorTable File)
    (entries : List (Nat × PerfEvent)) (files : DescriptorTable File) :
    Prop where
  free : ∀ entry ∈ entries, before.lookup entry.1 = none
  nodup : (entries.map Prod.fst).Nodup
  held : ∀ entry ∈ entries, files.lookup entry.1 = some (.perf entry.2)
  others : ∀ number ∉ entries.map Prod.fst,
    files.lookup number = before.lookup number

namespace Holds

variable {before files : DescriptorTable File} {number : Nat}
  {event : PerfEvent} {entries : List (Nat × PerfEvent)}

theorem nil (files : DescriptorTable File) : Holds files [] files :=
  ⟨by simp, List.nodup_nil, by simp, fun _ _ => rfl⟩

/-- An event that is opened first. -/
theorem cons
    (isFree : before.lookup number = none)
    (holds : Holds (before.insert number (.perf event)) entries files) :
    Holds before ((number, event) :: entries) files := by
  have absent : number ∉ entries.map Prod.fst := by
    intro member
    obtain ⟨entry, inside, rfl⟩ := List.mem_map.mp member
    have taken := holds.free entry inside
    rw [DescriptorTable.lookup_insert_self] at taken
    cases taken
  have own := holds.others number absent
  rw [DescriptorTable.lookup_insert_self] at own
  have elsewhere : ∀ other ≠ number,
      (before.insert number (.perf event)).lookup other =
        before.lookup other := fun _ different =>
    DescriptorTable.lookup_insert_of_ne _ _ different
  constructor
  · intro entry member
    rcases List.mem_cons.mp member with rfl | inside
    · exact isFree
    · have different : entry.1 ≠ number := by
        rintro rfl
        exact absent (List.mem_map_of_mem inside)
      rw [← elsewhere _ different]
      exact holds.free entry inside
  · exact List.nodup_cons.mpr ⟨absent, holds.nodup⟩
  · intro entry member
    rcases List.mem_cons.mp member with rfl | inside
    · exact own
    · exact holds.held entry inside
  · intro other outside
    rw [List.map_cons, List.mem_cons, not_or] at outside
    rw [holds.others other outside.2, elsewhere other outside.1]

/-- The event opened first is closed. -/
theorem erase
    (holds : Holds before ((number, event) :: entries) files) :
    Holds before entries (files.erase number) := by
  have nodup := holds.nodup
  rw [List.map_cons, List.nodup_cons] at nodup
  constructor
  · exact fun entry member => holds.free entry (List.mem_cons_of_mem _ member)
  · exact nodup.2
  · intro entry member
    have different : entry.1 ≠ number := by
      rintro rfl
      exact nodup.1 (List.mem_map.mpr ⟨entry, member, rfl⟩)
    rw [DescriptorTable.lookup_erase_of_ne _ different]
    exact holds.held entry (List.mem_cons_of_mem _ member)
  · intro other outside
    by_cases same : other = number
    · rw [same, DescriptorTable.lookup_erase_self]
      exact (holds.free _ List.mem_cons_self).symm
    · rw [DescriptorTable.lookup_erase_of_ne _ same]
      apply holds.others
      rw [List.map_cons, List.mem_cons, not_or]
      exact ⟨same, outside⟩

end Holds

/-- The records of some threads have the descriptors of some events, in this
order; the records of the others are `-1`. -/
inductive Carries (fd : Records) :
    List Thread → List (Nat × PerfEvent) → Prop
  | nil : Carries fd [] []
  | vacant {thread : Thread} {threads : List Thread}
      {entries : List (Nat × PerfEvent)}
      (minusOne : (fd thread.index).number = -1)
      (rest : Carries fd threads entries) :
      Carries fd (thread :: threads) entries
  | held {thread : Thread} {threads : List Thread}
      {entries : List (Nat × PerfEvent)} {number : Nat} {event : PerfEvent}
      (above : 3 ≤ number)
      (record : (fd thread.index).number = number)
      (rest : Carries fd threads entries) :
      Carries fd (thread :: threads) ((number, event) :: entries)

/-- Only the records of the threads matter. -/
theorem Carries.congr
    {fd other : Records} {threads : List Thread}
    {entries : List (Nat × PerfEvent)}
    (carries : Carries fd threads entries)
    (same : ∀ thread ∈ threads, other thread.index = fd thread.index) :
    Carries other threads entries := by
  induction carries with
  | nil => exact .nil
  | vacant minusOne rest inductionHypothesis =>
      rw [List.forall_mem_cons] at same
      exact .vacant (same.1 ▸ minusOne) (inductionHypothesis same.2)
  | held above record rest inductionHypothesis =>
      rw [List.forall_mem_cons] at same
      exact .held above (same.1 ▸ record) (inductionHypothesis same.2)

section Loops

variable {environment : Environment} {addr : Word} {threads : List Thread}
  {fd after : Records} {kernel afterKernel : Kernel}
  {before : DescriptorTable File} {entries : List (Nat × PerfEvent)}
  {ret : Bool} {installednum : Nat}

/-- What the installing loop leaves behind. -/
structure Installing (environment : Environment) (addr : Word)
    (threads : List Thread) (fd : Records) (kernel : Kernel) (ret : Bool)
    (installednum : Nat) (after : Records) (afterKernel : Kernel)
    (entries : List (Nat × PerfEvent)) : Prop where
  runs : installThreads environment addr threads fd kernel =
    (ret, installednum, after, afterKernel)
  stopped : firstFailure environment threads.length kernel.calls =
    if ret then none else some installednum
  holds : Holds kernel.files entries afterKernel.files
  carries : Carries after (threads.take (installednum + 1)) entries
  others : ∀ index ∉ (threads.take (installednum + 1)).map Thread.index,
    after index = fd index
  opened : afterKernel.opened = kernel.opened + entries.length
  closings : afterKernel.closings = kernel.closings
  events : entries.map Prod.snd =
    openedEvents addr kernel.opened (threads.take entries.length)
  complete : ret = true →
    installednum = threads.length ∧ entries.length = threads.length
  atLeast : installednum ≤ entries.length
  atMost : entries.length ≤ installednum + 1

namespace Installing

variable {thread : Thread} {middle : Kernel} {record : Descriptor}

/-- No event can be opened for the first thread. -/
theorem of_not_opened
    (fails : environment.fails kernel.calls = true)
    (watches : watchThread environment addr thread.tid kernel =
      (false, .minusOne, kernel.tick)) :
    Installing environment addr (thread :: threads) fd kernel false 0
      (Function.update fd thread.index .minusOne) kernel.tick [] where
  runs := by
    rw [installThreads, watches]
    rfl
  stopped := by simp [firstFailure, fails]
  holds := .nil _
  carries := by
    refine .vacant ?_ .nil
    rw [Function.update_self, Descriptor.minusOne_number]
  others index outside := by
    rw [Function.update_of_ne]
    simpa using outside
  opened := rfl
  closings := rfl
  events := rfl
  complete := by simp
  atLeast := Nat.le_refl 0
  atMost := Nat.zero_le _

/-- The event of the first thread cannot be enabled. -/
theorem of_not_enabled
    (above : environment.AboveStandard)
    (fails : environment.fails (kernel.calls + 5) = true)
    (opening : kernel.Opened environment middle addr thread.tid)
    (watches : watchThread environment addr thread.tid kernel =
      (false, record, middle))
    (number : record.number = kernel.nextNumber environment) :
    Installing environment addr (thread :: threads) fd kernel false 0
      (Function.update fd thread.index record) middle
      [(kernel.nextNumber environment,
        kernel.nextEvent addr thread.tid)] where
  runs := by
    rw [installThreads, watches]
    rfl
  stopped := by simp [firstFailure, fails]
  holds := by
    refine .cons (environment.descriptor_free _ _) ?_
    rw [opening.files]
    exact .nil _
  carries := by
    refine .held (above _ _) ?_ .nil
    rw [Function.update_self, number]
  others index outside := by
    rw [Function.update_of_ne]
    simpa using outside
  opened := opening.opened
  closings := opening.closings
  events := rfl
  complete := by simp
  atLeast := Nat.zero_le _
  atMost := Nat.le_refl 1

/-- The first thread got its watchpoint. -/
theorem cons
    (above : environment.AboveStandard)
    (absent : thread.index ∉ threads.map Thread.index)
    (opens : environment.fails kernel.calls = false)
    (enables : environment.fails (kernel.calls + 5) = false)
    (opening : kernel.Opened environment middle addr thread.tid)
    (calls : middle.calls = kernel.calls + 6)
    (watches : watchThread environment addr thread.tid kernel =
      (true, record, middle))
    (number : record.number = kernel.nextNumber environment)
    (rest : Installing environment addr threads
      (Function.update fd thread.index record) middle ret installednum after
      afterKernel entries) :
    Installing environment addr (thread :: threads) fd kernel ret
      (installednum + 1) after afterKernel
      ((kernel.nextNumber environment, kernel.nextEvent addr thread.tid) ::
        entries) where
  runs := by
    rw [installThreads, watches]
    dsimp only
    rw [if_pos rfl, rest.runs]
  stopped := by
    have later := rest.stopped
    rw [calls] at later
    rw [List.length_cons, firstFailure, opens, enables, later]
    cases ret <;> rfl
  holds := by
    refine .cons (environment.descriptor_free _ _) ?_
    have holds := rest.holds
    rw [opening.files] at holds
    exact holds
  carries := by
    have own := rest.others thread.index fun member => absent (by
      rw [List.map_take] at member
      exact List.mem_of_mem_take member)
    refine .held (above _ _) ?_ rest.carries
    rw [own, Function.update_self, number]
  others index outside := by
    rw [List.take_succ_cons, List.map_cons, List.mem_cons, not_or] at outside
    rw [rest.others index outside.2, Function.update_of_ne outside.1]
  opened := by
    rw [rest.opened, opening.opened, List.length_cons]
    omega
  closings := rest.closings.trans opening.closings
  events := by
    rw [List.map_cons, List.length_cons, List.take_succ_cons, openedEvents,
      rest.events, opening.opened]
    rfl
  complete isComplete := by
    obtain ⟨installed, length⟩ := rest.complete isComplete
    simp [installed, length]
  atLeast := Nat.succ_le_succ rest.atLeast
  atMost := Nat.succ_le_succ rest.atMost

end Installing

/-- The loop stops at the first failure. -/
theorem exists_installing
    (addr : Word) (fd : Records)
    (above : environment.AboveStandard)
    (distinct : (threads.map Thread.index).Nodup)
    (clean : CleanInstalls environment threads.length kernel.calls) :
    ∃ ret installednum after afterKernel entries,
      Installing environment addr threads fd kernel ret installednum after
        afterKernel entries := by
  induction threads generalizing fd kernel with
  | nil =>
      exact ⟨true, 0, fd, kernel, [], rfl, rfl, .nil _, .nil, fun _ _ => rfl,
        rfl, rfl, rfl, fun _ => ⟨rfl, rfl⟩, le_rfl, Nat.zero_le _⟩
  | cons thread threads inductionHypothesis =>
      rw [List.map_cons, List.nodup_cons] at distinct
      rcases watchThread_cleanly clean.1 addr thread.tid with
        ⟨fails, watches⟩ | ⟨opens, middle, opening, calls, watches⟩
      · exact ⟨_, _, _, _, _, .of_not_opened fails watches⟩
      · cases enables : environment.fails (kernel.calls + 5) with
        | true =>
            rw [enables] at watches
            exact ⟨_, _, _, _, _,
              .of_not_enabled above enables opening watches rfl⟩
        | false =>
            rw [enables] at watches
            have later := clean.2 opens enables
            rw [← calls] at later
            obtain ⟨ret, installednum, after, afterKernel, entries, rest⟩ :=
              inductionHypothesis _ distinct.2 later
            exact ⟨_, _, _, _, _, .cons above distinct.1 opens enables opening
              calls watches rfl rest⟩

/-- The records of an installation for all threads are watching and open. -/
theorem installThreads_enabled
    (above : environment.AboveStandard)
    (distinct : (threads.map Thread.index).Nodup)
    (installs : installThreads environment addr threads fd kernel =
      (true, installednum, after, afterKernel)) :
    ∀ thread ∈ threads, Watching (after thread.index) addr thread.tid ∧
      Manager.EnabledIn afterKernel (after thread.index) := by
  induction threads generalizing fd kernel installednum with
  | nil => simp
  | cons thread threads inductionHypothesis =>
      rw [List.map_cons, List.nodup_cons] at distinct
      obtain ⟨watched, record, middle, watches, -, -, outcome⟩ :=
        watchThread_cases environment addr thread.tid kernel
      rw [installThreads, watches] at installs
      cases watched with
      | false => simp at installs
      | true =>
          rcases rest : installThreads environment addr threads
            (Function.update fd thread.index record) middle with
            ⟨restRet, restNum, restFd, restKernel⟩
          simp only [if_true, rest, Prod.mk.injEq] at installs
          obtain ⟨rfl, -, rfl, rfl⟩ := installs
          have own := installThreads_of_not_mem environment addr distinct.1
            (Function.update fd thread.index record) middle
          rw [rest, Function.update_self] at own
          dsimp only at own
          have kept := (Manager.installThreads_kept distinct.2 rest).1
          rw [List.forall_mem_cons, own]
          refine ⟨?_, inductionHypothesis distinct.2 rest⟩
          rcases outcome with ⟨failed, -⟩ | ⟨opening, ⟨failed, -⟩ | rfl⟩
          · cases failed
          · cases failed
          · refine ⟨⟨Int.ofNat_le.mpr (above _ _), rfl, _, rfl, rfl, rfl⟩, rfl,
              _, rfl, kept _ _ ?_⟩
            rw [opening.files]
            exact DescriptorTable.lookup_insert_self ..

/-- Undoing an installation does not write the records of other threads. -/
theorem rollbackThreads_of_not_mem
    (environment : Environment)
    {index : ThreadPosition}
    (fd : Records) (kernel : Kernel)
    (absent : index ∉ (threads.take (installednum + 1)).map Thread.index) :
    (rollbackThreads environment threads installednum fd kernel).1 index =
      fd index := by
  induction threads generalizing installednum fd kernel with
  | nil => rfl
  | cons thread threads inductionHypothesis =>
      rw [List.take_succ_cons, List.map_cons, List.mem_cons, not_or] at absent
      obtain ⟨between, middle, round, step⟩ := rollbackThreads_cons
        environment thread threads installednum fd kernel
      have same : between index = fd index := by
        rcases round with ⟨rfl, -⟩ | ⟨-, rfl, -⟩
        · exact Function.update_of_ne absent.1 ..
        · rfl
      rw [step]
      cases installednum with
      | zero => exact same
      | succ left => exact (inductionHypothesis _ _ absent.2).trans same

/-- One round closes the event that the record of its thread holds, if it holds
one. -/
theorem rollback_round
    {thread : Thread} {others : List Thread}
    {between : Records} {middle : Kernel}
    (absent : thread.index ∉ others.map Thread.index)
    (holds : Holds before entries kernel.files)
    (carries : Carries fd (thread :: others) entries)
    (round : between = Function.update fd thread.index .minusOne ∧
        middle = (disableWatchpoint environment (fd thread.index) kernel).2 ∨
      (fd thread.index).number = -1 ∧ between = fd ∧ middle = kernel) :
    ∃ (closed : List Closing) (rest : List (Nat × PerfEvent)),
      middle.closings = closed.reverse ++ kernel.closings ∧
        closed.map Closing.file ++
            rest.map (fun entry => some (.perf entry.2)) =
          entries.map (fun entry => some (.perf entry.2)) ∧
        middle.opened = kernel.opened ∧
        Holds before rest middle.files ∧
        Carries between others rest := by
  have kept : ∀ {rest : List (Nat × PerfEvent)}, Carries fd others rest →
      Carries between others rest := by
    refine fun rest => rest.congr fun other member => ?_
    rcases round with ⟨rfl, -⟩ | ⟨-, rfl, -⟩
    · rw [Function.update_of_ne]
      rintro same
      exact absent (same ▸ List.mem_map_of_mem member)
    · rfl
  cases carries with
  | vacant minusOne rest =>
      have same : middle = kernel := by
        rcases round with ⟨-, rfl⟩ | ⟨-, -, rfl⟩
        · rw [disableWatchpoint_of_lt environment (by omega)]
        · rfl
      exact ⟨[], entries, by rw [same]; rfl, rfl, by rw [same],
        by rw [same]; exact holds, kept rest⟩
  | @held _ _ rest number event above record carried =>
      rcases round with ⟨rfl, rfl⟩ | ⟨minusOne, -⟩
      · have atLeast : 3 ≤ (fd thread.index).number := by omega
        obtain ⟨result, disabled, -⟩ :=
          disableWatchpoint_of_ge environment atLeast kernel
        have toNat : (fd thread.index).number.toNat = number := by omega
        have file := holds.held _ List.mem_cons_self
        rw [disabled]
        refine ⟨[⟨fd thread.index,
          kernel.files.lookup (fd thread.index).number.toNat⟩], rest, rfl, ?_,
          rfl, ?_, kept carried⟩
        · simp only [toNat, file, List.map_cons, List.map_nil,
            List.singleton_append]
        · rw [Kernel.closed, toNat]
          exact holds.erase
      · omega

/-- Undoing an installation closes each of its events once. -/
theorem rollbackThreads_closes
    (environment : Environment)
    (distinct : (threads.map Thread.index).Nodup)
    (holds : Holds before entries kernel.files)
    (carries : Carries fd (threads.take (installednum + 1)) entries) :
    ∃ closed : List Closing,
      (rollbackThreads environment threads installednum fd kernel).2.closings =
          closed.reverse ++ kernel.closings ∧
        closed.map Closing.file =
          entries.map (fun entry => some (.perf entry.2)) ∧
        (rollbackThreads environment threads installednum fd kernel).2.opened =
          kernel.opened ∧
        Holds before []
          (rollbackThreads environment threads installednum fd
            kernel).2.files := by
  induction threads generalizing installednum fd kernel entries with
  | nil =>
      cases carries
      exact ⟨[], rfl, rfl, rfl, holds⟩
  | cons thread threads inductionHypothesis =>
      rw [List.map_cons, List.nodup_cons] at distinct
      rw [List.take_succ_cons] at carries
      obtain ⟨between, middle, round, step⟩ := rollbackThreads_cons
        environment thread threads installednum fd kernel
      have absent : thread.index ∉
          (threads.take installednum).map Thread.index := by
        rw [List.map_take]
        exact fun member => distinct.1 (List.mem_of_mem_take member)
      obtain ⟨first, rest, closings, files, opened, held, carried⟩ :=
        rollback_round absent holds carries round
      rw [step]
      cases installednum with
      | zero =>
          cases carried
          refine ⟨first, closings, ?_, opened, held⟩
          simpa using files
      | succ left =>
          obtain ⟨later, laterClosings, laterFiles, laterOpened, laterHeld⟩ :=
            inductionHypothesis distinct.2 held carried
          refine ⟨first ++ later, ?_, ?_, laterOpened.trans opened, laterHeld⟩
          · rw [laterClosings, closings, List.reverse_append,
              List.append_assoc]
          · rw [List.map_append, laterFiles, files]

end Loops

/-- The inner `setWatchpoint` does everything or, from the first failure on,
undoes everything. -/
theorem setWatchpointFds_undoes
    {environment : Environment} {threads : List Thread} {kernel : Kernel}
    (above : environment.AboveStandard)
    (distinct : (threads.map Thread.index).Nodup)
    (clean : CleanInstalls environment threads.length kernel.calls)
    (addr : Word) (numWatchpoints : Int) (fd : Records) :
    match firstFailure environment threads.length kernel.calls with
    | none => InstalledAll addr threads numWatchpoints fd kernel
        (setWatchpointFds environment addr threads numWatchpoints fd kernel)
    | some failing => Undone addr threads numWatchpoints fd kernel
        (setWatchpointFds environment addr threads numWatchpoints fd kernel)
        failing := by
  obtain ⟨ret, installednum, after, afterKernel, entries, installing⟩ :=
    exists_installing addr fd above distinct clean
  rw [installing.stopped]
  cases ret with
  | true =>
      obtain ⟨all, length⟩ := installing.complete rfl
      have others := installing.others
      rw [all, List.take_of_length_le (Nat.le_succ _)] at others
      rw [Manager.setWatchpointFds_of_installed installing.runs]
      exact ⟨rfl, rfl,
        installThreads_enabled above distinct installing.runs, others,
        length ▸ installing.opened, installing.closings⟩
  | false =>
      obtain ⟨closed, closings, files, opened, held⟩ :=
        rollbackThreads_closes environment distinct installing.holds
          installing.carries
      rw [Manager.setWatchpointFds_of_stopped installing.runs]
      refine ⟨rfl, rfl, ?_, ?_, ⟨entries.length, closed, installing.atLeast,
        installing.atMost, ?_, ?_, ?_⟩, ?_⟩
      · intro thread member
        exact rollbackThreads_fd environment after afterKernel
          (Or.inl (List.mem_map_of_mem member))
      · intro index absent
        exact (rollbackThreads_of_not_mem environment after afterKernel
          absent).trans (installing.others index absent)
      · exact opened.trans installing.opened
      · exact closings.trans (by rw [installing.closings])
      · rw [files, ← installing.events, List.map_map]
        rfl
      · exact fun number => held.others number List.not_mem_nil

/-- A kernel that refuses to enable the second of three watchpoints. -/
def secondRefused : Environment :=
  { Manager.nonstandardEnvironment with fails := fun call => call = 11 }

def threeThreads : List Thread :=
  [⟨0, 1, false⟩, ⟨1, 2, false⟩, ⟨2, 3, false⟩]

def noneOpened : Kernel := ⟨.empty, 0, 0, []⟩

/-- The first two threads are undone, and the third is left alone. -/
theorem setWatchpointFds_threeThreads :
    Undone 0x1000 threeThreads 0 (fun _ => .zero) noneOpened
      (setWatchpointFds secondRefused 0x1000 threeThreads 0 (fun _ => .zero)
        noneOpened) 1 := by
  have above : secondRefused.AboveStandard :=
    Manager.aboveStandard_nonstandardEnvironment
  have distinct : (threeThreads.map Thread.index).Nodup := by decide
  have clean : CleanInstalls secondRefused threeThreads.length
      noneOpened.calls := by decide
  have undoes :=
    setWatchpointFds_undoes above distinct clean 0x1000 0 fun _ => .zero
  have fails : firstFailure secondRefused threeThreads.length
      noneOpened.calls = some 1 := by decide
  rw [fails] at undoes
  exact undoes

end Causer
