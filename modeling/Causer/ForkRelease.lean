import Causer.WatchCoverage
import Causer.OwnershipLoops
import Mathlib.Data.Finset.Card

/-!
# Releasing the slots before a fork

`fork` calls `disableWatchpointByAddr` once for each slot, with the address the
slot watches.  The lookup behind that call compares start addresses of objects,
so a call releases some slot whose object starts where another slot watches.
All slots are released exactly when there are enough such calls for each start
address and every record can be closed.
-/

namespace Causer

namespace Manager

variable (environment : Environment)

/-- The loop of `fork` over the slots that are left. -/
def forkLoop : List SlotPosition → Manager → Manager
  | [], manager => manager
  | slot :: slots, manager =>
      forkLoop slots
        (disableWatchpointByAddr environment (manager.wp slot).addr manager)

/-- `fork` up to the real fork. -/
def beforeFork (manager : Manager) : Manager :=
  forkLoop environment slotPositions manager

/-- The child of `fork` after `reInitializeAtRuntime`. -/
def forkChild (tid : Nat) (manager : Manager) : Manager :=
  { beforeFork environment manager with
    threads :=
      (beforeFork environment manager).threads.reInitializeAtRuntime tid }

/-- A record's descriptor has been closed. -/
def ClosedIn (manager : Manager) (record : Descriptor) : Prop :=
  3 ≤ record.number ∧ manager.kernel.files.lookup record.number.toNat = none

/-- When `fork` reaches the real fork, no slot is used and everything that was
recorded for alive threads is closed, and the child starts with one thread and
no used slot. -/
structure ForksClean (tid : Nat) (manager : Manager) : Prop where
  /-- No slot is used. -/
  unused : ∀ slot, ((beforeFork environment manager).wp slot).isUsed = false
  /-- What used slots recorded for alive threads is closed. -/
  closed : ∀ slot, (manager.wp slot).isUsed = true →
    ∀ thread ∈ manager.threads.aliveThreads,
      ClosedIn (beforeFork environment manager)
        ((manager.wp slot).fd thread.index)
  /-- The child has one thread, at index zero. -/
  alone : (forkChild environment tid manager).threads.aliveThreadsList = [0]
  /-- The child has no used slot. -/
  childUnused : ∀ slot,
    ((forkChild environment tid manager).wp slot).isUsed = false

/-- Every record of a slot for an alive thread can be closed. -/
def Closable (manager : Manager) (slot : SlotPosition) : Prop :=
  ∀ thread ∈ manager.threads.aliveThreads,
    3 ≤ ((manager.wp slot).fd thread.index).number

/-- The used slots whose object starts at an address. -/
def usedAt (manager : Manager) (addr : Word) : Finset SlotPosition :=
  Finset.univ.filter fun slot =>
    (manager.wp slot).isUsed = true ∧ (manager.wp slot).objectstart = addr

/-- Every used slot can be closed, and for each start address there are at least
as many slots with that watched address as used slots with that start. -/
structure Releasable (manager : Manager) : Prop where
  closable : ∀ slot, (manager.wp slot).isUsed = true → Closable manager slot
  enough : ∀ addr, (usedAt manager addr).card ≤
    slotPositions.countP fun slot => (manager.wp slot).addr = addr

section Threads

variable {threads : List Thread} {fd : Records}

/-- Disabling a descriptor opens none. -/
theorem disableWatchpoint_lookup_none
    {record : Descriptor} {kernel : Kernel} {number : Nat}
    (free : kernel.files.lookup number = none) :
    (disableWatchpoint environment record kernel).2.files.lookup number =
      none := by
  rcases Int.lt_or_le record.number 3 with standard | above
  · rw [disableWatchpoint_of_lt environment standard]
    exact free
  · obtain ⟨result, disabled, -⟩ :=
      disableWatchpoint_of_ge environment above kernel
    rw [disabled]
    by_cases same : number = record.number.toNat
    · rw [same]
      exact DescriptorTable.lookup_erase_self ..
    · exact (DescriptorTable.lookup_erase_of_ne _ same).trans free

/-- The releasing loop opens no descriptor. -/
theorem disableThreads_lookup_none
    {kernel : Kernel} {number : Nat}
    (free : kernel.files.lookup number = none) :
    (disableThreads environment threads fd kernel).2.2.files.lookup number =
      none := by
  induction threads generalizing fd kernel with
  | nil => exact free
  | cons thread threads inductionHypothesis =>
      exact inductionHypothesis (disableWatchpoint_lookup_none environment free)

/-- The releasing loop closes every record from three on. -/
theorem disableThreads_closes
    (distinct : (threads.map Thread.index).Nodup)
    {thread : Thread}
    (member : thread ∈ threads)
    (above : 3 ≤ (fd thread.index).number)
    (kernel : Kernel) :
    (disableThreads environment threads fd kernel).2.2.files.lookup
      (fd thread.index).number.toNat = none := by
  induction threads generalizing fd kernel with
  | nil => exact absurd member List.not_mem_nil
  | cons first threads inductionHypothesis =>
      rw [List.map_cons, List.nodup_cons] at distinct
      rw [disableThreads]
      rcases List.mem_cons.mp member with rfl | later
      · apply disableThreads_lookup_none environment
        obtain ⟨result, disabled, -⟩ :=
          disableWatchpoint_of_ge environment above kernel
        rw [disabled]
        exact DescriptorTable.lookup_erase_self ..
      · have different : thread.index ≠ first.index := fun same =>
          distinct.1 (same ▸ List.mem_map_of_mem later)
        have kept : Function.update fd first.index .minusOne thread.index =
            fd thread.index := Function.update_of_ne different ..
        rw [← kept] at above ⊢
        exact inductionHypothesis distinct.2 later above _

end Threads

section Calls

variable {environment} {manager : Manager}

theorem mem_usedAt {addr : Word} {slot : SlotPosition} :
    slot ∈ usedAt manager addr ↔
      (manager.wp slot).isUsed = true ∧
        (manager.wp slot).objectstart = addr := by
  simp [usedAt]

/-- What a call of `disableWatchpointByAddr` that finds a slot does. -/
structure Attempted (environment : Environment) (manager next : Manager)
    (slot : SlotPosition) : Prop where
  threads : next.threads = manager.threads
  others : ∀ other ≠ slot, next.wp other = manager.wp other
  addr : (next.wp slot).addr = (manager.wp slot).addr
  objectstart : (next.wp slot).objectstart = (manager.wp slot).objectstart
  /-- A slot that can be closed is released, and its descriptors are. -/
  released : Closable manager slot → (next.wp slot).isUsed = false ∧
    ∀ thread ∈ manager.threads.aliveThreads,
      next.kernel.files.lookup
        ((manager.wp slot).fd thread.index).number.toNat = none
  /-- Another slot stays in use, without records. -/
  stuck : ¬Closable manager slot →
    (next.wp slot).isUsed = (manager.wp slot).isUsed ∧
      ∀ thread ∈ manager.threads.aliveThreads,
        (next.wp slot).fd thread.index = .minusOne
  /-- No descriptor is opened. -/
  free : ∀ number, manager.kernel.files.lookup number = none →
    next.kernel.files.lookup number = none

/-- Disabling a slot attempts it. -/
theorem attempted_disableWatchpointObject
    (wellFormed : manager.threads.WellFormed)
    (slot : SlotPosition) :
    Attempted environment manager
      (disableWatchpointObject environment slot manager).2 slot := by
  obtain ⟨ret, fd, kernel, disabled, result⟩ :=
    disableWatchpointObject_eq environment slot manager
  have distinct := wellFormed.nodup_index
  rw [result]
  refine
    { threads := rfl
      others := fun other different => Function.update_of_ne different ..
      addr := by simp
      objectstart := by simp
      released := fun closable => ?_
      stuck := fun notClosable => ?_
      free := fun number isFree => ?_ }
  · have succeeds := (disableThreads_fst environment distinct _
      manager.kernel).mpr closable
    rw [disabled] at succeeds
    refine ⟨by simp [show ret = true from succeeds], ?_⟩
    intro thread alive
    have closed := disableThreads_closes environment distinct alive
      (closable thread alive) manager.kernel
    rwa [disabled] at closed
  · have fails := mt (disableThreads_fst environment distinct _
      manager.kernel).mp notClosable
    rw [disabled, Bool.not_eq_true] at fails
    refine ⟨by simp [show ret = false from fails], ?_⟩
    intro other otherAlive
    have cleared := disableThreads_fd environment (manager.wp slot).fd
      manager.kernel (Or.inl (List.mem_map_of_mem otherAlive))
    rw [disabled] at cleared
    simpa using cleared
  · change kernel.files.lookup number = none
    have after : kernel = (disableThreads environment
        manager.threads.aliveThreads (manager.wp slot).fd
        manager.kernel).2.2 := by rw [disabled]
    rw [after]
    exact disableThreads_lookup_none environment isFree

/-- A call either finds no slot, or attempts one of those it looks for. -/
theorem disableWatchpointByAddr_cases
    (wellFormed : manager.threads.WellFormed)
    (addr : Word) :
    usedAt manager addr = ∅ ∧
        disableWatchpointByAddr environment addr manager = manager ∨
      ∃ slot ∈ usedAt manager addr,
        Attempted environment manager
          (disableWatchpointByAddr environment addr manager) slot := by
  rw [disableWatchpointByAddr]
  cases found : manager.getWatchpointObjectByAddr addr with
  | none =>
      refine Or.inl ⟨?_, rfl⟩
      rw [getWatchpointObjectByAddr, List.find?_eq_none] at found
      ext slot
      have notFound := found slot (List.mem_finRange slot)
      simpa [mem_usedAt] using notFound
  | some slot =>
      rw [getWatchpointObjectByAddr] at found
      have matched := List.find?_some found
      simp only [Bool.and_eq_true, decide_eq_true_eq] at matched
      refine Or.inr ⟨slot, mem_usedAt.mpr matched, ?_⟩
      simp only [disableSection, if_pos (And.intro matched.1 matched.2.symm)]
      exact attempted_disableWatchpointObject wellFormed slot

/-- One call for each of a list of addresses. -/
def disableAddrs (environment : Environment) :
    List Word → Manager → Manager
  | [], manager => manager
  | addr :: addrs, manager =>
      disableAddrs environment addrs
        (disableWatchpointByAddr environment addr manager)

/-- A call leaves the watched addresses, the start addresses and the threads. -/
theorem disableWatchpointByAddr_frame
    (wellFormed : manager.threads.WellFormed)
    (addr : Word) :
    (disableWatchpointByAddr environment addr manager).threads =
        manager.threads ∧
      ∀ slot,
        ((disableWatchpointByAddr environment addr manager).wp slot).addr =
            (manager.wp slot).addr ∧
          ((disableWatchpointByAddr environment addr manager).wp
            slot).objectstart = (manager.wp slot).objectstart := by
  rcases disableWatchpointByAddr_cases wellFormed addr with
    ⟨-, same⟩ | ⟨found, -, attempted⟩
  · rw [same]
    exact ⟨rfl, fun _ => ⟨rfl, rfl⟩⟩
  · refine ⟨attempted.threads, fun slot => ?_⟩
    by_cases same : slot = found
    · subst same
      exact ⟨attempted.addr, attempted.objectstart⟩
    · rw [attempted.others slot same]
      exact ⟨rfl, rfl⟩

/-- The loop of `fork` disables the addresses its slots watch at the start. -/
theorem forkLoop_eq
    (wellFormed : manager.threads.WellFormed)
    (slots : List SlotPosition) :
    forkLoop environment slots manager =
      disableAddrs environment
        (slots.map fun slot => (manager.wp slot).addr) manager := by
  induction slots generalizing manager with
  | nil => rfl
  | cons slot slots inductionHypothesis =>
      obtain ⟨threads, addrs⟩ := disableWatchpointByAddr_frame
        wellFormed (manager.wp slot).addr
      rw [forkLoop, inductionHypothesis (threads ▸ wellFormed), List.map_cons,
        disableAddrs]
      congr 1
      exact List.map_congr_left fun other _ => (addrs other).1

/-- A used slot that cannot be closed. -/
def Stuck (manager : Manager) (slot : SlotPosition) : Prop :=
  (manager.wp slot).isUsed = true ∧ ¬Closable manager slot

/-- A slot that cannot be closed stays in use through every call. -/
theorem Stuck.disableAddrs
    (wellFormed : manager.threads.WellFormed)
    {slot : SlotPosition}
    (stuck : Stuck manager slot)
    (addrs : List Word) :
    Stuck (disableAddrs environment addrs manager) slot := by
  induction addrs generalizing manager with
  | nil => exact stuck
  | cons addr addrs inductionHypothesis =>
      rcases disableWatchpointByAddr_cases wellFormed addr with
        ⟨-, same⟩ | ⟨found, -, attempted⟩
      · rw [Manager.disableAddrs, same]
        exact inductionHypothesis wellFormed stuck
      · rw [Manager.disableAddrs]
        apply inductionHypothesis (attempted.threads ▸ wellFormed)
        obtain ⟨used, notClosable⟩ := stuck
        by_cases same : slot = found
        · subst same
          obtain ⟨kept, cleared⟩ := attempted.stuck notClosable
          refine ⟨kept.trans used, fun closable => ?_⟩
          simp only [Closable, not_forall, not_le] at notClosable
          obtain ⟨thread, alive, -⟩ := notClosable
          have above := closable thread (attempted.threads ▸ alive)
          rw [cleared thread alive, Descriptor.minusOne_number] at above
          omega
        · rw [Stuck, Closable, attempted.others slot same, attempted.threads]
          exact ⟨used, notClosable⟩

/-- Every used slot can be closed. -/
def AllClosable (manager : Manager) : Prop :=
  ∀ slot, (manager.wp slot).isUsed = true → Closable manager slot

/-- A call on slots that can all be closed releases one slot that starts at its
address, if there is one. -/
theorem AllClosable.disableWatchpointByAddr
    (wellFormed : manager.threads.WellFormed)
    (allClosable : AllClosable manager)
    (addr : Word) :
    AllClosable (disableWatchpointByAddr environment addr manager) ∧
      ∀ other,
        (usedAt (disableWatchpointByAddr environment addr manager)
            other).card =
          (usedAt manager other).card - if addr = other then 1 else 0 := by
  rcases disableWatchpointByAddr_cases wellFormed addr with
    ⟨empty, same⟩ | ⟨found, member, attempted⟩
  · rw [same]
    refine ⟨allClosable, fun other => ?_⟩
    split
    · next equal =>
        subst equal
        rw [empty]
        rfl
    · rfl
  · have isFound := mem_usedAt.mp member
    obtain ⟨unused, -⟩ := attempted.released (allClosable found isFound.1)
    constructor
    · intro slot used
      have different : slot ≠ found := by
        rintro rfl
        rw [unused] at used
        exact absurd used (by simp)
      rw [attempted.others slot different] at used
      rw [Closable, attempted.others slot different, attempted.threads]
      exact allClosable slot used
    · intro other
      have erased : usedAt
          (Manager.disableWatchpointByAddr environment addr manager) other =
            (usedAt manager other).erase found := by
        ext slot
        by_cases same : slot = found
        · subst same
          simp [mem_usedAt, unused]
        · simp [mem_usedAt, same, attempted.others slot same]
      rw [erased]
      split
      · next equal =>
          subst equal
          exact Finset.card_erase_of_mem member
      · next different =>
          rw [Finset.erase_eq_of_notMem]
          · rfl
          · rw [mem_usedAt, isFound.2]
            exact fun both => different both.2

/-- Calls on slots that can all be closed release as many of the slots that
start at an address as there are calls with it. -/
theorem AllClosable.card_usedAt
    (wellFormed : manager.threads.WellFormed)
    (allClosable : AllClosable manager)
    (addrs : List Word) (other : Word) :
    (usedAt (disableAddrs environment addrs manager) other).card =
      (usedAt manager other).card - addrs.count other := by
  induction addrs generalizing manager with
  | nil => rfl
  | cons addr addrs inductionHypothesis =>
      obtain ⟨kept, card⟩ :=
        allClosable.disableWatchpointByAddr wellFormed addr
      obtain ⟨threads, -⟩ :=
        disableWatchpointByAddr_frame wellFormed addr
      rw [disableAddrs, inductionHypothesis (threads ▸ wellFormed) kept,
        card other, List.count_cons, Nat.sub_sub, Nat.add_comm]
      simp

/-- Through every call, a slot is as it was or what it recorded is closed. -/
theorem AllClosable.closes
    (wellFormed : manager.threads.WellFormed)
    (allClosable : AllClosable manager)
    {slot : SlotPosition} {object : WatchpointObject}
    (progress : manager.wp slot = object ∨
      ∀ thread ∈ manager.threads.aliveThreads,
        manager.kernel.files.lookup (object.fd thread.index).number.toNat =
          none)
    (addrs : List Word) :
    (disableAddrs environment addrs manager).wp slot = object ∨
      ∀ thread ∈ manager.threads.aliveThreads,
        (disableAddrs environment addrs manager).kernel.files.lookup
          (object.fd thread.index).number.toNat = none := by
  induction addrs generalizing manager with
  | nil => exact progress
  | cons addr addrs inductionHypothesis =>
      rw [disableAddrs]
      have kept : AllClosable
          (Manager.disableWatchpointByAddr environment addr manager) :=
        (allClosable.disableWatchpointByAddr wellFormed addr).1
      rcases disableWatchpointByAddr_cases wellFormed addr with
        ⟨-, same⟩ | ⟨found, member, attempted⟩
      · rw [same]
        exact inductionHypothesis wellFormed allClosable progress
      · rw [← attempted.threads]
        apply inductionHypothesis (attempted.threads ▸ wellFormed) kept
        rw [attempted.threads]
        rcases progress with unchanged | closed
        · by_cases same : slot = found
          · subst same
            have used := (mem_usedAt.mp member).1
            rw [← unchanged]
            exact Or.inr (attempted.released (allClosable slot used)).2
          · exact Or.inl ((attempted.others slot same).trans unchanged)
        · exact Or.inr fun thread alive =>
            attempted.free _ (closed thread alive)

/-- Calls on slots that can all be closed leave a slot unused exactly when there
are enough of them for its start address. -/
theorem AllClosable.unused_iff
    (wellFormed : manager.threads.WellFormed)
    (allClosable : AllClosable manager)
    (addrs : List Word) :
    (∀ slot,
        ((disableAddrs environment addrs manager).wp slot).isUsed = false) ↔
      ∀ addr, (usedAt manager addr).card ≤ addrs.count addr := by
  have card : ∀ other,
      (usedAt (disableAddrs environment addrs manager) other).card = _ :=
    allClosable.card_usedAt wellFormed addrs
  constructor
  · intro unused addr
    have empty :
        usedAt (disableAddrs environment addrs manager) addr = ∅ := by
      ext slot
      simp [mem_usedAt, unused slot]
    have counted := card addr
    rw [empty, Finset.card_empty] at counted
    omega
  · intro enough slot
    by_contra used
    rw [Bool.not_eq_false] at used
    have member := mem_usedAt.mpr ⟨used, rfl⟩
    have positive := Finset.card_pos.mpr ⟨slot, member⟩
    rw [card] at positive
    have bound := enough
      ((disableAddrs environment addrs manager).wp slot).objectstart
    omega

end Calls

variable {environment} in
/-- In every state a run reaches, `fork` releases all slots exactly when every
used slot can be closed and for each start address enough slots watch it. -/
theorem forksClean_iff
    {files : DescriptorTable File} {tid childTid : Nat}
    {actions : List Action} {final : Manager}
    (executed : run environment (start files tid) actions = some final) :
    ForksClean environment childTid final ↔ Releasable final := by
  have wellFormed : final.threads.WellFormed :=
    Machine.run_invariant_of_step
      (fun _ _ _ holds stepped => step_wellFormed holds stepped)
      (ThreadTable.wellFormed_initializeTable tid) executed
  have loop : forkLoop environment slotPositions final = _ :=
    forkLoop_eq wellFormed slotPositions
  have count : ∀ addr,
      (slotPositions.map fun slot => (final.wp slot).addr).count addr =
        slotPositions.countP fun slot => (final.wp slot).addr = addr := by
    intro addr
    rw [List.count, List.countP_map]
    rfl
  constructor
  · intro clean
    have unused := clean.unused
    rw [beforeFork, loop] at unused
    have closable : AllClosable final := by
      intro slot used
      by_contra notClosable
      have stuck : Stuck final slot := ⟨used, notClosable⟩
      have still : ((disableAddrs environment _ final).wp slot).isUsed = true :=
        (stuck.disableAddrs wellFormed
          (slotPositions.map fun slot => (final.wp slot).addr)).1
      rw [unused slot] at still
      exact absurd still (by simp)
    refine ⟨closable, fun addr => ?_⟩
    rw [← count]
    exact (closable.unused_iff wellFormed _).mp unused addr
  · intro releasable
    have closable : AllClosable final := releasable.closable
    have unused : ∀ slot,
        ((beforeFork environment final).wp slot).isUsed = false := by
      rw [beforeFork, loop, closable.unused_iff wellFormed]
      intro addr
      rw [count]
      exact releasable.enough addr
    refine
      { unused := unused
        closed := fun slot used thread alive =>
          ⟨releasable.closable slot used thread alive, ?_⟩
        alone := ?_
        childUnused := unused }
    · have progress : (disableAddrs environment _ final).wp slot =
          final.wp slot ∨ _ :=
        closable.closes wellFormed (Or.inl rfl)
          (slotPositions.map fun slot => (final.wp slot).addr)
      rw [← loop] at progress
      rcases progress with unchanged | closed
      · have stillUsed := unused slot
        rw [beforeFork, unchanged, used] at stillUsed
        exact absurd stillUsed (by simp)
      · exact closed thread alive
    · exact congrArg ThreadTable.aliveThreadsList
        (ThreadTable.reInitializeAtRuntime_eq tid _)

/-- One watchpoint on an object of sixteen bytes. -/
def watchOne : List Action :=
  [.setSection (fun _ => 0) (sampleRequest 0x1000 1 false) 0]

theorem forksClean_iff_watchOne :
    (run steadyEnvironment (start standardFiles 1) watchOne).isSome = true ∧
      ∀ final ∈ run steadyEnvironment (start standardFiles 1) watchOne,
        ForksClean steadyEnvironment 7 final ↔ Releasable final :=
  ⟨by decide +kernel, fun _ executed => forksClean_iff executed⟩

/-- `fork` leaves the slot of an object of sixteen bytes in use. -/
theorem not_forksClean_watchOne :
    ∃ final,
      run steadyEnvironment (start standardFiles 1) watchOne = some final ∧
        ¬ForksClean steadyEnvironment 7 final := by
  have stillUsed : (run steadyEnvironment (start standardFiles 1)
      watchOne).map (fun final =>
        ((beforeFork steadyEnvironment final).wp 0).isUsed) = some true := by
    decide +kernel
  obtain ⟨final, executed, used⟩ := Option.map_eq_some_iff.mp stillUsed
  refine ⟨final, executed, fun clean => ?_⟩
  rw [clean.unused 0] at used
  exact absurd used (by simp)

end Manager

end Causer
