import Causer.ForkRelease
import Causer.PreemptionFailure

/-!
# A release that fails

`disableWatchpoint` clears the record of every alive thread, whether
`disable_watchpoint` has closed it or refused it, and releases the slot only
when no record was refused.  A record is refused when its number is that of a
standard descriptor or `-1`; a close that fails is not.
-/

namespace Causer
namespace Manager

/-- A slot has been released: it is unused and uncounted, and the descriptors of
all alive threads are closed. -/
structure Released (before after : Manager) (slot : SlotPosition) : Prop where
  isUsed : (after.wp slot).isUsed = false
  numWatchpoints :
    after.numWatchpoints = atomicAddFetch before.numWatchpoints (-1)
  closed : ∀ thread ∈ before.threads.aliveThreads, ∀ number : Nat,
    ((before.wp slot).fd thread.index).number = number →
      after.kernel.files.lookup number = none

/-- A slot is as it was: used or not, counted, and with the same records. -/
structure Unreleased (before after : Manager) (slot : SlotPosition) :
    Prop where
  isUsed : (after.wp slot).isUsed = (before.wp slot).isUsed
  numWatchpoints : after.numWatchpoints = before.numWatchpoints
  fd : ∀ index, ((after.wp slot).fd index).number =
    ((before.wp slot).fd index).number

/-- `disableWatchpoint` releases the slot, or returns `false` and leaves it as it
was. -/
def ReleasesOrLeaves (environment : Environment) (slot : SlotPosition)
    (manager : Manager) : Prop :=
  if (disableWatchpointObject environment slot manager).1 then
    Released manager (disableWatchpointObject environment slot manager).2 slot
  else
    Unreleased manager (disableWatchpointObject environment slot manager).2
      slot

/-- The loop leaves the records of the other threads. -/
theorem disableThreads_fd_of_not_mem
    (environment : Environment)
    {threads : List Thread}
    {index : ThreadPosition}
    (absent : index ∉ threads.map Thread.index)
    (fd : Records) (kernel : Kernel) :
    (disableThreads environment threads fd kernel).2.1 index = fd index := by
  induction threads generalizing fd kernel with
  | nil => rfl
  | cons thread threads inductionHypothesis =>
      rw [List.map_cons, List.mem_cons, not_or] at absent
      rw [disableThreads]
      dsimp only
      rw [inductionHypothesis absent.2, Function.update_of_ne absent.1]

section Release

variable {environment : Environment} {manager : Manager} {slot : SlotPosition}

/-- The release succeeds exactly when no alive thread's record is refused. -/
theorem disableWatchpointObject_fst
    (environment : Environment)
    (distinct : (manager.threads.aliveThreads.map Thread.index).Nodup) :
    (disableWatchpointObject environment slot manager).1 = true ↔
      Closable manager slot :=
  disableThreads_fst environment distinct ..

/-- A release that succeeds. -/
theorem released_of_closable
    (distinct : (manager.threads.aliveThreads.map Thread.index).Nodup)
    (closable : Closable manager slot) :
    Released manager (disableWatchpointObject environment slot manager).2
      slot := by
  obtain ⟨ret, fd, kernel, disables, object⟩ :=
    disableWatchpointObject_eq environment slot manager
  have returned :=
    (disableWatchpointObject_fst environment distinct).mpr closable
  rw [object] at returned ⊢
  obtain rfl : ret = true := returned
  refine ⟨?_, rfl, fun thread member number isNumber => ?_⟩
  · dsimp only
    rw [Function.update_self]
    rfl
  · have closed := disableThreads_closes environment distinct member
      (closable thread member) manager.kernel
    rw [disables, isNumber, Int.toNat_natCast] at closed
    exact closed

/-- A release that fails clears the records of the alive threads, and so leaves
the slot as it was exactly when there was nothing in them. -/
theorem unreleased_iff
    (distinct : (manager.threads.aliveThreads.map Thread.index).Nodup)
    (notClosable : ¬Closable manager slot) :
    Unreleased manager (disableWatchpointObject environment slot manager).2
        slot ↔
      ∀ thread ∈ manager.threads.aliveThreads,
        ((manager.wp slot).fd thread.index).number = -1 := by
  obtain ⟨ret, fd, kernel, disables, object⟩ :=
    disableWatchpointObject_eq environment slot manager
  have returned :=
    mt (disableWatchpointObject_fst environment distinct).mp notClosable
  rw [object, Bool.not_eq_true] at returned
  obtain rfl : ret = false := returned
  have cleared : ∀ index, index ∈
      manager.threads.aliveThreads.map Thread.index →
        fd index = .minusOne := by
    intro index member
    have minusOne := disableThreads_fd environment (manager.wp slot).fd
      manager.kernel (Or.inl member)
    rwa [disables] at minusOne
  have elsewhere : ∀ index, index ∉
      manager.threads.aliveThreads.map Thread.index →
        fd index = (manager.wp slot).fd index := by
    intro index absent
    have kept := disableThreads_fd_of_not_mem environment absent
      (manager.wp slot).fd manager.kernel
    rwa [disables] at kept
  have records : ∀ index,
      (((disableWatchpointObject environment slot manager).2.wp slot).fd
        index) = fd index := by
    intro index
    rw [object]
    dsimp only
    rw [Function.update_self]
  constructor
  · intro unreleased thread member
    have same := unreleased.fd thread.index
    rw [records, cleared _ (List.mem_map_of_mem member)] at same
    exact same.symm
  · intro minusOne
    refine ⟨?_, ?_, fun index => ?_⟩
    · rw [object]
      dsimp only
      rw [Function.update_self]
      rfl
    · rw [object]
      rfl
    · rw [records]
      by_cases alive : index ∈ manager.threads.aliveThreads.map Thread.index
      · obtain ⟨thread, member, rfl⟩ := List.mem_map.mp alive
        rw [cleared _ alive, minusOne thread member]
        rfl
      · rw [elsewhere index alive]

end Release

/-- `disableWatchpoint` releases a slot or leaves it as it was exactly when every
alive thread has a descriptor in it that is not a standard one, or every one has
`-1`. -/
theorem releasesOrLeaves_iff
    {environment : Environment} {manager : Manager}
    (distinct : (manager.threads.aliveThreads.map Thread.index).Nodup)
    (slot : SlotPosition) :
    ReleasesOrLeaves environment slot manager ↔
      Closable manager slot ∨
        ∀ thread ∈ manager.threads.aliveThreads,
          ((manager.wp slot).fd thread.index).number = -1 := by
  unfold ReleasesOrLeaves
  by_cases closable : Closable manager slot
  · rw [if_pos ((disableWatchpointObject_fst environment distinct).mpr closable)]
    exact iff_of_true (released_of_closable distinct closable)
      (Or.inl closable)
  · rw [if_neg (mt (disableWatchpointObject_fst environment distinct).mp closable),
      or_iff_right closable]
    exact unreleased_iff distinct closable

/-- A kernel on which no event can be opened for the second thread. -/
def secondThreadRefused : Environment :=
  .lowestFree (fun call => call = 7) fun call => 100 * BitVec.ofNat 64 call

/-- A watchpoint, and a thread for which it could not be installed. -/
def halfWatched : List Action :=
  oneWatched ++ [.threadCreate 2]

/-- A slot with a descriptor for one thread and none for another. -/
theorem releasesOrLeaves_iff_halfWatched :
    ∃ manager,
      run secondThreadRefused (start standardFiles 1) halfWatched =
        some manager ∧
      (manager.threads.aliveThreads.map fun thread =>
        ((manager.wp 0).fd thread.index).number) = [3, -1] ∧
      (ReleasesOrLeaves secondThreadRefused 0 manager ↔
        Closable manager 0 ∨
          ∀ thread ∈ manager.threads.aliveThreads,
            ((manager.wp 0).fd thread.index).number = -1) :=
  ⟨_, rfl, by decide +kernel, releasesOrLeaves_iff (by decide +kernel) 0⟩

/-- The record of the second thread is refused, and that of the first one is
closed and cleared all the same. -/
theorem half_watched_not_released :
    ¬∀ (environment : Environment) (files : DescriptorTable File) (tid : Nat)
      (actions : List Action) (manager : Manager) (slot : SlotPosition),
      run environment (start files tid) actions = some manager →
      (manager.wp slot).isUsed = true →
      ReleasesOrLeaves environment slot manager := by
  intro claimed
  have halfReleased := claimed secondThreadRefused standardFiles 1 halfWatched
    _ 0 rfl (by decide +kernel)
  rw [ReleasesOrLeaves, if_neg (by decide +kernel)] at halfReleased
  have kept := halfReleased.fd 0
  revert kept
  decide +kernel

end Manager
end Causer
