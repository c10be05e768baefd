import Causer.Manager
import Mathlib.Algebra.BigOperators.Group.Finset.Basic
import Mathlib.Algebra.BigOperators.Fin

/-!
# The watchpoint counter

`startWatch` tests `getWatchpointsNumber() < MAX_WATCHPOINTS` to learn whether a
slot is free.  The counter answers that question as long as it equals the
number of used slots.  Every operation keeps the two in step except the
takeover of a used slot: it counts the new watchpoint without having uncounted
the old one, and when the new one cannot be installed it frees the slot without
uncounting it.
-/

namespace Causer
namespace Manager

/-- Number of used slots. -/
def usedSlots (manager : Manager) : Nat :=
  (Finset.univ.filter fun slot => (manager.wp slot).isUsed = true).card

/-- The counter equals the number of used slots. -/
def Balanced (manager : Manager) : Prop :=
  manager.numWatchpoints = manager.usedSlots

/-- The action takes over a used slot: the section finds the slot used and
valid for its request. -/
def TakesOver (environment : Environment) (manager : Manager) :
    Action → Prop
  | .setSection watchedRatio request slot =>
      (manager.wp slot).isUsed = true ∧
        (isValid environment watchedRatio request (manager.wp slot)
          manager.kernel).1 = true
  | _ => False

theorem usedSlots_le (manager : Manager) : manager.usedSlots ≤ 4 := by
  unfold usedSlots
  exact (Finset.card_le_univ _).trans (by simp)

/-- Rewriting one slot changes the number of used slots by that slot alone. -/
theorem card_used_update
    (wp : SlotPosition → WatchpointObject)
    (slot : SlotPosition)
    (object : WatchpointObject) :
    (Finset.univ.filter fun other =>
        (Function.update wp slot object other).isUsed = true).card +
        (if (wp slot).isUsed then 1 else 0) =
      (Finset.univ.filter fun other => (wp other).isUsed = true).card +
        (if object.isUsed then 1 else 0) := by
  rw [Finset.card_filter, Finset.card_filter,
    ← Finset.add_sum_erase _ _ (Finset.mem_univ slot),
    ← Finset.add_sum_erase Finset.univ
      (fun other => if (wp other).isUsed = true then 1 else 0)
      (Finset.mem_univ slot)]
  have others :
      (∑ other ∈ Finset.univ.erase slot,
        if (Function.update wp slot object other).isUsed = true
        then 1 else 0) =
      ∑ other ∈ Finset.univ.erase slot,
        if (wp other).isUsed = true then 1 else 0 := by
    apply Finset.sum_congr rfl
    intro other member
    rw [Function.update_of_ne (Finset.ne_of_mem_erase member)]
  rw [others, Function.update_self]
  omega

/-- The counter moves by one without wrapping as long as it counts slots. -/
theorem atomicAddFetch_of_count
    {count : Nat}
    (small : count ≤ 4)
    {amount : Int}
    (single : amount = 1 ∨ amount = -1) :
    atomicAddFetch count amount = count + amount := by
  unfold atomicAddFetch
  rw [Int.bmod_def]
  rcases single with rfl | rfl <;> omega

/-- A write keeps the balance exactly when the slot was free before it. -/
theorem writeSlot_balanced_iff
    (environment : Environment)
    (request : Request)
    (slot : SlotPosition)
    {manager : Manager}
    (balanced : manager.Balanced) :
    (writeSlot environment request slot manager).2.Balanced ↔
      (manager.wp slot).isUsed = false := by
  obtain ⟨installtime, fd, wp_eq⟩ := writeSlot_wp environment request slot manager
  have number := writeSlot_numWatchpoints environment request slot manager
  have count := card_used_update manager.wp slot
    { isUsed := (writeSlot environment request slot manager).1
      installtime := installtime
      addr := request.addr
      objectstart := request.objectstart
      objectsize := request.objectsize
      callstack := request.callstack
      fd := fd }
  have small := manager.usedSlots_le
  unfold Balanced usedSlots at *
  rw [wp_eq, number, balanced,
    atomicAddFetch_of_count small (Or.inl rfl)]
  cases written : (writeSlot environment request slot manager).1 <;>
    cases used : (manager.wp slot).isUsed <;>
    simp only [written, used, Bool.false_eq_true, if_true, if_false,
      reduceCtorEq, iff_true, iff_false] at count ⊢ <;>
    omega

/-- A release keeps the balance. -/
theorem disableSection_balanced
    (environment : Environment)
    (addr : Word)
    (slot : SlotPosition)
    {manager : Manager}
    (balanced : manager.Balanced) :
    (disableSection environment addr slot manager).Balanced := by
  obtain same | ⟨matched, ret, fd, kernel, -, result⟩ :=
    disableSection_cases environment addr slot manager
  · rw [same]
    exact balanced
  · have count := card_used_update manager.wp slot
      { manager.wp slot with
        isUsed := if ret then false else (manager.wp slot).isUsed
        fd := fd }
    have small := manager.usedSlots_le
    rw [result]
    unfold Balanced usedSlots at *
    rw [balanced, atomicAddFetch_of_count small (Or.inr rfl)]
    cases ret <;> simp [matched.1] at count ⊢ <;> omega

/-- The balance only depends on the counter and the flags. -/
theorem Balanced.congr
    {manager other : Manager}
    (balanced : manager.Balanced)
    (number : other.numWatchpoints = manager.numWatchpoints)
    (used : ∀ slot, (other.wp slot).isUsed = (manager.wp slot).isUsed) :
    other.Balanced := by
  simpa only [Balanced, usedSlots, number, used] using balanced

/-- A step from a balanced state leads to a balanced state exactly when it
does not take over a used slot. -/
theorem step_balanced_iff
    {environment : Environment}
    {manager next : Manager}
    {action : Action}
    (balanced : manager.Balanced)
    (stepped : step environment manager action = some next) :
    next.Balanced ↔ ¬TakesOver environment manager action := by
  cases action with
  | setSection watchedRatio request slot =>
      rw [step, Option.some.injEq] at stepped
      subst stepped
      have readClock : Balanced { manager with
          kernel := (isValid environment watchedRatio request
            (manager.wp slot) manager.kernel).2 } :=
        balanced.congr rfl fun _ => rfl
      cases valid : (isValid environment watchedRatio request
          (manager.wp slot) manager.kernel).1 with
      | false =>
          rw [setSection_of_invalid valid]
          simpa [TakesOver, valid] using readClock
      | true =>
          rw [setSection_of_valid valid,
            writeSlot_balanced_iff environment request slot readClock]
          simp [TakesOver, valid]
  | disableSection addr slot =>
      rw [step, Option.some.injEq] at stepped
      subst stepped
      simpa [TakesOver] using
        disableSection_balanced environment addr slot balanced
  | threadCreate tid =>
      obtain ⟨tindex, table, _, rfl⟩ := threadCreate_eq_some stepped
      refine iff_of_true (balanced.congr rfl fun slot => ?_) id
      obtain ⟨_, result, _⟩ := setWatchpointByThreadLoop_wp environment
        ((table.setThread tindex tid).threads tindex) slotPositions
        manager.wp manager.kernel slot
      dsimp only
      rw [result]
  | threadExit position =>
      obtain ⟨_, rfl⟩ := step_threadExit_eq_some stepped
      exact iff_of_true (balanced.congr rfl fun _ => rfl) id
  | appOpen =>
      rw [step, Option.some.injEq] at stepped
      subst stepped
      obtain ⟨wp_eq, _, number⟩ := appOpen_frame environment manager
      exact iff_of_true (balanced.congr number fun slot => by rw [wp_eq]) id
  | appClose number =>
      obtain ⟨_, rfl⟩ := appClose_eq_some stepped
      exact iff_of_true (balanced.congr rfl fun _ => rfl) id

/-- A balanced counter answers `startWatch`'s question. -/
theorem Balanced.lt_maxWatchpoints_iff
    {manager : Manager}
    (balanced : manager.Balanced) :
    manager.numWatchpoints < maxWatchpoints ↔
      ∃ slot, (manager.wp slot).isUsed = false := by
  rw [balanced, Int.ofNat_lt, usedSlots]
  constructor
  · intro few
    by_contra none_free
    push Not at none_free
    have full : (Finset.univ.filter fun slot =>
        (manager.wp slot).isUsed = true) = Finset.univ := by
      ext slot
      simpa using none_free slot
    rw [full] at few
    simp at few
  · rintro ⟨slot, unused⟩
    have strict := Finset.card_lt_card
      (Finset.filter_ssubset.mpr
        ⟨slot, Finset.mem_univ slot, by simp [unused]⟩ :
        (Finset.univ.filter fun slot => (manager.wp slot).isUsed = true) ⊂
          Finset.univ)
    simpa using strict

/-- The manager starts balanced. -/
theorem balanced_start (files : DescriptorTable File) (tid : Nat) :
    (start files tid).Balanced := by
  simp [Balanced, usedSlots, start]

/-- The counter equals the number of used slots in every state of a run if and
only if no section of the run takes over a used slot. -/
theorem always_balanced_iff
    (environment : Environment)
    (files : DescriptorTable File)
    (tid : Nat)
    {actions : List Action}
    {final : Manager}
    (executed : run environment (start files tid) actions = some final) :
    Machine.Always (step environment) Balanced (start files tid) actions ↔
      Machine.Along (step environment)
        (fun manager action => ¬TakesOver environment manager action)
        (start files tid) actions :=
  Machine.always_iff_along
    (fun _ _ _ balanced stepped => step_balanced_iff balanced stepped)
    (balanced_start files tid) executed

/-- Four fresh installations and one takeover: the fifth request's call site
has the initial ratio, the others' has been reduced. -/
def takeoverRun : List Action :=
  let watchedRatio : Word → Int := fun callstack =>
    if callstack = 2 then initWatchRatio else 1000
  [.setSection watchedRatio (sampleRequest 0x1000 1 false) 0,
    .setSection watchedRatio (sampleRequest 0x2000 1 false) 1,
    .setSection watchedRatio (sampleRequest 0x3000 1 false) 2,
    .setSection watchedRatio (sampleRequest 0x4000 1 false) 3,
    .setSection watchedRatio (sampleRequest 0x5000 2 true) 0]

/-- The equivalence on a run that fills a slot and releases it. -/
theorem always_balanced_iff_fill_release :
    Machine.Always (step steadyEnvironment) Balanced (start standardFiles 1)
        [.setSection (fun _ => 1000) (sampleRequest 0x1000 1 false) 0,
          .disableSection 0x1000 0] ↔
      Machine.Along (step steadyEnvironment)
        (fun manager action => ¬TakesOver steadyEnvironment manager action)
        (start standardFiles 1)
        [.setSection (fun _ => 1000) (sampleRequest 0x1000 1 false) 0,
          .disableSection 0x1000 0] :=
  always_balanced_iff steadyEnvironment standardFiles 1 rfl

/-- After a takeover the counter is ahead of the slots. -/
theorem takeover_counts_twice :
    ∃ final, run steadyEnvironment (start standardFiles 1) takeoverRun =
        some final ∧
      final.numWatchpoints = 5 ∧ final.usedSlots = 4 :=
  ⟨_, rfl, by decide +kernel, by decide +kernel⟩

end Manager
end Causer
