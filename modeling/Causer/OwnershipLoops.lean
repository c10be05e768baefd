import Causer.Manager
import Causer.Ownership

/-!
# The manager's loops keep ownership

A place is a slot together with a thread index.  The loops of the manager work
on the records of one slot for a list of threads, or on the records of one
thread index for a list of slots; here each of them is shown to keep the
descriptors owned, whichever calls fail.
-/

namespace Causer

/-- A record's place: its slot and its thread index. -/
abbrev Place := SlotPosition × ThreadPosition

/-- All records, with those of one slot given separately. -/
def placed (base : Place → Descriptor) (slot : SlotPosition)
    (fd : Records) : Place → Descriptor :=
  fun place => if place.1 = slot then fd place.2 else base place

section Placed

variable {base : Place → Descriptor} {slot : SlotPosition} {fd : Records}

@[simp] theorem placed_self (index : ThreadPosition) :
    placed base slot fd (slot, index) = fd index :=
  if_pos rfl

@[simp] theorem placed_of_ne {place : Place} (different : place.1 ≠ slot) :
    placed base slot fd place = base place :=
  if_neg different

/-- Writing one record of the slot changes one place. -/
@[simp] theorem placed_update_of_ne
    {index : ThreadPosition}
    (record : Descriptor)
    {place : Place}
    (different : place ≠ (slot, index)) :
    placed base slot (Function.update fd index record) place =
      placed base slot fd place := by
  by_cases sameSlot : place.1 = slot
  · have differentIndex : place.2 ≠ index := fun sameIndex =>
      different (Prod.ext sameSlot sameIndex)
    simp [placed, sameSlot, Function.update_of_ne differentIndex]
  · rw [placed_of_ne sameSlot, placed_of_ne sameSlot]

end Placed

section Threads

variable {duty : Place → Option Duty}
  {base : Place → Descriptor} {slot : SlotPosition}

/-- The place has a duty that speaks about no record below zero and about every
record from three on. -/
def Charged (duty : Place → Option Duty) (place : Place) : Prop :=
  ∃ required, duty place = some required ∧
    0 ≤ required.threshold ∧ required.threshold ≤ 3

/-- Disabling a charged record and overwriting it with `-1` keeps ownership. -/
theorem Owned.clear
    (environment : Environment)
    {fd : Records}
    {kernel : Kernel}
    {index : ThreadPosition}
    (owned : Owned duty (placed base slot fd) kernel)
    (charged : Charged duty (slot, index)) :
    Owned duty (placed base slot (Function.update fd index .minusOne))
      (disableWatchpoint environment (fd index) kernel).2 := by
  obtain ⟨required, isDuty, nonnegative, standard⟩ := charged
  have disabled := owned.disable environment isDuty standard
  rw [placed_self] at disabled
  refine disabled.replace
    (fun other different => placed_update_of_ne _ different) ?_
  intro other isOther
  rw [isDuty, Option.some.injEq] at isOther
  subst isOther
  rw [placed_self, Function.update_self, Descriptor.minusOne_number]
  omega

/-- The releasing loop keeps ownership. -/
theorem disableThreads_owned
    (environment : Environment)
    {threads : List Thread}
    (charged : ∀ thread ∈ threads, Charged duty (slot, thread.index))
    {fd : Records}
    {kernel : Kernel}
    (owned : Owned duty (placed base slot fd) kernel) :
    Owned duty
      (placed base slot (disableThreads environment threads fd kernel).2.1)
      (disableThreads environment threads fd kernel).2.2 := by
  induction threads generalizing fd kernel with
  | nil => exact owned
  | cons thread threads inductionHypothesis =>
      have cleared := owned.clear environment
        (charged thread List.mem_cons_self)
      exact inductionHypothesis
        (fun other member => charged other (List.mem_cons_of_mem _ member))
        cleared

/-- The releasing loop leaves `-1` in every record of its threads. -/
theorem disableThreads_fd
    (environment : Environment)
    {threads : List Thread}
    {index : ThreadPosition}
    (fd : Records) (kernel : Kernel)
    (visited : index ∈ threads.map Thread.index ∨ fd index = .minusOne) :
    (disableThreads environment threads fd kernel).2.1 index =
      .minusOne := by
  induction threads generalizing fd kernel with
  | nil =>
      rcases visited with member | already
      · exact absurd member List.not_mem_nil
      · exact already
  | cons thread threads inductionHypothesis =>
      rw [disableThreads]
      apply inductionHypothesis
      by_cases same : index = thread.index
      · exact Or.inr (by rw [same, Function.update_self])
      · rw [Function.update_of_ne same]
        exact visited.imp_left fun member =>
          List.mem_of_ne_of_mem same member

/-- One round of undoing an installation. -/
theorem rollbackThreads_cons
    (environment : Environment)
    (thread : Thread) (threads : List Thread) (installednum : Nat)
    (fd : Records) (kernel : Kernel) :
    ∃ between middle,
      (between = Function.update fd thread.index .minusOne ∧
          middle =
            (disableWatchpoint environment (fd thread.index) kernel).2 ∨
        (fd thread.index).number = -1 ∧ between = fd ∧ middle = kernel) ∧
      rollbackThreads environment (thread :: threads) installednum fd kernel =
        match installednum with
        | 0 => (between, middle)
        | left + 1 => rollbackThreads environment threads left between middle := by
  by_cases undone : (fd thread.index).number = -1
  · refine ⟨fd, kernel, Or.inr ⟨undone, rfl, rfl⟩, ?_⟩
    cases installednum <;> simp [rollbackThreads, undone]
  · refine ⟨_, _, Or.inl ⟨rfl, rfl⟩, ?_⟩
    cases installednum <;> simp [rollbackThreads, undone]

/-- Undoing an installation keeps ownership. -/
theorem rollbackThreads_owned
    (environment : Environment)
    {threads : List Thread}
    {installednum : Nat}
    (charged : ∀ thread ∈ threads.take (installednum + 1),
      Charged duty (slot, thread.index))
    {fd : Records}
    {kernel : Kernel}
    (owned : Owned duty (placed base slot fd) kernel) :
    Owned duty
      (placed base slot (rollbackThreads environment threads installednum fd
        kernel).1)
      (rollbackThreads environment threads installednum fd kernel).2 := by
  induction threads generalizing installednum fd kernel with
  | nil => exact owned
  | cons thread threads inductionHypothesis =>
      obtain ⟨between, middle, round, step⟩ := rollbackThreads_cons
        environment thread threads installednum fd kernel
      have kept : Owned duty (placed base slot between) middle := by
        rcases round with ⟨rfl, rfl⟩ | ⟨-, rfl, rfl⟩
        · exact owned.clear environment (charged thread List.mem_cons_self)
        · exact owned
      rw [step]
      cases installednum with
      | zero => exact kept
      | succ left =>
          exact inductionHypothesis
            (fun other member => charged other (List.mem_cons_of_mem _ member))
            kept

/-- Undoing an installation leaves `-1` for every thread it visits. -/
theorem rollbackThreads_fd
    (environment : Environment)
    {threads : List Thread}
    {installednum : Nat}
    {index : ThreadPosition}
    (fd : Records) (kernel : Kernel)
    (visited : index ∈ (threads.take (installednum + 1)).map Thread.index ∨
      (fd index).number = -1) :
    ((rollbackThreads environment threads installednum fd kernel).1
      index).number = -1 := by
  induction threads generalizing installednum fd kernel with
  | nil =>
      rcases visited with member | already
      · exact absurd member List.not_mem_nil
      · exact already
  | cons thread threads inductionHypothesis =>
      obtain ⟨between, middle, round, step⟩ := rollbackThreads_cons
        environment thread threads installednum fd kernel
      have cleared : index = thread.index ∨ (fd index).number = -1 →
          (between index).number = -1 := by
        intro cause
        rcases round with ⟨rfl, -⟩ | ⟨undone, rfl, -⟩
        · by_cases same : index = thread.index
          · rw [same, Function.update_self, Descriptor.minusOne_number]
          · rw [Function.update_of_ne same]
            exact cause.resolve_left same
        · rcases cause with rfl | already
          · exact undone
          · exact already
      rw [step]
      cases installednum with
      | zero =>
          apply cleared
          simpa using visited
      | succ left =>
          apply inductionHypothesis
          rcases visited with member | already
          · rw [List.take_succ_cons, List.map_cons, List.mem_cons] at member
            rcases member with same | later
            · exact Or.inr (cleared (Or.inl same))
            · exact Or.inl later
          · exact Or.inr (cleared (Or.inr already))

/-- The duties while a slot is being installed: the places still pending have
their old duty, all others their new one. -/
def mixedDuty (old new : Place → Option Duty) (slot : SlotPosition)
    (pending : List ThreadPosition) : Place → Option Duty :=
  fun place =>
    if place.1 = slot ∧ place.2 ∈ pending then old place else new place

/-- The duty at a place accepts an event at an address. -/
def Accepts (duty : Place → Option Duty) (place : Place) (addr : Word) :
    Prop :=
  ∀ required, duty place = some required →
    0 ≤ required.threshold ∧
      ∀ address, required.address = some address → addr = address

/-- The installing loop keeps ownership while it turns old duties into new
ones: up to the thread at which it stops, that thread included. -/
theorem installThreads_owned
    {environment : Environment}
    {old new : Place → Option Duty}
    {addr : Word}
    {threads : List Thread}
    (distinct : (threads.map Thread.index).Nodup)
    (accepts : ∀ thread ∈ threads, Accepts new (slot, thread.index) addr)
    {fd after : Records}
    {kernel afterKernel : Kernel}
    {ret : Bool}
    {installednum : Nat}
    (owned : Owned (mixedDuty old new slot (threads.map Thread.index))
      (placed base slot fd) kernel)
    (result : installThreads environment addr threads fd kernel =
      (ret, installednum, after, afterKernel)) :
    Owned (mixedDuty old new slot
        ((threads.drop (installednum + 1)).map Thread.index))
      (placed base slot after) afterKernel ∧
      (ret = true → installednum = threads.length) := by
  induction threads generalizing fd kernel installednum with
  | nil =>
      simp only [installThreads, Prod.mk.injEq] at result
      obtain ⟨-, rfl, rfl, rfl⟩ := result
      exact ⟨owned, fun _ => rfl⟩
  | cons thread threads inductionHypothesis =>
      rw [List.map_cons, List.nodup_cons] at distinct
      rcases watches : watchThread environment addr thread.tid kernel with
        ⟨watched, record, middle⟩
      have reduced : Function.update
            (mixedDuty old new slot ((thread :: threads).map Thread.index))
            (slot, thread.index) none =
          Function.update
            (mixedDuty old new slot (threads.map Thread.index))
            (slot, thread.index) none := by
        funext place
        by_cases same : place = (slot, thread.index)
        · rw [same, Function.update_self, Function.update_self]
        · rw [Function.update_of_ne same, Function.update_of_ne same]
          have different : place.1 = slot → place.2 ≠ thread.index :=
            fun sameSlot sameIndex => same (Prod.ext sameSlot sameIndex)
          simp only [mixedDuty, List.map_cons, List.mem_cons]
          congr 1
          grind
      have dropped := owned.drop (slot, thread.index)
      rw [reduced] at dropped
      have installed : Owned
          (mixedDuty old new slot (threads.map Thread.index))
          (placed base slot (Function.update fd thread.index record))
          middle := by
        have recorded : watchThread environment addr thread.tid kernel =
            (watched, placed base slot (Function.update fd thread.index record)
              (slot, thread.index), middle) := by
          rw [placed_self, Function.update_self, watches]
        refine dropped.watch recorded
          (fun other different => placed_update_of_ne record different) ?_
        intro required isDuty
        apply accepts thread List.mem_cons_self
        rwa [mixedDuty, if_neg fun pending => distinct.1 pending.2] at isDuty
      rw [installThreads, watches] at result
      cases watched with
      | false =>
          simp only [Bool.false_eq_true, if_false, Prod.mk.injEq] at result
          obtain ⟨rfl, rfl, rfl, rfl⟩ := result
          exact ⟨installed, fun impossible => absurd impossible (by simp)⟩
      | true =>
          rcases rest : installThreads environment addr threads
            (Function.update fd thread.index record) middle with
            ⟨restRet, restNum, restFd, restKernel⟩
          simp only [if_true, rest, Prod.mk.injEq] at result
          obtain ⟨rfl, rfl, rfl, rfl⟩ := result
          obtain ⟨restOwned, complete⟩ := inductionHypothesis distinct.2
            (fun other member =>
              accepts other (List.mem_cons_of_mem _ member))
            installed rest
          exact ⟨restOwned, fun succeeded => by
            rw [complete succeeded, List.length_cons]⟩

/-- Undoing an installation that stopped early brings the old duties back:
every place that was attempted now holds `-1`. -/
theorem rollbackThreads_old
    (environment : Environment)
    {old new : Place → Option Duty}
    {threads : List Thread}
    {installednum : Nat}
    (distinct : (threads.map Thread.index).Nodup)
    (chargedOld : ∀ thread ∈ threads, Charged old (slot, thread.index))
    (chargedNew : ∀ thread ∈ threads, Charged new (slot, thread.index))
    (agree : ∀ place,
      ¬(place.1 = slot ∧ place.2 ∈ threads.map Thread.index) →
      old place = new place)
    {fd : Records}
    {kernel : Kernel}
    (mixed : Owned (mixedDuty old new slot
        ((threads.drop (installednum + 1)).map Thread.index))
      (placed base slot fd) kernel) :
    Owned old
      (placed base slot (rollbackThreads environment threads installednum fd
        kernel).1)
      (rollbackThreads environment threads installednum fd kernel).2 := by
  have split := List.take_append_drop (installednum + 1) threads
  have attempted : ∀ thread ∈ threads.take (installednum + 1),
      mixedDuty old new slot
        ((threads.drop (installednum + 1)).map Thread.index)
          (slot, thread.index) = new (slot, thread.index) := by
    intro thread member
    refine if_neg fun pending => ?_
    rw [← split, List.map_append, List.nodup_append] at distinct
    exact distinct.2.2 _ (List.mem_map_of_mem member) _ pending.2 rfl
  have undone := rollbackThreads_owned environment
    (fun thread member => by
      rw [Charged, attempted thread member]
      exact chargedNew thread (List.mem_of_mem_take member)) mixed
  refine undone.weaken fun place required isDuty above => ?_
  by_cases atSlot : place.1 = slot ∧ place.2 ∈ threads.map Thread.index
  · by_cases visited : place.2 ∈
        (threads.take (installednum + 1)).map Thread.index
    · have cleared := rollbackThreads_fd environment fd kernel
        (Or.inl visited)
      obtain ⟨thread, member, isIndex⟩ := List.mem_map.mp visited
      obtain ⟨charge, isCharge, nonnegative, -⟩ :=
        chargedOld thread (List.mem_of_mem_take member)
      have isPlace : place = (slot, thread.index) :=
        Prod.ext atSlot.1 isIndex.symm
      rw [isPlace, isCharge, Option.some.injEq] at isDuty
      subst isDuty
      rw [isPlace, placed_self] at above
      rw [← isIndex] at cleared
      omega
    · have pending : place.2 ∈
          (threads.drop (installednum + 1)).map Thread.index := by
        have member := atSlot.2
        rw [← split, List.map_append, List.mem_append] at member
        exact member.resolve_left visited
      refine ⟨required, ?_, above, fun _ isAddress => isAddress⟩
      rwa [mixedDuty, if_pos ⟨atSlot.1, pending⟩]
  · refine ⟨required, ?_, above, fun _ isAddress => isAddress⟩
    rw [mixedDuty, if_neg fun pending => atSlot ⟨pending.1, ?_⟩]
    · rwa [← agree place atSlot]
    · rw [← split, List.map_append]
      exact List.mem_append_right _ pending.2

/-- The inner `setWatchpoint` keeps ownership, under the new duties when it
succeeds and under the old ones when it undoes its work. -/
theorem setWatchpointFds_owned
    {environment : Environment}
    {old new : Place → Option Duty}
    {addr : Word}
    {threads : List Thread}
    (distinct : (threads.map Thread.index).Nodup)
    (accepts : ∀ thread ∈ threads, Accepts new (slot, thread.index) addr)
    (chargedOld : ∀ thread ∈ threads, Charged old (slot, thread.index))
    (chargedNew : ∀ thread ∈ threads, Charged new (slot, thread.index))
    (agree : ∀ place,
      ¬(place.1 = slot ∧ place.2 ∈ threads.map Thread.index) →
      old place = new place)
    {fd after : Records}
    {kernel afterKernel : Kernel}
    {numWatchpoints number : Int}
    {ret : Bool}
    (owned : Owned old (placed base slot fd) kernel)
    (result : setWatchpointFds environment addr threads numWatchpoints fd
      kernel = (ret, number, after, afterKernel)) :
    Owned (if ret then new else old) (placed base slot after) afterKernel := by
  have allPending :
      mixedDuty old new slot (threads.map Thread.index) = old := by
    funext place
    unfold mixedDuty
    split
    · rfl
    · next elsewhere => exact (agree place elsewhere).symm
  rw [← allPending] at owned
  rcases installed : installThreads environment addr threads fd kernel with
    ⟨installs, installednum, installedFd, installedKernel⟩
  obtain ⟨mixed, complete⟩ :=
    installThreads_owned distinct accepts owned installed
  cases installs with
  | true =>
      simp only [setWatchpointFds, installed, if_true, Prod.mk.injEq]
        at result
      obtain ⟨rfl, -, rfl, rfl⟩ := result
      rw [complete rfl, List.drop_eq_nil_of_le (by omega)] at mixed
      refine mixed.weaken fun place required isDuty above =>
        ⟨required, ?_, above, fun _ isAddress => isAddress⟩
      simpa [mixedDuty] using isDuty
  | false =>
      simp only [setWatchpointFds, installed, Bool.false_eq_true, if_false,
        Prod.mk.injEq] at result
      obtain ⟨rfl, -, rfl, rfl⟩ := result
      exact rollbackThreads_old environment distinct chargedOld chargedNew agree mixed

end Threads

section Slots

variable {environment : Environment} {duty : Place → Option Duty}
  {wp : SlotPosition → WatchpointObject}

/-- The records of all slots. -/
def recordsOf (wp : SlotPosition → WatchpointObject) : Place → Descriptor :=
  fun place => (wp place.1).fd place.2

/-- The duties that are left once those of one thread index have been
discharged for some slots. -/
def dutyExcept (duty : Place → Option Duty) (index : ThreadPosition)
    (slots : List SlotPosition) : Place → Option Duty :=
  fun place => if place.2 = index ∧ place.1 ∈ slots then none else duty place

/-- Dropping the duty at one more slot. -/
theorem update_dutyExcept
    (duty : Place → Option Duty) (index : ThreadPosition)
    (slot : SlotPosition) (slots : List SlotPosition) :
    Function.update (dutyExcept duty index slots) (slot, index) none =
      dutyExcept duty index (slot :: slots) := by
  funext place
  by_cases same : place = (slot, index)
  · subst same
    simp [dutyExcept]
  · rw [Function.update_of_ne same]
    have different : place.2 = index → place.1 ≠ slot :=
      fun sameIndex sameSlot => same (Prod.ext sameSlot sameIndex)
    simp only [dutyExcept, List.mem_cons]
    congr 1
    grind

/-- The loop of `threadExit` closes legitimately what it closes, and leaves the
exiting thread's places without duty. -/
theorem exitSlots_owned
    {index : ThreadPosition}
    {slots : List SlotPosition}
    (distinct : slots.Nodup)
    (charged : ∀ slot ∈ slots, Charged duty (slot, index))
    {done : List SlotPosition}
    (fresh : ∀ slot ∈ slots, slot ∉ done)
    {kernel : Kernel}
    (owned : Owned (dutyExcept duty index done) (recordsOf wp) kernel) :
    Owned (dutyExcept duty index (slots.reverse ++ done)) (recordsOf wp)
      (exitSlots environment wp index slots kernel) := by
  induction slots generalizing done kernel with
  | nil => exact owned
  | cons slot slots inductionHypothesis =>
      rw [List.nodup_cons] at distinct
      obtain ⟨required, isDuty, -, standard⟩ :=
        charged slot List.mem_cons_self
      have remains : dutyExcept duty index done (slot, index) =
          some required := by
        rw [dutyExcept, if_neg fun both =>
          fresh slot List.mem_cons_self both.2]
        exact isDuty
      have disabled := owned.disable environment remains standard
      rw [update_dutyExcept] at disabled
      have rest := inductionHypothesis distinct.2
        (fun other member => charged other (List.mem_cons_of_mem _ member))
        (fun other member => by
          rw [List.mem_cons, not_or]
          refine ⟨?_, fresh other (List.mem_cons_of_mem _ member)⟩
          rintro rfl
          exact distinct.1 member) disabled
      rw [List.reverse_cons, List.append_assoc]
      exact rest

/-- No tested call of the prologue fails before it comes to a slot: each used
slot before it takes six calls, of which the second is not tested. -/
def Reached (environment : Environment)
    (wp : SlotPosition → WatchpointObject) (slots : List SlotPosition)
    (kernel : Kernel) (slot : SlotPosition) : Prop :=
  ∀ offset < 6 * (slots.takeWhile (· ≠ slot)).countP
      fun earlier => (wp earlier).isUsed,
    offset % 6 ≠ 1 → environment.fails (kernel.calls + offset) = false

/-- Whether a later slot is reached does not depend on an unused one. -/
theorem Reached.of_unused
    {first slot : SlotPosition}
    {slots : List SlotPosition}
    {kernel : Kernel}
    (reached : Reached environment wp (first :: slots) kernel slot)
    (different : first ≠ slot)
    (unused : (wp first).isUsed = false) :
    Reached environment wp slots kernel slot := by
  simpa [Reached, List.takeWhile_cons, different, unused] using reached

/-- A used slot is one of those that come before a later slot. -/
theorem countP_takeWhile_of_used
    {first slot : SlotPosition}
    (slots : List SlotPosition)
    (different : first ≠ slot)
    (used : (wp first).isUsed = true) :
    ((first :: slots).takeWhile (· ≠ slot)).countP
        (fun earlier => (wp earlier).isUsed) =
      (slots.takeWhile (· ≠ slot)).countP
        (fun earlier => (wp earlier).isUsed) + 1 := by
  rw [List.takeWhile_cons_of_pos (by simpa using different),
    List.countP_cons_of_pos (by simpa using used)]

/-- A slot past a used one is reached only if none of the calls made for that
one fails. -/
theorem Reached.succeeds
    {first slot : SlotPosition}
    {slots : List SlotPosition}
    {kernel : Kernel}
    (reached : Reached environment wp (first :: slots) kernel slot)
    (different : first ≠ slot)
    (used : (wp first).isUsed = true)
    {offset : Nat}
    (small : offset < 6)
    (tested : offset ≠ 1) :
    environment.fails (kernel.calls + offset) = false := by
  have count := countP_takeWhile_of_used slots different used
  exact reached offset (by omega) (by omega)

/-- Whether a slot past a used one is reached depends on the calls that are
made after its six. -/
theorem Reached.of_used
    {first slot : SlotPosition}
    {slots : List SlotPosition}
    {kernel after : Kernel}
    (reached : Reached environment wp (first :: slots) kernel slot)
    (different : first ≠ slot)
    (used : (wp first).isUsed = true)
    (calls : after.calls = kernel.calls + 6)
    {between : SlotPosition → WatchpointObject}
    (sameUsed : ∀ other, (between other).isUsed = (wp other).isUsed) :
    Reached environment between slots after slot := by
  have count := countP_takeWhile_of_used slots different used
  unfold Reached
  simp only [sameUsed]
  intro offset small tested
  rw [calls, Nat.add_assoc]
  exact reached (6 + offset) (by omega) (by omega)

/-- The prologue keeps ownership: it gives the new thread's places their duty,
provided that it reaches those whose records are not below the threshold. -/
theorem setWatchpointByThreadLoop_owned
    {thread : Thread}
    {slots : List SlotPosition}
    (distinct : slots.Nodup)
    (accepts : ∀ slot ∈ slots, (wp slot).isUsed = true →
      Accepts duty (slot, thread.index) (wp slot).addr)
    {kernel : Kernel}
    (reaches : ∀ slot ∈ slots, ∀ required,
      duty (slot, thread.index) = some required →
      required.threshold ≤ ((wp slot).fd thread.index).number →
      (wp slot).isUsed = true ∧ Reached environment wp slots kernel slot)
    (owned : Owned (dutyExcept duty thread.index slots) (recordsOf wp)
      kernel) :
    Owned duty
      (recordsOf (setWatchpointByThreadLoop environment thread slots wp
        kernel).2.1)
      (setWatchpointByThreadLoop environment thread slots wp kernel).2.2 := by
  induction slots generalizing wp kernel with
  | nil =>
      refine owned.weaken fun place required isDuty above =>
        ⟨required, ?_, above, fun _ isAddress => isAddress⟩
      simpa [dutyExcept] using isDuty
  | cons first slots inductionHypothesis =>
      rw [List.nodup_cons] at distinct
      rw [← update_dutyExcept] at owned
      have differs : ∀ slot ∈ slots, first ≠ slot := by
        rintro slot member rfl
        exact distinct.1 member
      have firstDuty : dutyExcept duty thread.index slots
          (first, thread.index) = duty (first, thread.index) :=
        if_neg fun both => distinct.1 both.2
      cases used : (wp first).isUsed with
      | false =>
          have below : ∀ required,
              dutyExcept duty thread.index slots (first, thread.index) =
                some required →
              (recordsOf wp (first, thread.index)).number <
                required.threshold := by
            intro required isDuty
            rw [firstDuty] at isDuty
            by_contra above
            have both := reaches first List.mem_cons_self required isDuty
              (Int.not_lt.mp above)
            rw [used] at both
            exact absurd both.1 (by simp)
          have kept := owned.replace (fun _ _ => rfl) below
          have rest := inductionHypothesis distinct.2
            (fun slot member => accepts slot (List.mem_cons_of_mem _ member))
            (fun slot member required isDuty above => by
              obtain ⟨usedSlot, reached⟩ := reaches slot
                (List.mem_cons_of_mem _ member) required isDuty above
              exact ⟨usedSlot,
                reached.of_unused (differs slot member) used⟩) kept
          simpa [setWatchpointByThreadLoop, used] using rest
      | true =>
          obtain ⟨watched, record, after, watches, calls, failure, -⟩ :=
            watchThread_cases environment (wp first).addr thread.tid kernel
          obtain ⟨between, atFirst, elsewhere, step⟩ :=
            Manager.setWatchpointByThreadLoop_of_used used watches slots
          have recorded : recordsOf between (first, thread.index) =
              record := by
            simp [recordsOf, atFirst]
          have others : ∀ place ≠ (first, thread.index),
              recordsOf between place = recordsOf wp place := by
            intro place different
            by_cases sameSlot : place.1 = first
            · have differentIndex : place.2 ≠ thread.index :=
                fun sameIndex => different (Prod.ext sameSlot sameIndex)
              simp [recordsOf, sameSlot, atFirst, differentIndex]
            · simp [recordsOf, elsewhere place.1 sameSlot]
          rw [← recorded] at watches
          have installed := owned.watch watches others fun required isDuty =>
            accepts first List.mem_cons_self used required
              (firstDuty ▸ isDuty)
          have sameUsed : ∀ other,
              (between other).isUsed = (wp other).isUsed := by
            intro other
            by_cases same : other = first
            · rw [same, atFirst]
            · rw [elsewhere other same]
          rw [step]
          cases watched with
          | true =>
              refine inductionHypothesis distinct.2 ?_ ?_ installed
              · intro slot member usedSlot
                rw [elsewhere slot (differs slot member).symm] at usedSlot ⊢
                exact accepts slot (List.mem_cons_of_mem _ member) usedSlot
              · intro slot member required isDuty above
                rw [elsewhere slot (differs slot member).symm] at above ⊢
                obtain ⟨usedSlot, reached⟩ := reaches slot
                  (List.mem_cons_of_mem _ member) required isDuty above
                exact ⟨usedSlot, reached.of_used (differs slot member) used
                  (calls rfl) sameUsed⟩
          | false =>
              obtain ⟨offset, small, tested, fails⟩ := failure rfl
              refine installed.weaken fun place required isDuty above =>
                ⟨required, ?_, above, fun _ isAddress => isAddress⟩
              rw [dutyExcept, if_neg]
              · exact isDuty
              · rintro ⟨isIndex, member⟩
                have isPlace : place = (place.1, thread.index) :=
                  Prod.ext rfl isIndex
                have different : place ≠ (first, thread.index) :=
                  fun same => differs place.1 member (congrArg Prod.fst same).symm
                rw [others place different, isPlace] at above
                rw [isPlace] at isDuty
                obtain ⟨-, reached⟩ := reaches place.1
                  (List.mem_cons_of_mem _ member) required isDuty above
                rw [reached.succeeds (differs place.1 member) used small
                  tested] at fails
                exact absurd fails (by simp)

end Slots

end Causer
