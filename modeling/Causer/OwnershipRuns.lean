import Causer.OwnershipLoops

/-!
# Ownership over runs

Only the records of alive threads have duties.  In an unused slot a record from
three on must be an open event; in a used slot the same holds from a threshold
that is a parameter here, and the event must watch the slot's address.  Every
action keeps the duties met, except for the creation of a thread whose index
was used before: an exiting thread leaves its records in place, and the new one
inherits those that its prologue does not rewrite.
-/

namespace Causer
namespace Manager

/-- The duty at every place of an alive thread, given one for each slot. -/
def dutyFor (alive : List ThreadPosition)
    (slotDuties : SlotPosition → Duty) : Place → Option Duty :=
  fun place =>
    if place.2 ∈ alive then some (slotDuties place.1) else none

/-- The duty of a slot. -/
def slotDuty (low : Int) (object : WatchpointObject) : Duty :=
  if object.isUsed then ⟨low, some object.addr⟩ else ⟨3, none⟩

/-- The duties of a state. -/
def duty (low : Int) (manager : Manager) : Place → Option Duty :=
  dutyFor manager.threads.aliveThreadsList
    fun slot => slotDuty low (manager.wp slot)

/-- What every state satisfies as long as nothing stale is inherited. -/
structure OwnershipInvariant (low : Int) (manager : Manager) : Prop where
  wellFormed : manager.threads.WellFormed
  owned : Owned (manager.duty low) (recordsOf manager.wp) manager.kernel

/-- The action does not let a thread inherit a stale record: where the slot's
record at the index of a new thread is not below the threshold, the slot is
used and the thread's prologue rewrites it. -/
def InheritsNothing (low : Int) (environment : Environment)
    (manager : Manager) : Action → Prop
  | .threadCreate _ =>
      ∀ tindex table,
        manager.threads.allocThreadIndex = some (some tindex, table) →
        ∀ slot,
          (if (manager.wp slot).isUsed then low else 3) ≤
            ((manager.wp slot).fd tindex).number →
          (manager.wp slot).isUsed = true ∧
            Reached environment manager.wp slotPositions manager.kernel slot
  | _ => True

/-- Nothing is inherited at the index that the allocation finds. -/
theorem inheritsNothing_of_found
    {low : Int}
    {environment : Environment}
    {manager : Manager}
    (tindex : ThreadPosition)
    (found : manager.threads.allocThreadIndex.map Prod.fst =
      some (some tindex))
    (rewritten : ∀ slot,
      (if (manager.wp slot).isUsed then low else 3) ≤
        ((manager.wp slot).fd tindex).number →
      (manager.wp slot).isUsed = true ∧
        Reached environment manager.wp slotPositions manager.kernel slot)
    (tid : Nat) :
    InheritsNothing low environment manager (.threadCreate tid) := by
  intro index table allocated
  rw [allocated, Option.map_some, Option.some.injEq, Option.some.injEq]
    at found
  subst found
  exact rewritten

section Duties

variable {low : Int} {alive : List ThreadPosition}
  {slotDuties : SlotPosition → Duty}

theorem dutyFor_of_mem
    {place : Place}
    (member : place.2 ∈ alive) :
    dutyFor alive slotDuties place = some (slotDuties place.1) :=
  if_pos member

theorem dutyFor_eq_some
    {place : Place}
    {required : Duty}
    (isDuty : dutyFor alive slotDuties place = some required) :
    place.2 ∈ alive ∧ slotDuties place.1 = required := by
  unfold dutyFor at isDuty
  split at isDuty
  · next member => exact ⟨member, Option.some.inj isDuty⟩
  · exact absurd isDuty (by simp)

theorem slotDuty_of_used
    {object : WatchpointObject}
    (used : object.isUsed = true) :
    slotDuty low object = ⟨low, some object.addr⟩ :=
  if_pos used

theorem slotDuty_of_unused
    {object : WatchpointObject}
    (unused : object.isUsed = false) :
    slotDuty low object = ⟨3, none⟩ :=
  if_neg (by simp [unused])

@[simp] theorem slotDuty_threshold (low : Int) (object : WatchpointObject) :
    (slotDuty low object).threshold = if object.isUsed then low else 3 := by
  unfold slotDuty
  split
  · rfl
  · rfl

/-- Places of alive threads are charged. -/
theorem charged_dutyFor
    {slot : SlotPosition}
    (nonnegative : 0 ≤ (slotDuties slot).threshold)
    (standard : (slotDuties slot).threshold ≤ 3)
    {index : ThreadPosition}
    (member : index ∈ alive) :
    Charged (dutyFor alive slotDuties) (slot, index) :=
  ⟨slotDuties slot, dutyFor_of_mem member, nonnegative, standard⟩

/-- Rewriting a slot changes its duty alone. -/
theorem slotDuty_update
    (low : Int)
    (wp : SlotPosition → WatchpointObject)
    (slot : SlotPosition)
    (object : WatchpointObject) :
    (fun other => slotDuty low (Function.update wp slot object other)) =
      Function.update (fun other => slotDuty low (wp other)) slot
        (slotDuty low object) := by
  funext other
  by_cases same : other = slot
  · subst same
    simp
  · simp [same]

theorem slotDuty_nonnegative
    (nonnegative : 0 ≤ low) (object : WatchpointObject) :
    0 ≤ (slotDuty low object).threshold := by
  rw [slotDuty_threshold]
  split <;> omega

theorem slotDuty_standard
    (standard : low ≤ 3) (object : WatchpointObject) :
    (slotDuty low object).threshold ≤ 3 := by
  rw [slotDuty_threshold]
  split <;> omega

/-- The records after a slot has been rewritten. -/
theorem recordsOf_update
    (wp : SlotPosition → WatchpointObject)
    (slot : SlotPosition)
    (object : WatchpointObject) :
    recordsOf (Function.update wp slot object) =
      placed (recordsOf wp) slot object.fd := by
  funext place
  by_cases same : place.1 = slot
  · simp [recordsOf, placed, same]
  · simp [recordsOf, placed, same]

theorem placed_recordsOf
    (wp : SlotPosition → WatchpointObject) (slot : SlotPosition) :
    placed (recordsOf wp) slot (wp slot).fd = recordsOf wp := by
  rw [← recordsOf_update, Function.update_eq_self]

end Duties

/-- The duties of a state with that of one slot replaced. -/
def withDuty (low : Int) (manager : Manager) (slot : SlotPosition)
    (required : Duty) : Place → Option Duty :=
  dutyFor manager.threads.aliveThreadsList
    (Function.update (fun other => slotDuty low (manager.wp other)) slot
      required)

@[simp] theorem withDuty_self
    (low : Int) (manager : Manager) (slot : SlotPosition) :
    withDuty low manager slot (slotDuty low (manager.wp slot)) =
      manager.duty low := by
  rw [withDuty, Function.update_eq_self]
  rfl

/-- Replacing a slot's duty makes no difference elsewhere. -/
@[simp] theorem withDuty_of_ne
    {low : Int}
    {manager : Manager}
    {slot : SlotPosition}
    (first second : Duty)
    {place : Place}
    (elsewhere : place.1 = slot →
      place.2 ∉ manager.threads.aliveThreadsList) :
    withDuty low manager slot first place =
      withDuty low manager slot second place := by
  unfold withDuty dutyFor
  split
  · next member =>
      have different : place.1 ≠ slot := fun same => elsewhere same member
      rw [Function.update_of_ne different, Function.update_of_ne different]
  · rfl

section Steps

variable {environment : Environment} {low : Int} {manager next : Manager}

/-- Vacating a slot leaves it with the duty of an unused one. -/
theorem vacateSlot_owned
    (nonnegative : 0 ≤ low)
    (standard : low ≤ 3)
    (invariant : OwnershipInvariant low manager)
    {slot : SlotPosition}
    {vacated : Records}
    {kernel : Kernel}
    (vacates : vacateSlot environment manager.threads.aliveThreads
      (manager.wp slot) manager.kernel = (vacated, kernel)) :
    Owned (withDuty low manager slot ⟨3, none⟩)
      (placed (recordsOf manager.wp) slot vacated) kernel := by
  have owned := invariant.owned
  have indices := invariant.wellFormed.map_index_aliveThreads
  rw [← placed_recordsOf manager.wp slot] at owned
  cases used : (manager.wp slot).isUsed with
  | false =>
      simp only [vacateSlot, used, Bool.false_eq_true, if_false,
        Prod.mk.injEq] at vacates
      obtain ⟨rfl, rfl⟩ := vacates
      have isWeak : slotDuty low (manager.wp slot) = ⟨3, none⟩ :=
        slotDuty_of_unused used
      rw [← isWeak, withDuty_self]
      exact owned
  | true =>
      have charged : ∀ thread ∈ manager.threads.aliveThreads,
          Charged (manager.duty low) (slot, thread.index) := by
        intro thread member
        refine charged_dutyFor (slotDuty_nonnegative nonnegative _)
          (slotDuty_standard standard _) ?_
        rw [← indices]
        exact List.mem_map_of_mem member
      have disabled := disableThreads_owned environment charged owned
      have cleared : ∀ index ∈ manager.threads.aliveThreadsList,
          (disableThreads environment manager.threads.aliveThreads
            (manager.wp slot).fd manager.kernel).2.1 index = .minusOne :=
        fun index member => disableThreads_fd environment _ _
          (Or.inl (indices ▸ member))
      simp only [vacateSlot, used, if_true] at vacates
      obtain ⟨rfl, rfl⟩ := Prod.mk.inj vacates
      refine disabled.weaken fun place required isDuty above => ?_
      obtain ⟨member, isRequired⟩ := dutyFor_eq_some isDuty
      by_cases same : place.1 = slot
      · rw [same, Function.update_self] at isRequired
        rw [placed, if_pos same, cleared _ member, ← isRequired,
          Descriptor.minusOne_number] at above
        exact absurd above (by decide)
      · rw [Function.update_of_ne same] at isRequired
        exact ⟨required, isRequired ▸ dutyFor_of_mem member, above,
          fun _ isAddress => isAddress⟩

/-- Writing a slot keeps ownership. -/
theorem writeSlot_owned
    (nonnegative : 0 ≤ low)
    (standard : low ≤ 3)
    (invariant : OwnershipInvariant low manager)
    (request : Request) (slot : SlotPosition) :
    OwnershipInvariant low
      (writeSlot environment request slot manager).2 := by
  obtain ⟨vacated, vacatedKernel, ret, number, fd, kernel, vacates,
    installs⟩ := exists_writeSlot_loops environment request slot manager
  have indices := invariant.wellFormed.map_index_aliveThreads
  have listed : ∀ thread ∈ manager.threads.aliveThreads,
      thread.index ∈ manager.threads.aliveThreadsList := by
    intro thread member
    rw [← indices]
    exact List.mem_map_of_mem member
  have emptied := vacateSlot_owned nonnegative standard invariant vacates
  have accepts : ∀ thread ∈ manager.threads.aliveThreads,
      Accepts (withDuty low manager slot ⟨low, some request.addr⟩)
        (slot, thread.index) request.addr := by
    intro thread member required isDuty
    obtain ⟨-, isRequired⟩ := dutyFor_eq_some isDuty
    rw [Function.update_self] at isRequired
    subst isRequired
    exact ⟨nonnegative, fun address isAddress =>
      Option.some.inj isAddress⟩
  have chargedWith : ∀ required : Duty, 0 ≤ required.threshold →
      required.threshold ≤ 3 →
      ∀ thread ∈ manager.threads.aliveThreads,
        Charged (withDuty low manager slot required) (slot, thread.index) := by
    intro required above below thread member
    apply charged_dutyFor _ _ (listed thread member)
    · rwa [Function.update_self]
    · rwa [Function.update_self]
  have installed := setWatchpointFds_owned
    invariant.wellFormed.nodup_index accepts
    (chargedWith ⟨3, none⟩ (by decide) (by decide))
    (chargedWith _ nonnegative standard)
    (fun place elsewhere => withDuty_of_ne _ _ fun same member =>
      elsewhere ⟨same, indices ▸ member⟩)
    emptied installs
  rw [writeSlot_eq vacates installs]
  refine ⟨invariant.wellFormed, ?_⟩
  unfold duty
  rw [slotDuty_update, recordsOf_update]
  cases ret with
  | true => exact installed.congr_kernel rfl rfl
  | false => exact installed

/-- A section of `setWatchpoint` keeps ownership. -/
theorem setSection_owned
    (nonnegative : 0 ≤ low)
    (standard : low ≤ 3)
    (invariant : OwnershipInvariant low manager)
    (watchedRatio : Word → Int) (request : Request) (slot : SlotPosition) :
    OwnershipInvariant low
      (setSection environment watchedRatio request slot manager).2 := by
  have tested : OwnershipInvariant low { manager with
      kernel := (isValid environment watchedRatio request (manager.wp slot)
        manager.kernel).2 } := by
    refine ⟨invariant.wellFormed, ?_⟩
    rcases isValid_snd environment watchedRatio (manager.wp slot)
      manager.kernel with same | ticked
    · rw [same]
      exact invariant.owned
    · rw [ticked]
      exact invariant.owned.congr_kernel rfl rfl
  cases valid : (isValid environment watchedRatio request (manager.wp slot)
      manager.kernel).1 with
  | false =>
      rw [setSection_of_invalid valid]
      exact tested
  | true =>
      rw [setSection_of_valid valid]
      exact writeSlot_owned nonnegative standard tested request slot

/-- A section of `disableWatchpointByAddr` keeps ownership. -/
theorem disableSection_owned
    (nonnegative : 0 ≤ low)
    (standard : low ≤ 3)
    (invariant : OwnershipInvariant low manager)
    (addr : Word) (slot : SlotPosition) :
    OwnershipInvariant low
      (disableSection environment addr slot manager) := by
  obtain same | ⟨matched, ret, fd, kernel, disabled, result⟩ :=
    disableSection_cases environment addr slot manager
  · rw [same]
    exact invariant
  · rw [result]
    refine ⟨invariant.wellFormed, ?_⟩
    have vacates : vacateSlot environment manager.threads.aliveThreads
        (manager.wp slot) manager.kernel = (fd, kernel) := by
      simp [vacateSlot, matched.1, disabled]
    have emptied := vacateSlot_owned nonnegative standard invariant vacates
    have cleared : ∀ index ∈ manager.threads.aliveThreadsList,
        fd index = .minusOne := by
      intro index member
      rw [← invariant.wellFormed.map_index_aliveThreads] at member
      have minusOne := disableThreads_fd environment (manager.wp slot).fd
        manager.kernel (Or.inl member)
      rwa [disabled] at minusOne
    unfold duty
    rw [slotDuty_update, recordsOf_update]
    refine emptied.weaken fun place required isDuty above => ?_
    obtain ⟨member, isRequired⟩ := dutyFor_eq_some isDuty
    by_cases same : place.1 = slot
    · rw [same, Function.update_self] at isRequired
      have below := slotDuty_nonnegative nonnegative
        { manager.wp slot with
          isUsed := if ret then false else (manager.wp slot).isUsed
          fd := fd }
      rw [placed, if_pos same, cleared _ member, ← isRequired,
        Descriptor.minusOne_number] at above
      omega
    · rw [Function.update_of_ne same] at isRequired
      refine ⟨required, ?_, above, fun _ isAddress => isAddress⟩
      rw [withDuty, dutyFor_of_mem member, Function.update_of_ne same,
        isRequired]

/-- The creation of a thread that inherits nothing keeps ownership. -/
theorem threadCreate_owned
    (nonnegative : 0 ≤ low)
    (invariant : OwnershipInvariant low manager)
    {tid : Nat}
    (inherits : InheritsNothing low environment manager (.threadCreate tid))
    (created : threadCreate environment tid manager = some next) :
    OwnershipInvariant low next := by
  obtain ⟨tindex, table, allocated, rfl⟩ := threadCreate_eq_some created
  obtain ⟨available, isTable⟩ :=
    ThreadTable.allocThreadIndex_eq_some allocated
  refine ⟨invariant.wellFormed.create allocated tid, ?_⟩
  have isIndex : ((table.setThread tindex tid).threads tindex).index =
      tindex := by
    rw [ThreadTable.setThread_threads_self]
  have aliveList : table.aliveThreadsList =
      manager.threads.aliveThreadsList := by
    rw [isTable]
  generalize (table.setThread tindex tid).threads tindex = thread at isIndex
  subst isIndex
  have before : Owned
      (dutyExcept
        (dutyFor (manager.threads.aliveThreadsList ++ [thread.index])
          fun slot => slotDuty low (manager.wp slot))
        thread.index slotPositions)
      (recordsOf manager.wp) manager.kernel := by
    refine invariant.owned.weaken fun place required isDuty above =>
      ⟨required, ?_, above, fun _ isAddress => isAddress⟩
    unfold dutyExcept at isDuty
    split at isDuty
    · exact absurd isDuty (by simp)
    · next elsewhere =>
        obtain ⟨member, isRequired⟩ := dutyFor_eq_some isDuty
        rw [List.mem_append, List.mem_singleton] at member
        have old := member.resolve_right fun same =>
          elsewhere ⟨same, List.mem_finRange _⟩
        rw [duty, dutyFor_of_mem old, isRequired]
  have accepts : ∀ slot ∈ slotPositions, (manager.wp slot).isUsed = true →
      Accepts
        (dutyFor (manager.threads.aliveThreadsList ++ [thread.index])
          fun slot => slotDuty low (manager.wp slot))
        (slot, thread.index) (manager.wp slot).addr := by
    intro slot _ used required isDuty
    obtain ⟨-, isRequired⟩ := dutyFor_eq_some isDuty
    rw [slotDuty_of_used used] at isRequired
    subst isRequired
    exact ⟨nonnegative, fun address isAddress => Option.some.inj isAddress⟩
  have reaches : ∀ slot ∈ slotPositions, ∀ required,
      dutyFor (manager.threads.aliveThreadsList ++ [thread.index])
          (fun slot => slotDuty low (manager.wp slot))
          (slot, thread.index) = some required →
      required.threshold ≤ ((manager.wp slot).fd thread.index).number →
      (manager.wp slot).isUsed = true ∧
        Reached environment manager.wp slotPositions manager.kernel slot := by
    intro slot _ required isDuty above
    obtain ⟨-, isRequired⟩ := dutyFor_eq_some isDuty
    rw [← isRequired, slotDuty_threshold] at above
    exact inherits _ _ allocated slot above
  have after := setWatchpointByThreadLoop_owned (List.nodup_finRange _)
    accepts reaches before
  have sameDuties : (fun slot => slotDuty low
      ((setWatchpointByThreadLoop environment thread slotPositions
        manager.wp manager.kernel).2.1 slot)) =
      fun slot => slotDuty low (manager.wp slot) := by
    funext slot
    obtain ⟨_, result, -⟩ := setWatchpointByThreadLoop_wp environment thread
      slotPositions manager.wp manager.kernel slot
    rw [result]
    rfl
  unfold duty
  dsimp only [ThreadTable.insertTail_aliveThreadsList,
    ThreadTable.setThread_aliveThreadsList]
  rw [sameDuties, aliveList]
  exact after

/-- The exit of a thread keeps ownership: it discharges the duties of the
thread's places. -/
theorem threadExit_owned
    (nonnegative : 0 ≤ low)
    (standard : low ≤ 3)
    (invariant : OwnershipInvariant low manager)
    {position : ThreadPosition}
    (alive : position ∈ manager.threads.aliveThreadsList) :
    OwnershipInvariant low (threadExit environment position manager) := by
  refine ⟨invariant.wellFormed.release alive, ?_⟩
  have isIndex := invariant.wellFormed.index_eq position
  have charged : ∀ slot ∈ slotPositions,
      Charged (manager.duty low) (slot, position) := by
    intro slot _
    exact charged_dutyFor (slotDuty_nonnegative nonnegative _)
      (slotDuty_standard standard _) alive
  have before : Owned (dutyExcept (manager.duty low) position [])
      (recordsOf manager.wp) manager.kernel := by
    refine invariant.owned.weaken fun place required isDuty above =>
      ⟨required, ?_, above, fun _ isAddress => isAddress⟩
    simpa [dutyExcept] using isDuty
  have after : Owned
      (dutyExcept (manager.duty low) position (slotPositions.reverse ++ []))
      (recordsOf manager.wp)
      (exitSlots environment manager.wp position slotPositions
        manager.kernel) :=
    exitSlots_owned (List.nodup_finRange _) charged
      (fun _ _ => List.not_mem_nil) before
  rw [threadExit, isIndex]
  refine after.weaken fun place required isDuty above =>
    ⟨required, ?_, above, fun _ isAddress => isAddress⟩
  obtain ⟨member, isRequired⟩ := dutyFor_eq_some isDuty
  obtain ⟨different, old⟩ :=
    invariant.wellFormed.nodup.mem_erase_iff.mp member
  rw [dutyExcept, if_neg fun both => different both.1, duty,
    dutyFor_of_mem old]
  exact congrArg some isRequired

/-- The application's own descriptors are never demanded. -/
theorem appOpen_owned
    (invariant : OwnershipInvariant low manager) :
    OwnershipInvariant low (appOpen environment manager) := by
  unfold appOpen
  dsimp only
  split
  · exact ⟨invariant.wellFormed, invariant.owned.congr_kernel rfl rfl⟩
  · refine ⟨invariant.wellFormed, ?_⟩
    have isFree := environment.descriptor_free manager.kernel.calls
      manager.kernel.files
    refine invariant.owned.congr_lookup rfl
      (environment.descriptor manager.kernel.calls manager.kernel.files)
      (fun other different =>
        DescriptorTable.lookup_insert_of_ne _ _ different) ?_
    intro event isEvent
    rw [isFree] at isEvent
    exact absurd isEvent (by simp)

theorem appClose_owned
    (invariant : OwnershipInvariant low manager)
    {number : Nat}
    (closed : appClose environment number manager = some next) :
    OwnershipInvariant low next := by
  obtain ⟨isApp, rfl⟩ := appClose_eq_some closed
  refine ⟨invariant.wellFormed, ?_⟩
  refine invariant.owned.congr_lookup rfl number
    (fun other different =>
      DescriptorTable.lookup_erase_of_ne _ different) ?_
  intro event isEvent
  rw [isApp] at isEvent
  exact absurd isEvent (by simp)

/-- Every step that lets no thread inherit a stale record keeps ownership. -/
theorem step_owned
    (nonnegative : 0 ≤ low)
    (standard : low ≤ 3)
    {action : Action}
    (invariant : OwnershipInvariant low manager)
    (inherits : InheritsNothing low environment manager action)
    (stepped : step environment manager action = some next) :
    OwnershipInvariant low next := by
  cases action with
  | setSection watchedRatio request slot =>
      rw [step, Option.some.injEq] at stepped
      subst stepped
      exact setSection_owned nonnegative standard invariant watchedRatio
        request slot
  | disableSection addr slot =>
      rw [step, Option.some.injEq] at stepped
      subst stepped
      exact disableSection_owned nonnegative standard invariant addr slot
  | threadCreate tid =>
      exact threadCreate_owned nonnegative invariant inherits stepped
  | threadExit position =>
      obtain ⟨alive, rfl⟩ := step_threadExit_eq_some stepped
      exact threadExit_owned nonnegative standard invariant alive
  | appOpen =>
      rw [step, Option.some.injEq] at stepped
      subst stepped
      exact appOpen_owned invariant
  | appClose number => exact appClose_owned invariant stepped

/-- The initial records are zero, which is below every threshold that is not
zero; and no slot is used. -/
theorem ownershipInvariant_start
    (low : Int) (files : DescriptorTable File) (tid : Nat) :
    OwnershipInvariant low (start files tid) := by
  have undemanded : ∀ place required,
      (start files tid).duty low place = some required →
      ¬required.threshold ≤
        (recordsOf (start files tid).wp place).number := by
    intro place required isDuty above
    obtain ⟨-, isRequired⟩ := dutyFor_eq_some isDuty
    rw [slotDuty_of_unused rfl] at isRequired
    subst isRequired
    have impossible : (3 : Int) ≤ 0 := above
    omega
  refine ⟨ThreadTable.wellFormed_initializeTable tid, ⟨?_, ?_, ?_⟩⟩
  · intro closing member
    exact absurd member List.not_mem_nil
  · intro place required isDuty above
    exact absurd above (undemanded place required isDuty)
  · rintro first _ ⟨required, isDuty, above⟩
    exact absurd above (undemanded first required isDuty)

/-- Ownership holds after every run in which no thread inherits a stale
record. -/
theorem run_owned
    (nonnegative : 0 ≤ low)
    (standard : low ≤ 3)
    (files : DescriptorTable File)
    (tid : Nat)
    {actions : List Action}
    {final : Manager}
    (inherits : Machine.Along (step environment)
      (InheritsNothing low environment) (start files tid) actions)
    (executed : run environment (start files tid) actions = some final) :
    OwnershipInvariant low final :=
  Machine.run_invariant
    (fun _ _ _ invariant allowed stepped =>
      step_owned nonnegative standard invariant allowed stepped)
    (ownershipInvariant_start low files tid) inherits executed

end Steps

end Manager
end Causer
