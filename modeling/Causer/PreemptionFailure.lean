import Causer.OwnershipLoops
import Causer.SlotExclusion
import Causer.WatchCounter

/-!
# A request that fails

`setWatchpoint` disables the watchpoint of a slot that it takes over before it
knows whether the new one can be installed.  When that fails the slot is unused,
and the loop goes on to the next one.  Slots that are not taken over keep their
objects, and the descriptors that were open before the call stay open.
-/

namespace Causer
namespace Manager

/-- The record is the enabled descriptor of an event that is open. -/
def EnabledIn (kernel : Kernel) (record : Descriptor) : Prop :=
  record.enabled = true ∧
    ∃ event, record.origin = some event ∧
      kernel.files.lookup record.number.toNat = some (.perf event)

/-- A slot is still used for the same object, and every alive thread that had
its enabled descriptor still has it. -/
structure KeepsSlot (before after : Manager) (slot : SlotPosition) :
    Prop where
  isUsed : (after.wp slot).isUsed = true
  addr : (after.wp slot).addr = (before.wp slot).addr
  objectstart : (after.wp slot).objectstart = (before.wp slot).objectstart
  objectsize : (after.wp slot).objectsize = (before.wp slot).objectsize
  callstack : (after.wp slot).callstack = (before.wp slot).callstack
  enabled : ∀ thread ∈ before.threads.aliveThreads,
    EnabledIn before.kernel ((before.wp slot).fd thread.index) →
      (after.wp slot).fd thread.index = (before.wp slot).fd thread.index ∧
        EnabledIn after.kernel ((after.wp slot).fd thread.index)

/-- Every used slot is kept. -/
def KeepsUsed (before after : Manager) : Prop :=
  ∀ slot, (before.wp slot).isUsed = true → KeepsSlot before after slot

/-- A round of the loop takes over a used slot. -/
def PreemptsIn (environment : Environment) (watchedRatio : Word → Int)
    (request : Request) : Nat → SlotPosition → Manager → Prop
  | 0, _, _ => False
  | left + 1, sidx, manager =>
      if !(manager.wp sidx).isUsed || request.ispreempt then
        TakesOver environment manager (.setSection watchedRatio request sidx) ∨
          PreemptsIn environment watchedRatio request left (sidx + 1)
            (setSection environment watchedRatio request sidx manager).2
      else
        PreemptsIn environment watchedRatio request left (sidx + 1) manager

/-- A call of `setWatchpoint` takes over a used slot. -/
def Preempts (environment : Environment) (watchedRatio : Word → Int)
    (request : Request) (manager : Manager) : Prop :=
  PreemptsIn environment watchedRatio request maxWatchpoints manager.curIndex
    manager

/-- What was open is still open. -/
def KeepsFiles (before after : Kernel) : Prop :=
  ∀ number file, before.files.lookup number = some file →
    after.files.lookup number = some file

/-- The record is `-1` or a number that was not open. -/
def Fresh (before : Kernel) (record : Descriptor) : Prop :=
  record.number = -1 ∨ before.files.lookup record.number.toNat = none

section Kernels

variable {environment : Environment} {before kernel after : Kernel}

theorem KeepsFiles.refl (kernel : Kernel) : KeepsFiles kernel kernel :=
  fun _ _ isOpen => isOpen

theorem KeepsFiles.trans
    (first : KeepsFiles before kernel)
    (second : KeepsFiles kernel after) :
    KeepsFiles before after :=
  fun number file isOpen => second number file (first number file isOpen)

/-- What is not open later was not open before. -/
theorem Fresh.of_kept
    {record : Descriptor}
    (fresh : Fresh kernel record)
    (kept : KeepsFiles before kernel) :
    Fresh before record := by
  refine fresh.imp_right fun closed => ?_
  cases isOpen : before.files.lookup record.number.toNat with
  | none => rfl
  | some file =>
      rw [kept _ file isOpen] at closed
      cases closed

/-- Watching a thread keeps what is open and yields a fresh record. -/
theorem watchThread_kept
    {addr : Word} {tid : Nat} {watched : Bool} {record : Descriptor}
    (watches : watchThread environment addr tid kernel =
      (watched, record, after)) :
    KeepsFiles kernel after ∧ Fresh kernel record := by
  obtain ⟨watched', record', after', result, -, -, outcome⟩ :=
    watchThread_cases environment addr tid kernel
  rw [watches, Prod.mk.injEq, Prod.mk.injEq] at result
  obtain ⟨rfl, rfl, rfl⟩ := result
  have isFree : kernel.files.lookup (kernel.nextNumber environment) = none :=
    environment.descriptor_free kernel.calls kernel.files
  rcases outcome with ⟨-, rfl, rfl⟩ | ⟨opening, outcome⟩
  · exact ⟨KeepsFiles.refl kernel, Or.inl rfl⟩
  · constructor
    · intro number file isOpen
      have different : number ≠ kernel.nextNumber environment := by
        rintro rfl
        rw [isFree] at isOpen
        cases isOpen
      rw [opening.files, DescriptorTable.lookup_insert_of_ne _ _ different]
      exact isOpen
    · rcases outcome with ⟨-, rfl⟩ | rfl
      · exact Or.inl rfl
      · exact Or.inr isFree

/-- Disabling a fresh record keeps what was open. -/
theorem KeepsFiles.disable
    (kept : KeepsFiles before kernel)
    {record : Descriptor}
    (fresh : Fresh before record) :
    KeepsFiles before (disableWatchpoint environment record kernel).2 := by
  rcases Int.lt_or_le record.number 3 with standard | above
  · rw [disableWatchpoint_of_lt environment standard]
    exact kept
  · obtain ⟨result, disabled, -⟩ :=
      disableWatchpoint_of_ge environment above kernel
    rw [disabled]
    intro number file isOpen
    have different : number ≠ record.number.toNat := by
      rintro rfl
      rcases fresh with minusOne | closed
      · omega
      · rw [closed] at isOpen
        cases isOpen
    exact (DescriptorTable.lookup_erase_of_ne _ different).trans
      (kept number file isOpen)

end Kernels

section Installing

variable {environment : Environment} {addr : Word} {threads : List Thread}
  {fd after : Records} {before kernel afterKernel : Kernel} {ret : Bool}
  {installednum : Nat}

/-- The installing loop keeps what is open, and the records up to the thread
at which it stops are fresh. -/
theorem installThreads_kept
    (distinct : (threads.map Thread.index).Nodup)
    (installs : installThreads environment addr threads fd kernel =
      (ret, installednum, after, afterKernel)) :
    KeepsFiles kernel afterKernel ∧
      ∀ thread ∈ threads.take (installednum + 1),
        Fresh kernel (after thread.index) := by
  induction threads generalizing fd kernel installednum with
  | nil =>
      simp only [installThreads, Prod.mk.injEq] at installs
      obtain ⟨-, rfl, rfl, rfl⟩ := installs
      exact ⟨KeepsFiles.refl kernel, by simp⟩
  | cons thread threads inductionHypothesis =>
      rw [List.map_cons, List.nodup_cons] at distinct
      rcases watches : watchThread environment addr thread.tid kernel with
        ⟨watched, record, middle⟩
      obtain ⟨kept, fresh⟩ := watchThread_kept watches
      rw [installThreads, watches] at installs
      cases watched with
      | false =>
          simp only [Bool.false_eq_true, if_false, Prod.mk.injEq] at installs
          obtain ⟨-, rfl, rfl, rfl⟩ := installs
          refine ⟨kept, ?_⟩
          simpa using fresh
      | true =>
          rcases rest : installThreads environment addr threads
            (Function.update fd thread.index record) middle with
            ⟨restRet, restNum, restFd, restKernel⟩
          simp only [if_true, rest, Prod.mk.injEq] at installs
          obtain ⟨rfl, rfl, rfl, rfl⟩ := installs
          obtain ⟨restKept, restFresh⟩ := inductionHypothesis distinct.2 rest
          have unwritten : _ = Function.update fd thread.index record _ :=
            installThreads_of_not_mem environment addr distinct.1 _ middle
          rw [rest, Function.update_self] at unwritten
          dsimp only at unwritten
          refine ⟨kept.trans restKept, ?_⟩
          rw [List.take_succ_cons, List.forall_mem_cons]
          constructor
          · rw [unwritten]
            exact fresh
          · intro other member
            exact (restFresh other member).of_kept kept

/-- An installation for all threads is counted. -/
theorem setWatchpointFds_of_installed
    (installs : installThreads environment addr threads fd kernel =
      (true, installednum, after, afterKernel))
    {numWatchpoints : Int} :
    setWatchpointFds environment addr threads numWatchpoints fd kernel =
      (true, atomicAddFetch numWatchpoints 1, after, afterKernel) := by
  rw [setWatchpointFds, installs]
  rfl

/-- An installation that stops is undone. -/
theorem setWatchpointFds_of_stopped
    (installs : installThreads environment addr threads fd kernel =
      (false, installednum, after, afterKernel))
    {numWatchpoints : Int} :
    setWatchpointFds environment addr threads numWatchpoints fd kernel =
      (false, numWatchpoints,
        rollbackThreads environment threads installednum after
          afterKernel) := by
  rw [setWatchpointFds, installs]
  rfl

/-- Undoing an installation of fresh records keeps what was open. -/
theorem rollbackThreads_kept
    (kept : KeepsFiles before kernel)
    (fresh : ∀ thread ∈ threads.take (installednum + 1),
      Fresh before (fd thread.index)) :
    KeepsFiles before
      (rollbackThreads environment threads installednum fd kernel).2 := by
  induction threads generalizing installednum fd kernel with
  | nil => exact kept
  | cons thread threads inductionHypothesis =>
      rw [List.take_succ_cons, List.forall_mem_cons] at fresh
      obtain ⟨between, middle, round, step⟩ := rollbackThreads_cons
        environment thread threads installednum fd kernel
      have middleKept : KeepsFiles before middle := by
        rcases round with ⟨-, rfl⟩ | ⟨-, -, rfl⟩
        · exact kept.disable fresh.1
        · exact kept
      have stillFresh : ∀ index, Fresh before (fd index) →
          Fresh before (between index) := by
        intro index isFresh
        rcases round with ⟨rfl, -⟩ | ⟨-, rfl, -⟩
        · by_cases same : index = thread.index
          · rw [same, Function.update_self]
            exact Or.inl rfl
          · rw [Function.update_of_ne same]
            exact isFresh
        · exact isFresh
      rw [step]
      cases installednum with
      | zero => exact middleKept
      | succ left =>
          exact inductionHypothesis middleKept fun other member =>
            stillFresh _ (fresh.2 other member)

end Installing

/-- The slots that are used, the slots that are not, and what is open. -/
structure Spares (before after : Manager) : Prop where
  used : ∀ slot, (before.wp slot).isUsed = true →
    after.wp slot = before.wp slot
  unused : ∀ slot, (before.wp slot).isUsed = false →
    (after.wp slot).isUsed = false
  files : KeepsFiles before.kernel after.kernel
  threads : after.threads = before.threads

theorem Spares.refl (manager : Manager) : Spares manager manager :=
  ⟨fun _ _ => rfl, fun _ isUnused => isUnused, .refl _, rfl⟩

theorem Spares.trans
    {before middle after : Manager}
    (first : Spares before middle)
    (second : Spares middle after) :
    Spares before after where
  used := fun slot isUsed => by
    rw [second.used slot (by rw [first.used slot isUsed]; exact isUsed),
      first.used slot isUsed]
  unused := fun slot isUnused =>
    second.unused slot (first.unused slot isUnused)
  files := first.files.trans second.files
  threads := second.threads.trans first.threads

theorem Spares.keepsUsed
    {before after : Manager}
    (spares : Spares before after) :
    KeepsUsed before after := by
  intro slot isUsed
  have same := spares.used slot isUsed
  refine ⟨by rw [same]; exact isUsed, by rw [same], by rw [same], by rw [same],
    by rw [same], fun thread _ had => ?_⟩
  rw [same]
  obtain ⟨enabled, event, origin, isOpen⟩ := had
  exact ⟨rfl, enabled, event, origin, spares.files _ _ isOpen⟩

section Rounds

variable {environment : Environment} {watchedRatio : Word → Int}
  {request : Request} {manager : Manager}

/-- A failed write to an unused slot leaves it unused, and keeps what is
open. -/
theorem writeSlot_spares
    (wellFormed : manager.threads.WellFormed)
    {slot : SlotPosition}
    (isUnused : (manager.wp slot).isUsed = false)
    (failed : (writeSlot environment request slot manager).1 = false) :
    Spares manager (writeSlot environment request slot manager).2 := by
  have vacates : vacateSlot environment manager.threads.aliveThreads
      (manager.wp slot) manager.kernel =
        ((manager.wp slot).fd, manager.kernel) := by
    rw [vacateSlot, if_neg (by rw [isUnused]; exact Bool.false_ne_true)]
  rcases installs : installThreads environment request.addr
    manager.threads.aliveThreads (manager.wp slot).fd manager.kernel with
    ⟨ret, installednum, fd, kernel⟩
  obtain ⟨kept, fresh⟩ :=
    installThreads_kept wellFormed.nodup_index installs
  cases ret with
  | true =>
      rw [writeSlot_eq vacates (setWatchpointFds_of_installed installs)]
        at failed
      cases failed
  | false =>
      rw [writeSlot_eq vacates (setWatchpointFds_of_stopped installs)]
      refine ⟨fun other isUsed => ?_, fun other otherUnused => ?_, ?_, rfl⟩
      · have different : other ≠ slot := by
          rintro rfl
          rw [isUnused] at isUsed
          cases isUsed
        exact Function.update_of_ne different ..
      · by_cases same : other = slot
        · subst same
          dsimp only
          rw [Function.update_self]
        · dsimp only
          rw [Function.update_of_ne same]
          exact otherUnused
      · exact rollbackThreads_kept kept fresh

/-- A failed section that takes over no used slot. -/
theorem setSection_spares
    (wellFormed : manager.threads.WellFormed)
    {slot : SlotPosition}
    (failed :
      (setSection environment watchedRatio request slot manager).1 = false)
    (spared : ¬TakesOver environment manager
      (.setSection watchedRatio request slot)) :
    Spares manager
      (setSection environment watchedRatio request slot manager).2 := by
  have ticked : ∀ kernel, kernel = manager.kernel ∨
      kernel = manager.kernel.tick →
        Spares manager { manager with kernel := kernel } := by
    rintro kernel (rfl | rfl)
    · exact .refl manager
    · exact ⟨fun _ _ => rfl, fun _ isUnused => isUnused, fun _ _ isOpen =>
        isOpen, rfl⟩
  have tested : (isValid environment watchedRatio request (manager.wp slot)
      manager.kernel).2 = manager.kernel ∨ _ := isValid_snd ..
  cases valid : (isValid environment watchedRatio request (manager.wp slot)
      manager.kernel).1 with
  | false =>
      rw [setSection_of_invalid valid]
      exact ticked _ tested
  | true =>
      have isUnused : (manager.wp slot).isUsed = false := by
        rw [← Bool.not_eq_true]
        exact fun isUsed => spared ⟨isUsed, valid⟩
      rw [setSection_of_valid valid] at failed ⊢
      refine (ticked _ tested).trans ?_
      apply writeSlot_spares
      · exact wellFormed
      · exact isUnused
      · exact failed

/-- A failed loop that takes over no used slot. -/
theorem setWatchpointLoop_spares
    (wellFormed : manager.threads.WellFormed)
    {left : Nat} {sidx : SlotPosition}
    (failed : (setWatchpointLoop environment watchedRatio request left sidx
      manager).1 = false)
    (spared : ¬PreemptsIn environment watchedRatio request left sidx manager) :
    Spares manager (setWatchpointLoop environment watchedRatio request left
      sidx manager).2 := by
  induction left generalizing sidx manager with
  | zero => exact .refl manager
  | succ left inductionHypothesis =>
      rw [setWatchpointLoop] at failed ⊢
      rw [PreemptsIn] at spared
      split_ifs at failed spared ⊢ with tested
      · rw [not_or] at spared
        rcases section_eq : setSection environment watchedRatio request sidx
          manager with ⟨ret, next⟩
        have kept := setSection_threads environment watchedRatio request sidx
          manager
        rw [section_eq] at failed spared kept
        cases ret with
        | true => cases failed
        | false =>
            have first := setSection_spares wellFormed
              (by rw [section_eq]) spared.1
            rw [section_eq] at first
            exact first.trans
              (inductionHypothesis (kept ▸ wellFormed) failed spared.2)
      · exact inductionHypothesis wellFormed failed spared

/-- The slots that a loop of some rounds comes to. -/
def visitOrder : Nat → SlotPosition → List SlotPosition
  | 0, _ => []
  | left + 1, sidx => sidx :: visitOrder left (sidx + 1)

/-- A call comes to every slot once. -/
theorem nodup_visitOrder :
    ∀ sidx, (visitOrder maxWatchpoints sidx).Nodup := by decide

/-- A slot whose takeover fails is not used any more. -/
theorem setSection_unused_of_takesOver
    {slot : SlotPosition}
    (takes : TakesOver environment manager
      (.setSection watchedRatio request slot))
    (failed :
      (setSection environment watchedRatio request slot manager).1 = false) :
    ((setSection environment watchedRatio request slot manager).2.wp
      slot).isUsed = false := by
  rw [setSection_of_valid takes.2] at failed ⊢
  obtain ⟨installtime, fd, written⟩ := writeSlot_wp environment request slot
    { manager with
      kernel := (isValid environment watchedRatio request
        (manager.wp slot) manager.kernel).2 }
  rw [written, Function.update_self]
  exact failed

/-- A loop leaves the slots alone that it does not come to. -/
theorem setWatchpointLoop_wp_of_not_mem
    {left : Nat} {sidx slot : SlotPosition}
    (apart : slot ∉ visitOrder left sidx) :
    (setWatchpointLoop environment watchedRatio request left sidx
      manager).2.wp slot = manager.wp slot := by
  induction left generalizing sidx manager with
  | zero => rfl
  | succ left inductionHypothesis =>
      rw [visitOrder, List.mem_cons, not_or] at apart
      rw [setWatchpointLoop]
      split_ifs with tested
      · have first : (setSection environment watchedRatio request sidx
            manager).2.wp slot = manager.wp slot :=
          setSection_wp_of_ne watchedRatio request apart.1
        rcases section_eq : setSection environment watchedRatio request sidx
          manager with ⟨ret, next⟩
        rw [section_eq] at first
        cases ret with
        | true => exact first
        | false => exact (inductionHypothesis apart.2).trans first
      · exact inductionHypothesis apart.2

/-- A failed loop that takes over a used slot leaves one unused. -/
theorem setWatchpointLoop_of_preempts
    {left : Nat} {sidx : SlotPosition}
    (once : (visitOrder left sidx).Nodup)
    (failed : (setWatchpointLoop environment watchedRatio request left sidx
      manager).1 = false)
    (preempts : PreemptsIn environment watchedRatio request left sidx
      manager) :
    ∃ slot ∈ visitOrder left sidx, (manager.wp slot).isUsed = true ∧
      ((setWatchpointLoop environment watchedRatio request left sidx
        manager).2.wp slot).isUsed = false := by
  induction left generalizing sidx manager with
  | zero => exact preempts.elim
  | succ left inductionHypothesis =>
      rw [visitOrder, List.nodup_cons] at once
      rw [setWatchpointLoop] at failed ⊢
      rw [PreemptsIn] at preempts
      rw [visitOrder]
      split_ifs at failed preempts ⊢ with tested
      · have elsewhere : ∀ slot ≠ sidx, (setSection environment watchedRatio
            request sidx manager).2.wp slot = manager.wp slot :=
          fun slot different =>
            setSection_wp_of_ne watchedRatio request different
        have lost : TakesOver environment manager
            (.setSection watchedRatio request sidx) → _ → _ :=
          setSection_unused_of_takesOver
        rcases section_eq : setSection environment watchedRatio request sidx
          manager with ⟨ret, next⟩
        rw [section_eq] at failed preempts elsewhere lost
        cases ret with
        | true => cases failed
        | false =>
            dsimp only at failed preempts elsewhere lost ⊢
            rcases preempts with takes | later
            · refine ⟨sidx, List.mem_cons_self, takes.1, ?_⟩
              exact (congrArg WatchpointObject.isUsed
                (setWatchpointLoop_wp_of_not_mem once.1)).trans
                  (lost takes rfl)
            · obtain ⟨slot, member, wasUsed, isUnused⟩ :=
                inductionHypothesis once.2 failed later
              have different : slot ≠ sidx := by
                rintro rfl
                exact once.1 member
              rw [elsewhere slot different] at wasUsed
              exact ⟨slot, List.mem_cons_of_mem _ member, wasUsed, isUnused⟩
      · obtain ⟨slot, member, wasUsed, isUnused⟩ :=
          inductionHypothesis once.2 failed preempts
        exact ⟨slot, List.mem_cons_of_mem _ member, wasUsed, isUnused⟩

end Rounds

/-- A failed request on a manager with a well formed thread table keeps the used
slots exactly when it takes over none. -/
theorem keepsUsed_iff_of_wellFormed
    {environment : Environment} {watchedRatio : Word → Int}
    {request : Request} {manager : Manager}
    (wellFormed : manager.threads.WellFormed)
    (failed :
      (setWatchpoint environment watchedRatio request manager).1 = false) :
    KeepsUsed manager
        (setWatchpoint environment watchedRatio request manager).2 ↔
      ¬Preempts environment watchedRatio request manager := by
  constructor
  · intro keeps preempts
    obtain ⟨slot, -, wasUsed, isUnused⟩ := setWatchpointLoop_of_preempts
      (nodup_visitOrder manager.curIndex) failed preempts
    have stillUsed := (keeps slot wasUsed).isUsed
    rw [setWatchpoint, isUnused] at stillUsed
    cases stillUsed
  · intro spared
    exact (setWatchpointLoop_spares wellFormed failed spared).keepsUsed

/-- In every state that a run reaches, a request that fails, whichever calls
fail in it, keeps every used slot with its object and its enabled descriptors
exactly when it takes over none. -/
theorem keepsUsed_iff
    {environment : Environment}
    {files : DescriptorTable File} {tid : Nat} {actions : List Action}
    {manager : Manager}
    (executed : run environment (start files tid) actions = some manager)
    {watchedRatio : Word → Int} {request : Request}
    (failed :
      (setWatchpoint environment watchedRatio request manager).1 = false) :
    KeepsUsed manager
        (setWatchpoint environment watchedRatio request manager).2 ↔
      ¬Preempts environment watchedRatio request manager := by
  have wellFormed : manager.threads.WellFormed :=
    Machine.run_invariant_of_step
      (fun _ _ _ wellFormed stepped => step_wellFormed wellFormed stepped)
      (ThreadTable.wellFormed_initializeTable tid) executed
  exact keepsUsed_iff_of_wellFormed wellFormed failed

/-- A kernel on which no event can be opened for the second watchpoint: the
three unused slots are tried first, and then the slot of the first one. -/
def refusingEnvironment : Environment :=
  .lowestFree (fun call => call ∈ [7, 8, 9, 13]) fun call =>
    100 * BitVec.ofNat 64 call

/-- The ratio of the second call site has not been reduced yet. -/
def sampleRatio (callstack : Word) : Int :=
  if callstack = 2 then initWatchRatio else 1000

/-- One installation. -/
def oneWatched : List Action :=
  [.setSection sampleRatio (sampleRequest 0x1000 1 false) 0]

/-- A request without preemption. -/
theorem keepsUsed_iff_refused :
    ∃ manager,
      run refusingEnvironment (start standardFiles 1) oneWatched =
        some manager ∧
      (KeepsUsed manager (setWatchpoint refusingEnvironment sampleRatio
          (sampleRequest 0x5000 2 false) manager).2 ↔
        ¬Preempts refusingEnvironment sampleRatio
          (sampleRequest 0x5000 2 false) manager) := by
  have executed : run refusingEnvironment (start standardFiles 1) oneWatched =
      some _ := rfl
  exact ⟨_, executed, keepsUsed_iff executed (by decide +kernel)⟩

/-- A request with preemption fails, and the only watchpoint is lost. -/
theorem failed_preemption_loses_slot :
    ¬∀ (environment : Environment) (files : DescriptorTable File) (tid : Nat)
      (actions : List Action) (manager : Manager) (watchedRatio : Word → Int)
      (request : Request),
      run environment (start files tid) actions = some manager →
      (setWatchpoint environment watchedRatio request manager).1 = false →
      KeepsUsed manager
        (setWatchpoint environment watchedRatio request manager).2 := by
  intro claimed
  have keeps := claimed refusingEnvironment standardFiles 1 oneWatched _
    sampleRatio (sampleRequest 0x5000 2 true) rfl (by decide +kernel)
  have lost := (keeps 0 (by decide +kernel)).isUsed
  revert lost
  decide +kernel

end Manager
end Causer
