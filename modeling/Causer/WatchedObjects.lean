import Causer.SlotObjects

/-!
# Slots watch live objects

A call with the flag on removes an object's watchpoint before it frees the
object or gives it another size, and installs one only for an object of its own
that no slot watches.  So every used slot watches an object that exists, at its
tail, and no two watch the same one, unless a call with the flag off frees or
resizes an object that is being watched, or a scan for a watched object stops at
another slot whose fields are just being written.
-/

namespace Causer
namespace SlotHeap

/-! ## Steps -/

section Steps

variable {environment : Environment}
variable {thread : Nat} {shared after : Shared}

/-- The objects that must not be watched are held. -/
theorem Position.unwatched_subset (position : Position) :
    position.unwatched ⊆ position.held := by
  have keptFree : ∀ next : AfterFree, next.kept ⊆ next.held := by
    intro next
    cases next <;> simp [AfterFree.kept, AfterFree.held]
  have keptRemove : ∀ next : AfterRemove, next.kept ⊆ next.held := by
    intro next
    cases next with
    | free next => exact keptFree next
    | malloc sz => exact List.nil_subset _
  cases position with
  | scanning ptr slots next =>
      exact List.subset_cons_of_subset _ (keptRemove next)
  | matching ptr slot slots next =>
      exact List.subset_cons_of_subset _ (keptRemove next)
  | disabling ptr slot next =>
      exact List.subset_cons_of_subset _ (keptRemove next)
  | writing request left sidx ret next =>
      dsimp only [Position.unwatched, Position.held]
      split_ifs
      · exact List.subset_cons_self _ _
      · exact List.Subset.refl _
  | freeing ptr next => exact List.cons_subset_cons _ (keptFree next)
  | comparing ptr buf sz => exact List.subset_cons_self _ _
  | returning ptr => exact List.nil_subset _
  | _ => exact List.Subset.refl _

theorem Rely.holds
    (rely : Rely thread shared after) (ptr : Word) :
    after.Holds thread ptr ↔ shared.Holds thread ptr := by
  constructor
  · rintro ⟨object, member, starts, isCaller⟩
    exact ⟨object, (rely.objects object isCaller).mp member, starts, isCaller⟩
  · rintro ⟨object, member, starts, isCaller⟩
    exact ⟨object, (rely.objects object isCaller).mpr member, starts,
      isCaller⟩

theorem Rely.holdsSized
    (rely : Rely thread shared after)
    {ptr sz : Word}
    (holds : shared.HoldsSized thread ptr sz) :
    after.HoldsSized thread ptr sz := by
  obtain ⟨object, member, starts, sized, isCaller⟩ := holds
  exact ⟨object, (rely.objects object isCaller).mpr member, starts, sized,
    isCaller⟩

theorem Rely.asksFor
    (rely : Rely thread shared after)
    {request : Request}
    (asks : shared.AsksFor thread request) :
    after.AsksFor thread request :=
  ⟨asks.1, rely.holdsSized asks.2⟩

theorem Rely.writesSlot
    (rely : Rely thread shared after)
    {request : Request}
    {sidx : SlotPosition}
    (writes : shared.WritesSlot thread request sidx) :
    after.WritesSlot thread request sidx := by
  obtain ⟨⟨unfinished, isUnfinished, own⟩, objectstart⟩ := writes
  exact ⟨⟨unfinished, (rely.unfinished sidx unfinished own).mpr isUnfinished,
    own⟩, (rely.locked sidx unfinished isUnfinished own).2.trans objectstart⟩

/-- A thread's assertion is stable under what it relies on. -/
theorem assertion_stable
    (thread : Nat) (shared after : Shared) (caller : Caller)
    (assertion : Assertion thread shared caller)
    (rely : Rely thread shared after) :
    Assertion thread after caller := by
  obtain ⟨grip, flag, knows, own⟩ := assertion
  have watches : ∀ slot, ∀ ptr ∈ caller.position.held,
      after.manager.Watches slot ptr → shared.manager.Watches slot ptr :=
    fun slot ptr member => rely.watches slot ptr ((grip.holds ptr).mpr member)
  refine ⟨⟨fun ptr => (rely.holds ptr).trans (grip.holds ptr), grip.nodup,
    fun on ptr member slot watched => grip.unwatched on ptr member slot
      (watches slot ptr (caller.position.unwatched_subset member) watched)⟩,
    flag, ?_, fun slot unfinished isUnfinished same =>
      own slot unfinished
        ((rely.unfinished slot unfinished same).mp isUnfinished) same⟩
  obtain ⟨isCauser, position⟩ := caller
  cases position with
  | scanning ptr slots next =>
      exact fun slot watched =>
        knows slot (watches slot ptr List.mem_cons_self watched)
  | matching ptr found slots next =>
      have holds : shared.Holds thread ptr :=
        (grip.holds ptr).mpr List.mem_cons_self
      exact ⟨fun slot watched =>
        knows.1 slot (watches slot ptr List.mem_cons_self watched),
        fun leftover => knows.2 (rely.leftover found ptr holds leftover)⟩
  | disabling ptr found next =>
      exact fun slot watched =>
        knows slot (watches slot ptr List.mem_cons_self watched)
  | starting ptr sz next => exact rely.holdsSized knows
  | testing request left sidx next => exact rely.asksFor knows
  | locking request left sidx next => exact rely.asksFor knows
  | drawing request next => exact rely.asksFor knows
  | writing request left sidx ret next =>
      exact ⟨rely.asksFor knows.1, rely.writesSlot knows.2⟩
  | _ => trivial

/-- A step of a thread keeps the fact, its own assertion and what the other
threads rely on. -/
structure Sound (thread : Nat) (before after : Shared)
    (caller : Caller) : Prop where
  fact : Fact after
  assertion : Assertion thread after caller
  rely : ∀ other ≠ thread, Rely other before after

theorem Rely.refl (thread : Nat) (shared : Shared) :
    Rely thread shared shared :=
  Rely.of_objects fun _ _ => Iff.rfl

/-- A thread that is not at the writes of a slot writes none. -/
theorem Assertion.writesNone
    {caller : Caller}
    (assertion : Assertion thread shared caller)
    (elsewhere : ∀ slot, ¬caller.position.IsWriting slot) :
    shared.WritesNone thread :=
  fun slot unfinished isUnfinished same =>
    elsewhere slot (assertion.own slot unfinished isUnfinished same)

/-- Who writes a slot has the object that the slot is for. -/
def Shared.WritersHold (shared : Shared) : Prop :=
  ∀ slot unfinished, shared.unfinished slot = some unfinished →
    shared.Holds unfinished.writer (shared.manager.wp slot).objectstart

theorem writersHold_of_assertion
    {locals : Nat → Caller}
    (assertion : ∀ thread, Assertion thread shared (locals thread)) :
    shared.WritersHold := by
  intro slot unfinished isUnfinished
  obtain ⟨grip, -, knows, own⟩ := assertion unfinished.writer
  have writing := own slot unfinished isUnfinished rfl
  generalize (locals unfinished.writer).position = position
    at grip knows writing
  cases position with
  | writing request left sidx ret next =>
      obtain rfl : slot = sidx := writing
      rw [knows.2.objectstart]
      exact (grip.holds _).mpr List.mem_cons_self
  | _ => exact writing.elim

/-- So a slot in progress is never for the object of a thread that writes
none. -/
theorem Shared.WritersHold.objectstart_ne
    (writers : shared.WritersHold)
    (fact : Fact shared)
    (noWrites : shared.WritesNone thread)
    {ptr : Word}
    (holds : shared.Holds thread ptr)
    {slot : SlotPosition}
    {unfinished : Unfinished}
    (isUnfinished : shared.unfinished slot = some unfinished) :
    (shared.manager.wp slot).objectstart ≠ ptr := by
  rintro rfl
  exact noWrites slot unfinished isUnfinished
    (holds.eq_of_fact fact (writers slot unfinished isUnfinished))

/-- A slot that nobody writes is in memory as in the manager. -/
theorem Shared.wp_of_settled
    {slot : SlotPosition}
    (settled : shared.unfinished slot = none) :
    shared.wp slot = shared.manager.wp slot := by
  rw [Shared.wp, settled]

/-- A step that changes nothing but the thread's position. -/
theorem Sound.move
    {caller : Caller}
    (fact : Fact shared)
    (assertion : Assertion thread shared caller) :
    Sound thread shared shared caller :=
  ⟨fact, assertion, fun other _ => Rely.refl other shared⟩

/-- The object that starts at the address has the size. -/
def Shared.Sized (shared : Shared) (ptr sz : Word) : Prop :=
  ∀ object ∈ shared.objects, object.start = ptr → object.size = sz

instance (shared : Shared) (ptr sz : Word) :
    Decidable (shared.Sized ptr sz) :=
  inferInstanceAs (Decidable (∀ object ∈ shared.objects, _ → _))

/-- The next step frees or resizes no object that a slot watches. -/
def Position.Spares (shared : Shared) : Position → Prop
  | .freeing ptr _ => shared.manager.Unwatched ptr
  | .updating ptr sz => shared.manager.Unwatched ptr ∨ shared.Sized ptr sz
  | _ => True

instance decidableSpares (shared : Shared) :
    ∀ position : Position, Decidable (position.Spares shared)
  | .freeing ptr _ => inferInstanceAs (Decidable (shared.manager.Unwatched ptr))
  | .updating ptr sz =>
      inferInstanceAs
        (Decidable (shared.manager.Unwatched ptr ∨ shared.Sized ptr sz))
  | .idle
  | .scanning _ _ _
  | .matching _ _ _ _
  | .disabling _ _ _
  | .allocating _ _
  | .starting _ _ _
  | .testing _ _ _ _
  | .locking _ _ _ _
  | .writing _ _ _ _ _
  | .drawing _ _
  | .comparing _ _ _
  | .returning _ => isTrue trivial

/-- The scan for an object that a slot watches does not stop at another slot
that is being written and still has the object's start from before. -/
def Position.Undisturbed (shared : Shared) : Position → Prop
  | .matching ptr slot _ _ =>
      (shared.unfinished slot).isSome = true →
        (shared.wp slot).objectstart = ptr →
        ∀ other ≠ slot, ¬shared.manager.Watches other ptr
  | _ => True

instance decidableUndisturbed (shared : Shared) :
    ∀ position : Position, Decidable (position.Undisturbed shared)
  | .matching ptr slot _ _ =>
      inferInstanceAs
        (Decidable ((shared.unfinished slot).isSome = true →
          (shared.wp slot).objectstart = ptr →
          ∀ other ≠ slot, ¬shared.manager.Watches other ptr))
  | .idle
  | .scanning _ _ _
  | .disabling _ _ _
  | .freeing _ _
  | .allocating _ _
  | .starting _ _ _
  | .testing _ _ _ _
  | .locking _ _ _ _
  | .writing _ _ _ _ _
  | .drawing _ _
  | .comparing _ _ _
  | .updating _ _
  | .returning _ => isTrue trivial

/-- A call with the flag off frees or resizes no object that a slot watches. -/
def SparesWatched (shared : Shared) (caller : Caller) : Prop :=
  caller.isCauser = true ∨ caller.position.Spares shared

instance (shared : Shared) (caller : Caller) :
    Decidable (SparesWatched shared caller) :=
  inferInstanceAs (Decidable (_ = true ∨ _))

/-- A call begins soundly. -/
theorem beginCall_sound
    {isCauser former : Bool}
    {call : Call}
    {position : Position}
    (fact : Fact shared)
    (assertion : Assertion thread shared ⟨former, .idle⟩)
    (begun : beginCall thread shared isCauser call =
      some (after, position)) :
    Sound thread shared after ⟨isCauser, position⟩ := by
  have nothing : Grip thread shared isCauser [] [] :=
    ⟨assertion.grip.holds, List.nodup_nil, by simp⟩
  have noWrites : shared.WritesNone thread := assertion.writesNone fun _ => id
  have taken : ∀ ptr, shared.IsLive ptr →
      Fact (shared.assign ptr (some thread)) ∧
        Grip thread (shared.assign ptr (some thread)) isCauser [ptr] [] ∧
        ∀ other ≠ thread,
          Rely other shared (shared.assign ptr (some thread)) := by
    rintro ptr ⟨live, member, starts, isLive⟩
    have noCaller : ∀ object ∈ shared.objects, object.start = ptr →
        object.caller = none := by
      intro object other same
      rw [fact.eq_of_start other member (same.trans starts.symm), isLive]
    refine ⟨fact.adjust (fun _ => rfl) fun _ _ _ => Or.inr rfl,
      ⟨fun other => ?_, List.nodup_singleton _, by simp⟩,
      fun other different => Rely.adjust ?_ ?_⟩
    · rw [holds_assign, assertion.grip.holds, List.mem_singleton]
      constructor
      · rintro (⟨held, -⟩ | ⟨-, same, -⟩)
        · exact absurd held List.not_mem_nil
        · exact same
      · exact fun same => Or.inr ⟨rfl, same, live, member, starts⟩
    · intro object before same
      rw [noCaller object before same]
      simp
    · intro object before same
      simpa using different.symm
  cases call with
  | malloc sz =>
      simp only [beginCall, Option.some.injEq, Prod.mk.injEq] at begun
      obtain ⟨rfl, rfl⟩ := begun
      exact Sound.move fact (customMalloc_assertion noWrites nothing sz)
  | free ptr =>
      simp only [beginCall] at begun
      split_ifs at begun with null live
      · simp only [Option.some.injEq, Prod.mk.injEq] at begun
        obtain ⟨rfl, rfl⟩ := begun
        exact Sound.move fact
          ⟨nothing, fun impossible => impossible.elim, trivial, noWrites.own⟩
      · simp only [Option.some.injEq, Prod.mk.injEq] at begun
        obtain ⟨rfl, rfl⟩ := begun
        obtain ⟨factAfter, grip, rely⟩ := taken ptr live
        exact ⟨factAfter, xxfree_assertion noWrites grip, rely⟩
  | realloc ptr sz =>
      simp only [beginCall] at begun
      split_ifs at begun with null live empty
      · simp only [Option.some.injEq, Prod.mk.injEq] at begun
        obtain ⟨rfl, rfl⟩ := begun
        exact Sound.move fact (customMalloc_assertion noWrites nothing sz)
      · simp only [Option.some.injEq, Prod.mk.injEq] at begun
        obtain ⟨rfl, rfl⟩ := begun
        obtain ⟨factAfter, grip, rely⟩ := taken ptr live
        exact ⟨factAfter, xxfree_assertion noWrites grip, rely⟩
      · simp only [Option.some.injEq, Prod.mk.injEq] at begun
        obtain ⟨rfl, rfl⟩ := begun
        obtain ⟨factAfter, grip, rely⟩ := taken ptr live
        exact ⟨factAfter, removeWatchpoint_assertion noWrites grip, rely⟩

/-- The unlocked scan goes on soundly after it has read whether a slot is
used. -/
theorem scanning_sound
    {isCauser : Bool}
    {ptr : Word}
    {slots : List SlotPosition}
    {next : AfterRemove}
    {position : Position}
    (fact : Fact shared)
    (writers : shared.WritersHold)
    (assertion : Assertion thread shared
      ⟨isCauser, .scanning ptr slots next⟩)
    (moved : proceed environment shared isCauser (.scanning ptr slots next) =
      some (after, position)) :
    Sound thread shared after ⟨isCauser, position⟩ := by
  have noWrites : shared.WritesNone thread := assertion.writesNone fun _ => id
  obtain ⟨grip, flag, knows, -⟩ := assertion
  have holds : shared.Holds thread ptr :=
    (grip.holds ptr).mpr List.mem_cons_self
  cases slots with
  | nil =>
      simp only [proceed, Option.some.injEq, Prod.mk.injEq] at moved
      obtain ⟨rfl, rfl⟩ := moved
      refine Sound.move fact (AfterRemove.position_assertion noWrites
        ⟨grip.holds, grip.nodup, fun on => ?_⟩)
      rw [List.forall_mem_cons]
      exact ⟨fun slot watches =>
        absurd (knows slot watches) List.not_mem_nil, grip.unwatched on⟩
  | cons slot slots =>
      simp only [proceed] at moved
      split_ifs at moved with used
      · simp only [Option.some.injEq, Prod.mk.injEq] at moved
        obtain ⟨rfl, rfl⟩ := moved
        refine Sound.move fact ⟨grip, fun _ => flag trivial,
          ⟨knows, fun leftover => leftover.unwatched ?_⟩, noWrites.own⟩
        rw [Shared.wp_of_settled leftover.settled] at used
        exact ⟨used, leftover.objectstart⟩
      · simp only [Option.some.injEq, Prod.mk.injEq] at moved
        obtain ⟨rfl, rfl⟩ := moved
        refine Sound.move fact ⟨grip, fun _ => flag trivial,
          fun other watches => ?_, noWrites.own⟩
        refine (List.mem_cons.mp (knows other watches)).resolve_left ?_
        rintro rfl
        cases isUnfinished : shared.unfinished other with
        | none =>
            rw [Shared.wp_of_settled isUnfinished] at used
            exact used watches.1
        | some unfinished =>
            exact writers.objectstart_ne fact noWrites holds isUnfinished
              watches.2

/-- And after it has read the start of the object that the slot watches. -/
theorem matching_sound
    {isCauser : Bool}
    {ptr : Word}
    {slot : SlotPosition}
    {slots : List SlotPosition}
    {next : AfterRemove}
    {position : Position}
    (fact : Fact shared)
    (writers : shared.WritersHold)
    (assertion : Assertion thread shared
      ⟨isCauser, .matching ptr slot slots next⟩)
    (undisturbed : (Position.matching ptr slot slots next).Undisturbed shared)
    (moved : proceed environment shared isCauser
      (.matching ptr slot slots next) = some (after, position)) :
    Sound thread shared after ⟨isCauser, position⟩ := by
  have noWrites : shared.WritesNone thread := assertion.writesNone fun _ => id
  obtain ⟨grip, flag, ⟨knows, fresh⟩, -⟩ := assertion
  have holds : shared.Holds thread ptr :=
    (grip.holds ptr).mpr List.mem_cons_self
  simp only [proceed] at moved
  split_ifs at moved with matched
  · simp only [Option.some.injEq, Prod.mk.injEq] at moved
    obtain ⟨rfl, rfl⟩ := moved
    refine Sound.move fact ⟨grip, fun _ => flag trivial,
      fun other watches => ?_, noWrites.own⟩
    cases isUnfinished : shared.unfinished slot with
    | none =>
        -- nobody writes the slot, and its start is no leftover
        rw [Shared.wp_of_settled isUnfinished] at matched
        have found : shared.manager.Watches slot ptr := by
          by_contra unwatched
          exact fresh ⟨isUnfinished, matched, unwatched⟩
        exact fact.distinct other slot ptr watches found
    | some unfinished =>
        by_contra different
        exact undisturbed (by rw [isUnfinished, Option.isSome_some]) matched
          other different watches
  · simp only [Option.some.injEq, Prod.mk.injEq] at moved
    obtain ⟨rfl, rfl⟩ := moved
    refine Sound.move fact ⟨grip, fun _ => flag trivial,
      fun other watches => ?_, noWrites.own⟩
    refine (List.mem_cons.mp (knows other watches)).resolve_left ?_
    rintro rfl
    cases isUnfinished : shared.unfinished other with
    | none =>
        rw [Shared.wp_of_settled isUnfinished] at matched
        exact matched watches.2
    | some unfinished =>
        exact writers.objectstart_ne fact noWrites holds isUnfinished watches.2

/-- The locked section of `disableWatchpointByAddr` is sound. -/
theorem disabling_sound
    (succeed : environment.AllSucceed)
    (above : environment.AboveStandard)
    {isCauser : Bool}
    {ptr : Word}
    {found : SlotPosition}
    {next : AfterRemove}
    {position : Position}
    (fact : Fact shared)
    (assertion : Assertion thread shared
      ⟨isCauser, .disabling ptr found next⟩)
    (moved : proceed environment shared isCauser (.disabling ptr found next) =
      some (after, position)) :
    Sound thread shared after ⟨isCauser, position⟩ := by
  have noWrites : shared.WritesNone thread := assertion.writesNone fun _ => id
  obtain ⟨grip, -, knows, -⟩ := assertion
  have holds : shared.Holds thread ptr :=
    (grip.holds ptr).mpr List.mem_cons_self
  simp only [proceed] at moved
  split_ifs at moved with free
  simp only [Option.some.injEq, Prod.mk.injEq] at moved
  obtain ⟨rfl, rfl⟩ := moved
  have released : Manager.step environment shared.manager
      (.disableSection ptr found) =
        some (Manager.disableSection environment ptr found
          shared.manager) := rfl
  have coverage := fact.coverage.step succeed above released
  obtain ⟨keeps, unwatched⟩ := disableSection_unwatched fact.coverage knows
  have kept := keeps.grip grip
  refine ⟨keeps.fact fact coverage, AfterRemove.position_assertion noWrites
    ⟨kept.holds, kept.nodup, fun on => ?_⟩, fun other different =>
      Rely.disableSection fact keeps holds (Option.isNone_iff_eq_none.mp free)
        different⟩
  rw [List.forall_mem_cons]
  exact ⟨unwatched, kept.unwatched on⟩

/-- The write of a field of a slot is sound, and so is the end of the
section. -/
theorem writing_sound
    {isCauser : Bool}
    {request : Request}
    {left : Nat}
    {sidx : SlotPosition}
    {ret : Bool}
    {next : AfterInstall}
    {position : Position}
    (fact : Fact shared)
    (assertion : Assertion thread shared
      ⟨isCauser, .writing request left sidx ret next⟩)
    (moved : proceed environment shared isCauser
      (.writing request left sidx ret next) = some (after, position)) :
    Sound thread shared after ⟨isCauser, position⟩ := by
  obtain ⟨grip, flag, ⟨asks, writes⟩, own⟩ := assertion
  have on : isCauser = true := flag trivial
  subst on
  obtain ⟨⟨unfinished, isUnfinished, isWriter⟩, objectstart⟩ := writes
  have holds : shared.Holds thread (shared.manager.wp sidx).objectstart := by
    rw [objectstart]
    exact (grip.holds _).mpr List.mem_cons_self
  have elsewhere : ∀ (later : Option Unfinished) slot candidate,
      slot ≠ sidx →
      (shared.setUnfinished sidx later).unfinished slot = some candidate →
      candidate.writer ≠ thread := by
    intro later slot candidate different isCandidate same
    rw [Shared.setUnfinished_of_ne _ _ _ different] at isCandidate
    exact different (own slot candidate isCandidate same)
  simp only [proceed, isUnfinished] at moved
  cases follows : unfinished.field.next with
  | some field =>
      simp only [follows, Option.some.injEq, Prod.mk.injEq] at moved
      obtain ⟨rfl, rfl⟩ := moved
      refine ⟨fact.setUnfinished _ _, ⟨grip.setUnfinished _ _, fun _ => rfl,
        ⟨asks, ⟨⟨_, Shared.setUnfinished_self _ _ _, isWriter⟩, objectstart⟩⟩,
        fun slot candidate isCandidate same => ?_⟩,
        fun other different => Rely.setUnfinished fact isUnfinished isWriter
          (fun later isLater => Option.some.inj isLater ▸ isWriter) holds
          different⟩
      by_contra different
      exact elsewhere _ slot candidate different isCandidate same
  | none =>
      simp only [follows, Option.some.injEq, Prod.mk.injEq] at moved
      obtain ⟨rfl, rfl⟩ := moved
      have noWrites : (shared.setUnfinished sidx none).WritesNone thread := by
        intro slot candidate isCandidate
        by_cases same : slot = sidx
        · rw [same, Shared.setUnfinished_self] at isCandidate
          cases isCandidate
        · exact elsewhere _ slot candidate same isCandidate
      refine ⟨fact.setUnfinished _ _, ?_, fun other different =>
        Rely.setUnfinished fact isUnfinished isWriter (by simp) holds
          different⟩
      have ended := grip.setUnfinished sidx none
      cases ret with
      | true => exact AfterInstall.position_assertion noWrites ended _
      | false => exact nextSlot_assertion noWrites ended asks left sidx

/-- Freeing is sound if no slot watches the object. -/
theorem freeing_sound
    {isCauser : Bool}
    {ptr : Word}
    {next : AfterFree}
    (fact : Fact shared)
    (assertion : Assertion thread shared ⟨isCauser, .freeing ptr next⟩)
    (spares : SparesWatched shared ⟨isCauser, .freeing ptr next⟩) :
    Sound thread shared (shared.free ptr) ⟨isCauser, next.position⟩ := by
  have noWrites : shared.WritesNone thread := assertion.writesNone fun _ => id
  have grip := assertion.grip
  have unwatched : shared.manager.Unwatched ptr := by
    rcases spares with on | unwatched
    · exact grip.unwatched on ptr List.mem_cons_self
    · exact unwatched
  have distinct := List.nodup_cons.mp grip.nodup
  refine ⟨fact.free unwatched, AfterFree.position_assertion noWrites ⟨?_,
      distinct.2, fun on other member =>
        grip.unwatched on other (List.mem_cons_of_mem _ member)⟩,
    fun other different => Rely.free fact
      ((grip.holds ptr).mpr List.mem_cons_self) different⟩
  intro other
  rw [holds_free, grip.holds]
  constructor
  · rintro ⟨held, differs⟩
    exact (List.mem_cons.mp held).resolve_left differs
  · intro member
    refine ⟨List.mem_cons_of_mem _ member, ?_⟩
    rintro rfl
    exact distinct.1 member

/-- A new size is sound if no slot watches the object, or if the size is not
new. -/
theorem updating_sound
    {isCauser : Bool}
    {ptr sz : Word}
    (fact : Fact shared)
    (assertion : Assertion thread shared ⟨isCauser, .updating ptr sz⟩)
    (spares : SparesWatched shared ⟨isCauser, .updating ptr sz⟩) :
    Sound thread shared (shared.updateHeader ptr sz)
      ⟨isCauser, installWatchpoint isCauser ptr sz .handOut⟩ := by
  have noWrites : shared.WritesNone thread := assertion.writesNone fun _ => id
  have grip := assertion.grip
  have holds : shared.Holds thread ptr :=
    (grip.holds ptr).mpr List.mem_cons_self
  have ofThread : ∀ other ≠ thread, ∀ object ∈ shared.objects,
      object.start = ptr → object.caller ≠ some other := by
    intro other different object member starts isCaller
    exact different
      (holds.eq_of_fact fact ⟨object, member, starts, isCaller⟩)
  refine ⟨fact.adjust (fun _ => rfl) ?_, installWatchpoint_assertion noWrites
    ⟨fun other => (holds_updateHeader sz other).trans (grip.holds other),
      grip.nodup, grip.unwatched⟩ (holdsSized_updateHeader holds sz),
    fun other different => Rely.adjust (ofThread other different)
      (ofThread other different)⟩
  intro object member starts
  rcases spares with on | unwatched | sized
  · exact Or.inl (grip.unwatched on ptr List.mem_cons_self)
  · exact Or.inl unwatched
  · exact Or.inr (sized object member starts).symm

/-- The return of an object is sound. -/
theorem returning_sound
    {isCauser : Bool}
    {ptr : Word}
    (fact : Fact shared)
    (assertion : Assertion thread shared ⟨isCauser, .returning ptr⟩) :
    Sound thread shared (shared.assign ptr none) ⟨isCauser, .idle⟩ := by
  have noWrites : shared.WritesNone thread := assertion.writesNone fun _ => id
  have grip := assertion.grip
  have holds : shared.Holds thread ptr :=
    (grip.holds ptr).mpr List.mem_cons_self
  refine ⟨fact.adjust (fun _ => rfl) fun _ _ _ => Or.inr rfl,
    ⟨⟨fun other => ?_, List.nodup_nil, fun _ _ member =>
      absurd member List.not_mem_nil⟩, fun impossible => impossible.elim,
      trivial, noWrites.own⟩,
    fun other different => Rely.adjust ?_ (fun _ _ _ => by simp)⟩
  · rw [holds_assign, grip.holds]
    simp [Position.held]
  · intro object member starts isCaller
    exact different
      (holds.eq_of_fact fact ⟨object, member, starts, isCaller⟩)

/-- A step without a choice is sound. -/
theorem proceed_sound
    (succeed : environment.AllSucceed)
    (above : environment.AboveStandard)
    {isCauser : Bool}
    {before position : Position}
    (fact : Fact shared)
    (writers : shared.WritersHold)
    (assertion : Assertion thread shared ⟨isCauser, before⟩)
    (spares : SparesWatched shared ⟨isCauser, before⟩)
    (undisturbed : before.Undisturbed shared)
    (moved : proceed environment shared isCauser before =
      some (after, position)) :
    Sound thread shared after ⟨isCauser, position⟩ := by
  cases before with
  | scanning ptr slots next => exact scanning_sound fact writers assertion moved
  | matching ptr slot slots next =>
      exact matching_sound fact writers assertion undisturbed moved
  | disabling ptr found next =>
      exact disabling_sound succeed above fact assertion moved
  | writing request left sidx ret next =>
      exact writing_sound fact assertion moved
  | freeing ptr next =>
      simp only [proceed, Option.some.injEq, Prod.mk.injEq] at moved
      obtain ⟨rfl, rfl⟩ := moved
      exact freeing_sound fact assertion spares
  | testing request left sidx next =>
      have on : isCauser = true := assertion.flag trivial
      subst on
      have noWrites : shared.WritesNone thread := assertion.writesNone fun _ => id
      simp only [proceed] at moved
      split_ifs at moved
      · simp only [Option.some.injEq, Prod.mk.injEq] at moved
        obtain ⟨rfl, rfl⟩ := moved
        exact Sound.move fact
          ⟨assertion.grip, fun _ => rfl, assertion.knows, noWrites.own⟩
      · simp only [Option.some.injEq, Prod.mk.injEq] at moved
        obtain ⟨rfl, rfl⟩ := moved
        exact Sound.move fact
          (nextSlot_assertion noWrites assertion.grip assertion.knows left sidx)
  | updating ptr sz =>
      simp only [proceed, Option.some.injEq, Prod.mk.injEq] at moved
      obtain ⟨rfl, rfl⟩ := moved
      exact updating_sound fact assertion spares
  | returning ptr =>
      simp only [proceed, Option.some.injEq, Prod.mk.injEq] at moved
      obtain ⟨rfl, rfl⟩ := moved
      exact returning_sound fact assertion
  | _ => simp [proceed] at moved

/-- The beginning of the locked section of `setWatchpoint` is sound. -/
theorem locking_sound
    (succeed : environment.AllSucceed)
    (above : environment.AboveStandard)
    {caller : Caller}
    {isCauser : Bool}
    {request : Request}
    {left : Nat}
    {sidx : SlotPosition}
    {next : AfterInstall}
    {watchedRatio : Word → Int}
    (fact : Fact shared)
    (assertion : Assertion thread shared
      ⟨isCauser, .locking request left sidx next⟩)
    (moved : advance environment thread shared
      ⟨isCauser, .locking request left sidx next⟩ (.lock watchedRatio) =
        some (after, caller)) :
    Sound thread shared after caller := by
  have noWrites : shared.WritesNone thread := assertion.writesNone fun _ => id
  obtain ⟨grip, flag, knows, -⟩ := assertion
  have on : isCauser = true := flag trivial
  subst on
  have stepped : Manager.step environment shared.manager
      (.setSection watchedRatio request sidx) =
        some (Manager.setSection environment watchedRatio request sidx
          shared.manager).2 := rfl
  have coverage := fact.coverage.step succeed above stepped
  simp only [advance] at moved
  split_ifs at moved with free valid
  · simp only [Option.some.injEq, Prod.mk.injEq] at moved
    obtain ⟨rfl, rfl⟩ := moved
    have returned : (Manager.setSection environment watchedRatio request sidx
        shared.manager).1 = true := by
      rw [Manager.setSection_of_valid valid,
        Manager.writeSlot_of_succeed succeed]
    have holds : shared.Holds thread request.objectstart :=
      (grip.holds _).mpr List.mem_cons_self
    have unwatched : shared.manager.Unwatched request.objectstart :=
      grip.unwatched rfl _ List.mem_cons_self
    have taken := (grip.setSection returned).setUnfinished sidx
      (some ⟨thread, shared.manager.wp sidx, .isUsed⟩)
    rw [returned]
    refine ⟨(fact.setSection returned coverage unwatched knows).setUnfinished
        _ _, ⟨taken, fun _ => rfl, ⟨knows, ⟨⟨_, Shared.setUnfinished_self _ _ _,
          rfl⟩, (Manager.setSection_occupies returned).objectstart⟩⟩,
        fun slot unfinished isUnfinished same => ?_⟩,
      fun other different => Rely.setSection fact returned holds
        (Option.isNone_iff_eq_none.mp free) rfl different⟩
    by_contra different
    rw [Shared.setUnfinished_of_ne _ _ _ different] at isUnfinished
    exact noWrites slot unfinished isUnfinished same
  · simp only [Option.some.injEq, Prod.mk.injEq] at moved
    obtain ⟨rfl, rfl⟩ := moved
    have same : SameWatches shared.manager
        (Manager.setSection environment watchedRatio request sidx
          shared.manager).2 := by
      rw [Bool.not_eq_true] at valid
      rw [Manager.setSection_of_invalid valid]
      exact .of_wp rfl
    refine ⟨same.keeps.fact fact coverage, ?_, fun other _ => same.rely other⟩
    apply nextSlot_assertion
    · exact noWrites
    · exact same.keeps.grip grip
    · exact knows

/-- The allocation of an object for a call is sound. -/
theorem allocating_sound
    {isCauser : Bool}
    {ptr sz : Word}
    {next : AfterInstall}
    (fact : Fact shared)
    (assertion : Assertion thread shared ⟨isCauser, .allocating sz next⟩)
    (fresh : ∀ object ∈ shared.objects, object.start ≠ ptr) :
    Sound thread shared (shared.allocate ptr sz thread)
      ⟨isCauser, installWatchpoint isCauser ptr sz next⟩ := by
  have noWrites : shared.WritesNone thread := assertion.writesNone fun _ => id
  have grip := assertion.grip
  refine ⟨fact.allocate fresh sz thread, installWatchpoint_assertion noWrites
    ⟨fun other => ?_, ?_, fun on => ?_⟩ (holdsSized_allocate shared sz),
    fun other different => Rely.allocate different sz⟩
  · rw [holds_allocate, grip.holds, List.mem_cons, or_comm]
    rfl
  · refine List.nodup_cons.mpr ⟨fun member => ?_, grip.nodup⟩
    obtain ⟨object, before, starts, -⟩ := (grip.holds ptr).mpr member
    exact fresh object before starts
  · rw [List.forall_mem_cons]
    exact ⟨fact.unwatched_of_fresh fresh, grip.unwatched on⟩

/-- The position after the guard has been filled is sound. -/
theorem starting_sound
    {isCauser search : Bool}
    {ptr sz callstack : Word}
    {curIndex : SlotPosition}
    {next : AfterInstall}
    (fact : Fact shared)
    (assertion : Assertion thread shared ⟨isCauser, .starting ptr sz next⟩) :
    Sound thread shared shared
      ⟨isCauser,
        if search then
          .testing (watchRequest ptr sz callstack false) maxWatchpoints
            curIndex next
        else .drawing (watchRequest ptr sz callstack false) next⟩ := by
  have on : isCauser = true := assertion.flag trivial
  subst on
  have noWrites : shared.WritesNone thread := assertion.writesNone fun _ => id
  apply Sound.move fact
  split_ifs
  · exact ⟨assertion.grip, fun _ => rfl, ⟨rfl, assertion.knows⟩, noWrites.own⟩
  · exact ⟨assertion.grip, fun _ => rfl, ⟨rfl, assertion.knows⟩, noWrites.own⟩

/-- The position after the draw is sound. -/
theorem drawing_sound
    {isCauser low : Bool}
    {request : Request}
    {curIndex : SlotPosition}
    {next : AfterInstall}
    (fact : Fact shared)
    (assertion : Assertion thread shared ⟨isCauser, .drawing request next⟩) :
    Sound thread shared shared
      ⟨isCauser,
        if low then
          .testing { request with ispreempt := true } maxWatchpoints curIndex
            next
        else next.position request.objectstart request.objectsize⟩ := by
  have noWrites : shared.WritesNone thread := assertion.writesNone fun _ => id
  apply Sound.move fact
  split_ifs
  · exact ⟨assertion.grip, fun _ => assertion.flag trivial, assertion.knows,
      noWrites.own⟩
  · exact AfterInstall.position_assertion noWrites
      (assertion.grip.imp (.refl _) fun _ => List.subset_cons_self _ _) _

/-- The position after the comparison of the usable sizes is sound. -/
theorem comparing_sound
    {isCauser same : Bool}
    {ptr buf sz : Word}
    (fact : Fact shared)
    (assertion : Assertion thread shared
      ⟨isCauser, .comparing ptr buf sz⟩) :
    Sound thread shared shared
      ⟨isCauser,
        if same then xxfree isCauser buf (.keep ptr sz)
        else xxfree isCauser ptr (.handOut buf)⟩ := by
  have noWrites : shared.WritesNone thread := assertion.writesNone fun _ => id
  apply Sound.move fact
  split_ifs
  · exact xxfree_assertion noWrites assertion.grip
  · exact xxfree_assertion noWrites
      (assertion.grip.imp (List.Perm.swap _ _ _) fun _ => List.nil_subset _)

/-- A step of the manager outside the calls is sound when the slots are used for
the same objects. -/
theorem idle_sound
    (succeed : environment.AllSucceed)
    (above : environment.AboveStandard)
    {isCauser : Bool}
    {action : Action}
    {manager : Manager}
    (fact : Fact shared)
    (assertion : Assertion thread shared ⟨isCauser, .idle⟩)
    (same : SameWatches shared.manager manager)
    (stepped : Manager.step environment shared.manager action =
      some manager) :
    Sound thread shared { shared with manager := manager }
      ⟨isCauser, .idle⟩ := by
  have noWrites : shared.WritesNone thread := assertion.writesNone fun _ => id
  exact ⟨same.keeps.fact fact (fact.coverage.step succeed above stepped),
    ⟨same.keeps.grip assertion.grip, assertion.flag, trivial, noWrites.own⟩,
    fun other _ => same.rely other⟩

/-- Every step of a thread is sound that spares watched objects and whose scan
is not disturbed. -/
theorem advance_sound
    (succeed : environment.AllSucceed)
    (above : environment.AboveStandard)
    {caller next : Caller}
    {choice : Choice}
    (fact : Fact shared)
    (writers : shared.WritersHold)
    (assertion : Assertion thread shared caller)
    (spares : SparesWatched shared caller)
    (undisturbed : caller.position.Undisturbed shared)
    (moved : advance environment thread shared caller choice =
      some (after, next)) :
    Sound thread shared after next := by
  obtain ⟨isCauser, position⟩ := caller
  cases choice with
  | proceed =>
      have forward : (proceed environment shared isCauser position).map
          (fun result => (result.1, Caller.mk isCauser result.2)) =
            some (after, next) := by
        cases position <;> exact moved
      obtain ⟨⟨reached, position⟩, proceeds, result⟩ :=
        Option.map_eq_some_iff.mp forward
      rw [Prod.mk.injEq] at result
      obtain ⟨rfl, rfl⟩ := result
      exact proceed_sound succeed above fact writers assertion spares
        undisturbed proceeds
  | call flag call =>
      cases position with
      | idle =>
          obtain ⟨⟨reached, position⟩, begun, result⟩ :=
            Option.map_eq_some_iff.mp moved
          rw [Prod.mk.injEq] at result
          obtain ⟨rfl, rfl⟩ := result
          exact beginCall_sound fact assertion begun
      | _ => simp [advance] at moved
  | answer ptr =>
      cases position with
      | allocating sz follows =>
          simp only [advance] at moved
          split_ifs at moved with grants
          rw [Option.some.injEq, Prod.mk.injEq] at moved
          obtain ⟨rfl, rfl⟩ := moved
          exact allocating_sound fact assertion grants.2
      | _ => simp [advance] at moved
  | startWatch callstack search curIndex =>
      cases position with
      | starting ptr sz follows =>
          simp only [advance, Option.some.injEq, Prod.mk.injEq] at moved
          obtain ⟨rfl, rfl⟩ := moved
          exact starting_sound fact assertion
      | _ => simp [advance] at moved
  | draw low curIndex =>
      cases position with
      | drawing request follows =>
          simp only [advance, Option.some.injEq, Prod.mk.injEq] at moved
          obtain ⟨rfl, rfl⟩ := moved
          exact drawing_sound fact assertion
      | _ => simp [advance] at moved
  | lock watchedRatio =>
      cases position with
      | locking request left sidx follows =>
          exact locking_sound succeed above fact assertion moved
      | _ => simp [advance] at moved
  | compared same =>
      cases position with
      | comparing ptr buf sz =>
          simp only [advance, Option.some.injEq, Prod.mk.injEq] at moved
          obtain ⟨rfl, rfl⟩ := moved
          exact comparing_sound fact assertion
      | _ => simp [advance] at moved
  | threadCreate tid =>
      cases position with
      | idle =>
          simp only [advance] at moved
          split_ifs at moved
          obtain ⟨manager, created, result⟩ := Option.map_eq_some_iff.mp moved
          rw [Prod.mk.injEq] at result
          obtain ⟨rfl, rfl⟩ := result
          have stepped : Manager.step environment shared.manager
              (.threadCreate tid) = some manager := created
          exact idle_sound succeed above fact assertion
            (sameWatches_of_threadCreate created) stepped
      | _ => simp [advance] at moved
  | threadExit leaving =>
      cases position with
      | idle =>
          simp only [advance] at moved
          split_ifs at moved
          obtain ⟨manager, exited, result⟩ := Option.map_eq_some_iff.mp moved
          rw [Prod.mk.injEq] at result
          obtain ⟨rfl, rfl⟩ := result
          exact idle_sound succeed above fact assertion
            (sameWatches_of_threadExit exited) exited
      | _ => simp [advance] at moved

end Steps

/-! ## Runs -/

/-- In memory, every used slot watches a live object at its tail, and no two
watch the same one. -/
def SlotsLive (shared : Shared) : Prop :=
  (∀ slot, (shared.wp slot).isUsed = true →
    ∃ object ∈ shared.objects,
      object.caller = none ∧
        object.start = (shared.wp slot).objectstart ∧
        (shared.wp slot).addr = object.start + object.size) ∧
    ∀ first second,
      (shared.wp first).isUsed = true →
      (shared.wp second).isUsed = true →
      (shared.wp first).objectstart = (shared.wp second).objectstart →
      first = second

instance (shared : Shared) : Decidable (SlotsLive shared) :=
  inferInstanceAs
    (Decidable ((∀ _, _ → ∃ object ∈ shared.objects, _) ∧
      ∀ _ _, _ → _ → _ → _))

/-- The step of a thread spares watched objects, and no slot in progress
disturbs its scan. -/
def StepSpares (state : State) (label : Nat × Choice) : Prop :=
  SparesWatched state.shared (state.locals label.1) ∧
    (state.locals label.1).position.Undisturbed state.shared

instance (state : State) (label : Nat × Choice) :
    Decidable (StepSpares state label) :=
  inferInstanceAs (Decidable (SparesWatched _ _ ∧ Position.Undisturbed _ _))

/-- Nobody is in a call. -/
def BetweenCalls (state : State) : Prop :=
  ∀ thread, (state.locals thread).position = .idle

theorem invariant_start (files : DescriptorTable File) (tid : Nat) :
    Interleaving.Invariant Fact Assertion (start files tid) where
  fact :=
    { nodup := List.nodup_nil
      watched := by
        intro slot used
        exact absurd used (by simp [start, Manager.start])
      distinct := by
        rintro first second ptr ⟨used, -⟩
        exact absurd used (by simp [start, Manager.start])
      coverage := Manager.coverageInvariant_start files tid }
  assertion := fun thread =>
    { grip :=
        { holds := by
            intro ptr
            simp [Shared.Holds, start, Position.held]
          nodup := List.nodup_nil
          unwatched := fun _ ptr member => absurd member List.not_mem_nil }
      flag := fun impossible => impossible.elim
      knows := trivial
      own := by
        intro slot unfinished isUnfinished
        exact absurd isUnfinished (by simp [start]) }

/-- What holds of slots, objects and threads throughout a run whose steps spare
watched objects and are not disturbed. -/
theorem invariant_of_spares
    {environment : Environment}
    (succeed : environment.AllSucceed)
    (above : environment.AboveStandard)
    {files : DescriptorTable File}
    {tid : Nat}
    {labels : List (Nat × Choice)}
    {final : State}
    (spares : Machine.Along (step environment) StepSpares (start files tid)
      labels)
    (executed : run environment (start files tid) labels = some final) :
    Interleaving.Invariant Fact Assertion final := by
  refine Machine.run_invariant ?_ (invariant_start files tid) spares executed
  intro state label next invariant met stepped
  apply Interleaving.Invariant.step assertion_stable invariant _ stepped
  intro shared caller moved
  have sound := advance_sound succeed above invariant.fact
    (writersHold_of_assertion invariant.assertion)
    (invariant.assertion label.1) met.1 met.2 moved
  exact ⟨sound.fact, sound.assertion, sound.rely⟩

section Quiet

variable {state : State}

/-- An object is live when nobody is in a call. -/
theorem isLive_of_quiet
    (invariant : Interleaving.Invariant Fact Assertion state)
    (quiet : BetweenCalls state)
    {object : HeapObject}
    (member : object ∈ state.shared.objects) :
    object.caller = none := by
  cases isCaller : object.caller with
  | none => rfl
  | some thread =>
      have held := ((invariant.assertion thread).grip.holds object.start).mp
        ⟨object, member, rfl, isCaller⟩
      rw [quiet thread] at held
      exact absurd held List.not_mem_nil

/-- And no slot is being written. -/
theorem unfinished_of_quiet
    (invariant : Interleaving.Invariant Fact Assertion state)
    (quiet : BetweenCalls state)
    (slot : SlotPosition) :
    state.shared.unfinished slot = none := by
  cases isUnfinished : state.shared.unfinished slot with
  | none => rfl
  | some unfinished =>
      have writing := (invariant.assertion unfinished.writer).own slot
        unfinished isUnfinished rfl
      rw [quiet unfinished.writer] at writing
      exact writing.elim

end Quiet

/-- Whenever nobody is in a call, every used slot watches a live object at its
tail and no two watch the same one, in every run in which the calls with the
flag off spare the objects that are being watched, and no scan for a watched
object stops at another slot that is being written. -/
theorem slotsLive_of_spares
    {environment : Environment}
    (succeed : environment.AllSucceed)
    (above : environment.AboveStandard)
    (files : DescriptorTable File)
    (tid : Nat)
    {labels : List (Nat × Choice)}
    {final : State}
    (spares : Machine.Along (step environment) StepSpares
      (start files tid) labels)
    (executed : run environment (start files tid) labels = some final)
    (quiet : BetweenCalls final) :
    SlotsLive final.shared := by
  have invariant := invariant_of_spares succeed above spares executed
  have inMemory : ∀ slot,
      final.shared.wp slot = final.shared.manager.wp slot :=
    fun slot => Shared.wp_of_settled (unfinished_of_quiet invariant quiet slot)
  constructor
  · intro slot used
    rw [inMemory] at used ⊢
    obtain ⟨object, member, starts, addr⟩ := invariant.fact.watched slot used
    exact ⟨object, member, isLive_of_quiet invariant quiet member, starts,
      addr⟩
  · intro first second firstUsed secondUsed same
    rw [inMemory] at firstUsed secondUsed
    rw [inMemory, inMemory] at same
    exact invariant.fact.distinct first second _ ⟨firstUsed, rfl⟩
      ⟨secondUsed, same.symm⟩

/-- A thread that is not in a call after a run of others is between calls. -/
theorem betweenCalls_of_run
    {environment : Environment}
    {files : DescriptorTable File}
    {tid : Nat}
    {labels : List (Nat × Choice)}
    {final : State}
    (executed : run environment (start files tid) labels = some final)
    (idle : ∀ label ∈ labels, (final.locals label.1).position = .idle) :
    BetweenCalls final := by
  intro thread
  by_cases steps : ∃ label ∈ labels, label.1 = thread
  · obtain ⟨label, member, rfl⟩ := steps
    exact idle label member
  · have absent : ∀ label ∈ labels, label.1 ≠ thread :=
      fun label member same => steps ⟨label, member, same⟩
    rw [Interleaving.run_locals absent executed]
    rfl

/-- Several steps of one thread without a choice. -/
def proceeds (thread count : Nat) : List (Nat × Choice) :=
  List.replicate count (thread, .proceed)

/-- The fields that are left of a slot are written, and the section ends. -/
def lockAndWrite (thread : Nat) : List (Nat × Choice) :=
  (thread, .lock fun _ => 1000) :: proceeds thread 5

/-- A thread allocates with its flag on and watches the object in the slot that
`curIndex` names. -/
def watchedMalloc (thread : Nat) (sz ptr : Word) (curIndex : SlotPosition) :
    List (Nat × Choice) :=
  [(thread, .call true (.malloc sz)), (thread, .answer ptr),
    (thread, .startWatch 1 true curIndex), (thread, .proceed)] ++
    lockAndWrite thread ++ proceeds thread 1

/-- A thread watches an object, which it lets grow in place; the new object
that is given up for it is watched for a while, and the scan for it passes a
slot that a second thread is writing.  That thread has also allocated and freed
with its flag off. -/
def growthRun : List (Nat × Choice) :=
  watchedMalloc 1 16 0x1000 0 ++
    [(2, .call false (.malloc 8)), (2, .answer 0x2000), (2, .proceed),
      (1, .call true (.realloc 0x1000 24))] ++ proceeds 1 3 ++
    [(1, .answer 0x3000), (1, .startWatch 1 true 2), (1, .proceed),
      (1, .lock fun _ => 1000), (1, .proceed),
      (2, .call false (.free 0x2000)), (2, .proceed),
      (2, .call true (.malloc 8)), (2, .answer 0x2000),
      (2, .startWatch 1 true 1), (2, .proceed), (2, .lock fun _ => 1000),
      (2, .proceed)] ++ proceeds 1 4 ++
    (1, .compared true) :: proceeds 1 8 ++
    [(1, .startWatch 1 true 0), (1, .proceed)] ++ lockAndWrite 1 ++
    proceeds 2 5 ++ proceeds 1 1

/-- The state after some steps from the start. -/
def reached (labels : List (Nat × Choice)) : State :=
  (run Manager.nonstandardEnvironment (start Manager.standardFiles 1)
    labels).getD (start Manager.standardFiles 1)

theorem run_reached
    {labels : List (Nat × Choice)}
    (defined : (run Manager.nonstandardEnvironment
      (start Manager.standardFiles 1) labels).isSome = true) :
    run Manager.nonstandardEnvironment (start Manager.standardFiles 1)
      labels = some (reached labels) := by
  obtain ⟨final, executed⟩ := Option.isSome_iff_exists.mp defined
  rw [reached, executed]
  rfl

theorem slotsLive_growthRun :
    run Manager.nonstandardEnvironment (start Manager.standardFiles 1)
        growthRun = some (reached growthRun) ∧
      SlotsLive (reached growthRun).shared := by
  have executed := run_reached (by decide +kernel :
    (run Manager.nonstandardEnvironment (start Manager.standardFiles 1)
      growthRun).isSome = true)
  have succeed : Manager.nonstandardEnvironment.AllSucceed := fun _ => rfl
  have spares : Machine.Along (step Manager.nonstandardEnvironment)
      StepSpares (start Manager.standardFiles 1) growthRun := by
    decide +kernel
  have idle : ∀ label ∈ growthRun,
      ((reached growthRun).locals label.1).position = .idle := by
    decide +kernel
  exact ⟨executed, slotsLive_of_spares succeed
    Manager.aboveStandard_nonstandardEnvironment Manager.standardFiles 1
    spares executed (betweenCalls_of_run executed idle)⟩

/-- A thread allocates with its flag on and frees with its flag off. -/
def silentFree : List (Nat × Choice) :=
  watchedMalloc 1 16 0x1000 0 ++ (1, .call false (.free 0x1000)) ::
    proceeds 1 1

/-- The slot goes on watching the object that has been freed. -/
theorem slot_watches_freed_object :
    run Manager.nonstandardEnvironment (start Manager.standardFiles 1)
        silentFree = some (reached silentFree) ∧
      BetweenCalls (reached silentFree) ∧
      ¬SlotsLive (reached silentFree).shared := by
  have executed := run_reached (by decide +kernel :
    (run Manager.nonstandardEnvironment (start Manager.standardFiles 1)
      silentFree).isSome = true)
  have idle : ∀ label ∈ silentFree,
      ((reached silentFree).locals label.1).position = .idle := by
    decide +kernel
  exact ⟨executed, betweenCalls_of_run executed idle, by decide +kernel⟩

/-- With every flag on: an object that was watched in one slot is freed,
allocated again and watched in another one.  Its next scan meets the former
slot when a second thread has written that it is used, but not yet for what. -/
def disturbedFree : List (Nat × Choice) :=
  watchedMalloc 1 16 0x1000 0 ++ (1, .call true (.free 0x1000)) ::
    proceeds 1 4 ++ watchedMalloc 1 16 0x1000 1 ++
    [(2, .call true (.malloc 8)), (2, .answer 0x2000),
      (2, .startWatch 1 true 0), (2, .proceed), (2, .lock fun _ => 1000),
      (2, .proceed), (1, .call true (.free 0x1000))] ++ proceeds 1 2 ++
    proceeds 2 5 ++ proceeds 1 2

/-- Then the flags do not help: a used slot is left with a freed object. -/
theorem slot_watches_after_disturbed_scan :
    run Manager.nonstandardEnvironment (start Manager.standardFiles 1)
        disturbedFree = some (reached disturbedFree) ∧
      BetweenCalls (reached disturbedFree) ∧
      ¬SlotsLive (reached disturbedFree).shared := by
  have executed := run_reached (by decide +kernel :
    (run Manager.nonstandardEnvironment (start Manager.standardFiles 1)
      disturbedFree).isSome = true)
  have idle : ∀ label ∈ disturbedFree,
      ((reached disturbedFree).locals label.1).position = .idle := by
    decide +kernel
  exact ⟨executed, betweenCalls_of_run executed idle, by decide +kernel⟩

end SlotHeap

end Causer
