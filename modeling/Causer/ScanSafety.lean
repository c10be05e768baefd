import Causer.FieldWrites
import Causer.Manager

/-!
# What a scan can miss

A released slot keeps its old `objectstart`.  When such a slot is installed
again, `isUsed` is written first, and until `objectstart` follows the slot looks
like one that watches the old address.  A scan that reads it then stops there,
the recheck fails, and a slot further on that really watches the address is
never released.  A scan that does not meet such a slot leaves no watch behind.
-/

namespace Causer

/-- The slot is used for an object, and not just about to be overwritten after
a fresh `isUsed`. -/
def Watches (shared : Shared) (slot : SlotPosition) (object : Word) : Prop :=
  (shared.slots slot).isUsed = true ∧
    (shared.slots slot).objectstart = object ∧
    (shared.slots slot).incomplete = false

instance (shared : Shared) (slot : SlotPosition) (object : Word) :
    Decidable (Watches shared slot object) :=
  inferInstanceAs (Decidable (_ ∧ _ ∧ _))

/-- No slot watches the object. -/
def Unwatched (shared : Shared) (object : Word) : Prop :=
  ∀ slot, ¬Watches shared slot object

/-- At most one slot watches an object, and none an address that is not
allocated. -/
structure WatchedOnce (shared : Shared) : Prop where
  unique : ∀ object first second,
    Watches shared first object → Watches shared second object →
    first = second
  allocated : ∀ object,
    shared.objects object = .unallocated → Unwatched shared object

/-- The object is in the hands of a thread. -/
def OwnedBy (shared : Shared) (thread : Nat) (object : Word) : Prop :=
  shared.objects object = .starting thread ∨
    shared.objects object = .freeing thread

/-- Whether the write of a field comes before or at that of `objectstart`. -/
def Field.early : Field → Bool
  | .isUsed => true
  | .addr => true
  | .objectstart => true
  | .objectsize => false
  | .callstack => false

/-- What a thread knows about the shared state at each position. -/
def assertion (thread : Nat) (shared : Shared) : Position → Prop
  | .idle => True
  | .starting request =>
      shared.objects request.objectstart = .starting thread ∧
        Unwatched shared request.objectstart
  | .testing request _ _ =>
      shared.objects request.objectstart = .starting thread ∧
        Unwatched shared request.objectstart
  | .locking request _ _ =>
      shared.objects request.objectstart = .starting thread ∧
        Unwatched shared request.objectstart
  | .locked request _ sidx =>
      (shared.slots sidx).lock = some thread ∧
        shared.objects request.objectstart = .starting thread ∧
        Unwatched shared request.objectstart
  | .writing request sidx field =>
      (shared.slots sidx).lock = some thread ∧
        shared.objects request.objectstart = .starting thread ∧
        (field.early = true → Unwatched shared request.objectstart)
  | .installed request sidx =>
      (shared.slots sidx).lock = some thread ∧
        shared.objects request.objectstart = .starting thread
  | .unlocking request _ sidx =>
      (shared.slots sidx).lock = some thread ∧
        shared.objects request.objectstart = .starting thread ∧
        Unwatched shared request.objectstart
  | .watched request =>
      shared.objects request.objectstart = .starting thread
  | .scanning object slot =>
      shared.objects object = .freeing thread ∧
        ∀ earlier < slot, ¬Watches shared earlier object
  | .comparing object slot =>
      shared.objects object = .freeing thread ∧
        (∀ earlier < slot, ¬Watches shared earlier object) ∧
        ((shared.slots slot).objectstart = object →
          (shared.slots slot).isUsed = true)
  | .waiting object slot =>
      shared.objects object = .freeing thread ∧
        ∀ other ≠ slot, ¬Watches shared other object
  | .rechecking object slot =>
      (shared.slots slot).lock = some thread ∧
        shared.objects object = .freeing thread ∧
        ∀ other ≠ slot, ¬Watches shared other object
  | .releasing object slot =>
      (shared.slots slot).lock = some thread ∧
        shared.objects object = .freeing thread ∧
        (shared.slots slot).objectstart = object ∧
        ∀ other ≠ slot, ¬Watches shared other object
  | .unlockingStop object slot =>
      (shared.slots slot).lock = some thread ∧
        shared.objects object = .freeing thread ∧
        Unwatched shared object
  | .returning object =>
      shared.objects object = .freeing thread ∧ Unwatched shared object
  | .stopped object =>
      shared.objects object = .freeing thread ∧ Unwatched shared object

/-- What a thread relies on when another one moves. -/
structure Rely (thread : Nat) (before after : Shared) : Prop where
  objects : ∀ object, OwnedBy before thread object →
    after.objects object = before.objects object
  watches : ∀ object slot, OwnedBy before thread object →
    Watches after slot object → Watches before slot object
  locked : ∀ slot, (before.slots slot).lock = some thread →
    after.slots slot = before.slots slot
  compared : ∀ object slot, before.objects object = .freeing thread →
    ((before.slots slot).objectstart = object →
      (before.slots slot).isUsed = true) →
    (after.slots slot).objectstart = object →
    (after.slots slot).isUsed = true

section Stability

variable {thread : Nat} {before after : Shared}

theorem Rely.starting
    (rely : Rely thread before after)
    {object : Word}
    (owned : before.objects object = .starting thread) :
    after.objects object = .starting thread :=
  (rely.objects object (Or.inl owned)).trans owned

theorem Rely.freeing
    (rely : Rely thread before after)
    {object : Word}
    (owned : before.objects object = .freeing thread) :
    after.objects object = .freeing thread :=
  (rely.objects object (Or.inr owned)).trans owned

theorem Rely.lock
    (rely : Rely thread before after)
    {slot : SlotPosition}
    (holds : (before.slots slot).lock = some thread) :
    (after.slots slot).lock = some thread := by
  rw [rely.locked slot holds]
  exact holds

theorem Rely.unwatched
    (rely : Rely thread before after)
    {object : Word}
    (owned : OwnedBy before thread object)
    (unwatched : Unwatched before object) :
    Unwatched after object :=
  fun slot watches => unwatched slot (rely.watches object slot owned watches)

/-- Assertions are stable under what a thread relies on. -/
theorem assertion_stable
    (thread : Nat) (before after : Shared) (position : Position)
    (holds : assertion thread before position)
    (rely : Rely thread before after) :
    assertion thread after position := by
  cases position with
  | idle => trivial
  | starting request =>
      exact ⟨rely.starting holds.1, rely.unwatched (Or.inl holds.1) holds.2⟩
  | testing request left sidx =>
      exact ⟨rely.starting holds.1, rely.unwatched (Or.inl holds.1) holds.2⟩
  | locking request left sidx =>
      exact ⟨rely.starting holds.1, rely.unwatched (Or.inl holds.1) holds.2⟩
  | locked request left sidx =>
      obtain ⟨lock, owned, unwatched⟩ := holds
      exact ⟨rely.lock lock, rely.starting owned,
        rely.unwatched (Or.inl owned) unwatched⟩
  | writing request sidx field =>
      obtain ⟨lock, owned, unwatched⟩ := holds
      exact ⟨rely.lock lock, rely.starting owned, fun early =>
        rely.unwatched (Or.inl owned) (unwatched early)⟩
  | installed request sidx =>
      exact ⟨rely.lock holds.1, rely.starting holds.2⟩
  | unlocking request left sidx =>
      obtain ⟨lock, owned, unwatched⟩ := holds
      exact ⟨rely.lock lock, rely.starting owned,
        rely.unwatched (Or.inl owned) unwatched⟩
  | watched request => exact rely.starting holds
  | scanning object slot =>
      obtain ⟨owned, earlier⟩ := holds
      exact ⟨rely.freeing owned, fun other before watches =>
        earlier other before (rely.watches object other (Or.inr owned) watches)⟩
  | comparing object slot =>
      obtain ⟨owned, earlier, used⟩ := holds
      exact ⟨rely.freeing owned, fun other before watches =>
        earlier other before (rely.watches object other (Or.inr owned) watches),
        rely.compared object slot owned used⟩
  | waiting object slot =>
      obtain ⟨owned, others⟩ := holds
      exact ⟨rely.freeing owned, fun other different watches =>
        others other different
          (rely.watches object other (Or.inr owned) watches)⟩
  | rechecking object slot =>
      obtain ⟨lock, owned, others⟩ := holds
      exact ⟨rely.lock lock, rely.freeing owned,
        fun other different watches => others other different
          (rely.watches object other (Or.inr owned) watches)⟩
  | releasing object slot =>
      obtain ⟨lock, owned, matched, others⟩ := holds
      refine ⟨rely.lock lock, rely.freeing owned, ?_,
        fun other different watches => others other different
          (rely.watches object other (Or.inr owned) watches)⟩
      rw [rely.locked slot lock]
      exact matched
  | unlockingStop object slot =>
      obtain ⟨lock, owned, unwatched⟩ := holds
      exact ⟨rely.lock lock, rely.freeing owned,
        rely.unwatched (Or.inr owned) unwatched⟩
  | returning object =>
      exact ⟨rely.freeing holds.1, rely.unwatched (Or.inr holds.1) holds.2⟩
  | stopped object =>
      exact ⟨rely.freeing holds.1, rely.unwatched (Or.inr holds.1) holds.2⟩

end Stability

/-! ## What each kind of step guarantees -/

section Guarantees

variable {shared : Shared} {caller other : Nat}

theorem Rely.refl (thread : Nat) (shared : Shared) :
    Rely thread shared shared :=
  ⟨fun _ _ => rfl, fun _ _ _ watches => watches, fun _ _ => rfl,
    fun _ _ _ used => used⟩

/-- The slots look the same but for their locks. -/
theorem setLock_slots
    (shared : Shared) (slot : SlotPosition) (holder : Option Nat)
    (any : SlotPosition) :
    ∃ lock, (shared.setLock slot holder).slots any =
      { shared.slots any with lock := lock } := by
  by_cases same : any = slot
  · subst same
    exact ⟨holder, Function.update_self ..⟩
  · exact ⟨(shared.slots any).lock, Function.update_of_ne same ..⟩

theorem watches_setLock
    {slot : SlotPosition}
    {holder : Option Nat}
    {any : SlotPosition}
    {object : Word} :
    Watches (shared.setLock slot holder) any object ↔
      Watches shared any object := by
  obtain ⟨lock, result⟩ := setLock_slots shared slot holder any
  simp only [Watches, result]

theorem WatchedOnce.setLock
    (once : WatchedOnce shared)
    (slot : SlotPosition) (holder : Option Nat) :
    WatchedOnce (shared.setLock slot holder) := by
  refine ⟨?_, ?_⟩
  · intro object first second watchesFirst watchesSecond
    exact once.unique object first second (watches_setLock.mp watchesFirst)
      (watches_setLock.mp watchesSecond)
  · intro object unallocated any watches
    exact once.allocated object unallocated any (watches_setLock.mp watches)

/-- Taking a free lock and giving back one's own disturb nobody. -/
theorem Rely.setLock
    {slot : SlotPosition}
    (free : (shared.slots slot).lock ≠ some other)
    (holder : Option Nat) :
    Rely other shared (shared.setLock slot holder) := by
  refine ⟨fun _ _ => rfl, fun _ _ _ watches => watches_setLock.mp watches,
    ?_, ?_⟩
  · intro any holds
    have different : any ≠ slot := by
      rintro rfl
      exact free holds
    exact Function.update_of_ne different ..
  · intro object any _ used matched
    obtain ⟨lock, result⟩ := setLock_slots shared slot holder any
    rw [result] at matched ⊢
    exact used matched

/-- Changing the status of an object that another thread does not own does not
disturb that thread. -/
theorem Rely.setObject
    {object : Word}
    (notOwned : ¬OwnedBy shared other object)
    (status : ObjectStatus) :
    Rely other shared (shared.setObject object status) := by
  refine ⟨?_, fun _ _ _ watches => watches, fun _ _ => rfl,
    fun _ _ _ used => used⟩
  intro any owned
  have different : any ≠ object := by
    rintro rfl
    exact notOwned owned
  exact Function.update_of_ne different ..

theorem WatchedOnce.setObject
    (once : WatchedOnce shared)
    {object : Word}
    {status : ObjectStatus}
    (released : status = .unallocated → Unwatched shared object) :
    WatchedOnce (shared.setObject object status) := by
  refine ⟨once.unique, ?_⟩
  intro any unallocated
  by_cases same : any = object
  · subst same
    apply released
    simpa using unallocated
  · apply once.allocated any
    simpa [same] using unallocated

/-- An object of one thread belongs to no other. -/
theorem not_ownedBy_of_starting
    {object : Word}
    (owned : shared.objects object = .starting caller)
    (different : other ≠ caller) :
    ¬OwnedBy shared other object := by
  rintro (starting | freeing)
  · rw [owned, ObjectStatus.starting.injEq] at starting
    exact different starting.symm
  · rw [owned] at freeing
    exact absurd freeing (by simp)

theorem not_ownedBy_of_freeing
    {object : Word}
    (owned : shared.objects object = .freeing caller)
    (different : other ≠ caller) :
    ¬OwnedBy shared other object := by
  rintro (starting | freeing)
  · rw [owned] at starting
    exact absurd starting (by simp)
  · rw [owned, ObjectStatus.freeing.injEq] at freeing
    exact different freeing.symm

/-- A write makes a slot watch only the object whose start it writes. -/
theorem watches_of_write
    {request : Request}
    {field : Field}
    {sidx slot : SlotPosition}
    {object : Word}
    (watches : Watches
      (shared.setSlot sidx ((shared.slots sidx).write request field)) slot
      object) :
    Watches shared slot object ∨
      slot = sidx ∧ object = request.objectstart ∧ field = .objectstart := by
  by_cases same : slot = sidx
  · subst same
    obtain ⟨used, starts, complete⟩ := watches
    simp only [Shared.setSlot_slots_self] at used starts complete
    cases field with
    | isUsed =>
        simp only [SharedSlot.write, Bool.or_eq_false_iff,
          Bool.not_eq_false'] at starts complete
        exact Or.inl ⟨complete.2, starts, complete.1⟩
    | addr => exact Or.inl ⟨used, starts, complete⟩
    | objectstart => exact Or.inr ⟨rfl, starts.symm, rfl⟩
    | objectsize => exact Or.inl ⟨used, starts, complete⟩
    | callstack => exact Or.inl ⟨used, starts, complete⟩
  · left
    simpa [Watches, same] using watches

/-- A write by the holder of the lock disturbs nobody: the only object it makes
a slot watch is the writer's own. -/
theorem Rely.write
    {request : Request}
    (field : Field)
    {sidx : SlotPosition}
    (lock : (shared.slots sidx).lock = some caller)
    (owned : shared.objects request.objectstart = .starting caller)
    (different : other ≠ caller) :
    Rely other shared
      (shared.setSlot sidx ((shared.slots sidx).write request field)) := by
  have foreign := not_ownedBy_of_starting owned different
  refine ⟨fun _ _ => rfl, ?_, ?_, ?_⟩
  · intro object slot ownedObject watches
    rcases watches_of_write watches with before | ⟨-, rfl, -⟩
    · exact before
    · exact absurd ownedObject foreign
  · intro slot holds
    have elsewhere : slot ≠ sidx := by
      rintro rfl
      rw [lock, Option.some.injEq] at holds
      exact different holds.symm
    exact shared.setSlot_slots_of_ne _ elsewhere _
  · intro object slot freeing used matched
    by_cases same : slot = sidx
    · subst same
      simp only [Shared.setSlot_slots_self] at matched ⊢
      cases field with
      | isUsed => rfl
      | addr => exact used matched
      | objectstart =>
          have isObject : request.objectstart = object := matched
          subst isObject
          exact absurd (Or.inr freeing) foreign
      | objectsize => exact used matched
      | callstack => exact used matched
    · rw [Shared.setSlot_slots_of_ne _ _ same] at matched ⊢
      exact used matched

theorem WatchedOnce.write
    (once : WatchedOnce shared)
    {request : Request}
    {field : Field}
    (sidx : SlotPosition)
    (owned : shared.objects request.objectstart = .starting caller)
    (unwatched : field.early = true →
      Unwatched shared request.objectstart) :
    WatchedOnce
      (shared.setSlot sidx ((shared.slots sidx).write request field)) := by
  refine ⟨?_, ?_⟩
  · intro object first second watchesFirst watchesSecond
    rcases watches_of_write watchesFirst with
      beforeFirst | ⟨isFirst, rfl, rfl⟩
    · rcases watches_of_write watchesSecond with
        beforeSecond | ⟨isSecond, rfl, rfl⟩
      · exact once.unique object first second beforeFirst beforeSecond
      · exact absurd beforeFirst (unwatched rfl first)
    · rcases watches_of_write watchesSecond with
        beforeSecond | ⟨isSecond, -, -⟩
      · exact absurd beforeSecond (unwatched rfl second)
      · rw [isFirst, isSecond]
  · intro object unallocated slot watches
    rcases watches_of_write watches with before | ⟨-, rfl, -⟩
    · exact once.allocated object unallocated slot before
    · rw [Shared.setSlot_objects, owned] at unallocated
      exact absurd unallocated (by simp)

/-- A slot whose `isUsed` has been cleared watches nothing. -/
theorem watches_of_release
    {slot any : SlotPosition}
    {object : Word}
    (watches : Watches (shared.setSlot slot
      { shared.slots slot with isUsed := false }) any object) :
    any ≠ slot ∧ Watches shared any object := by
  by_cases same : any = slot
  · subst same
    obtain ⟨used, -⟩ := watches
    simp at used
  · refine ⟨same, ?_⟩
    simpa [Watches, same] using watches

/-- A release by the holder of the lock disturbs nobody: the slot had the
releasing thread's own object. -/
theorem Rely.release
    {slot : SlotPosition}
    (lock : (shared.slots slot).lock = some caller)
    {object : Word}
    (owned : shared.objects object = .freeing caller)
    (starts : (shared.slots slot).objectstart = object)
    (different : other ≠ caller) :
    Rely other shared
      (shared.setSlot slot { shared.slots slot with isUsed := false }) := by
  refine ⟨fun _ _ => rfl,
    fun _ _ _ watches => (watches_of_release watches).2, ?_, ?_⟩
  · intro any holds
    have elsewhere : any ≠ slot := by
      rintro rfl
      rw [lock, Option.some.injEq] at holds
      exact different holds.symm
    exact shared.setSlot_slots_of_ne _ elsewhere _
  · intro any position freeing used matched
    by_cases same : position = slot
    · subst same
      simp only [Shared.setSlot_slots_self] at matched
      rw [starts] at matched
      subst matched
      exact absurd (Or.inr freeing) (not_ownedBy_of_freeing owned different)
    · rw [Shared.setSlot_slots_of_ne _ _ same] at matched ⊢
      exact used matched

theorem WatchedOnce.release
    (once : WatchedOnce shared)
    (slot : SlotPosition) :
    WatchedOnce
      (shared.setSlot slot { shared.slots slot with isUsed := false }) := by
  refine ⟨?_, ?_⟩
  · intro object first second watchesFirst watchesSecond
    exact once.unique object first second
      (watches_of_release watchesFirst).2 (watches_of_release watchesSecond).2
  · intro object unallocated any watches
    exact once.allocated object unallocated any
      (watches_of_release watches).2

end Guarantees

/-- The step does not go wrong: no scan stops at a slot that is about to be
overwritten while the object is watched elsewhere, and `stopWatch` does not
return while such a slot still shows the object. -/
def Undisturbed (shared : Shared) : Position → Prop
  | .comparing object slot =>
      (shared.slots slot).incomplete = true →
      (shared.slots slot).objectstart = object →
      ∀ other ≠ slot, ¬Watches shared other object
  | .returning object =>
      ∀ slot, (shared.slots slot).incomplete = true →
        (shared.slots slot).objectstart ≠ object
  | _ => True

instance (shared : Shared) :
    ∀ position, Decidable (Undisturbed shared position)
  | .comparing object slot =>
      inferInstanceAs (Decidable ((shared.slots slot).incomplete = true →
        (shared.slots slot).objectstart = object →
        ∀ other ≠ slot, ¬Watches shared other object))
  | .returning object =>
      inferInstanceAs (Decidable (∀ slot,
        (shared.slots slot).incomplete = true →
        (shared.slots slot).objectstart ≠ object))
  | .idle | .starting _ | .testing .. | .locking .. | .locked ..
  | .writing .. | .installed .. | .unlocking .. | .watched _
  | .scanning .. | .waiting .. | .rechecking .. | .releasing ..
  | .unlockingStop .. | .stopped _ => isTrue trivial

section Steps

variable {shared after : Shared} {caller : Nat} {next : Position}

/-- The assertion after a slot that was not installed. -/
theorem assertion_nextSlot
    {request : Request}
    (owned : shared.objects request.objectstart = .starting caller)
    (unwatched : Unwatched shared request.objectstart)
    (left : Nat) (sidx : SlotPosition) :
    assertion caller shared (.nextSlot request left sidx) := by
  unfold Position.nextSlot
  split
  · exact ⟨owned, unwatched⟩
  · exact ⟨owned, unwatched⟩

/-- The assertion after a slot that does not watch the object. -/
theorem assertion_nextScan
    {object : Word}
    {slot : SlotPosition}
    (owned : shared.objects object = .freeing caller)
    (earlier : ∀ other < slot, ¬Watches shared other object)
    (here : ¬Watches shared slot object) :
    assertion caller shared (.nextScan object slot) := by
  have upTo : ∀ other ≤ slot, ¬Watches shared other object := by
    intro other below
    rcases below.lt_or_eq with before | rfl
    · exact earlier other before
    · exact here
  unfold Position.nextScan
  split
  · next last =>
      refine ⟨owned, fun other => upTo other ?_⟩
      rw [last]
      exact Fin.le_last other
  · refine ⟨owned, fun other before => upTo other ?_⟩
    have successor : (slot + 1).val ≤ slot.val + 1 := by
      rw [Fin.val_add]
      exact Nat.mod_le _ _
    rw [Fin.lt_def] at before
    rw [Fin.le_def]
    omega

/-- What a step must do: keep the fact, establish the assertion of the position
it leads to, and give all other threads what they rely on. -/
structure Sound (caller : Nat) (shared after : Shared)
    (next : Position) : Prop where
  once : WatchedOnce after
  assertion : assertion caller after next
  rely : ∀ other ≠ caller, Rely other shared after

/-- A step that only reads. -/
theorem Sound.read
    (once : WatchedOnce shared)
    (holds : Causer.assertion caller shared next) :
    Sound caller shared shared next :=
  ⟨once, holds, fun other _ => Rely.refl other shared⟩

/-- A step that takes a free lock. -/
theorem Sound.lock
    (once : WatchedOnce shared)
    {slot : SlotPosition}
    (free : (shared.slots slot).lock = none)
    (holds : Causer.assertion caller (shared.setLock slot (some caller))
      next) :
    Sound caller shared (shared.setLock slot (some caller)) next := by
  refine ⟨once.setLock _ _, holds, fun other _ => Rely.setLock ?_ _⟩
  rw [free]
  simp

/-- A step that gives its lock back. -/
theorem Sound.unlock
    (once : WatchedOnce shared)
    {slot : SlotPosition}
    (held : (shared.slots slot).lock = some caller)
    (holds : Causer.assertion caller (shared.setLock slot none) next) :
    Sound caller shared (shared.setLock slot none) next := by
  refine ⟨once.setLock _ _, holds, fun other different =>
    Rely.setLock ?_ _⟩
  rw [held]
  simpa using different.symm

/-- Nothing is watched that was not before a lock changed hands. -/
theorem Unwatched.setLock
    {object : Word}
    (unwatched : Unwatched shared object)
    (slot : SlotPosition) (holder : Option Nat) :
    Unwatched (shared.setLock slot holder) object :=
  fun any watches => unwatched any (watches_setLock.mp watches)

/-- The steps of `malloc` are sound: until `objectstart` is written nobody
watches the new object. -/
theorem sound_of_owner
    {request : Request}
    {position : Position}
    {choice : Choice}
    (once : WatchedOnce shared)
    (holds : assertion caller shared position)
    (inMalloc : position = .starting request ∨
      (∃ left sidx, position = .testing request left sidx) ∨
      (∃ left sidx, position = .locking request left sidx) ∨
      ∃ left sidx, position = .locked request left sidx)
    (moved : advance caller shared position choice = some (after, next)) :
    Sound caller shared after next := by
  rcases inMalloc with rfl | ⟨left, sidx, rfl⟩ | ⟨left, sidx, rfl⟩ |
    ⟨left, sidx, rfl⟩
  · cases choice with
    | setWatchpoint ispreempt curIndex =>
        simp only [advance, Option.some.injEq, Prod.mk.injEq] at moved
        obtain ⟨rfl, rfl⟩ := moved
        exact Sound.read once holds
    | finishStart =>
        simp only [advance, Option.some.injEq, Prod.mk.injEq] at moved
        obtain ⟨rfl, rfl⟩ := moved
        exact ⟨once.setObject (fun impossible => absurd impossible (by simp)),
          trivial, fun other different => Rely.setObject
            (not_ownedBy_of_starting holds.1 different) _⟩
    | _ => simp [advance] at moved
  · cases choice with
    | proceed passes =>
        rw [advance] at moved
        split at moved
        · simp only [Option.some.injEq, Prod.mk.injEq] at moved
          obtain ⟨rfl, rfl⟩ := moved
          exact Sound.read once holds
        · simp only [Option.some.injEq, Prod.mk.injEq] at moved
          obtain ⟨rfl, rfl⟩ := moved
          exact Sound.read once
            (assertion_nextSlot holds.1 holds.2 left sidx)
    | _ => simp [advance] at moved
  · cases choice with
    | proceed passes =>
        rw [advance] at moved
        split at moved
        · next free =>
            simp only [Option.some.injEq, Prod.mk.injEq] at moved
            obtain ⟨rfl, rfl⟩ := moved
            exact Sound.lock once free
              ⟨shared.lock_setLock_self sidx _, holds.1, holds.2.setLock sidx _⟩
        · exact absurd moved (by simp)
    | _ => simp [advance] at moved
  · obtain ⟨lock, owned, unwatched⟩ := holds
    cases choice with
    | proceed passes =>
        rw [advance] at moved
        split at moved
        · simp only [Option.some.injEq, Prod.mk.injEq] at moved
          obtain ⟨rfl, rfl⟩ := moved
          exact Sound.read once ⟨lock, owned, fun _ => unwatched⟩
        · simp only [Option.some.injEq, Prod.mk.injEq] at moved
          obtain ⟨rfl, rfl⟩ := moved
          exact Sound.read once ⟨lock, owned, unwatched⟩
    | _ => simp [advance] at moved

/-- A write is sound. -/
theorem sound_write
    {request : Request}
    {sidx : SlotPosition}
    {field : Field}
    (once : WatchedOnce shared)
    (holds : assertion caller shared (.writing request sidx field)) :
    Sound caller shared
      (shared.setSlot sidx ((shared.slots sidx).write request field))
      (.afterWrite request sidx field) := by
  obtain ⟨lock, owned, unwatched⟩ := holds
  refine ⟨once.write sidx owned unwatched, ?_,
    fun other different => Rely.write field lock owned different⟩
  have lockAfter : ((shared.setSlot sidx
      ((shared.slots sidx).write request field)).slots sidx).lock =
      some caller := by
    rw [← lock]
    cases field <;> simp [SharedSlot.write]
  have stillUnwatched : field ≠ .objectstart → field.early = true →
      Unwatched (shared.setSlot sidx
        ((shared.slots sidx).write request field)) request.objectstart := by
    intro notStart early slot watches
    rcases watches_of_write watches with before | ⟨-, -, isStart⟩
    · exact unwatched early slot before
    · exact notStart isStart
  cases field with
  | isUsed =>
      exact ⟨lockAfter, owned, fun _ => stillUnwatched (by simp) rfl⟩
  | addr => exact ⟨lockAfter, owned, fun _ => stillUnwatched (by simp) rfl⟩
  | objectstart =>
      exact ⟨lockAfter, owned, fun late => absurd late (by simp [Field.early])⟩
  | objectsize =>
      exact ⟨lockAfter, owned, fun late => absurd late (by simp [Field.early])⟩
  | callstack => exact ⟨lockAfter, owned⟩

/-- The unlocked reads of the scan are sound. -/
theorem sound_of_scan
    {object : Word}
    {slot : SlotPosition}
    {position : Position}
    {choice : Choice}
    (once : WatchedOnce shared)
    (holds : assertion caller shared position)
    (undisturbed : Undisturbed shared position)
    (inScan : position = .scanning object slot ∨
      position = .comparing object slot)
    (moved : advance caller shared position choice = some (after, next)) :
    Sound caller shared after next := by
  rcases inScan with rfl | rfl
  · obtain ⟨owned, earlier⟩ := holds
    cases choice with
    | proceed passes =>
        rw [advance] at moved
        split at moved
        · next used =>
            simp only [Option.some.injEq, Prod.mk.injEq] at moved
            obtain ⟨rfl, rfl⟩ := moved
            exact Sound.read once ⟨owned, earlier, fun _ => used⟩
        · next unused =>
            simp only [Option.some.injEq, Prod.mk.injEq] at moved
            obtain ⟨rfl, rfl⟩ := moved
            exact Sound.read once (assertion_nextScan owned earlier
              fun watches => unused watches.1)
    | _ => simp [advance] at moved
  · obtain ⟨owned, earlier, used⟩ := holds
    cases choice with
    | proceed passes =>
        rw [advance] at moved
        split at moved
        · next matched =>
            simp only [Option.some.injEq, Prod.mk.injEq] at moved
            obtain ⟨rfl, rfl⟩ := moved
            refine Sound.read once ⟨owned, ?_⟩
            intro other different watches
            cases complete : (shared.slots slot).incomplete with
            | false =>
                -- The slot really watches the object, so no other one does.
                exact different (once.unique object other slot watches
                  ⟨used matched, matched, complete⟩)
            | true => exact undisturbed complete matched other different watches
        · next unmatched =>
            simp only [Option.some.injEq, Prod.mk.injEq] at moved
            obtain ⟨rfl, rfl⟩ := moved
            exact Sound.read once (assertion_nextScan owned earlier
              fun watches => unmatched watches.2.1)
    | _ => simp [advance] at moved

/-- The locked part of `disableWatchpointByAddr` is sound. -/
theorem sound_of_disable
    {object : Word}
    {slot : SlotPosition}
    {position : Position}
    {choice : Choice}
    (once : WatchedOnce shared)
    (holds : assertion caller shared position)
    (inDisable : position = .waiting object slot ∨
      position = .rechecking object slot ∨
      position = .releasing object slot ∨
      position = .unlockingStop object slot)
    (moved : advance caller shared position choice = some (after, next)) :
    Sound caller shared after next := by
  rcases inDisable with rfl | rfl | rfl | rfl
  · obtain ⟨owned, others⟩ := holds
    cases choice with
    | proceed passes =>
        rw [advance] at moved
        split at moved
        · next free =>
            simp only [Option.some.injEq, Prod.mk.injEq] at moved
            obtain ⟨rfl, rfl⟩ := moved
            exact Sound.lock once free ⟨shared.lock_setLock_self slot _, owned,
              fun other different watches =>
                others other different (watches_setLock.mp watches)⟩
        · exact absurd moved (by simp)
    | _ => simp [advance] at moved
  · obtain ⟨lock, owned, others⟩ := holds
    cases choice with
    | proceed passes =>
        rw [advance] at moved
        split at moved
        · next matched =>
            simp only [Option.some.injEq, Prod.mk.injEq] at moved
            obtain ⟨rfl, rfl⟩ := moved
            exact Sound.read once ⟨lock, owned, matched.2.symm, others⟩
        · next unmatched =>
            simp only [Option.some.injEq, Prod.mk.injEq] at moved
            obtain ⟨rfl, rfl⟩ := moved
            refine Sound.read once ⟨lock, owned, fun any watches => ?_⟩
            by_cases same : any = slot
            · subst same
              exact unmatched ⟨watches.1, watches.2.1.symm⟩
            · exact others any same watches
    | _ => simp [advance] at moved
  · obtain ⟨lock, owned, starts, others⟩ := holds
    cases choice with
    | proceed passes =>
        simp only [advance, Option.some.injEq, Prod.mk.injEq] at moved
        obtain ⟨rfl, rfl⟩ := moved
        refine ⟨once.release slot, ⟨?_, owned, ?_⟩, fun other different =>
          Rely.release lock owned starts different⟩
        · simpa using lock
        · intro any watches
          obtain ⟨different, before⟩ := watches_of_release watches
          exact others any different before
    | _ => simp [advance] at moved
  · obtain ⟨lock, owned, unwatched⟩ := holds
    cases choice with
    | proceed passes =>
        simp only [advance, Option.some.injEq, Prod.mk.injEq] at moved
        obtain ⟨rfl, rfl⟩ := moved
        exact Sound.unlock once lock ⟨owned, unwatched.setLock slot _⟩
    | _ => simp [advance] at moved

/-- Every undisturbed step is sound. -/
theorem advance_sound
    {position : Position}
    {choice : Choice}
    (once : WatchedOnce shared)
    (holds : assertion caller shared position)
    (undisturbed : Undisturbed shared position)
    (moved : advance caller shared position choice = some (after, next)) :
    Sound caller shared after next := by
  cases position with
  | idle =>
      cases choice with
      | malloc request =>
          rw [advance] at moved
          split at moved
          · next unallocated =>
              simp only [Option.some.injEq, Prod.mk.injEq] at moved
              obtain ⟨rfl, rfl⟩ := moved
              refine ⟨once.setObject
                  (fun impossible => absurd impossible (by simp)),
                ⟨by simp,
                  once.allocated _ unallocated⟩,
                fun other _ => Rely.setObject ?_ _⟩
              simp [OwnedBy, unallocated]
          · exact absurd moved (by simp)
      | free object =>
          rw [advance] at moved
          split at moved
          · next live =>
              simp only [Option.some.injEq, Prod.mk.injEq] at moved
              obtain ⟨rfl, rfl⟩ := moved
              refine ⟨once.setObject
                  (fun impossible => absurd impossible (by simp)),
                ⟨by simp, fun earlier before => ?_⟩,
                fun other _ => Rely.setObject ?_ _⟩
              · exact absurd before (Fin.not_lt_zero earlier)
              · simp [OwnedBy, live]
          · exact absurd moved (by simp)
      | _ => simp [advance] at moved
  | starting request => exact sound_of_owner once holds (Or.inl rfl) moved
  | testing request left sidx =>
      exact sound_of_owner once holds (Or.inr (Or.inl ⟨left, sidx, rfl⟩))
        moved
  | locking request left sidx =>
      exact sound_of_owner once holds
        (Or.inr (Or.inr (Or.inl ⟨left, sidx, rfl⟩))) moved
  | locked request left sidx =>
      exact sound_of_owner once holds
        (Or.inr (Or.inr (Or.inr ⟨left, sidx, rfl⟩))) moved
  | writing request sidx field =>
      cases choice with
      | proceed passes =>
          simp only [advance, Option.some.injEq, Prod.mk.injEq] at moved
          obtain ⟨rfl, rfl⟩ := moved
          exact sound_write once holds
      | _ => simp [advance] at moved
  | installed request sidx =>
      cases choice with
      | proceed passes =>
          simp only [advance, Option.some.injEq, Prod.mk.injEq] at moved
          obtain ⟨rfl, rfl⟩ := moved
          exact Sound.unlock once holds.1 holds.2
      | _ => simp [advance] at moved
  | unlocking request left sidx =>
      obtain ⟨lock, owned, unwatched⟩ := holds
      cases choice with
      | proceed passes =>
          simp only [advance, Option.some.injEq, Prod.mk.injEq] at moved
          obtain ⟨rfl, rfl⟩ := moved
          have ownedAfter : (shared.setLock sidx none).objects
              request.objectstart = .starting caller := owned
          exact Sound.unlock once lock (assertion_nextSlot ownedAfter
            (unwatched.setLock sidx none) left sidx)
      | _ => simp [advance] at moved
  | watched request =>
      cases choice with
      | finishStart =>
          simp only [advance, Option.some.injEq, Prod.mk.injEq] at moved
          obtain ⟨rfl, rfl⟩ := moved
          exact ⟨once.setObject
              (fun impossible => absurd impossible (by simp)),
            trivial, fun other different => Rely.setObject
              (not_ownedBy_of_starting holds different) _⟩
      | _ => simp [advance] at moved
  | scanning object slot =>
      exact sound_of_scan once holds undisturbed (Or.inl rfl) moved
  | comparing object slot =>
      exact sound_of_scan once holds undisturbed (Or.inr rfl) moved
  | waiting object slot =>
      exact sound_of_disable once holds (Or.inl rfl) moved
  | rechecking object slot =>
      exact sound_of_disable once holds (Or.inr (Or.inl rfl)) moved
  | releasing object slot =>
      exact sound_of_disable once holds (Or.inr (Or.inr (Or.inl rfl))) moved
  | unlockingStop object slot =>
      exact sound_of_disable once holds (Or.inr (Or.inr (Or.inr rfl))) moved
  | returning object =>
      cases choice with
      | proceed passes =>
          simp only [advance, Option.some.injEq, Prod.mk.injEq] at moved
          obtain ⟨rfl, rfl⟩ := moved
          exact Sound.read once holds
      | _ => simp [advance] at moved
  | stopped object =>
      cases choice with
      | proceed passes =>
          simp only [advance, Option.some.injEq, Prod.mk.injEq] at moved
          obtain ⟨rfl, rfl⟩ := moved
          exact ⟨once.setObject (fun _ => holds.2), trivial,
            fun other different => Rely.setObject
              (not_ownedBy_of_freeing holds.1 different) _⟩
      | _ => simp [advance] at moved

end Steps

namespace FieldWrites

/-- A step of a run does not go wrong. -/
def StepUndisturbed (state : State) (label : Nat × Choice) : Prop :=
  Undisturbed state.shared (state.locals label.1)

instance (state : State) (label : Nat × Choice) :
    Decidable (StepUndisturbed state label) :=
  inferInstanceAs (Decidable (Undisturbed _ _))

/-- The invariant of runs. -/
abbrev ScanInvariant : State → Prop :=
  Interleaving.Invariant WatchedOnce assertion

theorem step_scanInvariant
    {state next : State}
    {label : Nat × Choice}
    (invariant : ScanInvariant state)
    (undisturbed : StepUndisturbed state label)
    (stepped : step state label = some next) :
    ScanInvariant next := by
  apply Interleaving.Invariant.step assertion_stable invariant _ stepped
  intro shared position moved
  have sound := advance_sound invariant.fact
    (invariant.assertion label.1) undisturbed moved
  exact ⟨sound.once, sound.assertion, sound.rely⟩

theorem scanInvariant_start : ScanInvariant start := by
  refine ⟨⟨?_, ?_⟩, fun _ => trivial⟩
  · rintro object first second ⟨used, -⟩
    exact absurd used (by simp [start])
  · rintro object _ slot ⟨used, -⟩
    exact absurd used (by simp [start])

/-- In every run whose steps are undisturbed, no slot is used with the freed
object's start when `stopWatch` returns. -/
theorem stopWatch_leaves_no_watch
    {labels : List (Nat × Choice)}
    {before after : State}
    {caller : Nat}
    {object : Word}
    {passes : Bool}
    (undisturbed : Machine.Along step StepUndisturbed start
      (labels ++ [(caller, .proceed passes)]))
    (executed : run start labels = some before)
    (stepped : step before (caller, .proceed passes) = some after)
    (returns : before.locals caller = .returning object) :
    ∀ slot,
      ¬((after.shared.slots slot).isUsed = true ∧
        (after.shared.slots slot).objectstart = object) := by
  obtain ⟨along, last⟩ := Machine.along_append undisturbed executed
  have invariant : ScanInvariant before :=
    Machine.run_invariant
      (fun _ _ _ holds allowed moved => step_scanInvariant holds allowed moved)
      scanInvariant_start along executed
  have known := invariant.assertion caller
  have settled := last.1
  unfold StepUndisturbed at settled
  rw [returns] at known settled
  obtain ⟨shared, position, moved, rfl⟩ := Interleaving.step_eq_some stepped
  rw [returns] at moved
  simp only [advance, Option.some.injEq, Prod.mk.injEq] at moved
  obtain ⟨rfl, rfl⟩ := moved
  rintro slot ⟨used, starts⟩
  cases complete : (before.shared.slots slot).incomplete with
  | false => exact known.2 slot ⟨used, starts, complete⟩
  | true => exact settled slot complete starts

/-- Several instructions of one thread. -/
def proceed (caller count : Nat) : List (Nat × Choice) :=
  List.replicate count (caller, .proceed false)

/-- A thread allocates an object and installs it in the slot at which its search
starts. -/
def install (caller : Nat) (object : Word) (curIndex : SlotPosition) :
    List (Nat × Choice) :=
  [(caller, .malloc (Manager.sampleRequest object 1 false)),
    (caller, .setWatchpoint false curIndex)] ++ proceed caller 9 ++
    [(caller, .finishStart)]

/-- A thread frees the object of the first slot, up to the return of
`stopWatch`. -/
def freeFirst (caller : Nat) (object : Word) : List (Nat × Choice) :=
  (caller, .free object) :: proceed caller 6

/-- The state after some steps from the start. -/
def reached (labels : List (Nat × Choice)) : State :=
  (run start labels).getD start

/-- One thread frees its object while another one allocates. -/
def quietRun : List (Nat × Choice) :=
  install 1 0x1000 0 ++
    [(2, .malloc (Manager.sampleRequest 0x2000 1 false)),
      (2, .setWatchpoint false 1)] ++ freeFirst 1 0x1000

theorem stopWatch_leaves_no_watch_quietRun :
    (reached quietRun).locals 1 = .returning 0x1000 ∧
      ¬(((reached (quietRun ++ proceed 1 1)).shared.slots 0).isUsed = true ∧
        ((reached (quietRun ++ proceed 1 1)).shared.slots 0).objectstart =
          0x1000) := by
  have undisturbed : Machine.Along step StepUndisturbed start
      (quietRun ++ [(1, .proceed false)]) := by
    decide +kernel
  have executed : run start quietRun = some (reached quietRun) := rfl
  have returns : (reached quietRun).locals 1 = .returning 0x1000 := rfl
  exact ⟨returns,
    stopWatch_leaves_no_watch undisturbed executed rfl returns 0⟩

/-- A slot keeps the start of a freed object whose address is handed out again
and watched elsewhere.  While a second thread overwrites that slot, the first
thread frees the address again. -/
def staleRun : List (Nat × Choice) :=
  install 1 0x1000 0 ++ freeFirst 1 0x1000 ++ proceed 1 2 ++
    install 1 0x2000 1 ++ install 1 0x1000 2 ++ install 1 0x4000 3 ++
    [(2, .malloc (Manager.sampleRequest 0x5000 1 false)),
      (2, .setWatchpoint false 0)] ++ proceed 2 4 ++
    (1, .free 0x1000) :: proceed 1 2 ++ proceed 2 5 ++ proceed 1 3

/-- The scan stops at the slot that is being overwritten, and the slot that
watches the freed object stays in use. -/
theorem stopWatch_leaves_a_watch :
    ∃ before after,
      run start staleRun = some before ∧
        before.locals 1 = .returning 0x1000 ∧
        step before (1, .proceed false) = some after ∧
        (after.shared.slots 2).isUsed = true ∧
        (after.shared.slots 2).objectstart = 0x1000 :=
  ⟨_, _, rfl, rfl, rfl, rfl, rfl⟩

end FieldWrites

end Causer
