import Causer.SlotHeap
import Causer.SlotExclusion

/-!
# What a call knows of slots and objects

A thread in a call holds the objects that the call works on, and with its flag
on it knows of some of them that no slot watches them.  The other threads leave
its objects alone.  Here these assertions are stated, together with what every
change of the objects and of the slots does to them.
-/

namespace Causer

/-- The slot is used for the object that starts at an address. -/
def Manager.Watches (manager : Manager) (slot : SlotPosition)
    (ptr : Word) : Prop :=
  (manager.wp slot).isUsed = true ∧ (manager.wp slot).objectstart = ptr

instance Manager.decidableWatches (manager : Manager) (slot : SlotPosition)
    (ptr : Word) : Decidable (manager.Watches slot ptr) :=
  inferInstanceAs (Decidable (_ ∧ _))

/-- No slot is used for the object. -/
def Manager.Unwatched (manager : Manager) (ptr : Word) : Prop :=
  ∀ slot, ¬manager.Watches slot ptr

instance Manager.decidableUnwatched (manager : Manager) (ptr : Word) :
    Decidable (manager.Unwatched ptr) :=
  inferInstanceAs (Decidable (∀ _, _))

namespace SlotHeap

/-! ## What a thread knows -/

/-- The objects that a call still has to free or to return. -/
def AfterFree.held : AfterFree → List Word
  | .done => []
  | .handOut buf => [buf]
  | .keep ptr _ => [ptr]

def AfterRemove.held : AfterRemove → List Word
  | .free next => next.held
  | .malloc _ => []

def AfterInstall.held : AfterInstall → List Word
  | .handOut => []
  | .compare ptr => [ptr]

def Position.held : Position → List Word
  | .idle => []
  | .scanning ptr _ next => ptr :: next.held
  | .matching ptr _ _ next => ptr :: next.held
  | .disabling ptr _ next => ptr :: next.held
  | .freeing ptr next => ptr :: next.held
  | .allocating _ next => next.held
  | .starting ptr _ next => ptr :: next.held
  | .testing request _ _ next => request.objectstart :: next.held
  | .locking request _ _ next => request.objectstart :: next.held
  | .writing request _ _ _ next => request.objectstart :: next.held
  | .drawing request next => request.objectstart :: next.held
  | .comparing ptr buf _ => [buf, ptr]
  | .updating ptr _ => [ptr]
  | .returning ptr => [ptr]

/-- The object whose watchpoint a call with the flag on has removed and that it
may give another size later. -/
def AfterFree.kept : AfterFree → List Word
  | .keep ptr _ => [ptr]
  | _ => []

def AfterRemove.kept : AfterRemove → List Word
  | .free next => next.kept
  | .malloc _ => []

/-- The objects that no slot watches when the flag is on. -/
def Position.unwatched : Position → List Word
  | .idle => []
  | .scanning _ _ next => next.kept
  | .matching _ _ _ next => next.kept
  | .disabling _ _ next => next.kept
  | .freeing ptr next => ptr :: next.kept
  | .allocating _ next => next.held
  | .starting ptr _ next => ptr :: next.held
  | .testing request _ _ next => request.objectstart :: next.held
  | .locking request _ _ next => request.objectstart :: next.held
  | .writing request _ _ ret next =>
      if ret then next.held else request.objectstart :: next.held
  | .drawing request next => request.objectstart :: next.held
  | .comparing ptr _ _ => [ptr]
  | .updating ptr _ => [ptr]
  | .returning _ => []

/-- A call of the thread works on an object that starts at the address. -/
def Shared.Holds (shared : Shared) (thread : Nat) (ptr : Word) : Prop :=
  ∃ object ∈ shared.objects, object.start = ptr ∧ object.caller = some thread

/-- A call of the thread works on an object with this start and size. -/
def Shared.HoldsSized (shared : Shared) (thread : Nat)
    (ptr sz : Word) : Prop :=
  ∃ object ∈ shared.objects,
    object.start = ptr ∧ object.size = sz ∧ object.caller = some thread

/-- A slot that nobody writes keeps the start of an object that it does not
watch. -/
structure Shared.Leftover (shared : Shared) (slot : SlotPosition)
    (ptr : Word) : Prop where
  settled : shared.unfinished slot = none
  objectstart : (shared.manager.wp slot).objectstart = ptr
  unwatched : ¬shared.manager.Watches slot ptr

/-- The request is for the tail of an object that a call of the thread works
on. -/
def Shared.AsksFor (shared : Shared) (thread : Nat) (request : Request) :
    Prop :=
  request.addr = request.objectstart + request.objectsize ∧
    shared.HoldsSized thread request.objectstart request.objectsize

/-- The thread writes a slot, for its request. -/
structure Shared.WritesSlot (shared : Shared) (thread : Nat)
    (request : Request) (sidx : SlotPosition) : Prop where
  unfinished : ∃ unfinished, shared.unfinished sidx = some unfinished ∧
    unfinished.writer = thread
  objectstart : (shared.manager.wp sidx).objectstart = request.objectstart

/-- What a thread knows about slots and objects beyond whose objects are whose:
where a scan may still find its object, and what it asks for when it installs
a watchpoint. -/
def Position.Knows (thread : Nat) (shared : Shared) : Position → Prop
  | .scanning ptr slots _ =>
      ∀ slot, shared.manager.Watches slot ptr → slot ∈ slots
  | .matching ptr found slots _ =>
      (∀ slot, shared.manager.Watches slot ptr → slot ∈ found :: slots) ∧
        ¬shared.Leftover found ptr
  | .disabling ptr found _ =>
      ∀ slot, shared.manager.Watches slot ptr → slot = found
  | .starting ptr sz _ => shared.HoldsSized thread ptr sz
  | .testing request _ _ _
  | .locking request _ _ _
  | .drawing request _ => shared.AsksFor thread request
  | .writing request _ sidx _ _ =>
      shared.AsksFor thread request ∧ shared.WritesSlot thread request sidx
  | _ => True

/-- The thread writes the slot. -/
def Position.IsWriting (slot : SlotPosition) : Position → Prop
  | .writing _ _ sidx _ _ => slot = sidx
  | _ => False

/-- The thread is removing or installing a watchpoint. -/
def Position.IsWatching : Position → Prop
  | .scanning _ _ _ | .matching _ _ _ _ | .disabling _ _ _ | .starting _ _ _
  | .testing _ _ _ _ | .locking _ _ _ _ | .writing _ _ _ _ _
  | .drawing _ _ => True
  | _ => False

/-- The thread writes no slot. -/
def Shared.WritesNone (shared : Shared) (thread : Nat) : Prop :=
  ∀ slot unfinished, shared.unfinished slot = some unfinished →
    unfinished.writer ≠ thread

/-- What a thread holds, and which objects no slot watches when its flag is
on. -/
structure Grip (thread : Nat) (shared : Shared) (isCauser : Bool)
    (held unwatched : List Word) : Prop where
  holds : ∀ ptr, shared.Holds thread ptr ↔ ptr ∈ held
  nodup : held.Nodup
  unwatched : isCauser = true →
    ∀ ptr ∈ unwatched, shared.manager.Unwatched ptr

/-- What holds of a thread. -/
structure Assertion (thread : Nat) (shared : Shared) (caller : Caller) :
    Prop where
  grip : Grip thread shared caller.isCauser caller.position.held
    caller.position.unwatched
  flag : caller.position.IsWatching → caller.isCauser = true
  knows : caller.position.Knows thread shared
  own : ∀ slot unfinished, shared.unfinished slot = some unfinished →
    unfinished.writer = thread → caller.position.IsWriting slot

/-- What a thread may rely on while others run: its own objects stay as they
are, no slot begins to watch one of them or to keep its start as a leftover, and
the slots that it writes are written by nobody else. -/
structure Rely (thread : Nat) (before after : Shared) : Prop where
  objects : ∀ object : HeapObject, object.caller = some thread →
    (object ∈ after.objects ↔ object ∈ before.objects)
  watches : ∀ slot ptr, before.Holds thread ptr →
    after.manager.Watches slot ptr → before.manager.Watches slot ptr
  leftover : ∀ slot ptr, before.Holds thread ptr →
    after.Leftover slot ptr → before.Leftover slot ptr
  unfinished : ∀ slot unfinished, unfinished.writer = thread →
    (after.unfinished slot = some unfinished ↔
      before.unfinished slot = some unfinished)
  locked : ∀ slot unfinished, before.unfinished slot = some unfinished →
    unfinished.writer = thread →
    (after.manager.wp slot).isUsed = (before.manager.wp slot).isUsed ∧
      (after.manager.wp slot).objectstart =
        (before.manager.wp slot).objectstart

/-- Used slots watch objects that exist, at their tails, each another one. -/
structure Fact (shared : Shared) : Prop where
  nodup : (shared.objects.map HeapObject.start).Nodup
  watched : ∀ slot, (shared.manager.wp slot).isUsed = true →
    ∃ object ∈ shared.objects,
      object.start = (shared.manager.wp slot).objectstart ∧
        (shared.manager.wp slot).addr = object.start + object.size
  distinct : ∀ first second ptr, shared.manager.Watches first ptr →
    shared.manager.Watches second ptr → first = second
  coverage : shared.manager.CoverageInvariant

/-! ## Where a call goes on -/

section Positions

variable {thread : Nat} {shared : Shared} {isCauser : Bool}
variable {held held' unwatched unwatched' : List Word}

theorem Grip.imp
    (grip : Grip thread shared isCauser held unwatched)
    (permuted : held.Perm held')
    (fewer : isCauser = true → unwatched' ⊆ unwatched) :
    Grip thread shared isCauser held' unwatched' where
  holds := fun ptr => (grip.holds ptr).trans permuted.mem_iff
  nodup := permuted.nodup_iff.mp grip.nodup
  unwatched := fun on ptr member =>
    grip.unwatched on ptr (fewer on member)

theorem Shared.WritesNone.own
    {position : Position}
    (noWrites : shared.WritesNone thread) :
    ∀ slot unfinished, shared.unfinished slot = some unfinished →
      unfinished.writer = thread → position.IsWriting slot :=
  fun slot unfinished isUnfinished same =>
    absurd same (noWrites slot unfinished isUnfinished)

theorem xxfree_assertion
    {ptr : Word}
    {next : AfterFree}
    (noWrites : shared.WritesNone thread)
    (grip : Grip thread shared isCauser (ptr :: next.held) next.kept) :
    Assertion thread shared ⟨isCauser, xxfree isCauser ptr next⟩ := by
  cases isCauser with
  | true => exact ⟨grip, fun _ => rfl, fun slot _ => List.mem_finRange slot,
      noWrites.own⟩
  | false =>
      exact ⟨grip.imp (.refl _) (by simp),
        fun impossible => impossible.elim, trivial, noWrites.own⟩

theorem customMalloc_assertion
    {next : AfterInstall}
    (noWrites : shared.WritesNone thread)
    (grip : Grip thread shared isCauser next.held next.held)
    (sz : Word) :
    Assertion thread shared ⟨isCauser, customMalloc isCauser sz next⟩ := by
  unfold customMalloc
  split_ifs
  · cases next with
    | handOut => exact ⟨grip, fun impossible => impossible.elim, trivial, noWrites.own⟩
    | compare ptr =>
        exact xxfree_assertion noWrites
          (grip.imp (.refl _) fun _ => List.nil_subset _)
  · exact ⟨grip, fun impossible => impossible.elim, trivial, noWrites.own⟩

theorem AfterRemove.position_assertion
    {ptr : Word}
    {next : AfterRemove}
    (noWrites : shared.WritesNone thread)
    (grip : Grip thread shared isCauser (ptr :: next.held)
      (ptr :: next.kept)) :
    Assertion thread shared ⟨isCauser, next.position isCauser ptr⟩ := by
  cases next with
  | free next => exact ⟨grip, fun impossible => impossible.elim, trivial, noWrites.own⟩
  | malloc sz => exact customMalloc_assertion noWrites grip sz

theorem removeWatchpoint_assertion
    {ptr : Word}
    {next : AfterRemove}
    (noWrites : shared.WritesNone thread)
    (grip : Grip thread shared isCauser (ptr :: next.held) next.kept) :
    Assertion thread shared
      ⟨isCauser, removeWatchpoint isCauser ptr next⟩ := by
  cases isCauser with
  | true => exact ⟨grip, fun _ => rfl, fun slot _ => List.mem_finRange slot,
      noWrites.own⟩
  | false =>
      exact AfterRemove.position_assertion noWrites (grip.imp (.refl _) (by simp))

theorem AfterInstall.position_assertion
    {ptr : Word}
    {next : AfterInstall}
    (noWrites : shared.WritesNone thread)
    (grip : Grip thread shared isCauser (ptr :: next.held) next.held)
    (sz : Word) :
    Assertion thread shared ⟨isCauser, next.position ptr sz⟩ := by
  cases next with
  | handOut => exact ⟨grip, fun impossible => impossible.elim, trivial, noWrites.own⟩
  | compare old => exact ⟨grip, fun impossible => impossible.elim, trivial, noWrites.own⟩

theorem installWatchpoint_assertion
    {ptr sz : Word}
    {next : AfterInstall}
    (noWrites : shared.WritesNone thread)
    (grip : Grip thread shared isCauser (ptr :: next.held)
      (ptr :: next.held))
    (sized : shared.HoldsSized thread ptr sz) :
    Assertion thread shared
      ⟨isCauser, installWatchpoint isCauser ptr sz next⟩ := by
  cases isCauser with
  | true => exact ⟨grip, fun _ => rfl, sized, noWrites.own⟩
  | false =>
      exact AfterInstall.position_assertion noWrites (grip.imp (.refl _) (by simp)) sz

theorem AfterFree.position_assertion
    {next : AfterFree}
    (noWrites : shared.WritesNone thread)
    (grip : Grip thread shared isCauser next.held next.kept) :
    Assertion thread shared ⟨isCauser, next.position⟩ := by
  cases next with
  | done => exact ⟨grip, fun impossible => impossible.elim, trivial, noWrites.own⟩
  | handOut buf => exact ⟨grip, fun impossible => impossible.elim, trivial, noWrites.own⟩
  | keep ptr sz => exact ⟨grip, fun impossible => impossible.elim, trivial, noWrites.own⟩

theorem nextSlot_assertion
    {request : Request}
    {next : AfterInstall}
    (noWrites : shared.WritesNone thread)
    (grip : Grip thread shared true (request.objectstart :: next.held)
      (request.objectstart :: next.held))
    (knows : shared.AsksFor thread request)
    (left : Nat) (sidx : SlotPosition) :
    Assertion thread shared ⟨true, nextSlot request left sidx next⟩ := by
  have stops : Assertion thread shared ⟨true, failed request next⟩ := by
    unfold failed
    split_ifs
    · exact AfterInstall.position_assertion noWrites
        (grip.imp (.refl _) fun _ => List.subset_cons_self _ _) _
    · exact ⟨grip, fun _ => rfl, knows, noWrites.own⟩
  match left with
  | 0 => exact stops
  | 1 => exact stops
  | left + 2 => exact ⟨grip, fun _ => rfl, knows, noWrites.own⟩

end Positions

/-! ## What the changes of the objects keep -/

section Objects

variable {thread : Nat} {shared : Shared} {ptr : Word}

/-- Objects are told apart by their starts. -/
theorem Fact.eq_of_start
    (fact : Fact shared)
    {first second : HeapObject}
    (firstMember : first ∈ shared.objects)
    (secondMember : second ∈ shared.objects)
    (same : first.start = second.start) :
    first = second :=
  List.inj_on_of_nodup_map fact.nodup firstMember secondMember same

section Adjust

variable {change : HeapObject → HeapObject}

theorem Shared.mem_adjust (shared : Shared) (object : HeapObject) :
    object ∈ (shared.adjust ptr change).objects ↔
      object ∈ shared.objects ∧ object.start ≠ ptr ∨
        ∃ former ∈ shared.objects, former.start = ptr ∧
          object = change former := by
  simp only [adjust, List.mem_map]
  constructor
  · rintro ⟨former, member, rfl⟩
    split_ifs with same
    · exact Or.inr ⟨former, member, same, rfl⟩
    · exact Or.inl ⟨member, same⟩
  · rintro (⟨member, different⟩ | ⟨former, member, same, rfl⟩)
    · exact ⟨object, member, if_neg different⟩
    · exact ⟨former, member, if_pos same⟩

/-- Starts do not change. -/
theorem Shared.map_start_adjust
    (shared : Shared)
    (keeps : ∀ object, (change object).start = object.start) :
    (shared.adjust ptr change).objects.map HeapObject.start =
      shared.objects.map HeapObject.start := by
  simp only [adjust, List.map_map]
  apply List.map_congr_left
  intro object member
  dsimp only [Function.comp_apply]
  split_ifs
  · exact keeps object
  · rfl

/-- A thread can rely on a change of objects that are not its own. -/
theorem Rely.of_objects
    {other : Nat}
    {objects : List HeapObject}
    (same : ∀ object : HeapObject, object.caller = some other →
      (object ∈ objects ↔ object ∈ shared.objects)) :
    Rely other shared { shared with objects := objects } where
  objects := same
  watches := fun _ _ _ watches => watches
  leftover := fun _ _ _ leftover =>
    ⟨leftover.settled, leftover.objectstart, leftover.unwatched⟩
  unfinished := fun _ _ _ => Iff.rfl
  locked := fun _ _ _ _ => ⟨rfl, rfl⟩

/-- Others can rely on a change of an object that is not theirs. -/
theorem Rely.adjust
    {other : Nat}
    (former : ∀ object ∈ shared.objects, object.start = ptr →
      object.caller ≠ some other)
    (later : ∀ object ∈ shared.objects, object.start = ptr →
      (change object).caller ≠ some other) :
    Rely other shared (shared.adjust ptr change) := by
  refine Rely.of_objects fun object isCaller =>
    (Shared.mem_adjust shared object).trans ?_
  constructor
  · rintro (⟨member, -⟩ | ⟨before, member, same, rfl⟩)
    · exact member
    · exact absurd isCaller (later before member same)
  · intro member
    exact Or.inl ⟨member, fun same => former object member same isCaller⟩

/-- A change of an object that leaves its tail where a slot watches it. -/
theorem Fact.adjust
    (fact : Fact shared)
    (keeps : ∀ object, (change object).start = object.start)
    (tail : ∀ object ∈ shared.objects, object.start = ptr →
      shared.manager.Unwatched ptr ∨ (change object).size = object.size) :
    Fact (shared.adjust ptr change) where
  nodup := by
    rw [Shared.map_start_adjust shared keeps]
    exact fact.nodup
  watched := by
    intro slot used
    obtain ⟨object, member, starts, addr⟩ := fact.watched slot used
    by_cases same : object.start = ptr
    · rcases tail object member same with unwatched | sameSize
      · exact absurd ⟨used, starts.symm.trans same⟩ (unwatched slot)
      · refine ⟨change object, (Shared.mem_adjust shared _).mpr
          (Or.inr ⟨object, member, same, rfl⟩), ?_, ?_⟩
        · exact (keeps object).trans starts
        · rw [keeps, sameSize]
          exact addr
    · exact ⟨object, (Shared.mem_adjust shared _).mpr
        (Or.inl ⟨member, same⟩), starts, addr⟩
  distinct := fact.distinct
  coverage := fact.coverage

end Adjust

/-- What a thread holds after an object has been given to it or taken from
it. -/
theorem holds_assign
    (caller : Option Nat) (other : Word) :
    (shared.assign ptr caller).Holds thread other ↔
      shared.Holds thread other ∧ other ≠ ptr ∨
        caller = some thread ∧ other = ptr ∧
          ∃ object ∈ shared.objects, object.start = ptr := by
  unfold Shared.Holds Shared.assign
  constructor
  · rintro ⟨object, member, starts, isCaller⟩
    rcases (Shared.mem_adjust shared object).mp member with
      ⟨before, different⟩ | ⟨former, before, same, rfl⟩
    · exact Or.inl ⟨⟨object, before, starts, isCaller⟩, starts ▸ different⟩
    · exact Or.inr ⟨isCaller, starts.symm.trans same, former, before, same⟩
  · rintro (⟨⟨object, before, starts, isCaller⟩, different⟩ |
      ⟨isCaller, rfl, object, before, same⟩)
    · exact ⟨object, (Shared.mem_adjust shared object).mpr
        (Or.inl ⟨before, starts ▸ different⟩), starts, isCaller⟩
    · exact ⟨{ object with caller := caller },
        (Shared.mem_adjust shared _).mpr
          (Or.inr ⟨object, before, same, rfl⟩), same, isCaller⟩

/-- A new size does not change who holds what. -/
theorem holds_updateHeader (sz other : Word) :
    (shared.updateHeader ptr sz).Holds thread other ↔
      shared.Holds thread other := by
  unfold Shared.Holds Shared.updateHeader
  constructor
  · rintro ⟨object, member, starts, isCaller⟩
    rcases (Shared.mem_adjust shared object).mp member with
      ⟨before, -⟩ | ⟨former, before, -, rfl⟩
    · exact ⟨object, before, starts, isCaller⟩
    · exact ⟨former, before, starts, isCaller⟩
  · rintro ⟨object, before, starts, isCaller⟩
    by_cases same : object.start = ptr
    · exact ⟨{ object with size := sz }, (Shared.mem_adjust shared _).mpr
        (Or.inr ⟨object, before, same, rfl⟩), starts, isCaller⟩
    · exact ⟨object, (Shared.mem_adjust shared object).mpr
        (Or.inl ⟨before, same⟩), starts, isCaller⟩

theorem holdsSized_updateHeader
    (holds : shared.Holds thread ptr)
    (sz : Word) :
    (shared.updateHeader ptr sz).HoldsSized thread ptr sz := by
  obtain ⟨object, member, starts, isCaller⟩ := holds
  exact ⟨{ object with size := sz }, (Shared.mem_adjust shared _).mpr
    (Or.inr ⟨object, member, starts, rfl⟩), starts, rfl, isCaller⟩

/-- Freeing an object that no slot watches. -/
theorem Fact.free
    (fact : Fact shared)
    (unwatched : shared.manager.Unwatched ptr) :
    Fact (shared.free ptr) where
  nodup := (List.filter_sublist.map HeapObject.start).nodup fact.nodup
  watched := by
    intro slot used
    obtain ⟨object, member, starts, addr⟩ := fact.watched slot used
    refine ⟨object, List.mem_filter.mpr ⟨member, ?_⟩, starts, addr⟩
    rw [decide_eq_true_eq]
    exact fun same => unwatched slot ⟨used, starts.symm.trans same⟩
  distinct := fact.distinct
  coverage := fact.coverage

theorem Rely.free
    (fact : Fact shared)
    (holds : shared.Holds thread ptr)
    {other : Nat}
    (different : other ≠ thread) :
    Rely other shared (shared.free ptr) := by
  refine Rely.of_objects fun object isCaller => ?_
  obtain ⟨own, ownMember, ownStarts, ownCaller⟩ := holds
  simp only [List.mem_filter, decide_eq_true_eq, and_iff_left_iff_imp]
  intro member same
  rw [fact.eq_of_start member ownMember (same.trans ownStarts.symm),
    ownCaller, Option.some.injEq] at isCaller
  exact different isCaller.symm

theorem holds_free (other : Word) :
    (shared.free ptr).Holds thread other ↔
      shared.Holds thread other ∧ other ≠ ptr := by
  unfold Shared.Holds Shared.free
  simp only [List.mem_filter, decide_eq_true_eq]
  constructor
  · rintro ⟨object, ⟨member, different⟩, rfl, isCaller⟩
    exact ⟨⟨object, member, rfl, isCaller⟩, different⟩
  · rintro ⟨⟨object, member, rfl, isCaller⟩, different⟩
    exact ⟨object, ⟨member, different⟩, rfl, isCaller⟩

/-- A new object is watched by no slot. -/
theorem Fact.unwatched_of_fresh
    (fact : Fact shared)
    (fresh : ∀ object ∈ shared.objects, object.start ≠ ptr) :
    shared.manager.Unwatched ptr := by
  rintro slot ⟨used, starts⟩
  obtain ⟨object, member, same, -⟩ := fact.watched slot used
  exact fresh object member (same.trans starts)

theorem Fact.allocate
    (fact : Fact shared)
    (fresh : ∀ object ∈ shared.objects, object.start ≠ ptr)
    (sz : Word) (thread : Nat) :
    Fact (shared.allocate ptr sz thread) where
  nodup := by
    rw [Shared.allocate, List.map_append, List.map_singleton,
      List.nodup_append]
    refine ⟨fact.nodup, List.nodup_singleton _, ?_⟩
    intro start member other isOther
    obtain ⟨object, before, rfl⟩ := List.mem_map.mp member
    rw [List.mem_singleton.mp isOther]
    exact fresh object before
  watched := by
    intro slot used
    obtain ⟨object, member, known⟩ := fact.watched slot used
    exact ⟨object, List.mem_append_left _ member, known⟩
  distinct := fact.distinct
  coverage := fact.coverage

theorem Rely.allocate
    {other : Nat}
    (different : other ≠ thread)
    (sz : Word) :
    Rely other shared (shared.allocate ptr sz thread) := by
  refine Rely.of_objects fun object isCaller => ?_
  rw [List.mem_append, List.mem_singleton]
  refine ⟨fun member => member.resolve_right ?_, Or.inl⟩
  rintro rfl
  rw [Option.some.injEq] at isCaller
  exact different isCaller.symm

theorem holds_allocate (sz other : Word) :
    (shared.allocate ptr sz thread).Holds thread other ↔
      shared.Holds thread other ∨ other = ptr := by
  simp [Shared.Holds, Shared.allocate, or_and_right, exists_or, eq_comm]

theorem holdsSized_allocate (shared : Shared) (sz : Word) :
    (shared.allocate ptr sz thread).HoldsSized thread ptr sz :=
  ⟨_, List.mem_append_right _ List.mem_cons_self, rfl, rfl, rfl⟩

end Objects

/-! ## What the changes of the slots keep -/

/-- The slots that are used afterwards were used before, for the same
objects. -/
def KeepsWatches (before after : Manager) : Prop :=
  ∀ slot, (after.wp slot).isUsed = true →
    (before.wp slot).isUsed = true ∧
      (after.wp slot).objectstart = (before.wp slot).objectstart ∧
      (after.wp slot).addr = (before.wp slot).addr

/-- The slots are used for the same objects as before. -/
def SameWatches (before after : Manager) : Prop :=
  ∀ slot, (after.wp slot).isUsed = (before.wp slot).isUsed ∧
    (after.wp slot).objectstart = (before.wp slot).objectstart ∧
    (after.wp slot).addr = (before.wp slot).addr

section Slots

variable {environment : Environment}
variable {thread : Nat} {shared : Shared} {manager : Manager}

theorem KeepsWatches.watches
    (keeps : KeepsWatches shared.manager manager)
    {slot : SlotPosition}
    {ptr : Word}
    (watches : manager.Watches slot ptr) :
    shared.manager.Watches slot ptr := by
  obtain ⟨used, start, -⟩ := keeps slot watches.1
  exact ⟨used, start.symm.trans watches.2⟩

theorem KeepsWatches.fact
    (keeps : KeepsWatches shared.manager manager)
    (fact : Fact shared)
    (coverage : manager.CoverageInvariant) :
    Fact { shared with manager := manager } where
  nodup := fact.nodup
  watched := by
    intro slot usedAfter
    obtain ⟨used, start, addr⟩ := keeps slot usedAfter
    obtain ⟨object, member, starts, tail⟩ := fact.watched slot used
    exact ⟨object, member, starts.trans start.symm, addr.trans tail⟩
  distinct := fun first second ptr firstWatches secondWatches =>
    fact.distinct first second ptr (keeps.watches firstWatches)
      (keeps.watches secondWatches)
  coverage := coverage

/-- Slots that lose their watchpoints leave a thread its grip. -/
theorem KeepsWatches.grip
    (keeps : KeepsWatches shared.manager manager)
    {isCauser : Bool}
    {held unwatched : List Word}
    (grip : Grip thread shared isCauser held unwatched) :
    Grip thread { shared with manager := manager } isCauser held
      unwatched where
  holds := grip.holds
  nodup := grip.nodup
  unwatched := fun on ptr member slot watches =>
    grip.unwatched on ptr member slot (keeps.watches watches)

theorem SameWatches.of_wp (same : manager.wp = shared.manager.wp) :
    SameWatches shared.manager manager := by
  intro slot
  rw [same]
  exact ⟨rfl, rfl, rfl⟩

theorem SameWatches.keeps
    (same : SameWatches shared.manager manager) :
    KeepsWatches shared.manager manager := by
  intro slot usedAfter
  obtain ⟨used, start, addr⟩ := same slot
  exact ⟨used.symm.trans usedAfter, start, addr⟩

theorem SameWatches.watches_iff
    (same : SameWatches shared.manager manager)
    {slot : SlotPosition}
    {ptr : Word} :
    manager.Watches slot ptr ↔ shared.manager.Watches slot ptr := by
  obtain ⟨used, start, -⟩ := same slot
  rw [Manager.Watches, Manager.Watches, used, start]

/-- A thread relies on slots that look the same. -/
theorem SameWatches.rely
    (same : SameWatches shared.manager manager) (other : Nat) :
    Rely other shared { shared with manager := manager } where
  objects := fun _ _ => Iff.rfl
  watches := fun _ _ _ watches => same.watches_iff.mp watches
  leftover := fun slot _ _ leftover =>
    ⟨leftover.settled, (same slot).2.1.symm.trans leftover.objectstart,
      fun watches => leftover.unwatched (same.watches_iff.mpr watches)⟩
  unfinished := fun _ _ _ => Iff.rfl
  locked := fun slot _ _ _ => ⟨(same slot).1, (same slot).2.1⟩

theorem Shared.Holds.eq_of_fact
    {other : Nat}
    {ptr : Word}
    (holds : shared.Holds thread ptr)
    (fact : Fact shared)
    (otherHolds : shared.Holds other ptr) :
    other = thread := by
  obtain ⟨own, ownMember, ownStarts, ownCaller⟩ := holds
  obtain ⟨object, member, starts, isCaller⟩ := otherHolds
  rw [fact.eq_of_start member ownMember (starts.trans ownStarts.symm),
    ownCaller, Option.some.injEq] at isCaller
  exact isCaller.symm

/-- The section of `disableWatchpointByAddr` changes the flag of its slot at
most, and no start. -/
theorem disableSection_wp
    (environment : Environment) (manager : Manager) (ptr : Word)
    (found slot : SlotPosition) :
    ((Manager.disableSection environment ptr found manager).wp
        slot).objectstart = (manager.wp slot).objectstart ∧
      (slot ≠ found →
        (Manager.disableSection environment ptr found manager).wp slot =
          manager.wp slot) := by
  obtain kept | ⟨-, ret, fd, kernel, -, result⟩ :=
    Manager.disableSection_cases environment ptr found manager
  · rw [kept]
    exact ⟨rfl, fun _ => rfl⟩
  · rw [result]
    dsimp only
    by_cases same : slot = found
    · subst same
      rw [Function.update_self]
      exact ⟨rfl, fun elsewhere => absurd rfl elsewhere⟩
    · rw [Function.update_of_ne same]
      exact ⟨rfl, fun _ => rfl⟩

/-- It does not concern the objects of other threads, or the slots that they
write. -/
theorem Rely.disableSection
    {ptr : Word}
    {found : SlotPosition}
    {other : Nat}
    (fact : Fact shared)
    (keeps : KeepsWatches shared.manager
      (Manager.disableSection environment ptr found shared.manager))
    (holds : shared.Holds thread ptr)
    (free : shared.unfinished found = none)
    (different : other ≠ thread) :
    Rely other shared
      { shared with
        manager := Manager.disableSection environment ptr found
          shared.manager } where
  objects := fun _ _ => Iff.rfl
  watches := fun _ _ _ watches => keeps.watches watches
  leftover := by
    intro slot start otherHolds leftover
    have isStart := (disableSection_wp environment shared.manager ptr found
      slot).1.symm.trans leftover.objectstart
    refine ⟨leftover.settled, isStart, fun watches => ?_⟩
    have notOwn : start ≠ ptr := by
      rintro rfl
      exact different (holds.eq_of_fact fact otherHolds)
    apply leftover.unwatched
    rw [Manager.Watches, Manager.disableSection_wp_of_ne environment found
      (isStart ▸ notOwn)]
    exact watches
  unfinished := fun _ _ _ => Iff.rfl
  locked := by
    intro slot unfinished isUnfinished _
    have elsewhere : slot ≠ found := by
      rintro rfl
      rw [free] at isUnfinished
      cases isUnfinished
    dsimp only
    rw [(disableSection_wp environment shared.manager ptr found slot).2
      elsewhere]
    exact ⟨rfl, rfl⟩

/-- Nor do the writes to a slot in progress. -/
theorem Rely.setUnfinished
    {sidx : SlotPosition}
    {unfinished : Unfinished}
    {later : Option Unfinished}
    {other : Nat}
    (fact : Fact shared)
    (isUnfinished : shared.unfinished sidx = some unfinished)
    (own : unfinished.writer = thread)
    (stays : ∀ next, later = some next → next.writer = thread)
    (holds : shared.Holds thread (shared.manager.wp sidx).objectstart)
    (different : other ≠ thread) :
    Rely other shared (shared.setUnfinished sidx later) where
  objects := fun _ _ => Iff.rfl
  watches := fun _ _ _ watches => watches
  leftover := by
    rintro slot start otherHolds ⟨settled, isStart, unwatched⟩
    by_cases same : slot = sidx
    · subst same
      have isStart : (shared.manager.wp slot).objectstart = start := isStart
      rw [← isStart] at otherHolds
      exact absurd (holds.eq_of_fact fact otherHolds) different
    · refine ⟨?_, isStart, unwatched⟩
      rwa [Shared.setUnfinished_of_ne _ _ _ same] at settled
  unfinished := by
    intro slot candidate isOther
    by_cases same : slot = sidx
    · subst same
      rw [Shared.setUnfinished_self, isUnfinished]
      constructor
      · intro isLater
        exact absurd (isOther.symm.trans (stays candidate isLater)) different
      · intro isCandidate
        rw [← Option.some.inj isCandidate] at isOther
        exact absurd (isOther.symm.trans own) different
    · rw [Shared.setUnfinished_of_ne _ _ _ same]
  locked := fun _ _ _ _ => ⟨rfl, rfl⟩

/-- The fact does not depend on the writes in progress. -/
theorem Fact.setUnfinished
    (fact : Fact shared)
    (sidx : SlotPosition) (later : Option Unfinished) :
    Fact (shared.setUnfinished sidx later) :=
  ⟨fact.nodup, fact.watched, fact.distinct, fact.coverage⟩

theorem Grip.setUnfinished
    {isCauser : Bool}
    {held unwatched : List Word}
    (grip : Grip thread shared isCauser held unwatched)
    (sidx : SlotPosition) (later : Option Unfinished) :
    Grip thread (shared.setUnfinished sidx later) isCauser held unwatched :=
  ⟨grip.holds, grip.nodup, grip.unwatched⟩

/-- The section of `disableWatchpointByAddr` on the only slot that may watch
an object: afterwards none does. -/
theorem disableSection_unwatched
    (coverage : shared.manager.CoverageInvariant)
    {ptr : Word}
    {found : SlotPosition}
    (only : ∀ slot, shared.manager.Watches slot ptr → slot = found) :
    KeepsWatches shared.manager
        (Manager.disableSection environment ptr found shared.manager) ∧
      (Manager.disableSection environment ptr found
        shared.manager).Unwatched ptr := by
  unfold Manager.disableSection
  split
  · next matched =>
      obtain ⟨object, unused, wp_eq⟩ :=
        Manager.disableWatchpointObject_releases coverage.wellFormed
          coverage.covered matched.1
      have keeps : KeepsWatches shared.manager
          (Manager.disableWatchpointObject environment found
            shared.manager).2 := by
        intro slot used
        by_cases same : slot = found
        · rw [wp_eq, same, Function.update_self, unused] at used
          exact absurd used (by simp)
        · rw [wp_eq, Function.update_of_ne same] at used ⊢
          exact ⟨used, rfl, rfl⟩
      refine ⟨keeps, fun slot watches => ?_⟩
      have isFound := only slot (keeps.watches watches)
      have used := watches.1
      rw [wp_eq, isFound, Function.update_self, unused] at used
      exact absurd used (by simp)
  · next unmatched =>
      refine ⟨SameWatches.keeps (.of_wp rfl), fun slot watches => ?_⟩
      have isFound := only slot watches
      subst isFound
      exact unmatched ⟨watches.1, watches.2.symm⟩

/-- A slot that watches an object after a section has returned true watched it
before, or it is the section's slot and watches the section's object. -/
theorem watches_of_setSection
    {watchedRatio : Word → Int}
    {request : Request}
    {sidx slot : SlotPosition}
    {ptr : Word}
    (returned : (Manager.setSection environment watchedRatio request sidx
      manager).1 = true)
    (watches : (Manager.setSection environment watchedRatio request sidx
      manager).2.Watches slot ptr) :
    slot = sidx ∧ ptr = request.objectstart ∨
      slot ≠ sidx ∧ manager.Watches slot ptr := by
  by_cases same : slot = sidx
  · subst same
    have occupies := Manager.setSection_occupies returned
    exact Or.inl ⟨rfl, watches.2.symm.trans occupies.objectstart⟩
  · refine Or.inr ⟨same, ?_⟩
    unfold Manager.Watches at watches
    rwa [Manager.setSection_wp_of_ne watchedRatio request same] at watches

/-- A watchpoint that is installed for an object without one, at its tail. -/
theorem Fact.setSection
    (fact : Fact shared)
    {watchedRatio : Word → Int}
    {request : Request}
    {sidx : SlotPosition}
    (returned : (Manager.setSection environment watchedRatio request sidx
      shared.manager).1 = true)
    (coverage : (Manager.setSection environment watchedRatio request sidx
      shared.manager).2.CoverageInvariant)
    (unwatched : shared.manager.Unwatched request.objectstart)
    (knows : shared.AsksFor thread request) :
    Fact { shared with
      manager := (Manager.setSection environment watchedRatio request sidx
        shared.manager).2 } where
  nodup := fact.nodup
  watched := by
    intro slot used
    by_cases same : slot = sidx
    · subst same
      have occupies := Manager.setSection_occupies returned
      obtain ⟨addr, object, member, starts, sized, -⟩ := knows
      refine ⟨object, member, starts.trans occupies.objectstart.symm, ?_⟩
      rw [occupies.addr, addr, starts, sized]
    · dsimp only at used ⊢
      rw [Manager.setSection_wp_of_ne watchedRatio request same] at used ⊢
      exact fact.watched slot used
  distinct := by
    intro first second ptr firstWatches secondWatches
    rcases watches_of_setSection returned firstWatches with
      ⟨rfl, rfl⟩ | ⟨-, firstBefore⟩
    · rcases watches_of_setSection returned secondWatches with
        ⟨rfl, -⟩ | ⟨-, secondBefore⟩
      · rfl
      · exact absurd secondBefore (unwatched second)
    · rcases watches_of_setSection returned secondWatches with
        ⟨rfl, rfl⟩ | ⟨-, secondBefore⟩
      · exact absurd firstBefore (unwatched first)
      · exact fact.distinct first second ptr firstBefore secondBefore
  coverage := coverage

/-- The other threads' objects are not watched by an installation, and it
changes no slot that they write. -/
theorem Rely.setSection
    (fact : Fact shared)
    {watchedRatio : Word → Int}
    {request : Request}
    {sidx : SlotPosition}
    (returned : (Manager.setSection environment watchedRatio request sidx
      shared.manager).1 = true)
    (holds : shared.Holds thread request.objectstart)
    (free : shared.unfinished sidx = none)
    {unfinished : Unfinished}
    (own : unfinished.writer = thread)
    {other : Nat}
    (different : other ≠ thread) :
    Rely other shared
      (Shared.setUnfinished { shared with
        manager := (Manager.setSection environment watchedRatio request sidx
          shared.manager).2 } sidx (some unfinished)) where
  objects := fun _ _ => Iff.rfl
  watches := by
    intro slot ptr otherHolds watches
    rcases watches_of_setSection returned watches with
      ⟨rfl, rfl⟩ | ⟨-, before⟩
    · exact absurd (holds.eq_of_fact fact otherHolds) different
    · exact before
  leftover := by
    rintro slot ptr - ⟨settled, isStart, unwatched⟩
    by_cases same : slot = sidx
    · subst same
      simp at settled
    · rw [Shared.setUnfinished_of_ne _ _ _ same] at settled
      simp only [Shared.setUnfinished_manager, Manager.Watches,
        Manager.setSection_wp_of_ne watchedRatio request same]
        at isStart unwatched
      exact ⟨settled, isStart, unwatched⟩
  unfinished := by
    intro slot candidate isOther
    by_cases same : slot = sidx
    · subst same
      simp only [Shared.setUnfinished_self, free,
        Option.some.injEq, reduceCtorEq, iff_false]
      rintro rfl
      exact different (isOther.symm.trans own)
    · rw [Shared.setUnfinished_of_ne _ _ _ same]
  locked := by
    intro slot candidate isUnfinished _
    have elsewhere : slot ≠ sidx := by
      rintro rfl
      rw [free] at isUnfinished
      cases isUnfinished
    simp only [Shared.setUnfinished_manager,
      Manager.setSection_wp_of_ne watchedRatio request elsewhere, and_self]

/-- The thread's other objects are not watched by its installation. -/
theorem Grip.setSection
    {isCauser : Bool}
    {watchedRatio : Word → Int}
    {request : Request}
    {sidx : SlotPosition}
    {held : List Word}
    (grip : Grip thread shared isCauser (request.objectstart :: held)
      (request.objectstart :: held))
    (returned : (Manager.setSection environment watchedRatio request sidx
      shared.manager).1 = true) :
    Grip thread
      { shared with
        manager := (Manager.setSection environment watchedRatio request sidx
          shared.manager).2 }
      isCauser (request.objectstart :: held) held where
  holds := grip.holds
  nodup := grip.nodup
  unwatched := by
    intro on ptr member slot watches
    rcases watches_of_setSection returned watches with
      ⟨rfl, rfl⟩ | ⟨-, before⟩
    · exact (List.nodup_cons.mp grip.nodup).1 member
    · exact grip.unwatched on ptr (List.mem_cons_of_mem _ member) slot before

/-- Threads come and go without a change of what the slots watch. -/
theorem sameWatches_of_threadCreate
    {tid : Nat}
    (created : Manager.threadCreate environment tid shared.manager =
      some manager) :
    SameWatches shared.manager manager := by
  obtain ⟨tindex, table, -, rfl⟩ := Manager.threadCreate_eq_some created
  intro slot
  obtain ⟨record, wp_eq, -⟩ := Manager.setWatchpointByThreadLoop_wp
    environment ((table.setThread tindex tid).threads tindex) slotPositions
    shared.manager.wp shared.manager.kernel slot
  dsimp only
  rw [wp_eq]
  exact ⟨rfl, rfl, rfl⟩

theorem sameWatches_of_threadExit
    {position : ThreadPosition}
    (exited : Manager.step environment shared.manager
      (.threadExit position) = some manager) :
    SameWatches shared.manager manager := by
  obtain ⟨-, rfl⟩ := Manager.step_threadExit_eq_some exited
  exact .of_wp rfl

end Slots

end SlotHeap

end Causer
