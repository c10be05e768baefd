import Causer.HashMapLinearization
import Mathlib.Algebra.BigOperators.Group.Finset.Basic

/-!
# Additions go on

A thread that adds to a hash map spins at the lock of its bucket and, once it
has that, at the lock of the pool.  The owner of the pool waits for nobody, so in
every state in which a thread is in a call some thread in a call does not wait.
A call that has its bucket returns after a number of its own accesses that
depends only on how many entries the bucket counts.  No search follows the head
of a list as if it were an entry.
-/

namespace Causer

namespace HashMap

open FiniteMap (Binding)

variable {Thread Key Value : Type}

/-! ## Waiting, and what a call has left -/

/-- The next access is an exchange that finds the lock taken. -/
def AddStage.waits (shared : AddShared Thread Key Value)
    (frame : AddFrame Key Value) : AddStage Key Value → Bool
  | .locking => shared.bucketLock frame.first
  | .poolLocking => shared.entrylock
  | _ => false

/-- How many accesses a call makes at most until it returns, without those that
wait, where its bucket counts a number of entries. -/
def AddStage.accesses (length : Nat) : AddStage Key Value → Nat
  | .locking => length + 26
  | .loadFirst => length + 25
  | .loadCount _ => length + 24
  | .searching _ count => count + 23
  | .poolLocking => 22
  | .testPool => 21
  | .expanding => 20
  | .resetIndex => 19
  | .loadIndex => 18
  | .storeIndex _ => 17
  | .poolUnlocking _ => 16
  | .initialising _ stores => stores.length + 10
  | .linking _ stores => stores.length + 5
  | .storeCount _ _ => 4
  | .addTotal _ => 3
  | .resetting _ => 2
  | .unlocking _ => 1

namespace AddPosition

def waits (shared : AddShared Thread Key Value) :
    AddPosition Key Value → Bool
  | .idle => false
  | .active frame stage => stage.waits shared frame

def accesses (map : HashMap Key Value) : AddPosition Key Value → Nat
  | .idle => 0
  | .active frame stage => stage.accesses (map.count frame.first)

/-- What is left to do before the call returns, also to a thread whose bucket may
still grow. -/
def weight (map : HashMap Key Value) : AddPosition Key Value → Nat
  | .idle => 0
  | .active _ .locking => 2 ^ 32
  | .active frame stage => stage.accesses (map.count frame.first)

/-- How many entries the call may still count in its bucket. -/
def pending : AddPosition Key Value → Nat
  | .idle => 0
  | .active _ (.addTotal _) => 0
  | .active _ (.resetting _) => 0
  | .active _ (.unlocking _) => 0
  | .active _ _ => 1

/-- Who waits for a bucket comes after who waits for the pool, and that after all
others. -/
def rank : AddPosition Key Value → Nat
  | .active _ .locking => 2
  | .active _ .poolLocking => 1
  | _ => 0

variable {position : AddPosition Key Value}

/-- The owner of a bucket does not wait for one. -/
theorem busy_of_bucket
    {bucket : Nat}
    (holds : position.bucket = some bucket) :
    position ≠ .idle ∧ position.rank ≤ 1 := by
  cases position with
  | idle => cases holds
  | active frame stage =>
      refine ⟨nofun, ?_⟩
      cases stage with
      | locking => cases holds
      | poolLocking => exact le_rfl
      | _ => exact Nat.zero_le 1

/-- The owner of the pool does not wait at all. -/
theorem busy_of_holdsPool
    (holds : position.holdsPool = true) :
    position ≠ .idle ∧ position.rank = 0 := by
  cases position with
  | idle => cases holds
  | active frame stage =>
      refine ⟨nofun, ?_⟩
      cases stage with
      | locking => cases holds
      | poolLocking => cases holds
      | _ => rfl

end AddPosition

/-! ## One access -/

section Accesses

variable [DecidableEq Thread] {functions : HashFunctions Key Value}
  {base : HashMap Key Value} {thread : Thread}
  {shared after : AddShared Thread Key Value} {frame : AddFrame Key Value}
  {stage next : AddStage Key Value}
  {returned : List (MapCall Key Value × MapResult Value)}

/-- A bucket does not count more than its counter says, read as an `int`. -/
theorem intCount_le (count : Nat) :
    (BitVec.ofNat 32 count).toInt.toNat ≤ count := by
  rw [BitVec.toInt_eq_toNat_cond, BitVec.toNat_ofNat]
  split_ifs <;> omega

/-- An access that waits changes nothing. -/
theorem waiting_advanceStage
    (waits : stage.waits shared frame = true)
    (moved : advanceStage functions thread shared frame stage =
      some (after, next)) :
    after = shared ∧ next = stage := by
  cases stage with
  | locking =>
      rw [AddStage.waits] at waits
      rw [advanceStage, if_pos waits] at moved
      cases moved
      exact ⟨rfl, rfl⟩
  | poolLocking =>
      rw [AddStage.waits] at waits
      rw [advanceStage, if_pos waits] at moved
      cases moved
      exact ⟨rfl, rfl⟩
  | _ => cases waits

/-- An access that does not wait leaves fewer of them. -/
theorem accesses_advanceStage
    (moves : stage.waits shared frame = false)
    (moved : advanceStage functions thread shared frame stage =
      some (after, next)) :
    next.accesses (after.map.count frame.first) <
      stage.accesses (shared.map.count frame.first) := by
  cases stage with
  | locking =>
      rw [AddStage.waits, Bool.eq_false_iff] at moves
      rw [advanceStage, if_neg moves] at moved
      cases moved
      exact Nat.lt_succ_self _
  | loadCount entry =>
      cases moved
      have bounded := intCount_le (shared.map.count frame.first)
      simp only [AddStage.accesses]
      omega
  | searching entry count =>
      cases count with
      | zero =>
          cases moved
          exact Nat.lt_succ_self _
      | succ count =>
          cases entry with
          | head bucket => cases moved
          | entry entry =>
              rw [advanceStage] at moved
              split_ifs at moved <;>
                · cases moved
                  simp only [AddStage.accesses]
                  omega
  | poolLocking =>
      rw [AddStage.waits, Bool.eq_false_iff] at moves
      rw [advanceStage, if_neg moves] at moved
      cases moved
      exact Nat.lt_succ_self _
  | testPool =>
      cases moved
      split_ifs <;> simp [AddStage.accesses]
  | initialising entry stores =>
      cases stores <;>
        · cases moved
          exact Nat.lt_succ_self _
  | linking entry stores =>
      cases stores with
      | nil =>
          cases moved
          exact Nat.lt_succ_self _
      | cons store stores =>
          cases moved
          simp only [AddStage.accesses, List.length_cons]
          omega
  | addTotal entry =>
      cases moved
      split_ifs <;> simp [AddStage.accesses]
  | unlocking result => cases moved
  | _ =>
      cases moved
      exact Nat.lt_succ_self _

omit [DecidableEq Thread] in
@[simp] theorem count_perform
    (store : NodeStore Key Value) (map : HashMap Key Value) :
    (store.perform map).count = map.count := by
  cases store <;> rfl

/-- The count of a bucket changes where it is stored, and nowhere else. -/
theorem count_advanceStage
    (moved : advanceStage functions thread shared frame stage =
      some (after, next)) :
    after.map.count = shared.map.count ∨ ∃ entry, next = .addTotal entry := by
  cases stage with
  | locking =>
      rw [advanceStage] at moved
      split_ifs at moved <;>
        · cases moved
          exact Or.inl rfl
  | searching entry count =>
      cases count with
      | zero =>
          cases moved
          exact Or.inl rfl
      | succ count =>
          cases entry with
          | head bucket => cases moved
          | entry entry =>
              rw [advanceStage] at moved
              split_ifs at moved <;>
                · cases moved
                  exact Or.inl rfl
  | poolLocking =>
      rw [advanceStage] at moved
      split_ifs at moved <;>
        · cases moved
          exact Or.inl rfl
  | initialising entry stores =>
      cases stores with
      | nil =>
          cases moved
          exact Or.inl rfl
      | cons store stores =>
          cases moved
          exact Or.inl (count_perform store shared.map)
  | linking entry stores =>
      cases stores with
      | nil =>
          cases moved
          exact Or.inl rfl
      | cons store stores =>
          cases moved
          exact Or.inl (count_perform store shared.map)
  | storeCount entry count =>
      cases moved
      exact Or.inr ⟨entry, rfl⟩
  | unlocking result => cases moved
  | _ =>
      cases moved
      exact Or.inl rfl

/-- With the lock of its bucket, a call has at most 25 accesses more left than
the bucket counts entries. -/
theorem accesses_le_advanceStage
    (few : stage.holdsBucket = true →
      stage.accesses (shared.map.count frame.first) ≤
        shared.map.count frame.first + 25)
    (moved : advanceStage functions thread shared frame stage =
      some (after, next))
    (holds : next.holdsBucket = true) :
    next.accesses (after.map.count frame.first) ≤
      after.map.count frame.first + 25 := by
  cases waits : stage.waits shared frame with
  | true =>
      obtain ⟨rfl, rfl⟩ := waiting_advanceStage waits moved
      exact few holds
  | false =>
      have fewer := accesses_advanceStage waits moved
      rcases count_advanceStage moved with same | ⟨entry, rfl⟩
      · rw [same] at fewer ⊢
        cases stage with
        | locking => exact Nat.le_of_lt_succ fewer
        | _ => exact fewer.le.trans (few rfl)
      · exact Nat.le_add_left ..

/-- The lock of the bucket is kept until the call returns. -/
theorem holdsBucket_advanceStage
    (holds : stage.holdsBucket = true)
    (moved : advanceStage functions thread shared frame stage =
      some (after, next)) :
    next.holdsBucket = true := by
  cases stage with
  | locking => cases holds
  | searching entry count =>
      match entry, count with
      | entry, 0 =>
          cases moved
          rfl
      | .head bucket, count + 1 => cases moved
      | .entry entry, count + 1 =>
          rw [advanceStage] at moved
          split_ifs at moved <;>
            · cases moved
              rfl
  | poolLocking =>
      rw [advanceStage] at moved
      split_ifs at moved <;>
        · cases moved
          rfl
  | testPool =>
      cases moved
      split_ifs <;> rfl
  | initialising entry stores =>
      cases stores <;>
        · cases moved
          rfl
  | linking entry stores =>
      cases stores <;>
        · cases moved
          rfl
  | addTotal entry =>
      cases moved
      split_ifs <;> rfl
  | unlocking result => cases moved
  | _ =>
      cases moved
      rfl

omit [DecidableEq Thread] in
theorem weight_of_holdsBucket
    {map : HashMap Key Value}
    (holds : stage.holdsBucket = true) :
    (AddPosition.active frame stage).weight map =
      stage.accesses (map.count frame.first) := by
  cases stage with
  | locking => cases holds
  | _ => rfl

/-- An access that does not wait leaves less to do. -/
theorem weight_advanceStage
    (moves : stage.waits shared frame = false)
    (roomy : shared.map.count frame.first < 2 ^ 31)
    (moved : advanceStage functions thread shared frame stage =
      some (after, next)) :
    (AddPosition.active frame next).weight after.map <
      (AddPosition.active frame stage).weight shared.map := by
  by_cases holds : stage.holdsBucket = true
  · rw [weight_of_holdsBucket holds,
      weight_of_holdsBucket (holdsBucket_advanceStage holds moved)]
    exact accesses_advanceStage moves moved
  · cases stage with
    | locking =>
        rw [AddStage.waits, Bool.eq_false_iff] at moves
        rw [advanceStage, if_neg moves] at moved
        cases moved
        simp only [AddPosition.weight, AddStage.accesses,
          AddShared.lockBucket]
        omega
    | _ => exact absurd rfl holds

/-- A bucket is counted up at most once in a call. -/
theorem pending_advanceStage
    (detail : BucketDetail functions base frame shared.map shared.bindings
      stage)
    (moved : advanceStage functions thread shared frame stage =
      some (after, next))
    (bucket : Nat) :
    after.map.count bucket + (AddPosition.active frame next).pending ≤
      shared.map.count bucket +
        (AddPosition.active frame stage).pending := by
  cases stage with
  | locking =>
      rw [advanceStage] at moved
      split_ifs at moved <;>
        · cases moved
          exact le_rfl
  | searching entry count =>
      cases count with
      | zero =>
          cases moved
          exact le_rfl
      | succ count =>
          cases entry with
          | head bucket => cases moved
          | entry entry =>
              rw [advanceStage] at moved
              split_ifs at moved
              · cases moved
                exact Nat.le_succ _
              · cases moved
                exact le_rfl
  | poolLocking =>
      rw [advanceStage] at moved
      split_ifs at moved <;>
        · cases moved
          exact le_rfl
  | testPool =>
      cases moved
      split_ifs <;> exact le_rfl
  | initialising entry stores =>
      cases stores with
      | nil =>
          cases moved
          exact le_rfl
      | cons store stores =>
          cases moved
          rw [AddShared.setMap, count_perform]
          exact le_rfl
  | linking entry stores =>
      cases stores with
      | nil =>
          cases moved
          exact le_rfl
      | cons store stores =>
          cases moved
          rw [AddShared.setMap, count_perform]
          exact le_rfl
  | storeCount entry count =>
      cases moved
      obtain ⟨-, counted⟩ := detail.stage
      have bounded : count ≤ shared.map.count frame.first + 1 := by
        rw [counted]
        exact Nat.mod_le _ _
      simp only [AddShared.setMap, AddPosition.pending]
      by_cases own : bucket = frame.first
      · subst own
        rw [Function.update_self]
        omega
      · rw [Function.update_of_ne own]
        omega
  | addTotal entry =>
      cases moved
      split_ifs <;> exact le_rfl
  | unlocking result => cases moved
  | _ =>
      cases moved
      exact le_rfl

/-- The access of a call is defined: no search comes to the head of the list with
entries left to count. -/
theorem exists_advanceStage
    (thread : Thread)
    (detail : BucketDetail functions base frame shared.map shared.bindings
      stage)
    (running : ∀ result, stage ≠ .unlocking result) :
    ∃ moved, advanceStage functions thread shared frame stage = some moved := by
  cases stage with
  | locking =>
      rw [advanceStage]
      split_ifs <;> exact ⟨_, rfl⟩
  | searching entry count =>
      cases count with
      | zero => exact ⟨_, rfl⟩
      | succ count =>
          cases entry with
          | head bucket =>
              obtain ⟨_, _, left, _, _, counted, here⟩ := detail.stage
              cases left with
              | nil => cases counted
              | cons binding left => cases here
          | entry entry =>
              rw [advanceStage]
              split_ifs <;> exact ⟨_, rfl⟩
  | poolLocking =>
      rw [advanceStage]
      split_ifs <;> exact ⟨_, rfl⟩
  | initialising entry stores => cases stores <;> exact ⟨_, rfl⟩
  | linking entry stores => cases stores <;> exact ⟨_, rfl⟩
  | unlocking result => exact absurd rfl (running result)
  | _ => exact ⟨_, rfl⟩

/-- So a thread takes it. -/
theorem exists_proceed
    (thread : Thread)
    (detail : BucketDetail functions base frame shared.map shared.bindings
      stage) :
    ∃ moved, advanceAdd functions thread shared
      ⟨.active frame stage, returned⟩ .proceed = some moved := by
  by_cases ends : ∃ result, stage = .unlocking result
  · obtain ⟨result, rfl⟩ := ends
    exact ⟨_, rfl⟩
  · obtain ⟨moved, advanced⟩ := exists_advanceStage thread detail
      fun result same => ends ⟨result, same⟩
    refine ⟨(moved.1, ⟨.active frame moved.2, returned⟩), ?_⟩
    have mapped := congrArg (Option.map fun moved =>
      (moved.1, (⟨.active frame moved.2, returned⟩ : AddLocal Key Value)))
      advanced
    cases stage with
    | unlocking result => exact absurd ⟨result, rfl⟩ ends
    | _ => exact mapped

end Accesses

/-! ## Some call goes on -/

section Progress

variable [DecidableEq Thread] {functions : HashFunctions Key Value}
  {base : HashMap Key Value} {state final : AddState Thread Key Value}
  {thread : Thread}

/-- The thread is in a call. -/
def Busy (state : AddState Thread Key Value) (thread : Thread) : Prop :=
  (state.locals thread).position ≠ .idle

/-- Its next access is not that of a thread that waits. -/
def Moves (state : AddState Thread Key Value) (thread : Thread) : Prop :=
  (state.locals thread).position.waits state.shared = false

/-- A thread that waits does so for one that is in a call as well, and comes
before it. -/
theorem AddInvariant.moves_or_waits
    (invariant : AddInvariant functions base state)
    (busy : Busy state thread) :
    Moves state thread ∨ ∃ other, Busy state other ∧
      (state.locals other).position.rank <
        (state.locals thread).position.rank := by
  unfold Busy Moves at *
  generalize (state.locals thread).position = position at busy ⊢
  cases position with
  | idle => exact absurd rfl busy
  | active frame stage =>
      cases stage with
      | locking =>
          cases taken : state.shared.bucketLock frame.first with
          | false => exact Or.inl taken
          | true =>
              rw [invariant.fact.bucketLock] at taken
              obtain ⟨other, owner⟩ := Option.isSome_iff_exists.mp taken
              obtain ⟨busy, low⟩ := AddPosition.busy_of_bucket
                (((invariant.assertion other).buckets _).mp owner)
              exact Or.inr ⟨other, busy, Nat.lt_succ_of_le low⟩
      | poolLocking =>
          cases taken : state.shared.entrylock with
          | false => exact Or.inl taken
          | true =>
              rw [invariant.fact.entrylock] at taken
              obtain ⟨other, owner⟩ := Option.isSome_iff_exists.mp taken
              obtain ⟨busy, low⟩ := AddPosition.busy_of_holdsPool
                ((invariant.assertion other).pool.mp owner)
              exact Or.inr ⟨other, busy, low ▸ Nat.zero_lt_one⟩
      | _ => exact Or.inl rfl

/-- A step of a thread is defined if it is one of its own. -/
theorem addStep_isSome
    {choice : AddChoice Key Value}
    (defined : ∃ moved, advanceAdd functions thread state.shared
      (state.locals thread) choice = some moved) :
    (addStep functions state (thread, choice)).isSome = true := by
  obtain ⟨moved, advanced⟩ := defined
  change (Option.map _ _).isSome = true
  rw [Option.isSome_map, advanced]
  rfl

/-- A thread can go on with its call. -/
theorem AddInvariant.proceed_isSome
    (invariant : AddInvariant functions base state)
    (busy : Busy state thread) :
    (addStep functions state (thread, .proceed)).isSome = true := by
  apply addStep_isSome
  have known := (invariant.assertion thread).detail
  unfold Busy at busy
  generalize state.locals thread = caller at known busy ⊢
  obtain ⟨position, returned⟩ := caller
  cases position with
  | idle => exact absurd rfl busy
  | active frame stage => exact exists_proceed thread known

/-- A thread that is in no call can begin any. -/
theorem AddInvariant.call_isSome
    (invariant : AddInvariant functions base state)
    (positive : 0 < base.buckets) (bound : base.buckets < 2 ^ 64)
    (idle : ¬Busy state thread) (call : AddCall Key Value) :
    (addStep functions state (thread, .call call)).isSome = true := by
  apply addStep_isSome
  have inside := hashIndex_lt_buckets functions positive bound call.key
    call.keylen
  have index : hashIndex functions state.shared.map call.key call.keylen =
      hashIndex functions base call.key call.keylen := by
    unfold hashIndex
    rw [invariant.fact.buckets]
  unfold Busy at idle
  rw [not_not] at idle
  rw [advanceAdd, idle]
  dsimp only
  rw [getHashEntry, index, invariant.fact.buckets, if_pos inside]
  exact ⟨_, rfl⟩

/-! ## A call with its bucket returns -/

/-- The step is an access of the thread that does not wait. -/
def ownAccess (thread : Thread) (state : AddState Thread Key Value)
    (label : Thread × AddChoice Key Value) : Bool :=
  decide (label.1 = thread) &&
    !(state.locals thread).position.waits state.shared

/-- The thread has the lock of the bucket for a call, after others that have
returned. -/
def Inside (thread : Thread) (frame : AddFrame Key Value)
    (returned : List (MapCall Key Value × MapResult Value))
    (state : AddState Thread Key Value) : Prop :=
  ∃ stage : AddStage Key Value, stage.holdsBucket = true ∧
    state.locals thread = ⟨.active frame stage, returned⟩

/-- It has returned from the call. -/
def ReturnedFrom (thread : Thread) (frame : AddFrame Key Value)
    (returned : List (MapCall Key Value × MapResult Value))
    (state : AddState Thread Key Value) : Prop :=
  ∃ result, returned ++ [(frame.call.toCall, result)] <+:
    (state.locals thread).returned

omit [DecidableEq Thread] in
/-- Until then an access is left. -/
theorem Inside.accesses_pos
    {frame : AddFrame Key Value}
    {returned : List (MapCall Key Value × MapResult Value)}
    (inside : Inside thread frame returned state) :
    0 < (state.locals thread).position.accesses state.shared.map := by
  obtain ⟨stage, -, located⟩ := inside
  rw [located, AddPosition.accesses]
  cases stage <;> exact Nat.succ_pos _

/-- What has been returned stays so. -/
theorem returned_addStep
    {label : Thread × AddChoice Key Value} {next : AddState Thread Key Value}
    (thread : Thread)
    (stepped : addStep functions state label = some next) :
    (state.locals thread).returned <+: (next.locals thread).returned := by
  obtain ⟨shared, caller, moved, rfl⟩ := Interleaving.step_eq_some stepped
  by_cases own : thread = label.1
  · subst own
    dsimp only
    rw [Function.update_self]
    rcases advanceAdd_cases moved with ⟨call, -, -, rfl⟩ |
      ⟨frame, result, -, -, rfl⟩ | ⟨frame, stage, next, -, -, rfl⟩
    · exact List.prefix_rfl
    · exact List.prefix_append ..
    · exact List.prefix_rfl
  · dsimp only
    rw [Function.update_of_ne own]

/-- The others do not change the count of a bucket that a thread owns. -/
theorem AddInvariant.count_same
    {bucket : Nat}
    {label : Thread × AddChoice Key Value} {next : AddState Thread Key Value}
    (lawful : Lawful functions)
    (positive : 0 < base.buckets) (bound : base.buckets < 2 ^ 64)
    (invariant : AddInvariant functions base state)
    (roomy : CountsFit state label)
    (stepped : addStep functions state label = some next)
    (other : thread ≠ label.1)
    (owns : (state.locals thread).position.bucket = some bucket) :
    next.shared.map.count bucket = state.shared.map.count bucket := by
  obtain ⟨shared, caller, moved, rfl⟩ := Interleaving.step_eq_some stepped
  have owned : state.shared.bucketOwner bucket = some thread :=
    ((invariant.assertion thread).buckets bucket).mpr owns
  obtain ⟨-, -, rely⟩ := sound_advance lawful positive bound
    (fun bucket smaller =>
      roomy bucket (by rw [invariant.fact.buckets]; exact smaller))
    invariant.fact (invariant.assertion label.1) moved
  exact ((rely thread other).same bucket owned).count

omit [DecidableEq Thread] in
theorem Inside.bucket
    {frame : AddFrame Key Value}
    {returned : List (MapCall Key Value × MapResult Value)}
    (inside : Inside thread frame returned state) :
    (state.locals thread).position.bucket = some frame.first := by
  obtain ⟨stage, holds, located⟩ := inside
  rw [located]
  exact if_pos holds

/-- A thread keeps its local state while others act. -/
theorem locals_addStep
    {label : Thread × AddChoice Key Value} {next : AddState Thread Key Value}
    (stepped : addStep functions state label = some next)
    (other : thread ≠ label.1) :
    next.locals thread = state.locals thread := by
  obtain ⟨shared, caller, -, rfl⟩ := Interleaving.step_eq_some stepped
  exact Function.update_of_ne other ..

/-- Whoever has the lock of a bucket has few accesses left. -/
def FewLeft (state : AddState Thread Key Value) : Prop :=
  ∀ thread frame returned, Inside thread frame returned state →
    (state.locals thread).position.accesses state.shared.map ≤
      state.shared.map.count frame.first + 25

/-- Every step leaves it so. -/
theorem AddInvariant.fewLeft
    {label : Thread × AddChoice Key Value} {next : AddState Thread Key Value}
    (lawful : Lawful functions)
    (positive : 0 < base.buckets) (bound : base.buckets < 2 ^ 64)
    (invariant : AddInvariant functions base state)
    (few : FewLeft state)
    (roomy : CountsFit state label)
    (stepped : addStep functions state label = some next) :
    FewLeft next := by
  intro thread frame returned inside
  by_cases own : thread = label.1
  · obtain ⟨stage, holds, located⟩ := inside
    obtain ⟨shared, caller, moved, rfl⟩ := Interleaving.step_eq_some stepped
    subst own
    dsimp only at *
    rw [Function.update_self] at located ⊢
    subst located
    rcases advanceAdd_cases moved with ⟨call, -, -, result⟩ |
      ⟨_, _, -, -, result⟩ | ⟨_, before, following, here, advanced, result⟩
    · cases result
      cases holds
    · cases result
    · cases result
      refine accesses_le_advanceStage (fun held => ?_) advanced holds
      have bounded := few label.1 frame _ ⟨before, held, by rw [← here]⟩
      rwa [here] at bounded
  · have kept := locals_addStep stepped own
    have before : Inside thread frame returned state := by
      obtain ⟨stage, holds, located⟩ := inside
      exact ⟨stage, holds, kept.symm.trans located⟩
    have same := invariant.count_same lawful positive bound roomy stepped own
      before.bucket
    have bounded := few thread frame returned before
    obtain ⟨stage, -, located⟩ := before
    rw [located] at bounded
    rw [kept, located, AddPosition.accesses, same]
    exact bounded

/-- A thread with its bucket pays for its accesses until it returns, and the
others leave it alone. -/
theorem AddInvariant.pays
    {frame : AddFrame Key Value}
    {returned : List (MapCall Key Value × MapResult Value)}
    {label : Thread × AddChoice Key Value} {next : AddState Thread Key Value}
    (lawful : Lawful functions)
    (positive : 0 < base.buckets) (bound : base.buckets < 2 ^ 64)
    (invariant : AddInvariant functions base state)
    (inside : Inside thread frame returned state)
    (roomy : CountsFit state label)
    (stepped : addStep functions state label = some next) :
    ReturnedFrom thread frame returned next ∨
      Inside thread frame returned next ∧
        (if ownAccess thread state label then 1 else 0) +
            (next.locals thread).position.accesses next.shared.map ≤
          (state.locals thread).position.accesses state.shared.map := by
  by_cases own : label.1 = thread
  · obtain ⟨stage, holds, located⟩ := inside
    obtain ⟨shared, caller, moved, rfl⟩ := Interleaving.step_eq_some stepped
    subst own
    dsimp only at *
    rw [located] at moved
    rcases advanceAdd_cases moved with ⟨call, idle, -, -⟩ |
      ⟨_, result, ends, -, rfl⟩ | ⟨_, _, following, here, advanced, rfl⟩
    · cases idle
    · cases ends
      refine Or.inl ⟨result, ?_⟩
      dsimp only
      rw [Function.update_self]
    · cases here
      refine Or.inr ⟨⟨following, holdsBucket_advanceStage holds advanced,
        Function.update_self ..⟩, ?_⟩
      dsimp only
      rw [Function.update_self, located, ownAccess, located]
      simp only [decide_true, Bool.true_and, AddPosition.waits,
        AddPosition.accesses]
      cases waits : stage.waits state.shared frame with
      | true =>
          obtain ⟨rfl, rfl⟩ := waiting_advanceStage waits advanced
          exact (Nat.zero_add _).le
      | false =>
          rw [Nat.add_comm]
          exact accesses_advanceStage waits advanced
  · have kept := locals_addStep stepped (Ne.symm own)
    have same := invariant.count_same lawful positive bound roomy stepped
      (Ne.symm own) inside.bucket
    obtain ⟨stage, holds, located⟩ := inside
    refine Or.inr ⟨⟨stage, holds, kept.trans located⟩, ?_⟩
    rw [kept, located, ownAccess, decide_eq_false own, Bool.false_and,
      if_neg Bool.false_ne_true, Nat.zero_add, AddPosition.accesses,
      AddPosition.accesses, same]

end Progress

/-! ## All calls together -/

section Ending

variable [DecidableEq Thread] {functions : HashFunctions Key Value}
  {base : HashMap Key Value} {state : AddState Thread Key Value}
  {threads : Finset Thread} {thread : Thread}

/-- In a sum only the share of one thread changes. -/
theorem sum_of_others_same
    (before after : Thread → Nat)
    (member : thread ∈ threads)
    (others : ∀ other ≠ thread, after other = before other) :
    ∑ other ∈ threads, after other + before thread =
      ∑ other ∈ threads, before other + after thread := by
  have rest : ∑ other ∈ threads.erase thread, after other =
      ∑ other ∈ threads.erase thread, before other :=
    Finset.sum_congr rfl fun other within =>
      others other (Finset.ne_of_mem_erase within)
  rw [← Finset.add_sum_erase threads after member,
    ← Finset.add_sum_erase threads before member, rest]
  omega

/-- The buckets have room for what the calls may still add. -/
def RoomFor (threads : Finset Thread) (state : AddState Thread Key Value) :
    Prop :=
  ∀ bucket < state.shared.map.buckets,
    state.shared.map.count bucket +
      ∑ thread ∈ threads, (state.locals thread).position.pending < 2 ^ 31

/-- Some of the threads are in calls, and the calls can all return. -/
structure Endable (functions : HashFunctions Key Value)
    (base : HashMap Key Value) (threads : Finset Thread)
    (state : AddState Thread Key Value) : Prop where
  invariant : AddInvariant functions base state
  room : RoomFor threads state
  among : ∀ thread, Busy state thread → thread ∈ threads

/-- What is left to do for all threads. -/
def weightOf (threads : Finset Thread) (state : AddState Thread Key Value) :
    Nat :=
  ∑ thread ∈ threads,
    (state.locals thread).position.weight state.shared.map

omit [DecidableEq Thread] in
theorem RoomFor.countsFit
    (room : RoomFor threads state)
    (label : Thread × AddChoice Key Value) :
    CountsFit state label :=
  fun bucket inside => lt_of_le_of_lt (Nat.le_add_right _ _) (room bucket inside)

/-- What the other threads have left to do stays the same. -/
theorem AddInvariant.weight_same
    {label : Thread × AddChoice Key Value} {next : AddState Thread Key Value}
    (lawful : Lawful functions)
    (positive : 0 < base.buckets) (bound : base.buckets < 2 ^ 64)
    (invariant : AddInvariant functions base state)
    (roomy : CountsFit state label)
    (stepped : addStep functions state label = some next)
    (other : thread ≠ label.1) :
    (next.locals thread).position.weight next.shared.map =
      (state.locals thread).position.weight state.shared.map := by
  rw [locals_addStep stepped other]
  cases located : (state.locals thread).position with
  | idle => rfl
  | active frame stage =>
      by_cases holds : stage.holdsBucket = true
      · have owns : (state.locals thread).position.bucket =
            some frame.first := by
          rw [located]
          exact if_pos holds
        rw [weight_of_holdsBucket holds, weight_of_holdsBucket holds,
          invariant.count_same lawful positive bound roomy stepped other owns]
      · cases stage with
        | locking => rfl
        | _ => exact absurd rfl holds

/-- A thread that goes on with its call has less left to do, and counts its
bucket up at most once. -/
theorem AddInvariant.goes_on
    {next : AddState Thread Key Value}
    (positive : 0 < base.buckets) (bound : base.buckets < 2 ^ 64)
    (invariant : AddInvariant functions base state)
    (roomy : CountsFit state (thread, .proceed))
    (busy : Busy state thread) (moves : Moves state thread)
    (stepped : addStep functions state (thread, .proceed) = some next) :
    (next.locals thread).position.weight next.shared.map <
        (state.locals thread).position.weight state.shared.map ∧
      ∀ bucket,
        next.shared.map.count bucket +
            (next.locals thread).position.pending ≤
          state.shared.map.count bucket +
            (state.locals thread).position.pending := by
  obtain ⟨shared, caller, moved, rfl⟩ := Interleaving.step_eq_some stepped
  have known := (invariant.assertion thread).detail
  unfold Busy at busy
  unfold Moves at moves
  dsimp only at *
  rw [Function.update_self]
  rcases advanceAdd_cases moved with ⟨call, idle, -, -⟩ |
    ⟨frame, result, located, rfl, rfl⟩ |
    ⟨frame, stage, following, located, advanced, rfl⟩
  · exact absurd idle busy
  · rw [located]
    exact ⟨Nat.zero_lt_one, fun bucket => le_rfl⟩
  · rw [located] at known moves ⊢
    have detail : BucketDetail functions base frame state.shared.map
        state.shared.bindings stage :=
      known
    have inside : frame.first < state.shared.map.buckets := by
      rw [invariant.fact.buckets, detail.first]
      exact hashIndex_lt_buckets functions positive bound _ _
    exact ⟨weight_advanceStage moves (roomy _ inside) advanced,
      pending_advanceStage detail advanced⟩

/-- As long as a call has not returned, one of them goes on. -/
theorem Endable.advances
    (lawful : Lawful functions)
    (positive : 0 < base.buckets) (bound : base.buckets < 2 ^ 64)
    (endable : Endable functions base threads state)
    (running : ¬∀ thread, ¬Busy state thread) :
    ∃ label next, label.2 = .proceed ∧
      addStep functions state label = some next ∧
      Endable functions base threads next ∧
      weightOf threads next < weightOf threads state := by
  obtain ⟨someone, busy⟩ := not_forall_not.mp running
  obtain ⟨thread, busy, moves⟩ := Interleaving.exists_movable
    (fun thread => (state.locals thread).position.rank)
    (fun thread busy => endable.invariant.moves_or_waits busy) busy
  obtain ⟨next, stepped⟩ := Option.isSome_iff_exists.mp
    (endable.invariant.proceed_isSome busy)
  have roomy := endable.room.countsFit (thread, .proceed)
  have nextInvariant := addInvariant_step lawful positive bound
    endable.invariant roomy stepped
  obtain ⟨less, counted⟩ :=
    endable.invariant.goes_on positive bound roomy busy moves stepped
  have member := endable.among thread busy
  refine ⟨(thread, .proceed), next, rfl, stepped, ⟨nextInvariant, ?_, ?_⟩, ?_⟩
  · intro bucket inside
    rw [nextInvariant.fact.buckets, ← endable.invariant.fact.buckets] at inside
    have room := endable.room bucket inside
    have share := sum_of_others_same
      (fun thread => (state.locals thread).position.pending)
      (fun thread => (next.locals thread).position.pending)
      member fun other different => by
        rw [locals_addStep stepped different]
    have counted := counted bucket
    omega
  · intro other otherBusy
    by_cases own : other = thread
    · exact own ▸ member
    · apply endable.among other
      unfold Busy at otherBusy ⊢
      rwa [locals_addStep stepped own] at otherBusy
  · have share := sum_of_others_same
      (fun thread => (state.locals thread).position.weight state.shared.map)
      (fun thread => (next.locals thread).position.weight next.shared.map)
      member fun other different =>
        endable.invariant.weight_same lawful positive bound roomy stepped
          different
    unfold weightOf
    omega

end Ending

/-! ## All runs -/

section Runs

variable [DecidableEq Thread] {functions : HashFunctions Key Value}

/-- The invariant holds wherever a run leads. -/
theorem addInvariant_of_run
    (lawful : Lawful functions)
    {base : HashMap Key Value} {state final : AddState Thread Key Value}
    {labels : List (Thread × AddChoice Key Value)}
    (positive : 0 < base.buckets) (bound : base.buckets < 2 ^ 64)
    (invariant : AddInvariant functions base state)
    (roomy : Machine.Along (addStep functions) CountsFit state labels)
    (executed : addRun functions state labels = some final) :
    AddInvariant functions base final :=
  Machine.run_invariant
    (fun _ _ _ invariant roomy stepped =>
      addInvariant_step lawful positive bound invariant roomy stepped)
    invariant roomy executed

/-- Additions do not deadlock, and do not crash: a thread that is in no call can
begin one, one that is in a call can go on with it, and if there is one then one
of them makes an access that does not wait. -/
theorem some_addition_goes_on
    (lawful : Lawful functions) (memory : HashMap Key Value)
    {exponent : Nat} (fits : exponent < 64)
    {labels : List (Thread × AddChoice Key Value)}
    {final : AddState Thread Key Value}
    (roomy : Machine.Along (addStep functions) CountsFit
      (addStart memory (2 ^ exponent)) labels)
    (executed : addRun functions (addStart memory (2 ^ exponent)) labels =
      some final) :
    (∀ thread, ¬Busy final thread → ∀ call,
        (addStep functions final (thread, .call call)).isSome = true) ∧
      (∀ thread, Busy final thread →
        (addStep functions final (thread, .proceed)).isSome = true) ∧
      ((∃ thread, Busy final thread) →
        ∃ thread, Busy final thread ∧ Moves final thread) := by
  have positive : 0 < 2 ^ exponent := Nat.two_pow_pos exponent
  have bound : 2 ^ exponent < 2 ^ 64 :=
    Nat.pow_lt_pow_right (by decide) fits
  have invariant := addInvariant_of_run lawful positive bound
    (addInvariant_start functions memory positive bound) roomy executed
  refine ⟨fun thread idle => invariant.call_isSome positive bound idle,
    fun thread busy => invariant.proceed_isSome busy, fun ⟨thread, busy⟩ => ?_⟩
  exact Interleaving.exists_movable
    (fun thread => (final.locals thread).position.rank)
    (fun thread busy => invariant.moves_or_waits busy) busy

/-- A call with the lock of its bucket has at most 25 accesses more left than
the bucket counts entries. -/
theorem accesses_le_of_run
    (lawful : Lawful functions) (memory : HashMap Key Value)
    {exponent : Nat} (fits : exponent < 64)
    {labels : List (Thread × AddChoice Key Value)}
    {final : AddState Thread Key Value}
    (roomy : Machine.Along (addStep functions) CountsFit
      (addStart memory (2 ^ exponent)) labels)
    (executed : addRun functions (addStart memory (2 ^ exponent)) labels =
      some final)
    {thread : Thread} {frame : AddFrame Key Value}
    {returned : List (MapCall Key Value × MapResult Value)}
    (inside : Inside thread frame returned final) :
    (final.locals thread).position.accesses final.shared.map ≤
      final.shared.map.count frame.first + 25 := by
  have positive : 0 < 2 ^ exponent := Nat.two_pow_pos exponent
  have bound : 2 ^ exponent < 2 ^ 64 :=
    Nat.pow_lt_pow_right (by decide) fits
  have preserved : ∀ (state : AddState Thread Key Value) label next,
      AddInvariant functions (initializeMap memory (2 ^ exponent)) state ∧
        FewLeft state →
      CountsFit state label → addStep functions state label = some next →
      AddInvariant functions (initializeMap memory (2 ^ exponent)) next ∧
        FewLeft next :=
    fun _ _ _ ⟨invariant, few⟩ roomy stepped =>
      ⟨addInvariant_step lawful positive bound invariant roomy stepped,
        invariant.fewLeft lawful positive bound few roomy stepped⟩
  have initially : FewLeft
      (addStart memory (2 ^ exponent) : AddState Thread Key Value) := by
    rintro thread frame returned ⟨stage, -, located⟩
    cases located
  exact (Machine.run_invariant preserved
    ⟨addInvariant_start functions memory positive bound, initially⟩ roomy
    executed).2 thread frame returned inside

/-- Once a call has the lock of its bucket, it has returned as soon as its thread
has made as many accesses that do not wait as the call had left, whatever the
others have done in between. -/
theorem addition_returns
    (lawful : Lawful functions) (memory : HashMap Key Value)
    {exponent : Nat} (fits : exponent < 64)
    {before after : List (Thread × AddChoice Key Value)}
    {middle final : AddState Thread Key Value}
    (roomy : Machine.Along (addStep functions) CountsFit
      (addStart memory (2 ^ exponent)) (before ++ after))
    (first : addRun functions (addStart memory (2 ^ exponent)) before =
      some middle)
    (second : addRun functions middle after = some final)
    {thread : Thread} {frame : AddFrame Key Value}
    {returned : List (MapCall Key Value × MapResult Value)}
    (inside : Inside thread frame returned middle)
    (many : (middle.locals thread).position.accesses middle.shared.map ≤
      Machine.countAlong (addStep functions) (ownAccess thread) middle
        after) :
    ReturnedFrom thread frame returned final := by
  have positive : 0 < 2 ^ exponent := Nat.two_pow_pos exponent
  have bound : 2 ^ exponent < 2 ^ 64 :=
    Nat.pow_lt_pow_right (by decide) fits
  obtain ⟨alongFirst, alongSecond⟩ := Machine.along_append roomy first
  have invariant := addInvariant_of_run lawful positive bound
    (addInvariant_start functions memory positive bound) alongFirst first
  have kept : ∀ (state : AddState Thread Key Value) label next,
      ReturnedFrom thread frame returned state →
      addStep functions state label = some next →
      ReturnedFrom thread frame returned next :=
    fun _ _ _ ⟨result, earlier⟩ stepped =>
      ⟨result, earlier.trans (returned_addStep thread stepped)⟩
  have pays : ∀ (state : AddState Thread Key Value) label next,
      AddInvariant functions (initializeMap memory (2 ^ exponent)) state ∧
        Inside thread frame returned state →
      CountsFit state label → addStep functions state label = some next →
      ReturnedFrom thread frame returned next ∨
        (AddInvariant functions (initializeMap memory (2 ^ exponent)) next ∧
          Inside thread frame returned next) ∧
        (if ownAccess thread state label then 1 else 0) +
            (next.locals thread).position.accesses next.shared.map ≤
          (state.locals thread).position.accesses state.shared.map :=
    fun _ _ _ ⟨invariant, inside⟩ roomy stepped =>
      (invariant.pays lawful positive bound inside roomy stepped).imp_right
        fun ⟨still, paid⟩ =>
          ⟨⟨addInvariant_step lawful positive bound invariant roomy stepped,
            still⟩, paid⟩
  refine (Machine.goal_or_countAlong_le kept pays ⟨invariant, inside⟩
    alongSecond second).resolve_right fun ⟨⟨_, still⟩, paid⟩ => ?_
  have left := still.accesses_pos
  omega

/-- Whatever state a run leads to, the calls in it can all return, one access
after the other, if the buckets have room for what they add.  Then the memory
represents the finite map on which all calls have returned what they did. -/
theorem additions_can_end
    (lawful : Lawful functions) (memory : HashMap Key Value)
    {exponent : Nat} (fits : exponent < 64)
    {before : List (Thread × AddChoice Key Value)}
    {middle : AddState Thread Key Value}
    (roomy : Machine.Along (addStep functions) CountsFit
      (addStart memory (2 ^ exponent)) before)
    (executed : addRun functions (addStart memory (2 ^ exponent)) before =
      some middle)
    {threads : Finset Thread}
    (among : ∀ thread, Busy middle thread → thread ∈ threads)
    (room : RoomFor threads middle) :
    ∃ after final history,
      (∀ label ∈ after, label.2 = .proceed) ∧
        addRun functions middle after = some final ∧
        (∀ thread, (final.locals thread).position = .idle) ∧
        Explains functions (2 ^ exponent) final history := by
  have positive : 0 < 2 ^ exponent := Nat.two_pow_pos exponent
  have bound : 2 ^ exponent < 2 ^ 64 :=
    Nat.pow_lt_pow_right (by decide) fits
  have invariant := addInvariant_of_run lawful positive bound
    (addInvariant_start functions memory positive bound) roomy executed
  have endable : Endable functions (initializeMap memory (2 ^ exponent))
      threads middle :=
    ⟨invariant, room, among⟩
  obtain ⟨after, final, proceeds, ended, still, idle⟩ :=
    Machine.exists_run_to_goal (weightOf threads)
      (fun state endable running =>
        endable.advances lawful positive bound running)
      endable
  exact ⟨after, final, final.shared.history, proceeds, ended,
    fun thread => not_not.mp (idle thread),
    still.invariant.explains fits rfl⟩

end Runs

/-- While the second thread waits for a bucket and the third one for the pool,
the first one goes on. -/
theorem some_addition_goes_on_crossing :
    ∃ final ∈ addRun sampleFunctions (addStart sampleMemory (2 ^ 1))
        crossingCalls,
      (final.locals 2).position.waits final.shared = true ∧
        (final.locals 3).position.waits final.shared = true ∧
        ∃ thread, Busy final thread ∧ Moves final thread := by
  have roomy : Machine.Along (addStep sampleFunctions) CountsFit
      (addStart sampleMemory (2 ^ 1)) crossingCalls := by
    unfold CountsFit
    decide +kernel
  have reached : ∃ final ∈ addRun sampleFunctions
        (addStart sampleMemory (2 ^ 1)) crossingCalls,
      (final.locals 2).position.waits final.shared = true ∧
        (final.locals 3).position.waits final.shared = true := by
    decide +kernel
  obtain ⟨final, executed, second, third⟩ := reached
  have busy : Busy final 2 := by
    intro idle
    rw [idle] at second
    cases second
  obtain ⟨-, -, progress⟩ := some_addition_goes_on lawful_sampleFunctions
    sampleMemory (by decide) roomy executed
  exact ⟨final, executed, second, third, progress ⟨2, busy⟩⟩

/-- The three threads in the midst of their calls can return from them. -/
theorem additions_can_end_crossing :
    ∃ middle ∈ addRun sampleFunctions (addStart sampleMemory (2 ^ 1))
        crossingCalls,
      ∃ after final history,
        (∀ label ∈ after, label.2 = .proceed) ∧
          addRun sampleFunctions middle after = some final ∧
          (∀ thread, (final.locals thread).position = .idle) ∧
          Explains sampleFunctions (2 ^ 1) final history := by
  have roomy : Machine.Along (addStep sampleFunctions) CountsFit
      (addStart sampleMemory (2 ^ 1)) crossingCalls := by
    unfold CountsFit
    decide +kernel
  have reached : ∃ middle ∈ addRun sampleFunctions
        (addStart sampleMemory (2 ^ 1)) crossingCalls,
      RoomFor {1, 2, 3} middle := by
    unfold RoomFor
    decide +kernel
  obtain ⟨middle, executed, room⟩ := reached
  have among : ∀ thread, Busy middle thread →
      thread ∈ ({1, 2, 3} : Finset Nat) := by
    intro thread busy
    by_contra outside
    simp only [Finset.mem_insert, Finset.mem_singleton, not_or] at outside
    apply busy
    rw [Interleaving.run_locals _ executed]
    · rfl
    · have own : ∀ label ∈ crossingCalls,
          label.1 = 1 ∨ label.1 = 2 ∨ label.1 = 3 := by
        decide
      intro label member same
      have := own label member
      omega
  exact ⟨middle, executed, additions_can_end lawful_sampleFunctions
    sampleMemory (by decide) roomy executed among room⟩

/-- The first thread has its bucket and 17 accesses left. -/
theorem addition_returns_crossing :
    ∃ middle ∈ addRun sampleFunctions (addStart sampleMemory (2 ^ 1))
        crossingCalls,
      ∃ final ∈ addRun sampleFunctions middle finishingCalls,
        ReturnedFrom 1 ⟨addCall 0, 0⟩ [] final := by
  have roomy : Machine.Along (addStep sampleFunctions) CountsFit
      (addStart sampleMemory (2 ^ 1)) (crossingCalls ++ finishingCalls) := by
    unfold CountsFit
    decide +kernel
  have reached : ∃ middle ∈ addRun sampleFunctions
        (addStart sampleMemory (2 ^ 1)) crossingCalls,
      (addRun sampleFunctions middle finishingCalls).isSome = true ∧
        (middle.locals 1).position.accesses middle.shared.map ≤
          Machine.countAlong (addStep sampleFunctions) (ownAccess 1) middle
            finishingCalls := by
    decide +kernel
  have located : (addRun sampleFunctions (addStart sampleMemory (2 ^ 1))
      crossingCalls).map (fun middle => middle.locals 1) =
        some ⟨.active ⟨addCall 0, 0⟩ (.storeIndex ⟨0, 0⟩), []⟩ := by
    rfl
  obtain ⟨middle, first, defined, many⟩ := reached
  obtain ⟨final, second⟩ := Option.isSome_iff_exists.mp defined
  rw [first, Option.map_some, Option.some.injEq] at located
  exact ⟨middle, first, final, second, addition_returns lawful_sampleFunctions
    sampleMemory (by decide) roomy first second ⟨_, rfl, located⟩ many⟩

end HashMap

end Causer
