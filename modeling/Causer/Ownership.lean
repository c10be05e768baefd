import Causer.Kernel
import Mathlib.Logic.Function.Basic

/-!
# Ownership of descriptors

The tool closes a descriptor through a record that it keeps somewhere.  The
records are kept apart from the kernel's table, and nothing but the tool's own
bookkeeping ties the two together.  This module states the tie: at every place
with a duty, a record whose number is large enough is the descriptor of the
very event that its installation opened, and no two such records agree.  Each
of the kernel operations comes with the rule by which it keeps that tie.
-/

namespace Causer

/-- The descriptor was open and still belonged to the event whose installation
returned the record. -/
def Closing.Legitimate (closing : Closing) : Prop :=
  ∃ event, closing.record.origin = some event ∧
    closing.file = some (.perf event)

/-- What is demanded of the record at a place. -/
structure Duty where
  /-- Numbers from here on must be open events. -/
  threshold : Int
  /-- The address those events must watch, if one is fixed. -/
  address : Option Word

variable {Key : Type*}

/-- The record at a place is one that its duty speaks about. -/
def Demanded (duty : Key → Option Duty) (records : Key → Descriptor)
    (key : Key) : Prop :=
  ∃ required, duty key = some required ∧
    required.threshold ≤ (records key).number

/-- Every duty is met, no two demanded records share a number, and every
closing so far was legitimate. -/
structure Owned (duty : Key → Option Duty) (records : Key → Descriptor)
    (kernel : Kernel) : Prop where
  legitimate : ∀ closing ∈ kernel.closings, closing.Legitimate
  opened : ∀ key required,
    duty key = some required →
    required.threshold ≤ (records key).number →
    ∃ event,
      (records key).origin = some event ∧
        kernel.files.lookup (records key).number.toNat =
          some (.perf event) ∧
        ∀ address, required.address = some address →
          event.address = address
  distinct : ∀ first second,
    Demanded duty records first →
    Demanded duty records second →
    (records first).number.toNat = (records second).number.toNat →
    first = second

namespace Owned

variable {duty weaker : Key → Option Duty} {records : Key → Descriptor}
  {kernel after : Kernel}

/-- A demanded record is an open event. -/
theorem lookup_of_demanded
    (owned : Owned duty records kernel)
    {key : Key}
    (demanded : Demanded duty records key) :
    ∃ event, kernel.files.lookup (records key).number.toNat =
      some (.perf event) := by
  obtain ⟨required, isDuty, above⟩ := demanded
  obtain ⟨event, -, isOpen, -⟩ := owned.opened key required isDuty above
  exact ⟨event, isOpen⟩

/-- Duties may be weakened: fewer places, higher thresholds, fewer
addresses. -/
theorem weaken
    (owned : Owned duty records kernel)
    (weakened : ∀ key required,
      weaker key = some required →
      required.threshold ≤ (records key).number →
      ∃ original, duty key = some original ∧
        original.threshold ≤ (records key).number ∧
        ∀ address, required.address = some address →
          original.address = some address) :
    Owned weaker records kernel := by
  have demanded : ∀ key, Demanded weaker records key →
      Demanded duty records key := by
    rintro key ⟨required, isDuty, above⟩
    obtain ⟨original, isOriginal, aboveOriginal, -⟩ :=
      weakened key required isDuty above
    exact ⟨original, isOriginal, aboveOriginal⟩
  refine ⟨owned.legitimate, ?_, ?_⟩
  · intro key required isDuty above
    obtain ⟨original, isOriginal, aboveOriginal, addresses⟩ :=
      weakened key required isDuty above
    obtain ⟨event, origin, isOpen, watches⟩ :=
      owned.opened key original isOriginal aboveOriginal
    exact ⟨event, origin, isOpen, fun address isAddress =>
      watches address (addresses address isAddress)⟩
  · intro first second demandsFirst demandsSecond same
    exact owned.distinct first second (demanded first demandsFirst)
      (demanded second demandsSecond) same

/-- Only the open files and the closings matter. -/
theorem congr_kernel
    (owned : Owned duty records kernel)
    (files : after.files = kernel.files)
    (closings : after.closings = kernel.closings) :
    Owned duty records after := by
  refine ⟨?_, ?_, owned.distinct⟩
  · rw [closings]
    exact owned.legitimate
  · rw [files]
    exact owned.opened

/-- A descriptor number that no demanded record has may change its file. -/
theorem congr_lookup
    (owned : Owned duty records kernel)
    (closings : after.closings = kernel.closings)
    (number : Nat)
    (elsewhere : ∀ other ≠ number,
      after.files.lookup other = kernel.files.lookup other)
    (notEvent : ∀ event, kernel.files.lookup number ≠ some (.perf event)) :
    Owned duty records after := by
  refine ⟨?_, ?_, owned.distinct⟩
  · rw [closings]
    exact owned.legitimate
  · intro key required isDuty above
    obtain ⟨event, origin, isOpen, watches⟩ :=
      owned.opened key required isDuty above
    refine ⟨event, origin, ?_, watches⟩
    rw [elsewhere _ fun same => notEvent event (same ▸ isOpen)]
    exact isOpen

variable [DecidableEq Key]

/-- The duty at one place can be dropped. -/
theorem drop
    (owned : Owned duty records kernel)
    (key : Key) :
    Owned (Function.update duty key none) records kernel := by
  apply owned.weaken
  intro other required isDuty above
  by_cases same : other = key
  · subst same
    exact absurd isDuty (by simp)
  · rw [Function.update_of_ne same] at isDuty
    exact ⟨required, isDuty, above, fun _ isAddress => isAddress⟩

/-- Disabling a record with a duty is legitimate, and the place has no duty
afterwards. -/
theorem disable
    (environment : Environment)
    (owned : Owned duty records kernel)
    {key : Key}
    {required : Duty}
    (isDuty : duty key = some required)
    (standard : required.threshold ≤ 3) :
    Owned (Function.update duty key none) records
      (disableWatchpoint environment (records key) kernel).2 := by
  rcases Int.lt_or_le (records key).number 3 with below | above
  · rw [disableWatchpoint_of_lt environment below]
    exact owned.drop key
  · obtain ⟨result, disabled, -⟩ :=
      disableWatchpoint_of_ge environment above kernel
    have reaches : required.threshold ≤ (records key).number := by omega
    obtain ⟨event, origin, isOpen, -⟩ :=
      owned.opened key required isDuty reaches
    have dropped := owned.drop key
    rw [disabled]
    refine ⟨?_, ?_, dropped.distinct⟩
    · intro closing member
      rcases List.mem_cons.mp member with rfl | member
      · exact ⟨event, origin, isOpen⟩
      · exact owned.legitimate closing member
    · intro other otherRequired otherDuty otherAbove
      obtain ⟨otherEvent, otherOrigin, otherOpen, watches⟩ :=
        dropped.opened other otherRequired otherDuty otherAbove
      refine ⟨otherEvent, otherOrigin, ?_, watches⟩
      have different : other ≠ key := by
        rintro rfl
        exact absurd otherDuty (by simp)
      rw [Function.update_of_ne different] at otherDuty
      have numbers : (records other).number.toNat ≠
          (records key).number.toNat := fun same =>
        different (owned.distinct other key
          ⟨otherRequired, otherDuty, otherAbove⟩
          ⟨required, isDuty, reaches⟩ same)
      show (kernel.files.erase _).lookup _ = _
      rw [DescriptorTable.lookup_erase_of_ne _ numbers]
      exact otherOpen

variable {replaced : Key → Descriptor}

/-- A record below its place's threshold may be written anywhere. -/
theorem replace
    {key : Key}
    (owned : Owned (Function.update duty key none) records kernel)
    (elsewhere : ∀ other ≠ key, replaced other = records other)
    (below : ∀ required, duty key = some required →
      (replaced key).number < required.threshold) :
    Owned duty replaced kernel := by
  have demanded : ∀ other, Demanded duty replaced other →
      other ≠ key ∧
        Demanded (Function.update duty key none) records other := by
    rintro other ⟨required, isDuty, above⟩
    have different : other ≠ key := by
      rintro rfl
      exact absurd (below required isDuty) (by omega)
    refine ⟨different, required, ?_, ?_⟩
    · rwa [Function.update_of_ne different]
    · rwa [elsewhere other different] at above
  refine ⟨owned.legitimate, ?_, ?_⟩
  · intro other required isDuty above
    have different := (demanded other ⟨required, isDuty, above⟩).1
    rw [elsewhere other different] at above ⊢
    apply owned.opened other required _ above
    rwa [Function.update_of_ne different]
  · intro first second demandsFirst demandsSecond same
    obtain ⟨differentFirst, originalFirst⟩ := demanded first demandsFirst
    obtain ⟨differentSecond, originalSecond⟩ := demanded second demandsSecond
    rw [elsewhere first differentFirst,
      elsewhere second differentSecond] at same
    exact owned.distinct first second originalFirst originalSecond same

/-- An installation may be recorded wherever its address is acceptable: its
descriptor was free, so it differs from every demanded one. -/
theorem watch
    {environment : Environment}
    {key : Key}
    (owned : Owned (Function.update duty key none) records kernel)
    {addr : Word}
    {tid : Nat}
    {watched : Bool}
    (installs : watchThread environment addr tid kernel =
      (watched, replaced key, after))
    (elsewhere : ∀ other ≠ key, replaced other = records other)
    (acceptable : ∀ required, duty key = some required →
      0 ≤ required.threshold ∧
        ∀ address, required.address = some address → addr = address) :
    Owned duty replaced after := by
  obtain ⟨watched', record, after', result, -, -, outcome⟩ :=
    watchThread_cases environment addr tid kernel
  rw [installs, Prod.mk.injEq, Prod.mk.injEq] at result
  obtain ⟨rfl, isRecord, rfl⟩ := result
  have belowOfMinusOne : replaced key = .minusOne →
      ∀ required, duty key = some required →
        (replaced key).number < required.threshold := by
    intro isMinusOne required isDuty
    have nonnegative := (acceptable required isDuty).1
    rw [isMinusOne, Descriptor.minusOne_number]
    omega
  rcases outcome with ⟨-, isMinusOne, rfl⟩ | ⟨opening, outcome⟩
  · rw [isMinusOne] at isRecord
    have ticked : Owned (Function.update duty key none) records
        kernel.tick := owned.congr_kernel rfl rfl
    exact ticked.replace elsewhere (belowOfMinusOne isRecord)
  have isFree : kernel.files.lookup (kernel.nextNumber environment) = none :=
    environment.descriptor_free kernel.calls kernel.files
  have kept : Owned (Function.update duty key none) records after := by
    apply owned.congr_lookup opening.closings
      (kernel.nextNumber environment)
    · intro other different
      rw [opening.files]
      exact DescriptorTable.lookup_insert_of_ne _ _ different
    · intro event isEvent
      rw [isFree] at isEvent
      exact absurd isEvent (by simp)
  rcases outcome with ⟨-, isMinusOne⟩ | isFresh
  · rw [isMinusOne] at isRecord
    exact kept.replace elsewhere (belowOfMinusOne isRecord)
  rw [isFresh] at isRecord
  have isNumber : (replaced key).number.toNat =
      kernel.nextNumber environment := by
    rw [isRecord]
    rfl
  have fresh : ∀ other ≠ key, Demanded duty replaced other →
      Demanded (Function.update duty key none) records other ∧
        (replaced other).number.toNat ≠ kernel.nextNumber environment := by
    rintro other different ⟨required, isDuty, above⟩
    rw [elsewhere other different] at above ⊢
    have demanded : Demanded (Function.update duty key none) records
        other := ⟨required, by rwa [Function.update_of_ne different], above⟩
    refine ⟨demanded, fun same => ?_⟩
    obtain ⟨event, isOpen⟩ := owned.lookup_of_demanded demanded
    rw [same, isFree] at isOpen
    exact absurd isOpen (by simp)
  refine ⟨kept.legitimate, ?_, ?_⟩
  · intro other required isDuty above
    by_cases same : other = key
    · subst same
      refine ⟨kernel.nextEvent addr tid, by rw [isRecord], ?_, ?_⟩
      · rw [isNumber, opening.files, DescriptorTable.lookup_insert_self]
      · exact (acceptable required isDuty).2
    · rw [elsewhere other same] at above ⊢
      apply kept.opened other required _ above
      rwa [Function.update_of_ne same]
  · intro first second demandsFirst demandsSecond same
    by_cases firstKey : first = key
    · by_cases secondKey : second = key
      · rw [firstKey, secondKey]
      · rw [firstKey, isNumber] at same
        exact absurd same.symm (fresh second secondKey demandsSecond).2
    · by_cases secondKey : second = key
      · rw [secondKey, isNumber] at same
        exact absurd same (fresh first firstKey demandsFirst).2
      · obtain ⟨originalFirst, -⟩ := fresh first firstKey demandsFirst
        obtain ⟨originalSecond, -⟩ := fresh second secondKey demandsSecond
        rw [elsewhere first firstKey, elsewhere second secondKey] at same
        exact kept.distinct first second originalFirst originalSecond same

end Owned

end Causer
