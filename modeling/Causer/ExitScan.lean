import Causer.Library.Iteration
import Causer.ObjectGuard
import Causer.SelfMap
import Mathlib.Data.List.Infix

/-!
# The scan at exit

`checkAllMemory` goes through a data mapping word by word and takes every head
sentinel for the head word of an object.  Behind an object with an intact tail
word it goes on at that.  For one with a damaged tail word it stores the
greatest ratio at the call site in the guard, which may change what it scans
later on.  Where the scan goes and what it marks in a round depends on the
memory that it finds then, so that it can be compared with the scan of memory
that no store changes.
-/

namespace Causer

open ByteMemory WordArithmetic ObjectGuard

/-- `ALLOCATION_MASK`. -/
abbrev allocationMask : Nat := 0xFFFFFFFFFFFFFFF8

/-- A mapping, with what tells data from other writable memory. -/
structure DataMapping extends Mapping where
  copyOnWrite : Bool

namespace DataMapping

/-- `isData`. -/
def isData (mapping : DataMapping) : Bool :=
  mapping.readable && mapping.writable && !mapping.executable &&
    mapping.copyOnWrite

/-- `isStack`. -/
def isStack (mapping : DataMapping) : Bool :=
  decide ("[stack".toList <:+: mapping.file)

end DataMapping

/-- The `watchedRatio` of the call site at an address. -/
abbrev ratioOf (callstack : Nat) : Region := ⟨callstack + 12, 4⟩

/-- The ratio that is stored there. -/
def watchedRatioAt (memory : Memory) (callstack : Nat) : Nat :=
  readBytes memory (callstack + 12) 4

/-- Set the ratio of a call site to `MAX_WATCH_RATIO_UPPERBOUND`. -/
def setMaxRatio (memory : Memory) (callstack : Nat) : Memory :=
  blit memory (ratioOf callstack) (byteOf maxWatchRatioUpperbound.toNat)

/-- The ratio of a call site is set to the maximum, on account of the object
with the head word at `head`.  The pointer to the call site is followed. -/
structure Mark where
  head : Nat
  callstack : Nat
  deriving DecidableEq

/-- The guard of the object whose head word is at `it`. -/
abbrev guardAt (it : Nat) : Nat := getObjectGuard (add it 8)

/-- The word at `it` is taken for a head word. -/
def AtHead (memory : Memory) (it : Nat) : Prop :=
  it ≠ 0 ∧ readWord memory it = sentinelHeadWord

instance (memory : Memory) (it : Nat) : Decidable (AtHead memory it) :=
  inferInstanceAs (Decidable (_ ∧ _))

/-- The inner loop of `checkAllMemory` between two rounds. -/
structure ScanState where
  it : Nat
  memory : Memory
  marks : List Mark

/-- A round of the inner loop, for the mapping that ends at `limit`. -/
def scanStep (limit : Nat) (state : ScanState) : Option ScanState :=
  let it := state.it
  if it < limit then
    if AtHead state.memory it then
      let obj := guardAt it
      if getTailSentinel state.memory obj > limit then none
      else if isGoodTail state.memory obj then
        -- jump to end
        let it := getTailSentinel state.memory obj &&& allocationMask
        some { state with it := add it 8 }
      else
        let cs := getCallstack state.memory obj
        some
          { it := add it 8
            memory := setMaxRatio state.memory cs
            marks := state.marks ++ [⟨it, cs⟩] }
    else some { state with it := add it 8 }
  else none

/-- The object whose head word is at `it` is in the mapping, and its tail word
is damaged. -/
structure DamagedAt (memory : Memory) (limit it : Nat) : Prop where
  head : AtHead memory it
  inside : getTailSentinel memory (guardAt it) ≤ limit
  tail : isGoodTail memory (guardAt it) = false

section

variable (memory : Memory) (limit it : Nat)

instance : Decidable (DamagedAt memory limit it) :=
  decidable_of_iff
    (AtHead memory it ∧ getTailSentinel memory (guardAt it) ≤ limit ∧
      isGoodTail memory (guardAt it) = false)
    ⟨fun ⟨head, inside, tail⟩ => ⟨head, inside, tail⟩,
      fun ⟨head, inside, tail⟩ => ⟨head, inside, tail⟩⟩

/-- The marks that the loop makes at a position. -/
def marksAt : List Mark :=
  if DamagedAt memory limit it then
    [⟨it, getCallstack memory (guardAt it)⟩]
  else []

/-- Where the inner loop goes on from `it`, if it does. -/
def scanNext : Option Nat :=
  if AtHead memory it then
    if getTailSentinel memory (guardAt it) > limit then none
    else if isGoodTail memory (guardAt it) then
      some (add (getTailSentinel memory (guardAt it) &&& allocationMask) 8)
    else some (add it 8)
  else some (add it 8)

/-- A round in memory that no store changes, which leaves the loop at the end
of the mapping or where it breaks. -/
def scanRound : Option Nat :=
  if it < limit then scanNext memory limit it else none

end

/-- The scan from a position, in memory that no store changes, leaves the loop
with these marks. -/
inductive SteadyScan (memory : Memory) (limit : Nat) :
    Nat → List Mark → Prop
  | beyond {it : Nat} (outside : ¬it < limit) :
      SteadyScan memory limit it []
  | breaks {it : Nat} (inside : it < limit)
      (leaves : scanNext memory limit it = none) :
      SteadyScan memory limit it []
  | next {it following : Nat} {made : List Mark} (inside : it < limit)
      (goesOn : scanNext memory limit it = some following)
      (rest : SteadyScan memory limit following made) :
      SteadyScan memory limit it (marksAt memory limit it ++ made)

/-- The state when the loop has made marks and gone on. -/
def ScanState.after (state : ScanState) (made : List Mark) (following : Nat) :
    ScanState where
  it := following
  memory := (made.map Mark.callstack).foldl setMaxRatio state.memory
  marks := state.marks ++ made

section

variable {memory : Memory} {limit it following base : Nat}

@[simp] theorem ScanState.after_nil (state : ScanState) (following : Nat) :
    state.after [] following = { state with it := following } := by
  simp only [after, List.map_nil, List.foldl_nil, List.append_nil]

@[simp] theorem ScanState.after_marks
    (state : ScanState) (made : List Mark) (following : Nat) :
    (state.after made following).marks = state.marks ++ made :=
  rfl

theorem mem_marksAt_iff
    {mark : Mark} :
    mark ∈ marksAt memory limit it ↔
      DamagedAt memory limit it ∧
        mark = ⟨it, getCallstack memory (guardAt it)⟩ := by
  rw [marksAt]
  split_ifs with damaged
  · rw [List.mem_singleton, and_iff_right damaged]
  · exact iff_of_false List.not_mem_nil fun made => damaged made.1

theorem marksAt_of_not
    (sound : ¬DamagedAt memory limit it) :
    marksAt memory limit it = [] :=
  if_neg sound

/-- Where the loop leaves the mapping it makes no mark. -/
theorem marksAt_of_scanNext_eq_none
    (stuck : scanNext memory limit it = none) :
    marksAt memory limit it = [] := by
  apply marksAt_of_not
  rintro ⟨head, notBeyond, lost⟩
  rw [scanNext, if_pos head, if_neg (Nat.not_lt_of_le notBeyond), lost]
    at stuck
  cases stuck

/-- Behind the head of a damaged object the loop goes on with the next word. -/
theorem DamagedAt.scanNext_eq
    (damaged : DamagedAt memory limit it) :
    scanNext memory limit it = some (add it 8) := by
  rw [scanNext, if_pos damaged.head,
    if_neg (Nat.not_lt_of_le damaged.inside), damaged.tail]
  exact if_neg Bool.false_ne_true

/-- A round goes on where a scan without stores does, and makes its marks. -/
theorem scanStep_eq
    {state : ScanState}
    (inside : state.it < limit) :
    scanStep limit state =
      (scanNext state.memory limit state.it).map
        (state.after (marksAt state.memory limit state.it)) := by
  rw [scanStep, if_pos inside, scanNext]
  by_cases head : AtHead state.memory state.it
  · by_cases beyond :
        getTailSentinel state.memory (guardAt state.it) > limit
    · simp only [if_pos head, if_pos beyond, Option.map_none]
    · cases tail : isGoodTail state.memory (guardAt state.it) with
      | true =>
          have sound : ¬DamagedAt state.memory limit state.it := by
            intro damaged
            have lost := damaged.tail
            rw [tail] at lost
            cases lost
          simp only [if_pos head, if_neg beyond, tail, if_true,
            marksAt_of_not sound, ScanState.after_nil, Option.map_some]
      | false =>
          have damaged : DamagedAt state.memory limit state.it :=
            ⟨head, Nat.le_of_not_gt beyond, tail⟩
          simp only [if_pos head, if_neg beyond, tail, Bool.false_eq_true,
            if_false, marksAt, if_pos damaged, Option.map_some]
          rfl
  · have sound : ¬DamagedAt state.memory limit state.it :=
      fun damaged => head damaged.head
    simp only [if_neg head, marksAt_of_not sound, ScanState.after_nil,
      Option.map_some]

/-- Where a round leads: one word ahead, or behind the tail word of an intact
object. -/
theorem scanNext_eq_some
    (goesOn : scanNext memory limit it = some following) :
    following = add it 8 ∨
      AtHead memory it ∧
        getTailSentinel memory (guardAt it) ≤ limit ∧
        isGoodTail memory (guardAt it) = true ∧
        following =
          add (getTailSentinel memory (guardAt it) &&& allocationMask) 8 := by
  unfold scanNext at goesOn
  split_ifs at goesOn with head beyond tail
  · exact Or.inr ⟨head, Nat.le_of_not_gt beyond, tail,
      (Option.some.inj goesOn).symm⟩
  · exact Or.inl (Option.some.inj goesOn).symm
  · exact Or.inl (Option.some.inj goesOn).symm

theorem scanRound_eq_some
    (leads : scanRound memory limit it = some following) :
    it < limit ∧ scanNext memory limit it = some following := by
  unfold scanRound at leads
  split_ifs at leads with inside
  exact ⟨inside, leads⟩

theorem getTailSentinel_lt
    (guard : Nat) :
    getTailSentinel memory guard < 2 ^ 64 :=
  Nat.mod_lt _ (by decide)

/-- The mask takes an address to the word that it lies in. -/
theorem land_allocationMask
    {address : Nat}
    (addressLt : address < 2 ^ 64) :
    address &&& allocationMask = address / 8 * 8 := by
  have mask : allocationMask = complement (2 ^ 3 - 1) := by
    decide
  rw [mask, land_complement_low addressLt (by omega)]
  norm_num

/-- The scan stays on multiples of eight. -/
theorem aligned_scanNext
    (aligned : 8 ∣ it)
    (goesOn : scanNext memory limit it = some following) :
    8 ∣ following := by
  rcases scanNext_eq_some goesOn with rfl | ⟨-, -, -, rfl⟩
  · rw [add]
    omega
  · rw [land_allocationMask (getTailSentinel_lt _), add]
    omega

theorem aligned_of_comes
    (aligned : 8 ∣ base)
    (comes : Iteration.Comes (scanRound memory limit) base it) :
    8 ∣ it := by
  induction comes with
  | refl => exact aligned
  | tail _ leads inductionHypothesis =>
      exact aligned_scanNext inductionHypothesis (scanRound_eq_some leads).2

theorem guardAt_eq
    (high : 24 ≤ it)
    (itLt : it + 8 < 2 ^ 64) :
    guardAt it = it - 24 := by
  rw [guardAt, add_of_lt itLt, getObjectGuard_eq (by omega) itLt]
  omega

/-- The head word of a guard is that of its object. -/
theorem guardAt_add
    {guard : Nat}
    (guardLt : guard + 32 < 2 ^ 64) :
    guardAt (guard + 24) = guard := by
  rw [guardAt_eq (Nat.le_add_left ..) guardLt, Nat.add_sub_cancel]

/-- A scan that ends has made some marks. -/
theorem exists_steadyScan
    (ends : Iteration.Ends (scanRound memory limit) it) :
    ∃ made, SteadyScan memory limit it made := by
  induction ends with
  | intro it _ inductionHypothesis =>
      by_cases inside : it < limit
      · cases goesOn : scanNext memory limit it with
        | none => exact ⟨[], .breaks inside goesOn⟩
        | some following =>
            obtain ⟨made, rest⟩ :=
              inductionHypothesis following ((if_pos inside).trans goesOn)
            exact ⟨_, .next inside goesOn rest⟩
      · exact ⟨[], .beyond inside⟩

/-- The marks of the scan are those of the positions it comes to. -/
theorem SteadyScan.mem_iff
    {made : List Mark} {mark : Mark}
    (scan : SteadyScan memory limit it made) :
    mark ∈ made ↔
      ∃ position, Iteration.Comes (scanRound memory limit) it position ∧
        position < limit ∧ mark ∈ marksAt memory limit position := by
  induction scan with
  | @beyond it outside =>
      refine iff_of_false List.not_mem_nil ?_
      rintro ⟨position, comes, inside, -⟩
      rcases Relation.ReflTransGen.cases_head comes with
        rfl | ⟨following, leads, -⟩
      · exact outside inside
      · exact outside (scanRound_eq_some leads).1
  | @breaks it inside leaves =>
      refine iff_of_false List.not_mem_nil ?_
      rintro ⟨position, comes, -, isMark⟩
      rcases Relation.ReflTransGen.cases_head comes with
        rfl | ⟨following, leads, -⟩
      · rw [marksAt_of_scanNext_eq_none leaves] at isMark
        exact absurd isMark List.not_mem_nil
      · rw [(scanRound_eq_some leads).2] at leaves
        cases leaves
  | @next it following made inside goesOn rest inductionHypothesis =>
      have round : Iteration.Leads (scanRound memory limit) it following :=
        (if_pos inside).trans goesOn
      rw [List.mem_append, inductionHypothesis]
      constructor
      · rintro (here | ⟨position, comes, within, isMark⟩)
        · exact ⟨it, .refl, inside, here⟩
        · exact ⟨position, .head round comes, within, isMark⟩
      · rintro ⟨position, comes, within, isMark⟩
        rcases Relation.ReflTransGen.cases_head comes with
          rfl | ⟨other, leads, comes⟩
        · exact Or.inl isMark
        · obtain rfl := Option.some.inj (round.symm.trans leads)
          exact Or.inr ⟨position, comes, within, isMark⟩

end

end Causer
