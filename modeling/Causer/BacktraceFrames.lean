import Causer.TextRegions
import Mathlib.Data.List.Destutter

/-!
# The frames of a backtrace

`getCallsites` and `trapHandler` walk the array that `backtrace` has filled, and
skip the frames of the library, of the thread library and of the return from a
signal.  The walks look at what the array holds before they look at the number
of frames, if they do so at all.  So they stay inside the frames exactly if
there is a frame to stop at.
-/

namespace Causer

open TextStream (Text)

/-- The memory from the start of the array on, and what `backtrace` has
returned.  Past the frames the array holds anything. -/
structure Backtrace where
  array : Nat → Word
  frames : Nat

/-- The frames from an index on. -/
def Backtrace.framesFrom (trace : Backtrace) (it : Nat) : List Word :=
  (List.range' it (trace.frames - it)).map trace.array

/-- What `getCallsites` writes and returns, and the indices that it reads. -/
structure Callsites where
  callsites : List Word
  /-- Zero as well, for the assertion on the number is compiled out. -/
  returned : Nat
  reads : List Nat
  deriving DecidableEq

section GetCallsites

variable (regions : TextRegions) (trace : Backtrace)

/-- The loop that skips the library. -/
def skipFrames : Nat → Nat → Option (Nat × List Nat)
  | 0, _ => none
  | fuel + 1, it =>
      -- The element is read before the index is compared.
      if regions.isCauserLibrary (trace.array it) && it < trace.frames then
        (skipFrames fuel (it + 1)).map fun (stop, reads) => (stop, it :: reads)
      else some (it, [it])

/-- The loop that copies the other frames. -/
def copyFrames : Nat → Nat → Option (List Word × List Nat)
  | 0, _ => none
  | fuel + 1, it =>
      if it < trace.frames then
        let recursive := it ≠ 0 && trace.array it = trace.array (it - 1)
        let compared := if it ≠ 0 then [it - 1] else []
        (copyFrames fuel (it + 1)).map fun (callsites, reads) =>
          (if recursive then callsites else trace.array it :: callsites,
            it :: compared ++ reads)
      else some ([], [])

/-- `getCallsites`. -/
def getCallsites (fuel : Nat) : Option Callsites :=
  (skipFrames regions trace fuel 0).bind fun (it, skipped) =>
    (copyFrames trace fuel it).map fun (callsites, copied) =>
      { callsites := callsites
        returned := callsites.length
        reads := skipped ++ copied }

end GetCallsites

/-- What `dladdr` tells of an address. -/
structure DlInfo where
  fname : Text
  fbase : Word
  sname : Option Text
  deriving DecidableEq

/-- Whether a part is found in a name. -/
def findsIn (name : Text) (part : String) : Bool :=
  decide (part.toList <:+: name)

/-- The offsets in libc that `checkGlibcWL` lists. -/
def glibcOffsets : List (Word × Word) :=
  [(0x13f5c9, 0x141434), (0x89cce, 0x8bb70), (0x86e07, 0x87f38),
    (0x88a7f, 0x88dfc), (0x9fcbe, 0x9fcf5), (0x9fcfa, 0x9feac),
    (0x145310, 0x14a467), (0x89a77, 0x93c24), (0xa1211, 0xa149f),
    (0xa9201, 0xa922c), (0xa7948, 0xa7948), (0xa79cd, 0xa79f3),
    (0xa67a0, 0xa69a0), (0x4e4b4, 0x4e4b4), (0xf6eb5, 0xf6eb5)]

/-- `checkGlibcWL`. -/
def checkGlibcWL (offset : Word) (info : DlInfo) : Bool :=
  if glibcOffsets.any fun (low, high) => offset ≥ low && offset ≤ high then
    true
  else
    match info.sname with
    | some sname =>
        findsIn sname "strrchr" || findsIn sname "memchr" ||
          findsIn sname "xstat64"
    | none => findsIn info.fname "ld-linux-"

/-- What a signal on a watchpoint finds. -/
structure Trap where
  regions : TextRegions
  /-- `dladdr`, which may leave what was stored before. -/
  dladdr : Word → DlInfo → DlInfo
  /-- The variable before it is stored. -/
  info : DlInfo
  /-- The address of the access. -/
  insaddr : Word
  trace : Backtrace
  /-- Whether the descriptor belongs to a watchpoint. -/
  isWatchpoint : Bool

/-- What the handler decides and prints, and the indices that it reads. -/
structure TrapReport where
  benignBF : Bool
  printed : List Word
  reads : List Nat
  deriving DecidableEq

namespace Trap

variable (trap : Trap)

/-- The loop that skips the library, with the frame at which it stops. -/
def skipLibrary : Nat → Nat → Option (Word × Nat × List Nat)
  | 0, _ => none
  | fuel + 1, it =>
      let itptr := trap.trace.array it
      if trap.regions.isCauserLibrary itptr then
        (skipLibrary fuel (it + 1)).map fun (itptr, next, reads) =>
          (itptr, next, it :: reads)
      else some (itptr, it + 1, [it])

/-- From the label `GetPtr` on. -/
def getPtr : Nat → Word → Nat → DlInfo → Option (Bool × Nat × List Nat)
  | 0, _, _, _ => none
  | fuel + 1, itptr, it, info =>
      let info := trap.dladdr itptr info
      let offset := itptr - info.fbase
      if offset = 0x352f0 then
        (getPtr fuel (trap.trace.array it) (it + 1) info).map
          fun (benignBF, next, reads) => (benignBF, next, it :: reads)
      else some (checkGlibcWL offset info, it, [])

/-- The frame of the thread library is skipped. -/
def skipPthread (itptr : Word) (it : Nat) : Word × Nat × List Nat :=
  if trap.regions.isPthreadLibrary itptr then
    (trap.trace.array it, it + 1, [it])
  else (itptr, it, [])

/-- The test of the caller. -/
def testCaller (fuel : Nat) (itptr : Word) (it : Nat) (info : DlInfo) :
    Option (Bool × Nat × List Nat) :=
  if trap.regions.isLibcLibrary itptr then trap.getPtr fuel itptr it info
  else some (findsIn (trap.dladdr itptr info).fname "ld-linux-", it, [])

/-- From the call of `backtrace` to the decision. -/
def walkFrames (fuel : Nat) (info : DlInfo) :
    Option (Bool × Nat × List Nat) :=
  (trap.skipLibrary fuel 0).bind fun (itptr, it, skipped) =>
    let (itptr, it, stepped) := trap.skipPthread itptr it
    (trap.testCaller fuel itptr it info).map fun (benignBF, it, searched) =>
      (benignBF, it, skipped ++ stepped ++ searched)

/-- The test of the access itself, and what is stored by it. -/
def testAccess : Bool × DlInfo :=
  if trap.regions.isLibcLibrary trap.insaddr then
    let info := trap.dladdr trap.insaddr trap.info
    let offset := trap.insaddr - info.fbase
    (offset ≠ 0x352f0 && checkGlibcWL offset info, info)
  else (false, trap.info)

/-- From the decision on: the report goes back by one frame. -/
def report (benignBF : Bool) (it : Nat) (reads : List Nat) : TrapReport :=
  if benignBF || !trap.isWatchpoint then ⟨benignBF, [], reads⟩
  else
    { benignBF := false
      printed := (trap.trace.framesFrom (it - 1)).filter fun frame =>
        !trap.regions.isCauserLibrary frame
      reads := reads ++ List.range' (it - 1) (trap.trace.frames - (it - 1)) }

/-- `trapHandler`, as far as it walks the frames. -/
def trapHandler (fuel : Nat) : Option TrapReport :=
  let (benignBF, info) := trap.testAccess
  if benignBF then some ⟨true, [], []⟩
  else
    (trap.walkFrames fuel info).map fun (benignBF, it, reads) =>
      trap.report benignBF it reads

end Trap

/-- `getCallsites` ends, writes the frames behind the library without
repetitions, and reads inside the frames. -/
def CallsitesRight (regions : TextRegions) (trace : Backtrace) : Prop :=
  ∃ fuel outcome, getCallsites regions trace fuel = some outcome ∧
    outcome.callsites =
      ((trace.framesFrom 0).dropWhile regions.isCauserLibrary).destutter
        (· ≠ ·) ∧
    ∀ index ∈ outcome.reads, index < trace.frames

/-- `trapHandler` ends and reads inside the frames. -/
def TrapRight (trap : Trap) : Prop :=
  ∃ fuel report, trap.trapHandler fuel = some report ∧
    ∀ index ∈ report.reads, index < trap.trace.frames

/-- Some frame does not belong to the library. -/
def LeavesLibrary (regions : TextRegions) (trace : Backtrace) : Prop :=
  ∃ frame ∈ trace.framesFrom 0, regions.isCauserLibrary frame = false

namespace Trap

variable (trap : Trap)

/-- Some frame is not that of the return from a signal, as far as `dladdr`
tells. -/
def Settles : DlInfo → List Word → Prop
  | _, [] => False
  | info, itptr :: rest =>
      itptr - (trap.dladdr itptr info).fbase ≠ 0x352f0 ∨
        Settles (trap.dladdr itptr info) rest

/-- The frame at which the test of the caller starts is in libc only if it
settles. -/
def CallerSettles (info : DlInfo) : List Word → Prop
  | [] => False
  | itptr :: rest =>
      trap.regions.isLibcLibrary itptr = true →
        trap.Settles info (itptr :: rest)

/-- There is a frame behind those of the library, and the test of the caller
settles there, or behind it if it is in the thread library. -/
def CallerFound (info : DlInfo) : Prop :=
  match (trap.trace.framesFrom 0).dropWhile trap.regions.isCauserLibrary with
  | [] => False
  | itptr :: rest =>
      trap.CallerSettles info
        (if trap.regions.isPthreadLibrary itptr then rest else itptr :: rest)

end Trap

namespace Backtrace

variable {trace : Backtrace} {it : Nat}

theorem framesFrom_of_lt
    (inside : it < trace.frames) :
    trace.framesFrom it = trace.array it :: trace.framesFrom (it + 1) := by
  obtain ⟨left, count⟩ := Nat.exists_eq_add_of_lt inside
  have one : trace.frames - it = left + 1 := by omega
  have rest : trace.frames - (it + 1) = left := by omega
  rw [framesFrom, framesFrom, one, rest, List.range'_succ, List.map_cons]

theorem framesFrom_of_le
    (outside : trace.frames ≤ it) :
    trace.framesFrom it = [] := by
  rw [framesFrom, Nat.sub_eq_zero_of_le outside]
  rfl

theorem framesFrom_eq_nil_iff :
    trace.framesFrom it = [] ↔ trace.frames ≤ it := by
  rw [framesFrom, List.map_eq_nil_iff, List.range'_eq_nil_iff]
  exact Nat.sub_eq_zero_iff_le

theorem lt_of_framesFrom_ne_nil
    (some_frame : trace.framesFrom it ≠ []) :
    it < trace.frames :=
  Nat.not_le.mp fun outside => some_frame (framesFrom_of_le outside)

end Backtrace

section GetCallsites

variable {regions : TextRegions} {trace : Backtrace} {fuel it stop : Nat}
  {callsites : List Word} {reads : List Nat}

/-- What a loop that skips the library leaves and reads. -/
structure Skipped (regions : TextRegions) (trace : Backtrace)
    (it stop : Nat) (reads : List Nat) : Prop where
  le : it ≤ stop
  reads : reads = List.range' it (stop + 1 - it)
  rest : (trace.framesFrom it).dropWhile regions.isCauserLibrary =
    trace.framesFrom stop
  inLibrary : it < stop → regions.isCauserLibrary (trace.array (stop - 1)) = true
  outside : stop < trace.frames →
    regions.isCauserLibrary (trace.array stop) = false

/-- The loop goes on past a frame of the library. -/
theorem Skipped.cons
    (inLibrary : regions.isCauserLibrary (trace.array it) = true)
    (skipped : Skipped regions trace (it + 1) stop reads) :
    Skipped regions trace it stop (it :: reads) where
  le := (Nat.le_succ it).trans skipped.le
  reads := by
    have le := skipped.le
    have count : stop + 1 - it = (stop + 1 - (it + 1)) + 1 := by omega
    rw [count, List.range'_succ, skipped.reads]
  rest := by
    have le := skipped.le
    rcases Nat.lt_or_ge it trace.frames with inside | outside
    · rw [Backtrace.framesFrom_of_lt inside,
        List.dropWhile_cons_of_pos inLibrary, skipped.rest]
    · rw [Backtrace.framesFrom_of_le outside,
        Backtrace.framesFrom_of_le (by omega)]
      rfl
  inLibrary _ := by
    rcases Nat.lt_or_ge (it + 1) stop with later | here
    · exact skipped.inLibrary later
    · have le := skipped.le
      have same : stop - 1 = it := by omega
      rw [same]
      exact inLibrary
  outside := skipped.outside

/-- The loop stops where it is. -/
theorem Skipped.refl
    (outside : it < trace.frames →
      regions.isCauserLibrary (trace.array it) = false) :
    Skipped regions trace it it [it] where
  le := le_rfl
  reads := by simp
  rest := by
    rcases Nat.lt_or_ge it trace.frames with inside | above
    · rw [Backtrace.framesFrom_of_lt inside, List.dropWhile_cons_of_neg]
      rw [outside inside]
      exact Bool.false_ne_true
    · rw [Backtrace.framesFrom_of_le above]
      rfl
  inLibrary impossible := absurd impossible (Nat.lt_irrefl it)
  outside := outside

/-- The loop stays inside the frames exactly if it finds one to stop at. -/
theorem Skipped.inside_iff
    (skipped : Skipped regions trace 0 stop reads) :
    (∀ index ∈ reads, index < trace.frames) ↔ LeavesLibrary regions trace := by
  have left : LeavesLibrary regions trace ↔ stop < trace.frames := by
    rw [← Nat.not_le, ← Backtrace.framesFrom_eq_nil_iff, ← skipped.rest,
      List.dropWhile_eq_nil_iff, LeavesLibrary]
    simp
  rw [left, skipped.reads]
  constructor
  · intro inside
    exact inside stop (by simp)
  · intro inside index member
    simp only [List.mem_range'_1] at member
    omega

theorem skipped_of_skipFrames
    (runs : skipFrames regions trace fuel it = some (stop, reads)) :
    Skipped regions trace it stop reads := by
  induction fuel generalizing it reads with
  | zero => cases runs
  | succ fuel inductionHypothesis =>
      rw [skipFrames] at runs
      split_ifs at runs with goesOn
      · obtain ⟨⟨later, rest⟩, ran, same⟩ := Option.map_eq_some_iff.mp runs
        obtain ⟨rfl, rfl⟩ := Prod.mk.inj same
        rw [Bool.and_eq_true] at goesOn
        exact (inductionHypothesis ran).cons goesOn.1
      · obtain ⟨rfl, rfl⟩ := Prod.mk.inj (Option.some.inj runs)
        refine .refl fun inside => ?_
        simpa [inside] using goesOn

theorem exists_skipFrames
    (enough : trace.frames - it < fuel) :
    ∃ stop reads, skipFrames regions trace fuel it = some (stop, reads) := by
  induction fuel generalizing it with
  | zero => cases enough
  | succ fuel inductionHypothesis =>
      rw [skipFrames]
      split_ifs with goesOn
      · rw [Bool.and_eq_true, decide_eq_true_iff] at goesOn
        have left : trace.frames - (it + 1) < fuel := by omega
        obtain ⟨stop, reads, ran⟩ := inductionHypothesis left
        exact ⟨stop, it :: reads, by rw [ran]; rfl⟩
      · exact ⟨it, [it], rfl⟩

/-- What a round of the loop that copies frames does. -/
theorem copyFrames_cases
    (runs : copyFrames trace (fuel + 1) it = some (callsites, reads)) :
    (trace.frames ≤ it ∧ callsites = [] ∧ reads = []) ∨
      ∃ later rest, it < trace.frames ∧
        copyFrames trace fuel (it + 1) = some (later, rest) ∧
        callsites =
          (if it ≠ 0 ∧ trace.array it = trace.array (it - 1) then later
            else trace.array it :: later) ∧
        reads = it :: (if it ≠ 0 then [it - 1] else []) ++ rest := by
  rw [copyFrames] at runs
  by_cases inside : it < trace.frames
  · rw [if_pos inside] at runs
    obtain ⟨⟨later, rest⟩, ran, same⟩ := Option.map_eq_some_iff.mp runs
    obtain ⟨rfl, rfl⟩ := Prod.mk.inj same
    refine Or.inr ⟨later, rest, inside, ran, ?_, rfl⟩
    simp
  · rw [if_neg inside] at runs
    obtain ⟨rfl, rfl⟩ := Prod.mk.inj (Option.some.inj runs)
    exact Or.inl ⟨Nat.le_of_not_lt inside, rfl, rfl⟩

/-- The loop ends. -/
theorem exists_copyFrames
    (enough : trace.frames - it < fuel) :
    ∃ callsites reads, copyFrames trace fuel it = some (callsites, reads) := by
  induction fuel generalizing it with
  | zero => cases enough
  | succ fuel inductionHypothesis =>
      rw [copyFrames]
      by_cases inside : it < trace.frames
      · have left : trace.frames - (it + 1) < fuel := by omega
        obtain ⟨callsites, reads, ran⟩ := inductionHypothesis left
        rw [if_pos inside, ran]
        exact ⟨_, _, rfl⟩
      · rw [if_neg inside]
        exact ⟨[], [], rfl⟩

/-- The loop stays inside the frames. -/
theorem copyFrames_reads
    (runs : copyFrames trace fuel it = some (callsites, reads)) :
    ∀ index ∈ reads, index < trace.frames := by
  induction fuel generalizing it callsites reads with
  | zero => cases runs
  | succ fuel inductionHypothesis =>
      rcases copyFrames_cases runs with
        ⟨-, -, rfl⟩ | ⟨later, rest, inside, ran, -, rfl⟩
      · simp
      · intro index member
        rw [List.cons_append, List.mem_cons, List.mem_append] at member
        rcases member with rfl | compared | later
        · exact inside
        · split_ifs at compared
          · rw [List.mem_singleton.mp compared]
            omega
          · cases compared
        · exact inductionHypothesis ran index later

/-- Behind a frame, the frames are written that differ from the one before. -/
theorem copyFrames_succ
    (runs : copyFrames trace fuel (it + 1) = some (callsites, reads)) :
    trace.array it :: callsites =
      (trace.framesFrom (it + 1)).destutter' (· ≠ ·) (trace.array it) := by
  induction fuel generalizing it callsites reads with
  | zero => cases runs
  | succ fuel inductionHypothesis =>
      rcases copyFrames_cases runs with
        ⟨outside, rfl, -⟩ | ⟨later, rest, inside, ran, rfl, -⟩
      · rw [Backtrace.framesFrom_of_le outside]
        rfl
      · have written := inductionHypothesis ran
        rw [Backtrace.framesFrom_of_lt inside, Nat.add_sub_cancel]
        by_cases repeated : trace.array (it + 1) = trace.array it
        · rw [List.destutter'_cons_neg _ (not_not.mpr repeated.symm),
            if_pos ⟨Nat.succ_ne_zero it, repeated⟩, ← repeated, written]
        · rw [List.destutter'_cons_pos _ (Ne.symm repeated), ← written,
            if_neg fun both => repeated both.2]

/-- From a frame on that differs from the one before, the frames are written
without repetitions. -/
theorem copyFrames_eq
    (runs : copyFrames trace fuel it = some (callsites, reads))
    (differs : it ≠ 0 → it < trace.frames →
      trace.array it ≠ trace.array (it - 1)) :
    callsites = (trace.framesFrom it).destutter (· ≠ ·) := by
  cases fuel with
  | zero => cases runs
  | succ fuel =>
      rcases copyFrames_cases runs with
        ⟨outside, rfl, -⟩ | ⟨later, rest, inside, ran, rfl, -⟩
      · rw [Backtrace.framesFrom_of_le outside]
        rfl
      · rw [Backtrace.framesFrom_of_lt inside, List.destutter_cons',
          ← copyFrames_succ ran, if_neg]
        exact fun repeated => differs repeated.1 inside repeated.2

/-- The frame at which the library has been left differs from the one before. -/
theorem Skipped.differs
    (skipped : Skipped regions trace 0 stop reads)
    (later : stop ≠ 0)
    (inside : stop < trace.frames) :
    trace.array stop ≠ trace.array (stop - 1) := by
  intro same
  have inLibrary := skipped.inLibrary (Nat.pos_of_ne_zero later)
  rw [← same, skipped.outside inside] at inLibrary
  cases inLibrary

/-- `getCallsites` is right exactly if some frame is not the library's. -/
theorem callsitesRight_iff (regions : TextRegions) (trace : Backtrace) :
    CallsitesRight regions trace ↔ LeavesLibrary regions trace := by
  constructor
  · rintro ⟨fuel, outcome, runs, -, inside⟩
    obtain ⟨⟨stop, skippedReads⟩, skips, copies⟩ :=
      Option.bind_eq_some_iff.mp runs
    obtain ⟨⟨callsites, copied⟩, -, rfl⟩ := Option.map_eq_some_iff.mp copies
    rw [← (skipped_of_skipFrames skips).inside_iff]
    exact fun index member => inside index (List.mem_append_left _ member)
  · intro leaves
    have enough : ∀ it, trace.frames - it < trace.frames + 1 := by omega
    obtain ⟨stop, skippedReads, skips⟩ :
        ∃ stop reads, skipFrames regions trace (trace.frames + 1) 0 =
          some (stop, reads) := exists_skipFrames (enough 0)
    obtain ⟨callsites, copied, copies⟩ := exists_copyFrames (enough stop)
    have skipped := skipped_of_skipFrames skips
    have runs : ∃ outcome,
        getCallsites regions trace (trace.frames + 1) = some outcome ∧
          outcome.callsites = callsites ∧
          outcome.reads = skippedReads ++ copied := by
      rw [getCallsites, skips, Option.bind_some]
      dsimp only
      rw [copies]
      exact ⟨_, rfl, rfl, rfl⟩
    obtain ⟨outcome, ran, written, outcomeReads⟩ := runs
    refine ⟨trace.frames + 1, outcome, ran, ?_, ?_⟩
    · rw [written, skipped.rest]
      exact copyFrames_eq copies skipped.differs
    · rw [outcomeReads]
      intro index member
      rcases List.mem_append.mp member with isSkipped | isCopied
      · exact skipped.inside_iff.mpr leaves index isSkipped
      · exact copyFrames_reads copies index isCopied

end GetCallsites

namespace Trap

variable {trap : Trap} {fuel it next : Nat} {itptr : Word} {info : DlInfo}
  {benignBF : Bool} {reads : List Nat}

/-- What a loop that skips the library stops at and reads. -/
structure Stopped (trap : Trap) (it : Nat) (itptr : Word) (next : Nat)
    (reads : List Nat) : Prop where
  le : it < next
  reads : reads = List.range' it (next - it)
  inside : next ≤ trap.trace.frames →
    (trap.trace.framesFrom it).dropWhile trap.regions.isCauserLibrary =
      itptr :: trap.trace.framesFrom next

theorem stopped_of_skipLibrary
    (runs : trap.skipLibrary fuel it = some (itptr, next, reads)) :
    Stopped trap it itptr next reads := by
  induction fuel generalizing it reads with
  | zero => cases runs
  | succ fuel inductionHypothesis =>
      rw [skipLibrary] at runs
      dsimp only at runs
      split_ifs at runs with inLibrary
      · obtain ⟨⟨_, stop, rest⟩, ran, same⟩ := Option.map_eq_some_iff.mp runs
        simp only [Prod.mk.injEq] at same
        obtain ⟨rfl, rfl, rfl⟩ := same
        obtain ⟨le, restReads, inside⟩ := inductionHypothesis ran
        have count : stop - it = (stop - (it + 1)) + 1 := by omega
        refine ⟨by omega, ?_, fun bound => ?_⟩
        · rw [count, List.range'_succ, restReads]
        · rw [Backtrace.framesFrom_of_lt (by omega),
            List.dropWhile_cons_of_pos inLibrary, inside bound]
      · cases runs
        refine ⟨Nat.lt_succ_self it, by simp, fun bound => ?_⟩
        rw [Backtrace.framesFrom_of_lt bound,
          List.dropWhile_cons_of_neg inLibrary]

/-- The loop ends if there is a frame to stop at. -/
theorem exists_skipLibrary
    (leaves : (trap.trace.framesFrom it).dropWhile
      trap.regions.isCauserLibrary ≠ [])
    (enough : trap.trace.frames - it < fuel) :
    ∃ itptr next reads, trap.skipLibrary fuel it = some (itptr, next, reads) ∧
      next ≤ trap.trace.frames := by
  induction fuel generalizing it with
  | zero => cases enough
  | succ fuel inductionHypothesis =>
      have inside : it < trap.trace.frames := by
        apply Backtrace.lt_of_framesFrom_ne_nil
        intro none
        rw [none] at leaves
        exact leaves rfl
      rw [Backtrace.framesFrom_of_lt inside] at leaves
      rw [skipLibrary]
      dsimp only
      split_ifs with inLibrary
      · rw [List.dropWhile_cons_of_pos inLibrary] at leaves
        have left : trap.trace.frames - (it + 1) < fuel := by omega
        obtain ⟨itptr, next, reads, ran, bound⟩ :=
          inductionHypothesis leaves left
        exact ⟨itptr, next, it :: reads, by rw [ran]; rfl, bound⟩
      · exact ⟨_, _, _, rfl, inside⟩

/-- Where the search from `GetPtr` on stays inside the frames, it settles. -/
theorem settles_of_getPtr
    (runs : trap.getPtr fuel itptr it info = some (benignBF, next, reads))
    (inside : ∀ index ∈ reads, index < trap.trace.frames) :
    trap.Settles info (itptr :: trap.trace.framesFrom it) := by
  induction fuel generalizing itptr it info reads with
  | zero => cases runs
  | succ fuel inductionHypothesis =>
      rw [getPtr] at runs
      rw [Settles]
      by_cases again : itptr - (trap.dladdr itptr info).fbase = 0x352f0
      · refine Or.inr ?_
        dsimp only at runs
        rw [if_pos again] at runs
        obtain ⟨⟨_, _, rest⟩, ran, same⟩ := Option.map_eq_some_iff.mp runs
        cases same
        rw [List.forall_mem_cons] at inside
        rw [Backtrace.framesFrom_of_lt inside.1]
        exact inductionHypothesis ran inside.2
      · exact Or.inl again

/-- Where it settles, it ends and stays inside the frames. -/
theorem exists_getPtr
    (settles : trap.Settles info (itptr :: trap.trace.framesFrom it))
    (enough : trap.trace.frames - it < fuel) :
    ∃ benignBF next reads,
      trap.getPtr fuel itptr it info = some (benignBF, next, reads) ∧
        ∀ index ∈ reads, index < trap.trace.frames := by
  induction fuel generalizing itptr it info with
  | zero => cases enough
  | succ fuel inductionHypothesis =>
      rw [Settles] at settles
      rw [getPtr]
      dsimp only
      by_cases again : itptr - (trap.dladdr itptr info).fbase = 0x352f0
      · replace settles := settles.resolve_left (not_not.mpr again)
        have inside : it < trap.trace.frames := by
          apply Backtrace.lt_of_framesFrom_ne_nil
          intro none
          rw [none] at settles
          exact settles
        rw [Backtrace.framesFrom_of_lt inside] at settles
        have left : trap.trace.frames - (it + 1) < fuel := by omega
        obtain ⟨benignBF, next, reads, ran, rest⟩ :=
          inductionHypothesis settles left
        refine ⟨benignBF, next, it :: reads, ?_, ?_⟩
        · rw [if_pos again, ran]
          rfl
        · rw [List.forall_mem_cons]
          exact ⟨inside, rest⟩
      · exact ⟨_, _, [], by rw [if_neg again], by simp⟩

theorem callerSettles_of_testCaller
    (runs : trap.testCaller fuel itptr it info = some (benignBF, next, reads))
    (inside : ∀ index ∈ reads, index < trap.trace.frames) :
    trap.CallerSettles info (itptr :: trap.trace.framesFrom it) := by
  intro isLibc
  rw [testCaller, if_pos isLibc] at runs
  exact settles_of_getPtr runs inside

theorem exists_testCaller
    (settles : trap.CallerSettles info (itptr :: trap.trace.framesFrom it))
    (enough : trap.trace.frames - it < fuel) :
    ∃ benignBF next reads,
      trap.testCaller fuel itptr it info = some (benignBF, next, reads) ∧
        ∀ index ∈ reads, index < trap.trace.frames := by
  rw [testCaller]
  split_ifs with isLibc
  · exact exists_getPtr (settles isLibc) enough
  · exact ⟨_, _, [], rfl, by simp⟩

/-- The test of the caller starts inside the frames and settles, in terms of
the frames that are left behind the library. -/
theorem callerSettles_skipPthread_iff :
    (trap.CallerSettles info
          ((trap.skipPthread itptr it).1 ::
            trap.trace.framesFrom (trap.skipPthread itptr it).2.1) ∧
        ∀ index ∈ (trap.skipPthread itptr it).2.2,
          index < trap.trace.frames) ↔
      trap.CallerSettles info
        (if trap.regions.isPthreadLibrary itptr then trap.trace.framesFrom it
          else itptr :: trap.trace.framesFrom it) := by
  rw [skipPthread]
  split_ifs with isPthread
  · rw [List.forall_mem_singleton]
    constructor
    · rintro ⟨settles, inside⟩
      rw [Backtrace.framesFrom_of_lt inside]
      exact settles
    · intro settles
      have inside : it < trap.trace.frames := by
        apply Backtrace.lt_of_framesFrom_ne_nil
        intro none
        rw [none] at settles
        exact settles
      rw [Backtrace.framesFrom_of_lt inside] at settles
      exact ⟨settles, inside⟩
  · exact and_iff_left (List.forall_mem_nil _)

/-- What a walk consists of. -/
theorem walkFrames_eq_some_iff :
    trap.walkFrames fuel info = some (benignBF, next, reads) ↔
      ∃ itptr it skipped searched,
        trap.skipLibrary fuel 0 = some (itptr, it, skipped) ∧
        trap.testCaller fuel (trap.skipPthread itptr it).1
            (trap.skipPthread itptr it).2.1 info =
          some (benignBF, next, searched) ∧
        reads = skipped ++ (trap.skipPthread itptr it).2.2 ++ searched := by
  rw [walkFrames, Option.bind_eq_some_iff]
  constructor
  · rintro ⟨⟨itptr, it, skipped⟩, skips, walks⟩
    obtain ⟨⟨_, _, searched⟩, tests, same⟩ := Option.map_eq_some_iff.mp walks
    simp only [Prod.mk.injEq] at same
    obtain ⟨rfl, rfl, rfl⟩ := same
    exact ⟨itptr, it, skipped, searched, skips, tests, rfl⟩
  · rintro ⟨itptr, it, skipped, searched, skips, tests, rfl⟩
    refine ⟨(itptr, it, skipped), skips, ?_⟩
    dsimp only
    rw [tests]
    rfl

/-- The walk ends inside the frames exactly if it finds a caller. -/
theorem walkFrames_iff (trap : Trap) (info : DlInfo) :
    (∃ fuel benignBF next reads,
        trap.walkFrames fuel info = some (benignBF, next, reads) ∧
          ∀ index ∈ reads, index < trap.trace.frames) ↔
      trap.CallerFound info := by
  constructor
  · rintro ⟨fuel, benignBF, next, reads, runs, inside⟩
    obtain ⟨itptr, it, skipped, searched, skips, tests, rfl⟩ :=
      walkFrames_eq_some_iff.mp runs
    rw [List.forall_mem_append, List.forall_mem_append] at inside
    obtain ⟨⟨skippedInside, steppedInside⟩, searchedInside⟩ := inside
    obtain ⟨le, skippedReads, stops⟩ := stopped_of_skipLibrary skips
    have bound : it ≤ trap.trace.frames := by
      have last := skippedInside (it - 1) (by
        rw [skippedReads, List.mem_range'_1]
        omega)
      omega
    have settles := callerSettles_of_testCaller tests searchedInside
    rw [CallerFound, stops bound]
    exact callerSettles_skipPthread_iff.mp ⟨settles, steppedInside⟩
  · intro found
    have leaves : (trap.trace.framesFrom 0).dropWhile
        trap.regions.isCauserLibrary ≠ [] := by
      intro none
      rw [CallerFound, none] at found
      exact found
    have enough : ∀ it, trap.trace.frames - it < trap.trace.frames + 1 := by
      omega
    obtain ⟨itptr, it, skipped, skips, bound⟩ :=
      exists_skipLibrary leaves (enough 0)
    obtain ⟨le, skippedReads, stops⟩ := stopped_of_skipLibrary skips
    rw [CallerFound, stops bound] at found
    obtain ⟨settles, steppedInside⟩ := callerSettles_skipPthread_iff.mpr found
    obtain ⟨benignBF, next, searched, tests, searchedInside⟩ :=
      exists_testCaller settles (enough _)
    refine ⟨_, benignBF, next, _, walkFrames_eq_some_iff.mpr
      ⟨itptr, it, skipped, searched, skips, tests, rfl⟩, ?_⟩
    rw [List.forall_mem_append, List.forall_mem_append]
    refine ⟨⟨?_, steppedInside⟩, searchedInside⟩
    intro index member
    rw [skippedReads, List.mem_range'_1] at member
    omega

/-- The report reads inside the frames. -/
theorem report_inside_iff
    (trap : Trap) (benignBF : Bool) (it : Nat) (reads : List Nat) :
    (∀ index ∈ (trap.report benignBF it reads).reads,
        index < trap.trace.frames) ↔
      ∀ index ∈ reads, index < trap.trace.frames := by
  rw [report]
  split_ifs with silent
  · rfl
  · rw [List.forall_mem_append, and_iff_left]
    intro index member
    rw [List.mem_range'_1] at member
    omega

/-- `trapHandler` is right exactly if the access is known to be benign or the
walk finds a caller. -/
theorem trapRight_iff (trap : Trap) :
    TrapRight trap ↔
      trap.testAccess.1 = true ∨ trap.CallerFound trap.testAccess.2 := by
  rw [← walkFrames_iff]
  cases access : trap.testAccess.1 with
  | true =>
      have runs : trap.trapHandler 0 = some ⟨true, [], []⟩ := by
        rw [trapHandler]
        dsimp only
        rw [access, if_pos rfl]
      exact iff_of_true ⟨0, _, runs, by simp⟩ (Or.inl rfl)
  | false =>
      have handles : ∀ fuel, trap.trapHandler fuel =
          (trap.walkFrames fuel trap.testAccess.2).map
            fun (benignBF, it, reads) => trap.report benignBF it reads := by
        intro fuel
        rw [trapHandler]
        dsimp only
        rw [access, if_neg Bool.false_ne_true]
      rw [or_iff_right Bool.false_ne_true]
      constructor
      · rintro ⟨fuel, outcome, runs, inside⟩
        rw [handles] at runs
        obtain ⟨⟨benignBF, it, reads⟩, walks, rfl⟩ :=
          Option.map_eq_some_iff.mp runs
        exact ⟨fuel, benignBF, it, reads, walks,
          (report_inside_iff ..).mp inside⟩
      · rintro ⟨fuel, benignBF, it, reads, walks, inside⟩
        refine ⟨fuel, _, ?_, (report_inside_iff trap benignBF it reads).mpr
          inside⟩
        rw [handles, walks]
        rfl

end Trap

/-- `getCallsites` and `trapHandler` stay inside their backtraces exactly if the
one has a frame that is not the library's and the other one, unless it looks at
none, has a caller at which the test settles. -/
theorem framesRight_iff
    (regions : TextRegions) (trace : Backtrace) (trap : Trap) :
    (CallsitesRight regions trace ↔ LeavesLibrary regions trace) ∧
      (TrapRight trap ↔
        trap.testAccess.1 = true ∨ trap.CallerFound trap.testAccess.2) :=
  ⟨callsitesRight_iff regions trace, trap.trapRight_iff⟩

/-- A backtrace of two frames of the library. -/
def libraryTrace : Backtrace := ⟨fun _ => 0x1800, 2⟩

/-- The library and nothing else. -/
def libraryRegions : TextRegions :=
  { TextRegions.initial with causerStart := 0x1000, causerEnd := 0x2000 }

/-- The element behind the two frames is read. -/
theorem not_callsitesRight_libraryTrace :
    ¬CallsitesRight libraryRegions libraryTrace := by
  rw [callsitesRight_iff]
  rintro ⟨frame, member, outside⟩
  have frames : libraryTrace.framesFrom 0 = [0x1800, 0x1800] := rfl
  have inLibrary : libraryRegions.isCauserLibrary 0x1800 = true := by
    decide +kernel
  rw [frames, List.mem_pair, or_self] at member
  rw [member, inLibrary] at outside
  cases outside

end Causer
