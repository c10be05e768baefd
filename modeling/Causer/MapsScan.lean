import Causer.MapsFile
import Causer.ScanMarks

/-!
# The check at exit, from the file to the ratios

`checkAllMemory` reads the file of mappings line by line, and scans a mapping of
data before it reads the next line.  A damaged object stands for the call site
in its guard, and the pointer to that is followed without a look whether it is
`NULL`.  The check comes to an end.  It crashes exactly if one of the damaged
objects has no call site.  Otherwise it has marked all damaged objects in the
mappings of data that it has read, and none besides.  What lies behind a line
whose inode does not fit into an `int` is not checked.
-/

namespace Causer

open ByteMemory WordArithmetic ObjectGuard TextStream

namespace ReadMapping

variable (m : ReadMapping)

/-- What tells data from other memory. -/
def data : DataMapping := ⟨m.toMapping, m.copyOnWrite⟩

/-- The check goes through the words of the mapping. -/
def isScanned : Bool := m.data.isData && !m.data.isStack

/-- The bytes of the mapping. -/
def region : Region := ⟨m.base.toNat, m.limit.toNat - m.base.toNat⟩

end ReadMapping

/-- Where `checkAllMemory` is. -/
inductive CheckPlace
  /-- Before it reads a line. -/
  | reading
  /-- Before a round of the inner loop. -/
  | scanning (it : Nat)
  | ended
  /-- It has followed `NULL`. -/
  | crashed
  deriving DecidableEq

/-- The variables of `checkAllMemory`, the memory, and the marks made. -/
structure CheckState where
  place : CheckPlace
  stream : FileStream
  m : ReadMapping
  memory : Memory
  marks : List Mark

namespace CheckState

/-- The outer loop tests what it has read. -/
def afterLine (state : CheckState) (m : ReadMapping) (stream : FileStream) :
    CheckState :=
  { state with
    place :=
      if stream.failed then .ended
      else if m.isScanned then .scanning m.base.toNat
      else .reading
    stream := stream
    m := m }

/-- A round of one of the loops. -/
def step (locals : MappingLocals) (state : CheckState) : Option CheckState :=
  match state.place with
  | .reading =>
      let (m, stream) := extractMapping locals state.m state.stream
      some (state.afterLine m stream)
  | .scanning it =>
      if it < state.m.limit.toNat then
        if AtHead state.memory it then
          let obj := guardAt it
          if getTailSentinel state.memory obj > state.m.limit.toNat then
            some { state with place := .reading }
          else if isGoodTail state.memory obj then
            -- jump to end
            let it := getTailSentinel state.memory obj &&& allocationMask
            some { state with place := .scanning (add it 8) }
          else
            let cs := getCallstack state.memory obj
            if cs = 0 then some { state with place := .crashed }
            else
              some
                { state with
                  place := .scanning (add it 8)
                  memory := setMaxRatio state.memory cs
                  marks := state.marks ++ [⟨it, cs⟩] }
        else some { state with place := .scanning (add it 8) }
      else some { state with place := .reading }
  | .ended => none
  | .crashed => none

/-- The check begins, with the file and the default mapping. -/
def start (lines : List MapsLine) (m : ReadMapping) (memory : Memory) :
    CheckState where
  place := .reading
  stream := .ofText (printMaps lines)
  m := m
  memory := memory
  marks := []

/-- The state after some marks. -/
def made (state : CheckState) (marks : List Mark) (place : CheckPlace) :
    CheckState :=
  { state with
    place := place
    memory := (marks.map Mark.callstack).foldl setMaxRatio state.memory
    marks := state.marks ++ marks }

variable {state : CheckState} {locals : MappingLocals} {it : Nat}

@[simp] theorem made_nil (place : CheckPlace) :
    state.made [] place = { state with place := place } := by
  simp only [made, List.map_nil, List.foldl_nil, List.append_nil]

theorem made_made (first second : List Mark) (between place : CheckPlace) :
    (state.made first between).made second place =
      state.made (first ++ second) place := by
  simp only [made, List.map_append, List.foldl_append, List.append_assoc]

/-- A line is read. -/
theorem step_reading
    {m : ReadMapping}
    {stream : FileStream}
    (place : state.place = .reading)
    (read : extractMapping locals state.m state.stream = (m, stream)) :
    step locals state = some (state.afterLine m stream) := by
  rw [step, place]
  dsimp only
  rw [read]

theorem afterLine_of_scanned
    {m : ReadMapping}
    {stream : FileStream}
    (good : stream.failed = false)
    (scanned : m.isScanned = true) :
    state.afterLine m stream =
      { { state with stream := stream, m := m } with
        place := .scanning m.base.toNat } := by
  rw [afterLine, good, scanned, if_neg Bool.false_ne_true, if_pos rfl]

theorem afterLine_of_not_scanned
    {m : ReadMapping}
    {stream : FileStream}
    (good : stream.failed = false)
    (skipped : m.isScanned = false) :
    state.afterLine m stream =
      { state with place := .reading, stream := stream, m := m } := by
  rw [afterLine, good, skipped, if_neg Bool.false_ne_true,
    if_neg Bool.false_ne_true]

@[simp] theorem afterLine_marks
    (state : CheckState) (m : ReadMapping) (stream : FileStream) :
    (state.afterLine m stream).marks = state.marks :=
  rfl

theorem afterLine_place_ne
    (state : CheckState) (m : ReadMapping) (stream : FileStream) :
    (state.afterLine m stream).place ≠ .crashed := by
  rw [afterLine]
  dsimp only
  split_ifs <;> simp

/-- Behind the end of the mapping the next line is read. -/
theorem step_beyond
    (beyond : ¬it < state.m.limit.toNat) :
    step locals { state with place := .scanning it } =
      some { state with place := .reading } := by
  exact if_neg beyond

/-- A round of a scan without stores, with what its mark does to the state. -/
def round (state : CheckState) (it : Nat) : CheckState :=
  if ∃ mark ∈ marksAt state.memory state.m.limit.toNat it,
      mark.callstack = 0 then
    { state with place := .crashed }
  else
    state.made (marksAt state.memory state.m.limit.toNat it)
      ((scanNext state.memory state.m.limit.toNat it).elim .reading .scanning)

theorem round_of_sound
    (sound : ¬DamagedAt state.memory state.m.limit.toNat it) :
    state.round it =
      { state with
        place := (scanNext state.memory state.m.limit.toNat it).elim .reading
          .scanning } := by
  rw [round, marksAt_of_not sound, if_neg (by simp), made_nil]

/-- A round of the inner loop goes on where a scan without stores does, and
makes its mark, unless that has no call site. -/
theorem step_inside
    (inside : it < state.m.limit.toNat) :
    step locals { state with place := .scanning it } =
      some (state.round it) := by
  simp only [step]
  rw [if_pos inside]
  by_cases head : AtHead state.memory it
  · rw [if_pos head]
    by_cases beyond :
        getTailSentinel state.memory (guardAt it) > state.m.limit.toNat
    · have sound : ¬DamagedAt state.memory state.m.limit.toNat it :=
        fun damaged => absurd damaged.inside (Nat.not_le_of_gt beyond)
      rw [if_pos beyond, round_of_sound sound, scanNext, if_pos head,
        if_pos beyond]
      rfl
    · rw [if_neg beyond]
      cases tail : isGoodTail state.memory (guardAt it) with
      | true =>
          have sound : ¬DamagedAt state.memory state.m.limit.toNat it := by
            intro damaged
            have lost := damaged.tail
            rw [tail] at lost
            cases lost
          rw [if_pos rfl, round_of_sound sound, scanNext, if_pos head,
            if_neg beyond, if_pos tail]
          rfl
      | false =>
          have damaged : DamagedAt state.memory state.m.limit.toNat it :=
            ⟨head, Nat.le_of_not_gt beyond, tail⟩
          have marks : marksAt state.memory state.m.limit.toNat it =
              [⟨it, getCallstack state.memory (guardAt it)⟩] :=
            if_pos damaged
          have next : scanNext state.memory state.m.limit.toNat it =
              some (add it 8) := by
            rw [scanNext, if_pos head, if_neg beyond, tail,
              if_neg Bool.false_ne_true]
          rw [if_neg Bool.false_ne_true, round, marks, next]
          simp only [List.mem_singleton, exists_eq_left, Option.elim_some,
            made, List.map_cons, List.map_nil, List.foldl_cons,
            List.foldl_nil]
          split_ifs <;> rfl
  · rw [if_neg head, round_of_sound fun damaged => head damaged.head,
      scanNext, if_neg head]
    rfl

end CheckState

/-! ## Objects in several mappings -/

/-- The objects of a list that lie in a mapping. -/
def guardsIn (memory : Memory) (guards : List Nat) (m : ReadMapping) :
    List Nat :=
  guards.filter fun guard =>
    decide ((guardedSpan memory guard).Within m.region)

/-- The mark is that of a damaged object. -/
def MarksObject (memory : Memory) (guards : List Nat) (mark : Mark) : Prop :=
  ∃ guard ∈ guards, Damaged memory guard ∧
    mark = ⟨guard + 24, getCallstack memory guard⟩

/-- The ratio of a call site is no part of a guard or a tail word. -/
structure SiteApart (memory : Memory) (guards : List Nat) (callstack : Nat) :
    Prop where
  aligned : 8 ∣ callstack
  apart : ∀ guard ∈ guards,
    (ratioOf callstack).Apart ⟨guard, 32⟩ ∧
      (ratioOf callstack).Apart
        (wordAt (guard + 32 + getObjectSize memory guard))

/-- Guarded objects lie in the mappings that are scanned, no other word of which
is a head sentinel.  The ratios of the call sites that may be marked are not
among their guards and tail words. -/
structure Furnished (memory : Memory) (maps : List ReadMapping)
    (guards : List Nat) : Prop where
  whole : ∀ m ∈ maps, m.isScanned = true →
    8 ∣ m.base.toNat ∧ m.limit.toNat + 8 ≤ 2 ^ 64
  strewn : ∀ m ∈ maps, m.isScanned = true →
    Strewn memory m.base.toNat m.limit.toNat (guardsIn memory guards m)
  sites : ∀ guard ∈ guards, Damaged memory guard →
    getCallstack memory guard ≠ 0 →
    SiteApart memory guards (getCallstack memory guard)

/-- Memory in which ratios have been set: in no mapping has a guard
changed. -/
def KeepsGuards (memory other : Memory) (maps : List ReadMapping)
    (guards : List Nat) : Prop :=
  ∀ m ∈ maps, m.isScanned = true →
    SameGuards memory other m.base.toNat m.limit.toNat
      (guardsIn memory guards m)

/-- The mark is that of a damaged object in a mapping that is scanned. -/
def MarksIn (memory : Memory) (guards : List Nat) (maps : List ReadMapping)
    (mark : Mark) : Prop :=
  ∃ m ∈ maps, m.isScanned = true ∧
    MarksObject memory (guardsIn memory guards m) mark

/-- How the inner loop comes out from a position of a mapping: it leaves the
mapping with the marks of a scan of memory that does not change, or crashes at
one that has no call site. -/
inductive ScanOutcome (locals : MappingLocals) (memory : Memory)
    (inside : List Nat) (it : Nat) (state : CheckState) : Prop
  | left
      (made : List Mark)
      (comes : Iteration.Comes (CheckState.step locals)
        { state with place := .scanning it } (state.made made .reading))
      (recorded : ∀ mark ∈ made, mark.callstack ≠ 0)
      (scan : SteadyScan memory state.m.limit.toNat it made)
  | crashed
      (made : List Mark)
      (null : Mark)
      (comes : Iteration.Comes (CheckState.step locals)
        { state with place := .scanning it } (state.made made .crashed))
      (real : ∀ mark ∈ made, MarksObject memory inside mark)
      (isMark : MarksObject memory inside null)
      (isNull : null.callstack = 0)

/-- How the check comes out from a state: with all the marks of a kind, or with
some of them, at one that has no call site. -/
inductive CheckOutcome (locals : MappingLocals) (marked : Mark → Prop)
    (state : CheckState) : Prop
  | ended
      (made : List Mark)
      (final : CheckState)
      (comes : Iteration.Comes (CheckState.step locals) state final)
      (place : final.place = .ended)
      (marks : final.marks = state.marks ++ made)
      (memory : final.memory =
        (made.map Mark.callstack).foldl setMaxRatio state.memory)
      (recorded : ∀ mark ∈ made, mark.callstack ≠ 0)
      (all : ∀ mark, mark ∈ made ↔ marked mark)
  | crashed
      (made : List Mark)
      (null : Mark)
      (final : CheckState)
      (comes : Iteration.Comes (CheckState.step locals) state final)
      (place : final.place = .crashed)
      (marks : final.marks = state.marks ++ made)
      (real : ∀ mark ∈ made, marked mark)
      (isMark : marked null)
      (isNull : null.callstack = 0)

section

variable {memory other : Memory} {maps : List ReadMapping}
  {guards inside : List Nat} {base limit it callstack : Nat}
  {m : ReadMapping} {mark : Mark} {locals : MappingLocals}
  {state : CheckState}

theorem mem_guardsIn
    {guard : Nat} :
    guard ∈ guardsIn memory guards m ↔
      guard ∈ guards ∧ (guardedSpan memory guard).Within m.region := by
  rw [guardsIn, List.mem_filter, decide_eq_true_eq]

/-- Setting a ratio that lies apart changes no guard. -/
theorem SameGuards.setRatio
    (same : SameGuards memory other base limit inside)
    (among : ∀ guard ∈ inside, guard ∈ guards)
    (site : SiteApart memory guards callstack) :
    SameGuards memory (Causer.setMaxRatio other callstack) base limit
      inside where
  guard := fun guard member =>
    (same.guard guard member).trans
      (setMaxRatio_agrees (site.apart guard (among guard member)).1)
  tail := fun guard member =>
    (same.tail guard member).trans
      (setMaxRatio_agrees (site.apart guard (among guard member)).2)
  heads := by
    intro it above below aligned head
    have apart := setMaxRatio_ne_head aligned site.aligned head
    exact same.heads it above below aligned
      ((readWord_congr (setMaxRatio_agrees apart)).symm.trans head)

theorem KeepsGuards.setRatios
    {sites : List Nat}
    (kept : KeepsGuards memory other maps guards)
    (apart : ∀ site ∈ sites, SiteApart memory guards site) :
    KeepsGuards memory (sites.foldl setMaxRatio other) maps guards := by
  induction sites generalizing other with
  | nil => exact kept
  | cons site sites inductionHypothesis =>
      rw [List.forall_mem_cons] at apart
      apply inductionHypothesis _ apart.2
      intro m member scanned
      exact (kept m member scanned).setRatio
        (fun guard within => (mem_guardsIn.mp within).1) apart.1

/-- What comes out from the next position comes out from the one before. -/
theorem ScanOutcome.earlier
    {following : Nat}
    (below : it < state.m.limit.toNat)
    (goesOn : scanNext memory state.m.limit.toNat it = some following)
    (stepped : CheckState.step locals { state with place := .scanning it } =
      some (state.made (marksAt memory state.m.limit.toNat it)
        (.scanning following)))
    (real : ∀ mark ∈ marksAt memory state.m.limit.toNat it,
      MarksObject memory inside mark)
    (recorded : ∀ mark ∈ marksAt memory state.m.limit.toNat it,
      mark.callstack ≠ 0)
    (later : ScanOutcome locals memory inside following
      (state.made (marksAt memory state.m.limit.toNat it)
        (.scanning following))) :
    ScanOutcome locals memory inside it state := by
  cases later with
  | left others comes othersRecorded scan =>
      rw [CheckState.made_made] at comes
      exact .left _ (.head stepped comes)
        (List.forall_mem_append.mpr ⟨recorded, othersRecorded⟩)
        (.next below goesOn scan)
  | crashed others null comes othersReal isMark isNull =>
      rw [CheckState.made_made] at comes
      exact .crashed _ null (.head stepped comes)
        (List.forall_mem_append.mpr ⟨real, othersReal⟩) isMark isNull

namespace Furnished

variable (furnished : Furnished memory maps guards)

include furnished

/-- The call sites of the marks of objects lie apart from all guards. -/
theorem siteApart
    (marks : MarksObject memory (guardsIn memory guards m) mark)
    (recorded : mark.callstack ≠ 0) :
    SiteApart memory guards mark.callstack := by
  obtain ⟨guard, member, damaged, rfl⟩ := marks
  exact furnished.sites guard (mem_guardsIn.mp member).1 damaged recorded

variable (member : m ∈ maps) (scanned : m.isScanned = true)

include member scanned

/-- The marks of the scan of a mapping are those of its damaged objects. -/
theorem mem_scan_iff
    {made : List Mark}
    (scan : SteadyScan memory m.limit.toNat m.base.toNat made)
    (mark : Mark) :
    mark ∈ made ↔ MarksObject memory (guardsIn memory guards m) mark :=
  (furnished.strewn m member scanned).mem_marks_iff
    (furnished.whole m member scanned).1 (furnished.whole m member scanned).2
    scan mark

/-- A mark that is made on the way is that of an object. -/
theorem marksObject_of_marksAt
    (reached :
      Iteration.Comes (scanRound memory m.limit.toNat) m.base.toNat it)
    (below : it < m.limit.toNat)
    (isMark : mark ∈ marksAt memory m.limit.toNat it) :
    MarksObject memory (guardsIn memory guards m) mark := by
  obtain ⟨made, scan⟩ := exists_steadyScan
    ((furnished.strewn m member scanned).ends
      (furnished.whole m member scanned).1
      (furnished.whole m member scanned).2)
  rw [← furnished.mem_scan_iff member scanned scan, scan.mem_iff]
  exact ⟨it, reached, below, isMark⟩

/-- From every position on its way the inner loop comes out. -/
theorem scan_comes_out
    (ends : Iteration.Ends (scanRound memory m.limit.toNat) it)
    (reached :
      Iteration.Comes (scanRound memory m.limit.toNat) m.base.toNat it)
    (reads : state.m = m)
    (kept : KeepsGuards memory state.memory maps guards) :
    ScanOutcome locals memory (guardsIn memory guards m) it state := by
  induction ends generalizing state with
  | intro it _ inductionHypothesis =>
      subst reads
      have strewn := furnished.strewn state.m member scanned
      obtain ⟨baseAligned, limitLe⟩ :=
        furnished.whole state.m member scanned
      by_cases inside : it < state.m.limit.toNat
      · have aligned := aligned_of_comes baseAligned reached
        obtain ⟨sameNext, sameMarks⟩ :=
          (kept state.m member scanned).scan_eq strewn (by omega)
            (strewn.base_le baseAligned limitLe reached) inside aligned
        have stepped : CheckState.step locals
            { state with place := .scanning it } = some (state.round it) :=
          CheckState.step_inside inside
        rw [CheckState.round, sameNext, sameMarks] at stepped
        have real : ∀ mark ∈ marksAt memory state.m.limit.toNat it,
            MarksObject memory (guardsIn memory guards state.m) mark :=
          fun mark made =>
            furnished.marksObject_of_marksAt member scanned reached inside
              made
        by_cases null : ∃ mark ∈ marksAt memory state.m.limit.toNat it,
            mark.callstack = 0
        · rw [if_pos null] at stepped
          obtain ⟨mark, made, isNull⟩ := null
          refine .crashed [] mark ?_ (List.forall_mem_nil _)
            (real mark made) isNull
          rw [CheckState.made_nil]
          exact .single stepped
        · have recorded : ∀ mark ∈ marksAt memory state.m.limit.toNat it,
              mark.callstack ≠ 0 :=
            fun mark made isNull => null ⟨mark, made, isNull⟩
          rw [if_neg null] at stepped
          cases leads : scanNext memory state.m.limit.toNat it with
          | none =>
              rw [leads, marksAt_of_scanNext_eq_none leads] at stepped
              exact .left [] (.single stepped) (List.forall_mem_nil _)
                (.breaks inside leads)
          | some following =>
              have round : scanRound memory state.m.limit.toNat it =
                  some following :=
                (if_pos inside).trans leads
              rw [leads] at stepped
              refine .earlier inside leads stepped real recorded
                (inductionHypothesis following round (reached.tail round)
                  rfl (kept.setRatios fun site isSite => ?_))
              obtain ⟨mark, made, rfl⟩ := List.mem_map.mp isSite
              exact furnished.siteApart (real mark made)
                (recorded mark made)
      · refine .left [] ?_ (List.forall_mem_nil _) (.beyond inside)
        rw [CheckState.made_nil]
        exact .single (CheckState.step_beyond inside)

end Furnished

/-- What comes out after some marks comes out before them. -/
theorem CheckOutcome.earlier
    {first later : Mark → Prop}
    {next : CheckState}
    {made : List Mark}
    (comes : Iteration.Comes (CheckState.step locals) state next)
    (madeMarks : next.marks = state.marks ++ made)
    (madeRatios : next.memory =
      (made.map Mark.callstack).foldl setMaxRatio state.memory)
    (recorded : ∀ mark ∈ made, mark.callstack ≠ 0)
    (all : ∀ mark, mark ∈ made ↔ first mark)
    (outcome : CheckOutcome locals later next) :
    CheckOutcome locals (fun mark => first mark ∨ later mark) state := by
  cases outcome with
  | ended others final onwards place marks ratios othersRecorded othersAll =>
      refine .ended (made ++ others) final (comes.trans onwards) place ?_ ?_
        (List.forall_mem_append.mpr ⟨recorded, othersRecorded⟩)
        fun mark => ?_
      · rw [marks, madeMarks, List.append_assoc]
      · rw [ratios, madeRatios, List.map_append, List.foldl_append]
      · rw [List.mem_append, all, othersAll]
  | crashed others null final onwards place marks real isMark isNull =>
      refine .crashed (made ++ others) null final (comes.trans onwards) place
        ?_ (fun mark member => ?_) (Or.inr isMark) isNull
      · rw [marks, madeMarks, List.append_assoc]
      · exact (List.mem_append.mp member).imp (all mark).mp (real mark)

theorem marksIn_cons :
    MarksIn memory guards (m :: maps) = fun mark =>
      (m.isScanned = true ∧
        MarksObject memory (guardsIn memory guards m) mark) ∨
        MarksIn memory guards maps mark := by
  funext mark
  simp [MarksIn]

/-- Where no line can be read the check ends. -/
theorem check_ends_at
    (place : state.place = .reading)
    (failed :
      (extractMapping locals state.m state.stream).2.failed = true) :
    CheckOutcome locals (MarksIn memory guards []) state := by
  refine .ended [] (state.afterLine _ _)
    (.single (CheckState.step_reading place rfl)) ?_ (List.append_nil _).symm
    rfl (List.forall_mem_nil _) fun mark => ?_
  · exact if_pos failed
  · simp [MarksIn]

/-- From every line on the check comes out. -/
theorem Furnished.check_comes_out
    {lines : List MapsLine}
    (furnished : Furnished memory maps guards)
    (among : ∀ line ∈ readLines lines, line.mapping ∈ maps)
    (place : state.place = .reading)
    (stream : state.stream = .ofText (printMaps lines))
    (kept : KeepsGuards memory state.memory maps guards) :
    CheckOutcome locals
      (MarksIn memory guards ((readLines lines).map MapsLine.mapping))
      state := by
  induction lines generalizing state with
  | nil =>
      apply check_ends_at place
      rw [stream]
      exact failed_extractMapping_nil locals state.m
  | cons line lines inductionHypothesis =>
      by_cases fits : line.InodeFits
      · have split : readLines (line :: lines) = line :: readLines lines :=
          List.takeWhile_cons_of_pos (decide_eq_true fits)
        rw [split, List.forall_mem_cons] at among
        obtain ⟨member, among⟩ := among
        have read : extractMapping locals state.m state.stream =
            (line.mapping, .ofText (printMaps lines)) := by
          rw [stream]
          exact line.extractMapping_print_of_inodeFits _ fits locals state.m
        have good : (FileStream.ofText (printMaps lines)).failed = false :=
          FileStream.failed_ofText _
        have stepped := CheckState.step_reading place read
        rw [split, List.map_cons, marksIn_cons]
        cases scanned : line.mapping.isScanned with
        | false =>
            rw [CheckState.afterLine_of_not_scanned good scanned] at stepped
            exact .earlier (.single stepped) (List.append_nil _).symm rfl
              (List.forall_mem_nil _) (by simp)
              (inductionHypothesis among rfl rfl kept)
        | true =>
            obtain ⟨baseAligned, limitLe⟩ :=
              furnished.whole line.mapping member scanned
            have ends :=
              (furnished.strewn line.mapping member scanned).ends baseAligned
                limitLe
            rw [CheckState.afterLine_of_scanned good scanned] at stepped
            have outcome : ScanOutcome locals memory
                (guardsIn memory guards line.mapping)
                line.mapping.base.toNat
                { state with
                  stream := .ofText (printMaps lines), m := line.mapping } :=
              furnished.scan_comes_out member scanned ends .refl rfl kept
            cases outcome with
            | left made comes recorded scan =>
                have all := furnished.mem_scan_iff member scanned scan
                refine .earlier (.head stepped comes) rfl rfl recorded
                  (fun mark => (all mark).trans (by simp))
                  (inductionHypothesis among rfl rfl (kept.setRatios ?_))
                intro site isSite
                obtain ⟨mark, isMade, rfl⟩ := List.mem_map.mp isSite
                exact furnished.siteApart ((all mark).mp isMade)
                  (recorded mark isMade)
            | crashed made null comes real isMark isNull =>
                exact .crashed made null _ (.head stepped comes) rfl rfl
                  (fun mark isMade => Or.inl ⟨rfl, real mark isMade⟩)
                  (Or.inl ⟨rfl, isMark⟩) isNull
      · have split : readLines (line :: lines) = [] :=
          List.takeWhile_cons_of_neg (by simpa using fits)
        rw [split]
        apply check_ends_at place
        rw [stream]
        exact line.failed_extractMapping_print _ fits locals state.m

end

/-- The object lies in a mapping of data whose line is read, with an intact head
word and a damaged tail word. -/
structure Exposed (memory : Memory) (guards : List Nat)
    (lines : List MapsLine) (guard : Nat) : Prop where
  listed : guard ∈ guards
  seen : ∃ line ∈ readLines lines, line.mapping.isScanned = true ∧
    (guardedSpan memory guard).Within line.mapping.region
  damaged : Damaged memory guard

/-- The check has stopped, and it has crashed exactly if an exposed object has no
call site.  If it has not, the ratios of the call sites of exposed objects are
set, and no others. -/
structure CheckedAll (memory : Memory) (guards : List Nat)
    (lines : List MapsLine) (final : CheckState) : Prop where
  stopped : final.place = .ended ∨ final.place = .crashed
  crashed_iff : final.place = .crashed ↔
    ∃ guard, Exposed memory guards lines guard ∧
      getCallstack memory guard = 0
  real : ∀ mark ∈ final.marks, ∃ guard, Exposed memory guards lines guard ∧
    mark = ⟨guard + 24, getCallstack memory guard⟩
  complete : final.place = .ended →
    ∀ guard, Exposed memory guards lines guard →
      ⟨guard + 24, getCallstack memory guard⟩ ∈ final.marks
  ratios : final.place = .ended →
    ∀ guard, Exposed memory guards lines guard →
      watchedRatioAt final.memory (getCallstack memory guard) =
        maxWatchRatioUpperbound.toNat
  others : final.place = .ended → ∀ callstack, 8 ∣ callstack →
    (∀ guard, Exposed memory guards lines guard →
      getCallstack memory guard ≠ callstack) →
    watchedRatioAt final.memory callstack = watchedRatioAt memory callstack

section

variable {memory : Memory} {guards : List Nat} {lines : List MapsLine}

/-- The marks in the mappings that are read are those of exposed objects. -/
theorem marksIn_iff
    {mark : Mark} :
    MarksIn memory guards ((readLines lines).map MapsLine.mapping) mark ↔
      ∃ guard, Exposed memory guards lines guard ∧
        mark = ⟨guard + 24, getCallstack memory guard⟩ := by
  constructor
  · rintro ⟨m, member, scanned, guard, within, damaged, rfl⟩
    obtain ⟨line, isRead, rfl⟩ := List.mem_map.mp member
    obtain ⟨listed, inside⟩ := mem_guardsIn.mp within
    exact ⟨guard, ⟨listed, ⟨line, isRead, scanned, inside⟩, damaged⟩, rfl⟩
  · rintro ⟨guard, ⟨listed, ⟨line, isRead, scanned, inside⟩, damaged⟩, rfl⟩
    exact ⟨line.mapping, List.mem_map_of_mem isRead, scanned, guard,
      mem_guardsIn.mpr ⟨listed, inside⟩, damaged, rfl⟩

section

variable {state final : CheckState} {locals : MappingLocals}
  {made : List Mark}
  (furnished :
    Furnished memory ((readLines lines).map MapsLine.mapping) guards)

include furnished

/-- A check that comes to its end with the marks of all exposed objects has set
their ratios. -/
theorem Furnished.checkedAll_of_ended
    (place : final.place = .ended)
    (marks : final.marks = made)
    (ratios : final.memory =
      (made.map Mark.callstack).foldl setMaxRatio memory)
    (recorded : ∀ mark ∈ made, mark.callstack ≠ 0)
    (all : ∀ mark, mark ∈ made ↔
      ∃ guard, Exposed memory guards lines guard ∧
        mark = ⟨guard + 24, getCallstack memory guard⟩) :
    CheckedAll memory guards lines final := by
  have isMade : ∀ guard, Exposed memory guards lines guard →
      ⟨guard + 24, getCallstack memory guard⟩ ∈ made :=
    fun guard exposed => (all _).mpr ⟨guard, exposed, rfl⟩
  have siteOf : ∀ site ∈ made.map Mark.callstack,
      ∃ guard, Exposed memory guards lines guard ∧
        getCallstack memory guard = site ∧ 8 ∣ site := by
    intro site isSite
    obtain ⟨mark, member, rfl⟩ := List.mem_map.mp isSite
    obtain ⟨guard, exposed, rfl⟩ := (all mark).mp member
    exact ⟨guard, exposed, rfl,
      (furnished.sites guard exposed.listed exposed.damaged
        (recorded _ member)).aligned⟩
  have ratio : ∀ callstack, 8 ∣ callstack →
      watchedRatioAt final.memory callstack =
        if callstack ∈ made.map Mark.callstack then
          maxWatchRatioUpperbound.toNat
        else watchedRatioAt memory callstack := by
    intro callstack aligned
    rw [ratios]
    refine watchedRatioAt_setMaxRatios (fun site isSite => ?_) aligned
    obtain ⟨_, _, _, siteAligned⟩ := siteOf site isSite
    exact siteAligned
  refine ⟨Or.inl place, iff_of_false (by rw [place]; decide) ?_, ?_, ?_, ?_,
    ?_⟩
  · rintro ⟨guard, exposed, null⟩
    exact recorded _ (isMade guard exposed) null
  · intro mark member
    rw [marks] at member
    exact (all mark).mp member
  · intro _ guard exposed
    rw [marks]
    exact isMade guard exposed
  · intro _ guard exposed
    have isSite : getCallstack memory guard ∈ made.map Mark.callstack :=
      List.mem_map_of_mem (isMade guard exposed)
    obtain ⟨_, _, _, aligned⟩ := siteOf _ isSite
    rw [ratio _ aligned, if_pos isSite]
  · intro _ callstack aligned sound
    rw [ratio callstack aligned, if_neg]
    intro isSite
    obtain ⟨guard, exposed, site, _⟩ := siteOf callstack isSite
    exact sound guard exposed site

/-- However the check comes out, it has stopped, with what it should have
found. -/
theorem Furnished.checked
    (outcome : CheckOutcome locals
      (MarksIn memory guards ((readLines lines).map MapsLine.mapping)) state)
    (sameMemory : state.memory = memory)
    (noMarks : state.marks = []) :
    ∃ final,
      Iteration.Comes (CheckState.step locals) state final ∧
        CheckState.step locals final = none ∧
        CheckedAll memory guards lines final := by
  cases outcome with
  | ended made final comes place marks ratios recorded all =>
      rw [noMarks] at marks
      rw [sameMemory] at ratios
      exact ⟨final, comes, by rw [CheckState.step, place],
        furnished.checkedAll_of_ended place marks ratios recorded
          fun mark => (all mark).trans marksIn_iff⟩
  | crashed made null final comes place marks real isMark isNull =>
      obtain ⟨guard, exposed, rfl⟩ := marksIn_iff.mp isMark
      have running : final.place ≠ .ended := by
        rw [place]
        decide
      refine ⟨final, comes, by rw [CheckState.step, place], Or.inr place,
        iff_of_true place ⟨guard, exposed, isNull⟩, ?_,
        fun ended => absurd ended running, fun ended => absurd ended running,
        fun ended => absurd ended running⟩
      intro mark member
      rw [marks, noMarks] at member
      exact marksIn_iff.mp (real mark member)

/-- So it is with the check from its beginning. -/
theorem Furnished.start_comes_out
    (m : ReadMapping) :
    CheckOutcome locals
      (MarksIn memory guards ((readLines lines).map MapsLine.mapping))
      (CheckState.start lines m memory) :=
  furnished.check_comes_out
    (fun _ isRead => List.mem_map_of_mem isRead) rfl rfl
    fun _ _ _ => .refl

end

/-- At exit the check stops.  It crashes exactly if a damaged object in a data
mapping of the lines that are read has no call site, and otherwise sets the
ratios of the call sites of all these objects, and no others. -/
theorem check_marks_exposed
    (furnished :
      Furnished memory ((readLines lines).map MapsLine.mapping) guards)
    (locals : MappingLocals) (m : ReadMapping) :
    ∃ final,
      Iteration.Comes (CheckState.step locals)
          (CheckState.start lines m memory) final ∧
        CheckState.step locals final = none ∧
        CheckedAll memory guards lines final :=
  furnished.checked (furnished.start_comes_out m) rfl rfl

end

/-- Memory with one object at `2 ^ 32 + 48`, of 24 bytes and with the given
call site, past whose end a word has been written. -/
def overrunMemory (callstack : Nat) : Memory :=
  let guarded :=
    ObjectGuard.construct (fun _ => 0) (2 ^ 32 + 16) (2 ^ 32 + 16) 24
  writeWord (setCallstack guarded (2 ^ 32 + 16) callstack) (2 ^ 32 + 72) 0

/-- The line of a mapping of data without a file. -/
def dataLine (base limit : Word) : MapsLine where
  base := ⟨0, base⟩
  limit := ⟨0, limit⟩
  readable := true
  writable := true
  executable := false
  copyOnWrite := true
  offset := ⟨7, 0⟩
  devMajor := ⟨1, 0⟩
  devMinor := ⟨1, 0⟩
  inode := 0
  blanks := []
  path := []
  blanks_blank := List.forall_mem_nil _
  separated := fun some => absurd rfl some
  path_head := by simp
  path_line := by simp

/-- A library, data, a library with an inode of 32 bits, and more data. -/
def checkedLines : List MapsLine :=
  [libraryLine 0x1000 5, dataLine (2 ^ 32) (2 ^ 32 + 96),
    libraryLine 0x3000 0x80000000, dataLine (2 ^ 33) (2 ^ 33 + 96)]

theorem readLines_checkedLines :
    readLines checkedLines =
      [libraryLine 0x1000 5, dataLine (2 ^ 32) (2 ^ 32 + 96)] :=
  rfl

section

variable {memory : Memory} {callstack : Nat}
  (words : ∀ index < 12,
    readWord memory (2 ^ 32 + 8 * index) = sentinelHeadWord → index = 5)
  (size : getObjectSize memory (2 ^ 32 + 16) = 24)
  (site : getCallstack memory (2 ^ 32 + 16) = callstack)

include words size

/-- The object at `2 ^ 32 + 48` is the only one in the mapping. -/
theorem strewn_checkedLines :
    Strewn memory (2 ^ 32) (2 ^ 32 + 96)
      [2 ^ 32 + 16] := by
  refine ⟨?_, by decide, by simp, fun it above below aligned head => ?_⟩
  · rw [List.forall_mem_singleton, guardedSpan, size]
    decide
  · obtain ⟨index, rfl⟩ : ∃ index, it = 2 ^ 32 + 8 * index :=
      ⟨(it - 2 ^ 32) / 8, by omega⟩
    obtain rfl := words index (by omega) head
    exact ⟨_, List.mem_singleton_self _, rfl⟩

include site

/-- So are the mappings that are read, with a call site behind them. -/
theorem furnished_checkedLines
    (behind : callstack ≠ 0 → 8 ∣ callstack ∧ 2 ^ 32 + 96 ≤ callstack) :
    Furnished memory
      ((readLines checkedLines).map MapsLine.mapping) [2 ^ 32 + 16] := by
  have mapped : ∀ m ∈ (readLines checkedLines).map MapsLine.mapping,
      m.isScanned = true →
      m = (dataLine (2 ^ 32) (2 ^ 32 + 96)).mapping := by
    rw [readLines_checkedLines]
    decide
  have within : guardsIn memory [2 ^ 32 + 16]
      (dataLine (2 ^ 32) (2 ^ 32 + 96)).mapping = [2 ^ 32 + 16] := by
    apply List.filter_eq_self.mpr
    rw [List.forall_mem_singleton, decide_eq_true_eq, guardedSpan, size]
    decide
  constructor
  · intro m member scanned
    obtain rfl := mapped m member scanned
    decide
  · intro m member scanned
    obtain rfl := mapped m member scanned
    rw [within]
    exact strewn_checkedLines words size
  · intro guard member _ recorded
    obtain rfl := List.mem_singleton.mp member
    rw [site] at recorded ⊢
    obtain ⟨aligned, above⟩ := behind recorded
    refine ⟨aligned, ?_⟩
    rw [List.forall_mem_singleton, size]
    simp only [Region.Apart]
    omega

end

/-- With a call site behind the mappings its ratio is set, and without one the
check crashes. -/
theorem check_marks_exposed_checkedLines :
    (∃ final,
      Iteration.Comes (CheckState.step zeroLocals)
          (CheckState.start checkedLines invalidMapping
            (overrunMemory (2 ^ 33))) final ∧
        final.place = .ended ∧
        watchedRatioAt final.memory (2 ^ 33) = 10000) ∧
      ∃ final,
        Iteration.Comes (CheckState.step zeroLocals)
            (CheckState.start checkedLines invalidMapping (overrunMemory 0))
            final ∧
          final.place = .crashed := by
  have exposed : ∀ callstack,
      getObjectSize (overrunMemory callstack) (2 ^ 32 + 16) = 24 →
      Damaged (overrunMemory callstack) (2 ^ 32 + 16) →
      Exposed (overrunMemory callstack) [2 ^ 32 + 16] checkedLines
        (2 ^ 32 + 16) := by
    intro callstack size damaged
    refine ⟨List.mem_singleton_self _,
      ⟨dataLine (2 ^ 32) (2 ^ 32 + 96), by simp [readLines_checkedLines],
        by decide, ?_⟩, damaged⟩
    rw [guardedSpan, size]
    decide
  constructor
  · have site : getCallstack (overrunMemory (2 ^ 33)) (2 ^ 32 + 16) =
        2 ^ 33 := by
      decide +kernel
    have size : getObjectSize (overrunMemory (2 ^ 33)) (2 ^ 32 + 16) = 24 := by
      decide +kernel
    have isExposed := exposed (2 ^ 33) size
      ⟨by decide +kernel, by decide +kernel⟩
    obtain ⟨final, comes, -, checked⟩ :=
      check_marks_exposed
        (furnished_checkedLines (by decide +kernel) size site (by decide))
        zeroLocals invalidMapping
    have ended : final.place = .ended := by
      refine checked.stopped.resolve_right fun crashed => ?_
      obtain ⟨guard, guardExposed, null⟩ := checked.crashed_iff.mp crashed
      obtain rfl := List.mem_singleton.mp guardExposed.listed
      rw [site] at null
      contradiction
    have ratio := checked.ratios ended _ isExposed
    rw [site] at ratio
    exact ⟨final, comes, ended, ratio⟩
  · have site : getCallstack (overrunMemory 0) (2 ^ 32 + 16) = 0 := by
      decide +kernel
    have size : getObjectSize (overrunMemory 0) (2 ^ 32 + 16) = 24 := by
      decide +kernel
    have isExposed := exposed 0 size ⟨by decide +kernel, by decide +kernel⟩
    obtain ⟨final, comes, -, checked⟩ :=
      check_marks_exposed
        (furnished_checkedLines (by decide +kernel) size site (by decide))
        zeroLocals invalidMapping
    exact ⟨final, comes, checked.crashed_iff.mpr ⟨_, isExposed, site⟩⟩

end Causer
