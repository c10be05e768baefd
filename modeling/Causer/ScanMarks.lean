import Causer.ExitScan

/-!
# What the scan marks

When guarded objects lie apart from each other in a mapping and no other word
of it is a head sentinel, the scan of the mapping ends and marks the call sites
of exactly those objects whose head word is intact and whose tail word is
damaged.  The ratios of call sites may lie in the mapping as well.  They change
while it is scanned, but that neither makes a head nor spoils one.
-/

namespace Causer

open ByteMemory WordArithmetic ObjectGuard

section

variable {memory : Memory} {callstack : Nat}

theorem setMaxRatio_agrees
    {region : Region}
    (apart : (ratioOf callstack).Apart region) :
    AgreesOn region memory (setMaxRatio memory callstack) :=
  agreesOn_blit memory _ apart

theorem watchedRatioAt_setMaxRatio :
    watchedRatioAt (setMaxRatio memory callstack) callstack =
      maxWatchRatioUpperbound.toNat := by
  have bytes : ∀ index < 4,
      setMaxRatio memory callstack (callstack + 12 + index) =
        byteOf maxWatchRatioUpperbound.toNat index :=
    fun index indexLt =>
      blit_of_lt memory (byteOf maxWatchRatioUpperbound.toNat)
        (show index < (ratioOf callstack).length from indexLt)
  rw [watchedRatioAt, readBytes_of_bytes bytes]
  rfl

/-- A word with a ratio in it is no head sentinel. -/
theorem setMaxRatio_ne_head
    {it : Nat}
    (aligned : 8 ∣ it)
    (siteAligned : 8 ∣ callstack)
    (head : readWord (setMaxRatio memory callstack) it = sentinelHeadWord) :
    (ratioOf callstack).Apart (wordAt it) := by
  by_contra overlaps
  have same : it = callstack + 8 := by
    simp only [Region.Apart] at overlaps
    omega
  have last := byte_of_readWord head (show 7 < 8 by decide)
  have stored : setMaxRatio memory callstack (callstack + 12 + 3) =
      byteOf maxWatchRatioUpperbound.toNat 3 :=
    blit_of_lt memory (byteOf maxWatchRatioUpperbound.toNat)
      (show 3 < 4 by decide)
  rw [same, show callstack + 8 + 7 = callstack + 12 + 3 by omega, stored]
    at last
  revert last
  decide

/-- The ratios of several call sites. -/
theorem watchedRatioAt_setMaxRatios
    {sites : List Nat}
    (sitesAligned : ∀ site ∈ sites, 8 ∣ site)
    (aligned : 8 ∣ callstack) :
    watchedRatioAt (sites.foldl setMaxRatio memory) callstack =
      if callstack ∈ sites then maxWatchRatioUpperbound.toNat
      else watchedRatioAt memory callstack := by
  induction sites generalizing memory with
  | nil => simp
  | cons site sites inductionHypothesis =>
      have later : watchedRatioAt
          (sites.foldl setMaxRatio (setMaxRatio memory site)) callstack =
            if callstack ∈ sites then maxWatchRatioUpperbound.toNat
            else watchedRatioAt (setMaxRatio memory site) callstack :=
        inductionHypothesis fun other member =>
          sitesAligned other (List.mem_cons_of_mem _ member)
      rw [List.foldl_cons, later]
      by_cases same : callstack = site
      · subst same
        rw [watchedRatioAt_setMaxRatio, ite_self, if_pos List.mem_cons_self]
      · have siteAligned := sitesAligned site List.mem_cons_self
        have apart : (ratioOf site).Apart (ratioOf callstack) := by
          simp only [Region.Apart]
          omega
        have kept : watchedRatioAt (setMaxRatio memory site) callstack =
            watchedRatioAt memory callstack :=
          readBytes_congr (setMaxRatio_agrees apart)
        simp only [kept, List.mem_cons, same, false_or]

end

/-- The guard of an object, its bytes and its tail word, by the size in the
guard. -/
abbrev guardedSpan (memory : Memory) (guard : Nat) : Region :=
  ⟨guard, 40 + getObjectSize memory guard⟩

/-- The head word is intact and the tail word is damaged. -/
structure Damaged (memory : Memory) (guard : Nat) : Prop where
  head : HasHead memory guard
  tail : ¬HasTail memory guard (getObjectSize memory guard)

instance (memory : Memory) (guard : Nat) : Decidable (Damaged memory guard) :=
  decidable_of_iff
    (HasHead memory guard ∧
      ¬HasTail memory guard (getObjectSize memory guard))
    ⟨fun ⟨head, tail⟩ => ⟨head, tail⟩, fun ⟨head, tail⟩ => ⟨head, tail⟩⟩

/-- The guarded objects of a mapping, by their guards: they lie apart from each
other in it, and no other word of it is a head sentinel. -/
structure Strewn (memory : Memory) (base limit : Nat) (guards : List Nat) :
    Prop where
  inside : ∀ guard ∈ guards,
    (guardedSpan memory guard).Within ⟨base, limit - base⟩
  aligned : ∀ guard ∈ guards, 8 ∣ guard
  apart : ∀ first ∈ guards, ∀ second ∈ guards, first ≠ second →
    (guardedSpan memory first).Apart (guardedSpan memory second)
  heads : ∀ it, base ≤ it → it < limit → 8 ∣ it →
    readWord memory it = sentinelHeadWord → ∃ guard ∈ guards, it = guard + 24

/-- A call site is recorded in every guard.  Its ratio is no part of a guard or
a tail word. -/
structure RecordsCallSites (memory : Memory) (guards : List Nat) : Prop where
  nonnull : ∀ guard ∈ guards, getCallstack memory guard ≠ 0
  aligned : ∀ guard ∈ guards, 8 ∣ getCallstack memory guard
  apart : ∀ guard ∈ guards, ∀ other ∈ guards,
    (ratioOf (getCallstack memory guard)).Apart ⟨other, 32⟩ ∧
      (ratioOf (getCallstack memory guard)).Apart
        (wordAt (other + 32 + getObjectSize memory other))

/-- Memory in which ratios have been set: guards and tail words are as before,
and no other word has become a head sentinel. -/
structure SameGuards (memory other : Memory) (base limit : Nat)
    (guards : List Nat) : Prop where
  guard : ∀ guard ∈ guards, AgreesOn ⟨guard, 32⟩ memory other
  tail : ∀ guard ∈ guards,
    AgreesOn (wordAt (guard + 32 + getObjectSize memory guard)) memory other
  heads : ∀ it, base ≤ it → it < limit → 8 ∣ it →
    readWord other it = sentinelHeadWord →
    readWord memory it = sentinelHeadWord

section

variable {memory other : Memory} {base limit it guard : Nat}
  {guards : List Nat}

theorem SameGuards.refl :
    SameGuards memory memory base limit guards :=
  ⟨fun _ _ _ _ => rfl, fun _ _ _ _ => rfl, fun _ _ _ _ head => head⟩

/-- Setting the ratio of a recorded call site changes no guard. -/
theorem SameGuards.setMaxRatio
    (same : SameGuards memory other base limit guards)
    (recorded : RecordsCallSites memory guards)
    (member : guard ∈ guards) :
    SameGuards memory
      (Causer.setMaxRatio other (getCallstack memory guard)) base limit
      guards where
  guard := fun site siteMember =>
    (same.guard site siteMember).trans
      (setMaxRatio_agrees (recorded.apart guard member site siteMember).1)
  tail := fun site siteMember =>
    (same.tail site siteMember).trans
      (setMaxRatio_agrees (recorded.apart guard member site siteMember).2)
  heads := by
    intro it above inside aligned head
    have apart :=
      setMaxRatio_ne_head aligned (recorded.aligned guard member) head
    exact same.heads it above inside aligned
      ((readWord_congr (setMaxRatio_agrees apart)).symm.trans head)

/-- The fields of an object in the mapping. -/
theorem SameGuards.fields
    (same : SameGuards memory other base limit guards)
    (strewn : Strewn memory base limit guards)
    (limitLt : limit < 2 ^ 64)
    (member : guard ∈ guards) :
    readWord other (guard + 24) = readWord memory (guard + 24) ∧
      getCallstack other guard = getCallstack memory guard ∧
      getTailSentinel other guard =
        guard + 32 + getObjectSize memory guard ∧
      isGoodTail other guard = isGoodTail memory guard := by
  have field : ∀ offset ≤ 24,
      readWord other (guard + offset) = readWord memory (guard + offset) := by
    intro offset offsetLe
    apply readWord_congr
    apply (same.guard guard member).of_within
    simp only [Region.Within]
    omega
  have inside := strewn.inside guard member
  simp only [Region.Within] at inside
  have tailEq : ∀ later : Memory,
      getObjectSize later guard = getObjectSize memory guard →
      getTailSentinel later guard =
        guard + 32 + getObjectSize memory guard :=
    fun later size => getTailSentinel_eq size (by omega)
  have size : getObjectSize other guard = getObjectSize memory guard :=
    field 8 (by omega)
  refine ⟨field 24 le_rfl, field 16 (by omega), tailEq other size, ?_⟩
  rw [isGoodTail, isGoodTail, tailEq other size, tailEq memory rfl,
    readWord_congr (same.tail guard member)]

/-- Heads are where they were. -/
theorem SameGuards.atHead_iff
    (same : SameGuards memory other base limit guards)
    (strewn : Strewn memory base limit guards)
    (limitLt : limit < 2 ^ 64)
    (above : base ≤ it)
    (inside : it < limit)
    (aligned : 8 ∣ it) :
    AtHead other it ↔ AtHead memory it := by
  constructor
  · rintro ⟨nonnull, head⟩
    exact ⟨nonnull, same.heads it above inside aligned head⟩
  · rintro ⟨nonnull, head⟩
    obtain ⟨guard, member, rfl⟩ :=
      strewn.heads it above inside aligned head
    exact ⟨nonnull, (same.fields strewn limitLt member).1.trans head⟩

/-- A head in the mapping is that of an object of the mapping. -/
theorem Strewn.guardAt_of_head
    (strewn : Strewn memory base limit guards)
    (limitLt : limit < 2 ^ 64)
    (above : base ≤ it)
    (inside : it < limit)
    (aligned : 8 ∣ it)
    (head : AtHead memory it) :
    ∃ guard ∈ guards, it = guard + 24 ∧ guardAt it = guard := by
  obtain ⟨guard, member, rfl⟩ :=
    strewn.heads it above inside aligned head.2
  refine ⟨guard, member, rfl, ?_⟩
  have within := strewn.inside guard member
  simp only [Region.Within] at within
  rw [guardAt_eq (Nat.le_add_left ..) (by omega), Nat.add_sub_cancel]

/-- What the guard of a head says is what it said. -/
theorem SameGuards.guardAt_fields
    (same : SameGuards memory other base limit guards)
    (strewn : Strewn memory base limit guards)
    (limitLt : limit < 2 ^ 64)
    (above : base ≤ it)
    (inside : it < limit)
    (aligned : 8 ∣ it)
    (head : AtHead memory it) :
    getCallstack other (guardAt it) = getCallstack memory (guardAt it) ∧
      getTailSentinel other (guardAt it) =
        getTailSentinel memory (guardAt it) ∧
      isGoodTail other (guardAt it) = isGoodTail memory (guardAt it) := by
  obtain ⟨guard, member, -, guardEq⟩ :=
    strewn.guardAt_of_head limitLt above inside aligned head
  obtain ⟨-, callstack, tail, goodTail⟩ := same.fields strewn limitLt member
  obtain ⟨-, -, oldTail, -⟩ := SameGuards.refl.fields strewn limitLt member
  rw [guardEq]
  exact ⟨callstack, tail.trans oldTail.symm, goodTail⟩

/-- Damage is where it was. -/
theorem SameGuards.damagedAt_iff
    (same : SameGuards memory other base limit guards)
    (strewn : Strewn memory base limit guards)
    (limitLt : limit < 2 ^ 64)
    (above : base ≤ it)
    (inside : it < limit)
    (aligned : 8 ∣ it) :
    DamagedAt other limit it ↔ DamagedAt memory limit it := by
  have heads := same.atHead_iff strewn limitLt above inside aligned
  constructor
  · rintro ⟨head, notBeyond, lost⟩
    obtain ⟨-, tail, goodTail⟩ := same.guardAt_fields strewn limitLt above
      inside aligned (heads.mp head)
    exact ⟨heads.mp head, tail.ge.trans notBeyond, goodTail.symm.trans lost⟩
  · rintro ⟨head, notBeyond, lost⟩
    obtain ⟨-, tail, goodTail⟩ := same.guardAt_fields strewn limitLt above
      inside aligned head
    exact ⟨heads.mpr head, tail.le.trans notBeyond, goodTail.trans lost⟩

/-- Where ratios have been set, the scan goes on and makes its marks as
before. -/
theorem SameGuards.scan_eq
    (same : SameGuards memory other base limit guards)
    (strewn : Strewn memory base limit guards)
    (limitLt : limit < 2 ^ 64)
    (above : base ≤ it)
    (inside : it < limit)
    (aligned : 8 ∣ it) :
    scanNext other limit it = scanNext memory limit it ∧
      marksAt other limit it = marksAt memory limit it := by
  have heads := same.atHead_iff strewn limitLt above inside aligned
  by_cases head : AtHead memory it
  · obtain ⟨callstack, tail, goodTail⟩ :=
      same.guardAt_fields strewn limitLt above inside aligned head
    have damaged :=
      same.damagedAt_iff strewn limitLt above inside aligned
    constructor
    · rw [scanNext, scanNext, if_pos head, if_pos (heads.mpr head), tail,
        goodTail]
    · simp only [marksAt, damaged, callstack]
  · have noHead : ¬AtHead other it := fun head' => head (heads.mp head')
    constructor
    · rw [scanNext, scanNext, if_neg head, if_neg noHead]
    · rw [marksAt_of_not fun damaged => head damaged.head,
        marksAt_of_not fun damaged => noHead damaged.head]

/-- The ratios that a round sets change no guard. -/
theorem SameGuards.setMaxRatios
    (same : SameGuards memory other base limit guards)
    (strewn : Strewn memory base limit guards)
    (recorded : RecordsCallSites memory guards)
    (limitLt : limit < 2 ^ 64)
    (above : base ≤ it)
    (inside : it < limit)
    (aligned : 8 ∣ it) :
    SameGuards memory
      (((marksAt memory limit it).map Mark.callstack).foldl
        Causer.setMaxRatio other) base limit guards := by
  by_cases damaged : DamagedAt memory limit it
  · obtain ⟨guard, member, -, guardEq⟩ :=
      strewn.guardAt_of_head limitLt above inside aligned damaged.head
    have site : getCallstack memory (guardAt it) =
        getCallstack memory guard :=
      congrArg (getCallstack memory) guardEq
    rw [marksAt, if_pos damaged, site]
    exact same.setMaxRatio recorded member
  · rw [marksAt_of_not damaged]
    exact same

/-- Every round goes ahead. -/
theorem Strewn.lt_following
    {following : Nat}
    (strewn : Strewn memory base limit guards)
    (limitLe : limit + 8 ≤ 2 ^ 64)
    (above : base ≤ it)
    (aligned : 8 ∣ it)
    (inside : it < limit)
    (goesOn : scanNext memory limit it = some following) :
    it < following := by
  rcases scanNext_eq_some goesOn with rfl | ⟨head, -, -, rfl⟩
  · rw [add_of_lt (by omega)]
    omega
  · obtain ⟨guard, member, rfl, guardEq⟩ :=
      strewn.guardAt_of_head (by omega) above inside aligned head
    obtain ⟨-, -, tail, -⟩ :=
      SameGuards.refl.fields strewn (by omega) member
    have within := strewn.inside guard member
    simp only [Region.Within] at within
    rw [guardEq, tail, land_allocationMask (by omega), add_of_lt (by omega)]
    omega

/-- The scan does not come below the mapping. -/
theorem Strewn.base_le
    (strewn : Strewn memory base limit guards)
    (baseAligned : 8 ∣ base)
    (limitLe : limit + 8 ≤ 2 ^ 64)
    (reached : Iteration.Comes (scanRound memory limit) base it) :
    base ≤ it := by
  induction reached with
  | refl => exact le_rfl
  | tail reached leads inductionHypothesis =>
      obtain ⟨inside, goesOn⟩ := scanRound_eq_some leads
      have further := strewn.lt_following limitLe inductionHypothesis
        (aligned_of_comes baseAligned reached) inside goesOn
      exact inductionHypothesis.trans further.le

/-- The scan ends. -/
theorem Strewn.ends
    (strewn : Strewn memory base limit guards)
    (baseAligned : 8 ∣ base)
    (limitLe : limit + 8 ≤ 2 ^ 64) :
    Iteration.Ends (scanRound memory limit) base := by
  refine Iteration.ends_of_measure (2 ^ 64 - ·) fun it following reached
    leads => ?_
  obtain ⟨inside, goesOn⟩ := scanRound_eq_some leads
  have further := strewn.lt_following limitLe
    (strewn.base_le baseAligned limitLe reached)
    (aligned_of_comes baseAligned reached) inside goesOn
  omega

/-- Below the head word of an object the scan goes on, and not past it. -/
theorem Strewn.following_le
    (strewn : Strewn memory base limit guards)
    (limitLt : limit < 2 ^ 64)
    (member : guard ∈ guards)
    (above : base ≤ it)
    (aligned : 8 ∣ it)
    (below : it < guard + 24) :
    ∃ following, scanNext memory limit it = some following ∧
      it < following ∧ following ≤ guard + 24 ∧ 8 ∣ following := by
  have guardAligned := strewn.aligned guard member
  have within := strewn.inside guard member
  simp only [Region.Within] at within
  by_cases head : AtHead memory it
  · obtain ⟨other, otherMember, rfl⟩ :=
      strewn.heads it above (by omega) aligned head.2
    have otherWithin := strewn.inside other otherMember
    have apart := strewn.apart other otherMember guard member (by omega)
    simp only [Region.Within, Region.Apart] at otherWithin apart
    have guardEq : guardAt (other + 24) = other := guardAt_add (by omega)
    have tailEq : getTailSentinel memory other =
        other + 32 + getObjectSize memory other :=
      getTailSentinel_eq rfl (by omega)
    rw [scanNext, guardEq, if_pos head,
      if_neg (show ¬getTailSentinel memory other > limit by omega)]
    split_ifs with tail
    · rw [tailEq, land_allocationMask (by omega), add_of_lt (by omega)]
      exact ⟨_, rfl, by omega, by omega, by omega⟩
    · rw [add_of_lt (by omega)]
      exact ⟨_, rfl, by omega, by omega, by omega⟩
  · rw [scanNext, if_neg head, add_of_lt (by omega)]
    exact ⟨_, rfl, by omega, by omega, by omega⟩

/-- The scan comes to the head word of every object. -/
theorem Strewn.comes_to_head
    (strewn : Strewn memory base limit guards)
    (limitLt : limit < 2 ^ 64)
    (member : guard ∈ guards)
    (above : base ≤ it)
    (aligned : 8 ∣ it)
    (notAbove : it ≤ guard + 24) :
    Iteration.Comes (scanRound memory limit) it (guard + 24) := by
  induction distance : guard + 24 - it using Nat.strong_induction_on
    generalizing it with
  | _ distance inductionHypothesis =>
      rcases notAbove.lt_or_eq with below | rfl
      · obtain ⟨following, goesOn, ahead, followingLe, followingAligned⟩ :=
          strewn.following_le limitLt member above aligned below
        have within := strewn.inside guard member
        simp only [Region.Within] at within
        have round : Iteration.Leads (scanRound memory limit) it following :=
          (if_pos (show it < limit by omega)).trans goesOn
        exact .head round (inductionHypothesis _ (by omega) (by omega)
          followingAligned followingLe rfl)
      · exact .refl

/-- The scan that sets ratios on its way leaves the mapping like the one in
memory that does not change, with its marks, and with their ratios set. -/
theorem SameGuards.scan_leaves
    {made : List Mark}
    (strewn : Strewn memory base limit guards)
    (recorded : RecordsCallSites memory guards)
    (limitLe : limit + 8 ≤ 2 ^ 64)
    (scan : SteadyScan memory limit it made)
    (above : base ≤ it)
    (aligned : 8 ∣ it)
    (state : ScanState)
    (place : state.it = it)
    (same : SameGuards memory state.memory base limit guards) :
    ∃ final, Iteration.Comes (scanStep limit) state final ∧
      scanStep limit final = none ∧
      final.marks = state.marks ++ made ∧
      final.memory =
        (made.map Mark.callstack).foldl Causer.setMaxRatio state.memory := by
  induction scan generalizing state with
  | beyond outside =>
      subst place
      exact ⟨state, .refl, if_neg outside, (List.append_nil _).symm, rfl⟩
  | breaks inside leaves =>
      subst place
      obtain ⟨goesOn, -⟩ :=
        same.scan_eq strewn (by omega) above inside aligned
      refine ⟨state, .refl, ?_, (List.append_nil _).symm, rfl⟩
      rw [scanStep_eq inside, goesOn, leaves, Option.map_none]
  | next inside goesOn _ inductionHypothesis =>
      subst place
      obtain ⟨sameNext, sameMarks⟩ :=
        same.scan_eq strewn (by omega) above inside aligned
      have steps := scanStep_eq inside
      rw [sameNext, sameMarks, goesOn, Option.map_some] at steps
      have further := strewn.lt_following limitLe above aligned inside goesOn
      obtain ⟨final, comes, stuck, marks, ratios⟩ :=
        inductionHypothesis (above.trans further.le)
          (aligned_scanNext aligned goesOn)
          (state.after (marksAt memory limit state.it) _) rfl
          (same.setMaxRatios strewn recorded (by omega) above inside aligned)
      refine ⟨final, .head steps comes, stuck, ?_, ?_⟩
      · rw [marks, ScanState.after_marks, List.append_assoc]
      · rw [ratios, List.map_append, List.foldl_append]
        rfl

/-- What damage is to the loop. -/
theorem Strewn.damagedAt_iff
    (strewn : Strewn memory base limit guards)
    (limitLt : limit < 2 ^ 64)
    (member : guard ∈ guards) :
    DamagedAt memory limit (guard + 24) ↔ Damaged memory guard := by
  have within := strewn.inside guard member
  simp only [Region.Within] at within
  have guardEq : guardAt (guard + 24) = guard := guardAt_add (by omega)
  have tailEq : getTailSentinel memory guard =
      guard + 32 + getObjectSize memory guard :=
    getTailSentinel_eq rfl (by omega)
  have tailIff : isGoodTail memory guard = false ↔
      ¬HasTail memory guard (getObjectSize memory guard) := by
    rw [← isGoodTail_iff ⟨rfl, rfl, rfl⟩ (by omega), Bool.not_eq_true]
  constructor
  · rintro ⟨head, -, lost⟩
    rw [guardEq] at lost
    exact ⟨head.2, tailIff.mp lost⟩
  · rintro ⟨head, lost⟩
    refine ⟨⟨by omega, head⟩, ?_, ?_⟩
    · rw [guardEq, tailEq]
      omega
    · rw [guardEq]
      exact tailIff.mpr lost

/-- The marks of the scan are those of the damaged objects. -/
theorem Strewn.mem_marks_iff
    {made : List Mark}
    (strewn : Strewn memory base limit guards)
    (baseAligned : 8 ∣ base)
    (limitLe : limit + 8 ≤ 2 ^ 64)
    (scan : SteadyScan memory limit base made)
    (mark : Mark) :
    mark ∈ made ↔
      ∃ guard ∈ guards, Damaged memory guard ∧
        mark = ⟨guard + 24, getCallstack memory guard⟩ := by
  rw [scan.mem_iff]
  constructor
  · rintro ⟨position, comes, inside, isMark⟩
    obtain ⟨damaged, rfl⟩ := mem_marksAt_iff.mp isMark
    obtain ⟨guard, member, rfl, guardEq⟩ :=
      strewn.guardAt_of_head (by omega)
        (strewn.base_le baseAligned limitLe comes) inside
        (aligned_of_comes baseAligned comes) damaged.head
    rw [guardEq]
    exact ⟨guard, member,
      (strewn.damagedAt_iff (by omega) member).mp damaged, rfl⟩
  · rintro ⟨guard, member, damaged, rfl⟩
    have within := strewn.inside guard member
    have guardAligned := strewn.aligned guard member
    simp only [Region.Within] at within
    refine ⟨guard + 24, ?_, by omega, mem_marksAt_iff.mpr
      ⟨(strewn.damagedAt_iff (by omega) member).mpr damaged, ?_⟩⟩
    · exact strewn.comes_to_head (by omega) member le_rfl baseAligned
        (by omega)
    · rw [guardAt_add (by omega)]

/-- When the damaged objects are marked, the ratios of their call sites are set,
and no other ones. -/
theorem RecordsCallSites.ratios
    {marked : List Mark} {callstack : Nat}
    (recorded : RecordsCallSites memory guards)
    (marks : ∀ mark, mark ∈ marked ↔
      ∃ guard ∈ guards, Damaged memory guard ∧
        mark = ⟨guard + 24, getCallstack memory guard⟩)
    (aligned : 8 ∣ callstack) :
    ((∃ guard ∈ guards, Damaged memory guard ∧
        getCallstack memory guard = callstack) →
      watchedRatioAt ((marked.map Mark.callstack).foldl setMaxRatio memory)
        callstack = maxWatchRatioUpperbound.toNat) ∧
    ((¬∃ guard ∈ guards, Damaged memory guard ∧
        getCallstack memory guard = callstack) →
      watchedRatioAt ((marked.map Mark.callstack).foldl setMaxRatio memory)
        callstack = watchedRatioAt memory callstack) := by
  have site : callstack ∈ marked.map Mark.callstack ↔
      ∃ guard ∈ guards, Damaged memory guard ∧
        getCallstack memory guard = callstack := by
    constructor
    · intro member
      obtain ⟨mark, isMark, rfl⟩ := List.mem_map.mp member
      obtain ⟨guard, guardMember, damaged, rfl⟩ := (marks mark).mp isMark
      exact ⟨guard, guardMember, damaged, rfl⟩
    · rintro ⟨guard, guardMember, damaged, rfl⟩
      exact List.mem_map.mpr
        ⟨_, (marks _).mpr ⟨guard, guardMember, damaged, rfl⟩, rfl⟩
  have sitesAligned : ∀ site ∈ marked.map Mark.callstack, 8 ∣ site := by
    intro site member
    obtain ⟨mark, isMark, rfl⟩ := List.mem_map.mp member
    obtain ⟨guard, guardMember, -, rfl⟩ := (marks mark).mp isMark
    exact recorded.aligned guard guardMember
  have ratio : watchedRatioAt
      ((marked.map Mark.callstack).foldl setMaxRatio memory) callstack =
        if callstack ∈ marked.map Mark.callstack then
          maxWatchRatioUpperbound.toNat
        else watchedRatioAt memory callstack :=
    watchedRatioAt_setMaxRatios sitesAligned aligned
  constructor
  · intro damaged
    rw [ratio, if_pos (site.mpr damaged)]
  · intro sound
    rw [ratio, if_neg fun member => sound (site.mp member)]

/-- The scan of a mapping of guarded objects ends, and has then marked exactly
the call sites of the objects with an intact head word and a damaged tail
word. -/
theorem Strewn.marks_damaged
    (strewn : Strewn memory base limit guards)
    (recorded : RecordsCallSites memory guards)
    (baseAligned : 8 ∣ base)
    (limitLe : limit + 8 ≤ 2 ^ 64) :
    ∃ final,
      Iteration.Comes (scanStep limit) ⟨base, memory, []⟩ final ∧
        scanStep limit final = none ∧
        (∀ mark, mark ∈ final.marks ↔
          ∃ guard ∈ guards, Damaged memory guard ∧
            mark = ⟨guard + 24, getCallstack memory guard⟩) ∧
        ∀ callstack, 8 ∣ callstack →
          ((∃ guard ∈ guards, Damaged memory guard ∧
              getCallstack memory guard = callstack) →
            watchedRatioAt final.memory callstack =
              maxWatchRatioUpperbound.toNat) ∧
          ((¬∃ guard ∈ guards, Damaged memory guard ∧
              getCallstack memory guard = callstack) →
            watchedRatioAt final.memory callstack =
              watchedRatioAt memory callstack) := by
  obtain ⟨made, scan⟩ := exists_steadyScan (strewn.ends baseAligned limitLe)
  obtain ⟨final, comes, stuck, marks, ratios⟩ :=
    SameGuards.scan_leaves strewn recorded limitLe scan le_rfl baseAligned
      ⟨base, memory, []⟩ rfl .refl
  rw [List.nil_append] at marks
  have all := strewn.mem_marks_iff baseAligned limitLe scan
  refine ⟨final, comes, stuck, ?_, fun callstack aligned => ?_⟩
  · rw [marks]
    exact all
  · rw [ratios]
    exact recorded.ratios all aligned

end

/-- The guards of two objects, of 8 bytes and of 5. -/
def twoGuards : List Nat := [2 ^ 32, 2 ^ 32 + 48]

/-- The mapping with the two objects, past the second of which a word has been
written, and the call site of that one behind them. -/
def twoObjects : Memory :=
  let first := construct (fun _ => 0) (2 ^ 32) (2 ^ 32) 8
  let second := construct first (2 ^ 32 + 48) (2 ^ 32 + 48) 5
  let recorded := setCallstack second (2 ^ 32) (2 ^ 33)
  let recorded := setCallstack recorded (2 ^ 32 + 48) (2 ^ 32 + 96)
  writeWord recorded (2 ^ 32 + 85) 0

theorem strewn_twoObjects :
    Strewn twoObjects (2 ^ 32) (2 ^ 32 + 128) twoGuards := by
  refine ⟨by decide +kernel, by decide, by decide +kernel,
    fun it above inside aligned head => ?_⟩
  have words : ∀ index < 16,
      readWord twoObjects (2 ^ 32 + 8 * index) = sentinelHeadWord →
      ∃ guard ∈ twoGuards, 2 ^ 32 + 8 * index = guard + 24 := by
    decide +kernel
  obtain ⟨index, rfl⟩ : ∃ index, it = 2 ^ 32 + 8 * index :=
    ⟨(it - 2 ^ 32) / 8, by omega⟩
  exact words index (by omega) head

theorem recordsCallSites_twoObjects :
    RecordsCallSites twoObjects twoGuards :=
  ⟨by decide +kernel, by decide +kernel, by decide +kernel⟩

/-- The scan marks the call site of the second object. -/
theorem marks_damaged_second :
    ∃ final,
      Iteration.Comes (scanStep (2 ^ 32 + 128)) ⟨2 ^ 32, twoObjects, []⟩
          final ∧
        scanStep (2 ^ 32 + 128) final = none ∧
        ⟨2 ^ 32 + 72, 2 ^ 32 + 96⟩ ∈ final.marks ∧
        watchedRatioAt final.memory (2 ^ 32 + 96) = 10000 := by
  have damaged : Damaged twoObjects (2 ^ 32 + 48) :=
    ⟨by decide +kernel, by decide +kernel⟩
  have site : getCallstack twoObjects (2 ^ 32 + 48) = 2 ^ 32 + 96 := by
    decide +kernel
  obtain ⟨final, comes, stuck, marks, ratios⟩ :=
    strewn_twoObjects.marks_damaged recordsCallSites_twoObjects (by decide)
      (by decide)
  refine ⟨final, comes, stuck, (marks _).mpr ?_, ?_⟩
  · exact ⟨2 ^ 32 + 48, by decide, damaged, by rw [site]⟩
  · exact (ratios _ (by decide)).1 ⟨2 ^ 32 + 48, by decide, damaged, site⟩

end Causer
