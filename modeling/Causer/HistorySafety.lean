import Causer.HistoryRoundTrip
import Causer.Library.InputStream

/-!
# Reading any history file

`operator>>` runs its loop as often as the first number of a record says, and
writes a frame in every round, whether the stream has failed or not.  The record
it reads into is not initialised, and is used again for every record.  Which
frames are written is logged; what a frame behind the array overwrites is not
modelled.  `loadHistoryInfo` inserts each record without looking whether its key
is there.
-/

namespace Causer

open TextStream

/-- The record of `loadHistoryInfo`, and the indices of `stack` that have been
written. -/
structure RecordBuffer where
  callstack : Callstack
  written : List Nat

/-- Assign to `stack[index]`. -/
def RecordBuffer.store (buffer : RecordBuffer) (index : Nat)
    (address : Word) : RecordBuffer where
  callstack :=
    if inside : index < maxCallstackDepth then
      { buffer.callstack with
        stack := Function.update buffer.callstack.stack ⟨index, inside⟩
          address }
    else buffer.callstack
  written := buffer.written ++ [index]

/-- The variables of `operator>>`.  The numbers are not initialised. -/
structure FrameLocals where
  s : Text
  off : Word
  origAddr : Word

/-- The loop of `operator>>`, from an index on. -/
def extractFrames (selfmap : SelfMap) :
    Nat → Nat → FrameLocals → RecordBuffer → Input → RecordBuffer × Input
  | 0, _, _, buffer, input => (buffer, input)
  | count + 1, index, locals, buffer, input =>
      let s := extractWord locals.s input
      let off := extractUnsigned 64 locals.off s.2
      let origAddr := extractUnsigned 64 locals.origAddr off.2
      extractFrames selfmap count (index + 1) ⟨s.1, off.1, origAddr.1⟩
        (buffer.store index (frameAddress selfmap s.1 off.1 origAddr.1))
        origAddr.2

/-- The count that the loop of `operator>>` is run with. -/
def extractDepth (old : Int) (input : Input) : Int × Input :=
  extractSigned 32 old input

/-- What `operator>>` extracts, with what its variables hold at the start. -/
def extractFields (selfmap : SelfMap) (off origAddr : Word)
    (buffer : RecordBuffer) (input : Input) : RecordBuffer × Input :=
  let depth := extractDepth buffer.callstack.depth input
  let calledCounter :=
    extractSigned 32 buffer.callstack.calledCounter depth.2
  let watchedCounter :=
    extractSigned 32 buffer.callstack.watchedCounter calledCounter.2
  let watchedRatio :=
    extractSigned 32 buffer.callstack.watchedRatio watchedCounter.2
  let offset := extractUnsigned 64 buffer.callstack.offset watchedRatio.2
  let callstack :=
    { buffer.callstack with
      depth := depth.1
      calledCounter := calledCounter.1
      watchedCounter := watchedCounter.1
      watchedRatio := watchedRatio.1
      offset := offset.1 }
  extractFrames selfmap depth.1.toNat 0 ⟨[], off, origAddr⟩
    { buffer with callstack := callstack } offset.2

/-- The new hash of the record. -/
def RecordBuffer.rehash (buffer : RecordBuffer) : RecordBuffer :=
  { buffer with callstack := buffer.callstack.rehash }

/-- `operator>>`. -/
def extractCallstack (selfmap : SelfMap) (off origAddr : Word)
    (buffer : RecordBuffer) (input : Input) : RecordBuffer × Input :=
  (extractFields selfmap off origAddr buffer input).map RecordBuffer.rehash id

section Frames

variable {selfmap : SelfMap} {count index : Nat} {locals : FrameLocals}
  {buffer : RecordBuffer} {input : Input}

/-- The loop writes one frame a round. -/
theorem written_extractFrames :
    (extractFrames selfmap count index locals buffer input).1.written =
      buffer.written ++ List.range' index count := by
  induction count generalizing index locals buffer input with
  | zero => simp [extractFrames]
  | succ count inductionHypothesis =>
      rw [extractFrames, inductionHypothesis, List.range'_succ]
      simp [RecordBuffer.store]

/-- Where the loop does not fail, it reads what `readFrames` reads, unless that
is behind the array. -/
theorem extractFrames_succeeded
    (succeeded :
      (extractFrames selfmap count index locals buffer input).2.failed =
        false) :
    input.failed = false ∧
      (extractFrames selfmap count index locals buffer
        input).2.text.length ≤ input.text.length ∧
      (index + count ≤ maxCallstackDepth →
        (readFrames selfmap count index buffer.callstack.stack
          input.text).isSome = true) := by
  induction count generalizing index locals buffer input with
  | zero => exact ⟨succeeded, le_rfl, fun _ => rfl⟩
  | succ count inductionHypothesis =>
      rw [extractFrames] at succeeded ⊢
      obtain ⟨afterAddress, shorter, readable⟩ :=
        inductionHypothesis succeeded
      obtain ⟨afterOffset, original, third, address, addressEq⟩ :=
        extractUnsigned_succeeded afterAddress
      obtain ⟨afterName, offset, second, number, numberEq⟩ :=
        extractUnsigned_succeeded afterOffset
      obtain ⟨given, name, first, word, wordEq⟩ :=
        extractWord_succeeded afterName
      rw [wordEq] at number numberEq
      rw [wordEq, numberEq] at address addressEq
      dsimp only at number address
      simp only [wordEq, numberEq, addressEq] at shorter readable ⊢
      have nameShorter := isToken_readWord.shorter word
      have numberShorter := (isToken_readUnsigned 64).shorter number
      have addressShorter := (isToken_readUnsigned 64).shorter address
      refine ⟨given, by omega, ?_⟩
      intro inside
      have indexInside : index < maxCallstackDepth := by omega
      have later := readable (by omega)
      rw [RecordBuffer.store, dif_pos indexInside] at later
      simp only [readFrames, word, number, address, Option.bind_eq_bind,
        Option.bind_some, dif_pos indexInside]
      exact later

/-- What `readFrames` reads, the loop reads too. -/
theorem extractFrames_of_some
    {text rest : Text}
    {read : Frames}
    (done : readFrames selfmap count index buffer.callstack.stack text =
      some (read, rest)) :
    extractFrames selfmap count index locals buffer ⟨text, false⟩ =
      (⟨{ buffer.callstack with stack := read },
        buffer.written ++ List.range' index count⟩, ⟨rest, false⟩) := by
  induction count generalizing index locals buffer text with
  | zero =>
      rw [readFrames, Option.some.injEq, Prod.mk.injEq] at done
      obtain ⟨rfl, rfl⟩ := done
      simp [extractFrames]
  | succ count inductionHypothesis =>
      obtain ⟨name, offset, original, first, second, third, word, number,
        address, inside, last⟩ := readFrames_succ_eq_some done
      simp only [extractFrames, extractWord_of_some word,
        extractUnsigned_of_some number, extractUnsigned_of_some address]
      have stored : (buffer.store index
          (frameAddress selfmap name offset original)).callstack.stack =
            Function.update buffer.callstack.stack ⟨index, inside⟩
              (frameAddress selfmap name offset original) := by
        rw [RecordBuffer.store, dif_pos inside]
      rw [inductionHypothesis (stored ▸ last), List.range'_succ]
      simp [RecordBuffer.store, inside]

end Frames

section Record

variable {selfmap : SelfMap} {off origAddr : Word} {buffer : RecordBuffer}
  {input : Input}

/-- A record writes as many frames as its count says. -/
theorem written_extractFields :
    (extractFields selfmap off origAddr buffer input).1.written =
      buffer.written ++
        List.range
          (extractDepth buffer.callstack.depth input).1.toNat := by
  rw [List.range_eq_range', extractFields, written_extractFrames]

/-- What `readFrames` reads after the five numbers, `operator>>` reads too. -/
theorem extractFields_of_some
    {text first second third fourth fifth rest : Text}
    {depth called watched ratio : Int}
    {offset : Word}
    {stack : Frames}
    (one : readSigned 32 text = some (depth, first))
    (two : readSigned 32 first = some (called, second))
    (three : readSigned 32 second = some (watched, third))
    (four : readSigned 32 third = some (ratio, fourth))
    (five : readUnsigned 64 fourth = some (offset, fifth))
    (frames : readFrames selfmap depth.toNat 0 buffer.callstack.stack fifth =
      some (stack, rest)) :
    extractFields selfmap off origAddr buffer ⟨text, false⟩ =
      (⟨{ buffer.callstack with
          depth := depth
          calledCounter := called
          watchedCounter := watched
          watchedRatio := ratio
          offset := offset
          stack := stack },
        buffer.written ++ List.range depth.toNat⟩, ⟨rest, false⟩) := by
  have depthRead : extractDepth buffer.callstack.depth ⟨text, false⟩ =
      (depth, ⟨first, false⟩) := extractSigned_of_some one _
  simp only [extractFields, depthRead, extractSigned_of_some two,
    extractSigned_of_some three, extractSigned_of_some four,
    extractUnsigned_of_some five]
  rw [List.range_eq_range']
  apply extractFrames_of_some
  exact frames

/-- Where `operator>>` does not fail it uses up text, and reads what
`readCallstack` reads, unless that is behind the array. -/
theorem extractFields_succeeded
    (succeeded :
      (extractFields selfmap off origAddr buffer input).2.failed = false) :
    input.failed = false ∧
      (extractFields selfmap off origAddr buffer input).2.text.length <
        input.text.length ∧
      ((extractDepth buffer.callstack.depth input).1 ≤ maxCallstackDepth →
        (readCallstack selfmap buffer.callstack input.text).isSome =
          true) := by
  rw [extractFields] at succeeded ⊢
  obtain ⟨afterOffset, notLonger, framesRead⟩ :=
    extractFrames_succeeded succeeded
  obtain ⟨afterRatio, offset, fifth, five, fiveEq⟩ :=
    extractUnsigned_succeeded afterOffset
  obtain ⟨afterWatched, ratio, fourth, four, fourEq⟩ :=
    extractSigned_succeeded afterRatio
  obtain ⟨afterCalled, watched, third, three, threeEq⟩ :=
    extractSigned_succeeded afterWatched
  obtain ⟨afterDepth, called, second, two, twoEq⟩ :=
    extractSigned_succeeded afterCalled
  obtain ⟨given, depth, first, one, oneEq⟩ :=
    extractSigned_succeeded afterDepth
  rw [← extractDepth] at oneEq
  rw [oneEq] at two twoEq
  rw [oneEq, twoEq] at three threeEq
  rw [oneEq, twoEq, threeEq] at four fourEq
  rw [oneEq, twoEq, threeEq, fourEq] at five fiveEq
  dsimp only at two three four five
  simp only [oneEq, twoEq, threeEq, fourEq, fiveEq] at notLonger framesRead ⊢
  have depthShorter := (isToken_readSigned 32).shorter one
  have calledShorter := (isToken_readSigned 32).shorter two
  have watchedShorter := (isToken_readSigned 32).shorter three
  have ratioShorter := (isToken_readSigned 32).shorter four
  have offsetShorter := (isToken_readUnsigned 64).shorter five
  refine ⟨given, by omega, ?_⟩
  intro fits
  obtain ⟨found, foundEq⟩ :=
    Option.isSome_iff_exists.mp (framesRead (by omega))
  simp only [readCallstack, one, two, three, four, five, foundEq,
    Option.bind_eq_bind, Option.bind_some, Option.isSome_some]

theorem Callstack.depth_stored (callstack : Callstack) (hashcode : Word) :
    ({ callstack with hashcode := hashcode } : Callstack).depth =
      callstack.depth := rfl

/-- A new hash leaves the count of frames. -/
theorem Callstack.depth_rehash (callstack : Callstack) :
    callstack.rehash.depth = callstack.depth :=
  callstack.depth_stored callstack.hash

/-- A call site that is stored leaves what has been written. -/
theorem RecordBuffer.written_stored
    (buffer : RecordBuffer) (callstack : Callstack) :
    ({ buffer with callstack := callstack } : RecordBuffer).written =
      buffer.written := rfl

/-- `operator>>` writes as many frames as the count of the record says. -/
theorem written_extractCallstack :
    (extractCallstack selfmap off origAddr buffer input).1.written =
      buffer.written ++
        List.range
          (extractDepth buffer.callstack.depth input).1.toNat := by
  rw [extractCallstack, Prod.map_fst, ← written_extractFields]
  exact RecordBuffer.written_stored _ _

/-- The new hash leaves the stream. -/
@[simp] theorem extractCallstack_snd :
    (extractCallstack selfmap off origAddr buffer input).2 =
      (extractFields selfmap off origAddr buffer input).2 := by
  rw [extractCallstack, Prod.map_snd, id]

/-- A record that `readCallstack` reads is read, and its frames are written. -/
theorem extractCallstack_of_some
    {text rest : Text}
    {read : Callstack}
    (done : readCallstack selfmap buffer.callstack text =
      some (read, rest)) :
    extractCallstack selfmap off origAddr buffer ⟨text, false⟩ =
      (⟨read, buffer.written ++ List.range read.depth.toNat⟩,
        ⟨rest, false⟩) := by
  obtain ⟨depth, called, watched, ratio, offset, stack, first, second, third,
    fourth, fifth, one, two, three, four, five, frames, rfl⟩ :=
      readCallstack_eq_some done
  rw [extractCallstack, extractFields_of_some one two three four five frames,
    Callstack.depth_rehash]
  rfl

/-- Where `readCallstack` fails and the count fits the array, the stream
fails. -/
theorem extractCallstack_of_none
    {text : Text}
    (failed : readCallstack selfmap buffer.callstack text = none)
    (fits : (extractDepth buffer.callstack.depth ⟨text, false⟩).1 ≤
      maxCallstackDepth) :
    (extractCallstack selfmap off origAddr buffer ⟨text, false⟩).2.failed =
      true := by
  by_contra succeeded
  rw [Bool.not_eq_true] at succeeded
  rw [extractCallstack_snd] at succeeded
  have read := (extractFields_succeeded succeeded).2.2 fits
  dsimp only at read
  rw [failed] at read
  cases read

end Record

/-- The loop of `loadHistoryInfo`: the records that are read, and the record
that is read into.  Every round finds other numbers in the variables of
`operator>>`. -/
def extractCallstacks (selfmap : SelfMap) (garbage : Nat → Word × Word)
    (round : Nat) (buffer : RecordBuffer) (input : Input) :
    List Callstack × RecordBuffer :=
  let next := extractCallstack selfmap (garbage round).1 (garbage round).2
    buffer input
  if _ : next.2.failed then ([], next.1)
  else
    let later := extractCallstacks selfmap garbage (round + 1) next.1 next.2
    (next.1.callstack :: later.1, later.2)
termination_by input.text.length
decreasing_by
  have succeeded := Bool.eq_false_iff.mpr ‹_›
  rw [extractCallstack_snd] at succeeded ⊢
  exact (extractFields_succeeded succeeded).2.1

/-- `loadHistoryInfo`, for a file that is there: the indices of the frames that
are written, and the map. -/
def extractHistoryInfo (selfmap : SelfMap) (garbage : Nat → Word × Word)
    (number : Word) (callstack : Callstack) (text : Text)
    (map : CallstackMap) : Option (List Nat × CallstackMap) :=
  if map.getEntryNumber = 0 then
    let number := extractUnsigned 64 number ⟨text, false⟩
    let records := extractCallstacks selfmap garbage 0 ⟨callstack, []⟩
      number.2
    (insertCallstacks records.1 map).map fun final =>
      (records.2.written, final)
  else none

/-- No two entries have the same key. -/
def OneEntryPerKey (map : CallstackMap) : Prop :=
  ∀ first second, HashMap.Stored map first → HashMap.Stored map second →
    (map.entries first).key.val.same (map.entries second).key.val = true →
    first = second

/-- `loadHistoryInfo` writes only frames of its record, and leaves one entry for
a key. -/
def LoadsSafely (selfmap : SelfMap) (garbage : Nat → Word × Word)
    (number : Word) (callstack : Callstack) (text : Text)
    (map : CallstackMap) : Prop :=
  ∃ written final,
    extractHistoryInfo selfmap garbage number callstack text map =
      some (written, final) ∧
    (∀ index ∈ written, index < maxCallstackDepth) ∧ OneEntryPerKey final

/-- The counts of the records of a text, with the one that the loop ends on. -/
def recordCounts (selfmap : SelfMap) (callstack : Callstack) (text : Text) :
    List Int :=
  (extractDepth callstack.depth ⟨text, false⟩).1 ::
    match _ : readCallstack selfmap callstack text with
    | none => []
    | some (read, rest) => recordCounts selfmap read rest
termination_by text.length
decreasing_by exact readCallstack_shorter ‹_›

/-- The counts of the records of a file.  A file that does not start with a
number leaves the record as it is. -/
def fileCounts (selfmap : SelfMap) (callstack : Callstack) (text : Text) :
    List Int :=
  match readUnsigned 64 text with
  | none => [callstack.depth]
  | some (_, rest) => recordCounts selfmap callstack rest

/-- The records of a file that have frames. -/
def fileRecords (selfmap : SelfMap) (callstack : Callstack) (text : Text) :
    List Callstack :=
  match readUnsigned 64 text with
  | none => []
  | some (_, rest) =>
      (readCallstacks selfmap callstack rest).filter
        fun record => 1 ≤ record.depth

/-- What call sites are told apart by. -/
def Callstack.site (callstack : Callstack) : Word × Word :=
  (callstack.stack 0, callstack.offset)

section Counts

variable {selfmap : SelfMap} {callstack : Callstack} {text : Text}

theorem recordCounts_of_none
    (failed : readCallstack selfmap callstack text = none) :
    recordCounts selfmap callstack text =
      [(extractDepth callstack.depth ⟨text, false⟩).1] := by
  rw [recordCounts]
  split
  · rfl
  · next done => rw [failed] at done; cases done

theorem recordCounts_of_some
    {read : Callstack} {rest : Text}
    (done : readCallstack selfmap callstack text = some (read, rest)) :
    recordCounts selfmap callstack text =
      (extractDepth callstack.depth ⟨text, false⟩).1 ::
        recordCounts selfmap read rest := by
  rw [recordCounts]
  split
  · next failed => rw [failed] at done; cases done
  · next other left again =>
      rw [again, Option.some.injEq, Prod.mk.injEq] at done
      obtain ⟨rfl, rfl⟩ := done
      rfl

/-- The count of a record that is read. -/
theorem extractDepth_of_some
    {read : Callstack} {rest : Text}
    (done : readCallstack selfmap callstack text = some (read, rest)) :
    (extractDepth callstack.depth ⟨text, false⟩).1 = read.depth := by
  obtain ⟨depth, called, watched, ratio, offset, stack, first, second, third,
    fourth, fifth, one, two, three, four, five, frames, isRead⟩ :=
      readCallstack_eq_some done
  rw [extractDepth, extractSigned_of_some one, ← isRead,
    Callstack.depth_rehash]

end Counts

section Loop

variable {selfmap : SelfMap} {garbage : Nat → Word × Word} {round : Nat}
  {buffer : RecordBuffer} {input : Input} {next : RecordBuffer × Input}

/-- The loop ends at a record on which the stream fails. -/
theorem extractCallstacks_of_failed
    (read : extractCallstack selfmap (garbage round).1 (garbage round).2
      buffer input = next)
    (failed : next.2.failed = true) :
    extractCallstacks selfmap garbage round buffer input = ([], next.1) := by
  subst read
  rw [extractCallstacks, dif_pos failed]

/-- The loop goes on after a record that is read. -/
theorem extractCallstacks_of_read
    (read : extractCallstack selfmap (garbage round).1 (garbage round).2
      buffer input = next)
    (succeeded : next.2.failed = false) :
    extractCallstacks selfmap garbage round buffer input =
      (next.1.callstack ::
          (extractCallstacks selfmap garbage (round + 1) next.1 next.2).1,
        (extractCallstacks selfmap garbage (round + 1) next.1 next.2).2) := by
  subst read
  rw [extractCallstacks, dif_neg (Bool.eq_false_iff.mp succeeded)]

/-- The loop keeps what has been written, with what the first record writes. -/
theorem written_extractCallstacks :
    ∃ later, (extractCallstacks selfmap garbage round buffer input).2.written =
      buffer.written ++
        (List.range
          (extractDepth buffer.callstack.depth input).1.toNat ++ later) := by
  induction measured : input.text.length using Nat.strong_induction_on
    generalizing round buffer input with
  | _ size inductionHypothesis =>
      obtain ⟨next, read⟩ : ∃ next, extractCallstack selfmap (garbage round).1
          (garbage round).2 buffer input = next := ⟨_, rfl⟩
      have written : next.1.written = _ := read ▸ written_extractCallstack
      cases failed : next.2.failed with
      | true =>
          rw [extractCallstacks_of_failed read failed, written]
          exact ⟨[], by rw [List.append_nil]⟩
      | false =>
          have shorter : next.2.text.length < size := by
            rw [← read, extractCallstack_snd] at failed ⊢
            exact measured ▸ (extractFields_succeeded failed).2.1
          obtain ⟨later, more⟩ := inductionHypothesis _ shorter rfl
          rw [extractCallstacks_of_read read failed]
          exact ⟨_, by rw [more, written, List.append_assoc]⟩

/-- A loop over an array stays in it exactly when its count fits. -/
theorem range_inside_iff (count : Int) :
    (∀ index ∈ List.range count.toNat, index < maxCallstackDepth) ↔
      count ≤ maxCallstackDepth := by
  simp only [List.mem_range]
  constructor
  · intro inside
    have last := inside (count.toNat - 1)
    omega
  · intro fits index below
    omega

/-- The loop writes only frames of the record exactly when all counts fit. -/
theorem written_inside_iff
    {text : Text} :
    (∀ index ∈ (extractCallstacks selfmap garbage round buffer
        ⟨text, false⟩).2.written, index < maxCallstackDepth) ↔
      (∀ index ∈ buffer.written, index < maxCallstackDepth) ∧
        ∀ count ∈ recordCounts selfmap buffer.callstack text,
          count ≤ maxCallstackDepth := by
  induction measured : text.length using Nat.strong_induction_on
    generalizing round buffer text with
  | _ size inductionHypothesis =>
      cases done : readCallstack selfmap buffer.callstack text with
      | some found =>
          obtain ⟨found, rest⟩ := found
          have read : extractCallstack selfmap (garbage round).1
              (garbage round).2 buffer ⟨text, false⟩ = _ :=
            extractCallstack_of_some done
          have shorter : rest.length < size :=
            measured ▸ readCallstack_shorter done
          rw [extractCallstacks_of_read read rfl, recordCounts_of_some done,
            inductionHypothesis _ shorter rfl, List.forall_mem_append,
            range_inside_iff, List.forall_mem_cons, extractDepth_of_some done,
            and_assoc]
      | none =>
          rw [recordCounts_of_none done, List.forall_mem_singleton]
          constructor
          · intro inside
            obtain ⟨later, written⟩ : ∃ later, _ = _ ++ (_ ++ later) :=
              written_extractCallstacks
            rw [written, List.forall_mem_append, List.forall_mem_append,
              range_inside_iff] at inside
            exact ⟨inside.1, inside.2.1⟩
          · rintro ⟨inside, fits⟩
            rw [extractCallstacks_of_failed rfl
                (extractCallstack_of_none done fits),
              written_extractCallstack, List.forall_mem_append,
              range_inside_iff]
            exact ⟨inside, fits⟩

/-- When all counts fit, the loop reads what `readCallstacks` reads. -/
theorem extractCallstacks_fst
    {text : Text}
    (fits : ∀ count ∈ recordCounts selfmap buffer.callstack text,
      count ≤ maxCallstackDepth) :
    (extractCallstacks selfmap garbage round buffer ⟨text, false⟩).1 =
      readCallstacks selfmap buffer.callstack text := by
  induction measured : text.length using Nat.strong_induction_on
    generalizing round buffer text with
  | _ size inductionHypothesis =>
      cases done : readCallstack selfmap buffer.callstack text with
      | some found =>
          obtain ⟨found, rest⟩ := found
          have read : extractCallstack selfmap (garbage round).1
              (garbage round).2 buffer ⟨text, false⟩ = _ :=
            extractCallstack_of_some done
          have shorter : rest.length < size :=
            measured ▸ readCallstack_shorter done
          rw [recordCounts_of_some done, List.forall_mem_cons] at fits
          rw [extractCallstacks_of_read read rfl, readCallstacks_of_some done,
            inductionHypothesis _ shorter fits.2 rfl]
      | none =>
          rw [recordCounts_of_none done, List.forall_mem_singleton] at fits
          rw [extractCallstacks_of_failed rfl
              (extractCallstack_of_none done fits),
            readCallstacks_of_none done]

end Loop

/-- A record is its own key. -/
theorem Callstack.site_hashed (callstack : Callstack) :
    callstack.hashed.val.site = callstack.site := by
  rw [site, site, hashed_stack, hashed_offset]

/-- Records are compared by their sites. -/
theorem Callstack.same_iff (first second : Callstack) :
    first.same second = true ↔ first.site = second.site := by
  simp only [Callstack.same, Callstack.site, Bool.and_eq_true, beq_iff_eq,
    Prod.mk.injEq]

/-- Records without frames are not inserted. -/
theorem insertCallstacks_filter
    (records : List Callstack) (map : CallstackMap) :
    insertCallstacks records map =
      insertCallstacks (records.filter fun record => 1 ≤ record.depth)
        map := by
  induction records generalizing map with
  | nil => rfl
  | cons record records inductionHypothesis =>
      by_cases recorded : 1 ≤ record.depth
      · rw [List.filter_cons, if_pos (decide_eq_true recorded),
          insertCallstacks, insertCallstacks, if_neg (by omega),
          if_neg (by omega)]
        congr 1
        funext next
        exact inductionHypothesis next
      · rw [List.filter_cons, if_neg (by simpa using recorded),
          insertCallstacks, if_pos (by omega), inductionHypothesis]

/-- The sites that the bindings of a list of records have as keys. -/
theorem map_site_recordBindings
    (size : Nat) (records : List Callstack) :
    (HashMap.recordBindings size records []).map
        (fun binding => binding.key.1.val.site) =
      records.map Callstack.site := by
  have pairs := congrArg
    (List.map fun pair : HashMap.SizedKey HashedCallstack × Callstack =>
      pair.1.1.val.site)
    (HashMap.map_recordBindings size records [])
  simpa only [List.map_nil, List.nil_append, List.map_map,
    Function.comp_def, Callstack.site_hashed] using pairs

/-- Inserting records leaves one entry for a key exactly when no two of them
have the same site. -/
theorem HashMap.Filled.oneEntryPerKey_iff
    {size : Nat}
    {map : CallstackMap}
    {records : List Callstack}
    (filled :
      HashMap.Filled size map (HashMap.recordBindings size records [])) :
    OneEntryPerKey map ↔ (records.map Callstack.site).Nodup := by
  obtain ⟨-, represents, addresses⟩ := filled
  have apart := HashMap.nodup_addresses addresses
  rw [← map_site_recordBindings size records,
    List.nodup_map_iff_inj_on (List.Nodup.of_map _ apart)]
  constructor
  · intro unique first firstMember second secondMember same
    apply List.inj_on_of_nodup_map apart firstMember secondMember
    apply unique _ _ (represents.laid.stored_iff.mpr ⟨first, firstMember, rfl⟩)
      (represents.laid.stored_iff.mpr ⟨second, secondMember, rfl⟩)
    rw [represents.entries first firstMember,
      represents.entries second secondMember]
    exact (Callstack.same_iff _ _).mpr same
  · intro unique first second firstStored secondStored same
    obtain ⟨one, oneMember, rfl⟩ := represents.laid.stored_iff.mp firstStored
    obtain ⟨two, twoMember, rfl⟩ := represents.laid.stored_iff.mp secondStored
    rw [represents.entries one oneMember,
      represents.entries two twoMember] at same
    exact congrArg _ (unique one oneMember two twoMember
      ((Callstack.same_iff _ _).mp same))

section Loads

variable {selfmap : SelfMap} {garbage : Nat → Word × Word} {number : Word}
  {callstack : Callstack} {text : Text} {memory : CallstackMap}
  {exponent : Nat}

/-- Loading is safe exactly when the loop writes only frames of the record and
reads no two records with one site. -/
theorem loadsSafely_iff_records
    (word : exponent < 64) :
    LoadsSafely selfmap garbage number callstack text
        (HashMap.initializeMap memory (2 ^ exponent)) ↔
      (∀ index ∈ (extractCallstacks selfmap garbage 0 ⟨callstack, []⟩
          (extractUnsigned 64 number ⟨text, false⟩).2).2.written,
        index < maxCallstackDepth) ∧
      (((extractCallstacks selfmap garbage 0 ⟨callstack, []⟩
          (extractUnsigned 64 number ⟨text, false⟩).2).1.filter
            fun record => 1 ≤ record.depth).map Callstack.site).Nodup := by
  generalize loaded : extractCallstacks selfmap garbage 0 ⟨callstack, []⟩
    (extractUnsigned 64 number ⟨text, false⟩).2 = records
  have recorded : ∀ record ∈ records.1.filter fun record => 1 ≤ record.depth,
      1 ≤ record.depth := by
    intro record member
    simpa using (List.mem_filter.mp member).2
  obtain ⟨final, inserted, filled⟩ :=
    (HashMap.filled_initializeMap memory word).insertCallstacks recorded
  rw [← insertCallstacks_filter] at inserted
  have result : extractHistoryInfo selfmap garbage number callstack text
      (HashMap.initializeMap memory (2 ^ exponent)) =
        some (records.2.written, final) := by
    have empty : HashMap.getEntryNumber
        (HashMap.initializeMap memory (2 ^ exponent)) = 0 := rfl
    rw [extractHistoryInfo, if_pos empty]
    simp only [loaded, inserted, Option.map_some]
  rw [LoadsSafely, result]
  simp only [Option.some.injEq, Prod.mk.injEq, and_assoc,
    exists_and_left, exists_eq_left', filled.oneEntryPerKey_iff]

/-- Nothing is read from a file that does not start with a number, and the
record is written as its old count says. -/
theorem extractCallstacks_of_unread
    (unread : readUnsigned 64 text = none)
    (selfmap : SelfMap) (garbage : Nat → Word × Word) (number : Word)
    (callstack : Callstack) :
    (extractCallstacks selfmap garbage 0 ⟨callstack, []⟩
        (extractUnsigned 64 number ⟨text, false⟩).2).1 = [] ∧
      (extractCallstacks selfmap garbage 0 ⟨callstack, []⟩
        (extractUnsigned 64 number ⟨text, false⟩).2).2.written =
          List.range callstack.depth.toNat := by
  have failed :
      (extractUnsigned 64 number ⟨text, false⟩).2.failed = true := by
    by_contra succeeded
    rw [Bool.not_eq_true] at succeeded
    obtain ⟨-, value, rest, read, -⟩ := extractUnsigned_succeeded succeeded
    rw [unread] at read
    cases read
  have stillFailed : (extractCallstack selfmap (garbage 0).1 (garbage 0).2
      ⟨callstack, []⟩
      (extractUnsigned 64 number ⟨text, false⟩).2).2.failed = true := by
    by_contra succeeded
    rw [Bool.not_eq_true, extractCallstack_snd] at succeeded
    rw [(extractFields_succeeded succeeded).1] at failed
    cases failed
  rw [extractCallstacks_of_failed rfl stillFailed, written_extractCallstack,
    extractDepth, extractSigned, extract_of_failed failed]
  exact ⟨rfl, rfl⟩

/-- When all counts fit, the map is the one that `loadHistoryInfo` makes of the
records. -/
theorem extractHistoryInfo_eq_loadHistoryInfo
    (fits : ∀ count ∈ fileCounts selfmap callstack text,
      count ≤ maxCallstackDepth)
    (map : CallstackMap) :
    (extractHistoryInfo selfmap garbage number callstack text map).map
        Prod.snd =
      loadHistoryInfo selfmap callstack (some text) map := by
  rw [extractHistoryInfo, loadHistoryInfo]
  split_ifs with empty
  · cases read : readUnsigned 64 text with
    | none =>
        have unread := extractCallstacks_of_unread read selfmap garbage number
          callstack
        simp only [unread.1, insertCallstacks, Option.map_some]
    | some found =>
        obtain ⟨value, rest⟩ := found
        rw [fileCounts, read] at fits
        have records : (extractCallstacks selfmap garbage 0 ⟨callstack, []⟩
            ⟨rest, false⟩).1 = readCallstacks selfmap callstack rest :=
          extractCallstacks_fst fits
        simp only [extractUnsigned_of_some read, records, Option.map_map,
          Function.comp_def, Option.map_id_fun', id]
  · rfl

/-- Loading a file stays inside the record and leaves one entry for a key
exactly when no record of the file has more frames than the array, the one that
the loop ends on included, and no two records with frames have one site. -/
theorem loadsSafely_iff
    (selfmap : SelfMap) (garbage : Nat → Word × Word) (number : Word)
    (callstack : Callstack) (text : Text) (memory : CallstackMap)
    (word : exponent < 64) :
    LoadsSafely selfmap garbage number callstack text
        (HashMap.initializeMap memory (2 ^ exponent)) ↔
      (∀ count ∈ fileCounts selfmap callstack text,
        count ≤ maxCallstackDepth) ∧
      ((fileRecords selfmap callstack text).map Callstack.site).Nodup := by
  rw [loadsSafely_iff_records word, fileCounts, fileRecords]
  cases read : readUnsigned 64 text with
  | none =>
      have unread := extractCallstacks_of_unread read selfmap garbage number
        callstack
      rw [unread.1, unread.2, range_inside_iff, List.forall_mem_singleton]
      rfl
  | some found =>
      obtain ⟨value, rest⟩ := found
      dsimp only
      rw [extractUnsigned_of_some read, written_inside_iff]
      constructor
      · rintro ⟨⟨-, fits⟩, distinct⟩
        rw [extractCallstacks_fst fits] at distinct
        exact ⟨fits, distinct⟩
      · rintro ⟨fits, distinct⟩
        rw [extractCallstacks_fst fits]
        exact ⟨⟨by simp, fits⟩, distinct⟩

/-- A file whose first record has more frames than the array is not loaded
safely. -/
theorem not_loadsSafely_of_deep
    (word : exponent < 64)
    {value : Word} {rest : Text}
    (read : readUnsigned 64 text = some (value, rest))
    (deep : maxCallstackDepth <
      (extractDepth callstack.depth ⟨rest, false⟩).1) :
    ¬LoadsSafely selfmap garbage number callstack text
      (HashMap.initializeMap memory (2 ^ exponent)) := by
  rw [loadsSafely_iff_records word, extractUnsigned_of_some read,
    written_inside_iff]
  rintro ⟨⟨-, fits⟩, -⟩
  rw [recordCounts] at fits
  exact absurd (fits _ List.mem_cons_self) (not_le.mpr deep)

end Loads

/-- A file with two records that have the same offset. -/
def twoRecords : Text :=
  "2\n1 1 0 50 24\n/bin/a 16 4112\n2 3 1 100 24\n/bin/a 32 4128\n_ 0 7\n".toList

/-- Its first record, read into the record of the sample. -/
def firstRecord : Callstack :=
  Callstack.rehash
    { sampleRecord with
      calledCounter := 1
      watchedRatio := 50
      offset := 24
      stack := Function.update sampleRecord.stack 0 0x1010 }

/-- Its second record, read into the first one. -/
def secondRecord : Callstack :=
  Callstack.rehash
    { firstRecord with
      depth := 2
      calledCounter := 3
      watchedCounter := 1
      watchedRatio := 100
      stack :=
        Function.update (Function.update firstRecord.stack 0 0x1020) 1 7 }

/-- Both are loaded safely. -/
theorem loadsSafely_iff_twoRecords :
    LoadsSafely (sampleMaps "/bin/a") (fun _ => (0, 0)) 0 sampleRecord
      twoRecords freshMap := by
  have number : readUnsigned 64 twoRecords =
      some (2, twoRecords.drop 1) := by
    decide +kernel
  have first : readCallstack (sampleMaps "/bin/a") sampleRecord
      (twoRecords.drop 1) = some (firstRecord, twoRecords.drop 28) := by
    decide +kernel
  have second : readCallstack (sampleMaps "/bin/a") firstRecord
      (twoRecords.drop 28) = some (secondRecord, twoRecords.drop 62) := by
    decide +kernel
  have ended : readCallstack (sampleMaps "/bin/a") secondRecord
      (twoRecords.drop 62) = none := by
    decide +kernel
  refine (loadsSafely_iff _ _ _ _ _ _ (by decide)).mpr ⟨?_, ?_⟩
  · rw [fileCounts, number]
    dsimp only
    rw [recordCounts_of_some first, recordCounts_of_some second,
      recordCounts_of_none ended]
    decide +kernel
  · rw [fileRecords, number]
    dsimp only
    rw [readCallstacks_of_some first, readCallstacks_of_some second,
      readCallstacks_of_none ended]
    decide +kernel
/-- A record of 15 frames makes `operator>>` write behind the array. -/
theorem deep_record_leaves_array :
    ¬∀ (selfmap : SelfMap) (garbage : Nat → Word × Word) (number : Word)
      (callstack : Callstack) (text : Text),
      LoadsSafely selfmap garbage number callstack text freshMap := by
  intro claimed
  have read : readUnsigned 64 "1\n15 0 0 50 0\n".toList =
      some (1, "\n15 0 0 50 0\n".toList) := by decide
  have deep : maxCallstackDepth < (extractDepth sampleRecord.depth
      ⟨"\n15 0 0 50 0\n".toList, false⟩).1 := by decide
  exact not_loadsSafely_of_deep (by decide) read deep
    (claimed (sampleMaps "/bin/a") (fun _ => (0, 0)) 0 sampleRecord
      "1\n15 0 0 50 0\n".toList)

end Causer
