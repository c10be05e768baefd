import Causer.HistoryFile

/-!
# The file names that a history file can hold

The reader keeps its place exactly when every frame is written with a name that
is one word.  A frame in an anonymous mapping is written without a name, and one
in a file with a blank in its name with several words; both shift what is read
after it.
-/

namespace Causer

open TextStream

/-- An `int`. -/
def IsInt (value : Int) : Prop := -2 ^ 31 ≤ value ∧ value < 2 ^ 31

instance (value : Int) : Decidable (IsInt value) :=
  inferInstanceAs (Decidable (_ ∧ _))

theorem IsInt.read
    {value : Int}
    (isInt : IsInt value) :
    readSigned 32 (writeSigned value) = some (value, []) :=
  readSigned_writeSigned isInt

/-- A call site with frames, and with values of the types of its fields. -/
structure Recordable (callstack : Callstack) : Prop where
  depth_pos : 1 ≤ callstack.depth
  depth_le : callstack.depth ≤ maxCallstackDepth
  calledCounter : IsInt callstack.calledCounter
  watchedCounter : IsInt callstack.watchedCounter
  watchedRatio : IsInt callstack.watchedRatio

/-- `boostratio` is 1 at first and 0 once an overflow is known. -/
def IsBoost (boostratio : Int) : Prop := boostratio = 0 ∨ boostratio = 1

/-- What is added to a ratio is at most half of the greatest one. -/
theorem Callstack.boost_bounds
    (watchedCounter : Int)
    {boostratio : Int}
    (isBoost : IsBoost boostratio) :
    0 ≤ boost watchedCounter boostratio ∧
      boost watchedCounter boostratio ≤ 5000 := by
  have half : Int.shiftRight maxWatchRatioUpperbound 1 = 5000 := by decide
  have third : ∀ divisor : Int, 2 ≤ divisor →
      0 ≤ Int.tdiv maxWatchRatioUpperbound divisor ∧
        Int.tdiv maxWatchRatioUpperbound divisor ≤ 5000 := by
    intro divisor large
    rw [Int.tdiv_eq_ediv_of_nonneg (by decide)]
    constructor
    · exact Int.ediv_nonneg (by decide) (by omega)
    · refine Int.ediv_le_of_le_mul (by omega) ?_
      simp only [maxWatchRatioUpperbound]
      omega
  unfold boost
  rcases isBoost with rfl | rfl
  · split_ifs <;> simp
  · split_ifs with few some
    · rw [half]
      decide
    · rw [mul_one]
      exact third _ (by omega)
    · decide

/-- The ratio that is written is an `int`. -/
theorem Callstack.isInt_writtenRatio
    {callstack : Callstack} {boostratio : Int}
    (isBoost : IsBoost boostratio)
    (isInt : IsInt callstack.watchedRatio) :
    IsInt (callstack.writtenRatio boostratio) := by
  have added := boost_bounds callstack.watchedCounter isBoost
  simp only [writtenRatio, IsInt, maxWatchRatioUpperbound] at isInt ⊢
  split_ifs <;> omega

/-- The frames of a record are at addresses of one kind. -/
def FramesIn (frames : Word → Prop) (callstack : Callstack) : Prop :=
  ∀ place : Fin maxCallstackDepth, (place : Int) < callstack.depth →
    frames (callstack.stack place)

/-- The name that is written for a frame is one word. -/
def OneWord (writer : SelfMap) (address : Word) : Prop :=
  wordCount (frameName writer address).1 = 1

/-- The frame that the reader makes of a frame that has been written. -/
def rereadFrame (writer reader : SelfMap) (address : Word) : Word :=
  frameAddress reader (firstWord (frameName writer address).1)
    (frameName writer address).2 address

section Records

variable {writer reader : SelfMap}

/-- A frame whose name is one word is read as far as the end of its line. -/
theorem readFrames_writeFrame
    {address : Word}
    (oneWord : OneWord writer address)
    (count : Nat) {index : Nat}
    (inside : index < maxCallstackDepth)
    (stack : Frames) (rest : Text) :
    readFrames reader (count + 1) index stack
        ('\n' :: (writeFrame writer address ++ rest)) =
      readFrames reader count (index + 1)
        (Function.update stack ⟨index, inside⟩
          (rereadFrame writer reader address))
        ('\n' :: rest) := by
  have one : wordCount (frameName writer address).1 = 1 := oneWord
  obtain ⟨word, left, read, counted⟩ := readWord_eq_some
    (show 0 < wordCount (frameName writer address).1 by omega)
  have blank : wordCount left = 0 := by omega
  have offsetRead := readUnsigned_writeUnsigned (frameName writer address).2
  have addressRead := readUnsigned_writeUnsigned address
  have first : firstWord (frameName writer address).1 = word := by
    rw [firstWord, read]
  simp only [writeFrame, List.append_assoc, List.cons_append, readFrames,
    Option.bind_eq_bind]
  rw [isToken_readWord.read_spaced read (by decide) (by decide),
    Option.bind_some]
  dsimp only
  rw [(isToken_readUnsigned 64).skips_append blank,
    (isToken_readUnsigned 64).read_spaced offsetRead (by decide) (by decide),
    Option.bind_some]
  dsimp only
  rw [List.nil_append, List.nil_append,
    (isToken_readUnsigned 64).read_spaced addressRead (by decide) (by decide),
    Option.bind_some]
  dsimp only
  rw [dif_pos inside, List.nil_append, rereadFrame, first]

/-- The frames from an index on, after some of them have been read again. -/
def rereadFrames (writer reader : SelfMap) (written old : Frames)
    (count index : Nat) : Frames := fun place =>
  if index ≤ place ∧ place < index + count then
    rereadFrame writer reader (written place)
  else old place

/-- Frames whose names are all one word are read as far as the end of their last
line. -/
theorem readFrames_writeFrames
    {written : Frames} {count index : Nat}
    (fits : index + count ≤ maxCallstackDepth)
    (oneWord : ∀ place : Fin maxCallstackDepth,
      index ≤ place → place < index + count →
        OneWord writer (written place))
    (old : Frames) (rest : Text) :
    readFrames reader count index old
        ('\n' :: (writeFrames writer written count index ++ rest)) =
      some (rereadFrames writer reader written old count index,
        '\n' :: rest) := by
  induction count generalizing index old with
  | zero =>
      rw [readFrames, writeFrames, List.nil_append, Option.some.injEq,
        Prod.mk.injEq]
      refine ⟨funext fun place => ?_, rfl⟩
      rw [rereadFrames, if_neg (by omega)]
  | succ count inductionHypothesis =>
      have inside : index < maxCallstackDepth := by omega
      rw [writeFrames, dif_pos inside, List.append_assoc,
        readFrames_writeFrame (oneWord ⟨index, inside⟩ le_rfl (by simp))
          count inside,
        inductionHypothesis (by omega) fun place from_next below =>
          oneWord place (by omega) (by omega)]
      congr 2
      funext place
      simp only [rereadFrames]
      by_cases here : place = ⟨index, inside⟩
      · subst here
        simp
      · have different : (place : Nat) ≠ index :=
          fun same => here (Fin.ext same)
        rw [Function.update_of_ne here]
        have same_range :
            (index + 1 ≤ place ∧ (place : Nat) < index + 1 + count) ↔
              (index ≤ place ∧ (place : Nat) < index + (count + 1)) := by
          omega
        simp only [same_range]

/-- The record that the reader makes of a record that has been written. -/
def reread (writer reader : SelfMap) (boostratio : Int)
    (old callstack : Callstack) : Callstack :=
  Callstack.rehash
    { callstack with
      watchedRatio := callstack.writtenRatio boostratio
      hashcode := old.hashcode
      stack := rereadFrames writer reader callstack.stack old.stack
        callstack.depth.toNat 0 }

/-- The numbers of a record are read whatever its frames are. -/
theorem readCallstack_numbers
    {boostratio : Int}
    (isBoost : IsBoost boostratio)
    {callstack : Callstack}
    (recordable : Recordable callstack)
    (old : Callstack) (rest : Text) :
    readCallstack reader old
        (writeCallstack writer boostratio callstack ++ rest) =
      (readFrames reader callstack.depth.toNat 0 old.stack
        ('\n' :: (writeFrames writer callstack.stack callstack.depth.toNat 0 ++
          rest))).bind fun (stack, text) =>
        some
          (Callstack.rehash
            { callstack with
              watchedRatio := callstack.writtenRatio boostratio
              hashcode := old.hashcode
              stack := stack },
            text) := by
  have shallow := recordable.depth_le
  have small : (maxCallstackDepth : Int) = 14 := rfl
  have positive := recordable.depth_pos
  have isDepth : IsInt callstack.depth := ⟨by omega, by omega⟩
  have ratio := Callstack.isInt_writtenRatio isBoost recordable.watchedRatio
  simp only [writeCallstack, List.append_assoc, List.cons_append,
    readCallstack, Option.bind_eq_bind]
  rw [(isToken_readSigned 32).read_before isDepth.read (by decide),
    Option.bind_some]
  dsimp only
  rw [List.nil_append, (isToken_readSigned 32).read_spaced
      recordable.calledCounter.read (by decide) (by decide),
    Option.bind_some]
  dsimp only
  rw [List.nil_append, (isToken_readSigned 32).read_spaced
      recordable.watchedCounter.read (by decide) (by decide),
    Option.bind_some]
  dsimp only
  rw [List.nil_append, (isToken_readSigned 32).read_spaced ratio.read
      (by decide) (by decide),
    Option.bind_some]
  dsimp only
  rw [List.nil_append, (isToken_readUnsigned 64).read_spaced
      (readUnsigned_writeUnsigned callstack.offset) (by decide) (by decide),
    Option.bind_some]
  rfl

/-- A record whose names are all one word is read as far as the end of its last
line. -/
theorem readCallstack_writeCallstack
    {boostratio : Int}
    (isBoost : IsBoost boostratio)
    {callstack : Callstack}
    (recordable : Recordable callstack)
    (oneWord : FramesIn (OneWord writer) callstack)
    (old : Callstack) (rest : Text) :
    readCallstack reader old
        (writeCallstack writer boostratio callstack ++ rest) =
      some (reread writer reader boostratio old callstack, '\n' :: rest) := by
  have shallow := recordable.depth_le
  have frames : readFrames reader callstack.depth.toNat 0 old.stack
      ('\n' :: (writeFrames writer callstack.stack callstack.depth.toNat 0 ++
        rest)) =
      some (rereadFrames writer reader callstack.stack old.stack
        callstack.depth.toNat 0, '\n' :: rest) :=
    readFrames_writeFrames (by omega)
      (fun place _ below => oneWord place (by omega)) old.stack rest
  rw [readCallstack_numbers isBoost recordable, frames, Option.bind_some]
  rfl

theorem readCallstack_skips
    {spaces : Text}
    (blank : wordCount spaces = 0)
    (old : Callstack) (text : Text) :
    readCallstack reader old (spaces ++ text) =
      readCallstack reader old text := by
  rw [readCallstack, readCallstack,
    (isToken_readSigned 32).skips_append blank]

/-- The records that the reader makes of records that have been written, each
over the one before it. -/
def rereadAll (writer reader : SelfMap) (boostratio : Int) :
    Callstack → List Callstack → List Callstack
  | _, [] => []
  | old, callstack :: callstacks =>
      let read := reread writer reader boostratio old callstack
      read :: rereadAll writer reader boostratio read callstacks

/-- Records whose names are all one word are read back in order, and nothing is
read after them. -/
theorem readCallstacks_writeCallstacks
    (reader : SelfMap)
    {boostratio : Int}
    (isBoost : IsBoost boostratio)
    {callstacks : List Callstack}
    (recordable : ∀ callstack ∈ callstacks, Recordable callstack)
    (oneWord : ∀ callstack ∈ callstacks, FramesIn (OneWord writer) callstack)
    {spaces : Text}
    (blank : wordCount spaces = 0)
    (old : Callstack) :
    readCallstacks reader old
        (spaces ++ writeCallstacks writer boostratio callstacks) =
      rereadAll writer reader boostratio old callstacks := by
  induction callstacks generalizing spaces old with
  | nil =>
      apply readCallstacks_of_none
      rw [readCallstack_skips blank]
      rfl
  | cons callstack callstacks inductionHypothesis =>
      rw [List.forall_mem_cons] at recordable oneWord
      have read : readCallstack reader old
          (spaces ++ writeCallstacks writer boostratio
            (callstack :: callstacks)) =
          some (reread writer reader boostratio old callstack,
            '\n' :: writeCallstacks writer boostratio callstacks) := by
        rw [readCallstack_skips blank]
        exact readCallstack_writeCallstack isBoost recordable.1 oneWord.1 old _
      have later := inductionHypothesis recordable.2 oneWord.2
        (show wordCount ['\n'] = 0 by decide)
        (reread writer reader boostratio old callstack)
      rw [readCallstacks_of_some read, rereadAll]
      exact congrArg _ later

end Records

/-- The record has the depth, the counters and the offset that were written. -/
structure SameRecord (written read : Callstack) : Prop where
  depth : read.depth = written.depth
  calledCounter : read.calledCounter = written.calledCounter
  watchedCounter : read.watchedCounter = written.watchedCounter
  offset : read.offset = written.offset

/-- The reader goes through as many records as were written, in their order and
with their numbers. -/
def ReadsBack (writer reader : SelfMap) (boostratio : Int) (old : Callstack)
    (callstacks : List Callstack) : Prop :=
  List.Forall₂ SameRecord callstacks
    (readCallstacks reader old
      (writeCallstacks writer boostratio callstacks))

theorem forall₂_rereadAll
    (writer reader : SelfMap) (boostratio : Int) (old : Callstack)
    (callstacks : List Callstack) :
    List.Forall₂ SameRecord callstacks
      (rereadAll writer reader boostratio old callstacks) := by
  induction callstacks generalizing old with
  | nil => exact List.Forall₂.nil
  | cons callstack callstacks inductionHypothesis =>
      exact List.Forall₂.cons ⟨rfl, rfl, rfl, rfl⟩ (inductionHypothesis _)

/-- The depth is the first number of a record. -/
theorem readCallstack_depth
    {reader : SelfMap} {old read : Callstack} {text rest : Text}
    (done : readCallstack reader old text = some (read, rest)) :
    ∃ left, readSigned 32 text = some (read.depth, left) := by
  obtain ⟨depth, called, watched, ratio, offset, stack, first, second, third,
    fourth, fifth, one, two, three, four, five, frames, isRead⟩ :=
      readCallstack_eq_some done
  refine ⟨first, ?_⟩
  rw [one, ← isRead]
  rfl

section Names

variable {writer reader : SelfMap}

/-- A frame without a name leaves the reader without an address. -/
theorem readFrames_blank
    {address : Word}
    (blank : wordCount (frameName writer address).1 = 0)
    (stack : Frames) :
    readFrames reader 1 0 stack ('\n' :: (writeFrame writer address ++ [])) =
      none := by
  have offsetRead : readWord (writeUnsigned (frameName writer address).2) =
      some (writeUnsigned (frameName writer address).2, []) :=
    readWord_writeUnsigned _
  have addressRead := readUnsigned_writeUnsigned address
  simp only [writeFrame, List.append_assoc, List.cons_append, readFrames,
    Option.bind_eq_bind]
  rw [isToken_readWord.skips (by decide), isToken_readWord.skips_append blank,
    isToken_readWord.read_spaced offsetRead (by decide) (by decide),
    Option.bind_some]
  dsimp only
  rw [List.nil_append, List.append_nil,
    (isToken_readUnsigned 64).read_spaced addressRead (by decide) (by decide),
    Option.bind_some]
  dsimp only
  rw [(isToken_readUnsigned 64).eq_none (by decide), Option.bind_none]

/-- What is read of the only frame of a record after its name. -/
def readAddress (reader : SelfMap) (name : Text) (stack : Frames) :
    Reader Frames := fun text => do
  let (offset, text) ← readUnsigned 64 text
  let (original, text) ← readUnsigned 64 text
  some (Function.update stack ⟨0, by decide⟩
    (frameAddress reader name offset original), text)

/-- A frame with several words in its name is not read as far as the end of its
line, whatever comes after it. -/
theorem readFrames_words
    (reader : SelfMap)
    {address : Word}
    (several : 2 ≤ wordCount (frameName writer address).1)
    (stack : Frames) :
    ∃ outcome : Option (Frames × Text),
      (∀ rest, readFrames reader 1 0 stack
          ('\n' :: (writeFrame writer address ++ rest)) =
        outcome.map fun (read, left) => (read, left ++ '\n' :: rest)) ∧
      ∀ read left, outcome = some (read, left) → 0 < wordCount left := by
  let line := (frameName writer address).1 ++
    ' ' :: (writeUnsigned (frameName writer address).2 ++
      ' ' :: writeUnsigned address)
  have written : ∀ rest, writeFrame writer address ++ rest =
      line ++ '\n' :: rest := by
    intro rest
    simp [writeFrame, line]
  have offsetWord := isToken_readWord.wordCount_pos
    (readWord_writeUnsigned (frameName writer address).2)
  have addressWord := isToken_readWord.wordCount_pos
    (readWord_writeUnsigned address)
  have words : 4 ≤ wordCount line := by
    have blank : isSpace ' ' = true := by decide
    rw [wordCount_append_cons _ blank, wordCount_append_cons _ blank]
    omega
  obtain ⟨name, afterName, nameRead, nameWords⟩ :=
    readWord_eq_some (show 0 < wordCount line by omega)
  have begins : ∀ rest, readFrames reader 1 0 stack
      ('\n' :: (writeFrame writer address ++ rest)) =
        readAddress reader name stack (afterName ++ '\n' :: rest) := by
    intro rest
    rw [written, readFrames, isToken_readWord.read_spaced nameRead
      (by decide) (by decide)]
    rfl
  simp only [begins]
  cases offsetRead : readUnsigned 64 afterName with
  | none =>
      refine ⟨none, fun rest => ?_, by simp⟩
      rw [readAddress, (isToken_readUnsigned 64).apart (by omega) (by decide),
        offsetRead]
      rfl
  | some offset =>
      have offsetWords := (isToken_readUnsigned 64).words offsetRead
      cases addressRead : readUnsigned 64 offset.2 with
      | none =>
          refine ⟨none, fun rest => ?_, by simp⟩
          rw [readAddress,
            (isToken_readUnsigned 64).apart (by omega) (by decide),
            offsetRead]
          simp only [Option.map_some, Option.bind_eq_bind, Option.bind_some]
          rw [(isToken_readUnsigned 64).apart (by omega) (by decide),
            addressRead]
          rfl
      | some original =>
          have addressWords := (isToken_readUnsigned 64).words addressRead
          refine ⟨some (Function.update stack ⟨0, by decide⟩
            (frameAddress reader name offset.1 original.1), original.2),
            fun rest => ?_, ?_⟩
          · rw [readAddress,
              (isToken_readUnsigned 64).apart (by omega) (by decide),
              offsetRead]
            simp only [Option.map_some, Option.bind_eq_bind, Option.bind_some]
            rw [(isToken_readUnsigned 64).apart (by omega) (by decide),
              addressRead]
            rfl
          · intro read left same
            rw [Option.some.injEq, Prod.mk.injEq] at same
            rw [← same.2]
            omega

/-- A record whose frames are all at one address. -/
def frameRecord (address : Word) (depth : Int) : Callstack where
  depth := depth
  calledCounter := 0
  watchedCounter := 0
  watchedRatio := 0
  offset := 0
  hashcode := 0
  stack := fun _ => address

theorem recordable_frameRecord
    (address : Word) {depth : Int}
    (positive : 1 ≤ depth)
    (small : depth ≤ maxCallstackDepth) :
    Recordable (frameRecord address depth) :=
  ⟨positive, small, (by decide : IsInt 0), (by decide : IsInt 0),
    (by decide : IsInt 0)⟩

variable {boostratio : Int} (isBoost : IsBoost boostratio)
include isBoost

variable (writer reader) in
/-- The only frame of a record is read after its numbers. -/
theorem readCallstack_frameRecord
    (address : Word) (old : Callstack) (rest : Text) :
    readCallstack reader old
        (writeCallstack writer boostratio (frameRecord address 1) ++ rest) =
      (readFrames reader 1 0 old.stack
        ('\n' :: (writeFrame writer address ++ rest))).bind
          fun (stack, text) =>
        some
          (Callstack.rehash
            { frameRecord address 1 with
              watchedRatio := (frameRecord address 1).writtenRatio boostratio
              hashcode := old.hashcode
              stack := stack },
            text) := by
  have line : writeFrames writer (frameRecord address 1).stack
      (frameRecord address 1).depth.toNat 0 = writeFrame writer address := by
    change writeFrame writer address ++ [] = writeFrame writer address
    rw [List.append_nil]
  rw [readCallstack_numbers isBoost
    (recordable_frameRecord address le_rfl (by decide)), line]
  rfl

variable (reader) in
/-- A record whose only frame has no name is lost at the end of a file. -/
theorem not_readsBack_blank
    {address : Word}
    (blank : wordCount (frameName writer address).1 = 0)
    (old : Callstack) :
    ¬ReadsBack writer reader boostratio old [frameRecord address 1] := by
  have failed : readCallstack reader old
      (writeCallstacks writer boostratio [frameRecord address 1]) = none := by
    rw [writeCallstacks, List.flatMap_cons, List.flatMap_nil,
      readCallstack_frameRecord writer reader isBoost, readFrames_blank blank,
      Option.bind_none]
  rw [ReadsBack, readCallstacks_of_none failed]
  intro same
  cases same

variable (reader) in
/-- A record with several words in the name of its only frame leaves one of its
words to be read as the depth of the next record. -/
theorem readsBack_words
    {address : Word}
    (several : 2 ≤ wordCount (frameName writer address).1)
    (old : Callstack) :
    ∃ depth : Option Int, ∀ next : Int,
      ReadsBack writer reader boostratio old
        [frameRecord address 1, frameRecord address next] →
          depth = some next := by
  obtain ⟨outcome, reads, leaves⟩ :=
    readFrames_words reader several old.stack
  have text : ∀ next, writeCallstacks writer boostratio
      [frameRecord address 1, frameRecord address next] =
        writeCallstack writer boostratio (frameRecord address 1) ++
          writeCallstacks writer boostratio [frameRecord address next] :=
    fun _ => rfl
  cases outcome with
  | none =>
      refine ⟨none, fun next readsBack => ?_⟩
      rw [ReadsBack, text, readCallstacks_of_none (by
        rw [readCallstack_frameRecord writer reader isBoost, reads]
        rfl)] at readsBack
      cases readsBack
  | some first =>
      refine ⟨(readSigned 32 first.2).map Prod.fst, fun next readsBack => ?_⟩
      have firstRead := readCallstack_frameRecord writer reader isBoost address
        old (writeCallstacks writer boostratio [frameRecord address next])
      rw [reads] at firstRead
      rw [ReadsBack, text, readCallstacks_of_some firstRead] at readsBack
      obtain ⟨-, later⟩ := List.forall₂_cons.mp readsBack
      have word := leaves first.1 first.2 rfl
      cases secondRead : readCallstack reader _ (first.2 ++ '\n' ::
          writeCallstacks writer boostratio [frameRecord address next]) with
      | none =>
          rw [readCallstacks_of_none secondRead] at later
          cases later
      | some second =>
          rw [readCallstacks_of_some secondRead] at later
          have same := (List.forall₂_cons.mp later).1.depth
          obtain ⟨left, depthRead⟩ := readCallstack_depth secondRead
          rw [(isToken_readSigned 32).apart word (by decide)] at depthRead
          obtain ⟨found, read, kept⟩ := Option.map_eq_some_iff.mp depthRead
          rw [Prod.mk.injEq] at kept
          rw [read, Option.map_some, kept.1, same]
          rfl

end Names

/-- For the frames at given addresses, every list of records is read back
exactly when the name written for each of the addresses is one word. -/
theorem readsBack_iff
    (writer reader : SelfMap)
    {boostratio : Int}
    (isBoost : IsBoost boostratio)
    (old : Callstack)
    (frames : Word → Prop) :
    (∀ callstacks : List Callstack,
      (∀ callstack ∈ callstacks,
        Recordable callstack ∧ FramesIn frames callstack) →
          ReadsBack writer reader boostratio old callstacks) ↔
      ∀ address, frames address → OneWord writer address := by
  constructor
  · intro readsBack address isFrame
    have allowed : ∀ depth : Int, 1 ≤ depth → depth ≤ maxCallstackDepth →
        Recordable (frameRecord address depth) ∧
          FramesIn frames (frameRecord address depth) :=
      fun depth positive small =>
        ⟨recordable_frameRecord address positive small, fun _ _ => isFrame⟩
    have one := allowed 1 le_rfl (by decide)
    by_contra other
    rw [OneWord] at other
    by_cases blank : wordCount (frameName writer address).1 = 0
    · have lost := not_readsBack_blank reader isBoost blank old
      exact lost (readsBack _ (by simp [one]))
    · obtain ⟨depth, next⟩ := readsBack_words reader isBoost
        (show 2 ≤ wordCount (frameName writer address).1 by omega) old
      have two := allowed 2 (by decide) (by decide)
      have isOne := next 1 (readsBack _ (by simp [one]))
      have isTwo := next 2 (readsBack _ (by simp [one, two]))
      rw [isOne] at isTwo
      exact absurd isTwo (by decide)
  · intro oneWord callstacks allowed
    have read := readCallstacks_writeCallstacks reader isBoost
      (fun callstack member => (allowed callstack member).1)
      (fun callstack member place below =>
        oneWord _ ((allowed callstack member).2 place below))
      (show wordCount [] = 0 by rfl) old
    rw [List.nil_append] at read
    rw [ReadsBack, read]
    exact forall₂_rereadAll writer reader boostratio old callstacks

/-- A call site with one frame. -/
def sampleRecord : Callstack := frameRecord 0x1010 1

/-- One mapping of program text. -/
def sampleMaps (file : String) : SelfMap :=
  SelfMap.ofMaps [⟨0x1000, 0x2000, true, false, true, file.toList⟩]

theorem readsBack_iff_sample :
    (∀ callstacks : List Callstack,
      (∀ callstack ∈ callstacks,
        Recordable callstack ∧ FramesIn (· = 0x1010) callstack) →
          ReadsBack (sampleMaps "/bin/a") (sampleMaps "/bin/a") 1
            sampleRecord callstacks) ↔
      ∀ address, address = 0x1010 → OneWord (sampleMaps "/bin/a") address :=
  readsBack_iff (sampleMaps "/bin/a") (sampleMaps "/bin/a") (Or.inr rfl)
    sampleRecord (· = 0x1010)

/-- A record with one frame in anonymous memory, or in a file that has been
deleted, is not read back. -/
theorem not_readsBack_sample :
    ¬ReadsBack (sampleMaps "") (sampleMaps "") 1 sampleRecord
        [sampleRecord] ∧
      ¬ReadsBack (sampleMaps "/bin/a (deleted)")
        (sampleMaps "/bin/a (deleted)") 1 sampleRecord [sampleRecord] := by
  have failed : ∀ selfmap ∈ [sampleMaps "", sampleMaps "/bin/a (deleted)"],
      readCallstack selfmap sampleRecord
        (writeCallstacks selfmap 1 [sampleRecord]) = none := by
    decide +kernel
  rw [List.forall_mem_cons, List.forall_mem_singleton] at failed
  constructor
  · rw [ReadsBack, readCallstacks_of_none failed.1]
    intro same
    cases same
  · rw [ReadsBack, readCallstacks_of_none failed.2]
    intro same
    cases same

end Causer
