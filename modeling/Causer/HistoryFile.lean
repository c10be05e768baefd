import Causer.Callstack
import Causer.SelfMap

/-!
# The text of a history file

`operator<<` writes a record as a line of numbers and one line for each frame,
with the name of the file whose text it is in and the offset from its base;
`operator>>` reads words and numbers wherever the lines are, and looks the name
up among its own mappings.  A reader that has failed ends the loop of
`loadHistoryInfo`.
-/

namespace Causer

open TextStream

/-- The name and the offset that are written for a frame. -/
def frameName (selfmap : SelfMap) (address : Word) : Text × Word :=
  match selfmap.getMappingByAddress address with
  | some mapping => (mapping.file, address - mapping.base)
  | none => (['_'], 0)

/-- The line of a frame. -/
def writeFrame (selfmap : SelfMap) (address : Word) : Text :=
  let (file, offset) := frameName selfmap address
  file ++ ' ' :: (writeUnsigned offset ++
    ' ' :: (writeUnsigned address ++ ['\n']))

/-- The loop of `operator<<`, from an index on.  It does not leave the array. -/
def writeFrames (selfmap : SelfMap) (stack : Frames) : Nat → Nat → Text
  | 0, _ => []
  | count + 1, index =>
      if inside : index < maxCallstackDepth then
        writeFrame selfmap (stack ⟨index, inside⟩) ++
          writeFrames selfmap stack count (index + 1)
      else []

/-- `operator<<`. -/
def writeCallstack (selfmap : SelfMap) (boostratio : Int)
    (callstack : Callstack) : Text :=
  writeSigned callstack.depth ++
    ' ' :: (writeSigned callstack.calledCounter ++
    ' ' :: (writeSigned callstack.watchedCounter ++
    ' ' :: (writeSigned (callstack.writtenRatio boostratio) ++
    ' ' :: (writeUnsigned callstack.offset ++
    '\n' :: writeFrames selfmap callstack.stack callstack.depth.toNat 0))))

/-- The text of a list of records. -/
def writeCallstacks (selfmap : SelfMap) (boostratio : Int)
    (callstacks : List Callstack) : Text :=
  callstacks.flatMap (writeCallstack selfmap boostratio)

/-- The address that a frame is given.  A base of zero counts as no mapping. -/
def frameAddress (selfmap : SelfMap) (name : Text)
    (offset original : Word) : Word :=
  match selfmap.getMappingByFileName name with
  | some mapping =>
      if mapping.base ≠ 0 then mapping.base + offset else original
  | none => original

/-- The loop of `operator>>`, from an index on.  It fails where it would write
behind the array. -/
def readFrames (selfmap : SelfMap) : Nat → Nat → Frames → Reader Frames
  | 0, _, stack, text => some (stack, text)
  | count + 1, index, stack, text => do
      let (name, text) ← readWord text
      let (offset, text) ← readUnsigned 64 text
      let (original, text) ← readUnsigned 64 text
      if inside : index < maxCallstackDepth then
        readFrames selfmap count (index + 1)
          (Function.update stack ⟨index, inside⟩
            (frameAddress selfmap name offset original))
          text
      else none

/-- The new hash of a call site that has been read. -/
def Callstack.rehash (callstack : Callstack) : Callstack :=
  { callstack with hashcode := callstack.hash }

/-- `operator>>`, into a record that it overwrites. -/
def readCallstack (selfmap : SelfMap) (callstack : Callstack) :
    Reader Callstack := fun text => do
  let (depth, text) ← readSigned 32 text
  let (calledCounter, text) ← readSigned 32 text
  let (watchedCounter, text) ← readSigned 32 text
  let (watchedRatio, text) ← readSigned 32 text
  let (offset, text) ← readUnsigned 64 text
  let (stack, text) ←
    readFrames selfmap depth.toNat 0 callstack.stack text
  some
    (Callstack.rehash
      { callstack with
        depth := depth
        calledCounter := calledCounter
        watchedCounter := watchedCounter
        watchedRatio := watchedRatio
        offset := offset
        stack := stack },
      text)

/-- What the loop reads in one round. -/
theorem readFrames_succ_eq_some
    {selfmap : SelfMap} {count index : Nat} {stack read : Frames}
    {text rest : Text}
    (done : readFrames selfmap (count + 1) index stack text =
      some (read, rest)) :
    ∃ name offset original first second third,
      readWord text = some (name, first) ∧
        readUnsigned 64 first = some (offset, second) ∧
        readUnsigned 64 second = some (original, third) ∧
        ∃ inside : index < maxCallstackDepth,
          readFrames selfmap count (index + 1)
            (Function.update stack ⟨index, inside⟩
              (frameAddress selfmap name offset original)) third =
            some (read, rest) := by
  simp only [readFrames, Option.bind_eq_bind,
    Option.bind_eq_some_iff] at done
  obtain ⟨⟨name, first⟩, word, ⟨offset, second⟩, number,
    ⟨original, third⟩, address, last⟩ := done
  dsimp only at number address last
  split_ifs at last with inside
  exact ⟨name, offset, original, first, second, third, word, number, address,
    inside, last⟩

/-- What a record that is read consists of. -/
theorem readCallstack_eq_some
    {selfmap : SelfMap} {callstack read : Callstack} {text rest : Text}
    (done : readCallstack selfmap callstack text = some (read, rest)) :
    ∃ depth called watched ratio offset stack first second third fourth fifth,
      readSigned 32 text = some (depth, first) ∧
        readSigned 32 first = some (called, second) ∧
        readSigned 32 second = some (watched, third) ∧
        readSigned 32 third = some (ratio, fourth) ∧
        readUnsigned 64 fourth = some (offset, fifth) ∧
        readFrames selfmap depth.toNat 0 callstack.stack fifth =
          some (stack, rest) ∧
        Callstack.rehash
          { callstack with
            depth := depth
            calledCounter := called
            watchedCounter := watched
            watchedRatio := ratio
            offset := offset
            stack := stack } = read := by
  simp only [readCallstack, Option.bind_eq_bind,
    Option.bind_eq_some_iff] at done
  obtain ⟨⟨depth, first⟩, one, ⟨called, second⟩, two, ⟨watched, third⟩, three,
    ⟨ratio, fourth⟩, four, ⟨offset, fifth⟩, five, ⟨stack, last⟩, frames,
    same⟩ := done
  dsimp only at two three four five frames same
  rw [Option.some.injEq, Prod.mk.injEq] at same
  obtain ⟨isRead, rfl⟩ := same
  exact ⟨depth, called, watched, ratio, offset, stack, first, second, third,
    fourth, fifth, one, two, three, four, five, frames, isRead⟩

/-- The frames are read from the text that is left. -/
theorem readFrames_length_le
    {selfmap : SelfMap} {count index : Nat} {stack read : Frames}
    {text rest : Text}
    (done : readFrames selfmap count index stack text = some (read, rest)) :
    rest.length ≤ text.length := by
  induction count generalizing index stack text with
  | zero =>
      rw [readFrames, Option.some.injEq, Prod.mk.injEq] at done
      rw [done.2]
  | succ count inductionHypothesis =>
      obtain ⟨name, offset, original, first, second, third, word, number,
        address, inside, last⟩ := readFrames_succ_eq_some done
      have afterWord := isToken_readWord.shorter word
      have afterNumber := (isToken_readUnsigned 64).shorter number
      have afterAddress := (isToken_readUnsigned 64).shorter address
      have afterFrames := inductionHypothesis last
      omega

/-- Reading a record uses up text. -/
theorem readCallstack_shorter
    {selfmap : SelfMap} {callstack read : Callstack} {text rest : Text}
    (done : readCallstack selfmap callstack text = some (read, rest)) :
    rest.length < text.length := by
  obtain ⟨depth, called, watched, ratio, offset, stack, first, second, third,
    fourth, fifth, one, two, three, four, five, frames, -⟩ :=
      readCallstack_eq_some done
  have afterDepth := (isToken_readSigned 32).shorter one
  have afterCalled := (isToken_readSigned 32).shorter two
  have afterWatched := (isToken_readSigned 32).shorter three
  have afterRatio := (isToken_readSigned 32).shorter four
  have afterOffset := (isToken_readUnsigned 64).shorter five
  have afterFrames := readFrames_length_le frames
  omega

/-- The records that `while(ifile >> curstack)` goes through. -/
def readCallstacks (selfmap : SelfMap) (callstack : Callstack) (text : Text) :
    List Callstack :=
  match _ : readCallstack selfmap callstack text with
  | none => []
  | some (read, rest) => read :: readCallstacks selfmap read rest
termination_by text.length
decreasing_by exact readCallstack_shorter ‹_›

theorem readCallstacks_of_none
    {selfmap : SelfMap} {callstack : Callstack} {text : Text}
    (failed : readCallstack selfmap callstack text = none) :
    readCallstacks selfmap callstack text = [] := by
  rw [readCallstacks]
  split
  · rfl
  · next done => rw [failed] at done; exact absurd done (by simp)

theorem readCallstacks_of_some
    {selfmap : SelfMap} {callstack read : Callstack} {text rest : Text}
    (done : readCallstack selfmap callstack text = some (read, rest)) :
    readCallstacks selfmap callstack text =
      read :: readCallstacks selfmap read rest := by
  rw [readCallstacks]
  split
  · next failed => rw [failed] at done; exact absurd done (by simp)
  · next other left again =>
      rw [again, Option.some.injEq, Prod.mk.injEq] at done
      obtain ⟨rfl, rfl⟩ := done
      rfl

end Causer
