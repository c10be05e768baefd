import Causer.Heap
import Causer.HashMap

/-!
# Call sites

The record of a call site: how it is told apart and hashed, what an allocation
does to its counters and its ratio, and the ratio that is written to the history
file.  The fields `period` and `periodcalled` decide only how often `startWatch`
draws and are added to the record there.
-/

namespace Causer

/-- Number of frames of a call stack. -/
abbrev maxCallstackDepth : Nat := 14

instance : NeZero maxCallstackDepth := ⟨by decide⟩

/-- Number of buckets of `_csMap`. -/
abbrev callstackMapSize : Nat := 0x80000

/-- The frames of a call stack. -/
abbrev Frames := Fin maxCallstackDepth → Word

/-- The record of a call site. -/
structure Callstack where
  depth : Int
  calledCounter : Int
  watchedCounter : Int
  watchedRatio : Int
  offset : Word
  hashcode : Word
  stack : Frames
  deriving DecidableEq

/-- `hash_combine`, for a value that is its own hash. -/
def hashCombine (seed value : Word) : Word :=
  seed ^^^ (value + 0x9e3779b9 + (seed <<< 6) + (seed >>> 2))

/-- `hash_value` of a pointer and an `int`, which is hashed as an
`unsigned int`. -/
def hashValue (first : Word) (second : BitVec 32) : Word :=
  hashCombine (hashCombine 0 first) (second.setWidth 64)

/-- An `int` after an increment. -/
def intIncrement (counter : Int) : Int := Int.bmod (counter + 1) (2 ^ 32)

namespace Callstack

/-- The hash that `startWatch` and `operator>>` store. -/
def hash (callstack : Callstack) : Word :=
  hashValue (callstack.stack 0) (callstack.offset.setWidth 32)

/-- `operator==`. -/
def same (first second : Callstack) : Bool :=
  first.stack 0 == second.stack 0 && first.offset == second.offset

/-- What `findOrAdd` makes of the value of a call site that it adds. -/
def reset (callstack : Callstack) : Callstack :=
  { callstack with
    depth := 0
    calledCounter := 0
    watchedCounter := 0
    watchedRatio := initWatchRatio }

/-- `causer::updateWatchedInfo`, with what `getCallsites` returns and the
frames it stores. -/
def updateWatchedInfo (watched : Bool) (depth : Int) (frames : Frames)
    (callstack : Callstack) : Callstack :=
  let counted : Callstack :=
    { callstack with
      calledCounter := intIncrement callstack.calledCounter
      watchedCounter :=
        if watched then intIncrement callstack.watchedCounter
        else callstack.watchedCounter
      watchedRatio :=
        Causer.updateWatchedInfo watched callstack.watchedRatio }
  if counted.depth = 0 then { counted with depth := depth, stack := frames }
  else counted

/-- `checkPointer` and `checkAllMemory` set the ratio of a call site whose
object has been overflowed. -/
def mark (callstack : Callstack) : Callstack :=
  { callstack with watchedRatio := maxWatchRatioUpperbound }

/-- What `operator<<` adds to the ratio of a call site. -/
def boost (watchedCounter boostratio : Int) : Int :=
  if watchedCounter < 2 then
    Int.shiftRight maxWatchRatioUpperbound 1 * boostratio
  else if watchedCounter < 5 then
    Int.tdiv maxWatchRatioUpperbound (watchedCounter + 1) * boostratio
  else 0

/-- The ratio that `operator<<` writes.  Its `float` arithmetic is exact on the
ratios of call sites. -/
def writtenRatio (boostratio : Int) (callstack : Callstack) : Int :=
  if callstack.watchedRatio ≠ maxWatchRatioUpperbound then
    let ratio :=
      callstack.watchedRatio + boost callstack.watchedCounter boostratio
    if ratio > maxWatchRatioUpperbound then maxWatchRatioUpperbound - 1
    else ratio
  else callstack.watchedRatio

/-- `boostratio` once `saveHistoryInfo` has looked for a call site whose ratio
is the maximum. -/
def savedBoostratio (boostratio : Int) (entries : List Callstack) : Int :=
  if entries.any fun entry => entry.watchedRatio = maxWatchRatioUpperbound then
    0
  else boostratio

end Callstack

end Causer
