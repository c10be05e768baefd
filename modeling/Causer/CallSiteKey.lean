import Causer.Library.ByteMemory
import Causer.Library.Machine
import Causer.Library.WordArithmetic

/-!
# The key of a call site

The first call of `getCallSiteKey` walks up the stack to the frame that returns
to the application, and keeps the distance to that frame.  All later calls, on
whatever stack and through whatever function of the library, read the return
address at that distance.  They find the address that a walk would find exactly
if their own frame lies at the same distance, unless the word found instead
happens to be the same.
-/

namespace Causer

open ByteMemory WordArithmetic

/-- `_causerStart` and `_causerEnd`. -/
structure LibraryRange where
  causerStart : Nat
  causerEnd : Nat

/-- The address lies in the library. -/
def LibraryRange.isCauserLibrary (library : LibraryRange) (pcaddr : Nat) :
    Bool :=
  decide (pcaddr ≥ library.causerStart) && decide (pcaddr ≤ library.causerEnd)

/-- How the compiler lays out the frame of `getCallSiteKey`: how far its
variable `current_frame` and the stack pointer lie below the frame address. -/
structure KeyFrame where
  currentFrame : Nat
  esp : Nat
  positive : 0 < currentFrame

/-- What a call of `getCallSiteKey` finds: memory, its own frame address and the
`startFrame` of its thread. -/
structure KeyCall where
  memory : Memory
  frameAddress : Nat
  startFrame : Nat

/-- What a call stores in `callsites[0]`, what it returns, and the offset that
is kept after it. -/
structure CallSiteKey where
  callsite : Nat
  stackOffset : Nat
  causerStackOffset : Nat
  deriving DecidableEq

namespace KeyCall

variable (library : LibraryRange) (layout : KeyFrame) (call : KeyCall)

/-- The field `prev` of a frame. -/
def prev (frame : Nat) : Nat := readWord call.memory frame

/-- The field `caller_address` of a frame. -/
def callerAddress (frame : Nat) : Nat := readWord call.memory (frame + 8)

/-- The loop that walks up the stack. -/
def walkFrames : Nat → Nat → Option Nat
  | 0, _ => none
  | fuel + 1, prevFrame =>
      if prevFrame ≤ call.startFrame ∧ call.frameAddress ≤ prevFrame ∧
          library.isCauserLibrary (call.callerAddress prevFrame) then
        walkFrames fuel (call.prev prevFrame)
      else some prevFrame

/-- `getStackOffset`. -/
def getStackOffset : Nat :=
  sub call.startFrame (sub call.frameAddress layout.esp)

/-- `getCallSiteKey`.  The frames on a stack rise up to `startFrame`, so the
walk has fuel for all of them. -/
def getCallSiteKey (causerStackOffset : Nat) : Option CallSiteKey :=
  let currentFrame := sub call.frameAddress layout.currentFrame
  if causerStackOffset = 0 then
    (call.walkFrames library (call.startFrame + 2) call.frameAddress).map
      fun prevFrame =>
        { callsite := call.callerAddress prevFrame
          stackOffset := call.getStackOffset layout
          causerStackOffset := sub prevFrame currentFrame }
  else
    let prevFrame := add currentFrame causerStackOffset
    some
      { callsite := call.callerAddress prevFrame
        stackOffset := call.getStackOffset layout
        causerStackOffset := causerStackOffset }

/-- The frames from `frame` on rise, as far as they return into the library,
to the frame `outer` that does not. -/
inductive FramesTo : Nat → Nat → Prop
  | outside {frame : Nat}
      (outside : library.isCauserLibrary (call.callerAddress frame) = false) :
      FramesTo frame frame
  | inside {frame outer : Nat}
      (inside : library.isCauserLibrary (call.callerAddress frame) = true)
      (belowStart : frame ≤ call.startFrame)
      (rises : frame < call.prev frame)
      (rest : FramesTo (call.prev frame) outer) : FramesTo frame outer

end KeyCall

/-- A call on a well-formed stack, with the frame whose return address is the
first one outside the library. -/
structure StackCall (library : LibraryRange) (layout : KeyFrame)
    extends KeyCall where
  outer : Nat
  frames : toKeyCall.FramesTo library frameAddress outer
  low : layout.currentFrame ≤ frameAddress
  high : outer < 2 ^ 64

namespace StackCall

variable {library : LibraryRange} {layout : KeyFrame}

/-- How far that frame lies above the frame of `getCallSiteKey`. -/
def distance (call : StackCall library layout) : Nat :=
  call.outer - call.frameAddress

/-- The first return address outside the library. -/
def callsite (call : StackCall library layout) : Nat :=
  call.callerAddress call.outer

/-- The offset that is kept after a call. -/
def step (causerStackOffset : Nat) (call : StackCall library layout) :
    Option Nat :=
  (call.getCallSiteKey library layout causerStackOffset).map
    CallSiteKey.causerStackOffset

/-- The call stores what a walk would. -/
def AnswersRight (causerStackOffset : Nat)
    (call : StackCall library layout) : Prop :=
  ∃ key, call.getCallSiteKey library layout causerStackOffset = some key ∧
    key.callsite = call.callsite

/-- The frame lies at the distance, or the word that is read there happens to
be the right one. -/
def FoundAt (distance : Nat) (call : StackCall library layout) : Prop :=
  call.distance = distance ∨
    call.callerAddress (add call.frameAddress distance) = call.callsite

instance (distance : Nat) (call : StackCall library layout) :
    Decidable (call.FoundAt distance) :=
  inferInstanceAs (Decidable (_ ∨ _))

end StackCall

theorem KeyCall.FramesTo.le
    {library : LibraryRange}
    {call : KeyCall}
    {frame outer : Nat}
    (frames : call.FramesTo library frame outer) :
    frame ≤ outer := by
  induction frames with
  | outside => exact le_rfl
  | inside _ _ rises _ inductionHypothesis =>
      exact rises.le.trans inductionHypothesis

/-- The walk ends at the frame that returns out of the library. -/
theorem KeyCall.FramesTo.walkFrames
    {library : LibraryRange}
    {call : KeyCall}
    {frame outer fuel : Nat}
    (frames : call.FramesTo library frame outer)
    (above : call.frameAddress ≤ frame)
    (enough : call.startFrame + 2 ≤ frame + fuel)
    (fuelPos : 0 < fuel) :
    call.walkFrames library fuel frame = some outer := by
  induction frames generalizing fuel with
  | outside outside =>
      obtain ⟨fuel, rfl⟩ := Nat.exists_eq_add_of_le' fuelPos
      rw [KeyCall.walkFrames, if_neg]
      rintro ⟨-, -, inside⟩
      rw [outside] at inside
      cases inside
  | inside inside belowStart rises rest inductionHypothesis =>
      obtain ⟨fuel, rfl⟩ := Nat.exists_eq_add_of_le' fuelPos
      rw [KeyCall.walkFrames, if_pos ⟨belowStart, above, inside⟩]
      exact inductionHypothesis (above.trans rises.le) (by omega) (by omega)

namespace StackCall

variable {library : LibraryRange} {layout : KeyFrame}

/-- The first call walks up the stack. -/
theorem getCallSiteKey_first
    (call : StackCall library layout) :
    call.getCallSiteKey library layout 0 =
      some ⟨call.callsite, call.getStackOffset layout,
        layout.currentFrame + call.distance⟩ := by
  have walked : call.walkFrames library (call.startFrame + 2)
      call.frameAddress = some call.outer :=
    call.frames.walkFrames le_rfl (Nat.le_add_left ..) (Nat.succ_pos _)
  have low := call.low
  have high := call.high
  have rises := call.frames.le
  have positive := layout.positive
  have variablePlace : sub call.frameAddress layout.currentFrame =
      call.frameAddress - layout.currentFrame :=
    sub_of_le low (by omega)
  have offset : sub call.outer (call.frameAddress - layout.currentFrame) =
      layout.currentFrame + call.distance := by
    rw [sub_of_le (by omega) high, distance]
    omega
  rw [KeyCall.getCallSiteKey, if_pos rfl, walked, Option.map_some,
    variablePlace, offset]
  rfl

/-- The first call is right, and keeps the distance of its frame. -/
theorem step_first
    (call : StackCall library layout) :
    step 0 call = some (layout.currentFrame + call.distance) := by
  rw [step, getCallSiteKey_first, Option.map_some]

/-- The offset that the first call keeps is not taken for none. -/
theorem offset_pos
    (call : StackCall library layout) :
    0 < layout.currentFrame + call.distance :=
  Nat.add_pos_left layout.positive _

/-- A later call reads the return address at the distance that is kept. -/
theorem getCallSiteKey_later
    (call first : StackCall library layout) :
    call.getCallSiteKey library layout
        (layout.currentFrame + first.distance) =
      some ⟨call.callerAddress (add call.frameAddress first.distance),
        call.getStackOffset layout, layout.currentFrame + first.distance⟩ := by
  have low := call.low
  have high := call.high
  have rises := call.frames.le
  have place : add (sub call.frameAddress layout.currentFrame)
      (layout.currentFrame + first.distance) =
        add call.frameAddress first.distance := by
    rw [sub_of_le low (by omega), add, add]
    congr 1
    omega
  rw [KeyCall.getCallSiteKey, if_neg first.offset_pos.ne']
  dsimp only
  rw [place]

/-- A later call is right exactly if the frame is found at the distance. -/
theorem answersRight_later_iff
    (call first : StackCall library layout) :
    call.AnswersRight (layout.currentFrame + first.distance) ↔
      call.FoundAt first.distance := by
  rw [AnswersRight, getCallSiteKey_later]
  constructor
  · rintro ⟨key, made, right⟩
    obtain rfl := Option.some.inj made
    exact Or.inr right
  · rintro (same | right)
    · refine ⟨_, rfl, ?_⟩
      have high := call.high
      have rises := call.frames.le
      have place : add call.frameAddress first.distance = call.outer := by
        rw [← same, distance, add_of_lt (by omega)]
        omega
      exact congrArg call.callerAddress place
    · exact ⟨_, rfl, right⟩

/-- Later calls keep the offset. -/
theorem step_later
    (call first : StackCall library layout) :
    step (layout.currentFrame + first.distance) call =
      some (layout.currentFrame + first.distance) := by
  rw [step, getCallSiteKey_later, Option.map_some]

/-- After the first call, the calls are right exactly if each finds its frame
at the distance of the first one. -/
theorem along_later_iff
    (first : StackCall library layout)
    (calls : List (StackCall library layout)) :
    Machine.Along step AnswersRight (layout.currentFrame + first.distance)
        calls ↔
      ∀ call ∈ calls, call.FoundAt first.distance := by
  induction calls with
  | nil => simp [Machine.Along]
  | cons call calls inductionHypothesis =>
      rw [List.forall_mem_cons, ← inductionHypothesis,
        ← answersRight_later_iff]
      constructor
      · rintro ⟨right, rest⟩
        exact ⟨right, rest _ (step_later call first)⟩
      · rintro ⟨right, rest⟩
        exact Machine.along_cons (step_later call first) right rest

/-- In a sequence of calls on well-formed stacks, each stores the first return
address outside the library exactly if the frames that hold it lie at the
distance that the first call has found, up to words that happen to be the
same. -/
theorem answersRight_iff
    (first : StackCall library layout)
    (calls : List (StackCall library layout)) :
    Machine.Along step AnswersRight 0 (first :: calls) ↔
      ∀ call ∈ calls, call.FoundAt first.distance := by
  rw [← along_later_iff]
  constructor
  · exact fun along => along.2 _ (step_first first)
  · exact Machine.along_cons (step_first first)
      ⟨_, getCallSiteKey_first first, rfl⟩

end StackCall

/-- Put the saved frame pointer and the return address of a frame. -/
def pushFrame (memory : Memory) (frame prev callerAddress : Nat) : Memory :=
  writeWord (writeWord memory frame prev) (frame + 8) callerAddress

section PushFrame

variable (memory : Memory) (frame : Nat) {prev callerAddress : Nat}

theorem readWord_pushFrame_prev
    (prevLt : prev < 2 ^ 64) :
    readWord (pushFrame memory frame prev callerAddress) frame = prev := by
  have apart : (wordAt (frame + 8)).Apart (wordAt frame) := Or.inr le_rfl
  rw [pushFrame, readWord_writeWord_of_apart _ _ apart, readWord_writeWord,
    Nat.mod_eq_of_lt prevLt]

theorem readWord_pushFrame_callerAddress
    (callerLt : callerAddress < 2 ^ 64) :
    readWord (pushFrame memory frame prev callerAddress) (frame + 8) =
      callerAddress := by
  rw [pushFrame, readWord_writeWord, Nat.mod_eq_of_lt callerLt]

/-- The words above a frame are kept. -/
theorem readWord_pushFrame_of_le
    {place : Nat}
    (above : frame + 16 ≤ place) :
    readWord (pushFrame memory frame prev callerAddress) place =
      readWord memory place := by
  have low : (wordAt frame).Apart (wordAt place) :=
    Or.inl (le_trans (by simp) above)
  have high : (wordAt (frame + 8)).Apart (wordAt place) := Or.inl above
  rw [pushFrame, readWord_writeWord_of_apart _ _ high,
    readWord_writeWord_of_apart _ _ low]

end PushFrame

namespace KeyCall

variable {library : LibraryRange} {call : KeyCall}

/-- The library calls a function of its own, whose frame is `frame`. -/
def enter (call : KeyCall) (frame returnAddress : Nat) : KeyCall where
  memory := pushFrame call.memory frame call.frameAddress returnAddress
  frameAddress := frame
  startFrame := call.startFrame

@[simp] theorem enter_frameAddress (frame returnAddress : Nat) :
    (call.enter frame returnAddress).frameAddress = frame := rfl

@[simp] theorem enter_startFrame (frame returnAddress : Nat) :
    (call.enter frame returnAddress).startFrame = call.startFrame := rfl

/-- The frames above a new one stay as they are. -/
theorem FramesTo.enter_above
    {frame outer next returnAddress : Nat}
    (frames : call.FramesTo library frame outer)
    (above : next + 16 ≤ frame) :
    (call.enter next returnAddress).FramesTo library frame outer := by
  have callerSame {place : Nat} (after : next + 16 ≤ place) :
      (call.enter next returnAddress).callerAddress place =
        call.callerAddress place :=
    readWord_pushFrame_of_le _ _ (after.trans (Nat.le_add_right _ _))
  have prevSame {place : Nat} (after : next + 16 ≤ place) :
      (call.enter next returnAddress).prev place = call.prev place :=
    readWord_pushFrame_of_le _ _ after
  induction frames with
  | outside outside => exact .outside (by rw [callerSame above, outside])
  | inside inside belowStart rises rest inductionHypothesis =>
      have restAbove := above.trans rises.le
      refine .inside (by rw [callerSame above, inside]) belowStart ?_ ?_
      · rw [prevSame above]
        exact rises
      · rw [prevSame above]
        exact inductionHypothesis restAbove

/-- The stack stays well-formed. -/
theorem FramesTo.enter
    {outer next returnAddress : Nat}
    (frames : call.FramesTo library call.frameAddress outer)
    (above : next + 16 ≤ call.frameAddress)
    (frameLt : call.frameAddress < 2 ^ 64)
    (returnLt : returnAddress < 2 ^ 64)
    (inside : library.isCauserLibrary returnAddress = true)
    (belowStart : next ≤ call.startFrame) :
    (call.enter next returnAddress).FramesTo library next outer := by
  have prevNew : (call.enter next returnAddress).prev next =
      call.frameAddress :=
    readWord_pushFrame_prev _ _ frameLt
  have callerNew : (call.enter next returnAddress).callerAddress next =
      returnAddress :=
    readWord_pushFrame_callerAddress _ _ returnLt
  refine .inside (by rw [callerNew, inside]) belowStart ?_ ?_
  · rw [prevNew]
    omega
  · rw [prevNew]
    exact frames.enter_above above

end KeyCall

/-- The range of the library in the samples. -/
def sampleLibrary : LibraryRange := ⟨0x10000, 0x1ffff⟩

/-- The frame of `getCallSiteKey` in the samples. -/
def sampleLayout : KeyFrame := ⟨0x18, 0x40, by decide⟩

/-- The application calls a function of the library. -/
def applicationCall (frame : Nat) : KeyCall where
  memory := pushFrame (fun _ => 0) frame 0x9000 0x400500
  frameAddress := frame
  startFrame := 0x9000

/-- The function calls `xxmalloc`, that `startWatch`, and that
`getCallSiteKey`. -/
def sampleKeyCall (frame : Nat) : KeyCall :=
  (((applicationCall frame).enter 0x7100 0x10300).enter 0x7080 0x10200).enter
    0x7000 0x10100

theorem applicationCall_frames (frame : Nat) :
    (applicationCall frame).FramesTo sampleLibrary frame frame := by
  have caller : (applicationCall frame).callerAddress frame = 0x400500 :=
    readWord_pushFrame_callerAddress _ _ (by decide)
  exact .outside (by rw [caller]; rfl)

theorem sampleKeyCall_frames
    {frame : Nat}
    (frameGe : 0x7110 ≤ frame)
    (frameLe : frame ≤ 0x8ff0) :
    (sampleKeyCall frame).FramesTo sampleLibrary 0x7000 frame := by
  have start : (applicationCall frame).startFrame = 0x9000 := rfl
  have inXxmalloc : ((applicationCall frame).enter 0x7100 0x10300).FramesTo
      sampleLibrary 0x7100 frame :=
    (applicationCall_frames frame).enter frameGe
      (frameLe.trans_lt (by decide)) (by decide) rfl (by simp [start])
  have inStartWatch :
      (((applicationCall frame).enter 0x7100 0x10300).enter 0x7080
        0x10200).FramesTo sampleLibrary 0x7080 frame :=
    inXxmalloc.enter (by simp) (by simp) (by decide) rfl (by simp [start])
  exact inStartWatch.enter (by simp) (by simp) (by decide) rfl
    (by simp [start])

/-- The stack of the sample, for a function whose frame is `frame`. -/
def sampleStack
    (frame : Nat)
    (frameGe : 0x7110 ≤ frame)
    (frameLe : frame ≤ 0x8ff0) :
    StackCall sampleLibrary sampleLayout where
  toKeyCall := sampleKeyCall frame
  outer := frame
  frames := sampleKeyCall_frames frameGe frameLe
  low := Nat.le_add_left 0x18 _
  high := by omega

/-- After a `malloc`, whose frame lies at `0x7140`, the call site of a
`realloc`, whose frame lies at `0x71a0`, is missed: a word of its frame is
taken for the return address. -/
theorem sampleStack_missed :
    ¬Machine.Along StackCall.step StackCall.AnswersRight 0
      [sampleStack 0x7140 (by decide) (by decide),
        sampleStack 0x71a0 (by decide) (by decide)] := by
  rintro ⟨-, rest⟩
  obtain ⟨right, -⟩ := rest _ (StackCall.step_first _)
  rw [StackCall.answersRight_later_iff] at right
  revert right
  decide +kernel

end Causer
