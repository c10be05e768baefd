import Causer.HistoryInfo
import Causer.SlotHeap

/-!
# Starting to watch an object

`causer::startWatch` finds or adds the call site of its caller and records it
in the object's guard.  It asks for a free slot, unless the call site has
allocated too often in the current period, and then for a slot with preemption
if a draw is not above the ratio of the call site.  Last it updates the call
site.  What `getCallSiteKey` and `getCallsites` find on the stack and what
`arc4random_uniform` draws is chosen outside.
-/

namespace Causer

/-- The record of a call site, with the period in which its allocations are
counted. -/
structure TimedCallstack extends Callstack where
  period : Word
  periodcalled : Word
  deriving DecidableEq

namespace TimedCallstack

/-- What `findOrAdd` makes of the value of a call site that it adds. -/
def reset (callstack : TimedCallstack) : TimedCallstack where
  toCallstack := callstack.toCallstack.reset
  period := 0
  periodcalled := 0

/-- `causer::updateWatchedInfo` with all fields, at a time. -/
def updateWatchedInfo (watched : Bool) (depth : Int) (frames : Frames)
    (now : Word) (callstack : TimedCallstack) : TimedCallstack :=
  let counted : TimedCallstack :=
    { toCallstack := callstack.toCallstack.updateWatchedInfo watched depth frames
      period := callstack.period
      periodcalled := callstack.periodcalled + 1 }
  if (now - counted.period).toNat > maxWatchPeriod then
    { counted with period := now, periodcalled := 0 }
  else counted

/-- The call site has not allocated too often in its period. -/
def BelowThreshold (callstack : TimedCallstack) : Prop :=
  callstack.periodcalled.toNat < maxWatchThreshold

instance (callstack : TimedCallstack) : Decidable callstack.BelowThreshold :=
  inferInstanceAs (Decidable (_ < _))

end TimedCallstack

/-- `hashCallStackT` and `compareCallStackT`, with values that have all
fields. -/
def timedFunctions : HashFunctions HashedCallstack TimedCallstack where
  hashfunc := callstackFunctions.hashfunc
  keycmp := callstackFunctions.keycmp
  reset := TimedCallstack.reset

/-- `_csMap` with values that have all fields. -/
abbrev TimedMap := HashMap HashedCallstack TimedCallstack

theorem lawful_timedFunctions : HashMap.Lawful timedFunctions where
  refl := lawful_callstackFunctions.refl
  symm := @lawful_callstackFunctions.symm
  trans := @lawful_callstackFunctions.trans
  hash_eq := @lawful_callstackFunctions.hash_eq

/-- Where the values of the entries lie in memory, as far as the entries fit
there. -/
structure EntryPlacement where
  address : EntryAddress → Word
  entry : Word → EntryAddress
  fits : EntryAddress → Prop
  entry_address : ∀ site, fits site → entry (address site) = site

/-- A call of `startWatch`, with what is chosen outside. -/
structure WatchCall where
  ptr : Word
  sz : Word
  /-- What `getCallSiteKey` stores in the first frame. -/
  callsite : Word
  /-- What `getCallSiteKey` returns. -/
  offset : Word
  /-- What `curstack` holds before. -/
  curstack : TimedCallstack
  /-- `arc4random_uniform`. -/
  random : Int → Int
  /-- What `getCallsites` returns. -/
  depth : Int
  /-- What `getCallsites` stores. -/
  frames : Frames

namespace WatchCall

variable (call : WatchCall)

/-- `curstack` without its hash. -/
def stored : Callstack :=
  { call.curstack.toCallstack with
    offset := call.offset
    stack := Function.update call.curstack.stack 0 call.callsite }

/-- `curstack` as a key. -/
def key : HashMap.SizedKey HashedCallstack :=
  (call.stored.hashed, callstackLength)

/-- `curstack` as a value. -/
def newval : TimedCallstack :=
  { call.curstack with toCallstack := call.stored.hashed.val }

end WatchCall

/-- The map of call sites, the slots and the guards. -/
structure WatchState where
  csMap : TimedMap
  manager : Manager
  memory : ByteMemory.Memory
  /-- Not a field of the source: the slots that have been written, in order. -/
  written : List SlotPosition

namespace Manager

variable (environment : Environment)

/-- Not a function of the source: the slots that the loop of `setWatchpoint`
writes, in order. -/
def setWatchpointLoopWrites (watchedRatio : Word → Int) (request : Request) :
    Nat → SlotPosition → Manager → List SlotPosition
  | 0, _, _ => []
  | left + 1, sidx, manager =>
      if !(manager.wp sidx).isUsed || request.ispreempt then
        let writes :=
          if (isValid environment watchedRatio request (manager.wp sidx)
            manager.kernel).1 then [sidx] else []
        let (ret, manager) :=
          setSection environment watchedRatio request sidx manager
        if ret then writes
        else
          writes ++ setWatchpointLoopWrites watchedRatio request left
            (sidx + 1) manager
      else
        setWatchpointLoopWrites watchedRatio request left (sidx + 1) manager

end Manager

namespace WatchState

/-- The value of an entry. -/
abbrev value (state : WatchState) (site : EntryAddress) : TimedCallstack :=
  (state.csMap.entries site).value

variable (environment : Environment) (placement : EntryPlacement)

/-- The ratios that `setWatchpoint` reads through pointers to call sites. -/
def watchedRatio (state : WatchState) (pointer : Word) : Int :=
  (state.value (placement.entry pointer)).watchedRatio

/-- `watchpoint::setWatchpoint`. -/
def setWatchpoint (request : Request) (state : WatchState) :
    Bool × WatchState :=
  let (ret, manager) :=
    Manager.setWatchpoint environment (state.watchedRatio placement) request
      state.manager
  (ret,
    { state with
      manager := manager
      written := state.written ++
        Manager.setWatchpointLoopWrites environment
          (state.watchedRatio placement) request maxWatchpoints
          state.manager.curIndex state.manager })

/-- `updateWatchedInfo(foundcs, type)`. -/
def updateWatchedInfo (call : WatchCall) (foundcs : EntryAddress)
    (watched : Bool) (state : WatchState) : WatchState :=
  let (now, kernel) := getCurrentTime environment state.manager.kernel
  { state with
    csMap := state.csMap.assign foundcs
      ((state.value foundcs).updateWatchedInfo watched call.depth call.frames
        now)
    manager := { state.manager with kernel := kernel } }

/-- The request of `startWatch`. -/
def request (call : WatchCall) (foundcs : EntryAddress) (ispreempt : Bool) :
    Request :=
  SlotHeap.watchRequest call.ptr call.sz (placement.address foundcs) ispreempt

/-- The attempt at a free slot. -/
def attemptFree (call : WatchCall) (foundcs : EntryAddress)
    (state : WatchState) : Bool × WatchState :=
  if state.manager.numWatchpoints < maxWatchpoints then
    setWatchpoint environment placement
      (request placement call foundcs false) state
  else (false, state)

/-- The attempt at any slot, for a number that has been drawn. -/
def attemptSampled (call : WatchCall) (foundcs : EntryAddress) (rnd : Int)
    (state : WatchState) : Bool × WatchState :=
  if rnd ≤ (state.value foundcs).watchedRatio then
    setWatchpoint environment placement
      (request placement call foundcs true) state
  else (false, state)

/-- What `startWatch` does with a call site. -/
def watchSite (call : WatchCall) (foundcs : EntryAddress)
    (state : WatchState) : Bool × WatchState :=
  if (state.value foundcs).BelowThreshold then
    let (ret, state) := attemptFree environment placement call foundcs state
    if ret then (true, updateWatchedInfo environment call foundcs true state)
    else
      let rnd := call.random maxWatchRatioUpperbound
      let (ret, state) :=
        attemptSampled environment placement call foundcs rnd state
      if ret then (true, updateWatchedInfo environment call foundcs true state)
      else (false, updateWatchedInfo environment call foundcs false state)
  else
    let rnd := call.random maxWatchRatioSecondUpperbound
    let (ret, state) :=
      attemptSampled environment placement call foundcs rnd state
    if ret then (true, updateWatchedInfo environment call foundcs true state)
    else (false, updateWatchedInfo environment call foundcs false state)

/-- Record a call site in the guard of the object. -/
def setCallstack (call : WatchCall) (foundcs : EntryAddress)
    (state : WatchState) : WatchState :=
  { state with
    memory := ObjectGuard.setCallstack state.memory
      (getObjectGuard call.ptr.toNat) (placement.address foundcs).toNat }

/-- `_csMap.findOrAdd(curstack, sizeof(callstack), curstack)`. -/
def findOrAdd (call : WatchCall) (state : WatchState) :
    Option (EntryAddress × WatchState) :=
  (HashMap.findOrAdd timedFunctions call.key.1 call.key.2 call.newval
    state.csMap).map fun (foundcs, csMap) =>
      (foundcs, { state with csMap := csMap })

/-- `causer::startWatch`, with the entry of its call site. -/
def startWatch (call : WatchCall) (state : WatchState) :
    Option (EntryAddress × Bool × WatchState) :=
  (findOrAdd call state).map fun (foundcs, state) =>
    (foundcs,
      watchSite environment placement call foundcs
        (setCallstack placement call foundcs state))

end WatchState

/-- A record in which nothing has been stored. -/
def blankCallstack : TimedCallstack :=
  ⟨⟨0, 0, 0, 0, 0, 0, fun _ => 0⟩, 0, 0⟩

/-- The map before `initialize`. -/
def blankMap : TimedMap where
  buckets := 0
  count := fun _ => 0
  links := ⟨fun node => node, fun node => node⟩
  entries := fun _ => ⟨blankCallstack.toCallstack.hashed, 0, blankCallstack⟩
  allentries := 0
  entryindex := 0
  totalEntry := 0

/-- No call site has been found, and no slot has been written. -/
def WatchState.start : WatchState where
  csMap := HashMap.initializeMap blankMap callstackMapSize
  manager := Manager.start Manager.standardFiles 1
  memory := fun _ => 0
  written := []

/-- Where the value of an entry lies, if the pools lie one after the other from
`0x100000000` on. -/
def sampleAddress (site : EntryAddress) : Word :=
  BitVec.ofNat 64
    (0x100000000 + 360 * (site.block * callstackMapSize + site.index) + 192)

/-- The entry whose value lies there. -/
def sampleEntry (pointer : Word) : EntryAddress :=
  HashMap.addressAt callstackMapSize
    ((pointer.toNat - 0x100000000 - 192) / 360)

theorem sampleEntry_sampleAddress
    (site : EntryAddress)
    (fits : site.block < 0x100000 ∧ site.index < callstackMapSize) :
    sampleEntry (sampleAddress site) = site := by
  obtain ⟨block, index⟩ := site
  obtain ⟨low, inside⟩ := fits
  dsimp only [callstackMapSize] at low inside
  have value : (sampleAddress ⟨block, index⟩).toNat =
      0x100000000 + 360 * (block * 524288 + index) + 192 := by
    rw [sampleAddress, BitVec.toNat_ofNat]
    dsimp only [callstackMapSize]
    omega
  have number : (0x100000000 + 360 * (block * 524288 + index) + 192 -
      0x100000000 - 192) / 360 = block * 524288 + index := by
    omega
  rw [sampleEntry, value, number, HashMap.addressAt, EntryAddress.mk.injEq]
  dsimp only [callstackMapSize]
  omega

/-- The pools lie one after the other. -/
def samplePlacement : EntryPlacement where
  address := sampleAddress
  entry := sampleEntry
  fits := fun site => site.block < 0x100000 ∧ site.index < callstackMapSize
  entry_address := sampleEntry_sampleAddress

/-- An allocation of sixteen bytes, whose draw is one less than the bound. -/
def sampleCall : WatchCall where
  ptr := 0x10000
  sz := 16
  callsite := 0x4000
  offset := 0x100
  curstack := blankCallstack
  random := fun bound => bound - 1
  depth := 1
  frames := fun _ => 0x4000

end Causer
