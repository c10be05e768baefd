import Causer.Library.Sections
import Causer.RatioBounds
import Causer.StartWatch

/-!
# The locks of call sites

`updateWatchedInfo` and `checkPointer` change the record of a call site under
its spin lock, field by field.  `checkAllMemory` stores the greatest ratio
without the lock.  Threads take these steps in any order: no update is lost, and
the store of `checkAllMemory` is for good exactly if no thread is about to store
a ratio that it has read before.
-/

namespace Causer

/-- A call of `updateWatchedInfo`, with what it finds outside. -/
structure InfoUpdate where
  /-- The type is `MALLOC_OP_WATCHED`. -/
  watched : Bool
  /-- What `getCallsites` stores. -/
  callsites : List Word
  fits : callsites.length ≤ maxCallstackDepth
  /-- What `getCurrentTime` returns. -/
  now : Word

/-- The next access of `updateWatchedInfo`, with what has been loaded. -/
inductive UpdatePosition
  | loadCalledCounter
  | storeCalledCounter (value : Int)
  | loadPeriodcalled
  | storePeriodcalled (value : Word)
  | loadWatchedCounter
  | storeWatchedCounter (value : Int)
  | testRatio
  | loadRatio
  | storeRatio (value : Int)
  | testMinimum
  | storeMinimum
  | testDepth
  /-- The loop of `getCallsites`, and the store of what it returns. -/
  | storeFrames (i : Nat)
  | testPeriod
  | storePeriodcalledZero
  | storePeriod
  deriving DecidableEq

namespace InfoUpdate

variable (update : InfoUpdate)

/-- What is stored for a ratio that has been loaded. -/
def reduced (watchedRatio : Int) : Int :=
  if update.watched then Int.tdiv (watchedRatio * watchedReduction) 10
  else watchedRatio - calledReduction

/-- One access of `updateWatchedInfo`, and the next one. -/
def body : UpdatePosition → TimedCallstack →
    TimedCallstack × Option UpdatePosition
  | .loadCalledCounter, cs =>
      (cs, some (.storeCalledCounter (intIncrement cs.calledCounter)))
  | .storeCalledCounter value, cs =>
      ({ cs with calledCounter := value }, some .loadPeriodcalled)
  | .loadPeriodcalled, cs =>
      (cs, some (.storePeriodcalled (cs.periodcalled + 1)))
  | .storePeriodcalled value, cs =>
      ({ cs with periodcalled := value },
        some (if update.watched then .loadWatchedCounter else .testRatio))
  | .loadWatchedCounter, cs =>
      (cs, some (.storeWatchedCounter (intIncrement cs.watchedCounter)))
  | .storeWatchedCounter value, cs =>
      ({ cs with watchedCounter := value }, some .testRatio)
  | .testRatio, cs =>
      (cs, some (if cs.watchedRatio ≠ maxWatchRatioUpperbound then .loadRatio
        else .testMinimum))
  | .loadRatio, cs =>
      (cs, some (.storeRatio (update.reduced cs.watchedRatio)))
  | .storeRatio value, cs =>
      ({ cs with watchedRatio := value }, some .testMinimum)
  | .testMinimum, cs =>
      (cs, some (if cs.watchedRatio < reductionToMin then .storeMinimum
        else .testDepth))
  | .storeMinimum, cs =>
      ({ cs with watchedRatio := reductionToMin }, some .testDepth)
  | .testDepth, cs =>
      (cs, some (if cs.depth = 0 then .storeFrames 0 else .testPeriod))
  | .storeFrames i, cs =>
      match update.callsites[i]? with
      | some caller =>
          ({ cs with
              stack := Function.update cs.stack (Fin.ofNat _ i) caller },
            some (.storeFrames (i + 1)))
      | none => ({ cs with depth := update.callsites.length }, some .testPeriod)
  | .testPeriod, cs =>
      (cs, if (update.now - cs.period).toNat > maxWatchPeriod then
        some .storePeriodcalledZero else none)
  | .storePeriodcalledZero, cs =>
      ({ cs with periodcalled := 0 }, some .storePeriod)
  | .storePeriod, cs => ({ cs with period := update.now }, none)

/-- What `getCallsites` makes of the frames, from an index on. -/
def framesFrom (i : Nat) (stack : Frames) : Frames := fun j =>
  if i ≤ j then update.callsites[j.val]?.getD (stack j) else stack j

end InfoUpdate

/-- What a thread does under the lock of a call site. -/
inductive CsSection
  | updateWatchedInfo (update : InfoUpdate)
  /-- The store of `checkPointer`. -/
  | mark

/-- Where a thread is in such a section. -/
inductive CsPosition
  | updating (update : InfoUpdate) (position : UpdatePosition)
  | marking

/-- The sections of call sites, and the store of `checkAllMemory`. -/
def callsiteProgram : Sections.Program CsSection Unit TimedCallstack CsPosition where
  first
    | .updateWatchedInfo update => .updating update .loadCalledCounter
    | .mark => .marking
  body
    | .updating update position, cs =>
        ((update.body position cs).1,
          (update.body position cs).2.map (.updating update))
    | .marking, cs => ({ cs with watchedRatio := maxWatchRatioUpperbound }, none)
  store _ cs := { cs with watchedRatio := maxWatchRatioUpperbound }

namespace TimedCallstack

/-- `checkPointer` and `checkAllMemory`, with all fields. -/
def mark (cs : TimedCallstack) : TimedCallstack :=
  { cs with watchedRatio := maxWatchRatioUpperbound }

/-- What an event makes of a record, in one step. -/
def apply (cs : TimedCallstack) : Sections.Event CsSection Unit → TimedCallstack
  | .section (.updateWatchedInfo update) =>
      cs.updateWatchedInfo update.watched update.callsites.length
        (update.framesFrom 0 cs.stack) update.now
  | .section .mark => cs.mark
  | .store _ => cs.mark

end TimedCallstack

namespace InfoUpdate

variable (update : InfoUpdate)

/-- The end of `updateWatchedInfo`. -/
def renewed (cs : TimedCallstack) : TimedCallstack :=
  if (update.now - cs.period).toNat > maxWatchPeriod then
    { cs with period := update.now, periodcalled := 0 }
  else cs

/-- The rest once the frames before an index are stored. -/
def recorded (i : Nat) (cs : TimedCallstack) : TimedCallstack :=
  update.renewed
    { cs with
      depth := update.callsites.length
      stack := update.framesFrom i cs.stack }

/-- The rest from the test of the depth on. -/
def filled (cs : TimedCallstack) : TimedCallstack :=
  if cs.depth = 0 then update.recorded 0 cs else update.renewed cs

/-- The rest from the test of the least ratio on. -/
def raised (cs : TimedCallstack) : TimedCallstack :=
  update.filled
    (if cs.watchedRatio < reductionToMin then
      { cs with watchedRatio := reductionToMin }
    else cs)

/-- The rest from the test of the ratio on. -/
def lowered (cs : TimedCallstack) : TimedCallstack :=
  update.raised
    (if cs.watchedRatio ≠ maxWatchRatioUpperbound then
      { cs with watchedRatio := update.reduced cs.watchedRatio }
    else cs)

/-- The rest from the count of the watched allocations on. -/
def counted (cs : TimedCallstack) : TimedCallstack :=
  update.lowered
    (if update.watched then
      { cs with watchedCounter := intIncrement cs.watchedCounter }
    else cs)

/-- What the rest of `updateWatchedInfo` makes of a record. -/
def rest : UpdatePosition → TimedCallstack → TimedCallstack
  | .loadCalledCounter, cs =>
      update.counted
        { cs with
          calledCounter := intIncrement cs.calledCounter
          periodcalled := cs.periodcalled + 1 }
  | .storeCalledCounter value, cs =>
      update.counted
        { cs with
          calledCounter := value
          periodcalled := cs.periodcalled + 1 }
  | .loadPeriodcalled, cs =>
      update.counted { cs with periodcalled := cs.periodcalled + 1 }
  | .storePeriodcalled value, cs =>
      update.counted { cs with periodcalled := value }
  | .loadWatchedCounter, cs =>
      update.lowered
        { cs with watchedCounter := intIncrement cs.watchedCounter }
  | .storeWatchedCounter value, cs =>
      update.lowered { cs with watchedCounter := value }
  | .testRatio, cs => update.lowered cs
  | .loadRatio, cs =>
      update.raised { cs with watchedRatio := update.reduced cs.watchedRatio }
  | .storeRatio value, cs => update.raised { cs with watchedRatio := value }
  | .testMinimum, cs => update.raised cs
  | .storeMinimum, cs =>
      update.filled { cs with watchedRatio := reductionToMin }
  | .testDepth, cs => update.filled cs
  | .storeFrames i, cs => update.recorded i cs
  | .testPeriod, cs => update.renewed cs
  | .storePeriodcalledZero, cs =>
      { cs with period := update.now, periodcalled := 0 }
  | .storePeriod, cs => { cs with period := update.now }

/-- Storing a frame leaves the frames behind it to store. -/
@[simp] theorem framesFrom_succ
    {i : Nat} {caller : Word}
    (found : update.callsites[i]? = some caller)
    (stack : Frames) :
    update.framesFrom (i + 1) (Function.update stack (Fin.ofNat _ i) caller) =
      update.framesFrom i stack := by
  have below : i < maxCallstackDepth :=
    (List.getElem?_eq_some_iff.mp found).1.trans_le update.fits
  have value : (Fin.ofNat maxCallstackDepth i).val = i :=
    Nat.mod_eq_of_lt below
  funext j
  by_cases same : j = Fin.ofNat _ i
  · subst same
    simp only [framesFrom, Function.update_self, value]
    rw [if_neg (by omega), if_pos (Nat.le_refl i), found, Option.getD_some]
  · have apart : j.val ≠ i := fun equal => same (Fin.ext (equal.trans value.symm))
    simp only [framesFrom, Function.update_of_ne same]
    by_cases later : i ≤ j
    · rw [if_pos later, if_pos (by omega)]
    · rw [if_neg later, if_neg (by omega)]

/-- Past the last frame nothing is left to store. -/
theorem framesFrom_end
    {i : Nat}
    (passed : update.callsites[i]? = none)
    (stack : Frames) :
    update.framesFrom i stack = stack := by
  have short := List.getElem?_eq_none_iff.mp passed
  funext j
  unfold framesFrom
  split_ifs with later
  · rw [List.getElem?_eq_none (short.trans later), Option.getD_none]
  · rfl

/-- One access leaves what is left of the update. -/
theorem rest_body (position : UpdatePosition) (cs : TimedCallstack) :
    update.rest position cs =
      match update.body position cs with
      | (middle, none) => middle
      | (middle, some next) => update.rest next middle := by
  cases position with
  | storePeriodcalled value =>
      by_cases watched : update.watched = true <;>
        simp [body, rest, counted, watched]
  | testRatio =>
      by_cases greatest : cs.watchedRatio = maxWatchRatioUpperbound <;>
        simp [body, rest, lowered, greatest]
  | testMinimum =>
      by_cases below : cs.watchedRatio < reductionToMin <;>
        simp [body, rest, raised, below]
  | testDepth =>
      by_cases empty : cs.depth = 0 <;> simp [body, rest, filled, empty]
  | storeFrames i =>
      rcases found : update.callsites[i]? with _ | caller
      · simp [body, rest, recorded, found, framesFrom_end]
      · simp only [body, rest, recorded, found]
        rw [update.framesFrom_succ found]
  | testPeriod =>
      rw [rest, renewed, body]
      split_ifs <;> rfl
  | _ => rfl

/-- All of the update. -/
theorem rest_first (cs : TimedCallstack) :
    update.rest .loadCalledCounter cs =
      cs.apply (.section (.updateWatchedInfo update)) := by
  have ratio : (if (if cs.watchedRatio ≠ maxWatchRatioUpperbound then
        update.reduced cs.watchedRatio else cs.watchedRatio) < reductionToMin
      then reductionToMin
      else if cs.watchedRatio ≠ maxWatchRatioUpperbound then
        update.reduced cs.watchedRatio else cs.watchedRatio) =
      updateWatchedInfo update.watched cs.watchedRatio := by
    simp only [updateWatchedInfo, reduced, ite_not]
  unfold TimedCallstack.apply TimedCallstack.updateWatchedInfo
    Callstack.updateWatchedInfo
  dsimp only
  rw [← ratio]
  simp only [rest, counted, lowered, raised, filled, recorded, renewed]
  split_ifs <;> rfl

end InfoUpdate

section Runs

variable {Thread Site : Type*} [DecidableEq Thread] [DecidableEq Site]

/-- Threads in the sections of call sites. -/
abbrev CsState (Thread Site : Type*) :=
  Sections.State Thread Site CsSection Unit TimedCallstack CsPosition

/-- What the rest of a section makes of a record. -/
def CsPosition.rest : CsPosition → TimedCallstack → TimedCallstack
  | .updating update position, cs => update.rest position cs
  | .marking, cs => cs.mark

/-- A last access leaves nothing to do. -/
theorem CsPosition.rest_last
    {position : CsPosition} {cs out : TimedCallstack}
    (ends : callsiteProgram.body position cs = (out, none)) :
    position.rest cs = out := by
  cases position with
  | updating update position =>
      rw [CsPosition.rest, update.rest_body]
      rcases stepped : update.body position cs with ⟨middle, _ | next⟩
      · simpa [callsiteProgram, stepped] using ends
      · simp [callsiteProgram, stepped] at ends
  | marking =>
      cases ends
      rfl

/-- Another access leaves the rest to do. -/
theorem CsPosition.rest_more
    {position next : CsPosition} {cs middle : TimedCallstack}
    (goesOn : callsiteProgram.body position cs = (middle, some next)) :
    position.rest cs = next.rest middle := by
  cases position with
  | updating update position =>
      rw [CsPosition.rest, update.rest_body]
      rcases stepped : update.body position cs with ⟨stored, _ | later⟩
      · simp [callsiteProgram, stepped] at goesOn
      · simp only [callsiteProgram, stepped, Option.map_some, Prod.mk.injEq,
          Option.some.injEq] at goesOn
        obtain ⟨rfl, rfl⟩ := goesOn
        rfl
  | marking => cases goesOn

/-- The record of a call site whose lock is free is what the updates and marks
of all threads make of it one after the other, each in one step and those of one
thread in its order: no update is lost. -/
theorem record_of_run
    {initial : Site → TimedCallstack}
    {labels : List (Thread × Sections.Choice Site CsSection Unit)}
    {final : CsState Thread Site} {site : Site}
    (undisturbed : Machine.Along (Sections.step callsiteProgram)
      (Sections.Undisturbed site) (Sections.start initial) labels)
    (executed : Sections.run callsiteProgram (Sections.start initial) labels =
      some final)
    (free : final.shared.lock site = false) :
    ∃ order : List (Thread × Sections.Event CsSection Unit),
      (∀ thread, (∀ waiting, final.locals thread ≠ .spinning site waiting) →
        (order.filter fun event => event.1 = thread).map Prod.snd =
          Sections.callsOf thread site labels) ∧
      final.shared.parts site =
        (order.map Prod.snd).foldl TimedCallstack.apply (initial site) := by
  refine ⟨final.shared.events site, fun thread started => ?_, ?_⟩
  · have order := Sections.doneBy_of_run executed thread site
    have nothing :
        ((final.locals thread).pending site : List (Sections.Event CsSection Unit)) =
          [] := by
      cases located : final.locals thread with
      | spinning place waiting =>
          refine if_neg ?_
          rintro rfl
          exact started waiting located
      | _ => rfl
    rw [nothing, List.append_nil] at order
    exact order
  · refine Sections.Serial.eq_foldl (fun {start part out} finishes => ?_)
      (fun _ _ => rfl) (Sections.run_serial undisturbed executed free)
    rw [finishes.eq_rest CsPosition.rest CsPosition.rest_last
      CsPosition.rest_more]
    cases start with
    | updateWatchedInfo update => exact update.rest_first part
    | mark => rfl

end Runs

/-- An update late in its period. -/
def sampleUpdate (watched : Bool) : InfoUpdate :=
  ⟨watched, [0x401000, 0x402000], by decide, 20000⟩

/-- A thread updates a new call site while another waits for the lock, and the
other updates it as well. -/
def twoUpdates : List (Nat × Sections.Choice Nat CsSection Unit) :=
  [(1, .enter 0 (.updateWatchedInfo (sampleUpdate true))), (1, .proceed),
      (2, .enter 0 (.updateWatchedInfo (sampleUpdate false))), (2, .proceed)] ++
    List.replicate 18 (1, .proceed) ++ List.replicate 12 (2, .proceed)

theorem record_of_run_twoUpdates :
    ∃ final ∈ Sections.run callsiteProgram
        (Sections.start fun _ => blankCallstack.reset) twoUpdates,
      final.shared.lock 0 = false ∧
      ∃ order : List (Nat × Sections.Event CsSection Unit),
        (∀ thread, (∀ waiting, final.locals thread ≠ .spinning 0 waiting) →
          (order.filter fun event => event.1 = thread).map Prod.snd =
            Sections.callsOf thread 0 twoUpdates) ∧
        final.shared.parts 0 =
          (order.map Prod.snd).foldl TimedCallstack.apply
            blankCallstack.reset := by
  have reached : ∃ final ∈ Sections.run callsiteProgram
      (Sections.start fun _ => blankCallstack.reset) twoUpdates,
      final.shared.lock 0 = false := by
    decide +kernel
  obtain ⟨final, executed, free⟩ := reached
  have undisturbed : Machine.Along (Sections.step callsiteProgram)
      (Sections.Undisturbed 0) (Sections.start fun _ => blankCallstack.reset)
      twoUpdates := by
    apply Sections.along_undisturbed
    simp [twoUpdates]
  exact ⟨final, executed, free, record_of_run undisturbed executed free⟩

section Marks

variable {Thread Site : Type*} [DecidableEq Thread] [DecidableEq Site]

/-- The thread has found another ratio than the greatest, or one below the
least, and has not stored what it makes of that. -/
def CsPosition.Lowers : CsPosition → Prop
  | .updating _ .loadRatio => True
  | .updating _ (.storeRatio value) => value ≠ maxWatchRatioUpperbound
  | .updating _ .storeMinimum => True
  | _ => False

/-- The greatest ratio is stored. -/
def TimedCallstack.IsMarked (cs : TimedCallstack) : Prop :=
  cs.watchedRatio = maxWatchRatioUpperbound

/-- An access to a marked record leaves it marked. -/
theorem body_marked
    (position : CsPosition) (cs : TimedCallstack)
    (greatest : cs.IsMarked) (spared : ¬position.Lowers) :
    (callsiteProgram.body position cs).1.IsMarked ∧
      ∀ next, (callsiteProgram.body position cs).2 = some next →
        ¬next.Lowers := by
  rw [TimedCallstack.IsMarked] at greatest ⊢
  have above : ¬maxWatchRatioUpperbound < reductionToMin := by decide
  cases position with
  | marking => exact ⟨rfl, nofun⟩
  | updating update position =>
      cases position with
      | loadRatio => exact absurd trivial spared
      | storeRatio value =>
          have same : value = maxWatchRatioUpperbound := not_not.mp spared
          simp [callsiteProgram, InfoUpdate.body, same, CsPosition.Lowers]
      | storeMinimum => exact absurd trivial spared
      | storePeriodcalled value =>
          by_cases watched : update.watched = true <;>
            simp [callsiteProgram, InfoUpdate.body, greatest, watched,
              CsPosition.Lowers]
      | testDepth =>
          by_cases empty : cs.depth = 0 <;>
            simp [callsiteProgram, InfoUpdate.body, greatest, empty,
              CsPosition.Lowers]
      | storeFrames i =>
          rcases found : update.callsites[i]? with _ | caller <;>
            simp [callsiteProgram, InfoUpdate.body, greatest, found,
              CsPosition.Lowers]
      | testPeriod =>
          simp only [callsiteProgram, InfoUpdate.body]
          split_ifs <;> simp [greatest, CsPosition.Lowers]
      | _ =>
          simp [callsiteProgram, InfoUpdate.body, greatest, above,
            CsPosition.Lowers]

/-- A mark with nobody about to store another ratio stays in all runs. -/
theorem marked_of_run
    {state final : CsState Thread Site} {site : Site}
    {labels : List (Thread × Sections.Choice Site CsSection Unit)}
    (marked : (state.shared.parts site).IsMarked)
    (spared : ∀ thread start position,
      state.locals thread = .inside site start position → ¬position.Lowers)
    (executed : Sections.run callsiteProgram state labels = some final) :
    (final.shared.parts site).IsMarked :=
  (Sections.Kept.run (fun start => by cases start <;> exact id) body_marked
    (fun _ _ _ => rfl) ⟨marked, spared⟩ executed).part

/-- A thread that is about to store another ratio does so. -/
theorem exists_lowering_run
    (state : CsState Thread Site) {thread : Thread} {site : Site}
    {start : CsSection} {position : CsPosition}
    (marked : (state.shared.parts site).IsMarked)
    (inside : state.locals thread = .inside site start position)
    (lowers : position.Lowers) :
    ∃ labels final, Sections.run callsiteProgram state labels = some final ∧
      ¬(final.shared.parts site).IsMarked := by
  obtain ⟨next, stepped, parts, later⟩ :=
    Sections.exists_step_inside callsiteProgram inside
  have one : Sections.run callsiteProgram state [(thread, .proceed)] =
      some next := by
    rw [Sections.run, Machine.run_cons, stepped]
    rfl
  match position, lowers with
  | .updating update (.storeRatio value), different =>
      refine ⟨_, next, one, ?_⟩
      rw [parts]
      exact different
  | .updating update .storeMinimum, _ =>
      refine ⟨_, next, one, ?_⟩
      rw [parts]
      exact (by decide : reductionToMin ≠ maxWatchRatioUpperbound)
  | .updating update .loadRatio, _ =>
      obtain ⟨final, followed, stored, -⟩ :=
        Sections.exists_step_inside callsiteProgram (later _ rfl)
      refine ⟨[(thread, .proceed), (thread, .proceed)], final, ?_, ?_⟩
      · rw [Sections.run, Machine.run_cons, stepped, Option.bind_some,
          Machine.run_cons, followed]
        rfl
      · rw [stored]
        change update.reduced (state.shared.parts site).watchedRatio ≠ _
        rw [marked]
        unfold InfoUpdate.reduced
        split_ifs <;> decide

/-- The store of `checkAllMemory`, which is made without the lock of the call
site, is for good exactly if no thread is about to store another ratio. -/
theorem mark_kept_iff
    {state marked : CsState Thread Site} {scanner : Thread} {site : Site}
    (stored : Sections.step callsiteProgram state (scanner, .store site ()) =
      some marked) :
    (∀ labels final, Sections.run callsiteProgram marked labels = some final →
      (final.shared.parts site).IsMarked) ↔
        ∀ thread start position,
          state.locals thread = .inside site start position →
            ¬position.Lowers := by
  obtain ⟨shared, position, moved, rfl⟩ := Interleaving.step_eq_some stored
  generalize here : state.locals scanner = place at moved
  obtain - | - := Sections.moves_of_advance moved
  have isMarked : ((state.shared.overwrite site scanner ()
      (callsiteProgram.store () (state.shared.parts site))).parts
        site).IsMarked := by
    simp [callsiteProgram, TimedCallstack.IsMarked]
  have others : ∀ thread start position,
      Function.update state.locals scanner .idle thread =
          .inside site start position ↔
        state.locals thread = .inside site start position := by
    intro thread start position
    by_cases same : thread = scanner
    · simp [same, here]
    · simp [same]
  constructor
  · intro kept thread start position inside lowers
    have still := (others thread start position).mpr inside
    obtain ⟨labels, final, executed, lost⟩ :=
      exists_lowering_run ⟨_, Function.update state.locals scanner .idle⟩
        isMarked still lowers
    exact lost (kept labels final executed)
  · intro spared labels final executed
    refine marked_of_run isMarked (fun thread start position inside => ?_)
      executed
    exact spared thread start position
      ((others thread start position).mp inside)

/-- A thread has tested the ratio of a call site that it updates. -/
def testedRatio : List (Nat × Sections.Choice Nat CsSection Unit) :=
  (1, .enter 0 (.updateWatchedInfo (sampleUpdate true))) ::
    List.replicate 8 (1, .proceed)

theorem mark_kept_iff_testedRatio :
    ∃ state ∈ Sections.run callsiteProgram
        (Sections.start fun _ => blankCallstack.reset) testedRatio,
      ∃ marked ∈ Sections.step callsiteProgram state (2, .store 0 ()),
        ((∀ labels final,
          Sections.run callsiteProgram marked labels = some final →
            (final.shared.parts 0).IsMarked) ↔
          ∀ thread start position,
            state.locals thread = .inside 0 start position →
              ¬position.Lowers) := by
  have reached : ∃ state ∈ Sections.run callsiteProgram
      (Sections.start fun _ => blankCallstack.reset) testedRatio,
      (Sections.step callsiteProgram state (2, .store 0 ())).isSome := by
    decide +kernel
  obtain ⟨state, executed, defined⟩ := reached
  obtain ⟨marked, stored⟩ := Option.isSome_iff_exists.mp defined
  exact ⟨state, executed, marked, stored, mark_kept_iff stored⟩

/-- The store of `checkPointer`, which is made under the lock, is for good. -/
theorem locked_mark_kept
    {initial : Site → TimedCallstack}
    {before after : List (Thread × Sections.Choice Site CsSection Unit)}
    {state marked final : CsState Thread Site}
    {thread : Thread} {site : Site} {start : CsSection}
    (reached : Sections.run callsiteProgram (Sections.start initial) before =
      some state)
    (marking : state.locals thread = .inside site start .marking)
    (stepped : Sections.step callsiteProgram state (thread, .proceed) =
      some marked)
    (executed : Sections.run callsiteProgram marked after = some final) :
    (final.shared.parts site).IsMarked := by
  obtain ⟨shared, position, moved, rfl⟩ := Interleaving.step_eq_some stepped
  rw [marking] at moved
  obtain ⟨⟩ := moved
  refine marked_of_run ?_ (fun other start position inside lowers => ?_) executed
  · simp [TimedCallstack.IsMarked]
  · by_cases same : other = thread
    · simp [same] at inside
    · simp only [Function.update_of_ne same] at inside
      have holds : (state.locals other).holds = some site := by
        rw [inside]
        rfl
      have own : (state.locals thread).holds = some site := by
        rw [marking]
        rfl
      exact same (Sections.mutual_exclusion reached holds own)

/-- A thread has taken the lock of a call site to mark it. -/
def aboutToMark : List (Nat × Sections.Choice Nat CsSection Unit) :=
  [(1, .enter 0 .mark), (1, .proceed)]

theorem locked_mark_kept_testedRatio :
    ∃ final ∈ Sections.run callsiteProgram
        (Sections.start fun _ => blankCallstack.reset)
        (aboutToMark ++ (1, .proceed) :: (1, .proceed) :: testedRatio),
      (final.shared.parts 0).IsMarked := by
  have reached : ∃ state ∈ Sections.run callsiteProgram
      (Sections.start fun _ => blankCallstack.reset) aboutToMark,
      state.locals 1 = .inside 0 .mark .marking := by
    refine ⟨_, rfl, rfl⟩
  obtain ⟨state, executed, marking⟩ := reached
  have defined : (Sections.run callsiteProgram
      (Sections.start fun _ => blankCallstack.reset)
      (aboutToMark ++ (1, .proceed) :: (1, .proceed) :: testedRatio)).isSome := by
    decide +kernel
  obtain ⟨final, whole⟩ := Option.isSome_iff_exists.mp defined
  obtain ⟨middle, first, rest⟩ := Machine.run_split whole
  obtain rfl : state = middle := Option.some.inj (executed.symm.trans first)
  obtain ⟨marked, stepped, others⟩ := Machine.run_cons_eq_some rest
  exact ⟨final, whole, locked_mark_kept executed marking stepped others⟩

end Marks

end Causer
