import Causer.Library.Interleaving

/-!
# Sections under spin locks

Each part of a shared memory has a spin lock, a word that is exchanged.  A
thread takes the lock of a part, changes the part step by step and gives the
lock back; it may also store to a part without the lock.  In every interleaving
at most one thread is inside a part.  As long as no store meets a section, a
part whose lock is free is what the sections and the stores made of it one after
the other.
-/

namespace Sections

variable {Thread Key Start Write Part Pos : Type*}

/-- The sections that threads can enter, and the stores without a lock. -/
structure Program (Start Write Part Pos : Type*) where
  first : Start → Pos
  /-- One step inside a section, and where the section goes on. -/
  body : Pos → Part → Part × Option Pos
  store : Write → Part → Part

variable {program : Program Start Write Part Pos}

/-- From a position on, a section that nobody disturbs turns one content of its
part into another. -/
inductive Finishes (program : Program Start Write Part Pos) :
    Pos → Part → Part → Prop
  | last {pos : Pos} {part out : Part}
      (ends : program.body pos part = (out, none)) :
      Finishes program pos part out
  | more {pos next : Pos} {part middle out : Part}
      (goesOn : program.body pos part = (middle, some next))
      (rest : Finishes program next middle out) :
      Finishes program pos part out

/-- What has been done to a part. -/
inductive Event (Start Write : Type*)
  | section (start : Start)
  | store (write : Write)
  deriving DecidableEq

/-- Sections and stores one after the other, each undisturbed. -/
inductive Serial (program : Program Start Write Part Pos) (initial : Part) :
    List (Event Start Write) → Part → Prop
  | nil : Serial program initial [] initial
  | section {events : List (Event Start Write)} {start : Start}
      {middle out : Part}
      (before : Serial program initial events middle)
      (finishes : Finishes program (program.first start) middle out) :
      Serial program initial (events ++ [.section start]) out
  | store {events : List (Event Start Write)} {part : Part}
      (before : Serial program initial events part) (write : Write) :
      Serial program initial (events ++ [.store write])
        (program.store write part)

/-- A section is finished by what each of its steps leaves to do. -/
theorem Finishes.eq_rest
    (rest : Pos → Part → Part)
    (last : ∀ {pos part out}, program.body pos part = (out, none) →
      rest pos part = out)
    (more : ∀ {pos next part middle},
      program.body pos part = (middle, some next) →
        rest pos part = rest next middle)
    {pos : Pos} {part out : Part}
    (finishes : Finishes program pos part out) :
    out = rest pos part := by
  induction finishes with
  | last ends => exact (last ends).symm
  | more goesOn _ inductionHypothesis =>
      exact inductionHypothesis.trans (more goesOn).symm

/-- Sections that are functions of their part are composed. -/
theorem Serial.eq_foldl
    {apply : Part → Event Start Write → Part} {initial : Part}
    (finishes : ∀ {start part out},
      Finishes program (program.first start) part out →
        out = apply part (.section start))
    (stores : ∀ write part,
      program.store write part = apply part (.store write))
    {events : List (Event Start Write)} {out : Part}
    (serial : Serial program initial events out) :
    out = events.foldl apply initial := by
  induction serial with
  | nil => rfl
  | «section» before finished inductionHypothesis =>
      rw [List.foldl_append, List.foldl_cons, List.foldl_nil,
        ← inductionHypothesis]
      exact finishes finished
  | store before write inductionHypothesis =>
      rw [List.foldl_append, List.foldl_cons, List.foldl_nil,
        ← inductionHypothesis]
      exact stores write _

/-- What the threads share. -/
structure Shared (Thread Key Start Write Part : Type*) where
  /-- The words of the locks. -/
  lock : Key → Bool
  parts : Key → Part
  /-- Not in memory: the thread that has taken the lock last and not given it
  back. -/
  owner : Key → Option Thread
  /-- Not in memory: which thread has entered which section and made which store,
  in order. -/
  events : Key → List (Thread × Event Start Write)
  /-- Not in memory: whether a store has met a section. -/
  met : Key → Bool

/-- What has been done to a part, in order. -/
def Shared.order (shared : Shared Thread Key Start Write Part) (key : Key) :
    List (Event Start Write) :=
  (shared.events key).map Prod.snd

/-- Where a thread is. -/
inductive Local (Key Start Pos : Type*)
  | idle
  /-- Exchanging the word of the lock until it was free. -/
  | spinning (key : Key) (start : Start)
  | inside (key : Key) (start : Start) (pos : Pos)
  /-- Before the store that frees the lock. -/
  | leaving (key : Key)

/-- What a thread does next: it begins a section, stores without a lock, or
goes on. -/
inductive Choice (Key Start Write : Type*)
  | enter (key : Key) (start : Start)
  | store (key : Key) (write : Write)
  | proceed

/-- The lock that a thread holds. -/
def Local.holds : Local Key Start Pos → Option Key
  | .idle => none
  | .spinning _ _ => none
  | .inside key _ _ => some key
  | .leaving key => some key

namespace Local

variable (key : Key) (start : Start) (pos : Pos)

@[simp] theorem holds_idle :
    (idle : Local Key Start Pos).holds = none := rfl

@[simp] theorem holds_spinning :
    (spinning key start : Local Key Start Pos).holds = none := rfl

@[simp] theorem holds_inside :
    (inside key start pos : Local Key Start Pos).holds = some key := rfl

@[simp] theorem holds_leaving :
    (leaving key : Local Key Start Pos).holds = some key := rfl

end Local

section Steps

variable [DecidableEq Key]

namespace Shared

variable (shared : Shared Thread Key Start Write Part) (key : Key)

def setPart (part : Part) : Shared Thread Key Start Write Part :=
  { shared with parts := Function.update shared.parts key part }

/-- A part is changed without its lock. -/
def overwrite (thread : Thread) (write : Write) (part : Part) :
    Shared Thread Key Start Write Part :=
  { shared.setPart key part with
    events := Function.update shared.events key
      (shared.events key ++ [(thread, .store write)])
    met := Function.update shared.met key
      (shared.met key || shared.lock key) }

/-- The exchange has found the lock free. -/
def acquire (thread : Thread) (start : Start) :
    Shared Thread Key Start Write Part :=
  { shared with
    lock := Function.update shared.lock key true
    owner := Function.update shared.owner key (some thread)
    events := Function.update shared.events key
      (shared.events key ++ [(thread, .section start)]) }

def release : Shared Thread Key Start Write Part :=
  { shared with
    lock := Function.update shared.lock key false
    owner := Function.update shared.owner key none }

@[simp] theorem parts_setPart_self (part : Part) :
    (shared.setPart key part).parts key = part :=
  Function.update_self ..

@[simp] theorem parts_setPart_of_ne
    {key other : Key} (apart : other ≠ key) (part : Part) :
    (shared.setPart key part).parts other = shared.parts other :=
  Function.update_of_ne apart ..

@[simp] theorem events_setPart (part : Part) :
    (shared.setPart key part).events = shared.events := rfl

@[simp] theorem owner_setPart (part : Part) :
    (shared.setPart key part).owner = shared.owner := rfl

@[simp] theorem met_setPart (part : Part) :
    (shared.setPart key part).met = shared.met := rfl

section

variable (thread : Thread) (write : Write) (start : Start) (part : Part)

@[simp] theorem parts_overwrite :
    (shared.overwrite key thread write part).parts =
      Function.update shared.parts key part := rfl

@[simp] theorem events_overwrite :
    (shared.overwrite key thread write part).events =
      Function.update shared.events key
        (shared.events key ++ [(thread, .store write)]) := rfl

@[simp] theorem met_overwrite :
    (shared.overwrite key thread write part).met =
      Function.update shared.met key
        (shared.met key || shared.lock key) := rfl

@[simp] theorem lock_acquire :
    (shared.acquire key thread start).lock =
      Function.update shared.lock key true := rfl

@[simp] theorem owner_acquire :
    (shared.acquire key thread start).owner =
      Function.update shared.owner key (some thread) := rfl

@[simp] theorem events_acquire :
    (shared.acquire key thread start).events =
      Function.update shared.events key
        (shared.events key ++ [(thread, .section start)]) := rfl

@[simp] theorem lock_release :
    (shared.release key).lock = Function.update shared.lock key false := rfl

@[simp] theorem owner_release :
    (shared.release key).owner = Function.update shared.owner key none := rfl

@[simp] theorem events_release :
    (shared.release key).events = shared.events := rfl

end

end Shared

/-- One step of a thread. -/
def advance (program : Program Start Write Part Pos) (thread : Thread)
    (shared : Shared Thread Key Start Write Part) :
    Local Key Start Pos → Choice Key Start Write →
      Option (Shared Thread Key Start Write Part × Local Key Start Pos)
  | .idle, .enter key start => some (shared, .spinning key start)
  | .idle, .store key write =>
      some (shared.overwrite key thread write
        (program.store write (shared.parts key)), .idle)
  | .spinning key start, .proceed =>
      if shared.lock key then some (shared, .spinning key start)
      else
        some (shared.acquire key thread start,
          .inside key start (program.first start))
  | .inside key start pos, .proceed =>
      match program.body pos (shared.parts key) with
      | (part, none) => some (shared.setPart key part, .leaving key)
      | (part, some next) =>
          some (shared.setPart key part, .inside key start next)
  | .leaving key, .proceed => some (shared.release key, .idle)
  | _, _ => none

/-- What a step of a thread can be. -/
inductive Moves (program : Program Start Write Part Pos) (thread : Thread)
    (shared : Shared Thread Key Start Write Part) :
    Local Key Start Pos → Choice Key Start Write →
      Shared Thread Key Start Write Part → Local Key Start Pos → Prop
  | enter (key : Key) (start : Start) :
      Moves program thread shared .idle (.enter key start) shared
        (.spinning key start)
  | store (key : Key) (write : Write) :
      Moves program thread shared .idle (.store key write)
        (shared.overwrite key thread write
          (program.store write (shared.parts key))) .idle
  | spin (key : Key) (start : Start) :
      Moves program thread shared (.spinning key start) .proceed shared
        (.spinning key start)
  | acquire (key : Key) (start : Start)
      (free : shared.lock key = false) :
      Moves program thread shared (.spinning key start) .proceed
        (shared.acquire key thread start)
        (.inside key start (program.first start))
  | goOn (key : Key) (start : Start) {pos next : Pos} {part : Part}
      (stepped : program.body pos (shared.parts key) = (part, some next)) :
      Moves program thread shared (.inside key start pos) .proceed
        (shared.setPart key part) (.inside key start next)
  | finish (key : Key) (start : Start) {pos : Pos} {part : Part}
      (stepped : program.body pos (shared.parts key) = (part, none)) :
      Moves program thread shared (.inside key start pos) .proceed
        (shared.setPart key part) (.leaving key)
  | release (key : Key) :
      Moves program thread shared (.leaving key) .proceed (shared.release key)
        .idle

theorem moves_of_advance
    {program : Program Start Write Part Pos} {thread : Thread}
    {shared after : Shared Thread Key Start Write Part}
    {position next : Local Key Start Pos} {choice : Choice Key Start Write}
    (moved : advance program thread shared position choice =
      some (after, next)) :
    Moves program thread shared position choice after next := by
  cases position with
  | idle =>
      cases choice with
      | enter key start =>
          cases moved
          exact .enter key start
      | store key write =>
          cases moved
          exact .store key write
      | proceed => cases moved
  | spinning key start =>
      cases choice with
      | proceed =>
          rw [advance] at moved
          split_ifs at moved with taken
          · cases moved
            exact .spin key start
          · cases moved
            exact .acquire key start (Bool.eq_false_iff.mpr taken)
      | _ => cases moved
  | inside key start pos =>
      cases choice with
      | proceed =>
          rw [advance] at moved
          rcases stepped : program.body pos (shared.parts key) with
            ⟨part, _ | later⟩
          · rw [stepped] at moved
            cases moved
            exact .finish key start stepped
          · rw [stepped] at moved
            cases moved
            exact .goOn key start stepped
      | _ => cases moved
  | leaving key =>
      cases choice with
      | proceed =>
          cases moved
          exact .release key
      | _ => cases moved

variable [DecidableEq Thread]

abbrev State (Thread Key Start Write Part Pos : Type*) :=
  Interleaving.State Thread (Shared Thread Key Start Write Part)
    (Local Key Start Pos)

abbrev step (program : Program Start Write Part Pos) :
    State Thread Key Start Write Part Pos → Thread × Choice Key Start Write →
      Option (State Thread Key Start Write Part Pos) :=
  Interleaving.step (advance program)

abbrev run (program : Program Start Write Part Pos) :
    State Thread Key Start Write Part Pos →
      List (Thread × Choice Key Start Write) →
        Option (State Thread Key Start Write Part Pos) :=
  Machine.run (step program)

end Steps

/-- All locks are free and no thread is in a section. -/
def start (initial : Key → Part) :
    State Thread Key Start Write Part Pos where
  shared :=
    { lock := fun _ => false
      parts := initial
      owner := fun _ => none
      events := fun _ => []
      met := fun _ => false }
  locals := fun _ => .idle

/-- A store to a part does not meet a section. -/
def Undisturbed (key : Key) (state : State Thread Key Start Write Part Pos)
    (label : Thread × Choice Key Start Write) : Prop :=
  ∀ write, label.2 = .store key write → state.shared.lock key = false

section Assertions

variable (program) (initial : Key → Part)

/-- The locks know their owners, and a part that nobody owns has been changed by
whole sections, unless a store has met one. -/
structure Fact (shared : Shared Thread Key Start Write Part) : Prop where
  lock : ∀ key, shared.lock key = (shared.owner key).isSome
  serial : ∀ key, shared.owner key = none → shared.met key = false →
    Serial program (initial key) (shared.order key) (shared.parts key)

/-- What a thread knows of the part it is in: finishing the section makes of it
what the whole section makes of what it has found. -/
def Detail (thread : Thread) (shared : Shared Thread Key Start Write Part) :
    Local Key Start Pos → Prop
  | .idle => True
  | .spinning _ _ => True
  | .inside key start pos => shared.met key = false →
      ∃ before part, shared.events key = before ++ [(thread, .section start)] ∧
        Serial program (initial key) (before.map Prod.snd) part ∧
        ∀ out, Finishes program pos (shared.parts key) out →
          Finishes program (program.first start) part out
  | .leaving key => shared.met key = false →
      Serial program (initial key) (shared.order key) (shared.parts key)

/-- What a thread knows at its position. -/
structure Assertion (thread : Thread)
    (shared : Shared Thread Key Start Write Part)
    (position : Local Key Start Pos) : Prop where
  owns : ∀ key, shared.owner key = some thread ↔ position.holds = some key
  detail : Detail program initial thread shared position

/-- What a thread relies on: the others leave it its locks and, unless a store
meets its section, the parts of these. -/
structure Rely (thread : Thread)
    (before after : Shared Thread Key Start Write Part) : Prop where
  owner : ∀ key, before.owner key = some thread ↔
    after.owner key = some thread
  kept : ∀ key, before.owner key = some thread → after.met key = false →
    before.met key = false ∧ after.parts key = before.parts key ∧
      after.events key = before.events key

variable {program initial}
variable {thread : Thread} {shared : Shared Thread Key Start Write Part}
  {key : Key}

theorem Rely.refl : Rely thread shared shared :=
  ⟨fun _ => Iff.rfl, fun _ _ unmet => ⟨unmet, rfl, rfl⟩⟩

theorem assertion_stable
    (thread : Thread)
    (before after : Shared Thread Key Start Write Part)
    (position : Local Key Start Pos)
    (assertion : Assertion program initial thread before position)
    (rely : Rely thread before after) :
    Assertion program initial thread after position := by
  refine ⟨fun key => (rely.owner key).symm.trans (assertion.owns key), ?_⟩
  have detail := assertion.detail
  cases position with
  | idle => trivial
  | spinning key start => trivial
  | inside key start pos =>
      intro unmet
      obtain ⟨earlier, parts, events⟩ :=
        rely.kept key ((assertion.owns key).mpr rfl) unmet
      rw [parts, events]
      exact detail earlier
  | leaving key =>
      intro unmet
      obtain ⟨earlier, parts, events⟩ :=
        rely.kept key ((assertion.owns key).mpr rfl) unmet
      rw [Shared.order, parts, events]
      exact detail earlier

/-- A lock whose word is zero has no owner. -/
theorem Fact.owner_eq_none
    (fact : Fact program initial shared)
    (free : shared.lock key = false) :
    shared.owner key = none := by
  rw [fact.lock, Option.isSome_eq_false_iff, Option.isNone_iff_eq_none] at free
  exact free

end Assertions

section Soundness

variable [DecidableEq Key] {initial : Key → Part} {thread : Thread}
  {shared : Shared Thread Key Start Write Part} {key : Key}

/-- What a step gives back: the fact, the thread's own assertion and what the
others rely on. -/
abbrev Sound (program : Program Start Write Part Pos) (initial : Key → Part)
    (thread : Thread) (before after : Shared Thread Key Start Write Part)
    (position : Local Key Start Pos) : Prop :=
  Fact program initial after ∧
    Assertion program initial thread after position ∧
    ∀ other ≠ thread, Rely other before after

/-- A store to a part; if somebody owns it, the store has met a section. -/
theorem sound_store
    {write : Write} {part : Part}
    (fact : Fact program initial shared)
    (assertion : Assertion program initial thread shared .idle)
    (stored : part = program.store write (shared.parts key)) :
    Sound program initial thread shared
      (shared.overwrite key thread write part) .idle := by
  refine ⟨⟨fact.lock, fun other unowned unmet => ?_⟩,
    ⟨assertion.owns, trivial⟩, fun other _ => ⟨fun _ => Iff.rfl,
      fun place owned unmet => ?_⟩⟩
  · by_cases same : other = key
    · subst same
      have earlier : shared.met other = false := by
        rw [Shared.met_overwrite, Function.update_self,
          Bool.or_eq_false_iff] at unmet
        exact unmet.1
      rw [Shared.order, Shared.events_overwrite, Function.update_self,
        List.map_append, Shared.parts_overwrite, Function.update_self, stored]
      exact (fact.serial other unowned earlier).store write
    · rw [Shared.met_overwrite, Function.update_of_ne same] at unmet
      rw [Shared.order, Shared.events_overwrite, Function.update_of_ne same,
        Shared.parts_overwrite, Function.update_of_ne same]
      exact fact.serial other unowned unmet
  · have apart : place ≠ key := by
      rintro rfl
      simp [fact.lock, owned] at unmet
    rw [Shared.met_overwrite, Function.update_of_ne apart] at unmet
    exact ⟨unmet, Function.update_of_ne apart .., Function.update_of_ne apart ..⟩

/-- The lock is taken when the exchange finds it free. -/
theorem sound_acquire
    {start : Start}
    (fact : Fact program initial shared)
    (assertion :
      Assertion program initial thread shared (.spinning key start))
    (free : shared.lock key = false) :
    Sound program initial thread shared (shared.acquire key thread start)
      (.inside key start (program.first start)) := by
  have noOwner := fact.owner_eq_none free
  refine ⟨⟨fun other => ?_, fun other unowned unmet => ?_⟩,
    ⟨fun other => ?_, fun unmet => ?_⟩,
    fun other different => ⟨fun place => ?_, fun place owned unmet => ?_⟩⟩
  · by_cases same : other = key
    · simp [same]
    · simpa [same] using fact.lock other
  · have apart : other ≠ key := by
      rintro rfl
      simp at unowned
    rw [Shared.owner_acquire, Function.update_of_ne apart] at unowned
    rw [Shared.order, Shared.events_acquire, Function.update_of_ne apart]
    exact fact.serial other unowned unmet
  · have without : shared.owner other ≠ some thread := by
      rw [Ne, assertion.owns other]
      simp
    by_cases same : other = key
    · simp [same]
    · simpa [same, Ne.symm same] using without
  · exact ⟨shared.events key, shared.parts key, Function.update_self ..,
      fact.serial key noOwner unmet, fun out finishes => finishes⟩
  · by_cases same : place = key
    · simp [same, noOwner, Ne.symm different]
    · simp [same]
  · have apart : place ≠ key := by
      rintro rfl
      rw [noOwner] at owned
      cases owned
    exact ⟨unmet, rfl, Function.update_of_ne apart ..⟩

/-- A part is changed by the thread that owns it. -/
theorem sound_setPart
    {part : Part} {position next : Local Key Start Pos}
    (fact : Fact program initial shared)
    (assertion : Assertion program initial thread shared position)
    (inside : position.holds = some key)
    (stays : next.holds = some key)
    (detail :
      Detail program initial thread (shared.setPart key part) next) :
    Sound program initial thread shared (shared.setPart key part) next := by
  have owned := (assertion.owns key).mpr inside
  refine ⟨⟨fact.lock, fun other unowned unmet => ?_⟩,
    ⟨fun other => (assertion.owns other).trans (by rw [inside, stays]), detail⟩,
    fun other different => ⟨fun _ => Iff.rfl, fun place others unmet => ?_⟩⟩
  · have apart : other ≠ key := by
      rintro rfl
      rw [Shared.owner_setPart, owned] at unowned
      cases unowned
    rw [Shared.order, Shared.events_setPart,
      Shared.parts_setPart_of_ne shared apart]
    exact fact.serial other unowned unmet
  · have apart : place ≠ key := by
      rintro rfl
      rw [owned, Option.some.injEq] at others
      exact different others.symm
    exact ⟨unmet, Shared.parts_setPart_of_ne shared apart part, rfl⟩

/-- The lock is given back behind a whole section. -/
theorem sound_release
    (fact : Fact program initial shared)
    (assertion : Assertion program initial thread shared (.leaving key)) :
    Sound program initial thread shared (shared.release key) .idle := by
  have owned := (assertion.owns key).mpr rfl
  refine ⟨⟨fun other => ?_, fun other unowned unmet => ?_⟩,
    ⟨fun other => ?_, trivial⟩,
    fun other different => ⟨fun place => ?_, fun _ _ unmet =>
      ⟨unmet, rfl, rfl⟩⟩⟩
  · by_cases same : other = key
    · simp [same]
    · simpa [same] using fact.lock other
  · by_cases same : other = key
    · subst same
      exact assertion.detail unmet
    · rw [Shared.owner_release, Function.update_of_ne same] at unowned
      exact fact.serial other unowned unmet
  · have only := assertion.owns other
    by_cases same : other = key
    · simp [same]
    · simpa [same, Ne.symm same] using only
  · by_cases same : place = key
    · simp [same, owned, Ne.symm different]
    · simp [same]

/-- A step inside a section keeps what finishing it means. -/
theorem detail_setPart
    {start : Start} {pos next : Pos} {part : Part}
    (detail : Detail program initial thread shared (.inside key start pos))
    (goesOn : program.body pos (shared.parts key) = (part, some next)) :
    Detail program initial thread (shared.setPart key part)
      (.inside key start next) := by
  intro unmet
  obtain ⟨before, found, events, serial, finishing⟩ := detail unmet
  refine ⟨before, found, events, serial, fun out rest => finishing out ?_⟩
  rw [Shared.parts_setPart_self] at rest
  exact .more goesOn rest

/-- The last step of a section completes it. -/
theorem detail_leaving
    {start : Start} {pos : Pos} {part : Part}
    (detail : Detail program initial thread shared (.inside key start pos))
    (ends : program.body pos (shared.parts key) = (part, none)) :
    Detail program initial thread (shared.setPart key part) (.leaving key) := by
  intro unmet
  obtain ⟨before, found, events, serial, finishing⟩ := detail unmet
  rw [Shared.parts_setPart_self, Shared.order, Shared.events_setPart, events,
    List.map_append]
  exact serial.section (finishing part (.last ends))

theorem moves_sound
    {position next : Local Key Start Pos} {choice : Choice Key Start Write}
    {after : Shared Thread Key Start Write Part}
    (fact : Fact program initial shared)
    (assertion : Assertion program initial thread shared position)
    (moved : Moves program thread shared position choice after next) :
    Sound program initial thread shared after next := by
  cases moved with
  | enter key start =>
      exact ⟨fact, ⟨assertion.owns, trivial⟩, fun _ _ => .refl⟩
  | store key write => exact sound_store fact assertion rfl
  | spin key start => exact ⟨fact, assertion, fun _ _ => .refl⟩
  | acquire key start free => exact sound_acquire fact assertion free
  | goOn key start stepped =>
      exact sound_setPart fact assertion rfl rfl
        (detail_setPart assertion.detail stepped)
  | finish key start stepped =>
      exact sound_setPart fact assertion rfl rfl
        (detail_leaving assertion.detail stepped)
  | release key => exact sound_release fact assertion

/-- Only a store that meets a section leaves a trace of that. -/
theorem met_moves
    {position next : Local Key Start Pos} {choice : Choice Key Start Write}
    {after : Shared Thread Key Start Write Part}
    (unmet : shared.met key = false)
    (undisturbed : ∀ write, choice = .store key write →
      shared.lock key = false)
    (moved : Moves program thread shared position choice after next) :
    after.met key = false := by
  cases moved with
  | store place write =>
      by_cases same : key = place
      · subst same
        simp [unmet, undisturbed write rfl]
      · simpa [same] using unmet
  | _ => exact unmet

end Soundness

section Order

variable [DecidableEq Thread] [DecidableEq Key]

/-- What a step begins to do to a part. -/
def begun (key : Key) :
    Choice Key Start Write → List (Event Start Write)
  | .enter place start => if place = key then [.section start] else []
  | .store place write => if place = key then [.store write] else []
  | .proceed => []

/-- What a thread has begun to do to a part, in order. -/
def callsOf (thread : Thread) (key : Key)
    (labels : List (Thread × Choice Key Start Write)) :
    List (Event Start Write) :=
  labels.flatMap fun label =>
    if label.1 = thread then begun key label.2 else []

/-- What a thread waits to do to a part. -/
def Local.pending (key : Key) :
    Local Key Start Pos → List (Event Start Write)
  | .spinning place start => if place = key then [.section start] else []
  | _ => []

/-- What a thread has done to a part, in order. -/
def Shared.doneBy (shared : Shared Thread Key Start Write Part)
    (thread : Thread) (key : Key) : List (Event Start Write) :=
  ((shared.events key).filter fun event => event.1 = thread).map Prod.snd

variable {thread : Thread} {shared after : Shared Thread Key Start Write Part}
  {position next : Local Key Start Pos} {choice : Choice Key Start Write}

/-- A step adds to what other threads have done nothing, and to what its own has
done or waits to do what it begins. -/
theorem doneBy_moves
    (moved : Moves program thread shared position choice after next)
    (other : Thread) (key : Key) :
    after.doneBy other key ++ (if other = thread then next.pending key else []) =
      shared.doneBy other key ++
        (if other = thread then position.pending key ++ begun key choice
        else []) := by
  cases moved with
  | store place write =>
      simp only [Shared.doneBy, Shared.events_overwrite, Local.pending, begun]
      rcases eq_or_ne key place with rfl | same
      · rcases eq_or_ne other thread with rfl | own
        · simp
        · simp [own, own.symm]
      · simp [same, same.symm]
  | acquire place start free =>
      simp only [Shared.doneBy, Shared.events_acquire, Local.pending, begun]
      rcases eq_or_ne key place with rfl | same
      · rcases eq_or_ne other thread with rfl | own
        · simp
        · simp [own, own.symm]
      · simp [same, same.symm]
  | _ =>
      simp [Shared.doneBy, Local.pending, begun]

/-- Each thread does to a part what it begins, in its order. -/
theorem doneBy_of_run
    {state final : State Thread Key Start Write Part Pos}
    {labels : List (Thread × Choice Key Start Write)}
    (executed : run program state labels = some final)
    (thread : Thread) (key : Key) :
    final.shared.doneBy thread key ++ (final.locals thread).pending key =
      state.shared.doneBy thread key ++ (state.locals thread).pending key ++
        callsOf thread key labels := by
  induction labels generalizing state with
  | nil =>
      obtain rfl := Option.some.inj executed
      simp [callsOf]
  | cons label labels inductionHypothesis =>
      obtain ⟨middle, stepped, rest⟩ := Machine.run_cons_eq_some executed
      obtain ⟨shared, position, moved, rfl⟩ :=
        Interleaving.step_eq_some stepped
      rw [inductionHypothesis rest]
      have added := doneBy_moves (moves_of_advance moved) thread key
      by_cases own : thread = label.1
      · subst own
        simp only [if_true] at added
        simp only [Function.update_self, added, callsOf, List.flatMap_cons,
          if_true, List.append_assoc]
      · simp only [if_neg own, List.append_nil] at added
        simp only [Function.update_of_ne own, added, callsOf,
          List.flatMap_cons, if_neg (Ne.symm own), List.nil_append]

end Order

section Runs

variable [DecidableEq Thread] [DecidableEq Key]
  {initial : Key → Part}
  {final : State Thread Key Start Write Part Pos}
  {labels : List (Thread × Choice Key Start Write)}

/-- What holds of every state that is reached. -/
theorem invariant_of_run
    (executed : run program (start initial) labels = some final) :
    Interleaving.Invariant (Fact program initial) (Assertion program initial)
      final := by
  have initially : Interleaving.Invariant (Fact program initial)
      (Assertion program initial)
      (start initial : State Thread Key Start Write Part Pos) :=
    ⟨⟨fun _ => rfl, fun _ _ _ => .nil⟩, fun _ =>
      ⟨fun _ => ⟨nofun, nofun⟩, trivial⟩⟩
  refine Machine.run_invariant_of_step ?_ initially executed
  rintro state ⟨thread, choice⟩ next invariant stepped
  apply Interleaving.Invariant.step assertion_stable invariant _ stepped
  intro shared position moved
  exact moves_sound invariant.fact (invariant.assertion thread)
    (moves_of_advance moved)

/-- Two threads do not hold one lock. -/
theorem mutual_exclusion
    (executed : run program (start initial) labels = some final)
    {first second : Thread} {key : Key}
    (firstHolds : (final.locals first).holds = some key)
    (secondHolds : (final.locals second).holds = some key) :
    first = second := by
  have invariant := invariant_of_run executed
  have owned := ((invariant.assertion first).owns key).mpr firstHolds
  rw [((invariant.assertion second).owns key).mpr secondHolds,
    Option.some.injEq] at owned
  exact owned.symm

/-- A step that does not store into a section leaves it unmet. -/
theorem met_of_step
    {state next : State Thread Key Start Write Part Pos}
    {label : Thread × Choice Key Start Write} {key : Key}
    (unmet : state.shared.met key = false)
    (undisturbed : Undisturbed key state label)
    (stepped : step program state label = some next) :
    next.shared.met key = false := by
  obtain ⟨thread, choice⟩ := label
  obtain ⟨shared, position, moved, rfl⟩ := Interleaving.step_eq_some stepped
  exact met_moves unmet undisturbed (moves_of_advance moved)

/-- A run without stores to a part is undisturbed there. -/
theorem along_undisturbed
    {state : State Thread Key Start Write Part Pos} {key : Key}
    (absent : ∀ label ∈ labels, ∀ write, label.2 ≠ .store key write) :
    Machine.Along (step program) (Undisturbed key) state labels := by
  induction labels generalizing state with
  | nil => trivial
  | cons label labels inductionHypothesis =>
      obtain ⟨first, others⟩ := List.forall_mem_cons.mp absent
      exact ⟨fun write isStore => absurd isStore (first write),
        fun next _ => inductionHypothesis others⟩

/-- A part of which something holds, with no thread in it that is about to spoil
that. -/
structure Kept (holds : Part → Prop) (spares : Pos → Prop) (key : Key)
    (state : State Thread Key Start Write Part Pos) : Prop where
  part : holds (state.shared.parts key)
  spared : ∀ thread start pos,
    state.locals thread = .inside key start pos → spares pos

section Keep

variable {holds : Part → Prop} {spares : Pos → Prop} {key : Key}
  (firsts : ∀ start, spares (program.first start))
  (bodies : ∀ pos part, holds part → spares pos →
    holds (program.body pos part).1 ∧
      ∀ next, (program.body pos part).2 = some next → spares next)
  (stores : ∀ write part, holds part → holds (program.store write part))

include firsts bodies stores

omit [DecidableEq Thread] in
theorem kept_moves
    {thread : Thread} {shared after : Shared Thread Key Start Write Part}
    {position next : Local Key Start Pos} {choice : Choice Key Start Write}
    (part : holds (shared.parts key))
    (spared : ∀ start pos, position = .inside key start pos → spares pos)
    (moved : Moves program thread shared position choice after next) :
    holds (after.parts key) ∧
      ∀ start pos, next = .inside key start pos → spares pos := by
  cases moved with
  | enter place start => exact ⟨part, nofun⟩
  | store place write =>
      refine ⟨?_, nofun⟩
      by_cases same : key = place
      · subst same
        simpa [Shared.overwrite] using stores write _ part
      · simpa [same] using part
  | spin place start => exact ⟨part, nofun⟩
  | acquire place start free =>
      refine ⟨part, ?_⟩
      rintro start pos ⟨⟩
      exact firsts _
  | @goOn place start pos later stored stepped =>
      by_cases same : key = place
      · subst same
        have kept := bodies pos _ part (spared start pos rfl)
        rw [stepped] at kept
        refine ⟨by simpa using kept.1, ?_⟩
        rintro start pos ⟨⟩
        exact kept.2 _ rfl
      · refine ⟨by simpa [same] using part, ?_⟩
        rintro start pos ⟨⟩
        exact absurd rfl same
  | @finish place start pos stored stepped =>
      refine ⟨?_, nofun⟩
      by_cases same : key = place
      · subst same
        have kept := bodies pos _ part (spared start pos rfl)
        rw [stepped] at kept
        simpa using kept.1
      · simpa [same] using part
  | release place => exact ⟨part, nofun⟩

/-- What sections and stores keep of a part holds in every state that is
reached from one in which it is kept. -/
theorem Kept.run
    {state : State Thread Key Start Write Part Pos}
    (kept : Kept holds spares key state)
    (executed : run program state labels = some final) :
    Kept holds spares key final := by
  refine Machine.run_invariant_of_step ?_ kept executed
  rintro before ⟨thread, choice⟩ after invariant stepped
  obtain ⟨shared, position, moved, rfl⟩ := Interleaving.step_eq_some stepped
  have own := kept_moves firsts bodies stores invariant.part
    (invariant.spared thread) (moves_of_advance moved)
  refine ⟨own.1, fun other start pos inside => ?_⟩
  by_cases same : other = thread
  · subst same
    simp only [Function.update_self] at inside
    exact own.2 start pos inside
  · simp only [Function.update_of_ne same] at inside
    exact invariant.spared other start pos inside

end Keep

/-- A thread inside a part can go on. -/
theorem exists_step_inside
    (program : Program Start Write Part Pos)
    {state : State Thread Key Start Write Part Pos}
    {thread : Thread} {key : Key} {start : Start} {pos : Pos}
    (inside : state.locals thread = .inside key start pos) :
    ∃ next, step program state (thread, .proceed) = some next ∧
      next.shared.parts key = (program.body pos (state.shared.parts key)).1 ∧
      ∀ later, (program.body pos (state.shared.parts key)).2 = some later →
        next.locals thread = .inside key start later := by
  rcases stepped : program.body pos (state.shared.parts key) with
    ⟨part, _ | later⟩
  · refine ⟨_, by simp [step, Interleaving.step, advance, inside, stepped]; rfl,
      by simp, nofun⟩
  · refine ⟨_, by simp [step, Interleaving.step, advance, inside, stepped]; rfl,
      by simp, by simp⟩

/-- A part whose lock is free is what the sections and the stores made of it one
after the other. -/
theorem run_serial
    {key : Key}
    (undisturbed : Machine.Along (step program) (Undisturbed key)
      (start initial) labels)
    (executed : run program (start initial) labels = some final)
    (free : final.shared.lock key = false) :
    Serial program (initial key) (final.shared.order key)
      (final.shared.parts key) := by
  have fact := (invariant_of_run executed).fact
  have unmet : final.shared.met key = false :=
    Machine.run_invariant (fun _ _ _ => met_of_step) rfl undisturbed executed
  exact fact.serial key (fact.owner_eq_none free) unmet

end Runs

end Sections
