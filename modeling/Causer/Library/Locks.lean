import Mathlib.Data.Finset.Basic
import Mathlib.Logic.Function.Basic

/-!
# Locks and barriers

Spin locks, a read-write lock and barriers of two parties, with the threads that
hold them or wait at them.  A lock that is not available makes the operation
undefined.  For each of the three there is a relation between the lock and what
every thread thinks it holds, and a rule for each operation; the rules change
the lock and the belief of the thread that acts.
-/

namespace Locks

variable {Key Thread : Type*} [DecidableEq Thread]

/-- A thread holds at most one lock of the family, and the lock knows it. -/
def Held (locks : Key → Option Thread) (holding : Thread → Option Key) : Prop :=
  ∀ key thread, locks key = some thread ↔ holding thread = some key

section Spin

variable [DecidableEq Key]
variable {locks : Key → Option Thread} {holding : Thread → Option Key}
variable {key : Key} {thread : Thread}

/-- Taking a free lock. -/
theorem Held.lock
    (held : Held locks holding)
    (free : locks key = none)
    (without : holding thread = none) :
    Held (Function.update locks key (some thread))
      (Function.update holding thread (some key)) := by
  intro other owner
  by_cases sameKey : other = key
  · by_cases sameThread : owner = thread
    · simp [sameKey, sameThread]
    · have elsewhere : holding owner ≠ some key := by
        rw [Ne, ← held key owner, free]
        simp
      simp [sameKey, sameThread, Ne.symm sameThread, elsewhere]
  · by_cases sameThread : owner = thread
    · have elsewhere : locks other ≠ some thread := by
        rw [Ne, held other thread, without]
        simp
      simp [sameKey, sameThread, Ne.symm sameKey, elsewhere]
    · simpa [sameKey, sameThread] using held other owner

/-- Giving a lock back. -/
theorem Held.unlock
    (held : Held locks holding)
    (owned : holding thread = some key) :
    Held (Function.update locks key none)
      (Function.update holding thread none) := by
  intro other owner
  by_cases sameKey : other = key
  · by_cases sameThread : owner = thread
    · simp [sameKey, sameThread]
    · have elsewhere : holding owner ≠ some key := by
        rw [Ne, ← held key owner, (held key thread).mpr owned,
          Option.some.injEq]
        exact Ne.symm sameThread
      simp [sameKey, sameThread, elsewhere]
  · by_cases sameThread : owner = thread
    · have elsewhere : locks other ≠ some thread := by
        rw [Ne, held other thread, owned, Option.some.injEq]
        exact Ne.symm sameKey
      simp [sameKey, sameThread, elsewhere]
    · simpa [sameKey, sameThread] using held other owner

end Spin

/-- A read-write lock. -/
structure RwLock (Thread : Type*) where
  writer : Option Thread
  readers : Finset Thread

/-- What a thread has of a read-write lock. -/
inductive Mode
  | out
  | reading
  | writing
  deriving DecidableEq

namespace RwLock

/-- Take the lock for reading. -/
def rdlock (thread : Thread) (lock : RwLock Thread) : Option (RwLock Thread) :=
  if lock.writer = none then
    some { lock with readers := insert thread lock.readers }
  else none

/-- Take the lock for writing. -/
def wrlock (thread : Thread) (lock : RwLock Thread) : Option (RwLock Thread) :=
  if lock.writer = none ∧ lock.readers = ∅ then
    some { lock with writer := some thread }
  else none

/-- Give the lock back. -/
def unlock (thread : Thread) (lock : RwLock Thread) : RwLock Thread :=
  if lock.writer = some thread then { lock with writer := none }
  else { lock with readers := lock.readers.erase thread }

/-- The lock knows who has it. -/
structure HeldBy (lock : RwLock Thread) (modes : Thread → Mode) : Prop where
  writer : ∀ thread, lock.writer = some thread ↔ modes thread = .writing
  readers : ∀ thread, thread ∈ lock.readers ↔ modes thread = .reading

variable {lock after : RwLock Thread} {modes : Thread → Mode} {thread : Thread}

omit [DecidableEq Thread] in
/-- There is at most one writer. -/
theorem HeldBy.writer_unique
    (held : lock.HeldBy modes)
    {first second : Thread}
    (firstWrites : modes first = .writing)
    (secondWrites : modes second = .writing) :
    first = second := by
  have same := (held.writer first).mpr firstWrites
  rw [(held.writer second).mpr secondWrites, Option.some.injEq] at same
  exact same.symm

theorem HeldBy.rdlock
    (held : lock.HeldBy modes)
    (taken : lock.rdlock thread = some after) :
    after.HeldBy (Function.update modes thread .reading) := by
  unfold RwLock.rdlock at taken
  split_ifs at taken with free
  rw [Option.some.injEq] at taken
  subst taken
  constructor
  · intro other
    have nobody := held.writer other
    rw [free] at nobody
    by_cases same : other = thread
    · simp [same, free]
    · simpa [same, free] using nobody
  · intro other
    by_cases same : other = thread
    · simp [same]
    · simpa [same] using held.readers other

theorem HeldBy.wrlock
    (held : lock.HeldBy modes)
    (taken : lock.wrlock thread = some after) :
    after.HeldBy (Function.update modes thread .writing) := by
  unfold RwLock.wrlock at taken
  split_ifs at taken with free
  rw [Option.some.injEq] at taken
  subst taken
  constructor
  · intro other
    have nobody := held.writer other
    rw [free.1] at nobody
    by_cases same : other = thread
    · simp [same]
    · simpa [same, Ne.symm same] using nobody
  · intro other
    have nobody := held.readers other
    rw [free.2] at nobody
    by_cases same : other = thread
    · simp [same, free.2]
    · simpa [same, free.2] using nobody

theorem HeldBy.unlock
    (held : lock.HeldBy modes)
    (owned : modes thread ≠ .out) :
    (lock.unlock thread).HeldBy (Function.update modes thread .out) := by
  unfold RwLock.unlock
  split_ifs with writes
  · constructor
    · intro other
      by_cases same : other = thread
      · simp [same]
      · have single := held.writer other
        rw [writes, Option.some.injEq] at single
        simpa [same, Ne.symm same] using single
    · intro other
      by_cases same : other = thread
      · subst same
        have writing := (held.writer other).mp writes
        simp [held.readers other, writing]
      · simpa [same] using held.readers other
  · constructor
    · intro other
      by_cases same : other = thread
      · simp [same, writes]
      · simpa [same] using held.writer other
    · intro other
      by_cases same : other = thread
      · simp [same]
      · simpa [same] using held.readers other

end RwLock

/-- A barrier of two parties.  A host brings a guest into being and meets it
there, and there is one host at a time.  The barrier of a place serves one
meeting after the other; its rounds are counted, and a party that arrives is
given the round as its ticket and may leave once the round is over. -/
structure Barrier where
  /-- One party has arrived in the current round. -/
  arrived : Bool
  /-- How many rounds are over. -/
  round : Nat

/-- A party arrives; the second one ends the round. -/
def Barrier.arrive (barrier : Barrier) : Barrier :=
  if barrier.arrived then ⟨false, barrier.round + 1⟩
  else ⟨true, barrier.round⟩

/-- What a thread has to do with a barrier. -/
inductive Role (Place Thread : Type*)
  | out
  | host (place : Place) (guest : Thread) (ticket : Option Nat)
  | guest (place : Place) (ticket : Option Nat)

/-- The tickets that two parties of the current round can have. -/
inductive Barrier.Expects (barrier : Barrier) : Option Nat → Option Nat → Prop
  | nobody (waiting : barrier.arrived = false) : barrier.Expects none none
  | host (waiting : barrier.arrived = true) :
      barrier.Expects (some barrier.round) none
  | guest (waiting : barrier.arrived = true) :
      barrier.Expects none (some barrier.round)

/-- The round of the ticket is not over. -/
def Barrier.Open (barrier : Barrier) (ticket : Option Nat) : Prop :=
  ∀ round ∈ ticket, barrier.round ≤ round

/-- The thread has a ticket of a round that is over. -/
def Role.Over {Place : Type*} (barriers : Place → Barrier) :
    Role Place Thread → Prop
  | .out => False
  | .host place _ ticket => ¬(barriers place).Open ticket
  | .guest place ticket => ¬(barriers place).Open ticket

/-- Every party of a round that is not over has a partner, and whoever has
arrived in it is one of them. -/
structure Meeting {Place : Type*} (barriers : Place → Barrier)
    (roles : Thread → Role Place Thread) : Prop where
  host : ∀ thread place guest ticket,
    roles thread = .host place guest ticket → (barriers place).Open ticket →
    ∃ other, roles guest = .guest place other ∧
      (barriers place).Expects ticket other
  guest : ∀ thread place ticket,
    roles thread = .guest place ticket → (barriers place).Open ticket →
    ∃ host other, roles host = .host place thread other ∧
      (barriers place).Expects other ticket
  arrived : ∀ place, (barriers place).arrived = true →
    ∃ host guest ticket, roles host = .host place guest ticket ∧
      (barriers place).Open ticket

/-- There is one host at a time. -/
def OneHost {Place : Type*} (roles : Thread → Role Place Thread) : Prop :=
  ∀ first second firstPlace secondPlace firstGuest secondGuest firstTicket
      secondTicket,
    roles first = .host firstPlace firstGuest firstTicket →
    roles second = .host secondPlace secondGuest secondTicket →
    first = second

section Meetings

variable {Place : Type*} [DecidableEq Place]
variable {barriers : Place → Barrier} {roles : Thread → Role Place Thread}
variable {place : Place} {host guest thread : Thread}
variable {ticket other : Option Nat}

omit [DecidableEq Thread] in
theorem Barrier.Expects.open_left
    {barrier : Barrier}
    (expects : barrier.Expects ticket other) : barrier.Open ticket := by
  cases expects <;> simp [Barrier.Open]

omit [DecidableEq Thread] in
theorem Barrier.Expects.open_right
    {barrier : Barrier}
    (expects : barrier.Expects ticket other) : barrier.Open other := by
  cases expects <;> simp [Barrier.Open]

theorem Barrier.arrive_first
    {barrier : Barrier}
    (waiting : barrier.arrived = false) :
    barrier.arrive = ⟨true, barrier.round⟩ := by
  simp [arrive, waiting]

theorem Barrier.arrive_second
    {barrier : Barrier}
    (waiting : barrier.arrived = true) :
    barrier.arrive = ⟨false, barrier.round + 1⟩ := by
  simp [arrive, waiting]

theorem Barrier.round_le_arrive (barrier : Barrier) :
    barrier.round ≤ barrier.arrive.round := by
  rw [arrive]
  split_ifs
  · exact Nat.le_succ _
  · exact le_rfl

/-- The two parties are of one round, or their round is over and nobody has
arrived in the next one. -/
def Barrier.Pairs (barrier : Barrier) (first second : Option Nat) : Prop :=
  barrier.Expects first second ∨
    ¬barrier.Open first ∧ ¬barrier.Open second ∧ barrier.arrived = false

/-- The round is over with the second arrival. -/
theorem Barrier.pairs_succ (round : Nat) :
    Barrier.Pairs ⟨false, round + 1⟩ (some round) (some round) :=
  Or.inr ⟨by simp [Open], by simp [Open], rfl⟩

/-- The host arrives. -/
theorem Barrier.Expects.arrive_left
    {barrier : Barrier}
    (expects : barrier.Expects none other) :
    barrier.arrive.Pairs (some barrier.round) other := by
  cases expects with
  | nobody waiting =>
      rw [arrive_first waiting]
      exact Or.inl (.host rfl)
  | guest waiting =>
      rw [arrive_second waiting]
      exact pairs_succ barrier.round

/-- The guest arrives. -/
theorem Barrier.Expects.arrive_right
    {barrier : Barrier}
    (expects : barrier.Expects ticket none) :
    barrier.arrive.Pairs ticket (some barrier.round) := by
  cases expects with
  | nobody waiting =>
      rw [arrive_first waiting]
      exact Or.inl (.guest rfl)
  | host waiting =>
      rw [arrive_second waiting]
      exact pairs_succ barrier.round

omit [DecidableEq Place] in
/-- A host brings its guest into being. -/
theorem Meeting.invite
    (meeting : Meeting barriers roles)
    (alone : ∀ other place guest ticket,
      roles other ≠ .host place guest ticket)
    (different : guest ≠ host) :
    Meeting barriers
      (Function.update (Function.update roles host (.host place guest none))
        guest (.guest place none)) := by
  have silent : ∀ place, (barriers place).arrived = false := by
    intro place
    by_contra arrived
    obtain ⟨other, guest, ticket, isHost, -⟩ :=
      meeting.arrived place (by simpa using arrived)
    exact alone other place guest ticket isHost
  constructor
  · intro thread other visitor ticket isHost isOpen
    by_cases asGuest : thread = guest
    · simp [asGuest] at isHost
    by_cases asHost : thread = host
    · simp only [asHost, Function.update_of_ne different.symm,
        Function.update_self, Role.host.injEq] at isHost
      obtain ⟨rfl, rfl, rfl⟩ := isHost
      exact ⟨none, Function.update_self .., .nobody (silent _)⟩
    · rw [Function.update_of_ne asGuest, Function.update_of_ne asHost]
        at isHost
      exact (alone _ _ _ _ isHost).elim
  · intro thread other ticket isGuest isOpen
    by_cases asGuest : thread = guest
    · simp only [asGuest, Function.update_self, Role.guest.injEq] at isGuest
      obtain ⟨rfl, rfl⟩ := isGuest
      refine ⟨host, none, ?_, .nobody (silent _)⟩
      rw [Function.update_of_ne different.symm, Function.update_self, asGuest]
    by_cases asHost : thread = host
    · simp [asHost, Function.update_of_ne different.symm] at isGuest
    · rw [Function.update_of_ne asGuest, Function.update_of_ne asHost]
        at isGuest
      obtain ⟨stranger, ticket, isHost, -⟩ :=
        meeting.guest thread other ticket isGuest isOpen
      exact (alone _ _ _ _ isHost).elim
  · intro place arrived
    rw [silent place] at arrived
    contradiction

/-- The tickets of a pair change and with them the barrier: the pair is still of
one round, or the round is over for both. -/
theorem Meeting.replace
    {hostTicket guestTicket : Option Nat}
    (meeting : Meeting barriers roles)
    (one : OneHost roles)
    (barrier : Barrier)
    (newHost newGuest : Option Nat)
    (isHost : roles host = .host place guest hostTicket)
    (isGuest : roles guest = .guest place guestTicket)
    (later : (barriers place).round ≤ barrier.round)
    (paired : barrier.Pairs newHost newGuest) :
    Meeting (Function.update barriers place barrier)
      (Function.update (Function.update roles host
        (.host place guest newHost)) guest (.guest place newGuest)) := by
  have different : host ≠ guest := by
    rintro rfl
    rw [isHost] at isGuest
    contradiction
  have hostAfter : (Function.update (Function.update roles host
      (.host place guest newHost)) guest (.guest place newGuest)) host =
      .host place guest newHost := by
    rw [Function.update_of_ne different, Function.update_self]
  constructor
  · intro thread other visitor ticket hosts isOpen
    by_cases asGuest : thread = guest
    · simp [asGuest] at hosts
    by_cases asHost : thread = host
    · rw [asHost, hostAfter, Role.host.injEq] at hosts
      obtain ⟨rfl, rfl, rfl⟩ := hosts
      rw [Function.update_self] at isOpen
      rcases paired with expects | ⟨finished, -, -⟩
      · refine ⟨newGuest, Function.update_self .., ?_⟩
        rwa [Function.update_self]
      · exact absurd isOpen finished
    · rw [Function.update_of_ne asGuest, Function.update_of_ne asHost]
        at hosts
      exact absurd (one _ _ _ _ _ _ _ _ hosts isHost) asHost
  · intro thread other ticket visits isOpen
    by_cases asGuest : thread = guest
    · simp only [asGuest, Function.update_self, Role.guest.injEq] at visits
      obtain ⟨rfl, rfl⟩ := visits
      rw [Function.update_self] at isOpen ⊢
      rcases paired with expects | ⟨-, finished, -⟩
      · exact ⟨host, newHost, by rw [hostAfter, asGuest], expects⟩
      · exact absurd isOpen finished
    by_cases asHost : thread = host
    · rw [asHost, hostAfter] at visits
      contradiction
    · rw [Function.update_of_ne asGuest, Function.update_of_ne asHost]
        at visits
      -- the only host there is has another guest
      have openBefore : (barriers other).Open ticket := by
        by_cases samePlace : other = place
        · subst samePlace
          rw [Function.update_self] at isOpen
          exact fun round given => later.trans (isOpen round given)
        · rwa [Function.update_of_ne samePlace] at isOpen
      obtain ⟨owner, ownerTicket, hosts, -⟩ :=
        meeting.guest thread other ticket visits openBefore
      have same := one _ _ _ _ _ _ _ _ hosts isHost
      rw [same, isHost, Role.host.injEq] at hosts
      exact absurd hosts.2.1.symm asGuest
  · intro other arrived
    by_cases samePlace : other = place
    · subst samePlace
      rw [Function.update_self] at arrived ⊢
      rcases paired with expects | ⟨-, -, silent⟩
      · exact ⟨host, guest, newHost, hostAfter, expects.open_left⟩
      · rw [silent] at arrived
        contradiction
    · rw [Function.update_of_ne samePlace] at arrived
      obtain ⟨owner, visitor, ticket, hosts, -⟩ :=
        meeting.arrived other arrived
      have same := one _ _ _ _ _ _ _ _ hosts isHost
      rw [same, isHost, Role.host.injEq] at hosts
      exact absurd hosts.1.symm samePlace

/-- The host arrives at the barrier. -/
theorem Meeting.hostArrives
    (meeting : Meeting barriers roles)
    (one : OneHost roles)
    (isHost : roles host = .host place guest none) :
    Meeting (Function.update barriers place (barriers place).arrive)
      (Function.update roles host
        (.host place guest (some (barriers place).round))) := by
  obtain ⟨ticket, isGuest, expects⟩ :=
    meeting.host host place guest none isHost (by simp [Barrier.Open])
  have different : guest ≠ host := by
    rintro rfl
    rw [isHost] at isGuest
    contradiction
  have replaced := meeting.replace one (barriers place).arrive
    (some (barriers place).round) ticket isHost isGuest
  rw [Function.update_comm different.symm, ← isGuest,
    Function.update_eq_self] at replaced
  exact replaced (barriers place).round_le_arrive expects.arrive_left

/-- The guest arrives at the barrier. -/
theorem Meeting.guestArrives
    (meeting : Meeting barriers roles)
    (one : OneHost roles)
    (isGuest : roles guest = .guest place none) :
    Meeting (Function.update barriers place (barriers place).arrive)
      (Function.update roles guest
        (.guest place (some (barriers place).round))) := by
  obtain ⟨host, ticket, isHost, expects⟩ :=
    meeting.guest guest place none isGuest (by simp [Barrier.Open])
  have replaced := meeting.replace one (barriers place).arrive
    ticket (some (barriers place).round) isHost isGuest
  rw [← isHost, Function.update_eq_self] at replaced
  exact replaced (barriers place).round_le_arrive expects.arrive_right

omit [DecidableEq Place] in
/-- A party of a round that is over leaves. -/
theorem Meeting.leave
    (meeting : Meeting barriers roles)
    (finished : (roles thread).Over barriers) :
    Meeting barriers (Function.update roles thread .out) := by
  constructor
  · intro host place guest ticket isHost isOpen
    by_cases same : host = thread
    · simp [same] at isHost
    rw [Function.update_of_ne same] at isHost
    obtain ⟨other, isGuest, expects⟩ :=
      meeting.host host place guest ticket isHost isOpen
    refine ⟨other, ?_, expects⟩
    rw [Function.update_of_ne, isGuest]
    rintro rfl
    rw [isGuest] at finished
    exact finished expects.open_right
  · intro guest place ticket isGuest isOpen
    by_cases same : guest = thread
    · simp [same] at isGuest
    rw [Function.update_of_ne same] at isGuest
    obtain ⟨host, other, isHost, expects⟩ :=
      meeting.guest guest place ticket isGuest isOpen
    refine ⟨host, other, ?_, expects⟩
    rw [Function.update_of_ne, isHost]
    rintro rfl
    rw [isHost] at finished
    exact finished expects.open_left
  · intro place arrived
    obtain ⟨host, guest, ticket, isHost, isOpen⟩ :=
      meeting.arrived place arrived
    refine ⟨host, guest, ticket, ?_, isOpen⟩
    rw [Function.update_of_ne, isHost]
    rintro rfl
    rw [isHost] at finished
    exact finished isOpen

end Meetings

end Locks
