import Nise.Lib.TupleSpace

/-!
# Read and write locks on a tuple space

An `RWLock` is three counters in a tuple space: a dispenser of tickets, the ticket whose turn it
is, and the number of readers.  A client waits for its turn and takes it out of the space.  A
reader counts itself and passes the turn on; a writer waits until there are no readers, and
passes the turn on when it unlocks.

The turn is a token that is in the space or with one client, and so is the number of readers
while it is changed.
-/

namespace Nise.RubyModels.RWLock

open Nise.Lib

inductive CounterName where
  | dispenser
  | reader
  | turn
  deriving DecidableEq, Repr

/-- The tuple `[rw_name, name, n]`. -/
structure Tuple where
  rwName : String
  name : CounterName
  n : Int
  deriving DecidableEq, Repr

inductive Operation where
  | take
  | read
  deriving DecidableEq, Repr

structure Counter where
  rwName : String
  name : CounterName
  deriving DecidableEq, Repr

namespace Counter

variable (counter : Counter)

/-- The pattern of a counter with a value, or with any. -/
def pattern (n : Option Int) (tuple : Tuple) : Bool :=
  tuple.rwName == counter.rwName && tuple.name == counter.name &&
    match n with
    | some n => tuple.n == n
    | none => true

def modify (change : Int → Int) : Proc Tuple Int :=
  .take (counter.pattern none) fun tuple =>
    .write { tuple with n := change tuple.n } (.ret (change tuple.n))

def inc : Proc Tuple Int := counter.modify (· + 1)

def dec : Proc Tuple Int := counter.modify (· - 1)

def wait (n : Int) : Operation → Proc Tuple Tuple
  | .take => .take (counter.pattern (some n)) .ret
  | .read => .read (counter.pattern (some n)) .ret

def update (n : Int) : Proc Tuple Unit := .write ⟨counter.rwName, counter.name, n⟩ (.ret ())

end Counter

section Lock

variable (name : String)

def dispenser : Counter := ⟨name, .dispenser⟩

def reader : Counter := ⟨name, .reader⟩

def turn : Counter := ⟨name, .turn⟩

/-- What `init` writes. -/
def init : Multiset Tuple := {⟨name, .dispenser, -1⟩, ⟨name, .reader, 0⟩, ⟨name, .turn, 0⟩}

def readLock : Proc Tuple Unit := do
  let ticket ← (dispenser name).inc
  let _ ← (turn name).wait ticket .take
  let _ ← (reader name).inc
  (turn name).update (ticket + 1)

def readUnlock : Proc Tuple Unit := do
  let _ ← (reader name).dec
  return ()

/-- The ticket is kept in the object. -/
def writeLock : Proc Tuple Int := do
  let ticket ← (dispenser name).inc
  let _ ← (turn name).wait ticket .take
  let _ ← (reader name).wait 0 .read
  return ticket

def writeUnlock (ticket : Int) : Proc Tuple Unit := (turn name).update (ticket + 1)

end Lock

inductive Call where
  | readLock
  | readUnlock
  | writeLock
  | writeUnlock
  deriving DecidableEq, Repr

/-- What a client holds between two calls. -/
inductive Holding where
  | nothing
  | read
  | write (ticket : Int)
  deriving DecidableEq, Repr

abbrev LockControl := Control Tuple Call Holding

/-- A client locks when it holds nothing, and unlocks what it holds. -/
def body (name : String) : Holding → Call → Option (Proc Tuple Holding)
  | .nothing, .readLock => some do
      readLock name
      return .read
  | .read, .readUnlock => some do
      readUnlock name
      return .nothing
  | .nothing, .writeLock => some do
      let ticket ← writeLock name
      return .write ticket
  | .write ticket, .writeUnlock => some do
      writeUnlock name ticket
      return .nothing
  | _, _ => none

/-- All interleavings of clients of one lock. -/
def clients {Client : Type} [DecidableEq Client] (name : String) :
    System (Shared Client Tuple Call LockControl) (Request Client Tuple Call) :=
  sharing (Control.next (body name))

instance {Client : Type} [DecidableEq Client] (name : String)
    (shared : Shared Client Tuple Call LockControl) (request : Request Client Tuple Call) :
    Decidable ((clients name).guard shared request) :=
  inferInstanceAs (Decidable ((sharing (Control.next (body name))).guard shared request))

/-- The lock has been created in a space with other tuples, and nobody holds it. -/
def start {Client : Type} (name : String) (others : Multiset Tuple) :
    Shared Client Tuple Call LockControl :=
  ⟨others + init name, fun _ => .rest .nothing, []⟩

/-! ## Places in the procedures -/

/-- Where a client is, with the ticket that it has and the count that it has taken.  Both
procedures that lock begin in the same way. -/
inductive Place where
  | free
  | dispensing (writes : Bool)
  | dispensed (writes : Bool) (ticket : Int)
  | waiting (writes : Bool) (ticket : Int)
  | entering (ticket : Int)
  | entered (ticket n : Int)
  | passing (ticket : Int)
  | reading
  | leaving
  | left (n : Int)
  | checking (ticket : Int)
  | writing (ticket : Int)
  | releasing (ticket : Int)
  deriving DecidableEq, Repr

section Places

variable (name : String)

def locking (writes : Bool) : Call := if writes then .writeLock else .readLock

/-- What is left of a procedure that locks once it has its ticket. -/
def turning (ticket : Int) : Bool → Proc Tuple Holding
  | false => do
      let _ ← (turn name).wait ticket .take
      let _ ← (reader name).inc
      (turn name).update (ticket + 1)
      return .read
  | true => do
      let _ ← (turn name).wait ticket .take
      let _ ← (reader name).wait 0 .read
      return .write ticket

/-- The procedure that is left at a place. -/
def code : Place → LockControl
  | .free => .rest .nothing
  | .dispensing writes => .busy (locking writes) do
      let ticket ← (dispenser name).inc
      turning name ticket writes
  | .dispensed writes ticket => .busy (locking writes) do
      (dispenser name).update ticket
      turning name ticket writes
  | .waiting writes ticket => .busy (locking writes) (turning name ticket writes)
  | .entering ticket => .busy .readLock do
      let _ ← (reader name).inc
      (turn name).update (ticket + 1)
      return .read
  | .entered ticket n => .busy .readLock do
      (reader name).update n
      (turn name).update (ticket + 1)
      return .read
  | .passing ticket => .busy .readLock do
      (turn name).update (ticket + 1)
      return .read
  | .reading => .rest .read
  | .leaving => .busy .readUnlock do
      let _ ← (reader name).dec
      return .nothing
  | .left n => .busy .readUnlock do
      (reader name).update n
      return .nothing
  | .checking ticket => .busy .writeLock do
      let _ ← (reader name).wait 0 .read
      return .write ticket
  | .writing ticket => .rest (.write ticket)
  | .releasing ticket => .busy .writeUnlock do
      (turn name).update (ticket + 1)
      return .nothing

def places : Behaviour Tuple Call Place
  | .free, .readLock, _ => some ⟨.readLock, .called, .dispensing false⟩
  | .free, .writeLock, _ => some ⟨.writeLock, .called, .dispensing true⟩
  | .free, _, _ => none
  | .dispensing writes, _, tuple =>
      if (dispenser name).pattern none tuple then
        some ⟨locking writes, .took tuple, .dispensed writes (tuple.n + 1)⟩
      else none
  | .dispensed writes ticket, _, _ =>
      some ⟨locking writes, .wrote ⟨name, .dispenser, ticket⟩, .waiting writes ticket⟩
  | .waiting writes ticket, _, tuple =>
      if (turn name).pattern (some ticket) tuple then
        some ⟨locking writes, .took tuple, if writes then .checking ticket else .entering ticket⟩
      else none
  | .entering ticket, _, tuple =>
      if (reader name).pattern none tuple then
        some ⟨.readLock, .took tuple, .entered ticket (tuple.n + 1)⟩
      else none
  | .entered ticket n, _, _ => some ⟨.readLock, .wrote ⟨name, .reader, n⟩, .passing ticket⟩
  | .passing ticket, _, _ => some ⟨.readLock, .wrote ⟨name, .turn, ticket + 1⟩, .reading⟩
  | .reading, .readUnlock, _ => some ⟨.readUnlock, .called, .leaving⟩
  | .reading, _, _ => none
  | .leaving, _, tuple =>
      if (reader name).pattern none tuple then
        some ⟨.readUnlock, .took tuple, .left (tuple.n - 1)⟩
      else none
  | .left n, _, _ => some ⟨.readUnlock, .wrote ⟨name, .reader, n⟩, .free⟩
  | .checking ticket, _, tuple =>
      if (reader name).pattern (some 0) tuple then some ⟨.writeLock, .saw tuple, .writing ticket⟩
      else none
  | .writing ticket, .writeUnlock, _ => some ⟨.writeUnlock, .called, .releasing ticket⟩
  | .writing _, _, _ => none
  | .releasing ticket, _, _ => some ⟨.writeUnlock, .wrote ⟨name, .turn, ticket + 1⟩, .free⟩

theorem pattern_iff {counter : Counter} {n : Option Int} {tuple : Tuple} :
    counter.pattern n tuple = true ↔
      tuple = ⟨counter.rwName, counter.name, tuple.n⟩ ∧ ∀ value ∈ n, tuple.n = value := by
  obtain ⟨rwName, name, m⟩ := tuple
  cases n with
  | none => simp [Counter.pattern]
  | some n => simp [Counter.pattern, and_assoc]

/-- The places are cut out of the procedures. -/
theorem next_code (place : Place) (call : Call) (tuple : Tuple) :
    Control.next (body name) (code name place) call tuple =
      (places name place call tuple).map (Move.map (code name)) := by
  cases place with
  | free => cases call <;> rfl
  | dispensing writes =>
      cases writes <;>
        exact Control.next_take fun accepted => by rw [(pattern_iff.mp accepted).1]; rfl
  | dispensed writes ticket => cases writes <;> rfl
  | waiting writes ticket =>
      cases writes with
      | false => exact Control.next_take fun _ => rfl
      | true => exact Control.next_take fun _ => rfl
  | entering ticket =>
      exact Control.next_take fun accepted => by rw [(pattern_iff.mp accepted).1]; rfl
  | entered ticket n => rfl
  | passing ticket => rfl
  | reading => cases call <;> rfl
  | leaving => exact Control.next_take fun accepted => by rw [(pattern_iff.mp accepted).1]; rfl
  | left n => rfl
  | checking ticket => exact Control.next_read fun _ => rfl
  | writing ticket => cases call <;> rfl
  | releasing ticket => rfl

end Places

/-! ## Tokens -/

/-- The tuple is one of a counter of the lock. -/
def Tuple.of (name : String) (counter : CounterName) (tuple : Tuple) : Bool :=
  tuple.rwName == name && tuple.name == counter

def Tuple.token (name : String) (counter : CounterName) (tuple : Tuple) : Int :=
  if tuple.of name counter then 1 else 0

/-- The number of readers that a tuple says there are. -/
def Tuple.readers (name : String) (tuple : Tuple) : Int :=
  if tuple.of name .reader then tuple.n else 0

namespace Place

/-- The client has taken the turn. -/
def turn : Place → Int
  | .entering _ | .entered _ _ | .passing _ | .checking _ | .writing _ | .releasing _ => 1
  | _ => 0

/-- The client has taken the number of readers. -/
def reader : Place → Int
  | .entered _ _ | .left _ => 1
  | _ => 0

/-- The client is among the readers that are counted. -/
def counted : Place → Bool
  | .passing _ | .reading | .leaving => true
  | _ => false

/-- What is missing from the number of readers in the space. -/
def readers : Place → Int
  | .entered _ n => n - 1
  | .left n => n
  | .passing _ | .reading | .leaving => -1
  | _ => 0

/-- The client has counted itself, and has not written the count again since. -/
def included : Place → Int
  | .passing _ | .reading | .leaving | .left _ => 1
  | _ => 0

end Place

/-- What a client can do at each place, with the tuples written out. -/
inductive Goes (name : String) : Place → Move Tuple Call Place → Prop where
  | lock (writes : Bool) : Goes name .free ⟨locking writes, .called, .dispensing writes⟩
  | dispense (writes : Bool) (n : Int) :
      Goes name (.dispensing writes)
        ⟨locking writes, .took ⟨name, .dispenser, n⟩, .dispensed writes (n + 1)⟩
  | dispensed (writes : Bool) (ticket : Int) :
      Goes name (.dispensed writes ticket)
        ⟨locking writes, .wrote ⟨name, .dispenser, ticket⟩, .waiting writes ticket⟩
  | readTurn (ticket : Int) :
      Goes name (.waiting false ticket)
        ⟨.readLock, .took ⟨name, .turn, ticket⟩, .entering ticket⟩
  | writeTurn (ticket : Int) :
      Goes name (.waiting true ticket)
        ⟨.writeLock, .took ⟨name, .turn, ticket⟩, .checking ticket⟩
  | enter (ticket n : Int) :
      Goes name (.entering ticket)
        ⟨.readLock, .took ⟨name, .reader, n⟩, .entered ticket (n + 1)⟩
  | entered (ticket n : Int) :
      Goes name (.entered ticket n) ⟨.readLock, .wrote ⟨name, .reader, n⟩, .passing ticket⟩
  | pass (ticket : Int) :
      Goes name (.passing ticket) ⟨.readLock, .wrote ⟨name, .turn, ticket + 1⟩, .reading⟩
  | readUnlock : Goes name .reading ⟨.readUnlock, .called, .leaving⟩
  | leave (n : Int) :
      Goes name .leaving ⟨.readUnlock, .took ⟨name, .reader, n⟩, .left (n - 1)⟩
  | left (n : Int) : Goes name (.left n) ⟨.readUnlock, .wrote ⟨name, .reader, n⟩, .free⟩
  | check (ticket : Int) :
      Goes name (.checking ticket) ⟨.writeLock, .saw ⟨name, .reader, 0⟩, .writing ticket⟩
  | writeUnlock (ticket : Int) :
      Goes name (.writing ticket) ⟨.writeUnlock, .called, .releasing ticket⟩
  | release (ticket : Int) :
      Goes name (.releasing ticket) ⟨.writeUnlock, .wrote ⟨name, .turn, ticket + 1⟩, .free⟩

section Weights

variable {name : String} {place : Place} {call : Call} {tuple : Tuple}
  {move : Move Tuple Call Place}

theorem Goes.of_places (does : places name place call tuple = some move) :
    Goes name place move := by
  cases place with
  | free =>
      cases call with
      | readLock => cases does; exact .lock false
      | writeLock => cases does; exact .lock true
      | readUnlock => cases does
      | writeUnlock => cases does
  | dispensing writes =>
      obtain ⟨accepted, same⟩ := Option.ite_none_right_eq_some.mp does
      cases same
      rw [(pattern_iff.mp accepted).1]
      exact .dispense writes tuple.n
  | dispensed writes ticket => cases does; exact .dispensed writes ticket
  | waiting writes ticket =>
      obtain ⟨accepted, same⟩ := Option.ite_none_right_eq_some.mp does
      cases same
      obtain ⟨shape, value⟩ := pattern_iff.mp accepted
      rw [shape, value ticket rfl]
      cases writes with
      | false => exact .readTurn ticket
      | true => exact .writeTurn ticket
  | entering ticket =>
      obtain ⟨accepted, same⟩ := Option.ite_none_right_eq_some.mp does
      cases same
      rw [(pattern_iff.mp accepted).1]
      exact .enter ticket tuple.n
  | entered ticket n => cases does; exact .entered ticket n
  | passing ticket => cases does; exact .pass ticket
  | reading =>
      cases call with
      | readUnlock => cases does; exact .readUnlock
      | readLock => cases does
      | writeLock => cases does
      | writeUnlock => cases does
  | leaving =>
      obtain ⟨accepted, same⟩ := Option.ite_none_right_eq_some.mp does
      cases same
      rw [(pattern_iff.mp accepted).1]
      exact .leave tuple.n
  | left n => cases does; exact .left n
  | checking ticket =>
      obtain ⟨accepted, same⟩ := Option.ite_none_right_eq_some.mp does
      cases same
      obtain ⟨shape, value⟩ := pattern_iff.mp accepted
      rw [shape, value 0 rfl]
      exact .check ticket
  | writing ticket =>
      cases call with
      | writeUnlock => cases does; exact .writeUnlock ticket
      | readLock => cases does
      | readUnlock => cases does
      | writeLock => cases does
  | releasing ticket => cases does; exact .release ticket

@[simp] theorem token_mk (counter other : CounterName) (n : Int) :
    Tuple.token name counter ⟨name, other, n⟩ = if other = counter then 1 else 0 := by
  simp [Tuple.token, Tuple.of]

@[simp] theorem readers_mk (counter : CounterName) (n : Int) :
    Tuple.readers name ⟨name, counter, n⟩ = if counter = .reader then n else 0 := by
  simp [Tuple.readers, Tuple.of]

/-- The turn goes from the space to a client and back. -/
theorem Goes.turn (goes : Goes name place move) :
    move.control.turn + move.action.gain (Tuple.token name .turn) =
      place.turn + move.action.loss (Tuple.token name .turn) + 0 := by
  cases goes <;> simp [Place.turn, Action.gain, Action.loss]

theorem Goes.reader (goes : Goes name place move) :
    move.control.reader + move.action.gain (Tuple.token name .reader) =
      place.reader + move.action.loss (Tuple.token name .reader) + 0 := by
  cases goes <;> simp [Place.reader, Action.gain, Action.loss]

theorem Goes.readers (goes : Goes name place move) :
    move.control.readers + move.action.gain (Tuple.readers name) =
      place.readers + move.action.loss (Tuple.readers name) + 0 := by
  cases goes <;> simp [Place.readers, Action.gain, Action.loss] <;> omega

end Weights

/-! ## Readers -/

section Log

variable {Client Place' : Type} [DecidableEq Client] (name : String)

def writesReaders : Action Tuple → Bool
  | .wrote tuple => tuple.of name .reader
  | _ => false

/-- How often a client has written the number of readers in calls of one kind. -/
def written (call : Call) (log : List (Client × Move Tuple Call Place')) (client : Client) : Nat :=
  log.countP fun entry =>
    entry.1 = client ∧ entry.2.call = call ∧ writesReaders name entry.2.action = true

/-- How often a client has counted itself among the readers. -/
def increments : List (Client × Move Tuple Call Place') → Client → Nat := written name .readLock

def decrements : List (Client × Move Tuple Call Place') → Client → Nat := written name .readUnlock

theorem written_concat (call : Call) (log : List (Client × Move Tuple Call Place'))
    (client other : Client) (move : Move Tuple Call Place') :
    written name call (log ++ [(client, move)]) other =
      written name call log other +
        if client = other ∧ move.call = call ∧ writesReaders name move.action = true then 1
        else 0 := by
  unfold written
  rw [List.countP_append, List.countP_singleton]
  simp only [decide_eq_true_eq]

theorem written_map {Place : Type} (code : Place → Place') (call : Call)
    (log : List (Client × Move Tuple Call Place)) (client : Client) :
    written name call (log.map fun entry => (entry.1, entry.2.map code)) client =
      written name call log client := by
  unfold written
  rw [List.countP_map]
  rfl

end Log

/-- A client that counts itself, or takes itself out of the count, does so once. -/
theorem Goes.included {name : String} {place : Place} {move : Move Tuple Call Place}
    (goes : Goes name place move) :
    move.control.included +
        (if move.call = .readUnlock ∧ writesReaders name move.action = true then 1 else 0) =
      place.included +
        if move.call = .readLock ∧ writesReaders name move.action = true then 1 else 0 := by
  cases goes with
  | lock writes => cases writes <;> rfl
  | dispense writes n => cases writes <;> simp [Place.included, writesReaders]
  | dispensed writes ticket =>
      cases writes <;> simp [Place.included, writesReaders, Tuple.of, locking]
  | _ => simp [Place.included, writesReaders, Tuple.of]

section Invariant

variable {Client : Type} [DecidableEq Client] [Fintype Client] {name : String}

/-- What holds in all interleavings: there is one turn and one number of readers, which is
right, and a writer is alone. -/
structure Standing (name : String) (shared : Shared Client Tuple Call Place) : Prop where
  turn : shared.total (Tuple.token name .turn) (fun _ => Place.turn) = 1
  reader : shared.total (Tuple.token name .reader) (fun _ => Place.reader) = 1
  readers : shared.total (Tuple.readers name) (fun _ => Place.readers) = 0
  alone : ∀ client ticket, shared.control client = .writing ticket →
    ∀ other, (shared.control other).counted = false
  included : ∀ client, (shared.control client).included + decrements name shared.log client =
    (increments name shared.log client : Int)

variable {shared : Shared Client Tuple Call Place}

theorem token_nonneg (name : String) (counter : CounterName) (tuple : Tuple) :
    0 ≤ tuple.token name counter := by
  unfold Tuple.token
  split <;> decide

theorem turn_nonneg (place : Place) : 0 ≤ place.turn := by
  unfold Place.turn
  split <;> decide

theorem reader_nonneg (place : Place) : 0 ≤ place.reader := by
  unfold Place.reader
  split <;> decide

/-- With the number of readers in the space, nobody is changing it, and it is right. -/
theorem Standing.count (standing : Standing name shared) {tuple : Tuple}
    (member : tuple ∈ shared.space) (own : tuple.of name .reader = true) :
    (∀ client, (shared.control client).reader = 0) ∧
      tuple.n = ∑ client, if (shared.control client).counted then (1 : Int) else 0 := by
  have token : tuple.token name .reader = 1 := if_pos own
  have clients : ∀ client, (shared.control client).reader = 0 := by
    intro client
    have share := Shared.tuple_client_le_total (token_nonneg name .reader)
      (fun _ => reader_nonneg) member client
    have := reader_nonneg (shared.control client)
    rw [standing.reader, token] at share
    omega
  refine ⟨clients, ?_⟩
  obtain ⟨rest, split⟩ := Multiset.exists_cons_of_mem member
  have tokens := standing.reader
  have values := standing.readers
  unfold Shared.total at tokens values
  rw [split, Multiset.map_cons, Multiset.sum_cons] at tokens values
  rw [Finset.sum_eq_zero fun client _ => clients client, token] at tokens
  have none : ∀ other ∈ rest, other.token name .reader = 0 := by
    intro other among
    obtain ⟨less, again⟩ := Multiset.exists_cons_of_mem among
    rw [again, Multiset.map_cons, Multiset.sum_cons] at tokens
    have := token_nonneg name .reader other
    have := sum_space_nonneg (token_nonneg name .reader) less
    omega
  have nothing : (rest.map (Tuple.readers name)).sum = 0 := by
    refine Multiset.sum_eq_zero fun value found => ?_
    obtain ⟨other, among, rfl⟩ := Multiset.mem_map.mp found
    refine if_neg fun another => ?_
    have one : other.token name .reader = 1 := if_pos another
    rw [none other among] at one
    cases one
  have number : Tuple.readers name tuple = tuple.n := if_pos own
  have missing : ∀ client, (shared.control client).readers =
      -if (shared.control client).counted then 1 else 0 := by
    intro client
    have unchanged := clients client
    generalize shared.control client = place at unchanged ⊢
    cases place with
    | entered ticket n => cases unchanged
    | left n => cases unchanged
    | _ => rfl
  rw [nothing, number, Finset.sum_congr rfl fun client _ => missing client,
    Finset.sum_neg_distrib] at values
  omega

/-- Only a client that has the turn can count itself. -/
theorem Goes.counted {place : Place} {move : Move Tuple Call Place} (goes : Goes name place move)
    (counted : move.control.counted = true) : place.counted = true ∨ place.turn = 1 := by
  cases goes with
  | entered ticket n => exact .inr rfl
  | pass ticket => exact .inl rfl
  | readUnlock => exact .inl rfl
  | _ => cases counted

theorem Goes.writing {place : Place} {move : Move Tuple Call Place} (goes : Goes name place move)
    {ticket : Int} (writes : move.control = .writing ticket) :
    move.action = .saw ⟨name, .reader, 0⟩ := by
  cases goes with
  | check ticket => rfl
  | _ => cases writes

theorem Standing.perform (standing : Standing name shared) {client : Client}
    {move : Move Tuple Call Place} (goes : Goes name (shared.control client) move)
    (possible : move.action.Possible shared.space) :
    Standing name (shared.perform client move) := by
  refine ⟨?_, ?_, ?_, ?_, ?_⟩
  · rw [Shared.total_perform possible goes.turn, standing.turn, add_zero]
  · rw [Shared.total_perform possible goes.reader, standing.reader, add_zero]
  · rw [Shared.total_perform possible goes.readers, standing.readers, add_zero]
  · intro writer ticket writes other
    change Function.update shared.control client move.control writer = _ at writes
    change (Function.update shared.control client move.control other).counted = false
    by_cases begins : writer = client
    · -- The writer has just seen that there are no readers.
      rw [begins, Function.update_self] at writes
      rw [goes.writing writes] at possible
      obtain ⟨-, count⟩ := standing.count possible (by simp [Tuple.of])
      have nobody := (Finset.sum_eq_zero_iff_of_nonneg
        (fun client (_ : client ∈ Finset.univ) => by split <;> decide)).mp count.symm
      by_cases same : other = client
      · rw [same, Function.update_self, writes]
        rfl
      · rw [Function.update_of_ne same]
        have zero := nobody other (Finset.mem_univ other)
        by_contra counted
        rw [if_pos (Bool.not_eq_false _ ▸ counted)] at zero
        cases zero
    · rw [Function.update_of_ne begins] at writes
      by_cases same : other = client
      · rw [same, Function.update_self]
        by_contra counted
        rw [Bool.not_eq_false] at counted
        rcases goes.counted counted with before | turn
        · rw [standing.alone writer ticket writes client] at before
          cases before
        · -- The writer has the turn, and so has the client that counts itself.
          have both : (shared.control writer).turn + (shared.control client).turn ≤ _ :=
            Shared.two_clients_le_total (token_nonneg name .turn) (fun _ => turn_nonneg) begins
          rw [standing.turn, writes, turn] at both
          change (1 : Int) + 1 ≤ 1 at both
          exact absurd both (by decide)
      · rw [Function.update_of_ne same]
        exact standing.alone writer ticket writes other
  · intro other
    have before := standing.included other
    change (Function.update shared.control client move.control other).included +
      (decrements name (shared.log ++ [(client, move)]) other : Int) =
        increments name (shared.log ++ [(client, move)]) other
    unfold increments decrements at before ⊢
    rw [written_concat, written_concat]
    by_cases same : other = client
    · rw [same, Function.update_self]
      rw [same] at before
      have counts := goes.included
      simp only [true_and]
      push_cast
      omega
    · rw [Function.update_of_ne same, if_neg fun all => same all.1.symm,
        if_neg fun all => same all.1.symm]
      exact before

end Invariant

/-! ## Mutual exclusion -/

section Exclusion

variable {Client : Type} [DecidableEq Client]

def HoldsWrite (shared : Shared Client Tuple Call LockControl) (client : Client) : Prop :=
  ∃ ticket, shared.control client = .rest (.write ticket)

def HoldsRead (shared : Shared Client Tuple Call LockControl) (client : Client) : Prop :=
  shared.control client = .rest .read

/-- No client holds the lock beside a writer, there is one turn at most, and the number of
readers is that of the clients that have counted themselves and have not taken it back. -/
structure Excludes [Fintype Client] (name : String)
    (shared : Shared Client Tuple Call LockControl) : Prop where
  exclusive : ∀ writer other, writer ≠ other → HoldsWrite shared writer →
    ¬ HoldsWrite shared other ∧ ¬ HoldsRead shared other
  oneTurn : shared.space.countP (fun tuple => tuple.of name .turn) ≤ 1
  readers : ∀ tuple ∈ shared.space, tuple.of name .reader = true →
    tuple.n = (Finset.univ.filter fun client =>
      decrements name shared.log client < increments name shared.log client).card

theorem code_eq_write {name : String} {place : Place} {ticket : Int}
    (same : code name place = .rest (.write ticket)) : place = .writing ticket := by
  cases place with
  | writing other =>
      cases same
      rfl
  | free => cases same
  | reading => cases same
  | _ => exact absurd same fun equal => by cases equal

theorem code_eq_read {name : String} {place : Place}
    (same : code name place = .rest .read) : place = .reading := by
  cases place with
  | reading => rfl
  | free => cases same
  | writing other => cases same
  | _ => exact absurd same fun equal => by cases equal

theorem sum_token (name : String) (counter : CounterName) (space : Multiset Tuple) :
    (space.map (Tuple.token name counter)).sum =
      (space.countP fun tuple => tuple.of name counter : Nat) := by
  induction space using Multiset.induction_on with
  | empty => rfl
  | cons tuple space ih =>
      rw [Multiset.map_cons, Multiset.sum_cons, Multiset.countP_cons, ih]
      unfold Tuple.token
      split <;> push_cast <;> omega

theorem excludes_of_standing [Fintype Client] {name : String}
    {shared : Shared Client Tuple Call Place} (standing : Standing name shared) :
    Excludes name (shared.map (code name)) := by
  refine ⟨?_, ?_, ?_⟩
  · rintro writer other apart ⟨ticket, writes⟩
    have writing := code_eq_write writes
    refine ⟨?_, ?_⟩
    · rintro ⟨second, also⟩
      have both : (shared.control writer).turn + (shared.control other).turn ≤ _ :=
        Shared.two_clients_le_total (token_nonneg name .turn) (fun _ => turn_nonneg) apart
      rw [standing.turn, writing, code_eq_write also] at both
      change (1 : Int) + 1 ≤ 1 at both
      exact absurd both (by decide)
    · intro reads
      have counted := standing.alone writer ticket writing other
      rw [code_eq_read reads] at counted
      cases counted
  · have turns : (shared.space.map (Tuple.token name .turn)).sum ≤
        shared.total (Tuple.token name .turn) fun _ => Place.turn :=
      Shared.space_le_total fun _ => turn_nonneg
    rw [standing.turn, sum_token] at turns
    exact_mod_cast turns
  · intro tuple member own
    obtain ⟨unchanged, count⟩ := standing.count member own
    have counted : ∀ client, (decrements name (shared.map (code name)).log client <
        increments name (shared.map (code name)).log client) ↔
          (shared.control client).counted = true := by
      intro client
      have balance := standing.included client
      have free := unchanged client
      unfold Shared.map decrements increments
      dsimp only
      rw [written_map, written_map]
      unfold decrements increments at balance
      generalize shared.control client = place at balance free ⊢
      cases place with
      | left n => cases free
      | passing ticket =>
          simp only [Place.included, Place.counted, iff_true] at balance ⊢
          omega
      | reading =>
          simp only [Place.included, Place.counted, iff_true] at balance ⊢
          omega
      | leaving =>
          simp only [Place.included, Place.counted, iff_true] at balance ⊢
          omega
      | _ =>
          simp only [Place.included, Place.counted, Bool.false_eq_true, iff_false] at balance ⊢
          omega
    rw [count, Finset.card_filter, Nat.cast_sum]
    refine Finset.sum_congr rfl fun client _ => ?_
    rw [Nat.cast_ite, Nat.cast_one, Nat.cast_zero]
    exact if_congr (counted client).symm rfl rfl

theorem standing_start [Fintype Client] {name : String} {others : Multiset Tuple}
    (foreign : ∀ tuple ∈ others, tuple.rwName ≠ name) :
    Standing name (⟨others + init name, fun _ => .free, []⟩ :
      Shared Client Tuple Call Place) := by
  have apart : ∀ counter, ∀ tuple ∈ others, tuple.of name counter = false := by
    intro counter tuple member
    simp [Tuple.of, foreign tuple member]
  have tokens : ∀ counter, (others.map (Tuple.token name counter)).sum = 0 := by
    intro counter
    refine Multiset.sum_eq_zero fun value found => ?_
    obtain ⟨tuple, member, rfl⟩ := Multiset.mem_map.mp found
    exact if_neg (by rw [apart counter tuple member]; decide)
  have values : (others.map (Tuple.readers name)).sum = 0 := by
    refine Multiset.sum_eq_zero fun value found => ?_
    obtain ⟨tuple, member, rfl⟩ := Multiset.mem_map.mp found
    exact if_neg (by rw [apart .reader tuple member]; decide)
  refine ⟨?_, ?_, ?_, ?_, ?_⟩
  · simp [Shared.total, tokens, init, Place.turn]
  · simp [Shared.total, tokens, init, Place.reader]
  · simp [Shared.total, values, init, Place.readers]
  · intro client ticket writes
    cases writes
  · intro client
    rfl

/-- In all interleavings of the operations of any number of clients a writer is alone, there is
one turn at most, and the number of readers is right. -/
theorem lock_excludes [Fintype Client] {name : String} {others : Multiset Tuple}
    (foreign : ∀ tuple ∈ others, tuple.rwName ≠ name)
    {requests : List (Request Client Tuple Call)}
    (admitted : (clients name).Admits (start name others) requests) :
    Excludes name ((clients name).exec (start name others) requests) := by
  let begun : Shared Client Tuple Call Place := ⟨others + init name, fun _ => .free, []⟩
  obtain ⟨admits, same⟩ := sharing_map (next_code name) begun requests
  have standing := sharing_invariant (Standing name)
    (fun shared client call tuple move standing does possible =>
      standing.perform (Goes.of_places does) possible)
    (standing_start foreign) (admits.mp admitted)
  have excludes := excludes_of_standing standing
  rw [← same] at excludes
  exact excludes

namespace TwoClients

/-- A client reads and unlocks, and another one writes after it. -/
def requests : List (Request (Fin 2) Tuple Call) :=
  let any : Tuple := ⟨"lock", .dispenser, 0⟩
  let step (client : Fin 2) (tuple : Tuple) : Request (Fin 2) Tuple Call :=
    ⟨client, .readLock, tuple⟩
  [step 0 any, step 0 ⟨"lock", .dispenser, -1⟩, step 0 any, step 0 ⟨"lock", .turn, 0⟩,
    step 0 ⟨"lock", .reader, 0⟩, step 0 any, step 0 any,
    ⟨1, .writeLock, any⟩, step 1 ⟨"lock", .dispenser, 0⟩, step 1 any,
    ⟨0, .readUnlock, any⟩, step 0 ⟨"lock", .reader, 1⟩, step 1 ⟨"lock", .turn, 1⟩,
    step 0 any, step 1 ⟨"lock", .reader, 0⟩]

theorem lock_excludes_requests :
    Excludes "lock" ((clients "lock").exec (start "lock" 0) requests) :=
  lock_excludes (by decide) (by decide)

end TwoClients

end Exclusion

end Nise.RubyModels.RWLock
