import Nise.Lib.TupleSpace

/-!
# Simple queues on a tuple space

A `SimpleQueue` numbers the values that are sent: a client takes the number of the last one out
of the space, writes its value under the next number and writes that number back.  Nothing is
taken out of the queue: each client that reads it goes through the numbers, from one on, and
waits for the next value.
-/

namespace Nise.RubyModels.SimpleQueue

open Nise.Lib

/-- The tuples `[:squeue, :tail, name, n]` and `[:squeue, name, pos, data]`. -/
inductive Tuple (Data : Type) where
  | tail (name : String) (n : Int)
  | item (name : String) (pos : Int) (data : Data)
  deriving DecidableEq, Repr

variable {Data : Type}

namespace Tuple

def isTail (name : String) : Tuple Data → Bool
  | .tail other _ => other == name
  | .item _ _ _ => false

def isItem (name : String) (pos : Int) : Tuple Data → Bool
  | .tail _ _ => false
  | .item other place _ => other == name && place == pos

/-- The number in the tuple of the tail. -/
def number : Tuple Data → Int
  | .tail _ n => n
  | .item _ _ _ => 0

end Tuple

section Queue

variable (name : String)

/-- What `init` writes. -/
def init : Tuple Data := .tail name 0

def send (data : Data) (pos : Int) : Proc (Tuple Data) Int :=
  .take (Tuple.isTail name) fun tuple =>
    .write (.item name (tuple.number + 1) data) (.write (.tail name (tuple.number + 1)) (.ret pos))

/-- One turn of the loop in `each`; what is read is yielded. -/
def each (pos : Int) : Proc (Tuple Data) Int :=
  .read (Tuple.isItem name pos) fun _ => .ret (pos + 1)

end Queue

inductive Call (Data : Type) where
  | send (data : Data)
  | each
  deriving DecidableEq, Repr

abbrev QueueControl (Data : Type) := Control (Tuple Data) (Call Data) Int

/-- Between two calls a client has the number that its loop has come to. -/
def body (name : String) : Int → Call Data → Option (Proc (Tuple Data) Int)
  | pos, .send data => some (send name data pos)
  | pos, .each => some (each name pos)

/-- All interleavings of clients of one queue. -/
def clients {Client : Type} [DecidableEq Client] [DecidableEq Data] (name : String) :
    System (Shared Client (Tuple Data) (Call Data) (QueueControl Data))
      (Request Client (Tuple Data) (Call Data)) :=
  sharing (Control.next (body name))

instance {Client : Type} [DecidableEq Client] [DecidableEq Data] (name : String)
    (shared : Shared Client (Tuple Data) (Call Data) (QueueControl Data))
    (request : Request Client (Tuple Data) (Call Data)) :
    Decidable ((clients name).guard shared request) :=
  inferInstanceAs (Decidable ((sharing (Control.next (body name))).guard shared request))

/-- The queue has been created in a space with other tuples. -/
def start {Client : Type} (name : String) (others : Multiset (Tuple Data)) :
    Shared Client (Tuple Data) (Call Data) (QueueControl Data) :=
  ⟨init name ::ₘ others, fun _ => .rest 1, []⟩

/-! ## Places in the procedures -/

/-- Where a client is, with the number that its loop has come to. -/
inductive Place (Data : Type) where
  | free (pos : Int)
  | sending (pos : Int) (data : Data)
  | storing (pos n : Int) (data : Data)
  | stored (pos n : Int) (data : Data)
  | reading (pos : Int)
  deriving DecidableEq, Repr

section Places

variable (name : String)

/-- The procedure that is left at a place. -/
def code : Place Data → QueueControl Data
  | .free pos => .rest pos
  | .sending pos data => .busy (.send data) (send name data pos)
  | .storing pos n data =>
      .busy (.send data) (.write (.item name n data) (.write (.tail name n) (.ret pos)))
  | .stored pos n data => .busy (.send data) (.write (.tail name n) (.ret pos))
  | .reading pos => .busy .each (each name pos)

def places : Behaviour (Tuple Data) (Call Data) (Place Data)
  | .free pos, .send data, _ => some ⟨.send data, .called, .sending pos data⟩
  | .free pos, .each, _ => some ⟨.each, .called, .reading pos⟩
  | .sending pos data, _, tuple =>
      if tuple.isTail name then
        some ⟨.send data, .took tuple, .storing pos (tuple.number + 1) data⟩
      else none
  | .storing pos n data, _, _ => some ⟨.send data, .wrote (.item name n data), .stored pos n data⟩
  | .stored pos n data, _, _ => some ⟨.send data, .wrote (.tail name n), .free pos⟩
  | .reading pos, _, tuple =>
      if tuple.isItem name pos then some ⟨.each, .saw tuple, .free (pos + 1)⟩ else none

/-- The places are cut out of the procedures. -/
theorem next_code (place : Place Data) (call : Call Data) (tuple : Tuple Data) :
    Control.next (body name) (code name place) call tuple =
      (places name place call tuple).map (Move.map (code name)) := by
  cases place with
  | free pos =>
      cases call with
      | send data => rfl
      | each => rfl
  | sending pos data => exact Control.next_take fun _ => rfl
  | storing pos n data => rfl
  | stored pos n data => rfl
  | reading pos => exact Control.next_read fun _ => rfl

end Places

/-- What a client can do at each place, with the tuples written out. -/
inductive Goes (name : String) : Place Data → Move (Tuple Data) (Call Data) (Place Data) → Prop where
  | callSend (pos : Int) (data : Data) :
      Goes name (.free pos) ⟨.send data, .called, .sending pos data⟩
  | callEach (pos : Int) : Goes name (.free pos) ⟨.each, .called, .reading pos⟩
  | take (pos n : Int) (data : Data) :
      Goes name (.sending pos data) ⟨.send data, .took (.tail name n), .storing pos (n + 1) data⟩
  | store (pos n : Int) (data : Data) :
      Goes name (.storing pos n data)
        ⟨.send data, .wrote (.item name n data), .stored pos n data⟩
  | handBack (pos n : Int) (data : Data) :
      Goes name (.stored pos n data) ⟨.send data, .wrote (.tail name n), .free pos⟩
  | read (pos : Int) (data : Data) :
      Goes name (.reading pos) ⟨.each, .saw (.item name pos data), .free (pos + 1)⟩

theorem Goes.of_places {name : String} {place : Place Data} {call : Call Data}
    {tuple : Tuple Data} {move : Move (Tuple Data) (Call Data) (Place Data)}
    (does : places name place call tuple = some move) : Goes name place move := by
  cases place with
  | free pos =>
      cases call with
      | send data => cases does; exact .callSend pos data
      | each => cases does; exact .callEach pos
  | sending pos data =>
      obtain ⟨accepted, same⟩ := Option.ite_none_right_eq_some.mp does
      cases same
      cases tuple with
      | tail other n =>
          cases beq_iff_eq.mp accepted
          exact .take pos n data
      | item other place text => cases accepted
  | storing pos n data => cases does; exact .store pos n data
  | stored pos n data => cases does; exact .handBack pos n data
  | reading pos =>
      obtain ⟨accepted, same⟩ := Option.ite_none_right_eq_some.mp does
      cases same
      cases tuple with
      | tail other n => cases accepted
      | item other place data =>
          obtain ⟨named, found⟩ := Bool.and_eq_true_iff.mp accepted
          rw [beq_iff_eq.mp named, beq_iff_eq.mp found]
          exact .read pos data

/-! ## What has been sent and read -/

section Counts

variable {Client : Type}

/-- The value that a call sends, once it is in the space. -/
def stores (act : Act Client (Tuple Data) (Call Data)) : Option Data :=
  match act.call, act.action with
  | .send data, .wrote (.item _ _ _) => some data
  | _, _ => none

def sent (acts : List (Act Client (Tuple Data) (Call Data))) : List Data :=
  acts.filterMap stores

variable [DecidableEq Client]

/-- The value that a client has read. -/
def yields (client : Client) (act : Act Client (Tuple Data) (Call Data)) : Option Data :=
  match act.action with
  | .saw (.item _ _ data) => if act.client = client then some data else none
  | _ => none

def yielded (client : Client) (acts : List (Act Client (Tuple Data) (Call Data))) : List Data :=
  acts.filterMap (yields client)

end Counts

/-- The tuples of the values that have been sent, with their numbers. -/
def items (name : String) (values : List Data) : Multiset (Tuple Data) :=
  ↑(values.mapIdx fun place data => Tuple.item name (place + 1) data)

theorem items_concat (name : String) (values : List Data) (data : Data) :
    items name (values ++ [data]) =
      .item name (values.length + 1) data ::ₘ items name values := by
  unfold items
  rw [List.mapIdx_concat, ← Multiset.coe_add, add_comm]
  rfl

theorem mem_items {name other : String} {values : List Data} {pos : Int} {data : Data} :
    .item other pos data ∈ items name values ↔
      other = name ∧ ∃ place : Nat, pos = place + 1 ∧ values[place]? = some data := by
  unfold items
  rw [Multiset.mem_coe, List.mem_mapIdx]
  constructor
  · rintro ⟨place, inside, same⟩
    cases same
    exact ⟨rfl, place, rfl, List.getElem?_eq_getElem inside⟩
  · rintro ⟨rfl, place, rfl, found⟩
    obtain ⟨inside, same⟩ := List.getElem?_eq_some_iff.mp found
    exact ⟨place, inside, by rw [same]⟩

theorem tail_not_mem_items {name other : String} {values : List Data} {n : Int} :
    .tail other n ∉ items name values := by
  unfold items
  rw [Multiset.mem_coe, List.mem_mapIdx]
  rintro ⟨place, inside, same⟩
  cases same

/-! ## Standing -/

namespace Place

/-- The number that the client's loop has come to. -/
def pos : Place Data → Int
  | .free pos | .sending pos _ | .storing pos _ _ | .stored pos _ _ | .reading pos => pos

/-- The client has the number of the last value. -/
def sends : Place Data → Bool
  | .storing _ _ _ | .stored _ _ _ => true
  | _ => false

end Place

section Invariant

variable {Client : Type} [DecidableEq Client] [DecidableEq Data] {name : String}
  {others : Multiset (Tuple Data)}

/-- The values that have been sent are in the space, and the number of the last one is there or
with the one client that sends. -/
inductive Held (name : String) (others : Multiset (Tuple Data))
    (shared : Shared Client (Tuple Data) (Call Data) (Place Data)) : Prop where
  | space (tuples : shared.space =
        .tail name (sent shared.acts).length ::ₘ (items name (sent shared.acts) + others))
      (nobody : ∀ client, (shared.control client).sends = false)
  | storing (holder : Client) (pos : Int) (data : Data)
      (tuples : shared.space = items name (sent shared.acts) + others)
      (holds : shared.control holder = .storing pos ((sent shared.acts).length + 1) data)
      (alone : ∀ client, client ≠ holder → (shared.control client).sends = false)
  | stored (holder : Client) (pos : Int) (data : Data)
      (tuples : shared.space = items name (sent shared.acts) + others)
      (holds : shared.control holder = .stored pos (sent shared.acts).length data)
      (alone : ∀ client, client ≠ holder → (shared.control client).sends = false)

/-- What holds in all interleavings. -/
structure Standing (name : String) (others : Multiset (Tuple Data))
    (shared : Shared Client (Tuple Data) (Call Data) (Place Data)) : Prop where
  held : Held name others shared
  reads : ∀ client, yielded client shared.acts <+: sent shared.acts
  next : ∀ client, (shared.control client).pos = (yielded client shared.acts).length + 1

/-- No other tuple is one of this queue. -/
structure Foreign (name : String) (others : Multiset (Tuple Data)) : Prop where
  tail : ∀ n, .tail name n ∉ others
  item : ∀ pos data, .item name pos data ∉ others

variable {shared : Shared Client (Tuple Data) (Call Data) (Place Data)} {client : Client}
  {move : Move (Tuple Data) (Call Data) (Place Data)}

omit [DecidableEq Client] [DecidableEq Data] in
/-- A number of the queue has a tuple if and only if that many values have been sent. -/
theorem Held.mem_iff (held : Held name others shared) (foreign : Foreign name others)
    {pos : Int} {data : Data} :
    .item name pos data ∈ shared.space ↔
      ∃ place : Nat, pos = place + 1 ∧ (sent shared.acts)[place]? = some data := by
  have within : .item name pos data ∈ items name (sent shared.acts) + others ↔
      ∃ place : Nat, pos = place + 1 ∧ (sent shared.acts)[place]? = some data := by
    rw [Multiset.mem_add, or_iff_left (foreign.item pos data), mem_items,
      and_iff_right rfl]
  cases held with
  | space tuples nobody =>
      rw [tuples, Multiset.mem_cons, or_iff_right fun equal => nomatch equal]
      exact within
  | storing holder pos data tuples holds alone =>
      rw [tuples]
      exact within
  | stored holder pos data tuples holds alone =>
      rw [tuples]
      exact within

omit [DecidableEq Client] [DecidableEq Data] in
/-- A client that finds the number of the last value finds how many have been sent, and nobody
sends. -/
theorem Held.found (held : Held name others shared) (foreign : Foreign name others) {n : Int}
    (member : .tail name n ∈ shared.space) :
    n = (sent shared.acts).length ∧
      shared.space = .tail name (sent shared.acts).length ::ₘ
        (items name (sent shared.acts) + others) ∧
        ∀ client, (shared.control client).sends = false := by
  have without : .tail name n ∉ items name (sent shared.acts) + others := by
    rw [Multiset.mem_add]
    rintro (own | other)
    · exact tail_not_mem_items own
    · exact foreign.tail n other
  cases held with
  | space tuples nobody =>
      have found := member
      rw [tuples, Multiset.mem_cons, or_iff_left without] at found
      cases found
      exact ⟨rfl, tuples, nobody⟩
  | storing holder pos data tuples holds alone =>
      rw [tuples] at member
      exact absurd member without
  | stored holder pos data tuples holds alone =>
      rw [tuples] at member
      exact absurd member without

variable (shared client move) in
theorem sent_perform : sent (shared.perform client move).acts =
    sent shared.acts ++ (stores ⟨client, move.call, move.action⟩).toList := by
  unfold sent
  rw [Shared.acts_perform, List.filterMap_append, List.filterMap_cons]
  cases stores ⟨client, move.call, move.action⟩ with
  | none => rfl
  | some data => rfl

variable (shared client move) in
theorem yielded_perform (reader : Client) : yielded reader (shared.perform client move).acts =
    yielded reader shared.acts ++ (yields reader ⟨client, move.call, move.action⟩).toList := by
  unfold yielded
  rw [Shared.acts_perform, List.filterMap_append, List.filterMap_cons]
  cases yields reader ⟨client, move.call, move.action⟩ with
  | none => rfl
  | some data => rfl

/-- After a step of a client that does not have the number of the last value, nobody else has it
who had not. -/
theorem sends_perform (after : move.control.sends = false) {other : Client}
    (before : other ≠ client → (shared.control other).sends = false) :
    ((shared.perform client move).control other).sends = false := by
  by_cases own : other = client
  · rw [own, Shared.control_perform_self]
    exact after
  · rw [Shared.control_perform_of_ne _ _ own]
    exact before own

/-- A step that leaves the space as it is and keeps the number of the last value where it is. -/
theorem Held.unchanged (held : Held name others shared)
    (tuples : move.action.apply shared.space = shared.space)
    (before : (shared.control client).sends = false) (after : move.control.sends = false)
    (stored : stores ⟨client, move.call, move.action⟩ = none) :
    Held name others (shared.perform client move) := by
  have same : sent (shared.perform client move).acts = sent shared.acts := by
    rw [sent_perform, stored]
    exact List.append_nil _
  cases held with
  | space present nobody =>
      refine .space ?_ fun other => sends_perform after fun _ => nobody other
      rw [same]
      exact tuples.trans present
  | storing holder pos data present holds alone =>
      have apart : holder ≠ client := by
        rintro rfl
        rw [holds] at before
        cases before
      refine .storing holder pos data ?_ ?_ fun other different =>
        sends_perform after fun _ => alone other different
      · rw [same]
        exact tuples.trans present
      · rw [same, Shared.control_perform_of_ne _ _ apart]
        exact holds
  | stored holder pos data present holds alone =>
      have apart : holder ≠ client := by
        rintro rfl
        rw [holds] at before
        cases before
      refine .stored holder pos data ?_ ?_ fun other different =>
        sends_perform after fun _ => alone other different
      · rw [same]
        exact tuples.trans present
      · rw [same, Shared.control_perform_of_ne _ _ apart]
        exact holds

theorem Held.perform (held : Held name others shared) (foreign : Foreign name others)
    (goes : Goes name (shared.control client) move)
    (possible : move.action.Possible shared.space) :
    Held name others (shared.perform client move) := by
  have written := sent_perform shared client move
  generalize place : shared.control client = before at goes
  cases goes with
  | callSend pos data => exact held.unchanged rfl (by rw [place]; rfl) rfl rfl
  | callEach pos => exact held.unchanged rfl (by rw [place]; rfl) rfl rfl
  | read pos data => exact held.unchanged rfl (by rw [place]; rfl) rfl rfl
  | take pos n data =>
      obtain ⟨rfl, present, nobody⟩ := held.found foreign possible
      rw [show stores _ = none from rfl, Option.toList_none, List.append_nil] at written
      refine .storing client pos data ?_ ?_ ?_
      · rw [written]
        change shared.space.erase _ = _
        rw [present, Multiset.erase_cons_head]
      · rw [written, Shared.control_perform_self]
      · intro other apart
        rw [Shared.control_perform_of_ne _ _ apart]
        exact nobody other
  | store pos n data =>
      rw [show stores _ = some data from rfl, Option.toList_some] at written
      cases held with
      | space present nobody =>
          have free := nobody client
          rw [place] at free
          cases free
      | stored holder otherPos text present holds alone =>
          by_cases own : client = holder
          · rw [← own, place] at holds
            cases holds
          · have free := alone client own
            rw [place] at free
            cases free
      | storing holder otherPos text present holds alone =>
          have own : client = holder := by
            by_contra apart
            have free := alone client apart
            rw [place] at free
            cases free
          rw [← own, place] at holds
          cases holds
          refine .stored client pos data ?_ ?_ ?_
          · rw [written, items_concat]
            change _ ::ₘ shared.space = _
            rw [present, Multiset.cons_add]
          · rw [written, Shared.control_perform_self, List.length_append]
            rfl
          · intro other apart
            rw [Shared.control_perform_of_ne _ _ apart]
            exact alone other fun equal => apart (equal.trans own.symm)
  | handBack pos n data =>
      rw [show stores _ = none from rfl, Option.toList_none, List.append_nil] at written
      cases held with
      | space present nobody =>
          have free := nobody client
          rw [place] at free
          cases free
      | storing holder otherPos text present holds alone =>
          by_cases own : client = holder
          · rw [← own, place] at holds
            cases holds
          · have free := alone client own
            rw [place] at free
            cases free
      | stored holder otherPos text present holds alone =>
          have own : client = holder := by
            by_contra apart
            have free := alone client apart
            rw [place] at free
            cases free
          rw [← own, place] at holds
          cases holds
          refine .space ?_ fun other => sends_perform rfl fun apart =>
            alone other fun equal => apart (equal.trans own.symm)
          rw [written]
          change _ ::ₘ shared.space = _
          rw [present]

omit [DecidableEq Data] in
variable (client) in
/-- Only reading moves a loop on, and it reads the value of the number that the loop has come
to. -/
theorem Goes.reads {place : Place Data} (goes : Goes name place move) :
    (yields client ⟨client, move.call, move.action⟩ = none ∧ move.control.pos = place.pos) ∨
      ∃ data, yields client ⟨client, move.call, move.action⟩ = some data ∧
        move.action = .saw (.item name place.pos data) ∧ move.control.pos = place.pos + 1 := by
  cases goes with
  | read pos data => exact .inr ⟨data, if_pos rfl, rfl, rfl⟩
  | callSend pos data => exact .inl ⟨rfl, rfl⟩
  | callEach pos => exact .inl ⟨rfl, rfl⟩
  | take pos n data => exact .inl ⟨rfl, rfl⟩
  | store pos n data => exact .inl ⟨rfl, rfl⟩
  | handBack pos n data => exact .inl ⟨rfl, rfl⟩

omit [DecidableEq Data] in
theorem yields_other {act : Act Client (Tuple Data) (Call Data)} {reader : Client}
    (apart : reader ≠ act.client) : yields reader act = none := by
  unfold yields
  split
  · exact if_neg fun same => apart same.symm
  · rfl

/-- The value at the end of a part makes the part longer. -/
theorem prefix_concat_of_getElem? {Value : Type} {part whole : List Value} {value : Value}
    (within : part <+: whole) (found : whole[part.length]? = some value) :
    part ++ [value] <+: whole := by
  obtain ⟨rest, rfl⟩ := within
  rw [List.getElem?_append_right (Nat.le_refl _), Nat.sub_self] at found
  cases rest with
  | nil => cases found
  | cons first rest =>
      cases found
      exact ⟨rest, List.append_assoc _ _ _⟩

theorem Standing.perform (standing : Standing name others shared)
    (foreign : Foreign name others) (goes : Goes name (shared.control client) move)
    (possible : move.action.Possible shared.space) :
    Standing name others (shared.perform client move) := by
  have grows : sent shared.acts <+: sent (shared.perform client move).acts := by
    rw [sent_perform]
    exact List.prefix_append _ _
  have loop : yielded client (shared.perform client move).acts <+: sent shared.acts ∧
      move.control.pos = (yielded client (shared.perform client move).acts).length + 1 := by
    have next := standing.next client
    rw [yielded_perform]
    rcases goes.reads client with ⟨nothing, stays⟩ | ⟨data, value, saw, moves⟩
    · rw [nothing, Option.toList_none, List.append_nil, stays]
      exact ⟨standing.reads client, next⟩
    · rw [saw] at possible
      obtain ⟨place, same, found⟩ := (standing.held.mem_iff foreign).mp possible
      have last : place = (yielded client shared.acts).length := by omega
      rw [last] at found
      rw [value, Option.toList_some, List.length_append, moves, next]
      exact ⟨prefix_concat_of_getElem? (standing.reads client) found, by rfl⟩
  refine ⟨standing.held.perform foreign goes possible, ?_, ?_⟩
  · intro reader
    by_cases own : reader = client
    · rw [own]
      exact loop.1.trans grows
    · rw [yielded_perform, yields_other own, Option.toList_none, List.append_nil]
      exact (standing.reads reader).trans grows
  · intro reader
    by_cases own : reader = client
    · rw [own, Shared.control_perform_self]
      exact loop.2
    · rw [Shared.control_perform_of_ne _ _ own, yielded_perform, yields_other own,
        Option.toList_none, List.append_nil]
      exact standing.next reader

omit [DecidableEq Data] in
theorem standing_start : Standing name others
    (⟨init name ::ₘ others, fun _ => .free 1, []⟩ :
      Shared Client (Tuple Data) (Call Data) (Place Data)) := by
  refine ⟨.space ?_ fun _ => rfl, fun _ => List.nil_prefix, fun _ => rfl⟩
  change init name ::ₘ others = .tail name 0 ::ₘ (items name [] + others)
  exact congrArg (Tuple.tail name 0 ::ₘ ·) (zero_add others).symm

end Invariant

/-! ## Delivery -/

section Delivery

variable {Client : Type} [DecidableEq Client] [DecidableEq Data] {name : String}
  {others : Multiset (Tuple Data)}

/-- What the queue does: every client that goes through it reads the values that have been sent,
from the first one on, in their order and none twice; it can go on as long as it has not read them
all; and every value stays where it is, under its number. -/
structure Delivers (name : String)
    (shared : Shared Client (Tuple Data) (Call Data) (QueueControl Data)) : Prop where
  reads : ∀ client, yielded client shared.acts <+: sent shared.acts
  waits : ∀ client pos, shared.control client = .busy .each (each name pos) →
    ((∃ call tuple, (clients name).guard shared ⟨client, call, tuple⟩) ↔
      (yielded client shared.acts).length < (sent shared.acts).length)
  keeps : ∀ (pos : Int) (data : Data), .item name pos data ∈ shared.space ↔
    ∃ place : Nat, pos = place + 1 ∧ (sent shared.acts)[place]? = some data

omit [DecidableEq Data] in
theorem code_eq_each {place : Place Data} {pos : Int}
    (same : code name place = .busy .each (each name pos)) :
    ∃ own, place = .reading own := by
  cases place with
  | reading own => exact ⟨own, rfl⟩
  | free own => cases same
  | sending own data => cases same
  | storing own n data => cases same
  | stored own n data => cases same

theorem Standing.waits_iff {shared : Shared Client (Tuple Data) (Call Data) (Place Data)}
    (standing : Standing name others shared) (foreign : Foreign name others) {client : Client}
    {pos : Int} (reading : shared.control client = .reading pos) :
    (∃ call tuple, (sharing (places name)).guard shared ⟨client, call, tuple⟩) ↔
      (yielded client shared.acts).length < (sent shared.acts).length := by
  have next := standing.next client
  rw [reading] at next
  change pos = _ at next
  constructor
  · rintro ⟨call, tuple, move, does, possible⟩
    dsimp only at does
    rw [reading] at does
    cases Goes.of_places does with
    | read _ data =>
        obtain ⟨place, same, found⟩ := (standing.held.mem_iff foreign).mp possible
        obtain ⟨inside, -⟩ := List.getElem?_eq_some_iff.mp found
        omega
  · intro inside
    let data := (sent shared.acts)[(yielded client shared.acts).length]
    have member : .item name pos data ∈ shared.space :=
      (standing.held.mem_iff foreign).mpr ⟨_, next, List.getElem?_eq_getElem inside⟩
    refine ⟨.each, .item name pos data, ⟨.each, .saw (.item name pos data), .free (pos + 1)⟩, ?_,
      member⟩
    dsimp only
    rw [reading]
    exact if_pos (by simp [Tuple.isItem])

theorem delivers_of_standing {shared : Shared Client (Tuple Data) (Call Data) (Place Data)}
    (standing : Standing name others shared) (foreign : Foreign name others) :
    Delivers name (shared.map (code name)) := by
  have acts := shared.acts_map (code name)
  refine ⟨?_, ?_, ?_⟩
  · rw [acts]
    exact standing.reads
  · intro client pos waits
    obtain ⟨own, reading⟩ := code_eq_each waits
    rw [acts, ← standing.waits_iff foreign reading]
    exact exists_congr fun call => exists_congr fun tuple =>
      guard_map (next_code name) shared ⟨client, call, tuple⟩
  · intro pos data
    rw [acts]
    exact standing.held.mem_iff foreign

/-- In all interleavings of any number of clients that send to a queue and go through it. -/
theorem queue_delivers_to_all (foreign : Foreign name others)
    {requests : List (Request Client (Tuple Data) (Call Data))}
    (admitted : (clients name).Admits (start name others) requests) :
    Delivers name ((clients name).exec (start name others) requests) := by
  let begun : Shared Client (Tuple Data) (Call Data) (Place Data) :=
    ⟨init name ::ₘ others, fun _ => .free 1, []⟩
  obtain ⟨admits, same⟩ := sharing_map (next_code name) begun requests
  have standing := sharing_invariant (Standing name others)
    (fun shared client call tuple move standing does possible =>
      standing.perform foreign (Goes.of_places does) possible)
    standing_start (admits.mp admitted)
  have delivers := delivers_of_standing standing foreign
  rw [← same] at delivers
  exact delivers

namespace TwoClients

/-- One client sends a value, and both read it. -/
def requests : List (Request Bool (Tuple Nat) (Call Nat)) :=
  [⟨false, .send 7, init "queue"⟩, ⟨false, .each, init "queue"⟩, ⟨false, .each, init "queue"⟩,
    ⟨true, .each, init "queue"⟩, ⟨true, .each, .item "queue" 1 7⟩,
    ⟨false, .each, init "queue"⟩, ⟨false, .each, init "queue"⟩,
    ⟨false, .each, .item "queue" 1 7⟩]

theorem foreign : Foreign "queue" ({.tail "other" 3} : Multiset (Tuple Nat)) := by
  refine ⟨fun n member => ?_, fun pos data member => ?_⟩
  · exact absurd (Tuple.tail.inj (Multiset.mem_singleton.mp member)).1 (by decide)
  · cases Multiset.mem_singleton.mp member

theorem queue_delivers_to_all_requests :
    Delivers "queue" ((clients "queue").exec (start "queue" {.tail "other" 3}) requests) :=
  queue_delivers_to_all foreign (by decide)

end TwoClients

end Delivery

end Nise.RubyModels.SimpleQueue
