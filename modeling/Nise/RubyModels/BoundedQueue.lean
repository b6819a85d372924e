import Nise.Lib.TupleSpace

/-!
# Bounded queues on a tuple space

A `BoundedQueue` keeps its values in a tuple space, with the numbers of the last value sent and
of the next one to be read, and a status that counts the values.  All these tuples carry the name
of their queue except the status.  The queues of a space keep their order, but share the room
that they have.
-/

namespace Nise.RubyModels.BoundedQueue

open Nise.Lib

variable {Name Data : Type}

/-- The tuples `[:bqueue, :tail, name, n]`, `[:bqueue, :head, name, n]`,
`[:bqueue, :status, size, length, full, empty]` and `[:bqueue, name, n, data]`. -/
inductive Tuple (Name Data : Type) where
  | tail (name : Name) (n : Nat)
  | head (name : Name) (n : Nat)
  | status (size length : Int) (full empty : Bool)
  | data (name : Name) (n : Nat) (data : Data)
  deriving DecidableEq, Repr

namespace Tuple

/-- The number of a tail or of a head. -/
def number : Tuple Name Data → Nat
  | .tail _ n => n
  | .head _ n => n
  | _ => 0

def succ : Tuple Name Data → Tuple Name Data
  | .tail name n => .tail name (n + 1)
  | .head name n => .head name (n + 1)
  | tuple => tuple

/-- The status with another length. -/
def resize (change : Int) : Tuple Name Data → Tuple Name Data
  | .status size length _ _ =>
      .status size (length + change) (size == length + change) (length + change == 0)
  | tuple => tuple

def value : Tuple Name Data → Option Data
  | .data _ _ value => some value
  | _ => none

variable [DecidableEq Name]

def isTail (name : Name) : Tuple Name Data → Bool
  | .tail other _ => other = name
  | _ => false

def isHead (name : Name) : Tuple Name Data → Bool
  | .head other _ => other = name
  | _ => false

def isData (name : Name) (n : Nat) : Tuple Name Data → Bool
  | .data other m _ => other = name ∧ m = n
  | _ => false

def notFull : Tuple Name Data → Bool
  | .status _ _ full _ => full = false
  | _ => false

def notEmpty : Tuple Name Data → Bool
  | .status _ _ _ empty => empty = false
  | _ => false

end Tuple

/-- A queue that has been created. -/
structure Queue (Name : Type) where
  name : Name
  size : Int
  deriving DecidableEq, Repr

/-- What `init` writes. -/
def Queue.init (queue : Queue Name) : List (Tuple Name Data) :=
  [.tail queue.name 0, .head queue.name 1, .status queue.size 0 false true]

inductive Call (Name Data : Type) where
  | send (name : Name) (data : Data)
  | read (name : Name)
  deriving DecidableEq, Repr

/-- What the last call of a client has come to. -/
inductive Outcome (Data : Type) where
  | none
  | sent
  | received (value : Option Data)
  deriving DecidableEq, Repr

section Procedures

variable [DecidableEq Name]

def send (name : Name) (data : Data) : Proc (Tuple Name Data) (Outcome Data) :=
  .take Tuple.notFull fun status =>
    let status := status.resize 1
    .take (Tuple.isTail name) fun tail =>
      let tail := tail.succ
      .write status (.write (.data name tail.number data) (.write tail (.ret .sent)))

def read (name : Name) : Proc (Tuple Name Data) (Outcome Data) :=
  .take Tuple.notEmpty fun status =>
    let status := status.resize (-1)
    .take (Tuple.isHead name) fun head =>
      .take (Tuple.isData name head.number) fun tuple =>
        .write status (.write head.succ (.ret (.received tuple.value)))

abbrev QueueControl (Name Data : Type) := Control (Tuple Name Data) (Call Name Data) (Outcome Data)

/-- The calls of the queues that have been created. -/
def body (queues : List (Queue Name)) :
    Outcome Data → Call Name Data → Option (Proc (Tuple Name Data) (Outcome Data))
  | _, .send name data => if name ∈ queues.map Queue.name then some (send name data) else none
  | _, .read name => if name ∈ queues.map Queue.name then some (read name) else none

end Procedures

section System

variable {Client : Type} [DecidableEq Client] [DecidableEq Name] [DecidableEq Data]

/-- All interleavings of clients of the queues. -/
def clients (queues : List (Queue Name)) :
    System (Shared Client (Tuple Name Data) (Call Name Data) (QueueControl Name Data))
      (Request Client (Tuple Name Data) (Call Name Data)) :=
  sharing (Control.next (body queues))

instance (queues : List (Queue Name))
    (shared : Shared Client (Tuple Name Data) (Call Name Data) (QueueControl Name Data))
    (request : Request Client (Tuple Name Data) (Call Name Data)) :
    Decidable ((clients queues).guard shared request) :=
  inferInstanceAs (Decidable ((sharing (Control.next (body queues))).guard shared request))

/-- The queues have been created, and nobody has called anything. -/
def start (queues : List (Queue Name)) :
    Shared Client (Tuple Name Data) (Call Name Data) (QueueControl Name Data) :=
  ⟨(queues.flatMap Queue.init : List (Tuple Name Data)), fun _ => .rest .none, []⟩

end System

/-! ## Places in the procedures -/

/-- Where a client is, with the status, the number and the value that it has taken. -/
inductive Place (Name Data : Type) where
  | rest (outcome : Outcome Data)
  | sending (name : Name) (data : Data)
  | counted (name : Name) (data : Data) (size length : Int)
  | numbered (name : Name) (data : Data) (size length : Int) (n : Nat)
  | posting (name : Name) (data : Data) (n : Nat)
  | posted (name : Name) (data : Data) (n : Nat)
  | reading (name : Name)
  | uncounted (name : Name) (size length : Int)
  | waiting (name : Name) (size length : Int) (n : Nat)
  | received (name : Name) (size length : Int) (n : Nat) (value : Data)
  | advancing (name : Name) (n : Nat) (value : Data)
  deriving DecidableEq, Repr

/-- A status that has been updated. -/
def Tuple.ofLength (size length : Int) : Tuple Name Data :=
  .status size length (size == length) (length == 0)

section Places

variable [DecidableEq Name]

/-- The procedure that is left at a place. -/
def code : Place Name Data → QueueControl Name Data
  | .rest outcome => .rest outcome
  | .sending name data => .busy (.send name data) (send name data)
  | .counted name data size length => .busy (.send name data)
      (.take (Tuple.isTail name) fun tail => .write (.ofLength size length)
        (.write (.data name tail.succ.number data) (.write tail.succ (.ret .sent))))
  | .numbered name data size length n => .busy (.send name data)
      (.write (.ofLength size length)
        (.write (.data name n data) (.write (.tail name n) (.ret .sent))))
  | .posting name data n => .busy (.send name data)
      (.write (.data name n data) (.write (.tail name n) (.ret .sent)))
  | .posted name data n => .busy (.send name data) (.write (.tail name n) (.ret .sent))
  | .reading name => .busy (.read name) (read name)
  | .uncounted name size length => .busy (.read name)
      (.take (Tuple.isHead name) fun head => .take (Tuple.isData name head.number) fun tuple =>
        .write (.ofLength size length) (.write head.succ (.ret (.received tuple.value))))
  | .waiting name size length n => .busy (.read name)
      (.take (Tuple.isData name n) fun tuple =>
        .write (.ofLength size length)
          (.write (.head name (n + 1)) (.ret (.received tuple.value))))
  | .received name size length n value => .busy (.read name)
      (.write (.ofLength size length)
        (.write (.head name (n + 1)) (.ret (.received (some value)))))
  | .advancing name n value => .busy (.read name)
      (.write (.head name (n + 1)) (.ret (.received (some value))))

/-- What a client can do at each place. -/
inductive Goes (queues : List (Queue Name)) :
    Place Name Data → Move (Tuple Name Data) (Call Name Data) (Place Name Data) → Prop where
  | send (outcome : Outcome Data) (name : Name) (data : Data)
      (created : name ∈ queues.map Queue.name) :
      Goes queues (.rest outcome) ⟨.send name data, .called, .sending name data⟩
  | count (name : Name) (data : Data) (size length : Int) (empty : Bool) :
      Goes queues (.sending name data)
        ⟨.send name data, .took (.status size length false empty),
          .counted name data size (length + 1)⟩
  | number (name : Name) (data : Data) (size length : Int) (n : Nat) :
      Goes queues (.counted name data size length)
        ⟨.send name data, .took (.tail name n), .numbered name data size length (n + 1)⟩
  | numbered (name : Name) (data : Data) (size length : Int) (n : Nat) :
      Goes queues (.numbered name data size length n)
        ⟨.send name data, .wrote (.ofLength size length), .posting name data n⟩
  | post (name : Name) (data : Data) (n : Nat) :
      Goes queues (.posting name data n)
        ⟨.send name data, .wrote (.data name n data), .posted name data n⟩
  | posted (name : Name) (data : Data) (n : Nat) :
      Goes queues (.posted name data n) ⟨.send name data, .wrote (.tail name n), .rest .sent⟩
  | read (outcome : Outcome Data) (name : Name) (created : name ∈ queues.map Queue.name) :
      Goes queues (.rest outcome) ⟨.read name, .called, .reading name⟩
  | uncount (name : Name) (size length : Int) (full : Bool) :
      Goes queues (.reading name)
        ⟨.read name, .took (.status size length full false), .uncounted name size (length - 1)⟩
  | next (name : Name) (size length : Int) (n : Nat) :
      Goes queues (.uncounted name size length)
        ⟨.read name, .took (.head name n), .waiting name size length n⟩
  | receive (name : Name) (size length : Int) (n : Nat) (value : Data) :
      Goes queues (.waiting name size length n)
        ⟨.read name, .took (.data name n value), .received name size length n value⟩
  | received (name : Name) (size length : Int) (n : Nat) (value : Data) :
      Goes queues (.received name size length n value)
        ⟨.read name, .wrote (.ofLength size length), .advancing name n value⟩
  | advance (name : Name) (n : Nat) (value : Data) :
      Goes queues (.advancing name n value)
        ⟨.read name, .wrote (.head name (n + 1)), .rest (.received (some value))⟩

/-- The same as a function. -/
def places (queues : List (Queue Name)) :
    Behaviour (Tuple Name Data) (Call Name Data) (Place Name Data)
  | .rest _, .send name data, _ =>
      if name ∈ queues.map Queue.name then
        some ⟨.send name data, .called, .sending name data⟩
      else none
  | .rest _, .read name, _ =>
      if name ∈ queues.map Queue.name then some ⟨.read name, .called, .reading name⟩ else none
  | .sending name data, _, tuple =>
      match tuple with
      | .status size length false _ =>
          some ⟨.send name data, .took tuple, .counted name data size (length + 1)⟩
      | _ => none
  | .counted name data size length, _, tuple =>
      match tuple with
      | .tail other n =>
          if other = name then
            some ⟨.send name data, .took tuple, .numbered name data size length (n + 1)⟩
          else none
      | _ => none
  | .numbered name data size length n, _, _ =>
      some ⟨.send name data, .wrote (.ofLength size length), .posting name data n⟩
  | .posting name data n, _, _ =>
      some ⟨.send name data, .wrote (.data name n data), .posted name data n⟩
  | .posted name data n, _, _ => some ⟨.send name data, .wrote (.tail name n), .rest .sent⟩
  | .reading name, _, tuple =>
      match tuple with
      | .status size length _ false =>
          some ⟨.read name, .took tuple, .uncounted name size (length - 1)⟩
      | _ => none
  | .uncounted name size length, _, tuple =>
      match tuple with
      | .head other n =>
          if other = name then some ⟨.read name, .took tuple, .waiting name size length n⟩
          else none
      | _ => none
  | .waiting name size length n, _, tuple =>
      match tuple with
      | .data other m value =>
          if other = name ∧ m = n then
            some ⟨.read name, .took tuple, .received name size length n value⟩
          else none
      | _ => none
  | .received name size length n value, _, _ =>
      some ⟨.read name, .wrote (.ofLength size length), .advancing name n value⟩
  | .advancing name n value, _, _ =>
      some ⟨.read name, .wrote (.head name (n + 1)), .rest (.received (some value))⟩

/-- The places are cut out of the procedures. -/
theorem next_code (queues : List (Queue Name)) (place : Place Name Data) (call : Call Name Data)
    (tuple : Tuple Name Data) :
    Control.next (body queues) (code place) call tuple =
      (places queues place call tuple).map (Move.map code) := by
  cases place with
  | rest outcome =>
      cases call with
      | send name data =>
          by_cases created : name ∈ queues.map Queue.name
          · simp only [places, Control.next, code, body, if_pos created]
            rfl
          · simp only [places, Control.next, code, body, if_neg created]
            rfl
      | read name =>
          by_cases created : name ∈ queues.map Queue.name
          · simp only [places, Control.next, code, body, if_pos created]
            rfl
          · simp only [places, Control.next, code, body, if_neg created]
            rfl
  | sending name data =>
      cases tuple with
      | status size length full empty => cases full <;> rfl
      | _ => rfl
  | counted name data size length =>
      cases tuple with
      | tail other n =>
          by_cases own : other = name
          · subst own
            simp [places, Control.next, code, Tuple.isTail, Control.enter, Move.map, Tuple.succ,
              Tuple.number]
          · simp [places, Control.next, code, Tuple.isTail, own]
      | _ => rfl
  | numbered name data size length n => rfl
  | posting name data n => rfl
  | posted name data n => rfl
  | reading name =>
      cases tuple with
      | status size length full empty => cases empty <;> rfl
      | _ => rfl
  | uncounted name size length =>
      cases tuple with
      | head other n =>
          by_cases own : other = name
          · subst own
            simp [places, Control.next, code, Tuple.isHead, Control.enter, Move.map, Tuple.succ,
              Tuple.number]
          · simp [places, Control.next, code, Tuple.isHead, own]
      | _ => rfl
  | waiting name size length n =>
      cases tuple with
      | data other m value =>
          by_cases own : other = name ∧ m = n
          · simp [places, Control.next, code, Tuple.isData, own, Control.enter, Move.map,
              Tuple.value]
          · simp [places, Control.next, code, Tuple.isData, own]
      | _ => rfl
  | received name size length n value => rfl
  | advancing name n value => rfl

theorem Goes.of_places {queues : List (Queue Name)} {place : Place Name Data}
    {call : Call Name Data} {tuple : Tuple Name Data}
    {move : Move (Tuple Name Data) (Call Name Data) (Place Name Data)}
    (does : places queues place call tuple = some move) : Goes queues place move := by
  cases place with
  | rest outcome =>
      cases call with
      | send name data =>
          obtain ⟨created, same⟩ := Option.ite_none_right_eq_some.mp does
          cases same
          exact .send outcome name data created
      | read name =>
          obtain ⟨created, same⟩ := Option.ite_none_right_eq_some.mp does
          cases same
          exact .read outcome name created
  | sending name data =>
      cases tuple with
      | status size length full empty =>
          cases full with
          | false =>
              cases does
              exact .count name data size length empty
          | true => cases does
      | _ => cases does
  | counted name data size length =>
      cases tuple with
      | tail other n =>
          obtain ⟨rfl, same⟩ := Option.ite_none_right_eq_some.mp does
          cases same
          exact .number other data size length n
      | _ => cases does
  | numbered name data size length n =>
      cases does
      exact .numbered name data size length n
  | posting name data n =>
      cases does
      exact .post name data n
  | posted name data n =>
      cases does
      exact .posted name data n
  | reading name =>
      cases tuple with
      | status size length full empty =>
          cases empty with
          | false =>
              cases does
              exact .uncount name size length full
          | true => cases does
      | _ => cases does
  | uncounted name size length =>
      cases tuple with
      | head other n =>
          obtain ⟨rfl, same⟩ := Option.ite_none_right_eq_some.mp does
          cases same
          exact .next other size length n
      | _ => cases does
  | waiting name size length n =>
      cases tuple with
      | data other m value =>
          obtain ⟨⟨rfl, rfl⟩, same⟩ := Option.ite_none_right_eq_some.mp does
          cases same
          exact .receive other size length m value
      | _ => cases does
  | received name size length n value =>
      cases does
      exact .received name size length n value
  | advancing name n value =>
      cases does
      exact .advance name n value

end Places

/-! ## What has been sent and read -/

section History

variable [DecidableEq Name] {Client Place' : Type}

/-- The value that is sent to a queue when its tail is taken. -/
def sent (name : Name) (move : Move (Tuple Name Data) (Call Name Data) Place') : Option Data :=
  match move.call, move.action with
  | .send _ data, .took (.tail other _) => if other = name then some data else none
  | _, _ => none

/-- A value of a queue is taken out of the space. -/
def takes (name : Name) (move : Move (Tuple Name Data) (Call Name Data) Place') : Bool :=
  match move.action with
  | .took (.data other _ _) => other = name
  | _ => false

/-- The value that a read of a queue returns, when it does. -/
def returned (outcome : Place' → Option (Outcome Data)) (name : Name)
    (move : Move (Tuple Name Data) (Call Name Data) Place') : Option (Option Data) :=
  match move.call, outcome move.control with
  | .read other, some (.received value) => if other = name then some value else none
  | _, _ => none

variable (log : List (Client × Move (Tuple Name Data) (Call Name Data) Place'))

/-- The values sent to a queue, in the order in which its tail was taken. -/
def sends (name : Name) : List Data := log.filterMap fun entry => sent name entry.2

def taken (name : Name) : Nat := log.countP fun entry => takes name entry.2

/-- The values that the reads of a queue have returned. -/
def reads (outcome : Place' → Option (Outcome Data)) (name : Name) : List (Option Data) :=
  log.filterMap fun entry => returned outcome name entry.2

theorem sends_concat (name : Name) (client : Client)
    (move : Move (Tuple Name Data) (Call Name Data) Place') :
    sends (log ++ [(client, move)]) name = sends log name ++ (sent name move).toList := by
  unfold sends
  rw [List.filterMap_append, List.filterMap_cons, List.filterMap_nil]
  cases sent name move <;> rfl

theorem taken_concat (name : Name) (client : Client)
    (move : Move (Tuple Name Data) (Call Name Data) Place') :
    taken (log ++ [(client, move)]) name = taken log name + if takes name move then 1 else 0 := by
  unfold taken
  rw [List.countP_append, List.countP_singleton]

theorem reads_concat (outcome : Place' → Option (Outcome Data)) (name : Name) (client : Client)
    (move : Move (Tuple Name Data) (Call Name Data) Place') :
    reads (log ++ [(client, move)]) outcome name =
      reads log outcome name ++ (returned outcome name move).toList := by
  unfold reads
  rw [List.filterMap_append, List.filterMap_cons, List.filterMap_nil]
  cases returned outcome name move <;> rfl

end History

/-- What a client has got, between two calls. -/
def result : QueueControl Name Data → Option (Outcome Data)
  | .rest outcome => some outcome
  | .busy _ _ => none

def Place.outcome : Place Name Data → Option (Outcome Data)
  | .rest outcome => some outcome
  | _ => none

theorem result_code [DecidableEq Name] (place : Place Name Data) :
    result (code place) = place.outcome := by
  cases place <;> rfl

section Properties

variable {Client : Type} [DecidableEq Name]

/-- The values that have been read are those that were sent first. -/
def Fifo (queues : List (Queue Name))
    (shared : Shared Client (Tuple Name Data) (Call Name Data) (QueueControl Name Data)) : Prop :=
  ∀ queue ∈ queues,
    reads shared.log result queue.name <+: (sends shared.log queue.name).map some

/-- No more values have been sent than have been read and than there is room for. -/
def Bounded (queues : List (Queue Name))
    (shared : Shared Client (Tuple Name Data) (Call Name Data) (QueueControl Name Data)) : Prop :=
  ∀ queue ∈ queues, ((sends shared.log queue.name).length : Int) ≤
    taken shared.log queue.name + queue.size

end Properties

/-! ## Tokens -/

section Weights

variable [DecidableEq Name] (name : Name) (weight : Nat → Int)

/-- The tail of a queue, in the space and with a client, weighed by its number. -/
def Tuple.tailWeight : Tuple Name Data → Int
  | .tail other n => if other = name then weight n else 0
  | _ => 0

def Place.tailWeight : Place Name Data → Int
  | .numbered other _ _ _ n => if other = name then weight n else 0
  | .posting other _ n => if other = name then weight n else 0
  | .posted other _ n => if other = name then weight n else 0
  | _ => 0

/-- The head of a queue. -/
def Tuple.headWeight : Tuple Name Data → Int
  | .head other n => if other = name then weight n else 0
  | _ => 0

def Place.headWeight : Place Name Data → Int
  | .waiting other _ _ n => if other = name then weight n else 0
  | .received other _ _ n _ => if other = name then weight n else 0
  | .advancing other n _ => if other = name then weight n else 0
  | _ => 0

/-- Every tail and every head counts as one. -/
def token : Nat → Int := fun _ => 1

variable {name} {weight}

theorem ite_nonneg {condition : Prop} [Decidable condition] :
    0 ≤ if condition then (1 : Int) else 0 := by
  split <;> decide

theorem ite_eq_zero {condition : Prop} [Decidable condition] {value : Int}
    (zero : (if condition then (1 : Int) else 0) = 0) : (if condition then value else 0) = 0 := by
  split at zero
  · cases zero
  · next not => exact if_neg not

theorem Tuple.tailWeight_nonneg (tuple : Tuple Name Data) : 0 ≤ tuple.tailWeight name token := by
  cases tuple <;> first | exact ite_nonneg | exact Int.le_refl 0

theorem Place.tailWeight_nonneg (place : Place Name Data) : 0 ≤ place.tailWeight name token := by
  cases place <;> first | exact ite_nonneg | exact Int.le_refl 0

theorem Tuple.headWeight_nonneg (tuple : Tuple Name Data) : 0 ≤ tuple.headWeight name token := by
  cases tuple <;> first | exact ite_nonneg | exact Int.le_refl 0

theorem Place.headWeight_nonneg (place : Place Name Data) : 0 ≤ place.headWeight name token := by
  cases place <;> first | exact ite_nonneg | exact Int.le_refl 0

theorem Tuple.tailWeight_eq_zero (weight : Nat → Int) {tuple : Tuple Name Data}
    (zero : tuple.tailWeight name token = 0) : tuple.tailWeight name weight = 0 := by
  cases tuple <;> first | exact ite_eq_zero zero | rfl

theorem Place.tailWeight_eq_zero (weight : Nat → Int) {place : Place Name Data}
    (zero : place.tailWeight name token = 0) : place.tailWeight name weight = 0 := by
  cases place <;> first | exact ite_eq_zero zero | rfl

theorem Tuple.headWeight_eq_zero (weight : Nat → Int) {tuple : Tuple Name Data}
    (zero : tuple.headWeight name token = 0) : tuple.headWeight name weight = 0 := by
  cases tuple <;> first | exact ite_eq_zero zero | rfl

theorem Place.headWeight_eq_zero (weight : Nat → Int) {place : Place Name Data}
    (zero : place.headWeight name token = 0) : place.headWeight name weight = 0 := by
  cases place <;> first | exact ite_eq_zero zero | rfl

variable {queues : List (Queue Name)} {place : Place Name Data} {step : Int}
  {move : Move (Tuple Name Data) (Call Name Data) (Place Name Data)}

/-- The tail goes from the space to a client and back, and grows with every value sent. -/
theorem Goes.tailWeight (grows : ∀ n, weight (n + 1) = weight n + step)
    (goes : Goes queues place move) :
    move.control.tailWeight name weight + move.action.gain (Tuple.tailWeight name weight) =
      place.tailWeight name weight + move.action.loss (Tuple.tailWeight name weight) +
        step * ((sent name move).toList.length : Int) := by
  cases goes with
  | number other data size length n =>
      by_cases own : other = name
      · simp [Place.tailWeight, Tuple.tailWeight, Action.gain, Action.loss, sent, own, grows]
      · simp [Place.tailWeight, Tuple.tailWeight, Action.gain, Action.loss, sent, own]
  | _ =>
      simp [Place.tailWeight, Tuple.tailWeight, Action.gain, Action.loss, sent, Tuple.ofLength]

/-- The head grows with every value that is returned. -/
theorem Goes.headWeight (grows : ∀ n, weight (n + 1) = weight n + step)
    (goes : Goes queues place move) :
    move.control.headWeight name weight + move.action.gain (Tuple.headWeight name weight) =
      place.headWeight name weight + move.action.loss (Tuple.headWeight name weight) +
        step * ((returned Place.outcome name move).toList.length : Int) := by
  cases goes with
  | advance other n value =>
      by_cases own : other = name
      · simp [Place.headWeight, Tuple.headWeight, Action.gain, Action.loss, returned,
          Place.outcome, own, grows]
      · simp [Place.headWeight, Tuple.headWeight, Action.gain, Action.loss, returned,
          Place.outcome, own]
  | _ =>
      simp [Place.headWeight, Tuple.headWeight, Action.gain, Action.loss, returned,
        Place.outcome, Tuple.ofLength]

end Weights

/-! ## Order -/

/-- The value with a number is the one that was sent as such. -/
def Numbered (values : List Data) (n : Nat) (value : Data) : Prop :=
  1 ≤ n ∧ values[n - 1]? = some value

/-- The value that a client carries is the one with its number. -/
def Place.Carries (name : Name) (values : List Data) : Place Name Data → Prop
  | .numbered other data _ _ n => other = name → Numbered values n data
  | .posting other data n => other = name → Numbered values n data
  | .received other _ _ n value => other = name → Numbered values n value
  | .advancing other n value => other = name → Numbered values n value
  | _ => True

theorem Numbered.append {values : List Data} {n : Nat} {value : Data}
    (numbered : Numbered values n value) (more : List Data) :
    Numbered (values ++ more) n value := by
  obtain ⟨positive, found⟩ := numbered
  obtain ⟨within, -⟩ := List.getElem?_eq_some_iff.mp found
  refine ⟨positive, ?_⟩
  rw [List.getElem?_append_left within]
  exact found

theorem Place.Carries.append {name : Name} {place : Place Name Data} {values : List Data}
    (carries : place.Carries name values) (more : List Data) :
    place.Carries name (values ++ more) := by
  cases place with
  | numbered other data size length n => exact fun own => (carries own).append more
  | posting other data n => exact fun own => (carries own).append more
  | received other size length n value => exact fun own => (carries own).append more
  | advancing other n value => exact fun own => (carries own).append more
  | _ => trivial

theorem prefix_concat {α : Type*} {first whole : List α} {next : α}
    (begins : first <+: whole) (found : whole[first.length]? = some next) :
    first ++ [next] <+: whole := by
  obtain ⟨rest, rfl⟩ := begins
  rw [List.getElem?_append_right (Nat.le_refl _), Nat.sub_self] at found
  cases rest with
  | nil => cases found
  | cons other rest =>
      cases found
      exact ⟨rest, by simp⟩

section Order

variable {Client : Type} [Fintype Client] [DecidableEq Name]

/-- What holds of a queue in all interleavings: it has one tail and one head, with the numbers
of the values that have been sent and read. -/
structure Standing (name : Name)
    (shared : Shared Client (Tuple Name Data) (Call Name Data) (Place Name Data)) : Prop where
  tail : shared.total (Tuple.tailWeight name token) (fun _ => Place.tailWeight name token) = 1
  tailNumber : shared.total (Tuple.tailWeight name Nat.cast)
    (fun _ => Place.tailWeight name Nat.cast) = ((sends shared.log name).length : Int)
  head : shared.total (Tuple.headWeight name token) (fun _ => Place.headWeight name token) = 1
  headNumber : shared.total (Tuple.headWeight name Nat.cast)
    (fun _ => Place.headWeight name Nat.cast) =
      ((reads shared.log Place.outcome name).length : Int) + 1
  stored : ∀ n value, .data name n value ∈ shared.space →
    Numbered (sends shared.log name) n value
  carried : ∀ client, (shared.control client).Carries name (sends shared.log name)
  order : reads shared.log Place.outcome name <+: (sends shared.log name).map some

variable {name : Name}
  {shared : Shared Client (Tuple Name Data) (Call Name Data) (Place Name Data)}

/-- The tail in the space has the number of the last value sent. -/
theorem Standing.tail_eq (standing : Standing name shared) {n : Nat}
    (member : .tail name n ∈ shared.space) : n = (sends shared.log name).length := by
  have value := Shared.value_of_tuple Tuple.tailWeight_nonneg (fun _ => Place.tailWeight_nonneg)
    (fun _ => Tuple.tailWeight_eq_zero Nat.cast)
    (fun _ _ => Place.tailWeight_eq_zero Nat.cast) standing.tail member (if_pos rfl)
  rw [standing.tailNumber] at value
  have number : Tuple.tailWeight name Nat.cast (.tail name n : Tuple Name Data) = n := if_pos rfl
  rw [number] at value
  omega

/-- The client that is about to write the head has read the next value. -/
theorem Standing.head_eq (standing : Standing name shared) {client : Client} {n : Nat}
    {value : Data} (advancing : shared.control client = .advancing name n value) :
    n = (reads shared.log Place.outcome name).length + 1 := by
  have has : (shared.control client).headWeight name token = 1 := by
    rw [advancing]
    exact if_pos rfl
  have all := Shared.value_of_client Tuple.headWeight_nonneg (fun _ => Place.headWeight_nonneg)
    (fun _ => Tuple.headWeight_eq_zero Nat.cast)
    (fun _ _ => Place.headWeight_eq_zero Nat.cast) standing.head has
  rw [standing.headNumber, advancing] at all
  have number : Place.headWeight name Nat.cast (.advancing name n value : Place Name Data) = n :=
    if_pos rfl
  rw [number] at all
  omega

variable [DecidableEq Client] [DecidableEq Data] {queues : List (Queue Name)} {client : Client}
  {move : Move (Tuple Name Data) (Call Name Data) (Place Name Data)}

/-- The number that a client gives to its value is the next one. -/
theorem Standing.carried_perform (standing : Standing name shared)
    (goes : Goes queues (shared.control client) move)
    (possible : move.action.Possible shared.space) :
    move.control.Carries name (sends (shared.perform client move).log name) := by
  have before := standing.carried client
  have after : sends (shared.perform client move).log name =
      sends shared.log name ++ (sent name move).toList := sends_concat _ _ _ _
  rw [after]
  generalize shared.control client = place at goes before
  cases goes with
  | number other data size length n =>
      rintro rfl
      have last := standing.tail_eq possible
      refine ⟨Nat.succ_pos n, ?_⟩
      rw [Nat.add_sub_cancel, last]
      simp [sent]
  | numbered other data size length n => exact before.append _
  | receive other size length n value =>
      rintro rfl
      exact (standing.stored n value possible).append _
  | received other size length n value => exact before.append _
  | _ => trivial

theorem Standing.stored_perform (standing : Standing name shared)
    (goes : Goes queues (shared.control client) move) {n : Nat} {value : Data}
    (member : .data name n value ∈ (shared.perform client move).space) :
    Numbered (sends (shared.perform client move).log name) n value := by
  have before := standing.carried client
  have after : sends (shared.perform client move).log name =
      sends shared.log name ++ (sent name move).toList := sends_concat _ _ _ _
  rw [after]
  have stored := fun old => (standing.stored n value old).append (sent name move).toList
  change _ ∈ move.action.apply shared.space at member
  generalize shared.control client = place at goes before
  cases goes with
  | post other data m =>
      rcases Multiset.mem_cons.mp member with new | old
      · cases new
        exact (before rfl).append _
      · exact stored old
  | send | read => exact stored member
  | count | number | uncount | next | receive => exact stored (Multiset.mem_of_mem_erase member)
  | numbered | posted | received | advance =>
      rcases Multiset.mem_cons.mp member with new | old
      · cases new
      · exact stored old

theorem Standing.order_perform (standing : Standing name shared)
    (goes : Goes queues (shared.control client) move) :
    reads (shared.perform client move).log Place.outcome name <+:
      (sends (shared.perform client move).log name).map some := by
  have before := standing.carried client
  have sends_after : sends (shared.perform client move).log name =
      sends shared.log name ++ (sent name move).toList := sends_concat _ _ _ _
  have reads_after : reads (shared.perform client move).log Place.outcome name =
      reads shared.log Place.outcome name ++ (returned Place.outcome name move).toList :=
    reads_concat _ _ _ _ _
  rw [sends_after, reads_after, List.map_append]
  have head : ∀ n value, shared.control client = .advancing name n value →
      n = (reads shared.log Place.outcome name).length + 1 := fun _ _ => standing.head_eq
  generalize shared.control client = place at goes before head
  have keeps : returned Place.outcome name move = none →
      reads shared.log Place.outcome name ++ (returned Place.outcome name move).toList <+:
        (sends shared.log name).map some ++ (sent name move).toList.map some := by
    intro none
    rw [none]
    simpa using standing.order.trans (List.prefix_append _ _)
  cases goes with
  | advance other n value =>
      by_cases own : other = name
      · subst own
        have last := head n value rfl
        have numbered := (before rfl).2
        have value_returned : returned Place.outcome other
            (⟨.read other, .wrote (.head other (n + 1)), .rest (.received (some value))⟩ :
              Move (Tuple Name Data) (Call Name Data) (Place Name Data)) = some (some value) :=
          if_pos rfl
        rw [value_returned]
        refine prefix_concat (standing.order.trans (List.prefix_append _ _)) ?_
        have place : n - 1 = (reads shared.log Place.outcome other).length := by omega
        rw [place] at numbered
        simp [sent, numbered]
      · exact keeps (if_neg own)
  | _ => exact keeps rfl

theorem Standing.perform (standing : Standing name shared)
    (goes : Goes queues (shared.control client) move)
    (possible : move.action.Possible shared.space) :
    Standing name (shared.perform client move) := by
  have sends_after : sends (shared.perform client move).log name =
      sends shared.log name ++ (sent name move).toList := sends_concat _ _ _ _
  have reads_after : reads (shared.perform client move).log Place.outcome name =
      reads shared.log Place.outcome name ++ (returned Place.outcome name move).toList :=
    reads_concat _ _ _ _ _
  have same : ∀ n, token (n + 1) = token n + 0 := fun _ => rfl
  have grows : ∀ n : Nat, ((n + 1 : Nat) : Int) = (n : Int) + 1 := Nat.cast_succ
  refine ⟨?_, ?_, ?_, ?_, ?_, ?_, standing.order_perform goes⟩
  · rw [Shared.total_perform possible (goes.tailWeight same), standing.tail, zero_mul, add_zero]
  · rw [Shared.total_perform possible (goes.tailWeight grows), standing.tailNumber, sends_after,
      List.length_append, Nat.cast_add, one_mul]
  · rw [Shared.total_perform possible (goes.headWeight same), standing.head, zero_mul, add_zero]
  · rw [Shared.total_perform possible (goes.headWeight grows), standing.headNumber, reads_after,
      List.length_append, Nat.cast_add, one_mul]
    omega
  · intro n value member
    exact standing.stored_perform goes member
  · intro other
    change (Function.update shared.control client move.control other).Carries name _
    by_cases own : other = client
    · rw [own, Function.update_self]
      exact standing.carried_perform goes possible
    · rw [Function.update_of_ne own, sends_after]
      exact (standing.carried other).append _

end Order

/-! ## Room -/

section Room

variable {Client : Type} [Fintype Client] [DecidableEq Name]

/-- The status, in the space and with a client, with the number of values that are sent and not
yet taken. -/
def Tuple.statusToken : Tuple Name Data → Int
  | .status _ _ _ _ => 1
  | _ => 0

def Tuple.statusLength : Tuple Name Data → Int
  | .status _ length _ _ => length
  | _ => 0

def Place.statusToken : Place Name Data → Int
  | .counted _ _ _ _ => 1
  | .numbered _ _ _ _ _ => 1
  | .uncounted _ _ _ => 1
  | .waiting _ _ _ _ => 1
  | .received _ _ _ _ _ => 1
  | _ => 0

def Place.statusLength : Place Name Data → Int
  | .counted _ _ _ length => length - 1
  | .numbered _ _ _ length _ => length
  | .uncounted _ _ length => length + 1
  | .waiting _ _ length _ => length + 1
  | .received _ _ length _ _ => length
  | _ => 0

/-- A status that has room for another value unless it is full. -/
def Tuple.Sized (size : Int) : Tuple Name Data → Prop
  | .status own length full _ => own = size ∧ length ≤ size ∧ (full = false → length < size)
  | _ => True

def Place.Sized (size : Int) : Place Name Data → Prop
  | .counted _ _ own length => own = size ∧ length ≤ size
  | .numbered _ _ own length _ => own = size ∧ length ≤ size
  | .uncounted _ own length => own = size ∧ length < size
  | .waiting _ own length _ => own = size ∧ length < size
  | .received _ own length _ _ => own = size ∧ length < size
  | _ => True

/-- The client is in a call of the queue. -/
def Place.On (name : Name) : Place Name Data → Prop
  | .rest _ => True
  | .sending other _ => other = name
  | .counted other _ _ _ => other = name
  | .numbered other _ _ _ _ => other = name
  | .posting other _ _ => other = name
  | .posted other _ _ => other = name
  | .reading other => other = name
  | .uncounted other _ _ => other = name
  | .waiting other _ _ _ => other = name
  | .received other _ _ _ _ => other = name
  | .advancing other _ _ => other = name

/-- What holds of a queue that is alone in its space: there is one status, with the number of
the values that are sent and not yet taken. -/
structure Room (queue : Queue Name)
    (shared : Shared Client (Tuple Name Data) (Call Name Data) (Place Name Data)) : Prop where
  status : shared.total Tuple.statusToken (fun _ => Place.statusToken) = 1
  length : shared.total Tuple.statusLength (fun _ => Place.statusLength) =
    ((sends shared.log queue.name).length : Int) - taken shared.log queue.name
  sized : ∀ tuple ∈ shared.space, tuple.Sized queue.size
  sizedAt : ∀ client, (shared.control client).Sized queue.size
  on : ∀ client, (shared.control client).On queue.name

variable {queue : Queue Name} {place : Place Name Data}
  {move : Move (Tuple Name Data) (Call Name Data) (Place Name Data)}

omit [DecidableEq Name] in
theorem Goes.statusToken (goes : Goes [queue] place move) :
    move.control.statusToken + move.action.gain Tuple.statusToken =
      place.statusToken + move.action.loss Tuple.statusToken + 0 := by
  cases goes <;> rfl

theorem Goes.statusLength (goes : Goes [queue] place move) (on : place.On queue.name) :
    move.control.statusLength + move.action.gain Tuple.statusLength =
      place.statusLength + move.action.loss Tuple.statusLength +
        (((sent queue.name move).toList.length : Int) -
          if takes queue.name move then 1 else 0) := by
  cases goes with
  | number other data size length n =>
      cases on
      simp [Place.statusLength, Tuple.statusLength, Action.gain, Action.loss, sent, takes]
  | receive other size length n value =>
      cases on
      simp [Place.statusLength, Tuple.statusLength, Action.gain, Action.loss, sent, takes]
  | _ =>
      simp [Place.statusLength, Tuple.statusLength, Action.gain, Action.loss, sent, takes,
        Tuple.ofLength]

omit [DecidableEq Name] in
theorem Goes.on (goes : Goes [queue] place move) (on : place.On queue.name) :
    move.control.On queue.name := by
  cases goes with
  | send outcome other data created => exact List.mem_singleton.mp created
  | read outcome other created => exact List.mem_singleton.mp created
  | posted | advance => trivial
  | _ => exact on

omit [DecidableEq Name] in
theorem Goes.sizedAt {space : Multiset (Tuple Name Data)} (goes : Goes [queue] place move)
    (possible : move.action.Possible space) (sized : ∀ tuple ∈ space, tuple.Sized queue.size)
    (sizedAt : place.Sized queue.size) : move.control.Sized queue.size := by
  cases goes with
  | count other data size length empty =>
      obtain ⟨own, -, room⟩ := sized _ possible
      exact ⟨own, room rfl⟩
  | uncount other size length full =>
      obtain ⟨own, most, -⟩ := sized _ possible
      exact ⟨own, by omega⟩
  | number | next | receive => exact sizedAt
  | _ => trivial

variable [DecidableEq Data]

theorem Goes.sized {space : Multiset (Tuple Name Data)} (goes : Goes [queue] place move)
    (sized : ∀ tuple ∈ space, tuple.Sized queue.size) (sizedAt : place.Sized queue.size) :
    ∀ tuple ∈ move.action.apply space, tuple.Sized queue.size := by
  intro tuple member
  have updated : ∀ length ≤ queue.size,
      (Tuple.ofLength queue.size length : Tuple Name Data).Sized queue.size := by
    intro length most
    refine ⟨rfl, most, fun room => ?_⟩
    have apart : queue.size ≠ length := by simpa using room
    omega
  cases goes with
  | send | read => exact sized tuple member
  | count | number | uncount | next | receive =>
      exact sized tuple (Multiset.mem_of_mem_erase member)
  | numbered other data size length n =>
      rcases Multiset.mem_cons.mp member with rfl | old
      · obtain ⟨rfl, most⟩ := sizedAt
        exact updated length most
      · exact sized tuple old
  | received other size length n value =>
      rcases Multiset.mem_cons.mp member with rfl | old
      · obtain ⟨rfl, less⟩ := sizedAt
        exact updated length (Int.le_of_lt less)
      · exact sized tuple old
  | post | posted | advance =>
      rcases Multiset.mem_cons.mp member with rfl | old
      · trivial
      · exact sized tuple old

variable {shared : Shared Client (Tuple Name Data) (Call Name Data) (Place Name Data)}

theorem Room.perform [DecidableEq Client] (room : Room queue shared) {client : Client}
    (goes : Goes [queue] (shared.control client) move)
    (possible : move.action.Possible shared.space) :
    Room queue (shared.perform client move) := by
  have sends_after : sends (shared.perform client move).log queue.name =
      sends shared.log queue.name ++ (sent queue.name move).toList := sends_concat _ _ _ _
  have taken_after : taken (shared.perform client move).log queue.name =
      taken shared.log queue.name + if takes queue.name move then 1 else 0 :=
    taken_concat _ _ _ _
  refine ⟨?_, ?_, goes.sized room.sized (room.sizedAt client), ?_, ?_⟩
  · rw [Shared.total_perform possible goes.statusToken, room.status, add_zero]
  · rw [Shared.total_perform possible (goes.statusLength (room.on client)), room.length,
      sends_after, taken_after, List.length_append, Nat.cast_add, Nat.cast_add, Nat.cast_ite]
    push_cast
    omega
  · intro other
    change (Function.update shared.control client move.control other).Sized _
    by_cases own : other = client
    · rw [own, Function.update_self]
      exact goes.sizedAt possible room.sized (room.sizedAt client)
    · rw [Function.update_of_ne own]
      exact room.sizedAt other
  · intro other
    change (Function.update shared.control client move.control other).On _
    by_cases own : other = client
    · rw [own, Function.update_self]
      exact goes.on (room.on client)
    · rw [Function.update_of_ne own]
      exact room.on other

omit [DecidableEq Data] in
theorem Room.bounded (room : Room queue shared) :
    ((sends shared.log queue.name).length : Int) ≤
      taken shared.log queue.name + queue.size := by
  have all : shared.total Tuple.statusLength (fun _ => Place.statusLength) ≤
      queue.size * shared.total Tuple.statusToken (fun _ => Place.statusToken) := by
    apply Shared.total_le
    · intro tuple member
      have sized := room.sized tuple member
      cases tuple with
      | status size length full empty =>
          have most := sized.2.1
          simpa [Tuple.statusLength, Tuple.statusToken] using most
      | _ => simp [Tuple.statusLength, Tuple.statusToken]
    · intro client
      have sized := room.sizedAt client
      generalize shared.control client = place at sized ⊢
      cases place with
      | counted | numbered | uncounted | waiting | received =>
          have most := sized.2
          simp only [Place.statusLength, Place.statusToken]
          omega
      | _ => simp [Place.statusLength, Place.statusToken]
  rw [room.status, room.length] at all
  omega

end Room

/-! ## All interleavings -/

section Start

variable {Client : Type} [Fintype Client] [DecidableEq Name] {queues : List (Queue Name)}

/-- The start, with places. -/
def begun (queues : List (Queue Name)) :
    Shared Client (Tuple Name Data) (Call Name Data) (Place Name Data) :=
  ⟨(queues.flatMap Queue.init : List (Tuple Name Data)), fun _ => .rest .none, []⟩

omit [DecidableEq Name] in
theorem sum_init (weight : Tuple Name Data → Int) (queues : List (Queue Name)) :
    (((queues.flatMap Queue.init : List (Tuple Name Data)) : Multiset (Tuple Name Data)).map
      weight).sum = (queues.map fun queue => (queue.init.map weight).sum).sum := by
  rw [Multiset.map_coe, Multiset.sum_coe]
  induction queues with
  | nil => rfl
  | cons queue rest ih =>
      rw [List.flatMap_cons, List.map_append, List.sum_append, ih]
      rfl

/-- One queue has the name. -/
theorem sum_own (distinct : (queues.map Queue.name).Nodup) {queue : Queue Name}
    (member : queue ∈ queues) :
    (queues.map fun other => if other.name = queue.name then (1 : Int) else 0).sum = 1 := by
  have once := List.count_eq_one_of_mem distinct (List.mem_map_of_mem member)
  have count : (queues.map fun other => if other.name = queue.name then (1 : Int) else 0).sum =
      ((queues.map Queue.name).count queue.name : Int) := by
    clear once distinct member
    induction queues with
    | nil => rfl
    | cons other rest ih =>
        rw [List.map_cons, List.map_cons, List.sum_cons, ih, List.count_cons]
        by_cases own : other.name = queue.name
        · simp [own, add_comm]
        · simp [own]
  rw [count, once]
  rfl

theorem standing_begun (distinct : (queues.map Queue.name).Nodup) {queue : Queue Name}
    (member : queue ∈ queues) :
    Standing queue.name (begun queues : Shared Client (Tuple Name Data) _ _) := by
  have one := sum_own distinct member
  have tail : (begun queues : Shared Client (Tuple Name Data) (Call Name Data) _).total
      (Tuple.tailWeight queue.name token) (fun _ => Place.tailWeight queue.name token) = 1 := by
    unfold Shared.total begun
    rw [sum_init]
    simpa [Queue.init, Tuple.tailWeight, Place.tailWeight, token] using one
  have head : ∀ weight : Nat → Int, weight 1 = 1 →
      (begun queues : Shared Client (Tuple Name Data) (Call Name Data) _).total
        (Tuple.headWeight queue.name weight) (fun _ => Place.headWeight queue.name weight) = 1 := by
    intro weight first
    unfold Shared.total begun
    rw [sum_init]
    simpa [Queue.init, Tuple.headWeight, Place.headWeight, first] using one
  refine ⟨tail, ?_, head token rfl, ?_, ?_, ?_, List.nil_prefix⟩
  · unfold Shared.total begun
    rw [sum_init]
    simp [Queue.init, Tuple.tailWeight, Place.tailWeight, sends]
  · rw [head Nat.cast rfl]
    rfl
  · intro n value stored
    have init : .data queue.name n value ∈
        (queues.flatMap Queue.init : List (Tuple Name Data)) := stored
    obtain ⟨other, -, among⟩ := List.mem_flatMap.mp init
    simp [Queue.init] at among
  · intro client
    trivial

theorem room_begun {queue : Queue Name} (positive : 1 ≤ queue.size) :
    Room queue (begun [queue] : Shared Client (Tuple Name Data) _ _) := by
  refine ⟨?_, ?_, ?_, fun _ => trivial, fun _ => trivial⟩
  · unfold Shared.total begun
    rw [sum_init]
    simp [Queue.init, Tuple.statusToken, Place.statusToken]
  · unfold Shared.total begun
    rw [sum_init]
    simp [Queue.init, Tuple.statusLength, Place.statusLength, sends, taken]
  · intro tuple member
    have init : tuple ∈ queue.init ++ ([] : List (Tuple Name Data)) := member
    rw [List.append_nil, Queue.init] at init
    rcases List.mem_cons.mp init with rfl | init
    · trivial
    · rcases List.mem_cons.mp init with rfl | init
      · trivial
      · rw [List.mem_singleton.mp init]
        exact ⟨rfl, by omega, fun _ => by omega⟩

end Start

section Transfer

variable {Client : Type} [DecidableEq Name]

theorem sends_map (shared : Shared Client (Tuple Name Data) (Call Name Data) (Place Name Data))
    (name : Name) : sends (shared.map code).log name = sends shared.log name := by
  unfold sends Shared.map
  rw [List.filterMap_map]
  rfl

theorem taken_map (shared : Shared Client (Tuple Name Data) (Call Name Data) (Place Name Data))
    (name : Name) : taken (shared.map code).log name = taken shared.log name := by
  unfold taken Shared.map
  rw [List.countP_map]
  rfl

theorem reads_map (shared : Shared Client (Tuple Name Data) (Call Name Data) (Place Name Data))
    (name : Name) :
    reads (shared.map code).log result name = reads shared.log Place.outcome name := by
  unfold reads Shared.map
  rw [List.filterMap_map]
  congr 1
  funext entry
  change returned result name (entry.2.map code) = returned Place.outcome name entry.2
  unfold returned Move.map
  dsimp only
  rw [result_code]

end Transfer

section Interleavings

variable {Client : Type} [Fintype Client] [DecidableEq Client] [DecidableEq Name]
  [DecidableEq Data] {queues : List (Queue Name)}
  {requests : List (Request Client (Tuple Name Data) (Call Name Data))}

theorem fifo_of_admitted (distinct : (queues.map Queue.name).Nodup)
    (admitted : (clients queues).Admits (start queues) requests) :
    Fifo queues ((clients queues).exec (start queues) requests) := by
  obtain ⟨admits, same⟩ := sharing_map (next_code queues) (begun queues) requests
  change (clients queues).exec (start queues) requests = _ at same
  rw [same]
  intro queue member
  have standing := sharing_invariant (Standing queue.name)
    (fun shared client call tuple move standing does possible =>
      standing.perform (Goes.of_places does) possible)
    (standing_begun distinct member) (admits.mp admitted)
  rw [reads_map, sends_map]
  exact standing.order

theorem bounded_of_single {queue : Queue Name} (positive : 1 ≤ queue.size)
    (admitted : (clients [queue]).Admits (start [queue]) requests) :
    Bounded [queue] ((clients [queue]).exec (start [queue]) requests) := by
  obtain ⟨admits, same⟩ := sharing_map (next_code [queue]) (begun [queue]) requests
  change (clients [queue]).exec (start [queue]) requests = _ at same
  rw [same]
  intro other member
  rw [List.mem_singleton.mp member, sends_map, taken_map]
  have room := sharing_invariant (Room queue)
    (fun shared client call tuple move room does possible =>
      room.perform (Goes.of_places does) possible)
    (room_begun positive) (admits.mp admitted)
  exact room.bounded

end Interleavings

/-! ## Queues that share their room -/

section Overflow

variable {Client : Type} [DecidableEq Client] [DecidableEq Name] [DecidableEq Data]
  {queues : List (Queue Name)}
  {start shared : Shared Client (Tuple Name Data) (Call Name Data) (Place Name Data)}
  {name : Name}

/-- A client that is free can send a value if it finds any status that is not full. -/
theorem send_reaches (client : Client) (data : Data)
    (reaches : Reaches (places queues) start shared)
    (created : name ∈ queues.map Queue.name) {outcome : Outcome Data}
    (free : shared.control client = .rest outcome) {size length : Int} {empty : Bool} {n : Nat}
    {rest : Multiset (Tuple Name Data)}
    (space : shared.space = .status size length false empty ::ₘ .tail name n ::ₘ rest) :
    ∃ after, Reaches (places queues) start after ∧ after.control client = .rest .sent ∧
      after.space = .tail name (n + 1) ::ₘ .data name (n + 1) data ::ₘ
        .ofLength size (length + 1) ::ₘ rest ∧
      (sends after.log name).length = (sends shared.log name).length + 1 ∧
      taken after.log name = taken shared.log name := by
  let tail : Tuple Name Data := .tail name n
  let call : Call Name Data := .send name data
  let first := shared.perform client ⟨call, .called, .sending name data⟩
  let second := first.perform client
    ⟨call, .took (.status size length false empty), .counted name data size (length + 1)⟩
  let third := second.perform client
    ⟨call, .took tail, .numbered name data size (length + 1) (n + 1)⟩
  let fourth := third.perform client
    ⟨call, .wrote (.ofLength size (length + 1)), .posting name data (n + 1)⟩
  let fifth := fourth.perform client
    ⟨call, .wrote (.data name (n + 1) data), .posted name data (n + 1)⟩
  let sixth := fifth.perform client ⟨call, .wrote (.tail name (n + 1)), .rest .sent⟩
  have first_reached : Reaches (places queues) start first := by
    refine reaches.perform call tail ?_ trivial
    rw [free]
    exact if_pos created
  have second_reached : Reaches (places queues) start second := by
    refine first_reached.perform call (.status size length false empty) ?_ ?_
    · rw [show first.control client = .sending name data from Function.update_self ..]
      rfl
    · change _ ∈ shared.space
      rw [space]
      exact Multiset.mem_cons_self _ _
  have second_space : second.space = tail ::ₘ rest := by
    change shared.space.erase _ = _
    rw [space, Multiset.erase_cons_head]
  have third_reached : Reaches (places queues) start third := by
    refine second_reached.perform call tail ?_ ?_
    · rw [show second.control client = .counted name data size (length + 1) from
        Function.update_self ..]
      exact if_pos rfl
    · change tail ∈ second.space
      rw [second_space]
      exact Multiset.mem_cons_self _ _
  have third_space : third.space = rest := by
    change second.space.erase tail = _
    rw [second_space, Multiset.erase_cons_head]
  have fourth_reached : Reaches (places queues) start fourth := by
    refine third_reached.perform call tail ?_ trivial
    rw [show third.control client = .numbered name data size (length + 1) (n + 1) from
      Function.update_self ..]
    rfl
  have fifth_reached : Reaches (places queues) start fifth := by
    refine fourth_reached.perform call tail ?_ trivial
    rw [show fourth.control client = .posting name data (n + 1) from Function.update_self ..]
    rfl
  have sixth_reached : Reaches (places queues) start sixth := by
    refine fifth_reached.perform call tail ?_ trivial
    rw [show fifth.control client = .posted name data (n + 1) from Function.update_self ..]
    rfl
  refine ⟨sixth, sixth_reached, Function.update_self .., ?_, ?_, ?_⟩
  · change _ ::ₘ _ ::ₘ _ ::ₘ third.space = _
    rw [third_space]
  · have log : sixth.log = shared.log ++ _ ++ _ ++ _ ++ _ ++ _ ++ _ := rfl
    rw [log, sends_concat, sends_concat, sends_concat, sends_concat, sends_concat, sends_concat]
    simp [sent, call, tail]
  · have log : sixth.log = shared.log ++ _ ++ _ ++ _ ++ _ ++ _ ++ _ := rfl
    rw [log, taken_concat, taken_concat, taken_concat, taken_concat, taken_concat, taken_concat]
    simp [takes, tail]

/-- A client can send as many values as a status has room for, whichever queue it is of. -/
theorem sends_reach (client : Client) (data : Data) (count : Nat)
    (reaches : Reaches (places queues) start shared)
    (created : name ∈ queues.map Queue.name) {outcome : Outcome Data}
    (free : shared.control client = .rest outcome) {size length : Int} {full empty : Bool}
    {n : Nat} {rest : Multiset (Tuple Name Data)}
    (space : shared.space = .status size length full empty ::ₘ .tail name n ::ₘ rest)
    (room : count = 0 ∨ full = false ∧ length + count ≤ size) :
    ∃ after, Reaches (places queues) start after ∧
      (sends after.log name).length = (sends shared.log name).length + count ∧
      taken after.log name = taken shared.log name := by
  induction count generalizing shared outcome length full empty n rest with
  | zero => exact ⟨shared, reaches, rfl, rfl⟩
  | succ count ih =>
      obtain ⟨rfl, most⟩ := room.resolve_left (Nat.succ_ne_zero count)
      obtain ⟨next, reached, done, left, more, same⟩ :=
        send_reaches client data reaches created free space
      rw [Multiset.cons_swap (Tuple.data name (n + 1) data),
        Multiset.cons_swap (Tuple.tail name (n + 1))]
        at left
      have room : count = 0 ∨
          (size == length + 1) = false ∧ length + 1 + (count : Int) ≤ size := by
        rcases Nat.eq_zero_or_pos count with none | some
        · exact .inl none
        · have apart : size ≠ length + 1 := by
            push_cast at most
            omega
          refine .inr ⟨by simpa using apart, ?_⟩
          push_cast at most
          omega
      obtain ⟨after, again, all, still⟩ := ih reached done left room
      refine ⟨after, again, ?_, still.trans same⟩
      rw [all, more]
      omega

omit [DecidableEq Data] in
/-- The tuples of a queue among those of all. -/
theorem begun_space {queue : Queue Name} (member : queue ∈ queues) :
    ((queues.flatMap Queue.init : List (Tuple Name Data)) : Multiset (Tuple Name Data)) =
      .status queue.size 0 false true ::ₘ .tail queue.name 0 ::ₘ .head queue.name 1 ::ₘ
        ((queues.erase queue).flatMap Queue.init : List (Tuple Name Data)) := by
  have split : (queues.flatMap Queue.init : List (Tuple Name Data)).Perm
      ((queue :: queues.erase queue).flatMap Queue.init) :=
    (List.perm_cons_erase member).flatMap_right _
  rw [Multiset.coe_eq_coe.mpr split, List.flatMap_cons]
  change Tuple.tail queue.name 0 ::ₘ Tuple.head queue.name 1 ::ₘ
    Tuple.status queue.size 0 false true ::ₘ
      (((queues.erase queue).flatMap Queue.init : List (Tuple Name Data)) :
        Multiset (Tuple Name Data)) = _
  rw [Multiset.cons_swap (Tuple.head queue.name 1), Multiset.cons_swap (Tuple.tail queue.name 0)]

/-- A queue without room takes a value all the same. -/
theorem overflow_small (client : Client) (data : Data) {queue : Queue Name}
    (member : queue ∈ queues) (small : queue.size < 1) :
    ∃ after : Shared Client (Tuple Name Data) (Call Name Data) (Place Name Data),
      Reaches (places queues) (begun queues) after ∧
        taken after.log queue.name + queue.size < (sends after.log queue.name).length := by
  obtain ⟨after, reached, -, -, more, same⟩ :=
    send_reaches client data (.refl (begun queues)) (List.mem_map_of_mem member) rfl
      (begun_space member)
  refine ⟨after, reached, ?_⟩
  rw [more, same]
  change ((0 : Nat) : Int) + _ < ((0 + 1 : Nat) : Int)
  push_cast
  omega

/-- A queue takes one value more than it has room for if another one has at least as much. -/
theorem overflow_two (client : Client) (data : Data) {queue other : Queue Name}
    (member : queue ∈ queues) (also : other ∈ queues) (apart : other ≠ queue)
    (positive : 1 ≤ queue.size) (larger : queue.size ≤ other.size) :
    ∃ after : Shared Client (Tuple Name Data) (Call Name Data) (Place Name Data),
      Reaches (places queues) (begun queues) after ∧
        taken after.log queue.name + queue.size < (sends after.log queue.name).length := by
  have created : queue.name ∈ queues.map Queue.name := List.mem_map_of_mem member
  obtain ⟨next, reached, done, left, more, same⟩ :=
    send_reaches client data (.refl (begun queues)) created rfl (begun_space member)
  rw [begun_space ((List.mem_erase_of_ne apart).mpr also),
    Multiset.cons_swap (Tuple.head queue.name 1),
    Multiset.cons_swap (Tuple.ofLength queue.size (0 + 1)),
    Multiset.cons_swap (Tuple.data queue.name (0 + 1) data),
    Multiset.cons_swap (Tuple.tail queue.name (0 + 1))] at left
  obtain ⟨after, again, all, still⟩ :=
    sends_reach client data queue.size.toNat reached created done left (.inr ⟨rfl, by omega⟩)
  refine ⟨after, again, ?_⟩
  rw [all, more, still, same]
  change ((0 : Nat) : Int) + _ < ((0 + 1 + queue.size.toNat : Nat) : Int)
  push_cast
  omega

end Overflow

/-- Whatever the sizes of the queues, their values keep their order; they have the room that
they should have exactly if there is one queue at most, with room for a value. -/
theorem queues_bounded_iff {Client : Type} [Fintype Client] [DecidableEq Client]
    [DecidableEq Name] [DecidableEq Data] (client : Client) (data : Data)
    {queues : List (Queue Name)} (distinct : (queues.map Queue.name).Nodup) :
    (∀ requests : List (Request Client (Tuple Name Data) (Call Name Data)),
        (clients queues).Admits (start queues) requests →
          Fifo queues ((clients queues).exec (start queues) requests)) ∧
      ((∀ requests : List (Request Client (Tuple Name Data) (Call Name Data)),
          (clients queues).Admits (start queues) requests →
            Fifo queues ((clients queues).exec (start queues) requests) ∧
              Bounded queues ((clients queues).exec (start queues) requests)) ↔
        queues.length ≤ 1 ∧ ∀ queue ∈ queues, 1 ≤ queue.size) := by
  refine ⟨fun _ => fifo_of_admitted distinct, ?_, ?_⟩
  · intro claim
    have within : ∀ queue ∈ queues,
        ∀ after : Shared Client (Tuple Name Data) (Call Name Data) (Place Name Data),
          Reaches (places queues) (begun queues) after →
            ((sends after.log queue.name).length : Int) ≤
              taken after.log queue.name + queue.size := by
      rintro queue member after ⟨requests, allowed, rfl⟩
      obtain ⟨admits, same⟩ := sharing_map (next_code queues) (begun queues) requests
      have bounded := (claim requests (admits.mpr allowed)).2 queue member
      change (clients queues).exec (start queues) requests = _ at same
      rw [same, sends_map, taken_map] at bounded
      exact bounded
    have positive : ∀ queue ∈ queues, 1 ≤ queue.size := by
      intro queue member
      by_contra small
      obtain ⟨after, reached, exceeded⟩ := overflow_small client data member (not_le.mp small)
      exact absurd (within queue member after reached) (not_le.mpr exceeded)
    refine ⟨?_, positive⟩
    by_contra several
    obtain ⟨first, second, rest, rfl⟩ : ∃ first second rest, queues = first :: second :: rest := by
      match queues, several with
      | first :: second :: rest, _ => exact ⟨first, second, rest, rfl⟩
      | [_], several => exact absurd (Nat.le_refl 1) several
      | [], several => exact absurd (Nat.zero_le 1) several
    have apart : second ≠ first := by
      rintro rfl
      rw [List.map_cons, List.map_cons] at distinct
      exact (List.nodup_cons.mp distinct).1 (List.mem_cons_self ..)
    have first_member : first ∈ first :: second :: rest := List.mem_cons_self ..
    have second_member : second ∈ first :: second :: rest :=
      List.mem_cons_of_mem _ (List.mem_cons_self ..)
    rcases Int.le_total first.size second.size with smaller | larger
    · obtain ⟨after, reached, exceeded⟩ := overflow_two client data first_member second_member apart
        (positive first first_member) smaller
      exact absurd (within first first_member after reached) (not_le.mpr exceeded)
    · obtain ⟨after, reached, exceeded⟩ := overflow_two client data second_member first_member
        apart.symm (positive second second_member) larger
      exact absurd (within second second_member after reached) (not_le.mpr exceeded)
  · rintro ⟨one, positive⟩ requests admitted
    refine ⟨fifo_of_admitted distinct admitted, ?_⟩
    match queues, one with
    | [], _ =>
        intro queue member
        cases member
    | [queue], _ =>
        exact bounded_of_single (positive queue (List.mem_singleton_self queue)) admitted

namespace TwoQueues

/-- One queue has the room that it should have, for two clients. -/
theorem queues_bounded_single :
    ([⟨"a", 3⟩].map (Queue.name : Queue String → String)).Nodup ∧
      ∀ requests : List (Request (Fin 2) (Tuple String Nat) (Call String Nat)),
        (clients [⟨"a", 3⟩]).Admits (start [⟨"a", 3⟩]) requests →
          Fifo [⟨"a", 3⟩] ((clients [⟨"a", 3⟩]).exec (start [⟨"a", 3⟩]) requests) ∧
            Bounded [⟨"a", 3⟩] ((clients [⟨"a", 3⟩]).exec (start [⟨"a", 3⟩]) requests) := by
  have distinct : ([⟨"a", 3⟩].map (Queue.name : Queue String → String)).Nodup := by decide
  exact ⟨distinct, (queues_bounded_iff (0 : Fin 2) (0 : Nat) distinct).2.mpr (by decide)⟩

/-- Two queues with room for one value each. -/
def queues : List (Queue String) := [⟨"a", 1⟩, ⟨"b", 1⟩]

/-- A value is sent to one of them with each status. -/
def requests : List (Request (Fin 1) (Tuple String Nat) (Call String Nat)) :=
  let step (tuple : Tuple String Nat) : Request (Fin 1) (Tuple String Nat) (Call String Nat) :=
    ⟨0, .send "a" 7, tuple⟩
  let free : Tuple String Nat := .status 1 0 false true
  [step free, step free, step (.tail "a" 0), step free, step free, step free,
    step free, step free, step (.tail "a" 1)]

theorem queues_bounded_fails :
    ¬ ∀ queues : List (Queue String), (queues.map Queue.name).Nodup →
      ∀ requests : List (Request (Fin 1) (Tuple String Nat) (Call String Nat)),
        (clients queues).Admits (start queues) requests →
          Fifo queues ((clients queues).exec (start queues) requests) ∧
            Bounded queues ((clients queues).exec (start queues) requests) := by
  intro claim
  have bounded := (claim queues (by decide) requests (by decide)).2 ⟨"a", 1⟩ (by decide)
  exact absurd bounded (by decide)

end TwoQueues

end Nise.RubyModels.BoundedQueue
