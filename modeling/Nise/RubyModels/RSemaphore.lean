import Nise.Lib.TupleSpace

/-!
# Semaphores on a tuple space

An `RSemaphore` is a number of equal tuples in a tuple space.  Creating it writes them, `down`
takes one, and `up` writes one.  Nothing says that a client gives back what it has taken, and a
semaphore that is created again, under the same name, gets more tuples.
-/

namespace Nise.RubyModels.RSemaphore

open Nise.Lib

/-- The tuple `[:rsemaphore, name]`. -/
structure Tuple where
  name : String
  deriving DecidableEq, Repr

section Semaphore

variable (name : String)

/-- What `init` writes, one tuple after the other. -/
def init : Nat → Proc Tuple Unit
  | 0 => .ret ()
  | times + 1 => .write ⟨name⟩ (init times)

def down : Proc Tuple Unit := .take (fun tuple => tuple.name == name) fun _ => .ret ()

def up : Proc Tuple Unit := .write ⟨name⟩ (.ret ())

end Semaphore

inductive Call where
  | create (num : Int)
  | down
  | up
  deriving DecidableEq, Repr

abbrev SemaphoreControl := Control Tuple Call Unit

def body (name : String) : Unit → Call → Option (Proc Tuple Unit)
  | (), .create num => some (init name num.toNat)
  | (), .down => some (down name)
  | (), .up => some (up name)

/-- All interleavings of clients of one semaphore. -/
def clients {Client : Type} [DecidableEq Client] (name : String) :
    System (Shared Client Tuple Call SemaphoreControl) (Request Client Tuple Call) :=
  sharing (Control.next (body name))

instance {Client : Type} [DecidableEq Client] (name : String)
    (shared : Shared Client Tuple Call SemaphoreControl) (request : Request Client Tuple Call) :
    Decidable ((clients name).guard shared request) :=
  inferInstanceAs (Decidable ((sharing (Control.next (body name))).guard shared request))

/-- A space with other tuples, before the semaphore is created. -/
def start {Client : Type} (others : Multiset Tuple) :
    Shared Client Tuple Call SemaphoreControl :=
  ⟨others, fun _ => .rest (), []⟩

/-! ## Places in the procedures -/

inductive Place where
  | free
  | creating (num : Int) (left : Nat)
  | downing
  | upping
  deriving DecidableEq, Repr

/-- Creating goes on while there are tuples left to write. -/
def Place.create (num : Int) : Nat → Place
  | 0 => .free
  | left + 1 => .creating num left

section Places

variable (name : String)

/-- The procedure that is left at a place. -/
def code : Place → SemaphoreControl
  | .free => .rest ()
  | .creating num left => .busy (.create num) (init name (left + 1))
  | .downing => .busy .down (down name)
  | .upping => .busy .up (up name)

def places : Behaviour Tuple Call Place
  | .free, .create num, _ => some ⟨.create num, .called, .create num num.toNat⟩
  | .free, .down, _ => some ⟨.down, .called, .downing⟩
  | .free, .up, _ => some ⟨.up, .called, .upping⟩
  | .creating num left, _, _ => some ⟨.create num, .wrote ⟨name⟩, .create num left⟩
  | .downing, _, tuple => if tuple.name == name then some ⟨.down, .took tuple, .free⟩ else none
  | .upping, _, _ => some ⟨.up, .wrote ⟨name⟩, .free⟩

theorem enter_init (num : Int) (left : Nat) :
    Control.enter (Call.create num) (init name left) = code name (.create num left) := by
  cases left with
  | zero => rfl
  | succ left => rfl

/-- The places are cut out of the procedures. -/
theorem next_code (place : Place) (call : Call) (tuple : Tuple) :
    Control.next (body name) (code name place) call tuple =
      (places name place call tuple).map (Move.map (code name)) := by
  cases place with
  | free =>
      cases call with
      | create num =>
          exact congrArg (fun after => some (Move.mk _ _ after)) (enter_init name num num.toNat)
      | down => rfl
      | up => rfl
  | creating num left =>
      exact congrArg (fun after => some (Move.mk _ _ after)) (enter_init name num left)
  | downing => exact Control.next_take fun _ => rfl
  | upping => rfl

end Places

/-- What a client can do at each place, with the tuples written out. -/
inductive Goes (name : String) : Place → Move Tuple Call Place → Prop where
  | create (num : Int) : Goes name .free ⟨.create num, .called, .create num num.toNat⟩
  | write (num : Int) (left : Nat) :
      Goes name (.creating num left) ⟨.create num, .wrote ⟨name⟩, .create num left⟩
  | callDown : Goes name .free ⟨.down, .called, .downing⟩
  | takeDown : Goes name .downing ⟨.down, .took ⟨name⟩, .free⟩
  | callUp : Goes name .free ⟨.up, .called, .upping⟩
  | writeUp : Goes name .upping ⟨.up, .wrote ⟨name⟩, .free⟩

theorem Goes.of_places {name : String} {place : Place} {call : Call} {tuple : Tuple}
    {move : Move Tuple Call Place} (does : places name place call tuple = some move) :
    Goes name place move := by
  cases place with
  | free =>
      cases call with
      | create num => cases does; exact .create num
      | down => cases does; exact .callDown
      | up => cases does; exact .callUp
  | creating num left => cases does; exact .write num left
  | downing =>
      obtain ⟨accepted, same⟩ := Option.ite_none_right_eq_some.mp does
      cases same
      obtain ⟨tupleName⟩ := tuple
      rw [beq_iff_eq] at accepted
      cases accepted
      exact .takeDown
  | upping => cases does; exact .writeUp

/-! ## The limit -/

def Call.creates : Call → Bool
  | .create _ => true
  | _ => false

section Counts

variable {Client : Type} (name : String) (acts : List (Act Client Tuple Call))

/-- The tuples that creating has written. -/
def created : Nat :=
  acts.countP fun act => act.call.creates = true ∧ act.action = .wrote ⟨name⟩

def taken : Nat := acts.countP fun act => act.action = .took ⟨name⟩

def returned : Nat := acts.countP fun act => act.call = .up ∧ act.action = .wrote ⟨name⟩

variable [DecidableEq Client] (client : Client)

def takenBy : Nat := acts.countP fun act => act.client = client ∧ act.action = .took ⟨name⟩

def returnedBy : Nat :=
  acts.countP fun act => act.client = client ∧ act.call = .up ∧ act.action = .wrote ⟨name⟩

end Counts

section Invariant

variable {Client : Type} [DecidableEq Client] {name : String}

/-- The tuples that are there and those that have been taken have been written. -/
def Balanced (name : String) {Place : Type} (shared : Shared Client Tuple Call Place) : Prop :=
  shared.space.count ⟨name⟩ + taken name shared.acts =
    created name shared.acts + returned name shared.acts

/-- Every writing creates or gives back. -/
theorem Goes.writes {place : Place} {move : Move Tuple Call Place} (goes : Goes name place move) :
    (if move.action = .wrote ⟨name⟩ then 1 else 0) =
      (if move.call.creates = true ∧ move.action = .wrote ⟨name⟩ then 1 else 0) +
        if move.call = .up ∧ move.action = .wrote ⟨name⟩ then 1 else 0 := by
  cases goes with
  | create num => simp
  | write num left => simp [Call.creates]
  | callDown => simp
  | takeDown => simp
  | callUp => simp
  | writeUp => simp [Call.creates]

theorem Balanced.perform {shared : Shared Client Tuple Call Place}
    (balanced : Balanced name shared) {client : Client} {move : Move Tuple Call Place}
    (goes : Goes name (shared.control client) move)
    (possible : move.action.Possible shared.space) :
    Balanced name (shared.perform client move) := by
  have space := move.action.count_apply possible ⟨name⟩
  have writes := goes.writes
  unfold Balanced taken created returned at balanced ⊢
  rw [Shared.countP_acts_perform, Shared.countP_acts_perform, Shared.countP_acts_perform]
  change (move.action.apply shared.space).count ⟨name⟩ + _ = _
  dsimp only
  omega

end Invariant

section Limit

variable {Client : Type} [DecidableEq Client] {name : String}

/-- What the semaphore keeps: a client that waits in `down` can go on as long as fewer tuples are
taken than there are, and clients that give back no more than they have taken hold no more than
have been created. -/
structure Limits [Fintype Client] (name : String)
    (shared : Shared Client Tuple Call SemaphoreControl) : Prop where
  balanced : Balanced name shared
  waits : ∀ client proc, shared.control client = .busy .down proc →
    ((∃ call tuple, (clients name).guard shared ⟨client, call, tuple⟩) ↔
      taken name shared.acts < created name shared.acts + returned name shared.acts)
  holds : (∀ client, returnedBy name shared.acts client ≤ takenBy name shared.acts client) →
    ∑ client, (takenBy name shared.acts client - returnedBy name shared.acts client) ≤
      created name shared.acts

theorem code_eq_down {place : Place} {proc : Proc Tuple Unit}
    (same : code name place = .busy .down proc) : place = .downing := by
  cases place with
  | downing => rfl
  | free => cases same
  | creating num left => cases same
  | upping => cases same

/-- A client that waits finds the tuple if it is there. -/
theorem goes_on_iff {shared : Shared Client Tuple Call SemaphoreControl} {client : Client}
    (waits : shared.control client = .busy .down (down name)) :
    (∃ call tuple, (clients name).guard shared ⟨client, call, tuple⟩) ↔
      0 < shared.space.count ⟨name⟩ := by
  rw [Multiset.count_pos]
  constructor
  · rintro ⟨call, tuple, move, does, possible⟩
    dsimp only at does
    rw [waits] at does
    obtain ⟨accepted, same⟩ := Option.ite_none_right_eq_some.mp does
    cases same
    obtain ⟨tupleName⟩ := tuple
    rw [beq_iff_eq] at accepted
    cases accepted
    exact possible
  · intro member
    refine ⟨.down, ⟨name⟩, ⟨.down, .took ⟨name⟩, .rest ()⟩, ?_, member⟩
    dsimp only
    rw [waits]
    exact if_pos (beq_self_eq_true name)

theorem limits_of_balanced [Fintype Client] {shared : Shared Client Tuple Call Place}
    (balanced : Balanced name shared) : Limits name (shared.map (code name)) := by
  have acts := shared.acts_map (code name)
  have whole : Balanced name (shared.map (code name)) := by
    unfold Balanced
    rw [acts]
    exact balanced
  refine ⟨whole, ?_, ?_⟩
  · intro client proc busy
    have at_down : shared.control client = .downing := code_eq_down busy
    have waits : (shared.map (code name)).control client = .busy .down (down name) :=
      congrArg (code name) at_down
    rw [goes_on_iff waits]
    unfold Balanced at whole
    omega
  · intro gives
    have takes := sum_countP_acts (fun act => act.action = .took ⟨name⟩)
      (shared.map (code name)).acts
    have returns := sum_countP_acts (fun act => act.call = .up ∧ act.action = .wrote ⟨name⟩)
      (shared.map (code name)).acts
    have shares := Finset.sum_tsub_distrib Finset.univ fun client _ => gives client
    have all : ∑ client, takenBy name (shared.map (code name)).acts client =
        taken name (shared.map (code name)).acts := takes
    have back : ∑ client, returnedBy name (shared.map (code name)).acts client =
        returned name (shared.map (code name)).acts := returns
    rw [shares, all, back]
    unfold Balanced at whole
    omega

/-- In all interleavings of any number of clients, however often the semaphore is created and
whoever calls `up`, the semaphore keeps its limit. -/
theorem semaphore_limits [Fintype Client] {others : Multiset Tuple}
    (foreign : ⟨name⟩ ∉ others) {requests : List (Request Client Tuple Call)}
    (admitted : (clients name).Admits (start others) requests) :
    Limits name ((clients name).exec (start others) requests) := by
  let begun : Shared Client Tuple Call Place := ⟨others, fun _ => .free, []⟩
  obtain ⟨admits, same⟩ := sharing_map (next_code name) begun requests
  have initially : Balanced name begun := Multiset.count_eq_zero.mpr foreign
  have balanced := sharing_invariant (Balanced name)
    (fun shared client call tuple move balanced does possible =>
      balanced.perform (Goes.of_places does) possible)
    initially (admits.mp admitted)
  have limits := limits_of_balanced balanced
  rw [← same] at limits
  exact limits

namespace OnePrinter

/-- One tuple is created and taken, and a second client waits. -/
def requests : List (Request Bool Tuple Call) :=
  [⟨false, .create 1, ⟨""⟩⟩, ⟨false, .up, ⟨""⟩⟩, ⟨false, .down, ⟨""⟩⟩,
    ⟨false, .up, ⟨"printer"⟩⟩, ⟨true, .down, ⟨""⟩⟩]

theorem semaphore_limits_requests :
    Limits "printer" ((clients "printer").exec (start {⟨"scanner"⟩}) requests) :=
  semaphore_limits (by decide) (by decide)

end OnePrinter

end Limit

end Nise.RubyModels.RSemaphore
