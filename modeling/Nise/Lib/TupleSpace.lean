import Mathlib.Algebra.BigOperators.Group.Finset.Piecewise
import Mathlib.Algebra.BigOperators.Group.Multiset.Basic
import Mathlib.Algebra.Order.BigOperators.Group.Finset
import Mathlib.Algebra.Order.BigOperators.Group.Multiset
import Mathlib.Algebra.BigOperators.Ring.Finset
import Mathlib.Tactic.Abel
import Nise.Lib.Run

/-!
# Clients of a tuple space

A tuple space is a bag of tuples that clients share.  A client takes a tuple that matches a
pattern, reads one and leaves it where it is, or writes one.  Each of these is atomic, and the
operations of the clients are interleaved in any order; a client that finds no tuple to take or
to read waits.

Procedures are written as programs over these operations.  Safety is proved for programs that
are cut into named places, with a weight for each place and each tuple: what no operation
changes is the same in all states.
-/

namespace Nise.Lib

/-! ## Procedures -/

/-- A procedure, up to its next operation. -/
inductive Proc (Tuple Result : Type) where
  | ret (result : Result)
  | take (accepts : Tuple → Bool) (next : Tuple → Proc Tuple Result)
  | read (accepts : Tuple → Bool) (next : Tuple → Proc Tuple Result)
  | write (tuple : Tuple) (next : Proc Tuple Result)

namespace Proc

variable {Tuple First Second : Type}

def bind (next : First → Proc Tuple Second) : Proc Tuple First → Proc Tuple Second
  | .ret result => next result
  | .take accepts rest => .take accepts fun tuple => bind next (rest tuple)
  | .read accepts rest => .read accepts fun tuple => bind next (rest tuple)
  | .write tuple rest => .write tuple (bind next rest)

instance : Monad (Proc Tuple) where
  pure := .ret
  bind first next := first.bind next

end Proc

/-- An operation, or the beginning of a call. -/
inductive Action (Tuple : Type) where
  | called
  | took (tuple : Tuple)
  | saw (tuple : Tuple)
  | wrote (tuple : Tuple)
  deriving DecidableEq, Repr

/-- What a client does next: in which call, and where it is after that. -/
structure Move (Tuple Call Control : Type) where
  call : Call
  action : Action Tuple
  control : Control
  deriving DecidableEq, Repr

/-- What a client can do next, given the call that it wants to make if it is free to, and the
tuple that it finds if it looks for one. -/
abbrev Behaviour (Tuple Call Control : Type) :=
  Control → Call → Tuple → Option (Move Tuple Call Control)

/-- Where a client is: between two calls, or in one. -/
inductive Control (Tuple Call Rest : Type) where
  | rest (state : Rest)
  | busy (call : Call) (proc : Proc Tuple Rest)

namespace Control

variable {Tuple Call Rest : Type}

def enter (call : Call) : Proc Tuple Rest → Control Tuple Call Rest
  | .ret state => .rest state
  | proc => .busy call proc

/-- The behaviour of clients that call procedures, where `body` says which calls a client may
make and what they do. -/
def next (body : Rest → Call → Option (Proc Tuple Rest)) :
    Behaviour Tuple Call (Control Tuple Call Rest)
  | .rest state, call, _ => (body state call).map fun proc => ⟨call, .called, enter call proc⟩
  | .busy call (.take accepts after), _, tuple =>
      if accepts tuple then some ⟨call, .took tuple, enter call (after tuple)⟩ else none
  | .busy call (.read accepts after), _, tuple =>
      if accepts tuple then some ⟨call, .saw tuple, enter call (after tuple)⟩ else none
  | .busy call (.write tuple after), _, _ => some ⟨call, .wrote tuple, enter call after⟩
  | .busy _ (.ret _), _, _ => none

end Control

namespace Action

variable {Tuple : Type}

def Possible (space : Multiset Tuple) : Action Tuple → Prop
  | .took tuple => tuple ∈ space
  | .saw tuple => tuple ∈ space
  | .called => True
  | .wrote _ => True

instance [DecidableEq Tuple] (space : Multiset Tuple) :
    DecidablePred (Possible space)
  | .took tuple => inferInstanceAs (Decidable (tuple ∈ space))
  | .saw tuple => inferInstanceAs (Decidable (tuple ∈ space))
  | .called => isTrue trivial
  | .wrote _ => isTrue trivial

def apply [DecidableEq Tuple] (space : Multiset Tuple) : Action Tuple → Multiset Tuple
  | .took tuple => space.erase tuple
  | .wrote tuple => tuple ::ₘ space
  | .called => space
  | .saw _ => space

variable {Weight : Type*} [AddCommGroup Weight] (weight : Tuple → Weight)

/-- The weight that an operation brings into the space. -/
def gain : Action Tuple → Weight
  | .wrote tuple => weight tuple
  | _ => 0

/-- The weight that an operation takes out of the space. -/
def loss : Action Tuple → Weight
  | .took tuple => weight tuple
  | _ => 0

theorem sum_apply [DecidableEq Tuple] {space : Multiset Tuple} {action : Action Tuple}
    (possible : action.Possible space) :
    ((action.apply space).map weight).sum + action.loss weight =
      (space.map weight).sum + action.gain weight := by
  cases action with
  | took tuple =>
      have whole := congrArg (fun space => (Multiset.map weight space).sum)
        (Multiset.cons_erase possible)
      simp only [Multiset.map_cons, Multiset.sum_cons] at whole
      simp only [apply, loss, gain, add_zero]
      rw [add_comm]
      exact whole
  | wrote tuple =>
      simp only [apply, loss, gain, add_zero, Multiset.map_cons, Multiset.sum_cons]
      exact add_comm _ _
  | called => rfl
  | saw tuple => rfl

theorem count_apply [DecidableEq Tuple] {space : Multiset Tuple} {action : Action Tuple}
    (possible : action.Possible space) (tuple : Tuple) :
    (action.apply space).count tuple + (if action = .took tuple then 1 else 0) =
      space.count tuple + if action = .wrote tuple then 1 else 0 := by
  cases action with
  | called => rfl
  | saw other => rfl
  | wrote other =>
      have written : (wrote other = wrote tuple) ↔ tuple = other :=
        ⟨fun same => (wrote.inj same).symm, fun same => congrArg wrote same.symm⟩
      rw [apply, Multiset.count_cons, if_neg (fun equal : wrote other = took tuple => nomatch equal),
        Nat.add_zero]
      exact congrArg (space.count tuple + ·) (if_congr written rfl rfl).symm
  | took other =>
      rw [apply, if_neg (fun equal : took other = wrote tuple => nomatch equal), Nat.add_zero]
      by_cases same : other = tuple
      · rw [same, Multiset.count_erase_self, if_pos rfl]
        exact Nat.succ_pred_eq_of_pos (Multiset.count_pos.mpr (same ▸ possible))
      · rw [Multiset.count_erase_of_ne fun equal => same equal.symm,
          if_neg fun equal => same (took.inj equal), Nat.add_zero]

end Action

/-! ## Interleavings -/

/-- The space, where the clients are, and what they have done so far. -/
structure Shared (Client Tuple Call Control : Type) where
  space : Multiset Tuple
  control : Client → Control
  log : List (Client × Move Tuple Call Control)

/-- The next client, with the call that it makes or the tuple that it finds. -/
structure Request (Client Tuple Call : Type) where
  client : Client
  call : Call
  tuple : Tuple
  deriving DecidableEq, Repr

section Sharing

variable {Client Tuple Call Control : Type} [DecidableEq Client] [DecidableEq Tuple]

def Shared.perform (shared : Shared Client Tuple Call Control) (client : Client)
    (move : Move Tuple Call Control) : Shared Client Tuple Call Control where
  space := move.action.apply shared.space
  control := Function.update shared.control client move.control
  log := shared.log ++ [(client, move)]

theorem Shared.control_perform_self (shared : Shared Client Tuple Call Control)
    (client : Client) (move : Move Tuple Call Control) :
    (shared.perform client move).control client = move.control := by
  unfold Shared.perform
  exact Function.update_self _ _ _

theorem Shared.control_perform_of_ne (shared : Shared Client Tuple Call Control)
    {client other : Client} (move : Move Tuple Call Control) (apart : other ≠ client) :
    (shared.perform client move).control other = shared.control other := by
  unfold Shared.perform
  exact Function.update_of_ne apart _ _

/-- All interleavings of clients with a behaviour. -/
def sharing (behaviour : Behaviour Tuple Call Control) :
    System (Shared Client Tuple Call Control) (Request Client Tuple Call) where
  step shared request :=
    match behaviour (shared.control request.client) request.call request.tuple with
    | some move => shared.perform request.client move
    | none => shared
  guard shared request :=
    ∃ move ∈ behaviour (shared.control request.client) request.call request.tuple,
      move.action.Possible shared.space

instance (behaviour : Behaviour Tuple Call Control) (shared : Shared Client Tuple Call Control)
    (request : Request Client Tuple Call) :
    Decidable ((sharing behaviour).guard shared request) :=
  inferInstanceAs (Decidable (∃ move ∈ behaviour (shared.control request.client) request.call
    request.tuple, move.action.Possible shared.space))

variable {behaviour : Behaviour Tuple Call Control} {start : Shared Client Tuple Call Control}
  {requests : List (Request Client Tuple Call)}

theorem sharing_step {shared : Shared Client Tuple Call Control}
    {request : Request Client Tuple Call} {move : Move Tuple Call Control}
    (does : behaviour (shared.control request.client) request.call request.tuple = some move) :
    (sharing behaviour).step shared request = shared.perform request.client move := by
  change (match behaviour (shared.control request.client) request.call request.tuple with
    | some move => shared.perform request.client move
    | none => shared) = _
  rw [does]

/-- What every operation of every client keeps, every interleaving keeps. -/
theorem sharing_invariant (Inv : Shared Client Tuple Call Control → Prop)
    (preserved : ∀ shared client call tuple move, Inv shared →
      behaviour (shared.control client) call tuple = some move →
        move.action.Possible shared.space → Inv (shared.perform client move))
    (initially : Inv start) (admitted : (sharing behaviour).Admits start requests) :
    Inv ((sharing behaviour).exec start requests) := by
  refine (sharing behaviour).invariant ?_ initially admitted
  rintro shared request before ⟨move, does, possible⟩
  rw [sharing_step does]
  exact preserved shared request.client request.call request.tuple move before does possible

/-- Some interleaving leads from one state to another. -/
def Reaches (behaviour : Behaviour Tuple Call Control)
    (start after : Shared Client Tuple Call Control) : Prop :=
  ∃ requests, (sharing behaviour).Admits start requests ∧
    (sharing behaviour).exec start requests = after

theorem Reaches.refl (start : Shared Client Tuple Call Control) :
    Reaches behaviour start start := ⟨[], trivial, rfl⟩

/-- One more operation. -/
theorem Reaches.perform {shared : Shared Client Tuple Call Control}
    (reaches : Reaches behaviour start shared) {client : Client} (call : Call) (tuple : Tuple)
    {move : Move Tuple Call Control}
    (does : behaviour (shared.control client) call tuple = some move)
    (possible : move.action.Possible shared.space) :
    Reaches behaviour start (shared.perform client move) := by
  obtain ⟨requests, admitted, rfl⟩ := reaches
  let request : Request Client Tuple Call := ⟨client, call, tuple⟩
  refine ⟨requests ++ [request], ?_, ?_⟩
  · rw [System.admits_append]
    exact ⟨admitted, ⟨move, does, possible⟩, trivial⟩
  · unfold System.exec
    rw [List.foldl_append]
    exact sharing_step does

/-! ## Conservation -/

section Conservation

variable [Fintype Client] {Weight : Type*} [AddCommGroup Weight]

/-- The weight of all tuples and of all clients. -/
def Shared.total (tuples : Tuple → Weight) (clients : Client → Control → Weight)
    (shared : Shared Client Tuple Call Control) : Weight :=
  (shared.space.map tuples).sum + ∑ client, clients client (shared.control client)

theorem Shared.total_perform {tuples : Tuple → Weight} {clients : Client → Control → Weight}
    {shared : Shared Client Tuple Call Control} {client : Client}
    {move : Move Tuple Call Control} {change : Weight}
    (possible : move.action.Possible shared.space)
    (balance : clients client move.control + move.action.gain tuples =
      clients client (shared.control client) + move.action.loss tuples + change) :
    (shared.perform client move).total tuples clients =
      shared.total tuples clients + change := by
  have sum := move.action.sum_apply tuples possible
  let before := fun client => clients client (shared.control client)
  have after : ∀ other, clients other (Function.update shared.control client move.control other) =
      Function.update before client (clients client move.control) other := fun other =>
    Function.apply_update clients shared.control client move.control other
  have others : ∑ other, before other =
      before client + ∑ other ∈ Finset.univ \ {client}, before other := by
    rw [← Finset.sum_update_of_mem (Finset.mem_univ client), Function.update_eq_self]
  have space : ((move.action.apply shared.space).map tuples).sum =
      (shared.space.map tuples).sum + move.action.gain tuples - move.action.loss tuples :=
    eq_sub_of_add_eq sum
  have own : clients client move.control =
      before client + move.action.loss tuples + change - move.action.gain tuples :=
    eq_sub_of_add_eq balance
  unfold Shared.total Shared.perform
  simp only [after]
  rw [Finset.sum_update_of_mem (Finset.mem_univ client), others, space, own]
  abel

end Conservation

/-! ## Places -/

section Places

variable {Place : Type}

def Move.map (code : Place → Control) (move : Move Tuple Call Place) :
    Move Tuple Call Control := ⟨move.call, move.action, code move.control⟩

def Shared.map (code : Place → Control) (shared : Shared Client Tuple Call Place) :
    Shared Client Tuple Call Control where
  space := shared.space
  control client := code (shared.control client)
  log := shared.log.map fun entry => (entry.1, entry.2.map code)

theorem Shared.map_perform (code : Place → Control) (shared : Shared Client Tuple Call Place)
    (client : Client) (move : Move Tuple Call Place) :
    (shared.map code).perform client (move.map code) = (shared.perform client move).map code := by
  unfold Shared.perform Shared.map
  simp only [List.map_append, List.map_singleton]
  congr 1
  funext other
  exact (Function.apply_update (fun _ => code) shared.control client move.control other).symm

omit [DecidableEq Tuple] in
theorem Control.next_take {Rest : Type} {body : Rest → Call → Option (Proc Tuple Rest)}
    {code : Place → Nise.Lib.Control Tuple Call Rest} {own call : Call}
    {accepts : Tuple → Bool} {after : Tuple → Proc Tuple Rest} {tuple : Tuple} {place : Place}
    (same : accepts tuple = true → enter own (after tuple) = code place) :
    next body (.busy own (.take accepts after)) call tuple =
      (if accepts tuple then some (⟨own, .took tuple, place⟩ : Move Tuple Call Place)
        else none).map (Move.map code) := by
  dsimp only [next]
  by_cases accepted : accepts tuple = true
  · rw [if_pos accepted, if_pos accepted, same accepted]
    rfl
  · rw [if_neg accepted, if_neg accepted]
    rfl

omit [DecidableEq Tuple] in
theorem Control.next_read {Rest : Type} {body : Rest → Call → Option (Proc Tuple Rest)}
    {code : Place → Nise.Lib.Control Tuple Call Rest} {own call : Call}
    {accepts : Tuple → Bool} {after : Tuple → Proc Tuple Rest} {tuple : Tuple} {place : Place}
    (same : accepts tuple = true → enter own (after tuple) = code place) :
    next body (.busy own (.read accepts after)) call tuple =
      (if accepts tuple then some (⟨own, .saw tuple, place⟩ : Move Tuple Call Place)
        else none).map (Move.map code) := by
  dsimp only [next]
  by_cases accepted : accepts tuple = true
  · rw [if_pos accepted, if_pos accepted, same accepted]
    rfl
  · rw [if_neg accepted, if_neg accepted]
    rfl

section Cut

variable {code : Place → Control} {places : Behaviour Tuple Call Place}
  (cut : ∀ place call tuple,
    behaviour (code place) call tuple = (places place call tuple).map (Move.map code))

include cut

theorem step_map (shared : Shared Client Tuple Call Place) (request : Request Client Tuple Call) :
    (sharing behaviour).step (shared.map code) request =
      ((sharing places).step shared request).map code := by
  have cutting : behaviour ((shared.map code).control request.client) request.call
      request.tuple = _ := cut (shared.control request.client) request.call request.tuple
  cases goes : places (shared.control request.client) request.call request.tuple with
  | some move =>
      rw [goes] at cutting
      rw [sharing_step goes, sharing_step cutting, Shared.map_perform]
  | none =>
      rw [goes] at cutting
      unfold sharing
      dsimp only
      rw [cutting, goes]
      rfl

theorem guard_map (shared : Shared Client Tuple Call Place) (request : Request Client Tuple Call) :
    (sharing behaviour).guard (shared.map code) request ↔
      (sharing places).guard shared request := by
  have cutting : behaviour ((shared.map code).control request.client) request.call
      request.tuple = _ := cut (shared.control request.client) request.call request.tuple
  unfold sharing
  dsimp only
  rw [cutting]
  constructor
  · rintro ⟨move, does, possible⟩
    obtain ⟨place, goes, rfl⟩ := Option.map_eq_some_iff.mp does
    exact ⟨place, goes, possible⟩
  · rintro ⟨place, goes, possible⟩
    exact ⟨place.map code, Option.mem_map_of_mem _ goes, possible⟩

/-- Clients whose procedures are cut into places do what the places say. -/
theorem sharing_map (start : Shared Client Tuple Call Place)
    (requests : List (Request Client Tuple Call)) :
    ((sharing behaviour).Admits (start.map code) requests ↔
        (sharing places).Admits start requests) ∧
      (sharing behaviour).exec (start.map code) requests =
        ((sharing places).exec start requests).map code := by
  induction requests generalizing start with
  | nil => exact ⟨Iff.rfl, rfl⟩
  | cons request rest ih =>
      obtain ⟨admits, exec⟩ := ih ((sharing places).step start request)
      rw [System.exec_cons, System.exec_cons, System.admits_cons, System.admits_cons,
        step_map cut, guard_map cut, admits]
      exact ⟨Iff.rfl, exec⟩

theorem Reaches.map {start after : Shared Client Tuple Call Place}
    (reaches : Reaches places start after) :
    Reaches behaviour (start.map code) (after.map code) := by
  obtain ⟨requests, admitted, rfl⟩ := reaches
  obtain ⟨admits, exec⟩ := sharing_map cut start requests
  exact ⟨requests, admits.mpr admitted, exec⟩

end Cut

end Places

end Sharing

/-! ## Histories -/

/-- An operation of a client in a call, without where the client is after it. -/
structure Act (Client Tuple Call : Type) where
  client : Client
  call : Call
  action : Action Tuple
  deriving DecidableEq, Repr

section Histories

variable {Client Tuple Call Control Place : Type}

def Shared.acts (shared : Shared Client Tuple Call Control) : List (Act Client Tuple Call) :=
  shared.log.map fun entry => ⟨entry.1, entry.2.call, entry.2.action⟩

theorem Shared.acts_perform [DecidableEq Client] [DecidableEq Tuple]
    (shared : Shared Client Tuple Call Control) (client : Client)
    (move : Move Tuple Call Control) :
    (shared.perform client move).acts = shared.acts ++ [⟨client, move.call, move.action⟩] := by
  unfold Shared.acts Shared.perform
  rw [List.map_append, List.map_singleton]

/-- Cutting the procedures into places does not change what has been done. -/
theorem Shared.acts_map (code : Place → Control) (shared : Shared Client Tuple Call Place) :
    (shared.map code).acts = shared.acts := by
  unfold Shared.acts Shared.map
  rw [List.map_map]
  rfl

/-- Counting what has been done, one operation later. -/
theorem Shared.countP_acts_perform [DecidableEq Client] [DecidableEq Tuple]
    (counts : Act Client Tuple Call → Prop) [DecidablePred counts]
    (shared : Shared Client Tuple Call Control) (client : Client)
    (move : Move Tuple Call Control) :
    (shared.perform client move).acts.countP counts =
      shared.acts.countP counts + if counts ⟨client, move.call, move.action⟩ then 1 else 0 := by
  rw [Shared.acts_perform, List.countP_append, List.countP_singleton]
  simp only [decide_eq_true_eq]

/-- All that has been done has been done by one of the clients. -/
theorem sum_countP_acts [DecidableEq Client] [Fintype Client]
    (counts : Act Client Tuple Call → Prop) [DecidablePred counts]
    (acts : List (Act Client Tuple Call)) :
    ∑ client, acts.countP (fun act => act.client = client ∧ counts act) =
      acts.countP counts := by
  induction acts with
  | nil => exact Finset.sum_eq_zero fun _ _ => rfl
  | cons act acts ih =>
      simp only [List.countP_cons, Finset.sum_add_distrib, ih, decide_eq_true_eq]
      refine congrArg (acts.countP counts + ·) ?_
      by_cases counted : counts act
      · simp only [counted, and_true, if_true]
        rw [Finset.sum_ite_eq, if_pos (Finset.mem_univ _)]
      · simp only [counted, and_false, if_false]
        exact Finset.sum_eq_zero fun _ _ => rfl

end Histories

/-! ## Shares of a weight -/

section Shares

variable {Client Tuple Call Control : Type} [Fintype Client] {tuples : Tuple → Int}
  {clients : Client → Control → Int} {shared : Shared Client Tuple Call Control}

omit [Fintype Client] in
theorem sum_space_nonneg (light : ∀ tuple, 0 ≤ tuples tuple) (space : Multiset Tuple) :
    0 ≤ (space.map tuples).sum := by
  refine Multiset.sum_nonneg fun weight member => ?_
  obtain ⟨tuple, -, rfl⟩ := Multiset.mem_map.mp member
  exact light tuple

/-- A tuple and a client have no more than there is. -/
theorem Shared.tuple_client_le_total (light : ∀ tuple, 0 ≤ tuples tuple)
    (lightly : ∀ client control, 0 ≤ clients client control) {tuple : Tuple}
    (member : tuple ∈ shared.space) (client : Client) :
    tuples tuple + clients client (shared.control client) ≤ shared.total tuples clients := by
  obtain ⟨rest, split⟩ := Multiset.exists_cons_of_mem member
  have spare := sum_space_nonneg light rest
  have one := Finset.single_le_sum (fun other _ => lightly other (shared.control other))
    (Finset.mem_univ client)
  unfold Shared.total
  rw [split, Multiset.map_cons, Multiset.sum_cons]
  omega

/-- Two clients have no more than there is. -/
theorem Shared.two_clients_le_total (light : ∀ tuple, 0 ≤ tuples tuple)
    (lightly : ∀ client control, 0 ≤ clients client control) {first second : Client}
    (apart : first ≠ second) :
    clients first (shared.control first) + clients second (shared.control second) ≤
      shared.total tuples clients := by
  classical
  have space := sum_space_nonneg light shared.space
  have pair := Finset.sum_le_sum_of_subset_of_nonneg (Finset.subset_univ {first, second})
    (fun other _ _ => lightly other (shared.control other))
  rw [Finset.sum_pair apart] at pair
  unfold Shared.total
  omega

/-- With one token in all, the tuple that has it has all of what goes with the token. -/
theorem Shared.value_of_tuple {values : Tuple → Int} {client_values : Client → Control → Int}
    (light : ∀ tuple, 0 ≤ tuples tuple) (lightly : ∀ client control, 0 ≤ clients client control)
    (goes : ∀ tuple, tuples tuple = 0 → values tuple = 0)
    (goes_too : ∀ client control, clients client control = 0 → client_values client control = 0)
    (one : shared.total tuples clients = 1) {tuple : Tuple} (member : tuple ∈ shared.space)
    (token : tuples tuple = 1) : shared.total values client_values = values tuple := by
  have none : ∀ client, client_values client (shared.control client) = 0 := by
    intro client
    have share := shared.tuple_client_le_total light lightly member client
    have := lightly client (shared.control client)
    exact goes_too client _ (by omega)
  obtain ⟨rest, split⟩ := Multiset.exists_cons_of_mem member
  have empty : ∀ other ∈ rest, values other = 0 := by
    intro other among
    obtain ⟨less, again⟩ := Multiset.exists_cons_of_mem among
    have clients_nonneg := Finset.sum_nonneg fun client (_ : client ∈ Finset.univ) =>
      lightly client (shared.control client)
    have less_nonneg := sum_space_nonneg light less
    have := light other
    unfold Shared.total at one
    rw [split, again, Multiset.map_cons, Multiset.map_cons, Multiset.sum_cons,
      Multiset.sum_cons] at one
    exact goes other (by omega)
  unfold Shared.total
  rw [split, Multiset.map_cons, Multiset.sum_cons, Finset.sum_eq_zero fun client _ => none client,
    Multiset.sum_eq_zero fun value found => by
      obtain ⟨other, among, rfl⟩ := Multiset.mem_map.mp found
      exact empty other among]
  omega

/-- The same for the client that has it. -/
theorem Shared.value_of_client {values : Tuple → Int} {client_values : Client → Control → Int}
    (light : ∀ tuple, 0 ≤ tuples tuple) (lightly : ∀ client control, 0 ≤ clients client control)
    (goes : ∀ tuple, tuples tuple = 0 → values tuple = 0)
    (goes_too : ∀ client control, clients client control = 0 → client_values client control = 0)
    (one : shared.total tuples clients = 1) {client : Client}
    (token : clients client (shared.control client) = 1) :
    shared.total values client_values = client_values client (shared.control client) := by
  have none : ∀ tuple ∈ shared.space, values tuple = 0 := by
    intro tuple member
    have share := shared.tuple_client_le_total light lightly member client
    have := light tuple
    exact goes tuple (by omega)
  have others : ∀ other ∈ Finset.univ, other ≠ client →
      client_values other (shared.control other) = 0 := by
    intro other _ apart
    have share := shared.two_clients_le_total light lightly apart
    have := lightly other (shared.control other)
    exact goes_too other _ (by omega)
  unfold Shared.total
  rw [Finset.sum_eq_single_of_mem client (Finset.mem_univ client) others,
    Multiset.sum_eq_zero fun value found => by
      obtain ⟨tuple, member, rfl⟩ := Multiset.mem_map.mp found
      exact none tuple member]
  omega

/-- What every token brings at most, all of them bring at most. -/
theorem Shared.total_le {values : Tuple → Int} {client_values : Client → Control → Int}
    {bound : Int} (brings : ∀ tuple ∈ shared.space, values tuple ≤ bound * tuples tuple)
    (brings_too : ∀ client, client_values client (shared.control client) ≤
      bound * clients client (shared.control client)) :
    shared.total values client_values ≤ bound * shared.total tuples clients := by
  have space : (shared.space.map values).sum ≤ bound * (shared.space.map tuples).sum := by
    rw [← Multiset.sum_map_mul_left]
    exact Multiset.sum_map_le_sum_map values (fun tuple => bound * tuples tuple) brings
  have all := Finset.sum_le_sum fun client (_ : client ∈ Finset.univ) => brings_too client
  rw [← Finset.mul_sum] at all
  unfold Shared.total
  rw [mul_add]
  omega

theorem Shared.space_le_total (lightly : ∀ client control, 0 ≤ clients client control) :
    (shared.space.map tuples).sum ≤ shared.total tuples clients := by
  have others := Finset.sum_nonneg fun client (_ : client ∈ Finset.univ) =>
    lightly client (shared.control client)
  unfold Shared.total
  omega

end Shares

end Nise.Lib
