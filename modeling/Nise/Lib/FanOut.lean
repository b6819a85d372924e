import Mathlib.Algebra.BigOperators.Group.List.Basic
import Mathlib.Algebra.Order.BigOperators.Group.List
import Mathlib.Algebra.Order.Ring.Int
import Mathlib.Data.List.Nodup
import Nise.Lib.Run

/-!
# Relaying a message over one link

At each node a message is sent to the destinations near the node, and, unless it has
been relayed before, to other nodes.  Nodes handle the copies in flight in any order.
What a copy still owes to a destination does not depend on that order.
-/

namespace Nise.Lib

/-- The destinations at a node, and the nodes that it relays to. -/
structure FanOut (Node Dest : Type*) where
  near : Node → List Dest
  far : Node → List Node

namespace FanOut

structure Copy (Node : Type*) where
  node : Node
  relayed : Bool
  hops : Nat

structure Traffic (Node Dest : Type*) where
  inFlight : List (Copy Node)
  sent : List Dest

variable {Node Dest : Type*} (net : FanOut Node Dest)

def relays (copy : Copy Node) : List (Copy Node) :=
  if copy.relayed then [] else (net.far copy.node).map fun node => ⟨node, true, copy.hops + 1⟩

/-- The copy at a position is handled by its node. -/
def step (traffic : Traffic Node Dest) (position : Nat) : Traffic Node Dest :=
  match traffic.inFlight[position]? with
  | none => traffic
  | some copy =>
      ⟨traffic.inFlight.eraseIdx position ++ net.relays copy, traffic.sent ++ net.near copy.node⟩

def traffic : System (Traffic Node Dest) Nat where
  step := net.step
  guard traffic position := position < traffic.inFlight.length

/-- A message that enters the network at a node. -/
def inject (node : Node) : Traffic Node Dest := ⟨[⟨node, false, 0⟩], []⟩

theorem step_of_lt {traffic : Traffic Node Dest} {position : Nat}
    (inside : position < traffic.inFlight.length) :
    net.step traffic position =
      ⟨traffic.inFlight.eraseIdx position ++ net.relays traffic.inFlight[position],
        traffic.sent ++ net.near traffic.inFlight[position].node⟩ := by
  unfold step
  rw [List.getElem?_eq_getElem inside]

theorem relays_of_relayed {copy : Copy Node} (relayed : copy.relayed = true) :
    net.relays copy = [] := by
  unfold relays
  rw [if_pos relayed]

theorem relayed_of_mem_relays {copy relay : Copy Node} (member : relay ∈ net.relays copy) :
    relay.relayed = true ∧ relay.hops = copy.hops + 1 ∧ copy.relayed = false := by
  unfold relays at member
  split at member
  · cases member
  · next first =>
      obtain ⟨node, -, rfl⟩ := List.mem_map.mp member
      exact ⟨rfl, rfl, Bool.eq_false_iff.mpr first⟩

/-- A sum over the copies in flight, with the one at a position taken out. -/
theorem sum_eraseIdx (weight : Copy Node → Nat) (copies : List (Copy Node)) {position : Nat}
    (inside : position < copies.length) :
    (copies.map weight).sum =
      weight copies[position] + ((copies.eraseIdx position).map weight).sum := by
  have perm := (List.getElem_cons_eraseIdx_perm inside).map weight
  rw [← perm.sum_eq, List.map_cons, List.sum_cons]

/-! ## Accounts -/

section Accounts

variable [DecidableEq Dest] (dest : Dest)

/-- How often a copy and its relays will be sent to a destination. -/
def owed (copy : Copy Node) : Nat :=
  (net.near copy.node).count dest +
    ((net.relays copy).map fun relay => (net.near relay.node).count dest).sum

/-- How often a destination has been sent the message or still will be. -/
def account (traffic : Traffic Node Dest) : Nat :=
  traffic.sent.count dest + (traffic.inFlight.map (net.owed dest)).sum

theorem owed_of_relayed {copy : Copy Node} (relayed : copy.relayed = true) :
    net.owed dest copy = (net.near copy.node).count dest := by
  rw [owed, net.relays_of_relayed relayed, List.map_nil, List.sum_nil, Nat.add_zero]

theorem owed_eq (copy : Copy Node) :
    net.owed dest copy =
      (net.near copy.node).count dest + ((net.relays copy).map (net.owed dest)).sum := by
  have same : (net.relays copy).map (net.owed dest) =
      (net.relays copy).map fun relay => (net.near relay.node).count dest := by
    apply List.map_congr_left
    intro relay member
    exact net.owed_of_relayed dest (net.relayed_of_mem_relays member).1
  rw [same]
  rfl

theorem account_step {traffic : Traffic Node Dest} {position : Nat}
    (inside : position < traffic.inFlight.length) :
    net.account dest (net.step traffic position) = net.account dest traffic := by
  rw [net.step_of_lt inside]
  unfold account
  rw [sum_eraseIdx (net.owed dest) traffic.inFlight inside, List.count_append, List.map_append,
    List.sum_append]
  have owed := net.owed_eq dest traffic.inFlight[position]
  omega

/-- No order of handling the copies changes what a destination gets. -/
theorem account_exec {start : Traffic Node Dest} {positions : List Nat}
    (admitted : net.traffic.Admits start positions) :
    net.account dest (net.traffic.exec start positions) = net.account dest start := by
  have kept : ∀ traffic position, net.account dest traffic = net.account dest start →
      net.traffic.guard traffic position →
      net.account dest (net.step traffic position) = net.account dest start := by
    intro traffic position same inside
    exact (net.account_step dest inside).trans same
  exact net.traffic.invariant kept rfl admitted

theorem account_inject (node : Node) :
    net.account dest (inject node) =
      (net.near node).count dest +
        ((net.far node).map fun other => (net.near other).count dest).sum := by
  simp only [account, inject, owed, relays, List.count_nil, List.map_cons, List.map_nil,
    List.sum_cons, List.sum_nil, List.map_map, Bool.false_eq_true, if_false, Nat.zero_add,
    Nat.add_zero]
  rfl

theorem account_inject_eq_sum (node : Node) :
    net.account dest (inject node) =
      ((node :: net.far node).map fun other => (net.near other).count dest).sum := by
  rw [account_inject, List.map_cons, List.sum_cons]

/-- A destination that is near exactly one of the nodes reached is sent one copy. -/
theorem account_inject_of_home [DecidableEq Node] {node : Node} (home : Node)
    (apart : (node :: net.far node).Nodup) (reached : home ∈ node :: net.far node)
    (single : ∀ other ∈ node :: net.far node, (net.near other).Nodup)
    (only : ∀ other ∈ node :: net.far node, dest ∈ net.near other ↔ other = home) :
    net.account dest (inject node) = 1 := by
  have counts : (node :: net.far node).map (fun other => (net.near other).count dest) =
      (node :: net.far node).map fun other => if other = home then 1 else 0 := by
    apply List.map_congr_left
    intro other member
    by_cases at_home : other = home
    · rw [if_pos at_home]
      exact List.count_eq_one_of_mem (single other member) ((only other member).mpr at_home)
    · rw [if_neg at_home]
      exact List.count_eq_zero_of_not_mem fun near => at_home ((only other member).mp near)
  have indicator : ∀ nodes : List Node,
      (nodes.map fun other => if other = home then 1 else 0).sum = nodes.count home := by
    intro nodes
    induction nodes with
    | nil => rfl
    | cons other rest ih =>
        rw [List.map_cons, List.sum_cons, ih, List.count_cons]
        by_cases same : other = home
        · rw [if_pos same, same, beq_self_eq_true, if_pos rfl, Nat.add_comm]
        · rw [if_neg same, if_neg (fun equal => same (beq_iff_eq.mp equal)), Nat.zero_add,
            Nat.add_zero]
  rw [account_inject_eq_sum, counts, indicator, List.count_eq_one_of_mem apart reached]

/-- A destination that is near none of them is sent none. -/
theorem account_inject_of_none {node : Node}
    (none : ∀ other ∈ node :: net.far node, dest ∉ net.near other) :
    net.account dest (inject node) = 0 := by
  rw [account_inject_eq_sum, List.sum_eq_zero]
  intro count member
  obtain ⟨other, among, rfl⟩ := List.mem_map.mp member
  exact List.count_eq_zero_of_not_mem (none other among)

end Accounts

/-! ## Hops and the end of the traffic -/

/-- A copy that has not been relayed has crossed no link, and no copy crosses two. -/
def OneHop (traffic : Traffic Node Dest) : Prop :=
  ∀ copy ∈ traffic.inFlight, copy.hops ≤ if copy.relayed then 1 else 0

theorem oneHop_step {traffic : Traffic Node Dest} {position : Nat}
    (inside : position < traffic.inFlight.length) (oneHop : OneHop traffic) :
    OneHop (net.step traffic position) := by
  rw [net.step_of_lt inside]
  intro copy member
  rcases List.mem_append.mp member with kept | new
  · exact oneHop copy (List.mem_of_mem_eraseIdx kept)
  · obtain ⟨relayed, hops, first⟩ := net.relayed_of_mem_relays new
    have before := oneHop _ (List.getElem_mem inside)
    rw [first] at before
    have none : traffic.inFlight[position].hops = 0 := Nat.le_zero.mp before
    rw [relayed, hops, if_pos rfl]
    omega

theorem oneHop_exec (node : Node) {positions : List Nat}
    (admitted : net.traffic.Admits (inject node) positions) :
    OneHop (net.traffic.exec (inject node) positions) := by
  refine net.traffic.invariant ?_ ?_ admitted
  · intro traffic position oneHop inside
    exact net.oneHop_step inside oneHop
  · intro copy member
    rw [List.mem_singleton.mp member]
    exact Nat.le_refl 0

/-- The number of copies that are still to be handled, with their relays. -/
def work (traffic : Traffic Node Dest) : Nat :=
  (traffic.inFlight.map fun copy => 1 + (net.relays copy).length).sum

theorem work_step {traffic : Traffic Node Dest} {position : Nat}
    (inside : position < traffic.inFlight.length) :
    net.work (net.step traffic position) + 1 = net.work traffic := by
  have single : ∀ relays : List (Copy Node), (∀ relay ∈ relays, relay.relayed = true) →
      (relays.map fun copy => 1 + (net.relays copy).length).sum = relays.length := by
    intro relays all
    induction relays with
    | nil => rfl
    | cons relay rest ih =>
        rw [List.map_cons, List.sum_cons, net.relays_of_relayed (all relay (by simp)),
          ih (fun other member => all other (List.mem_cons_of_mem _ member)), List.length_cons,
          List.length_nil]
        omega
  rw [net.step_of_lt inside]
  unfold work
  rw [sum_eraseIdx (fun copy => 1 + (net.relays copy).length) traffic.inFlight inside,
    List.map_append, List.sum_append,
    single _ (fun relay member => (net.relayed_of_mem_relays member).1)]
  omega

theorem work_inject (node : Node) :
    net.work (inject node : Traffic Node Dest) = 1 + (net.far node).length := by
  simp only [work, inject, relays, List.map_cons, List.map_nil, List.sum_cons, List.sum_nil,
    Bool.false_eq_true, if_false, List.length_map, Nat.add_zero]

theorem length_le_work {start : Traffic Node Dest} {positions : List Nat}
    (admitted : net.traffic.Admits start positions) : positions.length ≤ net.work start := by
  refine net.traffic.length_le_of_decreasing (fun _ => True) net.work ?_ ?_ trivial admitted
  · intro _ _ _ _
    trivial
  · intro traffic position _ inside
    have less := net.work_step inside
    change net.work (net.step traffic position) < net.work traffic
    omega

end FanOut

end Nise.Lib
