import Nise.Dispatcherd.Network

/-!
# Loops of point-to-point messages

`route_to_subscriber` and `route_to_job` send a message to other dispatchers only if it
has not been dispatched before.  `route_to_peer` and `route_to_master` mark it as well but
do not look at the mark, so with tables that disagree a message may go from dispatcher to
dispatcher for ever.
-/

namespace Nise.Dispatcherd

open Nise.Ace Nise.Core Nise.Lib

/-- A message that `process` routes to a peer or to the master of its job. -/
def PointToPoint (header : SamsonHeader) : Prop :=
  Routed header.type ∧
    (header.enabled SimMsgFlag.masterOnly = true ∨ header.enabled SimMsgFlag.p2p = true)

instance : DecidablePred PointToPoint := fun header =>
  inferInstanceAs (Decidable (Routed header.type ∧
    (header.enabled SimMsgFlag.masterOnly = true ∨ header.enabled SimMsgFlag.p2p = true)))

/-- The route of a message leads to a transmit handler with a dispatcher at its far end. -/
def Site.Forwards (site : Site) (header : SamsonHeader) : Prop :=
  ∃ ch ∈ (site.dispatcher.peerRoute header).bind site.dispatcher.routeHandler,
    site.dispatcher.isTransmitHandler ch = true ∧ ∃ node, site.far ch = .dispatcher node

section Relays

variable {site : Site} {data : Option MessageBlock} {header : SamsonHeader} {hops : Nat}

theorem marked_of_mem_relays {relay : Copy}
    (member : relay ∈ site.relays hops (site.dispatcher.process data header).1) :
    relay.header = header.setDispatched 1 ∧ relay.hops = hops + 1 := by
  obtain ⟨action, performed, leads⟩ := List.mem_filterMap.mp member
  cases action with
  | put ch event sent =>
      obtain ⟨-, marked⟩ := Dispatcher.marked_of_mem_process performed
      dsimp only at leads
      split at leads
      · cases leads
      · cases leads
        exact ⟨marked, rfl⟩
  | _ => cases leads

/-- A point-to-point message is sent to another dispatcher exactly if its route leads there,
whether it has been dispatched before or not. -/
theorem relays_eq_nil_iff (pointToPoint : PointToPoint header) :
    site.relays hops (site.dispatcher.process data header).1 = [] ↔ ¬ site.Forwards header := by
  rw [site.dispatcher.process_of_routed data header pointToPoint.1]
  dsimp only
  rw [site.dispatcher.route_of_pointToPoint data header pointToPoint.2]
  unfold Site.Forwards
  cases found : (site.dispatcher.peerRoute header).bind site.dispatcher.routeHandler with
  | none =>
      refine iff_of_true rfl ?_
      rintro ⟨ch, impossible, -⟩
      cases impossible
  | some ch =>
      unfold Dispatcher.putFound Dispatcher.put
      dsimp only
      by_cases transmits : site.dispatcher.isTransmitHandler ch = true
      · rw [if_pos transmits]
        cases leads : site.far ch with
        | model mid =>
            refine iff_of_true ?_ ?_
            · simp only [Site.relays, List.filterMap_cons, leads, List.filterMap_nil]
            · rintro ⟨other, same, -, node, toDispatcher⟩
              cases same
              rw [leads] at toDispatcher
              cases toDispatcher
        | dispatcher node =>
            refine iff_of_false ?_ ?_
            · simp only [Site.relays, List.filterMap_cons, leads, List.filterMap_nil]
              exact List.cons_ne_nil _ _
            · intro none
              exact none ⟨ch, rfl, transmits, node, leads⟩
      · rw [if_neg transmits]
        refine iff_of_true rfl ?_
        rintro ⟨other, same, yes, -⟩
        cases same
        exact transmits yes

end Relays

/-! ## Runs -/

/-- A network, with a note of whether a dispatched message was sent to another dispatcher. -/
structure Watched where
  network : Network
  looped : Bool

namespace Watched

/-- A dispatcher that has already seen the mark sends the message to another one. -/
def loops (copy : Copy) (site : Site) : Bool :=
  decide (PointToPoint copy.header ∧ copy.header.dispatched ≠ 0) &&
    !(site.relays copy.hops (site.dispatcher.process copy.event copy.header).1).isEmpty

def step (watched : Watched) (turn : Turn) : Watched where
  network := watched.network.step turn
  looped := watched.looped ||
    (watched.network.inFlight[turn.position]?).any fun copy => loops copy turn.site

/-- The tables of a dispatcher may be anything, and different at every turn. -/
def traffic : System Watched Turn where
  step := step
  guard watched turn := ∃ copy, watched.network.inFlight[turn.position]? = some copy ∧
    turn.site.dispatcher.nodeId = copy.node

def start (copies : List Copy) : Watched := ⟨⟨copies, []⟩, false⟩

/-- No dispatched message was sent to another dispatcher, and none has crossed two links. -/
def LoopFree (watched : Watched) : Prop :=
  watched.looped = false ∧
    ∀ copy ∈ watched.network.inFlight, PointToPoint copy.header → copy.hops ≤ 1

/-- A message that crossed a link is marked. -/
def Marked (watched : Watched) : Prop :=
  ∀ copy ∈ watched.network.inFlight, copy.hops ≠ 0 → copy.header.dispatched ≠ 0

/-- A dispatcher that gets a dispatched point-to-point message has no route for it that
leads to a dispatcher. -/
def StaysLocal (watched : Watched) (turn : Turn) : Prop :=
  ∀ copy, watched.network.inFlight[turn.position]? = some copy →
    PointToPoint copy.header → copy.header.dispatched ≠ 0 → ¬ turn.site.Forwards copy.header

variable {watched : Watched} {turn : Turn}

theorem marked_step (marked : watched.Marked) (guarded : traffic.guard watched turn) :
    (watched.step turn).Marked := by
  obtain ⟨copy, found, -⟩ := guarded
  intro other member crossed
  change other ∈ (watched.network.step turn).inFlight at member
  rw [Network.step_of_getElem? found] at member
  rcases List.mem_append.mp member with kept | new
  · exact marked other (List.mem_of_mem_eraseIdx kept) crossed
  · rw [(marked_of_mem_relays new).1, SamsonHeader.setDispatched_dispatched]
    decide

theorem loops_eq_false_iff (copy : Copy) (site : Site) :
    loops copy site = false ↔
      (PointToPoint copy.header → copy.header.dispatched ≠ 0 → ¬ site.Forwards copy.header) := by
  unfold loops
  rw [Bool.and_eq_false_imp, decide_eq_true_iff, Bool.not_eq_false', List.isEmpty_iff]
  constructor
  · intro none pointToPoint dispatched
    exact (relays_eq_nil_iff pointToPoint).mp (none ⟨pointToPoint, dispatched⟩)
  · rintro stays ⟨pointToPoint, dispatched⟩
    exact (relays_eq_nil_iff pointToPoint).mpr (stays pointToPoint dispatched)

theorem loopFree_step_iff (marked : watched.Marked) (loopFree : watched.LoopFree)
    (guarded : traffic.guard watched turn) :
    (watched.step turn).LoopFree ↔ watched.StaysLocal turn := by
  obtain ⟨copy, found, -⟩ := guarded
  have looped : (watched.step turn).looped = loops copy turn.site := by
    unfold step
    dsimp only
    rw [loopFree.1, Bool.false_or, found, Option.any_some]
  have stays : watched.StaysLocal turn ↔ loops copy turn.site = false := by
    rw [loops_eq_false_iff]
    constructor
    · intro all
      exact all copy found
    · intro one other same
      rw [found] at same
      cases same
      exact one
  rw [stays]
  constructor
  · intro after
    rw [← looped]
    exact after.1
  · intro none
    refine ⟨looped.trans none, ?_⟩
    intro other member pointToPoint
    change other ∈ (watched.network.step turn).inFlight at member
    rw [Network.step_of_getElem? found] at member
    rcases List.mem_append.mp member with kept | new
    · exact loopFree.2 other (List.mem_of_mem_eraseIdx kept) pointToPoint
    · obtain ⟨sameHeader, hops⟩ := marked_of_mem_relays new
      have same : PointToPoint copy.header := by
        rw [sameHeader] at pointToPoint
        exact pointToPoint
      -- The message that is sent on has not been dispatched, so it has crossed no link.
      have first : copy.header.dispatched = 0 := by
        by_contra dispatched
        have stays := (loops_eq_false_iff copy turn.site).mp none same dispatched
        rw [(relays_eq_nil_iff same).mpr stays] at new
        cases new
      have none : copy.hops = 0 := by
        by_contra crossed
        exact marked copy (List.mem_of_getElem? found) crossed first
      omega

end Watched

theorem pointToPoint_loop_free_iff (copies : List Copy)
    (injected : ∀ copy ∈ copies, copy.hops = 0) (turns : List Turn)
    (admitted : Watched.traffic.Admits (.start copies) turns) :
    Watched.traffic.Throughout Watched.LoopFree (.start copies) turns ↔
      (Watched.traffic.restrict Watched.StaysLocal).Admits (.start copies) turns := by
  refine Watched.traffic.throughout_iff_restrict_of_invariant Watched.Marked ?_ ?_ ?_ ?_ admitted
  · intro watched turn marked guarded
    exact Watched.marked_step marked guarded
  · intro watched turn marked loopFree guarded
    exact Watched.loopFree_step_iff marked loopFree guarded
  · intro copy member crossed
    exact absurd (injected copy member) crossed
  · refine ⟨rfl, ?_⟩
    intro copy member _
    rw [injected copy member]
    exact Nat.zero_le 1

/-! ## Two dispatchers that disagree -/

namespace TwoPeers

/-- A dispatcher on node 1 or 2 that believes peer 30 to be on some node.  Handler 205 leads
to the peer and handler 107 to the other dispatcher. -/
def site (node believed : UInt32) : Site where
  dispatcher :=
    { nodeId := node
      d2mTable := if node = 1 then .empty else ⟨[⟨5, 3, 30, 2, 601, 205⟩], by decide⟩
      d2dTable := ⟨[⟨7, 900, 3 - node, 107⟩], List.pairwise_singleton _ _⟩
      connectionTable := fun _ => none
      isTransmitHandler := fun _ => true
      getAllSubscribers := fun _ _ _ => ([], [])
      getOtherDispatchers := []
      getJobMaster := fun _ => none
      getPeerRoute := fun _ _ => [⟨believed, 30⟩] }
  far := fun ch => if ch = 205 then .model 30 else .dispatcher (3 - node)

/-- A message of model 10 on node 1 to peer 30. -/
def message : Copy := ⟨1, none, ⟨0, 3, 10, 42, 42, 1, SimMsgFlag.p2p, .data, 30, 0, 0⟩, 0⟩

/-- Both dispatchers know that the peer is on node 2. -/
theorem agreeing_loop_free :
    Watched.traffic.Admits (.start [message]) [⟨0, site 1 2⟩, ⟨0, site 2 2⟩] ∧
      Watched.traffic.Throughout Watched.LoopFree (.start [message])
        [⟨0, site 1 2⟩, ⟨0, site 2 2⟩] := by
  have admitted : Watched.traffic.Admits (.start [message]) [⟨0, site 1 2⟩, ⟨0, site 2 2⟩] :=
    ⟨⟨_, rfl, rfl⟩, ⟨_, rfl, rfl⟩, trivial⟩
  refine ⟨admitted, (pointToPoint_loop_free_iff [message] (by decide) _ admitted).mpr ?_⟩
  refine ⟨⟨admitted.1, ?_⟩, ⟨admitted.2.1, ?_⟩, trivial⟩
  · intro copy first _ dispatched
    cases first
    exact absurd rfl dispatched
  · intro copy second _ _
    cases second
    rintro ⟨ch, handler, -, node, leads⟩
    cases handler
    cases leads

/-- Each dispatcher believes the peer to be on the other node: the message comes back. -/
theorem pointToPoint_loop_free_fails :
    ¬ ∀ (copies : List Copy) (turns : List Turn), (∀ copy ∈ copies, copy.hops = 0) →
      Watched.traffic.Admits (.start copies) turns →
        (Watched.traffic.exec (.start copies) turns).LoopFree := by
  intro always
  have loopFree := always [message] [⟨0, site 1 2⟩, ⟨0, site 2 1⟩] (by decide)
    ⟨⟨_, rfl, rfl⟩, ⟨_, rfl, rfl⟩, trivial⟩
  exact absurd loopFree.1 (by decide)

end TwoPeers

end Nise.Dispatcherd
