import Nise.Dispatcherd.Network

/-!
# Published and job messages are delivered exactly once

When the tables of all dispatchers agree, a message that a model sends to the
subscribers or to the models of its job reaches each of them once.  The network does what
`Lib.FanOut` describes: the first dispatcher relays to the others, and these only deliver.
-/

namespace Nise.Dispatcherd

open Nise.Ace Nise.Core Nise.Lib

/-- The dispatchers of a simulation and the models of one of its jobs, with the subscribers
to a message among them. -/
structure Deployment where
  nodes : List UInt32
  site : UInt32 → Site
  models : List UInt32
  subscribers : List UInt32

namespace Deployment

variable (deployment : Deployment)

def table (node : UInt32) : List ModelIdentityRecord :=
  (deployment.site node).dispatcher.d2mTable.records

/-- The model has a record in the `D2M_TABLE` of the node. -/
def Bound (node mid : UInt32) : Prop := ∃ record ∈ deployment.table node, record.mid = mid

instance (node mid : UInt32) : Decidable (deployment.Bound node mid) :=
  inferInstanceAs (Decidable (∃ record ∈ deployment.table node, record.mid = mid))

def subscriptions (header : SamsonHeader) (node : UInt32) : List PeerRoute × List UInt32 :=
  (deployment.site node).dispatcher.getAllSubscribers header.runId header.messageId header.unitId

/-- Tables that agree with each other about the job and the message of a header. -/
structure Consistent (header : SamsonHeader) : Prop where
  linked : ∀ node ∈ deployment.nodes, ∀ other ∈ deployment.nodes, other ≠ node →
    ∃ ch, (deployment.site node).dispatcher.d2dTable.getCHfromNodeID other = some ch ∧
      (deployment.site node).dispatcher.isTransmitHandler ch = true ∧
      (deployment.site node).far ch = .dispatcher other
  connected : ∀ node ∈ deployment.nodes, ∀ record ∈ deployment.table node,
    (deployment.site node).dispatcher.isTransmitHandler record.ch = true ∧
      (deployment.site node).far record.ch = .model record.mid
  bound_once : ∀ mid ∈ deployment.models, ∃ home ∈ deployment.nodes,
    deployment.Bound home mid ∧ ∀ node ∈ deployment.nodes, deployment.Bound node mid → node = home
  in_job : ∀ node ∈ deployment.nodes, ∀ record ∈ deployment.table node,
    record.jid = header.runId ↔ record.mid ∈ deployment.models
  others : ∀ node ∈ deployment.nodes,
    (deployment.site node).dispatcher.getOtherDispatchers.Nodup ∧
      ∀ other, other ∈ (deployment.site node).dispatcher.getOtherDispatchers ↔
        other ∈ deployment.nodes ∧ other ≠ node
  subscribers_in_job : ∀ mid ∈ deployment.subscribers, mid ∈ deployment.models
  local_subscribers : ∀ node ∈ deployment.nodes,
    ((deployment.subscriptions header node).1.map PeerRoute.peerId).Nodup ∧
      ∀ mid, mid ∈ (deployment.subscriptions header node).1.map PeerRoute.peerId ↔
        mid ∈ deployment.subscribers ∧ deployment.Bound node mid
  remote_subscribers : ∀ node ∈ deployment.nodes,
    (deployment.subscriptions header node).2.Nodup ∧
      ∀ other, other ∈ (deployment.subscriptions header node).2 ↔
        (other ∈ deployment.nodes ∧ other ≠ node) ∧
          ∃ mid ∈ deployment.subscribers, deployment.Bound other mid

/-- Who is to be sent a message. -/
def destinations (header : SamsonHeader) : List UInt32 :=
  if header.enabled SimMsgFlag.job then deployment.models else deployment.subscribers

/-- What the dispatchers do with a message, as a fan-out. -/
def fanOut (header : SamsonHeader) : FanOut UInt32 UInt32 where
  near node :=
    if header.enabled SimMsgFlag.job then
      ((deployment.site node).dispatcher.d2mTable.allRecordsInJob header.runId).map
        ModelIdentityRecord.mid
    else (deployment.subscriptions header node).1.map PeerRoute.peerId
  far node :=
    if header.enabled SimMsgFlag.job then (deployment.site node).dispatcher.getOtherDispatchers
    else (deployment.subscriptions header node).2

/-! ## The fan-out of consistent tables -/

section Consistent

variable {deployment : Deployment} {header : SamsonHeader} {node mid : UInt32}

theorem getCHfromModelID_of_bound (bound : deployment.Bound node mid) :
    ∃ record ∈ deployment.table node, record.mid = mid ∧
      (deployment.site node).dispatcher.d2mTable.getCHfromModelID mid = some record.ch := by
  unfold ModelIdentity.getCHfromModelID UniqueTable.find?
  cases found : (deployment.site node).dispatcher.d2mTable.records.find? (·.mid == mid) with
  | none =>
      obtain ⟨record, member, same⟩ := bound
      have absent := List.find?_eq_none.mp found record member
      exact absurd (beq_iff_eq.mpr same) absent
  | some record =>
      have same := List.find?_some found
      exact ⟨record, List.mem_of_find?_eq_some found, beq_iff_eq.mp same, rfl⟩

theorem near_nodup (consistent : deployment.Consistent header)
    (member : node ∈ deployment.nodes) : ((deployment.fanOut header).near node).Nodup := by
  unfold fanOut
  dsimp only
  split
  · have unique := (deployment.site node).dispatcher.d2mTable.unique
    refine List.pairwise_map.mpr ((unique.filter _).imp ?_)
    intro first second apart same
    exact apart (.inr (.inl same))
  · exact (consistent.local_subscribers node member).1

theorem mem_near (consistent : deployment.Consistent header) (member : node ∈ deployment.nodes) :
    mid ∈ (deployment.fanOut header).near node ↔
      mid ∈ deployment.destinations header ∧ deployment.Bound node mid := by
  unfold fanOut destinations
  dsimp only
  split
  · rw [List.mem_map]
    constructor
    · rintro ⟨record, listed, rfl⟩
      obtain ⟨bound, job⟩ := List.mem_filter.mp listed
      exact ⟨(consistent.in_job node member record bound).mp (beq_iff_eq.mp job), record, bound,
        rfl⟩
    · rintro ⟨inJob, record, bound, rfl⟩
      refine ⟨record, List.mem_filter.mpr ⟨bound, ?_⟩, rfl⟩
      exact beq_iff_eq.mpr ((consistent.in_job node member record bound).mpr inJob)
  · exact (consistent.local_subscribers node member).2 mid

theorem far_nodup (consistent : deployment.Consistent header) (member : node ∈ deployment.nodes) :
    ((deployment.fanOut header).far node).Nodup := by
  unfold fanOut
  dsimp only
  split
  · exact (consistent.others node member).1
  · exact (consistent.remote_subscribers node member).1

theorem other_of_mem_far (consistent : deployment.Consistent header)
    (member : node ∈ deployment.nodes) {other : UInt32}
    (far : other ∈ (deployment.fanOut header).far node) :
    other ∈ deployment.nodes ∧ other ≠ node := by
  unfold fanOut at far
  dsimp only at far
  split at far
  · exact ((consistent.others node member).2 other).mp far
  · exact (((consistent.remote_subscribers node member).2 other).mp far).1

theorem mem_far_of_bound (consistent : deployment.Consistent header)
    (member : node ∈ deployment.nodes) {other : UInt32} (among : other ∈ deployment.nodes)
    (apart : other ≠ node) (destination : mid ∈ deployment.destinations header)
    (bound : deployment.Bound other mid) : other ∈ (deployment.fanOut header).far node := by
  unfold destinations at destination
  unfold fanOut
  dsimp only
  split
  · exact ((consistent.others node member).2 other).mpr ⟨among, apart⟩
  · next subscriber =>
      rw [if_neg subscriber] at destination
      exact ((consistent.remote_subscribers node member).2 other).mpr
        ⟨⟨among, apart⟩, mid, destination, bound⟩

theorem destination_in_job (consistent : deployment.Consistent header)
    (destination : mid ∈ deployment.destinations header) : mid ∈ deployment.models := by
  unfold destinations at destination
  split at destination
  · exact destination
  · exact consistent.subscribers_in_job mid destination

/-- The message is owed once to each destination and never to anybody else. -/
theorem account_inject_consistent (consistent : deployment.Consistent header)
    (member : node ∈ deployment.nodes) (mid : UInt32) :
    (deployment.fanOut header).account mid (FanOut.inject node) =
      if mid ∈ deployment.destinations header then 1 else 0 := by
  have among : ∀ other ∈ node :: (deployment.fanOut header).far node,
      other ∈ deployment.nodes := by
    intro other reached
    rcases List.mem_cons.mp reached with same | far
    · rw [same]
      exact member
    · exact (other_of_mem_far consistent member far).1
  split
  · next destination =>
      obtain ⟨home, homeNode, bound, once⟩ :=
        consistent.bound_once mid (destination_in_job consistent destination)
      refine FanOut.account_inject_of_home _ mid home ?_ ?_ ?_ ?_
      · exact List.nodup_cons.mpr ⟨fun far => (other_of_mem_far consistent member far).2 rfl,
          far_nodup consistent member⟩
      · by_cases same : home = node
        · exact List.mem_cons.mpr (.inl same)
        · exact List.mem_cons_of_mem _
            (mem_far_of_bound consistent member homeNode same destination bound)
      · intro other reached
        exact near_nodup consistent (among other reached)
      · intro other reached
        rw [mem_near consistent (among other reached)]
        constructor
        · rintro ⟨-, here⟩
          exact once other (among other reached) here
        · rintro rfl
          exact ⟨destination, bound⟩
  · next stranger =>
      apply FanOut.account_inject_of_none
      intro other reached near
      exact stranger ((mem_near consistent (among other reached)).mp near).1

/-! ## The dispatchers do what the fan-out says -/

variable (data : Option MessageBlock)

theorem put_transmits {dispatcher : Dispatcher} {ch : Handler}
    (transmits : dispatcher.isTransmitHandler ch = true) :
    dispatcher.put data ch header = [.put ch data header] := by
  unfold Dispatcher.put
  rw [if_pos transmits]

theorem sends_job (consistent : deployment.Consistent header) (member : node ∈ deployment.nodes)
    (job : header.enabled SimMsgFlag.job = true) (hops : Nat) :
    (deployment.site node).deliveries
        ((deployment.site node).dispatcher.putJob data (header.setDispatched 1)) =
        ((deployment.fanOut header).near node).map
          (fun mid => ⟨mid, data, header.setDispatched 1⟩) ∧
      (deployment.site node).relays hops
        ((deployment.site node).dispatcher.putJob data (header.setDispatched 1)) = [] := by
  unfold fanOut
  dsimp only
  rw [if_pos job, List.map_map]
  apply Site.sends_to_models
  intro record listed
  obtain ⟨transmits, leads⟩ :=
    consistent.connected node member record (List.mem_filter.mp listed).1
  exact ⟨record.ch, put_transmits data transmits, leads⟩

theorem sends_subscribers (consistent : deployment.Consistent header)
    (member : node ∈ deployment.nodes) (published : header.enabled SimMsgFlag.job = false)
    (hops : Nat) :
    (deployment.site node).deliveries
        ((deployment.site node).dispatcher.putSubscribers data
          (deployment.subscriptions header node).1 (header.setDispatched 1)) =
        ((deployment.fanOut header).near node).map
          (fun mid => ⟨mid, data, header.setDispatched 1⟩) ∧
      (deployment.site node).relays hops
        ((deployment.site node).dispatcher.putSubscribers data
          (deployment.subscriptions header node).1 (header.setDispatched 1)) = [] := by
  unfold fanOut
  dsimp only
  rw [if_neg (Bool.eq_false_iff.mp published), List.map_map]
  apply Site.sends_to_models
  intro route listed
  have subscriber := (consistent.local_subscribers node member).2 route.peerId
  obtain ⟨-, bound⟩ := subscriber.mp (List.mem_map_of_mem listed)
  obtain ⟨record, inTable, same, found⟩ := getCHfromModelID_of_bound bound
  obtain ⟨transmits, leads⟩ := consistent.connected node member record inTable
  rw [found]
  exact ⟨record.ch, put_transmits data transmits, same ▸ leads⟩

theorem sends_remote (consistent : deployment.Consistent header)
    (member : node ∈ deployment.nodes) (hops : Nat) :
    (deployment.site node).relays hops
        ((deployment.site node).dispatcher.putRemote data ((deployment.fanOut header).far node)
          (header.setDispatched 1)) =
        ((deployment.fanOut header).far node).map
          (fun other => ⟨other, data, header.setDispatched 1, hops + 1⟩) ∧
      (deployment.site node).deliveries
        ((deployment.site node).dispatcher.putRemote data ((deployment.fanOut header).far node)
          (header.setDispatched 1)) = [] := by
  apply Site.sends_to_dispatchers
  intro other far
  obtain ⟨among, apart⟩ := other_of_mem_far consistent member far
  obtain ⟨ch, found, transmits, leads⟩ := consistent.linked node member other among apart
  rw [found]
  exact ⟨ch, put_transmits data transmits, leads⟩

/-- What a dispatcher sends for a copy of the message. -/
theorem sends_of_process (consistent : deployment.Consistent header)
    (member : node ∈ deployment.nodes) (routed : Routed header.type)
    (mode : JobMode header ∨ SubscriberMode header) (dispatched : UInt8) (hops : Nat) :
    (deployment.site node).deliveries
        ((deployment.site node).dispatcher.process data (header.setDispatched dispatched)).1 =
        ((deployment.fanOut header).near node).map
          (fun mid => ⟨mid, data, header.setDispatched 1⟩) ∧
      (deployment.site node).relays hops
        ((deployment.site node).dispatcher.process data (header.setDispatched dispatched)).1 =
        if dispatched ≠ 0 then []
        else ((deployment.fanOut header).far node).map
          (fun other => ⟨other, data, header.setDispatched 1, hops + 1⟩) := by
  rw [Dispatcher.process_of_routed _ data (header.setDispatched dispatched) routed]
  rcases mode with job | subscriber
  · rw [Dispatcher.route_of_job _ data (header.setDispatched dispatched) job,
      Site.deliveries_append, Site.relays_append]
    have flushed : (deployment.site node).deliveries
          (if header.type = .goodbyeRequest then [.unbindRunID header.runId] else []) = [] ∧
        (deployment.site node).relays hops
          (if header.type = .goodbyeRequest then [.unbindRunID header.runId] else []) = [] := by
      split <;> exact ⟨rfl, rfl⟩
    rw [SamsonHeader.setDispatched_type, SamsonHeader.setDispatched_runId, flushed.1, flushed.2,
      List.append_nil, List.append_nil]
    have remote : (deployment.fanOut header).far node =
        (deployment.site node).dispatcher.getOtherDispatchers := if_pos job.2.2
    have far := sends_remote data consistent member hops
    rw [remote] at far ⊢
    exact Site.sends_near_and_far (dispatched ≠ 0)
      (sends_job data consistent member job.2.2 hops) far
  · rw [Dispatcher.route_of_subscriber _ data (header.setDispatched dispatched) subscriber]
    have published := subscriber.2.2.1
    have remote : (deployment.fanOut header).far node =
        (deployment.subscriptions header node).2 := if_neg (Bool.eq_false_iff.mp published)
    have far := sends_remote data consistent member hops
    rw [remote] at far ⊢
    exact Site.sends_near_and_far (dispatched ≠ 0)
      (sends_subscribers data consistent member published hops) far

end Consistent

/-! ## Runs -/

/-- The tables do not change while the message is under way. -/
def traffic : System Network Turn :=
  Network.traffic fun node site => site = deployment.site node

/-- Only copies of one message are under way. -/
structure Carries (event : Option MessageBlock) (header : SamsonHeader) (network : Network) :
    Prop where
  inFlight : ∀ copy ∈ network.inFlight, copy.node ∈ deployment.nodes ∧ copy.event = event ∧
    copy.header = header.setDispatched copy.header.dispatched
  sent : ∀ delivery ∈ network.sent,
    delivery.event = event ∧ delivery.header = header.setDispatched 1

def copyOf (copy : Copy) : FanOut.Copy UInt32 :=
  ⟨copy.node, decide (copy.header.dispatched ≠ 0), copy.hops⟩

/-- A network of dispatchers as the traffic of a fan-out. -/
def trafficOf (network : Network) : FanOut.Traffic UInt32 UInt32 :=
  ⟨network.inFlight.map copyOf, network.sent.map Delivery.mid⟩

section Runs

variable {deployment} {header : SamsonHeader} {event : Option MessageBlock}
  (consistent : deployment.Consistent header) (routed : Routed header.type)
  (mode : JobMode header ∨ SubscriberMode header)

include consistent routed mode

/-- One turn, spelled out. -/
theorem step_eq {network : Network} {turn : Turn}
    (carries : deployment.Carries event header network)
    (guarded : deployment.traffic.guard network turn) :
    ∃ copy, network.inFlight[turn.position]? = some copy ∧ copy.node ∈ deployment.nodes ∧
      network.step turn =
        { inFlight := network.inFlight.eraseIdx turn.position ++
            if copy.header.dispatched ≠ 0 then []
            else ((deployment.fanOut header).far copy.node).map
              (fun other => ⟨other, event, header.setDispatched 1, copy.hops + 1⟩)
          sent := network.sent ++ ((deployment.fanOut header).near copy.node).map
            (fun mid => ⟨mid, event, header.setDispatched 1⟩) } := by
  obtain ⟨copy, found, here⟩ := guarded
  obtain ⟨member, same, marked⟩ := carries.inFlight copy (List.mem_of_getElem? found)
  obtain ⟨delivered, relayed⟩ :=
    sends_of_process event consistent member routed mode copy.header.dispatched copy.hops
  refine ⟨copy, found, member, ?_⟩
  rw [Network.step_of_getElem? found, here, same, marked, delivered, relayed]
  rfl

theorem carries_step {network : Network} {turn : Turn}
    (carries : deployment.Carries event header network)
    (guarded : deployment.traffic.guard network turn) :
    deployment.Carries event header (deployment.traffic.step network turn) := by
  obtain ⟨copy, -, member, stepped⟩ := step_eq consistent routed mode carries guarded
  change deployment.Carries event header (network.step turn)
  rw [stepped]
  constructor
  · intro other among
    rcases List.mem_append.mp among with kept | new
    · exact carries.inFlight other (List.mem_of_mem_eraseIdx kept)
    · split at new
      · cases new
      · obtain ⟨node, far, rfl⟩ := List.mem_map.mp new
        exact ⟨(other_of_mem_far consistent member far).1, rfl, rfl⟩
  · intro delivery among
    rcases List.mem_append.mp among with old | new
    · exact carries.sent delivery old
    · obtain ⟨mid, -, rfl⟩ := List.mem_map.mp new
      exact ⟨rfl, rfl⟩

theorem trafficOf_step {network : Network} {turn : Turn}
    (carries : deployment.Carries event header network)
    (guarded : deployment.traffic.guard network turn) :
    (deployment.fanOut header).traffic.guard (trafficOf network) turn.position ∧
      trafficOf (deployment.traffic.step network turn) =
        (deployment.fanOut header).traffic.step (trafficOf network) turn.position := by
  obtain ⟨copy, found, -, stepped⟩ := step_eq consistent routed mode carries guarded
  have foundOf : (trafficOf network).inFlight[turn.position]? = some (copyOf copy) := by
    unfold trafficOf
    rw [List.getElem?_map, found]
    rfl
  constructor
  · exact (List.getElem?_eq_some_iff.mp foundOf).1
  · change trafficOf (network.step turn) =
      (deployment.fanOut header).step (trafficOf network) turn.position
    have relays : ((if copy.header.dispatched ≠ 0 then []
          else ((deployment.fanOut header).far copy.node).map
            (fun other => (⟨other, event, header.setDispatched 1, copy.hops + 1⟩ : Copy))).map
          copyOf) = (deployment.fanOut header).relays (copyOf copy) := by
      unfold FanOut.relays copyOf
      by_cases first : copy.header.dispatched = 0
      · simp only [first, ne_eq, not_true_eq_false, if_false, List.map_map, decide_false,
          Bool.false_eq_true]
        rfl
      · simp only [first, ne_eq, not_false_eq_true, if_true, List.map_nil, decide_true]
    have mids : (((deployment.fanOut header).near copy.node).map
          (fun mid => (⟨mid, event, header.setDispatched 1⟩ : Delivery))).map Delivery.mid =
        (deployment.fanOut header).near copy.node := by
      rw [List.map_map]
      exact List.map_id _
    unfold FanOut.step
    rw [stepped, foundOf]
    unfold trafficOf
    dsimp only
    rw [List.map_append, List.map_append, List.eraseIdx_map, relays, mids]
    rfl

end Runs

end Deployment

/-- A message that a model sends to its dispatcher. -/
def Network.inject (node : UInt32) (event : Option MessageBlock) (header : SamsonHeader) :
    Network :=
  ⟨[⟨node, event, header, 0⟩], []⟩

namespace Deployment

section Results

variable {deployment : Deployment} {origin : UInt32} {event : Option MessageBlock}
  {header : SamsonHeader}

theorem carries_inject (member : origin ∈ deployment.nodes) (fresh : header.dispatched = 0) :
    deployment.Carries event header (.inject origin event header) := by
  constructor
  · intro copy only
    rw [List.mem_singleton.mp only]
    refine ⟨member, rfl, ?_⟩
    rw [fresh]
    exact (SamsonHeader.setDispatched_self 0 fresh).symm
  · intro delivery none
    cases none

theorem trafficOf_inject (fresh : header.dispatched = 0) :
    trafficOf (.inject origin event header) = FanOut.inject origin := by
  unfold trafficOf Network.inject FanOut.inject
  dsimp only
  rw [List.map_cons, List.map_nil, copyOf, fresh]
  rfl

/-- Every run of the dispatchers is a run of the fan-out. -/
theorem run_is_fanOut (consistent : deployment.Consistent header)
    (member : origin ∈ deployment.nodes) (fresh : header.dispatched = 0)
    (routed : Routed header.type) (mode : JobMode header ∨ SubscriberMode header)
    {turns : List Turn} (admitted : deployment.traffic.Admits (.inject origin event header) turns) :
    let reached := deployment.traffic.exec (.inject origin event header) turns
    deployment.Carries event header reached ∧
      (deployment.fanOut header).traffic.Admits (FanOut.inject origin)
        (turns.map Turn.position) ∧
      trafficOf reached = (deployment.fanOut header).traffic.exec (FanOut.inject origin)
        (turns.map Turn.position) := by
  have initially : deployment.Carries event header (.inject origin event header) :=
    carries_inject member fresh
  have preserved : ∀ network turn, deployment.Carries event header network →
      deployment.traffic.guard network turn →
      deployment.Carries event header (deployment.traffic.step network turn) := by
    intro network turn carries guarded
    exact carries_step consistent routed mode carries guarded
  have run := deployment.traffic.exec_of_commutes (deployment.fanOut header).traffic trafficOf
    Turn.position preserved (fun network turn carries guarded =>
      trafficOf_step consistent routed mode carries guarded) initially admitted
  rw [trafficOf_inject fresh] at run
  exact ⟨deployment.traffic.invariant preserved initially admitted, run⟩

theorem length_far_le (consistent : deployment.Consistent header)
    (member : origin ∈ deployment.nodes) :
    ((deployment.fanOut header).far origin).length ≤ deployment.nodes.length := by
  refine (List.subperm_of_subset (far_nodup consistent member) ?_).length_le
  intro other far
  exact (other_of_mem_far consistent member far).1

end Results

end Deployment

theorem published_and_job_messages_exactly_once (deployment : Deployment) (origin : UInt32)
    (event : Option MessageBlock) (header : SamsonHeader)
    (consistent : deployment.Consistent header) (member : origin ∈ deployment.nodes)
    (fresh : header.dispatched = 0) (routed : Routed header.type)
    (mode : JobMode header ∨ SubscriberMode header) (turns : List Turn)
    (admitted : deployment.traffic.Admits (.inject origin event header) turns) :
    let reached := deployment.traffic.exec (.inject origin event header) turns
    turns.length ≤ 1 + deployment.nodes.length ∧
      (∀ copy ∈ reached.inFlight, copy.hops ≤ 1) ∧
      (∀ delivery ∈ reached.sent,
        delivery.event = event ∧ delivery.header = header.setDispatched 1) ∧
      (∀ mid, (reached.sent.map Delivery.mid).count mid ≤
        if mid ∈ deployment.destinations header then 1 else 0) ∧
      (reached.inFlight = [] → ∀ mid, (reached.sent.map Delivery.mid).count mid =
        if mid ∈ deployment.destinations header then 1 else 0) ∧
      (reached.inFlight ≠ [] → ∃ turn, deployment.traffic.guard reached turn) := by
  intro reached
  obtain ⟨carries, abstract, same⟩ :=
    Deployment.run_is_fanOut consistent member fresh routed mode admitted
  have account : ∀ mid, (deployment.fanOut header).account mid (Deployment.trafficOf reached) =
      if mid ∈ deployment.destinations header then 1 else 0 := by
    intro mid
    rw [same, FanOut.account_exec _ mid abstract,
      Deployment.account_inject_consistent consistent member]
  refine ⟨?_, ?_, carries.sent, ?_, ?_, ?_⟩
  · have bound := (deployment.fanOut header).length_le_work abstract
    rw [List.length_map, FanOut.work_inject] at bound
    have few := Deployment.length_far_le consistent member
    omega
  · intro copy among
    have oneHop := (deployment.fanOut header).oneHop_exec origin abstract
    rw [← same] at oneHop
    have hops := oneHop _ (List.mem_map_of_mem among)
    refine Nat.le_trans hops ?_
    split <;> omega
  · intro mid
    rw [← account mid]
    exact Nat.le_add_right _ _
  · intro quiet mid
    rw [← account mid]
    unfold FanOut.account Deployment.trafficOf
    rw [quiet]
    rfl
  · intro busy
    obtain ⟨copy, rest, under⟩ := List.exists_cons_of_ne_nil busy
    exact ⟨⟨0, deployment.site copy.node⟩, copy, by rw [under]; rfl, rfl⟩

/-! ## Two dispatchers -/

namespace TwoDispatchers

/-- Models 10 and 11 are at the first dispatcher and model 20 at the second; 11 and 20
subscribe. -/
def models : UInt32 → ModelIdentity
  | 1 => ⟨[⟨5, 3, 10, 1, 501, 105⟩, ⟨6, 3, 11, 1, 502, 106⟩], by decide⟩
  | _ => ⟨[⟨5, 3, 20, 2, 601, 205⟩], by decide⟩

def far : Handler → Endpoint
  | 105 => .model 10
  | 106 => .model 11
  | 107 => .dispatcher 2
  | 205 => .model 20
  | _ => .dispatcher 1

def site (node : UInt32) : Site where
  dispatcher :=
    { nodeId := node
      d2mTable := models node
      d2dTable :=
        if node = 1 then ⟨[⟨7, 902, 2, 107⟩], by decide⟩ else ⟨[⟨7, 901, 1, 207⟩], by decide⟩
      connectionTable := fun _ => none
      isTransmitHandler := fun _ => true
      getAllSubscribers := fun _ _ _ => if node = 1 then ([⟨1, 11⟩], [2]) else ([⟨2, 20⟩], [1])
      getOtherDispatchers := if node = 1 then [2] else [1]
      getJobMaster := fun _ => none
      getPeerRoute := fun _ _ => [] }
  far := far

def deployment : Deployment := ⟨[1, 2], site, [10, 11, 20], [11, 20]⟩

/-- A message published by model 10. -/
def published : SamsonHeader := ⟨0, 3, 10, 42, 42, 1, 0, .data, 0, 0, 0⟩

theorem bound_first (mid : UInt32) : deployment.Bound 1 mid ↔ mid = 10 ∨ mid = 11 := by
  constructor
  · rintro ⟨record, member, rfl⟩
    change record ∈ [_, _] at member
    grind
  · rintro (rfl | rfl) <;> decide

theorem bound_second (mid : UInt32) : deployment.Bound 2 mid ↔ mid = 20 := by
  constructor
  · rintro ⟨record, member, rfl⟩
    change record ∈ [_] at member
    grind
  · rintro rfl
    decide

theorem consistent : deployment.Consistent published where
  linked := by
    intro node member other among apart
    simp only [deployment, List.mem_cons, List.not_mem_nil, or_false] at member among
    rcases member with rfl | rfl <;> rcases among with rfl | rfl
    · exact absurd rfl apart
    · exact ⟨107, rfl, rfl, rfl⟩
    · exact ⟨207, rfl, rfl, rfl⟩
    · exact absurd rfl apart
  connected := by
    intro node member
    simp only [deployment, List.mem_cons, List.not_mem_nil, or_false] at member
    rcases member with rfl | rfl <;> decide
  bound_once := by
    intro mid member
    have home : ∃ home ∈ deployment.nodes, deployment.Bound home mid ∧
        ∀ node ∈ [1, 2], deployment.Bound node mid → node = home := by
      simp only [deployment, List.mem_cons, List.not_mem_nil, or_false] at member
      rcases member with rfl | rfl | rfl
      · exact ⟨1, List.mem_cons_self, by decide, by simp [bound_second]⟩
      · exact ⟨1, List.mem_cons_self, by decide, by simp [bound_second]⟩
      · exact ⟨2, List.mem_cons_of_mem 1 List.mem_cons_self, by decide, by simp [bound_first]⟩
    exact home
  in_job := by
    intro node member
    simp only [deployment, List.mem_cons, List.not_mem_nil, or_false] at member
    rcases member with rfl | rfl <;> decide
  others := by
    intro node member
    simp only [deployment, List.mem_cons, List.not_mem_nil, or_false] at member
    rcases member with rfl | rfl
    · refine ⟨by decide, fun other => ?_⟩
      change other ∈ [2] ↔ other ∈ [1, 2] ∧ other ≠ 1
      grind
    · refine ⟨by decide, fun other => ?_⟩
      change other ∈ [1] ↔ other ∈ [1, 2] ∧ other ≠ 2
      grind
  subscribers_in_job := fun _ member => List.mem_cons_of_mem 10 member
  local_subscribers := by
    intro node member
    simp only [deployment, List.mem_cons, List.not_mem_nil, or_false] at member
    rcases member with rfl | rfl
    · refine ⟨by decide, fun mid => ?_⟩
      rw [bound_first]
      change mid ∈ [11] ↔ mid ∈ [11, 20] ∧ _
      grind
    · refine ⟨by decide, fun mid => ?_⟩
      rw [bound_second]
      change mid ∈ [20] ↔ mid ∈ [11, 20] ∧ _
      grind
  remote_subscribers := by
    intro node member
    simp only [deployment, List.mem_cons, List.not_mem_nil, or_false] at member
    rcases member with rfl | rfl
    · refine ⟨by decide, fun other => ?_⟩
      change other ∈ [2] ↔ (other ∈ [1, 2] ∧ other ≠ 1) ∧
        ∃ mid ∈ [11, 20], deployment.Bound other mid
      have second : ∃ mid ∈ [11, 20], deployment.Bound 2 mid := by decide
      grind
    · refine ⟨by decide, fun other => ?_⟩
      change other ∈ [1] ↔ (other ∈ [1, 2] ∧ other ≠ 2) ∧
        ∃ mid ∈ [11, 20], deployment.Bound other mid
      have first : ∃ mid ∈ [11, 20], deployment.Bound 1 mid := by decide
      grind

def turns : List Turn := [⟨0, site 1⟩, ⟨0, site 2⟩]

theorem published_exactly_once :
    deployment.Consistent published ∧
      deployment.traffic.Admits (.inject 1 none published) turns ∧
      ∀ mid, ((deployment.traffic.exec (.inject 1 none published) turns).sent.map
        Delivery.mid).count mid = if mid ∈ deployment.destinations published then 1 else 0 := by
  have admitted : deployment.traffic.Admits (.inject 1 none published) turns :=
    ⟨⟨_, rfl, rfl⟩, ⟨_, rfl, rfl⟩, trivial⟩
  obtain ⟨-, -, -, -, quiet, -⟩ := published_and_job_messages_exactly_once deployment 1 none
    published consistent (by decide) rfl (by decide) (.inr (by decide)) turns admitted
  exact ⟨consistent, admitted, quiet (by decide)⟩

end TwoDispatchers

end Nise.Dispatcherd
