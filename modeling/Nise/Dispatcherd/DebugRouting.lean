import Nise.Dispatcherd.HelloRegistration
import Nise.Dispatcherd.PubSubDispatch

/-!
# Routing with and without the debug flag

The debug flag `ROUTE` makes the dispatcher trace what it routes.  Two runs on the same
events, one with the flag and one without it, are compared in lockstep.  What the dispatcher
asks of the object manager and of its connection table is a parameter, with a state of its
own that changes with what the dispatcher does.
-/

namespace Nise.Dispatcherd

open Nise.Ace Nise.Core Nise.Lib

/-- What routing asks of the rest of the program.  The queries that are told whether to
trace take that as their first argument. -/
structure Surroundings (World : Type) where
  nodeId : World → UInt32
  connectionTable : World → UInt32 → Option (List Handler)
  isTransmitHandler : World → Handler → Bool
  identityTrace : World → UInt32 → Bool
  getAllSubscribers : Bool → World → UInt32 → UInt32 → UInt16 → List PeerRoute × List UInt32
  getPeerRoute : Bool → World → UInt32 → UInt32 → List PeerRoute
  getOtherDispatchers : World → List UInt32
  getJobMaster : World → UInt32 → Option PeerRoute
  getModelDetails : World → UInt32 → Option ModelDetails
  isDispatcher : World → UInt32 → Option UInt32
  setReady : World → UInt32 → World
  perform : World → Action → World
  connection : World → ConnectionEvent → World

/-- Whether a query is traced does not change its answer. -/
structure Surroundings.TraceOnly {World : Type} (surroundings : Surroundings World) : Prop where
  getAllSubscribers : surroundings.getAllSubscribers true = surroundings.getAllSubscribers false
  getPeerRoute : surroundings.getPeerRoute true = surroundings.getPeerRoute false

/-- A message arrives, or something else happens to a connection. -/
inductive NodeEvent where
  | receive (rh : Handler) (data : Option MessageBlock) (sh : SamsonHeader)
  | connection (event : ConnectionEvent) (notHello : ∀ rh peerId answers,
      event ≠ .hello rh peerId answers)

/-- A dispatcher with everything it has done. -/
structure Node (World : Type) where
  connections : Connections
  world : World
  actions : List Action

namespace Node

variable {World : Type} (surroundings : Surroundings World) (route : Bool) (node : Node World)

/-- The dispatcher as routing sees it. -/
def dispatcher (traceIt : Bool) : Dispatcher where
  nodeId := surroundings.nodeId node.world
  d2mTable := node.connections.d2mTable
  d2dTable := node.connections.d2dTable
  connectionTable := surroundings.connectionTable node.world
  isTransmitHandler := surroundings.isTransmitHandler node.world
  getAllSubscribers := surroundings.getAllSubscribers traceIt node.world
  getOtherDispatchers := surroundings.getOtherDispatchers node.world
  getJobMaster := surroundings.getJobMaster node.world
  getPeerRoute := surroundings.getPeerRoute traceIt node.world

def processHelloEvent (rh : Handler) (sh : SamsonHeader) : Node World where
  connections := node.connections.processHelloEvent rh sh.peerId
    ⟨surroundings.getModelDetails node.world sh.peerId,
      surroundings.isDispatcher node.world sh.peerId, route⟩
  world :=
    if (surroundings.getModelDetails node.world sh.peerId).isSome then
      surroundings.setReady node.world sh.peerId
    else node.world
  actions := node.actions

/-- Do what processing a message asks for. -/
def perform (rh : Handler) (sh : SamsonHeader) (action : Action) : Node World :=
  let node := { node with actions := node.actions ++ [action] }
  match action with
  | .processHelloEvent => node.processHelloEvent surroundings route rh sh
  | .commandedClose =>
      { node with connections := node.connections.step (.commandedClose rh) }
  | action => { node with world := surroundings.perform node.world action }

def step : NodeEvent → Node World
  | .receive rh data sh =>
      let traceIt := route || surroundings.identityTrace node.world sh.peerId
      ((node.dispatcher surroundings traceIt).process data sh).1.foldl
        (fun node action => node.perform surroundings route rh sh action) node
  | .connection event _ =>
      { node with
        connections := node.connections.step event
        world := surroundings.connection node.world event }

/-- The messages put on a connection. -/
def putOn (ch : Handler) : List (Option MessageBlock × SamsonHeader) :=
  node.actions.filterMap fun action =>
    match action with
    | .put target event header => if target = ch then some (event, header) else none
    | _ => none

/-- The status messages relayed to a command channel. -/
def relayedTo (channel : UInt32) : List MessageBlock :=
  node.actions.filterMap fun action =>
    match action with
    | .cmdStatus target event => if target = channel then some event else none
    | _ => none

/-- Two dispatchers have the same tables and have put the same messages on every
connection. -/
structure SameRouting (traced untraced : Node World) : Prop where
  d2mTable : traced.connections.d2mTable = untraced.connections.d2mTable
  d2dTable : traced.connections.d2dTable = untraced.connections.d2dTable
  putOn : ∀ ch, traced.putOn ch = untraced.putOn ch
  relayedTo : ∀ channel, traced.relayedTo channel = untraced.relayedTo channel

/-- A hello of another dispatcher is refused by the table, because one of its keys is
taken. -/
def HelloRefused : NodeEvent → Prop
  | .receive rh _ sh => sh.type = .hello →
      surroundings.getModelDetails node.world sh.peerId = none →
      ∀ nodeId ∈ surroundings.isDispatcher node.world sh.peerId,
        ∀ handler ∈ node.connections.handlers rh,
          ∃ bound ∈ node.connections.d2dTable.records,
            DispatcherIdentityRecord.Clash bound ⟨handler.handle, sh.peerId, nodeId, rh⟩
  | .connection _ _ => True

instance : DecidablePred (node.HelloRefused surroundings)
  | .receive rh _ sh => inferInstanceAs (Decidable (sh.type = .hello →
      surroundings.getModelDetails node.world sh.peerId = none →
      ∀ nodeId ∈ surroundings.isDispatcher node.world sh.peerId,
        ∀ handler ∈ node.connections.handlers rh,
          ∃ bound ∈ node.connections.d2dTable.records,
            DispatcherIdentityRecord.Clash bound ⟨handler.handle, sh.peerId, nodeId, rh⟩))
  | .connection _ _ => inferInstanceAs (Decidable True)

end Node

/-- Two dispatchers on the same events, the first with the debug flag and the second
without it. -/
def tracedRuns {World : Type} (surroundings : Surroundings World) :
    System (Node World × Node World) NodeEvent where
  step nodes event := (nodes.1.step surroundings true event, nodes.2.step surroundings false event)
  guard _ _ := True

instance {World : Type} (surroundings : Surroundings World) (nodes : Node World × Node World)
    (event : NodeEvent) : Decidable ((tracedRuns surroundings).guard nodes event) :=
  inferInstanceAs (Decidable True)

/-! ## Which actions depend on the flag -/

namespace Dispatcher

variable {dispatcher : Dispatcher} {data : Option MessageBlock} {sh : SamsonHeader}

theorem hello_not_mem_put {ch : Handler} :
    Action.processHelloEvent ∉ dispatcher.put data ch sh := by
  unfold put
  split <;> simp

theorem hello_not_mem_putFound {found : Option Handler} :
    Action.processHelloEvent ∉ dispatcher.putFound data found sh := by
  cases found with
  | none => simp [putFound]
  | some ch => exact hello_not_mem_put

theorem hello_not_mem_putRemote {nodes : List UInt32} :
    Action.processHelloEvent ∉ dispatcher.putRemote data nodes sh := by
  simp [putRemote, hello_not_mem_putFound]

theorem hello_not_mem_putSubscribers {routes : List PeerRoute} :
    Action.processHelloEvent ∉ dispatcher.putSubscribers data routes sh := by
  unfold putSubscribers
  rw [List.mem_flatMap]
  rintro ⟨route, -, member⟩
  split at member
  · exact hello_not_mem_put member
  · simp at member

theorem hello_not_mem_route : Action.processHelloEvent ∉ dispatcher.route data sh := by
  by_cases pointToPoint :
      sh.enabled SimMsgFlag.masterOnly = true ∨ sh.enabled SimMsgFlag.p2p = true
  · rw [dispatcher.route_of_pointToPoint data sh pointToPoint]
    exact hello_not_mem_putFound
  · obtain ⟨master, peer⟩ := not_or.mp pointToPoint
    unfold route
    rw [if_neg master, if_neg peer]
    split
    · have job : Action.processHelloEvent ∉ dispatcher.routeToJob data sh := by
        unfold routeToJob putJob
        dsimp only
        split <;> simp [hello_not_mem_put, hello_not_mem_putRemote]
      split <;> simp [job]
    · split
      · unfold routeToConnection
        dsimp only
        split <;> simp [hello_not_mem_put]
      · split
        · simp
        · unfold routeToSubscriber
          dsimp only
          split <;> simp [hello_not_mem_putSubscribers, hello_not_mem_putRemote]

theorem hello_not_mem_statusResponse : Action.processHelloEvent ∉ statusResponse data sh := by
  unfold statusResponse
  split
  · dsimp only
    split <;> simp
  · simp

/-- A hello is processed as such only if it is one. -/
theorem hello_not_mem_process (other : sh.type ≠ .hello) :
    Action.processHelloEvent ∉ (dispatcher.process data sh).1 := by
  unfold process
  split
  all_goals first
    | exact hello_not_mem_route
    | exact hello_not_mem_statusResponse
    | contradiction
    | simp

end Dispatcher

namespace Node

variable {World : Type} {surroundings : Surroundings World} {node : Node World}

theorem dispatcher_traceOnly (traceOnly : surroundings.TraceOnly) (traceIt : Bool) :
    node.dispatcher surroundings traceIt = node.dispatcher surroundings false := by
  cases traceIt with
  | false => rfl
  | true => simp only [dispatcher, traceOnly.getAllSubscribers, traceOnly.getPeerRoute]

theorem foldl_perform {rh : Handler} {sh : SamsonHeader} {actions : List Action}
    (quiet : Action.processHelloEvent ∉ actions) (node : Node World) :
    actions.foldl (fun node action => node.perform surroundings true rh sh action) node =
      actions.foldl (fun node action => node.perform surroundings false rh sh action) node := by
  induction actions generalizing node with
  | nil => rfl
  | cons action rest ih =>
      rw [List.mem_cons, not_or] at quiet
      have first : node.perform surroundings true rh sh action =
          node.perform surroundings false rh sh action := by
        cases action <;> first | rfl | exact absurd rfl quiet.1
      rw [List.foldl_cons, List.foldl_cons, first]
      exact ih quiet.2 _

theorem step_of_not_hello (traceOnly : surroundings.TraceOnly) {rh : Handler}
    {data : Option MessageBlock} {sh : SamsonHeader} (other : sh.type ≠ .hello) :
    node.step surroundings true (.receive rh data sh) =
      node.step surroundings false (.receive rh data sh) := by
  unfold step
  dsimp only
  rw [dispatcher_traceOnly traceOnly, dispatcher_traceOnly traceOnly (false || _)]
  exact foldl_perform (Dispatcher.hello_not_mem_process other) node

theorem step_of_hello {route : Bool} {rh : Handler} {data : Option MessageBlock}
    {sh : SamsonHeader} (hello : sh.type = .hello) :
    node.step surroundings route (.receive rh data sh) =
      processHelloEvent surroundings route
        { node with actions := node.actions ++ [.processHelloEvent] } rh sh := by
  simp only [step, Dispatcher.process, hello, List.foldl_cons, List.foldl_nil, perform]

end Node

/-! ## The hello of a dispatcher -/

namespace Connections

variable {connections : Connections} {rh : Handler} {peerId : UInt32}

/-- The flag makes no difference to a hello that the table refuses. -/
theorem processHelloEvent_refused {details : Option ModelDetails} {dispatcher : Option UInt32}
    (refused : details = none → ∀ nodeId ∈ dispatcher, ∀ handler ∈ connections.handlers rh,
      ∃ bound ∈ connections.d2dTable.records,
        DispatcherIdentityRecord.Clash bound ⟨handler.handle, peerId, nodeId, rh⟩) :
    connections.processHelloEvent rh peerId ⟨details, dispatcher, true⟩ =
      connections.processHelloEvent rh peerId ⟨details, dispatcher, false⟩ := by
  unfold processHelloEvent
  cases found : connections.handlers rh with
  | none => rfl
  | some handler =>
      cases details with
      | some model => rfl
      | none =>
          cases dispatcher with
          | none => rfl
          | some nodeId =>
              obtain ⟨bound, member, clash⟩ := refused rfl nodeId rfl handler found
              simp only [Bool.false_eq_true, if_true, if_false]
              rw [UniqueTable.bind_of_clash member clash]

/-- A hello that the table accepts is entered only without the flag. -/
theorem refused_of_same {details : Option ModelDetails} {dispatcher : Option UInt32}
    (same : (connections.processHelloEvent rh peerId ⟨details, dispatcher, true⟩).d2dTable =
      (connections.processHelloEvent rh peerId ⟨details, dispatcher, false⟩).d2dTable)
    (unknown : details = none) {nodeId : UInt32} (known : nodeId ∈ dispatcher)
    {handler : ConnectionHandler} (found : handler ∈ connections.handlers rh) :
    ∃ bound ∈ connections.d2dTable.records,
      DispatcherIdentityRecord.Clash bound ⟨handler.handle, peerId, nodeId, rh⟩ := by
  by_contra apart
  simp only [not_exists, not_and] at apart
  rw [Option.mem_def] at known found
  subst unknown
  subst known
  simp only [processHelloEvent, found, Bool.false_eq_true, if_true, if_false] at same
  have records := congrArg UniqueTable.records same
  rw [UniqueTable.records_bind_of_apart apart] at records
  simp at records

end Connections

/-! ## Two runs -/

namespace Node

variable {World : Type} {surroundings : Surroundings World}

theorem SameRouting.refl (node : Node World) : SameRouting node node :=
  ⟨rfl, rfl, fun _ => rfl, fun _ => rfl⟩

theorem step_of_helloRefused (traceOnly : surroundings.TraceOnly) {node : Node World}
    {event : NodeEvent} (refused : node.HelloRefused surroundings event) :
    node.step surroundings true event = node.step surroundings false event := by
  cases event with
  | connection event notHello => rfl
  | receive rh data sh =>
      by_cases hello : sh.type = .hello
      · rw [step_of_hello hello, step_of_hello hello]
        unfold processHelloEvent
        rw [Connections.processHelloEvent_refused (refused hello)]
      · exact step_of_not_hello traceOnly hello

theorem helloRefused_of_sameRouting {node : Node World} {event : NodeEvent}
    (same : SameRouting (node.step surroundings true event)
      (node.step surroundings false event)) : node.HelloRefused surroundings event := by
  cases event with
  | connection event notHello => trivial
  | receive rh data sh =>
      intro hello unknown nodeId known handler found
      rw [step_of_hello hello, step_of_hello hello] at same
      exact Connections.refused_of_same same.d2dTable unknown known found

end Node

/--
Two runs on the same events that differ only in the debug flag have the same tables and put
the same messages after every event exactly if each hello of another dispatcher would be
refused by the table anyway.
-/
theorem sameRouting_iff_helloRefused {World : Type} {surroundings : Surroundings World}
    (traceOnly : surroundings.TraceOnly) (node : Node World) (events : List NodeEvent) :
    (tracedRuns surroundings).Throughout (fun nodes => Node.SameRouting nodes.1 nodes.2)
        (node, node) events ↔
      ((tracedRuns surroundings).restrict fun nodes event =>
        nodes.2.HelloRefused surroundings event).Admits (node, node) events := by
  have admitted : (tracedRuns surroundings).Admits (node, node) events :=
    System.admits_of_unguarded _ (fun _ _ => trivial) _ events
  refine System.throughout_iff_restrict_of_strong _ (fun nodes => nodes.1 = nodes.2) ?_ ?_ ?_ rfl
    admitted
  · rintro ⟨traced, untraced⟩ equal
    obtain rfl : traced = untraced := equal
    exact Node.SameRouting.refl traced
  · rintro ⟨traced, untraced⟩ event equal - refused
    obtain rfl : traced = untraced := equal
    exact Node.step_of_helloRefused traceOnly refused
  · rintro ⟨traced, untraced⟩ event equal - same
    obtain rfl : traced = untraced := equal
    exact Node.helloRefused_of_sameRouting same

/-! ## A neighbour says hello -/

namespace Neighbour

/-- Node 1, where model 7 runs, and the dispatcher 2001 of node 2. -/
def surroundings : Surroundings Unit where
  nodeId _ := 1
  connectionTable _ _ := none
  isTransmitHandler _ _ := true
  identityTrace _ _ := false
  getAllSubscribers _ _ _ _ _ := ([⟨1, 7⟩], [2])
  getPeerRoute _ _ _ _ := []
  getOtherDispatchers _ := [2]
  getJobMaster _ _ := none
  getModelDetails _ id := if id = 7 then some ⟨3, 1, 40⟩ else none
  isDispatcher _ id := if id = 2001 then some 2 else none
  setReady world _ := world
  perform world _ := world
  connection world _ := world

def start : Node Unit := ⟨twoConnections, (), []⟩

def hello (rh : Handler) (peerId : UInt32) : NodeEvent :=
  .receive rh none ⟨0, 3, peerId, 0, 0, 0, 0, .hello, 0, 0, 0⟩

/-- A message of model 7 to its subscribers. -/
def publish : NodeEvent := .receive 0 none ⟨0, 3, 7, 12, 1, 0, 0, .data, 0, 0, 0⟩

theorem traceOnly : surroundings.TraceOnly := ⟨rfl, rfl⟩

/-- Without a hello of the neighbour, the flag changes nothing. -/
theorem sameRouting_model :
    (tracedRuns surroundings).Throughout (fun nodes => Node.SameRouting nodes.1 nodes.2)
      (start, start) [hello 0 7, publish] :=
  (sameRouting_iff_helloRefused traceOnly start [hello 0 7, publish]).mpr (by decide)

/-- Both dispatchers after the hello of the neighbour and a message. -/
def greeted : Node Unit × Node Unit :=
  (tracedRuns surroundings).exec (start, start) [hello 0 7, hello 1 2001, publish]

/-- What is published then reaches the neighbour only without the flag. -/
theorem not_sameRouting_greeted :
    greeted.1.putOn 1 = [] ∧ greeted.2.putOn 1 ≠ [] ∧
      ¬ Node.SameRouting greeted.1 greeted.2 := by
  have missing : greeted.1.putOn 1 = [] := by decide
  have sent : greeted.2.putOn 1 ≠ [] := by decide
  refine ⟨missing, sent, fun same => sent ?_⟩
  rw [← same.putOn 1]
  exact missing

end Neighbour

end Nise.Dispatcherd
