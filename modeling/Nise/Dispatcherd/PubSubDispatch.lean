import Nise.Ace.Sock
import Nise.Core.SamsonHeader
import Nise.Dispatcherd.Identity

/-!
# Routing in a dispatcher

`PubSubDispatch::process` handles some message types itself and routes the others, by
the flags in the header, to the job's master, to a peer, to the models of the job, to a
connection or to the subscribers of the message.  Every routing function marks the
message as dispatched before it is sent on.  What the object manager knows is a
parameter.
-/

namespace Nise.Dispatcherd

open Nise.Ace Nise.Core

structure PeerRoute where
  nodeId : UInt32
  peerId : UInt32
  deriving DecidableEq, Repr

/-- A dispatcher as routing sees it: its tables, which handlers are transmit handlers,
and the answers of the object manager.  `getJobMaster` is the route of the master when
exactly one is found. -/
structure Dispatcher where
  nodeId : UInt32
  d2mTable : ModelIdentity
  d2dTable : DispatcherIdentity
  connectionTable : UInt32 → Option (List Handler)
  isTransmitHandler : Handler → Bool
  getAllSubscribers : UInt32 → UInt32 → UInt16 → List PeerRoute × List UInt32
  getOtherDispatchers : List UInt32
  getJobMaster : UInt32 → Option PeerRoute
  getPeerRoute : UInt32 → UInt32 → List PeerRoute

/-- What processing a message makes the dispatcher do, logging apart. -/
inductive Action where
  | put (ch : Handler) (event : Option MessageBlock) (header : SamsonHeader)
  | unsubscribe (peerId msgId : UInt32) (unitId : UInt16)
  | resetCache
  | processHelloEvent
  | initiateAllD2dConnections
  | commandedClose
  | cmdStatus (channel : UInt32) (event : MessageBlock)
  | unbindRunID (jobId : UInt32)
  deriving DecidableEq, Repr

namespace Dispatcher

variable (dispatcher : Dispatcher) (data : Option MessageBlock)

/-- Put a message on a handler, if it is one that transmits. -/
def put (ch : Handler) (header : SamsonHeader) : List Action :=
  if dispatcher.isTransmitHandler ch then [.put ch data header] else []

/-- Put a message on the handler that a lookup found, if it found one. -/
def putFound (found : Option Handler) (header : SamsonHeader) : List Action :=
  match found with
  | some ch => dispatcher.put data ch header
  | none => []

/-- The loop over the local subscribers.  One that is not connected is unsubscribed. -/
def putSubscribers (routes : List PeerRoute) (sh : SamsonHeader) : List Action :=
  routes.flatMap fun route =>
    match dispatcher.d2mTable.getCHfromModelID route.peerId with
    | some ch => dispatcher.put data ch sh
    | none => [.unsubscribe route.peerId sh.messageId sh.unitId, .resetCache]

/-- The loop over the connected models of a job. -/
def putJob (sh : SamsonHeader) : List Action :=
  (dispatcher.d2mTable.allRecordsInJob sh.runId).flatMap fun record =>
    dispatcher.put data record.ch sh

/-- The loop over other dispatchers. -/
def putRemote (nodes : List UInt32) (sh : SamsonHeader) : List Action :=
  nodes.flatMap fun node =>
    dispatcher.putFound data (dispatcher.d2dTable.getCHfromNodeID node) sh

def routeToSubscriber (sh : SamsonHeader) : List Action :=
  let localOnly := sh.dispatched ≠ 0
  -- This ensures we do not get loop-back
  let sh := sh.setDispatched 1
  let subscribers := dispatcher.getAllSubscribers sh.runId sh.messageId sh.unitId
  dispatcher.putSubscribers data subscribers.1 sh ++
    if localOnly then [] else dispatcher.putRemote data subscribers.2 sh

/-- The handler of a peer of this node, or else the handler of the node of the peer. -/
def routeHandler (route : PeerRoute) : Option Handler :=
  (if route.nodeId = dispatcher.nodeId then dispatcher.d2mTable.getCHfromModelID route.peerId
    else none) <|> dispatcher.d2dTable.getCHfromNodeID route.nodeId

def routeToMaster (sh : SamsonHeader) : List Action :=
  -- This ensures we do not get loop-back
  let sh := sh.setDispatched 1
  match dispatcher.getJobMaster sh.runId with
  | none => []
  | some route => dispatcher.putFound data (dispatcher.routeHandler route) sh

def routeToPeer (sh : SamsonHeader) : List Action :=
  -- This ensures we do not get loop-back
  let sh := sh.setDispatched 1
  match dispatcher.getPeerRoute sh.runId sh.destPeerId with
  | [route] => dispatcher.putFound data (dispatcher.routeHandler route) sh
  | _ => []

def routeToConnection (sh : SamsonHeader) : List Action :=
  let sh := sh.setDispatched 1
  match dispatcher.connectionTable sh.destPeerId with
  | none => []
  | some handlers => handlers.flatMap fun ch => dispatcher.put data ch sh

def routeToJob (sh : SamsonHeader) : List Action :=
  let localOnly := sh.dispatched ≠ 0
  -- This ensures we do not get loop-back
  let sh := sh.setDispatched 1
  dispatcher.putJob data sh ++
    if localOnly then [] else dispatcher.putRemote data dispatcher.getOtherDispatchers sh

/-- Route a message by its flags. -/
def route (sh : SamsonHeader) : List Action :=
  if sh.enabled SimMsgFlag.masterOnly then dispatcher.routeToMaster data sh
  else if sh.enabled SimMsgFlag.p2p then dispatcher.routeToPeer data sh
  else if sh.enabled SimMsgFlag.job then
    dispatcher.routeToJob data sh ++
      if sh.type = .goodbyeRequest then [.unbindRunID sh.runId] else []
  else if sh.enabled SimMsgFlag.p2ch then dispatcher.routeToConnection data sh
  else if sh.enabled SimMsgFlag.nowhere then []
  else dispatcher.routeToSubscriber data sh

/-- The status of a model, relayed to the command channel that asked for it. -/
def statusResponse (sh : SamsonHeader) : List Action :=
  match data with
  | some event =>
      -- The flags are tested in sixteen bits, of which the flag is none.
      let flags := sh.bitFlags.toUInt16.toUInt32
      if 0 < event.length ∧ flags &&& SimMsgFlag.statusLogSender ≠ 0 then
        [.cmdStatus sh.messageId event]
      else []
  | none => []

def process (sh : SamsonHeader) : List Action × Int :=
  match sh.type with
  | .hello => ([.processHelloEvent], 0)
  | .subscribe => ([], 0)
  | .d2dConnect => ([.initiateAllD2dConnections], 0)
  | .goodbye => ([.commandedClose], -1)
  | .logEventChannelStatus => ([], 0)
  | .logChannelStatus => ([], 0)
  | .recoverableErrorStatusResponse => (statusResponse data sh, 0)
  | .fatalErrorStatusResponse => (statusResponse data sh, 0)
  | .okStatusResponse => (statusResponse data sh, 0)
  | _ => (dispatcher.route data sh, 0)

end Dispatcher

/-- A message type that `process` routes and does not handle itself. -/
def Routed (type : SimMsgType) : Prop :=
  type ≠ .hello ∧ type ≠ .subscribe ∧ type ≠ .d2dConnect ∧ type ≠ .goodbye ∧
    type ≠ .logEventChannelStatus ∧ type ≠ .logChannelStatus ∧
    type ≠ .recoverableErrorStatusResponse ∧ type ≠ .fatalErrorStatusResponse ∧
    type ≠ .okStatusResponse

instance : DecidablePred Routed := fun type =>
  inferInstanceAs (Decidable (type ≠ .hello ∧ type ≠ .subscribe ∧ type ≠ .d2dConnect ∧
    type ≠ .goodbye ∧ type ≠ .logEventChannelStatus ∧ type ≠ .logChannelStatus ∧
    type ≠ .recoverableErrorStatusResponse ∧ type ≠ .fatalErrorStatusResponse ∧
    type ≠ .okStatusResponse))

/-- The branch of `process` that sends to all models of the job. -/
def JobMode (header : SamsonHeader) : Prop :=
  header.enabled SimMsgFlag.masterOnly = false ∧ header.enabled SimMsgFlag.p2p = false ∧
    header.enabled SimMsgFlag.job = true

/-- The branch of `process` that sends to the subscribers: no routing flag is set. -/
def SubscriberMode (header : SamsonHeader) : Prop :=
  header.enabled SimMsgFlag.masterOnly = false ∧ header.enabled SimMsgFlag.p2p = false ∧
    header.enabled SimMsgFlag.job = false ∧ header.enabled SimMsgFlag.p2ch = false ∧
    header.enabled SimMsgFlag.nowhere = false

instance : DecidablePred JobMode := fun header =>
  inferInstanceAs (Decidable (header.enabled SimMsgFlag.masterOnly = false ∧
    header.enabled SimMsgFlag.p2p = false ∧ header.enabled SimMsgFlag.job = true))

instance : DecidablePred SubscriberMode := fun header =>
  inferInstanceAs (Decidable (header.enabled SimMsgFlag.masterOnly = false ∧
    header.enabled SimMsgFlag.p2p = false ∧ header.enabled SimMsgFlag.job = false ∧
    header.enabled SimMsgFlag.p2ch = false ∧ header.enabled SimMsgFlag.nowhere = false))

namespace Dispatcher

variable (dispatcher : Dispatcher) (data : Option MessageBlock) (sh : SamsonHeader)

theorem route_of_job (mode : JobMode sh) :
    dispatcher.route data sh = dispatcher.routeToJob data sh ++
      if sh.type = .goodbyeRequest then [.unbindRunID sh.runId] else [] := by
  obtain ⟨master, peer, job⟩ := mode
  unfold route
  rw [master, peer, job]
  rfl

theorem route_of_subscriber (mode : SubscriberMode sh) :
    dispatcher.route data sh = dispatcher.routeToSubscriber data sh := by
  obtain ⟨master, peer, job, p2ch, nowhere⟩ := mode
  unfold route
  rw [master, peer, job, p2ch, nowhere]
  rfl

/-- The route of a message to a peer or to the master, when there is exactly one. -/
def peerRoute : Option PeerRoute :=
  if sh.enabled SimMsgFlag.masterOnly then dispatcher.getJobMaster sh.runId
  else
    match dispatcher.getPeerRoute sh.runId sh.destPeerId with
    | [route] => some route
    | _ => none

theorem route_of_pointToPoint
    (mode : sh.enabled SimMsgFlag.masterOnly = true ∨ sh.enabled SimMsgFlag.p2p = true) :
    dispatcher.route data sh = dispatcher.putFound data
      ((dispatcher.peerRoute sh).bind dispatcher.routeHandler) (sh.setDispatched 1) := by
  unfold route peerRoute
  by_cases master : sh.enabled SimMsgFlag.masterOnly = true
  · rw [if_pos master, if_pos master]
    unfold routeToMaster
    cases found : dispatcher.getJobMaster sh.runId with
    | none => simp only [SamsonHeader.setDispatched_runId, found, Option.bind_none, putFound]
    | some route => simp only [SamsonHeader.setDispatched_runId, found, Option.bind_some]
  · rw [if_neg master, if_pos (mode.resolve_left master), if_neg master]
    unfold routeToPeer
    simp only [SamsonHeader.setDispatched_runId, SamsonHeader.setDispatched_destPeerId]
    split
    · rfl
    · rfl

theorem process_of_routed (routed : Routed sh.type) :
    dispatcher.process data sh = (dispatcher.route data sh, 0) := by
  obtain ⟨hello, subscribe, connect, goodbye, eventChannel, channel, recoverable, fatal, ok⟩ :=
    routed
  unfold process
  split <;> first | rfl | contradiction

/-! ### Everything that is sent is marked as dispatched -/

section Marked

variable {dispatcher} {data} {sh} {ch : Handler} {event : Option MessageBlock}
  {header : SamsonHeader}

theorem eq_of_mem_put {target : Handler}
    (member : Action.put ch event header ∈ dispatcher.put data target sh) :
    event = data ∧ header = sh := by
  unfold put at member
  split at member
  · cases List.mem_singleton.mp member
    exact ⟨rfl, rfl⟩
  · cases member

theorem eq_of_mem_putFound {found : Option Handler}
    (member : Action.put ch event header ∈ dispatcher.putFound data found sh) :
    event = data ∧ header = sh := by
  unfold putFound at member
  split at member
  · exact eq_of_mem_put member
  · cases member

theorem eq_of_mem_putRemote {nodes : List UInt32}
    (member : Action.put ch event header ∈ dispatcher.putRemote data nodes sh) :
    event = data ∧ header = sh := by
  obtain ⟨node, -, sends⟩ := List.mem_flatMap.mp member
  exact eq_of_mem_putFound sends

theorem eq_of_mem_putSubscribers {routes : List PeerRoute}
    (member : Action.put ch event header ∈ dispatcher.putSubscribers data routes sh) :
    event = data ∧ header = sh := by
  obtain ⟨route, -, sends⟩ := List.mem_flatMap.mp member
  split at sends
  · exact eq_of_mem_put sends
  · simp at sends

theorem eq_of_mem_putJob (member : Action.put ch event header ∈ dispatcher.putJob data sh) :
    event = data ∧ header = sh := by
  obtain ⟨record, -, sends⟩ := List.mem_flatMap.mp member
  exact eq_of_mem_put sends

theorem marked_of_mem_route (member : Action.put ch event header ∈ dispatcher.route data sh) :
    event = data ∧ header = sh.setDispatched 1 := by
  by_cases pointToPoint :
      sh.enabled SimMsgFlag.masterOnly = true ∨ sh.enabled SimMsgFlag.p2p = true
  · rw [dispatcher.route_of_pointToPoint data sh pointToPoint] at member
    exact eq_of_mem_putFound member
  · obtain ⟨master, peer⟩ := not_or.mp pointToPoint
    unfold route at member
    rw [if_neg master, if_neg peer] at member
    split at member
    · rcases List.mem_append.mp member with routed | flushed
      · unfold routeToJob at routed
        rcases List.mem_append.mp routed with near | far
        · exact eq_of_mem_putJob near
        · split at far
          · cases far
          · exact eq_of_mem_putRemote far
      · split at flushed <;> simp at flushed
    · split at member
      · unfold routeToConnection at member
        dsimp only at member
        split at member
        · cases member
        · obtain ⟨handler, -, sends⟩ := List.mem_flatMap.mp member
          exact eq_of_mem_put sends
      · split at member
        · cases member
        · unfold routeToSubscriber at member
          rcases List.mem_append.mp member with near | far
          · exact eq_of_mem_putSubscribers near
          · split at far
            · cases far
            · exact eq_of_mem_putRemote far

theorem not_mem_statusResponse : Action.put ch event header ∉ statusResponse data sh := by
  unfold statusResponse
  split
  · dsimp only
    split <;> simp
  · simp

theorem marked_of_mem_process
    (member : Action.put ch event header ∈ (dispatcher.process data sh).1) :
    event = data ∧ header = sh.setDispatched 1 := by
  unfold process at member
  split at member
  all_goals first
    | exact marked_of_mem_route member
    | exact absurd member not_mem_statusResponse
    | simp at member

end Marked

end Dispatcher

end Nise.Dispatcherd
