import Nise.Dispatcherd.Forward
import Nise.Peer.PeerReceive
import Nise.PublishPath

/-!
# From a model to a model

The dispatcher puts messages it receives from one model on the connection to another, where
messages of other senders go as well.  What the routing decides is left open: each message is put
on the connection or not, and the header may be changed where nobody looks at it again.
-/

namespace Nise

open Nise.Ace Nise.Core Nise.Lib Nise.Peer Nise.Dispatcherd

variable {Fields : Type}

/-- What identifies a message for its receiver: the number its sender gave it, the checksum and
the data. -/
structure Label where
  sendCount : UInt32
  crc32 : UInt32
  body : List UInt8
  deriving DecidableEq, Repr

variable (cls : HeaderClass Fields)

/-- A change of the header that leaves the sender, the number, the checksum and the length. -/
structure Harmless (edit : Fields → Fields) : Prop where
  peerId : ∀ sh, cls.peerId (edit sh) = cls.peerId sh
  sendCount : ∀ sh, cls.sendCount (edit sh) = cls.sendCount sh
  crc32 : ∀ sh, cls.crc32 (edit sh) = cls.crc32 sh
  dataLength : ∀ sh, cls.dataLength (edit sh) = cls.dataLength sh

def label (message : Message Fields) : Label :=
  ⟨cls.sendCount message.sh, cls.crc32 message.sh, message.body⟩

/-- The labels of what has been handed on for one sender. -/
def labelsFrom (mid : UInt32) (pairs : List (EventHeader Fields × Option MessageBlock)) :
    List Label :=
  (pairs.filter fun pair => cls.peerId pair.1.fields == mid).map fun pair =>
    label cls (messageOf pair)

section Labels

variable {cls} {mid : UInt32}

variable (cls) in
theorem body_arrive (message : Message Fields) (blank : EventHeader Fields)
    (details : Option (Int × Int)) :
    messageOf (message.arrive cls blank details) =
      ⟨message.sh, if message.body = [] then none else some ⟨message.body.length, message.body⟩⟩ := by
  unfold messageOf Message.arrive
  rw [EventHeader.fill_fields]

variable (cls) in
theorem label_arrive (message : Message Fields) (blank : EventHeader Fields)
    (details : Option (Int × Int)) :
    label cls (messageOf (message.arrive cls blank details)) = label cls message := by
  rw [body_arrive]
  unfold label
  congr 1
  by_cases empty : message.body = []
  · rw [if_pos empty, empty]
    rfl
  · rw [if_neg empty]
    rfl

theorem announced_arrive {message : Message Fields} (announced : message.Announced cls)
    (blank : EventHeader Fields) (details : Option (Int × Int)) :
    (messageOf (message.arrive cls blank details)).Announced cls := by
  have body := congrArg Label.body (label_arrive cls message blank details)
  change (messageOf (message.arrive cls blank details)).body = message.body at body
  refine ⟨?_, ?_⟩
  · rw [body, body_arrive]
    exact announced.length
  · rw [body]
    exact announced.fits

theorem labelsFrom_append (first second : List (EventHeader Fields × Option MessageBlock)) :
    labelsFrom cls mid (first ++ second) = labelsFrom cls mid first ++ labelsFrom cls mid second := by
  unfold labelsFrom
  rw [List.filter_append, List.map_append]

theorem labelsFrom_own {pair : EventHeader Fields × Option MessageBlock}
    (own : cls.peerId pair.1.fields = mid) :
    labelsFrom cls mid [pair] = [label cls (messageOf pair)] := by
  have kept : (cls.peerId pair.1.fields == mid) = true := beq_iff_eq.mpr own
  unfold labelsFrom
  rw [List.filter_cons, kept]
  rfl

theorem labelsFrom_other {pair : EventHeader Fields × Option MessageBlock}
    (other : cls.peerId pair.1.fields ≠ mid) : labelsFrom cls mid [pair] = [] := by
  have dropped : (cls.peerId pair.1.fields == mid) = false := beq_eq_false_iff_ne.mpr other
  unfold labelsFrom
  rw [List.filter_cons, dropped]
  rfl

end Labels

/-! ## The dispatcher in between -/

/-- The handler that receives from the one model, and the one that sends to the other. -/
structure Relay (Fields : Type) where
  intake : Intake Fields
  forwarder : Forwarder Fields

/-- The dispatcher is invoked with what the socket has; a message that is then complete is put
on the connection, with a changed header, or it is not.  Everything else happens on the outgoing
connection. -/
inductive RelayEvent (Fields : Type) where
  | input (script : List RecvResult) (route : Option (Fields → Fields)) (sent : SendResult)
      (wakeup : Bool)
  | output (call : Forwarder.Call Fields)

/-- An invocation after which a complete message is put on the connection. -/
def RelayEvent.Routes : RelayEvent Fields → Prop
  | .input _ route _ _ => route.isSome
  | .output _ => True

variable (highWaterMark : Nat) (handler : ReceiveHandler Fields)
  (process : EventHeader Fields → Option MessageBlock → Int) (mid : UInt32)

namespace Relay

def start : Relay Fields := ⟨.start, .start⟩

/-- What an invocation hands on. -/
def handed (relay : Relay Fields) (script : List RecvResult) :
    Option (EventHeader Fields × Option MessageBlock) :=
  (handler.invocation process relay.intake.fragment relay.intake.errno script).handed

/-- The header as it is sent on. -/
def edited (edit : Fields → Fields) (eh : EventHeader Fields) : EventHeader Fields :=
  { eh with fields := edit eh.fields }

def step (stream : List UInt8) (relay : Relay Fields) : RelayEvent Fields → Relay Fields
  | .input script route sent wakeup =>
      let next := (Core.intake (handler.invocation process) stream).step relay.intake script
      match relay.handed handler process script, route with
      | some (eh, event), some edit =>
          ⟨next, (relay.forwarder.putEvent cls highWaterMark event (edited edit eh) sent wakeup).1⟩
      | _, _ => ⟨next, relay.forwarder⟩
  | .output call => ⟨relay.intake, relay.forwarder.step cls highWaterMark call⟩

/-- A call on the outgoing connection for a message of another sender. -/
def Other : Forwarder.Call Fields → Prop
  | .putEvent _ eh _ _ => cls.peerId eh.fields ≠ mid
  | .handleOutput _ _ => True
  | .elsewhere _ => True

def Guarded (stream : List UInt8) (relay : Relay Fields) : RelayEvent Fields → Prop
  | .input script route sent wakeup =>
      (Core.intake (handler.invocation process) stream).guard relay.intake script ∧
        ∀ edit ∈ route, Harmless cls edit ∧ ∀ eh event,
          relay.handed handler process script = some (eh, event) →
            relay.forwarder.Puts cls highWaterMark event (edited edit eh) sent wakeup
  | .output call =>
      Other cls mid call ∧ (Forwarder.forwarding cls highWaterMark).guard relay.forwarder call

/-- The relay on a connection that brings the bytes of the stream. -/
def relaying (stream : List UInt8) : System (Relay Fields) (RelayEvent Fields) where
  step := step cls highWaterMark handler process stream
  guard := Guarded cls highWaterMark handler process mid stream

/-- The events put on the outgoing connection, those refused included. -/
def offered (relay : Relay Fields) : List (EventHeader Fields × Option MessageBlock) :=
  relay.forwarder.log.map Prod.fst

section Steps

variable {cls highWaterMark handler process mid} {blank : EventHeader Fields}
  {messages : List (Message Fields)} {relay : Relay Fields}

/-- The relay has handed on the first messages of the stream, and what is on its outgoing
connection is sound. -/
structure Standing (cls : HeaderClass Fields) (handler : ReceiveHandler Fields)
    (blank : EventHeader Fields) (messages : List (Message Fields)) (relay : Relay Fields) :
    Prop where
  intake : Core.Standing cls.toHeaderType blank handler.details
    (fun frame => handler.filtered (frame.delivery cls.toHeaderType blank handler.details))
    (messages.map (Message.frame cls)) relay.intake
  forwarder : relay.forwarder.Sound cls

/-- What a relay is assumed to be given: messages of one sender. -/
structure Given (cls : HeaderClass Fields) (handler : ReceiveHandler Fields) (mid : UInt32)
    (blank : EventHeader Fields) (messages : List (Message Fields)) : Prop where
  lawful : cls.Lawful
  sameType : handler.headerType = cls.toHeaderType
  allocates : handler.evhGet = some blank
  capacity : blank.addr.length = cls.headerLength
  unfiltered : handler.inputFilter = none
  announced : ∀ message ∈ messages, message.Announced cls
  sender : ∀ message ∈ messages, cls.peerId message.sh = mid

variable (handler process relay) in
theorem handed_step (stream : List UInt8) (script : List RecvResult) :
    ((Core.intake (handler.invocation process) stream).step relay.intake script).handed =
      relay.intake.handed ++ (relay.handed handler process script).toList := by
  change List.filterMap Prod.fst (relay.intake.log ++ [_]) = _
  rw [List.filterMap_append, List.filterMap_cons]
  unfold handed
  split
  · next nothing =>
      dsimp only at nothing
      rw [nothing]
      rfl
  · next pair found =>
      dsimp only at found
      rw [found]
      rfl

theorem Given.intake_step (given : Given cls handler mid blank messages)
    (standing : Standing cls handler blank messages relay) {script : List RecvResult}
    (guarded : (Core.intake (handler.invocation process)
      (Frames.stream Frame.bytes (messages.map (Message.frame cls)))).guard relay.intake script) :
    Core.Standing cls.toHeaderType blank handler.details
      (fun frame => handler.filtered (frame.delivery cls.toHeaderType blank handler.details))
      (messages.map (Message.frame cls))
      ((Core.intake (handler.invocation process)
        (Frames.stream Frame.bytes (messages.map (Message.frame cls)))).step relay.intake
          script) := by
  refine Core.Standing.step given.capacity ?_ ?_ ?_ relay.intake script
    standing.intake guarded
  · intro whole member
    obtain ⟨message, sent, rfl⟩ := List.mem_map.mp member
    exact (given.announced message sent).valid given.lawful
  · intro whole member
    obtain ⟨message, sent, rfl⟩ := List.mem_map.mp member
    exact (given.announced message sent).fitsInt given.lawful
  · intro fragment errno script
    exact ⟨.clear, given.sameType ▸
      ReceiveHandler.invocation_wraps given.allocates process fragment errno script⟩

/-- Every pair that the relay hands on is a message of the stream. -/
theorem Given.exists_message (given : Given cls handler mid blank messages)
    (standing : Standing cls handler blank messages relay) {script : List RecvResult}
    (guarded : (Core.intake (handler.invocation process)
      (Frames.stream Frame.bytes (messages.map (Message.frame cls)))).guard relay.intake script)
    {pair : EventHeader Fields × Option MessageBlock}
    (handed : relay.handed handler process script = some pair) :
    ∃ message ∈ messages, pair = message.arrive cls blank handler.details := by
  have next := (given.intake_step standing guarded).reassembles.handed
  have last : pair ∈ ((Core.intake (handler.invocation process)
      (Frames.stream Frame.bytes (messages.map (Message.frame cls)))).step relay.intake
        script).handed := by
    rw [handed_step, handed]
    exact List.mem_append_right _ (List.mem_singleton.mpr rfl)
  rw [next] at last
  obtain ⟨whole, within, rfl⟩ := List.mem_map.mp last
  obtain ⟨message, sent, rfl⟩ := List.mem_map.mp ((Frames.within_prefix _ _ _).subset within)
  refine ⟨message, sent, ?_⟩
  rw [Message.delivery_frame given.lawful]
  unfold ReceiveHandler.filtered
  rw [given.unfiltered]

/-- A message is sent on as it was published. -/
theorem Given.announced_edited (given : Given cls handler mid blank messages)
    {edit : Fields → Fields} (harmless : Harmless cls edit) {message : Message Fields}
    (sent : message ∈ messages) {eh : EventHeader Fields} {event : Option MessageBlock}
    (arrived : (eh, event) = message.arrive cls blank handler.details) :
    (messageOf (edited edit eh, event)).Announced cls ∧
      label cls (messageOf (edited edit eh, event)) = label cls (messageOf (eh, event)) ∧
      cls.peerId (edited edit eh).fields = mid := by
  have announced := announced_arrive (given.announced message sent) blank handler.details
  rw [← arrived] at announced
  have fields : eh.fields = message.sh := by
    have sh := congrArg Message.sh (body_arrive cls message blank handler.details)
    rw [← arrived] at sh
    exact sh
  refine ⟨⟨?_, announced.fits⟩, ?_, ?_⟩
  · exact (harmless.dataLength eh.fields).trans announced.length
  · exact congrArg₂ (Label.mk · · _) (harmless.sendCount eh.fields) (harmless.crc32 eh.fields)
  · exact (harmless.peerId eh.fields).trans (fields ▸ given.sender message sent)

theorem log_putEvent (forwarder : Forwarder Fields) (event : Option MessageBlock)
    (eh : EventHeader Fields) (sent : SendResult) (wakeup : Bool) :
    (forwarder.putEvent cls highWaterMark event eh sent wakeup).1.log.map Prod.fst =
      forwarder.log.map Prod.fst ++ [(eh, event)] := by
  unfold Forwarder.putEvent
  split
  · exact List.map_append
  · exact List.map_append

/-- Calls for other senders put nothing of this sender on the connection. -/
theorem labels_output (forwarder : Forwarder Fields) {call : Forwarder.Call Fields}
    (other : Other cls mid call) :
    labelsFrom cls mid ((forwarder.step cls highWaterMark call).log.map Prod.fst) =
      labelsFrom cls mid (forwarder.log.map Prod.fst) := by
  cases call with
  | handleOutput sent wakeup => rfl
  | elsewhere errno => rfl
  | putEvent event eh sent wakeup =>
      change labelsFrom cls mid
        ((forwarder.putEvent cls highWaterMark event eh sent wakeup).1.log.map Prod.fst) = _
      have foreign : cls.peerId (eh, event).1.fields ≠ mid := other
      rw [log_putEvent, labelsFrom_append, labelsFrom_other foreign, List.append_nil]

/-- What one step adds to what has been handed on, and to what is offered to the connection. -/
def Extends (cls : HeaderClass Fields) (mid : UInt32) (relay next : Relay Fields)
    (routes : Prop) : Prop :=
  ∃ new, next.intake.handed = relay.intake.handed ++ new ∧
    (labelsFrom cls mid next.offered = labelsFrom cls mid relay.offered ++ labelsFrom cls mid new ∨
      labelsFrom cls mid next.offered = labelsFrom cls mid relay.offered ∧ (routes → new = []))

theorem Given.step (given : Given cls handler mid blank messages)
    (standing : Standing cls handler blank messages relay) (event : RelayEvent Fields)
    (guarded : (relaying cls highWaterMark handler process mid
      (Frames.stream Frame.bytes (messages.map (Message.frame cls)))).guard relay event) :
    let next := (relaying cls highWaterMark handler process mid
      (Frames.stream Frame.bytes (messages.map (Message.frame cls)))).step relay event
    Standing cls handler blank messages next ∧ Extends cls mid relay next event.Routes := by
  dsimp only
  cases event with
  | output call =>
      obtain ⟨other, guarded⟩ := guarded
      refine ⟨⟨standing.intake, standing.forwarder.step given.lawful call guarded⟩, [],
        (List.append_nil _).symm, .inr ⟨labels_output relay.forwarder other, fun _ => rfl⟩⟩
  | input script route sent wakeup =>
      obtain ⟨readable, routed⟩ := guarded
      have intake := given.intake_step standing readable
      have handed := handed_step handler process relay
        (Frames.stream Frame.bytes (messages.map (Message.frame cls))) script
      unfold relaying Relay.step
      dsimp only
      match found : relay.handed handler process script with
      | none =>
          rw [found] at handed
          exact ⟨⟨intake, standing.forwarder⟩, [], handed, .inr ⟨rfl, fun _ => rfl⟩⟩
      | some (eh, event) =>
          rw [found] at handed
          match route with
          | none => exact ⟨⟨intake, standing.forwarder⟩, [(eh, event)], handed,
              .inr ⟨rfl, fun routed => absurd routed Bool.false_ne_true⟩⟩
          | some edit =>
              obtain ⟨harmless, puts⟩ := routed edit rfl
              obtain ⟨message, sent, arrived⟩ := given.exists_message standing readable found
              obtain ⟨announced, same, sender⟩ := given.announced_edited harmless sent arrived
              have fromMid : cls.peerId eh.fields = mid := (harmless.peerId _).symm.trans sender
              refine ⟨⟨intake, standing.forwarder.step given.lawful (.putEvent event _ _ wakeup)
                ⟨announced, puts eh event found⟩⟩, [(eh, event)], handed, .inl ?_⟩
              unfold offered
              rw [log_putEvent, labelsFrom_append, labelsFrom_own sender, labelsFrom_own fromMid,
                same]

theorem standing_start (messages : List (Message Fields)) (given :
    Given cls handler mid blank messages) : Standing cls handler blank messages start where
  intake := by
    refine ⟨[], messages.map (Message.frame cls), [], .start _ ?_, .idle, rfl, ?_⟩
    · intro whole member
      obtain ⟨message, sent, rfl⟩ := List.mem_map.mp member
      exact ((given.announced message sent).valid given.lawful).bytes_ne_nil
    · intro entry member
      cases member
  forwarder := Forwarder.sound_start

/-- A run keeps the order of the messages: those offered to the connection are some of those
handed on, and all of them if each is routed. -/
theorem Given.run (given : Given cls handler mid blank messages)
    {events : List (RelayEvent Fields)}
    (admitted : (relaying cls highWaterMark handler process mid
      (Frames.stream Frame.bytes (messages.map (Message.frame cls)))).Admits start events) :
    let final := (relaying cls highWaterMark handler process mid
      (Frames.stream Frame.bytes (messages.map (Message.frame cls)))).exec start events
    Standing cls handler blank messages final ∧
      (labelsFrom cls mid final.offered).Sublist (labelsFrom cls mid final.intake.handed) ∧
      ((∀ event ∈ events, event.Routes) →
        labelsFrom cls mid final.offered = labelsFrom cls mid final.intake.handed) := by
  dsimp only
  induction events using List.reverseRecOn with
  | nil => exact ⟨standing_start messages given, .refl _, fun _ => rfl⟩
  | append_singleton before event ih =>
      obtain ⟨earlier, now⟩ := (System.admits_append _ _ _ _).mp admitted
      obtain ⟨standing, sublist, all⟩ := ih earlier
      obtain ⟨next, new, handed, grows⟩ := given.step standing event now.1
      rw [System.exec_append]
      refine ⟨next, ?_, ?_⟩
      · rw [System.exec_cons, System.exec_nil, handed, labelsFrom_append]
        rcases grows with routed | ⟨kept, -⟩
        · rw [routed]
          exact sublist.append (.refl _)
        · rw [kept]
          exact sublist.trans (List.sublist_append_left _ _)
      · intro routes
        have routesNow := routes event (List.mem_append_right _ (List.mem_singleton.mpr rfl))
        have before := all fun other member => routes other (List.mem_append_left _ member)
        rw [System.exec_cons, System.exec_nil, handed, labelsFrom_append]
        rcases grows with routed | ⟨kept, empty⟩
        · rw [routed, before]
        · rw [kept, before, empty routesNow]
          exact (List.append_nil _).symm

end Steps

end Relay

/-! ## The whole way -/

variable (checksum : List UInt8 → UInt32) (peer : PeerHandler Fields)

section Path

variable {cls highWaterMark handler process mid checksum peer}

variable {blank : EventHeader Fields}
  {app : Option (EventHeader Fields) → Option MessageBlock → Int}

end Path

end Nise
