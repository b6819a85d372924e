import Nise.Core.HeaderClass
import Nise.Dispatcherd.TransmitHandler

/-!
# Putting an event on a connection

`TransmitHandler::put (event, eh)` encodes the header, chains a copy of the event to it and
puts the chain on the connection, if that is established.  The connection may fail in the middle
of a frame: what has been written is then a part of the accepted frames, or of these and the one
frame that was refused.
-/

namespace Nise.Dispatcherd

open Nise.Ace Nise.Core Nise.Lib

variable {Fields : Type}

/-- A handler without output filter whose header type is not `NOHEADER` and, for each event that
was put on it, the value that was returned. -/
structure Forwarder (Fields : Type) where
  handler : Transmit
  log : List ((EventHeader Fields × Option MessageBlock) × Int)
  deriving DecidableEq, Repr

/-- An event and its header, as they are sent. -/
def messageOf (pair : EventHeader Fields × Option MessageBlock) : Message Fields :=
  ⟨pair.1.fields, pair.2⟩

/-! ## When a connection fails -/

namespace Transmit

variable {highWaterMark : Nat} {handler : Transmit} {event : MessageBlock}
  {cont rest : List MessageBlock} {sent : SendResult} {wakeup : Bool}

variable (highWaterMark handler wakeup) in
theorem nonblkPut_breaks (failed : sent.verdict handler.errno event = .failed) :
    handler.nonblkPut highWaterMark event sent wakeup =
      ({ handler with
          errno := sent.errno handler.errno
          written := handler.written ++ event.data.take (sent.transferred event)
          state := .failed }, -1, .caller) := by
  obtain ⟨nonpositive, other⟩ := sent.nonpositive_of_failed failed
  unfold nonblkPut
  dsimp only
  rw [if_pos nonpositive, if_neg other]

variable (highWaterMark handler wakeup) in
/-- Only a send that fails takes the state away from a connection. -/
theorem nonblkPut_state (possible : sent.Possible event)
    (sound : sent.verdict handler.errno event ≠ .failed) :
    (handler.nonblkPut highWaterMark event sent wakeup).1.state = handler.state := by
  match verdict : sent.verdict handler.errno event with
  | .failed => exact absurd verdict sound
  | .whole =>
      rw [handler.nonblkPut_whole wakeup possible verdict]
  | .back =>
      by_cases room : HasRoom highWaterMark handler.queue
      · obtain ⟨errno, block, -, -, done⟩ := handler.nonblkPut_back wakeup possible verdict room
        rw [done]
      · obtain ⟨errno, done⟩ := handler.nonblkPut_refused wakeup verdict room
        rw [done]

/-- What a put that loses the connection leaves. -/
structure PutBreaks (handler after : Transmit) (block : MessageBlock) (sent : SendResult) :
    Prop where
  first : handler.queue = []
  failed : sent.verdict handler.errno block = .failed
  written : after.written = handler.written ++ block.data.take (sent.transferred block)
  accepted : after.accepted = handler.accepted

variable (highWaterMark wakeup) in
theorem put_breaks (possible : sent.Possible (block2send event cont))
    (established : handler.state = .established) :
    (handler.step highWaterMark (.put event cont sent wakeup)).state = .established ∨
      (handler.put highWaterMark event cont sent wakeup).2 = -1 ∧
        PutBreaks handler (handler.step highWaterMark (.put event cont sent wakeup))
          (block2send event cont) sent := by
  by_cases first : handler.queue = []
  · by_cases failed : sent.verdict handler.errno (block2send event cont) = .failed
    · have done := nonblkPut_breaks highWaterMark handler wakeup failed
      have refused : (handler.put highWaterMark event cont sent wakeup).2 = -1 := by
        unfold put
        dsimp only
        rw [if_pos first, done]
      refine .inr ⟨refused, first, failed, ?_, ?_⟩
      · rw [step_put_first first, done]
        rfl
      · rw [step_put_first first, done]
        rfl
    · have kept := nonblkPut_state highWaterMark handler wakeup possible failed
      refine .inl ?_
      rw [step_put_first first]
      dsimp only
      split
      · rw [kept, established]
      · exact kept.trans established
  · refine .inl ?_
    unfold step put
    dsimp only
    rw [if_neg first]
    split
    · split
      · exact established
      · exact established
    · split
      · exact established
      · exact established

variable (highWaterMark wakeup) in
/-- When the first block of a queue loses the connection, what has been written of it is a part
of it. -/
theorem handleOutput_breaks (queued : handler.queue = event :: rest)
    (possible : sent.Possible event) (established : handler.state = .established) :
    (handler.step highWaterMark (.handleOutput sent wakeup)).state = .established ∨
      (handler.step highWaterMark (.handleOutput sent wakeup)).written =
        handler.written ++ event.data.take (sent.transferred event) := by
  rw [step_handleOutput queued]
  dsimp only
  by_cases failed : sent.verdict handler.errno event = .failed
  · have done := nonblkPut_breaks highWaterMark { handler with queue := rest } wakeup failed
    rw [done]
    refine .inr ?_
    split <;> rfl
  · have kept := nonblkPut_state highWaterMark { handler with queue := rest } wakeup possible failed
    refine .inl ?_
    split
    · exact kept.trans established
    · exact kept.trans established

end Transmit

namespace Forwarder

variable (cls : HeaderClass Fields) (highWaterMark : Nat)

def start : Forwarder Fields := ⟨.start, []⟩

def putEvent (forwarder : Forwarder Fields) (event : Option MessageBlock)
    (eh : EventHeader Fields) (sent : SendResult) (wakeup : Bool) : Forwarder Fields × Int :=
  if forwarder.handler.state = .established then
    let startMb := (messageOf (eh, event)).startMb cls
    let retval := (forwarder.handler.put highWaterMark startMb event.toList sent wakeup).2
    (⟨forwarder.handler.step highWaterMark (.put startMb event.toList sent wakeup),
      forwarder.log ++ [((eh, event), retval)]⟩, retval)
  else ({ forwarder with log := forwarder.log ++ [((eh, event), -1)] }, -1)

inductive Call (Fields : Type) where
  | putEvent (event : Option MessageBlock) (eh : EventHeader Fields) (sent : SendResult)
      (wakeup : Bool)
  | handleOutput (sent : SendResult) (wakeup : Bool)
  | elsewhere (errno : Errno)
  deriving DecidableEq, Repr

def step (forwarder : Forwarder Fields) : Call Fields → Forwarder Fields
  | .putEvent event eh sent wakeup => (forwarder.putEvent cls highWaterMark event eh sent wakeup).1
  | .handleOutput sent wakeup =>
      { forwarder with handler := forwarder.handler.step highWaterMark (.handleOutput sent wakeup) }
  | .elsewhere errno =>
      { forwarder with handler := forwarder.handler.step highWaterMark (.elsewhere errno) }

/-- A call of the handler with an outcome that does not lose a part of a block while the
connection goes on. -/
def Sends (forwarder : Forwarder Fields) (call : Transmit.Call) : Prop :=
  forwarder.handler.Allowed call ∧ forwarder.handler.Keeps highWaterMark call

/-- What becomes of an event is asked only while the connection is established. -/
def Puts (forwarder : Forwarder Fields) (event : Option MessageBlock) (eh : EventHeader Fields)
    (sent : SendResult) (wakeup : Bool) : Prop :=
  forwarder.handler.state = .established →
    forwarder.Sends highWaterMark
      (.put ((messageOf (eh, event)).startMb cls) event.toList sent wakeup)

/-- The header of an event announces its data. -/
def Guarded (forwarder : Forwarder Fields) : Call Fields → Prop
  | .putEvent event eh sent wakeup =>
      (messageOf (eh, event)).Announced cls ∧
        forwarder.Puts cls highWaterMark event eh sent wakeup
  | .handleOutput sent wakeup => forwarder.Sends highWaterMark (.handleOutput sent wakeup)
  | .elsewhere _ => True

def forwarding : System (Forwarder Fields) (Call Fields) where
  step := step cls highWaterMark
  guard := Guarded cls highWaterMark

/-- The events that were not refused, as messages. -/
def messages (forwarder : Forwarder Fields) : List (Message Fields) :=
  (sentOf forwarder.log).map messageOf

def frames (forwarder : Forwarder Fields) : List Frame :=
  forwarder.messages.map (Message.frame cls)

/-- What has been written is a part of the accepted messages and of at most one more, which is
not whole. -/
structure Cut (forwarder : Forwarder Fields) (lost : List (Message Fields)) : Prop where
  announced : ∀ message ∈ lost, message.Announced cls
  written : forwarder.handler.written <+:
    Frames.stream Frame.bytes ((forwarder.messages ++ lost).map (Message.frame cls))
  within : ∀ count ≤ forwarder.handler.written.length,
    Message.within cls (forwarder.messages ++ lost) count =
      Message.within cls forwarder.messages count

structure Sound (forwarder : Forwarder Fields) : Prop where
  intact : forwarder.handler.Intact
  stream : forwarder.handler.accepted = Frames.stream Frame.bytes (forwarder.frames cls)
  announced : ∀ entry ∈ forwarder.log, (messageOf entry.1).Announced cls
  cut : ∃ lost, forwarder.Cut cls lost

section Steps

variable {cls highWaterMark} {forwarder : Forwarder Fields}

/-- On a connection that is intact no byte is in front of its turn. -/
theorem cut_of_established (intact : forwarder.handler.Intact)
    (stream : forwarder.handler.accepted = Frames.stream Frame.bytes (forwarder.frames cls))
    (established : forwarder.handler.state = .established) : forwarder.Cut cls [] where
  announced _ member := nomatch member
  written := by
    obtain ⟨-, whole⟩ := intact established
    rw [List.append_nil]
    change _ <+: Frames.stream Frame.bytes (forwarder.frames cls)
    rw [← stream, ← whole]
    exact List.prefix_append _ _
  within _ _ := by rw [List.append_nil]

theorem accepted_nonblkPut (block : MessageBlock) (sent : SendResult) (wakeup : Bool)
    (handler : Transmit) :
    (handler.nonblkPut highWaterMark block sent wakeup).1.accepted = handler.accepted := by
  unfold Transmit.nonblkPut
  dsimp only
  split
  · split
    · split
      · rfl
      · split <;> rfl
    · rfl
  · split
    · split
      · rfl
      · split <;> rfl
    · rfl

theorem accepted_put (event : MessageBlock) (cont : List MessageBlock) (sent : SendResult)
    (wakeup : Bool) (handler : Transmit) :
    (handler.put highWaterMark event cont sent wakeup).1.accepted = handler.accepted := by
  unfold Transmit.put
  dsimp only
  split
  · exact accepted_nonblkPut _ _ _ _
  · split <;> rfl

theorem accepted_handleOutput (sent : SendResult) (wakeup : Bool) (handler : Transmit) :
    (handler.handleOutput highWaterMark sent wakeup).accepted = handler.accepted := by
  unfold Transmit.handleOutput
  split
  · rfl
  · dsimp only
    split
    · exact accepted_nonblkPut _ _ _ _
    · exact accepted_nonblkPut _ _ _ _

variable (highWaterMark) in
/-- An event that is not refused adds its frame to what the handler has accepted. -/
theorem stream_putEvent (event : Option MessageBlock) (eh : EventHeader Fields)
    (sent : SendResult) (wakeup : Bool)
    (stream : forwarder.handler.accepted = Frames.stream Frame.bytes (forwarder.frames cls)) :
    (forwarder.putEvent cls highWaterMark event eh sent wakeup).1.handler.accepted =
      Frames.stream Frame.bytes
        ((forwarder.putEvent cls highWaterMark event eh sent wakeup).1.frames cls) := by
  have bytes := Message.bytes_frame cls (messageOf (eh, event))
  unfold frames messages putEvent
  split
  · dsimp only
    unfold Transmit.step
    dsimp only
    by_cases refused : (forwarder.handler.put highWaterMark
        ((messageOf (eh, event)).startMb cls) event.toList sent wakeup).2 = -1
    · rw [if_pos refused, sentOf_append_refused _ _ refused, accepted_put, stream]
      rfl
    · rw [if_neg refused, sentOf_append_sent _ _ refused, List.map_append, List.map_append,
        Frames.stream_append]
      dsimp only
      rw [accepted_put, stream, List.map_singleton, List.map_singleton, Frames.stream_cons, Frames.stream_nil,
        List.append_nil, bytes]
      rfl
  · dsimp only
    rw [sentOf_append_refused _ _ rfl, stream]
    rfl

/-- A failing send of a block that is not empty writes less than the block. -/
theorem transferred_lt {block : MessageBlock} {errno : Errno} {sent : SendResult}
    (possible : sent.Possible block) (failed : sent.verdict errno block = .failed)
    (nonempty : 0 < block.length) : sent.transferred block < block.length := by
  obtain ⟨nonpositive, -⟩ := sent.nonpositive_of_failed failed
  cases sent with
  | complete =>
      have value : SendResult.complete.value block = block.length := rfl
      omega
  | short count => exact possible.2
  | fail failure bt => exact possible
  | eof bt => exact possible

/-- The connection that is lost with the first bytes of a frame. -/
theorem cut_of_breaks (lawful : cls.Lawful) {message : Message Fields} {after : Forwarder Fields}
    {sent : SendResult} (intact : forwarder.handler.Intact)
    (stream : forwarder.handler.accepted = Frames.stream Frame.bytes (forwarder.frames cls))
    (established : forwarder.handler.state = .established)
    (announced : message.Announced cls)
    (possible : sent.Possible (block2send (message.startMb cls) message.data.toList))
    (breaks : Transmit.PutBreaks forwarder.handler after.handler
      (block2send (message.startMb cls) message.data.toList) sent)
    (same : after.messages = forwarder.messages) : after.Cut cls [message] := by
  have valid := announced.valid lawful
  have bytes : (block2send (message.startMb cls) message.data.toList).data =
      (message.frame cls).bytes := by
    rw [block2send_data, Message.bytes_frame]
  have nonempty : 0 < (block2send (message.startMb cls) message.data.toList).length := by
    rw [MessageBlock.length, bytes]
    exact List.length_pos_of_ne_nil valid.bytes_ne_nil
  have short := transferred_lt possible breaks.failed nonempty
  obtain ⟨-, whole⟩ := intact established
  rw [breaks.first, unread_nil, List.append_nil, stream] at whole
  have written := breaks.written
  rw [whole, bytes] at written
  rw [MessageBlock.length, bytes] at short
  refine ⟨?_, ?_, ?_⟩
  · intro lost member
    rw [List.mem_singleton.mp member]
    exact announced
  · rw [written, same, List.map_append, Frames.stream_append, List.map_singleton,
      Frames.stream_cons, Frames.stream_nil, List.append_nil]
    exact (List.prefix_append_right_inj _).mpr (List.take_prefix _ _)
  · intro count atMost
    apply Message.within_append_of_lt
    rw [written, List.length_append, List.length_take] at atMost
    rw [same]
    unfold frames at atMost
    omega

theorem announced_append {event : Option MessageBlock} {eh : EventHeader Fields} {result : Int}
    (before : ∀ entry ∈ forwarder.log, (messageOf entry.1).Announced cls)
    (announced : (messageOf (eh, event)).Announced cls) :
    ∀ entry ∈ forwarder.log ++ [((eh, event), result)], (messageOf entry.1).Announced cls := by
  intro entry member
  rcases List.mem_append.mp member with old | new
  · exact before entry old
  · rw [List.mem_singleton.mp new]
    exact announced

theorem Sound.putEvent_established (lawful : cls.Lawful) (sound : forwarder.Sound cls)
    {event : Option MessageBlock} {eh : EventHeader Fields} {sent : SendResult} {wakeup : Bool}
    (announced : (messageOf (eh, event)).Announced cls)
    (established : forwarder.handler.state = .established)
    (allowed : forwarder.handler.Allowed
      (.put ((messageOf (eh, event)).startMb cls) event.toList sent wakeup))
    (keeps : forwarder.handler.Keeps highWaterMark
      (.put ((messageOf (eh, event)).startMb cls) event.toList sent wakeup)) :
    (forwarder.putEvent cls highWaterMark event eh sent wakeup).1.Sound cls := by
  have stream := stream_putEvent highWaterMark event eh sent wakeup sound.stream
  have intact := (Transmit.step_intact_iff _ sound.intact allowed).mpr keeps
  unfold putEvent at stream ⊢
  rw [if_pos established] at stream ⊢
  refine ⟨intact, stream, announced_append sound.announced announced, ?_⟩
  rcases Transmit.put_breaks highWaterMark wakeup allowed.2 established with still | ⟨refused, breaks⟩
  · exact ⟨[], cut_of_established intact stream still⟩
  · refine ⟨_, cut_of_breaks lawful sound.intact sound.stream established announced allowed.2
      breaks ?_⟩
    unfold messages
    rw [sentOf_append_refused _ _ refused]

theorem Sound.putEvent_refused (sound : forwarder.Sound cls) {event : Option MessageBlock}
    {eh : EventHeader Fields} (sent : SendResult) (wakeup : Bool)
    (announced : (messageOf (eh, event)).Announced cls)
    (broken : forwarder.handler.state ≠ .established) :
    (forwarder.putEvent cls highWaterMark event eh sent wakeup).1.Sound cls := by
  have same : (⟨forwarder.handler, forwarder.log ++ [((eh, event), -1)]⟩ :
      Forwarder Fields).messages = forwarder.messages := by
    unfold messages
    rw [sentOf_append_refused _ _ rfl]
  obtain ⟨lost, cut⟩ := sound.cut
  unfold putEvent
  rw [if_neg broken]
  refine ⟨sound.intact, ?_, announced_append sound.announced announced, lost, cut.announced,
    ?_, ?_⟩
  · unfold frames
    rw [same]
    exact sound.stream
  · exact same.symm ▸ cut.written
  · exact same.symm ▸ cut.within

theorem Sound.handleOutput (sound : forwarder.Sound cls) {sent : SendResult} {wakeup : Bool}
    (allowed : forwarder.handler.Allowed (.handleOutput sent wakeup))
    (keeps : forwarder.handler.Keeps highWaterMark (.handleOutput sent wakeup)) :
    (forwarder.step cls highWaterMark (.handleOutput sent wakeup)).Sound cls := by
  have intact := (Transmit.step_intact_iff _ sound.intact allowed).mpr keeps
  have stream : (forwarder.handler.step highWaterMark (.handleOutput sent wakeup)).accepted =
      Frames.stream Frame.bytes (forwarder.frames cls) :=
    (accepted_handleOutput sent wakeup forwarder.handler).trans sound.stream
  obtain ⟨established, possible⟩ := allowed
  refine ⟨intact, stream, sound.announced, [], ?_⟩
  match queued : forwarder.handler.queue with
  | [] =>
      refine cut_of_established intact stream ?_
      change (forwarder.handler.handleOutput highWaterMark sent wakeup).state = .established
      unfold Transmit.handleOutput
      rw [queued]
      exact established
  | block :: rest =>
      rw [queued] at possible
      rcases Transmit.handleOutput_breaks highWaterMark wakeup queued (possible block rfl)
        established with still | written
      · exact cut_of_established intact stream still
      · obtain ⟨-, whole⟩ := sound.intact established
        rw [queued, unread_cons, ← List.append_assoc] at whole
        refine ⟨fun _ member => (nomatch member), ?_, fun _ _ => by rw [List.append_nil]⟩
        change (forwarder.handler.step highWaterMark (.handleOutput sent wakeup)).written <+:
          Frames.stream Frame.bytes ((forwarder.messages ++ []).map (Message.frame cls))
        rw [List.append_nil, written]
        change _ <+: Frames.stream Frame.bytes (forwarder.frames cls)
        rw [← sound.stream, ← whole, List.append_assoc]
        exact (List.prefix_append_right_inj _).mpr
          ((List.take_prefix _ _).trans (List.prefix_append _ _))

theorem Sound.step (lawful : cls.Lawful) (sound : forwarder.Sound cls) (call : Call Fields)
    (guarded : (forwarding cls highWaterMark).guard forwarder call) :
    (forwarder.step cls highWaterMark call).Sound cls := by
  cases call with
  | putEvent event eh sent wakeup =>
      obtain ⟨announced, whenOpen⟩ := guarded
      by_cases established : forwarder.handler.state = .established
      · obtain ⟨allowed, keeps⟩ := whenOpen established
        exact sound.putEvent_established lawful announced established allowed keeps
      · exact sound.putEvent_refused sent wakeup announced established
  | handleOutput sent wakeup => exact sound.handleOutput guarded.1 guarded.2
  | elsewhere errno =>
      obtain ⟨lost, cut⟩ := sound.cut
      exact ⟨sound.intact, sound.stream, sound.announced, lost, cut.announced, cut.written,
        cut.within⟩

theorem Sound.written_all (sound : forwarder.Sound cls)
    (established : forwarder.handler.state = .established)
    (idle : forwarder.handler.queue = []) :
    forwarder.handler.written = Frames.stream Frame.bytes (forwarder.frames cls) := by
  obtain ⟨-, whole⟩ := sound.intact established
  rw [idle, unread_nil, List.append_nil] at whole
  rw [whole, sound.stream]

theorem sound_start : (start : Forwarder Fields).Sound cls where
  intact _ := ⟨rfl, rfl⟩
  stream := rfl
  announced _ member := nomatch member
  cut := ⟨[], fun _ member => (nomatch member), List.prefix_refl _, fun _ _ => rfl⟩

end Steps

end Forwarder

end Nise.Dispatcherd
