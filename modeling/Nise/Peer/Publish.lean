import Nise.Core.HeaderClass
import Nise.Lib.History
import Nise.Peer.PeerSend

/-!
# Publishing a message

`SharedAppMgr::publish` numbers the messages it sends, puts the checksum of the data into the
header, keeps the last ten headers and gives the encoded header with the data chained to it to
`Peer_Handler::transmit`.  What goes onto the wire are the frames of the messages that were
accepted, each under its number.
-/

namespace Nise.Peer

open Nise.Ace Nise.Core Nise.Lib

variable {Fields : Type}

/-- The manager's part in publishing, the handler it transmits with and, for each message it
was to publish, the value that was returned. -/
structure Publisher (Fields : Type) where
  sendCount : UInt32
  sendCb : List Fields
  peer : Outgoing
  log : List (Message Fields × Int)
  deriving DecidableEq, Repr

/-- The checksum that is put into the header. -/
def dataCrc32 (checksum : List UInt8 → UInt32) (data : Option MessageBlock) : UInt32 :=
  match data with
  | some block => if 0 < block.length then checksum block.data else 0
  | none => 0

namespace Publisher

variable (cls : HeaderClass Fields) (checksum : List UInt8 → UInt32) (highWaterMark : Nat)

def start : Publisher Fields := ⟨0, [], .start, []⟩

/-- The information that sending adds to the header. -/
def stamp (publisher : Publisher Fields) (data : Option MessageBlock) (sh : Fields) : Fields :=
  cls.setCrc32 (cls.setSendCount sh publisher.sendCount) (dataCrc32 checksum data)

inductive Call (Fields : Type) where
  | publish (data : Option MessageBlock) (sh : Fields) (sent : SendResult) (wakeup : Bool)
  | handleOutput (sent : SendResult) (wakeup : Bool)
  | elsewhere (errno : Errno)
  deriving DecidableEq, Repr

/-- The call of the handler that a call comes to. -/
def onPeer (publisher : Publisher Fields) : Call Fields → Outgoing.Call
  | .publish data sh sent wakeup =>
      .transmit ⟨cls.headerLength, cls.encode (publisher.stamp cls checksum data sh)⟩ data.toList
        sent wakeup
  | .handleOutput sent wakeup => .handleOutput sent wakeup
  | .elsewhere errno => .elsewhere errno

def publish (publisher : Publisher Fields) (data : Option MessageBlock) (sh : Fields)
    (sent : SendResult) (wakeup : Bool) : Publisher Fields × Int :=
  let sh := publisher.stamp cls checksum data sh
  let startMb : MessageBlock := ⟨cls.headerLength, cls.encode sh⟩
  let result := (publisher.peer.transmit highWaterMark startMb data.toList sent wakeup).2
  ({ publisher with
      sendCount := publisher.sendCount + 1
      sendCb := keepLast 10 publisher.sendCb sh
      peer := publisher.peer.step highWaterMark (.transmit startMb data.toList sent wakeup)
      log := publisher.log ++ [(⟨sh, data⟩, result)] }, result)

def step (publisher : Publisher Fields) : Call Fields → Publisher Fields
  | .publish data sh sent wakeup =>
      (publisher.publish cls checksum highWaterMark data sh sent wakeup).1
  | .handleOutput sent wakeup =>
      { publisher with peer := publisher.peer.step highWaterMark (.handleOutput sent wakeup) }
  | .elsewhere errno =>
      { publisher with peer := publisher.peer.step highWaterMark (.elsewhere errno) }

/-- A message to be published has a header that announces its data. -/
def Prepared : Call Fields → Prop
  | .publish data sh _ _ => Message.Announced cls ⟨sh, data⟩
  | .handleOutput _ _ => True
  | .elsewhere _ => True

/-- Calls on a connection on which no send loses a part of a block. -/
def publishing : System (Publisher Fields) (Call Fields) where
  step := step cls checksum highWaterMark
  guard publisher call :=
    Prepared cls call ∧ publisher.peer.Allowed (publisher.onPeer cls checksum call) ∧
      publisher.peer.Keeps highWaterMark (publisher.onPeer cls checksum call)

/-- The frames of the messages that were not refused. -/
def frames (publisher : Publisher Fields) : List Frame :=
  (sentOf publisher.log).map (Message.frame cls)

/--
What the handler has been given is the stream of the messages it accepted.  The messages are
numbered as they come, whether they are accepted or not, and have the checksum of their data.
-/
structure Sound (publisher : Publisher Fields) : Prop where
  intact : publisher.peer.Intact
  stream : publisher.peer.accepted = Frames.stream Frame.bytes (publisher.frames cls)
  announced : ∀ entry ∈ publisher.log, entry.1.Announced cls
  sendCount : publisher.sendCount = .ofNat publisher.log.length
  numbered : ∀ index entry, publisher.log[index]? = some entry →
    cls.sendCount entry.1.sh = .ofNat index
  checked : ∀ entry ∈ publisher.log, cls.crc32 entry.1.sh = dataCrc32 checksum entry.1.data
  sendCb : publisher.sendCb = (publisher.log.map fun entry => entry.1.sh).reverse.take 10

section Steps

variable {cls checksum highWaterMark} {publisher : Publisher Fields}

theorem step_peer (call : Call Fields) :
    (publisher.step cls checksum highWaterMark call).peer =
      publisher.peer.step highWaterMark (publisher.onPeer cls checksum call) := by
  cases call <;> rfl

theorem stamp_announced (lawful : cls.Lawful) {data : Option MessageBlock} {sh : Fields}
    (announced : Message.Announced cls ⟨sh, data⟩) :
    Message.Announced cls ⟨publisher.stamp cls checksum data sh, data⟩ where
  length := by
    refine Eq.trans ?_ announced.length
    unfold stamp
    rw [lawful.dataLength_setCrc32, lawful.dataLength_setSendCount]
  fits := announced.fits

theorem accepted_transmit (startMb : MessageBlock) (cont : List MessageBlock) (sent : SendResult)
    (wakeup : Bool) (handler : Outgoing) :
    (handler.transmit highWaterMark startMb cont sent wakeup).1.accepted = handler.accepted := by
  unfold Outgoing.transmit Outgoing.put
  split
  · rfl
  · split <;> rfl

/-- A message that is not refused adds its frame to what the handler has accepted. -/
theorem stream_publish (data : Option MessageBlock) (sh : Fields) (sent : SendResult)
    (wakeup : Bool)
    (stream : publisher.peer.accepted = Frames.stream Frame.bytes (publisher.frames cls)) :
    (publisher.publish cls checksum highWaterMark data sh sent wakeup).1.peer.accepted =
      Frames.stream Frame.bytes
        ((publisher.publish cls checksum highWaterMark data sh sent wakeup).1.frames cls) := by
  have bytes := Message.bytes_frame cls ⟨publisher.stamp cls checksum data sh, data⟩
  unfold frames publish Outgoing.step
  dsimp only
  by_cases refused : (publisher.peer.transmit highWaterMark
      ⟨cls.headerLength, cls.encode (publisher.stamp cls checksum data sh)⟩ data.toList sent
      wakeup).2 = -1
  · rw [if_pos refused, sentOf_append_refused _ _ refused, accepted_transmit, stream]
    rfl
  · rw [if_neg refused, sentOf_append_sent _ _ refused, List.map_append, Frames.stream_append]
    dsimp only
    rw [accepted_transmit, stream, List.map_singleton, Frames.stream_cons, Frames.stream_nil,
      List.append_nil, bytes]
    rfl

theorem Sound.step (lawful : cls.Lawful) (sound : publisher.Sound cls checksum)
    (call : Call Fields)
    (guarded : (publishing cls checksum highWaterMark).guard publisher call) :
    (publisher.step cls checksum highWaterMark call).Sound cls checksum := by
  obtain ⟨prepared, allowed, keeps⟩ := guarded
  have intact : (publisher.step cls checksum highWaterMark call).peer.Intact := by
    rw [step_peer]
    exact (Outgoing.step_intact_iff _ sound.intact allowed).mpr keeps
  cases call with
  | handleOutput sent wakeup =>
      refine ⟨intact, ?_, sound.announced, sound.sendCount, sound.numbered, sound.checked,
        sound.sendCb⟩
      refine Eq.trans ?_ sound.stream
      change (publisher.peer.handleOutput highWaterMark sent wakeup).1.accepted = _
      unfold Outgoing.handleOutput
      split <;> rfl
  | elsewhere errno =>
      exact ⟨intact, sound.stream, sound.announced, sound.sendCount, sound.numbered,
        sound.checked, sound.sendCb⟩
  | publish data sh sent wakeup =>
      refine ⟨intact, stream_publish data sh sent wakeup sound.stream, ?_, ?_, ?_, ?_, ?_⟩
      · intro entry member
        rcases List.mem_append.mp member with old | new
        · exact sound.announced entry old
        · rw [List.mem_singleton.mp new]
          exact stamp_announced lawful prepared
      · change publisher.sendCount + 1 = UInt32.ofNat (publisher.log ++ [_]).length
        rw [sound.sendCount, List.length_append, List.length_singleton, UInt32.ofNat_add]
        rfl
      · intro index entry found
        change (publisher.log ++ [_])[index]? = some entry at found
        rw [List.getElem?_append] at found
        split at found
        · exact sound.numbered index entry found
        · next beyond =>
            have place : index - publisher.log.length = 0 := by
              by_contra later
              rw [List.getElem?_eq_none (by rw [List.length_singleton]; omega)] at found
              cases found
            have last : index = publisher.log.length := by omega
            rw [place] at found
            cases found
            unfold stamp
            rw [last, lawful.sendCount_setCrc32, lawful.sendCount_set, sound.sendCount]
      · intro entry member
        rcases List.mem_append.mp member with old | new
        · exact sound.checked entry old
        · rw [List.mem_singleton.mp new]
          exact lawful.crc32_set _ _
      · change keepLast 10 publisher.sendCb _ = ((publisher.log ++ [_]).map _).reverse.take 10
        rw [sound.sendCb, keepLast_take, List.map_append, List.reverse_append]
        rfl

theorem sound_start : (start : Publisher Fields).Sound cls checksum where
  intact := ⟨rfl, rfl, rfl⟩
  stream := rfl
  announced _ member := nomatch member
  sendCount := rfl
  numbered _ _ found := nomatch found
  checked _ member := nomatch member
  sendCb := rfl

theorem sound_run (lawful : cls.Lawful) {calls : List (Call Fields)}
    (admitted : (publishing cls checksum highWaterMark).Admits start calls) :
    ((publishing cls checksum highWaterMark).exec start calls).Sound cls checksum := by
  refine (publishing cls checksum highWaterMark).invariant ?_ sound_start admitted
  intro publisher call sound guarded
  exact sound.step lawful call guarded

/-- What has been written is a part of the stream of the accepted messages. -/
theorem Sound.written (sound : publisher.Sound cls checksum) :
    publisher.peer.written <+: Frames.stream Frame.bytes (publisher.frames cls) := by
  rw [← sound.stream, ← sound.intact.2.2]
  exact List.prefix_append _ _

theorem Sound.written_all (sound : publisher.Sound cls checksum)
    (idle : publisher.peer.queue = []) :
    publisher.peer.written = Frames.stream Frame.bytes (publisher.frames cls) := by
  have whole := sound.intact.2.2
  rw [idle, unread_nil, List.append_nil] at whole
  rw [whole, sound.stream]

theorem Sound.announced_sent (sound : publisher.Sound cls checksum) :
    ∀ message ∈ sentOf publisher.log, message.Announced cls := by
  intro message member
  obtain ⟨entry, logged, rfl⟩ := List.mem_map.mp ((sentOf_sublist _).subset member)
  exact sound.announced entry logged

end Steps

end Publisher

end Nise.Peer
