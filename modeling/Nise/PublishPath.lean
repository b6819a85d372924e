import Nise.Core.WireHeader
import Nise.Dispatcherd.ReceiveHandler
import Nise.Lib.Pipe
import Nise.Peer.Publish

/-!
# From a model to its dispatcher

A model publishes while the dispatcher receives.  The steps of the two come in any order, the
socket takes and gives what it likes, and the dispatcher can read only what has been written.
-/

namespace Nise

open Nise.Ace Nise.Core Nise.Lib Nise.Peer Nise.Dispatcherd

variable {Fields : Type}

section Grows

variable {highWaterMark : Nat} (handler : Outgoing)

theorem written_outgoing (call : Outgoing.Call) :
    handler.written <+: (handler.step highWaterMark call).written := by
  cases call with
  | elsewhere errno => exact List.prefix_refl _
  | handleOutput sent wakeup =>
      change _ <+: (handler.handleOutput highWaterMark sent wakeup).1.written
      unfold Outgoing.handleOutput
      split
      · exact List.prefix_refl _
      · exact List.prefix_append _ _
  | transmit startMb cont sent wakeup =>
      have kept : handler.written <+:
          (handler.transmit highWaterMark startMb cont sent wakeup).1.written := by
        unfold Outgoing.transmit Outgoing.put
        split
        · exact List.prefix_append _ _
        · split
          · exact List.prefix_refl _
          · exact List.prefix_refl _
      unfold Outgoing.step
      dsimp only
      split
      · exact kept
      · exact kept

end Grows

variable (cls : HeaderClass Fields) (checksum : List UInt8 → UInt32) (highWaterMark : Nat)
  (handler : ReceiveHandler Fields) (process : EventHeader Fields → Option MessageBlock → Int)

/-- The connection from a model to the handler of its dispatcher. -/
def uplink : Pipe (Publisher Fields) (Publisher.Call Fields) (Intake Fields) (List RecvResult)
    UInt8 where
  writer := Publisher.publishing cls checksum highWaterMark
  written publisher := publisher.peer.written
  reader := intake (handler.invocation process)
  grows publisher call _ := by
    change _ <+: (publisher.step cls checksum highWaterMark call).peer.written
    rw [Publisher.step_peer]
    exact written_outgoing _ _
  blind _ _ _ _ := rfl
  readable data more state script within guarded := ⟨guarded.1, guarded.2.trans within⟩

/--
Whatever the order of the steps, the dispatcher has handed on the messages that lie whole in the
bytes it has received, each once and in the order in which they were accepted, with the headers
they were given; the messages carry consecutive numbers and the checksums of their data; and when
nothing is queued and everything written has been received, it has handed on all of them.
-/
theorem published_messages_reach_dispatcher {blank : EventHeader Fields} (lawful : cls.Lawful)
    (sameType : handler.headerType = cls.toHeaderType) (allocates : handler.evhGet = some blank)
    (capacity : blank.addr.length = cls.headerLength)
    (events : List (Publisher.Call Fields ⊕ List RecvResult))
    (admitted : (uplink cls checksum highWaterMark handler process).joined.Admits
      (Publisher.start, Intake.start) events) :
    let final := (uplink cls checksum highWaterMark handler process).joined.exec
      (Publisher.start, Intake.start) events
    let accepted := sentOf final.1.log
    let arrived := fun message : Message Fields =>
      handler.filtered (message.arrive cls blank handler.details)
    final.2.handed = (Message.within cls accepted final.2.received.length).map arrived ∧
      (final.1.peer.queue = [] → final.2.received = final.1.peer.written →
        final.2.handed = accepted.map arrived) ∧
      (∀ index entry, final.1.log[index]? = some entry →
        cls.sendCount entry.1.sh = .ofNat index) ∧
      (∀ entry ∈ final.1.log, cls.crc32 entry.1.sh = dataCrc32 checksum entry.1.data) ∧
      final.1.sendCb = (final.1.log.map fun entry => entry.1.sh).reverse.take 10 := by
  intro final accepted arrived
  obtain ⟨publishes, published⟩ := Pipe.writer_run admitted
  have sound : final.1.Sound cls checksum := published ▸ Publisher.sound_run lawful publishes
  obtain ⟨reads, reached⟩ := Pipe.reader_run admitted sound.written
  have result : final.2.handed =
      (Message.within cls accepted final.2.received.length).map arrived := by
    have handed := Message.handed_intake lawful handler.filtered capacity sound.announced_sent
      (fun fragment errno script => ⟨.clear, sameType ▸
        ReceiveHandler.invocation_wraps allocates process fragment errno script⟩) reads
    rw [reached]
    exact handed
  refine ⟨result, ?_, sound.numbered, sound.checked, sound.sendCb⟩
  intro idle all
  rw [result, Message.within_all]
  rw [all, sound.written_all idle]
  exact Nat.le_refl _

/-- The sum of the bytes, in place of a checksum. -/
def byteSum (data : List UInt8) : UInt32 := (data.map UInt8.toUInt32).sum

def receiver : ReceiveHandler WireHeader :=
  ⟨WireHeader.headerClass.toHeaderType, some WireHeader.blank, 1, 5, none⟩

/-- A model publishes two bytes of data, and the dispatcher gets the frame in two parts. -/
def publishedOnce : List (Publisher.Call WireHeader ⊕ List RecvResult) :=
  let sh := WireHeader.headerClass.setCrc32 (.forData 7 2) (byteSum [1, 2])
  [.inl (.publish (some ⟨2, [1, 2]⟩) (.forData 7 2) .complete true),
    .inr [.bytes (sh.encode.take 20)], .inr [.bytes (sh.encode.drop 20), .bytes [1, 2]]]

theorem publishedOnce_admitted :
    (uplink WireHeader.headerClass byteSum 64 receiver (fun _ _ => 0)).joined.Admits
      (Publisher.start, Intake.start) publishedOnce := by
  refine ⟨⟨⟨rfl, by decide⟩, trivial, ?_⟩, ?_, ?_, trivial⟩
  · intro _
    have counted : toInt 50 ≠ -1 := by decide
    exact counted
  · change (intake (receiver.invocation fun _ _ => 0) _).guard _ _
    decide
  · change (intake (receiver.invocation fun _ _ => 0) _).guard _ _
    decide

theorem published_messages_reach_dispatcher_publishedOnce :
    let final := (uplink WireHeader.headerClass byteSum 64 receiver
      (fun _ _ => 0)).joined.exec (Publisher.start, Intake.start) publishedOnce
    final.1.log.length = 1 ∧ final.2.received = final.1.peer.written ∧
      final.2.handed = (sentOf final.1.log).map fun message =>
        receiver.filtered (message.arrive WireHeader.headerClass WireHeader.blank
          receiver.details) := by
  intro final
  have reached : final.2.received = final.1.peer.written := by decide
  exact ⟨by decide, reached, (published_messages_reach_dispatcher WireHeader.headerClass byteSum 64
    receiver (fun _ _ => 0) WireHeader.headerClass_lawful rfl rfl rfl publishedOnce
    publishedOnce_admitted).2.1 (by decide) reached⟩

end Nise
