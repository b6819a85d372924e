import Nise.Ace.MessageQueue
import Nise.Core.FrameReader

/-!
# Messages with an encoded header

A message is a header object and the data behind it.  To send it the header is encoded and the
data is chained to it; the frame of the message is what a receiver has to put together again.
-/

namespace Nise.Core

open Nise.Ace Nise.Lib

variable {Fields : Type}

/-- The members of the header class that sending uses. -/
structure HeaderClass (Fields : Type) extends HeaderType Fields where
  peerId : Fields → UInt32
  sendCount : Fields → UInt32
  crc32 : Fields → UInt32
  setSendCount : Fields → UInt32 → Fields
  setCrc32 : Fields → UInt32 → Fields
  encode : Fields → List UInt8

/-- A header can be decoded from its encoded form, which fills the buffer, and each member is
set on its own. -/
structure HeaderClass.Lawful (cls : HeaderClass Fields) : Prop where
  length_encode : ∀ sh, (cls.encode sh).length = cls.headerLength
  decode_encode : ∀ sh, cls.decode (cls.encode sh) = sh
  peerId_setSendCount : ∀ sh count, cls.peerId (cls.setSendCount sh count) = cls.peerId sh
  peerId_setCrc32 : ∀ sh crc, cls.peerId (cls.setCrc32 sh crc) = cls.peerId sh
  sendCount_set : ∀ sh count, cls.sendCount (cls.setSendCount sh count) = count
  sendCount_setCrc32 : ∀ sh crc, cls.sendCount (cls.setCrc32 sh crc) = cls.sendCount sh
  crc32_set : ∀ sh crc, cls.crc32 (cls.setCrc32 sh crc) = crc
  dataLength_setSendCount : ∀ sh count, cls.dataLength (cls.setSendCount sh count) =
    cls.dataLength sh
  dataLength_setCrc32 : ∀ sh crc, cls.dataLength (cls.setCrc32 sh crc) = cls.dataLength sh

structure Message (Fields : Type) where
  sh : Fields
  data : Option MessageBlock
  deriving DecidableEq, Repr

namespace Message

variable (cls : HeaderClass Fields) (message : Message Fields)

def body : List UInt8 := (message.data.map MessageBlock.data).getD []

/-- The encoded header, and the data behind it. -/
def frame : Frame := ⟨cls.encode message.sh, message.body⟩

/-- The header announces the data, and the whole is not too long for an `int`. -/
structure Announced : Prop where
  length : cls.dataLength message.sh = message.body.length
  fits : cls.headerLength + message.body.length < 2 ^ 31

instance : Decidable (message.Announced cls) :=
  decidable_of_iff (cls.dataLength message.sh = message.body.length ∧
      cls.headerLength + message.body.length < 2 ^ 31)
    ⟨fun both => ⟨both.1, both.2⟩, fun announced => ⟨announced.length, announced.fits⟩⟩

/-- The block of the encoded header, which the data is chained to. -/
def startMb : MessageBlock := ⟨cls.headerLength, cls.encode message.sh⟩

/-- The pair a receiver hands on for the message. -/
def arrive (blank : EventHeader Fields) (details : Option (Int × Int)) :
    EventHeader Fields × Option MessageBlock :=
  ({ blank with addr := cls.encode message.sh, fields := message.sh }.fill details,
    if message.body = [] then none else some ⟨message.body.length, message.body⟩)

variable {cls message}

theorem unread_data : unread message.data.toList = message.body := by
  unfold body
  cases message.data with
  | none => rfl
  | some block => exact List.append_nil _

variable (cls message) in
theorem bytes_frame :
    (message.frame cls).bytes = (message.startMb cls).data ++ unread message.data.toList := by
  rw [unread_data]
  rfl

theorem Announced.valid (announced : message.Announced cls) (lawful : cls.Lawful) :
    (message.frame cls).Valid cls.toHeaderType where
  header_length := lawful.length_encode message.sh
  body_length := by
    change _ = cls.dataLength (cls.decode (cls.encode message.sh))
    rw [lawful.decode_encode, announced.length]
    rfl

theorem Announced.fitsInt (announced : message.Announced cls) (lawful : cls.Lawful) :
    (message.frame cls).FitsInt := by
  unfold Frame.FitsInt Frame.bytes frame
  rw [List.length_append, lawful.length_encode]
  exact announced.fits

theorem delivery_frame (lawful : cls.Lawful) (blank : EventHeader Fields)
    (details : Option (Int × Int)) :
    (message.frame cls).delivery cls.toHeaderType blank details =
      message.arrive cls blank details := by
  unfold Frame.delivery received arrive
  dsimp only [frame]
  rw [lawful.decode_encode]
  rfl

variable (cls) in
/-- The messages that lie whole in so many bytes of their stream. -/
def within (messages : List (Message Fields)) (count : Nat) : List (Message Fields) :=
  Frames.within (fun message => (frame cls message).bytes) messages count

theorem within_all (messages : List (Message Fields)) {count : Nat}
    (enough : (Frames.stream Frame.bytes (messages.map (frame cls))).length ≤ count) :
    within cls messages count = messages := by
  rw [Frames.stream_map] at enough
  exact Frames.within_stream _ messages enough

theorem within_append_of_lt (messages : List (Message Fields)) (last : Message Fields)
    {count : Nat} (short : count < (Frames.stream Frame.bytes (messages.map (frame cls))).length +
      (last.frame cls).bytes.length) :
    within cls (messages ++ [last]) count = within cls messages count := by
  rw [Frames.stream_map] at short
  exact Frames.within_append_of_lt _ messages last short

/-- A handler of a stream of messages hands on those that lie whole in the bytes it has
received. -/
theorem handed_intake (lawful : cls.Lawful) {blank : EventHeader Fields}
    {details : Option (Int × Int)} {messages : List (Message Fields)}
    {invoke : Fragment Fields → Errno → List RecvResult → Invocation Fields}
    (react : EventHeader Fields × Option MessageBlock → EventHeader Fields × Option MessageBlock)
    (capacity : blank.addr.length = cls.headerLength)
    (announced : ∀ message ∈ messages, message.Announced cls)
    (wraps : ∀ fragment errno script, ∃ before, Wraps cls.toHeaderType blank details react
      (invoke fragment errno script)
      (recvFrame cls.toHeaderType (some blank) details fragment before script))
    {scripts : List (List RecvResult)}
    (admitted : (intake invoke (Frames.stream Frame.bytes (messages.map (frame cls)))).Admits
      .start scripts) :
    let final := (intake invoke (Frames.stream Frame.bytes (messages.map (frame cls)))).exec
      .start scripts
    final.handed = (within cls messages final.received.length).map fun message =>
      react (message.arrive cls blank details) := by
  intro final
  have valid : ∀ whole ∈ messages.map (frame cls), whole.Valid cls.toHeaderType := by
    intro whole member
    obtain ⟨message, sent, rfl⟩ := List.mem_map.mp member
    exact (announced message sent).valid lawful
  have fits : ∀ whole ∈ messages.map (frame cls), whole.FitsInt := by
    intro whole member
    obtain ⟨message, sent, rfl⟩ := List.mem_map.mp member
    exact (announced message sent).fitsInt lawful
  rw [(intake_reassembles react capacity valid fits wraps admitted).handed, Frames.within_map,
    List.map_map]
  refine List.map_congr_left ?_
  intro message _
  exact congrArg react (delivery_frame lawful blank details)

end Message

/-! ## What was not refused -/

/-- The items for which a call did not return -1, in order. -/
def sentOf {Item : Type} (log : List (Item × Int)) : List Item :=
  log.filterMap fun entry => if entry.2 = -1 then none else some entry.1

section SentOf

variable {Item : Type} (log : List (Item × Int)) (item : Item)

theorem sentOf_append_refused {result : Int} (refused : result = -1) :
    sentOf (log ++ [(item, result)]) = sentOf log := by
  unfold sentOf
  rw [List.filterMap_append, List.filterMap_cons, if_pos refused]
  exact List.append_nil _

theorem sentOf_append_sent {result : Int} (sent : result ≠ -1) :
    sentOf (log ++ [(item, result)]) = sentOf log ++ [item] := by
  unfold sentOf
  rw [List.filterMap_append, List.filterMap_cons, if_neg sent]
  rfl

theorem sentOf_sublist : (sentOf log).Sublist (log.map Prod.fst) := by
  induction log with
  | nil => exact .refl _
  | cons entry rest ih =>
      unfold sentOf
      rw [List.filterMap_cons, List.map_cons]
      split
      · exact ih.cons _
      · next found =>
          split at found
          · cases found
          · cases found
            exact ih.cons_cons _

end SentOf

end Nise.Core
