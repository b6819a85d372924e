import Nise.RubyPeer.Subscriptions

/-!
# Publishing from a Ruby peer

`publish_message` packs a message, sets its own members of a copy of the DATA header, packs the
header and sends the two behind one another.  A peer on the other end of the connection gets the
stream in any pieces; each message that is whole reaches the callback that is subscribed for its
class, and is unpacked to what was published.
-/

namespace Nise.RubyPeer

open Nise.Lib Nise.RubyModels

/-- What `publish_message` finds in a message and looks up for it: the id of the record of the
message in the run, and the frame of the simulation. -/
structure Publication (Class Member : Type) where
  messageClass : Class
  message : IseMessage Member
  msgFlagMask : Nat
  destId : Int
  frameCount : Int
  msgId : Int

/-- The packed form of a header with these members. -/
def packHeader (members : HeaderMember → Value) : List UInt8 :=
  ({ SamsonHeader.blank [] with members := members } : IseMessage HeaderMember).packMessage.out

/-- `flags |= mask`. -/
def orFlags (flags : Value) (mask : Nat) : Value :=
  match flags with
  | .integer number => .integer ((number.toNat ||| mask : Nat) : Int)
  | other => other

/-- The global counters, and what has been given to the connection to send. -/
structure Sender where
  sendCount : Nat
  msgSentCnt : Nat
  sent : List UInt8
  deriving DecidableEq, Repr

def Sender.start : Sender := ⟨0, 0, []⟩

section Publish

variable {Class Member : Type} [DecidableEq Member] (control : HeaderMember → Value)
  (appMessageId : Class → Nat) (crc32 : List UInt8 → Nat)

namespace Publication

variable (publication : Publication Class Member)

/-- The bytes of the packed message. -/
def out : List UInt8 := publication.message.packMessage.out

/-- The members of the header, set one after another in a copy of the DATA header. -/
def header (sendCount : Nat) : HeaderMember → Value :=
  let header := instanceVariableSet control .frameCount (.integer publication.frameCount)
  let header := instanceVariableSet header .flags (orFlags (header .flags) publication.msgFlagMask)
  let header := instanceVariableSet header .destPeerId (.integer publication.destId)
  let header := instanceVariableSet header .sendCount (.integer sendCount)
  let header := instanceVariableSet header .messageLength (.integer publication.out.length)
  let header := instanceVariableSet header .messageCrc32 (.integer (crc32 publication.out))
  let header := instanceVariableSet header .msgId (.integer publication.msgId)
  instanceVariableSet header .appMsgId (.integer (appMessageId publication.messageClass))

/-- What is sent for it. -/
def bytes (sendCount : Nat) : List UInt8 :=
  packHeader (publication.header control appMessageId crc32 sendCount) ++ publication.out

end Publication

def publishMessage (sender : Sender) (publication : Publication Class Member) : Sender :=
  let sendCount := sender.sendCount + 1
  ⟨sendCount, sender.msgSentCnt + 1,
    sender.sent ++ publication.bytes control appMessageId crc32 sendCount⟩

/-- `SimMsgFlag.test`. -/
def testFlag (flags mask : Nat) : Bool := mask == flags &&& mask

def xmlBoostSerialize : Nat := 0x00100000
def jsonSerialize : Nat := 0x00400000

/-- The binary branch of `unpack_message (:flags => flags)`; the branches that read XML and JSON
are left out. -/
def unpackFlagged (flags : Nat) (message : IseMessage Member) : Option (IseMessage Member) :=
  if testFlag flags jsonSerialize ∨ testFlag flags xmlBoostSerialize then none
  else message.unpackMessage

/-! ## What can be published -/

/-- The members of the DATA control message that publishing starts from. -/
structure DataControl (control : HeaderMember → Value) : Prop where
  magic : control .magic = .string magic
  type : control .type = .integer 2
  fits : ∀ item ∈ SamsonHeader.items, item.2.Fits (control item.1)

/-- The flags of a published message. -/
def flagsOf (mask : Nat) : Nat :=
  match control .flags with
  | .integer number => number.toNat ||| mask
  | _ => mask

/-- A message whose items carry their values, with numbers that have a place in the header and
flags that announce the binary form. -/
structure Publication.Fits (publication : Publication Class Member) : Prop where
  items : ∀ item ∈ publication.message.msgItems,
    item.2.Fits (publication.message.members item.1)
  length : publication.out.length < 2 ^ 32
  mask : publication.msgFlagMask < 2 ^ 32
  destId : 0 ≤ publication.destId ∧ publication.destId < 2 ^ 32
  frameCount : 0 ≤ publication.frameCount ∧ publication.frameCount < 2 ^ 32
  msgId : 0 ≤ publication.msgId ∧ publication.msgId < 2 ^ 32
  appMsgId : appMessageId publication.messageClass < 2 ^ 16
  crc : crc32 publication.out < 2 ^ 32
  json : testFlag (flagsOf control publication.msgFlagMask) jsonSerialize = false
  xml : testFlag (flagsOf control publication.msgFlagMask) xmlBoostSerialize = false

end Publish

/-! ## The packed header -/

section Packed

/-- Items of a fixed size move the position by their size, packed or not. -/
theorem pos_foldl_packItem {Member : Type} [DecidableEq Member]
    {items : List (Member × ItemType)} (fixed : ∀ item ∈ items, IseMessage.Fixed item)
    (message : IseMessage Member) :
    (items.foldl IseMessage.packItem message).pos =
      message.pos + IseMessage.fixedSize items := by
  induction items generalizing message with
  | nil => rfl
  | cons item rest ih =>
      obtain ⟨directive, code⟩ := fixed item (List.mem_cons_self ..)
      have moved : (message.packItem item).pos = message.pos + (formatCode item.2).2 := by
        unfold IseMessage.packItem
        simp only [code]
        split <;> rfl
      rw [List.foldl_cons, ih (fun other member => fixed other (List.mem_cons_of_mem _ member)),
        moved, Nat.add_assoc]
      rfl

theorem mem_items (member : HeaderMember) : member ∈ SamsonHeader.items.map Prod.fst := by
  cases member <;> decide

/-- The packed header starts with its first item. -/
theorem packed_starts {members : HeaderMember → Value}
    (magic : members .magic = .string magic)
    (fits : ∀ item ∈ SamsonHeader.items, item.2.Fits (members item.1)) :
    ∃ more, packHeader members = RubyPeer.magic ++ more := by
  obtain ⟨bytes, pack, -⟩ := IseMessage.exists_packed (SamsonHeader.items.drop 1) members
    fun item member => fits item (List.mem_of_mem_drop member)
  refine ⟨bytes, ?_⟩
  have first : ({ SamsonHeader.blank [] with members := members, out := [], pos := 0 } :
      IseMessage HeaderMember).packItem (.magic, .asciiString2) =
        { SamsonHeader.blank [] with members := members, out := RubyPeer.magic, pos := 2 } := by
    unfold IseMessage.packItem
    simp only [magic, formatCode]
    rfl
  have rest := pack { SamsonHeader.blank [] with
    members := members, out := RubyPeer.magic, pos := 2 } rfl
  exact congrArg IseMessage.out ((congrArg
    (fun message => (SamsonHeader.items.drop 1).foldl IseMessage.packItem message) first).trans
      rest)

/-- A header that fits is packed to 48 bytes that start with the magic number, and is read
again from them with whatever follows. -/
theorem packed_header {members : HeaderMember → Value}
    (magic : members .magic = .string magic)
    (fits : ∀ item ∈ SamsonHeader.items, item.2.Fits (members item.1)) :
    (packHeader members).length = SamsonHeader.samsonHeaderLength ∧
      (packHeader members).take 2 = RubyPeer.magic ∧
      ∃ header, SamsonHeader.new (packHeader members) = some header ∧
        header.members = members := by
  obtain ⟨bytes, pack, unpack⟩ := IseMessage.exists_packed SamsonHeader.items members fits
  have packed := pack { SamsonHeader.blank [] with members := members, out := [], pos := 0 } rfl
  have out : packHeader members = bytes := congrArg IseMessage.out packed
  have length : bytes.length = SamsonHeader.samsonHeaderLength := by
    have moved := pos_foldl_packItem SamsonHeader.fixed_items
      ({ SamsonHeader.blank [] with members := members, out := [], pos := 0 } :
        IseMessage HeaderMember)
    rw [packed] at moved
    have size : IseMessage.fixedSize SamsonHeader.items = SamsonHeader.samsonHeaderLength := rfl
    simp only [Nat.zero_add] at moved
    rw [moved, size]
  obtain ⟨more, starts⟩ := packed_starts magic fits
  rw [out] at starts ⊢
  refine ⟨length, ?_, ?_⟩
  · rw [starts]
    exact List.take_left' rfl
  · have raw : (SamsonHeader.blank bytes).raw = [] ++ (bytes ++ []) := by
      rw [List.nil_append, List.append_nil]
      exact List.take_of_length_le (Nat.le_of_eq length)
    have restored : (fun member => if member ∈ SamsonHeader.items.map Prod.fst then members member
        else (SamsonHeader.blank bytes).members member) = members := by
      funext member
      exact if_pos (mem_items member)
    have unpacked := unpack (SamsonHeader.blank bytes) [] [] raw rfl
    rw [restored] at unpacked
    refine ⟨{ SamsonHeader.blank bytes with members := members, pos := 0 + bytes.length }, ?_, rfl⟩
    rw [SamsonHeader.new, if_neg (by omega)]
    exact unpacked

end Packed

/-! ## The frame of a publication -/

section Frames

variable {Class Member : Type} {control : HeaderMember → Value}
  {appMessageId : Class → Nat} {crc32 : List UInt8 → Nat}
  {publication : Publication Class Member} {sendCount : Nat}

variable (publication appMessageId crc32 sendCount) in
theorem header_flags (data : DataControl control) :
    publication.header control appMessageId crc32 sendCount .flags =
      .integer (flagsOf control publication.msgFlagMask) := by
  have flags := data.fits (.flags, .aceUint32) (by decide)
  unfold Publication.header flagsOf
  simp only [instanceVariableSet]
  cases value : control .flags with
  | integer number => simp [orFlags]
  | nil =>
      rw [value] at flags
      exact flags.elim
  | string text =>
      rw [value] at flags
      exact flags.elim

theorem flagsOf_lt (data : DataControl control)
    (fits : publication.Fits control appMessageId crc32) :
    flagsOf control publication.msgFlagMask < 2 ^ 32 := by
  have flags := data.fits (.flags, .aceUint32) (by decide)
  unfold flagsOf
  cases value : control .flags with
  | integer number =>
      rw [value] at flags
      have bounds : 0 ≤ number ∧ number < 2 ^ 32 := flags
      exact Nat.or_lt_two_pow (by omega) fits.mask
  | nil => exact fits.mask
  | string text => exact fits.mask

variable (publication appMessageId crc32 sendCount) in
theorem header_magic (data : DataControl control) :
    publication.header control appMessageId crc32 sendCount .magic = .string magic := by
  simp [Publication.header, instanceVariableSet, data.magic]

theorem header_type (data : DataControl control) :
    publication.header control appMessageId crc32 sendCount .type = .integer 2 := by
  simp [Publication.header, instanceVariableSet, data.type]

theorem header_appMsgId :
    publication.header control appMessageId crc32 sendCount .appMsgId =
      .integer (appMessageId publication.messageClass) := by
  simp [Publication.header, instanceVariableSet]

theorem header_messageLength :
    publication.header control appMessageId crc32 sendCount .messageLength =
      .integer publication.out.length := by
  simp [Publication.header, instanceVariableSet]

/-- Every member that publishing sets has a place in the header. -/
theorem header_fits (data : DataControl control)
    (fits : publication.Fits control appMessageId crc32) (counted : sendCount < 2 ^ 32) :
    ∀ item ∈ SamsonHeader.items,
      item.2.Fits (publication.header control appMessageId crc32 sendCount item.1) := by
  have flags := header_flags appMessageId crc32 publication sendCount data
  have bounded := flagsOf_lt data fits
  intro item member
  have given := data.fits item member
  have length := fits.length
  have appMsgId := fits.appMsgId
  have crc := fits.crc
  simp only [SamsonHeader.items, SamsonHeader.leadingItems, List.cons_append, List.nil_append,
    List.mem_cons, List.not_mem_nil, or_false] at member
  rcases member with rfl | rfl | rfl | rfl | rfl | rfl | rfl | rfl | rfl | rfl | rfl | rfl |
    rfl | rfl | rfl
  · exact given
  · exact given
  · exact given
  · exact given
  · exact given
  · exact fits.msgId
  · exact ⟨Int.natCast_nonneg _, by omega⟩
  · exact given
  · rw [flags]
    exact ⟨Int.natCast_nonneg _, by omega⟩
  · exact given
  · exact fits.destId
  · exact fits.frameCount
  · exact ⟨Int.natCast_nonneg _, by omega⟩
  · exact ⟨Int.natCast_nonneg _, by omega⟩
  · exact ⟨Int.natCast_nonneg _, by omega⟩

/-- What the frame of a publication is dispatched to: the callback subscribed last for its class,
with the members of its header and its bytes. -/
def expected {Callback : Type} (control : HeaderMember → Value) (appMessageId : Class → Nat)
    (crc32 : List UInt8 → Nat) (calls : List (Subscription Class Callback))
    (publication : Publication Class Member) (sendCount : Nat) : Handling Callback :=
  ⟨publication.header control appMessageId crc32 sendCount,
    (Subscription.lastGiven (fun call => decide
      (call.Concerns appMessageId 2 (appMessageId publication.messageClass))) calls).map
      fun callback => (callback,
        if appMessageId publication.messageClass = 0 then none else some publication.out)⟩

/-- A publication is a frame of the stream, and is dispatched as such. -/
theorem exists_frame {Callback : Type} (data : DataControl control)
    (fits : publication.Fits control appMessageId crc32) (counted : sendCount < 2 ^ 32)
    (calls : List (Subscription Class Callback)) :
    ∃ frame : Frame, frame.bytes = publication.bytes control appMessageId crc32 sendCount ∧
      frame.dispatched (Subscription.subscribed appMessageId calls) =
        expected control appMessageId crc32 calls publication sendCount := by
  obtain ⟨length, starts, header, parsed, members⟩ :=
    packed_header (header_magic appMessageId crc32 publication sendCount data)
      (header_fits data fits counted)
  obtain ⟨again, parsedAgain, counts⟩ := SamsonHeader.exists_new (Nat.le_of_eq length.symm)
  have same : again = header := Option.some.inj (parsedAgain.symm.trans parsed)
  rw [same, members, header_messageLength] at counts
  have counted : SamsonHeader.dataLength
      (packHeader (publication.header control appMessageId crc32 sendCount)) =
        publication.out.length :=
    (Int.ofNat_inj.mp (Value.integer.inj counts)).symm
  let frame : Frame := ⟨_, publication.out, length, starts, counted⟩
  have fields : frame.fields = publication.header control appMessageId crc32 sendCount := by
    change (Option.getD (SamsonHeader.new (packHeader _)) _).members = _
    rw [parsed]
    exact members
  have type : frame.type = 2 :=
    Int.ofNat_inj.mp (Value.integer.inj (frame.fields_type.symm.trans
      ((congrFun fields .type).trans (header_type data))))
  have appMsgId : frame.appMsgId = appMessageId publication.messageClass :=
    Int.ofNat_inj.mp (Value.integer.inj (frame.fields_appMsgId.symm.trans
      ((congrFun fields .appMsgId).trans header_appMsgId)))
  have kept : convertType frame.fields = frame.fields := by
    have data : frame.fields .type ∉ convertedTypes := by
      rw [frame.fields_type, type]
      decide
    exact if_neg data
  have callback := frame.callback_dispatched appMessageId calls
  rw [type, appMsgId] at callback
  have body : (frame.fields .appMsgId = .integer 0) ↔
      appMessageId publication.messageClass = 0 := by
    rw [frame.fields_appMsgId, appMsgId, Value.integer.injEq, Int.natCast_eq_zero]
  refine ⟨frame, rfl, ?_⟩
  unfold expected
  rw [← callback]
  unfold Frame.dispatched
  dsimp only
  rw [kept, if_congr body rfl rfl, fields]
  simp only [Option.map_map]
  rfl

end Frames

/-! ## The whole stream -/

section Stream

variable {Class Member Callback : Type} {control : HeaderMember → Value}
  {appMessageId : Class → Nat} {crc32 : List UInt8 → Nat}

/-- Publishing numbers the messages from one on and sends them in their order. -/
theorem foldl_publishMessage (publications : List (Publication Class Member)) :
    publications.foldl (publishMessage control appMessageId crc32) .start =
      ⟨publications.length, publications.length,
        Frames.stream (fun item => item.1.bytes control appMessageId crc32 (item.2 + 1))
          publications.zipIdx⟩ := by
  induction publications using List.reverseRecOn with
  | nil => rfl
  | append_singleton before publication ih =>
      rw [List.foldl_append, ih, List.zipIdx_append, Frames.stream_append]
      simp [publishMessage]

theorem exists_frames (data : DataControl control) {publications : List (Publication Class Member)}
    (fits : ∀ publication ∈ publications, publication.Fits control appMessageId crc32)
    (counted : publications.length < 2 ^ 32) (calls : List (Subscription Class Callback)) :
    ∃ frames : List Frame, List.Forall₂ (fun frame item =>
      frame.bytes = item.1.bytes control appMessageId crc32 (item.2 + 1) ∧
        frame.dispatched (Subscription.subscribed appMessageId calls) =
          expected control appMessageId crc32 calls item.1 (item.2 + 1))
      frames publications.zipIdx := by
  refine Frames.exists_forall₂ ?_
  rintro ⟨publication, index⟩ member
  obtain ⟨below, found⟩ := List.mem_zipIdx' member
  exact exists_frame data (fits publication (found ▸ List.getElem_mem below)) (by omega) calls

/--
When all messages that a Ruby peer publishes fit, then however the connection cuts their bytes,
the peer at the other end has handled those that lie whole in the bytes it got, each once and in
order: the header has the members that were set for the message and its number, the callback is
the one subscribed last for its class, and the data unpacks to the items that were published.
-/
theorem published_messages_called_back [DecidableEq Member] (data : DataControl control)
    (publications : List (Publication Class Member))
    (fits : ∀ publication ∈ publications, publication.Fits control appMessageId crc32)
    (counted : publications.length < 2 ^ 32) (calls : List (Subscription Class Callback))
    (chunks : List (List UInt8))
    (arrived : chunks.flatten <+:
      (publications.foldl (publishMessage control appMessageId crc32) .start).sent) :
    ∃ protocol, chunks.foldlM (receiveData (Subscription.subscribed appMessageId calls)) .start =
        some protocol ∧
      protocol.handled = (Frames.within
        (fun item => item.1.bytes control appMessageId crc32 (item.2 + 1))
          publications.zipIdx chunks.flatten.length).map
            (fun item => expected control appMessageId crc32 calls item.1 (item.2 + 1)) ∧
      ∀ publication ∈ publications, ∀ receiver : IseMessage Member,
        receiver.msgItems = publication.message.msgItems →
          ∃ after, unpackFlagged (flagsOf control publication.msgFlagMask)
              { receiver with raw := publication.out } = some after ∧
            ∀ item ∈ publication.message.msgItems,
              after.members item.1 = publication.message.members item.1 := by
  obtain ⟨frames, related⟩ := exists_frames data fits counted calls
  obtain ⟨same, within⟩ := Frames.within_forall₂ Frame.bytes (fun _ _ both => both.1) related
    chunks.flatten.length
  rw [foldl_publishMessage, ← same] at arrived
  obtain ⟨protocol, finished, pending, done, standing⟩ :=
    (Standing.start (Subscription.subscribed appMessageId calls) frames).foldlM_receiveData _
      chunks arrived
  rw [List.nil_append] at standing
  refine ⟨protocol, done, ?_, ?_⟩
  · rw [standing.handled, ← standing.progress.within_received]
    refine List.forall₂_eq_eq_eq ▸ ?_
    rw [List.forall₂_map_left_iff, List.forall₂_map_right_iff]
    exact within.imp fun _ _ both => both.2
  · intro publication member receiver sameItems
    have fitting := fits publication member
    obtain ⟨bytes, pack, unpack⟩ := IseMessage.exists_packed publication.message.msgItems
      publication.message.members fitting.items
    have out : publication.out = bytes :=
      congrArg IseMessage.out (pack { publication.message with out := [], pos := 0 } rfl)
    have binary : ¬ (testFlag (flagsOf control publication.msgFlagMask) jsonSerialize ∨
        testFlag (flagsOf control publication.msgFlagMask) xmlBoostSerialize) := by
      rw [fitting.json, fitting.xml]
      decide
    have unpacked := unpack { receiver with raw := bytes, pos := 0 } [] [] (by simp) rfl
    rw [sameItems] at unpacked
    unfold unpackFlagged IseMessage.unpackMessage
    rw [if_neg binary, out, sameItems]
    refine ⟨_, unpacked, fun item among => ?_⟩
    exact if_pos (List.mem_map_of_mem among)

end Stream

/-! A message of two items is published twice. -/

def sampleControl : HeaderMember → Value
  | .magic => .string magic
  | .type => .integer 2
  | .versionId => .integer 1
  | .runId => .integer 5
  | .peerId => .integer 9
  | _ => .integer 0

theorem sampleControl_data : DataControl sampleControl where
  magic := rfl
  type := rfl
  fits := by
    simp [SamsonHeader.items, SamsonHeader.leadingItems, sampleControl, magic, ItemType.Fits,
      formatCode, Directive.Fits]

def samplePublication : Publication Unit Bool where
  messageClass := ()
  message := ⟨[(false, .uint8), (true, .uint16)],
    fun second => if second then .integer 513 else .integer 7, [], [], 0⟩
  msgFlagMask := 8
  destId := 0
  frameCount := 3
  msgId := 40

theorem samplePublication_fits :
    samplePublication.Fits sampleControl (fun _ => 6) (fun bytes => bytes.length) where
  items := by simp [samplePublication, ItemType.Fits, formatCode, Directive.Fits]
  length := by decide
  mask := by decide
  destId := by decide
  frameCount := by decide
  msgId := by decide
  appMsgId := by decide
  crc := by decide
  json := by decide
  xml := by decide

theorem published_messages_called_back_twice :
    ∃ protocol, [(samplePublication.bytes sampleControl (fun _ => 6) (fun bytes => bytes.length) 1),
        (samplePublication.bytes sampleControl (fun _ => 6) (fun bytes => bytes.length) 2)].foldlM
          (receiveData (Subscription.subscribed (fun _ : Unit => 6) [.message () (some "heard")]))
          .start = some protocol ∧
      protocol.handled.map Handling.call =
        [some ("heard", some [7, 2, 1]), some ("heard", some [7, 2, 1])] := by
  obtain ⟨protocol, done, handled, -⟩ := published_messages_called_back
    sampleControl_data [samplePublication, samplePublication]
    (fun publication member => (List.mem_pair.mp member).elim
      (fun same => same ▸ samplePublication_fits) fun same => same ▸ samplePublication_fits)
    (by decide) [.message () (some "heard")]
    [(samplePublication.bytes sampleControl (fun _ => 6) (fun bytes => bytes.length) 1),
      (samplePublication.bytes sampleControl (fun _ => 6) (fun bytes => bytes.length) 2)]
    (by decide)
  refine ⟨protocol, done, ?_⟩
  rw [handled]
  decide

end Nise.RubyPeer
