import Nise.RubyModels.IseMessage
import Nise.RubyModels.Link16Message

/-!
# Link-16 messages in the simple protocol

A `SimpleJMessage` puts a Link-16 message between a header of the simple protocol, a header of
its own and a footer.  `pack_message` packs the four parts one after another and computes the
checksum of the footer, but leaves the length and the word count of the headers as they are.
`unpack_message` cuts the bytes at the sizes of the parts and hands each of them its bytes; it
calls the `unpack_message` of the parts with two arguments, of which they take one.
-/

namespace Nise.RubyModels

open Nise.Lib

inductive SimpleHeaderItem where
  | syncByte1
  | syncByte2
  | length
  | sequenceNum
  | sourceNode
  | sourceSubNode
  | destinationNode
  | destinationeSubNode
  | packetSize
  | packetType
  | transitTime
  deriving DecidableEq, Repr

inductive Link16HeaderItem where
  | messageSubType
  | rCFlag
  | netNum
  | seqSlotCountF2
  | npgNum
  | seqSlotCountF1
  | stn
  | wordCount
  | loopbackId
  deriving DecidableEq, Repr

inductive FooterItem where
  | checksum
  deriving DecidableEq, Repr

/-- A part of a message with the `max_size` that it keeps. -/
structure Component (Message : Type) where
  message : Message
  maxSize : Nat

/-- The items declared with `item`, which adds up their sizes, and the default values. -/
def Component.declare {Member : Type} (items : List (Member × ItemType))
    (members : Member → Value) : Component (IseMessage Member) where
  message := ⟨items, members, [], [], 0⟩
  maxSize := (items.map fun item => (formatCode item.2).2).sum

def simpleHeaderItems : List (SimpleHeaderItem × ItemType) :=
  [(.syncByte1, .unsignedChar), (.syncByte2, .unsignedChar), (.length, .littleUint16),
    (.sequenceNum, .littleUint16), (.sourceNode, .unsignedChar),
    (.sourceSubNode, .unsignedChar), (.destinationNode, .unsignedChar),
    (.destinationeSubNode, .unsignedChar), (.packetSize, .unsignedChar),
    (.packetType, .unsignedChar), (.transitTime, .littleUint16)]

def simpleJHeader : Component (IseMessage SimpleHeaderItem) :=
  Component.declare simpleHeaderItems fun
    | .syncByte1 => .integer 0b01001001
    | .syncByte2 => .integer 0b00110110
    | .length => .integer 0b0000000000111100
    | .sequenceNum => .integer 0b1100011001110001
    | .sourceNode => .integer 0b01111101
    | .sourceSubNode => .integer 0b11001110
    | .destinationNode => .integer 0b10000001
    | .destinationeSubNode => .integer 0b11001110
    | .packetSize => .integer 0b00011010
    | .packetType => .integer 0b00000001
    | .transitTime => .integer 0b0000000000000000

def link16HeaderItems : List (Link16HeaderItem × ItemType) :=
  [(.messageSubType, .unsignedChar), (.rCFlag, .unsignedChar), (.netNum, .unsignedChar),
    (.seqSlotCountF2, .unsignedChar), (.npgNum, .littleUint16),
    (.seqSlotCountF1, .littleUint16), (.stn, .littleUint16), (.wordCount, .littleUint16),
    (.loopbackId, .littleUint16)]

def simpleJLink16Header : Component (IseMessage Link16HeaderItem) :=
  Component.declare link16HeaderItems fun
    | .messageSubType => .integer 0b00000010
    | .rCFlag => .integer 0b00000000
    | .netNum => .integer 0b00000000
    | .seqSlotCountF2 => .integer 0b00000000
    | .npgNum => .integer 0b0000000000000111
    | .seqSlotCountF1 => .integer 0b0000000000000000
    | .stn => .integer 0b0000000000000001
    | .wordCount => .integer 0b0000000000001111
    | .loopbackId => .integer 0b0000000000000000

def footerItems : List (FooterItem × ItemType) := [(.checksum, .littleUint16)]

def simpleFooter : Component (IseMessage FooterItem) :=
  Component.declare footerItems fun _ => .integer 0

/-- A `SimpleJMessage`; its own `max_size` is left out. -/
structure SimpleJMessage where
  simplejHeader : Component (IseMessage SimpleHeaderItem)
  simplejLink16Header : Component (IseMessage Link16HeaderItem)
  link16Message : Component Link16Message
  simpleFooter : Component (IseMessage FooterItem)
  raw : List UInt8
  out : List UInt8
  pos : Nat

/-- `text.sum`: the sum of the bytes in sixteen bits. -/
def stringSum (text : List UInt8) : Nat := (text.map UInt8.toNat).sum % 2 ^ 16

inductive RubyError where
  | argumentError
  | noMethodError
  | other
  deriving DecidableEq, Repr

inductive Argument where
  | flags (flags : Int)
  | details (details : Bool)
  deriving DecidableEq, Repr

namespace SimpleJMessage

/-- A message around an instance of a Link-16 message. -/
def new (link16Message : Component Link16Message) : SimpleJMessage where
  simplejHeader := simpleJHeader
  simplejLink16Header := simpleJLink16Header
  link16Message := link16Message
  simpleFooter := RubyModels.simpleFooter
  raw := []
  out := []
  pos := 0

def packMessage (message : SimpleJMessage) : Option SimpleJMessage := do
  let simplejHeader := message.simplejHeader.message.packMessage
  let simplejLink16Header := message.simplejLink16Header.message.packMessage
  let link16Message ← message.link16Message.message.packMessage
  let out := simplejHeader.out ++ simplejLink16Header.out ++ link16Message.out
  let simpleFooter :=
    (message.simpleFooter.message.setMember .checksum (.integer (stringSum out))).packMessage
  return { message with
    simplejHeader := { message.simplejHeader with message := simplejHeader }
    simplejLink16Header := { message.simplejLink16Header with message := simplejLink16Header }
    link16Message := { message.link16Message with message := link16Message }
    simpleFooter := { message.simpleFooter with message := simpleFooter }
    out := out ++ simpleFooter.out }

/-! ## Unpacking -/

/-- One of the four parts, and what its `unpack_message` does without arguments. -/
structure Part (Message : Type) where
  get : SimpleJMessage → Component Message
  set : SimpleJMessage → Component Message → SimpleJMessage
  receive : Component Message → List UInt8 → Component Message
  unpack : Component Message → Option (Component Message)

/-- An ISE message takes the length of its bytes for its `max_size`. -/
def unpackIse {Member : Type} [DecidableEq Member] (component : Component (IseMessage Member)) :
    Option (Component (IseMessage Member)) :=
  component.message.unpackMessage.map fun message => ⟨message, component.message.raw.length⟩

def headerPart : Part (IseMessage SimpleHeaderItem) where
  get message := message.simplejHeader
  set message part := { message with simplejHeader := part }
  receive part raw := { part with message := { part.message with raw := raw } }
  unpack := unpackIse

def link16HeaderPart : Part (IseMessage Link16HeaderItem) where
  get message := message.simplejLink16Header
  set message part := { message with simplejLink16Header := part }
  receive part raw := { part with message := { part.message with raw := raw } }
  unpack := unpackIse

def link16Part : Part Link16Message where
  get message := message.link16Message
  set message part := { message with link16Message := part }
  receive part raw := { part with message := { part.message with raw := raw } }
  unpack part := part.message.unpackMessage.map fun message => { part with message := message }

def footerPart : Part (IseMessage FooterItem) where
  get message := message.simpleFooter
  set message part := { message with simpleFooter := part }
  receive part raw := { part with message := { part.message with raw := raw } }
  unpack := unpackIse

/-- `strip_me_raw`, with nil behind the end. -/
def stripMeRaw (maxSize : Nat) : EStateM RubyError SimpleJMessage (Option (List UInt8)) := do
  let message ← get
  set { message with pos := message.pos + maxSize }
  return slice message.raw message.pos maxSize

/-- The part gets its bytes; a part without bytes keeps its old ones here. -/
def assignRaw {Message : Type} (part : Part Message) (raw : Option (List UInt8)) :
    EStateM RubyError SimpleJMessage Unit :=
  match raw with
  | some raw => modify fun message => part.set message (part.receive (part.get message) raw)
  | none => pure ()

/-- `unpack_message (options={})` of a part has one parameter; with more arguments it is not
begun, and without bytes it raises. -/
def callUnpack {Message : Type} (part : Part Message) (arguments : List Argument)
    (raw : Option (List UInt8)) : EStateM RubyError SimpleJMessage Unit :=
  if 1 < arguments.length then throw .argumentError
  else if raw.isNone then throw .noMethodError
  else do
    match part.unpack (part.get (← get)) with
    | some after => modify fun message => part.set message after
    | none => throw .other

def unpackPart {Message : Type} (part : Part Message) (arguments : List Argument) :
    EStateM RubyError SimpleJMessage Unit := do
  let raw ← stripMeRaw (part.get (← get)).maxSize
  assignRaw part raw
  callUnpack part arguments raw

def unpackMessage (flags : Int) (details : Bool) : EStateM RubyError SimpleJMessage Unit := do
  modify fun message => { message with pos := 0 }
  unpackPart headerPart [.flags flags, .details details]
  unpackPart link16HeaderPart [.flags flags, .details details]
  unpackPart link16Part [.flags flags, .details details]
  unpackPart footerPart [.flags flags, .details details]

/-- The four parts have the same values in their fields. -/
structure SameFields (message other : SimpleJMessage) : Prop where
  header : message.simplejHeader.message.members = other.simplejHeader.message.members
  link16Header :
    message.simplejLink16Header.message.members = other.simplejLink16Header.message.members
  link16 : message.link16Message.message.members = other.link16Message.message.members
  footer : message.simpleFooter.message.members = other.simpleFooter.message.members

theorem bind_ok {State Result Next : Type} {first : EStateM RubyError State Result}
    {next : Result → EStateM RubyError State Next} {state after : State} {result : Result}
    (returned : first state = .ok result after) : (first >>= next) state = next result after := by
  change EStateM.bind first next state = next result after
  unfold EStateM.bind
  rw [returned]

theorem bind_error {State Result Next : Type} {first : EStateM RubyError State Result}
    {next : Result → EStateM RubyError State Next} {state after : State} {error : RubyError}
    (raised : first state = .error error after) :
    (first >>= next) state = .error error after := by
  change EStateM.bind first next state = .error error after
  unfold EStateM.bind
  rw [raised]

/-- A part that is called with more than one argument gets its bytes, and then it raises. -/
theorem unpackPart_raises {Message : Type} (part : Part Message) {arguments : List Argument}
    (many : 1 < arguments.length) (message : SimpleJMessage) {next : SimpleJMessage}
    (assigned : assignRaw part (slice message.raw message.pos (part.get message).maxSize)
      { message with pos := message.pos + (part.get message).maxSize } = .ok () next) :
    unpackPart part arguments message = .error .argumentError next := by
  have refused : ∀ raw, callUnpack part arguments raw = throw .argumentError :=
    fun raw => if_pos many
  have stripped : unpackPart part arguments message =
      (assignRaw part (slice message.raw message.pos (part.get message).maxSize) >>= fun _ =>
        callUnpack part arguments (slice message.raw message.pos (part.get message).maxSize))
        { message with pos := message.pos + (part.get message).maxSize } := rfl
  rw [stripped, bind_ok assigned, refused]
  rfl

/-- Unpacking raises at its first part, and no field has got a value. -/
theorem unpackMessage_raises (message : SimpleJMessage) (flags : Int) (details : Bool) :
    ∃ after, unpackMessage flags details message = .error .argumentError after ∧
      after.SameFields message := by
  have assigned : ∀ raw state, ∃ next, assignRaw headerPart raw state = .ok () next ∧
      next.SameFields state := by
    intro raw state
    cases raw with
    | none => exact ⟨state, rfl, rfl, rfl, rfl, rfl⟩
    | some bytes => exact ⟨_, rfl, rfl, rfl, rfl, rfl⟩
  obtain ⟨after, gets, same⟩ := assigned
    (slice message.raw 0 message.simplejHeader.maxSize)
    { message with pos := 0 + message.simplejHeader.maxSize }
  have many : 1 < [Argument.flags flags, Argument.details details].length := Nat.one_lt_two
  have raised : unpackPart headerPart [.flags flags, .details details]
      { message with pos := 0 } = .error .argumentError after :=
    unpackPart_raises headerPart many { message with pos := 0 } gets
  have begun : unpackMessage flags details message =
      (unpackPart headerPart [.flags flags, .details details] >>= fun _ => do
        unpackPart link16HeaderPart [.flags flags, .details details]
        unpackPart link16Part [.flags flags, .details details]
        unpackPart footerPart [.flags flags, .details details]) { message with pos := 0 } := rfl
  refine ⟨after, ?_, same.header, same.link16Header, same.link16, same.footer⟩
  rw [begun, bind_error raised]

/-! ## Framing -/

/-- The length in the header: the bytes of the string. -/
def LengthRight (packed : SimpleJMessage) : Prop :=
  Directive.v.unpack (packed.out.drop 2) = .integer packed.out.length

/-- The word count in the header of the Link-16 message: its words. -/
def WordCountRight (packed : SimpleJMessage) : Prop :=
  Directive.v.unpack (packed.out.drop (14 + 10)) =
    .integer (packed.link16Message.message.out.length / 2 : Nat)

/-- The checksum in the footer: the sum of the bytes before it. -/
def ChecksumRight (packed : SimpleJMessage) : Prop :=
  Directive.v.unpack (packed.out.drop (packed.out.length - 2)) =
    .integer (stringSum (packed.out.take (packed.out.length - 2)))

/-- A receiver that unpacks the string has every field of the four parts. -/
def Recovers (packed receiver : SimpleJMessage) (flags : Int) (details : Bool) : Prop :=
  ∃ after, unpackMessage flags details { receiver with raw := packed.out } = .ok () after ∧
    after.SameFields packed

def Framed (sender receiver : SimpleJMessage) (flags : Int) (details : Bool) : Prop :=
  ∃ packed, sender.packMessage = some packed ∧ packed.LengthRight ∧ packed.WordCountRight ∧
    packed.ChecksumRight ∧ packed.Recovers receiver flags details

/-- The two headers and the footer have the items they are declared with, and values of these
types. -/
structure WellFormed (message : SimpleJMessage) : Prop where
  headerItems : message.simplejHeader.message.msgItems = simpleHeaderItems
  header : ∀ item ∈ simpleHeaderItems,
    item.2.Fits (message.simplejHeader.message.members item.1)
  link16HeaderItems : message.simplejLink16Header.message.msgItems = RubyModels.link16HeaderItems
  link16Header : ∀ item ∈ RubyModels.link16HeaderItems,
    item.2.Fits (message.simplejLink16Header.message.members item.1)
  footerItems : message.simpleFooter.message.msgItems = RubyModels.footerItems

end SimpleJMessage

namespace IseMessage

variable {Member : Type} [DecidableEq Member]

/-- The sizes of items, as `item` adds them up. -/
def sizes (items : List (Member × ItemType)) : Nat :=
  (items.map fun item => (formatCode item.2).2).sum

/-- Items of which none is a string encoding. -/
def Directives (items : List (Member × ItemType)) : Prop :=
  ∀ item ∈ items, ∃ directive, (formatCode item.2).1 = .directive directive

omit [DecidableEq Member] in
theorem pos_foldl_packItem {items : List (Member × ItemType)} (directives : Directives items)
    (message : IseMessage Member) :
    (items.foldl packItem message).pos = message.pos + sizes items := by
  induction items generalizing message with
  | nil => rfl
  | cons item rest ih =>
      obtain ⟨directive, code⟩ := directives item (List.mem_cons_self ..)
      have moved : (message.packItem item).pos = message.pos + (formatCode item.2).2 := by
        unfold packItem
        simp only [code]
        split <;> rfl
      rw [List.foldl_cons, ih fun other member => directives other (List.mem_cons_of_mem _ member),
        moved, sizes, sizes, List.map_cons, List.sum_cons, Nat.add_assoc]

/-- What is packed for items without string encodings has the size of the items, and a field
stands behind the size of the items before it. -/
theorem packMessage_field {message : IseMessage Member} {before after : List (Member × ItemType)}
    {item : Member × ItemType} {directive : Directive}
    (items : message.msgItems = before ++ item :: after)
    (code : (formatCode item.2).1 = .directive directive)
    (directives : Directives message.msgItems)
    (fits : ∀ item ∈ message.msgItems, item.2.Fits (message.members item.1)) :
    message.packMessage.out.length = sizes message.msgItems ∧
      ∀ rest, directive.unpack ((message.packMessage.out ++ rest).drop (sizes before)) =
        message.members item.1 := by
  obtain ⟨all, packAll, -⟩ := exists_packed message.msgItems message.members fits
  have packed := packAll { message with out := [], pos := 0 } rfl
  have length : all.length = sizes message.msgItems := by
    have moved := pos_foldl_packItem directives { message with out := [], pos := 0 }
    rw [packed, Nat.zero_add, Nat.zero_add] at moved
    exact moved
  rw [items] at fits directives
  obtain ⟨first, packFirst, -⟩ := exists_packed before message.members
    fun other member => fits other (List.mem_append_left _ member)
  have packedFirst := packFirst { message with out := [], pos := 0 } rfl
  have lengthFirst : first.length = sizes before := by
    have moved := pos_foldl_packItem
      (fun other member => directives other (List.mem_append_left _ member))
      { message with out := [], pos := 0 }
    rw [packedFirst, Nat.zero_add, Nat.zero_add] at moved
    exact moved
  have fitsItem : directive.Fits (message.members item.1) := by
    have fitsItem := fits item (List.mem_append_right _ (List.mem_cons_self ..))
    unfold ItemType.Fits at fitsItem
    rw [code] at fitsItem
    exact fitsItem
  obtain ⟨bytes, packedItem, -, unpacked⟩ := fitsItem.round_trip
  obtain ⟨last, packLast, -⟩ := exists_packed after message.members
    fun other member => fits other (List.mem_append_right _ (List.mem_cons_of_mem _ member))
  have out : message.packMessage.out = first ++ (bytes ++ last) := by
    have split := congrArg (fun items : List (Member × ItemType) =>
      (items.foldl packItem { message with out := [], pos := 0 }).out) items
    refine split.trans ?_
    rw [List.foldl_append, packedFirst, List.foldl_cons]
    simp only [packItem, code, packedItem]
    refine (congrArg IseMessage.out (packLast _ ?_)).trans ?_
    · rfl
    · simp
  refine ⟨?_, fun rest => ?_⟩
  · unfold packMessage
    rw [packed]
    exact length
  · rw [out, ← lengthFirst, List.append_assoc, List.drop_left, List.append_assoc, unpacked]

end IseMessage

namespace SimpleJMessage

theorem header_field {message : SimpleJMessage} (wellFormed : message.WellFormed) :
    message.simplejHeader.message.packMessage.out.length = 14 ∧
      ∀ rest, Directive.v.unpack ((message.simplejHeader.message.packMessage.out ++ rest).drop 2) =
        message.simplejHeader.message.members .length := by
  have items : message.simplejHeader.message.msgItems =
      [(.syncByte1, .unsignedChar), (.syncByte2, .unsignedChar)] ++
        (.length, .littleUint16) :: simpleHeaderItems.drop 3 := wellFormed.headerItems
  have directives : IseMessage.Directives message.simplejHeader.message.msgItems := by
    rw [wellFormed.headerItems]
    intro item member
    simp only [simpleHeaderItems, List.mem_cons, List.not_mem_nil, or_false] at member
    rcases member with
      rfl | rfl | rfl | rfl | rfl | rfl | rfl | rfl | rfl | rfl | rfl <;> exact ⟨_, rfl⟩
  have fits := wellFormed.header
  rw [← wellFormed.headerItems] at fits
  obtain ⟨length, field⟩ := IseMessage.packMessage_field items rfl directives fits
  rw [wellFormed.headerItems] at length
  exact ⟨length, field⟩

theorem link16Header_field {message : SimpleJMessage} (wellFormed : message.WellFormed) :
    message.simplejLink16Header.message.packMessage.out.length = 14 ∧
      ∀ rest, Directive.v.unpack
        ((message.simplejLink16Header.message.packMessage.out ++ rest).drop 10) =
          message.simplejLink16Header.message.members .wordCount := by
  have items : message.simplejLink16Header.message.msgItems =
      link16HeaderItems.take 7 ++ (.wordCount, .littleUint16) :: link16HeaderItems.drop 8 :=
    wellFormed.link16HeaderItems
  have directives : IseMessage.Directives message.simplejLink16Header.message.msgItems := by
    rw [wellFormed.link16HeaderItems]
    intro item member
    simp only [link16HeaderItems, List.mem_cons, List.not_mem_nil, or_false] at member
    rcases member with rfl | rfl | rfl | rfl | rfl | rfl | rfl | rfl | rfl <;> exact ⟨_, rfl⟩
  have fits := wellFormed.link16Header
  rw [← wellFormed.link16HeaderItems] at fits
  obtain ⟨length, field⟩ := IseMessage.packMessage_field items rfl directives fits
  rw [wellFormed.link16HeaderItems] at length
  exact ⟨length, field⟩

theorem footer_field {footer : IseMessage FooterItem} (items : footer.msgItems = footerItems)
    (text : List UInt8) :
    (footer.setMember .checksum (.integer (stringSum text))).packMessage.out.length = 2 ∧
      Directive.v.unpack
        (footer.setMember .checksum (.integer (stringSum text))).packMessage.out =
          .integer (stringSum text) := by
  have sum : stringSum text < 2 ^ 16 := Nat.mod_lt _ (by decide)
  have set : (footer.setMember .checksum (.integer (stringSum text))).members .checksum =
      .integer (stringSum text) := rfl
  have only : ∀ item ∈ footerItems, item = (.checksum, .littleUint16) :=
    fun item member => List.mem_singleton.mp member
  have declared : (footer.setMember .checksum (.integer (stringSum text))).msgItems =
      [] ++ (.checksum, .littleUint16) :: [] := items
  have directives : IseMessage.Directives
      (footer.setMember .checksum (.integer (stringSum text))).msgItems := by
    intro item member
    rw [only item (items ▸ member)]
    exact ⟨_, rfl⟩
  have fits : ∀ item ∈ (footer.setMember .checksum (.integer (stringSum text))).msgItems,
      item.2.Fits ((footer.setMember .checksum (.integer (stringSum text))).members item.1) := by
    intro item member
    rw [only item (items ▸ member), set]
    exact ⟨by omega, by omega⟩
  obtain ⟨length, field⟩ := IseMessage.packMessage_field declared rfl directives fits
  have unpacked := field []
  rw [List.append_nil] at unpacked
  rw [declared] at length
  exact ⟨length, unpacked.trans set⟩

/-- The string is that of the three parts, followed by the footer with their checksum. -/
theorem packMessage_out {message packed : SimpleJMessage}
    (packs : message.packMessage = some packed) :
    ∃ text, text = message.simplejHeader.message.packMessage.out ++
        (message.simplejLink16Header.message.packMessage.out ++
          packed.link16Message.message.out) ∧
      packed.out = text ++
        (message.simpleFooter.message.setMember .checksum
          (.integer (stringSum text))).packMessage.out := by
  unfold packMessage at packs
  obtain ⟨link16Message, -, same⟩ := Option.bind_eq_some_iff.mp packs
  cases same
  refine ⟨_, rfl, ?_⟩
  rw [← List.append_assoc]

theorem checksumRight_of_packMessage {sender packed : SimpleJMessage}
    (wellFormed : sender.WellFormed) (packs : sender.packMessage = some packed) :
    packed.ChecksumRight := by
  obtain ⟨text, -, out⟩ := packMessage_out packs
  obtain ⟨footer, checksum⟩ := footer_field wellFormed.footerItems text
  have before : packed.out.length - 2 = text.length := by
    rw [out, List.length_append, footer, Nat.add_sub_cancel]
  unfold ChecksumRight
  rw [before, out, List.drop_left, List.take_left, checksum]

theorem lengthRight_iff {sender packed : SimpleJMessage}
    (wellFormed : sender.WellFormed) (packs : sender.packMessage = some packed) :
    packed.LengthRight ↔
      sender.simplejHeader.message.members .length = .integer packed.out.length := by
  obtain ⟨-, length⟩ := header_field wellFormed
  obtain ⟨text, parts, out⟩ := packMessage_out packs
  unfold LengthRight
  nth_rewrite 1 [out]
  rw [parts, List.append_assoc, length]

theorem wordCountRight_iff {sender packed : SimpleJMessage}
    (wellFormed : sender.WellFormed) (packs : sender.packMessage = some packed) :
    packed.WordCountRight ↔
      sender.simplejLink16Header.message.members .wordCount =
        .integer (packed.link16Message.message.out.length / 2 : Nat) := by
  obtain ⟨header, -⟩ := header_field wellFormed
  obtain ⟨-, wordCount⟩ := link16Header_field wellFormed
  obtain ⟨text, parts, out⟩ := packMessage_out packs
  unfold WordCountRight
  rw [out, parts, ← List.drop_drop, List.append_assoc, List.drop_left' header,
    List.append_assoc, wordCount]

theorem length_packMessage {sender packed : SimpleJMessage}
    (wellFormed : sender.WellFormed) (packs : sender.packMessage = some packed) :
    packed.out.length = 30 + packed.link16Message.message.out.length := by
  obtain ⟨header, -⟩ := header_field wellFormed
  obtain ⟨link16Header, -⟩ := link16Header_field wellFormed
  obtain ⟨text, parts, out⟩ := packMessage_out packs
  obtain ⟨footer, -⟩ := footer_field wellFormed.footerItems text
  rw [out, List.length_append, footer, parts, List.length_append, List.length_append, header,
    link16Header]
  omega

theorem not_recovers (packed receiver : SimpleJMessage) (flags : Int) (details : Bool) :
    ¬ packed.Recovers receiver flags details := by
  rintro ⟨after, unpacked, -⟩
  obtain ⟨stopped, raised, -⟩ :=
    unpackMessage_raises { receiver with raw := packed.out } flags details
  rw [raised] at unpacked
  cases unpacked

/-- The frame of a Link-16 message: the checksum is right, and the length and the word count are
right if they have been set so before; but what is packed is recovered by nobody. -/
theorem simplej_framing (sender : SimpleJMessage) :
    (∀ (receiver : SimpleJMessage) (flags : Int) (details : Bool),
      ¬ sender.Framed receiver flags details) ∧
    ∀ packed, sender.WellFormed → sender.packMessage = some packed →
      packed.ChecksumRight ∧
      (packed.LengthRight ↔
        sender.simplejHeader.message.members .length = .integer packed.out.length) ∧
      (packed.WordCountRight ↔
        sender.simplejLink16Header.message.members .wordCount =
          .integer (packed.link16Message.message.out.length / 2 : Nat)) := by
  refine ⟨?_, ?_⟩
  · rintro receiver flags details ⟨packed, -, -, -, -, recovers⟩
    exact not_recovers packed receiver flags details recovers
  · intro packed wellFormed packs
    exact ⟨checksumRight_of_packMessage wellFormed packs, lengthRight_iff wellFormed packs,
      wordCountRight_iff wellFormed packs⟩

end SimpleJMessage

namespace Wrapped

open Link16Message

/-- A new message has the items of its parts and values of their types. -/
theorem new_wellFormed (link16Message : Component Link16Message) :
    (SimpleJMessage.new link16Message).WellFormed := by
  refine ⟨rfl, ?_, rfl, ?_, rfl⟩
  · simp [simpleHeaderItems, SimpleJMessage.new, simpleJHeader, Component.declare, ItemType.Fits,
      formatCode, Directive.Fits]
  · simp [link16HeaderItems, SimpleJMessage.new, simpleJLink16Header, Component.declare,
      ItemType.Fits, formatCode, Directive.Fits]

/-- A Link-16 message of 32 bits in a message that has just been made.  The size of two bytes is
what the base class has computed for its own fields. -/
theorem not_framed :
    ∃ layout, declare headerFields = some layout ∧ layout.maxSizeBits = 32 ∧
      (∀ item ∈ layout.msgItems, Holds layout.members item) ∧
      (∃ packed, (SimpleJMessage.new ⟨layout, 2⟩).packMessage = some packed ∧
        packed.out.length = 34 ∧ ¬ packed.LengthRight ∧ ¬ packed.WordCountRight) ∧
      ¬ (SimpleJMessage.new ⟨layout, 2⟩).Framed (SimpleJMessage.new ⟨layout, 2⟩) 0 false := by
  have declared : ∃ layout, declare headerFields = some layout ∧ layout.maxSizeBits = 32 ∧
      layout.msgItems = [("spare_", 19), ("message_len_indicator_", 3), ("sublabel_j_series_", 3),
        ("label_j_series_", 5), ("word_format_", 2)] ∧
      layout.members "spare_" = .number 0 ∧ layout.members "message_len_indicator_" = .number 2 ∧
      layout.members "sublabel_j_series_" = .number 6 ∧
      layout.members "label_j_series_" = .number 3 ∧
      layout.members "word_format_" = .number 0 := ⟨_, rfl, rfl, rfl, rfl, rfl, rfl, rfl, rfl⟩
  obtain ⟨layout, declared, size, items, spare, indicator, sublabel, label, format⟩ := declared
  have holds : ∀ item ∈ layout.msgItems, Holds layout.members item := by
    intro item member
    simp only [items, List.mem_cons, List.not_mem_nil, or_false] at member
    rcases member with rfl | rfl | rfl | rfl | rfl
    · exact ⟨0, spare, by decide⟩
    · exact ⟨2, indicator, by decide⟩
    · exact ⟨6, sublabel, by decide⟩
    · exact ⟨3, label, by decide⟩
    · exact ⟨0, format, by decide⟩
  have narrow : ∀ item ∈ layout.msgItems, Narrow item := by
    rw [items]
    simp [Narrow]
  have total : totalBits layout.msgItems = 32 := by
    rw [items]
    rfl
  obtain ⟨values, carried⟩ := exists_values_of_holds holds
  have link16 := packMessage_of_values narrow (by rw [total])
    fun item member => (carried item member).1
  have bits := length_bitsOf layout.msgItems values
  have bytes := length_scanBytes (by rw [bits, total] :
    (bitsOf layout.msgItems values).length % 8 = 0)
  have packs : ∃ packed, (SimpleJMessage.new ⟨layout, 2⟩).packMessage = some packed ∧
      packed.link16Message.message.out.length = 4 := by
    unfold SimpleJMessage.packMessage
    change ∃ packed, (layout.packMessage.bind _) = some packed ∧ _
    rw [link16]
    refine ⟨_, rfl, ?_⟩
    rw [List.length_reverse]
    omega
  obtain ⟨packed, packs, words⟩ := packs
  have wellFormed := new_wellFormed ⟨layout, 2⟩
  have length := SimpleJMessage.length_packMessage wellFormed packs
  rw [words] at length
  refine ⟨layout, declared, size, holds, ⟨packed, packs, length, ?_, ?_⟩, ?_⟩
  · rw [SimpleJMessage.lengthRight_iff wellFormed packs, length]
    intro same
    exact absurd (Value.integer.inj same) (by decide)
  · rw [SimpleJMessage.wordCountRight_iff wellFormed packs, words]
    intro same
    exact absurd (Value.integer.inj same) (by decide)
  · rintro ⟨packed, -, -, -, -, recovers⟩
    exact SimpleJMessage.not_recovers _ _ _ _ recovers

end Wrapped

end Nise.RubyModels
