import Nise.RubyModels.StringMods

/-!
# The binary form of an ISE message

A message has items, each with a member and a type.  `pack_message` appends the members one
after another, without anything between them, and `unpack_message` marches through the bytes
with a position of its own.  Both find the extent of an item from `format_code`, so what one
appends the other has to take.
-/

namespace Nise.RubyModels

open Nise.Lib

/-- The item types that have an integer or a string as their value. -/
inductive ItemType where
  | unsignedChar
  | uint8
  | asciiString2
  | asciiString12
  | asciiString32
  | asciiString80
  | aceUint16
  | aceInt16
  | uint16
  | int16
  | littleUint16
  | aceUint32
  | aceInt32
  | uint32
  | int32
  | cstring
  | pstring
  | p2string
  | p4string
  deriving DecidableEq, Repr

/-- The string encodings: `to_` and `from_` the name is sent to the string. -/
inductive Encoding where
  | cstring
  | pstring
  | p2string
  | p4string
  deriving DecidableEq, Repr

inductive FormatCode where
  | directive (directive : Directive)
  | encoding (encoding : Encoding)
  deriving DecidableEq, Repr

/-- The code of a type and its size, without the length of a string. -/
def formatCode : ItemType → FormatCode × Nat
  | .unsignedChar => (.directive .C, 1)
  | .uint8 => (.directive .C, 1)
  | .asciiString2 => (.directive (.A 2), 2)
  | .asciiString12 => (.directive (.A 12), 12)
  | .asciiString32 => (.directive (.A 32), 32)
  | .asciiString80 => (.directive (.A 80), 80)
  | .aceUint16 => (.directive .n, 2)
  | .aceInt16 => (.directive .n, 2)
  | .uint16 => (.directive .n, 2)
  | .int16 => (.directive .n, 2)
  | .littleUint16 => (.directive .v, 2)
  | .aceUint32 => (.directive .N, 4)
  | .aceInt32 => (.directive .N, 4)
  | .uint32 => (.directive .N, 4)
  | .int32 => (.directive .N, 4)
  | .cstring => (.encoding .cstring, 1)
  | .pstring => (.encoding .pstring, 1)
  | .p2string => (.encoding .p2string, 2)
  | .p4string => (.encoding .p4string, 4)

namespace Encoding

def sendTo : Encoding → List UInt8 → Option (List UInt8)
  | cstring, text => some (toCstring text)
  | pstring, text => toPstring text
  | p2string, text => toP2string text
  | p4string, text => toP4string text

def sendFrom : Encoding → List UInt8 → Option (List UInt8)
  | cstring, text => fromCstring text
  | pstring, text => fromPstring text
  | p2string, text => fromP2string text
  | p4string, text => fromP4string text

/-- The strings that an encoding keeps. -/
def Fits : Encoding → List UInt8 → Prop
  | cstring, text => 0 ∉ text
  | pstring, text => text.length < 2 ^ 8
  | p2string, text => text.length < 2 ^ 16
  | p4string, text => text.length < 2 ^ 32

def width : Encoding → Nat
  | cstring => 1
  | pstring => 1
  | p2string => 2
  | p4string => 4

theorem Fits.round_trip {encoding : Encoding} {text : List UInt8} (fits : encoding.Fits text) :
    ∃ bytes, encoding.sendTo text = some bytes ∧ bytes.length = encoding.width + text.length ∧
      ∀ after, encoding.sendFrom (bytes ++ after) = some text := by
  cases encoding with
  | cstring =>
      refine ⟨toCstring text, rfl, ?_, fromCstring_toCstring fits⟩
      rw [toCstring, List.length_append, List.length_singleton]
      exact Nat.add_comm _ _
  | pstring =>
      have short : text.length < 2 ^ 8 := fits
      have shorter : text.length ≤ 255 := by omega
      have counted : Directive.C.Fits (.integer text.length) := ⟨by omega, by omega⟩
      exact fromPrefixed_toPrefixed shorter counted
  | p2string =>
      have short : text.length < 2 ^ 16 := fits
      have shorter : text.length ≤ 65535 := by omega
      have counted : Directive.n.Fits (.integer text.length) := ⟨by omega, by omega⟩
      exact fromPrefixed_toPrefixed shorter counted
  | p4string =>
      have short : text.length < 2 ^ 32 := fits
      have shorter : text.length ≤ 4294967295 := by omega
      have counted : Directive.N.Fits (.integer text.length) := ⟨by omega, by omega⟩
      exact fromPrefixed_toPrefixed shorter counted

end Encoding

def FormatCode.width : FormatCode → Nat
  | .directive code => code.width
  | .encoding code => code.width

/-- The size that is listed for a type is what its code takes. -/
theorem formatCode_size (type : ItemType) :
    (formatCode type).2 = (formatCode type).1.width := by
  cases type <;> rfl

/-- The values that an item of a type carries. -/
def ItemType.Fits (type : ItemType) (value : Value) : Prop :=
  match (formatCode type).1, value with
  | .directive directive, value => directive.Fits value
  | .encoding encoding, .string text => encoding.Fits text
  | .encoding _, _ => False

/-! ## Messages -/

/-- A message; the variables of its members are apart from its own, `max_size` is left out. -/
structure IseMessage (Member : Type) where
  msgItems : List (Member × ItemType)
  members : Member → Value
  raw : List UInt8
  out : List UInt8
  pos : Nat

namespace IseMessage

variable {Member : Type} [DecidableEq Member]

def setMember (message : IseMessage Member) (member : Member) (value : Value) :
    IseMessage Member :=
  { message with members := instanceVariableSet message.members member value }

/-- Pack one item.  An item that cannot be packed is reported and appends nothing, but the
position moves. -/
def packItem (message : IseMessage Member) (item : Member × ItemType) : IseMessage Member :=
  let myValue := message.members item.1
  let fmtSize := (formatCode item.2).2
  match (formatCode item.2).1 with
  | .encoding encoding =>
      match myValue with
      | .string text =>
          match encoding.sendTo text with
          | some bytes =>
              { message with
                out := message.out ++ bytes
                pos := message.pos + (fmtSize + text.length) }
          | none => { message with pos := message.pos + fmtSize }
      | _ => { message with pos := message.pos + fmtSize }
  | .directive directive =>
      match directive.pack myValue with
      | some bytes =>
          { message with out := message.out ++ bytes, pos := message.pos + fmtSize }
      | none => { message with pos := message.pos + fmtSize }

def packMessage (message : IseMessage Member) : IseMessage Member :=
  message.msgItems.foldl packItem { message with out := [], pos := 0 }

def unpackItem (message : IseMessage Member) (item : Member × ItemType) :
    Option (IseMessage Member) :=
  let fmtSize := (formatCode item.2).2
  match (formatCode item.2).1 with
  | .encoding encoding => do
      let rest ← slice message.raw message.pos message.raw.length
      let text ← encoding.sendFrom rest
      return { message with pos := message.pos + (fmtSize + text.length) }.setMember item.1
        (.string text)
  | .directive directive => do
      let bytes ← slice message.raw message.pos fmtSize
      return { message with pos := message.pos + fmtSize }.setMember item.1
        (directive.unpack bytes)

/-- Unpack `raw`, without options and with none of the flags of other forms. -/
def unpackMessage (message : IseMessage Member) : Option (IseMessage Member) :=
  message.msgItems.foldlM unpackItem { message with pos := 0 }

/-! ## Round trips -/

/-- The bytes of an item that carries its value: packing appends them, and unpacking takes
them wherever they stand and whatever follows. -/
theorem exists_bytes_of_fits {item : Member × ItemType} {value : Value}
    (fits : item.2.Fits value) :
    ∃ bytes : List UInt8,
      (∀ message : IseMessage Member, message.members item.1 = value →
        message.packItem item = { message with
          out := message.out ++ bytes
          pos := message.pos + bytes.length }) ∧
      ∀ (message : IseMessage Member) (before after : List UInt8),
        message.raw = before ++ (bytes ++ after) → message.pos = before.length →
        message.unpackItem item =
          some ({ message with pos := message.pos + bytes.length }.setMember item.1 value) := by
  have size := formatCode_size item.2
  unfold ItemType.Fits at fits
  cases code : (formatCode item.2).1 with
  | directive directive =>
      rw [code] at fits size
      obtain ⟨bytes, packed, length, unpacked⟩ := Directive.Fits.round_trip fits
      have fmtSize : (formatCode item.2).2 = bytes.length := size.trans length.symm
      refine ⟨bytes, fun message carried => ?_, fun message before after raw pos => ?_⟩
      · simp only [packItem, code, carried, packed, fmtSize]
      · have cut : slice message.raw message.pos bytes.length = some bytes := by
          rw [raw, pos]
          exact slice_append before bytes after
        have whole := unpacked []
        rw [List.append_nil] at whole
        simp only [unpackItem, code, fmtSize, cut, Option.bind_eq_bind, Option.bind_some, whole]
        rfl
  | encoding encoding =>
      rw [code] at fits size
      cases value with
      | nil => exact fits.elim
      | integer number => exact fits.elim
      | string text =>
          obtain ⟨bytes, packed, length, unpacked⟩ := Encoding.Fits.round_trip fits
          have fmtSize : (formatCode item.2).2 + text.length = bytes.length := by
            rw [size, length]
            rfl
          refine ⟨bytes, fun message carried => ?_, fun message before after raw pos => ?_⟩
          · simp only [packItem, code, carried, packed, fmtSize]
          · have rest : slice message.raw message.pos message.raw.length =
                some (bytes ++ after) := by
              unfold slice
              rw [raw, pos, List.drop_left, if_pos (by simp),
                List.take_of_length_le (by simp)]
            simp only [unpackItem, code, rest, Option.bind_eq_bind, Option.bind_some, unpacked,
              fmtSize]
            rfl

/-- What is packed behind some bytes: the bytes of the items, one after another. -/
theorem exists_packed (items : List (Member × ItemType)) (members : Member → Value)
    (fits : ∀ item ∈ items, item.2.Fits (members item.1)) :
    ∃ bytes : List UInt8,
      (∀ message : IseMessage Member, message.members = members →
        items.foldl packItem message = { message with
          out := message.out ++ bytes
          pos := message.pos + bytes.length }) ∧
      ∀ (message : IseMessage Member) (before after : List UInt8),
        message.raw = before ++ (bytes ++ after) → message.pos = before.length →
        items.foldlM unpackItem message = some { message with
          members := fun member =>
            if member ∈ items.map Prod.fst then members member else message.members member
          pos := message.pos + bytes.length } := by
  induction items with
  | nil => exact ⟨[], fun message _ => by simp, fun message before after _ _ => by simp⟩
  | cons item items ih =>
      obtain ⟨first, pack, unpack⟩ := exists_bytes_of_fits (fits item (List.mem_cons_self ..))
      obtain ⟨rest, packRest, unpackRest⟩ :=
        ih fun other member => fits other (List.mem_cons_of_mem _ member)
      refine ⟨first ++ rest, fun message carried => ?_, fun message before after raw pos => ?_⟩
      · rw [List.foldl_cons, pack message (congrFun carried item.1)]
        refine (packRest _ ?_).trans ?_
        · exact carried
        · simp [Nat.add_assoc]
      · rw [List.append_assoc] at raw
        rw [List.foldlM_cons, unpack message before (rest ++ after) raw pos]
        refine (unpackRest _ (before ++ first) after ?_ ?_).trans ?_
        · rw [List.append_assoc]
          exact raw
        · rw [List.length_append, ← pos]
          rfl
        · simp only [setMember, instanceVariableSet_cons, List.map_cons, List.length_append,
            Nat.add_assoc]

/-- A message of the same items that receives what was packed has every member again, and
its position is behind the last byte. -/
theorem unpackMessage_packMessage (message receiver : IseMessage Member)
    (sameItems : receiver.msgItems = message.msgItems)
    (fits : ∀ item ∈ message.msgItems, item.2.Fits (message.members item.1)) :
    ∃ after, { receiver with raw := message.packMessage.out }.unpackMessage = some after ∧
      (∀ item ∈ message.msgItems, after.members item.1 = message.members item.1) ∧
      after.pos = message.packMessage.out.length := by
  obtain ⟨bytes, pack, unpack⟩ := exists_packed message.msgItems message.members fits
  have out : message.packMessage.out = bytes := by
    exact congrArg IseMessage.out (pack { message with out := [], pos := 0 } rfl)
  have unpacked := unpack { receiver with raw := bytes, pos := 0 } [] [] (by simp) rfl
  rw [sameItems] at unpacked
  rw [out]
  unfold unpackMessage
  rw [sameItems]
  refine ⟨_, unpacked, fun item member => ?_, Nat.zero_add _⟩
  exact if_pos (List.mem_map_of_mem member)

end IseMessage

/-- A schema of fixed and variable items, one of them with its member named twice. -/
def sampleMessage : IseMessage Nat where
  msgItems := [(0, .asciiString2), (1, .cstring), (2, .littleUint16), (3, .p2string),
    (1, .pstring), (4, .uint32)]
  members member :=
    match member with
    | 0 => .string [0x53, 0x4e]
    | 1 => .string []
    | 2 => .integer 513
    | 3 => .string [7, 0, 32]
    | _ => .integer 4294967295
  raw := []
  out := []
  pos := 0

theorem unpackMessage_packMessage_sample :
    (∀ item ∈ sampleMessage.msgItems, item.2.Fits (sampleMessage.members item.1)) ∧
      ∃ after, { sampleMessage with raw := sampleMessage.packMessage.out }.unpackMessage =
          some after ∧
        (∀ item ∈ sampleMessage.msgItems,
          after.members item.1 = sampleMessage.members item.1) ∧
        after.pos = sampleMessage.packMessage.out.length := by
  have fits : ∀ item ∈ sampleMessage.msgItems,
      item.2.Fits (sampleMessage.members item.1) := by
    simp [sampleMessage, ItemType.Fits, formatCode, Directive.Fits, Encoding.Fits]
  exact ⟨fits, sampleMessage.unpackMessage_packMessage sampleMessage rfl fits⟩

end Nise.RubyModels
