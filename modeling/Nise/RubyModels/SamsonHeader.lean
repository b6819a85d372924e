import Nise.RubyModels.IseMessage

/-!
# The Samson header in Ruby

The header of a Samson message is an ISE message of 48 bytes, which all items of a fixed size
make up.  Every string of that length is a header.
-/

namespace Nise.RubyModels

open Nise.Lib

inductive HeaderMember where
  | magic
  | versionId
  | dispatched
  | runId
  | peerId
  | msgId
  | appMsgId
  | unitId
  | flags
  | type
  | destPeerId
  | frameCount
  | sendCount
  | messageCrc32
  | messageLength
  deriving DecidableEq, Repr

namespace SamsonHeader

def samsonHeaderLength : Nat := 48

/-- The items before the length of the data. -/
def leadingItems : List (HeaderMember × ItemType) :=
  [(.magic, .asciiString2), (.versionId, .unsignedChar), (.dispatched, .unsignedChar),
    (.runId, .aceUint32), (.peerId, .aceUint32), (.msgId, .aceUint32), (.appMsgId, .aceUint16),
    (.unitId, .aceUint16), (.flags, .aceUint32), (.type, .aceUint32), (.destPeerId, .aceUint32),
    (.frameCount, .aceUint32), (.sendCount, .aceUint32), (.messageCrc32, .aceUint32)]

def items : List (HeaderMember × ItemType) := leadingItems ++ [(.messageLength, .aceUint32)]

/-- A header with its items declared, before it is unpacked. -/
def blank (data : List UInt8) : IseMessage HeaderMember where
  msgItems := items
  members := fun _ => .nil
  raw := data.take samsonHeaderLength
  out := []
  pos := 0

/-- `SamsonHeader.new` of a string; a short one raises `NotSamsonHeader`. -/
def new (data : List UInt8) : Option (IseMessage HeaderMember) :=
  if data.length < samsonHeaderLength then none else (blank data).unpackMessage

/-- The length of the data that follows the header, in its last four bytes. -/
def dataLength (data : List UInt8) : Nat := byteNumeral.read ((data.drop 44).take 4)

end SamsonHeader

/-! ## Items of a fixed size -/

namespace IseMessage

variable {Member : Type} [DecidableEq Member]

/-- The bytes of items that are not of variable length. -/
def fixedSize (items : List (Member × ItemType)) : Nat :=
  (items.map fun item => (formatCode item.2).2).sum

def Fixed (item : Member × ItemType) : Prop :=
  ∃ directive, (formatCode item.2).1 = .directive directive

theorem unpackItem_fixed {message : IseMessage Member} {item : Member × ItemType}
    {directive : Directive} (code : (formatCode item.2).1 = .directive directive)
    (inside : message.pos ≤ message.raw.length) :
    message.unpackItem item =
      some ({ message with pos := message.pos + (formatCode item.2).2 }.setMember item.1
        (directive.unpack ((message.raw.drop message.pos).take (formatCode item.2).2))) := by
  have cut : slice message.raw message.pos (formatCode item.2).2 =
      some ((message.raw.drop message.pos).take (formatCode item.2).2) := if_pos inside
  unfold unpackItem
  simp only [code, cut, Option.bind_eq_bind, Option.bind_some]
  rfl

theorem foldlM_unpackItem_fixed {items : List (Member × ItemType)}
    (fixed : ∀ item ∈ items, Fixed item) (message : IseMessage Member)
    (enough : message.pos + fixedSize items ≤ message.raw.length) :
    ∃ members, items.foldlM unpackItem message =
      some { message with members := members, pos := message.pos + fixedSize items } := by
  induction items generalizing message with
  | nil => exact ⟨message.members, rfl⟩
  | cons item rest ih =>
      obtain ⟨directive, code⟩ := fixed item (List.mem_cons_self ..)
      have size : fixedSize (item :: rest) = (formatCode item.2).2 + fixedSize rest := by
        rw [fixedSize, List.map_cons, List.sum_cons]
        rfl
      rw [List.foldlM_cons, unpackItem_fixed code (by omega)]
      obtain ⟨members, done⟩ := ih
        (fun other member => fixed other (List.mem_cons_of_mem _ member))
        ({ message with pos := message.pos + (formatCode item.2).2 }.setMember item.1
          (directive.unpack ((message.raw.drop message.pos).take (formatCode item.2).2)))
        (by
          simp only [setMember]
          omega)
      refine ⟨members, done.trans ?_⟩
      rw [size, ← Nat.add_assoc]
      rfl

/-- Items leave the members of the others alone. -/
theorem members_foldlM_unpackItem {items : List (Member × ItemType)}
    (fixed : ∀ item ∈ items, Fixed item) {message last : IseMessage Member}
    (enough : message.pos + fixedSize items ≤ message.raw.length)
    (done : items.foldlM unpackItem message = some last) {member : Member}
    (absent : member ∉ items.map Prod.fst) : last.members member = message.members member := by
  induction items generalizing message with
  | nil =>
      cases done
      rfl
  | cons item rest ih =>
      obtain ⟨directive, code⟩ := fixed item (List.mem_cons_self ..)
      have size : fixedSize (item :: rest) = (formatCode item.2).2 + fixedSize rest := by
        rw [fixedSize, List.map_cons, List.sum_cons]
        rfl
      rw [List.map_cons, List.mem_cons, not_or] at absent
      rw [List.foldlM_cons, unpackItem_fixed code (by omega)] at done
      have later := ih (fun other among => fixed other (List.mem_cons_of_mem _ among))
        (by
          simp only [setMember]
          omega) done absent.2
      rw [later]
      simp [setMember, instanceVariableSet, absent.1]

/-- The first item gets what is at the position, and keeps it if no later one has its member. -/
theorem member_foldlM_unpackItem {item : Member × ItemType} {rest : List (Member × ItemType)}
    (fixed : ∀ other ∈ rest, Fixed other) (once : item.1 ∉ rest.map Prod.fst)
    {directive : Directive} (code : (formatCode item.2).1 = .directive directive)
    (message : IseMessage Member)
    (enough : message.pos + (formatCode item.2).2 + fixedSize rest ≤ message.raw.length) :
    ∃ last, (item :: rest).foldlM unpackItem message = some last ∧
      last.members item.1 =
        directive.unpack ((message.raw.drop message.pos).take (formatCode item.2).2) := by
  obtain ⟨members, done⟩ := foldlM_unpackItem_fixed fixed
    ({ message with pos := message.pos + (formatCode item.2).2 }.setMember item.1
      (directive.unpack ((message.raw.drop message.pos).take (formatCode item.2).2))) enough
  refine ⟨_, ?_, (members_foldlM_unpackItem fixed enough done once).trans ?_⟩
  · rw [List.foldlM_cons, unpackItem_fixed code (by omega)]
    exact done
  · simp [setMember, instanceVariableSet]

end IseMessage

namespace SamsonHeader

theorem fixed_leadingItems : ∀ item ∈ leadingItems, IseMessage.Fixed item := by
  simp [leadingItems, IseMessage.Fixed, formatCode]

/-- The last item of the header is the length of the data. -/
theorem unpack_last_item {data : List UInt8} (enough : samsonHeaderLength ≤ data.length) :
    Directive.N.unpack (((blank data).raw.drop 44).take 4) = .integer (dataLength data) := by
  have last : ((blank data).raw.drop 44).take 4 = (data.drop 44).take 4 := by
    rw [blank, List.drop_take, List.take_take]
    rfl
  have four : ((data.drop 44).take 4).length = 4 := by
    have : 48 ≤ data.length := enough
    rw [List.length_take, List.length_drop]
    omega
  rw [last, Directive.unpack, Directive.unpackInteger, if_neg (by omega),
    List.take_of_length_le (Nat.le_of_eq four)]
  rfl

/-- Every string of 48 bytes or more has a header, with its length where the peers expect it. -/
theorem exists_new {data : List UInt8} (enough : samsonHeaderLength ≤ data.length) :
    ∃ header, new data = some header ∧
      header.members .messageLength = .integer (dataLength data) := by
  have raw : (blank data).raw.length = 48 := List.length_take_of_le enough
  have size : (blank data).pos + IseMessage.fixedSize leadingItems = 44 := rfl
  obtain ⟨members, leading⟩ := IseMessage.foldlM_unpackItem_fixed fixed_leadingItems (blank data)
    (by omega)
  let before : IseMessage HeaderMember := { blank data with members := members, pos := 44 }
  let after := { before with pos := 48 }.setMember .messageLength (.integer (dataLength data))
  have length : before.unpackItem (.messageLength, .aceUint32) = some after := by
    have inside : before.pos ≤ before.raw.length := by
      change 44 ≤ (blank data).raw.length
      omega
    refine (IseMessage.unpackItem_fixed rfl inside).trans ?_
    exact congrArg
      (fun value => some ({ before with pos := 48 }.setMember .messageLength value))
      (unpack_last_item enough)
  have written : after.members .messageLength = .integer (dataLength data) := by
    simp [after, IseMessage.setMember, instanceVariableSet]
  refine ⟨after, ?_, written⟩
  rw [new, if_neg (Nat.not_lt.mpr enough)]
  calc (blank data).unpackMessage
      = (leadingItems.foldlM IseMessage.unpackItem (blank data)).bind
          ([(.messageLength, .aceUint32)].foldlM IseMessage.unpackItem) :=
        List.foldlM_append
    _ = [(.messageLength, .aceUint32)].foldlM IseMessage.unpackItem before := by
        rw [leading]
        rfl
    _ = some after := by
        rw [List.foldlM_cons, length]
        rfl

theorem fixed_items : ∀ item ∈ items, IseMessage.Fixed item := by
  simp [items, leadingItems, IseMessage.Fixed, formatCode]

/-- A member of the header is unpacked from its own place in the data. -/
theorem exists_new_member {data : List UInt8} (enough : samsonHeaderLength ≤ data.length)
    {before after : List (HeaderMember × ItemType)} {item : HeaderMember × ItemType}
    (split : items = before ++ item :: after) (once : item.1 ∉ after.map Prod.fst)
    {directive : Directive} (code : (formatCode item.2).1 = .directive directive) :
    ∃ header, new data = some header ∧ header.members item.1 =
      directive.unpack (((data.take samsonHeaderLength).drop (IseMessage.fixedSize before)).take
        (formatCode item.2).2) := by
  have raw : (blank data).raw.length = 48 := List.length_take_of_le enough
  have whole : IseMessage.fixedSize items = 48 := rfl
  have sizes : IseMessage.fixedSize before + ((formatCode item.2).2 +
      IseMessage.fixedSize after) = 48 := by
    rw [← whole, split]
    simp [IseMessage.fixedSize]
  have fixed := fixed_items
  rw [split] at fixed
  obtain ⟨members, first⟩ := IseMessage.foldlM_unpackItem_fixed
    (fun other member => fixed other (List.mem_append_left _ member)) (blank data)
    (by
      change 0 + _ ≤ _
      omega)
  have later : ∀ other ∈ after, IseMessage.Fixed other := fun other member =>
    fixed other (List.mem_append_right _ (List.mem_cons_of_mem _ member))
  obtain ⟨header, second, value⟩ := IseMessage.member_foldlM_unpackItem later once code
    { blank data with members := members, pos := 0 + IseMessage.fixedSize before }
    (by
      change 0 + IseMessage.fixedSize before + _ + _ ≤ (blank data).raw.length
      omega)
  refine ⟨header, ?_, ?_⟩
  · rw [new, if_neg (Nat.not_lt.mpr enough)]
    change items.foldlM IseMessage.unpackItem (blank data) = _
    rw [split, List.foldlM_append, first]
    exact second
  · rw [value, Nat.zero_add]
    rfl

theorem new_append {data : List UInt8} (enough : samsonHeaderLength ≤ data.length)
    (more : List UInt8) : new (data ++ more) = new data := by
  unfold new blank
  rw [List.length_append, if_neg (by omega), if_neg (by omega),
    List.take_append_of_le_length enough]

end SamsonHeader

end Nise.RubyModels
