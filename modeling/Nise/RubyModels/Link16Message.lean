import Nise.RubyModels.StringMods
import Mathlib.Data.Nat.Size

/-!
# Link-16 messages

The fields of a Link-16 message are bit fields.  They are declared one after another with
`type` and kept in the opposite order.  `pack_message` puts their bits together, cuts the
result into bytes and reverses them, word by word and within each word; `unpack_message`
undoes the reversal and cuts the bits at the field widths.

Ruby is that of the build, 1.9.2, in which the instance variables of an object are listed as
symbols.
-/

namespace Nise.RubyModels

open Nise.Lib

/-- The value of a field: a nonnegative number, or the digits of a field of more than 32 bits. -/
inductive FieldValue where
  | number (value : Nat)
  | binary (digits : List Bool)
  deriving DecidableEq, Repr

/-- What `type` is told about a field: the digits of its default value, or its width. -/
inductive FieldExample where
  | text (digits : List Char)
  | width (bitFieldSize : Nat)
  deriving DecidableEq, Repr

/-- A string and a symbol are never equal. -/
inductive VariableName where
  | string (text : String)
  | symbol (text : String)
  deriving DecidableEq, Repr

structure Link16Message where
  msgItems : List (String × Nat)
  members : String → FieldValue
  fieldUniquifier : Nat
  maxSizeBits : Nat
  raw : List UInt8
  out : List UInt8

/-- `Integer ("0b" + digits)`: it raises when there are no digits. -/
def integerOfBinary (digits : List Bool) : Option Nat :=
  if digits = [] then none else some (bitNumeral.read digits)

def binaryDigit (character : Char) : Option Bool :=
  if character = '0' then some false else if character = '1' then some true else none

/-- `value.to_s (2)`: as few digits as possible. -/
def binaryText (value : Nat) : List Bool := bitNumeral.write (max 1 value.size) value

namespace Link16Message

/-! ## Declaring the fields -/

/-- The variables that a message has before the first field is declared. -/
def ownVariables : List String :=
  ["desc", "msg_items", "raw", "out", "app_message", "max_size", "xml", "hash",
    "msg_flag_mask_", "dest_id_", "field_uniquifier", "bom_format", "max_size_bits"]

def blank : Link16Message := ⟨[], fun _ => .number 0, 0, 0, [], []⟩

/-- The width and the default value of a field. -/
def fieldDefault : FieldExample → Option (Nat × Nat)
  | .text characters => do
      let fieldExample := characters.filter (· ≠ '_')
      let digits ← fieldExample.mapM binaryDigit
      let defaultValue ← integerOfBinary digits
      return (fieldExample.length, defaultValue)
  | .width bitFieldSize => some (bitFieldSize, 0)

def instanceVariables (message : Link16Message) : List VariableName :=
  (ownVariables ++ message.msgItems.map Prod.fst).map fun name => .symbol ("@" ++ name)

/-- Declare a field.  A name that is listed gets a number; it is looked up as a string. -/
def type (message : Link16Message) (declaration : String × FieldExample) :
    Option Link16Message := do
  let taken := .string ("@" ++ declaration.1) ∈ message.instanceVariables
  let fieldUniquifier := if taken then message.fieldUniquifier + 1 else message.fieldUniquifier
  let memberSym :=
    if taken then declaration.1 ++ toString fieldUniquifier ++ "_" else declaration.1
  let field ← fieldDefault declaration.2
  return { message with
    msgItems := (memberSym, field.1) :: message.msgItems
    members := instanceVariableSet message.members memberSym (.number field.2)
    fieldUniquifier := fieldUniquifier
    maxSizeBits := message.maxSizeBits + field.1 }

def declare (declarations : List (String × FieldExample)) : Option Link16Message :=
  declarations.foldlM type blank

/-! ## Packing and unpacking -/

/-- The last digits of a value that is padded with 64 zeros. -/
def fieldBits (members : String → FieldValue) (item : String × Nat) : Option (List Bool) :=
  match members item.1 with
  | .number value =>
      let padded := List.replicate 64 false ++ binaryText value
      if item.2 ≤ padded.length then some (padded.drop (padded.length - item.2)) else none
  | .binary _ => none

/-- The bytes of whole groups of eight bits. -/
def scanBytes (bits : List Bool) : List UInt8 :=
  if 8 ≤ bits.length then
    UInt8.ofNat (bitNumeral.read (bits.take 8)) :: scanBytes (bits.drop 8)
  else []
  termination_by bits.length
  decreasing_by
    rw [List.length_drop]
    omega

def packMessage (message : Link16Message) : Option Link16Message := do
  let outBits ← message.msgItems.foldlM
    (fun outBits item => (fieldBits message.members item).map (outBits ++ ·)) []
  let raw := scanBytes outBits
  let out ← swapBytes (reverse2 raw)
  return { message with raw := raw, out := out }

def unpackField (bitStream : List Bool) (state : (String → FieldValue) × Nat)
    (item : String × Nat) : Option ((String → FieldValue) × Nat) := do
  let valueBinary ← slice bitStream state.2 item.2
  let value ←
    if item.2 ≤ 32 then (integerOfBinary valueBinary).map FieldValue.number
    else some (FieldValue.binary valueBinary)
  return (instanceVariableSet state.1 item.1 value, state.2 + item.2)

def unpackMessage (message : Link16Message) : Option Link16Message := do
  let swapped ← swapBytes (reverse2 message.raw)
  let state ← message.msgItems.foldlM (unpackField (toBinary swapped)) (message.members, 0)
  return { message with members := state.1 }

/-! ## Bits and bytes -/

theorem scanBytes_append {eight : List Bool} (length : eight.length = 8) (rest : List Bool) :
    scanBytes (eight ++ rest) = UInt8.ofNat (bitNumeral.read eight) :: scanBytes rest := by
  rw [scanBytes, if_pos (by rw [List.length_append]; omega), List.take_left' length,
    List.drop_left' length]

theorem byteBits_ofNat_read {eight : List Bool} (length : eight.length = 8) :
    byteBits (UInt8.ofNat (bitNumeral.read eight)) = eight := by
  have small : bitNumeral.read eight < 2 ^ 8 := by
    have := bitNumeral.read_lt eight
    rw [length] at this
    exact this
  rw [byteBits, UInt8.toNat_ofNat_of_lt' small, ← length, bitNumeral.write_read]

theorem flatMap_scanBytes (bits : List Bool) (whole : bits.length % 8 = 0) :
    (scanBytes bits).flatMap byteBits = bits := by
  induction bits using scanBytes.induct with
  | case1 bits enough ih =>
      have eight : (bits.take 8).length = 8 := List.length_take_of_le enough
      have shorter : (bits.drop 8).length % 8 = 0 := by
        rw [List.length_drop]
        omega
      rw [scanBytes, if_pos enough, List.flatMap_cons, byteBits_ofNat_read eight, ih shorter,
        List.take_append_drop]
  | case2 bits few =>
      have empty : bits = [] := List.eq_nil_of_length_eq_zero (by omega)
      rw [scanBytes, if_neg few, empty, List.flatMap_nil]

theorem length_scanBytes {bits : List Bool} (whole : bits.length % 8 = 0) :
    8 * (scanBytes bits).length = bits.length := by
  rw [← length_flatMap_byteBits, flatMap_scanBytes bits whole]

theorem scanBytes_flatMap (text : List UInt8) : scanBytes (text.flatMap byteBits) = text := by
  induction text with
  | nil =>
      rw [List.flatMap_nil, scanBytes]
      rfl
  | cons byte rest ih =>
      have small : byte.toNat < bitNumeral.base ^ 8 := byte.toNat_lt
      have eight : (byteBits byte).length = 8 := bitNumeral.length_write 8 _
      rw [List.flatMap_cons, scanBytes_append eight, ih, byteBits, bitNumeral.read_write small,
        UInt8.ofNat_toNat]

/-! ## Fields -/

def totalBits (items : List (String × Nat)) : Nat := (items.map Prod.snd).sum

/-- The bits of the fields for given numbers. -/
def bitsOf (items : List (String × Nat)) (values : String → Nat) : List Bool :=
  items.flatMap fun item => bitNumeral.write item.2 (values item.1)

theorem length_bitsOf (items : List (String × Nat)) (values : String → Nat) :
    (bitsOf items values).length = totalBits items := by
  induction items with
  | nil => rfl
  | cons item rest ih =>
      unfold bitsOf totalBits at ih ⊢
      rw [List.flatMap_cons, List.length_append, ih, bitNumeral.length_write, List.map_cons,
        List.sum_cons]

theorem fieldBits_number {members : String → FieldValue} {item : String × Nat} {value : Nat}
    (carried : members item.1 = .number value) (narrow : item.2 ≤ 64) :
    fieldBits members item = some (bitNumeral.write item.2 value) := by
  have fits : value < bitNumeral.base ^ max 1 value.size :=
    (Nat.lt_size_self value).trans_le (Nat.pow_le_pow_right (by decide) (Nat.le_max_right ..))
  have padded : List.replicate 64 false ++ binaryText value =
      bitNumeral.write (64 + max 1 value.size) value := bitNumeral.replicate_append_write fits 64
  unfold fieldBits
  rw [carried]
  dsimp only
  rw [padded, bitNumeral.length_write, if_pos (by omega), bitNumeral.drop_write (by omega)]

theorem foldlM_fieldBits {items : List (String × Nat)} {members : String → FieldValue}
    {values : String → Nat}
    (carried : ∀ item ∈ items, members item.1 = .number (values item.1) ∧ item.2 ≤ 64)
    (outBits : List Bool) :
    items.foldlM (fun outBits item => (fieldBits members item).map (outBits ++ ·)) outBits =
      some (outBits ++ bitsOf items values) := by
  induction items generalizing outBits with
  | nil => simp [bitsOf]
  | cons item rest ih =>
      obtain ⟨number, narrow⟩ := carried item (List.mem_cons_self ..)
      rw [List.foldlM_cons, fieldBits_number number narrow]
      refine (ih (fun other member => carried other (List.mem_cons_of_mem _ member)) _).trans ?_
      simp [bitsOf]

/-- A field of one to 32 bits. -/
def Narrow (item : String × Nat) : Prop := 1 ≤ item.2 ∧ item.2 ≤ 32

theorem unpackField_number {item : String × Nat} {value : Nat} (narrow : Narrow item)
    (fits : value < 2 ^ item.2) (members : String → FieldValue) (before after : List Bool) :
    unpackField (before ++ (bitNumeral.write item.2 value ++ after)) (members, before.length)
        item =
      some (instanceVariableSet members item.1 (.number value), before.length + item.2) := by
  have cut := slice_append before (bitNumeral.write item.2 value) after
  rw [bitNumeral.length_write] at cut
  have digits : bitNumeral.write item.2 value ≠ [] := by
    apply List.ne_nil_of_length_pos
    rw [bitNumeral.length_write]
    exact narrow.1
  have number : integerOfBinary (bitNumeral.write item.2 value) = some value := by
    unfold integerOfBinary
    rw [if_neg digits, bitNumeral.read_write fits]
  unfold unpackField
  simp only [cut, Option.bind_eq_bind, Option.bind_some, if_pos narrow.2, number, Option.map_some]
  rfl

theorem foldlM_unpackField {items : List (String × Nat)} {values : String → Nat}
    (narrow : ∀ item ∈ items, Narrow item) (fits : ∀ item ∈ items, values item.1 < 2 ^ item.2)
    (members : String → FieldValue) (before after : List Bool) :
    items.foldlM (unpackField (before ++ (bitsOf items values ++ after)))
        (members, before.length) =
      some (fun member =>
        if member ∈ items.map Prod.fst then .number (values member) else members member,
        before.length + totalBits items) := by
  induction items generalizing members before with
  | nil => simp [totalBits]
  | cons item rest ih =>
      have first := unpackField_number (narrow item (List.mem_cons_self ..))
        (fits item (List.mem_cons_self ..)) members before (bitsOf rest values ++ after)
      have later := ih (fun other member => narrow other (List.mem_cons_of_mem _ member))
        (fun other member => fits other (List.mem_cons_of_mem _ member))
        (instanceVariableSet members item.1 (.number (values item.1)))
        (before ++ bitNumeral.write item.2 (values item.1))
      have stream : before ++ (bitsOf (item :: rest) values ++ after) =
          before ++ (bitNumeral.write item.2 (values item.1) ++ (bitsOf rest values ++ after)) := by
        simp [bitsOf]
      rw [List.append_assoc, List.length_append, bitNumeral.length_write] at later
      rw [stream, List.foldlM_cons, first]
      refine later.trans ?_
      have restored := instanceVariableSet_cons members (fun member => .number (values member))
        item.1 (rest.map Prod.fst)
      simp only [restored, totalBits, List.map_cons, List.sum_cons, Nat.add_assoc]

/-- Any bits of the right length are those of some numbers, if no name is used twice. -/
theorem exists_values {items : List (String × Nat)} (distinct : (items.map Prod.fst).Nodup)
    {bits : List Bool} (length : bits.length = totalBits items) :
    ∃ values : String → Nat, (∀ item ∈ items, values item.1 < 2 ^ item.2) ∧
      bitsOf items values = bits := by
  induction items generalizing bits with
  | nil => exact ⟨fun _ => 0, by simp, (List.eq_nil_of_length_eq_zero length).symm⟩
  | cons item rest ih =>
      rw [List.map_cons, List.nodup_cons] at distinct
      have total : totalBits (item :: rest) = item.2 + totalBits rest := by
        rw [totalBits, List.map_cons, List.sum_cons]
        rfl
      have first : (bits.take item.2).length = item.2 := by
        rw [List.length_take]
        omega
      have remaining : (bits.drop item.2).length = totalBits rest := by
        rw [List.length_drop]
        omega
      obtain ⟨values, fits, same⟩ := ih distinct.2 remaining
      have other : ∀ field ∈ rest, field.1 ≠ item.1 := by
        intro field member same
        exact distinct.1 (same ▸ List.mem_map_of_mem member)
      refine ⟨instanceVariableSet values item.1 (bitNumeral.read (bits.take item.2)), ?_, ?_⟩
      · intro field member
        unfold instanceVariableSet
        rcases List.mem_cons.mp member with rfl | later
        · rw [if_pos rfl]
          have small := bitNumeral.read_lt (bits.take field.2)
          rw [first] at small
          exact small
        · rw [if_neg (other field later)]
          exact fits field later
      · have unchanged : bitsOf rest
            (instanceVariableSet values item.1 (bitNumeral.read (bits.take item.2))) =
            bitsOf rest values := by
          unfold bitsOf instanceVariableSet
          refine List.flatMap_congr fun field member => ?_
          rw [if_neg (other field member)]
        have written := bitNumeral.write_read (bits.take item.2)
        rw [first] at written
        have head : instanceVariableSet values item.1 (bitNumeral.read (bits.take item.2)) item.1 =
            bitNumeral.read (bits.take item.2) := if_pos rfl
        calc bitsOf (item :: rest)
              (instanceVariableSet values item.1 (bitNumeral.read (bits.take item.2)))
            = bits.take item.2 ++ bits.drop item.2 := by
              rw [bitsOf, List.flatMap_cons, head, written]
              exact congrArg _ (unchanged.trans same)
          _ = bits := List.take_append_drop _ _

/-! ## Round trips -/

theorem maxSizeBits_type {message after : Link16Message} {declaration : String × FieldExample}
    (declared : message.type declaration = some after)
    (counted : message.maxSizeBits = totalBits message.msgItems) :
    after.maxSizeBits = totalBits after.msgItems := by
  unfold type at declared
  obtain ⟨field, -, made⟩ := Option.bind_eq_some_iff.mp declared
  cases made
  simp only [totalBits, List.map_cons, List.sum_cons] at counted ⊢
  omega

/-- The size that `type` keeps is the sum of the widths. -/
theorem maxSizeBits_declare {declarations : List (String × FieldExample)}
    {layout : Link16Message} (declared : declare declarations = some layout) :
    layout.maxSizeBits = totalBits layout.msgItems := by
  have counted : ∀ (declarations : List (String × FieldExample)) (message : Link16Message),
      message.maxSizeBits = totalBits message.msgItems →
      declarations.foldlM type message = some layout →
        layout.maxSizeBits = totalBits layout.msgItems := by
    intro declarations
    induction declarations with
    | nil =>
        intro message before done
        cases done
        exact before
    | cons declaration rest ih =>
        intro message before done
        rw [List.foldlM_cons] at done
        obtain ⟨next, typed, later⟩ := Option.bind_eq_some_iff.mp done
        exact ih next (maxSizeBits_type typed before) later
  exact counted declarations blank rfl declared

/-- A layout that fills whole words, of narrow fields with different names. -/
structure Sized (layout : Link16Message) : Prop where
  narrow : ∀ item ∈ layout.msgItems, Narrow item
  distinct : (layout.msgItems.map Prod.fst).Nodup
  words : layout.maxSizeBits % 16 = 0
  short : layout.maxSizeBits ≤ 4096

/-- A field has a number of its width. -/
def Holds (members : String → FieldValue) (item : String × Nat) : Prop :=
  ∃ value, members item.1 = .number value ∧ value < 2 ^ item.2

theorem exists_values_of_holds {items : List (String × Nat)} {members : String → FieldValue}
    (holds : ∀ item ∈ items, Holds members item) :
    ∃ values : String → Nat, ∀ item ∈ items,
      members item.1 = .number (values item.1) ∧ values item.1 < 2 ^ item.2 := by
  let values : String → Nat := fun member =>
    match members member with
    | .number value => value
    | .binary _ => 0
  refine ⟨values, fun item member => ?_⟩
  obtain ⟨value, carried, fits⟩ := holds item member
  have same : values item.1 = value := by
    simp only [values, carried]
  rw [same]
  exact ⟨carried, fits⟩

/-- The message with given numbers in its fields. -/
def withValues (message : Link16Message) (values : String → Nat) : Link16Message :=
  { message with
    members := fun member =>
      if member ∈ message.msgItems.map Prod.fst then .number (values member)
      else message.members member }

theorem withValues_members (message : Link16Message) {item : String × Nat}
    (member : item ∈ message.msgItems) (values : String → Nat) :
    (message.withValues values).members item.1 = .number (values item.1) :=
  if_pos (List.mem_map_of_mem member)

/-- What is packed for the numbers of the fields. -/
theorem packMessage_of_values {message : Link16Message} {values : String → Nat}
    (narrow : ∀ item ∈ message.msgItems, Narrow item)
    (words : totalBits message.msgItems % 16 = 0)
    (carried : ∀ item ∈ message.msgItems, message.members item.1 = .number (values item.1)) :
    message.packMessage = some { message with
      raw := scanBytes (bitsOf message.msgItems values)
      out := (scanBytes (bitsOf message.msgItems values)).reverse } := by
  have bits := foldlM_fieldBits
    (fun item member => ⟨carried item member, (narrow item member).2.trans (by decide)⟩) []
  have whole : (bitsOf message.msgItems values).length % 8 = 0 := by
    rw [length_bitsOf]
    omega
  have bytes := length_scanBytes whole
  rw [length_bitsOf] at bytes
  have even : (scanBytes (bitsOf message.msgItems values)).length % 2 = 0 := by omega
  unfold packMessage
  rw [bits]
  simp only [List.nil_append, Option.bind_eq_bind, Option.bind_some, swapBytes_reverse2 even]
  rfl

/-- What is unpacked from the reversed bytes of such numbers. -/
theorem unpackMessage_of_values {message : Link16Message} {values : String → Nat}
    (narrow : ∀ item ∈ message.msgItems, Narrow item)
    (fits : ∀ item ∈ message.msgItems, values item.1 < 2 ^ item.2)
    (short : totalBits message.msgItems ≤ 4096)
    (even : message.raw.length % 2 = 0)
    (received : message.raw.reverse.flatMap byteBits = bitsOf message.msgItems values) :
    message.unpackMessage = some (message.withValues values) := by
  have bytes := congrArg List.length received
  rw [length_flatMap_byteBits, length_bitsOf] at bytes
  have stream : toBinary message.raw.reverse = bitsOf message.msgItems values := by
    rw [toBinary_of_short (by omega), received]
  have fields := foldlM_unpackField narrow fits message.members [] []
  rw [List.nil_append, List.append_nil] at fields
  unfold unpackMessage
  rw [swapBytes_reverse2 even]
  simp only [Option.bind_eq_bind, Option.bind_some, stream]
  rw [List.length_nil] at fields
  rw [fields]
  rfl

theorem link16_round_trips {declarations : List (String × FieldExample)} {layout : Link16Message}
    (declared : declare declarations = some layout) (sized : layout.Sized) :
    (∀ sender receiver : Link16Message, sender.msgItems = layout.msgItems →
      receiver.msgItems = layout.msgItems →
      (∀ item ∈ layout.msgItems, Holds sender.members item) →
      ∃ packed after, sender.packMessage = some packed ∧
        { receiver with raw := packed.out }.unpackMessage = some after ∧
        ∀ item ∈ layout.msgItems, after.members item.1 = sender.members item.1) ∧
    ∀ receiver : Link16Message, receiver.msgItems = layout.msgItems →
      receiver.raw.length = layout.maxSizeBits / 8 →
      ∃ unpacked packed, receiver.unpackMessage = some unpacked ∧
        unpacked.packMessage = some packed ∧ packed.out = receiver.raw := by
  have total := maxSizeBits_declare declared
  obtain ⟨narrow, distinct, words, short⟩ := sized
  rw [total] at words short
  constructor
  · intro sender receiver sending receiving holds
    obtain ⟨values, held⟩ := exists_values_of_holds holds
    have bits := length_bitsOf layout.msgItems values
    have whole : (bitsOf layout.msgItems values).length % 8 = 0 := by omega
    have bytes := length_scanBytes whole
    have even : (scanBytes (bitsOf layout.msgItems values)).reverse.length % 2 = 0 := by
      rw [List.length_reverse]
      omega
    have received : (scanBytes (bitsOf layout.msgItems values)).reverse.reverse.flatMap byteBits =
        bitsOf layout.msgItems values := by
      rw [List.reverse_reverse, flatMap_scanBytes _ whole]
    rw [← sending] at narrow words held
    have packed := packMessage_of_values narrow words fun item member => (held item member).1
    rw [sending] at packed narrow held
    rw [← receiving] at packed narrow short held even received
    refine ⟨_, _, packed, unpackMessage_of_values narrow (fun item member => (held item member).2)
      short even received, fun item member => ?_⟩
    rw [← receiving] at member
    exact (withValues_members _ member values).trans (held item member).1.symm
  · intro receiver receiving length
    have bits : (receiver.raw.reverse.flatMap byteBits).length = totalBits layout.msgItems := by
      rw [length_flatMap_byteBits, List.length_reverse, length, total]
      omega
    have even : receiver.raw.length % 2 = 0 := by omega
    obtain ⟨values, fits, same⟩ := exists_values distinct bits
    rw [← receiving] at narrow words short fits same
    refine ⟨_, _, unpackMessage_of_values narrow fits short even same.symm,
      packMessage_of_values narrow words fun item member =>
        receiver.withValues_members member values, ?_⟩
    change (scanBytes (bitsOf receiver.msgItems values)).reverse = receiver.raw
    rw [same, scanBytes_flatMap, List.reverse_reverse]

/-- The four fields of every message, and one of nineteen bits. -/
def headerFields : List (String × FieldExample) :=
  [("word_format_", .text ['0', '0']), ("label_j_series_", .text ['0', '0', '0', '1', '1']),
    ("sublabel_j_series_", .text ['1', '1', '0']),
    ("message_len_indicator_", .text ['0', '1', '0']), ("spare_", .width 19)]

theorem link16_round_trips_headerFields :
    ∃ layout, declare headerFields = some layout ∧ layout.Sized ∧
      ∀ receiver : Link16Message, receiver.msgItems = layout.msgItems →
        receiver.raw.length = layout.maxSizeBits / 8 →
        ∃ unpacked packed, receiver.unpackMessage = some unpacked ∧
          unpacked.packMessage = some packed ∧ packed.out = receiver.raw := by
  have declared : ∃ layout, declare headerFields = some layout ∧ layout.maxSizeBits = 32 ∧
      layout.msgItems = [("spare_", 19), ("message_len_indicator_", 3), ("sublabel_j_series_", 3),
        ("label_j_series_", 5), ("word_format_", 2)] := ⟨_, rfl, rfl, rfl⟩
  obtain ⟨layout, declared, size, items⟩ := declared
  have sized : layout.Sized := by
    refine ⟨?_, ?_, ?_, ?_⟩
    · rw [items]
      simp [Narrow]
    · rw [items]
      decide
    · rw [size]
    · rw [size]
      decide
  exact ⟨layout, declared, sized, (link16_round_trips declared sized).2⟩

end Link16Message

end Nise.RubyModels
