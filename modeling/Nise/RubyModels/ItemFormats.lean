import Nise.RubyModels.IseMessage
import Nise.RubyModels.PackCodes

/-!
# The formats of the items

Everything that `format_code` lists: besides integers and strings there are floating point
numbers, arrays of four, booleans and bit strings, and an item may have an array of types.  An
item has a format string, put together from the codes of its types, and a size that is the sum
of the sizes listed for them.  The codes and the sizes are not always about the same bytes, so
one value is looked at first: what is packed for it, what is unpacked, and how far the position
moves.
-/

namespace Nise.RubyModels

open Nise.Lib

/-- The types `bits_N`. -/
inductive BitsType where
  | bits1
  | bits2
  | bits3
  | bits4
  | bits5
  | bits6
  | bits7
  | bits10
  | bits12
  | bits13
  | bits14
  | bits16
  | bits23
  deriving DecidableEq, Repr

def BitsType.count : BitsType → Nat
  | bits1 => 1
  | bits2 => 2
  | bits3 => 3
  | bits4 => 4
  | bits5 => 5
  | bits6 => 6
  | bits7 => 7
  | bits10 => 10
  | bits12 => 12
  | bits13 => 13
  | bits14 => 14
  | bits16 => 16
  | bits23 => 23

/-- The symbols that `format_code` knows. -/
inductive TypeSymbol where
  | plain (type : ItemType)
  | uint8Four
  | double
  | float
  | floatFour
  | bool
  | bits (type : BitsType)
  deriving DecidableEq, Repr

inductive ItemFormat where
  | symbol (type : TypeSymbol)
  | array (types : List TypeSymbol)
  deriving DecidableEq, Repr

inductive EntryCode where
  | directives (codes : List Code)
  | encoding (encoding : Encoding)
  deriving DecidableEq, Repr

/-- The code of one symbol and its listed size. -/
def formatEntry : TypeSymbol → EntryCode × Nat
  | .plain type =>
      match formatCode type with
      | (.directive directive, size) => (.directives [.plain directive], size)
      | (.encoding encoding, size) => (.encoding encoding, size)
  | .uint8Four => (.directives (List.replicate 4 (.plain .C)), 4)
  | .double => (.directives [.G], 8)
  | .float => (.directives [.g], 4)
  | .floatFour => (.directives (List.replicate 4 .g), 16)
  | .bool => (.directives [.plain .n], 2)
  | .bits type => (.directives [.B type.count], type.count)

namespace ItemFormat

def symbols : ItemFormat → List TypeSymbol
  | symbol type => [type]
  | array types => types

/-- The codes of the symbols, one after another.  With the name of an encoding in it, this is
the name of a method, and a method of the string only if it is the name of one encoding. -/
inductive FmtCode where
  | directives (codes : List Code)
  | encoding (encoding : Encoding)
  | unknown
  deriving DecidableEq, Repr

def joined : List EntryCode → Option (List Code)
  | [] => some []
  | .directives codes :: rest => (joined rest).map (codes ++ ·)
  | .encoding _ :: _ => none

def fmtCode (format : ItemFormat) : FmtCode :=
  match format.symbols.map (fun type => (formatEntry type).1) with
  | [.encoding encoding] => .encoding encoding
  | codes =>
      match joined codes with
      | some directives => .directives directives
      | none => .unknown

def fmtSize (format : ItemFormat) : Nat :=
  (format.symbols.map fun type => (formatEntry type).2).sum

end ItemFormat

/-- The variable of a member: a value, or an array of values. -/
inductive MemberValue where
  | scalar (scalar : Scalar)
  | array (elements : List Scalar)
  deriving DecidableEq, Repr

/-- `[my_value].flatten`. -/
def MemberValue.flatten : MemberValue → List Scalar
  | .scalar value => [value]
  | .array elements => elements

namespace ItemFormat

/-- What is appended for a value, if it can be packed, and how far the position moves. -/
def packValue (format : ItemFormat) (value : MemberValue) : Option (List UInt8) × Nat :=
  match format.fmtCode with
  | .encoding encoding =>
      match value with
      | .scalar (.plain (.string text)) =>
          match encoding.sendTo text with
          | some bytes => (some bytes, format.fmtSize + text.length)
          | none => (none, format.fmtSize)
      | _ => (none, format.fmtSize)
  | .directives codes => (packAll codes value.flatten, format.fmtSize)
  | .unknown => (none, format.fmtSize)

/-- The first element if the type is a symbol. -/
def unpacked : ItemFormat → List Scalar → MemberValue
  | symbol _, elements => .scalar (elements.headD (.plain .nil))
  | array _, elements => .array elements

/-- The value at a position, and how far the position moves. -/
def unpackValue (format : ItemFormat) (raw : List UInt8) (pos : Nat) :
    Option (MemberValue × Nat) :=
  match format.fmtCode with
  | .encoding encoding => do
      let rest ← slice raw pos raw.length
      let text ← encoding.sendFrom rest
      return (.scalar (.plain (.string text)), format.fmtSize + text.length)
  | .directives codes => do
      let bytes ← slice raw pos format.fmtSize
      return (format.unpacked (unpackAll codes bytes), format.fmtSize)
  | .unknown => none

end ItemFormat

/-! ## The values of the types -/

/-- What a type has as one element of its values. -/
inductive Slot where
  | code (code : Code)
  | signed (bits : Nat)
  | encoding (encoding : Encoding)
  | boolean
  deriving DecidableEq, Repr

def Slot.Fits : Slot → Scalar → Prop
  | code directive, scalar => directive.Fits scalar
  | signed bits, .plain (.integer number) => -2 ^ (bits - 1) ≤ number ∧ number < 2 ^ (bits - 1)
  | encoding method, .plain (.string text) => method.Fits text
  | boolean, .boolean _ => True
  | _, _ => False

namespace TypeSymbol

def slots : TypeSymbol → List Slot
  | plain .aceInt16 => [.signed 16]
  | plain .int16 => [.signed 16]
  | plain .aceInt32 => [.signed 32]
  | plain .int32 => [.signed 32]
  | plain type =>
      match (formatCode type).1 with
      | .directive directive => [.code (.plain directive)]
      | .encoding encoding => [.encoding encoding]
  | uint8Four => List.replicate 4 (.code (.plain .C))
  | double => [.code .G]
  | float => [.code .g]
  | floatFour => List.replicate 4 (.code .g)
  | bool => [.boolean]
  | bits type => [.code (.B type.count)]

/-- The types with arrays of four as their values. -/
def Four (type : TypeSymbol) : Prop := type = uint8Four ∨ type = floatFour

def Signed (type : TypeSymbol) : Prop :=
  type ∈ [plain .aceInt16, plain .int16, plain .aceInt32, plain .int32]

def Encoded (type : TypeSymbol) : Prop :=
  type ∈ [plain .cstring, plain .pstring, plain .p2string, plain .p4string]

instance : DecidablePred Four := fun type =>
  inferInstanceAs (Decidable (type = uint8Four ∨ type = floatFour))

instance : DecidablePred Signed := fun type =>
  inferInstanceAs
    (Decidable (type ∈ [plain .aceInt16, plain .int16, plain .aceInt32, plain .int32]))

instance : DecidablePred Encoded := fun type =>
  inferInstanceAs
    (Decidable (type ∈ [plain .cstring, plain .pstring, plain .p2string, plain .p4string]))

end TypeSymbol

namespace ItemFormat

def slots (format : ItemFormat) : List Slot := format.symbols.flatMap TypeSymbol.slots

/-- The values of an item: arrays for the types of four and for arrays of types. -/
def Fits : ItemFormat → MemberValue → Prop
  | symbol type, .scalar scalar => ¬ type.Four ∧ List.Forall₂ Slot.Fits type.slots [scalar]
  | symbol type, .array elements => type.Four ∧ List.Forall₂ Slot.Fits type.slots elements
  | array types, .array elements =>
      List.Forall₂ Slot.Fits (types.flatMap TypeSymbol.slots) elements
  | array _, .scalar _ => False

/-- The formats of which `unpack_message` returns values at all. -/
def Returns : ItemFormat → Prop
  | symbol type => ¬ type.Four ∧ type ≠ .bool
  | array types => ∀ type ∈ types, ¬ type.Encoded ∧ type ≠ .bool

instance : DecidablePred Returns
  | symbol type => inferInstanceAs (Decidable (¬ type.Four ∧ type ≠ .bool))
  | array types => inferInstanceAs (Decidable (∀ type ∈ types, ¬ type.Encoded ∧ type ≠ .bool))

/-- The listed size is the number of bytes: it is not for more than one bit. -/
def Aligned (format : ItemFormat) : Prop :=
  ∀ type, TypeSymbol.bits type ∈ format.symbols → type = .bits1

end ItemFormat

/-- No element is a negative integer. -/
def MemberValue.Nonnegative (value : MemberValue) : Prop :=
  ∀ number, .plain (.integer number) ∈ value.flatten → 0 ≤ number

namespace Slot

theorem Fits.exists_number {bits : Nat} {scalar : Scalar} (fits : (signed bits).Fits scalar) :
    ∃ number : Int, scalar = .plain (.integer number) ∧ number < 2 ^ (bits - 1) := by
  cases scalar with
  | plain value =>
      cases value with
      | nil => exact fits.elim
      | integer number => exact ⟨number, rfl, fits.2⟩
      | string text => exact fits.elim
  | float number => exact fits.elim
  | boolean truth => exact fits.elim

theorem Fits.exists_text {method : Encoding} {scalar : Scalar}
    (fits : (encoding method).Fits scalar) :
    ∃ text, scalar = .plain (.string text) ∧ method.Fits text := by
  cases scalar with
  | plain value =>
      cases value with
      | nil => exact fits.elim
      | integer number => exact fits.elim
      | string text => exact ⟨text, rfl, fits⟩
  | float number => exact fits.elim
  | boolean truth => exact fits.elim

theorem Fits.exists_truth {scalar : Scalar} (fits : boolean.Fits scalar) :
    ∃ truth, scalar = .boolean truth := by
  cases scalar with
  | plain value => exact fits.elim
  | float number => exact fits.elim
  | boolean truth => exact ⟨truth, rfl⟩

end Slot

/-! ## Codes and sizes -/

namespace TypeSymbol

/-- The directives of a type that is no string encoding. -/
def codes (type : TypeSymbol) : List Code :=
  match (formatEntry type).1 with
  | .directives codes => codes
  | .encoding _ => []

theorem formatEntry_of_not_encoded {type : TypeSymbol} (plain : ¬ type.Encoded) :
    (formatEntry type).1 = .directives type.codes := by
  cases type with
  | plain type => cases type <;> first | rfl | exact absurd (by decide) plain
  | _ => rfl

theorem formatEntry_of_encoded {type : TypeSymbol} (encoded : type.Encoded) :
    ∃ encoding, (formatEntry type).1 = .encoding encoding ∧
      (formatEntry type).2 = encoding.width ∧ type.slots = [.encoding encoding] := by
  simp only [Encoded, List.mem_cons, List.not_mem_nil, or_false] at encoded
  rcases encoded with rfl | rfl | rfl | rfl
  · exact ⟨.cstring, rfl, rfl, rfl⟩
  · exact ⟨.pstring, rfl, rfl, rfl⟩
  · exact ⟨.p2string, rfl, rfl, rfl⟩
  · exact ⟨.p4string, rfl, rfl, rfl⟩

/-- More than one bit has a larger size than it takes, and every other type the same. -/
theorem size_eq_iff {type : TypeSymbol} (plain : ¬ type.Encoded) :
    totalWidth type.codes ≤ (formatEntry type).2 ∧
      ((formatEntry type).2 = totalWidth type.codes ↔
        ∀ bitsType, type = .bits bitsType → bitsType = .bits1) := by
  cases type with
  | plain type =>
      cases type <;> first
        | exact absurd (by decide) plain
        | exact ⟨le_rfl, fun _ => nofun, fun _ => rfl⟩
  | bits type =>
      cases type <;> simp [codes, totalWidth, formatEntry, BitsType.count, Code.width]
  | _ => exact ⟨le_rfl, fun _ => nofun, fun _ => rfl⟩

/-- Values that are not negative are those of the directives of their type. -/
theorem slots_carried {type : TypeSymbol} (plain : ¬ type.Encoded) (noBoolean : type ≠ .bool) :
    List.Forall₂ (fun (slot : Slot) (code : Code) => ∀ scalar, slot.Fits scalar →
      (∀ number, scalar = .plain (.integer number) → 0 ≤ number) → code.Fits scalar)
      type.slots type.codes := by
  have same : ∀ code : Code, ∀ scalar, (Slot.code code).Fits scalar →
      (∀ number, scalar = .plain (.integer number) → 0 ≤ number) → code.Fits scalar :=
    fun code scalar fits _ => fits
  have signed : ∀ bits directive, (∀ number : Int, 0 ≤ number → number < 2 ^ (bits - 1) →
      Directive.Fits directive (.integer number)) → ∀ scalar, (Slot.signed bits).Fits scalar →
      (∀ number, scalar = .plain (.integer number) → 0 ≤ number) →
      (Code.plain directive).Fits scalar := by
    intro bits directive within scalar fits nonnegative
    obtain ⟨number, rfl, small⟩ := fits.exists_number
    exact within number (nonnegative number rfl) small
  have short : ∀ number : Int, 0 ≤ number → number < 2 ^ (16 - 1) →
      Directive.n.Fits (.integer number) := fun number low high => ⟨low, by omega⟩
  have long : ∀ number : Int, 0 ≤ number → number < 2 ^ (32 - 1) →
      Directive.N.Fits (.integer number) := fun number low high => ⟨low, by omega⟩
  cases type with
  | bool => exact absurd rfl noBoolean
  | plain type =>
      cases type with
      | aceInt16 => exact .cons (signed 16 .n short) .nil
      | int16 => exact .cons (signed 16 .n short) .nil
      | aceInt32 => exact .cons (signed 32 .N long) .nil
      | int32 => exact .cons (signed 32 .N long) .nil
      | cstring => exact absurd (by decide) plain
      | pstring => exact absurd (by decide) plain
      | p2string => exact absurd (by decide) plain
      | p4string => exact absurd (by decide) plain
      | _ => exact .cons (same _) .nil
  | uint8Four => exact .cons (same _) (.cons (same _) (.cons (same _) (.cons (same _) .nil)))
  | floatFour => exact .cons (same _) (.cons (same _) (.cons (same _) (.cons (same _) .nil)))
  | double => exact .cons (same _) .nil
  | float => exact .cons (same _) .nil
  | bits type => exact .cons (same _) .nil

end TypeSymbol

namespace ItemFormat

def codes (format : ItemFormat) : List Code := format.symbols.flatMap TypeSymbol.codes

theorem joined_of_not_encoded {types : List TypeSymbol}
    (plain : ∀ type ∈ types, ¬ type.Encoded) :
    joined (types.map fun type => (formatEntry type).1) =
      some (types.flatMap TypeSymbol.codes) := by
  induction types with
  | nil => rfl
  | cons type rest ih =>
      have later := ih fun other member => plain other (List.mem_cons_of_mem _ member)
      rw [List.map_cons, TypeSymbol.formatEntry_of_not_encoded (plain type (List.mem_cons_self ..)),
        joined, later]
      rfl

theorem not_encoded_of_joined {types : List TypeSymbol} {codes : List Code}
    (joins : joined (types.map fun type => (formatEntry type).1) = some codes) :
    ∀ type ∈ types, ¬ type.Encoded := by
  induction types generalizing codes with
  | nil => nofun
  | cons type rest ih =>
      rw [List.map_cons] at joins
      by_cases encoded : type.Encoded
      · obtain ⟨encoding, entry, -⟩ := TypeSymbol.formatEntry_of_encoded encoded
        rw [entry] at joins
        cases joins
      · rw [TypeSymbol.formatEntry_of_not_encoded encoded, joined] at joins
        obtain ⟨later, joinsLater, -⟩ := Option.map_eq_some_iff.mp joins
        intro other member
        rcases List.mem_cons.mp member with rfl | among
        · exact encoded
        · exact ih joinsLater other among

theorem fmtCode_of_not_encoded {format : ItemFormat}
    (plain : ∀ type ∈ format.symbols, ¬ type.Encoded) :
    format.fmtCode = .directives format.codes := by
  have joins := joined_of_not_encoded plain
  unfold fmtCode
  split
  · next encoding one =>
      rw [one] at joins
      cases joins
  · rw [joins]
    rfl

theorem not_encoded_of_fmtCode {format : ItemFormat} {codes : List Code}
    (directives : format.fmtCode = .directives codes) :
    ∀ type ∈ format.symbols, ¬ type.Encoded := by
  unfold fmtCode at directives
  split at directives
  · cases directives
  · split at directives
    · next joins => exact not_encoded_of_joined joins
    · cases directives

/-- The size of an item is what its directives take exactly for the aligned formats. -/
theorem fmtSize_eq_iff {format : ItemFormat} (plain : ∀ type ∈ format.symbols, ¬ type.Encoded) :
    totalWidth format.codes ≤ format.fmtSize ∧
      (format.fmtSize = totalWidth format.codes ↔ format.Aligned) := by
  have sums : ∀ types : List TypeSymbol, (∀ type ∈ types, ¬ type.Encoded) →
      totalWidth (types.flatMap TypeSymbol.codes) ≤
          (types.map fun type => (formatEntry type).2).sum ∧
        ((types.map fun type => (formatEntry type).2).sum =
            totalWidth (types.flatMap TypeSymbol.codes) ↔
          ∀ bitsType, TypeSymbol.bits bitsType ∈ types → bitsType = .bits1) := by
    intro types
    induction types with
    | nil => exact fun _ => ⟨le_rfl, fun _ => nofun, fun _ => rfl⟩
    | cons type rest ih =>
        intro plain
        obtain ⟨most, exact⟩ := TypeSymbol.size_eq_iff (plain type (List.mem_cons_self ..))
        obtain ⟨mostRest, exactRest⟩ :=
          ih fun other member => plain other (List.mem_cons_of_mem _ member)
        have width : totalWidth ((type :: rest).flatMap TypeSymbol.codes) =
            totalWidth type.codes + totalWidth (rest.flatMap TypeSymbol.codes) := by
          simp only [totalWidth, List.flatMap_cons, List.map_append, List.sum_append]
        have both : (∀ bitsType, TypeSymbol.bits bitsType ∈ type :: rest → bitsType = .bits1) ↔
            (∀ bitsType, type = .bits bitsType → bitsType = .bits1) ∧
              ∀ bitsType, TypeSymbol.bits bitsType ∈ rest → bitsType = .bits1 := by
          simp only [List.mem_cons, or_imp, forall_and, eq_comm]
        rw [width, List.map_cons, List.sum_cons, both, ← exact, ← exactRest]
        omega
  exact sums format.symbols plain

/-! ## Values that come back -/

theorem fitAll_of_slots {types : List TypeSymbol}
    (plain : ∀ type ∈ types, ¬ type.Encoded ∧ type ≠ .bool) {elements : List Scalar}
    (fits : List.Forall₂ Slot.Fits (types.flatMap TypeSymbol.slots) elements)
    (nonnegative : ∀ number, .plain (.integer number) ∈ elements → 0 ≤ number) :
    FitAll (types.flatMap TypeSymbol.codes) elements := by
  have carried : List.Forall₂ (fun (slot : Slot) (code : Code) => ∀ scalar, slot.Fits scalar →
      (∀ number, scalar = .plain (.integer number) → 0 ≤ number) → code.Fits scalar)
      (types.flatMap TypeSymbol.slots) (types.flatMap TypeSymbol.codes) := by
    clear fits
    induction types with
    | nil => exact .nil
    | cons type rest ih =>
        obtain ⟨directives, noBoolean⟩ := plain type (List.mem_cons_self ..)
        exact List.rel_append (TypeSymbol.slots_carried directives noBoolean)
          (ih fun other member => plain other (List.mem_cons_of_mem _ member))
  generalize types.flatMap TypeSymbol.slots = slots at fits carried
  generalize types.flatMap TypeSymbol.codes = codes at carried
  induction fits generalizing codes with
  | nil =>
      cases carried
      exact .nil
  | @cons slot scalar slots elements fitsFirst fitsRest ih =>
      cases carried with
      | cons first rest =>
          refine .cons (first scalar fitsFirst ?_) (ih ?_ _ rest)
          · rintro number rfl
            exact nonnegative number (List.mem_cons_self ..)
          · exact fun number member => nonnegative number (List.mem_cons_of_mem _ member)

/-- A format whose values are returned, with no negative integer in this one. -/
structure Kept (format : ItemFormat) (value : MemberValue) : Prop where
  returns : format.Returns
  nonnegative : value.Nonnegative

/-- Such a value is a string with its encoding, or it consists of values that the directives
keep and is put together again from them. -/
theorem Kept.cases {format : ItemFormat} {value : MemberValue} (kept : format.Kept value)
    (fits : format.Fits value) :
    (∃ encoding text, format.fmtCode = .encoding encoding ∧ format.fmtSize = encoding.width ∧
      value = .scalar (.plain (.string text)) ∧ encoding.Fits text ∧ format.Aligned) ∨
    ((∀ type ∈ format.symbols, ¬ type.Encoded) ∧ FitAll format.codes value.flatten ∧
      format.unpacked value.flatten = value ∧
      ∀ elements, elements.length = format.codes.length →
        (format.unpacked elements).flatten = elements) := by
  obtain ⟨returns, nonnegative⟩ := kept
  cases format with
  | symbol type =>
      cases value with
      | array elements => exact absurd fits.1 returns.1
      | scalar scalar =>
          by_cases encoded : type.Encoded
          · left
            obtain ⟨encoding, entry, size, slots⟩ := TypeSymbol.formatEntry_of_encoded encoded
            have fitsOne := fits.2
            rw [slots] at fitsOne
            cases fitsOne with
            | cons first rest =>
                obtain ⟨text, rfl, kept⟩ := Slot.Fits.exists_text first
                refine ⟨encoding, text, ?_, ?_, rfl, kept, ?_⟩
                · unfold fmtCode symbols
                  rw [List.map_singleton, entry]
                · unfold fmtSize symbols
                  rw [List.map_singleton, List.sum_singleton, size]
                · intro bitsType member
                  cases List.mem_singleton.mp member
                  cases entry
          · right
            have plain : ∀ other ∈ (symbol type).symbols, ¬ other.Encoded ∧ other ≠ .bool := by
              intro other member
              cases List.mem_singleton.mp member
              exact ⟨encoded, returns.2⟩
            have fitsAll : FitAll (symbol type).codes [scalar] := by
              apply fitAll_of_slots plain
              · rw [symbols, List.flatMap_singleton]
                exact fits.2
              · exact nonnegative
            refine ⟨fun other member => (plain other member).1, fitsAll, rfl, ?_⟩
            intro elements length
            rw [fitsAll.length_eq, List.length_singleton] at length
            obtain ⟨element, rfl⟩ := List.length_eq_one_iff.mp length
            rfl
  | array types =>
      cases value with
      | scalar scalar => exact fits.elim
      | array elements =>
          right
          exact ⟨fun other member => (returns other member).1,
            fitAll_of_slots returns fits nonnegative, rfl, fun _ _ => rfl⟩

end ItemFormat

theorem slice_late {α : Type} (before bytes : List α) (skipped count : Nat) :
    slice (before ++ bytes) (before.length + skipped) count =
      if skipped ≤ bytes.length then some ((bytes.drop skipped).take count) else none := by
  unfold slice
  rw [List.length_append, List.drop_append, List.drop_eq_nil_of_le (by omega), List.nil_append,
    Nat.add_sub_cancel_left]
  exact if_congr (by omega) rfl rfl

theorem length_of_fromPrefixed {directive : Directive} {text result : List UInt8}
    (integer : ∀ width, directive ≠ .A width)
    (sent : fromPrefixed directive directive.width text = some result) :
    result.length + directive.width ≤ text.length := by
  by_cases short : text.length < directive.width
  · unfold fromPrefixed at sent
    rw [Code.unpack_short short integer] at sent
    cases sent
  · unfold fromPrefixed at sent
    split at sent
    · unfold slice at sent
      split at sent
      · cases sent
        rw [List.length_take, List.length_drop]
        omega
      · cases sent
    · cases sent

/-- What is sent back with its prefix or its terminator is not longer than what was read. -/
theorem Encoding.length_of_sendFrom {encoding : Encoding} {text result : List UInt8}
    (sent : encoding.sendFrom text = some result) :
    result.length + encoding.width ≤ text.length := by
  cases encoding with
  | cstring =>
      change fromCstring text = some result at sent
      unfold fromCstring at sent
      obtain ⟨index, found, cut⟩ := Option.bind_eq_some_iff.mp sent
      have inside : index < text.length := (List.findIdx?_eq_some_iff_getElem.mp found).1
      have short : result.length ≤ index := by
        split at cut
        · unfold slice at cut
          split at cut
          · cases cut
            rw [List.length_take]
            exact Nat.min_le_left ..
          · cases cut
        · cases cut
          exact Nat.zero_le _
      exact Nat.succ_le_of_lt (short.trans_lt inside)
  | pstring => exact length_of_fromPrefixed (nofun : ∀ width, Directive.C ≠ .A width) sent
  | p2string => exact length_of_fromPrefixed (nofun : ∀ width, Directive.n ≠ .A width) sent
  | p4string => exact length_of_fromPrefixed (nofun : ∀ width, Directive.N ≠ .A width) sent

namespace ItemFormat

/-- The bytes that are packed for a value: it is read back from them, if they stand where the
position is and at the end or with an aligned format, the position moves by their number exactly
with an aligned format, and too late in them there is at most an empty string to be read. -/
structure Stored (format : ItemFormat) (value : MemberValue) (bytes : List UInt8) : Prop where
  packed : (format.packValue value).1 = some bytes
  read : ∀ before after, format.Aligned ∨ after = [] →
    ∃ moved, format.unpackValue (before ++ (bytes ++ after)) before.length = some (value, moved)
  moved : ∀ raw pos moved, format.unpackValue raw pos = some (value, moved) →
    bytes.length ≤ moved ∧ (moved = bytes.length ↔ format.Aligned)
  late : ∀ before skipped moved, 0 < skipped →
    format.unpackValue (before ++ bytes) (before.length + skipped) = some (value, moved) →
    value.flatten.getLast? = some (.plain (.string []))

theorem stored_of_encoding {format : ItemFormat} {encoding : Encoding} {text : List UInt8}
    (code : format.fmtCode = .encoding encoding) (size : format.fmtSize = encoding.width)
    (fits : encoding.Fits text) (aligned : format.Aligned) :
    ∃ bytes, format.Stored (.scalar (.plain (.string text))) bytes := by
  obtain ⟨bytes, sent, length, received⟩ := fits.round_trip
  refine ⟨bytes, ?_, ?_, ?_, ?_⟩
  · simp only [packValue, code, sent]
  · intro before after _
    have rest : slice (before ++ (bytes ++ after)) before.length
        (before ++ (bytes ++ after)).length = some (bytes ++ after) := by
      unfold slice
      rw [if_pos (by simp), List.drop_left, List.take_of_length_le (by simp)]
    refine ⟨format.fmtSize + text.length, ?_⟩
    simp only [unpackValue, code, rest, Option.bind_eq_bind, Option.bind_some, received]
    rfl
  · intro raw pos moved unpacked
    simp only [unpackValue, code, Option.bind_eq_bind] at unpacked
    obtain ⟨rest, -, unpacked⟩ := Option.bind_eq_some_iff.mp unpacked
    obtain ⟨result, -, same⟩ := Option.bind_eq_some_iff.mp unpacked
    cases same
    rw [size, length]
    exact ⟨le_rfl, fun _ => aligned, fun _ => rfl⟩
  · intro before skipped moved late unpacked
    simp only [unpackValue, code, Option.bind_eq_bind, slice_late] at unpacked
    obtain ⟨rest, cut, unpacked⟩ := Option.bind_eq_some_iff.mp unpacked
    obtain ⟨result, received, same⟩ := Option.bind_eq_some_iff.mp unpacked
    cases same
    split at cut
    · cases cut
      have long := encoding.length_of_sendFrom received
      rw [List.length_take, List.length_drop, length] at long
      omega
    · cases cut

theorem stored_of_directives {format : ItemFormat} {value : MemberValue}
    (plain : ∀ type ∈ format.symbols, ¬ type.Encoded)
    (fits : FitAll format.codes value.flatten)
    (whole : format.unpacked value.flatten = value)
    (parts : ∀ elements, elements.length = format.codes.length →
      (format.unpacked elements).flatten = elements) :
    ∃ bytes, format.Stored value bytes := by
  have code := fmtCode_of_not_encoded plain
  obtain ⟨most, exact⟩ := fmtSize_eq_iff plain
  obtain ⟨bytes, packed, length, unpacked⟩ := fits.round_trip
  refine ⟨bytes, ?_, ?_, ?_, ?_⟩
  · simp only [packValue, code, packed]
  · intro before after place
    have cut : slice (before ++ (bytes ++ after)) before.length format.fmtSize =
        some (bytes.take format.fmtSize) := by
      rcases place with aligned | rfl
      · rw [exact.mpr aligned, ← length, List.take_length]
        exact slice_append before bytes after
      · have late := slice_late before (bytes ++ []) 0 format.fmtSize
        rw [Nat.add_zero, if_pos (Nat.zero_le _), List.drop_zero, List.append_nil] at late
        rw [List.append_nil]
        exact late
    have enough : bytes.take format.fmtSize = bytes :=
      List.take_of_length_le (length.le.trans most)
    have all := unpacked []
    rw [List.append_nil] at all
    refine ⟨format.fmtSize, ?_⟩
    simp only [unpackValue, code, cut, enough, Option.bind_eq_bind, Option.bind_some, all, whole]
    rfl
  · intro raw pos moved result
    simp only [unpackValue, code, Option.bind_eq_bind] at result
    obtain ⟨piece, -, same⟩ := Option.bind_eq_some_iff.mp result
    cases same
    rw [length]
    exact ⟨most, exact⟩
  · intro before skipped moved late result
    simp only [unpackValue, code, Option.bind_eq_bind, slice_late] at result
    obtain ⟨piece, cut, same⟩ := Option.bind_eq_some_iff.mp result
    split at cut
    · next inside =>
        cases cut
        have elements : unpackAll format.codes (bytes.drop skipped) = value.flatten := by
          have result : format.unpacked (unpackAll format.codes
              ((bytes.drop skipped).take format.fmtSize)) = value :=
            congrArg Prod.fst (Option.some.inj same)
          have enough : (bytes.drop skipped).take format.fmtSize = bytes.drop skipped := by
            apply List.take_of_length_le
            rw [List.length_drop]
            omega
          rw [enough] at result
          rw [← result]
          exact (parts _ (length_unpackAll ..)).symm
        have some : format.codes ≠ [] := by
          rintro none
          rw [none] at length
          change bytes.length = 0 at length
          omega
        exact fits.empty_of_unpackAll_drop packed late some elements
    · cases cut

theorem Kept.stored {format : ItemFormat} {value : MemberValue} (kept : format.Kept value)
    (fits : format.Fits value) : ∃ bytes, format.Stored value bytes := by
  rcases kept.cases fits with
    ⟨encoding, text, code, size, rfl, keeps, aligned⟩ | ⟨plain, fitsAll, whole, parts⟩
  · exact stored_of_encoding code size keeps aligned
  · exact stored_of_directives plain fitsAll whole parts

/-! ## Values that do not come back -/

/-- The elements that can be unpacked: an integer is not negative, and there is no boolean. -/
def Readable (scalar : Scalar) : Prop :=
  (∀ number, scalar = .plain (.integer number) → 0 ≤ number) ∧
    ∀ truth, scalar ≠ .boolean truth

theorem readable_unpackInteger (count : Nat) (bytes : List UInt8) :
    Readable (.plain (Directive.unpackInteger count bytes)) := by
  unfold Directive.unpackInteger
  refine ⟨fun number same => ?_, nofun⟩
  split at same
  · cases same
  · cases same
    exact Int.natCast_nonneg _

theorem readable_float (number : FloatDatum doubleFormat) : Readable (.float number) :=
  ⟨nofun, nofun⟩

theorem readable_unpackWhole {read : List UInt8 → Scalar} (reads : ∀ bytes, Readable (read bytes))
    (width : Nat) (text : List UInt8) : Readable (Code.unpackWhole width text read).1 := by
  unfold Code.unpackWhole
  split
  · exact ⟨nofun, nofun⟩
  · exact reads _

theorem readable_unpack (code : Code) (text : List UInt8) : Readable (code.unpack text).1 := by
  cases code with
  | plain directive =>
      cases directive with
      | C => exact readable_unpackInteger _ _
      | n => exact readable_unpackInteger _ _
      | v => exact readable_unpackInteger _ _
      | N => exact readable_unpackInteger _ _
      | A width => exact ⟨nofun, nofun⟩
  | G => exact readable_unpackWhole (fun _ => readable_float _) _ _
  | g => exact readable_unpackWhole (fun _ => readable_float _) _ _
  | B count => exact ⟨nofun, nofun⟩

theorem readable_unpackAll (codes : List Code) (text : List UInt8) :
    ∀ scalar ∈ unpackAll codes text, Readable scalar := by
  induction codes generalizing text with
  | nil => nofun
  | cons code rest ih =>
      intro scalar member
      rcases List.mem_cons.mp member with rfl | later
      · exact readable_unpack code text
      · exact ih _ scalar later

/-- Every element of an unpacked value can be unpacked, and a value of an array has no string
encoding among its types. -/
theorem readable_of_unpackValue {format : ItemFormat} {raw : List UInt8} {pos moved : Nat}
    {value : MemberValue} (unpacked : format.unpackValue raw pos = some (value, moved)) :
    (∀ scalar ∈ value.flatten, Readable scalar) ∧
      match format with
      | symbol _ => ∃ scalar, value = .scalar scalar
      | array types => (∃ scalar, value = .scalar scalar) ∨ ∀ type ∈ types, ¬ type.Encoded := by
  unfold unpackValue at unpacked
  split at unpacked
  · obtain ⟨rest, -, unpacked⟩ := Option.bind_eq_some_iff.mp unpacked
    obtain ⟨text, -, same⟩ := Option.bind_eq_some_iff.mp unpacked
    cases same
    refine ⟨fun scalar member => ?_, ?_⟩
    · cases List.mem_singleton.mp member
      exact ⟨nofun, nofun⟩
    · cases format with
      | symbol type => exact ⟨_, rfl⟩
      | array types => exact .inl ⟨_, rfl⟩
  · next codes code =>
      obtain ⟨bytes, -, same⟩ := Option.bind_eq_some_iff.mp unpacked
      cases same
      have readable := readable_unpackAll codes bytes
      cases format with
      | symbol type =>
          refine ⟨fun scalar member => ?_, _, rfl⟩
          cases List.mem_singleton.mp member
          cases elements : unpackAll codes bytes with
          | nil => exact ⟨nofun, nofun⟩
          | cons first later =>
              rw [elements] at readable
              exact readable first (List.mem_cons_self ..)
      | array types => exact ⟨readable, .inr (not_encoded_of_fmtCode code)⟩
  · cases unpacked

theorem exists_of_forall₂ {α β : Type} {R : α → β → Prop} {first : List α} {second : List β}
    (related : List.Forall₂ R first second) :
    (∀ one ∈ first, ∃ other ∈ second, R one other) ∧
      ∀ other ∈ second, ∃ one ∈ first, R one other := by
  induction related with
  | nil => exact ⟨nofun, nofun⟩
  | @cons one other first second here later ih =>
      refine ⟨fun member among => ?_, fun member among => ?_⟩
      · rcases List.mem_cons.mp among with rfl | rest
        · exact ⟨other, List.mem_cons_self .., here⟩
        · obtain ⟨found, inside, relates⟩ := ih.1 member rest
          exact ⟨found, List.mem_cons_of_mem _ inside, relates⟩
      · rcases List.mem_cons.mp among with rfl | rest
        · exact ⟨one, List.mem_cons_self .., here⟩
        · obtain ⟨found, inside, relates⟩ := ih.2 member rest
          exact ⟨found, List.mem_cons_of_mem _ inside, relates⟩

theorem exists_boolean {types : List TypeSymbol} {elements : List Scalar}
    (member : .bool ∈ types)
    (fits : List.Forall₂ Slot.Fits (types.flatMap TypeSymbol.slots) elements) :
    ∃ truth, .boolean truth ∈ elements := by
  have slot : Slot.boolean ∈ types.flatMap TypeSymbol.slots :=
    List.mem_flatMap.mpr ⟨.bool, member, List.mem_singleton.mpr rfl⟩
  obtain ⟨scalar, among, carried⟩ := (exists_of_forall₂ fits).1 _ slot
  obtain ⟨truth, rfl⟩ := Slot.Fits.exists_truth carried
  exact ⟨truth, among⟩

/-- A value of an item that is unpacked, from whatever bytes, is one that is kept. -/
theorem kept_of_unpackValue {format : ItemFormat} {raw : List UInt8} {pos moved : Nat}
    {value : MemberValue} (fits : format.Fits value)
    (unpacked : format.unpackValue raw pos = some (value, moved)) : format.Kept value := by
  obtain ⟨readable, shape⟩ := readable_of_unpackValue unpacked
  refine ⟨?_, fun number member => (readable _ member).1 number rfl⟩
  cases format with
  | symbol type =>
      obtain ⟨scalar, rfl⟩ := shape
      refine ⟨fits.1, ?_⟩
      rintro rfl
      obtain ⟨truth, member⟩ := exists_boolean (List.mem_singleton_self _)
        ((List.flatMap_singleton TypeSymbol.slots _).symm ▸ fits.2)
      exact (readable _ member).2 truth rfl
  | array types =>
      cases value with
      | scalar scalar => exact fits.elim
      | array elements =>
          rcases shape with ⟨scalar, single⟩ | plain
          · cases single
          · intro type member
            refine ⟨plain type member, ?_⟩
            rintro rfl
            obtain ⟨truth, among⟩ := exists_boolean member fits
            exact (readable _ among).2 truth rfl

/-! ## Formats without negative values -/

theorem nonnegative_of_code {code : Code} {number : Int}
    (fits : code.Fits (.plain (.integer number))) : 0 ≤ number := by
  cases code with
  | plain directive =>
      cases directive with
      | A width => exact fits.elim
      | _ => exact fits.1
  | _ => exact fits.elim

/-- Only the signed types have negative integers among their values. -/
theorem nonnegative_of_not_signed {format : ItemFormat} {value : MemberValue}
    (fits : format.Fits value) (unsigned : ∀ type ∈ format.symbols, ¬ type.Signed) :
    value.Nonnegative := by
  have elements : List.Forall₂ Slot.Fits format.slots value.flatten := by
    cases format with
    | symbol type =>
        rw [slots, symbols, List.flatMap_singleton]
        cases value with
        | scalar scalar => exact fits.2
        | array elements => exact fits.2
    | array types =>
        cases value with
        | scalar scalar => exact fits.elim
        | array elements => exact fits
  intro number member
  obtain ⟨slot, among, carried⟩ := (exists_of_forall₂ elements).2 _ member
  obtain ⟨type, listed, slotOf⟩ := List.mem_flatMap.mp among
  cases slot with
  | code code => exact nonnegative_of_code carried
  | encoding encoding => exact carried.elim
  | boolean => exact carried.elim
  | signed bits =>
      refine absurd ?_ (unsigned type listed)
      cases type with
      | plain type => cases type <;> first | decide | simp [TypeSymbol.slots, formatCode] at slotOf
      | _ => simp [TypeSymbol.slots] at slotOf

end ItemFormat

/-! ## A value of every type -/

/-- Elements of a type: a negative integer if there is one, and no empty string. -/
def TypeSymbol.samples : TypeSymbol → List Scalar
  | plain type =>
      if (plain type).Signed then [.plain (.integer (-1))]
      else
        match (formatCode type).1 with
        | .directive (.A _) => [.plain (.string [0x61])]
        | .directive _ => [.plain (.integer 0)]
        | .encoding _ => [.plain (.string [0x61])]
  | uint8Four => List.replicate 4 (.plain (.integer 0))
  | double => [.float (FloatDatum.ofParts false 0 0)]
  | float => [.float (FloatDatum.ofParts false 0 0)]
  | floatFour => List.replicate 4 (.float (FloatDatum.ofParts false 0 0))
  | bool => [.boolean true]
  | bits type => [.plain (.string (List.replicate type.count 0x30))]

theorem TypeSymbol.samples_fit (type : TypeSymbol) :
    List.Forall₂ Slot.Fits type.slots type.samples := by
  have zero : (Slot.code .g).Fits (.float (FloatDatum.ofParts false 0 0)) := by
    refine ⟨FloatDatum.ofParts false 0 0, ?_, ?_⟩
    · exact fun signalling => absurd signalling.2.1 (by decide)
    · decide
  have small : (Slot.code (.plain .C)).Fits (.plain (.integer 0)) := ⟨by decide, by decide⟩
  cases type with
  | plain type =>
      cases type <;> refine .cons ?_ .nil <;>
        simp [Slot.Fits, Code.Fits, Directive.Fits, Encoding.Fits]
  | uint8Four => exact .cons small (.cons small (.cons small (.cons small .nil)))
  | double => exact .cons trivial .nil
  | float => exact .cons zero .nil
  | floatFour => exact .cons zero (.cons zero (.cons zero (.cons zero .nil)))
  | bool => exact .cons trivial .nil
  | bits type =>
      refine .cons ⟨List.length_replicate, ?_⟩ .nil
      exact fun character member => .inl (List.eq_of_mem_replicate member)

theorem TypeSymbol.samples_nonempty {type : TypeSymbol} {scalar : Scalar}
    (member : scalar ∈ type.samples) : scalar ≠ .plain (.string []) := by
  rintro rfl
  cases type with
  | plain type => cases type <;> cases List.mem_singleton.mp member
  | bits type => cases type <;> cases List.mem_singleton.mp member
  | _ => simp [samples] at member

namespace ItemFormat

def sampleValue : ItemFormat → MemberValue
  | symbol type =>
      if type.Four then .array type.samples else .scalar (type.samples.headD (.plain .nil))
  | array types => .array (types.flatMap TypeSymbol.samples)

theorem flatten_sampleValue (format : ItemFormat) :
    format.sampleValue.flatten = format.symbols.flatMap TypeSymbol.samples := by
  cases format with
  | array types => rfl
  | symbol type =>
      rw [symbols, List.flatMap_singleton]
      cases type with
      | plain type => cases type <;> rfl
      | _ => rfl

theorem sampleValue_fits (format : ItemFormat) : format.Fits format.sampleValue := by
  cases format with
  | symbol type =>
      have fits := type.samples_fit
      have one := flatten_sampleValue (symbol type)
      rw [symbols, List.flatMap_singleton, sampleValue] at one
      rw [sampleValue]
      split
      · next four => exact ⟨four, fits⟩
      · next single =>
          rw [if_neg single] at one
          exact ⟨single, one ▸ fits⟩
  | array types =>
      change List.Forall₂ Slot.Fits (types.flatMap TypeSymbol.slots)
        (types.flatMap TypeSymbol.samples)
      induction types with
      | nil => exact .nil
      | cons type rest ih => exact List.rel_append type.samples_fit ih

/-- The value of a signed type is negative. -/
theorem not_signed_of_nonnegative {format : ItemFormat}
    (nonnegative : format.sampleValue.Nonnegative) :
    ∀ type ∈ format.symbols, ¬ type.Signed := by
  intro type listed signed
  have member : Scalar.plain (.integer (-1)) ∈ format.sampleValue.flatten := by
    rw [flatten_sampleValue]
    refine List.mem_flatMap.mpr ⟨type, listed, ?_⟩
    simp only [TypeSymbol.Signed, List.mem_cons, List.not_mem_nil, or_false] at signed
    rcases signed with rfl | rfl | rfl | rfl <;> exact List.mem_singleton.mpr rfl
  exact absurd (nonnegative (-1) member) (by decide)

theorem sampleValue_last (format : ItemFormat) :
    format.sampleValue.flatten.getLast? ≠ some (.plain (.string [])) := by
  intro last
  have member := List.mem_of_getLast? last
  rw [flatten_sampleValue] at member
  obtain ⟨type, -, among⟩ := List.mem_flatMap.mp member
  exact TypeSymbol.samples_nonempty among rfl

end ItemFormat

end Nise.RubyModels
