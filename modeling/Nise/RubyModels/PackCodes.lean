import Nise.Lib.FloatFormat
import Nise.RubyModels.Link16Message

/-!
# Format strings of several directives

A format string holds several directives, among them those of floating point numbers and of
bit strings.  `Array#pack` takes one element of the array for each directive and
`String#unpack` returns an array with one element for each, nil where the string is too short.
-/

namespace Nise.RubyModels

open Nise.Lib

def doubleFormat : FloatFormat := ⟨11, 52⟩

def singleFormat : FloatFormat := ⟨8, 23⟩

theorem single_extends_double : FloatFormat.Extends singleFormat doubleFormat := by
  constructor <;> decide

/-- A value that is no array; a `Float` has double precision. -/
inductive Scalar where
  | plain (value : Value)
  | float (number : FloatDatum doubleFormat)
  | boolean (truth : Bool)
  deriving DecidableEq, Repr

inductive Code where
  | plain (directive : Directive)
  | G
  | g
  | B (count : Nat)
  deriving DecidableEq, Repr

/-- The bits of a bit string, of which `B` looks at the last bit of each character. -/
def stringBits (text : List UInt8) : List Bool := text.map fun character => character.toNat % 2 == 1

def bitString (bits : List Bool) : List UInt8 := bits.map fun bit => if bit then 0x31 else 0x30

/-- `[text].pack` of `B`: the last byte is filled up, and for a string that is too short there
are further bytes, one for every two bits that it lacks. -/
def packBits (count : Nat) (text : List UInt8) : List UInt8 :=
  let bits := stringBits (text.take count)
  Link16Message.scanBytes (bits ++ List.replicate ((8 - bits.length % 8) % 8) false) ++
    List.replicate ((count - text.length + 1) / 2) 0

namespace Code

/-- `[scalar].pack` of one directive.  An integer for a floating point directive becomes a
number, and a number for an integer directive loses its fraction. -/
def pack : Code → Scalar → Option (List UInt8)
  | plain directive, .plain value => directive.pack value
  | plain directive, .float number =>
      number.truncate.bind fun integer => directive.pack (.integer integer)
  | G, .float number => some (byteNumeral.write 8 number.bits)
  | G, .plain (.integer integer) =>
      some (byteNumeral.write 8 (FloatDatum.ofInteger integer : FloatDatum doubleFormat).bits)
  | g, .float number =>
      some (byteNumeral.write 4 (number.narrowed : FloatDatum singleFormat).bits)
  | g, .plain (.integer integer) =>
      let number : FloatDatum doubleFormat := FloatDatum.ofInteger integer
      some (byteNumeral.write 4 (number.narrowed : FloatDatum singleFormat).bits)
  | B count, .plain (.string text) => some (packBits count text)
  | B count, .plain .nil => some (packBits count [])
  | _, _ => none

/-- The bytes that a directive takes. -/
def width : Code → Nat
  | plain directive => directive.width
  | G => 8
  | g => 4
  | B count => (count + 7) / 8

/-- The result of a floating point directive and what it leaves. -/
def unpackWhole (width : Nat) (text : List UInt8) (read : List UInt8 → Scalar) :
    Scalar × List UInt8 :=
  if text.length < width then (.plain .nil, text) else (read (text.take width), text.drop width)

/-- What an integer or string directive leaves: an integer that lacks a byte takes nothing. -/
def unpackRest : Directive → List UInt8 → List UInt8
  | .A width, text => text.drop width
  | directive, text => if text.length < directive.width then text else text.drop directive.width

def unpack : Code → List UInt8 → Scalar × List UInt8
  | plain directive, text => (.plain (directive.unpack text), unpackRest directive text)
  | G, text => unpackWhole 8 text fun bytes => .float (FloatDatum.ofBits (byteNumeral.read bytes))
  | g, text => unpackWhole 4 text fun bytes =>
      .float (FloatDatum.ofBits (byteNumeral.read bytes) : FloatDatum singleFormat).widen
  | B count, text =>
      (.plain (.string (bitString ((text.flatMap byteBits).take count))),
        text.drop ((count + 7) / 8))

/-- The values that a directive keeps: a number for `g` has single precision. -/
def Fits : Code → Scalar → Prop
  | plain directive, .plain value => directive.Fits value
  | G, .float _ => True
  | g, .float number =>
      ∃ single : FloatDatum singleFormat, ¬ single.Signalling ∧ single.widen = number
  | B count, .plain (.string text) =>
      text.length = count ∧ ∀ character ∈ text, character = 0x30 ∨ character = 0x31
  | _, _ => False

end Code

/-! ## Bit strings -/

theorem bitString_stringBits {text : List UInt8}
    (digits : ∀ character ∈ text, character = 0x30 ∨ character = 0x31) :
    bitString (stringBits text) = text := by
  induction text with
  | nil => rfl
  | cons character rest ih =>
      have first : bitString (stringBits [character]) = [character] := by
        rcases digits character (List.mem_cons_self ..) with rfl | rfl <;> rfl
      have later := ih fun other member => digits other (List.mem_cons_of_mem _ member)
      exact congrArg₂ (· ++ ·) first later

theorem length_packBits {count : Nat} {text : List UInt8} (length : text.length = count) :
    (packBits count text).length = (count + 7) / 8 ∧
      ((packBits count text).flatMap byteBits).take count = stringBits text := by
  have bits : (stringBits text).length = count := by
    rw [stringBits, List.length_map, length]
  have whole : (stringBits text ++ List.replicate ((8 - count % 8) % 8) false).length % 8 = 0 := by
    rw [List.length_append, List.length_replicate, bits]
    omega
  have packed : packBits count text =
      Link16Message.scanBytes
        (stringBits text ++ List.replicate ((8 - count % 8) % 8) false) := by
    have none : (count - text.length + 1) / 2 = 0 := by omega
    unfold packBits
    dsimp only
    rw [List.take_of_length_le length.le, bits, none, List.replicate_zero, List.append_nil]
  have bytes := Link16Message.length_scanBytes whole
  rw [List.length_append, List.length_replicate, bits] at bytes
  rw [packed, Link16Message.flatMap_scanBytes _ whole, ← bits, List.take_left, bits]
  exact ⟨by omega, rfl⟩

/-! ## One directive -/

namespace Code

theorem unpackWhole_append {width : Nat} {bytes : List UInt8} (length : bytes.length = width)
    (after : List UInt8) (read : List UInt8 → Scalar) :
    unpackWhole width (bytes ++ after) read = (read bytes, after) := by
  unfold unpackWhole
  rw [if_neg (by rw [List.length_append]; omega), List.take_left' length, List.drop_left' length]

theorem unpackRest_append {directive : Directive} {bytes : List UInt8}
    (length : bytes.length = directive.width) (after : List UInt8) :
    unpackRest directive (bytes ++ after) = after := by
  have enough : ¬ (bytes ++ after).length < directive.width := by
    rw [List.length_append]
    omega
  have left : (bytes ++ after).drop directive.width = after := List.drop_left' length
  cases directive with
  | A width => exact left
  | _ => exact (if_neg enough).trans left

theorem Fits.exists_value {directive : Directive} {scalar : Scalar}
    (fits : (plain directive).Fits scalar) :
    ∃ value, scalar = .plain value ∧ directive.Fits value := by
  cases scalar with
  | plain value => exact ⟨value, rfl, fits⟩
  | float number => exact fits.elim
  | boolean truth => exact fits.elim

theorem Fits.exists_double {scalar : Scalar} (fits : G.Fits scalar) :
    ∃ number, scalar = .float number := by
  cases scalar with
  | plain value => exact fits.elim
  | float number => exact ⟨number, rfl⟩
  | boolean truth => exact fits.elim

theorem Fits.exists_single {scalar : Scalar} (fits : g.Fits scalar) :
    ∃ single : FloatDatum singleFormat, ¬ single.Signalling ∧ scalar = .float single.widen := by
  cases scalar with
  | plain value => exact fits.elim
  | float number =>
      obtain ⟨single, quiet, rfl⟩ := fits
      exact ⟨single, quiet, rfl⟩
  | boolean truth => exact fits.elim

theorem Fits.exists_digits {count : Nat} {scalar : Scalar} (fits : (B count).Fits scalar) :
    ∃ text, scalar = .plain (.string text) ∧ text.length = count ∧
      ∀ character ∈ text, character = 0x30 ∨ character = 0x31 := by
  cases scalar with
  | plain value =>
      cases value with
      | nil => exact fits.elim
      | integer number => exact fits.elim
      | string text => exact ⟨text, rfl, fits⟩
  | float number => exact fits.elim
  | boolean truth => exact fits.elim

/-- What a directive keeps is unpacked again, and nothing else is taken. -/
theorem Fits.round_trip {code : Code} {scalar : Scalar} (fits : code.Fits scalar) :
    ∃ bytes, code.pack scalar = some bytes ∧ bytes.length = code.width ∧
      ∀ after, code.unpack (bytes ++ after) = (scalar, after) := by
  cases code with
  | plain directive =>
      obtain ⟨value, rfl, keeps⟩ := fits.exists_value
      obtain ⟨bytes, packed, length, unpacked⟩ := keeps.round_trip
      refine ⟨bytes, packed, length, fun after => ?_⟩
      rw [unpack, unpacked, unpackRest_append length]
  | G =>
      obtain ⟨number, rfl⟩ := fits.exists_double
      have small : number.bits < byteNumeral.base ^ 8 := number.bits_lt
      refine ⟨_, rfl, byteNumeral.length_write 8 _, fun after => ?_⟩
      rw [unpack, unpackWhole_append (byteNumeral.length_write 8 _),
        byteNumeral.read_write small, FloatDatum.ofBits_bits]
  | g =>
      obtain ⟨single, quiet, rfl⟩ := fits.exists_single
      have narrowed : ((single.widen : FloatDatum doubleFormat).narrowed :
          FloatDatum singleFormat) = single :=
        FloatDatum.narrowed_widen single_extends_double quiet
      have small : single.bits < byteNumeral.base ^ 4 := single.bits_lt
      refine ⟨_, rfl, byteNumeral.length_write 4 _, fun after => ?_⟩
      rw [unpack, unpackWhole_append (byteNumeral.length_write 4 _), narrowed,
        byteNumeral.read_write small, FloatDatum.ofBits_bits]
  | B count =>
      obtain ⟨text, rfl, digits, characters⟩ := fits.exists_digits
      obtain ⟨length, bits⟩ := length_packBits digits
      refine ⟨_, rfl, length, fun after => ?_⟩
      have enough : count ≤ ((packBits count text).flatMap byteBits).length := by
        rw [length_flatMap_byteBits, length]
        omega
      rw [unpack, List.flatMap_append, List.take_append_of_le_length enough, bits,
        bitString_stringBits characters, List.drop_left' length]

theorem unpackInteger_short {count : Nat} {bytes : List UInt8} (short : bytes.length < count) :
    Directive.unpackInteger count bytes = .nil := if_pos short

/-- An integer directive that lacks a byte has no result. -/
theorem unpack_short {directive : Directive} {text : List UInt8}
    (short : text.length < directive.width) (integer : ∀ width, directive ≠ .A width) :
    directive.unpack text = .nil := by
  cases directive with
  | C => exact unpackInteger_short short
  | n => exact unpackInteger_short short
  | v =>
      apply unpackInteger_short
      rw [List.length_reverse, List.length_take]
      exact (Nat.min_le_right ..).trans_lt short
  | N => exact unpackInteger_short short
  | A width => exact absurd rfl (integer width)

theorem not_fits_nil (code : Code) : ¬ code.Fits (.plain .nil) := by
  cases code with
  | plain directive => cases directive <;> exact id
  | _ => exact id

/-- A directive with a result that it keeps has taken all of its bytes. -/
theorem unpack_rest {code : Code} {text : List UInt8} (fits : code.Fits (code.unpack text).1) :
    (code.unpack text).2 = text.drop code.width := by
  have whole : ∀ (width : Nat) (read : List UInt8 → Scalar),
      code.Fits (unpackWhole width text read).1 →
      (unpackWhole width text read).2 = text.drop width := by
    intro width read kept
    unfold unpackWhole at kept ⊢
    split at kept
    · exact absurd kept code.not_fits_nil
    · next enough => rw [if_neg enough]
  cases code with
  | plain directive =>
      by_cases short : text.length < directive.width
      · by_cases integer : ∀ width, directive ≠ .A width
        · change (plain directive).Fits (.plain (directive.unpack text)) at fits
          rw [unpack_short short integer] at fits
          exact absurd fits (not_fits_nil _)
        · push Not at integer
          obtain ⟨width, rfl⟩ := integer
          rfl
      · cases directive with
        | A width => rfl
        | _ => exact if_neg short
  | G => exact whole _ _ fits
  | g => exact whole _ _ fits
  | B count => rfl

/-- A padded text without its first characters is a shorter text. -/
theorem empty_of_rdropWhile_drop {text : List UInt8} {count skipped : Nat}
    (ends : ∀ last ∈ text.getLast?, last ≠ 0x20 ∧ last ≠ 0) (late : 0 < skipped)
    (kept : ((text ++ List.replicate count 0x20).drop skipped).rdropWhile
      (fun byte => byte == 0x20 || byte == 0) = text) : text = [] := by
  have stillEnds : ∀ last ∈ (text.drop skipped).getLast?, last ≠ 0x20 ∧ last ≠ 0 := by
    intro last member
    rw [List.getLast?_drop] at member
    split at member
    · cases member
    · exact ends last member
  rw [List.drop_append, List.drop_replicate, Directive.rdropWhile_replicate _ _ stillEnds] at kept
  have lengths := congrArg List.length kept
  rw [List.length_drop] at lengths
  exact List.eq_nil_of_length_eq_zero (by omega)

/-- A string that begins too late in its own bytes. -/
theorem empty_of_padded_drop {width skipped : Nat} {value : Value} {bytes : List UInt8}
    (fits : (Directive.A width).Fits value)
    (packed : (Directive.A width).pack value = some bytes) (late : 0 < skipped)
    (length : bytes.length = width)
    (kept : (Directive.A width).unpack (bytes.drop skipped) = value) : value = .string [] := by
  cases value with
  | nil => exact fits.elim
  | integer number => exact fits.elim
  | string text =>
      obtain ⟨short, ends⟩ := fits
      have padded : text ++ List.replicate (width - text.length) 0x20 = bytes := by
        rw [← Option.some.inj packed, List.take_of_length_le short]
      have taken : (bytes.drop skipped).take width = bytes.drop skipped := by
        apply List.take_of_length_le
        rw [List.length_drop, length]
        exact Nat.sub_le ..
      have texts := Value.string.inj kept
      rw [taken, ← padded] at texts
      rw [empty_of_rdropWhile_drop ends late texts]

/-- A directive that begins too late in its own bytes keeps the empty string at most. -/
theorem empty_of_unpack_drop {code : Code} {scalar : Scalar} {bytes : List UInt8} {skipped : Nat}
    (fits : code.Fits scalar) (packed : code.pack scalar = some bytes) (late : 0 < skipped)
    (kept : (code.unpack (bytes.drop skipped)).1 = scalar) :
    scalar = .plain (.string []) := by
  obtain ⟨same, samePacked, length, -⟩ := fits.round_trip
  cases Option.some.inj (packed.symm.trans samePacked)
  have rest : (bytes.drop skipped).length = code.width - skipped := by
    rw [List.length_drop, length]
  have whole : ∀ (width : Nat) (read : List UInt8 → Scalar), code.width = width → 0 < width →
      (unpackWhole width (bytes.drop skipped) read).1 ≠ scalar := by
    intro width read same positive result
    unfold unpackWhole at result
    rw [if_pos (by omega)] at result
    rw [← result] at fits
    exact code.not_fits_nil fits
  cases code with
  | plain directive =>
      obtain ⟨value, rfl, keeps⟩ := fits.exists_value
      have result : directive.unpack (bytes.drop skipped) = value := Scalar.plain.inj kept
      have integer : (∀ width, directive ≠ .A width) → ¬ 0 < directive.width := by
        intro integral positive
        have short : (bytes.drop skipped).length < directive.width := by
          rw [rest]
          exact Nat.sub_lt positive late
        rw [unpack_short short integral] at result
        rw [← result] at fits
        exact not_fits_nil _ fits
      cases directive with
      | A width => rw [empty_of_padded_drop keeps packed late length result]
      | C => exact absurd Nat.one_pos (integer nofun)
      | n => exact absurd Nat.two_pos (integer nofun)
      | v => exact absurd Nat.two_pos (integer nofun)
      | N => exact absurd (by decide) (integer nofun)
  | G => exact absurd kept (whole 8 _ rfl (by decide))
  | g => exact absurd kept (whole 4 _ rfl (by decide))
  | B count =>
      obtain ⟨text, rfl, digits, -⟩ := fits.exists_digits
      have lengths : (bitString (((bytes.drop skipped).flatMap byteBits).take count)).length =
          text.length := congrArg List.length (Value.string.inj (Scalar.plain.inj kept))
      rw [bitString, List.length_map, List.length_take, length_flatMap_byteBits, rest,
        digits] at lengths
      have bytesOf : (B count).width = (count + 7) / 8 := rfl
      have none : text.length = 0 := by omega
      rw [List.eq_nil_of_length_eq_zero none]

end Code

/-! ## Several directives -/

/-- `array.pack`: too few elements raise, and further elements are left. -/
def packAll : List Code → List Scalar → Option (List UInt8)
  | [], _ => some []
  | _ :: _, [] => none
  | code :: codes, scalar :: scalars => do
      let first ← code.pack scalar
      let rest ← packAll codes scalars
      return first ++ rest

/-- `text.unpack`. -/
def unpackAll : List Code → List UInt8 → List Scalar
  | [], _ => []
  | code :: codes, text => (code.unpack text).1 :: unpackAll codes (code.unpack text).2

def totalWidth (codes : List Code) : Nat := (codes.map Code.width).sum

theorem length_unpackAll (codes : List Code) (text : List UInt8) :
    (unpackAll codes text).length = codes.length := by
  induction codes generalizing text with
  | nil => rfl
  | cons code rest ih => exact congrArg (· + 1) (ih (code.unpack text).2)

/-- Every directive has an element that it keeps. -/
abbrev FitAll : List Code → List Scalar → Prop := List.Forall₂ Code.Fits

theorem FitAll.round_trip {codes : List Code} {scalars : List Scalar}
    (fits : FitAll codes scalars) :
    ∃ bytes, packAll codes scalars = some bytes ∧ bytes.length = totalWidth codes ∧
      ∀ after, unpackAll codes (bytes ++ after) = scalars := by
  induction fits with
  | nil => exact ⟨[], rfl, rfl, fun _ => rfl⟩
  | @cons code scalar codes scalars first later ih =>
      obtain ⟨head, packed, length, unpacked⟩ := first.round_trip
      obtain ⟨tail, packedTail, lengthTail, unpackedTail⟩ := ih
      refine ⟨head ++ tail, ?_, ?_, fun after => ?_⟩
      · rw [packAll, packed, packedTail]
        rfl
      · rw [List.length_append, length, lengthTail]
        exact (List.sum_cons).symm
      · rw [unpackAll, List.append_assoc, unpacked, unpackedTail]

/-- Unpacking that begins too late in the bytes of some elements does not give them back, unless
the last of them is the empty string. -/
theorem FitAll.empty_of_unpackAll_drop {codes : List Code} {scalars : List Scalar}
    {bytes : List UInt8} {skipped : Nat} (fits : FitAll codes scalars)
    (packed : packAll codes scalars = some bytes) (late : 0 < skipped) (some : codes ≠ [])
    (kept : unpackAll codes (bytes.drop skipped) = scalars) :
    scalars.getLast? = Option.some (.plain (.string [])) := by
  induction fits generalizing bytes with
  | nil => exact absurd rfl some
  | @cons code scalar codes scalars first later ih =>
      obtain ⟨head, packedHead, length, -⟩ := first.round_trip
      obtain ⟨tail, packedTail, lengthTail, -⟩ := FitAll.round_trip later
      have both : head ++ tail = bytes := by
        rw [packAll, packedHead, packedTail] at packed
        exact Option.some.inj packed
      obtain ⟨keptHead, keptTail⟩ := List.cons.inj kept
      cases later with
      | nil =>
          cases packedTail
          rw [List.append_nil] at both
          rw [← both] at keptHead
          rw [Code.empty_of_unpack_drop first packedHead late keptHead]
          rfl
      | cons second others =>
          -- What the first directive leaves begins as late in the bytes of the others.
          have rest : (code.unpack (bytes.drop skipped)).2 = tail.drop skipped := by
            rw [← keptHead] at first
            rw [Code.unpack_rest first, List.drop_drop, ← both, Nat.add_comm, ← List.drop_drop,
              List.drop_left' length]
          rw [rest] at keptTail
          rw [List.getLast?_cons_cons]
          exact ih packedTail (List.cons_ne_nil _ _) keptTail

end Nise.RubyModels
