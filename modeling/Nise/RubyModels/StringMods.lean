import Nise.Lib.Numeral
import Mathlib.Data.List.DropRight

/-!
# Ruby strings

`Array#pack` and `String#unpack` for the directives that the messages use, and the string
encodings of `string_mods.rb`.  A string has single-byte characters, and a method that raises
has no result.
-/

namespace Nise.RubyModels

open Nise.Lib

inductive Value where
  | nil
  | integer (number : Int)
  | string (text : List UInt8)
  deriving DecidableEq, Repr

/-- `text[start, count]`: nil behind the end, and shorter at the end. -/
def slice {α : Type} (text : List α) (start count : Nat) : Option (List α) :=
  if start ≤ text.length then some ((text.drop start).take count) else none

theorem slice_append {α : Type} (before middle after : List α) :
    slice (before ++ (middle ++ after)) before.length middle.length = some middle := by
  unfold slice
  rw [if_pos (by simp), List.drop_left, List.take_left]

/-- `instance_variable_set`, on the variables of an object. -/
def instanceVariableSet {Name Variable : Type} [DecidableEq Name] (members : Name → Variable)
    (name : Name) (value : Variable) : Name → Variable :=
  fun other => if other = name then value else members other

/-- Setting the first and then the other names of a list sets all of them. -/
theorem instanceVariableSet_cons {Name Variable : Type} [DecidableEq Name]
    (members values : Name → Variable) (first : Name) (names : List Name) (name : Name) :
    (if name ∈ names then values name
      else instanceVariableSet members first (values first) name) =
      if name ∈ first :: names then values name else members name := by
  unfold instanceVariableSet
  by_cases later : name ∈ names
  · rw [if_pos later, if_pos (List.mem_cons_of_mem _ later)]
  · rw [if_neg later]
    by_cases here : name = first
    · rw [if_pos here, here, if_pos (List.mem_cons_self ..)]
    · rw [if_neg here, if_neg fun either => (List.mem_cons.mp either).elim here later]

/-! ## Pack and unpack -/

inductive Directive where
  | C
  | n
  | v
  | N
  | A (width : Nat)
  deriving DecidableEq, Repr

namespace Directive

/-- An integer in some bytes, in network order; what does not fit is cut off. -/
def network (count : Nat) (number : Int) : List UInt8 :=
  byteNumeral.write count (number % 256 ^ count).toNat

/-- `[value].pack` of one directive. -/
def pack : Directive → Value → Option (List UInt8)
  | C, .integer number => some (network 1 number)
  | n, .integer number => some (network 2 number)
  | v, .integer number => some (network 2 number).reverse
  | N, .integer number => some (network 4 number)
  | A width, .string text => some (text.take width ++ List.replicate (width - text.length) 0x20)
  | A width, .nil => some (List.replicate width 0x20)
  | _, _ => none

def unpackInteger (count : Nat) (bytes : List UInt8) : Value :=
  if bytes.length < count then .nil else .integer (byteNumeral.read (bytes.take count))

/-- The first result of `text.unpack`. -/
def unpack : Directive → List UInt8 → Value
  | C, text => unpackInteger 1 text
  | n, text => unpackInteger 2 text
  | v, text => unpackInteger 2 (text.take 2).reverse
  | N, text => unpackInteger 4 text
  | A width, text =>
      .string ((text.take width).rdropWhile fun byte => byte == 0x20 || byte == 0)

/-- The bytes that a directive takes. -/
def width : Directive → Nat
  | C => 1
  | n => 2
  | v => 2
  | N => 4
  | A width => width

/-- The values that a directive keeps: integers in range, and strings that fit and do not end
in the padding. -/
def Fits : Directive → Value → Prop
  | C, .integer number => 0 ≤ number ∧ number < 2 ^ 8
  | n, .integer number => 0 ≤ number ∧ number < 2 ^ 16
  | v, .integer number => 0 ≤ number ∧ number < 2 ^ 16
  | N, .integer number => 0 ≤ number ∧ number < 2 ^ 32
  | A width, .string text =>
      text.length ≤ width ∧ ∀ last ∈ text.getLast?, last ≠ 0x20 ∧ last ≠ 0
  | _, _ => False

@[simp] theorem length_network (count : Nat) (number : Int) :
    (network count number).length = count := byteNumeral.length_write _ _

theorem unpackInteger_network {count : Nat} {number : Int} (nonnegative : 0 ≤ number)
    (fits : number < 256 ^ count) (after : List UInt8) :
    unpackInteger count (network count number ++ after) = .integer number := by
  have cut : (network count number ++ after).take count = network count number :=
    List.take_left' (length_network count number)
  have enough : ¬ (network count number ++ after).length < count := by
    rw [List.length_append, length_network]
    omega
  have natural : number.toNat < byteNumeral.base ^ count := by
    change number.toNat < 256 ^ count
    have power : ((256 ^ count : Nat) : Int) = 256 ^ count := by norm_cast
    omega
  unfold unpackInteger
  rw [if_neg enough, cut, network, Int.emod_eq_of_lt nonnegative fits,
    byteNumeral.read_write natural, Int.toNat_of_nonneg nonnegative]

theorem rdropWhile_replicate (text : List UInt8) (count : Nat)
    (ends : ∀ last ∈ text.getLast?, last ≠ 0x20 ∧ last ≠ 0) :
    (text ++ List.replicate count 0x20).rdropWhile (fun byte => byte == 0x20 || byte == 0) =
      text := by
  induction count with
  | zero =>
      rw [List.replicate_zero, List.append_nil, List.rdropWhile_eq_self_iff]
      intro nonempty
      have last := ends (text.getLast nonempty) (List.getLast?_eq_some_getLast nonempty)
      simp [last.1, last.2]
  | succ count ih =>
      rw [List.replicate_succ', ← List.append_assoc, List.rdropWhile_concat_pos _ _ _ (by decide)]
      exact ih

/-- What a directive keeps is unpacked again, from exactly the bytes it takes. -/
theorem Fits.round_trip {directive : Directive} {value : Value} (fits : directive.Fits value) :
    ∃ bytes, directive.pack value = some bytes ∧ bytes.length = directive.width ∧
      ∀ after, directive.unpack (bytes ++ after) = value := by
  cases directive <;> cases value <;> first | exact fits.elim | skip
  case C.integer number =>
    exact ⟨_, rfl, length_network 1 number, unpackInteger_network fits.1 fits.2⟩
  case n.integer number =>
    exact ⟨_, rfl, length_network 2 number, unpackInteger_network fits.1 fits.2⟩
  case v.integer number =>
    refine ⟨_, rfl, by rw [List.length_reverse, length_network]; rfl, fun after => ?_⟩
    have cut : ((network 2 number).reverse ++ after).take 2 = (network 2 number).reverse :=
      List.take_left' (by rw [List.length_reverse, length_network])
    have whole : unpackInteger 2 (network 2 number ++ []) = .integer number :=
      unpackInteger_network fits.1 fits.2 []
    rw [List.append_nil] at whole
    rw [unpack, cut, List.reverse_reverse, whole]
  case N.integer number =>
    exact ⟨_, rfl, length_network 4 number, unpackInteger_network fits.1 fits.2⟩
  case A.string width text =>
    have length : (text.take width ++ List.replicate (width - text.length) 0x20).length =
        width := by
      have := fits.1
      simp only [List.length_append, List.length_take, List.length_replicate]
      omega
    refine ⟨_, rfl, length, fun after => ?_⟩
    rw [unpack, List.take_left' length, List.take_of_length_le fits.1,
      rdropWhile_replicate text _ fits.2]

end Directive

/-! ## String encodings -/

def toCstring (text : List UInt8) : List UInt8 := text ++ [0]

def fromCstring (text : List UInt8) : Option (List UInt8) :=
  (text.findIdx? (· == 0)).bind fun x => if 0 < x then slice text 0 x else some []

/-- A string behind its length; longer ones raise `StringTooLong`. -/
def toPrefixed (directive : Directive) (longest : Nat) (text : List UInt8) :
    Option (List UInt8) :=
  if longest < text.length then none
  else (directive.pack (.integer text.length)).map (· ++ text)

def fromPrefixed (directive : Directive) (start : Nat) (text : List UInt8) :
    Option (List UInt8) :=
  match directive.unpack text with
  | .integer x => slice text start x.toNat
  | _ => none

def toPstring : List UInt8 → Option (List UInt8) := toPrefixed .C 255

def fromPstring : List UInt8 → Option (List UInt8) := fromPrefixed .C 1

def toP2string : List UInt8 → Option (List UInt8) := toPrefixed .n 65535

def fromP2string : List UInt8 → Option (List UInt8) := fromPrefixed .n 2

def toP4string : List UInt8 → Option (List UInt8) := toPrefixed .N 4294967295

def fromP4string : List UInt8 → Option (List UInt8) := fromPrefixed .N 4

theorem fromCstring_toCstring {text : List UInt8} (noNul : 0 ∉ text) (after : List UInt8) :
    fromCstring (toCstring text ++ after) = some text := by
  have index : (toCstring text ++ after).findIdx? (· == 0) = some text.length := by
    unfold toCstring
    rw [List.append_assoc, List.findIdx?_append, List.findIdx?_eq_none_iff.mpr]
    · simp [List.findIdx?_cons]
    · intro byte member
      simp only [beq_eq_false_iff_ne]
      rintro rfl
      exact noNul member
  have cut := slice_append [] text ([0] ++ after)
  rw [List.nil_append, ← List.append_assoc] at cut
  unfold fromCstring
  rw [index]
  simp only [Option.bind_some]
  split
  · exact cut
  · next empty =>
      rw [List.eq_nil_of_length_eq_zero (by omega : text.length = 0)]

theorem fromPrefixed_toPrefixed {directive : Directive} {longest : Nat} {text : List UInt8}
    (short : text.length ≤ longest) (fits : directive.Fits (.integer text.length)) :
    ∃ bytes, toPrefixed directive longest text = some bytes ∧
      bytes.length = directive.width + text.length ∧
      ∀ after, fromPrefixed directive directive.width (bytes ++ after) = some text := by
  obtain ⟨count, packed, width, unpacked⟩ := fits.round_trip
  refine ⟨count ++ text, ?_, ?_, fun after => ?_⟩
  · unfold toPrefixed
    rw [if_neg (Nat.not_lt.mpr short), packed]
    rfl
  · rw [List.length_append, width]
  · unfold fromPrefixed
    rw [List.append_assoc, unpacked]
    simp only [Int.toNat_natCast]
    rw [← width]
    exact slice_append count text after

/-! ## Bits and byte order -/

/-- The bits of a byte, the most significant first. -/
def byteBits (byte : UInt8) : List Bool := bitNumeral.write 8 byte.toNat

/-- `to_binary`, without a marker: the directive `B4096` takes at most so many bits. -/
def toBinary (text : List UInt8) : List Bool := (text.flatMap byteBits).take 4096

/-- Exchange the two bytes of every word; the byte that an odd string lacks raises. -/
def swapBytes : List UInt8 → Option (List UInt8)
  | [] => some []
  | [_] => none
  | first :: second :: rest => (swapBytes rest).map ([second, first] ++ ·)

/-- `reverse (2)`: the words in the opposite order. -/
def reverse2 : List UInt8 → List UInt8
  | [] => []
  | [last] => [last]
  | first :: second :: rest => reverse2 rest ++ [first, second]

theorem length_reverse2 (text : List UInt8) : (reverse2 text).length = text.length := by
  induction text using reverse2.induct with
  | case1 => rfl
  | case2 last => rfl
  | case3 first second rest ih =>
      rw [reverse2, List.length_append, ih]
      rfl

theorem swapBytes_append_pair {text : List UInt8} (even : text.length % 2 = 0)
    (first second : UInt8) :
    swapBytes (text ++ [first, second]) = (swapBytes text).map (· ++ [second, first]) := by
  induction text using reverse2.induct with
  | case1 => rfl
  | case2 last => cases even
  | case3 one two rest ih =>
      have shorter : rest.length % 2 = 0 := by
        simp only [List.length_cons] at even
        omega
      change (swapBytes (rest ++ [first, second])).map ([two, one] ++ ·) =
        ((swapBytes rest).map ([two, one] ++ ·)).map (· ++ [second, first])
      rw [ih shorter, Option.map_map, Option.map_map]
      rfl

/-- Reversed words with their bytes exchanged are the reversed bytes. -/
theorem swapBytes_reverse2 {text : List UInt8} (even : text.length % 2 = 0) :
    swapBytes (reverse2 text) = some text.reverse := by
  induction text using reverse2.induct with
  | case1 => rfl
  | case2 last => cases even
  | case3 first second rest ih =>
      have shorter : rest.length % 2 = 0 := by
        simp only [List.length_cons] at even
        omega
      rw [reverse2, swapBytes_append_pair (by rw [length_reverse2]; exact shorter), ih shorter]
      simp

theorem length_flatMap_byteBits (text : List UInt8) :
    (text.flatMap byteBits).length = 8 * text.length := by
  induction text with
  | nil => rfl
  | cons byte rest ih =>
      rw [List.flatMap_cons, List.length_append, ih, byteBits, bitNumeral.length_write,
        List.length_cons]
      omega

theorem toBinary_of_short {text : List UInt8} (short : 8 * text.length ≤ 4096) :
    toBinary text = text.flatMap byteBits := by
  unfold toBinary
  exact List.take_of_length_le (by rw [length_flatMap_byteBits]; exact short)

end Nise.RubyModels
