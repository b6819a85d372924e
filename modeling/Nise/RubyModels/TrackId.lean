import Nise.RubyModels.Link16Message

/-!
# Track identifiers

The identifier of an air or space track is put into a number, with three bits for a digit and five
for a letter.  The decoder takes the number as two letters and three digits.
-/

namespace Nise.RubyModels

open Nise.Lib

/-- The digits of a binary text. -/
def bitText (text : String) : List Bool := text.toList.map fun character => character = '1'

def trackIdDecoder : List (List Bool × Char) :=
  [("000", '0'), ("001", '1'), ("010", '2'), ("011", '3'), ("100", '4'), ("101", '5'),
    ("110", '6'), ("111", '7'),
    -- 8 and 9 are invalid characters
    ("01000", 'A'), ("01001", 'B'), ("01010", 'C'), ("01011", 'D'), ("01100", 'E'),
    ("01101", 'F'), ("01110", 'G'), ("01111", 'H'),
    -- I is an invalid character
    ("10000", 'J'), ("10001", 'K'), ("10010", 'L'), ("10011", 'M'), ("10100", 'N'),
    -- O is an invalid character
    ("10101", 'P'), ("10110", 'Q'), ("10111", 'R'), ("11000", 'S'), ("11001", 'T'),
    ("11010", 'U'), ("11011", 'V'), ("11100", 'W'), ("11101", 'X'), ("11110", 'Y'),
    ("11111", 'Z')].map fun entry => (bitText entry.1, entry.2)

def trackIdEncoder : List (Char × List Bool) :=
  [('0', "000"), ('1', "001"), ('2', "010"), ('3', "011"), ('4', "100"), ('5', "101"),
    ('6', "110"), ('7', "111"),
    ('A', "01000"), ('B', "01001"), ('C', "01010"), ('D', "01011"), ('E', "01100"),
    ('F', "01101"), ('G', "01110"), ('H', "01111"),
    ('J', "10000"), ('K', "10001"), ('L', "10010"), ('M', "10011"), ('N', "10100"),
    ('P', "10101"), ('Q', "10110"), ('R', "10111"), ('S', "11000"), ('T', "11001"),
    ('U', "11010"), ('V', "11011"), ('W', "11100"), ('X', "11101"), ('Y', "11110"),
    ('Z', "11111")].map fun entry => (entry.1, bitText entry.2)

/-- The unit of an identifier that is given in two parts. -/
inductive UnitId where
  | fixnum (value : Int)
  | string (text : List Char)
  deriving DecidableEq, Repr

/-- The arguments of `encode_track_id`. -/
structure TrackIdInput where
  prefixIn : List Char
  unitIdIn : Option UnitId
  deriving DecidableEq, Repr

/-- What `encode_track_id` returns, and what its arguments are then. -/
structure EncodedTrack where
  code : Nat
  arguments : TrackIdInput
  deriving DecidableEq, Repr

/-! ## Encoding -/

def UnitId.text : UnitId → List Char
  | .fixnum value => (toString value).toList
  | .string text => text

/-- Zeros in front of a unit until it has three characters. -/
def paddedUnit (unitId : List Char) : List Char :=
  List.replicate (3 - unitId.length) '0' ++ unitId

/-- `upcase`, of ASCII letters only. -/
def upcase (text : List Char) : List Char := text.map Char.toUpper

/-- The code of a character; a character that is not in the table raises as well. -/
def encodeCharacter (c : Char) : Option (List Bool) :=
  if c = '8' ∨ c = '9' ∨ c = 'I' ∨ c = 'O' then none else trackIdEncoder.lookup c

def encodeTrackText (trackId : List Char) : Option Nat := do
  let codes ← trackId.mapM encodeCharacter
  integerOfBinary codes.flatten

/-- Without a unit the text that is made upper case is the argument itself. -/
def encodeTrackId (input : TrackIdInput) : Option EncodedTrack :=
  match input.unitIdIn with
  | none =>
      if input.prefixIn.length = 5 then
        (encodeTrackText (upcase input.prefixIn)).map fun code =>
          ⟨code, upcase input.prefixIn, none⟩
      else none
  | some unitIdIn =>
      if input.prefixIn.length = 2 then
        (encodeTrackText (upcase (input.prefixIn ++ paddedUnit unitIdIn.text))).map fun code =>
          ⟨code, input⟩
      else none

/-- The identifier of the arguments, in upper case. -/
def TrackIdInput.identifier (input : TrackIdInput) : List Char :=
  match input.unitIdIn with
  | none => upcase input.prefixIn
  | some unitIdIn => upcase (input.prefixIn ++ paddedUnit unitIdIn.text)

/-! ## Decoding -/

/-- The characters of a text of 19 bits, group by group. -/
def decodeGroups (bits : List Bool) : Option (List Char) := do
  let first ← trackIdDecoder.lookup (bits.take 5)
  let second ← trackIdDecoder.lookup ((bits.drop 5).take 5)
  let third ← trackIdDecoder.lookup ((bits.drop 10).take 3)
  let fourth ← trackIdDecoder.lookup ((bits.drop 13).take 3)
  let fifth ← trackIdDecoder.lookup ((bits.drop 16).take 3)
  some [first, second, third, fourth, fifth]

/-- `decode_track_id` of a number. -/
def decodeTrackId (trackIdIn : Nat) : Option (List Char) :=
  let trackId := binaryText trackIdIn
  if 19 < trackId.length then none
  else decodeGroups (List.replicate (19 - trackId.length) false ++ trackId)

/-! ## The tables -/

def trackLetters : List Char := "ABCDEFGHJKLMNPQRSTUVWXYZ".toList

def trackDigits : List Char := "01234567".toList

/-- Two letters and three digits. -/
def TrackForm (trackId : List Char) : Prop :=
  ∃ first ∈ trackLetters, ∃ second ∈ trackLetters, ∃ third ∈ trackDigits, ∃ fourth ∈ trackDigits,
    ∃ fifth ∈ trackDigits, trackId = [first, second, third, fourth, fifth]

/-- A letter has a code of five bits, which the decoder gives back. -/
theorem letter_code {letter : Char} (member : letter ∈ trackLetters) :
    ∃ code, encodeCharacter letter = some code ∧ code.length = 5 ∧
      trackIdDecoder.lookup code = some letter := by
  have table : trackLetters.map (fun letter => (encodeCharacter letter).map
      (fun code => (code.length, trackIdDecoder.lookup code))) =
      trackLetters.map fun letter => some (5, some letter) := rfl
  obtain ⟨code, found, same⟩ :=
    Option.map_eq_some_iff.mp (List.map_inj_left.mp table letter member)
  exact ⟨code, found, congrArg Prod.fst same, congrArg Prod.snd same⟩

/-- A digit has one of three bits. -/
theorem digit_code {digit : Char} (member : digit ∈ trackDigits) :
    ∃ code, encodeCharacter digit = some code ∧ code.length = 3 ∧
      trackIdDecoder.lookup code = some digit := by
  have table : trackDigits.map (fun digit => (encodeCharacter digit).map
      (fun code => (code.length, trackIdDecoder.lookup code))) =
      trackDigits.map fun digit => some (3, some digit) := rfl
  obtain ⟨code, found, same⟩ :=
    Option.map_eq_some_iff.mp (List.map_inj_left.mp table digit member)
  exact ⟨code, found, congrArg Prod.fst same, congrArg Prod.snd same⟩

theorem mem_of_lookup {Key Value : Type} [BEq Key] [LawfulBEq Key] {table : List (Key × Value)}
    {key : Key} {value : Value} (found : table.lookup key = some value) : (key, value) ∈ table := by
  obtain ⟨before, after, rfl, -⟩ := List.lookup_eq_some_iff.mp found
  exact List.mem_append_right before (List.mem_cons_self ..)

theorem mem_trackLetters {code : List Bool} {letter : Char} (length : code.length = 5)
    (found : trackIdDecoder.lookup code = some letter) : letter ∈ trackLetters := by
  have table : ∀ entry ∈ trackIdDecoder, entry.1.length = 5 → entry.2 ∈ trackLetters := by
    decide +kernel
  exact table (code, letter) (mem_of_lookup found) length

theorem mem_trackDigits {code : List Bool} {digit : Char} (length : code.length = 3)
    (found : trackIdDecoder.lookup code = some digit) : digit ∈ trackDigits := by
  have table : ∀ entry ∈ trackIdDecoder, entry.1.length = 3 → entry.2 ∈ trackDigits := by
    decide +kernel
  exact table (code, digit) (mem_of_lookup found) length

/-! ## The decoder -/

theorem length_binaryText {code : Nat} (fits : code < 2 ^ 19) : (binaryText code).length ≤ 19 := by
  unfold binaryText
  rw [Numeral.length_write]
  exact max_le (by decide) (Nat.size_le.mpr fits)

/-- The text that is cut into groups has all 19 bits of the number. -/
theorem padded_binaryText {code : Nat} (fits : code < 2 ^ 19) :
    List.replicate (19 - (binaryText code).length) false ++ binaryText code =
      bitNumeral.write 19 code := by
  have short := length_binaryText fits
  have small : code < bitNumeral.base ^ (max 1 code.size) :=
    (Nat.lt_size_self code).trans_le (Nat.pow_le_pow_right (by decide) (le_max_right 1 code.size))
  have zeros := bitNumeral.replicate_append_write small (19 - (binaryText code).length)
  unfold binaryText at short zeros ⊢
  rw [Numeral.length_write] at short zeros ⊢
  rw [Nat.sub_add_cancel short] at zeros
  exact zeros

/-- Whatever is decoded is two letters and three digits. -/
theorem trackForm_of_decode {code : Nat} {trackId : List Char}
    (decoded : decodeTrackId code = some trackId) : TrackForm trackId := by
  unfold decodeTrackId at decoded
  dsimp only at decoded
  split at decoded
  · cases decoded
  · next short =>
      generalize text : List.replicate (19 - (binaryText code).length) false ++ binaryText code =
        bits at decoded
      have length : bits.length = 19 := by
        rw [← text, List.length_append, List.length_replicate]
        omega
      unfold decodeGroups at decoded
      simp only [Option.bind_eq_bind, Option.bind_eq_some_iff, Option.some_inj] at decoded
      obtain ⟨first, one, second, two, third, three, fourth, four, fifth, five, rfl⟩ := decoded
      refine ⟨first, mem_trackLetters ?_ one, second, mem_trackLetters ?_ two, third,
        mem_trackDigits ?_ three, fourth, mem_trackDigits ?_ four, fifth,
        mem_trackDigits ?_ five, rfl⟩
      all_goals
        simp only [List.length_take, List.length_drop, length]
        decide

theorem decodeGroups_append {a b c d e : List Bool} {first second third fourth fifth : Char}
    (length_a : a.length = 5) (length_b : b.length = 5) (length_c : c.length = 3)
    (length_d : d.length = 3) (length_e : e.length = 3)
    (decodes_a : trackIdDecoder.lookup a = some first)
    (decodes_b : trackIdDecoder.lookup b = some second)
    (decodes_c : trackIdDecoder.lookup c = some third)
    (decodes_d : trackIdDecoder.lookup d = some fourth)
    (decodes_e : trackIdDecoder.lookup e = some fifth) :
    decodeGroups (a ++ (b ++ (c ++ (d ++ e)))) = some [first, second, third, fourth, fifth] := by
  have five : (a ++ (b ++ (c ++ (d ++ e)))).drop 5 = b ++ (c ++ (d ++ e)) :=
    List.drop_left' length_a
  have ten : (a ++ (b ++ (c ++ (d ++ e)))).drop 10 = c ++ (d ++ e) := by
    rw [← List.drop_drop (i := 5) (j := 5), five]
    exact List.drop_left' length_b
  have thirteen : (a ++ (b ++ (c ++ (d ++ e)))).drop 13 = d ++ e := by
    rw [← List.drop_drop (i := 3) (j := 10), ten]
    exact List.drop_left' length_c
  have sixteen : (a ++ (b ++ (c ++ (d ++ e)))).drop 16 = e := by
    rw [← List.drop_drop (i := 3) (j := 13), thirteen]
    exact List.drop_left' length_d
  unfold decodeGroups
  rw [five, ten, thirteen, sixteen, List.take_left' length_a, List.take_left' length_b,
    List.take_left' length_c, List.take_left' length_d, List.take_of_length_le length_e.le,
    decodes_a, decodes_b, decodes_c, decodes_d, decodes_e]
  rfl

theorem encodeTrackText_eq {trackId : List Char} {codes : List (List Bool)}
    (encodes : trackId.mapM encodeCharacter = some codes) (nonempty : codes.flatten ≠ []) :
    encodeTrackText trackId = some (bitNumeral.read codes.flatten) := by
  unfold encodeTrackText integerOfBinary
  rw [encodes, Option.bind_eq_bind, Option.bind_some, if_neg nonempty]

/-- The decoder gets back the bits of a number that has been read from 19 of them. -/
theorem decodeTrackId_read {bits : List Bool} (length : bits.length = 19) :
    decodeTrackId (bitNumeral.read bits) = decodeGroups bits := by
  have fits : bitNumeral.read bits < 2 ^ 19 := by
    rw [← length]
    exact bitNumeral.read_lt bits
  have back : bitNumeral.write 19 (bitNumeral.read bits) = bits := by
    rw [← length]
    exact bitNumeral.write_read bits
  unfold decodeTrackId
  dsimp only
  rw [if_neg (not_lt.mpr (length_binaryText fits)), padded_binaryText fits, back]

/-- What has been encoded from two letters and three digits is decoded to them. -/
theorem decode_encode {trackId : List Char} {code : Nat} (form : TrackForm trackId)
    (encoded : encodeTrackText trackId = some code) : decodeTrackId code = some trackId := by
  obtain ⟨first, one, second, two, third, three, fourth, four, fifth, five, rfl⟩ := form
  obtain ⟨a, encodes_a, length_a, decodes_a⟩ := letter_code one
  obtain ⟨b, encodes_b, length_b, decodes_b⟩ := letter_code two
  obtain ⟨c, encodes_c, length_c, decodes_c⟩ := digit_code three
  obtain ⟨d, encodes_d, length_d, decodes_d⟩ := digit_code four
  obtain ⟨e, encodes_e, length_e, decodes_e⟩ := digit_code five
  have codes : [first, second, third, fourth, fifth].mapM encodeCharacter =
      some [a, b, c, d, e] := by
    simp [List.mapM_cons, encodes_a, encodes_b, encodes_c, encodes_d, encodes_e]
  have flat : [a, b, c, d, e].flatten = a ++ (b ++ (c ++ (d ++ e))) := by
    simp
  have length : (a ++ (b ++ (c ++ (d ++ e)))).length = 19 := by
    simp only [List.length_append, length_a, length_b, length_c, length_d, length_e]
  have nonempty : [a, b, c, d, e].flatten ≠ [] := by
    intro empty
    rw [← flat, empty] at length
    cases length
  rw [encodeTrackText_eq codes nonempty, flat] at encoded
  obtain rfl := Option.some.inj encoded
  rw [decodeTrackId_read length]
  exact decodeGroups_append length_a length_b length_c length_d length_e decodes_a decodes_b
    decodes_c decodes_d decodes_e

/-! ## Arguments -/

namespace TrackIdInput

variable {input : TrackIdInput}

/-- What is returned is the code of the identifier.  Without a unit the argument becomes upper
case; otherwise both arguments stay as they are. -/
theorem of_encodes {encoded : EncodedTrack} (encodes : encodeTrackId input = some encoded) :
    encodeTrackText input.identifier = some encoded.code ∧
      (encoded.arguments = input ↔
        (input.unitIdIn = none → upcase input.prefixIn = input.prefixIn)) := by
  obtain ⟨prefixIn, unitIdIn⟩ := input
  unfold encodeTrackId at encodes
  cases unitIdIn with
  | none =>
      dsimp only at encodes
      split at encodes
      · obtain ⟨code, found, rfl⟩ := Option.map_eq_some_iff.mp encodes
        exact ⟨found, by simp⟩
      · cases encodes
  | some unit =>
      dsimp only at encodes
      split at encodes
      · obtain ⟨code, found, rfl⟩ := Option.map_eq_some_iff.mp encodes
        exact ⟨found, by simp⟩
      · cases encodes

/-- The identifier is two letters and three digits, and if it is given in one text, that is in
upper case. -/
def Plain (input : TrackIdInput) : Prop :=
  TrackForm input.identifier ∧ (input.unitIdIn = none → upcase input.prefixIn = input.prefixIn)

theorem plain_iff {encoded : EncodedTrack} (encodes : encodeTrackId input = some encoded) :
    input.Plain ↔
      decodeTrackId encoded.code = some input.identifier ∧ encoded.arguments = input := by
  obtain ⟨code, arguments⟩ := of_encodes encodes
  rw [arguments]
  refine and_congr_left fun _ => ?_
  constructor
  · intro form
    exact decode_encode form code
  · exact trackForm_of_decode

end TrackIdInput

/-- Of the arguments that are accepted, those that are decoded to their identifier, have a code of
their own and are not modified are those that are plain; this for all sets of arguments. -/
theorem track_ids_round_trip_iff (inputs : Set TrackIdInput) :
    ((∀ input ∈ inputs, ∀ encoded, encodeTrackId input = some encoded →
        decodeTrackId encoded.code = some input.identifier ∧ encoded.arguments = input) ∧
      ∀ first ∈ inputs, ∀ second ∈ inputs, ∀ one two, encodeTrackId first = some one →
        encodeTrackId second = some two → first.identifier ≠ second.identifier →
        one.code ≠ two.code) ↔
    ∀ input ∈ inputs, ∀ encoded, encodeTrackId input = some encoded → input.Plain := by
  constructor
  · rintro ⟨decoded, -⟩ input member encoded encodes
    exact (TrackIdInput.plain_iff encodes).mpr (decoded input member encoded encodes)
  · intro plain
    have decoded : ∀ input ∈ inputs, ∀ encoded, encodeTrackId input = some encoded →
        decodeTrackId encoded.code = some input.identifier ∧ encoded.arguments = input :=
      fun input member encoded encodes =>
        (TrackIdInput.plain_iff encodes).mp (plain input member encoded encodes)
    refine ⟨decoded, ?_⟩
    intro first here second there one two encodes_one encodes_two apart same
    have left := (decoded first here one encodes_one).1
    have right := (decoded second there two encodes_two).1
    rw [same, right] at left
    exact apart (Option.some.inj left).symm

/-- Five letters are accepted, and their code is not decoded. -/
theorem five_letters_not_decoded :
    ¬ ∀ (input : TrackIdInput) (encoded : EncodedTrack), encodeTrackId input = some encoded →
      decodeTrackId encoded.code = some input.identifier ∧ encoded.arguments = input := by
  intro decoded
  have encodes : encodeTrackId ⟨"ABCDE".toList, none⟩ =
      some ⟨8694124, "ABCDE".toList, none⟩ := by
    decide +kernel
  exact absurd (decoded _ _ encodes).1 (by decide +kernel)

end Nise.RubyModels
