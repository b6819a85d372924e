import Mathlib.Data.List.Basic
import Mathlib.Data.List.TakeWhile

/-!
# Recognizers with ordered choice

A recognizer matches the beginning of a text and returns what is left of it.  A choice takes the
first part that matches, and a repetition goes on as long as it can; nothing is taken back later.
-/

namespace Nise.Lib

/-- What is left of a text behind a match, if there is one. -/
def Recognizer (Symbol : Type*) := List Symbol → Option (List Symbol)

namespace Recognizer

variable {Symbol : Type*}

/-- One symbol. -/
def single (accept : Symbol → Bool) : Recognizer Symbol
  | [] => none
  | symbol :: rest => if accept symbol then some rest else none

/-- The given text. -/
def literal [DecidableEq Symbol] (text : List Symbol) : Recognizer Symbol := fun input =>
  if text <+: input then some (input.drop text.length) else none

def seq (first second : Recognizer Symbol) : Recognizer Symbol := fun input =>
  (first input).bind second

def choice (first second : Recognizer Symbol) : Recognizer Symbol := fun input =>
  (first input).or (second input)

/-- One or the other, or one and then the other. -/
def seqOr (first second : Recognizer Symbol) : Recognizer Symbol := fun input =>
  match first input with
  | some rest => some ((second rest).getD rest)
  | none => second input

/-- Repeat at most so many times. -/
def repeated (part : Recognizer Symbol) : Nat → List Symbol → List Symbol
  | 0, input => input
  | count + 1, input =>
      match part input with
      | none => input
      | some rest => repeated part count rest

/-- Repeat as long as possible; every match is of one symbol or more. -/
def star (part : Recognizer Symbol) : Recognizer Symbol := fun input =>
  some (repeated part input.length input)

def plus (part : Recognizer Symbol) : Recognizer Symbol := seq part (star part)

/-- One or more, with a separator between them. -/
def separated (item separator : Recognizer Symbol) : Recognizer Symbol :=
  seq item (star (seq separator item))

/-- The longest of some texts that the input begins with. -/
def longest [DecidableEq Symbol] (texts : List (List Symbol)) (input : List Symbol) :
    Option Nat :=
  ((texts.filter fun text => text <+: input).map List.length).max?

def symbols [DecidableEq Symbol] (texts : List (List Symbol)) : Recognizer Symbol := fun input =>
  (longest texts input).map input.drop

/-- The text that a recognizer has matched, from what is left. -/
def matched (input rest : List Symbol) : List Symbol := input.take (input.length - rest.length)

/-! ## What they match -/

variable {first second part item separator : Recognizer Symbol} {input : List Symbol}

theorem isSome_single {accept : Symbol → Bool} :
    (single accept input).isSome = true ↔ ∃ symbol ∈ input.head?, accept symbol = true := by
  cases input with
  | nil => simp [single]
  | cons symbol rest => simp [single]

theorem isSome_seqOr :
    (seqOr first second input).isSome = true ↔
      (first input).isSome = true ∨ (second input).isSome = true := by
  unfold seqOr
  cases first input with
  | none => simp
  | some rest => simp

theorem mem_symbols [DecidableEq Symbol] {texts : List (List Symbol)} {rest : List Symbol} :
    rest ∈ symbols texts input ↔ ∃ length ∈ longest texts input, input.drop length = rest :=
  Option.map_eq_some_iff

theorem isSome_seq_iff :
    (seq first second input).isSome = true ↔
      ∃ rest ∈ first input, (second rest).isSome = true := by
  unfold seq
  cases first input with
  | none => exact ⟨nofun, fun ⟨_, found, _⟩ => nomatch found⟩
  | some rest =>
      constructor
      · intro succeeds
        exact ⟨rest, rfl, succeeds⟩
      · rintro ⟨other, found, succeeds⟩
        cases Option.some.inj found
        exact succeeds

/-- A second part that always matches does not matter for whether there is a match. -/
theorem isSome_seq (total : ∀ rest, (second rest).isSome = true) :
    (seq first second input).isSome = (first input).isSome := by
  unfold seq
  cases first input with
  | none => rfl
  | some rest => exact total rest

theorem isSome_separated : (separated item separator input).isSome = (item input).isSome :=
  isSome_seq fun _ => rfl

/-- A choice always matches if its last part does. -/
theorem isSome_choice (total : (second input).isSome = true) :
    (choice first second input).isSome = true := by
  unfold choice
  cases first input with
  | none => exact total
  | some rest => rfl

theorem repeated_single (accept : Symbol → Bool) {count : Nat} (enough : input.length ≤ count) :
    repeated (single accept) count input = input.dropWhile accept := by
  induction count generalizing input with
  | zero =>
      rw [List.eq_nil_of_length_eq_zero (Nat.le_zero.mp enough)]
      rfl
  | succ count ih =>
      cases input with
      | nil => rfl
      | cons symbol rest =>
          rw [List.length_cons, Nat.succ_le_succ_iff] at enough
          by_cases accepted : accept symbol = true
          · rw [List.dropWhile_cons_of_pos accepted, ← ih enough]
            simp [repeated, single, accepted]
          · rw [List.dropWhile_cons_of_neg accepted]
            simp [repeated, single, accepted]

theorem star_single (accept : Symbol → Bool) (input : List Symbol) :
    star (single accept) input = some (input.dropWhile accept) :=
  congrArg some (repeated_single accept le_rfl)

theorem seq_star_single (accept : Symbol → Bool) (input : List Symbol) :
    seq (star (single accept)) second input = second (input.dropWhile accept) := by
  unfold seq
  rw [star_single]
  rfl

theorem matched_dropWhile (accept : Symbol → Bool) (input : List Symbol) :
    matched input (input.dropWhile accept) = input.takeWhile accept := by
  have parts := List.takeWhile_append_dropWhile (p := accept) (l := input)
  have lengths := congrArg List.length parts
  rw [List.length_append] at lengths
  have fewer : (input.takeWhile accept).length =
      input.length - (input.dropWhile accept).length := by omega
  calc matched input (input.dropWhile accept)
      = (input.takeWhile accept ++ input.dropWhile accept).take
          (input.length - (input.dropWhile accept).length) := by rw [parts]; rfl
    _ = input.takeWhile accept := List.take_left' fewer

end Recognizer

end Nise.Lib
