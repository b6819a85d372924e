import Mathlib.Data.Nat.Basic
import Mathlib.Data.UInt
import Mathlib.Algebra.Order.Ring.Nat

/-!
# Numbers in a fixed count of digits

A numeral system writes a number with a given count of digits, the most significant digit
first, and reads a list of digits as a number.  Writing keeps the number modulo a power of the
base, and reading a number of digits and writing it with that count gives the digits back.
-/

namespace Nise.Lib

structure Numeral (Digit : Type) where
  base : Nat
  value : Digit → Nat
  digit : Nat → Digit
  value_lt : ∀ digit, value digit < base
  value_digit : ∀ number, value (digit number) = number % base
  digit_value : ∀ shown, digit (value shown) = shown
  digit_mod : ∀ number, digit (number % base) = digit number

namespace Numeral

variable {Digit : Type} (numeral : Numeral Digit)

def write : Nat → Nat → List Digit
  | 0, _ => []
  | count + 1, number => write count (number / numeral.base) ++ [numeral.digit number]

def read (digits : List Digit) : Nat :=
  digits.foldl (fun number digit => number * numeral.base + numeral.value digit) 0

@[simp] theorem length_write (count number : Nat) :
    (numeral.write count number).length = count := by
  induction count generalizing number with
  | zero => rfl
  | succ count ih => rw [write, List.length_append, ih, List.length_singleton]

@[simp] theorem read_nil : numeral.read [] = 0 := rfl

@[simp] theorem read_append_singleton (digits : List Digit) (last : Digit) :
    numeral.read (digits ++ [last]) = numeral.read digits * numeral.base + numeral.value last := by
  unfold read
  rw [List.foldl_append]
  rfl

theorem read_write_mod (count number : Nat) :
    numeral.read (numeral.write count number) = number % numeral.base ^ count := by
  induction count generalizing number with
  | zero => rw [write, read_nil, Nat.pow_zero, Nat.mod_one]
  | succ count ih =>
      rw [write, read_append_singleton, ih, numeral.value_digit, Nat.pow_succ', Nat.mod_mul,
        Nat.mul_comm, Nat.add_comm]

theorem read_write {count number : Nat} (fits : number < numeral.base ^ count) :
    numeral.read (numeral.write count number) = number := by
  rw [read_write_mod, Nat.mod_eq_of_lt fits]

theorem write_read (digits : List Digit) :
    numeral.write digits.length (numeral.read digits) = digits := by
  induction digits using List.reverseRecOn with
  | nil => rfl
  | append_singleton digits last ih =>
      have small := numeral.value_lt last
      have positive : 0 < numeral.base := Nat.zero_lt_of_lt small
      have before : (numeral.read digits * numeral.base + numeral.value last) / numeral.base =
          numeral.read digits := by
        rw [Nat.mul_comm, Nat.mul_add_div positive, Nat.div_eq_of_lt small, Nat.add_zero]
      have least : numeral.digit (numeral.read digits * numeral.base + numeral.value last) =
          last := by
        rw [← numeral.digit_mod, Nat.mul_comm, Nat.mul_add_mod, Nat.mod_eq_of_lt small,
          numeral.digit_value]
      rw [List.length_append, List.length_singleton, read_append_singleton, write, before, ih,
        least]

theorem read_lt (digits : List Digit) :
    numeral.read digits < numeral.base ^ digits.length := by
  have same := numeral.read_write_mod digits.length (numeral.read digits)
  rw [write_read] at same
  rw [same]
  refine Nat.mod_lt _ ?_
  cases digits with
  | nil => exact Nat.one_pos
  | cons first rest => exact Nat.pow_pos (Nat.zero_lt_of_lt (numeral.value_lt first))

theorem write_add (high low number : Nat) :
    numeral.write (high + low) number =
      numeral.write high (number / numeral.base ^ low) ++ numeral.write low number := by
  induction low generalizing number with
  | zero => simp [write]
  | succ low ih =>
      rw [← Nat.add_assoc, write, ih, Nat.div_div_eq_div_mul, ← Nat.pow_succ', write,
        List.append_assoc]

theorem write_zero (count : Nat) :
    numeral.write count 0 = List.replicate count (numeral.digit 0) := by
  induction count with
  | zero => rfl
  | succ count ih => rw [write, Nat.zero_div, ih, List.replicate_succ']

/-- Leading zeros do not change the number. -/
theorem replicate_append_write {low number : Nat} (fits : number < numeral.base ^ low)
    (high : Nat) :
    List.replicate high (numeral.digit 0) ++ numeral.write low number =
      numeral.write (high + low) number := by
  rw [write_add, Nat.div_eq_of_lt fits, write_zero]

/-- The last digits are those of the same number. -/
theorem drop_write {count low : Nat} (fewer : low ≤ count) (number : Nat) :
    (numeral.write count number).drop (count - low) = numeral.write low number := by
  obtain ⟨high, rfl⟩ := Nat.exists_eq_add_of_le' fewer
  rw [Nat.add_sub_cancel, write_add, List.drop_left' (numeral.length_write high _)]

end Numeral

/-! ## Bytes and bits -/

def byteNumeral : Numeral UInt8 where
  base := 256
  value := UInt8.toNat
  digit := UInt8.ofNat
  value_lt byte := byte.toNat_lt
  value_digit number := UInt8.toNat_ofNat'
  digit_value byte := UInt8.ofNat_toNat
  digit_mod number := by
    apply UInt8.toNat_inj.mp
    simp

def bitNumeral : Numeral Bool where
  base := 2
  value := Bool.toNat
  digit number := number % 2 == 1
  value_lt bit := Bool.toNat_lt bit
  value_digit number := by
    rcases Nat.mod_two_eq_zero_or_one number with even | odd
    · rw [even]
      rfl
    · rw [odd]
      rfl
  digit_value bit := by
    cases bit <;> rfl
  digit_mod number := by rw [Nat.mod_mod]

end Nise.Lib
