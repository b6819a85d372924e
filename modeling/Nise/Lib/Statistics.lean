import Mathlib.Algebra.Order.Ring.Int
import Mathlib.Algebra.Order.Field.Basic
import Mathlib.Algebra.Order.BigOperators.Group.List
import Mathlib.Data.List.Induction
import Mathlib.Tactic.FieldSimp
import Mathlib.Tactic.Ring
import Mathlib.Tactic.Linarith

/-!
# Mean and variance of a list

The variance is unbiased: the sum of the squared deviations from the mean is divided by one less
than the number of the values.  It can be computed from the sums of the values and of their
squares.
-/

namespace Nise.Lib.Statistics

variable {Value : Type*} [Field Value]

def mean (values : List Value) : Value := values.sum / values.length

def squaredDeviations (values : List Value) : Value :=
  (values.map fun value => (value - mean values) ^ 2).sum

def variance (values : List Value) : Value :=
  squaredDeviations values / (values.length - 1)

/-- The sum of the squares. -/
def squares (values : List Value) : Value := (values.map fun value => value * value).sum

/-- Squared deviations from any value. -/
theorem sum_squared_sub (centre : Value) (values : List Value) :
    (values.map fun value => (value - centre) ^ 2).sum =
      squares values - 2 * centre * values.sum + values.length * centre ^ 2 := by
  unfold squares
  induction values with
  | nil => simp
  | cons value values ih =>
      rw [List.map_cons, List.sum_cons, ih, List.map_cons, List.sum_cons, List.sum_cons,
        List.length_cons]
      push_cast
      ring

theorem length_mul_squaredDeviations {values : List Value} (nonzero : (values.length : Value) ≠ 0) :
    values.length * squaredDeviations values =
      values.length * squares values - values.sum * values.sum := by
  unfold squaredDeviations
  rw [sum_squared_sub, mean]
  field_simp
  ring

/-- The variance from the two sums. -/
theorem variance_eq {values : List Value} (nonzero : (values.length : Value) ≠ 0) :
    variance values =
      (values.length * squares values - values.sum * values.sum) / values.length /
        (values.length - 1) := by
  rw [← length_mul_squaredDeviations nonzero, mul_div_cancel_left₀ _ nonzero, variance]

variable [LinearOrder Value] [IsStrictOrderedRing Value]

theorem squaredDeviations_nonneg (values : List Value) : 0 ≤ squaredDeviations values := by
  apply List.sum_nonneg
  intro square member
  obtain ⟨value, -, rfl⟩ := List.mem_map.mp member
  exact sq_nonneg _

/-- A sum of squares is zero only if all values are. -/
theorem sum_squares_eq_zero_iff (function : Value → Value) (values : List Value) :
    (values.map fun value => function value ^ 2).sum = 0 ↔
      ∀ value ∈ values, function value = 0 := by
  induction values with
  | nil => simp
  | cons value values ih =>
      have rest : 0 ≤ (values.map fun value => function value ^ 2).sum := by
        apply List.sum_nonneg
        intro square member
        obtain ⟨other, -, rfl⟩ := List.mem_map.mp member
        exact sq_nonneg _
      rw [List.map_cons, List.sum_cons, add_eq_zero_iff_of_nonneg (sq_nonneg _) rest, ih,
        sq_eq_zero_iff, List.forall_mem_cons]

theorem mean_eq_of_forall_eq {values : List Value} {common : Value} (nonempty : values ≠ [])
    (same : ∀ value ∈ values, value = common) : mean values = common := by
  have nonzero : (values.length : Value) ≠ 0 :=
    Nat.cast_ne_zero.mpr (mt List.length_eq_zero_iff.mp nonempty)
  rw [mean, List.eq_replicate_of_mem same, List.sum_replicate, List.length_replicate,
    nsmul_eq_mul, mul_div_cancel_left₀ _ nonzero]

/-- There is no deviation exactly if all values are equal. -/
theorem squaredDeviations_eq_zero_iff (values : List Value) :
    squaredDeviations values = 0 ↔ ∀ first ∈ values, ∀ second ∈ values, first = second := by
  unfold squaredDeviations
  rw [sum_squares_eq_zero_iff fun value => value - mean values]
  constructor
  · intro none first member second other
    exact (sub_eq_zero.mp (none first member)).trans (sub_eq_zero.mp (none second other)).symm
  · intro same value member
    rw [sub_eq_zero, eq_comm]
    exact mean_eq_of_forall_eq (List.ne_nil_of_mem member) fun other there =>
      same other there value member

theorem squares_eq_zero_iff (values : List Value) :
    squares values = 0 ↔ ∀ value ∈ values, value = 0 := by
  rw [← sum_squares_eq_zero_iff fun value => value]
  simp only [squares, sq]

theorem variance_nonneg {values : List Value} (many : 1 < values.length) :
    0 ≤ variance values := by
  have positive : (0 : Value) ≤ values.length - 1 := by
    rw [sub_nonneg]
    exact_mod_cast many.le
  exact div_nonneg (squaredDeviations_nonneg values) positive

theorem variance_eq_zero_iff {values : List Value} (many : 1 < values.length) :
    variance values = 0 ↔ ∀ first ∈ values, ∀ second ∈ values, first = second := by
  have nonzero : (values.length : Value) - 1 ≠ 0 := by
    rw [sub_ne_zero]
    exact_mod_cast many.ne'
  rw [variance, div_eq_zero_iff, or_iff_left nonzero, squaredDeviations_eq_zero_iff]

end Nise.Lib.Statistics
