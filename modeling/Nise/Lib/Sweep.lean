import Mathlib.Algebra.Order.Field.Basic
import Mathlib.Tactic.Linarith

/-!
# A point that sweeps an interval

The point moves by a step in its direction.  A step that would leave the interval is reflected:
what it is too long by is taken back from the limit, and the direction is reversed.
-/

namespace Nise.Lib

structure Sweep (Length : Type*) where
  position : Length
  forward : Bool
  deriving DecidableEq, Repr

namespace Sweep

variable {Length : Type*} [Field Length] [LinearOrder Length]

/-- Where a step leads to if there are no limits. -/
def target (sweep : Sweep Length) (step : Length) : Length :=
  if sweep.forward then sweep.position + step else sweep.position - step

def advance (low high step : Length) (sweep : Sweep Length) : Sweep Length :=
  if high < sweep.target step then ⟨high - (sweep.target step - high), !sweep.forward⟩
  else if sweep.target step < low then ⟨low + (low - sweep.target step), !sweep.forward⟩
  else ⟨sweep.target step, sweep.forward⟩

def Within (low high : Length) (sweep : Sweep Length) : Prop :=
  low ≤ sweep.position ∧ sweep.position ≤ high

variable {low high step : Length} {sweep : Sweep Length}

theorem advance_of_above (above : high < sweep.target step) :
    sweep.advance low high step = ⟨high - (sweep.target step - high), !sweep.forward⟩ :=
  if_pos above

theorem advance_of_within (inside : low ≤ sweep.target step)
    (below : sweep.target step ≤ high) :
    sweep.advance low high step = ⟨sweep.target step, sweep.forward⟩ := by
  unfold advance
  rw [if_neg (not_lt.mpr below), if_neg (not_lt.mpr inside)]

theorem advance_of_below (ordered : low ≤ high) (below : sweep.target step < low) :
    sweep.advance low high step = ⟨low + (low - sweep.target step), !sweep.forward⟩ := by
  unfold advance
  rw [if_neg (not_lt.mpr (below.le.trans ordered)), if_pos below]

variable [IsStrictOrderedRing Length]

/-- A step that is no longer than the interval ends in it. -/
theorem advance_within (within : sweep.Within low high) (nonneg : 0 ≤ step)
    (short : step ≤ high - low) : (sweep.advance low high step).Within low high := by
  obtain ⟨above, below⟩ := within
  have near : low - step ≤ sweep.target step ∧ sweep.target step ≤ high + step := by
    unfold target
    split
    · exact ⟨by linarith, by linarith⟩
    · exact ⟨by linarith, by linarith⟩
  unfold advance Within
  split
  · next beyond => exact ⟨by dsimp only; linarith, by dsimp only; linarith⟩
  · split
    · exact ⟨by dsimp only; linarith, by dsimp only; linarith⟩
    · next inside => exact ⟨by dsimp only; linarith, by dsimp only; linarith⟩

end Sweep

end Nise.Lib
