import Mathlib.Algebra.BigOperators.Fin
import Mathlib.Algebra.Field.Basic
import Mathlib.Tactic.Ring

/-!
# Explicit Runge-Kutta methods

A method is given by its coefficients.  The slope of a stage is taken at a point that the slopes of
the stages before it lead to, and a step follows a mean of all slopes.
-/

namespace Nise.Lib

structure RungeKutta (R : Type*) where
  stages : Nat
  node : Nat → R
  weight : Nat → Nat → R
  result : Nat → R

namespace RungeKutta

variable {R Coordinate : Type*} [Field R] (method : RungeKutta R)

/-- Where given slopes lead to, coordinate by coordinate. -/
def along (weights : Nat → R) (stage : Nat) (h : R) (slopes : Nat → R) (x : R) : R :=
  x + h * ∑ before : Fin stage, weights before * slopes before

variable (f : R → (Coordinate → R) → Coordinate → R) (h t : R) (x : Coordinate → R)

def slope (stage : Nat) : Coordinate → R :=
  f (t + method.node stage * h) fun i =>
    x i + h * ∑ before : Fin stage, method.weight stage before * slope before i
termination_by stage
decreasing_by exact before.isLt

/-- The point at which the slope of a stage is taken. -/
def point (stage : Nat) (i : Coordinate) : R :=
  along (method.weight stage) stage h (fun before => method.slope f h t x before i) (x i)

def step (i : Coordinate) : R :=
  along method.result method.stages h (fun stage => method.slope f h t x stage i) (x i)

theorem slope_eq (stage : Nat) :
    method.slope f h t x stage = f (t + method.node stage * h) (method.point f h t x stage) := by
  rw [slope]
  rfl

section Constant

variable {f h t x} {v : Coordinate → R} (constant : ∀ t x, f t x = v)

include constant

theorem slope_of_constant (stage : Nat) : method.slope f h t x stage = v := by
  rw [slope_eq]
  exact constant _ _

/-- Along a constant slope a stage lies at its node. -/
theorem point_of_constant {stage : Nat}
    (row : ∑ before : Fin stage, method.weight stage before = method.node stage)
    (i : Coordinate) : method.point f h t x stage i = x i + method.node stage * h * v i := by
  unfold point along
  simp only [method.slope_of_constant constant]
  rw [← Finset.sum_mul, row]
  ring

/-- A method whose mean is one goes along a constant slope. -/
theorem step_of_constant (consistent : ∑ stage : Fin method.stages, method.result stage = 1)
    (i : Coordinate) : method.step f h t x i = x i + h * v i := by
  unfold step along
  simp only [method.slope_of_constant constant]
  rw [← Finset.sum_mul, consistent, one_mul]

end Constant

end RungeKutta

end Nise.Lib
