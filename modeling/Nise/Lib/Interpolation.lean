import Mathlib.Analysis.Convex.Basic
import Mathlib.Tactic.Ring
import Mathlib.Topology.ContinuousOn
import Mathlib.Topology.Separation.Hausdorff

/-!
# Interpolation

A value between two values is `AffineMap.lineMap`; between four values at the corners of a cell it
is bilinear, along one side of the cell first.  A function that is put together from continuous
pieces is continuous where the pieces that meet agree.
-/

namespace Nise.Lib.Interpolation

open Topology

section Bilinear

variable {Value : Type*} [Field Value]

/-- The value in a cell with the corners `a` and `b` on one side and `c` and `d` on the other, so
far towards the other side and so far along it. -/
def bilinear (a b c d across along : Value) : Value :=
  AffineMap.lineMap (AffineMap.lineMap a c across) (AffineMap.lineMap b d across) along

theorem bilinear_eq (a b c d across along : Value) :
    bilinear a b c d across along =
      a + (c - a) * across + (b - a) * along + across * along * (a - c - (b - d)) := by
  unfold bilinear
  simp only [AffineMap.lineMap_apply_ring']
  ring

@[simp] theorem bilinear_across_zero (a b c d along : Value) :
    bilinear a b c d 0 along = AffineMap.lineMap a b along := by
  unfold bilinear
  rw [AffineMap.lineMap_apply_zero, AffineMap.lineMap_apply_zero]

@[simp] theorem bilinear_across_one (a b c d along : Value) :
    bilinear a b c d 1 along = AffineMap.lineMap c d along := by
  unfold bilinear
  rw [AffineMap.lineMap_apply_one, AffineMap.lineMap_apply_one]

@[simp] theorem bilinear_along_zero (a b c d across : Value) :
    bilinear a b c d across 0 = AffineMap.lineMap a c across :=
  AffineMap.lineMap_apply_zero ..

@[simp] theorem bilinear_along_one (a b c d across : Value) :
    bilinear a b c d across 1 = AffineMap.lineMap b d across :=
  AffineMap.lineMap_apply_one ..

variable [LinearOrder Value] [IsStrictOrderedRing Value]

/-- In the cell the value stays between the smallest and the largest of the corners. -/
theorem bilinear_mem_Icc {least greatest a b c d across along : Value}
    (aMem : a ∈ Set.Icc least greatest) (bMem : b ∈ Set.Icc least greatest)
    (cMem : c ∈ Set.Icc least greatest) (dMem : d ∈ Set.Icc least greatest)
    (acrossMem : across ∈ Set.Icc 0 1) (alongMem : along ∈ Set.Icc 0 1) :
    bilinear a b c d across along ∈ Set.Icc least greatest := by
  have side := (convex_Icc least greatest).lineMap_mem aMem cMem acrossMem
  have other := (convex_Icc least greatest).lineMap_mem bMem dMem acrossMem
  exact (convex_Icc least greatest).lineMap_mem side other alongMem

end Bilinear

section Pieces

variable {Position Value Index : Type*} [TopologicalSpace Position] [TopologicalSpace Value]
  [T2Space Value] [Finite Index]

/-- Where a function continues a piece of it, the piece has its value. -/
theorem continuousWithinAt_piece_iff {f piece : Position → Value} {cell : Set Position}
    (agree : Set.EqOn f piece cell) (continuous : Continuous piece) (position : Position) :
    ContinuousWithinAt f cell position ↔
      (position ∈ closure cell → piece position = f position) := by
  have limit : Filter.Tendsto f (𝓝[cell] position) (𝓝 (piece position)) :=
    (continuous.continuousAt.mono_left nhdsWithin_le_nhds).congr'
      (agree.symm.eventuallyEq_of_mem self_mem_nhdsWithin)
  constructor
  · intro within near
    have := mem_closure_iff_nhdsWithin_neBot.mp near
    exact tendsto_nhds_unique limit within
  · intro same
    by_cases near : position ∈ closure cell
    · rw [same near] at limit
      exact limit
    · exact continuousWithinAt_of_notMem_closure near

theorem continuousWithinAt_pieces_iff {f : Position → Value} {piece : Index → Position → Value}
    {cell : Index → Set Position} (agree : ∀ index, Set.EqOn f (piece index) (cell index))
    (continuous : ∀ index, Continuous (piece index)) (position : Position) :
    ContinuousWithinAt f (⋃ index, cell index) position ↔
      ∀ index, position ∈ closure (cell index) → piece index position = f position := by
  unfold ContinuousWithinAt
  rw [nhdsWithin_iUnion, Filter.tendsto_iSup]
  exact forall_congr' fun index =>
    continuousWithinAt_piece_iff (agree index) (continuous index) position

end Pieces

end Nise.Lib.Interpolation
