import Mathlib.Algebra.Order.Field.Basic
import Mathlib.Algebra.Order.Field.Rat
import Mathlib.Tactic.FieldSimp
import Mathlib.Tactic.Linarith
import Mathlib.Tactic.Ring
import Nise.Lib.CyclicSum

/-!
# Polygon areas

An area on the ground is given by the points of its boundary.  Its centroid comes from two loops
over the sides, and whether it includes a point from the angle by which somebody at the point turns
who looks along the boundary.  The arithmetic is exact.
-/

namespace Nise.RubyModels

open Nise.Lib.CyclicSum

structure LlaCoordinate (Num : Type*) where
  lat : Num
  lng : Num
  alt : Num
  deriving DecidableEq, Repr

namespace LlaCoordinate

variable {Num : Type*} [Field Num] [LinearOrder Num]

/-- `LatLng#==`, about the same place. -/
def same (point other : LlaCoordinate Num) : Prop :=
  |point.lat - other.lat| ≤ 1 / (10 ^ 12 : ℕ) ∧ |point.lng - other.lng| ≤ 1 / (10 ^ 12 : ℕ)

instance (point other : LlaCoordinate Num) : Decidable (point.same other) :=
  inferInstanceAs (Decidable (_ ∧ _))

def translate (dLat dLng : Num) (point : LlaCoordinate Num) : LlaCoordinate Num where
  lat := point.lat + dLat
  lng := point.lng + dLng
  alt := point.alt

theorem same_comm (point other : LlaCoordinate Num) : point.same other ↔ other.same point := by
  unfold same
  rw [abs_sub_comm, abs_sub_comm point.lng]

theorem same_translate (dLat dLng : Num) (point other : LlaCoordinate Num) :
    (point.translate dLat dLng).same (other.translate dLat dLng) ↔ point.same other := by
  unfold same translate
  rw [add_sub_add_right_eq_sub, add_sub_add_right_eq_sub]

end LlaCoordinate

structure PolygonArea (Num : Type*) where
  boundary : List (LlaCoordinate Num)
  centroid : LlaCoordinate Num
  deriving DecidableEq, Repr

namespace PolygonArea

variable {Num : Type*} [Field Num]

section Code

variable [LinearOrder Num]

/-- Twice the area between a side and the origin. -/
def cross (here next : LlaCoordinate Num) : Num := here.lng * next.lat - next.lng * here.lat

/-- The boundary with its first point behind the last one, unless they are the same. -/
def close (anArray : List (LlaCoordinate Num)) : List (LlaCoordinate Num) :=
  match anArray.head?, anArray.getLast? with
  | some first, some last => if first.same last then anArray else anArray ++ [first]
  | _, _ => anArray

/-- The first loop of `initialize`. -/
def areaLoop (boundary : List (LlaCoordinate Num)) : Num :=
  (steps boundary).foldl (fun area step => area + 1 / 2 * cross step.1 step.2) 0

/-- The second loop of `initialize`.  It starts from the origin and leaves the altitude there. -/
def centroidLoop (area : Num) (boundary : List (LlaCoordinate Num)) : LlaCoordinate Num :=
  (steps boundary).foldl
    (fun centroid step =>
      { centroid with
        lng := centroid.lng + 1 / (6 * area) * (step.1.lng + step.2.lng) * cross step.1 step.2
        lat := centroid.lat + 1 / (6 * area) * (step.1.lat + step.2.lat) * cross step.1 step.2 })
    ⟨0, 0, 0⟩

/-- `initialize`, which throws on less than three points. -/
def new (anArray : List (LlaCoordinate Num)) : Option (PolygonArea Num) :=
  if 2 < anArray.length then
    some
      { boundary := close anArray
        centroid := centroidLoop (areaLoop (close anArray)) (close anArray) }
  else none

-- The heading from a point to another one, in degrees.
variable (headingTo : LlaCoordinate Num → LlaCoordinate Num → Num)

/-- The turn from one point of the boundary to the next, the short way round. -/
def dTurnAngle (aPoint here next : LlaCoordinate Num) : Num :=
  let dTurnAngle := headingTo aPoint next - headingTo aPoint here
  if 180 < |dTurnAngle| then dTurnAngle + (if 0 < dTurnAngle then -360 else 360) else dTurnAngle

/-- The loop of `includes?`, over the sides it still has to visit. -/
def includesLoop (aPoint : LlaCoordinate Num) :
    List (LlaCoordinate Num × LlaCoordinate Num) → Num → Bool
  | [], turnAngle => decide (180 < |turnAngle|)
  | (here, next) :: rest, turnAngle =>
      if here.same aPoint then true
      else if next.same aPoint then true
      else includesLoop aPoint rest (turnAngle + dTurnAngle headingTo aPoint here next)

/-- The last side of the boundary is not visited. -/
def includes (polygon : PolygonArea Num) (aPoint : LlaCoordinate Num) : Bool :=
  includesLoop headingTo aPoint ((steps polygon.boundary).take (polygon.boundary.length - 2)) 0

def excludes (polygon : PolygonArea Num) (aPoint : LlaCoordinate Num) : Bool :=
  !polygon.includes headingTo aPoint

end Code

section Centroid

/-- The area with a sign. -/
def areaOf (vertices : List (LlaCoordinate Num)) : Num := 1 / 2 * cyclicSum cross vertices

/-- A sum over the sides, weighted with one coordinate. -/
def moment (coordinate : LlaCoordinate Num → Num) (vertices : List (LlaCoordinate Num)) : Num :=
  cyclicSum (fun here next => (coordinate here + coordinate next) * cross here next) vertices

def centroidOf (area : Num) (vertices : List (LlaCoordinate Num)) : LlaCoordinate Num where
  lat := 1 / (6 * area) * moment LlaCoordinate.lat vertices
  lng := 1 / (6 * area) * moment LlaCoordinate.lng vertices
  alt := 0

/-- What the loop over a boundary that leads back adds up to. -/
theorem areaLoop_closed (vertices : List (LlaCoordinate Num)) :
    areaLoop (closed vertices) = areaOf vertices := by
  unfold areaLoop areaOf
  rw [foldl_add (fun here next => 1 / 2 * cross here next), zero_add]
  exact cyclicSum_mul cross (1 / 2) vertices

theorem centroidLoop_steps (area : Num) (sides : List (LlaCoordinate Num × LlaCoordinate Num))
    (centroid : LlaCoordinate Num) :
    sides.foldl
      (fun centroid step =>
        { centroid with
          lng := centroid.lng + 1 / (6 * area) * (step.1.lng + step.2.lng) * cross step.1 step.2
          lat := centroid.lat + 1 / (6 * area) * (step.1.lat + step.2.lat) * cross step.1 step.2 })
      centroid =
    { centroid with
      lng := sides.foldl (fun sum step =>
        sum + 1 / (6 * area) * (step.1.lng + step.2.lng) * cross step.1 step.2) centroid.lng
      lat := sides.foldl (fun sum step =>
        sum + 1 / (6 * area) * (step.1.lat + step.2.lat) * cross step.1 step.2) centroid.lat } := by
  induction sides generalizing centroid with
  | nil => rfl
  | cons side rest ih => exact ih _

theorem foldl_moment (area : Num) (coordinate : LlaCoordinate Num → Num)
    (vertices : List (LlaCoordinate Num)) :
    (steps (closed vertices)).foldl (fun sum step =>
      sum + 1 / (6 * area) * (coordinate step.1 + coordinate step.2) * cross step.1 step.2) 0 =
    1 / (6 * area) * moment coordinate vertices := by
  rw [foldl_add (fun here next =>
    1 / (6 * area) * (coordinate here + coordinate next) * cross here next), zero_add]
  unfold moment
  rw [← cyclicSum_mul]
  simp only [mul_assoc]
  rfl

theorem centroidLoop_closed (area : Num) (vertices : List (LlaCoordinate Num)) :
    centroidLoop area (closed vertices) = centroidOf area vertices := by
  unfold centroidLoop centroidOf
  rw [centroidLoop_steps, foldl_moment area LlaCoordinate.lat, foldl_moment area LlaCoordinate.lng]

theorem areaOf_rotate (vertices : List (LlaCoordinate Num)) (count : Nat) :
    areaOf (vertices.rotate count) = areaOf vertices := by
  unfold areaOf
  rw [cyclicSum_rotate]

theorem centroidOf_rotate (area : Num) (vertices : List (LlaCoordinate Num)) (count : Nat) :
    centroidOf area (vertices.rotate count) = centroidOf area vertices := by
  unfold centroidOf moment
  rw [cyclicSum_rotate, cyclicSum_rotate]

/-- The other way round every side counts against what it counted for. -/
theorem cross_swap (here next : LlaCoordinate Num) : cross next here = -cross here next := by
  unfold cross
  ring

theorem areaOf_reverse (vertices : List (LlaCoordinate Num)) :
    areaOf vertices.reverse = -areaOf vertices := by
  unfold areaOf
  rw [cyclicSum_reverse_of_odd cross cross_swap, mul_neg]

theorem moment_reverse (coordinate : LlaCoordinate Num → Num)
    (vertices : List (LlaCoordinate Num)) :
    moment coordinate vertices.reverse = -moment coordinate vertices := by
  apply cyclicSum_reverse_of_odd
  intro here next
  rw [cross_swap, add_comm, mul_neg]

theorem centroidOf_reverse (vertices : List (LlaCoordinate Num)) :
    centroidOf (areaOf vertices.reverse) vertices.reverse =
      centroidOf (areaOf vertices) vertices := by
  unfold centroidOf
  rw [moment_reverse, moment_reverse, areaOf_reverse, mul_neg 6, one_div_neg_eq_neg_one_div,
    neg_mul_neg, neg_mul_neg]

/-- What a translation adds to a side is a rise along it. -/
theorem areaOf_translate (dLat dLng : Num) (vertices : List (LlaCoordinate Num)) :
    areaOf (vertices.map (LlaCoordinate.translate dLat dLng)) = areaOf vertices := by
  unfold areaOf
  rw [cyclicSum_map]
  congr 1
  apply cyclicSum_eq_of_rise _ _ fun point => dLng * point.lat - dLat * point.lng
  intro here next
  unfold cross LlaCoordinate.translate
  ring

theorem moment_lat_translate (dLat dLng : Num) (vertices : List (LlaCoordinate Num)) :
    moment LlaCoordinate.lat (vertices.map (LlaCoordinate.translate dLat dLng)) =
      moment LlaCoordinate.lat vertices + 3 * dLat * cyclicSum cross vertices := by
  unfold moment
  rw [cyclicSum_map, ← cyclicSum_mul, ← cyclicSum_add]
  apply cyclicSum_eq_of_rise _ _ fun point =>
    dLng * point.lat ^ 2 - dLat * point.lng * point.lat +
      2 * dLat * (dLng * point.lat - dLat * point.lng)
  intro here next
  unfold cross LlaCoordinate.translate
  ring

theorem moment_lng_translate (dLat dLng : Num) (vertices : List (LlaCoordinate Num)) :
    moment LlaCoordinate.lng (vertices.map (LlaCoordinate.translate dLat dLng)) =
      moment LlaCoordinate.lng vertices + 3 * dLng * cyclicSum cross vertices := by
  unfold moment
  rw [cyclicSum_map, ← cyclicSum_mul, ← cyclicSum_add]
  apply cyclicSum_eq_of_rise _ _ fun point =>
    dLng * point.lng * point.lat - dLat * point.lng ^ 2 +
      2 * dLng * (dLng * point.lat - dLat * point.lng)
  intro here next
  unfold cross LlaCoordinate.translate
  ring

theorem centroidOf_translate [CharZero Num] (dLat dLng : Num) (vertices : List (LlaCoordinate Num))
    (nonzero : areaOf vertices ≠ 0) :
    centroidOf (areaOf vertices) (vertices.map (LlaCoordinate.translate dLat dLng)) =
      (centroidOf (areaOf vertices) vertices).translate dLat dLng := by
  have sum : cyclicSum cross vertices = 2 * areaOf vertices := by
    unfold areaOf
    ring
  unfold centroidOf
  rw [moment_lat_translate, moment_lng_translate, sum]
  unfold LlaCoordinate.translate
  congr 1 <;> field_simp <;> ring

end Centroid

variable [LinearOrder Num]

theorem close_eq_closed (vertices : List (LlaCoordinate Num))
    (distinct : ∀ step ∈ steps (closed vertices), ¬ step.1.same step.2) :
    close vertices = closed vertices := by
  rcases List.eq_nil_or_concat' vertices with rfl | ⟨before, last, rfl⟩
  · rfl
  · obtain ⟨first, begins⟩ := exists_first before last
    have apart := distinct _ (back_mem_steps first before last begins)
    rw [LlaCoordinate.same_comm] at apart
    unfold close
    rw [begins, List.getLast?_concat]
    dsimp only
    rw [if_neg apart]
    cases before with
    | nil =>
        cases begins
        rfl
    | cons head rest =>
        cases begins
        rfl

/-- Vertices of which no two in a row are the same make an area. -/
theorem new_eq_some (vertices : List (LlaCoordinate Num)) (many : 2 < vertices.length)
    (distinct : ∀ step ∈ steps (closed vertices), ¬ step.1.same step.2) :
    new vertices = some
      { boundary := closed vertices
        centroid := centroidOf (areaOf vertices) vertices } := by
  unfold new
  rw [if_pos many, close_eq_closed vertices distinct, areaLoop_closed, centroidLoop_closed]

/-- The centroid is the same wherever the vertices start and whichever way round they go, and it
moves with them. -/
theorem centroid_natural [IsStrictOrderedRing Num] (vertices : List (LlaCoordinate Num))
    (many : 2 < vertices.length)
    (distinct : ∀ step ∈ steps (closed vertices), ¬ step.1.same step.2)
    (nonzero : areaOf vertices ≠ 0) :
    ∃ polygon, new vertices = some polygon ∧
      (∀ count, ∃ other, new (vertices.rotate count) = some other ∧
        other.centroid = polygon.centroid) ∧
      (∃ other, new vertices.reverse = some other ∧ other.centroid = polygon.centroid) ∧
      ∀ dLat dLng, ∃ other, new (vertices.map (LlaCoordinate.translate dLat dLng)) = some other ∧
        other.centroid = polygon.centroid.translate dLat dLng := by
  refine ⟨_, new_eq_some vertices many distinct, ?_, ?_, ?_⟩
  · intro count
    refine ⟨_, new_eq_some _ (by rwa [List.length_rotate]) ?_, ?_⟩
    · intro step member
      exact distinct step ((steps_rotate_perm vertices count).mem_iff.mp member)
    · dsimp only
      rw [areaOf_rotate, centroidOf_rotate]
  · refine ⟨_, new_eq_some _ (by rwa [List.length_reverse]) ?_, centroidOf_reverse vertices⟩
    intro step member
    obtain ⟨original, there, rfl⟩ :=
      List.mem_map.mp ((steps_reverse_perm vertices).mem_iff.mp member)
    rw [LlaCoordinate.same_comm]
    exact distinct original there
  · intro dLat dLng
    refine ⟨_, new_eq_some _ (by rwa [List.length_map]) ?_, ?_⟩
    · intro step member
      rw [steps_map] at member
      obtain ⟨original, there, rfl⟩ := List.mem_map.mp member
      exact mt (LlaCoordinate.same_translate dLat dLng _ _).mp (distinct original there)
    · dsimp only
      rw [areaOf_translate, centroidOf_translate dLat dLng vertices nonzero]

theorem centroid_natural_triangle :
    let vertices : List (LlaCoordinate ℚ) := [⟨0, 0, 0⟩, ⟨0, 3, 0⟩, ⟨3, 0, 0⟩]
    areaOf vertices ≠ 0 ∧ ∃ polygon, new vertices = some polygon ∧
      (∀ count, ∃ other, new (vertices.rotate count) = some other ∧
        other.centroid = polygon.centroid) ∧
      (∃ other, new vertices.reverse = some other ∧ other.centroid = polygon.centroid) ∧
      ∀ dLat dLng, ∃ other, new (vertices.map (LlaCoordinate.translate dLat dLng)) = some other ∧
        other.centroid = polygon.centroid.translate dLat dLng :=
  ⟨by decide +kernel, centroid_natural _ (by decide) (by decide +kernel) (by decide +kernel)⟩

section Winding

variable (headingTo : LlaCoordinate Num → LlaCoordinate Num → Num)

/-- How often, and which way, a turn goes past north. -/
def pastNorth (aPoint here next : LlaCoordinate Num) : ℤ :=
  let dTurnAngle := headingTo aPoint next - headingTo aPoint here
  if 180 < |dTurnAngle| then (if 0 < dTurnAngle then -1 else 1) else 0

theorem dTurnAngle_eq (aPoint here next : LlaCoordinate Num) :
    dTurnAngle headingTo aPoint here next = 360 * (pastNorth headingTo aPoint here next : Num) +
      (headingTo aPoint next - headingTo aPoint here) := by
  unfold dTurnAngle pastNorth
  dsimp only
  split
  · split
    · push_cast
      ring
    · push_cast
      ring
  · push_cast
    ring

/-- All the way round, only the turns past north are left. -/
theorem cyclicSum_dTurnAngle (aPoint : LlaCoordinate Num) (vertices : List (LlaCoordinate Num)) :
    cyclicSum (dTurnAngle headingTo aPoint) vertices =
      360 * (cyclicSum (pastNorth headingTo aPoint) vertices : ℤ) := by
  have counted := map_cyclicSum (pastNorth headingTo aPoint) (Int.castAddHom Num) vertices
  rw [cyclicSum_eq_of_rise _ _ (headingTo aPoint) (dTurnAngle_eq headingTo aPoint),
    cyclicSum_mul]
  exact congrArg (360 * ·) counted.symm

theorem includesLoop_eq (aPoint : LlaCoordinate Num)
    (sides : List (LlaCoordinate Num × LlaCoordinate Num))
    (apart : ∀ side ∈ sides, ¬ side.1.same aPoint ∧ ¬ side.2.same aPoint) (turnAngle : Num) :
    includesLoop headingTo aPoint sides turnAngle =
      decide (180 < |turnAngle +
        (sides.map fun side => dTurnAngle headingTo aPoint side.1 side.2).sum|) := by
  induction sides generalizing turnAngle with
  | nil => rw [List.map_nil, List.sum_nil, add_zero]; rfl
  | cons side rest ih =>
      obtain ⟨hereApart, nextApart⟩ := apart side List.mem_cons_self
      obtain ⟨here, next⟩ := side
      unfold includesLoop
      rw [if_neg hereApart, if_neg nextApart,
        ih (fun side member => apart side (List.mem_cons_of_mem _ member)), List.map_cons,
        List.sum_cons, add_assoc]

theorem includes_closed (polygon : PolygonArea Num) (vertices : List (LlaCoordinate Num))
    (leadsBack : polygon.boundary = closed vertices) (aPoint : LlaCoordinate Num)
    (apart : ∀ vertex ∈ vertices, ¬ vertex.same aPoint) :
    polygon.includes headingTo aPoint =
      decide (180 < |pathSum (dTurnAngle headingTo aPoint) vertices|) := by
  unfold includes
  rw [leadsBack, steps_closed_take, includesLoop_eq, zero_add]
  · rfl
  · intro side member
    obtain ⟨here, next⟩ := List.of_mem_zip member
    exact ⟨apart _ here, apart _ (List.mem_of_mem_tail next)⟩

variable [IsStrictOrderedRing Num]

/-- A side that is not seen under half a circle turns by less. -/
theorem abs_dTurnAngle_lt {aPoint here next : LlaCoordinate Num}
    (hereRange : 0 ≤ headingTo aPoint here ∧ headingTo aPoint here < 360)
    (nextRange : 0 ≤ headingTo aPoint next ∧ headingTo aPoint next < 360)
    (seen : |headingTo aPoint next - headingTo aPoint here| ≠ 180) :
    |dTurnAngle headingTo aPoint here next| < 180 := by
  unfold dTurnAngle
  dsimp only
  split
  · rename_i wide
    split
    · rename_i right
      rw [abs_of_pos right] at wide
      rw [abs_lt]
      constructor <;> linarith
    · rename_i left
      rw [abs_of_nonpos (not_lt.mp left)] at wide
      rw [abs_lt]
      constructor <;> linarith
  · rename_i narrow
    exact lt_of_le_of_ne (not_lt.mp narrow) seen

theorem half_turn_iff (sum back : Num) {winding : ℤ} (around : sum + back = 360 * winding)
    (short : |back| < 180) : 180 < |sum| ↔ winding ≠ 0 := by
  constructor
  · rintro wide rfl
    have opposite : sum = -back := by
      push_cast at around
      linarith
    rw [opposite, abs_neg] at wide
    exact lt_asymm wide short
  · intro turned
    have one : (1 : Num) ≤ |(winding : Num)| := by exact_mod_cast Int.one_le_abs turned
    have parts := abs_add_le sum back
    rw [around, abs_mul, abs_of_pos (by norm_num : (0 : Num) < 360)] at parts
    linarith

/-- What the loop adds up falls short of whole turns by the way back only. -/
theorem abs_pathSum_iff (aPoint : LlaCoordinate Num) (vertices : List (LlaCoordinate Num))
    (headings : ∀ vertex ∈ vertices, 0 ≤ headingTo aPoint vertex ∧ headingTo aPoint vertex < 360)
    (seen : ∀ side ∈ steps (closed vertices),
      |headingTo aPoint side.2 - headingTo aPoint side.1| ≠ 180) :
    180 < |pathSum (dTurnAngle headingTo aPoint) vertices| ↔
      cyclicSum (pastNorth headingTo aPoint) vertices ≠ 0 := by
  rcases List.eq_nil_or_concat' vertices with rfl | ⟨before, last, rfl⟩
  · rw [pathSum_nil, abs_zero]
    exact iff_of_false (by norm_num) fun turned => turned rfl
  · obtain ⟨first, begins⟩ := exists_first before last
    have firstMem : first ∈ before ++ [last] := List.mem_of_mem_head? begins
    have lastMem : last ∈ before ++ [last] := List.mem_concat_self
    refine half_turn_iff _ (dTurnAngle headingTo aPoint last first) ?_ ?_
    · rw [← cyclicSum_dTurnAngle, cyclicSum_concat _ first before last begins]
    · exact abs_dTurnAngle_lt headingTo (headings last lastMem) (headings first firstMem)
        (seen _ (back_mem_steps first before last begins))

/-- The area includes what its boundary goes round, wherever the boundary starts. -/
theorem includes_iff_winding (polygon : PolygonArea Num) (vertices : List (LlaCoordinate Num))
    (leadsBack : polygon.boundary = closed vertices) (aPoint : LlaCoordinate Num)
    (apart : ∀ vertex ∈ vertices, ¬ vertex.same aPoint)
    (headings : ∀ vertex ∈ vertices, 0 ≤ headingTo aPoint vertex ∧ headingTo aPoint vertex < 360) :
    ∃ winding : ℤ, cyclicSum (dTurnAngle headingTo aPoint) vertices = 360 * winding ∧
      ((∀ side ∈ steps polygon.boundary,
          |headingTo aPoint side.2 - headingTo aPoint side.1| ≠ 180) →
        (polygon.includes headingTo aPoint = true ↔ winding ≠ 0) ∧
        ∀ (count : Nat) (other : PolygonArea Num),
          other.boundary = closed (vertices.rotate count) →
          other.includes headingTo aPoint = polygon.includes headingTo aPoint) := by
  refine ⟨_, cyclicSum_dTurnAngle headingTo aPoint vertices, ?_⟩
  intro seen
  rw [leadsBack] at seen
  have answer : polygon.includes headingTo aPoint = true ↔
      cyclicSum (pastNorth headingTo aPoint) vertices ≠ 0 := by
    rw [includes_closed headingTo polygon vertices leadsBack aPoint apart, decide_eq_true_iff]
    exact abs_pathSum_iff headingTo aPoint vertices headings seen
  refine ⟨answer, ?_⟩
  intro count other otherLeadsBack
  have member (vertex : LlaCoordinate Num) :
      vertex ∈ vertices.rotate count ↔ vertex ∈ vertices := List.mem_rotate
  rw [Bool.eq_iff_iff, answer, includes_closed headingTo other _ otherLeadsBack aPoint
      (fun vertex there => apart vertex ((member vertex).mp there)), decide_eq_true_iff,
    abs_pathSum_iff headingTo aPoint _
      (fun vertex there => headings vertex ((member vertex).mp there))
      (fun side there => seen side ((steps_rotate_perm vertices count).mem_iff.mp there)),
    cyclicSum_rotate]

/-- A point inside a square, seen from which the corners lie in the four quarters. -/
theorem includes_iff_winding_square :
    let headingTo : LlaCoordinate ℚ → LlaCoordinate ℚ → ℚ := fun here there =>
      if here.lat < there.lat then (if here.lng < there.lng then 45 else 315)
      else (if here.lng < there.lng then 135 else 225)
    let vertices : List (LlaCoordinate ℚ) := [⟨1, 1, 0⟩, ⟨-1, 1, 0⟩, ⟨-1, -1, 0⟩, ⟨1, -1, 0⟩]
    let polygon : PolygonArea ℚ := ⟨closed vertices, ⟨0, 0, 0⟩⟩
    new vertices = some polygon ∧
    ∃ winding : ℤ, cyclicSum (dTurnAngle headingTo ⟨0, 0, 0⟩) vertices = 360 * winding ∧
      ((∀ side ∈ steps polygon.boundary,
          |headingTo ⟨0, 0, 0⟩ side.2 - headingTo ⟨0, 0, 0⟩ side.1| ≠ 180) →
        (polygon.includes headingTo ⟨0, 0, 0⟩ = true ↔ winding ≠ 0) ∧
        ∀ (count : Nat) (other : PolygonArea ℚ),
          other.boundary = closed (vertices.rotate count) →
          other.includes headingTo ⟨0, 0, 0⟩ = polygon.includes headingTo ⟨0, 0, 0⟩) :=
  ⟨by decide +kernel,
    includes_iff_winding _ _ _ rfl _ (by decide +kernel) (by decide +kernel)⟩

end Winding

end PolygonArea

end Nise.RubyModels
