import Mathlib.Algebra.BigOperators.Group.List.Basic
import Mathlib.Algebra.BigOperators.Ring.List
import Mathlib.Algebra.BigOperators.Group.Multiset.Basic
import Mathlib.Data.List.Rotate

/-!
# Sums along closed paths

A value for every step of a path is summed along the path.  On a closed path the sum does not depend
on where the path starts, and the differences of a height sum up to zero.
-/

namespace Nise.Lib.CyclicSum

variable {Point Value : Type*}

/-- The steps of a path. -/
def steps (path : List Point) : List (Point × Point) := path.zip path.tail

/-- The path that comes back to the first of some points. -/
def closed : List Point → List Point
  | [] => []
  | first :: rest => first :: rest ++ [first]

theorem exists_first (points : List Point) (last : Point) :
    ∃ first, (points ++ [last]).head? = some first := by
  cases points with
  | nil => exact ⟨last, rfl⟩
  | cons first _ => exact ⟨first, rfl⟩

section Monoid

variable [AddCommMonoid Value] (value : Point → Point → Value)

def pathSum (path : List Point) : Value := ((steps path).map fun step => value step.1 step.2).sum

def cyclicSum (points : List Point) : Value := pathSum value (closed points)

@[simp] theorem pathSum_nil : pathSum value [] = 0 := rfl

@[simp] theorem pathSum_singleton (point : Point) : pathSum value [point] = 0 := rfl

@[simp] theorem pathSum_cons_cons (first second : Point) (rest : List Point) :
    pathSum value (first :: second :: rest) =
      value first second + pathSum value (second :: rest) := by
  unfold pathSum steps
  rw [List.tail_cons, List.zip_cons_cons, List.map_cons, List.sum_cons]
  rfl

/-- A path can be cut at each of its points. -/
theorem pathSum_append (before : List Point) (middle : Point) (after : List Point) :
    pathSum value (before ++ middle :: after) =
      pathSum value (before ++ [middle]) + pathSum value (middle :: after) := by
  induction before with
  | nil => rw [List.nil_append, List.nil_append, pathSum_singleton, zero_add]
  | cons first rest ih =>
      cases rest with
      | nil =>
          rw [List.singleton_append, List.singleton_append, pathSum_cons_cons, pathSum_cons_cons,
            pathSum_singleton, add_zero]
      | cons second rest =>
          rw [List.cons_append, List.cons_append] at ih
          rw [List.cons_append, List.cons_append, List.cons_append, List.cons_append,
            pathSum_cons_cons, pathSum_cons_cons, ih, add_assoc]

/-- The last step of a closed path leads back. -/
theorem cyclicSum_concat (first : Point) (points : List Point) (last : Point)
    (begins : (points ++ [last]).head? = some first) :
    cyclicSum value (points ++ [last]) =
      pathSum value (points ++ [last]) + value last first := by
  have back : closed (points ++ [last]) = points ++ last :: [first] := by
    cases points with
    | nil =>
        cases begins
        rfl
    | cons other rest =>
        cases begins
        simp [closed]
  unfold cyclicSum
  rw [back, pathSum_append, pathSum_cons_cons, pathSum_singleton, add_zero]

theorem cyclicSum_append_comm (first second : List Point) :
    cyclicSum value (first ++ second) = cyclicSum value (second ++ first) := by
  cases first with
  | nil => rw [List.nil_append, List.append_nil]
  | cons a before =>
      cases second with
      | nil => rw [List.nil_append, List.append_nil]
      | cons b after =>
          have there :
              closed (a :: before ++ b :: after) = (a :: before) ++ b :: (after ++ [a]) := by
            simp [closed]
          have back :
              closed (b :: after ++ a :: before) = (b :: after) ++ a :: (before ++ [b]) := by
            simp [closed]
          unfold cyclicSum
          rw [there, back, pathSum_append, pathSum_append value (b :: after), add_comm]
          rfl

theorem cyclicSum_rotate (points : List Point) (count : Nat) :
    cyclicSum value (points.rotate count) = cyclicSum value points := by
  rw [List.rotate_eq_drop_append_take_mod, cyclicSum_append_comm, List.take_append_drop]

theorem pathSum_reverse (path : List Point) :
    pathSum value path.reverse = pathSum (fun first second => value second first) path := by
  induction path with
  | nil => rfl
  | cons first rest ih =>
      cases rest with
      | nil => rfl
      | cons second rest =>
          rw [List.reverse_cons] at ih
          rw [List.reverse_cons, List.reverse_cons, List.append_assoc, List.singleton_append,
            pathSum_append, ih, pathSum_cons_cons, pathSum_cons_cons, pathSum_singleton, add_zero,
            add_comm]

theorem cyclicSum_reverse (points : List Point) :
    cyclicSum value points.reverse = cyclicSum (fun first second => value second first) points := by
  cases points with
  | nil => rfl
  | cons first rest =>
      rw [List.reverse_cons, cyclicSum_append_comm]
      have turned : closed ([first] ++ rest.reverse) = (closed (first :: rest)).reverse := by
        simp [closed]
      unfold cyclicSum
      rw [turned, pathSum_reverse]

theorem closed_map {Other : Type*} (f : Other → Point) (points : List Other) :
    closed (points.map f) = (closed points).map f := by
  cases points with
  | nil => rfl
  | cons first rest => simp [closed]

theorem cyclicSum_map {Other : Type*} (f : Other → Point) (points : List Other) :
    cyclicSum value (points.map f) =
      cyclicSum (fun first second => value (f first) (f second)) points := by
  unfold cyclicSum pathSum steps
  rw [closed_map, ← List.map_tail, List.zip_map, List.map_map]
  rfl

theorem cyclicSum_add (other : Point → Point → Value) (points : List Point) :
    cyclicSum (fun first second => value first second + other first second) points =
      cyclicSum value points + cyclicSum other points :=
  List.sum_map_add

theorem map_cyclicSum {Other : Type*} [AddCommMonoid Other] (f : Value →+ Other)
    (points : List Point) :
    f (cyclicSum value points) = cyclicSum (fun first second => f (value first second)) points := by
  unfold cyclicSum pathSum
  rw [map_list_sum, List.map_map]
  rfl

/-- The steps themselves are a sum along the path. -/
theorem coe_steps (path : List Point) :
    (steps path : Multiset (Point × Point)) =
      pathSum (fun first second => {(first, second)}) path :=
  (Multiset.sum_map_singleton (steps path : Multiset (Point × Point))).symm

theorem steps_rotate_perm (points : List Point) (count : Nat) :
    (steps (closed (points.rotate count))).Perm (steps (closed points)) := by
  apply Multiset.coe_eq_coe.mp
  rw [coe_steps, coe_steps]
  exact cyclicSum_rotate _ points count

theorem steps_reverse_perm (points : List Point) :
    (steps (closed points.reverse)).Perm ((steps (closed points)).map Prod.swap) := by
  apply Multiset.coe_eq_coe.mp
  rw [← Multiset.map_coe, coe_steps, coe_steps]
  have turned := cyclicSum_reverse (fun first second => ({(first, second)} : Multiset _)) points
  have swapped := map_cyclicSum (fun first second => ({(first, second)} : Multiset _))
    (Multiset.mapAddMonoidHom Prod.swap) points
  exact turned.trans swapped.symm

theorem steps_map {Other : Type*} (f : Other → Point) (points : List Other) :
    steps (closed (points.map f)) = (steps (closed points)).map (Prod.map f f) := by
  unfold steps
  rw [closed_map, ← List.map_tail, List.zip_map]

theorem back_mem_steps (first : Point) (points : List Point) (last : Point)
    (begins : (points ++ [last]).head? = some first) :
    (last, first) ∈ steps (closed (points ++ [last])) := by
  have parts := cyclicSum_concat (fun first second => ({(first, second)} : Multiset _)) first points
    last begins
  rw [← Multiset.mem_coe, coe_steps]
  change _ ∈ cyclicSum _ _
  rw [parts]
  exact Multiset.mem_add.mpr (.inr (Multiset.mem_singleton_self _))

/-- Without the way back only the path itself is walked. -/
theorem steps_take (path : List Point) (last : Point) :
    (steps (path ++ [last])).take (path.length - 1) = steps path := by
  induction path with
  | nil => rfl
  | cons first rest ih =>
      cases rest with
      | nil => rfl
      | cons second rest => exact congrArg ((first, second) :: ·) ih

theorem steps_closed_take (points : List Point) :
    (steps (closed points)).take ((closed points).length - 2) = steps points := by
  cases points with
  | nil => rfl
  | cons first rest =>
      have count : (closed (first :: rest)).length - 2 = (first :: rest).length - 1 := by
        unfold closed
        rw [List.length_append]
        rfl
      rw [count]
      exact steps_take (first :: rest) first

/-- A loop that adds up the values of the steps. -/
theorem foldl_add (steps : List (Point × Point)) (start : Value) :
    steps.foldl (fun sum step => sum + value step.1 step.2) start =
      start + (steps.map fun step => value step.1 step.2).sum := by
  induction steps generalizing start with
  | nil => exact (add_zero start).symm
  | cons step rest ih => rw [List.foldl_cons, ih, List.map_cons, List.sum_cons, add_assoc]

end Monoid

theorem cyclicSum_mul {Value : Type*} [CommSemiring Value] (value : Point → Point → Value)
    (factor : Value) (points : List Point) :
    cyclicSum (fun first second => factor * value first second) points =
      factor * cyclicSum value points :=
  List.sum_map_mul_left ..

theorem pathSum_telescope {Value : Type*} [AddCommGroup Value] (height : Point → Value)
    (first : Point) (points : List Point) (last : Point) :
    pathSum (fun one two => height two - height one) (first :: points ++ [last]) =
      height last - height first := by
  induction points generalizing first with
  | nil => simp
  | cons second rest ih =>
      rw [List.cons_append, List.cons_append, pathSum_cons_cons, ← List.cons_append, ih]
      exact sub_add_sub_cancel' ..

/-- Around a closed path all differences of a height cancel. -/
theorem cyclicSum_telescope {Value : Type*} [AddCommGroup Value] (height : Point → Value)
    (points : List Point) :
    cyclicSum (fun one two => height two - height one) points = 0 := by
  cases points with
  | nil => rfl
  | cons first rest => exact (pathSum_telescope height first rest first).trans (sub_self _)

/-- What differs from another value by the rise of a height has the same sum around. -/
theorem cyclicSum_eq_of_rise {Value : Type*} [AddCommGroup Value]
    (value other : Point → Point → Value) (height : Point → Value)
    (differs : ∀ first second, value first second = other first second +
      (height second - height first)) (points : List Point) :
    cyclicSum value points = cyclicSum other points := by
  have parts : value = fun first second => other first second + (height second - height first) :=
    funext fun first => funext fun second => differs first second
  rw [parts, cyclicSum_add, cyclicSum_telescope, add_zero]

/-- A value that changes its sign with the direction does so all the way round. -/
theorem cyclicSum_reverse_of_odd {Value : Type*} [AddCommGroup Value]
    (value : Point → Point → Value) (odd : ∀ first second, value second first = -value first second)
    (points : List Point) : cyclicSum value points.reverse = -cyclicSum value points := by
  have turned : (fun first second => value second first) =
      fun first second => negAddMonoidHom (value first second) :=
    funext fun first => funext fun second => odd first second
  rw [cyclicSum_reverse, turned, ← map_cyclicSum]
  rfl

end Nise.Lib.CyclicSum
