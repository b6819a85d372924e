import Mathlib.Data.List.Basic
import Mathlib.Data.List.Induction

/-!
# Paths by their components

A path is a list of steps that stay, go up to the parent or go down to a name.  It is resolved
without looking at any file: a step up takes back the last step down.  Where there is nothing to
take back, an absolute path stays at the root, and a relative one goes up from where it starts.
-/

namespace Nise.Lib.LexicalPath

variable {Name : Type*}

inductive Step (Name : Type*) where
  | stay
  | up
  | down (name : Name)
  deriving DecidableEq, Repr

/-- A place: some levels up, and then down along some names. -/
structure Place (Name : Type*) where
  ups : Nat
  names : List Name
  deriving DecidableEq, Repr

def follow (absolute : Bool) (place : Place Name) : Step Name → Place Name
  | .stay => place
  | .up =>
      if place.names = [] then
        if absolute then place else { place with ups := place.ups + 1 }
      else { place with names := place.names.dropLast }
  | .down name => { place with names := place.names ++ [name] }

def followAll (absolute : Bool) (place : Place Name) (steps : List (Step Name)) : Place Name :=
  steps.foldl (follow absolute) place

/-- The place of a path. -/
def resolve (absolute : Bool) (steps : List (Step Name)) : Place Name :=
  followAll absolute ⟨0, []⟩ steps

/-- A place is at or below another one. -/
def Under (base place : Place Name) : Prop :=
  place.ups = base.ups ∧ base.names <+: place.names

instance [DecidableEq Name] (base place : Place Name) : Decidable (Under base place) :=
  inferInstanceAs (Decidable (_ ∧ _))

theorem resolve_append (absolute : Bool) (first second : List (Step Name)) :
    resolve absolute (first ++ second) = followAll absolute (resolve absolute first) second := by
  unfold resolve followAll
  rw [List.foldl_append]

/-- The place that is reached from a place by going up some levels and then down. -/
def climb (absolute : Bool) (place climbed : Place Name) : Place Name where
  ups := if absolute then place.ups else place.ups + (climbed.ups - place.names.length)
  names := place.names.take (place.names.length - climbed.ups) ++ climbed.names

section Up

variable (absolute : Bool) (place : Place Name) {levels : Nat}

theorem follow_climb_up_inside (inside : levels < place.names.length) :
    follow absolute (climb absolute place ⟨levels, []⟩) .up =
      climb absolute place ⟨levels + 1, []⟩ := by
  have nonempty : place.names.take (place.names.length - levels) ≠ [] := by
    rw [Ne, List.take_eq_nil_iff]
    rintro (zero | none)
    · omega
    · rw [none] at inside
      exact Nat.not_lt_zero _ inside
  have level : levels - place.names.length = levels + 1 - place.names.length := by omega
  have shorter : (place.names.take (place.names.length - levels)).dropLast =
      place.names.take (place.names.length - (levels + 1)) := by
    rw [List.dropLast_eq_take, List.take_take, List.length_take]
    congr 1
    omega
  dsimp only [follow, climb]
  rw [List.append_nil, List.append_nil, if_neg nonempty, shorter, level]

/-- At the top an absolute path stays where it is. -/
theorem follow_climb_up_outside (outside : place.names.length ≤ levels) :
    follow absolute (climb absolute place ⟨levels, []⟩) .up =
      climb absolute place ⟨levels + 1, []⟩ := by
  have level : levels + 1 - place.names.length = levels - place.names.length + 1 := by omega
  dsimp only [follow, climb]
  rw [Nat.sub_eq_zero_of_le outside, Nat.sub_eq_zero_of_le (Nat.le_succ_of_le outside),
    List.take_zero, List.append_nil, if_pos rfl, level]
  cases absolute with
  | true => rfl
  | false => rfl

end Up

theorem follow_climb (absolute : Bool) (place climbed : Place Name) (step : Step Name) :
    follow absolute (climb absolute place climbed) step =
      climb absolute place (follow false climbed step) := by
  cases step with
  | stay => rfl
  | up =>
      obtain ⟨levels, names⟩ := climbed
      by_cases empty : names = []
      · subst empty
        have own : follow false (⟨levels, []⟩ : Place Name) .up = ⟨levels + 1, []⟩ := rfl
        rw [own]
        rcases Nat.lt_or_ge levels place.names.length with inside | outside
        · exact follow_climb_up_inside absolute place inside
        · exact follow_climb_up_outside absolute place outside
      · have nonempty : place.names.take (place.names.length - levels) ++ names ≠ [] :=
          List.append_ne_nil_of_right_ne_nil _ empty
        dsimp only [follow, climb]
        rw [if_neg nonempty, if_neg empty, List.dropLast_append_of_ne_nil empty]
  | down name => simp [follow, climb]

/-- Following a relative path goes as many levels up as its place has, and then down. -/
theorem followAll_eq (absolute : Bool) (place : Place Name) (steps : List (Step Name)) :
    followAll absolute place steps = climb absolute place (resolve false steps) := by
  induction steps using List.reverseRecOn with
  | nil => simp [followAll, resolve, climb]
  | append_singleton steps step ih =>
      have last : followAll absolute place (steps ++ [step]) =
          follow absolute (followAll absolute place steps) step := by
        unfold followAll
        rw [List.foldl_append]
        rfl
      rw [last, ih, follow_climb, resolve_append]
      rfl

/-- A path from a place stays under it exactly if it comes down again by the names that it has
gone up by, and a relative one does not go up beyond its names. -/
theorem under_followAll_iff (absolute : Bool) (base : Place Name) (steps : List (Step Name)) :
    Under base (followAll absolute base steps) ↔
      (absolute = true ∨ (resolve false steps).ups ≤ base.names.length) ∧
        base.names.drop (base.names.length - (resolve false steps).ups) <+:
          (resolve false steps).names := by
  rw [followAll_eq]
  unfold Under climb
  dsimp only
  refine and_congr ?_ ?_
  · cases absolute with
    | true => simp
    | false => simp [Nat.sub_eq_zero_iff_le]
  · have parts := List.take_append_drop (base.names.length - (resolve false steps).ups) base.names
    nth_rewrite 1 [← parts]
    exact List.prefix_append_right_inj _

end Nise.Lib.LexicalPath
