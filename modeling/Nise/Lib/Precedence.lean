import Mathlib.Data.List.Induction
import Mathlib.Order.Lattice

/-!
# Precedence by overwriting

A text is looked up in scopes one after the other, and each scope that has one overwrites what was
there.  If the scopes are walked from the lowest to the highest, the highest one that has a text
gives it.
-/

namespace Nise.Lib.Precedence

variable {Scope Text : Type*}

def overwrite (supplied : Scope → Option Text) (start : Text) (scopes : List Scope) : Text :=
  scopes.foldl (fun text scope => (supplied scope).getD text) start

@[simp] theorem overwrite_cons (supplied : Scope → Option Text) (start : Text) (scope : Scope)
    (scopes : List Scope) :
    overwrite supplied start (scope :: scopes) =
      overwrite supplied ((supplied scope).getD start) scopes := rfl

@[simp] theorem overwrite_concat (supplied : Scope → Option Text) (start : Text)
    (scopes : List Scope) (last : Scope) :
    overwrite supplied start (scopes ++ [last]) =
      (supplied last).getD (overwrite supplied start scopes) :=
  List.foldl_append

variable [LinearOrder Scope]

/-- The highest scope that has a text. -/
structure Highest (supplied : Scope → Option Text) (scopes : List Scope) (best : Scope) : Prop where
  mem : best ∈ scopes
  isSome : (supplied best).isSome
  highest : ∀ other ∈ scopes, (supplied other).isSome → other ≤ best

theorem Highest.unique {supplied : Scope → Option Text} {scopes : List Scope} {first second : Scope}
    (one : Highest supplied scopes first) (two : Highest supplied scopes second) : first = second :=
  le_antisymm (two.highest first one.mem one.isSome) (one.highest second two.mem two.isSome)

theorem Highest.of_cons {supplied : Scope → Option Text} {scope : Scope} {scopes : List Scope}
    {best : Scope} (highest : Highest supplied (scope :: scopes) best) (other : best ≠ scope) :
    Highest supplied scopes best where
  mem := (List.mem_cons.mp highest.mem).resolve_left other
  isSome := highest.isSome
  highest := fun later member => highest.highest later (List.mem_cons_of_mem _ member)

/-- The text of the highest scope that has one, or the text there was before. -/
def Takes (supplied : Scope → Option Text) (start : Text) (scopes : List Scope) (text : Text) :
    Prop :=
  (∃ best, Highest supplied scopes best ∧ supplied best = some text) ∨
    (∀ scope ∈ scopes, supplied scope = none) ∧ text = start

theorem Takes.unique {supplied : Scope → Option Text} {start : Text} {scopes : List Scope}
    {first second : Text} (one : Takes supplied start scopes first)
    (two : Takes supplied start scopes second) : first = second := by
  have clash {best : Scope} (highest : Highest supplied scopes best)
      (unsupplied : ∀ scope ∈ scopes, supplied scope = none) : False := by
    have isSome := highest.isSome
    rw [unsupplied best highest.mem] at isSome
    cases isSome
  rcases one with ⟨best, highest, has⟩ | ⟨unsupplied, rfl⟩
  · rcases two with ⟨other, otherHighest, otherHas⟩ | ⟨unsupplied, _⟩
    · rw [highest.unique otherHighest, otherHas] at has
      exact (Option.some_inj.mp has).symm
    · exact (clash highest unsupplied).elim
  · rcases two with ⟨best, highest, _⟩ | ⟨_, rfl⟩
    · exact (clash highest unsupplied).elim
    · rfl

theorem highest_concat {supplied : Scope → Option Text} {scopes : List Scope} {last : Scope}
    (isSome : (supplied last).isSome) (below : ∀ other ∈ scopes, other < last) :
    Highest supplied (scopes ++ [last]) last := by
  refine ⟨List.mem_concat_self, isSome, ?_⟩
  intro other member _
  rcases List.mem_append.mp member with earlier | same
  · exact (below other earlier).le
  · exact le_of_eq (List.mem_singleton.mp same)

/-- A scope without a text changes nothing. -/
theorem Takes.concat {supplied : Scope → Option Text} {start text : Text} {scopes : List Scope}
    {last : Scope} (takes : Takes supplied start scopes text) (unsupplied : supplied last = none) :
    Takes supplied start (scopes ++ [last]) text := by
  rcases takes with ⟨best, highest, has⟩ | ⟨none, same⟩
  · refine .inl ⟨best, ⟨List.mem_append_left _ highest.mem, highest.isSome, ?_⟩, has⟩
    intro other member isSome
    rcases List.mem_append.mp member with earlier | same
    · exact highest.highest other earlier isSome
    · rw [List.mem_singleton.mp same, unsupplied] at isSome
      cases isSome
  · refine .inr ⟨?_, same⟩
    intro scope member
    rcases List.mem_append.mp member with earlier | same
    · exact none scope earlier
    · rw [List.mem_singleton.mp same, unsupplied]

/-- Overwriting from the lowest scope to the highest one keeps the text of the highest. -/
theorem takes_overwrite (supplied : Scope → Option Text) (start : Text) (scopes : List Scope)
    (sorted : scopes.Pairwise (· < ·)) :
    Takes supplied start scopes (overwrite supplied start scopes) := by
  induction scopes using List.reverseRecOn with
  | nil => exact .inr ⟨fun _ none => absurd none List.not_mem_nil, rfl⟩
  | append_singleton before last ih =>
      obtain ⟨sortedBefore, _, below⟩ := List.pairwise_append.mp sorted
      rw [overwrite_concat]
      cases has : supplied last with
      | none => exact (ih sortedBefore).concat has
      | some text =>
          refine .inl ⟨last, highest_concat (by rw [has]; rfl) ?_, has⟩
          intro other earlier
          exact below other earlier last List.mem_cons_self

theorem takes_iff (supplied : Scope → Option Text) (start : Text) {scopes : List Scope}
    (sorted : scopes.Pairwise (· < ·)) (text : Text) :
    Takes supplied start scopes text ↔ text = overwrite supplied start scopes := by
  constructor
  · intro takes
    exact takes.unique (takes_overwrite supplied start scopes sorted)
  · rintro rfl
    exact takes_overwrite supplied start scopes sorted

theorem takes_self_iff (supplied : Scope → Option Text) (text : Text) {scopes : List Scope}
    (sorted : scopes.Pairwise (· < ·)) :
    Takes supplied text scopes text ↔
      ∀ best, Highest supplied scopes best → supplied best = some text := by
  constructor
  · rintro (⟨best, highest, has⟩ | ⟨unsupplied, _⟩) other otherHighest
    · rwa [otherHighest.unique highest]
    · have isSome := otherHighest.isSome
      rw [unsupplied other otherHighest.mem] at isSome
      cases isSome
  · intro same
    rcases takes_overwrite supplied text scopes sorted with ⟨best, highest, _⟩ | ⟨unsupplied, _⟩
    · exact .inl ⟨best, highest, same best highest⟩
    · exact .inr ⟨unsupplied, rfl⟩

section Skipped

-- Some scopes may have a text that is not written.
variable {written supplied : Scope → Option Text}
  (part : ∀ scope text, written scope = some text → supplied scope = some text)

include part

theorem Highest.takes_written {start text : Text} {scopes : List Scope} {best : Scope}
    (highest : Highest supplied scopes best) (has : written best = some text) :
    Takes written start scopes text := by
  refine .inl ⟨best, ⟨highest.mem, by rw [has]; rfl, ?_⟩, has⟩
  intro other member isSome
  obtain ⟨otherText, otherHas⟩ := Option.isSome_iff_exists.mp isSome
  exact highest.highest other member (by rw [part other otherText otherHas]; rfl)

theorem takes_start_of_unsupplied (start : Text) {scopes : List Scope}
    (unsupplied : ∀ scope ∈ scopes, supplied scope = none) : Takes written start scopes start := by
  refine .inr ⟨?_, rfl⟩
  intro scope member
  cases has : written scope with
  | none => rfl
  | some text =>
      have none := unsupplied scope member
      rw [part scope text has] at none
      cases none

/-- The highest scope with a text gives it to what is written above the lowest one, if its own text
is written, or if what is written instead is the same. -/
theorem takes_written_of_highest {start text : Text} {lowest : Scope} {scopes : List Scope}
    {best : Scope} (unwritten : written lowest = none)
    (highest : Highest supplied (lowest :: scopes) best) (has : supplied best = some text)
    (skipped : written best = none → Takes written start scopes text) :
    Takes written start scopes text := by
  cases bestWritten : written best with
  | none => exact skipped bestWritten
  | some other =>
      have above : best ≠ lowest := by
        rintro rfl
        rw [unwritten] at bestWritten
        cases bestWritten
      rw [part best other bestWritten] at has
      cases has
      exact (highest.of_cons above).takes_written part bestWritten

/-- The lowest scope is walked last, so that it overwrites all others. -/
theorem takes_overwrite_concat_iff (start : Text) {lowest : Scope} {scopes : List Scope}
    (sorted : (lowest :: scopes).Pairwise (· < ·)) :
    Takes supplied start (lowest :: scopes) (overwrite written start (scopes ++ [lowest])) ↔
      (∀ text, written lowest = some text →
        ∀ best, Highest supplied scopes best → supplied best = some text) ∧
      (written lowest = none → ∀ best text, Highest supplied (lowest :: scopes) best →
        supplied best = some text → written best = none → Takes written start scopes text) := by
  have sortedScopes := (List.pairwise_cons.mp sorted).2
  rw [overwrite_concat]
  cases has : written lowest with
  | some text =>
      have self := takes_self_iff supplied text sortedScopes
      rw [takes_iff _ _ sortedScopes] at self
      rw [takes_iff _ _ sorted, overwrite_cons, part lowest text has]
      constructor
      · intro same
        constructor
        · intro other written
          cases written
          exact self.mp same
        · intro unwritten
          cases unwritten
      · rintro ⟨kept, _⟩
        exact self.mpr (kept text rfl)
  | none =>
      have takesWritten := takes_overwrite written start scopes sortedScopes
      rw [Option.getD_none]
      constructor
      · intro takes
        constructor
        · intro text written
          cases written
        · intro _ best text highest bestHas _
          rw [Takes.unique (.inl ⟨best, highest, bestHas⟩) takes]
          exact takesWritten
      · rintro ⟨_, skipped⟩
        rcases takes_overwrite supplied start (lowest :: scopes) sorted with
          ⟨best, highest, bestHas⟩ | ⟨unsupplied, _⟩
        · have takesBest := takes_written_of_highest part has highest bestHas
            (skipped rfl best _ highest bestHas)
          rw [takesWritten.unique takesBest]
          exact .inl ⟨best, highest, bestHas⟩
        · have takesStart := takes_start_of_unsupplied part start
            fun scope member => unsupplied scope (List.mem_cons_of_mem _ member)
          exact .inr ⟨unsupplied, takesWritten.unique takesStart⟩

end Skipped

end Nise.Lib.Precedence
