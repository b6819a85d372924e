import Mathlib.Algebra.Order.Group.Nat
import Mathlib.Data.List.Basic

/-!
# Lists in blocks

A list whose length is divided by a number is made of blocks of that length.
-/

namespace Nise.Lib.Blocks

variable {α : Type*} {count : Nat}

/-- All blocks have the same length. -/
def Of (count : Nat) (blocks : List (List α)) : Prop := ∀ block ∈ blocks, block.length = count

theorem Of.reverse {blocks : List (List α)} (same : Of count blocks) : Of count blocks.reverse :=
  fun block member => same block (List.mem_reverse.mp member)

theorem Of.map_reverse {blocks : List (List α)} (same : Of count blocks) :
    Of count (blocks.map List.reverse) := by
  intro block member
  obtain ⟨original, there, rfl⟩ := List.mem_map.mp member
  rw [List.length_reverse]
  exact same original there

theorem map_reverse_map_reverse (blocks : List (List α)) :
    (blocks.map List.reverse).map List.reverse = blocks := by
  rw [List.map_map, List.reverse_involutive.comp_self, List.map_id]

/-- A list is made of blocks of any length that divides its own. -/
theorem exists_of_dvd {list : List α} (divides : count ∣ list.length) :
    ∃ blocks, Of count blocks ∧ blocks.flatten = list := by
  obtain ⟨number, length⟩ := divides
  induction number generalizing list with
  | zero => exact ⟨[], nofun, (List.eq_nil_of_length_eq_zero length).symm⟩
  | succ number ih =>
      rw [Nat.mul_succ] at length
      have shorter : (list.drop count).length = count * number := by
        rw [List.length_drop]
        omega
      obtain ⟨blocks, same, whole⟩ := ih shorter
      refine ⟨list.take count :: blocks, ?_, ?_⟩
      · intro block member
        rcases List.mem_cons.mp member with rfl | later
        · exact List.length_take_of_le (by omega)
        · exact same block later
      · rw [List.flatten_cons, whole, List.take_append_drop]

end Nise.Lib.Blocks
