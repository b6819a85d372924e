import Mathlib.Data.List.TakeDrop

/-!
# Bounded histories

A history keeps the last items it has been given, the newest in front, and forgets the oldest
when it holds more than its limit.
-/

namespace Nise.Lib

variable {Item : Type*}

/-- Put an item in front and drop the last one if there are too many. -/
def keepLast (limit : Nat) (items : List Item) (item : Item) : List Item :=
  if limit < (item :: items).length then (item :: items).dropLast else item :: items

theorem keepLast_take (limit : Nat) (items : List Item) (item : Item) :
    keepLast limit (items.take limit) item = (item :: items).take limit := by
  unfold keepLast
  by_cases full : limit ≤ items.length
  · have length : (items.take limit).length = limit := List.length_take_of_le full
    have exceeds : limit < (item :: items.take limit).length := by
      rw [List.length_cons, length]
      exact Nat.lt_succ_self limit
    rw [if_pos exceeds, List.dropLast_eq_take, List.length_cons, length, Nat.add_sub_cancel]
    cases limit with
    | zero => rfl
    | succ count =>
        rw [List.take_succ_cons, List.take_succ_cons, List.take_take]
        congr 1
        exact congrArg (List.take · items) (Nat.min_eq_left (Nat.le_succ count))
  · have short : items.length < limit := Nat.lt_of_not_le full
    have all : items.take limit = items := List.take_of_length_le (Nat.le_of_lt short)
    have within : (item :: items).length ≤ limit := short
    rw [all, if_neg (Nat.not_lt_of_le within), List.take_of_length_le within]

end Nise.Lib
