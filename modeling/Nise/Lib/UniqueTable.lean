import Mathlib.Data.List.Pairwise

/-!
# Tables with several unique keys

A table holds records of which no two clash, that is, share one of the unique keys.
Binding a record that clashes with one already there leaves the table unchanged.
-/

namespace Nise.Lib

/-- Records in the order in which they were bound, no two of which clash. -/
structure UniqueTable (Record : Type*) (Clash : Record → Record → Prop) where
  records : List Record
  unique : records.Pairwise fun first second => ¬ Clash first second

namespace UniqueTable

variable {Record : Type*} {Clash : Record → Record → Prop}

def empty : UniqueTable Record Clash := ⟨[], List.Pairwise.nil⟩

/-- Insert a record, unless it clashes with one of the table. -/
def bind [DecidableRel Clash] (table : UniqueTable Record Clash) (record : Record) :
    UniqueTable Record Clash :=
  if apart : ∀ bound ∈ table.records, ¬ Clash bound record then
    { records := table.records ++ [record]
      unique := List.pairwise_append.mpr ⟨table.unique, List.pairwise_singleton _ _, by
        intro bound member last single
        rw [List.mem_singleton.mp single]
        exact apart bound member⟩ }
  else table

/-- Remove the records with a property. -/
def unbind (table : UniqueTable Record Clash) (gone : Record → Bool) :
    UniqueTable Record Clash where
  records := table.records.filter fun record => !gone record
  unique := table.unique.filter _

def find? (table : UniqueTable Record Clash) (wanted : Record → Bool) : Option Record :=
  table.records.find? wanted

theorem mem_bind [DecidableRel Clash] {table : UniqueTable Record Clash} {record other : Record}
    (member : other ∈ (table.bind record).records) :
    other ∈ table.records ∨ other = record := by
  unfold bind at member
  split at member
  · rcases List.mem_append.mp member with old | new
    · exact .inl old
    · exact .inr (List.mem_singleton.mp new)
  · exact .inl member

theorem mem_bind_of_mem [DecidableRel Clash] {table : UniqueTable Record Clash}
    {record other : Record} (member : other ∈ table.records) :
    other ∈ (table.bind record).records := by
  unfold bind
  split
  · exact List.mem_append_left _ member
  · exact member

theorem bind_of_clash [DecidableRel Clash] {table : UniqueTable Record Clash}
    {bound record : Record} (member : bound ∈ table.records) (clash : Clash bound record) :
    table.bind record = table := by
  unfold bind
  exact dif_neg fun apart => apart bound member clash

theorem records_bind_of_apart [DecidableRel Clash] {table : UniqueTable Record Clash}
    {record : Record} (apart : ∀ bound ∈ table.records, ¬ Clash bound record) :
    (table.bind record).records = table.records ++ [record] := by
  unfold bind
  rw [dif_pos apart]

/-- What singles out a unique key finds the record that is there. -/
theorem find?_eq_some {table : UniqueTable Record Clash} {wanted : Record → Bool}
    (unique : ∀ first second, wanted first → wanted second → Clash first second)
    {record : Record} (member : record ∈ table.records) (matching : wanted record) :
    table.find? wanted = some record := by
  obtain ⟨records, apart⟩ := table
  change records.find? wanted = some record
  induction records with
  | nil => cases member
  | cons first rest ih =>
      rw [List.pairwise_cons] at apart
      rcases List.mem_cons.mp member with rfl | later
      · exact List.find?_cons_of_pos matching
      · have other : wanted first ≠ true := fun same =>
          apart.1 record later (unique first record same matching)
        rw [List.find?_cons_of_neg other]
        exact ih apart.2 later

theorem find?_eq_none {table : UniqueTable Record Clash} {wanted : Record → Bool} :
    table.find? wanted = none ↔ ∀ record ∈ table.records, ¬ wanted record :=
  List.find?_eq_none

@[simp] theorem mem_unbind {table : UniqueTable Record Clash} {gone : Record → Bool}
    {record : Record} :
    record ∈ (table.unbind gone).records ↔ record ∈ table.records ∧ gone record = false := by
  unfold unbind
  simp

end UniqueTable

end Nise.Lib
