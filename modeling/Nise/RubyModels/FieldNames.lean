import Nise.RubyModels.Link16Message

/-!
# The names of the fields of a Link-16 message

A name that is declared once more was to get a running number.  It is looked up as a string among
the instance variables, which are symbols, so that it is never found, and every field keeps the
name with which it was declared.
-/

namespace Nise.RubyModels

namespace Link16Message

/-- The names of the fields, the last declared one first. -/
def names (message : Link16Message) : List String := message.msgItems.map Prod.fst

theorem string_not_mem_instanceVariables (message : Link16Message) (text : String) :
    .string text ∉ message.instanceVariables := by
  intro listed
  obtain ⟨name, -, impossible⟩ := List.mem_map.mp listed
  cases impossible

/-- One declaration. -/
theorem names_type {message next : Link16Message} {declaration : String × FieldExample}
    (typed : message.type declaration = some next) :
    next.names = declaration.1 :: message.names ∧
      next.fieldUniquifier = message.fieldUniquifier := by
  unfold type at typed
  obtain ⟨field, -, made⟩ := Option.bind_eq_some_iff.mp typed
  have new := message.string_not_mem_instanceVariables ("@" ++ declaration.1)
  cases made
  unfold names
  dsimp only
  rw [if_neg new, if_neg new]
  exact ⟨rfl, rfl⟩

/-- The fields are named as they were declared, and no number is ever given out. -/
theorem names_declarations {declarations : List (String × FieldExample)}
    {message layout : Link16Message} (declared : declarations.foldlM type message = some layout) :
    layout.names = (declarations.map Prod.fst).reverse ++ message.names ∧
      layout.fieldUniquifier = message.fieldUniquifier := by
  induction declarations generalizing message with
  | nil =>
      cases declared
      exact ⟨rfl, rfl⟩
  | cons declaration rest ih =>
      rw [List.foldlM_cons] at declared
      obtain ⟨next, typed, later⟩ := Option.bind_eq_some_iff.mp declared
      obtain ⟨named, unnumbered⟩ := names_type typed
      obtain ⟨all, still⟩ := ih later
      refine ⟨?_, still.trans unnumbered⟩
      rw [all, named, List.map_cons, List.reverse_cons, List.append_assoc, List.singleton_append]

/-- The names of a layout are distinct exactly if no name is declared twice. -/
theorem field_names_distinct_iff {declarations : List (String × FieldExample)}
    {layout : Link16Message} (declared : declare declarations = some layout) :
    layout.names.Nodup ↔ (declarations.map Prod.fst).Nodup := by
  have named : layout.names = (declarations.map Prod.fst).reverse ++ [] :=
    (names_declarations declared).1
  rw [named, List.append_nil, List.nodup_reverse]

/-- Fields with different names, one of which looks like that of a field with a number. -/
def declaredOnce : List (String × FieldExample) :=
  [("altitude_", .width 4), ("altitude_1_", .width 4), ("speed_", .width 8)]

theorem field_names_distinct_declaredOnce :
    ∃ layout, declare declaredOnce = some layout ∧ layout.names.Nodup := by
  have declared : ∃ layout, declare declaredOnce = some layout := ⟨_, rfl⟩
  obtain ⟨layout, declared⟩ := declared
  exact ⟨layout, declared, (field_names_distinct_iff declared).mpr (by decide)⟩

/-- A field that is declared twice keeps its name. -/
theorem declared_name_taken :
    ¬ ∀ (declarations : List (String × FieldExample)) (layout : Link16Message),
      declare declarations = some layout → layout.names.Nodup := by
  intro distinct
  have declared : ∃ layout,
      declare [("speed_", .width 8), ("speed_", .width 8)] = some layout ∧
        layout.names = ["speed_", "speed_"] := ⟨_, rfl, rfl⟩
  obtain ⟨layout, declared, names⟩ := declared
  have nodup := distinct _ layout declared
  rw [names] at nodup
  exact absurd nodup (by decide)

end Link16Message

end Nise.RubyModels
