import Mathlib.Data.List.Pairwise

/-!
# Loops over a container that the body may change

An iterator of a node-based container stays valid as long as its element is in the
container.  A loop that takes one step after each run of its body therefore passes over
the elements that were removed before it got to them, and is lost when the body removes
the element it stands on, or the element that its end iterator stands on.
-/

namespace Nise.Lib

structure ContainerLoop (State Item : Type*) where
  present : State → Item → Bool
  body : State → Item → State

namespace ContainerLoop

variable {State Item : Type*} (loop : ContainerLoop State Item) (last : Option Item)

/-- Walk over what was in the container at the start, up to the element that the end iterator
stands on.  The result is the final state and the elements visited, or none when an iterator
without an element is used. -/
def run : State → List Item → Option (State × List Item)
  | state, [] => some (state, [])
  | state, item :: rest =>
      if loop.present state item then
        let next := loop.body state item
        if loop.present next item && last.all (loop.present next) then
          (run next rest).map fun out => (out.1, item :: out.2)
        else none
      else run state rest

/-- Every element that was there at the start is visited once, and no iterator is lost. -/
def Complete (state : State) (items : List Item) : Prop :=
  ∃ final, loop.run last state items = some (final, items)

variable {loop last}

/-- Where nothing is ever inserted, what is visited has been there from the start. -/
theorem present_of_visited
    (shrinks : ∀ state item other, loop.present (loop.body state item) other = true →
      loop.present state other = true)
    {state final : State} {items visited : List Item}
    (ran : loop.run last state items = some (final, visited)) :
    ∀ item ∈ visited, loop.present state item = true := by
  induction items generalizing state visited with
  | nil =>
      cases ran
      intro item member
      cases member
  | cons first rest ih =>
      unfold run at ran
      split at ran
      · next here =>
          dsimp only at ran
          split at ran
          · obtain ⟨⟨reached, others⟩, further, same⟩ := Option.map_eq_some_iff.mp ran
            cases same
            intro item member
            rcases List.mem_cons.mp member with now | later
            · rw [now]
              exact here
            · exact shrinks state first item (ih further item later)
          · cases ran
      · exact ih ran

/-- The first round leaves both iterators on their elements, and the rest is complete. -/
theorem complete_cons {state : State} {item : Item} {rest : List Item}
    (here : loop.present state item = true) :
    loop.Complete last state (item :: rest) ↔
      loop.present (loop.body state item) item = true ∧
        last.all (loop.present (loop.body state item)) = true ∧
        loop.Complete last (loop.body state item) rest := by
  unfold Complete
  rw [run, if_pos here]
  dsimp only
  constructor
  · rintro ⟨final, ran⟩
    split at ran
    · next valid =>
        obtain ⟨⟨reached, others⟩, further, same⟩ := Option.map_eq_some_iff.mp ran
        cases same
        rw [Bool.and_eq_true] at valid
        exact ⟨valid.1, valid.2, reached, further⟩
    · cases ran
  · rintro ⟨own, fence, final, further⟩
    refine ⟨final, ?_⟩
    rw [if_pos (Bool.and_eq_true_iff.mpr ⟨own, fence⟩), further]
    rfl

/-- Bodies that remove the same spare the same. -/
theorem spared_congr {Removes Later : Item → Item → Prop} {items : List Item}
    (same : ∀ item ∈ items, ∀ other, Removes item other ↔ Later item other)
    (last : Option Item) :
    ((∀ item ∈ items, ¬ Removes item item) ∧
        items.Pairwise (fun item later => ¬ Removes item later) ∧
        ∀ item ∈ items, ∀ beyond ∈ last, ¬ Removes item beyond) ↔
      (∀ item ∈ items, ¬ Later item item) ∧
        items.Pairwise (fun item later => ¬ Later item later) ∧
        ∀ item ∈ items, ∀ beyond ∈ last, ¬ Later item beyond := by
  refine and_congr ?_ (and_congr ?_ ?_)
  · exact forall₂_congr fun item member => not_congr (same item member item)
  · exact List.Pairwise.iff_of_mem fun member _ => not_congr (same _ member _)
  · exact forall₂_congr fun item member =>
      forall₂_congr fun beyond _ => not_congr (same item member beyond)

/--
When the body for one element removes another exactly if `Removes` says so, and does not
change what the bodies for the later elements remove, a loop is complete exactly if no
body removes its own element, a later one, or that of the end iterator.
-/
theorem complete_iff (Removes : State → Item → Item → Prop) (Apart : Item → Item → Prop)
    (shrinks : ∀ state item other, loop.present (loop.body state item) other = true →
      loop.present state other = true)
    (removes : ∀ state item other, loop.present state other = true →
      (loop.present (loop.body state item) other = true ↔ ¬ Removes state item other))
    (stable : ∀ state item later other, Apart item later → ¬ Removes state item item →
      (Removes (loop.body state item) later other ↔ Removes state later other))
    {state : State} {items : List Item} (apart : items.Pairwise Apart)
    (here : ∀ item ∈ items, loop.present state item = true)
    (bounded : ∀ item ∈ last, loop.present state item = true) :
    loop.Complete last state items ↔
      (∀ item ∈ items, ¬ Removes state item item) ∧
        items.Pairwise (fun item later => ¬ Removes state item later) ∧
        ∀ item ∈ items, ∀ beyond ∈ last, ¬ Removes state item beyond := by
  induction items generalizing state with
  | nil => simp [Complete, run]
  | cons first rest ih =>
      rw [List.pairwise_cons] at apart
      rw [List.forall_mem_cons] at here
      have own := removes state first first here.1
      have fence : last.all (loop.present (loop.body state first)) = true ↔
          ∀ beyond ∈ last, ¬ Removes state first beyond := by
        cases last with
        | none => simp
        | some beyond => simpa using removes state first beyond (bounded beyond rfl)
      rw [List.pairwise_cons, List.forall_mem_cons, List.forall_mem_cons, complete_cons here.1,
        own, fence]
      by_cases kept : ∀ later ∈ rest, ¬ Removes state first later
      · by_cases valid : ¬ Removes state first first ∧ ∀ beyond ∈ last, ¬ Removes state first beyond
        · have still : ∀ later ∈ rest, ∀ other,
              Removes (loop.body state first) later other ↔ Removes state later other := by
            intro later member other
            exact stable state first later other (apart.1 later member) valid.1
          have further := ih apart.2
            (fun later member =>
              (removes state first later (here.2 later member)).mpr (kept later member))
            (fun beyond member =>
              (removes state first beyond (bounded beyond member)).mpr (valid.2 beyond member))
          rw [further, spared_congr still]
          constructor
          · rintro ⟨ownKept, fenceKept, each, pairs, fences⟩
            exact ⟨⟨ownKept, each⟩, ⟨kept, pairs⟩, fenceKept, fences⟩
          · rintro ⟨⟨ownKept, each⟩, ⟨-, pairs⟩, fenceKept, fences⟩
            exact ⟨ownKept, fenceKept, each, pairs, fences⟩
        · exact iff_of_false (fun all => valid ⟨all.1, all.2.1⟩)
            (fun all => valid ⟨all.1.1, all.2.2.1⟩)
      · refine iff_of_false ?_ fun all => kept all.2.1.1
        rintro ⟨-, -, final, ran⟩
        refine kept fun later member => ?_
        rw [← removes state first later (here.2 later member)]
        exact present_of_visited shrinks ran later member

end ContainerLoop

end Nise.Lib
