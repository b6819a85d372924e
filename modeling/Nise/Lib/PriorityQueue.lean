import Mathlib.Data.List.Sort
import Mathlib.Data.Multiset.AddSub

/-!
# Priority queues

A priority queue holds a multiset of elements and gives out one of which no element is
greater.  Which one of several it gives out is left to the implementation, so the operations
are a structure with their laws.  Sorted lists are one implementation, for every decidable
strict weak order.
-/

namespace Nise.Lib

structure PriorityQueue (Queue Element : Type*) (less : Element → Element → Prop) where
  elements : Queue → Multiset Element
  empty : Queue
  push : Queue → Element → Queue
  top? : Queue → Option Element
  pop : Queue → Queue
  elements_empty : elements empty = 0
  elements_push : ∀ queue element, elements (push queue element) = element ::ₘ elements queue
  elements_of_none : ∀ queue, top? queue = none → elements queue = 0
  elements_pop : ∀ queue element, top? queue = some element →
    elements queue = element ::ₘ elements (pop queue)
  greatest : ∀ queue element, top? queue = some element →
    ∀ other ∈ elements queue, ¬ less element other

namespace PriorityQueue

variable {Queue Element : Type*} {less : Element → Element → Prop}
  (ops : PriorityQueue Queue Element less)

def size (queue : Queue) : Nat := (ops.elements queue).card

theorem elements_eq_zero {queue : Queue} :
    ops.elements queue = 0 ↔ ops.top? queue = none := by
  constructor
  · intro nothing
    cases top : ops.top? queue with
    | none => rfl
    | some element =>
        rw [ops.elements_pop queue element top] at nothing
        exact absurd nothing (Multiset.cons_ne_zero)
  · exact ops.elements_of_none queue

theorem size_pop {queue : Queue} {element : Element} (top : ops.top? queue = some element) :
    ops.size queue = ops.size (ops.pop queue) + 1 := by
  unfold size
  rw [ops.elements_pop queue element top, Multiset.card_cons]

theorem size_of_none {queue : Queue} (top : ops.top? queue = none) : ops.size queue = 0 := by
  unfold size
  rw [ops.elements_of_none queue top, Multiset.card_zero]

/-- Induction along the elements in the order in which they are given out. -/
theorem induction {motive : Queue → Prop} (empty : ∀ queue, ops.top? queue = none → motive queue)
    (pop : ∀ queue element, ops.top? queue = some element → motive (ops.pop queue) →
      motive queue) (queue : Queue) : motive queue := by
  generalize count : ops.size queue = size
  induction size generalizing queue with
  | zero =>
      cases top : ops.top? queue with
      | none => exact empty queue top
      | some element =>
          have := ops.size_pop top
          omega
  | succ size ih =>
      cases top : ops.top? queue with
      | none => exact empty queue top
      | some element =>
          have smaller := ops.size_pop top
          exact pop queue element top (ih (ops.pop queue) (by omega))

/-! ## Giving out all elements -/

/-- The first elements that the queue gives out. -/
def take : Nat → Queue → List Element
  | 0, _ => []
  | count + 1, queue =>
      match ops.top? queue with
      | none => []
      | some element => element :: take count (ops.pop queue)

/-- All elements in the order in which the queue gives them out. -/
def inOrder (queue : Queue) : List Element := ops.take (ops.size queue) queue

theorem inOrder_of_none {queue : Queue} (top : ops.top? queue = none) :
    ops.inOrder queue = [] := by
  unfold inOrder
  rw [ops.size_of_none top]
  rfl

theorem inOrder_of_some {queue : Queue} {element : Element}
    (top : ops.top? queue = some element) :
    ops.inOrder queue = element :: ops.inOrder (ops.pop queue) := by
  unfold inOrder
  rw [ops.size_pop top]
  simp only [take, top]

end PriorityQueue

/-! ## Sorted lists -/

section StrictWeakOrder

variable {Element : Type*} (less : Element → Element → Prop) [IsStrictWeakOrder Element less]

theorem notLess_trans {first second third : Element} (one : ¬ less first second)
    (two : ¬ less second third) : ¬ less first third := by
  intro greater
  by_cases back : less second first
  · exact two (IsTrans.trans _ _ _ back greater)
  · by_cases further : less third second
    · exact one (IsTrans.trans _ _ _ greater further)
    · exact (IsStrictWeakOrder.incomp_trans _ _ _ ⟨one, back⟩ ⟨two, further⟩).1 greater

instance isTrans_notLess : IsTrans Element fun first second => ¬ less first second where
  trans _ _ _ := notLess_trans less

instance total_notLess : Std.Total fun first second : Element => ¬ less first second where
  total first second := by
    by_cases before : less first second
    · exact .inr (asymm before)
    · exact .inl before

end StrictWeakOrder

/-- Lists in which no element is less than a later one. -/
structure SortedList {Element : Type*} (less : Element → Element → Prop) where
  entries : List Element
  sorted : entries.Pairwise fun first second => ¬ less first second

theorem SortedList.sorted_nil {Element : Type*} (less : Element → Element → Prop) :
    ([] : List Element).Pairwise fun first second => ¬ less first second :=
  List.Pairwise.nil

/-- Sorted lists are priority queues. -/
def SortedList.ops {Element : Type*} (less : Element → Element → Prop) [DecidableRel less]
    [IsStrictWeakOrder Element less] : PriorityQueue (SortedList less) Element less where
  elements queue := queue.entries
  empty := ⟨[], SortedList.sorted_nil less⟩
  push queue element :=
    ⟨queue.entries.orderedInsert (fun first second => ¬ less first second) element,
      queue.sorted.orderedInsert element _⟩
  top? queue := queue.entries.head?
  pop queue := ⟨queue.entries.tail, queue.sorted.tail⟩
  elements_empty := rfl
  elements_push queue element :=
    Multiset.coe_eq_coe.mpr (List.perm_orderedInsert _ element queue.entries)
  elements_of_none queue top := by
    rw [List.head?_eq_none_iff.mp top]
    rfl
  elements_pop queue element top := by
    obtain ⟨rest, same⟩ := List.head?_eq_some_iff.mp top
    simp only [same, List.tail_cons]
    rfl
  greatest queue element top other member greater := by
    obtain ⟨rest, same⟩ := List.head?_eq_some_iff.mp top
    have sorted := queue.sorted
    rw [same, List.pairwise_cons] at sorted
    rw [same] at member
    rcases List.mem_cons.mp (Multiset.mem_coe.mp member) with rfl | later
    · exact irrefl other greater
    · exact sorted.1 other later greater

end Nise.Lib
