import Mathlib.Data.List.Basic

/-!
# Runs of guarded step functions

A system is a step function together with a guard that says which events its
surroundings may deliver in a state.  A run is a list of events, each admitted
by the guard at the state reached so far.  The rules below turn what one step
preserves into what every run preserves.
-/

namespace Nise.Lib

structure System (State Event : Type*) where
  step : State → Event → State
  guard : State → Event → Prop

namespace System

variable {State Event : Type*} (system : System State Event)

/-- The state reached by delivering the events one after another. -/
def exec (start : State) (events : List Event) : State :=
  events.foldl system.step start

/-- Every event of the list is admitted at the state in which it is delivered. -/
def Admits : State → List Event → Prop
  | _, [] => True
  | state, event :: rest => system.guard state event ∧ Admits (system.step state event) rest

/-- Strengthen the guard by a further condition on the state and the event. -/
def restrict (condition : State → Event → Prop) : System State Event where
  step := system.step
  guard state event := system.guard state event ∧ condition state event

instance decidableAdmits [guards : ∀ state event, Decidable (system.guard state event)] :
    ∀ start events, Decidable (system.Admits start events)
  | _, [] => isTrue trivial
  | start, event :: rest =>
      have := decidableAdmits (system.step start event) rest
      inferInstanceAs (Decidable (system.guard start event ∧
        system.Admits (system.step start event) rest))

instance decidableRestrict (condition : State → Event → Prop)
    [∀ state event, Decidable (system.guard state event)]
    [∀ state event, Decidable (condition state event)] (state : State) (event : Event) :
    Decidable ((system.restrict condition).guard state event) :=
  inferInstanceAs (Decidable (system.guard state event ∧ condition state event))

@[simp] theorem exec_nil (start : State) : system.exec start [] = start := rfl

@[simp] theorem exec_cons (start : State) (event : Event) (rest : List Event) :
    system.exec start (event :: rest) = system.exec (system.step start event) rest := rfl

theorem exec_append (start : State) (first second : List Event) :
    system.exec start (first ++ second) = system.exec (system.exec start first) second :=
  List.foldl_append

@[simp] theorem admits_nil (start : State) : system.Admits start [] := trivial

@[simp] theorem admits_cons (start : State) (event : Event) (rest : List Event) :
    system.Admits start (event :: rest) ↔
      system.guard start event ∧ system.Admits (system.step start event) rest :=
  Iff.rfl

theorem admits_append (start : State) (first second : List Event) :
    system.Admits start (first ++ second) ↔
      system.Admits start first ∧ system.Admits (system.exec start first) second := by
  induction first generalizing start with
  | nil => simp
  | cons event rest ih => simp [ih, and_assoc]

/-- Without a guard every run is admitted. -/
theorem admits_of_unguarded (unguarded : ∀ state event, system.guard state event)
    (start : State) (events : List Event) : system.Admits start events := by
  induction events generalizing start with
  | nil => trivial
  | cons event rest ih => exact ⟨unguarded start event, ih _⟩

theorem restrict_restrict (condition further : State → Event → Prop) :
    (system.restrict condition).restrict further =
      system.restrict fun state event => condition state event ∧ further state event := by
  unfold restrict
  congr
  funext state event
  exact propext and_assoc

/-- A weaker condition admits more runs. -/
theorem Admits.weaken {system : System State Event} {condition weaker : State → Event → Prop}
    (implies : ∀ state event, system.guard state event → condition state event →
      weaker state event)
    {start : State} {events : List Event}
    (admitted : (system.restrict condition).Admits start events) :
    (system.restrict weaker).Admits start events := by
  induction events generalizing start with
  | nil => trivial
  | cons event rest ih =>
      obtain ⟨⟨guarded, meets⟩, later⟩ := admitted
      exact ⟨⟨guarded, implies start event guarded meets⟩, ih later⟩

/-- What every admitted step preserves, every run preserves. -/
theorem invariant {Inv : State → Prop}
    (preserved : ∀ state event, Inv state → system.guard state event →
      Inv (system.step state event))
    {start : State} (initially : Inv start) {events : List Event}
    (admitted : system.Admits start events) : Inv (system.exec start events) := by
  induction events generalizing start with
  | nil => exact initially
  | cons event rest ih =>
      exact ih (preserved start event initially admitted.1) admitted.2

/-- A property of every state of a run, the first and the last included. -/
def Throughout (property : State → Prop) : State → List Event → Prop
  | state, [] => property state
  | state, event :: rest => property state ∧ Throughout property (system.step state event) rest

theorem throughout_head {property : State → Prop} {start : State} {events : List Event}
    (throughout : system.Throughout property start events) : property start := by
  cases events with
  | nil => exact throughout
  | cons event rest => exact throughout.1

/--
A run has a property throughout exactly if all of its steps meet a condition, when a
step that meets the condition keeps something stronger than the property, and a step that
does not meet it loses the property.
-/
theorem throughout_iff_restrict_of_strong (Strong : State → Prop) {property : State → Prop}
    {condition : State → Event → Prop} (weaken : ∀ state, Strong state → property state)
    (kept : ∀ state event, Strong state → system.guard state event →
      condition state event → Strong (system.step state event))
    (lost : ∀ state event, Strong state → system.guard state event →
      property (system.step state event) → condition state event)
    {start : State} (initially : Strong start) {events : List Event}
    (admitted : system.Admits start events) :
    system.Throughout property start events ↔
      (system.restrict condition).Admits start events := by
  induction events generalizing start with
  | nil => exact ⟨fun _ => trivial, fun _ => weaken start initially⟩
  | cons event rest ih =>
      constructor
      · rintro ⟨_, later⟩
        have next := system.throughout_head later
        have meets := lost start event initially admitted.1 next
        have still := kept start event initially admitted.1 meets
        exact ⟨⟨admitted.1, meets⟩, (ih still admitted.2).mp later⟩
      · rintro ⟨⟨_, meets⟩, later⟩
        have still := kept start event initially admitted.1 meets
        exact ⟨weaken start initially, (ih still admitted.2).mpr later⟩

/--
When a step out of a state with the property keeps it exactly if it meets the
condition, a run keeps it throughout exactly if all of its steps meet it.  The step
may rely on an invariant of all runs.
-/
theorem throughout_iff_restrict_of_invariant (Inv : State → Prop) {property : State → Prop}
    {condition : State → Event → Prop}
    (preserved : ∀ state event, Inv state → system.guard state event →
      Inv (system.step state event))
    (kept : ∀ state event, Inv state → property state → system.guard state event →
      (property (system.step state event) ↔ condition state event))
    {start : State} (invariantly : Inv start) (initially : property start) {events : List Event}
    (admitted : system.Admits start events) :
    system.Throughout property start events ↔
      (system.restrict condition).Admits start events := by
  refine system.throughout_iff_restrict_of_strong (fun state => Inv state ∧ property state)
    (fun _ strong => strong.2) ?_ ?_ ⟨invariantly, initially⟩ admitted
  · intro state event strong guarded meets
    exact ⟨preserved state event strong.1 guarded,
      (kept state event strong.1 strong.2 guarded).mpr meets⟩
  · intro state event strong guarded next
    exact (kept state event strong.1 strong.2 guarded).mp next

theorem throughout_iff_restrict {property : State → Prop} {condition : State → Event → Prop}
    (kept : ∀ state event, property state → system.guard state event →
      (property (system.step state event) ↔ condition state event))
    {start : State} (initially : property start) {events : List Event}
    (admitted : system.Admits start events) :
    system.Throughout property start events ↔
      (system.restrict condition).Admits start events := by
  refine system.throughout_iff_restrict_of_invariant (fun _ => True) ?_ ?_ trivial
    initially admitted
  · intro _ _ _ _
    trivial
  · intro state event _ now guarded
    exact kept state event now guarded

/--
A function from states to the states of another system that commutes with the steps
carries runs to runs.
-/
theorem exec_of_commutes {State' Event' : Type*} (abstract : System State' Event')
    {Inv : State → Prop} (states : State → State') (labels : Event → Event')
    (preserved : ∀ state event, Inv state → system.guard state event →
      Inv (system.step state event))
    (commutes : ∀ state event, Inv state → system.guard state event →
      abstract.guard (states state) (labels event) ∧
        states (system.step state event) = abstract.step (states state) (labels event))
    {start : State} (initially : Inv start) {events : List Event}
    (admitted : system.Admits start events) :
    abstract.Admits (states start) (events.map labels) ∧
      states (system.exec start events) = abstract.exec (states start) (events.map labels) := by
  induction events generalizing start with
  | nil => exact ⟨trivial, rfl⟩
  | cons event rest ih =>
      obtain ⟨guarded, same⟩ := commutes start event initially admitted.1
      obtain ⟨later, reached⟩ := ih (preserved start event initially admitted.1) admitted.2
      rw [List.map_cons, exec_cons, exec_cons, admits_cons, ← same]
      exact ⟨⟨guarded, later⟩, reached⟩

/-- A nonnegative measure that every admitted step decreases bounds the length of
every run. -/
theorem length_le_of_decreasing (Inv : State → Prop) (measure : State → Nat)
    (preserved : ∀ state event, Inv state → system.guard state event →
      Inv (system.step state event))
    (decreases : ∀ state event, Inv state → system.guard state event →
      measure (system.step state event) < measure state)
    {start : State} (initially : Inv start) {events : List Event}
    (admitted : system.Admits start events) : events.length ≤ measure start := by
  induction events generalizing start with
  | nil => exact Nat.zero_le _
  | cons event rest ih =>
      have shorter := ih (preserved start event initially admitted.1) admitted.2
      have less := decreases start event initially admitted.1
      rw [List.length_cons]
      omega

/-- Where some admitted event brings every unfinished state nearer to its end, every state can be
finished. -/
theorem exists_finishing_of_wellFounded {Distance : Type*} {nearer : Distance → Distance → Prop}
    (wellFounded : WellFounded nearer) (Inv Done : State → Prop) (distance : State → Distance)
    (progress : ∀ state, Inv state → ¬ Done state → ∃ event, system.guard state event ∧
      Inv (system.step state event) ∧ nearer (distance (system.step state event)) (distance state))
    (far : Distance) :
    ∀ state, distance state = far → Inv state →
      ∃ events, system.Admits state events ∧ Inv (system.exec state events) ∧
        Done (system.exec state events) := by
  induction far using wellFounded.induction with
  | h far ih =>
      intro state same holds
      by_cases done : Done state
      · exact ⟨[], trivial, holds, done⟩
      · obtain ⟨event, guarded, next, less⟩ := progress state holds done
        rw [same] at less
        obtain ⟨rest, admitted, still, finished⟩ := ih _ less _ rfl next
        exact ⟨event :: rest, ⟨guarded, admitted⟩, still, finished⟩

/-- Where some admitted event adds to the work that is done, and there is only so much to do, every
state can be finished. -/
theorem exists_finishing (Inv Done : State → Prop) (work : State → Nat) (bound : Nat)
    (bounded : ∀ state, Inv state → work state ≤ bound)
    (progress : ∀ state, Inv state → ¬ Done state → ∃ event, system.guard state event ∧
      Inv (system.step state event) ∧ work state < work (system.step state event))
    {state : State} (holds : Inv state) :
    ∃ events, system.Admits state events ∧ Inv (system.exec state events) ∧
      Done (system.exec state events) := by
  refine system.exists_finishing_of_wellFounded Nat.lt_wfRel.wf Inv Done
    (fun state => bound - work state) (fun state holds unfinished => ?_) _ state rfl holds
  obtain ⟨event, guarded, next, more⟩ := progress state holds unfinished
  have most := bounded _ next
  exact ⟨event, guarded, next, by change _ - _ < _ - _; omega⟩

end System

end Nise.Lib
