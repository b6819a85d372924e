import Nise.Lib.Barrier
import Mathlib.Data.List.Perm.Basic

/-!
# Rounds of messages

A handler that collects messages says with each of them whether it was the last one of its
round.  A set barrier looks at the senders and a counter only at the number of messages; they
agree on rounds in which everybody sends one message, if the counter is set to their number.
-/

namespace Nise.Lib

variable {State Message : Type*} (arrive : State → Message → State × Bool)

/-- For each message, whether it completes a round. -/
def signals : State → List Message → List Bool
  | _, [] => []
  | state, message :: rest =>
      (arrive state message).2 :: signals (arrive state message).1 rest

def afterMessages (state : State) (messages : List Message) : State :=
  messages.foldl (fun state message => (arrive state message).1) state

theorem signals_append (state : State) (first second : List Message) :
    signals arrive state (first ++ second) =
      signals arrive state first ++ signals arrive (afterMessages arrive state first) second := by
  induction first generalizing state with
  | nil => rfl
  | cons message rest ih => exact congrArg _ (ih (arrive state message).1)

theorem length_signals (state : State) (messages : List Message) :
    (signals arrive state messages).length = messages.length := by
  induction messages generalizing state with
  | nil => rfl
  | cons message rest ih => exact congrArg (· + 1) (ih (arrive state message).1)

/-- A handler gives the signals of another one that does the same on a part of its state. -/
theorem signals_of_commutes {State' : Type*} {arrive' : State' → Message → State' × Bool}
    (Inv : State → Prop) (project : State → State')
    (same : ∀ state message, Inv state → Inv (arrive state message).1 ∧
      (project (arrive state message).1, (arrive state message).2) =
        arrive' (project state) message)
    {state : State} (initially : Inv state) (messages : List Message) :
    signals arrive state messages = signals arrive' (project state) messages := by
  induction messages generalizing state with
  | nil => rfl
  | cons message rest ih =>
      obtain ⟨still, commutes⟩ := same state message initially
      unfold signals
      rw [ih still, ← commutes]

/-! ## One signal in each round -/

/-- A signal with the last of some messages. -/
def lastOnly : Nat → List Bool
  | 0 => []
  | 1 => [true]
  | n + 2 => false :: lastOnly (n + 1)

theorem length_lastOnly (n : Nat) : (lastOnly n).length = n := by
  induction n using lastOnly.induct with
  | case1 => rfl
  | case2 => rfl
  | case3 n ih => exact congrArg (· + 1) ih

/-- A handler that is ready for a round, and again after it, signals once in each of them. -/
theorem signals_flatten (Ready : State → Prop) {rounds : List (List Message)}
    (once : ∀ state, Ready state → ∀ round ∈ rounds,
      signals arrive state round = lastOnly round.length ∧
        Ready (afterMessages arrive state round))
    {state : State} (ready : Ready state) :
    signals arrive state rounds.flatten =
      rounds.flatMap fun round => lastOnly round.length := by
  induction rounds generalizing state with
  | nil => rfl
  | cons round rest ih =>
      obtain ⟨first, again⟩ := once state ready round (List.mem_cons_self ..)
      rw [List.flatten_cons, signals_append, first, List.flatMap_cons,
        ih (fun other isReady member among =>
          once other isReady member (List.mem_cons_of_mem _ among)) again]

/-! ## Set barriers -/

section SetBarrier

variable {Id : Type*} [DecidableEq Id]

/-- The members that are waited for send one message each. -/
theorem Barrier.signals_of_perm {members messages : List Id} (distinct : messages.Nodup)
    {barrier : Barrier Id} (inhabited : messages ≠ [])
    (waited : messages.Perm (barrier.pending members)) :
    signals (fun barrier id => barrier.arrive members id) barrier messages =
        lastOnly messages.length ∧
      afterMessages (fun barrier id => barrier.arrive members id) barrier messages = fresh := by
  induction messages generalizing barrier with
  | nil => exact absurd rfl inhabited
  | cons id rest ih =>
      obtain ⟨absent, apart⟩ := List.nodup_cons.mp distinct
      have others : rest.Perm ((barrier.pending members).filter (· ≠ id)) := by
        have kept : (id :: rest).filter (· ≠ id) = rest := by
          rw [List.filter_cons_of_neg (by simp), List.filter_eq_self]
          intro other member
          simpa using fun same : other = id => absent (same ▸ member)
        exact kept ▸ waited.filter (· ≠ id)
      cases rest with
      | nil =>
          have last : barrier.arrive members id = (fresh, true) := by
            rw [arrive_eq, await, if_pos (List.nil_perm.mp others)]
          refine ⟨?_, ?_⟩
          · unfold signals signals
            rw [last]
            rfl
          · exact congrArg Prod.fst last
      | cons next later =>
          have some : (barrier.pending members).filter (· ≠ id) ≠ [] := by
            intro none
            rw [none] at others
            exact List.cons_ne_nil _ _ (List.perm_nil.mp others)
          obtain ⟨waits, unfinished, still⟩ : ∃ waits : Barrier Id,
              barrier.arrive members id = (waits, false) ∧
                waits.pending members = (barrier.pending members).filter (· ≠ id) := by
            rw [arrive_eq, await, if_neg some]
            exact ⟨_, rfl, rfl⟩
          have after := ih apart (List.cons_ne_nil _ _) (still.symm ▸ others)
          refine ⟨?_, ?_⟩
          · unfold signals
            rw [unfinished]
            exact congrArg _ after.1
          · change afterMessages _ (barrier.arrive members id).1 _ = fresh
            rw [unfinished]
            exact after.2

theorem Barrier.signals_rounds {members : List Id} (distinct : members.Nodup)
    {rounds : List (List Id)} (each : ∀ round ∈ rounds, round.Perm members) :
    signals (fun barrier id => barrier.arrive members id) fresh rounds.flatten =
      rounds.flatMap fun round => lastOnly round.length := by
  refine signals_flatten _ (fun barrier => barrier = fresh) ?_ rfl
  rintro barrier rfl round member
  by_cases empty : round = []
  · rw [empty]
    exact ⟨rfl, rfl⟩
  · exact signals_of_perm ((each round member).nodup_iff.mpr distinct) empty (each round member)

end SetBarrier

/-! ## Counters -/

/-- A message is counted; the count begins again when it has reached its target. -/
def countArrive (target : Int) (count : Int) (_message : Message) : Int × Bool :=
  if count + 1 = target then (0, true) else (count + 1, false)

/-- A counter signals with the last of some messages exactly if it lacks as many. -/
theorem signals_countArrive_iff {target : Int} (count : Int) {messages : List Message}
    (inhabited : messages ≠ []) :
    signals (countArrive target) count messages = lastOnly messages.length ↔
      count + messages.length = target := by
  induction messages generalizing count with
  | nil => exact absurd rfl inhabited
  | cons message rest ih =>
      cases rest with
      | nil =>
          unfold signals countArrive
          by_cases reached : count + 1 = target
          · simp [reached, signals, lastOnly]
          · simp [reached, signals, lastOnly]
      | cons next later =>
          have more := ih (count + 1) (List.cons_ne_nil next later)
          unfold signals
          rw [List.length_cons, List.length_cons, lastOnly, List.cons.injEq]
          unfold countArrive
          by_cases reached : count + 1 = target
          · simp only [reached, if_true, Bool.true_eq_false, false_and, false_iff]
            rw [← reached]
            push_cast
            omega
          · simp only [reached, if_false, true_and]
            unfold countArrive at more
            rw [← List.length_cons (a := next), more]
            push_cast
            omega

theorem afterMessages_countArrive {target count : Int} {messages : List Message}
    (inhabited : messages ≠ []) (lacks : count + messages.length = target) :
    afterMessages (countArrive target) count messages = 0 := by
  induction messages generalizing count with
  | nil => exact absurd rfl inhabited
  | cons message rest ih =>
      rw [List.length_cons] at lacks
      change afterMessages _ (countArrive target count message).1 rest = 0
      cases rest with
      | nil =>
          have reached : count + 1 = target := by
            simpa using lacks
          unfold countArrive
          rw [if_pos reached]
          rfl
      | cons next later =>
          have more : count + 1 ≠ target := by
            rw [List.length_cons] at lacks
            push_cast at lacks
            omega
          unfold countArrive
          rw [if_neg more]
          apply ih (List.cons_ne_nil next later)
          push_cast at lacks ⊢
          omega

/-- In rounds of as many messages each, a counter signals once in each of them exactly if its
target is their number. -/
theorem signals_countArrive_rounds (target : Int) {size : Nat} {rounds : List (List Message)}
    (each : ∀ round ∈ rounds, round.length = size) :
    signals (countArrive target) 0 rounds.flatten =
        (rounds.flatMap fun round => lastOnly round.length) ↔
      rounds = [] ∨ size = 0 ∨ target = size := by
  constructor
  · intro same
    cases rounds with
    | nil => exact .inl rfl
    | cons round rest =>
        have length := each round (List.mem_cons_self ..)
        refine .inr (Nat.eq_zero_or_pos size |>.imp_right fun positive => ?_)
        have inhabited : round ≠ [] := by
          intro empty
          rw [empty, List.length_nil] at length
          omega
        rw [List.flatten_cons, signals_append, List.flatMap_cons] at same
        have first := (List.append_inj same (by rw [length_signals, length_lastOnly])).1
        rw [signals_countArrive_iff 0 inhabited, length] at first
        omega
  · intro agrees
    refine signals_flatten _ (fun count => count = 0) ?_ rfl
    rintro count rfl round member
    by_cases empty : round = []
    · rw [empty]
      exact ⟨rfl, rfl⟩
    · have lacks : (0 : Int) + round.length = target := by
        rw [each round member]
        rcases agrees with none | zero | same
        · rw [none] at member
          cases member
        · rw [← each round member] at zero
          exact absurd (List.eq_nil_of_length_eq_zero zero) empty
        · omega
      exact ⟨(signals_countArrive_iff 0 empty).mpr lacks, afterMessages_countArrive empty lacks⟩

end Nise.Lib
