import Mathlib.Data.List.Basic

/-!
# Barriers that are armed lazily

A barrier waits for a message from each of its members.  It is filled with all members
when the first message of a round arrives, and forgets about the round when the last one
has arrived.  When every member answers a request once, the barrier is completed by the
last answer and is ready for the next request.
-/

namespace Nise.Lib

/-- The members that are waited for.  Nobody is waited for before the first message. -/
structure Barrier (Id : Type*) where
  initialized : Bool
  waiting : List Id
  idle : initialized = false → waiting = []

namespace Barrier

variable {Id : Type*}

def fresh : Barrier Id := ⟨false, [], fun _ => rfl⟩

/-- The members of which a message is still due in the round, or in the next one. -/
def pending (barrier : Barrier Id) (members : List Id) : List Id :=
  if barrier.initialized then barrier.waiting else members

section Arrive

variable [DecidableEq Id]

/-- Go on waiting, unless nobody is waited for; the flag says that the round is complete. -/
def await (waiting : List Id) : Barrier Id × Bool :=
  if waiting = [] then (fresh, true)
  else (⟨true, waiting, fun impossible => by cases impossible⟩, false)

/-- A message of a member arrives; the flag says that it was the last one. -/
def arrive (barrier : Barrier Id) (members : List Id) (id : Id) : Barrier Id × Bool :=
  let armed := if barrier.initialized then barrier.waiting else barrier.waiting ++ members
  await (armed.filter (· ≠ id))

theorem arrive_eq (barrier : Barrier Id) (members : List Id) (id : Id) :
    barrier.arrive members id = await ((barrier.pending members).filter (· ≠ id)) := by
  unfold arrive pending
  dsimp only
  split
  · rfl
  · next off => rw [barrier.idle (Bool.eq_false_iff.mpr off), List.nil_append]

/-- The message completes the barrier exactly if nobody else is waited for. -/
theorem arrive_completes {barrier : Barrier Id} {members : List Id} {id : Id}
    (completes : (barrier.arrive members id).2 = true) :
    (barrier.arrive members id).1 = fresh ∧ ∀ other ∈ barrier.pending members, other = id := by
  rw [arrive_eq] at completes ⊢
  unfold await at completes ⊢
  split at completes
  · next empty =>
      rw [if_pos empty]
      refine ⟨rfl, ?_⟩
      intro other due
      by_contra apart
      have kept : other ∈ (barrier.pending members).filter (· ≠ id) :=
        List.mem_filter.mpr ⟨due, by simpa using apart⟩
      rw [empty] at kept
      cases kept
  · cases completes

theorem mem_pending_arrive {barrier : Barrier Id} {members : List Id} {id other : Id}
    (unfinished : (barrier.arrive members id).2 = false) (due : other ∈ barrier.pending members)
    (apart : other ≠ id) : other ∈ (barrier.arrive members id).1.pending members := by
  rw [arrive_eq] at unfinished ⊢
  unfold await at unfinished ⊢
  split at unfinished
  · cases unfinished
  · next more =>
      rw [if_neg more]
      exact List.mem_filter.mpr ⟨due, by simpa using apart⟩

theorem mem_of_mem_pending_arrive {barrier : Barrier Id} {members : List Id} {id other : Id}
    (unfinished : (barrier.arrive members id).2 = false)
    (due : other ∈ (barrier.arrive members id).1.pending members) :
    other ∈ barrier.pending members ∧ other ≠ id := by
  rw [arrive_eq] at unfinished due
  unfold await at unfinished due
  split at unfinished
  · cases unfinished
  · next more =>
      rw [if_neg more] at due
      obtain ⟨waited, apart⟩ := List.mem_filter.mp due
      exact ⟨waited, by simpa using apart⟩

theorem pending_arrive_ne_nil {barrier : Barrier Id} {members : List Id} {id : Id}
    (unfinished : (barrier.arrive members id).2 = false) :
    (barrier.arrive members id).1.pending members ≠ [] := by
  rw [arrive_eq] at unfinished ⊢
  unfold await at unfinished ⊢
  split at unfinished
  · cases unfinished
  · next more =>
      rw [if_neg more]
      exact more

end Arrive

/-! ## Rounds -/

/-- Every member has answered every request, and is waited for in the next round. -/
structure Settled (barrier : Barrier Id) (members : List Id) (requests : Nat)
    (answers : Id → Nat) : Prop where
  armed : barrier.pending members = members
  answered : ∀ id ∈ members, answers id = requests

/-- Every member has answered every request but the last one; who has not answered the last
one is waited for. -/
structure Collecting (barrier : Barrier Id) (members : List Id) (requests : Nat)
    (answers : Id → Nat) : Prop where
  within : ∀ id ∈ barrier.pending members, id ∈ members
  owed : ∀ id ∈ members, answers id = requests ∨
    answers id + 1 = requests ∧ id ∈ barrier.pending members

/-- Somebody is waited for, and nobody who has answered the last request. -/
structure Awaiting (barrier : Barrier Id) (members : List Id) (requests : Nat)
    (answers : Id → Nat) : Prop where
  someone : barrier.pending members ≠ []
  due : ∀ id ∈ barrier.pending members, answers id < requests

theorem settled_fresh {members : List Id} {requests : Nat} {answers : Id → Nat}
    (answered : ∀ id ∈ members, answers id = requests) :
    Settled fresh members requests answers where
  armed := rfl
  answered := answered

section Requests

variable {barrier : Barrier Id} {members : List Id} {requests : Nat} {answers : Id → Nat}

/-- A request to all members opens a round. -/
theorem Settled.request (settled : barrier.Settled members requests answers) :
    barrier.Collecting members (requests + 1) answers where
  within id due := by
    rw [settled.armed] at due
    exact due
  owed id member := by
    refine .inr ⟨by rw [settled.answered id member], ?_⟩
    rw [settled.armed]
    exact member

theorem Settled.collecting (settled : barrier.Settled members requests answers) :
    barrier.Collecting members requests answers where
  within id due := by
    rw [settled.armed] at due
    exact due
  owed id member := .inl (settled.answered id member)

/-- A request to at least one member waits for it. -/
theorem Settled.awaiting (settled : barrier.Settled members requests answers)
    (inhabited : members ≠ []) : barrier.Awaiting members (requests + 1) answers where
  someone := by rw [settled.armed]; exact inhabited
  due id waited := by
    rw [settled.armed] at waited
    rw [settled.answered id waited]
    exact Nat.lt_succ_self requests

/-- Nobody has to answer in a round without members. -/
theorem Collecting.settled_nil (collecting : barrier.Collecting [] requests answers)
    (others : Nat) (answers' : Id → Nat) : barrier.Settled [] others answers' where
  armed := List.eq_nil_iff_forall_not_mem.mpr fun id due => by cases collecting.within id due
  answered _ member := by cases member

/-- Not all members have answered while somebody is waited for. -/
theorem Awaiting.exists_due (awaiting : barrier.Awaiting members requests answers)
    (collecting : barrier.Collecting members requests answers) :
    ∃ id ∈ members, answers id < requests := by
  obtain ⟨id, waited⟩ := List.exists_mem_of_ne_nil _ awaiting.someone
  exact ⟨id, collecting.within id waited, awaiting.due id waited⟩

end Requests

section Rounds

variable [DecidableEq Id] {barrier : Barrier Id} {members : List Id} {requests : Nat}
  {answers after : Id → Nat} {id : Id}

/-- The member whose answer arrives has answered all requests. -/
theorem Collecting.answered (collecting : barrier.Collecting members requests answers)
    (member : id ∈ members) (due : answers id < requests)
    (counts : ∀ other, after other = answers other + if other = id then 1 else 0) :
    after id = requests := by
  rw [counts, if_pos rfl]
  rcases collecting.owed id member with all | ⟨last, -⟩
  · omega
  · exact last

/-- An answer that the barrier does not see. -/
theorem Collecting.overlooked (collecting : barrier.Collecting members requests answers)
    (member : id ∈ members) (due : answers id < requests)
    (counts : ∀ other, after other = answers other + if other = id then 1 else 0) :
    barrier.Collecting members requests after where
  within := collecting.within
  owed other among := by
    by_cases same : other = id
    · rw [same]
      exact .inl (collecting.answered member due counts)
    · rw [counts, if_neg same]
      exact collecting.owed other among

theorem Collecting.arrive_unfinished (collecting : barrier.Collecting members requests answers)
    (member : id ∈ members) (due : answers id < requests)
    (counts : ∀ other, after other = answers other + if other = id then 1 else 0)
    (unfinished : (barrier.arrive members id).2 = false) :
    (barrier.arrive members id).1.Collecting members requests after where
  within other waited := collecting.within other (mem_of_mem_pending_arrive unfinished waited).1
  owed other among := by
    by_cases same : other = id
    · rw [same]
      exact .inl (collecting.answered member due counts)
    · rw [counts, if_neg same]
      rcases collecting.owed other among with all | ⟨last, waited⟩
      · exact .inl all
      · exact .inr ⟨last, mem_pending_arrive unfinished waited same⟩

theorem Awaiting.arrive_unfinished (awaiting : barrier.Awaiting members requests answers)
    (counts : ∀ other, after other = answers other + if other = id then 1 else 0)
    (unfinished : (barrier.arrive members id).2 = false) :
    (barrier.arrive members id).1.Awaiting members requests after where
  someone := pending_arrive_ne_nil unfinished
  due other waited := by
    obtain ⟨before, apart⟩ := mem_of_mem_pending_arrive unfinished waited
    rw [counts, if_neg apart]
    exact awaiting.due other before

theorem Collecting.arrive_completes (collecting : barrier.Collecting members requests answers)
    (member : id ∈ members) (due : answers id < requests)
    (counts : ∀ other, after other = answers other + if other = id then 1 else 0)
    (completes : (barrier.arrive members id).2 = true) :
    (barrier.arrive members id).1.Settled members requests after := by
  obtain ⟨again, last⟩ := Barrier.arrive_completes completes
  rw [again]
  apply settled_fresh
  intro other among
  by_cases same : other = id
  · rw [same]
    exact collecting.answered member due counts
  · rw [counts, if_neg same]
    rcases collecting.owed other among with all | ⟨-, waited⟩
    · exact all
    · exact absurd (last other waited) same

end Rounds

end Barrier

end Nise.Lib
