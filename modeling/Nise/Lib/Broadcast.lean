import Mathlib.Data.List.Perm.Basic
import Mathlib.Logic.Function.Basic

/-!
# Messages that are published to those who want them

A message that is published is pending for every receiver that wants it, until the receiver takes
it.  A receiver may take any of the messages that are pending for it; it takes them in order if it
always takes the first one.
-/

namespace Nise.Lib

structure Broadcast (Receiver Message : Type*) where
  published : List Message
  taken : Receiver → List Message
  pending : Receiver → List Message

namespace Broadcast

variable {Receiver Message : Type*}

def empty : Broadcast Receiver Message where
  published := []
  taken _ := []
  pending _ := []

section Steps

variable (wants : Receiver → Message → Bool) (broadcast : Broadcast Receiver Message)

def publish (message : Message) : Broadcast Receiver Message :=
  { broadcast with
    published := broadcast.published ++ [message]
    pending := fun receiver => broadcast.pending receiver ++ [message].filter (wants receiver) }

/-- A receiver takes a message out of its place among those that are pending. -/
def take [DecidableEq Receiver] (receiver : Receiver) (place : Nat) (message : Message) :
    Broadcast Receiver Message :=
  { broadcast with
    taken := Function.update broadcast.taken receiver (broadcast.taken receiver ++ [message])
    pending := Function.update broadcast.pending receiver
      ((broadcast.pending receiver).eraseIdx place) }

/-- What a receiver wants is pending until it is taken. -/
def Delivers : Prop :=
  ∀ receiver, (broadcast.taken receiver ++ broadcast.pending receiver).Perm
    (broadcast.published.filter (wants receiver))

/-- What a receiver wants is taken in the order of publication. -/
def InOrder : Prop :=
  ∀ receiver, broadcast.taken receiver ++ broadcast.pending receiver =
    broadcast.published.filter (wants receiver)

end Steps

variable {wants : Receiver → Message → Bool} {broadcast : Broadcast Receiver Message}

@[simp] theorem publish_published (message : Message) :
    (broadcast.publish wants message).published = broadcast.published ++ [message] := rfl

@[simp] theorem publish_taken (message : Message) :
    (broadcast.publish wants message).taken = broadcast.taken := rfl

@[simp] theorem publish_pending (message : Message) (receiver : Receiver) :
    (broadcast.publish wants message).pending receiver =
      broadcast.pending receiver ++ [message].filter (wants receiver) := rfl

theorem delivers_empty : (empty : Broadcast Receiver Message).Delivers wants :=
  fun _ => .refl _

theorem inOrder_empty : (empty : Broadcast Receiver Message).InOrder wants :=
  fun _ => rfl

theorem Delivers.publish (delivers : broadcast.Delivers wants) (message : Message) :
    (broadcast.publish wants message).Delivers wants := by
  intro receiver
  rw [publish_taken, publish_pending, publish_published, ← List.append_assoc, List.filter_append]
  exact (delivers receiver).append_right _

theorem InOrder.publish (inOrder : broadcast.InOrder wants) (message : Message) :
    (broadcast.publish wants message).InOrder wants := by
  intro receiver
  rw [publish_taken, publish_pending, publish_published, ← List.append_assoc, List.filter_append,
    inOrder receiver]

/-- Only messages that a receiver wants are pending for it. -/
theorem Delivers.wanted (delivers : broadcast.Delivers wants) {receiver : Receiver}
    {message : Message}
    (pending : message ∈ broadcast.pending receiver) :
    message ∈ broadcast.published ∧ wants receiver message = true :=
  List.mem_filter.mp ((delivers receiver).mem_iff.mp (List.mem_append_right _ pending))

/-- The message that is taken and those that stay are the ones that were pending. -/
theorem perm_of_getElem? {receiver : Receiver} {place : Nat} {message : Message}
    (found : (broadcast.pending receiver)[place]? = some message) :
    (message :: (broadcast.pending receiver).eraseIdx place).Perm
      (broadcast.pending receiver) := by
  obtain ⟨within, same⟩ := List.getElem?_eq_some_iff.mp found
  rw [← same]
  exact List.getElem_cons_eraseIdx_perm within

section Take

variable [DecidableEq Receiver] {receiver : Receiver} {place : Nat} {message : Message}

theorem take_taken_other {other : Receiver} (apart : other ≠ receiver) :
    (broadcast.take receiver place message).taken other = broadcast.taken other :=
  Function.update_of_ne apart ..

theorem take_pending_other {other : Receiver} (apart : other ≠ receiver) :
    (broadcast.take receiver place message).pending other = broadcast.pending other :=
  Function.update_of_ne apart ..

@[simp] theorem take_taken_self :
    (broadcast.take receiver place message).taken receiver =
      broadcast.taken receiver ++ [message] :=
  Function.update_self ..

@[simp] theorem take_pending_self :
    (broadcast.take receiver place message).pending receiver =
      (broadcast.pending receiver).eraseIdx place :=
  Function.update_self ..

theorem Delivers.take (delivers : broadcast.Delivers wants)
    (found : (broadcast.pending receiver)[place]? = some message) :
    (broadcast.take receiver place message).Delivers wants := by
  intro other
  by_cases same : other = receiver
  · subst same
    rw [take_taken_self, take_pending_self, List.append_assoc]
    exact ((perm_of_getElem? found).append_left _).trans (delivers other)
  · rw [take_taken_other same, take_pending_other same]
    exact delivers other

theorem InOrder.take (inOrder : broadcast.InOrder wants)
    (found : (broadcast.pending receiver)[0]? = some message) :
    (broadcast.take receiver 0 message).InOrder wants := by
  intro other
  by_cases same : other = receiver
  · subst same
    have first : broadcast.pending other = message :: (broadcast.pending other).eraseIdx 0 := by
      cases pending : broadcast.pending other with
      | nil =>
          rw [pending] at found
          cases found
      | cons head rest =>
          rw [pending] at found
          cases found
          rfl
    rw [take_taken_self, take_pending_self, List.append_assoc, List.singleton_append, ← first]
    exact inOrder other
  · rw [take_taken_other same, take_pending_other same]
    exact inOrder other

end Take

end Broadcast

end Nise.Lib
