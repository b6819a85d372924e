import Nise.Ace.Sock

/-!
# Message queues and `send_n`

A message queue holds blocks up to a high water mark, counted in the capacity of
its blocks; at or above the mark it refuses every further block.  `send_n` writes
a block to the socket, wholly or up to some byte.
-/

namespace Nise.Ace

/-- Who has to release a block after a call. -/
inductive Owner where
  | caller
  | queue
  | released
  deriving DecidableEq, Repr

/-! ## Queues -/

def curBytes (queue : List MessageBlock) : Nat := (queue.map MessageBlock.size).sum

/-- A queue that still accepts a block. -/
def HasRoom (highWaterMark : Nat) (queue : List MessageBlock) : Prop :=
  curBytes queue < highWaterMark

instance (highWaterMark : Nat) (queue : List MessageBlock) :
    Decidable (HasRoom highWaterMark queue) :=
  inferInstanceAs (Decidable (curBytes queue < highWaterMark))

def enqueueHead (highWaterMark : Nat) (queue : List MessageBlock) (block : MessageBlock) :
    Option (List MessageBlock) :=
  if HasRoom highWaterMark queue then some (block :: queue) else none

def enqueueTail (highWaterMark : Nat) (queue : List MessageBlock) (block : MessageBlock) :
    Option (List MessageBlock) :=
  if HasRoom highWaterMark queue then some (queue ++ [block]) else none

/-- The bytes that are still to be sent, in queue order. -/
def unread (queue : List MessageBlock) : List UInt8 := queue.flatMap MessageBlock.data

@[simp] theorem unread_nil : unread [] = [] := rfl

@[simp] theorem unread_cons (block : MessageBlock) (rest : List MessageBlock) :
    unread (block :: rest) = block.data ++ unread rest := rfl

@[simp] theorem unread_append (first second : List MessageBlock) :
    unread (first ++ second) = unread first ++ unread second :=
  List.flatMap_append

/-- Copy a chain of blocks into one block of exactly the length of the chain. -/
def consolidate (chain : List MessageBlock) : MessageBlock :=
  chain.foldl (fun whole block => whole.write block.data) ⟨(chain.map MessageBlock.length).sum, []⟩

theorem foldl_write_data (chain : List MessageBlock) (whole : MessageBlock) :
    (chain.foldl (fun whole block => whole.write block.data) whole).data =
      whole.data ++ unread chain := by
  induction chain generalizing whole with
  | nil => rw [List.foldl_nil, unread_nil, List.append_nil]
  | cons block rest ih =>
      rw [List.foldl_cons, ih, MessageBlock.write_data, unread_cons, List.append_assoc]

theorem consolidate_data (chain : List MessageBlock) : (consolidate chain).data = unread chain :=
  foldl_write_data chain _

/-- A block and the chain behind it, as one block: a block without a chain is itself. -/
def block2send (event : MessageBlock) (cont : List MessageBlock) : MessageBlock :=
  if cont = [] then event else consolidate (event :: cont)

theorem block2send_data (event : MessageBlock) (cont : List MessageBlock) :
    (block2send event cont).data = event.data ++ unread cont := by
  unfold block2send
  split
  · next single => rw [single, unread_nil, List.append_nil]
  · rw [consolidate_data, unread_cons]

/-! ## Sending -/

/-- What `send_n` does with a block: write all of it, write some of it and return
that count, return -1 or return 0 after having written some of it. -/
inductive SendResult where
  | complete
  | short (count : Nat)
  | fail (errno : Errno) (transferred : Nat)
  | eof (transferred : Nat)
  deriving DecidableEq, Repr

namespace SendResult

/-- The number of bytes that reached the socket. -/
def transferred (block : MessageBlock) : SendResult → Nat
  | complete => block.length
  | short count => count
  | fail _ transferred => transferred
  | eof transferred => transferred

def value (block : MessageBlock) : SendResult → Int
  | complete => block.length
  | short count => count
  | fail _ _ => -1
  | eof _ => 0

def errno (before : Errno) : SendResult → Errno
  | complete => before
  | short _ => before
  | fail errno _ => errno
  | eof _ => before

/-- Only part of the block is written by a send that is not complete. -/
def Possible (block : MessageBlock) : SendResult → Prop
  | complete => True
  | short count => 0 < count ∧ count < block.length
  | fail _ transferred => transferred < block.length
  | eof transferred => transferred < block.length

instance (block : MessageBlock) : DecidablePred (SendResult.Possible block)
  | complete => inferInstanceAs (Decidable True)
  | short count => inferInstanceAs (Decidable (0 < count ∧ count < block.length))
  | fail _ transferred => inferInstanceAs (Decidable (transferred < block.length))
  | eof transferred => inferInstanceAs (Decidable (transferred < block.length))

/-! ### The three ends of a send -/

inductive Verdict where
  | whole
  | back
  | failed
  deriving DecidableEq, Repr

/-- Whether the rest of the program takes a send for complete, for one to be continued,
or for a failure of the connection. -/
def verdict (sent : SendResult) (errno : Errno) (event : MessageBlock) : Verdict :=
  if sent.value event ≤ 0 then
    if sent.errno errno = .ewouldblock then .back else .failed
  else if sent.value event < event.length then .back else .whole

variable (sent : SendResult) {errno : Errno} {event : MessageBlock}

theorem complete_of_whole (possible : sent.Possible event)
    (whole : sent.verdict errno event = .whole) : sent = .complete ∧ 0 < event.length := by
  have positive : ¬ sent.value event ≤ 0 := by
    intro failed
    rw [verdict, if_pos failed] at whole
    split at whole <;> cases whole
  have enough : ¬ sent.value event < event.length := by
    intro less
    rw [verdict, if_neg positive, if_pos less] at whole
    cases whole
  cases sent with
  | complete =>
      refine ⟨rfl, ?_⟩
      have value : SendResult.complete.value event = event.length := rfl
      omega
  | short count =>
      have less : count < event.length := possible.2
      have value : (SendResult.short count).value event = count := rfl
      omega
  | fail failure bt => exact absurd (by decide : (-1 : Int) ≤ 0) positive
  | eof bt => exact absurd (Int.le_refl 0) positive

theorem nonpositive_of_failed (failed : sent.verdict errno event = .failed) :
    sent.value event ≤ 0 ∧ sent.errno errno ≠ .ewouldblock := by
  unfold verdict at failed
  split at failed
  · next nonpositive =>
      split at failed
      · cases failed
      · next other => exact ⟨nonpositive, other⟩
  · split at failed <;> cases failed

/-- A send is continued after flow control or after a short count. -/
theorem blocked_or_short_of_back (possible : sent.Possible event)
    (back : sent.verdict errno event = .back) :
    sent.value event ≤ 0 ∧ sent.errno errno = .ewouldblock ∨
      ∃ count, sent = .short count ∧ 0 < count ∧ count < event.length := by
  unfold verdict at back
  split at back
  · next nonpositive =>
      split at back
      · next blocks => exact .inl ⟨nonpositive, blocks⟩
      · cases back
  · next positive =>
      split at back
      · next less =>
          cases sent with
          | complete => exact absurd less (Int.lt_irrefl _)
          | short count => exact .inr ⟨count, rfl, possible.1, possible.2⟩
          | fail failure bt => exact absurd (by decide : (-1 : Int) ≤ 0) positive
          | eof bt => exact absurd (Int.le_refl 0) positive
      · cases back

/-- A block that is put back is not written whole, unless it is empty. -/
theorem transferred_of_back (possible : sent.Possible event)
    (back : sent.verdict errno event = .back) :
    sent.transferred event < event.length ∨
      event.length = 0 ∧ sent.transferred event = 0 := by
  cases sent with
  | complete =>
      by_cases empty : event.length = 0
      · exact .inr ⟨empty, empty⟩
      · have value : SendResult.complete.value event = event.length := rfl
        rw [verdict, if_neg (by omega), if_neg (by omega)] at back
        cases back
  | short count => exact .inl possible.2
  | fail failure bt => exact .inl possible
  | eof bt => exact .inl possible

end SendResult

end Nise.Ace
