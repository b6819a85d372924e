import Nise.Ace.MessageQueue
import Nise.Lib.Run

/-!
# The transmit path of a peer

`Peer_Handler` has the same queue as the dispatcher's handlers.  Its `send` reports
every failure as 0, and after a failure it leaves the read pointer of the block where it
was, so a failed send is resumed correctly only if it wrote nothing.
-/

namespace Nise.Peer

open Nise.Ace

/-- The value of the errno macro, where the source uses it as a condition. -/
def EWOULDBLOCK : Int := 11

/-- What `send` leaves: `errno`, the block, its result and who owns the block. -/
structure Sent where
  errno : Errno
  block : MessageBlock
  result : Int
  owner : Owner
  deriving DecidableEq, Repr

def send (errno : Errno) (event : MessageBlock) (sent : SendResult) : Sent :=
  let n := sent.value event
  if n ≤ 0 then
    ⟨sent.errno errno, event, toInt (if EWOULDBLOCK ≠ 0 then 0 else n), .caller⟩
  else if n < event.length then ⟨.ewouldblock, event.rdPtr n.toNat, toInt n, .caller⟩
  else ⟨.clear, event, toInt n, .released⟩

/-- What one call of `nonblk_put` does: the bytes it writes, the block it puts at the head
of the queue, if any, the value it returns and the owner of the block after it. -/
structure Attempt where
  errno : Errno
  wrote : List UInt8
  back : List MessageBlock
  returned : Int
  owner : Owner
  deriving DecidableEq, Repr

def nonblkPut (highWaterMark : Nat) (queue : List MessageBlock) (errno : Errno)
    (mb : MessageBlock) (sent : SendResult) (wakeup : Bool) : Attempt :=
  let wrote := mb.data.take (sent.transferred mb)
  let call := send errno mb sent
  if call.result = -1 then ⟨call.errno, wrote, [], -1, call.owner⟩
  else if call.errno = .ewouldblock then
    match enqueueHead highWaterMark queue call.block with
    | none => ⟨call.errno, wrote, [], -1, call.owner⟩
    | some _ =>
        if wakeup then ⟨call.errno, wrote, [call.block], 0, .queue⟩
        else ⟨call.errno, wrote, [call.block], -1, .queue⟩
  else ⟨call.errno, wrote, [], toInt call.result, call.owner⟩

/-- The sending side of a handler, with what it has written, the bytes of the messages it
has accepted, and whether a send has failed without its call having returned -1. -/
structure Outgoing where
  queue : List MessageBlock
  errno : Errno
  misreleased : Bool
  silent : Bool
  written : List UInt8
  accepted : List UInt8
  deriving DecidableEq, Repr

namespace Outgoing

def start : Outgoing := ⟨[], .clear, false, false, [], []⟩

/-- A send of a block that failed for a reason other than flow control. -/
def broken (handler : Outgoing) (mb : MessageBlock) (sent : SendResult) : Bool :=
  sent != .complete && sent.verdict handler.errno mb == .failed

def put (highWaterMark : Nat) (handler : Outgoing) (mb : MessageBlock) (sent : SendResult)
    (wakeup : Bool) : Outgoing × Int :=
  if handler.queue = [] then
    let call := nonblkPut highWaterMark handler.queue handler.errno mb sent wakeup
    ({ handler with
        queue := call.back ++ handler.queue
        errno := call.errno
        silent := handler.silent || handler.broken mb sent && call.returned != -1
        written := handler.written ++ call.wrote }, call.returned)
  else
    match enqueueTail highWaterMark handler.queue mb with
    | none => ({ handler with errno := .ewouldblock }, -1)
    | some queue => ({ handler with queue := queue }, queue.length)

def transmit (highWaterMark : Nat) (handler : Outgoing) (startMb : MessageBlock)
    (cont : List MessageBlock) (sent : SendResult) (wakeup : Bool) : Outgoing × Int :=
  handler.put highWaterMark (block2send startMb cont) sent wakeup

/-- The reactor found the socket writable.  The call returns 0 whatever happens. -/
def handleOutput (highWaterMark : Nat) (handler : Outgoing) (sent : SendResult)
    (wakeup : Bool) : Outgoing × Int :=
  match handler.queue with
  | [] => ({ handler with errno := .ewouldblock }, 0)
  | mb :: rest =>
      let call := nonblkPut highWaterMark rest handler.errno mb sent wakeup
      ({ handler with
          queue := call.back ++ rest
          errno := call.errno
          -- On -1 the block is released, although the queue may hold it.
          misreleased := handler.misreleased || call.returned == -1 && call.owner != .caller
          silent := handler.silent || handler.broken mb sent
          written := handler.written ++ call.wrote }, 0)

end Outgoing

/-! ## What one send does -/

section NonblkPut

variable {highWaterMark : Nat} {queue : List MessageBlock} {errno : Errno} {mb : MessageBlock}
  {sent : SendResult}

/-- A send after which the queued block starts at the first byte that was not written. -/
def Resumes (mb : MessageBlock) (sent : SendResult) : Prop :=
  sent.transferred mb = 0 ∨ 0 < sent.value mb ∧ toInt (sent.value mb) ≠ -1

theorem send_of_nonpositive (nonpositive : sent.value mb ≤ 0) :
    send errno mb sent = ⟨sent.errno errno, mb, 0, .caller⟩ := by
  have collapsed : toInt (if EWOULDBLOCK ≠ 0 then 0 else sent.value mb) = 0 := by
    rw [if_pos (by decide), toInt_zero]
  unfold send
  dsimp only
  rw [if_pos nonpositive, collapsed]

theorem nonblkPut_whole (wakeup : Bool) (possible : sent.Possible mb)
    (whole : sent.verdict errno mb = .whole) :
    nonblkPut highWaterMark queue errno mb sent wakeup =
      ⟨.clear, mb.data, [], toInt mb.length, .released⟩ := by
  obtain ⟨rfl, positive⟩ := sent.complete_of_whole possible whole
  have notFailed : ¬ SendResult.complete.value mb ≤ 0 := by
    change ¬ (mb.length : Int) ≤ 0
    omega
  have all : ¬ SendResult.complete.value mb < mb.length := Int.lt_irrefl _
  have done : send errno mb .complete = ⟨.clear, mb, toInt mb.length, .released⟩ := by
    unfold send
    dsimp only
    rw [if_neg notFailed, if_neg all]
    rfl
  have taken : mb.data.take (SendResult.complete.transferred mb) = mb.data := List.take_length
  unfold nonblkPut
  dsimp only
  rw [done, taken]
  dsimp only
  by_cases failure : toInt mb.length = -1
  · rw [if_pos failure, failure]
  · rw [if_neg failure, if_neg (by decide), toInt_toInt]

/-- A failure for another reason than flow control is reported as 0, with the block in no
hands. -/
theorem nonblkPut_failed (wakeup : Bool) (failed : sent.verdict errno mb = .failed) :
    nonblkPut highWaterMark queue errno mb sent wakeup =
      ⟨sent.errno errno, mb.data.take (sent.transferred mb), [], 0, .caller⟩ := by
  obtain ⟨nonpositive, other⟩ := sent.nonpositive_of_failed failed
  unfold nonblkPut
  dsimp only
  rw [send_of_nonpositive nonpositive]
  dsimp only
  rw [if_neg (by decide), if_neg other, toInt_zero]

/-- After flow control the whole block is queued again, also the part that was written. -/
theorem nonblkPut_blocked (wakeup : Bool) (nonpositive : sent.value mb ≤ 0)
    (blocks : sent.errno errno = .ewouldblock) :
    nonblkPut highWaterMark queue errno mb sent wakeup =
      if HasRoom highWaterMark queue then
        ⟨.ewouldblock, mb.data.take (sent.transferred mb), [mb], if wakeup then 0 else -1, .queue⟩
      else ⟨.ewouldblock, mb.data.take (sent.transferred mb), [], -1, .caller⟩ := by
  unfold nonblkPut
  dsimp only
  rw [send_of_nonpositive nonpositive, blocks]
  dsimp only
  rw [if_neg (by decide), if_pos rfl]
  unfold enqueueHead
  by_cases room : HasRoom highWaterMark queue
  · rw [if_pos room, if_pos room]
    cases wakeup <;> rfl
  · rw [if_neg room, if_neg room]

theorem nonblkPut_short (wakeup : Bool) {count : Nat} (positive : 0 < count)
    (less : count < mb.length) :
    nonblkPut highWaterMark queue errno mb (.short count) wakeup =
      if toInt count ≠ -1 ∧ HasRoom highWaterMark queue then
        ⟨.ewouldblock, mb.data.take count, [mb.rdPtr count], if wakeup then 0 else -1, .queue⟩
      else ⟨.ewouldblock, mb.data.take count, [], -1, .caller⟩ := by
  have done : send errno mb (.short count) =
      ⟨.ewouldblock, mb.rdPtr count, toInt count, .caller⟩ := by
    have value : (SendResult.short count).value mb = count := rfl
    unfold send
    dsimp only
    rw [if_neg (by omega), if_pos (by omega), value, Int.toNat_natCast]
  have written : (SendResult.short count).transferred mb = count := rfl
  unfold nonblkPut
  dsimp only
  rw [done, written]
  dsimp only
  by_cases failure : toInt count = -1
  · rw [if_pos failure, if_neg (fun both => both.1 failure)]
  · rw [if_neg failure, if_pos rfl]
    by_cases room : HasRoom highWaterMark queue
    · have both : toInt count ≠ -1 ∧ HasRoom highWaterMark queue := ⟨failure, room⟩
      rw [if_pos both, enqueueHead, if_pos room]
      cases wakeup <;> rfl
    · have neither : ¬ (toInt count ≠ -1 ∧ HasRoom highWaterMark queue) := fun both => room both.2
      rw [if_neg neither, enqueueHead, if_neg room]

end NonblkPut

/-! ## The outcomes that keep the stream -/

/-- The outcomes of sending a block at once that keep the stream intact. -/
def KeepsFirst (highWaterMark : Nat) (errno : Errno) (mb : MessageBlock) (sent : SendResult)
    (wakeup : Bool) : Prop :=
  match sent.verdict errno mb with
  | .whole => toInt mb.length ≠ -1
  | .back =>
      mb.length = 0 ∨
        if HasRoom highWaterMark [] then wakeup = true ∧ Resumes mb sent
        else sent.transferred mb = 0
  | .failed => mb.length = 0

/-- The same for the first block of a queue, which was accepted before. -/
def KeepsHead (highWaterMark : Nat) (errno : Errno) (mb : MessageBlock)
    (rest : List MessageBlock) (sent : SendResult) (wakeup : Bool) : Prop :=
  match sent.verdict errno mb with
  | .whole => toInt mb.length ≠ -1
  | .back =>
      if HasRoom highWaterMark rest then wakeup = true ∧ Resumes mb sent else mb.length = 0
  | .failed => mb.length = 0

namespace Attempt

/-- The block is accepted and all there, or refused and nothing of it is there. -/
def FirstKept (call : Attempt) (mb : MessageBlock) : Prop :=
  call.wrote ++ unread call.back = if call.returned = -1 then [] else mb.data

/-- The block is all there, and not released when the queue holds it. -/
def HeadKept (call : Attempt) (mb : MessageBlock) : Prop :=
  (call.returned = -1 → call.owner = .caller) ∧ call.wrote ++ unread call.back = mb.data

end Attempt

section Kept

variable {highWaterMark : Nat} {errno : Errno} {mb : MessageBlock} {sent : SendResult}
  {wakeup : Bool}

theorem resumes_of_nonpositive (nonpositive : sent.value mb ≤ 0) :
    Resumes mb sent ↔ sent.transferred mb = 0 := by
  unfold Resumes
  rw [or_iff_left]
  rintro ⟨positive, -⟩
  omega

theorem resumes_short {count : Nat} (positive : 0 < count) :
    Resumes mb (.short count) ↔ toInt count ≠ -1 := by
  have written : (SendResult.short count).transferred mb = count := rfl
  have value : (SendResult.short count).value mb = count := rfl
  unfold Resumes
  rw [written, value, or_iff_right (by omega), and_iff_right (by omega)]

/-- A send that is continued has written nothing exactly if its count is 0, and all of the
block only if that is empty. -/
theorem wrote_of_back (possible : sent.Possible mb) (back : sent.verdict errno mb = .back) :
    (mb.data.take (sent.transferred mb) = [] ↔ sent.transferred mb = 0) ∧
      (mb.data.take (sent.transferred mb) = mb.data ↔ mb.length = 0) ∧
      (mb.length = 0 → sent.transferred mb = 0) := by
  rw [← List.length_eq_zero_iff, List.length_take]
  rcases sent.transferred_of_back possible back with less | ⟨empty, none⟩
  · have length : mb.data.length = mb.length := rfl
    refine ⟨by omega, ⟨?_, by omega⟩, by omega⟩
    intro all
    have longer := congrArg List.length all
    rw [List.length_take] at longer
    omega
  · have data : mb.data = [] := List.length_eq_zero_iff.mp empty
    rw [none, empty, data]
    simp

theorem firstKept_back (possible : sent.Possible mb) (back : sent.verdict errno mb = .back) :
    (nonblkPut highWaterMark [] errno mb sent wakeup).FirstKept mb ↔
      mb.length = 0 ∨
        if HasRoom highWaterMark [] then wakeup = true ∧ Resumes mb sent
        else sent.transferred mb = 0 := by
  obtain ⟨nothing, -, empty⟩ := wrote_of_back possible back
  unfold Attempt.FirstKept
  rcases sent.blocked_or_short_of_back possible back with
    ⟨nonpositive, blocks⟩ | ⟨count, rfl, positive, less⟩
  · rw [nonblkPut_blocked wakeup nonpositive blocks, resumes_of_nonpositive nonpositive]
    by_cases room : HasRoom highWaterMark []
    · rw [if_pos room, if_pos room]
      dsimp only
      rw [unread_cons, unread_nil, List.append_nil]
      cases wakeup with
      | true =>
          rw [if_pos rfl, if_neg (by decide), List.append_left_eq_self, nothing]
          constructor
          · intro none
            exact .inr ⟨rfl, none⟩
          · rintro (noBytes | ⟨-, none⟩)
            · exact empty noBytes
            · exact none
      | false =>
          rw [if_pos (by decide), List.append_eq_nil_iff, nothing, ← List.length_eq_zero_iff]
          constructor
          · rintro ⟨-, noBytes⟩
            exact .inl noBytes
          · rintro (noBytes | ⟨impossible, -⟩)
            · exact ⟨empty noBytes, noBytes⟩
            · cases impossible
    · rw [if_neg room, if_neg room]
      dsimp only
      rw [unread_nil, List.append_nil, if_pos rfl, nothing, or_iff_right_of_imp empty]
  · have notEmpty : ¬ mb.length = 0 := by omega
    have notNothing : mb.data.take count ≠ [] := fun none => absurd (nothing.mp none) (by
      change ¬ count = 0
      omega)
    rw [nonblkPut_short wakeup positive less, resumes_short positive, or_iff_right notEmpty]
    by_cases both : toInt count ≠ -1 ∧ HasRoom highWaterMark []
    · rw [if_pos both, if_pos both.2]
      dsimp only
      rw [unread_cons, unread_nil, List.append_nil, MessageBlock.rdPtr_data,
        List.take_append_drop]
      cases wakeup with
      | true => exact iff_of_true rfl ⟨rfl, both.1⟩
      | false =>
          refine iff_of_false ?_ (fun meets => absurd meets.1 (by decide))
          intro none
          exact notEmpty (List.length_eq_zero_iff.mpr none)
    · rw [if_neg both]
      dsimp only
      rw [unread_nil, List.append_nil, if_pos rfl]
      refine iff_of_false notNothing ?_
      split
      · next room => exact fun meets => both ⟨meets.2, room⟩
      · change ¬ count = 0
        omega

theorem headKept_back {rest : List MessageBlock} (possible : sent.Possible mb)
    (back : sent.verdict errno mb = .back) :
    (nonblkPut highWaterMark rest errno mb sent wakeup).HeadKept mb ↔
      if HasRoom highWaterMark rest then wakeup = true ∧ Resumes mb sent else mb.length = 0 := by
  obtain ⟨nothing, all, -⟩ := wrote_of_back possible back
  unfold Attempt.HeadKept
  rcases sent.blocked_or_short_of_back possible back with
    ⟨nonpositive, blocks⟩ | ⟨count, rfl, positive, less⟩
  · rw [nonblkPut_blocked wakeup nonpositive blocks, resumes_of_nonpositive nonpositive]
    by_cases room : HasRoom highWaterMark rest
    · rw [if_pos room, if_pos room]
      dsimp only
      rw [unread_cons, unread_nil, List.append_nil, List.append_left_eq_self, nothing]
      cases wakeup with
      | true =>
          exact and_congr_left fun _ => iff_of_true (fun impossible => by cases impossible) rfl
      | false =>
          exact and_congr_left fun _ => iff_of_false (fun held => by cases held rfl) (by decide)
    · rw [if_neg room, if_neg room]
      dsimp only
      rw [unread_nil, List.append_nil, all, and_iff_right (fun _ => rfl)]
  · have notAll : mb.data.take count ≠ mb.data := fun same => absurd (all.mp same) (by omega)
    rw [nonblkPut_short wakeup positive less, resumes_short positive]
    by_cases both : toInt count ≠ -1 ∧ HasRoom highWaterMark rest
    · rw [if_pos both, if_pos both.2]
      dsimp only
      rw [unread_cons, unread_nil, List.append_nil, MessageBlock.rdPtr_data,
        List.take_append_drop]
      cases wakeup with
      | true => exact iff_of_true ⟨(fun impossible => by cases impossible), rfl⟩ ⟨rfl, both.1⟩
      | false =>
          exact iff_of_false (fun kept => by cases kept.1 rfl) (fun meets => by cases meets.1)
    · rw [if_neg both]
      dsimp only
      rw [unread_nil, List.append_nil]
      refine iff_of_false (fun kept => notAll kept.2) ?_
      split
      · next room => exact fun meets => both ⟨meets.2, room⟩
      · omega

theorem firstKept_whole (possible : sent.Possible mb)
    (whole : sent.verdict errno mb = .whole) :
    (nonblkPut highWaterMark [] errno mb sent wakeup).FirstKept mb ↔ toInt mb.length ≠ -1 := by
  obtain ⟨-, positive⟩ := sent.complete_of_whole possible whole
  rw [nonblkPut_whole wakeup possible whole]
  unfold Attempt.FirstKept
  dsimp only
  by_cases failure : toInt mb.length = -1
  · rw [if_pos failure, unread_nil, List.append_nil]
    refine iff_of_false ?_ (not_not_intro failure)
    intro none
    rw [MessageBlock.length, none] at positive
    exact absurd positive (Nat.lt_irrefl 0)
  · rw [if_neg failure, unread_nil, List.append_nil]
    exact iff_of_true rfl failure

theorem headKept_whole {rest : List MessageBlock} (possible : sent.Possible mb)
    (whole : sent.verdict errno mb = .whole) :
    (nonblkPut highWaterMark rest errno mb sent wakeup).HeadKept mb ↔ toInt mb.length ≠ -1 := by
  rw [nonblkPut_whole wakeup possible whole]
  unfold Attempt.HeadKept
  dsimp only
  constructor
  · rintro ⟨held, -⟩ failure
    cases held failure
  · intro counted
    exact ⟨fun failure => absurd failure counted, List.append_nil _⟩

end Kept

/-! ## Calls on one connection -/

namespace Outgoing

/-- A call, with the outcomes of `send_n` and `schedule_wakeup` in it.  Between two calls
other code may leave any `errno`. -/
inductive Call where
  | transmit (startMb : MessageBlock) (cont : List MessageBlock) (sent : SendResult)
      (wakeup : Bool)
  | handleOutput (sent : SendResult) (wakeup : Bool)
  | elsewhere (errno : Errno)
  deriving DecidableEq, Repr

def step (highWaterMark : Nat) (handler : Outgoing) : Call → Outgoing
  | .transmit startMb cont sent wakeup =>
      let out := handler.transmit highWaterMark startMb cont sent wakeup
      if out.2 = -1 then out.1
      else { out.1 with accepted := out.1.accepted ++ (startMb.data ++ unread cont) }
  | .handleOutput sent wakeup => (handler.handleOutput highWaterMark sent wakeup).1
  | .elsewhere errno => { handler with errno := errno }

/-- An outcome that `send_n` can have on the block that is sent. -/
def Allowed (handler : Outgoing) : Call → Prop
  | .transmit startMb cont sent _ => sent.Possible (block2send startMb cont)
  | .handleOutput sent _ => ∀ mb ∈ handler.queue.head?, sent.Possible mb
  | .elsewhere _ => True

instance (handler : Outgoing) : DecidablePred handler.Allowed
  | .transmit startMb cont sent _ =>
      inferInstanceAs (Decidable (sent.Possible (block2send startMb cont)))
  | .handleOutput sent _ =>
      inferInstanceAs (Decidable (∀ mb ∈ handler.queue.head?, sent.Possible mb))
  | .elsewhere _ => inferInstanceAs (Decidable True)

def connection (highWaterMark : Nat) : Lib.System Outgoing Call where
  step := step highWaterMark
  guard := Allowed

instance (highWaterMark : Nat) (handler : Outgoing) (call : Call) :
    Decidable ((connection highWaterMark).guard handler call) :=
  inferInstanceAs (Decidable (handler.Allowed call))

/-- What is on the wire and in the queue is what was accepted, every call whose send failed
for another reason than flow control has returned -1, and no block of the queue has been
released. -/
def Intact (handler : Outgoing) : Prop :=
  handler.misreleased = false ∧ handler.silent = false ∧
    handler.written ++ unread handler.queue = handler.accepted

def Keeps (highWaterMark : Nat) (handler : Outgoing) : Call → Prop
  | .transmit startMb cont sent wakeup =>
      handler.queue = [] →
        KeepsFirst highWaterMark handler.errno (block2send startMb cont) sent wakeup
  | .handleOutput sent wakeup =>
      ∀ mb rest, handler.queue = mb :: rest →
        KeepsHead highWaterMark handler.errno mb rest sent wakeup
  | .elsewhere _ => True

section Steps

variable {highWaterMark : Nat} {handler : Outgoing} {startMb mb : MessageBlock}
  {cont rest : List MessageBlock} {sent : SendResult} {wakeup : Bool}

/-- A message that goes behind others is queued whole or refused whole. -/
theorem transmit_behind (queued : handler.queue ≠ []) (intact : handler.Intact) :
    (handler.step highWaterMark (.transmit startMb cont sent wakeup)).Intact := by
  obtain ⟨held, loud, stream⟩ := intact
  unfold step transmit put
  dsimp only
  rw [if_neg queued]
  unfold enqueueTail
  by_cases room : HasRoom highWaterMark handler.queue
  · rw [if_pos room]
    dsimp only
    rw [if_neg (by omega)]
    refine ⟨held, loud, ?_⟩
    rw [unread_append, unread_cons, unread_nil, List.append_nil, block2send_data,
      ← List.append_assoc, stream]
  · rw [if_neg room]
    exact ⟨held, loud, stream⟩

theorem transmit_first (first : handler.queue = []) (intact : handler.Intact) :
    (handler.step highWaterMark (.transmit startMb cont sent wakeup)).Intact ↔
      (handler.broken (block2send startMb cont) sent &&
        (nonblkPut highWaterMark [] handler.errno (block2send startMb cont) sent
          wakeup).returned != -1) = false ∧
      (nonblkPut highWaterMark [] handler.errno (block2send startMb cont) sent
        wakeup).FirstKept (block2send startMb cont) := by
  obtain ⟨held, loud, stream⟩ := intact
  rw [first, unread_nil, List.append_nil] at stream
  unfold step transmit put Intact Attempt.FirstKept
  dsimp only
  rw [if_pos first, ← block2send_data, first]
  generalize nonblkPut highWaterMark [] handler.errno (block2send startMb cont) sent wakeup = call
  by_cases failure : call.returned = -1
  · rw [if_pos failure, if_pos failure, and_iff_right held]
    refine and_congr (by rw [loud, Bool.false_or]) ?_
    rw [List.append_nil, stream, List.append_assoc, List.append_right_eq_self]
  · rw [if_neg failure, if_neg failure, and_iff_right held]
    refine and_congr (by rw [loud, Bool.false_or]) ?_
    rw [List.append_nil, stream, List.append_assoc, List.append_cancel_left_eq]

theorem handleOutput_head (queued : handler.queue = mb :: rest) (intact : handler.Intact) :
    (handler.step highWaterMark (.handleOutput sent wakeup)).Intact ↔
      handler.broken mb sent = false ∧
        (nonblkPut highWaterMark rest handler.errno mb sent wakeup).HeadKept mb := by
  obtain ⟨held, loud, stream⟩ := intact
  rw [queued, unread_cons] at stream
  unfold step handleOutput Intact Attempt.HeadKept
  rw [queued]
  dsimp only
  generalize nonblkPut highWaterMark rest handler.errno mb sent wakeup = call
  have released : (handler.misreleased || call.returned == -1 && call.owner != .caller) = false ↔
      (call.returned = -1 → call.owner = .caller) := by
    rw [held, Bool.false_or, Bool.and_eq_false_imp]
    simp only [beq_iff_eq, bne_eq_false_iff_eq]
  rw [released, loud, Bool.false_or, unread_append, ← stream, List.append_assoc,
    List.append_cancel_left_eq, ← List.append_assoc, List.append_cancel_right_eq]
  exact and_left_comm

/-- A send that fails is noticed only if there was nothing to send. -/
theorem broken_of_failed (possible : sent.Possible mb)
    (failed : sent.verdict handler.errno mb = .failed) :
    handler.broken mb sent = false ↔ mb.length = 0 := by
  obtain ⟨nonpositive, -⟩ := sent.nonpositive_of_failed failed
  unfold broken
  rw [failed]
  cases sent with
  | complete =>
      have value : SendResult.complete.value mb = mb.length := rfl
      exact iff_of_true rfl (by omega)
  | short count =>
      have value : (SendResult.short count).value mb = count := rfl
      have positive := possible.1
      omega
  | fail failure bt =>
      have less : bt < mb.length := possible
      exact iff_of_false (by simp) (by omega)
  | eof bt =>
      have less : bt < mb.length := possible
      exact iff_of_false (by simp) (by omega)

theorem transmit_first_iff (first : handler.queue = []) (intact : handler.Intact)
    (possible : sent.Possible (block2send startMb cont)) :
    (handler.step highWaterMark (.transmit startMb cont sent wakeup)).Intact ↔
      KeepsFirst highWaterMark handler.errno (block2send startMb cont) sent wakeup := by
  rw [transmit_first first intact]
  unfold KeepsFirst
  split
  · next whole =>
      have sound : handler.broken (block2send startMb cont) sent = false := by
        rw [broken, whole]
        exact Bool.and_false _
      rw [sound, Bool.false_and, and_iff_right rfl, firstKept_whole possible whole]
  · next back =>
      have sound : handler.broken (block2send startMb cont) sent = false := by
        rw [broken, back]
        exact Bool.and_false _
      rw [sound, Bool.false_and, and_iff_right rfl, firstKept_back possible back]
  · next failed =>
      rw [nonblkPut_failed wakeup failed, ← broken_of_failed possible failed]
      have answered : ((0 : Int) != -1) = true := rfl
      dsimp only
      rw [answered, Bool.and_true, and_iff_left_iff_imp]
      intro sound
      have empty := (broken_of_failed possible failed).mp sound
      rw [MessageBlock.length, List.length_eq_zero_iff] at empty
      unfold Attempt.FirstKept
      dsimp only
      rw [empty, List.take_nil]
      rfl

theorem handleOutput_head_iff (queued : handler.queue = mb :: rest) (intact : handler.Intact)
    (possible : sent.Possible mb) :
    (handler.step highWaterMark (.handleOutput sent wakeup)).Intact ↔
      KeepsHead highWaterMark handler.errno mb rest sent wakeup := by
  rw [handleOutput_head queued intact]
  unfold KeepsHead
  split
  · next whole =>
      have sound : handler.broken mb sent = false := by
        rw [broken, whole]
        exact Bool.and_false _
      rw [and_iff_right sound, headKept_whole possible whole]
  · next back =>
      have sound : handler.broken mb sent = false := by
        rw [broken, back]
        exact Bool.and_false _
      rw [and_iff_right sound, headKept_back possible back]
  · next failed =>
      rw [nonblkPut_failed wakeup failed, ← broken_of_failed possible failed,
        and_iff_left_iff_imp]
      intro sound
      have empty := (broken_of_failed possible failed).mp sound
      rw [MessageBlock.length, List.length_eq_zero_iff] at empty
      refine ⟨fun _ => rfl, ?_⟩
      dsimp only
      rw [empty, List.take_nil]
      rfl

theorem step_intact_iff (call : Call) (intact : handler.Intact) (allowed : handler.Allowed call) :
    (handler.step highWaterMark call).Intact ↔ handler.Keeps highWaterMark call := by
  cases call with
  | transmit startMb cont sent wakeup =>
      by_cases first : handler.queue = []
      · rw [transmit_first_iff first intact allowed]
        exact ⟨fun keeps _ => keeps, fun keeps => keeps first⟩
      · exact iff_of_true (transmit_behind first intact) (fun empty => absurd empty first)
  | handleOutput sent wakeup =>
      match queued : handler.queue with
      | [] =>
          refine iff_of_true ?_ (fun mb rest block => ?_)
          · have idle : handler.step highWaterMark (.handleOutput sent wakeup) =
                { handler with errno := .ewouldblock } := by
              simp only [step, handleOutput, queued]
            rw [idle]
            exact intact
          · rw [queued] at block
            cases block
      | mb :: rest =>
          have possible : ∀ mb ∈ handler.queue.head?, sent.Possible mb := allowed
          rw [queued] at possible
          rw [handleOutput_head_iff queued intact (possible mb rfl)]
          constructor
          · intro keeps head tail block
            rw [queued] at block
            cases block
            exact keeps
          · intro keeps
            exact keeps mb rest queued
  | elsewhere errno => exact iff_of_true intact trivial

end Steps

theorem peer_stream_intact_iff (highWaterMark : Nat) (calls : List Call)
    (admitted : (connection highWaterMark).Admits start calls) :
    (connection highWaterMark).Throughout Intact start calls ↔
      ((connection highWaterMark).restrict (Keeps highWaterMark)).Admits start calls := by
  refine (connection highWaterMark).throughout_iff_restrict ?_ ⟨rfl, rfl, rfl⟩ admitted
  intro handler call intact allowed
  exact step_intact_iff call intact allowed

/-- A header and its data meet flow control, and are sent later in two parts. -/
def resumedLater : List Call :=
  [.transmit ⟨4, [1, 2, 3, 4]⟩ [⟨2, [5, 6]⟩] (.fail .ewouldblock 0) true,
    .handleOutput (.short 4) true, .handleOutput .complete true]

theorem peer_stream_intact_iff_resumedLater :
    (connection 64).Admits start resumedLater ∧
      (connection 64).Throughout Intact start resumedLater := by
  have admitted : (connection 64).Admits start resumedLater := by decide
  refine ⟨admitted, (peer_stream_intact_iff 64 resumedLater admitted).mpr ?_⟩
  refine ⟨⟨admitted.1, ?_⟩, ⟨admitted.2.1, ?_⟩, ⟨admitted.2.2.1, ?_⟩, trivial⟩
  · intro _
    exact .inr ⟨rfl, .inl rfl⟩
  · intro mb rest queued
    cases queued
    exact ⟨rfl, .inr ⟨by decide, by decide⟩⟩
  · intro mb rest queued
    cases queued
    exact fun impossible => absurd impossible (by decide)

/-- A send that wrote two of four bytes before flow control is started again from its first
byte, and a send on a reset connection does not fail. -/
theorem peer_stream_intact_fails :
    (¬ ∀ (highWaterMark : Nat) (calls : List Call),
      (connection highWaterMark).Admits start calls →
        ((connection highWaterMark).exec start calls).written ++
            unread ((connection highWaterMark).exec start calls).queue =
          ((connection highWaterMark).exec start calls).accepted) ∧
    ¬ ∀ (highWaterMark : Nat) (calls : List Call),
      (connection highWaterMark).Admits start calls →
        ((connection highWaterMark).exec start calls).silent = false := by
  constructor
  · intro always
    have stream := always 64 [.transmit ⟨4, [1, 2, 3, 4]⟩ [] (.fail .ewouldblock 2) true]
      (by decide)
    revert stream
    decide
  · intro always
    have loud := always 64 [.transmit ⟨4, [1, 2, 3, 4]⟩ [] (.fail (.other 104) 0) true]
      (by decide)
    revert loud
    decide

end Outgoing

end Nise.Peer
