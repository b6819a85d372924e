import Nise.Ace.MessageQueue
import Nise.Dispatcherd.ReceiveHandler
import Nise.Lib.Run

/-!
# The transmit path of the dispatcher

`TransmitHandler::put` sends a message at once when nothing is queued.  What the
socket does not take is put back at the head of the queue, and `handle_output`
goes on with it when the socket can be written again.  The bytes on the wire stay
those of the accepted messages as long as the queue takes back what was started.
-/

namespace Nise.Dispatcherd

open Nise.Ace

/-- A handler on an established connection, with what it has written to the socket
and the bytes of the messages that `put` has accepted. -/
structure Transmit where
  queue : List MessageBlock
  errno : Errno
  state : HandlerState
  misreleased : Bool
  written : List UInt8
  accepted : List UInt8
  deriving DecidableEq, Repr

namespace Transmit

def start : Transmit := ⟨[], .clear, .established, false, [], []⟩

/-- Send a block; the queue is the one without it. -/
def nonblkPut (highWaterMark : Nat) (handler : Transmit) (event : MessageBlock)
    (sent : SendResult) (wakeup : Bool) : Transmit × Int × Owner :=
  let bt := sent.transferred event
  let nsent := sent.value event
  let handler := { handler with
    errno := sent.errno handler.errno
    written := handler.written ++ event.data.take bt }
  if nsent ≤ 0 then
    if handler.errno = .ewouldblock then
      match enqueueHead highWaterMark handler.queue event with
      | none => (handler, -1, .caller)
      | some queue =>
          if wakeup then
            ({ handler with queue := event.rdPtr bt :: handler.queue }, toInt bt, .queue)
          else ({ handler with queue := queue }, -1, .queue)
    else ({ handler with state := .failed }, -1, .caller)
  else if nsent < event.length then
    let event := event.rdPtr nsent.toNat
    let handler := { handler with errno := .ewouldblock }
    match enqueueHead highWaterMark handler.queue event with
    | none => (handler, -1, .caller)
    | some queue =>
        if wakeup then ({ handler with queue := queue }, toInt nsent, .queue)
        else ({ handler with queue := queue }, -1, .queue)
  else ({ handler with errno := .clear }, toInt nsent, .released)

def put (highWaterMark : Nat) (handler : Transmit) (event : MessageBlock)
    (cont : List MessageBlock) (sent : SendResult) (wakeup : Bool) : Transmit × Int :=
  let block := block2send event cont
  if handler.queue = [] then
    let out := handler.nonblkPut highWaterMark block sent wakeup
    (out.1, out.2.1)
  else
    match enqueueTail highWaterMark handler.queue block with
    | none => ({ handler with errno := .ewouldblock }, -1)
    | some queue => ({ handler with queue := queue }, queue.length)

/-- The reactor found the socket writable. -/
def handleOutput (highWaterMark : Nat) (handler : Transmit) (sent : SendResult)
    (wakeup : Bool) : Transmit :=
  match handler.queue with
  | [] => { handler with errno := .ewouldblock }
  | event :: rest =>
      let out := { handler with queue := rest }.nonblkPut highWaterMark event sent wakeup
      -- On -1 the block is released, although the queue may hold it.
      if out.2.1 = -1 ∧ out.2.2 ≠ .caller then { out.1 with misreleased := true } else out.1

/-! ## What one send does -/

section NonblkPut

variable {highWaterMark : Nat} (handler : Transmit) {event : MessageBlock} {sent : SendResult}
  (wakeup : Bool)

theorem nonblkPut_whole (possible : sent.Possible event)
    (whole : sent.verdict handler.errno event = .whole) :
    handler.nonblkPut highWaterMark event sent wakeup =
      ({ handler with errno := .clear, written := handler.written ++ event.data },
        toInt event.length, .released) := by
  obtain ⟨rfl, positive⟩ := sent.complete_of_whole possible whole
  have notFailed : ¬ SendResult.complete.value event ≤ 0 := by
    change ¬ (event.length : Int) ≤ 0
    omega
  have all : ¬ SendResult.complete.value event < event.length := Int.lt_irrefl _
  have taken : event.data.take (SendResult.complete.transferred event) = event.data :=
    List.take_length
  unfold nonblkPut
  dsimp only
  rw [if_neg notFailed, if_neg all, taken]
  rfl

theorem nonblkPut_closed (highWaterMark : Nat) (wakeup : Bool)
    (closed : sent.verdict handler.errno event = .failed) :
    (handler.nonblkPut highWaterMark event sent wakeup).1.state = .failed := by
  unfold SendResult.verdict at closed
  unfold nonblkPut
  dsimp only
  split at closed
  · next failed =>
      split at closed
      · cases closed
      · next other =>
          rw [if_pos failed, if_neg other]
  · split at closed <;> cases closed

/-- A block that is put back while the queue has room. -/
theorem nonblkPut_back (possible : sent.Possible event)
    (back : sent.verdict handler.errno event = .back)
    (room : HasRoom highWaterMark handler.queue) :
    ∃ errno rest, (rest = event ∨ rest = event.rdPtr (sent.transferred event)) ∧
      (wakeup = true → rest = event.rdPtr (sent.transferred event)) ∧
      handler.nonblkPut highWaterMark event sent wakeup =
        ({ handler with
            errno := errno
            written := handler.written ++ event.data.take (sent.transferred event)
            queue := rest :: handler.queue },
          if wakeup then toInt (sent.transferred event) else -1, .queue) := by
  unfold SendResult.verdict at back
  unfold nonblkPut
  dsimp only
  rw [enqueueHead, if_pos room, enqueueHead, if_pos room]
  split at back
  · next failed =>
      split at back
      · next blocks =>
          simp only [if_pos failed, if_pos blocks]
          cases wakeup with
          | true =>
              refine ⟨sent.errno handler.errno, event.rdPtr (sent.transferred event), .inr rfl,
                fun _ => rfl, ?_⟩
              rw [if_pos rfl, if_pos rfl]
          | false =>
              refine ⟨sent.errno handler.errno, event, .inl rfl, ?_, rfl⟩
              intro granted
              cases granted
      · cases back
  · next positive =>
      split at back
      · next less =>
          have value : sent.value event = sent.transferred event := by
            cases sent with
            | complete => rfl
            | short count => rfl
            | fail failure bt => exact absurd (by decide : (-1 : Int) ≤ 0) positive
            | eof bt => exact absurd (Int.le_refl 0) positive
          have count : (sent.value event).toNat = sent.transferred event := by
            rw [value, Int.toNat_natCast]
          rw [if_neg positive, if_pos less, count, value]
          refine ⟨.ewouldblock, event.rdPtr (sent.transferred event), .inr rfl, fun _ => rfl, ?_⟩
          dsimp only
          cases wakeup with
          | true => rw [if_pos rfl, if_pos rfl]
          | false => rfl
      · cases back

/-- A block that the full queue does not take back. -/
theorem nonblkPut_refused (back : sent.verdict handler.errno event = .back)
    (full : ¬ HasRoom highWaterMark handler.queue) :
    ∃ errno, handler.nonblkPut highWaterMark event sent wakeup =
      ({ handler with
          errno := errno
          written := handler.written ++ event.data.take (sent.transferred event) },
        -1, .caller) := by
  unfold SendResult.verdict at back
  unfold nonblkPut
  simp only [enqueueHead, if_neg full]
  split at back
  · next failed =>
      split at back
      · next blocks => exact ⟨_, by rw [if_pos failed, if_pos blocks]⟩
      · cases back
  · next positive =>
      split at back
      · next less => exact ⟨_, by rw [if_neg positive, if_pos less]⟩
      · cases back

end NonblkPut

/-! ## Calls on one connection -/

/-- A call, with the outcomes of `send_n` and `schedule_wakeup` in it.  Between two calls
other code may leave any `errno`. -/
inductive Call where
  | put (event : MessageBlock) (cont : List MessageBlock) (sent : SendResult) (wakeup : Bool)
  | handleOutput (sent : SendResult) (wakeup : Bool)
  | elsewhere (errno : Errno)
  deriving DecidableEq, Repr

def step (highWaterMark : Nat) (handler : Transmit) : Call → Transmit
  | .put event cont sent wakeup =>
      let out := handler.put highWaterMark event cont sent wakeup
      if out.2 = -1 then out.1
      else { out.1 with accepted := out.1.accepted ++ (event.data ++ unread cont) }
  | .handleOutput sent wakeup => handler.handleOutput highWaterMark sent wakeup
  | .elsewhere errno => { handler with errno := errno }

/-- A call on a connection that is not closed, with an outcome that `send_n` can have
on the block that is sent. -/
def Allowed (handler : Transmit) : Call → Prop
  | .put event cont sent _ =>
      handler.state = .established ∧ sent.Possible (block2send event cont)
  | .handleOutput sent _ =>
      handler.state = .established ∧ ∀ event ∈ handler.queue.head?, sent.Possible event
  | .elsewhere _ => True

instance (handler : Transmit) : DecidablePred handler.Allowed
  | .put event cont sent _ =>
      inferInstanceAs (Decidable (handler.state = .established ∧
        sent.Possible (block2send event cont)))
  | .handleOutput sent _ =>
      inferInstanceAs (Decidable (handler.state = .established ∧
        ∀ event ∈ handler.queue.head?, sent.Possible event))
  | .elsewhere _ => inferInstanceAs (Decidable True)

def connection (highWaterMark : Nat) : Lib.System Transmit Call where
  step := step highWaterMark
  guard := Allowed

instance (highWaterMark : Nat) (handler : Transmit) (call : Call) :
    Decidable ((connection highWaterMark).guard handler call) :=
  inferInstanceAs (Decidable (handler.Allowed call))

/-- What is on the wire and in the queue is what was accepted, and no block of the
queue has been released. -/
def Intact (handler : Transmit) : Prop :=
  handler.state = .established →
    handler.misreleased = false ∧
      handler.written ++ unread handler.queue = handler.accepted

/-- The outcomes of sending a block at once that keep the stream intact: what is put
back has to be taken by the queue and woken up for, and the count that is returned must
not be read as a failure. -/
def KeepsFirst (highWaterMark : Nat) (errno : Errno) (event : MessageBlock) (sent : SendResult)
    (wakeup : Bool) : Prop :=
  match sent.verdict errno event with
  | .whole => toInt event.length ≠ -1
  | .back =>
      if HasRoom highWaterMark [] then
        event.length = 0 ∨ wakeup = true ∧ toInt (sent.transferred event) ≠ -1
      else sent.transferred event = 0
  | .failed => True

/-- The same for the first block of a queue.  It was accepted before, so nothing of it may
be lost. -/
def KeepsHead (highWaterMark : Nat) (errno : Errno) (event : MessageBlock)
    (rest : List MessageBlock) (sent : SendResult) (wakeup : Bool) : Prop :=
  match sent.verdict errno event with
  | .whole => toInt event.length ≠ -1
  | .back =>
      if HasRoom highWaterMark rest then
        wakeup = true ∧ toInt (sent.transferred event) ≠ -1
      else event.length = 0
  | .failed => True

def Keeps (highWaterMark : Nat) (handler : Transmit) : Call → Prop
  | .put event cont sent wakeup =>
      handler.queue = [] →
        KeepsFirst highWaterMark handler.errno (block2send event cont) sent wakeup
  | .handleOutput sent wakeup =>
      ∀ event rest, handler.queue = event :: rest →
        KeepsHead highWaterMark handler.errno event rest sent wakeup
  | .elsewhere _ => True

section Steps

variable {highWaterMark : Nat} {handler : Transmit} {event : MessageBlock}
  {cont : List MessageBlock} {sent : SendResult} {wakeup : Bool}

theorem intact_of_failed (failed : handler.state = .failed) : handler.Intact := by
  intro established
  rw [failed] at established
  cases established

/-- A message that goes behind others is queued whole or refused whole. -/
theorem put_behind (queued : handler.queue ≠ []) (intact : handler.Intact) :
    (handler.step highWaterMark (.put event cont sent wakeup)).Intact := by
  unfold step put
  dsimp only
  rw [if_neg queued]
  unfold enqueueTail
  by_cases room : HasRoom highWaterMark handler.queue
  · rw [if_pos room]
    dsimp only
    rw [if_neg (by omega)]
    intro established
    obtain ⟨kept, stream⟩ := intact established
    refine ⟨kept, ?_⟩
    rw [unread_append, unread_cons, unread_nil, List.append_nil, block2send_data,
      ← List.append_assoc, stream]
  · rw [if_neg room]
    exact intact

theorem step_put_first (first : handler.queue = []) :
    handler.step highWaterMark (.put event cont sent wakeup) =
      let out := handler.nonblkPut highWaterMark (block2send event cont) sent wakeup
      if out.2.1 = -1 then out.1
      else { out.1 with accepted := out.1.accepted ++ (block2send event cont).data } := by
  unfold step put
  dsimp only
  rw [if_pos first, block2send_data]

theorem put_first_whole (first : handler.queue = []) (established : handler.state = .established)
    (intact : handler.Intact) (possible : sent.Possible (block2send event cont))
    (whole : sent.verdict handler.errno (block2send event cont) = .whole) :
    (handler.step highWaterMark (.put event cont sent wakeup)).Intact ↔
      toInt (block2send event cont).length ≠ -1 := by
  obtain ⟨kept, stream⟩ := intact established
  obtain ⟨-, positive⟩ := sent.complete_of_whole possible whole
  rw [first, unread_nil, List.append_nil] at stream
  rw [step_put_first first, handler.nonblkPut_whole wakeup possible whole]
  dsimp only
  by_cases failure : toInt (block2send event cont).length = -1
  · rw [if_pos failure]
    refine iff_of_false ?_ (not_not_intro failure)
    intro after
    obtain ⟨-, same⟩ := after established
    dsimp only at same
    rw [first, unread_nil, List.append_nil, stream, List.append_right_eq_self] at same
    rw [MessageBlock.length, same] at positive
    exact absurd positive (Nat.lt_irrefl 0)
  · rw [if_neg failure]
    refine iff_of_true ?_ failure
    intro _
    refine ⟨kept, ?_⟩
    dsimp only
    rw [first, unread_nil, List.append_nil, stream]

theorem put_first_back (first : handler.queue = []) (established : handler.state = .established)
    (intact : handler.Intact) (possible : sent.Possible (block2send event cont))
    (back : sent.verdict handler.errno (block2send event cont) = .back)
    (room : HasRoom highWaterMark []) :
    (handler.step highWaterMark (.put event cont sent wakeup)).Intact ↔
      (block2send event cont).length = 0 ∨
        wakeup = true ∧ toInt (sent.transferred (block2send event cont)) ≠ -1 := by
  obtain ⟨kept, stream⟩ := intact established
  rw [first, unread_nil, List.append_nil] at stream
  obtain ⟨errno, rest, which, granted, done⟩ :=
    handler.nonblkPut_back wakeup possible back (first ▸ room)
  have bytes : (block2send event cont).data.take (sent.transferred (block2send event cont)) ++
      rest.data = [] ↔ (block2send event cont).length = 0 := by
    rw [MessageBlock.length, List.length_eq_zero_iff]
    rcases which with same | moved
    · rw [same, List.append_eq_nil_iff, and_iff_right_of_imp]
      intro empty
      rw [empty, List.take_nil]
    · rw [moved, MessageBlock.rdPtr_data, List.take_append_drop]
  rw [step_put_first first, done]
  dsimp only
  by_cases failure : (if wakeup then toInt (sent.transferred (block2send event cont)) else -1) = -1
  · have never : ¬ (wakeup = true ∧ toInt (sent.transferred (block2send event cont)) ≠ -1) := by
      rintro ⟨woken, counted⟩
      rw [if_pos woken] at failure
      exact counted failure
    rw [if_pos failure, or_iff_left never, ← bytes]
    constructor
    · intro after
      obtain ⟨-, same⟩ := after established
      dsimp only at same
      rw [first, unread_cons, unread_nil, List.append_nil, stream, List.append_assoc,
        List.append_right_eq_self] at same
      exact same
    · intro empty _
      refine ⟨kept, ?_⟩
      dsimp only
      rw [first, unread_cons, unread_nil, List.append_nil, stream, List.append_assoc, empty,
        List.append_nil]
  · have meets : wakeup = true ∧ toInt (sent.transferred (block2send event cont)) ≠ -1 := by
      cases wakeup with
      | true =>
          rw [if_pos rfl] at failure
          exact ⟨rfl, failure⟩
      | false => exact absurd rfl failure
    rw [if_neg failure]
    refine iff_of_true ?_ (.inr meets)
    intro _
    refine ⟨kept, ?_⟩
    dsimp only
    rw [first, unread_cons, unread_nil, List.append_nil, stream, granted meets.1,
      MessageBlock.rdPtr_data, List.append_assoc, List.take_append_drop]

theorem put_first_refused (first : handler.queue = []) (established : handler.state = .established)
    (intact : handler.Intact) (possible : sent.Possible (block2send event cont))
    (back : sent.verdict handler.errno (block2send event cont) = .back)
    (full : ¬ HasRoom highWaterMark []) :
    (handler.step highWaterMark (.put event cont sent wakeup)).Intact ↔
      sent.transferred (block2send event cont) = 0 := by
  obtain ⟨kept, stream⟩ := intact established
  rw [first, unread_nil, List.append_nil] at stream
  obtain ⟨errno, done⟩ := handler.nonblkPut_refused wakeup back (first ▸ full)
  rw [step_put_first first, done]
  dsimp only
  rw [if_pos rfl]
  constructor
  · intro after
    obtain ⟨-, same⟩ := after established
    dsimp only at same
    rw [first, unread_nil, List.append_nil, stream, List.append_right_eq_self,
      List.take_eq_nil_iff] at same
    rcases same with none | empty
    · exact none
    · rcases sent.transferred_of_back possible back with less | ⟨-, none⟩
      · rw [MessageBlock.length, empty] at less
        exact absurd less (Nat.not_lt_zero _)
      · exact none
  · intro none _
    refine ⟨kept, ?_⟩
    dsimp only
    rw [first, unread_nil, List.append_nil, stream, none, List.take_zero, List.append_nil]

/-! A block of the queue is sent. -/

variable {rest : List MessageBlock}

theorem step_handleOutput (queued : handler.queue = event :: rest) :
    handler.step highWaterMark (.handleOutput sent wakeup) =
      let out := { handler with queue := rest }.nonblkPut highWaterMark event sent wakeup
      if out.2.1 = -1 ∧ out.2.2 ≠ .caller then { out.1 with misreleased := true } else out.1 := by
  unfold step handleOutput
  rw [queued]

theorem handleOutput_whole (queued : handler.queue = event :: rest)
    (established : handler.state = .established) (intact : handler.Intact)
    (possible : sent.Possible event) (whole : sent.verdict handler.errno event = .whole) :
    (handler.step highWaterMark (.handleOutput sent wakeup)).Intact ↔
      toInt event.length ≠ -1 := by
  obtain ⟨kept, stream⟩ := intact established
  rw [queued, unread_cons, ← List.append_assoc] at stream
  rw [step_handleOutput queued,
    nonblkPut_whole { handler with queue := rest } wakeup possible whole]
  dsimp only
  by_cases failure : toInt event.length = -1
  · rw [if_pos ⟨failure, by decide⟩]
    refine iff_of_false ?_ (not_not_intro failure)
    intro after
    obtain ⟨released, -⟩ := after established
    cases released
  · rw [if_neg (fun both => failure both.1)]
    refine iff_of_true ?_ failure
    intro _
    exact ⟨kept, stream⟩

theorem handleOutput_back (queued : handler.queue = event :: rest)
    (established : handler.state = .established) (intact : handler.Intact)
    (possible : sent.Possible event) (back : sent.verdict handler.errno event = .back)
    (room : HasRoom highWaterMark rest) :
    (handler.step highWaterMark (.handleOutput sent wakeup)).Intact ↔
      wakeup = true ∧ toInt (sent.transferred event) ≠ -1 := by
  obtain ⟨kept, stream⟩ := intact established
  rw [queued, unread_cons] at stream
  obtain ⟨errno, block, -, granted, done⟩ :=
    nonblkPut_back { handler with queue := rest } wakeup possible back room
  rw [step_handleOutput queued, done]
  dsimp only
  cases wakeup with
  | false =>
      rw [if_pos ⟨rfl, by decide⟩]
      refine iff_of_false ?_ (fun meets => absurd meets.1 Bool.false_ne_true)
      intro after
      obtain ⟨released, -⟩ := after established
      cases released
  | true =>
      rw [if_pos rfl]
      by_cases failure : toInt (sent.transferred event) = -1
      · rw [if_pos ⟨failure, by decide⟩]
        refine iff_of_false ?_ (fun meets => meets.2 failure)
        intro after
        obtain ⟨released, -⟩ := after established
        cases released
      · rw [if_neg (fun both => failure both.1)]
        refine iff_of_true ?_ ⟨rfl, failure⟩
        intro _
        refine ⟨kept, ?_⟩
        dsimp only
        rw [unread_cons, granted rfl, MessageBlock.rdPtr_data, List.append_assoc,
          ← List.append_assoc (List.take _ _), List.take_append_drop, stream]

theorem handleOutput_refused (queued : handler.queue = event :: rest)
    (established : handler.state = .established) (intact : handler.Intact)
    (possible : sent.Possible event) (back : sent.verdict handler.errno event = .back)
    (full : ¬ HasRoom highWaterMark rest) :
    (handler.step highWaterMark (.handleOutput sent wakeup)).Intact ↔ event.length = 0 := by
  obtain ⟨kept, stream⟩ := intact established
  rw [queued, unread_cons] at stream
  obtain ⟨errno, done⟩ :=
    nonblkPut_refused { handler with queue := rest } wakeup back full
  rw [step_handleOutput queued, done]
  dsimp only
  rw [if_neg (fun both => both.2 rfl)]
  constructor
  · intro after
    obtain ⟨-, same⟩ := after established
    dsimp only at same
    rw [← stream, List.append_assoc, List.append_cancel_left_eq,
      List.append_cancel_right_eq] at same
    rcases sent.transferred_of_back possible back with less | ⟨empty, -⟩
    · have shorter := congrArg List.length same
      rw [List.length_take] at shorter
      unfold MessageBlock.length at less ⊢
      omega
    · exact empty
  · intro empty _
    refine ⟨kept, ?_⟩
    dsimp only
    rw [MessageBlock.length, List.length_eq_zero_iff] at empty
    rw [← stream, empty, List.take_nil, List.append_nil, List.nil_append]

theorem put_first_iff (first : handler.queue = []) (established : handler.state = .established)
    (intact : handler.Intact) (possible : sent.Possible (block2send event cont)) :
    (handler.step highWaterMark (.put event cont sent wakeup)).Intact ↔
      KeepsFirst highWaterMark handler.errno (block2send event cont) sent wakeup := by
  unfold KeepsFirst
  split
  · next whole => exact put_first_whole first established intact possible whole
  · next back =>
      by_cases room : HasRoom highWaterMark []
      · rw [if_pos room]
        exact put_first_back first established intact possible back room
      · rw [if_neg room]
        exact put_first_refused first established intact possible back room
  · next closed =>
      refine iff_of_true (intact_of_failed ?_) trivial
      have failed := handler.nonblkPut_closed highWaterMark wakeup closed
      rw [step_put_first first]
      dsimp only
      split <;> exact failed

theorem handleOutput_iff (queued : handler.queue = event :: rest)
    (established : handler.state = .established) (intact : handler.Intact)
    (possible : sent.Possible event) :
    (handler.step highWaterMark (.handleOutput sent wakeup)).Intact ↔
      KeepsHead highWaterMark handler.errno event rest sent wakeup := by
  unfold KeepsHead
  split
  · next whole => exact handleOutput_whole queued established intact possible whole
  · next back =>
      by_cases room : HasRoom highWaterMark rest
      · rw [if_pos room]
        exact handleOutput_back queued established intact possible back room
      · rw [if_neg room]
        exact handleOutput_refused queued established intact possible back room
  · next closed =>
      refine iff_of_true (intact_of_failed ?_) trivial
      have failed := nonblkPut_closed { handler with queue := rest } highWaterMark wakeup closed
      rw [step_handleOutput queued]
      dsimp only
      split <;> exact failed

/-- A step keeps the stream intact exactly if its outcome is one of those that do. -/
theorem step_intact_iff (call : Call) (intact : handler.Intact) (allowed : handler.Allowed call) :
    (handler.step highWaterMark call).Intact ↔ handler.Keeps highWaterMark call := by
  cases call with
  | put event cont sent wakeup =>
      obtain ⟨established, possible⟩ := allowed
      by_cases first : handler.queue = []
      · rw [put_first_iff first established intact possible]
        exact ⟨fun keeps _ => keeps, fun keeps => keeps first⟩
      · exact iff_of_true (put_behind first intact) (fun empty => absurd empty first)
  | handleOutput sent wakeup =>
      obtain ⟨established, possible⟩ := allowed
      match queued : handler.queue with
      | [] =>
          refine iff_of_true ?_ (fun event rest block => ?_)
          · have idle : handler.step highWaterMark (.handleOutput sent wakeup) =
                { handler with errno := .ewouldblock } := by
              simp only [step, handleOutput, queued]
            rw [idle]
            exact intact
          · rw [queued] at block
            cases block
      | event :: rest =>
          rw [queued] at possible
          rw [handleOutput_iff queued established intact (possible event rfl)]
          constructor
          · intro keeps head tail block
            rw [queued] at block
            cases block
            exact keeps
          · intro keeps
            exact keeps event rest queued
  | elsewhere errno => exact iff_of_true intact trivial

end Steps

theorem transmit_stream_intact_iff (highWaterMark : Nat) (calls : List Call)
    (admitted : (connection highWaterMark).Admits start calls) :
    (connection highWaterMark).Throughout Intact start calls ↔
      ((connection highWaterMark).restrict (Keeps highWaterMark)).Admits start calls := by
  refine (connection highWaterMark).throughout_iff_restrict ?_ ?_ admitted
  · intro handler call intact allowed
    exact step_intact_iff call intact allowed
  · intro _
    exact ⟨rfl, rfl⟩

/-- A message of five bytes, of which two are sent, and one of twenty bytes behind it. -/
def flowControlled : List Call :=
  [.put ⟨5, [1, 2, 3, 4, 5]⟩ [] (.short 2) true,
    .put ⟨4, [6, 6, 6, 6]⟩ [⟨16, List.replicate 16 7⟩] .complete true]

theorem transmit_stream_intact_iff_flowControlled :
    (connection 10).Admits start flowControlled ∧
      (connection 10).Throughout Intact start flowControlled := by
  have admitted : (connection 10).Admits start flowControlled := by decide
  refine ⟨admitted, (transmit_stream_intact_iff 10 flowControlled admitted).mpr ?_⟩
  refine ⟨⟨admitted.1, ?_⟩, ⟨admitted.2.1, ?_⟩, trivial⟩
  · intro _
    exact .inr ⟨rfl, by decide⟩
  · intro empty
    cases empty

/-- When the first message is continued, the message behind it fills the queue, which then
does not take the first message back: its last two bytes are lost. -/
theorem transmit_stream_intact_fails :
    ¬ ∀ (highWaterMark : Nat) (calls : List Call),
      (connection highWaterMark).Admits start calls →
        ((connection highWaterMark).exec start calls).Intact := by
  intro always
  have intact := always 10 (flowControlled ++ [.handleOutput (.short 1) true]) (by decide)
  obtain ⟨-, stream⟩ := intact rfl
  revert stream
  decide

end Transmit

end Nise.Dispatcherd
