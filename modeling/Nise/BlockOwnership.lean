import Nise.Ace.SendPath
import Nise.Dispatcherd.TransmitHandler
import Nise.Peer.PeerSend

/-!
# Block ownership on the send paths

`put (event, eh)` of the dispatcher's handlers makes a chain of a header and the data, and
`transmit` of a peer is given such a chain.  A chain is consolidated into one block, and the
chain is released, before the block is sent.  When sending fails, both callers release the
chain they started with: that is right for a message of a single block only.
-/

namespace Nise

open Nise.Ace

/-! ## The dispatcher -/

namespace Dispatcherd

namespace Transmit

/-- `put` of the block to send, with what becomes of the block. -/
def offer (handler : Transmit) (block : MessageBlock) (conditions : Conditions) :
    Transmit × Outcome :=
  if handler.queue = [] then
    let out := handler.nonblkPut conditions.highWaterMark block conditions.sent conditions.wakeup
    (out.1, ⟨out.2.1, out.2.2, block.length - conditions.sent.transferred block⟩)
  else
    match enqueueTail conditions.highWaterMark handler.queue block with
    | none => ({ handler with errno := .ewouldblock }, ⟨-1, .caller, block.length⟩)
    | some queue => ({ handler with queue := queue }, ⟨queue.length, .queue, block.length⟩)

theorem put_eq_offer (handler : Transmit) (event : MessageBlock) (cont : List MessageBlock)
    (conditions : Conditions) :
    handler.put conditions.highWaterMark event cont conditions.sent conditions.wakeup =
      ((handler.offer (block2send event cont) conditions).1,
        (handler.offer (block2send event cont) conditions).2.returned) := by
  unfold put offer
  dsimp only
  split
  · rfl
  · cases enqueueTail conditions.highWaterMark handler.queue (block2send event cont) with
    | none => rfl
    | some queue => rfl

/-- `handle_output` on the first block of the queue. -/
def resume (handler : Transmit) (event : MessageBlock) (rest : List MessageBlock)
    (conditions : Conditions) : Transmit × Outcome :=
  let out := { handler with queue := rest }.nonblkPut conditions.highWaterMark event
    conditions.sent conditions.wakeup
  (handler.handleOutput conditions.highWaterMark conditions.sent conditions.wakeup,
    ⟨out.2.1, out.2.2, event.length - conditions.sent.transferred event⟩)

section Queue

variable {highWaterMark : Nat} {handler : Transmit} {event : MessageBlock} {sent : SendResult}
  {wakeup : Bool}

theorem length_queue_nonblkPut :
    (handler.nonblkPut highWaterMark event sent wakeup).1.queue.length = handler.queue.length +
      if (handler.nonblkPut highWaterMark event sent wakeup).2.2 = .queue then 1 else 0 := by
  unfold nonblkPut enqueueHead
  dsimp only
  split_ifs <;> simp_all

theorem queue_handleOutput {rest : List MessageBlock} (queued : handler.queue = event :: rest) :
    (handler.handleOutput highWaterMark sent wakeup).queue =
      ({ handler with queue := rest }.nonblkPut highWaterMark event sent wakeup).1.queue := by
  unfold handleOutput
  simp only [queued]
  split <;> rfl

end Queue

def sendPath : SendPath Transmit where
  waiting := queue
  offer := offer
  resume := resume
  idle handler := { handler with errno := .ewouldblock }
  length_offer handler block conditions := by
    unfold offer
    split
    · exact length_queue_nonblkPut
    · unfold enqueueTail
      by_cases room : HasRoom conditions.highWaterMark handler.queue
      · simp [room]
      · simp [room]
  length_resume handler block rest conditions queued := by
    unfold resume
    dsimp only
    rw [queue_handleOutput queued]
    exact length_queue_nonblkPut
  waiting_idle _ := rfl

/-- The outcomes of sending a block after which it is in one hand.  The caller may drop a
block that comes back to it if it still has it, and the queue must not be left with a block
whose sending is reported as failed. -/
def Settled (errno : Errno) (queue : List MessageBlock) (block : MessageBlock)
    (conditions : Conditions) (droppable : Prop) : Prop :=
  match conditions.sent.verdict errno block with
  | .whole => toInt block.length ≠ -1
  | .back =>
      if HasRoom conditions.highWaterMark queue then
        conditions.wakeup = true ∧ toInt (conditions.sent.transferred block) ≠ -1
      else droppable
  | .failed => droppable

theorem nonblkPut_failed {highWaterMark : Nat} {handler : Transmit} {event : MessageBlock}
    {sent : SendResult} {wakeup : Bool} (failed : sent.verdict handler.errno event = .failed) :
    (handler.nonblkPut highWaterMark event sent wakeup).2 = (-1, .caller) := by
  obtain ⟨nonpositive, other⟩ := sent.nonpositive_of_failed failed
  unfold nonblkPut
  dsimp only
  rw [if_pos nonpositive, if_neg other]

theorem settles_nonblkPut (handler : Transmit) {event : MessageBlock} {conditions : Conditions}
    (possible : conditions.sent.Possible event) (chained : Bool) (printable : Prop) :
    let out := handler.nonblkPut conditions.highWaterMark event conditions.sent conditions.wakeup
    (Ledger.Settles chained
        ⟨out.2.1, out.2.2, event.length - conditions.sent.transferred event⟩ ∧
      (out.2.1 = -1 → printable)) ↔
      Settled handler.errno handler.queue event conditions (chained = false ∧ printable) := by
  dsimp only
  unfold Settled
  split
  · next whole =>
      obtain ⟨complete, -⟩ := conditions.sent.complete_of_whole possible whole
      have nothing : event.length - conditions.sent.transferred event = 0 := by
        rw [complete]
        exact Nat.sub_self _
      rw [handler.nonblkPut_whole conditions.wakeup possible whole, nothing,
        Ledger.settles_released, and_iff_left_of_imp]
      intro counted failure
      exact absurd failure counted
  · next back =>
      by_cases room : HasRoom conditions.highWaterMark handler.queue
      · obtain ⟨errno, rest, -, -, done⟩ :=
          handler.nonblkPut_back conditions.wakeup possible back room
        rw [done, if_pos room, Ledger.settles_queue, and_iff_left_of_imp]
        · cases conditions.wakeup <;> simp
        · intro counted failure
          exact absurd failure counted
      · obtain ⟨errno, done⟩ := handler.nonblkPut_refused conditions.wakeup back room
        rw [done, if_neg room, Ledger.settles_caller]
        simp
  · next failed =>
      rw [nonblkPut_failed failed, Ledger.settles_caller]
      simp

theorem settles_offer (handler : Transmit) {block : MessageBlock} {conditions : Conditions}
    (possible : handler.queue = [] → conditions.sent.Possible block) (chained : Bool)
    (printable : Prop) :
    (Ledger.Settles chained (handler.offer block conditions).2 ∧
      ((handler.offer block conditions).2.returned = -1 → printable)) ↔
      if handler.queue = [] then
        Settled handler.errno [] block conditions (chained = false ∧ printable)
      else HasRoom conditions.highWaterMark handler.queue ∨ chained = false ∧ printable := by
  unfold offer
  split
  · next empty =>
      have settles := handler.settles_nonblkPut (possible empty) chained printable
      rw [empty] at settles
      exact settles
  · by_cases room : HasRoom conditions.highWaterMark handler.queue
    · have counted : ((handler.queue ++ [block]).length : Int) ≠ -1 := by omega
      rw [enqueueTail, if_pos room]
      dsimp only
      rw [Ledger.settles_queue]
      exact iff_of_true ⟨counted, fun failure => absurd failure counted⟩ (.inl room)
    · rw [enqueueTail, if_neg room]
      dsimp only
      rw [Ledger.settles_caller, or_iff_right room]
      simp

theorem settles_resume (handler : Transmit) {event : MessageBlock} {rest : List MessageBlock}
    {conditions : Conditions} (possible : conditions.sent.Possible event) :
    Ledger.Settles false (handler.resume event rest conditions).2 ↔
      Settled handler.errno rest event conditions True := by
  have settles :=
    settles_nonblkPut ({ handler with queue := rest } : Transmit) possible false True
  have droppable : (false = false ∧ True) = True := by simp
  rw [droppable] at settles
  exact (and_iff_left fun _ => trivial).symm.trans settles

end Transmit

/-! ### A message with a header -/

/-- What a handler is configured for.  A filter rewrites the first block of the data and the
header in place. -/
structure Channel where
  noheader : Bool
  outputFilter : Option (MessageBlock → List UInt8 → MessageBlock × List UInt8)

/-- The chain that `put (event, eh)` makes: the caller's blocks are shared, or copied for the
filter, and the header goes before them.  There is none when a null pointer is read. -/
def Channel.startMb (channel : Channel) (event : List (Nat × MessageBlock))
    (eh : Option (List UInt8)) : Option (List Link) :=
  let prepared : Option (List Link × Option (List UInt8)) :=
    match channel.outputFilter with
    | some process =>
        match event, eh with
        | first :: rest, some header =>
            let out := process first.2 header
            some ((none, out.1) :: rest.map (fun block => (none, block.2)), some out.2)
        | _, _ => none
    | none => some (event.map fun block => (some block.1, block.2), eh)
  prepared.map fun (blocks, transmitEh) =>
    match transmitEh with
    | some header =>
        if channel.noheader = false ∧ 0 < header.length then
          (none, ⟨header.length, header⟩) :: blocks
        else blocks
    | none => blocks

namespace Transmit

/-- `put (event, eh)`.  A message of no blocks, and a failure without a header to print, read
a null pointer. -/
def putEvent (channel : Channel) (books : Books Transmit) (event : List (Nat × MessageBlock))
    (eh : Option (List UInt8)) (conditions : Conditions) : Books Transmit :=
  if books.handler.state = .established then
    match channel.startMb event eh with
    | some (startMb :: cont) =>
        let retval := (books.handler.offer (Books.sending startMb cont) conditions).2.returned
        if retval = -1 ∧ eh = none then { books with crashed := true }
        else books.send sendPath startMb cont conditions
    | _ => { books with crashed := true }
  else books

/-- A call of the handler.  Between two calls other code may leave any `errno`, and may set
the state, as a connection that is set up again does. -/
inductive SendCall where
  | put (event : List (Nat × MessageBlock)) (eh : Option (List UInt8)) (conditions : Conditions)
  | handleOutput (conditions : Conditions)
  | elsewhere (errno : Errno) (state : HandlerState)

def account (channel : Channel) (books : Books Transmit) : SendCall → Books Transmit
  | .put event eh conditions => putEvent channel books event eh conditions
  | .handleOutput conditions => books.goOn sendPath conditions
  | .elsewhere errno state =>
      { books with handler := { books.handler with errno := errno, state := state } }

/-- `send_n` does what it can do with the block that is sent. -/
def Sendable (channel : Channel) (books : Books Transmit) : SendCall → Prop
  | .put event eh conditions =>
      ∀ chain ∈ channel.startMb event eh, ∀ startMb ∈ chain.head?,
        conditions.sent.Possible (Books.sending startMb chain.tail)
  | .handleOutput conditions =>
      ∀ event ∈ books.handler.queue.head?, conditions.sent.Possible event
  | .elsewhere _ _ => True

instance (channel : Channel) (books : Books Transmit) : DecidablePred (Sendable channel books)
  | .put event eh conditions =>
      inferInstanceAs (Decidable (∀ chain ∈ channel.startMb event eh, ∀ startMb ∈ chain.head?,
        conditions.sent.Possible (Books.sending startMb chain.tail)))
  | .handleOutput conditions =>
      inferInstanceAs (Decidable (∀ event ∈ books.handler.queue.head?,
        conditions.sent.Possible event))
  | .elsewhere _ _ => inferInstanceAs (Decidable True)

/-- The calls of one handler; there are no more after a crash. -/
def accounts (channel : Channel) : Lib.System (Books Transmit) SendCall where
  step := account channel
  guard books call := books.crashed = false ∧ Sendable channel books call

instance (channel : Channel) (books : Books Transmit) (call : SendCall) :
    Decidable ((accounts channel).guard books call) :=
  inferInstanceAs (Decidable (books.crashed = false ∧ Sendable channel books call))

/-- A call after which every block is in one hand. -/
def Balances (channel : Channel) (books : Books Transmit) : SendCall → Prop
  | .put event eh conditions =>
      books.handler.state = .established →
        match channel.startMb event eh with
        | some (startMb :: cont) =>
            if books.handler.queue = [] then
              Settled books.handler.errno [] (Books.sending startMb cont) conditions
                (cont = [] ∧ eh ≠ none)
            else
              HasRoom conditions.highWaterMark books.handler.queue ∨ cont = [] ∧ eh ≠ none
        | _ => False
  | .handleOutput conditions =>
      ∀ event rest, books.handler.queue = event :: rest →
        Settled books.handler.errno rest event conditions True
  | .elsewhere _ _ => True

section Steps

variable {channel : Channel} {books : Books Transmit} {outside : DataBlock → Int}

theorem synced_account (synced : books.Synced sendPath) (call : SendCall) :
    (account channel books call).Synced sendPath := by
  cases call with
  | put event eh conditions =>
      unfold account putEvent
      dsimp only
      split
      · split
        · split
          · exact synced
          · exact synced.send _ _ _
        · exact synced
      · exact synced
  | handleOutput conditions => exact synced.goOn conditions
  | elsewhere errno state => exact synced

theorem kept_putEvent_iff (kept : books.Kept outside) {event : List (Nat × MessageBlock)}
    {eh : Option (List UInt8)} {conditions : Conditions}
    (sendable : Sendable channel books (.put event eh conditions)) :
    (putEvent channel books event eh conditions).Kept outside ↔
      Balances channel books (.put event eh conditions) := by
  unfold putEvent Balances
  by_cases established : books.handler.state = .established
  · rw [if_pos established]
    dsimp only
    rw [forall_prop_of_true established]
    split
    · next startMb cont chain =>
        have possible : conditions.sent.Possible (Books.sending startMb cont) :=
          sendable _ chain startMb rfl
        have single : (decide (cont ≠ []) = false ∧ eh ≠ none) = (cont = [] ∧ eh ≠ none) := by
          simp
        have settles := books.handler.settles_offer (fun _ => possible)
          (decide (cont ≠ [])) (eh ≠ none)
        rw [single] at settles
        rw [← settles]
        split
        · next failure => simp [Books.Kept, failure.1, failure.2]
        · next fine =>
            rw [Books.kept_send_iff kept]
            refine (and_iff_left ?_).symm
            intro failed missing
            exact fine ⟨failed, missing⟩
    · next empty =>
        exact iff_of_false (fun after => Bool.noConfusion after.1) id
  · rw [if_neg established]
    exact iff_of_true kept fun impossible => absurd impossible established

theorem kept_account_iff (synced : books.Synced sendPath) (kept : books.Kept outside)
    {call : SendCall} (sendable : Sendable channel books call) :
    (account channel books call).Kept outside ↔ Balances channel books call := by
  cases call with
  | put event eh conditions => exact kept_putEvent_iff kept sendable
  | handleOutput conditions =>
      refine (Books.kept_goOn_iff kept synced conditions).trans ?_
      refine forall_congr' fun event => forall_congr' fun rest => forall_congr' fun queued => ?_
      have first : books.handler.queue = event :: rest := queued
      have possible : conditions.sent.Possible event := sendable event (by rw [first]; rfl)
      exact books.handler.settles_resume possible
  | elsewhere errno state => exact iff_of_true kept trivial

end Steps

end Transmit

end Dispatcherd

/-! ## The peer -/

namespace Peer.Outgoing

def offer (handler : Outgoing) (mb : MessageBlock) (conditions : Conditions) :
    Outgoing × Outcome :=
  let out := handler.put conditions.highWaterMark mb conditions.sent conditions.wakeup
  if handler.queue = [] then
    let call := nonblkPut conditions.highWaterMark handler.queue handler.errno mb
      conditions.sent conditions.wakeup
    (out.1, ⟨out.2, call.owner, mb.length - conditions.sent.transferred mb⟩)
  else if HasRoom conditions.highWaterMark handler.queue then
    (out.1, ⟨out.2, .queue, mb.length⟩)
  else (out.1, ⟨out.2, .caller, mb.length⟩)

theorem transmit_eq_offer (handler : Outgoing) (startMb : MessageBlock)
    (cont : List MessageBlock) (conditions : Conditions) :
    handler.transmit conditions.highWaterMark startMb cont conditions.sent conditions.wakeup =
      ((handler.offer (block2send startMb cont) conditions).1,
        (handler.offer (block2send startMb cont) conditions).2.returned) := by
  unfold transmit offer
  dsimp only
  split
  · rfl
  · split <;> rfl

def resume (handler : Outgoing) (mb : MessageBlock) (rest : List MessageBlock)
    (conditions : Conditions) : Outgoing × Outcome :=
  let call := nonblkPut conditions.highWaterMark rest handler.errno mb conditions.sent
    conditions.wakeup
  ((handler.handleOutput conditions.highWaterMark conditions.sent conditions.wakeup).1,
    ⟨call.returned, call.owner, mb.length - conditions.sent.transferred mb⟩)

theorem length_back_nonblkPut {highWaterMark : Nat} {queue : List MessageBlock} {errno : Errno}
    {mb : MessageBlock} {sent : SendResult} {wakeup : Bool} :
    (nonblkPut highWaterMark queue errno mb sent wakeup).back.length =
      if (nonblkPut highWaterMark queue errno mb sent wakeup).owner = .queue then 1 else 0 := by
  have notQueued : (send errno mb sent).owner ≠ .queue := by
    unfold send
    dsimp only
    split_ifs <;> simp
  unfold nonblkPut enqueueHead
  dsimp only
  split_ifs <;> simp_all

def sendPath : SendPath Outgoing where
  waiting := queue
  offer := offer
  resume := resume
  idle handler := { handler with errno := .ewouldblock }
  length_offer handler mb conditions := by
    unfold offer put
    by_cases empty : handler.queue = []
    · simp only [if_pos empty, List.length_append, length_back_nonblkPut]
      omega
    · by_cases room : HasRoom conditions.highWaterMark handler.queue
      · simp [empty, room, enqueueTail]
      · simp [empty, room, enqueueTail]
  length_resume handler mb rest conditions queued := by
    unfold resume handleOutput
    simp only [queued, List.length_append, length_back_nonblkPut]
    omega
  waiting_idle _ := rfl

/-- A count that `nonblk_put` reads as a failure. -/
def Misread (mb : MessageBlock) (sent : SendResult) : Prop :=
  0 < sent.value mb ∧ toInt (sent.value mb) = -1

instance (mb : MessageBlock) (sent : SendResult) : Decidable (Misread mb sent) :=
  inferInstanceAs (Decidable (0 < sent.value mb ∧ toInt (sent.value mb) = -1))

/-- The outcomes of sending a block after which it is in one hand.  A failure is reported as
0, so that nobody has the block then. -/
def Settled (errno : Errno) (queue : List MessageBlock) (mb : MessageBlock)
    (conditions : Conditions) (droppable : Prop) : Prop :=
  match conditions.sent.verdict errno mb with
  | .whole => toInt mb.length ≠ -1
  | .back =>
      if HasRoom conditions.highWaterMark queue ∧ ¬ Misread mb conditions.sent then
        conditions.wakeup = true
      else droppable
  | .failed => False

theorem settles_nonblkPut (queue : List MessageBlock) (errno : Errno) {mb : MessageBlock}
    {conditions : Conditions} (possible : conditions.sent.Possible mb) (chained : Bool) :
    let call := nonblkPut conditions.highWaterMark queue errno mb conditions.sent
      conditions.wakeup
    Ledger.Settles chained
        ⟨call.returned, call.owner, mb.length - conditions.sent.transferred mb⟩ ↔
      Settled errno queue mb conditions (chained = false) := by
  dsimp only
  unfold Settled
  split
  · next whole =>
      obtain ⟨complete, -⟩ := conditions.sent.complete_of_whole possible whole
      have nothing : mb.length - conditions.sent.transferred mb = 0 := by
        rw [complete]
        exact Nat.sub_self _
      rw [nonblkPut_whole conditions.wakeup possible whole, nothing, Ledger.settles_released]
  · next back =>
      rcases conditions.sent.blocked_or_short_of_back possible back with
        ⟨nonpositive, blocks⟩ | ⟨count, short, positive, less⟩
      · have counted : ¬ Misread mb conditions.sent := fun misread => by
          have := misread.1
          omega
        rw [nonblkPut_blocked conditions.wakeup nonpositive blocks]
        by_cases room : HasRoom conditions.highWaterMark queue
        · have accepted : HasRoom conditions.highWaterMark queue ∧ ¬ Misread mb conditions.sent :=
            ⟨room, counted⟩
          rw [if_pos room, if_pos accepted, Ledger.settles_queue]
          cases conditions.wakeup <;> simp
        · rw [if_neg room, if_neg fun accepted => room accepted.1, Ledger.settles_caller]
          simp
      · have counted : Misread mb conditions.sent ↔ toInt count = -1 := by
          rw [short]
          exact and_iff_right (Int.natCast_pos.mpr positive)
        rw [short] at counted ⊢
        rw [nonblkPut_short conditions.wakeup positive less]
        by_cases both : toInt count ≠ -1 ∧ HasRoom conditions.highWaterMark queue
        · have accepted : HasRoom conditions.highWaterMark queue ∧ ¬ Misread mb (.short count) :=
            ⟨both.2, counted.not.mpr both.1⟩
          rw [if_pos both, if_pos accepted, Ledger.settles_queue]
          cases conditions.wakeup <;> simp
        · have refused : ¬ (HasRoom conditions.highWaterMark queue ∧ ¬ Misread mb (.short count)) :=
            fun accepted => both ⟨counted.not.mp accepted.2, accepted.1⟩
          rw [if_neg both, if_neg refused, Ledger.settles_caller]
          simp
  · next failed =>
      rw [nonblkPut_failed conditions.wakeup failed, Ledger.settles_caller]
      simp

theorem settles_offer (handler : Outgoing) {mb : MessageBlock} {conditions : Conditions}
    (possible : conditions.sent.Possible mb) (chained : Bool) :
    Ledger.Settles chained (handler.offer mb conditions).2 ↔
      if handler.queue = [] then Settled handler.errno [] mb conditions (chained = false)
      else HasRoom conditions.highWaterMark handler.queue ∨ chained = false := by
  unfold offer put
  by_cases empty : handler.queue = []
  · simp only [if_pos empty]
    rw [empty]
    exact settles_nonblkPut [] handler.errno possible chained
  · simp only [if_neg empty]
    by_cases room : HasRoom conditions.highWaterMark handler.queue
    · have counted : ((handler.queue ++ [mb]).length : Int) ≠ -1 := by omega
      simp only [enqueueTail, if_pos room, Ledger.settles_queue]
      exact iff_of_true counted (.inl room)
    · simp only [enqueueTail, if_neg room, Ledger.settles_caller]
      simp [room]

/-- A call of the handler; between two calls other code may leave any `errno`. -/
inductive SendCall where
  | transmit (startMb : Link) (cont : List Link) (conditions : Conditions)
  | handleOutput (conditions : Conditions)
  | elsewhere (errno : Errno)

def account (books : Books Outgoing) : SendCall → Books Outgoing
  | .transmit startMb cont conditions => books.send sendPath startMb cont conditions
  | .handleOutput conditions => books.goOn sendPath conditions
  | .elsewhere errno => { books with handler := { books.handler with errno := errno } }

def Sendable (books : Books Outgoing) : SendCall → Prop
  | .transmit startMb cont conditions => conditions.sent.Possible (Books.sending startMb cont)
  | .handleOutput conditions => ∀ mb ∈ books.handler.queue.head?, conditions.sent.Possible mb
  | .elsewhere _ => True

instance (books : Books Outgoing) : DecidablePred (Sendable books)
  | .transmit startMb cont conditions =>
      inferInstanceAs (Decidable (conditions.sent.Possible (Books.sending startMb cont)))
  | .handleOutput conditions =>
      inferInstanceAs (Decidable (∀ mb ∈ books.handler.queue.head?, conditions.sent.Possible mb))
  | .elsewhere _ => inferInstanceAs (Decidable True)

def accounts : Lib.System (Books Outgoing) SendCall where
  step := account
  guard := Sendable

instance (books : Books Outgoing) (call : SendCall) : Decidable (accounts.guard books call) :=
  inferInstanceAs (Decidable (Sendable books call))

def Balances (books : Books Outgoing) : SendCall → Prop
  | .transmit startMb cont conditions =>
      if books.handler.queue = [] then
        Settled books.handler.errno [] (Books.sending startMb cont) conditions (cont = [])
      else HasRoom conditions.highWaterMark books.handler.queue ∨ cont = []
  | .handleOutput conditions =>
      ∀ mb rest, books.handler.queue = mb :: rest →
        Settled books.handler.errno rest mb conditions True
  | .elsewhere _ => True

section Steps

variable {books : Books Outgoing} {outside : DataBlock → Int}

theorem synced_account (synced : books.Synced sendPath) (call : SendCall) :
    (account books call).Synced sendPath := by
  cases call with
  | transmit startMb cont conditions => exact synced.send startMb cont conditions
  | handleOutput conditions => exact synced.goOn conditions
  | elsewhere errno => exact synced

theorem kept_account_iff (synced : books.Synced sendPath) (kept : books.Kept outside)
    {call : SendCall} (sendable : Sendable books call) :
    (account books call).Kept outside ↔ Balances books call := by
  cases call with
  | transmit startMb cont conditions =>
      have single : (decide (cont ≠ []) = false) = (cont = []) := by simp
      have settles := books.handler.settles_offer sendable (decide (cont ≠ []))
      rw [single] at settles
      exact (Books.kept_send_iff kept startMb cont conditions).trans settles
  | handleOutput conditions =>
      refine (Books.kept_goOn_iff kept synced conditions).trans ?_
      refine forall_congr' fun mb => forall_congr' fun rest => forall_congr' fun queued => ?_
      have first : books.handler.queue = mb :: rest := queued
      have possible : conditions.sent.Possible mb := sendable mb (by rw [first]; rfl)
      have settles := settles_nonblkPut rest books.handler.errno possible false
      have droppable : (false = false) = True := by simp
      rw [droppable] at settles
      exact settles
  | elsewhere errno => exact iff_of_true kept trivial

end Steps

end Peer.Outgoing

/-! ## Both paths -/

theorem blocks_kept_iff_balances (channel : Dispatcherd.Channel) (outside : DataBlock → Int)
    {calls : List Dispatcherd.Transmit.SendCall} {peerCalls : List Peer.Outgoing.SendCall}
    (admitted : (Dispatcherd.Transmit.accounts channel).Admits (.start .start outside) calls)
    (peerAdmitted : Peer.Outgoing.accounts.Admits (.start .start outside) peerCalls) :
    ((Dispatcherd.Transmit.accounts channel).Throughout (Books.Kept · outside)
          (.start .start outside) calls ↔
        ((Dispatcherd.Transmit.accounts channel).restrict
          (Dispatcherd.Transmit.Balances channel)).Admits (.start .start outside) calls) ∧
      (Peer.Outgoing.accounts.Throughout (Books.Kept · outside) (.start .start outside)
          peerCalls ↔
        (Peer.Outgoing.accounts.restrict Peer.Outgoing.Balances).Admits (.start .start outside)
          peerCalls) := by
  constructor
  · refine Lib.System.throughout_iff_restrict_of_invariant _
      (Books.Synced Dispatcherd.Transmit.sendPath) ?_ ?_ (Books.synced_start rfl outside)
      (Books.kept_start _ outside) admitted
    · intro books call synced _
      exact Dispatcherd.Transmit.synced_account synced call
    · intro books call synced kept guarded
      exact Dispatcherd.Transmit.kept_account_iff synced kept guarded.2
  · refine Lib.System.throughout_iff_restrict_of_invariant _
      (Books.Synced Peer.Outgoing.sendPath) ?_ ?_ (Books.synced_start rfl outside)
      (Books.kept_start _ outside) peerAdmitted
    · intro books call synced _
      exact Peer.Outgoing.synced_account synced call
    · intro books call synced kept guarded
      exact Peer.Outgoing.kept_account_iff synced kept guarded

/-- The data block that the callers of the runs below share with them. -/
def lentOnce : DataBlock → Int := fun data => if data = .lent 7 then 1 else 0

/-- A header and its data meet flow control, and the rest is sent later. -/
def flowControlledPut : List Dispatcherd.Transmit.SendCall :=
  [.put [(7, ⟨3, [1, 2, 3]⟩)] (some [9, 9]) ⟨64, .short 2, true⟩,
    .handleOutput ⟨64, .complete, true⟩]

def flowControlledTransmit : List Peer.Outgoing.SendCall :=
  [.transmit (none, ⟨2, [9, 9]⟩) [(some 7, ⟨3, [1, 2, 3]⟩)] ⟨64, .fail .ewouldblock 0, true⟩,
    .handleOutput ⟨64, .complete, true⟩]

theorem blocks_kept_flowControlled :
    (Dispatcherd.Transmit.accounts ⟨false, none⟩).Throughout (Books.Kept · lentOnce)
        (.start .start lentOnce) flowControlledPut ∧
      Peer.Outgoing.accounts.Throughout (Books.Kept · lentOnce) (.start .start lentOnce)
        flowControlledTransmit := by
  have admitted : (Dispatcherd.Transmit.accounts ⟨false, none⟩).Admits (.start .start lentOnce)
      flowControlledPut := by decide
  have peerAdmitted : Peer.Outgoing.accounts.Admits (.start .start lentOnce)
      flowControlledTransmit := by decide
  have kept := blocks_kept_iff_balances ⟨false, none⟩ lentOnce admitted peerAdmitted
  refine ⟨kept.1.mpr ⟨⟨admitted.1, ?_⟩, ⟨admitted.2.1, ?_⟩, trivial⟩,
    kept.2.mpr ⟨⟨peerAdmitted.1, ?_⟩, ⟨peerAdmitted.2.1, ?_⟩, trivial⟩⟩
  · intro _
    exact ⟨rfl, by decide⟩
  · intro event rest queued
    cases queued
    exact fun impossible => absurd impossible (by decide)
  · rfl
  · intro mb rest queued
    cases queued
    exact fun impossible => absurd impossible (by decide)

/-- A chain whose block the full queue refuses is released twice, and a failure that is
reported as 0 leaves the block to nobody. -/
theorem blocks_not_kept :
    (¬ ∀ (channel : Dispatcherd.Channel) (outside : DataBlock → Int)
        (calls : List Dispatcherd.Transmit.SendCall),
      (Dispatcherd.Transmit.accounts channel).Admits (.start .start outside) calls →
        (Dispatcherd.Transmit.accounts channel).Throughout (Books.Kept · outside)
          (.start .start outside) calls) ∧
    ¬ ∀ (outside : DataBlock → Int) (calls : List Peer.Outgoing.SendCall),
      Peer.Outgoing.accounts.Admits (.start .start outside) calls →
        Peer.Outgoing.accounts.Throughout (Books.Kept · outside) (.start .start outside)
          calls := by
  constructor
  · intro always
    have kept := (always ⟨false, none⟩ lentOnce
      [.put [(7, ⟨3, [1, 2, 3]⟩)] (some [9, 9]) ⟨0, .fail .ewouldblock 0, true⟩]
      (by decide)).2
    have once := kept.2.once 0
    revert once
    decide
  · intro always
    have kept := (always lentOnce
      [.transmit (none, ⟨2, [9, 9]⟩) [] ⟨64, .fail (.other 104) 0, true⟩]
      (by decide)).2
    have once := kept.2.once 0
    revert once
    decide

end Nise
