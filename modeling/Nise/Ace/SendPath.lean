import Nise.Ace.BlockLedger

/-!
# A send path and its books

Both handlers offer a block to the socket or to their queue, and go on with the first block
of the queue when the socket can be written again.  The books of a handler are a ledger of
the blocks that its calls make.
-/

namespace Nise.Ace

/-- What the surroundings decide about one call: the mark of the queue, so that the queue may
accept or refuse a block whatever it holds, and the outcomes of `send_n` and
`schedule_wakeup`. -/
structure Conditions where
  highWaterMark : Nat
  sent : SendResult
  wakeup : Bool
  deriving DecidableEq, Repr

/-- `offer` gives a block to a handler, `resume` takes the first block of its queue. -/
structure SendPath (Handler : Type) where
  waiting : Handler → List MessageBlock
  offer : Handler → MessageBlock → Conditions → Handler × Outcome
  resume : Handler → MessageBlock → List MessageBlock → Conditions → Handler × Outcome
  idle : Handler → Handler
  length_offer : ∀ handler block conditions,
    (waiting (offer handler block conditions).1).length = (waiting handler).length +
      if (offer handler block conditions).2.owner = .queue then 1 else 0
  length_resume : ∀ handler block rest conditions, waiting handler = block :: rest →
    (waiting (resume handler block rest conditions).1).length = rest.length +
      if (resume handler block rest conditions).2.owner = .queue then 1 else 0
  waiting_idle : ∀ handler, waiting (idle handler) = waiting handler

/-- A block of a chain, with the name of the data block it shares with the caller, if any. -/
abbrev Link := Option Nat × MessageBlock

structure Books (Handler : Type) where
  handler : Handler
  ledger : Ledger
  crashed : Bool

namespace Books

/-- The books of a handler that has sent nothing, where the data blocks of the callers have
some counts. -/
def start {Handler : Type} (handler : Handler) (outside : DataBlock → Int) : Books Handler :=
  ⟨handler, .start outside, false⟩

variable {Handler : Type} (path : SendPath Handler) (books : Books Handler)

/-- The block that is sent for a chain. -/
def sending (startMb : Link) (cont : List Link) : MessageBlock :=
  block2send startMb.2 (cont.map Prod.snd)

def send (startMb : Link) (cont : List Link) (conditions : Conditions) : Books Handler :=
  let out := path.offer books.handler (sending startMb cont) conditions
  { books with
    handler := out.1
    ledger := books.ledger.submit ((startMb :: cont).map Prod.fst) out.2 }

def goOn (conditions : Conditions) : Books Handler :=
  match path.waiting books.handler with
  | [] => { books with handler := path.idle books.handler }
  | block :: rest =>
      let out := path.resume books.handler block rest conditions
      { books with handler := out.1, ledger := books.ledger.resume out.2 }

/-- The ledger has as many blocks in its queue as the handler. -/
def Synced : Prop := books.ledger.queue.length = (path.waiting books.handler).length

/-- All calls have returned, and every block they made is in one hand. -/
def Kept (outside : DataBlock → Int) : Prop :=
  books.crashed = false ∧ books.ledger.Owned outside

variable {path books} {outside : DataBlock → Int}

theorem kept_start (handler : Handler) (outside : DataBlock → Int) :
    (start handler outside).Kept outside :=
  ⟨rfl, Ledger.Owned.start outside⟩

theorem synced_start {handler : Handler} (empty : path.waiting handler = [])
    (outside : DataBlock → Int) : (start handler outside).Synced path := by
  unfold Synced start
  rw [empty]
  rfl

theorem Synced.send (synced : books.Synced path) (startMb : Link) (cont : List Link)
    (conditions : Conditions) : (books.send path startMb cont conditions).Synced path := by
  unfold Synced Books.send
  dsimp only
  rw [Ledger.length_queue_submit, path.length_offer]
  unfold Synced at synced
  omega

theorem Synced.goOn (synced : books.Synced path) (conditions : Conditions) :
    (books.goOn path conditions).Synced path := by
  unfold Synced at synced
  unfold Synced Books.goOn
  split
  · dsimp only
    rw [path.waiting_idle]
    exact synced
  · next block rest first =>
      rw [first, List.length_cons] at synced
      have queued : books.ledger.queue ≠ [] := List.ne_nil_of_length_eq_add_one synced
      have shorter := Ledger.length_queue_resume queued
        (path.resume books.handler block rest conditions).2
      dsimp only
      rw [path.length_resume _ _ _ _ first]
      omega

theorem kept_send_iff (kept : books.Kept outside) (startMb : Link) (cont : List Link)
    (conditions : Conditions) :
    (books.send path startMb cont conditions).Kept outside ↔
      Ledger.Settles (decide (cont ≠ []))
        (path.offer books.handler (sending startMb cont) conditions).2 := by
  obtain ⟨returned, owned⟩ := kept
  have chained : decide (1 < ((startMb :: cont).map Prod.fst).length) = decide (cont ≠ []) := by
    cases cont <;> simp
  unfold Kept Books.send
  dsimp only
  rw [and_iff_right returned, owned.submit_iff (by simp), chained]

theorem kept_goOn_iff (kept : books.Kept outside) (synced : books.Synced path)
    (conditions : Conditions) :
    (books.goOn path conditions).Kept outside ↔
      ∀ block rest, path.waiting books.handler = block :: rest →
        Ledger.Settles false (path.resume books.handler block rest conditions).2 := by
  obtain ⟨returned, owned⟩ := kept
  unfold Synced at synced
  unfold Kept Books.goOn
  split
  · next empty =>
      refine iff_of_true ⟨returned, owned⟩ fun block rest first => ?_
      rw [empty] at first
      cases first
  · next head tail queue =>
      rw [queue, List.length_cons] at synced
      have queued : books.ledger.queue ≠ [] := List.ne_nil_of_length_eq_add_one synced
      dsimp only
      rw [and_iff_right returned, owned.resume_iff queued]
      constructor
      · intro settles block rest first
        rw [queue] at first
        cases first
        exact settles
      · intro all
        exact all head tail queue

end Books

end Nise.Ace
