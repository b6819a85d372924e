import Mathlib.Data.List.Count
import Nise.Ace.MessageQueue

/-!
# Who owns a message block

A message block refers to a data block, and the data block counts the message blocks that
refer to it.  `duplicate` makes another message block for the same data block, `release`
destroys a message block, with the chain behind it, and takes one from the count.  A ledger
keeps the blocks that a send path has made, the ones that are queued and the releases.
-/

namespace Nise.Ace

/-- A data block: one that was made together with a message block, or one of the caller. -/
inductive DataBlock where
  | own (id : Nat)
  | lent (name : Nat)
  deriving DecidableEq, Repr

/-- Why a block is released: it was sent up to some bytes, its bytes were copied into another
block, or the call that was given it returned a value. -/
inductive Cause where
  | sent (unsent : Nat)
  | copied
  | dropped (returned : Int)
  deriving DecidableEq, Repr

def Cause.Justified : Cause → Prop
  | sent unsent => unsent = 0
  | copied => True
  | dropped returned => returned = -1

/-- The outcome of sending a block: what the call returned, who has the block then and how
many bytes of it are not on the wire. -/
structure Outcome where
  returned : Int
  owner : Owner
  unsent : Nat
  deriving DecidableEq, Repr

/-- Message blocks are numbered as they are made; `blocks` has the data block of each. -/
structure Ledger where
  blocks : List DataBlock
  refs : DataBlock → Int
  queue : List Nat
  released : List (Nat × Cause)

namespace Ledger

def start (outside : DataBlock → Int) : Ledger := ⟨[], outside, [], []⟩

variable (ledger : Ledger)

def create (data : DataBlock) : Ledger :=
  { ledger with
    blocks := ledger.blocks ++ [data]
    refs := fun other => if data = other then ledger.refs other + 1 else ledger.refs other }

/-- A new block with its own data, or a duplicate of one of the caller's blocks. -/
def make : Option Nat → Ledger
  | none => ledger.create (.own ledger.blocks.length)
  | some name => ledger.create (.lent name)

def release (cause : Cause) (id : Nat) : Ledger :=
  { ledger with
    refs := fun data =>
      if ledger.blocks[id]? = some data then ledger.refs data - 1 else ledger.refs data
    released := ledger.released ++ [(id, cause)] }

def makeChain (sources : List (Option Nat)) : Ledger := sources.foldl make ledger

def releaseChain (cause : Cause) (ids : List Nat) : Ledger :=
  ids.foldl (fun ledger id => ledger.release cause id) ledger

/-- What becomes of a block that was to be sent. -/
def settle (id : Nat) (front : Bool) (outcome : Outcome) : Ledger :=
  match outcome.owner with
  | .caller => ledger
  | .queue =>
      { ledger with queue := if front then id :: ledger.queue else ledger.queue ++ [id] }
  | .released => ledger.release (.sent outcome.unsent) id

/-- The numbers of a chain that is made next. -/
def nextChain (count : Nat) : List Nat := List.range' ledger.blocks.length count

/-- The block that is sent: a chain is consolidated into a new block and released. -/
def consolidated (sources : List (Option Nat)) : Ledger × Nat :=
  let made := ledger.makeChain sources
  if sources.length ≤ 1 then (made, ledger.blocks.length)
  else ((made.make none).releaseChain .copied (ledger.nextChain sources.length),
    ledger.blocks.length + sources.length)

/-- A message is made and sent.  When the call fails, the caller releases the message that it
made. -/
def submit (sources : List (Option Nat)) (outcome : Outcome) : Ledger :=
  let sending := ledger.consolidated sources
  let settled := sending.1.settle sending.2 false outcome
  if outcome.returned = -1 then
    settled.releaseChain (.dropped outcome.returned) (ledger.nextChain sources.length)
  else settled

/-- The first block of the queue is sent.  When that fails, the block is released. -/
def resume (outcome : Outcome) : Ledger :=
  match ledger.queue with
  | [] => ledger
  | id :: rest =>
      let settled := { ledger with queue := rest }.settle id true outcome
      if outcome.returned = -1 then settled.release (.dropped outcome.returned) id else settled

/-! ## Who has which block -/

/-- How often a block is in the queue or has been released. -/
def uses (id : Nat) : Nat := ledger.queue.count id + (ledger.released.map Prod.fst).count id

/-- The queued blocks that refer to a data block. -/
def queuedOver (data : DataBlock) : Nat :=
  ledger.queue.countP fun id => ledger.blocks[id]? == some data

/-- Every block that was made is queued or has been released, and not both or twice; it was
released for a reason; and the counts of the data blocks are those of the queued blocks. -/
structure Owned (outside : DataBlock → Int) : Prop where
  once : ∀ id, ledger.uses id = if id < ledger.blocks.length then 1 else 0
  justified : ∀ entry ∈ ledger.released, entry.2.Justified
  counted : ∀ data, ledger.refs data = outside data + ledger.queuedOver data

/-- The outcomes that leave a message of one block, or of a chain, in one hand. -/
def Settles (chained : Bool) (outcome : Outcome) : Prop :=
  (if chained then outcome.owner ≠ .caller ∧ outcome.returned ≠ -1
    else outcome.owner = .caller ↔ outcome.returned = -1) ∧
    (outcome.owner = .released → outcome.unsent = 0)

@[simp] theorem settles_released (chained : Bool) (returned : Int) :
    Settles chained ⟨returned, .released, 0⟩ ↔ returned ≠ -1 := by
  cases chained <;> simp [Settles]

@[simp] theorem settles_queue (chained : Bool) (returned : Int) (unsent : Nat) :
    Settles chained ⟨returned, .queue, unsent⟩ ↔ returned ≠ -1 := by
  cases chained <;> simp [Settles]

@[simp] theorem settles_caller (chained : Bool) (returned : Int) (unsent : Nat) :
    Settles chained ⟨returned, .caller, unsent⟩ ↔ returned = -1 ∧ chained = false := by
  cases chained <;> simp [Settles]

/-! ## The operations one by one -/

section Operations

variable {ledger}

@[simp] theorem blocks_make (source : Option Nat) :
    (ledger.make source).blocks.length = ledger.blocks.length + 1 := by
  cases source <;> simp [make, create]

@[simp] theorem uses_make (source : Option Nat) (id : Nat) :
    (ledger.make source).uses id = ledger.uses id := by
  cases source <;> rfl

@[simp] theorem released_make (source : Option Nat) :
    (ledger.make source).released = ledger.released := by
  cases source <;> rfl

@[simp] theorem queue_make (source : Option Nat) :
    (ledger.make source).queue = ledger.queue := by
  cases source <;> rfl

theorem makeChain_cons (source : Option Nat) (rest : List (Option Nat)) :
    ledger.makeChain (source :: rest) = (ledger.make source).makeChain rest := rfl

@[simp] theorem blocks_makeChain (sources : List (Option Nat)) :
    (ledger.makeChain sources).blocks.length = ledger.blocks.length + sources.length := by
  induction sources generalizing ledger with
  | nil => rfl
  | cons source rest ih =>
      rw [makeChain_cons, ih, blocks_make, List.length_cons]
      omega

@[simp] theorem uses_makeChain (sources : List (Option Nat)) (id : Nat) :
    (ledger.makeChain sources).uses id = ledger.uses id := by
  induction sources generalizing ledger with
  | nil => rfl
  | cons source rest ih => rw [makeChain_cons, ih, uses_make]

@[simp] theorem released_makeChain (sources : List (Option Nat)) :
    (ledger.makeChain sources).released = ledger.released := by
  induction sources generalizing ledger with
  | nil => rfl
  | cons source rest ih => rw [makeChain_cons, ih, released_make]

@[simp] theorem queue_makeChain (sources : List (Option Nat)) :
    (ledger.makeChain sources).queue = ledger.queue := by
  induction sources generalizing ledger with
  | nil => rfl
  | cons source rest ih => rw [makeChain_cons, ih, queue_make]

@[simp] theorem blocks_release (cause : Cause) (id : Nat) :
    (ledger.release cause id).blocks = ledger.blocks := rfl

@[simp] theorem queue_release (cause : Cause) (id : Nat) :
    (ledger.release cause id).queue = ledger.queue := rfl

@[simp] theorem uses_release (cause : Cause) (id other : Nat) :
    (ledger.release cause id).uses other = ledger.uses other + if id = other then 1 else 0 := by
  simp [uses, release, List.count_singleton, Nat.add_assoc]

theorem releaseChain_cons (cause : Cause) (id : Nat) (rest : List Nat) :
    ledger.releaseChain cause (id :: rest) = (ledger.release cause id).releaseChain cause rest :=
  rfl

@[simp] theorem blocks_releaseChain (cause : Cause) (ids : List Nat) :
    (ledger.releaseChain cause ids).blocks = ledger.blocks := by
  induction ids generalizing ledger with
  | nil => rfl
  | cons id rest ih => rw [releaseChain_cons, ih, blocks_release]

@[simp] theorem queue_releaseChain (cause : Cause) (ids : List Nat) :
    (ledger.releaseChain cause ids).queue = ledger.queue := by
  induction ids generalizing ledger with
  | nil => rfl
  | cons id rest ih => rw [releaseChain_cons, ih, queue_release]

@[simp] theorem uses_releaseChain (cause : Cause) (ids : List Nat) (other : Nat) :
    (ledger.releaseChain cause ids).uses other = ledger.uses other + ids.count other := by
  induction ids generalizing ledger with
  | nil => rfl
  | cons id rest ih =>
      rw [releaseChain_cons, ih, uses_release, List.count_cons]
      simp only [beq_iff_eq]
      omega

@[simp] theorem released_releaseChain (cause : Cause) (ids : List Nat) :
    (ledger.releaseChain cause ids).released =
      ledger.released ++ ids.map fun id => (id, cause) := by
  induction ids generalizing ledger with
  | nil => simp [releaseChain]
  | cons id rest ih =>
      rw [releaseChain_cons, ih]
      simp [release]

@[simp] theorem blocks_settle (id : Nat) (front : Bool) (outcome : Outcome) :
    (ledger.settle id front outcome).blocks = ledger.blocks := by
  unfold settle
  split <;> rfl

theorem uses_settle (id : Nat) (front : Bool) (outcome : Outcome) (other : Nat) :
    (ledger.settle id front outcome).uses other =
      ledger.uses other + if outcome.owner ≠ .caller ∧ id = other then 1 else 0 := by
  unfold settle
  cases outcome.owner with
  | caller => simp
  | queue =>
      cases front with
      | true => simp [uses, List.count_cons, Nat.add_right_comm]
      | false => simp [uses, List.count_singleton, Nat.add_right_comm]
  | released => simp

theorem released_settle (id : Nat) (front : Bool) (outcome : Outcome) :
    (ledger.settle id front outcome).released = ledger.released ++
      if outcome.owner = .released then [(id, .sent outcome.unsent)] else [] := by
  unfold settle
  cases outcome.owner <;> simp [release]

theorem count_nextChain (count id : Nat) :
    (ledger.nextChain count).count id =
      if ledger.blocks.length ≤ id ∧ id < ledger.blocks.length + count then 1 else 0 := by
  unfold nextChain
  rw [List.Nodup.count List.nodup_range']
  simp [List.mem_range'_1]

end Operations

/-! ## The counts -/

/-- The count of a data block and the releases over it make up all message blocks that were
made over it, whether or not they were released rightly. -/
structure Tallied (outside : DataBlock → Int) : Prop where
  queued : ∀ id ∈ ledger.queue, id < ledger.blocks.length
  gone : ∀ entry ∈ ledger.released, entry.1 < ledger.blocks.length
  tally : ∀ data, ledger.refs data +
      (ledger.released.countP fun entry => ledger.blocks[entry.1]? == some data : Nat) =
    outside data + (ledger.blocks.count data : Nat)

section Tallied

variable {ledger} {outside : DataBlock → Int}

theorem Tallied.start (outside : DataBlock → Int) : (start outside).Tallied outside :=
  ⟨by simp [Ledger.start], by simp [Ledger.start], by simp [Ledger.start]⟩

theorem Tallied.create (tallied : ledger.Tallied outside) (data : DataBlock) :
    (ledger.create data).Tallied outside := by
  refine ⟨fun id member => ?_, fun entry member => ?_, fun other => ?_⟩
  · have := tallied.queued id member
    simp only [Ledger.create, List.length_append]
    omega
  · have := tallied.gone entry member
    simp only [Ledger.create, List.length_append]
    omega
  · have before := tallied.tally other
    have same : (ledger.released.countP fun entry =>
        (ledger.blocks ++ [data])[entry.1]? == some other) =
        ledger.released.countP fun entry => ledger.blocks[entry.1]? == some other := by
      refine List.countP_congr fun entry member => ?_
      rw [List.getElem?_append_left (tallied.gone entry member)]
    simp only [Ledger.create, same, List.count_append, List.count_singleton]
    by_cases here : data = other
    · simp only [here, beq_self_eq_true, if_true]
      omega
    · simp only [here, beq_iff_eq, if_false]
      omega

theorem Tallied.make (tallied : ledger.Tallied outside) (source : Option Nat) :
    (ledger.make source).Tallied outside := by
  cases source with
  | none => exact tallied.create _
  | some name => exact tallied.create _

theorem Tallied.makeChain (tallied : ledger.Tallied outside) (sources : List (Option Nat)) :
    (ledger.makeChain sources).Tallied outside := by
  induction sources generalizing ledger with
  | nil => exact tallied
  | cons source rest ih => exact ih (tallied.make source)

theorem Tallied.release (tallied : ledger.Tallied outside) (cause : Cause) {id : Nat}
    (made : id < ledger.blocks.length) : (ledger.release cause id).Tallied outside := by
  refine ⟨tallied.queued, fun entry member => ?_, fun data => ?_⟩
  · rcases List.mem_append.mp member with earlier | now
    · exact tallied.gone entry earlier
    · rw [List.mem_singleton.mp now]
      exact made
  · have before := tallied.tally data
    simp only [Ledger.release, List.countP_append, List.countP_singleton, beq_iff_eq]
    by_cases refers : ledger.blocks[id]? = some data
    · simp only [refers, if_true]
      omega
    · simp only [refers, if_false]
      omega

theorem Tallied.releaseChain (tallied : ledger.Tallied outside) (cause : Cause) {ids : List Nat}
    (made : ∀ id ∈ ids, id < ledger.blocks.length) :
    (ledger.releaseChain cause ids).Tallied outside := by
  induction ids generalizing ledger with
  | nil => exact tallied
  | cons id rest ih =>
      rw [releaseChain_cons]
      refine ih (tallied.release cause (made id (List.mem_cons_self ..))) ?_
      intro later member
      exact made later (List.mem_cons_of_mem _ member)

theorem Tallied.settle (tallied : ledger.Tallied outside) {id : Nat}
    (made : id < ledger.blocks.length) (front : Bool) (outcome : Outcome) :
    (ledger.settle id front outcome).Tallied outside := by
  unfold Ledger.settle
  split
  · exact tallied
  · refine ⟨fun other member => ?_, tallied.gone, tallied.tally⟩
    cases front with
    | true =>
        rcases List.mem_cons.mp member with rfl | earlier
        · exact made
        · exact tallied.queued other earlier
    | false =>
        rcases List.mem_append.mp member with earlier | now
        · exact tallied.queued other earlier
        · rw [List.mem_singleton.mp now]
          exact made
  · exact tallied.release _ made

theorem mem_nextChain {count id : Nat} : id ∈ ledger.nextChain count ↔
    ledger.blocks.length ≤ id ∧ id < ledger.blocks.length + count := by
  unfold nextChain
  rw [List.mem_range'_1]

theorem Tallied.consolidated (tallied : ledger.Tallied outside) {sources : List (Option Nat)}
    (nonempty : sources ≠ []) :
    (ledger.consolidated sources).1.Tallied outside ∧
      (ledger.consolidated sources).2 < (ledger.consolidated sources).1.blocks.length := by
  have some := List.length_pos_iff.mpr nonempty
  unfold Ledger.consolidated
  dsimp only
  split
  · refine ⟨tallied.makeChain sources, ?_⟩
    rw [blocks_makeChain]
    omega
  · refine ⟨((tallied.makeChain sources).make none).releaseChain _ fun id member => ?_, ?_⟩
    · rw [blocks_make, blocks_makeChain]
      have := (mem_nextChain.mp member).2
      omega
    · rw [blocks_releaseChain, blocks_make, blocks_makeChain]
      omega

theorem blocks_consolidated (sources : List (Option Nat)) :
    (ledger.consolidated sources).1.blocks.length = ledger.blocks.length + sources.length +
      if sources.length ≤ 1 then 0 else 1 := by
  unfold consolidated
  dsimp only
  split <;> simp

theorem Tallied.submit (tallied : ledger.Tallied outside) {sources : List (Option Nat)}
    (nonempty : sources ≠ []) (outcome : Outcome) :
    (ledger.submit sources outcome).Tallied outside := by
  obtain ⟨consolidated, made⟩ := tallied.consolidated nonempty
  have settled := consolidated.settle made false outcome
  unfold Ledger.submit
  dsimp only
  split
  · refine settled.releaseChain _ fun id member => ?_
    rw [blocks_settle, blocks_consolidated]
    have := (mem_nextChain.mp member).2
    omega
  · exact settled

theorem Tallied.resume (tallied : ledger.Tallied outside) (outcome : Outcome) :
    (ledger.resume outcome).Tallied outside := by
  unfold Ledger.resume
  split
  · exact tallied
  · next id rest first =>
      have made : id < ledger.blocks.length := tallied.queued id (by simp [first])
      have waiting : ({ ledger with queue := rest } : Ledger).Tallied outside :=
        ⟨fun other member => tallied.queued other (by simp [first, member]), tallied.gone,
          tallied.tally⟩
      have settled := waiting.settle made true outcome
      dsimp only
      split
      · refine settled.release _ ?_
        rw [blocks_settle]
        exact made
      · exact settled

/-! ## Owned ledgers -/

/-- Every block is in one place. -/
def Once (ledger : Ledger) : Prop :=
  ∀ id, ledger.uses id = if id < ledger.blocks.length then 1 else 0

theorem count_blocks (blocks : List DataBlock) (data : DataBlock) :
    blocks.count data = (List.range blocks.length).countP fun id => blocks[id]? == some data := by
  have listed : (List.range blocks.length).map (fun id => blocks[id]?) = blocks.map some := by
    apply List.ext_getElem
    · simp
    · intro position here there
      simp only [List.length_map, List.length_range] at here
      simp [here]
  calc blocks.count data = (blocks.map some).count (some data) :=
        (List.count_map_of_injective blocks some (Option.some_injective _) data).symm
    _ = ((List.range blocks.length).map fun id => blocks[id]?).count (some data) := by rw [listed]
    _ = _ := by rw [List.count_eq_countP, List.countP_map]; rfl

/-- If every block is in one place, those made over a data block are queued or released. -/
theorem Once.count_blocks (once : ledger.Once) (data : DataBlock) :
    ledger.blocks.count data = ledger.queuedOver data +
      ledger.released.countP fun entry => ledger.blocks[entry.1]? == some data := by
  have everywhere : (ledger.queue ++ ledger.released.map Prod.fst).Perm
      (List.range ledger.blocks.length) := by
    rw [List.perm_iff_count]
    intro id
    rw [List.count_append, List.nodup_range.count]
    simp only [List.mem_range]
    exact once id
  rw [Ledger.count_blocks, ← everywhere.countP_eq, List.countP_append, List.countP_map]
  rfl

theorem Once.counted_iff (once : ledger.Once) :
    (∀ data, ledger.refs data = outside data + ledger.queuedOver data) ↔
      ∀ data, ledger.refs data +
          (ledger.released.countP fun entry => ledger.blocks[entry.1]? == some data : Nat) =
        outside data + (ledger.blocks.count data : Nat) := by
  refine forall_congr' fun data => ?_
  rw [once.count_blocks data, Nat.cast_add]
  omega

theorem Once.made (once : ledger.Once) {id : Nat} (used : 0 < ledger.uses id) :
    id < ledger.blocks.length := by
  rw [once id] at used
  by_contra none
  rw [if_neg none] at used
  omega

theorem Owned.tallied (owned : ledger.Owned outside) : ledger.Tallied outside := by
  have once : ledger.Once := owned.once
  refine ⟨fun id member => once.made ?_, fun entry member => once.made ?_,
    once.counted_iff.mp owned.counted⟩
  · have := List.count_pos_iff.mpr member
    unfold uses
    omega
  · have := List.count_pos_iff.mpr (List.mem_map_of_mem (f := Prod.fst) member)
    unfold uses
    omega

/-- The counts take care of themselves. -/
theorem Tallied.owned_iff (tallied : ledger.Tallied outside) :
    ledger.Owned outside ↔ ledger.Once ∧ ∀ entry ∈ ledger.released, entry.2.Justified :=
  ⟨fun owned => ⟨owned.once, owned.justified⟩,
    fun rest => ⟨rest.1, rest.2, Once.counted_iff rest.1 |>.mpr tallied.tally⟩⟩

theorem Owned.start (outside : DataBlock → Int) : (start outside).Owned outside :=
  ⟨fun id => by simp [Ledger.start, uses], by simp [Ledger.start],
    by simp [Ledger.start, queuedOver]⟩

/-! ### A message is sent -/

/-- One if the call keeps the block or has released it. -/
def held (outcome : Outcome) : Nat := if outcome.owner = .caller then 0 else 1

/-- One if the caller is told to release what it made. -/
def handedBack (outcome : Outcome) : Nat := if outcome.returned = -1 then 1 else 0

theorem uses_settle_held (id : Nat) (front : Bool) (outcome : Outcome) (other : Nat) :
    (ledger.settle id front outcome).uses other =
      ledger.uses other + if other = id then held outcome else 0 := by
  rw [uses_settle]
  unfold held
  split_ifs <;> simp_all

theorem uses_consolidated (sources : List (Option Nat)) (other : Nat) :
    (ledger.consolidated sources).1.uses other = ledger.uses other +
      if sources.length ≤ 1 then 0 else (ledger.nextChain sources.length).count other := by
  unfold consolidated
  dsimp only
  split <;> simp

theorem uses_submit (sources : List (Option Nat)) (outcome : Outcome) (other : Nat) :
    (ledger.submit sources outcome).uses other = ledger.uses other +
      (if sources.length ≤ 1 then 0 else (ledger.nextChain sources.length).count other) +
      (if other = (ledger.consolidated sources).2 then held outcome else 0) +
      handedBack outcome * (ledger.nextChain sources.length).count other := by
  unfold submit handedBack
  dsimp only
  split <;> simp [uses_consolidated, uses_settle_held]

theorem blocks_submit (sources : List (Option Nat)) (outcome : Outcome) :
    (ledger.submit sources outcome).blocks.length = ledger.blocks.length + sources.length +
      if sources.length ≤ 1 then 0 else 1 := by
  unfold submit
  dsimp only
  split <;> simp [blocks_consolidated]

/-- A single block has to be in one hand after the call. -/
theorem once_submit_single (once : ledger.Once) {sources : List (Option Nat)}
    (single : sources.length = 1) {outcome : Outcome} :
    (ledger.submit sources outcome).Once ↔ held outcome + handedBack outcome = 1 := by
  have short : sources.length ≤ 1 := Nat.le_of_eq single
  have block : (ledger.consolidated sources).2 = ledger.blocks.length := by
    unfold consolidated
    simp only [short, if_true]
  unfold Once
  simp only [uses_submit, blocks_submit, block, count_nextChain, once _, single]
  constructor
  · intro after
    have here := after ledger.blocks.length
    split_ifs at here <;> omega
  · intro balanced id
    split_ifs <;> omega

/-- A chain has been released, so the consolidated block must not be left to the caller. -/
theorem once_submit_chain (once : ledger.Once) {sources : List (Option Nat)}
    (chained : 1 < sources.length) {outcome : Outcome} :
    (ledger.submit sources outcome).Once ↔ held outcome = 1 ∧ handedBack outcome = 0 := by
  have long : ¬ sources.length ≤ 1 := Nat.not_le.mpr chained
  have block : (ledger.consolidated sources).2 = ledger.blocks.length + sources.length := by
    unfold consolidated
    simp only [long, if_false]
  unfold Once
  simp only [uses_submit, blocks_submit, if_neg long, block, count_nextChain, once _]
  constructor
  · intro after
    have first := after ledger.blocks.length
    have last := after (ledger.blocks.length + sources.length)
    split_ifs at first last <;> omega
  · rintro ⟨kept, notBack⟩ id
    rw [kept, notBack]
    split_ifs <;> omega

/-- The block at the head of the queue has to be in one hand again. -/
theorem once_resume (once : ledger.Once) {id : Nat} {rest : List Nat}
    (first : ledger.queue = id :: rest) {outcome : Outcome} :
    (ledger.resume outcome).Once ↔ held outcome + handedBack outcome = 1 := by
  have made : id < ledger.blocks.length := by
    apply once.made
    rw [uses, first, List.count_cons_self]
    omega
  have waiting : ∀ other, ({ ledger with queue := rest } : Ledger).uses other +
      (if other = id then 1 else 0) = ledger.uses other := by
    intro other
    simp only [uses, first, List.count_cons, beq_iff_eq]
    split_ifs <;> omega
  have after : ∀ other, (ledger.resume outcome).uses other + (if other = id then 1 else 0) =
      ledger.uses other + if other = id then held outcome + handedBack outcome else 0 := by
    intro other
    have before := waiting other
    unfold resume handedBack
    simp only [first]
    split_ifs <;> simp_all [uses_settle_held] <;> omega
  have blocks : (ledger.resume outcome).blocks.length = ledger.blocks.length := by
    unfold resume
    simp only [first]
    split <;> simp
  constructor
  · intro still
    have here := after id
    rw [still id, once id, blocks, if_pos made, if_pos rfl, if_pos rfl] at here
    omega
  · intro balanced other
    have here := after other
    rw [once other, balanced] at here
    rw [blocks]
    split_ifs at here ⊢ <;> omega

/-- What is released before the caller learns the outcome. -/
theorem mem_released_settle {sources : List (Option Nat)} {outcome : Outcome}
    {entry : Nat × Cause} (member : entry ∈ ((ledger.consolidated sources).1.settle
      (ledger.consolidated sources).2 false outcome).released) :
    entry ∈ ledger.released ∨ entry.2 = .copied ∨
      outcome.owner = .released ∧ entry.2 = .sent outcome.unsent := by
  rw [released_settle, List.mem_append] at member
  rcases member with before | now
  · unfold consolidated at before
    dsimp only at before
    split at before
    · rw [released_makeChain] at before
      exact .inl before
    · rw [released_releaseChain, released_make, released_makeChain, List.mem_append] at before
      rcases before with earlier | copied
      · exact .inl earlier
      · obtain ⟨id, -, rfl⟩ := List.mem_map.mp copied
        exact .inr (.inl rfl)
  · split at now
    · next sent =>
        rw [List.mem_singleton.mp now]
        exact .inr (.inr ⟨sent, rfl⟩)
    · cases now

theorem mem_released_submit {sources : List (Option Nat)} {outcome : Outcome}
    {entry : Nat × Cause} (member : entry ∈ (ledger.submit sources outcome).released) :
    (entry ∈ ledger.released ∨ entry.2 = .copied ∨
      outcome.owner = .released ∧ entry.2 = .sent outcome.unsent) ∨ entry.2 = .dropped (-1) := by
  unfold submit at member
  dsimp only at member
  split at member
  · next failed =>
      rw [released_releaseChain, List.mem_append] at member
      rcases member with earlier | dropped
      · exact .inl (mem_released_settle earlier)
      · obtain ⟨id, -, rfl⟩ := List.mem_map.mp dropped
        exact .inr (by rw [failed])
  · exact .inl (mem_released_settle member)

theorem sent_mem_released_submit (sources : List (Option Nat)) {outcome : Outcome}
    (sent : outcome.owner = .released) :
    ((ledger.consolidated sources).2, Cause.sent outcome.unsent) ∈
      (ledger.submit sources outcome).released := by
  have settled : ((ledger.consolidated sources).2, Cause.sent outcome.unsent) ∈
      ((ledger.consolidated sources).1.settle (ledger.consolidated sources).2 false
        outcome).released := by
    rw [released_settle, if_pos sent]
    exact List.mem_append_right _ (List.mem_singleton.mpr rfl)
  unfold submit
  dsimp only
  split
  · rw [released_releaseChain]
    exact List.mem_append_left _ settled
  · exact settled

theorem justified_submit (justified : ∀ entry ∈ ledger.released, entry.2.Justified)
    (sources : List (Option Nat)) {outcome : Outcome} :
    (∀ entry ∈ (ledger.submit sources outcome).released, entry.2.Justified) ↔
      (outcome.owner = .released → outcome.unsent = 0) := by
  constructor
  · intro after sent
    exact after _ (sent_mem_released_submit sources sent)
  · intro whole entry member
    rcases mem_released_submit member with (old | copied | ⟨sent, cause⟩) | dropped
    · exact justified entry old
    · rw [copied]
      trivial
    · rw [cause]
      exact whole sent
    · rw [dropped]
      rfl

theorem justified_resume (justified : ∀ entry ∈ ledger.released, entry.2.Justified)
    {id : Nat} {rest : List Nat} (first : ledger.queue = id :: rest) {outcome : Outcome} :
    (∀ entry ∈ (ledger.resume outcome).released, entry.2.Justified) ↔
      (outcome.owner = .released → outcome.unsent = 0) := by
  have released : (ledger.resume outcome).released = ledger.released ++
      (if outcome.owner = .released then [(id, .sent outcome.unsent)] else []) ++
      if outcome.returned = -1 then [(id, .dropped outcome.returned)] else [] := by
    unfold resume
    simp only [first]
    split <;> simp [release, released_settle]
  rw [released]
  constructor
  · intro after sent
    refine after (id, .sent outcome.unsent) ?_
    simp [sent]
  · intro whole entry member
    rw [List.mem_append, List.mem_append] at member
    rcases member with (old | sent) | dropped
    · exact justified entry old
    · split at sent
      · next owner =>
          rw [List.mem_singleton.mp sent]
          exact whole owner
      · cases sent
    · split at dropped
      · next failed =>
          rw [List.mem_singleton.mp dropped]
          exact failed
      · cases dropped

theorem held_add_handedBack (outcome : Outcome) :
    held outcome + handedBack outcome = 1 ↔
      (outcome.owner = .caller ↔ outcome.returned = -1) := by
  unfold held handedBack
  split_ifs <;> simp_all

theorem held_and_not_handedBack (outcome : Outcome) :
    held outcome = 1 ∧ handedBack outcome = 0 ↔
      outcome.owner ≠ .caller ∧ outcome.returned ≠ -1 := by
  unfold held handedBack
  split_ifs <;> simp_all

/-- A message stays in one hand exactly if the outcome settles it. -/
theorem Owned.submit_iff (owned : ledger.Owned outside) {sources : List (Option Nat)}
    (nonempty : sources ≠ []) (outcome : Outcome) :
    (ledger.submit sources outcome).Owned outside ↔
      Settles (decide (1 < sources.length)) outcome := by
  rw [(owned.tallied.submit nonempty outcome).owned_iff, justified_submit owned.justified]
  unfold Settles
  refine and_congr_left fun _ => ?_
  by_cases chained : 1 < sources.length
  · rw [once_submit_chain owned.once chained, held_and_not_handedBack]
    simp only [chained, decide_true, if_true]
  · have some := List.length_pos_iff.mpr nonempty
    rw [once_submit_single owned.once (by omega), held_add_handedBack]
    simp only [chained, decide_false, Bool.false_eq_true, if_false]

theorem Owned.resume_iff (owned : ledger.Owned outside) (queued : ledger.queue ≠ [])
    (outcome : Outcome) :
    (ledger.resume outcome).Owned outside ↔ Settles false outcome := by
  obtain ⟨id, rest, first⟩ := List.exists_cons_of_ne_nil queued
  rw [(owned.tallied.resume outcome).owned_iff, justified_resume owned.justified first]
  unfold Settles
  refine and_congr_left fun _ => ?_
  rw [once_resume owned.once first, held_add_handedBack]
  simp only [Bool.false_eq_true, if_false]

/-! ### The length of the queue -/

theorem length_queue_submit (sources : List (Option Nat)) (outcome : Outcome) :
    (ledger.submit sources outcome).queue.length =
      ledger.queue.length + if outcome.owner = .queue then 1 else 0 := by
  have made : (ledger.consolidated sources).1.queue = ledger.queue := by
    unfold consolidated
    dsimp only
    split <;> simp
  have settled : ((ledger.consolidated sources).1.settle (ledger.consolidated sources).2 false
      outcome).queue.length = ledger.queue.length + if outcome.owner = .queue then 1 else 0 := by
    unfold settle
    cases outcome.owner <;> simp [made]
  unfold submit
  dsimp only
  split
  · rw [queue_releaseChain, settled]
  · exact settled

theorem length_queue_resume (queued : ledger.queue ≠ []) (outcome : Outcome) :
    (ledger.resume outcome).queue.length + 1 =
      ledger.queue.length + if outcome.owner = .queue then 1 else 0 := by
  obtain ⟨id, rest, first⟩ := List.exists_cons_of_ne_nil queued
  have settled : (({ ledger with queue := rest } : Ledger).settle id true outcome).queue.length =
      rest.length + if outcome.owner = .queue then 1 else 0 := by
    unfold settle
    cases outcome.owner <;> simp
  unfold resume
  simp only [first, List.length_cons]
  split
  · rw [queue_release, settled]
    omega
  · rw [settled]
    omega

end Tallied

end Ledger

end Nise.Ace
