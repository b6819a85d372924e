import Nise.Lib.ContainerLoop
import Nise.Dispatcherd.LiveConnections

/-!
# Sending in a loop while handlers are destroyed

`route_to_job` walks over the records of a job in `D2M_TABLE`, `route_to_connection` and the
echo channel over the handlers of a connection record.  A send that fails closes its handler,
and a handler that accepted its connection, or was commanded to close, destroys itself and
takes itself out of the very container that the loop is walking over.
-/

namespace Nise.Dispatcherd

open Nise.Lib

/-- What comes of a send on an established connection. -/
inductive SendOutcome where
  | sent
  | queued
  | hardError
  deriving DecidableEq, Repr

/-- The handlers and tables, and `ch_set_` of the connection record in question. -/
structure LoopState where
  connections : Connections
  chSet : List Handler

/-- `handle_close` after a failed send; the destructor erases the handler from `ch_set_`. -/
def LoopState.fail (state : LoopState) (ch : Handler) : LoopState :=
  let connections := (state.connections.setState ch .failed).handleClose ch
  { connections := connections
    chSet :=
      if (connections.handlers ch).isNone then state.chSet.filter fun other => other != ch
      else state.chSet }

/-- The record that the end of the range of a job stands on: the first one of the next job. -/
def ModelIdentity.jobEnd (table : ModelIdentity) (jid : UInt32) : Option ModelIdentityRecord :=
  let later := table.records.filter fun record => jid < record.jid
  later.find? fun record => later.all fun other => record.jid ≤ other.jid

/-- Which handlers transmit, and what comes of a send on each. -/
structure Sends where
  isTransmitHandler : Handler → Bool
  outcome : Handler → SendOutcome

namespace Sends

variable (sends : Sends)

def put (state : LoopState) (ch : Handler) : LoopState :=
  if sends.isTransmitHandler ch then
    match state.connections.handlers ch with
    | some handler =>
        if handler.state = .established ∧ sends.outcome ch = .hardError then state.fail ch
        else state
    | none => state
  else state

/-- The loop of `route_to_job`. -/
def jobLoop : ContainerLoop LoopState ModelIdentityRecord where
  present state record := decide (record ∈ state.connections.d2mTable.records)
  body state record := sends.put state record.ch

/-- The loop of `route_to_connection`. -/
def connectionLoop : ContainerLoop LoopState Handler where
  present state ch := decide (ch ∈ state.chSet)
  body state ch := sends.put state ch

/-- The loop of an echo channel, which leaves out the handler that has received the message. -/
def echoLoop (rh : Handler) : ContainerLoop LoopState Handler where
  present state ch := decide (ch ∈ state.chSet)
  body state ch := if ch ≠ rh then sends.put state ch else state

/-- The send fails on a handler that does not outlive the failure. -/
def Destroys (state : LoopState) (ch : Handler) (handler : ConnectionHandler) : Prop :=
  sends.isTransmitHandler ch = true ∧ state.connections.handlers ch = some handler ∧
    handler.state = .established ∧ sends.outcome ch = .hardError ∧
    (handler.passive = true ∨ handler.commandedClose = true)

/-- The send fails on a handler the destructor of which removes the record. -/
def Unbinds (state : LoopState) (ch : Handler) (record : ModelIdentityRecord) : Prop :=
  ∃ handler, sends.Destroys state ch handler ∧ handler.commandRole = false ∧
    record.chid = handler.handle

/-! ## The destructor -/

theorem handlers_setState {connections : Connections} {ch : Handler}
    {handler : ConnectionHandler} (found : connections.handlers ch = some handler)
    (status : ConnectionState) :
    (connections.setState ch status).handlers ch = some { handler with state := status } := by
  rw [Connections.setState, Connections.handlers_modify_self, found]
  rfl

theorem mem_records_destroy {connections : Connections} {ch : Handler}
    {handler : ConnectionHandler} (found : connections.handlers ch = some handler)
    {record : ModelIdentityRecord} :
    record ∈ (connections.destroy ch).d2mTable.records ↔
      record ∈ connections.d2mTable.records ∧
        ¬ (handler.commandRole = false ∧ record.chid = handler.handle) := by
  unfold Connections.destroy
  rw [found]
  dsimp only
  split
  · next ordinary =>
      refine ModelIdentity.mem_unbind_found.trans (and_congr_right fun _ => not_congr ?_)
      rw [and_iff_right ordinary]
  · next command =>
      refine iff_self_and.mpr fun _ removed => ?_
      exact command removed.1

/-! ## One send -/

variable {sends} {state : LoopState} {ch : Handler}

theorem put_of_destroys {handler : ConnectionHandler} (destroys : sends.Destroys state ch handler) :
    sends.put state ch =
      ⟨(state.connections.setState ch .failed).destroy ch,
        state.chSet.filter fun other => other != ch⟩ := by
  obtain ⟨transmits, found, established, failed, closing⟩ := destroys
  have current := handlers_setState found .failed
  have closed : (state.connections.setState ch .failed).handleClose ch =
      (state.connections.setState ch .failed).destroy ch := by
    unfold Connections.handleClose
    rw [current]
    apply if_neg
    rintro ⟨active, kept⟩
    rcases closing with passive | commanded
    · exact Bool.false_ne_true (active.symm.trans passive)
    · exact Bool.false_ne_true (kept.symm.trans commanded)
  have gone : ((state.connections.setState ch .failed).destroy ch).handlers ch = none := by
    unfold Connections.destroy
    rw [current]
    exact if_pos rfl
  rw [put, if_pos transmits]
  simp only [found, established, failed, and_self, if_true, LoopState.fail, closed, gone,
    Option.isNone_none]

/-- A send that destroys nothing leaves the containers alone; its handler may have failed. -/
theorem put_of_not_destroys (survives : ∀ handler, ¬ sends.Destroys state ch handler) :
    (sends.put state ch).chSet = state.chSet ∧
      (sends.put state ch).connections.d2mTable = state.connections.d2mTable ∧
      ((sends.put state ch).connections = state.connections ∨
        (sends.put state ch).connections.handlers ch =
          ((state.connections.handlers ch).map fun handler => { handler with state := .failed })) ∧
      ∀ other, other ≠ ch →
        (sends.put state ch).connections.handlers other = state.connections.handlers other := by
  unfold put
  split
  · next transmits =>
      split
      · next handler found =>
          split
          · next failing =>
              have current := handlers_setState found .failed
              have kept : handler.passive = false ∧ handler.commandedClose = false := by
                have outlives := survives handler
                unfold Destroys at outlives
                simpa [transmits, found, failing] using outlives
              have again : (state.connections.setState ch .failed).handleClose ch =
                  (state.connections.setState ch .failed).setState ch .failed := by
                unfold Connections.handleClose
                rw [current]
                exact if_pos kept
              have still := handlers_setState current .failed
              simp only [LoopState.fail, again, still, found, Option.isNone_some,
                Bool.false_eq_true, if_false, Option.map_some]
              refine ⟨trivial, rfl, .inr trivial, ?_⟩
              intro other apart
              rw [Connections.setState, Connections.handlers_modify_of_ne _ apart,
                Connections.setState, Connections.handlers_modify_of_ne _ apart]
          · exact ⟨rfl, rfl, .inl rfl, fun _ _ => rfl⟩
      · exact ⟨rfl, rfl, .inl rfl, fun _ _ => rfl⟩
  · exact ⟨rfl, rfl, .inl rfl, fun _ _ => rfl⟩

theorem handlers_put_of_ne {other : Handler} (apart : other ≠ ch) :
    (sends.put state ch).connections.handlers other = state.connections.handlers other := by
  by_cases destroyed : ∃ handler, sends.Destroys state ch handler
  · obtain ⟨handler, destroys⟩ := destroyed
    rw [put_of_destroys destroys, Connections.handlers_destroy_of_ne apart, Connections.setState,
      Connections.handlers_modify_of_ne _ apart]
  · exact (put_of_not_destroys (not_exists.mp destroyed)).2.2.2 other apart

/-- Sends on other handlers do not decide whether a handler is destroyed. -/
theorem destroys_put_iff {other : Handler} (apart : other ≠ ch) (handler : ConnectionHandler) :
    sends.Destroys (sends.put state ch) other handler ↔ sends.Destroys state other handler := by
  unfold Destroys
  rw [handlers_put_of_ne apart]

/-- A handler that has outlived a send outlives a second one. -/
theorem not_destroys_put_self (survives : ∀ handler, ¬ sends.Destroys state ch handler)
    (handler : ConnectionHandler) : ¬ sends.Destroys (sends.put state ch) ch handler := by
  rintro ⟨transmits, found, established, failed, closing⟩
  rcases (put_of_not_destroys survives).2.2.1 with same | changed
  · rw [same] at found
    exact survives handler ⟨transmits, found, established, failed, closing⟩
  · rw [changed] at found
    obtain ⟨before, -, after⟩ := Option.map_eq_some_iff.mp found
    rw [← after] at established
    cases established

/-! ## What a send removes -/

theorem mem_chSet_put {other : Handler} :
    other ∈ (sends.put state ch).chSet ↔
      other ∈ state.chSet ∧ ¬ ((∃ handler, sends.Destroys state ch handler) ∧ other = ch) := by
  by_cases destroyed : ∃ handler, sends.Destroys state ch handler
  · obtain ⟨handler, destroys⟩ := destroyed
    rw [put_of_destroys destroys, List.mem_filter]
    simp only [bne_iff_ne, ne_eq]
    refine and_congr_right fun _ => not_congr ?_
    exact ⟨fun same => ⟨⟨handler, destroys⟩, same⟩, And.right⟩
  · rw [(put_of_not_destroys (not_exists.mp destroyed)).1]
    exact ⟨fun member => ⟨member, fun removed => destroyed removed.1⟩, And.left⟩

theorem mem_records_put {record : ModelIdentityRecord} :
    record ∈ (sends.put state ch).connections.d2mTable.records ↔
      record ∈ state.connections.d2mTable.records ∧ ¬ sends.Unbinds state ch record := by
  by_cases destroyed : ∃ handler, sends.Destroys state ch handler
  · obtain ⟨handler, destroys⟩ := destroyed
    rw [put_of_destroys destroys, mem_records_destroy (handlers_setState destroys.2.1 .failed)]
    refine and_congr_right fun _ => not_congr ?_
    constructor
    · rintro ⟨role, same⟩
      exact ⟨handler, destroys, role, same⟩
    · rintro ⟨other, again, role, same⟩
      have equal : other = handler := Option.some.inj (again.2.1.symm.trans destroys.2.1)
      rw [equal] at role same
      exact ⟨role, same⟩
  · rw [(put_of_not_destroys (not_exists.mp destroyed)).2.1]
    refine ⟨fun member => ⟨member, ?_⟩, And.left⟩
    rintro ⟨handler, destroys, -⟩
    exact destroyed ⟨handler, destroys⟩

/-! ## Whole loops -/

/-- The records of a job reach each of them once exactly if no send on one of them unbinds that
record, a later one, or the record behind the job. -/
theorem jobLoop_complete_iff (sends : Sends) (state : LoopState) (jid : UInt32) :
    sends.jobLoop.Complete (state.connections.d2mTable.jobEnd jid) state
        (state.connections.d2mTable.allRecordsInJob jid) ↔
      (∀ record ∈ state.connections.d2mTable.allRecordsInJob jid,
        ¬ sends.Unbinds state record.ch record) ∧
      (state.connections.d2mTable.allRecordsInJob jid).Pairwise
        (fun record later => ¬ sends.Unbinds state record.ch later) ∧
      ∀ record ∈ state.connections.d2mTable.allRecordsInJob jid,
        ∀ beyond ∈ state.connections.d2mTable.jobEnd jid,
          ¬ sends.Unbinds state record.ch beyond := by
  refine ContainerLoop.complete_iff (fun state record => sends.Unbinds state record.ch)
    (fun record later => later.ch ≠ record.ch) ?_ ?_ ?_ ?_ ?_ ?_
  · intro state record other still
    simp only [jobLoop, decide_eq_true_eq] at still ⊢
    exact (mem_records_put.mp still).1
  · intro state record other here
    simp only [jobLoop, decide_eq_true_eq] at here ⊢
    rw [mem_records_put, and_iff_right here]
  · intro state record later other apart _
    exact exists_congr fun handler => and_congr_left' (destroys_put_iff apart handler)
  · refine (state.connections.d2mTable.unique.filter _).imp ?_
    intro record later apart same
    exact apart (.inr (.inr (.inr same.symm)))
  · intro record member
    simp only [jobLoop, decide_eq_true_eq]
    exact List.mem_of_mem_filter member
  · intro beyond found
    simp only [jobLoop, decide_eq_true_eq]
    exact List.mem_of_mem_filter (List.mem_of_find?_eq_some found)

/-- A loop over `ch_set_` that sends to the handlers with a property. -/
theorem chSetLoop_complete_iff (loop : ContainerLoop LoopState Handler) (chosen : Handler → Prop)
    [DecidablePred chosen]
    (present : ∀ state ch, loop.present state ch = decide (ch ∈ state.chSet))
    (body : ∀ state ch, loop.body state ch = if chosen ch then sends.put state ch else state)
    (state : LoopState) :
    loop.Complete none state state.chSet ↔
      ∀ ch ∈ state.chSet, chosen ch → ∀ handler, ¬ sends.Destroys state ch handler := by
  rw [ContainerLoop.complete_iff (fun state ch other =>
    chosen ch ∧ (∃ handler, sends.Destroys state ch handler) ∧ other = ch) (fun _ _ => True)]
  · constructor
    · intro all ch member picked handler destroys
      exact all.1 ch member ⟨picked, ⟨handler, destroys⟩, rfl⟩
    · intro survive
      have none : ∀ ch ∈ state.chSet, ∀ other,
          ¬ (chosen ch ∧ (∃ handler, sends.Destroys state ch handler) ∧ other = ch) := by
        rintro ch member other ⟨picked, ⟨handler, destroys⟩, -⟩
        exact survive ch member picked handler destroys
      refine ⟨fun ch member => none ch member ch, ?_, ?_⟩
      · exact List.Pairwise.imp_of_mem (fun member _ _ => none _ member _) (List.pairwise_of_forall
          fun _ _ => trivial)
      · intro ch _ beyond absent
        cases absent
  · intro state ch other still
    rw [present, decide_eq_true_eq] at still ⊢
    rw [body] at still
    split at still
    · exact (mem_chSet_put.mp still).1
    · exact still
  · intro state ch other here
    rw [present, decide_eq_true_eq] at here ⊢
    rw [body]
    split
    · next picked => rw [mem_chSet_put, and_iff_right here, and_iff_right picked]
    · next unpicked => exact iff_of_true here fun removed => unpicked removed.1
  · intro state ch later other _ kept
    rw [body]
    split
    · next picked =>
        have survives : ∀ handler, ¬ sends.Destroys state ch handler := by
          intro handler destroys
          exact kept ⟨picked, ⟨handler, destroys⟩, rfl⟩
        by_cases same : later = ch
        · subst same
          refine iff_of_false ?_ ?_
          · rintro ⟨-, ⟨handler, destroys⟩, -⟩
            exact not_destroys_put_self survives handler destroys
          · rintro ⟨-, ⟨handler, destroys⟩, -⟩
            exact survives handler destroys
        · simp only [destroys_put_iff same]
    · rfl
  · exact List.pairwise_of_forall fun _ _ => trivial
  · intro ch member
    rw [present, decide_eq_true_eq]
    exact member
  · intro beyond absent
    cases absent

theorem connectionLoop_complete_iff (sends : Sends) (state : LoopState) :
    sends.connectionLoop.Complete none state state.chSet ↔
      ∀ ch ∈ state.chSet, ∀ handler, ¬ sends.Destroys state ch handler := by
  have loop := chSetLoop_complete_iff sends.connectionLoop (fun _ => True) (fun _ _ => rfl)
    (fun _ _ => (if_pos trivial).symm) state
  simpa using loop

theorem echoLoop_complete_iff (sends : Sends) (rh : Handler) (state : LoopState) :
    (sends.echoLoop rh).Complete none state state.chSet ↔
      ∀ ch ∈ state.chSet, ch ≠ rh → ∀ handler, ¬ sends.Destroys state ch handler :=
  chSetLoop_complete_iff (sends.echoLoop rh) (· ≠ rh) (fun _ _ => rfl) (fun _ _ => rfl) state

/-- Each of the three loops visits everything once, and keeps its iterators, exactly if no send
in it destroys a handler that is, or the record of which is, still to be passed. -/
theorem fan_out_complete_iff (sends : Sends) (state : LoopState) (jid : UInt32) (rh : Handler) :
    (sends.jobLoop.Complete (state.connections.d2mTable.jobEnd jid) state
        (state.connections.d2mTable.allRecordsInJob jid) ↔
      (∀ record ∈ state.connections.d2mTable.allRecordsInJob jid,
        ¬ sends.Unbinds state record.ch record) ∧
      (state.connections.d2mTable.allRecordsInJob jid).Pairwise
        (fun record later => ¬ sends.Unbinds state record.ch later) ∧
      ∀ record ∈ state.connections.d2mTable.allRecordsInJob jid,
        ∀ beyond ∈ state.connections.d2mTable.jobEnd jid,
          ¬ sends.Unbinds state record.ch beyond) ∧
    (sends.connectionLoop.Complete none state state.chSet ↔
      ∀ ch ∈ state.chSet, ∀ handler, ¬ sends.Destroys state ch handler) ∧
    ((sends.echoLoop rh).Complete none state state.chSet ↔
      ∀ ch ∈ state.chSet, ch ≠ rh → ∀ handler, ¬ sends.Destroys state ch handler) :=
  ⟨sends.jobLoop_complete_iff state jid, sends.connectionLoop_complete_iff state,
    sends.echoLoop_complete_iff rh state⟩

/-! ## A model that is gone -/

/-- The only send fails for good. -/
def brokenPipe : Sends := ⟨fun _ => true, fun _ => .hardError⟩

/-- A model that has connected to the dispatcher and said hello. -/
def oneModelConnected : LoopState where
  connections :=
    { Connections.empty with
      handlers := fun ch =>
        if ch = 3 then some ⟨⟨'B', 'P'⟩, 5, .established, false⟩ else none
      d2mTable := UniqueTable.empty.bind ⟨5, 1, 7, 1, 9, 3⟩ }
  chSet := [3]

/-- It is destroyed while the loop stands on it, in all three loops. -/
theorem fan_out_loses_iterators :
    (¬ ∀ (sends : Sends) (state : LoopState) (jid : UInt32),
      sends.jobLoop.Complete (state.connections.d2mTable.jobEnd jid) state
        (state.connections.d2mTable.allRecordsInJob jid)) ∧
    (¬ ∀ (sends : Sends) (state : LoopState),
      sends.connectionLoop.Complete none state state.chSet) ∧
    ¬ ∀ (sends : Sends) (rh : Handler) (state : LoopState),
      (sends.echoLoop rh).Complete none state state.chSet := by
  have destroys : brokenPipe.Destroys oneModelConnected 3 ⟨⟨'B', 'P'⟩, 5, .established, false⟩ :=
    ⟨rfl, rfl, rfl, rfl, .inl rfl⟩
  refine ⟨?_, ?_, ?_⟩
  · intro always
    have kept := ((brokenPipe.jobLoop_complete_iff oneModelConnected 1).mp
      (always brokenPipe oneModelConnected 1)).1 ⟨5, 1, 7, 1, 9, 3⟩ (by decide)
    exact kept ⟨_, destroys, rfl, rfl⟩
  · intro always
    exact (brokenPipe.connectionLoop_complete_iff oneModelConnected).mp
      (always brokenPipe oneModelConnected) 3 (List.mem_singleton.mpr rfl) _ destroys
  · intro always
    exact (brokenPipe.echoLoop_complete_iff 0 oneModelConnected).mp
      (always brokenPipe 0 oneModelConnected) 3 (List.mem_singleton.mpr rfl) (by decide) _ destroys

end Sends

end Nise.Dispatcherd
