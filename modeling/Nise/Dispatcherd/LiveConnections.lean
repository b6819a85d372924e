import Nise.Dispatcherd.ConnectionHandler

/-!
# The identity tables refer to live connections

The records of the three tables are references to handlers, made with the handle that the
handler has at that moment.  They stay good as long as no handler with a record is given
another handle, and go bad with the first one that is.
-/

namespace Nise.Dispatcherd

open Nise.Lib

namespace Connections

variable (connections : Connections)

/-- The handler exists and has the handle. -/
def Refers (chid : Int) (ch : Handler) : Prop :=
  ∃ handler ∈ connections.handlers ch, handler.handle = chid

/-- Every record has a handler that exists, and its current handle. -/
structure LiveTables : Prop where
  models : ∀ record ∈ connections.d2mTable.records, connections.Refers record.chid record.ch
  dispatchers : ∀ record ∈ connections.d2dTable.records,
    connections.Refers record.chid record.ch
  commands : ∀ record ∈ connections.d2cTable.records, connections.Refers record.chid record.ch

/-- A record of one of the tables, and whether it is one of a command channel. -/
structure Reference where
  chid : Int
  ch : Handler
  command : Bool

def references : List Reference :=
  connections.d2mTable.records.map (fun record => ⟨record.chid, record.ch, false⟩) ++
    (connections.d2dTable.records.map (fun record => ⟨record.chid, record.ch, false⟩) ++
      connections.d2cTable.records.map fun record => ⟨record.chid, record.ch, true⟩)

/-- The handler is in one of the tables. -/
def Bound (ch : Handler) : Prop := ∃ reference ∈ connections.references, reference.ch = ch

/-- No handler that is in a table is given another handle. -/
def KeepsHandles : ConnectionEvent → Prop
  | .initiateConnection ch attempt => ∀ handler ∈ connections.handlers ch,
      handler.state = .established ∨ attempt.handle = handler.handle ∨ ¬ connections.Bound ch
  | _ => True

instance (ch : Handler) : Decidable (connections.Bound ch) :=
  inferInstanceAs (Decidable (∃ reference ∈ connections.references, reference.ch = ch))

instance : DecidablePred connections.KeepsHandles
  | .initiateConnection ch attempt =>
      inferInstanceAs (Decidable (∀ handler ∈ connections.handlers ch,
        handler.state = .established ∨ attempt.handle = handler.handle ∨ ¬ connections.Bound ch))
  | .makeConnectionHandler _ _ | .connectionMade _ _ | .acceptSvcHandler _ _ _ _ | .hello _ _ _
  | .fail _ | .commandedClose _ | .handleClose _ | .destroy _ => isTrue trivial

theorem mem_references {reference : Reference} :
    reference ∈ connections.references ↔
      (∃ record ∈ connections.d2mTable.records, ⟨record.chid, record.ch, false⟩ = reference) ∨
        (∃ record ∈ connections.d2dTable.records, ⟨record.chid, record.ch, false⟩ = reference) ∨
          ∃ record ∈ connections.d2cTable.records, ⟨record.chid, record.ch, true⟩ = reference := by
  unfold references
  rw [List.mem_append, List.mem_append, List.mem_map, List.mem_map, List.mem_map]

theorem liveTables_iff :
    connections.LiveTables ↔ ∀ reference ∈ connections.references,
      connections.Refers reference.chid reference.ch := by
  constructor
  · intro live reference member
    rcases connections.mem_references.mp member with
      ⟨record, among, rfl⟩ | ⟨record, among, rfl⟩ | ⟨record, among, rfl⟩
    · exact live.models record among
    · exact live.dispatchers record among
    · exact live.commands record among
  · intro all
    refine ⟨?_, ?_, ?_⟩
    · intro record among
      exact all _ (connections.mem_references.mpr (.inl ⟨record, among, rfl⟩))
    · intro record among
      exact all _ (connections.mem_references.mpr (.inr (.inl ⟨record, among, rfl⟩)))
    · intro record among
      exact all _ (connections.mem_references.mpr (.inr (.inr ⟨record, among, rfl⟩)))

/-- Every record is good, and is in the table that the destructor of its handler looks at. -/
def Placed : Prop :=
  ∀ reference ∈ connections.references, ∃ handler ∈ connections.handlers reference.ch,
    handler.handle = reference.chid ∧ handler.commandRole = reference.command

variable {connections : Connections} {ch : Handler}

theorem Placed.liveTables (placed : connections.Placed) : connections.LiveTables := by
  rw [liveTables_iff]
  intro reference member
  obtain ⟨handler, present, same, -⟩ := placed reference member
  exact ⟨handler, present, same⟩

/-! ## What the operations do to the references -/

/-- A handler with a property that its reference does not depend on. -/
theorem Placed.modify (placed : connections.Placed)
    {change : ConnectionHandler → ConnectionHandler}
    (role : ∀ handler, (change handler).commandRole = handler.commandRole)
    (kept : ¬ connections.Bound ch ∨
      ∀ handler ∈ connections.handlers ch, (change handler).handle = handler.handle) :
    (connections.modify ch change).Placed := by
  intro reference member
  obtain ⟨handler, present, same, placement⟩ := placed reference member
  by_cases changed : reference.ch = ch
  · rcases kept with unbound | kept
    · exact absurd ⟨reference, member, changed⟩ unbound
    · rw [changed] at present ⊢
      rw [handlers_modify_self]
      exact ⟨change handler, Option.mem_map_of_mem change present,
        (kept handler present).trans same, (role handler).trans placement⟩
  · rw [handlers_modify_of_ne _ changed]
    exact ⟨handler, present, same, placement⟩

theorem Placed.setState (placed : connections.Placed) (state : ConnectionState) :
    (connections.setState ch state).Placed :=
  placed.modify (fun _ => rfl) (.inr fun _ _ => rfl)

/-- No record refers to a new handler. -/
theorem Placed.setHandler (placed : connections.Placed) (absent : connections.handlers ch = none)
    (handler : Option ConnectionHandler) : (connections.setHandler ch handler).Placed := by
  intro reference member
  obtain ⟨other, present, good⟩ := placed reference member
  have apart : reference.ch ≠ ch := by
    intro same
    rw [same, absent] at present
    cases present
  rw [handlers_setHandler_of_ne _ apart]
  exact ⟨other, present, good⟩

theorem Placed.completeConnection (placed : connections.Placed) :
    (connections.completeConnection ch).Placed := by
  unfold Connections.completeConnection
  split
  · next handler present =>
      split
      · next command =>
          intro reference member
          rcases (mem_references _).mp member with model | dispatcher | ⟨record, among, rfl⟩
          · exact placed reference ((mem_references _).mpr (.inl model))
          · exact placed reference ((mem_references _).mpr (.inr (.inl dispatcher)))
          · rcases UniqueTable.mem_bind among with old | rfl
            · exact placed _ ((mem_references _).mpr (.inr (.inr ⟨record, old, rfl⟩)))
            · exact ⟨handler, present, rfl, command⟩
      · exact placed
  · exact placed

theorem Placed.openHandler (placed : connections.Placed) (opening : Opening) :
    (connections.openHandler ch opening).Placed := by
  cases opening with
  | rejected => exact placed
  | unannounced => exact (placed.setState .established).completeConnection
  | complete => exact (placed.setState .established).completeConnection

theorem Placed.connect (placed : connections.Placed) {attempt : Attempt}
    (kept : ¬ connections.Bound ch ∨
      ∀ handler ∈ connections.handlers ch, attempt.handle = handler.handle) :
    (connections.connect ch attempt).Placed := by
  have given : (connections.modify ch fun handler =>
      { handler with handle := attempt.handle, state := .idle }).Placed :=
    placed.modify (fun _ => rfl) kept
  cases attempt with
  | refused handle => exact given
  | pending handle => exact given
  | connected handle opening => exact given.openHandler opening

theorem Placed.processHelloEvent (placed : connections.Placed) (peerId : UInt32)
    (answers : HelloAnswers)
    (ordinary : ∃ handler ∈ connections.handlers ch, handler.commandRole = false) :
    (connections.processHelloEvent ch peerId answers).Placed := by
  obtain ⟨handler, present, role⟩ := ordinary
  unfold Connections.processHelloEvent
  rw [Option.mem_def.mp present]
  dsimp only
  split
  · intro reference member
    rcases (mem_references _).mp member with ⟨record, among, rfl⟩ | dispatcher | command
    · rcases UniqueTable.mem_bind among with old | rfl
      · exact placed _ ((mem_references _).mpr (.inl ⟨record, old, rfl⟩))
      · exact ⟨handler, present, rfl, role⟩
    · exact placed reference ((mem_references _).mpr (.inr (.inl dispatcher)))
    · exact placed reference ((mem_references _).mpr (.inr (.inr command)))
  · split
    · split
      · exact placed
      · intro reference member
        rcases (mem_references _).mp member with model | ⟨record, among, rfl⟩ | command
        · exact placed reference ((mem_references _).mpr (.inl model))
        · rcases UniqueTable.mem_bind among with old | rfl
          · exact placed _ ((mem_references _).mpr (.inr (.inl ⟨record, old, rfl⟩)))
          · exact ⟨handler, present, rfl, role⟩
        · exact placed reference ((mem_references _).mpr (.inr (.inr command)))
    · exact placed

/-- The destructor looks for the handle of its handler, in the tables of its role. -/
theorem mem_references_destroy {handler : ConnectionHandler} {reference : Reference}
    (present : connections.handlers ch = some handler)
    (member : reference ∈ (connections.destroy ch).references) :
    reference ∈ connections.references ∧
      (reference.command = handler.commandRole → reference.chid ≠ handler.handle) := by
  unfold Connections.destroy at member
  rw [present] at member
  dsimp only at member
  split at member
  · next ordinary =>
      rcases (mem_references _).mp member with
        ⟨record, among, rfl⟩ | ⟨record, among, rfl⟩ | ⟨record, among, rfl⟩
      · obtain ⟨among, other⟩ := ModelIdentity.mem_unbind_found.mp among
        exact ⟨(mem_references _).mpr (.inl ⟨record, among, rfl⟩), fun _ => other⟩
      · obtain ⟨among, other⟩ := UniqueTable.mem_unbind.mp among
        exact ⟨(mem_references _).mpr (.inr (.inl ⟨record, among, rfl⟩)),
          fun _ => by simpa using other⟩
      · refine ⟨(mem_references _).mpr (.inr (.inr ⟨record, among, rfl⟩)), ?_⟩
        intro command
        rw [ordinary] at command
        cases command
  · next command =>
      rcases (mem_references _).mp member with
        ⟨record, among, rfl⟩ | ⟨record, among, rfl⟩ | ⟨record, among, rfl⟩
      · refine ⟨(mem_references _).mpr (.inl ⟨record, among, rfl⟩), ?_⟩
        intro ordinary
        exact absurd ordinary.symm command
      · refine ⟨(mem_references _).mpr (.inr (.inl ⟨record, among, rfl⟩)), ?_⟩
        intro ordinary
        exact absurd ordinary.symm command
      · obtain ⟨among, other⟩ := UniqueTable.mem_unbind.mp among
        exact ⟨(mem_references _).mpr (.inr (.inr ⟨record, among, rfl⟩)),
          fun _ => by simpa using other⟩

theorem handlers_destroy_of_ne {other : Handler} (apart : other ≠ ch) :
    (connections.destroy ch).handlers other = connections.handlers other := by
  unfold Connections.destroy
  split
  · dsimp only
    rw [handlers_setHandler_of_ne _ apart]
    split <;> rfl
  · rfl

/-- A good record of a handler does not outlive it. -/
theorem Placed.destroy (placed : connections.Placed) : (connections.destroy ch).Placed := by
  cases present : connections.handlers ch with
  | none =>
      have same : connections.destroy ch = connections := by
        unfold Connections.destroy
        rw [present]
      rw [same]
      exact placed
  | some handler =>
      intro reference member
      obtain ⟨before, removed⟩ := mem_references_destroy present member
      obtain ⟨other, there, same, placement⟩ := placed reference before
      have apart : reference.ch ≠ ch := by
        intro equal
        rw [equal, Option.mem_def, present] at there
        cases there
        exact removed placement.symm same.symm
      rw [handlers_destroy_of_ne apart]
      exact ⟨other, there, same, placement⟩

theorem Placed.handleClose (placed : connections.Placed) :
    (connections.handleClose ch).Placed := by
  unfold Connections.handleClose
  split
  · split
    · exact placed.setState .failed
    · exact placed.destroy
  · exact placed

/-! ## One step -/

theorem handlers_completeConnection :
    (connections.completeConnection ch).handlers = connections.handlers := by
  unfold Connections.completeConnection
  split
  · split <;> rfl
  · rfl

theorem mem_references_completeConnection {reference : Reference}
    (member : reference ∈ connections.references) :
    reference ∈ (connections.completeConnection ch).references := by
  unfold Connections.completeConnection
  split
  · split
    · rcases (mem_references _).mp member with model | dispatcher | ⟨record, among, same⟩
      · exact (mem_references _).mpr (.inl model)
      · exact (mem_references _).mpr (.inr (.inl dispatcher))
      · exact (mem_references _).mpr
          (.inr (.inr ⟨record, UniqueTable.mem_bind_of_mem among, same⟩))
    · exact member
  · exact member

/-- Opening a handler loses no record, and leaves its handle as it is. -/
theorem openHandler_keeps (connections : Connections) (ch : Handler) (opening : Opening) :
    (∀ reference ∈ connections.references,
        reference ∈ (connections.openHandler ch opening).references) ∧
      ∀ handler ∈ (connections.openHandler ch opening).handlers ch,
        ∃ before ∈ connections.handlers ch, handler.handle = before.handle := by
  have established : (∀ reference ∈ connections.references,
        reference ∈ ((connections.setState ch .established).completeConnection ch).references) ∧
      ∀ handler ∈ ((connections.setState ch .established).completeConnection ch).handlers ch,
        ∃ before ∈ connections.handlers ch, handler.handle = before.handle := by
    constructor
    · intro reference member
      exact mem_references_completeConnection member
    · intro handler present
      rw [handlers_completeConnection] at present
      unfold Connections.setState at present
      rw [handlers_modify_self] at present
      obtain ⟨before, there, rfl⟩ := Option.map_eq_some_iff.mp present
      exact ⟨before, there, rfl⟩
  cases opening with
  | rejected => exact ⟨fun _ member => member, fun handler present => ⟨handler, present, rfl⟩⟩
  | unannounced => exact established
  | complete => exact established

/-- An attempt to connect loses no record, and leaves the handler with the new handle. -/
theorem connect_keeps (connections : Connections) (ch : Handler) (attempt : Attempt) :
    (∀ reference ∈ connections.references,
        reference ∈ (connections.connect ch attempt).references) ∧
      ∀ handler ∈ (connections.connect ch attempt).handlers ch,
        handler.handle = attempt.handle := by
  have given : ∀ handler ∈ (connections.modify ch fun handler =>
      { handler with handle := attempt.handle, state := .idle }).handlers ch,
        handler.handle = attempt.handle := by
    intro handler present
    rw [handlers_modify_self] at present
    obtain ⟨before, -, rfl⟩ := Option.map_eq_some_iff.mp present
    rfl
  cases attempt with
  | refused handle => exact ⟨fun _ member => member, given⟩
  | pending handle => exact ⟨fun _ member => member, given⟩
  | connected handle opening =>
      obtain ⟨records, handles⟩ := openHandler_keeps (connections.modify ch
        fun handler => { handler with handle := handle, state := .idle }) ch opening
      refine ⟨records, ?_⟩
      intro handler present
      obtain ⟨before, there, same⟩ := handles handler present
      exact same.trans (given before there)

theorem Placed.initiateConnection (placed : connections.Placed) {attempt : Attempt}
    (keeps : connections.KeepsHandles (.initiateConnection ch attempt)) :
    (connections.initiateConnection ch attempt).Placed := by
  unfold Connections.initiateConnection
  split
  · next handler present =>
      split
      · next unconnected =>
          refine (placed.connect ?_).setState _
          rcases keeps handler present with established | same | unbound
          · exact absurd established unconnected
          · refine .inr ?_
            intro other there
            rw [Option.mem_def, present] at there
            cases there
            exact same
          · exact .inl unbound
      · exact placed
  · exact placed

theorem Placed.step (placed : connections.Placed) {event : ConnectionEvent}
    (possible : connections.Possible event) (keeps : connections.KeepsHandles event) :
    (connections.step event).Placed := by
  cases event with
  | makeConnectionHandler ch entity => exact placed.setHandler possible.1 _
  | initiateConnection ch attempt => exact placed.initiateConnection keeps
  | connectionMade ch opening => exact placed.openHandler opening
  | acceptSvcHandler ch entity handle opening =>
      exact (placed.setHandler possible.1 _).openHandler opening
  | hello rh peerId answers =>
      obtain ⟨handler, present, -, ordinary⟩ := possible
      exact placed.processHelloEvent peerId answers ⟨handler, present, ordinary⟩
  | fail ch => exact placed.setState .failed
  | commandedClose ch => exact placed.modify (fun _ => rfl) (.inr fun _ _ => rfl)
  | handleClose ch => exact placed.handleClose
  | destroy ch => exact placed.destroy

/-- The record of a handler that is given another handle goes bad. -/
theorem Placed.keepsHandles (placed : connections.Placed) {event : ConnectionEvent}
    (live : (connections.step event).LiveTables) : connections.KeepsHandles event := by
  cases event with
  | initiateConnection ch attempt =>
      intro handler present
      by_cases unconnected : handler.state ≠ .established
      · right
        by_contra changes
        rw [not_or, not_not] at changes
        obtain ⟨other, reference, member, bound⟩ := changes
        have after : connections.step (.initiateConnection ch attempt) =
            (connections.connect ch attempt).setState ch attempt.state := by
          change connections.initiateConnection ch attempt = _
          unfold Connections.initiateConnection
          rw [Option.mem_def.mp present]
          exact if_pos unconnected
        rw [after, liveTables_iff] at live
        obtain ⟨records, handles⟩ := connect_keeps connections ch attempt
        obtain ⟨now, there, refers⟩ := live reference (records reference member)
        rw [bound] at there
        unfold Connections.setState at there
        rw [handlers_modify_self] at there
        obtain ⟨connected, given, rfl⟩ := Option.map_eq_some_iff.mp there
        obtain ⟨before, stood, same, -⟩ := placed reference member
        rw [bound, Option.mem_def, Option.mem_def.mp present] at stood
        cases stood
        exact other ((handles connected given).symm.trans (refers.trans same.symm))
      · exact .inl (not_not.mp unconnected)
  | _ => trivial

end Connections

/-- The tables are good in every state of a run exactly if no handler that is in one of them
is given another handle. -/
theorem live_tables_iff_handles_kept {events : List ConnectionEvent}
    (admitted : connectionRuns.Admits Connections.empty events) :
    connectionRuns.Throughout Connections.LiveTables Connections.empty events ↔
      (connectionRuns.restrict Connections.KeepsHandles).Admits Connections.empty events := by
  have initially : Connections.empty.Placed := by
    intro reference member
    cases member
  refine connectionRuns.throughout_iff_restrict_of_strong Connections.Placed ?_ ?_ ?_ initially
    admitted
  · intro connections placed
    exact placed.liveTables
  · intro connections event placed possible keeps
    exact placed.step possible keeps
  · intro connections event placed _ live
    exact placed.keepsHandles live

namespace Reconnecting

/-- A connection that this dispatcher makes to another one. -/
def toDispatcher : ConnectionRecord := ⟨'B', 'A'⟩

/-- A connection that a model makes to this dispatcher. -/
def fromModel : ConnectionRecord := ⟨'B', 'P'⟩

/-- The connection to the other dispatcher fails before the hello, and is made again with
another handle; the model comes and goes. -/
def beforeHello : List ConnectionEvent :=
  [.makeConnectionHandler 1 toDispatcher, .initiateConnection 1 (.connected 5 .complete),
    .acceptSvcHandler 2 fromModel 7 .complete, .hello 2 1001 ⟨some ⟨1, 1, 41⟩, none, false⟩,
    .fail 1, .handleClose 1, .initiateConnection 1 (.connected 6 .complete),
    .hello 1 2001 ⟨none, some 2, false⟩, .commandedClose 2, .handleClose 2]

theorem live_tables_beforeHello :
    connectionRuns.Throughout Connections.LiveTables Connections.empty beforeHello :=
  (live_tables_iff_handles_kept (by decide)).mpr (by decide)

/-- The connection to the other dispatcher fails after the hello, and is made again. -/
def afterHello : List ConnectionEvent :=
  [.makeConnectionHandler 1 toDispatcher, .initiateConnection 1 (.connected 5 .complete),
    .hello 1 2001 ⟨none, some 2, false⟩, .fail 1, .handleClose 1,
    .initiateConnection 1 (.connected 6 .complete)]

theorem live_tables_fails :
    ¬ ∀ events : List ConnectionEvent, connectionRuns.Admits Connections.empty events →
      (connectionRuns.exec Connections.empty events).LiveTables := by
  intro claim
  have live := claim afterHello (by decide)
  obtain ⟨handler, present, refers⟩ := live.dispatchers ⟨5, 2001, 2, 1⟩ (by decide)
  have reconnected : (connectionRuns.exec Connections.empty afterHello).handlers 1 =
      some ⟨toDispatcher, 6, .established, false⟩ := by decide
  rw [Option.mem_def, reconnected] at present
  cases present
  cases refers

end Reconnecting

end Nise.Dispatcherd
