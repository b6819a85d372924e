import Nise.Dispatcherd.ConnectionHandler

/-!
# Registration of models by their hellos

A model that says hello is entered into `D2M_TABLE` under its connection, its handle, its
model id and its process id, each of which is a unique key of the table.  The record is
refused as a whole if one of them is taken.  The run below keeps the hellos beside the
table, so that what the table answers can be compared with what was said.
-/

namespace Nise.Dispatcherd

open Nise.Lib

/-- A hello of a model, with what the object manager reports of the model apart from its
job, and the debug flag. -/
structure ModelHello where
  rh : Handler
  mid : UInt32
  nodeid : UInt32
  pid : Int
  isDispatcher : Option UInt32
  route : Bool
  deriving DecidableEq, Repr

/-- The connections of a dispatcher and the hellos so far, the most recent one first. -/
structure Registration where
  connections : Connections
  said : List ModelHello

/-- The connection is open. -/
def Connections.Live (connections : Connections) (ch : Handler) : Prop :=
  ∃ handler ∈ connections.handlers ch, handler.state = .established

instance (connections : Connections) (ch : Handler) : Decidable (connections.Live ch) :=
  inferInstanceAs (Decidable (∃ handler ∈ connections.handlers ch,
    handler.state = .established))

/-- Open connections have different handles. -/
def Connections.DistinctHandles (connections : Connections) : Prop :=
  ∀ first second, ∀ here ∈ connections.handlers first, ∀ there ∈ connections.handlers second,
    here.state = .established → there.state = .established → here.handle = there.handle →
      first = second

namespace Registration

variable (jobOf : UInt32 → UInt32) (registration : Registration)

abbrev table : ModelIdentity := registration.connections.d2mTable

/-- The record that a hello asks to be bound. -/
def record (hello : ModelHello) (handle : Int) : ModelIdentityRecord :=
  ⟨handle, jobOf hello.mid, hello.mid, hello.nodeid, hello.pid, hello.rh⟩

def processHello (hello : ModelHello) : Registration where
  connections := registration.connections.processHelloEvent hello.rh hello.mid
    ⟨some ⟨jobOf hello.mid, hello.nodeid, hello.pid⟩, hello.isDispatcher, hello.route⟩
  said := hello :: registration.said

def Said (mid : UInt32) : Prop := mid ∈ registration.said.map (·.mid)

/-- The connection of the most recent hello of a model. -/
def mostRecent (mid : UInt32) : Option Handler :=
  (registration.said.find? (·.mid == mid)).map (·.rh)

/-- The table answers with the connection of the most recent hello, and each job has exactly
one record for every model of the job that has said hello. -/
structure Registered : Prop where
  lookup : ∀ mid, registration.Said mid →
    registration.table.getCHfromModelID mid = registration.mostRecent mid
  once : ∀ job, ((registration.table.allRecordsInJob job).map (·.mid)).Nodup
  complete : ∀ job mid, mid ∈ (registration.table.allRecordsInJob job).map (·.mid) ↔
    registration.Said mid ∧ jobOf mid = job

/-- A model that is registered says hello on the connection it is registered with; one that
is not has a process id and a connection that no registered model has. -/
def Registrable (hello : ModelHello) : Prop :=
  (∀ ch ∈ registration.table.getCHfromModelID hello.mid, ch = hello.rh) ∧
    (registration.table.getCHfromModelID hello.mid = none →
      ∀ bound ∈ registration.table.records, bound.pid ≠ hello.pid ∧ bound.ch ≠ hello.rh)

instance : DecidablePred registration.Registrable := fun hello =>
  inferInstanceAs (Decidable (
    (∀ ch ∈ registration.table.getCHfromModelID hello.mid, ch = hello.rh) ∧
      (registration.table.getCHfromModelID hello.mid = none →
        ∀ bound ∈ registration.table.records, bound.pid ≠ hello.pid ∧ bound.ch ≠ hello.rh)))

end Registration

/-- Hellos of models on open connections. -/
def helloRuns (jobOf : UInt32 → UInt32) : System Registration ModelHello where
  step registration hello := registration.processHello jobOf hello
  guard registration hello := registration.connections.Live hello.rh

instance (jobOf : UInt32 → UInt32) (registration : Registration) (hello : ModelHello) :
    Decidable ((helloRuns jobOf).guard registration hello) :=
  inferInstanceAs (Decidable (registration.connections.Live hello.rh))

namespace Registration

variable {jobOf : UInt32 → UInt32} {registration : Registration} {hello : ModelHello}

/-! ## One hello -/

@[simp] theorem handlers_processHello :
    (registration.processHello jobOf hello).connections.handlers =
      registration.connections.handlers :=
  Connections.handlers_processHelloEvent ..

theorem table_processHello {handler : ConnectionHandler}
    (found : registration.connections.handlers hello.rh = some handler) :
    (registration.processHello jobOf hello).table =
      registration.table.bind (record jobOf hello handler.handle) := by
  simp only [table, processHello, Connections.processHelloEvent, found, record]

theorem said_processHello {mid : UInt32} :
    (registration.processHello jobOf hello).Said mid ↔ mid = hello.mid ∨ registration.Said mid := by
  simp [Said, processHello]

theorem mostRecent_processHello (mid : UInt32) :
    (registration.processHello jobOf hello).mostRecent mid =
      if mid = hello.mid then some hello.rh else registration.mostRecent mid := by
  unfold mostRecent processHello
  by_cases same : mid = hello.mid
  · simp [same]
  · simp [same, Ne.symm same]

/-! ## What every run preserves -/

/-- A record is that of an open connection and of a model that has said hello. -/
structure Consistent (jobOf : UInt32 → UInt32) (registration : Registration) : Prop where
  distinct : registration.connections.DistinctHandles
  handles : ∀ record ∈ registration.table.records,
    ∃ handler ∈ registration.connections.handlers record.ch,
      handler.state = .established ∧ handler.handle = record.chid
  jobs : ∀ record ∈ registration.table.records, record.jid = jobOf record.mid
  heard : ∀ record ∈ registration.table.records, registration.Said record.mid

theorem Consistent.processHello (consistent : Consistent jobOf registration)
    (live : registration.connections.Live hello.rh) :
    Consistent jobOf (registration.processHello jobOf hello) := by
  obtain ⟨handler, found, established⟩ := live
  refine ⟨?_, ?_, ?_, ?_⟩
  · unfold Connections.DistinctHandles
    rw [handlers_processHello]
    exact consistent.distinct
  all_goals
    rw [table_processHello found]
    intro bound member
    rcases UniqueTable.mem_bind member with old | rfl
  · rw [handlers_processHello]
    exact consistent.handles bound old
  · rw [handlers_processHello]
    exact ⟨handler, found, established, rfl⟩
  · exact consistent.jobs bound old
  · rfl
  · exact said_processHello.mpr (.inr (consistent.heard bound old))
  · exact said_processHello.mpr (.inl rfl)

/-- On consistent tables, a job has the records of its models. -/
theorem Consistent.mem_job (consistent : Consistent jobOf registration) {job mid : UInt32} :
    mid ∈ (registration.table.allRecordsInJob job).map (·.mid) ↔
      mid ∈ registration.table.records.map (·.mid) ∧ jobOf mid = job := by
  simp only [ModelIdentity.allRecordsInJob, List.mem_map, List.mem_filter, beq_iff_eq]
  constructor
  · rintro ⟨bound, ⟨member, job⟩, rfl⟩
    exact ⟨⟨bound, member, rfl⟩, (consistent.jobs bound member).symm.trans job⟩
  · rintro ⟨⟨bound, member, rfl⟩, job⟩
    exact ⟨bound, ⟨member, (consistent.jobs bound member).trans job⟩, rfl⟩

theorem nodup_job (job : UInt32) :
    ((registration.table.allRecordsInJob job).map (·.mid)).Nodup := by
  unfold ModelIdentity.allRecordsInJob
  exact ((List.filter_sublist).map _).nodup registration.table.nodup_mids

/-- On consistent tables, all models are registered as they should be as soon as the lookup of
each of them is right. -/
theorem Consistent.registered_iff (consistent : Consistent jobOf registration) :
    Registered jobOf registration ↔ ∀ mid, registration.Said mid →
      registration.table.getCHfromModelID mid = registration.mostRecent mid := by
  refine ⟨Registered.lookup, fun lookup => ⟨lookup, nodup_job, fun job mid => ?_⟩⟩
  rw [consistent.mem_job]
  refine and_congr_left fun _ => ⟨?_, ?_⟩
  · intro member
    obtain ⟨bound, among, rfl⟩ := List.mem_map.mp member
    exact consistent.heard bound among
  · intro said
    obtain ⟨hello, among, rfl⟩ := List.mem_map.mp said
    have answered := lookup hello.mid said
    cases recent : registration.mostRecent hello.mid with
    | none =>
        unfold mostRecent at recent
        rw [Option.map_eq_none_iff, List.find?_eq_none] at recent
        exact absurd (beq_self_eq_true hello.mid) (recent hello among)
    | some ch =>
        rw [recent] at answered
        obtain ⟨bound, member, same, -⟩ := ModelIdentity.exists_of_getCHfromModelID answered
        exact List.mem_map.mpr ⟨bound, member, same⟩

/-- Two open connections clash by their handles only if they are the same. -/
theorem Consistent.apart_iff (consistent : Consistent jobOf registration)
    {handler : ConnectionHandler}
    (found : registration.connections.handlers hello.rh = some handler)
    (established : handler.state = .established) {bound : ModelIdentityRecord}
    (member : bound ∈ registration.table.records) (other : bound.mid ≠ hello.mid) :
    ¬ ModelIdentityRecord.Clash bound (record jobOf hello handler.handle) ↔
      bound.pid ≠ hello.pid ∧ bound.ch ≠ hello.rh := by
  obtain ⟨holder, holds, open', handle⟩ := consistent.handles bound member
  have handles : bound.chid = handler.handle → bound.ch = hello.rh := fun same =>
    consistent.distinct _ _ holder holds handler found open' established (handle.trans same)
  unfold ModelIdentityRecord.Clash record
  dsimp only
  tauto

/-- The lookup of the model itself is right after its hello exactly if the hello can be
registered. -/
theorem Consistent.lookup_self_iff (consistent : Consistent jobOf registration)
    {handler : ConnectionHandler}
    (found : registration.connections.handlers hello.rh = some handler)
    (established : handler.state = .established) :
    ModelIdentity.getCHfromModelID
        (registration.table.bind (record jobOf hello handler.handle)) hello.mid =
      some hello.rh ↔ registration.Registrable hello := by
  unfold Registrable
  cases known : registration.table.getCHfromModelID hello.mid with
  | some ch =>
      obtain ⟨bound, member, same, -⟩ := ModelIdentity.exists_of_getCHfromModelID known
      have clash : ModelIdentityRecord.Clash bound (record jobOf hello handler.handle) :=
        .inr (.inl same)
      rw [UniqueTable.bind_of_clash member clash, known]
      simp
  | none =>
      have others := ModelIdentity.getCHfromModelID_eq_none.mp known
      have free : (∀ bound ∈ registration.table.records,
          ¬ ModelIdentityRecord.Clash bound (record jobOf hello handler.handle)) ↔
          ∀ bound ∈ registration.table.records, bound.pid ≠ hello.pid ∧ bound.ch ≠ hello.rh :=
        forall₂_congr fun bound member =>
          consistent.apart_iff found established member (others bound member)
      simp only [Option.not_mem_none, false_implies, implies_true, true_and, true_implies]
      rw [← free]
      constructor
      · intro answered bound member clash
        rw [UniqueTable.bind_of_clash member clash, known] at answered
        cases answered
      · intro apart
        have member : record jobOf hello handler.handle ∈
            (registration.table.bind (record jobOf hello handler.handle)).records := by
          rw [UniqueTable.records_bind_of_apart apart]
          simp
        exact ModelIdentity.getCHfromModelID_of_mem member

theorem Consistent.registered_processHello (consistent : Consistent jobOf registration)
    (registered : Registered jobOf registration)
    (live : registration.connections.Live hello.rh) :
    Registered jobOf (registration.processHello jobOf hello) ↔ registration.Registrable hello := by
  rw [(consistent.processHello live).registered_iff]
  obtain ⟨handler, found, established⟩ := live
  simp only [table_processHello found, said_processHello, mostRecent_processHello]
  rw [← consistent.lookup_self_iff found established]
  constructor
  · intro lookup
    simpa using lookup hello.mid (.inl rfl)
  · intro lookup mid said
    by_cases same : mid = hello.mid
    · rw [if_pos same, same, lookup]
    · have kept := registration.table.getCHfromModelID_bind_of_ne
        (record jobOf hello handler.handle) same
      rw [if_neg same, kept]
      exact registered.lookup mid (said.resolve_left same)

end Registration

/-! ## Whole runs -/

theorem admits_helloRuns {jobOf : UInt32 → UInt32} {registration : Registration}
    {hellos : List ModelHello}
    (live : ∀ hello ∈ hellos, registration.connections.Live hello.rh) :
    (helloRuns jobOf).Admits registration hellos := by
  induction hellos generalizing registration with
  | nil => trivial
  | cons hello rest ih =>
      refine ⟨live hello (List.mem_cons_self ..), ih fun later member => ?_⟩
      unfold Connections.Live
      rw [show ((helloRuns jobOf).step registration hello).connections.handlers =
        registration.connections.handlers from Registration.handlers_processHello]
      exact live later (List.mem_cons_of_mem _ member)

/--
From an empty table, in whatever order the models say hello on open connections, all of them
are registered after every hello exactly if each hello, at the moment it arrives, can be
registered.
-/
theorem registered_iff_registrable (jobOf : UInt32 → UInt32) {connections : Connections}
    (distinct : connections.DistinctHandles) (unbound : connections.d2mTable.records = [])
    {hellos : List ModelHello} (live : ∀ hello ∈ hellos, connections.Live hello.rh) :
    (helloRuns jobOf).Throughout (Registration.Registered jobOf) ⟨connections, []⟩ hellos ↔
      ((helloRuns jobOf).restrict Registration.Registrable).Admits ⟨connections, []⟩ hellos := by
  have consistent : Registration.Consistent jobOf ⟨connections, []⟩ := by
    refine ⟨distinct, ?_, ?_, ?_⟩ <;>
      simp [Registration.table, unbound]
  refine System.throughout_iff_restrict_of_invariant _ (Registration.Consistent jobOf)
    (fun _ _ now live => now.processHello live)
    (fun _ _ now registered live => now.registered_processHello registered live) consistent ?_
    (admits_helloRuns live)
  rw [consistent.registered_iff]
  intro mid said
  cases said

/-! ## Two models -/

/-- Two open connections. -/
def twoConnections : Connections where
  handlers ch :=
    if ch = 0 then some ⟨⟨'S', 'P'⟩, 5, .established, false⟩
    else if ch = 1 then some ⟨⟨'S', 'P'⟩, 6, .established, false⟩
    else none
  d2mTable := .empty
  d2dTable := .empty
  d2cTable := .empty

theorem distinctHandles_twoConnections : twoConnections.DistinctHandles := by
  have which : ∀ ch, ∀ handler ∈ twoConnections.handlers ch, ch = 0 ∧ handler.handle = 5 ∨
      ch = 1 ∧ handler.handle = 6 := by
    intro ch handler found
    simp only [twoConnections, Option.mem_def] at found
    split at found
    · next first => exact .inl ⟨first, by rw [← Option.some.inj found]⟩
    · split at found
      · next second => exact .inr ⟨second, by rw [← Option.some.inj found]⟩
      · cases found
  intro first second here found there other _ _ same
  rcases which first here found with ⟨one, handle⟩ | ⟨one, handle⟩
  · rcases which second there other with ⟨two, _⟩ | ⟨_, taken⟩
    · exact one.trans two.symm
    · omega
  · rcases which second there other with ⟨_, taken⟩ | ⟨two, _⟩
    · omega
    · exact one.trans two.symm

/-- The first model says hello twice on its own connection. -/
theorem registered_twoModels :
    (helloRuns id).Throughout (Registration.Registered id) ⟨twoConnections, []⟩
      [⟨0, 1, 10, 70, none, false⟩, ⟨1, 2, 20, 71, none, false⟩, ⟨0, 1, 10, 70, none, false⟩] :=
  (registered_iff_registrable id distinctHandles_twoConnections rfl (by decide)).mpr (by decide)

/-- Two models of different hosts have the same process id: the second is not registered. -/
theorem not_registered_sharedPid :
    twoConnections.DistinctHandles ∧ twoConnections.Live 0 ∧ twoConnections.Live 1 ∧
      ¬ Registration.Registered id ((helloRuns id).exec ⟨twoConnections, []⟩
        [⟨0, 1, 10, 70, none, false⟩, ⟨1, 2, 20, 70, none, false⟩]) := by
  refine ⟨distinctHandles_twoConnections, by decide, by decide, fun registered => ?_⟩
  have answered := registered.lookup 2 (List.mem_cons_self ..)
  revert answered
  decide

end Nise.Dispatcherd
