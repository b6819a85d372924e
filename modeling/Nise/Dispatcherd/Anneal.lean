import Mathlib.Data.List.Nodup
import Nise.Lib.Run
import Nise.Dispatcherd.ConnectionHandler

/-!
# Connecting to the other dispatchers

An anneal command, or a `D2D_CONNECT` message, makes a dispatcher connect to every higher
dispatcher that is not in `D2D_TABLE`.  That table is filled when the other side says
hello, so a second anneal that comes before the hello connects once more.
-/

namespace Nise.Dispatcherd

open Nise.Lib

def DispatcherIdentity.findNodeID (table : DispatcherIdentity) (id : UInt32) :
    Option DispatcherIdentityRecord :=
  table.find? (·.node == id)

/-- A record of the connection table: one from the configuration, or one made to connect to a
dispatcher, with its host and the node of the dispatcher. -/
inductive TableEntry where
  | configured
  | d2d (node : UInt32) (host : String)
  deriving DecidableEq, Repr

def TableEntry.isFor (node : UInt32) : TableEntry → Bool
  | .configured => false
  | .d2d other _ => other == node

/-- The handlers and identity tables, the connection table, and the active handlers that were
made for other dispatchers, each with the node of its dispatcher. -/
structure AnnealState where
  connections : Connections
  table : List (Int × TableEntry)
  freeKey : Int
  made : List (Handler × UInt32)

/-- What the surroundings decide: the answers of the object manager to an anneal, the handlers
it allocates with the outcome of each connect, later completions, and hellos. -/
inductive AnnealEvent where
  | initiateAllD2dConnections (higher : List UInt32) (dispatcherInfo : UInt32 → Option String)
      (opened : Nat → Handler × Attempt)
  | initiateConnection (ch : Handler) (attempt : Attempt)
  | connectionMade (ch : Handler) (opening : Opening)
  | hello (rh : Handler) (peerId : UInt32) (answers : HelloAnswers)

namespace AnnealState

/-- Some handlers exist, and the connection table holds the records of the configuration. -/
def start (connections : Connections) (configured : List Int) : AnnealState where
  connections := connections
  table := configured.map fun id => (id, .configured)
  freeKey := 65535
  made := []

variable (state : AnnealState)

/-- Bind a record that has no key yet.  One that finds its key taken is left out. -/
def bind (entry : TableEntry) : AnnealState :=
  { state with
    freeKey := state.freeKey - 1
    table :=
      if state.freeKey ∈ state.table.map Prod.fst then state.table
      else state.table ++ [(state.freeKey, entry)] }

/-- The new handler is made whether or not the record could be bound. -/
def initiateConnect (node : UInt32) (host : String) (opened : Handler × Attempt) : AnnealState :=
  let state := state.bind (.d2d node host)
  { state with
    connections := (state.connections.step (.makeConnectionHandler opened.1 ⟨'B', 'A'⟩)).step
      (.initiateConnection opened.1 opened.2)
    made := state.made ++ [(opened.1, node)] }

def initiateAll (dispatcherInfo : UInt32 → Option String) :
    AnnealState → List UInt32 → (Nat → Handler × Attempt) → AnnealState
  | state, [], _ => state
  | state, node :: rest, opened =>
      -- check to see if already connected
      if (state.connections.d2dTable.findNodeID node).isSome then
        initiateAll dispatcherInfo state rest opened
      else
        match dispatcherInfo node with
        | some ip =>
            initiateAll dispatcherInfo (state.initiateConnect node ip (opened 0)) rest
              fun n => opened (n + 1)
        | none => initiateAll dispatcherInfo state rest opened

def step : AnnealEvent → AnnealState
  | .initiateAllD2dConnections higher dispatcherInfo opened =>
      initiateAll dispatcherInfo state higher opened
  | .initiateConnection ch attempt =>
      { state with connections := state.connections.step (.initiateConnection ch attempt) }
  | .connectionMade ch opening =>
      { state with connections := state.connections.step (.connectionMade ch opening) }
  | .hello rh peerId answers =>
      { state with connections := state.connections.step (.hello rh peerId answers) }

/-- At most one active record and one active handler for each dispatcher. -/
def OneEach : Prop :=
  ∀ node, state.table.countP (fun entry => entry.2.isFor node) ≤ 1 ∧
    state.made.countP (fun handler => handler.2 == node) ≤ 1

/-- The dispatchers that an anneal connects to: those that have not said hello and whose
address is known. -/
def unconnected (higher : List UInt32) (dispatcherInfo : UInt32 → Option String) : List UInt32 :=
  higher.filter fun node =>
    (state.connections.d2dTable.findNodeID node).isNone && (dispatcherInfo node).isSome

/-- An anneal names each dispatcher it connects to once, and none that already has a handler. -/
def Fresh : AnnealEvent → Prop
  | .initiateAllD2dConnections higher dispatcherInfo _ =>
      (state.unconnected higher dispatcherInfo).Nodup ∧
        ∀ node ∈ state.unconnected higher dispatcherInfo, node ∉ state.made.map Prod.snd
  | _ => True

end AnnealState

/-- Anneals, completions and hellos in any order. -/
def anneals : System AnnealState AnnealEvent where
  step := AnnealState.step
  guard _ _ := True

/-! ## The tables during an anneal -/

namespace Connections

variable (connections : Connections) (ch : Handler)

theorem d2dTable_completeConnection :
    (connections.completeConnection ch).d2dTable = connections.d2dTable := by
  unfold completeConnection
  split
  · split <;> rfl
  · rfl

theorem d2dTable_openHandler (opening : Opening) :
    (connections.openHandler ch opening).d2dTable = connections.d2dTable := by
  cases opening with
  | rejected => rfl
  | unannounced => exact d2dTable_completeConnection (connections.setState ch .established) ch
  | complete => exact d2dTable_completeConnection (connections.setState ch .established) ch

/-- To connect is not to know the other side yet. -/
theorem d2dTable_initiateConnection (attempt : Attempt) :
    (connections.initiateConnection ch attempt).d2dTable = connections.d2dTable := by
  unfold initiateConnection
  split
  · split
    · cases attempt with
      | refused handle => rfl
      | pending handle => rfl
      | connected handle opening =>
          exact d2dTable_openHandler (connections.modify ch fun handler =>
            { handler with handle := handle, state := .idle }) ch opening
    · rfl
  · rfl

end Connections

namespace AnnealState

variable {state : AnnealState}

theorem d2dTable_initiateConnect (state : AnnealState) (node : UInt32) (host : String)
    (opened : Handler × Attempt) :
    (state.initiateConnect node host opened).connections.d2dTable =
      state.connections.d2dTable := by
  exact Connections.d2dTable_initiateConnection
    (state.connections.step (.makeConnectionHandler opened.1 ⟨'B', 'A'⟩)) opened.1 opened.2

/-- An anneal makes one handler for each dispatcher it finds unconnected. -/
theorem made_initiateAll (dispatcherInfo : UInt32 → Option String) (state : AnnealState)
    (higher : List UInt32) (opened : Nat → Handler × Attempt) :
    (initiateAll dispatcherInfo state higher opened).made.map Prod.snd =
      state.made.map Prod.snd ++ state.unconnected higher dispatcherInfo := by
  induction higher generalizing state opened with
  | nil => exact (List.append_nil _).symm
  | cons node rest ih =>
      unfold initiateAll
      split
      · next known =>
          rw [ih]
          simp [unconnected, Option.isSome_iff_ne_none.mp known]
      · next unknown =>
          rw [Bool.not_eq_true, Option.isSome_eq_false_iff] at unknown
          split
          · next ip info =>
              have same : (state.initiateConnect node ip (opened 0)).unconnected rest
                  dispatcherInfo = state.unconnected rest dispatcherInfo := by
                rw [unconnected, d2dTable_initiateConnect, unconnected]
              rw [ih, same]
              simp [unconnected, unknown, info, initiateConnect, bind]
          · next info =>
              rw [ih]
              simp [unconnected, info]

/-! ## Records and handlers -/

/-- There are not more records for a dispatcher than handlers. -/
def Listed (state : AnnealState) : Prop :=
  ∀ node, state.table.countP (fun entry => entry.2.isFor node) ≤
    state.made.countP fun handler => handler.2 == node

theorem Listed.start (connections : Connections) (configured : List Int) :
    (start connections configured).Listed := by
  intro node
  have none : (configured.map fun id => (id, TableEntry.configured)).countP
      (fun entry => entry.2.isFor node) = 0 := by
    rw [List.countP_eq_zero]
    simp [TableEntry.isFor]
  exact Nat.le_of_eq none

theorem Listed.initiateConnect (listed : state.Listed) (node : UInt32) (host : String)
    (opened : Handler × Attempt) : (state.initiateConnect node host opened).Listed := by
  intro other
  have before := listed other
  simp only [AnnealState.initiateConnect, AnnealState.bind, List.countP_append]
  split
  · omega
  · have same : TableEntry.isFor other (.d2d node host) = (node == other) := rfl
    rw [List.countP_append, List.countP_singleton, List.countP_singleton, same]
    exact Nat.add_le_add_right before _

theorem Listed.initiateAll (listed : state.Listed) (dispatcherInfo : UInt32 → Option String)
    (higher : List UInt32) (opened : Nat → Handler × Attempt) :
    (initiateAll dispatcherInfo state higher opened).Listed := by
  induction higher generalizing state opened with
  | nil => exact listed
  | cons node rest ih =>
      unfold AnnealState.initiateAll
      split
      · exact ih listed opened
      · split
        · exact ih (listed.initiateConnect node _ _) _
        · exact ih listed opened

theorem Listed.step (listed : state.Listed) (event : AnnealEvent) : (state.step event).Listed := by
  cases event with
  | initiateAllD2dConnections higher dispatcherInfo opened =>
      exact listed.initiateAll dispatcherInfo higher opened
  | initiateConnection ch attempt => exact listed
  | connectionMade ch opening => exact listed
  | hello rh peerId answers => exact listed

theorem Listed.oneEach_iff (listed : state.Listed) :
    state.OneEach ↔ (state.made.map Prod.snd).Nodup := by
  have counted : ∀ node, state.made.countP (fun handler => handler.2 == node) =
      (state.made.map Prod.snd).count node := by
    intro node
    rw [List.count, List.countP_map]
    rfl
  rw [List.nodup_iff_count_le_one]
  constructor
  · intro each node
    rw [← counted]
    exact (each node).2
  · intro each node
    have handlers := each node
    rw [← counted] at handlers
    exact ⟨Nat.le_trans (listed node) handlers, handlers⟩

/-- An anneal out of a state with one connection each keeps it so exactly if it is fresh. -/
theorem OneEach.step_iff (listed : state.Listed) (each : state.OneEach) (event : AnnealEvent) :
    (state.step event).OneEach ↔ state.Fresh event := by
  rw [(listed.step event).oneEach_iff]
  have nodup := listed.oneEach_iff.mp each
  cases event with
  | initiateAllD2dConnections higher dispatcherInfo opened =>
      change ((AnnealState.initiateAll dispatcherInfo state higher opened).made.map
        Prod.snd).Nodup ↔ _
      rw [made_initiateAll, List.nodup_append, and_iff_right nodup]
      refine and_congr_right fun _ => ?_
      constructor
      · intro apart node member old
        exact apart node old node member rfl
      · intro fresh old was node member same
        rw [same] at was
        exact fresh node member was
  | initiateConnection ch attempt => exact iff_of_true nodup trivial
  | connectionMade ch opening => exact iff_of_true nodup trivial
  | hello rh peerId answers => exact iff_of_true nodup trivial

end AnnealState

/-- Anneals leave at most one record and one handler for each dispatcher exactly if each of them
finds every dispatcher that it has connected to before in `D2D_TABLE`. -/
theorem anneal_idempotent_iff (connections : Connections) (configured : List Int)
    (events : List AnnealEvent) :
    anneals.Throughout AnnealState.OneEach (.start connections configured) events ↔
      (anneals.restrict AnnealState.Fresh).Admits (.start connections configured) events := by
  have admitted : anneals.Admits (.start connections configured) events :=
    anneals.admits_of_unguarded (fun _ _ => trivial) _ _
  have listed := AnnealState.Listed.start connections configured
  refine anneals.throughout_iff_restrict_of_invariant AnnealState.Listed ?_ ?_ listed
    (listed.oneEach_iff.mpr List.nodup_nil) admitted
  · intro state event listed _
    exact listed.step event
  · intro state event listed each _
    exact each.step_iff listed event

/-- Two anneals before the hello of the only higher dispatcher. -/
theorem anneal_connects_twice :
    ¬ ∀ (connections : Connections) (configured : List Int) (events : List AnnealEvent),
      anneals.Throughout AnnealState.OneEach (.start connections configured) events := by
  intro always
  have each := (always .empty []
    [.initiateAllD2dConnections [2] (fun _ => some "10.0.0.2") (fun _ => (0, .pending 5)),
      .initiateAllD2dConnections [2] (fun _ => some "10.0.0.2") (fun _ => (1, .pending 6))]).2.2 2
  revert each
  decide

end Nise.Dispatcherd
