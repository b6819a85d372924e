import Nise.Lib.Run
import Nise.Dispatcherd.Identity

/-!
# Connection handlers and the identity tables

A connection handler is entered into an identity table when its peer says hello, or when its
command channel is opened, and is removed by its destructor.  A handler that has accepted its
connection is destroyed when the connection closes.  One that has made its connection is
kept, and connects again, unless the close was commanded.  Which sockets are handed out and
what the object manager knows of a peer are given with each event.
-/

namespace Nise.Dispatcherd

open Nise.Lib

/-- What the handlers use of a `ConnectionRecord`. -/
structure ConnectionRecord where
  proxyRole : Char
  connectionType : Char
  deriving DecidableEq, Repr

inductive ConnectionState where
  | uninitialized
  | idle
  | connecting
  | established
  | disconnecting
  | failed
  deriving DecidableEq, Repr

def aceInvalidHandle : Int := -1

structure ConnectionHandler where
  entity : ConnectionRecord
  handle : Int
  state : ConnectionState
  commandedClose : Bool
  deriving DecidableEq, Repr

namespace ConnectionHandler

def init (entity : ConnectionRecord) : ConnectionHandler :=
  ⟨entity, aceInvalidHandle, .idle, false⟩

variable (handler : ConnectionHandler)

def commandRole : Bool := handler.entity.proxyRole == 'C'

def passive : Bool := handler.entity.connectionType != 'A'

end ConnectionHandler

/-- What `open` comes to: it gives up before the connection is complete, the hello cannot be
sent, or all is well. -/
inductive Opening where
  | rejected
  | unannounced
  | complete
  deriving DecidableEq, Repr

/-- What `connect` comes to, with the handle that the socket of the handler then has. -/
inductive Attempt where
  | refused (handle : Int)
  | pending (handle : Int)
  | connected (handle : Int) (opening : Opening)
  deriving DecidableEq, Repr

def Attempt.handle : Attempt → Int
  | .refused handle => handle
  | .pending handle => handle
  | .connected handle _ => handle

/-- The state in which `initiateConnection` leaves the handler. -/
def Attempt.state : Attempt → ConnectionState
  | .refused _ => .failed
  | .pending _ => .connecting
  | .connected _ .complete => .established
  | .connected _ _ => .failed

structure ModelDetails where
  jid : UInt32
  nodeid : UInt32
  pid : Int
  deriving DecidableEq, Repr

/-- What the object manager knows of the peer that says hello, and the debug flag `ROUTE`. -/
structure HelloAnswers where
  getModelDetails : Option ModelDetails
  isDispatcher : Option UInt32
  route : Bool
  deriving DecidableEq, Repr

/-- The handlers that exist and the three tables. -/
structure Connections where
  handlers : Handler → Option ConnectionHandler
  d2mTable : ModelIdentity
  d2dTable : DispatcherIdentity
  d2cTable : CommandIdentity

namespace Connections

def empty : Connections := ⟨fun _ => none, .empty, .empty, .empty⟩

variable (connections : Connections)

def setHandler (ch : Handler) (handler : Option ConnectionHandler) : Connections :=
  { connections with
    handlers := fun other => if other = ch then handler else connections.handlers other }

def modify (ch : Handler) (change : ConnectionHandler → ConnectionHandler) : Connections :=
  connections.setHandler ch ((connections.handlers ch).map change)

def setState (ch : Handler) (state : ConnectionState) : Connections :=
  connections.modify ch fun handler => { handler with state := state }

theorem handlers_setHandler_of_ne {ch other : Handler} (apart : other ≠ ch)
    (handler : Option ConnectionHandler) :
    (connections.setHandler ch handler).handlers other = connections.handlers other :=
  if_neg apart

@[simp] theorem handlers_modify_self (ch : Handler)
    (change : ConnectionHandler → ConnectionHandler) :
    (connections.modify ch change).handlers ch = (connections.handlers ch).map change := if_pos rfl

theorem handlers_modify_of_ne {ch other : Handler} (apart : other ≠ ch)
    (change : ConnectionHandler → ConnectionHandler) :
    (connections.modify ch change).handlers other = connections.handlers other := if_neg apart

/-! ## Opening -/

/-- A command channel is entered into its table; the hello of the other channels is sent. -/
def completeConnection (ch : Handler) : Connections :=
  match connections.handlers ch with
  | some handler =>
      if handler.commandRole then
        { connections with d2cTable := connections.d2cTable.bind ⟨handler.handle, ch⟩ }
      else connections
  | none => connections

def openHandler (ch : Handler) : Opening → Connections
  | .rejected => connections
  | .unannounced => (connections.setState ch .established).completeConnection ch
  | .complete => (connections.setState ch .established).completeConnection ch

def connect (ch : Handler) (attempt : Attempt) : Connections :=
  let connections := connections.modify ch fun handler =>
    { handler with handle := attempt.handle, state := .idle }
  match attempt with
  | .connected _ opening => connections.openHandler ch opening
  | _ => connections

/-- A handler that makes its connection, the first time or again. -/
def initiateConnection (ch : Handler) (attempt : Attempt) : Connections :=
  match connections.handlers ch with
  | some handler =>
      if handler.state ≠ .established then
        (connections.connect ch attempt).setState ch attempt.state
      else connections
  | none => connections

/-- A new handler that has accepted its connection. -/
def acceptSvcHandler (ch : Handler) (entity : ConnectionRecord) (handle : Int)
    (opening : Opening) : Connections :=
  (connections.setHandler ch
    (some { ConnectionHandler.init entity with handle := handle })).openHandler ch opening

/-! ## Hello -/

def processHelloEvent (rh : Handler) (peerId : UInt32) (answers : HelloAnswers) : Connections :=
  match connections.handlers rh with
  | some handler =>
      match answers.getModelDetails with
      | some details =>
          { connections with
            d2mTable := connections.d2mTable.bind
              ⟨handler.handle, details.jid, peerId, details.nodeid, details.pid, rh⟩ }
      | none =>
          match answers.isDispatcher with
          | some node =>
              -- With the debug flag the function returns before it binds the dispatcher.
              if answers.route then connections
              else
                { connections with
                  d2dTable := connections.d2dTable.bind ⟨handler.handle, peerId, node, rh⟩ }
          | none => connections
  | none => connections

/-- A hello makes no handler and changes none. -/
theorem handlers_processHelloEvent (rh : Handler) (peerId : UInt32) (answers : HelloAnswers) :
    (connections.processHelloEvent rh peerId answers).handlers = connections.handlers := by
  unfold processHelloEvent
  split
  · split
    · rfl
    · split
      · split <;> rfl
      · rfl
  · rfl

/-! ## Closing -/

/-- The destructor: a handler is removed from the tables by its handle. -/
def destroy (ch : Handler) : Connections :=
  match connections.handlers ch with
  | some handler =>
      let connections :=
        if handler.commandRole = false then
          { connections with
            d2mTable :=
              match connections.d2mTable.findCHID handler.handle with
              | some _ => connections.d2mTable.unbindCHID handler.handle
              | none => connections.d2mTable
            d2dTable := connections.d2dTable.unbindCHID handler.handle }
        else { connections with d2cTable := connections.d2cTable.unbindCHID handler.handle }
      connections.setHandler ch none
  | none => connections

/-- A handler that made its connection is kept, and connects again when a timer expires. -/
def handleClose (ch : Handler) : Connections :=
  match connections.handlers ch with
  | some handler =>
      if handler.passive = false ∧ handler.commandedClose = false then
        connections.setState ch .failed
      else connections.destroy ch
  | none => connections

end Connections

/-! ## Runs -/

inductive ConnectionEvent where
  | makeConnectionHandler (ch : Handler) (entity : ConnectionRecord)
  | initiateConnection (ch : Handler) (attempt : Attempt)
  | connectionMade (ch : Handler) (opening : Opening)
  | acceptSvcHandler (ch : Handler) (entity : ConnectionRecord) (handle : Int)
      (opening : Opening)
  | hello (rh : Handler) (peerId : UInt32) (answers : HelloAnswers)
  | fail (ch : Handler)
  | commandedClose (ch : Handler)
  | handleClose (ch : Handler)
  | destroy (ch : Handler)
  deriving DecidableEq, Repr

namespace Connections

variable (connections : Connections)

def step : ConnectionEvent → Connections
  | .makeConnectionHandler ch entity =>
      connections.setHandler ch (some (ConnectionHandler.init entity))
  | .initiateConnection ch attempt => connections.initiateConnection ch attempt
  | .connectionMade ch opening => connections.openHandler ch opening
  | .acceptSvcHandler ch entity handle opening =>
      connections.acceptSvcHandler ch entity handle opening
  | .hello rh peerId answers => connections.processHelloEvent rh peerId answers
  | .fail ch => connections.setState ch .failed
  | .commandedClose ch =>
      connections.modify ch fun handler => { handler with commandedClose := true }
  | .handleClose ch => connections.handleClose ch
  | .destroy ch => connections.destroy ch

/-- New handlers are not among those that exist, active handlers make their connections and
passive ones accept them; what a command channel receives is a command and never a hello. -/
def Possible : ConnectionEvent → Prop
  | .makeConnectionHandler ch entity =>
      connections.handlers ch = none ∧ entity.connectionType = 'A'
  | .acceptSvcHandler ch entity _ _ =>
      connections.handlers ch = none ∧ entity.connectionType = 'P'
  | .initiateConnection ch _ =>
      ∃ handler ∈ connections.handlers ch, handler.passive = false
  | .connectionMade ch _ => ∃ handler ∈ connections.handlers ch, handler.state = .connecting
  | .hello rh _ _ => ∃ handler ∈ connections.handlers rh,
      handler.state = .established ∧ handler.commandRole = false
  | .fail ch => ∃ handler ∈ connections.handlers ch, handler.state = .established
  | .commandedClose ch => ∃ handler ∈ connections.handlers ch, handler.state = .established
  | .handleClose ch => ∃ handler ∈ connections.handlers ch, True
  | .destroy ch => ∃ handler ∈ connections.handlers ch, True

instance : DecidablePred connections.Possible
  | .makeConnectionHandler _ _ => inferInstanceAs (Decidable (_ ∧ _))
  | .acceptSvcHandler _ _ _ _ => inferInstanceAs (Decidable (_ ∧ _))
  | .initiateConnection ch _ =>
      inferInstanceAs (Decidable (∃ handler ∈ connections.handlers ch, handler.passive = false))
  | .connectionMade ch _ =>
      inferInstanceAs (Decidable (∃ handler ∈ connections.handlers ch,
        handler.state = .connecting))
  | .hello rh _ _ => inferInstanceAs (Decidable (∃ handler ∈ connections.handlers rh,
      handler.state = .established ∧ handler.commandRole = false))
  | .fail ch => inferInstanceAs (Decidable (∃ handler ∈ connections.handlers ch,
      handler.state = .established))
  | .commandedClose ch => inferInstanceAs (Decidable (∃ handler ∈ connections.handlers ch,
      handler.state = .established))
  | .handleClose ch => inferInstanceAs (Decidable (∃ handler ∈ connections.handlers ch, True))
  | .destroy ch => inferInstanceAs (Decidable (∃ handler ∈ connections.handlers ch, True))

end Connections

/-- All runs of the connections of a dispatcher. -/
def connectionRuns : System Connections ConnectionEvent where
  step connections event := connections.step event
  guard connections event := connections.Possible event

instance (connections : Connections) (event : ConnectionEvent) :
    Decidable (connectionRuns.guard connections event) :=
  inferInstanceAs (Decidable (connections.Possible event))

end Nise.Dispatcherd
