import Nise.Core.FrameReader
import Nise.Core.SamsonHeader

/-!
# The receive path of the dispatcher

`ReceiveHandler::handle_input` reads what the socket has and, when a frame is
complete, passes it through the input filter of the connection, if there is one,
and on to the event channel.
-/

namespace Nise.Dispatcherd

open Nise.Ace Nise.Core

inductive HandlerState where
  | uninitialized
  | idle
  | connecting
  | established
  | disconnecting
  | failed
  deriving DecidableEq, Repr

/-- A channel filter rewrites the data and the header of an event in place. -/
abbrev Filter (Fields : Type) :=
  EventHeader Fields → Option MessageBlock → EventHeader Fields × Option MessageBlock

/-- `ReverseFilter::process`: turn lower case letters into upper case. -/
def reverseFilter {Fields : Type} : Filter Fields := fun header event =>
  (header, event.map fun block =>
    { block with data := block.data.map fun byte =>
        if 97 ≤ byte ∧ byte ≤ 122 then byte - 32 else byte })

/-- The members of a handler that its receive path reads.  Its header type is not
`NOHEADER`, so `recv_action` is `recv_header`. -/
structure ReceiveHandler (Fields : Type) where
  headerType : HeaderType Fields
  evhGet : Option (EventHeader Fields)
  connectionId : Int
  handle : Int
  inputFilter : Option (Filter Fields)

structure HandleInput (Fields : Type) where
  fragment : Fragment Fields
  errno : Errno
  state : HandlerState
  handed : Option (EventHeader Fields × Option MessageBlock)
  returned : Int
  calls : List RecvCall

namespace ReceiveHandler

variable {Fields : Type} (handler : ReceiveHandler Fields)

/-- The hidden header details `recv_header` fills in. -/
def details : Option (Int × Int) := some (handler.connectionId, handler.handle)

def recvHeader (fragment : Fragment Fields) (errno : Errno) (script : List RecvResult) :
    Received Fields :=
  recvFrame handler.headerType handler.evhGet handler.details fragment errno script

/-- The pair that reaches the event channel when `recv_header` returned this one. -/
def filtered (pair : EventHeader Fields × Option MessageBlock) :
    EventHeader Fields × Option MessageBlock :=
  match handler.inputFilter with
  | some filter => filter pair.1 pair.2
  | none => pair

/-- `process` gives the return values of `EventChannel::process`. -/
def handleInput (process : EventHeader Fields → Option MessageBlock → Int)
    (state : HandlerState) (fragment : Fragment Fields) (script : List RecvResult) :
    HandleInput Fields :=
  let call := handler.recvHeader fragment .clear script
  if 0 < call.result then
    match call.theHeader with
    | some header =>
        let pair := handler.filtered (header, call.theEvent)
        if process pair.1 pair.2 ≠ 0 then
          ⟨call.fragment, call.errno, .failed, some pair, -1, call.calls⟩
        else
          ⟨call.fragment, call.errno, state, some pair, 0, call.calls⟩
    | none => ⟨call.fragment, call.errno, state, none, 0, call.calls⟩
  else if call.result = 0 then
    ⟨call.fragment, call.errno, .failed, none, -1, call.calls⟩
  else if call.errno = .ewouldblock then
    -- A short read, the rest of the frame is read later.
    ⟨call.fragment, call.errno, state, none, 0, call.calls⟩
  else
    ⟨call.fragment, call.errno, .failed, none, -1, call.calls⟩

/-- An invocation as its owner sees it. -/
def invocation (process : EventHeader Fields → Option MessageBlock → Int)
    (fragment : Fragment Fields) (_ : Errno) (script : List RecvResult) : Invocation Fields :=
  let out := handler.handleInput process .established fragment script
  ⟨out.fragment, out.errno, out.handed, out.returned, out.calls⟩

variable {handler}

theorem invocation_wraps {blank : EventHeader Fields} (allocates : handler.evhGet = some blank)
    (process : EventHeader Fields → Option MessageBlock → Int) (fragment : Fragment Fields)
    (errno : Errno) (script : List RecvResult) :
    Wraps handler.headerType blank handler.details handler.filtered
      (handler.invocation process fragment errno script)
      (recvFrame handler.headerType (some blank) handler.details fragment .clear script) := by
  rw [← allocates]
  change Wraps _ _ _ _ _ (handler.recvHeader fragment .clear script)
  unfold invocation handleInput
  generalize handler.recvHeader fragment .clear script = call
  constructor
  · dsimp only
    split
    · split
      · split <;> rfl
      · rfl
    · split
      · rfl
      · split <;> rfl
  · dsimp only
    split
    · split
      · split <;> rfl
      · rfl
    · split
      · rfl
      · split <;> rfl
  · intro header positive found
    dsimp only
    rw [if_pos positive]
    simp only [found]
    split <;> rfl
  · intro negative blocks
    have notPositive : ¬ 0 < call.result := by omega
    have notZero : ¬ call.result = 0 := by omega
    dsimp only
    rw [if_neg notPositive, if_neg notZero, if_pos blocks]
    exact ⟨rfl, rfl⟩

end ReceiveHandler

end Nise.Dispatcherd
