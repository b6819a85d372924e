import Nise.Core.FrameReader

/-!
# The receive path of a peer

`Peer_Handler::await_events` calls `recv` and hands a completed event to the
application.
-/

namespace Nise.Peer

open Nise.Ace Nise.Core

/-- The parts of a handler and of the code it calls that its receive path uses: the
header that `new SamsonHeader ()` gives, the checksum in a header and the one
computed over the data, and the return values of `SharedAppMgr::handle_event` if
an application is registered. -/
structure PeerHandler (Fields : Type) where
  headerType : HeaderType Fields
  blank : EventHeader Fields
  crc32 : Fields → UInt32
  checksum : List UInt8 → UInt32
  samsonApp : Option (Option (EventHeader Fields) → Option MessageBlock → Int)

structure AwaitEvents (Fields : Type) where
  fragment : Fragment Fields
  errno : Errno
  handled : Option (Option (EventHeader Fields) × Option MessageBlock)
  /-- A checksum error asks the application to stop the simulation. -/
  stops : Bool
  returned : Int
  calls : List RecvCall

namespace PeerHandler

variable {Fields : Type} (peer : PeerHandler Fields)

def recv (fragment : Fragment Fields) (errno : Errno) (script : List RecvResult) :
    Received Fields :=
  recvFrame peer.headerType (some peer.blank) none fragment errno script

/-- The data has a checksum that is not the one in the header. -/
def corrupt (header : Option (EventHeader Fields)) (event : Option MessageBlock) : Bool :=
  match header, event with
  | some header, some block =>
      decide (0 < block.length) && peer.crc32 header.fields != peer.checksum block.data
  | _, _ => false

def awaitEvents (fragment : Fragment Fields) (errno : Errno) (script : List RecvResult) :
    AwaitEvents Fields :=
  let call := peer.recv fragment errno script
  if call.result = 0 then
    ⟨call.fragment, call.errno, none, false, -1, call.calls⟩
  else if call.result = -1 then
    if call.errno = .ewouldblock then
      ⟨call.fragment, call.errno, none, false, 0, call.calls⟩
    else
      ⟨call.fragment, call.errno, none, false, -1, call.calls⟩
  else
    let stops := peer.corrupt call.theHeader call.theEvent
    match peer.samsonApp with
    | some app =>
        ⟨call.fragment, call.errno, some (call.theHeader, call.theEvent), stops,
          app call.theHeader call.theEvent, call.calls⟩
    | none => ⟨call.fragment, call.errno, none, stops, 0, call.calls⟩

/-- An invocation as its owner sees it. -/
def invocation (fragment : Fragment Fields) (errno : Errno) (script : List RecvResult) :
    Invocation Fields :=
  let out := peer.awaitEvents fragment errno script
  ⟨out.fragment, out.errno,
    out.handled.bind fun pair => pair.1.map fun header => (header, pair.2),
    out.returned, out.calls⟩

variable {peer}

theorem invocation_wraps {app : Option (EventHeader Fields) → Option MessageBlock → Int}
    (registered : peer.samsonApp = some app) (fragment : Fragment Fields) (errno : Errno)
    (script : List RecvResult) :
    Wraps peer.headerType peer.blank none id (peer.invocation fragment errno script)
      (recvFrame peer.headerType (some peer.blank) none fragment errno script) := by
  change Wraps _ _ _ _ _ (peer.recv fragment errno script)
  unfold invocation awaitEvents
  generalize peer.recv fragment errno script = call
  simp only [registered]
  constructor
  · dsimp only
    split
    · rfl
    · split
      · split <;> rfl
      · rfl
  · dsimp only
    split
    · rfl
    · split
      · split <;> rfl
      · rfl
  · intro header positive found
    have notZero : ¬ call.result = 0 := by omega
    have notFailed : ¬ call.result = -1 := by omega
    rw [if_neg notZero, if_neg notFailed]
    simp [found]
  · intro negative blocks
    have notZero : ¬ call.result = 0 := by omega
    rw [if_neg notZero, if_pos negative, if_pos blocks]
    exact ⟨rfl, rfl⟩

end PeerHandler

end Nise.Peer
