import Nise.Core.HeaderReads
import Nise.ReceivePaths

/-!
# Both receive paths when the socket fails or ends

`recv` returns -1 when it fails and 0 when the peer has closed the connection.  Both
receive paths add the first to `header_recvd_` and take the second for a short read as
soon as a byte of a header has arrived.
-/

namespace Nise.Dispatcherd.ReceiveHandler

open Nise.Core

variable {Fields : Type} (handler : ReceiveHandler Fields)

/-- Any sequence of `recv_header` calls. -/
def headerReads : Lib.System (HeaderReads Fields) ReceiveCall :=
  Core.headerReads handler.headerType handler.evhGet handler.recvHeader

instance (state : HeaderReads Fields) (call : ReceiveCall) :
    Decidable (handler.headerReads.guard state call) :=
  inferInstanceAs (Decidable
    ((Core.headerReads handler.headerType handler.evhGet handler.recvHeader).guard state call))

end Nise.Dispatcherd.ReceiveHandler

namespace Nise.Peer.PeerHandler

open Nise.Core

variable {Fields : Type} (peer : PeerHandler Fields)

/-- Any sequence of `recv` calls. -/
def headerReads : Lib.System (HeaderReads Fields) ReceiveCall :=
  Core.headerReads peer.headerType (some peer.blank) peer.recv

instance (state : HeaderReads Fields) (call : ReceiveCall) :
    Decidable (peer.headerReads.guard state call) :=
  inferInstanceAs (Decidable
    ((Core.headerReads peer.headerType (some peer.blank) peer.recv).guard state call))

end Nise.Peer.PeerHandler

namespace Nise.ReceivePaths

open Nise.Ace Nise.Core Nise.Dispatcherd Nise.Peer

variable {Fields : Type}

/-! ## The header buffer -/

/-- On both paths the header count stays in bounds and right exactly in the runs in which no
`recv` for a header fails. -/
theorem header_bounds_iff (handler : ReceiveHandler Fields) (peer : PeerHandler Fields) :
    (∀ calls, handler.headerReads.Admits .start calls →
      (handler.headerReads.Throughout (HeaderReads.InBounds handler.headerType) .start calls ↔
        (handler.headerReads.restrict
          (HeaderReadSucceeds handler.headerType handler.evhGet)).Admits .start calls)) ∧
    (∀ calls, peer.headerReads.Admits .start calls →
      (peer.headerReads.Throughout (HeaderReads.InBounds peer.headerType) .start calls ↔
        (peer.headerReads.restrict
          (HeaderReadSucceeds peer.headerType (some peer.blank))).Admits .start calls)) := by
  constructor
  · intro calls admitted
    exact headerReads_inBounds_iff admitted
  · intro calls admitted
    exact headerReads_inBounds_iff admitted

/-- Ten bytes of a header, then the rest of it in a call that finds no data yet. -/
def twoHeaderReads : List ReceiveCall :=
  [⟨.clear, [.bytes ((samsonBytes [0, 0, 0, 2]).take 10)]⟩,
    ⟨.clear, [.bytes ((samsonBytes [0, 0, 0, 2]).drop 10), .fail .ewouldblock]⟩]

theorem header_bounds_twoHeaderReads :
    (samsonHandler none).headerReads.Throughout (HeaderReads.InBounds SamsonHeader.headerType)
        .start twoHeaderReads ∧
      samsonPeer.headerReads.Throughout (HeaderReads.InBounds SamsonHeader.headerType) .start
        twoHeaderReads :=
  ⟨((header_bounds_iff (samsonHandler none) samsonPeer).1 twoHeaderReads
      (by decide +kernel)).mpr (by decide +kernel),
    ((header_bounds_iff (samsonHandler none) samsonPeer).2 twoHeaderReads
      (by decide +kernel)).mpr (by decide +kernel)⟩

/-- A socket without anything to read takes the header count to -1. -/
theorem header_bounds_fail :
    (¬ ∀ (handler : ReceiveHandler SamsonHeader) calls, handler.headerReads.Admits .start calls →
      handler.headerReads.Throughout (HeaderReads.InBounds handler.headerType) .start calls) ∧
    ¬ ∀ (peer : PeerHandler SamsonHeader) calls, peer.headerReads.Admits .start calls →
      peer.headerReads.Throughout (HeaderReads.InBounds peer.headerType) .start calls := by
  constructor
  · intro always
    have after := (always (samsonHandler none) [⟨.clear, [.fail .ewouldblock]⟩]
      (by decide +kernel)).2
    have nonnegative := after.nonnegative
    revert nonnegative
    decide +kernel
  · intro always
    have after := (always samsonPeer [⟨.clear, [.fail .ewouldblock]⟩] (by decide +kernel)).2
    have nonnegative := after.nonnegative
    revert nonnegative
    decide +kernel

/-! ## The end of the stream -/

/-- A peer that has closed the connection is noticed, whatever the state of the receive path,
exactly if no byte of a header has been counted. -/
theorem end_of_stream_noticed_iff (handler : ReceiveHandler Fields) (peer : PeerHandler Fields) :
    (∀ calls process state rest, handler.headerReads.Admits .start calls →
      ((handler.handleInput process state (handler.headerReads.exec .start calls).fragment
            (.eof :: rest)).returned = -1 ∧
          (handler.handleInput process state (handler.headerReads.exec .start calls).fragment
            (.eof :: rest)).state = .failed ↔
        (handler.headerReads.exec .start calls).fragment.headerRecvd ≤ 0)) ∧
    (∀ calls errno rest, peer.headerReads.Admits .start calls →
      ((peer.awaitEvents (peer.headerReads.exec .start calls).fragment errno
          (.eof :: rest)).returned = -1 ↔
        (peer.headerReads.exec .start calls).fragment.headerRecvd ≤ 0)) := by
  constructor
  · intro calls process state rest admitted
    have settled : (handler.headerReads.exec .start calls).fragment.Settled handler.headerType :=
      headerReads_settled admitted
    generalize (handler.headerReads.exec .start calls).fragment = fragment at settled ⊢
    rw [ReceiveHandler.handleInput, ReceiveHandler.recvHeader]
    by_cases nonpositive : fragment.headerRecvd ≤ 0
    · refine iff_of_true ?_ nonpositive
      rcases recvFrame_eof_of_nonpos settled nonpositive handler.evhGet handler.details .clear rest
        with zero | ⟨-, negative, clear⟩
      · simp [zero]
      · simp [negative, clear]
    · obtain ⟨negative, blocks⟩ := recvFrame_eof_of_pos settled (Int.not_le.mp nonpositive)
        handler.evhGet handler.details .clear rest
      refine iff_of_false ?_ nonpositive
      simp [negative, blocks]
  · intro calls errno rest admitted
    have settled : (peer.headerReads.exec .start calls).fragment.Settled peer.headerType :=
      headerReads_settled admitted
    generalize (peer.headerReads.exec .start calls).fragment = fragment at settled ⊢
    rw [PeerHandler.awaitEvents, PeerHandler.recv]
    by_cases nonpositive : fragment.headerRecvd ≤ 0
    · refine iff_of_true ?_ nonpositive
      rcases recvFrame_eof_of_nonpos settled nonpositive (some peer.blank) none errno rest with
        zero | ⟨absent, -, -⟩
      · simp [zero]
      · cases absent
    · obtain ⟨negative, blocks⟩ := recvFrame_eof_of_pos settled (Int.not_le.mp nonpositive)
        (some peer.blank) none errno rest
      refine iff_of_false ?_ nonpositive
      simp [negative, blocks]

/-- Between frames the end of the stream is noticed. -/
theorem end_of_stream_noticed_idle :
    ((samsonHandler none).handleInput (fun _ _ => 0) .established .none [.eof]).returned = -1 ∧
      (samsonPeer.awaitEvents .none .clear [.eof]).returned = -1 :=
  ⟨(((end_of_stream_noticed_iff (samsonHandler none) samsonPeer).1 [] (fun _ _ => 0) .established []
      trivial).mpr (Int.le_refl 0)).1,
    ((end_of_stream_noticed_iff (samsonHandler none) samsonPeer).2 [] .clear []
      trivial).mpr (Int.le_refl 0)⟩

/-- Behind the first byte of a header it is not. -/
theorem end_of_stream_missed :
    (¬ ∀ (handler : ReceiveHandler SamsonHeader) calls process state rest,
      handler.headerReads.Admits .start calls →
      (handler.handleInput process state (handler.headerReads.exec .start calls).fragment
          (.eof :: rest)).returned = -1 ∧
        (handler.handleInput process state (handler.headerReads.exec .start calls).fragment
          (.eof :: rest)).state = .failed) ∧
    ¬ ∀ (peer : PeerHandler SamsonHeader) calls errno rest,
      peer.headerReads.Admits .start calls →
      (peer.awaitEvents (peer.headerReads.exec .start calls).fragment errno
        (.eof :: rest)).returned = -1 := by
  constructor
  · intro always
    have noticed := (always (samsonHandler none) [⟨.clear, [.bytes [83]]⟩] (fun _ _ => 0)
      .established [] (by decide +kernel)).1
    revert noticed
    decide +kernel
  · intro always
    have noticed := always samsonPeer [⟨.clear, [.bytes [83]]⟩] .clear [] (by decide +kernel)
    revert noticed
    decide +kernel

end Nise.ReceivePaths
