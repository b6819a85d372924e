import Nise.Dispatcherd.ReceiveHandler
import Nise.Peer.PeerReceive

/-!
# Both receive paths reassemble their stream

However the network cuts a stream of frames, the dispatcher and the peer hand on
exactly the frames contained in the bytes received so far.  The dispatcher hands
them on as its input filter leaves them, and the count a call returns is an
`int`, so a frame has to be shorter than `2 ^ 31` bytes.
-/

namespace Nise.ReceivePaths

open Nise.Ace Nise.Core Nise.Dispatcherd Nise.Peer Nise.Lib.Frames

variable {Fields : Type}

theorem receive_paths_reassemble :
    (∀ (handler : ReceiveHandler Fields) (blank : EventHeader Fields)
        (process : EventHeader Fields → Option MessageBlock → Int) (frames : List Frame)
        (scripts : List (List RecvResult)),
      handler.evhGet = some blank → blank.addr.length = handler.headerType.headerLength →
      (∀ frame ∈ frames, frame.Valid handler.headerType ∧ frame.FitsInt) →
      (intake (handler.invocation process) (stream Frame.bytes frames)).Admits .start scripts →
      Reassembles handler.headerType blank handler.details
        (fun frame => handler.filtered (frame.delivery handler.headerType blank handler.details))
        frames
        ((intake (handler.invocation process) (stream Frame.bytes frames)).exec .start scripts)) ∧
    (∀ (peer : PeerHandler Fields)
        (app : Option (EventHeader Fields) → Option MessageBlock → Int) (frames : List Frame)
        (scripts : List (List RecvResult)),
      peer.samsonApp = some app → peer.blank.addr.length = peer.headerType.headerLength →
      (∀ frame ∈ frames, frame.Valid peer.headerType ∧ frame.FitsInt) →
      (intake peer.invocation (stream Frame.bytes frames)).Admits .start scripts →
      Reassembles peer.headerType peer.blank none
        (fun frame => frame.delivery peer.headerType peer.blank none) frames
        ((intake peer.invocation (stream Frame.bytes frames)).exec .start scripts)) := by
  constructor
  · intro handler blank process frames scripts allocates capacity valid admitted
    exact intake_reassembles handler.filtered capacity
      (fun frame member => (valid frame member).1) (fun frame member => (valid frame member).2)
      (fun fragment errno script => ⟨.clear, ReceiveHandler.invocation_wraps allocates process
        fragment errno script⟩) admitted
  · intro peer app frames scripts registered capacity valid admitted
    exact intake_reassembles id capacity
      (fun frame member => (valid frame member).1) (fun frame member => (valid frame member).2)
      (fun fragment errno script => ⟨errno, PeerHandler.invocation_wraps registered fragment
        errno script⟩) admitted

/-! ## A stream on a Samson connection -/

/-- A Samson connection of the dispatcher. -/
def samsonHandler (inputFilter : Option (Dispatcherd.Filter SamsonHeader)) :
    ReceiveHandler SamsonHeader where
  headerType := SamsonHeader.headerType
  evhGet := some SamsonHeader.blank
  connectionId := 7
  handle := 12
  inputFilter := inputFilter

/-- A Samson header that announces data of the length in its last four bytes. -/
def samsonBytes (length : List UInt8) : List UInt8 :=
  [83, 78, 1, 0] ++ List.replicate 40 0 ++ length

theorem samsonFrame_valid {length body : List UInt8}
    (four : length.length = 4)
    (announced : (body.length : Int) =
      (SamsonHeader.decode (samsonBytes length)).dataLength.toNat) :
    Frame.Valid SamsonHeader.headerType ⟨samsonBytes length, body⟩ where
  header_length := by
    simp only [samsonBytes, List.length_append, List.length_replicate, four]
    rfl
  body_length := announced

/-- A frame of two bytes of data and a frame without data. -/
def twoFrames : List Frame :=
  [⟨samsonBytes [0, 0, 0, 2], [1, 2]⟩, ⟨samsonBytes [0, 0, 0, 0], []⟩]

/-- The first header comes in two pieces, its data byte by byte, the second at once. -/
def fiveReads : List (List RecvResult) :=
  [[.bytes ((samsonBytes [0, 0, 0, 2]).take 10)],
    [.bytes ((samsonBytes [0, 0, 0, 2]).drop 10), .fail .ewouldblock],
    [.bytes [1]], [.bytes [2]], [.bytes (samsonBytes [0, 0, 0, 0])]]

/-- A peer with an application that takes every event. -/
def samsonPeer : PeerHandler SamsonHeader where
  headerType := SamsonHeader.headerType
  blank := SamsonHeader.blank
  crc32 := SamsonHeader.crc32
  checksum := fun _ => 0
  samsonApp := some fun _ _ => 0

theorem twoFrames_valid :
    ∀ frame ∈ twoFrames, frame.Valid SamsonHeader.headerType ∧ frame.FitsInt := by
  intro frame member
  rcases List.mem_cons.mp member with first | second
  · subst first
    exact ⟨samsonFrame_valid rfl (by decide +kernel), by unfold Frame.FitsInt; decide +kernel⟩
  · rw [List.mem_singleton.mp second]
    exact ⟨samsonFrame_valid rfl (by decide +kernel), by unfold Frame.FitsInt; decide +kernel⟩

theorem receive_paths_reassemble_fiveReads :
    Reassembles SamsonHeader.headerType SamsonHeader.blank (samsonHandler none).details
      (fun frame => (samsonHandler none).filtered (frame.delivery SamsonHeader.headerType
        SamsonHeader.blank (samsonHandler none).details)) twoFrames
      ((intake ((samsonHandler none).invocation fun _ _ => 0)
        (stream Frame.bytes twoFrames)).exec .start fiveReads) ∧
    Reassembles SamsonHeader.headerType SamsonHeader.blank none
      (fun frame => frame.delivery SamsonHeader.headerType SamsonHeader.blank none) twoFrames
      ((intake samsonPeer.invocation (stream Frame.bytes twoFrames)).exec .start fiveReads) :=
  ⟨receive_paths_reassemble.1 (samsonHandler none) SamsonHeader.blank (fun _ _ => 0) twoFrames
      fiveReads rfl rfl twoFrames_valid (by decide +kernel),
    receive_paths_reassemble.2 samsonPeer (fun _ _ => 0) twoFrames fiveReads rfl rfl
      twoFrames_valid (by decide +kernel)⟩

/-! ## Filters and counts -/

/-- What would hold if the event channel saw every frame as it was sent. -/
def FragmentationIndependent (handler : ReceiveHandler Fields) (blank : EventHeader Fields)
    (process : EventHeader Fields → Option MessageBlock → Int) : Prop :=
  ∀ (frames : List Frame) (scripts : List (List RecvResult)),
    (∀ frame ∈ frames, frame.Valid handler.headerType) →
    (intake (handler.invocation process) (stream Frame.bytes frames)).Admits .start scripts →
    Reassembles handler.headerType blank handler.details
      (fun frame => frame.delivery handler.headerType blank handler.details) frames
      ((intake (handler.invocation process) (stream Frame.bytes frames)).exec .start scripts)

/-- A frame that arrives all at once is admitted, and `recv_header` gets it whole. -/
theorem admits_at_once (handler : ReceiveHandler Fields) {blank : EventHeader Fields}
    (process : EventHeader Fields → Option MessageBlock → Int) {frame : Frame}
    (allocates : handler.evhGet = some blank)
    (capacity : blank.addr.length = handler.headerType.headerLength)
    (valid : frame.Valid handler.headerType) (nonempty : frame.body ≠ []) :
    (intake (handler.invocation process) (stream Frame.bytes [frame])).Admits .start
      [[.bytes frame.header, .bytes frame.body]] := by
  have call := recvFrame_at_once handler.details .clear capacity valid nonempty
  rw [← allocates] at call
  have calls : (handler.invocation process .none .clear
      [.bytes frame.header, .bytes frame.body]).calls =
      [⟨0, handler.headerType.headerLength, .bytes frame.header⟩,
        ⟨0, frame.body.length, .bytes frame.body⟩] := by
    rw [(ReceiveHandler.invocation_wraps allocates process _ _ _).calls, ← allocates, call]
  have headerNonempty : frame.header ≠ [] := by
    apply List.ne_nil_of_length_pos
    rw [valid.header_length]
    exact handler.headerType.headerLength_pos
  simp only [Lib.System.admits_cons, Lib.System.admits_nil, and_true]
  refine ⟨?_, ?_⟩
  · simp only [Intake.start, calls, Readable, RecvResult.Counted]
    refine ⟨⟨headerNonempty, ?_⟩, ?_⟩
    · exact Int.le_of_eq (congrArg Nat.cast valid.header_length)
    · intro second member
      rw [List.mem_singleton.mp member]
      exact .inl ⟨nonempty, Int.le_refl _⟩
  · simp [Intake.start, calls, RecvResult.data, Frame.bytes]

/-- A frame that arrives all at once is lost when its byte count is negative as an `int`. -/
theorem exec_at_once_lost (handler : ReceiveHandler Fields) {blank : EventHeader Fields}
    (process : EventHeader Fields → Option MessageBlock → Int) {frame : Frame}
    (allocates : handler.evhGet = some blank)
    (capacity : blank.addr.length = handler.headerType.headerLength)
    (valid : frame.Valid handler.headerType) (nonempty : frame.body ≠ [])
    (negative : toInt (handler.headerType.headerLength + frame.body.length) < 0) :
    (intake (handler.invocation process) (stream Frame.bytes [frame])).exec .start
        [[.bytes frame.header, .bytes frame.body]] =
      ⟨.none, .clear, frame.bytes, [(none, -1)]⟩ := by
  have call := recvFrame_at_once handler.details .clear capacity valid nonempty
  rw [← allocates] at call
  have notPositive : ¬ 0 < toInt (handler.headerType.headerLength + frame.body.length) := by omega
  have notZero : ¬ toInt (handler.headerType.headerLength + frame.body.length) = 0 := by omega
  simp only [Lib.System.exec_cons, Lib.System.exec_nil, intake, Intake.start,
    ReceiveHandler.invocation, ReceiveHandler.handleInput, ReceiveHandler.recvHeader, call,
    if_neg notPositive, if_neg notZero]
  simp [RecvResult.data, Frame.bytes]

/-- 48 bytes of header and `2 ^ 31 - 48` of data, a count of `2 ^ 31`. -/
def longFrame : Frame := ⟨samsonBytes [127, 255, 255, 208], List.replicate (2 ^ 31 - 48) 0⟩

theorem longFrame_body_length : longFrame.body.length = 2 ^ 31 - 48 := List.length_replicate

theorem longFrame_valid : longFrame.Valid SamsonHeader.headerType :=
  samsonFrame_valid rfl (by
    rw [List.length_replicate]
    decide +kernel)

theorem longFrame_body_ne_nil : longFrame.body ≠ [] := by
  apply List.ne_nil_of_length_pos
  rw [longFrame_body_length]
  decide

theorem longFrame_count :
    toInt (SamsonHeader.headerType.headerLength + longFrame.body.length) < 0 := by
  rw [longFrame_body_length]
  decide +kernel

/-- A filter changes the data; a count that is no `int` makes a call look like a failure. -/
theorem fragmentation_independent_fails :
    ¬ FragmentationIndependent (samsonHandler (some reverseFilter)) SamsonHeader.blank
        (fun _ _ => 0) ∧
    ¬ FragmentationIndependent (samsonHandler none) SamsonHeader.blank (fun _ _ => 0) := by
  constructor
  · intro independent
    have valid : Frame.Valid SamsonHeader.headerType ⟨samsonBytes [0, 0, 0, 1], [97]⟩ :=
      samsonFrame_valid rfl (by decide +kernel)
    have run := independent [⟨samsonBytes [0, 0, 0, 1], [97]⟩]
      [[.bytes (samsonBytes [0, 0, 0, 1]), .bytes [97]]]
      (by
        intro frame member
        rw [List.mem_singleton.mp member]
        exact valid)
      (admits_at_once _ _ rfl rfl valid (by decide))
    exact absurd run.handed (by decide +kernel)
  · intro independent
    have run := independent [longFrame] [[.bytes longFrame.header, .bytes longFrame.body]]
      (by
        intro frame member
        rw [List.mem_singleton.mp member]
        exact longFrame_valid)
      (admits_at_once _ _ rfl rfl longFrame_valid longFrame_body_ne_nil)
    have handed := run.handed
    rw [exec_at_once_lost (samsonHandler none) (fun _ _ => 0) rfl rfl longFrame_valid
      longFrame_body_ne_nil longFrame_count] at handed
    simp [Intake.handed, within] at handed

end Nise.ReceivePaths
