import Nise.Lib.Frames
import Nise.RubyModels.SamsonHeader

/-!
# The dispatcher protocol of a Ruby peer

`receive_data` is called with whatever has arrived.  It cuts the bytes, behind those left over
from the call before, into messages and queues them; then it takes the queued messages one
after another, reads the header again and calls what is subscribed for it.
-/

namespace Nise.RubyPeer

open Nise.Lib Nise.RubyModels

/-- What becomes of a message: the members of its header when it is dispatched and, if there
is a subscription, the callback with the raw data of the message it gets, if any. -/
structure Handling (Callback : Type) where
  header : HeaderMember → Value
  call : Option (Callback × Option (List UInt8))

/-- A blanked place of the queue has nothing in it. -/
structure IseProtocol (Callback : Type) where
  msgQueue : List (Option (List UInt8))
  leftOvers : List UInt8
  handled : List (Handling Callback)
  msgRcvdCnt : Nat

/-- The two characters SN. -/
def magic : List UInt8 := [0x53, 0x4e]

/-- `message_length_` of the header at the start of the data. -/
def messageLength (data : List UInt8) : Option Nat := do
  let header ← SamsonHeader.new (data.take SamsonHeader.samsonHeaderLength)
  match header.members .messageLength with
  | .integer number => some number.toNat
  | _ => none

/-- Queue the messages that are whole; what remains is left over.  Data that does not start
with a header ends the process. -/
def queueMessages (data : List UInt8) (msgQueue : List (Option (List UInt8))) :
    Option (List UInt8 × List (Option (List UInt8))) :=
  if data.length = 0 then some ([], msgQueue)
  else if data.length < SamsonHeader.samsonHeaderLength then some (data, msgQueue)
  else if data.take 2 = magic then
    match messageLength data with
    | none => none
    | some length =>
        if data.length < SamsonHeader.samsonHeaderLength + length then some (data, msgQueue)
        else
          queueMessages (data.drop (SamsonHeader.samsonHeaderLength + length))
            (msgQueue ++ [some (data.take (SamsonHeader.samsonHeaderLength + length))])
  else none
  termination_by data.length
  decreasing_by
    have positive : 0 < SamsonHeader.samsonHeaderLength := by decide
    rw [List.length_drop]
    omega

/-- The types of control messages that are converted: none, START_FRAME and
ADVANCE_TIME_REQUEST. -/
def convertedTypes : List Value := [.integer 0, .integer 8, .integer 30]

/-- A control message of these types becomes a DATA message. -/
def convertType (header : HeaderMember → Value) : HeaderMember → Value :=
  if header .type ∈ convertedTypes then instanceVariableSet header .type (.integer 2) else header

def interpolate : Value → String
  | .nil => ""
  | .integer number => toString number
  | .string text => String.ofList (text.map fun byte => Char.ofNat byte.toNat)

/-- The key of a subscription: type and id for messages without data, else the id. -/
def cmKey (header : HeaderMember → Value) : String :=
  if header .appMsgId = .integer 0 then
    interpolate (header .type) ++ "-" ++ interpolate (header .appMsgId)
  else interpolate (header .appMsgId)

section Receive

variable {Callback : Type} (subscribed : String → Option Callback)

def handling (header : HeaderMember → Value) (data : List UInt8) : Handling Callback :=
  let header := convertType header
  let aMessage : Option (List UInt8) :=
    if header .appMsgId = .integer 0 then none
    else
      match header .messageLength with
      | .integer number => slice data SamsonHeader.samsonHeaderLength number.toNat
      | _ => none
  ⟨header, (subscribed (cmKey header)).map fun callbackMethod => (callbackMethod, aMessage)⟩

/-- Handle one of the queued messages and blank its place. -/
def handleMessage (firstMessage : Nat) (protocol : IseProtocol Callback) (msgInx : Nat) :
    Option (IseProtocol Callback) :=
  match protocol.msgQueue[firstMessage + msgInx]? with
  | some (some data) => do
      let header ← SamsonHeader.new data
      return { protocol with
        msgQueue := protocol.msgQueue.set (firstMessage + msgInx) none
        handled := protocol.handled ++ [handling subscribed header.members data]
        msgRcvdCnt := protocol.msgRcvdCnt + 1 }
  | _ => none

/-- The callbacks return, and so do the classes of the messages. -/
def receiveData (protocol : IseProtocol Callback) (data : List UInt8) :
    Option (IseProtocol Callback) := do
  let data := if 0 < protocol.leftOvers.length then protocol.leftOvers ++ data else data
  let firstMessage := protocol.msgQueue.length
  let queued ← queueMessages data protocol.msgQueue
  let protocol := { protocol with leftOvers := queued.1, msgQueue := queued.2 }
  let lastMessage : Int := protocol.msgQueue.length - 1
  if lastMessage < firstMessage then return protocol
  else
    let messageCount := (lastMessage - firstMessage + 1).toNat
    let protocol ← (List.range messageCount).foldlM (handleMessage subscribed firstMessage) protocol
    return { protocol with msgQueue := protocol.msgQueue.filter Option.isSome }

end Receive

def IseProtocol.start {Callback : Type} : IseProtocol Callback := ⟨[], [], [], 0⟩

/-! ## Frames -/

/-- A header that starts with SN, and as many bytes behind it as it says. -/
structure Frame where
  header : List UInt8
  body : List UInt8
  length_header : header.length = SamsonHeader.samsonHeaderLength
  starts : header.take 2 = magic
  counted : SamsonHeader.dataLength header = body.length

namespace Frame

variable {Callback : Type} (subscribed : String → Option Callback) (frame : Frame)

def bytes : List UInt8 := frame.header ++ frame.body

/-- The members of the header. -/
def fields : HeaderMember → Value :=
  ((SamsonHeader.new frame.header).getD (SamsonHeader.blank [])).members

/-- What is to become of a frame: the subscription for its header gets the header, and the body
unless the frame has no message of its own. -/
def dispatched : Handling Callback :=
  let header := convertType frame.fields
  ⟨header, (subscribed (cmKey header)).map fun callback =>
    (callback, if header .appMsgId = .integer 0 then none else some frame.body)⟩

theorem new_header : ∃ header, SamsonHeader.new frame.header = some header ∧
    header.members = frame.fields ∧
      header.members .messageLength = .integer frame.body.length := by
  obtain ⟨header, parsed, length⟩ := SamsonHeader.exists_new (Nat.le_of_eq frame.length_header.symm)
  refine ⟨header, parsed, ?_, ?_⟩
  · unfold fields
    rw [parsed]
    rfl
  · rw [length, frame.counted]

theorem length_bytes :
    frame.bytes.length = SamsonHeader.samsonHeaderLength + frame.body.length := by
  rw [bytes, List.length_append, frame.length_header]

/-- The length is read from any bytes that hold the whole header. -/
theorem messageLength_of_prefix {data : List UInt8} (starts : frame.header <+: data) :
    messageLength data = some frame.body.length := by
  obtain ⟨header, parsed, -, length⟩ := frame.new_header
  have first : data.take SamsonHeader.samsonHeaderLength = frame.header := by
    rw [← frame.length_header]
    exact List.prefix_iff_eq_take.mp starts |>.symm
  unfold messageLength
  rw [first, parsed]
  simp only [Option.bind_eq_bind, Option.bind_some, length, Int.toNat_natCast]

theorem take_two_of_prefix {data : List UInt8} (starts : frame.header <+: data) :
    data.take 2 = magic := by
  obtain ⟨more, rfl⟩ := starts
  rw [List.take_append_of_le_length, frame.starts]
  rw [frame.length_header]
  decide

/-! ### Cutting the stream -/

theorem queueMessages_frame (rest : List UInt8) (msgQueue : List (Option (List UInt8))) :
    queueMessages (frame.bytes ++ rest) msgQueue =
      queueMessages rest (msgQueue ++ [some frame.bytes]) := by
  have starts : frame.header <+: frame.bytes ++ rest := by
    rw [bytes, List.append_assoc]
    exact List.prefix_append _ _
  have long : ¬ (frame.bytes ++ rest).length < SamsonHeader.samsonHeaderLength := by
    rw [List.length_append, length_bytes]
    omega
  have some : ¬ (frame.bytes ++ rest).length = 0 := by
    have : 0 < SamsonHeader.samsonHeaderLength := by decide
    omega
  have whole : ¬ (frame.bytes ++ rest).length < frame.bytes.length := by
    rw [List.length_append]
    omega
  rw [queueMessages, if_neg some, if_neg long, if_pos (frame.take_two_of_prefix starts),
    frame.messageLength_of_prefix starts]
  dsimp only
  rw [← frame.length_bytes, if_neg whole, List.take_left, List.drop_left]

theorem queueMessages_part {data : List UInt8} (part : data <+: frame.bytes)
    (short : data.length < frame.bytes.length) (msgQueue : List (Option (List UInt8))) :
    queueMessages data msgQueue = some (data, msgQueue) := by
  rw [queueMessages]
  by_cases empty : data.length = 0
  · rw [if_pos empty, List.eq_nil_of_length_eq_zero empty]
  · rw [if_neg empty]
    by_cases few : data.length < SamsonHeader.samsonHeaderLength
    · rw [if_pos few]
    · have starts : frame.header <+: data :=
        List.prefix_of_prefix_length_le (List.prefix_append _ _) part
          (frame.length_header ▸ Nat.le_of_not_lt few)
      rw [if_neg few, if_pos (frame.take_two_of_prefix starts),
        frame.messageLength_of_prefix starts]
      dsimp only
      rw [← frame.length_bytes, if_pos short]

end Frame

/-- The whole frames are queued, and a part of the next one is left over. -/
theorem queueMessages_stream (whole later : List Frame) {held : List UInt8}
    (short : ∀ frame rest, later = frame :: rest → held.length < frame.bytes.length)
    (part : held <+: Frames.stream Frame.bytes later) (msgQueue : List (Option (List UInt8))) :
    queueMessages (Frames.stream Frame.bytes whole ++ held) msgQueue =
      some (held, msgQueue ++ whole.map fun frame => some frame.bytes) := by
  induction whole generalizing msgQueue with
  | cons frame rest ih =>
      rw [Frames.stream_cons, List.append_assoc, frame.queueMessages_frame, ih]
      simp
  | nil =>
      rw [Frames.stream_nil, List.nil_append, List.map_nil, List.append_nil]
      cases later with
      | nil =>
          rw [List.prefix_nil.mp part, queueMessages]
          rfl
      | cons frame rest =>
          have less := short frame rest rfl
          refine frame.queueMessages_part ?_ less msgQueue
          exact List.prefix_of_prefix_length_le part (List.prefix_append _ _) (Nat.le_of_lt less)

/-! ## Handling the queue -/

section Handle

variable {Callback : Type} (subscribed : String → Option Callback)

theorem handling_bytes (frame : Frame) :
    handling subscribed frame.fields frame.bytes = frame.dispatched subscribed := by
  obtain ⟨header, -, fields, length⟩ := frame.new_header
  rw [fields] at length
  have kept : convertType frame.fields .messageLength = .integer frame.body.length := by
    unfold convertType instanceVariableSet
    split
    · exact length
    · exact length
  have body : slice frame.bytes SamsonHeader.samsonHeaderLength frame.body.length =
      some frame.body := by
    have cut := slice_append frame.header frame.body []
    rw [List.append_nil, frame.length_header] at cut
    exact cut
  unfold handling Frame.dispatched
  simp only [kept, Int.toNat_natCast, body]

theorem handleMessage_frame (frame : Frame) {protocol : IseProtocol Callback} {done : Nat}
    {rest : List (Option (List UInt8))}
    (queued : protocol.msgQueue = List.replicate done none ++ some frame.bytes :: rest) :
    handleMessage subscribed 0 protocol done = some { protocol with
      msgQueue := List.replicate (done + 1) none ++ rest
      handled := protocol.handled ++ [frame.dispatched subscribed]
      msgRcvdCnt := protocol.msgRcvdCnt + 1 } := by
  obtain ⟨header, parsed, fields, -⟩ := frame.new_header
  have again : SamsonHeader.new frame.bytes = some header := by
    rw [Frame.bytes, SamsonHeader.new_append (Nat.le_of_eq frame.length_header.symm), parsed]
  have next : protocol.msgQueue[0 + done]? = some (some frame.bytes) := by
    rw [queued, Nat.zero_add]
    simp
  have blanked : protocol.msgQueue.set (0 + done) none =
      List.replicate (done + 1) none ++ rest := by
    rw [queued, Nat.zero_add, List.set_append_right _ _ (by simp)]
    simp [List.replicate_succ']
  unfold handleMessage
  rw [next, blanked]
  simp only [again, Option.bind_eq_bind, Option.bind_some, fields, handling_bytes]
  rfl

theorem foldlM_handleMessage (whole : List Frame) (protocol : IseProtocol Callback) (done : Nat)
    (queued : protocol.msgQueue =
      List.replicate done none ++ whole.map fun frame => some frame.bytes) :
    (List.range' done whole.length).foldlM (handleMessage subscribed 0) protocol =
      some { protocol with
        msgQueue := List.replicate (done + whole.length) none
        handled := protocol.handled ++ whole.map (Frame.dispatched subscribed)
        msgRcvdCnt := protocol.msgRcvdCnt + whole.length } := by
  induction whole generalizing protocol done with
  | nil =>
      rw [List.map_nil, List.append_nil] at queued
      simp [← queued]
  | cons frame rest ih =>
      rw [List.map_cons] at queued
      rw [List.length_cons, List.range'_succ, List.foldlM_cons,
        handleMessage_frame subscribed frame queued]
      refine (ih _ (done + 1) rfl).trans ?_
      simp [Nat.add_comm, Nat.add_left_comm]

/-- One call, when nothing is queued. -/
theorem receiveData_stream {protocol : IseProtocol Callback} {data held : List UInt8}
    {whole later : List Frame} (idle : protocol.msgQueue = [])
    (arrived : protocol.leftOvers ++ data = Frames.stream Frame.bytes whole ++ held)
    (short : ∀ frame rest, later = frame :: rest → held.length < frame.bytes.length)
    (part : held <+: Frames.stream Frame.bytes later) :
    receiveData subscribed protocol data = some
      { msgQueue := []
        leftOvers := held
        handled := protocol.handled ++ whole.map (Frame.dispatched subscribed)
        msgRcvdCnt := protocol.msgRcvdCnt + whole.length } := by
  have joined : (if 0 < protocol.leftOvers.length then protocol.leftOvers ++ data else data) =
      Frames.stream Frame.bytes whole ++ held := by
    rw [← arrived]
    split
    · rfl
    · next none =>
        have empty : protocol.leftOvers = [] := List.eq_nil_of_length_eq_zero (by omega)
        rw [empty, List.nil_append]
  have queued := queueMessages_stream whole later short part []
  unfold receiveData
  simp only [joined, idle, queued, Option.bind_eq_bind, Option.bind_some, List.nil_append,
    List.length_nil, List.length_map]
  have count : ((whole.length : Int) - 1 - ((0 : Nat) : Int) + 1).toNat = whole.length := by omega
  have handled := foldlM_handleMessage subscribed whole
    ⟨whole.map fun frame => some frame.bytes, held, protocol.handled, protocol.msgRcvdCnt⟩ 0 rfl
  rw [count, List.range_eq_range', handled]
  split
  · next none =>
      have empty : whole = [] := List.eq_nil_of_length_eq_zero (by omega)
      rw [empty]
      simp
  · simp

/-! ## The whole stream -/

/-- What holds between two calls: the whole frames have been handled, and the rest is left
over. -/
structure Standing (frames finished pending : List Frame) (received : List UInt8)
    (protocol : IseProtocol Callback) : Prop where
  progress : Frames.Progress Frame.bytes frames finished pending received protocol.leftOvers
  idle : protocol.msgQueue = []
  handled : protocol.handled = finished.map (Frame.dispatched subscribed)

theorem Frame.bytes_ne_nil (frame : Frame) : frame.bytes ≠ [] := by
  apply List.ne_nil_of_length_pos
  have : 0 < SamsonHeader.samsonHeaderLength := by decide
  rw [frame.length_bytes]
  omega

theorem Standing.start (frames : List Frame) :
    Standing subscribed frames [] frames [] .start :=
  ⟨.start frames fun frame _ => frame.bytes_ne_nil, rfl, rfl⟩

theorem Standing.receiveData {frames finished pending : List Frame} {received data : List UInt8}
    {protocol : IseProtocol Callback}
    (standing : Standing subscribed frames finished pending received protocol)
    (arrived : received ++ data <+: Frames.stream Frame.bytes frames) :
    ∃ next finished pending, RubyPeer.receiveData subscribed protocol data = some next ∧
      Standing subscribed frames finished pending (received ++ data) next := by
  obtain ⟨whole, later, held, rfl, split, short, part⟩ :=
    Frames.exists_split Frame.bytes (standing.progress.chunk_prefix arrived)
  refine ⟨_, finished ++ whole, later,
    receiveData_stream subscribed standing.idle split short part, ?_, rfl, ?_⟩
  · exact standing.progress.advance split short part
  · rw [standing.handled, List.map_append]

theorem Standing.foldlM_receiveData {frames finished pending : List Frame}
    {received : List UInt8} {protocol : IseProtocol Callback} (chunks : List (List UInt8))
    (standing : Standing subscribed frames finished pending received protocol)
    (arrived : received ++ chunks.flatten <+: Frames.stream Frame.bytes frames) :
    ∃ last finished pending,
      chunks.foldlM (RubyPeer.receiveData subscribed) protocol = some last ∧
      Standing subscribed frames finished pending (received ++ chunks.flatten) last := by
  induction chunks generalizing finished pending received protocol with
  | nil =>
      refine ⟨protocol, finished, pending, rfl, ?_⟩
      rw [List.flatten_nil, List.append_nil]
      exact standing
  | cons chunk rest ih =>
      rw [List.flatten_cons, ← List.append_assoc] at arrived ⊢
      obtain ⟨next, finished, pending, received, still⟩ :=
        standing.receiveData subscribed ((List.prefix_append _ _).trans arrived)
      rw [List.foldlM_cons, received]
      exact ih still arrived

end Handle

/-- Whatever the chunks, the frames that lie whole in the bytes received are handled in their
order, each once, and the bytes behind them are left over. -/
theorem receiveData_chunks {Callback : Type} (subscribed : String → Option Callback)
    (frames : List Frame) (chunks : List (List UInt8))
    (arrived : chunks.flatten <+: Frames.stream Frame.bytes frames) :
    ∃ protocol, chunks.foldlM (receiveData subscribed) .start = some protocol ∧
      protocol.handled = (Frames.within Frame.bytes frames chunks.flatten.length).map
        (Frame.dispatched subscribed) ∧
      Frames.stream Frame.bytes (Frames.within Frame.bytes frames chunks.flatten.length) ++
        protocol.leftOvers = chunks.flatten ∧
      protocol.msgQueue = [] := by
  obtain ⟨protocol, finished, pending, done, standing⟩ :=
    (Standing.start subscribed frames).foldlM_receiveData subscribed chunks arrived
  rw [List.nil_append] at standing
  refine ⟨protocol, done, ?_, ?_, standing.idle⟩
  · rw [standing.handled, standing.progress.within_received]
  · rw [standing.progress.within_received]
    exact standing.progress.received_eq.symm

/-- A message of type START_FRAME, without data. -/
def startFrame : Frame where
  header := [0x53, 0x4e, 1, 0, 0, 0, 0, 0, 0, 0, 0, 0, 0, 0, 0, 0, 0, 0, 0, 0, 0, 0, 0, 0,
    0, 0, 0, 8, 0, 0, 0, 0, 0, 0, 0, 0, 0, 0, 0, 0, 0, 0, 0, 0, 0, 0, 0, 0]
  body := []
  length_header := rfl
  starts := rfl
  counted := rfl

/-- A DATA message with the application id 5 and three bytes of data. -/
def dataFrame : Frame where
  header := [0x53, 0x4e, 1, 0, 0, 0, 0, 0, 0, 0, 0, 0, 0, 0, 0, 0, 0, 5, 0, 0, 0, 0, 0, 0,
    0, 0, 0, 2, 0, 0, 0, 0, 0, 0, 0, 0, 0, 0, 0, 0, 0, 0, 0, 0, 0, 0, 0, 3]
  body := [1, 2, 3]
  length_header := rfl
  starts := rfl
  counted := rfl

/-- The first header comes in two parts, and the data is incomplete. -/
def splitChunks : List (List UInt8) :=
  [startFrame.bytes.take 10, [], startFrame.bytes.drop 10 ++ dataFrame.bytes.take 49]

theorem receiveData_chunks_split :
    splitChunks.flatten <+: Frames.stream Frame.bytes [startFrame, dataFrame] ∧
      ∃ protocol, splitChunks.foldlM (receiveData fun _ => some ()) .start = some protocol ∧
        protocol.handled = (Frames.within Frame.bytes [startFrame, dataFrame]
          splitChunks.flatten.length).map (Frame.dispatched fun _ => some ()) ∧
        Frames.stream Frame.bytes (Frames.within Frame.bytes [startFrame, dataFrame]
          splitChunks.flatten.length) ++ protocol.leftOvers = splitChunks.flatten ∧
        protocol.msgQueue = [] := by
  have arrived : splitChunks.flatten <+: Frames.stream Frame.bytes [startFrame, dataFrame] := by
    decide
  exact ⟨arrived, receiveData_chunks _ _ _ arrived⟩

/-- The header of a START_FRAME message is not dispatched with the type it was sent with. -/
theorem dispatched_header_differs :
    ¬ ∀ (subscribed : String → Option Unit) (frames : List Frame) (chunks : List (List UInt8)),
      chunks.flatten <+: Frames.stream Frame.bytes frames →
        ∃ protocol, chunks.foldlM (receiveData subscribed) .start = some protocol ∧
          protocol.handled.map Handling.header =
            (Frames.within Frame.bytes frames chunks.flatten.length).map Frame.fields := by
  intro always
  have arrived : [startFrame.bytes].flatten <+: Frames.stream Frame.bytes [startFrame] := by
    decide
  obtain ⟨protocol, run, same⟩ := always (fun _ => some ()) [startFrame] [startFrame.bytes] arrived
  obtain ⟨last, finished, pending, done, standing⟩ :=
    (Standing.start (fun _ => some ()) [startFrame]).foldlM_receiveData _ [startFrame.bytes] arrived
  cases run.symm.trans done
  rw [List.nil_append] at standing
  have whole : finished = [startFrame] := standing.progress.within_received.symm
  rw [standing.handled, standing.progress.within_received, whole] at same
  have type := congrFun (List.cons.inj same).1 .type
  revert type
  decide

end Nise.RubyPeer
