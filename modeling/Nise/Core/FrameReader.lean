import Nise.Core.EventHeader
import Nise.Lib.Frames
import Nise.Lib.Run

/-!
# Reading one frame from a non-blocking socket

`ReceiveHandler::recv_header` and `Peer_Handler::recv` are the same function up
to the header they allocate and the hidden details they fill in.  `recvFrame` is
that function; the fragment of a frame it leaves behind for the next call is a
`Fragment`, and `Holds` says which bytes of the frame a fragment stands for.
-/

namespace Nise.Core

open Nise.Ace

variable {Fields : Type}

/-- `header_frag_`, `header_recvd_` and `data_frag_`. -/
structure Fragment (Fields : Type) where
  headerFrag : Option (EventHeader Fields)
  headerRecvd : Int
  dataFrag : Option MessageBlock
  deriving DecidableEq, Repr

/-- The fragment of a handler that has received nothing of a frame. -/
def Fragment.none : Fragment Fields := ⟨.none, 0, .none⟩

/-- What one call returns: its result, its two out parameters and the calls it made. -/
structure Received (Fields : Type) where
  fragment : Fragment Fields
  errno : Errno
  result : Int
  theEvent : Option MessageBlock
  theHeader : Option (EventHeader Fields)
  calls : List RecvCall
  deriving DecidableEq, Repr

/-- Stages 3 to 5: the header has been decoded, read the data behind it. -/
def recvData (type : HeaderType Fields) (header : EventHeader Fields) (headerRecvd : Int)
    (dataFrag : Option MessageBlock) (errno : Errno) (script : List RecvResult)
    (calls : List RecvCall) : Received Fields :=
  let totalDataBytes := type.dataLength header.fields
  if 0 < totalDataBytes then
    let block := dataFrag.getD ⟨totalDataBytes.toNat, []⟩
    let left := totalDataBytes - block.length
    if left = 0 then
      ⟨⟨some header, headerRecvd, some block⟩, .ewouldblock, -1, none, none, calls⟩
    else
      let result := nextResult script
      let calls := calls ++ [⟨block.length, left, result⟩]
      let errno := result.errno errno
      if result.count = -1 then
        ⟨⟨some header, headerRecvd, some block⟩, errno,
          if errno = .ewouldblock then -1 else 0, none, none, calls⟩
      else if result.count = 0 then
        ⟨⟨some header, headerRecvd, some block⟩, .ewouldblock, -1, none, none, calls⟩
      else
        let block := block.write result.data
        if result.count ≠ left then
          ⟨⟨some header, headerRecvd, some block⟩, .ewouldblock, -1, none, none, calls⟩
        else
          ⟨.none, errno, toInt (headerRecvd + totalDataBytes), some block, some header, calls⟩
  else if totalDataBytes < 0 then
    ⟨⟨none, 0, dataFrag⟩, errno, -2, none, none, calls⟩
  else
    ⟨.none, errno, headerRecvd, none, some header, calls⟩

/-- Stage 2: complete the header, unless that has been done, and go on with the data. -/
def recvCurrent (type : HeaderType Fields) (details : Option (Int × Int))
    (header : EventHeader Fields) (headerRecvd : Int) (dataFrag : Option MessageBlock)
    (errno : Errno) (script : List RecvResult) : Received Fields :=
  if headerRecvd ≠ type.headerLength then
    let result := nextResult script
    let calls : List RecvCall := [⟨headerRecvd, type.headerLength - headerRecvd, result⟩]
    let header := header.write headerRecvd result.data
    let headerRecvd := headerRecvd + result.count
    let errno := result.errno .clear
    if headerRecvd ≠ type.headerLength then
      let fragment : Fragment Fields := ⟨some header, headerRecvd, dataFrag⟩
      if 0 < headerRecvd ∧ errno = .clear then
        ⟨fragment, .ewouldblock, -1, none, none, calls⟩
      else if errno = .ewouldblock then
        ⟨fragment, errno, -1, none, none, calls⟩
      else
        ⟨fragment, errno, 0, none, none, calls⟩
    else
      recvData type ((header.decode type).fill details) headerRecvd dataFrag errno
        script.tail calls
  else
    recvData type header headerRecvd dataFrag errno script []

/--
Receive a frame, or as much of it as the socket has.  `allocated` is the header
that stage 1 allocates, `details` what the caller fills into a decoded header.
-/
def recvFrame (type : HeaderType Fields) (allocated : Option (EventHeader Fields))
    (details : Option (Int × Int)) (fragment : Fragment Fields)
    (errno : Errno) (script : List RecvResult) : Received Fields :=
  match fragment.headerFrag, allocated with
  | some header, _ =>
      recvCurrent type details header fragment.headerRecvd fragment.dataFrag errno script
  | none, some header => recvCurrent type details header 0 fragment.dataFrag errno script
  | none, none => ⟨fragment, errno, -2, none, none, []⟩

/-! ## Frames -/

/-- A header and the data behind it. -/
structure Frame where
  header : List UInt8
  body : List UInt8
  deriving DecidableEq, Repr

namespace Frame

def bytes (frame : Frame) : List UInt8 := frame.header ++ frame.body

/-- The header has its fixed length and announces the length of the data. -/
structure Valid (type : HeaderType Fields) (frame : Frame) : Prop where
  header_length : frame.header.length = type.headerLength
  body_length : (frame.body.length : Int) = type.dataLength (type.decode frame.header)

/-- The number of bytes of the frame is a value of type `int`. -/
def FitsInt (frame : Frame) : Prop := frame.bytes.length < 2 ^ 31

theorem Valid.bytes_ne_nil {type : HeaderType Fields} {frame : Frame}
    (valid : frame.Valid type) : frame.bytes ≠ [] := by
  intro empty
  have header : frame.header = [] := (List.append_eq_nil_iff.mp empty).1
  have positive := type.headerLength_pos
  rw [← valid.header_length, header] at positive
  exact Nat.lt_irrefl 0 positive

/-- The byte count that a call returns for the frame is positive when it is an `int`. -/
theorem Valid.toInt_pos {type : HeaderType Fields} {frame : Frame} (valid : frame.Valid type)
    (fits : frame.FitsInt) : 0 < toInt (type.headerLength + frame.body.length) := by
  have positive := type.headerLength_pos
  rw [Frame.FitsInt, Frame.bytes, List.length_append, valid.header_length] at fits
  rw [← Int.natCast_add, toInt_of_lt fits]
  omega

/-- The header and the data block that a completed frame is handed on as. -/
def delivery (type : HeaderType Fields) (blank : EventHeader Fields)
    (details : Option (Int × Int)) (frame : Frame) : EventHeader Fields × Option MessageBlock :=
  (received type blank details frame.header,
    if frame.body = [] then none else some ⟨frame.body.length, frame.body⟩)

end Frame

/-! ## What a fragment stands for -/

section Holds

variable (type : HeaderType Fields) (blank : EventHeader Fields) (details : Option (Int × Int))

/-- The fragment left by a frame of which exactly the bytes `held` have been received. -/
inductive Holds : Fragment Fields → List UInt8 → Prop where
  | idle : Holds .none []
  | header (buffer held : List UInt8) (capacity : buffer.length = type.headerLength)
      (nonempty : held ≠ []) (short : held.length < type.headerLength)
      (stored : buffer.take held.length = held) :
      Holds ⟨some { blank with addr := buffer }, held.length, none⟩ held
  | data (header body : List UInt8) (total : Nat) (whole : header.length = type.headerLength)
      (announced : type.dataLength (type.decode header) = total) (short : body.length < total) :
      Holds ⟨some (received type blank details header), type.headerLength, some ⟨total, body⟩⟩
        (header ++ body)

end Holds

/-- How a call may end that was made with `held` received of `frame`. -/
inductive Ends (type : HeaderType Fields) (blank : EventHeader Fields)
    (details : Option (Int × Int)) (frame : Frame) (held : List UInt8) (out : Received Fields) :
    Prop where
  | finished (whole : held ++ taken out.calls = frame.bytes) (idle : out.fragment = .none)
      (positive : 0 < out.result)
      (header : out.theHeader = some (frame.delivery type blank details).1)
      (event : out.theEvent = (frame.delivery type blank details).2)
  | unfinished (part : held ++ taken out.calls <+: frame.bytes)
      (short : (held ++ taken out.calls).length < frame.bytes.length)
      (holds : Holds type blank details out.fragment (held ++ taken out.calls))
      (negative : out.result = -1) (blocks : out.errno = .ewouldblock)
      (header : out.theHeader = none) (event : out.theEvent = none)

section Spec

variable {type : HeaderType Fields} {blank : EventHeader Fields} {details : Option (Int × Int)}
  {frame : Frame} {held rest : List UInt8} {errno : Errno} {script : List RecvResult}

/-- A data block that `body` has been received into, or none when nothing has. -/
def Block (total : Nat) (body : List UInt8) (dataFrag : Option MessageBlock) : Prop :=
  dataFrag = some ⟨total, body⟩ ∨ dataFrag = none ∧ body = []

theorem Block.getD {total : Nat} {body : List UInt8} {dataFrag : Option MessageBlock}
    (block : Block total body dataFrag) : dataFrag.getD ⟨total, []⟩ = ⟨total, body⟩ := by
  rcases block with same | ⟨fresh, empty⟩
  · rw [same, Option.getD_some]
  · rw [fresh, empty, Option.getD_none]

/-- A call that ends within the data of a frame. -/
theorem Ends.unfinished_data {out : Received Fields} {body : List UInt8}
    (valid : frame.Valid type) (after : held ++ taken out.calls = frame.header ++ body)
    (part : body <+: frame.body) (short : body.length < frame.body.length)
    (fragment : out.fragment = ⟨some (received type blank details frame.header),
      type.headerLength, some ⟨frame.body.length, body⟩⟩)
    (negative : out.result = -1) (blocks : out.errno = .ewouldblock)
    (header : out.theHeader = none) (event : out.theEvent = none) :
    Ends type blank details frame held out := by
  refine .unfinished ?_ ?_ ?_ negative blocks header event
  · rw [after]
    exact (List.prefix_append_right_inj _).mpr part
  · rw [after, Frame.bytes, List.length_append, List.length_append]
    omega
  · rw [after, fragment]
    exact .data frame.header body frame.body.length valid.header_length
      valid.body_length.symm short

/-- The data stage of a frame that announces data. -/
theorem recvData_pos {dataFrag : Option MessageBlock} {calls : List RecvCall}
    (body rest : List UInt8) (valid : frame.Valid type) (fits : frame.FitsInt)
    (block : Block frame.body.length body dataFrag) (short : body.length < frame.body.length)
    (before : held ++ taken calls = frame.header ++ body)
    (result : (nextResult script).Counted (frame.body.length - body.length) ∨
      nextResult script = .fail .ewouldblock)
    (arrived : body ++ (nextResult script).data <+: frame.body ++ rest) :
    Ends type blank details frame held
      (recvData type (received type blank details frame.header) type.headerLength dataFrag errno
        script calls) := by
  have total : type.dataLength (received type blank details frame.header).fields =
      (frame.body.length : Int) := by
    rw [received_fields, valid.body_length]
  have positive : 0 < (frame.body.length : Int) := by omega
  have left : (frame.body.length : Int) - (body.length : Int) ≠ 0 := by omega
  have counted := valid.toInt_pos fits
  unfold recvData
  simp only [total, if_pos positive, Int.toNat_natCast, block.getD, MessageBlock.length,
    if_neg left]
  rcases result with some | blocks
  · obtain ⟨data, same, nonempty, atMost⟩ := RecvResult.exists_bytes_of_counted some
    rw [same] at arrived ⊢
    have received : 0 < data.length := List.length_pos_of_ne_nil nonempty
    have count : (RecvResult.bytes data).count = data.length := rfl
    have notFailed : ¬ ((RecvResult.bytes data).count = -1) := by omega
    have notEof : ¬ ((RecvResult.bytes data).count = 0) := by omega
    have inBody : body ++ data <+: frame.body :=
      List.prefix_of_prefix_length_le arrived (List.prefix_append _ _) (by
        rw [List.length_append]
        omega)
    rw [if_neg notFailed, if_neg notEof]
    simp only [RecvResult.data, RecvResult.errno, MessageBlock.write]
    by_cases last : (RecvResult.bytes data).count = frame.body.length - body.length
    · have complete : body ++ data = frame.body :=
        inBody.eq_of_length (by
          rw [List.length_append]
          omega)
      have notEmpty : frame.body ≠ [] := List.ne_nil_of_length_pos (by omega)
      rw [if_neg (not_not_intro last), complete]
      refine .finished ?_ rfl ?_ rfl ?_
      · simp only [taken_append, taken_cons, RecvResult.data, taken_nil, List.append_nil]
        rw [← List.append_assoc, before, List.append_assoc, complete, Frame.bytes]
      · dsimp only
        exact counted
      · simp only [Frame.delivery, if_neg notEmpty]
    · rw [if_pos last]
      have less : (body ++ data).length < frame.body.length := by
        have atMost := inBody.length_le
        rw [List.length_append] at atMost ⊢
        omega
      have after : held ++ taken (calls ++ [⟨body.length, frame.body.length - body.length,
          .bytes data⟩]) = frame.header ++ (body ++ data) := by
        simp only [taken_append, taken_cons, RecvResult.data, taken_nil, List.append_nil]
        rw [← List.append_assoc, before, List.append_assoc]
      exact .unfinished_data valid after inBody less rfl rfl rfl rfl rfl
  · rw [blocks]
    have failed : (RecvResult.fail .ewouldblock).count = -1 := rfl
    rw [if_pos failed]
    simp only [RecvResult.errno, if_true]
    have after : held ++ taken (calls ++ [⟨body.length, frame.body.length - body.length,
        .fail .ewouldblock⟩]) = frame.header ++ body := by
      simp only [taken_append, taken_cons, RecvResult.data, taken_nil, List.append_nil]
      rw [before]
    have inBody : body <+: frame.body := by
      rw [blocks, RecvResult.data, List.append_nil] at arrived
      exact List.prefix_of_prefix_length_le arrived (List.prefix_append _ _) (Nat.le_of_lt short)
    exact .unfinished_data valid after inBody short rfl rfl rfl rfl rfl

/-- The data stage adds its own call, if any, to those already made. -/
theorem recvData_calls (header : EventHeader Fields) (headerRecvd : Int)
    (dataFrag : Option MessageBlock) (calls : List RecvCall) :
    ∃ more, (recvData type header headerRecvd dataFrag errno script calls).calls =
      calls ++ more := by
  unfold recvData
  dsimp only
  split
  · split
    · exact ⟨[], (List.append_nil _).symm⟩
    · split
      · exact ⟨_, rfl⟩
      · split
        · exact ⟨_, rfl⟩
        · split <;> exact ⟨_, rfl⟩
  · split <;> exact ⟨[], (List.append_nil _).symm⟩

/-- The data stage of a frame with data left to read asks for the rest of it. -/
theorem recvData_calls_pos {body : List UInt8} {dataFrag : Option MessageBlock}
    (calls : List RecvCall) (valid : frame.Valid type)
    (block : Block frame.body.length body dataFrag) (short : body.length < frame.body.length) :
    (recvData type (received type blank details frame.header) type.headerLength dataFrag errno
        script calls).calls =
      calls ++ [⟨body.length, frame.body.length - body.length, nextResult script⟩] := by
  have total : type.dataLength (received type blank details frame.header).fields =
      (frame.body.length : Int) := by
    rw [received_fields, valid.body_length]
  have positive : 0 < (frame.body.length : Int) := by omega
  have left : (frame.body.length : Int) - (body.length : Int) ≠ 0 := by omega
  unfold recvData
  simp only [total, if_pos positive, Int.toNat_natCast, block.getD, MessageBlock.length,
    if_neg left]
  split
  · rfl
  · split
    · rfl
    · split <;> rfl

/-- The first call of an unfinished header asks for the rest of it. -/
theorem recvCurrent_calls (details : Option (Int × Int)) (header : EventHeader Fields)
    (dataFrag : Option MessageBlock) (errno : Errno) (script : List RecvResult)
    (short : held.length < type.headerLength) :
    ∃ more, (recvCurrent type details header held.length dataFrag errno script).calls =
      [⟨held.length, type.headerLength - held.length, nextResult script⟩] ++ more := by
  have incomplete : (held.length : Int) ≠ type.headerLength := by omega
  unfold recvCurrent
  rw [if_pos incomplete]
  dsimp only
  split
  · split
    · exact ⟨[], rfl⟩
    · split <;> exact ⟨[], rfl⟩
  · exact recvData_calls ..

/-- The data stage of a frame that is only a header. -/
theorem recvData_empty {calls : List RecvCall} (valid : frame.Valid type)
    (empty : frame.body = []) (before : held ++ taken calls = frame.header) :
    Ends type blank details frame held
      (recvData type (received type blank details frame.header) type.headerLength none errno
        script calls) := by
  have total : type.dataLength (received type blank details frame.header).fields = 0 := by
    rw [received_fields, ← valid.body_length, empty]
    rfl
  unfold recvData
  simp only [total, if_neg (Int.lt_irrefl 0)]
  refine .finished ?_ rfl ?_ rfl ?_
  · rw [before, Frame.bytes, empty, List.append_nil]
  · have positive := type.headerLength_pos
    dsimp only
    omega
  · simp only [Frame.delivery, if_pos empty]

/-- The header stage of a call that gets less than the rest of the header. -/
theorem recvCurrent_short {buffer data : List UInt8} (nonempty : data ≠ [])
    (same : nextResult script = .bytes data)
    (short : held.length + data.length < type.headerLength) :
    recvCurrent type details { blank with addr := buffer } held.length none errno script =
      ⟨⟨some { blank with addr := overwrite buffer held.length data },
          (held.length + data.length : Nat), none⟩, .ewouldblock, -1, none, none,
        [⟨held.length, type.headerLength - held.length, .bytes data⟩]⟩ := by
  have incomplete : (held.length : Int) ≠ type.headerLength := by omega
  have count : (RecvResult.bytes data).count = data.length := rfl
  have still : (held.length : Int) + (RecvResult.bytes data).count ≠ type.headerLength := by omega
  have positive : 0 < (held.length : Int) + (RecvResult.bytes data).count := by
    have received := List.length_pos_of_ne_nil nonempty
    omega
  have plain : RecvResult.errno .clear (RecvResult.bytes data) = .clear := rfl
  unfold recvCurrent
  rw [if_pos incomplete, same]
  dsimp only
  rw [if_pos still, if_pos ⟨positive, plain⟩]
  simp only [count, EventHeader.write, RecvResult.data, Int.natCast_add]

/-- The header stage of a call that gets all the rest of the header. -/
theorem recvCurrent_whole (blank : EventHeader Fields) (details : Option (Int × Int))
    (errno : Errno) (script : List RecvResult) {buffer held data : List UInt8}
    (nonempty : data ≠ []) (capacity : buffer.length = type.headerLength)
    (stored : buffer.take held.length = held)
    (same : nextResult script = .bytes data)
    (whole : held.length + data.length = type.headerLength) :
    recvCurrent type details { blank with addr := buffer } held.length none errno script =
      recvData type (received type blank details (held ++ data)) type.headerLength none .clear
        script.tail [⟨held.length, type.headerLength - held.length, .bytes data⟩] := by
  have received := List.length_pos_of_ne_nil nonempty
  have incomplete : (held.length : Int) ≠ type.headerLength := by omega
  have count : (RecvResult.bytes data).count = data.length := rfl
  have complete : (held.length : Int) + (RecvResult.bytes data).count = type.headerLength := by
    omega
  have stored' : overwrite buffer held.length data = held ++ data := by
    have prefixed := take_overwrite buffer data held.length (by omega)
    have full : (overwrite buffer held.length data).length = type.headerLength := by
      rw [length_overwrite (by omega), capacity]
    rwa [stored, whole, ← full, List.take_length] at prefixed
  unfold recvCurrent
  rw [if_pos incomplete, same]
  dsimp only
  rw [complete, if_neg (not_not_intro rfl)]
  simp only [EventHeader.write, EventHeader.decode, RecvResult.data, stored']
  rfl

/-- A call made after the header has been completed goes straight to the data stage. -/
theorem recvCurrent_data (header : EventHeader Fields) (dataFrag : Option MessageBlock) :
    recvCurrent type details header type.headerLength dataFrag errno script =
      recvData type header type.headerLength dataFrag errno script [] := by
  unfold recvCurrent
  rw [if_neg (not_not_intro rfl)]

/-- A call that goes on with a header of which `held` is in the buffer. -/
theorem recvCurrent_header (buffer held : List UInt8) (valid : frame.Valid type)
    (fits : frame.FitsInt) (capacity : buffer.length = type.headerLength)
    (short : held.length < type.headerLength) (stored : buffer.take held.length = held)
    (readable : Readable (recvCurrent type details { blank with addr := buffer } held.length none
      errno script).calls)
    (arrived : held ++ taken (recvCurrent type details { blank with addr := buffer } held.length
      none errno script).calls <+: frame.bytes ++ rest) :
    Ends type blank details frame held
      (recvCurrent type details { blank with addr := buffer } held.length none errno script) := by
  have first : (nextResult script).Counted (type.headerLength - held.length) :=
    readable_first (recvCurrent_calls _ _ _ _ _ short) readable
  obtain ⟨data, same, nonempty, atMost⟩ := RecvResult.exists_bytes_of_counted first
  have headerLength := valid.header_length
  -- The bytes of the first call stay inside the header of the frame.
  have inHeader : held ++ data <+: frame.header := by
    obtain ⟨more, calls⟩ :=
      recvCurrent_calls details { blank with addr := buffer } none errno script short
    rw [calls, same, Frame.bytes, taken_append, taken_cons, taken_nil, List.append_nil,
      ← List.append_assoc, List.append_assoc frame.header] at arrived
    exact List.prefix_of_prefix_length_le ((List.prefix_append _ _).trans arrived)
      (List.prefix_append _ _) (by
        rw [List.length_append]
        omega)
  by_cases whole : held.length + data.length = type.headerLength
  · have all : held ++ data = frame.header :=
      inHeader.eq_of_length (by rw [List.length_append, whole, headerLength])
    rw [recvCurrent_whole _ _ _ _ nonempty capacity stored same whole, all] at readable arrived ⊢
    by_cases empty : frame.body = []
    · exact recvData_empty valid empty (by simpa [RecvResult.data] using all)
    · have short : ([] : List UInt8).length < frame.body.length := List.length_pos_of_ne_nil empty
      have fresh : Block frame.body.length [] none := .inr ⟨rfl, rfl⟩
      rw [recvData_calls_pos _ valid fresh short] at readable arrived
      refine recvData_pos [] rest valid fits fresh short ?_
        (readable.2 _ (List.mem_singleton.mpr rfl)) ?_
      · simpa [RecvResult.data] using all
      · simp only [List.singleton_append, taken_cons, RecvResult.data, taken_nil, List.append_nil,
          Frame.bytes, ← List.append_assoc, all] at arrived
        rw [List.append_assoc] at arrived
        exact (List.prefix_append_right_inj _).mp arrived
  · have less : held.length + data.length < type.headerLength := by omega
    have room : held.length + data.length ≤ buffer.length := by omega
    have after : held ++ taken [⟨held.length, type.headerLength - held.length, .bytes data⟩] =
        held ++ data := by
      simp [RecvResult.data]
    rw [recvCurrent_short nonempty same less]
    refine .unfinished ?_ ?_ ?_ rfl rfl rfl rfl
    · rw [after, Frame.bytes]
      exact inHeader.trans (List.prefix_append _ _)
    · rw [after, Frame.bytes, List.length_append, List.length_append]
      omega
    · rw [after, ← List.length_append]
      refine .header _ _ ?_ ?_ ?_ ?_
      · rw [length_overwrite room, capacity]
      · intro empty
        exact nonempty (List.append_eq_nil_iff.mp empty).2
      · rwa [List.length_append]
      · rw [List.length_append, take_overwrite _ _ _ (by omega), stored]

/--
One call of the receive function.  Made with `held` received of `frame` on a
readable socket that delivers nothing but the stream, it either completes the
frame and hands it on or keeps what it got and reports a short read.
-/
theorem recvFrame_ends {fragment : Fragment Fields}
    (capacity : blank.addr.length = type.headerLength) (valid : frame.Valid type)
    (fits : frame.FitsInt) (holds : Holds type blank details fragment held)
    (readable : Readable (recvFrame type (some blank) details fragment errno script).calls)
    (arrived : held ++ taken (recvFrame type (some blank) details fragment errno script).calls <+:
      frame.bytes ++ rest) :
    Ends type blank details frame held
      (recvFrame type (some blank) details fragment errno script) := by
  cases holds with
  | idle =>
      exact recvCurrent_header blank.addr [] valid fits capacity
        type.headerLength_pos rfl readable arrived
  | header buffer held capacity nonempty unfinished stored =>
      exact recvCurrent_header buffer held valid fits capacity unfinished stored readable arrived
  | data header body total whole announced unfinished =>
      have sameHeader : header = frame.header := by
        rw [Frame.bytes, List.append_assoc, List.append_assoc] at arrived
        have first : header <+: frame.header :=
          List.prefix_of_prefix_length_le ((List.prefix_append _ _).trans arrived)
            (List.prefix_append _ _) (Nat.le_of_eq (whole.trans valid.header_length.symm))
        exact first.eq_of_length (by rw [whole, valid.header_length])
      subst sameHeader
      have sameTotal : total = frame.body.length := by
        have body := valid.body_length
        rw [announced] at body
        omega
      subst sameTotal
      have block : Block frame.body.length body (some ⟨frame.body.length, body⟩) := .inl rfl
      simp only [recvFrame, recvCurrent_data] at readable arrived ⊢
      rw [recvData_calls_pos _ valid block unfinished] at readable arrived
      refine recvData_pos body rest valid fits block unfinished (List.append_nil _)
        (.inl readable.1) ?_
      simp only [List.nil_append, taken_cons, taken_nil, List.append_nil, Frame.bytes,
        List.append_assoc] at arrived
      exact (List.prefix_append_right_inj _).mp arrived

/-- A call that gets a whole frame at once, whatever its length. -/
theorem recvFrame_at_once (details : Option (Int × Int)) (errno : Errno)
    (capacity : blank.addr.length = type.headerLength)
    (valid : frame.Valid type) (nonempty : frame.body ≠ []) :
    recvFrame type (some blank) details .none errno [.bytes frame.header, .bytes frame.body] =
      ⟨.none, .clear, toInt (type.headerLength + frame.body.length),
        (frame.delivery type blank details).2, some (frame.delivery type blank details).1,
        [⟨0, type.headerLength, .bytes frame.header⟩,
          ⟨0, frame.body.length, .bytes frame.body⟩]⟩ := by
  have headerNonempty : frame.header ≠ [] := by
    apply List.ne_nil_of_length_pos
    rw [valid.header_length]
    exact type.headerLength_pos
  have stored : blank.addr.take ([] : List UInt8).length = [] := rfl
  have whole := recvCurrent_whole blank details errno [.bytes frame.header, .bytes frame.body]
    headerNonempty capacity stored rfl (by rw [List.length_nil, Nat.zero_add, valid.header_length])
  have total : type.dataLength (received type blank details frame.header).fields =
      (frame.body.length : Int) := by
    rw [received_fields, valid.body_length]
  have length := List.length_pos_of_ne_nil nonempty
  have positive : 0 < (frame.body.length : Int) := by omega
  have count : (RecvResult.bytes frame.body).count = frame.body.length := rfl
  have notFailed : ¬ ((RecvResult.bytes frame.body).count = -1) := by omega
  have notEof : ¬ ((RecvResult.bytes frame.body).count = 0) := by omega
  have left : ¬ ((frame.body.length : Int) = 0) := by omega
  refine Eq.trans whole ?_
  unfold recvData
  simp only [List.nil_append, total, if_pos positive, Int.toNat_natCast, Option.getD_none,
    MessageBlock.length, List.length_nil, Int.natCast_zero, Int.sub_zero, if_neg left,
    List.tail_cons, nextResult, List.headD_cons]
  rw [if_neg notFailed, if_neg notEof, if_neg (not_not_intro count)]
  simp only [MessageBlock.write, RecvResult.data, RecvResult.errno, List.nil_append,
    Frame.delivery, if_neg nonempty, List.singleton_append]

end Spec

/-! ## Runs of a handler on a stream -/

/-- What the handler's owner sees of one invocation. -/
structure Invocation (Fields : Type) where
  fragment : Fragment Fields
  errno : Errno
  handed : Option (EventHeader Fields × Option MessageBlock)
  returned : Int
  calls : List RecvCall

/-- A handler on its connection, with the bytes taken off the socket so far and, for
each invocation, the pair it handed on and the value it returned. -/
structure Intake (Fields : Type) where
  fragment : Fragment Fields
  errno : Errno
  received : List UInt8
  log : List (Option (EventHeader Fields × Option MessageBlock) × Int)

namespace Intake

def start : Intake Fields := ⟨.none, .clear, [], []⟩

/-- The pairs handed on, in order. -/
def handed (intake : Intake Fields) : List (EventHeader Fields × Option MessageBlock) :=
  intake.log.filterMap Prod.fst

end Intake

/-- The reactor invokes a handler whose peer sends the bytes of `stream`. -/
def intake (invoke : Fragment Fields → Errno → List RecvResult → Invocation Fields)
    (stream : List UInt8) : Lib.System (Intake Fields) (List RecvResult) where
  step state script :=
    let out := invoke state.fragment state.errno script
    ⟨out.fragment, out.errno, state.received ++ taken out.calls,
      state.log ++ [(out.handed, out.returned)]⟩
  guard state script :=
    let out := invoke state.fragment state.errno script
    Readable out.calls ∧ state.received ++ taken out.calls <+: stream

instance (invoke : Fragment Fields → Errno → List RecvResult → Invocation Fields)
    (stream : List UInt8) (state : Intake Fields) (script : List RecvResult) :
    Decidable ((intake invoke stream).guard state script) :=
  inferInstanceAs (Decidable (Readable (invoke state.fragment state.errno script).calls ∧
    state.received ++ taken (invoke state.fragment state.errno script).calls <+: stream))

/--
The handler has handed on exactly the frames contained in the bytes it has
received, each as `deliver` says, holds the rest of these bytes, and every
invocation that handed nothing on has returned 0.
-/
structure Reassembles (type : HeaderType Fields) (blank : EventHeader Fields)
    (details : Option (Int × Int))
    (deliver : Frame → EventHeader Fields × Option MessageBlock) (frames : List Frame)
    (state : Intake Fields) : Prop where
  handed : state.handed =
    (Lib.Frames.within Frame.bytes frames state.received.length).map deliver
  holds : Holds type blank details state.fragment
    (state.received.drop (Lib.Frames.stream Frame.bytes
      (Lib.Frames.within Frame.bytes frames state.received.length)).length)
  returned : ∀ entry ∈ state.log, entry.1 = none → entry.2 = 0

/-- An invocation makes one call of the receive function and reacts to its result. -/
structure Wraps (type : HeaderType Fields) (blank : EventHeader Fields)
    (details : Option (Int × Int))
    (react : EventHeader Fields × Option MessageBlock → EventHeader Fields × Option MessageBlock)
    (out : Invocation Fields) (call : Received Fields) : Prop where
  calls : out.calls = call.calls
  fragment : out.fragment = call.fragment
  hands : ∀ header, 0 < call.result → call.theHeader = some header →
    out.handed = some (react (header, call.theEvent))
  waits : call.result = -1 → call.errno = .ewouldblock → out.handed = none ∧ out.returned = 0

section Runs

open Lib.Frames

variable {type : HeaderType Fields} {blank : EventHeader Fields} {details : Option (Int × Int)}
  {react : EventHeader Fields × Option MessageBlock → EventHeader Fields × Option MessageBlock}
  {invoke : Fragment Fields → Errno → List RecvResult → Invocation Fields} {frames : List Frame}

/-- Where a handler stands in the stream: the invariant of its runs. -/
def Standing (type : HeaderType Fields) (blank : EventHeader Fields)
    (details : Option (Int × Int))
    (deliver : Frame → EventHeader Fields × Option MessageBlock) (frames : List Frame)
    (state : Intake Fields) : Prop :=
  ∃ finished pending held, Progress Frame.bytes frames finished pending state.received held ∧
    Holds type blank details state.fragment held ∧ state.handed = finished.map deliver ∧
    ∀ entry ∈ state.log, entry.1 = none → entry.2 = 0

theorem Standing.reassembles {deliver : Frame → EventHeader Fields × Option MessageBlock}
    {state : Intake Fields} (standing : Standing type blank details deliver frames state) :
    Reassembles type blank details deliver frames state := by
  obtain ⟨finished, pending, held, progress, holds, handed, returned⟩ := standing
  refine ⟨?_, ?_, returned⟩
  · rw [progress.within_received, handed]
  · rw [progress.within_received, progress.received_eq, List.drop_left]
    exact holds

/-- One invocation on a readable socket keeps the handler's standing. -/
theorem Standing.step (capacity : blank.addr.length = type.headerLength)
    (valid : ∀ frame ∈ frames, frame.Valid type) (fits : ∀ frame ∈ frames, frame.FitsInt)
    (wraps : ∀ fragment errno script, ∃ before, Wraps type blank details react
      (invoke fragment errno script) (recvFrame type (some blank) details fragment before script))
    (state : Intake Fields) (script : List RecvResult)
    (standing : Standing type blank details
      (fun frame => react (frame.delivery type blank details)) frames state)
    (guarded : (intake invoke (stream Frame.bytes frames)).guard state script) :
    Standing type blank details (fun frame => react (frame.delivery type blank details)) frames
      ((intake invoke (stream Frame.bytes frames)).step state script) := by
  obtain ⟨finished, pending, held, progress, holds, handed, returned⟩ := standing
  obtain ⟨readable, arrived⟩ := guarded
  obtain ⟨before, wraps⟩ := wraps state.fragment state.errno script
  rw [wraps.calls] at readable arrived
  obtain ⟨frame, rest, pendingEq⟩ :=
    progress.exists_pending arrived (taken_ne_nil_of_readable readable)
  subst pendingEq
  have frameMem : frame ∈ frames := by
    rw [progress.frames_eq]
    exact List.mem_append_right _ (List.mem_cons_self ..)
  have nonempty : ∀ next ∈ rest, next.bytes ≠ [] := by
    intro next member
    refine (valid next ?_).bytes_ne_nil
    rw [progress.frames_eq]
    exact List.mem_append_right _ (List.mem_cons_of_mem _ member)
  have ends := recvFrame_ends capacity (valid frame frameMem) (fits frame frameMem) holds readable
    (progress.chunk_prefix arrived)
  cases ends with
  | finished whole idle positive header event =>
      have hands := wraps.hands _ positive header
      rw [event] at hands
      refine ⟨finished ++ [frame], rest, [], ?_, ?_, ?_, ?_⟩
      · simpa only [intake, wraps.calls] using progress.finish whole nonempty
      · simpa only [intake, wraps.fragment, idle] using Holds.idle
      · simp only [intake, Intake.handed, List.filterMap_append, hands, List.map_append]
        exact congrArg (· ++ _) handed
      · intro entry member nothing
        rcases List.mem_append.mp member with old | new
        · exact returned entry old nothing
        · rw [List.mem_singleton.mp new, hands] at nothing
          cases nothing
  | unfinished part short holds negative blocks header event =>
      obtain ⟨nothing, zero⟩ := wraps.waits negative blocks
      refine ⟨finished, frame :: rest, held ++ taken (recvFrame type (some blank) details
        state.fragment before script).calls, ?_, ?_, ?_, ?_⟩
      · simpa only [intake, wraps.calls] using progress.extend part short
      · simpa only [intake, wraps.fragment] using holds
      · simp only [intake, Intake.handed, List.filterMap_append, nothing]
        simpa [Intake.handed] using handed
      · intro entry member unhanded
        rcases List.mem_append.mp member with old | new
        · exact returned entry old unhanded
        · rw [List.mem_singleton.mp new]
          exact zero

/-- Every run of such a handler reassembles the stream, however the stream is cut. -/
theorem intake_reassembles
    (react : EventHeader Fields × Option MessageBlock → EventHeader Fields × Option MessageBlock)
    (capacity : blank.addr.length = type.headerLength)
    (valid : ∀ frame ∈ frames, frame.Valid type) (fits : ∀ frame ∈ frames, frame.FitsInt)
    (wraps : ∀ fragment errno script, ∃ before, Wraps type blank details react
      (invoke fragment errno script) (recvFrame type (some blank) details fragment before script))
    {scripts : List (List RecvResult)}
    (admitted : (intake invoke (stream Frame.bytes frames)).Admits .start scripts) :
    Reassembles type blank details (fun frame => react (frame.delivery type blank details)) frames
      ((intake invoke (stream Frame.bytes frames)).exec .start scripts) := by
  have initially : Standing type blank details
      (fun frame => react (frame.delivery type blank details)) frames Intake.start := by
    refine ⟨[], frames, [], .start frames ?_, .idle, rfl, ?_⟩
    · intro frame member
      exact (valid frame member).bytes_ne_nil
    · intro entry member
      cases member
  exact ((intake invoke (stream Frame.bytes frames)).invariant
    (Standing.step capacity valid fits wraps) initially admitted).reassembles

end Runs

end Nise.Core
