import Nise.Core.FrameReader

/-!
# The header stage over whole runs

The receive function keeps in `header_recvd_` how much of a header it has got, and
adds to it whatever `recv` returns.  Here the function is called again and again on a
socket that may do anything its documentation allows, and next to the fragment we count
the header bytes of the current frame that have really arrived.
-/

namespace Nise.Core

open Nise.Ace

variable {Fields : Type}

/-- A result that the documentation of `recv` allows for the request: a count between 1 and the
bytes requested, 0 at the end of the stream, or -1 with errno set. -/
def Documented (call : RecvCall) : Prop :=
  match call.result with
  | .bytes data => data ≠ [] ∧ (data.length : Int) ≤ call.requested
  | .eof => True
  | .fail errno => errno ≠ .clear

instance : DecidablePred Documented
  | ⟨_, requested, .bytes data⟩ =>
      inferInstanceAs (Decidable (data ≠ [] ∧ (data.length : Int) ≤ requested))
  | ⟨_, _, .eof⟩ => inferInstanceAs (Decidable True)
  | ⟨_, _, .fail errno⟩ => inferInstanceAs (Decidable (errno ≠ .clear))

/-- A failure brings no data. -/
theorem data_eq_nil_of_failed {result : RecvResult} (failed : result.count = -1) :
    result.data = [] := by
  cases result with
  | bytes data =>
      simp only [RecvResult.count] at failed
      omega
  | eof => rfl
  | fail errno => rfl

/-- A call that does not fail returns the number of bytes that it brings. -/
theorem Documented.counts {call : RecvCall} (documented : Documented call)
    (room : 0 ≤ call.requested) (succeeds : call.result.count ≠ -1) :
    call.result.count = call.result.data.length ∧ call.result.count ≤ call.requested := by
  obtain ⟨offset, requested, result⟩ := call
  cases result with
  | bytes data => exact ⟨rfl, documented.2⟩
  | eof => exact ⟨rfl, room⟩
  | fail errno => exact absurd rfl succeeds

/-- A call made on this fragment begins with a `recv` for the header. -/
def ReadsHeader (type : HeaderType Fields) (allocated : Option (EventHeader Fields))
    (fragment : Fragment Fields) : Prop :=
  match fragment.headerFrag with
  | some _ => fragment.headerRecvd ≠ type.headerLength
  | none => allocated.isSome

instance (type : HeaderType Fields) (allocated : Option (EventHeader Fields)) :
    DecidablePred (ReadsHeader type allocated)
  | ⟨some _, headerRecvd, _⟩ => inferInstanceAs (Decidable (headerRecvd ≠ type.headerLength))
  | ⟨none, _, _⟩ => inferInstanceAs (Decidable (allocated.isSome = true))

/-- Between frames nothing is counted, and a complete header that is kept announces data. -/
structure Fragment.Settled (type : HeaderType Fields) (fragment : Fragment Fields) : Prop where
  idle : fragment.headerFrag = .none → fragment.headerRecvd = 0
  announced : ∀ header, fragment.headerFrag = some header →
    fragment.headerRecvd = type.headerLength → 0 < type.dataLength header.fields

namespace Fragment.Settled

variable {type : HeaderType Fields}

theorem none (type : HeaderType Fields) : Fragment.none.Settled type where
  idle _ := rfl
  announced _ kept := nomatch kept

theorem of_idle (dataFrag : Option MessageBlock) :
    Settled type (⟨.none, 0, dataFrag⟩ : Fragment Fields) where
  idle _ := rfl
  announced _ kept := nomatch kept

theorem of_announced {header : EventHeader Fields} (headerRecvd : Int)
    (dataFrag : Option MessageBlock) (positive : 0 < type.dataLength header.fields) :
    Settled type (⟨some header, headerRecvd, dataFrag⟩ : Fragment Fields) where
  idle absent := nomatch absent
  announced other same _ := by
    cases same
    exact positive

theorem of_incomplete {header : EventHeader Fields} {headerRecvd : Int}
    (dataFrag : Option MessageBlock) (incomplete : headerRecvd ≠ type.headerLength) :
    Settled type (⟨some header, headerRecvd, dataFrag⟩ : Fragment Fields) where
  idle absent := nomatch absent
  announced _ _ complete := absurd complete incomplete

end Fragment.Settled

section Stages

variable {type : HeaderType Fields} {allocated : Option (EventHeader Fields)}

/-! ## What a call leaves of the header -/

/-- The data stage keeps the header and its count while there is data to come, and drops both
when the frame is finished or its length is negative. -/
theorem recvData_fragment (type : HeaderType Fields) (header : EventHeader Fields)
    (headerRecvd : Int) (dataFrag : Option MessageBlock) (errno : Errno)
    (script : List RecvResult) (calls : List RecvCall) :
    (∃ left, (recvData type header headerRecvd dataFrag errno script calls).fragment =
        ⟨none, 0, left⟩) ∨
      0 < type.dataLength header.fields ∧
        ∃ left, (recvData type header headerRecvd dataFrag errno script calls).fragment =
          ⟨some header, headerRecvd, left⟩ := by
  unfold recvData
  dsimp only
  split
  · next positive =>
      split
      · exact .inr ⟨positive, _, rfl⟩
      · split
        · exact .inr ⟨positive, _, rfl⟩
        · split
          · exact .inr ⟨positive, _, rfl⟩
          · split
            · exact .inr ⟨positive, _, rfl⟩
            · exact .inl ⟨_, rfl⟩
  · split <;> exact .inl ⟨_, rfl⟩

/-- The header stage adds the result of its call to the count. -/
theorem recvCurrent_fragment {headerRecvd : Int} (incomplete : headerRecvd ≠ type.headerLength)
    (details : Option (Int × Int)) (header : EventHeader Fields) (dataFrag : Option MessageBlock)
    (errno : Errno) (script : List RecvResult) :
    (∃ left, headerRecvd + (nextResult script).count = type.headerLength ∧
      (recvCurrent type details header headerRecvd dataFrag errno script).fragment =
        ⟨none, 0, left⟩) ∨
      ∃ kept left, (recvCurrent type details header headerRecvd dataFrag errno script).fragment =
          ⟨some kept, headerRecvd + (nextResult script).count, left⟩ ∧
        (headerRecvd + (nextResult script).count = type.headerLength →
          0 < type.dataLength kept.fields) := by
  unfold recvCurrent
  rw [if_pos incomplete]
  dsimp only
  split
  · next short =>
      refine .inr ⟨header.write headerRecvd (nextResult script).data, dataFrag, ?_,
        fun whole => absurd whole short⟩
      split
      · rfl
      · split <;> rfl
  · next whole =>
      rw [not_not] at whole
      rcases recvData_fragment type _ (headerRecvd + (nextResult script).count) dataFrag _
        script.tail _ with ⟨left, dropped⟩ | ⟨positive, left, kept⟩
      · exact .inl ⟨left, whole, dropped⟩
      · exact .inr ⟨_, left, kept, fun _ => positive⟩

theorem recvCurrent_first {headerRecvd : Int} (incomplete : headerRecvd ≠ type.headerLength)
    (details : Option (Int × Int)) (header : EventHeader Fields) (dataFrag : Option MessageBlock)
    (errno : Errno) (script : List RecvResult) :
    ∃ more, (recvCurrent type details header headerRecvd dataFrag errno script).calls =
      ⟨headerRecvd, type.headerLength - headerRecvd, nextResult script⟩ :: more := by
  unfold recvCurrent
  rw [if_pos incomplete]
  dsimp only
  split
  · split
    · exact ⟨[], rfl⟩
    · split <;> exact ⟨[], rfl⟩
  · exact recvData_calls ..

/-! ## One call, seen from the header -/

/-- A call that reads the header is the header stage at the count kept in the fragment. -/
theorem recvFrame_of_readsHeader {fragment : Fragment Fields} (settled : fragment.Settled type)
    (reads : ReadsHeader type allocated fragment) (details : Option (Int × Int)) (errno : Errno)
    (script : List RecvResult) :
    fragment.headerRecvd ≠ type.headerLength ∧
      ∃ header, recvFrame type allocated details fragment errno script =
        recvCurrent type details header fragment.headerRecvd fragment.dataFrag errno script := by
  unfold ReadsHeader at reads
  cases kept : fragment.headerFrag with
  | some header =>
      simp only [kept] at reads
      refine ⟨reads, header, ?_⟩
      simp only [recvFrame, kept]
  | none =>
      simp only [kept] at reads
      obtain ⟨header, found⟩ := Option.isSome_iff_exists.mp reads
      have positive := type.headerLength_pos
      have nothing := settled.idle kept
      refine ⟨by omega, header, ?_⟩
      simp only [recvFrame, kept, found, nothing]

/-- A call that does not read the header makes no call at all, or goes on with the data. -/
theorem recvFrame_of_not_readsHeader {fragment : Fragment Fields}
    (reads : ¬ ReadsHeader type allocated fragment) (details : Option (Int × Int)) (errno : Errno)
    (script : List RecvResult) :
    (fragment.headerFrag = none ∧ allocated = none ∧
      recvFrame type allocated details fragment errno script =
        ⟨fragment, errno, -2, none, none, []⟩) ∨
    ∃ header, fragment.headerFrag = some header ∧ fragment.headerRecvd = type.headerLength ∧
      recvFrame type allocated details fragment errno script =
        recvData type header type.headerLength fragment.dataFrag errno script [] := by
  unfold ReadsHeader at reads
  cases kept : fragment.headerFrag with
  | some header =>
      simp only [kept, ne_eq, not_not] at reads
      refine .inr ⟨header, rfl, reads, ?_⟩
      simp only [recvFrame, kept, reads, recvCurrent_data]
  | none =>
      simp only [kept, Option.not_isSome_iff_eq_none] at reads
      refine .inl ⟨rfl, reads, ?_⟩
      simp only [recvFrame, kept, reads]

/-- What every call leaves for the next one is settled. -/
theorem recvFrame_settled {fragment : Fragment Fields} (settled : fragment.Settled type)
    (allocated : Option (EventHeader Fields)) (details : Option (Int × Int)) (errno : Errno)
    (script : List RecvResult) :
    (recvFrame type allocated details fragment errno script).fragment.Settled type := by
  by_cases reads : ReadsHeader type allocated fragment
  · obtain ⟨incomplete, header, same⟩ :=
      recvFrame_of_readsHeader settled reads details errno script
    rw [same]
    rcases recvCurrent_fragment incomplete details header fragment.dataFrag errno script with
      ⟨left, whole, dropped⟩ | ⟨kept, left, after, announced⟩
    · rw [dropped]
      exact .of_idle left
    · rw [after]
      by_cases whole : fragment.headerRecvd + (nextResult script).count = type.headerLength
      · exact .of_announced _ left (announced whole)
      · exact .of_incomplete left whole
  · rcases recvFrame_of_not_readsHeader reads details errno script with
      ⟨-, -, same⟩ | ⟨header, -, -, same⟩
    · rw [same]
      exact settled
    · rw [same]
      rcases recvData_fragment type header type.headerLength fragment.dataFrag errno script []
        with ⟨left, dropped⟩ | ⟨positive, left, kept⟩
      · rw [dropped]
        exact .of_idle left
      · rw [kept]
        exact .of_announced _ left positive

/-! ## The end of the stream -/

/-- Once a byte of a header has been counted, the end of the stream looks like a short read. -/
theorem recvFrame_eof_of_pos {fragment : Fragment Fields} (settled : fragment.Settled type)
    (positive : 0 < fragment.headerRecvd) (allocated : Option (EventHeader Fields))
    (details : Option (Int × Int)) (errno : Errno) (rest : List RecvResult) :
    (recvFrame type allocated details fragment errno (.eof :: rest)).result = -1 ∧
      (recvFrame type allocated details fragment errno (.eof :: rest)).errno = .ewouldblock := by
  have next : nextResult (.eof :: rest) = .eof := rfl
  have zero : RecvResult.eof.count = 0 := rfl
  by_cases reads : ReadsHeader type allocated fragment
  · obtain ⟨incomplete, header, same⟩ :=
      recvFrame_of_readsHeader settled reads details errno (.eof :: rest)
    rw [same]
    unfold recvCurrent
    simp only [if_pos incomplete, next, zero, Int.add_zero, RecvResult.errno, positive, and_self,
      if_true]
  · rcases recvFrame_of_not_readsHeader reads details errno (.eof :: rest) with
      ⟨absent, -, -⟩ | ⟨header, kept, complete, same⟩
    · have nothing := settled.idle absent
      omega
    · have announced := settled.announced header kept complete
      rw [same]
      unfold recvData
      simp only [if_pos announced, next, zero]
      split
      · exact ⟨rfl, rfl⟩
      · exact ⟨rfl, rfl⟩

/-- Before that it is reported as 0, unless there is no header to read into. -/
theorem recvFrame_eof_of_nonpos {fragment : Fragment Fields} (settled : fragment.Settled type)
    (nonpositive : fragment.headerRecvd ≤ 0) (allocated : Option (EventHeader Fields))
    (details : Option (Int × Int)) (errno : Errno) (rest : List RecvResult) :
    (recvFrame type allocated details fragment errno (.eof :: rest)).result = 0 ∨
      allocated = none ∧
        (recvFrame type allocated details fragment errno (.eof :: rest)).result = -2 ∧
        (recvFrame type allocated details fragment errno (.eof :: rest)).errno = errno := by
  have next : nextResult (.eof :: rest) = .eof := rfl
  have zero : RecvResult.eof.count = 0 := rfl
  have length := type.headerLength_pos
  by_cases reads : ReadsHeader type allocated fragment
  · obtain ⟨incomplete, header, same⟩ :=
      recvFrame_of_readsHeader settled reads details errno (.eof :: rest)
    have notPositive : ¬ 0 < fragment.headerRecvd := by omega
    rw [same]
    unfold recvCurrent
    simp only [if_pos incomplete, next, zero, Int.add_zero, RecvResult.errno, notPositive,
      false_and, if_false, reduceCtorEq, true_or]
  · rcases recvFrame_of_not_readsHeader reads details errno (.eof :: rest) with
      ⟨-, absent, same⟩ | ⟨header, -, complete, -⟩
    · rw [same]
      exact .inr ⟨absent, rfl, rfl⟩
    · omega

end Stages

/-! ## Runs -/

/-- One call of the receive function: errno before it and the results of `recv`. -/
structure ReceiveCall where
  errno : Errno
  script : List RecvResult
  deriving DecidableEq, Repr

/-- The fragment, the number of header bytes of the current frame that have arrived, and every
`recv` for a header with that number as it was before. -/
structure HeaderReads (Fields : Type) where
  fragment : Fragment Fields
  arrived : Nat
  headerCalls : List (Nat × RecvCall)

namespace HeaderReads

def start : HeaderReads Fields := ⟨.none, 0, []⟩

/-- The header count is in bounds and right, and every `recv` for a header has asked for exactly
the bytes still missing, at their place in the header buffer. -/
structure InBounds (type : HeaderType Fields) (state : HeaderReads Fields) : Prop where
  nonnegative : 0 ≤ state.fragment.headerRecvd
  at_most : state.fragment.headerRecvd ≤ type.headerLength
  counted : state.fragment.headerRecvd = state.arrived
  requests : ∀ read ∈ state.headerCalls,
    read.2.offset = read.1 ∧ read.2.requested = type.headerLength - read.1 ∧
      0 ≤ read.2.offset ∧ read.2.offset + read.2.requested ≤ type.headerLength

end HeaderReads

/-- The receive function is called over and over, on a socket that keeps to its documentation. -/
def headerReads (type : HeaderType Fields) (allocated : Option (EventHeader Fields))
    (receive : Fragment Fields → Errno → List RecvResult → Received Fields) :
    Lib.System (HeaderReads Fields) ReceiveCall where
  step state call :=
    let out := receive state.fragment call.errno call.script
    let read := if ReadsHeader type allocated state.fragment then out.calls.take 1 else []
    { fragment := out.fragment
      arrived :=
        if out.fragment.headerFrag.isNone then 0 else state.arrived + (taken read).length
      headerCalls := state.headerCalls ++ read.map fun call => (state.arrived, call) }
  guard state call :=
    ∀ made ∈ (receive state.fragment call.errno call.script).calls, Documented made

instance (type : HeaderType Fields) (allocated : Option (EventHeader Fields))
    (receive : Fragment Fields → Errno → List RecvResult → Received Fields)
    (state : HeaderReads Fields) (call : ReceiveCall) :
    Decidable ((headerReads type allocated receive).guard state call) :=
  List.decidableBAll _ _

/-- A `recv` for a header does not fail. -/
def HeaderReadSucceeds (type : HeaderType Fields) (allocated : Option (EventHeader Fields))
    (state : HeaderReads Fields) (call : ReceiveCall) : Prop :=
  ReadsHeader type allocated state.fragment → (nextResult call.script).count ≠ -1

instance (type : HeaderType Fields) (allocated : Option (EventHeader Fields))
    (state : HeaderReads Fields) (call : ReceiveCall) :
    Decidable (HeaderReadSucceeds type allocated state call) :=
  inferInstanceAs (Decidable (ReadsHeader type allocated state.fragment → _))

section Steps

variable {type : HeaderType Fields} {allocated : Option (EventHeader Fields)}
  {details : Option (Int × Int)} {state : HeaderReads Fields} {call : ReceiveCall}

/-- A step that reads the header. -/
theorem headerReads_step_of_reads (settled : state.fragment.Settled type)
    (reads : ReadsHeader type allocated state.fragment) (details : Option (Int × Int))
    (call : ReceiveCall) :
    ∃ next, (headerReads type allocated (recvFrame type allocated details)).step state call =
        next ∧
      next.headerCalls = state.headerCalls ++ [(state.arrived, ⟨state.fragment.headerRecvd,
        type.headerLength - state.fragment.headerRecvd, nextResult call.script⟩)] ∧
      (state.fragment.headerRecvd + (nextResult call.script).count = type.headerLength ∧
          next.fragment.headerRecvd = 0 ∧ next.arrived = 0 ∨
        next.fragment.headerRecvd =
            state.fragment.headerRecvd + (nextResult call.script).count ∧
          next.arrived = state.arrived + (nextResult call.script).data.length) := by
  obtain ⟨incomplete, header, same⟩ :=
    recvFrame_of_readsHeader settled reads details call.errno call.script
  obtain ⟨more, calls⟩ :=
    recvCurrent_first incomplete details header state.fragment.dataFrag call.errno call.script
  refine ⟨_, rfl, ?_, ?_⟩
  · simp only [headerReads, if_pos reads, same, calls, List.take_succ_cons, List.take_zero,
      List.map_cons, List.map_nil]
  · simp only [headerReads, if_pos reads, same, calls, List.take_succ_cons, List.take_zero,
      taken_cons, taken_nil, List.append_nil]
    rcases recvCurrent_fragment incomplete details header state.fragment.dataFrag call.errno
      call.script with
      ⟨left, whole, dropped⟩ | ⟨kept, left, after, -⟩
    · rw [dropped]
      exact .inl ⟨whole, rfl, rfl⟩
    · rw [after]
      exact .inr ⟨rfl, rfl⟩

/-- A step that finds the header complete, or has none to read into. -/
theorem headerReads_step_of_not_reads (settled : state.fragment.Settled type)
    (reads : ¬ ReadsHeader type allocated state.fragment) (details : Option (Int × Int))
    (call : ReceiveCall) :
    ∃ next, (headerReads type allocated (recvFrame type allocated details)).step state call =
        next ∧
      next.headerCalls = state.headerCalls ∧
      (next.fragment.headerRecvd = 0 ∧ next.arrived = 0 ∨
        next.fragment.headerRecvd = state.fragment.headerRecvd ∧
          next.arrived = state.arrived) := by
  refine ⟨_, rfl, ?_, ?_⟩
  · simp only [headerReads, if_neg reads, List.map_nil, List.append_nil]
  · simp only [headerReads, if_neg reads, taken_nil, List.length_nil, Nat.add_zero]
    rcases recvFrame_of_not_readsHeader reads details call.errno call.script with
      ⟨absent, -, same⟩ | ⟨header, -, complete, same⟩
    · rw [same]
      simp only [absent, Option.isNone_none, if_true]
      exact .inl ⟨settled.idle absent, trivial⟩
    · rw [same]
      rcases recvData_fragment type header type.headerLength state.fragment.dataFrag call.errno
        call.script [] with ⟨left, dropped⟩ | ⟨-, left, kept⟩
      · rw [dropped]
        exact .inl ⟨rfl, rfl⟩
      · rw [kept, complete]
        exact .inr ⟨rfl, rfl⟩

/-- A call keeps the header count right exactly if its `recv` for the header, if it makes one,
does not fail. -/
theorem HeaderReads.InBounds.step_iff (settled : state.fragment.Settled type)
    (inBounds : state.InBounds type)
    (documented : (headerReads type allocated (recvFrame type allocated details)).guard
      state call) :
    ((headerReads type allocated (recvFrame type allocated details)).step state call).InBounds
        type ↔
      HeaderReadSucceeds type allocated state call := by
  obtain ⟨nonnegative, at_most, counted, requests⟩ := inBounds
  by_cases reads : ReadsHeader type allocated state.fragment
  · obtain ⟨next, same, headerCalls, after⟩ :=
      headerReads_step_of_reads settled reads details call
    obtain ⟨incomplete, header, read⟩ :=
      recvFrame_of_readsHeader settled reads details call.errno call.script
    obtain ⟨more, calls⟩ :=
      recvCurrent_first incomplete details header state.fragment.dataFrag call.errno call.script
    have first : Documented ⟨state.fragment.headerRecvd,
        type.headerLength - state.fragment.headerRecvd, nextResult call.script⟩ := by
      apply documented
      rw [read, calls]
      exact List.mem_cons_self ..
    rw [same]
    constructor
    · -- A failure takes one off the count, although no byte has arrived.
      intro next _ failed
      have wrong := next.counted
      have nothing := data_eq_nil_of_failed failed
      rw [failed] at after
      rcases after with ⟨whole, -, -⟩ | ⟨minus, arrived⟩
      · omega
      · rw [nothing, List.length_nil, Nat.add_zero] at arrived
        rw [minus, arrived] at wrong
        omega
    · intro succeeds
      obtain ⟨counts, fits⟩ := first.counts (Int.sub_nonneg_of_le at_most) (succeeds reads)
      dsimp only at counts fits
      have requested : ∀ read ∈ next.headerCalls,
          read.2.offset = read.1 ∧ read.2.requested = type.headerLength - read.1 ∧
            0 ≤ read.2.offset ∧ read.2.offset + read.2.requested ≤ type.headerLength := by
        intro read member
        rw [headerCalls, List.mem_append, List.mem_singleton] at member
        rcases member with old | new
        · exact requests read old
        · rw [new]
          dsimp only
          omega
      rcases after with ⟨-, zero, none⟩ | ⟨more, arrived⟩
      · exact ⟨by omega, by omega, by omega, requested⟩
      · exact ⟨by omega, by omega, by omega, requested⟩
  · obtain ⟨next, same, headerCalls, after⟩ :=
      headerReads_step_of_not_reads settled reads details call
    rw [same]
    refine ⟨fun _ now => absurd now reads, fun _ => ?_⟩
    rw [← headerCalls] at requests
    rcases after with ⟨zero, none⟩ | ⟨kept, arrived⟩
    · exact ⟨by omega, by omega, by omega, requests⟩
    · exact ⟨by omega, by omega, by omega, requests⟩

theorem headerReads_step_settled (state : HeaderReads Fields) (call : ReceiveCall)
    (settled : state.fragment.Settled type)
    (_ : (headerReads type allocated (recvFrame type allocated details)).guard state call) :
    ((headerReads type allocated (recvFrame type allocated details)).step state
      call).fragment.Settled type :=
  recvFrame_settled settled allocated details call.errno call.script

theorem headerReads_settled {calls : List ReceiveCall}
    (admitted : (headerReads type allocated (recvFrame type allocated details)).Admits .start
      calls) :
    ((headerReads type allocated (recvFrame type allocated details)).exec .start
      calls).fragment.Settled type :=
  Lib.System.invariant _ headerReads_step_settled (Fragment.Settled.none type) admitted

/-- Over a whole run, starting with nothing received. -/
theorem headerReads_inBounds_iff {calls : List ReceiveCall}
    (admitted : (headerReads type allocated (recvFrame type allocated details)).Admits .start
      calls) :
    (headerReads type allocated (recvFrame type allocated details)).Throughout
        (HeaderReads.InBounds type) .start calls ↔
      ((headerReads type allocated (recvFrame type allocated details)).restrict
        (HeaderReadSucceeds type allocated)).Admits .start calls := by
  refine (headerReads type allocated (recvFrame type allocated details))
    |>.throughout_iff_restrict_of_invariant (fun state => state.fragment.Settled type)
      headerReads_step_settled ?_ (.none type) ?_ admitted
  · intro state call settled inBounds documented
    exact inBounds.step_iff settled documented
  · refine ⟨Int.le_refl 0, Int.natCast_nonneg _, rfl, ?_⟩
    intro read member
    cases member

end Steps

end Nise.Core
