import Nise.Core.HeaderReads
import Nise.Core.SamsonHeader
import Nise.Peer.PeerReceive

/-!
# What the application of a peer is given

`Peer_Handler::recv` encodes five kinds of outcome in one number: an event, a short
read, an error, the end of the stream, and, as -2, a header that announces a negative
amount of data.  `await_events` treats 0 and -1 on their own and everything else as an
event.
-/

namespace Nise.Peer

open Nise.Ace Nise.Core

variable {Fields : Type}

/-- Only an event that the call has completed reaches the application, and a negative result is
taken for a short read or for a failure. -/
structure ProperOutcome (call : Received Fields) (out : AwaitEvents Fields) : Prop where
  completed : ∀ pair, out.handled = some pair →
    ∃ header, pair.1 = some header ∧ call.theHeader = some header
  negative : call.result < 0 → out.handled = none ∧
    (call.errno = .ewouldblock ∧ out.returned = 0 ∨ out.returned = -1)

/-- The fragment between two invocations and, for each invocation so far, what `recv` returned
and what `await_events` made of it. -/
structure AwaitRun (Fields : Type) where
  fragment : Fragment Fields
  log : List (Received Fields × AwaitEvents Fields)

namespace AwaitRun

def start : AwaitRun Fields := ⟨.none, []⟩

def Proper (state : AwaitRun Fields) : Prop :=
  ∀ entry ∈ state.log, ProperOutcome entry.1 entry.2

end AwaitRun

/-- What the data stage of a call begins with. -/
structure DataStage (Fields : Type) where
  header : EventHeader Fields
  errno : Errno
  script : List RecvResult
  deriving DecidableEq, Repr

namespace PeerHandler

variable (peer : PeerHandler Fields)

/-- Invocations on any byte stream, with any results of `recv` and any errno before them. -/
def awaits : Lib.System (AwaitRun Fields) ReceiveCall where
  step state call :=
    let out := peer.awaitEvents state.fragment call.errno call.script
    ⟨out.fragment, state.log ++ [(peer.recv state.fragment call.errno call.script, out)]⟩
  guard _ _ := True

/-- The data stage of a call, if the call gets to it: the header was complete before, or its
last bytes arrive now. -/
def dataStage (fragment : Fragment Fields) (call : ReceiveCall) : Option (DataStage Fields) :=
  let header := fragment.headerFrag.getD peer.blank
  let headerRecvd := if fragment.headerFrag.isNone then 0 else fragment.headerRecvd
  let result := nextResult call.script
  if headerRecvd = peer.headerType.headerLength then
    some ⟨header, call.errno, call.script⟩
  else if headerRecvd + result.count = peer.headerType.headerLength then
    some ⟨(header.write headerRecvd result.data).decode peer.headerType, result.errno .clear,
      call.script.tail⟩
  else
    none

/-- The bytes of data still to come. -/
def left (dataFrag : Option MessageBlock) (stage : DataStage Fields) : Int :=
  let total := peer.headerType.dataLength stage.header.fields
  total - (dataFrag.getD ⟨total.toNat, []⟩).length

/-- The data is completed by this call. -/
def Completes (dataFrag : Option MessageBlock) (stage : DataStage Fields) : Prop :=
  0 < peer.headerType.dataLength stage.header.fields ∧ 0 < peer.left dataFrag stage ∧
    (nextResult stage.script).count = peer.left dataFrag stage

/-- The header does not announce a negative length and the byte count of an event completed now
is not below -1 as an `int`; or there is no application, and errno is as after a short read. -/
def Recognised (state : AwaitRun Fields) (call : ReceiveCall) : Prop :=
  ∀ stage, peer.dataStage state.fragment call = some stage →
    (0 ≤ peer.headerType.dataLength stage.header.fields ∧
      (peer.Completes state.fragment.dataFrag stage →
        -1 ≤ toInt (peer.headerType.headerLength +
          peer.headerType.dataLength stage.header.fields))) ∨
    peer.samsonApp = none ∧ stage.errno = .ewouldblock

/-! ## One call -/

/-- How the data stage may end. -/
inductive DataOutcome (dataFrag : Option MessageBlock) (stage : DataStage Fields)
    (out : Received Fields) : Prop where
  | waits (length : 0 ≤ peer.headerType.dataLength stage.header.fields)
      (unfinished : ¬ peer.Completes dataFrag stage)
      (result : out.result = 0 ∨ out.result = -1) (header : out.theHeader = none)
  | completes (finished : peer.Completes dataFrag stage)
      (result : out.result = toInt (peer.headerType.headerLength +
        peer.headerType.dataLength stage.header.fields))
      (header : out.theHeader = some stage.header) (errno : out.errno = stage.errno)
  | headerOnly (length : peer.headerType.dataLength stage.header.fields = 0)
      (result : 0 < out.result) (header : out.theHeader = some stage.header)
  | malformed (length : peer.headerType.dataLength stage.header.fields < 0)
      (result : out.result = -2) (header : out.theHeader = none)
      (errno : out.errno = stage.errno)

variable {peer}

theorem count_pos {result : RecvResult} (notFailed : result.count ≠ -1)
    (notEof : result.count ≠ 0) : 0 < result.count := by
  cases result with
  | bytes data =>
      simp only [RecvResult.count] at notEof ⊢
      omega
  | eof => exact absurd rfl notEof
  | fail errno => exact absurd rfl notFailed

theorem errno_of_not_failed {result : RecvResult} (notFailed : result.count ≠ -1)
    (before : Errno) : result.errno before = before := by
  cases result with
  | bytes data => rfl
  | eof => rfl
  | fail errno => exact absurd rfl notFailed

theorem recvData_outcome (peer : PeerHandler Fields) (dataFrag : Option MessageBlock)
    (stage : DataStage Fields) (calls : List RecvCall) :
    peer.DataOutcome dataFrag stage (recvData peer.headerType stage.header
      peer.headerType.headerLength dataFrag stage.errno stage.script calls) := by
  unfold recvData
  dsimp only
  split
  · next positive =>
      split
      · next nothing =>
          refine .waits (Int.le_of_lt positive) ?_ (.inr rfl) rfl
          rintro ⟨-, more, -⟩
          simp only [left] at more
          omega
      · next something =>
          split
          · next failed =>
              refine .waits (Int.le_of_lt positive) ?_ ?_ rfl
              · rintro ⟨-, more, counted⟩
                omega
              · dsimp only
                split
                · exact .inr rfl
                · exact .inl rfl
          · next notFailed =>
              split
              · next nothing =>
                  refine .waits (Int.le_of_lt positive) ?_ (.inr rfl) rfl
                  rintro ⟨-, more, counted⟩
                  omega
              · next notEof =>
                  split
                  · next short =>
                      refine .waits (Int.le_of_lt positive) ?_ (.inr rfl) rfl
                      rintro ⟨-, -, whole⟩
                      exact short whole
                  · next whole =>
                      rw [not_not] at whole
                      refine .completes ⟨positive, ?_, whole⟩ rfl rfl ?_
                      · rw [left, ← whole]
                        exact count_pos notFailed notEof
                      · exact errno_of_not_failed notFailed stage.errno
  · next nonpositive =>
      split
      · next negative => exact .malformed negative rfl rfl rfl
      · next nonnegative =>
          have length := peer.headerType.headerLength_pos
          refine .headerOnly (by omega) ?_ rfl
          dsimp only
          omega

/-- With or without a fragment of a header, a call is the header stage. -/
theorem recv_eq_recvCurrent (fragment : Fragment Fields) (errno : Errno)
    (script : List RecvResult) :
    peer.recv fragment errno script =
      recvCurrent peer.headerType none (fragment.headerFrag.getD peer.blank)
        (if fragment.headerFrag.isNone then 0 else fragment.headerRecvd) fragment.dataFrag errno
        script := by
  unfold recv recvFrame
  cases fragment.headerFrag with
  | some header => rfl
  | none => rfl

theorem recv_of_dataStage {fragment : Fragment Fields} {call : ReceiveCall}
    {stage : DataStage Fields} (reached : peer.dataStage fragment call = some stage) :
    ∃ calls, peer.recv fragment call.errno call.script = recvData peer.headerType stage.header
      peer.headerType.headerLength fragment.dataFrag stage.errno stage.script calls := by
  rw [recv_eq_recvCurrent, recvCurrent]
  unfold dataStage at reached
  generalize (if fragment.headerFrag.isNone then 0 else fragment.headerRecvd) = headerRecvd
    at reached ⊢
  dsimp only at reached
  split at reached
  · next complete =>
      cases reached
      rw [if_neg (not_not_intro complete), complete]
      exact ⟨[], rfl⟩
  · next incomplete =>
      rw [if_pos incomplete]
      split at reached
      · next completed =>
          cases reached
          dsimp only
          rw [if_neg (not_not_intro completed), completed]
          exact ⟨_, rfl⟩
      · cases reached

/-- A call that stays in the header stage returns 0 or -1. -/
theorem recv_of_no_dataStage {fragment : Fragment Fields} {call : ReceiveCall}
    (absent : peer.dataStage fragment call = none) :
    (peer.recv fragment call.errno call.script).result = 0 ∨
      (peer.recv fragment call.errno call.script).result = -1 := by
  rw [recv_eq_recvCurrent, recvCurrent]
  unfold dataStage at absent
  generalize (if fragment.headerFrag.isNone then 0 else fragment.headerRecvd) = headerRecvd
    at absent ⊢
  dsimp only at absent
  split at absent
  · cases absent
  · next incomplete =>
      rw [if_pos incomplete]
      split at absent
      · cases absent
      · next short =>
          dsimp only
          rw [if_pos short]
          split
          · exact .inr rfl
          · split
            · exact .inr rfl
            · exact .inl rfl

section Outcomes

variable {fragment : Fragment Fields} {errno : Errno} {script : List RecvResult}

theorem proper_of_zero_or_minus_one
    (result : (peer.recv fragment errno script).result = 0 ∨
      (peer.recv fragment errno script).result = -1) :
    ProperOutcome (peer.recv fragment errno script)
      (peer.awaitEvents fragment errno script) := by
  unfold awaitEvents
  generalize peer.recv fragment errno script = call at result ⊢
  rcases result with zero | minus
  · refine ⟨?_, by omega⟩
    simp [zero]
  · by_cases blocks : call.errno = .ewouldblock
    · constructor <;> simp [minus, blocks]
    · constructor <;> simp [minus, blocks]

theorem proper_of_event {header : EventHeader Fields}
    (positive : 0 < (peer.recv fragment errno script).result)
    (found : (peer.recv fragment errno script).theHeader = some header) :
    ProperOutcome (peer.recv fragment errno script)
      (peer.awaitEvents fragment errno script) := by
  unfold awaitEvents
  generalize peer.recv fragment errno script = call at positive found ⊢
  refine ⟨?_, by omega⟩
  intro pair handled
  simp only [if_neg (show ¬ call.result = 0 by omega),
    if_neg (show ¬ call.result = -1 by omega)] at handled
  cases app : peer.samsonApp with
  | none =>
      simp only [app] at handled
      cases handled
  | some app' =>
      simp only [app, Option.some.injEq] at handled
      exact ⟨header, by rw [← handled, found], found⟩

/-- A result below -1 goes to the application as if it were an event. -/
theorem proper_iff_of_lt (negative : (peer.recv fragment errno script).result < -1) :
    ProperOutcome (peer.recv fragment errno script) (peer.awaitEvents fragment errno script) ↔
      peer.samsonApp = none ∧ (peer.recv fragment errno script).errno = .ewouldblock := by
  unfold awaitEvents
  generalize peer.recv fragment errno script = call at negative ⊢
  simp only [if_neg (show ¬ call.result = 0 by omega),
    if_neg (show ¬ call.result = -1 by omega)]
  cases peer.samsonApp with
  | none =>
      constructor
      · intro proper
        rcases (proper.negative (by omega)).2 with ⟨blocks, -⟩ | failed
        · exact ⟨rfl, blocks⟩
        · cases failed
      · rintro ⟨-, blocks⟩
        refine ⟨?_, fun _ => ⟨rfl, .inl ⟨blocks, rfl⟩⟩⟩
        intro pair handled
        cases handled
  | some app =>
      constructor
      · intro proper
        cases (proper.negative (by omega)).1
      · rintro ⟨absent, -⟩
        cases absent

end Outcomes

/-- One invocation is proper exactly if what it reads is recognised. -/
theorem properOutcome_iff (state : AwaitRun Fields) (call : ReceiveCall) :
    ProperOutcome (peer.recv state.fragment call.errno call.script)
        (peer.awaitEvents state.fragment call.errno call.script) ↔
      peer.Recognised state call := by
  cases reached : peer.dataStage state.fragment call with
  | none =>
      refine iff_of_true (proper_of_zero_or_minus_one (recv_of_no_dataStage reached)) ?_
      intro stage found
      rw [reached] at found
      cases found
  | some stage =>
      obtain ⟨calls, same⟩ := recv_of_dataStage reached
      have outcome := recvData_outcome peer state.fragment.dataFrag stage calls
      rw [← same] at outcome
      have recognised : peer.Recognised state call ↔
          (0 ≤ peer.headerType.dataLength stage.header.fields ∧
            (peer.Completes state.fragment.dataFrag stage →
              -1 ≤ toInt (peer.headerType.headerLength +
                peer.headerType.dataLength stage.header.fields))) ∨
          peer.samsonApp = none ∧ stage.errno = .ewouldblock := by
        constructor
        · intro all
          exact all stage reached
        · intro this other found
          rw [reached] at found
          cases found
          exact this
      rw [recognised]
      cases outcome with
      | waits length unfinished result header =>
          refine iff_of_true (proper_of_zero_or_minus_one result) (.inl ⟨length, ?_⟩)
          intro finished
          exact absurd finished unfinished
      | completes finished result header errno =>
          have length := Int.le_of_lt finished.1
          by_cases low : toInt (peer.headerType.headerLength +
            peer.headerType.dataLength stage.header.fields) < -1
          · rw [proper_iff_of_lt (by rw [result]; exact low), errno]
            constructor
            · exact .inr
            · rintro (⟨-, inRange⟩ | corner)
              · have high := inRange finished
                omega
              · exact corner
          · refine iff_of_true ?_ (.inl ⟨length, fun _ => Int.not_lt.mp low⟩)
            by_cases positive : 0 < (peer.recv state.fragment call.errno call.script).result
            · exact proper_of_event positive header
            · apply proper_of_zero_or_minus_one
              rw [result] at positive ⊢
              omega
      | headerOnly length result header =>
          refine iff_of_true (proper_of_event result header) (.inl ⟨by omega, ?_⟩)
          rintro ⟨positive, -⟩
          omega
      | malformed length result header errno =>
          rw [proper_iff_of_lt (by omega), errno]
          constructor
          · exact .inr
          · rintro (⟨nonnegative, -⟩ | corner)
            · omega
            · exact corner

/-- In a run on any stream the application is given completed events only, and every negative
result is a short read or a failure, exactly if what every call reads is recognised. -/
theorem awaits_proper_iff (peer : PeerHandler Fields) (calls : List ReceiveCall) :
    peer.awaits.Throughout AwaitRun.Proper .start calls ↔
      (peer.awaits.restrict peer.Recognised).Admits .start calls := by
  have admitted : peer.awaits.Admits .start calls :=
    peer.awaits.admits_of_unguarded (fun _ _ => trivial) _ _
  refine peer.awaits.throughout_iff_restrict ?_ ?_ admitted
  · intro state call proper _
    rw [← properOutcome_iff]
    constructor
    · intro next
      exact next _ (List.mem_append_right _ (List.mem_singleton.mpr rfl))
    · intro now entry member
      rcases List.mem_append.mp member with old | new
      · exact proper entry old
      · rw [List.mem_singleton.mp new]
        exact now
  · intro entry member
    cases member

/-! ## A negative length -/

/-- A peer for which the data length of a Samson header is an `int`. -/
def intLengths : PeerHandler SamsonHeader where
  headerType :=
    { SamsonHeader.headerType with dataLength := fun header => toInt header.dataLength.toNat }
  blank := SamsonHeader.blank
  crc32 := SamsonHeader.crc32
  checksum := fun _ => 0
  samsonApp := some fun _ _ => 0

/-- The header that announces -1 bytes. -/
def minusOneByte : List UInt8 :=
  [83, 78, 1, 0] ++ List.replicate 40 0 ++ [255, 255, 255, 255]

/-- It makes `await_events` call the application without a header. -/
theorem awaits_proper_fails :
    ¬ ∀ (peer : PeerHandler SamsonHeader) (calls : List ReceiveCall),
      peer.awaits.Throughout AwaitRun.Proper .start calls := by
  intro always
  have proper := (always intLengths [⟨.clear, [.bytes minusOneByte]⟩]).2
  have outcome := proper _ (List.mem_singleton.mpr rfl)
  obtain ⟨header, found, -⟩ := outcome.completed (none, none) (by decide +kernel)
  cases found

end PeerHandler

end Nise.Peer
