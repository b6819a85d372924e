import Mathlib.Data.List.Induction
import Nise.Lib.Run
import Nise.Utilities.FramedController

/-!
# The protocol of a framed job

What a job with a framed controller is for, as a protocol over the messages it sends and
receives: cases follow each other, each is initialized by all peers before it is stepped,
frames do not overlap, and nothing is stepped after the end of a case.  The protocol only
looks at how often each message has been seen.
-/

namespace Nise.Utilities

open Nise.Lib

/-- How often each message has been sent, and received from each peer; the frames since the last
`InitCase`; and whether all peers have completed the initialization of a case that has not
ended. -/
@[ext]
structure Tally where
  initCase : Nat
  endCase : Nat
  endRun : Nat
  advanceTime : Nat
  startFrame : Nat
  initCaseComplete : UInt32 → Nat
  endCaseComplete : UInt32 → Nat
  timeAdvanced : UInt32 → Nat
  endFrame : UInt32 → Nat
  caseFrames : Nat
  caseOpen : Bool

namespace Tally

def zero : Tally :=
  ⟨0, 0, 0, 0, 0, fun _ => 0, fun _ => 0, fun _ => 0, fun _ => 0, 0, false⟩

/-- One more message of a peer. -/
def more (answers : UInt32 → Nat) (peerId : UInt32) : UInt32 → Nat :=
  fun other => answers other + if other = peerId then 1 else 0

def note (tally : Tally) : Entry → Tally
  | .sent .initCase => { tally with initCase := tally.initCase + 1, caseFrames := 0 }
  | .sent .endCase => { tally with endCase := tally.endCase + 1, caseOpen := false }
  | .sent .endRun => { tally with endRun := tally.endRun + 1 }
  | .sent .advanceTime => { tally with advanceTime := tally.advanceTime + 1 }
  | .sent .startFrame =>
      { tally with startFrame := tally.startFrame + 1, caseFrames := tally.caseFrames + 1 }
  | .received (.initCaseComplete peerId) =>
      { tally with initCaseComplete := more tally.initCaseComplete peerId }
  | .received (.endCaseComplete peerId) =>
      { tally with endCaseComplete := more tally.endCaseComplete peerId }
  | .received (.timeAdvanced peerId) =>
      { tally with timeAdvanced := more tally.timeAdvanced peerId }
  | .received (.endFrame peerId) => { tally with endFrame := more tally.endFrame peerId }
  | .initialized => { tally with caseOpen := true }
  | _ => tally

def ofHistory (history : List Entry) : Tally := history.foldl note zero

/-- All peers have completed the initialization, all frames have ended and all advances of the
time are done. -/
structure Idle (job : Job) (tally : Tally) : Prop where
  initialized : ∀ peer ∈ job.peers, tally.initCaseComplete peer = tally.initCase
  framesEnded : ∀ peer ∈ job.stepped, tally.endFrame peer = tally.startFrame
  timeAdvanced : ∀ peer ∈ job.stepped, tally.timeAdvanced peer = tally.advanceTime

/-- All peers have completed the ends of all cases. -/
def CasesEnded (job : Job) (tally : Tally) : Prop :=
  tally.initCase = tally.endCase ∧
    ∀ peer ∈ job.peers, tally.endCaseComplete peer = tally.endCase

/-- What the controller may send, where `first` is the number of the first case and `engages`
says whether a case may end with its engagement. -/
def Rule (job : Job) (first : Int) (engages : Bool) (tally : Tally) : Entry → Prop
  | .sent .advanceTime => tally.caseOpen = true ∧ tally.Idle job
  | .sent .startFrame => tally.caseOpen = true ∧ tally.Idle job ∧
      (job.separateAdvanceTime = true → tally.advanceTime = tally.startFrame + 1) ∧
      (tally.caseFrames = 0 ∨ UInt32.ofNat tally.startFrame ≠ job.maxFrame)
  | .sent .endCase => tally.caseOpen = true ∧
      (engages = true ∨
        job.stepped ≠ [] ∧ UInt32.ofNat tally.startFrame = job.maxFrame)
  | .sent .initCase => tally.endRun = 0 ∧ tally.CasesEnded job ∧
      (tally.initCase = 0 ∨ first + tally.initCase ≤ job.numberOfRuns)
  | .sent .endRun => tally.endRun = 0 ∧ tally.CasesEnded job ∧ 0 < tally.initCase ∧
      (tally.initCase : Int) = max 1 (job.numberOfRuns - first + 1)
  | .initialized => tally.initCase ≠ 0
  | _ => True

/-- The protocol: entries are noted, and each has to obey the rule. -/
def protocol (job : Job) (first : Int) (engages : Bool) : System Tally Entry where
  step := note
  guard := Rule job first engages

end Tally

/-! ## The tally is what the history counts -/

namespace Tally

theorem ofHistory_concat (history : List Entry) (entry : Entry) :
    ofHistory (history ++ [entry]) = (ofHistory history).note entry := by
  unfold ofHistory
  rw [List.foldl_append]
  rfl

theorem ofHistory_append (history more : List Entry) :
    ofHistory (history ++ more) = more.foldl note (ofHistory history) := List.foldl_append

theorem more_eq (answers : UInt32 → Nat) (peerId other : UInt32) :
    more answers peerId other = answers other + if other = peerId then 1 else 0 := rfl

theorem count_concat (history : List Entry) (entry counted : Entry) :
    (history ++ [entry]).count counted =
      history.count counted + if counted = entry then 1 else 0 := by
  rw [List.count_append, List.count_singleton]
  congr 1
  by_cases same : counted = entry
  · rw [if_pos same, same, beq_self_eq_true, if_pos rfl]
  · rw [if_neg same, if_neg (fun equal => same (beq_iff_eq.mp equal).symm)]

/-- A field that grows with one kind of entry counts these entries. -/
theorem eq_count (field : Tally → Nat) {counted : Entry} (none : field zero = 0)
    (grows : ∀ tally entry, field (note tally entry) =
      field tally + if counted = entry then 1 else 0) (history : List Entry) :
    field (ofHistory history) = history.count counted := by
  induction history using List.reverseRecOn with
  | nil => exact none
  | append_singleton history entry ih => rw [ofHistory_concat, grows, ih, count_concat]

/-- The fields for what is sent. -/
theorem sent_eq_count (history : List Entry) :
    (ofHistory history).initCase = history.count (.sent .initCase) ∧
      (ofHistory history).endCase = history.count (.sent .endCase) ∧
      (ofHistory history).endRun = history.count (.sent .endRun) ∧
      (ofHistory history).advanceTime = history.count (.sent .advanceTime) ∧
      (ofHistory history).startFrame = history.count (.sent .startFrame) := by
  refine ⟨eq_count initCase rfl ?_ history, eq_count endCase rfl ?_ history,
    eq_count endRun rfl ?_ history, eq_count advanceTime rfl ?_ history,
    eq_count startFrame rfl ?_ history⟩
  all_goals
    intro tally entry
    cases entry with
    | sent output => cases output <;> rfl
    | received input => cases input <;> rfl
    | initialized => rfl

/-- The fields for what is received from a peer. -/
theorem received_eq_count (history : List Entry) (peer : UInt32) :
    (ofHistory history).initCaseComplete peer =
        history.count (.received (.initCaseComplete peer)) ∧
      (ofHistory history).endCaseComplete peer =
        history.count (.received (.endCaseComplete peer)) ∧
      (ofHistory history).timeAdvanced peer = history.count (.received (.timeAdvanced peer)) ∧
      (ofHistory history).endFrame peer = history.count (.received (.endFrame peer)) := by
  refine ⟨eq_count (·.initCaseComplete peer) rfl ?_ history,
    eq_count (·.endCaseComplete peer) rfl ?_ history,
    eq_count (·.timeAdvanced peer) rfl ?_ history, eq_count (·.endFrame peer) rfl ?_ history⟩
  all_goals
    intro tally entry
    cases entry with
    | sent output => cases output <;> rfl
    | initialized => rfl
    | received input =>
        cases input
        -- What is counted and what is noted are both messages of a peer.
        case initCaseComplete | endCaseComplete | timeAdvanced | endFrame =>
          first
          | rfl
          | exact congrArg _ (if_congr
              ⟨fun same => by rw [same], fun same => by cases same; rfl⟩ rfl rfl)
        all_goals rfl

theorem ofHistory_eq (history : List Entry) :
    ofHistory history =
      { initCase := history.count (.sent .initCase)
        endCase := history.count (.sent .endCase)
        endRun := history.count (.sent .endRun)
        advanceTime := history.count (.sent .advanceTime)
        startFrame := history.count (.sent .startFrame)
        initCaseComplete := fun peer => history.count (.received (.initCaseComplete peer))
        endCaseComplete := fun peer => history.count (.received (.endCaseComplete peer))
        timeAdvanced := fun peer => history.count (.received (.timeAdvanced peer))
        endFrame := fun peer => history.count (.received (.endFrame peer))
        caseFrames := (ofHistory history).caseFrames
        caseOpen := (ofHistory history).caseOpen } := by
  obtain ⟨init, ends, run, advance, start⟩ := sent_eq_count history
  have answers := received_eq_count history
  apply Tally.ext
  · exact init
  · exact ends
  · exact run
  · exact advance
  · exact start
  · exact funext fun peer => (answers peer).1
  · exact funext fun peer => (answers peer).2.1
  · exact funext fun peer => (answers peer).2.2.1
  · exact funext fun peer => (answers peer).2.2.2
  · rfl
  · rfl

theorem caseFrames_note (tally : Tally) {entry : Entry} (same : entry ≠ .sent .initCase) :
    (tally.note entry).caseFrames =
      tally.caseFrames + if entry = .sent .startFrame then 1 else 0 := by
  cases entry with
  | sent output =>
      cases output with
      | initCase => exact absurd rfl same
      | _ => rfl
  | received input => cases input <;> rfl
  | initialized => rfl

/-- The frames of a case are those sent since its `InitCase`. -/
theorem caseFrames_foldl (frames : List Entry) (tally : Tally)
    (same : .sent .initCase ∉ frames) :
    (frames.foldl note tally).caseFrames =
      tally.caseFrames + frames.count (.sent .startFrame) := by
  induction frames generalizing tally with
  | nil => rfl
  | cons entry rest ih =>
      have apart : entry ≠ .sent .initCase := fun equal => same (equal ▸ List.mem_cons_self)
      rw [List.foldl_cons, ih (tally.note entry) fun member => same (List.mem_cons_of_mem _ member),
        caseFrames_note tally apart, List.count_cons]
      simp only [beq_iff_eq]
      omega

theorem caseFrames_ofHistory (earlier frames : List Entry) (same : .sent .initCase ∉ frames) :
    (ofHistory (earlier ++ .sent .initCase :: frames)).caseFrames =
      frames.count (.sent .startFrame) := by
  rw [ofHistory_append, List.foldl_cons, caseFrames_foldl frames _ same]
  exact Nat.zero_add _

theorem caseOpen_note {tally : Tally} {entry : Entry} (closed : tally.caseOpen = false)
    (other : entry ≠ .initialized) : (tally.note entry).caseOpen = false := by
  cases entry with
  | sent output => cases output <;> first | exact closed | rfl
  | received input => cases input <;> exact closed
  | initialized => exact absurd rfl other

/-- A case that has ended stays closed until the next one is initialized. -/
theorem caseOpen_foldl (during : List Entry) {tally : Tally} (closed : tally.caseOpen = false)
    (uninitialized : .initialized ∉ during) : (during.foldl note tally).caseOpen = false := by
  induction during generalizing tally with
  | nil => exact closed
  | cons entry rest ih =>
      have other : entry ≠ .initialized := fun equal => uninitialized (equal ▸ List.mem_cons_self)
      exact ih (caseOpen_note closed other)
        fun member => uninitialized (List.mem_cons_of_mem _ member)

theorem caseOpen_ofHistory (before during : List Entry) (uninitialized : .initialized ∉ during) :
    (ofHistory (before ++ .sent .endCase :: during)).caseOpen = false := by
  rw [ofHistory_append, List.foldl_cons]
  exact caseOpen_foldl during rfl uninitialized

end Tally

end Nise.Utilities
