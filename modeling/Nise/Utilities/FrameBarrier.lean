import Nise.Utilities.FramedRuns

/-!
# Frames of a run

Frames do not overlap, whatever starts them.  How many frames a case has is decided by a
counter that is never set back, so that only the first case of a run has as many as asked for.
-/

namespace Nise.Utilities

open Nise.Lib

section Frames

variable {job : Job} {first : Int} {inputs : List Input}

/-- What has been sent and received when a frame is started. -/
theorem startFrame_follows_answers
    (admitted : ((simulation job).restrict (Undisturbed job)).Admits (.start first) inputs)
    {before after : List Entry}
    (sent : ((simulation job).exec (.start first) inputs).history =
      before ++ .sent .startFrame :: after) :
    ∀ peerId ∈ job.stepped,
      before.count (.received (.endFrame peerId)) = before.count (.sent .startFrame) ∧
        (job.separateAdvanceTime = true →
          before.count (.received (.timeAdvanced peerId)) = before.count (.sent .advanceTime) ∧
            before.count (.sent .advanceTime) = before.count (.sent .startFrame) + 1) := by
  intro peerId member
  obtain ⟨-, idle, paired, -⟩ := (sound_of_undisturbed admitted).rule sent
  rw [Tally.ofHistory_eq] at idle paired
  refine ⟨idle.framesEnded peerId member, ?_⟩
  intro separate
  exact ⟨idle.timeAdvanced peerId member, paired separate⟩

end Frames

namespace TwoModels

/-- Two stepped models and one that is not, with a separate advance of the time. -/
def job : Job where
  peerTable := [⟨7, 10⟩, ⟨8, 10⟩, ⟨9, 0⟩]
  modelId := 1
  separateAdvanceTime := true
  startFrameHz := 0
  maxFrame := 5
  numberOfRuns := 1

def inputs : List Input :=
  [.startup true, .initCaseComplete 9, .initCaseComplete 7, .initCaseComplete 8,
    .timeAdvanced 8, .timeAdvanced 7, .endFrame 7, .endFrame 8, .timeAdvanced 7, .timeAdvanced 8]

/-- All but the last entry of the history. -/
def beforeSecond : List Entry :=
  [.received (.startup true), .sent .logEventChannelStatus, .sent .initCase,
    .received (.initCaseComplete 9), .received (.initCaseComplete 7),
    .received (.initCaseComplete 8), .initialized, .sent (.schedule .watchdog),
    .sent .advanceTime, .received (.timeAdvanced 8), .received (.timeAdvanced 7),
    .sent .startFrame, .received (.endFrame 7), .received (.endFrame 8), .sent .advanceTime,
    .received (.timeAdvanced 7), .received (.timeAdvanced 8)]

theorem second_startFrame_follows_answers :
    beforeSecond.count (.received (.endFrame 8)) = beforeSecond.count (.sent .startFrame) ∧
      beforeSecond.count (.received (.timeAdvanced 8)) = beforeSecond.count (.sent .advanceTime) ∧
      beforeSecond.count (.sent .advanceTime) = beforeSecond.count (.sent .startFrame) + 1 := by
  have admitted : ((simulation job).restrict (Undisturbed job)).Admits (.start 1) inputs := by
    decide
  have sent : ((simulation job).exec (.start 1) inputs).history =
      beforeSecond ++ [.sent .startFrame] := by decide
  obtain ⟨ended, advanced⟩ := startFrame_follows_answers admitted sent 8 (by decide)
  exact ⟨ended, advanced rfl⟩

end TwoModels

/-- The peers answer the frames at most once, and no end of engagement is reported; nothing is said
of their answers to `InitCase` and `EndCase`. -/
def FramesAnswered (job : Job) (run : Run) (input : Input) : Prop :=
  run.AnswersFrames job input ∧ input.endsEngagement = false

instance (job : Job) (run : Run) : DecidablePred (FramesAnswered job run) := fun input =>
  inferInstanceAs (Decidable (run.AnswersFrames job input ∧ input.endsEngagement = false))

namespace RepeatedAnswer

def job : Job where
  peerTable := [⟨7, 10⟩]
  modelId := 1
  separateAdvanceTime := false
  startFrameHz := 0
  maxFrame := 5
  numberOfRuns := 1

/-- The model completes the initialization twice. -/
def inputs : List Input := [.startup true, .initCaseComplete 7, .initCaseComplete 7]

theorem startFrame_before_answers :
    ¬ ∀ (job : Job) (first : Int) (inputs : List Input),
      ((simulation job).restrict (FramesAnswered job)).Admits (.start first) inputs →
        ∀ before after, ((simulation job).exec (.start first) inputs).history =
            before ++ .sent .startFrame :: after →
          ∀ peerId ∈ job.stepped,
            before.count (.received (.endFrame peerId)) = before.count (.sent .startFrame) := by
  intro claim
  have sent : ((simulation job).exec (.start 1) inputs).history =
      [.received (.startup true), .sent .logEventChannelStatus, .sent .initCase,
        .received (.initCaseComplete 7), .initialized, .sent (.schedule .watchdog),
        .sent .startFrame, .received (.initCaseComplete 7), .initialized,
        .sent (.schedule .watchdog)] ++ [.sent .startFrame] := by decide
  have answered := claim job 1 inputs (by decide) _ _ sent 7 (by decide)
  exact absurd answered (by decide)

end RepeatedAnswer

/-! ## The number of frames of a case -/

/-- No case has more frames than its budget, and a case that ends has exactly as many. -/
def FrameBudget (budget : Nat) (history : List Entry) : Prop :=
  ∀ earlier frames later, history = earlier ++ .sent .initCase :: (frames ++ later) →
    .sent .initCase ∉ frames →
      frames.count (.sent .startFrame) ≤ budget ∧
        (later.head? = some (.sent .endCase) → frames.count (.sent .startFrame) = budget)

section Budget

variable {job : Job} {first : Int} {inputs : List Input}

/-- The only case of a run. -/
structure OnlyCase (job : Job) (tally : Tally) : Prop where
  endless : job.stepped = [] → tally.endCase = 0
  unframed : tally.initCase = 0 → tally.startFrame = 0
  begun : tally.caseOpen = true → tally.initCase ≠ 0
  all : tally.caseFrames = tally.startFrame
  within : tally.startFrame ≤ job.maxFrame.toNat

theorem OnlyCase.note {tally : Tally} {entry : Entry} (only : OnlyCase job tally)
    (frames : 0 < job.maxFrame) (single : job.numberOfRuns ≤ first ∨ job.stepped = [])
    (rule : Tally.Rule job first false tally entry) : OnlyCase job (tally.note entry) := by
  cases entry with
  | received input =>
      cases input <;>
        exact ⟨only.endless, only.unframed, only.begun, only.all, only.within⟩
  | initialized => exact ⟨only.endless, only.unframed, fun _ => rule, only.all, only.within⟩
  | sent output =>
      cases output with
      | initCase =>
          obtain ⟨-, ⟨ended, -⟩, further⟩ := rule
          have none : tally.initCase = 0 := by
            rcases single with few | unstepped
            · omega
            · rw [ended]
              exact only.endless unstepped
          exact
            { endless := only.endless
              unframed := fun some => by cases some
              begun := fun _ => Nat.succ_ne_zero _
              all := (only.unframed none).symm
              within := only.within }
      | startFrame =>
          obtain ⟨isOpen, -, -, unspent⟩ := rule
          have begun := only.begun isOpen
          have all := only.all
          have within := only.within
          have positive : 0 < job.maxFrame.toNat := frames
          have room : tally.startFrame + 1 ≤ job.maxFrame.toNat := by
            rcases unspent with none | unspent
            · omega
            · have apart : tally.startFrame ≠ job.maxFrame.toNat := by
                intro spent
                rw [spent, UInt32.ofNat_toNat] at unspent
                exact unspent rfl
              omega
          exact
            { endless := only.endless
              unframed := fun none => absurd none begun
              begun := only.begun
              all := congrArg (· + 1) all
              within := room }
      | endCase =>
          obtain ⟨isOpen, impossible | ⟨steps, -⟩⟩ := rule
          · cases impossible
          · exact
              { endless := fun unstepped => absurd unstepped steps
                unframed := only.unframed
                begun := fun closed => by cases closed
                all := only.all
                within := only.within }
      | _ => exact ⟨only.endless, only.unframed, only.begun, only.all, only.within⟩

theorem onlyCase_zero : OnlyCase job Tally.zero :=
  ⟨fun _ => rfl, fun _ => rfl, fun isOpen => (by cases isOpen), rfl, Nat.zero_le _⟩

/-- The frames are counted as asked for when no second case begins. -/
theorem frame_budget_of_only_case (frames : 0 < job.maxFrame)
    (single : job.numberOfRuns ≤ first ∨ job.stepped = [])
    (admitted : ((simulation job).restrict (Undisturbed job)).Admits (.start first) inputs) :
    FrameBudget job.maxFrame.toNat ((simulation job).exec (.start first) inputs).history := by
  intro earlier during later split same
  have sound := sound_of_undisturbed admitted
  have initially : (Tally.protocol job first false).Admits Tally.zero
      (earlier ++ .sent .initCase :: during) := by
    have all := sound.admitted
    rw [split, ← List.cons_append, ← List.append_assoc, System.admits_append] at all
    exact all.1
  have only : OnlyCase job (Tally.ofHistory (earlier ++ .sent .initCase :: during)) :=
    (Tally.protocol job first false).invariant
      (fun _ _ only rule => only.note frames single rule) onlyCase_zero initially
  have counted := Tally.caseFrames_ofHistory earlier during same
  have sent : (Tally.ofHistory (earlier ++ .sent .initCase :: during)).startFrame =
      during.count (.sent .startFrame) := only.all.symm.trans counted
  have within := only.within
  rw [sent] at within
  refine ⟨within, ?_⟩
  intro ends
  obtain ⟨rest, rfl⟩ := List.head?_eq_some_iff.mp ends
  have rule : Tally.Rule job first false
      (Tally.ofHistory (earlier ++ .sent .initCase :: during)) (.sent .endCase) :=
    sound.rule (by rw [split, List.append_assoc, List.cons_append])
  obtain ⟨-, impossible | ⟨-, spent⟩⟩ := rule
  · cases impossible
  · rw [sent] at spent
    rw [← spent, UInt32.toNat_ofNat_of_lt' (Nat.lt_of_le_of_lt within job.maxFrame.toNat_lt)]

end Budget

namespace OneModel

/-- One stepped model, of which one frame for each case is asked. -/
def job (numberOfRuns : Int) : Job where
  peerTable := [⟨7, 10⟩]
  modelId := 1
  separateAdvanceTime := false
  startFrameHz := 0
  maxFrame := 1
  numberOfRuns := numberOfRuns

def oneCase : List Input :=
  [.startup true, .initCaseComplete 7, .endFrame 7, .endCaseComplete 7]

theorem single_case_has_its_frame :
    FrameBudget 1 ((simulation (job 1)).exec (.start 1) oneCase).history :=
  have admitted : ((simulation (job 1)).restrict (Undisturbed (job 1))).Admits (.start 1)
      oneCase := by decide
  frame_budget_of_only_case (by decide) (.inl (by decide)) admitted

/-- In the second case the counter has passed the limit. -/
def twoCases : List Input := oneCase ++ [.initCaseComplete 7, .endFrame 7]

theorem frame_budget_fails :
    ¬ ∀ (job : Job) (first : Int) (inputs : List Input), 0 < job.maxFrame →
      ((simulation job).restrict (Undisturbed job)).Admits (.start first) inputs →
        FrameBudget job.maxFrame.toNat ((simulation job).exec (.start first) inputs).history := by
  intro claim
  have budget := claim (job 2) 1 twoCases (by decide) (by decide)
  have exceeded := budget
    [.received (.startup true), .sent .logEventChannelStatus, .sent .initCase,
      .received (.initCaseComplete 7), .initialized, .sent (.schedule .watchdog),
      .sent .startFrame, .received (.endFrame 7), .sent .endCase, .received (.endCaseComplete 7)]
    [.received (.initCaseComplete 7), .initialized, .sent (.schedule .watchdog),
      .sent .startFrame, .received (.endFrame 7), .sent .startFrame] [] (by decide) (by decide)
  exact absurd exceeded.1 (by decide)

end OneModel

end Nise.Utilities
