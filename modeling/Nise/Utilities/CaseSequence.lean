import Nise.Utilities.FramedRuns

/-!
# Cases of a run

The end of a case stops its frames, and the cases of a run follow each other, as long as no
end of engagement ends a case while frames are under way.  The controller does not see to
that itself: an end of engagement sends `EndCase` whatever the state of the case is.
-/

namespace Nise.Utilities

open Nise.Lib

/-! ## After the end of a case -/

/-- After an `EndCase`, no frame, no advance of the time and no other `EndCase` before the next
case is initialized. -/
def QuietAfterEndCase (history : List Entry) : Prop :=
  ∀ before during after output,
    history = before ++ .sent .endCase :: (during ++ .sent output :: after) →
      output = .startFrame ∨ output = .advanceTime ∨ output = .endCase → .initialized ∈ during

section Quiet

variable {job : Job} {first : Int} {engages : Bool} {inputs : List Input}

/-- Frames, advances of the time and ends of a case belong to an open case. -/
theorem Tally.Rule.caseOpen {tally : Tally} {output : Output}
    (rule : Tally.Rule job first engages tally (.sent output))
    (steps : output = .startFrame ∨ output = .advanceTime ∨ output = .endCase) :
    tally.caseOpen = true := by
  rcases steps with rfl | rfl | rfl
  · exact rule.1
  · exact rule.1
  · exact rule.1

theorem quiet_after_endCase
    (admitted : ((simulation job).restrict (Disciplined job)).Admits (.start first) inputs) :
    QuietAfterEndCase ((simulation job).exec (.start first) inputs).history := by
  intro before during after output split steps
  by_contra uninitialized
  rw [← List.cons_append, ← List.append_assoc] at split
  have isOpen := ((sound_of_disciplined admitted).rule split).caseOpen steps
  rw [Tally.caseOpen_ofHistory before during uninitialized] at isOpen
  cases isOpen

end Quiet

namespace TwoCases

/-- One model with frames as asked for by `rate`, and two cases. -/
def job (rate : Int) : Job where
  peerTable := [⟨7, rate⟩]
  modelId := 1
  separateAdvanceTime := false
  startFrameHz := 0
  maxFrame := 0
  numberOfRuns := 2

/-- The engagement of each case ends. -/
def engagements : List Input :=
  [.startup true, .initCaseComplete 7, .registerEndEngage 7, .endEngagement 7,
    .endCaseComplete 7, .initCaseComplete 7, .registerEndEngage 7, .endEngagement 7,
    .endCaseComplete 7]

theorem quiet_without_frames :
    QuietAfterEndCase ((simulation (job 0)).exec (.start 1) engagements).history :=
  have admitted : ((simulation (job 0)).restrict (Disciplined (job 0))).Admits (.start 1)
      engagements := by decide
  quiet_after_endCase admitted

/-- The frame that is under way when the engagement ends is followed by another one. -/
def frameUnderWay : List Input :=
  [.startup true, .initCaseComplete 7, .endEngagement 7, .endFrame 7]

theorem quiet_after_endCase_fails :
    ¬ ∀ (job : Job) (first : Int) (inputs : List Input),
      ((simulation job).restrict (Run.Answers job)).Admits (.start first) inputs →
        QuietAfterEndCase ((simulation job).exec (.start first) inputs).history := by
  intro claim
  have quiet := claim (job 10) 1 frameUnderWay (by decide)
  have initialized := quiet
    [.received (.startup true), .sent .logEventChannelStatus, .sent .initCase,
      .received (.initCaseComplete 7), .initialized, .sent (.schedule .watchdog),
      .sent .startFrame, .received (.endEngagement 7), .sent .dispatcherCommand]
    [.received (.endFrame 7)] [] .startFrame (by decide) (.inl rfl)
  exact absurd initialized (by decide)

end TwoCases

/-! ## The sequence of the cases -/

/-- Every case ends once: the `EndCase` of a case comes after its `InitCase`, and before the
next one. -/
def OncePerCase (history : List Entry) : Prop :=
  ∀ n < history.length, history[n]? = some (.sent .endCase) →
    (history.take n).count (.sent .endCase) + 1 = (history.take n).count (.sent .initCase)

instance : DecidablePred OncePerCase := fun history =>
  inferInstanceAs (Decidable (∀ n < history.length, history[n]? = some (.sent .endCase) →
    (history.take n).count (.sent .endCase) + 1 = (history.take n).count (.sent .initCase)))

/-- The number of cases of a run that begins with the case `first`. -/
def Job.cases (job : Job) (first : Int) : Int := max 1 (job.numberOfRuns - first + 1)

/-- All peers have completed the ends of all cases that have begun. -/
def AllCasesEnded (job : Job) (history : List Entry) : Prop :=
  history.count (.sent .endCase) = history.count (.sent .initCase) ∧
    ∀ peerId ∈ job.peers,
      history.count (.received (.endCaseComplete peerId)) = history.count (.sent .endCase)

/-- Cases follow each other, frames follow the initialization of their case, and the run ends
after the last case. -/
structure CasesInSequence (job : Job) (first : Int) (history : List Entry) : Prop where
  nextCase : ∀ before after, history = before ++ .sent .initCase :: after →
    AllCasesEnded job before
  frames : ∀ before after output, output = .startFrame ∨ output = .advanceTime →
    history = before ++ .sent output :: after →
      ∀ peerId ∈ job.peers, before.count (.received (.initCaseComplete peerId)) =
        before.count (.sent .initCase)
  atMost : (history.count (.sent .initCase) : Int) ≤ job.cases first
  lastCase : ∀ before after, history = before ++ .sent .endRun :: after →
    AllCasesEnded job before ∧ (before.count (.sent .initCase) : Int) = job.cases first
  once : history.count (.sent .endRun) ≤ 1
  complete : 0 < history.count (.sent .initCase) → AllCasesEnded job history →
    (history.count (.sent .initCase) : Int) = job.cases first ∧
      history.count (.sent .endRun) = 1

section Sequence

variable {job : Job} {first : Int} {engages : Bool}

theorem allCasesEnded_of_rule {before : List Entry}
    (ended : (Tally.ofHistory before).CasesEnded job) : AllCasesEnded job before := by
  rw [Tally.ofHistory_eq] at ended
  exact ⟨ended.1.symm, ended.2⟩

theorem Tally.Idle.initialized_ofHistory {before : List Entry}
    (idle : (Tally.ofHistory before).Idle job) :
    ∀ peerId ∈ job.peers, before.count (.received (.initCaseComplete peerId)) =
      before.count (.sent .initCase) := by
  rw [Tally.ofHistory_eq] at idle
  exact idle.initialized

/-- A run whose cases have all ended is over. -/
theorem Fits.finished {phase : Phase} {controller : FramedController} {tally : Tally}
    (fits : Fits job first phase controller tally) (begun : 0 < tally.initCase)
    (ended : tally.CasesEnded job) : phase = .finished := by
  have cases := fits.cases
  have same := ended.1
  cases phase with
  | idle =>
      have none := fits.first_case.mpr rfl
      omega
  | ending =>
      have collecting : controller.endcaseCompleteSet.Collecting job.peers tally.endCase
        tally.endCaseComplete := fits.ends
      obtain ⟨peerId, member, due⟩ := (fits.awaiting rfl).exists_due collecting
      have answered := ended.2 peerId member
      omega
  | finished => rfl
  | _ =>
      change tally.initCase = tally.endCase + 1 at cases
      omega

/-- How many cases the protocol allows, and how often the run ends. -/
structure CasesCounted (job : Job) (first : Int) (tally : Tally) : Prop where
  atMost : (tally.initCase : Int) ≤ job.cases first
  ends : tally.endRun = 0 ∨ tally.endRun = 1 ∧ (tally.initCase : Int) = job.cases first

theorem CasesCounted.note {tally : Tally} {entry : Entry}
    (counted : CasesCounted job first tally)
    (rule : Tally.Rule job first engages tally entry) :
    CasesCounted job first (tally.note entry) := by
  cases entry with
  | received input => cases input <;> exact ⟨counted.atMost, counted.ends⟩
  | initialized => exact ⟨counted.atMost, counted.ends⟩
  | sent output =>
      cases output with
      | initCase =>
          obtain ⟨running, -, further⟩ := rule
          refine ⟨?_, .inl running⟩
          change ((tally.initCase + 1 : Nat) : Int) ≤ max 1 (job.numberOfRuns - first + 1)
          omega
      | endRun =>
          obtain ⟨running, -, -, all⟩ := rule
          exact ⟨counted.atMost, .inr ⟨congrArg (· + 1) running, all⟩⟩
      | _ => exact ⟨counted.atMost, counted.ends⟩

theorem casesCounted_zero : CasesCounted job first Tally.zero :=
  ⟨Int.le_trans (by decide) (Int.le_max_left _ _), .inl rfl⟩

theorem Sound.casesCounted {run : Run} (sound : Sound job first engages run) :
    CasesCounted job first run.tally :=
  (Tally.protocol job first engages).invariant (fun _ _ counted rule => counted.note rule)
    casesCounted_zero sound.admitted

theorem Sound.casesInSequence {run : Run} (sound : Sound job first engages run) :
    CasesInSequence job first run.history := by
  have counted := sound.casesCounted
  have tallied : run.tally = Tally.ofHistory run.history := rfl
  rw [Tally.ofHistory_eq] at tallied
  rw [tallied] at counted
  refine ⟨?_, ?_, counted.atMost, ?_, ?_, ?_⟩
  · intro before after split
    exact allCasesEnded_of_rule (sound.rule split).2.1
  · rintro before after output (rfl | rfl) split
    · exact (sound.rule split).2.1.initialized_ofHistory
    · exact (sound.rule split).2.initialized_ofHistory
  · intro before after split
    obtain ⟨-, ended, -, all⟩ := sound.rule split
    rw [Tally.ofHistory_eq] at all
    exact ⟨allCasesEnded_of_rule ended, all⟩
  · rcases counted.ends with none | ⟨one, -⟩
    · exact Nat.le_trans (Nat.le_of_eq none) (Nat.zero_le 1)
    · exact Nat.le_of_eq one
  · intro begun ended
    obtain ⟨phase, fits⟩ := sound.fits
    have finished : phase = .finished := by
      apply fits.finished
      · rw [tallied]
        exact begun
      · rw [tallied]
        exact ⟨ended.1.symm, ended.2⟩
    have run_ended := fits.endRun
    rw [tallied, if_pos finished] at run_ended
    rcases counted.ends with none | ⟨-, all⟩
    · exact absurd (none.symm.trans run_ended) (by decide)
    · exact ⟨all, run_ended⟩

end Sequence

section Cases

variable {job : Job} {first : Int} {inputs : List Input}

/-- The peers that complete every case once keep the cases in sequence, as long as they answer
for every frame once and engagements end in order. -/
theorem cases_in_sequence
    (admitted : (((simulation job).restrict (Run.AnswersCases job)).restrict
      (fun run input => run.AnswersFrames job input ∧ run.Orderly job input)).Admits
        (.start first) inputs) :
    CasesInSequence job first ((simulation job).exec (.start first) inputs).history := by
  have disciplined : ((simulation job).restrict (Disciplined job)).Admits (.start first)
      inputs := by
    rw [System.restrict_restrict] at admitted
    refine admitted.weaken ?_
    rintro run input - ⟨cases, frames, orderly⟩
    exact ⟨⟨cases, frames⟩, orderly⟩
  exact (sound_of_disciplined disciplined).casesInSequence

end Cases

namespace TwoCases

theorem cases_without_frames :
    CasesInSequence (job 0) 1 ((simulation (job 0)).exec (.start 1) engagements).history :=
  have admitted : (((simulation (job 0)).restrict (Run.AnswersCases (job 0))).restrict
      (fun run input => run.AnswersFrames (job 0) input ∧ run.Orderly (job 0) input)).Admits
        (.start 1) engagements := by decide
  cases_in_sequence admitted

/-- The second case is stepped before it is initialized. -/
def steppedTooEarly : List Input :=
  [.startup true, .initCaseComplete 7, .endEngagement 7, .endCaseComplete 7, .endFrame 7,
    .initCaseComplete 7, .endEngagement 7, .endCaseComplete 7]

/-- What has happened when that frame is started. -/
def beforeEarlyFrame : List Entry :=
  [.received (.startup true), .sent .logEventChannelStatus, .sent .initCase,
    .received (.initCaseComplete 7), .initialized, .sent (.schedule .watchdog),
    .sent .startFrame, .received (.endEngagement 7), .sent .dispatcherCommand, .sent .endCase,
    .received (.endCaseComplete 7), .sent .initCase, .received (.endFrame 7)]

def afterEarlyFrame : List Entry :=
  [.received (.initCaseComplete 7), .initialized, .sent (.schedule .watchdog),
    .sent .startFrame, .received (.endEngagement 7), .sent .dispatcherCommand, .sent .endCase,
    .received (.endCaseComplete 7), .sent .endRun]

theorem cases_in_sequence_fails :
    ¬ ∀ (job : Job) (first : Int) (inputs : List Input),
      ((simulation job).restrict (Run.Answers job)).Admits (.start first) inputs →
        OncePerCase ((simulation job).exec (.start first) inputs).history →
          CasesInSequence job first ((simulation job).exec (.start first) inputs).history := by
  intro claim
  have sequence := claim (job 10) 1 steppedTooEarly (by decide) (by decide +kernel)
  have completed := sequence.frames beforeEarlyFrame afterEarlyFrame .startFrame (.inl rfl)
    (by decide) 7 (by decide)
  exact absurd completed (by decide)

end TwoCases

end Nise.Utilities
