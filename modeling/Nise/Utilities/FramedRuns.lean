import Nise.Utilities.FramedPhases

/-!
# Runs of the framed controller

The messages of the peers, the timers and the requests to pause come in any order.  As long
as the peers answer every request at most once, and the end of an engagement does not end a
case behind the back of the frames, every history of the controller is a run of the protocol.
-/

namespace Nise.Utilities

open Nise.Lib

structure Run where
  controller : FramedController
  history : List Entry

namespace Run

def start (caseNumber : Int) : Run := ⟨.init caseNumber, []⟩

variable (job : Job) (run : Run)

def tally : Tally := Tally.ofHistory run.history

def step (input : Input) : Run :=
  let out := run.controller.handle job input
  ⟨out.1, run.history ++ .received input :: out.2⟩

/-- The startup timer expires only when it is scheduled; nothing else is asked for. -/
def Expires : Input → Prop
  | .startup _ => run.controller.startTimer = true
  | _ => True

/-- A peer completes only a case that it has been asked to begin or to end. -/
def AnswersCases : Input → Prop
  | .initCaseComplete peerId =>
      peerId ∈ job.peers ∧ run.tally.initCaseComplete peerId < run.tally.initCase
  | .endCaseComplete peerId =>
      peerId ∈ job.peers ∧ run.tally.endCaseComplete peerId < run.tally.endCase
  | _ => True

/-- A stepped peer ends only a frame, or an advance of the time, that it has been asked for. -/
def AnswersFrames : Input → Prop
  | .timeAdvanced peerId =>
      peerId ∈ job.stepped ∧ run.tally.timeAdvanced peerId < run.tally.advanceTime
  | .endFrame peerId =>
      peerId ∈ job.stepped ∧ run.tally.endFrame peerId < run.tally.startFrame
  | _ => True

/-- An end of engagement after which nobody is left to end it comes in an open case, and only
in a job in which no peer is stepped. -/
def Orderly : Input → Prop
  | .endEngagement peerId =>
      run.controller.endEngagementSet.filter (· ≠ peerId) ≠ [] ∨
        job.stepped = [] ∧ run.tally.caseOpen = true
  | _ => True

/-- The peers answer every request at most once. -/
def Answers (input : Input) : Prop :=
  run.AnswersCases job input ∧ run.AnswersFrames job input

instance : DecidablePred run.Expires
  | .startup _ => inferInstanceAs (Decidable (run.controller.startTimer = true))
  | .watchdog | .frame | .monteCarloInitCase | .initCaseComplete _ | .endFrame _
  | .endCaseComplete _ | .endRunComplete _ | .timeAdvanced _ | .registerEndEngage _
  | .endEngagement _ | .pauseSimulation | .startSimulation => isTrue trivial

instance : DecidablePred (run.AnswersCases job)
  | .initCaseComplete _ => inferInstanceAs (Decidable (_ ∧ _))
  | .endCaseComplete _ => inferInstanceAs (Decidable (_ ∧ _))
  | .startup _ | .watchdog | .frame | .monteCarloInitCase | .endFrame _ | .endRunComplete _
  | .timeAdvanced _ | .registerEndEngage _ | .endEngagement _ | .pauseSimulation
  | .startSimulation => isTrue trivial

instance : DecidablePred (run.AnswersFrames job)
  | .timeAdvanced _ => inferInstanceAs (Decidable (_ ∧ _))
  | .endFrame _ => inferInstanceAs (Decidable (_ ∧ _))
  | .startup _ | .watchdog | .frame | .monteCarloInitCase | .initCaseComplete _
  | .endCaseComplete _ | .endRunComplete _ | .registerEndEngage _ | .endEngagement _
  | .pauseSimulation | .startSimulation => isTrue trivial

instance : DecidablePred (run.Orderly job)
  | .endEngagement _ => inferInstanceAs (Decidable (_ ∨ _))
  | .startup _ | .watchdog | .frame | .monteCarloInitCase | .initCaseComplete _ | .endFrame _
  | .endCaseComplete _ | .endRunComplete _ | .timeAdvanced _ | .registerEndEngage _
  | .pauseSimulation | .startSimulation => isTrue trivial

instance : DecidablePred (run.Answers job) := fun input =>
  inferInstanceAs (Decidable (run.AnswersCases job input ∧ run.AnswersFrames job input))

end Run

/-- All runs of a job: any message at any time. -/
def simulation (job : Job) : System Run Input where
  step run input := run.step job input
  guard run input := run.Expires input

instance (job : Job) (run : Run) (input : Input) : Decidable ((simulation job).guard run input) :=
  inferInstanceAs (Decidable (run.Expires input))

/-- The peers answer at most once, and no end of engagement is reported. -/
def Undisturbed (job : Job) (run : Run) (input : Input) : Prop :=
  run.Answers job input ∧ input.endsEngagement = false

/-- The peers answer at most once, and engagements end in order. -/
def Disciplined (job : Job) (run : Run) (input : Input) : Prop :=
  run.Answers job input ∧ run.Orderly job input

instance (job : Job) (run : Run) : DecidablePred (Undisturbed job run) := fun input =>
  inferInstanceAs (Decidable (run.Answers job input ∧ input.endsEngagement = false))

instance (job : Job) (run : Run) : DecidablePred (Disciplined job run) := fun input =>
  inferInstanceAs (Decidable (run.Answers job input ∧ run.Orderly job input))

/-! ## Every disciplined run follows the protocol -/

section Runs

variable {job : Job} {first : Int} {engages : Bool}

theorem fits_start (job : Job) (first : Int) :
    Fits job first .idle (.init first) Tally.zero where
  startTimer _ := rfl
  ready flag := by cases flag
  caseOpen := rfl
  init := Barrier.settled_fresh fun _ _ => rfl
  frames := Barrier.settled_fresh fun _ _ => rfl
  ends := Barrier.settled_fresh fun _ _ => rfl
  advances _ _ := .inl rfl
  paired _ _ := rfl
  counted := rfl
  unspent unstarted := by cases unstarted
  inhabited inCase := by cases inCase
  awaiting ending := by cases ending
  cases := rfl
  first_case := ⟨fun _ => rfl, fun _ => rfl⟩
  endRun := rfl
  caseNumber := (Int.add_zero first).symm
  further several := by cases several

/-- One input to a controller that fits: what one step can do. -/
theorem Fits.handle {phase : Phase} {run : Run} {input : Input}
    (fits : Fits job first phase run.controller run.tally) (expires : run.Expires input)
    (disciplined : Disciplined job run input)
    (engaging : engages = true ∨ input.endsEngagement = false) :
    Follows job first engages (run.tally.note (.received input))
      (run.controller.handle job input) := by
  obtain ⟨⟨cases, frames⟩, orderly⟩ := disciplined
  cases input with
  | startup peersStarted => exact fits.startup expires peersStarted
  | watchdog => exact fits.watchdog
  | frame => exact fits.frame
  | monteCarloInitCase =>
      exact Fits.follows (fits.congr ⟨rfl, id, rfl, rfl, rfl, rfl, rfl, rfl⟩) rfl trivial
  | initCaseComplete peerId => exact fits.initCaseComplete cases.1 cases.2
  | endFrame peerId => exact fits.endFrame frames.1 frames.2
  | endCaseComplete peerId => exact fits.endCaseComplete cases.1 cases.2
  | endRunComplete peerId => exact fits.endRunComplete peerId
  | timeAdvanced peerId => exact fits.timeAdvanced frames.1 frames.2
  | registerEndEngage peerId =>
      exact Fits.follows (fits.congr ⟨rfl, id, rfl, rfl, rfl, rfl, rfl, rfl⟩) rfl trivial
  | endEngagement peerId =>
      rcases engaging with engaging | undisturbed
      · rw [engaging]
        exact fits.endEngagement orderly
      · cases undisturbed
  | pauseSimulation =>
      exact Fits.follows (fits.congr ⟨rfl, id, rfl, rfl, rfl, rfl, rfl, rfl⟩) rfl trivial
  | startSimulation => exact fits.startSimulation

/-- The controller fits its history, which obeys the protocol. -/
structure Sound (job : Job) (first : Int) (engages : Bool) (run : Run) : Prop where
  fits : ∃ phase, Fits job first phase run.controller run.tally
  admitted : (Tally.protocol job first engages).Admits Tally.zero run.history

theorem Sound.step {run : Run} {input : Input} (sound : Sound job first engages run)
    (expires : run.Expires input) (disciplined : Disciplined job run input)
    (engaging : engages = true ∨ input.endsEngagement = false) :
    Sound job first engages (run.step job input) := by
  obtain ⟨phase, fits⟩ := sound.fits
  obtain ⟨⟨next, after⟩, sent⟩ := fits.handle expires disciplined engaging
  constructor
  · refine ⟨next, ?_⟩
    have noted : (run.step job input).tally =
        (run.controller.handle job input).2.foldl Tally.note
          (run.tally.note (.received input)) :=
      Tally.ofHistory_append run.history (.received input :: (run.controller.handle job input).2)
    rw [noted]
    exact after
  · refine (System.admits_append _ _ _ _).mpr ⟨sound.admitted, ?_, sent⟩
    cases input <;> trivial

theorem sound_start (job : Job) (first : Int) (engages : Bool) :
    Sound job first engages (.start first) :=
  ⟨⟨.idle, fits_start job first⟩, trivial⟩

theorem sound_of_disciplined {inputs : List Input}
    (admitted : ((simulation job).restrict (Disciplined job)).Admits (.start first) inputs) :
    Sound job first true ((simulation job).exec (.start first) inputs) := by
  refine ((simulation job).restrict (Disciplined job)).invariant ?_
    (sound_start job first true) admitted
  intro run input sound guarded
  exact sound.step guarded.1 guarded.2 (.inl rfl)

theorem Undisturbed.disciplined {run : Run} {input : Input}
    (undisturbed : Undisturbed job run input) : Disciplined job run input := by
  refine ⟨undisturbed.1, ?_⟩
  cases input with
  | endEngagement peerId => cases undisturbed.2
  | _ => trivial

theorem sound_of_undisturbed {inputs : List Input}
    (admitted : ((simulation job).restrict (Undisturbed job)).Admits (.start first) inputs) :
    Sound job first false ((simulation job).exec (.start first) inputs) := by
  refine ((simulation job).restrict (Undisturbed job)).invariant ?_
    (sound_start job first false) admitted
  intro run input sound guarded
  exact sound.step guarded.1 guarded.2.disciplined (.inr guarded.2.2)

/-- What the protocol asks for held when a message was sent. -/
theorem Sound.rule {run : Run} (sound : Sound job first engages run) {before after : List Entry}
    {entry : Entry} (split : run.history = before ++ entry :: after) :
    Tally.Rule job first engages (Tally.ofHistory before) entry := by
  have admitted := sound.admitted
  rw [split, System.admits_append] at admitted
  exact admitted.2.1

end Runs

end Nise.Utilities
