import Nise.Lib.Run
import Nise.Utilities.TimedController

/-!
# The step budget of the timed controller

After the last `InitCaseComplete` a recurring timer sends the frames.  The case is ended by the
timer, when all frames have been sent, or by the last of the models that registered for the end
of the engagement.  Only the timer looks at the flag that `EndCase` has been sent, and neither
of the two sets the flag that would stop the frames.
-/

namespace Nise.Utilities

open Nise.Lib

inductive StepInput where
  | timeout (peersStarted : Bool)
  | initCaseComplete (peerId : UInt32)
  | registerEndEngage (peerId : UInt32)
  | endEngagement (peerId : UInt32)
  deriving DecidableEq, Repr

/-- What comes after the barrier. -/
def StepInput.later : StepInput → Bool
  | .initCaseComplete _ => false
  | _ => true

namespace TimedController

variable (job : TimedJob) (controller : TimedController)

def react : StepInput → TimedController × List Output
  | .timeout peersStarted => controller.handleTimeout job peersStarted
  | .initCaseComplete peerId => controller.doInitCaseComplete peerId
  | .registerEndEngage peerId => controller.doRegisterEndEngage peerId
  | .endEngagement peerId => controller.doEndEngagement peerId

/-- The message leaves nobody who is registered for the end of the engagement. -/
def closes : StepInput → Bool
  | .endEngagement peerId => controller.endEngagementSet.filter (· ≠ peerId) == []
  | _ => false

/-- The controller right after the last `InitCaseComplete`, whatever has come before it. -/
def Initialized : Prop :=
  ∃ (endGame : Bool) (before : List StepInput) (peerId : UInt32),
    let waiting := before.foldl (fun waiting input => (waiting.react job input).1)
      (init job endGame)
    waiting.timeoutAction = .startSimulation ∧ controller = (waiting.doInitCaseComplete peerId).1 ∧
      controller.timeoutAction = .startNewFrame

/-- Nothing has been sent for the steps. -/
structure Fresh : Prop where
  action : controller.timeoutAction = .startNewFrame
  frames : controller.frameCountSent = 0
  going : controller.endGame = false
  unsent : controller.sentEndCase = false

/-- Before the barrier the timer sends no frames. -/
theorem unstepped_react {controller : TimedController}
    (unstepped : controller.timeoutAction = .startSimulation →
      controller.frameCountSent = 0 ∧ controller.sentEndCase = false)
    (input : StepInput) (still : (controller.react job input).1.timeoutAction = .startSimulation) :
    (controller.react job input).1.frameCountSent = 0 ∧
      (controller.react job input).1.sentEndCase = false := by
  cases input with
  | timeout peersStarted =>
      cases action : controller.timeoutAction with
      | startSimulation =>
          have simulation : controller.react job (.timeout peersStarted) =
              controller.startSimulation job peersStarted := by
            simp only [react, handleTimeout, action]
          rw [simulation, startSimulation]
          cases peersStarted with
          | true => exact unstepped action
          | false => exact unstepped action
      | startNewFrame =>
          have frame : controller.react job (.timeout peersStarted) =
              controller.startNewFrame job := by
            simp only [react, handleTimeout, action]
          have same : (controller.startNewFrame job).1.timeoutAction =
              controller.timeoutAction := by
            rw [startNewFrame]
            split
            · split <;> rfl
            · split <;> rfl
          rw [frame, same, action] at still
          cases still
  | initCaseComplete peerId =>
      simp only [react, doInitCaseComplete] at still ⊢
      split at still
      · cases still
      · next more =>
          rw [if_neg more]
          exact unstepped still
  | registerEndEngage peerId => exact unstepped still
  | endEngagement peerId => exact unstepped still

theorem unstepped_foldl (inputs : List StepInput) {controller : TimedController}
    (unstepped : controller.timeoutAction = .startSimulation →
      controller.frameCountSent = 0 ∧ controller.sentEndCase = false) :
    let last := inputs.foldl (fun waiting input => (waiting.react job input).1) controller
    last.timeoutAction = .startSimulation → last.frameCountSent = 0 ∧ last.sentEndCase = false := by
  induction inputs generalizing controller with
  | nil => exact unstepped
  | cons input rest ih => exact ih (unstepped_react job unstepped input)

theorem Initialized.fresh {job : TimedJob} {controller : TimedController}
    (initialized : controller.Initialized job) : controller.Fresh := by
  obtain ⟨endGame, before, peerId, waiting, rfl, started⟩ := initialized
  obtain ⟨frames, unsent⟩ := unstepped_foldl job before (fun _ => ⟨rfl, rfl⟩) waiting
  simp only [doInitCaseComplete] at started ⊢
  split at started
  · next last =>
      rw [if_pos last]
      exact ⟨rfl, frames, rfl, unsent⟩
  · rw [waiting] at started
    cases started

end TimedController

/-! ## Runs -/

/-- A controller with what it has sent since the barrier, the number of ticks, and whether an
`EndEngagement` has come, and one that left nobody registered. -/
structure StepRun where
  controller : TimedController
  sent : List Output
  ticks : Nat
  engaged : Bool
  closed : Bool

namespace StepRun

variable (job : TimedJob) (run : StepRun)

def start (controller : TimedController) : StepRun := ⟨controller, [], 0, false, false⟩

def step (input : StepInput) : StepRun where
  controller := (run.controller.react job input).1
  sent := run.sent ++ (run.controller.react job input).2
  ticks :=
    match input with
    | .timeout _ => run.ticks + 1
    | _ => run.ticks
  engaged :=
    match input with
    | .endEngagement _ => true
    | _ => run.engaged
  closed := run.closed || run.controller.closes input

/-- At most as many frames as there are steps, at most one `EndCase` and no frame after it; and
a frame for every tick, up to the number of steps, as long as no engagement ends. -/
structure Budgeted : Prop where
  frames : (run.sent.count .startFrame : Int) ≤ job.numberOfSteps
  once : run.sent.count .endCase ≤ 1
  ordered : run.sent.Pairwise fun earlier later => ¬ (earlier = .endCase ∧ later = .startFrame)
  exactly : run.engaged = false →
    (run.sent.count .startFrame : Int) = min (run.ticks : Int) job.numberOfSteps

/-- The timer has nothing to do after the engagement has ended, and the engagement ends once,
before the timer has ended the case. -/
def Timely : StepInput → Prop
  | .timeout _ => run.closed = false
  | .endEngagement peerId => run.controller.closes (.endEngagement peerId) = true →
      run.closed = false ∧ (run.ticks : Int) ≤ job.numberOfSteps
  | _ => True

instance : DecidablePred (run.Timely job)
  | .timeout _ => inferInstanceAs (Decidable (_ = _))
  | .endEngagement _ => inferInstanceAs (Decidable (_ → _))
  | .initCaseComplete _ | .registerEndEngage _ => isTrue trivial

end StepRun

/-- The runs after the barrier. -/
def stepRuns (job : TimedJob) : System StepRun StepInput where
  step run input := run.step job input
  guard _ input := input.later = true

instance (job : TimedJob) (run : StepRun) (input : StepInput) :
    Decidable ((stepRuns job).guard run input) :=
  inferInstanceAs (Decidable (_ = _))

/-! ## What one input sends -/

namespace StepRun

variable {job : TimedJob} {run : StepRun}

/-- The invariant of a run whose inputs are all in time. -/
structure Standing (job : TimedJob) (run : StepRun) : Prop where
  action : run.controller.timeoutAction = .startNewFrame
  going : run.controller.endGame = false
  counted : run.controller.frameCountSent = min (run.ticks : Int) job.numberOfSteps
  flagged : run.controller.sentEndCase = decide (job.numberOfSteps < run.ticks)
  frames : (run.sent.count .startFrame : Int) = min (run.ticks : Int) job.numberOfSteps
  ends : run.sent.count .endCase =
    if run.closed = true ∨ job.numberOfSteps < run.ticks then 1 else 0
  ordered : run.sent.Pairwise fun earlier later => ¬ (earlier = .endCase ∧ later = .startFrame)
  early : run.closed = true → (run.ticks : Int) ≤ job.numberOfSteps

theorem Standing.budgeted (standing : run.Standing job) : run.Budgeted job := by
  refine ⟨?_, ?_, standing.ordered, fun _ => standing.frames⟩
  · rw [standing.frames]
    exact Int.min_le_right _ _
  · rw [standing.ends]
    split <;> omega

theorem standing_start {controller : TimedController} (fresh : controller.Fresh)
    (positive : 1 ≤ job.numberOfSteps) : (start controller).Standing job := by
  have least : min (((0 : Nat) : Int)) job.numberOfSteps = 0 := by omega
  have under : ¬ job.numberOfSteps < ((0 : Nat) : Int) := by omega
  refine ⟨fresh.action, fresh.going, ?_, ?_, ?_, ?_, List.Pairwise.nil, ?_⟩
  · exact fresh.frames.trans least.symm
  · exact fresh.unsent.trans (decide_eq_false under).symm
  · exact least.symm
  · rw [if_neg]
    · rfl
    · exact not_or.mpr ⟨Bool.false_ne_true, under⟩
  · intro closed
    cases closed

/-- What a tick sends: a frame, the `EndCase` behind the last one, or nothing. -/
theorem Standing.tick_cases (standing : run.Standing job) (positive : 1 ≤ job.numberOfSteps)
    (peersStarted : Bool) :
    ((run.ticks : Int) < job.numberOfSteps ∧
      run.controller.react job (.timeout peersStarted) =
        ({ run.controller with frameCountSent := run.controller.frameCountSent + 1 },
          [.startFrame])) ∨
    ((run.ticks : Int) = job.numberOfSteps ∧
      run.controller.react job (.timeout peersStarted) =
        ({ run.controller with sentEndCase := true }, [.endCase])) ∨
    (job.numberOfSteps < run.ticks ∧
      run.controller.react job (.timeout peersStarted) = (run.controller, [])) := by
  have frame : run.controller.react job (.timeout peersStarted) =
      run.controller.startNewFrame job := by
    simp only [TimedController.react, TimedController.handleTimeout, standing.action]
  have counted := standing.counted
  rw [frame, TimedController.startNewFrame]
  rcases Int.lt_trichotomy run.ticks job.numberOfSteps with less | equal | more
  · have unfinished : ¬ (job.numberOfSteps ≤ run.controller.frameCountSent ∧
        run.controller.frameCountSent ≠ 0) := by omega
    rw [if_neg unfinished, if_pos standing.going]
    exact .inl ⟨less, rfl⟩
  · have finished : job.numberOfSteps ≤ run.controller.frameCountSent ∧
        run.controller.frameCountSent ≠ 0 := by omega
    have unsent : run.controller.sentEndCase = false := by
      rw [standing.flagged, decide_eq_false_iff_not]
      omega
    rw [if_pos finished, if_pos unsent]
    exact .inr (.inl ⟨equal, rfl⟩)
  · have finished : job.numberOfSteps ≤ run.controller.frameCountSent ∧
        run.controller.frameCountSent ≠ 0 := by omega
    have sent : run.controller.sentEndCase = true := by
      rw [standing.flagged, decide_eq_true more]
    rw [if_pos finished, if_neg (Bool.not_eq_false _ ▸ sent)]
    exact .inr (.inr ⟨more, rfl⟩)

/-- The end of an engagement is the end of the case if nobody else is registered. -/
theorem react_endEngagement (controller : TimedController) (peerId : UInt32) :
    controller.react job (.endEngagement peerId) =
      ({ controller with
          endEngagementSet := controller.endEngagementSet.filter (· ≠ peerId) },
        if controller.closes (.endEngagement peerId) = true then [.endCase] else []) := by
  simp only [TimedController.react, TimedController.doEndEngagement, TimedController.closes,
    beq_iff_eq]

theorem ordered_concat {sent : List Output} {output : Output}
    (ordered : sent.Pairwise fun earlier later => ¬ (earlier = .endCase ∧ later = .startFrame))
    (fine : output = .startFrame → .endCase ∉ sent) :
    (sent ++ [output]).Pairwise fun earlier later =>
      ¬ (earlier = .endCase ∧ later = .startFrame) := by
  rw [List.pairwise_append]
  refine ⟨ordered, List.pairwise_singleton _ _, ?_⟩
  rintro earlier before later last ⟨rfl, rfl⟩
  exact fine (List.mem_singleton.mp last).symm before

theorem step_tick {peersStarted : Bool} {next : TimedController} {outputs : List Output}
    (reacts : run.controller.react job (.timeout peersStarted) = (next, outputs)) :
    run.step job (.timeout peersStarted) =
      ⟨next, run.sent ++ outputs, run.ticks + 1, run.engaged, run.closed⟩ := by
  simp only [step, reacts, TimedController.closes, Bool.or_false]

theorem step_endEngagement (run : StepRun) (peerId : UInt32) :
    run.step job (.endEngagement peerId) =
      ⟨{ run.controller with
          endEngagementSet := run.controller.endEngagementSet.filter (· ≠ peerId) },
        run.sent ++
          if run.controller.closes (.endEngagement peerId) = true then [.endCase] else [],
        run.ticks, true, run.closed || run.controller.closes (.endEngagement peerId)⟩ := by
  simp only [step, react_endEngagement]

theorem step_registerEndEngage (run : StepRun) (peerId : UInt32) :
    run.step job (.registerEndEngage peerId) =
      { run with controller := (run.controller.doRegisterEndEngage peerId).1 } := by
  simp only [step, TimedController.react, TimedController.doRegisterEndEngage, List.append_nil,
    TimedController.closes, Bool.or_false]

/-! ## Steps in time keep the invariant -/

theorem Standing.unended (standing : run.Standing job) (unclosed : run.closed = false)
    (early : (run.ticks : Int) ≤ job.numberOfSteps) : run.sent.count .endCase = 0 := by
  rw [standing.ends, if_neg]
  rintro (closed | late)
  · rw [unclosed] at closed
    cases closed
  · omega

theorem Standing.tick (standing : run.Standing job) (positive : 1 ≤ job.numberOfSteps)
    {peersStarted : Bool} (unclosed : run.closed = false) :
    (run.step job (.timeout peersStarted)).Standing job := by
  have unended : ¬ run.closed = true := Bool.not_eq_true _ ▸ unclosed
  have counted := standing.counted
  have frames := standing.frames
  have flagged := standing.flagged
  rcases standing.tick_cases positive peersStarted with
    ⟨less, reacts⟩ | ⟨equal, reacts⟩ | ⟨more, reacts⟩
  · have none := standing.unended unclosed (Int.le_of_lt less)
    rw [step_tick reacts]
    refine ⟨standing.action, standing.going, ?_, ?_, ?_, ?_, ?_, ?_⟩
    · change run.controller.frameCountSent + 1 = min ((run.ticks + 1 : Nat) : Int) _
      omega
    · change run.controller.sentEndCase = decide (_ < ((run.ticks + 1 : Nat) : Int))
      rw [flagged, decide_eq_decide]
      omega
    · change ((run.sent ++ [Output.startFrame]).count _ : Int) = min ((run.ticks + 1 : Nat) : Int) _
      rw [List.count_append, List.count_singleton_self]
      omega
    · change (run.sent ++ [Output.startFrame]).count _ =
        if run.closed = true ∨ _ < ((run.ticks + 1 : Nat) : Int) then 1 else 0
      rw [List.count_append, none, unclosed, if_neg]
      · rfl
      · simp only [Bool.false_eq_true, false_or]
        omega
    · exact ordered_concat standing.ordered fun _ => List.count_eq_zero.mp none
    · exact fun closed => absurd closed unended
  · have none := standing.unended unclosed (Int.le_of_eq equal)
    rw [step_tick reacts]
    refine ⟨standing.action, standing.going, ?_, ?_, ?_, ?_, ?_, ?_⟩
    · change run.controller.frameCountSent = min ((run.ticks + 1 : Nat) : Int) _
      omega
    · change true = decide (_ < ((run.ticks + 1 : Nat) : Int))
      exact (decide_eq_true (by omega)).symm
    · change ((run.sent ++ [Output.endCase]).count _ : Int) = min ((run.ticks + 1 : Nat) : Int) _
      rw [List.count_append, List.count_singleton, if_neg (by decide)]
      omega
    · change (run.sent ++ [Output.endCase]).count _ =
        if run.closed = true ∨ _ < ((run.ticks + 1 : Nat) : Int) then 1 else 0
      rw [List.count_append, none, if_pos (.inr (by omega))]
      rfl
    · exact ordered_concat standing.ordered fun impossible => by cases impossible
    · exact fun closed => absurd closed unended
  · rw [step_tick reacts, List.append_nil]
    refine ⟨standing.action, standing.going, ?_, ?_, ?_, ?_, standing.ordered, ?_⟩
    · change run.controller.frameCountSent = min ((run.ticks + 1 : Nat) : Int) _
      omega
    · change run.controller.sentEndCase = decide (_ < ((run.ticks + 1 : Nat) : Int))
      rw [flagged, decide_eq_decide]
      omega
    · change (run.sent.count _ : Int) = min ((run.ticks + 1 : Nat) : Int) _
      omega
    · change run.sent.count _ =
        if run.closed = true ∨ _ < ((run.ticks + 1 : Nat) : Int) then 1 else 0
      rw [standing.ends, if_pos (.inr more), if_pos (.inr (by omega))]
    · exact fun closed => absurd closed unended

theorem Standing.endEngagement (standing : run.Standing job) {peerId : UInt32}
    (timely : run.Timely job (.endEngagement peerId)) :
    (run.step job (.endEngagement peerId)).Standing job := by
  rw [step_endEngagement]
  cases closes : run.controller.closes (.endEngagement peerId) with
  | false =>
      rw [if_neg Bool.false_ne_true, List.append_nil, Bool.or_false]
      exact ⟨standing.action, standing.going, standing.counted, standing.flagged, standing.frames,
        standing.ends, standing.ordered, standing.early⟩
  | true =>
      obtain ⟨unclosed, early⟩ := timely closes
      have none := standing.unended unclosed early
      rw [if_pos rfl, Bool.or_true]
      refine ⟨standing.action, standing.going, standing.counted, standing.flagged, ?_, ?_, ?_,
        fun _ => early⟩
      · rw [← standing.frames, List.count_append, List.count_singleton, if_neg (by decide)]
        rfl
      · rw [List.count_append, none, if_pos (.inl rfl)]
        rfl
      · exact ordered_concat standing.ordered fun impossible => by cases impossible

theorem Standing.step (standing : run.Standing job) (positive : 1 ≤ job.numberOfSteps)
    {input : StepInput} (later : input.later = true)
    (timely : run.Timely job input) : (run.step job input).Standing job := by
  cases input with
  | timeout peersStarted => exact standing.tick positive timely
  | initCaseComplete peerId => cases later
  | registerEndEngage peerId =>
      rw [step_registerEndEngage]
      exact ⟨standing.action, standing.going, standing.counted, standing.flagged, standing.frames,
        standing.ends, standing.ordered, standing.early⟩
  | endEngagement peerId => exact standing.endEngagement timely

/-! ## Steps out of time lose the budget -/

theorem Standing.timely (standing : run.Standing job) (positive : 1 ≤ job.numberOfSteps)
    {input : StepInput} (budgeted : (run.step job input).Budgeted job) :
    run.Timely job input := by
  cases input with
  | timeout peersStarted =>
      by_contra closed
      rw [Timely, Bool.not_eq_false] at closed
      have early := standing.early closed
      have one : run.sent.count .endCase = 1 := by rw [standing.ends, if_pos (.inl closed)]
      have before : .endCase ∈ run.sent := List.count_pos_iff.mp (by omega)
      rcases standing.tick_cases positive peersStarted with
        ⟨-, reacts⟩ | ⟨-, reacts⟩ | ⟨more, -⟩
      · -- A frame after `EndCase`.
        rw [step_tick reacts] at budgeted
        exact (List.pairwise_append.mp budgeted.ordered).2.2 _ before _
          (List.mem_singleton_self _) ⟨rfl, rfl⟩
      · -- A second `EndCase`.
        have once := budgeted.once
        rw [step_tick reacts, List.count_append, one, List.count_singleton_self] at once
        omega
      · omega
  | initCaseComplete peerId => trivial
  | registerEndEngage peerId => trivial
  | endEngagement peerId =>
      intro closes
      have once := budgeted.once
      rw [step_endEngagement, if_pos closes, List.count_append, List.count_singleton_self,
        standing.ends] at once
      split at once
      · omega
      · next open' =>
          rw [not_or, Bool.not_eq_true, Int.not_lt] at open'
          exact open'

end StepRun

/-- A run keeps to its budget exactly if no tick comes after an `EndEngagement` that has left
nobody registered, and such a message comes once, when the timer has not ended the case. -/
theorem steps_budgeted_iff {job : TimedJob} (positive : 1 ≤ job.numberOfSteps)
    {controller : TimedController} (initialized : controller.Initialized job)
    {inputs : List StepInput} (admitted : (stepRuns job).Admits (.start controller) inputs) :
    (stepRuns job).Throughout (StepRun.Budgeted job) (.start controller) inputs ↔
      ((stepRuns job).restrict (StepRun.Timely job)).Admits (.start controller) inputs := by
  refine (stepRuns job).throughout_iff_restrict_of_strong (StepRun.Standing job) ?_ ?_ ?_
    (StepRun.standing_start initialized.fresh positive) admitted
  · intro run standing
    exact standing.budgeted
  · intro run input standing later timely
    exact standing.step positive later timely
  · intro run input standing _ budgeted
    exact standing.timely positive budgeted

namespace TwoSteps

def job : TimedJob where
  peerTable := [⟨1, 0⟩, ⟨7, 10⟩]
  modelId := 1
  numberOfSteps := 2

def setup : List StepInput := [.timeout false, .timeout true, .initCaseComplete 1]

def controller : TimedController :=
  ((setup.foldl (fun waiting input => (TimedController.react job waiting input).1)
    (TimedController.init job true)).doInitCaseComplete 7).1

theorem initialized : controller.Initialized job := ⟨true, setup, 7, rfl, rfl, rfl⟩

/-- The engagement ends between the first and the second frame. -/
def cutShort : List StepInput := [.registerEndEngage 7, .timeout true, .endEngagement 7]

theorem steps_budgeted_cutShort :
    (stepRuns job).Throughout (StepRun.Budgeted job) (.start controller) cutShort :=
  (steps_budgeted_iff (by decide) initialized (by decide)).mpr (by decide)

/-- The next tick sends a frame all the same. -/
theorem steps_budgeted_fails :
    ¬ ∀ (job : TimedJob), 1 ≤ job.numberOfSteps → ∀ controller : TimedController,
      controller.Initialized job → ∀ inputs, (stepRuns job).Admits (.start controller) inputs →
        ((stepRuns job).exec (.start controller) inputs).Budgeted job := by
  intro always
  have budgeted := always job (by decide) controller initialized (cutShort ++ [.timeout true])
    (by decide)
  have ordered := budgeted.ordered
  revert ordered
  decide

end TwoSteps

end Nise.Utilities
