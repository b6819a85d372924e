import Nise.Utilities.FramedRuns

/-!
# The watchdog of a job

A periodic timer checks that frames have been sent since its last tick.  It compares the
number of frames with the one at that tick, but the number starts again with every case, and so
does the timer: each case schedules another one, and only the last of them is known to `fini`.
-/

namespace Nise.Utilities

open Nise.Lib

/-! ## The frame counter and the timer -/

namespace FramedController

variable {job : Job} {controller : FramedController}

/-- The last peer has completed the initialization of a case. -/
def initializes (job : Job) (controller : FramedController) : Input → Bool
  | .initCaseComplete peerId => (controller.initCaseSet.arrive job.peers peerId).2
  | _ => false

/-- What an input other than a tick does to the counters and the watchdog: frames that are sent
are counted, a new case starts the count again, and the first frame of a case comes with a
timer. -/
structure Counts (before : FramedController) (restarts schedules : Bool)
    (out : FramedController × List Entry) : Prop where
  saved : out.1.savedFrameCount = before.savedFrameCount
  sent : out.1.frameCountSent =
    if restarts then 0 else before.frameCountSent + (out.2.count (.sent .startFrame) : Nat)
  watched : out.2.contains (.sent (.schedule .watchdog)) = schedules

/-- A handler that sends no frame. -/
theorem Counts.none {out : FramedController × List Entry}
    (saved : out.1.savedFrameCount = controller.savedFrameCount)
    (sent : out.1.frameCountSent = controller.frameCountSent)
    (frames : out.2.count (.sent .startFrame) = 0)
    (watched : out.2.contains (.sent (.schedule .watchdog)) = false) :
    Counts controller false false out := by
  refine ⟨saved, ?_, watched⟩
  rw [sent, frames]
  exact (Int.add_zero _).symm

theorem counts_startNewFrame (job : Job) (controller : FramedController) :
    Counts controller false false (controller.startNewFrame job) := by
  have one : (controller.startNewFrame job).2.count (.sent .startFrame) = 1 := by
    unfold startNewFrame scheduleFrame
    dsimp only
    split
    · rfl
    · split <;> rfl
  refine ⟨rfl, ?_, ?_⟩
  · rw [one]
    rfl
  · unfold startNewFrame scheduleFrame
    dsimp only
    split
    · rfl
    · split <;> rfl

theorem counts_beginFrame (job : Job) (controller : FramedController) :
    Counts controller false false (controller.beginFrame job) := by
  unfold beginFrame
  split
  · unfold advanceTime scheduleFrame
    split
    · exact .none rfl rfl rfl rfl
    · exact .none rfl rfl rfl rfl
  · exact counts_startNewFrame job controller

/-- The first frame of a case comes with a timer. -/
theorem counts_doInitCaseComplete (job : Job) (controller : FramedController) (peerId : UInt32) :
    Counts controller false (controller.initCaseSet.arrive job.peers peerId).2
      (controller.doInitCaseComplete job peerId) := by
  unfold doInitCaseComplete
  dsimp only
  split
  · next complete =>
      have begun := counts_beginFrame job { controller with
        initCaseSet := (controller.initCaseSet.arrive job.peers peerId).1, endGame := false }
      refine ⟨begun.saved, begun.sent, ?_⟩
      rw [complete]
      rfl
  · next incomplete =>
      rw [Bool.not_eq_true] at incomplete
      rw [incomplete]
      exact .none rfl rfl rfl rfl

theorem counts_doEndFrame (job : Job) (controller : FramedController) (peerId : UInt32) :
    Counts controller false false (controller.doEndFrame job peerId) := by
  unfold doEndFrame
  split
  · dsimp only
    split
    · split
      · exact .none rfl rfl rfl rfl
      · split
        · have begun := counts_beginFrame job { controller with
            endframeSet := (controller.endframeSet.arrive job.stepped peerId).1
            waitingOnEndframe :=
              setFlag controller.waitingOnEndframe (· == peerId) false }
          exact ⟨begun.saved, begun.sent, begun.watched⟩
        · exact .none rfl rfl rfl rfl
    · exact .none rfl rfl rfl rfl
  · exact .none rfl rfl rfl rfl

theorem counts_handle (job : Job) (controller : FramedController) {input : Input}
    (other : input ≠ .watchdog) :
    Counts controller (decide (input = .monteCarloInitCase)) (controller.initializes job input)
      (controller.handle job input) := by
  cases input with
  | watchdog => exact absurd rfl other
  | startup peersStarted =>
      cases peersStarted with
      | true => exact .none rfl rfl rfl rfl
      | false => exact .none rfl rfl rfl rfl
  | frame =>
      change Counts controller false false (controller.handleTimeout job .frame false)
      unfold handleTimeout
      dsimp only
      split
      · have begun := counts_beginFrame job controller
        exact ⟨begun.saved, begun.sent, begun.watched⟩
      · exact .none rfl rfl rfl rfl
  | monteCarloInitCase => exact ⟨rfl, rfl, rfl⟩
  | initCaseComplete peerId => exact counts_doInitCaseComplete job controller peerId
  | endFrame peerId => exact counts_doEndFrame job controller peerId
  | endCaseComplete peerId =>
      change Counts controller false false (controller.doEndCaseComplete job peerId)
      unfold doEndCaseComplete
      dsimp only
      split
      · split
        · exact .none rfl rfl rfl rfl
        · exact .none rfl rfl rfl rfl
      · exact .none rfl rfl rfl rfl
  | endRunComplete peerId =>
      change Counts controller false false (controller.doEndRunComplete job peerId)
      unfold doEndRunComplete
      dsimp only
      split
      · exact .none rfl rfl rfl rfl
      · exact .none rfl rfl rfl rfl
  | timeAdvanced peerId =>
      change Counts controller false false (controller.doTimeAdvanced job peerId)
      unfold doTimeAdvanced
      dsimp only
      split
      · exact .none rfl rfl rfl rfl
      · have begun := counts_startNewFrame job { controller with
          waitingOnTimeadvance := setFlag controller.waitingOnTimeadvance (· == peerId) false }
        exact ⟨begun.saved, begun.sent, begun.watched⟩
  | registerEndEngage peerId => exact .none rfl rfl rfl rfl
  | endEngagement peerId =>
      change Counts controller false false (controller.doEndEngagement peerId)
      unfold doEndEngagement
      dsimp only
      split
      · exact .none rfl rfl rfl rfl
      · exact .none rfl rfl rfl rfl
  | pauseSimulation => exact .none rfl rfl rfl rfl
  | startSimulation =>
      change Counts controller false false (controller.doStartSimulation job)
      unfold doStartSimulation
      dsimp only
      split
      · have begun := counts_beginFrame job { controller with paused := false }
        exact ⟨begun.saved, begun.sent, begun.watched⟩
      · exact .none rfl rfl rfl rfl

/-- The watchdog finds the number of frames that it found before. -/
def Stalls (controller : FramedController) : Prop :=
  controller.savedFrameCount = controller.frameCountSent ∧ controller.endGame = false ∧
    controller.msgSent = false

instance (controller : FramedController) : Decidable controller.Stalls :=
  inferInstanceAs (Decidable (_ ∧ _ ∧ _))

/-- A tick keeps the number of frames, and stops the simulation if it has not changed. -/
theorem watchdogAction_spec (controller : FramedController) :
    controller.watchdogAction.1.savedFrameCount = controller.frameCountSent ∧
      controller.watchdogAction.1.frameCountSent = controller.frameCountSent ∧
      controller.watchdogAction.2.contains (.sent .stopSimulation) = decide controller.Stalls ∧
      controller.watchdogAction.2.contains (.sent (.schedule .watchdog)) = false := by
  by_cases stalls : controller.Stalls
  · have stopped : controller.watchdogAction = ({ controller with msgSent := true },
        [.sent .requestJobStatus, .sent .stopSimulation]) := if_pos stalls
    rw [stopped, decide_eq_true stalls]
    exact ⟨stalls.1, rfl, rfl, rfl⟩
  · have goes : controller.watchdogAction =
        ({ controller with savedFrameCount := controller.frameCountSent }, []) := if_neg stalls
    rw [goes, decide_eq_false stalls]
    exact ⟨rfl, rfl, rfl, rfl⟩

end FramedController

/-! ## Runs -/

/-- A tick of the watchdog: how many frames were sent since the one before, and whether it
has stopped the simulation. -/
structure Tick where
  frames : Nat
  stopped : Bool
  deriving DecidableEq, Repr

/-- An input, with what `schedule_timer` gives if it is asked for a watchdog. -/
structure WatchedInput where
  input : Input
  timerId : Int
  deriving DecidableEq, Repr

/-- A run with `watchdog_timer_` and all the watchdogs that are scheduled, the frames that were
sent since the last tick, and whether a case was begun since then. -/
structure WatchedRun where
  run : Run
  watchdogTimer : Int
  timers : List Int
  frames : Nat
  restarted : Bool
  ticks : List Tick

namespace WatchedRun

def start (caseNumber : Int) : WatchedRun := ⟨.start caseNumber, -1, [], 0, false, []⟩

variable (job : Job) (watched : WatchedRun)

def step (event : WatchedInput) : WatchedRun :=
  let out := watched.run.controller.handle job event.input
  let schedules := out.2.contains (.sent (.schedule .watchdog))
  let watched := { watched with
    run := watched.run.step job event.input
    watchdogTimer := if schedules then event.timerId else watched.watchdogTimer
    timers := if schedules ∧ event.timerId ≠ -1 then watched.timers ++ [event.timerId]
      else watched.timers }
  if event.input = .watchdog then
    { watched with
      frames := 0
      restarted := false
      ticks := watched.ticks ++ [⟨watched.frames, out.2.contains (.sent .stopSimulation)⟩] }
  else
    { watched with
      frames := watched.frames + out.2.count (.sent .startFrame)
      restarted := watched.restarted || decide (event.input = .monteCarloInitCase) }

/-- The watchdogs that are left when `fini` has cancelled the one it knows. -/
def fini : List Int :=
  if 0 < watched.watchdogTimer then watched.timers.filter (· ≠ watched.watchdogTimer)
  else watched.timers

/-- A tick stops the simulation only if no frame was sent since the one before, there is one
watchdog at most, and none is left after `fini`. -/
structure Watched : Prop where
  stalls : ∀ tick ∈ watched.ticks, tick.stopped = true → tick.frames = 0
  single : watched.timers.length ≤ 1
  cancelled : watched.fini = []

/-- A watchdog ticks when it is scheduled, and a timer that is scheduled is given a number that
no other one has. -/
def Possible (event : WatchedInput) : Prop :=
  watched.run.Expires event.input ∧ (event.input = .watchdog → watched.timers ≠ []) ∧
    (event.timerId = -1 ∨ 0 ≤ event.timerId ∧ event.timerId ∉ watched.timers)

/-- A case is initialized when there is no watchdog yet, and its watchdog does not get the
number zero.  If a case was begun since the last tick, the frames that have been sent in it
are not as many as there were at that tick. -/
structure Attended (event : WatchedInput) : Prop where
  schedules : watched.run.controller.initializes job event.input = true →
    watched.timers = [] ∧ event.timerId ≠ 0
  ticks : event.input = .watchdog → watched.restarted = true → watched.frames ≠ 0 →
    ¬ watched.run.controller.Stalls

instance : DecidablePred watched.Possible := fun event =>
  inferInstanceAs (Decidable (watched.run.Expires event.input ∧
    (event.input = .watchdog → watched.timers ≠ []) ∧
      (event.timerId = -1 ∨ 0 ≤ event.timerId ∧ event.timerId ∉ watched.timers)))

instance : DecidablePred (watched.Attended job) := fun event =>
  decidable_of_iff
    ((watched.run.controller.initializes job event.input = true →
        watched.timers = [] ∧ event.timerId ≠ 0) ∧
      (event.input = .watchdog → watched.restarted = true → watched.frames ≠ 0 →
        ¬ watched.run.controller.Stalls))
    ⟨fun both => ⟨both.1, both.2⟩, fun attended => ⟨attended.schedules, attended.ticks⟩⟩

/-- What holds in every run: without a new case the counter has grown by the frames since the
last tick. -/
structure Counted : Prop where
  sent : 0 ≤ watched.run.controller.frameCountSent
  saved : watched.restarted = false → watched.run.controller.savedFrameCount = -1 ∨
    watched.run.controller.frameCountSent =
      watched.run.controller.savedFrameCount + watched.frames

variable {job : Job} {watched : WatchedRun} {event : WatchedInput}

theorem Counted.step (counted : watched.Counted) : (watched.step job event).Counted := by
  unfold WatchedRun.step
  by_cases tick : event.input = .watchdog
  · simp only [if_pos tick]
    obtain ⟨saved, same, -, -⟩ := watched.run.controller.watchdogAction_spec
    have handled : watched.run.controller.handle job event.input =
        watched.run.controller.watchdogAction := by rw [tick]; rfl
    have after : (watched.run.step job event.input).controller =
        watched.run.controller.watchdogAction.1 := congrArg Prod.fst handled
    refine ⟨?_, fun _ => .inr ?_⟩
    · change 0 ≤ (watched.run.step job event.input).controller.frameCountSent
      rw [after, same]
      exact counted.sent
    · change (watched.run.step job event.input).controller.frameCountSent =
        (watched.run.step job event.input).controller.savedFrameCount + 0
      rw [after, same, saved, Int.add_zero]
  · simp only [if_neg tick]
    have counts := FramedController.counts_handle job watched.run.controller tick
    have sent : (watched.run.step job event.input).controller.frameCountSent = _ := counts.sent
    have saved : (watched.run.step job event.input).controller.savedFrameCount = _ := counts.saved
    refine ⟨?_, fun unchanged => ?_⟩
    · change 0 ≤ (watched.run.step job event.input).controller.frameCountSent
      have := counted.sent
      rw [sent]
      split
      · exact Int.le_refl 0
      · omega
    · change (watched.run.step job event.input).controller.savedFrameCount = -1 ∨
        (watched.run.step job event.input).controller.frameCountSent =
          (watched.run.step job event.input).controller.savedFrameCount + _
      rw [Bool.or_eq_false_iff] at unchanged
      rw [sent, saved, unchanged.2, if_neg Bool.false_ne_true]
      refine (counted.saved unchanged.1).imp_right fun same => ?_
      rw [same]
      push_cast
      omega

/-- A tick adds its own entry and leaves the timers alone. -/
theorem Counted.watched_tick_iff (counted : watched.Counted) (before : watched.Watched)
    (tick : event.input = .watchdog) :
    (watched.step job event).Watched ↔ watched.Attended job event := by
  obtain ⟨-, -, stops, schedules⟩ := watched.run.controller.watchdogAction_spec
  have handled : watched.run.controller.handle job event.input =
      watched.run.controller.watchdogAction := by rw [tick]; rfl
  have after : watched.step job event = { watched with
      run := watched.run.step job event.input
      frames := 0
      restarted := false
      ticks := watched.ticks ++ [⟨watched.frames, decide watched.run.controller.Stalls⟩] } := by
    unfold WatchedRun.step
    simp only [if_pos tick, handled, schedules, stops]
    simp
  rw [after]
  constructor
  · intro good
    refine ⟨fun initializes => ?_, fun _ _ frames stalls => ?_⟩
    · rw [tick] at initializes
      cases initializes
    · exact frames (good.stalls _ (List.mem_append_right _ (List.mem_singleton_self _))
        (decide_eq_true stalls))
  · intro attended
    refine ⟨?_, before.single, before.cancelled⟩
    intro entry member stopped
    rcases List.mem_append.mp member with old | new
    · exact before.stalls entry old stopped
    · rw [List.mem_singleton.mp new] at stopped ⊢
      have stalls : watched.run.controller.Stalls := of_decide_eq_true stopped
      by_contra frames
      cases restarted : watched.restarted with
      | true => exact attended.ticks tick restarted frames stalls
      | false =>
          have nonneg := counted.sent
          have same := stalls.1
          dsimp only at frames
          rcases counted.saved restarted with unset | grown
          · omega
          · omega

/-- A case that is initialized gets its own watchdog. -/
theorem watched_initialized_iff (before : watched.Watched) (possible : watched.Possible event)
    (other : event.input ≠ .watchdog)
    (initializes : watched.run.controller.initializes job event.input = true) :
    (watched.step job event).Watched ↔ watched.timers = [] ∧ event.timerId ≠ 0 := by
  have schedules := (FramedController.counts_handle job watched.run.controller other).watched
  rw [initializes] at schedules
  obtain ⟨-, -, id⟩ := possible
  have ticks : (watched.step job event).ticks = watched.ticks := by
    unfold step
    simp only [if_neg other]
  have timer : (watched.step job event).watchdogTimer = event.timerId := by
    unfold step
    simp only [if_neg other, schedules, if_true]
  have timers : (watched.step job event).timers =
      if event.timerId ≠ -1 then watched.timers ++ [event.timerId] else watched.timers := by
    unfold step
    simp only [if_neg other, schedules, true_and]
  have left : (watched.step job event).fini =
      if 0 < event.timerId then
        (watched.step job event).timers.filter (· ≠ event.timerId)
      else (watched.step job event).timers := by
    unfold fini
    rw [timer]
  constructor
  · intro good
    have single := good.single
    have cancelled := good.cancelled
    rcases id with failed | ⟨nonneg, -⟩
    · rw [left, timers, failed] at cancelled
      exact ⟨by simpa using cancelled, by omega⟩
    · have given : event.timerId ≠ -1 := by omega
      rw [timers, if_pos given, List.length_append, List.length_singleton] at single
      have none : watched.timers = [] := List.length_eq_zero_iff.mp (by omega)
      refine ⟨none, fun zero => ?_⟩
      rw [left, timers, if_pos given, zero, none] at cancelled
      cases cancelled
  · rintro ⟨none, nonzero⟩
    refine ⟨?_, ?_, ?_⟩
    · rw [ticks]
      exact before.stalls
    · rw [timers, none]
      split
      · exact Nat.le_refl 1
      · exact Nat.zero_le 1
    · rw [left, timers, none]
      rcases id with failed | ⟨nonneg, -⟩
      · rw [failed]
        rfl
      · have positive : 0 < event.timerId := by omega
        rw [if_pos positive, if_pos (by omega)]
        simp

theorem Counted.watched_step_iff (counted : watched.Counted) (before : watched.Watched)
    (possible : watched.Possible event) :
    (watched.step job event).Watched ↔ watched.Attended job event := by
  by_cases tick : event.input = .watchdog
  · exact counted.watched_tick_iff before tick
  · have quiet : watched.Attended job event ↔
        (watched.run.controller.initializes job event.input = true →
          watched.timers = [] ∧ event.timerId ≠ 0) :=
      ⟨fun attended => attended.schedules, fun schedules => ⟨schedules, fun now => absurd now tick⟩⟩
    rw [quiet]
    cases initializes : watched.run.controller.initializes job event.input with
    | true =>
        rw [watched_initialized_iff before possible tick initializes]
        exact ⟨fun attended _ => attended, fun attended => attended rfl⟩
    | false =>
        have schedules := (FramedController.counts_handle job watched.run.controller tick).watched
        rw [initializes] at schedules
        have after : watched.step job event = { watched with
            run := watched.run.step job event.input
            frames := watched.frames + (watched.run.controller.handle job event.input).2.count
              (.sent .startFrame)
            restarted := watched.restarted || decide (event.input = .monteCarloInitCase) } := by
          unfold WatchedRun.step
          simp only [if_neg tick, schedules]
          simp
        rw [after]
        refine iff_of_true ⟨before.stalls, before.single, before.cancelled⟩ ?_
        intro impossible
        cases impossible

end WatchedRun

/-- All runs of a job, with its watchdogs. -/
def watchedRuns (job : Job) : System WatchedRun WatchedInput where
  step watched event := watched.step job event
  guard watched event := watched.Possible event

instance (job : Job) (watched : WatchedRun) (event : WatchedInput) :
    Decidable ((watchedRuns job).guard watched event) :=
  inferInstanceAs (Decidable (watched.Possible event))

/-- The watchdog does what it is for in every state of a run exactly if only one case gets a
watchdog, with a number that is not zero, and no tick finds as many frames in a new case as
there were at the tick before. -/
theorem watched_iff_attended {job : Job} {first : Int} {events : List WatchedInput}
    (admitted : (watchedRuns job).Admits (.start first) events) :
    (watchedRuns job).Throughout WatchedRun.Watched (.start first) events ↔
      ((watchedRuns job).restrict (WatchedRun.Attended job)).Admits (.start first) events := by
  have counted : (WatchedRun.start first).Counted := ⟨Int.le_refl 0, fun _ => .inl rfl⟩
  have watched : (WatchedRun.start first).Watched := by
    refine ⟨?_, Nat.zero_le 1, rfl⟩
    intro tick member
    cases member
  refine (watchedRuns job).throughout_iff_restrict_of_invariant WatchedRun.Counted ?_ ?_ counted
    watched admitted
  · intro watched event counted _
    exact counted.step
  · intro watched event counted before possible
    exact counted.watched_step_iff before possible

namespace WatchedCases

/-- One model, two cases; the first one ends with its second frame. -/
def job : Job where
  peerTable := [⟨7, 10⟩]
  modelId := 1
  separateAdvanceTime := false
  startFrameHz := 0
  maxFrame := 2
  numberOfRuns := 2

/-- An input that schedules no watchdog. -/
def message (input : Input) : WatchedInput := ⟨input, -1⟩

/-- The first case: a tick during its first frame, and another one when its frames have
ended. -/
def firstCase : List WatchedInput :=
  [message (.startup true), message .monteCarloInitCase, ⟨.initCaseComplete 7, 3⟩,
    message .watchdog, message (.endFrame 7), message .watchdog, message (.endFrame 7)]

theorem watched_firstCase :
    (watchedRuns job).Throughout WatchedRun.Watched (.start 1) firstCase :=
  (watched_iff_attended (by decide)).mpr (by decide)

/-- The second case. -/
def secondCase : List WatchedInput :=
  [message (.endCaseComplete 7), message .monteCarloInitCase, ⟨.initCaseComplete 7, 4⟩,
    message (.endFrame 7), message .watchdog]

theorem watched_fails :
    ¬ ∀ (job : Job) (first : Int) (events : List WatchedInput),
      (watchedRuns job).Admits (.start first) events →
        ((watchedRuns job).exec (.start first) events).Watched := by
  intro claim
  have watched := claim job 1 (firstCase ++ secondCase) (by decide)
  have ticks : ((watchedRuns job).exec (.start 1) (firstCase ++ secondCase)).ticks =
      [⟨1, false⟩, ⟨1, false⟩, ⟨2, true⟩] := by decide
  have stalls := watched.stalls ⟨2, true⟩ (by rw [ticks]; decide) rfl
  cases stalls

end WatchedCases

end Nise.Utilities
