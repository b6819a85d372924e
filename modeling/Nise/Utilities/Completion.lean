import Mathlib.Algebra.Order.BigOperators.Group.List
import Mathlib.Algebra.Order.Ring.Nat
import Nise.Utilities.CaseSequence

/-!
# A framed job can always be completed

The controller goes on when an answer or a timer arrives.  It never waits for something that
does not come: in every state of a run there is an answer that a peer owes, a timer that is
scheduled, or a pause that can be ended, until the run has ended.  And no run can go on forever
like this, since a case has no more frames than the frame counter has values.
-/

namespace Nise.Utilities

open Nise.Lib

/-! ## Cooperative runs -/

/-- The frame timers that have been scheduled and have not expired. -/
def noteTimer (timers : Nat) : Entry → Nat
  | .sent (.schedule .frame) => timers + 1
  | .received .frame => timers - 1
  | _ => timers

namespace Run

variable (run : Run)

def frameTimers : Nat := run.history.foldl noteTimer 0

/-- Frame timers expire when they are scheduled, and a peer completes the end of the run after
it has been asked to. -/
def Due : Input → Prop
  | .frame => 0 < run.frameTimers
  | .endRunComplete _ => 0 < run.tally.endRun
  | _ => True

instance : DecidablePred run.Due
  | .frame => inferInstanceAs (Decidable (0 < run.frameTimers))
  | .endRunComplete _ => inferInstanceAs (Decidable (0 < run.tally.endRun))
  | .startup _ | .watchdog | .monteCarloInitCase | .initCaseComplete _ | .endFrame _
  | .endCaseComplete _ | .timeAdvanced _ | .registerEndEngage _ | .endEngagement _
  | .pauseSimulation | .startSimulation => isTrue trivial

end Run

/-- Nobody answers more than is asked for, and no end of engagement is reported. -/
def Cooperative (job : Job) (run : Run) (input : Input) : Prop :=
  Undisturbed job run input ∧ run.Due input

instance (job : Job) (run : Run) : DecidablePred (Cooperative job run) := fun input =>
  inferInstanceAs (Decidable (Undisturbed job run input ∧ run.Due input))

/-! ## What the controller waits for -/

/-- The timer of the frame that is under way is scheduled, or it has been missed. -/
def Timed (job : Job) (controller : FramedController) (timers : Nat) : Prop :=
  job.startFrameHz ≠ 0 → controller.missedTimeout = true ∨ 0 < timers

/-- In an open case the controller waits for the start of the next frame, for the ends of a
frame, or for an advance of the time. -/
inductive Awaits (job : Job) (controller : FramedController) (tally : Tally) (timers : Nat) :
    Prop where
  | start (ready : controller.readyToStartFrame = true)
      (begins : controller.paused = true ∨ 0 < timers)
  | frame (due : controller.endframeSet.Awaiting job.stepped tally.startFrame tally.endFrame)
      (timed : Timed job controller timers)
  | advance (someone : ∃ peerId, controller.waitingOnTimeadvance peerId = true)
      (due : ∀ peerId, controller.waitingOnTimeadvance peerId = true →
        tally.timeAdvanced peerId < tally.advanceTime)
      (timed : Timed job controller timers)

/-- The controller waits for something that can come. -/
structure Live (job : Job) (controller : FramedController) (tally : Tally) (timers : Nat) :
    Prop where
  unbegun : tally.initCase = 0 → controller.startTimer = true
  init : tally.initCase = tally.endCase + 1 → tally.caseOpen = false →
    controller.initCaseSet.Awaiting job.peers tally.initCase tally.initCaseComplete
  inCase : tally.caseOpen = true → Awaits job controller tally timers
  stepped : ∀ peerId, controller.waitingOnTimeadvance peerId = true → peerId ∈ job.stepped
  endGame : controller.endGame = true → 0 < tally.endRun
  direct : job.separateAdvanceTime = false → tally.advanceTime = 0

/-- The controller after a handler, with the tally and the timers after what it has sent. -/
def StaysLive (job : Job) (tally : Tally) (timers : Nat) (out : FramedController × List Entry) :
    Prop :=
  Live job out.1 (out.2.foldl Tally.note tally) (out.2.foldl noteTimer timers)

section Steps

variable {job : Job} {first : Int} {phase : Phase} {controller : FramedController}
  {tally : Tally} {timers : Nat}

theorem live_start (job : Job) (first : Int) : Live job (.init first) Tally.zero 0 where
  unbegun _ := rfl
  init cases := by cases cases
  inCase isOpen := by cases isOpen
  stepped peerId waits := by cases waits
  endGame ended := by cases ended
  direct _ := rfl

/-- A step that the controller does not wait for, and that does not end what it waits for. -/
theorem Live.congr {other : FramedController} {left : Nat} (live : Live job controller tally timers)
    (timer : other.startTimer = controller.startTimer)
    (init : other.initCaseSet = controller.initCaseSet)
    (frames : other.endframeSet = controller.endframeSet)
    (waits : other.waitingOnTimeadvance = controller.waitingOnTimeadvance)
    (ended : other.endGame = true → 0 < tally.endRun)
    (ready : other.readyToStartFrame = controller.readyToStartFrame)
    (begins : controller.readyToStartFrame = true → controller.paused = true ∨ 0 < timers →
      other.paused = true ∨ 0 < left)
    (timed : Timed job controller timers → Timed job other left) :
    Live job other tally left where
  unbegun none := by rw [timer]; exact live.unbegun none
  init begun closed := by rw [init]; exact live.init begun closed
  inCase isOpen := by
    cases live.inCase isOpen with
    | start flag may => exact .start (ready.trans flag) (begins flag may)
    | frame due pace => exact .frame (frames ▸ due) (timed pace)
    | advance someone due pace => exact .advance (waits ▸ someone) (waits ▸ due) (timed pace)
  stepped := by rw [waits]; exact live.stepped
  endGame := ended
  direct := live.direct

theorem foldl_noteTimer_scheduleFrame (timers : Nat) :
    (FramedController.scheduleFrame job).foldl noteTimer timers =
      timers + if job.startFrameHz ≠ 0 then 1 else 0 := by
  unfold FramedController.scheduleFrame
  split <;> rfl

/-- What a frame can be begun out of: an open case in which all frames have ended and all
advances of the time are done. -/
structure Startable (job : Job) (controller : FramedController) (tally : Tally) : Prop where
  steps : job.stepped ≠ []
  begun : tally.initCase ≠ 0
  isOpen : tally.caseOpen = true
  frames : controller.endframeSet.Settled job.stepped tally.startFrame tally.endFrame
  advances : ∀ peerId ∈ job.stepped, tally.timeAdvanced peerId = tally.advanceTime
  stepped : ∀ peerId, controller.waitingOnTimeadvance peerId = true → peerId ∈ job.stepped
  direct : job.separateAdvanceTime = false → tally.advanceTime = 0
  running : controller.endGame = false

/-- A frame that is started waits for the peers that are stepped. -/
theorem Startable.startNewFrame (startable : Startable job controller tally)
    (other : FramedController) (left : Nat)
    (frames : other.endframeSet = controller.endframeSet)
    (waits : other.waitingOnTimeadvance = controller.waitingOnTimeadvance)
    (running : other.endGame = controller.endGame) (timed : Timed job other left) :
    Live job other (tally.note (.sent .startFrame)) left where
  unbegun none := absurd none startable.begun
  init _ closed := by
    change tally.caseOpen = false at closed
    rw [startable.isOpen] at closed
    cases closed
  inCase _ := .frame (frames ▸ startable.frames.awaiting startable.steps) timed
  stepped := by rw [waits]; exact startable.stepped
  endGame ended := by
    rw [running, startable.running] at ended
    cases ended
  direct := startable.direct

/-- An advance of the time waits for them too. -/
theorem Startable.advanceTime (startable : Startable job controller tally)
    (separate : job.separateAdvanceTime = true) (other : FramedController) (left : Nat)
    (waits : other.waitingOnTimeadvance = (controller.advanceTime job).1.waitingOnTimeadvance)
    (running : other.endGame = controller.endGame) (timed : Timed job other left) :
    Live job other (tally.note (.sent .advanceTime)) left where
  unbegun none := absurd none startable.begun
  init _ closed := by
    change tally.caseOpen = false at closed
    rw [startable.isOpen] at closed
    cases closed
  inCase _ := by
    obtain ⟨peerId, member⟩ := List.exists_mem_of_ne_nil _ startable.steps
    refine .advance ⟨peerId, ?_⟩ ?_ timed
    · rw [waits]
      exact if_pos (List.contains_iff_mem.mpr member)
    · intro other waiting
      have stepped : other ∈ job.stepped := by
        rw [waits] at waiting
        by_cases member : other ∈ job.stepped
        · exact member
        · refine startable.stepped other ?_
          exact (if_neg fun found => member (List.contains_iff_mem.mp found)).symm.trans waiting
      change tally.timeAdvanced other < tally.advanceTime + 1
      rw [startable.advances other stepped]
      exact Nat.lt_succ_self _
  stepped peerId waiting := by
    rw [waits] at waiting
    by_cases member : peerId ∈ job.stepped
    · exact member
    · refine startable.stepped peerId ?_
      exact (if_neg fun found => member (List.contains_iff_mem.mp found)).symm.trans waiting
  endGame ended := by
    rw [running, startable.running] at ended
    cases ended
  direct together := by
    rw [separate] at together
    cases together

/-- The timer of a frame that is begun is scheduled. -/
theorem timed_scheduled (other : FramedController) :
    Timed job other (timers + if job.startFrameHz ≠ 0 then 1 else 0) := by
  intro paced
  rw [if_pos paced]
  exact .inr (Nat.succ_pos _)

theorem Startable.beginFrame (startable : Startable job controller tally)
    (other : FramedController)
    (frames : other.endframeSet = (controller.beginFrame job).1.endframeSet)
    (waits : other.waitingOnTimeadvance = (controller.beginFrame job).1.waitingOnTimeadvance)
    (running : other.endGame = (controller.beginFrame job).1.endGame) :
    StaysLive job tally timers (other, (controller.beginFrame job).2) := by
  unfold StaysLive
  unfold FramedController.beginFrame at frames waits running ⊢
  cases separate : job.separateAdvanceTime with
  | true =>
      rw [separate, if_pos rfl] at frames waits running
      rw [if_pos rfl]
      unfold FramedController.advanceTime
      dsimp only
      rw [List.foldl_cons, List.foldl_cons, foldl_scheduleFrame, foldl_noteTimer_scheduleFrame]
      exact startable.advanceTime separate other _ waits running (timed_scheduled other)
  | false =>
      rw [separate, if_neg (by decide)] at frames waits running
      rw [if_neg (by decide)]
      unfold FramedController.startNewFrame
      dsimp only
      rw [separate, if_neg (by decide), List.foldl_cons, List.foldl_cons, foldl_scheduleFrame,
        foldl_noteTimer_scheduleFrame]
      exact startable.startNewFrame other _ frames waits running (timed_scheduled other)

theorem Live.startable (live : Live job controller tally timers) (steps : job.stepped ≠ [])
    (between : Between job first controller tally) : Startable job controller tally where
  steps := steps
  begun := between.begun
  isOpen := between.caseOpen
  frames := between.frames
  advances := between.advances
  stepped := live.stepped
  direct := live.direct
  running := by
    by_contra ended
    have finished := live.endGame (Bool.not_eq_false _ ▸ ended)
    rw [between.endRun] at finished
    cases finished

/-! ## One lemma for each kind of input -/

theorem Live.watchdog (live : Live job controller tally timers) :
    StaysLive job tally timers controller.watchdogAction := by
  unfold FramedController.watchdogAction
  split
  · exact live.congr rfl rfl rfl rfl live.endGame rfl (fun _ may => may) id
  · exact live.congr rfl rfl rfl rfl live.endGame rfl (fun _ may => may) id

/-- The frame timer starts the next frame, or is missed. -/
theorem Live.frame (live : Live job controller tally timers)
    (fits : Fits job first phase controller tally) (steps : job.stepped ≠ []) :
    StaysLive job tally (timers - 1) (controller.handleTimeout job .frame false) := by
  unfold FramedController.handleTimeout
  dsimp only
  split
  · next may =>
      have waiting := (fits.ready may.2).1
      subst waiting
      have between := fits.between rfl fits.frames (fits.advanced (by decide))
      exact (live.startable steps between).beginFrame _ rfl rfl rfl
  · next cannot =>
      refine live.congr rfl rfl rfl rfl live.endGame rfl ?_ fun _ _ => .inl rfl
      intro ready _
      refine .inl ?_
      by_contra unpaused
      exact cannot ⟨Bool.eq_false_iff.mpr unpaused, ready⟩

theorem Live.startup (live : Live job controller tally timers)
    (fits : Fits job first phase controller tally) (steps : job.stepped ≠ [])
    (scheduled : controller.startTimer = true) (peersStarted : Bool) :
    StaysLive job tally timers (controller.handleTimeout job .startup peersStarted) := by
  have idle := fits.startTimer scheduled
  subst idle
  unfold FramedController.handleTimeout FramedController.startsimAction
  dsimp only
  split
  · have none : tally.initCase = 0 := fits.first_case.mpr rfl
    have init : controller.initCaseSet.Settled job.peers tally.initCase tally.initCaseComplete :=
      fits.init
    obtain ⟨peerId, member⟩ := List.exists_mem_of_ne_nil _ steps
    have inhabited : job.peers ≠ [] := List.ne_nil_of_mem (job.mem_peers_of_mem_stepped member)
    exact
      { unbegun := fun zero => absurd zero (Nat.succ_ne_zero _)
        init := fun _ _ => init.awaiting inhabited
        inCase := fun isOpen => by
          have closed := fits.caseOpen
          exact absurd (closed.symm.trans isOpen) (by decide)
        stepped := live.stepped
        endGame := live.endGame
        direct := live.direct }
  · exact live.congr scheduled.symm rfl rfl rfl live.endGame rfl (fun _ may => may) id

theorem Live.startSimulation (live : Live job controller tally timers)
    (fits : Fits job first phase controller tally) (steps : job.stepped ≠ []) :
    StaysLive job tally timers (controller.doStartSimulation job) := by
  unfold FramedController.doStartSimulation
  dsimp only
  split
  · next ready =>
      have waiting := (fits.ready ready).1
      subst waiting
      have between := fits.between rfl fits.frames (fits.advanced (by decide))
      have startable := live.startable steps between
      have resumed : Startable job { controller with paused := false } tally :=
        { startable with }
      exact resumed.beginFrame _ rfl rfl rfl
  · next unready =>
      exact live.congr rfl rfl rfl rfl live.endGame rfl (fun ready => absurd ready unready) id

theorem Live.initCaseComplete (live : Live job controller tally timers)
    (fits : Fits job first phase controller tally) (steps : job.stepped ≠ []) {peerId : UInt32}
    (member : peerId ∈ job.peers) (due : tally.initCaseComplete peerId < tally.initCase) :
    StaysLive job (tally.note (.received (.initCaseComplete peerId))) timers
      (controller.doInitCaseComplete job peerId) := by
  have begun : tally.initCase ≠ 0 := by omega
  obtain ⟨initializing, collecting⟩ := fits.init.collecting member due
  rw [beq_iff_eq] at initializing
  subst initializing
  unfold FramedController.doInitCaseComplete
  dsimp only
  split
  · have startable : Startable job
        { controller with
          initCaseSet := (controller.initCaseSet.arrive job.peers peerId).1
          endGame := false }
        ((tally.note (.received (.initCaseComplete peerId))).note .initialized) :=
      { steps := steps
        begun := begun
        isOpen := rfl
        frames := fits.frames
        advances := fits.advanced (by decide)
        stepped := live.stepped
        direct := live.direct
        running := rfl }
    exact startable.beginFrame _ rfl rfl rfl
  · next unfinished =>
      have closed : tally.caseOpen = false := fits.caseOpen
      have awaiting := live.init fits.cases closed
      exact
        { unbegun := fun none => absurd none begun
          init := fun _ _ => awaiting.arrive_unfinished
            (Tally.more_eq tally.initCaseComplete peerId) (Bool.eq_false_iff.mpr unfinished)
          inCase := fun isOpen => by
            change tally.caseOpen = true at isOpen
            rw [closed] at isOpen
            cases isOpen
          stepped := live.stepped
          endGame := live.endGame
          direct := live.direct }

/-- In a case in which a frame is under way the controller waits for its ends. -/
theorem Live.framing (live : Live job controller tally timers)
    (fits : Fits job first .framing controller tally) :
    controller.endframeSet.Awaiting job.stepped tally.startFrame tally.endFrame ∧
      Timed job controller timers := by
  cases live.inCase fits.caseOpen with
  | start ready begins => exact absurd (fits.ready ready).1 (by decide)
  | frame due timed => exact ⟨due, timed⟩
  | advance someone due timed =>
      obtain ⟨peerId, waits⟩ := someone
      have all := fits.advanced (by decide) peerId (live.stepped peerId waits)
      exact absurd (due peerId waits) (Nat.not_lt_of_le (Nat.le_of_eq all.symm))

/-- While the time is advanced the controller waits for that. -/
theorem Live.advancing (live : Live job controller tally timers)
    (fits : Fits job first .advancing controller tally) :
    (∀ peerId, controller.waitingOnTimeadvance peerId = true →
      tally.timeAdvanced peerId < tally.advanceTime) ∧ Timed job controller timers := by
  cases live.inCase fits.caseOpen with
  | start ready begins => exact absurd (fits.ready ready).1 (by decide)
  | advance someone due timed => exact ⟨due, timed⟩
  | frame awaiting timed =>
      have settled : controller.endframeSet.Settled job.stepped tally.startFrame
        tally.endFrame := fits.frames
      obtain ⟨peerId, member, due⟩ := awaiting.exists_due settled.collecting
      exact absurd due (Nat.not_lt_of_le (Nat.le_of_eq (settled.answered peerId member).symm))

theorem Live.endFrame (live : Live job controller tally timers)
    (fits : Fits job first phase controller tally) (steps : job.stepped ≠ []) {peerId : UInt32}
    (member : peerId ∈ job.stepped) (due : tally.endFrame peerId < tally.startFrame) :
    StaysLive job (tally.note (.received (.endFrame peerId))) timers
      (controller.doEndFrame job peerId) := by
  obtain ⟨framing, collecting⟩ := fits.frames.collecting member due
  rw [beq_iff_eq] at framing
  subst framing
  obtain ⟨awaiting, timed⟩ := live.framing fits
  have begun : tally.initCase ≠ 0 := fun none => absurd (fits.first_case.mp none) (by decide)
  have running : controller.endGame = false := by
    by_contra ended
    have finished := live.endGame (Bool.not_eq_false _ ▸ ended)
    rw [fits.endRun] at finished
    exact absurd finished (by decide)
  unfold FramedController.doEndFrame
  rw [if_pos running]
  dsimp only
  split
  · next completes =>
      have settled := collecting.arrive_completes member due
        (Tally.more_eq tally.endFrame peerId) completes
      have startable : Startable job
          { controller with
            endframeSet := (controller.endframeSet.arrive job.stepped peerId).1
            waitingOnEndframe :=
              setFlag controller.waitingOnEndframe (· == peerId) false }
          (tally.note (.received (.endFrame peerId))) :=
        { steps := steps
          begun := begun
          isOpen := fits.caseOpen
          frames := settled
          advances := fits.advanced (by decide)
          stepped := live.stepped
          direct := live.direct
          running := running }
      split
      · exact
          { unbegun := fun none => absurd none begun
            init := fun again _ => by
              have cases : tally.initCase = tally.endCase + 1 := fits.cases
              change tally.initCase = tally.endCase + 1 + 1 at again
              omega
            inCase := fun isOpen => by cases isOpen
            stepped := live.stepped
            endGame := live.endGame
            direct := live.direct }
      · split
        · exact startable.beginFrame _ rfl rfl rfl
        · next waits =>
            refine
              { unbegun := fun none => absurd none begun
                init := fun _ closed => by
                  have isOpen := startable.isOpen
                  exact absurd (closed.symm.trans isOpen) (by decide)
                inCase := fun _ => .start rfl ?_
                stepped := live.stepped
                endGame := live.endGame
                direct := live.direct }
            -- Not paused, with a frame rate, and no timer missed: the timer is scheduled.
            by_cases paused : controller.paused = true
            · exact .inl paused
            · rw [Bool.not_eq_true] at paused
              have paced : job.startFrameHz ≠ 0 := fun unpaced => waits ⟨paused, .inl unpaced⟩
              rcases timed paced with missed | scheduled
              · exact absurd ⟨paused, .inr missed⟩ waits
              · exact .inr scheduled
  · next unfinished =>
      exact
        { unbegun := fun none => absurd none begun
          init := fun _ closed => by
            have isOpen : tally.caseOpen = true := fits.caseOpen
            exact absurd (closed.symm.trans isOpen) (by decide)
          inCase := fun _ => .frame (awaiting.arrive_unfinished
            (Tally.more_eq tally.endFrame peerId) (Bool.eq_false_iff.mpr unfinished)) timed
          stepped := live.stepped
          endGame := live.endGame
          direct := live.direct }

theorem Live.endCaseComplete (live : Live job controller tally timers)
    (fits : Fits job first phase controller tally) {peerId : UInt32}
    (member : peerId ∈ job.peers) (due : tally.endCaseComplete peerId < tally.endCase) :
    StaysLive job (tally.note (.received (.endCaseComplete peerId))) timers
      (controller.doEndCaseComplete job peerId) := by
  obtain ⟨ending, collecting⟩ := fits.ends.collecting member due
  rw [beq_iff_eq] at ending
  subst ending
  have begun : tally.initCase ≠ 0 := fun none => absurd (fits.first_case.mp none) (by decide)
  have cases : tally.initCase = tally.endCase := fits.cases
  have closed : tally.caseOpen = false := fits.caseOpen
  have init : controller.initCaseSet.Settled job.peers tally.initCase tally.initCaseComplete :=
    fits.init
  unfold FramedController.doEndCaseComplete
  dsimp only
  split
  · split
    · exact
        { unbegun := fun none => absurd none begun
          init := fun again _ => by
            change tally.initCase = tally.endCase + 1 at again
            omega
          inCase := fun isOpen => absurd (closed.symm.trans isOpen) (by decide)
          stepped := live.stepped
          endGame := fun ended => by cases ended
          direct := live.direct }
    · exact
        { unbegun := fun none => absurd none (Nat.succ_ne_zero _)
          init := fun _ _ => init.awaiting (List.ne_nil_of_mem member)
          inCase := fun isOpen => absurd (closed.symm.trans isOpen) (by decide)
          stepped := live.stepped
          endGame := fun ended => by cases ended
          direct := live.direct }
  · exact
      { unbegun := fun none => absurd none begun
        init := fun again _ => by
          change tally.initCase = tally.endCase + 1 at again
          omega
        inCase := fun isOpen => absurd (closed.symm.trans isOpen) (by decide)
        stepped := live.stepped
        endGame := live.endGame
        direct := live.direct }

theorem Live.endRunComplete (live : Live job controller tally timers) (ended : 0 < tally.endRun)
    (peerId : UInt32) : StaysLive job tally timers (controller.doEndRunComplete job peerId) := by
  unfold FramedController.doEndRunComplete
  dsimp only
  split
  · exact live.congr rfl rfl rfl rfl (fun _ => ended) rfl (fun _ may => may) id
  · exact live.congr rfl rfl rfl rfl (fun _ => ended) rfl (fun _ may => may) id

theorem Live.timeAdvanced (live : Live job controller tally timers)
    (fits : Fits job first phase controller tally) (steps : job.stepped ≠ []) {peerId : UInt32}
    (member : peerId ∈ job.stepped) (due : tally.timeAdvanced peerId < tally.advanceTime) :
    StaysLive job (tally.note (.received (.timeAdvanced peerId))) timers
      (controller.doTimeAdvanced job peerId) := by
  have advancing : phase = .advancing ∧ tally.timeAdvanced peerId + 1 = tally.advanceTime := by
    rcases fits.advances peerId member with all | ⟨advancing, last, -⟩
    · omega
    · exact ⟨advancing, last⟩
  obtain ⟨advancing, last⟩ := advancing
  subst advancing
  obtain ⟨owed, timed⟩ := live.advancing fits
  have begun : tally.initCase ≠ 0 := fun none => absurd (fits.first_case.mp none) (by decide)
  have waited : ∀ other,
      setFlag controller.waitingOnTimeadvance (· == peerId) false other = true →
        other ≠ peerId ∧ controller.waitingOnTimeadvance other = true := by
    intro other waits
    unfold setFlag at waits
    split at waits
    · cases waits
    · next apart => exact ⟨fun same => apart (beq_iff_eq.mpr same), waits⟩
  unfold FramedController.doTimeAdvanced
  dsimp only
  split
  · next someone =>
      obtain ⟨other, -, waits⟩ := List.any_eq_true.mp someone
      exact
        { unbegun := fun none => absurd none begun
          init := fun _ closed => by
            have isOpen : tally.caseOpen = true := fits.caseOpen
            exact absurd (closed.symm.trans isOpen) (by decide)
          inCase := fun _ => .advance ⟨other, waits⟩ (fun another waiting => by
            obtain ⟨apart, before⟩ := waited another waiting
            change Tally.more tally.timeAdvanced peerId another < tally.advanceTime
            rw [Tally.more_eq, if_neg apart]
            exact owed another before) timed
          stepped := fun another waiting => live.stepped another (waited another waiting).2
          endGame := live.endGame
          direct := live.direct }
  · next nobody =>
      have startable : Startable job
          { controller with
            waitingOnTimeadvance :=
              setFlag controller.waitingOnTimeadvance (· == peerId) false }
          (tally.note (.received (.timeAdvanced peerId))) :=
        { steps := steps
          begun := begun
          isOpen := fits.caseOpen
          frames := fits.frames
          advances := by
            intro other among
            change Tally.more tally.timeAdvanced peerId other = tally.advanceTime
            rw [Tally.more_eq]
            by_cases same : other = peerId
            · rw [if_pos same, same]
              exact last
            · rw [if_neg same]
              rcases fits.advances other among with all | ⟨-, -, waits⟩
              · exact all
              · refine absurd (List.any_eq_true.mpr
                  ⟨other, job.mem_peers_of_mem_stepped among, ?_⟩) nobody
                exact (if_neg fun equal => same (beq_iff_eq.mp equal)).trans waits
          stepped := fun another waiting => live.stepped another (waited another waiting).2
          direct := live.direct
          running := by
            by_contra ended
            have finished := live.endGame (Bool.not_eq_false _ ▸ ended)
            rw [fits.endRun] at finished
            exact absurd finished (by decide) }
      have separate : job.separateAdvanceTime = true := by
        by_contra together
        rw [live.direct (Bool.eq_false_iff.mpr together)] at due
        cases due
      have sent : (if job.separateAdvanceTime then [] else FramedController.scheduleFrame job) =
          [] := if_pos separate
      unfold StaysLive FramedController.startNewFrame
      dsimp only
      rw [sent]
      exact startable.startNewFrame _ timers rfl rfl rfl timed

/-- Pausing lets a frame that is ready wait for the end of the pause. -/
theorem Live.pauseSimulation (live : Live job controller tally timers) :
    StaysLive job tally timers controller.doPauseSimulation :=
  live.congr rfl rfl rfl rfl live.endGame rfl (fun _ _ => .inl rfl) id

end Steps

/-! ## Cooperative runs stay live -/

section Runs

variable {job : Job} {first : Int} {run : Run} {input : Input}

theorem tally_step (job : Job) (run : Run) (input : Input) :
    (run.step job input).tally =
      (run.controller.handle job input).2.foldl Tally.note
        (run.tally.note (.received input)) :=
  Tally.ofHistory_append run.history (.received input :: (run.controller.handle job input).2)

theorem frameTimers_step (job : Job) (run : Run) (input : Input) :
    (run.step job input).frameTimers =
      (run.controller.handle job input).2.foldl noteTimer
        (noteTimer run.frameTimers (.received input)) := by
  unfold Run.frameTimers Run.step
  dsimp only
  rw [List.foldl_append, List.foldl_cons]

theorem Live.handle {phase : Phase} (steps : job.stepped ≠ [])
    (live : Live job run.controller run.tally run.frameTimers)
    (fits : Fits job first phase run.controller run.tally) (expires : run.Expires input)
    (cooperative : Cooperative job run input) :
    StaysLive job (run.tally.note (.received input))
      (noteTimer run.frameTimers (.received input)) (run.controller.handle job input) := by
  obtain ⟨⟨⟨cases, frames⟩, undisturbed⟩, due⟩ := cooperative
  cases input with
  | startup peersStarted => exact live.startup fits steps expires peersStarted
  | watchdog => exact live.watchdog
  | frame => exact live.frame fits steps
  | monteCarloInitCase =>
      exact live.congr rfl rfl rfl rfl live.endGame rfl (fun _ may => may) id
  | initCaseComplete peerId => exact live.initCaseComplete fits steps cases.1 cases.2
  | endFrame peerId => exact live.endFrame fits steps frames.1 frames.2
  | endCaseComplete peerId => exact live.endCaseComplete fits cases.1 cases.2
  | endRunComplete peerId => exact live.endRunComplete due peerId
  | timeAdvanced peerId => exact live.timeAdvanced fits steps frames.1 frames.2
  | registerEndEngage peerId =>
      exact live.congr rfl rfl rfl rfl live.endGame rfl (fun _ may => may) id
  | endEngagement peerId => cases undisturbed
  | pauseSimulation => exact live.pauseSimulation
  | startSimulation => exact live.startSimulation fits steps

/-- The controller fits its history and waits for something that can come. -/
structure LiveRun (job : Job) (first : Int) (run : Run) : Prop where
  sound : Sound job first false run
  live : Live job run.controller run.tally run.frameTimers

theorem liveRun_start (job : Job) (first : Int) : LiveRun job first (.start first) :=
  ⟨sound_start job first false, live_start job first⟩

theorem LiveRun.step (steps : job.stepped ≠ []) (liveRun : LiveRun job first run)
    (expires : run.Expires input) (cooperative : Cooperative job run input) :
    LiveRun job first (run.step job input) := by
  obtain ⟨phase, fits⟩ := liveRun.sound.fits
  refine ⟨liveRun.sound.step expires cooperative.1.disciplined (.inr cooperative.1.2), ?_⟩
  have stays := liveRun.live.handle steps fits expires cooperative
  rw [tally_step, frameTimers_step]
  exact stays

end Runs

/-! ## How much there is to do -/

/-- The frames of a case have different numbers, as the frame counter counts, up to the last one,
and so there are no more of them than there are numbers. -/
structure FramesCounted (job : Job) (tally : Tally) : Prop where
  within : tally.caseFrames ≤ tally.startFrame
  begun : tally.caseOpen = true → tally.initCase ≠ 0
  none : tally.initCase = 0 → tally.startFrame = 0
  apart : ∀ frame, 0 < frame → frame < tally.caseFrames →
    UInt32.ofNat (tally.startFrame - tally.caseFrames + frame) ≠ job.maxFrame
  total : tally.startFrame ≤ (tally.initCase - 1) * 2 ^ 32 + tally.caseFrames

section Frames

variable {job : Job} {first : Int} {engages : Bool} {tally : Tally}

theorem framesCounted_zero : FramesCounted job Tally.zero where
  within := Nat.le_refl _
  begun isOpen := by cases isOpen
  none _ := rfl
  apart frame _ less := by cases less
  total := Nat.zero_le _

/-- One of as many consecutive frames as the counter has values has any given number. -/
theorem FramesCounted.caseFrames_le (counted : FramesCounted job tally) :
    tally.caseFrames ≤ 2 ^ 32 := by
  by_contra more
  have last := job.maxFrame.toNat_lt
  let before := tally.startFrame - tally.caseFrames
  let frame := 1 + (job.maxFrame.toNat + 2 ^ 32 - (before + 1) % 2 ^ 32) % 2 ^ 32
  refine counted.apart frame (by omega) (by omega) ?_
  apply UInt32.toNat_inj.mp
  rw [UInt32.toNat_ofNat']
  change (before + frame) % 2 ^ 32 = job.maxFrame.toNat
  omega

theorem FramesCounted.startFrame_le (counted : FramesCounted job tally) :
    tally.startFrame ≤ tally.initCase * 2 ^ 32 := by
  have most := counted.caseFrames_le
  have total := counted.total
  have none := counted.none
  by_cases zero : tally.initCase = 0
  · rw [none zero]
    exact Nat.zero_le _
  · obtain ⟨cases, same⟩ := Nat.exists_eq_succ_of_ne_zero zero
    rw [same] at total ⊢
    rw [Nat.succ_sub_one] at total
    rw [Nat.succ_mul]
    omega

theorem FramesCounted.note {entry : Entry} (counted : FramesCounted job tally)
    (rule : Tally.Rule job first engages tally entry) : FramesCounted job (tally.note entry) := by
  cases entry with
  | received input =>
      cases input <;>
        exact ⟨counted.within, counted.begun, counted.none, counted.apart, counted.total⟩
  | initialized =>
      exact ⟨counted.within, fun _ => rule, counted.none, counted.apart, counted.total⟩
  | sent output =>
      cases output with
      | initCase =>
          have all := counted.startFrame_le
          refine ⟨Nat.zero_le _, fun _ => Nat.succ_ne_zero _,
            fun zero => absurd zero (Nat.succ_ne_zero _), ?_, ?_⟩
          · intro frame _ less
            cases less
          · change tally.startFrame ≤ (tally.initCase + 1 - 1) * 2 ^ 32 + 0
            rw [Nat.add_sub_cancel, Nat.add_zero]
            exact all
      | startFrame =>
          obtain ⟨isOpen, -, -, unspent⟩ := rule
          have begun := counted.begun isOpen
          have within := counted.within
          refine ⟨Nat.succ_le_succ within, fun _ => begun, fun zero => absurd zero begun, ?_,
            Nat.succ_le_succ counted.total⟩
          intro frame positive less
          change frame < tally.caseFrames + 1 at less
          change UInt32.ofNat (tally.startFrame + 1 - (tally.caseFrames + 1) + frame) ≠ _
          rw [Nat.add_sub_add_right]
          rcases Nat.lt_or_eq_of_le (Nat.le_of_lt_succ less) with earlier | same
          · exact counted.apart frame positive earlier
          · rw [same, Nat.sub_add_cancel within]
            rcases unspent with nothing | other
            · omega
            · exact other
      | endCase =>
          exact ⟨counted.within, (fun isOpen => nomatch isOpen), counted.none, counted.apart,
            counted.total⟩
      | _ => exact ⟨counted.within, counted.begun, counted.none, counted.apart, counted.total⟩

theorem Sound.framesCounted {run : Run} (sound : Sound job first engages run) :
    FramesCounted job run.tally :=
  (Tally.protocol job first engages).invariant (fun _ _ counted rule => counted.note rule)
    framesCounted_zero sound.admitted

end Frames

/-- The requests and answers so far. -/
def Tally.work (job : Job) (tally : Tally) : Nat :=
  tally.initCase + tally.advanceTime + tally.startFrame +
    (job.peers.map tally.initCaseComplete).sum + (job.peers.map tally.endCaseComplete).sum +
    (job.stepped.map tally.timeAdvanced).sum + (job.stepped.map tally.endFrame).sum

section Work

variable {job : Job} {first : Int} {tally : Tally}

theorem sum_more_le (answers : UInt32 → Nat) (peerId : UInt32) (members : List UInt32) :
    (members.map answers).sum ≤ (members.map (Tally.more answers peerId)).sum :=
  List.sum_le_sum fun _ _ => Nat.le_add_right _ _

theorem sum_more_lt (answers : UInt32 → Nat) {peerId : UInt32} {members : List UInt32}
    (member : peerId ∈ members) :
    (members.map answers).sum < (members.map (Tally.more answers peerId)).sum :=
  List.sum_lt_sum _ _ (fun _ _ => Nat.le_add_right _ _)
    ⟨peerId, member, by rw [Tally.more_eq, if_pos rfl]; exact Nat.lt_succ_self _⟩

theorem work_note_le (entry : Entry) : tally.work job ≤ (tally.note entry).work job := by
  cases entry with
  | initialized => exact Nat.le_refl _
  | sent output =>
      unfold Tally.work
      cases output with
      | initCase => dsimp only [Tally.note]; omega
      | advanceTime => dsimp only [Tally.note]; omega
      | startFrame => dsimp only [Tally.note]; omega
      | _ => exact Nat.le_refl _
  | received input =>
      unfold Tally.work
      cases input with
      | initCaseComplete peerId =>
          have more := sum_more_le tally.initCaseComplete peerId job.peers
          dsimp only [Tally.note]
          omega
      | endCaseComplete peerId =>
          have more := sum_more_le tally.endCaseComplete peerId job.peers
          dsimp only [Tally.note]
          omega
      | timeAdvanced peerId =>
          have more := sum_more_le tally.timeAdvanced peerId job.stepped
          dsimp only [Tally.note]
          omega
      | endFrame peerId =>
          have more := sum_more_le tally.endFrame peerId job.stepped
          dsimp only [Tally.note]
          omega
      | _ => exact Nat.le_refl _

theorem work_foldl_le (entries : List Entry) (tally : Tally) :
    tally.work job ≤ (entries.foldl Tally.note tally).work job := by
  induction entries generalizing tally with
  | nil => exact Nat.le_refl _
  | cons entry rest ih => exact (work_note_le entry).trans (ih (tally.note entry))

/-- An answer of a peer that is due. -/
def Answering (job : Job) : Input → Prop
  | .initCaseComplete peerId => peerId ∈ job.peers
  | .endCaseComplete peerId => peerId ∈ job.peers
  | .timeAdvanced peerId => peerId ∈ job.stepped
  | .endFrame peerId => peerId ∈ job.stepped
  | _ => False

theorem work_answering {input : Input} (answers : Answering job input) :
    tally.work job < (tally.note (.received input)).work job := by
  unfold Tally.work
  cases input with
  | initCaseComplete peerId =>
      have more := sum_more_lt tally.initCaseComplete answers
      dsimp only [Tally.note]
      omega
  | endCaseComplete peerId =>
      have more := sum_more_lt tally.endCaseComplete answers
      dsimp only [Tally.note]
      omega
  | timeAdvanced peerId =>
      have more := sum_more_lt tally.timeAdvanced answers
      dsimp only [Tally.note]
      omega
  | endFrame peerId =>
      have more := sum_more_lt tally.endFrame answers
      dsimp only [Tally.note]
      omega
  | _ => cases answers

/-- Beginning a frame is a request. -/
theorem work_beginFrame (controller : FramedController) :
    tally.work job < ((controller.beginFrame job).2.foldl Tally.note tally).work job := by
  unfold FramedController.beginFrame
  split
  · refine Nat.lt_of_lt_of_le ?_ (work_foldl_le (FramedController.scheduleFrame job) _)
    unfold Tally.work
    dsimp only [Tally.note]
    omega
  · refine Nat.lt_of_lt_of_le ?_ (work_foldl_le
      (if job.separateAdvanceTime then [] else FramedController.scheduleFrame job) _)
    unfold Tally.work
    dsimp only [Tally.note]
    omega

end Work

/-! ## Progress -/

section Progress

variable {job : Job} {first : Int} {run : Run} {input : Input}

theorem Round.collects {collecting : Bool} {barrier : Barrier UInt32} {members : List UInt32}
    {requests : Nat} {answers : UInt32 → Nat}
    (round : Round collecting barrier members requests answers) :
    barrier.Collecting members requests answers := by
  cases collecting with
  | true => exact round
  | false => exact Barrier.Settled.collecting round

theorem Round.answers_le {collecting : Bool} {barrier : Barrier UInt32} {members : List UInt32}
    {requests : Nat} {answers : UInt32 → Nat}
    (round : Round collecting barrier members requests answers) :
    ∀ peerId ∈ members, answers peerId ≤ requests := by
  intro peerId member
  rcases round.collects.owed peerId member with all | ⟨last, -⟩
  · exact Nat.le_of_eq all
  · omega

theorem sum_answers_le {members : List UInt32} {requests : Nat} {answers : UInt32 → Nat}
    (within : ∀ peerId ∈ members, answers peerId ≤ requests) :
    (members.map answers).sum ≤ members.length * requests := by
  have sum := List.sum_le_card_nsmul (members.map answers) requests fun count member => by
    obtain ⟨peerId, among, rfl⟩ := List.mem_map.mp member
    exact within peerId among
  rw [List.length_map] at sum
  exact sum

/-- What there is to do at most, with as many frames in each case as the counter has values. -/
def Job.bound (job : Job) (first : Int) : Nat :=
  let cases := (job.cases first).toNat
  let frames := cases * 2 ^ 32
  cases + (frames + 1) + frames + job.peers.length * cases + job.peers.length * cases +
    job.stepped.length * (frames + 1) + job.stepped.length * frames

theorem LiveRun.frames_le (liveRun : LiveRun job first run) :
    run.tally.startFrame ≤ (job.cases first).toNat * 2 ^ 32 := by
  have atMost := liveRun.sound.casesCounted.atMost
  have cases : run.tally.initCase ≤ (job.cases first).toNat := by omega
  exact liveRun.sound.framesCounted.startFrame_le.trans (Nat.mul_le_mul_right _ cases)

theorem LiveRun.advances_le (liveRun : LiveRun job first run) (steps : job.stepped ≠ []) :
    run.tally.advanceTime ≤ run.tally.startFrame + 1 := by
  obtain ⟨phase, fits⟩ := liveRun.sound.fits
  by_cases separate : job.separateAdvanceTime = true
  · rw [fits.paired separate steps]
    split
    · exact Nat.le_refl _
    · exact Nat.le_succ _
  · rw [liveRun.live.direct (Bool.eq_false_iff.mpr separate)]
    exact Nat.zero_le _

theorem LiveRun.bounded (liveRun : LiveRun job first run) (steps : job.stepped ≠ []) :
    run.tally.work job ≤ job.bound first := by
  obtain ⟨phase, fits⟩ := liveRun.sound.fits
  have atMost := liveRun.sound.casesCounted.atMost
  have cases : run.tally.initCase ≤ (job.cases first).toNat := by omega
  have ends : run.tally.endCase ≤ (job.cases first).toNat := by
    have counted := fits.cases
    omega
  have frames := liveRun.frames_le
  have advances : run.tally.advanceTime ≤ (job.cases first).toNat * 2 ^ 32 + 1 :=
    (liveRun.advances_le steps).trans (Nat.succ_le_succ frames)
  have init := sum_answers_le fun peerId member =>
    (fits.init.answers_le peerId member).trans cases
  have ended := sum_answers_le fun peerId member =>
    (fits.ends.answers_le peerId member).trans ends
  have framed := sum_answers_le fun peerId member =>
    (fits.frames.answers_le peerId member).trans frames
  have advanced : (job.stepped.map run.tally.timeAdvanced).sum ≤
      job.stepped.length * ((job.cases first).toNat * 2 ^ 32 + 1) := by
    refine sum_answers_le fun peerId member => ?_
    have within : run.tally.timeAdvanced peerId ≤ run.tally.advanceTime := by
      rcases fits.advances peerId member with all | ⟨-, last, -⟩
      · exact Nat.le_of_eq all
      · omega
    exact within.trans advances
  unfold Tally.work Job.bound
  dsimp only
  omega

/-- An answer that is due brings the run on. -/
theorem progress_answering (answers : Answering job input) :
    run.tally.work job < (run.step job input).tally.work job := by
  rw [tally_step]
  exact (work_answering answers).trans_le (work_foldl_le _ _)

/-- So does a frame that is begun. -/
theorem progress_beginFrame (controller : FramedController)
    (unnoted : run.tally.note (.received input) = run.tally)
    (sent : (run.controller.handle job input).2 = (controller.beginFrame job).2) :
    run.tally.work job < (run.step job input).tally.work job := by
  rw [tally_step, unnoted, sent]
  exact work_beginFrame controller

/-- Until the run has ended, there is an input that it waits for. -/
theorem LiveRun.progress (liveRun : LiveRun job first run) (running : run.tally.endRun ≠ 1) :
    ∃ input, run.Expires input ∧ Cooperative job run input ∧
      run.tally.work job < (run.step job input).tally.work job := by
  obtain ⟨phase, fits⟩ := liveRun.sound.fits
  have live := liveRun.live
  have inCase : run.tally.caseOpen = true → ∃ input, run.Expires input ∧
      Cooperative job run input ∧
        run.tally.work job < (run.step job input).tally.work job := by
    intro isOpen
    cases live.inCase isOpen with
    | start ready begins =>
        by_cases paused : run.controller.paused = true
        · refine ⟨.startSimulation, trivial, ⟨⟨⟨trivial, trivial⟩, rfl⟩, trivial⟩, ?_⟩
          refine progress_beginFrame { run.controller with paused := false } rfl ?_
          change (run.controller.doStartSimulation job).2 = _
          unfold FramedController.doStartSimulation
          dsimp only
          rw [if_pos ready]
        · have scheduled : 0 < run.frameTimers := begins.resolve_left paused
          refine ⟨.frame, trivial, ⟨⟨⟨trivial, trivial⟩, rfl⟩, scheduled⟩, ?_⟩
          refine progress_beginFrame run.controller rfl ?_
          change (run.controller.handleTimeout job .frame false).2 = _
          unfold FramedController.handleTimeout
          dsimp only
          rw [if_pos ⟨Bool.eq_false_iff.mpr paused, ready⟩]
    | frame awaiting timed =>
        obtain ⟨peerId, member, due⟩ := awaiting.exists_due fits.frames.collects
        exact ⟨.endFrame peerId, trivial, ⟨⟨⟨trivial, member, due⟩, rfl⟩, trivial⟩,
          progress_answering member⟩
    | advance someone due timed =>
        obtain ⟨peerId, waits⟩ := someone
        have member := live.stepped peerId waits
        exact ⟨.timeAdvanced peerId, trivial, ⟨⟨⟨trivial, member, due peerId waits⟩, rfl⟩, trivial⟩,
          progress_answering member⟩
  cases phase with
  | idle =>
      have none : run.tally.initCase = 0 := fits.first_case.mpr rfl
      refine ⟨.startup true, live.unbegun none, ⟨⟨⟨trivial, trivial⟩, rfl⟩, trivial⟩, ?_⟩
      rw [tally_step]
      change _ < ((run.tally.note _).note (.sent .initCase)).work job
      unfold Tally.work
      dsimp only [Tally.note]
      omega
  | initializing =>
      obtain ⟨peerId, member, due⟩ :=
        (live.init fits.cases fits.caseOpen).exists_due fits.init.collects
      exact ⟨.initCaseComplete peerId, trivial, ⟨⟨⟨⟨member, due⟩, trivial⟩, rfl⟩, trivial⟩,
        progress_answering member⟩
  | advancing => exact inCase fits.caseOpen
  | framing => exact inCase fits.caseOpen
  | ready => exact inCase fits.caseOpen
  | ending =>
      obtain ⟨peerId, member, due⟩ := (fits.awaiting rfl).exists_due fits.ends.collects
      exact ⟨.endCaseComplete peerId, trivial, ⟨⟨⟨⟨member, due⟩, trivial⟩, rfl⟩, trivial⟩,
        progress_answering member⟩
  | finished => exact absurd fits.endRun running

theorem liveRun_of_cooperative (steps : job.stepped ≠ []) {inputs : List Input}
    (admitted : ((simulation job).restrict (Cooperative job)).Admits (.start first) inputs) :
    LiveRun job first ((simulation job).exec (.start first) inputs) := by
  refine ((simulation job).restrict (Cooperative job)).invariant ?_
    (liveRun_start job first) admitted
  intro run input liveRun guarded
  exact liveRun.step steps guarded.1 guarded.2

/-- What holds after a cooperative run: it is no longer than there is to do, and it can be brought
to its end. -/
structure Completable (job : Job) (first : Int) (run : Run) : Prop where
  frames : run.history.count (.sent .startFrame) ≤ (job.cases first).toNat * 2 ^ 32
  advances : run.history.count (.sent .advanceTime) ≤ run.history.count (.sent .startFrame) + 1
  completes : ∃ inputs, ((simulation job).restrict (Cooperative job)).Admits run inputs ∧
    ((simulation job).exec run inputs).history.count (.sent .endRun) = 1 ∧
      CasesInSequence job first ((simulation job).exec run inputs).history

theorem LiveRun.completable (liveRun : LiveRun job first run) (steps : job.stepped ≠ []) :
    Completable job first run := by
  have counts := Tally.sent_eq_count run.history
  have frames := liveRun.frames_le
  have advances := liveRun.advances_le steps
  unfold Run.tally at frames advances
  rw [counts.2.2.2.2] at frames advances
  rw [counts.2.2.2.1] at advances
  refine ⟨frames, advances, ?_⟩
  obtain ⟨inputs, admitted, last, finished⟩ :=
    ((simulation job).restrict (Cooperative job)).exists_finishing (LiveRun job first)
      (fun run => run.tally.endRun = 1) (fun run => run.tally.work job) (job.bound first)
      (fun run liveRun => liveRun.bounded steps)
      (fun run liveRun running => by
        obtain ⟨input, expires, cooperative, more⟩ := liveRun.progress running
        exact ⟨input, ⟨expires, cooperative⟩, liveRun.step steps expires cooperative, more⟩)
      liveRun
  refine ⟨inputs, admitted, ?_, last.sound.casesInSequence⟩
  rw [← (Tally.sent_eq_count _).2.2.1]
  exact finished

/-- Without a peer that is stepped no case ends, and neither does the run. -/
theorem unended_of_rule (unstepped : job.stepped = []) {tally : Tally} {entry : Entry}
    (unended : tally.endCase = 0 ∧ tally.endRun = 0)
    (rule : Tally.Rule job first false tally entry) :
    (tally.note entry).endCase = 0 ∧ (tally.note entry).endRun = 0 := by
  cases entry with
  | received input => cases input <;> exact unended
  | initialized => exact unended
  | sent output =>
      cases output with
      | endCase =>
          rcases rule.2 with engages | ⟨steps, -⟩
          · cases engages
          · exact absurd unstepped steps
      | endRun =>
          obtain ⟨-, ended, begun, -⟩ := rule
          rw [ended.1, unended.1] at begun
          cases begun
      | _ => exact unended

theorem unended_of_unstepped (unstepped : job.stepped = []) {inputs : List Input}
    (admitted : ((simulation job).restrict (Cooperative job)).Admits (.start first) inputs) :
    ((simulation job).exec (.start first) inputs).tally.endRun = 0 := by
  have undisturbed := sound_of_undisturbed (admitted.weaken fun _ _ _ both => both.1)
  exact ((Tally.protocol job first false).invariant
    (fun _ _ unended rule => unended_of_rule unstepped unended rule)
    (⟨rfl, rfl⟩ : Tally.zero.endCase = 0 ∧ Tally.zero.endRun = 0) undisturbed.admitted).2

/--
A job never comes to a stop before its end, whatever the order of the answers, the timers and the
pauses, if and only if it has a peer that is stepped: a frame that nobody is stepped for is never
ended.
-/
theorem completable_iff_stepped (job : Job) (first : Int) :
    (∀ inputs, ((simulation job).restrict (Cooperative job)).Admits (.start first) inputs →
      Completable job first ((simulation job).exec (.start first) inputs)) ↔
        job.stepped ≠ [] := by
  constructor
  · intro completable unstepped
    obtain ⟨inputs, admitted, ended, -⟩ := (completable [] trivial).completes
    have unended := unended_of_unstepped unstepped admitted
    have counted := (Tally.sent_eq_count
      ((simulation job).exec (.start first) inputs).history).2.2.1
    exact absurd (unended.symm.trans (counted.trans ended)) (by decide)
  · intro steps inputs admitted
    exact (liveRun_of_cooperative steps admitted).completable steps

end Progress

end Nise.Utilities
