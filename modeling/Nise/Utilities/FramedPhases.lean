import Nise.Utilities.FramedProtocol

/-!
# What the framed controller remembers

A job is in one of seven phases.  The phase says which answers are due and ties the fields of
the controller to the messages that have been sent and received; every handler leads from one
phase to another and sends only what the protocol allows.
-/

namespace Nise.Utilities

open Nise.Lib

/-! ## The phases of a run -/

inductive Phase where
  | idle
  | initializing
  | advancing
  | framing
  | ready
  | ending
  | finished
  deriving DecidableEq, Repr

namespace Phase

/-- The case is initialized and has not ended. -/
def inCase : Phase → Bool
  | advancing => true
  | framing => true
  | ready => true
  | _ => false

/-- One more case has begun than has ended. -/
def begun : Phase → Nat
  | initializing => 1
  | advancing => 1
  | framing => 1
  | ready => 1
  | _ => 0

/-- The next frame of the case has not been sent. -/
def unstarted : Phase → Bool
  | initializing => true
  | advancing => true
  | ready => true
  | _ => false

end Phase

/-- Answers to the last request are being collected, or all requests are answered. -/
def Round (collecting : Bool) (barrier : Barrier UInt32) (members : List UInt32)
    (requests : Nat) (answers : UInt32 → Nat) : Prop :=
  match collecting with
  | true => barrier.Collecting members requests answers
  | false => barrier.Settled members requests answers

/-- An answer is only due while answers are collected. -/
theorem Round.collecting {collecting : Bool} {barrier : Barrier UInt32} {members : List UInt32}
    {requests : Nat} {answers : UInt32 → Nat} {peerId : UInt32}
    (round : Round collecting barrier members requests answers) (member : peerId ∈ members)
    (due : answers peerId < requests) :
    collecting = true ∧ barrier.Collecting members requests answers := by
  cases collecting with
  | true => exact ⟨rfl, round⟩
  | false =>
      have settled : barrier.Settled members requests answers := round
      have answered := settled.answered peerId member
      omega

/-- How the controller, the messages so far and the phase fit together. -/
structure Fits (job : Job) (first : Int) (phase : Phase) (controller : FramedController)
    (tally : Tally) : Prop where
  startTimer : controller.startTimer = true → phase = .idle
  ready : controller.readyToStartFrame = true → phase = .ready ∧ job.stepped ≠ []
  caseOpen : tally.caseOpen = phase.inCase
  init : Round (phase == .initializing) controller.initCaseSet job.peers tally.initCase
    tally.initCaseComplete
  frames : Round (phase == .framing) controller.endframeSet job.stepped tally.startFrame
    tally.endFrame
  ends : Round (phase == .ending) controller.endcaseCompleteSet job.peers tally.endCase
    tally.endCaseComplete
  advances : ∀ peer ∈ job.stepped, tally.timeAdvanced peer = tally.advanceTime ∨
    phase = .advancing ∧ tally.timeAdvanced peer + 1 = tally.advanceTime ∧
      controller.waitingOnTimeadvance peer = true
  paired : job.separateAdvanceTime = true → job.stepped ≠ [] →
    tally.advanceTime = tally.startFrame + if phase = .advancing then 1 else 0
  counted : controller.frameCount = UInt32.ofNat tally.startFrame
  unspent : phase.unstarted = true →
    tally.caseFrames = 0 ∨ UInt32.ofNat tally.startFrame ≠ job.maxFrame
  inhabited : phase.inCase = true → job.peers ≠ []
  awaiting : phase = .ending →
    controller.endcaseCompleteSet.Awaiting job.peers tally.endCase tally.endCaseComplete
  cases : tally.initCase = tally.endCase + phase.begun
  first_case : tally.initCase = 0 ↔ phase = .idle
  endRun : tally.endRun = if phase = .finished then 1 else 0
  caseNumber : controller.caseNumber = first + (tally.initCase - 1 : Nat)
  further : 1 < tally.initCase → first + (tally.initCase - 1 : Nat) ≤ job.numberOfRuns

/-- The initialized case of `Fits` between two frames, whoever is about to start the next. -/
structure Between (job : Job) (first : Int) (controller : FramedController) (tally : Tally) :
    Prop where
  startTimer : controller.startTimer = false
  caseOpen : tally.caseOpen = true
  init : controller.initCaseSet.Settled job.peers tally.initCase tally.initCaseComplete
  frames : controller.endframeSet.Settled job.stepped tally.startFrame tally.endFrame
  ends : controller.endcaseCompleteSet.Settled job.peers tally.endCase tally.endCaseComplete
  advances : ∀ peer ∈ job.stepped, tally.timeAdvanced peer = tally.advanceTime
  counted : controller.frameCount = UInt32.ofNat tally.startFrame
  inhabited : job.peers ≠ []
  cases : tally.initCase = tally.endCase + 1
  endRun : tally.endRun = 0
  caseNumber : controller.caseNumber = first + (tally.initCase - 1 : Nat)
  further : 1 < tally.initCase → first + (tally.initCase - 1 : Nat) ≤ job.numberOfRuns

/-- Between two cases, or before the first one, nothing is due. -/
structure BetweenCases (job : Job) (controller : FramedController) (tally : Tally) : Prop where
  startTimer : controller.startTimer = false
  unready : controller.readyToStartFrame = false
  caseOpen : tally.caseOpen = false
  init : controller.initCaseSet.Settled job.peers tally.initCase tally.initCaseComplete
  frames : controller.endframeSet.Settled job.stepped tally.startFrame tally.endFrame
  ends : controller.endcaseCompleteSet.Settled job.peers tally.endCase tally.endCaseComplete
  advances : ∀ peer ∈ job.stepped, tally.timeAdvanced peer = tally.advanceTime
  paired : job.separateAdvanceTime = true → job.stepped ≠ [] →
    tally.advanceTime = tally.startFrame
  counted : controller.frameCount = UInt32.ofNat tally.startFrame
  cases : tally.initCase = tally.endCase
  endRun : tally.endRun = 0

section Steps

variable {job : Job} {first : Int} {engages : Bool} {phase : Phase}
  {controller : FramedController} {tally : Tally}

theorem Between.idle (between : Between job first controller tally) : tally.Idle job :=
  ⟨between.init.answered, between.frames.answered, between.advances⟩

theorem Between.begun (between : Between job first controller tally) : tally.initCase ≠ 0 := by
  rw [between.cases]
  exact Nat.succ_ne_zero _

theorem foldl_scheduleFrame (tally : Tally) :
    (FramedController.scheduleFrame job).foldl Tally.note tally = tally := by
  unfold FramedController.scheduleFrame
  split <;> rfl

theorem admits_scheduleFrame (tally : Tally) :
    (Tally.protocol job first engages).Admits tally (FramedController.scheduleFrame job) := by
  unfold FramedController.scheduleFrame
  split
  · exact ⟨trivial, trivial⟩
  · trivial

/-- The controller and tally after a handler, in some phase, with everything it sent allowed. -/
def Follows (job : Job) (first : Int) (engages : Bool) (tally : Tally)
    (out : FramedController × List Entry) : Prop :=
  (∃ phase, Fits job first phase out.1 (out.2.foldl Tally.note tally)) ∧
    (Tally.protocol job first engages).Admits tally out.2

/-- `Fits` does not depend on the fields that only decide when something happens. -/
theorem Fits.congr {other : FramedController} (fits : Fits job first phase controller tally)
    (same : other.startTimer = controller.startTimer ∧
      (other.readyToStartFrame = true → controller.readyToStartFrame = true) ∧
      other.initCaseSet = controller.initCaseSet ∧ other.endframeSet = controller.endframeSet ∧
      other.endcaseCompleteSet = controller.endcaseCompleteSet ∧
      other.waitingOnTimeadvance = controller.waitingOnTimeadvance ∧
      other.frameCount = controller.frameCount ∧ other.caseNumber = controller.caseNumber) :
    Fits job first phase other tally := by
  obtain ⟨timer, ready, init, frames, ends, waiting, count, number⟩ := same
  exact
    { fits with
      startTimer := by rw [timer]; exact fits.startTimer
      ready := fun flag => fits.ready (ready flag)
      init := by rw [init]; exact fits.init
      frames := by rw [frames]; exact fits.frames
      ends := by rw [ends]; exact fits.ends
      advances := by rw [waiting]; exact fits.advances
      counted := by rw [count]; exact fits.counted
      awaiting := by rw [ends]; exact fits.awaiting
      caseNumber := by rw [number]; exact fits.caseNumber }

theorem Between.startNewFrame (between : Between job first controller tally)
    (paired : job.separateAdvanceTime = true → tally.advanceTime = tally.startFrame + 1)
    (unspent : tally.caseFrames = 0 ∨ UInt32.ofNat tally.startFrame ≠ job.maxFrame) :
    let out := controller.startNewFrame job
    Fits job first .framing { out.1 with readyToStartFrame := false }
        (out.2.foldl Tally.note tally) ∧
      (Tally.protocol job first engages).Admits tally out.2 := by
  have rest : ∀ tally : Tally, (if job.separateAdvanceTime then []
      else FramedController.scheduleFrame job).foldl Tally.note tally = tally ∧
      (Tally.protocol job first engages).Admits tally (if job.separateAdvanceTime then []
        else FramedController.scheduleFrame job) := by
    intro tally
    split
    · exact ⟨rfl, trivial⟩
    · exact ⟨foldl_scheduleFrame tally, admits_scheduleFrame tally⟩
  unfold FramedController.startNewFrame
  dsimp only
  rw [List.foldl_cons, (rest _).1]
  refine ⟨?_, ⟨between.caseOpen, between.idle, paired, unspent⟩, (rest _).2⟩
  exact
    { startTimer := fun timer => absurd timer (Bool.eq_false_iff.mp between.startTimer)
      ready := fun flag => by cases flag
      caseOpen := between.caseOpen
      init := between.init
      frames := between.frames.request
      ends := between.ends
      advances := fun peer member => .inl (between.advances peer member)
      paired := fun separate _ => paired separate
      counted := by
        change controller.frameCount + 1 = UInt32.ofNat (tally.startFrame + 1)
        rw [between.counted, UInt32.ofNat_add]
        rfl
      unspent := fun unstarted => by cases unstarted
      inhabited := fun _ => between.inhabited
      awaiting := fun ending => by cases ending
      cases := between.cases
      first_case := iff_of_false between.begun (by decide)
      endRun := between.endRun
      caseNumber := between.caseNumber
      further := between.further }

theorem Between.advanceTime (between : Between job first controller tally)
    (paired : job.stepped ≠ [] → tally.advanceTime = tally.startFrame)
    (unspent : tally.caseFrames = 0 ∨ UInt32.ofNat tally.startFrame ≠ job.maxFrame) :
    let out := controller.advanceTime job
    Fits job first .advancing { out.1 with readyToStartFrame := false }
        (out.2.foldl Tally.note tally) ∧
      (Tally.protocol job first engages).Admits tally out.2 := by
  unfold FramedController.advanceTime
  dsimp only
  rw [List.foldl_cons, foldl_scheduleFrame]
  refine ⟨?_, ⟨between.caseOpen, between.idle⟩, admits_scheduleFrame _⟩
  exact
    { startTimer := fun timer => absurd timer (Bool.eq_false_iff.mp between.startTimer)
      ready := fun flag => by cases flag
      caseOpen := between.caseOpen
      init := between.init
      frames := between.frames
      ends := between.ends
      advances := by
        intro peer member
        exact .inr ⟨rfl, congrArg (· + 1) (between.advances peer member),
          if_pos (List.contains_iff_mem.mpr member)⟩
      paired := fun _ steps => congrArg (· + 1) (paired steps)
      counted := between.counted
      unspent := fun _ => unspent
      inhabited := fun _ => between.inhabited
      awaiting := fun ending => by cases ending
      cases := between.cases
      first_case := iff_of_false between.begun (by decide)
      endRun := between.endRun
      caseNumber := between.caseNumber
      further := between.further }

/-- Whoever begins the next frame leaves a controller that fits. -/
theorem Between.beginFrame (between : Between job first controller tally)
    (paired : job.separateAdvanceTime = true → job.stepped ≠ [] →
      tally.advanceTime = tally.startFrame)
    (unspent : tally.caseFrames = 0 ∨ UInt32.ofNat tally.startFrame ≠ job.maxFrame) :
    let out := controller.beginFrame job
    (∃ phase, Fits job first phase { out.1 with readyToStartFrame := false }
        (out.2.foldl Tally.note tally)) ∧
      (Tally.protocol job first engages).Admits tally out.2 := by
  unfold FramedController.beginFrame
  dsimp only
  split
  · next separate =>
      obtain ⟨fits, admitted⟩ := between.advanceTime (paired separate) unspent
      exact ⟨⟨.advancing, fits⟩, admitted⟩
  · next direct =>
      obtain ⟨fits, admitted⟩ :=
        between.startNewFrame (fun separate => absurd separate direct) unspent
      exact ⟨⟨.framing, fits⟩, admitted⟩

/-- The next frame has to wait for its start. -/
theorem Between.ready (between : Between job first controller tally)
    (paired : job.separateAdvanceTime = true → job.stepped ≠ [] →
      tally.advanceTime = tally.startFrame)
    (unspent : tally.caseFrames = 0 ∨ UInt32.ofNat tally.startFrame ≠ job.maxFrame)
    (steps : job.stepped ≠ []) :
    Fits job first .ready { controller with readyToStartFrame := true } tally where
  startTimer timer := absurd timer (Bool.eq_false_iff.mp between.startTimer)
  ready _ := ⟨rfl, steps⟩
  caseOpen := between.caseOpen
  init := between.init
  frames := between.frames
  ends := between.ends
  advances peer member := .inl (between.advances peer member)
  paired := paired
  counted := between.counted
  unspent _ := unspent
  inhabited _ := between.inhabited
  awaiting ending := by cases ending
  cases := between.cases
  first_case := iff_of_false between.begun (by decide)
  endRun := between.endRun
  caseNumber := between.caseNumber
  further := between.further

/-- The case ends. -/
theorem Between.endCase (between : Between job first controller tally)
    (paired : job.separateAdvanceTime = true → job.stepped ≠ [] →
      tally.advanceTime = tally.startFrame)
    (unready : controller.readyToStartFrame = false) :
    Fits job first .ending controller (tally.note (.sent .endCase)) where
  startTimer timer := absurd timer (Bool.eq_false_iff.mp between.startTimer)
  ready flag := absurd flag (Bool.eq_false_iff.mp unready)
  caseOpen := rfl
  init := between.init
  frames := between.frames
  ends := between.ends.request
  advances peer member := .inl (between.advances peer member)
  paired := paired
  counted := between.counted
  unspent unstarted := by cases unstarted
  inhabited inCase := by cases inCase
  awaiting _ := between.ends.awaiting between.inhabited
  cases := between.cases
  first_case := iff_of_false between.begun (by decide)
  endRun := between.endRun
  caseNumber := between.caseNumber
  further := between.further

theorem Fits.unready (fits : Fits job first phase controller tally) (other : phase ≠ .ready) :
    controller.readyToStartFrame = false := by
  by_contra flag
  exact other (fits.ready (Bool.not_eq_false _ ▸ flag)).1

theorem Fits.unscheduled (fits : Fits job first phase controller tally) (other : phase ≠ .idle) :
    controller.startTimer = false := by
  by_contra timer
  exact other (fits.startTimer (Bool.not_eq_false _ ▸ timer))

theorem Fits.advanced (fits : Fits job first phase controller tally)
    (other : phase ≠ .advancing) :
    ∀ peer ∈ job.stepped, tally.timeAdvanced peer = tally.advanceTime := by
  intro peer member
  rcases fits.advances peer member with all | ⟨advancing, -⟩
  · exact all
  · exact absurd advancing other

/-- An initialized case in which neither a frame nor an advance of the time is under way. -/
theorem Fits.between (fits : Fits job first phase controller tally) (inCase : phase.inCase = true)
    (frames : controller.endframeSet.Settled job.stepped tally.startFrame tally.endFrame)
    (advances : ∀ peer ∈ job.stepped, tally.timeAdvanced peer = tally.advanceTime) :
    Between job first controller tally := by
  have settled : controller.initCaseSet.Settled job.peers tally.initCase tally.initCaseComplete ∧
      controller.endcaseCompleteSet.Settled job.peers tally.endCase tally.endCaseComplete ∧
      phase.begun = 1 ∧ tally.endRun = 0 ∧ phase ≠ .idle := by
    have init := fits.init
    have ends := fits.ends
    have running := fits.endRun
    cases phase with
    | framing => exact ⟨init, ends, rfl, running, by decide⟩
    | advancing => exact ⟨init, ends, rfl, running, by decide⟩
    | ready => exact ⟨init, ends, rfl, running, by decide⟩
    | _ => cases inCase
  obtain ⟨init, ends, begun, running, idle⟩ := settled
  exact
    { startTimer := fits.unscheduled idle
      caseOpen := fits.caseOpen.trans inCase
      init := init
      frames := frames
      ends := ends
      advances := advances
      counted := fits.counted
      inhabited := fits.inhabited inCase
      cases := fits.cases.trans (by rw [begun])
      endRun := running
      caseNumber := fits.caseNumber
      further := fits.further }

/-- The next case begins. -/
theorem BetweenCases.initCase (engages : Bool) (between : BetweenCases job controller tally)
    (number : controller.caseNumber = first + (tally.initCase : Int))
    (further : tally.initCase = 0 ∨ first + (tally.initCase : Int) ≤ job.numberOfRuns) :
    Fits job first .initializing controller (tally.note (.sent .initCase)) ∧
      Tally.Rule job first engages tally (.sent .initCase) := by
  refine ⟨?_, between.endRun, ⟨between.cases, between.ends.answered⟩, further⟩
  exact
    { startTimer := fun timer => absurd timer (Bool.eq_false_iff.mp between.startTimer)
      ready := fun flag => absurd flag (Bool.eq_false_iff.mp between.unready)
      caseOpen := between.caseOpen
      init := between.init.request
      frames := between.frames
      ends := between.ends
      advances := fun peer member => .inl (between.advances peer member)
      paired := between.paired
      counted := between.counted
      unspent := fun _ => .inl rfl
      inhabited := fun inCase => by cases inCase
      awaiting := fun ending => by cases ending
      cases := congrArg (· + 1) between.cases
      first_case := iff_of_false (Nat.succ_ne_zero _) (by decide)
      endRun := between.endRun
      caseNumber := number
      further := by
        intro several
        change 1 < tally.initCase + 1 at several
        rcases further with none | more
        · omega
        · exact more }

/-- The run ends after its last case. -/
theorem BetweenCases.endRun_follows (engages : Bool)
    (between : BetweenCases job controller tally) (begun : tally.initCase ≠ 0)
    (number : controller.caseNumber = first + (tally.initCase - 1 : Nat))
    (further : 1 < tally.initCase → first + (tally.initCase - 1 : Nat) ≤ job.numberOfRuns)
    (last : job.numberOfRuns ≤ controller.caseNumber) :
    Fits job first .finished controller (tally.note (.sent .endRun)) ∧
      Tally.Rule job first engages tally (.sent .endRun) := by
  have all : (tally.initCase : Int) = max 1 (job.numberOfRuns - first + 1) := by omega
  refine ⟨?_, between.endRun, ⟨between.cases, between.ends.answered⟩,
    Nat.pos_of_ne_zero begun, all⟩
  exact
    { startTimer := fun timer => absurd timer (Bool.eq_false_iff.mp between.startTimer)
      ready := fun flag => absurd flag (Bool.eq_false_iff.mp between.unready)
      caseOpen := between.caseOpen
      init := between.init
      frames := between.frames
      ends := between.ends
      advances := fun peer member => .inl (between.advances peer member)
      paired := between.paired
      counted := between.counted
      unspent := fun unstarted => by cases unstarted
      inhabited := fun inCase => by cases inCase
      awaiting := fun ending => by cases ending
      cases := between.cases
      first_case := iff_of_false begun (by decide)
      endRun := congrArg (· + 1) between.endRun
      caseNumber := number
      further := further }

/-! ## One lemma for each kind of input -/

/-- Nothing that the protocol looks at changes. -/
theorem Fits.follows {out : FramedController × List Entry}
    (fits : Fits job first phase out.1 tally)
    (unnoted : out.2.foldl Tally.note tally = tally)
    (admitted : (Tally.protocol job first engages).Admits tally out.2) :
    Follows job first engages tally out :=
  ⟨⟨phase, by rw [unnoted]; exact fits⟩, admitted⟩

theorem Fits.watchdog (fits : Fits job first phase controller tally) :
    Follows job first engages tally controller.watchdogAction := by
  unfold FramedController.watchdogAction
  split
  · exact Fits.follows (fits.congr ⟨rfl, id, rfl, rfl, rfl, rfl, rfl, rfl⟩) rfl
      ⟨trivial, trivial, trivial⟩
  · exact Fits.follows (fits.congr ⟨rfl, id, rfl, rfl, rfl, rfl, rfl, rfl⟩) rfl trivial

theorem Fits.endRunComplete (fits : Fits job first phase controller tally) (peerId : UInt32) :
    Follows job first engages tally (controller.doEndRunComplete job peerId) := by
  unfold FramedController.doEndRunComplete
  dsimp only
  split
  · exact Fits.follows (fits.congr ⟨rfl, id, rfl, rfl, rfl, rfl, rfl, rfl⟩) rfl ⟨trivial, trivial⟩
  · exact Fits.follows (fits.congr ⟨rfl, id, rfl, rfl, rfl, rfl, rfl, rfl⟩) rfl trivial

theorem Fits.startup (fits : Fits job first phase controller tally)
    (scheduled : controller.startTimer = true) (peersStarted : Bool) :
    Follows job first engages tally (controller.handleTimeout job .startup peersStarted) := by
  have idle := fits.startTimer scheduled
  subst idle
  unfold FramedController.handleTimeout FramedController.startsimAction
  dsimp only
  split
  · have none : tally.initCase = 0 := fits.first_case.mpr rfl
    have between : BetweenCases job { controller with startTimer := false } tally :=
      { startTimer := rfl
        unready := fits.unready (by decide)
        caseOpen := fits.caseOpen
        init := fits.init
        frames := fits.frames
        ends := fits.ends
        advances := fits.advanced (by decide)
        paired := fits.paired
        counted := fits.counted
        cases := fits.cases
        endRun := fits.endRun }
    have number : controller.caseNumber = first + (tally.initCase : Int) := by
      have first_number := fits.caseNumber
      rw [none] at first_number ⊢
      exact first_number
    obtain ⟨begun, allowed⟩ := between.initCase engages number (.inl none)
    exact ⟨⟨.initializing, begun⟩, trivial, allowed, trivial⟩
  · have kept : Fits job first .idle { controller with startTimer := true } tally :=
      fits.congr ⟨scheduled.symm, id, rfl, rfl, rfl, rfl, rfl, rfl⟩
    exact kept.follows rfl ⟨trivial, trivial⟩

/-- A frame is begun out of the phase in which the controller waits for its start. -/
theorem Fits.begin (fits : Fits job first phase controller tally)
    (ready : controller.readyToStartFrame = true) :
    let out := controller.beginFrame job
    (∃ phase, Fits job first phase { out.1 with readyToStartFrame := false }
        (out.2.foldl Tally.note tally)) ∧
      (Tally.protocol job first engages).Admits tally out.2 := by
  have waiting := (fits.ready ready).1
  subst waiting
  have between := fits.between rfl fits.frames (fits.advanced (by decide))
  exact between.beginFrame fits.paired (fits.unspent rfl)

theorem Fits.frame (fits : Fits job first phase controller tally) :
    Follows job first engages tally (controller.handleTimeout job .frame false) := by
  unfold FramedController.handleTimeout
  dsimp only
  split
  · next may =>
      obtain ⟨⟨next, begun⟩, admitted⟩ := fits.begin may.2
      exact ⟨⟨next, begun.congr ⟨rfl, id, rfl, rfl, rfl, rfl, rfl, rfl⟩⟩, admitted⟩
  · exact Fits.follows (fits.congr ⟨rfl, id, rfl, rfl, rfl, rfl, rfl, rfl⟩) rfl trivial

theorem Fits.startSimulation (fits : Fits job first phase controller tally) :
    Follows job first engages tally (controller.doStartSimulation job) := by
  have resumed : Fits job first phase { controller with paused := false } tally :=
    fits.congr ⟨rfl, id, rfl, rfl, rfl, rfl, rfl, rfl⟩
  unfold FramedController.doStartSimulation
  dsimp only
  split
  · next ready => exact resumed.begin ready
  · exact resumed.follows rfl trivial

theorem Fits.initCaseComplete (fits : Fits job first phase controller tally) {peerId : UInt32}
    (member : peerId ∈ job.peers) (due : tally.initCaseComplete peerId < tally.initCase) :
    Follows job first engages (tally.note (.received (.initCaseComplete peerId)))
      (controller.doInitCaseComplete job peerId) := by
  have begun : tally.initCase ≠ 0 := by omega
  obtain ⟨initializing, collecting⟩ := fits.init.collecting member due
  rw [beq_iff_eq] at initializing
  subst initializing
  unfold FramedController.doInitCaseComplete
  dsimp only
  split
  · next completes =>
      have settled := collecting.arrive_completes member due
        (Tally.more_eq tally.initCaseComplete peerId) completes
      have between : Between job first
          { controller with
            initCaseSet := (controller.initCaseSet.arrive job.peers peerId).1
            endGame := false }
          ((tally.note (.received (.initCaseComplete peerId))).note .initialized) :=
        { startTimer := fits.unscheduled (by decide)
          caseOpen := rfl
          init := settled
          frames := fits.frames
          ends := fits.ends
          advances := fits.advanced (by decide)
          counted := fits.counted
          inhabited := List.ne_nil_of_mem member
          cases := fits.cases
          endRun := fits.endRun
          caseNumber := fits.caseNumber
          further := fits.further }
      obtain ⟨⟨next, frame⟩, admitted⟩ := between.beginFrame fits.paired (fits.unspent rfl)
      refine ⟨⟨next, frame.congr ⟨rfl, ?_, rfl, rfl, rfl, rfl, rfl, rfl⟩⟩, begun, trivial, admitted⟩
      intro flag
      rw [FramedController.beginFrame_readyToStartFrame] at flag
      exact absurd flag (Bool.eq_false_iff.mp (fits.unready (by decide)))
  · next unfinished =>
      have still := collecting.arrive_unfinished member due
        (Tally.more_eq tally.initCaseComplete peerId) (Bool.eq_false_iff.mpr unfinished)
      have kept : Fits job first .initializing
          { controller with initCaseSet := (controller.initCaseSet.arrive job.peers peerId).1 }
          (tally.note (.received (.initCaseComplete peerId))) :=
        { fits with init := still }
      exact kept.follows rfl trivial

theorem Fits.endFrame (fits : Fits job first phase controller tally) {peerId : UInt32}
    (member : peerId ∈ job.stepped) (due : tally.endFrame peerId < tally.startFrame) :
    Follows job first engages (tally.note (.received (.endFrame peerId)))
      (controller.doEndFrame job peerId) := by
  obtain ⟨framing, collecting⟩ := fits.frames.collecting member due
  rw [beq_iff_eq] at framing
  subst framing
  unfold FramedController.doEndFrame
  split
  · dsimp only
    split
    · next completes =>
        have settled := collecting.arrive_completes member due
          (Tally.more_eq tally.endFrame peerId) completes
        have noted : Fits job first .framing
            { controller with
              endframeSet := (controller.endframeSet.arrive job.stepped peerId).1
              waitingOnEndframe :=
                setFlag controller.waitingOnEndframe (· == peerId) false }
            (tally.note (.received (.endFrame peerId))) :=
          { fits with frames := settled.collecting }
        have between := noted.between rfl settled (noted.advanced (by decide))
        split
        · next last =>
            have ending := between.endCase fits.paired (fits.unready (by decide))
            have spent : UInt32.ofNat tally.startFrame = job.maxFrame :=
              between.counted.symm.trans last
            exact ⟨⟨.ending, ending⟩,
              ⟨between.caseOpen, .inr ⟨List.ne_nil_of_mem member, spent⟩⟩, trivial⟩
        · next more =>
            have unspent : UInt32.ofNat tally.startFrame ≠ job.maxFrame :=
              fun spent => more (between.counted.trans spent)
            split
            · exact between.beginFrame fits.paired (.inr unspent)
            · have waits := between.ready fits.paired (.inr unspent) (List.ne_nil_of_mem member)
              exact waits.follows rfl trivial
    · next unfinished =>
        have still := collecting.arrive_unfinished member due
          (Tally.more_eq tally.endFrame peerId) (Bool.eq_false_iff.mpr unfinished)
        have kept : Fits job first .framing
            { controller with
              endframeSet := (controller.endframeSet.arrive job.stepped peerId).1
              waitingOnEndframe :=
                setFlag controller.waitingOnEndframe (· == peerId) false }
            (tally.note (.received (.endFrame peerId))) :=
          { fits with frames := still }
        exact kept.follows rfl trivial
  · have kept : Fits job first .framing controller (tally.note (.received (.endFrame peerId))) :=
      { fits with
        frames := collecting.overlooked member due (Tally.more_eq tally.endFrame peerId) }
    exact kept.follows rfl trivial

theorem Fits.endCaseComplete (fits : Fits job first phase controller tally) {peerId : UInt32}
    (member : peerId ∈ job.peers) (due : tally.endCaseComplete peerId < tally.endCase) :
    Follows job first engages (tally.note (.received (.endCaseComplete peerId)))
      (controller.doEndCaseComplete job peerId) := by
  obtain ⟨ending, collecting⟩ := fits.ends.collecting member due
  rw [beq_iff_eq] at ending
  subst ending
  have begun : tally.initCase ≠ 0 := fun none => by cases fits.first_case.mp none
  have number := fits.caseNumber
  unfold FramedController.doEndCaseComplete
  dsimp only
  split
  · next completes =>
      have between : BetweenCases job
          { controller with
            endcaseCompleteSet := (controller.endcaseCompleteSet.arrive job.peers peerId).1
            endGame := false }
          (tally.note (.received (.endCaseComplete peerId))) :=
        { startTimer := fits.unscheduled (by decide)
          unready := fits.unready (by decide)
          caseOpen := fits.caseOpen
          init := fits.init
          frames := fits.frames
          ends := collecting.arrive_completes member due
            (Tally.more_eq tally.endCaseComplete peerId) completes
          advances := fits.advanced (by decide)
          paired := fits.paired
          counted := fits.counted
          cases := fits.cases
          endRun := fits.endRun }
      split
      · next last =>
          obtain ⟨finished, allowed⟩ :=
            between.endRun_follows engages begun number fits.further last
          exact ⟨⟨.finished, finished⟩, allowed, trivial⟩
      · next more =>
          have again : BetweenCases job
              { controller with
                endcaseCompleteSet := (controller.endcaseCompleteSet.arrive job.peers peerId).1
                endGame := false
                caseNumber := controller.caseNumber + 1 }
              (tally.note (.received (.endCaseComplete peerId))) := { between with }
          have next : controller.caseNumber + 1 = first + (tally.initCase : Int) := by omega
          have further : first + (tally.initCase : Int) ≤ job.numberOfRuns := by omega
          obtain ⟨begins, allowed⟩ := again.initCase engages next (.inr further)
          exact ⟨⟨.initializing, begins⟩, allowed, trivial⟩
  · next unfinished =>
      have still := collecting.arrive_unfinished member due
        (Tally.more_eq tally.endCaseComplete peerId) (Bool.eq_false_iff.mpr unfinished)
      have kept : Fits job first .ending
          { controller with
            endcaseCompleteSet := (controller.endcaseCompleteSet.arrive job.peers peerId).1 }
          (tally.note (.received (.endCaseComplete peerId))) :=
        { fits with
          ends := still
          awaiting := fun _ => (fits.awaiting rfl).arrive_unfinished
            (Tally.more_eq tally.endCaseComplete peerId) (Bool.eq_false_iff.mpr unfinished) }
      exact kept.follows rfl trivial

theorem Fits.timeAdvanced (fits : Fits job first phase controller tally) {peerId : UInt32}
    (member : peerId ∈ job.stepped) (due : tally.timeAdvanced peerId < tally.advanceTime) :
    Follows job first engages (tally.note (.received (.timeAdvanced peerId)))
      (controller.doTimeAdvanced job peerId) := by
  have advancing : phase = .advancing ∧ tally.timeAdvanced peerId + 1 = tally.advanceTime := by
    rcases fits.advances peerId member with all | ⟨advancing, last, -⟩
    · omega
    · exact ⟨advancing, last⟩
  obtain ⟨advancing, last⟩ := advancing
  subst advancing
  have noted : Fits job first .advancing
      { controller with
        waitingOnTimeadvance :=
          setFlag controller.waitingOnTimeadvance (· == peerId) false }
      (tally.note (.received (.timeAdvanced peerId))) :=
    { fits with
      advances := by
        intro other among
        change Tally.more tally.timeAdvanced peerId other = tally.advanceTime ∨
          Phase.advancing = .advancing ∧
            Tally.more tally.timeAdvanced peerId other + 1 = tally.advanceTime ∧
              (if (other == peerId) = true then false
                else controller.waitingOnTimeadvance other) = true
        rw [Tally.more_eq]
        by_cases same : other = peerId
        · rw [if_pos same, same]
          exact .inl last
        · rw [if_neg same, if_neg (fun equal => same (beq_iff_eq.mp equal))]
          exact fits.advances other among }
  unfold FramedController.doTimeAdvanced
  dsimp only
  split
  · exact noted.follows rfl trivial
  · next nobody =>
      have between := noted.between rfl noted.frames (by
        intro other among
        rcases noted.advances other among with all | ⟨-, -, waits⟩
        · exact all
        · have waited := List.any_eq_true.mpr ⟨other, job.mem_peers_of_mem_stepped among, waits⟩
          exact absurd waited nobody)
      obtain ⟨begun, admitted⟩ := between.startNewFrame
        (fun separate => noted.paired separate (List.ne_nil_of_mem member)) (noted.unspent rfl)
      refine ⟨⟨.framing, begun.congr ⟨rfl, ?_, rfl, rfl, rfl, rfl, rfl, rfl⟩⟩, admitted⟩
      intro flag
      rw [FramedController.startNewFrame_readyToStartFrame] at flag
      exact absurd flag (Bool.eq_false_iff.mp (noted.unready (by decide)))

/-- Where nobody is stepped, a case may end at any moment after its initialization. -/
theorem Fits.unstepped (fits : Fits job first phase controller tally) (unstepped : job.stepped = [])
    (inCase : phase.inCase = true) : Between job first controller tally := by
  have still : controller.endframeSet.Settled job.stepped tally.startFrame tally.endFrame := by
    have frames := fits.frames
    cases phase with
    | framing =>
        have collecting : controller.endframeSet.Collecting job.stepped tally.startFrame
          tally.endFrame := frames
        rw [unstepped] at collecting ⊢
        exact collecting.settled_nil _ _
    | advancing => exact frames
    | ready => exact frames
    | _ => cases inCase
  refine fits.between inCase still ?_
  intro peer member
  rw [unstepped] at member
  cases member

/-- An end of engagement that ends the case does so in an open one without frames. -/
theorem Fits.endEngagement (fits : Fits job first phase controller tally) {peerId : UInt32}
    (orderly : controller.endEngagementSet.filter (· ≠ peerId) ≠ [] ∨
      job.stepped = [] ∧ tally.caseOpen = true) :
    Follows job first true (tally.note (.received (.endEngagement peerId)))
      (controller.doEndEngagement peerId) := by
  have noted : Fits job first phase
      { controller with endEngagementSet := controller.endEngagementSet.filter (· ≠ peerId) }
      (tally.note (.received (.endEngagement peerId))) := { fits with }
  unfold FramedController.doEndEngagement
  dsimp only
  split
  · next nobody =>
      rcases orderly with others | ⟨unstepped, isOpen⟩
      · exact absurd nobody others
      · have between := noted.unstepped unstepped (fits.caseOpen.symm.trans isOpen)
        have unready : controller.readyToStartFrame = false := by
          by_contra flag
          exact (fits.ready (Bool.not_eq_false _ ▸ flag)).2 unstepped
        have ending := between.endCase (fun _ steps => absurd unstepped steps) unready
        exact ⟨⟨.ending, ending⟩, trivial, ⟨isOpen, .inl rfl⟩, trivial⟩
  · exact noted.follows rfl trivial

end Steps

end Nise.Utilities
