import Mathlib.Algebra.Order.Field.Rat
import Mathlib.Data.Nat.Cast.Order.Ring
import Mathlib.Tactic.Linarith
import Nise.Federation

/-!
# Lock step

The controller waits for all models before it goes on, and so the simulated times of the models
never drift apart by more than the frame that is under way.
-/

namespace Nise

open Nise.Lib Nise.Utilities
open Nise.RubyModels (ControlMessage ControlAnswer ExampleRubyModel framesOf framesOf_append exampleRubyModel_timed)

section LockStep

theorem length_eq_counts (messages : List ControlMessage) :
    messages.length = messages.count .initCase + messages.count .advanceTime +
      messages.count .startFrame + messages.count .endCase + messages.count .endRun := by
  induction messages with
  | nil => rfl
  | cons message rest ih =>
      rw [List.length_cons, ih]
      cases message <;> simp only [List.count_cons, beq_iff_eq, reduceCtorEq, if_true, if_false] <;>
        omega

theorem answers_length_eq_counts (answers : List ControlAnswer) :
    answers.length = answers.count .initCaseComplete + answers.count .endFrame +
      answers.count .endCaseComplete + answers.count .endRunComplete := by
  induction answers with
  | nil => rfl
  | cons answer rest ih =>
      rw [List.length_cons, ih]
      cases answer <;> simp only [List.count_cons, beq_iff_eq, reduceCtorEq, if_true, if_false] <;>
        omega

/-- The models count the frames of the case as the tally does. -/
theorem framesOf_sentMessages (history : List Entry) :
    framesOf (sentMessages history) = (Tally.ofHistory history).caseFrames := by
  induction history using List.reverseRecOn with
  | nil => rfl
  | append_singleton history entry ih =>
      have sent : sentMessages (history ++ [entry]) =
          sentMessages history ++ sentMessages [entry] := List.filterMap_append
      rw [sent, framesOf_append, ih, Tally.ofHistory_concat]
      cases entry with
      | sent output => cases output <;> rfl
      | received input => cases input <;> rfl
      | initialized => rfl

/-- The models of a job and its controller keep step. -/
structure LockStep (job : Job) (first : Int) (federation : Federation) : Prop where
  /-- The controller gets no answer that it does not wait for. -/
  cooperative : ∃ inputs,
    ((simulation job).restrict (Cooperative job)).Admits (.start first) inputs ∧
      federation.run = (simulation job).exec (.start first) inputs
  /-- A model is not sent anything before its last answer has arrived. -/
  single : ∀ peerId ∈ job.stepped,
    (federation.messages peerId).length + (federation.answers peerId).length ≤ 1
  /-- The time of a model is the number of the frame, unless the frame or the case has not reached
  it. -/
  onTime : ∀ peerId ∈ job.stepped, ∃ model : ExampleRubyModel,
    federation.models peerId = .exampleRubyModel model ∧
      (federation.messages peerId ≠ [.initCase] →
        model.simTime.offset + (federation.messages peerId).count .startFrame =
          federation.run.tally.caseFrames)
  /-- While no frame is under way, all models have the same time. -/
  agree : (∀ peerId ∈ job.stepped,
      federation.run.tally.endFrame peerId = federation.run.tally.startFrame) →
    ∀ peerId ∈ job.stepped, federation.messages peerId ≠ [.initCase] →
      ∃ model : ExampleRubyModel, federation.models peerId = .exampleRubyModel model ∧
        model.simTime.offset = federation.run.tally.caseFrames
  /-- And they are never more than one frame apart. -/
  apart : ∀ peerId ∈ job.stepped, ∀ other ∈ job.stepped, ∀ model another : ExampleRubyModel,
    federation.models peerId = .exampleRubyModel model →
    federation.models other = .exampleRubyModel another →
    federation.messages peerId ≠ [.initCase] → federation.messages other ≠ [.initCase] →
      |model.simTime.offset - another.simTime.offset| ≤ 1

variable {job : Job} {first : Int} {startTime : ℚ} {federation : Federation}

theorem Standing.sound (standing : Standing job first startTime federation) :
    Sound job first false federation.run := by
  obtain ⟨inputs, admitted, same⟩ := standing.cooperative
  rw [same]
  exact sound_of_undisturbed (admitted.weaken fun _ _ _ both => both.1)

/-- One answer is due of a member at most, and only while answers are collected. -/
theorem owed_le {collecting : Bool} {barrier : Barrier UInt32} {members : List UInt32}
    {requests : Nat} {answers : UInt32 → Nat}
    (round : Round collecting barrier members requests answers) (peerId : UInt32)
    (member : peerId ∈ members) : requests ≤ answers peerId + collecting.toNat := by
  cases collecting with
  | true =>
      rcases Barrier.Collecting.owed round peerId member with all | ⟨last, -⟩
      · exact all ▸ Nat.le_add_right _ _
      · exact last.ge
  | false => exact (Barrier.Settled.answered round peerId member).ge

/-- The last request, if it is not answered, is all that is between the controller and a model
that is stepped. -/
theorem Standing.single (standing : Standing job first startTime federation) {peerId : UInt32}
    (steps : peerId ∈ job.stepped) :
    (federation.messages peerId).length + (federation.answers peerId).length ≤ 1 := by
  have member := job.mem_peers_of_mem_stepped steps
  obtain ⟨handled, exchange⟩ := standing.exchange peerId member
  obtain ⟨phase, fits⟩ := standing.sound.fits
  have contains : job.stepped.contains peerId = true := List.contains_iff_mem.mpr steps
  have answers (answer : ControlAnswer) : Answers (job.stepped.contains peerId) answer :=
    fun _ => contains
  obtain ⟨initCase, startFrame, endCase, endRun, advanceTime⟩ :=
    sentMessages_eq_tally federation.run.history
  obtain ⟨initialized, framed, ended⟩ := receivedAnswers_eq_tally federation.run.history peerId
  have inits := exchange.balance _ (answers .initCaseComplete)
  have frames := exchange.balance _ (answers .endFrame)
  have ends := exchange.balance _ (answers .endCaseComplete)
  have runs := exchange.balance _ (answers .endRunComplete)
  have advances : (federation.messages peerId).count .advanceTime ≤
      (sentMessages federation.run.history).count .advanceTime := by
    rw [← exchange.messages, List.count_append]
    exact Nat.le_add_left _ _
  unfold answered at inits frames ends runs
  dsimp only at inits frames ends runs
  rw [initialized, initCase] at inits
  rw [framed, startFrame] at frames
  rw [ended, endCase] at ends
  rw [endRun] at runs
  rw [advanceTime] at advances
  have initRound := owed_le fits.init peerId member
  have frameRound := owed_le fits.frames peerId steps
  have endRound := owed_le fits.ends peerId member
  have advanced : federation.run.tally.advanceTime ≤ (phase == .advancing).toNat := by
    have due := fits.advances peerId steps
    rw [standing.unadvanced peerId] at due
    rcases due with none | ⟨rfl, one, -⟩
    · exact none ▸ Nat.zero_le _
    · exact one.ge
  have finished : federation.run.tally.endRun ≤ (phase == .finished).toNat := by
    rw [fits.endRun]
    cases phase <;> decide
  -- In each phase at most one kind of answer is due.
  have phases : (phase == .initializing).toNat + (phase == .framing).toNat +
      (phase == .ending).toNat + (phase == .advancing).toNat + (phase == .finished).toNat ≤ 1 := by
    cases phase <;> decide
  unfold Run.tally at initRound frameRound endRound advanced finished
  rw [length_eq_counts, answers_length_eq_counts]
  omega

theorem framesOf_startFrames (handled : List ControlMessage) {messages : List ControlMessage}
    (short : messages.length ≤ 1) (same : messages ≠ [.initCase]) :
    framesOf (handled ++ messages) = framesOf handled + messages.count .startFrame := by
  rw [framesOf_append]
  match messages, short with
  | [], _ => rfl
  | [message], _ =>
      cases message with
      | initCase => exact absurd rfl same
      | startFrame => rfl
      | advanceTime | endCase | endRun => rfl

theorem Standing.onTime (standing : Standing job first startTime federation) {peerId : UInt32}
    (steps : peerId ∈ job.stepped) :
    ∃ model : ExampleRubyModel, federation.models peerId = .exampleRubyModel model ∧
      (federation.messages peerId ≠ [.initCase] →
        model.simTime.offset + (federation.messages peerId).count .startFrame =
          federation.run.tally.caseFrames) := by
  obtain ⟨handled, exchange⟩ := standing.exchange peerId (job.mem_peers_of_mem_stepped steps)
  have initially : initialModel job startTime peerId =
      .exampleRubyModel ⟨.ofDefaults startTime⟩ := if_pos (List.contains_iff_mem.mpr steps)
  obtain ⟨model, same, timed⟩ := exampleRubyModel_timed startTime handled
  refine ⟨model, ?_, fun running => ?_⟩
  · rw [exchange.model, initially]
    exact same
  · have frames := framesOf_startFrames handled
      ((Nat.le_add_right _ _).trans (standing.single steps)) running
    rw [exchange.messages, framesOf_sentMessages] at frames
    rw [timed.offset, Run.tally, frames]
    exact (Nat.cast_add _ _).symm

theorem Standing.lockStep (standing : Standing job first startTime federation) :
    LockStep job first federation where
  cooperative := standing.cooperative
  single peerId steps := standing.single steps
  onTime peerId steps := standing.onTime steps
  agree ended peerId steps running := by
    obtain ⟨model, same, onTime⟩ := standing.onTime steps
    obtain ⟨handled, exchange⟩ := standing.exchange peerId (job.mem_peers_of_mem_stepped steps)
    have balance := exchange.balance .endFrame
      fun _ => List.contains_iff_mem.mpr steps
    obtain ⟨-, startFrame, -⟩ := sentMessages_eq_tally federation.run.history
    obtain ⟨-, framed, -⟩ := receivedAnswers_eq_tally federation.run.history peerId
    have all := ended peerId steps
    unfold Run.tally at all
    change _ + _ + (federation.messages peerId).count .startFrame =
      (sentMessages federation.run.history).count .startFrame at balance
    rw [framed, startFrame] at balance
    have none : (federation.messages peerId).count .startFrame = 0 := by omega
    refine ⟨model, same, ?_⟩
    have offset := onTime running
    rw [none, Nat.cast_zero, add_zero] at offset
    exact offset
  apart peerId steps other otherSteps model another same alike running begun := by
    have counted (id : UInt32) (stepped : id ∈ job.stepped) :
        (federation.messages id).count .startFrame ≤ 1 :=
      List.count_le_length.trans ((Nat.le_add_right _ _).trans (standing.single stepped))
    obtain ⟨_, is, onTime⟩ := standing.onTime steps
    obtain ⟨_, was, beside⟩ := standing.onTime otherSteps
    rw [same] at is
    rw [alike] at was
    cases is
    cases was
    have mine : ((federation.messages peerId).count .startFrame : ℚ) ≤ 1 :=
      Nat.cast_le_one.mpr (counted peerId steps)
    have theirs : ((federation.messages other).count .startFrame : ℚ) ≤ 1 :=
      Nat.cast_le_one.mpr (counted other otherSteps)
    have here : (0 : ℚ) ≤ (federation.messages peerId).count .startFrame := Nat.cast_nonneg _
    have there : (0 : ℚ) ≤ (federation.messages other).count .startFrame := Nat.cast_nonneg _
    have first := onTime running
    have second := beside begun
    rw [abs_le]
    constructor <;> linarith

/--
Whatever the order in which messages and answers arrive on the connections, timers expire and the
job is paused, as long as the watchdog does not find it stalled, the controller and its Ruby models
keep step: a model that is stepped is not sent anything before its answer has arrived, its time is
the number of the frame in its case once it has the frame, and between frames all models have the
same time.
-/
theorem models_in_lock_step (job : Job) (first : Int) (startTime : ℚ)
    {events : List Federation.Event}
    (admitted : (federated job).Admits (.start job first startTime) events) :
    LockStep job first ((federated job).exec (.start job first startTime) events) :=
  (standing_of_admitted admitted).lockStep

end LockStep

namespace TwoExamples

/-- Two example models and a logger. -/
def job : Job where
  peerTable := [⟨7, 10⟩, ⟨8, 10⟩, ⟨9, 0⟩]
  modelId := 1
  separateAdvanceTime := false
  startFrameHz := 0
  maxFrame := 2
  numberOfRuns := 1

/-- One model has its first frame, and the other one has ended it. -/
def events : List Federation.Event :=
  [.own (.startup true), .handle 7, .handle 8, .handle 9, .answer 9, .answer 7, .answer 8,
    .handle 8, .answer 8]

theorem models_in_lock_step_frame :
    LockStep job 1 ((federated job).exec (.start job 1 0) events) :=
  models_in_lock_step job 1 0 (by decide)

end TwoExamples

end Nise
