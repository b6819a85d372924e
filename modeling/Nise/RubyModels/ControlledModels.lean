import Nise.RubyModels.SimTime

/-!
# Ruby models of a framed job

A Ruby model subscribes to the messages with which a controller steps a job, and publishes an
answer to each.  The example model, from which new models are generated, keeps the simulated
time; the message logger has no rate and does not answer to frames.  Neither subscribes to
`AdvanceTime`.
-/

namespace Nise.RubyModels

/-- What a controller sends to the models of its job. -/
inductive ControlMessage where
  | initCase
  | advanceTime
  | startFrame
  | endCase
  | endRun
  deriving DecidableEq, Repr

/-- What a model publishes for the controller. -/
inductive ControlAnswer where
  | initCaseComplete
  | endFrame
  | endCaseComplete
  | endRunComplete
  deriving DecidableEq, Repr

structure ExampleRubyModel where
  simTime : SimTime

namespace ExampleRubyModel

variable (model : ExampleRubyModel)

def initCase : ExampleRubyModel × List ControlAnswer :=
  ({ model with simTime := model.simTime.reset }, [.initCaseComplete])

def startFrame : ExampleRubyModel × List ControlAnswer :=
  ({ model with simTime := model.simTime.advanceTime }, [.endFrame])

def endCase : ExampleRubyModel × List ControlAnswer := (model, [.endCaseComplete])

def endRun : ExampleRubyModel × List ControlAnswer := (model, [.endRunComplete])

/-- The callback that `init` subscribes for a message. -/
def receive : ControlMessage → ExampleRubyModel × List ControlAnswer
  | .initCase => model.initCase
  | .advanceTime => (model, [])
  | .startFrame => model.startFrame
  | .endCase => model.endCase
  | .endRun => model.endRun

end ExampleRubyModel

namespace RubyMessageLogger

def initCase : List ControlAnswer := [.initCaseComplete]

/-- It only logs that the frame has started. -/
def startFrame : List ControlAnswer := []

def endCase : List ControlAnswer := [.endCaseComplete]

def endRun : List ControlAnswer := [.endRunComplete]

def receive : ControlMessage → List ControlAnswer
  | .initCase => initCase
  | .advanceTime => []
  | .startFrame => startFrame
  | .endCase => endCase
  | .endRun => endRun

end RubyMessageLogger

/-- The model that a Ruby peer has loaded. -/
inductive RubyModel where
  | exampleRubyModel (model : ExampleRubyModel)
  | rubyMessageLogger

namespace RubyModel

/-- A model with a rate is stepped frame by frame. -/
def stepped : RubyModel → Bool
  | exampleRubyModel _ => true
  | rubyMessageLogger => false

def receive : RubyModel → ControlMessage → RubyModel × List ControlAnswer
  | exampleRubyModel model, request =>
      let out := model.receive request
      (exampleRubyModel out.1, out.2)
  | rubyMessageLogger, request => (rubyMessageLogger, RubyMessageLogger.receive request)

/-- What a model answers depends on what it is, and not on its time. -/
def replies (stepped : Bool) : ControlMessage → List ControlAnswer
  | .initCase => [.initCaseComplete]
  | .advanceTime => []
  | .startFrame => if stepped then [.endFrame] else []
  | .endCase => [.endCaseComplete]
  | .endRun => [.endRunComplete]

theorem receive_replies (model : RubyModel) (request : ControlMessage) :
    (model.receive request).2 = replies model.stepped request := by
  cases model <;> cases request <;> rfl

theorem receive_stepped (model : RubyModel) (request : ControlMessage) :
    (model.receive request).1.stepped = model.stepped := by
  cases model <;> rfl

def receiveAll (model : RubyModel) (requests : List ControlMessage) : RubyModel :=
  requests.foldl (fun model request => (model.receive request).1) model

theorem receiveAll_concat (model : RubyModel) (requests : List ControlMessage) (request : ControlMessage) :
    model.receiveAll (requests ++ [request]) = ((model.receiveAll requests).receive request).1 :=
  List.foldl_append

theorem receiveAll_stepped (model : RubyModel) (requests : List ControlMessage) :
    (model.receiveAll requests).stepped = model.stepped := by
  induction requests using List.reverseRecOn with
  | nil => rfl
  | append_singleton requests request ih =>
      rw [receiveAll_concat, receive_stepped]
      exact ih

end RubyModel

/-! ## The time of the example model -/

/-- The frames that have been started since the case was. -/
def framesOf (requests : List ControlMessage) : Nat :=
  requests.foldl (fun frames request =>
    match request with
    | .initCase => 0
    | .startFrame => frames + 1
    | _ => frames) 0

theorem framesOf_append (first second : List ControlMessage) :
    framesOf (first ++ second) = second.foldl (fun frames request =>
      match request with
      | .initCase => 0
      | .startFrame => frames + 1
      | _ => frames) (framesOf first) := List.foldl_append

/-- An example model that steps by seconds and does not leave its time to somebody else. -/
structure ExampleRubyModel.Timed (model : ExampleRubyModel) (frames : Nat) : Prop where
  offset : model.simTime.offset = frames
  stepSeconds : model.simTime.stepSeconds = 1
  free : model.simTime.stkIsTimeLord = false

/-- The simulated time counts the frames of the case. -/
theorem exampleRubyModel_timed (startTime : ℚ) (requests : List ControlMessage) :
    ∃ model : ExampleRubyModel,
      (RubyModel.exampleRubyModel ⟨.ofDefaults startTime⟩).receiveAll requests =
          .exampleRubyModel model ∧ model.Timed (framesOf requests) := by
  induction requests using List.reverseRecOn with
  | nil => exact ⟨_, rfl, Nat.cast_zero.symm, rfl, rfl⟩
  | append_singleton requests request ih =>
      obtain ⟨model, same, timed⟩ := ih
      rw [RubyModel.receiveAll_concat, same, framesOf_append]
      refine ⟨_, rfl, ?_⟩
      cases request with
      | initCase => exact ⟨Nat.cast_zero.symm, timed.stepSeconds, timed.free⟩
      | startFrame =>
          have advanced := SimTime.offset_advanceTime timed.free
          rw [timed.offset, timed.stepSeconds] at advanced
          have same : model.simTime.advanceTime.stepSeconds = model.simTime.stepSeconds ∧
              model.simTime.advanceTime.stkIsTimeLord = model.simTime.stkIsTimeLord := by
            unfold SimTime.advanceTime
            split <;> exact ⟨rfl, rfl⟩
          exact ⟨advanced.trans (Nat.cast_succ _).symm, same.1.trans timed.stepSeconds,
            same.2.trans timed.free⟩
      | _ => exact timed

end Nise.RubyModels
