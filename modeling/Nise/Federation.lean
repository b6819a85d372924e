import Nise.RubyModels.ControlledModels
import Nise.Utilities.Completion
import Nise.Utilities.FramedHandlers

/-!
# A job of Ruby models

The framed controller and the Ruby models of its job, with the messages on their way between
them.  Every connection keeps the order of its messages; the connections are independent of each
other and of the timers.  The models that are stepped are example models, the others only log.
-/

namespace Nise

open Nise.Lib Nise.Utilities
open Nise.RubyModels (RubyModel ControlMessage ControlAnswer)

/-- The message to the models of the job that an output is. -/
def controlMessage : Output → Option ControlMessage
  | .initCase => some .initCase
  | .advanceTime => some .advanceTime
  | .startFrame => some .startFrame
  | .endCase => some .endCase
  | .endRun => some .endRun
  | _ => none

def sentMessage : Entry → Option ControlMessage
  | .sent output => controlMessage output
  | _ => none

/-- The messages of a history. -/
def sentMessages (history : List Entry) : List ControlMessage := history.filterMap sentMessage

/-- An answer as the controller receives it. -/
def answerInput (peerId : UInt32) : ControlAnswer → Input
  | .initCaseComplete => .initCaseComplete peerId
  | .endFrame => .endFrame peerId
  | .endCaseComplete => .endCaseComplete peerId
  | .endRunComplete => .endRunComplete peerId

def answerOf (peerId : UInt32) : Input → Option ControlAnswer
  | .initCaseComplete other => if other = peerId then some .initCaseComplete else none
  | .endFrame other => if other = peerId then some .endFrame else none
  | .endCaseComplete other => if other = peerId then some .endCaseComplete else none
  | .endRunComplete other => if other = peerId then some .endRunComplete else none
  | _ => none

def receivedAnswer (peerId : UInt32) : Entry → Option ControlAnswer
  | .received input => answerOf peerId input
  | _ => none

/-- The answers of a peer in a history. -/
def receivedAnswers (peerId : UInt32) (history : List Entry) : List ControlAnswer :=
  history.filterMap (receivedAnswer peerId)

/-- What happens to the controller by itself: timers, its own `InitCase`, and the requests to pause
and to go on.  The watchdog has not found the job stalled. -/
def OwnInput (run : Run) : Input → Prop
  | .startup _ => run.controller.startTimer = true
  | .frame => 0 < run.frameTimers
  | .watchdog => run.controller.watchdogAction.2 = []
  | .monteCarloInitCase => True
  | .pauseSimulation => True
  | .startSimulation => True
  | _ => False

structure Federation where
  run : Run
  models : UInt32 → RubyModel
  messages : UInt32 → List ControlMessage
  answers : UInt32 → List ControlAnswer

namespace Federation

/-- Before the controller has asked whether the models have started. -/
def start (job : Job) (first : Int) (startTime : ℚ) : Federation where
  run := .start first
  models peerId :=
    if job.stepped.contains peerId then .exampleRubyModel ⟨.ofDefaults startTime⟩
    else .rubyMessageLogger
  messages _ := []
  answers _ := []

/-- The model of a peer handles a message, the controller handles an answer, or something happens
to the controller itself. -/
inductive Event where
  | handle (peerId : UInt32)
  | answer (peerId : UInt32)
  | own (input : Input)
  deriving DecidableEq

variable (job : Job) (federation : Federation)

/-- The controller handles an input, and every model gets what it sends. -/
def control (input : Input) : Federation :=
  let sent := sentMessages (federation.run.controller.handle job input).2
  { federation with
    run := federation.run.step job input
    messages := fun peerId =>
      if job.peers.contains peerId then federation.messages peerId ++ sent
      else federation.messages peerId }

/-- The model of a peer handles a message, and publishes its answers. -/
def handle (peerId : UInt32) (message : ControlMessage) (rest : List ControlMessage) :
    Federation :=
  let out := (federation.models peerId).receive message
  { federation with
    models := Function.update federation.models peerId out.1
    messages := Function.update federation.messages peerId rest
    answers := Function.update federation.answers peerId (federation.answers peerId ++ out.2) }

/-- The controller handles an answer. -/
def answer (peerId : UInt32) (answer : ControlAnswer) (rest : List ControlAnswer) : Federation :=
  { federation.control job (answerInput peerId answer) with
    answers := Function.update federation.answers peerId rest }

def step : Event → Federation
  | .handle peerId =>
      match federation.messages peerId with
      | [] => federation
      | message :: rest => federation.handle peerId message rest
  | .answer peerId =>
      match federation.answers peerId with
      | [] => federation
      | answer :: rest => federation.answer job peerId answer rest
  | .own input => federation.control job input

variable {job federation}

theorem step_handle {peerId : UInt32} {message : ControlMessage} {rest : List ControlMessage}
    (pending : federation.messages peerId = message :: rest) :
    federation.step job (.handle peerId) = federation.handle peerId message rest := by
  simp only [step, pending]

theorem step_answer {peerId : UInt32} {answer : ControlAnswer} {rest : List ControlAnswer}
    (pending : federation.answers peerId = answer :: rest) :
    federation.step job (.answer peerId) = federation.answer job peerId answer rest := by
  simp only [step, pending]

variable (federation)

/-- There is something to handle. -/
def Guard : Event → Prop
  | .handle peerId => federation.messages peerId ≠ []
  | .answer peerId => federation.answers peerId ≠ []
  | .own input => OwnInput federation.run input

end Federation

instance (run : Run) : DecidablePred (OwnInput run)
  | .startup _ => inferInstanceAs (Decidable (run.controller.startTimer = true))
  | .frame => inferInstanceAs (Decidable (0 < run.frameTimers))
  | .watchdog => inferInstanceAs (Decidable (run.controller.watchdogAction.2 = []))
  | .monteCarloInitCase | .pauseSimulation | .startSimulation => isTrue trivial
  | .initCaseComplete _ | .endFrame _ | .endCaseComplete _ | .endRunComplete _ | .timeAdvanced _
  | .registerEndEngage _ | .endEngagement _ => isFalse id

instance (federation : Federation) : DecidablePred federation.Guard
  | .handle peerId => inferInstanceAs (Decidable (federation.messages peerId ≠ []))
  | .answer peerId => inferInstanceAs (Decidable (federation.answers peerId ≠ []))
  | .own input => inferInstanceAs (Decidable (OwnInput federation.run input))

/-- All runs of a job of Ruby models. -/
def federated (job : Job) : System Federation Federation.Event where
  step federation event := federation.step job event
  guard federation event := federation.Guard event

instance (job : Job) (federation : Federation) (event : Federation.Event) :
    Decidable ((federated job).guard federation event) :=
  inferInstanceAs (Decidable (federation.Guard event))

/-! ## What the controller hears is what the models answer -/

theorem receivedAnswers_of_sends {entries : List Entry} (sends : Sends entries)
    (peerId : UInt32) : receivedAnswers peerId entries = [] := by
  refine List.filterMap_eq_nil_iff.mpr fun entry member => ?_
  cases entry with
  | received input => exact absurd rfl (sends _ member input)
  | sent output => rfl
  | initialized => rfl

/-! ## The messages of a peer -/

section Exchange

variable {job : Job} {first : Int} {startTime : ℚ} {federation : Federation}

/-- The model that a peer starts with. -/
def initialModel (job : Job) (startTime : ℚ) (peerId : UInt32) : RubyModel :=
  if job.stepped.contains peerId then .exampleRubyModel ⟨.ofDefaults startTime⟩
  else .rubyMessageLogger

theorem initialModel_stepped (job : Job) (startTime : ℚ) (peerId : UInt32) :
    (initialModel job startTime peerId).stepped = job.stepped.contains peerId := by
  unfold initialModel
  split
  · next steps => exact steps.symm
  · next rests => exact (Bool.eq_false_iff.mpr rests).symm

/-- A peer has handled the first messages that were sent, and the controller has received the first
of its answers; the others are on their way. -/
structure Exchange (job : Job) (startTime : ℚ) (federation : Federation) (peerId : UInt32)
    (handled : List ControlMessage) : Prop where
  messages : handled ++ federation.messages peerId = sentMessages federation.run.history
  answers : receivedAnswers peerId federation.run.history ++ federation.answers peerId =
    handled.flatMap (RubyModel.replies (job.stepped.contains peerId))
  model : federation.models peerId = (initialModel job startTime peerId).receiveAll handled

theorem sentMessages_step (run : Run) (input : Input) :
    sentMessages (run.step job input).history =
      sentMessages run.history ++ sentMessages (run.controller.handle job input).2 :=
  List.filterMap_append

theorem receivedAnswers_step (run : Run) (input : Input) (peerId : UInt32) :
    receivedAnswers peerId (run.step job input).history =
      receivedAnswers peerId run.history ++ (answerOf peerId input).toList := by
  have sends := receivedAnswers_of_sends (sends_handle job run.controller input) peerId
  have split : receivedAnswers peerId (run.step job input).history =
      receivedAnswers peerId run.history ++ (receivedAnswers peerId [.received input] ++
        receivedAnswers peerId (run.controller.handle job input).2) := by
    unfold receivedAnswers
    rw [← List.filterMap_append, ← List.filterMap_append]
    rfl
  rw [split, sends, List.append_nil]
  rfl

theorem answerOf_answerInput (peerId other : UInt32) (answer : ControlAnswer) :
    answerOf peerId (answerInput other answer) = if other = peerId then some answer else none := by
  cases answer <;> rfl

theorem answerOf_eq_some {peerId : UInt32} {input : Input} {answer : ControlAnswer} :
    answerOf peerId input = some answer ↔ input = answerInput peerId answer := by
  constructor
  · intro heard
    cases input with
    | initCaseComplete other | endFrame other | endCaseComplete other | endRunComplete other =>
        dsimp only [answerOf] at heard
        split at heard
        · next same =>
            cases heard
            rw [same]
            rfl
        · cases heard
    | _ => cases heard
  · intro same
    rw [same, answerOf_answerInput, if_pos rfl]

theorem answerOf_own {run : Run} {input : Input} (own : OwnInput run input) (peerId : UInt32) :
    answerOf peerId input = none := by
  cases input with
  | startup _ | watchdog | frame | monteCarloInitCase | pauseSimulation | startSimulation => rfl
  | _ => exact own.elim

theorem exchange_start (job : Job) (first : Int) (startTime : ℚ) (peerId : UInt32) :
    Exchange job startTime (.start job first startTime) peerId [] := ⟨rfl, rfl, rfl⟩

/-- The controller handles an input that is an answer of this peer or of nobody. -/
theorem Exchange.control {peerId : UInt32} {handled : List ControlMessage}
    (exchange : Exchange job startTime federation peerId handled) (member : peerId ∈ job.peers)
    (input : Input) {rest : UInt32 → List ControlAnswer}
    (taken : federation.answers peerId = (answerOf peerId input).toList ++ rest peerId) :
    Exchange job startTime { federation.control job input with answers := rest } peerId handled where
  messages := by
    have here : (federation.control job input).messages peerId = federation.messages peerId ++
        sentMessages (federation.run.controller.handle job input).2 :=
      if_pos (List.contains_iff_mem.mpr member)
    refine (congrArg (handled ++ ·) here).trans ?_
    rw [← List.append_assoc, exchange.messages]
    exact (sentMessages_step federation.run input).symm
  answers := by
    change receivedAnswers peerId (federation.run.step job input).history ++ rest peerId = _
    rw [receivedAnswers_step, List.append_assoc, ← taken]
    exact exchange.answers
  model := exchange.model

theorem Exchange.handle {peerId : UInt32} {handled : List ControlMessage}
    (exchange : Exchange job startTime federation peerId handled) {message : ControlMessage}
    {rest : List ControlMessage} (pending : federation.messages peerId = message :: rest) :
    Exchange job startTime (federation.handle peerId message rest) peerId
      (handled ++ [message]) where
  messages := by
    have here : (federation.handle peerId message rest).messages peerId = rest :=
      Function.update_self ..
    rw [here, List.append_assoc, List.singleton_append, ← pending]
    exact exchange.messages
  answers := by
    have kind : (federation.models peerId).stepped = job.stepped.contains peerId := by
      rw [exchange.model, RubyModel.receiveAll_stepped, initialModel_stepped]
    have here : (federation.handle peerId message rest).answers peerId =
        federation.answers peerId ++ ((federation.models peerId).receive message).2 :=
      Function.update_self ..
    rw [here, ← List.append_assoc, List.flatMap_append, ← exchange.answers,
      RubyModel.receive_replies, kind, List.flatMap_singleton]
    rfl
  model := by
    have here : (federation.handle peerId message rest).models peerId =
        ((federation.models peerId).receive message).1 := Function.update_self ..
    rw [here, RubyModel.receiveAll_concat, ← exchange.model]

/-- What another peer handles. -/
theorem Exchange.handle_of_ne {peerId other : UInt32} {handled : List ControlMessage}
    (exchange : Exchange job startTime federation peerId handled) (apart : peerId ≠ other)
    (message : ControlMessage) (rest : List ControlMessage) :
    Exchange job startTime (federation.handle other message rest) peerId handled where
  messages := by
    have same : (federation.handle other message rest).messages peerId =
        federation.messages peerId := Function.update_of_ne apart ..
    rw [same]
    exact exchange.messages
  answers := by
    have same : (federation.handle other message rest).answers peerId =
        federation.answers peerId := Function.update_of_ne apart ..
    rw [same]
    exact exchange.answers
  model := (Function.update_of_ne apart ..).trans exchange.model

end Exchange

/-! ## Counting the messages -/

section Counts

/-- The message that an answer is for. -/
def answered : ControlAnswer → ControlMessage
  | .initCaseComplete => .initCase
  | .endFrame => .startFrame
  | .endCaseComplete => .endCase
  | .endRunComplete => .endRun

/-- Every model answers, except to the frames that it is not stepped for. -/
def Answers (stepped : Bool) (answer : ControlAnswer) : Prop :=
  answer = .endFrame → stepped = true

theorem count_replies {stepped : Bool} {answer : ControlAnswer} (answers : Answers stepped answer)
    (handled : List ControlMessage) :
    (handled.flatMap (RubyModel.replies stepped)).count answer =
      handled.count (answered answer) := by
  induction handled with
  | nil => rfl
  | cons message rest ih =>
      rw [List.flatMap_cons, List.count_append, ih, List.count_cons, Nat.add_comm]
      congr 1
      cases stepped with
      | true => cases answer <;> cases message <;> rfl
      | false =>
          cases answer with
          | endFrame => cases answers rfl
          | _ => cases message <;> rfl

theorem endFrame_notMem_replies (handled : List ControlMessage) :
    .endFrame ∉ handled.flatMap (RubyModel.replies false) := by
  intro member
  obtain ⟨message, -, among⟩ := List.mem_flatMap.mp member
  cases message with
  | advanceTime | startFrame => cases among
  | _ => cases List.mem_singleton.mp among

theorem count_sentMessages (history : List Entry) {output : Output} {message : ControlMessage}
    (sends : ∀ other, controlMessage other = some message ↔ other = output) :
    (sentMessages history).count message = history.count (.sent output) := by
  unfold sentMessages
  rw [List.count_filterMap]
  refine List.countP_congr fun entry _ => ?_
  rw [beq_iff_eq, beq_iff_eq]
  cases entry with
  | sent other => exact (sends other).trans ⟨fun same => congrArg _ same, fun same => by
      cases same; rfl⟩
  | received input | initialized =>
      exact iff_of_false (fun none => by cases none) (fun same => by cases same)

/-- The tally counts the messages that were sent. -/
theorem sentMessages_eq_tally (history : List Entry) :
    (sentMessages history).count .initCase = (Tally.ofHistory history).initCase ∧
      (sentMessages history).count .startFrame = (Tally.ofHistory history).startFrame ∧
      (sentMessages history).count .endCase = (Tally.ofHistory history).endCase ∧
      (sentMessages history).count .endRun = (Tally.ofHistory history).endRun ∧
      (sentMessages history).count .advanceTime = (Tally.ofHistory history).advanceTime := by
  obtain ⟨initCase, endCase, endRun, advanceTime, startFrame⟩ := Tally.sent_eq_count history
  rw [initCase, endCase, endRun, advanceTime, startFrame]
  refine ⟨count_sentMessages history fun other => ?_, count_sentMessages history fun other => ?_,
    count_sentMessages history fun other => ?_, count_sentMessages history fun other => ?_,
    count_sentMessages history fun other => ?_⟩
  all_goals
    cases other <;> exact ⟨fun same => by cases same <;> rfl, fun same => by cases same <;> rfl⟩

theorem count_receivedAnswers (history : List Entry) (peerId : UInt32) (answer : ControlAnswer) :
    (receivedAnswers peerId history).count answer =
      history.count (.received (answerInput peerId answer)) := by
  unfold receivedAnswers
  rw [List.count_filterMap]
  refine List.countP_congr fun entry _ => ?_
  rw [beq_iff_eq, beq_iff_eq]
  cases entry with
  | received input =>
      exact answerOf_eq_some.trans ⟨fun same => congrArg _ same, fun same => by cases same; rfl⟩
  | sent output | initialized =>
      exact iff_of_false (fun none => by cases none) (fun same => by cases same)

/-- The tally counts the answers that were received. -/
theorem receivedAnswers_eq_tally (history : List Entry) (peerId : UInt32) :
    (receivedAnswers peerId history).count .initCaseComplete =
        (Tally.ofHistory history).initCaseComplete peerId ∧
      (receivedAnswers peerId history).count .endFrame =
        (Tally.ofHistory history).endFrame peerId ∧
      (receivedAnswers peerId history).count .endCaseComplete =
        (Tally.ofHistory history).endCaseComplete peerId := by
  obtain ⟨initCase, endCase, -, endFrame⟩ := Tally.received_eq_count history peerId
  rw [initCase, endCase, endFrame]
  exact ⟨count_receivedAnswers history peerId .initCaseComplete,
    count_receivedAnswers history peerId .endFrame,
    count_receivedAnswers history peerId .endCaseComplete⟩

variable {job : Job} {startTime : ℚ} {federation : Federation} {peerId : UInt32}
  {handled : List ControlMessage}

/-- Every message that was sent has been answered, or its answer or itself is on its way. -/
theorem Exchange.balance (exchange : Exchange job startTime federation peerId handled)
    (answer : ControlAnswer) (answers : Answers (job.stepped.contains peerId) answer) :
    (receivedAnswers peerId federation.run.history).count answer +
        (federation.answers peerId).count answer +
        (federation.messages peerId).count (answered answer) =
      (sentMessages federation.run.history).count (answered answer) := by
  rw [← List.count_append, exchange.answers, count_replies answers, ← List.count_append,
    exchange.messages]

/-- An answer that is on its way has been asked for. -/
theorem Exchange.owed (exchange : Exchange job startTime federation peerId handled)
    {answer : ControlAnswer} {rest : List ControlAnswer}
    (pending : federation.answers peerId = answer :: rest) :
    Answers (job.stepped.contains peerId) answer ∧
      (receivedAnswers peerId federation.run.history).count answer <
        (sentMessages federation.run.history).count (answered answer) := by
  have answers : Answers (job.stepped.contains peerId) answer := by
    rintro rfl
    by_contra rests
    have among : ControlAnswer.endFrame ∈
        receivedAnswers peerId federation.run.history ++ federation.answers peerId :=
      List.mem_append_right _ (pending ▸ List.mem_cons_self)
    rw [exchange.answers, Bool.eq_false_iff.mpr rests] at among
    exact endFrame_notMem_replies handled among
  have balance := exchange.balance answer answers
  have some : 0 < (federation.answers peerId).count answer := by
    rw [pending]
    exact List.count_pos_iff.mpr List.mem_cons_self
  exact ⟨answers, by omega⟩

end Counts

/-! ## What holds in every run -/

section Runs

variable {job : Job} {first : Int} {startTime : ℚ}

/-- The controller has only received what it waits for, and every peer has the messages and answers
on its connection that are missing. -/
structure Standing (job : Job) (first : Int) (startTime : ℚ) (federation : Federation) :
    Prop where
  cooperative : ∃ inputs,
    ((simulation job).restrict (Cooperative job)).Admits (.start first) inputs ∧
      federation.run = (simulation job).exec (.start first) inputs
  exchange : ∀ peerId ∈ job.peers, ∃ handled, Exchange job startTime federation peerId handled
  strangers : ∀ peerId, peerId ∉ job.peers →
    federation.messages peerId = [] ∧ federation.answers peerId = []
  unadvanced : ∀ peerId, federation.run.tally.timeAdvanced peerId = 0

theorem standing_start (job : Job) (first : Int) (startTime : ℚ) :
    Standing job first startTime (.start job first startTime) where
  cooperative := ⟨[], trivial, rfl⟩
  exchange peerId _ := ⟨[], exchange_start job first startTime peerId⟩
  strangers _ _ := ⟨rfl, rfl⟩
  unadvanced _ := rfl

variable {federation : Federation}

theorem timeAdvanced_foldl {entries : List Entry} (sends : Sends entries) (tally : Tally) :
    (entries.foldl Tally.note tally).timeAdvanced = tally.timeAdvanced := by
  induction entries generalizing tally with
  | nil => rfl
  | cons entry rest ih =>
      rw [List.foldl_cons, ih fun other member => sends other (List.mem_cons_of_mem _ member)]
      cases entry with
      | received input => exact absurd rfl (sends _ List.mem_cons_self input)
      | sent output => cases output <;> rfl
      | initialized => rfl

/-- The controller handles an input that is no answer to an advance of the time. -/
theorem Standing.control (standing : Standing job first startTime federation) {input : Input}
    (expires : federation.run.Expires input) (cooperative : Cooperative job federation.run input)
    (other : ∀ peerId, input ≠ .timeAdvanced peerId) {rest : UInt32 → List ControlAnswer}
    (taken : ∀ peerId,
      federation.answers peerId = (answerOf peerId input).toList ++ rest peerId) :
    Standing job first startTime { federation.control job input with answers := rest } where
  cooperative := by
    obtain ⟨inputs, admitted, same⟩ := standing.cooperative
    refine ⟨inputs ++ [input], (System.admits_append _ _ _ _).mpr ⟨admitted, ?_⟩, ?_⟩
    · change System.Admits _ ((simulation job).exec (.start first) inputs) [input]
      rw [← same]
      exact ⟨⟨expires, cooperative⟩, trivial⟩
    · rw [System.exec_append, ← same]
      rfl
  exchange peerId member := by
    obtain ⟨handled, exchange⟩ := standing.exchange peerId member
    exact ⟨handled, exchange.control member input (taken peerId)⟩
  strangers peerId stranger := by
    obtain ⟨messages, answers⟩ := standing.strangers peerId stranger
    constructor
    · exact (if_neg fun found => stranger (List.contains_iff_mem.mp found)).trans messages
    · rw [taken] at answers
      exact (List.append_eq_nil_iff.mp answers).2
  unadvanced peerId := by
    change (federation.run.step job input).tally.timeAdvanced peerId = 0
    rw [tally_step, timeAdvanced_foldl (sends_handle _ _ _)]
    cases input with
    | timeAdvanced from_ => exact absurd rfl (other from_)
    | _ => exact standing.unadvanced peerId

variable (job) in
theorem own_cooperative {run : Run} {input : Input} (own : OwnInput run input) :
    run.Expires input ∧ Cooperative job run input ∧ ∀ peerId, input ≠ .timeAdvanced peerId := by
  cases input with
  | startup peersStarted =>
      exact ⟨own, ⟨⟨⟨trivial, trivial⟩, rfl⟩, trivial⟩, fun _ same => nomatch same⟩
  | frame => exact ⟨trivial, ⟨⟨⟨trivial, trivial⟩, rfl⟩, own⟩, fun _ same => nomatch same⟩
  | watchdog | monteCarloInitCase | pauseSimulation | startSimulation =>
      exact ⟨trivial, ⟨⟨⟨trivial, trivial⟩, rfl⟩, trivial⟩, fun _ same => nomatch same⟩
  | _ => exact own.elim

/-- An answer on its way is one that the controller waits for. -/
theorem Standing.answer_cooperative (standing : Standing job first startTime federation)
    {peerId : UInt32} {answer : ControlAnswer} {rest : List ControlAnswer}
    (pending : federation.answers peerId = answer :: rest) :
    federation.run.Expires (answerInput peerId answer) ∧
      Cooperative job federation.run (answerInput peerId answer) ∧
        ∀ other, answerInput peerId answer ≠ .timeAdvanced other := by
  have member : peerId ∈ job.peers := by
    by_contra stranger
    have none := (standing.strangers peerId stranger).2
    rw [pending] at none
    cases none
  obtain ⟨handled, exchange⟩ := standing.exchange peerId member
  obtain ⟨answers, less⟩ := exchange.owed pending
  obtain ⟨initCase, startFrame, endCase, endRun, -⟩ :=
    sentMessages_eq_tally federation.run.history
  obtain ⟨initialized, framed, ended⟩ := receivedAnswers_eq_tally federation.run.history peerId
  cases answer with
  | initCaseComplete =>
      rw [initialized] at less
      exact ⟨trivial, ⟨⟨⟨⟨member, less.trans_eq initCase⟩, trivial⟩, rfl⟩, trivial⟩,
        fun _ same => nomatch same⟩
  | endFrame =>
      have steps : peerId ∈ job.stepped := List.contains_iff_mem.mp (answers rfl)
      rw [framed] at less
      exact ⟨trivial, ⟨⟨⟨trivial, steps, less.trans_eq startFrame⟩, rfl⟩, trivial⟩,
        fun _ same => nomatch same⟩
  | endCaseComplete =>
      rw [ended] at less
      exact ⟨trivial, ⟨⟨⟨⟨member, less.trans_eq endCase⟩, trivial⟩, rfl⟩, trivial⟩,
        fun _ same => nomatch same⟩
  | endRunComplete =>
      have asked : 0 < federation.run.tally.endRun := by
        change 0 < (Tally.ofHistory federation.run.history).endRun
        rw [← endRun]
        exact Nat.zero_lt_of_lt less
      exact ⟨trivial, ⟨⟨⟨trivial, trivial⟩, rfl⟩, asked⟩, fun _ same => nomatch same⟩

theorem Standing.handle (standing : Standing job first startTime federation) {peerId : UInt32}
    {message : ControlMessage} {rest : List ControlMessage}
    (pending : federation.messages peerId = message :: rest) :
    Standing job first startTime (federation.handle peerId message rest) where
  cooperative := standing.cooperative
  exchange other member := by
    obtain ⟨handled, exchange⟩ := standing.exchange other member
    by_cases same : other = peerId
    · cases same
      exact ⟨_, exchange.handle pending⟩
    · exact ⟨handled, exchange.handle_of_ne same message rest⟩
  strangers other stranger := by
    have none := standing.strangers other stranger
    have apart : other ≠ peerId := by
      rintro rfl
      rw [pending] at none
      cases none.1
    exact ⟨(Function.update_of_ne apart ..).trans none.1,
      (Function.update_of_ne apart ..).trans none.2⟩
  unadvanced := standing.unadvanced

theorem Standing.step (standing : Standing job first startTime federation)
    {event : Federation.Event} (guarded : federation.Guard event) :
    Standing job first startTime (federation.step job event) := by
  cases event with
  | handle peerId =>
      cases pending : federation.messages peerId with
      | nil => exact absurd pending guarded
      | cons message rest =>
          rw [Federation.step_handle pending]
          exact standing.handle pending
  | answer peerId =>
      cases pending : federation.answers peerId with
      | nil => exact absurd pending guarded
      | cons answer rest =>
          rw [Federation.step_answer pending]
          obtain ⟨expires, cooperative, other⟩ := standing.answer_cooperative pending
          refine standing.control expires cooperative other fun from_ => ?_
          rw [answerOf_answerInput]
          by_cases same : from_ = peerId
          · rw [same, if_pos rfl, Function.update_self]
            exact pending
          · rw [if_neg (Ne.symm same), Function.update_of_ne same]
            rfl
  | own input =>
      obtain ⟨expires, cooperative, other⟩ := own_cooperative job guarded
      refine standing.control expires cooperative other fun from_ => ?_
      rw [answerOf_own guarded]
      rfl

theorem standing_of_admitted {events : List Federation.Event}
    (admitted : (federated job).Admits (.start job first startTime) events) :
    Standing job first startTime
      ((federated job).exec (.start job first startTime) events) :=
  (federated job).invariant (fun _ _ standing guarded => standing.step guarded)
    (standing_start job first startTime) admitted

end Runs

end Nise
