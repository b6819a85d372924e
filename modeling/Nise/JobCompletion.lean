import Mathlib.Data.Prod.Lex
import Nise.LockStep
import Nise.Utilities.PeerShutdown

/-!
# A job of example models can always be completed

As long as something is on its way to a model or to the controller, it can be handled; and when
nothing is, the controller goes on by itself.  A job comes to its end unless nobody is stepped, or
the controller waits for an advance of the time, to which neither the example models nor the message
loggers of the job subscribe.
-/

namespace Nise

open Nise.Lib Nise.Utilities
open Nise.RubyModels (RubyModel ControlMessage ControlAnswer)

/-! ## What is on its way -/

section InFlight

variable {job : Job} {first : Int} {startTime : ℚ} {federation : Federation}

/-- What is left to handle: a message and its answer, or an answer. -/
def Federation.inFlight (job : Job) (federation : Federation) : Nat :=
  (job.peers.map fun peerId =>
    2 * (federation.messages peerId).length + (federation.answers peerId).length).sum

theorem inFlight_lt {other : Federation} {peerId : UInt32} (member : peerId ∈ job.peers)
    (less : 2 * (other.messages peerId).length + (other.answers peerId).length <
      2 * (federation.messages peerId).length + (federation.answers peerId).length)
    (same : ∀ id, id ≠ peerId →
      other.messages id = federation.messages id ∧ other.answers id = federation.answers id) :
    other.inFlight job < federation.inFlight job := by
  refine List.sum_lt_sum _ _ (fun id _ => ?_) ⟨peerId, member, less⟩
  by_cases here : id = peerId
  · rw [here]
    exact less.le
  · rw [(same id here).1, (same id here).2]

theorem replies_length_le (stepped : Bool) (message : ControlMessage) :
    (RubyModel.replies stepped message).length ≤ 1 := by
  cases stepped <;> cases message <;> decide

theorem inFlight_handle {peerId : UInt32} (member : peerId ∈ job.peers)
    {message : ControlMessage} {rest : List ControlMessage}
    (pending : federation.messages peerId = message :: rest) :
    (federation.handle peerId message rest).inFlight job < federation.inFlight job := by
  refine inFlight_lt member ?_ fun id apart =>
    ⟨Function.update_of_ne apart .., Function.update_of_ne apart ..⟩
  have messages : (federation.handle peerId message rest).messages peerId = rest :=
    Function.update_self ..
  have answers : (federation.handle peerId message rest).answers peerId =
      federation.answers peerId ++ ((federation.models peerId).receive message).2 :=
    Function.update_self ..
  have few := replies_length_le (federation.models peerId).stepped message
  rw [messages, answers, pending, RubyModel.receive_replies, List.length_append, List.length_cons]
  omega

/-- The report of a model that has ended the run is not followed by a message. -/
theorem sentMessages_endRunComplete (controller : FramedController) (peerId : UInt32) :
    sentMessages (controller.handle job (.endRunComplete peerId)).2 = [] := by
  change sentMessages (if _ then [Entry.sent .stopSimulation] else []) = []
  split <;> rfl

theorem inFlight_answer_endRunComplete {peerId : UInt32} (member : peerId ∈ job.peers)
    {rest : List ControlAnswer} (pending : federation.answers peerId = .endRunComplete :: rest) :
    (federation.answer job peerId .endRunComplete rest).inFlight job < federation.inFlight job := by
  have messages (id : UInt32) :
      (federation.answer job peerId .endRunComplete rest).messages id = federation.messages id := by
    change (if _ then _ ++ sentMessages (federation.run.controller.handle job
      (.endRunComplete peerId)).2 else _) = _
    rw [sentMessages_endRunComplete, List.append_nil]
    exact ite_self _
  refine inFlight_lt member ?_ fun id apart => ⟨messages id, Function.update_of_ne apart ..⟩
  have answers : (federation.answer job peerId .endRunComplete rest).answers peerId = rest :=
    Function.update_self ..
  rw [messages, answers, pending, List.length_cons]
  omega

end InFlight

/-! ## Progress -/

section Progress

variable {job : Job} {first : Int} {startTime : ℚ} {federation : Federation}

theorem Standing.liveRun (standing : Standing job first startTime federation)
    (steps : job.stepped ≠ []) : LiveRun job first federation.run := by
  obtain ⟨inputs, admitted, same⟩ := standing.cooperative
  rw [same]
  exact liveRun_of_cooperative steps admitted

/-- Nothing is on its way. -/
def Federation.Quiet (job : Job) (federation : Federation) : Prop :=
  ∀ peerId ∈ job.peers, federation.messages peerId = [] ∧ federation.answers peerId = []

/-- No answer is due while nothing is on its way. -/
theorem Standing.unowed (standing : Standing job first startTime federation)
    (quiet : federation.Quiet job) {peerId : UInt32} (member : peerId ∈ job.peers)
    (answer : ControlAnswer) (answers : Answers (job.stepped.contains peerId) answer) :
    (receivedAnswers peerId federation.run.history).count answer =
      (sentMessages federation.run.history).count (answered answer) := by
  obtain ⟨handled, exchange⟩ := standing.exchange peerId member
  have balance := exchange.balance answer answers
  rw [(quiet peerId member).1, (quiet peerId member).2] at balance
  exact balance

theorem work_step_le (run : Run) (input : Input) :
    run.tally.work job ≤ (run.step job input).tally.work job := by
  rw [tally_step]
  exact (work_note_le _).trans (work_foldl_le _ _)

/-- When nothing is on its way, what brings the run on happens to the controller by itself. -/
theorem Standing.own_of_progress (standing : Standing job first startTime federation)
    (steps : job.stepped ≠ []) (direct : job.separateAdvanceTime = false)
    (quiet : federation.Quiet job) (running : federation.run.tally.endRun ≠ 1) {input : Input}
    (expires : federation.run.Expires input) (cooperative : Cooperative job federation.run input)
    (more : federation.run.tally.work job < (federation.run.step job input).tally.work job) :
    OwnInput federation.run input := by
  obtain ⟨⟨⟨cases, frames⟩, undisturbed⟩, due⟩ := cooperative
  obtain ⟨initCase, startFrame, endCase, -, -⟩ := sentMessages_eq_tally federation.run.history
  cases input with
  | startup peersStarted => exact expires
  | watchdog =>
      rw [tally_step] at more
      change _ < (federation.run.controller.watchdogAction.2.foldl Tally.note _).work job at more
      unfold FramedController.watchdogAction at more
      split at more
      · exact absurd more (lt_irrefl _)
      · exact absurd more (lt_irrefl _)
  | frame => exact due
  | monteCarloInitCase | pauseSimulation | startSimulation => trivial
  | initCaseComplete peerId =>
      have none := standing.unowed quiet cases.1 .initCaseComplete nofun
      have initialized := (receivedAnswers_eq_tally federation.run.history peerId).1
      have less := cases.2
      unfold Run.tally at less
      rw [initialized] at none
      exact absurd (none.trans initCase) less.ne
  | endFrame peerId =>
      have none := standing.unowed quiet (job.mem_peers_of_mem_stepped frames.1)
        .endFrame fun _ => List.contains_iff_mem.mpr frames.1
      have framed := (receivedAnswers_eq_tally federation.run.history peerId).2.1
      have less := frames.2
      unfold Run.tally at less
      rw [framed] at none
      exact absurd (none.trans startFrame) less.ne
  | endCaseComplete peerId =>
      have none := standing.unowed quiet cases.1 .endCaseComplete nofun
      have ended := (receivedAnswers_eq_tally federation.run.history peerId).2.2
      have less := cases.2
      unfold Run.tally at less
      rw [ended] at none
      exact absurd (none.trans endCase) less.ne
  | endRunComplete peerId =>
      obtain ⟨phase, fits⟩ := standing.sound.fits
      have once := fits.endRun
      have asked : 0 < federation.run.tally.endRun := due
      split at once
      · exact absurd once running
      · exact absurd once asked.ne'
  | timeAdvanced peerId =>
      have less := frames.2
      rw [(standing.liveRun steps).live.direct direct] at less
      exact absurd less (Nat.not_lt_zero _)
  | registerEndEngage peerId => exact absurd more (by rw [tally_step]; exact lt_irrefl _)
  | endEngagement peerId => cases undisturbed

/-- The run has ended, and everybody knows. -/
structure Federation.Ended (job : Job) (federation : Federation) : Prop where
  endRun : federation.run.tally.endRun = 1
  quiet : federation.Quiet job

/-- How far a run is from its end: what there is to do for the controller, and then what is on its
way. -/
def Federation.distance (job : Job) (first : Int) (federation : Federation) : Nat × Nat :=
  (job.bound first - federation.run.tally.work job, federation.inFlight job)

def Nearer : Nat × Nat → Nat × Nat → Prop := Prod.Lex (· < ·) (· < ·)

theorem nearer_of_work {other : Federation}
    (bounded : other.run.tally.work job ≤ job.bound first)
    (more : federation.run.tally.work job < other.run.tally.work job) :
    Nearer (other.distance job first) (federation.distance job first) :=
  Prod.Lex.left _ _ (by omega)

theorem nearer_of_inFlight {other : Federation}
    (bounded : other.run.tally.work job ≤ job.bound first)
    (same : federation.run.tally.work job ≤ other.run.tally.work job)
    (less : other.inFlight job < federation.inFlight job) :
    Nearer (other.distance job first) (federation.distance job first) := by
  rcases same.eq_or_lt with equal | more
  · unfold Federation.distance
    rw [equal]
    exact Prod.Lex.right _ less
  · exact nearer_of_work bounded more

theorem Standing.nearer_answer (standing : Standing job first startTime federation)
    (steps : job.stepped ≠ []) {peerId : UInt32} (member : peerId ∈ job.peers)
    {answer : ControlAnswer} {rest : List ControlAnswer}
    (pending : federation.answers peerId = answer :: rest) :
    Nearer ((federation.answer job peerId answer rest).distance job first)
      (federation.distance job first) := by
  obtain ⟨expires, cooperative, -⟩ := standing.answer_cooperative pending
  have bounded := ((standing.liveRun steps).step steps expires cooperative).bounded steps
  cases answer with
  | endRunComplete =>
      exact nearer_of_inFlight bounded (work_step_le _ _)
        (inFlight_answer_endRunComplete member pending)
  | initCaseComplete => exact nearer_of_work bounded (progress_answering member)
  | endFrame => exact nearer_of_work bounded (progress_answering cooperative.1.1.2.1)
  | endCaseComplete => exact nearer_of_work bounded (progress_answering member)

/-- Until a job has ended, something can happen that brings it nearer to its end. -/
theorem Standing.progress (standing : Standing job first startTime federation)
    (steps : job.stepped ≠ []) (direct : job.separateAdvanceTime = false)
    (unfinished : ¬ federation.Ended job) :
    ∃ event, federation.Guard event ∧
      Nearer ((federation.step job event).distance job first) (federation.distance job first) := by
  by_cases quiet : federation.Quiet job
  · have running : federation.run.tally.endRun ≠ 1 := fun ended => unfinished ⟨ended, quiet⟩
    obtain ⟨input, expires, cooperative, more⟩ := (standing.liveRun steps).progress running
    have own := standing.own_of_progress steps direct quiet running expires cooperative more
    have bounded := ((standing.liveRun steps).step steps expires cooperative).bounded steps
    exact ⟨.own input, own, nearer_of_work bounded more⟩
  · unfold Federation.Quiet at quiet
    push Not at quiet
    obtain ⟨peerId, member, busy⟩ := quiet
    cases messages : federation.messages peerId with
    | cons message rest =>
        refine ⟨.handle peerId, ?_, ?_⟩
        · change federation.messages peerId ≠ []
          rw [messages]
          exact List.cons_ne_nil _ _
        · rw [Federation.step_handle messages]
          exact nearer_of_inFlight ((standing.liveRun steps).bounded steps) (le_refl _)
            (inFlight_handle member messages)
    | nil =>
        cases answers : federation.answers peerId with
        | nil => exact absurd answers (busy messages)
        | cons answer rest =>
            refine ⟨.answer peerId, ?_, ?_⟩
            · change federation.answers peerId ≠ []
              rw [answers]
              exact List.cons_ne_nil _ _
            · rw [Federation.step_answer answers]
              exact standing.nearer_answer steps member answers

/-- So the job can be brought to its end. -/
theorem Standing.exists_ended (standing : Standing job first startTime federation)
    (steps : job.stepped ≠ []) (direct : job.separateAdvanceTime = false) :
    ∃ events, (federated job).Admits federation events ∧
      Standing job first startTime ((federated job).exec federation events) ∧
        ((federated job).exec federation events).Ended job :=
  (federated job).exists_finishing_of_wellFounded
    (Prod.lex Nat.lt_wfRel Nat.lt_wfRel).wf
    (Standing job first startTime) (Federation.Ended job) (Federation.distance job first)
    (fun federation standing unfinished => by
      obtain ⟨event, guarded, nearer⟩ := standing.progress steps direct unfinished
      exact ⟨event, guarded, standing.step guarded, nearer⟩)
    _ federation rfl standing

end Progress

/-! ## The end of the simulation -/

section Stop

variable {job : Job}

/-- The peers that have reported are powered down, and the report after which all are has stopped
the simulation. -/
structure Stops (job : Job) (run : Run) : Prop where
  down : ∀ peerId ∈ job.peers, peerId ≠ job.modelId →
    .received (.endRunComplete peerId) ∈ run.history → run.controller.poweredDown peerId = true
  stop : ∀ peerId, .received (.endRunComplete peerId) ∈ run.history →
    run.controller.shutMeDown job = true → .sent .stopSimulation ∈ run.history

variable {run : Run}

theorem Stops.endRunComplete (stops : Stops job run) (peerId : UInt32) :
    Stops job (run.step job (.endRunComplete peerId)) where
  down other member apart reported := by
    change powerDown job.modelId job.peers run.controller.poweredDown peerId other = true
    rw [powerDown_of_mem member apart, Bool.or_eq_true, beq_iff_eq]
    rcases List.mem_append.mp reported with before | now
    · exact .inl (stops.down other member apart before)
    · cases now with
      | head => exact .inr rfl
      | tail _ sent => exact absurd rfl (sends_handle job run.controller _ _ sent _)
  stop other _ down := by
    have sent : (run.controller.handle job (.endRunComplete peerId)).2 =
        [.sent .stopSimulation] := if_pos down
    change _ ∈ run.history ++ .received _ :: _
    rw [sent]
    exact List.mem_append_right _ (List.mem_cons_of_mem _ List.mem_cons_self)

theorem Stops.step (stops : Stops job run) (input : Input) : Stops job (run.step job input) := by
  by_cases report : ∃ peerId, input = .endRunComplete peerId
  · obtain ⟨peerId, rfl⟩ := report
    exact stops.endRunComplete peerId
  · have same := poweredDown_handle job run.controller
      fun peerId equal => report ⟨peerId, equal⟩
    have before {peerId : UInt32}
        (reported : .received (.endRunComplete peerId) ∈ (run.step job input).history) :
        .received (.endRunComplete peerId) ∈ run.history := by
      rcases List.mem_append.mp reported with before | now
      · exact before
      · cases now with
        | head => exact absurd ⟨peerId, rfl⟩ report
        | tail _ sent => exact absurd rfl (sends_handle job run.controller _ _ sent _)
    constructor
    · intro peerId member apart reported
      exact (congrFun same peerId).trans (stops.down peerId member apart (before reported))
    · intro peerId reported down
      refine List.mem_append_left _ (stops.stop peerId (before reported) ?_)
      change shutMeDown job.modelId job.peers (run.controller.handle job input).1.poweredDown = true
        at down
      rw [same] at down
      exact down

theorem stops_exec (first : Int) (inputs : List Input) :
    Stops job ((simulation job).exec (.start first) inputs) := by
  induction inputs using List.reverseRecOn with
  | nil => exact ⟨fun _ _ _ none => (List.not_mem_nil none).elim, fun _ none => (List.not_mem_nil none).elim⟩
  | append_singleton inputs input ih =>
      rw [System.exec_append]
      exact ih.step input

end Stop

/-! ## When a job can be completed -/

section Completion

variable {job : Job} {first : Int} {startTime : ℚ} {federation : Federation}

/-- All cases have been run in their order, everybody has reported the end of the run, and the
simulation has been stopped. -/
structure Completed (job : Job) (first : Int) (federation : Federation) : Prop where
  endRun : federation.run.history.count (.sent .endRun) = 1
  cases : CasesInSequence job first federation.run.history
  reported : ∀ peerId ∈ job.peers,
    .received (.endRunComplete peerId) ∈ federation.run.history
  stopped : .sent .stopSimulation ∈ federation.run.history
  quiet : federation.Quiet job

theorem Standing.completed (standing : Standing job first startTime federation)
    (steps : job.stepped ≠ []) (ended : federation.Ended job) :
    Completed job first federation := by
  have reported : ∀ peerId ∈ job.peers,
      .received (.endRunComplete peerId) ∈ federation.run.history := by
    intro peerId member
    have all := standing.unowed ended.quiet member .endRunComplete nofun
    rw [count_receivedAnswers] at all
    obtain ⟨-, -, -, endRun, -⟩ := sentMessages_eq_tally federation.run.history
    have once := all.trans (endRun.trans ended.endRun)
    exact List.count_pos_iff.mp (once ▸ Nat.one_pos)
  obtain ⟨inputs, -, same⟩ := standing.cooperative
  have stops : Stops job federation.run := same ▸ stops_exec first inputs
  constructor
  · rw [← (Tally.sent_eq_count _).2.2.1]
    exact ended.endRun
  · exact standing.sound.casesInSequence
  · exact reported
  · obtain ⟨peerId, stepped⟩ := List.exists_mem_of_ne_nil _ steps
    refine stops.stop peerId (reported peerId (job.mem_peers_of_mem_stepped stepped)) ?_
    refine List.all_eq_true.mpr fun other member => ?_
    rw [Bool.or_eq_true, beq_iff_eq]
    by_cases own : other = job.modelId
    · exact .inl own
    · exact .inr (stops.down other member own (reported other member))
  · exact ended.quiet

/-- A case does not end before a frame has been started. -/
theorem startFrame_of_endCase {inputs : List Input}
    (admitted : ((simulation job).restrict (Cooperative job)).Admits (.start first) inputs) :
    .sent .endCase ∈ ((simulation job).exec (.start first) inputs).history →
      .sent .startFrame ∈ ((simulation job).exec (.start first) inputs).history := by
  refine ((simulation job).restrict (Cooperative job)).invariant
    (fun run input (before : _ ∈ run.history → _ ∈ run.history) guarded => ?_)
    (fun none => (List.not_mem_nil none).elim) admitted
  intro ended
  apply List.mem_append_left
  rcases List.mem_append.mp ended with earlier | now
  · exact before earlier
  · have sent : .sent .endCase ∈ (run.controller.handle job input).2 := by
      cases now with
      | tail _ sent => exact sent
    obtain ⟨peerId, rfl⟩ := endFrame_of_endCase sent guarded.2.1.2
    have less := guarded.2.1.1.2.2
    have some := Nat.zero_lt_of_lt less
    unfold Run.tally at some
    rw [(Tally.sent_eq_count run.history).2.2.2.2] at some
    exact List.count_pos_iff.mp some

/-- The models of the job never advance the time, and so no frame starts. -/
theorem Standing.unframed (standing : Standing job first startTime federation)
    (steps : job.stepped ≠ []) (separate : job.separateAdvanceTime = true) :
    .sent .startFrame ∉ federation.run.history := by
  intro sent
  obtain ⟨before, after, split⟩ := List.append_of_mem sent
  obtain ⟨-, idle, paired, -⟩ := standing.sound.rule split
  obtain ⟨peerId, stepped⟩ := List.exists_mem_of_ne_nil _ steps
  have advanced := idle.timeAdvanced peerId stepped
  rw [paired separate, (Tally.received_eq_count before peerId).2.2.1] at advanced
  have none := standing.unadvanced peerId
  unfold Run.tally at none
  rw [(Tally.received_eq_count federation.run.history peerId).2.2.1, split,
    List.count_append] at none
  omega

theorem Standing.unended (standing : Standing job first startTime federation)
    (stuck : job.stepped = [] ∨ job.separateAdvanceTime = true) :
    federation.run.tally.endRun = 0 := by
  obtain ⟨inputs, admitted, same⟩ := standing.cooperative
  by_cases unstepped : job.stepped = []
  · rw [same]
    exact unended_of_unstepped unstepped admitted
  · have unframed := standing.unframed unstepped (stuck.resolve_left unstepped)
    have uncased : .sent .endCase ∉ federation.run.history := fun ended =>
      unframed (same ▸ startFrame_of_endCase admitted (same ▸ ended))
    by_contra some
    unfold Run.tally at some
    rw [(Tally.sent_eq_count federation.run.history).2.2.1] at some
    obtain ⟨before, after, split⟩ :=
      List.append_of_mem (List.count_pos_iff.mp (Nat.pos_of_ne_zero some))
    obtain ⟨-, ended, begun, -⟩ := standing.sound.rule split
    rw [ended.1, (Tally.sent_eq_count before).2.1] at begun
    exact uncased (split ▸ List.mem_append_left _ (List.count_pos_iff.mp begun))

/--
In whatever order the messages and answers have arrived so far, the timers have expired and the job
has been paused, unless the watchdog has found it stalled, a job of example models and message
loggers can be brought to its end, with all cases run in their order and everybody's report
received, if and only if some model is stepped and the time is not advanced by messages of its own.
-/
theorem job_completable_iff (job : Job) (first : Int) (startTime : ℚ) :
    (∀ events, (federated job).Admits (.start job first startTime) events →
      ∃ later,
        (federated job).Admits ((federated job).exec (.start job first startTime) events) later ∧
          Completed job first
            ((federated job).exec (.start job first startTime) (events ++ later))) ↔
      job.stepped ≠ [] ∧ job.separateAdvanceTime = false := by
  constructor
  · intro completable
    by_contra stuck
    obtain ⟨later, admitted, completed⟩ := completable [] trivial
    have standing := standing_of_admitted admitted
    have unended := standing.unended (by
      by_cases unstepped : job.stepped = []
      · exact .inl unstepped
      · exact .inr (Bool.eq_true_of_not_eq_false fun direct => stuck ⟨unstepped, direct⟩))
    have once := completed.endRun
    rw [← (Tally.sent_eq_count _).2.2.1] at once
    exact absurd (unended.symm.trans once) Nat.zero_ne_one
  · rintro ⟨steps, direct⟩ events admitted
    obtain ⟨later, admits, standing, ended⟩ :=
      (standing_of_admitted admitted).exists_ended steps direct
    refine ⟨later, admits, ?_⟩
    rw [System.exec_append]
    exact standing.completed steps ended

end Completion

end Nise
