import Nise.Lib.Rounds
import Nise.Utilities.TimedController

/-!
# The barriers of the timed controller

The framed controller waits for a set of peers and the timed controller for a number of
messages.  For `InitCase` this is the number of all peers and the barriers are the same.  For
`EndCase` it is the number of the peers that are stepped, although all of them answer.
-/

namespace Nise.Utilities

open Nise.Lib

namespace FramedController

/-- Handle an `InitCaseComplete`, and say whether it begins the frames. -/
def initCaseSignal (job : Job) (controller : FramedController) (peerId : UInt32) :
    FramedController × Bool :=
  let out := controller.doInitCaseComplete job peerId
  (out.1, out.2.contains .initialized)

/-- Handle an `EndCaseComplete`, and say whether it begins the next case or ends the run. -/
def endCaseSignal (job : Job) (controller : FramedController) (peerId : UInt32) :
    FramedController × Bool :=
  let out := controller.doEndCaseComplete job peerId
  (out.1, out.2.contains (.sent .initCase) || out.2.contains (.sent .endRun))

theorem initCaseSet_beginFrame (job : Job) (controller : FramedController) :
    (controller.beginFrame job).1.initCaseSet = controller.initCaseSet := by
  unfold beginFrame
  split <;> rfl

theorem initCaseSignal_arrive (job : Job) (controller : FramedController) (peerId : UInt32) :
    ((controller.initCaseSignal job peerId).1.initCaseSet,
        (controller.initCaseSignal job peerId).2) =
      controller.initCaseSet.arrive job.peers peerId := by
  unfold initCaseSignal doInitCaseComplete
  dsimp only
  split
  · next completes =>
      rw [initCaseSet_beginFrame]
      exact Prod.ext rfl completes.symm
  · next unfinished => exact Prod.ext rfl (Bool.eq_false_iff.mpr unfinished).symm

theorem endCaseSignal_arrive (job : Job) (controller : FramedController) (peerId : UInt32) :
    ((controller.endCaseSignal job peerId).1.endcaseCompleteSet,
        (controller.endCaseSignal job peerId).2) =
      controller.endcaseCompleteSet.arrive job.peers peerId := by
  unfold endCaseSignal doEndCaseComplete
  dsimp only
  split
  · next completes =>
      split
      · exact Prod.ext rfl completes.symm
      · exact Prod.ext rfl completes.symm
  · next unfinished => exact Prod.ext rfl (Bool.eq_false_iff.mpr unfinished).symm

end FramedController

namespace TimedController

/-- Handle an `InitCaseComplete`, and say whether it starts the recurring timer. -/
def initCaseSignal (controller : TimedController) (peerId : UInt32) : TimedController × Bool :=
  let out := controller.doInitCaseComplete peerId
  (out.1, out.2.contains (.schedule .frame))

/-- Handle an `EndCaseComplete`, and say whether it ends the run. -/
def endCaseSignal (controller : TimedController) (peerId : UInt32) : TimedController × Bool :=
  let out := controller.doEndCaseComplete peerId
  (out.1, out.2.contains .endRun)

/-- When all models have started, with all counters at zero. -/
def started (job : TimedJob) (endGame : Bool) : TimedController :=
  ((TimedController.init job endGame).startSimulation job true).1

theorem initCaseSignal_countArrive (controller : TimedController) (peerId : UInt32) :
    (controller.initCaseSignal peerId).1.nmodels = controller.nmodels ∧
      ((controller.initCaseSignal peerId).1.initMessageCnt,
          (controller.initCaseSignal peerId).2) =
        countArrive controller.nmodels controller.initMessageCnt peerId := by
  unfold initCaseSignal doInitCaseComplete countArrive
  dsimp only
  split
  · exact ⟨rfl, rfl⟩
  · exact ⟨rfl, rfl⟩

theorem endCaseSignal_countArrive (controller : TimedController) (peerId : UInt32) :
    (controller.endCaseSignal peerId).1.stepCount = controller.stepCount ∧
      ((controller.endCaseSignal peerId).1.endMessageCnt,
          (controller.endCaseSignal peerId).2) =
        countArrive controller.stepCount controller.endMessageCnt peerId := by
  unfold endCaseSignal doEndCaseComplete countArrive
  dsimp only
  split
  · exact ⟨rfl, rfl⟩
  · exact ⟨rfl, rfl⟩

end TimedController

/-! ## The four barriers in rounds -/

section Rounds

variable {job : Job} {timedJob : TimedJob} {rounds : List (List UInt32)}

theorem framed_init_signals (caseNumber : Int) (messages : List UInt32) :
    signals (fun controller peerId => controller.initCaseSignal job peerId)
        (FramedController.init caseNumber) messages =
      signals (fun (barrier : Barrier UInt32) peerId => barrier.arrive job.peers peerId) .fresh
        messages :=
  signals_of_commutes _ (fun _ => True) FramedController.initCaseSet
    (fun controller peerId _ => ⟨trivial, controller.initCaseSignal_arrive job peerId⟩)
    trivial messages

theorem framed_end_signals (caseNumber : Int) (messages : List UInt32) :
    signals (fun controller peerId => controller.endCaseSignal job peerId)
        (FramedController.init caseNumber) messages =
      signals (fun (barrier : Barrier UInt32) peerId => barrier.arrive job.peers peerId) .fresh
        messages :=
  signals_of_commutes _ (fun _ => True) FramedController.endcaseCompleteSet
    (fun controller peerId _ => ⟨trivial, controller.endCaseSignal_arrive job peerId⟩)
    trivial messages

theorem timed_init_signals (endGame : Bool) (messages : List UInt32) :
    signals (fun controller peerId => controller.initCaseSignal peerId)
        (TimedController.started timedJob endGame) messages =
      signals (countArrive timedJob.getPeerTable) 0 messages := by
  refine signals_of_commutes _ (fun controller => controller.nmodels = timedJob.getPeerTable)
    TimedController.initMessageCnt ?_ rfl messages
  intro controller peerId models
  obtain ⟨kept, counts⟩ := controller.initCaseSignal_countArrive peerId
  rw [models] at kept counts
  exact ⟨kept, counts⟩

theorem timed_end_signals (endGame : Bool) (messages : List UInt32) :
    signals (fun controller peerId => controller.endCaseSignal peerId)
        (TimedController.started timedJob endGame) messages =
      signals (countArrive timedJob.getStepRate) 0 messages := by
  refine signals_of_commutes _ (fun controller => controller.stepCount = timedJob.getStepRate)
    TimedController.endMessageCnt ?_ rfl messages
  intro controller peerId steps
  obtain ⟨kept, counts⟩ := controller.endCaseSignal_countArrive peerId
  rw [steps] at kept counts
  exact ⟨kept, counts⟩

end Rounds

/-- The two controllers complete a round at the same messages, once in each round and with the
last answer. -/
structure BarriersAgree (job : Job) (caseNumber : Int) (timedJob : TimedJob) (endGame : Bool)
    (rounds : List (List UInt32)) : Prop where
  init : signals (fun controller peerId => controller.initCaseSignal peerId)
      (TimedController.started timedJob endGame) rounds.flatten =
    signals (fun controller peerId => controller.initCaseSignal job peerId)
      (FramedController.init caseNumber) rounds.flatten
  initOnce : signals (fun controller peerId => controller.initCaseSignal peerId)
      (TimedController.started timedJob endGame) rounds.flatten =
    rounds.flatMap fun round => lastOnly round.length
  ends : signals (fun controller peerId => controller.endCaseSignal peerId)
      (TimedController.started timedJob endGame) rounds.flatten =
    signals (fun controller peerId => controller.endCaseSignal job peerId)
      (FramedController.init caseNumber) rounds.flatten
  endsOnce : signals (fun controller peerId => controller.endCaseSignal peerId)
      (TimedController.started timedJob endGame) rounds.flatten =
    rounds.flatMap fun round => lastOnly round.length

theorem getStepRate_eq_iff (timedJob : TimedJob) :
    timedJob.getStepRate = (timedJob.peerTable.length : Int) ↔
      ∀ peer ∈ timedJob.peerTable, peer.rate ≠ 0 := by
  unfold TimedJob.getStepRate
  rw [Int.natCast_inj, List.length_filter_eq_length_iff]
  simp

/-- In rounds in which each peer answers once, the barriers agree exactly if all peers are
stepped, apart from the runs in which nobody answers. -/
theorem barriers_agree_iff {job : Job} {timedJob : TimedJob}
    (sameTable : timedJob.peerTable = job.peerTable) (distinct : job.peers.Nodup)
    (caseNumber : Int) (endGame : Bool) {rounds : List (List UInt32)}
    (each : ∀ round ∈ rounds, round.Perm job.peers) :
    BarriersAgree job caseNumber timedJob endGame rounds ↔
      rounds = [] ∨ job.peerTable = [] ∨ ∀ peer ∈ job.peerTable, peer.rate ≠ 0 := by
  have length : ∀ round ∈ rounds, round.length = job.peerTable.length := by
    intro round member
    rw [(each round member).length_eq, Job.peers, List.length_map]
  have framed := Barrier.signals_rounds distinct each
  have counted := signals_countArrive_rounds timedJob.getStepRate length
  rw [← sameTable, getStepRate_eq_iff, List.length_eq_zero_iff, sameTable] at counted
  constructor
  · intro agree
    rw [← counted, ← timed_end_signals endGame]
    exact agree.endsOnce
  · intro stepped
    have init := (signals_countArrive_rounds timedJob.getPeerTable length).mpr
      (.inr (.inr (by rw [← sameTable]; rfl)))
    have ends := counted.mpr stepped
    rw [← timed_init_signals endGame] at init
    rw [← timed_end_signals endGame] at ends
    exact
      { init := by rw [init, framed_init_signals, framed]
        initOnce := init
        ends := by rw [ends, framed_end_signals, framed]
        endsOnce := ends }

namespace Stepping

/-- Two models, of which the second may be one that is not stepped. -/
def job (rate : Int) : Job where
  peerTable := [⟨7, 10⟩, ⟨8, rate⟩]
  modelId := 1
  separateAdvanceTime := false
  startFrameHz := 0
  maxFrame := 0
  numberOfRuns := 1

def timedJob (rate : Int) : TimedJob := ⟨(job rate).peerTable, 1, 10⟩

theorem barriers_agree_both_stepped :
    BarriersAgree (job 5) 1 (timedJob 5) false [[7, 8], [8, 7]] :=
  (barriers_agree_iff rfl (by decide) 1 false (by decide)).mpr (.inr (.inr (by decide)))

/-- The run ends with the answer of the stepped model, before the other one has answered. -/
theorem barriers_agree_fails :
    ¬ ∀ (job : Job) (timedJob : TimedJob) (caseNumber : Int) (endGame : Bool)
      (rounds : List (List UInt32)), timedJob.peerTable = job.peerTable → job.peers.Nodup →
      (∀ round ∈ rounds, round.Perm job.peers) →
        BarriersAgree job caseNumber timedJob endGame rounds := by
  intro claim
  have agree := claim (job 0) (timedJob 0) 1 false [[7, 8]] rfl (by decide) (by decide)
  exact absurd agree.ends (by decide)

end Stepping

end Nise.Utilities
