import Nise.Utilities.TimedController
import Nise.Utilities.SimpleController

/-!
# The end of a run

The three controllers stop the simulation with the report after which no peer is missing, and
again with every later one.
-/

namespace Nise.Utilities

/-- What is called when a report comes in after the others. -/
def stopCalls (modelId : UInt32) (peers reports : List UInt32) : List Output :=
  if AllReported modelId peers reports then [.stopSimulation] else []

/-- The decision of a controller that has noted all reports, the last one included. -/
theorem stopCalls_of_foldl {modelId : UInt32} {peers : List UInt32} {poweredDown : UInt32 → Bool}
    (running : ∀ other ∈ peers, poweredDown other = false) (before : List UInt32)
    (peerId : UInt32) :
    (if shutMeDown modelId peers (powerDown modelId peers
        (before.foldl (powerDown modelId peers) poweredDown) peerId) = true
      then [Output.stopSimulation] else []) =
      stopCalls modelId peers (before ++ [peerId]) := by
  have noted : powerDown modelId peers (before.foldl (powerDown modelId peers) poweredDown)
      peerId = (before ++ [peerId]).foldl (powerDown modelId peers) poweredDown := by
    rw [List.foldl_append]
    rfl
  rw [noted]
  exact if_congr (shutMeDown_foldl running (before ++ [peerId])) rfl rfl

namespace FramedController

/-- The controller after some reports. -/
def reported (job : Job) (controller : FramedController) (reports : List UInt32) :
    FramedController :=
  reports.foldl (fun controller peerId => (controller.doEndRunComplete job peerId).1) controller

theorem poweredDown_reported (job : Job) (controller : FramedController)
    (reports : List UInt32) :
    (controller.reported job reports).poweredDown =
      reports.foldl (Utilities.powerDown job.modelId job.peers) controller.poweredDown := by
  induction reports generalizing controller with
  | nil => rfl
  | cons peerId rest ih => exact ih (controller.doEndRunComplete job peerId).1

theorem doEndRunComplete_calls {job : Job} {controller : FramedController}
    (running : ∀ peerId ∈ job.peers, controller.poweredDown peerId = false)
    (before : List UInt32) (peerId : UInt32) :
    ((controller.reported job before).doEndRunComplete job peerId).2 =
      (stopCalls job.modelId job.peers (before ++ [peerId])).map .sent := by
  rw [← stopCalls_of_foldl running before peerId, ← poweredDown_reported, apply_ite (List.map _)]
  rfl

end FramedController

namespace TimedController

def reported (job : TimedJob) (controller : TimedController) (reports : List UInt32) :
    TimedController :=
  reports.foldl (fun controller peerId => (controller.doEndRunComplete job peerId).1) controller

theorem poweredDown_reported (job : TimedJob) (controller : TimedController)
    (reports : List UInt32) :
    (controller.reported job reports).poweredDown =
      reports.foldl (powerDown job.modelId job.peers) controller.poweredDown := by
  induction reports generalizing controller with
  | nil => rfl
  | cons peerId rest ih => exact ih (controller.doEndRunComplete job peerId).1

theorem doEndRunComplete_calls {job : TimedJob} {controller : TimedController}
    (running : ∀ peerId ∈ job.peers, controller.poweredDown peerId = false)
    (before : List UInt32) (peerId : UInt32) :
    ((controller.reported job before).doEndRunComplete job peerId).2 =
      stopCalls job.modelId job.peers (before ++ [peerId]) := by
  rw [← stopCalls_of_foldl running before peerId, ← poweredDown_reported]
  rfl

end TimedController

namespace SimpleController

def reported (modelId : UInt32) (peers : List UInt32) (controller : SimpleController)
    (reports : List UInt32) : SimpleController :=
  reports.foldl (fun controller peerId => (controller.doEndRunComplete modelId peers peerId).1)
    controller

theorem poweredDown_reported (modelId : UInt32) (peers : List UInt32)
    (controller : SimpleController) (reports : List UInt32) :
    (controller.reported modelId peers reports).poweredDown =
      reports.foldl (powerDown modelId peers) controller.poweredDown := by
  induction reports generalizing controller with
  | nil => rfl
  | cons peerId rest ih => exact ih (controller.doEndRunComplete modelId peers peerId).1

theorem doEndRunComplete_calls {modelId : UInt32} {peers : List UInt32}
    {controller : SimpleController}
    (running : ∀ peerId ∈ peers, controller.poweredDown peerId = false)
    (before : List UInt32) (peerId : UInt32) :
    ((controller.reported modelId peers before).doEndRunComplete modelId peers peerId).2 =
      stopCalls modelId peers (before ++ [peerId]) := by
  rw [← stopCalls_of_foldl running before peerId, ← poweredDown_reported]
  rfl

end SimpleController

/-- Each controller, whatever else it remembers, makes the call with a report exactly if all
peers but itself have reported by then. -/
theorem endRunComplete_stops (job : Job) (numberOfSteps : Int) (framed : FramedController)
    (timed : TimedController) (simple : SimpleController)
    (running : ∀ peerId ∈ job.peers, framed.poweredDown peerId = false ∧
      timed.poweredDown peerId = false ∧ simple.poweredDown peerId = false)
    (before : List UInt32) (peerId : UInt32) :
    let timedJob : TimedJob := ⟨job.peerTable, job.modelId, numberOfSteps⟩
    let calls := stopCalls job.modelId job.peers (before ++ [peerId])
    ((framed.reported job before).doEndRunComplete job peerId).2 = calls.map .sent ∧
      ((timed.reported timedJob before).doEndRunComplete timedJob peerId).2 = calls ∧
      ((simple.reported job.modelId job.peers before).doEndRunComplete job.modelId job.peers
        peerId).2 = calls ∧
      (.stopSimulation ∈ calls ↔ ∀ other ∈ job.peers, other ≠ job.modelId →
        other ∈ before ++ [peerId]) := by
  intro timedJob calls
  have timedRunning : ∀ other ∈ timedJob.peers, timed.poweredDown other = false :=
    fun other member => (running other member).2.1
  refine ⟨framed.doEndRunComplete_calls (fun other member => (running other member).1) _ _,
    timed.doEndRunComplete_calls timedRunning _ _,
    simple.doEndRunComplete_calls (fun other member => (running other member).2.2) _ _, ?_⟩
  unfold calls stopCalls
  split
  · next all => exact iff_of_true (List.mem_singleton_self _) all
  · next missing => exact iff_of_false (List.not_mem_nil) missing

namespace ThreePeers

/-- The controller, with number 1, and two models. -/
def job : Job where
  peerTable := [⟨1, 0⟩, ⟨7, 10⟩, ⟨8, 0⟩]
  modelId := 1
  separateAdvanceTime := false
  startFrameHz := 0
  maxFrame := 0
  numberOfRuns := 1

/-- A report twice, one of the controller and one of a stranger, before the last one. -/
theorem endRunComplete_stops_last :
    (((FramedController.init 1).reported job [7, 7, 1, 9]).doEndRunComplete job 8).2 =
      [.sent .stopSimulation] := by
  have calls := endRunComplete_stops job 10 (.init 1) (.init ⟨job.peerTable, 1, 10⟩ false) .init
    (fun _ _ => ⟨rfl, rfl, rfl⟩) [7, 7, 1, 9] 8
  exact calls.1.trans (by decide)

end ThreePeers

end Nise.Utilities
