import Nise.Lib.Barrier
import Nise.Utilities.PeerShutdown

/-!
# The framed controller

The master of a job.  When all models have started it sends `InitCase`, waits for every
model to complete it, and then steps the models with a rate frame by frame, with a
separate `AdvanceTime` before each `StartFrame` if it is asked to.  A case ends when the
frame counter reaches its limit or when the engagement has ended; then there is another
case, or the run ends.

The three sets of peers that are waited for are function-local statics of the source,
filled again by the first message of the next round.
-/

namespace Nise.Utilities

open Nise.Lib

structure Peer where
  peerId : UInt32
  rate : Int
  deriving DecidableEq, Repr

/-- What the command line and the database give. -/
structure Job where
  peerTable : List Peer
  modelId : UInt32
  separateAdvanceTime : Bool
  startFrameHz : Int
  maxFrame : UInt32
  numberOfRuns : Int
  deriving DecidableEq, Repr

namespace Job

variable (job : Job)

def peers : List UInt32 := job.peerTable.map Peer.peerId

/-- The peers that are stepped. -/
def stepped : List UInt32 := (job.peerTable.filter fun peer => peer.rate ≠ 0).map Peer.peerId

theorem mem_peers_of_mem_stepped {peerId : UInt32} (member : peerId ∈ job.stepped) :
    peerId ∈ job.peers := by
  obtain ⟨peer, among, same⟩ := List.mem_map.mp member
  exact List.mem_map.mpr ⟨peer, List.mem_of_mem_filter among, same⟩

end Job

inductive Timer where
  | startup
  | watchdog
  | frame
  deriving DecidableEq, Repr

/-- The messages and timer expiries that the controller handles.  `startup` carries the
answer of `checkPeersStarted`; `monteCarloInitCase` is the controller's own `InitCase`
coming back to it through the base class. -/
inductive Input where
  | startup (peersStarted : Bool)
  | watchdog
  | frame
  | monteCarloInitCase
  | initCaseComplete (peerId : UInt32)
  | endFrame (peerId : UInt32)
  | endCaseComplete (peerId : UInt32)
  | endRunComplete (peerId : UInt32)
  | timeAdvanced (peerId : UInt32)
  | registerEndEngage (peerId : UInt32)
  | endEngagement (peerId : UInt32)
  | pauseSimulation
  | startSimulation
  deriving DecidableEq, Repr

/-- An end of engagement is reported. -/
def Input.endsEngagement : Input → Bool
  | .endEngagement _ => true
  | _ => false

inductive Output where
  | initCase
  | advanceTime
  | startFrame
  | endCase
  | endRun
  | logEventChannelStatus
  | dispatcherCommand
  | requestJobStatus
  | stopSimulation
  | schedule (timer : Timer)
  deriving DecidableEq, Repr

/-- What is noted of a run: what the controller receives and sends, and the moments at
which the last `InitCaseComplete` has arrived. -/
inductive Entry where
  | received (input : Input)
  | sent (output : Output)
  | initialized
  deriving DecidableEq, Repr

structure FramedController where
  initCaseSet : Barrier UInt32
  endframeSet : Barrier UInt32
  endcaseCompleteSet : Barrier UInt32
  waitingOnTimeadvance : UInt32 → Bool
  waitingOnEndframe : UInt32 → Bool
  poweredDown : UInt32 → Bool
  endEngagementSet : List UInt32
  startTimer : Bool
  frameCount : UInt32
  frameCountSent : Int
  currFrame : Nat
  caseNumber : Int
  endGame : Bool
  missedTimeout : Bool
  readyToStartFrame : Bool
  paused : Bool
  savedFrameCount : Int
  msgSent : Bool

namespace FramedController

/-- After `init`, which schedules the startup timer. -/
def init (caseNumber : Int) : FramedController where
  initCaseSet := .fresh
  endframeSet := .fresh
  endcaseCompleteSet := .fresh
  waitingOnTimeadvance := fun _ => false
  waitingOnEndframe := fun _ => false
  poweredDown := fun _ => false
  endEngagementSet := []
  startTimer := true
  frameCount := 0
  frameCountSent := 0
  currFrame := 0
  caseNumber := caseNumber
  endGame := false
  missedTimeout := false
  readyToStartFrame := false
  paused := false
  savedFrameCount := -1
  msgSent := false

variable (job : Job) (controller : FramedController)

def scheduleFrame : List Entry :=
  if job.startFrameHz ≠ 0 then [.sent (.schedule .frame)] else []

def advanceTime : FramedController × List Entry :=
  ({ controller with
      currFrame := controller.currFrame + 1
      waitingOnTimeadvance :=
        setFlag controller.waitingOnTimeadvance (job.stepped.contains ·) true },
    .sent .advanceTime :: scheduleFrame job)

def startNewFrame : FramedController × List Entry :=
  ({ controller with
      currFrame := if job.separateAdvanceTime then controller.currFrame
        else controller.currFrame + 1
      frameCount := controller.frameCount + 1
      waitingOnEndframe := setFlag controller.waitingOnEndframe (job.stepped.contains ·) true
      frameCountSent := controller.frameCountSent + 1 },
    .sent .startFrame :: if job.separateAdvanceTime then [] else scheduleFrame job)

/-- Begin a frame, with a separate advance of the time if it is asked for. -/
def beginFrame : FramedController × List Entry :=
  if job.separateAdvanceTime then controller.advanceTime job else controller.startNewFrame job

@[simp] theorem startNewFrame_readyToStartFrame :
    (controller.startNewFrame job).1.readyToStartFrame = controller.readyToStartFrame := rfl

@[simp] theorem beginFrame_readyToStartFrame :
    (controller.beginFrame job).1.readyToStartFrame = controller.readyToStartFrame := by
  unfold beginFrame
  split <;> rfl

def monteCarloInitCase : FramedController :=
  { controller with frameCountSent := 0, currFrame := 0 }

/-! ## Timers -/

def startsimAction (peersStarted : Bool) : FramedController × List Entry :=
  if peersStarted then (controller, [.sent .logEventChannelStatus, .sent .initCase])
  else ({ controller with startTimer := true }, [.sent (.schedule .startup)])

def watchdogAction : FramedController × List Entry :=
  if controller.savedFrameCount = controller.frameCountSent ∧ controller.endGame = false ∧
      controller.msgSent = false then
    ({ controller with msgSent := true }, [.sent .requestJobStatus, .sent .stopSimulation])
  else ({ controller with savedFrameCount := controller.frameCountSent }, [])

def handleTimeout : Timer → Bool → FramedController × List Entry
  | .startup, peersStarted => { controller with startTimer := false }.startsimAction peersStarted
  | .watchdog, _ => controller.watchdogAction
  | .frame, _ =>
      if controller.paused = false ∧ controller.readyToStartFrame = true then
        let out := controller.beginFrame job
        ({ out.1 with missedTimeout := false, readyToStartFrame := false }, out.2)
      else ({ controller with missedTimeout := true }, [])

/-! ## Messages -/

def doInitCaseComplete (peerId : UInt32) : FramedController × List Entry :=
  let barrier := controller.initCaseSet.arrive job.peers peerId
  let controller := { controller with initCaseSet := barrier.1 }
  if barrier.2 then
    let out := { controller with endGame := false }.beginFrame job
    (out.1, .initialized :: .sent (.schedule .watchdog) :: out.2)
  else (controller, [])

def doEndFrame (peerId : UInt32) : FramedController × List Entry :=
  if controller.endGame = false then
    let barrier := controller.endframeSet.arrive job.stepped peerId
    let controller := { controller with
      endframeSet := barrier.1
      waitingOnEndframe := setFlag controller.waitingOnEndframe (· == peerId) false }
    if barrier.2 then
      if controller.frameCount = job.maxFrame then (controller, [.sent .endCase])
      else if controller.paused = false ∧ (job.startFrameHz = 0 ∨ controller.missedTimeout) then
        let out := controller.beginFrame job
        ({ out.1 with readyToStartFrame := false }, out.2)
      else ({ controller with readyToStartFrame := true }, [])
    else (controller, [])
  else (controller, [])

def doEndCaseComplete (peerId : UInt32) : FramedController × List Entry :=
  let barrier := controller.endcaseCompleteSet.arrive job.peers peerId
  let controller := { controller with endcaseCompleteSet := barrier.1 }
  if barrier.2 then
    let controller := { controller with endGame := false }
    if job.numberOfRuns ≤ controller.caseNumber then (controller, [.sent .endRun])
    else ({ controller with caseNumber := controller.caseNumber + 1 }, [.sent .initCase])
  else (controller, [])

/-- The peers that are powered down, with the one that reports unless it is the controller. -/
def powerDown (peerId : UInt32) : UInt32 → Bool :=
  Utilities.powerDown job.modelId job.peers controller.poweredDown peerId

/-- All peers but the controller itself are powered down. -/
def shutMeDown : Bool := Utilities.shutMeDown job.modelId job.peers controller.poweredDown

def doEndRunComplete (peerId : UInt32) : FramedController × List Entry :=
  let controller := { controller with
    endGame := true
    poweredDown := controller.powerDown job peerId }
  (controller, if controller.shutMeDown job then [.sent .stopSimulation] else [])

def doRegisterEndEngage (peerId : UInt32) : FramedController × List Entry :=
  ({ controller with endEngagementSet := controller.endEngagementSet.insert peerId }, [])

def doEndEngagement (peerId : UInt32) : FramedController × List Entry :=
  let controller := { controller with
    endEngagementSet := controller.endEngagementSet.filter (· ≠ peerId) }
  (controller,
    if controller.endEngagementSet = [] then [.sent .dispatcherCommand, .sent .endCase] else [])

def doPauseSimulation : FramedController × List Entry :=
  ({ controller with paused := true }, [])

def doStartSimulation : FramedController × List Entry :=
  let controller := { controller with paused := false }
  if controller.readyToStartFrame then
    let out := controller.beginFrame job
    ({ out.1 with readyToStartFrame := false }, out.2)
  else (controller, [])

def doTimeAdvanced (peerId : UInt32) : FramedController × List Entry :=
  let controller := { controller with
    waitingOnTimeadvance := setFlag controller.waitingOnTimeadvance (· == peerId) false }
  if job.peers.any controller.waitingOnTimeadvance then (controller, [])
  else controller.startNewFrame job

def handle : Input → FramedController × List Entry
  | .startup peersStarted => controller.handleTimeout job .startup peersStarted
  | .watchdog => controller.handleTimeout job .watchdog false
  | .frame => controller.handleTimeout job .frame false
  | .monteCarloInitCase => (controller.monteCarloInitCase, [])
  | .initCaseComplete peerId => controller.doInitCaseComplete job peerId
  | .endFrame peerId => controller.doEndFrame job peerId
  | .endCaseComplete peerId => controller.doEndCaseComplete job peerId
  | .endRunComplete peerId => controller.doEndRunComplete job peerId
  | .timeAdvanced peerId => controller.doTimeAdvanced job peerId
  | .registerEndEngage peerId => controller.doRegisterEndEngage peerId
  | .endEngagement peerId => controller.doEndEngagement peerId
  | .pauseSimulation => controller.doPauseSimulation
  | .startSimulation => controller.doStartSimulation job

end FramedController

end Nise.Utilities
