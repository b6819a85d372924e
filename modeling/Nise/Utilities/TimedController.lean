import Nise.Utilities.FramedController

/-!
# The timed controller

The master of a job whose models are stepped by a clock.  When all models have started it
sends `InitCase`; when all have completed it, a recurring timer sends `StartFrame` until
enough frames have been sent.  There is one case only, and the run ends with it.

The two message counters are function-local statics of the source, as is the flag that
`EndCase` has been sent.
-/

namespace Nise.Utilities

/-- What the command line and the database give. -/
structure TimedJob where
  peerTable : List Peer
  modelId : UInt32
  numberOfSteps : Int
  deriving DecidableEq, Repr

namespace TimedJob

variable (job : TimedJob)

def peers : List UInt32 := job.peerTable.map Peer.peerId

/-- What `getPeerTable` returns: the number of peers of the job. -/
def getPeerTable : Int := job.peerTable.length

/-- What `getStepRate` returns: the number of peers with a rate. -/
def getStepRate : Int := (job.peerTable.filter fun peer => peer.rate ≠ 0).length

end TimedJob

inductive TimeoutAction where
  | startSimulation
  | startNewFrame
  deriving DecidableEq, Repr

structure TimedController where
  timeoutAction : TimeoutAction
  nmodels : Int
  stepCount : Int
  frameCountSent : Int
  endGame : Bool
  endEngagementSet : List UInt32
  initMessageCnt : Int
  endMessageCnt : Int
  sentEndCase : Bool
  poweredDown : UInt32 → Bool

namespace TimedController

/-- After `init`, which schedules the first timer; `endGame` is left unset by the source. -/
def init (job : TimedJob) (endGame : Bool) : TimedController where
  timeoutAction := .startSimulation
  nmodels := job.getPeerTable
  stepCount := 0
  frameCountSent := 0
  endGame := endGame
  endEngagementSet := []
  initMessageCnt := 0
  endMessageCnt := 0
  sentEndCase := false
  poweredDown := fun _ => false

variable (job : TimedJob) (controller : TimedController)

def startSimulation (peersStarted : Bool) : TimedController × List Output :=
  if peersStarted then
    ({ controller with stepCount := job.getStepRate }, [.logEventChannelStatus, .initCase])
  else ({ controller with timeoutAction := .startSimulation }, [.schedule .startup])

def startNewFrame : TimedController × List Output :=
  if job.numberOfSteps ≤ controller.frameCountSent ∧ controller.frameCountSent ≠ 0 then
    if controller.sentEndCase = false then
      ({ controller with sentEndCase := true }, [.endCase])
    else (controller, [])
  else if controller.endGame = false then
    ({ controller with frameCountSent := controller.frameCountSent + 1 }, [.startFrame])
  else (controller, [])

def handleTimeout (peersStarted : Bool) : TimedController × List Output :=
  match controller.timeoutAction with
  | .startSimulation => controller.startSimulation job peersStarted
  | .startNewFrame => controller.startNewFrame job

/-- Who sends the message is not looked at. -/
def doInitCaseComplete (_peerId : UInt32) : TimedController × List Output :=
  let messageCnt := controller.initMessageCnt + 1
  if messageCnt = controller.nmodels then
    ({ controller with
        timeoutAction := .startNewFrame
        endGame := false
        initMessageCnt := 0 },
      [.schedule .frame])
  else ({ controller with initMessageCnt := messageCnt }, [])

/-- The messages are counted against the number of models that are stepped. -/
def doEndCaseComplete (_peerId : UInt32) : TimedController × List Output :=
  let messageCnt := controller.endMessageCnt + 1
  if messageCnt = controller.stepCount then
    ({ controller with endGame := false, endMessageCnt := 0 }, [.endRun])
  else ({ controller with endMessageCnt := messageCnt }, [])

def doEndRunComplete (peerId : UInt32) : TimedController × List Output :=
  let controller := { controller with
    endGame := true
    poweredDown := powerDown job.modelId job.peers controller.poweredDown peerId }
  (controller,
    if shutMeDown job.modelId job.peers controller.poweredDown then [.stopSimulation] else [])

def doRegisterEndEngage (peerId : UInt32) : TimedController × List Output :=
  ({ controller with endEngagementSet := controller.endEngagementSet.insert peerId }, [])

def doEndEngagement (peerId : UInt32) : TimedController × List Output :=
  let controller := { controller with
    endEngagementSet := controller.endEngagementSet.filter (· ≠ peerId) }
  (controller, if controller.endEngagementSet = [] then [.endCase] else [])

end TimedController

end Nise.Utilities
