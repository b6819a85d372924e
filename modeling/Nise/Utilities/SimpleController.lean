import Nise.Utilities.FramedController

/-!
# The simple controller

The master of a job that is not stepped: it sends `InitCase` when all models have started, and
`EndRun` when the first engagement ends.
-/

namespace Nise.Utilities

structure SimpleController where
  startTimer : Bool
  endGame : Bool
  poweredDown : UInt32 → Bool

namespace SimpleController

/-- After `init`, which schedules the startup timer. -/
def init : SimpleController := ⟨true, false, fun _ => false⟩

variable (controller : SimpleController)

def startsimAction (peersStarted : Bool) : SimpleController × List Output :=
  if peersStarted then (controller, [.logEventChannelStatus, .initCase])
  else ({ controller with startTimer := true }, [.schedule .startup])

def handleTimeout (peersStarted : Bool) : SimpleController × List Output :=
  { controller with startTimer := false }.startsimAction peersStarted

def doEndEngagement : SimpleController × List Output :=
  (controller, [.dispatcherCommand, .endRun])

def doEndRunComplete (modelId : UInt32) (peers : List UInt32) (peerId : UInt32) :
    SimpleController × List Output :=
  let controller := { controller with
    endGame := true
    poweredDown := powerDown modelId peers controller.poweredDown peerId }
  (controller,
    if shutMeDown modelId peers controller.poweredDown then [.stopSimulation] else [])

end SimpleController

end Nise.Utilities
