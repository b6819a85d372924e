import Nise.Lib.Run
import Nise.Lib.PriorityQueue
import Nise.Ace.Sock
import Nise.Core.SamsonHeader

/-!
# The application manager of a model process

`SharedAppMgr::handle_event` answers some messages itself and hands the others off to the
loaded application.  A data message that comes while the application is not ready is kept
in a priority queue, which is emptied as soon as an event leaves the application ready.  The
application is a parameter with a state of its own; the order of queued events is one too.
-/

namespace Nise.Peer

open Nise.Ace Nise.Core Nise.Lib

structure SamsonEvent where
  mb : Option MessageBlock
  sh : SamsonHeader
  deriving DecidableEq, Repr

/-- The loaded application: its answers, and what calling it does to it. -/
structure AppBase (App : Type) where
  dataReady : App → Bool
  closeSimulation : App → App
  helloResponse : App → App
  info : App → List UInt8
  /-- There is a message object in `map_` for the application's message id. -/
  registered : App → UInt16 → Bool
  handleEvent : App → SamsonEvent → App

/-- What the object manager, the debug flags and the header class say in this process. -/
structure PeerContext where
  runId : UInt32
  modelId : UInt32
  unitId : UInt16
  appmgrDebug : Bool
  crc32 : List UInt8 → UInt32
  report : SamsonHeader → List UInt8
  extendedStatus : List UInt8

/-- What the manager does, in order.  A handoff is recorded with the answer of `data_ready`
and the contents of the queue at that moment. -/
inductive Deed where
  | handoff (event : SamsonEvent) (ready : Bool) (queued : Multiset SamsonEvent)
  | free (event : SamsonEvent)
  | publish (data : Option MessageBlock) (header : SamsonHeader)
  | logStatus (text : List UInt8)
  deriving DecidableEq

structure SharedAppMgr (App Queue : Type) where
  app : App
  q : Queue
  sendCb : List SamsonHeader
  recvCb : List SamsonHeader
  deeds : List Deed

/-- The last headers are kept for the status report. -/
def remember (sh : SamsonHeader) (cb : List SamsonHeader) : List SamsonHeader :=
  if 10 < (sh :: cb).length then (sh :: cb).dropLast else sh :: cb

namespace SharedAppMgr

variable {App Queue : Type} {less : SamsonEvent → SamsonEvent → Prop}
  (application : AppBase App) (context : PeerContext)
  (ops : PriorityQueue Queue SamsonEvent less) (mgr : SharedAppMgr App Queue)

def init (app : App) : SharedAppMgr App Queue := ⟨app, ops.empty, [], [], []⟩

/-! ## Sending -/

def publish (data : Option MessageBlock) (sh : SamsonHeader) : SharedAppMgr App Queue :=
  let sh := { sh with
    crc32 :=
      match data with
      | some block => if 0 < block.length then context.crc32 block.data else 0
      | none => 0 }
  { mgr with
    sendCb := remember sh mgr.sendCb
    deeds := mgr.deeds ++ [.publish data sh] }

def sendCtrlMsg (type : SimMsgType) (flag : UInt16) : SharedAppMgr App Queue :=
  mgr.publish context none
    ⟨0, context.runId, context.modelId, 0, 0, context.unitId, flag.toUInt32, type, 0, 0, 0⟩

def sendMsg (type : SimMsgType) (msg : List UInt8) (flag : UInt32) (id : UInt32) :
    SharedAppMgr App Queue :=
  mgr.publish context (some ⟨msg.length, msg⟩)
    ⟨0, context.runId, context.modelId, id, 0, context.unitId, flag, type, 0, 0,
      .ofNat msg.length⟩

/-! ## Status requests -/

def printList (mark : List UInt8) (cb : List SamsonHeader) : List UInt8 :=
  cb.flatMap fun sh => mark ++ context.report sh ++ [10]

/-- The text of the status, with `">> "` and `"<< "` before the headers sent and received. -/
def myStatus : List UInt8 :=
  application.info mgr.app ++ [10] ++ printList context [62, 62, 32] mgr.sendCb ++ [10] ++
    printList context [60, 60, 32] mgr.recvCb ++ context.extendedStatus

/-- `ACE_BIT_ENABLED` on a flag word that is kept in sixteen bits. -/
def bitEnabled (flags : UInt16) (flag : UInt32) : Bool := flags.toUInt32 &&& flag ≠ 0

def statusRequest (sh : SamsonHeader) : SharedAppMgr App Queue :=
  let status := mgr.myStatus application context
  let flags := sh.bitFlags.toUInt16
  let mgr :=
    if bitEnabled flags SimMsgFlag.statusLogLocal || context.appmgrDebug then
      { mgr with deeds := mgr.deeds ++ [.logStatus status] }
    else mgr
  if bitEnabled flags SimMsgFlag.statusLogDispatcherd ||
      bitEnabled flags SimMsgFlag.statusLogSender then
    let oflag := SimMsgFlag.nowhere.toUInt16
    let oflag :=
      if bitEnabled flags SimMsgFlag.statusLogDispatcherd then
        (oflag.toUInt32 ||| SimMsgFlag.statusLogDispatcherd).toUInt16
      else oflag
    let oflag :=
      if bitEnabled flags SimMsgFlag.statusLogSender then
        (oflag.toUInt32 ||| SimMsgFlag.statusLogSender).toUInt16
      else oflag
    mgr.sendMsg context .okStatusResponse status oflag.toUInt32 sh.messageId
  else mgr

/-! ## Handing off -/

/-- The application after it has been given an event, if it has a message object for it. -/
def handoffApp (app : App) (event : SamsonEvent) : App :=
  if application.registered app event.sh.appMsgId then application.handleEvent app event
  else app

def handoffEvent (event : SamsonEvent) : SharedAppMgr App Queue :=
  { mgr with
    app := handoffApp application mgr.app event
    deeds := mgr.deeds ++
      [.handoff event (application.dataReady mgr.app) (ops.elements mgr.q)] }

/-- Data messages can be queued, all others must be processed. -/
def handoffOrQueue (event : SamsonEvent) : SharedAppMgr App Queue :=
  if event.sh.type ≠ .data ∨
      (event.sh.type = .data ∧ event.sh.enabled SimMsgFlag.control) ∨
      (event.sh.type = .data ∧ application.dataReady mgr.app) then
    mgr.handoffEvent application ops event
  else { mgr with q := ops.push mgr.q event }

/-- One pass of the loop: the top of the queue is handed off, freed and popped. -/
def handoffTop (event : SamsonEvent) : SharedAppMgr App Queue :=
  let mgr := mgr.handoffEvent application ops event
  { mgr with
    q := ops.pop mgr.q
    deeds := mgr.deeds ++ [.free event] }

def drainLoop : Nat → SharedAppMgr App Queue → SharedAppMgr App Queue
  | 0, mgr => mgr
  | count + 1, mgr =>
      match ops.top? mgr.q with
      | none => mgr
      | some event => drainLoop count (mgr.handoffTop application ops event)

/-- The loop ends when the queue is empty, which takes as many passes as it has events. -/
def drain : SharedAppMgr App Queue := drainLoop application ops (ops.size mgr.q) mgr

/-- A non-data message can open the gate, too. -/
def drainIfReady : SharedAppMgr App Queue :=
  if (ops.top? mgr.q).isSome ∧ application.dataReady mgr.app then mgr.drain application ops
  else mgr

/-- The last events are stored for debug purposes. -/
def logReceived (sh : SamsonHeader) : SharedAppMgr App Queue :=
  { mgr with recvCb := remember sh mgr.recvCb }

def handleEvent (event : SamsonEvent) : SharedAppMgr App Queue :=
  let mgr := mgr.logReceived event.sh
  match event.sh.type with
  | .goodbyeRequest => { mgr with app := application.closeSimulation mgr.app }
  | .hello =>
      let mgr := mgr.sendCtrlMsg context .hello 0
      { mgr with app := application.helloResponse mgr.app }
  | .statusRequest => mgr.statusRequest application context event.sh
  | _ => (mgr.handoffOrQueue application ops event).drainIfReady application ops

end SharedAppMgr

/-- All sequences of events. -/
def eventRuns {App Queue : Type} {less : SamsonEvent → SamsonEvent → Prop}
    (application : AppBase App) (context : PeerContext)
    (ops : PriorityQueue Queue SamsonEvent less) :
    System (SharedAppMgr App Queue) SamsonEvent where
  step mgr event := mgr.handleEvent application context ops event
  guard _ _ := True

namespace SharedAppMgr

variable {App Queue : Type} {less : SamsonEvent → SamsonEvent → Prop}
  {application : AppBase App} {context : PeerContext}
  {ops : PriorityQueue Queue SamsonEvent less} {mgr : SharedAppMgr App Queue}

/-! ## The loop -/

theorem drain_of_none (top : ops.top? mgr.q = none) : mgr.drain application ops = mgr := by
  unfold drain
  rw [ops.size_of_none top]
  rfl

theorem drain_of_some {event : SamsonEvent} (top : ops.top? mgr.q = some event) :
    mgr.drain application ops =
      (mgr.handoffTop application ops event).drain application ops := by
  unfold drain
  rw [ops.size_pop top]
  simp only [drainLoop, top]
  rfl

/-- What holds when the queue is empty and is carried back over one pass holds of the whole
loop. -/
theorem drain_induction (application : AppBase App)
    (ops : PriorityQueue Queue SamsonEvent less) {motive : SharedAppMgr App Queue → Prop}
    (done : ∀ mgr, ops.top? mgr.q = none → motive mgr)
    (pass : ∀ mgr event, ops.top? mgr.q = some event →
      motive (mgr.handoffTop application ops event) → motive mgr)
    (mgr : SharedAppMgr App Queue) : motive mgr := by
  refine ops.induction (motive := fun queue => ∀ mgr : SharedAppMgr App Queue,
    mgr.q = queue → motive mgr) ?_ ?_ mgr.q mgr rfl
  · rintro queue top mgr rfl
    exact done mgr top
  · rintro queue event top later mgr rfl
    exact pass mgr event top (later _ rfl)

theorem top?_drain : ops.top? (mgr.drain application ops).q = none := by
  induction mgr using drain_induction application ops with
  | done mgr top => rwa [drain_of_none top]
  | pass mgr event top later => rwa [drain_of_some top]

/-! ## What kind of event it is -/

/-- The events that are handed off or queued. -/
def Dispatchable (event : SamsonEvent) : Prop :=
  event.sh.type ≠ .goodbyeRequest ∧ event.sh.type ≠ .hello ∧ event.sh.type ≠ .statusRequest

instance : DecidablePred Dispatchable := fun event =>
  inferInstanceAs (Decidable (event.sh.type ≠ .goodbyeRequest ∧ event.sh.type ≠ .hello ∧
    event.sh.type ≠ .statusRequest))

/-- A data message without the control flag. -/
def Gatable (event : SamsonEvent) : Prop :=
  event.sh.type = .data ∧ event.sh.enabled SimMsgFlag.control = false

instance : DecidablePred Gatable := fun event =>
  inferInstanceAs (Decidable (event.sh.type = .data ∧
    event.sh.enabled SimMsgFlag.control = false))

theorem handoffOrQueue_of_gated {event : SamsonEvent} (gatable : Gatable event)
    (closed : application.dataReady mgr.app = false) :
    mgr.handoffOrQueue application ops event = { mgr with q := ops.push mgr.q event } := by
  unfold handoffOrQueue
  rw [if_neg]
  simp [gatable.1, gatable.2, closed]

theorem handoffOrQueue_of_open {event : SamsonEvent}
    (through : Gatable event → application.dataReady mgr.app = true) :
    mgr.handoffOrQueue application ops event = mgr.handoffEvent application ops event := by
  unfold handoffOrQueue
  rw [if_pos]
  by_cases data : event.sh.type = .data
  · cases control : event.sh.enabled SimMsgFlag.control with
    | true => exact .inr (.inl ⟨data, rfl⟩)
    | false => exact .inr (.inr ⟨data, through ⟨data, control⟩⟩)
  · exact .inl data

end SharedAppMgr

end Nise.Peer
