import Nise.Dispatcherd.PubSubDispatch
import Nise.Peer.DataGate

/-!
# The flags of a status request

A command channel asks a model for its status.  The flags of the request say where the status
is logged and whether it is sent back.  They pass from the dispatcher to the model and from
there, with the status, to the dispatcher again.  The model and the dispatcher both test them
in sixteen bits, and all three are higher bits.
-/

namespace Nise.StatusFlags

open Nise.Ace Nise.Core Nise.Dispatcherd Nise.Peer Nise.Lib

/-! ## The pieces of code the flags pass through -/

/-- The header of a control message to a model, for the command channel with the handle. -/
def sendCtrlMsgToModel (mdl : UInt32) (type : SimMsgType) (flag handle : UInt32) :
    SamsonHeader :=
  ⟨0, 0, 0, handle, 0, 0, flag ||| SimMsgFlag.p2p, type, mdl, 0, 0⟩

/-- The status response is written to the log of the dispatcher. -/
def statusLogged (data : Option MessageBlock) (sh : SamsonHeader) : Bool :=
  match data with
  | some event =>
      let flags := sh.bitFlags.toUInt16.toUInt32
      0 < event.length && flags &&& SimMsgFlag.statusLogDispatcherd != 0
  | none => false

/-- The status responses among the messages of the model. -/
def responses (deeds : List Deed) : List (Option MessageBlock × SamsonHeader) :=
  deeds.filterMap fun deed =>
    match deed with
    | .publish data header => if header.type = .okStatusResponse then some (data, header) else none
    | _ => none

section Request

variable {App Queue : Type} {less : SamsonEvent → SamsonEvent → Prop}
  (application : AppBase App) (context : PeerContext)
  (ops : PriorityQueue Queue SamsonEvent less) (mgr : SharedAppMgr App Queue)
  (dispatcher : Dispatcher) (mdl handle f : UInt32)

/-- A request as it reaches the model. -/
def request : SamsonHeader := (sendCtrlMsgToModel mdl .statusRequest f handle).setDispatched 1

/-- What a model does with a request. -/
def answer : List Deed :=
  ({ mgr with deeds := [] }.handleEvent application context ops
    ⟨none, request mdl handle f⟩).deeds

/-- The flags of a request do what they say, in the model and in the dispatcher. -/
structure Survive : Prop where
  responds : responses (answer application context ops mgr mdl handle f) ≠ [] ↔
    f &&& SimMsgFlag.statusLogDispatcherd ≠ 0 ∨ f &&& SimMsgFlag.statusLogSender ≠ 0
  carries : ∀ response ∈ responses (answer application context ops mgr mdl handle f),
    response.2.bitFlags &&& SimMsgFlag.statusLogDispatcherd =
        f &&& SimMsgFlag.statusLogDispatcherd ∧
      response.2.bitFlags &&& SimMsgFlag.statusLogSender = f &&& SimMsgFlag.statusLogSender
  logsLocally : f &&& SimMsgFlag.statusLogLocal ≠ 0 →
    ∃ text, Deed.logStatus text ∈ answer application context ops mgr mdl handle f
  dispatcherLogs : (∃ response ∈ responses (answer application context ops mgr mdl handle f),
    statusLogged response.1 response.2) ↔ f &&& SimMsgFlag.statusLogDispatcherd ≠ 0
  relays : (∃ response ∈ responses (answer application context ops mgr mdl handle f),
    ∃ event, Action.cmdStatus handle event ∈ (dispatcher.process response.1 response.2).1) ↔
      f &&& SimMsgFlag.statusLogSender ≠ 0

end Request

/-! ## Sixteen bits -/

/-- A word of sixteen bits has none of the higher ones. -/
theorem and_twoPow_eq_zero (flags : UInt16) {flag : UInt32} {bit : Nat}
    (single : flag.toNat = 2 ^ bit) (high : 16 ≤ bit) : flags.toUInt32 &&& flag = 0 := by
  apply UInt32.toNat_inj.mp
  rw [UInt32.toNat_and, single]
  apply Nat.eq_of_testBit_eq
  intro position
  have low : flags.toUInt32.toNat < 2 ^ bit :=
    calc flags.toUInt32.toNat = flags.toNat := UInt16.toNat_toUInt32 flags
      _ < 2 ^ 16 := flags.toNat_lt
      _ ≤ 2 ^ bit := Nat.pow_le_pow_right (by omega) high
  rw [Nat.testBit_and, Nat.testBit_two_pow]
  by_cases same : bit = position
  · rw [← same, Nat.testBit_lt_two_pow low]
    simp
  · simp [same]

theorem bitEnabled_high (flags : UInt16) {flag : UInt32} (bit : Nat)
    (single : flag.toNat = 2 ^ bit) (high : 16 ≤ bit) :
    SharedAppMgr.bitEnabled flags flag = false := by
  unfold SharedAppMgr.bitEnabled
  rw [and_twoPow_eq_zero flags single high]
  rfl

theorem bitEnabled_statusLogLocal (flags : UInt16) :
    SharedAppMgr.bitEnabled flags SimMsgFlag.statusLogLocal = false :=
  bitEnabled_high flags 20 rfl (by omega)

theorem bitEnabled_statusLogDispatcherd (flags : UInt16) :
    SharedAppMgr.bitEnabled flags SimMsgFlag.statusLogDispatcherd = false :=
  bitEnabled_high flags 21 rfl (by omega)

theorem bitEnabled_statusLogSender (flags : UInt16) :
    SharedAppMgr.bitEnabled flags SimMsgFlag.statusLogSender = false :=
  bitEnabled_high flags 22 rfl (by omega)

section Request

variable {App Queue : Type} {less : SamsonEvent → SamsonEvent → Prop}
  (application : AppBase App) (context : PeerContext)
  (ops : PriorityQueue Queue SamsonEvent less) (mgr : SharedAppMgr App Queue)
  (dispatcher : Dispatcher) (mdl handle f : UInt32)

/-- The model never sees one of the flags: it logs its status if it is debugged, and sends
nothing. -/
theorem answer_eq : ∃ text, answer application context ops mgr mdl handle f =
    if context.appmgrDebug then [.logStatus text] else [] := by
  refine ⟨({ mgr with deeds := [] }.logReceived (request mdl handle f)).myStatus
    application context, ?_⟩
  simp only [answer, SharedAppMgr.handleEvent, request, sendCtrlMsgToModel,
    SamsonHeader.setDispatched_type, SharedAppMgr.statusRequest, bitEnabled_statusLogLocal,
    bitEnabled_statusLogDispatcherd, bitEnabled_statusLogSender, Bool.false_or,
    Bool.false_eq_true, if_false]
  split
  · rfl
  · rfl

theorem responses_answer : responses (answer application context ops mgr mdl handle f) = [] := by
  obtain ⟨text, same⟩ := answer_eq application context ops mgr mdl handle f
  rw [same]
  split <;> rfl

/--
The flags of a status request survive exactly if none of those that concern the dispatcher is
set, and the one for the local log is set only in a model that is debugged, which logs its
status in any case.
-/
theorem survive_iff :
    Survive application context ops mgr dispatcher mdl handle f ↔
      f &&& SimMsgFlag.statusLogDispatcherd = 0 ∧ f &&& SimMsgFlag.statusLogSender = 0 ∧
        (f &&& SimMsgFlag.statusLogLocal = 0 ∨ context.appmgrDebug = true) := by
  have silent := responses_answer application context ops mgr mdl handle f
  obtain ⟨text, logged⟩ := answer_eq application context ops mgr mdl handle f
  constructor
  · intro survive
    have responds := survive.responds
    have logs := survive.logsLocally
    simp only [silent, ne_eq, not_true_eq_false, false_iff, not_or, not_not] at responds
    rw [logged] at logs
    refine ⟨responds.1, responds.2, ?_⟩
    by_cases debugged : context.appmgrDebug = true
    · exact .inr debugged
    · refine .inl (by_contra fun asked => ?_)
      obtain ⟨_, member⟩ := logs asked
      rw [if_neg debugged] at member
      cases member
  · rintro ⟨dispatcherd, sender, locally⟩
    refine ⟨?_, ?_, ?_, ?_, ?_⟩
    · simp [silent, dispatcherd, sender]
    · simp [silent]
    · intro asked
      rw [logged, if_pos (locally.resolve_left asked)]
      exact ⟨text, List.mem_singleton_self _⟩
    · simp [silent, dispatcherd]
    · simp [silent, sender]

end Request

/-- A dispatcher that knows nobody. -/
def idleDispatcher : Dispatcher where
  nodeId := 1
  d2mTable := .empty
  d2dTable := .empty
  connectionTable _ := none
  isTransmitHandler _ := false
  getAllSubscribers _ _ _ := ([], [])
  getOtherDispatchers := []
  getJobMaster _ := none
  getPeerRoute _ _ := []

/-- A command channel asks for the status of model 7 to be sent back, and gets nothing. -/
theorem not_survive_statusLogSender :
    ¬ Survive Framed.application Framed.context (SortedList.ops Framed.Less)
      (SharedAppMgr.init (SortedList.ops Framed.Less) false) idleDispatcher 7 12 0x00400000 := by
  intro survive
  have answered := survive.responds.mpr (.inr (by decide))
  exact answered (responses_answer ..)

end Nise.StatusFlags
