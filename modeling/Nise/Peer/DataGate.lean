import Mathlib.Algebra.Order.Group.Multiset
import Mathlib.Data.List.Induction
import Nise.Peer.SharedAppMgr

/-!
# The data gate of the application manager

What the manager has been given, what it has handed off and what it still queues are
compared over whole runs, for every application and every order of priority.  An event is
handed off exactly once or is still queued, and queued data is not overtaken.  The gate
itself is tested only once for a whole queue.
-/

namespace Nise.Peer

open Nise.Ace Nise.Core Nise.Lib

/-! ## Accounts -/

def Deed.handedOff? : Deed → Option SamsonEvent
  | .handoff event _ _ => some event
  | _ => none

def Deed.freed? : Deed → Option SamsonEvent
  | .free event => some event
  | _ => none

/-- The events handed off. -/
def handedOff (deeds : List Deed) : Multiset SamsonEvent := deeds.filterMap Deed.handedOff?

/-- The events whose header and block have been freed. -/
def freed (deeds : List Deed) : Multiset SamsonEvent := deeds.filterMap Deed.freed?

@[simp] theorem handedOff_append (first second : List Deed) :
    handedOff (first ++ second) = handedOff first + handedOff second := by
  simp [handedOff]

@[simp] theorem freed_append (first second : List Deed) :
    freed (first ++ second) = freed first + freed second := by
  simp [freed]

section Single

variable (event : SamsonEvent) (ready : Bool) (queued : Multiset SamsonEvent)
  (data : Option MessageBlock) (header : SamsonHeader) (text : List UInt8)

@[simp] theorem handedOff_handoff : handedOff [.handoff event ready queued] = {event} := rfl

@[simp] theorem handedOff_free : handedOff [.free event] = 0 := rfl

@[simp] theorem handedOff_publish : handedOff [.publish data header] = 0 := rfl

@[simp] theorem handedOff_logStatus : handedOff [.logStatus text] = 0 := rfl

@[simp] theorem freed_handoff : freed [.handoff event ready queued] = 0 := rfl

@[simp] theorem freed_free : freed [.free event] = {event} := rfl

@[simp] theorem freed_publish : freed [.publish data header] = 0 := rfl

@[simp] theorem freed_logStatus : freed [.logStatus text] = 0 := rfl

end Single

/-- At every moment, what has been freed had been handed off before. -/
def FreedAfterHandoff (deeds : List Deed) : Prop :=
  ∀ before, before <+: deeds → freed before ≤ handedOff before

theorem FreedAfterHandoff.nil : FreedAfterHandoff [] := by
  intro before earlier
  rw [List.prefix_nil.mp earlier]
  exact le_refl _

theorem FreedAfterHandoff.concat {deeds : List Deed} {deed : Deed}
    (already : FreedAfterHandoff deeds)
    (now : freed (deeds ++ [deed]) ≤ handedOff (deeds ++ [deed])) :
    FreedAfterHandoff (deeds ++ [deed]) := by
  intro before earlier
  rcases List.prefix_concat_iff.mp earlier with rfl | shorter
  · exact now
  · exact already before shorter

theorem FreedAfterHandoff.concat_other {deeds : List Deed} {deed : Deed}
    (already : FreedAfterHandoff deeds) (other : deed.freed? = none) :
    FreedAfterHandoff (deeds ++ [deed]) := by
  refine already.concat ?_
  have none : freed [deed] = 0 := by simp [freed, other]
  rw [freed_append, handedOff_append, none, add_zero]
  exact (already deeds (List.prefix_refl deeds)).trans (Multiset.le_add_right _ _)

/-- An event is handed off and then freed. -/
theorem FreedAfterHandoff.concat_handoff_free {deeds : List Deed} {event : SamsonEvent}
    {ready : Bool} {queued : Multiset SamsonEvent} (already : FreedAfterHandoff deeds) :
    FreedAfterHandoff (deeds ++ [.handoff event ready queued] ++ [.free event]) := by
  refine (already.concat_other rfl).concat ?_
  rw [freed_append, freed_append, handedOff_append, handedOff_append]
  simpa using already deeds (List.prefix_refl deeds)

namespace SharedAppMgr

variable {App Queue : Type} {less : SamsonEvent → SamsonEvent → Prop}
  {application : AppBase App} {context : PeerContext}
  {ops : PriorityQueue Queue SamsonEvent less} {mgr : SharedAppMgr App Queue}
  {event : SamsonEvent}

/-! ## What one event does -/

/-- The branches of `handle_event` that hand nothing off: the queue is as before, and what
is done is neither a handoff nor a free. -/
structure Aside (before after : SharedAppMgr App Queue) : Prop where
  q : after.q = before.q
  deeds : ∃ more, after.deeds = before.deeds ++ more ∧
    ∀ deed ∈ more, deed.handedOff? = none ∧ deed.freed? = none

theorem Aside.refl (mgr : SharedAppMgr App Queue) : Aside mgr mgr :=
  ⟨rfl, [], by simp, by simp⟩

theorem Aside.trans {first second third : SharedAppMgr App Queue} (one : Aside first second)
    (two : Aside second third) : Aside first third := by
  obtain ⟨more, extended, others⟩ := one.deeds
  obtain ⟨further, extended', others'⟩ := two.deeds
  refine ⟨two.q.trans one.q, more ++ further, ?_, ?_⟩
  · rw [extended', extended, List.append_assoc]
  · intro deed member
    rcases List.mem_append.mp member with here | there
    · exact others deed here
    · exact others' deed there

theorem aside_logReceived (sh : SamsonHeader) : Aside mgr (mgr.logReceived sh) :=
  ⟨rfl, [], (List.append_nil _).symm, by simp⟩

theorem aside_publish (data : Option MessageBlock) (sh : SamsonHeader) :
    Aside mgr (mgr.publish context data sh) :=
  ⟨rfl, _, rfl, by simp [Deed.handedOff?, Deed.freed?]⟩

theorem aside_statusRequest (sh : SamsonHeader) :
    Aside mgr (mgr.statusRequest application context sh) := by
  unfold statusRequest
  dsimp only
  have logged : Aside mgr
      (if bitEnabled sh.bitFlags.toUInt16 SimMsgFlag.statusLogLocal || context.appmgrDebug then
        { mgr with deeds := mgr.deeds ++ [.logStatus (mgr.myStatus application context)] }
      else mgr) := by
    split
    · exact ⟨rfl, _, rfl, by simp [Deed.handedOff?, Deed.freed?]⟩
    · exact Aside.refl mgr
  split
  · exact logged.trans (aside_publish _ _)
  · exact logged

@[simp] theorem app_statusRequest (sh : SamsonHeader) :
    (mgr.statusRequest application context sh).app = mgr.app := by
  unfold statusRequest sendMsg publish
  dsimp only
  split <;> split <;> rfl

/-- An event is answered aside, or it is handed off or queued before the queue is looked
at. -/
theorem handleEvent_cases (application : AppBase App) (context : PeerContext)
    (ops : PriorityQueue Queue SamsonEvent less) (mgr : SharedAppMgr App Queue)
    (event : SamsonEvent) :
    (¬ Dispatchable event ∧ Aside mgr (mgr.handleEvent application context ops event) ∧
        (mgr.handleEvent application context ops event).app ∈
          [application.closeSimulation mgr.app, application.helloResponse mgr.app, mgr.app]) ∨
      (Dispatchable event ∧ mgr.handleEvent application context ops event =
        ((mgr.logReceived event.sh).handoffOrQueue application ops event).drainIfReady
          application ops) := by
  have logged : Aside mgr (mgr.logReceived event.sh) := aside_logReceived event.sh
  unfold handleEvent Dispatchable
  dsimp only
  split
  · next type => exact .inl ⟨by simp [type], ⟨logged.q, logged.deeds⟩, by simp [logReceived]⟩
  · next type =>
      have sent : Aside mgr ((mgr.logReceived event.sh).sendCtrlMsg context .hello 0) :=
        logged.trans (aside_publish _ _)
      exact .inl ⟨by simp [type], ⟨sent.q, sent.deeds⟩,
        by simp [logReceived, sendCtrlMsg, publish]⟩
  · next type =>
      exact .inl ⟨by simp [type], logged.trans (aside_statusRequest event.sh),
        by simp [logReceived]⟩
  · next goodbye hello status => exact .inr ⟨⟨goodbye, hello, status⟩, rfl⟩

theorem handoffOrQueue_logReceived (sh : SamsonHeader) :
    (mgr.logReceived sh).handoffOrQueue application ops event =
      (mgr.handoffOrQueue application ops event).logReceived sh := by
  unfold handoffOrQueue logReceived handoffEvent
  dsimp only
  split <;> rfl

/-! ## Exactly once, or still queued -/

/-- The events handed off and those still queued. -/
def accounted (ops : PriorityQueue Queue SamsonEvent less) (mgr : SharedAppMgr App Queue) :
    Multiset SamsonEvent := handedOff mgr.deeds + ops.elements mgr.q

theorem Aside.accounted_eq {before after : SharedAppMgr App Queue} (aside : Aside before after) :
    accounted ops after = accounted ops before := by
  obtain ⟨more, extended, others⟩ := aside.deeds
  have nothing : handedOff more = 0 := by
    unfold handedOff
    rw [List.filterMap_eq_nil_iff.mpr fun deed member => (others deed member).1]
    rfl
  unfold accounted
  rw [aside.q, extended, handedOff_append, nothing, add_zero]

theorem Aside.freedAfterHandoff {before after : SharedAppMgr App Queue}
    (aside : Aside before after) (already : FreedAfterHandoff before.deeds) :
    FreedAfterHandoff after.deeds := by
  obtain ⟨more, extended, others⟩ := aside.deeds
  rw [extended]
  clear extended aside
  induction more using List.reverseRecOn with
  | nil => rwa [List.append_nil]
  | append_singleton more deed ih =>
      have earlier := ih fun deed member => others deed (List.mem_append_left _ member)
      rw [← List.append_assoc]
      exact earlier.concat_other (others deed (by simp)).2

theorem accounted_handoffEvent :
    accounted ops (mgr.handoffEvent application ops event) = event ::ₘ accounted ops mgr := by
  simp only [accounted, handoffEvent, handedOff_append, handedOff_handoff]
  rw [add_right_comm, add_comm, Multiset.singleton_add]

theorem accounted_handoffOrQueue :
    accounted ops (mgr.handoffOrQueue application ops event) = event ::ₘ accounted ops mgr := by
  unfold handoffOrQueue
  split
  · exact accounted_handoffEvent
  · simp only [accounted, ops.elements_push, Multiset.add_cons]

theorem accounted_handoffTop (top : ops.top? mgr.q = some event) :
    accounted ops (mgr.handoffTop application ops event) = accounted ops mgr := by
  simp only [accounted, handoffTop, handoffEvent, handedOff_append, handedOff_handoff,
    handedOff_free, add_zero]
  rw [ops.elements_pop mgr.q event top, add_assoc, Multiset.singleton_add]

theorem accounted_drain : accounted ops (mgr.drain application ops) = accounted ops mgr := by
  induction mgr using drain_induction application ops with
  | done mgr top => rw [drain_of_none top]
  | pass mgr event top later => rw [drain_of_some top, later, accounted_handoffTop top]

theorem accounted_drainIfReady :
    accounted ops (mgr.drainIfReady application ops) = accounted ops mgr := by
  unfold drainIfReady
  split
  · exact accounted_drain
  · rfl

theorem accounted_handleEvent :
    accounted ops (mgr.handleEvent application context ops event) =
      if Dispatchable event then event ::ₘ accounted ops mgr else accounted ops mgr := by
  rcases handleEvent_cases application context ops mgr event with
    ⟨other, aside, -⟩ | ⟨dispatchable, same⟩
  · rw [if_neg other, aside.accounted_eq]
  · rw [if_pos dispatchable, same, accounted_drainIfReady, accounted_handoffOrQueue,
      (aside_logReceived event.sh).accounted_eq]

theorem freedAfterHandoff_drain (already : FreedAfterHandoff mgr.deeds) :
    FreedAfterHandoff (mgr.drain application ops).deeds := by
  induction mgr using drain_induction application ops with
  | done mgr top => rwa [drain_of_none top]
  | pass mgr event top later =>
      rw [drain_of_some top]
      exact later already.concat_handoff_free

theorem freedAfterHandoff_handleEvent (already : FreedAfterHandoff mgr.deeds) :
    FreedAfterHandoff (mgr.handleEvent application context ops event).deeds := by
  rcases handleEvent_cases application context ops mgr event with
    ⟨-, aside, -⟩ | ⟨-, same⟩
  · exact aside.freedAfterHandoff already
  · have arrived : FreedAfterHandoff
        ((mgr.logReceived event.sh).handoffOrQueue application ops event).deeds := by
      unfold handoffOrQueue
      split
      · exact already.concat_other rfl
      · exact already
    rw [same]
    unfold drainIfReady
    split
    · exact freedAfterHandoff_drain arrived
    · exact arrived

theorem accounted_exec (application : AppBase App) (context : PeerContext)
    (ops : PriorityQueue Queue SamsonEvent less) (events : List SamsonEvent)
    (mgr : SharedAppMgr App Queue) :
    accounted ops ((eventRuns application context ops).exec mgr events) =
      ↑(events.filter fun event => decide (Dispatchable event)) + accounted ops mgr := by
  induction events generalizing mgr with
  | nil => simp
  | cons event rest ih =>
      rw [System.exec_cons, ih]
      change _ + accounted ops (mgr.handleEvent application context ops event) = _
      rw [accounted_handleEvent, List.filter_cons]
      by_cases dispatchable : Dispatchable event
      · simp [dispatchable, ← Multiset.cons_coe]
      · simp [dispatchable]

/-- All sequences of events are possible. -/
theorem admits_eventRuns (events : List SamsonEvent) (mgr : SharedAppMgr App Queue) :
    (eventRuns application context ops).Admits mgr events :=
  System.admits_of_unguarded _ (fun _ _ => trivial) mgr events

/--
Whatever the application does, after every sequence of events each event that is neither a
goodbye request, a hello nor a status request has been handed off exactly once or is still
queued, and what was freed had been handed off before.
-/
theorem events_accounted (application : AppBase App) (context : PeerContext)
    (ops : PriorityQueue Queue SamsonEvent less) (app : App) (events : List SamsonEvent) :
    (↑(events.filter fun event => decide (Dispatchable event)) : Multiset SamsonEvent) =
        handedOff ((eventRuns application context ops).exec (init ops app) events).deeds +
          ops.elements ((eventRuns application context ops).exec (init ops app) events).q ∧
      FreedAfterHandoff
        ((eventRuns application context ops).exec (init ops app) events).deeds := by
  constructor
  · have accounts := accounted_exec application context ops events (init ops app)
    have nothing : accounted ops (init ops app) = 0 := by
      simp [accounted, init, handedOff, ops.elements_empty]
    rw [nothing, add_zero] at accounts
    exact accounts.symm
  · have kept : ∀ (mgr : SharedAppMgr App Queue) (event : SamsonEvent),
        FreedAfterHandoff mgr.deeds → (eventRuns application context ops).guard mgr event →
        FreedAfterHandoff ((eventRuns application context ops).step mgr event).deeds :=
      fun _ _ already _ => freedAfterHandoff_handleEvent already
    exact System.invariant _ kept FreedAfterHandoff.nil (admits_eventRuns events (init ops app))

/-! ## Every handoff -/

/-- A property of every handoff, with the answer of `data_ready` and the queue at that
moment. -/
def EveryHandoff (property : SamsonEvent → Bool → Multiset SamsonEvent → Prop)
    (deeds : List Deed) : Prop :=
  ∀ event ready queued, Deed.handoff event ready queued ∈ deeds → property event ready queued

section EveryHandoff

variable {property : SamsonEvent → Bool → Multiset SamsonEvent → Prop} {deeds : List Deed}

theorem everyHandoff_concat_handoff {ready : Bool} {queued : Multiset SamsonEvent} :
    EveryHandoff property (deeds ++ [.handoff event ready queued]) ↔
      EveryHandoff property deeds ∧ property event ready queued := by
  unfold EveryHandoff
  constructor
  · intro every
    exact ⟨fun other ready queued member => every other ready queued (by simp [member]),
      every event ready queued (by simp)⟩
  · rintro ⟨every, here⟩ other ready' queued' member
    rcases List.mem_append.mp member with earlier | now
    · exact every other ready' queued' earlier
    · cases List.mem_singleton.mp now
      exact here

theorem everyHandoff_concat_free :
    EveryHandoff property (deeds ++ [.free event]) ↔ EveryHandoff property deeds := by
  simp [EveryHandoff]

theorem everyHandoff_handoffTop :
    EveryHandoff property (mgr.handoffTop application ops event).deeds ↔
      EveryHandoff property mgr.deeds ∧
        property event (application.dataReady mgr.app) (ops.elements mgr.q) := by
  simp only [handoffTop, handoffEvent, everyHandoff_concat_free, everyHandoff_concat_handoff]

theorem Aside.everyHandoff_iff {before after : SharedAppMgr App Queue}
    (aside : Aside before after) :
    EveryHandoff property after.deeds ↔ EveryHandoff property before.deeds := by
  obtain ⟨more, extended, others⟩ := aside.deeds
  unfold EveryHandoff
  rw [extended]
  constructor
  · intro every other ready queued member
    exact every other ready queued (List.mem_append_left _ member)
  · intro every other ready queued member
    rcases List.mem_append.mp member with earlier | aside
    · exact every other ready queued earlier
    · cases (others _ aside).1

end EveryHandoff

/-! ## Queued data is not overtaken -/

/-- No event of higher priority was queued when a data event was handed off. -/
def NotOvertaken (less : SamsonEvent → SamsonEvent → Prop) (deeds : List Deed) : Prop :=
  EveryHandoff (fun event _ queued => Gatable event → ∀ other ∈ queued, ¬ less event other) deeds

/-- The answer of `data_ready` changes only inside handoffs. -/
structure ReadyInHandoffsOnly (application : AppBase App) : Prop where
  closeSimulation : ∀ app,
    application.dataReady (application.closeSimulation app) = application.dataReady app
  helloResponse : ∀ app,
    application.dataReady (application.helloResponse app) = application.dataReady app

/-- Between events: data is queued only while the application is not ready. -/
structure Orderly (application : AppBase App) (ops : PriorityQueue Queue SamsonEvent less)
    (mgr : SharedAppMgr App Queue) : Prop where
  gate : ops.elements mgr.q ≠ 0 → application.dataReady mgr.app = false
  ordered : NotOvertaken less mgr.deeds

theorem notOvertaken_drain (ordered : NotOvertaken less mgr.deeds) :
    NotOvertaken less (mgr.drain application ops).deeds := by
  induction mgr using drain_induction application ops with
  | done mgr top => rwa [drain_of_none top]
  | pass mgr event top later =>
      rw [drain_of_some top]
      refine later (everyHandoff_handoffTop.mpr ⟨ordered, fun _ => ?_⟩)
      exact ops.greatest mgr.q event top

/-- After the queue has been looked at, it is empty or the application is not ready. -/
theorem orderly_drainIfReady (ordered : NotOvertaken less mgr.deeds) :
    Orderly application ops (mgr.drainIfReady application ops) := by
  unfold drainIfReady
  split
  · refine ⟨fun queued => absurd ?_ queued, notOvertaken_drain ordered⟩
    exact ops.elements_eq_zero.mpr top?_drain
  · next kept =>
      refine ⟨fun queued => ?_, ordered⟩
      rw [Ne, ops.elements_eq_zero, ← Option.isNone_iff_eq_none, Bool.not_eq_true,
        Option.isNone_eq_false_iff] at queued
      simpa [queued] using kept

/-- A data event is handed off directly only if nothing is queued. -/
theorem Orderly.notOvertaken_handoffOrQueue (orderly : Orderly application ops mgr) :
    NotOvertaken less (mgr.handoffOrQueue application ops event).deeds := by
  unfold handoffOrQueue
  split
  · next through =>
      refine everyHandoff_concat_handoff.mpr ⟨orderly.ordered, fun gatable other queued => ?_⟩
      have open' : application.dataReady mgr.app = true := by
        simpa [gatable.1, gatable.2] using through
      by_contra _
      have closed := orderly.gate fun nothing => by simp [nothing] at queued
      rw [open'] at closed
      cases closed
  · exact orderly.ordered

theorem Orderly.handleEvent (handoffsOnly : ReadyInHandoffsOnly application)
    (orderly : Orderly application ops mgr) :
    Orderly application ops (mgr.handleEvent application context ops event) := by
  rcases handleEvent_cases application context ops mgr event with
    ⟨-, aside, app⟩ | ⟨-, same⟩
  · refine ⟨fun queued => ?_, aside.everyHandoff_iff.mpr orderly.ordered⟩
    rw [aside.q] at queued
    have closed := orderly.gate queued
    simp only [List.mem_cons, List.not_mem_nil, or_false] at app
    rcases app with app | app | app
    · rw [app, handoffsOnly.closeSimulation, closed]
    · rw [app, handoffsOnly.helloResponse, closed]
    · rw [app, closed]
  · rw [same]
    have logged : Orderly application ops (mgr.logReceived event.sh) :=
      ⟨orderly.gate, orderly.ordered⟩
    exact orderly_drainIfReady logged.notOvertaken_handoffOrQueue

/--
If `data_ready` changes only inside handoffs, then between events data is queued only while
the application is not ready, and no data event is handed off while one of higher priority
is queued.
-/
theorem queued_not_overtaken {application : AppBase App}
    (handoffsOnly : ReadyInHandoffsOnly application) (context : PeerContext)
    (ops : PriorityQueue Queue SamsonEvent less) (app : App) (events : List SamsonEvent) :
    Orderly application ops ((eventRuns application context ops).exec (init ops app) events) := by
  refine System.invariant _ (fun mgr event orderly _ => orderly.handleEvent handoffsOnly) ?_
    (admits_eventRuns events (init ops app))
  exact ⟨fun queued => absurd ops.elements_empty queued, fun _ _ _ member => by cases member⟩

/-! ## The gate is tested once for the whole queue -/

/-- No data event was handed off while the application was not ready. -/
def Gated (deeds : List Deed) : Prop :=
  EveryHandoff (fun event ready _ => Gatable event → ready = true) deeds

/-- No event of the list but the last closes the gate. -/
def KeepsReady (application : AppBase App) : App → List SamsonEvent → Prop
  | app, event :: next :: rest =>
      application.dataReady (handoffApp application app event) ∧
        KeepsReady application (handoffApp application app event) (next :: rest)
  | _, _ => True

instance decidableKeepsReady (application : AppBase App) :
    ∀ app events, Decidable (KeepsReady application app events)
  | _, [] => isTrue trivial
  | _, [_] => isTrue trivial
  | app, event :: next :: rest =>
      have := decidableKeepsReady application (handoffApp application app event) (next :: rest)
      inferInstanceAs (Decidable (application.dataReady (handoffApp application app event) ∧
        KeepsReady application (handoffApp application app event) (next :: rest)))

/-- If the application is ready once the event has been handed off or queued, none of the
queued events but the last closes the gate. -/
def GateKept (application : AppBase App) (ops : PriorityQueue Queue SamsonEvent less)
    (mgr : SharedAppMgr App Queue) (event : SamsonEvent) : Prop :=
  Dispatchable event →
    application.dataReady (mgr.handoffOrQueue application ops event).app →
      KeepsReady application (mgr.handoffOrQueue application ops event).app
        (ops.inOrder (mgr.handoffOrQueue application ops event).q)

instance (application : AppBase App) (ops : PriorityQueue Queue SamsonEvent less)
    (mgr : SharedAppMgr App Queue) (event : SamsonEvent) :
    Decidable (GateKept application ops mgr event) :=
  inferInstanceAs (Decidable (Dispatchable event →
    application.dataReady (mgr.handoffOrQueue application ops event).app →
      KeepsReady application (mgr.handoffOrQueue application ops event).app
        (ops.inOrder (mgr.handoffOrQueue application ops event).q)))

/-- Only data events are queued. -/
def QueuesData (ops : PriorityQueue Queue SamsonEvent less) (mgr : SharedAppMgr App Queue) :
    Prop := ∀ event ∈ ops.elements mgr.q, Gatable event

theorem keepsReady_cons {app : App} {events : List SamsonEvent} :
    KeepsReady application app (event :: events) ↔
      (events ≠ [] → application.dataReady (handoffApp application app event)) ∧
        KeepsReady application (handoffApp application app event) events := by
  cases events with
  | nil => simp [KeepsReady]
  | cons next rest => simp [KeepsReady]

/-- The loop respects the gate exactly if the application is ready when it starts, and stays
so until the last event. -/
theorem gated_drain_iff (data : QueuesData ops mgr) :
    Gated (mgr.drain application ops).deeds ↔ Gated mgr.deeds ∧
      (ops.inOrder mgr.q ≠ [] → application.dataReady mgr.app) ∧
        KeepsReady application mgr.app (ops.inOrder mgr.q) := by
  induction mgr using drain_induction application ops with
  | done mgr top => simp [drain_of_none top, ops.inOrder_of_none top, KeepsReady]
  | pass mgr event top later =>
      have among : event ∈ ops.elements mgr.q := by simp [ops.elements_pop mgr.q event top]
      have rest : QueuesData ops (mgr.handoffTop application ops event) := by
        intro other member
        refine data other ?_
        rw [ops.elements_pop mgr.q event top]
        exact Multiset.mem_cons_of_mem member
      have handed : Gated (mgr.handoffTop application ops event).deeds ↔
          Gated mgr.deeds ∧ application.dataReady mgr.app = true := by
        unfold Gated
        rw [everyHandoff_handoffTop]
        simp [data event among]
      rw [drain_of_some top, later rest, handed, ops.inOrder_of_some top, keepsReady_cons]
      change _ ∧ (ops.inOrder (ops.pop mgr.q) ≠ [] →
        application.dataReady (handoffApp application mgr.app event)) ∧
        KeepsReady application (handoffApp application mgr.app event)
          (ops.inOrder (ops.pop mgr.q)) ↔ _
      simp [and_assoc]

theorem QueuesData.handoffOrQueue (data : QueuesData ops mgr) :
    QueuesData ops (mgr.handoffOrQueue application ops event) := by
  by_cases gated : Gatable event ∧ application.dataReady mgr.app = false
  · rw [handoffOrQueue_of_gated gated.1 gated.2]
    intro other member
    rw [ops.elements_push] at member
    rcases Multiset.mem_cons.mp member with rfl | earlier
    · exact gated.1
    · exact data other earlier
  · rw [handoffOrQueue_of_open fun gatable => by simpa using not_and.mp gated gatable]
    exact data

theorem queuesData_drain : QueuesData ops (mgr.drain application ops) := by
  intro other member
  rw [ops.elements_eq_zero.mpr top?_drain] at member
  cases member

theorem QueuesData.handleEvent (data : QueuesData ops mgr) :
    QueuesData ops (mgr.handleEvent application context ops event) := by
  rcases handleEvent_cases application context ops mgr event with ⟨-, aside, -⟩ | ⟨-, same⟩
  · unfold QueuesData
    rw [aside.q]
    exact data
  · rw [same]
    unfold drainIfReady
    split
    · exact queuesData_drain
    · exact QueuesData.handoffOrQueue data

/-- The direct handoff tests the gate. -/
theorem gated_handoffOrQueue (gated : Gated mgr.deeds) :
    Gated (mgr.handoffOrQueue application ops event).deeds := by
  unfold handoffOrQueue
  split
  · next through =>
      refine everyHandoff_concat_handoff.mpr ⟨gated, fun gatable => ?_⟩
      simpa [gatable.1, gatable.2] using through
  · exact gated

/-- The queue is emptied in keeping with the gate exactly if it stays open to the end. -/
theorem gated_drainIfReady_iff (data : QueuesData ops mgr) (gated : Gated mgr.deeds) :
    Gated (mgr.drainIfReady application ops).deeds ↔
      (application.dataReady mgr.app → KeepsReady application mgr.app (ops.inOrder mgr.q)) := by
  unfold drainIfReady
  split
  · next drains =>
      rw [gated_drain_iff data]
      simp [gated, drains.2]
  · next kept =>
      simp only [gated, true_iff]
      intro ready
      have nothing : ops.top? mgr.q = none := by simpa [ready] using kept
      rw [ops.inOrder_of_none nothing]
      trivial

theorem gated_handleEvent_iff (data : QueuesData ops mgr) (gated : Gated mgr.deeds) :
    Gated (mgr.handleEvent application context ops event).deeds ↔
      GateKept application ops mgr event := by
  unfold GateKept
  rcases handleEvent_cases application context ops mgr event with
    ⟨other, aside, -⟩ | ⟨dispatchable, same⟩
  · simp only [other, false_implies, iff_true]
    exact aside.everyHandoff_iff.mpr gated
  · have arrived : QueuesData ops
        ((mgr.handoffOrQueue application ops event).logReceived event.sh) :=
      data.handoffOrQueue
    have still : Gated
        ((mgr.handoffOrQueue application ops event).logReceived event.sh).deeds :=
      gated_handoffOrQueue gated
    rw [same, handoffOrQueue_logReceived, gated_drainIfReady_iff arrived still]
    simp only [dispatchable, true_implies]
    rfl

/--
For every application and every sequence of events: no data event is handed off while the
application is not ready exactly if, whenever the queue is emptied, none of the queued events
but the last closes the gate.
-/
theorem gated_iff_gateKept (application : AppBase App) (context : PeerContext)
    (ops : PriorityQueue Queue SamsonEvent less) (app : App) (events : List SamsonEvent) :
    (eventRuns application context ops).Throughout (fun mgr => Gated mgr.deeds)
        (init ops app) events ↔
      ((eventRuns application context ops).restrict (GateKept application ops)).Admits
        (init ops app) events := by
  refine System.throughout_iff_restrict_of_invariant _ (QueuesData ops)
    (fun mgr event data _ => data.handleEvent)
    (fun mgr event data gated _ => gated_handleEvent_iff data gated) ?_ ?_
    (admits_eventRuns events (init ops app))
  · intro event member
    rw [show (init ops app : SharedAppMgr App Queue).q = ops.empty from rfl,
      ops.elements_empty] at member
    cases member
  · intro _ _ _ member
    cases member

end SharedAppMgr

/-! ## An application with frames -/

namespace Framed

open SharedAppMgr

/-- Ready from the start of a frame until it has been given its data. -/
def application : AppBase Bool where
  dataReady ready := ready
  closeSimulation ready := ready
  helloResponse ready := ready
  info _ := []
  registered _ _ := true
  handleEvent _ event := event.sh.type ≠ .data

def context : PeerContext := ⟨1, 2, 0, false, fun _ => 0, fun _ => [], []⟩

/-- The message id stands for the priority. -/
def Less (first second : SamsonEvent) : Prop :=
  first.sh.messageId.toNat < second.sh.messageId.toNat

instance : DecidableRel Less := fun first second =>
  inferInstanceAs (Decidable (first.sh.messageId.toNat < second.sh.messageId.toNat))

instance : IsStrictWeakOrder SamsonEvent Less where
  irrefl _ := Nat.lt_irrefl _
  trans _ _ _ := Nat.lt_trans
  incomp_trans first second third one two := by
    unfold Less at *
    omega

def message (type : SimMsgType) (messageId : UInt32) : SamsonEvent :=
  ⟨none, ⟨0, 3, 7, messageId, 1, 0, 0, type, 0, 0, 0⟩⟩

def startFrame : SamsonEvent := message (.other 8) 0

/-- Two data events come before the frame starts. -/
def early : List SamsonEvent := [message .data 1, message .data 2]

theorem readyInHandoffsOnly : ReadyInHandoffsOnly application := ⟨fun _ => rfl, fun _ => rfl⟩

theorem queued_not_overtaken_early :
    Orderly application (SortedList.ops Less)
      ((eventRuns application context (SortedList.ops Less)).exec
        (init (SortedList.ops Less) false) (early ++ [startFrame])) :=
  queued_not_overtaken readyInHandoffsOnly context (SortedList.ops Less) false
    (early ++ [startFrame])

/-- The first of two queued data events closes the gate, and the second is handed off
nevertheless. -/
theorem not_gated_early :
    ¬ Gated ((eventRuns application context (SortedList.ops Less)).exec
      (init (SortedList.ops Less) false) (early ++ [startFrame])).deeds := by
  intro gated
  have second := gated (message .data 1) false {message .data 1} (by decide) (by decide)
  cases second

end Framed

end Nise.Peer
