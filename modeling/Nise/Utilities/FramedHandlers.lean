import Nise.Utilities.FramedController

/-!
# What the handlers of the framed controller can do

A handler only notes what it sends.  Only a frame or an engagement ends a case, and only a report
of the end of the run powers a peer down.
-/

namespace Nise.Utilities

/-- The entries of a handler are what it has sent. -/
def Sends (entries : List Entry) : Prop := ∀ entry ∈ entries, ∀ input, entry ≠ .received input

theorem sends_nil : Sends [] := fun _ none => (List.not_mem_nil none).elim

theorem sends_cons {entries : List Entry} {entry : Entry} (own : ∀ input, entry ≠ .received input)
    (rest : Sends entries) : Sends (entry :: entries) := by
  intro other member
  cases member with
  | head => exact own
  | tail _ later => exact rest other later

theorem sends_sent {entries : List Entry} {output : Output} (rest : Sends entries) :
    Sends (.sent output :: entries) := sends_cons (fun _ same => nomatch same) rest

variable {job : Job} {controller : FramedController}

/-- A handler that ends no case and powers nobody down. -/
structure Plain (controller : FramedController) (out : FramedController × List Entry) : Prop where
  sends : Sends out.2
  down : out.1.poweredDown = controller.poweredDown
  unended : .sent .endCase ∉ out.2

/-- What the handler of an input can do. -/
inductive Handled (controller : FramedController) (out : FramedController × List Entry) :
    Input → Prop where
  | plain {input : Input} (does : Plain controller out) : Handled controller out input
  | endFrame {peerId : UInt32} (sends : out.2 = [.sent .endCase])
      (down : out.1.poweredDown = controller.poweredDown) :
      Handled controller out (.endFrame peerId)
  | endRunComplete {peerId : UInt32} (sends : out.2 = [.sent .stopSimulation] ∨ out.2 = []) :
      Handled controller out (.endRunComplete peerId)
  | endEngagement {peerId : UInt32}
      (sends : out.2 = [.sent .dispatcherCommand, .sent .endCase] ∨ out.2 = [])
      (down : out.1.poweredDown = controller.poweredDown) :
      Handled controller out (.endEngagement peerId)

/-- A message more that does not end the case. -/
theorem Plain.sent {out : FramedController} {entries : List Entry} (output : Output)
    (other : output ≠ .endCase) (plain : Plain controller (out, entries)) :
    Plain controller (out, .sent output :: entries) where
  sends := sends_sent plain.sends
  down := plain.down
  unended member := by
    cases member with
    | head => exact other rfl
    | tail _ later => exact plain.unended later

theorem Plain.initialized {out : FramedController} {entries : List Entry}
    (plain : Plain controller (out, entries)) :
    Plain controller (out, .initialized :: entries) where
  sends := sends_cons (fun _ same => nomatch same) plain.sends
  down := plain.down
  unended member := by
    cases member with
    | tail _ later => exact plain.unended later

theorem plain_nil {out : FramedController}
    (down : out.poweredDown = controller.poweredDown) : Plain controller (out, []) where
  sends := sends_nil
  down := down
  unended := List.not_mem_nil

theorem plain_scheduleFrame {out : FramedController}
    (down : out.poweredDown = controller.poweredDown) :
    Plain controller (out, FramedController.scheduleFrame job) := by
  unfold FramedController.scheduleFrame
  split
  · exact (plain_nil down).sent (.schedule .frame) nofun
  · exact plain_nil down

theorem plain_startNewFrame {out : FramedController}
    (down : out.poweredDown = controller.poweredDown) :
    Plain controller (out.startNewFrame job) := by
  unfold FramedController.startNewFrame
  apply Plain.sent .startFrame nofun
  split
  · exact plain_nil down
  · exact plain_scheduleFrame down

theorem plain_beginFrame {out : FramedController}
    (down : out.poweredDown = controller.poweredDown) :
    Plain controller (out.beginFrame job) := by
  unfold FramedController.beginFrame
  split
  · apply Plain.sent .advanceTime nofun
    exact plain_scheduleFrame down
  · exact plain_startNewFrame down

/-- The controller changes in other ways than to power somebody down. -/
theorem Plain.congr {out : FramedController × List Entry} {other : FramedController}
    (plain : Plain controller out) (same : other.poweredDown = out.1.poweredDown) :
    Plain controller (other, out.2) :=
  ⟨plain.sends, same.trans plain.down, plain.unended⟩

theorem handled_handle (job : Job) (controller : FramedController) (input : Input) :
    Handled controller (controller.handle job input) input := by
  cases input with
  | startup peersStarted =>
      cases peersStarted
      · apply Handled.plain
        apply Plain.sent (.schedule .startup) nofun
        exact plain_nil rfl
      · apply Handled.plain
        apply Plain.sent .logEventChannelStatus nofun
        apply Plain.sent .initCase nofun
        exact plain_nil rfl
  | watchdog =>
      refine .plain ?_
      change Plain controller controller.watchdogAction
      unfold FramedController.watchdogAction
      split
      · apply Plain.sent .requestJobStatus nofun
        apply Plain.sent .stopSimulation nofun
        exact plain_nil rfl
      · exact plain_nil rfl
  | frame =>
      refine .plain ?_
      change Plain controller (controller.handleTimeout job .frame false)
      unfold FramedController.handleTimeout
      dsimp only
      split
      · exact Plain.congr (plain_beginFrame rfl) rfl
      · exact plain_nil rfl
  | initCaseComplete peerId =>
      refine .plain ?_
      change Plain controller (controller.doInitCaseComplete job peerId)
      unfold FramedController.doInitCaseComplete
      dsimp only
      split
      · apply Plain.initialized
        apply Plain.sent (.schedule .watchdog) nofun
        exact plain_beginFrame rfl
      · exact plain_nil rfl
  | endFrame peerId =>
      change Handled controller (controller.doEndFrame job peerId) _
      unfold FramedController.doEndFrame
      dsimp only
      split
      · split
        · split
          · exact .endFrame rfl rfl
          · split
            · exact .plain (Plain.congr (plain_beginFrame rfl) rfl)
            · exact .plain (plain_nil rfl)
        · exact .plain (plain_nil rfl)
      · exact .plain (plain_nil rfl)
  | endCaseComplete peerId =>
      refine .plain ?_
      change Plain controller (controller.doEndCaseComplete job peerId)
      unfold FramedController.doEndCaseComplete
      dsimp only
      split
      · split
        · apply Plain.sent .endRun nofun
          exact plain_nil rfl
        · apply Plain.sent .initCase nofun
          exact plain_nil rfl
      · exact plain_nil rfl
  | endRunComplete peerId =>
      refine .endRunComplete ?_
      change (if _ then [Entry.sent .stopSimulation] else []) = _ ∨ (if _ then _ else _) = _
      split
      · exact .inl rfl
      · exact .inr rfl
  | timeAdvanced peerId =>
      refine .plain ?_
      change Plain controller (controller.doTimeAdvanced job peerId)
      unfold FramedController.doTimeAdvanced
      dsimp only
      split
      · exact plain_nil rfl
      · exact plain_startNewFrame rfl
  | endEngagement peerId =>
      refine .endEngagement ?_ rfl
      change (if _ then [Entry.sent .dispatcherCommand, .sent .endCase] else []) = _ ∨
        (if _ then _ else _) = _
      split
      · exact .inl rfl
      · exact .inr rfl
  | startSimulation =>
      refine .plain ?_
      change Plain controller (controller.doStartSimulation job)
      unfold FramedController.doStartSimulation
      dsimp only
      split
      · exact Plain.congr (plain_beginFrame rfl) rfl
      · exact plain_nil rfl
  | monteCarloInitCase | registerEndEngage peerId | pauseSimulation => exact .plain (plain_nil rfl)

variable (job) in
theorem sends_handle (controller : FramedController) (input : Input) :
    Sends (controller.handle job input).2 := by
  cases handled_handle job controller input with
  | plain does => exact does.sends
  | endFrame sends down =>
      rw [sends]
      exact sends_sent sends_nil
  | endRunComplete sends =>
      rcases sends with same | same
      · rw [same]
        exact sends_sent sends_nil
      · rw [same]
        exact sends_nil
  | endEngagement sends down =>
      rcases sends with same | same
      · rw [same]
        exact sends_sent (sends_sent sends_nil)
      · rw [same]
        exact sends_nil

variable (job) in
/-- Only a report powers a peer down. -/
theorem poweredDown_handle (controller : FramedController) {input : Input}
    (other : ∀ peerId, input ≠ .endRunComplete peerId) :
    (controller.handle job input).1.poweredDown = controller.poweredDown := by
  cases handled_handle job controller input with
  | plain does => exact does.down
  | endFrame sends down => exact down
  | endRunComplete sends => exact absurd rfl (other _)
  | endEngagement sends down => exact down

/-- Frames end a case, unless an engagement does. -/
theorem endFrame_of_endCase {input : Input}
    (sent : .sent .endCase ∈ (controller.handle job input).2)
    (undisturbed : input.endsEngagement = false) : ∃ peerId, input = .endFrame peerId := by
  cases handled_handle job controller input with
  | plain does => exact absurd sent does.unended
  | @endFrame peerId sends down => exact ⟨peerId, rfl⟩
  | endRunComplete sends =>
      rcases sends with same | same
      · rw [same] at sent
        cases List.mem_singleton.mp sent
      · rw [same] at sent
        cases sent
  | endEngagement sends down => cases undisturbed

end Nise.Utilities
