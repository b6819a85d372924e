import Nise.Utilities.FramedRuns

/-!
# The pace of the frames

Every `StartFrame` of a job with a frame rate schedules a timer that the next frame of the case
has to wait for.  The controller does not look at which timer has expired.  A frame that ends
after its timer finds `missedTimeout` set and starts the next one at once, but does not clear
the flag, and a timer that is left over from an earlier frame counts as much as that of the
last one.
-/

namespace Nise.Utilities

open Nise.Lib

/-- What the pace is about: cases begin, frames are started, and their timers expire.  Frames
and timers are known by the number of the `StartFrame`. -/
inductive Beat where
  | initCase
  | started (frame : Nat)
  | expired (timer : Nat)
  deriving DecidableEq, Repr

/-- Only timers expire. -/
def Quiet (beats : List Beat) : Prop := ∀ beat ∈ beats, ∃ timer, beat = .expired timer

/-- Between two consecutive frames of a case the timer of the first one has expired. -/
def Paced (beats : List Beat) : Prop :=
  ∀ before first between second after,
    beats = before ++ .started first :: (between ++ .started second :: after) →
      Quiet between → .expired first ∈ between

/-! ## The last frame of a case -/

/-- The last frame of the case, and whether its timer has expired. -/
def follow : Option (Nat × Bool) → Beat → Option (Nat × Bool)
  | _, .initCase => none
  | _, .started frame => some (frame, false)
  | latest, .expired timer => latest.map fun frame => (frame.1, frame.2 || frame.1 == timer)

def latest (beats : List Beat) : Option (Nat × Bool) := beats.foldl follow none

theorem latest_concat (beats : List Beat) (beat : Beat) :
    latest (beats ++ [beat]) = follow (latest beats) beat := by
  unfold latest
  rw [List.foldl_append]
  rfl

theorem concat_eq_append_cons {α : Type*} {list before after : List α} {last middle : α} :
    list ++ [last] = before ++ middle :: after ↔
      after = [] ∧ last = middle ∧ list = before ∨
        ∃ rest, after = rest ++ [last] ∧ list = before ++ middle :: rest := by
  constructor
  · intro same
    rcases List.eq_nil_or_concat after with rfl | ⟨rest, final, rfl⟩
    · obtain ⟨lists, lasts⟩ := List.append_inj' same rfl
      exact .inl ⟨rfl, List.singleton_inj.mp lasts, lists⟩
    · rw [List.concat_eq_append, ← List.cons_append, ← List.append_assoc] at same
      obtain ⟨lists, lasts⟩ := List.append_inj' same rfl
      rw [List.concat_eq_append, List.singleton_inj.mp lasts]
      exact .inr ⟨rest, rfl, lists⟩
  · rintro (⟨rfl, rfl, rfl⟩ | ⟨rest, rfl, rfl⟩)
    · rfl
    · simp

theorem quiet_concat {beats : List Beat} {beat : Beat} :
    Quiet (beats ++ [beat]) ↔ Quiet beats ∧ ∃ timer, beat = .expired timer := by
  unfold Quiet
  constructor
  · intro quiet
    exact ⟨fun other member => quiet other (List.mem_append_left _ member),
      quiet beat (List.mem_append_right _ (List.mem_singleton_self beat))⟩
  · rintro ⟨quiet, only⟩ other member
    rcases List.mem_append.mp member with early | last
    · exact quiet other early
    · rw [List.mem_singleton.mp last]
      exact only

/-- The last frame of the case is the one after which only timers expire. -/
theorem latest_eq_some_iff {beats : List Beat} {frame : Nat} {expired : Bool} :
    latest beats = some (frame, expired) ↔
      ∃ before between, beats = before ++ .started frame :: between ∧ Quiet between ∧
        expired = decide (.expired frame ∈ between) := by
  induction beats using List.reverseRecOn generalizing expired with
  | nil =>
      constructor
      · intro none
        cases none
      · rintro ⟨before, between, nil, -⟩
        exact absurd nil.symm (by simp)
  | append_singleton beats beat ih =>
      rw [latest_concat]
      constructor
      · intro followed
        cases beat with
        | initCase => cases followed
        | started new =>
            cases followed
            refine ⟨beats, [], rfl, ?_, rfl⟩
            intro beat member
            cases member
        | expired timer =>
            obtain ⟨⟨old, earlier⟩, known, same⟩ := Option.map_eq_some_iff.mp followed
            obtain ⟨rfl, rfl⟩ := Prod.mk.inj same
            obtain ⟨before, between, rfl, quiet, timed⟩ := ih.mp known
            refine ⟨before, between ++ [.expired timer], by simp,
              quiet_concat.mpr ⟨quiet, timer, rfl⟩, ?_⟩
            dsimp only at timed ⊢
            by_cases own : old = timer
            · simp [own]
            · simp [own, timed]
      · rintro ⟨before, between, split, quiet, rfl⟩
        rcases concat_eq_append_cons.mp split with ⟨rfl, rfl, rfl⟩ | ⟨rest, rfl, rfl⟩
        · rfl
        · obtain ⟨earlier, timer, rfl⟩ := quiet_concat.mp quiet
          have known := ih.mpr ⟨before, rest, rfl, earlier, rfl⟩
          rw [known]
          by_cases own : frame = timer
          · simp [follow, own]
          · simp [follow, own]

/-! ## One beat more -/

theorem paced_nil : Paced [] := by
  intro before first between second after nil
  exact absurd nil.symm (by simp)

/-- Only a frame that is started can break the pace. -/
theorem paced_concat {beats : List Beat} {beat : Beat} (other : ∀ frame, beat ≠ .started frame) :
    Paced (beats ++ [beat]) ↔ Paced beats := by
  constructor
  · intro paced before first between second after split quiet
    exact paced before first between second (after ++ [beat]) (by simp [split]) quiet
  · intro paced before first between second after split quiet
    rcases concat_eq_append_cons.mp split with ⟨nil, -, -⟩ | ⟨rest, same, rfl⟩
    · exact absurd nil (by simp)
    · rcases concat_eq_append_cons.mp same.symm with ⟨-, last, -⟩ | ⟨later, -, rfl⟩
      · exact absurd last (other second)
      · exact paced before first between second later rfl quiet

/-- A frame keeps the pace if the timer of the last one has expired. -/
theorem paced_concat_started {beats : List Beat} {next : Nat} :
    Paced (beats ++ [.started next]) ↔
      Paced beats ∧ ∀ frame expired, latest beats = some (frame, expired) → expired = true := by
  constructor
  · intro paced
    refine ⟨?_, ?_⟩
    · intro before first between second after split quiet
      exact paced before first between second (after ++ [.started next]) (by simp [split]) quiet
    · intro frame expired known
      obtain ⟨before, between, rfl, quiet, rfl⟩ := latest_eq_some_iff.mp known
      exact decide_eq_true (paced before frame between next [] (by simp) quiet)
  · rintro ⟨paced, timed⟩ before first between second after split quiet
    rcases concat_eq_append_cons.mp split with ⟨nil, -, -⟩ | ⟨rest, same, rfl⟩
    · exact absurd nil (by simp)
    · rcases concat_eq_append_cons.mp same.symm with ⟨-, -, within⟩ | ⟨later, -, rfl⟩
      · rw [within] at timed
        exact of_decide_eq_true
          (timed first _ (latest_eq_some_iff.mpr ⟨before, between, rfl, quiet, rfl⟩))
      · exact paced before first between second later rfl quiet

/-! ## Frames and their timers -/

/-- How many frames have been started, the last one of the case, and the timers that are
scheduled. -/
structure Pace where
  frames : Nat
  caseFrame : Option Nat
  timers : List Nat
  beats : List Beat
  deriving DecidableEq, Repr

namespace Pace

def start : Pace := ⟨0, none, [], []⟩

variable (pace : Pace)

/-- A timer that the controller schedules is that of the frame it has just started. -/
def note : Entry → Pace
  | .sent .initCase => { pace with caseFrame := none, beats := pace.beats ++ [.initCase] }
  | .sent .startFrame =>
      { pace with
        frames := pace.frames + 1
        caseFrame := some (pace.frames + 1)
        beats := pace.beats ++ [.started (pace.frames + 1)] }
  | .sent (.schedule .frame) => { pace with timers := pace.timers ++ [pace.frames] }
  | _ => pace

def expire (timer : Nat) : Pace :=
  { pace with timers := pace.timers.erase timer, beats := pace.beats ++ [.expired timer] }

/-- What the beats say of the last frame of the case is what the timers say. -/
structure Sound : Prop where
  inCase : (latest pace.beats).map Prod.fst = pace.caseFrame
  timed : ∀ frame expired, latest pace.beats = some (frame, expired) →
    (expired = true ↔ frame ∉ pace.timers)
  started : ∀ timer ∈ pace.timers, timer ≤ pace.frames
  distinct : pace.timers.Nodup

variable {pace}

theorem sound_start : start.Sound := by
  refine ⟨rfl, ?_, ?_, List.nodup_nil⟩
  · intro frame expired none
    cases none
  · intro timer member
    cases member

theorem Sound.initCase (sound : pace.Sound) : (pace.note (.sent .initCase)).Sound := by
  have none : latest (pace.note (.sent .initCase)).beats = none := latest_concat _ _
  refine ⟨?_, ?_, sound.started, sound.distinct⟩
  · rw [none]
    rfl
  · intro frame expired known
    rw [none] at known
    cases known

theorem Sound.startFrame (sound : pace.Sound) :
    ((pace.note (.sent .startFrame)).note (.sent (.schedule .frame))).Sound := by
  have begun : latest ((pace.note (.sent .startFrame)).note (.sent (.schedule .frame))).beats =
      some (pace.frames + 1, false) := latest_concat _ _
  refine ⟨?_, ?_, ?_, ?_⟩
  · rw [begun]
    rfl
  · intro frame expired known
    rw [begun] at known
    cases known
    simp [note]
  · intro timer member
    rcases List.mem_append.mp member with old | new
    · exact Nat.le_succ_of_le (sound.started timer old)
    · rw [List.mem_singleton.mp new]
      exact Nat.le_refl _
  · refine List.nodup_append.mpr ⟨sound.distinct, by simp, ?_⟩
    intro timer old new member same
    have := sound.started timer old
    have fresh : new = pace.frames + 1 := List.mem_singleton.mp member
    omega

theorem latest_expire (pace : Pace) (timer : Nat) :
    latest (pace.expire timer).beats =
      (latest pace.beats).map fun frame => (frame.1, frame.2 || frame.1 == timer) :=
  latest_concat _ _

theorem Sound.expire (sound : pace.Sound) (timer : Nat) : (pace.expire timer).Sound := by
  refine ⟨?_, ?_, ?_, sound.distinct.erase timer⟩
  · rw [latest_expire, Option.map_map]
    exact sound.inCase
  · intro frame expired known
    rw [latest_expire] at known
    obtain ⟨⟨frame, earlier⟩, before, same⟩ := Option.map_eq_some_iff.mp known
    cases same
    have member : frame ∈ (pace.expire timer).timers ↔ frame ≠ timer ∧ frame ∈ pace.timers :=
      sound.distinct.mem_erase_iff
    rw [member, Bool.or_eq_true, sound.timed frame earlier before, beq_iff_eq]
    by_cases own : frame = timer
    · simp [own]
    · simp [own]
  · intro other member
    exact sound.started other (List.mem_of_mem_erase member)

end Pace

/-! ## What one input can do -/

namespace FramedController

variable (job : Job) (controller : FramedController)

/-- The message is the last missing `EndFrame` of a frame that another one of the case follows. -/
def EndsFrame : Input → Prop
  | .endFrame peerId => controller.endGame = false ∧
      (controller.endframeSet.arrive job.stepped peerId).2 = true ∧
        controller.frameCount ≠ job.maxFrame
  | _ => False

/-- The message is the last missing `InitCaseComplete`. -/
def InitializesCase : Input → Prop
  | .initCaseComplete peerId => (controller.initCaseSet.arrive job.peers peerId).2 = true
  | _ => False

instance : DecidablePred (controller.EndsFrame job)
  | .endFrame _ => inferInstanceAs (Decidable (_ ∧ _))
  | .startup _ | .watchdog | .frame | .monteCarloInitCase | .initCaseComplete _
  | .endCaseComplete _ | .endRunComplete _ | .timeAdvanced _ | .registerEndEngage _
  | .endEngagement _ | .pauseSimulation | .startSimulation => isFalse id

instance : DecidablePred (controller.InitializesCase job)
  | .initCaseComplete _ => inferInstanceAs (Decidable (_ = _))
  | .startup _ | .watchdog | .frame | .monteCarloInitCase | .endFrame _ | .endCaseComplete _
  | .endRunComplete _ | .timeAdvanced _ | .registerEndEngage _ | .endEngagement _
  | .pauseSimulation | .startSimulation => isFalse id

/-- The message or the timer starts a frame. -/
def StartsFrame : Input → Prop
  | .frame => controller.readyToStartFrame = true
  | .initCaseComplete peerId => controller.InitializesCase job (.initCaseComplete peerId)
  | .endFrame peerId => controller.EndsFrame job (.endFrame peerId) ∧
      controller.missedTimeout = true
  | _ => False

variable {job controller}

theorem EndsFrame.starts {input : Input} (ends : controller.EndsFrame job input)
    (missed : controller.missedTimeout = true) : controller.StartsFrame job input := by
  cases input with
  | endFrame peerId => exact ⟨ends, missed⟩
  | _ => exact ends.elim

theorem InitializesCase.starts {input : Input} (all : controller.InitializesCase job input) :
    controller.StartsFrame job input := by
  cases input with
  | initCaseComplete peerId => exact all
  | _ => exact all.elim

variable (job controller)

@[simp] theorem beginFrame_missedTimeout :
    (controller.beginFrame job).1.missedTimeout = controller.missedTimeout := by
  unfold beginFrame
  split <;> rfl

end FramedController

/-- The simulation is neither paused nor started again, and there is no time to advance. -/
def Input.steady : Input → Bool
  | .pauseSimulation | .startSimulation | .timeAdvanced _ => false
  | _ => true

/-- What a steady input leaves behind: the simulation goes on, and one frame at most is
started, with its timer. -/
structure Steps (starts : Prop) (out : FramedController × List Entry) : Prop where
  unpaused : out.1.paused = false
  together : out.2.contains (.sent .advanceTime) = false
  frames : starts → ∀ pace : Pace, out.2.foldl Pace.note pace =
    (pace.note (.sent .startFrame)).note (.sent (.schedule .frame))
  other : ¬ starts → (∀ pace : Pace, out.2.foldl Pace.note pace = pace) ∨
    ∀ pace : Pace, out.2.foldl Pace.note pace = pace.note (.sent .initCase)

section Handlers

variable {job : Job} {controller : FramedController}

/-- Nothing that the pace is about. -/
theorem Steps.idle {starts : Prop} {out : FramedController × List Entry}
    (unpaused : out.1.paused = false)
    (together : out.2.contains (.sent .advanceTime) = false) (not : ¬ starts)
    (same : ∀ pace : Pace, out.2.foldl Pace.note pace = pace) : Steps starts out :=
  ⟨unpaused, together, fun starts => absurd starts not, fun _ => .inl same⟩

variable (paced : job.startFrameHz ≠ 0) (together : job.separateAdvanceTime = false)

include paced together

/-- A frame is started, and its timer is scheduled, after what the pace is not about. -/
theorem Steps.begun {starts : Prop} {out : FramedController × List Entry} (before : List Entry)
    (still : out.1.paused = (controller.beginFrame job).1.paused)
    (sent : out.2 = before ++ (controller.beginFrame job).2)
    (quiet : before.contains (.sent .advanceTime) = false)
    (same : ∀ pace : Pace, before.foldl Pace.note pace = pace)
    (unpaused : controller.paused = false) (holds : starts) : Steps starts out := by
  have goesOn : (controller.beginFrame job).1.paused = controller.paused := by
    unfold FramedController.beginFrame FramedController.startNewFrame FramedController.scheduleFrame
    simp [together, paced]
  have begins : (controller.beginFrame job).2 = [.sent .startFrame, .sent (.schedule .frame)] := by
    unfold FramedController.beginFrame FramedController.startNewFrame FramedController.scheduleFrame
    simp [together, paced]
  rw [begins] at sent
  refine ⟨(still.trans goesOn).trans unpaused, ?_, fun _ pace => ?_, fun not => absurd holds not⟩
  · rw [sent, List.contains_append, quiet]
    rfl
  · rw [sent, List.foldl_append, same]
    rfl

theorem steps_handleTimeout (unpaused : controller.paused = false) :
    Steps (controller.readyToStartFrame = true) (controller.handleTimeout job .frame false) := by
  unfold FramedController.handleTimeout
  dsimp only
  by_cases ready : controller.readyToStartFrame = true
  · rw [if_pos ⟨unpaused, ready⟩]
    exact .begun paced together [] rfl rfl rfl (fun _ => rfl) unpaused ready
  · rw [if_neg fun both => ready both.2]
    exact .idle unpaused rfl ready fun _ => rfl

theorem steps_doInitCaseComplete (unpaused : controller.paused = false) (peerId : UInt32) :
    Steps (controller.StartsFrame job (.initCaseComplete peerId))
      (controller.doInitCaseComplete job peerId) := by
  unfold FramedController.doInitCaseComplete
  dsimp only
  split
  · next complete =>
      exact .begun paced together [.initialized, .sent (.schedule .watchdog)] rfl rfl rfl
        (fun _ => rfl) unpaused complete
  · next incomplete => exact .idle unpaused rfl incomplete fun _ => rfl

/-- The next frame waits for its timer, unless the timer has expired before the last peer
answered. -/
theorem steps_doEndFrame (unpaused : controller.paused = false) (peerId : UInt32) :
    Steps (controller.StartsFrame job (.endFrame peerId)) (controller.doEndFrame job peerId) := by
  unfold FramedController.doEndFrame
  split
  · next playing =>
      dsimp only
      split
      · next complete =>
          split
          · next last =>
              exact .idle unpaused rfl (fun starts => starts.1.2.2 last) fun _ => rfl
          · next more =>
              by_cases missed : controller.missedTimeout = true
              · rw [if_pos ⟨unpaused, .inr missed⟩]
                exact .begun paced together [] rfl rfl rfl (fun _ => rfl) unpaused
                  ⟨⟨playing, complete, more⟩, missed⟩
              · rw [if_neg fun both => both.2.elim paced missed]
                exact .idle unpaused rfl (fun starts => missed starts.2) fun _ => rfl
      · next incomplete =>
          exact .idle unpaused rfl (fun starts => incomplete starts.1.2.1) fun _ => rfl
  · next ended => exact .idle unpaused rfl (fun starts => ended starts.1.1) fun _ => rfl

theorem steps_handle (unpaused : controller.paused = false) {input : Input}
    (steady : input.steady = true) :
    Steps (controller.StartsFrame job input) (controller.handle job input) := by
  cases input with
  | startup peersStarted =>
      cases peersStarted with
      | true => exact ⟨unpaused, rfl, False.elim, fun _ => .inr fun _ => rfl⟩
      | false => exact .idle unpaused rfl id fun _ => rfl
  | watchdog =>
      change Steps False controller.watchdogAction
      unfold FramedController.watchdogAction
      split
      · exact .idle unpaused rfl id fun _ => rfl
      · exact .idle unpaused rfl id fun _ => rfl
  | frame => exact steps_handleTimeout paced together unpaused
  | monteCarloInitCase => exact .idle unpaused rfl id fun _ => rfl
  | initCaseComplete peerId => exact steps_doInitCaseComplete paced together unpaused peerId
  | endFrame peerId => exact steps_doEndFrame paced together unpaused peerId
  | endCaseComplete peerId =>
      change Steps False (controller.doEndCaseComplete job peerId)
      unfold FramedController.doEndCaseComplete
      dsimp only
      split
      · split
        · exact .idle unpaused rfl id fun _ => rfl
        · exact ⟨unpaused, rfl, False.elim, fun _ => .inr fun _ => rfl⟩
      · exact .idle unpaused rfl id fun _ => rfl
  | endRunComplete peerId =>
      change Steps False (controller.doEndRunComplete job peerId)
      unfold FramedController.doEndRunComplete
      dsimp only
      split
      · exact .idle unpaused rfl id fun _ => rfl
      · exact .idle unpaused rfl id fun _ => rfl
  | registerEndEngage peerId => exact .idle unpaused rfl id fun _ => rfl
  | endEngagement peerId =>
      change Steps False (controller.doEndEngagement peerId)
      unfold FramedController.doEndEngagement
      dsimp only
      split
      · exact .idle unpaused rfl id fun _ => rfl
      · exact .idle unpaused rfl id fun _ => rfl
  | timeAdvanced | pauseSimulation | startSimulation => cases steady

omit together in
/-- A timer is missed if no frame waits for it, and a frame waits for its timer unless one has been
missed. -/
theorem flags_handle (unpaused : controller.paused = false) {input : Input}
    (steady : input.steady = true) :
    (controller.handle job input).1.missedTimeout =
        (if input = .frame then !controller.readyToStartFrame else controller.missedTimeout) ∧
      (controller.handle job input).1.readyToStartFrame =
        (if input = .frame then false
        else if controller.EndsFrame job input then !controller.missedTimeout
        else controller.readyToStartFrame) := by
  cases input with
  | frame =>
      change (controller.handleTimeout job .frame false).1.missedTimeout = _ ∧
        (controller.handleTimeout job .frame false).1.readyToStartFrame = _
      unfold FramedController.handleTimeout
      dsimp only
      by_cases ready : controller.readyToStartFrame = true
      · rw [if_pos ⟨unpaused, ready⟩, ready]
        exact ⟨rfl, rfl⟩
      · rw [if_neg fun both => ready both.2]
        rw [Bool.not_eq_true] at ready
        exact ⟨(congrArg not ready).symm, ready⟩
  | endFrame peerId =>
      change (controller.doEndFrame job peerId).1.missedTimeout = controller.missedTimeout ∧
        (controller.doEndFrame job peerId).1.readyToStartFrame =
          if controller.EndsFrame job (.endFrame peerId) then !controller.missedTimeout
          else controller.readyToStartFrame
      unfold FramedController.doEndFrame
      split
      · next playing =>
          dsimp only
          split
          · next complete =>
              split
              · next last =>
                  rw [if_neg fun ends : controller.EndsFrame job (.endFrame peerId) => ends.2.2 last]
                  exact ⟨rfl, rfl⟩
              · next more =>
                  rw [if_pos (show controller.EndsFrame job (.endFrame peerId) from
                    ⟨playing, complete, more⟩)]
                  by_cases missed : controller.missedTimeout = true
                  · rw [if_pos ⟨unpaused, .inr missed⟩, missed]
                    exact ⟨FramedController.beginFrame_missedTimeout job _, rfl⟩
                  · rw [if_neg fun both => both.2.elim paced missed]
                    rw [Bool.not_eq_true] at missed
                    rw [missed]
                    exact ⟨rfl, rfl⟩
          · next incomplete =>
              rw [if_neg fun ends : controller.EndsFrame job (.endFrame peerId) =>
                incomplete ends.2.1]
              exact ⟨rfl, rfl⟩
      · next ended =>
          rw [if_neg fun ends : controller.EndsFrame job (.endFrame peerId) => ended ends.1]
          exact ⟨rfl, rfl⟩
  | initCaseComplete peerId =>
      change (controller.doInitCaseComplete job peerId).1.missedTimeout = _ ∧
        (controller.doInitCaseComplete job peerId).1.readyToStartFrame = _
      unfold FramedController.doInitCaseComplete
      dsimp only
      split
      · exact ⟨FramedController.beginFrame_missedTimeout job _,
          FramedController.beginFrame_readyToStartFrame job _⟩
      · exact ⟨rfl, rfl⟩
  | startup peersStarted => cases peersStarted <;> exact ⟨rfl, rfl⟩
  | watchdog =>
      change controller.watchdogAction.1.missedTimeout = _ ∧
        controller.watchdogAction.1.readyToStartFrame = _
      unfold FramedController.watchdogAction
      split <;> exact ⟨rfl, rfl⟩
  | endCaseComplete peerId =>
      change (controller.doEndCaseComplete job peerId).1.missedTimeout = _ ∧
        (controller.doEndCaseComplete job peerId).1.readyToStartFrame = _
      unfold FramedController.doEndCaseComplete
      dsimp only
      split
      · split <;> exact ⟨rfl, rfl⟩
      · exact ⟨rfl, rfl⟩
  | monteCarloInitCase | endRunComplete | registerEndEngage | endEngagement => exact ⟨rfl, rfl⟩
  | timeAdvanced | pauseSimulation | startSimulation => cases steady

end Handlers

/-! ## Runs -/

/-- An input, with the timer that has expired if it is one of a frame. -/
structure PacedInput where
  input : Input
  timer : Nat
  deriving DecidableEq, Repr

/-- A run with its frames and timers.  A timer of a frame is late if no frame has ended since the
one before it expired. -/
structure PacedRun where
  run : Run
  pace : Pace
  /-- A frame has ended since a timer expired last. -/
  ended : Bool
  /-- Some timer was late. -/
  late : Bool

namespace PacedRun

def start (caseNumber : Int) : PacedRun := ⟨.start caseNumber, .start, false, false⟩

variable (job : Job) (paced : PacedRun)

def received (event : PacedInput) : Pace :=
  if event.input = .frame then paced.pace.expire event.timer else paced.pace

def step (event : PacedInput) : PacedRun where
  run := paced.run.step job event.input
  pace := (paced.run.controller.handle job event.input).2.foldl Pace.note (paced.received event)
  ended := if event.input = .frame then false
    else paced.ended || decide (paced.run.controller.EndsFrame job event.input)
  late := if event.input = .frame then paced.late || !paced.ended else paced.late

/-- A timer expires when it is scheduled, a stepped peer answers every frame at most once, and
the simulation is not paused. -/
def Possible (event : PacedInput) : Prop :=
  paced.run.Expires event.input ∧ paced.run.AnswersFrames job event.input ∧
    (event.input ≠ .pauseSimulation ∧ event.input ≠ .startSimulation) ∧
      (event.input = .frame → event.timer ∈ paced.pace.timers)

/-- The timer of the last frame of the case has expired. -/
def Expired : Prop := ∀ frame ∈ paced.pace.caseFrame, frame ∉ paced.pace.timers

/-- As long as no timer has been late, a timer that expires after the end of a frame is that of the
last one.  After that every frame outlasts its timer.  A case is not initialized again while the
timer of one of its frames is scheduled. -/
structure InTime (event : PacedInput) : Prop where
  own : event.input = .frame → paced.late = false → paced.ended = true →
    paced.Expired ∨ event.timer ∈ paced.pace.caseFrame
  outlasts : paced.run.controller.EndsFrame job event.input → paced.late = true → paced.Expired
  once : paced.run.controller.InitializesCase job event.input → paced.Expired

instance : DecidablePred (paced.Possible job) := fun event =>
  inferInstanceAs (Decidable (paced.run.Expires event.input ∧
    paced.run.AnswersFrames job event.input ∧
      (event.input ≠ .pauseSimulation ∧ event.input ≠ .startSimulation) ∧
        (event.input = .frame → event.timer ∈ paced.pace.timers)))

instance : Decidable paced.Expired :=
  inferInstanceAs (Decidable (∀ frame ∈ paced.pace.caseFrame, frame ∉ paced.pace.timers))

instance : DecidablePred (paced.InTime job) := fun event =>
  decidable_of_iff
    ((event.input = .frame → paced.late = false → paced.ended = true →
        paced.Expired ∨ event.timer ∈ paced.pace.caseFrame) ∧
      (paced.run.controller.EndsFrame job event.input → paced.late = true → paced.Expired) ∧
      (paced.run.controller.InitializesCase job event.input → paced.Expired))
    ⟨fun ⟨own, outlasts, once⟩ => ⟨own, outlasts, once⟩,
      fun inTime => ⟨inTime.own, inTime.outlasts, inTime.once⟩⟩

/-- What holds in every run. -/
structure Steady : Prop where
  unpaused : paced.run.controller.paused = false
  together : .sent .advanceTime ∉ paced.run.history
  sound : paced.pace.Sound
  missed : paced.run.controller.missedTimeout = paced.late
  ready : paced.run.controller.readyToStartFrame = (paced.ended && !paced.late)

variable {job : Job} {paced : PacedRun} {event : PacedInput}

/-- No time is advanced that was not asked for. -/
theorem Steady.steady_input (steady : paced.Steady) (possible : paced.Possible job event) :
    event.input.steady = true := by
  obtain ⟨-, answers, ⟨unpaused, unstarted⟩, -⟩ := possible
  cases same : event.input with
  | timeAdvanced peerId =>
      rw [same] at answers
      have none : paced.run.tally.advanceTime = 0 := by
        refine (Tally.sent_eq_count paced.run.history).2.2.2.1.trans ?_
        exact List.count_eq_zero.mpr steady.together
      have fewer := answers.2
      omega
  | pauseSimulation => exact absurd same unpaused
  | startSimulation => exact absurd same unstarted
  | _ => rfl

theorem Steady.received (steady : paced.Steady) : (paced.received event).Sound := by
  unfold PacedRun.received
  split
  · exact steady.sound.expire event.timer
  · exact steady.sound

theorem Steady.step (rate : job.startFrameHz ≠ 0) (together : job.separateAdvanceTime = false)
    (steady : paced.Steady) (possible : paced.Possible job event) :
    (paced.step job event).Steady := by
  have steps := steps_handle rate together steady.unpaused (steady.steady_input possible)
  obtain ⟨missed, ready⟩ := flags_handle rate steady.unpaused (steady.steady_input possible)
  refine ⟨steps.unpaused, ?_, ?_, missed.trans ?_, ready.trans ?_⟩
  · intro member
    rcases List.mem_append.mp member with before | now
    · exact steady.together before
    · rcases List.mem_cons.mp now with impossible | sent
      · cases impossible
      · exact absurd (List.contains_iff_mem.mpr sent) (by rw [steps.together]; decide)
  · change ((paced.run.controller.handle job event.input).2.foldl Pace.note _).Sound
    by_cases starts : paced.run.controller.StartsFrame job event.input
    · rw [steps.frames starts]
      exact steady.received.startFrame
    · rcases steps.other starts with same | begins
      · rw [same]
        exact steady.received
      · rw [begins]
        exact steady.received.initCase
  · change _ = if event.input = .frame then paced.late || !paced.ended else paced.late
    split
    · rw [steady.ready]
      cases paced.late <;> cases paced.ended <;> rfl
    · exact steady.missed
  · change _ = ((if event.input = .frame then false
      else paced.ended || decide (paced.run.controller.EndsFrame job event.input)) &&
        !(if event.input = .frame then paced.late || !paced.ended else paced.late))
    split
    · rfl
    · rw [steady.missed, steady.ready]
      split
      · next ends => rw [decide_eq_true ends, Bool.or_true, Bool.true_and]
      · next goesOn => rw [decide_eq_false goesOn, Bool.or_false]

/-- Only a timer that is late, or is not that of the last frame, can start a frame too early. -/
theorem Steady.inTime_iff (steady : paced.Steady) :
    (paced.run.controller.StartsFrame job event.input →
        ∀ frame ∈ paced.pace.caseFrame, frame ∈ paced.pace.timers →
          event.input = .frame ∧ event.timer = frame) ↔
      paced.InTime job event := by
  constructor
  · intro due
    refine ⟨fun timeout punctual ended => ?_, fun ends late frame among waits => ?_,
      fun all frame among waits => ?_⟩
    · have ready : paced.run.controller.readyToStartFrame = true := by
        rw [steady.ready, punctual, ended]
        rfl
      have starts : paced.run.controller.StartsFrame job event.input := by
        rw [timeout]
        exact ready
      by_cases expired : paced.Expired
      · exact .inl expired
      · unfold Expired at expired
        push Not at expired
        obtain ⟨frame, among, waits⟩ := expired
        rw [(due starts frame among waits).2]
        exact .inr among
    · have same := (due (ends.starts (steady.missed.trans late)) frame among waits).1
      rw [same] at ends
      exact ends
    · have same := (due all.starts frame among waits).1
      rw [same] at all
      exact all
  · intro inTime starts frame among waits
    cases same : event.input with
    | frame =>
        rw [same] at starts
        have ready : (paced.ended && !paced.late) = true := steady.ready.symm.trans starts
        rw [Bool.and_eq_true, Bool.not_eq_true'] at ready
        rcases inTime.own same ready.2 ready.1 with expired | own
        · exact absurd waits (expired frame among)
        · exact ⟨rfl, Option.mem_unique own among⟩
    | initCaseComplete peerId =>
        rw [same] at starts
        have all : paced.run.controller.InitializesCase job event.input := by
          rw [same]
          exact starts
        exact absurd waits (inTime.once all frame among)
    | endFrame peerId =>
        rw [same] at starts
        have ends : paced.run.controller.EndsFrame job event.input := by
          rw [same]
          exact starts.1
        exact absurd waits (inTime.outlasts ends (steady.missed.symm.trans starts.2) frame among)
    | _ =>
        rw [same] at starts
        exact starts.elim

theorem paced_received : Paced (paced.received event).beats ↔ Paced paced.pace.beats := by
  unfold received
  split
  · exact paced_concat fun frame impossible => by cases impossible
  · rfl

/-- The timer of the last frame has expired when the next one is started. -/
theorem Steady.timed_iff (steady : paced.Steady) :
    (∀ frame expired, latest (paced.received event).beats = some (frame, expired) →
        expired = true) ↔
      ∀ frame ∈ paced.pace.caseFrame, frame ∈ paced.pace.timers →
        event.input = .frame ∧ event.timer = frame := by
  have inCase : ∀ frame, frame ∈ paced.pace.caseFrame ↔
      ∃ expired, latest paced.pace.beats = some (frame, expired) := by
    intro frame
    rw [← steady.sound.inCase, Option.mem_def, Option.map_eq_some_iff]
    constructor
    · rintro ⟨⟨frame, expired⟩, known, rfl⟩
      exact ⟨expired, known⟩
    · rintro ⟨expired, known⟩
      exact ⟨(frame, expired), known, rfl⟩
  unfold PacedRun.received
  by_cases timeout : event.input = .frame
  · rw [if_pos timeout, Pace.latest_expire]
    constructor
    · intro timed frame among waits
      obtain ⟨expired, known⟩ := (inCase frame).mp among
      rw [known] at timed
      have now := timed frame _ rfl
      rw [Bool.or_eq_true, steady.sound.timed frame expired known, beq_iff_eq] at now
      exact ⟨timeout, (now.resolve_left fun gone => gone waits).symm⟩
    · intro due frame expired known
      obtain ⟨⟨frame, earlier⟩, before, same⟩ := Option.map_eq_some_iff.mp known
      cases same
      rw [Bool.or_eq_true, steady.sound.timed frame earlier before, beq_iff_eq]
      by_cases waits : frame ∈ paced.pace.timers
      · exact .inr (due frame ((inCase frame).mpr ⟨earlier, before⟩) waits).2.symm
      · exact .inl waits
  · rw [if_neg timeout]
    constructor
    · intro timed frame among waits
      obtain ⟨expired, known⟩ := (inCase frame).mp among
      exact absurd waits ((steady.sound.timed frame expired known).mp (timed frame expired known))
    · intro due frame expired known
      rw [steady.sound.timed frame expired known]
      intro waits
      exact timeout (due frame ((inCase frame).mpr ⟨expired, known⟩) waits).1

theorem Steady.paced_step_iff (rate : job.startFrameHz ≠ 0)
    (together : job.separateAdvanceTime = false) (steady : paced.Steady)
    (pace : Paced paced.pace.beats) (possible : paced.Possible job event) :
    Paced (paced.step job event).pace.beats ↔ paced.InTime job event := by
  have steps := steps_handle rate together steady.unpaused (steady.steady_input possible)
  rw [← steady.inTime_iff]
  change Paced ((paced.run.controller.handle job event.input).2.foldl Pace.note _).beats ↔ _
  by_cases starts : paced.run.controller.StartsFrame job event.input
  · rw [steps.frames starts]
    change Paced ((paced.received event).beats ++ [.started _]) ↔ _
    rw [paced_concat_started, paced_received, and_iff_right pace, steady.timed_iff]
    exact ⟨fun due _ => due, fun due => due starts⟩
  · refine iff_of_true ?_ fun now => absurd now starts
    rcases steps.other starts with same | begins
    · rw [same]
      exact paced_received.mpr pace
    · rw [begins]
      refine (paced_concat fun frame impossible => ?_).mpr (paced_received.mpr pace)
      cases impossible

end PacedRun

/-- All runs of a job that is not paused, with the timers of its frames. -/
def pacedRuns (job : Job) : System PacedRun PacedInput where
  step paced event := paced.step job event
  guard paced event := paced.Possible job event

instance (job : Job) (paced : PacedRun) (event : PacedInput) :
    Decidable ((pacedRuns job).guard paced event) :=
  inferInstanceAs (Decidable (paced.Possible job event))

/-- The frames keep their pace in every state of a run exactly if the timers are in time: until one
is late they are those of the last frames, and after that the frames outlast them. -/
theorem frames_paced_iff {job : Job} (rate : job.startFrameHz ≠ 0)
    (together : job.separateAdvanceTime = false) {first : Int} {events : List PacedInput}
    (admitted : (pacedRuns job).Admits (.start first) events) :
    (pacedRuns job).Throughout (fun paced => Paced paced.pace.beats) (.start first) events ↔
      ((pacedRuns job).restrict (PacedRun.InTime job)).Admits (.start first) events := by
  have steady : (PacedRun.start first).Steady := by
    refine ⟨rfl, ?_, Pace.sound_start, rfl, rfl⟩
    intro member
    cases member
  refine (pacedRuns job).throughout_iff_restrict_of_invariant PacedRun.Steady ?_ ?_ steady
    paced_nil admitted
  · intro paced event steady possible
    exact steady.step rate together possible
  · intro paced event steady pace possible
    exact steady.paced_step_iff rate together pace possible

namespace LateModel

/-- One model that is stepped ten times a second. -/
def job : Job where
  peerTable := [⟨7, 10⟩]
  modelId := 1
  separateAdvanceTime := false
  startFrameHz := 10
  maxFrame := 100
  numberOfRuns := 1

/-- An input that is no timer of a frame. -/
def message (input : Input) : PacedInput := ⟨input, 0⟩

/-- All peers are there, and the first frame is started. -/
def begun : List PacedInput := [message (.startup true), message (.initCaseComplete 7)]

/-- The model ends its frames in time, and then one too late. -/
def inTime : List PacedInput :=
  begun ++ [message (.endFrame 7), ⟨.frame, 1⟩, message (.endFrame 7), ⟨.frame, 2⟩, ⟨.frame, 3⟩,
    message (.endFrame 7)]

theorem frames_paced_inTime :
    (pacedRuns job).Throughout (fun paced => Paced paced.pace.beats) (.start 1) inTime :=
  (frames_paced_iff (by decide) rfl (by decide)).mpr (by decide)

/-- The model is late once, and in time after that. -/
def lateOnce : List PacedInput :=
  begun ++ [⟨.frame, 1⟩, message (.endFrame 7), message (.endFrame 7)]

theorem frames_paced_fails :
    ¬ ∀ (job : Job) (first : Int) (events : List PacedInput), job.startFrameHz ≠ 0 →
      job.separateAdvanceTime = false → (pacedRuns job).Admits (.start first) events →
        Paced ((pacedRuns job).exec (.start first) events).pace.beats := by
  intro claim
  have paced := claim job 1 lateOnce (by decide) rfl (by decide)
  have beats : ((pacedRuns job).exec (.start 1) lateOnce).pace.beats =
      [.initCase, .started 1, .expired 1, .started 2, .started 3] := by decide
  rw [beats] at paced
  have missing := paced [.initCase, .started 1, .expired 1] 2 [] 3 [] rfl (by simp [Quiet])
  cases missing

end LateModel

end Nise.Utilities
