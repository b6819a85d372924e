import Nise.Lib.Run
import Nise.Models.Osk.Sim

/-!
# The target

`CMD_Target` runs the simulation of its one block, the target, in a thread of its own.  The block
reports at the beginning of every step, and every `MonteCarlo_Step` publishes where the target is.
Two flags are to make reports and steps follow one another: a report waits until the last one has
been published, and a step waits for a report.

A thread that waits has given the mutex back, and the flag that it waits for is set and announced
under the mutex, so that going on is a step that is not possible before.  Nothing protects
`Sim::stop` and the position: one thread can write them, and the other one read them, between any
two steps here.  The case is the first one, and what `MonteCarlo_InitCase` itself publishes is left
out.  The numbers are exact.
-/

namespace Nise.Models

open Nise.Lib
open Nise.Models.Osk

inductive TargetState where
  | x
  | y
  deriving DecidableEq, Repr

/-- The velocity of a `Target`, which nothing assigns. -/
structure Target (R : Type*) where
  vx : R
  vy : R

namespace Target

variable {R : Type*} [Field R] [LinearOrder R] [FloorRing R] (target : Target R)

def rate : TargetState → R
  | .x => target.vx
  | .y => target.vy

/-- The target as a stage: it has no `update` of its own, and its report prints. -/
def stage : Stage R TargetState Unit where
  slope _ _ _ := target.rate
  init memory := memory
  update clock memory := (clock, { memory with xd := target.rate })
  rpt clock _ := clock
  update_sampled _ _ := .none
  update_x _ _ := rfl
  update_xd _ _ := rfl
  update_rest _ _ _ := rfl
  rpt_sampled _ _ := .none

theorem slope_stage (rest : Unit) (t : R) (x : TargetState → R) :
    target.stage.slope rest t x = target.rate := rfl

end Target

namespace CmdTarget

section Threads

variable (R : Type*)

/-- The places of the thread of the simulation, in `Sim::run`. -/
inductive CmdPlace where
  | begins
  | observes
  | reports
  | testsStop
  | keepsStop
  | testsTime
  | propagates
  | leaves
  | finishes
  | reportsLast
  | ended
  deriving DecidableEq, Repr

/-- The places of the other thread: outside of `MonteCarlo_Step`, or inside. -/
inductive IsePlace where
  | outside
  | waits
  | copies (remaining : List TargetState)
  deriving DecidableEq, Repr

/-- The threads, and what has been reported and published. -/
structure Threads where
  loop : Loop R TargetState Unit
  cmd : CmdPlace
  /-- The stages that have not begun. -/
  stagesLeft : Nat
  ticklast : Bool
  waitingForIse : Bool
  waitingForCmd : Bool
  ise : IsePlace
  mTgtState : TargetState → R
  /-- The time and the position of each report. -/
  reports : List (R × (TargetState → R))
  published : List (TargetState → R)

/-- The thread of the simulation or the other one goes on, which may also call `MonteCarlo_Step` or
`processStop`. -/
inductive Event where
  | cmd
  | ise
  | monteCarloStep
  | processStop (value : Int)
  deriving DecidableEq, Repr

end Threads

variable {R : Type*} [Field R] [LinearOrder R] [FloorRing R]

/-- The file's `tmax`. -/
def tmax : R := (10 : Nat)

def dt : R := 1 / (100 : Nat)

/-- `Block::integrator` -/
abbrev integrator : Integrator R := Osk.state

def Threads.start (loop : Loop R TargetState Unit) : Threads R where
  loop := loop
  cmd := .begins
  stagesLeft := 2
  ticklast := false
  waitingForIse := false
  waitingForCmd := true
  ise := .outside
  mTgtState _ := 0
  reports := []
  published := []

def setStop (loop : Loop R TargetState Unit) (stop : Int) : Loop R TargetState Unit :=
  { loop with memory := { loop.memory with stop := stop } }

namespace Threads

variable (target : Target R) (threads : Threads R)

/-- `Surrogate<Target>::rpt`, when it need not wait. -/
def rpt : Threads R :=
  { threads with
    waitingForIse := true
    waitingForCmd := false
    reports := threads.reports ++ [(threads.loop.clock.t, threads.loop.memory.x)] }

/-- The next stage begins, or the simulation is over. -/
def nextStage : Threads R :=
  match threads.stagesLeft with
  | 0 => { threads with cmd := .finishes }
  | left + 1 =>
      { threads with
        loop := { threads.loop with
          clock := threads.loop.clock.reset dt
          memory := target.stage.init threads.loop.memory }
        stagesLeft := left
        cmd := .observes }

/-- What `Sim::run` does at the place of its thread. -/
def simRun : Threads R :=
  match threads.cmd with
  | .begins => { threads with loop := threads.loop.set, ticklast := false }.nextStage target
  | .observes =>
      let loop := threads.loop.observed target.stage tmax
      { threads with loop := loop, cmd := if loop.clock.ready then .reports else .propagates }
  | .reports => { threads.rpt with cmd := .testsStop }
  | .testsStop =>
      if threads.loop.memory.stop ≠ threads.loop.stop0 then { threads with cmd := .keepsStop }
      else { threads with cmd := .testsTime }
  | .keepsStop =>
      { threads with
        loop := { threads.loop with stop0 := threads.loop.memory.stop }, cmd := .leaves }
  | .testsTime =>
      if tmax ≤ threads.loop.clock.t + eps then
        { threads with loop := setStop threads.loop (-1), cmd := .leaves }
      else { threads with cmd := .propagates }
  | .propagates =>
      { threads with loop := threads.loop.propagated integrator, cmd := .observes }
  | .leaves =>
      if threads.loop.memory.stop < 0 then { threads with cmd := .finishes }
      else threads.nextStage target
  | .finishes => { threads with ticklast := true, cmd := .reportsLast }
  | .reportsLast => { threads.rpt with cmd := .ended }
  | .ended => threads

/-- What the other thread does inside of `MonteCarlo_Step`; the velocity it copies is constant. -/
def monteCarloStep : Threads R :=
  match threads.ise with
  | .outside => threads
  | .waits => { threads with waitingForCmd := true, ise := .copies [.x, .y] }
  | .copies (i :: remaining) =>
      { threads with
        mTgtState := Function.update threads.mTgtState i (threads.loop.memory.x i)
        ise := .copies remaining }
  | .copies [] =>
      { threads with
        published := threads.published ++ [threads.mTgtState]
        waitingForIse := false
        ise := .outside }

def step : Event → Threads R
  | .cmd => threads.simRun target
  | .ise => threads.monteCarloStep
  | .monteCarloStep => if threads.ticklast then threads else { threads with ise := .waits }
  | .processStop value => { threads with loop := setStop threads.loop value }

/-- The thread of the simulation is about to report. -/
def Reporting : Prop := threads.cmd = .reports ∨ threads.cmd = .reportsLast

def Guard : Event → Prop
  | .cmd => threads.cmd ≠ .ended ∧ (threads.Reporting → threads.waitingForIse = false)
  | .ise => threads.ise ≠ .outside ∧ (threads.ise = .waits → threads.waitingForCmd = false)
  | .monteCarloStep => threads.ise = .outside
  | .processStop _ => threads.ise = .outside

instance : Decidable threads.Reporting :=
  inferInstanceAs (Decidable (_ ∨ _))

instance : DecidablePred threads.Guard
  | .cmd => inferInstanceAs (Decidable (_ ∧ _))
  | .ise => inferInstanceAs (Decidable (_ ∧ _))
  | .monteCarloStep => inferInstanceAs (Decidable (_ = _))
  | .processStop _ => inferInstanceAs (Decidable (_ = _))

end Threads

/-- All interleavings of the two threads. -/
def threads (target : Target R) : System (Threads R) Event where
  step state event := state.step target event
  guard state event := state.Guard event

instance (target : Target R) (state : Threads R) (event : Event) :
    Decidable ((threads target).guard state event) :=
  inferInstanceAs (Decidable (state.Guard event))

/-! ## The steps of the simulation -/

/-- A loop whose variables are where the target is at its time. -/
def OnLine (origin : TargetState → R) (target : Target R)
    (loop : Loop R TargetState Unit) : Prop :=
  ∀ i, loop.memory.x i = origin i + loop.clock.t * target.rate i

/-- The thread is in a pass of a step that has begun. -/
structure Within (origin : TargetState → R) (target : Target R)
    (begun : Loop R TargetState Unit) (pass : Nat) (loop : Loop R TargetState Unit) : Prop where
  begins : Begun target.stage begun
  there : At integrator classical target.stage begun pass loop
  within : pass < (classical : RungeKutta R).stages
  dtp : begun.clock.dtp = dt
  short : begun.clock.t1 ≤ begun.clock.t + dt + eps
  inTime : begun.clock.t + eps < tmax → begun.clock.t1 ≤ tmax + eps
  line : OnLine origin target begun
  least : 0 ≤ begun.clock.t
  most : begun.clock.t ≤ tmax + eps

/-- A step can begin. -/
structure Rests (origin : TargetState → R) (target : Target R)
    (loop : Loop R TargetState Unit) : Prop where
  ready : loop.clock.ready = true
  kpass : loop.clock.kpass = 0
  line : OnLine origin target loop
  least : 0 ≤ loop.clock.t
  most : loop.clock.t ≤ tmax + eps

section Kernel

variable [IsStrictOrderedRing R] {origin : TargetState → R} {target : Target R}
  {begun loop : Loop R TargetState Unit} {pass : Nat}

omit [IsStrictOrderedRing R] in
theorem observed_clock (target : Target R) (loop : Loop R TargetState Unit) :
    (loop.observed target.stage tmax).clock = (loop.clock.sample (-1) tmax).1 :=
  ite_self _

omit [IsStrictOrderedRing R] in
theorem exists_sample (clock : Clock R) :
    ∃ t1 dt, (clock.sample (-1) tmax).1 = { clock with t1 := t1, dt := dt } := by
  unfold Clock.sample
  split
  · exact ⟨_, _, rfl⟩
  · split <;> exact ⟨_, _, rfl⟩

omit [IsStrictOrderedRing R] in
theorem observed_t (target : Target R) (loop : Loop R TargetState Unit) :
    (loop.observed target.stage tmax).clock.t = loop.clock.t := by
  obtain ⟨t1, dt, same⟩ := exists_sample loop.clock
  rw [observed_clock, same]

omit [IsStrictOrderedRing R] in
theorem OnLine.of_observed (line : OnLine origin target (loop.observed target.stage tmax)) :
    OnLine origin target loop := by
  intro i
  rw [← observed_t target]
  exact line i

omit [IsStrictOrderedRing R] in
theorem OnLine.observed (line : OnLine origin target loop) :
    OnLine origin target (loop.observed target.stage tmax) := by
  intro i
  rw [observed_t]
  exact line i

theorem eps_le_dt : (eps : R) ≤ dt := by
  unfold eps dt
  norm_num

/-- A step begins when the clock is ready for it. -/
theorem Rests.begins (rests : Rests origin target loop) (fresh : Fresh loop.clock)
    (dtp : loop.clock.dtp = dt) :
    Within origin target (loop.observed target.stage tmax) 0
      (loop.observed target.stage tmax) := by
  have begun : Begun target.stage (loop.observed target.stage tmax) := fresh.begins
  have same : Shortened loop.clock (loop.observed target.stage tmax).clock := fresh.observed
  have t := observed_t target loop
  refine ⟨begun, begun.at_zero state_implements, Nat.succ_pos 3, ?_, ?_, ?_, rests.line.observed,
    ?_, ?_⟩
  · rw [same.same]
    exact dtp
  · rw [t, ← dtp]
    exact same.most.trans fresh.most
  · rw [t]
    exact fun ahead => fresh.in_time ahead.le
  · rw [t]
    exact rests.least
  · rw [t]
    exact rests.most

/-- A stage begins. -/
theorem Rests.staged (rests : Rests origin target loop) :
    ∃ begun, Within origin target begun 0
      (Loop.observed target.stage tmax { loop with clock := loop.clock.reset dt }) := by
  have least : loop.clock.t + eps ≤ loop.clock.t + dt := (add_le_add_iff_left _).mpr eps_le_dt
  have most : loop.clock.t + dt ≤ loop.clock.t + dt + eps := by
    linarith [eps_pos (R := R)]
  have again : Rests origin target { loop with clock := loop.clock.reset dt } :=
    ⟨rests.ready, rests.kpass, rests.line, rests.least, rests.most⟩
  exact ⟨_, again.begins ⟨rests.ready, rests.kpass, eps_le_dt, least, most⟩ rfl⟩

omit [IsStrictOrderedRing R] in
theorem Within.ready (within : Within origin target begun pass loop) :
    loop.clock.ready = decide (pass = 0) := by
  rw [within.there.clock]

/-- Between two passes the target is on its line as well. -/
theorem Within.on_line (within : Within origin target begun pass loop) :
    OnLine origin target loop := by
  intro i
  have point : loop.memory.x i = classical.point (target.stage.slope begun.memory.rest)
      begun.clock.dt begun.clock.t begun.memory.x pass i :=
    (congrArg Prod.snd (within.there.moved i)).trans
      (state_implements.point _ _ _ _ pass within.within)
  have t : loop.clock.t = begun.clock.t + classical.node pass * begun.clock.dt := by
    rw [within.there.clock]
  rw [point, RungeKutta.point_of_constant _ (target.slope_stage _) (classical_row within.within),
    within.line, t]
  ring

/-- The time of a pass. -/
theorem Within.time (within : Within origin target begun pass loop) :
    begun.clock.t ≤ loop.clock.t ∧ loop.clock.t ≤ begun.clock.t1 := by
  have ahead : 0 ≤ begun.clock.dt := by
    rw [within.begins.step]
    linarith [within.begins.least, eps_pos (R := R)]
  have node : 0 ≤ (classical : RungeKutta R).node pass ∧
      (classical : RungeKutta R).node pass ≤ 1 := by
    unfold classical
    dsimp only
    split <;> constructor <;> norm_num
  have t : loop.clock.t = begun.clock.t + classical.node pass * begun.clock.dt := by
    rw [within.there.clock]
  have t1 : begun.clock.t1 = begun.clock.t + begun.clock.dt := by
    rw [within.begins.step]
    ring
  rw [t, t1]
  exact ⟨by linarith [mul_nonneg node.1 ahead], by linarith [mul_le_of_le_one_left ahead node.2]⟩

/-- The first pass is at the beginning of the step. -/
theorem Within.first (within : Within origin target begun 0 loop) :
    loop.clock.t = begun.clock.t := by
  rw [within.there.clock, state_implements.start, zero_mul, add_zero]

theorem Within.rests (within : Within origin target begun 0 loop) : Rests origin target loop where
  ready := within.ready
  kpass := within.there.kpass
  line := within.on_line
  least := within.least.trans within.time.1
  most := by
    rw [within.first]
    exact within.most

/-- The next pass is one of the same step, or the first one of the next. -/
theorem Within.next (within : Within origin target begun pass loop)
    (ahead : begun.clock.t + eps < tmax) :
    (pass + 1 < (classical : RungeKutta R).stages ∧ Within origin target begun (pass + 1)
        ((loop.propagated integrator).observed target.stage tmax)) ∨
      (pass + 1 = (classical : RungeKutta R).stages ∧
        (loop.propagated integrator).clock.t = begun.clock.t1 ∧
        Rests origin target (loop.propagated integrator) ∧
        ∃ next, Within origin target next 0
          ((loop.propagated integrator).observed target.stage tmax)) := by
  rcases Nat.lt_or_eq_of_le (Nat.succ_le_of_lt within.within) with more | last
  · exact .inl ⟨more, { within with
      there := within.there.next within.begins state_implements more
      within := more }⟩
  · have ended := within.there.last within.begins state_implements last
    have t : (loop.propagated integrator).clock.t = begun.clock.t1 := by rw [ended.clock]
    have line : OnLine origin target (loop.propagated integrator) := by
      intro i
      rw [ended.x, RungeKutta.step_of_constant classical (target.slope_stage _)
        Scheme.state.consistent, within.line, t, within.begins.step]
      ring
    have fresh : Fresh (loop.propagated integrator).clock :=
      ended.fresh (within.dtp ▸ eps_le_dt)
    have rests : Rests origin target (loop.propagated integrator) := by
      refine ⟨fresh.ready, fresh.kpass, line, ?_, t ▸ within.inTime ahead⟩
      rw [t]
      linarith [within.least, within.begins.least, eps_pos (R := R)]
    have dtp : (loop.propagated integrator).clock.dtp = dt := by
      rw [ended.clock]
      exact within.dtp
    exact .inr ⟨last, t, rests, _, rests.begins fresh dtp⟩

omit [IsStrictOrderedRing R] in
/-- The kernel reads `Sim::stop` only to leave a stage. -/
theorem Within.setStop (within : Within origin target begun pass loop) (stop : Int) :
    Within origin target begun pass (setStop loop stop) :=
  { within with
    there := ⟨within.there.clock, within.there.moved, within.there.xd, within.there.rest⟩ }

omit [FloorRing R] [IsStrictOrderedRing R] in
theorem Rests.setStop (rests : Rests origin target loop) (stop : Int) :
    Rests origin target (setStop loop stop) :=
  ⟨rests.ready, rests.kpass, rests.line, rests.least, rests.most⟩

end Kernel

/-! ## What holds in every run -/

def IsePlace.Copying : IsePlace → Prop
  | .copies _ => True
  | _ => False

/-- At most one report has not been published, and the flags say whether there is one. -/
structure Handshake (threads : Threads R) : Prop where
  counted : threads.reports.length = threads.published.length + threads.waitingForIse.toNat
  flags : threads.waitingForCmd = true ↔ threads.waitingForIse = false ∨ threads.ise.Copying
  copying : threads.ise.Copying → threads.waitingForIse = true
  closed : threads.ticklast = true ↔ threads.cmd = .reportsLast ∨ threads.cmd = .ended

/-- The report that has not been published is that of a time with the property. -/
def Reported (threads : Threads R) (property : R → Prop) : Prop :=
  threads.waitingForIse = true → ∃ report ∈ threads.reports.getLast?, property report.1

/-- What is known of the simulation at the place of its thread. -/
inductive Placed (origin : TargetState → R) (target : Target R) (threads : Threads R) : Prop where
  | begins (place : threads.cmd = .begins) (there : threads.loop.memory.x = origin)
      (silent : threads.waitingForIse = false)
  | observes (place : threads.cmd = .observes) {begun : Loop R TargetState Unit} {pass : Nat}
      (within : Within origin target begun pass (threads.loop.observed target.stage tmax))
      (later : pass ≠ 0 → begun.clock.t + eps < tmax ∧ Reported threads (· = begun.clock.t))
  | reports (place : threads.cmd = .reports) {begun : Loop R TargetState Unit}
      (within : Within origin target begun 0 threads.loop)
  | tests (place : threads.cmd = .testsStop ∨ threads.cmd = .testsTime)
      {begun : Loop R TargetState Unit} (within : Within origin target begun 0 threads.loop)
      (reported : Reported threads (· = begun.clock.t))
  | propagates (place : threads.cmd = .propagates) {begun : Loop R TargetState Unit} {pass : Nat}
      (within : Within origin target begun pass threads.loop)
      (ahead : begun.clock.t + eps < tmax) (reported : Reported threads (· = begun.clock.t))
  | rests (place : threads.cmd = .keepsStop ∨ threads.cmd = .leaves ∨ threads.cmd = .finishes ∨
      threads.cmd = .reportsLast ∨ threads.cmd = .ended)
      (rests : Rests origin target threads.loop)

/-- A value is the coordinate of the target at a time of the step after the report. -/
def Passed (origin : TargetState → R) (target : Target R) (report : R × (TargetState → R))
    (i : TargetState) (value : R) : Prop :=
  ∃ t, report.1 ≤ t ∧ t ≤ report.1 + dt + eps ∧ value = origin i + t * target.rate i

structure Standing (origin : TargetState → R) (target : Target R) (threads : Threads R) :
    Prop where
  handshake : Handshake threads
  placed : Placed origin target threads
  lately : Reported threads fun t =>
    t ≤ threads.loop.clock.t ∧ threads.loop.clock.t ≤ t + dt + eps
  line : ∀ report ∈ threads.reports, 0 ≤ report.1 ∧ report.1 ≤ tmax + eps ∧
    ∀ i, report.2 i = origin i + report.1 * target.rate i
  copied : ∀ remaining, threads.ise = .copies remaining →
    ∃ report ∈ threads.reports.getLast?, ∀ i, i ∉ remaining →
      Passed origin target report i (threads.mTgtState i)
  published : ∀ (number : Nat) (position : TargetState → R),
    threads.published[number]? = some position →
    ∃ report, threads.reports[number]? = some report ∧
      ∀ i, Passed origin target report i (position i)

section Steps

variable {origin : TargetState → R} {target : Target R} {threads next : Threads R}

/-- The thread of the simulation goes on by itself. -/
structure Quiet (threads next : Threads R) : Prop where
  waitingForIse : next.waitingForIse = threads.waitingForIse
  waitingForCmd : next.waitingForCmd = threads.waitingForCmd
  ise : next.ise = threads.ise
  mTgtState : next.mTgtState = threads.mTgtState
  reports : next.reports = threads.reports
  published : next.published = threads.published

omit [Field R] [LinearOrder R] [FloorRing R] in
theorem Quiet.reported (quiet : Quiet threads next) {property : R → Prop} :
    Reported next property ↔ Reported threads property := by
  unfold Reported
  rw [quiet.waitingForIse, quiet.reports]

theorem quiet_nextStage (target : Target R) (threads : Threads R) :
    Quiet threads (threads.nextStage target) := by
  unfold Threads.nextStage
  split <;> exact ⟨rfl, rfl, rfl, rfl, rfl, rfl⟩

theorem quiet_simRun (target : Target R) (silent : ¬ threads.Reporting) :
    Quiet threads (threads.simRun target) := by
  unfold Threads.simRun
  cases place : threads.cmd with
  | reports => exact absurd (.inl place) silent
  | reportsLast => exact absurd (.inr place) silent
  | begins =>
      have quiet := quiet_nextStage target
        { threads with loop := threads.loop.set, ticklast := false }
      exact ⟨quiet.waitingForIse, quiet.waitingForCmd, quiet.ise, quiet.mTgtState, quiet.reports,
        quiet.published⟩
  | leaves =>
      dsimp only
      split
      · exact ⟨rfl, rfl, rfl, rfl, rfl, rfl⟩
      · exact quiet_nextStage target threads
  | testsStop | testsTime => dsimp only; split <;> exact ⟨rfl, rfl, rfl, rfl, rfl, rfl⟩
  | observes | keepsStop | propagates | finishes | ended => exact ⟨rfl, rfl, rfl, rfl, rfl, rfl⟩

variable [IsStrictOrderedRing R]

theorem placed_nextStage (rests : Rests origin target threads.loop) :
    Placed origin target (threads.nextStage target) := by
  unfold Threads.nextStage
  split
  · exact .rests (.inr (.inr (.inl rfl))) rests
  · obtain ⟨begun, within⟩ := rests.staged
    exact .observes rfl within fun later => absurd rfl later

theorem placed_simRun (placed : Placed origin target threads) (silent : ¬ threads.Reporting) :
    Placed origin target (threads.simRun target) := by
  have quiet := quiet_simRun target silent
  unfold Threads.simRun at quiet ⊢
  cases placed with
  | begins place there none =>
      rw [place]
      refine placed_nextStage ⟨rfl, rfl, fun i => ?_, le_refl _, ?_⟩
      · change threads.loop.memory.x i = origin i + 0 * target.rate i
        rw [there, zero_mul, add_zero]
      · unfold Loop.set Clock.set tmax eps
        positivity
  | @observes place begun pass within later =>
      rw [place] at quiet ⊢
      dsimp only at quiet ⊢
      by_cases first : pass = 0
      · have ready := within.ready
        rw [decide_eq_true first] at ready
        rw [first] at within
        exact .reports (by rw [ready]; rfl) within
      · have ready := within.ready
        rw [decide_eq_false first] at ready
        obtain ⟨ahead, reported⟩ := later first
        exact .propagates (by rw [ready]; rfl) within ahead (quiet.reported.mpr reported)
  | reports place within => exact absurd (.inl place) silent
  | tests place within reported =>
      rcases place with place | place
      · rw [place] at quiet ⊢
        dsimp only at quiet ⊢
        split
        · exact .rests (.inl rfl) within.rests
        · exact .tests (.inr rfl) within reported
      · rw [place] at quiet ⊢
        dsimp only at quiet ⊢
        split
        · exact .rests (.inr (.inl rfl)) (within.rests.setStop _)
        · next before =>
            refine .propagates rfl within ?_ reported
            rw [← within.first]
            exact not_le.mp before
  | propagates place within ahead reported =>
      rw [place] at quiet ⊢
      dsimp only at quiet ⊢
      rcases within.next ahead with ⟨-, following⟩ | ⟨-, -, -, next, begins⟩
      · exact .observes rfl following fun _ => ⟨ahead, reported⟩
      · exact .observes rfl begins fun later => absurd rfl later
  | rests place rests =>
      rcases place with place | place | place | place | place
      · rw [place]
        exact .rests (.inr (.inl rfl)) ⟨rests.ready, rests.kpass, rests.line, rests.least,
          rests.most⟩
      · rw [place]
        dsimp only
        split
        · exact .rests (.inr (.inr (.inl rfl))) rests
        · exact placed_nextStage rests
      · rw [place]
        exact .rests (.inr (.inr (.inr (.inl rfl)))) rests
      · exact absurd (.inr place) silent
      · rw [place]
        exact .rests (.inr (.inr (.inr (.inr place)))) rests

omit [IsStrictOrderedRing R] in
theorem nextStage_t (target : Target R) (threads : Threads R) :
    (threads.nextStage target).loop.clock.t = threads.loop.clock.t := by
  unfold Threads.nextStage
  split <;> rfl

omit [IsStrictOrderedRing R] in
/-- The time goes on only at the end of a pass. -/
theorem simRun_t (begun : threads.cmd ≠ .begins) (ends : threads.cmd ≠ .propagates) :
    (threads.simRun target).loop.clock.t = threads.loop.clock.t := by
  unfold Threads.simRun
  cases place : threads.cmd with
  | begins => exact absurd place begun
  | propagates => exact absurd place ends
  | observes => exact observed_t target threads.loop
  | leaves =>
      dsimp only
      split
      · rfl
      · exact nextStage_t target threads
  | testsStop | testsTime => dsimp only; split <;> rfl
  | reports | keepsStop | finishes | reportsLast | ended => rfl

/-- The time of the end of a pass. -/
theorem Within.next_time {begun loop : Loop R TargetState Unit} {pass : Nat}
    (within : Within origin target begun pass loop) (ahead : begun.clock.t + eps < tmax) :
    begun.clock.t ≤ (loop.propagated integrator).clock.t ∧
      (loop.propagated integrator).clock.t ≤ begun.clock.t1 := by
  rcases within.next ahead with ⟨-, following⟩ | ⟨-, t, -, -⟩
  · have time := following.time
    rw [observed_t] at time
    exact time
  · rw [t]
    exact ⟨by linarith [within.begins.least, eps_pos (R := R)], le_refl _⟩

theorem lately_simRun (placed : Placed origin target threads)
    (lately : Reported threads fun t =>
      t ≤ threads.loop.clock.t ∧ threads.loop.clock.t ≤ t + dt + eps)
    (silent : ¬ threads.Reporting) :
    Reported (threads.simRun target) fun t =>
      t ≤ (threads.simRun target).loop.clock.t ∧
        (threads.simRun target).loop.clock.t ≤ t + dt + eps := by
  rw [(quiet_simRun target silent).reported]
  have still (begun : threads.cmd ≠ .begins) (ends : threads.cmd ≠ .propagates) :
      Reported threads fun t => t ≤ (threads.simRun target).loop.clock.t ∧
        (threads.simRun target).loop.clock.t ≤ t + dt + eps := by
    rw [simRun_t begun ends]
    exact lately
  cases placed with
  | begins place there none =>
      intro waiting
      rw [none] at waiting
      cases waiting
  | propagates place within ahead reported =>
      intro waiting
      obtain ⟨report, last, same⟩ := reported waiting
      have time := within.next_time ahead
      refine ⟨report, last, ?_⟩
      unfold Threads.simRun
      rw [place, same]
      exact ⟨time.1, time.2.trans within.short⟩
  | observes place | reports place =>
      rw [place] at still
      exact still CmdPlace.noConfusion CmdPlace.noConfusion
  | tests place =>
      rcases place with place | place <;> rw [place] at still <;>
        exact still CmdPlace.noConfusion CmdPlace.noConfusion
  | rests place =>
      rcases place with place | place | place | place | place <;> rw [place] at still <;>
        exact still CmdPlace.noConfusion CmdPlace.noConfusion

omit [IsStrictOrderedRing R] in
theorem closed_nextStage (closed : threads.ticklast = false) :
    (threads.nextStage target).ticklast = true ↔
      (threads.nextStage target).cmd = .reportsLast ∨ (threads.nextStage target).cmd = .ended := by
  unfold Threads.nextStage
  split <;> simp [closed]

omit [IsStrictOrderedRing R] in
theorem closed_simRun (closed : threads.ticklast = true ↔
      threads.cmd = .reportsLast ∨ threads.cmd = .ended) :
    (threads.simRun target).ticklast = true ↔
      (threads.simRun target).cmd = .reportsLast ∨ (threads.simRun target).cmd = .ended := by
  unfold Threads.simRun
  cases place : threads.cmd with
  | begins => exact closed_nextStage rfl
  | leaves =>
      rw [place] at closed
      have goes : threads.ticklast = false := by
        by_contra ticks
        simp [closed] at ticks
      dsimp only
      split
      · simp [goes]
      · exact closed_nextStage goes
  | observes | testsStop | testsTime =>
      rw [place] at closed
      dsimp only
      split <;> simp [closed]
  | ended | reportsLast | reports | keepsStop | propagates | finishes =>
      simp_all [Threads.rpt]

omit [IsStrictOrderedRing R] in
theorem not_copying {ise : IsePlace} (copying : ¬ ise.Copying) (remaining : List TargetState) :
    ise ≠ .copies remaining := by
  rintro rfl
  exact copying trivial

/-- The thread of the simulation goes on without a report. -/
theorem Standing.quiet (standing : Standing origin target threads)
    (silent : ¬ threads.Reporting) : Standing origin target (threads.simRun target) where
  handshake := by
    have quiet := quiet_simRun target silent
    obtain ⟨counted, flags, copying, closed⟩ := standing.handshake
    refine ⟨?_, ?_, ?_, closed_simRun closed⟩
    · rw [quiet.reports, quiet.published, quiet.waitingForIse]
      exact counted
    · rw [quiet.waitingForCmd, quiet.waitingForIse, quiet.ise]
      exact flags
    · rw [quiet.ise, quiet.waitingForIse]
      exact copying
  placed := placed_simRun standing.placed silent
  lately := lately_simRun standing.placed standing.lately silent
  line := by
    rw [(quiet_simRun target silent).reports]
    exact standing.line
  copied := by
    have quiet := quiet_simRun target silent
    rw [quiet.ise, quiet.reports, quiet.mTgtState]
    exact standing.copied
  published := by
    have quiet := quiet_simRun target silent
    rw [quiet.published, quiet.reports]
    exact standing.published

omit [IsStrictOrderedRing R] in
theorem Placed.of_reports (placed : Placed origin target threads)
    (place : threads.cmd = .reports) : ∃ begun, Within origin target begun 0 threads.loop := by
  cases placed with
  | reports _ within => exact ⟨_, within⟩
  | begins there | observes there | propagates there =>
      rw [place] at there
      cases there
  | tests there => rcases there with there | there <;> rw [place] at there <;> cases there
  | rests there =>
      rcases there with there | there | there | there | there <;> rw [place] at there <;>
        cases there

omit [IsStrictOrderedRing R] in
theorem Placed.of_reportsLast (placed : Placed origin target threads)
    (place : threads.cmd = .reportsLast) : Rests origin target threads.loop := by
  cases placed with
  | rests _ rests => exact rests
  | begins there | observes there | reports there | propagates there =>
      rw [place] at there
      cases there
  | tests there => rcases there with there | there <;> rw [place] at there <;> cases there

/-- Reports are made where a step begins. -/
theorem Placed.rests_of_reporting (placed : Placed origin target threads)
    (reporting : threads.Reporting) : Rests origin target threads.loop := by
  rcases reporting with place | place
  · obtain ⟨begun, within⟩ := placed.of_reports place
    exact within.rests
  · exact placed.of_reportsLast place

/-- A report is made, since the last one has been published. -/
theorem Standing.rpt (standing : Standing origin target threads) (reporting : threads.Reporting)
    (published : threads.waitingForIse = false) :
    Standing origin target (threads.simRun target) := by
  have rests := standing.placed.rests_of_reporting reporting
  obtain ⟨counted, flags, copying, closed⟩ := standing.handshake
  have outside : ¬ threads.ise.Copying := by
    intro copies
    rw [copying copies] at published
    cases published
  obtain ⟨cmd, made, placed, after⟩ : ∃ cmd,
      threads.simRun target = { threads.rpt with cmd := cmd } ∧
        Placed origin target { threads.rpt with cmd := cmd } ∧
          (threads.ticklast = true ↔ cmd = .reportsLast ∨ cmd = .ended) := by
    rcases reporting with place | place
    · obtain ⟨begun, within⟩ := standing.placed.of_reports place
      exact ⟨.testsStop, by unfold Threads.simRun; rw [place],
        .tests (.inl rfl) within fun _ => ⟨_, List.getLast?_concat .., within.first⟩,
        by simp [closed, place]⟩
    · exact ⟨.ended, by unfold Threads.simRun; rw [place],
        .rests (.inr (.inr (.inr (.inr rfl)))) rests, by simp [closed, place]⟩
  rw [made]
  refine ⟨⟨?_, ?_, fun _ => rfl, after⟩, placed, ?_, ?_, ?_, ?_⟩
  · change (threads.reports ++ [_]).length = threads.published.length + 1
    rw [List.length_append, counted, published]
    rfl
  · change false = true ↔ true = false ∨ threads.ise.Copying
    simp [outside]
  · intro _
    refine ⟨_, List.getLast?_concat .., le_refl _, ?_⟩
    change threads.loop.clock.t ≤ threads.loop.clock.t + dt + eps
    linarith [eps_le_dt (R := R), eps_pos (R := R)]
  · intro report member
    rcases List.mem_append.mp member with old | new
    · exact standing.line report old
    · rw [List.mem_singleton.mp new]
      exact ⟨rests.least, rests.most, rests.line⟩
  · exact fun remaining copies => absurd copies (not_copying outside remaining)
  · intro number position found
    obtain ⟨report, earlier, passed⟩ := standing.published number position found
    exact ⟨report, List.getElem?_append_left (List.getElem?_eq_some_iff.mp earlier).1 ▸ earlier,
      passed⟩

theorem Standing.on_line (standing : Standing origin target threads)
    (waiting : threads.waitingForIse = true) : OnLine origin target threads.loop := by
  cases standing.placed with
  | begins place there silent =>
      rw [silent] at waiting
      cases waiting
  | observes place within later => exact within.on_line.of_observed
  | reports place within => exact within.on_line
  | tests place within reported => exact within.on_line
  | propagates place within ahead reported => exact within.on_line
  | rests place rests => exact rests.line

/-- Whatever is read from the target before the next report is near the last one. -/
theorem Standing.passed (standing : Standing origin target threads)
    (waiting : threads.waitingForIse = true) :
    ∃ report ∈ threads.reports.getLast?, ∀ i,
      Passed origin target report i (threads.loop.memory.x i) := by
  obtain ⟨report, last, after, before⟩ := standing.lately waiting
  exact ⟨report, last, fun i => ⟨_, after, before, standing.on_line waiting i⟩⟩

omit [IsStrictOrderedRing R] in
/-- The place of the one thread says nothing of the other. -/
theorem Placed.congr {other : Threads R} (placed : Placed origin target threads)
    (loop : other.loop = threads.loop) (cmd : other.cmd = threads.cmd)
    (waitingForIse : other.waitingForIse = true → threads.waitingForIse = true)
    (reports : other.reports = threads.reports) : Placed origin target other := by
  have reported {property : R → Prop} (holds : Reported threads property) :
      Reported other property := by
    intro waiting
    rw [reports]
    exact holds (waitingForIse waiting)
  cases placed with
  | begins place there silent =>
      refine .begins (cmd.trans place) (loop ▸ there) ?_
      by_contra waiting
      rw [waitingForIse (Bool.eq_true_of_not_eq_false waiting)] at silent
      cases silent
  | observes place within later =>
      rw [← loop] at within
      refine .observes (cmd.trans place) within fun middle => ?_
      exact ⟨(later middle).1, reported (later middle).2⟩
  | reports place within => exact .reports (cmd.trans place) (loop.symm ▸ within)
  | tests place within known =>
      exact .tests (cmd ▸ place) (loop.symm ▸ within) (reported known)
  | propagates place within ahead known =>
      exact .propagates (cmd.trans place) (loop.symm ▸ within) ahead (reported known)
  | rests place rests => exact .rests (cmd ▸ place) (loop.symm ▸ rests)

/-- The other thread goes on in `MonteCarlo_Step`. -/
theorem Standing.monteCarloStep (standing : Standing origin target threads)
    (inside : threads.ise ≠ .outside)
    (awaited : threads.ise = .waits → threads.waitingForCmd = false) :
    Standing origin target threads.monteCarloStep := by
  obtain ⟨counted, flags, copying, closed⟩ := standing.handshake
  unfold Threads.monteCarloStep
  cases place : threads.ise with
  | outside => exact absurd place inside
  | waits =>
      have waiting : threads.waitingForIse = true := by
        by_contra published
        have ready := flags.mpr (.inl (Bool.eq_false_of_not_eq_true published))
        rw [awaited place] at ready
        cases ready
      refine ⟨⟨counted, ?_, fun _ => waiting, closed⟩,
        standing.placed.congr rfl rfl id rfl, standing.lately, standing.line, ?_,
        standing.published⟩
      · exact ⟨fun _ => .inr trivial, fun _ => rfl⟩
      · intro remaining same
        cases same
        obtain ⟨report, last, -⟩ := standing.passed waiting
        exact ⟨report, last, fun i out => by cases i <;> simp at out⟩
  | copies remaining =>
      have copies : threads.ise.Copying := by
        rw [place]
        exact trivial
      have waiting := copying copies
      obtain ⟨report, last, near⟩ := standing.copied remaining place
      cases remaining with
      | cons i remaining =>
          refine ⟨⟨counted, ?_, fun _ => waiting, closed⟩,
            standing.placed.congr rfl rfl id rfl, standing.lately, standing.line, ?_,
            standing.published⟩
          · exact ⟨fun _ => .inr trivial, fun _ => flags.mpr (.inr copies)⟩
          · intro rest same
            cases same
            obtain ⟨latest, same, passed⟩ := standing.passed waiting
            cases Option.mem_unique same last
            refine ⟨report, last, fun j out => ?_⟩
            by_cases own : j = i
            · rw [own]
              dsimp only
              rw [Function.update_self]
              exact passed i
            · dsimp only
              rw [Function.update_of_ne own]
              exact near j fun member => (List.mem_cons.mp member).elim own out
      | nil =>
          refine ⟨⟨?_, ?_, fun outside => outside.elim, closed⟩,
            standing.placed.congr rfl rfl (fun waiting => absurd waiting Bool.false_ne_true) rfl,
            fun waiting => absurd waiting Bool.false_ne_true, standing.line,
            (fun rest same => by cases same), ?_⟩
          · rw [waiting] at counted
            change threads.reports.length = (threads.published ++ [_]).length + 0
            rw [counted, List.length_append]
            rfl
          · exact ⟨fun _ => .inl rfl, fun _ => flags.mpr (.inr copies)⟩
          · intro number position found
            rw [List.getElem?_append] at found
            by_cases earlier : number < threads.published.length
            · rw [if_pos earlier] at found
              exact standing.published number position found
            · rw [if_neg earlier] at found
              obtain ⟨inRange, same⟩ := List.getElem?_eq_some_iff.mp found
              have here : number = threads.published.length := by
                rw [List.length_singleton] at inRange
                omega
              refine ⟨report, ?_, fun i => ?_⟩
              · rw [← Option.mem_def.mp last, List.getLast?_eq_getElem?, counted, waiting, here]
                rfl
              · rw [← same, List.getElem_singleton]
                exact near i List.not_mem_nil

omit [IsStrictOrderedRing R] in
/-- `MonteCarlo_Step` is called. -/
theorem Standing.call (standing : Standing origin target threads)
    (outside : threads.ise = .outside) :
    Standing origin target (threads.step target .monteCarloStep) := by
  obtain ⟨counted, flags, copying, closed⟩ := standing.handshake
  unfold Threads.step
  dsimp only
  split
  · exact standing
  · refine ⟨⟨counted, ?_, fun waits => waits.elim, closed⟩, standing.placed.congr rfl rfl id rfl,
      standing.lately, standing.line, (fun rest same => by cases same), standing.published⟩
    rw [outside] at flags
    exact flags

omit [IsStrictOrderedRing R] in
/-- `Sim::stop` is changed. -/
theorem Standing.processStop (standing : Standing origin target threads) (value : Int) :
    Standing origin target (threads.step target (.processStop value)) := by
  obtain ⟨handshake, placed, lately, line, copied, published⟩ := standing
  refine ⟨⟨handshake.counted, handshake.flags, handshake.copying, handshake.closed⟩, ?_, lately,
    line, copied, published⟩
  cases placed with
  | begins place there silent => exact .begins place there silent
  | observes place within later => exact .observes place (within.setStop value) later
  | reports place within => exact .reports place (within.setStop value)
  | tests place within known => exact .tests place (within.setStop value) known
  | propagates place within ahead known =>
      exact .propagates place (within.setStop value) ahead known
  | rests place rests => exact .rests place (rests.setStop value)

theorem Standing.step (standing : Standing origin target threads) {event : Event}
    (guarded : threads.Guard event) : Standing origin target (threads.step target event) := by
  cases event with
  | cmd =>
      by_cases reporting : threads.Reporting
      · exact standing.rpt reporting (guarded.2 reporting)
      · exact standing.quiet reporting
  | ise => exact standing.monteCarloStep guarded.1 guarded.2
  | monteCarloStep => exact standing.call guarded
  | processStop value => exact standing.processStop value

omit [IsStrictOrderedRing R] in
theorem standing_start (loop : Loop R TargetState Unit) :
    Standing loop.memory.x target (.start loop) where
  handshake := ⟨rfl, by simp [Threads.start], fun outside => outside.elim,
    by simp [Threads.start]⟩
  placed := .begins rfl rfl rfl
  lately waiting := absurd waiting Bool.false_ne_true
  line _ none := absurd none List.not_mem_nil
  copied _ outside := by cases outside
  published _ _ none := by cases none

theorem standing_run {loop : Loop R TargetState Unit} {events : List Event}
    (admitted : (CmdTarget.threads target).Admits (.start loop) events) :
    Standing loop.memory.x target ((CmdTarget.threads target).exec (.start loop) events) :=
  (CmdTarget.threads target).invariant (fun _ _ standing guarded => standing.step guarded)
    (standing_start loop) admitted

end Steps

/-! ## The end of the simulation -/

/-- The last report waits for a step, and no step does anything any more. -/
def Threads.Stuck (threads : Threads R) : Prop :=
  threads.cmd = .reportsLast ∧ threads.waitingForIse = true ∧ threads.ise = .outside

instance (threads : Threads R) : Decidable threads.Stuck :=
  inferInstanceAs (Decidable (_ ∧ _ ∧ _))

/-- How many steps of a clock lie ahead at most, that of now included. -/
def stepsAhead (clock : Clock R) : Nat :=
  if clock.ready then ⌈(tmax - clock.t) / eps⌉₊ else ⌈(tmax - clock.t1) / eps⌉₊ + 1

def passesAhead (clock : Clock R) : Nat := 4 * stepsAhead clock + (3 - clock.kpass)

/-- The places on the way to the end of a stage. -/
def CmdPlace.left : CmdPlace → Nat
  | .begins => 9
  | .observes => 9
  | .reports => 8
  | .testsStop => 7
  | .keepsStop => 6
  | .testsTime => 6
  | .propagates => 5
  | .leaves => 4
  | .finishes => 3
  | .reportsLast => 2
  | .ended => 1

namespace Threads

variable (threads : Threads R)

def passesLeft : Nat :=
  if threads.cmd = .begins then passesAhead threads.loop.clock.set
  else passesAhead threads.loop.clock

def placesLeft : Nat := threads.cmd.left + 10 * threads.stagesLeft

/-- What is left to do until the report has been published. -/
def handing : Nat :=
  if threads.waitingForIse then
    match threads.ise with
    | .outside => 5
    | .waits => 4
    | .copies remaining => remaining.length + 1
  else 0

def work : Nat := 64 * threads.passesLeft + 6 * threads.placesLeft + threads.handing

end Threads

section End

variable [IsStrictOrderedRing R] {origin : TargetState → R} {target : Target R}
  {threads : Threads R}

omit [IsStrictOrderedRing R] in
theorem passesAhead_sample (clock : Clock R) :
    passesAhead (clock.sample (-1) tmax).1 = passesAhead clock := by
  by_cases ready : clock.ready = true
  · obtain ⟨t1, dt, same⟩ := exists_sample clock
    rw [same]
    unfold passesAhead stepsAhead
    dsimp only
    rw [if_pos ready, if_pos ready]
  · rw [Clock.sample_of_not_ready (Bool.eq_false_of_not_eq_true ready)]

omit [IsStrictOrderedRing R] in
theorem passesAhead_reset {clock : Clock R} (ready : clock.ready = true) :
    passesAhead (clock.reset dt) = passesAhead clock := by
  unfold passesAhead stepsAhead Clock.reset
  dsimp only
  rw [if_pos ready, if_pos ready]

theorem stepsAhead_less {t t1 : R} (least : t + eps ≤ t1) (ahead : t + eps < tmax) :
    ⌈(tmax - t1) / eps⌉₊ + 1 ≤ ⌈(tmax - t) / eps⌉₊ := by
  have positive : (0 : R) < eps := eps_pos
  have one : (1 : R) < (tmax - t) / eps := by
    rw [lt_div_iff₀ positive]
    linarith
  have more : (tmax - t1) / eps + 1 ≤ (tmax - t) / eps := by
    rw [div_add_one positive.ne']
    exact div_le_div_of_nonneg_right (by linarith) positive.le
  refine Nat.succ_le_of_lt (Nat.lt_ceil.mpr ?_)
  rcases le_or_gt 0 ((tmax - t1) / eps) with later | earlier
  · exact (Nat.ceil_lt_add_one later).trans_le more
  · rw [Nat.ceil_eq_zero.mpr earlier.le, Nat.cast_zero]
    linarith

/-- Every pass leaves one less. -/
theorem Within.passesAhead_less {begun loop : Loop R TargetState Unit} {pass : Nat}
    (within : Within origin target begun pass loop) (ahead : begun.clock.t + eps < tmax) :
    passesAhead (loop.propagated integrator).clock < passesAhead loop.clock := by
  have kpass : loop.clock.kpass = pass := within.there.kpass
  have ready := within.ready
  have t1 : loop.clock.t1 = begun.clock.t1 := by rw [within.there.clock]
  rcases Nat.lt_or_eq_of_le (Nat.succ_le_of_lt within.within) with more | last
  · change pass + 1 < 4 at more
    have clock : (loop.propagated integrator).clock =
        { loop.clock with t := integrator.time loop.clock, kpass := pass + 1, ready := false } := by
      change loop.clock.updateclockWith 4 (integrator.time loop.clock) = _
      unfold Clock.updateclockWith
      dsimp only
      rw [kpass, Nat.mod_eq_of_lt more, if_neg (Nat.succ_ne_zero pass)]
    rw [clock]
    unfold passesAhead stepsAhead
    rw [kpass, ready, t1]
    dsimp only
    rw [if_neg Bool.false_ne_true]
    by_cases first : pass = 0
    · rw [first] at within
      have less := stepsAhead_less within.begins.least ahead
      rw [decide_eq_true first, if_pos rfl, within.first]
      omega
    · rw [decide_eq_false first, if_neg Bool.false_ne_true]
      omega
  · change pass + 1 = 4 at last
    have clock := (within.there.last within.begins state_implements last).clock
    have busy : ¬ pass = 0 := by omega
    rw [clock]
    unfold passesAhead stepsAhead
    rw [kpass, ready, t1, decide_eq_false busy]
    dsimp only
    rw [if_pos rfl, if_neg Bool.false_ne_true]
    omega

omit [IsStrictOrderedRing R] in
theorem passesLeft_of_begun (begun : threads.cmd ≠ .begins) :
    threads.passesLeft = passesAhead threads.loop.clock := if_neg begun

omit [IsStrictOrderedRing R] in
theorem nextStage_left (target : Target R) (threads : Threads R)
    (ready : threads.loop.clock.ready = true) :
    (threads.nextStage target).passesLeft = passesAhead threads.loop.clock ∧
      (threads.nextStage target).placesLeft ≤ 3 + 10 * threads.stagesLeft := by
  unfold Threads.nextStage
  split
  · exact ⟨passesLeft_of_begun CmdPlace.noConfusion, Nat.le_refl _⟩
  · next left more =>
      refine ⟨(passesLeft_of_begun CmdPlace.noConfusion).trans (passesAhead_reset ready), ?_⟩
      change 9 + 10 * left ≤ _
      omega

omit [IsStrictOrderedRing R] in
/-- A later place of the same pass. -/
theorem left_of_later {next : Threads R} {here : CmdPlace} (there : CmdPlace)
    (place : threads.cmd = here) (arrives : next.cmd = there)
    (later : here ≠ .begins ∧ there ≠ .begins ∧ there.left < here.left)
    (passes : passesAhead next.loop.clock = passesAhead threads.loop.clock)
    (stages : next.stagesLeft = threads.stagesLeft) :
    next.passesLeft ≤ threads.passesLeft ∧ next.placesLeft < threads.placesLeft := by
  subst place arrives
  obtain ⟨begun, goes, less⟩ := later
  rw [passesLeft_of_begun begun, passesLeft_of_begun goes, passes]
  refine ⟨Nat.le_refl _, ?_⟩
  unfold Threads.placesLeft
  rw [stages]
  exact Nat.add_lt_add_right less _

/-- Every step of the simulation's thread leads to a later place of its pass, or to a later pass. -/
theorem simRun_left (placed : Placed origin target threads) (going : threads.cmd ≠ .ended) :
    (threads.simRun target).passesLeft ≤ threads.passesLeft ∧
        (threads.simRun target).placesLeft < threads.placesLeft ∨
      (threads.simRun target).passesLeft < threads.passesLeft ∧
        (threads.simRun target).placesLeft = threads.placesLeft + 4 := by
  have before : threads.placesLeft = threads.cmd.left + 10 * threads.stagesLeft := rfl
  unfold Threads.simRun
  cases placed with
  | begins place there silent =>
      have left : threads.passesLeft = passesAhead threads.loop.clock.set := if_pos place
      obtain ⟨passes, places⟩ := nextStage_left target
        { threads with loop := threads.loop.set, ticklast := false } rfl
      rw [before, place, left]
      refine .inl ⟨passes.le, places.trans_lt ?_⟩
      change 3 + 10 * threads.stagesLeft < 9 + 10 * threads.stagesLeft
      omega
  | observes place within later =>
      have same : passesAhead (threads.loop.observed target.stage tmax).clock =
          passesAhead threads.loop.clock := by
        rw [observed_clock, passesAhead_sample]
      rw [place]
      dsimp only
      split
      · exact .inl (left_of_later .reports place rfl (by decide) same rfl)
      · exact .inl (left_of_later .propagates place rfl (by decide) same rfl)
  | reports place within =>
      rw [place]
      exact .inl (left_of_later .testsStop place rfl (by decide) rfl rfl)
  | tests place within reported =>
      rcases place with place | place <;> rw [place] <;> dsimp only <;> split
      · exact .inl (left_of_later .keepsStop place rfl (by decide) rfl rfl)
      · exact .inl (left_of_later .testsTime place rfl (by decide) rfl rfl)
      · exact .inl (left_of_later .leaves place rfl (by decide) rfl rfl)
      · exact .inl (left_of_later .propagates place rfl (by decide) rfl rfl)
  | propagates place within ahead reported =>
      have begun : threads.cmd ≠ .begins := by
        rw [place]
        decide
      rw [before, passesLeft_of_begun begun, place]
      refine .inr ⟨(passesLeft_of_begun CmdPlace.noConfusion).trans_lt
        (within.passesAhead_less ahead), ?_⟩
      change 9 + 10 * threads.stagesLeft = 5 + 10 * threads.stagesLeft + 4
      omega
  | rests place rests =>
      rcases place with place | place | place | place | place
      · rw [place]
        exact .inl (left_of_later .leaves place rfl (by decide) rfl rfl)
      · rw [place]
        dsimp only
        split
        · exact .inl (left_of_later .finishes place rfl (by decide) rfl rfl)
        · obtain ⟨passes, places⟩ := nextStage_left target threads rests.ready
          have begun : threads.cmd ≠ .begins := by
            rw [place]
            decide
          rw [before, passesLeft_of_begun begun, place]
          exact .inl ⟨passes.le, places.trans_lt (Nat.add_lt_add_right (by decide : 3 < 4) _)⟩
      · rw [place]
        exact .inl (left_of_later .reportsLast place rfl (by decide) rfl rfl)
      · rw [place]
        exact .inl (left_of_later .ended place rfl (by decide) rfl rfl)
      · exact absurd place going

theorem never_ends (standing : Standing origin target threads) (stuck : threads.Stuck)
    {later : List Event} (admitted : (CmdTarget.threads target).Admits threads later) :
    ((CmdTarget.threads target).exec threads later).cmd ≠ .ended := by
  have still := (CmdTarget.threads target).invariant
    (fun threads event (both : Standing origin target threads ∧ threads.Stuck) guarded => by
      obtain ⟨standing, last, waiting, outside⟩ := both
      refine ⟨standing.step guarded, ?_⟩
      cases event with
      | cmd =>
          have published := guarded.2 (.inr last)
          rw [waiting] at published
          cases published
      | ise => exact absurd outside guarded.1
      | monteCarloStep =>
          have closed := standing.handshake.closed.mpr (.inl last)
          change Threads.Stuck (if threads.ticklast then threads else _)
          rw [if_pos closed]
          exact ⟨last, waiting, outside⟩
      | processStop value => exact ⟨last, waiting, outside⟩) ⟨standing, stuck⟩ admitted
  rw [still.2.1]
  decide

omit [IsStrictOrderedRing R] in
theorem simRun_ise (target : Target R) (threads : Threads R) :
    (threads.simRun target).ise = threads.ise := by
  by_cases reporting : threads.Reporting
  · unfold Threads.simRun
    rcases reporting with place | place <;> rw [place] <;> rfl
  · exact (quiet_simRun target reporting).ise

omit [Field R] [LinearOrder R] [FloorRing R] [IsStrictOrderedRing R] in
theorem handing_le (outside : ¬ threads.ise.Copying) : threads.handing ≤ 5 := by
  unfold Threads.handing
  split
  · cases place : threads.ise with
    | outside | waits => decide
    | copies remaining => exact absurd place (not_copying outside remaining)
  · exact Nat.zero_le _

/-- Where nothing waits to be published the thread of the simulation goes on. -/
theorem Standing.goes_on (standing : Standing origin target threads)
    (published : threads.waitingForIse = false) (going : threads.cmd ≠ .ended) :
    ¬ (threads.simRun target).Stuck ∧ (threads.simRun target).work < threads.work := by
  constructor
  · rintro ⟨last, waiting, -⟩
    by_cases reporting : threads.Reporting
    · unfold Threads.simRun at last
      rcases reporting with place | place <;> rw [place] at last <;> cases last
    · rw [(quiet_simRun target reporting).waitingForIse, published] at waiting
      cases waiting
  · have outside : ¬ (threads.simRun target).ise.Copying := by
      rw [simRun_ise]
      intro copies
      rw [standing.handshake.copying copies] at published
      cases published
    have handing := handing_le outside
    have left := simRun_left standing.placed going
    unfold Threads.work
    omega

omit [IsStrictOrderedRing R] in
/-- Where a report waits to be published the other thread can do something about it. -/
theorem Standing.hands_on (standing : Standing origin target threads)
    (waiting : threads.waitingForIse = true) (unstuck : ¬ threads.Stuck)
    (going : threads.cmd ≠ .ended) :
    ∃ event, threads.Guard event ∧ ¬ (threads.step target event).Stuck ∧
      (threads.step target event).work < threads.work := by
  obtain ⟨counted, flags, copying, closed⟩ := standing.handshake
  have same {next : Threads R} (loop : next.loop = threads.loop) (cmd : next.cmd = threads.cmd)
      (stages : next.stagesLeft = threads.stagesLeft) (less : next.handing < threads.handing) :
      next.work < threads.work := by
    unfold Threads.work Threads.passesLeft Threads.placesLeft
    rw [loop, cmd, stages]
    exact Nat.add_lt_add_left less _
  cases place : threads.ise with
  | outside =>
      have ticks : ¬ threads.ticklast = true := fun ticks =>
        (closed.mp ticks).elim (fun last => unstuck ⟨last, waiting, place⟩) going
      have called : threads.step target .monteCarloStep = { threads with ise := .waits } :=
        if_neg ticks
      refine ⟨.monteCarloStep, place, ?_⟩
      rw [called]
      refine ⟨fun stuck => IsePlace.noConfusion stuck.2.2, same rfl rfl rfl ?_⟩
      unfold Threads.handing
      rw [place, if_pos waiting, if_pos waiting]
      exact Nat.lt_succ_self 4
  | waits =>
      have reported : threads.waitingForCmd = false := by
        by_contra awaits
        rcases flags.mp (Bool.eq_true_of_not_eq_false awaits) with published | copies
        · rw [waiting] at published
          cases published
        · rw [place] at copies
          exact copies
      refine ⟨.ise, ⟨by rw [place]; exact IsePlace.noConfusion, fun _ => reported⟩, ?_⟩
      change ¬ threads.monteCarloStep.Stuck ∧ threads.monteCarloStep.work < _
      unfold Threads.monteCarloStep
      rw [place]
      refine ⟨fun stuck => IsePlace.noConfusion stuck.2.2, same rfl rfl rfl ?_⟩
      unfold Threads.handing
      rw [place, if_pos waiting, if_pos waiting]
      exact Nat.lt_succ_self 3
  | copies remaining =>
      refine ⟨.ise, ⟨by rw [place]; exact IsePlace.noConfusion,
        fun waits => IsePlace.noConfusion (place.symm.trans waits)⟩, ?_⟩
      change ¬ threads.monteCarloStep.Stuck ∧ threads.monteCarloStep.work < _
      unfold Threads.monteCarloStep
      rw [place]
      cases remaining with
      | cons i remaining =>
          refine ⟨fun stuck => IsePlace.noConfusion stuck.2.2, same rfl rfl rfl ?_⟩
          unfold Threads.handing
          rw [place, if_pos waiting, if_pos waiting]
          exact Nat.lt_succ_self _
      | nil =>
          refine ⟨fun stuck => Bool.false_ne_true stuck.2.1, same rfl rfl rfl ?_⟩
          unfold Threads.handing
          rw [place, if_pos waiting, if_neg Bool.false_ne_true]
          exact Nat.succ_pos _

/-- From where the last report is not stuck the simulation can be brought to its end. -/
theorem Standing.exists_end (standing : Standing origin target threads)
    (unstuck : ¬ threads.Stuck) :
    ∃ later, (CmdTarget.threads target).Admits threads later ∧
      ((CmdTarget.threads target).exec threads later).cmd = .ended := by
  obtain ⟨later, admitted, -, ended⟩ :=
    (CmdTarget.threads target).exists_finishing_of_wellFounded Nat.lt_wfRel.wf
      (fun threads => Standing origin target threads ∧ ¬ threads.Stuck)
      (fun threads => threads.cmd = .ended) Threads.work
      (fun threads both going => by
        obtain ⟨standing, unstuck⟩ := both
        cases waiting : threads.waitingForIse with
        | false =>
            have guarded : threads.Guard .cmd := ⟨going, fun _ => waiting⟩
            obtain ⟨free, less⟩ := standing.goes_on waiting going
            exact ⟨.cmd, guarded, ⟨standing.step guarded, free⟩, less⟩
        | true =>
            obtain ⟨event, guarded, free, less⟩ := standing.hands_on waiting unstuck going
            exact ⟨event, guarded, ⟨standing.step guarded, free⟩, less⟩)
      _ threads rfl ⟨standing, unstuck⟩
  exact ⟨later, admitted, ended⟩

end End

/--
However the two threads and the stop messages come after one another, at most one report has not
been published; reports are made where the target is on its straight line, within the time, and what
is published of a report is where the target passes in the step after it.  The simulation can be
brought to its end unless it was over before anybody was about to publish the report before the last
one: no step does that any more, and the last report waits for ever.
-/
theorem reports_published [IsStrictOrderedRing R] (target : Target R)
    (loop : Loop R TargetState Unit) (events : List Event)
    (admitted : (threads target).Admits (.start loop) events) :
    let final := (threads target).exec (.start loop) events
    final.reports.length = final.published.length + final.waitingForIse.toNat ∧
      (∀ report ∈ final.reports, 0 ≤ report.1 ∧ report.1 ≤ tmax + eps ∧
        ∀ i, report.2 i = loop.memory.x i + report.1 * target.rate i) ∧
      (∀ (number : Nat) (position : TargetState → R),
        final.published[number]? = some position →
          ∃ report, final.reports[number]? = some report ∧
            ∀ i, Passed loop.memory.x target report i (position i)) ∧
      ((∃ later, (threads target).Admits final later ∧
        ((threads target).exec final later).cmd = .ended) ↔ ¬ final.Stuck) := by
  intro final
  have standing : Standing loop.memory.x target final := standing_run admitted
  refine ⟨standing.handshake.counted, standing.line, standing.published, ?_, standing.exists_end⟩
  rintro ⟨later, admits, ended⟩ stuck
  exact never_ends standing stuck admits ended

/-- The target of a Monte Carlo case. -/
def target : Target ℚ := ⟨-1, 0⟩

def loop : Loop ℚ TargetState Unit where
  clock := ⟨0, 0, 0, 0, 0, true⟩
  memory := ⟨fun | .x => 20 | .y => 5, fun _ => 0, (), 0⟩
  registers _ := ⟨0, 0, 0, 0, 0, 0, 0, 0, 0, 0⟩
  stop0 := 0

/-- The first report is published, and the simulation is stopped before the second one is. -/
def stoppedEarly : List Event :=
  [.cmd, .cmd, .cmd, .monteCarloStep, .ise, .ise, .ise, .ise, .processStop 1, .cmd, .cmd, .cmd,
    .cmd, .cmd, .processStop (-1), .cmd, .cmd, .cmd, .cmd]

theorem reports_published_stoppedEarly :
    let final := (threads target).exec (.start loop) stoppedEarly
    final.reports.length = 2 ∧ final.published.length = 1 ∧
      ¬ ∃ later, (threads target).Admits final later ∧
        ((threads target).exec final later).cmd = .ended := by
  intro final
  have admitted : (threads target).Admits (.start loop) stoppedEarly := by decide
  have stuck : final.Stuck := by decide
  exact ⟨by decide, by decide,
    fun ends => (reports_published target loop stoppedEarly admitted).2.2.2.mp ends stuck⟩

end CmdTarget

end Nise.Models
