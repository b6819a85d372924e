import Nise.Models.Osk.State

/-!
# The simulation kernel

The kernel runs the blocks of a stage.  In every pass all blocks are updated, and all variables that
are integrated are moved on, until a block asks for a stop or the time is up.  What the blocks have
seen at the beginnings of the steps is then an integration by the method of their integrator.
-/

namespace Nise.Models.Osk

open Nise.Lib

section Kernel

variable {R Variable Rest : Type*} [Field R] [LinearOrder R] [FloorRing R]

/-- The variables that are integrated, their derivatives, whatever else the blocks keep, and
`Sim::stop`. -/
structure Memory (R Variable Rest : Type*) where
  x : Variable → R
  xd : Variable → R
  rest : Rest
  stop : Int

/-- The blocks of a stage, in their order: they give the derivatives, keep the rest between the
passes of a step, and touch the clock only by sampling it. -/
structure Stage (R Variable Rest : Type*) [Field R] [LinearOrder R] [FloorRing R] where
  slope : Rest → R → (Variable → R) → Variable → R
  init : Memory R Variable Rest → Memory R Variable Rest
  update : Clock R → Memory R Variable Rest → Clock R × Memory R Variable Rest
  rpt : Clock R → Memory R Variable Rest → Clock R
  update_sampled : ∀ clock memory, Sampled clock (update clock memory).1
  update_x : ∀ clock memory, (update clock memory).2.x = memory.x
  update_xd : ∀ clock memory, (update clock memory).2.xd =
    slope (update clock memory).2.rest clock.t memory.x
  update_rest : ∀ clock memory, clock.ready = false → (update clock memory).2.rest = memory.rest
  rpt_sampled : ∀ clock memory, Sampled clock (rpt clock memory)

structure Loop (R Variable Rest : Type*) where
  clock : Clock R
  memory : Memory R Variable Rest
  registers : Variable → Registers R
  stop0 : Int

variable (integrator : Integrator R) (stage : Stage R Variable Rest) (tmax : R)

/-- The first part of the loop: the clock is sampled, the blocks are updated and report. -/
def Loop.observed (loop : Loop R Variable Rest) : Loop R Variable Rest :=
  let updated := stage.update (loop.clock.sample (-1) tmax).1 loop.memory
  { loop with
    clock := if updated.1.ready then stage.rpt updated.1 updated.2 else updated.1
    memory := updated.2 }

/-- The conditions for `break`. -/
def Loop.leaves (loop : Loop R Variable Rest) : Bool :=
  loop.clock.ready &&
    (decide (loop.memory.stop ≠ loop.stop0) || decide (tmax ≤ loop.clock.t + eps))

/-- The second part: `propagateStates` of all blocks, and `updateclock`. -/
def Loop.propagated (loop : Loop R Variable Rest) : Loop R Variable Rest :=
  let moved (i : Variable) := integrator.propagate loop.clock.kpass loop.clock.dt
    (loop.registers i) (loop.memory.x i) (loop.memory.xd i)
  { loop with
    clock := integrator.updateclock loop.clock
    memory := { loop.memory with x := fun i => (moved i).2 }
    registers := fun i => (moved i).1 }

/-- The loop of `Sim::run` for a stage, for a number of passes at most. -/
def run : Nat → Loop R Variable Rest → Option (Loop R Variable Rest)
  | 0, _ => none
  | passes + 1, loop =>
      let loop := loop.observed stage tmax
      if loop.leaves tmax then some loop
      else run passes (loop.propagated integrator)

/-- What becomes of `Sim::stop` and `Sim::stop0` when the loop has been left. -/
def Loop.stopped (loop : Loop R Variable Rest) : Loop R Variable Rest :=
  if loop.memory.stop ≠ loop.stop0 then { loop with stop0 := loop.memory.stop }
  else { loop with memory := { loop.memory with stop := -1 } }

/-- A stage and its part of `dts`. -/
structure TimedStage (R Variable Rest : Type*) [Field R] [LinearOrder R] [FloorRing R]
    extends Stage R Variable Rest where
  dts : R
  coarse : eps ≤ dts

def Loop.staged (timed : TimedStage R Variable Rest) (loop : Loop R Variable Rest) :
    Loop R Variable Rest :=
  { loop with clock := loop.clock.reset timed.dts, memory := timed.init loop.memory }

/-- The stages of `Sim::run`, one after another. -/
def runStages (passes : Nat) :
    List (TimedStage R Variable Rest) → Loop R Variable Rest → Option (Loop R Variable Rest)
  | [], loop => some loop
  | timed :: rest, loop =>
      (run integrator timed.toStage tmax passes (loop.staged timed)).bind fun left =>
        if left.stopped.memory.stop < 0 then some left.stopped
        else runStages passes rest left.stopped

def Loop.set (loop : Loop R Variable Rest) : Loop R Variable Rest :=
  { loop with clock := loop.clock.set, memory := { loop.memory with stop := 0 }, stop0 := 0 }

/-- `Sim::run`, for a number of passes at most in every stage. -/
def simRun (vStage : List (TimedStage R Variable Rest)) (passes : Nat)
    (loop : Loop R Variable Rest) : Option (Loop R Variable Rest) :=
  runStages integrator tmax passes vStage loop.set

end Kernel

section Passes

variable {R Variable Rest : Type*} [Field R] [LinearOrder R] [FloorRing R]
  {integrator : Integrator R} {method : RungeKutta R} {stage : Stage R Variable Rest} {tmax : R}
  {loop begun : Loop R Variable Rest}

/-- The slopes of the step that begins here. -/
def Loop.slopes (method : RungeKutta R) (stage : Stage R Variable Rest)
    (begun : Loop R Variable Rest) : Nat → Variable → R :=
  method.slope (stage.slope begun.memory.rest) begun.clock.dt begun.clock.t begun.memory.x

/-- What the loop has come to in a pass of the step that has begun. -/
structure At (integrator : Integrator R) (method : RungeKutta R) (stage : Stage R Variable Rest)
    (begun : Loop R Variable Rest) (pass : Nat) (loop : Loop R Variable Rest) : Prop where
  clock : loop.clock = { begun.clock with
    t := begun.clock.t + method.node pass * begun.clock.dt, kpass := pass,
    ready := decide (pass = 0) }
  moved : ∀ i, (loop.registers i, loop.memory.x i) =
    integrator.after begun.clock.dt (begun.registers i) (begun.memory.x i)
      (fun stages => begun.slopes method stage stages i) pass
  xd : loop.memory.xd = begun.slopes method stage pass
  rest : loop.memory.rest = begun.memory.rest

/-- A step begins here, once the blocks have been updated. -/
structure Begun (stage : Stage R Variable Rest) (begun : Loop R Variable Rest) : Prop where
  ready : begun.clock.ready = true
  kpass : begun.clock.kpass = 0
  step : begun.clock.dt = begun.clock.t1 - begun.clock.t
  least : begun.clock.t + eps ≤ begun.clock.t1
  xd : begun.memory.xd = stage.slope begun.memory.rest begun.clock.t begun.memory.x

theorem Begun.at_zero (holds : Begun stage begun) (implements : Implements integrator method) :
    At integrator method stage begun 0 begun where
  clock := by
    obtain ⟨clock, memory, registers⟩ := begun
    obtain ⟨dt, dtp, t, t1, kpass, ready⟩ := clock
    obtain ⟨rfl, rfl, -, -, -⟩ := holds
    rw [implements.start]
    simp
  moved _ := rfl
  xd := by
    have point : method.point (stage.slope begun.memory.rest) begun.clock.dt begun.clock.t
        begun.memory.x 0 = begun.memory.x := by
      funext i
      simp [RungeKutta.point, RungeKutta.along]
    unfold Loop.slopes
    rw [RungeKutta.slope_eq, point, implements.start, zero_mul, add_zero]
    exact holds.xd
  rest := rfl

/-- The blocks only sample the clock. -/
theorem Loop.observed_sampled (loop : Loop R Variable Rest) :
    Sampled (loop.clock.sample (-1) tmax).1 (loop.observed stage tmax).clock := by
  have updated := stage.update_sampled (loop.clock.sample (-1) tmax).1 loop.memory
  unfold Loop.observed
  dsimp only
  split
  · exact updated.trans (stage.rpt_sampled _ _)
  · exact updated

theorem At.kpass {pass : Nat} (there : At integrator method stage begun pass loop) :
    loop.clock.kpass = pass := by
  rw [there.clock]

/-- The variables and the registers after one more pass. -/
theorem At.propagated_moved {pass : Nat} (there : At integrator method stage begun pass loop)
    (i : Variable) :
    ((loop.propagated integrator).registers i, (loop.propagated integrator).memory.x i) =
      integrator.after begun.clock.dt (begun.registers i) (begun.memory.x i)
        (fun stages => begun.slopes method stage stages i) (pass + 1) := by
  have moved := there.moved i
  have kpass := there.kpass
  have dt : loop.clock.dt = begun.clock.dt := by rw [there.clock]
  change integrator.propagate loop.clock.kpass loop.clock.dt (loop.registers i)
    (loop.memory.x i) (loop.memory.xd i) = integrator.propagate pass begun.clock.dt _ _ _
  rw [← moved, kpass, dt, there.xd]

theorem At.time {pass : Nat} (there : At integrator method stage begun pass loop)
    (holds : Begun stage begun) (implements : Implements integrator method)
    (within : pass < method.stages) :
    integrator.time loop.clock =
      if pass + 1 = method.stages then begun.clock.t1
      else begun.clock.t + method.node (pass + 1) * begun.clock.dt := by
  have kpass := there.kpass
  have dt : loop.clock.dt = begun.clock.dt := by rw [there.clock]
  have t1 : loop.clock.t1 = begun.clock.t1 := by rw [there.clock]
  have law := implements.time loop.clock begun.clock.t (kpass ▸ within)
    (by rw [there.clock]) (by rw [t1, dt, holds.step, add_sub_cancel])
  rw [kpass, dt, t1] at law
  exact law

/-- One pass of a step that has not ended. -/
theorem At.next {pass : Nat} (there : At integrator method stage begun pass loop)
    (holds : Begun stage begun) (implements : Implements integrator method)
    (within : pass + 1 < method.stages) :
    At integrator method stage begun (pass + 1)
      ((loop.propagated integrator).observed stage tmax) := by
  have clock : (loop.propagated integrator).clock = { begun.clock with
      t := begun.clock.t + method.node (pass + 1) * begun.clock.dt, kpass := pass + 1,
      ready := false } := by
    have time := there.time holds implements (by omega)
    rw [if_neg (by omega)] at time
    have kpass := there.kpass
    have still : (loop.clock.kpass + 1) % integrator.passes = pass + 1 := by
      rw [implements.passes, kpass, Nat.mod_eq_of_lt within]
    change loop.clock.updateclockWith integrator.passes (integrator.time loop.clock) = _
    unfold Clock.updateclockWith
    dsimp only
    rw [still, if_neg (Nat.succ_ne_zero pass), time, there.clock]
  have busy : (loop.propagated integrator).clock.ready = false := by rw [clock]
  have sampled : ((loop.propagated integrator).clock.sample (-1) tmax).1 =
      (loop.propagated integrator).clock := by
    rw [Clock.sample_of_not_ready busy]
  have observed : ((loop.propagated integrator).observed stage tmax).clock =
      (loop.propagated integrator).clock := by
    have unchanged : Sampled ((loop.propagated integrator).clock.sample (-1) tmax).1
        ((loop.propagated integrator).observed stage tmax).clock := Loop.observed_sampled _
    rw [sampled] at unchanged
    exact unchanged.of_not_ready busy
  have memory : ((loop.propagated integrator).observed stage tmax).memory =
      (stage.update (loop.propagated integrator).clock (loop.propagated integrator).memory).2 := by
    unfold Loop.observed
    dsimp only
    rw [sampled]
  have rest : ((loop.propagated integrator).observed stage tmax).memory.rest =
      begun.memory.rest := by
    rw [memory, stage.update_rest _ _ busy]
    exact there.rest
  have x : ((loop.propagated integrator).observed stage tmax).memory.x =
      (loop.propagated integrator).memory.x := by
    rw [memory, stage.update_x]
  refine ⟨?_, fun i => ?_, ?_, rest⟩
  · rw [observed, clock]
    rfl
  · rw [x]
    exact there.propagated_moved i
  · have point : (loop.propagated integrator).memory.x =
        method.point (stage.slope begun.memory.rest) begun.clock.dt begun.clock.t
          begun.memory.x (pass + 1) := by
      funext i
      rw [show (loop.propagated integrator).memory.x i = _ from
        congrArg Prod.snd (there.propagated_moved i)]
      exact implements.point _ _ _ _ (pass + 1) within
    have again := stage.update_xd (loop.propagated integrator).clock
      (loop.propagated integrator).memory
    rw [← memory, rest, point, clock] at again
    rw [again]
    exact (RungeKutta.slope_eq ..).symm

/-- What the loop has come to when a step is over. -/
structure Ended (method : RungeKutta R) (stage : Stage R Variable Rest)
    (begun next : Loop R Variable Rest) : Prop where
  clock : next.clock = { begun.clock with
    t := begun.clock.t1, kpass := 0, ready := true,
    t1 := ⌊(begun.clock.t1 + eps) / begun.clock.dtp + 1⌋ * begun.clock.dtp }
  x : next.memory.x =
    method.step (stage.slope begun.memory.rest) begun.clock.dt begun.clock.t begun.memory.x

/-- The last pass of a step. -/
theorem At.last {pass : Nat} (there : At integrator method stage begun pass loop)
    (holds : Begun stage begun) (implements : Implements integrator method)
    (ends : pass + 1 = method.stages) : Ended method stage begun (loop.propagated integrator) where
  clock := by
    have time := there.time holds implements (by omega)
    rw [if_pos ends] at time
    have kpass := there.kpass
    have around : (loop.clock.kpass + 1) % integrator.passes = 0 := by
      rw [implements.passes, kpass, ends, Nat.mod_self]
    change loop.clock.updateclockWith integrator.passes (integrator.time loop.clock) = _
    unfold Clock.updateclockWith
    dsimp only
    rw [around, if_pos rfl, time, there.clock]
  x := by
    funext i
    rw [show (loop.propagated integrator).memory.x i = _ from
      congrArg Prod.snd (there.propagated_moved i), ends]
    exact implements.result _ _ _ _

theorem At.leaves {pass : Nat} (there : At integrator method stage begun (pass + 1) loop) :
    loop.leaves tmax = false := by
  have ready : loop.clock.ready = false := by
    rw [there.clock]
    exact decide_eq_false (Nat.succ_ne_zero pass)
  unfold Loop.leaves
  rw [ready, Bool.false_and]

theorem run_succ (passes : Nat) (loop : Loop R Variable Rest)
    (stays : (loop.observed stage tmax).leaves tmax = false) :
    run integrator stage tmax (passes + 1) loop =
      run integrator stage tmax passes ((loop.observed stage tmax).propagated integrator) := by
  unfold run
  dsimp only
  rw [stays]
  cases passes <;> rfl

theorem run_leaves (passes : Nat) (loop : Loop R Variable Rest)
    (leaves : (loop.observed stage tmax).leaves tmax = true) :
    run integrator stage tmax (passes + 1) loop = some (loop.observed stage tmax) := by
  unfold run
  dsimp only
  rw [if_pos leaves]

/-- The loop gets to the end of a step from each of its passes. -/
theorem At.ends {rest : Nat} : ∀ {pass : Nat} {loop : Loop R Variable Rest},
    At integrator method stage begun pass loop → Begun stage begun →
    Implements integrator method → pass + 1 + rest = method.stages →
    ∃ next, Ended method stage begun next ∧ ∀ passes,
      run integrator stage tmax (passes + rest) (loop.propagated integrator) =
        run integrator stage tmax passes next := by
  induction rest with
  | zero =>
      intro pass loop there holds implements ends
      exact ⟨_, there.last holds implements ends, fun _ => rfl⟩
  | succ rest ih =>
      intro pass loop there holds implements ends
      have following : At integrator method stage begun (pass + 1)
          ((loop.propagated integrator).observed stage tmax) :=
        there.next holds implements (by omega)
      obtain ⟨next, ended, runs⟩ := ih following holds implements (by omega)
      refine ⟨next, ended, fun passes => ?_⟩
      rw [← runs passes, ← Nat.add_assoc]
      exact run_succ _ _ following.leaves

end Passes

section Steps

variable {R Variable Rest : Type*} [Field R] [LinearOrder R] [FloorRing R]
  [IsStrictOrderedRing R] {integrator : Integrator R} {method : RungeKutta R}
  {stage : Stage R Variable Rest} {tmax : R} {loop begun next : Loop R Variable Rest}

/-- The clock is ready for a step. -/
structure Fresh (clock : Clock R) : Prop where
  ready : clock.ready = true
  kpass : clock.kpass = 0
  coarse : eps ≤ clock.dtp
  least : clock.t + eps ≤ clock.t1
  most : clock.t1 ≤ clock.t + clock.dtp + eps

theorem Fresh.sampled {clock : Clock R} (fresh : Fresh clock) :
    Shortened clock (clock.sample (-1) tmax).1 :=
  sample_shortened fresh.ready fresh.least (-1) tmax (neg_ne_zero.mpr one_ne_zero)

/-- The blocks can only shorten what the end of the simulation has left of the step. -/
theorem Fresh.updated (fresh : Fresh loop.clock) :
    Shortened (loop.clock.sample (-1) tmax).1 (loop.observed stage tmax).clock := by
  have first : Shortened loop.clock (loop.clock.sample (-1) tmax).1 := fresh.sampled
  refine loop.observed_sampled.shortened ?_ first.ahead ?_
  · rw [first.same]
    exact fresh.ready
  · rw [first.same]

theorem Fresh.observed (fresh : Fresh loop.clock) :
    Shortened loop.clock (loop.observed stage tmax).clock :=
  fresh.sampled.trans fresh.updated

theorem Fresh.begins (fresh : Fresh loop.clock) : Begun stage (loop.observed stage tmax) where
  ready := by
    rw [fresh.observed.same]
    exact fresh.ready
  kpass := by
    rw [fresh.observed.same]
    exact fresh.kpass
  step := by rw [fresh.observed.same]
  least := fresh.observed.ahead
  xd := by
    have t : (loop.clock.sample (-1) tmax).1.t = (loop.observed stage tmax).clock.t := by
      rw [fresh.updated.same]
    have updated := stage.update_xd (loop.clock.sample (-1) tmax).1 loop.memory
    rw [t, ← stage.update_x (loop.clock.sample (-1) tmax).1] at updated
    exact updated

/-- After a step the clock is ready for the next one. -/
theorem Ended.fresh (ended : Ended method stage begun next) (coarse : eps ≤ begun.clock.dtp) :
    Fresh next.clock := by
  have positive : 0 < begun.clock.dtp := eps_pos.trans_le coarse
  have above := next_sample begun.clock.t1 begun.clock.dtp positive
  have below := Int.floor_le ((begun.clock.t1 + eps) / begun.clock.dtp + 1)
  have most : ⌊(begun.clock.t1 + eps) / begun.clock.dtp + 1⌋ * begun.clock.dtp ≤
      begun.clock.t1 + begun.clock.dtp + eps := by
    calc (⌊(begun.clock.t1 + eps) / begun.clock.dtp + 1⌋ : R) * begun.clock.dtp
        ≤ ((begun.clock.t1 + eps) / begun.clock.dtp + 1) * begun.clock.dtp :=
          mul_le_mul_of_nonneg_right below positive.le
      _ = begun.clock.t1 + begun.clock.dtp + eps := by
          rw [add_mul, div_mul_cancel₀ _ positive.ne']
          ring
  rw [ended.clock]
  exact ⟨rfl, rfl, coarse, above.le, most⟩

/-- What the blocks have seen at the beginnings of two steps, one of which follows the other. -/
structure Tick (method : RungeKutta R) (stage : Stage R Variable Rest) (tmax dtp : R)
    (before after : Loop R Variable Rest) : Prop where
  stays : before.leaves tmax = false
  least : before.clock.t + eps ≤ after.clock.t
  most : after.clock.t ≤ before.clock.t + dtp + eps
  /-- The variables have gone a step of the method, along the slopes that the blocks give. -/
  x : after.memory.x = method.step (stage.slope before.memory.rest)
    (after.clock.t - before.clock.t) before.clock.t before.memory.x

/-- A step of the kernel. -/
theorem Fresh.step (fresh : Fresh loop.clock) (implements : Implements integrator method)
    (stays : (loop.observed stage tmax).leaves tmax = false) :
    ∃ next, Fresh next.clock ∧ next.clock.dtp = loop.clock.dtp ∧
      next.clock.t = (loop.observed stage tmax).clock.t1 ∧
      Tick method stage tmax loop.clock.dtp (loop.observed stage tmax)
        (next.observed stage tmax) ∧
      ∀ passes, run integrator stage tmax (passes + method.stages) loop =
        run integrator stage tmax passes next := by
  have begun : Begun stage (loop.observed stage tmax) := fresh.begins
  have dtp : (loop.observed stage tmax).clock.dtp = loop.clock.dtp := by rw [fresh.observed.same]
  have t : (loop.observed stage tmax).clock.t = loop.clock.t := by rw [fresh.observed.same]
  have positive := implements.positive
  obtain ⟨next, ended, runs⟩ : ∃ next, Ended method stage (loop.observed stage tmax) next ∧
      ∀ passes, run integrator stage tmax (passes + (method.stages - 1))
          ((loop.observed stage tmax).propagated integrator) =
        run integrator stage tmax passes next :=
    (begun.at_zero implements).ends begun implements (by omega)
  have again : Fresh next.clock := ended.fresh (by rw [dtp]; exact fresh.coarse)
  have time : next.clock.t = (loop.observed stage tmax).clock.t1 := by rw [ended.clock]
  have seen : (next.observed stage tmax).clock.t = (loop.observed stage tmax).clock.t1 := by
    rw [← time, again.observed.same]
  refine ⟨next, again, by rw [ended.clock]; exact dtp, time, ⟨stays, ?_, ?_, ?_⟩, fun passes => ?_⟩
  · rw [seen]
    exact begun.least
  · rw [seen, t]
    exact fresh.observed.most.trans fresh.most
  · rw [seen, ← begun.step, ← ended.x]
    exact stage.update_x _ _
  · have whole : passes + method.stages = passes + (method.stages - 1) + 1 := by omega
    rw [whole, run_succ _ _ stays, runs]

/-- What the loop has come to when a stage is left. -/
structure Finished (method : RungeKutta R) (stage : Stage R Variable Rest) (tmax : R)
    (loop left : Loop R Variable Rest) : Prop where
  ready : left.clock.ready = true
  kpass : left.clock.kpass = 0
  leaves : left.leaves tmax = true
  ticks : Relation.ReflTransGen (Tick method stage tmax loop.clock.dtp)
    (loop.observed stage tmax) left
  least : loop.clock.t ≤ left.clock.t
  most : left.clock.t ≤ max loop.clock.t (tmax + eps)

/-- No step goes far beyond the end of the simulation. -/
theorem Fresh.in_time (fresh : Fresh loop.clock) (ahead : loop.clock.t + eps ≤ tmax) :
    (loop.observed stage tmax).clock.t1 ≤ tmax + eps :=
  fresh.updated.most.trans (sample_event fresh.ready ahead)

/-- A stage that is left at once. -/
theorem Fresh.finished (fresh : Fresh loop.clock)
    (leaves : (loop.observed stage tmax).leaves tmax = true) :
    Finished method stage tmax loop (loop.observed stage tmax) where
  ready := by
    rw [fresh.observed.same]
    exact fresh.ready
  kpass := by
    rw [fresh.observed.same]
    exact fresh.kpass
  leaves := leaves
  ticks := .refl
  least := by rw [fresh.observed.same]
  most := by
    rw [fresh.observed.same]
    exact le_max_left ..

theorem Loop.ahead_of_stays (fresh : Fresh loop.clock)
    (stays : (loop.observed stage tmax).leaves tmax = false) : loop.clock.t + eps < tmax := by
  have ready : (loop.observed stage tmax).clock.ready = true := by
    rw [fresh.observed.same]
    exact fresh.ready
  have t : (loop.observed stage tmax).clock.t = loop.clock.t := by rw [fresh.observed.same]
  unfold Loop.leaves at stays
  rw [ready, Bool.true_and, Bool.or_eq_false_iff, decide_eq_false_iff_not,
    decide_eq_false_iff_not, t] at stays
  exact not_le.mp stays.2

/-- Every stage is left: the clock goes on in each step by no less than the tolerance. -/
theorem Fresh.finishes (implements : Implements integrator method) (steps : Nat) :
    ∀ {loop : Loop R Variable Rest}, Fresh loop.clock → tmax ≤ loop.clock.t + steps * eps →
    ∃ left, Finished method stage tmax loop left ∧
      ∀ more, run integrator stage tmax (more + 1 + steps * method.stages) loop = some left := by
  induction steps with
  | zero =>
      intro loop fresh near
      have leaves : (loop.observed stage tmax).leaves tmax = true := by
        by_contra stays
        have ahead := Loop.ahead_of_stays fresh (Bool.eq_false_of_not_eq_true stays)
        rw [Nat.cast_zero, zero_mul, add_zero] at near
        linarith [eps_pos (R := R)]
      refine ⟨_, fresh.finished leaves, fun more => ?_⟩
      rw [Nat.zero_mul]
      exact run_leaves _ _ leaves
  | succ steps ih =>
      intro loop fresh near
      rcases Bool.eq_false_or_eq_true ((loop.observed stage tmax).leaves tmax) with leaves | stays
      · refine ⟨_, fresh.finished leaves, fun more => ?_⟩
        have whole : more + 1 + (steps + 1) * method.stages =
            more + (steps + 1) * method.stages + 1 := by omega
        rw [whole]
        exact run_leaves _ _ leaves
      · obtain ⟨next, again, dtp, time, tick, runs⟩ := fresh.step implements stays
        have ahead := Loop.ahead_of_stays fresh stays
        have least : loop.clock.t + eps ≤ (loop.observed stage tmax).clock.t1 :=
          fresh.observed.least
        have near' : tmax ≤ next.clock.t + steps * eps := by
          rw [time]
          push_cast at near
          linarith
        obtain ⟨left, finished, enough⟩ := ih again near'
        have in_time : next.clock.t ≤ tmax + eps := by
          rw [time]
          exact fresh.in_time ahead.le
        refine ⟨left, ⟨finished.ready, finished.kpass, finished.leaves, ?_, ?_, ?_⟩, fun more => ?_⟩
        · have ticks := finished.ticks
          rw [dtp] at ticks
          exact .head tick ticks
        · have later := finished.least
          rw [time] at later
          linarith [eps_pos (R := R)]
        · exact (finished.most.trans (max_le in_time le_rfl)).trans (le_max_right ..)
        · rw [Nat.succ_mul, ← Nat.add_assoc, runs]
          exact enough more

end Steps

section Stages

variable {R Variable Rest : Type*}

theorem Loop.stopped_clock (loop : Loop R Variable Rest) : loop.stopped.clock = loop.clock := by
  unfold Loop.stopped
  split <;> rfl

variable [Field R] [LinearOrder R] [FloorRing R] [IsStrictOrderedRing R]

/-- The stages are finished one after another, until the simulation has been stopped. -/
inductive Finishes (method : RungeKutta R) (tmax : R) :
    List (TimedStage R Variable Rest) → Loop R Variable Rest → Loop R Variable Rest → Prop where
  | none (loop) : Finishes method tmax [] loop loop
  | stopped {timed : TimedStage R Variable Rest} {rest : List (TimedStage R Variable Rest)}
      {loop left : Loop R Variable Rest}
      (finished : Finished method timed.toStage tmax (loop.staged timed) left)
      (stop : left.stopped.memory.stop < 0) :
      Finishes method tmax (timed :: rest) loop left.stopped
  | next {timed : TimedStage R Variable Rest} {rest : List (TimedStage R Variable Rest)}
      {loop left last : Loop R Variable Rest}
      (finished : Finished method timed.toStage tmax (loop.staged timed) left)
      (goes : 0 ≤ left.stopped.memory.stop)
      (finishes : Finishes method tmax rest left.stopped last) :
      Finishes method tmax (timed :: rest) loop last

theorem Loop.fresh_staged (timed : TimedStage R Variable Rest) {loop : Loop R Variable Rest}
    (ready : loop.clock.ready = true) (kpass : loop.clock.kpass = 0) :
    Fresh (loop.staged timed).clock where
  ready := ready
  kpass := kpass
  coarse := timed.coarse
  least := (add_le_add_iff_left loop.clock.t).mpr timed.coarse
  most := by
    change loop.clock.t + timed.dts ≤ loop.clock.t + timed.dts + eps
    linarith [eps_pos (R := R)]

variable {integrator : Integrator R} {method : RungeKutta R} {tmax : R}

theorem stages_finish (implements : Implements integrator method) (steps : Nat)
    (stages : List (TimedStage R Variable Rest)) : ∀ loop : Loop R Variable Rest,
    loop.clock.ready = true → loop.clock.kpass = 0 → tmax ≤ loop.clock.t + steps * eps →
    ∃ last, Finishes method tmax stages loop last ∧
      loop.clock.t ≤ last.clock.t ∧ last.clock.t ≤ max loop.clock.t (tmax + eps) ∧
      ∀ more, runStages integrator tmax (more + 1 + steps * method.stages) stages loop =
        some last := by
  induction stages with
  | nil => exact fun _ _ _ _ => ⟨_, .none _, le_refl _, le_max_left .., fun _ => rfl⟩
  | cons timed rest ih =>
      intro loop ready kpass near
      obtain ⟨left, finished, runs⟩ :
          ∃ left, Finished method timed.toStage tmax (loop.staged timed) left ∧
            ∀ more, run integrator timed.toStage tmax (more + 1 + steps * method.stages)
              (loop.staged timed) = some left :=
        (Loop.fresh_staged timed ready kpass).finishes implements steps near
      have clock := left.stopped_clock
      have least : loop.clock.t ≤ left.stopped.clock.t := by
        rw [clock]
        exact finished.least
      have most : left.stopped.clock.t ≤ max loop.clock.t (tmax + eps) := by
        rw [clock]
        exact finished.most
      by_cases stop : left.stopped.memory.stop < 0
      · refine ⟨_, .stopped finished stop, least, most, fun more => ?_⟩
        unfold runStages
        rw [runs, Option.bind_some, if_pos stop]
      · obtain ⟨last, finishes, later, within, enough⟩ := ih left.stopped
          (clock ▸ finished.ready) (clock ▸ finished.kpass) (by linarith)
        refine ⟨last, .next finished (not_lt.mp stop) finishes, least.trans later,
          within.trans (max_le most (le_max_right ..)), fun more => ?_⟩
        unfold runStages
        rw [runs, Option.bind_some, if_neg stop]
        exact enough more

/-- The simulation ends, and not far beyond its time, after a number of passes that is known before;
in every stage the variables have gone from step to step by the method of the integrator. -/
theorem simRun_finishes (scheme : Scheme) (tmax : R) (vStage : List (TimedStage R Variable Rest))
    (loop : Loop R Variable Rest) :
    ∃ last, Finishes scheme.method tmax vStage loop.set last ∧
      0 ≤ last.clock.t ∧ last.clock.t ≤ max 0 (tmax + eps) ∧
      ∀ passes, ⌈tmax / eps⌉₊ * (scheme.method : RungeKutta R).stages < passes →
        simRun scheme.integrator tmax vStage passes loop = some last := by
  have near : tmax ≤ loop.set.clock.t + ⌈tmax / eps⌉₊ * eps := by
    change tmax ≤ 0 + ⌈tmax / eps⌉₊ * eps
    rw [zero_add]
    exact (div_le_iff₀ eps_pos).mp (Nat.le_ceil _)
  obtain ⟨last, finishes, least, most, runs⟩ :=
    stages_finish scheme.implements ⌈tmax / eps⌉₊ vStage loop.set rfl rfl near
  refine ⟨last, finishes, least, most, fun passes enough => ?_⟩
  obtain ⟨more, rfl⟩ := Nat.exists_eq_add_of_lt enough
  have whole : ⌈tmax / eps⌉₊ * (scheme.method : RungeKutta R).stages + more + 1 =
      more + 1 + ⌈tmax / eps⌉₊ * (scheme.method : RungeKutta R).stages := by omega
  rw [whole]
  exact runs more

end Stages

namespace Growth

/-- A block whose variable is its own derivative, and which is to be called ten times a second. -/
def timedStage : TimedStage Rat Unit Unit where
  slope _ _ x := x
  init memory := memory
  update clock memory := (clock, { memory with xd := memory.x })
  rpt clock _ := (clock.sample (1 / 10) 0).1
  update_sampled _ _ := .none
  update_x _ _ := rfl
  update_xd _ _ := rfl
  update_rest _ _ _ := rfl
  rpt_sampled clock _ := .sample (1 / 10) 0 (by norm_num) .none
  dts := 1 / 4
  coarse := by
    unfold eps
    norm_num

def loop : Loop Rat Unit Unit where
  clock := ⟨0, 0, 0, 0, 0, true⟩
  memory := ⟨fun _ => 1, fun _ => 0, (), 0⟩
  registers _ := ⟨0, 0, 0, 0, 0, 0, 0, 0, 0, 0⟩
  stop0 := 0

theorem simRun_finishes_growth :
    ∃ last, Finishes (Scheme.method .stateMm) 1 [timedStage] loop.set last ∧
      0 ≤ last.clock.t ∧ last.clock.t ≤ max 0 (1 + eps) ∧
      ∀ passes, ⌈(1 : Rat) / eps⌉₊ * 5 < passes →
        simRun (Scheme.integrator .stateMm) 1 [timedStage] passes loop = some last :=
  simRun_finishes .stateMm 1 [timedStage] loop

end Growth

end Nise.Models.Osk
