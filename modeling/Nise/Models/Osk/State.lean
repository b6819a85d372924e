import Mathlib.Algebra.Order.Archimedean.Basic
import Mathlib.Algebra.Order.Floor.Ring
import Mathlib.Data.Rat.Floor
import Mathlib.Tactic.FieldSimp
import Mathlib.Tactic.Linarith
import Mathlib.Tactic.Ring
import Nise.Lib.RungeKutta

/-!
# The clock and the integrators of the simulation kernel

A step of the kernel is a number of passes.  In each of them the integrators move their variables on
and the clock is updated; after the last pass the clock is ready again.  While it is ready the clock
can be sampled, which only shortens the step.  The numbers are those of an ordered field, so that
nothing is rounded.
-/

namespace Nise.Models.Osk

open Nise.Lib

-- Named, so that no definition has to prove it of its numerals.
local instance two : Nat.AtLeastTwo 2 := ⟨le_rfl⟩

local instance six : Nat.AtLeastTwo 6 := ⟨by decide⟩

/-- The static members of `State`. -/
structure Clock (R : Type*) where
  dt : R
  dtp : R
  t : R
  t1 : R
  kpass : Nat
  ready : Bool

section State

variable {R : Type*} [Field R] [LinearOrder R] [FloorRing R]

/-- `State::EPS` -/
def eps : R := 1 / (10 ^ 8 : Nat)

namespace Clock

variable (clock : Clock R)

/-- `State::set` -/
def set : Clock R :=
  { clock with kpass := 0, ready := true, t := 0 }

def reset (dtp : R) : Clock R :=
  { clock with dt := dtp, dtp := dtp, t1 := clock.t + dtp }

/-- `State::sample` with a sample time, or with a negative one for an event. -/
def sample (sdt tEvent : R) : Clock R × Bool :=
  if clock.ready = false then (clock, false)
  else if sdt < 0 then
    let t1 := if tEvent < clock.t1 - eps ∧ clock.t + eps ≤ tEvent then tEvent else clock.t1
    ({ clock with t1 := t1, dt := t1 - clock.t }, decide (|tEvent - clock.t| < eps))
  else
    -- end of next sample time
    let ts := ⌊(clock.t + eps) / sdt + 1⌋ * sdt
    let t1 := if ts < clock.t1 - eps then ts else clock.t1
    ({ clock with t1 := t1, dt := t1 - clock.t }, decide (clock.t - ts + sdt < eps))

/-- What the clocks of all integrators have in common. -/
def updateclockWith (passes : Nat) (time : R) : Clock R :=
  let kpass := (clock.kpass + 1) % passes
  if kpass = 0 then
    { clock with
      t := time, kpass := kpass, ready := true, t1 := ⌊(time + eps) / clock.dtp + 1⌋ * clock.dtp }
  else { clock with t := time, kpass := kpass, ready := false }

end Clock

/-- The members of an integrator between its passes. -/
structure Registers (R : Type*) where
  x0 : R
  xd0 : R
  xd1 : R
  xd2 : R
  xd3 : R
  k1 : R
  k2 : R
  k3 : R
  k4 : R
  k5 : R

/-- `propagate`, with the pass, the step, the variable and its derivative, and `updateclock`. -/
structure Integrator (R : Type*) where
  passes : Nat
  propagate : Nat → R → Registers R → R → R → Registers R × R
  time : Clock R → R

def Integrator.updateclock (integrator : Integrator R) (clock : Clock R) : Clock R :=
  clock.updateclockWith integrator.passes (integrator.time clock)

/-- `State` -/
def state : Integrator R where
  passes := 4
  propagate
    | 0, dt, s, x, xd => ({ s with x0 := x, xd0 := xd }, x + dt / 2 * xd)
    | 1, dt, s, _, xd => ({ s with xd1 := xd }, s.x0 + dt / 2 * xd)
    | 2, dt, s, _, xd => ({ s with xd2 := xd }, s.x0 + dt * xd)
    | 3, dt, s, _, xd =>
        ({ s with xd3 := xd }, s.x0 + dt / 6 * (s.xd0 + 2 * s.xd1 + 2 * s.xd2 + xd))
    | _, _, s, x, _ => (s, x)
  time clock :=
    if clock.kpass = 0 then clock.t + clock.dt / 2
    else if clock.kpass = 2 then clock.t1 else clock.t

/-- `State_rk2` -/
def stateRk2 : Integrator R where
  passes := 2
  propagate
    | 0, dt, s, x, xd => ({ s with x0 := x, xd0 := xd }, x + dt / 2 * xd)
    | 1, dt, s, _, xd => ({ s with xd1 := xd }, s.x0 + dt * xd)
    | _, _, s, x, _ => (s, x)
  time clock :=
    if clock.kpass = 0 then clock.t + clock.dt / 2
    else if clock.kpass = 1 then clock.t1 else clock.t

/-- `State_euler`, whose pass stays 0. -/
def stateEuler : Integrator R where
  passes := 1
  propagate _ dt s x xd := ({ s with x0 := x }, x + dt * xd)
  time clock := clock.t1

/-- `State_mm` -/
def stateMm : Integrator R where
  passes := 5
  propagate
    | 0, dt, s, x, xd => ({ s with x0 := x, k1 := dt * xd }, x + 1 / 3 * (dt * xd))
    | 1, dt, s, _, xd => ({ s with k2 := dt * xd }, s.x0 + 1 / 6 * s.k1 + 1 / 6 * (dt * xd))
    | 2, dt, s, _, xd => ({ s with k3 := dt * xd }, s.x0 + 1 / 8 * s.k1 + 3 / 8 * (dt * xd))
    | 3, dt, s, _, xd =>
        ({ s with k4 := dt * xd }, s.x0 + 1 / 2 * s.k1 - 3 / 2 * s.k3 + 2 * (dt * xd))
    | 4, dt, s, _, xd => ({ s with k5 := dt * xd }, s.x0 + 1 / 6 * (s.k1 + 4 * s.k4 + dt * xd))
    | _, _, s, x, _ => (s, x)
  time clock :=
    if clock.kpass = 0 then clock.t + clock.dt / 3
    else if clock.kpass = 2 then clock.t + 1 / 6 * clock.dt
    else if clock.kpass = 3 then clock.t1 else clock.t

end State

section Methods

variable {R : Type*} [Field R]

def classical : RungeKutta R where
  stages := 4
  node | 0 => 0 | 1 => 1 / 2 | 2 => 1 / 2 | _ => 1
  weight
    | 1, 0 => 1 / 2
    | 2, 1 => 1 / 2
    | 3, 2 => 1
    | _, _ => 0
  result | 0 => 1 / 6 | 1 => 1 / 3 | 2 => 1 / 3 | _ => 1 / 6

def midpoint : RungeKutta R where
  stages := 2
  node | 0 => 0 | _ => 1 / 2
  weight | 1, 0 => 1 / 2 | _, _ => 0
  result | 1 => 1 | _ => 0

def euler : RungeKutta R where
  stages := 1
  node _ := 0
  weight _ _ := 0
  result _ := 1

def merson : RungeKutta R where
  stages := 5
  node | 0 => 0 | 1 => 1 / 3 | 2 => 1 / 3 | 3 => 1 / 2 | _ => 1
  weight
    | 1, 0 => 1 / 3
    | 2, 0 => 1 / 6
    | 2, 1 => 1 / 6
    | 3, 0 => 1 / 8
    | 3, 2 => 3 / 8
    | 4, 0 => 1 / 2
    | 4, 2 => -3 / 2
    | 4, 3 => 2
    | _, _ => 0
  result | 0 => 1 / 6 | 3 => 2 / 3 | 4 => 1 / 6 | _ => 0

end Methods

section Implements

variable {R : Type*} [Field R] [LinearOrder R]

/-- What a number of passes makes of a variable whose derivative is given in each of them. -/
def Integrator.after (integrator : Integrator R) (dt : R) (s : Registers R) (x : R)
    (xd : Nat → R) : Nat → Registers R × R
  | 0 => (s, x)
  | pass + 1 =>
      let before := integrator.after dt s x xd pass
      integrator.propagate pass dt before.1 before.2 (xd pass)

/-- The passes of the integrator are the stages of the method. -/
structure Implements (integrator : Integrator R) (method : RungeKutta R) : Prop where
  passes : integrator.passes = method.stages
  positive : 0 < method.stages
  start : method.node 0 = 0
  point : ∀ dt s x xd pass, pass < method.stages → (integrator.after dt s x xd pass).2 =
    RungeKutta.along (method.weight pass) pass dt xd x
  result : ∀ dt s x xd, (integrator.after dt s x xd method.stages).2 =
    RungeKutta.along method.result method.stages dt xd x
  /-- The clock goes from node to node. -/
  time : ∀ (clock : Clock R) (t : R), clock.kpass < method.stages →
    clock.t = t + method.node clock.kpass * clock.dt → clock.t1 = t + clock.dt →
    integrator.time clock =
      if clock.kpass + 1 = method.stages then clock.t1
      else t + method.node (clock.kpass + 1) * clock.dt

variable [IsStrictOrderedRing R]

theorem state_implements : Implements (state : Integrator R) classical where
  passes := rfl
  positive := Nat.succ_pos _
  start := rfl
  point dt s x xd pass within := by
    have cases : pass = 0 ∨ pass = 1 ∨ pass = 2 ∨ pass = 3 := by
      change pass < 4 at within
      omega
    rcases cases with rfl | rfl | rfl | rfl <;>
      simp [RungeKutta.along, Integrator.after, state, classical, Fin.sum_univ_succ] <;> ring
  result dt s x xd := by
    change ((state : Integrator R).after dt s x xd 4).2 = RungeKutta.along _ 4 dt xd x
    simp [RungeKutta.along, Integrator.after, state, classical, Fin.sum_univ_succ]
    ring
  time clock t within now last := by
    obtain ⟨dt, dtp, t', t1, kpass, ready⟩ := clock
    have cases : kpass = 0 ∨ kpass = 1 ∨ kpass = 2 ∨ kpass = 3 := by
      change kpass < 4 at within
      omega
    rcases cases with rfl | rfl | rfl | rfl <;> simp_all [state, classical]
    ring

theorem stateRk2_implements : Implements (stateRk2 : Integrator R) midpoint where
  passes := rfl
  positive := Nat.succ_pos _
  start := rfl
  point dt s x xd pass within := by
    have cases : pass = 0 ∨ pass = 1 := by
      change pass < 2 at within
      omega
    rcases cases with rfl | rfl <;>
      simp [RungeKutta.along, Integrator.after, stateRk2, midpoint]
    ring
  result dt s x xd := by
    change ((stateRk2 : Integrator R).after dt s x xd 2).2 = RungeKutta.along _ 2 dt xd x
    simp [RungeKutta.along, Integrator.after, stateRk2, midpoint, Fin.sum_univ_succ]
  time clock t within now last := by
    obtain ⟨dt, dtp, t', t1, kpass, ready⟩ := clock
    have cases : kpass = 0 ∨ kpass = 1 := by
      change kpass < 2 at within
      omega
    rcases cases with rfl | rfl <;> simp_all [stateRk2, midpoint]
    ring

omit [LinearOrder R] [IsStrictOrderedRing R] in
theorem stateEuler_implements : Implements (stateEuler : Integrator R) euler where
  passes := rfl
  positive := Nat.succ_pos _
  start := rfl
  point dt s x xd pass within := by
    obtain rfl : pass = 0 := by
      change pass < 1 at within
      omega
    simp [RungeKutta.along, Integrator.after]
  result dt s x xd := by
    change ((stateEuler : Integrator R).after dt s x xd 1).2 = RungeKutta.along _ 1 dt xd x
    simp [RungeKutta.along, Integrator.after, stateEuler, euler]
  time clock t within now last := by
    obtain ⟨dt, dtp, t', t1, kpass, ready⟩ := clock
    obtain rfl : kpass = 0 := by
      change kpass < 1 at within
      omega
    rfl

theorem stateMm_implements : Implements (stateMm : Integrator R) merson where
  passes := rfl
  positive := Nat.succ_pos _
  start := rfl
  point dt s x xd pass within := by
    have cases : pass = 0 ∨ pass = 1 ∨ pass = 2 ∨ pass = 3 ∨ pass = 4 := by
      change pass < 5 at within
      omega
    rcases cases with rfl | rfl | rfl | rfl | rfl <;>
      simp [RungeKutta.along, Integrator.after, stateMm, merson, Fin.sum_univ_succ] <;> ring
  result dt s x xd := by
    change ((stateMm : Integrator R).after dt s x xd 5).2 = RungeKutta.along _ 5 dt xd x
    simp [RungeKutta.along, Integrator.after, stateMm, merson, Fin.sum_univ_succ]
    ring
  time clock t within now last := by
    obtain ⟨dt, dtp, t', t1, kpass, ready⟩ := clock
    have cases : kpass = 0 ∨ kpass = 1 ∨ kpass = 2 ∨ kpass = 3 ∨ kpass = 4 := by
      change kpass < 5 at within
      omega
    rcases cases with rfl | rfl | rfl | rfl | rfl <;> simp_all [stateMm, merson] <;> ring

end Implements

/-- The integrators that the kernel offers. -/
inductive Scheme where
  | state
  | stateRk2
  | stateEuler
  | stateMm
  deriving DecidableEq, Repr

def Scheme.integrator {R : Type*} [Field R] [LinearOrder R] : Scheme → Integrator R
  | .state => Osk.state
  | .stateRk2 => Osk.stateRk2
  | .stateEuler => Osk.stateEuler
  | .stateMm => Osk.stateMm

def Scheme.method {R : Type*} [Field R] : Scheme → RungeKutta R
  | .state => classical
  | .stateRk2 => midpoint
  | .stateEuler => euler
  | .stateMm => merson

theorem Scheme.implements {R : Type*} [Field R] [LinearOrder R] [IsStrictOrderedRing R]
    (scheme : Scheme) : Implements (scheme.integrator : Integrator R) scheme.method := by
  cases scheme with
  | state => exact state_implements
  | stateRk2 => exact stateRk2_implements
  | stateEuler => exact stateEuler_implements
  | stateMm => exact stateMm_implements

theorem Scheme.consistent {R : Type*} [Field R] [LinearOrder R] [IsStrictOrderedRing R]
    (scheme : Scheme) :
    ∑ stage : Fin (scheme.method : RungeKutta R).stages, scheme.method.result stage = (1 : R) := by
  cases scheme with
  | state =>
      change ∑ stage : Fin 4, classical.result stage = (1 : R)
      simp [Fin.sum_univ_succ, classical]
      ring
  | stateRk2 =>
      change ∑ stage : Fin 2, midpoint.result stage = (1 : R)
      simp [Fin.sum_univ_succ, midpoint]
  | stateEuler =>
      change ∑ stage : Fin 1, euler.result stage = (1 : R)
      simp [euler]
  | stateMm =>
      change ∑ stage : Fin 5, merson.result stage = (1 : R)
      simp [Fin.sum_univ_succ, merson]
      ring

/-- The rows of the classical method lead to its nodes. -/
theorem classical_row {R : Type*} [Field R] [LinearOrder R] [IsStrictOrderedRing R] {stage : Nat}
    (within : stage < (classical : RungeKutta R).stages) :
    ∑ before : Fin stage, (classical : RungeKutta R).weight stage before =
      classical.node stage := by
  have cases : stage = 0 ∨ stage = 1 ∨ stage = 2 ∨ stage = 3 := by
    change stage < 4 at within
    omega
  rcases cases with rfl | rfl | rfl | rfl <;> simp [Fin.sum_univ_succ, classical]

section Shortened

variable {R : Type*} [Field R] [LinearOrder R] {clock later : Clock R}

theorem eps_pos [IsStrictOrderedRing R] : (0 : R) < eps := by
  unfold eps
  positivity

/-- A step that may have been shortened. -/
structure Shortened (clock later : Clock R) : Prop where
  same : later = { clock with t1 := later.t1, dt := later.t1 - clock.t }
  least : clock.t + eps ≤ later.t1
  most : later.t1 ≤ clock.t1

theorem Shortened.refl (ahead : clock.t + eps ≤ clock.t1) (step : clock.dt = clock.t1 - clock.t) :
    Shortened clock clock where
  same := by rw [← step]
  least := ahead
  most := le_refl _

theorem Shortened.trans {last : Clock R} (first : Shortened clock later)
    (second : Shortened later last) : Shortened clock last where
  same := by
    have t : later.t = clock.t := by rw [first.same]
    rw [second.same, first.same]
  least := by
    have t : later.t = clock.t := by rw [first.same]
    exact t ▸ second.least
  most := second.most.trans first.most

theorem Shortened.ahead (shortened : Shortened clock later) : later.t + eps ≤ later.t1 := by
  have t : later.t = clock.t := by rw [shortened.same]
  rw [t]
  exact shortened.least

end Shortened

section Sampling

variable {R : Type*} [Field R] [LinearOrder R] [FloorRing R]

/-- What becomes of a clock that is sampled any number of times. -/
inductive Sampled (clock : Clock R) : Clock R → Prop where
  | none : Sampled clock clock
  | sample {later : Clock R} (sdt tEvent : R) (proper : sdt ≠ 0) (earlier : Sampled clock later) :
      Sampled clock (later.sample sdt tEvent).1

variable {clock later : Clock R}

theorem Clock.sample_of_not_ready (busy : clock.ready = false) (sdt tEvent : R) :
    clock.sample sdt tEvent = (clock, false) := by
  unfold Clock.sample
  rw [if_pos busy]

/-- Between the passes of a step the clock cannot be sampled. -/
theorem Sampled.of_not_ready (sampled : Sampled clock later) (busy : clock.ready = false) :
    later = clock := by
  induction sampled with
  | none => rfl
  | sample sdt tEvent proper earlier ih =>
      rw [ih, Clock.sample_of_not_ready busy]

theorem Sampled.trans {last : Clock R} (first : Sampled clock later)
    (second : Sampled later last) : Sampled clock last := by
  induction second with
  | none => exact first
  | sample sdt tEvent proper earlier ih => exact .sample sdt tEvent proper ih

variable [IsStrictOrderedRing R]

/-- The next multiple of a sample time lies ahead by more than the tolerance. -/
theorem next_sample (t sdt : R) (proper : 0 < sdt) : t + eps < ⌊(t + eps) / sdt + 1⌋ * sdt := by
  have above := Int.lt_floor_add_one ((t + eps) / sdt + 1)
  have more : (t + eps) / sdt < ⌊(t + eps) / sdt + 1⌋ := by linarith
  exact (div_lt_iff₀ proper).mp more

theorem sample_shortened (ready : clock.ready = true) (ahead : clock.t + eps ≤ clock.t1)
    (sdt tEvent : R) (proper : sdt ≠ 0) : Shortened clock (clock.sample sdt tEvent).1 := by
  unfold Clock.sample
  rw [if_neg (by rw [ready]; exact Bool.true_eq_false_eq_False)]
  by_cases event : sdt < 0
  · rw [if_pos event]
    refine ⟨rfl, ?_, ?_⟩ <;> dsimp only <;> split
    · next within => exact within.2
    · exact ahead
    · next within => linarith [within.1, eps_pos (R := R)]
    · exact le_refl _
  · rw [if_neg event]
    have positive : 0 < sdt := lt_of_le_of_ne (not_lt.mp event) proper.symm
    have next := next_sample clock.t sdt positive
    refine ⟨rfl, ?_, ?_⟩ <;> dsimp only <;> split
    · exact next.le
    · exact ahead
    · next within => linarith [eps_pos (R := R)]
    · exact le_refl _

/-- No step goes far beyond an event that lies ahead. -/
theorem sample_event (ready : clock.ready = true) {tEvent : R} (ahead : clock.t + eps ≤ tEvent) :
    (clock.sample (-1) tEvent).1.t1 ≤ tEvent + eps := by
  unfold Clock.sample
  rw [if_neg (by rw [ready]; exact Bool.true_eq_false_eq_False),
    if_pos (neg_lt_zero.mpr one_pos)]
  dsimp only
  split
  · linarith [eps_pos (R := R)]
  · next without =>
      have late : ¬tEvent < clock.t1 - eps := fun within => without ⟨within, ahead⟩
      linarith [not_lt.mp late]

/-- Sampling only shortens the step. -/
theorem Sampled.shortened (sampled : Sampled clock later) (ready : clock.ready = true)
    (ahead : clock.t + eps ≤ clock.t1) (step : clock.dt = clock.t1 - clock.t) :
    Shortened clock later := by
  induction sampled with
  | none => exact .refl ahead step
  | @sample between sdt tEvent proper earlier ih =>
      have still : between.ready = true := by
        rw [← ready, ih.same]
      exact ih.trans (sample_shortened still ih.ahead sdt tEvent proper)

end Sampling

end Nise.Models.Osk
