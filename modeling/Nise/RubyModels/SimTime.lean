import Mathlib.Algebra.Order.Ring.Rat
import Mathlib.Data.List.Induction

/-!
# The simulated time of a Ruby model

A model keeps the time that is simulated, and how far it is from the start of the simulation.
Times are seconds, and the arithmetic is exact.
-/

namespace Nise.RubyModels

structure SimTime where
  startTime : ℚ
  endTime : ℚ
  simTime : ℚ
  offset : ℚ
  stepSeconds : ℚ
  stkIsTimeLord : Bool
  duration : ℚ
  deriving DecidableEq

namespace SimTime

/-- `initialize`, which does not keep its last argument. -/
def new (decimalSeconds startTime endTime : ℚ) (_stkIsTimeLord : Bool) : SimTime where
  startTime := startTime
  endTime := endTime
  simTime := startTime
  offset := 0
  stepSeconds := decimalSeconds
  stkIsTimeLord := false
  duration := endTime - startTime

/-- Without arguments a step is a second, and the simulation is a day. -/
def ofDefaults (startTime : ℚ) : SimTime := new 1 startTime (startTime + 86400) false

variable (time : SimTime)

def now : ℚ := time.offset

def timeLeft : ℚ := time.duration - time.offset

/-- The assignment `sim_time=`.  What is no time is reported, and the old time is kept within the
simulation. -/
def assignSimTime (assigned : Option ℚ) : SimTime :=
  let given := assigned.getD time.simTime
  let late := if given < time.startTime then time.startTime else given
  let within := if time.endTime < late then time.endTime else late
  { time with simTime := within, offset := within - time.startTime }

def reset : SimTime := { time with simTime := time.startTime, offset := 0 }

def assignOffset (offset : ℚ) : SimTime :=
  { time with simTime := time.startTime + offset, offset := offset }

def advanceTime : SimTime :=
  if time.stkIsTimeLord then time
  else { time with
    simTime := time.simTime + time.stepSeconds
    offset := time.offset + time.stepSeconds }

def reverseTime : SimTime :=
  if time.stkIsTimeLord then time
  else { time with
    simTime := time.simTime - time.stepSeconds
    offset := time.offset - time.stepSeconds }

def endOfSim : Bool := time.endTime ≤ time.simTime

/-- What a model does with its time, apart from moving the start. -/
inductive Call where
  | assignSimTime (assigned : Option ℚ)
  | reset
  | assignOffset (offset : ℚ)
  | advanceTime
  | reverseTime
  | assignStepSeconds (seconds : ℚ)
  | assignStkIsTimeLord (flag : Bool)
  | assignEndTime (endTime : ℚ)
  | assignDuration (duration : ℚ)

def call : Call → SimTime
  | .assignSimTime assigned => time.assignSimTime assigned
  | .reset => time.reset
  | .assignOffset offset => time.assignOffset offset
  | .advanceTime => time.advanceTime
  | .reverseTime => time.reverseTime
  | .assignStepSeconds seconds => { time with stepSeconds := seconds }
  | .assignStkIsTimeLord flag => { time with stkIsTimeLord := flag }
  | .assignEndTime endTime => { time with endTime := endTime }
  | .assignDuration duration => { time with duration := duration }

/-- The offset is the distance from the start. -/
def Consistent : Prop := time.simTime = time.startTime + time.offset

variable {time}

theorem Consistent.call (consistent : time.Consistent) (move : Call) :
    (time.call move).Consistent := by
  cases move with
  | assignSimTime assigned => exact (add_sub_cancel _ _).symm
  | reset => exact (add_zero _).symm
  | assignOffset offset => rfl
  | advanceTime =>
      change (time.advanceTime).simTime = (time.advanceTime).startTime + (time.advanceTime).offset
      unfold SimTime.advanceTime
      split
      · exact consistent
      · dsimp only
        rw [consistent, add_assoc]
  | reverseTime =>
      change (time.reverseTime).simTime = (time.reverseTime).startTime + (time.reverseTime).offset
      unfold SimTime.reverseTime
      split
      · exact consistent
      · dsimp only
        rw [consistent, add_sub_assoc]
  | _ => exact consistent

/-- Whatever a model does with its time, the offset stays the distance from the start. -/
theorem consistent_calls (decimalSeconds startTime endTime : ℚ) (flag : Bool) (moves : List Call) :
    (moves.foldl call (new decimalSeconds startTime endTime flag)).Consistent := by
  have initially : (new decimalSeconds startTime endTime flag).Consistent := (add_zero _).symm
  induction moves using List.reverseRecOn with
  | nil => exact initially
  | append_singleton moves move ih =>
      rw [List.foldl_append]
      exact ih.call move

theorem offset_advanceTime (free : time.stkIsTimeLord = false) :
    time.advanceTime.offset = time.offset + time.stepSeconds := by
  unfold SimTime.advanceTime
  rw [if_neg (by rw [free]; exact Bool.false_ne_true)]

end SimTime

end Nise.RubyModels
