import Mathlib.Tactic.NormNum
import Mathlib.Algebra.Field.Rat
import Mathlib.Algebra.Field.Basic
import Mathlib.Data.Rat.Cast.Lemmas
import Mathlib.Data.List.Chain

/-!
# Statistics of the connections

Every connection handler has an object of its own that is told of each message, and keeps the
sum, the squares and the extremes of the times between them.  Whether a message is the first
one is kept in a static variable of the function, which all objects share.

Times are in microseconds, and the sums in seconds, in exact arithmetic.
-/

namespace Nise.Dispatcherd

/-- The microseconds of a time value beside its whole seconds. -/
def usec (time : Int) : Int := time.tmod 1000000

structure RouteByteStats where
  sampleLength : List Int32
  currentSample : Nat
  totalBytes : UInt32
  totalMsgs : UInt32
  deltaSum : ℚ
  deltaSq : ℚ
  deltaMin : ℚ
  deltaMax : ℚ
  count : UInt32
  lastTime : Int
  deriving DecidableEq

namespace RouteByteStats

def sampleSize : Nat := 20

/-- The constructor; it leaves the sample lengths as they are in memory. -/
def new (sampleLength : List Int32) : RouteByteStats where
  sampleLength := sampleLength
  currentSample := 0
  totalBytes := 0
  totalMsgs := 0
  deltaSum := 0
  deltaSq := 0
  deltaMin := 0
  deltaMax := 0
  count := 0
  lastTime := 0

/-- Note the time since the last sample. -/
def noteDelta (stats : RouteByteStats) (tval : ℚ) : RouteByteStats :=
  let extremes :=
    if 1 < stats.count then
      (if tval < stats.deltaMin then tval else stats.deltaMin,
        if stats.deltaMax < tval then tval else stats.deltaMax)
    else (tval, tval)
  { stats with
    deltaSum := stats.deltaSum + tval
    deltaSq := stats.deltaSq + tval * tval
    count := stats.count + 1
    deltaMin := extremes.1
    deltaMax := extremes.2 }

/-- A sample; `firstCall` is the static variable. -/
def sample (firstCall : Bool) (stats : RouteByteStats) (bytes : UInt64) (current : Int) :
    RouteByteStats :=
  let stats := { stats with
    totalBytes := stats.totalBytes + bytes.toUInt32
    sampleLength := stats.sampleLength.set stats.currentSample bytes.toUInt32.toInt32
    currentSample := (stats.currentSample + 1) % sampleSize
    totalMsgs := stats.totalMsgs + 1 }
  let stats :=
    if firstCall = false then stats.noteDelta (usec (current - stats.lastTime) / 1000000)
    else stats
  { stats with lastTime := current }

end RouteByteStats

structure SampleCall (Object : Type) where
  object : Object
  bytes : UInt64
  time : Int
  deriving DecidableEq

/-- The objects of a process and the variable that they share. -/
structure Sampling (Object : Type) where
  firstCall : Bool
  objects : Object → RouteByteStats

namespace Sampling

variable {Object : Type} [DecidableEq Object]

/-- Before the first sample, with what is in memory of each object. -/
def start (memory : Object → List Int32) : Sampling Object :=
  ⟨true, fun object => .new (memory object)⟩

def step (sampling : Sampling Object) (call : SampleCall Object) : Sampling Object where
  firstCall := false
  objects object :=
    if object = call.object then
      (sampling.objects object).sample sampling.firstCall call.bytes call.time
    else sampling.objects object

def run (sampling : Sampling Object) (calls : List (SampleCall Object)) : Sampling Object :=
  calls.foldl step sampling

end Sampling

/-! ## The samples of one object -/

section Samples

variable {Object : Type}

/-- Samples that are not the first call of the process. -/
def laterSamples (stats : RouteByteStats) (calls : List (SampleCall Object)) : RouteByteStats :=
  calls.foldl (fun stats call => stats.sample false call.bytes call.time) stats

/-- The time of the last of some calls, or the given one. -/
def finalTime (time : Int) (calls : List (SampleCall Object)) : Int :=
  calls.foldl (fun _ call => call.time) time

/-- The microseconds of the times between some calls, without their whole seconds. -/
def notedTime : Int → List (SampleCall Object) → Int
  | _, [] => 0
  | last, call :: rest => usec (call.time - last) + notedTime call.time rest

theorem count_laterSamples (stats : RouteByteStats) (calls : List (SampleCall Object)) :
    (laterSamples stats calls).count = stats.count + UInt32.ofNat calls.length := by
  induction calls generalizing stats with
  | nil => simp [laterSamples]
  | cons call rest ih =>
      change (laterSamples (stats.sample false call.bytes call.time) rest).count = _
      rw [ih, List.length_cons, UInt32.ofNat_add]
      change stats.count + 1 + UInt32.ofNat rest.length = _
      rw [UInt32.add_assoc, UInt32.add_comm 1]
      rfl

theorem deltaSum_laterSamples (stats : RouteByteStats) (calls : List (SampleCall Object)) :
    (laterSamples stats calls).deltaSum =
      stats.deltaSum + (notedTime stats.lastTime calls : ℚ) / 1000000 := by
  induction calls generalizing stats with
  | nil => simp [laterSamples, notedTime]
  | cons call rest ih =>
      change (laterSamples (stats.sample false call.bytes call.time) rest).deltaSum = _
      rw [ih, notedTime]
      change stats.deltaSum + (usec (call.time - stats.lastTime) : ℚ) / 1000000 +
        (notedTime call.time rest : ℚ) / 1000000 = _
      rw [Int.cast_add, add_div, add_assoc]

theorem usec_le {time : Int} (nonnegative : 0 ≤ time) : usec time ≤ time := by
  unfold usec
  rw [Int.tmod_eq_emod_of_nonneg nonnegative]
  omega

theorem usec_eq_iff {time : Int} (nonnegative : 0 ≤ time) :
    usec time = time ↔ time < 1000000 := by
  unfold usec
  rw [Int.tmod_eq_emod_of_nonneg nonnegative]
  omega

theorem notedTime_le {last : Int} {calls : List (SampleCall Object)}
    (ordered : (last :: calls.map SampleCall.time).IsChain (· ≤ ·)) :
    notedTime last calls ≤ finalTime last calls - last := by
  induction calls generalizing last with
  | nil => exact (Int.sub_self last).ge
  | cons call rest ih =>
      obtain ⟨later, further⟩ := List.isChain_cons_cons.mp ordered
      have gap := usec_le (Int.sub_nonneg_of_le later)
      have after := ih further
      change usec (call.time - last) + notedTime call.time rest ≤ finalTime call.time rest - last
      omega

/-- The whole time is noted exactly if no whole second passes between two calls. -/
theorem notedTime_eq_iff {last : Int} {calls : List (SampleCall Object)}
    (ordered : (last :: calls.map SampleCall.time).IsChain (· ≤ ·)) :
    notedTime last calls = finalTime last calls - last ↔
      (last :: calls.map SampleCall.time).IsChain fun earlier later =>
        later - earlier < 1000000 := by
  induction calls generalizing last with
  | nil => exact iff_of_true (Int.sub_self last).symm (List.isChain_singleton last)
  | cons call rest ih =>
      obtain ⟨later, further⟩ := List.isChain_cons_cons.mp ordered
      have gap := usec_le (Int.sub_nonneg_of_le later)
      have after := notedTime_le further
      change usec (call.time - last) + notedTime call.time rest =
        finalTime call.time rest - last ↔ _
      rw [List.map_cons, List.isChain_cons_cons, ← ih further,
        ← usec_eq_iff (Int.sub_nonneg_of_le later)]
      omega

end Samples

/-! ## Interleaved samples -/

section Independence

variable {Object : Type} [DecidableEq Object]

/-- The calls of one object. -/
def ownCalls (object : Object) (calls : List (SampleCall Object)) : List (SampleCall Object) :=
  calls.filter fun call => call.object = object

/-- The time between the first and the last of some calls, in seconds. -/
def elapsed : List (SampleCall Object) → ℚ
  | [] => 0
  | first :: rest => (finalTime first.time rest - first.time : Int) / 1000000

/-- Each object has the fields that its own calls give, and the sum of its times is the time
between its first and its last sample. -/
def Independent (memory : Object → List Int32) (calls : List (SampleCall Object)) : Prop :=
  ∀ object,
    ((Sampling.start memory).run calls).objects object =
        ((Sampling.start memory).run (ownCalls object calls)).objects object ∧
      (((Sampling.start memory).run calls).objects object).deltaSum =
        elapsed (ownCalls object calls)

theorem ownCalls_eq_self {object : Object} {calls : List (SampleCall Object)}
    (same : ∀ call ∈ calls, call.object = object) : ownCalls object calls = calls := by
  unfold ownCalls
  rw [List.filter_eq_self]
  intro call member
  simpa using same call member

theorem ownCalls_eq_nil {object : Object} {calls : List (SampleCall Object)}
    (apart : ∀ call ∈ calls, call.object ≠ object) : ownCalls object calls = [] := by
  unfold ownCalls
  rw [List.filter_eq_nil_iff]
  intro call member
  simpa using apart call member

/-- After the first call of the process the objects do not touch each other. -/
theorem objects_run (sampling : Sampling Object) (later : sampling.firstCall = false)
    (calls : List (SampleCall Object)) (object : Object) :
    (sampling.run calls).objects object =
      laterSamples (sampling.objects object) (ownCalls object calls) := by
  induction calls generalizing sampling with
  | nil => rfl
  | cons call rest ih =>
      refine (ih (sampling.step call) rfl).trans ?_
      unfold ownCalls Sampling.step
      by_cases own : call.object = object
      · rw [List.filter_cons_of_pos (by simpa using own)]
        simp only [own, if_true, later]
        rfl
      · rw [List.filter_cons_of_neg (by simpa using own)]
        simp only [if_neg (Ne.symm own)]

/-- The first call of the process notes no time, whichever object makes it. -/
theorem objects_run_cons (memory : Object → List Int32) (call : SampleCall Object)
    (rest : List (SampleCall Object)) (object : Object) :
    ((Sampling.start memory).run (call :: rest)).objects object =
      laterSamples
        (if object = call.object then (RouteByteStats.new (memory object)).sample true call.bytes
          call.time else .new (memory object))
        (ownCalls object rest) :=
  objects_run ((Sampling.start memory).step call) rfl rest object

/-- An object that makes its first call after another one counts one time too many. -/
theorem not_independent_of_other {memory : Object → List Int32} {first other : SampleCall Object}
    {rest : List (SampleCall Object)} (member : other ∈ rest)
    (apart : other.object ≠ first.object) : ¬ Independent memory (first :: rest) := by
  intro independent
  have same := (independent other.object).1
  have own : ownCalls other.object (first :: rest) = ownCalls other.object rest :=
    List.filter_cons_of_neg (by simpa using apart.symm)
  have some : other ∈ ownCalls other.object rest :=
    List.mem_filter.mpr ⟨member, by simp⟩
  obtain ⟨begins, others, calls⟩ := List.exists_cons_of_ne_nil (List.ne_nil_of_mem some)
  have owned : ∀ call ∈ begins :: others, call.object = other.object := by
    intro call among
    rw [← calls] at among
    simpa using (List.mem_filter.mp among).2
  have begun : begins.object = other.object := owned begins (List.mem_cons_self ..)
  have alone : ownCalls other.object others = others :=
    ownCalls_eq_self fun call among => owned call (List.mem_cons_of_mem _ among)
  rw [own, calls, objects_run_cons, objects_run_cons, if_neg apart, if_pos begun.symm, calls,
    alone] at same
  have counts := congrArg RouteByteStats.count same
  rw [count_laterSamples, count_laterSamples, List.length_cons, UInt32.ofNat_add] at counts
  simp [RouteByteStats.new, RouteByteStats.sample] at counts

/-- The sum of an object that makes all calls. -/
theorem deltaSum_run_cons (memory : Object → List Int32) (first : SampleCall Object)
    {rest : List (SampleCall Object)} (own : ownCalls first.object rest = rest) :
    (((Sampling.start memory).run (first :: rest)).objects first.object).deltaSum =
      (notedTime first.time rest : ℚ) / 1000000 := by
  rw [objects_run_cons, if_pos rfl, own, deltaSum_laterSamples]
  exact zero_add _

/-- The statistics are what they are said to be exactly if one object makes all calls, and
never a second or more after the one before. -/
theorem independent_iff (memory : Object → List Int32) {calls : List (SampleCall Object)}
    (ordered : (calls.map SampleCall.time).IsChain (· ≤ ·)) :
    Independent memory calls ↔
      (∀ call ∈ calls, ∀ other ∈ calls, other.object = call.object) ∧
        (calls.map SampleCall.time).IsChain fun earlier later => later - earlier < 1000000 := by
  cases calls with
  | nil =>
      refine iff_of_true (fun object => ⟨rfl, rfl⟩) ⟨?_, List.isChain_nil⟩
      intro call member
      cases member
  | cons first rest =>
      have million : (1000000 : ℚ) ≠ 0 := by norm_num
      have exact_iff : (notedTime first.time rest : ℚ) / 1000000 =
          ((finalTime first.time rest - first.time : Int) : ℚ) / 1000000 ↔
            ((first :: rest).map SampleCall.time).IsChain fun earlier later =>
              later - earlier < 1000000 := by
        rw [List.map_cons, ← notedTime_eq_iff ordered, div_left_inj' million, Int.cast_inj]
      have keeps : ownCalls first.object (first :: rest) = first :: ownCalls first.object rest :=
        List.filter_cons_of_pos (by simp)
      constructor
      · intro independent
        have one : ∀ other ∈ rest, other.object = first.object := by
          intro other member
          by_contra apart
          exact not_independent_of_other member apart independent
        have sum := (independent first.object).2
        rw [deltaSum_run_cons memory first (ownCalls_eq_self one), keeps, ownCalls_eq_self one,
          elapsed, exact_iff] at sum
        refine ⟨?_, sum⟩
        intro call member other among
        have same : ∀ call ∈ first :: rest, call.object = first.object := by
          intro call member
          rcases List.mem_cons.mp member with rfl | later
          · rfl
          · exact one call later
        exact (same other among).trans (same call member).symm
      · rintro ⟨one, within⟩ object
        have same : ∀ other ∈ rest, other.object = first.object := fun other member =>
          one first (List.mem_cons_self ..) other (List.mem_cons_of_mem _ member)
        by_cases own : object = first.object
        · rw [own, keeps, ownCalls_eq_self same,
            deltaSum_run_cons memory first (ownCalls_eq_self same), elapsed, exact_iff]
          exact ⟨rfl, within⟩
        · have apart : ∀ call ∈ first :: rest, call.object ≠ object := by
            intro call member called
            exact own (called.symm.trans (one first (List.mem_cons_self ..) call member))
          have rest_apart : ∀ call ∈ rest, call.object ≠ object := fun call member =>
            apart call (List.mem_cons_of_mem _ member)
          rw [ownCalls_eq_nil apart, objects_run_cons, if_neg own, ownCalls_eq_nil rest_apart]
          exact ⟨rfl, rfl⟩

end Independence

namespace TwoConnections

/-- One connection with a message every half second. -/
def alone : List (SampleCall Nat) :=
  [⟨5, 100, 1000000⟩, ⟨5, 200, 1500000⟩, ⟨5, 100, 2000000⟩]

theorem independent_alone : Independent (fun _ => List.replicate 20 0) alone :=
  (independent_iff _ (by decide)).mpr (by decide)

/-- A message on another connection after that. -/
theorem not_independent_second :
    ¬ ∀ (memory : Nat → List Int32) (calls : List (SampleCall Nat)),
      (calls.map SampleCall.time).IsChain (· ≤ ·) → Independent memory calls := by
  intro claim
  have independent := claim (fun _ => List.replicate 20 0) (alone ++ [⟨6, 100, 2500000⟩])
    (by decide)
  have same := congrArg RouteByteStats.count (independent 6).1
  exact absurd same (by decide)

end TwoConnections

end Nise.Dispatcherd
