import Mathlib.Algebra.Order.Ring.Int
import Mathlib.Data.List.Induction
import Mathlib.Data.Nat.Find
import Nise.Lib.OrderedHash

/-!
# Scenarios

A scenario calls blocks at given times.  `at` registers a block under a time, which also becomes
the time of the scenario; `run` calls the blocks whose time has come and then the periodic ones.
The hash of the timed tasks is in the order in which its times were inserted, as in Ruby 1.9.2, with
which the build runs.

Blocks do not register tasks themselves, and return.  Times may be of any type with an order, an
addition and a subtraction.
-/

namespace Nise.RubyModels

open Nise.Lib

/-- What `every` registers: a range of times, the time of the last call, the period, the block. -/
structure PeriodicTask (Time Block : Type) where
  beginSec : Time
  endSec : Time
  last : Time
  period : Time
  block : Block
  deriving DecidableEq, Repr

structure IseScenario (Time Block : Type) where
  now : Time
  step : Time
  tasks : List (Time × List Block)
  periodicTasks : List (PeriodicTask Time Block)
  deriving DecidableEq, Repr

/-- The argument of `at`. -/
inductive ThisTime (Time : Type) where
  | next
  | otherSymbol
  | time (value : Time)
  deriving DecidableEq, Repr

/-- A run with the blocks that it calls, those of timed tasks with the time of the task. -/
structure Ran (Time Block : Type) where
  time : Time
  timed : List (Time × Block)
  periodic : List Block
  deriving DecidableEq, Repr

namespace IseScenario

variable {Time Block : Type} [LinearOrder Time] [Add Time] [Sub Time] [Zero Time]

def start (now step : Time) : IseScenario Time Block := ⟨now, step, [], []⟩

variable (scenario : IseScenario Time Block)

def at' (thisTime : ThisTime Time) (doSomething : Block) : IseScenario Time Block :=
  let now :=
    match thisTime with
    | .next => scenario.now + scenario.step
    | .otherSymbol => scenario.now
    | .time value => value
  { scenario with
    now := now
    tasks := OrderedHash.push scenario.tasks now doSomething }

def every (period beginSec endSec : Time) (doSomething : Block) : IseScenario Time Block :=
  { scenario with
    periodicTasks := scenario.periodicTasks ++ [⟨beginSec, endSec, 0, period, doSomething⟩] }

/-! ## Timed tasks -/

/-- One pass of the loop over the hash, which deletes the entry that it has called. -/
def runTask (now : Time) (loop : List (Time × List Block) × List (Time × Block))
    (task : Time × List Block) : List (Time × List Block) × List (Time × Block) :=
  if task.1 ≤ now then
    (loop.1.filter fun other => other.1 ≠ task.1,
      loop.2 ++ task.2.map fun aProc => (task.1, aProc))
  else loop

def runTasks (now : Time) (tasks : List (Time × List Block)) :
    List (Time × List Block) × List (Time × Block) :=
  tasks.foldl (runTask now) (tasks, [])

/-! ## Periodic tasks -/

/-- The array of the periodic tasks within the loop over it: a task that has been deleted is nil. -/
structure PeriodicLoop (Time Block : Type) where
  tasks : List (Option (PeriodicTask Time Block))
  called : List Block

/-- One pass of the loop, for the task at an index. -/
def runPeriodic (now : Time) (loop : PeriodicLoop Time Block) (ptInx : Nat) :
    PeriodicLoop Time Block :=
  match loop.tasks[ptInx]? with
  | some (some task) =>
      if task.beginSec ≤ now ∧ now ≤ task.endSec then
        if task.period ≤ now - task.last then
          { tasks := loop.tasks.set ptInx (some { task with last := now })
            called := loop.called ++ [task.block] }
        else loop
      else if task.endSec < now then { loop with tasks := loop.tasks.set ptInx none }
      else loop
  | _ => loop

/-- The whole loop.  The array is compacted if a task has been deleted; otherwise there is
nothing to compact. -/
def runPeriodics (now : Time) (tasks : List (PeriodicTask Time Block)) :
    List (PeriodicTask Time Block) × List Block :=
  let loop := (List.range tasks.length).foldl (runPeriodic now) ⟨tasks.map some, []⟩
  (loop.tasks.reduceOption, loop.called)

/-! ## Runs -/

/-- `run`; without an argument it is at the time of the scenario. -/
def run (aTime : Option Time) : IseScenario Time Block × Ran Time Block :=
  let now := aTime.getD scenario.now
  let timed := runTasks now scenario.tasks
  let periodic := runPeriodics now scenario.periodicTasks
  ({ scenario with now := now, tasks := timed.1, periodicTasks := periodic.1 },
    ⟨now, timed.2, periodic.2⟩)

def advanceTime (aStep : Option Time) : IseScenario Time Block × Ran Time Block :=
  let step := aStep.getD scenario.step
  { scenario with step := step, now := scenario.now + step }.run none

end IseScenario

/-- A call of a method of a scenario. -/
inductive ScenarioCall (Time Block : Type) where
  | at' (thisTime : ThisTime Time) (doSomething : Block)
  | every (period beginSec endSec : Time) (doSomething : Block)
  | run (aTime : Option Time)
  | advanceTime (aStep : Option Time)
  | setNow (now : Time)
  | setStep (step : Time)
  deriving DecidableEq, Repr

/-- What has come of a call. -/
inductive ScenarioEntry (Time Block : Type) where
  | registered (time : Time) (block : Block)
  | periodic (task : PeriodicTask Time Block)
  | ran (out : Ran Time Block)
  | set
  deriving DecidableEq, Repr

/-- A scenario with what has come of the calls so far, one entry for each call. -/
structure ScenarioRun (Time Block : Type) where
  scenario : IseScenario Time Block
  history : List (ScenarioEntry Time Block)
  deriving DecidableEq, Repr

namespace ScenarioRun

variable {Time Block : Type} [LinearOrder Time] [Add Time] [Sub Time] [Zero Time]

def step (run : ScenarioRun Time Block) : ScenarioCall Time Block → ScenarioRun Time Block
  | .at' thisTime doSomething =>
      let scenario := run.scenario.at' thisTime doSomething
      ⟨scenario, run.history ++ [.registered scenario.now doSomething]⟩
  | .every period beginSec endSec doSomething =>
      ⟨run.scenario.every period beginSec endSec doSomething,
        run.history ++ [.periodic ⟨beginSec, endSec, 0, period, doSomething⟩]⟩
  | .run aTime =>
      let out := run.scenario.run aTime
      ⟨out.1, run.history ++ [.ran out.2]⟩
  | .advanceTime aStep =>
      let out := run.scenario.advanceTime aStep
      ⟨out.1, run.history ++ [.ran out.2]⟩
  | .setNow now => ⟨{ run.scenario with now := now }, run.history ++ [.set]⟩
  | .setStep step => ⟨{ run.scenario with step := step }, run.history ++ [.set]⟩

/-- Any calls on a new scenario. -/
def after (now step : Time) (calls : List (ScenarioCall Time Block)) : ScenarioRun Time Block :=
  calls.foldl ScenarioRun.step ⟨.start now step, []⟩

end ScenarioRun

/-! ## What has been registered and has not come yet -/

namespace ScenarioEntry

variable {Time Block : Type}

/-- The time of a run. -/
def runTime? : ScenarioEntry Time Block → Option Time
  | .ran out => some out.time
  | _ => none

variable [LinearOrder Time]

/-- The timed tasks that wait for a run, after one more entry. -/
def await (waiting : List (Time × Block)) : ScenarioEntry Time Block → List (Time × Block)
  | .registered time block => waiting ++ [(time, block)]
  | .ran out => waiting.filter fun task => out.time < task.1
  | _ => waiting

/-- The timed tasks that wait for a run, in the order of their registration. -/
def waiting (history : List (ScenarioEntry Time Block)) : List (Time × Block) :=
  history.foldl await []

theorem waiting_concat (history : List (ScenarioEntry Time Block))
    (entry : ScenarioEntry Time Block) :
    waiting (history ++ [entry]) = entry.await (waiting history) := by
  unfold waiting
  rw [List.foldl_append]
  rfl

end ScenarioEntry

namespace IseScenario

variable {Time Block : Type} [LinearOrder Time]

/-- The loop deletes what is due and calls it, in the order of the hash. -/
theorem foldl_runTask (now : Time) (rest : List (Time × List Block))
    (loop : List (Time × List Block) × List (Time × Block)) :
    rest.foldl (runTask now) loop =
      (loop.1.filter fun entry => ∀ task ∈ rest, task.1 ≤ now → entry.1 ≠ task.1,
        loop.2 ++ OrderedHash.pairs (rest.filter fun task => task.1 ≤ now)) := by
  induction rest generalizing loop with
  | nil => simp [OrderedHash.pairs]
  | cons task rest ih =>
      rw [List.foldl_cons, ih, runTask]
      by_cases due : task.1 ≤ now
      · rw [if_pos due, List.filter_filter, List.filter_cons, if_pos (decide_eq_true due),
          OrderedHash.pairs_cons, List.append_assoc]
        congr 1
        refine List.filter_congr fun entry _ => ?_
        rw [← Bool.decide_and, decide_eq_decide, List.forall_mem_cons, and_comm,
          forall_prop_of_true due]
      · rw [if_neg due, List.filter_cons, if_neg (mt of_decide_eq_true due)]
        congr 1
        refine List.filter_congr fun entry _ => ?_
        rw [decide_eq_decide, List.forall_mem_cons, and_iff_right fun now => absurd now due]

theorem runTasks_eq (now : Time) (tasks : List (Time × List Block)) :
    runTasks now tasks =
      (tasks.filter fun task => now < task.1,
        OrderedHash.pairs (tasks.filter fun task => task.1 ≤ now)) := by
  unfold runTasks
  rw [foldl_runTask, List.nil_append]
  congr 1
  refine List.filter_congr fun entry member => ?_
  rw [decide_eq_decide, ← not_le]
  constructor
  · intro apart due
    exact apart entry member due rfl
  · rintro later task - due same
    rw [same] at later
    exact later due

end IseScenario

/-! ## The history of a scenario -/

namespace ScenarioEntry

variable {Time Block : Type} {history : List (ScenarioEntry Time Block)}
  {entry : ScenarioEntry Time Block}

/-- What is said of each run and the history before it, is said of the runs so far and of one
that has just come. -/
theorem forall_ran_concat {property : List (ScenarioEntry Time Block) → Ran Time Block → Prop} :
    (∀ run out, (history ++ [entry])[run]? = some (.ran out) →
        property ((history ++ [entry]).take run) out) ↔
      (∀ run out, history[run]? = some (.ran out) → property (history.take run) out) ∧
        ∀ out, entry = .ran out → property history out := by
  constructor
  · intro all
    refine ⟨fun run out ran => ?_, fun out same => ?_⟩
    · obtain ⟨inside, -⟩ := List.getElem?_eq_some_iff.mp ran
      have earlier := all run out (by rw [List.getElem?_append_left inside, ran])
      rwa [List.take_append_of_le_length inside.le] at earlier
    · have last := all history.length out (by rw [List.getElem?_concat_length, same])
      rwa [List.take_left] at last
  · rintro ⟨earlier, last⟩ run out ran
    rcases Nat.lt_or_ge run history.length with inside | outside
    · rw [List.getElem?_append_left inside] at ran
      rw [List.take_append_of_le_length inside.le]
      exact earlier run out ran
    · obtain ⟨fits, -⟩ := List.getElem?_eq_some_iff.mp ran
      rw [List.length_append, List.length_singleton] at fits
      have same : run = history.length := by omega
      subst same
      rw [List.getElem?_concat_length] at ran
      rw [List.take_left]
      exact last out (Option.some.inj ran)

variable (history) (entry)

/-- The time of the run at a position of the history. -/
def runTimeAt (position : Nat) : Option Time := history[position]?.bind runTime?

theorem runTimeAt_concat_of_lt {position : Nat} (inside : position < history.length) :
    runTimeAt (history ++ [entry]) position = runTimeAt history position := by
  unfold runTimeAt
  rw [List.getElem?_append_left inside]

theorem runTimeAt_concat_length :
    runTimeAt (history ++ [entry]) history.length = entry.runTime? := by
  unfold runTimeAt
  rw [List.getElem?_concat_length]
  rfl

variable [LinearOrder Time]

/-- The runs behind a position, up to another one, are all earlier than a time. -/
def RunsBefore (time : Time) (position stop : Nat) : Prop :=
  ∀ between < stop, position < between → ∀ ran ∈ runTimeAt history between, ran < time

instance (time : Time) (position stop : Nat) : Decidable (RunsBefore history time position stop) :=
  inferInstanceAs (Decidable (∀ between < stop, _))

/-- The task registered at a position, unless it has been called before a second position. -/
def waitingTask (stop position : Nat) : Option (Time × Block) :=
  match history[position]? with
  | some (.registered time block) =>
      if RunsBefore history time position stop then some (time, block) else none
  | _ => none

/-- The run at a position is the first one behind another that is not earlier than a time. -/
def FirstRun (time : Time) (position run : Nat) : Prop :=
  (∃ ran ∈ runTimeAt history run, time ≤ ran) ∧ RunsBefore history time position run

instance (time : Time) (position run : Nat) : Decidable (FirstRun history time position run) :=
  inferInstanceAs (Decidable (_ ∧ _))

/-- The task registered at a position, if a run is the first one behind it that is late enough. -/
def dueTask (run position : Nat) : Option (Time × Block) :=
  match history[position]? with
  | some (.registered time block) =>
      if FirstRun history time position run then some (time, block) else none
  | _ => none

/-- The tasks that become due with a run, in the order of their registration. -/
def due (run : Nat) : List (Time × Block) := (List.range run).filterMap (dueTask history run)

variable {history entry}

theorem runsBefore_concat {time : Time} {position : Nat} (inside : position < history.length) :
    RunsBefore (history ++ [entry]) time position (history.length + 1) ↔
      RunsBefore history time position history.length ∧ ∀ ran ∈ entry.runTime?, ran < time := by
  unfold RunsBefore
  rw [Nat.forall_lt_succ_right, runTimeAt_concat_length, forall_prop_of_true inside]
  refine and_congr_left fun _ => forall₂_congr fun between before => ?_
  rw [runTimeAt_concat_of_lt history entry before]

/-- One more entry leaves a task waiting if it is not a run that calls it. -/
theorem waitingTask_concat {position : Nat} (inside : position < history.length) :
    waitingTask (history ++ [entry]) (history.length + 1) position =
      (waitingTask history history.length position).filter fun task =>
        ∀ ran ∈ entry.runTime?, ran < task.1 := by
  unfold waitingTask
  rw [List.getElem?_append_left inside]
  cases history[position]? with
  | none => rfl
  | some old =>
      cases old with
      | registered time block =>
          simp only [runsBefore_concat inside]
          by_cases before : RunsBefore history time position history.length
          · simp [before, Option.filter]
          · simp [before]
      | periodic task => rfl
      | ran out => rfl
      | set => rfl

theorem waitingTask_concat_length :
    waitingTask (history ++ [entry]) (history.length + 1) history.length =
      match entry with
      | .registered time block => some (time, block)
      | _ => none := by
  have none : ∀ time : Time,
      RunsBefore (history ++ [entry]) time history.length (history.length + 1) := by
    intro time between before behind
    omega
  unfold waitingTask
  rw [List.getElem?_concat_length]
  cases entry with
  | registered time block => exact if_pos (none time)
  | periodic task => rfl
  | ran out => rfl
  | set => rfl

/-- What waits are the registrations without a run that is late enough. -/
theorem waiting_eq (history : List (ScenarioEntry Time Block)) :
    waiting history = (List.range history.length).filterMap
      (waitingTask history history.length) := by
  induction history using List.reverseRecOn with
  | nil => rfl
  | append_singleton history entry ih =>
      have earlier : (List.range history.length).filterMap
            (waitingTask (history ++ [entry]) (history.length + 1)) =
          (waiting history).filter fun task => ∀ ran ∈ entry.runTime?, ran < task.1 := by
        rw [ih, List.filter_filterMap]
        exact List.filterMap_congr fun position member =>
          waitingTask_concat (List.mem_range.mp member)
      rw [waiting_concat, List.length_append, List.length_singleton, List.range_succ,
        List.filterMap_append, earlier]
      simp only [List.filterMap_cons, waitingTask_concat_length, List.filterMap_nil]
      cases entry with
      | registered time block => simp [runTime?, await]
      | periodic task => simp [runTime?, await]
      | set => simp [runTime?, await]
      | ran out => simp [runTime?, await]

theorem waitingTask_take {run position : Nat} (before : position < run) :
    waitingTask (history.take run) run position = waitingTask history run position := by
  have same : ∀ time, RunsBefore (history.take run) time position run ↔
      RunsBefore history time position run := by
    intro time
    unfold RunsBefore runTimeAt
    refine forall₂_congr fun between earlier => ?_
    rw [List.getElem?_take_of_lt earlier]
  unfold waitingTask
  rw [List.getElem?_take_of_lt before]
  simp only [same]

/-- The tasks that become due with a run are those of the waiting ones that it is late enough
for. -/
theorem due_eq {out : Ran Time Block} {run : Nat} (ran : history[run]? = some (.ran out)) :
    due history run = (waiting (history.take run)).filter fun task => task.1 ≤ out.time := by
  have first : ∀ time position, FirstRun history time position run ↔
      time ≤ out.time ∧ RunsBefore history time position run := by
    intro time position
    unfold FirstRun runTimeAt
    rw [ran]
    simp [runTime?]
  have inside : run ≤ history.length := (List.getElem?_eq_some_iff.mp ran).1.le
  rw [waiting_eq, List.length_take_of_le inside, List.filter_filterMap]
  refine List.filterMap_congr fun position member => ?_
  rw [waitingTask_take (List.mem_range.mp member)]
  unfold dueTask waitingTask
  cases history[position]? with
  | none => rfl
  | some entry =>
      cases entry with
      | registered time block =>
          simp only [first]
          by_cases before : RunsBefore history time position run
          · by_cases late : time ≤ out.time
            · simp [before, late, Option.filter]
            · simp [before, late, Option.filter]
          · simp [before]
      | periodic task => rfl
      | ran out => rfl
      | set => rfl

/-- If any run behind a position is late enough, exactly one of them is the first. -/
theorem existsUnique_firstRun {time : Time} {position : Nat}
    (late : ∃ run, position < run ∧ ∃ ran ∈ runTimeAt history run, time ≤ ran) :
    ∃! run, position < run ∧ FirstRun history time position run := by
  have least := Nat.find_spec late
  refine ⟨Nat.find late, ⟨least.1, least.2, ?_⟩, ?_⟩
  · intro between before behind ran found
    by_contra reached
    exact Nat.find_min late before ⟨behind, ran, found, not_lt.mp reached⟩
  · rintro run ⟨behind, ⟨ran, found, reached⟩, first⟩
    refine le_antisymm (not_lt.mp fun later => ?_)
      (Nat.find_min' late ⟨behind, ran, found, reached⟩)
    obtain ⟨earlier, there, due⟩ := least.2
    exact absurd due (not_le.mpr (first _ later least.1 earlier there))

end ScenarioEntry

namespace ScenarioRun

variable {Time Block : Type} [LinearOrder Time] [Add Time] [Sub Time] [Zero Time]

/-- What one call does to the scenario and says of the run that it may be, all calls do. -/
theorem after_holds {Holds : ScenarioRun Time Block → Prop}
    {Calls : List (ScenarioEntry Time Block) → Ran Time Block → Prop} {now step : Time}
    (start : Holds ⟨.start now step, []⟩)
    (each : ∀ run, Holds run → ∀ call, Holds (run.step call) ∧
      ∃ entry, (run.step call).history = run.history ++ [entry] ∧
        ∀ out, entry = .ran out → Calls run.history out)
    (calls : List (ScenarioCall Time Block)) :
    Holds (after now step calls) ∧
      ∀ run out, (after now step calls).history[run]? = some (.ran out) →
        Calls ((after now step calls).history.take run) out := by
  induction calls using List.reverseRecOn with
  | nil => exact ⟨start, nofun⟩
  | append_singleton calls call ih =>
      have last : after now step (calls ++ [call]) = (after now step calls).step call := by
        unfold after
        rw [List.foldl_append]
        rfl
      obtain ⟨holds, entry, history, called⟩ := each _ ih.1 call
      rw [last]
      refine ⟨holds, ?_⟩
      rw [history, ScenarioEntry.forall_ran_concat]
      exact ⟨ih.2, called⟩

/-- The hash holds what waits for a run. -/
def Holds (run : ScenarioRun Time Block) : Prop :=
  run.scenario.tasks = OrderedHash.grouped (ScenarioEntry.waiting run.history)

omit [Add Time] [Zero Time] in
/-- A run calls what is due of the waiting tasks, time after time. -/
theorem Holds.run {scenario : IseScenario Time Block}
    {history : List (ScenarioEntry Time Block)} (holds : Holds ⟨scenario, history⟩)
    (aTime : Option Time) :
    Holds ⟨(scenario.run aTime).1, history ++ [.ran (scenario.run aTime).2]⟩ ∧
      (scenario.run aTime).2.timed = OrderedHash.pairs (OrderedHash.grouped
        ((ScenarioEntry.waiting history).filter fun task =>
          task.1 ≤ (scenario.run aTime).2.time)) := by
  unfold Holds at holds ⊢
  dsimp only at holds ⊢
  have left := OrderedHash.filter_grouped
    (fun time => decide ((scenario.run aTime).2.time < time)) (ScenarioEntry.waiting history)
  have due := OrderedHash.filter_grouped
    (fun time => decide (time ≤ (scenario.run aTime).2.time)) (ScenarioEntry.waiting history)
  rw [ScenarioEntry.waiting_concat, ScenarioEntry.await, ← left, ← due, ← holds]
  have loop := IseScenario.runTasks_eq (aTime.getD scenario.now) scenario.tasks
  exact ⟨congrArg Prod.fst loop, congrArg Prod.snd loop⟩

theorem Holds.step {run : ScenarioRun Time Block} (holds : run.Holds)
    (call : ScenarioCall Time Block) : (run.step call).Holds := by
  cases call with
  | at' thisTime doSomething =>
      have pushed := OrderedHash.push_grouped (ScenarioEntry.waiting run.history)
        (run.scenario.at' thisTime doSomething).now doSomething
      rw [← holds] at pushed
      change _ = OrderedHash.grouped (ScenarioEntry.waiting (run.history ++ _))
      rw [ScenarioEntry.waiting_concat]
      exact pushed
  | every period beginSec endSec doSomething =>
      change run.scenario.tasks = OrderedHash.grouped (ScenarioEntry.waiting (run.history ++ _))
      rw [ScenarioEntry.waiting_concat]
      exact holds
  | run aTime => exact (Holds.run holds aTime).1
  | advanceTime aStep =>
      have earlier : Holds ⟨{ run.scenario with
          step := aStep.getD run.scenario.step
          now := run.scenario.now + aStep.getD run.scenario.step }, run.history⟩ := holds
      exact (earlier.run none).1
  | setNow now =>
      change run.scenario.tasks = OrderedHash.grouped (ScenarioEntry.waiting (run.history ++ _))
      rw [ScenarioEntry.waiting_concat]
      exact holds
  | setStep step =>
      change run.scenario.tasks = OrderedHash.grouped (ScenarioEntry.waiting (run.history ++ _))
      rw [ScenarioEntry.waiting_concat]
      exact holds

/-- What a run calls of the timed tasks. -/
def CallsDue (history : List (ScenarioEntry Time Block)) (out : Ran Time Block) : Prop :=
  out.timed = OrderedHash.pairs (OrderedHash.grouped
    ((ScenarioEntry.waiting history).filter fun task => task.1 ≤ out.time))

theorem callsDue_step {run : ScenarioRun Time Block} (holds : run.Holds)
    (call : ScenarioCall Time Block) :
    ∃ entry, (run.step call).history = run.history ++ [entry] ∧
      ∀ out, entry = .ran out → CallsDue run.history out := by
  cases call with
  | run aTime =>
      refine ⟨_, rfl, ?_⟩
      rintro _ ⟨⟩
      exact (Holds.run holds aTime).2
  | advanceTime aStep =>
      have earlier : Holds ⟨{ run.scenario with
          step := aStep.getD run.scenario.step
          now := run.scenario.now + aStep.getD run.scenario.step }, run.history⟩ := holds
      refine ⟨_, rfl, ?_⟩
      rintro _ ⟨⟩
      exact (earlier.run none).2
  | at' thisTime doSomething => exact ⟨_, rfl, nofun⟩
  | every period beginSec endSec doSomething => exact ⟨_, rfl, nofun⟩
  | setNow now => exact ⟨_, rfl, nofun⟩
  | setStep step => exact ⟨_, rfl, nofun⟩

/-- Every run of a history calls what is due of the tasks that wait for it. -/
theorem callsDue_after (now step : Time) (calls : List (ScenarioCall Time Block)) :
    (after now step calls).Holds ∧
      ∀ run out, (after now step calls).history[run]? = some (.ran out) →
        CallsDue ((after now step calls).history.take run) out := by
  have start : Holds (⟨.start now step, []⟩ : ScenarioRun Time Block) := rfl
  exact after_holds start (fun _ holds call => ⟨holds.step call, callsDue_step holds call⟩) calls

/-- A run calls the tasks that become due with it, time after time. -/
theorem timed_eq (now step : Time) (calls : List (ScenarioCall Time Block)) {run : Nat}
    {out : Ran Time Block} (ran : (after now step calls).history[run]? = some (.ran out)) :
    out.timed = OrderedHash.pairs (OrderedHash.grouped
      (ScenarioEntry.due (after now step calls).history run)) := by
  rw [ScenarioEntry.due_eq ran]
  exact (callsDue_after now step calls).2 run out ran

/-- The blocks that a run calls at a time are those registered under that time for which it is
the first run that is late enough, in the order of their registration; and every registration
has one such run, if there is any late enough behind it. -/
theorem timed_tasks_called_once (now step : Time) (calls : List (ScenarioCall Time Block)) :
    let history := (after now step calls).history
    (∀ run out, history[run]? = some (.ran out) → ∀ time,
      OrderedHash.values out.timed time =
        OrderedHash.values (ScenarioEntry.due history run) time) ∧
    ∀ position time, (∃ run, position < run ∧
        ∃ ran ∈ ScenarioEntry.runTimeAt history run, time ≤ ran) →
      ∃! run, position < run ∧ ScenarioEntry.FirstRun history time position run := by
  refine ⟨?_, fun position time => ScenarioEntry.existsUnique_firstRun⟩
  intro run out ran time
  rw [timed_eq now step calls ran, OrderedHash.values, OrderedHash.filter_pairs_grouped]
  rfl

/-- A block registered under 2, one under 1 and one under the next time, and then two runs. -/
def outOfOrder : List (ScenarioCall Int String) :=
  [.at' (.time 2) "late", .at' (.time 1) "early", .at' .next "next", .run (some 2), .run (some 5)]

theorem timed_tasks_called_once_outOfOrder :
    let history := (after 0 1 outOfOrder).history
    history[3]? = some (.ran ⟨2, [(2, "late"), (2, "next"), (1, "early")], []⟩) ∧
      OrderedHash.values (ScenarioEntry.due history 3) 2 = ["late", "next"] ∧
      ∃! run, 2 < run ∧ ScenarioEntry.FirstRun history 2 2 run := by
  have ran : (after 0 1 outOfOrder).history[3]? =
      some (.ran ⟨2, [(2, "late"), (2, "next"), (1, "early")], []⟩) := by
    decide
  have once := timed_tasks_called_once 0 1 outOfOrder
  refine ⟨ran, ?_, once.2 2 2 ⟨3, by decide, 2, by decide, le_refl 2⟩⟩
  rw [← once.1 3 _ ran]
  rfl

/-- The times of the blocks that a run calls are in the order in which they were first registered,
and so they do not decrease exactly if they were registered so. -/
theorem timed_tasks_in_order (now step : Time) (calls : List (ScenarioCall Time Block)) :
    let history := (after now step calls).history
    ∀ run out, history[run]? = some (.ran out) →
      out.timed = OrderedHash.pairs (OrderedHash.grouped (ScenarioEntry.due history run)) ∧
      (out.timed.Pairwise (fun first second => first.1 ≤ second.1) ↔
        (OrderedHash.keys (ScenarioEntry.due history run)).Pairwise (· ≤ ·)) := by
  intro history run out ran
  have order := timed_eq now step calls ran
  refine ⟨order, ?_⟩
  rw [order]
  exact OrderedHash.pairwise_pairs_grouped le_refl _

theorem timed_tasks_in_order_outOfOrder :
    OrderedHash.keys (ScenarioEntry.due (after 0 1 outOfOrder).history 3) = [2, 1] ∧
      ¬ (OrderedHash.keys (ScenarioEntry.due (after 0 1 outOfOrder).history 3)).Pairwise
        (· ≤ ·) := by
  refine ⟨by decide, fun ordered => ?_⟩
  have inOrder := timed_tasks_in_order 0 1 outOfOrder 3
    ⟨2, [(2, "late"), (2, "next"), (1, "early")], []⟩ (by decide)
  exact absurd (inOrder.2.mpr ordered) (by decide)

/-- A run calls the blocks of a later time before those of an earlier one if the later time was
registered first. -/
theorem not_called_in_time_order :
    ¬ ∀ (calls : List (ScenarioCall Int String)) (run : Nat) (out : Ran Int String),
      (after 0 1 calls).history[run]? = some (.ran out) →
        out.timed.Pairwise fun first second => first.1 ≤ second.1 := by
  intro ordered
  have pairs := ordered outOfOrder 3 ⟨2, [(2, "late"), (2, "next"), (1, "early")], []⟩ (by decide)
  exact absurd pairs (by decide)

end ScenarioRun

end Nise.RubyModels
