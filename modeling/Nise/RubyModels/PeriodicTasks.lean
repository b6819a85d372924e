import Mathlib.Data.List.ReduceOption
import Nise.RubyModels.IseScenario

/-!
# Periodic tasks of a scenario

The loop over the periodic tasks works on one array by index: it marks what it deletes and
compacts the array at the end.  Each registration is followed through the runs behind it on its
own, and the array and the calls are those of all registrations, in their order.
-/

namespace Nise.RubyModels

/-! ## One loop over the tasks -/

namespace PeriodicTask

variable {Time Block : Type} [LinearOrder Time] [Sub Time] (task : PeriodicTask Time Block)
  (now : Time)

/-- A run at this time calls the block. -/
def Elapsed : Prop :=
  (task.beginSec ≤ now ∧ now ≤ task.endSec) ∧ task.period ≤ now - task.last

instance : Decidable (task.Elapsed now) := inferInstanceAs (Decidable (_ ∧ _))

/-- What a run at this time leaves of the task. -/
def passed : Option (PeriodicTask Time Block) :=
  if task.endSec < now then none
  else if task.Elapsed now then some { task with last := now }
  else some task

/-- The block, if a run at this time calls it. -/
def called : Option Block := if task.Elapsed now then some task.block else none

end PeriodicTask

namespace IseScenario

variable {Time Block : Type} [LinearOrder Time] [Sub Time]

/-- One pass changes the task at its index only. -/
theorem runPeriodic_append (now : Time) (done rest : List (Option (PeriodicTask Time Block)))
    (task : PeriodicTask Time Block) (called : List Block) :
    runPeriodic now ⟨done ++ some task :: rest, called⟩ done.length =
      ⟨done ++ task.passed now :: rest, called ++ (task.called now).toList⟩ := by
  unfold runPeriodic PeriodicTask.passed PeriodicTask.called
  simp only [List.getElem?_append_right le_rfl, Nat.sub_self, List.getElem?_cons_zero,
    List.set_append_right _ _ le_rfl, List.set_cons_zero]
  by_cases inside : task.beginSec ≤ now ∧ now ≤ task.endSec
  · rw [if_pos inside, if_neg (not_lt.mpr inside.2)]
    by_cases long : task.period ≤ now - task.last
    · have elapsed : task.Elapsed now := ⟨inside, long⟩
      rw [if_pos long, if_pos elapsed, if_pos elapsed]
      rfl
    · have waits : ¬ task.Elapsed now := fun elapsed => long elapsed.2
      rw [if_neg long, if_neg waits, if_neg waits, Option.toList_none, List.append_nil]
  · have outside : ¬ task.Elapsed now := fun elapsed => inside elapsed.1
    rw [if_neg inside, if_neg outside, if_neg outside, Option.toList_none, List.append_nil]
    split
    · rfl
    · rfl

/-- The loop from an index on. -/
theorem foldl_runPeriodic (now : Time) (tasks : List (PeriodicTask Time Block))
    (done : List (Option (PeriodicTask Time Block))) (called : List Block) :
    (List.range' done.length tasks.length).foldl (runPeriodic now)
        ⟨done ++ tasks.map some, called⟩ =
      ⟨done ++ tasks.map fun task => task.passed now,
        called ++ tasks.filterMap fun task => task.called now⟩ := by
  induction tasks generalizing done called with
  | nil => simp
  | cons task tasks ih =>
      have next := ih (done ++ [task.passed now]) (called ++ (task.called now).toList)
      rw [List.length_append, List.length_singleton, List.append_assoc, List.append_assoc,
        List.append_assoc] at next
      rw [List.length_cons, List.range'_succ, List.foldl_cons, List.map_cons,
        runPeriodic_append]
      refine next.trans ?_
      rw [List.filterMap_cons]
      cases task.called now with
      | none => rfl
      | some block => rfl

/-- A run leaves what each task becomes by itself. -/
theorem runPeriodics_eq (now : Time) (tasks : List (PeriodicTask Time Block)) :
    runPeriodics now tasks =
      (tasks.filterMap fun task => task.passed now,
        tasks.filterMap fun task => task.called now) := by
  have loop := foldl_runPeriodic now tasks [] []
  rw [List.length_nil, List.nil_append, List.nil_append, List.nil_append] at loop
  unfold runPeriodics
  rw [List.range_eq_range', loop]
  dsimp only
  rw [List.reduceOption, List.filterMap_map]
  rfl

end IseScenario

/-! ## A registration and the runs behind it -/

namespace PeriodicTask

variable {Time Block : Type} [LinearOrder Time] [Sub Time] [Zero Time]
  (task : PeriodicTask Time Block)

/-- None of the runs has been later than the range of the task. -/
def Kept (runs : List Time) : Prop := ∀ ran ∈ runs, ran ≤ task.endSec

instance (runs : List Time) : Decidable (task.Kept runs) :=
  inferInstanceAs (Decidable (∀ ran ∈ runs, _))

/-- The times at which the block has been called, for the times of the runs behind its
registration.  The latest run comes first, and so does the latest call. -/
def callTimes : List Time → List Time
  | [] => []
  | time :: earlier =>
      if task.Kept earlier ∧ (task.beginSec ≤ time ∧ time ≤ task.endSec) ∧
          task.period ≤ time - (callTimes earlier).headD 0 then
        time :: callTimes earlier
      else callTimes earlier

/-- The time of the last call, or zero. -/
def previousCall (runs : List Time) : Time := (task.callTimes runs).headD 0

/-- A run behind the others calls the block: the task has not been deleted, the time is in its
range, and the period has passed since the previous call. -/
def CalledAt (runs : List Time) (time : Time) : Prop :=
  task.Kept runs ∧ (task.beginSec ≤ time ∧ time ≤ task.endSec) ∧
    task.period ≤ time - task.previousCall runs

instance (runs : List Time) (time : Time) : Decidable (task.CalledAt runs time) :=
  inferInstanceAs (Decidable (_ ∧ _))

/-- What the runs leave of the task. -/
def afterRuns (runs : List Time) : Option (PeriodicTask Time Block) :=
  if task.Kept runs then some { task with last := task.previousCall runs } else none

theorem callTimes_cons (time : Time) (earlier : List Time) :
    task.callTimes (time :: earlier) =
      if task.CalledAt earlier time then time :: task.callTimes earlier
      else task.callTimes earlier := rfl

omit [Sub Time] [Zero Time] in
theorem kept_cons {time : Time} {earlier : List Time} :
    task.Kept (time :: earlier) ↔ time ≤ task.endSec ∧ task.Kept earlier :=
  List.forall_mem_cons

theorem previousCall_cons (time : Time) (earlier : List Time) :
    task.previousCall (time :: earlier) =
      if task.CalledAt earlier time then time else task.previousCall earlier := by
  unfold previousCall
  rw [callTimes_cons]
  split
  · rfl
  · rfl

theorem calledAt_iff {runs : List Time} (kept : task.Kept runs) (time : Time) :
    task.CalledAt runs time ↔ { task with last := task.previousCall runs }.Elapsed time :=
  and_iff_right kept

/-- One more run does to the task what it does to any task with that last call. -/
theorem afterRuns_cons (time : Time) (earlier : List Time) :
    task.afterRuns (time :: earlier) =
      (task.afterRuns earlier).bind fun left => left.passed time := by
  unfold afterRuns
  simp only [kept_cons, previousCall_cons]
  by_cases kept : task.Kept earlier
  · simp only [kept, and_true, if_true, Option.bind_some, passed]
    by_cases late : task.endSec < time
    · rw [if_neg (not_le.mpr late), if_pos late]
    · rw [if_pos (not_lt.mp late), if_neg late]
      by_cases called : task.CalledAt earlier time
      · rw [if_pos called, if_pos ((task.calledAt_iff kept time).mp called)]
      · rw [if_neg called, if_neg (mt (task.calledAt_iff kept time).mpr called)]
  · simp [kept]

theorem called_afterRuns (time : Time) (runs : List Time) :
    ((task.afterRuns runs).bind fun left => left.called time) =
      if task.CalledAt runs time then some task.block else none := by
  unfold afterRuns
  by_cases kept : task.Kept runs
  · rw [if_pos kept, Option.bind_some, called]
    simp only [task.calledAt_iff kept time]
  · rw [if_neg kept, if_neg fun called => kept called.1]
    rfl

/-- Every call is in the range of the task, and at least a period behind the call before it. -/
theorem callTimes_spaced (runs : List Time) :
    (∀ time ∈ task.callTimes runs, task.beginSec ≤ time ∧ time ≤ task.endSec) ∧
      (task.callTimes runs).IsChain fun later earlier => task.period ≤ later - earlier := by
  induction runs with
  | nil => exact ⟨nofun, .nil⟩
  | cons time earlier ih =>
      rw [callTimes_cons]
      split
      · next called =>
          refine ⟨List.forall_mem_cons.mpr ⟨called.2.1, ih.1⟩, ?_⟩
          have spaced := called.2.2
          unfold previousCall at spaced
          cases before : task.callTimes earlier with
          | nil => exact .singleton time
          | cons last rest =>
              rw [before] at ih spaced
              exact .cons_cons spaced ih.2
      · exact ih

end PeriodicTask

/-! ## All registrations -/

namespace ScenarioEntry

variable {Time Block : Type}

/-- The registered periodic tasks, each with the times of the runs behind it, the latest first. -/
def registrations : List (ScenarioEntry Time Block) → List (PeriodicTask Time Block × List Time)
  | [] => []
  | .periodic task :: rest => (task, (rest.filterMap runTime?).reverse) :: registrations rest
  | _ :: rest => registrations rest

/-- A run is one more for each registration. -/
theorem registrations_ran (history : List (ScenarioEntry Time Block)) (out : Ran Time Block) :
    registrations (history ++ [.ran out]) =
      (registrations history).map fun registration =>
        (registration.1, out.time :: registration.2) := by
  induction history with
  | nil => rfl
  | cons first rest ih =>
      cases first with
      | periodic task =>
          rw [List.cons_append, registrations, ih, registrations, List.filterMap_append,
            List.reverse_append]
          rfl
      | registered time block => exact ih
      | ran out => exact ih
      | set => exact ih

theorem registrations_concat (history : List (ScenarioEntry Time Block))
    {entry : ScenarioEntry Time Block} (noRun : entry.runTime? = none) :
    registrations (history ++ [entry]) = registrations history ++ registrations [entry] := by
  induction history with
  | nil => rfl
  | cons first rest ih =>
      cases first with
      | periodic task =>
          rw [List.cons_append, registrations, ih, registrations, List.filterMap_append,
            List.filterMap_cons_none noRun, List.filterMap_nil, List.append_nil]
          rfl
      | registered time block => exact ih
      | ran out => exact ih
      | set => exact ih

end ScenarioEntry

namespace ScenarioRun

variable {Time Block : Type} [LinearOrder Time] [Add Time] [Sub Time] [Zero Time]

/-- The array holds what the runs have left of the registrations. -/
def HoldsPeriodic (run : ScenarioRun Time Block) : Prop :=
  run.scenario.periodicTasks = (ScenarioEntry.registrations run.history).filterMap
    fun registration => registration.1.afterRuns registration.2

/-- What a run calls of the periodic tasks. -/
def CallsPeriodic (history : List (ScenarioEntry Time Block)) (out : Ran Time Block) : Prop :=
  out.periodic = (ScenarioEntry.registrations history).filterMap fun registration =>
    if registration.1.CalledAt registration.2 out.time then some registration.1.block else none

omit [Add Time] in
theorem HoldsPeriodic.run {scenario : IseScenario Time Block}
    {history : List (ScenarioEntry Time Block)} (holds : HoldsPeriodic ⟨scenario, history⟩)
    (aTime : Option Time) :
    HoldsPeriodic ⟨(scenario.run aTime).1, history ++ [.ran (scenario.run aTime).2]⟩ ∧
      CallsPeriodic history (scenario.run aTime).2 := by
  have loop := IseScenario.runPeriodics_eq (aTime.getD scenario.now) scenario.periodicTasks
  unfold HoldsPeriodic at holds ⊢
  unfold CallsPeriodic
  dsimp only at holds ⊢
  constructor
  · refine (congrArg Prod.fst loop).trans ?_
    dsimp only
    rw [holds, ScenarioEntry.registrations_ran, List.filterMap_filterMap, List.filterMap_map]
    refine List.filterMap_congr fun registration _ => ?_
    exact (registration.1.afterRuns_cons _ _).symm
  · refine (congrArg Prod.snd loop).trans ?_
    dsimp only
    rw [holds, List.filterMap_filterMap]
    refine List.filterMap_congr fun registration _ => ?_
    exact registration.1.called_afterRuns _ _

omit [Add Time] in
theorem HoldsPeriodic.concat {scenario next : IseScenario Time Block}
    {history : List (ScenarioEntry Time Block)} (holds : HoldsPeriodic ⟨scenario, history⟩)
    {entry : ScenarioEntry Time Block} (noRun : entry.runTime? = none)
    (tasks : next.periodicTasks = scenario.periodicTasks ++
      (ScenarioEntry.registrations [entry]).filterMap fun registration =>
        registration.1.afterRuns registration.2) :
    HoldsPeriodic ⟨next, history ++ [entry]⟩ := by
  unfold HoldsPeriodic at holds ⊢
  dsimp only at holds ⊢
  rw [ScenarioEntry.registrations_concat history noRun, List.filterMap_append, tasks, holds]

theorem HoldsPeriodic.step {run : ScenarioRun Time Block} (holds : run.HoldsPeriodic)
    (call : ScenarioCall Time Block) :
    (run.step call).HoldsPeriodic ∧
      ∃ entry, (run.step call).history = run.history ++ [entry] ∧
        ∀ out, entry = .ran out → CallsPeriodic run.history out := by
  cases call with
  | run aTime =>
      refine ⟨(HoldsPeriodic.run holds aTime).1, _, rfl, ?_⟩
      rintro _ ⟨⟩
      exact (HoldsPeriodic.run holds aTime).2
  | advanceTime aStep =>
      have earlier : HoldsPeriodic ⟨{ run.scenario with
          step := aStep.getD run.scenario.step
          now := run.scenario.now + aStep.getD run.scenario.step }, run.history⟩ := holds
      refine ⟨(earlier.run none).1, _, rfl, ?_⟩
      rintro _ ⟨⟩
      exact (earlier.run none).2
  | every period beginSec endSec doSomething =>
      exact ⟨HoldsPeriodic.concat holds rfl rfl, _, rfl, nofun⟩
  | at' thisTime doSomething =>
      exact ⟨HoldsPeriodic.concat holds rfl (List.append_nil _).symm, _, rfl, nofun⟩
  | setNow now =>
      exact ⟨HoldsPeriodic.concat holds rfl (List.append_nil _).symm, _, rfl, nofun⟩
  | setStep step =>
      exact ⟨HoldsPeriodic.concat holds rfl (List.append_nil _).symm, _, rfl, nofun⟩

/-- Every registration is served by itself.  A run calls its block exactly if the run is in the
range, the period has passed since the previous call, and no run has been later than the range;
the calls are in the range and at least a period apart; and a task is in the array exactly as
long as no run has been later than its range, with the time of its last call. -/
theorem periodic_tasks_served (now step : Time) (calls : List (ScenarioCall Time Block)) :
    let run := after now step calls
    (∀ position out, run.history[position]? = some (.ran out) →
      out.periodic = (ScenarioEntry.registrations (run.history.take position)).filterMap
        fun registration =>
          if registration.1.CalledAt registration.2 out.time then some registration.1.block
          else none) ∧
    (run.scenario.periodicTasks = (ScenarioEntry.registrations run.history).filterMap
      fun registration =>
        if registration.1.Kept registration.2 then
          some { registration.1 with last := registration.1.previousCall registration.2 }
        else none) ∧
    ∀ registration ∈ ScenarioEntry.registrations run.history,
      (∀ time ∈ registration.1.callTimes registration.2,
        registration.1.beginSec ≤ time ∧ time ≤ registration.1.endSec) ∧
      (registration.1.callTimes registration.2).IsChain fun later earlier =>
        registration.1.period ≤ later - earlier := by
  have start : HoldsPeriodic (⟨.start now step, []⟩ : ScenarioRun Time Block) := rfl
  have served := after_holds start (fun _ holds call => holds.step call) calls
  exact ⟨served.2, served.1, fun registration _ =>
    registration.1.callTimes_spaced registration.2⟩

/-- A task for every second from 10 to 12, and two runs, the first one too late. -/
def lateRun : List (ScenarioCall Int String) :=
  [.every 1 10 12 "block", .run (some 20), .run (some 11)]

theorem periodic_tasks_served_lateRun :
    (after 0 1 lateRun).history[2]? = some (.ran ⟨11, [], []⟩) ∧
      (ScenarioEntry.registrations ((after 0 1 lateRun).history.take 2)).filterMap
        (fun registration =>
          if registration.1.CalledAt registration.2 11 then some registration.1.block
          else none) = [] := by
  have ran : (after 0 1 lateRun).history[2]? = some (.ran ⟨11, [], []⟩) := by
    decide
  exact ⟨ran, ((periodic_tasks_served 0 1 lateRun).1 2 _ ran).symm⟩

/-- A run in the range of a task, and a period behind zero, does not call a block that has not
been called yet if an earlier run has been too late. -/
theorem not_called_in_range :
    ¬ ∀ (calls : List (ScenarioCall Int String)) (period beginSec endSec : Int) (block : String)
        (position : Nat) (out : Ran Int String), 0 < period →
      (after 0 1 calls).history[0]? = some (.periodic ⟨beginSec, endSec, 0, period, block⟩) →
      (after 0 1 calls).history[position]? = some (.ran out) →
      beginSec ≤ out.time ∧ out.time ≤ endSec →
      (∀ earlier ran, earlier < position → (after 0 1 calls).history[earlier]? = some (.ran ran) →
        block ∉ ran.periodic) →
      period ≤ out.time - 0 → block ∈ out.periodic := by
  intro called
  have none : ∀ earlier ran, earlier < 2 →
      (after 0 1 lateRun).history[earlier]? = some (.ran ran) → "block" ∉ ran.periodic := by
    intro earlier ran before there
    match earlier, before with
    | 0, _ => exact absurd there nofun
    | 1, _ =>
        have out : (after 0 1 lateRun).history[1]? = some (.ran ⟨20, [], []⟩) := by
          decide
        rw [out] at there
        cases there
        exact List.not_mem_nil
  exact List.not_mem_nil (called lateRun 1 10 12 "block" 2 ⟨11, [], []⟩ (by decide) (by decide)
    (by decide) (by decide) none (by decide))

end ScenarioRun

end Nise.RubyModels
