import Mathlib.Data.Bool.Basic
import Mathlib.Data.Prod.Lex
import Mathlib.Order.WithBot
import Nise.Lib.Precedence

/-!
# Runs

`IseRun` builds the command line of each model of a job.  Debug flags and parameters come from the
configuration of the job and from a table of overrides, which may be for one run or all of them, one
user or all, one instance of the model or all, or for all models.  The lookups go from the general
rows to the specific ones, each overwriting what was found before, but the row for all models comes
last.
-/

namespace Nise.RubyModels

open Nise.Lib.Precedence

/-- A row of the override table. -/
structure RunModelOverride where
  debugFlags : Option String
  cmdLineParam : Option String
  deriving DecidableEq, Repr

/-- What a row is found by.  Zero stands for all runs, users, models or instances. -/
structure OverrideKey where
  runId : Nat
  userId : Nat
  modelId : Nat
  modelInstance : Nat
  deriving DecidableEq, Repr

structure JobConfig where
  modelId : Nat
  modelInstance : Nat
  cmdLineParam : Option String
  deriving DecidableEq, Repr

structure Run where
  id : Nat
  debugFlags : Option String
  deriving DecidableEq, Repr

/-- `$DEBUG_MDL`, `$debug_flags` and `$VERBOSE`. -/
structure RunOptions where
  debugMdl : Bool
  debugFlags : Option String
  verbose : Bool
  deriving DecidableEq, Repr

namespace IseRun

/-- The debug flags and the parameters found so far. -/
structure Overrides where
  dfStr : String
  clpStr : String
  deriving DecidableEq, Repr

/-- One lookup with its rescue.  The length of null raises, and what comes behind it is skipped. -/
def lookup (table : OverrideKey → Option RunModelOverride) (key : OverrideKey)
    (overrides : Overrides) : Overrides :=
  match table key with
  | none => overrides
  | some rmo =>
      match rmo.debugFlags with
      | none => overrides
      | some debugFlags =>
          let overrides :=
            if 0 < debugFlags.length then { overrides with dfStr := debugFlags } else overrides
          match rmo.cmdLineParam with
          | none => overrides
          | some cmdLineParam =>
              if 0 < cmdLineParam.length then { overrides with clpStr := cmdLineParam }
              else overrides

section Command

variable (table : OverrideKey → Option RunModelOverride) (userId : Nat) (run : Option Run)
  (aJc : JobConfig)

/-- The lookups of `insert_overrides_as_necessary`, in their order. -/
def lookups : Overrides :=
  let overrides : Overrides := ⟨"", aJc.cmdLineParam.getD ""⟩
  let overrides := lookup table ⟨0, 0, aJc.modelId, 0⟩ overrides
  let overrides := lookup table ⟨0, userId, aJc.modelId, 0⟩ overrides
  let overrides := lookup table ⟨0, 0, aJc.modelId, aJc.modelInstance⟩ overrides
  let overrides := lookup table ⟨0, userId, aJc.modelId, aJc.modelInstance⟩ overrides
  let overrides :=
    match run with
    | none => overrides
    | some run =>
        let overrides := lookup table ⟨run.id, 0, aJc.modelId, 0⟩ overrides
        let overrides := lookup table ⟨run.id, userId, aJc.modelId, 0⟩ overrides
        let overrides := lookup table ⟨run.id, 0, aJc.modelId, aJc.modelInstance⟩ overrides
        lookup table ⟨run.id, userId, aJc.modelId, aJc.modelInstance⟩ overrides
  lookup table ⟨0, 0, 0, 0⟩ overrides

/-- The debug flags of the run and of the command line.  The length of null raises. -/
def finalFlags (options : RunOptions) (dfStr : String) : Option String := do
  let dfStr ←
    match run with
    | none => some dfStr
    | some run => run.debugFlags.map fun flags => if 0 < flags.length then flags else dfStr
  let dfStr ← if options.debugMdl then options.debugFlags else some dfStr
  return if 0 < dfStr.length then " -d" ++ dfStr else dfStr

def insertOverridesAsNecessary (options : RunOptions) (rubyModel : Bool) : Option String := do
  let overrides := lookups table userId run aJc
  let dfStr ← finalFlags run options overrides.dfStr
  let clpSep := if rubyModel then "-#" else ""
  let clpStr := overrides.clpStr
  let clpStr := if 0 < clpStr.length then " " ++ clpSep ++ " " ++ clpStr else clpStr
  let clpStr := if options.verbose then " --verbose " ++ clpStr else clpStr
  return dfStr ++ clpStr

end Command

/-- A text that is not empty, with a mark before it. -/
def marked (mark text : String) : String := if 0 < text.length then mark ++ text else text

/-- Without flags of the run and of the command line, the command has what was looked up. -/
theorem insertOverridesAsNecessary_eq (table : OverrideKey → Option RunModelOverride) (userId : Nat)
    (run : Option Run) (aJc : JobConfig) {options : RunOptions}
    (runFlags : ∀ own ∈ run, own.debugFlags = some "") (debugMdl : options.debugMdl = false)
    (verbose : options.verbose = false) (rubyModel : Bool) :
    insertOverridesAsNecessary table userId run aJc options rubyModel =
      some
        (marked " -d" (lookups table userId run aJc).dfStr ++
          marked (" " ++ (if rubyModel then "-#" else "") ++ " ")
            (lookups table userId run aJc).clpStr) := by
  have flags (dfStr : String) : finalFlags run options dfStr = some (marked " -d" dfStr) := by
    unfold finalFlags
    rw [debugMdl]
    cases run with
    | none => rfl
    | some own =>
        dsimp only
        rw [runFlags own rfl]
        rfl
  unfold insertOverridesAsNecessary
  dsimp only
  rw [flags, verbose]
  rfl

/-! ## Scopes -/

/-- Whether a row is for one run, for one instance and for one user; the lowest scope is that of the
row for all models. -/
abbrev Scope : Type := WithBot (Lex (Bool × Lex (Bool × Bool)))

def modelScope (ofRun ofInstance ofUser : Bool) : Scope :=
  ((toLex (ofRun, toLex (ofInstance, ofUser)) : Lex (Bool × Lex (Bool × Bool))) : Scope)

/-- The scopes of one model, from the lowest to the highest. -/
def modelScopes (run : Option Run) : List Scope :=
  [modelScope false false false, modelScope false false true, modelScope false true false,
    modelScope false true true] ++
  if run.isSome then
    [modelScope true false false, modelScope true false true, modelScope true true false,
      modelScope true true true]
  else []

theorem scopes_sorted (run : Option Run) : (⊥ :: modelScopes run).Pairwise (· < ·) := by
  unfold modelScopes
  generalize run.isSome = hasRun
  cases hasRun <;> decide

theorem modelScope_mem {run : Option Run} {ofRun : Bool} (known : ofRun = true → run.isSome = true)
    (ofInstance ofUser : Bool) : modelScope ofRun ofInstance ofUser ∈ modelScopes run := by
  unfold modelScopes
  cases ofRun with
  | false =>
      apply List.mem_append_left
      cases ofInstance <;> cases ofUser <;> simp
  | true =>
      rw [if_pos (known rfl)]
      apply List.mem_append_right
      cases ofInstance <;> cases ofUser <;> simp

section Rows

variable (table : OverrideKey → Option RunModelOverride) (userId : Nat) (run : Option Run)
  (aJc : JobConfig)

/-- The row of a scope. -/
def keyOf : Scope → OverrideKey
  | ⊥ => ⟨0, 0, 0, 0⟩
  | WithBot.some scope =>
      { runId := if (ofLex scope).1 then (run.map Run.id).getD 0 else 0
        userId := if (ofLex (ofLex scope).2).2 then userId else 0
        modelId := aJc.modelId
        modelInstance := if (ofLex (ofLex scope).2).1 then aJc.modelInstance else 0 }

/-- The keys that are for the job: that of all models, or the model with nothing else that is not
its own.  `run_model_override.rb` also writes rows of model 0 for one user or for one run, which are
never looked up. -/
def Matches (key : OverrideKey) : Prop :=
  key = ⟨0, 0, 0, 0⟩ ∨
    key.modelId = aJc.modelId ∧ (key.runId = 0 ∨ ∃ run' ∈ run, key.runId = run'.id) ∧
      (key.userId = 0 ∨ key.userId = userId) ∧
      (key.modelInstance = 0 ∨ key.modelInstance = aJc.modelInstance)

/-- A part of a key is zero or the job's own. -/
theorem part_iff {part own : Nat} :
    (∃ specific : Bool, (if specific then own else 0) = part) ↔ part = 0 ∨ part = own := by
  constructor
  · rintro ⟨specific, rfl⟩
    cases specific with
    | false => exact .inl rfl
    | true => exact .inr rfl
  · rintro (rfl | rfl)
    · exact ⟨false, rfl⟩
    · exact ⟨true, rfl⟩

theorem runPart_cases (specific : Bool) :
    (if specific then (run.map Run.id).getD 0 else 0) = 0 ∨
      ∃ own ∈ run, (if specific then (run.map Run.id).getD 0 else 0) = own.id := by
  cases specific with
  | false => exact .inl rfl
  | true =>
      cases run with
      | none => exact .inl rfl
      | some own => exact .inr ⟨own, rfl, rfl⟩

theorem exists_runPart {part : Nat} (own : part = 0 ∨ ∃ own ∈ run, part = own.id) :
    ∃ specific : Bool, (specific = true → run.isSome = true) ∧
      (if specific then (run.map Run.id).getD 0 else 0) = part := by
  rcases own with rfl | ⟨own, given, rfl⟩
  · exact ⟨false, nofun, rfl⟩
  · cases given
    exact ⟨true, fun _ => rfl, rfl⟩

/-- The scopes are those of the keys that are for the job. -/
theorem mem_keys_iff (key : OverrideKey) :
    key ∈ (⊥ :: modelScopes run).map (keyOf userId run aJc) ↔ Matches userId run aJc key := by
  constructor
  · intro member
    obtain ⟨scope, _, rfl⟩ := List.mem_map.mp member
    cases scope with
    | none => exact .inl rfl
    | some scope =>
        obtain ⟨ofRun, ofInstance, ofUser⟩ := scope
        exact .inr ⟨rfl, runPart_cases run ofRun, part_iff.mp ⟨ofUser, rfl⟩,
          part_iff.mp ⟨ofInstance, rfl⟩⟩
  · rintro (rfl | ⟨model, ofRun, ofUser, ofInstance⟩)
    · exact List.mem_cons_self
    · obtain ⟨run', known, runKey⟩ := exists_runPart run ofRun
      obtain ⟨user', userKey⟩ := part_iff.mpr ofUser
      obtain ⟨instance', instanceKey⟩ := part_iff.mpr ofInstance
      refine List.mem_map.mpr ⟨modelScope run' instance' user',
        List.mem_cons_of_mem _ (modelScope_mem known instance' user'), ?_⟩
      obtain ⟨runId, userId', modelId, modelInstance⟩ := key
      dsimp only at model runKey userKey instanceKey
      rw [model, ← runKey, ← userKey, ← instanceKey]
      rfl

def nonempty : Option String → Option String
  | none => none
  | some text => if 0 < text.length then some text else none

def suppliedFlags (scope : Scope) : Option String :=
  (table (keyOf userId run aJc scope)).bind fun rmo => nonempty rmo.debugFlags

def suppliedParam (scope : Scope) : Option String :=
  (table (keyOf userId run aJc scope)).bind fun rmo => nonempty rmo.cmdLineParam

/-- The parameters that a lookup gets to. -/
def writtenParam (scope : Scope) : Option String :=
  (table (keyOf userId run aJc scope)).bind fun rmo =>
    rmo.debugFlags.bind fun _ => nonempty rmo.cmdLineParam

theorem writtenParam_part (scope : Scope) (param : String)
    (written : writtenParam table userId run aJc scope = some param) :
    suppliedParam table userId run aJc scope = some param := by
  obtain ⟨rmo, found, written⟩ := Option.bind_eq_some_iff.mp written
  obtain ⟨_, _, written⟩ := Option.bind_eq_some_iff.mp written
  exact Option.bind_eq_some_iff.mpr ⟨rmo, found, written⟩

theorem lookup_eq (scope : Scope) (overrides : Overrides) :
    lookup table (keyOf userId run aJc scope) overrides =
      { dfStr := (suppliedFlags table userId run aJc scope).getD overrides.dfStr
        clpStr := (writtenParam table userId run aJc scope).getD overrides.clpStr } := by
  unfold lookup suppliedFlags writtenParam
  cases table (keyOf userId run aJc scope) with
  | none => rfl
  | some rmo =>
      obtain ⟨debugFlags, cmdLineParam⟩ := rmo
      cases debugFlags with
      | none => rfl
      | some debugFlags =>
          cases cmdLineParam with
          | none =>
              simp only [Option.bind_some, nonempty, Option.getD_none]
              split <;> rfl
          | some cmdLineParam =>
              simp only [Option.bind_some, nonempty]
              split <;> split <;> rfl

theorem lookups_eq :
    lookups table userId run aJc =
      { dfStr := overwrite (suppliedFlags table userId run aJc) "" (modelScopes run ++ [⊥])
        clpStr := overwrite (writtenParam table userId run aJc) (aJc.cmdLineParam.getD "")
          (modelScopes run ++ [⊥]) } := by
  have walked (scopes : List Scope) (overrides : Overrides) :
      scopes.foldl (fun overrides scope => lookup table (keyOf userId run aJc scope) overrides)
          overrides =
        { dfStr := overwrite (suppliedFlags table userId run aJc) overrides.dfStr scopes
          clpStr := overwrite (writtenParam table userId run aJc) overrides.clpStr scopes } := by
    induction scopes generalizing overrides with
    | nil => rfl
    | cons scope rest ih => rw [List.foldl_cons, ih, lookup_eq, overwrite_cons, overwrite_cons]
  refine Eq.trans ?_ (walked (modelScopes run ++ [⊥]) ⟨"", aJc.cmdLineParam.getD ""⟩)
  cases run <;> rfl

/-- Debug flags come from the most specific row unless the row for all models, which is looked up
last, has other ones.  Parameters moreover do not come from a row without debug flags. -/
theorem overrides_iff :
    (Takes (suppliedFlags table userId run aJc) "" (⊥ :: modelScopes run)
        (lookups table userId run aJc).dfStr ↔
      ∀ flags, suppliedFlags table userId run aJc ⊥ = some flags →
        ∀ best, Highest (suppliedFlags table userId run aJc) (modelScopes run) best →
          suppliedFlags table userId run aJc best = some flags) ∧
    (Takes (suppliedParam table userId run aJc) (aJc.cmdLineParam.getD "") (⊥ :: modelScopes run)
        (lookups table userId run aJc).clpStr ↔
      (∀ param, writtenParam table userId run aJc ⊥ = some param →
        ∀ best, Highest (suppliedParam table userId run aJc) (modelScopes run) best →
          suppliedParam table userId run aJc best = some param) ∧
      (writtenParam table userId run aJc ⊥ = none →
        ∀ best param, Highest (suppliedParam table userId run aJc) (⊥ :: modelScopes run) best →
          suppliedParam table userId run aJc best = some param →
          writtenParam table userId run aJc best = none →
          Takes (writtenParam table userId run aJc) (aJc.cmdLineParam.getD "") (modelScopes run)
            param)) := by
  rw [lookups_eq]
  constructor
  · rw [takes_overwrite_concat_iff (fun _ _ has => has) "" (scopes_sorted run)]
    apply and_iff_left
    intro _ best flags _ has skipped
    rw [has] at skipped
    cases skipped
  · exact takes_overwrite_concat_iff (writtenParam_part table userId run aJc) _ (scopes_sorted run)

end Rows

/-- Overrides of a model for everybody and for one user, and one of all models. -/
def threeOverrides (key : OverrideKey) : Option RunModelOverride :=
  if key = ⟨0, 0, 5, 0⟩ then some ⟨some "6", none⟩
  else if key = ⟨0, 2, 5, 0⟩ then some ⟨none, some "fast"⟩
  else if key = ⟨0, 0, 0, 0⟩ then some ⟨some "7", some ""⟩
  else none

theorem precedence_fails :
    let aJc : JobConfig := ⟨5, 1, some "slow"⟩
    lookups threeOverrides 2 none aJc = ⟨"7", "slow"⟩ ∧
      ¬ Takes (suppliedFlags threeOverrides 2 none aJc) "" (⊥ :: modelScopes none) "7" ∧
      Takes (suppliedFlags threeOverrides 2 none aJc) "" (⊥ :: modelScopes none) "6" ∧
      ¬ Takes (suppliedParam threeOverrides 2 none aJc) "slow" (⊥ :: modelScopes none) "slow" ∧
      Takes (suppliedParam threeOverrides 2 none aJc) "slow" (⊥ :: modelScopes none) "fast" := by
  intro aJc
  simp only [takes_iff _ _ (scopes_sorted none)]
  decide

end IseRun

end Nise.RubyModels
