import Mathlib.Algebra.BigOperators.Group.Finset.Basic
import Nise.Dispatcherd.ConnectionHandler

/-!
# Filters of the connections

A connection may name a filter library for each direction.  `ChannelFilterMgr` keeps one record
for each library that is loaded, with the number of its users.  The filters are loaded whenever
a connection is completed and unloaded by the destructor of its handler.
-/

namespace Nise.Dispatcherd

open Nise.Lib

/-- A pointer to a filter that is not null. -/
abbrev FilterBase := Nat

structure ChannelFilterRecord where
  app : Option FilterBase
  refCount : Nat
  deriving DecidableEq, Repr

/-- The records by the names of their libraries. -/
abbrev ChannelFilterMgr := String → Option ChannelFilterRecord

/-- What the service configurator makes of a library that is not loaded: it cannot be found,
or it gives an object that may turn out not to be a filter. -/
inductive Loading where
  | failed
  | found (app : Option FilterBase)
  deriving DecidableEq, Repr

namespace ChannelFilterMgr

variable (mgr : ChannelFilterMgr)

def set (dllName : String) (record : Option ChannelFilterRecord) : ChannelFilterMgr :=
  fun other => if other = dllName then record else mgr other

def load (dllName : String) (loading : Loading) : ChannelFilterMgr × Option FilterBase :=
  match mgr dllName with
  | some record =>
      (mgr.set dllName (some { record with refCount := record.refCount + 1 }), record.app)
  | none =>
      match loading with
      | .failed => (mgr, none)
      | .found app => (mgr.set dllName (some ⟨app, 1⟩), app)

def unload (dllName : String) : ChannelFilterMgr :=
  match mgr dllName with
  | some record =>
      if record.refCount - 1 = 0 then mgr.set dllName none
      else mgr.set dllName (some { record with refCount := record.refCount - 1 })
  | none => mgr

/-- How often a library is in use, by its record. -/
def count (lib : String) : Nat :=
  match mgr lib with
  | some record => record.refCount
  | none => 0

/-- Every record has a user. -/
def Positive : Prop := ∀ lib, ∀ record ∈ mgr lib, 0 < record.refCount

variable {mgr}

theorem count_of_mem {lib : String} {record : ChannelFilterRecord} (present : record ∈ mgr lib) :
    mgr.count lib = record.refCount := by
  unfold count
  rw [Option.mem_def.mp present]

theorem exists_of_count {lib : String} (used : 0 < mgr.count lib) : ∃ record, record ∈ mgr lib := by
  unfold count at used
  split at used
  · next record present => exact ⟨record, present⟩
  · exact absurd used (by decide)

theorem Positive.count_pos_iff (positive : mgr.Positive) {lib : String} :
    0 < mgr.count lib ↔ (mgr lib).isSome = true := by
  constructor
  · intro used
    obtain ⟨record, present⟩ := exists_of_count used
    exact Option.isSome_iff_exists.mpr ⟨record, present⟩
  · intro present
    obtain ⟨record, there⟩ := Option.isSome_iff_exists.mp present
    rw [count_of_mem there]
    exact positive lib record there

theorem count_set (mgr : ChannelFilterMgr) (dllName lib : String)
    (record : ChannelFilterRecord) :
    (mgr.set dllName (some record)).count lib =
      if lib = dllName then record.refCount else mgr.count lib := by
  unfold count set
  by_cases same : lib = dllName
  · simp [same]
  · simp [same]

theorem count_set_none (mgr : ChannelFilterMgr) (dllName lib : String) :
    (mgr.set dllName none).count lib = if lib = dllName then 0 else mgr.count lib := by
  unfold count set
  by_cases same : lib = dllName
  · simp [same]
  · simp [same]

theorem positive_set (positive : mgr.Positive) (dllName : String)
    {record : Option ChannelFilterRecord} (used : ∀ new ∈ record, 0 < new.refCount) :
    (mgr.set dllName record).Positive := by
  intro lib found present
  unfold set at present
  split at present
  · exact used found present
  · exact positive lib found present

theorem Positive.load (positive : mgr.Positive) (dllName : String) (loading : Loading) :
    (mgr.load dllName loading).1.Positive := by
  unfold ChannelFilterMgr.load
  split
  · apply positive_set positive
    rintro new ⟨⟩
    exact Nat.succ_pos _
  · split
    · exact positive
    · apply positive_set positive
      rintro new ⟨⟩
      exact Nat.one_pos

theorem Positive.unload (positive : mgr.Positive) (dllName : String) :
    (mgr.unload dllName).Positive := by
  unfold ChannelFilterMgr.unload
  split
  · split
    · apply positive_set positive
      rintro new ⟨⟩
    · next left =>
        apply positive_set positive
        rintro new ⟨⟩
        exact Nat.pos_of_ne_zero left
  · exact positive

/-- Unloading takes one user away, if there is one. -/
theorem count_unload (mgr : ChannelFilterMgr) (dllName lib : String) :
    (mgr.unload dllName).count lib = mgr.count lib - if lib = dllName then 1 else 0 := by
  unfold unload
  split
  · next record present =>
      have users : mgr.count dllName = record.refCount := count_of_mem present
      by_cases same : lib = dllName
      · rw [same, users]
        split
        · next last => rw [count_set_none, if_pos rfl, if_pos rfl, last]
        · rw [count_set, if_pos rfl, if_pos rfl]
      · rw [if_neg same, Nat.sub_zero]
        split
        · rw [count_set_none, if_neg same]
        · rw [count_set, if_neg same]
  · next absent =>
      by_cases same : lib = dllName
      · have none : mgr.count dllName = 0 := by
          unfold count
          rw [absent]
        rw [same, none, Nat.zero_sub]
      · rw [if_neg same, Nat.sub_zero]

/-- A record that is there before and after has the same filter. -/
theorem app_load {dllName lib : String} {loading : Loading} {record : ChannelFilterRecord}
    (present : record ∈ mgr lib) :
    ∃ after ∈ (mgr.load dllName loading).1 lib, after.app = record.app := by
  unfold load
  by_cases same : lib = dllName
  · rw [same, Option.mem_def] at present
    simp only [present, same, set, if_true]
    exact ⟨_, rfl, rfl⟩
  · split
    · simp only [set, if_neg same]
      exact ⟨record, present, rfl⟩
    · split
      · exact ⟨record, present, rfl⟩
      · simp only [set, if_neg same]
        exact ⟨record, present, rfl⟩

theorem app_unload {dllName lib : String} {after : ChannelFilterRecord}
    (present : after ∈ mgr.unload dllName lib) : ∃ record ∈ mgr lib, record.app = after.app := by
  unfold unload at present
  cases there : mgr dllName with
  | none =>
      simp only [there] at present
      exact ⟨after, present, rfl⟩
  | some record =>
      simp only [there] at present
      by_cases same : lib = dllName
      · split at present
        · simp [set, same] at present
        · simp only [set, same, if_true] at present
          cases present
          exact ⟨record, same ▸ there, rfl⟩
      · split at present
        · simp only [set, if_neg same] at present
          exact ⟨after, present, rfl⟩
        · simp only [set, if_neg same] at present
          exact ⟨after, present, rfl⟩

/-- What a load can do: nothing, or count one user more and give the filter of the record. -/
theorem load_cases (mgr : ChannelFilterMgr) (dllName : String) (loading : Loading) :
    mgr.load dllName loading = (mgr, none) ∧ mgr dllName = none ∧ loading = .failed ∨
      ∃ app, (mgr.load dllName loading).2 = app ∧
        (∀ lib, (mgr.load dllName loading).1.count lib =
          mgr.count lib + if lib = dllName then 1 else 0) ∧
        ((∃ record ∈ mgr dllName, record.app = app) ∨
          mgr dllName = none ∧ loading = .found app) ∧
        ∃ record ∈ (mgr.load dllName loading).1 dllName, record.app = app := by
  unfold load
  cases there : mgr dllName with
  | some record =>
      have users : mgr.count dllName = record.refCount := count_of_mem there
      refine .inr ⟨record.app, rfl, fun lib => ?_, .inl ⟨record, rfl, rfl⟩, _, if_pos rfl, rfl⟩
      dsimp only
      rw [count_set]
      by_cases same : lib = dllName
      · rw [if_pos same, if_pos same, same, users]
      · rw [if_neg same, if_neg same, Nat.add_zero]
  | none =>
      have unused : mgr.count dllName = 0 := by
        unfold count
        rw [there]
      cases loading with
      | failed => exact .inl ⟨rfl, rfl, rfl⟩
      | found app =>
          refine .inr ⟨app, rfl, fun lib => ?_, .inr ⟨rfl, rfl⟩, _, if_pos rfl, rfl⟩
          dsimp only
          rw [count_set]
          by_cases same : lib = dllName
          · rw [if_pos same, if_pos same, same, unused]
          · rw [if_neg same, if_neg same, Nat.add_zero]

end ChannelFilterMgr

/-- One direction of a handler: the name of its library, empty if there is none, and its filter. -/
structure FilterSlot where
  dll : String
  filter : Option FilterBase
  deriving DecidableEq, Repr

namespace FilterSlot

variable (slot : FilterSlot)

/-- The direction holds the filter of a library. -/
def holding (lib : String) : Nat := if slot.dll = lib ∧ slot.filter ≠ none then 1 else 0

/-- The direction names a library. -/
def naming (lib : String) : Nat := if slot.dll = lib ∧ slot.dll ≠ "" then 1 else 0

def load (mgr : ChannelFilterMgr) (loading : Loading) : ChannelFilterMgr × FilterSlot :=
  if slot.dll ≠ "" then
    let loaded := mgr.load slot.dll loading
    (loaded.1, { slot with filter := loaded.2 })
  else (mgr, slot)

def unload (mgr : ChannelFilterMgr) : ChannelFilterMgr :=
  if slot.dll ≠ "" then mgr.unload slot.dll else mgr

/-- The direction has a filter only if it names a library. -/
def Named : Prop := slot.filter ≠ none → slot.dll ≠ ""

/-- The pointer of the direction, if it has one, is the filter of its library. -/
def Valid (mgr : ChannelFilterMgr) : Prop :=
  ∀ filter ∈ slot.filter, ∃ record ∈ mgr slot.dll, record.app = some filter

/-- The direction has no filter yet, and gets one if its library can be loaded. -/
def Loads (mgr : ChannelFilterMgr) (loading : Loading) : Prop :=
  slot.dll ≠ "" → slot.filter = none ∧ (∀ record ∈ mgr slot.dll, record.app ≠ none) ∧
    (mgr slot.dll = none → loading ≠ .found none)

instance (mgr : ChannelFilterMgr) (loading : Loading) : Decidable (slot.Loads mgr loading) :=
  inferInstanceAs (Decidable (slot.dll ≠ "" → slot.filter = none ∧
    (∀ record ∈ mgr slot.dll, record.app ≠ none) ∧ (mgr slot.dll = none → loading ≠ .found none)))

variable {slot} {mgr : ChannelFilterMgr} {loading : Loading}

theorem holding_own (slot : FilterSlot) :
    slot.holding slot.dll = if slot.filter = none then 0 else 1 := by
  unfold holding
  by_cases without : slot.filter = none
  · simp [without]
  · simp [without]

theorem holding_other {lib : String} (other : lib ≠ slot.dll) : slot.holding lib = 0 :=
  if_neg fun both => other both.1.symm

theorem holding_eq_zero (without : slot.filter = none) (lib : String) : slot.holding lib = 0 :=
  if_neg fun both => both.2 without

theorem Named.holding_le (named : slot.Named) (lib : String) :
    slot.holding lib ≤ slot.naming lib := by
  unfold holding naming
  split
  · next holds => rw [if_pos ⟨holds.1, named holds.2⟩]
  · exact Nat.zero_le _

/-- Whether a load that succeeds gives the direction its first filter. -/
theorem loads_iff (named : slot.dll ≠ "") {app : Option FilterBase}
    (source : (∃ record ∈ mgr slot.dll, record.app = app) ∨
      mgr slot.dll = none ∧ loading = .found app) :
    slot.Loads mgr loading ↔ slot.filter = none ∧ app ≠ none := by
  unfold Loads
  rcases source with ⟨record, present, same⟩ | ⟨absent, found⟩
  · constructor
    · intro loads
      exact ⟨(loads named).1, same ▸ (loads named).2.1 record present⟩
    · rintro ⟨without, filter⟩ -
      refine ⟨without, ?_, ?_⟩
      · intro other there
        rw [Option.mem_unique there present, same]
        exact filter
      · intro absent
        rw [absent] at present
        cases present
  · constructor
    · intro loads
      refine ⟨(loads named).1, fun null => (loads named).2.2 absent ?_⟩
      rw [found, null]
    · rintro ⟨without, filter⟩ -
      refine ⟨without, ?_, ?_⟩
      · intro record present
        rw [absent] at present
        cases present
      · intro _ null
        rw [found] at null
        exact filter (Loading.found.inj null)

theorem loads_iff_of_failed (named : slot.dll ≠ "") (absent : mgr slot.dll = none) :
    slot.Loads mgr .failed ↔ slot.filter = none := by
  constructor
  · intro loads
    exact (loads named).1
  · intro without _
    refine ⟨without, ?_, ?_⟩
    · intro record present
      rw [absent] at present
      cases present
    · intro _ impossible
      cases impossible

/-- Loading never counts less than it holds, and counts as much exactly if the direction had no
filter and did not get a null one. -/
theorem load_balance (slot : FilterSlot) (mgr : ChannelFilterMgr) (loading : Loading) :
    (∀ lib, mgr.count lib + (slot.load mgr loading).2.holding lib ≤
        (slot.load mgr loading).1.count lib + slot.holding lib) ∧
      ((∀ lib, mgr.count lib + (slot.load mgr loading).2.holding lib =
          (slot.load mgr loading).1.count lib + slot.holding lib) ↔ slot.Loads mgr loading) := by
  by_cases named : slot.dll = ""
  · unfold load Loads
    simp [named]
  have loaded : slot.load mgr loading =
      ((mgr.load slot.dll loading).1, { slot with filter := (mgr.load slot.dll loading).2 }) :=
    if_pos named
  rw [loaded]
  rcases mgr.load_cases slot.dll loading with
    ⟨nothing, absent, failed⟩ | ⟨app, gives, counts, source, -⟩
  · rw [nothing, failed, loads_iff_of_failed named absent]
    dsimp only
    refine ⟨fun lib => ?_, fun same => ?_, fun without lib => ?_⟩
    · rw [holding_eq_zero rfl]
      exact Nat.le_add_right _ _
    · have here := same slot.dll
      rw [holding_eq_zero rfl, holding_own] at here
      by_contra held
      rw [if_neg held] at here
      omega
    · rw [holding_eq_zero rfl, holding_eq_zero without]
  · let after : FilterSlot := { slot with filter := app }
    have own : after.holding slot.dll = if app = none then 0 else 1 := after.holding_own
    simp only [gives, counts]
    rw [loads_iff named source]
    change (∀ lib, mgr.count lib + after.holding lib ≤ _) ∧
      ((∀ lib, mgr.count lib + after.holding lib = _) ↔ _)
    refine ⟨fun lib => ?_, fun same => ?_, ?_⟩
    · by_cases here : lib = slot.dll
      · rw [here, own, if_pos rfl]
        split <;> omega
      · rw [after.holding_other here, if_neg here]
        omega
    · have here := same slot.dll
      rw [own, if_pos rfl, holding_own] at here
      constructor
      · by_contra held
        rw [if_neg held] at here
        split at here <;> omega
      · intro null
        rw [if_pos null] at here
        omega
    · rintro ⟨without, filter⟩ lib
      by_cases here : lib = slot.dll
      · rw [here, own, if_neg filter, if_pos rfl, holding_eq_zero without]
      · rw [after.holding_other here, if_neg here, holding_eq_zero without]

theorem Named.load (named : slot.Named) : (slot.load mgr loading).2.Named := by
  unfold FilterSlot.load
  split
  · next given => exact fun _ => given
  · exact named

/-- A filter that a direction gets is that of its library. -/
theorem valid_load (valid : slot.Valid mgr) :
    (slot.load mgr loading).2.Valid (slot.load mgr loading).1 := by
  unfold FilterSlot.load
  split
  · rcases mgr.load_cases slot.dll loading with
      ⟨nothing, -, -⟩ | ⟨app, gives, -, -, record, present, same⟩
    · rw [nothing]
      intro filter held
      cases held
    · intro filter held
      rw [Option.mem_def] at held
      exact ⟨record, present, same.trans (gives.symm.trans held)⟩
  · exact valid

/-- Other directions keep their filters. -/
theorem Valid.load_other (valid : slot.Valid mgr) (other : FilterSlot) (loading : Loading) :
    slot.Valid (other.load mgr loading).1 := by
  unfold FilterSlot.load
  split
  · intro filter held
    obtain ⟨record, present, same⟩ := valid filter held
    obtain ⟨after, there, kept⟩ := ChannelFilterMgr.app_load present
    exact ⟨after, there, kept.trans same⟩
  · exact valid

theorem positive_load (positive : mgr.Positive) (slot : FilterSlot) (loading : Loading) :
    (slot.load mgr loading).1.Positive := by
  unfold FilterSlot.load
  split
  · exact positive.load slot.dll loading
  · exact positive

theorem positive_unload (positive : mgr.Positive) (slot : FilterSlot) :
    (slot.unload mgr).Positive := by
  unfold FilterSlot.unload
  split
  · exact positive.unload slot.dll
  · exact positive

theorem count_unload (slot : FilterSlot) (mgr : ChannelFilterMgr) (lib : String) :
    (slot.unload mgr).count lib = mgr.count lib - slot.naming lib := by
  unfold unload naming
  by_cases named : slot.dll = ""
  · simp [named]
  · rw [if_pos named, ChannelFilterMgr.count_unload]
    by_cases same : lib = slot.dll
    · simp [same, named]
    · simp [same, Ne.symm same]

theorem app_unload {lib : String} {after : ChannelFilterRecord}
    (present : after ∈ slot.unload mgr lib) : ∃ record ∈ mgr lib, record.app = after.app := by
  unfold unload at present
  split at present
  · exact ChannelFilterMgr.app_unload present
  · exact ⟨after, present, rfl⟩

end FilterSlot

end Nise.Dispatcherd
