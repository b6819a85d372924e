import Nise.Dispatcherd.ChannelFilters
import Nise.Dispatcherd.LiveConnections

/-!
# The users of a filter library

The count of a library is the number of directions that hold its filter as long as every
handler completes its connection once before it is destroyed.  A connection that is made again
loads its filters again, a handler unloads what it never got, and a command channel does not
unload what it got.
-/

namespace Nise.Dispatcherd

open Nise.Lib

/-- The connections, the input and output directions of the handlers that exist, and the
manager of the filters. -/
structure Filters where
  connections : Connections
  live : Finset Handler
  slots : Handler → FilterSlot × FilterSlot
  mgr : ChannelFilterMgr

/-- An event of a connection, with the filters that the record of a new handler names and what
loading them would come to. -/
structure FilterEvent where
  event : ConnectionEvent
  inputFilter : String
  outputFilter : String
  inputLoading : Loading
  outputLoading : Loading
  deriving DecidableEq, Repr

namespace ConnectionEvent

/-- The handler that is new. -/
def creates : ConnectionEvent → Option Handler
  | .makeConnectionHandler ch _ => some ch
  | .acceptSvcHandler ch _ _ _ => some ch
  | _ => none

/-- The handler for which `complete_connection` runs. -/
def completes (connections : Connections) : ConnectionEvent → Option Handler
  | .initiateConnection ch (.connected _ opening) =>
      match connections.handlers ch with
      | some handler =>
          if handler.state ≠ .established ∧ opening ≠ .rejected then some ch else none
      | none => none
  | .connectionMade ch opening => if opening ≠ .rejected then some ch else none
  | .acceptSvcHandler ch _ _ opening => if opening ≠ .rejected then some ch else none
  | _ => none

/-- The handler whose destructor runs. -/
def destroys (connections : Connections) : ConnectionEvent → Option Handler
  | .handleClose ch =>
      match connections.handlers ch with
      | some handler =>
          if handler.passive = false ∧ handler.commandedClose = false then none else some ch
      | none => none
  | .destroy ch => some ch
  | _ => none

end ConnectionEvent

namespace Filters

def empty : Filters := ⟨.empty, ∅, fun _ => (⟨"", none⟩, ⟨"", none⟩), fun _ => none⟩

variable (filters : Filters)

def setSlots (ch : Handler) (slots : FilterSlot × FilterSlot) : Filters :=
  { filters with
    slots := fun other => if other = ch then slots else filters.slots other }

/-- `initialize` of a new handler. -/
def create (ch : Handler) (inputFilter outputFilter : String) : Filters :=
  { filters.setSlots ch (⟨inputFilter, none⟩, ⟨outputFilter, none⟩) with
    live := insert ch filters.live }

/-- The filters are loaded by `complete_connection`, the input filter first. -/
def completeConnection (ch : Handler) (inputLoading outputLoading : Loading) : Filters :=
  let input := (filters.slots ch).1.load filters.mgr inputLoading
  let output := (filters.slots ch).2.load input.1 outputLoading
  { filters.setSlots ch (input.2, output.2) with mgr := output.1 }

/-- The destructor; the handler of a command channel unloads nothing. -/
def destroy (ch : Handler) : Filters :=
  { filters with
    live := filters.live.erase ch
    mgr :=
      match filters.connections.handlers ch with
      | some handler =>
          if handler.commandRole = false then
            (filters.slots ch).2.unload ((filters.slots ch).1.unload filters.mgr)
          else filters.mgr
      | none => filters.mgr }

/-- A new handler is there before its connection is completed. -/
def created (event : FilterEvent) : Filters :=
  match event.event.creates with
  | some ch => filters.create ch event.inputFilter event.outputFilter
  | none => filters

def step (event : FilterEvent) : Filters :=
  let filters := filters.created event
  let filters :=
    match event.event.completes filters.connections with
    | some ch => filters.completeConnection ch event.inputLoading event.outputLoading
    | none => filters
  let filters :=
    match event.event.destroys filters.connections with
    | some ch => filters.destroy ch
    | none => filters
  { filters with connections := filters.connections.step event.event }

/-! ## The users -/

/-- How many directions of a handler hold the filter of a library. -/
def held (slots : FilterSlot × FilterSlot) (lib : String) : Nat :=
  slots.1.holding lib + slots.2.holding lib

def holders (lib : String) : Nat := ∑ ch ∈ filters.live, held (filters.slots ch) lib

/-- The directions of the other handlers. -/
def otherHolders (ch : Handler) (lib : String) : Nat :=
  ∑ other ∈ filters.live.erase ch, held (filters.slots other) lib

/-- Every library in use has a record with the number of its users, no other library has one,
and no filter is held whose library has been removed. -/
structure RefCounts : Prop where
  counted : ∀ lib, ∀ record ∈ filters.mgr lib, record.refCount = filters.holders lib
  present : ∀ lib, (filters.mgr lib).isSome = true ↔ 0 < filters.holders lib
  valid : ∀ ch ∈ filters.live,
    (filters.slots ch).1.Valid filters.mgr ∧ (filters.slots ch).2.Valid filters.mgr

/-- What is true in every run: the handlers that exist are those of the connections. -/
structure Standing : Prop where
  positive : filters.mgr.Positive
  live : ∀ ch, ch ∈ filters.live ↔ (filters.connections.handlers ch).isSome = true
  named : ∀ ch ∈ filters.live, (filters.slots ch).1.Named ∧ (filters.slots ch).2.Named

/-- A destroyed handler gives back what it has: a command channel has nothing, and another
handler has a filter for each library that it names, unless nobody else uses it. -/
def GivesBack (ch : Handler) (slot : FilterSlot) : Prop :=
  ∀ handler ∈ filters.connections.handlers ch,
    if handler.commandRole = false then
      slot.dll ≠ "" → slot.filter ≠ none ∨ filters.otherHolders ch slot.dll = 0
    else slot.filter = none

/-- A connection is completed by a handler that has no filters yet, and a handler is destroyed
that gives back what it has. -/
structure Balanced (event : FilterEvent) : Prop where
  loads : ∀ ch ∈ event.event.completes filters.connections,
    let slots := (filters.created event).slots ch
    slots.1.Loads filters.mgr event.inputLoading ∧
      slots.2.Loads (slots.1.load filters.mgr event.inputLoading).1 event.outputLoading
  unloads : ∀ ch ∈ event.event.destroys filters.connections,
    filters.GivesBack ch (filters.slots ch).1 ∧ filters.GivesBack ch (filters.slots ch).2

instance (ch : Handler) (slot : FilterSlot) : Decidable (filters.GivesBack ch slot) :=
  inferInstanceAs (Decidable (∀ handler ∈ filters.connections.handlers ch,
    if handler.commandRole = false then
      slot.dll ≠ "" → slot.filter ≠ none ∨ filters.otherHolders ch slot.dll = 0
    else slot.filter = none))

theorem balanced_iff (event : FilterEvent) :
    filters.Balanced event ↔
      (∀ ch ∈ event.event.completes filters.connections,
        ((filters.created event).slots ch).1.Loads filters.mgr event.inputLoading ∧
          ((filters.created event).slots ch).2.Loads
            (((filters.created event).slots ch).1.load filters.mgr event.inputLoading).1
            event.outputLoading) ∧
      ∀ ch ∈ event.event.destroys filters.connections,
        filters.GivesBack ch (filters.slots ch).1 ∧ filters.GivesBack ch (filters.slots ch).2 :=
  ⟨fun balanced => ⟨balanced.loads, balanced.unloads⟩, fun both => ⟨both.1, both.2⟩⟩

instance : DecidablePred filters.Balanced := fun event =>
  decidable_of_iff _ (filters.balanced_iff event).symm

variable {filters}

/-- The counts with no record taken for zero. -/
structure Exact (filters : Filters) : Prop where
  counts : ∀ lib, filters.mgr.count lib = filters.holders lib
  valid : ∀ ch ∈ filters.live,
    (filters.slots ch).1.Valid filters.mgr ∧ (filters.slots ch).2.Valid filters.mgr

theorem refCounts_iff (positive : filters.mgr.Positive) : filters.RefCounts ↔ filters.Exact := by
  constructor
  · intro refCounts
    refine ⟨fun lib => ?_, refCounts.valid⟩
    cases present : filters.mgr lib with
    | some record =>
        rw [ChannelFilterMgr.count_of_mem present]
        exact refCounts.counted lib record present
    | none =>
        have absent : ¬ 0 < filters.holders lib := by
          rw [← refCounts.present, present]
          decide
        have unused : ¬ 0 < filters.mgr.count lib := by
          rw [positive.count_pos_iff, present]
          decide
        omega
  · intro exact'
    refine ⟨?_, ?_, exact'.valid⟩
    · intro lib record present
      rw [← exact'.counts, ChannelFilterMgr.count_of_mem present]
    · intro lib
      rw [← exact'.counts, positive.count_pos_iff]

theorem holders_eq (filters : Filters) {ch : Handler} (member : ch ∈ filters.live)
    (lib : String) :
    filters.holders lib = held (filters.slots ch) lib + filters.otherHolders ch lib :=
  (Finset.add_sum_erase filters.live (fun ch => held (filters.slots ch) lib) member).symm

/-- The count of a library, by the directions of one handler and the others. -/
theorem Exact.count_eq (exact' : filters.Exact) {ch : Handler} (member : ch ∈ filters.live)
    (lib : String) :
    filters.mgr.count lib =
      (filters.slots ch).1.holding lib + (filters.slots ch).2.holding lib +
        filters.otherHolders ch lib := by
  rw [exact'.counts, filters.holders_eq member]
  rfl

/-- The other handlers do not notice a change of one. -/
theorem otherHolders_setSlots (filters : Filters) (ch : Handler)
    (slots : FilterSlot × FilterSlot) (lib : String) :
    (filters.setSlots ch slots).otherHolders ch lib = filters.otherHolders ch lib := by
  refine Finset.sum_congr rfl fun other member => ?_
  have apart : other ≠ ch := Finset.ne_of_mem_erase member
  unfold setSlots
  simp only [if_neg apart]

@[simp] theorem slots_setSlots_self (filters : Filters) (ch : Handler)
    (slots : FilterSlot × FilterSlot) : (filters.setSlots ch slots).slots ch = slots := if_pos rfl

theorem slots_setSlots_of_ne (filters : Filters) {ch other : Handler} (apart : other ≠ ch)
    (slots : FilterSlot × FilterSlot) :
    (filters.setSlots ch slots).slots other = filters.slots other := if_neg apart

/-! ## New handlers -/

theorem Exact.create (exact' : filters.Exact) {ch : Handler} (absent : ch ∉ filters.live)
    (inputFilter outputFilter : String) :
    (filters.create ch inputFilter outputFilter).Exact := by
  have slots : ∀ other ∈ filters.live,
      (filters.create ch inputFilter outputFilter).slots other = filters.slots other := by
    intro other member
    have apart : other ≠ ch := fun same => absent (same ▸ member)
    exact filters.slots_setSlots_of_ne apart _
  have own : (filters.create ch inputFilter outputFilter).slots ch =
      (⟨inputFilter, none⟩, ⟨outputFilter, none⟩) := filters.slots_setSlots_self ch _
  refine ⟨fun lib => ?_, ?_⟩
  · have same : (filters.create ch inputFilter outputFilter).holders lib =
        filters.holders lib := by
      refine (Finset.sum_insert absent).trans ?_
      have nothing : held ((filters.create ch inputFilter outputFilter).slots ch) lib = 0 := by
        rw [own, held, FilterSlot.holding_eq_zero rfl, FilterSlot.holding_eq_zero rfl]
      rw [nothing, Nat.zero_add]
      exact Finset.sum_congr rfl fun other member => by rw [slots other member]
    rw [same]
    exact exact'.counts lib
  · intro other member
    rcases Finset.mem_insert.mp member with rfl | old
    · rw [own]
      refine ⟨?_, ?_⟩
      · rintro filter ⟨⟩
      · rintro filter ⟨⟩
    · rw [slots other old]
      exact exact'.valid other old

/-! ## Completed connections -/

theorem holders_completeConnection {ch : Handler} (member : ch ∈ filters.live)
    (inputLoading outputLoading : Loading) (lib : String) :
    (filters.completeConnection ch inputLoading outputLoading).holders lib =
      held ((filters.completeConnection ch inputLoading outputLoading).slots ch) lib +
        filters.otherHolders ch lib := by
  refine (holders_eq (filters.completeConnection ch inputLoading outputLoading) member lib).trans ?_
  exact congrArg _ (filters.otherHolders_setSlots ch _ lib)

/-- Completing a connection keeps the counts exactly if both directions get their first
filters. -/
theorem Exact.completeConnection_iff (exact' : filters.Exact) {ch : Handler}
    (member : ch ∈ filters.live) (inputLoading outputLoading : Loading) :
    (filters.completeConnection ch inputLoading outputLoading).Exact ↔
      (filters.slots ch).1.Loads filters.mgr inputLoading ∧
        (filters.slots ch).2.Loads ((filters.slots ch).1.load filters.mgr inputLoading).1
          outputLoading := by
  let input := (filters.slots ch).1.load filters.mgr inputLoading
  let output := (filters.slots ch).2.load input.1 outputLoading
  let after := filters.completeConnection ch inputLoading outputLoading
  have slots : after.slots ch = (input.2, output.2) := filters.slots_setSlots_self ch _
  obtain ⟨inputLe, inputIff⟩ :
      (∀ lib, filters.mgr.count lib + input.2.holding lib ≤
        input.1.count lib + (filters.slots ch).1.holding lib) ∧
      ((∀ lib, filters.mgr.count lib + input.2.holding lib =
        input.1.count lib + (filters.slots ch).1.holding lib) ↔ _) :=
    (filters.slots ch).1.load_balance filters.mgr inputLoading
  obtain ⟨outputLe, outputIff⟩ :
      (∀ lib, input.1.count lib + output.2.holding lib ≤
        output.1.count lib + (filters.slots ch).2.holding lib) ∧
      ((∀ lib, input.1.count lib + output.2.holding lib =
        output.1.count lib + (filters.slots ch).2.holding lib) ↔ _) :=
    (filters.slots ch).2.load_balance input.1 outputLoading
  have before := exact'.count_eq member
  have users : ∀ lib, after.holders lib =
      input.2.holding lib + output.2.holding lib + filters.otherHolders ch lib := by
    intro lib
    rw [holders_completeConnection member, slots]
    rfl
  rw [← inputIff, ← outputIff]
  constructor
  · intro exactAfter
    have counts : ∀ lib, output.1.count lib = after.holders lib := exactAfter.counts
    refine ⟨fun lib => ?_, fun lib => ?_⟩
    · have := inputLe lib
      have := outputLe lib
      have := counts lib
      rw [users] at this
      have := before lib
      omega
    · have := inputLe lib
      have := outputLe lib
      have := counts lib
      rw [users] at this
      have := before lib
      omega
  · rintro ⟨inputSame, outputSame⟩
    refine ⟨fun lib => ?_, ?_⟩
    · change output.1.count lib = after.holders lib
      have := inputSame lib
      have := outputSame lib
      have := before lib
      rw [users]
      omega
    · intro other among
      by_cases own : other = ch
      · rw [own, slots]
        obtain ⟨inputValid, outputValid⟩ := exact'.valid ch member
        exact ⟨(FilterSlot.valid_load inputValid).load_other _ _,
          FilterSlot.valid_load (outputValid.load_other _ _)⟩
      · have unchanged : after.slots other = filters.slots other :=
          filters.slots_setSlots_of_ne own _
        obtain ⟨inputValid, outputValid⟩ := exact'.valid other among
        rw [unchanged]
        exact ⟨(inputValid.load_other _ _).load_other _ _,
          (outputValid.load_other _ _).load_other _ _⟩

/-! ## Destroyed handlers -/

/-- A handler that is no command channel gives back a filter exactly if it holds as many as it
names of every library that others use. -/
theorem givesBack_iff {ch : Handler} {handler : ConnectionHandler} {slot : FilterSlot}
    (present : filters.connections.handlers ch = some handler)
    (ordinary : handler.commandRole = false) (named : slot.Named) :
    filters.GivesBack ch slot ↔
      ∀ lib, slot.naming lib = slot.holding lib ∨ filters.otherHolders ch lib = 0 := by
  unfold GivesBack
  rw [present]
  constructor
  · intro gives lib
    have back := gives handler rfl
    rw [if_pos ordinary] at back
    by_cases own : slot.dll = lib ∧ slot.dll ≠ ""
    · rcases back own.2 with filter | alone
      · left
        unfold FilterSlot.naming FilterSlot.holding
        rw [if_pos own, if_pos ⟨own.1, filter⟩]
      · right
        rw [← own.1]
        exact alone
    · left
      have none : slot.naming lib = 0 := if_neg own
      have := named.holding_le lib
      omega
  · rintro same other ⟨⟩
    rw [if_pos ordinary]
    intro dll
    refine (same slot.dll).imp_left fun equal without => ?_
    rw [FilterSlot.holding_eq_zero without] at equal
    unfold FilterSlot.naming at equal
    rw [if_pos ⟨rfl, dll⟩] at equal
    cases equal

theorem holding_le_otherHolders {ch other : Handler} (member : other ∈ filters.live.erase ch)
    (lib : String) : held (filters.slots other) lib ≤ filters.otherHolders ch lib := by
  have split := Finset.add_sum_erase (filters.live.erase ch)
    (fun other => held (filters.slots other) lib) member
  rw [otherHolders, ← split]
  exact Nat.le_add_right _ _

/-- A direction whose library keeps a user and a record keeps its filter. -/
theorem valid_of_count {slot : FilterSlot} {mgr after : ChannelFilterMgr}
    (valid : slot.Valid mgr) (used : slot.filter ≠ none → 0 < after.count slot.dll)
    (apps : ∀ record ∈ after slot.dll, ∃ before ∈ mgr slot.dll, before.app = record.app) :
    slot.Valid after := by
  intro filter holds
  have some : slot.filter ≠ none := by
    rw [Option.mem_def.mp holds]
    exact Option.some_ne_none filter
  obtain ⟨record, present⟩ := ChannelFilterMgr.exists_of_count (used some)
  obtain ⟨before, there, same⟩ := apps record present
  obtain ⟨known, among, app⟩ := valid filter holds
  rw [Option.mem_unique there among] at same
  exact ⟨record, present, same.symm.trans app⟩

theorem Exact.valid_erase (exact' : filters.Exact) {ch : Handler} {after : ChannelFilterMgr}
    (counts : ∀ lib, after.count lib = filters.otherHolders ch lib)
    (apps : ∀ lib, ∀ record ∈ after lib, ∃ before ∈ filters.mgr lib, before.app = record.app) :
    ∀ other ∈ filters.live.erase ch,
      (filters.slots other).1.Valid after ∧ (filters.slots other).2.Valid after := by
  intro other member
  obtain ⟨input, output⟩ := exact'.valid other (Finset.mem_of_mem_erase member)
  have le : ∀ lib, (filters.slots other).1.holding lib + (filters.slots other).2.holding lib ≤
      filters.otherHolders ch lib := holding_le_otherHolders member
  refine ⟨valid_of_count input (fun filter => ?_) (apps _),
    valid_of_count output (fun filter => ?_) (apps _)⟩
  · have holds := (filters.slots other).1.holding_own
    rw [if_neg filter] at holds
    have := le (filters.slots other).1.dll
    rw [counts]
    omega
  · have holds := (filters.slots other).2.holding_own
    rw [if_neg filter] at holds
    have := le (filters.slots other).2.dll
    rw [counts]
    omega

/-- The destructor of a handler that is no command channel. -/
theorem Exact.destroy_iff_ordinary (exact' : filters.Exact) {ch : Handler}
    {handler : ConnectionHandler} (member : ch ∈ filters.live)
    (present : filters.connections.handlers ch = some handler)
    (ordinary : handler.commandRole = false)
    (named : (filters.slots ch).1.Named ∧ (filters.slots ch).2.Named) :
    (filters.destroy ch).Exact ↔
      filters.GivesBack ch (filters.slots ch).1 ∧ filters.GivesBack ch (filters.slots ch).2 := by
  have before := exact'.count_eq member
  have mgr : (filters.destroy ch).mgr =
      (filters.slots ch).2.unload ((filters.slots ch).1.unload filters.mgr) := by
    unfold destroy
    simp only [present, if_pos ordinary]
  have counts : ∀ lib, (filters.destroy ch).mgr.count lib =
      filters.mgr.count lib - (filters.slots ch).1.naming lib -
        (filters.slots ch).2.naming lib := by
    intro lib
    rw [mgr, FilterSlot.count_unload, FilterSlot.count_unload]
  have apps : ∀ lib, ∀ record ∈ (filters.destroy ch).mgr lib,
      ∃ before ∈ filters.mgr lib, before.app = record.app := by
    intro lib record there
    rw [mgr] at there
    obtain ⟨middle, between, same⟩ := FilterSlot.app_unload there
    obtain ⟨first, known, app⟩ := FilterSlot.app_unload between
    exact ⟨first, known, app.trans same⟩
  have inputLe := named.1.holding_le
  have outputLe := named.2.holding_le
  rw [givesBack_iff present ordinary named.1, givesBack_iff present ordinary named.2]
  constructor
  · intro after
    have same : ∀ lib, (filters.slots ch).1.holding lib + (filters.slots ch).2.holding lib +
        filters.otherHolders ch lib - (filters.slots ch).1.naming lib -
          (filters.slots ch).2.naming lib = filters.otherHolders ch lib := by
      intro lib
      rw [← before, ← counts]
      exact after.counts lib
    refine ⟨fun lib => ?_, fun lib => ?_⟩
    · have := same lib
      have := inputLe lib
      have := outputLe lib
      omega
    · have := same lib
      have := inputLe lib
      have := outputLe lib
      omega
  · rintro ⟨input, output⟩
    have same : ∀ lib, (filters.destroy ch).mgr.count lib = filters.otherHolders ch lib := by
      intro lib
      rw [counts, before]
      have := inputLe lib
      have := outputLe lib
      have := input lib
      have := output lib
      omega
    exact ⟨same, exact'.valid_erase same apps⟩

/-- The destructor of the handler of a command channel. -/
theorem Exact.destroy_iff_command (exact' : filters.Exact) {ch : Handler}
    {handler : ConnectionHandler} (member : ch ∈ filters.live)
    (present : filters.connections.handlers ch = some handler)
    (command : ¬ handler.commandRole = false) :
    (filters.destroy ch).Exact ↔
      filters.GivesBack ch (filters.slots ch).1 ∧ filters.GivesBack ch (filters.slots ch).2 := by
  have before := exact'.count_eq member
  have mgr : (filters.destroy ch).mgr = filters.mgr := by
    unfold destroy
    simp only [present, if_neg command]
  have gives : ∀ slot : FilterSlot, filters.GivesBack ch slot ↔ slot.filter = none := by
    intro slot
    unfold GivesBack
    rw [present]
    constructor
    · intro all
      have back := all handler rfl
      rw [if_neg command] at back
      exact back
    · rintro without other ⟨⟩
      rw [if_neg command]
      exact without
  rw [gives, gives]
  constructor
  · intro after
    have none : ∀ lib,
        (filters.slots ch).1.holding lib + (filters.slots ch).2.holding lib = 0 := by
      intro lib
      have same : (filters.destroy ch).mgr.count lib = filters.otherHolders ch lib :=
        after.counts lib
      rw [mgr, before] at same
      omega
    refine ⟨?_, ?_⟩
    · by_contra filter
      have holds := (filters.slots ch).1.holding_own
      rw [if_neg filter] at holds
      have := none (filters.slots ch).1.dll
      omega
    · by_contra filter
      have holds := (filters.slots ch).2.holding_own
      rw [if_neg filter] at holds
      have := none (filters.slots ch).2.dll
      omega
  · rintro ⟨input, output⟩
    have same : ∀ lib, (filters.destroy ch).mgr.count lib = filters.otherHolders ch lib := by
      intro lib
      rw [mgr, before, FilterSlot.holding_eq_zero input, FilterSlot.holding_eq_zero output]
      exact Nat.zero_add _
    refine ⟨same, exact'.valid_erase same ?_⟩
    intro lib record there
    rw [mgr] at there
    exact ⟨record, there, rfl⟩

/-- Destroying a handler keeps the counts exactly if it gives back what it has. -/
theorem Exact.destroy_iff (exact' : filters.Exact) {ch : Handler} {handler : ConnectionHandler}
    (member : ch ∈ filters.live) (present : filters.connections.handlers ch = some handler)
    (named : (filters.slots ch).1.Named ∧ (filters.slots ch).2.Named) :
    (filters.destroy ch).Exact ↔
      filters.GivesBack ch (filters.slots ch).1 ∧ filters.GivesBack ch (filters.slots ch).2 := by
  by_cases ordinary : handler.commandRole = false
  · exact exact'.destroy_iff_ordinary member present ordinary named
  · exact exact'.destroy_iff_command member present ordinary

end Filters

/-! ## The handlers that exist -/

namespace Connections

variable {connections : Connections}

theorem isSome_modify (ch other : Handler) (change : ConnectionHandler → ConnectionHandler) :
    ((connections.modify ch change).handlers other).isSome =
      (connections.handlers other).isSome := by
  by_cases same : other = ch
  · rw [same, handlers_modify_self, Option.isSome_map]
  · rw [handlers_modify_of_ne _ same]

theorem isSome_openHandler (ch other : Handler) (opening : Opening) :
    ((connections.openHandler ch opening).handlers other).isSome =
      (connections.handlers other).isSome := by
  cases opening with
  | rejected => rfl
  | unannounced =>
      unfold openHandler
      rw [handlers_completeConnection]
      exact isSome_modify ch other _
  | complete =>
      unfold openHandler
      rw [handlers_completeConnection]
      exact isSome_modify ch other _

theorem isSome_initiateConnection (ch other : Handler) (attempt : Attempt) :
    ((connections.initiateConnection ch attempt).handlers other).isSome =
      (connections.handlers other).isSome := by
  unfold initiateConnection
  split
  · split
    · refine (isSome_modify ch other _).trans ?_
      unfold connect
      cases attempt with
      | refused handle => exact isSome_modify ch other _
      | pending handle => exact isSome_modify ch other _
      | connected handle opening =>
          exact (isSome_openHandler ch other opening).trans (isSome_modify ch other _)
    · rfl
  · rfl

theorem isSome_setHandler (ch other : Handler) (handler : ConnectionHandler) :
    ((connections.setHandler ch (some handler)).handlers other).isSome = true ↔
      ch = other ∨ (connections.handlers other).isSome = true := by
  by_cases same : ch = other
  · simp [setHandler, same]
  · rw [handlers_setHandler_of_ne _ (Ne.symm same)]
    simp [same]

theorem isSome_destroy (ch other : Handler) :
    ((connections.destroy ch).handlers other).isSome = true ↔
      (connections.handlers other).isSome = true ∧ ch ≠ other := by
  by_cases same : ch = other
  · subst same
    unfold destroy
    cases present : connections.handlers ch with
    | none => simp [present]
    | some handler => simp [setHandler]
  · rw [handlers_destroy_of_ne (Ne.symm same)]
    simp [same]

theorem isSome_handleClose (ch other : Handler) :
    ((connections.handleClose ch).handlers other).isSome = true ↔
      (connections.handlers other).isSome = true ∧
        (ConnectionEvent.handleClose ch).destroys connections ≠ some other := by
  unfold handleClose
  cases present : connections.handlers ch with
  | none =>
      have none : (ConnectionEvent.handleClose ch).destroys connections = none := by
        simp only [ConnectionEvent.destroys, present]
      rw [none]
      simp
  | some handler =>
      dsimp only
      split
      · next again =>
          have none : (ConnectionEvent.handleClose ch).destroys connections = none := by
            simp only [ConnectionEvent.destroys, present]
            exact if_pos again
          rw [none]
          refine (Bool.eq_iff_iff.mp (isSome_modify ch other _)).trans ?_
          simp
      · next gone =>
          have destroyed : (ConnectionEvent.handleClose ch).destroys connections =
              some ch := by
            simp only [ConnectionEvent.destroys, present]
            exact if_neg gone
          rw [destroyed, isSome_destroy]
          simp

/-- Handlers come with the events that create them and go with their destructors. -/
theorem isSome_step (event : ConnectionEvent) (other : Handler) :
    ((connections.step event).handlers other).isSome = true ↔
      (event.creates = some other ∨ (connections.handlers other).isSome = true) ∧
        event.destroys connections ≠ some other := by
  cases event with
  | makeConnectionHandler ch entity =>
      refine (isSome_setHandler ch other _).trans ?_
      simp [ConnectionEvent.creates, ConnectionEvent.destroys]
  | acceptSvcHandler ch entity handle opening =>
      change ((connections.acceptSvcHandler ch entity handle opening).handlers other).isSome = true
        ↔ _
      unfold acceptSvcHandler
      rw [isSome_openHandler, isSome_setHandler]
      simp [ConnectionEvent.creates, ConnectionEvent.destroys]
  | initiateConnection ch attempt =>
      change ((connections.initiateConnection ch attempt).handlers other).isSome = true ↔ _
      rw [isSome_initiateConnection]
      simp [ConnectionEvent.creates, ConnectionEvent.destroys]
  | connectionMade ch opening =>
      change ((connections.openHandler ch opening).handlers other).isSome = true ↔ _
      rw [isSome_openHandler]
      simp [ConnectionEvent.creates, ConnectionEvent.destroys]
  | hello rh peerId answers =>
      change ((connections.processHelloEvent rh peerId answers).handlers other).isSome = true ↔ _
      rw [handlers_processHelloEvent]
      simp [ConnectionEvent.creates, ConnectionEvent.destroys]
  | fail ch =>
      change ((connections.modify ch _).handlers other).isSome = true ↔ _
      rw [isSome_modify]
      simp [ConnectionEvent.creates, ConnectionEvent.destroys]
  | commandedClose ch =>
      change ((connections.modify ch _).handlers other).isSome = true ↔ _
      rw [isSome_modify]
      simp [ConnectionEvent.creates, ConnectionEvent.destroys]
  | handleClose ch =>
      change ((connections.handleClose ch).handlers other).isSome = true ↔ _
      rw [isSome_handleClose]
      simp [ConnectionEvent.creates]
  | destroy ch =>
      change ((connections.destroy ch).handlers other).isSome = true ↔ _
      rw [isSome_destroy]
      simp [ConnectionEvent.creates, ConnectionEvent.destroys]

end Connections

/-! ## One step -/

namespace ConnectionEvent

variable {connections : Connections} {event : ConnectionEvent} {ch : Handler}

/-- A handler that completes its connection is new, or among those that exist. -/
theorem present_of_completes (possible : connections.Possible event)
    (completes : event.completes connections = some ch) :
    event.creates = some ch ∨ (connections.handlers ch).isSome = true := by
  cases event with
  | acceptSvcHandler other entity handle opening =>
      dsimp only [ConnectionEvent.completes] at completes
      split at completes
      · exact .inl completes
      · cases completes
  | connectionMade other opening =>
      obtain ⟨handler, present, -⟩ := possible
      dsimp only [ConnectionEvent.completes] at completes
      split at completes
      · cases completes
        exact .inr (Option.isSome_iff_exists.mpr ⟨handler, present⟩)
      · cases completes
  | initiateConnection other attempt =>
      obtain ⟨handler, present, -⟩ := possible
      cases attempt with
      | connected handle opening =>
          simp only [ConnectionEvent.completes, Option.mem_def.mp present] at completes
          split at completes
          · cases completes
            exact .inr (Option.isSome_iff_exists.mpr ⟨handler, present⟩)
          · cases completes
      | refused handle => cases completes
      | pending handle => cases completes
  | makeConnectionHandler | hello | fail | commandedClose | handleClose | destroy =>
      cases completes

theorem present_of_destroys (possible : connections.Possible event)
    (destroys : event.destroys connections = some ch) :
    (connections.handlers ch).isSome = true := by
  cases event with
  | handleClose other =>
      obtain ⟨handler, present, -⟩ := possible
      simp only [ConnectionEvent.destroys, Option.mem_def.mp present] at destroys
      split at destroys
      · cases destroys
      · cases destroys
        exact Option.isSome_iff_exists.mpr ⟨handler, present⟩
  | destroy other =>
      obtain ⟨handler, present, -⟩ := possible
      cases destroys
      exact Option.isSome_iff_exists.mpr ⟨handler, present⟩
  | makeConnectionHandler | acceptSvcHandler | initiateConnection | connectionMade | hello | fail
  | commandedClose => cases destroys

theorem absent_of_creates (possible : connections.Possible event)
    (creates : event.creates = some ch) : (connections.handlers ch).isSome = false := by
  cases event with
  | makeConnectionHandler other entity =>
      cases creates
      rw [possible.1, Option.isSome_none]
  | acceptSvcHandler other entity handle opening =>
      cases creates
      rw [possible.1, Option.isSome_none]
  | initiateConnection | connectionMade | hello | fail | commandedClose | handleClose | destroy =>
      cases creates

/-- An event that destroys a handler does nothing else to the filters. -/
theorem only_destroys (destroys : event.destroys connections = some ch) :
    event.creates = none ∧ event.completes connections = none := by
  cases event with
  | handleClose | destroy => exact ⟨rfl, rfl⟩
  | makeConnectionHandler | acceptSvcHandler | initiateConnection | connectionMade | hello | fail
  | commandedClose => cases destroys

end ConnectionEvent

namespace Filters

variable {filters : Filters} {event : FilterEvent}

/-- The three kinds of events: a handler is destroyed, a connection is completed, or neither. -/
theorem step_cases (filters : Filters) (event : FilterEvent) :
    (∃ ch, event.event.destroys filters.connections = some ch ∧
        event.event.completes filters.connections = none ∧ event.event.creates = none ∧
        filters.step event =
          { filters.destroy ch with connections := filters.connections.step event.event }) ∨
      (∃ ch, event.event.completes filters.connections = some ch ∧
        event.event.destroys filters.connections = none ∧
        filters.step event =
          { (filters.created event).completeConnection ch event.inputLoading
              event.outputLoading with
            connections := filters.connections.step event.event }) ∨
      event.event.completes filters.connections = none ∧
        event.event.destroys filters.connections = none ∧
        filters.step event =
          { filters.created event with connections := filters.connections.step event.event } := by
  have connections : (filters.created event).connections = filters.connections := by
    unfold created
    split <;> rfl
  cases destroys : event.event.destroys filters.connections with
  | some ch =>
      obtain ⟨creates, completes⟩ := ConnectionEvent.only_destroys destroys
      have created : filters.created event = filters := by
        unfold created
        rw [creates]
      refine .inl ⟨ch, rfl, completes, creates, ?_⟩
      unfold step
      simp only [created, completes, destroys]
      rfl
  | none =>
      cases completes : event.event.completes filters.connections with
      | some ch =>
          refine .inr (.inl ⟨ch, rfl, rfl, ?_⟩)
          have after : ((filters.created event).completeConnection ch event.inputLoading
              event.outputLoading).connections = filters.connections := connections
          unfold step
          simp only [connections, completes, after, destroys]
      | none =>
          refine .inr (.inr ⟨rfl, rfl, ?_⟩)
          unfold step
          simp only [connections, completes, destroys]

theorem mgr_created (filters : Filters) (event : FilterEvent) :
    (filters.created event).mgr = filters.mgr := by
  unfold created
  split <;> rfl

theorem mem_live_created {ch : Handler} :
    ch ∈ (filters.created event).live ↔ event.event.creates = some ch ∨ ch ∈ filters.live := by
  unfold created
  cases event.event.creates with
  | none => simp
  | some new =>
      dsimp only [create]
      rw [Finset.mem_insert, Option.some.injEq, eq_comm]

theorem named_created (standing : filters.Standing) :
    ∀ ch ∈ (filters.created event).live,
      ((filters.created event).slots ch).1.Named ∧ ((filters.created event).slots ch).2.Named := by
  intro ch member
  unfold created at member ⊢
  cases creates : event.event.creates with
  | none =>
      simp only [creates] at member
      exact standing.named ch member
  | some new =>
      simp only [creates] at member
      dsimp only [create]
      by_cases same : ch = new
      · rw [same, slots_setSlots_self]
        exact ⟨fun filter => absurd rfl filter, fun filter => absurd rfl filter⟩
      · rw [slots_setSlots_of_ne _ same]
        exact standing.named ch ((Finset.mem_insert.mp member).resolve_left same)

theorem Exact.created (exact' : filters.Exact) (standing : filters.Standing)
    (possible : filters.connections.Possible event.event) : (filters.created event).Exact := by
  unfold Filters.created
  split
  · next ch creates =>
      have absent : ch ∉ filters.live := by
        rw [standing.live, ConnectionEvent.absent_of_creates possible creates]
        exact Bool.false_ne_true
      exact exact'.create absent _ _
  · exact exact'

theorem mem_live_of_completes (standing : filters.Standing)
    (possible : filters.connections.Possible event.event) {ch : Handler}
    (completes : event.event.completes filters.connections = some ch) :
    ch ∈ (filters.created event).live := by
  rw [mem_live_created, standing.live]
  exact ConnectionEvent.present_of_completes possible completes

theorem positive_completeConnection (positive : filters.mgr.Positive) (ch : Handler)
    (inputLoading outputLoading : Loading) :
    (filters.completeConnection ch inputLoading outputLoading).mgr.Positive :=
  FilterSlot.positive_load (FilterSlot.positive_load positive _ _) _ _

theorem named_completeConnection {ch other : Handler}
    (named : ∀ ch ∈ filters.live, (filters.slots ch).1.Named ∧ (filters.slots ch).2.Named)
    (member : other ∈ filters.live) (own : ch ∈ filters.live)
    (inputLoading outputLoading : Loading) :
    ((filters.completeConnection ch inputLoading outputLoading).slots other).1.Named ∧
      ((filters.completeConnection ch inputLoading outputLoading).slots other).2.Named := by
  unfold completeConnection
  dsimp only
  by_cases same : other = ch
  · rw [same, slots_setSlots_self]
    exact ⟨(named ch own).1.load, (named ch own).2.load⟩
  · rw [slots_setSlots_of_ne _ same]
    exact named other member

theorem positive_destroy (positive : filters.mgr.Positive) (ch : Handler) :
    (filters.destroy ch).mgr.Positive := by
  unfold destroy
  dsimp only
  split
  · split
    · exact FilterSlot.positive_unload (FilterSlot.positive_unload positive _) _
    · exact positive
  · exact positive

theorem Standing.step (standing : filters.Standing)
    (possible : filters.connections.Possible event.event) : (filters.step event).Standing := by
  rcases filters.step_cases event with
    ⟨ch, destroys, completes, creates, after⟩ | ⟨ch, completes, destroys, after⟩ |
    ⟨completes, destroys, after⟩
  · rw [after]
    refine ⟨positive_destroy standing.positive ch, fun other => ?_, ?_⟩
    · rw [Connections.isSome_step, destroys, creates]
      change other ∈ filters.live.erase ch ↔ _
      rw [Finset.mem_erase, standing.live, and_comm, ne_comm]
      simp
    · intro other member
      exact standing.named other (Finset.mem_of_mem_erase member)
  · have own := mem_live_of_completes standing possible completes
    rw [after]
    refine ⟨positive_completeConnection ?_ ch _ _, fun other => ?_, ?_⟩
    · rw [mgr_created]
      exact standing.positive
    · rw [Connections.isSome_step, destroys]
      change other ∈ (filters.created event).live ↔ _
      rw [mem_live_created, standing.live]
      simp
    · intro other member
      exact named_completeConnection (named_created standing) member own _ _
  · rw [after]
    refine ⟨?_, fun other => ?_, named_created standing⟩
    · change (filters.created event).mgr.Positive
      rw [mgr_created]
      exact standing.positive
    · rw [Connections.isSome_step, destroys]
      change other ∈ (filters.created event).live ↔ _
      rw [mem_live_created, standing.live]
      simp

/-- A step keeps the counts exactly if it is balanced. -/
theorem Exact.step_iff (exact' : filters.Exact) (standing : filters.Standing)
    (possible : filters.connections.Possible event.event) :
    (filters.step event).Exact ↔ filters.Balanced event := by
  rcases filters.step_cases event with
    ⟨ch, destroys, completes, -, after⟩ | ⟨ch, completes, destroys, after⟩ |
    ⟨completes, destroys, after⟩
  · have present := ConnectionEvent.present_of_destroys possible destroys
    obtain ⟨handler, there⟩ := Option.isSome_iff_exists.mp present
    have member : ch ∈ filters.live := (standing.live ch).mpr present
    have same : (filters.step event).Exact ↔ (filters.destroy ch).Exact := by
      rw [after]
      exact ⟨fun state => ⟨state.counts, state.valid⟩, fun state => ⟨state.counts, state.valid⟩⟩
    rw [same, exact'.destroy_iff member there (standing.named ch member)]
    constructor
    · intro gives
      refine ⟨?_, ?_⟩
      · intro other among
        rw [completes] at among
        cases among
      · intro other among
        rw [destroys] at among
        cases among
        exact gives
    · intro balanced
      exact balanced.unloads ch destroys
  · have own := mem_live_of_completes standing possible completes
    have same : (filters.step event).Exact ↔
        ((filters.created event).completeConnection ch event.inputLoading
          event.outputLoading).Exact := by
      rw [after]
      exact ⟨fun state => ⟨state.counts, state.valid⟩, fun state => ⟨state.counts, state.valid⟩⟩
    rw [same, (exact'.created standing possible).completeConnection_iff own, mgr_created]
    constructor
    · intro loads
      refine ⟨?_, ?_⟩
      · intro other among
        rw [completes] at among
        cases among
        exact loads
      · intro other among
        rw [destroys] at among
        cases among
    · intro balanced
      exact balanced.loads ch completes
  · refine iff_of_true ?_ ⟨?_, ?_⟩
    · rw [after]
      exact ⟨(exact'.created standing possible).counts, (exact'.created standing possible).valid⟩
    · intro other among
      rw [completes] at among
      cases among
    · intro other among
      rw [destroys] at among
      cases among

end Filters

/-! ## Runs -/

/-- All runs of the connections of a dispatcher, with their filters. -/
def filterRuns : System Filters FilterEvent where
  step filters event := filters.step event
  guard filters event := filters.connections.Possible event.event

instance (filters : Filters) (event : FilterEvent) :
    Decidable (filterRuns.guard filters event) :=
  inferInstanceAs (Decidable (filters.connections.Possible event.event))

/-- The counts are those of the users in every state of a run exactly if every connection is
completed by a handler without filters, and every handler gives back what it has when it is
destroyed. -/
theorem refCounts_iff_balanced {events : List FilterEvent}
    (admitted : filterRuns.Admits Filters.empty events) :
    filterRuns.Throughout Filters.RefCounts Filters.empty events ↔
      (filterRuns.restrict Filters.Balanced).Admits Filters.empty events := by
  have standing : Filters.empty.Standing := by
    refine ⟨?_, fun ch => ?_, ?_⟩
    · intro lib record present
      cases present
    · exact iff_of_false (Finset.notMem_empty ch) Bool.false_ne_true
    · intro ch member
      exact absurd member (Finset.notMem_empty ch)
  have counted : Filters.empty.RefCounts := by
    rw [Filters.refCounts_iff standing.positive]
    refine ⟨fun lib => rfl, ?_⟩
    intro ch member
    exact absurd member (Finset.notMem_empty ch)
  refine filterRuns.throughout_iff_restrict_of_invariant Filters.Standing ?_ ?_ standing counted
    admitted
  · intro filters event standing possible
    exact standing.step possible
  · intro filters event standing counted possible
    change (filters.step event).RefCounts ↔ _
    rw [Filters.refCounts_iff (standing.step possible).positive]
    exact ((Filters.refCounts_iff standing.positive).mp counted).step_iff standing possible

namespace Filtering

/-- A connection that this dispatcher makes. -/
def active : ConnectionRecord := ⟨'B', 'A'⟩

/-- An event of a connection whose record names no filters. -/
def plain (event : ConnectionEvent) : FilterEvent := ⟨event, "", "", .failed, .failed⟩

/-- A handler that filters its input with a library. -/
def made : FilterEvent := ⟨.makeConnectionHandler 1 active, "crypt", "", .failed, .failed⟩

/-- Its connection is made, the first time or again, with a library that can be loaded. -/
def connected : FilterEvent :=
  ⟨.initiateConnection 1 (.connected 5 .complete), "", "", .found (some 9), .failed⟩

/-- The connection is made once, and the handler is destroyed. -/
def once : List FilterEvent := [made, connected, plain (.destroy 1)]

theorem refCounts_once : filterRuns.Throughout Filters.RefCounts Filters.empty once :=
  (refCounts_iff_balanced (by decide)).mpr (by decide)

/-- The connection fails, and is made again. -/
def again : List FilterEvent :=
  [made, connected, plain (.fail 1), plain (.handleClose 1), connected]

theorem refCounts_fails :
    ¬ ∀ events : List FilterEvent, filterRuns.Admits Filters.empty events →
      (filterRuns.exec Filters.empty events).RefCounts := by
  intro claim
  have counted := (claim again (by decide)).counted "crypt" ⟨some 9, 2⟩ (by decide)
  have users : (filterRuns.exec Filters.empty again).holders "crypt" = 1 := by decide
  rw [users] at counted
  cases counted

end Filtering

end Nise.Dispatcherd
