import Nise.Lib.UniqueTable

/-!
# The identity tables of a dispatcher

`D2M_TABLE`, `D2D_TABLE` and `D2C_TABLE` say which connection handler leads to a model,
to another dispatcher and to a command client.  Each is a container with several unique
indices, so that a record is inserted only if none of its unique keys is taken.
-/

namespace Nise.Dispatcherd

open Nise.Lib

/-- A `ConnectionHandler` pointer. -/
abbrev Handler := Nat

/-! ## Models -/

structure ModelIdentityRecord where
  chid : Int
  jid : UInt32
  mid : UInt32
  nodeid : UInt32
  pid : Int
  ch : Handler
  deriving DecidableEq, Repr

def ModelIdentityRecord.Clash (bound record : ModelIdentityRecord) : Prop :=
  bound.chid = record.chid ∨ bound.mid = record.mid ∨ bound.pid = record.pid ∨
    bound.ch = record.ch

instance : DecidableRel ModelIdentityRecord.Clash := fun bound record =>
  inferInstanceAs (Decidable (bound.chid = record.chid ∨ bound.mid = record.mid ∨
    bound.pid = record.pid ∨ bound.ch = record.ch))

/-- `D2M_TABLE`. -/
abbrev ModelIdentity := UniqueTable ModelIdentityRecord ModelIdentityRecord.Clash

namespace ModelIdentity

def getCHfromModelID (table : ModelIdentity) (id : UInt32) : Option Handler :=
  (table.find? (·.mid == id)).map (·.ch)

def findCHID (table : ModelIdentity) (id : Int) : Option ModelIdentityRecord :=
  table.find? (·.chid == id)

def unbindCHID (table : ModelIdentity) (chid : Int) : ModelIdentity :=
  table.unbind (·.chid == chid)

def allRecordsInJob (table : ModelIdentity) (jid : UInt32) : List ModelIdentityRecord :=
  table.records.filter (·.jid == jid)

/-- The model id is a unique key. -/
theorem getCHfromModelID_of_mem {table : ModelIdentity} {record : ModelIdentityRecord}
    (member : record ∈ table.records) : table.getCHfromModelID record.mid = some record.ch := by
  unfold getCHfromModelID
  rw [UniqueTable.find?_eq_some _ member (by simp)]
  · rfl
  · intro first second here there
    simp only [beq_iff_eq] at here there
    exact .inr (.inl (here.trans there.symm))

theorem getCHfromModelID_eq_none {table : ModelIdentity} {mid : UInt32} :
    table.getCHfromModelID mid = none ↔ ∀ record ∈ table.records, record.mid ≠ mid := by
  unfold getCHfromModelID
  rw [Option.map_eq_none_iff, UniqueTable.find?_eq_none]
  simp

theorem exists_of_getCHfromModelID {table : ModelIdentity} {mid : UInt32} {ch : Handler}
    (found : table.getCHfromModelID mid = some ch) :
    ∃ record ∈ table.records, record.mid = mid ∧ record.ch = ch := by
  unfold getCHfromModelID at found
  obtain ⟨record, here, same⟩ := Option.map_eq_some_iff.mp found
  refine ⟨record, List.mem_of_find?_eq_some here, ?_, same⟩
  simpa using List.find?_some here

/-- Binding a record leaves the lookups of the other models as they are. -/
theorem getCHfromModelID_bind_of_ne (table : ModelIdentity) (record : ModelIdentityRecord)
    {mid : UInt32} (other : mid ≠ record.mid) :
    getCHfromModelID (table.bind record) mid = table.getCHfromModelID mid := by
  unfold getCHfromModelID UniqueTable.find?
  by_cases apart : ∀ bound ∈ table.records, ¬ ModelIdentityRecord.Clash bound record
  · rw [UniqueTable.records_bind_of_apart apart, List.find?_append]
    simp [Ne.symm other]
  · simp only [not_forall, not_not] at apart
    obtain ⟨bound, member, clash⟩ := apart
    rw [UniqueTable.bind_of_clash member clash]

/-- No model is registered twice. -/
theorem nodup_mids (table : ModelIdentity) : (table.records.map (·.mid)).Nodup := by
  rw [List.nodup_iff_pairwise_ne, List.pairwise_map]
  exact table.unique.imp fun apart same => apart (.inr (.inl same))

/-- A record with the handle is removed if there is one. -/
theorem mem_unbind_found {table : ModelIdentity} {chid : Int} {record : ModelIdentityRecord} :
    record ∈ UniqueTable.records (match table.findCHID chid with
      | some _ => table.unbindCHID chid
      | none => table) ↔ record ∈ table.records ∧ record.chid ≠ chid := by
  split
  · rw [unbindCHID, UniqueTable.mem_unbind]
    simp
  · next none =>
      rw [iff_self_and]
      intro member
      have other := List.find?_eq_none.mp none record member
      simpa using other

end ModelIdentity

/-! ## Dispatchers -/

structure DispatcherIdentityRecord where
  chid : Int
  peer : UInt32
  node : UInt32
  ch : Handler
  deriving DecidableEq, Repr

def DispatcherIdentityRecord.Clash (bound record : DispatcherIdentityRecord) : Prop :=
  bound.chid = record.chid ∨ bound.peer = record.peer ∨ bound.node = record.node ∨
    bound.ch = record.ch

instance : DecidableRel DispatcherIdentityRecord.Clash := fun bound record =>
  inferInstanceAs (Decidable (bound.chid = record.chid ∨ bound.peer = record.peer ∨
    bound.node = record.node ∨ bound.ch = record.ch))

/-- `D2D_TABLE`. -/
abbrev DispatcherIdentity := UniqueTable DispatcherIdentityRecord DispatcherIdentityRecord.Clash

namespace DispatcherIdentity

def getCHfromNodeID (table : DispatcherIdentity) (id : UInt32) : Option Handler :=
  (table.find? (·.node == id)).map (·.ch)

def unbindCHID (table : DispatcherIdentity) (chid : Int) : DispatcherIdentity :=
  table.unbind (·.chid == chid)

end DispatcherIdentity

/-! ## Command clients -/

structure CommandIdentityRecord where
  chid : Int
  ch : Handler
  deriving DecidableEq, Repr

def CommandIdentityRecord.Clash (bound record : CommandIdentityRecord) : Prop :=
  bound.chid = record.chid ∨ bound.ch = record.ch

instance : DecidableRel CommandIdentityRecord.Clash := fun bound record =>
  inferInstanceAs (Decidable (bound.chid = record.chid ∨ bound.ch = record.ch))

/-- `D2C_TABLE`. -/
abbrev CommandIdentity := UniqueTable CommandIdentityRecord CommandIdentityRecord.Clash

def CommandIdentity.unbindCHID (table : CommandIdentity) (chid : Int) : CommandIdentity :=
  table.unbind (·.chid == chid)

end Nise.Dispatcherd
