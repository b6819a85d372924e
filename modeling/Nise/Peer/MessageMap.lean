import Nise.Lib.UniqueTable
import Mathlib.Data.List.Basic

/-!
# The message objects of an application

An application registers a message object for each of its message ids, and an event is handed
off to the object that is bound to its id.  The map does not bind an id a second time, and it
is by binding that an object is unregistered.
-/

namespace Nise.Peer

open Nise.Lib

variable {MessageBase : Type}

/-- `map_`, an `ACE_Map_Manager` of ids and pointers that may be null. -/
abbrev ProcessMap (MessageBase : Type) :=
  UniqueTable (Int × Option MessageBase) fun bound entry => bound.1 = entry.1

namespace ProcessMap

variable (map : ProcessMap MessageBase)

def find (appMsgID : Int) : Option (Option MessageBase) :=
  (map.find? fun entry => decide (entry.1 = appMsgID)).map (·.2)

/-- An id that is bound keeps its entry, and 1 is returned. -/
def bindEntry (appMsgID : Int) (msgHandler : Option MessageBase) :
    ProcessMap MessageBase × Int :=
  (UniqueTable.bind map (appMsgID, msgHandler), if (find map appMsgID).isSome then 1 else 0)

def registerProcess (appMsgID : Int) (msgHandler : MessageBase) :
    ProcessMap MessageBase × Int :=
  bindEntry map appMsgID (some msgHandler)

def unregisterProcess (appMsgID : Int) : ProcessMap MessageBase × Int :=
  bindEntry map appMsgID none

end ProcessMap

/-- What a handoff comes to: an object is called, none is found, or a null pointer is found and
called. -/
inductive Handoff (MessageBase : Type) where
  | handled (msgHandler : MessageBase)
  | notFound
  | nullDereference
  deriving DecidableEq, Repr

/-- The branches of `handoff_event`, by what is found for the id in the header. -/
def handoffOf : Option (Option MessageBase) → Handoff MessageBase
  | some (some msgHandler) => .handled msgHandler
  | some none => .nullDereference
  | none => .notFound

def ProcessMap.handoffEvent (map : ProcessMap MessageBase) (appMsgId : UInt16) :
    Handoff MessageBase :=
  handoffOf (map.find appMsgId.toNat)

inductive ProcessCall (MessageBase : Type) where
  | registerProcess (appMsgID : Int) (msgHandler : MessageBase)
  | unregisterProcess (appMsgID : Int)
  | handoffEvent (appMsgId : UInt16)
  deriving DecidableEq, Repr

namespace ProcessMap

/-- What a call does to the map; the objects that are called do not register others. -/
def perform (map : ProcessMap MessageBase) : ProcessCall MessageBase → ProcessMap MessageBase
  | .registerProcess appMsgID msgHandler => (registerProcess map appMsgID msgHandler).1
  | .unregisterProcess appMsgID => (unregisterProcess map appMsgID).1
  | .handoffEvent _ => map

def run (calls : List (ProcessCall MessageBase)) : ProcessMap MessageBase :=
  calls.foldl perform UniqueTable.empty

end ProcessMap

/-- What the calls say about an id, one after another: an object, or none. -/
def registrations (appMsgID : Int) (calls : List (ProcessCall MessageBase)) :
    List (Option MessageBase) :=
  calls.filterMap fun call =>
    match call with
    | .registerProcess id msgHandler => if id = appMsgID then some (some msgHandler) else none
    | .unregisterProcess id => if id = appMsgID then some none else none
    | .handoffEvent _ => none

/-- The handoff of a map: to the object registered last, unless it was unregistered. -/
def expected (calls : List (ProcessCall MessageBase)) (appMsgId : UInt16) :
    Handoff MessageBase :=
  match (registrations appMsgId.toNat calls).getLast? with
  | some (some msgHandler) => .handled msgHandler
  | _ => .notFound

/-- Every handoff of the calls is one to the object registered last. -/
def BehavesAsMap (calls : List (ProcessCall MessageBase)) : Prop :=
  ∀ before appMsgId after, calls = before ++ .handoffEvent appMsgId :: after →
    (ProcessMap.run before).handoffEvent appMsgId = expected before appMsgId

/-- The id has not been mentioned, or the first and the last thing said about it are the same
object. -/
def Steady (calls : List (ProcessCall MessageBase)) (appMsgId : UInt16) : Prop :=
  registrations appMsgId.toNat calls = [] ∨
    ∃ msgHandler, (registrations appMsgId.toNat calls).head? = some (some msgHandler) ∧
      (registrations appMsgId.toNat calls).getLast? = some (some msgHandler)

/-! ## The first registration stays -/

namespace ProcessMap

variable {map : ProcessMap MessageBase} {id appMsgID : Int}

theorem find_bindEntry_of_ne (apart : id ≠ appMsgID) (entry : Option MessageBase) :
    (map.bindEntry id entry).1.find appMsgID = map.find appMsgID := by
  change (UniqueTable.find? (UniqueTable.bind map (id, entry)) _).map _ =
    (UniqueTable.find? map _).map _
  by_cases bound : ∃ other ∈ map.records, other.1 = id
  · obtain ⟨other, member, same⟩ := bound
    have kept : UniqueTable.bind map (id, entry) = map := UniqueTable.bind_of_clash member same
    rw [kept]
  · have added : (UniqueTable.bind map (id, entry)).records = map.records ++ [(id, entry)] :=
      UniqueTable.records_bind_of_apart fun other member same => bound ⟨other, member, same⟩
    rw [UniqueTable.find?, added, List.find?_append]
    simp [apart, UniqueTable.find?]

theorem find_bindEntry_self (entry : Option MessageBase) :
    (map.bindEntry appMsgID entry).1.find appMsgID = (map.find appMsgID <|> some entry) := by
  change (UniqueTable.find? (UniqueTable.bind map (appMsgID, entry)) _).map _ =
    ((UniqueTable.find? map _).map _ <|> some entry)
  cases found : UniqueTable.find? map fun other => decide (other.1 = appMsgID) with
  | some other =>
      have member := List.mem_of_find?_eq_some found
      have same : other.1 = appMsgID := by simpa using List.find?_some found
      have kept : UniqueTable.bind map (appMsgID, entry) = map :=
        UniqueTable.bind_of_clash member same
      rw [kept, found]
      rfl
  | none =>
      have apart : ∀ other ∈ map.records, ¬ other.1 = appMsgID := by
        intro other member
        simpa using UniqueTable.find?_eq_none.mp found other member
      have added : (UniqueTable.bind map (appMsgID, entry)).records =
          map.records ++ [(appMsgID, entry)] := UniqueTable.records_bind_of_apart apart
      have absent : map.records.find? (fun other => decide (other.1 = appMsgID)) = none := found
      rw [UniqueTable.find?, added, List.find?_append, absent]
      simp

theorem find_foldl (calls : List (ProcessCall MessageBase)) (map : ProcessMap MessageBase)
    (appMsgID : Int) :
    (calls.foldl perform map).find appMsgID =
      (map.find appMsgID <|> (registrations appMsgID calls).head?) := by
  induction calls generalizing map with
  | nil =>
      change map.find appMsgID = (map.find appMsgID <|> none)
      cases map.find appMsgID with
      | none => rfl
      | some entry => rfl
  | cons call rest ih =>
      rw [List.foldl_cons, ih]
      cases call with
      | registerProcess id msgHandler =>
          change ((map.bindEntry id (some msgHandler)).1.find appMsgID <|> _) = _
          by_cases same : id = appMsgID
          · subst same
            rw [find_bindEntry_self]
            cases map.find id <;> simp [registrations]
          · rw [find_bindEntry_of_ne same]
            simp [registrations, same]
      | unregisterProcess id =>
          change ((map.bindEntry id none).1.find appMsgID <|> _) = _
          by_cases same : id = appMsgID
          · subst same
            rw [find_bindEntry_self]
            cases map.find id <;> simp [registrations]
          · rw [find_bindEntry_of_ne same]
            simp [registrations, same]
      | handoffEvent id => rfl

theorem find_run (calls : List (ProcessCall MessageBase)) (appMsgID : Int) :
    (run calls).find appMsgID = (registrations appMsgID calls).head? :=
  find_foldl calls UniqueTable.empty appMsgID

end ProcessMap

theorem handoffEvent_eq_expected_iff (calls : List (ProcessCall MessageBase))
    (appMsgId : UInt16) :
    (ProcessMap.run calls).handoffEvent appMsgId = expected calls appMsgId ↔
      Steady calls appMsgId := by
  rw [ProcessMap.handoffEvent, ProcessMap.find_run, expected, Steady]
  cases said : registrations appMsgId.toNat calls with
  | nil => simp [handoffOf]
  | cons first rest =>
      obtain ⟨last, ends⟩ : ∃ last, (first :: rest).getLast? = some last :=
        ⟨_, List.getLast?_eq_some_getLast (List.cons_ne_nil first rest)⟩
      rw [ends]
      cases first with
      | none => cases last <;> simp [handoffOf]
      | some msgHandler =>
          cases last with
          | none => simp [handoffOf]
          | some other =>
              constructor
              · intro same
                rw [Handoff.handled.inj same]
                exact .inr ⟨other, rfl, rfl⟩
              · rintro (empty | ⟨both, first, last⟩)
                · cases empty
                · cases first
                  cases last
                  rfl

/-- The calls behave as a map exactly if every id that is handed off is one that has not been
mentioned before, or for which the same object was given first and last. -/
theorem behavesAsMap_iff (calls : List (ProcessCall MessageBase)) :
    BehavesAsMap calls ↔
      ∀ before appMsgId after, calls = before ++ .handoffEvent appMsgId :: after →
        Steady before appMsgId := by
  constructor
  · intro behaves before appMsgId after split
    exact (handoffEvent_eq_expected_iff before appMsgId).mp (behaves before appMsgId after split)
  · intro steady before appMsgId after split
    exact (handoffEvent_eq_expected_iff before appMsgId).mpr (steady before appMsgId after split)

/-- An object is called after it was unregistered. -/
theorem behavesAsMap_fails :
    ¬ ∀ calls : List (ProcessCall Nat), BehavesAsMap calls := by
  intro always
  have behaves := always [.registerProcess 5 0, .unregisterProcess 5, .handoffEvent 5]
    [.registerProcess 5 0, .unregisterProcess 5] 5 [] rfl
  have steady := (handoffEvent_eq_expected_iff _ 5).mp behaves
  rcases steady with none | ⟨msgHandler, -, last⟩
  · cases none
  · cases last

end Nise.Peer
