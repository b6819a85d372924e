import Mathlib.Data.List.Basic

/-!
# Which peers are powered down

Every controller keeps a flag for each peer of its table, set by the `EndRunComplete` of the
peer, and asks after each of these messages whether all peers but itself have reported.
-/

namespace Nise.Utilities

/-- Set or clear a flag of the peers with a property. -/
def setFlag (flag : UInt32 → Bool) (affects : UInt32 → Bool) (value : Bool) : UInt32 → Bool :=
  fun peerId => if affects peerId then value else flag peerId

variable (modelId : UInt32) (peers : List UInt32)

/-- The flags after a report; the controller does not note its own. -/
def powerDown (poweredDown : UInt32 → Bool) (peerId : UInt32) : UInt32 → Bool :=
  if modelId ≠ peerId then
    setFlag poweredDown (fun other => peers.contains other && other == peerId) true
  else poweredDown

/-- All peers but the controller itself are powered down. -/
def shutMeDown (poweredDown : UInt32 → Bool) : Bool :=
  peers.all fun other => other == modelId || poweredDown other

variable {modelId peers}

theorem powerDown_of_mem {other : UInt32} (member : other ∈ peers) (apart : other ≠ modelId)
    (poweredDown : UInt32 → Bool) (peerId : UInt32) :
    powerDown modelId peers poweredDown peerId other =
      (poweredDown other || other == peerId) := by
  unfold powerDown setFlag
  by_cases same : other = peerId
  · have reports : modelId ≠ peerId := fun own => apart (same.trans own.symm)
    simp [reports, same, same ▸ member]
  · split
    · simp [same]
    · simp [same]

/-- A peer is powered down exactly if it has reported, or was before. -/
theorem foldl_powerDown {other : UInt32} (member : other ∈ peers) (apart : other ≠ modelId)
    (reports : List UInt32) (poweredDown : UInt32 → Bool) :
    reports.foldl (powerDown modelId peers) poweredDown other =
      (poweredDown other || reports.contains other) := by
  induction reports generalizing poweredDown with
  | nil => simp
  | cons peerId rest ih =>
      rw [List.foldl_cons, ih, powerDown_of_mem member apart, List.contains_cons, Bool.or_assoc]

/-- Every peer but the controller is among those that have reported. -/
def AllReported (modelId : UInt32) (peers reports : List UInt32) : Prop :=
  ∀ other ∈ peers, other ≠ modelId → other ∈ reports

instance (reports : List UInt32) : Decidable (AllReported modelId peers reports) :=
  List.decidableBAll (fun other => other ≠ modelId → other ∈ reports) peers

theorem shutMeDown_foldl {poweredDown : UInt32 → Bool}
    (running : ∀ other ∈ peers, poweredDown other = false) (reports : List UInt32) :
    shutMeDown modelId peers (reports.foldl (powerDown modelId peers) poweredDown) = true ↔
      AllReported modelId peers reports := by
  unfold shutMeDown AllReported
  rw [List.all_eq_true]
  refine forall₂_congr fun other member => ?_
  by_cases own : other = modelId
  · simp [own]
  · rw [foldl_powerDown member own, running other member]
    simp [own]

end Nise.Utilities
