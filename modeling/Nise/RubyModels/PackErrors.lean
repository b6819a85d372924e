import Nise.RubyModels.FullMessage

/-!
# What cannot be packed

`pack_message` rescues whatever a directive or a string encoding raises for an item, reports the
item on the error output and goes on with the next one.
-/

namespace Nise.RubyModels

/-- What is written to the error output for an item: its name, its value and its format code. -/
structure PackError (Member : Type) where
  item : Member
  value : MemberValue
  fmtCode : ItemFormat.FmtCode
  deriving DecidableEq

/-- A message that is being packed, and the error output. -/
structure Packing (Member : Type) where
  message : FullMessage Member
  stderr : List (PackError Member)

namespace FullMessage

variable {Member : Type}

/-- Pack one item; the second part is the `rescue`. -/
def packItemOrReport (packing : Packing Member) (item : Member × ItemFormat) : Packing Member where
  message := packing.message.packItem item
  stderr :=
    match (item.2.packValue (packing.message.members item.1)).1 with
    | some _ => packing.stderr
    | none =>
        packing.stderr ++ [⟨item.1, packing.message.members item.1, item.2.fmtCode⟩]

def packMessageReporting (message : FullMessage Member) : Packing Member :=
  message.msgItems.foldl packItemOrReport ⟨{ message with out := [], pos := 0 }, []⟩

/-- The report about an item, if there is one. -/
def rejection (members : Member → MemberValue) (item : Member × ItemFormat) :
    Option (PackError Member) :=
  if (item.2.packValue (members item.1)).1 = none then
    some ⟨item.1, members item.1, item.2.fmtCode⟩
  else none

theorem stderr_packItemOrReport (packing : Packing Member) (item : Member × ItemFormat) :
    (packItemOrReport packing item).stderr =
      packing.stderr ++ (rejection packing.message.members item).toList := by
  unfold packItemOrReport rejection
  dsimp only
  cases (item.2.packValue (packing.message.members item.1)).1 with
  | none => rfl
  | some bytes => exact (List.append_nil _).symm

/-- The loop packs as it does without the reports, and reports what it rejects. -/
theorem foldl_packItemOrReport (items : List (Member × ItemFormat)) (packing : Packing Member) :
    items.foldl packItemOrReport packing =
      ⟨items.foldl packItem packing.message,
        packing.stderr ++ items.filterMap (rejection packing.message.members)⟩ := by
  induction items generalizing packing with
  | nil =>
      rw [List.filterMap_nil, List.append_nil]
      rfl
  | cons item items ih =>
      rw [List.foldl_cons, ih, stderr_packItemOrReport, List.append_assoc, List.foldl_cons,
        List.filterMap_cons]
      congr 1
      change packing.stderr ++ (_ ++ items.filterMap (rejection packing.message.members)) = _
      cases rejection packing.message.members item with
      | none => rfl
      | some report => rfl

theorem packMessageReporting_eq (message : FullMessage Member) :
    message.packMessageReporting =
      ⟨message.packMessage, message.msgItems.filterMap (rejection message.members)⟩ :=
  foldl_packItemOrReport message.msgItems _

/-- The encodings of the items that are not rejected, in their order. -/
def encodings (message : FullMessage Member) : List (List UInt8) :=
  message.fields.filterMap fun field => (field.1.packValue field.2).1

theorem packedBytes_eq (fields : List (ItemFormat × MemberValue)) :
    packedBytes fields = (fields.filterMap fun field => (field.1.packValue field.2).1).flatten := by
  unfold packedBytes
  induction fields with
  | nil => rfl
  | cons field fields ih =>
      rw [List.flatMap_cons, ih, List.filterMap_cons]
      cases (field.1.packValue field.2).1 with
      | none => rfl
      | some bytes => rfl

/-- A list of byte strings that are the encodings of all items, in their order. -/
def EncodesAll (message : FullMessage Member) (bytes : List (List UInt8)) : Prop :=
  List.Forall₂ (fun field encoding => (field.1.packValue field.2).1 = some encoding)
    message.fields bytes

theorem forall₂_packValue_iff {fields : List (ItemFormat × MemberValue)}
    {bytes : List (List UInt8)} :
    List.Forall₂ (fun field encoding => (field.1.packValue field.2).1 = some encoding)
        fields bytes ↔
      (∀ field ∈ fields, (field.1.packValue field.2).1 ≠ none) ∧
        bytes = fields.filterMap fun field => (field.1.packValue field.2).1 := by
  induction fields generalizing bytes with
  | nil =>
      rw [List.forall₂_nil_left_iff]
      exact ⟨fun empty => ⟨nofun, empty⟩, And.right⟩
  | cons field fields ih =>
      rw [List.forall₂_cons_left_iff, List.forall_mem_cons]
      constructor
      · rintro ⟨first, rest, packed, later, rfl⟩
        obtain ⟨accepted, same⟩ := ih.mp later
        refine ⟨⟨fun rejected => ?_, accepted⟩, ?_⟩
        · rw [packed] at rejected
          cases rejected
        · rw [List.filterMap_cons, packed, same]
      · rintro ⟨⟨first, accepted⟩, rfl⟩
        obtain ⟨encoding, packed⟩ := Option.ne_none_iff_exists'.mp first
        refine ⟨encoding, _, packed, ih.mpr ⟨accepted, rfl⟩, ?_⟩
        rw [List.filterMap_cons, packed]

theorem rejections_eq_nil_iff (message : FullMessage Member) :
    message.msgItems.filterMap (rejection message.members) = [] ↔
      ∀ field ∈ message.fields, (field.1.packValue field.2).1 ≠ none := by
  unfold fields rejection
  rw [List.filterMap_eq_nil_iff, List.forall_mem_map]
  refine forall₂_congr fun item _ => ?_
  rw [ite_eq_right_iff]
  constructor
  · intro none rejected
    cases none rejected
  · intro accepted rejected
    exact absurd rejected accepted

/-- Packing never raises: the result is the encodings of the items that can be packed, in their
order, and the other items are reported, in their order; so it has the encodings of all items
exactly if nothing is reported. -/
theorem pack_message_reports (message : FullMessage Member) :
    let packing := message.packMessageReporting
    packing.message.out = message.encodings.flatten ∧
      packing.stderr = message.msgItems.filterMap (rejection message.members) ∧
      (packing.stderr = [] ↔
        ∃ bytes, message.EncodesAll bytes ∧ packing.message.out = bytes.flatten) := by
  have packed : message.packMessage.out = message.encodings.flatten := by
    rw [out_packMessage, packedBytes_eq]
    rfl
  rw [packMessageReporting_eq]
  refine ⟨packed, rfl, ?_⟩
  rw [rejections_eq_nil_iff]
  constructor
  · intro accepted
    exact ⟨message.encodings, forall₂_packValue_iff.mpr ⟨accepted, rfl⟩, packed⟩
  · rintro ⟨bytes, all, -⟩
    exact (forall₂_packValue_iff.mp all).1

/-- An integer that has not been set, and one behind it. -/
def unset : FullMessage Bool where
  msgItems := [(false, .symbol (.plain .uint16)), (true, .symbol (.plain .uint8))]
  members member := if member then .scalar (.plain (.integer 5)) else .scalar (.plain .nil)
  raw := []
  out := []
  pos := 0

/-- The message without the first integer is returned, and nothing is raised. -/
theorem unset_incomplete :
    unset.packMessageReporting.message.out = [5] ∧
      ¬ ∃ bytes, unset.EncodesAll bytes ∧
        unset.packMessageReporting.message.out = bytes.flatten := by
  refine ⟨by decide, ?_⟩
  rintro ⟨bytes, all, -⟩
  have accepted := (forall₂_packValue_iff.mp all).1 _ (List.mem_cons_self ..)
  exact absurd rfl accepted

end FullMessage

end Nise.RubyModels
