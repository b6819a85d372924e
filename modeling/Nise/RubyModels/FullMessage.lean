import Nise.RubyModels.ItemFormats

/-!
# Messages with items of every type

`pack_message` and `unpack_message` for all the formats.  The position of `unpack_message` is
behind the bytes of an item where the listed size is too large, and stays there for the items
that follow.  A message comes back from what was packed for it, whatever its values are, if it
has no signed type, no array of four, no boolean and no string encoding within an array, and has
more than one bit only in its last item; and with other items some values do not come back.
-/

namespace Nise.RubyModels

structure FullMessage (Member : Type) where
  msgItems : List (Member × ItemFormat)
  members : Member → MemberValue
  raw : List UInt8
  out : List UInt8
  pos : Nat

namespace FullMessage

variable {Member : Type}

/-- Pack one item.  An item that cannot be packed is reported and appends nothing, but the
position moves. -/
def packItem (message : FullMessage Member) (item : Member × ItemFormat) : FullMessage Member :=
  let packed := item.2.packValue (message.members item.1)
  { message with
    out := message.out ++ packed.1.getD []
    pos := message.pos + packed.2 }

def packMessage (message : FullMessage Member) : FullMessage Member :=
  message.msgItems.foldl packItem { message with out := [], pos := 0 }

variable [DecidableEq Member]

def unpackItem (message : FullMessage Member) (item : Member × ItemFormat) :
    Option (FullMessage Member) := do
  let unpacked ← item.2.unpackValue message.raw message.pos
  return { message with
    members := instanceVariableSet message.members item.1 unpacked.1
    pos := message.pos + unpacked.2 }

def unpackMessage (message : FullMessage Member) : Option (FullMessage Member) :=
  message.msgItems.foldlM unpackItem { message with pos := 0 }

/-! ## Integers and strings -/

/-- A message of integers and strings, with its types as symbols. -/
def ofIseMessage (message : IseMessage Member) : FullMessage Member where
  msgItems := message.msgItems.map fun item => (item.1, .symbol (.plain item.2))
  members member := .scalar (.plain (message.members member))
  raw := message.raw
  out := message.out
  pos := message.pos

omit [DecidableEq Member] in
/-- The code and the size of an integer or a string are those of its message. -/
theorem fmtCode_plain (type : ItemType) :
    (ItemFormat.symbol (.plain type)).fmtSize = (formatCode type).2 ∧
      (ItemFormat.symbol (.plain type)).fmtCode =
        match (formatCode type).1 with
        | .directive directive => .directives [.plain directive]
        | .encoding encoding => .encoding encoding := by
  cases type <;> exact ⟨rfl, rfl⟩

omit [DecidableEq Member] in
theorem packAll_singleton (code : Code) (scalar : Scalar) :
    packAll [code] [scalar] = code.pack scalar := by
  cases packed : code.pack scalar <;> simp [packAll, packed]

omit [DecidableEq Member] in
theorem packItem_ofIseMessage (message : IseMessage Member) (item : Member × ItemType) :
    (ofIseMessage message).packItem (item.1, .symbol (.plain item.2)) =
      ofIseMessage (message.packItem item) := by
  obtain ⟨size, code⟩ := fmtCode_plain item.2
  unfold packItem IseMessage.packItem ItemFormat.packValue
  cases entry : (formatCode item.2).1 with
  | directive directive =>
      rw [entry] at code
      simp only [code, size, ofIseMessage, MemberValue.flatten, packAll_singleton, Code.pack]
      cases directive.pack (message.members item.1) <;> simp
  | encoding encoding =>
      rw [entry] at code
      simp only [code, size, ofIseMessage]
      cases message.members item.1 with
      | nil => simp
      | integer number => simp
      | string text => cases sent : encoding.sendTo text <;> simp [sent]

theorem unpackItem_ofIseMessage (message : IseMessage Member) (item : Member × ItemType) :
    (ofIseMessage message).unpackItem (item.1, .symbol (.plain item.2)) =
      (message.unpackItem item).map ofIseMessage := by
  have set : ∀ value, instanceVariableSet (ofIseMessage message).members item.1
      (.scalar (.plain value)) = fun member =>
        .scalar (.plain (instanceVariableSet message.members item.1 value member)) := by
    intro value
    funext member
    unfold instanceVariableSet
    exact (apply_ite (fun value => MemberValue.scalar (.plain value)) ..).symm
  obtain ⟨size, code⟩ := fmtCode_plain item.2
  unfold unpackItem IseMessage.unpackItem ItemFormat.unpackValue
  cases entry : (formatCode item.2).1 with
  | directive directive =>
      rw [entry] at code
      simp only [code, size]
      cases cut : slice message.raw message.pos (formatCode item.2).2 with
      | none => simp [ofIseMessage, cut]
      | some bytes =>
          have result := set (directive.unpack bytes)
          simp only [ofIseMessage] at result
          simp [ofIseMessage, cut, IseMessage.setMember, unpackAll, ItemFormat.unpacked,
            Code.unpack, result]
  | encoding encoding =>
      rw [entry] at code
      simp only [code, size]
      cases cut : slice message.raw message.pos message.raw.length with
      | none => simp [ofIseMessage, cut]
      | some rest =>
          cases received : encoding.sendFrom rest with
          | none => simp [ofIseMessage, cut, received]
          | some text =>
              have result := set (.string text)
              simp only [ofIseMessage] at result
              simp [ofIseMessage, cut, received, IseMessage.setMember, result]

omit [DecidableEq Member] in
/-- A message of integers and strings is packed as before. -/
theorem packMessage_ofIseMessage (message : IseMessage Member) :
    (ofIseMessage message).packMessage = ofIseMessage message.packMessage := by
  have items : ∀ (items : List (Member × ItemType)) (message : IseMessage Member),
      (items.map fun item => (item.1, ItemFormat.symbol (.plain item.2))).foldl packItem
          (ofIseMessage message) = ofIseMessage (items.foldl IseMessage.packItem message) := by
    intro items
    induction items with
    | nil => exact fun _ => rfl
    | cons item rest ih =>
        intro message
        rw [List.map_cons, List.foldl_cons, packItem_ofIseMessage, ih]
        rfl
  exact items message.msgItems { message with out := [], pos := 0 }

theorem unpackMessage_ofIseMessage (message : IseMessage Member) :
    (ofIseMessage message).unpackMessage = message.unpackMessage.map ofIseMessage := by
  have items : ∀ (items : List (Member × ItemType)) (message : IseMessage Member),
      (items.map fun item => (item.1, ItemFormat.symbol (.plain item.2))).foldlM unpackItem
          (ofIseMessage message) =
        (items.foldlM IseMessage.unpackItem message).map ofIseMessage := by
    intro items
    induction items with
    | nil => exact fun _ => rfl
    | cons item rest ih =>
        intro message
        rw [List.map_cons, List.foldlM_cons, unpackItem_ofIseMessage, List.foldlM_cons]
        cases message.unpackItem item with
        | none => rfl
        | some next => exact ih next
  exact items message.msgItems { message with pos := 0 }

/-! ## Sequences of values -/

/-- The values at a position, one after another, and the position behind them. -/
def unpackValues (raw : List UInt8) : List ItemFormat → Nat → Option (List MemberValue × Nat)
  | [], pos => some ([], pos)
  | format :: formats, pos => do
      let first ← format.unpackValue raw pos
      let rest ← unpackValues raw formats (pos + first.2)
      return (first.1 :: rest.1, rest.2)

def packedBytes (fields : List (ItemFormat × MemberValue)) : List UInt8 :=
  fields.flatMap fun field => (field.1.packValue field.2).1.getD []

theorem packedBytes_cons {field : ItemFormat × MemberValue} {bytes : List UInt8}
    (stored : field.1.Stored field.2 bytes) (fields : List (ItemFormat × MemberValue)) :
    packedBytes (field :: fields) = bytes ++ packedBytes fields := by
  unfold packedBytes
  rw [List.flatMap_cons, stored.packed]
  rfl

/-- The values are unpacked if every position but the last moves as it should. -/
theorem unpackValues_packedBytes {fields : List (ItemFormat × MemberValue)}
    (stored : ∀ field ∈ fields, ∃ bytes, field.1.Stored field.2 bytes)
    (aligned : ∀ field ∈ fields.dropLast, field.1.Aligned) (before : List UInt8) :
    ∃ pos, unpackValues (before ++ packedBytes fields) (fields.map Prod.fst) before.length =
      some (fields.map Prod.snd, pos) := by
  induction fields generalizing before with
  | nil => exact ⟨before.length, rfl⟩
  | cons field rest ih =>
      obtain ⟨bytes, first⟩ := stored field (List.mem_cons_self ..)
      have later := fun other member => stored other (List.mem_cons_of_mem _ member)
      cases rest with
      | nil =>
          obtain ⟨moved, read⟩ := first.read before [] (.inr rfl)
          refine ⟨before.length + moved, ?_⟩
          rw [packedBytes_cons first, List.map_cons, unpackValues]
          exact congrArg (Option.bind · _) read
      | cons second others =>
          have here : field.1.Aligned := aligned field (List.mem_cons_self ..)
          obtain ⟨moved, read⟩ := first.read before (packedBytes (second :: others)) (.inl here)
          have exact : moved = bytes.length := ((first.moved _ _ _ read).2).mpr here
          obtain ⟨pos, rest⟩ := ih later
            (fun other member => aligned other (List.mem_cons_of_mem _ member)) (before ++ bytes)
          rw [List.append_assoc, List.length_append] at rest
          refine ⟨pos, ?_⟩
          rw [packedBytes_cons first, List.map_cons, unpackValues, read]
          simp only [Option.bind_eq_bind, Option.bind_some, exact, rest]
          rfl

/-- If the values are unpacked although the position is behind, or gets behind before the last
of them, then the last value ends in an empty string. -/
theorem empty_of_unpackValues {fields : List (ItemFormat × MemberValue)}
    (stored : ∀ field ∈ fields, ∃ bytes, field.1.Stored field.2 bytes)
    {before : List UInt8} {skipped pos : Nat}
    (unpacked : unpackValues (before ++ packedBytes fields) (fields.map Prod.fst)
      (before.length + skipped) = some (fields.map Prod.snd, pos))
    (behind : 0 < skipped ∨ ¬ ∀ field ∈ fields.dropLast, field.1.Aligned) :
    ∀ field ∈ fields.getLast?, field.2.flatten.getLast? = some (.plain (.string [])) := by
  induction fields generalizing before skipped with
  | nil => nofun
  | cons field rest ih =>
      obtain ⟨bytes, first⟩ := stored field (List.mem_cons_self ..)
      have later := fun other member => stored other (List.mem_cons_of_mem _ member)
      rw [packedBytes_cons first, List.map_cons, unpackValues] at unpacked
      obtain ⟨⟨value, moved⟩, read, unpacked⟩ := Option.bind_eq_some_iff.mp unpacked
      obtain ⟨⟨values, last⟩, readRest, same⟩ := Option.bind_eq_some_iff.mp unpacked
      cases same
      cases rest with
      | nil =>
          rcases behind with late | unaligned
          · rintro _ ⟨⟩
            rw [packedBytes, List.flatMap_nil, List.append_nil] at read
            exact first.late before skipped moved late read
          · exact absurd nofun unaligned
      | cons second others =>
          obtain ⟨most, exact⟩ := first.moved _ _ _ read
          have position : before.length + skipped + moved =
              (before ++ bytes).length + (skipped + (moved - bytes.length)) := by
            rw [List.length_append]
            omega
          rw [position, ← List.append_assoc] at readRest
          rw [List.getLast?_cons_cons]
          apply ih later readRest
          by_cases here : field.1.Aligned
          · rcases behind with late | unaligned
            · exact .inl (by omega)
            · right
              intro rest
              apply unaligned
              intro other member
              rcases List.mem_cons.mp member with rfl | among
              · exact here
              · exact rest other among
          · left
            have further : moved ≠ bytes.length := fun same => here (exact.mp same)
            omega

/-! ## Members -/

/-- The members get the values, one after another. -/
def assign (members : Member → MemberValue) :
    List Member → List MemberValue → Member → MemberValue
  | name :: names, value :: values => assign (instanceVariableSet members name value) names values
  | _, _ => members

theorem assign_of_not_mem {names : List Member} {name : Member} (absent : name ∉ names)
    (members : Member → MemberValue) (values : List MemberValue) :
    assign members names values name = members name := by
  induction names generalizing members values with
  | nil => rfl
  | cons first rest ih =>
      cases values with
      | nil => rfl
      | cons value later =>
          rw [List.mem_cons, not_or] at absent
          exact (ih absent.2 _ later).trans (if_neg absent.1)

/-- A name that stands twice gets one value both times. -/
theorem assign_map (members values : Member → MemberValue) {names : List Member} {name : Member}
    (member : name ∈ names) : assign members names (names.map values) name = values name := by
  induction names generalizing members with
  | nil => cases member
  | cons first rest ih =>
      rw [List.map_cons, assign]
      by_cases later : name ∈ rest
      · exact ih _ later
      · rcases List.mem_cons.mp member with rfl | among
        · exact (assign_of_not_mem later _ _).trans (if_pos rfl)
        · exact absurd among later

/-- With different names, the values can be found again. -/
theorem eq_map_of_assign {names : List Member} (distinct : names.Nodup)
    (members values : Member → MemberValue) {given : List MemberValue}
    (length : given.length = names.length)
    (restored : ∀ name ∈ names, assign members names given name = values name) :
    given = names.map values := by
  induction names generalizing members given with
  | nil => exact List.eq_nil_of_length_eq_zero length
  | cons first rest ih =>
      cases given with
      | nil => cases length
      | cons value later =>
          obtain ⟨absent, apart⟩ := List.nodup_cons.mp distinct
          have here : value = values first := by
            have found := restored first (List.mem_cons_self ..)
            rw [assign, assign_of_not_mem absent] at found
            exact (if_pos rfl).symm.trans found
          rw [List.map_cons, here, ← ih apart _ (Nat.succ.inj length) fun name member =>
            restored name (List.mem_cons_of_mem _ member)]

/-- Unpacking gives the members the values that stand one after another. -/
theorem foldlM_unpackItem (items : List (Member × ItemFormat)) (message : FullMessage Member) :
    items.foldlM unpackItem message =
      (unpackValues message.raw (items.map Prod.snd) message.pos).map fun result =>
        { message with
          members := assign message.members (items.map Prod.fst) result.1
          pos := result.2 } := by
  induction items generalizing message with
  | nil => rfl
  | cons item rest ih =>
      simp only [List.foldlM_cons, List.map_cons, unpackValues, unpackItem]
      cases item.2.unpackValue message.raw message.pos with
      | none => rfl
      | some first =>
          simp only [Option.bind_eq_bind, Option.bind_some]
          refine (ih _).trans ?_
          cases unpackValues message.raw (rest.map Prod.snd) (message.pos + first.2) <;> rfl

omit [DecidableEq Member] in
theorem length_of_unpackValues {raw : List UInt8} {formats : List ItemFormat} {pos : Nat}
    {result : List MemberValue × Nat} (unpacked : unpackValues raw formats pos = some result) :
    result.1.length = formats.length := by
  induction formats generalizing pos result with
  | nil =>
      cases unpacked
      rfl
  | cons format rest ih =>
      rw [unpackValues] at unpacked
      obtain ⟨first, -, unpacked⟩ := Option.bind_eq_some_iff.mp unpacked
      obtain ⟨later, readLater, same⟩ := Option.bind_eq_some_iff.mp unpacked
      cases same
      exact congrArg (· + 1) (ih readLater)

/-- The formats of the items with the values of their members. -/
def fields (message : FullMessage Member) : List (ItemFormat × MemberValue) :=
  message.msgItems.map fun item => (item.2, message.members item.1)

omit [DecidableEq Member] in
theorem out_packMessage (message : FullMessage Member) :
    message.packMessage.out = packedBytes message.fields := by
  have items : ∀ (items : List (Member × ItemFormat)) (message : FullMessage Member),
      (items.foldl packItem message).out = message.out ++
        packedBytes (items.map fun item => (item.2, message.members item.1)) := by
    intro items
    induction items with
    | nil => exact fun message => (List.append_nil _).symm
    | cons item rest ih =>
        intro message
        exact (ih _).trans (List.append_assoc ..)
  exact (items message.msgItems { message with out := [], pos := 0 }).trans (List.nil_append _)

/-- A receiver that unpacks the bytes of the sender has the values of all its members. -/
def Restored (sender receiver : FullMessage Member) : Prop :=
  ∃ after, { receiver with raw := sender.packMessage.out }.unpackMessage = some after ∧
    ∀ item ∈ sender.msgItems, after.members item.1 = sender.members item.1

/-- Every member has a value of its type. -/
def Fits (message : FullMessage Member) : Prop :=
  ∀ item ∈ message.msgItems, item.2.Fits (message.members item.1)

/-- Only the last item has a listed size that is not that of its bytes. -/
def AlignedItems (items : List (Member × ItemFormat)) : Prop :=
  ∀ item ∈ items.dropLast, item.2.Aligned

/-- The value of the last item is or ends in an empty string. -/
def EndsEmpty (message : FullMessage Member) : Prop :=
  ∃ field ∈ message.fields.getLast?, field.2.flatten.getLast? = some (.plain (.string []))

/-- The schemas of which every message comes back. -/
def Safe (items : List (Member × ItemFormat)) : Prop :=
  AlignedItems items ∧ ∀ item ∈ items,
    item.2.Returns ∧ ∀ type ∈ item.2.symbols, ¬ type.Signed

omit [DecidableEq Member] in
theorem alignedItems_fields (message : FullMessage Member) :
    (∀ field ∈ message.fields.dropLast, field.1.Aligned) ↔ AlignedItems message.msgItems := by
  unfold fields AlignedItems
  rw [← List.map_dropLast]
  exact List.forall_mem_map

omit [DecidableEq Member] in
theorem stored_fields {message : FullMessage Member} (fits : message.Fits)
    (kept : ∀ item ∈ message.msgItems, item.2.Kept (message.members item.1)) :
    ∀ field ∈ message.fields, ∃ bytes, field.1.Stored field.2 bytes := by
  intro field member
  obtain ⟨item, among, rfl⟩ := List.mem_map.mp member
  exact (kept item among).stored (fits item among)

omit [DecidableEq Member] in
theorem kept_of_unpackValues {raw : List UInt8} {fields : List (ItemFormat × MemberValue)}
    {pos last : Nat} (fits : ∀ field ∈ fields, field.1.Fits field.2)
    (unpacked : unpackValues raw (fields.map Prod.fst) pos = some (fields.map Prod.snd, last)) :
    ∀ field ∈ fields, field.1.Kept field.2 := by
  induction fields generalizing pos with
  | nil => nofun
  | cons field rest ih =>
      rw [List.map_cons, unpackValues] at unpacked
      obtain ⟨⟨value, moved⟩, read, unpacked⟩ := Option.bind_eq_some_iff.mp unpacked
      obtain ⟨⟨values, behind⟩, readRest, same⟩ := Option.bind_eq_some_iff.mp unpacked
      cases same
      intro other member
      rcases List.mem_cons.mp member with rfl | among
      · exact ItemFormat.kept_of_unpackValue (fits other (List.mem_cons_self ..)) read
      · exact ih (fun later inside => fits later (List.mem_cons_of_mem _ inside)) readRest other
          among

/-- What a receiver of the same items has, in terms of the values one after another. -/
theorem unpackMessage_received {sender receiver : FullMessage Member}
    (same : receiver.msgItems = sender.msgItems) :
    { receiver with raw := sender.packMessage.out }.unpackMessage =
      (unpackValues (packedBytes sender.fields) (sender.fields.map Prod.fst) 0).map fun result =>
        { receiver with
          raw := sender.packMessage.out
          members := assign receiver.members (sender.msgItems.map Prod.fst) result.1
          pos := result.2 } := by
  have formats : sender.fields.map Prod.fst = sender.msgItems.map Prod.snd := by
    unfold fields
    rw [List.map_map]
    rfl
  unfold unpackMessage
  rw [foldlM_unpackItem, formats, ← out_packMessage, same]

omit [DecidableEq Member] in
theorem fields_values (message : FullMessage Member) :
    message.fields.map Prod.snd = (message.msgItems.map Prod.fst).map message.members := by
  unfold fields
  rw [List.map_map, List.map_map]
  rfl

theorem restored_of_kept {sender receiver : FullMessage Member}
    (same : receiver.msgItems = sender.msgItems) (fits : sender.Fits)
    (aligned : AlignedItems sender.msgItems)
    (kept : ∀ item ∈ sender.msgItems, item.2.Kept (sender.members item.1)) :
    sender.Restored receiver := by
  obtain ⟨pos, unpacked⟩ := unpackValues_packedBytes (stored_fields fits kept)
    ((alignedItems_fields sender).mpr aligned) []
  rw [List.nil_append, List.length_nil] at unpacked
  unfold Restored
  rw [unpackMessage_received same, unpacked, fields_values]
  refine ⟨_, rfl, fun item member => ?_⟩
  exact assign_map _ _ (List.mem_map_of_mem member)

/-- With different members, what is restored was unpacked one after another. -/
theorem unpackValues_of_restored {sender receiver : FullMessage Member}
    (same : receiver.msgItems = sender.msgItems)
    (distinct : (sender.msgItems.map Prod.fst).Nodup) (restored : sender.Restored receiver) :
    ∃ pos, unpackValues (packedBytes sender.fields) (sender.fields.map Prod.fst) 0 =
      some (sender.fields.map Prod.snd, pos) := by
  obtain ⟨after, unpacked, members⟩ := restored
  rw [unpackMessage_received same] at unpacked
  obtain ⟨⟨values, pos⟩, read, rfl⟩ := Option.map_eq_some_iff.mp unpacked
  have length : values.length = (sender.msgItems.map Prod.fst).length := by
    have counted := length_of_unpackValues read
    rw [counted, fields, List.length_map, List.length_map, List.length_map]
  have given : values = (sender.msgItems.map Prod.fst).map sender.members := by
    apply eq_map_of_assign distinct receiver.members sender.members length
    intro name member
    obtain ⟨item, among, rfl⟩ := List.mem_map.mp member
    exact members item among
  rw [given, ← fields_values] at read
  exact ⟨pos, read⟩

theorem kept_of_restored {sender receiver : FullMessage Member}
    (same : receiver.msgItems = sender.msgItems)
    (distinct : (sender.msgItems.map Prod.fst).Nodup) (fits : sender.Fits)
    (restored : sender.Restored receiver) :
    (∀ item ∈ sender.msgItems, item.2.Kept (sender.members item.1)) ∧
      (AlignedItems sender.msgItems ∨ sender.EndsEmpty) := by
  obtain ⟨pos, unpacked⟩ := unpackValues_of_restored same distinct restored
  have fitsFields : ∀ field ∈ sender.fields, field.1.Fits field.2 := by
    intro field member
    obtain ⟨item, among, rfl⟩ := List.mem_map.mp member
    exact fits item among
  have kept : ∀ item ∈ sender.msgItems, item.2.Kept (sender.members item.1) := by
    intro item member
    exact kept_of_unpackValues fitsFields unpacked _ (List.mem_map_of_mem member)
  refine ⟨kept, ?_⟩
  by_cases aligned : AlignedItems sender.msgItems
  · exact .inl aligned
  · right
    have behind : 0 < 0 ∨ ¬ ∀ field ∈ sender.fields.dropLast, field.1.Aligned :=
      .inr fun all => aligned ((alignedItems_fields sender).mp all)
    have fromStart : unpackValues ([] ++ packedBytes sender.fields) (sender.fields.map Prod.fst)
        (([] : List UInt8).length + 0) = some (sender.fields.map Prod.snd, pos) := unpacked
    have ends := empty_of_unpackValues (stored_fields fits kept) fromStart behind
    cases last : sender.fields.getLast? with
    | none =>
        have empty : sender.msgItems = [] := by
          have none := List.getLast?_eq_none_iff.mp last
          exact List.map_eq_nil_iff.mp none
        rw [empty] at aligned
        exact absurd nofun aligned
    | some field => exact ⟨field, last, ends field last⟩

/-- A message of some items with a value of each type. -/
def sample (items : List (Member × ItemFormat)) : FullMessage Member where
  msgItems := items
  members := assign (fun _ => .scalar (.plain .nil)) (items.map Prod.fst)
    (items.map fun item => item.2.sampleValue)
  raw := []
  out := []
  pos := 0

theorem sample_members {items : List (Member × ItemFormat)}
    (distinct : (items.map Prod.fst).Nodup) :
    ∀ item ∈ items, (sample items).members item.1 = item.2.sampleValue := by
  have found : ∀ (items : List (Member × ItemFormat)) (members : Member → MemberValue),
      (items.map Prod.fst).Nodup → ∀ item ∈ items,
      assign members (items.map Prod.fst) (items.map fun item => item.2.sampleValue) item.1 =
        item.2.sampleValue := by
    intro items
    induction items with
    | nil => nofun
    | cons first rest ih =>
        intro members distinct item member
        obtain ⟨absent, apart⟩ := List.nodup_cons.mp distinct
        rcases List.mem_cons.mp member with rfl | among
        · exact (assign_of_not_mem absent _ _).trans (if_pos rfl)
        · exact ih _ apart item among
  exact found items _ distinct

theorem sample_fits {items : List (Member × ItemFormat)}
    (distinct : (items.map Prod.fst).Nodup) : (sample items).Fits := by
  intro item member
  rw [sample_members distinct item member]
  exact item.2.sampleValue_fits

/-- The message with the samples comes back only if every message does. -/
theorem safe_of_restored_sample {items : List (Member × ItemFormat)}
    (distinct : (items.map Prod.fst).Nodup)
    (restored : (sample items).Restored (sample items)) : Safe items := by
  have members := sample_members distinct
  obtain ⟨kept, aligned | ⟨field, last, empty⟩⟩ :=
    kept_of_restored rfl distinct (sample_fits distinct) restored
  · refine ⟨aligned, fun item member => ?_⟩
    obtain ⟨returns, nonnegative⟩ := kept item member
    rw [members item member] at nonnegative
    exact ⟨returns, ItemFormat.not_signed_of_nonnegative nonnegative⟩
  · obtain ⟨item, member, rfl⟩ := List.mem_map.mp (List.mem_of_getLast? last)
    rw [members item member] at empty
    exact absurd empty item.2.sampleValue_last

/-- When items come back.  Values of formats that are returned, without negative integers, do if
only the last item is not aligned.  For different members nothing else comes back, apart from
messages that end in an empty string, and the schemas of which every message comes back are the
safe ones. -/
theorem items_restored_iff (items : List (Member × ItemFormat)) :
    (∀ sender receiver : FullMessage Member, sender.msgItems = items →
      receiver.msgItems = items → sender.Fits → AlignedItems items →
      (∀ item ∈ items, item.2.Kept (sender.members item.1)) → sender.Restored receiver) ∧
    ((items.map Prod.fst).Nodup →
      (∀ sender receiver : FullMessage Member, sender.msgItems = items →
        receiver.msgItems = items → sender.Fits → sender.Restored receiver →
        (∀ item ∈ items, item.2.Kept (sender.members item.1)) ∧
          (AlignedItems items ∨ sender.EndsEmpty)) ∧
      ((∀ sender receiver : FullMessage Member, sender.msgItems = items →
        receiver.msgItems = items → sender.Fits → sender.Restored receiver) ↔ Safe items)) := by
  have enough : ∀ sender receiver : FullMessage Member, sender.msgItems = items →
      receiver.msgItems = items → sender.Fits → AlignedItems items →
      (∀ item ∈ items, item.2.Kept (sender.members item.1)) → sender.Restored receiver := by
    rintro sender receiver rfl same fits aligned kept
    exact restored_of_kept same fits aligned kept
  refine ⟨enough, fun distinct => ⟨?_, ?_, ?_⟩⟩
  · rintro sender receiver rfl same fits restored
    exact kept_of_restored same distinct fits restored
  · exact fun all =>
      safe_of_restored_sample distinct (all _ _ rfl rfl (sample_fits distinct))
  · rintro ⟨aligned, safe⟩ sender receiver sending receiving fits
    refine enough sender receiver sending receiving fits aligned fun item member => ?_
    obtain ⟨returns, unsigned⟩ := safe item member
    rw [← sending] at member
    exact ⟨returns, ItemFormat.nonnegative_of_not_signed (fits item member) unsigned⟩

end FullMessage

namespace Reading

/-- A position of three numbers and, behind it, a bit string. -/
def position : FullMessage Bool where
  msgItems := [(false, .array [.double, .double, .double]), (true, .symbol (.bits .bits7))]
  members member :=
    if member then .scalar (.plain (.string [0x31, 0x30, 0x31, 0x31, 0x30, 0x30, 0x31]))
    else .array (List.replicate 3 (.float (Lib.FloatDatum.ofInteger 90)))
  raw := []
  out := []
  pos := 0

theorem position_fits : position.Fits := by
  intro item member
  simp only [position, List.mem_cons, List.not_mem_nil, or_false] at member
  rcases member with rfl | rfl
  · exact .cons trivial (.cons trivial (.cons trivial .nil))
  · exact ⟨by decide, .cons ⟨rfl, by simp⟩ .nil⟩

theorem position_restored : position.Fits ∧ position.Restored position := by
  have safe : FullMessage.Safe position.msgItems := by
    refine ⟨?_, ?_⟩
    · intro item member
      cases List.mem_singleton.mp member
      simp [ItemFormat.Aligned, ItemFormat.symbols]
    · intro item member
      simp only [position, List.mem_cons, List.not_mem_nil, or_false] at member
      rcases member with rfl | rfl
      · exact ⟨by decide, by decide⟩
      · exact ⟨by decide, by decide⟩
  have distinct : (position.msgItems.map Prod.fst).Nodup := by decide
  exact ⟨position_fits, (((FullMessage.items_restored_iff position.msgItems).2 distinct).2.mpr
    safe) position position rfl rfl position_fits⟩

/-- A temperature below zero. -/
def temperature : FullMessage Unit where
  msgItems := [((), .symbol (.plain .int16))]
  members _ := .scalar (.plain (.integer (-1)))
  raw := []
  out := []
  pos := 0

def received : FullMessage Unit := { temperature with raw := temperature.packMessage.out }

theorem temperature_not_restored :
    temperature.Fits ∧
      (received.unpackMessage.map fun after => after.members ()) =
        some (.scalar (.plain (.integer 65535))) ∧
      ¬ temperature.Restored temperature := by
  have fits : temperature.Fits := by
    intro item member
    cases List.mem_singleton.mp member
    exact ⟨by decide, .cons ⟨by decide, by decide⟩ .nil⟩
  have unpacked : (received.unpackMessage.map fun after => after.members ()) =
      some (.scalar (.plain (.integer 65535))) := by decide
  refine ⟨fits, unpacked, ?_⟩
  rintro ⟨after, result, restored⟩
  change received.unpackMessage = some after at result
  rw [result] at unpacked
  have value : after.members () = .scalar (.plain (.integer (-1))) :=
    restored _ (List.mem_singleton_self _)
  cases value.symm.trans (Option.some.inj unpacked)

end Reading

end Nise.RubyModels
