import Nise.BlockOwnership
import Nise.Dispatcherd.PubSubDispatch

/-!
# Messages that are only a header

A frame without data reaches the event channel without a message block.  The echo channel
reads the block nevertheless, and so does `put (event, eh)` of a connection with an output
filter; a connection that strips the header is left with nothing to send.
-/

namespace Nise.Dispatcherd

open Nise.Ace Nise.Core Nise.Lib

inductive ReceivedHeader where
  | samson (sh : SamsonHeader)
  | other (type : SimMsgType)
  deriving DecidableEq, Repr

def ReceivedHeader.type : ReceivedHeader → SimMsgType
  | .samson sh => sh.type
  | .other type => type

/-- An event as the receive path delivers it, with the bytes of its encoded header.  A message
without data has no block. -/
structure ReceivedEvent where
  eh : ReceivedHeader
  connectionId : UInt32
  addr : List UInt8
  event : Option MessageBlock
  deriving DecidableEq, Repr

/-- The members of the receiving handler that `process` looks at. -/
structure Receiver where
  rh : Handler
  commandRole : Bool
  proxyRole : Char

/-- The event channel with the configuration of every transmit handler.  `encode` gives the bytes
of a Samson header. -/
structure EventChannel where
  dispatcher : Dispatcher
  channels : Handler → Channel
  encode : SamsonHeader → List UInt8
  encode_ne_nil : ∀ sh, encode sh ≠ []

/-- The books of the transmit handlers, and whether `process` itself has read a null block. -/
structure Processed where
  books : Handler → Books Transmit
  nullRead : Bool

/-- Nothing has dereferenced a null message block. -/
structure Processed.NoNullRead (out : Processed) : Prop where
  process : out.nullRead = false
  puts : ∀ ch, (out.books ch).crashed = false

namespace EventChannel

variable (channel : EventChannel)

/-- The blocks of an event; a null pointer has none. -/
def blocks (event : Option MessageBlock) : List (Nat × MessageBlock) :=
  event.toList.map fun block => (0, block)

/-- `th->put (event, eh)`. -/
def put (event : Option MessageBlock) (books : Handler → Books Transmit)
    (target : Handler × List UInt8) (conditions : Conditions) : Handler → Books Transmit :=
  fun ch =>
    if ch = target.1 then
      Transmit.putEvent (channel.channels ch) (books ch) (blocks event) (some target.2) conditions
    else books ch

/-- One put after the other, each under its own conditions. -/
def putAll (event : Option MessageBlock) :
    (Handler → Books Transmit) → List (Handler × List UInt8) → (Nat → Conditions) →
      (Handler → Books Transmit)
  | books, [], _ => books
  | books, target :: rest, conditions =>
      putAll event (channel.put event books target (conditions 0)) rest
        fun n => conditions (n + 1)

/-- The handlers that a Samson message is put on, in order. -/
def routed (event : Option MessageBlock) (sh : SamsonHeader) : List (Handler × List UInt8) :=
  (channel.dispatcher.process event sh).1.filterMap fun action =>
    match action with
    | .put ch _ header => some (ch, channel.encode header)
    | _ => none

/-- The other transmit handlers of the connection, the record of which the receiving handler
belongs to. -/
def echoed (receiver : Receiver) (received : ReceivedEvent) : List (Handler × List UInt8) :=
  (((channel.dispatcher.connectionTable received.connectionId).getD []).filter fun ch =>
    ch != receiver.rh && channel.dispatcher.isTransmitHandler ch).map fun ch => (ch, received.addr)

/-- The text `disconnect`. -/
def disconnect : List UInt8 := [100, 105, 115, 99, 111, 110, 110, 101, 99, 116]

/-- A command channel, or a command for the dispatcher: the message goes to a parser. -/
def Commands (receiver : Receiver) (received : ReceivedEvent) : Prop :=
  receiver.commandRole = true ∨ received.eh.type = .dispatcherCommand

instance (receiver : Receiver) (received : ReceivedEvent) :
    Decidable (Commands receiver received) :=
  inferInstanceAs (Decidable (_ ∨ _))

def process (receiver : Receiver) (received : ReceivedEvent) (conditions : Nat → Conditions)
    (books : Handler → Books Transmit) : Processed :=
  if Commands receiver received then ⟨books, false⟩
  else if receiver.proxyRole = 'E' then
    match received.event with
    | none => ⟨books, true⟩
    | some event =>
        if event.data.take 10 = disconnect then ⟨books, false⟩
        else
          ⟨channel.putAll (some event) books (channel.echoed receiver received) conditions, false⟩
  else
    match received.eh with
    | .samson sh =>
        ⟨channel.putAll received.event books (channel.routed received.event sh) conditions, false⟩
    | .other _ => ⟨books, false⟩

/-- A message of this type on an echo channel is echoed. -/
def Echoes (receiver : Receiver) (received : ReceivedEvent) : Prop :=
  ¬ Commands receiver received ∧ receiver.proxyRole = 'E'

/-- The message is routed to the handler. -/
def Destined (receiver : Receiver) (received : ReceivedEvent) (ch : Handler) : Prop :=
  ¬ Commands receiver received ∧
    ∃ sh, received.eh = .samson sh ∧
      ∃ header, Action.put ch received.event header ∈
        (channel.dispatcher.process received.event sh).1

/-- An established connection that needs a message block: it filters what it sends, or sends no
headers. -/
def NeedsData (books : Handler → Books Transmit) (ch : Handler) : Prop :=
  (books ch).handler.state = .established ∧
    ((channel.channels ch).outputFilter.isSome ∨ (channel.channels ch).noheader = true)

end EventChannel

/-! ## One put -/

section Put

variable {books : Books Transmit} {eh : List UInt8}

/-- A message with data, or a header for a connection that sends headers and does not filter,
makes a chain of at least one block. -/
theorem Channel.startMb_iff (channel : Channel) {event : Option MessageBlock}
    (nonempty : event = none → eh ≠ []) :
    (∃ startMb cont, channel.startMb (EventChannel.blocks event) (some eh) =
        some (startMb :: cont)) ↔
      event ≠ none ∨ channel.outputFilter = none ∧ channel.noheader = false := by
  unfold Channel.startMb EventChannel.blocks
  cases event with
  | some block =>
      refine iff_of_true ?_ (.inl (Option.some_ne_none block))
      cases channel.outputFilter with
      | some process =>
          simp only [Option.toList_some, List.map_cons, List.map_nil, Option.map_some]
          split
          · exact ⟨_, _, rfl⟩
          · exact ⟨_, _, rfl⟩
      | none =>
          simp only [Option.toList_some, List.map_cons, List.map_nil, Option.map_some]
          split
          · exact ⟨_, _, rfl⟩
          · exact ⟨_, _, rfl⟩
  | none =>
      have positive := List.length_pos_of_ne_nil (nonempty rfl)
      cases channel.outputFilter with
      | some process => simp
      | none =>
          cases channel.noheader with
          | true => simp
          | false => simp [positive]

theorem crashed_putEvent_iff (channel : Channel) (running : books.crashed = false)
    {event : Option MessageBlock} (nonempty : event = none → eh ≠ []) (conditions : Conditions) :
    (Transmit.putEvent channel books (EventChannel.blocks event) (some eh) conditions).crashed =
        false ↔
      (books.handler.state = .established →
        event ≠ none ∨ channel.outputFilter = none ∧ channel.noheader = false) := by
  unfold Transmit.putEvent
  by_cases established : books.handler.state = .established
  · rw [if_pos established, forall_prop_of_true established, ← channel.startMb_iff nonempty]
    split
    · next startMb cont made =>
        refine iff_of_true ?_ ⟨startMb, cont, made⟩
        simp only [reduceCtorEq, and_false, if_false]
        exact running
    · next unmade =>
        refine iff_of_false Bool.true_eq_false.mp ?_
        rintro ⟨startMb, cont, made⟩
        exact unmade startMb cont made
  · rw [if_neg established]
    exact iff_of_true running fun now => absurd now established

theorem crashed_putEvent_of_crashed (channel : Channel) (crashed : books.crashed = true)
    (event : List (Nat × MessageBlock)) (eh : Option (List UInt8)) (conditions : Conditions) :
    (Transmit.putEvent channel books event eh conditions).crashed = true := by
  unfold Transmit.putEvent
  split
  · split
    · dsimp only
      split
      · rfl
      · exact crashed
    · rfl
  · exact crashed

theorem putEvent_of_not_established (channel : Channel)
    (idle : books.handler.state ≠ .established) (event : List (Nat × MessageBlock))
    (eh : Option (List UInt8)) (conditions : Conditions) :
    Transmit.putEvent channel books event eh conditions = books := by
  unfold Transmit.putEvent
  rw [if_neg idle]

end Put

/-! ## A whole message -/

namespace EventChannel

variable {channel : EventChannel} {books : Handler → Books Transmit}

theorem not_needsData_iff {ch : Handler} :
    ¬ channel.NeedsData books ch ↔ ((books ch).handler.state = .established →
      (channel.channels ch).outputFilter = none ∧ (channel.channels ch).noheader = false) := by
  simp [NeedsData]

theorem put_self (event : Option MessageBlock) (target : Handler × List UInt8)
    (conditions : Conditions) :
    channel.put event books target conditions target.1 =
      Transmit.putEvent (channel.channels target.1) (books target.1) (blocks event)
        (some target.2) conditions := by
  rw [put, if_pos rfl]

theorem put_of_ne (event : Option MessageBlock) {target : Handler × List UInt8}
    (conditions : Conditions) {ch : Handler} (apart : ch ≠ target.1) :
    channel.put event books target conditions ch = books ch := by
  rw [put, if_neg apart]

theorem crashed_put_iff (channel : EventChannel) {event : Option MessageBlock}
    (running : ∀ ch, (books ch).crashed = false) {target : Handler × List UInt8}
    (nonempty : event = none → target.2 ≠ []) (conditions : Conditions) :
    (∀ ch, (channel.put event books target conditions ch).crashed = false) ↔
      event ≠ none ∨ ¬ channel.NeedsData books target.1 := by
  have own := crashed_putEvent_iff (channel.channels target.1) (running target.1) nonempty
    conditions
  rw [← put_self event target conditions] at own
  rw [not_needsData_iff]
  constructor
  · intro all
    by_cases absent : event = none
    · refine .inr fun established => ?_
      exact (own.mp (all target.1) established).resolve_left (not_not_intro absent)
    · exact .inl absent
  · intro suits ch
    by_cases same : ch = target.1
    · rw [same]
      refine own.mpr fun established => ?_
      exact suits.imp id fun plain => plain established
    · rw [put_of_ne event conditions same]
      exact running ch

theorem crashed_putAll_of_crashed (channel : EventChannel) {ch : Handler}
    (event : Option MessageBlock) (targets : List (Handler × List UInt8))
    (conditions : Nat → Conditions) (crashed : (books ch).crashed = true) :
    (channel.putAll event books targets conditions ch).crashed = true := by
  induction targets generalizing books conditions with
  | nil => exact crashed
  | cons target rest ih =>
      refine ih _ ?_
      by_cases same : ch = target.1
      · subst same
        rw [put_self]
        exact crashed_putEvent_of_crashed _ crashed _ _ _
      · rw [put_of_ne event _ same]
        exact crashed

/-- A put of a header on a handler that does not need data leaves the needs of all handlers as
they are, whatever becomes of the connection. -/
theorem needsData_put_iff {target : Handler × List UInt8}
    (plain : ¬ channel.NeedsData books target.1) (conditions : Conditions) (ch : Handler) :
    channel.NeedsData (channel.put none books target conditions) ch ↔
      channel.NeedsData books ch := by
  by_cases same : ch = target.1
  · subst same
    refine iff_of_false ?_ plain
    by_cases established : (books target.1).handler.state = .established
    · have configured := not_needsData_iff.mp plain established
      exact not_needsData_iff.mpr fun _ => configured
    · intro needs
      refine established ?_
      have after := needs.1
      rwa [put_self, putEvent_of_not_established _ established] at after
  · unfold NeedsData
    rw [put_of_ne none conditions same]

/-- The puts of a message read no null block exactly if there is a block, or no handler among them
needs one. -/
theorem crashed_putAll_iff {event : Option MessageBlock} {targets : List (Handler × List UInt8)}
    (running : ∀ ch, (books ch).crashed = false)
    (nonempty : ∀ target ∈ targets, event = none → target.2 ≠ [])
    (conditions : Nat → Conditions) :
    (∀ ch, (channel.putAll event books targets conditions ch).crashed = false) ↔
      event ≠ none ∨ ∀ target ∈ targets, ¬ channel.NeedsData books target.1 := by
  induction targets generalizing books conditions with
  | nil =>
      refine iff_of_true running (.inr ?_)
      intro target member
      cases member
  | cons target rest ih =>
      rw [List.forall_mem_cons] at nonempty
      have first := channel.crashed_put_iff running nonempty.1 (conditions 0)
      by_cases suits : event ≠ none ∨ ¬ channel.NeedsData books target.1
      · have next := ih (first.mpr suits) nonempty.2 fun n => conditions (n + 1)
        rw [putAll, next, List.forall_mem_cons]
        rcases suits with present | plain
        · exact iff_of_true (.inl present) (.inl present)
        · by_cases absent : event = none
          · subst absent
            simp only [needsData_put_iff plain, plain, not_false_eq_true, true_and]
          · exact iff_of_true (.inl absent) (.inl absent)
      · refine iff_of_false ?_ ?_
        · intro all
          obtain ⟨ch, crashed⟩ := not_forall.mp (mt first.mp suits)
          rw [Bool.not_eq_false] at crashed
          have still := channel.crashed_putAll_of_crashed event rest
            (fun n => conditions (n + 1)) crashed
          rw [putAll] at all
          rw [all ch] at still
          cases still
        · intro either
          exact suits (either.imp id fun none => none target (List.mem_cons_self ..))

theorem mem_routed {event : Option MessageBlock} {sh : SamsonHeader}
    {target : Handler × List UInt8} :
    target ∈ channel.routed event sh ↔ ∃ header,
      Action.put target.1 event header ∈ (channel.dispatcher.process event sh).1 ∧
        channel.encode header = target.2 := by
  unfold routed
  rw [List.mem_filterMap]
  constructor
  · rintro ⟨action, member, found⟩
    split at found
    · next ch data header =>
        cases found
        obtain ⟨same, -⟩ := Dispatcher.marked_of_mem_process member
        rw [same] at member
        exact ⟨header, member, rfl⟩
    · cases found
  · rintro ⟨header, member, same⟩
    refine ⟨_, member, ?_⟩
    change some (target.1, channel.encode header) = some target
    rw [same]

theorem routed_header_ne_nil {event : Option MessageBlock} {sh : SamsonHeader}
    {target : Handler × List UInt8} (member : target ∈ channel.routed event sh) :
    target.2 ≠ [] := by
  obtain ⟨sent, -, same⟩ := mem_routed.mp member
  rw [← same]
  exact channel.encode_ne_nil sent

theorem destined_iff {receiver : Receiver} {received : ReceivedEvent} {sh : SamsonHeader}
    (routes : ¬ Commands receiver received) (header : received.eh = .samson sh) {ch : Handler} :
    channel.Destined receiver received ch ↔
      ∃ target ∈ channel.routed received.event sh, target.1 = ch := by
  constructor
  · rintro ⟨-, other, samson, sent, member⟩
    rw [header] at samson
    cases samson
    exact ⟨(ch, channel.encode sent), mem_routed.mpr ⟨sent, member, rfl⟩, rfl⟩
  · rintro ⟨target, member, rfl⟩
    obtain ⟨sent, put, -⟩ := mem_routed.mp member
    exact ⟨routes, sh, header, sent, put⟩

/-- The null block is never read exactly if there is data, or the message is not on an echo
channel and no established connection it is routed to filters its output or sends no headers. -/
theorem process_reads_no_null_iff (channel : EventChannel) (receiver : Receiver)
    (received : ReceivedEvent) (conditions : Nat → Conditions)
    (running : ∀ ch, (books ch).crashed = false) :
    (channel.process receiver received conditions books).NoNullRead ↔
      received.event ≠ none ∨ ¬ Echoes receiver received ∧
        ∀ ch, channel.Destined receiver received ch → ¬ channel.NeedsData books ch := by
  unfold process
  by_cases commands : Commands receiver received
  · rw [if_pos commands]
    refine iff_of_true ⟨rfl, running⟩ (.inr ⟨fun echoes => echoes.1 commands, ?_⟩)
    intro ch destined
    exact absurd commands destined.1
  · rw [if_neg commands]
    by_cases echo : receiver.proxyRole = 'E'
    · rw [if_pos echo]
      cases present : received.event with
      | none =>
          refine iff_of_false (fun out => Bool.true_eq_false.mp out.process) ?_
          rintro (absent | ⟨silent, -⟩)
          · exact absent rfl
          · exact silent ⟨commands, echo⟩
      | some event =>
          refine iff_of_true ?_ (.inl (Option.some_ne_none event))
          dsimp only
          split
          · exact ⟨rfl, running⟩
          · refine ⟨rfl, (crashed_putAll_iff running ?_ conditions).mpr
              (.inl (Option.some_ne_none event))⟩
            intro target _ absent
            cases absent
    · rw [if_neg echo]
      have silent : ¬ Echoes receiver received := fun echoes => echo echoes.2
      cases header : received.eh with
      | other type =>
          refine iff_of_true ⟨rfl, running⟩ (.inr ⟨silent, ?_⟩)
          rintro ch ⟨-, sh, samson, -⟩
          rw [header] at samson
          cases samson
      | samson sh =>
          have destined : (∀ target ∈ channel.routed received.event sh,
                ¬ channel.NeedsData books target.1) ↔
              ∀ ch, channel.Destined receiver received ch → ¬ channel.NeedsData books ch := by
            constructor
            · intro none ch destined
              obtain ⟨target, member, rfl⟩ := (destined_iff commands header).mp destined
              exact none target member
            · intro none target member
              exact none target.1 ((destined_iff commands header).mpr ⟨target, member, rfl⟩)
          rw [← destined, and_iff_right silent, ← crashed_putAll_iff running
            (fun target member _ => routed_header_ne_nil member) conditions]
          exact ⟨Processed.NoNullRead.puts, fun puts => ⟨rfl, puts⟩⟩

/-! ## A job with one model -/

/-- A model of job 1 is connected, on a channel that sends headers or does not. -/
def oneModel (noheader : Bool) : EventChannel where
  dispatcher :=
    { nodeId := 1
      d2mTable := UniqueTable.empty.bind ⟨5, 1, 7, 1, 9, 3⟩
      d2dTable := UniqueTable.empty
      connectionTable := fun _ => none
      isTransmitHandler := fun _ => true
      getAllSubscribers := fun _ _ _ => ([], [])
      getOtherDispatchers := []
      getJobMaster := fun _ => none
      getPeerRoute := fun _ _ => [] }
  channels := fun _ => ⟨noheader, none⟩
  encode := fun _ => List.replicate 48 0
  encode_ne_nil := fun _ => List.cons_ne_nil 0 _

/-- A message to the job that is only a header. -/
def headerForJob : ReceivedEvent where
  eh := .samson ⟨0, 1, 8, 4, 0, 0, SimMsgFlag.job, .statusRequest, 0, 0, 0⟩
  connectionId := 2
  addr := List.replicate 48 0
  event := none

def fromPeer : Receiver := ⟨4, false, 'B'⟩

def established (_ : Handler) : Books Transmit := Books.start .start fun _ => 0

def sendsAll (_ : Nat) : Conditions := ⟨100, .complete, true⟩

theorem process_reads_no_null_with_header :
    ((oneModel false).process fromPeer headerForJob sendsAll established).NoNullRead := by
  refine (process_reads_no_null_iff (oneModel false) fromPeer headerForJob sendsAll
    fun _ => rfl).mpr (.inr ⟨?_, ?_⟩)
  · intro echoes
    exact absurd echoes.2 (by decide)
  · rintro ch - ⟨-, filters | strips⟩
    · cases filters
    · cases strips

/-- Without the header there is nothing to send, and `put` reads the null block. -/
theorem process_reads_null :
    ¬ ∀ (channel : EventChannel) (receiver : Receiver) (received : ReceivedEvent)
      (conditions : Nat → Conditions) (books : Handler → Books Transmit),
      (∀ ch, (books ch).crashed = false) →
      (channel.process receiver received conditions books).NoNullRead := by
  intro always
  have puts := (always (oneModel true) fromPeer headerForJob sendsAll established
    fun _ => rfl).puts 3
  revert puts
  decide

end EventChannel

end Nise.Dispatcherd
