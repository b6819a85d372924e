import Mathlib
import Nise.RubyPeer.DispatcherProtocol

/-!
# Which callback a message gets

`subscribe_special` and `subscribe_message` write into one hash with strings as keys, and the
receive path makes a key of its own from the header.  A control message is converted into a
DATA message before its key is made, so types 0, START_FRAME and ADVANCE_TIME_REQUEST are
looked up as DATA.
-/

namespace Nise.RubyPeer

open Nise.Lib Nise.RubyModels

/-- The symbols of `SimMsgType`. -/
inductive SimMsgSymbol where
  | unknown
  | route
  | subscribe
  | data
  | recoverableErrorStatusResponse
  | fatalErrorStatusResponse
  | okStatusResponse
  | statusRequest
  | xmlCommand
  | startFrame
  | endFrameRequest
  | endFrameOkResponse
  | endFrameErrorResponse
  | endFrameCommand
  | startSimulation
  | endSimulation
  | startCase
  | endCase
  | breakwire
  | ignition
  | invokeRequest
  | invokeResponse
  | locateRequest
  | locateResponse
  | hello
  | init
  | goodbye
  | d2dConnect
  | goodbyeRequest
  | dispatcherCommand
  | logChannelStatus
  | advanceTimeRequest
  | timeAdvanced
  | control
  | logEventChannelStatus
  deriving DecidableEq, Repr

/-- `SimMsgType.type_`. -/
def SimMsgSymbol.type : SimMsgSymbol → Int
  | .unknown => -1
  | .route => 0
  | .subscribe => 1
  | .data => 2
  | .recoverableErrorStatusResponse => 3
  | .fatalErrorStatusResponse => 4
  | .okStatusResponse => 5
  | .statusRequest => 6
  | .xmlCommand => 7
  | .startFrame => 8
  | .endFrameRequest => 9
  | .endFrameOkResponse => 10
  | .endFrameErrorResponse => 11
  | .endFrameCommand => 12
  | .startSimulation => 13
  | .endSimulation => 14
  | .startCase => 15
  | .endCase => 16
  | .breakwire => 17
  | .ignition => 18
  | .invokeRequest => 19
  | .invokeResponse => 20
  | .locateRequest => 21
  | .locateResponse => 22
  | .hello => 23
  | .init => 24
  | .goodbye => 25
  | .d2dConnect => 26
  | .goodbyeRequest => 27
  | .dispatcherCommand => 28
  | .logChannelStatus => 29
  | .advanceTimeRequest => 30
  | .timeAdvanced => 31
  | .control => 32
  | .logEventChannelStatus => 33

/-- A call of `subscribe_special` or of `subscribe_message`; the callback may be nil. -/
inductive Subscription (Class Callback : Type) where
  | special (symbol : SimMsgSymbol) (callbackMethod : Option Callback)
  | message (messageClass : Class) (callbackMethod : Option Callback)
  deriving DecidableEq, Repr

namespace Subscription

variable {Class Callback : Type} (appMessageId : Class → Nat)

def callbackMethod : Subscription Class Callback → Option Callback
  | special _ callbackMethod => callbackMethod
  | message _ callbackMethod => callbackMethod

/-- The key that a call writes to.  `appMessageId` is the id of the record of a class in the
table of application messages. -/
def key : Subscription Class Callback → String
  | special symbol _ => toString symbol.type ++ "-" ++ toString (0 : Int)
  | message messageClass _ =>
      if appMessageId messageClass = 0 then
        toString SimMsgSymbol.data.type ++ "-" ++ toString (appMessageId messageClass : Int)
      else toString (appMessageId messageClass : Int)

/-- `@subscribed` after some calls. -/
def subscribed (calls : List (Subscription Class Callback)) : String → Option Callback :=
  calls.foldl (fun hash call => Function.update hash (call.key appMessageId) call.callbackMethod)
    fun _ => none

/-- The callback given by the last call of a kind. -/
def lastGiven (concerns : Subscription Class Callback → Bool)
    (calls : List (Subscription Class Callback)) : Option Callback :=
  (calls.filter concerns).getLast?.bind callbackMethod

/-- The type that a received type is looked up as. -/
def lookupType (type : Nat) : Int := if type = 0 ∨ type = 8 ∨ type = 30 then 2 else type

/-- The calls that a message with this type and application id finds. -/
def Concerns (type appMsgId : Nat) : Subscription Class Callback → Prop
  | special symbol _ => appMsgId = 0 ∧ symbol.type = lookupType type
  | message messageClass _ =>
      appMessageId messageClass = appMsgId ∧ (appMsgId = 0 → lookupType type = 2)

instance (type appMsgId : Nat) :
    DecidablePred (Concerns appMessageId type appMsgId : Subscription Class Callback → Prop)
  | special symbol _ => inferInstanceAs (Decidable (appMsgId = 0 ∧ symbol.type = lookupType type))
  | message messageClass _ => inferInstanceAs (Decidable
      (appMessageId messageClass = appMsgId ∧ (appMsgId = 0 → lookupType type = 2)))

/-! ## Keys -/

theorem dash_not_mem_repr (number : Nat) : '-' ∉ (toString (number : Int)).toList := by
  change '-' ∉ number.repr.toList
  rw [Nat.toList_repr]
  intro member
  have digit := Nat.isDigit_of_mem_toDigits (by decide) (by decide) member
  revert digit
  decide

/-- A key with a type is not the number of a message. -/
theorem typed_ne_number (type : Int) (number : Nat) :
    toString type ++ "-" ++ toString (0 : Int) ≠ toString (number : Int) := by
  intro same
  refine dash_not_mem_repr number ?_
  rw [← same]
  simp

theorem typed_inj {type other : Int} :
    toString type ++ "-" ++ toString (0 : Int) = toString other ++ "-" ++ toString (0 : Int) ↔
      type = other := by
  rw [String.append_left_inj, String.append_left_inj]
  exact Int.repr_inj

theorem number_inj {number other : Nat} :
    toString (number : Int) = toString (other : Int) ↔ number = other :=
  Nat.repr_inj

/-- The key under which a message with this type and application id is looked up. -/
def lookupKey (type appMsgId : Nat) : String :=
  if appMsgId = 0 then toString (lookupType type) ++ "-" ++ toString (0 : Int)
  else toString (appMsgId : Int)

theorem key_eq_lookupKey_iff (type appMsgId : Nat) (call : Subscription Class Callback) :
    call.key appMessageId = lookupKey type appMsgId ↔ call.Concerns appMessageId type appMsgId := by
  unfold lookupKey
  cases call with
  | special symbol callbackMethod =>
      simp only [key, Concerns]
      by_cases none : appMsgId = 0
      · rw [if_pos none, typed_inj]
        exact (and_iff_right none).symm
      · rw [if_neg none]
        exact iff_of_false (typed_ne_number _ _) fun concerns => none concerns.1
  | message messageClass callbackMethod =>
      simp only [key, Concerns]
      by_cases zero : appMessageId messageClass = 0
      · rw [if_pos zero, zero]
        by_cases none : appMsgId = 0
        · rw [if_pos none]
          refine typed_inj.trans ?_
          simp only [SimMsgSymbol.type, none, true_and, forall_const]
          exact eq_comm
        · rw [if_neg none]
          exact iff_of_false (typed_ne_number _ _) fun concerns => none concerns.1.symm
      · rw [if_neg zero]
        by_cases none : appMsgId = 0
        · rw [if_pos none, none]
          exact iff_of_false (typed_ne_number _ _).symm fun concerns => zero concerns.1
        · rw [if_neg none, number_inj]
          simp [none]

/-! ## The hash -/

/-- What the hash has under a key was given by the last call that wrote to it. -/
theorem subscribed_eq_lastGiven (calls : List (Subscription Class Callback)) (wanted : String) :
    subscribed appMessageId calls wanted =
      lastGiven (fun call => call.key appMessageId == wanted) calls := by
  induction calls using List.reverseRecOn with
  | nil => rfl
  | append_singleton earlier call ih =>
      unfold subscribed lastGiven at ih ⊢
      rw [List.foldl_append, List.filter_append]
      simp only [List.foldl_cons, List.foldl_nil]
      by_cases same : call.key appMessageId = wanted
      · subst same
        simp
      · rw [Function.update_of_ne (Ne.symm same), ih]
        simp [same]

theorem subscribed_lookupKey (calls : List (Subscription Class Callback)) (type appMsgId : Nat) :
    subscribed appMessageId calls (lookupKey type appMsgId) =
      lastGiven (fun call => decide (call.Concerns appMessageId type appMsgId)) calls := by
  rw [subscribed_eq_lastGiven]
  congr
  funext call
  rw [Bool.eq_iff_iff, beq_iff_eq, decide_eq_true_eq]
  exact key_eq_lookupKey_iff appMessageId type appMsgId call

end Subscription

/-! ## Received messages -/

namespace Frame

variable (frame : Frame)

/-- The type that the header carries. -/
def type : Nat := byteNumeral.read ((frame.header.drop 24).take 4)

def appMsgId : Nat := byteNumeral.read ((frame.header.drop 16).take 2)

/-- An unsigned item of the header is the number in its bytes. -/
theorem fields_integer {before after : List (HeaderMember × ItemType)}
    {item : HeaderMember × ItemType} (split : SamsonHeader.items = before ++ item :: after)
    (once : item.1 ∉ after.map Prod.fst) {directive : Directive}
    (code : (formatCode item.2).1 = .directive directive)
    (reads : ∀ bytes, directive.unpack bytes = Directive.unpackInteger (formatCode item.2).2 bytes)
    (inside : IseMessage.fixedSize before + (formatCode item.2).2 ≤ 48) :
    frame.fields item.1 = .integer (byteNumeral.read
      ((frame.header.drop (IseMessage.fixedSize before)).take (formatCode item.2).2)) := by
  have length : frame.header.length = 48 := frame.length_header
  obtain ⟨header, parsed, value⟩ := SamsonHeader.exists_new_member
    (Nat.le_of_eq frame.length_header.symm) split once code
  have all : frame.header.take SamsonHeader.samsonHeaderLength = frame.header :=
    List.take_of_length_le (Nat.le_of_eq frame.length_header)
  have enough : ((frame.header.drop (IseMessage.fixedSize before)).take
      (formatCode item.2).2).length = (formatCode item.2).2 := by
    rw [List.length_take, List.length_drop]
    omega
  rw [fields, parsed, Option.getD_some, value, all, reads, Directive.unpackInteger,
    if_neg (by omega), List.take_of_length_le (Nat.le_of_eq enough)]

theorem fields_type : frame.fields .type = .integer frame.type := by
  have split : SamsonHeader.items = SamsonHeader.items.take 9 ++
      (.type, .aceUint32) :: SamsonHeader.items.drop 10 := rfl
  exact frame.fields_integer split (by decide) rfl (fun _ => rfl) (by decide)

theorem fields_appMsgId : frame.fields .appMsgId = .integer frame.appMsgId := by
  have split : SamsonHeader.items = SamsonHeader.items.take 6 ++
      (.appMsgId, .aceUint16) :: SamsonHeader.items.drop 7 := rfl
  exact frame.fields_integer split (by decide) rfl (fun _ => rfl) (by decide)

theorem convertType_type :
    convertType frame.fields .type = .integer (Subscription.lookupType frame.type) := by
  have converted : frame.fields .type ∈ convertedTypes ↔
      frame.type = 0 ∨ frame.type = 8 ∨ frame.type = 30 := by
    rw [frame.fields_type, convertedTypes]
    simp only [List.mem_cons, Value.integer.injEq, List.not_mem_nil, or_false]
    omega
  unfold convertType Subscription.lookupType
  by_cases control : frame.type = 0 ∨ frame.type = 8 ∨ frame.type = 30
  · rw [if_pos (converted.mpr control), if_pos control]
    simp [instanceVariableSet]
  · rw [if_neg (mt converted.mp control), if_neg control, frame.fields_type]

theorem convertType_appMsgId :
    convertType frame.fields .appMsgId = .integer frame.appMsgId := by
  unfold convertType
  split
  · simp [instanceVariableSet, frame.fields_appMsgId]
  · exact frame.fields_appMsgId

/-- The receive path makes the key for the type and the id in the header. -/
theorem cmKey_convertType :
    cmKey (convertType frame.fields) = Subscription.lookupKey frame.type frame.appMsgId := by
  unfold cmKey Subscription.lookupKey
  rw [frame.convertType_type, frame.convertType_appMsgId]
  by_cases none : frame.appMsgId = 0
  · rw [none]
    rfl
  · have other : (Value.integer frame.appMsgId) ≠ .integer 0 := by
      simpa using none
    rw [if_neg other, if_neg none]
    rfl

/-- The callback that a message is dispatched to. -/
theorem callback_dispatched {Class Callback : Type} (appMessageId : Class → Nat)
    (calls : List (Subscription Class Callback)) :
    (frame.dispatched (Subscription.subscribed appMessageId calls)).call.map Prod.fst =
      Subscription.lastGiven
        (fun call => decide (call.Concerns appMessageId frame.type frame.appMsgId)) calls := by
  unfold dispatched
  dsimp only
  rw [frame.cmKey_convertType, Subscription.subscribed_lookupKey, Option.map_map]
  exact Option.map_id'

end Frame

/-- After any calls that subscribe, every message of a stream gets the callback of the last call
that concerns it, or none, and those behind it are dispatched all the same. -/
theorem callbacks_of_stream {Class Callback : Type} (appMessageId : Class → Nat)
    (calls : List (Subscription Class Callback)) (frames : List Frame)
    (chunks : List (List UInt8))
    (arrived : chunks.flatten <+: Frames.stream Frame.bytes frames) :
    ∃ protocol, chunks.foldlM (receiveData (Subscription.subscribed appMessageId calls)) .start =
        some protocol ∧
      protocol.handled.map (fun handling => handling.call.map Prod.fst) =
        (Frames.within Frame.bytes frames chunks.flatten.length).map fun frame =>
          Subscription.lastGiven
            (fun call => decide (call.Concerns appMessageId frame.type frame.appMsgId)) calls := by
  obtain ⟨protocol, finished, pending, done, standing⟩ :=
    (Standing.start (Subscription.subscribed appMessageId calls) frames).foldlM_receiveData _
      chunks arrived
  rw [List.nil_append] at standing
  refine ⟨protocol, done, ?_⟩
  rw [standing.handled, standing.progress.within_received, List.map_map]
  refine List.map_congr_left fun frame _ => ?_
  exact frame.callback_dispatched appMessageId calls

/-- Two messages, for which a callback is subscribed twice by their class and their type. -/
theorem callbacks_of_two_messages :
    ∃ protocol, [startFrame.bytes ++ dataFrame.bytes].foldlM
        (receiveData (Subscription.subscribed (fun _ : Unit => 5)
          [.message () (some 1), .special .data (some 2), .message () (some 3)])) .start =
        some protocol ∧
      protocol.handled.map (fun handling => handling.call.map Prod.fst) = [some 2, some 3] := by
  have arrived : [startFrame.bytes ++ dataFrame.bytes].flatten <+:
      Frames.stream Frame.bytes [startFrame, dataFrame] := by
    decide
  exact callbacks_of_stream (fun _ : Unit => 5)
    [.message () (some 1), .special .data (some 2), .message () (some 3)]
    [startFrame, dataFrame] [startFrame.bytes ++ dataFrame.bytes] arrived

/-! ## Looking a type up as it was received -/

/-- The callback for the type in the header, or for the class of the message. -/
def callbackAsReceived {Class Callback : Type} (appMessageId : Class → Nat)
    (calls : List (Subscription Class Callback)) (frame : Frame) : Option Callback :=
  Subscription.lastGiven (fun call =>
    match call with
    | .special symbol _ => decide (frame.appMsgId = 0 ∧ symbol.type = frame.type)
    | .message messageClass _ =>
        decide (frame.appMsgId ≠ 0 ∧ appMessageId messageClass = frame.appMsgId)) calls

/-- A DATA message without data and without an application id. -/
def emptyFrame : Frame where
  header := [0x53, 0x4e, 1, 0, 0, 0, 0, 0, 0, 0, 0, 0, 0, 0, 0, 0, 0, 0, 0, 0, 0, 0, 0, 0,
    0, 0, 0, 2, 0, 0, 0, 0, 0, 0, 0, 0, 0, 0, 0, 0, 0, 0, 0, 0, 0, 0, 0, 0]
  body := []
  length_header := rfl
  starts := rfl
  counted := rfl

/-- A frame that is received at once. -/
theorem receiveData_single {Callback : Type} (subscribed : String → Option Callback)
    (frame : Frame) :
    [frame.bytes].foldlM (receiveData subscribed) .start =
      some ⟨[], [], [frame.dispatched subscribed], 1⟩ := by
  have arrived : (IseProtocol.start : IseProtocol Callback).leftOvers ++ frame.bytes =
      Frames.stream Frame.bytes [frame] ++ [] := by
    simp [IseProtocol.start]
  have short : ∀ next rest, ([] : List Frame) = next :: rest →
      ([] : List UInt8).length < next.bytes.length := by
    intro next rest absent
    cases absent
  have received := receiveData_stream subscribed
    (rfl : (IseProtocol.start : IseProtocol Callback).msgQueue = []) arrived short List.nil_prefix
  rw [List.foldlM_cons, received]
  rfl

/-- The type of a control message is converted before it is looked up, and a class with the
id 0 is subscribed like the type DATA. -/
theorem callbacks_differ_from_received :
    (¬ ∀ (appMessageId : Unit → Nat) (calls : List (Subscription Unit Unit))
        (frames : List Frame) (chunks : List (List UInt8)),
      (∀ messageClass, appMessageId messageClass ≠ 0) →
      chunks.flatten <+: Frames.stream Frame.bytes frames →
      ∃ protocol, chunks.foldlM (receiveData (Subscription.subscribed appMessageId calls)) .start =
          some protocol ∧
        protocol.handled.map (fun handling => handling.call.map Prod.fst) =
          (Frames.within Frame.bytes frames chunks.flatten.length).map
            (callbackAsReceived appMessageId calls)) ∧
    ¬ ∀ (appMessageId : Unit → Nat) (calls : List (Subscription Unit Unit))
        (frames : List Frame) (chunks : List (List UInt8)),
      (∀ frame ∈ frames, frame.type = 2) →
      chunks.flatten <+: Frames.stream Frame.bytes frames →
      ∃ protocol, chunks.foldlM (receiveData (Subscription.subscribed appMessageId calls)) .start =
          some protocol ∧
        protocol.handled.map (fun handling => handling.call.map Prod.fst) =
          (Frames.within Frame.bytes frames chunks.flatten.length).map
            (callbackAsReceived appMessageId calls) := by
  constructor
  · intro always
    obtain ⟨protocol, run, same⟩ := always (fun _ => 1) [.special .startFrame (some ())]
      [startFrame] [startFrame.bytes] (fun _ => Nat.one_ne_zero) (by decide)
    rw [receiveData_single] at run
    cases run
    rw [List.map_singleton, startFrame.callback_dispatched] at same
    revert same
    decide
  · intro always
    have types : ∀ frame ∈ [emptyFrame], frame.type = 2 := by
      intro frame member
      rw [List.mem_singleton.mp member]
      decide
    obtain ⟨protocol, run, same⟩ := always (fun _ => 0) [.message () (some ())] [emptyFrame]
      [emptyFrame.bytes] types (by decide)
    rw [receiveData_single] at run
    cases run
    rw [List.map_singleton, emptyFrame.callback_dispatched] at same
    revert same
    decide

end Nise.RubyPeer
