import Nise.Core.EventHeader

/-!
# The Samson header

The 48-byte header of every message between models and dispatchers, with the
message types and flags that route it.  Fields that no modelled function reads
are left out.
-/

namespace Nise.Core

/-- The message types that a modelled function treats on their own. -/
inductive SimMsgType where
  | subscribe
  | data
  | recoverableErrorStatusResponse
  | fatalErrorStatusResponse
  | okStatusResponse
  | statusRequest
  | xmlCommand
  | hello
  | goodbye
  | d2dConnect
  | goodbyeRequest
  | dispatcherCommand
  | logChannelStatus
  | logEventChannelStatus
  | other (code : UInt32)
  deriving DecidableEq, Repr

def SimMsgType.ofCode (code : UInt32) : SimMsgType :=
  if code = 1 then subscribe
  else if code = 2 then data
  else if code = 3 then recoverableErrorStatusResponse
  else if code = 4 then fatalErrorStatusResponse
  else if code = 5 then okStatusResponse
  else if code = 6 then statusRequest
  else if code = 7 then xmlCommand
  else if code = 23 then hello
  else if code = 25 then goodbye
  else if code = 26 then d2dConnect
  else if code = 27 then goodbyeRequest
  else if code = 28 then dispatcherCommand
  else if code = 29 then logChannelStatus
  else if code = 33 then logEventChannelStatus
  else other code

namespace SimMsgFlag

def trace : UInt32 := 0x00000004
def logIt : UInt32 := 0x00000008
def masterOnly : UInt32 := 0x00000100
def nowhere : UInt32 := 0x00000200
def job : UInt32 := 0x00000400
def p2p : UInt32 := 0x00000800
def p2ch : UInt32 := 0x00001000
def control : UInt32 := 0x00002000
def statusLogLocal : UInt32 := 0x00100000
def statusLogDispatcherd : UInt32 := 0x00200000
def statusLogSender : UInt32 := 0x00400000

end SimMsgFlag

structure SamsonHeader where
  dispatched : UInt8
  runId : UInt32
  peerId : UInt32
  messageId : UInt32
  appMsgId : UInt16
  unitId : UInt16
  bitFlags : UInt32
  type : SimMsgType
  destPeerId : UInt32
  crc32 : UInt32
  dataLength : UInt32
  deriving DecidableEq, Repr

namespace SamsonHeader

def enabled (header : SamsonHeader) (flag : UInt32) : Bool :=
  header.bitFlags &&& flag == flag

def setDispatched (header : SamsonHeader) (value : UInt8) : SamsonHeader :=
  { header with dispatched := value }

section SetDispatched

variable (header : SamsonHeader) (value other : UInt8)

@[simp] theorem setDispatched_dispatched : (header.setDispatched value).dispatched = value := rfl

@[simp] theorem setDispatched_runId : (header.setDispatched value).runId = header.runId := rfl

@[simp] theorem setDispatched_destPeerId :
    (header.setDispatched value).destPeerId = header.destPeerId := rfl

@[simp] theorem setDispatched_type : (header.setDispatched value).type = header.type := rfl

theorem setDispatched_self {header : SamsonHeader} (same : header.dispatched = value) :
    header.setDispatched value = header := by
  rw [← same]
  rfl

end SetDispatched

/-- The big-endian number in `width` bytes of the buffer. -/
def network (buffer : List UInt8) (offset width : Nat) : Nat :=
  ((buffer.drop offset).take width).foldl (fun value byte => value * 256 + byte.toNat) 0

def decode (buffer : List UInt8) : SamsonHeader where
  dispatched := .ofNat (network buffer 3 1)
  runId := .ofNat (network buffer 4 4)
  peerId := .ofNat (network buffer 8 4)
  messageId := .ofNat (network buffer 12 4)
  appMsgId := .ofNat (network buffer 16 2)
  unitId := .ofNat (network buffer 18 2)
  bitFlags := .ofNat (network buffer 20 4)
  type := .ofCode (.ofNat (network buffer 24 4))
  destPeerId := .ofNat (network buffer 28 4)
  crc32 := .ofNat (network buffer 40 4)
  dataLength := .ofNat (network buffer 44 4)

/-- The header type `"samson"`. -/
def headerType : HeaderType SamsonHeader where
  headerLength := 48
  headerLength_pos := by decide
  decode := decode
  dataLength header := header.dataLength.toNat

/-- A newly allocated header. -/
def blank : EventHeader SamsonHeader where
  addr := List.replicate 48 0
  fields := decode (List.replicate 48 0)
  connectionId := 0
  handle := -1

end SamsonHeader

end Nise.Core
