import Mathlib.Data.Vector.Basic
import Nise.Core.HeaderClass
import Nise.Lib.Numeral

/-!
# The header on the wire

The forty-eight bytes of the header, with the members that sending and receiving use at their
places in network byte order: the peer in bytes 8 to 11, the send count in bytes 36 to 39, the
checksum in bytes 40 to 43 and the data length in the last four.
-/

namespace Nise.Core

open Nise.Lib

structure WireHeader where
  start : List.Vector UInt8 8
  peerId : UInt32
  middle : List.Vector UInt8 24
  sendCount : UInt32
  crc32 : UInt32
  dataLength : UInt32
  deriving DecidableEq

namespace WireHeader

/-- Four bytes, the most significant one first. -/
def network (value : UInt32) : List UInt8 := byteNumeral.write 4 value.toNat

def encode (header : WireHeader) : List UInt8 :=
  header.start.toList ++ (network header.peerId ++ (header.middle.toList ++
    (network header.sendCount ++ (network header.crc32 ++ network header.dataLength))))

def number (buffer : List UInt8) : UInt32 := .ofNat (byteNumeral.read (buffer.take 4))

/-- The first bytes of a buffer, or zeros where it has ended. -/
def bytes (count : Nat) (buffer : List UInt8) : List.Vector UInt8 count :=
  List.Vector.ofFn fun place => buffer.getD place 0

def decode (buffer : List UInt8) : WireHeader where
  start := bytes 8 buffer
  peerId := number (buffer.drop 8)
  middle := bytes 24 (buffer.drop 12)
  sendCount := number (buffer.drop 36)
  crc32 := number (buffer.drop 40)
  dataLength := number (buffer.drop 44)

theorem number_network (value : UInt32) (rest : List UInt8) :
    number (network value ++ rest) = value := by
  have length : (network value).length = 4 := byteNumeral.length_write 4 _
  have fits : value.toNat < byteNumeral.base ^ 4 := value.toNat_lt
  unfold number
  rw [List.take_left' length, network, byteNumeral.read_write fits, UInt32.ofNat_toNat]

theorem bytes_toList {count : Nat} (shown : List.Vector UInt8 count) (rest : List UInt8) :
    bytes count (shown.toList ++ rest) = shown := by
  refine List.Vector.ext fun place => ?_
  have inside : (place : Nat) < shown.toList.length := by
    rw [List.Vector.toList_length]
    exact place.isLt
  rw [bytes, List.Vector.get_ofFn, List.getD_eq_getElem?_getD,
    List.getElem?_append_left inside, List.getElem?_eq_getElem inside,
    List.Vector.get_eq_get_toList]
  rfl

theorem length_encode (header : WireHeader) : header.encode.length = 48 := by
  unfold encode network
  simp only [List.length_append, Numeral.length_write, List.Vector.toList_length]

/-- The members behind one another, each found behind the bytes of those before it. -/
theorem decode_encode (header : WireHeader) : decode header.encode = header := by
  have four : ∀ value : UInt32, (network value).length = 4 := fun value =>
    byteNumeral.length_write 4 _
  have at8 : header.encode.drop 8 = network header.peerId ++ (header.middle.toList ++
      (network header.sendCount ++ (network header.crc32 ++ network header.dataLength))) :=
    List.drop_left' header.start.toList_length
  have at12 : header.encode.drop (8 + 4) = header.middle.toList ++
      (network header.sendCount ++ (network header.crc32 ++ network header.dataLength)) := by
    rw [← List.drop_drop, at8, List.drop_left' (four _)]
  have at36 : header.encode.drop (8 + 4 + 24) =
      network header.sendCount ++ (network header.crc32 ++ network header.dataLength) := by
    rw [← List.drop_drop, at12, List.drop_left' header.middle.toList_length]
  have at40 : header.encode.drop (8 + 4 + 24 + 4) =
      network header.crc32 ++ network header.dataLength := by
    rw [← List.drop_drop, at36, List.drop_left' (four _)]
  have at44 : header.encode.drop (8 + 4 + 24 + 4 + 4) = network header.dataLength ++ [] := by
    rw [← List.drop_drop, at40, List.drop_left' (four _), List.append_nil]
  unfold decode
  rw [at8, at12, at36, at40, at44]
  simp only [number_network, bytes_toList]
  unfold encode
  rw [bytes_toList]

/-- A header class that has these members. -/
def headerClass : HeaderClass WireHeader where
  headerLength := 48
  headerLength_pos := Nat.succ_pos 47
  decode := decode
  dataLength header := header.dataLength.toNat
  peerId := peerId
  sendCount := sendCount
  crc32 := crc32
  setSendCount header count := { header with sendCount := count }
  setCrc32 header crc := { header with crc32 := crc }
  encode := encode

theorem headerClass_lawful : headerClass.Lawful where
  length_encode := length_encode
  decode_encode := decode_encode
  peerId_setSendCount _ _ := rfl
  peerId_setCrc32 _ _ := rfl
  sendCount_set _ _ := rfl
  sendCount_setCrc32 _ _ := rfl
  crc32_set _ _ := rfl
  dataLength_setSendCount _ _ := rfl
  dataLength_setCrc32 _ _ := rfl

/-- A header of a model for data of a length. -/
def forData (peerId dataLength : UInt32) : WireHeader where
  start := bytes 8 [0x53, 0x4e, 1]
  peerId := peerId
  middle := bytes 24 []
  sendCount := 0
  crc32 := 0
  dataLength := dataLength

/-- A newly allocated header. -/
def blank : EventHeader WireHeader := ⟨List.replicate 48 0, decode [], 0, -1⟩

end WireHeader

end Nise.Core
