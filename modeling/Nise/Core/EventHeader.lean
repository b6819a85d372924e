import Nise.Ace.Sock

/-!
# Event headers

An event header is a buffer of fixed length that `decode` turns into fields.
The handlers only rely on its length, on `decode` being a function of the bytes
in the buffer, and on the data length among the fields, so these are the
parameters of a header type.
-/

namespace Nise.Core

structure HeaderType (Fields : Type) where
  headerLength : Nat
  headerLength_pos : 0 < headerLength
  decode : List UInt8 → Fields
  dataLength : Fields → Int

/-- A header object: the buffer at `addr ()`, its fields, and its hidden routing details. -/
structure EventHeader (Fields : Type) where
  addr : List UInt8
  fields : Fields
  connectionId : Int
  handle : Int
  deriving DecidableEq, Repr

/--
Write into a buffer at an offset.  At a negative offset the leading bytes fall
in front of the buffer and are not seen in it.
-/
def overwrite (buffer : List UInt8) (offset : Int) (data : List UInt8) : List UInt8 :=
  let inside := data.drop (-offset).toNat
  buffer.take offset.toNat ++ inside ++ buffer.drop (offset.toNat + inside.length)

theorem overwrite_nat (buffer data : List UInt8) (offset : Nat) :
    overwrite buffer offset data =
      buffer.take offset ++ data ++ buffer.drop (offset + data.length) := by
  unfold overwrite
  have negative : (-(offset : Int)).toNat = 0 := by omega
  rw [negative, List.drop_zero, Int.toNat_natCast]

theorem length_overwrite {buffer data : List UInt8} {offset : Nat}
    (fits : offset + data.length ≤ buffer.length) :
    (overwrite buffer offset data).length = buffer.length := by
  rw [overwrite_nat]
  simp only [List.length_append, List.length_take, List.length_drop]
  omega

theorem take_overwrite (buffer data : List UInt8) (offset : Nat)
    (fits : offset ≤ buffer.length) :
    (overwrite buffer offset data).take (offset + data.length) = buffer.take offset ++ data := by
  rw [overwrite_nat]
  apply List.take_left'
  simp only [List.length_append, List.length_take]
  omega

namespace EventHeader

variable {Fields : Type}

def write (header : EventHeader Fields) (offset : Int) (data : List UInt8) : EventHeader Fields :=
  { header with addr := overwrite header.addr offset data }

def decode (type : HeaderType Fields) (header : EventHeader Fields) : EventHeader Fields :=
  { header with fields := type.decode header.addr }

/-- Fill in the hidden details, where the caller has any to fill in. -/
def fill (details : Option (Int × Int)) (header : EventHeader Fields) : EventHeader Fields :=
  match details with
  | none => header
  | some (connectionId, handle) =>
      { header with connectionId := connectionId, handle := handle }

@[simp] theorem fill_fields (details : Option (Int × Int)) (header : EventHeader Fields) :
    (header.fill details).fields = header.fields := by
  cases details <;> rfl

end EventHeader

/-- A header as it is handed on when the whole buffer has been received into `blank`. -/
def received {Fields : Type} (type : HeaderType Fields) (blank : EventHeader Fields)
    (details : Option (Int × Int)) (header : List UInt8) : EventHeader Fields :=
  { blank with addr := header, fields := type.decode header }.fill details

@[simp] theorem received_fields {Fields : Type} (type : HeaderType Fields)
    (blank : EventHeader Fields) (details : Option (Int × Int)) (header : List UInt8) :
    (received type blank details header).fields = type.decode header :=
  EventHeader.fill_fields details _

end Nise.Core
