import Mathlib.Algebra.Order.Ring.Int
import Mathlib.Data.List.Basic

/-!
# Sockets, errno and message blocks

The handlers talk to a non-blocking stream socket.  What the socket does is
chosen by the network, so a call takes its result as data: `recv` is scripted by
a list of results and `send_n` by one outcome.
-/

namespace Nise.Ace

inductive Errno where
  | clear
  | ewouldblock
  | other (code : Nat)
  deriving DecidableEq, Repr

/-- Conversion to a 32-bit `int`. -/
def toInt (value : Int) : Int := value.bmod (2 ^ 32)

theorem toInt_of_lt {value : Nat} (fits : value < 2 ^ 31) : toInt value = value := by
  unfold toInt
  rw [Int.bmod_def]
  omega

@[simp] theorem toInt_zero : toInt 0 = 0 := toInt_of_lt (by decide)

@[simp] theorem toInt_toInt (value : Int) : toInt (toInt value) = toInt value := by
  unfold toInt
  exact Int.bmod_bmod

/-- An `ACE_Message_Block`: its capacity and the bytes between its read and write pointers. -/
structure MessageBlock where
  size : Nat
  data : List UInt8
  deriving DecidableEq, Repr

namespace MessageBlock

def length (block : MessageBlock) : Nat := block.data.length

/-- `copy` of more bytes behind the write pointer. -/
def write (block : MessageBlock) (more : List UInt8) : MessageBlock :=
  { block with data := block.data ++ more }

/-- `rd_ptr (n)`: skip the first bytes. -/
def rdPtr (block : MessageBlock) (count : Nat) : MessageBlock :=
  { block with data := block.data.drop count }

@[simp] theorem write_data (block : MessageBlock) (more : List UInt8) :
    (block.write more).data = block.data ++ more := rfl

@[simp] theorem rdPtr_data (block : MessageBlock) (count : Nat) :
    (block.rdPtr count).data = block.data.drop count := rfl

end MessageBlock

/-! ## Receiving -/

/-- The result of one `recv`: some bytes, an end of stream (0), or -1 with its errno. -/
inductive RecvResult where
  | bytes (data : List UInt8)
  | eof
  | fail (errno : Errno)
  deriving DecidableEq, Repr

namespace RecvResult

def count : RecvResult → Int
  | bytes data => data.length
  | eof => 0
  | fail _ => -1

def data : RecvResult → List UInt8
  | bytes data => data
  | eof => []
  | fail _ => []

/-- A call that does not fail leaves errno as it was. -/
def errno (before : Errno) : RecvResult → Errno
  | bytes _ => before
  | eof => before
  | fail errno => errno

/-- A count between 1 and the bytes requested. -/
def Counted (requested : Int) : RecvResult → Prop
  | bytes data => data ≠ [] ∧ (data.length : Int) ≤ requested
  | eof => False
  | fail _ => False

instance (requested : Int) : DecidablePred (RecvResult.Counted requested)
  | bytes data => inferInstanceAs (Decidable (data ≠ [] ∧ (data.length : Int) ≤ requested))
  | eof => inferInstanceAs (Decidable False)
  | fail _ => inferInstanceAs (Decidable False)

theorem exists_bytes_of_counted {requested : Int} {result : RecvResult}
    (counted : result.Counted requested) :
    ∃ data, result = bytes data ∧ data ≠ [] ∧ (data.length : Int) ≤ requested := by
  cases result with
  | bytes data => exact ⟨data, rfl, counted⟩
  | eof => exact False.elim counted
  | fail errno => exact False.elim counted

end RecvResult

/-- One `recv` a handler made: where it wrote, how much it asked for, what it got. -/
structure RecvCall where
  offset : Int
  requested : Int
  result : RecvResult
  deriving DecidableEq, Repr

/-- The next scripted result; a script that has run out blocks. -/
def nextResult (script : List RecvResult) : RecvResult :=
  script.headD (.fail .ewouldblock)

/-- The bytes the calls took off the socket. -/
def taken (calls : List RecvCall) : List UInt8 :=
  calls.flatMap fun call => call.result.data

@[simp] theorem taken_nil : taken [] = [] := rfl

@[simp] theorem taken_cons (call : RecvCall) (rest : List RecvCall) :
    taken (call :: rest) = call.result.data ++ taken rest := rfl

@[simp] theorem taken_append (first second : List RecvCall) :
    taken (first ++ second) = taken first ++ taken second :=
  List.flatMap_append

/--
What the reactor promises of one invocation: it is called when the socket is
readable, so its first `recv` gets a count, while a second one may block.
-/
def Readable : List RecvCall → Prop
  | [] => False
  | first :: rest =>
      first.result.Counted first.requested ∧
        ∀ call ∈ rest, call.result.Counted call.requested ∨ call.result = .fail .ewouldblock

instance : DecidablePred Readable
  | [] => inferInstanceAs (Decidable False)
  | first :: rest =>
      inferInstanceAs (Decidable (first.result.Counted first.requested ∧
        ∀ call ∈ rest, call.result.Counted call.requested ∨ call.result = .fail .ewouldblock))

theorem taken_ne_nil_of_readable {calls : List RecvCall} (readable : Readable calls) :
    taken calls ≠ [] := by
  cases calls with
  | nil => exact False.elim readable
  | cons first rest =>
      obtain ⟨data, same, nonempty, _⟩ := RecvResult.exists_bytes_of_counted readable.1
      rw [taken_cons, same]
      intro empty
      exact nonempty (List.append_eq_nil_iff.mp empty).1

theorem readable_first {calls : List RecvCall} {first : RecvCall}
    (starts : ∃ more, calls = [first] ++ more) (readable : Readable calls) :
    first.result.Counted first.requested := by
  obtain ⟨more, same⟩ := starts
  rw [same] at readable
  exact readable.1

end Nise.Ace
