import Nise.Lib.Run

/-!
# Two systems joined by a pipe

A writer puts bytes into a pipe and a reader takes them out, in any order of steps.  The
reader may take no byte that has not been written, and that is all that joins the two: a run
of the pipe is a run of the writer and a run of the reader on what is written in the end.
-/

namespace Nise.Lib

/-- A writer with the bytes it has written, and the reader of a pipe that holds given bytes. -/
structure Pipe (Writer Write Reader Read Byte : Type*) where
  writer : System Writer Write
  written : Writer → List Byte
  reader : List Byte → System Reader Read
  /-- Nothing that has been written is taken back. -/
  grows : ∀ state event, writer.guard state event →
    written state <+: written (writer.step state event)
  /-- The reader does not see what it has not yet read. -/
  blind : ∀ data more state event, (reader data).step state event = (reader more).step state event
  /-- What can be read from a pipe can be read when more is in it. -/
  readable : ∀ data more state event, data <+: more → (reader data).guard state event →
    (reader more).guard state event

namespace Pipe

variable {Writer Write Reader Read Byte : Type*} (pipe : Pipe Writer Write Reader Read Byte)

/-- The writer and the reader take steps in any order. -/
def joined : System (Writer × Reader) (Write ⊕ Read) where
  step
    | (writer, reader), .inl event => (pipe.writer.step writer event, reader)
    | (writer, reader), .inr event =>
        (writer, (pipe.reader (pipe.written writer)).step reader event)
  guard
    | (writer, _), .inl event => pipe.writer.guard writer event
    | (writer, reader), .inr event => (pipe.reader (pipe.written writer)).guard reader event

instance decidableGuard [∀ writer event, Decidable (pipe.writer.guard writer event)]
    [∀ data reader event, Decidable ((pipe.reader data).guard reader event)] :
    ∀ state event, Decidable (pipe.joined.guard state event)
  | (writer, _), .inl event => inferInstanceAs (Decidable (pipe.writer.guard writer event))
  | (writer, reader), .inr event =>
      inferInstanceAs (Decidable ((pipe.reader (pipe.written writer)).guard reader event))

/-- The steps of the writer. -/
def writes (events : List (Write ⊕ Read)) : List Write := events.filterMap Sum.getLeft?

/-- The steps of the reader. -/
def reads (events : List (Write ⊕ Read)) : List Read := events.filterMap Sum.getRight?

section Parts

variable (write : Write) (read : Read) (rest : List (Write ⊕ Read))

@[simp] theorem writes_inl : writes (.inl write :: rest) = write :: writes rest := rfl

@[simp] theorem writes_inr : writes (.inr read :: rest) = writes rest := rfl

@[simp] theorem reads_inl : reads (.inl write :: rest) = reads rest := rfl

@[simp] theorem reads_inr : reads (.inr read :: rest) = read :: reads rest := rfl

end Parts

variable {pipe} {start : Writer × Reader} {events : List (Write ⊕ Read)}

/-- The writer's part of a run is a run of the writer. -/
theorem writer_run (admitted : pipe.joined.Admits start events) :
    pipe.writer.Admits start.1 (writes events) ∧
      (pipe.joined.exec start events).1 = pipe.writer.exec start.1 (writes events) := by
  induction events generalizing start with
  | nil => exact ⟨trivial, rfl⟩
  | cons event rest ih =>
      obtain ⟨guarded, later⟩ := admitted
      obtain ⟨still, reached⟩ := ih later
      cases event with
      | inl write => exact ⟨⟨guarded, still⟩, reached⟩
      | inr read => exact ⟨still, reached⟩

theorem written_grows (admitted : pipe.joined.Admits start events) :
    pipe.written start.1 <+: pipe.written (pipe.joined.exec start events).1 := by
  induction events generalizing start with
  | nil => exact List.prefix_refl _
  | cons event rest ih =>
      obtain ⟨guarded, later⟩ := admitted
      have afterwards := ih later
      cases event with
      | inl write => exact (pipe.grows start.1 write guarded).trans afterwards
      | inr read => exact afterwards

/-- The reader's part of a run is a run of the reader on any bytes that start with those
written in the end. -/
theorem reader_run (admitted : pipe.joined.Admits start events) {data : List Byte}
    (within : pipe.written (pipe.joined.exec start events).1 <+: data) :
    (pipe.reader data).Admits start.2 (reads events) ∧
      (pipe.joined.exec start events).2 = (pipe.reader data).exec start.2 (reads events) := by
  induction events generalizing start with
  | nil => exact ⟨trivial, rfl⟩
  | cons event rest ih =>
      obtain ⟨guarded, later⟩ := admitted
      obtain ⟨still, reached⟩ := ih later within
      cases event with
      | inl write => exact ⟨still, reached⟩
      | inr read =>
          have now : pipe.written start.1 <+: data := (written_grows later).trans within
          have same := pipe.blind (pipe.written start.1) data start.2 read
          have next : (pipe.joined.step start (.inr read)).2 =
              (pipe.reader data).step start.2 read := same
          rw [next] at still reached
          exact ⟨⟨pipe.readable _ data start.2 read now guarded, still⟩, reached⟩

end Pipe

end Nise.Lib
