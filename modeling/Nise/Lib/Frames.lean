import Mathlib.Data.List.Basic

/-!
# Frames cut out of a stream

A stream is the concatenation of the bytes of its frames.  `within` lists the
frames that lie whole in a prefix of a given length, and `Progress` records how
far a receiver has come: the frames it has received whole and the bytes it holds
of the next one.
-/

namespace Nise.Lib.Frames

variable {Frame Byte : Type*} (bytes : Frame → List Byte)

def stream (frames : List Frame) : List Byte := frames.flatMap bytes

/-- The frames that lie whole in the first `count` bytes of their stream. -/
def within : List Frame → Nat → List Frame
  | [], _ => []
  | frame :: rest, count =>
      if (bytes frame).length ≤ count then
        frame :: within rest (count - (bytes frame).length)
      else []

@[simp] theorem stream_nil : stream bytes [] = [] := rfl

@[simp] theorem stream_cons (frame : Frame) (rest : List Frame) :
    stream bytes (frame :: rest) = bytes frame ++ stream bytes rest := rfl

@[simp] theorem stream_append (first second : List Frame) :
    stream bytes (first ++ second) = stream bytes first ++ stream bytes second :=
  List.flatMap_append

theorem within_finished (finished pending : List Frame) (extra : Nat)
    (short : ∀ frame rest, pending = frame :: rest → extra < (bytes frame).length) :
    within bytes (finished ++ pending) ((stream bytes finished).length + extra) = finished := by
  induction finished with
  | nil =>
      cases pending with
      | nil => rfl
      | cons frame rest =>
          have less := short frame rest rfl
          simp only [List.nil_append, stream_nil, List.length_nil, Nat.zero_add, within]
          rw [if_neg (Nat.not_le_of_lt less)]
  | cons frame rest ih =>
      have fits : (bytes frame).length ≤ (stream bytes (frame :: rest)).length + extra := by
        simp only [stream_cons, List.length_append]
        omega
      have remaining : (stream bytes (frame :: rest)).length + extra - (bytes frame).length =
          (stream bytes rest).length + extra := by
        simp only [stream_cons, List.length_append]
        omega
      rw [List.cons_append, within, if_pos fits, remaining, ih]

/-- A frame that is not whole in the bytes counted is not among those within them. -/
theorem within_append_of_lt (frames : List Frame) (last : Frame) {count : Nat}
    (short : count < (stream bytes frames).length + (bytes last).length) :
    within bytes (frames ++ [last]) count = within bytes frames count := by
  induction frames generalizing count with
  | nil =>
      rw [stream_nil, List.length_nil, Nat.zero_add] at short
      simp only [List.nil_append, within]
      rw [if_neg (Nat.not_le_of_lt short)]
  | cons frame rest ih =>
      rw [List.cons_append, within, within]
      split
      · rw [ih]
        rw [stream_cons, List.length_append] at short
        omega
      · rfl

/-- All of them are within the bytes of their stream. -/
theorem within_stream (frames : List Frame) {count : Nat}
    (enough : (stream bytes frames).length ≤ count) : within bytes frames count = frames := by
  induction frames generalizing count with
  | nil => rfl
  | cons frame rest ih =>
      rw [stream_cons, List.length_append] at enough
      rw [within, if_pos (by omega), ih (by omega)]

theorem within_prefix (frames : List Frame) (count : Nat) : within bytes frames count <+: frames := by
  induction frames generalizing count with
  | nil => exact List.prefix_refl _
  | cons frame rest ih =>
      rw [within]
      split
      · exact (List.prefix_cons_inj frame).mpr (ih _)
      · exact List.nil_prefix

theorem stream_map {Item : Type*} (frame : Item → Frame) (items : List Item) :
    stream bytes (items.map frame) = stream (fun item => bytes (frame item)) items :=
  List.flatMap_map ..

theorem within_map {Item : Type*} (frame : Item → Frame) (items : List Item) (count : Nat) :
    within bytes (items.map frame) count =
      (within (fun item => bytes (frame item)) items count).map frame := by
  induction items generalizing count with
  | nil => rfl
  | cons item rest ih =>
      rw [List.map_cons, within, within]
      split
      · rw [List.map_cons, ih]
      · rfl

/-- Items that have the bytes of frames make up the same stream, and are cut out of it at the
same places. -/
theorem within_forall₂ {Item : Type*} {written : Item → List Byte} {R : Frame → Item → Prop}
    (same : ∀ frame item, R frame item → bytes frame = written item) {frames : List Frame}
    {items : List Item} (related : List.Forall₂ R frames items) (count : Nat) :
    stream bytes frames = stream written items ∧
      List.Forall₂ R (within bytes frames count) (within written items count) := by
  induction related generalizing count with
  | nil => exact ⟨rfl, .nil⟩
  | @cons frame item frames items head tail ih =>
      have equal := same frame item head
      refine ⟨?_, ?_⟩
      · rw [stream_cons, stream_cons, equal, (ih 0).1]
      · rw [within, within, equal]
        split
        · exact .cons head (ih _).2
        · exact .nil

theorem exists_forall₂ {Item : Type*} {R : Frame → Item → Prop} {items : List Item}
    (each : ∀ item ∈ items, ∃ frame, R frame item) : ∃ frames, List.Forall₂ R frames items := by
  induction items with
  | nil => exact ⟨[], .nil⟩
  | cons item rest ih =>
      obtain ⟨frame, first⟩ := each item (List.mem_cons_self ..)
      obtain ⟨frames, others⟩ := ih fun other member => each other (List.mem_cons_of_mem _ member)
      exact ⟨frame :: frames, .cons first others⟩

/-- The bytes at the start of a stream are some whole frames and a part of the next one. -/
theorem exists_split {frames : List Frame} {data : List Byte}
    (part : data <+: stream bytes frames) :
    ∃ whole later held, frames = whole ++ later ∧ data = stream bytes whole ++ held ∧
      (∀ frame rest, later = frame :: rest → held.length < (bytes frame).length) ∧
      held <+: stream bytes later := by
  induction frames generalizing data with
  | nil =>
      refine ⟨[], [], [], rfl, List.prefix_nil.mp part, ?_, List.prefix_refl _⟩
      intro frame rest impossible
      cases impossible
  | cons frame rest ih =>
      by_cases enough : (bytes frame).length ≤ data.length
      · obtain ⟨more, rfl⟩ : bytes frame <+: data :=
          List.prefix_of_prefix_length_le (List.prefix_append _ _) part enough
        obtain ⟨whole, later, held, rfl, rfl, short, next⟩ :=
          ih ((List.prefix_append_right_inj _).mp part)
        refine ⟨frame :: whole, later, held, rfl, ?_, short, next⟩
        rw [stream_cons, List.append_assoc]
      · refine ⟨[], frame :: rest, data, rfl, rfl, ?_, part⟩
        intro first others same
        cases same
        exact Nat.lt_of_not_le enough

/--
A receiver of the stream of `frames` that has been given the bytes `received`
has all of `finished` and holds `held` of the first frame of `pending`.
-/
structure Progress (frames finished pending : List Frame) (received held : List Byte) : Prop where
  frames_eq : frames = finished ++ pending
  received_eq : received = stream bytes finished ++ held
  held_short : ∀ frame rest, pending = frame :: rest → held.length < (bytes frame).length
  held_prefix : held <+: stream bytes pending

namespace Progress

variable {bytes} {frames finished pending : List Frame} {received held chunk : List Byte}

theorem start (frames : List Frame) (nonempty : ∀ frame ∈ frames, bytes frame ≠ []) :
    Progress bytes frames [] frames [] [] where
  frames_eq := rfl
  received_eq := rfl
  held_short := by
    rintro frame rest rfl
    exact List.length_pos_of_ne_nil (nonempty frame (List.mem_cons_self ..))
  held_prefix := List.nil_prefix

/-- The finished frames are exactly those that lie whole in the bytes received. -/
theorem within_received (progress : Progress bytes frames finished pending received held) :
    within bytes frames received.length = finished := by
  rw [progress.frames_eq, progress.received_eq, List.length_append]
  exact within_finished bytes finished pending held.length progress.held_short

theorem chunk_prefix (progress : Progress bytes frames finished pending received held)
    (arrived : received ++ chunk <+: stream bytes frames) :
    held ++ chunk <+: stream bytes pending := by
  rw [progress.frames_eq, progress.received_eq, stream_append, List.append_assoc] at arrived
  exact (List.prefix_append_right_inj _).mp arrived

/-- Bytes arrive only while a frame is pending. -/
theorem exists_pending (progress : Progress bytes frames finished pending received held)
    (arrived : received ++ chunk <+: stream bytes frames) (nonempty : chunk ≠ []) :
    ∃ frame rest, pending = frame :: rest := by
  cases pending with
  | cons frame rest => exact ⟨frame, rest, rfl⟩
  | nil =>
      have empty := List.prefix_nil.mp (progress.chunk_prefix arrived)
      exact absurd (List.append_eq_nil_iff.mp empty).2 nonempty

/-- A chunk that ends the pending frame. -/
theorem finish {frame : Frame} {rest : List Frame}
    (progress : Progress bytes frames finished (frame :: rest) received held)
    (whole : held ++ chunk = bytes frame) (nonempty : ∀ next ∈ rest, bytes next ≠ []) :
    Progress bytes frames (finished ++ [frame]) rest (received ++ chunk) [] where
  frames_eq := by rw [progress.frames_eq, List.append_assoc, List.singleton_append]
  received_eq := by
    rw [progress.received_eq, List.append_assoc, whole, stream_append, stream_cons, stream_nil,
      List.append_nil, List.append_nil]
  held_short := by
    rintro next later rfl
    exact List.length_pos_of_ne_nil (nonempty next (List.mem_cons_self ..))
  held_prefix := List.nil_prefix

/-- A chunk that leaves the pending frame unfinished. -/
theorem extend {frame : Frame} {rest : List Frame}
    (progress : Progress bytes frames finished (frame :: rest) received held)
    (part : held ++ chunk <+: bytes frame) (short : (held ++ chunk).length < (bytes frame).length) :
    Progress bytes frames finished (frame :: rest) (received ++ chunk) (held ++ chunk) where
  frames_eq := progress.frames_eq
  received_eq := by rw [progress.received_eq, List.append_assoc]
  held_short := by
    rintro next later same
    cases same
    exact short
  held_prefix := part.trans (List.prefix_append _ _)

/-- A chunk that ends any number of pending frames. -/
theorem advance {whole later : List Frame} {more : List Byte}
    (progress : Progress bytes frames finished (whole ++ later) received held)
    (arrived : held ++ chunk = stream bytes whole ++ more)
    (short : ∀ frame rest, later = frame :: rest → more.length < (bytes frame).length)
    (part : more <+: stream bytes later) :
    Progress bytes frames (finished ++ whole) later (received ++ chunk) more where
  frames_eq := by rw [progress.frames_eq, List.append_assoc]
  received_eq := by
    rw [progress.received_eq, List.append_assoc, arrived, stream_append, List.append_assoc]
  held_short := short
  held_prefix := part

end Progress

end Nise.Lib.Frames
