import Mathlib.Algebra.Order.Field.Rat
import Mathlib.Analysis.Normed.Field.Lemmas
import Mathlib.Analysis.Normed.Group.AddTorsor
import Mathlib.Data.List.TakeWhile
import Mathlib.LinearAlgebra.AffineSpace.AffineMap
import Mathlib.Tactic.Linarith

/-!
# Ephemeris arrays

The rows of an ephemeris are positions at increasing times.  `get` keeps a cursor, which its loop
moves on to the first row that is not before the given time.  The row before that one is known only
if the loop has just passed it.
-/

namespace Nise.RubyModels

structure EphemerisRow where
  t : ℚ
  x : ℚ
  y : ℚ
  z : ℚ
  deriving DecidableEq, Repr

structure EphemerisArray where
  data : List EphemerisRow
  currIndex : Option Nat
  nextIndex : Nat
  lastIndex : Int
  deriving DecidableEq, Repr

/-- How `get` may end without a result. -/
inductive EphemerisError where
  | parameterInThePast
  | beyondLastIndex
  | noMethod
  deriving DecidableEq, Repr

namespace EphemerisArray

def new (anArray : List EphemerisRow) : EphemerisArray where
  data := anArray
  currIndex := none
  nextIndex := 0
  lastIndex := anArray.length - 1

def now (ephemeris : EphemerisArray) : Option EphemerisRow :=
  ephemeris.currIndex.bind fun index => ephemeris.data[index]?

/-- The next row; behind the last index it raises. -/
def succ (ephemeris : EphemerisArray) : Option (Option EphemerisRow × EphemerisArray) :=
  if ephemeris.lastIndex < ephemeris.nextIndex then none
  else some (ephemeris.data[ephemeris.nextIndex]?,
    { ephemeris with
      currIndex := some ephemeris.nextIndex
      nextIndex := ephemeris.nextIndex + 1 })

/-- The loop of `get`, over the rows from the next one on, and the rows `b` and `a` behind it.
Behind the last row there is nothing to compare with. -/
def seek (aTime : ℚ) : List EphemerisRow → EphemerisArray → Option EphemerisRow →
    EphemerisArray × Except EphemerisError (Option EphemerisRow × EphemerisRow)
  | [], ephemeris, _ => (ephemeris, .error .noMethod)
  | a :: rest, ephemeris, b =>
      if a.t < aTime then
        match ephemeris.succ with
        | none => (ephemeris, .error .beyondLastIndex)
        | some (row, after) => seek aTime rest after row
      else (ephemeris, .ok (b, a))

/-- The position at a time, in proportion to the times of two rows. -/
def interpolate (b a : EphemerisRow) (aTime : ℚ) : EphemerisRow :=
  let dt := a.t - b.t
  let ot := aTime - b.t
  let tr := ot / dt
  { t := aTime
    x := b.x + tr * (a.x - b.x)
    y := b.y + tr * (a.y - b.y)
    z := b.z + tr * (a.z - b.z) }

/-- `get`, and what it leaves.  Only the loop is within the `rescue`, and only for a missing
row. -/
def get (ephemeris : EphemerisArray) (aTime : ℚ) :
    EphemerisArray × Except EphemerisError (Option EphemerisRow) :=
  let index := ephemeris.currIndex.getD ephemeris.nextIndex
  match ephemeris.data[index]? with
  | none => (ephemeris, .error .noMethod)
  | some row =>
      if aTime < row.t then (ephemeris, .error .parameterInThePast)
      else
        let started := { ephemeris with currIndex := some index }
        match seek aTime (ephemeris.data.drop ephemeris.nextIndex) started none with
        | (after, .error .noMethod) => (after, .ok after.now)
        | (after, .error error) => (after, .error error)
        | (after, .ok (none, _)) => (after, .error .noMethod)
        | (after, .ok (some b, a)) => (after, .ok (some (interpolate b a aTime)))

/-- What a sequence of queries returns. -/
def answers : EphemerisArray → List ℚ → List (Except EphemerisError (Option EphemerisRow))
  | _, [] => []
  | ephemeris, aTime :: later =>
      (ephemeris.get aTime).2 :: answers (ephemeris.get aTime).1 later

end EphemerisArray

/-! ## Positions between rows -/

namespace EphemerisRow

/-- The position between two rows. -/
def between (before after : EphemerisRow) (time : ℚ) : EphemerisRow where
  t := time
  x := AffineMap.lineMap before.x after.x ((time - before.t) / (after.t - before.t))
  y := AffineMap.lineMap before.y after.y ((time - before.t) / (after.t - before.t))
  z := AffineMap.lineMap before.z after.z ((time - before.t) / (after.t - before.t))

theorem interpolate_eq (before after : EphemerisRow) (time : ℚ) :
    EphemerisArray.interpolate before after time = between before after time := by
  unfold EphemerisArray.interpolate between
  simp only [AffineMap.lineMap_apply_ring', add_comm]

theorem between_after {before after : EphemerisRow} (apart : before.t < after.t) :
    between before after after.t = after := by
  have whole : (after.t - before.t) / (after.t - before.t) = 1 :=
    div_self (sub_ne_zero.mpr apart.ne')
  unfold between
  rw [whole]
  simp only [AffineMap.lineMap_apply_one]

end EphemerisRow

/-- The times of the rows are in strictly increasing order. -/
def Increasing (rows : List EphemerisRow) : Prop :=
  rows.Pairwise fun before after => before.t < after.t

instance (rows : List EphemerisRow) : Decidable (Increasing rows) :=
  inferInstanceAs (Decidable (List.Pairwise _ rows))

/-- The row for a time: the last one for a later time, a row at its own time, and what is between
two neighbours for a time between theirs. -/
structure RowAt (rows : List EphemerisRow) (time : ℚ) (row : EphemerisRow) : Prop where
  last : (∀ other ∈ rows, other.t < time) → rows.getLast? = some row
  same : ∀ other ∈ rows, other.t = time → row = other
  between : ∀ before after, [before, after] <:+: rows → before.t < time → time < after.t →
    row = before.between after time

/-- A query returns the row for its time. -/
def Answers (rows : List EphemerisRow) (time : ℚ)
    (answer : Except EphemerisError (Option EphemerisRow)) : Prop :=
  ∃ row, answer = .ok (some row) ∧ RowAt rows time row

/-- Since the time of the previous query, if there was one, a row has been passed, or that query
was behind the last row already. -/
def Advances (rows : List EphemerisRow) (previous : Option ℚ) (time : ℚ) : Prop :=
  (∃ row ∈ rows, (∀ past ∈ previous, past ≤ row.t) ∧ row.t < time) ∨
    ∃ past ∈ previous, ∀ row ∈ rows, row.t < past

/-- Every one of the queries advances. -/
def AllAdvance (rows : List EphemerisRow) : Option ℚ → List ℚ → Prop
  | _, [] => True
  | previous, time :: later => Advances rows previous time ∧ AllAdvance rows (some time) later

/-! ## Rows before a time -/

section Rows

variable {rows : List EphemerisRow}

def isBefore (time : ℚ) (row : EphemerisRow) : Bool := row.t < time

@[simp] theorem isBefore_iff {time : ℚ} {row : EphemerisRow} :
    isBefore time row = true ↔ row.t < time := decide_eq_true_iff

/-- The rows that are earlier than the previous query. -/
def passed (rows : List EphemerisRow) : Option ℚ → List EphemerisRow
  | none => []
  | some past => rows.takeWhile (isBefore past)

/-- The other rows. -/
def ahead (rows : List EphemerisRow) : Option ℚ → List EphemerisRow
  | none => rows
  | some past => rows.dropWhile (isBefore past)

theorem passed_append_ahead (rows : List EphemerisRow) (previous : Option ℚ) :
    passed rows previous ++ ahead rows previous = rows := by
  cases previous with
  | none => rfl
  | some past => exact List.takeWhile_append_dropWhile

theorem lt_of_mem_passed {past : ℚ} {row : EphemerisRow} (member : row ∈ passed rows (some past)) :
    row.t < past :=
  isBefore_iff.mp (List.mem_takeWhile_imp member)

theorem Increasing.le_of_mem_ahead (increasing : Increasing rows) {past : ℚ} {row : EphemerisRow}
    (member : row ∈ ahead rows (some past)) : past ≤ row.t := by
  change row ∈ rows.dropWhile (isBefore past) at member
  induction rows with
  | nil => cases member
  | cons first rest ih =>
      obtain ⟨earlier, later⟩ := List.pairwise_cons.mp increasing
      by_cases before : first.t < past
      · rw [List.dropWhile_cons_of_pos (isBefore_iff.mpr before)] at member
        exact ih later member
      · rw [List.dropWhile_cons_of_neg (mt isBefore_iff.mp before)] at member
        have first_le := not_lt.mp before
        rcases List.mem_cons.mp member with rfl | behind
        · exact first_le
        · exact first_le.trans (earlier row behind).le

/-- A row that is not earlier than the previous query is ahead. -/
theorem mem_ahead {previous : Option ℚ} {row : EphemerisRow} (member : row ∈ rows)
    (late : ∀ past ∈ previous, past ≤ row.t) : row ∈ ahead rows previous := by
  cases previous with
  | none => exact member
  | some past =>
      rw [← passed_append_ahead rows (some past)] at member
      refine (List.mem_append.mp member).resolve_left fun early => ?_
      exact absurd (lt_of_mem_passed early) (not_lt.mpr (late past rfl))

/-- The next query passes the first rows of those ahead. -/
theorem passed_some {previous : Option ℚ} {time : ℚ} (monotone : ∀ past ∈ previous, past ≤ time) :
    passed rows (some time) =
      passed rows previous ++ (ahead rows previous).takeWhile (isBefore time) := by
  have early : ∀ row ∈ passed rows previous, isBefore time row = true := by
    intro row member
    cases previous with
    | none => cases member
    | some past => exact isBefore_iff.mpr ((lt_of_mem_passed member).trans_le (monotone past rfl))
  rw [← List.takeWhile_append_of_pos early, passed_append_ahead]
  rfl

theorem ahead_some {previous : Option ℚ} {time : ℚ} (monotone : ∀ past ∈ previous, past ≤ time) :
    ahead rows (some time) = (ahead rows previous).dropWhile (isBefore time) := by
  have parts := passed_append_ahead rows (some time)
  rw [passed_some monotone, List.append_assoc] at parts
  have whole := parts.trans (passed_append_ahead rows previous).symm
  have rest := List.append_cancel_left whole
  have split := List.takeWhile_append_dropWhile (p := isBefore time) (l := ahead rows previous)
  exact List.append_cancel_left (rest.trans split.symm)

/-- Nothing is between two neighbours. -/
theorem Increasing.eq_of_neighbours (increasing : Increasing rows) {before after : EphemerisRow}
    (neighbours : [before, after] <:+: rows) {row : EphemerisRow} (member : row ∈ rows) :
    (row.t < after.t → row.t ≤ before.t) ∧ (before.t < row.t → after.t ≤ row.t) := by
  obtain ⟨front, back, rfl⟩ := neighbours
  unfold Increasing at increasing
  rw [List.append_assoc, List.pairwise_append] at increasing
  obtain ⟨-, behind, across⟩ := increasing
  obtain ⟨first, second⟩ := List.pairwise_cons.mp behind
  obtain ⟨second, -⟩ := List.pairwise_cons.mp second
  rw [List.append_assoc, List.mem_append] at member
  rcases member with early | late
  · have less := across row early before (List.mem_cons_self ..)
    exact ⟨fun _ => less.le, fun greater => absurd greater less.not_gt⟩
  · rcases List.mem_cons.mp late with rfl | later
    · exact ⟨fun _ => le_rfl, fun greater => absurd greater (lt_irrefl _)⟩
    · rcases List.mem_cons.mp later with rfl | last
      · exact ⟨fun less => absurd less (lt_irrefl _), fun _ => le_rfl⟩
      · have greater := second row last
        exact ⟨fun less => absurd less greater.not_gt, fun _ => greater.le⟩

/-- Rows at one time are the same. -/
theorem Increasing.eq_of_t_eq (increasing : Increasing rows) {first second : EphemerisRow}
    (here : first ∈ rows) (there : second ∈ rows) (same : first.t = second.t) :
    first = second := by
  have distinct : (rows.map EphemerisRow.t).Nodup :=
    List.Pairwise.map EphemerisRow.t (fun _ _ less => less.ne) increasing
  exact List.inj_on_of_nodup_map distinct here there same

end Rows

/-! ## One query -/

namespace EphemerisArray

variable {rows : List EphemerisRow}

/-- The cursor behind a loop that has passed some rows. -/
def moved (ephemeris : EphemerisArray) (skipped : List EphemerisRow) : EphemerisArray :=
  if skipped = [] then ephemeris
  else { ephemeris with
    currIndex := some (ephemeris.nextIndex + skipped.length - 1)
    nextIndex := ephemeris.nextIndex + skipped.length }

theorem succ_eq {ephemeris : EphemerisArray} {a : EphemerisRow} {rest : List EphemerisRow}
    (remaining : ephemeris.data.drop ephemeris.nextIndex = a :: rest)
    (last : ephemeris.lastIndex = ephemeris.data.length - 1) :
    ephemeris.succ = some (some a, ephemeris.moved [a]) := by
  have row : ephemeris.data[ephemeris.nextIndex]? = some a := by
    have head := congrArg List.head? remaining
    rwa [List.head?_drop, List.head?_cons] at head
  obtain ⟨inside, -⟩ := List.getElem?_eq_some_iff.mp row
  unfold succ
  rw [if_neg (by omega), row]
  rfl

theorem moved_moved (ephemeris : EphemerisArray) (a : EphemerisRow) (skipped : List EphemerisRow) :
    (ephemeris.moved [a]).moved skipped = ephemeris.moved (a :: skipped) := by
  unfold moved
  rw [if_neg (List.cons_ne_nil a []), if_neg (List.cons_ne_nil a skipped)]
  split
  · next none => rw [none]
  · have longer : ephemeris.nextIndex + (a :: skipped).length =
        ephemeris.nextIndex + [a].length + skipped.length := by
      rw [List.length_cons, List.length_singleton]
      omega
    rw [longer]

/-- The loop passes the rows that are before the time. -/
theorem seek_eq (aTime : ℚ) (b : Option EphemerisRow) {remaining : List EphemerisRow}
    {ephemeris : EphemerisArray} (same : ephemeris.data.drop ephemeris.nextIndex = remaining)
    (last : ephemeris.lastIndex = ephemeris.data.length - 1) :
    seek aTime remaining ephemeris b =
      (ephemeris.moved (remaining.takeWhile (isBefore aTime)),
        match (remaining.dropWhile (isBefore aTime)).head? with
        | none => .error .noMethod
        | some a => .ok ((remaining.takeWhile (isBefore aTime)).getLast?.or b, a)) := by
  induction remaining generalizing ephemeris b with
  | nil => rfl
  | cons a rest ih =>
      rw [seek]
      by_cases before : a.t < aTime
      · have next : (ephemeris.moved [a]).data.drop (ephemeris.moved [a]).nextIndex = rest := by
          have tail := congrArg List.tail same
          rwa [List.tail_drop, List.tail_cons] at tail
        have later := ih (some a) next last
        rw [if_pos before, succ_eq same last]
        dsimp only
        rw [later, List.takeWhile_cons_of_pos (isBefore_iff.mpr before),
          List.dropWhile_cons_of_pos (isBefore_iff.mpr before), moved_moved,
          List.getLast?_cons]
        cases (rest.takeWhile (isBefore aTime)).getLast? with
        | none => rfl
        | some final => rfl
      · rw [if_neg before, List.takeWhile_cons_of_neg (mt isBefore_iff.mp before),
          List.dropWhile_cons_of_neg (mt isBefore_iff.mp before)]
        rfl

/-- The cursor between two queries: on the last row that the previous one has passed, if there is
one, and otherwise at the beginning. -/
structure Cursor (rows : List EphemerisRow) (previous : Option ℚ) (ephemeris : EphemerisArray) :
    Prop where
  data : ephemeris.data = rows
  last : ephemeris.lastIndex = rows.length - 1
  next : ephemeris.nextIndex = (passed rows previous).length
  current : ephemeris.currIndex.getD ephemeris.nextIndex = (passed rows previous).length - 1

theorem cursor_new (rows : List EphemerisRow) : Cursor rows none (new rows) := ⟨rfl, rfl, rfl, rfl⟩

/-- The array behind a query. -/
def settled (rows : List EphemerisRow) (time : ℚ) : EphemerisArray where
  data := rows
  currIndex := some ((passed rows (some time)).length - 1)
  nextIndex := (passed rows (some time)).length
  lastIndex := rows.length - 1

theorem cursor_settled (rows : List EphemerisRow) (time : ℚ) :
    Cursor rows (some time) (settled rows time) := ⟨rfl, rfl, rfl, rfl⟩

/-- What a query returns. -/
def outcome (rows : List EphemerisRow) (previous : Option ℚ) (time : ℚ) :
    Except EphemerisError (Option EphemerisRow) :=
  match (ahead rows (some time)).head? with
  | none => .ok rows.getLast?
  | some a =>
      match ((ahead rows previous).takeWhile (isBefore time)).getLast? with
      | none => .error .noMethod
      | some b => .ok (some (interpolate b a time))

section Query

variable {previous : Option ℚ} {time : ℚ}

/-- The row at the cursor is not later than a query. -/
theorem exists_current (nonempty : rows ≠ []) (first : ∀ row ∈ rows.head?, row.t ≤ time)
    (monotone : ∀ past ∈ previous, past ≤ time) :
    ∃ row, rows[(passed rows previous).length - 1]? = some row ∧ row.t ≤ time := by
  cases final : (passed rows previous).getLast? with
  | none =>
      obtain ⟨row, head⟩ := Option.isSome_iff_exists.mp (List.isSome_head?.mpr nonempty)
      rw [List.getLast?_eq_none_iff.mp final, List.length_nil, Nat.zero_sub,
        ← List.head?_eq_getElem?]
      exact ⟨row, head, first row head⟩
  | some row =>
      have member := List.mem_of_getLast? final
      refine ⟨row, ?_, ?_⟩
      · have inside : (passed rows previous).length - 1 < (passed rows previous).length := by
          have positive := List.length_pos_of_mem member
          omega
        nth_rewrite 1 [← passed_append_ahead rows previous]
        rw [List.getElem?_append_left inside, ← List.getLast?_eq_getElem?, final]
      · cases previous with
        | none => cases member
        | some past => exact (lt_of_mem_passed member).le.trans (monotone past rfl)

/-- The array in a query, before the loop. -/
def started (rows : List EphemerisRow) (previous : Option ℚ) : EphemerisArray where
  data := rows
  currIndex := some ((passed rows previous).length - 1)
  nextIndex := (passed rows previous).length
  lastIndex := rows.length - 1

theorem moved_started (monotone : ∀ past ∈ previous, past ≤ time) :
    (started rows previous).moved ((ahead rows previous).takeWhile (isBefore time)) =
      settled rows time := by
  unfold moved settled started
  rw [passed_some monotone, List.length_append]
  split
  · next none =>
      rw [none]
      rfl
  · rfl

theorem now_settled (all : (ahead rows (some time)).head? = none) :
    (settled rows time).now = rows.getLast? := by
  have parts := passed_append_ahead rows (some time)
  rw [List.head?_eq_none_iff.mp all, List.append_nil] at parts
  unfold now settled
  rw [parts, List.getLast?_eq_getElem?]
  rfl

/-- A query moves the cursor, whatever it returns. -/
theorem Cursor.get_eq {ephemeris : EphemerisArray} (cursor : Cursor rows previous ephemeris)
    (nonempty : rows ≠ []) (first : ∀ row ∈ rows.head?, row.t ≤ time)
    (monotone : ∀ past ∈ previous, past ≤ time) :
    ephemeris.get time = (settled rows time, outcome rows previous time) := by
  obtain ⟨row, found, past⟩ := exists_current nonempty first monotone
  have remaining : rows.drop (passed rows previous).length = ahead rows previous := by
    have parts := passed_append_ahead rows previous
    calc rows.drop (passed rows previous).length
        = (passed rows previous ++ ahead rows previous).drop (passed rows previous).length := by
          rw [parts]
      _ = ahead rows previous := List.drop_left
  have same : (started rows previous).data.drop (started rows previous).nextIndex =
      ahead rows previous := remaining
  have loop := seek_eq time none same rfl
  rw [moved_started monotone, ← ahead_some monotone] at loop
  unfold started at loop
  unfold get
  dsimp only
  rw [cursor.current, cursor.data, cursor.next, cursor.last, found, remaining]
  dsimp only
  rw [if_neg (not_lt.mpr past), loop]
  unfold outcome
  cases final : (ahead rows (some time)).head? with
  | none =>
      dsimp only
      rw [now_settled final]
  | some a =>
      cases ((ahead rows previous).takeWhile (isBefore time)).getLast? with
      | none => rfl
      | some b => rfl

end Query

end EphemerisArray

/-! ## What a query returns -/

section Answers

variable {rows : List EphemerisRow} {previous : Option ℚ} {time : ℚ}

/-- Between two neighbours, the later one included, the interpolated row is the right one. -/
theorem rowAt_between (increasing : Increasing rows) {b a : EphemerisRow}
    (neighbours : [b, a] <:+: rows) (after : b.t < time) (before : time ≤ a.t) :
    RowAt rows time (b.between a time) := by
  have b_mem : b ∈ rows := neighbours.subset (List.mem_cons_self ..)
  have a_mem : a ∈ rows := neighbours.subset (List.mem_cons_of_mem _ (List.mem_singleton_self a))
  refine ⟨?_, ?_, ?_⟩
  · intro all
    exact absurd (all a a_mem) (not_lt.mpr before)
  · rintro other member rfl
    have late := (increasing.eq_of_neighbours neighbours member).2 after
    obtain rfl := increasing.eq_of_t_eq member a_mem (le_antisymm before late)
    exact EphemerisRow.between_after after
  · intro first second others earlier later
    have first_mem : first ∈ rows := others.subset (List.mem_cons_self ..)
    have second_mem : second ∈ rows :=
      others.subset (List.mem_cons_of_mem _ (List.mem_singleton_self second))
    have first_le := (increasing.eq_of_neighbours neighbours first_mem).1 (earlier.trans_le before)
    have le_first := (increasing.eq_of_neighbours others b_mem).1 (after.trans later)
    have le_second := (increasing.eq_of_neighbours neighbours second_mem).2 (after.trans later)
    have second_le := (increasing.eq_of_neighbours others a_mem).2 (earlier.trans_le before)
    rw [increasing.eq_of_t_eq first_mem b_mem (le_antisymm first_le le_first),
      increasing.eq_of_t_eq second_mem a_mem (le_antisymm second_le le_second)]

theorem rowAt_last {row : EphemerisRow} (all : ∀ other ∈ rows, other.t < time)
    (final : rows.getLast? = some row) : RowAt rows time row := by
  refine ⟨fun _ => final, ?_, ?_⟩
  · intro other member same
    exact absurd same (all other member).ne
  · intro before after neighbours _ later
    have member : after ∈ rows :=
      neighbours.subset (List.mem_cons_of_mem _ (List.mem_singleton_self after))
    exact absurd later (all after member).not_gt

theorem mem_rows_of_ahead {row : EphemerisRow} (member : row ∈ ahead rows previous) :
    row ∈ rows := by
  rw [← passed_append_ahead rows previous]
  exact List.mem_append_right _ member

/-- The loop passes a row exactly if one is between the previous query and this one. -/
theorem skips_iff (increasing : Increasing rows) (monotone : ∀ past ∈ previous, past ≤ time) :
    (ahead rows previous).takeWhile (isBefore time) ≠ [] ↔
      ∃ row ∈ rows, (∀ past ∈ previous, past ≤ row.t) ∧ row.t < time := by
  constructor
  · intro skips
    obtain ⟨row, member⟩ := List.exists_mem_of_ne_nil _ skips
    have there : row ∈ ahead rows previous := (List.takeWhile_prefix _).subset member
    refine ⟨row, mem_rows_of_ahead there, ?_, isBefore_iff.mp (List.mem_takeWhile_imp member)⟩
    rintro past rfl
    exact increasing.le_of_mem_ahead there
  · rintro ⟨row, member, late, early⟩ none
    have there : row ∈ ahead rows previous := mem_ahead member late
    rw [← List.takeWhile_append_dropWhile (p := isBefore time) (l := ahead rows previous), none,
      List.nil_append, ← ahead_some monotone] at there
    exact absurd early (not_lt.mpr (increasing.le_of_mem_ahead there))

/-- A query behind the last row passes a row, unless the one before was there already. -/
theorem advances_of_beyond (increasing : Increasing rows) (nonempty : rows ≠ [])
    (monotone : ∀ past ∈ previous, past ≤ time) (beyond : ahead rows (some time) = []) :
    Advances rows previous time := by
  by_cases skipped : (ahead rows previous).takeWhile (isBefore time) = []
  · have empty : ahead rows previous = [] := by
      rw [← List.takeWhile_append_dropWhile (p := isBefore time) (l := ahead rows previous),
        skipped, List.nil_append, ← ahead_some monotone, beyond]
    have whole := passed_append_ahead rows previous
    rw [empty, List.append_nil] at whole
    cases previous with
    | none => exact absurd whole.symm nonempty
    | some past =>
        refine Or.inr ⟨past, rfl, fun row member => ?_⟩
        rw [← whole] at member
        exact lt_of_mem_passed member
  · exact Or.inl ((skips_iff increasing monotone).mp skipped)

/-- The last row the loop passes and the first one it leaves are neighbours. -/
theorem neighbours_of_skipped (monotone : ∀ past ∈ previous, past ≤ time) {b a : EphemerisRow}
    (final : ((ahead rows previous).takeWhile (isBefore time)).getLast? = some b)
    (next : (ahead rows (some time)).head? = some a) : [b, a] <:+: rows := by
  have parts := passed_append_ahead rows (some time)
  obtain ⟨front, skipped⟩ := List.getLast?_eq_some_iff.mp final
  obtain ⟨back, rest⟩ := List.head?_eq_some_iff.mp next
  rw [passed_some monotone, skipped, rest] at parts
  have joined : passed rows previous ++ front ++ [b, a] ++ back =
      passed rows previous ++ (front ++ [b]) ++ a :: back := by
    simp only [List.append_assoc, List.cons_append, List.nil_append]
  exact ⟨_, back, joined.trans parts⟩

/-- A query returns the row for its time exactly if it advances. -/
theorem answers_outcome_iff (increasing : Increasing rows) (nonempty : rows ≠ [])
    (monotone : ∀ past ∈ previous, past ≤ time) :
    Answers rows time (EphemerisArray.outcome rows previous time) ↔
      Advances rows previous time := by
  have skips := skips_iff increasing monotone
  unfold EphemerisArray.outcome
  cases next : (ahead rows (some time)).head? with
  | none =>
      have beyond := List.head?_eq_none_iff.mp next
      have all : ∀ row ∈ rows, row.t < time := by
        intro row member
        rw [← passed_append_ahead rows (some time), beyond, List.append_nil] at member
        exact lt_of_mem_passed member
      have final := List.getLast?_eq_some_getLast nonempty
      exact iff_of_true ⟨_, congrArg Except.ok final, rowAt_last all final⟩
        (advances_of_beyond increasing nonempty monotone beyond)
  | some a =>
      have a_ahead : a ∈ ahead rows (some time) := List.mem_of_head? next
      have late := increasing.le_of_mem_ahead a_ahead
      dsimp only
      cases final : ((ahead rows previous).takeWhile (isBefore time)).getLast? with
      | none =>
          refine iff_of_false ?_ ?_
          · rintro ⟨row, failed, -⟩
            cases failed
          · rintro (passes | ⟨past, given, all⟩)
            · exact skips.mpr passes (List.getLast?_eq_none_iff.mp final)
            · have early := all a (mem_rows_of_ahead a_ahead)
              exact absurd (early.trans_le (monotone past given)) (not_lt.mpr late)
      | some b =>
          have member := List.mem_of_getLast? final
          have early : b.t < time := isBefore_iff.mp (List.mem_takeWhile_imp member)
          have neighbours := neighbours_of_skipped monotone final next
          refine iff_of_true ⟨_, rfl, ?_⟩ ?_
          · rw [EphemerisRow.interpolate_eq]
            exact rowAt_between increasing neighbours early late
          · exact Or.inl (skips.mp (List.ne_nil_of_mem member))

/-! ## All queries -/

theorem answers_cursor_iff (increasing : Increasing rows) (nonempty : rows ≠ [])
    {times : List ℚ} {ephemeris : EphemerisArray}
    (cursor : EphemerisArray.Cursor rows previous ephemeris)
    (first : ∀ row ∈ rows.head?, ∀ time ∈ times, row.t ≤ time)
    (monotone : ∀ past ∈ previous, ∀ time ∈ times, past ≤ time)
    (ordered : times.Pairwise (· ≤ ·)) :
    List.Forall₂ (Answers rows) times (ephemeris.answers times) ↔
      AllAdvance rows previous times := by
  induction times generalizing previous ephemeris with
  | nil => exact iff_of_true .nil trivial
  | cons time later ih =>
      obtain ⟨before, rest⟩ := List.pairwise_cons.mp ordered
      have query := cursor.get_eq nonempty
        (fun row head => first row head time (List.mem_cons_self ..))
        (fun past given => monotone past given time (List.mem_cons_self ..))
      have others := ih (EphemerisArray.cursor_settled rows time)
        (fun row head other member => first row head other (List.mem_cons_of_mem _ member))
        (by rintro past ⟨⟩; exact before) rest
      rw [EphemerisArray.answers, query, List.forall₂_cons, others, answers_outcome_iff increasing
        nonempty fun past given => monotone past given time (List.mem_cons_self ..)]
      rfl

end Answers

/-- Queries at times that do not decrease return the rows for their times exactly if each of them
has passed a row since the one before it, or follows one behind the last row. -/
theorem ephemeris_answers_iff (rows : List EphemerisRow) (several : 2 ≤ rows.length)
    (increasing : Increasing rows) (times : List ℚ) (ordered : times.Pairwise (· ≤ ·))
    (first : ∀ row ∈ rows.head?, ∀ time ∈ times, row.t ≤ time) :
    List.Forall₂ (Answers rows) times ((EphemerisArray.new rows).answers times) ↔
      AllAdvance rows none times := by
  have nonempty : rows ≠ [] := List.ne_nil_of_length_pos (by omega)
  exact answers_cursor_iff increasing nonempty (EphemerisArray.cursor_new rows) first nofun ordered

/-- Three positions. -/
def threeRows : List EphemerisRow := [⟨0, 0, 0, 0⟩, ⟨10, 1, 2, 3⟩, ⟨20, 5, 5, 5⟩]

theorem ephemeris_answers_threeRows :
    List.Forall₂ (Answers threeRows) [5, 20, 30, 40]
      ((EphemerisArray.new threeRows).answers [5, 20, 30, 40]) := by
  refine (ephemeris_answers_iff threeRows (by decide) (by decide) [5, 20, 30, 40] (by decide)
    (by decide)).mpr ?_
  refine ⟨Or.inl ?_, Or.inl ?_, Or.inl ?_, Or.inr ?_, trivial⟩
  · exact ⟨⟨0, 0, 0, 0⟩, by decide, nofun, by decide⟩
  · exact ⟨⟨10, 1, 2, 3⟩, by decide, by decide, by decide⟩
  · exact ⟨⟨20, 5, 5, 5⟩, by decide, by decide, by decide⟩
  · exact ⟨30, rfl, by decide⟩

/-- A second query between the same two rows does not know the row before it. -/
theorem second_query_fails :
    ¬ ∀ (rows : List EphemerisRow) (times : List ℚ), 2 ≤ rows.length → Increasing rows →
      times.Pairwise (· ≤ ·) → (∀ row ∈ rows.head?, ∀ time ∈ times, row.t ≤ time) →
      List.Forall₂ (Answers rows) times ((EphemerisArray.new rows).answers times) := by
  intro right
  have both := right threeRows [5, 6] (by decide) (by decide) (by decide) (by decide)
  have answers : ∃ answer, (EphemerisArray.new threeRows).answers [5, 6] =
      [answer, .error .noMethod] := ⟨_, rfl⟩
  obtain ⟨answer, answers⟩ := answers
  rw [answers] at both
  obtain ⟨-, second⟩ := List.forall₂_cons.mp both
  obtain ⟨⟨row, failed, -⟩, -⟩ := List.forall₂_cons.mp second
  cases failed

end Nise.RubyModels
