import Mathlib.Analysis.Normed.Field.Lemmas
import Mathlib.Topology.Algebra.Order.Field
import Mathlib.Topology.Instances.Rat
import Mathlib.Topology.Order.DenselyOrdered
import Mathlib.Tactic.FieldSimp
import Nise.Lib.Interpolation
import Nise.RubyModels.PkTable

/-!
# Interpolation in a table of kill probabilities

Inside the table the value comes from the four entries around a position.  It is the bilinear
interpolation on two sides of a cell, and off these sides only where both differences along the
range are the same.
-/

namespace Nise.RubyModels

open Nise.Lib

namespace PkTable

variable {Num : Type} [Field Num] [LinearOrder Num]

/-- The size line of the file counts its rows and the entries of each of them. -/
def SizeMatches (table : PkTable Num) : Prop :=
  table.expectedRowSize = some ((table.pk.length - 1 : Nat) : Num) ∧
    ∀ row ∈ table.pk, table.expectedColumnSize = some ((row.length - 1 : Nat) : Num)

/-- The buffers are not counted. -/
def rows (table : PkTable Num) : Nat := table.pk.length - 1

def columns (table : PkTable Num) : Nat := (table.pk.headD []).length - 1

/-- The positions whose indices are those of an entry. -/
def inside (table : PkTable Num) : Set (Num × Num) :=
  Set.Ico 0 table.rangeMax ×ˢ Set.Ico 0 table.altitudeMax

/-! ## What has been loaded -/

/-- A table with its buffers, and limits that go with its size. -/
structure Fits (table : PkTable Num) (rows columns : Nat) : Prop where
  rowSize : table.expectedRowSize = some (rows : Num)
  columnSize : table.expectedColumnSize = some (columns : Num)
  rowCount : table.pk.length = rows + 1
  columnCount : ∀ row ∈ table.pk, row.length = columns + 1
  rangeMax : table.rangeMax = rows * table.rangeScale
  altitudeMax : table.altitudeMax = columns * table.altitudeScale

omit [LinearOrder Num] in
/-- A line leaves the rows as they are or puts one with its buffer behind them. -/
theorem readLine_pk {file next : PkFile Num} {aLine : List Char}
    (read : readLine file aLine = some next) :
    next.pk = file.pk ∨ ∃ row : List ℤ, next.pk = file.pk ++ [row ++ [0]] := by
  unfold readLine at read
  dsimp only at read
  split at read
  · cases read
    exact .inl rfl
  · split at read
    · cases read
    · split at read
      · cases read
        exact .inl rfl
      · split at read
        · cases read
          exact .inl rfl
        · split at read
          · cases read
            exact .inl rfl
          · cases read
            exact .inr ⟨_, rfl⟩

omit [LinearOrder Num] in
theorem readLines_pk (lines : List (List Char)) {file last : PkFile Num}
    (read : lines.foldlM readLine file = some last)
    (buffered : ∀ row ∈ file.pk, row ≠ []) : ∀ row ∈ last.pk, row ≠ [] := by
  induction lines generalizing file with
  | nil =>
      cases read
      exact buffered
  | cons line rest ih =>
      rw [List.foldlM_cons] at read
      obtain ⟨next, first, after⟩ := Option.bind_eq_some_iff.mp read
      apply ih after
      rcases readLine_pk first with same | ⟨row, longer⟩
      · rwa [same]
      · rw [longer]
        intro other member
        rcases List.mem_append.mp member with old | new
        · exact buffered other old
        · rw [List.mem_singleton.mp new]
          exact List.append_ne_nil_of_right_ne_nil _ (List.cons_ne_nil _ _)

variable [IsStrictOrderedRing Num]

theorem exists_fits {lines : List (List Char)} {table : PkTable Num}
    (loaded : load lines = some table) (sized : table.SizeMatches) :
    ∃ rows columns, table.Fits rows columns := by
  obtain ⟨file, read, finished⟩ := Option.bind_eq_some_iff.mp loaded
  have buffered := readLines_pk lines read fun _ none => absurd none List.not_mem_nil
  obtain ⟨first, firstRow, finished⟩ := Option.bind_eq_some_iff.mp finished
  obtain ⟨rangeScale, _, finished⟩ := Option.bind_eq_some_iff.mp finished
  obtain ⟨altitudeScale, _, finished⟩ := Option.bind_eq_some_iff.mp finished
  cases finished
  obtain ⟨rowSize, columnSize⟩ := sized
  have firstMem : first ∈ file.pk ++ [List.replicate (first.length - 1 + 1) 0] :=
    List.mem_append_left _ (List.mem_of_mem_head? firstRow)
  refine ⟨file.pk.length, first.length - 1, ?_⟩
  constructor
  · simpa using rowSize
  · exact columnSize first firstMem
  · exact List.length_append
  · intro row member
    rcases List.mem_append.mp member with old | buffer
    · -- The columns are counted by the size line, the buffer behind them comes on top.
      have same := (columnSize row member).symm.trans (columnSize first firstMem)
      have counts : row.length - 1 = first.length - 1 :=
        Nat.cast_injective (Option.some_inj.mp same)
      have := List.length_pos_iff.mpr (buffered row old)
      omega
    · rw [List.mem_singleton.mp buffer, List.length_replicate]
  · rfl
  · rfl

theorem load_fits {lines : List (List Char)} {table : PkTable Num}
    (loaded : load lines = some table) (sized : table.SizeMatches) :
    table.Fits table.rows table.columns := by
  obtain ⟨rows, columns, fits⟩ := exists_fits loaded sized
  have rowsEq : table.rows = rows := by
    unfold PkTable.rows
    rw [fits.rowCount, Nat.add_sub_cancel]
  have columnsEq : table.columns = columns := by
    have count := fits.columnCount (table.pk.headD [])
    have some := fits.rowCount
    unfold PkTable.columns
    cases pk : table.pk with
    | nil =>
        rw [pk] at some
        cases some
    | cons first rest =>
        rw [pk] at count
        rw [count List.mem_cons_self, Nat.add_sub_cancel]
  rwa [rowsEq, columnsEq]

/-! ## The cells -/

section Cells

omit [IsStrictOrderedRing Num]

variable (table : PkTable Num) (rangeIndex altitudeIndex : Nat)

/-- The positions with these two indices. -/
def cell : Set (Num × Num) :=
  Set.Ico (rangeIndex * table.rangeScale) ((rangeIndex + 1) * table.rangeScale) ×ˢ
    Set.Ico (altitudeIndex * table.altitudeScale) ((altitudeIndex + 1) * table.altitudeScale)

/-- A cell with its borders. -/
def closedCell : Set (Num × Num) :=
  Set.Icc (rangeIndex * table.rangeScale) ((rangeIndex + 1) * table.rangeScale) ×ˢ
    Set.Icc (altitudeIndex * table.altitudeScale) ((altitudeIndex + 1) * table.altitudeScale)

def corner : Num := ((table.entry rangeIndex altitudeIndex).getD 0 : ℤ)

/-- How far a range is in a cell, in cells. -/
def across (range : Num) : Num :=
  (range - rangeIndex * table.rangeScale) / table.rangeScale

def along (altitude : Num) : Num :=
  (altitude - altitudeIndex * table.altitudeScale) / table.altitudeScale

def bilinearIn (position : Num × Num) : Num :=
  Interpolation.bilinear (table.corner rangeIndex altitudeIndex)
    (table.corner rangeIndex (altitudeIndex + 1)) (table.corner (rangeIndex + 1) altitudeIndex)
    (table.corner (rangeIndex + 1) (altitudeIndex + 1)) (table.across rangeIndex position.1)
    (table.along altitudeIndex position.2)

/-- What the code takes instead, the plane through three of the corners. -/
def planeIn (position : Num × Num) : Num :=
  table.corner rangeIndex altitudeIndex +
    (table.corner (rangeIndex + 1) altitudeIndex - table.corner rangeIndex altitudeIndex) *
      table.across rangeIndex position.1 +
    (table.corner rangeIndex (altitudeIndex + 1) - table.corner rangeIndex altitudeIndex) *
      table.along altitudeIndex position.2

/-- The differences along the range on both sides of a cell are the same. -/
def EvenCell : Prop :=
  table.corner rangeIndex altitudeIndex - table.corner (rangeIndex + 1) altitudeIndex =
    table.corner rangeIndex (altitudeIndex + 1) - table.corner (rangeIndex + 1) (altitudeIndex + 1)

/-- The bilinear interpolation of the entries around a position. -/
def bilinearAt [FloorSemiring Num] (position : Num × Num) : Num :=
  table.bilinearIn ⌊position.1 / table.rangeScale⌋₊ ⌊position.2 / table.altitudeScale⌋₊ position

def leastIn : Num :=
  min
    (min (table.corner rangeIndex altitudeIndex) (table.corner rangeIndex (altitudeIndex + 1)))
    (min (table.corner (rangeIndex + 1) altitudeIndex)
      (table.corner (rangeIndex + 1) (altitudeIndex + 1)))

def greatestIn : Num :=
  max
    (max (table.corner rangeIndex altitudeIndex) (table.corner rangeIndex (altitudeIndex + 1)))
    (max (table.corner (rangeIndex + 1) altitudeIndex)
      (table.corner (rangeIndex + 1) (altitudeIndex + 1)))

/-- What `at` returns, zero where it raises. -/
def valueAt [FloorSemiring Num] (position : Num × Num) : Num :=
  (table.pkAt position.1 position.2).getD 0

/-- What is looked up at a position is interpolated. -/
structure Interpolates [FloorSemiring Num] [TopologicalSpace Num] (position : Num × Num) :
    Prop where
  bilinear : table.pkAt position.1 position.2 = some (table.bilinearAt position)
  between : table.valueAt position ∈
    Set.Icc
      (table.leastIn ⌊position.1 / table.rangeScale⌋₊ ⌊position.2 / table.altitudeScale⌋₊)
      (table.greatestIn ⌊position.1 / table.rangeScale⌋₊ ⌊position.2 / table.altitudeScale⌋₊)
  continuous : ContinuousWithinAt table.valueAt table.inside position

end Cells

section Values

variable {table : PkTable Num} {rangeIndex altitudeIndex rows columns : Nat} {position : Num × Num}

theorem scale_pos_of_mem {index : Nat} {scale value : Num}
    (member : value ∈ Set.Ico (index * scale) ((index + 1) * scale)) : 0 < scale := by
  have := lt_of_le_of_lt member.1 member.2
  linarith

theorem floor_of_mem [FloorSemiring Num] {index : Nat} {scale value : Num}
    (member : value ∈ Set.Ico (index * scale) ((index + 1) * scale)) :
    ⌊value / scale⌋₊ = index := by
  have positive := scale_pos_of_mem member
  have lower : (index : Num) ≤ value / scale := (le_div_iff₀ positive).mpr member.1
  apply (Nat.floor_eq_iff (le_trans (Nat.cast_nonneg index) lower)).mpr
  exact ⟨lower, (div_lt_iff₀ positive).mpr member.2⟩

omit [LinearOrder Num] [IsStrictOrderedRing Num] in
theorem Fits.entry_eq (fits : table.Fits rows columns) (row : rangeIndex < rows + 1)
    (column : altitudeIndex < columns + 1) :
    ∃ value : ℤ, table.entry rangeIndex altitudeIndex = some value ∧
      table.corner rangeIndex altitudeIndex = value := by
  rw [← fits.rowCount] at row
  rw [← fits.columnCount _ (List.getElem_mem row)] at column
  have found : table.entry rangeIndex altitudeIndex = some table.pk[rangeIndex][altitudeIndex] := by
    unfold entry
    rw [List.getElem?_eq_getElem row, Option.bind_some, List.getElem?_eq_getElem column]
  refine ⟨_, found, ?_⟩
  unfold corner
  rw [found, Option.getD_some]

theorem Fits.mem_inside (fits : table.Fits rows columns) (row : rangeIndex < rows)
    (column : altitudeIndex < columns) (member : position ∈ table.cell rangeIndex altitudeIndex) :
    position ∈ table.inside := by
  have below {index count : Nat} {scale value : Num} (fewer : index < count)
      (member : value ∈ Set.Ico (index * scale) ((index + 1) * scale)) :
      value ∈ Set.Ico 0 (count * scale) := by
    have positive := (scale_pos_of_mem member).le
    have next : (index : Num) + 1 ≤ count := by exact_mod_cast fewer
    exact ⟨le_trans (mul_nonneg (Nat.cast_nonneg index) positive) member.1,
      lt_of_lt_of_le member.2 (mul_le_mul_of_nonneg_right next positive)⟩
  unfold inside
  rw [fits.rangeMax, fits.altitudeMax]
  exact ⟨below row member.1, below column member.2⟩

/-- In each cell `at` returns the value of the plane. -/
theorem Fits.pkAt_eq [FloorSemiring Num] (fits : table.Fits rows columns)
    (row : rangeIndex < rows) (column : altitudeIndex < columns)
    (member : position ∈ table.cell rangeIndex altitudeIndex) :
    table.pkAt position.1 position.2 = some (table.planeIn rangeIndex altitudeIndex position) := by
  obtain ⟨rangeInside, altitudeInside⟩ := fits.mem_inside row column member
  obtain ⟨inRange, inAltitude⟩ := member
  obtain ⟨a, aEntry, aCorner⟩ := fits.entry_eq (by omega : rangeIndex < rows + 1)
    (by omega : altitudeIndex < columns + 1)
  obtain ⟨b, bEntry, bCorner⟩ := fits.entry_eq (by omega : rangeIndex < rows + 1)
    (by omega : altitudeIndex + 1 < columns + 1)
  obtain ⟨c, cEntry, cCorner⟩ := fits.entry_eq (by omega : rangeIndex + 1 < rows + 1)
    (by omega : altitudeIndex < columns + 1)
  obtain ⟨d, dEntry, _⟩ := fits.entry_eq (by omega : rangeIndex + 1 < rows + 1)
    (by omega : altitudeIndex + 1 < columns + 1)
  have fewer : ¬ ((rows : Num) ≤ rangeIndex ∨ (columns : Num) ≤ altitudeIndex) := by
    rw [not_or, Nat.cast_le, Nat.cast_le, not_le, not_le]
    exact ⟨row, column⟩
  unfold pkAt
  rw [if_neg (not_or.mpr ⟨rangeInside.2.not_gt, altitudeInside.2.not_gt⟩),
    if_neg (not_or.mpr ⟨rangeInside.1.not_gt, altitudeInside.1.not_gt⟩),
    if_neg (not_or.mpr ⟨(scale_pos_of_mem inRange).ne', (scale_pos_of_mem inAltitude).ne'⟩),
    floor_of_mem inRange, floor_of_mem inAltitude, fits.rowSize, fits.columnSize]
  simp only [Option.bind_eq_bind, Option.bind_some, if_neg fewer, aEntry, bEntry, cEntry, dEntry]
  unfold planeIn across along
  rw [aCorner, bCorner, cCorner]
  apply congrArg some
  ring

theorem exists_index [FloorSemiring Num] {count : Nat} {scale value : Num}
    (member : value ∈ Set.Ico 0 (count * scale)) :
    ∃ index : Fin count, value ∈ Set.Ico (index * scale) ((index + 1) * scale) := by
  have positive : 0 < scale :=
    pos_of_mul_pos_right (lt_of_le_of_lt member.1 member.2) (Nat.cast_nonneg count)
  have fewer : ⌊value / scale⌋₊ < count :=
    (Nat.floor_lt (div_nonneg member.1 positive.le)).mpr ((div_lt_iff₀ positive).mpr member.2)
  refine ⟨⟨_, fewer⟩, ?_, ?_⟩
  · exact (le_div_iff₀ positive).mp (Nat.floor_le (div_nonneg member.1 positive.le))
  · exact (div_lt_iff₀ positive).mp (Nat.lt_floor_add_one _)

theorem Fits.inside_eq [FloorSemiring Num] (fits : table.Fits rows columns) :
    table.inside = ⋃ index : Fin rows × Fin columns, table.cell index.1 index.2 := by
  ext position
  rw [Set.mem_iUnion]
  constructor
  · intro member
    unfold inside at member
    rw [fits.rangeMax, fits.altitudeMax] at member
    obtain ⟨row, inRange⟩ := exists_index member.1
    obtain ⟨column, inAltitude⟩ := exists_index member.2
    exact ⟨(row, column), inRange, inAltitude⟩
  · rintro ⟨index, member⟩
    exact fits.mem_inside index.1.isLt index.2.isLt member

theorem bilinearAt_eq [FloorSemiring Num]
    (member : position ∈ table.cell rangeIndex altitudeIndex) :
    table.bilinearAt position = table.bilinearIn rangeIndex altitudeIndex position := by
  unfold bilinearAt
  rw [floor_of_mem member.1, floor_of_mem member.2]

omit [LinearOrder Num] [IsStrictOrderedRing Num] in
/-- The plane leaves the bilinear interpolation off two sides of an uneven cell. -/
theorem planeIn_eq_iff (rangeScale : table.rangeScale ≠ 0)
    (altitudeScale : table.altitudeScale ≠ 0) :
    table.planeIn rangeIndex altitudeIndex position =
        table.bilinearIn rangeIndex altitudeIndex position ↔
      position.1 = rangeIndex * table.rangeScale ∨
        position.2 = altitudeIndex * table.altitudeScale ∨
        table.EvenCell rangeIndex altitudeIndex := by
  unfold planeIn bilinearIn EvenCell
  rw [Interpolation.bilinear_eq, left_eq_add, mul_eq_zero, mul_eq_zero, sub_eq_zero, or_assoc]
  unfold across along
  rw [div_eq_zero_iff, or_iff_left rangeScale, div_eq_zero_iff, or_iff_left altitudeScale,
    sub_eq_zero, sub_eq_zero]

theorem across_mem (index : Nat) {scale value : Num} (positive : 0 < scale)
    (member : value ∈ Set.Icc (index * scale) ((index + 1) * scale)) :
    (value - index * scale) / scale ∈ Set.Icc 0 1 := by
  constructor
  · exact div_nonneg (sub_nonneg.mpr member.1) positive.le
  · rw [div_le_one positive]
    linarith [member.2]

/-- A value in a cell is in no other closed cell, unless it is the border to the one before. -/
theorem index_of_mem {index other : Nat} {scale value : Num}
    (member : value ∈ Set.Ico (index * scale) ((index + 1) * scale))
    (near : value ∈ Set.Icc (other * scale) ((other + 1) * scale)) :
    other = index ∨ other + 1 = index ∧ value = index * scale := by
  have positive := scale_pos_of_mem member
  have above : (other : Num) < index + 1 :=
    lt_of_mul_lt_mul_right (lt_of_le_of_lt near.1 member.2) positive.le
  have below : (index : Num) ≤ other + 1 :=
    le_of_mul_le_mul_right (le_trans member.1 near.2) positive
  have above : other < index + 1 := by exact_mod_cast above
  have below : index ≤ other + 1 := by exact_mod_cast below
  rcases Nat.lt_or_ge other index with before | after
  · have next : other + 1 = index := by omega
    refine .inr ⟨next, le_antisymm ?_ member.1⟩
    have upper := near.2
    rw [← next]
    push_cast
    exact upper
  · exact .inl (by omega)

omit [LinearOrder Num] [IsStrictOrderedRing Num] in
theorem border_fractions {index other : Nat} {scale value : Num} (nonzero : scale ≠ 0)
    (next : other + 1 = index) (border : value = index * scale) :
    (value - other * scale) / scale = 1 ∧ (value - index * scale) / scale = 0 := by
  subst next border
  push_cast
  constructor
  · rw [← sub_mul, add_sub_cancel_left, one_mul, div_self nonzero]
  · rw [sub_self, zero_div]

theorem bilinearIn_mem_Icc (member : position ∈ table.cell rangeIndex altitudeIndex) :
    table.bilinearIn rangeIndex altitudeIndex position ∈
      Set.Icc (table.leastIn rangeIndex altitudeIndex)
        (table.greatestIn rangeIndex altitudeIndex) := by
  unfold leastIn greatestIn
  apply Interpolation.bilinear_mem_Icc
  · simp
  · simp
  · simp
  · simp
  · exact across_mem rangeIndex (scale_pos_of_mem member.1) (Set.Ico_subset_Icc_self member.1)
  · exact across_mem altitudeIndex (scale_pos_of_mem member.2) (Set.Ico_subset_Icc_self member.2)

/-- On the borders of the cells their bilinear interpolations agree. -/
theorem bilinearIn_eq {row column : Nat} (member : position ∈ table.cell rangeIndex altitudeIndex)
    (near : position ∈ table.closedCell row column) :
    table.bilinearIn row column position =
      table.bilinearIn rangeIndex altitudeIndex position := by
  have rangeScale := (scale_pos_of_mem member.1).ne'
  have altitudeScale := (scale_pos_of_mem member.2).ne'
  unfold bilinearIn across along
  rcases index_of_mem member.1 near.1 with sameRow | ⟨nextRow, rangeBorder⟩
  · subst sameRow
    rcases index_of_mem member.2 near.2 with sameColumn | ⟨nextColumn, altitudeBorder⟩
    · rw [sameColumn]
    · obtain ⟨one, zero⟩ := border_fractions altitudeScale nextColumn altitudeBorder
      rw [one, zero, Interpolation.bilinear_along_one, Interpolation.bilinear_along_zero,
        nextColumn]
  · obtain ⟨rangeOne, rangeZero⟩ := border_fractions rangeScale nextRow rangeBorder
    rw [rangeOne, rangeZero, Interpolation.bilinear_across_one, Interpolation.bilinear_across_zero,
      nextRow]
    rcases index_of_mem member.2 near.2 with sameColumn | ⟨nextColumn, altitudeBorder⟩
    · rw [sameColumn]
    · obtain ⟨one, zero⟩ := border_fractions altitudeScale nextColumn altitudeBorder
      rw [one, zero, AffineMap.lineMap_apply_one, AffineMap.lineMap_apply_zero, nextColumn]

end Values

/-! ## What `at` returns -/

section Interpolation

variable [TopologicalSpace Num] [OrderTopology Num] {table : PkTable Num}
  {rangeIndex altitudeIndex rows columns : Nat} {position : Num × Num}

theorem continuous_planeIn : Continuous (table.planeIn rangeIndex altitudeIndex) := by
  unfold planeIn across along
  fun_prop

theorem closure_cell (rangeScale : 0 < table.rangeScale) (altitudeScale : 0 < table.altitudeScale) :
    closure (table.cell rangeIndex altitudeIndex) = table.closedCell rangeIndex altitudeIndex := by
  have wide (index : Nat) {scale : Num} (positive : 0 < scale) :
      index * scale ≠ (index + 1) * scale := by
    rw [add_one_mul]
    exact (lt_add_of_pos_right _ positive).ne
  unfold cell closedCell
  rw [closure_prod_eq, closure_Ico (wide _ rangeScale), closure_Ico (wide _ altitudeScale)]

/-- The values are continuous at a position where the planes of all cells around it meet. -/
theorem Fits.continuousWithinAt_iff [FloorSemiring Num] (fits : table.Fits rows columns)
    (rangeScale : 0 < table.rangeScale) (altitudeScale : 0 < table.altitudeScale) :
    ContinuousWithinAt table.valueAt table.inside position ↔
      ∀ row < rows, ∀ column < columns, position ∈ table.closedCell row column →
        table.planeIn row column position = table.valueAt position := by
  have agree (index : Fin rows × Fin columns) :
      Set.EqOn table.valueAt (table.planeIn index.1 index.2) (table.cell index.1 index.2) := by
    intro other member
    unfold valueAt
    rw [fits.pkAt_eq index.1.isLt index.2.isLt member, Option.getD_some]
  rw [fits.inside_eq, Interpolation.continuousWithinAt_pieces_iff agree fun _ => continuous_planeIn]
  constructor
  · intro meet row rowLt column columnLt near
    refine meet (⟨row, rowLt⟩, ⟨column, columnLt⟩) ?_
    rwa [closure_cell rangeScale altitudeScale]
  · intro meet index near
    rw [closure_cell rangeScale altitudeScale] at near
    exact meet index.1 index.1.isLt index.2 index.2.isLt near

theorem Fits.interpolates_even_iff [FloorSemiring Num] (fits : table.Fits rows columns)
    (member : position ∈ table.inside) :
    table.Interpolates position ↔
      ∀ row < rows, ∀ column < columns, position ∈ table.closedCell row column →
        position.1 = row * table.rangeScale ∨ position.2 = column * table.altitudeScale ∨
          table.EvenCell row column := by
  rw [fits.inside_eq, Set.mem_iUnion] at member
  obtain ⟨⟨rangeIndex, altitudeIndex⟩, member⟩ := member
  have rangeScale := scale_pos_of_mem member.1
  have altitudeScale := scale_pos_of_mem member.2
  have found := fits.pkAt_eq rangeIndex.isLt altitudeIndex.isLt member
  have value : table.valueAt position = table.planeIn rangeIndex altitudeIndex position := by
    unfold valueAt
    rw [found, Option.getD_some]
  constructor
  · rintro ⟨bilinear, -, continuous⟩ row rowLt column columnLt near
    have own : table.valueAt position = table.bilinearIn row column position := by
      unfold valueAt
      rw [bilinear, Option.getD_some, bilinearAt_eq member, bilinearIn_eq member near]
    have meet := (fits.continuousWithinAt_iff rangeScale altitudeScale).mp continuous row rowLt
      column columnLt near
    exact (planeIn_eq_iff rangeScale.ne' altitudeScale.ne').mp (meet.trans own)
  · intro even
    have plane (row : Nat) (rowLt : row < rows) (column : Nat) (columnLt : column < columns)
        (near : position ∈ table.closedCell row column) :
        table.planeIn row column position =
          table.bilinearIn rangeIndex altitudeIndex position :=
      ((planeIn_eq_iff rangeScale.ne' altitudeScale.ne').mpr
        (even row rowLt column columnLt near)).trans (bilinearIn_eq member near)
    have near : position ∈ table.closedCell rangeIndex altitudeIndex :=
      Set.prod_mono Set.Ico_subset_Icc_self Set.Ico_subset_Icc_self member
    have own := plane _ rangeIndex.isLt _ altitudeIndex.isLt near
    constructor
    · rw [found, own, bilinearAt_eq member]
    · rw [floor_of_mem member.1, floor_of_mem member.2, value, own]
      exact bilinearIn_mem_Icc member
    · apply (fits.continuousWithinAt_iff rangeScale altitudeScale).mpr
      intro row rowLt column columnLt near
      rw [plane row rowLt column columnLt near, value, own]

/-- In a table whose size line is right, a position is interpolated unless it lies, off the lower
borders, in a closed cell with different differences along the range. -/
theorem interpolates_iff [FloorSemiring Num] {lines : List (List Char)} (table : PkTable Num)
    (loaded : load lines = some table) (sized : table.SizeMatches) (position : Num × Num)
    (member : position ∈ table.inside) :
    table.Interpolates position ↔
      ∀ row < table.rows, ∀ column < table.columns, position ∈ table.closedCell row column →
        position.1 = row * table.rangeScale ∨ position.2 = column * table.altitudeScale ∨
          table.EvenCell row column :=
  (load_fits loaded sized).interpolates_even_iff member

end Interpolation

/-! ## A table with four entries -/

def fourEntriesFile : List (List Char) :=
  ["scale,10,10", "size,2,2", "90,80", "70,60"].map String.toList

def fourEntries : PkTable ℚ where
  rangeScale := 10
  altitudeScale := 10
  scaleUnits := none
  rangeMax := 20
  altitudeMax := 20
  expectedRowSize := some 2
  expectedColumnSize := some 2
  expectedRangeMax := none
  expectedAltitudeMax := none
  pk := [[90, 80, 0], [70, 60, 0], [0, 0, 0]]

theorem load_fourEntriesFile : load fourEntriesFile = some fourEntries := by decide +kernel

/-- A position in the middle of the even cell between the entries. -/
theorem interpolates_iff_fourEntries : fourEntries.Interpolates (4, 6) := by
  have sized : fourEntries.SizeMatches := ⟨by decide +kernel, by decide +kernel⟩
  have inside : ((4, 6) : ℚ × ℚ) ∈ fourEntries.inside :=
    ⟨⟨by decide, by decide⟩, ⟨by decide, by decide⟩⟩
  apply (interpolates_iff fourEntries load_fourEntriesFile sized (4, 6) inside).mpr
  intro row _ column _ near
  have first (index : Nat) {value : ℚ} (less : value < 10) (from_below : index * 10 ≤ value) :
      index = 0 := by
    by_contra positive
    have one : (1 : ℚ) ≤ index := by exact_mod_cast Nat.one_le_iff_ne_zero.mpr positive
    linarith
  rw [first row (by norm_num) near.1.1, first column (by norm_num) near.2.1]
  have even : fourEntries.EvenCell 0 0 := by
    unfold EvenCell
    decide +kernel
  exact .inr (.inr even)

/-! ## A table with one entry -/

def oneEntryFile : List (List Char) := ["scale,10,10", "size,1,1", "100"].map String.toList

def oneEntry : PkTable ℚ where
  rangeScale := 10
  altitudeScale := 10
  scaleUnits := none
  rangeMax := 10
  altitudeMax := 10
  expectedRowSize := some 1
  expectedColumnSize := some 1
  expectedRangeMax := none
  expectedAltitudeMax := none
  pk := [[100, 0], [0, 0]]

theorem load_oneEntryFile : load oneEntryFile = some oneEntry := by decide +kernel

theorem sizeMatches_oneEntry : oneEntry.SizeMatches :=
  ⟨by decide +kernel, by decide +kernel⟩

theorem mem_inside_oneEntry {range altitude : ℚ} (rangeLower : 0 ≤ range) (rangeUpper : range < 10)
    (altitudeLower : 0 ≤ altitude) (altitudeUpper : altitude < 10) :
    (range, altitude) ∈ oneEntry.inside :=
  ⟨⟨rangeLower, rangeUpper⟩, ⟨altitudeLower, altitudeUpper⟩⟩

/-- Far from the entry the value is less than any of the four. -/
theorem interpolates_fails :
    load oneEntryFile = some oneEntry ∧ oneEntry.SizeMatches ∧ (9, 9) ∈ oneEntry.inside ∧
      oneEntry.pkAt 9 9 = some (-80) ∧ oneEntry.bilinearAt (9, 9) = 1 ∧
      ¬ oneEntry.Interpolates (9, 9) := by
  have value : oneEntry.pkAt 9 9 = some (-80) := by decide +kernel
  have bilinear : oneEntry.bilinearAt (9, 9) = 1 := by decide +kernel
  refine ⟨load_oneEntryFile, sizeMatches_oneEntry,
    mem_inside_oneEntry (by decide) (by decide) (by decide) (by decide), value, bilinear, ?_⟩
  intro interpolates
  have same := interpolates.bilinear
  rw [value, bilinear] at same
  exact absurd (Option.some_inj.mp same) (by decide)

end PkTable

end Nise.RubyModels
