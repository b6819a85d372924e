import Mathlib.Algebra.Order.Field.Basic
import Mathlib.Algebra.Order.Floor.Semiring
import Mathlib.Data.List.DropRight
import Mathlib.Data.Rat.Floor
import Mathlib.Tactic.Linarith

/-!
# Tables of kill probabilities

A table is read from a file: lines with its scale, its size and its limits, and one line of
altitudes for each range.  A row and a column of zeros are put behind what is read.  `at` takes a
value out of the cell of the table in which a range and an altitude lie.  The arithmetic is exact.
-/

namespace Nise.RubyModels

/-! ## Texts and numbers -/

namespace RubyText

/-- What `strip` removes; at the end of a text it removes null characters too. -/
def isSpace (c : Char) : Bool := c ∈ [' ', '\t', '\n', '\x0b', '\x0c', '\r']

def strip (text : List Char) : List Char :=
  (text.dropWhile isSpace).rdropWhile fun c => isSpace c || c == '\x00'

/-- `split(',')`, which drops the empty fields at the end. -/
def splitCommas (text : List Char) : List (List Char) :=
  (text.splitOn ',').rdropWhile List.isEmpty

def digit (c : Char) : Nat := c.toNat - '0'.toNat

/-- The digits a number begins with, single underscores between them left out, and the rest. -/
def digits : List Char → List Nat × List Char
  | [] => ([], [])
  | c :: '_' :: next :: rest =>
      if c.isDigit then
        if next.isDigit then
          let (more, behind) := digits (next :: rest)
          (digit c :: more, behind)
        else ([digit c], '_' :: next :: rest)
      else ([], c :: '_' :: next :: rest)
  | c :: rest =>
      if c.isDigit then
        let (more, behind) := digits rest
        (digit c :: more, behind)
      else ([], c :: rest)

/-- The sign a number begins with, and the rest. -/
def sign : List Char → ℤ × List Char
  | '-' :: rest => (-1, rest)
  | '+' :: rest => (1, rest)
  | text => (1, text)

def number (digits : List Nat) : Nat := digits.foldl (fun number digit => 10 * number + digit) 0

def toI (text : List Char) : ℤ :=
  let (sign, text) := sign (text.dropWhile isSpace)
  sign * number (digits text).1

/-- Behind a point or an `e` there has to be a digit. -/
def toF (Num : Type) [Field Num] (text : List Char) : Num :=
  let (sign, text) := sign (text.dropWhile isSpace)
  let (whole, text) := digits text
  let (fraction, text) :=
    match text with
    | '.' :: rest => if (digits rest).1.isEmpty then ([], text) else digits rest
    | _ => ([], text)
  let exponent :=
    match text with
    | 'e' :: rest | 'E' :: rest =>
        let (sign, rest) := RubyText.sign rest
        sign * number (digits rest).1
    | _ => 0
  sign * number (whole ++ fraction) / 10 ^ fraction.length * 10 ^ exponent

end RubyText

open RubyText

/-! ## The table -/

structure PkTable (Num : Type) where
  rangeScale : Num
  altitudeScale : Num
  scaleUnits : Option (List Char)
  rangeMax : Num
  altitudeMax : Num
  expectedRowSize : Option Num
  expectedColumnSize : Option Num
  expectedRangeMax : Option Num
  expectedAltitudeMax : Option Num
  pk : List (List ℤ)
  deriving DecidableEq, Repr

/-- What the lines of a file have set. -/
structure PkFile (Num : Type) where
  rangeScale : Option Num := none
  altitudeScale : Option Num := none
  scaleUnits : Option (List Char) := none
  expectedRowSize : Option Num := none
  expectedColumnSize : Option Num := none
  expectedRangeMax : Option Num := none
  expectedAltitudeMax : Option Num := none
  pk : List (List ℤ) := []
  deriving DecidableEq, Repr

namespace PkTable

variable {Num : Type} [Field Num]

/-- The table without a file. -/
def standard : PkTable Num where
  rangeScale := 10000
  altitudeScale := 10000
  scaleUnits := none
  rangeMax := 30000
  altitudeMax := 30000
  expectedRowSize := none
  expectedColumnSize := none
  expectedRangeMax := none
  expectedAltitudeMax := none
  pk := [[0, 45, 75, 0], [0, 75, 95, 0], [0, 45, 75, 0], [0, 0, 0, 0]]

/-- The number in a field; a field that is not there is zero. -/
def fieldToF (field : Option (List Char)) : Num := (field.map (toF Num)).getD 0

/-- One line of the file.  A line of commas has no first field and raises. -/
def readLine (file : PkFile Num) (aLine : List Char) : Option (PkFile Num) :=
  let al := ((strip aLine).filter (· ≠ ' ')).map Char.toLower
  if al.isEmpty || al.head? == some '#' then some file
  else
    match splitCommas al with
    | [] => none
    | keyword :: fields =>
        if keyword = "scale".toList then
          some
            { file with
              rangeScale := some (fieldToF fields[0]?)
              altitudeScale := some (fieldToF fields[1]?)
              scaleUnits := fields[2]? }
        else if keyword = "size".toList then
          some
            { file with
              expectedRowSize := some (fieldToF fields[0]?)
              expectedColumnSize := some (fieldToF fields[1]?) }
        else if keyword = "max".toList then
          some
            { file with
              expectedRangeMax := some (fieldToF fields[0]?)
              expectedAltitudeMax := some (fieldToF fields[1]?) }
        else
          -- The altitude buffer is put behind the row.
          some { file with pk := file.pk ++ [(keyword :: fields).map toI ++ [0]] }

/-- The part of `initialize` behind the loop.  It raises without rows and without a scale. -/
def finish (file : PkFile Num) : Option (PkTable Num) := do
  let first ← file.pk.head?
  let rangeScale ← file.rangeScale
  let altitudeScale ← file.altitudeScale
  let rangeIndexMax := file.pk.length
  let altitudeIndexMax := first.length - 1
  return {
    rangeScale := rangeScale
    altitudeScale := altitudeScale
    scaleUnits := file.scaleUnits
    rangeMax := rangeIndexMax * rangeScale
    altitudeMax := altitudeIndexMax * altitudeScale
    expectedRowSize := file.expectedRowSize
    expectedColumnSize := file.expectedColumnSize
    expectedRangeMax := file.expectedRangeMax
    expectedAltitudeMax := file.expectedAltitudeMax
    pk := file.pk ++ [List.replicate (altitudeIndexMax + 1) 0] }

/-- `initialize`, with the lines of a file. -/
def load (lines : List (List Char)) : Option (PkTable Num) :=
  lines.foldlM readLine {} >>= finish

/-- `initialize`, with the lines of the file if there is one. -/
def new : Option (List (List Char)) → Option (PkTable Num)
  | none => some standard
  | some lines => load lines

def entry (table : PkTable Num) (rangeIndex altitudeIndex : Nat) : Option ℤ :=
  table.pk[rangeIndex]?.bind fun row => row[altitudeIndex]?

variable [LinearOrder Num] [FloorSemiring Num]

/-- `at`.  What raises has no value: an index by a scale of zero, a table without a size, and an
entry that is not there. -/
def pkAt (table : PkTable Num) (range altitude : Num) : Option Num :=
  if table.rangeMax < range ∨ table.altitudeMax < altitude then some 0
  else if range < 0 ∨ altitude < 0 then some 0
  else if table.rangeScale = 0 ∨ table.altitudeScale = 0 then none
  else do
    let rangeIndex := ⌊range / table.rangeScale⌋₊
    let altitudeIndex := ⌊altitude / table.altitudeScale⌋₊
    let rows ← table.expectedRowSize
    let columns ← table.expectedColumnSize
    if rows ≤ rangeIndex ∨ columns ≤ altitudeIndex then return 0
    let a : Num := (← table.entry rangeIndex altitudeIndex)
    let b : Num := (← table.entry rangeIndex (altitudeIndex + 1))
    let c : Num := (← table.entry (rangeIndex + 1) altitudeIndex)
    -- The difference to this entry is computed and not used.
    let _d ← table.entry (rangeIndex + 1) (altitudeIndex + 1)
    let deltaAc := a - c
    let deltaRange := rangeIndex * table.rangeScale - range
    let deltaAltitude := altitudeIndex * table.altitudeScale - altitude
    let rangeFactor := deltaRange / table.rangeScale
    let altitudeFactor := deltaAltitude / table.altitudeScale
    let pk1 := a + deltaAc * rangeFactor
    let pk2 := b + deltaAc * rangeFactor
    let deltaAltitude := pk1 - pk2
    return pk1 + deltaAltitude * altitudeFactor

/-- The table without a file has no size, and every position within its limits raises. -/
theorem pkAt_new_none {table : PkTable Num} (made : new none = some table) {range altitude : Num}
    (rangeMem : range ∈ Set.Icc 0 table.rangeMax)
    (altitudeMem : altitude ∈ Set.Icc 0 table.altitudeMax) :
    table.pkAt range altitude = none := by
  cases made
  unfold pkAt
  rw [if_neg (not_or.mpr ⟨rangeMem.2.not_gt, altitudeMem.2.not_gt⟩),
    if_neg (not_or.mpr ⟨rangeMem.1.not_gt, altitudeMem.1.not_gt⟩)]
  exact ite_self none

end PkTable

end Nise.RubyModels
