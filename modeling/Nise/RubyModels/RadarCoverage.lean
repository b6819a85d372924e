import Nise.RubyModels.Radar

/-!
# The azimuths that a radar covers

A radar covers the closed sector that runs clockwise from its lower to its upper azimuth limit,
modulo a full turn.  The test brings a heading nearer to the limits by one turn at most, and it
takes the limits as they are: it agrees with the sector unless the limits are in wrapped order or
the part of the sector that is within one turn of the circle is too small.
-/

namespace Nise.RubyModels

/-- A radar as its constructor makes it. -/
inductive RadarKind where
  | scanning (rangeArray : ℚ × ℚ) (azimuthArray elevationArray : ScanArray)
  | rotating (rangeArray : ℚ × ℚ) (revolutionsPerMinute azimuthWidth : ℚ)
      (elevationArray : ScanArray)
  | staring (rangeArray azimuthArray elevationArray : ℚ × ℚ)

def RadarKind.build : RadarKind → Radar
  | .scanning rangeArray azimuthArray elevationArray =>
      .scanning rangeArray azimuthArray elevationArray
  | .rotating rangeArray revolutionsPerMinute azimuthWidth elevationArray =>
      .rotating rangeArray revolutionsPerMinute azimuthWidth elevationArray
  | .staring rangeArray azimuthArray elevationArray =>
      .staring rangeArray azimuthArray elevationArray

/-- How far it is clockwise from one limit to the other. -/
def sectorExtent (min max : ℚ) : ℚ :=
  if min ≤ max then max - min else max - min - 360 * ⌊(max - min) / 360⌋

/-- A heading is in the closed sector that runs clockwise from one limit to the other. -/
def InClosedSector (min max heading : ℚ) : Prop :=
  ∃ turns : ℤ, min ≤ heading + 360 * turns ∧ heading + 360 * turns ≤ min + sectorExtent min max

/-- The limits are in order, and the sector has all of its headings within a turn of the circle. -/
def PlainLimits (min max : ℚ) : Prop :=
  min ≤ max ∧ (min ≤ 360 ∨ max < 720) ∧ (-360 ≤ min ∨ 0 ≤ max)

variable {min max heading : ℚ}

/-- Every angle is some turns from a heading. -/
theorem exists_heading (angle : ℚ) :
    ∃ (heading : ℚ) (turns : ℤ), 0 ≤ heading ∧ heading < 360 ∧ heading + 360 * turns = angle := by
  have low := Int.floor_le (angle / 360)
  have high := Int.lt_floor_add_one (angle / 360)
  refine ⟨angle - 360 * ⌊angle / 360⌋, ⌊angle / 360⌋, ?_, ?_, ?_⟩
  · linarith
  · linarith
  · ring

theorem sectorExtent_nonneg (min max : ℚ) : 0 ≤ sectorExtent min max := by
  unfold sectorExtent
  split
  · next ordered => linarith
  · have low := Int.floor_le ((max - min) / 360)
    linarith

theorem inClosedSector_iff (ordered : min ≤ max) :
    InClosedSector min max heading ↔
      ∃ turns : ℤ, min ≤ heading + 360 * turns ∧ heading + 360 * turns ≤ max := by
  unfold InClosedSector sectorExtent
  rw [if_pos ordered, add_sub_cancel]

namespace Radar

variable {radar : Radar} {thing : Thing}

/-- The test passes if the heading is between the limits with no turn or with one turn to
either side. -/
theorem withinAzimuth_iff :
    radar.withinAzimuth thing = true ↔
      ∃ turns : ℤ, -1 ≤ turns ∧ turns ≤ 1 ∧
        radar.azimuthMin ≤ thing.heading + 360 * turns ∧
          thing.heading + 360 * turns ≤ radar.azimuthMax := by
  unfold withinAzimuth
  dsimp only
  rw [Bool.and_eq_true, decide_eq_true_eq, decide_eq_true_eq]
  constructor
  · intro between
    split_ifs at between
    · exact ⟨0, by decide, by decide, by push_cast; linarith, by push_cast; linarith⟩
    · exact ⟨-1, by decide, by decide, by push_cast; linarith, by push_cast; linarith⟩
    · exact ⟨1, by decide, by decide, by push_cast; linarith, by push_cast; linarith⟩
    · exact ⟨0, by decide, by decide, by push_cast; linarith, by push_cast; linarith⟩
  · rintro ⟨turns, least, most, low, high⟩
    obtain rfl | rfl | rfl : turns = -1 ∨ turns = 0 ∨ turns = 1 := by omega
    · push_cast at low high
      split_ifs <;> constructor <;> linarith
    · push_cast at low high
      split_ifs <;> constructor <;> linarith
    · push_cast at low high
      split_ifs <;> constructor <;> linarith

end Radar

/-! ## Where the test and the sector agree -/

/-- A heading with more turns than one has another place between plain limits. -/
theorem PlainLimits.exists_near (plain : PlainLimits min max) (nonneg : 0 ≤ heading)
    (less : heading < 360) {turns : ℤ} (low : min ≤ heading + 360 * turns)
    (high : heading + 360 * turns ≤ max) :
    ∃ near : ℤ, -1 ≤ near ∧ near ≤ 1 ∧ min ≤ heading + 360 * near ∧
      heading + 360 * near ≤ max := by
  obtain ⟨ordered, top, bottom⟩ := plain
  rcases lt_or_ge 1 turns with many | few
  · have two : (2 : ℚ) ≤ turns := by exact_mod_cast many
    have first : min ≤ 360 := top.resolve_right (by linarith)
    exact ⟨1, by decide, by decide, by push_cast; linarith, by push_cast; linarith⟩
  · rcases lt_or_ge turns (-1) with behind | near
    · have two : (turns : ℚ) ≤ ((-2 : ℤ) : ℚ) := Int.cast_le.mpr (by omega)
      push_cast at two
      have last : 0 ≤ max := bottom.resolve_left (by linarith)
      exact ⟨-1, by decide, by decide, by push_cast; linarith, by push_cast; linarith⟩
    · exact ⟨turns, near, few, low, high⟩

/-- A heading in the sector has a place within one turn only if the limits are in order. -/
theorem le_of_agrees
    (agrees : ∀ heading, 0 ≤ heading → heading < 360 → InClosedSector min max heading →
      ∃ turns : ℤ, -1 ≤ turns ∧ turns ≤ 1 ∧ min ≤ heading + 360 * turns ∧
        heading + 360 * turns ≤ max) : min ≤ max := by
  obtain ⟨heading, turns, nonneg, less, first⟩ := exists_heading min
  have sector : InClosedSector min max heading :=
    ⟨turns, first.ge, by linarith [sectorExtent_nonneg min max]⟩
  obtain ⟨near, -, -, low, high⟩ := agrees heading nonneg less sector
  exact low.trans high

section Far

variable (agrees : ∀ heading, 0 ≤ heading → heading < 360 →
    (∃ turns : ℤ, min ≤ heading + 360 * turns ∧ heading + 360 * turns ≤ max) →
      ∃ turns : ℤ, -1 ≤ turns ∧ turns ≤ 1 ∧ min ≤ heading + 360 * turns ∧
        heading + 360 * turns ≤ max)

include agrees

/-- North is a heading of a sector that reaches the second full turn, and is not reached with one
turn if the sector begins behind the first. -/
theorem le_or_lt_of_agrees (ordered : min ≤ max) : min ≤ 360 ∨ max < 720 := by
  by_contra far
  rw [not_or, not_le, not_lt] at far
  obtain ⟨above, beyond⟩ := far
  have missed : ∀ heading turns, 0 ≤ heading → heading < 360 →
      min ≤ heading + 360 * (turns : ℤ) → heading + 360 * turns ≤ max →
      min ≤ heading + 360 := by
    intro heading turns nonneg less low high
    obtain ⟨near, -, most, reached, -⟩ := agrees heading nonneg less ⟨turns, low, high⟩
    have one : (near : ℚ) ≤ 1 := by exact_mod_cast most
    linarith
  rcases le_or_gt min 720 with before | behind
  · have north := missed 0 2 le_rfl (by norm_num) (by push_cast; linarith)
      (by push_cast; linarith)
    linarith
  · obtain ⟨heading, turns, nonneg, less, first⟩ := exists_heading min
    have reached := missed heading turns nonneg less first.ge (first.le.trans ordered)
    linarith

theorem le_or_nonneg_of_agrees (ordered : min ≤ max) : -360 ≤ min ∨ 0 ≤ max := by
  by_contra far
  rw [not_or, not_le, not_le] at far
  obtain ⟨below, before⟩ := far
  have missed : ∀ heading turns, 0 ≤ heading → heading < 360 →
      min ≤ heading + 360 * (turns : ℤ) → heading + 360 * turns ≤ max →
      heading - 360 ≤ max := by
    intro heading turns nonneg less low high
    obtain ⟨near, least, -, -, reached⟩ := agrees heading nonneg less ⟨turns, low, high⟩
    have one : ((-1 : ℤ) : ℚ) ≤ near := Int.cast_le.mpr least
    push_cast at one
    linarith
  rcases lt_or_ge max (-360) with short | long
  · obtain ⟨heading, turns, nonneg, less, last⟩ := exists_heading max
    have reached := missed heading turns nonneg less (ordered.trans last.ge) last.le
    linarith
  · -- A heading so little to the left of north that it is behind the upper limit.
    obtain ⟨little, pos, first, second⟩ : ∃ little : ℚ,
        0 < little ∧ little ≤ -360 - min ∧ little ≤ -max / 2 :=
      ⟨Min.min (-360 - min) (-max / 2), lt_min (by linarith) (by linarith), min_le_left _ _,
        min_le_right _ _⟩
    have reached := missed (360 - little) (-2) (by linarith) (by linarith)
      (by push_cast; linarith) (by push_cast; linarith)
    linarith

end Far

theorem plainLimits_iff :
    PlainLimits min max ↔
      ∀ heading, 0 ≤ heading → heading < 360 → InClosedSector min max heading →
        ∃ turns : ℤ, -1 ≤ turns ∧ turns ≤ 1 ∧ min ≤ heading + 360 * turns ∧
          heading + 360 * turns ≤ max := by
  constructor
  · intro plain heading nonneg less sector
    obtain ⟨turns, low, high⟩ := (inClosedSector_iff plain.1).mp sector
    exact plain.exists_near nonneg less low high
  · intro agrees
    have ordered := le_of_agrees agrees
    simp only [inClosedSector_iff ordered] at agrees
    exact ⟨ordered, le_or_lt_of_agrees agrees ordered, le_or_nonneg_of_agrees agrees ordered⟩

namespace Radar

/-- The test is true exactly for the headings of the sector, and an active radar detects what is
in the sector and between its ranges. -/
structure CoversSector (radar : Radar) : Prop where
  within_iff : ∀ thing : Thing, 0 ≤ thing.heading → thing.heading < 360 →
    (radar.withinAzimuth thing = true ↔
      InClosedSector radar.azimuthMin radar.azimuthMax thing.heading)
  detects : radar.active = true → ∀ thing : Thing, 0 ≤ thing.heading → thing.heading < 360 →
    InClosedSector radar.azimuthMin radar.azimuthMax thing.heading →
    radar.range.1 ≤ thing.distance → thing.distance ≤ radar.range.2 →
    radar.canDetect thing = true

theorem canDetect_of_within {radar : Radar} {thing : Thing} (active : radar.active = true)
    (within : radar.withinAzimuth thing = true) (near : radar.range.1 ≤ thing.distance)
    (far : thing.distance ≤ radar.range.2) : radar.canDetect thing = true := by
  unfold canDetect withinRange
  rw [active, within, if_neg (not_lt.mpr near), if_neg (not_lt.mpr far)]
  rfl

end Radar

/-- A radar covers the sector between its azimuth limits exactly if they are plain. -/
theorem coversSector_iff (kind : RadarKind) :
    kind.build.CoversSector ↔
      PlainLimits kind.build.azimuthMin kind.build.azimuthMax := by
  rw [plainLimits_iff]
  constructor
  · intro covers heading nonneg less sector
    exact Radar.withinAzimuth_iff.mp ((covers.within_iff ⟨heading, 0⟩ nonneg less).mpr sector)
  · intro near
    have within : ∀ thing : Radar.Thing, 0 ≤ thing.heading → thing.heading < 360 →
        InClosedSector kind.build.azimuthMin kind.build.azimuthMax thing.heading →
        kind.build.withinAzimuth thing = true := fun thing nonneg less sector =>
      Radar.withinAzimuth_iff.mpr (near thing.heading nonneg less sector)
    refine ⟨fun thing nonneg less => ⟨?_, within thing nonneg less⟩, ?_⟩
    · intro passes
      obtain ⟨turns, -, -, low, high⟩ := Radar.withinAzimuth_iff.mp passes
      exact (inClosedSector_iff (low.trans high)).mpr ⟨turns, low, high⟩
    · intro active thing nonneg less sector close far
      exact Radar.canDetect_of_within active (within thing nonneg less sector) close far

/-- The scanning radar that is built without arguments does not cover the sector across north from
340 to 55 degrees. -/
theorem not_covers_default :
    ¬ (RadarKind.scanning Radar.defaultRange Radar.defaultAzimuth
      Radar.defaultElevation).build.CoversSector := by
  intro covers
  have north : InClosedSector 340 55 0 :=
    ⟨1, by norm_num, by norm_num [sectorExtent]⟩
  have within := (covers.within_iff ⟨0, 5000⟩ le_rfl (by norm_num)).mpr north
  exact absurd within (by decide +kernel)

end Nise.RubyModels
