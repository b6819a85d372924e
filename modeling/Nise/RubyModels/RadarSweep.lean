import Nise.Lib.Run
import Nise.RubyModels.Radar

/-!
# The sweep of a scanning radar

The azimuth and the elevation of a scanning radar should each sweep an interval: the azimuth the
clockwise distances from `azimuth_min` up to the width of the sector, the elevation the angles
between its limits.  The elevation always does.  The azimuth does as long as a step does not
overshoot so far that the normalized angle is in the sector again.
-/

namespace Nise.RubyModels

open Nise.Lib

/-- How far to the right of one azimuth another one is. -/
def clockwise (origin azimuth : ℚ) : ℚ :=
  if origin ≤ azimuth then azimuth - origin else azimuth - origin + 360

/-! ## Angles -/

theorem normalized_of_lt {angle : ℚ} (nonneg : 0 ≤ angle) (less : angle < 360) :
    normalized angle = angle := by
  unfold normalized
  rw [if_neg (not_lt.mpr nonneg)]
  exact if_neg (not_le.mpr less)

theorem normalized_of_neg {angle : ℚ} (neg : angle < 0) : normalized angle = angle + 360 := by
  unfold normalized
  rw [if_pos neg]
  exact if_neg (by linarith)

theorem normalized_of_ge {angle : ℚ} (large : 360 ≤ angle) :
    normalized angle = angle - 360 := by
  have nonneg : ¬ angle < 0 := by linarith
  unfold normalized
  rw [if_neg nonneg]
  exact if_pos large

theorem normalized_nonneg {angle : ℚ} (near : -360 ≤ angle) : 0 ≤ normalized angle := by
  unfold normalized
  dsimp only
  split_ifs <;> linarith

theorem normalized_lt {angle : ℚ} (near : angle < 720) : normalized angle < 360 := by
  unfold normalized
  dsimp only
  split_ifs <;> linarith

theorem normalized_normalized {angle : ℚ} (left : -360 ≤ angle) (right : angle < 720) :
    normalized (normalized angle) = normalized angle :=
  normalized_of_lt (normalized_nonneg left) (normalized_lt right)

@[simp] theorem clockwise_self (azimuth : ℚ) : clockwise azimuth azimuth = 0 := by
  unfold clockwise
  rw [if_pos le_rfl, sub_self]

/-- Turning an azimuth turns its distance from the origin. -/
theorem clockwise_normalized {origin azimuth : ℚ} (turn : ℚ) (origin_nonneg : 0 ≤ origin)
    (origin_lt : origin < 360) (nonneg : 0 ≤ azimuth) (left : -360 ≤ turn)
    (right : turn < 360) :
    clockwise origin (normalized (azimuth + turn)) =
      normalized (clockwise origin azimuth + turn) := by
  unfold clockwise normalized
  dsimp only
  split_ifs <;> linarith

namespace Radar

/-- The limits of a scanning radar, and what `reset` has computed from them. -/
structure Limited (radar : Radar) : Prop where
  min_nonneg : 0 ≤ radar.azimuthMin
  min_lt : radar.azimuthMin < 360
  max_nonneg : 0 ≤ radar.azimuthMax
  max_lt : radar.azimuthMax < 360
  apart : radar.azimuthMin ≠ radar.azimuthMax
  elevation_le : radar.elevationMin ≤ radar.elevationMax
  offset : radar.normalizingOffset =
    if radar.azimuthMin < radar.azimuthMax then 0 - radar.azimuthMin else 360 - radar.azimuthMin
  minNorm : radar.azMinNorm = 0
  maxNorm : radar.azMaxNorm = radar.azimuthMax + radar.normalizingOffset

/-- How far the azimuth is from `azimuth_min`. -/
def distance (radar : Radar) : ℚ := clockwise radar.azimuthMin radar.azimuth

/-- The width of the azimuth sector. -/
def width (radar : Radar) : ℚ := clockwise radar.azimuthMin radar.azimuthMax

variable {radar : Radar}

theorem Limited.azMaxNorm_eq (limited : radar.Limited) : radar.azMaxNorm = radar.width := by
  rw [limited.maxNorm, limited.offset, width, clockwise]
  rcases lt_or_gt_of_ne limited.apart with within | across
  · rw [if_pos within, if_pos within.le]
    ring
  · rw [if_neg (not_lt.mpr across.le), if_neg (not_le.mpr across)]
    ring

theorem Limited.width_pos (limited : radar.Limited) : 0 < radar.width := by
  have bounds := limited.min_lt
  have nonneg := limited.max_nonneg
  unfold width clockwise
  rcases lt_or_gt_of_ne limited.apart with within | across
  · rw [if_pos within.le]
    linarith
  · rw [if_neg (not_le.mpr across)]
    linarith

theorem Limited.width_lt (limited : radar.Limited) : radar.width < 360 := by
  have bounds := limited.max_lt
  have nonneg := limited.min_nonneg
  unfold width clockwise
  rcases lt_or_gt_of_ne limited.apart with within | across
  · rw [if_pos within.le]
    linarith
  · rw [if_neg (not_le.mpr across)]
    linarith

/-! ## The angle that is compared with the limits -/

theorem Limited.offsetAzimuth_within (limited : radar.Limited)
    (within : radar.azimuthMin < radar.azimuthMax) {azimuth : ℚ} (less : azimuth < 360) :
    radar.offsetAzimuth azimuth = azimuth - radar.azimuthMin := by
  have nonneg := limited.min_nonneg
  unfold offsetAzimuth
  rw [limited.offset, if_pos within]
  dsimp only
  rw [if_neg (by linarith)]
  ring

theorem Limited.offsetAzimuth_across (limited : radar.Limited)
    (across : radar.azimuthMax < radar.azimuthMin) (azimuth : ℚ) :
    radar.offsetAzimuth azimuth = clockwise radar.azimuthMin azimuth := by
  unfold offsetAzimuth clockwise
  rw [limited.offset, if_neg (not_lt.mpr across.le)]
  dsimp only
  split_ifs <;> linarith

/-- A radar whose sector does not cross north is to the right of `azimuth_min`. -/
theorem Limited.azimuth_eq (limited : radar.Limited)
    (within : radar.azimuthMin < radar.azimuthMax) (nonneg : 0 ≤ radar.azimuth)
    (inside : radar.distance ≤ radar.width) :
    radar.azimuth = radar.azimuthMin + radar.distance := by
  have below := limited.max_lt
  unfold width distance clockwise at *
  rw [if_pos within.le] at inside
  split_ifs at * <;> linarith

/-- The radar is in the circle and in its sector. -/
structure InSector (radar : Radar) : Prop where
  nonneg : 0 ≤ radar.azimuth
  less : radar.azimuth < 360
  inside : radar.distance ≤ radar.width

/-- A step to the right that does not come round to the sector again. -/
def SoundRight (radar : Radar) (step : ℚ) : Prop :=
  if radar.azimuthMin < radar.azimuthMax then radar.azimuth + step < 360
  else radar.distance + step < 360

/-- A step to the left that does not. -/
def SoundLeft (radar : Radar) (step : ℚ) : Prop :=
  step - radar.distance < 360 - radar.width

variable {step : ℚ}

theorem distance_nonneg (limited : radar.Limited) (nonneg : 0 ≤ radar.azimuth) :
    0 ≤ radar.distance := by
  have bounds := limited.min_lt
  unfold distance clockwise
  split_ifs <;> linarith

theorem InSector.distance_turned (limited : radar.Limited) (sector : radar.InSector)
    (left : -360 ≤ step) (right : step < 360) :
    clockwise radar.azimuthMin (normalized (radar.azimuth + step)) =
      normalized (radar.distance + step) :=
  clockwise_normalized _ limited.min_nonneg limited.min_lt sector.nonneg left right

theorem InSector.offsetAzimuth_right (limited : radar.Limited) (sector : radar.InSector)
    (nonneg : 0 ≤ step) (less : step < 360) (sound : radar.SoundRight step) :
    radar.offsetAzimuth (normalized (radar.azimuth + step)) = radar.distance + step := by
  have apart := distance_nonneg limited sector.nonneg
  unfold SoundRight at sound
  rcases lt_or_gt_of_ne limited.apart with within | across
  · rw [if_pos within] at sound
    have same := limited.azimuth_eq within sector.nonneg sector.inside
    rw [normalized_of_lt (add_nonneg sector.nonneg nonneg) sound,
      limited.offsetAzimuth_within within sound]
    linarith
  · rw [if_neg (not_lt.mpr across.le)] at sound
    rw [limited.offsetAzimuth_across across,
      sector.distance_turned limited (by linarith) less,
      normalized_of_lt (add_nonneg apart nonneg) sound]

theorem InSector.offsetAzimuth_right_unsound (limited : radar.Limited) (sector : radar.InSector)
    (nonneg : 0 ≤ step) (less : step < 360) (unsound : ¬ radar.SoundRight step) :
    radar.offsetAzimuth (normalized (radar.azimuth + step)) = radar.distance + step - 360 ∧
      radar.width < radar.distance + step := by
  have below := limited.width_lt
  unfold SoundRight at unsound
  rcases lt_or_gt_of_ne limited.apart with within | across
  · rw [if_pos within, not_lt] at unsound
    have same := limited.azimuth_eq within sector.nonneg sector.inside
    have high := limited.max_lt
    have wide : radar.width = radar.azimuthMax - radar.azimuthMin := if_pos within.le
    have back : radar.azimuth + step - 360 < 360 := by linarith [sector.less]
    rw [normalized_of_ge unsound, limited.offsetAzimuth_within within back]
    exact ⟨by linarith, by linarith⟩
  · rw [if_neg (not_lt.mpr across.le), not_lt] at unsound
    rw [limited.offsetAzimuth_across across,
      sector.distance_turned limited (by linarith) less, normalized_of_ge unsound]
    exact ⟨rfl, by linarith⟩

/-- A step to the left that stays in the sector. -/
theorem InSector.offsetAzimuth_left (limited : radar.Limited) (sector : radar.InSector)
    (nonneg : 0 ≤ step) (less : step < 360) (short : step ≤ radar.distance) :
    radar.offsetAzimuth (normalized (radar.azimuth - step)) = radar.distance - step := by
  have low := limited.min_nonneg
  have below := limited.width_lt
  have inside := sector.inside
  rcases lt_or_gt_of_ne limited.apart with within | across
  · have same := limited.azimuth_eq within sector.nonneg sector.inside
    have back : radar.azimuth - step < 360 := by linarith [sector.less]
    rw [normalized_of_lt (by linarith) back, limited.offsetAzimuth_within within back]
    linarith
  · rw [limited.offsetAzimuth_across across, sub_eq_add_neg,
      sector.distance_turned limited (by linarith) (by linarith),
      normalized_of_lt (by linarith) (by linarith)]
    ring

/-- A step to the left across `azimuth_min`: the angle is negative only if it does not cross
north as well. -/
theorem InSector.offsetAzimuth_left_over (limited : radar.Limited) (sector : radar.InSector)
    (less : step < 360) (beyond : radar.distance < step) :
    radar.offsetAzimuth (normalized (radar.azimuth - step)) = radar.distance - step ∧
        step - radar.distance < 360 - radar.width ∨
      radar.offsetAzimuth (normalized (radar.azimuth - step)) = radar.distance - step + 360 := by
  have apart := distance_nonneg limited sector.nonneg
  rcases lt_or_gt_of_ne limited.apart with within | across
  · have same := limited.azimuth_eq within sector.nonneg sector.inside
    have high := limited.max_lt
    have wide : radar.width = radar.azimuthMax - radar.azimuthMin := if_pos within.le
    have less := sector.less
    rcases lt_or_ge (radar.azimuth - step) 0 with neg | nonneg
    · right
      rw [normalized_of_neg neg, limited.offsetAzimuth_within within (by linarith)]
      linarith
    · left
      have back : radar.azimuth - step < 360 := by linarith
      rw [normalized_of_lt nonneg back, limited.offsetAzimuth_within within back]
      exact ⟨by linarith, by linarith⟩
  · right
    rw [limited.offsetAzimuth_across across, sub_eq_add_neg,
      sector.distance_turned limited (by linarith) (by linarith),
      normalized_of_neg (by linarith)]
    ring

/-! ## One step of the azimuth -/

/-- The scan direction as a number. -/
def scanDirection (forward : Bool) : ℚ := if forward then 1 else -1

theorem reverseScan_scanDirection (forward : Bool) :
    reverseScan (scanDirection forward) = scanDirection !forward := by
  cases forward with
  | false => exact if_pos (by decide)
  | true => exact if_neg (by decide)

/-- The azimuth is in the circle and where a sweep of the sector is. -/
structure Follows (radar : Radar) (sweep : Sweep ℚ) : Prop where
  nonneg : 0 ≤ radar.azimuth
  less : radar.azimuth < 360
  position : radar.distance = sweep.position
  direction : radar.azimuthScanDirection = scanDirection sweep.forward

/-- A radar that scans on does not follow a sweep that is reversed. -/
theorem not_follows_of_reversed {sweep : Sweep ℚ} (forward : Bool)
    (keeps : radar.azimuthScanDirection = scanDirection forward)
    (reversed : sweep.forward = !forward) : ¬ radar.Follows sweep := by
  intro follows
  have direction := follows.direction.symm.trans keeps
  rw [reversed] at direction
  cases forward with
  | false => exact absurd direction (by decide)
  | true => exact absurd direction (by decide)

/-- The radar behind the enforcer, for the azimuth that it has been turned to. -/
def enforced (radar : Radar) (azimuth : ℚ) : Radar :=
  azimuthRangeEnforcer { radar with azimuth := azimuth }

/-- The radar at an azimuth, scanning in a direction. -/
def facing (radar : Radar) (azimuth : ℚ) (forward : Bool) : Radar :=
  { radar with azimuth := azimuth, azimuthScanDirection := scanDirection forward }

theorem enforced_eq {azimuth : ℚ} {forward : Bool} {result : ℚ}
    (enforces : (if radar.azimuthScanDirection < 0 then
        radar.enforceLeft (normalized azimuth) (radar.offsetAzimuth (normalized azimuth))
      else radar.enforceRight (normalized azimuth) (radar.offsetAzimuth (normalized azimuth))) =
        (result, scanDirection forward)) :
    radar.enforced azimuth = radar.facing (normalized result) forward := by
  have record : radar.enforced azimuth =
      let pair := if radar.azimuthScanDirection < 0 then
        radar.enforceLeft (normalized azimuth) (radar.offsetAzimuth (normalized azimuth))
      else radar.enforceRight (normalized azimuth) (radar.offsetAzimuth (normalized azimuth))
      { radar with azimuth := normalized pair.1, azimuthScanDirection := pair.2 } := rfl
  rw [record, enforces]
  rfl

section Right

variable (limited : radar.Limited) (scans : radar.azimuthScanDirection = scanDirection true)
  {azimuth : ℚ}

include limited scans

theorem enforced_right_over (beyond : radar.width < radar.offsetAzimuth (normalized azimuth)) :
    radar.enforced azimuth =
      radar.facing (normalized (radar.azimuthMax -
        (radar.offsetAzimuth (normalized azimuth) - radar.width))) false := by
  have right : ¬ scanDirection true < 0 := by decide
  apply enforced_eq
  rw [scans, if_neg right, enforceRight, limited.azMaxNorm_eq, if_pos beyond, scans,
    reverseScan_scanDirection]
  rfl

theorem enforced_right_within (within : radar.offsetAzimuth (normalized azimuth) ≤ radar.width) :
    radar.enforced azimuth = radar.facing (normalized (normalized azimuth)) true := by
  have right : ¬ scanDirection true < 0 := by decide
  apply enforced_eq
  rw [scans, if_neg right, enforceRight, limited.azMaxNorm_eq, if_neg (not_lt.mpr within), scans]

end Right

section Left

variable (limited : radar.Limited) (scans : radar.azimuthScanDirection = scanDirection false)
  {azimuth : ℚ}

include limited scans

theorem enforced_left_below (below : radar.offsetAzimuth (normalized azimuth) < 0) :
    radar.enforced azimuth =
      radar.facing (normalized (radar.azimuthMin +
        |radar.offsetAzimuth (normalized azimuth)|)) true := by
  have left : scanDirection false < 0 := by decide
  have under : ¬ radar.width < radar.offsetAzimuth (normalized azimuth) := by
    linarith [limited.width_pos]
  apply enforced_eq
  rw [scans, if_pos left, enforceLeft, limited.minNorm, if_pos below, limited.azMaxNorm_eq,
    scans, reverseScan_scanDirection]
  exact if_neg under

theorem enforced_left_over (beyond : radar.width < radar.offsetAzimuth (normalized azimuth)) :
    radar.enforced azimuth =
      radar.facing (normalized (radar.azimuthMin +
        (360 - radar.offsetAzimuth (normalized azimuth)))) true := by
  have left : scanDirection false < 0 := by decide
  have above : ¬ radar.offsetAzimuth (normalized azimuth) < 0 := by
    linarith [limited.width_pos]
  apply enforced_eq
  rw [scans, if_pos left, enforceLeft, limited.minNorm, if_neg above, limited.azMaxNorm_eq,
    scans]
  dsimp only
  rw [if_pos beyond, reverseScan_scanDirection]
  rfl

theorem enforced_left_within (above : 0 ≤ radar.offsetAzimuth (normalized azimuth))
    (within : radar.offsetAzimuth (normalized azimuth) ≤ radar.width) :
    radar.enforced azimuth = radar.facing (normalized (normalized azimuth)) false := by
  have left : scanDirection false < 0 := by decide
  apply enforced_eq
  rw [scans, if_pos left, enforceLeft, limited.minNorm, if_neg (not_lt.mpr above),
    limited.azMaxNorm_eq, scans]
  exact if_neg (not_lt.mpr within)

end Left

/-- Where a turn from an azimuth into the sector leads to. -/
theorem follows_facing (limited : radar.Limited) {azimuth : ℚ} (turn : ℚ) (forward : Bool)
    (nonneg : 0 ≤ azimuth) (less : azimuth < 360) (left : -360 ≤ turn) (right : turn < 360)
    (after : 0 ≤ clockwise radar.azimuthMin azimuth + turn)
    (before : clockwise radar.azimuthMin azimuth + turn < 360) :
    Follows (radar.facing (normalized (azimuth + turn)) forward)
      ⟨clockwise radar.azimuthMin azimuth + turn, forward⟩ := by
  refine ⟨normalized_nonneg (by linarith), normalized_lt (by linarith), ?_, rfl⟩
  refine (clockwise_normalized _ limited.min_nonneg limited.min_lt nonneg left right).trans ?_
  exact normalized_of_lt after before

section Step

variable (limited : radar.Limited) (sector : radar.InSector) (nonneg : 0 ≤ step)
  (short : step ≤ radar.width)

include limited sector nonneg short

theorem follows_right (scans : radar.azimuthScanDirection = scanDirection true)
    (sound : radar.SoundRight step) :
    Follows (radar.enforced (radar.azimuth + step))
      (Sweep.advance 0 radar.width step ⟨radar.distance, true⟩) := by
  have below := limited.width_lt
  have apart := distance_nonneg limited sector.nonneg
  have less : step < 360 := by linarith
  have angle := sector.offsetAzimuth_right limited nonneg less sound
  rcases lt_or_ge radar.width (radar.distance + step) with beyond | under
  · rw [enforced_right_over limited scans (by rwa [angle]), angle, sub_eq_add_neg,
      Sweep.advance_of_above beyond, sub_eq_add_neg radar.width]
    exact follows_facing limited _ false limited.max_nonneg limited.max_lt
      (by linarith [sector.inside]) (by linarith)
      (by change 0 ≤ radar.width + _; linarith [sector.inside])
      (by change radar.width + _ < 360; linarith)
  · have again : normalized (normalized (radar.azimuth + step)) =
        normalized (radar.azimuth + step) :=
      normalized_normalized (by linarith [sector.nonneg]) (by linarith [sector.less])
    rw [enforced_right_within limited scans (by rwa [angle]), again,
      Sweep.advance_of_within (add_nonneg apart nonneg) under]
    exact follows_facing limited _ true sector.nonneg sector.less (by linarith) less
      (add_nonneg apart nonneg) (lt_of_le_of_lt under below)

/-- A step to the right that comes round is not reflected. -/
theorem follows_right_iff (scans : radar.azimuthScanDirection = scanDirection true) :
    Follows (radar.enforced (radar.azimuth + step))
      (Sweep.advance 0 radar.width step ⟨radar.distance, true⟩) ↔ radar.SoundRight step := by
  constructor
  · intro follows
    by_contra unsound
    have below := limited.width_lt
    obtain ⟨angle, beyond⟩ := sector.offsetAzimuth_right_unsound limited nonneg
      (lt_of_le_of_lt short below) unsound
    have within : radar.offsetAzimuth (normalized (radar.azimuth + step)) ≤ radar.width := by
      linarith [sector.inside]
    rw [enforced_right_within limited scans within, Sweep.advance_of_above beyond] at follows
    exact not_follows_of_reversed true rfl rfl follows
  · exact follows_right limited sector nonneg short scans

theorem follows_left (scans : radar.azimuthScanDirection = scanDirection false)
    (sound : radar.SoundLeft step) :
    Follows (radar.enforced (radar.azimuth - step))
      (Sweep.advance 0 radar.width step ⟨radar.distance, false⟩) := by
  have below := limited.width_lt
  have apart := distance_nonneg limited sector.nonneg
  have inside := sector.inside
  have less : step < 360 := by linarith
  rcases lt_or_ge radar.distance step with beyond | under
  · -- Both tests against the lower limit reflect the overshoot in the same way.
    have reflected : radar.enforced (radar.azimuth - step) =
        radar.facing (normalized (radar.azimuthMin + (step - radar.distance))) true := by
      rcases sector.offsetAzimuth_left_over limited less beyond with ⟨angle, -⟩ | angle
      · have neg : radar.distance - step < 0 := by linarith
        rw [enforced_left_below limited scans (by rwa [angle]), angle, abs_of_neg neg, neg_sub]
      · have above : radar.width < radar.distance - step + 360 := by
          unfold SoundLeft at sound
          linarith
        rw [enforced_left_over limited scans (by rwa [angle]), angle]
        congr 3
        ring
    have follows := follows_facing limited (step - radar.distance) true limited.min_nonneg
      limited.min_lt (by linarith) (by linarith)
      (by rw [clockwise_self]; linarith) (by rw [clockwise_self]; linarith)
    have target : Sweep.target ⟨radar.distance, false⟩ step < 0 := sub_neg.mpr beyond
    rw [clockwise_self] at follows
    rw [reflected, Sweep.advance_of_below limited.width_pos.le target, zero_sub]
    change Follows _ ⟨0 + -(radar.distance - step), true⟩
    rwa [neg_sub]
  · have angle := sector.offsetAzimuth_left limited nonneg less under
    have again : normalized (normalized (radar.azimuth - step)) =
        normalized (radar.azimuth - step) :=
      normalized_normalized (by linarith [sector.nonneg]) (by linarith [sector.less])
    rw [enforced_left_within limited scans (by linarith) (by linarith), again, sub_eq_add_neg,
      Sweep.advance_of_within (sub_nonneg.mpr under)
        (by change radar.distance - step ≤ _; linarith)]
    change Follows _ ⟨radar.distance - step, false⟩
    rw [sub_eq_add_neg]
    exact follows_facing limited _ false sector.nonneg sector.less (by linarith) (by linarith)
      (by change 0 ≤ radar.distance + _; linarith) (by change radar.distance + _ < 360; linarith)

/-- A step to the left that comes round is not reflected. -/
theorem follows_left_iff (scans : radar.azimuthScanDirection = scanDirection false) :
    Follows (radar.enforced (radar.azimuth - step))
      (Sweep.advance 0 radar.width step ⟨radar.distance, false⟩) ↔ radar.SoundLeft step := by
  constructor
  · intro follows
    by_contra unsound
    have below := limited.width_lt
    have apart := distance_nonneg limited sector.nonneg
    have far : 360 - radar.width ≤ step - radar.distance := not_lt.mp unsound
    have beyond : radar.distance < step := by linarith
    have angle : radar.offsetAzimuth (normalized (radar.azimuth - step)) =
        radar.distance - step + 360 := by
      rcases sector.offsetAzimuth_left_over limited (by linarith) beyond with ⟨-, near⟩ | angle
      · linarith
      · exact angle
    have target : Sweep.target ⟨radar.distance, false⟩ step < 0 := sub_neg.mpr beyond
    rw [enforced_left_within limited scans (by linarith) (by linarith),
      Sweep.advance_of_below limited.width_pos.le target] at follows
    exact not_follows_of_reversed false rfl rfl follows
  · exact follows_left limited sector nonneg short scans

end Step

/-! ## One step of the elevation -/

/-- The elevation is where a sweep of the band is. -/
structure FollowsElevation (radar : Radar) (sweep : Sweep ℚ) : Prop where
  position : radar.elevation = sweep.position
  direction : radar.elevationScanDirection = scanDirection sweep.forward

/-- The radar at an elevation, scanning in a direction. -/
def raised (radar : Radar) (elevation : ℚ) (upward : Bool) : Radar :=
  { radar with elevation := elevation, elevationScanDirection := scanDirection upward }

theorem follows_raised {elevation : ℚ} {upward : Bool} {sweep : Sweep ℚ} :
    (radar.raised elevation upward).Follows sweep ↔ radar.Follows sweep := by
  constructor
  · rintro ⟨nonneg, less, position, direction⟩
    exact ⟨nonneg, less, position, direction⟩
  · rintro ⟨nonneg, less, position, direction⟩
    exact ⟨nonneg, less, position, direction⟩

/-- The enforcer for the elevation reflects what it should. -/
theorem elevationRangeEnforcer_eq {elevation : ℚ} {sweep : Sweep ℚ}
    (low : radar.elevationMin ≤ sweep.position) (high : sweep.position ≤ radar.elevationMax)
    (nonneg : 0 ≤ step) (short : step ≤ radar.elevationMax - radar.elevationMin)
    (scans : radar.elevationScanDirection = scanDirection sweep.forward)
    (reached : elevation = sweep.target step) :
    elevationRangeEnforcer { radar with elevation := elevation } =
      let next := sweep.advance radar.elevationMin radar.elevationMax step
      radar.raised next.position next.forward := by
  have within : (sweep.advance radar.elevationMin radar.elevationMax step).Within
      radar.elevationMin radar.elevationMax :=
    Sweep.advance_within ⟨low, high⟩ nonneg short
  have ordered : radar.elevationMin ≤ radar.elevationMax := low.trans high
  subst reached
  unfold elevationRangeEnforcer
  rcases lt_or_ge radar.elevationMax (sweep.target step) with above | below
  · rw [Sweep.advance_of_above above] at within ⊢
    dsimp only
    rw [if_pos above]
    dsimp only
    rw [if_neg (not_lt.mpr within.1), scans, reverseScan_scanDirection]
    rfl
  · dsimp only
    rw [if_neg (not_lt.mpr below)]
    dsimp only
    rcases lt_or_ge (sweep.target step) radar.elevationMin with under | inside
    · rw [if_pos under, Sweep.advance_of_below ordered under, scans, reverseScan_scanDirection]
      rfl
    · rw [if_neg (not_lt.mpr inside), Sweep.advance_of_within inside below, scans]
      rfl

/-! ## One step of the radar -/

/-- A step that does not come round to the sector again. -/
def SoundStep (radar : Radar) (deltaTime : ℚ) : Prop :=
  if radar.azimuthScanDirection < 0 then radar.SoundLeft (radar.azimuthRate * deltaTime)
  else radar.SoundRight (radar.azimuthRate * deltaTime)

instance (radar : Radar) (step : ℚ) : Decidable (radar.SoundRight step) :=
  inferInstanceAs (Decidable (if radar.azimuthMin < radar.azimuthMax then
    radar.azimuth + step < 360 else radar.distance + step < 360))

instance (radar : Radar) (step : ℚ) : Decidable (radar.SoundLeft step) :=
  inferInstanceAs (Decidable (step - radar.distance < 360 - radar.width))

instance (radar : Radar) (deltaTime : ℚ) : Decidable (radar.SoundStep deltaTime) :=
  inferInstanceAs (Decidable (if radar.azimuthScanDirection < 0 then
    radar.SoundLeft (radar.azimuthRate * deltaTime)
    else radar.SoundRight (radar.azimuthRate * deltaTime)))

theorem advanceTime_eq (radar : Radar) (deltaTime : ℚ) :
    radar.advanceTime deltaTime =
      let turned := radar.enforced
        (radar.azimuth + radar.azimuthRate * deltaTime * radar.azimuthScanDirection)
      elevationRangeEnforcer { turned with
        elevation :=
          turned.elevation + turned.elevationRate * deltaTime * turned.elevationScanDirection } :=
  rfl

theorem target_eq (sweep : Sweep ℚ) (step : ℚ) :
    sweep.position + step * scanDirection sweep.forward = sweep.target step := by
  obtain ⟨position, forward⟩ := sweep
  cases forward with
  | false =>
      change position + step * -1 = position - step
      ring
  | true =>
      change position + step * 1 = position + step
      ring

/-- The azimuth of a step, and then the elevation. -/
def stepped (radar : Radar) (deltaTime : ℚ) (elevations : Sweep ℚ) : Radar :=
  (radar.enforced (radar.azimuth +
    radar.azimuthRate * deltaTime * radar.azimuthScanDirection)).raised
      elevations.position elevations.forward

theorem advanceTime_eq_stepped {elevations : Sweep ℚ} {deltaTime : ℚ}
    (follows : radar.FollowsElevation elevations)
    (within : elevations.Within radar.elevationMin radar.elevationMax)
    (nonneg : 0 ≤ radar.elevationRate * deltaTime)
    (short : radar.elevationRate * deltaTime ≤ radar.elevationMax - radar.elevationMin) :
    radar.advanceTime deltaTime =
      radar.stepped deltaTime (elevations.advance radar.elevationMin radar.elevationMax
        (radar.elevationRate * deltaTime)) := by
  have reached : radar.elevation +
      radar.elevationRate * deltaTime * radar.elevationScanDirection =
        elevations.target (radar.elevationRate * deltaTime) := by
    rw [follows.position, follows.direction, target_eq]
  rw [advanceTime_eq]
  exact elevationRangeEnforcer_eq within.1 within.2 nonneg short follows.direction reached

theorem Limited.stepped (limited : radar.Limited) (deltaTime : ℚ) (elevations : Sweep ℚ) :
    (radar.stepped deltaTime elevations).Limited where
  min_nonneg := limited.min_nonneg
  min_lt := limited.min_lt
  max_nonneg := limited.max_nonneg
  max_lt := limited.max_lt
  apart := limited.apart
  elevation_le := limited.elevation_le
  offset := limited.offset
  minNorm := limited.minNorm
  maxNorm := limited.maxNorm

/-- A step follows the sweep of the sector exactly if it does not come round. -/
theorem follows_stepped_iff {azimuths elevations : Sweep ℚ} {deltaTime : ℚ}
    (limited : radar.Limited) (sector : radar.InSector) (follows : radar.Follows azimuths)
    (nonneg : 0 ≤ radar.azimuthRate * deltaTime)
    (short : radar.azimuthRate * deltaTime ≤ radar.width) :
    (radar.stepped deltaTime elevations).Follows
        (azimuths.advance 0 radar.width (radar.azimuthRate * deltaTime)) ↔
      radar.SoundStep deltaTime := by
  obtain ⟨position, forward⟩ := azimuths
  obtain rfl : radar.distance = position := follows.position
  have scans : radar.azimuthScanDirection = scanDirection forward := follows.direction
  unfold SoundStep stepped
  rw [follows_raised, scans, target_eq ⟨radar.azimuth, forward⟩]
  cases forward with
  | false =>
      have left : scanDirection false < 0 := by decide
      rw [if_pos left]
      exact follows_left_iff limited sector nonneg short scans
  | true =>
      have right : ¬ scanDirection true < 0 := by decide
      rw [if_neg right]
      exact follows_right_iff limited sector nonneg short scans

end Radar

/-- A radar together with the sweeps that its azimuth and its elevation should make. -/
structure Scan where
  radar : Radar
  azimuths : Sweep ℚ
  elevations : Sweep ℚ

namespace Scan

/-- Steps that are no longer than the sector is wide and the band is high. -/
def system : System Scan ℚ where
  step scan deltaTime :=
    { radar := scan.radar.advanceTime deltaTime
      azimuths := scan.azimuths.advance 0 scan.radar.width (scan.radar.azimuthRate * deltaTime)
      elevations := scan.elevations.advance scan.radar.elevationMin scan.radar.elevationMax
        (scan.radar.elevationRate * deltaTime) }
  guard scan deltaTime :=
    (0 ≤ scan.radar.azimuthRate * deltaTime ∧
      scan.radar.azimuthRate * deltaTime ≤ scan.radar.width) ∧
    0 ≤ scan.radar.elevationRate * deltaTime ∧
      scan.radar.elevationRate * deltaTime ≤ scan.radar.elevationMax - scan.radar.elevationMin

instance (scan : Scan) (deltaTime : ℚ) : Decidable (system.guard scan deltaTime) :=
  inferInstanceAs (Decidable ((_ ∧ _) ∧ _ ∧ _))

/-- A new radar looks at the middle of its sector and of its band, and scans to the right and
upwards. -/
def start (rangeArray : ℚ × ℚ) (azimuthArray elevationArray : ScanArray) : Scan where
  radar := Radar.scanning rangeArray azimuthArray elevationArray
  azimuths := ⟨clockwise azimuthArray.min azimuthArray.max / 2, true⟩
  elevations := ⟨elevationArray.min + (elevationArray.max - elevationArray.min) / 2, true⟩

/-- The radar is in the circle, in its sector and in its band, and where the sweeps are. -/
structure OnCourse (scan : Scan) : Prop where
  inSector : scan.radar.InSector
  elevation_ge : scan.radar.elevationMin ≤ scan.radar.elevation
  elevation_le : scan.radar.elevation ≤ scan.radar.elevationMax
  follows : scan.radar.Follows scan.azimuths
  followsElevation : scan.radar.FollowsElevation scan.elevations

/-- What every step keeps. -/
structure Inv (scan : Scan) : Prop where
  limited : scan.radar.Limited
  azimuths : scan.azimuths.Within 0 scan.radar.width
  elevations : scan.elevations.Within scan.radar.elevationMin scan.radar.elevationMax
  followsElevation : scan.radar.FollowsElevation scan.elevations

theorem Inv.step_eq {scan : Scan} (inv : scan.Inv) {deltaTime : ℚ}
    (guarded : system.guard scan deltaTime) :
    (system.step scan deltaTime).radar =
      scan.radar.stepped deltaTime (system.step scan deltaTime).elevations :=
  Radar.advanceTime_eq_stepped inv.followsElevation inv.elevations guarded.2.1 guarded.2.2

theorem Inv.step {scan : Scan} (inv : scan.Inv) {deltaTime : ℚ}
    (guarded : system.guard scan deltaTime) : (system.step scan deltaTime).Inv := by
  have radar := inv.step_eq guarded
  have azimuths := Sweep.advance_within inv.azimuths guarded.1.1
    (guarded.1.2.trans_eq (sub_zero _).symm)
  have elevations := Sweep.advance_within inv.elevations guarded.2.1 guarded.2.2
  refine ⟨?_, ?_, ?_, ?_⟩
  · rw [radar]
    exact inv.limited.stepped _ _
  · rw [radar]
    exact azimuths
  · rw [radar]
    exact elevations
  · rw [radar]
    exact ⟨rfl, rfl⟩

theorem Inv.onCourse_iff {scan : Scan} (inv : scan.Inv) :
    scan.OnCourse ↔ scan.radar.Follows scan.azimuths := by
  constructor
  · exact OnCourse.follows
  · intro follows
    have inside := inv.azimuths.2
    rw [← follows.position] at inside
    have elevation := inv.followsElevation.position
    refine ⟨⟨follows.nonneg, follows.less, inside⟩, ?_, ?_, follows, inv.followsElevation⟩
    · rw [elevation]
      exact inv.elevations.1
    · rw [elevation]
      exact inv.elevations.2

theorem onCourse_step_iff {scan : Scan} (inv : scan.Inv) (onCourse : scan.OnCourse)
    {deltaTime : ℚ} (guarded : system.guard scan deltaTime) :
    (system.step scan deltaTime).OnCourse ↔ scan.radar.SoundStep deltaTime := by
  rw [(inv.step guarded).onCourse_iff, inv.step_eq guarded]
  exact Radar.follows_stepped_iff inv.limited onCourse.inSector onCourse.follows guarded.1.1
    guarded.1.2

end Scan

/-- Two different azimuths in the circle. -/
structure ScanArray.InCircle (array : ScanArray) : Prop where
  min_nonneg : 0 ≤ array.min
  min_lt : array.min < 360
  max_nonneg : 0 ≤ array.max
  max_lt : array.max < 360
  apart : array.min ≠ array.max

namespace Scan

section

variable (rangeArray : ℚ × ℚ) {azimuthArray elevationArray : ScanArray}
  (inCircle : azimuthArray.InCircle) (ordered : elevationArray.min ≤ elevationArray.max)

include inCircle ordered

theorem start_limited : (start rangeArray azimuthArray elevationArray).radar.Limited :=
  ⟨inCircle.min_nonneg, inCircle.min_lt, inCircle.max_nonneg, inCircle.max_lt, inCircle.apart,
    ordered, rfl, rfl, rfl⟩

/-- A new radar is in the middle of its sector. -/
theorem start_follows : (start rangeArray azimuthArray elevationArray).radar.Follows
    (start rangeArray azimuthArray elevationArray).azimuths := by
  have limited := start_limited rangeArray inCircle ordered
  have wide : 0 < clockwise azimuthArray.min azimuthArray.max := limited.width_pos
  have narrow : clockwise azimuthArray.min azimuthArray.max < 360 := limited.width_lt
  obtain ⟨low, below, high, above, apart⟩ := inCircle
  have azimuth : (start rangeArray azimuthArray elevationArray).radar.azimuth =
      normalized (azimuthArray.min + clockwise azimuthArray.min azimuthArray.max / 2) := by
    unfold start Radar.scanning Radar.reset clockwise normalized
    dsimp only
    rw [if_neg apart]
    split_ifs <;> linarith
  refine ⟨?_, ?_, ?_, rfl⟩
  · rw [azimuth]
    exact normalized_nonneg (by linarith)
  · rw [azimuth]
    exact normalized_lt (by linarith)
  · have turned := clockwise_normalized (clockwise azimuthArray.min azimuthArray.max / 2)
      low below low (by linarith) (by linarith)
    rw [clockwise_self, zero_add] at turned
    unfold Radar.distance
    rw [azimuth]
    exact turned.trans (normalized_of_lt (by linarith) (by linarith))

theorem start_inv : (start rangeArray azimuthArray elevationArray).Inv := by
  have limited := start_limited rangeArray inCircle ordered
  have wide : 0 < clockwise azimuthArray.min azimuthArray.max := limited.width_pos
  refine ⟨limited, ⟨?_, ?_⟩, ⟨?_, ?_⟩, ⟨rfl, rfl⟩⟩
  · change 0 ≤ clockwise azimuthArray.min azimuthArray.max / 2
    linarith
  · change clockwise azimuthArray.min azimuthArray.max / 2 ≤
      clockwise azimuthArray.min azimuthArray.max
    linarith
  · change elevationArray.min ≤
      elevationArray.min + (elevationArray.max - elevationArray.min) / 2
    linarith
  · change elevationArray.min + (elevationArray.max - elevationArray.min) / 2 ≤
      elevationArray.max
    linarith

end

/-- A scanning radar sweeps its sector and its band in every state of a run exactly if no step of
the run comes round to the sector again. -/
theorem sweeps_sector_iff (rangeArray : ℚ × ℚ) (azimuthArray elevationArray : ScanArray)
    (inCircle : azimuthArray.InCircle) (ordered : elevationArray.min ≤ elevationArray.max)
    (times : List ℚ)
    (admitted : system.Admits (start rangeArray azimuthArray elevationArray) times) :
    system.Throughout OnCourse (start rangeArray azimuthArray elevationArray) times ↔
      (system.restrict fun scan deltaTime => scan.radar.SoundStep deltaTime).Admits
        (start rangeArray azimuthArray elevationArray) times := by
  have inv := start_inv rangeArray inCircle ordered
  have onCourse := inv.onCourse_iff.mpr (start_follows rangeArray inCircle ordered)
  exact system.throughout_iff_restrict_of_invariant Inv
    (fun _ _ inv guarded => inv.step guarded)
    (fun _ _ inv onCourse guarded => onCourse_step_iff inv onCourse guarded) inv onCourse admitted

theorem sweeps_sector_default :
    system.Throughout OnCourse
      (start Radar.defaultRange Radar.defaultAzimuth Radar.defaultElevation) [1, 2, 1] := by
  refine (sweeps_sector_iff Radar.defaultRange Radar.defaultAzimuth Radar.defaultElevation
    ?_ ?_ [1, 2, 1] ?_).mpr ?_
  · exact ⟨by decide, by decide, by decide, by decide, by decide⟩
  · decide
  · decide +kernel
  · decide +kernel

/-- A sector up to 350 degrees, and steps of 100 degrees. -/
def towardsNorth : ScanArray := ⟨200, 350, 10, 100⟩

/-- The first step of a radar goes across the limit and across north, and leaves the sector. -/
theorem not_sweeps_sector :
    ¬ ∀ (rangeArray : ℚ × ℚ) (azimuthArray elevationArray : ScanArray) (times : List ℚ),
      azimuthArray.InCircle → elevationArray.min ≤ elevationArray.max →
      system.Admits (start rangeArray azimuthArray elevationArray) times →
      system.Throughout OnCourse (start rangeArray azimuthArray elevationArray) times := by
  intro sweeps
  have circle : towardsNorth.InCircle :=
    ⟨by decide, by decide, by decide, by decide, by decide⟩
  have onCourse := sweeps Radar.defaultRange towardsNorth Radar.defaultElevation [1] circle
    (by decide) (by decide +kernel)
  have inside := onCourse.2.inSector.inside
  exact absurd inside (by decide +kernel)

end Scan

end Nise.RubyModels
