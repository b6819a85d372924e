import Mathlib.Algebra.Order.Ring.Int
import Mathlib.Data.Rat.Floor
import Nise.Lib.Sweep

/-!
# Radars

A scanning radar sweeps an azimuth sector and an elevation band; a rotating one goes round, and
a staring one does not move.  All of them detect what is between two ranges and within the azimuth
limits.  Angles are in degrees, clockwise from north, and the arithmetic is exact.
-/

namespace Nise.RubyModels

/-- The limits of a scan, the width of the beam and the rate of the scan. -/
structure ScanArray where
  min : ℚ
  max : ℚ
  width : ℚ
  rate : ℚ
  deriving DecidableEq, Repr

structure Radar where
  active : Bool
  range : ℚ × ℚ
  rpm : ℚ
  azimuth : ℚ
  azimuthMin : ℚ
  azimuthMax : ℚ
  azimuthDelta : ℚ
  azimuthRate : ℚ
  azimuthScanDirection : ℚ
  normalizingOffset : ℚ
  azMinNorm : ℚ
  azMaxNorm : ℚ
  elevation : ℚ
  elevationMin : ℚ
  elevationMax : ℚ
  elevationDelta : ℚ
  elevationRate : ℚ
  elevationScanDirection : ℚ
  deriving DecidableEq, Repr

/-- The two lines that bring an angle that has just been left into the circle. -/
def normalized (angle : ℚ) : ℚ :=
  let angle := if angle < 0 then angle + 360 else angle
  if 360 ≤ angle then angle - 360 else angle

def reverseScan (aNum : ℚ) : ℚ := if aNum < 0 then 1 else -1

namespace Radar

def reset (radar : Radar) : Radar :=
  let d := radar.azimuthMax - radar.azimuthMin
  let azimuth :=
    if radar.azimuthMin = radar.azimuthMax then radar.azimuthMin
    else if 0 ≤ d then radar.azimuthMin + d / 2
    else radar.azimuthMin + (360 + d) / 2
  let normalizingOffset :=
    if radar.azimuthMin < radar.azimuthMax then 0 - radar.azimuthMin else 360 - radar.azimuthMin
  { radar with
    azimuth := if 360 ≤ azimuth then azimuth - 360 else azimuth
    azimuthScanDirection := 1
    elevationScanDirection := 1
    elevation := radar.elevationMin + (radar.elevationMax - radar.elevationMin) / 2
    normalizingOffset := normalizingOffset
    azMinNorm := 0
    azMaxNorm := radar.azimuthMax + normalizingOffset }

/-- A radar before its limits are set. -/
def blank : Radar := ⟨true, (0, 0), 0, 0, 0, 0, 0, 0, 0, 0, 0, 0, 0, 0, 0, 0, 0, 0⟩

/-- `Radar.new`, a scanning radar. -/
def scanning (rangeArray : ℚ × ℚ) (azimuthArray elevationArray : ScanArray) : Radar :=
  reset
    { blank with
      range := rangeArray
      azimuthMin := azimuthArray.min
      azimuthMax := azimuthArray.max
      azimuthDelta := azimuthArray.width / 2
      azimuthRate := azimuthArray.rate
      elevationMin := elevationArray.min
      elevationMax := elevationArray.max
      elevationDelta := elevationArray.width / 2
      elevationRate := elevationArray.rate }

/-- `RotatingRadar.new`. -/
def rotating (rangeArray : ℚ × ℚ) (revolutionsPerMinute azimuthWidth : ℚ)
    (elevationArray : ScanArray) : Radar :=
  reset
    { blank with
      range := rangeArray
      rpm := revolutionsPerMinute
      azimuthMin := 0
      azimuthMax := 360
      azimuthDelta := azimuthWidth / 2
      azimuthRate := 6 * revolutionsPerMinute
      elevationMin := elevationArray.min
      elevationMax := elevationArray.max
      elevationDelta := elevationArray.width / 2
      elevationRate := elevationArray.rate }

/-- `StaringRadar.new`, from a centre and an extent to either side and from an elevation and a
width. -/
def staring (rangeArray azimuthArray elevationArray : ℚ × ℚ) : Radar :=
  reset
    { blank with
      range := rangeArray
      azimuthMin := azimuthArray.1 - azimuthArray.2
      azimuthMax := azimuthArray.1 + azimuthArray.2
      azimuthDelta := azimuthArray.2
      azimuthRate := 0
      elevationMin := elevationArray.1
      elevationMax := elevationArray.1
      elevationDelta := elevationArray.2 / 2
      elevationRate := 0 }

/-- What the constructors take if nothing is given. -/
def defaultRange : ℚ × ℚ := (3000, 400000)

def defaultAzimuth : ScanArray := ⟨340, 55, 10, 30⟩

def defaultElevation : ScanArray := ⟨10, 65, 10, 10⟩

/-! ## Scanning -/

/-- The azimuth as it is compared with the limits: from `azimuth_min` on. -/
def offsetAzimuth (radar : Radar) (azimuth : ℚ) : ℚ :=
  let a := azimuth + radar.normalizingOffset
  if 360 ≤ a then a - 360 else a

/-- The azimuth and the scan direction behind the two tests against `azimuth_min`, for a radar
that scans to the left.  The second one is for an overshoot across north. -/
def enforceLeft (radar : Radar) (azimuth a : ℚ) : ℚ × ℚ :=
  let (azimuth, direction) :=
    if a < radar.azMinNorm then
      (radar.azimuthMin + |a|, reverseScan radar.azimuthScanDirection)
    else (azimuth, radar.azimuthScanDirection)
  if radar.azMaxNorm < a then (radar.azimuthMin + (360 - a), reverseScan direction)
  else (azimuth, direction)

/-- The same for a radar that scans to the right. -/
def enforceRight (radar : Radar) (azimuth a : ℚ) : ℚ × ℚ :=
  if radar.azMaxNorm < a then
    (radar.azimuthMax - (a - radar.azMaxNorm), reverseScan radar.azimuthScanDirection)
  else (azimuth, radar.azimuthScanDirection)

def azimuthRangeEnforcer (radar : Radar) : Radar :=
  let azimuth := normalized radar.azimuth
  let a := radar.offsetAzimuth azimuth
  let enforced :=
    if radar.azimuthScanDirection < 0 then radar.enforceLeft azimuth a
    else radar.enforceRight azimuth a
  { radar with azimuth := normalized enforced.1, azimuthScanDirection := enforced.2 }

def elevationRangeEnforcer (radar : Radar) : Radar :=
  let radar :=
    if radar.elevationMax < radar.elevation then
      { radar with
        elevation := radar.elevationMax - (radar.elevation - radar.elevationMax)
        elevationScanDirection := reverseScan radar.elevationScanDirection }
    else radar
  if radar.elevation < radar.elevationMin then
    { radar with
      elevation := radar.elevationMin + (radar.elevationMin - radar.elevation)
      elevationScanDirection := reverseScan radar.elevationScanDirection }
  else radar

/-- `advance_time` of a scanning radar. -/
def advanceTime (radar : Radar) (deltaTime : ℚ) : Radar :=
  let radar := azimuthRangeEnforcer
    { radar with
      azimuth := radar.azimuth + radar.azimuthRate * deltaTime * radar.azimuthScanDirection }
  elevationRangeEnforcer
    { radar with
      elevation :=
        radar.elevation + radar.elevationRate * deltaTime * radar.elevationScanDirection }

/-! ## Detecting -/

/-- A thing with a position, by its heading and its distance in meters from the radar. -/
structure Thing where
  heading : ℚ
  distance : ℚ
  deriving DecidableEq, Repr

def withinRange (radar : Radar) (thing : Thing) : Bool :=
  if thing.distance < radar.range.1 then false
  else if radar.range.2 < thing.distance then false
  else true

def withinAzimuth (radar : Radar) (thing : Thing) : Bool :=
  let heading := thing.heading
  let heading := if radar.azimuthMax < heading then heading - 360 else heading
  let heading := if heading < radar.azimuthMin then heading + 360 else heading
  radar.azimuthMin ≤ heading && heading ≤ radar.azimuthMax

def canDetect (radar : Radar) (threat : Thing) : Bool :=
  if !radar.active then false
  else if radar.withinAzimuth threat then radar.withinRange threat
  else false

end Radar

end Nise.RubyModels
