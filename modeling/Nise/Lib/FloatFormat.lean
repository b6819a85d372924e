import Mathlib.Data.Nat.Log
import Mathlib.Data.Nat.ModEq
import Mathlib.Algebra.Order.Ring.Nat
import Mathlib.Tactic.Ring

/-!
# Binary floating point formats

A format has some bits for a biased exponent and some for a fraction.  A datum of a format is
its bit pattern, in three parts: the largest exponent is that of the infinities and of what is
not a number, and the exponent zero that of the zeros and the subnormal numbers.  Every datum
of a narrow format is one of a wide format too, and narrowing that one gives the first one
back, except that a signalling datum becomes a quiet one.
-/

namespace Nise.Lib

/-- A number over a power of two, rounded to the nearest number and to the even one of two. -/
def roundToEven (number shift : Nat) : Nat :=
  let floor := number / 2 ^ shift
  let rest := number % 2 ^ shift
  if 2 ^ shift < 2 * rest ∨ 2 * rest = 2 ^ shift ∧ floor % 2 = 1 then floor + 1 else floor

/-- A multiple is not rounded. -/
theorem roundToEven_mul (number shift : Nat) : roundToEven (number * 2 ^ shift) shift = number := by
  have positive : 0 < 2 ^ shift := Nat.two_pow_pos shift
  have exact : ¬ (2 ^ shift < 2 * (number * 2 ^ shift % 2 ^ shift) ∨
      2 * (number * 2 ^ shift % 2 ^ shift) = 2 ^ shift ∧
        number * 2 ^ shift / 2 ^ shift % 2 = 1) := by
    rw [Nat.mul_mod_left]
    omega
  unfold roundToEven
  rw [if_neg exact, Nat.mul_div_cancel _ positive]

structure FloatFormat where
  exponentBits : Nat
  fractionBits : Nat
  deriving DecidableEq, Repr

namespace FloatFormat

/-- The exponent of the infinities and of what is not a number. -/
def top (format : FloatFormat) : Nat := 2 ^ format.exponentBits - 1

def bias (format : FloatFormat) : Nat := 2 ^ (format.exponentBits - 1) - 1

/-- A fraction with its first bit set, which tells that it signals nothing. -/
def quiet (format : FloatFormat) (fraction : Nat) : Nat :=
  if fraction < 2 ^ (format.fractionBits - 1) then fraction + 2 ^ (format.fractionBits - 1)
  else fraction

/-- The difference of the biases of two formats. -/
def rebias (narrow wide : FloatFormat) : Nat := wide.bias - narrow.bias

/-- The wide format has more bits for the fraction, room for every exponent, and normal numbers
where the narrow format has subnormal ones. -/
structure Extends (narrow wide : FloatFormat) : Prop where
  fraction : narrow.fractionBits ≤ wide.fractionBits
  nonempty : 0 < narrow.fractionBits
  exponent : narrow.top + rebias narrow wide < wide.top
  subnormal : narrow.fractionBits ≤ rebias narrow wide

end FloatFormat

@[ext] structure FloatDatum (format : FloatFormat) where
  negative : Bool
  exponent : Fin (2 ^ format.exponentBits)
  fraction : Fin (2 ^ format.fractionBits)
  deriving DecidableEq, Repr

namespace FloatDatum

variable {format : FloatFormat}

/-- The datum of three parts, of which the bits behind their widths are cut off. -/
def ofParts (negative : Bool) (exponent fraction : Nat) : FloatDatum format where
  negative := negative
  exponent := ⟨exponent % 2 ^ format.exponentBits, Nat.mod_lt _ (Nat.two_pow_pos _)⟩
  fraction := ⟨fraction % 2 ^ format.fractionBits, Nat.mod_lt _ (Nat.two_pow_pos _)⟩

/-- The bit pattern: the sign, the exponent and the fraction. -/
def bits (datum : FloatDatum format) : Nat :=
  (datum.negative.toNat * 2 ^ format.exponentBits + datum.exponent) * 2 ^ format.fractionBits +
    datum.fraction

def ofBits (pattern : Nat) : FloatDatum format :=
  ofParts (pattern / 2 ^ format.fractionBits / 2 ^ format.exponentBits % 2 == 1)
    (pattern / 2 ^ format.fractionBits) pattern

theorem ofParts_self (datum : FloatDatum format) :
    ofParts datum.negative datum.exponent datum.fraction = datum := by
  ext
  · rfl
  · exact Nat.mod_eq_of_lt datum.exponent.isLt
  · exact Nat.mod_eq_of_lt datum.fraction.isLt

/-- Parts that fit are those of the datum. -/
theorem ofParts_fraction {fraction : Nat} (fits : fraction < 2 ^ format.fractionBits)
    (negative : Bool) (exponent : Nat) :
    (ofParts negative exponent fraction : FloatDatum format).fraction.val = fraction :=
  Nat.mod_eq_of_lt fits

theorem ofParts_exponent {exponent : Nat} (fits : exponent < 2 ^ format.exponentBits)
    (negative : Bool) (fraction : Nat) :
    (ofParts negative exponent fraction : FloatDatum format).exponent.val = exponent :=
  Nat.mod_eq_of_lt fits

theorem ofBits_bits (datum : FloatDatum format) : ofBits datum.bits = datum := by
  have fraction := datum.fraction.isLt
  have exponent := datum.exponent.isLt
  have positive : 0 < 2 ^ format.fractionBits := Nat.two_pow_pos _
  have high : datum.bits / 2 ^ format.fractionBits =
      datum.negative.toNat * 2 ^ format.exponentBits + datum.exponent := by
    unfold bits
    rw [Nat.add_comm, Nat.add_mul_div_right _ _ positive, Nat.div_eq_of_lt fraction, Nat.zero_add]
  have sign : datum.bits / 2 ^ format.fractionBits / 2 ^ format.exponentBits =
      datum.negative.toNat := by
    rw [high, Nat.add_comm, Nat.add_mul_div_right _ _ (Nat.two_pow_pos _),
      Nat.div_eq_of_lt exponent, Nat.zero_add]
  ext
  · unfold ofBits
    rw [sign]
    cases datum.negative <;> rfl
  · change datum.bits / 2 ^ format.fractionBits % 2 ^ format.exponentBits = datum.exponent
    rw [high, Nat.add_comm, Nat.add_mul_mod_self_right, Nat.mod_eq_of_lt exponent]
  · change datum.bits % 2 ^ format.fractionBits = datum.fraction
    unfold bits
    rw [Nat.add_comm, Nat.add_mul_mod_self_right, Nat.mod_eq_of_lt fraction]

theorem bits_lt (datum : FloatDatum format) :
    datum.bits < 2 ^ (1 + format.exponentBits + format.fractionBits) := by
  have fraction := datum.fraction.isLt
  have exponent := datum.exponent.isLt
  have sign : datum.negative.toNat ≤ 1 := Bool.toNat_le _
  have high : datum.negative.toNat * 2 ^ format.exponentBits + datum.exponent + 1 ≤
      2 ^ (1 + format.exponentBits) := by
    have most := Nat.mul_le_mul_right (2 ^ format.exponentBits) sign
    rw [Nat.pow_add]
    omega
  calc datum.bits
      < (datum.negative.toNat * 2 ^ format.exponentBits + datum.exponent + 1) *
          2 ^ format.fractionBits := by
        unfold bits
        rw [Nat.add_mul _ 1]
        omega
    _ ≤ 2 ^ (1 + format.exponentBits) * 2 ^ format.fractionBits :=
        Nat.mul_le_mul_right _ high
    _ = 2 ^ (1 + format.exponentBits + format.fractionBits) := (Nat.pow_add ..).symm

/-- A datum that is not a number and has the first bit of its fraction clear. -/
def Signalling (datum : FloatDatum format) : Prop :=
  datum.exponent.val = format.top ∧ 0 < datum.fraction.val ∧
    datum.fraction.val < 2 ^ (format.fractionBits - 1)

/-! ## Other formats -/

variable {narrow wide : FloatFormat}

/-- The same number in a wide format: a subnormal number becomes a normal one. -/
def widen (datum : FloatDatum narrow) : FloatDatum wide :=
  let fraction := datum.fraction.val
  let gap := wide.fractionBits - narrow.fractionBits
  if datum.exponent.val = narrow.top then
    ofParts datum.negative wide.top
      (if fraction = 0 then 0 else wide.quiet (fraction * 2 ^ gap))
  else if datum.exponent.val = 0 then
    if fraction = 0 then ofParts datum.negative 0 0
    else
      ofParts datum.negative
        (fraction.log2 + FloatFormat.rebias narrow wide + 1 - narrow.fractionBits)
        ((fraction - 2 ^ fraction.log2) * 2 ^ (wide.fractionBits - fraction.log2))
  else
    ofParts datum.negative (datum.exponent + FloatFormat.rebias narrow wide)
      (fraction * 2 ^ gap)

/-- The nearest number of a narrow format; a large one becomes an infinity. -/
def narrowed (datum : FloatDatum wide) : FloatDatum narrow :=
  let fraction := datum.fraction.val
  let gap := wide.fractionBits - narrow.fractionBits
  if datum.exponent.val = wide.top then
    ofParts datum.negative narrow.top
      (if fraction = 0 then 0 else narrow.quiet (fraction / 2 ^ gap))
  else
    let mantissa := if datum.exponent.val = 0 then fraction else 2 ^ wide.fractionBits + fraction
    let exponent := max 1 datum.exponent.val
    let least := FloatFormat.rebias narrow wide + 1
    -- The exponent and the fraction as one number, so that a carry goes from one to the other.
    let magnitude :=
      if least ≤ exponent then
        (exponent - least) * 2 ^ narrow.fractionBits + roundToEven mantissa gap
      else roundToEven mantissa (gap + (least - exponent))
    if narrow.top * 2 ^ narrow.fractionBits ≤ magnitude then ofParts datum.negative narrow.top 0
    else ofParts datum.negative (magnitude / 2 ^ narrow.fractionBits) magnitude

theorem top_lt (format : FloatFormat) : format.top < 2 ^ format.exponentBits :=
  Nat.sub_lt (Nat.two_pow_pos _) Nat.one_pos

/-- A normal number that stays below the infinities. -/
theorem narrowed_normal {exponent fraction magnitude : Nat} (negative : Bool)
    (normal : 0 < exponent) (finite : exponent < wide.top)
    (fits : fraction < 2 ^ wide.fractionBits)
    (rounded : magnitude =
      if FloatFormat.rebias narrow wide + 1 ≤ exponent then
        (exponent - (FloatFormat.rebias narrow wide + 1)) * 2 ^ narrow.fractionBits +
          roundToEven (2 ^ wide.fractionBits + fraction)
            (wide.fractionBits - narrow.fractionBits)
      else
        roundToEven (2 ^ wide.fractionBits + fraction)
          (wide.fractionBits - narrow.fractionBits +
            (FloatFormat.rebias narrow wide + 1 - exponent)))
    (small : magnitude < narrow.top * 2 ^ narrow.fractionBits) :
    (ofParts negative exponent fraction : FloatDatum wide).narrowed =
      (ofParts negative (magnitude / 2 ^ narrow.fractionBits) magnitude : FloatDatum narrow) := by
  have bounded : exponent < 2 ^ wide.exponentBits := finite.trans (top_lt wide)
  have some : max 1 exponent = exponent := Nat.max_eq_right normal
  unfold narrowed
  simp only [ofParts_exponent bounded, ofParts_fraction fits]
  rw [if_neg (Nat.ne_of_lt finite), if_neg (Nat.ne_of_gt normal), some, ← rounded,
    if_neg (Nat.not_le.mpr small)]
  rfl

theorem narrowed_widen_top (extended : FloatFormat.Extends narrow wide)
    {datum : FloatDatum narrow} (top : datum.exponent.val = narrow.top)
    (quiet : ¬ datum.Signalling) : (datum.widen : FloatDatum wide).narrowed = datum := by
  obtain ⟨wider, nonempty, -, -⟩ := extended
  have product : 2 ^ narrow.fractionBits * 2 ^ (wide.fractionBits - narrow.fractionBits) =
      2 ^ wide.fractionBits := by
    rw [← Nat.pow_add, Nat.add_sub_cancel' wider]
  have half : 2 ^ (narrow.fractionBits - 1) * 2 ^ (wide.fractionBits - narrow.fractionBits) =
      2 ^ (wide.fractionBits - 1) := by
    rw [← Nat.pow_add]
    exact congrArg _ (by omega)
  have positive : 0 < 2 ^ (wide.fractionBits - narrow.fractionBits) := Nat.two_pow_pos _
  have widened : ∀ fraction, fraction < 2 ^ wide.fractionBits →
      (ofParts datum.negative wide.top fraction : FloatDatum wide).narrowed =
        (ofParts datum.negative narrow.top (if fraction = 0 then 0 else
          narrow.quiet (fraction / 2 ^ (wide.fractionBits - narrow.fractionBits))) :
          FloatDatum narrow) := by
    intro fraction fits
    unfold narrowed
    simp only [ofParts_exponent (top_lt wide), ofParts_fraction fits, if_true]
    rfl
  refine Eq.trans ?_ (ofParts_self datum)
  unfold widen
  dsimp only
  rw [if_pos top, top]
  by_cases zero : datum.fraction.val = 0
  · rw [if_pos zero, widened 0 (Nat.two_pow_pos _), if_pos rfl, zero]
  · have large : 2 ^ (narrow.fractionBits - 1) ≤ datum.fraction.val := by
      by_contra small
      exact quiet ⟨top, Nat.pos_of_ne_zero zero, Nat.lt_of_not_le small⟩
    have wideLarge := Nat.mul_le_mul_right
      (2 ^ (wide.fractionBits - narrow.fractionBits)) large
    have fits := Nat.mul_lt_mul_of_pos_right datum.fraction.isLt positive
    rw [half] at wideLarge
    rw [product] at fits
    have kept : wide.quiet
        (datum.fraction * 2 ^ (wide.fractionBits - narrow.fractionBits)) =
        datum.fraction * 2 ^ (wide.fractionBits - narrow.fractionBits) :=
      if_neg (Nat.not_lt.mpr wideLarge)
    have again : narrow.quiet datum.fraction = datum.fraction := if_neg (Nat.not_lt.mpr large)
    rw [if_neg zero, kept, widened _ fits, Nat.mul_div_cancel _ positive, again,
      if_neg (Nat.mul_pos (Nat.pos_of_ne_zero zero) positive).ne']

theorem narrowed_widen_subnormal (extended : FloatFormat.Extends narrow wide)
    {datum : FloatDatum narrow} (low : datum.exponent.val = 0) (finite : narrow.top ≠ 0) :
    (datum.widen : FloatDatum wide).narrowed = datum := by
  obtain ⟨wider, nonempty, room, normal⟩ := extended
  have below : ¬ datum.exponent.val = narrow.top := by omega
  refine Eq.trans ?_ (ofParts_self datum)
  unfold widen
  dsimp only
  rw [if_neg below, if_pos low, low]
  by_cases zero : datum.fraction.val = 0
  · have finiteWide : ¬ 0 = wide.top := by omega
    have least : ¬ FloatFormat.rebias narrow wide + 1 ≤ 1 := by omega
    have none : roundToEven 0 (wide.fractionBits - narrow.fractionBits +
        (FloatFormat.rebias narrow wide + 1 - 1)) = 0 := by
      have multiple := roundToEven_mul 0 (wide.fractionBits - narrow.fractionBits +
        (FloatFormat.rebias narrow wide + 1 - 1))
      rwa [Nat.zero_mul] at multiple
    have small : ¬ narrow.top * 2 ^ narrow.fractionBits ≤ 0 := by
      exact Nat.not_le.mpr (Nat.mul_pos (Nat.pos_of_ne_zero finite) (Nat.two_pow_pos _))
    rw [if_pos zero, zero]
    unfold narrowed
    simp only [ofParts_exponent (Nat.two_pow_pos _), ofParts_fraction (Nat.two_pow_pos _)]
    rw [if_neg finiteWide, if_pos trivial, Nat.max_eq_left (Nat.zero_le 1), if_neg least, none,
      if_neg small, Nat.zero_div]
    rfl
  · have high := Nat.log2_self_le zero
    have above : datum.fraction.val < 2 ^ (datum.fraction.val.log2 + 1) := Nat.lt_log2_self
    have short : datum.fraction.val.log2 < narrow.fractionBits :=
      (Nat.log2_lt zero).mpr datum.fraction.isLt
    have product : 2 ^ datum.fraction.val.log2 * 2 ^ (wide.fractionBits - datum.fraction.val.log2) =
        2 ^ wide.fractionBits := by
      rw [← Nat.pow_add, Nat.add_sub_cancel' (by omega)]
    have mantissa : 2 ^ wide.fractionBits +
        (datum.fraction.val - 2 ^ datum.fraction.val.log2) *
          2 ^ (wide.fractionBits - datum.fraction.val.log2) =
        datum.fraction.val * 2 ^ (wide.fractionBits - datum.fraction.val.log2) := by
      rw [← product, ← Nat.add_mul, Nat.add_sub_cancel' high]
    have fits : (datum.fraction.val - 2 ^ datum.fraction.val.log2) *
        2 ^ (wide.fractionBits - datum.fraction.val.log2) < 2 ^ wide.fractionBits := by
      rw [← product]
      refine Nat.mul_lt_mul_of_pos_right ?_ (Nat.two_pow_pos _)
      rw [Nat.pow_succ] at above
      omega
    have shift : wide.fractionBits - narrow.fractionBits +
        (FloatFormat.rebias narrow wide + 1 -
          (datum.fraction.val.log2 + FloatFormat.rebias narrow wide + 1 - narrow.fractionBits)) =
        wide.fractionBits - datum.fraction.val.log2 := by omega
    have small : datum.fraction.val < narrow.top * 2 ^ narrow.fractionBits :=
      datum.fraction.isLt.trans_le (Nat.le_mul_of_pos_left _ (Nat.pos_of_ne_zero finite))
    rw [if_neg zero, narrowed_normal datum.negative (by omega) (by omega) fits
      (by rw [if_neg (by omega), mantissa, shift, roundToEven_mul]) small,
      Nat.div_eq_of_lt datum.fraction.isLt]

theorem narrowed_widen_normal (extended : FloatFormat.Extends narrow wide)
    {datum : FloatDatum narrow} (normal : 0 < datum.exponent.val)
    (finite : datum.exponent.val < narrow.top) :
    (datum.widen : FloatDatum wide).narrowed = datum := by
  obtain ⟨wider, nonempty, room, -⟩ := extended
  have product : 2 ^ narrow.fractionBits * 2 ^ (wide.fractionBits - narrow.fractionBits) =
      2 ^ wide.fractionBits := by
    rw [← Nat.pow_add, Nat.add_sub_cancel' wider]
  have fits := Nat.mul_lt_mul_of_pos_right datum.fraction.isLt
    (Nat.two_pow_pos (wide.fractionBits - narrow.fractionBits))
  rw [product] at fits
  have rounded : roundToEven (2 ^ wide.fractionBits +
      datum.fraction * 2 ^ (wide.fractionBits - narrow.fractionBits))
        (wide.fractionBits - narrow.fractionBits) =
      2 ^ narrow.fractionBits + datum.fraction := by
    rw [← product, ← Nat.add_mul, roundToEven_mul]
  -- The first bit of the mantissa carries into the exponent.
  have magnitude : (datum.exponent + FloatFormat.rebias narrow wide -
      (FloatFormat.rebias narrow wide + 1)) * 2 ^ narrow.fractionBits +
        (2 ^ narrow.fractionBits + datum.fraction) =
      datum.exponent * 2 ^ narrow.fractionBits + datum.fraction := by
    have one : datum.exponent.val + FloatFormat.rebias narrow wide -
        (FloatFormat.rebias narrow wide + 1) + 1 = datum.exponent.val := by omega
    rw [← Nat.add_assoc, ← Nat.succ_mul, Nat.succ_eq_add_one, one]
  have small : datum.exponent.val * 2 ^ narrow.fractionBits + datum.fraction.val <
      narrow.top * 2 ^ narrow.fractionBits := by
    have next := Nat.mul_le_mul_right (2 ^ narrow.fractionBits) finite
    rw [Nat.succ_mul] at next
    exact (Nat.add_lt_add_left datum.fraction.isLt _).trans_le next
  refine Eq.trans ?_ (ofParts_self datum)
  unfold widen
  dsimp only
  rw [if_neg finite.ne, if_neg normal.ne', narrowed_normal datum.negative (by omega) (by omega)
    fits (by rw [if_pos (by omega), rounded, magnitude]) small]
  ext
  · rfl
  · change (datum.exponent.val * 2 ^ narrow.fractionBits + datum.fraction.val) /
      2 ^ narrow.fractionBits % 2 ^ narrow.exponentBits =
        datum.exponent.val % 2 ^ narrow.exponentBits
    rw [Nat.add_comm, Nat.add_mul_div_right _ _ (Nat.two_pow_pos _),
      Nat.div_eq_of_lt datum.fraction.isLt, Nat.zero_add]
  · change (datum.exponent.val * 2 ^ narrow.fractionBits + datum.fraction.val) %
      2 ^ narrow.fractionBits = datum.fraction.val % 2 ^ narrow.fractionBits
    rw [Nat.add_comm, Nat.add_mul_mod_self_right]

/-- Narrowing undoes widening. -/
theorem narrowed_widen (extended : FloatFormat.Extends narrow wide) {datum : FloatDatum narrow}
    (quiet : ¬ datum.Signalling) : (datum.widen : FloatDatum wide).narrowed = datum := by
  have most : datum.exponent.val ≤ narrow.top := Nat.le_sub_one_of_lt datum.exponent.isLt
  rcases Nat.eq_or_lt_of_le most with top | finite
  · exact narrowed_widen_top extended top quiet
  · rcases Nat.eq_zero_or_pos datum.exponent.val with low | normal
    · exact narrowed_widen_subnormal extended low (by omega)
    · exact narrowed_widen_normal extended normal finite

/-! ## Integers -/

/-- The integer part of a finite number. -/
def truncate (datum : FloatDatum format) : Option Int :=
  let mantissa := if datum.exponent.val = 0 then datum.fraction.val
    else 2 ^ format.fractionBits + datum.fraction.val
  let exponent := max 1 datum.exponent.val
  let unit := format.bias + format.fractionBits
  let magnitude :=
    if unit ≤ exponent then mantissa * 2 ^ (exponent - unit) else mantissa / 2 ^ (unit - exponent)
  if datum.exponent.val = format.top then none
  else some (if datum.negative then -(magnitude : Int) else magnitude)

/-- The nearest number to an integer. -/
def ofInteger (number : Int) : FloatDatum format :=
  let natural := number.natAbs
  let high := natural.log2
  let mantissa :=
    if high ≤ format.fractionBits then natural * 2 ^ (format.fractionBits - high)
    else roundToEven natural (high - format.fractionBits)
  let magnitude := (high + format.bias - 1) * 2 ^ format.fractionBits + mantissa
  if natural = 0 then ofParts false 0 0
  else if format.top * 2 ^ format.fractionBits ≤ magnitude then
    ofParts (number < 0) format.top 0
  else ofParts (number < 0) (magnitude / 2 ^ format.fractionBits) magnitude

end FloatDatum

end Nise.Lib
