import Mathlib.Data.Rat.Cast.Lemmas
import Mathlib.Order.Bounds.Basic
import Nise.Lib.Statistics

/-!
# Statistics of the routing times

The object keeps the number of the samples, their sum and the sum of their squares, and the least
and the greatest one.  The number is an unsigned word, and `compute` takes it as a signed one.
Samples may be of any type that has an order and the operations, which need not obey any law.
-/

namespace Nise.Dispatcherd

open Nise.Lib

structure RouteTimeStats (Sample : Type) where
  deltaSum : Sample
  deltaSq : Sample
  deltaMin : Sample
  deltaMax : Sample
  count : UInt32
  deriving DecidableEq

/-- What `compute` returns, with the argument of the square root that is the deviation. -/
structure RouteTimes (Sample : Type) where
  count : Int32
  mean : Sample
  stddevOf : Option Sample
  deltaMin : Sample
  deltaMax : Sample
  deriving DecidableEq

namespace RouteTimeStats

section

variable {Sample : Type} [LinearOrder Sample] [Zero Sample] [OfNat Sample 3] [Add Sample]
  [Mul Sample]

/-- The object after `reset`, which sets all of its fields. -/
def reset : RouteTimeStats Sample where
  deltaSum := 0
  deltaSq := 0
  deltaMin := 3
  deltaMax := 0
  count := 0

def sample (stats : RouteTimeStats Sample) (delta : Sample) : RouteTimeStats Sample :=
  let extremes :=
    if 1 < stats.count then
      (if delta < stats.deltaMin then delta else stats.deltaMin,
        if stats.deltaMax < delta then delta else stats.deltaMax)
    else (delta, delta)
  { deltaSum := stats.deltaSum + delta
    deltaSq := stats.deltaSq + delta * delta
    deltaMin := extremes.1
    deltaMax := extremes.2
    count := stats.count + 1 }

def compute [Sub Sample] [Div Sample] [IntCast Sample] (stats : RouteTimeStats Sample) :
    RouteTimes Sample :=
  let theCount := stats.count.toInt32
  let count : Sample := ((stats.count.toNat : Int) : Sample)
  { count := theCount
    mean := if 2 < stats.count then stats.deltaSum / (theCount.toInt : Sample) else 0
    stddevOf :=
      if 2 < stats.count then
        some ((count * stats.deltaSq - stats.deltaSum * stats.deltaSum) /
          (theCount.toInt : Sample) / ((theCount - 1).toInt : Sample))
      else none
    deltaMin := stats.deltaMin
    deltaMax := stats.deltaMax }

/-- The object after `reset` and some samples. -/
def sampled (samples : List Sample) : RouteTimeStats Sample := samples.foldl sample reset

theorem sampled_concat (samples : List Sample) (delta : Sample) :
    sampled (samples ++ [delta]) = (sampled samples).sample delta := by
  unfold sampled
  rw [List.foldl_append]
  rfl

theorem count_sampled (samples : List Sample) :
    (sampled samples).count = UInt32.ofNat samples.length := by
  induction samples using List.reverseRecOn with
  | nil => rfl
  | append_singleton samples delta ih =>
      rw [sampled_concat, List.length_append, List.length_singleton, UInt32.ofNat_add, ← ih]
      rfl

theorem toNat_count_sampled (samples : List Sample) :
    (sampled samples).count.toNat = samples.length % 2 ^ 32 := by
  rw [count_sampled]
  exact UInt32.toNat_ofNat' ..

end

/-! ## The extremes -/

variable {Sample : Type}

/-- A sample is forgotten by a later one that is taken as the first or the second. -/
def Forgotten (length position : Nat) : Prop :=
  ∃ later, position < later ∧ later < length ∧ later % 2 ^ 32 ≤ 1

/-- The samples that have not been forgotten. -/
def Kept (samples : List Sample) : Set Sample :=
  {delta | ∃ position, samples[position]? = some delta ∧ ¬ Forgotten samples.length position}

theorem kept_subset (samples : List Sample) : Kept samples ⊆ {delta | delta ∈ samples} := by
  rintro delta ⟨position, there, -⟩
  exact List.mem_of_getElem? there

theorem getElem?_concat_iff {samples : List Sample} {delta other : Sample} {position : Nat} :
    (samples ++ [delta])[position]? = some other ↔
      samples[position]? = some other ∨ position = samples.length ∧ delta = other := by
  rcases Nat.lt_trichotomy position samples.length with before | rfl | behind
  · rw [List.getElem?_append_left before]
    exact (or_iff_left fun last => before.ne last.1).symm
  · simp
  · have outside : (samples ++ [delta]).length ≤ position := by
      rw [List.length_append, List.length_singleton]
      exact behind
    rw [List.getElem?_eq_none outside, List.getElem?_eq_none behind.le]
    exact (or_iff_left fun last => behind.ne' last.1).symm

theorem not_forgotten_last (length : Nat) : ¬ Forgotten (length + 1) length := by
  rintro ⟨later, behind, inside, -⟩
  omega

/-- A sample that is not taken as the first or the second makes none forgotten. -/
theorem forgotten_succ_iff {length : Nat} (later : 1 < length % 2 ^ 32) (position : Nat) :
    Forgotten (length + 1) position ↔ Forgotten length position := by
  constructor
  · rintro ⟨last, behind, inside, restarts⟩
    refine ⟨last, behind, ?_, restarts⟩
    rcases Nat.lt_succ_iff_lt_or_eq.mp inside with before | rfl
    · exact before
    · omega
  · rintro ⟨last, behind, inside, restarts⟩
    exact ⟨last, behind, by omega, restarts⟩

theorem mem_kept_concat {samples : List Sample} {delta other : Sample} :
    other ∈ Kept (samples ++ [delta]) ↔
      other = delta ∨ ∃ position, samples[position]? = some other ∧
        ¬ Forgotten (samples.length + 1) position := by
  unfold Kept
  rw [Set.mem_ofPred_eq, List.length_append, List.length_singleton]
  constructor
  · rintro ⟨position, there, kept⟩
    rcases getElem?_concat_iff.mp there with before | ⟨-, last⟩
    · exact Or.inr ⟨position, before, kept⟩
    · exact Or.inl last.symm
  · rintro (rfl | ⟨position, before, kept⟩)
    · exact ⟨samples.length, List.getElem?_concat_length .., not_forgotten_last samples.length⟩
    · exact ⟨position, getElem?_concat_iff.mpr (Or.inl before), kept⟩

theorem kept_concat_first {samples : List Sample} (first : samples.length % 2 ^ 32 ≤ 1)
    (delta : Sample) : Kept (samples ++ [delta]) = {delta} := by
  ext other
  rw [mem_kept_concat, Set.mem_singleton_iff]
  refine or_iff_left ?_
  rintro ⟨position, there, kept⟩
  obtain ⟨inside, -⟩ := List.getElem?_eq_some_iff.mp there
  exact kept ⟨samples.length, inside, Nat.lt_succ_self _, first⟩

theorem kept_concat_later {samples : List Sample} (later : 1 < samples.length % 2 ^ 32)
    (delta : Sample) : Kept (samples ++ [delta]) = insert delta (Kept samples) := by
  ext other
  rw [mem_kept_concat, Set.mem_insert_iff]
  simp only [forgotten_succ_iff later]
  rfl

variable [LinearOrder Sample]

/-- The extremes of a part are those of the whole if the rest is between elements of the part. -/
theorem extremes_iff_of_subset {part whole : Set Sample} {least greatest : Sample}
    (subset : part ⊆ whole) (low : IsLeast part least) (high : IsGreatest part greatest) :
    IsLeast whole least ∧ IsGreatest whole greatest ↔
      ∀ delta ∈ whole, (∃ other ∈ part, other ≤ delta) ∧ ∃ other ∈ part, delta ≤ other := by
  constructor
  · rintro ⟨least', greatest'⟩ delta member
    exact ⟨⟨least, low.1, least'.2 member⟩, greatest, high.1, greatest'.2 member⟩
  · intro between
    refine ⟨⟨subset low.1, ?_⟩, subset high.1, ?_⟩
    · intro delta member
      obtain ⟨⟨other, there, below⟩, -⟩ := between delta member
      exact (low.2 there).trans below
    · intro delta member
      obtain ⟨-, other, there, above⟩ := between delta member
      exact above.trans (high.2 there)

variable [Zero Sample] [OfNat Sample 3] [Add Sample] [Mul Sample]

/-- The extremes are those of the samples that have not been forgotten. -/
theorem extremes_sampled {samples : List Sample} (nonempty : samples ≠ []) :
    IsLeast (Kept samples) (sampled samples).deltaMin ∧
      IsGreatest (Kept samples) (sampled samples).deltaMax := by
  induction samples using List.reverseRecOn with
  | nil => exact absurd rfl nonempty
  | append_singleton samples delta ih =>
      have count : 1 < (sampled samples).count ↔ 1 < samples.length % 2 ^ 32 := by
        rw [UInt32.lt_iff_toNat_lt, toNat_count_sampled]
        rfl
      rw [sampled_concat, sample]
      dsimp only
      rcases Nat.lt_or_ge 1 (samples.length % 2 ^ 32) with later | first
      · have earlier : samples ≠ [] := by
          rintro rfl
          exact absurd later (by simp)
        rw [if_pos (count.mpr later), kept_concat_later later]
        dsimp only
        rw [← min_def_lt, ← max_def_lt, max_comm]
        exact ⟨(ih earlier).1.insert delta, (ih earlier).2.insert delta⟩
      · rw [if_neg (mt count.mp (not_lt.mpr first)), kept_concat_first first]
        exact ⟨isLeast_singleton, isGreatest_singleton⟩

/-- `compute` returns the least and the greatest of all samples exactly if every sample that has
been forgotten is between two that have not. -/
theorem compute_extremes_iff [Sub Sample] [Div Sample] [IntCast Sample] (samples : List Sample)
    (nonempty : samples ≠ []) :
    (IsLeast {delta | delta ∈ samples} (sampled samples).compute.deltaMin ∧
        IsGreatest {delta | delta ∈ samples} (sampled samples).compute.deltaMax) ↔
      ∀ position delta, samples[position]? = some delta →
        Forgotten samples.length position →
        (∃ other ∈ Kept samples, other ≤ delta) ∧ ∃ other ∈ Kept samples, delta ≤ other := by
  obtain ⟨low, high⟩ := extremes_sampled nonempty
  refine (extremes_iff_of_subset (kept_subset samples) low high).trans ?_
  constructor
  · intro between position delta there _
    exact between delta (List.mem_of_getElem? there)
  · intro between delta member
    obtain ⟨position, there⟩ := List.mem_iff_getElem?.mp member
    by_cases forgotten : Forgotten samples.length position
    · exact between position delta there forgotten
    · have kept : delta ∈ Kept samples := ⟨position, there, forgotten⟩
      exact ⟨⟨delta, kept, le_rfl⟩, delta, kept, le_rfl⟩

/-- The first of three samples is forgotten, but is between the others. -/
theorem compute_extremes_between :
    IsLeast {delta : Int | delta ∈ [2, 1, 3]} 1 ∧
      IsGreatest {delta : Int | delta ∈ [2, 1, 3]} 3 := by
  have kept : ∀ position, 1 ≤ position → ¬ Forgotten 3 position := by
    rintro position behind ⟨later, after, inside, restarts⟩
    obtain rfl : later = 2 := by omega
    exact absurd restarts (by decide)
  refine (compute_extremes_iff ([2, 1, 3] : List Int) (List.cons_ne_nil _ _)).mpr ?_
  intro position delta there forgotten
  match position with
  | 0 =>
      obtain rfl : 2 = delta := Option.some.inj there
      exact ⟨⟨1, ⟨1, rfl, kept 1 le_rfl⟩, by decide⟩, 3, ⟨2, rfl, kept 2 (by decide)⟩, by decide⟩
  | position + 1 => exact absurd forgotten (kept _ (Nat.le_add_left 1 position))

/-- The second of two samples is taken as the first one. -/
theorem compute_extremes_forgets :
    ¬ ∀ samples : List Int, samples ≠ [] →
      IsLeast {delta | delta ∈ samples} (sampled samples).compute.deltaMin ∧
        IsGreatest {delta | delta ∈ samples} (sampled samples).compute.deltaMax := by
  intro extremes
  have least := (extremes [1, 2] (List.cons_ne_nil _ _)).1
  have below : (sampled ([1, 2] : List Int)).compute.deltaMin ≤ 1 :=
    least.2 (List.mem_cons_self ..)
  exact absurd below (by decide)

/-! ## Mean and variance -/

theorem deltaSum_sampled (samples : List ℚ) : (sampled samples).deltaSum = samples.sum := by
  induction samples using List.reverseRecOn with
  | nil => rfl
  | append_singleton samples delta ih =>
      rw [sampled_concat, List.sum_append, List.sum_singleton, ← ih]
      rfl

theorem deltaSq_sampled (samples : List ℚ) :
    (sampled samples).deltaSq = Statistics.squares samples := by
  unfold Statistics.squares
  induction samples using List.reverseRecOn with
  | nil => rfl
  | append_singleton samples delta ih =>
      rw [sampled_concat, List.map_append, List.sum_append, List.map_singleton,
        List.sum_singleton, ← ih]
      rfl

theorem toInt_toInt32 (count : UInt32) :
    count.toInt32.toInt =
      if count.toNat < 2 ^ 31 then (count.toNat : Int) else count.toNat - 2 ^ 32 := by
  have word : count.toInt32.toInt = count.toBitVec.toInt := rfl
  have bits : count.toBitVec.toNat = count.toNat := rfl
  rw [word, BitVec.toInt_eq_toNat_cond, bits]
  split <;> split <;> omega

theorem toInt_sub_one (count : Int32) :
    (count - 1).toInt = if count.toInt = -2 ^ 31 then 2 ^ 31 - 1 else count.toInt - 1 := by
  have low := count.le_toInt
  have high := count.toInt_lt
  have one : (1 : Int32).toInt = 1 := rfl
  rw [Int32.toInt_sub, one, Int.bmod_def]
  split <;> split <;> omega

/-- The mean and the argument of the square root are what they should be. -/
structure MeanAndVariance (samples : List ℚ) (times : RouteTimes ℚ) : Prop where
  mean : times.mean = Statistics.mean samples
  variance : times.stddevOf = some (Statistics.variance samples)
  nonneg : ∀ argument ∈ times.stddevOf, 0 ≤ argument
  zero_iff : ∀ argument ∈ times.stddevOf,
    argument = 0 ↔ ∀ first ∈ samples, ∀ second ∈ samples, first = second

theorem meanAndVariance_iff {samples : List ℚ} (many : 3 ≤ samples.length)
    (times : RouteTimes ℚ) :
    MeanAndVariance samples times ↔
      times.mean = Statistics.mean samples ∧
        times.stddevOf = some (Statistics.variance samples) := by
  constructor
  · rintro ⟨mean, variance, -, -⟩
    exact ⟨mean, variance⟩
  · rintro ⟨mean, variance⟩
    have two : 1 < samples.length := by omega
    refine ⟨mean, variance, ?_, ?_⟩
    · intro argument given
      rw [variance, Option.mem_some_iff] at given
      rw [← given]
      exact Statistics.variance_nonneg two
    · intro argument given
      rw [variance, Option.mem_some_iff] at given
      rw [← given]
      exact Statistics.variance_eq_zero_iff two

/-- What `compute` returns, in terms of the signed count and of one less than it. -/
theorem compute_sampled {samples : List ℚ} (many : 2 < samples.length % 2 ^ 32) :
    (sampled samples).compute.mean =
        samples.sum / ((sampled samples).count.toInt32.toInt : ℚ) ∧
      (sampled samples).compute.stddevOf =
        some (((samples.length % 2 ^ 32 : Nat) * Statistics.squares samples -
            samples.sum * samples.sum) /
          ((sampled samples).count.toInt32.toInt : ℚ) /
          (((sampled samples).count.toInt32 - 1).toInt : ℚ)) := by
  have count := toNat_count_sampled samples
  have counted : 2 < (sampled samples).count := by
    rw [UInt32.lt_iff_toNat_lt, count]
    exact many
  unfold compute
  dsimp only
  rw [if_pos counted, if_pos counted, deltaSum_sampled, deltaSq_sampled, count]
  exact ⟨rfl, rfl⟩

/-- Up to here the signed count is the number of the samples. -/
theorem compute_of_lt {samples : List ℚ} (many : 3 ≤ samples.length)
    (few : samples.length < 2 ^ 31) :
    MeanAndVariance samples (sampled samples).compute := by
  have whole : samples.length % 2 ^ 32 = samples.length := Nat.mod_eq_of_lt (by omega)
  have count : (sampled samples).count.toInt32.toInt = samples.length := by
    rw [toInt_toInt32, toNat_count_sampled, whole, if_pos few]
  have less : ((sampled samples).count.toInt32 - 1).toInt = samples.length - 1 := by
    rw [toInt_sub_one, count, if_neg (by omega)]
  have nonzero : (samples.length : ℚ) ≠ 0 := Nat.cast_ne_zero.mpr (by omega)
  have counted : 2 < samples.length % 2 ^ 32 := by omega
  obtain ⟨mean, stddevOf⟩ := compute_sampled counted
  rw [meanAndVariance_iff many, mean, stddevOf, count, less, whole,
    Statistics.variance_eq nonzero]
  push_cast
  exact ⟨rfl, rfl⟩

/-- From here on the signed count is another number. -/
theorem signed_count {samples : List ℚ} (many : 2 < samples.length % 2 ^ 32)
    (large : 2 ^ 31 ≤ samples.length) :
    let theCount := (sampled samples).count.toInt32
    theCount.toInt ≠ samples.length ∧ theCount.toInt ≠ 0 ∧
      theCount.toInt * (theCount - 1).toInt ≠
        (samples.length % 2 ^ 32 : Nat) * ((samples.length : Int) - 1) := by
  intro theCount
  have count : theCount.toInt = if samples.length % 2 ^ 32 < 2 ^ 31 then
      ((samples.length % 2 ^ 32 : Nat) : Int) else (samples.length % 2 ^ 32 : Nat) - 2 ^ 32 := by
    rw [toInt_toInt32, toNat_count_sampled]
  have less := toInt_sub_one theCount
  have bound := Nat.mod_lt samples.length (show 0 < 2 ^ 32 by decide)
  have part := Nat.mod_le samples.length (2 ^ 32)
  generalize samples.length % 2 ^ 32 = rest at *
  generalize samples.length = length at *
  generalize (theCount - 1).toInt = oneLess at *
  generalize theCount.toInt = signed at *
  by_cases small : rest < 2 ^ 31
  · rw [if_pos small] at count
    rw [if_neg (by omega)] at less
    refine ⟨by omega, by omega, ?_⟩
    rw [count, less, count]
    intro same
    have equal := mul_left_cancel₀ (by omega) same
    omega
  · rw [if_neg small] at count
    refine ⟨by omega, by omega, ?_⟩
    by_cases least : signed = -2 ^ 31
    · -- One less than the least number is the greatest one.
      rw [if_pos least] at less
      have positive : 0 ≤ (rest : Int) * ((length : Int) - 1) :=
        mul_nonneg (by omega) (by omega)
      rw [least, less]
      omega
    · rw [if_neg least] at less
      have shorter : -signed * -oneLess < (rest : Int) * ((length : Int) - 1) :=
        mul_lt_mul (by omega) (by omega) (by omega) (by omega)
      rw [neg_mul_neg] at shorter
      exact shorter.ne

theorem counted_of_meanAndVariance {samples : List ℚ}
    (computed : MeanAndVariance samples (sampled samples).compute) :
    2 < samples.length % 2 ^ 32 := by
  by_contra few
  have uncounted : ¬ 2 < (sampled samples).count := by
    rw [UInt32.lt_iff_toNat_lt, toNat_count_sampled]
    exact few
  have none : (sampled samples).compute.stddevOf = none := if_neg uncounted
  rw [computed.variance] at none
  cases none

/-- The sum divided by two different numbers is the same only if it is zero. -/
theorem sum_eq_zero_of_mean {samples : List ℚ} {signed : Int} (nonempty : samples.length ≠ 0)
    (nonzero : signed ≠ 0) (other : signed ≠ samples.length)
    (same : Statistics.mean samples = samples.sum / (signed : ℚ)) : samples.sum = 0 := by
  have length_ne : (samples.length : ℚ) ≠ 0 := Nat.cast_ne_zero.mpr nonempty
  have signed_ne : (signed : ℚ) ≠ 0 := Int.cast_ne_zero.mpr nonzero
  rw [Statistics.mean, div_eq_div_iff length_ne signed_ne] at same
  by_contra sum_ne
  exact other (by exact_mod_cast mul_left_cancel₀ sum_ne same)

/-- Then the returned numbers are right only if there is nothing to compute. -/
theorem zero_of_meanAndVariance {samples : List ℚ} (large : 2 ^ 31 ≤ samples.length)
    (computed : MeanAndVariance samples (sampled samples).compute) :
    (∀ delta ∈ samples, delta = 0) ∧ 2 < samples.length % 2 ^ 32 := by
  have counted := counted_of_meanAndVariance computed
  obtain ⟨other, nonzero, product⟩ := signed_count counted large
  obtain ⟨mean, stddevOf⟩ := compute_sampled counted
  have sum : samples.sum = 0 :=
    sum_eq_zero_of_mean (by omega) nonzero other (computed.mean.symm.trans mean)
  refine ⟨(Statistics.squares_eq_zero_iff samples).mp ?_, counted⟩
  by_contra squares_ne
  have length_ne : (samples.length : ℚ) ≠ 0 := Nat.cast_ne_zero.mpr (by omega)
  have less_ne : (samples.length : ℚ) - 1 ≠ 0 := by
    rw [sub_ne_zero]
    exact_mod_cast (show samples.length ≠ 1 by omega)
  rw [computed.variance, Statistics.variance_eq length_ne, sum, mul_zero, sub_zero, sub_zero,
    mul_div_cancel_left₀ _ length_ne, Option.some_inj, div_div] at stddevOf
  have product_ne : ((sampled samples).count.toInt32.toInt : ℚ) *
      (((sampled samples).count.toInt32 - 1).toInt : ℚ) ≠ 0 := by
    intro zero
    rw [zero, div_zero] at stddevOf
    exact div_ne_zero squares_ne less_ne stddevOf
  rw [div_eq_div_iff less_ne product_ne, mul_comm _ (Statistics.squares samples),
    mul_assoc] at stddevOf
  refine product (Int.cast_injective (α := ℚ) ?_)
  push_cast
  exact mul_left_cancel₀ squares_ne stddevOf

theorem meanAndVariance_of_zero {samples : List ℚ} (many : 3 ≤ samples.length)
    (zero : ∀ delta ∈ samples, delta = 0) (counted : 2 < samples.length % 2 ^ 32) :
    MeanAndVariance samples (sampled samples).compute := by
  have squares := (Statistics.squares_eq_zero_iff samples).mpr zero
  have sum : samples.sum = 0 := List.sum_eq_zero zero
  have nonzero : (samples.length : ℚ) ≠ 0 := Nat.cast_ne_zero.mpr (by omega)
  obtain ⟨mean, stddevOf⟩ := compute_sampled counted
  rw [meanAndVariance_iff many, mean, stddevOf, Statistics.variance_eq nonzero, squares, sum,
    Statistics.mean, sum]
  simp only [mul_zero, sub_zero, zero_div, and_self]

/-- For three samples or more `compute` returns the mean and takes the root of the variance exactly
if the number of the samples is an `int`, or if all samples are zero and the count is more than
two. -/
theorem compute_mean_variance_iff (samples : List ℚ) (many : 3 ≤ samples.length) :
    MeanAndVariance samples (sampled samples).compute ↔
      samples.length < 2 ^ 31 ∨
        (∀ delta ∈ samples, delta = 0) ∧ 2 < samples.length % 2 ^ 32 := by
  constructor
  · intro computed
    rcases Nat.lt_or_ge samples.length (2 ^ 31) with few | large
    · exact Or.inl few
    · exact Or.inr (zero_of_meanAndVariance large computed)
  · rintro (few | ⟨zero, counted⟩)
    · exact compute_of_lt many few
    · exact meanAndVariance_of_zero many zero counted

theorem compute_mean_variance_three :
    (sampled [(1 : ℚ), 2, 6]).compute.stddevOf = some (Statistics.variance [1, 2, 6]) := by
  have computed := (compute_mean_variance_iff [1, 2, 6] (by decide)).mpr (Or.inl (by decide))
  exact computed.variance

/-- From 2^31 samples on the mean has the wrong sign. -/
theorem compute_mean_negative :
    ¬ ∀ samples : List ℚ, 3 ≤ samples.length →
      MeanAndVariance samples (sampled samples).compute := by
  intro computed
  have length : (List.replicate (2 ^ 31) (1 : ℚ)).length = 2 ^ 31 := List.length_replicate
  have all := zero_of_meanAndVariance length.ge
    (computed (List.replicate (2 ^ 31) 1) (by rw [length]; decide))
  exact one_ne_zero (all.1 1 (List.mem_replicate.mpr ⟨by decide, rfl⟩))

end RouteTimeStats

end Nise.Dispatcherd
