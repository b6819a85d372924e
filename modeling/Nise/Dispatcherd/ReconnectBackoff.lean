import Mathlib.Data.List.Basic
import Mathlib.Order.Lattice
import Mathlib.Tactic.NormNum

/-!
# The delays between attempts to connect again

A handler whose connection is lost tries again after a delay that is doubled with every
attempt, up to the maximum of its connection.  The delay starts again at one second when the
connection is opened, when a status is printed and when the connection is closed on request.
-/

namespace Nise.Dispatcherd

/-- `timeout_`, and the `max_retry_timeout_` of the connection record. -/
structure RetryTimeout where
  timeout : UInt32
  maxRetryTimeout : UInt32
  deriving DecidableEq, Repr

namespace RetryTimeout

variable (retry : RetryTimeout)

def init (maxRetryTimeout : UInt32) : RetryTimeout := ⟨1, maxRetryTimeout⟩

/-- The setter `timeout`. -/
def setTimeout (value : UInt32) : RetryTimeout :=
  { retry with
    timeout := if retry.maxRetryTimeout < value then retry.maxRetryTimeout else value }

/-- The getter `timeout` returns the delay as it was and calculates the next one. -/
def nextTimeout : UInt32 × RetryTimeout :=
  let doubled := retry.timeout * 2
  (retry.timeout,
    { retry with
      timeout := if retry.maxRetryTimeout < doubled then retry.maxRetryTimeout else doubled })

end RetryTimeout

inductive ReconnectEvent where
  | reset
  | scheduleReconnect
  deriving DecidableEq, Repr

/-- A handler with the delays that it has used since the last reset. -/
structure Reconnects where
  retry : RetryTimeout
  delays : List UInt32
  deriving DecidableEq, Repr

namespace Reconnects

def start (maxRetryTimeout : UInt32) : Reconnects := ⟨.init maxRetryTimeout, []⟩

def step (reconnects : Reconnects) : ReconnectEvent → Reconnects
  | .reset => ⟨reconnects.retry.setTimeout 1, []⟩
  | .scheduleReconnect =>
      ⟨reconnects.retry.nextTimeout.2, reconnects.delays ++ [reconnects.retry.nextTimeout.1]⟩

def run (maxRetryTimeout : UInt32) (events : List ReconnectEvent) : Reconnects :=
  events.foldl step (start maxRetryTimeout)

end Reconnects

/-- The number of attempts since the last reset. -/
def attempts (events : List ReconnectEvent) : Nat :=
  events.foldl (fun count event => if event = .reset then 0 else count + 1) 0

/-- Delays that are doubled up to the maximum: they never decrease and are never zero. -/
structure Backoff (maxRetryTimeout : UInt32) (delays : List UInt32) : Prop where
  doubled : ∀ k (used : k < delays.length), delays[k].toNat = min (2 ^ k) maxRetryTimeout.toNat
  increasing : delays.Pairwise (· ≤ ·)
  positive : ∀ delay ∈ delays, delay ≠ 0

/-! ## The timeout after some attempts -/

/-- The handler after so many attempts since it was reset. -/
def Reconnects.after (maxRetryTimeout : UInt32) : Nat → Reconnects
  | 0 => .start maxRetryTimeout
  | count + 1 => (after maxRetryTimeout count).step .scheduleReconnect

section After

open Reconnects

variable {maxRetryTimeout : UInt32}

theorem maxRetryTimeout_after (count : Nat) :
    (after maxRetryTimeout count).retry.maxRetryTimeout = maxRetryTimeout := by
  induction count with
  | zero => rfl
  | succ count ih => exact ih

theorem step_reset_after (positive : 1 ≤ maxRetryTimeout) (count : Nat) :
    (after maxRetryTimeout count).step .reset = start maxRetryTimeout := by
  change Reconnects.mk ((after maxRetryTimeout count).retry.setTimeout 1) [] = _
  rw [RetryTimeout.setTimeout, maxRetryTimeout_after, if_neg (UInt32.not_lt.mpr positive)]
  rfl

theorem foldl_step_after (positive : 1 ≤ maxRetryTimeout) (events : List ReconnectEvent)
    (count : Nat) :
    events.foldl step (after maxRetryTimeout count) = after maxRetryTimeout
      (events.foldl (fun count event => if event = .reset then 0 else count + 1) count) := by
  induction events generalizing count with
  | nil => rfl
  | cons event rest ih =>
      cases event with
      | reset =>
          rw [List.foldl_cons, step_reset_after positive]
          exact ih 0
      | scheduleReconnect => exact ih (count + 1)

theorem run_eq_after (positive : 1 ≤ maxRetryTimeout) (events : List ReconnectEvent) :
    run maxRetryTimeout events = after maxRetryTimeout (attempts events) :=
  foldl_step_after positive events 0

theorem delays_after (count : Nat) :
    (after maxRetryTimeout count).delays =
      (List.range count).map fun k => (after maxRetryTimeout k).retry.timeout := by
  induction count with
  | zero => rfl
  | succ count ih =>
      rw [List.range_succ, List.map_append, ← ih]
      rfl

theorem timeout_succ (count : Nat) :
    (after maxRetryTimeout (count + 1)).retry.timeout =
      if maxRetryTimeout < (after maxRetryTimeout count).retry.timeout * 2 then maxRetryTimeout
      else (after maxRetryTimeout count).retry.timeout * 2 := by
  change (if (after maxRetryTimeout count).retry.maxRetryTimeout < _ then
    (after maxRetryTimeout count).retry.maxRetryTimeout else _) = _
  rw [maxRetryTimeout_after]

/-- Below 2^31 the timeout is doubled as a number. -/
theorem toNat_timeout_succ {count : Nat}
    (fits : (after maxRetryTimeout count).retry.timeout.toNat < 2 ^ 31) :
    (after maxRetryTimeout (count + 1)).retry.timeout.toNat =
      min (2 * (after maxRetryTimeout count).retry.timeout.toNat) maxRetryTimeout.toNat := by
  have doubled : ((after maxRetryTimeout count).retry.timeout * 2).toNat =
      2 * (after maxRetryTimeout count).retry.timeout.toNat := by
    have two : (2 : UInt32).toNat = 2 := rfl
    rw [UInt32.toNat_mul, two, Nat.mul_comm]
    exact Nat.mod_eq_of_lt (by omega)
  rw [timeout_succ]
  split
  · next capped =>
      rw [UInt32.lt_iff_toNat_lt, doubled] at capped
      exact (Nat.min_eq_right (Nat.le_of_lt capped)).symm
  · next free =>
      rw [UInt32.lt_iff_toNat_lt, doubled, Nat.not_lt] at free
      rw [doubled]
      exact (Nat.min_eq_left free).symm

theorem toNat_timeout_after (positive : 1 ≤ maxRetryTimeout) {count : Nat}
    (fits : maxRetryTimeout.toNat < 2 ^ 31 ∨ count ≤ 31) :
    (after maxRetryTimeout count).retry.timeout.toNat =
      min (2 ^ count) maxRetryTimeout.toNat := by
  induction count with
  | zero =>
      have least : 1 ≤ maxRetryTimeout.toNat := UInt32.le_iff_toNat_le.mp positive
      exact (Nat.min_eq_left least).symm
  | succ count ih =>
      have now := ih (fits.imp id Nat.le_of_succ_le)
      have small : (after maxRetryTimeout count).retry.timeout.toNat < 2 ^ 31 := by
        rw [now]
        rcases fits with low | few
        · exact Nat.lt_of_le_of_lt (Nat.min_le_right _ _) low
        · have power : 2 ^ count < 2 ^ 31 := Nat.pow_lt_pow_right (by decide) (by omega)
          exact Nat.lt_of_le_of_lt (Nat.min_le_left _ _) power
      rw [toNat_timeout_succ small, now, Nat.pow_succ]
      omega

/-- The doubled timeout of 2^31 seconds is zero. -/
theorem timeout_after_thirty_two (large : 2 ^ 31 ≤ maxRetryTimeout.toNat) :
    (after maxRetryTimeout 32).retry.timeout = 0 := by
  have positive : 1 ≤ maxRetryTimeout := UInt32.le_iff_toNat_le.mpr (by
    rw [UInt32.toNat_one]
    omega)
  have last := toNat_timeout_after positive (.inr (Nat.le_refl 31))
  rw [Nat.min_eq_left large] at last
  have same : (after maxRetryTimeout 31).retry.timeout = 2147483648 :=
    UInt32.toNat_inj.mp last
  have wraps : (2147483648 : UInt32) * 2 = 0 := by decide
  rw [timeout_succ, same, wraps, if_neg (UInt32.not_lt.mpr UInt32.zero_le)]

theorem backoff_of_doubled (positive : 1 ≤ maxRetryTimeout) {delays : List UInt32}
    (doubled : ∀ k (used : k < delays.length),
      delays[k].toNat = min (2 ^ k) maxRetryTimeout.toNat) : Backoff maxRetryTimeout delays := by
  have least : 1 ≤ maxRetryTimeout.toNat := UInt32.le_iff_toNat_le.mp positive
  refine ⟨doubled, ?_, ?_⟩
  · rw [List.pairwise_iff_getElem]
    intro first second inFirst inSecond before
    have power : 2 ^ first ≤ 2 ^ second := Nat.pow_le_pow_right (by decide) (Nat.le_of_lt before)
    rw [UInt32.le_iff_toNat_le, doubled first inFirst, doubled second inSecond]
    omega
  · intro delay member zero
    obtain ⟨k, used, same⟩ := List.getElem_of_mem member
    have power : 1 ≤ 2 ^ k := Nat.one_le_two_pow
    have none := doubled k used
    rw [same, zero, UInt32.toNat_zero] at none
    omega

end After

/-- The delays are doubled up to the maximum as long as the maximum is below 2^31 seconds, or
there are not more than 32 attempts since the last reset. -/
theorem backoff_iff {maxRetryTimeout : UInt32} (positive : 1 ≤ maxRetryTimeout)
    (events : List ReconnectEvent) :
    Backoff maxRetryTimeout (Reconnects.run maxRetryTimeout events).delays ↔
      maxRetryTimeout.toNat < 2 ^ 31 ∨ attempts events ≤ 32 := by
  rw [run_eq_after positive, delays_after]
  constructor
  · intro backoff
    by_contra large
    rw [not_or, Nat.not_lt, Nat.not_le] at large
    have zero := timeout_after_thirty_two large.1
    refine backoff.positive 0 ?_ rfl
    rw [List.mem_map]
    exact ⟨32, List.mem_range.mpr large.2, zero⟩
  · intro fits
    apply backoff_of_doubled positive
    intro k used
    rw [List.length_map, List.length_range] at used
    rw [List.getElem_map, List.getElem_range]
    exact toNat_timeout_after positive (fits.imp id (by omega))

/-- Four attempts with a maximum of five seconds. -/
theorem backoff_five_seconds :
    Backoff 5 (Reconnects.run 5 [.scheduleReconnect, .reset, .scheduleReconnect,
      .scheduleReconnect, .scheduleReconnect, .scheduleReconnect]).delays :=
  (backoff_iff (by decide) _).mpr (.inl (by decide))

/-- The thirty-third attempt with the largest maximum comes without a delay. -/
theorem backoff_wraps :
    ¬ ∀ (maxRetryTimeout : UInt32), 1 ≤ maxRetryTimeout → ∀ events : List ReconnectEvent,
      Backoff maxRetryTimeout (Reconnects.run maxRetryTimeout events).delays := by
  intro always
  have positive : (1 : UInt32) ≤ 4294967295 := by decide
  have large : 2 ^ 31 ≤ (4294967295 : UInt32).toNat := by decide
  have largest := always 4294967295 positive (List.replicate 33 .scheduleReconnect)
  rw [run_eq_after positive, delays_after] at largest
  refine largest.positive 0 ?_ rfl
  rw [List.mem_map]
  exact ⟨32, List.mem_range.mpr (by decide), timeout_after_thirty_two large⟩

end Nise.Dispatcherd
