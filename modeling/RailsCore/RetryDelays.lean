import Mathlib.Algebra.Order.Monoid.Unbundled.MinMax
import RailsCore.Numerals
import RailsCore.TransactionRetry

/-!
# Delays between retries

The delay after each attempt, with the operations on 64 bits that saturate, and
the time of the next one, which the calendar of `chrono` has to hold. The delay
is what the unbounded numbers say. The time is as much later where the calendar
goes on for long enough; a delay beyond the signed numbers turns negative.
-/

namespace RailsCore.RetryDelays
open Numerals

/-- What the environment parsing gives. -/
structure Delay where
  ms : UInt64
  positive : 0 < ms

def delayMsFromEnv (default : Delay) (value : Option String) : Delay :=
  match value.bind fun v => parseU64 v.toList with
  | some v => if positive : 0 < v then ⟨v, positive⟩ else default
  | none => default

def retryBaseDelayMsFromEnv : Option String → Delay := delayMsFromEnv ⟨500, by decide⟩

def retryMaxDelayMsFromEnv : Option String → Delay := delayMsFromEnv ⟨300000, by decide⟩

/-- The `u64` nearest to the number. -/
def saturate (n : Nat) : UInt64 := UInt64.ofNat (min n (UInt64.size - 1))

def computeRetryDelayMs (attempt : Int32) (baseMs maxMs : UInt64) : UInt64 :=
  let safeMax := max maxMs baseMs
  let exp := min (max attempt.toInt 1 - 1) 16
  min (saturate (baseMs.toNat * (saturate (2 ^ exp.toNat)).toNat)) safeMax

/-- What `chrono` documents of a `DateTime<Utc>`, in nanoseconds: the first and the last,
that they are less apart than an `i64` of milliseconds, that
`TimeDelta::milliseconds` panics at the least number, and that the sum panics
outside of the calendar. -/
structure Chrono where
  earliest : Int
  latest : Int
  span : latest - earliest < 2 ^ 63 * 1000000
  milliseconds : Int64 → Option Int
  milliseconds_eq : ∀ n, milliseconds n =
    if n = Int64.minValue then none else some (n.toInt * 1000000)
  add : Int → Int → Option Int
  add_eq : ∀ t delta, add t delta =
    if earliest ≤ t + delta ∧ t + delta ≤ latest then some (t + delta) else none

/-- A time that the calendar holds. -/
structure Chrono.DateTime (lib : Chrono) where
  nanos : Int
  low : lib.earliest ≤ nanos
  high : nanos ≤ lib.latest

/-- The `next_retry_at` of a failed post, and none where the computation panics. -/
def nextRetryAt (lib : Chrono) (now : lib.DateTime) (retryCount : Int32) (baseMs maxMs : UInt64) :
    Option Int := do
  let delayMs := computeRetryDelayMs retryCount baseMs maxMs
  lib.add now.nanos (← lib.milliseconds delayMs.toInt64)

/-! ## The delay -/

theorem toNat_saturate (n : Nat) : (saturate n).toNat = min n (UInt64.size - 1) := by
  have small : min n (UInt64.size - 1) < UInt64.size :=
    Nat.lt_of_le_of_lt (Nat.min_le_right _ _) (by decide)
  exact UInt64.toNat_ofNat_of_lt small

theorem toNat_max (a b : UInt64) : (max a b).toNat = max a.toNat b.toNat :=
  toNat_larger UInt64.le_iff_toNat_le a b

theorem toNat_min (a b : UInt64) : (min a b).toNat = min a.toNat b.toNat :=
  toNat_smaller UInt64.le_iff_toNat_le a b

/-- How often the delay is doubled. -/
def doublings (attempt : Int32) : Nat := (min (max attempt.toInt 1 - 1) 16).toNat

theorem doublings_le (attempt : Int32) : doublings attempt ≤ 16 := by
  rw [doublings]
  omega

theorem doublings_mono {attempt later : Int32} (le : attempt ≤ later) :
    doublings attempt ≤ doublings later := by
  have := Int32.le_iff_toInt_le.mp le
  rw [doublings, doublings]
  omega

/-- Nothing is lost to saturation, the maximum being below the greatest number: the
delay is the one of `Worker.settled`. -/
theorem computeRetryDelayMs_eq (attempt : Int32) (baseMs maxMs : UInt64) :
    (computeRetryDelayMs attempt baseMs maxMs).toNat =
      RailsCore.computeRetryDelayMs attempt.toInt baseMs.toNat maxMs.toNat := by
  have power : 2 ^ doublings attempt ≤ UInt64.size - 1 :=
    Nat.le_trans (Nat.pow_le_pow_right (by decide) (doublings_le attempt)) (by decide)
  have cap : max maxMs.toNat baseMs.toNat ≤ UInt64.size - 1 := by
    have := maxMs.toNat_lt_size
    have := baseMs.toNat_lt_size
    omega
  rw [computeRetryDelayMs, toNat_min, toNat_saturate, toNat_saturate, toNat_max]
  change min (min (baseMs.toNat * min (2 ^ doublings attempt) _) _) _ = _
  rw [Nat.min_eq_left power, Nat.min_assoc, Nat.min_eq_right cap]
  rfl

theorem toNat_computeRetryDelayMs (attempt : Int32) (baseMs maxMs : UInt64) :
    (computeRetryDelayMs attempt baseMs maxMs).toNat =
      min (baseMs.toNat * 2 ^ doublings attempt) (max maxMs.toNat baseMs.toNat) :=
  computeRetryDelayMs_eq attempt baseMs maxMs

theorem base_le_delay (attempt : Int32) (baseMs maxMs : UInt64) :
    baseMs.toNat ≤ (computeRetryDelayMs attempt baseMs maxMs).toNat := by
  rw [toNat_computeRetryDelayMs]
  have := Nat.le_mul_of_pos_right baseMs.toNat (Nat.two_pow_pos (doublings attempt))
  omega

theorem delay_mono {attempt later : Int32} (le : attempt ≤ later) (baseMs maxMs : UInt64) :
    (computeRetryDelayMs attempt baseMs maxMs).toNat ≤
      (computeRetryDelayMs later baseMs maxMs).toNat := by
  rw [toNat_computeRetryDelayMs, toNat_computeRetryDelayMs]
  have := Nat.mul_le_mul_left baseMs.toNat
    (Nat.pow_le_pow_right (by decide : 0 < 2) (doublings_mono le))
  omega

/-! ## The time of the next attempt -/

/-- A number beyond the signed ones turns negative. -/
theorem toInt_toInt64 (n : UInt64) : n.toInt64.toInt =
    if n.toNat < 2 ^ 63 then (n.toNat : Int) else (n.toNat : Int) - 2 ^ 64 := by
  have bits : n.toInt64.toInt = n.toBitVec.toInt := rfl
  rw [bits, BitVec.toInt_eq_toNat_cond]
  have : n.toBitVec.toNat = n.toNat := rfl
  rw [this]
  split <;> split <;> omega

section Times

variable (lib : Chrono) (now : lib.DateTime)

/-- The milliseconds from now to the end of the calendar. -/
def Chrono.DateTime.room {lib : Chrono} (now : lib.DateTime) : Nat :=
  ((lib.latest - now.nanos) / 1000000).toNat

theorem Chrono.DateTime.within_room {lib : Chrono} (now : lib.DateTime) (ms : Nat) :
    ms ≤ now.room ↔ now.nanos + ms * 1000000 ≤ lib.latest := by
  have := now.high
  rw [room]
  omega

/-- The room is less than an `i64` of milliseconds. -/
theorem Chrono.DateTime.room_lt {lib : Chrono} (now : lib.DateTime) : now.room < 2 ^ 63 := by
  have := now.low
  have := lib.span
  rw [room]
  omega

/-- The next time is later by the delay where the calendar goes on for as long,
and is earlier than now, or missing, everywhere else. -/
theorem nextRetryAt_iff (retryCount : Int32) (baseMs maxMs : UInt64) :
    (∃ t, nextRetryAt lib now retryCount baseMs maxMs = some t ∧ now.nanos ≤ t) ↔
      (computeRetryDelayMs retryCount baseMs maxMs).toNat ≤ now.room := by
  set delay := computeRetryDelayMs retryCount baseMs maxMs with delay_def
  have bound := delay.toNat_lt
  have cast := toInt_toInt64 delay
  have least : delay.toInt64 = Int64.minValue ↔ delay.toInt64.toInt = -2 ^ 63 := by
    rw [← Int64.toInt_inj]
    rfl
  rw [nextRetryAt, ← delay_def, lib.milliseconds_eq]
  constructor
  · rintro ⟨t, done, later⟩
    split at done
    · exact absurd done nofun
    · rename_i other
      rw [Option.bind_eq_bind, Option.bind_some, lib.add_eq] at done
      split at done
      · rename_i held
        have sum := Option.some.inj done
        -- a delay that is negative as an `i64` leads before now
        have signed : delay.toNat < 2 ^ 63 := by
          by_contra large
          rw [if_neg large] at cast
          omega
        rw [if_pos signed] at cast
        rw [now.within_room]
        omega
      · exact absurd done nofun
  · intro room
    have signed : delay.toNat < 2 ^ 63 := room.trans_lt now.room_lt
    rw [now.within_room] at room
    rw [if_pos signed] at cast
    have low := now.low
    refine ⟨now.nanos + delay.toNat * 1000000, ?_, by omega⟩
    rw [if_neg (by rw [least]; omega), Option.bind_eq_bind, Option.bind_some, lib.add_eq, cast,
      if_pos ⟨by omega, room⟩]

end Times

/-! ## What a backoff promises -/

/-- The delay is between the base and the larger of both numbers, it does not
decrease, it doubles from one attempt to the next until it is capped, and the
time of the next attempt is there and is not before now. -/
structure Sound (lib : Chrono) (now : lib.DateTime) (attempt : Int32) (base maximum : Delay) :
    Prop where
  atLeast : base.ms ≤ computeRetryDelayMs attempt base.ms maximum.ms
  atMost : computeRetryDelayMs attempt base.ms maximum.ms ≤ max base.ms maximum.ms
  monotone : ∀ later, attempt ≤ later →
    computeRetryDelayMs attempt base.ms maximum.ms ≤ computeRetryDelayMs later base.ms maximum.ms
  doubles : 1 ≤ attempt.toInt → attempt.toInt - 1 ≤ 16 →
    base.ms.toNat * 2 ^ (attempt.toInt - 1).toNat ≤ (max base.ms maximum.ms).toNat →
    (computeRetryDelayMs attempt base.ms maximum.ms).toNat =
      base.ms.toNat * 2 ^ (attempt.toInt - 1).toNat
  retryAt : ∃ t, nextRetryAt lib now attempt base.ms maximum.ms = some t ∧ now.nanos ≤ t

/-- The calendar goes on for the doubled base delay, or for both of the delays. -/
def CalendarGoesOn {lib : Chrono} (now : lib.DateTime) (attempt : Int32) (base maximum : Delay) :
    Prop :=
  base.ms.toNat * 2 ^ doublings attempt ≤ now.room ∨
    base.ms.toNat ≤ now.room ∧ maximum.ms.toNat ≤ now.room

theorem doublings_of_range {attempt : Int32} (low : 1 ≤ attempt.toInt)
    (high : attempt.toInt - 1 ≤ 16) : doublings attempt = (attempt.toInt - 1).toNat := by
  rw [doublings]
  omega

theorem backoff_sound_iff (lib : Chrono) (now : lib.DateTime) (attempt : Int32)
    (base maximum : Delay) :
    Sound lib now attempt base maximum ↔ CalendarGoesOn now attempt base maximum := by
  have time := nextRetryAt_iff lib now attempt base.ms maximum.ms
  have delay := toNat_computeRetryDelayMs attempt base.ms maximum.ms
  constructor
  · intro sound
    have room := time.mp sound.retryAt
    rw [CalendarGoesOn]
    omega
  · intro goesOn
    refine ⟨?_, ?_, ?_, ?_, ?_⟩
    · exact UInt64.le_iff_toNat_le.mpr (base_le_delay attempt base.ms maximum.ms)
    · rw [UInt64.le_iff_toNat_le, toNat_max, delay]
      omega
    · intro later le
      exact UInt64.le_iff_toNat_le.mpr (delay_mono le base.ms maximum.ms)
    · intro low high uncapped
      rw [toNat_max] at uncapped
      rw [delay, doublings_of_range low high]
      omega
    · rw [time, delay]
      rw [CalendarGoesOn] at goesOn
      omega

/-- The first nanosecond of the year -262143. -/
def minUtc : Int := -8334601228800 * 1000000000

/-- The last nanosecond of the year 262142. -/
def maxUtc : Int := 8210266876799 * 1000000000 + 999999999

/-- The calendar of `chrono`. -/
def chrono : Chrono where
  earliest := minUtc
  latest := maxUtc
  span := by decide
  milliseconds n := if n = Int64.minValue then none else some (n.toInt * 1000000)
  milliseconds_eq _ := rfl
  add t delta := if minUtc ≤ t + delta ∧ t + delta ≤ maxUtc then some (t + delta) else none
  add_eq _ _ := rfl

/-- The greatest base delay leads to the millisecond before now. -/
theorem greatest_delay_leads_back : ¬ ∀ (lib : Chrono) (now : lib.DateTime) (attempt : Int32)
    (base maximum : Delay), Sound lib now attempt base maximum := by
  intro all
  have sound := all chrono ⟨1700000000 * 1000000000, by decide, by decide⟩ 1
    (retryBaseDelayMsFromEnv (some "18446744073709551615")) (retryMaxDelayMsFromEnv none)
  obtain ⟨t, done, later⟩ := sound.retryAt
  have before : nextRetryAt chrono ⟨1700000000 * 1000000000, by decide, by decide⟩ 1
      (retryBaseDelayMsFromEnv (some "18446744073709551615")).ms
      (retryMaxDelayMsFromEnv none).ms = some (1700000000 * 1000000000 - 1000000) := by
    decide +kernel
  rw [before] at done
  have := Option.some.inj done
  simp only at later
  omega

end RailsCore.RetryDelays
