import NbsBond.CreditRetirement.Model
import NbsBond.Framework.Calendar
import NbsBond.Framework.Traced

/-!
# The vintage year

`year_from_timestamp` counts years from March 1 of year 0, so that the leap day is the last day of
a year, and takes cycles of 400, 100, 4 and 1 years off a day's number. `yearOfEra_spec` says that
the four corrections hit the right year of the 400-year cycle; from there on the arithmetic is
that of `marchStart`, the day a March year begins with, and January and February go to the next
calendar year.

`Logged.yearFromTimestamp` is the function with the exact value of every `i64` operation logged, and
each result wrapped. For every `u64` timestamp no value is out of range, and without the log it is
`yearFromTimestamp`.
-/

namespace NbsBond
namespace CreditRetirement

open Soroban Calendar

/-! ### March years -/

/-- The number of days from March 1 of year 0 to March 1 of year `y`. -/
def marchStart (y : ℤ) : ℤ := 365 * y + y / 4 - y / 100 + y / 400

/-- Eras are cycles of 400 years. -/
theorem marchStart_add_era (y era : ℤ) :
    marchStart (y + era * 400) = marchStart y + 146097 * era := by
  have hfour : (y + era * 400) / 4 = y / 4 + era * 100 := by omega
  have hcentury : (y + era * 400) / 100 = y / 100 + era * 4 := by omega
  have hera : (y + era * 400) / 400 = y / 400 + era := by omega
  rw [marchStart, marchStart, hfour, hcentury, hera]
  ring

/-- January 1 is 306 days after the last March 1. -/
theorem daysBefore_succ_eq (y : ℤ) : daysBefore (y + 1) + 719468 = marchStart y + 306 := by
  rw [daysBefore_eq, marchStart, add_sub_cancel_right]
  omega

/-- The last two months of a March year are in the next calendar year. -/
theorem inYear_of_marchStart {y d doy : ℤ} (hd : d + 719468 = marchStart y + doy) (h0 : 0 ≤ doy)
    (hlt : d + 719468 < marchStart (y + 1)) : InYear (if doy < 306 then y else y + 1) d := by
  have hbefore := daysBefore_succ_eq (y - 1)
  have hnext := daysBefore_succ_eq y
  have hafter := daysBefore_succ_eq (y + 1)
  rw [sub_add_cancel] at hbefore
  -- a March year is longer than the ten months to the end of the calendar year
  have hlong : marchStart (y - 1) + 306 ≤ marchStart y := by
    unfold marchStart
    omega
  split
  · exact ⟨by omega, by omega⟩
  · exact ⟨by omega, by omega⟩

section Century

variable {k r w q : ℤ} (hr : 0 ≤ r) (hr' : r < 36524) (hk : 0 ≤ k) (hk' : k ≤ 3)
  (hq : q = r / 1461) (hw : w = (r - (r + 24 * k) / 1460) / 365)

include hr hr' hk hk' hq hw

/-- The years of a century: four years have 1461 days, and the last four may have one less. -/
theorem yearOfCentury_spec :
    0 ≤ q ∧ q ≤ 24 ∧ 4 * q ≤ w ∧ w ≤ 4 * q + 3 ∧ 365 * w + q ≤ r := by
  omega

/-- The last of four years has a day more. -/
theorem lt_yearOfCentury : r < 365 * (w + 1) + q + if w = 4 * q + 3 then 1 else 0 := by
  split
  · omega
  · omega

end Century

/-- **The year of the 400-year cycle.** -/
theorem yearOfEra_spec (doe : ℤ) {y : ℤ} (h0 : 0 ≤ doe) (h1 : doe < 146097)
    (hy : y = (doe - doe / 1460 + doe / 36524 - doe / 146096) / 365) :
    0 ≤ y ∧ y < 400 ∧ marchStart y ≤ doe ∧ doe < marchStart (y + 1) := by
  unfold marchStart
  obtain hlt | rfl : doe < 146096 ∨ doe = 146096 := by omega
  · -- `k` is the century, `r` the day in it and `q` the number of whole four years before
    obtain ⟨k, hk⟩ : ∃ k, k = doe / 36524 := ⟨_, rfl⟩
    obtain ⟨r, hr⟩ : ∃ r, r = doe - 36524 * k := ⟨_, rfl⟩
    obtain ⟨q, hq⟩ : ∃ q, q = r / 1461 := ⟨_, rfl⟩
    have hlast : doe / 146096 = 0 := by omega
    have hr0 : 0 ≤ r ∧ r < 36524 := by omega
    have hk0 : 0 ≤ k ∧ k ≤ 3 := by omega
    have hw : y - 100 * k = (r - (r + 24 * k) / 1460) / 365 := by omega
    obtain ⟨hq0, hq24, hfirst, hthird, hlo⟩ :=
      yearOfCentury_spec hr0.1 hr0.2 hk0.1 hk0.2 hq hw
    have hhi := lt_yearOfCentury hr0.1 hr0.2 hk0.1 hk0.2 hq hw
    -- the corrections have done their work
    clear hw hy hlast hq
    have hcentury : y / 100 = k := by omega
    have hfour : y / 4 = 25 * k + q := by omega
    have hera : y / 400 = 0 := by omega
    refine ⟨by omega, by omega, by omega, ?_⟩
    split at hhi
    · next hw =>
      have hfour' : (y + 1) / 4 = 25 * k + q + 1 := by omega
      -- at the end of the century there is no leap day
      obtain hq' | hq' : q ≤ 23 ∨ q = 24 := by omega
      · have hcentury' : (y + 1) / 100 = k := by omega
        omega
      · have hcentury' : (y + 1) / 100 = k + 1 := by omega
        omega
    · have hfour' : (y + 1) / 4 = 25 * k + q := by omega
      have hcentury' : (y + 1) / 100 = k := by omega
      omega
  · -- the leap day at the end of the cycle
    obtain rfl : y = 399 := by omega
    omega

/-- The year a timestamp's day is in, and what the cast to `u32` leaves of it. -/
theorem yearFromTimestamp_spec (timestamp : ℕ) : ∃ y, InYear y (timestamp / 86400) ∧
    yearFromTimestamp timestamp = (y % 2 ^ 32).toNat := by
  obtain ⟨d, hd⟩ : ∃ d : ℤ, d = timestamp / 86400 := ⟨_, rfl⟩
  obtain ⟨era, hera⟩ : ∃ era, era = (d + 719468) / 146097 := ⟨_, rfl⟩
  obtain ⟨doe, hdoe⟩ : ∃ doe, doe = (d + 719468) % 146097 := ⟨_, rfl⟩
  obtain ⟨yoe, hyoe⟩ : ∃ yoe, yoe = (doe - doe / 1460 + doe / 36524 - doe / 146096) / 365 :=
    ⟨_, rfl⟩
  obtain ⟨doy, hdoy⟩ : ∃ doy, doy = doe - (365 * yoe + yoe / 4 - yoe / 100) := ⟨_, rfl⟩
  have hcycle : d + 719468 = 146097 * era + doe := by omega
  obtain ⟨h0, h400, hlo, hhi⟩ := yearOfEra_spec doe (by omega) (by omega) hyoe
  have hstart := marchStart_add_era yoe era
  have hnext := marchStart_add_era (yoe + 1) era
  -- of the four corrections only the leap days of the cycle are left
  have hday : doe = marchStart yoe + doy := by
    have hera : yoe / 400 = 0 := by omega
    rw [hdoy, marchStart, hera]
    ring
  have hsum : d + 719468 = marchStart (yoe + era * 400) + doy := by omega
  have hlast : d + 719468 < marchStart (yoe + era * 400 + 1) := by
    rw [add_right_comm]
    omega
  refine ⟨_, hd ▸ inYear_of_marchStart hsum (by omega) hlast, ?_⟩
  simp only [yearFromTimestamp, ← hd, ← hera, ← hdoe, ← hyoe, ← hdoy]
  congr 2
  -- the tenth month after March begins on day 306
  by_cases hmonth : doy < 306
  · have hshifted : (5 * doy + 2) / 153 < 10 := by omega
    rw [if_pos hmonth, if_pos hshifted, if_neg (by omega)]
  · have hshifted : ¬ (5 * doy + 2) / 153 < 10 := by omega
    rw [if_neg hmonth, if_neg hshifted, if_pos (by omega)]

/-! ### The operations on `i64` -/

/-- A computation that logs the exact values of its `i64` operations. -/
abbrev Logged (α : Type) : Type := Traced ℤ CreditError α

/-- An `i64` operation whose exact value is `x`. -/
def i64 (x : ℤ) : Logged ℤ := ⟨[x], .ok (x.bmod (2 ^ 64))⟩

def InI64 (x : ℤ) : Prop := -2 ^ 63 ≤ x ∧ x < 2 ^ 63

/-- `year_from_timestamp`. The division `/` of Rust rounds towards zero. -/
def Logged.yearFromTimestamp (timestamp : ℕ) : Logged ℕ := do
  let days ← i64 (timestamp / 86400 : ℕ)
  let shifted ← i64 (days + 719468)
  let era ← i64 (shifted / 146097)
  let dayOfEra ← i64 (shifted % 146097)
  let fourYears ← i64 (dayOfEra.tdiv 1460)
  let corrected ← i64 (dayOfEra - fourYears)
  let centuries ← i64 (dayOfEra.tdiv 36524)
  let corrected ← i64 (corrected + centuries)
  let eras ← i64 (dayOfEra.tdiv 146096)
  let corrected ← i64 (corrected - eras)
  let yearOfEra ← i64 (corrected.tdiv 365)
  let firstYear ← i64 (era * 400)
  let year ← i64 (yearOfEra + firstYear)
  let firstDay ← i64 (365 * yearOfEra)
  let leapDays ← i64 (yearOfEra.tdiv 4)
  let firstDay ← i64 (firstDay + leapDays)
  let noLeapDays ← i64 (yearOfEra.tdiv 100)
  let firstDay ← i64 (firstDay - noLeapDays)
  let dayOfYear ← i64 (dayOfEra - firstDay)
  let scaled ← i64 (5 * dayOfYear)
  let scaled ← i64 (scaled + 2)
  let shiftedMonth ← i64 (scaled.tdiv 153)
  let month ← if shiftedMonth < 10 then i64 (shiftedMonth + 3) else i64 (shiftedMonth - 9)
  let year ← if month ≤ 2 then i64 (year + 1) else pure year
  return (year % 2 ^ 32).toNat

/-- No operation overflows, and the result is `a`. The log has every intermediate value, in the
order in which they are computed. -/
structure Exact {α : Type} (m : Logged α) (a : α) : Prop where
  inRange : m.All InI64
  result : m.result = .ok a

section Exact

variable {α β : Type} {a : α} {b : β} {x y : ℤ}

theorem exact_pure : Exact (pure a) a := ⟨Traced.all_pure a, rfl⟩

theorem exact_i64 (hx : InI64 x) : Exact (i64 x) x := by
  refine ⟨fun e he => ?_, ?_⟩
  · rw [List.mem_singleton.mp he]
    exact hx
  · have hexact : x.bmod (2 ^ 64) = x := by
      obtain ⟨hlo, hhi⟩ := hx
      exact Int.bmod_eq_of_le (by omega) (by omega)
    rw [i64, hexact]

theorem Exact.bind {m : Logged α} {k : α → Logged β} (hm : Exact m a) (hk : Exact (k a) b) :
    Exact (m >>= k) b := by
  refine ⟨?_, ?_⟩
  · rw [Traced.all_bind, hm.result]
    refine ⟨hm.inRange, fun a' ha => ?_⟩
    obtain rfl := Except.ok.inj ha
    exact hk.inRange
  · rw [Traced.result_bind, hm.result]
    exact hk.result

/-- One operation. -/
theorem exact_step {k : ℤ → Logged β} (hx : InI64 x) (hk : Exact (k x) b) :
    Exact (i64 x >>= k) b :=
  (exact_i64 hx).bind hk

/-- One division. -/
theorem exact_tdiv {k : ℤ → Logged β} (h0 : 0 ≤ x) (hx : InI64 (x / y))
    (hk : Exact (k (x / y)) b) : Exact (i64 (x.tdiv y) >>= k) b := by
  rw [Int.tdiv_eq_ediv_of_nonneg h0]
  exact exact_step hx hk

end Exact

/-- **Nothing overflows.** -/
theorem Logged.yearFromTimestamp_exact {timestamp : ℕ} (ht : timestamp < 2 ^ 64) :
    Exact (Logged.yearFromTimestamp timestamp)
      (CreditRetirement.yearFromTimestamp timestamp) := by
  obtain ⟨d, hd⟩ : ∃ d : ℤ, d = timestamp / 86400 := ⟨_, rfl⟩
  obtain ⟨era, hera⟩ : ∃ era, era = (d + 719468) / 146097 := ⟨_, rfl⟩
  obtain ⟨doe, hdoe⟩ : ∃ doe, doe = (d + 719468) % 146097 := ⟨_, rfl⟩
  obtain ⟨yoe, hyoe⟩ : ∃ yoe, yoe = (doe - doe / 1460 + doe / 36524 - doe / 146096) / 365 :=
    ⟨_, rfl⟩
  obtain ⟨doy, hdoy⟩ : ∃ doy, doy = doe - (365 * yoe + yoe / 4 - yoe / 100) := ⟨_, rfl⟩
  have hd0 : 0 ≤ d ∧ d < 2 ^ 48 := by omega
  have hera0 : 0 ≤ era ∧ era < 2 ^ 48 := by omega
  have hdoe0 : 0 ≤ doe ∧ doe < 146097 := by omega
  obtain ⟨h0, h400, hlo, hhi⟩ := yearOfEra_spec _ hdoe0.1 hdoe0.2 hyoe
  unfold marchStart at hlo hhi
  have hdoy0 : 0 ≤ doy ∧ doy ≤ doe := by omega
  clear hlo hhi
  simp only [CreditRetirement.yearFromTimestamp, Logged.yearFromTimestamp, Nat.cast_ofNat,
    Int.natCast_ediv, ← hd]
  refine exact_step ⟨by omega, by omega⟩ ?_
  refine exact_step ⟨by omega, by omega⟩ ?_
  rw [← hera, ← hdoe]
  -- from here on the bounds are enough
  clear hera hdoe hd ht
  refine exact_step ⟨by omega, by omega⟩ ?_
  refine exact_step ⟨by omega, by omega⟩ ?_
  refine exact_tdiv hdoe0.1 ⟨by omega, by omega⟩ ?_
  refine exact_step ⟨by omega, by omega⟩ ?_
  refine exact_tdiv hdoe0.1 ⟨by omega, by omega⟩ ?_
  refine exact_step ⟨by omega, by omega⟩ ?_
  refine exact_tdiv hdoe0.1 ⟨by omega, by omega⟩ ?_
  refine exact_step ⟨by omega, by omega⟩ ?_
  refine exact_tdiv (by omega) ⟨by omega, by omega⟩ ?_
  rw [← hyoe]
  clear hyoe
  refine exact_step ⟨by omega, by omega⟩ ?_
  refine exact_step ⟨by omega, by omega⟩ ?_
  refine exact_step ⟨by omega, by omega⟩ ?_
  refine exact_tdiv h0 ⟨by omega, by omega⟩ ?_
  refine exact_step ⟨by omega, by omega⟩ ?_
  refine exact_tdiv h0 ⟨by omega, by omega⟩ ?_
  refine exact_step ⟨by omega, by omega⟩ ?_
  rw [← hdoy]
  refine exact_step ⟨by omega, by omega⟩ ?_
  refine exact_step ⟨by omega, by omega⟩ ?_
  refine exact_step ⟨by omega, by omega⟩ ?_
  refine exact_tdiv (by omega) ⟨by omega, by omega⟩ ?_
  by_cases hearly : (5 * doy + 2) / 153 < 10
  · simp only [if_pos hearly]
    refine exact_step ⟨by omega, by omega⟩ ?_
    rw [if_neg (by omega), if_neg (by omega)]
    exact exact_pure
  · simp only [if_neg hearly]
    refine exact_step ⟨by omega, by omega⟩ ?_
    split
    · exact exact_step ⟨by omega, by omega⟩ exact_pure
    · exact exact_pure

/-- **The vintage year.** A `u64` timestamp is in exactly one calendar year. If this is a `u32`,
`year_from_timestamp` computes it, no operation overflows, and earlier timestamps have no later
year. The leap years are those of the Gregorian calendar, and the years begin at midnight of the
first of January, without leap seconds. -/
theorem yearFromTimestamp_calendar {timestamp : ℕ} (ht : timestamp < 2 ^ 64)
    (hyear : ∀ y, InYear y (timestamp / 86400) → y < 2 ^ 32) :
    (∃! y : ℤ, InYear y (timestamp / 86400)) ∧
      InYear (yearFromTimestamp timestamp) (timestamp / 86400) ∧
      (Logged.yearFromTimestamp timestamp).All InI64 ∧
      (Logged.yearFromTimestamp timestamp).result = .ok (yearFromTimestamp timestamp) ∧
      ∀ earlier ≤ timestamp, yearFromTimestamp earlier ≤ yearFromTimestamp timestamp := by
  have hexact := Logged.yearFromTimestamp_exact ht
  -- a year that fits survives the cast
  have hfits : ∀ t : ℕ, (∀ y, InYear y (t / 86400) → y < 2 ^ 32) →
      InYear (yearFromTimestamp t) (t / 86400) := by
    intro t ht
    obtain ⟨y, hy, hresult⟩ := yearFromTimestamp_spec t
    have hlt := ht y hy
    have hle := hy.le (by omega)
    have hcast : ((y % 2 ^ 32).toNat : ℤ) = y := by omega
    rw [hresult, hcast]
    exact hy
  have hin := hfits timestamp hyear
  refine ⟨⟨_, hin, fun y hy => hy.unique hin⟩, hin, hexact.inRange, hexact.result, ?_⟩
  intro earlier hle
  have hdays : (earlier / 86400 : ℤ) ≤ timestamp / 86400 := by omega
  have hin' := hfits earlier fun y hy => (hy.mono hin hdays).trans_lt (hyear _ hin)
  exact_mod_cast hin'.mono hin hdays

/-- The last second of the leap year 2024. -/
theorem yearFromTimestamp_calendar_leap :
    yearFromTimestamp 1735689599 = 2024 ∧ (∃! y : ℤ, InYear y 20088) ∧
      (Logged.yearFromTimestamp 1735689599).All InI64 := by
  have hin : InYear 2024 (1735689599 / 86400) := by
    rw [InYear, daysBefore_eq, daysBefore_eq]
    norm_num
  obtain ⟨hunique, -, hrange, -⟩ := @yearFromTimestamp_calendar 1735689599 (by norm_num)
    fun y hy => (hy.unique hin).trans_lt (by norm_num)
  exact ⟨by decide, hunique, hrange⟩

end CreditRetirement
end NbsBond
