import Mathlib

/-!
# Years of the Gregorian calendar

Days are counted from 1970-01-01, and years are as in the proleptic Gregorian calendar: every fourth
one is a leap year, of the centuries only every fourth. `daysBefore` adds up the lengths of the
years between 1970 and a given one, and `daysBefore_eq` is its closed form. A day is in exactly one
year, and a later day in the same or a later one.
-/

namespace Calendar

/-- A year with a 29th of February. -/
def IsLeap (y : ℤ) : Prop := 4 ∣ y ∧ (¬ 100 ∣ y ∨ 400 ∣ y)

instance : DecidablePred IsLeap := fun y =>
  inferInstanceAs (Decidable (4 ∣ y ∧ (¬ 100 ∣ y ∨ 400 ∣ y)))

def yearLength (y : ℤ) : ℤ := if IsLeap y then 366 else 365

/-- The number of days from 1970-01-01 to January 1 of year `y`, negative before 1970. One of the
two sums is empty. -/
noncomputable def daysBefore (y : ℤ) : ℤ :=
  ∑ i ∈ Finset.Ico 1970 y, yearLength i - ∑ i ∈ Finset.Ico y 1970, yearLength i

/-- Day `d` is in year `y`. -/
def InYear (y d : ℤ) : Prop := daysBefore y ≤ d ∧ d < daysBefore (y + 1)

/-- The count starts here. -/
theorem daysBefore_1970 : daysBefore 1970 = 0 := by simp [daysBefore]

/-- The next year begins when this one is over. Before 1970 it is the second sum that loses a year.
-/
theorem daysBefore_succ (y : ℤ) : daysBefore (y + 1) = daysBefore y + yearLength y := by
  unfold daysBefore
  rcases le_or_gt 1970 y with hy | hy
  -- The year is the last of the first sum, or the first of the second.
  · rw [← Finset.insert_Ico_right_eq_Ico_add_one hy, Finset.sum_insert (by simp),
      Finset.Ico_eq_empty_of_le (show (1970 : ℤ) ≤ y + 1 by omega), Finset.Ico_eq_empty_of_le hy]
    ring
  · rw [← Finset.insert_Ico_add_one_left_eq_Ico hy, Finset.sum_insert (by simp),
      Finset.Ico_eq_empty_of_le (show y + 1 ≤ 1970 by omega), Finset.Ico_eq_empty_of_le hy.le]
    ring

/-- The leap rule, by divisions. The three quotients change with the leap years, the centuries and
the fourth centuries. -/
theorem yearLength_eq (y : ℤ) : yearLength y =
    365 + (y / 4 - (y - 1) / 4) - (y / 100 - (y - 1) / 100) + (y / 400 - (y - 1) / 400) := by
  unfold yearLength
  split
  · next hleap =>
    obtain ⟨h4, hcentury⟩ := hleap
    omega
  · next hleap =>
    rw [IsLeap, not_and_or] at hleap
    omega

/-- **The closed form.** The constant makes the count start in 1970. Every fourth year is a leap
year, but for every hundredth, and again every four hundredth. -/
theorem daysBefore_eq (y : ℤ) : daysBefore y =
    365 * (y - 1970) + (y - 1) / 4 - (y - 1) / 100 + (y - 1) / 400 - 477 := by
  -- On the year, from 1970 in both directions; each step adds the length of one year to the closed
  -- form.
  induction y using Int.inductionOn' (b := 1970) with
  | zero => rw [daysBefore_1970]; rfl
  | succ y _ ih =>
    rw [daysBefore_succ, yearLength_eq, ih, add_sub_cancel_right]
    ring
  | pred y _ ih =>
    have hsucc := daysBefore_succ (y - 1)
    rw [sub_add_cancel, yearLength_eq, ih] at hsucc
    linarith

/-- Every year has days. -/
theorem daysBefore_strictMono : StrictMono daysBefore := by
  refine strictMono_int_of_lt_succ fun y => ?_
  have hpos : 0 < yearLength y := by
    unfold yearLength
    split <;> norm_num
  rw [daysBefore_succ]
  exact lt_add_of_pos_right _ hpos

section InYear

variable {y y' d d' : ℤ}

/-- A later day is not in an earlier year. -/
theorem InYear.mono (hy : InYear y d) (hy' : InYear y' d') (hd : d ≤ d') : y ≤ y' := by
  have hlt : daysBefore y < daysBefore (y' + 1) := hy.1.trans_lt (hd.trans_lt hy'.2)
  exact Int.lt_add_one_iff.mp (daysBefore_strictMono.lt_iff_lt.mp hlt)

/-- A day is in no other year. -/
theorem InYear.unique (hy : InYear y d) (hy' : InYear y' d) : y = y' :=
  le_antisymm (hy.mono hy' le_rfl) (hy'.mono hy le_rfl)

/-- The days from 1970 on are in the years from 1970 on. -/
theorem InYear.le (hy : InYear y d) (hd : 0 ≤ d) : 1970 ≤ y := by
  have hlt : daysBefore 1970 < daysBefore (y + 1) := by
    rw [daysBefore_1970]
    exact hd.trans_lt hy.2
  exact Int.lt_add_one_iff.mp (daysBefore_strictMono.lt_iff_lt.mp hlt)

end InYear

end Calendar
