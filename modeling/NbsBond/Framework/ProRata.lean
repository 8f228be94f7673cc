import Mathlib

/-!
# Pro-rata allocation in fixed point

An amount `T` is divided over `S` units in two roundings: the rate per unit, `T / S` with the scale
`F`, is rounded down, and so is the rate times the units of each holder. No holder gets more than
its exact share and all of them together no more than `T`; what is left over is less than the error
of the rate, which is one step of the scale on all the units, and one unit of account per holder.
-/

namespace ProRata

variable {F T S : ℤ}

/-- The rate per unit, in steps of `1 / F`. This is the number that the contract stores and reads
back at every batch, already rounded. -/
def rate (F T S : ℤ) : ℤ := T * F / S

/-- The allocation of `x` units. It is computed from the stored rate, so that it is rounded a second
time. -/
def allot (F T S x : ℤ) : ℤ := rate F T S * x / F

/-- Nothing is divided at a negative rate. -/
theorem rate_nonneg (hF : 0 < F) (hT : 0 ≤ T) (hS : 0 < S) : 0 ≤ rate F T S :=
  Int.ediv_nonneg (mul_nonneg hT hF.le) hS.le

/-- The rate is never too high: all units at this rate come to no more than the amount. -/
theorem rate_mul_le (hS : 0 < S) : rate F T S * S ≤ T * F := Int.ediv_mul_le _ hS.ne'

/-- The rate is less than one step of the scale too low. -/
theorem lt_rate_mul (hS : 0 < S) : T * F < rate F T S * S + S := by
  have hlt := Int.lt_ediv_add_one_mul_self (T * F) hS
  rwa [add_mul, one_mul] at hlt

/-- Nor is an allocation higher than its units at the rate. -/
theorem allot_mul_le (hF : 0 < F) (x : ℤ) : allot F T S x * F ≤ rate F T S * x :=
  Int.ediv_mul_le _ hF.ne'

/-- An allocation is less than one too low. -/
theorem lt_allot_mul (hF : 0 < F) (x : ℤ) : rate F T S * x < allot F T S x * F + F := by
  have hlt := Int.lt_ediv_add_one_mul_self (rate F T S * x) hF
  rwa [add_mul, one_mul] at hlt

/-- More units, no smaller allocation. -/
theorem allot_mono (hF : 0 < F) (hT : 0 ≤ T) (hS : 0 < S) : Monotone (allot F T S) := by
  intro x y hxy
  exact Int.ediv_le_ediv hF (mul_le_mul_of_nonneg_left hxy (rate_nonneg hF hT hS))

/-- **Nobody** gets more than the exact share. The two roundings go the same way, so that they do
not have to be weighed against each other. -/
theorem allot_le_share (hF : 0 < F) (hS : 0 < S) {x : ℤ} (hx : 0 ≤ x) :
    allot F T S x * S ≤ T * x := by
  -- compare in steps of the scale, where the division is exact from above
  apply le_of_mul_le_mul_right _ hF
  calc allot F T S x * S * F = allot F T S x * F * S := mul_right_comm _ _ _
    _ ≤ rate F T S * x * S := mul_le_mul_of_nonneg_right (allot_mul_le hF x) hS.le
    _ = rate F T S * S * x := mul_right_comm _ _ _
    _ ≤ T * F * x := mul_le_mul_of_nonneg_right (rate_mul_le hS) hx
    _ = T * x * F := mul_right_comm _ _ _

/-! ### All holders -/

variable {xs : List ℤ}

/-- The allocations of a list of holders are together no more than its units at the rate. Induction
on the holders: each allocation is rounded down by itself. -/
theorem sum_allot_mul_le (hF : 0 < F) :
    (xs.map (allot F T S)).sum * F ≤ rate F T S * xs.sum := by
  induction xs with
  | nil => simp
  | cons x xs ih =>
    rw [List.map_cons, List.sum_cons, List.sum_cons, add_mul, mul_add]
    exact add_le_add (allot_mul_le hF x) ih

/-- The allocations are less than one too low each. -/
theorem rate_mul_sum_le (hF : 0 < F) :
    rate F T S * xs.sum ≤ (xs.map (allot F T S)).sum * F + xs.length * F := by
  induction xs with
  | nil => simp
  | cons x xs ih =>
    have hx := lt_allot_mul (T := T) (S := S) hF x
    rw [List.map_cons, List.sum_cons, List.sum_cons, List.length_cons]
    push_cast
    linarith

/-- **All together** get no more than the amount. It is enough that the list holds no more than the
units the rate was computed for; it need not be complete, so that this also bounds every batch
before the last. -/
theorem sum_allot_le (hF : 0 < F) (hT : 0 ≤ T) (hS : 0 < S) (hxs : xs.sum ≤ S) :
    (xs.map (allot F T S)).sum ≤ T := by
  apply le_of_mul_le_mul_right _ hF
  calc (xs.map (allot F T S)).sum * F ≤ rate F T S * xs.sum := sum_allot_mul_le hF
    _ ≤ rate F T S * S := mul_le_mul_of_nonneg_left hxs (rate_nonneg hF hT hS)
    _ ≤ T * F := rate_mul_le hS

/-- **What is left over** once all units are processed. The bound is the rate's own error on all the
units and one unit of account for each holder, both in steps of the scale. -/
theorem remainder_lt (hF : 0 < F) (hS : 0 < S) (hxs : xs.sum = S) :
    (T - (xs.map (allot F T S)).sum) * F < S + xs.length * F := by
  have hrate := lt_rate_mul (F := F) (T := T) hS
  have hsum : rate F T S * xs.sum ≤ (xs.map (allot F T S)).sum * F + xs.length * F :=
    rate_mul_sum_le hF
  rw [hxs] at hsum
  linarith

end ProRata
