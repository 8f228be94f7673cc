import Mathlib

/-!
# Signed 128-bit arithmetic

Token amounts are `i128` values. The model carries them as integers, and every operation of the
Rust standard library that can leave the `i128` range is a function here:

* `checkedAdd` / `checkedSub` / `checkedMul` — `i128::checked_add` and its siblings, `none` on
  overflow;
* `saturatingAdd` / `saturatingSub` / `saturatingMul` — clamp to the range;
* `wrap` — what a plain `+`, `-` or `*` computes in a release build, where overflow checks are off:
  the representative of the exact result modulo `2 ^ 128`.

A plain operation whose result provably stays in the range is written with the integer operation
itself. Division by a positive divisor is `Int.tdiv`, which truncates towards zero as Rust's `/`
does.
-/

namespace Int128

/-- The least `i128`. -/
def minValue : ℤ := -2 ^ 127

/-- The greatest `i128`. -/
def maxValue : ℤ := 2 ^ 127 - 1

/-- The value fits an `i128`. -/
def InRange (x : ℤ) : Prop := minValue ≤ x ∧ x ≤ maxValue

instance (x : ℤ) : Decidable (InRange x) := inferInstanceAs (Decidable (_ ∧ _))

/-- Amounts that are not negative have one bound to keep. -/
theorem InRange.of_nonneg {x : ℤ} (h₀ : 0 ≤ x) (h₁ : x ≤ maxValue) : InRange x :=
  ⟨le_trans (by decide) h₀, h₁⟩

/-- Two's complement representative of `x`: the result of a plain operation in a release build. -/
def wrap (x : ℤ) : ℤ := x.bmod (2 ^ 128)

/-- Every result is an `i128`. -/
theorem wrap_inRange (x : ℤ) : InRange (wrap x) := by
  have h₁ := Int.le_bmod (x := x) (m := 2 ^ 128) (by norm_num)
  have h₂ := Int.bmod_lt (x := x) (m := 2 ^ 128) (by norm_num)
  unfold InRange minValue maxValue wrap
  norm_num at h₁ h₂ ⊢
  omega

/-- A result inside the range is exact. -/
theorem wrap_of_inRange {x : ℤ} (h : InRange x) : wrap x = x := by
  obtain ⟨h₁, h₂⟩ := h
  unfold minValue at h₁
  -- The representative is unique, so it is the number itself.
  unfold maxValue at h₂
  apply Int.bmod_eq_of_le <;> norm_num at h₁ h₂ ⊢ <;> omega

/-- Only a result inside the range is exact. -/
theorem wrap_eq_self_iff {x : ℤ} : wrap x = x ↔ InRange x :=
  ⟨fun h => h ▸ wrap_inRange x, wrap_of_inRange⟩

/-- A sum that does not fall below the range wraps downwards. -/
theorem wrap_le {x : ℤ} (h : minValue ≤ x) : wrap x ≤ x := by
  by_cases hmax : x ≤ maxValue
  · exact (wrap_of_inRange ⟨h, hmax⟩).le
  · exact (wrap_inRange x).2.trans (not_le.mp hmax).le

/-- A value above the range wraps downwards, by `2 ^ 128` at least. -/
theorem wrap_le_sub {x : ℤ} (h : maxValue < x) : wrap x ≤ x - 2 ^ 128 := by
  unfold maxValue at h
  -- `bmod` is the remainder, or that less the modulus; above the range the quotient is one at
  -- least.
  unfold wrap Int.bmod
  dsimp only
  split <;> omega

/-- Wrapping as one goes is wrapping once. -/
theorem foldl_wrap {α : Type} {f : α → ℤ} {l : List α} {a : ℤ} :
    l.foldl (fun total x => wrap (total + f x)) (wrap a) = wrap (a + (l.map f).sum) := by
  -- On the list: the remainder of a sum is that of the sum of remainders.
  induction l generalizing a with
  | nil => simp
  | cons x l ih =>
    have hwrap : wrap (wrap a + f x) = wrap (a + f x) := Int.bmod_add_bmod
    rw [List.foldl_cons, hwrap, ih, List.map_cons, List.sum_cons, add_assoc]

/-- `i128::checked_add`. -/
def checkedAdd (a b : ℤ) : Option ℤ := if InRange (a + b) then some (a + b) else none

/-- `i128::checked_sub`. -/
def checkedSub (a b : ℤ) : Option ℤ := if InRange (a - b) then some (a - b) else none

/-- It succeeds just if the exact sum fits, and then with it. -/
theorem checkedAdd_eq_some {a b c : ℤ} :
    checkedAdd a b = some c ↔ InRange (a + b) ∧ a + b = c := by
  unfold checkedAdd
  split <;> simp_all

/-- The same for a difference. -/
theorem checkedSub_eq_some {a b c : ℤ} :
    checkedSub a b = some c ↔ InRange (a - b) ∧ a - b = c := by
  unfold checkedSub
  split <;> simp_all

/-- `i128::checked_mul`. -/
def checkedMul (a b : ℤ) : Option ℤ := if InRange (a * b) then some (a * b) else none

/-- The same for a product. -/
theorem checkedMul_eq_some {a b c : ℤ} :
    checkedMul a b = some c ↔ InRange (a * b) ∧ a * b = c := by
  unfold checkedMul
  split <;> simp_all

/-- Clamp to the `i128` range. -/
def saturate (x : ℤ) : ℤ := max minValue (min x maxValue)

/-- Clamping an amount leaves an amount. -/
theorem saturate_nonneg {x : ℤ} (h : 0 ≤ x) : 0 ≤ saturate x :=
  le_max_of_le_right (le_min h (by decide))

/-- Clamping leaves what fits. -/
theorem saturate_of_inRange {x : ℤ} (h : InRange x) : saturate x = x := by
  unfold saturate
  rw [min_eq_left h.2, max_eq_right h.1]

/-- `i128::saturating_add`. -/
def saturatingAdd (a b : ℤ) : ℤ := saturate (a + b)

/-- `i128::saturating_sub`. -/
def saturatingSub (a b : ℤ) : ℤ := saturate (a - b)

/-- `i128::saturating_mul`. -/
def saturatingMul (a b : ℤ) : ℤ := saturate (a * b)

/-! ### Truncating division by a positive divisor -/

/-- Rounding towards zero does not exceed what is divided. -/
theorem tdiv_mul_le {a b : ℤ} (ha : 0 ≤ a) (hb : 0 < b) : a.tdiv b * b ≤ a := by
  rw [Int.tdiv_eq_ediv_of_nonneg ha]
  exact Int.ediv_mul_le a hb.ne'

end Int128
