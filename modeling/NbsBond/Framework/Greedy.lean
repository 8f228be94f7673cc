import Mathlib

/-!
# Taking the cheapest units first

A quantity is to be taken from items that each have a capacity and a price per unit. Taking from the
items in the order of their prices costs the least. The argument is by duality: an allocation that
takes everything cheaper than some price `p` and nothing dearer (`UpTo`) costs no more than any
other one of the same quantity, and the others that cost as little are of the same kind.
-/

namespace Greedy

variable {ι R : Type} [CommRing R] [LinearOrder R] (cap price : ι → R)

/-- `y` takes `q` units from the items `L`, from each at most its capacity. Whether it takes them in
any order is not said; this is what an allocation is compared with. -/
structure Takes (L : Finset ι) (q : R) (y : ι → R) : Prop where
  nonneg : ∀ i ∈ L, 0 ≤ y i
  le : ∀ i ∈ L, y i ≤ cap i
  sum : ∑ i ∈ L, y i = q

/-- What the units cost. -/
def cost (L : Finset ι) (y : ι → R) : R := ∑ i ∈ L, y i * price i

/-- Everything cheaper than `p` is taken, and nothing dearer. At `p` itself anything may be taken,
so that the quantity can be met exactly. -/
def UpTo (L : Finset ι) (p : R) (y : ι → R) : Prop :=
  ∀ i ∈ L, (price i < p → y i = cap i) ∧ (p < price i → y i = 0)

variable {cap price} {L : Finset ι} {q p : R} {y z : ι → R}

/-! ### The greedy allocation -/

section Greedy

variable [DecidableEq ι]

variable (cap) in
/-- Take as much as possible of the first item, and the rest from the others. Items after the one
that covers the rest are visited too, and nothing is taken from them. -/
def greedy : List ι → R → ι → R
  | [], _, _ => 0
  | i :: l, q, j => if j = i then min q (cap i) else greedy l (q - min q (cap i)) j

/-- The first item is asked first, -/
theorem greedy_self {i : ι} {l : List ι} : greedy cap (i :: l) q i = min q (cap i) := if_pos rfl

/-- and the others for the rest. -/
theorem greedy_of_ne {i j : ι} {l : List ι} (hj : j ≠ i) :
    greedy cap (i :: l) q j = greedy cap l (q - min q (cap i)) j := if_neg hj

/-- A sum along the allocation is what the first item adds, and the sum along the rest. Both what is
taken and what it costs are such sums. -/
theorem sum_greedy_cons (cap : ι → R) {i : ι} {l : List ι} (hi : i ∉ l) (q : R)
    (f : ι → R → R) :
    ∑ j ∈ (i :: l).toFinset, f j (greedy cap (i :: l) q j) =
      f i (min q (cap i)) + ∑ j ∈ l.toFinset, f j (greedy cap l (q - min q (cap i)) j) := by
  have hi : i ∉ l.toFinset := by rwa [List.mem_toFinset]
  have hrest : ∀ j ∈ l.toFinset, f j (greedy cap (i :: l) q j) =
      f j (greedy cap l (q - min q (cap i)) j) := by
    intro j hj
    rw [greedy_of_ne]
    rintro rfl
    exact hi hj
  rw [List.toFinset_cons, Finset.sum_insert hi, greedy_self, Finset.sum_congr rfl hrest]

/-- Once nothing is left to take, nothing is taken. -/
theorem greedy_zero {l : List ι} (hcap : ∀ i ∈ l, 0 ≤ cap i) (j : ι) : greedy cap l 0 j = 0 := by
  induction l with
  | nil => rfl
  | cons i l ih =>
    rw [List.forall_mem_cons] at hcap
    have hmin : min 0 (cap i) = 0 := min_eq_left hcap.1
    by_cases hj : j = i
    · rw [hj, greedy_self, hmin]
    · rw [greedy_of_ne hj, hmin, sub_zero]
      exact ih hcap.2

/-- Along a list sorted by price it takes up to some price. Induction on the list. If the first item
is enough, its price is the one; otherwise it is used up, and the price of the rest is still above
it. -/
theorem greedy_upTo {l : List ι} (hsorted : l.Pairwise fun i j => price i ≤ price j)
    (hl : l.Nodup) (hcap : ∀ i ∈ l, 0 ≤ cap i) (q : R) :
    ∃ p, UpTo cap price l.toFinset p (greedy cap l q) := by
  induction l generalizing q with
  | nil => exact ⟨0, by simp [UpTo]⟩
  | cons i l ih =>
    rw [List.pairwise_cons] at hsorted
    rw [List.nodup_cons] at hl
    rw [List.forall_mem_cons] at hcap
    have hne : ∀ j ∈ l, j ≠ i := by
      rintro j hj rfl
      exact hl.1 hj
    rcases le_total q (cap i) with hle | hle
    · -- the first item is enough, and its price is the lowest
      refine ⟨price i, ?_⟩
      intro j hj
      rcases List.mem_cons.mp (List.mem_toFinset.mp hj) with rfl | hj
      · exact ⟨fun h => absurd h (lt_irrefl _), fun h => absurd h (lt_irrefl _)⟩
      · refine ⟨fun h => absurd h (hsorted.1 j hj).not_gt, fun _ => ?_⟩
        rw [greedy_of_ne (hne j hj), min_eq_left hle, sub_self]
        exact greedy_zero hcap.2 j
    · -- the first item is exhausted
      obtain ⟨p, hp⟩ := ih hsorted.2 hl.2 hcap.2 (q - min q (cap i))
      refine ⟨max p (price i), ?_⟩
      intro j hj
      rcases List.mem_cons.mp (List.mem_toFinset.mp hj) with rfl | hj
      · refine ⟨fun _ => ?_, fun h => absurd h (le_max_right _ _).not_gt⟩
        rw [greedy_self, min_eq_right hle]
      · have hj' := hp j (List.mem_toFinset.mpr hj)
        rw [greedy_of_ne (hne j hj)]
        constructor
        · intro hlt
          rcases lt_max_iff.mp hlt with hlt | hlt
          · exact hj'.1 hlt
          · exact absurd hlt (hsorted.1 j hj).not_gt
        · intro hgt
          exact hj'.2 ((le_max_left _ _).trans_lt hgt)

end Greedy

/-! ### Duality -/

section Bounds

variable [IsOrderedRing R]

/-- There are as many units as are taken. -/
theorem Takes.le_sum (hy : Takes cap L q y) : q ≤ ∑ i ∈ L, cap i := by
  rw [← hy.sum]
  exact Finset.sum_le_sum hy.le

/-- Where no price is below `p`, the units cost `p` each at least. -/
theorem Takes.mul_le_cost (hy : Takes cap L q y) (hp : ∀ i ∈ L, p ≤ price i) :
    q * p ≤ cost price L y := by
  rw [← hy.sum, Finset.sum_mul]
  exact Finset.sum_le_sum fun i hi => mul_le_mul_of_nonneg_left (hp i hi) (hy.nonneg i hi)

/-- Where no price is above `p`, the units cost `p` each at most. -/
theorem Takes.cost_le_mul (hy : Takes cap L q y) (hp : ∀ i ∈ L, price i ≤ p) :
    cost price L y ≤ q * p := by
  rw [← hy.sum, Finset.sum_mul]
  exact Finset.sum_le_sum fun i hi => mul_le_mul_of_nonneg_left (hp i hi) (hy.nonneg i hi)

end Bounds

/-- The difference of two costs, with the prices counted from `p`. Both allocations take the same
quantity, so that any price can be subtracted from each. -/
theorem cost_sub (hy : Takes cap L q y) (hz : Takes cap L q z) (p : R) :
    cost price L z - cost price L y = ∑ i ∈ L, (z i - y i) * (price i - p) := by
  have hsame : ∑ i ∈ L, (z i - y i) * p = 0 := by
    rw [← Finset.sum_mul, Finset.sum_sub_distrib, hy.sum, hz.sum, sub_self, zero_mul]
  calc cost price L z - cost price L y
      = ∑ i ∈ L, (z i - y i) * price i := by
        unfold cost
        rw [← Finset.sum_sub_distrib]
        exact Finset.sum_congr rfl fun i _ => by ring
    _ = ∑ i ∈ L, ((z i - y i) * price i - (z i - y i) * p) := by
        rw [Finset.sum_sub_distrib, hsame, sub_zero]
    _ = ∑ i ∈ L, (z i - y i) * (price i - p) :=
        Finset.sum_congr rfl fun i _ => by ring

variable [IsStrictOrderedRing R]

/-- Moving units away from `y` costs more on every item. This is the whole argument of optimality,
item by item. -/
theorem UpTo.term_nonneg (hp : UpTo cap price L p y) (hz : Takes cap L q z) {i : ι} (hi : i ∈ L) :
    0 ≤ (z i - y i) * (price i - p) := by
  -- a cheaper item is taken whole by `y`, a dearer one not at all
  rcases lt_trichotomy (price i) p with hlt | heq | hgt
  · have hle := hz.le i hi
    rw [(hp i hi).1 hlt]
    exact mul_nonneg_of_nonpos_of_nonpos (by linarith) (by linarith)
  · rw [heq, sub_self, mul_zero]
  · have hnonneg := hz.nonneg i hi
    rw [(hp i hi).2 hgt, sub_zero]
    exact mul_nonneg hnonneg (by linarith)

/-- **Optimality.** Every term of the difference is at least zero, by the choice of `p`. -/
theorem UpTo.cost_le (hp : UpTo cap price L p y) (hy : Takes cap L q y) (hz : Takes cap L q z) :
    cost price L y ≤ cost price L z := by
  apply sub_nonneg.mp
  rw [cost_sub hy hz p]
  exact Finset.sum_nonneg fun i hi => hp.term_nonneg hz hi

/-! ### Optimality of the greedy allocation -/

variable [DecidableEq ι]

/-- It takes what is asked for, or everything. The part that is not covered is what the caller
reports as missing. -/
theorem greedy_takes {l : List ι} (hl : l.Nodup) (hcap : ∀ i ∈ l, 0 ≤ cap i) (hq : 0 ≤ q) :
    Takes cap l.toFinset (min q (∑ i ∈ l.toFinset, cap i)) (greedy cap l q) := by
  induction l generalizing q with
  | nil => exact ⟨by simp, by simp, by simp [hq]⟩
  | cons i l ih =>
    rw [List.nodup_cons] at hl
    rw [List.forall_mem_cons] at hcap
    have hi : i ∉ l.toFinset := by rw [List.mem_toFinset]; exact hl.1
    have hrest : 0 ≤ q - min q (cap i) := sub_nonneg.mpr (min_le_left q (cap i))
    have hl' := ih hl.2 hcap.2 hrest
    have hne : ∀ j ∈ l.toFinset, j ≠ i := by
      rintro j hj rfl
      exact hi hj
    rw [List.toFinset_cons]
    refine ⟨?_, ?_, ?_⟩
    · intro j hj
      rcases Finset.mem_insert.mp hj with rfl | hj
      · rw [greedy_self]
        exact le_min hq hcap.1
      · rw [greedy_of_ne (hne j hj)]
        exact hl'.nonneg j hj
    · intro j hj
      rcases Finset.mem_insert.mp hj with rfl | hj
      · rw [greedy_self]
        exact min_le_right q (cap j)
      · rw [greedy_of_ne (hne j hj)]
        exact hl'.le j hj
    · have hsum := sum_greedy_cons cap hl.1 q fun _ taken => taken
      rw [List.toFinset_cons] at hsum
      rw [hsum, hl'.sum, Finset.sum_insert hi]
      -- the first item is exhausted, or nothing is left for the others
      have htotal : 0 ≤ ∑ j ∈ l.toFinset, cap j :=
        Finset.sum_nonneg fun j hj => hcap.2 j (List.mem_toFinset.mp hj)
      rcases le_total q (cap i) with hle | hle
      · rw [min_eq_left hle, sub_self, min_eq_left htotal, add_zero, min_eq_left]
        linarith
      · rw [min_eq_right hle, ← min_add_add_left, add_sub_cancel]

/-- **The greedy allocation is a cheapest one.** Two lists of the same items in the order of their
prices may differ where prices are equal; each of them gives a cheapest one. -/
theorem greedy_cost_le {l : List ι} (hsorted : l.Pairwise fun i j => price i ≤ price j)
    (hl : l.Nodup) (hcap : ∀ i ∈ l, 0 ≤ cap i) (hq : 0 ≤ q)
    (hz : Takes cap l.toFinset (min q (∑ i ∈ l.toFinset, cap i)) z) :
    cost price l.toFinset (greedy cap l q) ≤ cost price l.toFinset z := by
  obtain ⟨p, hp⟩ := greedy_upTo hsorted hl hcap q
  exact hp.cost_le (greedy_takes hl hcap hq) hz

/-- Along a list sorted by falling price it is a dearest one. For a seller's side: the highest bids
first. -/
theorem le_greedy_cost {l : List ι} (hsorted : l.Pairwise fun i j => price j ≤ price i)
    (hl : l.Nodup) (hcap : ∀ i ∈ l, 0 ≤ cap i) (hq : 0 ≤ q)
    (hz : Takes cap l.toFinset (min q (∑ i ∈ l.toFinset, cap i)) z) :
    cost price l.toFinset z ≤ cost price l.toFinset (greedy cap l q) := by
  -- with the prices negated it is a cheapest one
  have hneg : ∀ y : ι → R,
      cost (fun i => -price i) l.toFinset y = -cost price l.toFinset y := by
    intro y
    simp [cost]
  have hsorted' : l.Pairwise fun i j => -price i ≤ -price j :=
    hsorted.imp fun h => neg_le_neg h
  have hle := greedy_cost_le hsorted' hl hcap hq hz
  rw [hneg, hneg] at hle
  exact neg_le_neg_iff.mp hle

end Greedy
