import NbsBond.Framework.FinSum

/-!
# Pledges

A contract sets amounts aside while something is undecided: one pledge for each open item, made out
to an owner. It also keeps, per owner, the running total of what is set aside, and adjusts it as
items open and close. The total is right if it is the sum of the owner's pledges; `total_update`
says by how much that sum moves when one pledge is made, changed or returned, `total_const` that
pledges of one size need only be counted, and `le_total` that returning one never takes the total
below zero.
-/

namespace Pledges

open Function

/-- An amount set aside for an owner. The item it belongs to is the index of the family it stands
in, so that one owner may have any number of them. -/
structure Pledge (ω M : Type) where
  owner : ω
  amount : M

variable {ι ω M : Type} [DecidableEq ω]

section Total

variable [AddCommGroup M]

/-- What a pledge, if there is one, sets aside for `v`. A pledge made out to somebody else sets
nothing aside for `v`. -/
def part (v : ω) : Option (Pledge ω M) → M
  | some p => if p.owner = v then p.amount else 0
  | none => 0

/-- All that is set aside for `v`. The sum is over all items; it is a real sum as long as only
finitely many of them are open. -/
noncomputable def total (f : ι → Option (Pledge ω M)) (v : ω) : M := ∑ᶠ i, part v (f i)

@[simp] theorem part_none (v : ω) : part v (none : Option (Pledge ω M)) = 0 := rfl

/-- A pledge counts in full for its own owner, -/
theorem part_self (p : Pledge ω M) : part p.owner (some p) = p.amount := if_pos rfl

/-- and not at all for anybody else. -/
theorem part_of_ne {p : Pledge ω M} {v : ω} (h : p.owner ≠ v) : part v (some p) = 0 := if_neg h

/-- Items without a pledge do not count. -/
theorem support_part {f : ι → Option (Pledge ω M)} (hf : {i | f i ≠ none}.Finite) (v : ω) :
    (support fun i => part v (f i)).Finite := by
  refine hf.subset ?_
  intro i hi hnone
  rw [mem_support, hnone] at hi
  exact hi rfl

/-- Writing one pledge moves the totals by the difference. Both the old and the new entry may be
empty: making a pledge, changing it and returning it are the same lemma. -/
theorem total_update [DecidableEq ι] {f : ι → Option (Pledge ω M)} (hf : {i | f i ≠ none}.Finite)
    (i : ι) (x : Option (Pledge ω M)) (v : ω) :
    total (update f i x) v = total f v - part v (f i) + part v x := by
  -- the summands change at `i` alone
  have hpart : (fun j => part v (update f i x j)) =
      update (fun j => part v (f j)) i (part v x) := by
    ext1 j
    by_cases hj : j = i
    · subst hj
      rw [update_self, update_self]
    · rw [update_of_ne hj, update_of_ne hj]
  unfold total
  rw [hpart, FinSum.finsum_update (support_part hf v)]

/-- Where all pledges are of one amount, the total counts them. A stake that every open challenge
locks in the same size needs no sum, only the number of open challenges. -/
theorem total_const {f : ι → Option (Pledge ω M)} (hf : {i | f i ≠ none}.Finite) {m : M}
    (hm : ∀ i p, f i = some p → p.amount = m) (v : ω) :
    total f v = {i | ∃ p, f i = some p ∧ p.owner = v}.ncard • m := by
  -- the items counted are among those that have a pledge at all
  have hfinite : {i | ∃ p, f i = some p ∧ p.owner = v}.Finite := by
    refine hf.subset ?_
    rintro i ⟨p, hi, -⟩ hnone
    rw [hi] at hnone
    cases hnone
  have hpart : ∀ i, part v (f i) = ∑ᶠ (_ : i ∈ {i | ∃ p, f i = some p ∧ p.owner = v}), m := by
    intro i
    by_cases hi : i ∈ {i | ∃ p, f i = some p ∧ p.owner = v}
    · obtain ⟨p, hp, rfl⟩ := id hi
      rw [finsum_eq_if, if_pos hi, hp, part_self, hm i p hp]
    · rw [finsum_eq_if, if_neg hi]
      cases hp : f i with
      | none => rfl
      | some p => exact part_of_ne fun howner => hi ⟨p, hp, howner⟩
  unfold total
  rw [finsum_congr hpart, finsum_mem_eq_finite_toFinset_sum _ hfinite, Finset.sum_const,
    Set.ncard_eq_toFinset_card _ hfinite]

/-- An owner without pledges has nothing set aside. -/
theorem total_eq_zero {f : ι → Option (Pledge ω M)} {v : ω}
    (h : ∀ i p, f i = some p → p.owner ≠ v) : total f v = 0 := by
  have hzero : (fun i => part v (f i)) = fun _ => 0 := by
    ext1 i
    cases hi : f i with
    | none => rfl
    | some p => exact part_of_ne (h i p hi)
  unfold total
  rw [hzero, finsum_zero]

end Total

section Order

variable [AddCommGroup M] [PartialOrder M] {f : ι → Option (Pledge ω M)}

/-- Amounts that are not negative contribute nothing negative. -/
theorem part_nonneg (hnonneg : ∀ i p, f i = some p → 0 ≤ p.amount) (v : ω) (i : ι) :
    0 ≤ part v (f i) := by
  cases hi : f i with
  | none => exact le_refl 0
  | some p =>
    by_cases howner : p.owner = v
    · rw [← howner, part_self]
      exact hnonneg i p hi
    · rw [part_of_ne howner]

variable [IsOrderedAddMonoid M]

/-- The total of such amounts is not negative either. -/
theorem total_nonneg (hnonneg : ∀ i p, f i = some p → 0 ≤ p.amount) (v : ω) : 0 ≤ total f v :=
  finsum_nonneg (part_nonneg hnonneg v)

/-- What one pledge sets aside is part of the total. Returning it leaves at least zero. -/
theorem le_total (hf : {i | f i ≠ none}.Finite) (hnonneg : ∀ i p, f i = some p → 0 ≤ p.amount)
    {i : ι} {p : Pledge ω M} (hi : f i = some p) : p.amount ≤ total f p.owner :=
  calc p.amount = part p.owner (f i) := by rw [hi, part_self]
    _ ≤ ∑ᶠ j, part p.owner (f j) :=
      single_le_finsum i (support_part hf _) (part_nonneg hnonneg p.owner)

end Order

end Pledges
