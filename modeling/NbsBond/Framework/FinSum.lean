import Mathlib

/-!
# Sums over storage maps

A contract keeps one balance per key and never materialises the set of keys, so a ledger is a
function with finite support and its total is `finsum`. A write changes one entry; `finsum_update`
says by how much the total moves, and `support_update` that the support stays finite.

A key is usually composite: the ledger of one bond is a section `fun y => f (e y)` of a map over
larger keys. `section_update_self` and `section_update_of_ne` say what a write to the large map does
to a section.

`unmarked` is the total of the keys that were not ticked off yet, for a procedure that works a
ledger off key by key.
-/

namespace FinSum

variable {α M : Type} [DecidableEq α] [AddCommGroup M]

/-- Writing one entry keeps the support finite. -/
theorem support_update {f : α → M} (hf : f.support.Finite) (a : α) (v : M) :
    (Function.update f a v).support.Finite := by
  -- At most the one key is added.
  refine (hf.insert a).subset ?_
  intro x hx
  by_cases h : x = a
  · exact Or.inl h
  · rw [Function.mem_support, Function.update_of_ne h] at hx
    exact Or.inr hx

/-- Writing `v` over the entry at `a` moves the total by the difference. -/
theorem finsum_update {f : α → M} (hf : f.support.Finite) (a : α) (v : M) :
    ∑ᶠ x, Function.update f a v x = ∑ᶠ x, f x - f a + v := by
  -- Both sums are taken over one finite set, which has the key and the support of both functions.
  have hs : f.support ⊆ ↑(insert a hf.toFinset) := by
    intro x hx
    simp [Function.mem_support.mp hx]
  have hs' : (Function.update f a v).support ⊆ ↑(insert a hf.toFinset) := by
    intro x hx
    by_cases h : x = a
    · simp [h]
    · rw [Function.mem_support, Function.update_of_ne h] at hx
      simp [hx]
  -- So they differ in one summand.
  rw [finsum_eq_sum_of_support_subset _ hs, finsum_eq_sum_of_support_subset _ hs',
    Finset.sum_update_of_mem (Finset.mem_insert_self _ _),
    ← Finset.add_sum_erase _ f (Finset.mem_insert_self a hf.toFinset),
    Finset.sdiff_singleton_eq_erase]
  abel

/-- A list that accounts for the whole total of a non-negative ledger leaves nothing to the other
keys. -/
theorem eq_zero_of_sum {f : α → ℤ} (hf : f.support.Finite) (hnonneg : ∀ x, 0 ≤ f x) {l : List α}
    (hl : l.Nodup) (hsum : (l.map f).sum = ∑ᶠ x, f x) {a : α} (ha : a ∉ l) : f a = 0 := by
  -- A finite set with all keys that count, the list and the key in question.
  let keys : Finset α := hf.toFinset ∪ insert a l.toFinset
  have hkeys : f.support ⊆ ↑keys := by
    intro x hx
    exact Finset.mem_union_left _ (hf.mem_toFinset.mpr hx)
  -- Adding the key to those of the list adds nothing, as the total is reached without it.
  have hle : f a + ∑ x ∈ l.toFinset, f x ≤ ∑ x ∈ l.toFinset, f x :=
    calc f a + ∑ x ∈ l.toFinset, f x
        = ∑ x ∈ insert a l.toFinset, f x :=
          (Finset.sum_insert fun h => ha (List.mem_toFinset.mp h)).symm
      _ ≤ ∑ x ∈ keys, f x :=
          Finset.sum_le_sum_of_subset_of_nonneg Finset.subset_union_right fun x _ _ => hnonneg x
      _ = ∑ᶠ x, f x := (finsum_eq_sum_of_support_subset f hkeys).symm
      _ = (l.map f).sum := hsum.symm
      _ = ∑ x ∈ l.toFinset, f x := (List.sum_toFinset f hl).symm
  have hnonneg := hnonneg a
  omega

/-- Two entries of a non-negative ledger are part of its total. -/
theorem add_le_finsum {f : α → ℤ} (hf : f.support.Finite) (hnonneg : ∀ x, 0 ≤ f x) {a b : α}
    (hne : a ≠ b) : f a + f b ≤ ∑ᶠ x, f x := by
  let keys : Finset α := hf.toFinset ∪ {a, b}
  -- Over a set that has both keys and everything else that counts.
  have hkeys : f.support ⊆ ↑keys := by
    intro x hx
    exact Finset.mem_union_left _ (hf.mem_toFinset.mpr hx)
  calc f a + f b
      = ∑ x ∈ {a, b}, f x := (Finset.sum_pair hne).symm
    _ ≤ ∑ x ∈ keys, f x :=
        Finset.sum_le_sum_of_subset_of_nonneg Finset.subset_union_right fun x _ _ => hnonneg x
    _ = ∑ᶠ x, f x := (finsum_eq_sum_of_support_subset f hkeys).symm

/-! ### Sections of a map with composite keys -/

variable {κ : Type} [DecidableEq κ] {e : α → κ}

/-- A write inside the section is a write to the section. -/
theorem section_update_self {N : Type} (he : Function.Injective e) (f : κ → N) (a : α) (v : N) :
    (fun y => Function.update f (e a) v (e y)) = Function.update (fun y => f (e y)) a v :=
  Function.update_comp_eq_of_injective f he a v

omit [DecidableEq α] in
/-- A write outside the section leaves it alone. -/
theorem section_update_of_ne {N : Type} (f : κ → N) {k : κ} (hk : ∀ y, e y ≠ k) (v : N) :
    (fun y => Function.update f k v (e y)) = fun y => f (e y) := by
  funext y
  exact Function.update_of_ne (hk y) v f

/-! ### Keys that were not ticked off -/

/-- The total of `f` over the keys that are not marked. -/
noncomputable def unmarked {α M : Type} [AddCommGroup M] (marked : α → Bool) (f : α → M) : M :=
  ∑ᶠ x, if marked x then 0 else f x

variable {marked : α → Bool} {f : α → M}

omit [DecidableEq α] in
/-- Leaving keys out leaves a finite support. -/
theorem support_unmarked (hf : f.support.Finite) :
    (fun x => if marked x then 0 else f x).support.Finite := by
  refine hf.subset ?_
  intro x hx
  rw [Function.mem_support] at hx ⊢
  intro hzero
  rw [hzero, ite_self] at hx
  exact hx rfl

omit [DecidableEq α] in
/-- Nothing is marked. -/
theorem unmarked_none (h : ∀ x, marked x = false) : unmarked marked f = ∑ᶠ x, f x := by
  unfold unmarked
  refine finsum_congr ?_
  intro x
  rw [h x, if_neg Bool.false_ne_true]

/-- Ticking a key off takes its entry out of the total. -/
theorem unmarked_mark (hf : f.support.Finite) {a : α} (ha : marked a = false) :
    unmarked (Function.update marked a true) f = unmarked marked f - f a := by
  -- A mark turns the entry of one key to zero, and is no other change.
  have hupdate : (fun x => if Function.update marked a true x then 0 else f x) =
      Function.update (fun x => if marked x then 0 else f x) a 0 := by
    funext x
    by_cases hx : x = a
    · rw [hx, Function.update_self, Function.update_self, if_pos rfl]
    · rw [Function.update_of_ne hx, Function.update_of_ne hx]
  unfold unmarked
  rw [hupdate, finsum_update (support_unmarked hf), ha, if_neg Bool.false_ne_true, add_zero]

/-- Writing an entry counts if its key is not marked. -/
theorem unmarked_write (hf : f.support.Finite) (a : α) (v : M) :
    unmarked marked (Function.update f a v) =
      unmarked marked f + if marked a then 0 else v - f a := by
  -- A write is one to the reduced function, of zero where the key is marked.
  have hupdate : (fun x => if marked x then 0 else Function.update f a v x) =
      Function.update (fun x => if marked x then 0 else f x) a (if marked a then 0 else v) := by
    funext x
    by_cases hx : x = a
    · rw [hx, Function.update_self, Function.update_self]
    · rw [Function.update_of_ne hx, Function.update_of_ne hx]
  unfold unmarked
  rw [hupdate, finsum_update (support_unmarked hf)]
  split
  · abel
  · abel

/-- A list of exactly the unmarked keys with an entry adds up to the total. -/
theorem sum_unmarked {l : List α} (hl : l.Nodup)
    (hmem : ∀ x, x ∈ l ↔ marked x = false ∧ f x ≠ 0) : (l.map f).sum = unmarked marked f := by
  have hsupport : (fun x => if marked x then 0 else f x).support ⊆ ↑l.toFinset := by
    intro x hx
    rw [Function.mem_support] at hx
    rw [Finset.mem_coe, List.mem_toFinset, hmem]
    split at hx
    · exact absurd rfl hx
    · next hmarked => exact ⟨Bool.eq_false_iff.mpr hmarked, hx⟩
  unfold unmarked
  rw [finsum_eq_sum_of_support_subset _ hsupport, List.sum_toFinset _ hl]
  congr 1
  refine List.map_congr_left ?_
  intro x hx
  rw [((hmem x).mp hx).1, if_neg Bool.false_ne_true]

end FinSum
