import Mathlib

/-!
# Marking passes

A table keeps records under keys, and some of the records are due. A pass over a set of keys marks
the due records among them. A marked record is not due any more, so passes are idempotent and
commute: several of them are one pass over all the keys they visit (`pass_pass`), and together they
find as many due records as that pass does (`card_dueIn_pass`).
-/

namespace Marking

section Pass

variable {ι ρ : Type} [DecidableEq ι] (due : ρ → Prop) [DecidablePred due] (mark : ρ → ρ)

/-- One record after a pass over its key. -/
def touch (r : ρ) : ρ := if due r then mark r else r

/-- The table after a pass over the keys `I`. -/
def pass (I : Finset ι) (table : ι → Option ρ) : ι → Option ρ :=
  fun i => if i ∈ I then (table i).map (touch due mark) else table i

/-- The keys in `I` whose record is due. -/
def dueIn (I : Finset ι) (table : ι → Option ρ) : Finset ι :=
  I.filter fun i => ∃ r ∈ table i, due r

variable {I J : Finset ι} {table : ι → Option ρ}

/-- A pass over nothing. -/
@[simp] theorem pass_empty : pass due mark ∅ table = table := by
  funext i
  simp [pass]

/-- A pass leaves a record alone, or finds it due and marks it. -/
theorem pass_cases (i : ι) : pass due mark I table i = table i ∨
    ∃ r, table i = some r ∧ due r ∧ pass due mark I table i = some (mark r) := by
  -- Outside of the keys, without a record, with one that is due, or with another.
  unfold pass
  split
  swap
  · exact .inl rfl
  rcases htable : table i with _ | r
  · exact .inl rfl
  by_cases hr : due r
  · refine .inr ⟨r, rfl, hr, ?_⟩
    rw [Option.map_some, touch, if_pos hr]
  · left
    rw [Option.map_some, touch, if_neg hr]

/-- A pass over one key whose record is due. -/
theorem pass_singleton {i : ι} {r : ρ} (htable : table i = some r) (hdue : due r) :
    pass due mark {i} table = Function.update table i (some (mark r)) ∧
      dueIn due {i} table = {i} := by
  constructor
  · funext j
    unfold pass
    -- The one key is touched, and every other is outside of the pass.
    by_cases hj : j = i
    · subst hj
      rw [if_pos (Finset.mem_singleton_self j), Function.update_self, htable, Option.map_some,
        touch, if_pos hdue]
    · rw [if_neg (by simpa using hj), Function.update_of_ne hj]
  · rw [dueIn, Finset.filter_singleton, if_pos ⟨r, htable, hdue⟩]

/-- A pass over one key without a record, or whose record is not due. -/
theorem pass_singleton_of_not {i : ι} (hnot : ∀ r ∈ table i, ¬ due r) :
    pass due mark {i} table = table ∧ dueIn due {i} table = ∅ := by
  constructor
  · funext j
    rcases pass_cases due mark (I := {i}) j with hsame | ⟨r, hr, hdue, hmarked⟩
    · exact hsame
    · unfold pass at hmarked ⊢
      split
      · next hj =>
        rw [Finset.mem_singleton.mp hj] at hr
        exact absurd hdue (hnot r hr)
      · rfl
  · rw [dueIn, Finset.filter_singleton, if_neg]
    rintro ⟨r, hr, hdue⟩
    exact hnot r hr hdue

section Final

variable {due mark} (hfinal : ∀ r, due r → ¬ due (mark r))
include hfinal

/-- A record that was touched is not due. -/
theorem not_due_touch (r : ρ) : ¬ due (touch due mark r) := by
  unfold touch
  split
  · next hr => exact hfinal r hr
  · next hr => exact hr

/-- Touching twice is touching once. -/
theorem touch_touch (r : ρ) : touch due mark (touch due mark r) = touch due mark r :=
  if_neg (not_due_touch hfinal r)

/-- **Two passes are one.** What the first one has marked is not due any more for the second. -/
theorem pass_pass : pass due mark J (pass due mark I table) = pass due mark (I ∪ J) table := by
  funext i
  -- By whether the first pass has visited the key.
  by_cases hI : i ∈ I
  · have hfirst : pass due mark I table i = (table i).map (touch due mark) := if_pos hI
    have hboth : pass due mark (I ∪ J) table i = (table i).map (touch due mark) :=
      if_pos (Finset.mem_union_left J hI)
    rw [hboth, pass, hfirst]
    split
    · -- the second pass finds nothing due any more
      rw [Option.map_map]
      congr 1
      funext r
      exact touch_touch hfinal r
    · rfl
  -- The first pass has not been here, so the second sees the table as it was.
  · have hfirst : pass due mark I table i = table i := if_neg hI
    unfold pass at hfirst ⊢
    rw [hfirst]
    simp only [Finset.mem_union, hI, false_or]

/-- What a second pass finds due, the first one did not visit. The two may overlap; what both visit
counts for the first. -/
theorem dueIn_pass : dueIn due J (pass due mark I table) = dueIn due J table \ I := by
  ext i
  simp only [dueIn, Finset.mem_filter, Finset.mem_sdiff]
  by_cases hI : i ∈ I
  · have hfirst : pass due mark I table i = (table i).map (touch due mark) := if_pos hI
    rw [hfirst]
    constructor
    -- A record that the first pass has visited is not due.
    · rintro ⟨-, r, hr, hdue⟩
      obtain ⟨r₀, -, rfl⟩ := Option.mem_map.mp hr
      exact absurd hdue (not_due_touch hfinal r₀)
    · rintro ⟨-, hnot⟩
      exact absurd hI hnot
  · have hfirst : pass due mark I table i = table i := if_neg hI
    rw [hfirst]
    exact (and_iff_left hI).symm

/-- **Nothing is found twice or missed.** So the numbers of two passes add up to that of one. -/
theorem card_dueIn_pass : (dueIn due I table).card + (dueIn due J (pass due mark I table)).card =
    (dueIn due (I ∪ J) table).card := by
  -- The two sets are disjoint, and their union is what one pass would find.
  rw [dueIn_pass hfinal, ← Finset.card_union_of_disjoint]
  · congr 1
    ext i
    simp only [dueIn, Finset.mem_union, Finset.mem_sdiff, Finset.mem_filter]
    by_cases hI : i ∈ I <;> simp [hI]
  · apply Finset.disjoint_left.mpr
    intro i hi hrest
    rw [dueIn, Finset.mem_filter] at hi
    exact (Finset.mem_sdiff.mp hrest).2 hi.1

/-- After a pass nothing among its keys is due. -/
theorem dueIn_pass_of_subset (hJ : J ⊆ I) : dueIn due J (pass due mark I table) = ∅ := by
  rw [dueIn_pass hfinal]
  apply Finset.sdiff_eq_empty_iff_subset.mpr
  exact (Finset.filter_subset _ _).trans hJ

end Final

end Pass

end Marking
