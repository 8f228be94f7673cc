import NbsBond.Framework.Run

/-!
# Numbers used up along a run

A counter of the state starts at zero, and a call either uses up the number it shows and moves it on
by one, or uses none and leaves it. Along a run the numbers are then used up in order, each of them
once: they are `0, 1, ..` up to the counter (`Run.numbered`).

A program keeps such a counter in a machine word, where the addition wraps. As long as fewer numbers
are used up than the word has values, what the word shows is the counter (`Run.numbered_mod`).
-/

namespace Soroban

variable {σ ω ρ ε : Type}

/-- What a call may do to a counter that shows `count` before it and `count'` after it. -/
def Counts (used : Option ℕ) (count count' : ℕ) : Prop :=
  (used = none ∧ count' = count) ∨ (used = some count ∧ count' = count + 1)

theorem Counts.le {used : Option ℕ} {count count' : ℕ} (h : Counts used count count') :
    count ≤ count' := by
  obtain ⟨-, rfl⟩ | ⟨-, rfl⟩ := h
  · exact le_rfl
  · exact Nat.le_succ _

namespace Run

variable {M : Machine σ ω ρ ε} {Init : σ → Prop} {h : List (Call σ ω ρ)} {s : σ}

/-- **The numbers used up along a run**, oldest first, are those below the counter. The hypothesis
on a step is that it uses the number of the counter and moves it by one, or does neither. -/
theorem numbered {count : σ → ℕ} {used : Call σ ω ρ → Option ℕ} (hrun : Run M Init h s)
    (hinit : ∀ s, Init s → count s = 0)
    (hstep : ∀ h c s, Run M Init (c :: h) s → Counts (used c) (count c.pre) (count c.post)) :
    h.reverse.filterMap used = List.range (count s) := by
  refine hrun.induction (P := fun h s => h.reverse.filterMap used = List.range (count s)) ?_
    fun h s t o r s' hrun ht hexec ih => ?_
  · intro s hs
    rw [hinit s hs]
    rfl
  · rw [List.reverse_cons, List.filterMap_append, ih]
    have hcounts := hstep h ⟨t, s, o, r, s'⟩ s' (.call hrun ht hexec)
    obtain ⟨hnone, hsame⟩ | ⟨hsome, hnext⟩ := hcounts
    · rw [List.filterMap_cons_none hnone, List.filterMap_nil, List.append_nil]
      exact congrArg List.range hsame.symm
    · rw [List.filterMap_cons_some hsome, List.filterMap_nil, ← List.range_succ]
      exact congrArg List.range hnext.symm

/-- A number used up in a run is below the counter. -/
theorem used_lt {count : σ → ℕ} {used : Call σ ω ρ → Option ℕ} (hrun : Run M Init h s)
    (hinit : ∀ s, Init s → count s = 0)
    (hstep : ∀ h c s, Run M Init (c :: h) s → Counts (used c) (count c.pre) (count c.post))
    {c : Call σ ω ρ} (hc : c ∈ h) {n : ℕ} (hn : used c = some n) : n < count s := by
  have hmem : n ∈ h.reverse.filterMap used :=
    List.mem_filterMap.mpr ⟨c, List.mem_reverse.mpr hc, hn⟩
  rw [hrun.numbered hinit hstep] at hmem
  exact List.mem_range.mp hmem

/-- Where fewer than `size` numbers are used up in a run, an addition modulo `size` gives the same
counter after each of them. -/
theorem numbered_mod {count : σ → ℕ} {used : Call σ ω ρ → Option ℕ} {size : ℕ}
    (hrun : Run M Init h s) (hinit : ∀ s, Init s → count s = 0)
    (hstep : ∀ h c s, Run M Init (c :: h) s → Counts (used c) (count c.pre) (count c.post))
    (hfew : (h.filterMap used).length < size) {c : Call σ ω ρ} (hc : c ∈ h) {n : ℕ}
    (hn : used c = some n) : count c.post = (n + 1) % size := by
  -- the counter shows how many numbers are used up
  have hcount : count s = (h.filterMap used).length := by
    have hlength := congrArg List.length (hrun.numbered hinit hstep)
    rw [List.length_range, List.filterMap_reverse, List.length_reverse] at hlength
    exact hlength.symm
  have hbelow : n + 1 < size :=
    (Nat.succ_le_of_lt (hrun.used_lt hinit hstep hc hn)).trans_lt (hcount.trans_lt hfew)
  obtain ⟨h₁, h₂, rfl⟩ := List.append_of_mem hc
  obtain ⟨hpast, ht, hexec⟩ := hrun.past
  obtain ⟨hnone, -⟩ | ⟨hsome, hnext⟩ := hstep h₂ c c.post (hpast.call ht hexec)
  · rw [hnone] at hn
    cases hn
  · rw [Nat.mod_eq_of_lt hbelow, hnext, Option.some.inj (hsome.symm.trans hn)]

end Run

end Soroban
