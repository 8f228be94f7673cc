import Mathlib

/-!
# Chronological windows and a bounded memory of them

A log of half-open time windows `[w.1, w.2)` is chronological when every window ends before the
later ones begin. A program that only remembers the most recent `cap` entries of the log
(`recent`) can still keep it chronological: the last window alone bounds all the earlier ones
(`Chronological.end_le`), and the last window is always remembered (`getLast?_recent`).
-/

namespace Windows

/-! ### The recent entries of a log -/

section Recent

variable {α : Type} {cap : ℕ} {l : List α}

/-- The last `cap` entries. -/
def recent (cap : ℕ) (l : List α) : List α := l.drop (l.length - cap)

/-- The memory is as long as the log until it is full. -/
theorem length_recent (cap : ℕ) (l : List α) : (recent cap l).length = min l.length cap := by
  unfold recent
  rw [List.length_drop]
  omega

/-- The newest entry is always remembered. -/
theorem getLast?_recent (hcap : 0 < cap) : (recent cap l).getLast? = l.getLast? := by
  unfold recent
  rw [List.getLast?_drop]
  split
  · next h =>
    have hnil : l = [] := List.eq_nil_of_length_eq_zero (by omega)
    rw [hnil]
    rfl
  · rfl

/-- Appending to the memory, after dropping the oldest entry if it is full, is remembering the
appended log. -/
theorem push_recent (hcap : 0 < cap) (x : α) :
    (if cap ≤ (recent cap l).length then (recent cap l).tail else recent cap l) ++ [x] =
      recent cap (l ++ [x]) := by
  -- The memory is full, and its oldest entry makes room; or it is still the whole log.
  have hlen := length_recent cap l
  split
  · next hfull =>
    have hle : l.length - cap + 1 ≤ l.length := by omega
    unfold recent
    rw [List.tail_drop, List.length_append, List.length_singleton,
      show l.length + 1 - cap = l.length - cap + 1 by omega, List.drop_append_of_le_length hle]
  · next hroom =>
    have hall : l.length - cap = 0 := by omega
    have hall' : l.length + 1 - cap = 0 := by omega
    unfold recent
    rw [List.length_append, List.length_singleton, hall, hall', List.drop_zero, List.drop_zero]

end Recent

/-! ### Chronological logs -/

section Chronological

variable {τ : Type} [LinearOrder τ] {l : List (τ × τ)}

/-- Every window ends before the later ones begin. One may begin the moment another ends. -/
def Chronological (l : List (τ × τ)) : Prop := l.Pairwise fun v w => v.2 ≤ w.1

/-- No window of a chronological log ends after the last one. -/
theorem Chronological.end_le (hl : Chronological l) (hproper : ∀ w ∈ l, w.1 ≤ w.2) {t : τ}
    (hlast : ∀ w ∈ l.getLast?, w.2 ≤ t) : ∀ w ∈ l, w.2 ≤ t := by
  -- From the end of the log: the last window is bounded by assumption, and the others end before it
  -- begins.
  induction l using List.reverseRecOn with
  | nil => exact fun w hw => absurd hw List.not_mem_nil
  | append_singleton l x ih =>
    have hx : x.2 ≤ t := hlast x (by rw [List.getLast?_concat]; exact rfl)
    intro w hw
    rw [List.mem_append, List.mem_singleton] at hw
    rcases hw with hw | rfl
    · -- an earlier window ends before the last one begins
      have hbefore : w.2 ≤ x.1 :=
        (List.pairwise_append.mp hl).2.2 w hw x (List.mem_singleton.mpr rfl)
      exact hbefore.trans ((hproper x (by simp)).trans hx)
    · exact hx

/-- A window that begins after the last one ended continues the log. -/
theorem Chronological.concat (hl : Chronological l) (hproper : ∀ w ∈ l, w.1 ≤ w.2) {w : τ × τ}
    (hlast : ∀ v ∈ l.getLast?, v.2 ≤ w.1) : Chronological (l ++ [w]) := by
  refine List.pairwise_append.mpr ⟨hl, List.pairwise_singleton _ _, ?_⟩
  intro v hv w' hw'
  rw [List.mem_singleton] at hw'
  subst hw'
  exact hl.end_le hproper hlast v hv

/-- The windows of a chronological log are pairwise disjoint. They are half-open, so that touching
is not overlapping. -/
theorem Chronological.disjoint (hl : Chronological l) :
    l.Pairwise fun v w => Disjoint (Set.Ico v.1 v.2) (Set.Ico w.1 w.2) := by
  refine hl.imp fun {v w} hvw => ?_
  rw [Set.Ico_disjoint_Ico]
  exact (min_le_left _ _).trans (hvw.trans (le_max_right _ _))

end Chronological

end Windows
