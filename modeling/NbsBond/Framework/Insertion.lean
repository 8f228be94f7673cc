import Mathlib

/-!
# Sorting by insertion

Elements are put, one after another, before the first one with a larger key. The outcome is sorted
by key and has the elements that were put in; where keys tell the elements apart it does not depend
on the order in which they came (`sort_eq_of_perm`).
-/

namespace Insertion

variable {α κ : Type} [LinearOrder κ] (key : α → κ)

/-- Put `a` before the first element with a larger key. -/
def insert (a : α) (l : List α) : List α :=
  l.insertIdx (l.findIdx fun b => decide (key a < key b)) a

/-- Insert the elements of a list, the first one first. -/
def sort (l : List α) : List α := l.foldl (fun sorted a => insert key a sorted) []

variable {key} {a b : α} {l l' : List α}

@[simp] theorem insert_nil : insert key a [] = [a] := rfl

theorem insert_cons : insert key a (b :: l) =
    if key a < key b then a :: b :: l else b :: insert key a l := by
  unfold insert
  by_cases hlt : key a < key b
  · rw [if_pos hlt, List.findIdx_cons, decide_eq_true hlt, cond_true, List.insertIdx_zero]
  · rw [if_neg hlt, List.findIdx_cons, decide_eq_false hlt, cond_false,
      List.insertIdx_succ_cons]

theorem insert_perm : (insert key a l).Perm (a :: l) :=
  List.perm_insertIdx a l List.findIdx_le_length

theorem mem_insert : b ∈ insert key a l ↔ b = a ∨ b ∈ l := by
  rw [insert_perm.mem_iff, List.mem_cons]

theorem insert_sorted (hl : l.Pairwise fun a b => key a ≤ key b) :
    (insert key a l).Pairwise fun a b => key a ≤ key b := by
  induction l with
  | nil => exact List.pairwise_singleton ..
  | cons b l ih =>
    rw [insert_cons]
    rw [List.pairwise_cons] at hl
    split
    · next hlt =>
      refine List.pairwise_cons.mpr ⟨?_, List.pairwise_cons.mpr hl⟩
      intro c hc
      rcases List.mem_cons.mp hc with rfl | hc
      · exact hlt.le
      · exact hlt.le.trans (hl.1 c hc)
    · next hge =>
      refine List.pairwise_cons.mpr ⟨?_, ih hl.2⟩
      intro c hc
      rcases mem_insert.mp hc with rfl | hc
      · exact not_lt.mp hge
      · exact hl.1 c hc

/-- The loop, on top of what is sorted already. -/
theorem foldl_insert (key : α → κ) {sorted : List α}
    (hsorted : sorted.Pairwise fun a b => key a ≤ key b) :
    (l.foldl (fun sorted a => insert key a sorted) sorted).Perm (l ++ sorted) ∧
      (l.foldl (fun sorted a => insert key a sorted) sorted).Pairwise
        fun a b => key a ≤ key b := by
  induction l generalizing sorted with
  | nil => exact ⟨.refl _, hsorted⟩
  | cons a l ih =>
    obtain ⟨hperm, hnext⟩ := ih (insert_sorted (a := a) hsorted)
    have hmiddle : (l ++ insert key a sorted).Perm (a :: (l ++ sorted)) :=
      (insert_perm.append_left l).trans List.perm_middle
    exact ⟨hperm.trans hmiddle, hnext⟩

theorem sort_perm : (sort key l).Perm l := by
  have h := (foldl_insert key (l := l) List.Pairwise.nil).1
  rwa [List.append_nil] at h

theorem sort_sorted : (sort key l).Pairwise fun a b => key a ≤ key b :=
  (foldl_insert key List.Pairwise.nil).2

/-- **The order of arrival does not matter.** The keys must tell the elements apart: of two with one
key the sorting keeps the order of arrival. -/
theorem sort_eq_of_perm (hkey : ∀ a ∈ l, ∀ b ∈ l, key a = key b → a = b) (hperm : l.Perm l') :
    sort key l = sort key l' := by
  -- two sorted lists of the same elements, and no two elements have one key
  have hsame : (sort key l).Perm (sort key l') := sort_perm.trans (hperm.trans sort_perm.symm)
  apply List.Perm.eq_of_pairwise _ sort_sorted sort_sorted hsame
  intro a b ha hb hab hba
  have ha : a ∈ l := sort_perm.mem_iff.mp ha
  have hb : b ∈ l := hperm.mem_iff.mpr (sort_perm.mem_iff.mp hb)
  exact hkey a ha b hb (le_antisymm hab hba)

end Insertion
