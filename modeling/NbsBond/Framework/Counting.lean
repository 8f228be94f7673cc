import Mathlib

/-!
# Counting

Contracts keep a group of members as a list without repetitions and a mark of each member in a
storage map; the number of marked members is a `countP`. `countP_mark` says by how much the number
moves when one mark is set, and `countP_eq_ncard` that it does not depend on the order of the list.

A counter of bounded width wraps around. `latest` lists the values it has taken, and they are
distinct as long as they are no more than there are values (`nodup_latest_iff`).
-/

namespace Counting

/-! ### Marked members -/

section Marked

variable {α : Type} {l : List α} {p q : α → Bool} {a : α}

/-- Setting the mark of one member counts one more. -/
theorem countP_mark [DecidableEq α] (hl : l.Nodup) (ha : a ∈ l) (hp : p a = false)
    (hq : q a = true) (hother : ∀ b ∈ l, b ≠ a → q b = p b) : l.countP q = l.countP p + 1 := by
  have hperm : l.Perm (a :: l.erase a) := List.perm_cons_erase ha
  have hrest : (l.erase a).countP q = (l.erase a).countP p := by
    refine List.countP_congr fun b hb => ?_
    obtain ⟨hne, hb⟩ := hl.mem_erase_iff.mp hb
    rw [hother b hb hne]
  calc l.countP q
      = (a :: l.erase a).countP q := hperm.countP_eq q
    _ = (l.erase a).countP q + 1 := List.countP_cons_of_pos hq
    _ = (a :: l.erase a).countP p + 1 := by
        rw [hrest, List.countP_cons_of_neg (by simp [hp])]
    _ = l.countP p + 1 := by rw [hperm.countP_eq p]

/-- Marks that agree on the members count the same. -/
theorem countP_same (h : ∀ b ∈ l, q b = p b) : l.countP q = l.countP p :=
  List.countP_congr fun b hb => by rw [h b hb]

/-- The number of marked members is the size of the set of marked members. -/
theorem countP_eq_ncard (hl : l.Nodup) : l.countP p = {b | b ∈ l ∧ p b = true}.ncard := by
  classical
  have hset : {b | b ∈ l ∧ p b = true} = ↑(l.filter p).toFinset := by
    ext b
    simp
  rw [hset, Set.ncard_coe_finset, List.toFinset_card_of_nodup (hl.filter p),
    List.countP_eq_length_filter]

end Marked

/-! ### Counters that wrap around -/

/-- The `k` values that a counter modulo `m` takes from `start` on, the latest first. -/
def latest (m start : ℕ) : ℕ → List ℕ
  | 0 => []
  | k + 1 => (start + k) % m :: latest m start k

section Latest

variable {m start k : ℕ}

theorem mem_latest {x : ℕ} : x ∈ latest m start k ↔ ∃ i < k, x = (start + i) % m := by
  induction k with
  | zero => simp [latest]
  | succ k ih =>
    unfold latest
    rw [List.mem_cons, ih]
    constructor
    · rintro (hx | ⟨i, hi, hx⟩)
      · exact ⟨k, Nat.lt_succ_self k, hx⟩
      · exact ⟨i, hi.trans (Nat.lt_succ_self k), hx⟩
    · rintro ⟨i, hi, hx⟩
      rcases (Nat.lt_succ_iff_lt_or_eq.mp hi) with hlt | rfl
      · exact Or.inr ⟨i, hlt, hx⟩
      · exact Or.inl hx

/-- **No value twice** in a row of values, unless the row is longer than the modulus. A longer row
has gone round once. -/
theorem nodup_latest_iff (hm : 0 < m) : (latest m start k).Nodup ↔ k ≤ m := by
  induction k with
  | zero => simp [latest]
  | succ k ih =>
    unfold latest
    rw [List.nodup_cons, ih, mem_latest]
    constructor
    · rintro ⟨hnew, hle⟩
      -- one more value than the modulus repeats the one taken `m` before
      by_contra hlt
      obtain rfl : k = m := by omega
      exact hnew ⟨0, hm, by rw [Nat.add_mod_right, Nat.add_zero]⟩
    · intro hle
      refine ⟨?_, by omega⟩
      rintro ⟨i, hi, heq⟩
      have hmod : k ≡ i [MOD m] := Nat.ModEq.add_left_cancel' start heq
      have hsame : k = i := hmod.eq_of_lt_of_lt (by omega) (by omega)
      omega

end Latest

end Counting
