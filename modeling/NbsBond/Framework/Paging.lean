import Mathlib

/-!
# Reading a range by pages

A contract that keeps entries under indices answers a range of them at a time, up to a stored total.
The pages of one size, put together, are the full range (`flatMap_readRange`).

The entries may grow between two reads. As long as they only grow at the end, and a reader stops at
the first page that is not full, it has read what is there at the last read (`flatMap_growing`).
-/

namespace Paging

variable {α : Type} (f : ℕ → Option α) (total start count : ℕ)

/-- Pages of `c` entries, one after another, are the start of the list. -/
theorem flatMap_take_drop (l : List α) (c n : ℕ) :
    ((List.range n).flatMap fun k => (l.drop (k * c)).take c) = l.take (n * c) := by
  induction n with
  | zero => simp
  | succ n ih =>
    rw [List.range_succ, List.flatMap_append, ih, List.flatMap_singleton, Nat.succ_mul,
      List.take_add]

/-- The entries under the indices from `start` on: `count` indices at most, and below `total`. -/
def readRange : List α :=
  if count = 0 ∨ total ≤ start then []
  else (List.range' start (min (start + count) total - start)).filterMap f

/-- A range reads a segment of the indices. -/
theorem readRange_eq : readRange f total start count =
    (((List.range total).drop start).take count).filterMap f := by
  have hsegment : ((List.range total).drop start).take count =
      List.range' start (min (start + count) total - start) := by
    rw [List.range_eq_range', List.drop_range', Nat.zero_add, Nat.mul_one]
    rcases le_total count (total - start) with hle | hle
    · rw [List.take_range'_of_length_ge hle]
      congr 1
      omega
    · rw [List.take_range'_of_length_le hle]
      congr 1
      omega
  unfold readRange
  rw [hsegment]
  split
  · next hempty =>
    have hzero : min (start + count) total - start = 0 := by omega
    rw [hzero]
    rfl
  · rfl

/-- The full range, and more than that. -/
theorem readRange_full {count : ℕ} (hcount : total ≤ count) :
    readRange f total 0 count = (List.range total).filterMap f := by
  rw [readRange_eq, List.drop_zero, List.take_of_length_le]
  rwa [List.length_range]

/-- Pages of `c` indices, read one after another. -/
theorem flatMap_readRange_eq (c n : ℕ) :
    ((List.range n).flatMap fun k => readRange f total (k * c) c) =
      ((List.range total).take (n * c)).filterMap f := by
  simp only [readRange_eq]
  rw [← flatMap_take_drop, List.filterMap_flatMap]

/-- **Pages** make up the full range. There may be more pages than it takes; the last ones are then
empty. -/
theorem flatMap_readRange {c n : ℕ} (hn : total ≤ n * c) :
    ((List.range n).flatMap fun k => readRange f total (k * c) c) =
      readRange f total 0 total := by
  rw [flatMap_readRange_eq, readRange_full f total le_rfl, List.take_of_length_le]
  rwa [List.length_range]

/-! ### Growing lists -/

section Growing

variable {l : ℕ → List α} {c n : ℕ}

/-- What is appended later is not on a page that was full. -/
theorem take_drop_of_prefix {l l' : List α} {a c : ℕ} (h : l <+: l')
    (hfull : ((l.drop a).take c).length = c) : (l.drop a).take c = (l'.drop a).take c := by
  obtain ⟨t, rfl⟩ := h
  have hle : c ≤ (l.drop a).length := by
    rw [List.length_take] at hfull
    omega
  rw [List.drop_append, List.take_append_of_le_length hle]

theorem prefix_of_le (hgrow : ∀ k, l k <+: l (k + 1)) {j k : ℕ} (hjk : j ≤ k) : l j <+: l k := by
  induction hjk with
  | refl => exact List.prefix_rfl
  | step _ ih => exact ih.trans (hgrow _)

/-- **Pages of a growing list.** The page `k` is read of `l k`; all are full but the last one. It is
read while it grows, which is what a client does that asks for one page after the other. -/
theorem flatMap_growing (hgrow : ∀ k, l k <+: l (k + 1))
    (hfull : ∀ k < n, (((l k).drop (k * c)).take c).length = c)
    (hshort : (((l n).drop (n * c)).take c).length < c) :
    ((List.range (n + 1)).flatMap fun k => ((l k).drop (k * c)).take c) = l n := by
  -- every page is the same in the last list
  have hpage : ∀ k ∈ List.range (n + 1),
      ((l k).drop (k * c)).take c = ((l n).drop (k * c)).take c := by
    intro k hk
    rcases (Nat.lt_succ_iff.mp (List.mem_range.mp hk)).eq_or_lt with rfl | hlt
    · rfl
    · exact take_drop_of_prefix (prefix_of_le hgrow hlt.le) (hfull k hlt)
  have hlength : (l n).length ≤ (n + 1) * c := by
    rw [List.length_take, List.length_drop] at hshort
    rw [Nat.succ_mul]
    omega
  calc ((List.range (n + 1)).flatMap fun k => ((l k).drop (k * c)).take c)
      = (List.range (n + 1)).flatMap fun k => ((l n).drop (k * c)).take c :=
        List.flatMap_congr hpage
    _ = (l n).take ((n + 1) * c) := flatMap_take_drop (l n) c (n + 1)
    _ = l n := List.take_of_length_le hlength

end Growing

end Paging
