import Mathlib

/-!
# Cooldowns

Attempts come at given times, and one passes only if the newest that passed before it is at least
`c` back. Lists of times are newest first, as the attempts of a history are. The clock need not go
forward: what passed is `Spaced` all the same, so that no span of `n` cooldowns has more than `n` of
it (`Spaced.length_le`). With a clock that does go forward no attempt is further than a cooldown
from one that passed (`exists_passed`).
-/

namespace Cooldown

variable {τ : Type} [AddCommGroup τ] [LinearOrder τ]

/-- An attempt at time `now` passes, after the newest that did. With nothing passed before, every
attempt passes. -/
def Admits (c : τ) (last : Option τ) (now : τ) : Prop := ∀ t ∈ last, c ≤ now - t

instance (c : τ) (last : Option τ) (now : τ) : Decidable (Admits c last now) :=
  inferInstanceAs (Decidable (∀ t ∈ last, c ≤ now - t))

/-- The attempts that pass. Whether one does depends on those before it that did, not on those that
were refused. -/
def passed (c : τ) : List τ → List τ
  | [] => []
  | now :: earlier =>
    if Admits c (passed c earlier).head? now then now :: passed c earlier else passed c earlier

/-- Each time is at least `c` after the one before it. The list is newest first, so that the
differences are taken from a time to the next in the list. -/
def Spaced (c : τ) (times : List τ) : Prop := times.IsChain fun t t' => c ≤ t - t'

variable {c : τ} {times : List τ}

/-- What passes is spaced, whatever the clock does. -/
theorem spaced_passed (c : τ) (attempts : List τ) : Spaced c (passed c attempts) := by
  induction attempts with
  | nil => exact .nil
  | cons now earlier ih =>
    rw [passed]
    split
    · next hadmits => exact List.isChain_cons.mpr ⟨hadmits, ih⟩
    · exact ih

/-- What passes was attempted. -/
theorem passed_sublist (c : τ) (attempts : List τ) : (passed c attempts).Sublist attempts := by
  induction attempts with
  | nil => exact .refl _
  | cons now earlier ih =>
    rw [passed]
    split
    · exact ih.cons_cons now
    · exact ih.cons now

variable [IsOrderedAddMonoid τ]

/-- Any two times of the list are that far apart, not only neighbours. Differences of neighbours add
up, and none is negative. -/
theorem Spaced.pairwise (hc : 0 ≤ c) (hspaced : Spaced c times) :
    times.Pairwise fun t t' => c ≤ t - t' := by
  have htrans : IsTrans τ fun t t' => c ≤ t - t' := by
    refine ⟨fun t t' t'' htt' ht't'' => ?_⟩
    calc c ≤ t - t' := htt'
      _ ≤ (t - t') + (t' - t'') := le_add_of_nonneg_right (hc.trans ht't'')
      _ = t - t'' := sub_add_sub_cancel t t' t''
  exact List.isChain_iff_pairwise.mp hspaced

/-- A part of the list is spaced as well. -/
theorem Spaced.filter (hc : 0 ≤ c) (hspaced : Spaced c times) (p : τ → Bool) :
    Spaced c (times.filter p) :=
  ((hspaced.pairwise hc).sublist List.filter_sublist).isChain

/-- **A span of `n` cooldowns has at most `n` of the times.** Induction on the list, with the span
one cooldown shorter for the times before the newest. -/
theorem Spaced.length_le (hc : 0 ≤ c) (hspaced : Spaced c times) {a : τ} {n : ℕ}
    (hspan : ∀ t ∈ times, a ≤ t ∧ t < a + n • c) : times.length ≤ n := by
  induction times generalizing n with
  | nil => exact Nat.zero_le _
  | cons t earlier ih =>
    obtain ⟨hstart, hend⟩ := hspan t List.mem_cons_self
    obtain ⟨hgap, -⟩ := List.pairwise_cons.mp (hspaced.pairwise hc)
    cases n with
    | zero =>
      rw [zero_smul, add_zero] at hend
      exact absurd hend hstart.not_gt
    | succ n =>
      -- the earlier times end a cooldown before the newest one
      have hearlier : ∀ t' ∈ earlier, a ≤ t' ∧ t' < a + n • c := by
        intro t' ht'
        refine ⟨(hspan t' (List.mem_cons_of_mem _ ht')).1, ?_⟩
        have hback : t' ≤ t - c := le_sub_comm.mp (hgap t' ht')
        rw [succ_nsmul, ← add_assoc] at hend
        exact hback.trans_lt (sub_lt_iff_lt_add.mpr hend)
      exact Nat.succ_le_succ (ih (List.isChain_cons.mp hspaced).2 hearlier)

/-- **With a clock that goes forward, what does not pass is less than a cooldown after something
that did.** The clock is needed: an attempt that comes after a step back is refused by one in its
own future. -/
theorem exists_passed (hc : 0 < c) {attempts : List τ} (hclock : attempts.Pairwise (· ≥ ·)) {t : τ}
    (ht : t ∈ attempts) : ∃ t' ∈ passed c attempts, t' ≤ t ∧ t < t' + c := by
  induction attempts with
  | nil => cases ht
  | cons now earlier ih =>
    obtain ⟨hlatest, hclock⟩ := List.pairwise_cons.mp hclock
    rw [passed]
    split
    · rcases List.mem_cons.mp ht with rfl | ht
      · exact ⟨t, List.mem_cons_self, le_rfl, lt_add_of_pos_right t hc⟩
      · obtain ⟨t', ht', hnear⟩ := ih hclock ht
        exact ⟨t', List.mem_cons_of_mem _ ht', hnear⟩
    · next hadmits =>
      rcases List.mem_cons.mp ht with rfl | ht
      · -- it is the newest that passed that stops this one
        rw [Admits] at hadmits
        push Not at hadmits
        obtain ⟨t', ht', hnear⟩ := hadmits
        have hmem : t' ∈ passed c earlier := List.mem_of_mem_head? ht'
        exact ⟨t', hmem, hlatest t' ((passed_sublist c earlier).subset hmem),
          sub_lt_iff_lt_add'.mp hnear⟩
      · exact ih hclock ht

end Cooldown
