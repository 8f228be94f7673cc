import NbsBond.CouponEngine.Periods
import NbsBond.Framework.Paging

/-!
# The history of periods

The record of a period is stored under the index the caller chose for it, while the stored count
counts the periods that were closed. A range of the history is read by index and up to the count, so
it misses the periods whose index is the count or more: the history is complete exactly when the
closed periods are numbered from 0 without a gap (`complete_iff`).
-/

namespace NbsBond
namespace CouponEngine

open Soroban

/-- The period of bond `b` that a call asks to close. -/
def Op.closing (b : BondId) : Op → Option ℕ
  | .distributeCoupon _ bondId periodIndex _ _ _ true =>
    if bondId = b then some periodIndex else none
  | _ => none

theorem Op.closing_of_closes {op : Op} (h : op.closes = none) (b : BondId) :
    op.closing b = none := by
  unfold Op.closes at h
  split at h
  · cases h
  · next hop =>
    unfold Op.closing
    split
    · exact absurd rfl (hop _ _ _ _ _ _)
    · rfl

variable {deps : Deps} {s s' : State} {op : Op} {r : Ret} {b : BondId} {closed : List ℕ}

/-! ### The count -/

theorem SameTables.counts (h : SameTables s s') : s'.periodCount = s.periodCount := by
  unfold SameTables at h
  rw [h]

theorem SameBooks.counts (h : SameBooks s s') : s'.periodCount = s.periodCount := by
  unfold SameBooks at h
  rw [h]

/-- Closing a period counts it. -/
theorem distribute_counts {p : ℕ} {holders : List (Address × ℤ)} {reportId : ReportId}
    {isFinalBatch : Bool} {result : CouponResult}
    (h : distribute deps s b p holders reportId isFinalBatch = .ok (s', result)) :
    s'.periodCount = if isFinalBatch then
      Function.update s.periodCount b ((s.periodCount b + 1) % 2 ^ 32) else s.periodCount := by
  simp only [distribute, bind_eq_ok] at h
  obtain ⟨_, -, projectId, -, creditType, -, progress, -, l, hfold, batch, -, h⟩ := h
  have hcounts : l.storage.periodCount = s.periodCount := (sameBooks_of_fold hfold).counts
  cases isFinalBatch with
  | false =>
    rw [if_neg (by decide), pure_eq_ok, Prod.mk.injEq] at h
    obtain ⟨rfl, -⟩ := h
    exact hcounts
  | true =>
    rw [if_pos rfl, bind_eq_ok] at h
    obtain ⟨_, hfinal, h⟩ := h
    rw [pure_eq_ok, Prod.mk.injEq] at h
    obtain ⟨rfl, -⟩ := h
    simp only [finalise, bind_eq_ok, pure_eq_ok] at hfinal
    obtain ⟨_, -, _, -, _, -, _, -, _, -, _, -, _, -, _, -, rfl⟩ := hfinal
    show Function.update l.storage.periodCount b ((l.storage.periodCount b + 1) % 2 ^ 32) = _
    rw [hcounts, if_pos rfl]

/-- **What a call does to the count.** The count is a `u32` and wraps. -/
theorem exec_counts (h : exec deps s op = .ok (s', r)) (b : BondId) : s'.periodCount b =
    if (op.closing b).isSome then (s.periodCount b + 1) % 2 ^ 32 else s.periodCount b := by
  cases exec_tables h with
  | register hcall =>
    simp only [registerBond, bind_eq_ok, pure_eq_ok] at hcall
    obtain ⟨_, -, _, -, _, -, _, -, _, -, _, -, rfl⟩ := hcall
    rfl
  | @distribute _ bondId _ _ _ _ isFinalBatch _ _ hcall =>
    rw [distribute_counts hcall]
    cases isFinalBatch with
    | false => rfl
    | true =>
      by_cases hb : bondId = b
      · subst hb
        simp [Op.closing]
      · simp [Op.closing, hb, Function.update_of_ne (Ne.symm hb)]
  | frame hop hsame => rw [hsame.counts, Op.closing_of_closes hop, Option.isSome_none, if_neg nofun]

/-! ### The invariant -/

/-- `closed` lists the closed periods of bond `b`, the last one first. The count goes by the number
of closed periods, and the indices are those that the callers have chosen. -/
structure History (s : State) (b : BondId) (closed : List ℕ) : Prop where
  nodup : closed.Nodup
  recorded : ∀ p ∈ closed, ∃ info, s.periodInfo (b, p) = some info
  named : ∀ p info, s.periodInfo (b, p) = some info →
    p ∈ closed ∧ info.periodIndex = p ∧ info.distributed = true
  count : s.periodCount b = closed.length % 2 ^ 32

theorem History.initial (admin : Address) (b : BondId) : History (construct admin) b [] where
  nodup := List.nodup_nil
  recorded _ hp := by cases hp
  named _ _ hinfo := by cases hinfo
  count := rfl

/-- The call of another bond, or of none. -/
theorem History.frame (hH : History s b closed) (hinfos : ∀ p, s'.periodInfo (b, p) =
    s.periodInfo (b, p)) (hcount : s'.periodCount b = s.periodCount b) : History s' b closed where
  nodup := hH.nodup
  recorded p hp := by
    rw [hinfos]
    exact hH.recorded p hp
  named p info hinfo := hH.named p info ((hinfos p).symm.trans hinfo)
  count := hcount.trans hH.count

/-- **One call.** A period that is closed comes to the front, and nothing else changes. -/
theorem History.step (hH : History s b closed) (h : exec deps s op = .ok (s', r)) :
    History s' b ((op.closing b).toList ++ closed) := by
  have hcount := exec_counts h b
  cases exec_periods h with
  | frame hop hsame =>
    rw [Op.closing_of_closes hop] at hcount ⊢
    exact hH.frame (fun p => congrFun hsame.infos (b, p)) hcount
  | register _ hinfos _ _ => exact hH.frame (fun p => congrFun hinfos (b, p)) hcount
  | batch _ _ _ _ hinfos _ _ => exact hH.frame (fun p => congrFun hinfos (b, p)) hcount
  | @final caller bondId p₀ holders reportId nonce _ _ _ _ _ hopen _ _ _ _ hinfos _ _ =>
    by_cases hb : bondId = b
    · subst hb
      have hclosing : (Op.distributeCoupon caller bondId p₀ holders reportId nonce true).closing
          bondId = some p₀ := if_pos rfl
      rw [hclosing] at hcount ⊢
      -- every record says that its period was distributed, so this one has no record yet
      have hnew : p₀ ∉ closed := by
        intro hold
        obtain ⟨info, hinfo⟩ := hH.recorded p₀ hold
        have hundistributed := hopen info hinfo
        rw [(hH.named p₀ info hinfo).2.2] at hundistributed
        cases hundistributed
      rw [Option.toList_some, List.singleton_append]
      refine ⟨List.nodup_cons.mpr ⟨hnew, hH.nodup⟩, ?_, ?_, ?_⟩
      · intro p hp
        rw [hinfos]
        by_cases hp₀ : p = p₀
        · rw [hp₀, Function.update_self]
          exact ⟨_, rfl⟩
        · rw [Function.update_of_ne (by simp [hp₀])]
          exact hH.recorded p (List.mem_of_ne_of_mem hp₀ hp)
      · intro p info hinfo
        rw [hinfos] at hinfo
        by_cases hp₀ : p = p₀
        · rw [hp₀, Function.update_self] at hinfo
          cases hinfo
          exact ⟨hp₀ ▸ List.mem_cons_self, hp₀.symm, rfl⟩
        · rw [Function.update_of_ne (by simp [hp₀])] at hinfo
          obtain ⟨hmem, hindex, hdistributed⟩ := hH.named p info hinfo
          exact ⟨List.mem_cons_of_mem _ hmem, hindex, hdistributed⟩
      · rw [hcount, hH.count, Option.isSome_some, if_pos rfl, List.length_cons]
        exact Nat.mod_add_mod _ _ _
    · have hclosing : (Op.distributeCoupon caller bondId p₀ holders reportId nonce true).closing
          b = none := if_neg hb
      rw [hclosing] at hcount ⊢
      refine hH.frame (fun p => ?_) hcount
      rw [hinfos, Function.update_of_ne]
      rintro ⟨⟩
      exact hb rfl

/-! ### Completeness -/

theorem getPeriodInfoRange_eq (s : State) (b : BondId) (start count : ℕ) :
    getPeriodInfoRange s b start count =
      Paging.readRange (fun i => s.periodInfo (b, i)) (getPeriodCount s b) start count := rfl

/-- Reading the history of bond `b` answers the records of the periods `closed`, each of them once,
at once or page by page. -/
structure Complete (s : State) (b : BondId) (closed : List ℕ) : Prop where
  nodup : (getPeriodInfoRange s b 0 (getPeriodCount s b)).Nodup
  mem : ∀ info, info ∈ getPeriodInfoRange s b 0 (getPeriodCount s b) ↔
    ∃ p ∈ closed, s.periodInfo (b, p) = some info
  pages : ∀ c n, 1 ≤ c → getPeriodCount s b ≤ n * c →
    ((List.range n).flatMap fun k => getPeriodInfoRange s b (k * c) c) =
      getPeriodInfoRange s b 0 (getPeriodCount s b)

/-- **Completeness** fails as soon as a closed period has an index of at least the count. Then the
query looks for an index that was never closed, or not at one that was. -/
theorem History.complete_iff (hH : History s b closed) :
    Complete s b closed ↔ (∀ p ∈ closed, p < closed.length) ∧ closed.length < 2 ^ 32 := by
  have hfull : getPeriodInfoRange s b 0 (getPeriodCount s b) =
      (List.range (getPeriodCount s b)).filterMap fun i => s.periodInfo (b, i) := by
    rw [getPeriodInfoRange_eq, Paging.readRange_full _ _ le_rfl]
  have hmem : ∀ info, info ∈ getPeriodInfoRange s b 0 (getPeriodCount s b) ↔
      ∃ p < getPeriodCount s b, s.periodInfo (b, p) = some info := by
    intro info
    rw [hfull]
    simp only [List.mem_filterMap, List.mem_range]
  have hcount : getPeriodCount s b = closed.length % 2 ^ 32 := hH.count
  constructor
  · intro hC
    -- the record of a closed period is found below the count, and names its own index
    have hbelow : ∀ p ∈ closed, p < getPeriodCount s b := by
      intro p hp
      obtain ⟨info, hinfo⟩ := hH.recorded p hp
      obtain ⟨p', hlt, hinfo'⟩ := (hmem info).mp ((hC.mem info).mpr ⟨p, hp, hinfo⟩)
      rw [← (hH.named p info hinfo).2.1, (hH.named p' info hinfo').2.1]
      exact hlt
    -- so the closed periods are no more than the count
    have hlength : closed.length ≤ getPeriodCount s b := by
      have hsubset : closed ⊆ List.range (getPeriodCount s b) := fun p hp =>
        List.mem_range.mpr (hbelow p hp)
      have hle := (List.subperm_of_subset hH.nodup hsubset).length_le
      rwa [List.length_range] at hle
    have hfits : closed.length < 2 ^ 32 := by
      have hlt := Nat.mod_lt closed.length (show 0 < 2 ^ 32 by decide)
      omega
    refine ⟨?_, hfits⟩
    rw [hcount, Nat.mod_eq_of_lt hfits] at hbelow
    exact hbelow
  · rintro ⟨hbelow, hfits⟩
    rw [Nat.mod_eq_of_lt hfits] at hcount
    refine ⟨?_, ?_, ?_⟩
    · -- two records of one index are one record
      rw [hfull]
      apply List.Nodup.filterMap _ List.nodup_range
      intro p p' info hinfo hinfo'
      rw [← (hH.named p info hinfo).2.1, (hH.named p' info hinfo').2.1]
    · intro info
      rw [hmem]
      constructor
      · rintro ⟨p, -, hinfo⟩
        exact ⟨p, (hH.named p info hinfo).1, hinfo⟩
      · rintro ⟨p, hp, hinfo⟩
        exact ⟨p, hcount ▸ hbelow p hp, hinfo⟩
    · intro c n _ hn
      exact Paging.flatMap_readRange _ _ hn

end CouponEngine
end NbsBond
