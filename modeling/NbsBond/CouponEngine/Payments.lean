import NbsBond.CouponEngine.Slices

/-!
# Who is paid what

A list of holders may name an address more than once, and with balances that are not positive. An
address is paid for the first positive balance the list gives it, unless an earlier batch of the
period has paid it already; `Payments` says so of a single loop, `distribute_payments` of a call.
-/

namespace NbsBond
namespace CouponEngine

open Soroban Int128 OracleConsumer

variable {P : CreditType → Prop} {creditType : CreditType} {b : BondId} {p : ℕ} {s s' : State}

/-- The balance an address is paid for: the first positive one it has in the list. -/
def firstPositive (holders : List (Address × ℤ)) (a : Address) : Option ℤ :=
  (holders.find? fun entry => entry.1 = a ∧ 0 < entry.2).map Prod.snd

/-- What an address is paid at the given rates. -/
def due (rate : Credits) (holders : List (Address × ℤ)) (a : Address) : Credits :=
  match firstPositive holders a with
  | none => 0
  | some balance => share rate balance

theorem firstPositive_cons_self {entry : Address × ℤ} (holders : List (Address × ℤ))
    (hpos : 0 < entry.2) : firstPositive (entry :: holders) entry.1 = some entry.2 := by
  simp [firstPositive, hpos]

theorem firstPositive_cons_of_ne {entry : Address × ℤ} {a : Address}
    (holders : List (Address × ℤ)) (h : ¬ (entry.1 = a ∧ 0 < entry.2)) :
    firstPositive (entry :: holders) a = firstPositive holders a := by
  unfold firstPositive
  rw [List.find?_cons_of_neg]
  simpa using h

/-- An address with a positive balance in the list is paid for one of these. -/
theorem isSome_firstPositive {holders : List (Address × ℤ)} {a : Address} :
    (firstPositive holders a).isSome = true ↔ ∃ balance, (a, balance) ∈ holders ∧ 0 < balance := by
  unfold firstPositive
  rw [Option.isSome_map, List.find?_isSome]
  constructor
  · rintro ⟨⟨a', balance⟩, hmem, h⟩
    obtain ⟨rfl, hpos⟩ : a' = a ∧ 0 < balance := by simpa using h
    exact ⟨balance, hmem, hpos⟩
  · rintro ⟨balance, hmem, hpos⟩
    exact ⟨(a, balance), hmem, by simpa using hpos⟩

/-! ### The loop -/

/-- From `s` to `s'` the addresses of the list that period `(b, p)` had not processed were paid
once each, at the given rates, and were marked. -/
structure Payments (b : BondId) (p : ℕ) (rate : Credits) (holders : List (Address × ℤ))
    (s s' : State) : Prop where
  marked : ∀ a, s'.holderDistributed (b, p, a) =
    (s.holderDistributed (b, p, a) || (firstPositive holders a).isSome)
  purse : ∀ a, purse s' b a =
    purse s b a + if s.holderDistributed (b, p, a) then 0 else due rate holders a
  accrued : ∀ a, s'.accruedCredits (b, a) = s.accruedCredits (b, a) +
    (if s.holderDistributed (b, p, a) then 0 else due rate holders a).total

theorem Payments.nil (rate : Credits) (s : State) : Payments b p rate [] s s where
  marked a := (Bool.or_false _).symm
  purse a := by
    show _ = _ + if _ then (0 : Credits) else 0
    rw [ite_self, add_zero]
  accrued a := by
    show _ = _ + Credits.total (if _ then (0 : Credits) else 0)
    rw [ite_self, Credits.total_zero, add_zero]

/-- An entry that is skipped pays nobody. -/
theorem Payments.skip {rate : Credits} {entry : Address × ℤ} {holders : List (Address × ℤ)}
    (h : Payments b p rate holders s s')
    (hskip : s.holderDistributed (b, p, entry.1) = true ∨ entry.2 ≤ 0) :
    Payments b p rate (entry :: holders) s s' := by
  -- where the entry would count, the address has been paid before
  have hsame : ∀ a, s.holderDistributed (b, p, a) = true ∨
      firstPositive (entry :: holders) a = firstPositive holders a := by
    intro a
    by_cases hentry : entry.1 = a ∧ 0 < entry.2
    · obtain ⟨rfl, hpos⟩ := hentry
      rcases hskip with hmarked | hneg
      · exact Or.inl hmarked
      · exact absurd hpos (not_lt.mpr hneg)
    · exact Or.inr (firstPositive_cons_of_ne holders hentry)
  refine ⟨?_, ?_, ?_⟩
  · intro a
    rcases hsame a with hmarked | hfirst
    · rw [h.marked, hmarked, Bool.true_or, Bool.true_or]
    · rw [hfirst]
      exact h.marked a
  · intro a
    rcases hsame a with hmarked | hfirst
    · rw [h.purse, if_pos hmarked, if_pos hmarked]
    · unfold due
      rw [hfirst]
      exact h.purse a
  · intro a
    rcases hsame a with hmarked | hfirst
    · rw [h.accrued, if_pos hmarked, if_pos hmarked]
    · unfold due
      rw [hfirst]
      exact h.accrued a

/-- An entry that is paid, followed by the rest of the list. -/
theorem Payments.pay {batch : BatchState} {supply : ℤ} {entry : Address × ℤ} {l l₁ : LoopState}
    {holders : List (Address × ℤ)} (hpaid : Paid b p creditType batch supply entry l l₁)
    (hnonneg : 0 ≤ share (rates creditType batch) entry.2)
    (h : Payments b p (rates creditType batch) holders l₁.storage s') :
    Payments b p (rates creditType batch) (entry :: holders) l.storage s' := by
  have hcredited := hpaid.credited
  rw [payout_of_nonneg hnonneg] at hcredited
  have hfirst := firstPositive_cons_self holders hpaid.positive
  have hmark : l₁.storage.holderDistributed (b, p, entry.1) = true := by
    rw [hpaid.marked, Function.update_self]
  -- the other addresses are as before
  have hothers : ∀ a, a ≠ entry.1 →
      l₁.storage.holderDistributed (b, p, a) = l.storage.holderDistributed (b, p, a) ∧
      CouponEngine.purse l₁.storage b a = CouponEngine.purse l.storage b a ∧
      l₁.storage.accruedCredits (b, a) = l.storage.accruedCredits (b, a) ∧
      firstPositive (entry :: holders) a = firstPositive holders a := by
    intro a ha
    refine ⟨?_, ?_, ?_, ?_⟩
    · rw [hpaid.marked, Function.update_of_ne]
      rintro ⟨⟩
      exact ha rfl
    · rw [hcredited.self, Function.update_of_ne ha]
    · rw [hcredited.accrued, Function.update_of_ne]
      rintro ⟨⟩
      exact ha rfl
    · exact firstPositive_cons_of_ne holders fun hentry => ha hentry.1.symm
  refine ⟨?_, ?_, ?_⟩
  · intro a
    by_cases ha : a = entry.1
    · subst ha
      rw [h.marked, hmark, hfirst, Bool.true_or, Option.isSome_some, Bool.or_true]
    · obtain ⟨hmarks, -, -, hfirst⟩ := hothers a ha
      rw [h.marked, hmarks, hfirst]
  · intro a
    by_cases ha : a = entry.1
    · subst ha
      rw [h.purse, if_pos hmark, if_neg (by simp [hpaid.fresh]), add_zero, hcredited.self,
        Function.update_self]
      unfold due
      rw [hfirst]
    · obtain ⟨hmarks, hpurse, -, hfirst⟩ := hothers a ha
      rw [h.purse, hmarks, hpurse]
      unfold due
      rw [hfirst]
  · intro a
    by_cases ha : a = entry.1
    · subst ha
      rw [h.accrued, if_pos hmark, if_neg (by simp [hpaid.fresh]), Credits.total_zero, add_zero,
        hcredited.accrued, Function.update_self]
      unfold due
      rw [hfirst]
    · obtain ⟨hmarks, -, haccrued, hfirst⟩ := hothers a ha
      rw [h.accrued, hmarks, haccrued]
      unfold due
      rw [hfirst]

/-- **The loop** pays every address of the list once. An address that stands on it again is passed
over. -/
theorem Payments.of_fold {progress : Progress} {l l' : LoopState} {holders : List (Address × ℤ)}
    (hP : ∀ creditType, P creditType) (hB : Batch P creditType progress)
    (hF : Figures P creditType progress l)
    (hfold : holders.foldlM (processHolder b p creditType progress.batch progress.totalSubscribed)
      l = .ok l') :
    Payments b p (rates creditType progress.batch) holders l.storage l'.storage := by
  induction holders generalizing l with
  | nil =>
    cases hfold
    exact .nil _ _
  | cons entry holders ih =>
    rw [List.foldlM_cons, bind_eq_ok] at hfold
    obtain ⟨l₁, hstep, hfold⟩ := hfold
    obtain ⟨rfl, hskip⟩ | hpaid := processHolder_ok hstep
    · exact (ih hF hfold).skip hskip
    · -- the share is paid as it is, because the figures fit
      have hwithin := hpaid.within
      rw [hpaid.processed] at hwithin
      have hnonneg := (hF.share hB (hP creditType) hpaid.positive hwithin).1
      exact .pay hpaid hnonneg (ih (hF.pay (hP .basket) hB hpaid) hfold)

/-! ### A call -/

/-- Closing a period touches neither accounts nor marks. -/
theorem finalise_accounts {deps : Deps} {progress : Progress}
    (h : finalise deps s b p progress = .ok s') :
    s'.holderDistributed = s.holderDistributed ∧ s'.accruedCredits = s.accruedCredits ∧
      s'.accruedCreditsByType = s.accruedCreditsByType := by
  simp only [finalise, bind_eq_ok, pure_eq_ok] at h
  obtain ⟨_, -, _, -, _, -, _, -, _, -, _, -, _, -, _, -, rfl⟩ := h
  exact ⟨rfl, rfl, rfl⟩

/-- **One call** pays every address of its list once, at the rates of the period. Whatever the
batches before it have paid is left. -/
theorem distribute_payments {deps : Deps} {reportId : ReportId} {holders : List (Address × ℤ)}
    {isFinalBatch : Bool} {result : CouponResult} (hP : ∀ creditType, P creditType)
    (hstart : ∀ projectId creditType progress, s.bondProject b = some projectId →
      s.bondCreditType b = some creditType →
      startBatch deps s b p projectId creditType reportId = .ok progress →
      Batch P creditType progress)
    (h : distribute deps s b p holders reportId isFinalBatch = .ok (s', result)) :
    ∃ projectId creditType progress, s.bondProject b = some projectId ∧
      s.bondCreditType b = some creditType ∧
      startBatch deps s b p projectId creditType reportId = .ok progress ∧
      Payments b p (rates creditType progress.batch) holders s s' := by
  simp only [distribute, bind_eq_ok, ensure_eq_ok, orError_eq_ok] at h
  obtain ⟨_, -, projectId, hproject, creditType, htype, progress, hprogress, l, hfold, batch, -,
    h⟩ := h
  have hB := hstart projectId creditType progress hproject htype hprogress
  have hloop := Payments.of_fold hP hB (Figures.start hB) hfold
  refine ⟨projectId, creditType, progress, hproject, htype, hprogress, ?_⟩
  split at h
  · rw [bind_eq_ok] at h
    obtain ⟨s₁, hfinal, h⟩ := h
    cases h
    obtain ⟨hmarks, haccrued, hbyType⟩ := finalise_accounts hfinal
    refine ⟨?_, ?_, ?_⟩
    · rw [hmarks]
      exact hloop.marked
    · unfold CouponEngine.purse
      rw [hbyType]
      exact hloop.purse
    · rw [haccrued]
      exact hloop.accrued
  · cases h
    exact ⟨hloop.marked, hloop.purse, hloop.accrued⟩

/-- Every address with a positive balance in the list was paid exactly once, for the first one, and
nobody else was paid. -/
structure PaidOnce (b : BondId) (p : ℕ) (rate : Credits) (holders : List (Address × ℤ))
    (s s' : State) : Prop where
  marked : ∀ a, s'.holderDistributed (b, p, a) = true ↔
    ∃ balance, (a, balance) ∈ holders ∧ 0 < balance
  byType : ∀ a, purse s' b a = purse s b a + due rate holders a
  combined : ∀ a, s'.accruedCredits (b, a) = s.accruedCredits (b, a) + (due rate holders a).total

/-- Where nobody was marked before, everybody is paid. -/
theorem Payments.paidOnce {rate : Credits} {holders : List (Address × ℤ)}
    (h : Payments b p rate holders s s') (hfresh : ∀ a, s.holderDistributed (b, p, a) = false) :
    PaidOnce b p rate holders s s' where
  marked a := by
    rw [h.marked, hfresh, Bool.false_or, isSome_firstPositive]
  byType a := by
    rw [h.purse, hfresh, if_neg Bool.false_ne_true]
  combined a := by
    rw [h.accrued, hfresh, if_neg Bool.false_ne_true]

/-- Payments are entries of the bond. -/
theorem PaidOnce.agree {Q : Set BondId} {rate : Credits} {holders : List (Address × ℤ)} {t : State}
    (h : PaidOnce b p rate holders s s') (hb : b ∈ Q) (hagree : Agree Q s' t) :
    PaidOnce b p rate holders s t where
  marked a := by
    rw [← hagree.holderDistributed b hb]
    exact h.marked a
  byType a := by
    rw [← h.byType a]
    unfold purse
    rw [hagree.accruedCreditsByType b hb, hagree.accruedCreditsByType b hb]
  combined a := by
    rw [← hagree.accruedCredits b hb]
    exact h.combined a

/-! ### Marks of periods that have not started -/

/-- Only a period that was started has processed anybody. -/
def Marked (s : State) : Prop :=
  ∀ b p a, s.holderDistributed (b, p, a) = true →
    s.batchState (b, p) ≠ none ∨ s.periodInfo (b, p) ≠ none

theorem SamePeriods.marked (h : SamePeriods s s') (hM : Marked s) : Marked s' := by
  unfold Marked
  rw [h.marks, h.batches, h.infos]
  exact hM

/-- A call on period `(b, p)` marks addresses of that period only. -/
theorem distribute_marks {deps : Deps} {reportId : ReportId} {holders : List (Address × ℤ)}
    {isFinalBatch : Bool} {result : CouponResult}
    (h : distribute deps s b p holders reportId isFinalBatch = .ok (s', result)) {b' : BondId}
    {p' : ℕ} (hne : (b', p') ≠ (b, p)) (a : Address) :
    s'.holderDistributed (b', p', a) = s.holderDistributed (b', p', a) := by
  simp only [distribute, bind_eq_ok] at h
  obtain ⟨_, -, projectId, -, creditType, -, progress, -, l, hfold, batch, -, h⟩ := h
  have hloop : l.storage.holderDistributed (b', p', a) = s.holderDistributed (b', p', a) := by
    refine foldlM_invariant (P := fun l : LoopState =>
      l.storage.holderDistributed (b', p', a) = s.holderDistributed (b', p', a)) hfold rfl ?_
    intro l₁ entry l₂ _ hsame hstep
    obtain ⟨rfl, -⟩ | hpaid := processHolder_ok hstep
    · exact hsame
    · rw [hpaid.marked, Function.update_of_ne]
      · exact hsame
      · rintro ⟨⟩
        exact hne rfl
  split at h
  · rw [bind_eq_ok] at h
    obtain ⟨s₁, hfinal, h⟩ := h
    cases h
    rw [(finalise_accounts hfinal).1]
    exact hloop
  · cases h
    exact hloop

/-- **One call** keeps it so. -/
theorem Marked.step {deps : Deps} {op : Op} {r : Ret} (hM : Marked s)
    (h : exec deps s op = .ok (s', r)) : Marked s' := by
  cases exec_tables h with
  | register hcall =>
    simp only [registerBond, bind_eq_ok, pure_eq_ok] at hcall
    obtain ⟨_, -, _, -, _, -, _, -, _, -, _, -, rfl⟩ := hcall
    exact hM
  | @distribute _ b p _ _ _ _ _ _ hcall =>
    obtain ⟨-, -, _, _, _, batch, -, -, -, -, hafter⟩ := distribute_periods hcall
    intro b' p' a hmark
    by_cases hkey : (b', p') = (b, p)
    · -- the period of the call is open or closed afterwards
      obtain ⟨rfl, rfl⟩ := Prod.mk.inj hkey
      obtain ⟨-, -, hbatches⟩ | ⟨-, report, -, hinfos, -⟩ := hafter
      · refine Or.inl ?_
        rw [hbatches, Function.update_self]
        exact Option.some_ne_none _
      · refine Or.inr ?_
        rw [hinfos, Function.update_self]
        exact Option.some_ne_none _
    · rw [distribute_marks hcall hkey] at hmark
      obtain ⟨-, hinfos, hbatches⟩ | ⟨-, report, -, hinfos, hbatches⟩ := hafter
      · rw [hbatches, hinfos, Function.update_of_ne hkey]
        exact hM b' p' a hmark
      · rw [hbatches, hinfos, Function.update_of_ne hkey, Function.update_of_ne hkey]
        exact hM b' p' a hmark
  | frame _ hsame => exact hsame.periods.marked hM

end CouponEngine
end NbsBond
