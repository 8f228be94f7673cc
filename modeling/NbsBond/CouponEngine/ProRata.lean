import NbsBond.CouponEngine.Completion
import NbsBond.CouponEngine.Payments
import NbsBond.Framework.ProRata

/-!
# A batch as a pro-rata allocation

Where the products fit, the per-token rate of a type and the share of a holder are the two roundings
of a pro-rata allocation in fixed point. `Allocated` says what the loop over holders does in these
terms, entry by entry of the list of those that are paid (`fresh`); `distribute_allocates` says it
of a call that runs a batch.
-/

namespace NbsBond
namespace CouponEngine

open Soroban Int128 OracleConsumer

variable {creditType : CreditType} {b : BondId} {p : ℕ} {s s₁ s' : State}

/-! ### Rates and shares without overflow -/

theorem perToken_eq {T S : ℤ} (hT : 0 ≤ T) (hS : 0 < S) (hfits : InRange (T * fixedPoint)) :
    perToken T S = ProRata.rate fixedPoint T S := by
  unfold perToken ProRata.rate
  by_cases hpos : 0 < T
  · rw [if_pos ⟨hS, hpos⟩, wrap_of_inRange hfits, Int.tdiv_eq_ediv_of_nonneg]
    exact mul_nonneg hT (by decide)
  · -- without credits both rates are zero
    have hzero : T = 0 := le_antisymm (not_lt.mp hpos) hT
    rw [if_neg fun h => hpos h.2, hzero, zero_mul, Int.zero_ediv]

theorem Covered.allocation_eq {rate total supply balance : ℤ} (h : Covered rate total supply)
    (hpos : 0 < balance) (hle : balance ≤ supply) :
    CouponEngine.allocation rate balance = rate * balance / fixedPoint := by
  have hnonneg : 0 ≤ rate * balance := mul_nonneg h.nonneg hpos.le
  -- the rate times the whole supply is known to fit
  have hfits : rate * balance ≤ maxValue :=
    (mul_le_mul_of_nonneg_left hle h.nonneg).trans h.fits
  unfold CouponEngine.allocation
  rw [wrap_of_inRange (.of_nonneg hnonneg hfits), Int.tdiv_eq_ediv_of_nonneg hnonneg]

/-- The pro-rata allocation of both types. -/
def allotted (total : Credits) (supply balance : ℤ) : Credits :=
  (ProRata.allot fixedPoint total.1 supply balance, ProRata.allot fixedPoint total.2 supply balance)

/-- The rates of a period are those of a pro-rata allocation. -/
def ProRataRates (creditType : CreditType) (batch : BatchState) (supply : ℤ) : Prop :=
  rates creditType batch = (ProRata.rate fixedPoint (totals batch).1 supply,
    ProRata.rate fixedPoint (totals batch).2 supply)

theorem share_eq_allotted {batch : BatchState} {supply balance : ℤ}
    (hrates : ProRataRates creditType batch supply)
    (hcovers : Covers (rates creditType batch) (totals batch) supply) (hpos : 0 < balance)
    (hle : balance ≤ supply) :
    share (rates creditType batch) balance = allotted (totals batch) supply balance := by
  unfold share
  rw [hcovers.carbon.allocation_eq hpos hle, hcovers.biodiversity.allocation_eq hpos hle, hrates]
  rfl

/-! ### The entries that are paid -/

/-- The entries of a list that are paid: for every address that is not marked, the first one with a
positive balance. -/
def fresh (marked : Address → Bool) : List (Address × ℤ) → List (Address × ℤ)
  | [] => []
  | entry :: holders =>
    if marked entry.1 ∨ entry.2 ≤ 0 then fresh marked holders
    else entry :: fresh (Function.update marked entry.1 true) holders

variable {marked : Address → Bool} {entry : Address × ℤ} {holders paid : List (Address × ℤ)}

theorem fresh_cons_skip (h : marked entry.1 = true ∨ entry.2 ≤ 0) :
    fresh marked (entry :: holders) = fresh marked holders := if_pos h

theorem fresh_cons_pay (hmarked : marked entry.1 = false) (hpos : 0 < entry.2) :
    fresh marked (entry :: holders) =
      entry :: fresh (Function.update marked entry.1 true) holders := by
  apply if_neg
  rw [hmarked]
  rintro (h | h)
  · cases h
  · omega

/-- An entry is paid once, for a positive balance, and only if it is not marked. -/
theorem fresh_sound (marked : Address → Bool) (holders : List (Address × ℤ)) :
    ((fresh marked holders).map Prod.fst).Nodup ∧
      ∀ entry ∈ fresh marked holders, 0 < entry.2 ∧ marked entry.1 = false := by
  induction holders generalizing marked with
  | nil => exact ⟨List.nodup_nil, fun _ h => by cases h⟩
  | cons entry holders ih =>
    by_cases hskip : marked entry.1 = true ∨ entry.2 ≤ 0
    · rw [fresh_cons_skip hskip]
      exact ih marked
    · rw [not_or, Bool.not_eq_true, not_le] at hskip
      obtain ⟨hnodup, hsound⟩ := ih (Function.update marked entry.1 true)
      -- the rest is paid with this address marked, so it is not paid again
      have hne : ∀ other ∈ fresh (Function.update marked entry.1 true) holders,
          other.1 ≠ entry.1 := by
        intro other hother heq
        have hunmarked := (hsound other hother).2
        rw [heq, Function.update_self] at hunmarked
        cases hunmarked
      rw [fresh_cons_pay hskip.1 hskip.2, List.map_cons, List.nodup_cons, List.forall_mem_cons]
      refine ⟨⟨?_, hnodup⟩, ⟨hskip.2, hskip.1⟩, ?_⟩
      · intro hmem
        obtain ⟨other, hother, heq⟩ := List.mem_map.mp hmem
        exact hne other hother heq
      · intro other hother
        obtain ⟨hpos, hunmarked⟩ := hsound other hother
        rw [Function.update_of_ne (hne other hother)] at hunmarked
        exact ⟨hpos, hunmarked⟩

/-! ### The loop -/

/-- From `s` to `s'` an account of the bond received `x`, split and combined. A zero share leaves
the account as it was, so the same is said of it. -/
structure Received (b : BondId) (holder : Address) (x : Credits) (s s' : State) : Prop where
  byType : purse s' b holder = purse s b holder + x
  combined : s'.accruedCredits (b, holder) = s.accruedCredits (b, holder) + x.total

theorem Received.refl (b : BondId) (holder : Address) (s : State) : Received b holder 0 s s where
  byType := (add_zero _).symm
  combined := by rw [Credits.total_zero, add_zero]

theorem Received.trans {holder : Address} {x y : Credits} (h : Received b holder x s s₁)
    (h' : Received b holder y s₁ s') : Received b holder (x + y) s s' where
  byType := by rw [h'.byType, h.byType, add_assoc]
  combined := by rw [h'.combined, h.combined, Credits.total_add, add_assoc]

theorem Credited.received {holder : Address} {x : Credits} (h : Credited b holder x s s')
    (a : Address) : Received b a (if a = holder then x else 0) s s' := by
  by_cases ha : a = holder
  · rw [if_pos ha, ha]
    refine ⟨?_, ?_⟩
    · rw [h.self, Function.update_self]
    · rw [h.accrued, Function.update_self]
  · rw [if_neg ha]
    refine ⟨?_, ?_⟩
    · rw [h.self, Function.update_of_ne ha, add_zero]
    · rw [h.accrued, Function.update_of_ne, Credits.total_zero, add_zero]
      rintro ⟨⟩
      exact ha rfl

/-- From `s` to `s'` the entries `paid` of period `(b, p)` received what `amount` says of their
balances, and were marked. -/
structure Allocated (b : BondId) (p : ℕ) (amount : ℤ → Credits) (paid : List (Address × ℤ))
    (s s' : State) : Prop where
  marked : ∀ a, marks s' b p a = true ↔ marks s b p a = true ∨ a ∈ paid.map Prod.fst
  received : ∀ entry ∈ paid, Received b entry.1 (amount entry.2) s s'
  others : ∀ a, a ∉ paid.map Prod.fst → Received b a 0 s s'

/-- The amount matters at the balances of the entries only. -/
theorem Allocated.congr {amount amount' : ℤ → Credits} (h : Allocated b p amount paid s s')
    (heq : ∀ entry ∈ paid, amount entry.2 = amount' entry.2) :
    Allocated b p amount' paid s s' where
  marked := h.marked
  received entry hentry := heq entry hentry ▸ h.received entry hentry
  others := h.others

/-- The figures of the loop moved by what the entries `paid` received. What the loop knows of
earlier batches is in `l` already. -/
structure Counted (amount : ℤ → Credits) (paid : List (Address × ℤ)) (l l' : LoopState) :
    Prop where
  processed : l'.processedBalance = l.processedBalance + (paid.map Prod.snd).sum
  credits : l'.credits = l.credits + (paid.map fun entry => amount entry.2).sum

/-- An entry that is paid, followed by the others. -/
theorem Paid.allocated {batch : BatchState} {supply : ℤ} {l l₁ : LoopState}
    (hpaid : Paid b p creditType batch supply entry l l₁)
    (hnonneg : 0 ≤ share (rates creditType batch) entry.2)
    (h : Allocated b p (share (rates creditType batch)) paid l₁.storage s')
    (hnot : entry.1 ∉ paid.map Prod.fst) :
    Allocated b p (share (rates creditType batch)) (entry :: paid) l.storage s' := by
  have hcredited := hpaid.credited
  rw [payout_of_nonneg hnonneg] at hcredited
  refine ⟨?_, ?_, ?_⟩
  · intro a
    rw [h.marked, hpaid.marks_eq, List.map_cons, List.mem_cons]
    by_cases ha : a = entry.1
    · rw [ha, Function.update_self]
      simp
    · rw [Function.update_of_ne ha]
      simp [ha]
  · rw [List.forall_mem_cons]
    constructor
    · -- the others do not pay this address again
      have hfirst := hcredited.received entry.1
      rw [if_pos rfl] at hfirst
      have hboth := hfirst.trans (h.others entry.1 hnot)
      rwa [add_zero] at hboth
    · intro other hother
      have hne : other.1 ≠ entry.1 := by
        intro heq
        exact hnot (heq ▸ List.mem_map_of_mem hother)
      have hfirst := hcredited.received other.1
      rw [if_neg hne] at hfirst
      have hboth := hfirst.trans (h.received other hother)
      rwa [zero_add] at hboth
  · intro a ha
    rw [List.map_cons, List.mem_cons, not_or] at ha
    have hfirst := hcredited.received a
    rw [if_neg ha.1] at hfirst
    exact hfirst.trans (h.others a ha.2)

/-- **The loop** pays the fresh entries, each its share. -/
theorem allocated_of_fold {P : CreditType → Prop} {progress : Progress} {l l' : LoopState}
    (hP : ∀ creditType, P creditType) (hB : Batch P creditType progress)
    (hF : Figures P creditType progress l)
    (hfold : holders.foldlM (processHolder b p creditType progress.batch progress.totalSubscribed)
      l = .ok l') :
    Allocated b p (share (rates creditType progress.batch)) (fresh (marks l.storage b p) holders)
      l.storage l'.storage ∧
    Counted (share (rates creditType progress.batch)) (fresh (marks l.storage b p) holders)
      l l' := by
  induction holders generalizing l with
  | nil =>
    cases hfold
    refine ⟨⟨?_, ?_, ?_⟩, (add_zero _).symm, (add_zero _).symm⟩
    · intro a
      simp [fresh]
    · intro entry hentry
      cases hentry
    · intro a _
      exact .refl b a _
  | cons entry holders ih =>
    rw [List.foldlM_cons, bind_eq_ok] at hfold
    obtain ⟨l₁, hstep, hfold⟩ := hfold
    obtain ⟨rfl, hskip⟩ | hpaid := processHolder_ok hstep
    · rw [fresh_cons_skip hskip]
      exact ih hF hfold
    · -- the share is paid as it is, because the figures fit
      have hwithin := hpaid.within
      rw [hpaid.processed] at hwithin
      have hnonneg := (hF.share hB (hP creditType) hpaid.positive hwithin).1
      obtain ⟨hallocated, hcounted⟩ := ih (hF.pay (hP .basket) hB hpaid) hfold
      -- the address is marked now, so none of its later entries is paid
      have hnot : entry.1 ∉ (fresh (marks l₁.storage b p) holders).map Prod.fst := by
        intro hmem
        obtain ⟨other, hother, heq⟩ := List.mem_map.mp hmem
        have hunmarked := ((fresh_sound _ holders).2 other hother).2
        rw [heq, hpaid.marks_eq, Function.update_self] at hunmarked
        cases hunmarked
      have hcredits := hpaid.credits
      rw [payout_of_nonneg hnonneg] at hcredits
      rw [fresh_cons_pay hpaid.fresh hpaid.positive, ← hpaid.marks_eq]
      refine ⟨hpaid.allocated hnonneg hallocated hnot, ?_, ?_⟩
      · rw [hcounted.processed, hpaid.processed, List.map_cons, List.sum_cons, add_assoc]
      · rw [hcounted.credits, hcredits, List.map_cons, List.sum_cons, add_assoc]

/-! ### A call -/

theorem Received.of_same {holder : Address} {x : Credits} (h : Received b holder x s₁ s')
    (hcombined : s.accruedCredits = s₁.accruedCredits)
    (hbyType : s.accruedCreditsByType = s₁.accruedCreditsByType) :
    Received b holder x s s' where
  byType := by
    rw [h.byType]
    unfold purse
    rw [hbyType]
  combined := by rw [h.combined, hcombined]

theorem Received.to_same {holder : Address} {x : Credits} (h : Received b holder x s s₁)
    (hcombined : s'.accruedCredits = s₁.accruedCredits)
    (hbyType : s'.accruedCreditsByType = s₁.accruedCreditsByType) :
    Received b holder x s s' where
  byType := by
    rw [← h.byType]
    unfold purse
    rw [hbyType]
  combined := by rw [← h.combined, hcombined]

/-- The state before may be replaced by one with the same marks and accounts. -/
theorem Allocated.of_same {amount : ℤ → Credits} (h : Allocated b p amount paid s₁ s')
    (hmarks : s.holderDistributed = s₁.holderDistributed)
    (hcombined : s.accruedCredits = s₁.accruedCredits)
    (hbyType : s.accruedCreditsByType = s₁.accruedCreditsByType) :
    Allocated b p amount paid s s' where
  marked := by
    unfold marks
    rw [hmarks]
    exact h.marked
  received entry hentry := (h.received entry hentry).of_same hcombined hbyType
  others a ha := (h.others a ha).of_same hcombined hbyType

/-- So may the state afterwards. -/
theorem Allocated.to_same {amount : ℤ → Credits} (h : Allocated b p amount paid s s₁)
    (hmarks : s'.holderDistributed = s₁.holderDistributed)
    (hcombined : s'.accruedCredits = s₁.accruedCredits)
    (hbyType : s'.accruedCreditsByType = s₁.accruedCreditsByType) :
    Allocated b p amount paid s s' where
  marked := by
    unfold marks
    rw [hmarks]
    exact h.marked
  received entry hentry := (h.received entry hentry).to_same hcombined hbyType
  others a ha := (h.others a ha).to_same hcombined hbyType

/-- A batch took period `(b, p)` from `progress` to `progress'` and allotted the entries `paid`
their parts of the credits of the period. -/
structure Allots (b : BondId) (p : ℕ) (creditType : CreditType) (progress progress' : Progress)
    (paid : List (Address × ℤ)) (s s' : State) : Prop where
  batch : Batch (fun _ => True) creditType progress'
  supply : progress'.totalSubscribed = progress.totalSubscribed
  totals : totals progress'.batch = totals progress.batch
  rates : ProRataRates creditType progress'.batch progress'.totalSubscribed
  processed : progress'.processedBalance = progress.processedBalance + (paid.map Prod.snd).sum
  soFar : soFar progress'.batch = soFar progress.batch +
    (paid.map fun entry =>
      allotted (CouponEngine.totals progress.batch) progress.totalSubscribed entry.2).sum
  allocated : Allocated b p
    (allotted (CouponEngine.totals progress.batch) progress.totalSubscribed) paid s s'

/-- A positive entry is at most the sum of all. -/
theorem le_sum_of_pos (hpos : ∀ entry ∈ paid, 0 < entry.2) (hentry : entry ∈ paid) :
    entry.2 ≤ (paid.map Prod.snd).sum := by
  apply List.single_le_sum
  · intro x hx
    obtain ⟨other, hother, rfl⟩ := List.mem_map.mp hx
    exact (hpos other hother).le
  · exact List.mem_map_of_mem hentry

/-- The loop and `accumulate` allot. -/
theorem allots_of_fold {progress : Progress} {l : LoopState} {batch : BatchState}
    (hB : Batch (fun _ => True) creditType progress)
    (hrates : ProRataRates creditType progress.batch progress.totalSubscribed)
    (hfold : holders.foldlM (processHolder b p creditType progress.batch progress.totalSubscribed)
      ⟨s, progress.processedBalance, 0, 0, 0, 0⟩ = .ok l)
    (hacc : accumulate progress.batch l = .ok batch) :
    Allots b p creditType progress (progress.advance batch l) (fresh (marks s b p) holders) s
      l.storage := by
  have hF := Figures.start (s := s) hB
  obtain ⟨hallocated, hcounted⟩ := allocated_of_fold (fun _ => trivial) hB hF hfold
  have hbatch := accumulate_ok hacc
  have hadvanced := hB.advance (hF.of_fold trivial hB hfold) hacc
  have hsame : totals batch = totals progress.batch ∧
      rates creditType batch = rates creditType progress.batch := by
    rw [hbatch]
    exact ⟨rfl, rfl⟩
  have hsound := (fresh_sound (marks s b p) holders).2
  -- every entry is within the snapshot, so its share is the pro-rata allocation
  have hshare : ∀ entry ∈ fresh (marks s b p) holders,
      share (rates creditType progress.batch) entry.2 =
        allotted (totals progress.batch) progress.totalSubscribed entry.2 := by
    intro entry hentry
    have hle := le_sum_of_pos (fun other hother => (hsound other hother).1) hentry
    have hprocessed : l.processedBalance = progress.processedBalance +
        ((fresh (marks s b p) holders).map Prod.snd).sum := hcounted.processed
    have hwithin : l.processedBalance ≤ progress.totalSubscribed := hadvanced.within
    have hstart := hB.processed
    exact share_eq_allotted hrates (hB.covered trivial).1 (hsound entry hentry).1 (by omega)
  refine ⟨hadvanced, rfl, hsame.1, ?_, hcounted.processed, ?_, hallocated.congr hshare⟩
  · show rates creditType batch = _
    rw [hsame.2, hrates]
    show _ = (ProRata.rate fixedPoint (totals batch).1 _,
      ProRata.rate fixedPoint (totals batch).2 _)
    rw [hsame.1]
    rfl
  · have hsoFar : soFar batch = soFar progress.batch + l.credits := by
      rw [hbatch]
      rfl
    have hcredits : l.credits = 0 + _ := hcounted.credits
    show soFar batch = _
    rw [hsoFar, hcredits, zero_add, List.map_congr_left hshare]

/-- Closing the period of `progress` recorded `info` and left the rest to the dust. A remainder that
is not positive is recorded and does not go to the dust. -/
structure Closes (b : BondId) (progress : Progress) (info : PeriodInfo) (s s' : State) : Prop where
  processed : progress.processedBalance = progress.totalSubscribed
  distributed : info.distributed = true
  earned : info.totalCreditsEarned = progress.batch.distributedSoFar
  undistributed : info.undistributed =
    progress.batch.totalCredits - progress.batch.distributedSoFar
  dust : dust s' b = dust s b + positivePart (totals progress.batch - soFar progress.batch)
  combined : s'.undistributedTotal b = s.undistributedTotal b +
    max (progress.batch.totalCredits - progress.batch.distributedSoFar) 0

theorem closes_of_finalise {deps : Deps} {progress : Progress}
    (h : finalise deps s b p progress = .ok s') :
    s'.batchState (b, p) = none ∧
      ∃ info, s'.periodInfo (b, p) = some info ∧ Closes b progress info s s' := by
  simp only [finalise, bind_eq_ok, ensure_eq_ok, orTrap_eq_ok, orError_eq_ok, checkedSub_eq_some,
    pure_eq_ok] at h
  obtain ⟨_, hall, report, -, _, ⟨-, rfl⟩, _, ⟨-, rfl⟩, _, ⟨-, rfl⟩, _, htotal, _, hcarbon, _,
    hbio, rfl⟩ := h
  refine ⟨Function.update_self .., _, Function.update_self .., hall, rfl, rfl, rfl, ?_, ?_⟩
  · rw [addRemainder_ok hcarbon, addRemainder_ok hbio]
    simp [CouponEngine.dust, positivePart, totals, soFar]
  · show Function.update s.undistributedTotal b _ b = _
    rw [Function.update_self, addRemainder_ok htotal]

/-- **A call of `distribute_coupon`**, where nothing overflows: a batch that allots, and then the
period is left open or closed. -/
theorem distribute_allocates {deps : Deps} {reportId : ReportId} {isFinalBatch : Bool}
    {result : CouponResult}
    (h : distribute deps s b p holders reportId isFinalBatch = .ok (s', result)) :
    (∀ info, s.periodInfo (b, p) = some info → info.distributed = false) ∧
    ∃ projectId creditType progress progress', s.bondCreditType b = some creditType ∧
      startBatch deps s b p projectId creditType reportId = .ok progress ∧
      (Batch (fun _ => True) creditType progress →
        ProRataRates creditType progress.batch progress.totalSubscribed →
        Allots b p creditType progress progress' (fresh (marks s b p) holders) s s') ∧
      ((isFinalBatch = false ∧ s'.batchState (b, p) = some progress'.batch ∧
          s'.distributionBalance (b, p) =
            some (progress'.totalSubscribed, progress'.processedBalance) ∧
          s'.periodInfo (b, p) = s.periodInfo (b, p)) ∨
        (isFinalBatch = true ∧ s'.batchState (b, p) = none ∧
          ∃ info, s'.periodInfo (b, p) = some info ∧ Closes b progress' info s s')) := by
  simp only [distribute, bind_eq_ok, ensure_eq_ok, orError_eq_ok] at h
  obtain ⟨_, hopen, projectId, -, creditType, htype, progress, hprogress, l, hfold, batch, hacc,
    h⟩ := h
  have hbooks := sameBooks_of_fold hfold
  have hinfos := hbooks.periods.1
  refine ⟨hopen, projectId, creditType, progress, progress.advance batch l, htype, hprogress, ?_,
    ?_⟩
  · intro hB hrates
    -- saving the progress touches neither marks nor accounts, and nor does closing the period
    have hloop := allots_of_fold hB hrates hfold hacc
    have hsaved := hloop.allocated.of_same (s := s) rfl rfl rfl
    refine { hloop with allocated := ?_ }
    split at h
    · rw [bind_eq_ok] at h
      obtain ⟨_, hfinal, h⟩ := h
      cases h
      obtain ⟨hmarks, hcombined, hbyType⟩ := finalise_accounts hfinal
      exact hsaved.to_same hmarks hcombined hbyType
    · cases h
      exact hsaved.to_same rfl rfl rfl
  · cases isFinalBatch with
    | false =>
      rw [if_neg Bool.false_ne_true, pure_eq_ok, Prod.mk.injEq] at h
      obtain ⟨rfl, -⟩ := h
      exact .inl ⟨rfl, Function.update_self .., Function.update_self .., congrFun hinfos (b, p)⟩
    | true =>
      rw [if_pos rfl, bind_eq_ok] at h
      obtain ⟨_, hfinal, h⟩ := h
      rw [pure_eq_ok, Prod.mk.injEq] at h
      obtain ⟨rfl, -⟩ := h
      obtain ⟨hbatches, info, hinfo, hcloses⟩ := closes_of_finalise hfinal
      refine .inr ⟨rfl, hbatches, info, hinfo, ?_⟩
      -- the loop does not touch the dust either
      unfold SameBooks at hbooks
      have hdust := hcloses.dust
      have hcombined := hcloses.combined
      refine { hcloses with dust := ?_, combined := ?_ }
      · rw [hdust]
        unfold CouponEngine.dust saveProgress
        dsimp only
        rw [hbooks]
        rfl
      · rw [hcombined]
        unfold saveProgress
        dsimp only
        rw [hbooks]
        rfl

/-- The same of an external call, in whose state the nonces may have moved. -/
theorem exec_allocates {deps : Deps} {caller : Address} {reportId : ReportId} {nonce : ℕ}
    {isFinalBatch : Bool} {r : Ret}
    (h : exec deps s (.distributeCoupon caller b p holders reportId nonce isFinalBatch) =
      .ok (s', r)) :
    (∀ info, s.periodInfo (b, p) = some info → info.distributed = false) ∧
    ∃ projectId creditType progress progress', s.bondCreditType b = some creditType ∧
      startBatch deps s b p projectId creditType reportId = .ok progress ∧
      (Batch (fun _ => True) creditType progress →
        ProRataRates creditType progress.batch progress.totalSubscribed →
        Allots b p creditType progress progress' (fresh (marks s b p) holders) s s') ∧
      ((isFinalBatch = false ∧ s'.batchState (b, p) = some progress'.batch ∧
          s'.distributionBalance (b, p) =
            some (progress'.totalSubscribed, progress'.processedBalance) ∧
          s'.periodInfo (b, p) = s.periodInfo (b, p)) ∨
        (isFinalBatch = true ∧ s'.batchState (b, p) = none ∧
          ∃ info, s'.periodInfo (b, p) = some info ∧ Closes b progress' info s s')) := by
  simp only [exec, distributeCoupon, bind_eq_ok, pure_eq_ok, Prod.mk.injEq] at h
  obtain ⟨⟨s₁, result⟩, ⟨nonces, -, _, -, h⟩, rfl, -⟩ := h
  obtain ⟨hopen, projectId, creditType, progress, progress', htype, hstart, hallots, hafter⟩ :=
    distribute_allocates h
  refine ⟨hopen, projectId, creditType, progress, progress', htype, hstart, ?_, ?_⟩
  · intro hB hrates
    have hloop := hallots hB hrates
    exact { hloop with allocated := hloop.allocated.of_same rfl rfl rfl }
  · rcases hafter with hopen | ⟨hfinal, hbatch, info, hinfo, hcloses⟩
    · exact .inl hopen
    · exact .inr ⟨hfinal, hbatch, info, hinfo,
        { hcloses with dust := hcloses.dust, combined := hcloses.combined }⟩

theorem SameTables.keeps_period (h : SameTables s s') (b : BondId) (p : ℕ) :
    s'.batchState (b, p) = s.batchState (b, p) ∧ s'.periodInfo (b, p) = s.periodInfo (b, p) ∧
      s'.distributionBalance (b, p) = s.distributionBalance (b, p) ∧
      marks s' b p = marks s b p := by
  have hperiods := h.periods
  refine ⟨congrFun hperiods.batches (b, p), congrFun hperiods.infos (b, p),
    congrFun h.balances (b, p), ?_⟩
  unfold marks
  rw [hperiods.marks]

/-- A call that is no distribution of period `(b, p)` leaves its tables alone. -/
theorem exec_keeps_period {deps : Deps} {op : Op} {r : Ret} (h : exec deps s op = .ok (s', r))
    (hop : ∀ caller holders reportId nonce isFinalBatch,
      op ≠ .distributeCoupon caller b p holders reportId nonce isFinalBatch) :
    s'.batchState (b, p) = s.batchState (b, p) ∧ s'.periodInfo (b, p) = s.periodInfo (b, p) ∧
      s'.distributionBalance (b, p) = s.distributionBalance (b, p) ∧
      marks s' b p = marks s b p := by
  cases exec_tables h with
  | register hcall =>
    simp only [registerBond, bind_eq_ok, pure_eq_ok] at hcall
    obtain ⟨_, -, _, -, _, -, _, -, _, -, _, -, rfl⟩ := hcall
    exact ⟨rfl, rfl, rfl, rfl⟩
  | @distribute caller b' p' holders' reportId nonce isFinalBatch _ _ hcall =>
    -- a distribution of another period
    have hne : (b, p) ≠ (b', p') := by
      rintro ⟨⟩
      exact hop _ _ _ _ _ rfl
    have hbalance := distribute_balance_of_ne hcall hne
    have hmarks : marks s' b p = marks s b p := funext fun a => distribute_marks hcall hne a
    obtain ⟨-, -, _, _, _, batch, -, -, -, -, hafter⟩ := distribute_periods hcall
    obtain ⟨-, hinfos, hbatches⟩ | ⟨-, report, -, hinfos, hbatches⟩ := hafter
    · rw [hinfos, hbatches, Function.update_of_ne hne]
      exact ⟨rfl, rfl, hbalance, hmarks⟩
    · rw [hinfos, hbatches, Function.update_of_ne hne, Function.update_of_ne hne]
      exact ⟨rfl, rfl, hbalance, hmarks⟩
  | frame _ hsame => exact hsame.keeps_period b p

end CouponEngine
end NbsBond
