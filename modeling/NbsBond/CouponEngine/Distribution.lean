import NbsBond.CouponEngine.Accounts

/-!
# One batch of a distribution

A batch pays each listed holder its share of the period's credits: the per-token rate times the
balance, in fixed point, rounded down, for each of the two types. `Covered` is what the rates are
worth: as long as the products fit an `i128`, the shares of all holders together never exceed the
credits of the period, because the balances processed never exceed `total_subscribed`.

`Batch` is the invariant of a period between its first and its last batch, `Advanced` what one batch
does to the state, and `Finalised` what closing the period does.
-/

namespace NbsBond
namespace CouponEngine

open Soroban Int128 OracleConsumer

/-! ### Rates and shares -/

/-- The per-token rates a bond of the given type allocates by. -/
def rates (creditType : CreditType) (batch : BatchState) : Credits :=
  match creditType with
  | .carbon | .blueCarbon => (batch.creditsPerToken, 0)
  | .biodiversity => (0, batch.creditsPerToken)
  | .basket => (batch.carbonPerToken, batch.biodiversityPerToken)

/-- The share of a balance. -/
def share (rate : Credits) (balance : ℤ) : Credits :=
  (allocation rate.1 balance, allocation rate.2 balance)

/-- The credits of a period. -/
def totals (batch : BatchState) : Credits := (batch.carbonTotal, batch.biodiversityTotal)

/-- What its batches have paid. -/
def soFar (batch : BatchState) : Credits :=
  (batch.carbonDistributedSoFar, batch.bioDistributedSoFar)

theorem allocation_zero (balance : ℤ) : allocation 0 balance = 0 := by
  unfold allocation
  rw [zero_mul, wrap_of_inRange (by decide), Int.zero_tdiv]

/-- Whatever the type, a holder's credits are its share, and their total. -/
theorem holderCredits_ok {creditType : CreditType} {batch : BatchState}
    {balance credits carbon biodiversity : ℤ}
    (h : holderCredits creditType batch balance = .ok (credits, carbon, biodiversity)) :
    (carbon, biodiversity) = share (rates creditType batch) balance ∧
      credits = carbon + biodiversity := by
  cases creditType with
  | carbon =>
    cases h
    exact ⟨by simp [share, rates, allocation_zero], (add_zero _).symm⟩
  | blueCarbon =>
    cases h
    exact ⟨by simp [share, rates, allocation_zero], (add_zero _).symm⟩
  | biodiversity =>
    cases h
    exact ⟨by simp [share, rates, allocation_zero], (zero_add _).symm⟩
  | basket =>
    simp only [holderCredits, bind_eq_ok, orError_eq_ok, checkedAdd_eq_some, pure_eq_ok,
      Prod.mk.injEq] at h
    obtain ⟨_, ⟨-, rfl⟩, rfl, rfl, rfl⟩ := h
    exact ⟨rfl, rfl⟩

/-- A share fits the bond's type. -/
theorem suits_share (creditType : CreditType) (batch : BatchState) (balance : ℤ) :
    Suits (some creditType) (share (rates creditType batch) balance) := by
  cases creditType with
  | carbon => exact allocation_zero balance
  | blueCarbon => exact allocation_zero balance
  | biodiversity => exact allocation_zero balance
  | basket => trivial

/-- The rate pays at most `total` over `supply` tokens, and all products fit an `i128`. Rounding
goes down, which is why there is a bound and no equation. -/
structure Covered (rate total supply : ℤ) : Prop where
  nonneg : 0 ≤ rate
  bounded : rate * supply ≤ total * fixedPoint
  fits : rate * supply ≤ maxValue

/-- The rate `distribute_coupon` computes is covered if its product fits. -/
theorem Covered.perToken {total supply : ℤ} (htotal : 0 ≤ total)
    (hfits : 0 < supply → InRange (total * fixedPoint)) :
    Covered (perToken total supply) total supply := by
  have hproduct : 0 ≤ total * fixedPoint := mul_nonneg htotal (by decide)
  unfold CouponEngine.perToken
  split
  · next h =>
    -- the rate is rounded down, so `rate * supply` is below the product that fits
    have hfit := hfits h.1
    have hbounded := tdiv_mul_le hproduct h.1
    rw [wrap_of_inRange hfit]
    exact ⟨Int.tdiv_nonneg hproduct h.1.le, hbounded, hbounded.trans hfit.2⟩
  · refine ⟨le_refl 0, ?_, ?_⟩
    · rw [zero_mul]
      exact hproduct
    · rw [zero_mul]
      decide

/-- A covered allocation is exact, non-negative and rounded down. -/
theorem Covered.allocation {rate total supply balance : ℤ} (h : Covered rate total supply)
    (hpos : 0 < balance) (hle : balance ≤ supply) :
    0 ≤ allocation rate balance ∧ allocation rate balance * fixedPoint ≤ rate * balance := by
  have hnonneg : 0 ≤ rate * balance := mul_nonneg h.nonneg hpos.le
  have hfits : rate * balance ≤ maxValue :=
    calc rate * balance ≤ rate * supply := mul_le_mul_of_nonneg_left hle h.nonneg
      _ ≤ maxValue := h.fits
  unfold CouponEngine.allocation
  rw [wrap_of_inRange (.of_nonneg hnonneg hfits)]
  exact ⟨Int.tdiv_nonneg hnonneg (by decide), tdiv_mul_le hnonneg (by decide)⟩

/-- Both rates are covered. -/
structure Covers (rate total : Credits) (supply : ℤ) : Prop where
  carbon : Covered rate.1 total.1 supply
  biodiversity : Covered rate.2 total.2 supply

/-- The amounts `x` are at most what the rates pay on `balance` tokens. -/
structure PaidBy (rate : Credits) (balance : ℤ) (x : Credits) : Prop where
  carbon : x.1 * fixedPoint ≤ rate.1 * balance
  biodiversity : x.2 * fixedPoint ≤ rate.2 * balance

theorem PaidBy.zero (rate : Credits) : PaidBy rate 0 0 where
  carbon := by simp
  biodiversity := by simp

theorem PaidBy.add {rate x y : Credits} {m n : ℤ} (hx : PaidBy rate m x) (hy : PaidBy rate n y) :
    PaidBy rate (m + n) (x + y) where
  carbon :=
    calc (x.1 + y.1) * fixedPoint = x.1 * fixedPoint + y.1 * fixedPoint := add_mul _ _ _
      _ ≤ rate.1 * m + rate.1 * n := add_le_add hx.carbon hy.carbon
      _ = rate.1 * (m + n) := (mul_add _ _ _).symm
  biodiversity :=
    calc (x.2 + y.2) * fixedPoint = x.2 * fixedPoint + y.2 * fixedPoint := add_mul _ _ _
      _ ≤ rate.2 * m + rate.2 * n := add_le_add hx.biodiversity hy.biodiversity
      _ = rate.2 * (m + n) := (mul_add _ _ _).symm

/-- The share of a balance is not negative, and is paid by the rates. -/
theorem Covers.share {rate total : Credits} {supply balance : ℤ} (h : Covers rate total supply)
    (hpos : 0 < balance) (hle : balance ≤ supply) :
    0 ≤ share rate balance ∧ PaidBy rate balance (share rate balance) := by
  obtain ⟨hnonneg₁, hpaid₁⟩ := h.carbon.allocation hpos hle
  obtain ⟨hnonneg₂, hpaid₂⟩ := h.biodiversity.allocation hpos hle
  exact ⟨⟨hnonneg₁, hnonneg₂⟩, hpaid₁, hpaid₂⟩

/-- What covered rates pay on at most all of the supply is at most the total. -/
theorem Covers.le_total {rate total x : Credits} {supply balance : ℤ}
    (h : Covers rate total supply) (hle : balance ≤ supply) (hpaid : PaidBy rate balance x) :
    x ≤ total := by
  have hFP : (0 : ℤ) < fixedPoint := by decide
  refine ⟨le_of_mul_le_mul_right ?_ hFP, le_of_mul_le_mul_right ?_ hFP⟩
  · calc x.1 * fixedPoint ≤ rate.1 * balance := hpaid.carbon
      _ ≤ rate.1 * supply := mul_le_mul_of_nonneg_left hle h.carbon.nonneg
      _ ≤ total.1 * fixedPoint := h.carbon.bounded
  · calc x.2 * fixedPoint ≤ rate.2 * balance := hpaid.biodiversity
      _ ≤ rate.2 * supply := mul_le_mul_of_nonneg_left hle h.biodiversity.nonneg
      _ ≤ total.2 * fixedPoint := h.biodiversity.bounded

/-! ### The loop body -/

/-- The part of a pair that is paid: its positive components. -/
def positivePart (x : Credits) : Credits := (max x.1 0, max x.2 0)

theorem positivePart_nonneg (x : Credits) : 0 ≤ positivePart x :=
  ⟨le_max_right _ _, le_max_right _ _⟩

theorem positivePart_of_nonneg {x : Credits} (h : 0 ≤ x) : positivePart x = x :=
  Prod.ext (max_eq_left h.1) (max_eq_left h.2)

theorem Suits.positivePart {registered : Option CreditType} {x : Credits}
    (h : Suits registered x) : Suits registered (positivePart x) := by
  unfold Suits at *
  split
  · simp_all [CouponEngine.positivePart]
  all_goals simp_all [CouponEngine.positivePart]

/-- For a bond of a single type the positive total is the total of the positive part. -/
theorem total_positivePart {creditType : CreditType} (hne : creditType ≠ .basket) {x : Credits}
    (h : Suits (some creditType) x) : (positivePart x).total = max x.total 0 := by
  unfold Credits.total CouponEngine.positivePart
  cases creditType with
  | basket => exact absurd rfl hne
  | carbon =>
    change x.2 = 0 at h
    simp [h]
  | blueCarbon =>
    change x.2 = 0 at h
    simp [h]
  | biodiversity =>
    change x.1 = 0 at h
    simp [h]

/-- The figures the loop has added up. -/
def LoopState.credits (l : LoopState) : Credits :=
  (l.carbonHolderCredits, l.biodiversityHolderCredits)

theorem creditCarbon_ok {b : BondId} {holder : Address} {amount : ℤ} {l l' : LoopState}
    (h : creditCarbon b holder amount l = .ok l') :
    Credited b holder (bucket .carbon (max amount 0)) l.storage l'.storage ∧
      l' = { l with
        storage := l'.storage
        carbonHolderCredits := l.carbonHolderCredits + max amount 0 } ∧
      l'.storage.holderDistributed = l.storage.holderDistributed := by
  unfold creditCarbon at h
  split at h
  · next hpos =>
    simp only [bind_eq_ok, orError_eq_ok, checkedAdd_eq_some, pure_eq_ok] at h
    obtain ⟨_, ⟨-, rfl⟩, s, hs, rfl⟩ := h
    rw [max_eq_left hpos.le]
    refine ⟨accrueCredits_ok (Or.inl rfl) hs, rfl, ?_⟩
    simp only [accrueCredits, bind_eq_ok, pure_eq_ok] at hs
    obtain ⟨_, -, _, -, rfl⟩ := hs
    rfl
  · next hneg =>
    cases h
    rw [max_eq_right (not_lt.mp hneg), add_zero]
    exact ⟨Credited.refl b holder _, rfl, rfl⟩

theorem creditBiodiversity_ok {b : BondId} {holder : Address} {amount : ℤ} {l l' : LoopState}
    (h : creditBiodiversity b holder amount l = .ok l') :
    Credited b holder (bucket .biodiversity (max amount 0)) l.storage l'.storage ∧
      l' = { l with
        storage := l'.storage
        biodiversityHolderCredits := l.biodiversityHolderCredits + max amount 0 } ∧
      l'.storage.holderDistributed = l.storage.holderDistributed := by
  unfold creditBiodiversity at h
  split at h
  · next hpos =>
    simp only [bind_eq_ok, orError_eq_ok, checkedAdd_eq_some, pure_eq_ok] at h
    obtain ⟨_, ⟨-, rfl⟩, s, hs, rfl⟩ := h
    rw [max_eq_left hpos.le]
    refine ⟨accrueCredits_ok (Or.inr rfl) hs, rfl, ?_⟩
    simp only [accrueCredits, bind_eq_ok, pure_eq_ok] at hs
    obtain ⟨_, -, _, -, rfl⟩ := hs
    rfl
  · next hneg =>
    cases h
    rw [max_eq_right (not_lt.mp hneg), add_zero]
    exact ⟨Credited.refl b holder _, rfl, rfl⟩

/-- What a share `x` is worth to a holder: its positive part, if the total is positive. -/
def payout (x : Credits) : Credits := if 0 < x.total then positivePart x else 0

theorem payout_nonneg (x : Credits) : 0 ≤ payout x := by
  unfold payout
  split
  · exact positivePart_nonneg x
  · exact le_refl 0

theorem Suits.payout {registered : Option CreditType} {x : Credits} (h : Suits registered x) :
    Suits registered (payout x) := by
  unfold CouponEngine.payout
  split
  · exact h.positivePart
  · exact Suits.zero _

/-- A non-negative share is paid as it is. -/
theorem payout_of_nonneg {x : Credits} (h : 0 ≤ x) : payout x = x := by
  unfold payout
  split
  · exact positivePart_of_nonneg h
  · next hzero =>
    have h₁ : 0 ≤ x.1 := h.1
    have h₂ : 0 ≤ x.2 := h.2
    unfold Credits.total at hzero
    refine Prod.ext ?_ ?_
    · show 0 = x.1
      omega
    · show 0 = x.2
      omega

/-- For a bond of a single type the payout's total is the positive total. -/
theorem total_payout {creditType : CreditType} (hne : creditType ≠ .basket) {x : Credits}
    (h : Suits (some creditType) x) : (payout x).total = max x.total 0 := by
  unfold payout
  split
  · exact total_positivePart hne h
  · next hzero => rw [max_eq_right (not_lt.mp hzero), Credits.total_zero]

theorem payHolder_ok {b : BondId} {holder : Address} {credits carbon biodiversity : ℤ}
    {l l' : LoopState} (h : payHolder b holder credits carbon biodiversity l = .ok l')
    (hcredits : credits = carbon + biodiversity) :
    Credited b holder (payout (carbon, biodiversity)) l.storage l'.storage ∧
      l'.credits = l.credits + payout (carbon, biodiversity) ∧
      l'.totalHolderCredits = l.totalHolderCredits + max credits 0 ∧
      l'.processedBalance = l.processedBalance ∧
      l'.storage.holderDistributed = l.storage.holderDistributed := by
  have htotal : Credits.total (carbon, biodiversity) = credits := hcredits.symm
  unfold payHolder at h
  split at h
  · next hpos =>
    simp only [bind_eq_ok, orError_eq_ok, checkedAdd_eq_some, pure_eq_ok] at h
    obtain ⟨_, ⟨-, rfl⟩, l₁, h₁, l₂, h₂, rfl⟩ := h
    obtain ⟨hc₁, hl₁, hm₁⟩ := creditCarbon_ok h₁
    obtain ⟨hc₂, hl₂, hm₂⟩ := creditBiodiversity_ok h₂
    -- each part is paid if it is positive
    have hpayout : payout (carbon, biodiversity) =
        bucket .carbon (max carbon 0) + bucket .biodiversity (max biodiversity 0) := by
      unfold payout
      rw [htotal, if_pos hpos]
      simp [positivePart, bucket]
    rw [hpayout, max_eq_left hpos.le]
    refine ⟨hc₁.trans hc₂, ?_, ?_, ?_, hm₂.trans hm₁⟩
    · rw [hl₂, hl₁]
      simp [LoopState.credits, bucket]
    · rw [hl₂, hl₁]
    · rw [hl₂, hl₁]
  · next hneg =>
    cases h
    have hpayout : payout (carbon, biodiversity) = 0 := by
      unfold payout
      rw [htotal, if_neg hneg]
    rw [hpayout, max_eq_right (not_lt.mp hneg), add_zero, add_zero]
    exact ⟨Credited.refl b holder _, rfl, rfl, rfl, rfl⟩

/-- One holder of the list was paid. The entry was passed over otherwise, and then nothing has
changed. -/
structure Paid (b : BondId) (p : ℕ) (creditType : CreditType) (batch : BatchState) (supply : ℤ)
    (entry : Address × ℤ) (l l' : LoopState) : Prop where
  fresh : l.storage.holderDistributed (b, p, entry.1) = false
  positive : 0 < entry.2
  processed : l'.processedBalance = l.processedBalance + entry.2
  within : l'.processedBalance ≤ supply
  credited : Credited b entry.1 (payout (share (rates creditType batch) entry.2)) l.storage
    l'.storage
  credits : l'.credits = l.credits + payout (share (rates creditType batch) entry.2)
  total : l'.totalHolderCredits =
    l.totalHolderCredits + max (share (rates creditType batch) entry.2).total 0
  marked : l'.storage.holderDistributed =
    Function.update l.storage.holderDistributed (b, p, entry.1) true

/-- **The loop body** skips a holder or pays it. In the first case the entry is marked already, or
lists no tokens. -/
theorem processHolder_ok {b : BondId} {p : ℕ} {creditType : CreditType} {batch : BatchState}
    {supply : ℤ} {l l' : LoopState} {entry : Address × ℤ}
    (h : processHolder b p creditType batch supply l entry = .ok l') :
    (l' = l ∧ (l.storage.holderDistributed (b, p, entry.1) = true ∨ entry.2 ≤ 0)) ∨
      Paid b p creditType batch supply entry l l' := by
  unfold processHolder at h
  split at h
  · next hmarked =>
    cases h
    exact Or.inl ⟨rfl, Or.inl hmarked⟩
  next hfresh =>
  split at h
  swap
  · next hpos =>
    cases h
    exact Or.inl ⟨rfl, Or.inr (not_lt.mp hpos)⟩
  next hpos =>
  simp only [bind_eq_ok, orError_eq_ok, checkedAdd_eq_some, ensure_eq_ok, pure_eq_ok] at h
  obtain ⟨_, ⟨-, rfl⟩, _, hwithin, ⟨credits, carbon, biodiversity⟩, hcredits, l₁, hpay, rfl⟩ := h
  obtain ⟨hshare, htotal⟩ := holderCredits_ok hcredits
  obtain ⟨hc, hadd, hsum, hprocessed, hmarks⟩ := payHolder_ok hpay htotal
  rw [hshare] at hc hadd
  refine Or.inr ⟨Bool.eq_false_iff.mpr hfresh, hpos, hprocessed, ?_, ?_, hadd, ?_, ?_⟩
  · rw [hprocessed]
    exact hwithin
  · exact hc.congr rfl rfl
  · rw [← hshare]
    show _ = _ + max (carbon + biodiversity) 0
    rw [← htotal]
    exact hsum
  · show Function.update l₁.storage.holderDistributed _ _ = _
    rw [hmarks]

/-- The loop touches nonces, accounts and marks only. -/
theorem sameBooks_of_fold {b : BondId} {periodIndex : ℕ} {creditType : CreditType}
    {batch : BatchState} {supply : ℤ} {holders : List (Address × ℤ)} {l l' : LoopState}
    (hfold : holders.foldlM (processHolder b periodIndex creditType batch supply) l = .ok l') :
    SameBooks l.storage l'.storage := by
  refine foldlM_invariant (P := fun l' => SameBooks l.storage l'.storage) hfold (.refl _) ?_
  intro l₁ entry l₂ _ hbooks h
  obtain ⟨rfl, -⟩ | hpaid := processHolder_ok h
  · exact hbooks
  · exact hbooks.trans hpaid.credited.books

/-! ### A period between its batches -/

/-- The state of a period that is being distributed. `P` tells the credit types for which the
products of the rates are known to fit an `i128`. -/
structure Batch (P : CreditType → Prop) (creditType : CreditType) (p : Progress) : Prop where
  total : p.batch.totalCredits = (totals p.batch).total
  inRange : InRange (totals p.batch).total
  paid : p.batch.distributedSoFar = (soFar p.batch).total
  nonneg : 0 ≤ soFar p.batch
  suitsTotals : Suits (some creditType) (totals p.batch)
  suitsPaid : Suits (some creditType) (soFar p.batch)
  processed : 0 ≤ p.processedBalance
  within : p.processedBalance ≤ p.totalSubscribed
  covered : P creditType →
    Covers (rates creditType p.batch) (totals p.batch) p.totalSubscribed ∧
      PaidBy (rates creditType p.batch) p.processedBalance (soFar p.batch)

/-- The figures of the loop over holders, for a batch that starts from progress `p`. The progress is
that of the batches before, so that the figures of the loop begin where those have ended. -/
structure Figures (P : CreditType → Prop) (creditType : CreditType) (p : Progress)
    (l : LoopState) : Prop where
  nonneg : 0 ≤ l.credits
  suits : Suits (some creditType) l.credits
  total : l.totalHolderCredits = l.credits.total
  processed : p.processedBalance ≤ l.processedBalance
  within : l.processedBalance ≤ p.totalSubscribed
  paid : P creditType → PaidBy (rates creditType p.batch)
    (l.processedBalance - p.processedBalance) l.credits

theorem Figures.start {P : CreditType → Prop} {creditType : CreditType} {p : Progress} {s : State}
    (hB : Batch P creditType p) : Figures P creditType p ⟨s, p.processedBalance, 0, 0, 0, 0⟩ where
  nonneg := le_refl _
  suits := Suits.zero _
  total := rfl
  processed := le_refl _
  within := hB.within
  paid _ := by
    show PaidBy _ (p.processedBalance - p.processedBalance) 0
    rw [sub_self]
    exact PaidBy.zero _

/-- Where the products fit, a share is paid as it is. -/
theorem Figures.share {P : CreditType → Prop} {creditType : CreditType} {p : Progress}
    {l : LoopState} (hB : Batch P creditType p) (hcreditType : P creditType)
    (hF : Figures P creditType p l) {balance : ℤ} (hpos : 0 < balance)
    (hle : l.processedBalance + balance ≤ p.totalSubscribed) :
    0 ≤ share (rates creditType p.batch) balance ∧
      PaidBy (rates creditType p.batch) balance (share (rates creditType p.batch) balance) := by
  have h₁ := hF.processed
  have h₂ := hB.processed
  exact (hB.covered hcreditType).1.share hpos (by omega)

/-- **One holder** keeps the figures of the loop in order. Both rates are covered, so the payment
leaves the totals unexceeded. -/
theorem Figures.pay {P : CreditType → Prop} {b : BondId} {periodIndex : ℕ}
    {creditType : CreditType} {p : Progress} {l l' : LoopState} {entry : Address × ℤ}
    (hP : P .basket) (hB : Batch P creditType p) (hF : Figures P creditType p l)
    (hpaid : Paid b periodIndex creditType p.batch p.totalSubscribed entry l l') :
    Figures P creditType p l' := by
  have hsuits := suits_share creditType p.batch entry.2
  have hprocessed := hpaid.processed
  have hwithin := hpaid.within
  have hexact : P creditType → 0 ≤ CouponEngine.share (rates creditType p.batch) entry.2 ∧
      PaidBy (rates creditType p.batch) entry.2
        (CouponEngine.share (rates creditType p.batch) entry.2) := by
    intro hcreditType
    rw [hprocessed] at hwithin
    exact hF.share hB hcreditType hpaid.positive hwithin
  refine ⟨?_, ?_, ?_, ?_, hwithin, ?_⟩
  · rw [hpaid.credits]
    exact add_nonneg hF.nonneg (payout_nonneg _)
  · rw [hpaid.credits]
    exact hF.suits.add hsuits.payout
  · rw [hpaid.total, hpaid.credits, Credits.total_add, hF.total]
    congr 1
    -- a basket pays both parts, neither of them negative; elsewhere one part is 0
    by_cases hbasket : creditType = .basket
    · obtain ⟨hnonneg, -⟩ := hexact (hbasket ▸ hP)
      rw [payout_of_nonneg hnonneg]
      exact max_eq_left (add_nonneg hnonneg.1 hnonneg.2)
    · exact (total_payout hbasket hsuits).symm
  · have h₁ := hpaid.positive
    have h₂ := hF.processed
    omega
  · intro hcreditType
    obtain ⟨hnonneg, hshare⟩ := hexact hcreditType
    rw [hpaid.credits, payout_of_nonneg hnonneg, hprocessed, add_sub_right_comm]
    exact (hF.paid hcreditType).add hshare

theorem Figures.of_fold {P : CreditType → Prop} {b : BondId} {periodIndex : ℕ}
    {creditType : CreditType} {p : Progress} {l l' : LoopState} {holders : List (Address × ℤ)}
    (hP : P .basket) (hB : Batch P creditType p) (hF : Figures P creditType p l)
    (hfold : holders.foldlM (processHolder b periodIndex creditType p.batch p.totalSubscribed) l =
      .ok l') : Figures P creditType p l' := by
  refine foldlM_invariant hfold hF ?_
  intro l entry l' _ hF h
  obtain ⟨rfl, -⟩ | hpaid := processHolder_ok h
  · exact hF
  · exact hF.pay hP hB hpaid

/-- What the loop does to the accounts, for a batch that starts in storage `s`. It is to the storage
what `Figures` is to the variables of the loop. -/
structure Loop (b : BondId) (creditType : CreditType) (s : State) (l : LoopState) : Prop where
  accounts : Accounts l.storage
  books : SameBooks s l.storage
  sum : ∀ b', ∑ᶠ a, purse l.storage b' a =
    ∑ᶠ a, purse s b' a + if b' = b then l.credits else 0

theorem Loop.start {b : BondId} {creditType : CreditType} {n : ℤ} {s : State} (hA : Accounts s) :
    Loop b creditType s ⟨s, n, 0, 0, 0, 0⟩ where
  accounts := hA
  books := rfl
  sum b' := by
    show _ = _ + if b' = b then (0 : Credits) else 0
    rw [ite_self, add_zero]

/-- **One holder** keeps the accounts in order. A payment is an addition to one account. -/
theorem Loop.pay {b : BondId} {periodIndex : ℕ} {creditType : CreditType} {batch : BatchState}
    {supply : ℤ} {s : State} {l l' : LoopState} {entry : Address × ℤ}
    (htype : s.bondCreditType b = some creditType) (hL : Loop b creditType s l)
    (hpaid : Paid b periodIndex creditType batch supply entry l l') : Loop b creditType s l' := by
  -- the loop writes no types
  have hregistered : l.storage.bondCreditType b = some creditType := by
    have hbooks := hL.books
    unfold SameBooks at hbooks
    rw [hbooks]
    exact htype
  refine ⟨?_, ?_, ?_⟩
  · refine hL.accounts.credited hpaid.credited ?_ ?_
    · exact add_nonneg (hL.accounts.nonneg b entry.1) (payout_nonneg _)
    · rw [hregistered]
      exact (suits_share creditType batch entry.2).payout
  · exact hL.books.trans hpaid.credited.books
  · intro b'
    rw [hpaid.credited.sum hL.accounts b', hL.sum b', hpaid.credits]
    split
    · rw [add_assoc]
    · rw [add_zero]

/-- **The whole loop.** By the rule for loops, from the storage before the batch. -/
theorem Loop.of_fold {b : BondId} {periodIndex : ℕ} {creditType : CreditType} {batch : BatchState}
    {supply n : ℤ} {s : State} {l : LoopState} {holders : List (Address × ℤ)} (hA : Accounts s)
    (htype : s.bondCreditType b = some creditType)
    (hfold : holders.foldlM (processHolder b periodIndex creditType batch supply)
      ⟨s, n, 0, 0, 0, 0⟩ = .ok l) : Loop b creditType s l := by
  refine foldlM_invariant hfold (Loop.start hA) ?_
  intro l entry l' _ hL h
  obtain ⟨rfl, -⟩ | hpaid := processHolder_ok h
  · exact hL
  · exact hL.pay htype hpaid

/-! ### A batch, as a step of the state -/

/-- The progress after a batch. -/
def Progress.advance (p : Progress) (batch : BatchState) (l : LoopState) : Progress :=
  { p with batch, processedBalance := l.processedBalance }

/-- One batch of period `(b, periodIndex)` took the state from `s` to `s'` and the period from
progress `p` to `p'`, paying `x`. -/
structure Advanced (P : CreditType → Prop) (b : BondId) (periodIndex : ℕ)
    (creditType : CreditType) (p p' : Progress) (x : Credits) (s s' : State) : Prop where
  accounts : Accounts s'
  batch : Batch P creditType p'
  sum : ∀ b', ∑ᶠ a, purse s' b' a = ∑ᶠ a, purse s b' a + if b' = b then x else 0
  paid : soFar p'.batch = soFar p.batch + x
  totals : totals p'.batch = totals p.batch
  report : p'.batch.reportId = p.batch.reportId
  stored : s' = { s with
    nonce := s'.nonce
    accruedCredits := s'.accruedCredits
    accruedCreditsByType := s'.accruedCreditsByType
    holderDistributed := s'.holderDistributed
    batchState := Function.update s.batchState (b, periodIndex) (some p'.batch)
    distributionBalance := Function.update s.distributionBalance (b, periodIndex)
      (some (p'.totalSubscribed, p'.processedBalance)) }

/-- `accumulate` adds the loop's figures. -/
theorem accumulate_ok {batch batch' : BatchState} {l : LoopState}
    (h : accumulate batch l = .ok batch') :
    batch' = { batch with
      distributedSoFar := batch.distributedSoFar + l.totalHolderCredits
      carbonDistributedSoFar := batch.carbonDistributedSoFar + l.carbonHolderCredits
      bioDistributedSoFar := batch.bioDistributedSoFar + l.biodiversityHolderCredits
      holderCountSoFar := batch.holderCountSoFar + l.holderCount } := by
  simp only [accumulate, bind_eq_ok, orError_eq_ok, checkedAdd_eq_some, pure_eq_ok] at h
  obtain ⟨_, ⟨-, rfl⟩, _, ⟨-, rfl⟩, _, ⟨-, rfl⟩, rfl⟩ := h
  rfl

/-- The loop followed by `accumulate` keeps the state of the period in order. -/
theorem Batch.advance {P : CreditType → Prop} {creditType : CreditType} {p : Progress}
    {l : LoopState} {batch : BatchState} (hB : Batch P creditType p)
    (hF : Figures P creditType p l) (hacc : accumulate p.batch l = .ok batch) :
    Batch P creditType (p.advance batch l) := by
  have hbatch := accumulate_ok hacc
  have hrates : rates creditType batch = rates creditType p.batch := by
    rw [hbatch]
    rfl
  have htotals : totals batch = totals p.batch := by
    rw [hbatch]
    rfl
  have hpaid : soFar batch = soFar p.batch + l.credits := by
    rw [hbatch]
    rfl
  refine ⟨?_, ?_, ?_, ?_, ?_, ?_, hB.processed.trans hF.processed, hF.within, ?_⟩
  · show batch.totalCredits = (totals batch).total
    rw [htotals, hbatch]
    exact hB.total
  · show InRange (totals batch).total
    rw [htotals]
    exact hB.inRange
  · show batch.distributedSoFar = (soFar batch).total
    rw [hpaid, Credits.total_add, ← hB.paid, ← hF.total, hbatch]
  · show 0 ≤ soFar batch
    rw [hpaid]
    exact add_nonneg hB.nonneg hF.nonneg
  · show Suits _ (totals batch)
    rw [htotals]
    exact hB.suitsTotals
  · show Suits _ (soFar batch)
    rw [hpaid]
    exact hB.suitsPaid.add hF.suits
  · intro hcreditType
    obtain ⟨hcovers, hbefore⟩ := hB.covered hcreditType
    show Covers (rates creditType batch) (totals batch) p.totalSubscribed ∧
      PaidBy (rates creditType batch) l.processedBalance (soFar batch)
    -- what was paid before and what the loop paid, on all the tokens processed
    have hnow := hbefore.add (hF.paid hcreditType)
    rw [add_sub_cancel] at hnow
    rw [hrates, htotals, hpaid]
    exact ⟨hcovers, hnow⟩

/-- The loop followed by `accumulate` advances the period. -/
theorem Advanced.of_loop {P : CreditType → Prop} {b : BondId} {periodIndex : ℕ}
    {creditType : CreditType} {p : Progress} {s : State} {l : LoopState} {batch : BatchState}
    (hB : Batch P creditType p) (hF : Figures P creditType p l)
    (hL : Loop b creditType (saveProgress s b periodIndex p) l)
    (hacc : accumulate p.batch l = .ok batch) :
    Advanced P b periodIndex creditType p (p.advance batch l) l.credits s
      (saveProgress l.storage b periodIndex (p.advance batch l)) := by
  have hbatch := accumulate_ok hacc
  have hbooks := hL.books
  unfold SameBooks at hbooks
  refine ⟨?_, hB.advance hF hacc, hL.sum, ?_, ?_, ?_, ?_⟩
  · exact hL.accounts.congr rfl rfl rfl rfl rfl
  · show soFar batch = _
    rw [hbatch]
    rfl
  · show CouponEngine.totals batch = _
    rw [hbatch]
    rfl
  · show batch.reportId = _
    rw [hbatch]
  · rw [hbooks]
    simp [saveProgress, Progress.advance]

/-! ### Opening a period -/

/-- What a report is worth, per type. -/
def worth (report : Report) : Credits :=
  (report.carbonSequestered.tdiv creditDivisor, computeBiodiversityCredits report.biodiversity)

theorem computeBiodiversityCredits_nonneg {metrics : BiodiversityMetrics}
    (h : BiodiversityMetrics.nonneg metrics = true) : 0 ≤ computeBiodiversityCredits metrics := by
  cases metrics with
  | absent => exact le_refl 0
  | present habitat species units =>
    obtain ⟨h₁, h₂, h₃⟩ : 0 ≤ habitat ∧ 0 ≤ species ∧ 0 ≤ units := of_decide_eq_true h
    have hhabitat : 0 ≤ saturatingMul habitat habitatCreditRate :=
      saturate_nonneg (mul_nonneg h₁ (by decide))
    have hspecies : 0 ≤ saturatingMul species speciesCreditRate :=
      saturate_nonneg (mul_nonneg h₂ (by decide))
    have hunits : 0 ≤ saturatingMul units unitCreditRate :=
      saturate_nonneg (mul_nonneg h₃ (by decide))
    refine Int.tdiv_nonneg ?_ (by decide)
    exact saturate_nonneg (add_nonneg (saturate_nonneg (add_nonneg hhabitat hspecies)) hunits)

/-- A measured report is worth something non-negative. -/
theorem worth_nonneg {report : Report} (hcarbon : 0 ≤ report.carbonSequestered)
    (hbio : BiodiversityMetrics.nonneg report.biodiversity = true) : 0 ≤ worth report :=
  ⟨Int.tdiv_nonneg hcarbon (by decide), computeBiodiversityCredits_nonneg hbio⟩

/-- A bond takes from a report the types it has, and all of these. -/
theorem creditTotals_ok {creditType : CreditType} {report : Report} {t : Credits}
    (h : creditTotals creditType report = .ok t) :
    Suits (some creditType) t ∧ (t.1 = (worth report).1 ∨ t.1 = 0) ∧
      (t.2 = (worth report).2 ∨ t.2 = 0) := by
  cases creditType with
  | carbon =>
    cases h
    exact ⟨rfl, Or.inl rfl, Or.inr rfl⟩
  | blueCarbon =>
    cases h
    exact ⟨rfl, Or.inl rfl, Or.inr rfl⟩
  | biodiversity =>
    simp only [creditTotals, bind_eq_ok, ensure_eq_ok, pure_eq_ok] at h
    obtain ⟨_, -, rfl⟩ := h
    exact ⟨rfl, Or.inr rfl, Or.inl rfl⟩
  | basket =>
    simp only [creditTotals, bind_eq_ok, ensure_eq_ok, pure_eq_ok] at h
    obtain ⟨_, -, rfl⟩ := h
    exact ⟨trivial, Or.inl rfl, Or.inl rfl⟩

/-- The products the rates are computed from fit an `i128`; without supply none are computed. -/
def Fits (t : Credits) (supply : ℤ) : Prop :=
  0 < supply → InRange (t.1 * fixedPoint) ∧ InRange (t.2 * fixedPoint)

instance (t : Credits) (supply : ℤ) : Decidable (Fits t supply) :=
  inferInstanceAs (Decidable (_ → _))

/-- The first batch of a period was opened on `report`, with `supply` tokens subscribed. Everything
about the period is computed from these figures, once, and stored for the batches to come. -/
structure Opened (deps : Deps) (b : BondId) (projectId : Bytes32) (creditType : CreditType)
    (reportId : ReportId) (report : Report) (supply : ℤ) (batch : BatchState) : Prop where
  found : deps.getReport reportId = some report
  verified : report.status = .verified
  project : report.projectMetadataHash = projectId
  subscribed : deps.totalSubscribed b = some supply
  credits : creditTotals creditType report = .ok (totals batch)
  inRange : InRange (totals batch).total
  computed : batch = ⟨reportId, 0, 0, 0, 0, (totals batch).total, batch.carbonTotal,
    batch.biodiversityTotal, perToken (totals batch).total supply,
    perToken batch.carbonTotal supply, perToken batch.biodiversityTotal supply⟩

theorem openBatch_ok {deps : Deps} {b : BondId} {projectId : Bytes32} {creditType : CreditType}
    {reportId : ReportId} {batch : BatchState} {supply : ℤ}
    (h : openBatch deps b projectId creditType reportId = .ok (batch, supply)) :
    ∃ report, Opened deps b projectId creditType reportId report supply batch := by
  simp only [openBatch, bind_eq_ok, orTrap_eq_ok, orError_eq_ok, checkedAdd_eq_some, ensure_eq_ok,
    pure_eq_ok, Prod.mk.injEq] at h
  obtain ⟨report, hreport, _, hverified, _, hproject, _, hsupply, ⟨carbon, bio⟩, htotals, _,
    ⟨hrange, rfl⟩, rfl, rfl⟩ := h
  exact ⟨report, hreport, hverified, hproject, hsupply, htotals, hrange, rfl⟩

/-- What a bond draws from a measured report is not negative. -/
theorem creditTotals_nonneg {creditType : CreditType} {report : Report} {t : Credits}
    (hworth : 0 ≤ worth report) (h : creditTotals creditType report = .ok t) : 0 ≤ t := by
  obtain ⟨-, hcarbon, hbio⟩ := creditTotals_ok h
  constructor
  · rcases hcarbon with h | h
    · exact hworth.1.trans_eq h.symm
    · exact h.ge
  · rcases hbio with h | h
    · exact hworth.2.trans_eq h.symm
    · exact h.ge

/-- The rate each type is paid by is computed from that type's own total. -/
theorem Opened.rates_eq {deps : Deps} {b : BondId} {projectId : Bytes32} {creditType : CreditType}
    {reportId : ReportId} {report : Report} {supply : ℤ} {batch : BatchState}
    (h : Opened deps b projectId creditType reportId report supply batch) :
    rates creditType batch =
      (perToken batch.carbonTotal supply, perToken batch.biodiversityTotal supply) := by
  -- a type the bond does not have has total 0, and its rate is 0 too
  have hzero : perToken 0 supply = 0 := if_neg (by simp)
  have hsuits := (creditTotals_ok h.credits).1
  rw [h.computed]
  cases creditType with
  | carbon =>
    change batch.biodiversityTotal = 0 at hsuits
    simp [rates, totals, Credits.total, hsuits, hzero]
  | blueCarbon =>
    change batch.biodiversityTotal = 0 at hsuits
    simp [rates, totals, Credits.total, hsuits, hzero]
  | biodiversity =>
    change batch.carbonTotal = 0 at hsuits
    simp [rates, totals, Credits.total, hsuits, hzero]
  | basket => rfl

/-- **A freshly opened period** satisfies the invariant. Nothing is paid yet, so all that is to be
shown is about the rates. -/
theorem Opened.batch_ok {P : CreditType → Prop} {deps : Deps} {b : BondId} {projectId : Bytes32}
    {creditType : CreditType} {reportId : ReportId} {report : Report} {supply : ℤ}
    {batch : BatchState} (h : Opened deps b projectId creditType reportId report supply batch)
    (hworth : 0 ≤ worth report) (hsupply : 0 ≤ supply)
    (hfits : P creditType → Fits (totals batch) supply) :
    Batch P creditType ⟨batch, supply, 0⟩ := by
  have hbatch := h.computed
  have hnonneg : 0 ≤ totals batch := creditTotals_nonneg hworth h.credits
  have hzero : soFar batch = 0 := by
    rw [hbatch]
    rfl
  refine ⟨?_, h.inRange, ?_, ?_, (creditTotals_ok h.credits).1, ?_, le_refl 0, hsupply, ?_⟩
  · rw [hbatch]
    rfl
  · rw [hbatch]
    rfl
  · exact hzero.ge
  · show Suits _ (soFar batch)
    rw [hzero]
    exact Suits.zero _
  · intro hcreditType
    show Covers (rates creditType batch) (totals batch) supply ∧
      PaidBy (rates creditType batch) 0 (soFar batch)
    rw [h.rates_eq, hzero]
    refine ⟨⟨?_, ?_⟩, PaidBy.zero _⟩
    · exact Covered.perToken hnonneg.1 fun hsupply => (hfits hcreditType hsupply).1
    · exact Covered.perToken hnonneg.2 fun hsupply => (hfits hcreditType hsupply).2

/-! ### Closing a period -/

/-- The period was closed: its remainder became dust and its record was written. A period is closed
once: the record that is written here keeps later batches out. -/
structure Finalised (b : BondId) (periodIndex : ℕ) (p : Progress) (report : Report)
    (s s' : State) : Prop where
  accounts : Accounts s'
  purse : purse s' = purse s
  dust : ∀ b', dust s' b' =
    dust s b' + if b' = b then positivePart (totals p.batch - soFar p.batch) else 0
  stored : s' = { s with
    undistributedTotal := s'.undistributedTotal
    undistributedByType := s'.undistributedByType
    periodInfo := Function.update s.periodInfo (b, periodIndex)
      (some ⟨periodIndex, report.periodStart, report.periodEnd, p.batch.distributedSoFar, true,
        p.batch.reportId, p.batch.totalCredits - p.batch.distributedSoFar⟩)
    periodCount := Function.update s.periodCount b ((s.periodCount b + 1) % 2 ^ 32)
    batchState := Function.update s.batchState (b, periodIndex) none
    distributionBalance := Function.update s.distributionBalance (b, periodIndex) none }

theorem addRemainder_ok {existing remainder x : ℤ} (h : addRemainder existing remainder = .ok x) :
    x = existing + max remainder 0 := by
  unfold addRemainder at h
  split at h
  · next hpos =>
    rw [orError_eq_ok, checkedAdd_eq_some] at h
    rw [max_eq_left hpos.le]
    exact h.2.symm
  · next hneg =>
    cases h
    rw [max_eq_right (not_lt.mp hneg), add_zero]

/-- Where the products fit, the batches together paid at most the credits of the period. -/
theorem Batch.remainder_nonneg {P : CreditType → Prop} {creditType : CreditType} {p : Progress}
    (hB : Batch P creditType p) (hcreditType : P creditType) :
    0 ≤ totals p.batch - soFar p.batch := by
  obtain ⟨hcovers, hpaid⟩ := hB.covered hcreditType
  exact sub_nonneg.mpr (hcovers.le_total hB.within hpaid)

theorem finalise_ok {P : CreditType → Prop} {deps : Deps} {b : BondId} {periodIndex : ℕ}
    {creditType : CreditType} {p : Progress} {s s' : State} (hP : P .basket) (hA : Accounts s)
    (htype : s.bondCreditType b = some creditType) (hB : Batch P creditType p)
    (h : finalise deps s b periodIndex p = .ok s') :
    p.processedBalance = p.totalSubscribed ∧
      ∃ report, deps.getReport p.batch.reportId = some report ∧
        Finalised b periodIndex p report s s' := by
  simp only [finalise, bind_eq_ok, ensure_eq_ok, orTrap_eq_ok, orError_eq_ok, checkedSub_eq_some,
    pure_eq_ok] at h
  obtain ⟨_, hall, report, hreport, _, ⟨-, rfl⟩, _, ⟨-, rfl⟩, _, ⟨-, rfl⟩, _, htotal, _, hcarbon, _,
    hbio, rfl⟩ := h
  have htotal := addRemainder_ok htotal
  have hcarbon := addRemainder_ok hcarbon
  have hbio := addRemainder_ok hbio
  subst htotal hcarbon hbio
  refine ⟨hall, report, hreport, ?_⟩
  have hsuits : Suits (some creditType) (totals p.batch - soFar p.batch) := by
    rw [sub_eq_add_neg]
    exact hB.suitsTotals.add hB.suitsPaid.neg
  -- the combined remainder is the total of what the buckets get
  have hremainder : max (p.batch.totalCredits - p.batch.distributedSoFar) 0 =
      (positivePart (totals p.batch - soFar p.batch)).total := by
    have heq : p.batch.totalCredits - p.batch.distributedSoFar =
        (totals p.batch - soFar p.batch).total := by
      rw [hB.total, hB.paid]
      simp only [Credits.total, Prod.fst_sub, Prod.snd_sub]
      ring
    rw [heq]
    by_cases hbasket : creditType = .basket
    · have hnonneg := hB.remainder_nonneg (hbasket ▸ hP)
      rw [positivePart_of_nonneg hnonneg]
      exact max_eq_left (add_nonneg hnonneg.1 hnonneg.2)
    · exact (total_positivePart hbasket hsuits).symm
  have hdust : ∀ b', CouponEngine.dust { s with
        undistributedByType := Function.update (Function.update s.undistributedByType (b, .carbon)
          (s.undistributedByType (b, .carbon) +
            max (p.batch.carbonTotal - p.batch.carbonDistributedSoFar) 0)) (b, .biodiversity)
          (s.undistributedByType (b, .biodiversity) +
            max (p.batch.biodiversityTotal - p.batch.bioDistributedSoFar) 0) } b' =
      CouponEngine.dust s b' +
        if b' = b then positivePart (totals p.batch - soFar p.batch) else 0 := by
    intro b'
    unfold CouponEngine.dust
    by_cases hb : b' = b
    · subst hb
      simp [positivePart, totals, soFar]
    · simp [hb]
  refine ⟨?_, rfl, hdust, rfl⟩
  refine ⟨hA.combined, ?_, hA.clean, ?_, hA.nonneg, ?_, hA.suits, ?_, hA.finite⟩
  · intro b'
    refine Eq.trans ?_ (congrArg Credits.total (hdust b')).symm
    show Function.update s.undistributedTotal b _ b' = _
    by_cases hb : b' = b
    · subst hb
      rw [Function.update_self, if_pos rfl, Credits.total_add, hA.dusted, hremainder]
    · rw [Function.update_of_ne hb, if_neg hb, add_zero]
      exact hA.dusted b'
  · intro b' creditType' hne
    show Function.update (Function.update s.undistributedByType _ _) _ _ (b', creditType') = 0
    rw [Function.update_of_ne, Function.update_of_ne]
    · exact hA.dustClean b' creditType' hne
    · rintro ⟨⟩
      exact hne (Or.inl rfl)
    · rintro ⟨⟩
      exact hne (Or.inr rfl)
  · intro b'
    refine le_of_le_of_eq ?_ (hdust b').symm
    split
    · exact add_nonneg (hA.dustNonneg b') (positivePart_nonneg _)
    · rw [add_zero]
      exact hA.dustNonneg b'
  · intro b'
    refine (hdust b').symm ▸ ?_
    show Suits (s.bondCreditType b') _
    by_cases hb : b' = b
    · subst hb
      rw [if_pos rfl]
      refine (hA.dustSuits b').add ?_
      rw [htype]
      exact hsuits.positivePart
    · rw [if_neg hb, add_zero]
      exact hA.dustSuits b'

/-! ### `distribute_coupon` -/

/-- A later state of the same period: only the running figures differ. Rates and totals are fixed by
the first batch. -/
structure Continues (batch batch' : BatchState) : Prop where
  report : batch'.reportId = batch.reportId
  totals : totals batch' = totals batch
  total : batch'.totalCredits = batch.totalCredits

/-- What one call of `distribute_coupon` does to the tables of periods, whatever the figures
are: it stores the continued batch, or closes the period and writes its record. -/
theorem distribute_periods {deps : Deps} {s s' : State} {b : BondId} {periodIndex : ℕ}
    {holders : List (Address × ℤ)} {reportId : ReportId} {isFinalBatch : Bool}
    {result : CouponResult}
    (h : distribute deps s b periodIndex holders reportId isFinalBatch = .ok (s', result)) :
    (∀ info, s.periodInfo (b, periodIndex) = some info → info.distributed = false) ∧
    (s'.bondProject = s.bondProject ∧ s'.bondCreditType = s.bondCreditType) ∧
    ∃ projectId creditType p batch, s.bondProject b = some projectId ∧
      s.bondCreditType b = some creditType ∧
      startBatch deps s b periodIndex projectId creditType reportId = .ok p ∧
      Continues p.batch batch ∧
      ((isFinalBatch = false ∧ s'.periodInfo = s.periodInfo ∧
          s'.batchState = Function.update s.batchState (b, periodIndex) (some batch)) ∨
        (isFinalBatch = true ∧ ∃ report, deps.getReport batch.reportId = some report ∧
          s'.periodInfo = Function.update s.periodInfo (b, periodIndex)
            (some ⟨periodIndex, report.periodStart, report.periodEnd, batch.distributedSoFar, true,
              batch.reportId, batch.totalCredits - batch.distributedSoFar⟩) ∧
          s'.batchState = Function.update s.batchState (b, periodIndex) none)) := by
  simp only [distribute, bind_eq_ok, ensure_eq_ok, orError_eq_ok] at h
  obtain ⟨_, hunfinalised, projectId, hproject, creditType, htype, p, hp, l, hfold, batch, hacc,
    h⟩ := h
  obtain ⟨hinfos, hbatches, hprojects, htypes⟩ := (sameBooks_of_fold hfold).periods
  have hbatch := accumulate_ok hacc
  have hcontinues : Continues p.batch batch := by
    rw [hbatch]
    exact ⟨rfl, rfl, rfl⟩
  cases isFinalBatch with
  | false =>
    rw [if_neg (by decide), pure_eq_ok, Prod.mk.injEq] at h
    obtain ⟨rfl, -⟩ := h
    refine ⟨hunfinalised, ⟨hprojects, htypes⟩, projectId, creditType, p, batch, hproject, htype,
      hp, hcontinues, Or.inl ⟨rfl, hinfos, ?_⟩⟩
    -- the batch is stored before the loop and after it, under one key
    show Function.update l.storage.batchState _ _ = _
    rw [hbatches]
    exact Function.update_idem _ _ _
  | true =>
    rw [if_pos rfl, bind_eq_ok] at h
    obtain ⟨s₂, hfinal, h⟩ := h
    rw [pure_eq_ok, Prod.mk.injEq] at h
    obtain ⟨rfl, -⟩ := h
    simp only [finalise, bind_eq_ok, ensure_eq_ok, orTrap_eq_ok, orError_eq_ok,
      checkedSub_eq_some, pure_eq_ok] at hfinal
    obtain ⟨_, -, report, hreport, _, ⟨-, rfl⟩, _, -, _, -, _, -, _, -, _, -, rfl⟩ := hfinal
    refine ⟨hunfinalised, ⟨hprojects, htypes⟩, projectId, creditType, p, batch, hproject, htype,
      hp, hcontinues, Or.inr ⟨rfl, report, hreport, ?_, ?_⟩⟩
    · show Function.update l.storage.periodInfo _ _ = _
      rw [hinfos]
      rfl
    · -- and once more to remove it
      show Function.update (Function.update l.storage.batchState _ _) _ _ = _
      rw [hbatches, Function.update_idem]
      exact Function.update_idem _ _ _

/-- **One call of `distribute_coupon`** is a batch, followed by the closing of the period if it was
the last one. -/
theorem distribute_ok {P : CreditType → Prop} {deps : Deps} {s s' : State} {b : BondId}
    {periodIndex : ℕ} {holders : List (Address × ℤ)} {reportId : ReportId} {isFinalBatch : Bool}
    {result : CouponResult} (hP : P .basket) (hA : Accounts s)
    (hstart : ∀ projectId creditType p, s.bondProject b = some projectId →
      s.bondCreditType b = some creditType →
      startBatch deps s b periodIndex projectId creditType reportId = .ok p →
      Batch P creditType p)
    (h : distribute deps s b periodIndex holders reportId isFinalBatch = .ok (s', result)) :
    (∀ info, s.periodInfo (b, periodIndex) = some info → info.distributed = false) ∧
    ∃ projectId creditType p p' x s₁, s.bondProject b = some projectId ∧
      s.bondCreditType b = some creditType ∧
      startBatch deps s b periodIndex projectId creditType reportId = .ok p ∧
      Batch P creditType p ∧ Advanced P b periodIndex creditType p p' x s s₁ ∧
      ((isFinalBatch = false ∧ s' = s₁) ∨
        (isFinalBatch = true ∧ p'.processedBalance = p'.totalSubscribed ∧
          ∃ report, deps.getReport p'.batch.reportId = some report ∧
            Finalised b periodIndex p' report s₁ s')) := by
  simp only [distribute, bind_eq_ok, ensure_eq_ok, orError_eq_ok] at h
  obtain ⟨_, hunfinalised, projectId, hproject, creditType, htype, p, hp, l, hfold, batch, hacc,
    h⟩ := h
  have hB := hstart projectId creditType p hproject htype hp
  -- the loop starts after the period was saved, which moves no account
  have hsaved : Accounts (saveProgress s b periodIndex p) := hA.congr rfl rfl rfl rfl rfl
  have hF := Figures.of_fold hP hB (Figures.start hB) hfold
  have hL := Loop.of_fold hsaved htype hfold
  have hadv := Advanced.of_loop hB hF hL hacc
  refine ⟨hunfinalised, projectId, creditType, p, p.advance batch l, l.credits,
    saveProgress l.storage b periodIndex (p.advance batch l), hproject, htype, hp, hB, hadv, ?_⟩
  cases isFinalBatch with
  | false =>
    rw [if_neg (by decide), pure_eq_ok, Prod.mk.injEq] at h
    exact Or.inl ⟨rfl, h.1.symm⟩
  | true =>
    rw [if_pos rfl, bind_eq_ok] at h
    obtain ⟨s₂, hfinal, h⟩ := h
    rw [pure_eq_ok, Prod.mk.injEq] at h
    obtain ⟨rfl, -⟩ := h
    have htype₁ : (saveProgress l.storage b periodIndex (p.advance batch l)).bondCreditType b =
        some creditType := by
      rw [hadv.stored]
      exact htype
    obtain ⟨hall, hrest⟩ := finalise_ok hP hadv.accounts htype₁ hadv.batch hfinal
    exact Or.inr ⟨rfl, hall, hrest⟩

end CouponEngine
end NbsBond
