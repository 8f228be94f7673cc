import NbsBond.Framework.Traced
import NbsBond.CouponEngine.Completion

/-!
# The products of a distribution

`distribute_coupon` adds with `checked_add` but multiplies with a plain `*`, which wraps in a
release build. `Logged.distributeCoupon` is the function with the factors of every such product
logged; without the log it is `distributeCoupon` (`Logged.distributeCoupon_result`).

A product is `Unwrapped` if it has its exact value. The products of rates and balances always are,
even for a rate that comes from a wrapped product (`RatesFit`); those of credits and `FIXED_POINT`,
which only a call that opens a period computes, are if the credits of the period leave room for the
factor (`Roomy`).
-/

namespace NbsBond
namespace CouponEngine

open Soroban Int128 OracleConsumer

/-! ### The logged function -/

/-- A computation that logs the factors of its plain multiplications. The log is written on failure
too, up to the point of failure. -/
abbrev Logged (α : Type) : Type := Traced (ℤ × ℤ) CouponEngineError α

/-- A plain `*`. Its value is the wrapped one, as in a release build; the log has the factors, so
that wrapping can be told from it afterwards. -/
def mul (x y : ℤ) : Logged ℤ := ⟨[(x, y)], .ok (wrap (x * y))⟩

namespace Logged

def perToken (credits totalSubscribed : ℤ) : Logged ℤ :=
  if 0 < totalSubscribed ∧ 0 < credits then do
    let product ← mul credits fixedPoint
    return product.tdiv totalSubscribed
  else return 0

def openBatch (deps : Deps) (bondId : BondId) (projectId : Bytes32) (creditType : CreditType)
    (reportId : ReportId) : Logged (BatchState × ℤ) := do
  let report ← .lift (orTrap (deps.getReport reportId))
  .lift (ensure (report.status = .verified) .reportNotVerified)
  .lift (ensure (report.projectMetadataHash = projectId) .bondNotFound)
  let totalSubscribed ← .lift (orTrap (deps.totalSubscribed bondId))
  let totals ← .lift (creditTotals creditType report)
  let totalCredits ← .lift (orError (checkedAdd totals.1 totals.2) .overflow)
  let creditsPerToken ← perToken totalCredits totalSubscribed
  let carbonPerToken ← perToken totals.1 totalSubscribed
  let biodiversityPerToken ← perToken totals.2 totalSubscribed
  return (⟨reportId, 0, 0, 0, 0, totalCredits, totals.1, totals.2, creditsPerToken,
    carbonPerToken, biodiversityPerToken⟩, totalSubscribed)

def startBatch (deps : Deps) (s : State) (bondId : BondId) (periodIndex : ℕ)
    (projectId : Bytes32) (creditType : CreditType) (reportId : ReportId) : Logged Progress :=
  match s.batchState (bondId, periodIndex) with
  | some batch => .lift (resumeBatch s bondId periodIndex reportId batch)
  | none => do
    let opened ← openBatch deps bondId projectId creditType reportId
    return ⟨opened.1, opened.2, 0⟩

def allocation (rate balance : ℤ) : Logged ℤ := do
  let product ← mul rate balance
  return product.tdiv fixedPoint

def holderCredits (creditType : CreditType) (batch : BatchState) (balance : ℤ) :
    Logged (ℤ × ℤ × ℤ) :=
  match creditType with
  | .carbon | .blueCarbon => do
    let credits ← allocation batch.creditsPerToken balance
    return (credits, credits, 0)
  | .biodiversity => do
    let credits ← allocation batch.creditsPerToken balance
    return (credits, 0, credits)
  | .basket => do
    let carbon ← allocation batch.carbonPerToken balance
    let biodiversity ← allocation batch.biodiversityPerToken balance
    let credits ← .lift (orError (checkedAdd carbon biodiversity) .overflow)
    return (credits, carbon, biodiversity)

def processHolder (bondId : BondId) (periodIndex : ℕ) (creditType : CreditType)
    (batch : BatchState) (totalSubscribed : ℤ) (l : LoopState) (entry : Address × ℤ) :
    Logged LoopState :=
  if l.storage.holderDistributed (bondId, periodIndex, entry.1) then return l
  else if 0 < entry.2 then do
    let processed ← .lift (orError (checkedAdd l.processedBalance entry.2) .overflow)
    .lift (ensure (processed ≤ totalSubscribed) .accountingMismatch)
    let credits ← holderCredits creditType batch entry.2
    -- crediting the accounts adds, with checks
    let l ← .lift (payHolder bondId entry.1 credits.1 credits.2.1 credits.2.2
      { l with processedBalance := processed })
    return { l with storage := markDistributed l.storage bondId periodIndex entry.1 }
  else return l

/-- What follows the loop multiplies nothing. -/
def distribute (deps : Deps) (s : State) (bondId : BondId) (periodIndex : ℕ)
    (holders : List (Address × ℤ)) (reportId : ReportId) (isFinalBatch : Bool) :
    Logged (State × CouponResult) := do
  .lift (ensure (∀ info ∈ s.periodInfo (bondId, periodIndex), info.distributed = false)
    .periodAlreadyDistributed)
  let projectId ← .lift (orError (s.bondProject bondId) .bondNotFound)
  let creditType ← .lift (orError (s.bondCreditType bondId) .bondNotFound)
  let p ← startBatch deps s bondId periodIndex projectId creditType reportId
  let l ← holders.foldlM
    (processHolder bondId periodIndex creditType p.batch p.totalSubscribed)
    ⟨saveProgress s bondId periodIndex p, p.processedBalance, 0, 0, 0, 0⟩
  .lift (closeBatch deps bondId periodIndex isFinalBatch p l)

def distributeCoupon (deps : Deps) (s : State) (caller : Address) (bondId : BondId)
    (periodIndex : ℕ) (holders : List (Address × ℤ)) (reportId : ReportId) (nonce : ℕ)
    (isFinalBatch : Bool) : Logged (State × CouponResult) := do
  let nonces ← .lift (useNonce s.nonce caller nonce .invalidNonce)
  .lift (requireAdmin s.admin caller .notInitialized .unauthorized)
  distribute deps { s with nonce := nonces } bondId periodIndex holders reportId isFinalBatch

/-! ### Forgetting the log -/

@[simp] theorem result_mul (x y : ℤ) : (mul x y).result = .ok (wrap (x * y)) := rfl

@[simp] theorem result_perToken (credits totalSubscribed : ℤ) :
    (perToken credits totalSubscribed).result =
      .ok (CouponEngine.perToken credits totalSubscribed) := by
  unfold perToken CouponEngine.perToken
  split
  · rfl
  · rfl

@[simp] theorem result_allocation (rate balance : ℤ) :
    (allocation rate balance).result = .ok (CouponEngine.allocation rate balance) := rfl

theorem result_openBatch (deps : Deps) (b : BondId) (projectId : Bytes32)
    (creditType : CreditType) (reportId : ReportId) :
    (openBatch deps b projectId creditType reportId).result =
      CouponEngine.openBatch deps b projectId creditType reportId := by
  simp only [openBatch, Traced.result_bind, Traced.result_lift, Traced.result_pure,
    result_perToken]
  rfl

theorem result_startBatch (deps : Deps) (s : State) (b : BondId) (p : ℕ) (projectId : Bytes32)
    (creditType : CreditType) (reportId : ReportId) :
    (startBatch deps s b p projectId creditType reportId).result =
      CouponEngine.startBatch deps s b p projectId creditType reportId := by
  unfold startBatch CouponEngine.startBatch
  cases s.batchState (b, p) with
  | some batch => rfl
  | none =>
    -- the checks before the rates only read
    simp only [Traced.result_bind, Traced.result_pure, result_openBatch]

theorem result_holderCredits (creditType : CreditType) (batch : BatchState) (balance : ℤ) :
    (holderCredits creditType batch balance).result =
      CouponEngine.holderCredits creditType batch balance := by
  cases creditType with
  | carbon => rfl
  | blueCarbon => rfl
  | biodiversity => rfl
  | basket =>
    unfold holderCredits CouponEngine.holderCredits
    simp only [Traced.result_bind, Traced.result_lift, Traced.result_pure, result_allocation]
    rfl

theorem result_processHolder (b : BondId) (p : ℕ) (creditType : CreditType) (batch : BatchState)
    (supply : ℤ) (l : LoopState) (entry : Address × ℤ) :
    (processHolder b p creditType batch supply l entry).result =
      CouponEngine.processHolder b p creditType batch supply l entry := by
  -- only a holder with a balance who has not been paid is worth a product
  unfold processHolder CouponEngine.processHolder
  split
  · rfl
  split
  · simp only [Traced.result_bind, Traced.result_lift, Traced.result_pure, result_holderCredits]
  · rfl

theorem result_distribute (deps : Deps) (s : State) (b : BondId) (p : ℕ)
    (holders : List (Address × ℤ)) (reportId : ReportId) (isFinalBatch : Bool) :
    (distribute deps s b p holders reportId isFinalBatch).result =
      CouponEngine.distribute deps s b p holders reportId isFinalBatch := by
  rw [distribute_eq]
  simp only [distribute, Traced.result_bind, Traced.result_lift, result_startBatch,
    Traced.result_foldlM (result_processHolder b p _ _ _)]

/-- **Without its log**, the function is `distribute_coupon`. The two definitions are the same text
in two monads, and every part is compared with its own counterpart. -/
theorem result_distributeCoupon (deps : Deps) (s : State) (caller : Address) (b : BondId) (p : ℕ)
    (holders : List (Address × ℤ)) (reportId : ReportId) (nonce : ℕ) (isFinalBatch : Bool) :
    (distributeCoupon deps s caller b p holders reportId nonce isFinalBatch).result =
      CouponEngine.distributeCoupon deps s caller b p holders reportId nonce isFinalBatch := by
  simp only [distributeCoupon, CouponEngine.distributeCoupon, Traced.result_bind,
    Traced.result_lift, result_distribute]

end Logged

/-! ### Unwrapped products -/

/-- The product of the factors did not wrap. In a debug build this is where the call would panic. -/
def Unwrapped (factors : ℤ × ℤ) : Prop := wrap (factors.1 * factors.2) = factors.1 * factors.2

instance : DecidablePred Unwrapped := fun factors =>
  inferInstanceAs (Decidable (wrap (factors.1 * factors.2) = factors.1 * factors.2))

theorem all_mul {x y : ℤ} : (mul x y).All Unwrapped ↔ InRange (x * y) := by
  simp [Traced.All, mul, Unwrapped, wrap_eq_self_iff]

theorem Logged.all_perToken {T S : ℤ} :
    (Logged.perToken T S).All Unwrapped ↔ (0 < S → 0 < T → InRange (T * fixedPoint)) := by
  unfold Logged.perToken
  split
  · next h =>
    -- the one product of the function, behind its guard
    rw [Traced.all_bind, all_mul]
    exact ⟨fun hall _ _ => hall.1, fun hfits => ⟨hfits h.1 h.2, fun _ _ => Traced.all_pure _⟩⟩
  · next h =>
    exact ⟨fun _ hS hT => absurd ⟨hS, hT⟩ h, fun _ => Traced.all_pure _⟩

theorem Logged.all_allocation {rate balance : ℤ} :
    (Logged.allocation rate balance).All Unwrapped ↔ InRange (rate * balance) := by
  unfold Logged.allocation
  rw [Traced.all_bind, all_mul]
  exact ⟨And.left, fun h => ⟨h, fun _ _ => Traced.all_pure _⟩⟩

/-! ### The loop -/

/-- The products of the rates of a period and a balance of at most `supply` fit an `i128`. Three
rates are stored, and a period uses the combined one or the two others, as its credit type is. -/
structure RatesFit (batch : BatchState) (supply : ℤ) : Prop where
  combined : InRange (batch.creditsPerToken * supply)
  carbon : InRange (batch.carbonPerToken * supply)
  biodiversity : InRange (batch.biodiversityPerToken * supply)

/-- A quotient rounded towards zero, multiplied back, is between zero and the dividend. For a
dividend in range, so is the product. -/
theorem inRange_tdiv_mul {x y : ℤ} (hx : InRange x) (hy : 0 < y) : InRange (x.tdiv y * y) := by
  rcases le_total 0 x with hnonneg | hneg
  · apply InRange.of_nonneg
    · exact mul_nonneg (Int.tdiv_nonneg hnonneg hy.le) hy.le
    · exact (tdiv_mul_le hnonneg hy).trans hx.2
  · -- the negative of a quotient of non-negative numbers
    have hpos : 0 ≤ -x := Int.neg_nonneg_of_nonpos hneg
    have hle := tdiv_mul_le hpos hy
    have hquotient : 0 ≤ (-x).tdiv y * y := mul_nonneg (Int.tdiv_nonneg hpos hy.le) hy.le
    rw [Int.neg_tdiv, neg_mul] at hle hquotient
    have hmin := hx.1
    constructor
    · omega
    · have hmax : (0 : ℤ) ≤ maxValue := by decide
      omega

/-- **A rate fits its supply**, whether or not its own product wrapped. This is the point: `wrap`
gives some number in range, and the quotient of that by the supply fits the supply again. The
per-holder products are safe even in a period whose rates are nonsense. -/
theorem inRange_perToken_mul (T S : ℤ) : InRange (perToken T S * S) := by
  unfold perToken
  split
  · next h => exact inRange_tdiv_mul (wrap_inRange _) h.1
  · rw [zero_mul]
    decide

theorem Opened.ratesFit {deps : Deps} {b : BondId} {projectId : Bytes32} {creditType : CreditType}
    {reportId : ReportId} {report : Report} {supply : ℤ} {batch : BatchState}
    (h : Opened deps b projectId creditType reportId report supply batch) :
    -- each rate is `perToken` of the same supply
    RatesFit batch supply := by
  rw [h.computed]
  exact ⟨inRange_perToken_mul _ _, inRange_perToken_mul _ _, inRange_perToken_mul _ _⟩

/-- A factor between zero and one that fits gives a product that fits. -/
theorem inRange_mul_of_le {rate balance supply : ℤ} (hfits : InRange (rate * supply))
    (hpos : 0 ≤ balance) (hle : balance ≤ supply) : InRange (rate * balance) := by
  obtain ⟨hmin, hmax⟩ := hfits
  -- the sign of the rate decides which end of the range the product comes near
  rcases le_total 0 rate with hrate | hrate
  · apply InRange.of_nonneg
    · exact mul_nonneg hrate hpos
    · exact (mul_le_mul_of_nonneg_left hle hrate).trans hmax
  · constructor
    · exact hmin.trans (mul_le_mul_of_nonpos_left hle hrate)
    · exact (mul_nonpos_of_nonpos_of_nonneg hrate hpos).trans (by decide)

variable {creditType : CreditType} {b : BondId} {p : ℕ} {batch : BatchState} {supply : ℤ}

theorem Logged.all_holderCredits {balance : ℤ} (hfits : RatesFit batch supply)
    (hpos : 0 ≤ balance) (hle : balance ≤ supply) :
    (Logged.holderCredits creditType batch balance).All Unwrapped := by
  have hcombined := all_allocation.mpr (inRange_mul_of_le hfits.combined hpos hle)
  -- the single-asset types have one product
  cases creditType with
  | carbon => exact Traced.all_bind.mpr ⟨hcombined, fun _ _ => Traced.all_pure _⟩
  | blueCarbon => exact Traced.all_bind.mpr ⟨hcombined, fun _ _ => Traced.all_pure _⟩
  | biodiversity => exact Traced.all_bind.mpr ⟨hcombined, fun _ _ => Traced.all_pure _⟩
  | basket =>
    -- two products, and a checked sum
    unfold Logged.holderCredits
    rw [Traced.all_bind]
    refine ⟨all_allocation.mpr (inRange_mul_of_le hfits.carbon hpos hle), ?_⟩
    intro carbon _
    rw [Traced.all_bind]
    refine ⟨all_allocation.mpr (inRange_mul_of_le hfits.biodiversity hpos hle), ?_⟩
    intro biodiversity _
    rw [Traced.all_lift_bind]
    intro credits _
    exact Traced.all_pure _

/-- **The loop body** multiplies exactly: the balance is checked against the snapshot first. -/
theorem Logged.all_processHolder {l : LoopState} {entry : Address × ℤ}
    (hfits : RatesFit batch supply) (hnonneg : 0 ≤ l.processedBalance) :
    (Logged.processHolder b p creditType batch supply l entry).All Unwrapped := by
  -- the body returns without a product for a holder who was paid
  unfold Logged.processHolder
  split
  · exact Traced.all_pure _
  split
  · next hpos =>
    rw [Traced.all_lift_bind]
    intro processed hprocessed
    rw [Traced.all_lift_bind]
    intro _ hwithin
    -- what has passed the two checks
    rw [orError_eq_ok, checkedAdd_eq_some] at hprocessed
    rw [ensure_eq_ok] at hwithin
    -- the balances so far are not negative, so this one is within the snapshot too
    rw [Traced.all_bind]
    refine ⟨all_holderCredits hfits hpos.le (by omega), ?_⟩
    intro credits _
    rw [Traced.all_lift_bind]
    intro l' _
    exact Traced.all_pure _
  · exact Traced.all_pure _

/-- **The loop** does too. -/
theorem Logged.all_foldlM {holders : List (Address × ℤ)} {l : LoopState}
    (hfits : RatesFit batch supply) (hnonneg : 0 ≤ l.processedBalance) :
    (holders.foldlM (Logged.processHolder b p creditType batch supply) l).All Unwrapped := by
  -- the invariant is that the balances so far are not negative
  -- the rates do not change in the loop
  refine Traced.all_foldlM (I := fun l : LoopState => 0 ≤ l.processedBalance) hnonneg ?_
  intro l entry _ hnonneg
  refine ⟨Logged.all_processHolder hfits hnonneg, ?_⟩
  intro l' hl'
  rw [Logged.result_processHolder] at hl'
  obtain ⟨rfl, -⟩ | hpaid := processHolder_ok hl'
  · exact hnonneg
  · rw [hpaid.processed]
    exact add_nonneg hnonneg hpaid.positive.le

/-! ### Stored rates -/

/-- The rates of every stored batch fit its snapshot. Stored rates come from a call that opened the
period, perhaps long ago; the invariant is what lets a later batch rely on them. -/
def Rated (s : State) : Prop :=
  ∀ b p batch supply processed, s.batchState (b, p) = some batch →
    s.distributionBalance (b, p) = some (supply, processed) → RatesFit batch supply

variable {s s' : State} {deps : Deps} {projectId : Bytes32} {reportId : ReportId}
  {progress : Progress} {holders : List (Address × ℤ)} {isFinalBatch : Bool}

theorem Rated.initial (admin : Address) : Rated (construct admin) := by
  intro b p batch supply processed h
  cases h

theorem Rated.congr (hR : Rated s) (hbatches : s'.batchState = s.batchState)
    (hbalances : s'.distributionBalance = s.distributionBalance) : Rated s' := by
  unfold Rated
  rw [hbatches, hbalances]
  exact hR

theorem SameBooks.rated (h : SameBooks s s') (hR : Rated s) : Rated s' := by
  unfold SameBooks at h
  rw [h]
  exact hR.congr rfl rfl

theorem Rated.save (hR : Rated s) (hfits : RatesFit progress.batch progress.totalSubscribed) :
    -- the period that is saved, or another one
    Rated (saveProgress s b p progress) := by
  intro b' p' batch supply processed hbatch hbalance
  unfold saveProgress at hbatch hbalance
  dsimp only at hbatch hbalance
  by_cases hkey : (b', p') = (b, p)
  · rw [hkey, Function.update_self] at hbatch hbalance
    cases hbatch
    cases hbalance
    exact hfits
  · rw [Function.update_of_ne hkey] at hbatch hbalance
    exact hR b' p' batch supply processed hbatch hbalance

/-- A batch starts from rates that fit: stored ones, or new ones. Which of the two it is depends on
whether the period was opened before. -/
theorem Rated.start (hR : Rated s)
    (h : startBatch deps s b p projectId creditType reportId = .ok progress) :
    RatesFit progress.batch progress.totalSubscribed := by
  obtain ⟨hbatch, -, hbalance⟩ | ⟨-, -, report, hO⟩ := startBatch_ok h
  · exact hR b p _ _ _ hbatch hbalance
  · exact hO.ratesFit

theorem finalise_rated (h : finalise deps s b p progress = .ok s') (hR : Rated s) : Rated s' := by
  simp only [finalise, bind_eq_ok, pure_eq_ok] at h
  obtain ⟨_, -, _, -, _, -, _, -, _, -, _, -, _, -, _, -, rfl⟩ := h
  intro b' p' batch supply processed hbatch hbalance
  dsimp only at hbatch hbalance
  by_cases hkey : (b', p') = (b, p)
  · -- a completed period keeps no batch
    rw [hkey, Function.update_self] at hbatch
    cases hbatch
  · rw [Function.update_of_ne hkey] at hbatch hbalance
    exact hR b' p' batch supply processed hbatch hbalance

/-- **A batch** keeps the rates of the period. -/
theorem distribute_rated {result : CouponResult} (hR : Rated s)
    (h : distribute deps s b p holders reportId isFinalBatch = .ok (s', result)) : Rated s' := by
  simp only [distribute, bind_eq_ok] at h
  obtain ⟨_, -, projectId, -, creditType, -, progress, hstart, l, hfold, batch, hacc, h⟩ := h
  have hfits := hR.start hstart
  -- the period is saved, the loop runs, and the period is saved again
  have hloop : Rated l.storage := (sameBooks_of_fold hfold).rated (hR.save hfits)
  have hadvanced : RatesFit batch progress.totalSubscribed := by
    rw [accumulate_ok hacc]
    exact ⟨hfits.combined, hfits.carbon, hfits.biodiversity⟩
  have hsaved : Rated (saveProgress l.storage b p (progress.advance batch l)) :=
    hloop.save hadvanced
  -- only a final batch has more to do
  cases isFinalBatch with
  | false =>
    rw [if_neg Bool.false_ne_true, pure_eq_ok, Prod.mk.injEq] at h
    exact h.1 ▸ hsaved
  | true =>
    rw [if_pos rfl, bind_eq_ok] at h
    obtain ⟨s₂, hfinal, h⟩ := h
    rw [pure_eq_ok, Prod.mk.injEq] at h
    exact h.1 ▸ finalise_rated hfinal hsaved

/-- **One call** keeps the stored rates fitting. -/
theorem Rated.step {op : Op} {r : Ret} (hR : Rated s) (h : exec deps s op = .ok (s', r)) :
    Rated s' := by
  -- registering a bond opens no period
  cases exec_tables h with
  | register hcall =>
    simp only [registerBond, bind_eq_ok, pure_eq_ok] at hcall
    obtain ⟨_, -, _, -, _, -, _, -, _, -, _, -, rfl⟩ := hcall
    exact hR.congr rfl rfl
  -- the nonce is spent first, and is no part of the tables
  | @distribute _ _ _ _ _ _ _ nonces _ hcall =>
    have hnonces : Rated { s with nonce := nonces } := hR.congr rfl rfl
    exact distribute_rated hnonces hcall
  | frame _ hsame => exact hR.congr hsame.periods.batches hsame.balances

/-! ### The call -/

/-- Opening a period multiplies exactly if its credits leave room for the factor. -/
theorem Logged.all_rates {t : Credits} (hnonneg : 0 ≤ t) :
    ((Logged.perToken t.total supply).All Unwrapped ∧ (Logged.perToken t.1 supply).All Unwrapped ∧
      (Logged.perToken t.2 supply).All Unwrapped) ↔
    (0 < supply → t.total * fixedPoint ≤ maxValue) := by
  have hcarbon : 0 ≤ t.1 := hnonneg.1
  have hbio : 0 ≤ t.2 := hnonneg.2
  have htotal : t.total = t.1 + t.2 := rfl
  have hmax : (0 : ℤ) ≤ maxValue := by decide
  have hfactor : (0 : ℤ) ≤ fixedPoint := by decide
  -- the product with the combined credits bounds the other two
  rw [all_perToken, all_perToken, all_perToken]
  constructor
  · rintro ⟨hall, -, -⟩ hsupply
    by_cases hpos : 0 < t.total
    · exact (hall hsupply hpos).2
    · have hzero : t.total = 0 := by omega
      rw [hzero, zero_mul]
      exact hmax
  · -- each type has at most the credits of both
    intro hfits
    have hle : ∀ x : ℤ, 0 ≤ x → x ≤ t.total → 0 < supply → 0 < x → InRange (x * fixedPoint) := by
      intro x hx hxt hsupply _
      apply InRange.of_nonneg (mul_nonneg hx hfactor)
      exact (mul_le_mul_of_nonneg_right hxt hfactor).trans (hfits hsupply)
    exact ⟨hle _ (by omega) le_rfl, hle _ hcarbon (by omega), hle _ hbio (by omega)⟩

/-- A period is opened on `report`: it draws the credits `t`, on `supply` tokens. Every field is a
check of `open_batch`, in its order. -/
structure Measures (deps : Deps) (b : BondId) (projectId : Bytes32) (creditType : CreditType)
    (reportId : ReportId) (report : Report) (t : Credits) (supply : ℤ) : Prop where
  found : deps.getReport reportId = some report
  verified : report.status = .verified
  project : report.projectMetadataHash = projectId
  subscribed : deps.totalSubscribed b = some supply
  credits : creditTotals creditType report = .ok t
  inRange : InRange t.total

/-- A call of `distribute_coupon` gets past its checks and opens a period, of the credits `t` on
`supply` tokens. These are the calls that compute a rate; all others either fail before it or read a
stored one. -/
structure Opens (deps : Deps) (s : State) (caller : Address) (b : BondId) (p : ℕ)
    (reportId : ReportId) (nonce : ℕ) (t : Credits) (supply : ℤ) : Prop where
  nonce : nonce = s.nonce caller
  admin : s.admin = some caller
  unfinished : ∀ info ∈ s.periodInfo (b, p), info.distributed = false
  unstarted : s.batchState (b, p) = none
  measures : ∃ projectId creditType report, s.bondProject b = some projectId ∧
    s.bondCreditType b = some creditType ∧
    Measures deps b projectId creditType reportId report t supply

/-- The credits of a period the call opens leave room for the factor of the rates. For a bond nobody
subscribed to there is no rate, and nothing to require. -/
def Roomy (deps : Deps) (s : State) (caller : Address) (b : BondId) (p : ℕ)
    (reportId : ReportId) (nonce : ℕ) : Prop :=
  ∀ t supply, Opens deps s caller b p reportId nonce t supply →
    0 < supply → t.total * fixedPoint ≤ maxValue

theorem Logged.all_openBatch
    (hworth : ∀ report, deps.getReport reportId = some report → 0 ≤ worth report) :
    (Logged.openBatch deps b projectId creditType reportId).All Unwrapped ↔
      ∀ report t supply, Measures deps b projectId creditType reportId report t supply →
        0 < supply → t.total * fixedPoint ≤ maxValue := by
  unfold Logged.openBatch
  simp only [Traced.all_bind, Traced.all_lift, Traced.result_lift, true_and, ensure_eq_ok,
    orTrap_eq_ok, orError_eq_ok, checkedAdd_eq_some]
  constructor
  · -- the three products are reached by exactly the calls that measure the report
    intro h report t supply hM
    obtain ⟨htotal, hrest⟩ := h report hM.found () hM.verified () hM.project supply hM.subscribed t
      hM.credits t.total ⟨hM.inRange, rfl⟩
    -- the rates come one after another, each from a call that succeeded
    obtain ⟨hcarbon, hrest⟩ := hrest _ (Logged.result_perToken _ _)
    have hbio := (hrest _ (Logged.result_perToken _ _)).1
    exact (all_rates (creditTotals_nonneg (hworth _ hM.found) hM.credits)).mp
      ⟨htotal, hcarbon, hbio⟩
  · rintro h report hfound - hverified - hproject supply hsubscribed t hcredits total
      ⟨hrange, rfl⟩
    have hnonneg := creditTotals_nonneg (hworth _ hfound) hcredits
    obtain ⟨htotal, hcarbon, hbio⟩ := (@all_rates supply t hnonneg).mpr
      (h report t supply ⟨hfound, hverified, hproject, hsubscribed, hcredits, hrange⟩)
    exact ⟨htotal, fun _ _ => ⟨hcarbon, fun _ _ => ⟨hbio, fun _ _ => Traced.all_pure _⟩⟩⟩

/-- Only a period that is opened is a risk. A batch that finds stored rates computes none. -/
theorem Logged.all_startBatch
    (hworth : ∀ report, deps.getReport reportId = some report → 0 ≤ worth report) :
    (Logged.startBatch deps s b p projectId creditType reportId).All Unwrapped ↔
      (s.batchState (b, p) = none →
        ∀ report t supply, Measures deps b projectId creditType reportId report t supply →
          0 < supply → t.total * fixedPoint ≤ maxValue) := by
  unfold Logged.startBatch
  cases s.batchState (b, p) with
  | some batch => simp [Traced.all_lift]
  | none =>
    rw [Traced.all_bind, all_openBatch hworth]
    simp [Traced.all_pure]

/-- The rates of a period it opens are all that a batch may fail to multiply exactly. -/
theorem Logged.all_distribute (hU : Underway s) (hR : Rated s)
    (hsupply : ∀ supply, deps.totalSubscribed b = some supply → 0 ≤ supply ∧ supply ≤ maxValue) :
    (Logged.distribute deps s b p holders reportId isFinalBatch).All Unwrapped ↔
      ((∀ info ∈ s.periodInfo (b, p), info.distributed = false) →
        ∀ projectId, s.bondProject b = some projectId →
          ∀ creditType, s.bondCreditType b = some creditType →
            (Logged.startBatch deps s b p projectId creditType reportId).All Unwrapped) := by
  unfold Logged.distribute
  simp only [Traced.all_bind, Traced.all_lift, Traced.result_lift, true_and, ensure_eq_ok,
    orError_eq_ok]
  constructor
  · intro h hopen projectId hproject creditType htype
    exact (h () hopen projectId hproject creditType htype).1
  · intro h _ hopen projectId hproject creditType htype
    refine ⟨h hopen projectId hproject creditType htype, ?_⟩
    intro progress hstart
    rw [Logged.result_startBatch] at hstart
    have hfits := hR.start hstart
    -- the loop starts from the stored balance, which is not negative
    have hsound := hU.start hsupply hstart
    exact ⟨Logged.all_foldlM hfits hsound.processed.1, fun l _ => trivial⟩

/-- **A call** multiplies exactly, unless it opens a period without room for the factor. The
condition is one on the state and the arguments; it names neither the products nor the result. -/
theorem Logged.all_distributeCoupon (hU : Underway s) (hR : Rated s)
    (hworth : ∀ report, deps.getReport reportId = some report → 0 ≤ worth report)
    (hsupply : ∀ supply, deps.totalSubscribed b = some supply → 0 ≤ supply ∧ supply ≤ maxValue)
    {caller : Address} {nonce : ℕ} :
    (Logged.distributeCoupon deps s caller b p holders reportId nonce isFinalBatch).All Unwrapped ↔
      Roomy deps s caller b p reportId nonce := by
  have hnonces : ∀ nonces, Underway { s with nonce := nonces } ∧
      Rated { s with nonce := nonces } := by
    intro nonces
    have hsame : SameTables s { s with nonce := nonces } := rfl
    exact ⟨hsame.underway hU, hR.congr rfl rfl⟩
  unfold Logged.distributeCoupon
  simp only [Traced.all_bind, Traced.all_lift, Traced.result_lift, true_and, useNonce_eq_ok,
    requireAdmin_eq_ok, all_distribute (hnonces _).1 (hnonces _).2 hsupply, all_startBatch hworth]
  constructor
  · rintro h t supply hO
    obtain ⟨projectId, creditType, report, hproject, htype, hM⟩ := hO.measures
    exact h _ ⟨hO.nonce, rfl⟩ () hO.admin hO.unfinished projectId hproject creditType htype
      hO.unstarted report t supply hM
  · -- the nonce is no part of what the tables say, so the checks after it read the same state
    rintro h nonces ⟨hnonce, -⟩ - hadmin hopen projectId hproject creditType htype hnone report t
      supply hM
    exact h t supply ⟨hnonce, hadmin, hopen, hnone, projectId, creditType, report, hproject, htype,
      hM⟩

end CouponEngine
end NbsBond
