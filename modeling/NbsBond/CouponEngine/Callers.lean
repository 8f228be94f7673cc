import NbsBond.CreditRetirement.Model
import NbsBond.Shared.Nonces

/-!
# The callers of `CouponEngine` and `CreditRetirement`

`deduct_credits` is the one entrypoint of `CouponEngine` without a nonce. `CreditRetirement` calls
it, and compares the nonce of the holder with one that it keeps itself.

A distribution and a sweep only add to the credits of holders (`Accrues`). What takes credits away
is `claim_credits`, of the caller, and `deduct_credits`, of the holder it names
(`exec_idle`).
-/

namespace NbsBond
namespace CouponEngine

open Soroban

/-- The caller of an entrypoint and the nonce it presents. -/
def Op.ticket : Op → Option (Address × ℕ)
  | .registerBond caller _ _ nonce => some (caller, nonce)
  | .distributeCoupon caller _ _ _ _ nonce _ => some (caller, nonce)
  | .claimCredits caller _ nonce => some (caller, nonce)
  | .sweepUndistributed caller _ _ nonce => some (caller, nonce)
  | .registerDeductCaller caller _ nonce => some (caller, nonce)
  | .deductCredits _ _ _ _ _ => none

/-! ### What only adds credits -/

/-- No balance gets smaller; the nonces and the address that may deduct stay. What a distribution
and a sweep have in common, whatever they do to the periods and the batches. -/
structure Accrues (s s' : State) : Prop where
  nonce : s'.nonce = s.nonce
  deductCaller : s'.deductCaller = s.deductCaller
  combined : ∀ k, s.accruedCredits k ≤ s'.accruedCredits k
  byType : ∀ k, s.accruedCreditsByType k ≤ s'.accruedCreditsByType k

theorem Accrues.refl (s : State) : Accrues s s :=
  ⟨rfl, rfl, fun _ => le_rfl, fun _ => le_rfl⟩

theorem Accrues.trans {s₁ s₂ s₃ : State} (h : Accrues s₁ s₂) (h' : Accrues s₂ s₃) :
    Accrues s₁ s₃ where
  nonce := h'.nonce.trans h.nonce
  deductCaller := h'.deductCaller.trans h.deductCaller
  combined k := (h.combined k).trans (h'.combined k)
  byType k := (h.byType k).trans (h'.byType k)

section Accrues

variable {s s' : State} {l l' : LoopState} {bondId : BondId} {holder : Address}

theorem accrueCredits_accrues {creditType : CreditType} {amount : ℤ} (hpos : 0 < amount)
    (h : accrueCredits s bondId holder creditType amount = .ok s') : Accrues s s' := by
  simp only [accrueCredits, bind_eq_ok, orError_eq_ok, Int128.checkedAdd_eq_some, pure_eq_ok] at h
  obtain ⟨_, ⟨-, rfl⟩, _, ⟨-, rfl⟩, rfl⟩ := h
  refine ⟨rfl, rfl, fun k => ?_, fun k => ?_⟩
  · simp only [Function.update_apply]
    -- the entry that is written goes up, and every other one stays
    split
    · next hk =>
      rw [hk]
      omega
    · exact le_rfl
  · simp only [Function.update_apply]
    split
    · next hk =>
      rw [hk]
      omega
    · exact le_rfl

theorem creditCarbon_accrues {amount : ℤ} (h : creditCarbon bondId holder amount l = .ok l') :
    Accrues l.storage l'.storage := by
  unfold creditCarbon at h
  split at h
  · next hpos =>
    simp only [bind_eq_ok, pure_eq_ok] at h
    obtain ⟨_, -, s, haccrue, rfl⟩ := h
    exact accrueCredits_accrues hpos haccrue
  · cases h
    exact .refl _

theorem creditBiodiversity_accrues {amount : ℤ}
    (h : creditBiodiversity bondId holder amount l = .ok l') : Accrues l.storage l'.storage := by
  unfold creditBiodiversity at h
  split at h
  · next hpos =>
    simp only [bind_eq_ok, pure_eq_ok] at h
    obtain ⟨_, -, s, haccrue, rfl⟩ := h
    exact accrueCredits_accrues hpos haccrue
  · cases h
    exact .refl _

theorem payHolder_accrues {credits carbon biodiversity : ℤ}
    (h : payHolder bondId holder credits carbon biodiversity l = .ok l') :
    Accrues l.storage l'.storage := by
  unfold payHolder at h
  split at h
  · simp only [bind_eq_ok, pure_eq_ok] at h
    obtain ⟨_, -, l₁, hcarbon, l₂, hbiodiversity, rfl⟩ := h
    have hfirst := creditCarbon_accrues hcarbon
    have hsecond := creditBiodiversity_accrues hbiodiversity
    -- first the carbon share, then the other one
    exact hfirst.trans ⟨hsecond.nonce, hsecond.deductCaller, hsecond.combined, hsecond.byType⟩
  · cases h
    exact .refl _

theorem processHolder_accrues {periodIndex : ℕ} {creditType : CreditType} {batch : BatchState}
    {totalSubscribed : ℤ} {entry : Address × ℤ}
    (h : processHolder bondId periodIndex creditType batch totalSubscribed l entry = .ok l') :
    Accrues l.storage l'.storage := by
  unfold processHolder at h
  -- an entry without a positive balance, or one that has been paid, is passed over
  split at h
  · cases h
    exact .refl _
  · split at h
    · simp only [bind_eq_ok, pure_eq_ok] at h
      obtain ⟨_, -, _, -, ⟨_, _, _⟩, -, l₁, hpay, rfl⟩ := h
      have hpaid := payHolder_accrues hpay
      exact ⟨hpaid.nonce, hpaid.deductCaller, hpaid.combined, hpaid.byType⟩
    · cases h
      exact .refl _

theorem finalise_accrues {deps : Deps} {periodIndex : ℕ} {p : Progress}
    (h : finalise deps s bondId periodIndex p = .ok s') : Accrues s s' := by
  -- the closing of a period writes what is recorded of it, and no balance
  simp only [finalise, bind_eq_ok, pure_eq_ok] at h
  obtain ⟨_, -, _, -, _, -, _, -, _, -, _, -, _, -, _, -, rfl⟩ := h
  exact ⟨rfl, rfl, fun _ => le_rfl, fun _ => le_rfl⟩

/-- A distribution only adds. -/
theorem distribute_accrues {deps : Deps} {periodIndex : ℕ} {holders : List (Address × ℤ)}
    {reportId : ReportId} {isFinalBatch : Bool} {result : CouponResult}
    (h : distribute deps s bondId periodIndex holders reportId isFinalBatch = .ok (s', result)) :
    Accrues s s' := by
  simp only [distribute, bind_eq_ok] at h
  obtain ⟨_, -, _, -, _, -, p, -, l, hloop, batch, -, h⟩ := h
  -- one holder after another
  have hround : Accrues s l.storage := by
    refine foldlM_invariant (P := fun l => Accrues s l.storage) hloop ?_ ?_
    · exact ⟨rfl, rfl, fun _ => le_rfl, fun _ => le_rfl⟩
    · intro l l' _ _ hl hprocess
      exact hl.trans (processHolder_accrues hprocess)
  split at h
  · simp only [bind_eq_ok, pure_eq_ok, Prod.mk.injEq] at h
    obtain ⟨_, hfinalise, rfl, -⟩ := h
    have hclosed := finalise_accrues hfinalise
    exact hround.trans ⟨hclosed.nonce, hclosed.deductCaller, hclosed.combined, hclosed.byType⟩
  · simp only [pure_eq_ok, Prod.mk.injEq] at h
    obtain ⟨rfl, -⟩ := h
    exact hround.trans ⟨rfl, rfl, fun _ => le_rfl, fun _ => le_rfl⟩

theorem accruePositive_accrues {creditType : CreditType} {amount : ℤ}
    (h : accruePositive s bondId holder creditType amount = .ok s') : Accrues s s' := by
  unfold accruePositive at h
  split at h
  · next hpos => exact accrueCredits_accrues hpos h
  · cases h
    exact .refl _

end Accrues

/-! ### Claims and deductions -/

section Taken

variable {s s' : State} {bondId : BondId} {holder : Address}

/-- The credits of the other addresses stay. A claim clears the caller's balances and a deduction
lowers the holder's, so each spares the rest. -/
structure Spares (holder : Address) (s s' : State) : Prop where
  nonce : s'.nonce = s.nonce
  deductCaller : s'.deductCaller = s.deductCaller
  combined : ∀ b a, a ≠ holder → s'.accruedCredits (b, a) = s.accruedCredits (b, a)
  byType : ∀ b a t, a ≠ holder →
    s'.accruedCreditsByType (b, a, t) = s.accruedCreditsByType (b, a, t)

theorem clearAccrued_spares (s : State) (bondId : BondId) (holder : Address)
    (creditType : CreditType) : Spares holder s (clearAccrued s bondId holder creditType) := by
  refine ⟨rfl, rfl, fun _ _ _ => rfl, fun b a t ha => ?_⟩
  exact Function.update_of_ne (by simp [ha]) _ _

theorem claimByType_spares {accrued : ℤ} {creditType : Option CreditType} {receipt : ClaimReceipt}
    (h : claimByType s bondId holder accrued creditType = .ok (s', receipt)) :
    Spares holder s s' := by
  -- the bond says which of the two balances is claimed
  unfold claimByType at h
  split at h
  · simp only [bind_eq_ok, pure_eq_ok, Prod.mk.injEq] at h
    obtain ⟨_, -, rfl, -⟩ := h
    exact clearAccrued_spares s bondId holder .carbon
  · simp only [bind_eq_ok, pure_eq_ok, Prod.mk.injEq] at h
    obtain ⟨_, -, rfl, -⟩ := h
    exact clearAccrued_spares s bondId holder .carbon
  · simp only [bind_eq_ok, pure_eq_ok, Prod.mk.injEq] at h
    obtain ⟨_, -, rfl, -⟩ := h
    exact clearAccrued_spares s bondId holder .biodiversity
  · simp only [bind_eq_ok, pure_eq_ok, Prod.mk.injEq] at h
    obtain ⟨_, -, _, -, rfl, -⟩ := h
    -- a basket bond clears both buckets
    have hcarbon := clearAccrued_spares s bondId holder .carbon
    have hbio := clearAccrued_spares (clearAccrued s bondId holder .carbon) bondId holder
      .biodiversity
    exact ⟨rfl, rfl, fun _ _ _ => rfl, fun b a t ha => (hbio.byType b a t ha).trans
      (hcarbon.byType b a t ha)⟩
  · cases h

theorem deductCredits_spares {signers : List Address} {amount balance : ℤ}
    {creditType : CreditType}
    (h : deductCredits s signers bondId holder amount creditType = .ok (s', balance)) :
    Spares holder s s' := by
  simp only [deductCredits, bind_eq_ok, pure_eq_ok, Prod.mk.injEq] at h
  obtain ⟨_, -, _, -, _, -, _, -, _, -, rfl, -⟩ := h
  exact ⟨rfl, rfl, fun b a ha => Function.update_of_ne (by simp [ha]) _ _,
    fun b a t ha => Function.update_of_ne (by simp [ha]) _ _⟩

end Taken

/-! ### Every entrypoint -/

/-- **An entrypoint uses up one nonce of its caller**, if it has one at all. It is spent first,
whatever the call goes on to do. -/
theorem exec_uses {deps : Deps} {s s' : State} {op : Op} {r : Ret}
    (h : exec deps s op = .ok (s', r)) : Uses s.nonce op.ticket s'.nonce := by
  cases op with
  | registerBond caller bondId projectId nonce =>
    simp only [exec, registerBond, bind_eq_ok, useNonce_eq_ok, pure_eq_ok, Prod.mk.injEq] at h
    obtain ⟨_, ⟨_, ⟨rfl, rfl⟩, _, -, _, -, _, -, _, -, _, -, rfl⟩, rfl, -⟩ := h
    exact .one caller
  | distributeCoupon caller bondId periodIndex holders reportId nonce isFinalBatch =>
    simp only [exec, distributeCoupon, bind_eq_ok, useNonce_eq_ok, pure_eq_ok,
      Prod.mk.injEq] at h
    obtain ⟨⟨_, _⟩, ⟨_, ⟨rfl, rfl⟩, _, -, h⟩, rfl, -⟩ := h
    -- behind the nonce nothing of a distribution touches it
    rw [(distribute_accrues h).nonce]
    exact .one caller
  | claimCredits caller bondId nonce =>
    simp only [exec, claimCredits, bind_eq_ok, useNonce_eq_ok, pure_eq_ok, Prod.mk.injEq] at h
    obtain ⟨⟨_, _⟩, ⟨_, ⟨rfl, rfl⟩, h⟩, rfl, -⟩ := h
    split at h
    · simp only [bind_eq_ok, pure_eq_ok, Prod.mk.injEq] at h
      -- with nothing accrued the call ends after the nonce
      obtain ⟨⟨s₁, _⟩, hclaim, rfl, -⟩ := h
      show Uses s.nonce _ s₁.nonce
      rw [(claimByType_spares hclaim).nonce]
      exact .one caller
    · cases h
      exact .one caller
  | sweepUndistributed caller bondId destination nonce =>
    simp only [exec, sweepUndistributed, bind_eq_ok, useNonce_eq_ok, pure_eq_ok,
      Prod.mk.injEq] at h
    obtain ⟨⟨_, _⟩, ⟨_, ⟨rfl, rfl⟩, _, -, _, -, _, -, h⟩, rfl, -⟩ := h
    split at h
    · cases h
      exact .one caller
    · simp only [bind_eq_ok, pure_eq_ok, Prod.mk.injEq] at h
      obtain ⟨s₁, hcarbon, s₂, hbiodiversity, rfl, -⟩ := h
      rw [(accruePositive_accrues hbiodiversity).nonce, (accruePositive_accrues hcarbon).nonce]
      exact .one caller
  | registerDeductCaller caller deductCaller nonce =>
    simp only [exec, registerDeductCaller, bind_eq_ok, useNonce_eq_ok, pure_eq_ok,
      Prod.mk.injEq] at h
    obtain ⟨_, ⟨_, ⟨rfl, rfl⟩, _, -, rfl⟩, rfl, -⟩ := h
    exact .one caller
  | deductCredits signers bondId holder amount creditType =>
    simp only [exec, bind_eq_ok, pure_eq_ok, Prod.mk.injEq] at h
    obtain ⟨⟨_, _⟩, h, rfl, -⟩ := h
    -- no nonce here: what is compared is the address of the calling contract
    rw [(deductCredits_spares h).nonce]
    exact .none

/-- A call takes credits of `a`: a claim of its own, or a deduction in its name. -/
def Op.TakesFrom (a : Address) : Op → Prop
  | .claimCredits caller _ _ => caller = a
  | .deductCredits _ _ holder _ _ => holder = a
  | _ => False

instance (a : Address) : DecidablePred (Op.TakesFrom a)
  | .claimCredits caller _ _ => inferInstanceAs (Decidable (caller = a))
  | .deductCredits _ _ holder _ _ => inferInstanceAs (Decidable (holder = a))
  | .registerBond .. | .distributeCoupon .. | .sweepUndistributed .. | .registerDeductCaller .. =>
    inferInstanceAs (Decidable False)

/-- **No other call makes the credits of an address fewer.** A distribution, a sweep and the claims
of others are among them. -/
theorem exec_idle {deps : Deps} {s s' : State} {op : Op} {r : Ret} {a : Address}
    (h : exec deps s op = .ok (s', r)) (hidle : ¬ op.TakesFrom a) :
    (∀ b, s.accruedCredits (b, a) ≤ s'.accruedCredits (b, a)) ∧
      ∀ b t, s.accruedCreditsByType (b, a, t) ≤ s'.accruedCreditsByType (b, a, t) := by
  cases op with
  | registerBond caller bondId projectId nonce =>
    simp only [exec, registerBond, bind_eq_ok, pure_eq_ok, Prod.mk.injEq] at h
    obtain ⟨_, ⟨_, -, _, -, _, -, _, -, _, -, _, -, rfl⟩, rfl, -⟩ := h
    exact ⟨fun _ => le_rfl, fun _ _ => le_rfl⟩
  | distributeCoupon caller bondId periodIndex holders reportId nonce isFinalBatch =>
    simp only [exec, distributeCoupon, bind_eq_ok, pure_eq_ok, Prod.mk.injEq] at h
    obtain ⟨⟨_, _⟩, ⟨_, -, _, -, h⟩, rfl, -⟩ := h
    -- whoever is listed gains, and `a` may be among them
    have hadds := distribute_accrues h
    exact ⟨fun b => hadds.combined (b, a), fun b t => hadds.byType (b, a, t)⟩
  | claimCredits caller bondId nonce =>
    have hother : a ≠ caller := fun heq => hidle heq.symm
    simp only [exec, claimCredits, bind_eq_ok, pure_eq_ok, Prod.mk.injEq] at h
    obtain ⟨⟨_, _⟩, ⟨_, -, h⟩, rfl, -⟩ := h
    split at h
    · simp only [bind_eq_ok, pure_eq_ok, Prod.mk.injEq] at h
      obtain ⟨⟨s₁, _⟩, hclaim, rfl, -⟩ := h
      -- the claim is of the caller's own credits
      have hspares := claimByType_spares hclaim
      refine ⟨fun b => ?_, fun b t => (hspares.byType b a t hother).ge⟩
      have hkept : Function.update s₁.accruedCredits (bondId, caller) 0 (b, a) =
          s₁.accruedCredits (b, a) := Function.update_of_ne (by simp [hother]) _ _
      exact ((hspares.combined b a hother).symm.trans hkept.symm).le
    · cases h
      exact ⟨fun _ => le_rfl, fun _ _ => le_rfl⟩
  | sweepUndistributed caller bondId destination nonce =>
    simp only [exec, sweepUndistributed, bind_eq_ok, pure_eq_ok, Prod.mk.injEq] at h
    obtain ⟨⟨_, _⟩, ⟨_, -, _, -, _, -, _, -, h⟩, rfl, -⟩ := h
    split at h
    · cases h
      exact ⟨fun _ => le_rfl, fun _ _ => le_rfl⟩
    · simp only [bind_eq_ok, pure_eq_ok, Prod.mk.injEq] at h
      obtain ⟨s₁, hcarbon, s₂, hbiodiversity, rfl, -⟩ := h
      have hadds := (accruePositive_accrues hcarbon).trans (accruePositive_accrues hbiodiversity)
      exact ⟨fun b => hadds.combined (b, a), fun b t => hadds.byType (b, a, t)⟩
  | registerDeductCaller caller deductCaller nonce =>
    simp only [exec, registerDeductCaller, bind_eq_ok, pure_eq_ok, Prod.mk.injEq] at h
    obtain ⟨_, ⟨_, -, _, -, rfl⟩, rfl, -⟩ := h
    exact ⟨fun _ => le_rfl, fun _ _ => le_rfl⟩
  | deductCredits signers bondId holder amount creditType =>
    have hother : a ≠ holder := fun heq => hidle heq.symm
    simp only [exec, bind_eq_ok, pure_eq_ok, Prod.mk.injEq] at h
    obtain ⟨⟨_, _⟩, h, rfl, -⟩ := h
    have hspares := deductCredits_spares h
    exact ⟨fun b => (hspares.combined b a hother).ge, fun b t => (hspares.byType b a t hother).ge⟩

end CouponEngine

namespace CreditRetirement

open Soroban

/-- The holder of a retirement and the nonce it presents. -/
def Op.ticket : Op → Option (Address × ℕ)
  | .retireCredits _ holder _ _ _ _ _ _ nonce => some (holder, nonce)
  | .extendRetirementTtl _ | .totalRetirements => none

-- a counter of the old layout is copied on the way, and no nonce with it
theorem getRetirementCount_nonce (s : State) : (getRetirementCount s).1.nonce = s.nonce := by
  unfold getRetirementCount
  split <;> rfl

theorem recordRetirement_nonce {now : ℕ} {s s' : State} {holder : Address} {bondId : BondId}
    {projectId : Bytes32} {period : CouponEngine.PeriodInfo} {periodIndex : ℕ} {amount : ℤ}
    {creditType : CreditType} {certificateHash : Bytes32} {id : ℕ}
    (h : recordRetirement now s holder bondId projectId period periodIndex amount creditType
      certificateHash = .ok (s', id)) : s'.nonce = s.nonce := by
  simp only [recordRetirement, bind_eq_ok, pure_eq_ok, Prod.mk.injEq] at h
  obtain ⟨_, -, rfl, -⟩ := h
  exact getRetirementCount_nonce _

/-- **A retirement uses up one nonce of its holder**; no other entrypoint has one. The deduction
inside it has none, so the engine's nonces stay. -/
theorem exec_uses {now : ℕ} {self : Address} {issuer : BondIssuer.State}
    {engine engine' : CouponEngine.State} {s s' : State} {op : Op} {r : ℕ}
    (h : exec now self issuer engine s op = .ok ((s', engine'), r)) :
    Uses s.nonce op.ticket s'.nonce ∧ engine'.nonce = engine.nonce := by
  cases op with
  | retireCredits signers holder bondId projectId periodIndex amount creditType certificateHash
      nonce =>
    simp only [exec, retireCredits, bind_eq_ok, useNonce_eq_ok, pure_eq_ok, Prod.mk.injEq] at h
    obtain ⟨_, ⟨rfl, rfl⟩, _, -, _, -, _, -, _, -, _, -, _, -, _, -, _, -, _, -, ⟨engine₁, balance⟩,
      -- the engine answers in the same call, with the contract as a further signer
      hdeduct, ⟨_, _⟩, hrecord, ⟨rfl, rfl⟩, -⟩ := h
    have hengine : CouponEngine.deductCredits engine (self :: signers) bondId holder amount
        creditType = .ok (engine₁, balance) := by
      simpa using hdeduct
    rw [recordRetirement_nonce hrecord]
    exact ⟨.one holder, (CouponEngine.deductCredits_spares hengine).nonce⟩
  | extendRetirementTtl retirementId =>
    simp only [exec, extendRetirementTtl, bind_eq_ok, pure_eq_ok, Prod.mk.injEq] at h
    obtain ⟨_, ⟨_, -, _, -, _, -, rfl⟩, ⟨rfl, rfl⟩, -⟩ := h
    refine ⟨?_, rfl⟩
    split
    · exact .none
    · exact .none
  | totalRetirements =>
    simp only [exec] at h
    cases h
    rw [getRetirementCount_nonce]
    exact ⟨.none, rfl⟩

end CreditRetirement
end NbsBond
