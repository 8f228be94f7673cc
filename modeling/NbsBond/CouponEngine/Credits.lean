import NbsBond.CouponEngine.Periods

/-!
# Where credits go

`exec_credits` says what a committed call does to the accounts: a batch pays holders and adds to the
running figures of its period, the last batch turns what is left into dust, a sweep turns dust into
an account, a claim and a deduction take credits off an account. `Solvent` is the invariant that
makes this precise: the accounts are in order, and every open period is a `Batch`.

`P` tells the credit types for which the products of the rates fit an `i128`. The accounts stay in
order if it holds of Basket alone, because the other types have one bucket.
-/

namespace NbsBond
namespace CouponEngine

open Soroban Int128 OracleConsumer

variable {P : CreditType → Prop} {deps : Deps} {s s' : State}

/-- What holders and dust of a bond hold. -/
noncomputable def stock (s : State) (b : BondId) : Credits := ∑ᶠ a, purse s b a + dust s b

/-- What the batches of an open period have paid. -/
def running (s : State) (b : BondId) (p : ℕ) : Credits :=
  match s.batchState (b, p) with
  | none => 0
  | some batch => soFar batch

/-- The accounts are in order, and every open period of a registered bond is a `Batch`. Finiteness
is asked for only to make sense of the sum over the periods of a bond. -/
structure Solvent (P : CreditType → Prop) (s : State) : Prop where
  accounts : Accounts s
  batches : ∀ b p batch, s.batchState (b, p) = some batch →
    ∃ creditType supply processed, s.bondCreditType b = some creditType ∧
      s.distributionBalance (b, p) = some (supply, processed) ∧
      Batch P creditType ⟨batch, supply, processed⟩
  /-- Finitely many periods of a bond are open and have paid something. -/
  finite : ∀ b, (running s b).support.Finite

theorem Solvent.initial (admin : Address) : Solvent P (construct admin) where
  accounts := Accounts.initial admin
  batches _ _ _ h := by cases h
  finite b := by
    have h : running (construct admin) b = 0 := rfl
    rw [h, Function.support_zero]
    exact Set.finite_empty

/-- The effect of a committed call on the accounts. Nonces and the links to projects may change in
any way. -/
inductive CreditStep (P : CreditType → Prop) (deps : Deps) (s s' : State) : Op → Ret → Prop
  /-- A bond is registered for the first time, or with the type it has. -/
  | register {caller : Address} {b : BondId} {projectId : Bytes32} {nonce : ℕ}
      {creditType : CreditType}
      (htype : s.bondCreditType b = none ∨ s.bondCreditType b = some creditType)
      (hs' : s' = { s with
        nonce := s'.nonce
        bondProject := s'.bondProject
        bondCreditType := Function.update s.bondCreditType b (some creditType) }) :
      CreditStep P deps s s' (.registerBond caller b projectId nonce) .unit
  /-- A batch that leaves its period open. -/
  | batch {caller : Address} {b : BondId} {p : ℕ} {holders : List (Address × ℤ)}
      {reportId : ReportId} {nonce : ℕ} {projectId : Bytes32} {creditType : CreditType}
      {progress progress' : Progress} {x : Credits} {result : CouponResult}
      (htype : s.bondCreditType b = some creditType)
      (hstart : startBatch deps s b p projectId creditType reportId = .ok progress)
      (hadvanced : Advanced P b p creditType progress progress' x s s') :
      CreditStep P deps s s' (.distributeCoupon caller b p holders reportId nonce false)
        (.coupon result)
  /-- The batch that closes its period. -/
  | final {caller : Address} {b : BondId} {p : ℕ} {holders : List (Address × ℤ)}
      {reportId : ReportId} {nonce : ℕ} {projectId : Bytes32} {creditType : CreditType}
      {progress progress' : Progress} {x : Credits} {s₁ : State} {report : Report}
      {result : CouponResult}
      (hopen : ∀ info, s.periodInfo (b, p) = some info → info.distributed = false)
      (htype : s.bondCreditType b = some creditType)
      (hstart : startBatch deps s b p projectId creditType reportId = .ok progress)
      (hadvanced : Advanced P b p creditType progress progress' x s s₁)
      (hfinalised : Finalised b p progress' report s₁ s') :
      CreditStep P deps s s' (.distributeCoupon caller b p holders reportId nonce true)
        (.coupon result)
  /-- A claim. -/
  | claim {caller : Address} {b : BondId} {nonce : ℕ} {receipt : ClaimReceipt}
      (hcredited : Credited b caller (-receipt.credits) s s')
      (haccrued : receipt.accrued = receipt.credits.total) :
      CreditStep P deps s s' (.claimCredits caller b nonce) (.claimed receipt)
  /-- A sweep. -/
  | sweep {caller : Address} {b : BondId} {destination : Address} {nonce : ℕ}
      {receipt : SweepReceipt}
      (hcredited : Credited b destination (dust s b) (clearDust s b) s') :
      CreditStep P deps s s' (.sweepUndistributed caller b destination nonce) (.swept receipt)
  /-- A new deduct caller. -/
  | grant {caller deductCaller : Address} {nonce : ℕ}
      (hs' : s' = { s with nonce := s'.nonce, deductCaller := s'.deductCaller }) :
      CreditStep P deps s s' (.registerDeductCaller caller deductCaller nonce) .unit
  /-- A deduction. -/
  | deduct {signers : List Address} {b : BondId} {holder : Address} {amount left : ℤ}
      {creditType : CreditType} (hstored : IsStored (storageType creditType))
      (hcredited : Credited b holder (-bucket (storageType creditType) amount) s s') :
      CreditStep P deps s s' (.deductCredits signers b holder amount creditType) (.remaining left)

/-- A batch starts from a `Batch`: one that is stored, or one computed from a measured report whose
products fit. -/
theorem Solvent.start (hS : Solvent P s) {b : BondId} {p : ℕ} {projectId : Bytes32}
    {creditType : CreditType} {reportId : ReportId} {progress : Progress}
    (htype : s.bondCreditType b = some creditType)
    (hopens : ∀ report supply batch, s.batchState (b, p) = none →
      Opened deps b projectId creditType reportId report supply batch →
      0 ≤ worth report ∧ 0 ≤ supply ∧ (P creditType → Fits (totals batch) supply))
    (hstart : startBatch deps s b p projectId creditType reportId = .ok progress) :
    Batch P creditType progress := by
  obtain ⟨hbatch, -, hbalance⟩ | ⟨hnone, hzero, report, hO⟩ := startBatch_ok hstart
  · -- resumed
    obtain ⟨creditType', supply, processed, htype', hbalance', hB⟩ := hS.batches b p _ hbatch
    rw [htype] at htype'
    cases htype'
    rw [hbalance] at hbalance'
    cases hbalance'
    exact hB
  · -- opened
    obtain ⟨hworth, hsupply, hfits⟩ := hopens report _ _ hnone hO
    have hB := hO.batch_ok hworth hsupply hfits
    rw [← hzero] at hB
    exact hB

/-- **Inversion.** `hregistered` says that a registered type is the configured one, `hopens` that a
period is opened on a measured report whose products fit. -/
theorem exec_credits (hP : P .basket) (hS : Solvent P s)
    (hregistered : ∀ b creditType config, s.bondCreditType b = some creditType →
      deps.getBond b = some config → config.creditType = creditType)
    {op : Op} {r : Ret}
    (hopens : ∀ caller b p holders reportId nonce isFinalBatch,
      op = .distributeCoupon caller b p holders reportId nonce isFinalBatch →
      ∀ projectId creditType report supply batch, s.bondCreditType b = some creditType →
      s.batchState (b, p) = none →
      Opened deps b projectId creditType reportId report supply batch →
      0 ≤ worth report ∧ 0 ≤ supply ∧ (P creditType → Fits (totals batch) supply))
    (h : exec deps s op = .ok (s', r)) : CreditStep P deps s s' op r ∧ Accounts s' := by
  have hA := hS.accounts
  cases op with
  | registerBond caller b projectId nonce =>
    simp only [exec, registerBond, bind_eq_ok, orTrap_eq_ok, pure_eq_ok, Prod.mk.injEq] at h
    obtain ⟨_, ⟨_, -, _, -, config, hconfig, _, -, _, -, _, -, rfl⟩, rfl, rfl⟩ := h
    -- a bond registered again is registered as what it was
    have htype : s.bondCreditType b = none ∨ s.bondCreditType b = some config.creditType := by
      cases hb : s.bondCreditType b with
      | none => exact Or.inl rfl
      | some creditType =>
        rw [hregistered b creditType config hb hconfig]
        exact Or.inr rfl
    exact ⟨.register htype rfl, hA.register htype rfl rfl rfl rfl rfl⟩
  | distributeCoupon caller b p holders reportId nonce isFinalBatch =>
    simp only [exec, distributeCoupon, bind_eq_ok, pure_eq_ok, Prod.mk.injEq] at h
    obtain ⟨⟨s₁, result⟩, ⟨nonces, -, _, -, h⟩, rfl, rfl⟩ := h
    -- the nonces are the only difference to the state the loop starts from
    have hA₁ : Accounts { s with nonce := nonces } := hA.congr rfl rfl rfl rfl rfl
    obtain ⟨hopen, projectId, creditType, progress, progress', x, s₂, -, htype, hstart, -, hadv,
      hlast⟩ := distribute_ok hP hA₁ (fun projectId creditType progress _ htype hstart =>
        hS.start htype (fun report supply batch hnone hO =>
          hopens _ _ _ _ _ _ _ rfl projectId creditType report supply batch htype hnone hO)
          hstart) h
    have hadvanced : Advanced P b p creditType progress progress' x s s₂ :=
      ⟨hadv.accounts, hadv.batch, hadv.sum, hadv.paid, hadv.totals, hadv.report, hadv.stored⟩
    obtain ⟨rfl, rfl⟩ | ⟨rfl, -, report, -, hfinalised⟩ := hlast
    · exact ⟨.batch htype hstart hadvanced, hadvanced.accounts⟩
    · exact ⟨.final hopen htype hstart hadvanced hfinalised, hfinalised.accounts⟩
  | claimCredits caller b nonce =>
    simp only [exec, bind_eq_ok, pure_eq_ok, Prod.mk.injEq] at h
    obtain ⟨⟨s₁, receipt⟩, h, rfl, rfl⟩ := h
    obtain ⟨hcredited, haccrued, hA'⟩ := claimCredits_ok hA h
    exact ⟨.claim hcredited haccrued, hA'⟩
  | sweepUndistributed caller b destination nonce =>
    simp only [exec, bind_eq_ok, pure_eq_ok, Prod.mk.injEq] at h
    obtain ⟨⟨s₁, receipt⟩, h, rfl, rfl⟩ := h
    obtain ⟨hcredited, hA'⟩ := sweepUndistributed_ok hA h
    exact ⟨.sweep hcredited, hA'⟩
  | registerDeductCaller caller deductCaller nonce =>
    simp only [exec, registerDeductCaller, bind_eq_ok, pure_eq_ok, Prod.mk.injEq] at h
    obtain ⟨_, ⟨_, -, _, -, rfl⟩, rfl, rfl⟩ := h
    exact ⟨.grant rfl, hA.congr rfl rfl rfl rfl rfl⟩
  | deductCredits signers b holder amount creditType =>
    simp only [exec, bind_eq_ok, pure_eq_ok, Prod.mk.injEq] at h
    obtain ⟨⟨s₁, left⟩, h, rfl, rfl⟩ := h
    obtain ⟨hcredited, hstored, hA'⟩ := deductCredits_ok hA h
    exact ⟨.deduct hstored hcredited, hA'⟩

/-! ### The invariant -/

/-- Writing the entry of one period writes one entry of the running figures. -/
theorem running_update {b : BondId} {p : ℕ} {o : Option BatchState}
    (h : s'.batchState = Function.update s.batchState (b, p) o) :
    running s' b = Function.update (running s b) p (o.elim 0 soFar) ∧
      ∀ b', b' ≠ b → running s' b' = running s b' := by
  constructor
  · ext1 p'
    unfold running
    rw [h]
    by_cases hp : p' = p
    · subst hp
      rw [Function.update_self, Function.update_self]
      cases o <;> rfl
    · have hkey : (b, p') ≠ (b, p) := by
        rintro ⟨⟩
        exact hp rfl
      rw [Function.update_of_ne hkey, Function.update_of_ne hp]
  · intro b' hb
    ext1 p'
    have hkey : (b', p') ≠ (b, p) := by
      rintro ⟨⟩
      exact hb rfl
    unfold running
    rw [h, Function.update_of_ne hkey]

theorem running_congr (h : s'.batchState = s.batchState) : running s' = running s := by
  unfold running
  rw [h]

/-- A call that leaves open periods and registered types alone keeps the invariant with the
accounts. -/
theorem Solvent.congr (hS : Solvent P s) (hA : Accounts s')
    (hbatches : s'.batchState = s.batchState)
    (hbalances : s'.distributionBalance = s.distributionBalance)
    (htypes : s'.bondCreditType = s.bondCreditType) : Solvent P s' where
  accounts := hA
  batches := by
    rw [hbatches, hbalances, htypes]
    exact hS.batches
  finite := by
    rw [running_congr hbatches]
    exact hS.finite

theorem Solvent.credited {s₀ : State} {b : BondId} {holder : Address} {x : Credits}
    (hS : Solvent P s) (hA : Accounts s') (h : Credited b holder x s₀ s')
    (hbatches : s₀.batchState = s.batchState)
    (hbalances : s₀.distributionBalance = s.distributionBalance)
    (htypes : s₀.bondCreditType = s.bondCreditType) : Solvent P s' := by
  have hbooks := h.books
  unfold SameBooks at hbooks
  refine hS.congr hA ?_ ?_ ?_
  · rw [hbooks]
    exact hbatches
  · rw [hbooks]
    exact hbalances
  · rw [hbooks]
    exact htypes

/-- A batch keeps the invariant. -/
theorem Solvent.advanced {b : BondId} {p : ℕ} {creditType : CreditType}
    {progress progress' : Progress} {x : Credits} (hS : Solvent P s)
    (htype : s.bondCreditType b = some creditType)
    (h : Advanced P b p creditType progress progress' x s s') : Solvent P s' := by
  have hstored := h.stored
  have htypes : s'.bondCreditType = s.bondCreditType := by rw [hstored]
  have hbatches : s'.batchState = Function.update s.batchState (b, p) (some progress'.batch) := by
    rw [hstored]
  have hbalances : s'.distributionBalance = Function.update s.distributionBalance (b, p)
      (some (progress'.totalSubscribed, progress'.processedBalance)) := by rw [hstored]
  obtain ⟨hself, hothers⟩ := running_update hbatches
  refine ⟨h.accounts, ?_, ?_⟩
  · intro b' p' batch hbatch
    rw [hbatches] at hbatch
    rw [htypes, hbalances]
    -- the period that advanced, and the others
    by_cases hkey : (b', p') = (b, p)
    · cases hkey
      rw [Function.update_self] at hbatch
      cases hbatch
      exact ⟨creditType, _, _, htype, Function.update_self _ _ _, h.batch⟩
    · rw [Function.update_of_ne hkey] at hbatch
      rw [Function.update_of_ne hkey]
      exact hS.batches b' p' batch hbatch
  · intro b'
    by_cases hb : b' = b
    · subst hb
      rw [hself]
      exact FinSum.support_update (hS.finite b') _ _
    · rw [hothers b' hb]
      exact hS.finite b'

/-- Closing a period keeps the invariant. -/
theorem Solvent.finalised {b : BondId} {p : ℕ} {progress : Progress} {report : Report}
    (hS : Solvent P s) (h : Finalised b p progress report s s') : Solvent P s' := by
  have hstored := h.stored
  have htypes : s'.bondCreditType = s.bondCreditType := by rw [hstored]
  have hbatches : s'.batchState = Function.update s.batchState (b, p) none := by rw [hstored]
  have hbalances : s'.distributionBalance =
      Function.update s.distributionBalance (b, p) none := by rw [hstored]
  obtain ⟨hself, hothers⟩ := running_update hbatches
  refine ⟨h.accounts, ?_, ?_⟩
  · intro b' p' batch hbatch
    rw [hbatches] at hbatch
    rw [htypes, hbalances]
    by_cases hkey : (b', p') = (b, p)
    · -- the closed period has no batch any more
      rw [hkey, Function.update_self] at hbatch
      cases hbatch
    · rw [Function.update_of_ne hkey] at hbatch
      rw [Function.update_of_ne hkey]
      exact hS.batches b' p' batch hbatch
  · intro b'
    by_cases hb : b' = b
    · subst hb
      rw [hself]
      exact FinSum.support_update (hS.finite b') _ _
    · rw [hothers b' hb]
      exact hS.finite b'

/-- **One call** keeps the invariant. The sum over the open periods changes in one place, or moves
into the accounts. -/
theorem Solvent.step (hS : Solvent P s) (hA : Accounts s') {op : Op} {r : Ret}
    (hstep : CreditStep P deps s s' op r) : Solvent P s' := by
  cases hstep with
  | @register _ b _ _ creditType htype hs' =>
    have hbatches : s'.batchState = s.batchState := by rw [hs']
    refine ⟨hA, ?_, ?_⟩
    · intro b' p' batch hbatch
      rw [hbatches] at hbatch
      obtain ⟨creditType', supply, processed, htype', hbalance, hB⟩ := hS.batches b' p' batch hbatch
      refine ⟨creditType', supply, processed, ?_, ?_, hB⟩
      · -- a bond with an open period was registered, so it is registered again as what it was
        rw [hs']
        dsimp only
        by_cases hb : b' = b
        · subst hb
          rw [htype'] at htype
          rw [Function.update_self]
          exact (htype.resolve_left nofun).symm
        · rw [Function.update_of_ne hb]
          exact htype'
      · rw [hs']
        exact hbalance
    · rw [running_congr hbatches]
      exact hS.finite
  | batch htype _ hadvanced => exact hS.advanced htype hadvanced
  | final _ htype _ hadvanced hfinalised => exact (hS.advanced htype hadvanced).finalised hfinalised
  | claim hcredited _ => exact hS.credited hA hcredited rfl rfl rfl
  | sweep hcredited => exact hS.credited hA hcredited rfl rfl rfl
  | grant hs' =>
    refine hS.congr hA ?_ ?_ ?_
    · rw [hs']
    · rw [hs']
    · rw [hs']
  | deduct _ hcredited => exact hS.credited hA hcredited rfl rfl rfl

/-! ### Stock and running figures -/

theorem stock_congr (hbyType : s'.accruedCreditsByType = s.accruedCreditsByType)
    (hundistributedByType : s'.undistributedByType = s.undistributedByType) :
    stock s' = stock s := by
  unfold stock purse dust
  rw [hbyType, hundistributedByType]

/-- Crediting an account moves the stock. -/
theorem Credited.stock {b : BondId} {holder : Address} {x : Credits} (hA : Accounts s)
    (h : Credited b holder x s s') (b' : BondId) :
    stock s' b' = stock s b' + if b' = b then x else 0 := by
  have hbooks := h.books
  unfold SameBooks at hbooks
  have hdust : dust s' b' = dust s b' := by
    unfold dust
    rw [hbooks]
  unfold CouponEngine.stock
  rw [h.sum hA b', hdust]
  abel

/-- A sweep keeps the stock. -/
theorem stock_sweep {b : BondId} {destination : Address} (hA : Accounts s)
    (h : Credited b destination (dust s b) (clearDust s b) s') (b' : BondId) :
    stock s' b' = stock s b' := by
  rw [h.stock (hA.clearDust b) b']
  have hpurse : purse (clearDust s b) = purse s := rfl
  unfold stock
  rw [hpurse, dust_clearDust]
  split
  · next hb =>
    rw [hb]
    abel
  · abel

/-- A batch moves the stock by what it paid. -/
theorem Advanced.stock {b : BondId} {p : ℕ} {creditType : CreditType}
    {progress progress' : Progress} {x : Credits}
    (h : Advanced P b p creditType progress progress' x s s') (b' : BondId) :
    stock s' b' = stock s b' + if b' = b then x else 0 := by
  have hdust : dust s' b' = dust s b' := by
    unfold dust
    rw [h.stored]
  unfold CouponEngine.stock
  rw [h.sum b', hdust]
  abel

/-- Closing a period moves the stock by the remainder. -/
theorem Finalised.stock {b : BondId} {p : ℕ} {progress : Progress} {report : Report}
    (h : Finalised b p progress report s s') (b' : BondId) :
    stock s' b' = stock s b' +
      if b' = b then positivePart (totals progress.batch - soFar progress.batch) else 0 := by
  unfold CouponEngine.stock
  rw [h.purse, h.dust b']
  abel

/-- What a batch finds on record as paid is what it starts from. -/
theorem running_start {b : BondId} {p : ℕ} {projectId : Bytes32} {creditType : CreditType}
    {reportId : ReportId} {progress : Progress}
    (hstart : startBatch deps s b p projectId creditType reportId = .ok progress) :
    running s b p = soFar progress.batch := by
  unfold running
  obtain ⟨hbatch, -, -⟩ | ⟨hnone, -, report, hO⟩ := startBatch_ok hstart
  · rw [hbatch]
  · rw [hnone, hO.computed]
    rfl

/-- A batch moves the running figures by what it paid. -/
theorem Advanced.running {b : BondId} {p : ℕ} {projectId : Bytes32} {creditType : CreditType}
    {reportId : ReportId} {progress progress' : Progress} {x : Credits} (hS : Solvent P s)
    (hstart : startBatch deps s b p projectId creditType reportId = .ok progress)
    (h : Advanced P b p creditType progress progress' x s s') (b' : BondId) :
    ∑ᶠ q, running s' b' q = ∑ᶠ q, running s b' q + if b' = b then x else 0 := by
  have hbatches : s'.batchState = Function.update s.batchState (b, p) (some progress'.batch) := by
    rw [h.stored]
  obtain ⟨hself, hothers⟩ := running_update hbatches
  by_cases hb : b' = b
  · subst hb
    rw [hself, FinSum.finsum_update (hS.finite b'), running_start hstart, if_pos rfl]
    show _ - soFar progress.batch + soFar progress'.batch = _
    rw [h.paid]
    abel
  · rw [hothers b' hb, if_neg hb, add_zero]

/-- Closing a period takes what it paid off the running figures. -/
theorem Finalised.running {b : BondId} {p : ℕ} {progress : Progress} {report : Report}
    (hS : Solvent P s) (hbatch : s.batchState (b, p) = some progress.batch)
    (h : Finalised b p progress report s s') (b' : BondId) :
    ∑ᶠ q, running s' b' q =
      ∑ᶠ q, running s b' q - if b' = b then soFar progress.batch else 0 := by
  have hbatches : s'.batchState = Function.update s.batchState (b, p) none := by rw [h.stored]
  obtain ⟨hself, hothers⟩ := running_update hbatches
  have hpaid : CouponEngine.running s b p = soFar progress.batch := by
    unfold CouponEngine.running
    rw [hbatch]
  by_cases hb : b' = b
  · subst hb
    rw [hself, FinSum.finsum_update (hS.finite b'), hpaid, if_pos rfl]
    exact add_zero _
  · rw [hothers b' hb, if_neg hb, sub_zero]

/-- **The last batch.** Between the state before it and the state after it, stock and running
figures together change by the credits of the period. -/
theorem Finalised.flow {b : BondId} {p : ℕ} {projectId : Bytes32} {creditType : CreditType}
    {reportId : ReportId} {progress progress' : Progress} {x : Credits} {s₁ : State}
    {report : Report} (hcreditType : P creditType) (hS : Solvent P s)
    (htype : s.bondCreditType b = some creditType)
    (hstart : startBatch deps s b p projectId creditType reportId = .ok progress)
    (hadvanced : Advanced P b p creditType progress progress' x s s₁)
    (h : Finalised b p progress' report s₁ s') (b' : BondId) :
    CouponEngine.stock s' b' + ∑ᶠ q, CouponEngine.running s b' q =
      CouponEngine.stock s b' + ∑ᶠ q, CouponEngine.running s' b' q +
        if b' = b then totals progress.batch else 0 := by
  have hS₁ := hS.advanced htype hadvanced
  have hbatch : s₁.batchState (b, p) = some progress'.batch := by
    rw [hadvanced.stored]
    exact Function.update_self _ _ _
  -- nothing is lost in the remainder, because the batches paid at most the total
  have hremainder := positivePart_of_nonneg (hadvanced.batch.remainder_nonneg hcreditType)
  rw [h.stock b', h.running hS₁ hbatch b', hadvanced.stock b', hadvanced.running hS hstart b',
    hremainder, hadvanced.totals]
  split
  · abel
  · abel

end CouponEngine
end NbsBond
