import NbsBond.CouponEngine.Distribution

/-!
# The tables of periods

What a committed call does to `PeriodInfo`, `BatchState` and the registered credit types, whatever
the figures in them are. A period goes through its two tables once: the first batch writes a
`BatchState`, further batches continue it, and the last one replaces it by a `PeriodInfo` that no
later call touches. Everything is read off the report and the credit type the first batch found.
-/

namespace NbsBond
namespace CouponEngine

open Soroban Int128 OracleConsumer

/-- The tables of periods, of registered types and of processed holders are untouched. A call that
only moves credits is of this kind. -/
structure SamePeriods (s s' : State) : Prop where
  infos : s'.periodInfo = s.periodInfo
  batches : s'.batchState = s.batchState
  types : s'.bondCreditType = s.bondCreditType
  marks : s'.holderDistributed = s.holderDistributed

/-- The report on which a call asks to close a period. -/
def Op.closes : Op → Option ReportId
  | .distributeCoupon _ _ _ _ reportId _ true => some reportId
  | _ => none

/-- The effect of a committed call on the tables of periods. Each constructor names what the call
was checked against, as the later invariants need it. -/
inductive PeriodStep (deps : Deps) (s s' : State) : Op → Prop
  /-- A call that is no distribution. -/
  | frame {op : Op} (hop : op.closes = none) (hsame : SamePeriods s s') : PeriodStep deps s s' op
  /-- A bond is registered, or registered again, with the type of its configuration. -/
  | register {caller : Address} {b : BondId} {projectId : Bytes32} {nonce : ℕ} {config : BondConfig}
      (hconfig : deps.getBond b = some config) (hinfos : s'.periodInfo = s.periodInfo)
      (hbatches : s'.batchState = s.batchState)
      (htypes : s'.bondCreditType =
        Function.update s.bondCreditType b (some config.creditType)) :
      PeriodStep deps s s' (.registerBond caller b projectId nonce)
  /-- A batch that leaves its period open. -/
  | batch {caller : Address} {b : BondId} {p : ℕ} {holders : List (Address × ℤ)}
      {reportId : ReportId} {nonce : ℕ} {projectId : Bytes32} {creditType : CreditType}
      {progress : Progress} {batch : BatchState}
      (hopen : ∀ info, s.periodInfo (b, p) = some info → info.distributed = false)
      (htype : s.bondCreditType b = some creditType)
      (hstart : startBatch deps s b p projectId creditType reportId = .ok progress)
      (hcontinues : Continues progress.batch batch) (hinfos : s'.periodInfo = s.periodInfo)
      (hbatches : s'.batchState = Function.update s.batchState (b, p) (some batch))
      (htypes : s'.bondCreditType = s.bondCreditType) :
      PeriodStep deps s s' (.distributeCoupon caller b p holders reportId nonce false)
  /-- The batch that closes its period. -/
  | final {caller : Address} {b : BondId} {p : ℕ} {holders : List (Address × ℤ)}
      {reportId : ReportId} {nonce : ℕ} {projectId : Bytes32} {creditType : CreditType}
      {progress : Progress} {batch : BatchState} {report : Report}
      (hopen : ∀ info, s.periodInfo (b, p) = some info → info.distributed = false)
      (htype : s.bondCreditType b = some creditType)
      (hstart : startBatch deps s b p projectId creditType reportId = .ok progress)
      (hcontinues : Continues progress.batch batch)
      (hreport : deps.getReport batch.reportId = some report)
      (hinfos : s'.periodInfo = Function.update s.periodInfo (b, p)
        (some ⟨p, report.periodStart, report.periodEnd, batch.distributedSoFar, true,
          batch.reportId, batch.totalCredits - batch.distributedSoFar⟩))
      (hbatches : s'.batchState = Function.update s.batchState (b, p) none)
      (htypes : s'.bondCreditType = s.bondCreditType) :
      PeriodStep deps s s' (.distributeCoupon caller b p holders reportId nonce true)

/-! ### Calls that are no distribution -/

theorem registerBond_periods {deps : Deps} {s s' : State} {caller : Address} {b : BondId}
    {projectId : Bytes32} {nonce : ℕ}
    (h : registerBond deps s caller b projectId nonce = .ok s') :
    PeriodStep deps s s' (.registerBond caller b projectId nonce) := by
  simp only [registerBond, bind_eq_ok, orTrap_eq_ok, pure_eq_ok] at h
  obtain ⟨_, -, _, -, config, hconfig, _, -, _, -, _, -, rfl⟩ := h
  exact .register hconfig rfl rfl rfl

/-- Everything but nonces, accounts, dust and the deduct caller. -/
def SameTables (s s' : State) : Prop :=
  s' = { s with
    nonce := s'.nonce
    accruedCredits := s'.accruedCredits
    accruedCreditsByType := s'.accruedCreditsByType
    undistributedTotal := s'.undistributedTotal
    undistributedByType := s'.undistributedByType
    deductCaller := s'.deductCaller }

theorem SameTables.periods {s s' : State} (h : SameTables s s') : SamePeriods s s' := by
  unfold SameTables at h
  rw [h]
  exact ⟨rfl, rfl, rfl, rfl⟩

theorem SameTables.projects {s s' : State} (h : SameTables s s') :
    s'.bondProject = s.bondProject := by
  unfold SameTables at h
  rw [h]

theorem SameTables.balances {s s' : State} (h : SameTables s s') :
    s'.distributionBalance = s.distributionBalance := by
  unfold SameTables at h
  rw [h]

theorem claimByType_tables {s s' : State} {b : BondId} {caller : Address} {accrued : ℤ}
    {registered : Option CreditType} {receipt : ClaimReceipt}
    (h : claimByType s b caller accrued registered = .ok (s', receipt)) : SameTables s s' := by
  -- whatever buckets were cleared, the tables were not
  unfold claimByType at h
  split at h
  · simp only [bind_eq_ok, pure_eq_ok, Prod.mk.injEq] at h
    obtain ⟨_, -, rfl, -⟩ := h
    rfl
  · simp only [bind_eq_ok, pure_eq_ok, Prod.mk.injEq] at h
    obtain ⟨_, -, rfl, -⟩ := h
    rfl
  · simp only [bind_eq_ok, pure_eq_ok, Prod.mk.injEq] at h
    obtain ⟨_, -, rfl, -⟩ := h
    rfl
  · simp only [bind_eq_ok, pure_eq_ok, Prod.mk.injEq] at h
    obtain ⟨_, -, _, -, rfl, -⟩ := h
    rfl
  · cases h

theorem claimCredits_tables {s s' : State} {caller : Address} {b : BondId} {nonce : ℕ}
    {receipt : ClaimReceipt} (h : claimCredits s caller b nonce = .ok (s', receipt)) :
    SameTables s s' := by
  simp only [claimCredits, bind_eq_ok] at h
  obtain ⟨nonces, -, h⟩ := h
  split at h
  · simp only [bind_eq_ok, pure_eq_ok, Prod.mk.injEq] at h
    obtain ⟨⟨s₁, receipt₁⟩, hclaim, rfl, -⟩ := h
    have htables := claimByType_tables hclaim
    unfold SameTables at htables ⊢
    rw [htables]
  · cases h
    rfl

theorem accruePositive_tables {s s' : State} {b : BondId} {holder : Address}
    {creditType : CreditType} {amount : ℤ}
    (h : accruePositive s b holder creditType amount = .ok s') : SameTables s s' := by
  unfold accruePositive at h
  split at h
  · simp only [accrueCredits, bind_eq_ok, pure_eq_ok] at h
    obtain ⟨_, -, _, -, rfl⟩ := h
    rfl
  · cases h
    rfl

theorem sweepUndistributed_tables {s s' : State} {caller destination : Address} {b : BondId}
    {nonce : ℕ} {receipt : SweepReceipt}
    (h : sweepUndistributed s caller b destination nonce = .ok (s', receipt)) :
    SameTables s s' := by
  simp only [sweepUndistributed, bind_eq_ok] at h
  obtain ⟨_, -, _, -, _, -, _, -, h⟩ := h
  split at h
  · cases h
    rfl
  · simp only [bind_eq_ok, pure_eq_ok, Prod.mk.injEq] at h
    obtain ⟨s₁, hcarbon, s₂, hbio, rfl, -⟩ := h
    have h₁ := accruePositive_tables hcarbon
    have h₂ := accruePositive_tables hbio
    unfold SameTables at h₁ h₂ ⊢
    rw [h₂, h₁]

theorem registerDeductCaller_tables {s s' : State} {caller deductCaller : Address} {nonce : ℕ}
    (h : registerDeductCaller s caller deductCaller nonce = .ok s') : SameTables s s' := by
  simp only [registerDeductCaller, bind_eq_ok, pure_eq_ok] at h
  obtain ⟨_, -, _, -, rfl⟩ := h
  rfl

theorem deductCredits_tables {s s' : State} {signers : List Address} {b : BondId}
    {holder : Address} {amount left : ℤ} {creditType : CreditType}
    (h : deductCredits s signers b holder amount creditType = .ok (s', left)) :
    SameTables s s' := by
  simp only [deductCredits, bind_eq_ok, pure_eq_ok, Prod.mk.injEq] at h
  obtain ⟨_, -, _, -, _, -, _, -, _, -, rfl, -⟩ := h
  rfl

/-! ### All calls -/

/-- The effect of a committed call: it registers a bond, it runs a batch, or it leaves the tables
alone. -/
inductive TableStep (deps : Deps) (s s' : State) : Op → Prop
  | register {caller : Address} {b : BondId} {projectId : Bytes32} {nonce : ℕ}
      (h : registerBond deps s caller b projectId nonce = .ok s') :
      TableStep deps s s' (.registerBond caller b projectId nonce)
  | distribute {caller : Address} {b : BondId} {p : ℕ} {holders : List (Address × ℤ)}
      {reportId : ReportId} {nonce : ℕ} {isFinalBatch : Bool} {nonces : Address → ℕ}
      {result : CouponResult}
      (h : distribute deps { s with nonce := nonces } b p holders reportId isFinalBatch =
        .ok (s', result)) :
      TableStep deps s s' (.distributeCoupon caller b p holders reportId nonce isFinalBatch)
  | frame {op : Op} (hop : op.closes = none) (hsame : SameTables s s') : TableStep deps s s' op

/-- **Inversion**, by function. -/
theorem exec_tables {deps : Deps} {s s' : State} {op : Op} {r : Ret}
    (h : exec deps s op = .ok (s', r)) : TableStep deps s s' op := by
  cases op with
  | registerBond caller b projectId nonce =>
    simp only [exec, bind_eq_ok, pure_eq_ok, Prod.mk.injEq] at h
    obtain ⟨s₁, h, rfl, -⟩ := h
    exact .register h
  | distributeCoupon caller b p holders reportId nonce isFinalBatch =>
    simp only [exec, distributeCoupon, bind_eq_ok, pure_eq_ok, Prod.mk.injEq] at h
    obtain ⟨⟨s₁, result⟩, ⟨nonces, -, _, -, h⟩, rfl, -⟩ := h
    exact .distribute h
  | claimCredits caller b nonce =>
    simp only [exec, bind_eq_ok, pure_eq_ok, Prod.mk.injEq] at h
    obtain ⟨⟨s₁, receipt⟩, h, rfl, -⟩ := h
    exact .frame rfl (claimCredits_tables h)
  | sweepUndistributed caller b destination nonce =>
    simp only [exec, bind_eq_ok, pure_eq_ok, Prod.mk.injEq] at h
    obtain ⟨⟨s₁, receipt⟩, h, rfl, -⟩ := h
    exact .frame rfl (sweepUndistributed_tables h)
  | registerDeductCaller caller deductCaller nonce =>
    simp only [exec, bind_eq_ok, pure_eq_ok, Prod.mk.injEq] at h
    obtain ⟨s₁, h, rfl, -⟩ := h
    exact .frame rfl (registerDeductCaller_tables h)
  | deductCredits signers b holder amount creditType =>
    simp only [exec, bind_eq_ok, pure_eq_ok, Prod.mk.injEq] at h
    obtain ⟨⟨s₁, left⟩, h, rfl, -⟩ := h
    exact .frame rfl (deductCredits_tables h)

/-- **Inversion.** -/
theorem exec_periods {deps : Deps} {s s' : State} {op : Op} {r : Ret}
    (h : exec deps s op = .ok (s', r)) : PeriodStep deps s s' op := by
  cases exec_tables h with
  | register hcall => exact registerBond_periods hcall
  | distribute hcall =>
    obtain ⟨hopen, ⟨-, htypes⟩, projectId, creditType, progress, batch, -, htype, hstart,
      hcontinues, ⟨rfl, hinfos, hbatches⟩ | ⟨rfl, report, hreport, hinfos, hbatches⟩⟩ :=
      distribute_periods hcall
    · exact .batch hopen htype hstart hcontinues hinfos hbatches htypes
    · exact .final hopen htype hstart hcontinues hreport hinfos hbatches htypes
  | frame hop hsame => exact .frame hop hsame.periods

/-! ### Registered projects -/

/-- A call leaves the registered projects alone, or registers one whose status is `Approved` at
that moment. -/
theorem exec_projects {deps : Deps} {s s' : State} {op : Op} {r : Ret}
    (h : exec deps s op = .ok (s', r)) :
    s'.bondProject = s.bondProject ∨
      ∃ b projectId, s'.bondProject = Function.update s.bondProject b (some projectId) ∧
        deps.getProjectStatusByHash projectId = some .approved := by
  cases exec_tables h with
  | @register _ b projectId _ hcall =>
    simp only [registerBond, bind_eq_ok, orTrap_eq_ok, ensure_eq_ok, pure_eq_ok] at hcall
    obtain ⟨_, -, _, -, config, -, _, -, status, hstatus, _, rfl, rfl⟩ := hcall
    exact Or.inr ⟨b, projectId, rfl, hstatus⟩
  | distribute hcall =>
    obtain ⟨-, ⟨hprojects, -⟩, -⟩ := distribute_periods hcall
    exact Or.inl hprojects
  | frame _ hsame => exact Or.inl hsame.projects

/-- A batch starts where the last one stopped, or opens its period. -/
theorem startBatch_ok {deps : Deps} {s : State} {b : BondId} {p : ℕ} {projectId : Bytes32}
    {creditType : CreditType} {reportId : ReportId} {progress : Progress}
    (h : startBatch deps s b p projectId creditType reportId = .ok progress) :
    (s.batchState (b, p) = some progress.batch ∧ progress.batch.reportId = reportId ∧
      s.distributionBalance (b, p) =
        some (progress.totalSubscribed, progress.processedBalance)) ∨
    (s.batchState (b, p) = none ∧ progress.processedBalance = 0 ∧
      ∃ report, Opened deps b projectId creditType reportId report progress.totalSubscribed
        progress.batch) := by
  unfold startBatch at h
  split at h
  · next batch hbatch =>
    simp only [resumeBatch, bind_eq_ok, ensure_eq_ok, orError_eq_ok, pure_eq_ok] at h
    obtain ⟨_, hreport, balance, hbalance, rfl⟩ := h
    exact Or.inl ⟨hbatch, hreport, hbalance⟩
  · next hnone =>
    simp only [bind_eq_ok, pure_eq_ok] at h
    obtain ⟨⟨batch, supply⟩, hopened, rfl⟩ := h
    obtain ⟨report, hO⟩ := openBatch_ok hopened
    exact Or.inr ⟨hnone, rfl, report, hO⟩

/-- Credits of the types `creditType` has were drawn from `report`, all of them. A measurement of
another type is in the report all the same, and this period does not draw it. -/
structure Draws (report : Report) (creditType : CreditType) (batch : BatchState) : Prop where
  credits : creditTotals creditType report = .ok (totals batch)
  total : batch.totalCredits = (totals batch).total

theorem Opened.draws {deps : Deps} {b : BondId} {projectId : Bytes32} {creditType : CreditType}
    {reportId : ReportId} {report : Report} {supply : ℤ} {batch : BatchState}
    (h : Opened deps b projectId creditType reportId report supply batch) :
    batch.reportId = reportId ∧ Draws report creditType batch := by
  have hreport : batch.reportId = reportId := by rw [h.computed]
  have htotal : batch.totalCredits = (totals batch).total := by
    have hcomputed := congrArg BatchState.totalCredits h.computed
    exact hcomputed
  exact ⟨hreport, h.credits, htotal⟩

end CouponEngine
end NbsBond
