import NbsBond.BondIssuer.Ledger
import NbsBond.CouponEngine.Periods
import NbsBond.Protocol.Reports

/-!
# Periods and the reports they are paid on

`CouponEngine` checks that a report is verified on the first batch of a period and never again, and
writes down the report's id only. What makes this sound is spread over the protocol: a verified
report is never rewritten, a bond's configuration is never rewritten, and a period that was closed
is never opened again.

`PeriodInv` relates the tables of periods to the reports and configurations they were computed
from; it holds in every reached state.
-/

namespace NbsBond

namespace CreditRetirement

open Soroban

/-- A call of `CreditRetirement` reaches into `CouponEngine` by deducting what it retires, and not
otherwise. -/
theorem exec_deducts {now : ℕ} {self : Address} {issuer : BondIssuer.State}
    {engine e : CouponEngine.State} {s s' : State} {op : Op} {r : ℕ}
    (h : exec now self issuer engine s op = .ok ((s', e), r)) :
    (∃ signers holder b projectId periodIndex amount creditType certificateHash nonce left,
      op = .retireCredits signers holder b projectId periodIndex amount creditType
        certificateHash nonce ∧
      CouponEngine.deductCredits engine (self :: signers) b holder amount creditType =
        .ok (e, left)) ∨
    ((∀ signers holder b projectId periodIndex amount creditType certificateHash nonce,
      op ≠ .retireCredits signers holder b projectId periodIndex amount creditType
        certificateHash nonce) ∧ e = engine) := by
  cases op with
  | retireCredits signers holder b projectId periodIndex amount creditType certificateHash nonce =>
    simp only [exec, retireCredits, bind_eq_ok, orError_eq_ok, pure_eq_ok, Prod.mk.injEq] at h
    obtain ⟨_, -, _, -, _, -, _, -, _, -, _, -, _, -, _, -, _, -, _, -, ⟨e₁, left⟩, hdeduct,
      ⟨s₁, id⟩, -, ⟨-, rfl⟩, -⟩ := h
    refine Or.inl ⟨signers, holder, b, projectId, periodIndex, amount, creditType,
      certificateHash, nonce, left, rfl, ?_⟩
    -- a failed deduction becomes an error of this contract, so it succeeded
    cases hresult : CouponEngine.deductCredits engine (self :: signers) b holder amount creditType
      with
    | error _ =>
      rw [hresult] at hdeduct
      cases hdeduct
    | ok x =>
      rw [hresult] at hdeduct
      cases hdeduct
      rfl
  | extendRetirementTtl id =>
    simp only [exec, bind_eq_ok, pure_eq_ok, Prod.mk.injEq] at h
    obtain ⟨_, -, ⟨-, rfl⟩, -⟩ := h
    refine Or.inr ⟨?_, rfl⟩
    intros
    simp
  | totalRetirements =>
    simp only [exec, pure_eq_ok, Prod.mk.injEq] at h
    refine Or.inr ⟨?_, h.1.2.symm⟩
    intros
    simp

end CreditRetirement

namespace Protocol

open Soroban OracleConsumer CouponEngine

/-! ### What the engine reads -/

theorem World.deps_getReport {w : World} {r : ReportId} {rep : Report} :
    w.deps.getReport r = some rep ↔ w.oracle.report r = some rep := by
  unfold World.deps OracleConsumer.getReport
  dsimp only
  cases w.oracle.report r <;> simp [orError, Except.toOption]

theorem World.deps_getBond {w : World} {b : BondId} {config : BondConfig} :
    w.deps.getBond b = some config ↔ w.issuer.bondConfig b = some config := by
  unfold World.deps BondIssuer.getBond
  dsimp only
  cases w.issuer.bondConfig b <;> simp [orError, Except.toOption]

/-- The ledger of every reached state is balanced. -/
theorem ledger_of_run {h : List Call} {w : World} (hrun : Run h w) :
    BondIssuer.LedgerInv w.issuer := by
  refine hrun.invariant (P := fun w => BondIssuer.LedgerInv w.issuer) ?_ ?_
  · rintro w hinit
    obtain ⟨admin, hadmin⟩ := hinit.issuer
    rw [hadmin]
    exact BondIssuer.LedgerInv.initial admin
  · intro t w op r w' hI hexec
    cases step_of_exec hexec with
    | issuer hop => exact hI.step (BondIssuer.exec_ledger hop)
    | registry _ _ _ => exact hI
    | oracle _ => exact hI
    | engine _ => exact hI
    | retirement _ => exact hI

/-- Configurations of bonds are never rewritten. -/
theorem Step.keeps_config {now : ℕ} {w w' : World} {op : Op} {r : Ret}
    (hI : BondIssuer.LedgerInv w.issuer) (hstep : Step now w op w' r) {b : BondId}
    {config : BondConfig} (hconfig : w.issuer.bondConfig b = some config) :
    w'.issuer.bondConfig b = some config := by
  cases hstep with
  | issuer hop => exact (BondIssuer.exec_ledger hop).keeps_config hI hconfig
  | registry _ _ _ => exact hconfig
  | oracle _ => exact hconfig
  | engine _ => exact hconfig
  | retirement _ => exact hconfig

/-- A verified report is never rewritten. -/
theorem Step.keeps_report {now : ℕ} {w w' : World} {op : Op} {r : Ret}
    (hL : LifeCycle (OracleConsumer.docket w.oracle)) (hstep : Step now w op w' r) {id : ReportId}
    {rep : Report} (hrep : w.oracle.report id = some rep) (hverified : rep.status = .verified) :
    w'.oracle.report id = some rep := by
  obtain ⟨op', -, hmove⟩ | ⟨-, hsame⟩ := hstep.docket
  · exact hmove.keeps_verified hL hrep hverified
  · rw [hsame]
    exact hrep

/-- A committed call moves the tables of `CouponEngine` as a call of that contract, or not at
all. -/
theorem Step.tables {now : ℕ} {w w' : World} {op : Op} {r : Ret} (hstep : Step now w op w' r) :
    (∃ op' r', op = .engine op' ∧
      CouponEngine.exec w.deps w.engine op' = .ok (w'.engine, r')) ∨
      ((∀ op', op ≠ .engine op') ∧ SameTables w.engine w'.engine) := by
  cases hstep with
  | engine h => exact .inl ⟨_, _, rfl, h⟩
  | issuer _ => exact .inr ⟨nofun, rfl⟩
  | registry _ _ _ => exact .inr ⟨nofun, rfl⟩
  | oracle _ => exact .inr ⟨nofun, rfl⟩
  | retirement h =>
    refine .inr ⟨nofun, ?_⟩
    obtain ⟨_, _, _, _, _, _, _, _, _, _, -, hdeduct⟩ | ⟨-, rfl⟩ := CreditRetirement.exec_deducts h
    · exact deductCredits_tables hdeduct
    · exact rfl

theorem Step.periods {now : ℕ} {w w' : World} {op : Op} {r : Ret} (hstep : Step now w op w' r) :
    (∃ op', op = .engine op' ∧ PeriodStep w.deps w.engine w'.engine op') ∨
      ((∀ op', op ≠ .engine op') ∧ SamePeriods w.engine w'.engine) := by
  rcases hstep.tables with ⟨op', _, hop, hexec⟩ | ⟨hop, hsame⟩
  · exact .inl ⟨op', hop, exec_periods hexec⟩
  · exact .inr ⟨hop, hsame.periods⟩

/-- A property of the tables that the calls of `CouponEngine` keep holds in every reached state. -/
theorem engine_of_run {P : CouponEngine.State → Prop} {h : List Call} {w : World}
    (hrun : Run h w) (hinit : ∀ admin, P (construct admin))
    (hexec : ∀ {h w op s r}, Run h w → P w.engine →
      CouponEngine.exec w.deps w.engine op = .ok (s, r) → P s)
    (htables : ∀ {s s'}, SameTables s s' → P s → P s') : P w.engine := by
  refine hrun.induction (P := fun _ w => P w.engine) ?_ ?_
  · intro w hdeployed
    obtain ⟨admin, hadmin⟩ := hdeployed.engine
    rw [hadmin]
    exact hinit admin
  · intro h w t op r w' hrun _ hcall hP
    rcases (step_of_exec hcall).tables with ⟨op', _, -, hop⟩ | ⟨-, hsame⟩
    · exact hexec hrun hP hop
    · exact htables hsame hP

/-! ### The invariant -/

/-- What is known of the report behind a period of bond `b`: it is verified, and `t` are the credits
it is worth to the bond. -/
structure Backed (w : World) (b : BondId) (reportId : ReportId) (report : Report) (t : Credits) :
    Prop where
  found : w.oracle.report reportId = some report
  verified : report.status = .verified
  credits : ∃ creditType, w.engine.bondCreditType b = some creditType ∧
    creditTotals creditType report = .ok t

/-- The record of a closed period agrees with the report it names. The remainder is recorded in the
same place, so that both add up to what the report has. -/
structure Recorded (w : World) (b : BondId) (info : PeriodInfo) (report : Report) (t : Credits) :
    Prop where
  backed : Backed w b info.reportId report t
  distributed : info.distributed = true
  startTime : info.startTime = report.periodStart
  endTime : info.endTime = report.periodEnd
  earned : info.totalCreditsEarned + info.undistributed = t.total

/-- The tables of periods agree with the reports and configurations they were computed from. Reports
keep their measurements and configurations do not change, so what was once computed stays right. -/
structure PeriodInv (w : World) : Prop where
  registered : ∀ b creditType, w.engine.bondCreditType b = some creditType →
    ∃ config, w.issuer.bondConfig b = some config ∧ config.creditType = creditType
  batches : ∀ b p batch, w.engine.batchState (b, p) = some batch →
    ∃ report, Backed w b batch.reportId report (totals batch) ∧
      batch.totalCredits = (totals batch).total
  infos : ∀ b p info, w.engine.periodInfo (b, p) = some info →
    ∃ report t, Recorded w b info report t

/-- The invariant looks at verified reports, configurations and registered types; a state that
keeps these keeps what backs a period. -/
theorem Backed.mono {w w' : World} {b : BondId} {reportId : ReportId} {report : Report}
    {t : Credits} (h : Backed w b reportId report t)
    (hreports : ∀ r rep, w.oracle.report r = some rep → rep.status = .verified →
      w'.oracle.report r = some rep)
    (htypes : ∀ creditType, w.engine.bondCreditType b = some creditType →
      w'.engine.bondCreditType b = some creditType) : Backed w' b reportId report t where
  found := hreports reportId report h.found h.verified
  verified := h.verified
  credits := by
    obtain ⟨creditType, htype, hcredits⟩ := h.credits
    exact ⟨creditType, htypes creditType htype, hcredits⟩

theorem Recorded.mono {w w' : World} {b : BondId} {info : PeriodInfo} {report : Report}
    {t : Credits} (h : Recorded w b info report t)
    (hreports : ∀ r rep, w.oracle.report r = some rep → rep.status = .verified →
      w'.oracle.report r = some rep)
    (htypes : ∀ creditType, w.engine.bondCreditType b = some creditType →
      w'.engine.bondCreditType b = some creditType) : Recorded w' b info report t :=
  { h with backed := h.backed.mono hreports htypes }

/-- A registered type is never changed: registering a bond again reads the same configuration. -/
theorem PeriodInv.keeps_type {now : ℕ} {w w' : World} {op : Op} {r : Ret} (hP : PeriodInv w)
    (hstep : Step now w op w' r) {b : BondId} {creditType : CreditType}
    (htype : w.engine.bondCreditType b = some creditType) :
    w'.engine.bondCreditType b = some creditType := by
  obtain ⟨op', -, hmove⟩ | ⟨-, hsame⟩ := hstep.periods
  · cases hmove with
    | frame _ hsame =>
      rw [hsame.types]
      exact htype
    | @register _ b₀ _ _ config hconfig _ _ htypes =>
      rw [htypes]
      by_cases hne : b = b₀
      · subst hne
        -- configurations are immutable: the second reading is the first one
        obtain ⟨config', hconfig', hsame⟩ := hP.registered b creditType htype
        rw [World.deps_getBond, hconfig'] at hconfig
        cases hconfig
        rw [Function.update_self, hsame]
      · rw [Function.update_of_ne hne]
        exact htype
    | batch _ _ _ _ _ _ htypes =>
      rw [htypes]
      exact htype
    | final _ _ _ _ _ _ _ htypes =>
      rw [htypes]
      exact htype
  · rw [hsame.types]
    exact htype

/-- The batch a call of `distribute_coupon` starts from is backed: it was stored, or it has just
been computed from a verified report. -/
theorem PeriodInv.start {w : World} (hP : PeriodInv w) {b : BondId} {p : ℕ} {projectId : Bytes32}
    {creditType : CreditType} {reportId : ReportId} {progress : Progress}
    (htype : w.engine.bondCreditType b = some creditType)
    (hstart : startBatch w.deps w.engine b p projectId creditType reportId = .ok progress) :
    progress.batch.reportId = reportId ∧
      ∃ report, Backed w b reportId report (totals progress.batch) ∧
        progress.batch.totalCredits = (totals progress.batch).total := by
  obtain ⟨hbatch, hreport, -⟩ | ⟨-, -, report, hO⟩ := startBatch_ok hstart
  · obtain ⟨report, hbacked, htotal⟩ := hP.batches b p _ hbatch
    rw [hreport] at hbacked
    exact ⟨hreport, report, hbacked, htotal⟩
  · obtain ⟨hreport, hdraws⟩ := hO.draws
    have hfound : w.oracle.report reportId = some report := World.deps_getReport.mp hO.found
    exact ⟨hreport, report, ⟨hfound, hO.verified, creditType, htype, hdraws.credits⟩,
      hdraws.total⟩

/-- **One call** keeps the invariant. A period keeps pointing to its report, whatever becomes of the
status of that. -/
theorem PeriodInv.step {now : ℕ} {w w' : World} {op : Op} {r : Ret}
    (hI : BondIssuer.LedgerInv w.issuer) (hL : LifeCycle (docket w.oracle)) (hP : PeriodInv w)
    (hstep : Step now w op w' r) : PeriodInv w' := by
  have hreports : ∀ id rep, w.oracle.report id = some rep → rep.status = .verified →
      w'.oracle.report id = some rep :=
    fun id rep hrep hverified => hstep.keeps_report hL hrep hverified
  have htypes : ∀ b creditType, w.engine.bondCreditType b = some creditType →
      w'.engine.bondCreditType b = some creditType :=
    fun b creditType htype => hP.keeps_type hstep htype
  have hregistered : ∀ b creditType, w.engine.bondCreditType b = some creditType →
      ∃ config, w'.issuer.bondConfig b = some config ∧ config.creditType = creditType := by
    intro b creditType htype
    obtain ⟨config, hconfig, hsame⟩ := hP.registered b creditType htype
    exact ⟨config, hstep.keeps_config hI hconfig, hsame⟩
  have hbatches : ∀ b p batch, w.engine.batchState (b, p) = some batch →
      ∃ report, Backed w' b batch.reportId report (totals batch) ∧
        batch.totalCredits = (totals batch).total := by
    intro b p batch hbatch
    obtain ⟨report, hbacked, htotal⟩ := hP.batches b p batch hbatch
    exact ⟨report, hbacked.mono hreports (htypes b), htotal⟩
  have hinfos : ∀ b p info, w.engine.periodInfo (b, p) = some info →
      ∃ report t, Recorded w' b info report t := by
    intro b p info hinfo
    obtain ⟨report, t, hrecorded⟩ := hP.infos b p info hinfo
    exact ⟨report, t, hrecorded.mono hreports (htypes b)⟩
  have hframe : SamePeriods w.engine w'.engine → PeriodInv w' := by
    intro hsame
    refine ⟨?_, ?_, ?_⟩
    · rw [hsame.types]
      exact hregistered
    · rw [hsame.batches]
      exact hbatches
    · rw [hsame.infos]
      exact hinfos
  obtain ⟨op', rfl, hmove⟩ | ⟨-, hsame⟩ := hstep.periods
  swap
  · exact hframe hsame
  cases hmove with
  | frame _ hsame => exact hframe hsame
  | @register _ b₀ _ _ config hconfig hinfos' hbatches' htypes' =>
    refine ⟨?_, ?_, ?_⟩
    · intro b creditType htype
      rw [htypes'] at htype
      by_cases hne : b = b₀
      · subst hne
        rw [Function.update_self] at htype
        cases htype
        exact ⟨config, hstep.keeps_config hI (World.deps_getBond.mp hconfig), rfl⟩
      · rw [Function.update_of_ne hne] at htype
        exact hregistered b creditType htype
    · rw [hbatches']
      exact hbatches
    · rw [hinfos']
      exact hinfos
  | @batch _ b₀ p₀ _ reportId _ _ creditType progress batch _ htype hstart hcontinues hinfos'
      hbatches' htypes' =>
    obtain ⟨hreport, report, hbacked, htotal⟩ := hP.start htype hstart
    refine ⟨?_, ?_, ?_⟩
    · rw [htypes']
      exact hregistered
    · intro b p batch' hbatch'
      rw [hbatches'] at hbatch'
      by_cases hkey : (b, p) = (b₀, p₀)
      · cases hkey
        rw [Function.update_self] at hbatch'
        cases hbatch'
        rw [hcontinues.report, hreport, hcontinues.totals, hcontinues.total]
        exact ⟨report, hbacked.mono hreports (htypes _), htotal⟩
      · rw [Function.update_of_ne hkey] at hbatch'
        exact hbatches b p batch' hbatch'
    · rw [hinfos']
      exact hinfos
  | @final _ b₀ p₀ _ reportId _ _ creditType progress batch report' _ htype hstart hcontinues
      hreport' hinfos' hbatches' htypes' =>
    obtain ⟨hreport, report, hbacked, htotal⟩ := hP.start htype hstart
    -- the report read for the record is the one the period was opened on
    have hsame : report' = report := by
      rw [hcontinues.report, hreport, World.deps_getReport, hbacked.found] at hreport'
      exact (Option.some.inj hreport').symm
    subst hsame
    refine ⟨?_, ?_, ?_⟩
    · rw [htypes']
      exact hregistered
    · intro b p batch' hbatch'
      rw [hbatches'] at hbatch'
      by_cases hkey : (b, p) = (b₀, p₀)
      · rw [hkey, Function.update_self] at hbatch'
        cases hbatch'
      · rw [Function.update_of_ne hkey] at hbatch'
        exact hbatches b p batch' hbatch'
    · intro b p info hinfo
      rw [hinfos'] at hinfo
      by_cases hkey : (b, p) = (b₀, p₀)
      · cases hkey
        rw [Function.update_self] at hinfo
        cases hinfo
        refine ⟨report', totals progress.batch, ?_, rfl, rfl, rfl, ?_⟩
        · show Backed w' _ batch.reportId report' _
          rw [hcontinues.report, hreport]
          exact hbacked.mono hreports (htypes _)
        · show batch.distributedSoFar + (batch.totalCredits - batch.distributedSoFar) = _
          rw [hcontinues.total, htotal]
          ring
      · rw [Function.update_of_ne hkey] at hinfo
        exact hinfos b p info hinfo

theorem PeriodInv.initial {w : World} (hinit : Init w) : PeriodInv w := by
  obtain ⟨admin, hadmin⟩ := hinit.engine
  refine ⟨?_, ?_, ?_⟩
  · intro b creditType htype
    rw [hadmin] at htype
    cases htype
  · intro b p batch hbatch
    rw [hadmin] at hbatch
    cases hbatch
  · intro b p info hinfo
    rw [hadmin] at hinfo
    cases hinfo

/-- Every reached state satisfies the invariant. -/
theorem periods_of_run {h : List Call} {w : World} (hrun : Run h w) : PeriodInv w := by
  refine hrun.induction (P := fun _ w => PeriodInv w) ?_ ?_
  · intro w hinit
    exact PeriodInv.initial hinit
  · intro h w t op r w' hrun _ hexec hP
    exact hP.step (ledger_of_run hrun) (lifeCycle_of_run hrun) (step_of_exec hexec)

/-- A period that passes the guard of `distribute_coupon` has no record: every record says
`distributed`. -/
theorem PeriodInv.closed_once {w : World} (hP : PeriodInv w) {b : BondId} {p : ℕ}
    (hopen : ∀ info, w.engine.periodInfo (b, p) = some info → info.distributed = false) :
    w.engine.periodInfo (b, p) = none := by
  cases hold : w.engine.periodInfo (b, p) with
  | none => rfl
  | some old =>
    obtain ⟨report, t, hrecorded⟩ := hP.infos b p old hold
    have hdistributed := hrecorded.distributed
    rw [hopen old hold] at hdistributed
    cases hdistributed

/-- A closed period stays closed, with the record it has. -/
theorem PeriodInv.keeps_info {now : ℕ} {w w' : World} {op : Op} {r : Ret} (hP : PeriodInv w)
    (hstep : Step now w op w' r) {k : BondId × ℕ} {info : PeriodInfo}
    (hinfo : w.engine.periodInfo k = some info) : w'.engine.periodInfo k = some info := by
  obtain ⟨b, p⟩ := k
  obtain ⟨op', -, hmove⟩ | ⟨-, hsame⟩ := hstep.periods
  · cases hmove with
    | frame _ hsame =>
      rw [hsame.infos]
      exact hinfo
    | register _ hinfos _ _ =>
      rw [hinfos]
      exact hinfo
    | batch _ _ _ _ hinfos _ _ =>
      rw [hinfos]
      exact hinfo
    | @final _ b₀ p₀ _ _ _ _ _ _ _ _ hopen _ _ _ _ hinfos _ _ =>
      rw [hinfos]
      -- a call closes an open period, and this one is closed
      by_cases hkey : (b, p) = (b₀, p₀)
      · rw [hkey, hP.closed_once hopen] at hinfo
        cases hinfo
      · rw [Function.update_of_ne hkey]
        exact hinfo
  · rw [hsame.infos]
    exact hinfo

/-! ### The state machine of reports -/

/-- The report an external call opens a challenge on. -/
def Op.challenges : Op → Option ReportId
  | .oracle op => op.challenges
  | _ => none

/-- How many challenges a history has opened on report `r`. -/
def openings (r : ReportId) (h : List Call) : ℕ := h.countP fun c => c.op.challenges = some r

/-- A report has been challenged once if it has a challenge on record, and never otherwise. -/
theorem openings_of_run {h : List Call} {w : World} (hrun : Run h w) :
    ∀ r, openings r h = if w.oracle.challenge r = none then 0 else 1 := by
  refine hrun.induction
    (P := fun h w => ∀ r, openings r h = if w.oracle.challenge r = none then 0 else 1) ?_ ?_
  · intro w hinit r
    obtain ⟨admin, hadmin⟩ := hinit.oracle
    rw [hadmin]
    rfl
  · intro h w t op ret w' _ _ hexec ih r
    unfold openings at ih ⊢
    rw [List.countP_cons, ih r]
    obtain ⟨op', rfl, hmove⟩ | ⟨hother, hsame⟩ := (step_of_exec hexec).docket
    · -- a challenge is opened where there was none, and no other call adds or removes one
      obtain ⟨hop, hnone, hsome⟩ | ⟨hop, hiff⟩ := hmove.challenge_change r
      · change w'.oracle.challenge r ≠ none at hsome
        rw [if_pos hnone, if_neg hsome]
        simp [Op.challenges, hop]
      · change w'.oracle.challenge r = none ↔ _ at hiff
        simp [Op.challenges, hop, hiff]
    · have hop : op.challenges ≠ some r := by
        cases op with
        | oracle op' => exact absurd rfl (hother op')
        | _ => nofun
      rw [hsame]
      simp [hop]

/-- One call, one report. -/
theorem Step.report_change {now : ℕ} {w w' : World} {op : Op} {ret : Ret}
    (hL : LifeCycle (OracleConsumer.docket w.oracle)) (hstep : Step now w op w' ret)
    {r : ReportId} {rep : Report} (hrep : w.oracle.report r = some rep) :
    ∃ rep', w'.oracle.report r = some rep' ∧ SameReport rep rep' ∧
      (rep' = rep ∨ Allowed rep.status rep'.status) := by
  obtain ⟨op', -, hmove⟩ | ⟨-, hsame⟩ := hstep.docket
  · exact hmove.report_change hL hrep
  · rw [hsame]
    exact ⟨rep, hrep, rfl, Or.inl rfl⟩

/-- A report on record stays on record and says what it said; a final one stays as it is. -/
theorem report_stable {h : List Call} {w : World} (hrun : Run h w) {c : Call} (hc : c ∈ h)
    {r : ReportId} {rep : Report} (hrep : c.post.oracle.report r = some rep) :
    ∃ rep', w.oracle.report r = some rep' ∧ SameReport rep rep' ∧
      (rep.status = .verified ∨ rep.status = .rejected → rep' = rep) := by
  refine hrun.stable (P := fun w => ∃ rep', w.oracle.report r = some rep' ∧ SameReport rep rep' ∧
    (rep.status = .verified ∨ rep.status = .rejected → rep' = rep)) ?_ hc
    ⟨rep, hrep, rfl, fun _ => rfl⟩
  rintro h t w op ret w' hrun ⟨rep₁, hrep₁, hsame₁, hfinal₁⟩ hexec
  obtain ⟨rep₂, hrep₂, hsame₂, hchange⟩ :=
    (step_of_exec hexec).report_change (lifeCycle_of_run hrun) hrep₁
  refine ⟨rep₂, hrep₂, hsame₁.trans hsame₂, ?_⟩
  intro hfinal
  have heq := hfinal₁ hfinal
  subst heq
  -- no transition leaves a final status
  rcases hchange with rfl | hallowed
  · rfl
  · rcases hfinal with hverified | hrejected
    · exact absurd hverified hallowed.source.1
    · exact absurd hrejected hallowed.source.2

/-- A period closed once keeps its record. -/
theorem info_stable {h : List Call} {w : World} (hrun : Run h w) {c : Call} (hc : c ∈ h)
    {k : BondId × ℕ} {info : PeriodInfo} (hinfo : c.post.engine.periodInfo k = some info) :
    w.engine.periodInfo k = some info :=
  hrun.stable (P := fun w => w.engine.periodInfo k = some info)
    (fun _ _ _ _ _ _ hrun hinfo hexec =>
      (periods_of_run hrun).keeps_info (step_of_exec hexec) hinfo) hc hinfo

/-- **The report state machine.** In every run:
* a report is challenged exactly while it has an unresolved challenge;
* a call leaves the status of a report alone or makes one of the six allowed changes, and leaves
  everything else the report says alone;
* a verified or rejected report keeps its whole record for the rest of the run;
* at most one challenge is opened on a report;
* the record of a period is never rewritten, and names a report that was verified when the record
  was written, is verified now, and has the record's window. -/
theorem report_state_machine {h : List Call} {w : World} (hrun : Run h w) :
    (∀ r, (∃ rep, w.oracle.report r = some rep ∧ rep.status = .challenged) ↔
      ∃ ch, w.oracle.challenge r = some ch ∧ ch.resolved = false) ∧
    (∀ c ∈ h, ∀ r rep, c.pre.oracle.report r = some rep →
      ∃ rep', c.post.oracle.report r = some rep' ∧ SameReport rep rep' ∧
        (rep'.status = rep.status ∨ Allowed rep.status rep'.status)) ∧
    (∀ c ∈ h, ∀ r rep, c.post.oracle.report r = some rep →
      ∃ rep', w.oracle.report r = some rep' ∧ SameReport rep rep' ∧
        (rep.status = .verified ∨ rep.status = .rejected → rep' = rep)) ∧
    (∀ r, openings r h ≤ 1) ∧
    (∀ c ∈ h, ∀ b p info, c.post.engine.periodInfo (b, p) = some info →
      w.engine.periodInfo (b, p) = some info ∧
        ∃ rep, c.post.oracle.report info.reportId = some rep ∧
          w.oracle.report info.reportId = some rep ∧ rep.status = .verified ∧
          info.startTime = rep.periodStart ∧ info.endTime = rep.periodEnd) := by
  refine ⟨?_, ?_, ?_, ?_, ?_⟩
  · intro r
    have hL := lifeCycle_of_run hrun
    constructor
    · rintro ⟨rep, hrep, hchallenged⟩
      exact (hL.challenged r rep hrep).mp hchallenged
    · rintro ⟨ch, hch, hopen⟩
      -- an id with a challenge is in use
      cases hrep : w.oracle.report r with
      | none =>
        have hnone : w.oracle.challenge r = none := (hL.unused r hrep).1
        rw [hnone] at hch
        cases hch
      | some rep => exact ⟨rep, rfl, (hL.challenged r rep hrep).mpr ⟨ch, hch, hopen⟩⟩
  · intro c hc r rep hrep
    obtain ⟨h', hpast, hexec⟩ := hrun.of_mem hc
    obtain ⟨rep', hrep', hsame, hchange⟩ :=
      (step_of_exec hexec).report_change (lifeCycle_of_run hpast) hrep
    refine ⟨rep', hrep', hsame, ?_⟩
    rcases hchange with rfl | hallowed
    · exact Or.inl rfl
    · exact Or.inr hallowed
  · intro c hc r rep hrep
    exact report_stable hrun hc hrep
  · intro r
    rw [openings_of_run hrun r]
    split <;> decide
  · intro c hc b p info hinfo
    refine ⟨info_stable hrun hc hinfo, ?_⟩
    obtain ⟨h₁, h₂, rfl⟩ := List.append_of_mem hc
    obtain ⟨hpast, htime, hexec⟩ := hrun.past
    have hpost : Run (c :: h₂) c.post := .call hpast htime hexec
    obtain ⟨rep, t, hrecorded⟩ := (periods_of_run hpost).infos b p info hinfo
    obtain ⟨rep', hrep', -, hfinal⟩ := report_stable hrun hc hrecorded.backed.found
    have hsame := hfinal (Or.inl hrecorded.backed.verified)
    subst hsame
    exact ⟨rep', hrecorded.backed.found, hrep', hrecorded.backed.verified, hrecorded.startTime,
      hrecorded.endTime⟩

/-- A report is submitted, challenged, and pending again when the challenge lapses; it is verified,
and a coupon is paid on it in two batches. -/
theorem report_state_machine_challenged_report :
    ∃ h w info rep, Run h w ∧ openings 1 h = 1 ∧ openings 1 h ≤ 1 ∧
      w.engine.periodInfo (1, 0) = some info ∧ w.oracle.report info.reportId = some rep ∧
      rep.status = .verified ∧ info.startTime = rep.periodStart ∧
      info.endTime = rep.periodEnd := by
  let config : BondConfig := ⟨7, 1000, [50], .carbon, 9000000, 100⟩
  let ops : List (ℕ × Op) := (onboard ⟨0⟩ ⟨5⟩ ⟨1⟩ ⟨2⟩ ⟨100⟩ ⟨102⟩ 7).append
    [(1, .oracle (.submitReport ⟨1⟩ 1 0 10 5000 .absent "VM0007" 3 0)),
      (1, .oracle (.depositChallengeBond ⟨3⟩ 1000000 0)),
      (1, .oracle (.challengeReport ⟨3⟩ 1 9 1)),
      (3000000, .oracle (.expireStaleChallenge 1)),
      (3000000, .oracle (.verifyReport ⟨2⟩ 1 0)),
      (3000001, .issuer (.issueBond ⟨0⟩ config 0)),
      (3000001, .issuer (.subscribe ⟨8⟩ 1 3 0)),
      (3000001, .issuer (.subscribe ⟨9⟩ 1 4 0)),
      (3000001, .engine (.registerBond ⟨0⟩ 1 7 0)),
      (3000002, .engine (.distributeCoupon ⟨0⟩ 1 0 [(⟨8⟩, 3)] 1 1 false)),
      (3000003, .engine (.distributeCoupon ⟨0⟩ 1 0 [(⟨9⟩, 4)] 1 2 true))]
  let info : PeriodInfo := ⟨0, 0, 10, 4, true, 1, 1⟩
  have hplay : (machine.play [] (deploy ⟨0⟩ ⟨100⟩ ⟨101⟩ ⟨102⟩) ops).map
      (fun p => (openings 1 p.1, p.2.engine.periodInfo (1, 0),
        p.1.head?.map fun c => c.post.engine.periodInfo (1, 0))) =
      some (1, some info, some (some info)) := by decide
  obtain ⟨h, w, hrun, hview⟩ := Run.of_play (Init.deploy ⟨0⟩ ⟨100⟩ ⟨101⟩ ⟨102⟩) hplay
  simp only [Prod.mk.injEq, Option.map_eq_some_iff] at hview
  obtain ⟨hopenings, hinfo, c, hc, hpost⟩ := hview
  obtain ⟨-, -, -, hle, hperiods⟩ := report_state_machine hrun
  obtain ⟨-, rep, -, hrep, hverified, hstart, hend⟩ :=
    hperiods c (List.mem_of_mem_head? hc) 1 0 info hpost
  exact ⟨h, w, info, rep, hrun, hopenings, hle 1, hinfo, hrep, hverified, hstart, hend⟩

end Protocol
end NbsBond
