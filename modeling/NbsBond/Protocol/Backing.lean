import NbsBond.Framework.Charging
import NbsBond.Protocol.Credits
import NbsBond.Protocol.Retirements

/-!
# What stands behind a retired credit

A retirement names a bond and a project, and the credits it takes were measured, verified, turned
into periods, paid to holders and accrued, by four contracts. `project_backed` follows them back:
what was retired and claimed in the name of a project is, for each type of credit, at most what the
verified reports of this project are worth.

The proof charges amounts to reports. `World.basis` names the report a period stands on, whether the
period is closed or still open; a distribution writes the basis of its own period, and nothing else
writes one (`Step.basis`). The report is verified and is about the project of the bond
(`Grounded`). That two periods do not stand on one report is not checked by the contracts, so it is
a condition on the calls: no period is opened on a report that another stands on (`OpensFresh`).
-/

namespace NbsBond

namespace CreditRetirement

open Soroban

/-- The credits a record takes out of circulation. -/
def RetirementRecord.credits (record : RetirementRecord) : CouponEngine.Credits :=
  CouponEngine.bucket (CouponEngine.storageType record.creditType) record.amount

theorem recordRetirement_stored {now : ℕ} {s s' : State} {holder : Address} {b : BondId}
    {projectId : Bytes32} {period : CouponEngine.PeriodInfo} {periodIndex : ℕ} {amount : ℤ}
    {creditType : CreditType} {certificateHash : Bytes32} {id : ℕ}
    (h : recordRetirement now s holder b projectId period periodIndex amount creditType
      certificateHash = .ok (s', id)) :
    ∃ record, s'.retirement.read id = some record ∧ record.bondId = b ∧
      record.projectId = projectId ∧ record.amount = amount ∧ record.creditType = creditType := by
  simp only [recordRetirement, bind_eq_ok, pure_eq_ok, Prod.mk.injEq] at h
  generalize getRetirementCount _ = counted at h
  obtain ⟨_, -, rfl, rfl⟩ := h
  have hstored : ∀ (t : Tiered ℕ RetirementRecord) id record,
      (t.write id record).read id = some record := by
    intro t id record
    rw [Tiered.read_write, Function.update_self]
  exact ⟨_, hstored _ _ _, rfl, rfl, rfl, rfl⟩

/-- The stored record of an accepted retirement. -/
theorem exec_record {now : ℕ} {self : Address} {issuer : BondIssuer.State}
    {engine e : CouponEngine.State} {s s' : State} {signers : List Address} {holder : Address}
    {b : BondId} {projectId : Bytes32} {periodIndex : ℕ} {amount : ℤ} {creditType : CreditType}
    {certificateHash : Bytes32} {nonce id : ℕ}
    (h : exec now self issuer engine s (.retireCredits signers holder b projectId periodIndex amount
      creditType certificateHash nonce) = .ok ((s', e), id)) :
    ∃ record config, s'.retirement.read id = some record ∧ record.bondId = b ∧
      record.projectId = projectId ∧ record.amount = amount ∧ record.creditType = creditType ∧
        0 < amount ∧ issuer.bondConfig b = some config ∧ config.projectId = projectId := by
  simp only [exec, retireCredits, bind_eq_ok, ensure_eq_ok, orTrap_eq_ok, toOption_eq_some,
    pure_eq_ok, Prod.mk.injEq] at h
  obtain ⟨_, -, _, hpositive, _, -, _, -, config, hconfig, _, hproject, _, -, _, -, _, -, _, -,
    _, -, ⟨s₁, id₁⟩, hrecord, ⟨rfl, rfl⟩, rfl⟩ := h
  simp only [BondIssuer.getBond, orError_eq_ok] at hconfig
  obtain ⟨record, hstored, hbond, hprojectId, hamount, htype⟩ := recordRetirement_stored hrecord
  exact ⟨record, config, hstored, hbond, hprojectId, hamount, htype, hpositive, hconfig, hproject⟩

end CreditRetirement

namespace Protocol

open Soroban OracleConsumer CouponEngine CreditRetirement

/-! ### What a period stands on -/

/-- The report a period stands on: the one its open batch names, or its record. -/
def World.basis (w : World) (k : BondId × ℕ) : Option ReportId :=
  match w.engine.batchState k with
  | some batch => some batch.reportId
  | none => (w.engine.periodInfo k).map PeriodInfo.reportId

/-- The period a call opens, with the report it names. -/
def Op.opens (w : World) : Op → Option ((BondId × ℕ) × ReportId)
  | .engine (.distributeCoupon _ b p _ reportId _ _) =>
    if w.engine.batchState (b, p) = none then some ((b, p), reportId) else none
  | _ => none

/-- If the call opens a period, then on a report no other period stands on. -/
def OpensFresh (w : World) (op : Op) : Prop :=
  ∀ k r, op.opens w = some (k, r) → ∀ k', w.basis k' ≠ some r

/-- What is known of the bonds and of the periods, closed and open. -/
structure Grounded (w : World) : Prop where
  /-- A bond is registered with its own project. -/
  registered : ∀ b projectId, w.engine.bondProject b = some projectId →
    ∃ config, w.issuer.bondConfig b = some config ∧ config.projectId = projectId
  /-- A closed period is not open. -/
  exclusive : ∀ k info, w.engine.periodInfo k = some info → w.engine.batchState k = none
  /-- A period stands on a verified report about the project of its bond. -/
  based : ∀ b p r, w.basis (b, p) = some r → ∃ rep config, w.oracle.report r = some rep ∧
    rep.status = .verified ∧ w.issuer.bondConfig b = some config ∧
      config.projectId = rep.projectMetadataHash

section OneCall

variable {now : ℕ} {w w' : World} {op : Op} {ret : Ret}

theorem basis_of_tables (hinfos : w'.engine.periodInfo = w.engine.periodInfo)
    (hbatches : w'.engine.batchState = w.engine.batchState) : w'.basis = w.basis := by
  ext1 k
  rw [World.basis, World.basis, hinfos, hbatches]

/-- What a committed distribution of period `(b, p)` on report `r` does: the period stands on `r`
afterwards, and did so before if it was open. -/
structure Rests (w w' : World) (op : Op) (b : BondId) (p : ℕ) (r : ReportId) : Prop where
  basis : w'.basis = Function.update w.basis (b, p) (some r)
  projects : w'.engine.bondProject = w.engine.bondProject
  exclusive : (∀ k info, w.engine.periodInfo k = some info → w.engine.batchState k = none) →
    ∀ k info, w'.engine.periodInfo k = some info → w'.engine.batchState k = none
  before : w.basis (b, p) = some r ∨ (w.basis (b, p) = none ∧ op.opens w = some ((b, p), r) ∧
    ∃ projectId rep, w.engine.bondProject b = some projectId ∧ w.oracle.report r = some rep ∧
      rep.status = .verified ∧ rep.projectMetadataHash = projectId)

theorem distribute_rests (hP : PeriodInv w) {s : CouponEngine.State} {caller : Address} {b : BondId}
    {p : ℕ} {holders : List (Address × ℤ)} {r : ReportId} {nonce : ℕ} {isFinalBatch : Bool}
    {nonces : Address → ℕ} {result : CouponResult} (hengine : w'.engine = s)
    (h : distribute w.deps { w.engine with nonce := nonces } b p holders r isFinalBatch =
      .ok (s, result)) :
    Rests w w' (.engine (.distributeCoupon caller b p holders r nonce isFinalBatch)) b p r := by
  subst hengine
  obtain ⟨hopen, ⟨hprojects, -⟩, projectId, creditType, progress, batch, hproject, htype, hstart,
    hcontinues, hstored⟩ := distribute_periods h
  have hnone : w.engine.periodInfo (b, p) = none := hP.closed_once hopen
  have hreport : batch.reportId = r := by
    rw [hcontinues.report]
    obtain ⟨-, hreport, -⟩ | ⟨-, -, rep, hO⟩ := startBatch_ok hstart
    · exact hreport
    · exact hO.draws.1
  have hbefore : w.basis (b, p) = some r ∨ (w.basis (b, p) = none ∧
      (Op.engine (.distributeCoupon caller b p holders r nonce isFinalBatch)).opens w =
        some ((b, p), r) ∧ ∃ projectId rep, w.engine.bondProject b = some projectId ∧
          w.oracle.report r = some rep ∧ rep.status = .verified ∧
            rep.projectMetadataHash = projectId) := by
    obtain ⟨hbatch, hreport, -⟩ | ⟨hbatch, -, rep, hO⟩ := startBatch_ok hstart
    · refine .inl ?_
      rw [World.basis, show w.engine.batchState (b, p) = _ from hbatch]
      exact congrArg some hreport
    · have hclosed : w.engine.batchState (b, p) = none := hbatch
      refine .inr ⟨?_, ?_, projectId, rep, hproject, ?_, hO.verified, hO.project⟩
      · rw [World.basis, hclosed, hnone]
        rfl
      · rw [Op.opens, if_pos hclosed]
      · exact World.deps_getReport.mp hO.found
  refine ⟨?_, hprojects, ?_, hbefore⟩
  · ext1 k
    by_cases hk : k = (b, p)
    · subst hk
      rw [Function.update_self, World.basis]
      obtain ⟨-, -, hbatches⟩ | ⟨-, rep, -, hinfos, hbatches⟩ := hstored
      · rw [hbatches, Function.update_self]
        exact congrArg some hreport
      · rw [hbatches, hinfos, Function.update_self, Function.update_self]
        exact congrArg some hreport
    · rw [Function.update_of_ne hk, World.basis, World.basis]
      obtain ⟨-, hinfos, hbatches⟩ | ⟨-, rep, -, hinfos, hbatches⟩ := hstored
      · rw [hinfos, hbatches, Function.update_of_ne hk]
      · rw [hinfos, hbatches, Function.update_of_ne hk, Function.update_of_ne hk]
  · intro hexclusive k info hinfo
    by_cases hk : k = (b, p)
    · subst hk
      obtain ⟨-, hinfos, -⟩ | ⟨-, rep, -, -, hbatches⟩ := hstored
      · rw [hinfos] at hinfo
        exact absurd (hnone.symm.trans hinfo) nofun
      · rw [hbatches, Function.update_self]
    · obtain ⟨-, hinfos, hbatches⟩ | ⟨-, rep, -, hinfos, hbatches⟩ := hstored
      · rw [hinfos] at hinfo
        rw [hbatches, Function.update_of_ne hk]
        exact hexclusive k info hinfo
      · rw [hinfos, Function.update_of_ne hk] at hinfo
        rw [hbatches, Function.update_of_ne hk]
        exact hexclusive k info hinfo

/-- A call leaves the tables of periods alone, and may register a bond with its project, or it
distributes one period. -/
theorem Step.rests (hP : PeriodInv w) (hstep : Step now w op w' ret) :
    (w'.engine.periodInfo = w.engine.periodInfo ∧ w'.engine.batchState = w.engine.batchState ∧
      (w'.engine.bondProject = w.engine.bondProject ∨ ∃ b config,
        w'.engine.bondProject = Function.update w.engine.bondProject b (some config.projectId) ∧
          w.issuer.bondConfig b = some config)) ∨
    ∃ b p r, Rests w w' op b p r := by
  obtain ⟨op', r', rfl, hexec⟩ | ⟨-, hsame⟩ := hstep.tables
  swap
  · exact .inl ⟨hsame.periods.infos, hsame.periods.batches, .inl hsame.projects⟩
  cases exec_tables hexec with
  | frame _ hsame =>
    exact .inl ⟨hsame.periods.infos, hsame.periods.batches, .inl hsame.projects⟩
  | @register _ b projectId _ hcall =>
    simp only [registerBond, bind_eq_ok, orTrap_eq_ok, ensure_eq_ok, pure_eq_ok] at hcall
    obtain ⟨_, -, _, -, config, hconfig, _, rfl, _, -, _, -, hs⟩ := hcall
    refine .inl ⟨?_, ?_, .inr ⟨b, config, ?_, World.deps_getBond.mp hconfig⟩⟩
    · rw [← hs]
    · rw [← hs]
    · rw [← hs]
  | distribute hcall => exact .inr ⟨_, _, _, distribute_rests hP rfl hcall⟩

/-- **One call** keeps bonds and periods grounded. -/
theorem Grounded.step (hG : Grounded w) (hP : PeriodInv w) (hB : BondIssuer.LedgerInv w.issuer)
    (hL : LifeCycle (docket w.oracle)) (hstep : Step now w op w' ret) : Grounded w' := by
  have hregistered : ∀ b projectId, w.engine.bondProject b = some projectId →
      ∃ config, w'.issuer.bondConfig b = some config ∧ config.projectId = projectId := by
    intro b projectId hproject
    obtain ⟨config, hconfig, hsame⟩ := hG.registered b projectId hproject
    exact ⟨config, hstep.keeps_config hB hconfig, hsame⟩
  have hbased : ∀ b p r, w.basis (b, p) = some r → ∃ rep config,
      w'.oracle.report r = some rep ∧ rep.status = .verified ∧
        w'.issuer.bondConfig b = some config ∧ config.projectId = rep.projectMetadataHash := by
    intro b p r hbasis
    obtain ⟨rep, config, hrep, hverified, hconfig, hsame⟩ := hG.based b p r hbasis
    exact ⟨rep, config, hstep.keeps_report hL hrep hverified, hverified,
      hstep.keeps_config hB hconfig, hsame⟩
  obtain ⟨hinfos, hbatches, hprojects⟩ | ⟨b, p, r, hrests⟩ := hstep.rests hP
  · refine ⟨?_, ?_, ?_⟩
    · intro b' projectId hproject
      obtain hprojects | ⟨b, config, hprojects, hconfig⟩ := hprojects
      · rw [hprojects] at hproject
        exact hregistered b' projectId hproject
      · rw [hprojects] at hproject
        by_cases hb : b' = b
        · subst hb
          rw [Function.update_self] at hproject
          cases hproject
          exact ⟨config, hstep.keeps_config hB hconfig, rfl⟩
        · rw [Function.update_of_ne hb] at hproject
          exact hregistered b' projectId hproject
    · rw [hinfos, hbatches]
      exact hG.exclusive
    · rw [basis_of_tables hinfos hbatches]
      exact hbased
  · refine ⟨?_, hrests.exclusive hG.exclusive, ?_⟩
    · rw [hrests.projects]
      exact hregistered
    · intro b' p' r' hbasis
      rw [hrests.basis] at hbasis
      by_cases hk : (b', p') = (b, p)
      · cases hk
        rw [Function.update_self] at hbasis
        cases hbasis
        obtain hbefore | ⟨-, -, projectId, rep, hproject, hrep, hverified, hhash⟩ := hrests.before
        · exact hbased b p r hbefore
        · obtain ⟨config, hconfig, hsame⟩ := hregistered b projectId hproject
          exact ⟨rep, config, hstep.keeps_report hL hrep hverified, hverified, hconfig,
            hsame.trans hhash.symm⟩
      · rw [Function.update_of_ne hk] at hbasis
        exact hbased b' p' r' hbasis

/-- No two periods stand on one report. -/
def World.Apart (w : World) : Prop :=
  ∀ k k' r, w.basis k = some r → w.basis k' = some r → k = k'

theorem apart_step (hA : w.Apart) (hP : PeriodInv w) (hfresh : OpensFresh w op)
    (hstep : Step now w op w' ret) : w'.Apart := by
  obtain ⟨hinfos, hbatches, -⟩ | ⟨b, p, r, hrests⟩ := hstep.rests hP
  · intro k k' r hk hk'
    rw [basis_of_tables hinfos hbatches] at hk hk'
    exact hA k k' r hk hk'
  -- `(b, p)` stands on `r`, and no other period did before
  have hother : ∀ k, k ≠ (b, p) → w.basis k ≠ some r := by
    intro k hne hk
    obtain hbefore | ⟨-, hopens, -⟩ := hrests.before
    · exact hne (hA k (b, p) r hk hbefore)
    · exact hfresh (b, p) r hopens k hk
  intro k k' r' hk hk'
  rw [hrests.basis, Function.update_apply] at hk hk'
  split at hk
  · next hkey =>
    cases hk
    split at hk'
    · next hkey' => exact hkey.trans hkey'.symm
    · next hkey' => exact absurd hk' (hother k' hkey')
  · next hkey =>
    split at hk'
    · cases hk'
      exact absurd hk (hother k hkey)
    · exact hA k k' r' hk hk'

end OneCall

section Runs

variable {h : List Call} {w : World}

theorem basis_initial (hinit : Init w) (k : BondId × ℕ) : w.basis k = none := by
  obtain ⟨admin, hadmin⟩ := hinit.engine
  rw [World.basis, hadmin]
  rfl

theorem grounded_of_run (hrun : Run h w) : Grounded w := by
  refine hrun.induction (P := fun _ w => Grounded w) ?_ ?_
  · intro w hinit
    obtain ⟨admin, hadmin⟩ := hinit.engine
    refine ⟨?_, ?_, ?_⟩
    · intro b projectId hproject
      rw [hadmin] at hproject
      cases hproject
    · intro k info hinfo
      rw [hadmin]
      rfl
    · intro b p r hbasis
      rw [basis_initial hinit] at hbasis
      cases hbasis
  · intro h w t op ret w' hrun _ hexec hG
    exact hG.step (periods_of_run hrun) (ledger_of_run hrun) (lifeCycle_of_run hrun)
      (step_of_exec hexec)

theorem apart_of_run (hrun : Run h w) (hfresh : ∀ c ∈ h, OpensFresh c.pre c.op) : w.Apart := by
  refine hrun.induction (P := fun h w => (∀ c ∈ h, OpensFresh c.pre c.op) → w.Apart) ?_ ?_ hfresh
  · intro w hinit _ k k' r hk _
    rw [basis_initial hinit] at hk
    cases hk
  · intro h w t op ret w' hrun _ hexec ih hfresh
    rw [List.forall_mem_cons] at hfresh
    exact apart_step (ih hfresh.2) (periods_of_run hrun) hfresh.1 (step_of_exec hexec)

end Runs

/-! ### What a report is worth to a project -/

/-- What report `r` is worth to the project with the given metadata hash. -/
def verifiedWorth (w : World) (project : Bytes32) (r : ReportId) : Credits :=
  match w.oracle.report r with
  | some rep =>
    if rep.status = .verified ∧ rep.projectMetadataHash = project then worth rep else 0
  | none => 0

/-- A bond that finances the project. -/
def World.finances (w : World) (project : Bytes32) (b : BondId) : Bool :=
  (w.issuer.bondConfig b).any fun config => config.projectId = project

/-- What a committed retirement in the name of the project retired. -/
def retiredFor (project : Bytes32) (c : Call) : Credits :=
  match newRecord c with
  | some record => if record.projectId = project then record.credits else 0
  | none => 0

/-- What a committed claim on a bond of the project paid out. -/
def claimedFor (w : World) (project : Bytes32) (c : Call) : Credits :=
  match c.op, c.ret with
  | .engine (.claimCredits _ b _), .engine (.claimed receipt) =>
    if w.finances project b then receipt.credits else 0
  | _, _ => 0

section Worth

variable {now : ℕ} {w w' : World} {op : Op} {ret : Ret} {h : List Call} {project : Bytes32}

theorem verifiedWorth_nonneg (hL : LifeCycle (docket w.oracle)) (r : ReportId) :
    0 ≤ verifiedWorth w project r := by
  unfold verifiedWorth
  split
  · next rep hrep =>
    split
    · exact World.worth_nonneg hL (World.deps_getReport.mpr hrep)
    · exact le_rfl
  · exact le_rfl

/-- What a bond draws from a report is, for each type, at most what the report is worth. -/
theorem creditTotals_le {creditType : CreditType} {report : Report} {t : Credits}
    (hworth : 0 ≤ worth report) (h : creditTotals creditType report = .ok t) :
    t ≤ worth report := by
  obtain ⟨-, hcarbon, hbio⟩ := creditTotals_ok h
  constructor
  · rcases hcarbon with h | h
    · exact h.le
    · rw [h]
      exact hworth.1
  · rcases hbio with h | h
    · exact h.le
    · rw [h]
      exact hworth.2

/-- **A period has brought about at most what its report is worth.** Either nothing has come of it,
or it has a report of the project to draw on. -/
theorem period_covered (hL : LifeCycle (docket w.oracle)) (hP : PeriodInv w) (hG : Grounded w)
    (hS : Solvent (fun _ => True) w.engine) {b : BondId} (hb : w.finances project b = true)
    (p : ℕ) :
    issued w b p + running w.engine b p ≤ 0 ∨ ∃ r ∈ Finset.range (w.oracle.reportCount + 1),
      w.basis (b, p) = some r ∧
        issued w b p + running w.engine b p ≤ verifiedWorth w project r := by
  cases hbasis : w.basis (b, p) with
  | none =>
    refine .inl ?_
    have hclosed : w.engine.batchState (b, p) = none := by
      unfold World.basis at hbasis
      split at hbasis
      · cases hbasis
      · next hnone => exact hnone
    have hnone : w.engine.periodInfo (b, p) = none := by
      rw [World.basis, hclosed] at hbasis
      exact Option.map_eq_none_iff.mp hbasis
    rw [issued_none hnone, running, hclosed]
    exact le_rfl
  | some r =>
    obtain ⟨rep, config, hrep, hverified, hconfig, hsame⟩ := hG.based b p r hbasis
    have hproject : rep.projectMetadataHash = project := by
      rw [World.finances, hconfig, Option.any_some, decide_eq_true_eq] at hb
      exact hsame.symm.trans hb
    have hworth : 0 ≤ worth rep := World.worth_nonneg hL (World.deps_getReport.mpr hrep)
    have hvalue : verifiedWorth w project r = worth rep := by
      unfold verifiedWorth
      rw [hrep]
      exact if_pos ⟨hverified, hproject⟩
    have hstored : r < w.oracle.reportCount + 1 := by
      by_contra hlt
      have hunused : w.oracle.report r = none := hL.fresh r (not_lt.mp hlt)
      exact absurd (hunused.symm.trans hrep) nofun
    refine .inr ⟨r, Finset.mem_range.mpr hstored, rfl, ?_⟩
    rw [hvalue]
    cases hbatch : w.engine.batchState (b, p) with
    | none =>
      -- closed: the record was computed from the report
      rw [World.basis, hbatch] at hbasis
      obtain ⟨info, hinfo, rfl⟩ := Option.map_eq_some_iff.mp hbasis
      obtain ⟨report, t, hrecorded⟩ := hP.infos b p info hinfo
      have hreport : report = rep :=
        Option.some.inj (hrecorded.backed.found.symm.trans hrep)
      subst hreport
      obtain ⟨creditType, -, hcredits⟩ := hrecorded.backed.credits
      rw [hrecorded.backed.issued hinfo, running, hbatch]
      exact (add_zero t).trans_le (creditTotals_le hworth hcredits)
    | some batch =>
      -- open: what its batches have paid is at most what it was opened with
      rw [World.basis, hbatch] at hbasis
      cases hbasis
      have hnone : w.engine.periodInfo (b, p) = none := by
        by_contra hsome
        obtain ⟨info, hinfo⟩ := Option.ne_none_iff_exists'.mp hsome
        exact absurd ((hG.exclusive (b, p) info hinfo).symm.trans hbatch) nofun
      obtain ⟨report, hbacked, -⟩ := hP.batches b p batch hbatch
      have hreport : report = rep := Option.some.inj (hbacked.found.symm.trans hrep)
      subst hreport
      obtain ⟨creditType, -, hcredits⟩ := hbacked.credits
      obtain ⟨creditType', supply, processed, -, -, hB⟩ := hS.batches b p batch hbatch
      obtain ⟨hcovers, hpaid⟩ := hB.covered trivial
      have hle : soFar batch ≤ totals batch := hcovers.le_total hB.within hpaid
      rw [issued_none hnone, running, hbatch, zero_add]
      exact hle.trans (creditTotals_le hworth hcredits)

/-! ### What a call takes out -/

theorem bucket_nonneg {creditType : CreditType} {amount : ℤ} (h : 0 ≤ amount) :
    0 ≤ bucket creditType amount := by
  cases creditType with
  | carbon => exact ⟨h, le_rfl⟩
  | biodiversity => exact ⟨le_rfl, h⟩
  | basket | blueCarbon => exact le_rfl

/-- The bond a holder takes credits of. -/
def Op.takes : Op → Option BondId
  | .engine (.claimCredits _ b _) => some b
  | .retirement (.retireCredits _ _ b _ _ _ _ _ _) => some b
  | _ => none

theorem newRecord_of_ne (hstep : Step now w op w' ret) (hop : op.retiresCredits = none) :
    newRecord ⟨now, w, op, ret, w'⟩ = none := by
  cases hstep.ledger with
  | other _ hrecord _ _ => exact hrecord
  | retire _ _ hretires _ _ _ _ _ => exact absurd (hop.symm.trans hretires) nofun

/-- A retirement retires what it deducts, for the project of its bond. -/
theorem retired_of_step (project : Bytes32) {signers : List Address} {holder : Address}
    {b : BondId} {projectId : Bytes32} {periodIndex : ℕ} {amount : ℤ} {creditType : CreditType}
    {certificateHash : Bytes32} {nonce : ℕ}
    (hop : op = .retirement (.retireCredits signers holder b projectId periodIndex amount creditType
      certificateHash nonce)) (hstep : Step now w op w' ret) :
    (∃ config, w.issuer.bondConfig b = some config ∧ config.projectId = projectId) ∧
      retiredFor project ⟨now, w, op, ret, w'⟩ =
        if projectId = project then bucket (storageType creditType) amount else 0 := by
  cases hstep with
  | @retirement op' s e id h =>
    cases hop
    obtain ⟨record, config, hstored, -, hrecordProject, hamount, htype, -, hconfig, hproject⟩ :=
      CreditRetirement.exec_record h
    refine ⟨⟨config, hconfig, hproject⟩, ?_⟩
    have hrecord : newRecord ⟨now, w, .retirement (.retireCredits signers holder b projectId
        periodIndex amount creditType certificateHash nonce), .retirement id,
        { w with retirement := s, engine := e }⟩ = some record := hstored
    rw [retiredFor, hrecord]
    dsimp only
    rw [hrecordProject, RetirementRecord.credits, hamount, htype]
  | issuer _ | registry _ _ _ | oracle _ | engine _ => cases hop

/-- What a call retires and claims for a project was taken on bonds of this project. -/
theorem taken_le {final : World} (hkeeps : ∀ b config, w.issuer.bondConfig b = some config →
      final.issuer.bondConfig b = some config) {bonds : Finset BondId}
    (hbonds : ∀ b, op.takes = some b → (b ∈ bonds ↔ final.finances project b = true))
    (hstep : Step now w op w' ret) :
    retiredFor project ⟨now, w, op, ret, w'⟩ + claimedFor final project ⟨now, w, op, ret, w'⟩ ≤
      ∑ b ∈ bonds, (claimedIn b ⟨now, w, op, ret, w'⟩ + deductedIn b ⟨now, w, op, ret, w'⟩) := by
  -- a retirement of nothing
  have hnothing : op.retiresCredits = none → retiredFor project ⟨now, w, op, ret, w'⟩ = 0 := by
    intro hop
    rw [retiredFor, newRecord_of_ne hstep hop]
  rw [Finset.sum_add_distrib]
  cases op with
  | issuer _ | registry _ _ | oracle _ =>
    rw [hnothing rfl]
    simp [claimedFor, claimedIn, deductedIn]
  | retirement op =>
    cases op with
    | extendRetirementTtl _ | totalRetirements =>
      rw [hnothing rfl]
      simp [claimedFor, claimedIn, deductedIn]
    | retireCredits signers holder b projectId periodIndex amount creditType certificateHash
        nonce =>
      obtain ⟨⟨config, hconfig, hproject⟩, hretired⟩ := retired_of_step project rfl hstep
      have hfinances : final.finances project b = true ↔ projectId = project := by
        rw [World.finances, hkeeps b config hconfig, Option.any_some, decide_eq_true_eq, hproject]
      have hmem : b ∈ bonds ↔ projectId = project := (hbonds b rfl).trans hfinances
      have hdeducted : ∑ b' ∈ bonds, deductedIn b' ⟨now, w, .retirement (.retireCredits signers
          holder b projectId periodIndex amount creditType certificateHash nonce), ret, w'⟩ =
          if projectId = project then bucket (storageType creditType) amount else 0 := by
        simp only [deductedIn, Finset.sum_ite_eq', hmem]
      rw [hretired, hdeducted]
      simp [claimedFor, claimedIn]
  | engine op =>
    rw [hnothing rfl, zero_add]
    cases op with
    | registerBond | distributeCoupon | sweepUndistributed | registerDeductCaller =>
      simp [claimedFor, claimedIn, deductedIn]
    | claimCredits caller b nonce =>
      cases ret with
      | engine ret =>
        cases ret with
        | claimed receipt =>
          simp only [claimedFor, claimedIn, deductedIn, Finset.sum_ite_eq', Finset.sum_const_zero,
            add_zero, hbonds b rfl]
          exact le_rfl
        | unit | coupon _ | swept _ | remaining _ => simp [claimedFor, claimedIn, deductedIn]
      | issuer _ | registry _ | oracle _ | retirement _ => simp [claimedFor, claimedIn, deductedIn]
    | deductCredits signers b holder amount creditType =>
      -- a direct deduction counts for nobody
      have hpositive : 0 < amount := by
        cases hstep with
        | engine h =>
          simp only [CouponEngine.exec, CouponEngine.deductCredits, bind_eq_ok, ensure_eq_ok] at h
          obtain ⟨_, ⟨_, -, _, -, _, hpositive, -⟩, -⟩ := h
          exact hpositive
      have hnonneg : 0 ≤ ∑ b' ∈ bonds, deductedIn b'
          ⟨now, w, .engine (.deductCredits signers b holder amount creditType), ret, w'⟩ := by
        refine Finset.sum_nonneg fun b' _ => ?_
        simp only [deductedIn]
        split
        · exact bucket_nonneg hpositive.le
        · exact le_rfl
      simpa [claimedFor, claimedIn] using hnonneg

/-! ### The run -/

theorem retired_sum (project : Bytes32) (h : List Call) :
    (((newRecords h).filter fun record => record.projectId = project).map
      RetirementRecord.credits).sum = (h.map (retiredFor project)).sum := by
  induction h with
  | nil => rfl
  | cons c h ih =>
    rw [newRecords_cons, List.filter_append, List.map_append, List.sum_append, ih, List.map_cons,
      List.sum_cons, add_comm, retiredFor]
    cases newRecord c with
    | none => simp
    | some record =>
      by_cases hproject : record.projectId = project
      · simp [hproject]
      · simp [hproject]

/-- What was claimed and deducted on a bond was minted on it. -/
theorem taken_le_minted (hrun : Run h w)
    (hexact : ∀ c ∈ h, Exact (fun _ => True) c.pre c.op) (b : BondId) :
    (h.map fun c => claimedIn b c + deductedIn b c).sum ≤ minted w b := by
  have hA := (solvent_of_run trivial hrun hexact).accounts
  obtain ⟨-, hbalance⟩ := minted_of_run hrun (fun _ => trivial) hexact b
  have hstock : 0 ≤ stock w.engine b :=
    add_nonneg (finsum_nonneg fun a => hA.nonneg b a) (hA.dustNonneg b)
  rw [List.sum_map_add, ← hbalance, add_assoc]
  exact le_add_of_nonneg_left hstock

/-- The periods that were closed or opened on a bond are finitely many. -/
theorem minted_eq_sum (hrun : Run h w) (hexact : ∀ c ∈ h, Exact (fun _ => True) c.pre c.op)
    (bonds : Finset BondId) : ∃ periods : Finset ℕ, ∀ b ∈ bonds,
      minted w b = ∑ p ∈ periods, (issued w b p + running w.engine b p) := by
  have hissued : ∀ b, (issued w b).support.Finite :=
    fun b => (minted_of_run hrun (fun _ => trivial) hexact b).1
  have hrunning := (solvent_of_run trivial hrun hexact).finite
  refine ⟨bonds.biUnion fun b => (hissued b).toFinset ∪ (hrunning b).toFinset, fun b hb => ?_⟩
  have hclosed : (issued w b).support ⊆
      ↑(bonds.biUnion fun b => (hissued b).toFinset ∪ (hrunning b).toFinset) := by
    intro p hp
    exact Finset.mem_biUnion.mpr
      ⟨b, hb, Finset.mem_union_left _ ((hissued b).mem_toFinset.mpr hp)⟩
  have hopen : (running w.engine b).support ⊆
      ↑(bonds.biUnion fun b => (hissued b).toFinset ∪ (hrunning b).toFinset) := by
    intro p hp
    exact Finset.mem_biUnion.mpr
      ⟨b, hb, Finset.mem_union_right _ ((hrunning b).mem_toFinset.mpr hp)⟩
  rw [minted, finsum_eq_sum_of_support_subset _ hclosed, finsum_eq_sum_of_support_subset _ hopen,
    Finset.sum_add_distrib]

/-- **Backing.** In every run in which the products of every opened period fit and no period is
opened on a report that another one stands on: what was retired for a project, together with what
was claimed on its bonds, is for each type of credit at most what the verified reports of the
project are worth. -/
theorem project_backed (hrun : Run h w) (hexact : ∀ c ∈ h, Exact (fun _ => True) c.pre c.op)
    (hfresh : ∀ c ∈ h, OpensFresh c.pre c.op) (project : Bytes32) :
    (((newRecords h).filter fun record => record.projectId = project).map
        RetirementRecord.credits).sum + (h.map (claimedFor w project)).sum ≤
      ∑ r ∈ Finset.range (w.oracle.reportCount + 1), verifiedWorth w project r := by
  have hL := lifeCycle_of_run hrun
  have hS := solvent_of_run (P := fun _ => True) trivial hrun hexact
  let bonds : Finset BondId :=
    (h.filterMap fun c => c.op.takes).toFinset.filter fun b => w.finances project b = true
  have hcall : ∀ c ∈ h, retiredFor project c + claimedFor w project c ≤
      ∑ b ∈ bonds, (claimedIn b c + deductedIn b c) := by
    intro c hc
    obtain ⟨h', hpast, hexec⟩ := hrun.of_mem hc
    refine taken_le ?_ ?_ (step_of_exec hexec)
    · intro b config hconfig
      refine hrun.stable (P := fun w => w.issuer.bondConfig b = some config) ?_ hc
        ((step_of_exec hexec).keeps_config (ledger_of_run hpast) hconfig)
      intro h t w op ret w' hrun hconfig hexec
      exact (step_of_exec hexec).keeps_config (ledger_of_run hrun) hconfig
    · intro b hb
      have hmem : b ∈ (h.filterMap fun c => c.op.takes).toFinset :=
        List.mem_toFinset.mpr (List.mem_filterMap.mpr ⟨c, hc, hb⟩)
      simp only [bonds, Finset.mem_filter, hmem, true_and]
  obtain ⟨periods, hperiods⟩ := minted_eq_sum hrun hexact bonds
  calc _ = (h.map fun c => retiredFor project c + claimedFor w project c).sum := by
        rw [retired_sum, List.sum_map_add]
    _ ≤ ∑ b ∈ bonds, (h.map fun c => claimedIn b c + deductedIn b c).sum :=
        Charging.sum_le_by_account hcall
    _ ≤ ∑ b ∈ bonds, minted w b :=
        Finset.sum_le_sum fun b _ => taken_le_minted hrun hexact b
    _ = ∑ k ∈ bonds ×ˢ periods, (issued w k.1 k.2 + running w.engine k.1 k.2) := by
        rw [Finset.sum_product]
        exact Finset.sum_congr rfl hperiods
    _ ≤ _ := by
        refine Charging.sum_le_of_charge w.basis (verifiedWorth_nonneg hL) ?_
          (apart_of_run hrun hfresh)
        rintro ⟨b, p⟩ hk
        have hb : w.finances project b = true :=
          (Finset.mem_filter.mp (Finset.mem_product.mp hk).1).2
        exact period_covered hL (periods_of_run hrun) (grounded_of_run hrun) hS hb p

/-- Some call opened each period. -/
theorem opened_of_run (hrun : Run h w) : ∀ k r, w.basis k = some r →
    ∃ c ∈ h, (c.op.opens c.pre).map Prod.snd = some r := by
  refine hrun.induction (P := fun h w => ∀ k r, w.basis k = some r →
    ∃ c ∈ h, (c.op.opens c.pre).map Prod.snd = some r) ?_ ?_
  · intro w hinit k r hbasis
    rw [basis_initial hinit] at hbasis
    cases hbasis
  · intro h w t op ret w' hrun _ hexec ih k r hbasis
    have hbefore : w.basis k = some r → ∃ c ∈ ⟨t, w, op, ret, w'⟩ :: h,
        (c.op.opens c.pre).map Prod.snd = some r := by
      intro hbasis
      obtain ⟨c, hc, hopens⟩ := ih k r hbasis
      exact ⟨c, List.mem_cons_of_mem _ hc, hopens⟩
    obtain ⟨hinfos, hbatches, -⟩ | ⟨b, p, r', hrests⟩ :=
      (step_of_exec hexec).rests (periods_of_run hrun)
    · rw [basis_of_tables hinfos hbatches] at hbasis
      exact hbefore hbasis
    · rw [hrests.basis, Function.update_apply] at hbasis
      split at hbasis
      · next hkey =>
        subst hkey
        cases hbasis
        obtain hsame | ⟨-, hopens, -⟩ := hrests.before
        · exact hbefore hsame
        · exact ⟨_, List.mem_cons_self, congrArg (Option.map Prod.snd) hopens⟩
      · exact hbefore hbasis

/-- The condition can be read off the calls: no two of them open a period on one report. -/
theorem opensFresh_of_nodup (hrun : Run h w)
    (hdistinct : (h.filterMap fun c => (c.op.opens c.pre).map Prod.snd).Nodup) :
    ∀ c ∈ h, OpensFresh c.pre c.op := by
  intro c hc k r hopens k' hbasis
  obtain ⟨h₁, h₂, rfl⟩ := List.append_of_mem hc
  obtain ⟨d, hd, hopened⟩ := opened_of_run hrun.past.1 k' r hbasis
  have hnames : (c.op.opens c.pre).map Prod.snd = some r := by
    rw [hopens]
    rfl
  rw [List.filterMap_append, List.filterMap_cons] at hdistinct
  simp only [hnames] at hdistinct
  have hnew := (List.nodup_cons.mp (List.nodup_append.mp hdistinct).2.1).1
  exact hnew (List.mem_filterMap.mpr ⟨d, hd, hopened⟩)

end Worth

/-- Two holders of a bond, one of which retires carbon credits and one of which claims; a second
period is open. -/
theorem project_backed_basket : ∃ h w, Run h w ∧
    (((newRecords h).filter fun record => record.projectId = 7).map RetirementRecord.credits).sum =
      (4, 0) ∧ (h.map (claimedFor w 7)).sum = (5, 2) ∧
    (4, 0) + (5, 2) ≤ ∑ r ∈ Finset.range 3, verifiedWorth w 7 r := by
  let ops : List (ℕ × Op) := (onboard ⟨0⟩ ⟨5⟩ ⟨1⟩ ⟨2⟩ ⟨100⟩ ⟨102⟩ 7).append
    [(1, .oracle (.submitReport ⟨1⟩ 1 0 10 12000 (.present 5 0 0) "VM0007" 3 0)),
      (1, .oracle (.verifyReport ⟨2⟩ 1 0)),
      (1, .oracle (.submitReport ⟨1⟩ 1 10 20 8000 (.present 2 0 0) "VM0007" 4 1)),
      (1, .oracle (.verifyReport ⟨2⟩ 2 1)),
      (1, .issuer (.issueBond ⟨0⟩ ⟨7, 1000, [50], .basket, 9000000, 100⟩ 0)),
      (1, .issuer (.subscribe ⟨8⟩ 1 3 0)),
      (1, .issuer (.subscribe ⟨9⟩ 1 4 0)),
      (1, .engine (.registerBond ⟨0⟩ 1 7 0)),
      (1, .engine (.registerDeductCaller ⟨0⟩ ⟨101⟩ 1)),
      (2, .engine (.distributeCoupon ⟨0⟩ 1 0 [(⟨8⟩, 3)] 1 2 false)),
      (2, .engine (.distributeCoupon ⟨0⟩ 1 0 [(⟨9⟩, 4)] 1 3 true)),
      (2, .engine (.claimCredits ⟨8⟩ 1 0)),
      (2, .retirement (.retireCredits [] ⟨9⟩ 1 7 0 4 .blueCarbon 6 0)),
      (2, .engine (.distributeCoupon ⟨0⟩ 1 1 [(⟨8⟩, 3)] 2 4 false))]
  have hplay : (machine.play [] (deploy ⟨0⟩ ⟨100⟩ ⟨101⟩ ⟨102⟩) ops).map (fun x =>
      ((((newRecords x.1).filter fun record => record.projectId = 7).map
          RetirementRecord.credits).sum, (x.1.map (claimedFor x.2 7)).sum, x.2.oracle.reportCount,
        (x.1.filterMap fun c => (c.op.opens c.pre).map Prod.snd),
        x.1.all fun c => Exact (fun _ => True) c.pre c.op)) =
      some ((4, 0), (5, 2), 2, [2, 1], true) := by decide
  obtain ⟨h, w, hrun, hview⟩ := Run.of_play (Init.deploy ⟨0⟩ ⟨100⟩ ⟨101⟩ ⟨102⟩) hplay
  simp only [Prod.mk.injEq] at hview
  obtain ⟨hretired, hclaimed, hcount, hopened, hall⟩ := hview
  have hexact : ∀ c ∈ h, Exact (fun _ => True) c.pre c.op := by
    intro c hc
    exact of_decide_eq_true (List.all_eq_true.mp hall c hc)
  have hfresh := opensFresh_of_nodup hrun (by rw [hopened]; decide)
  have hbacked := project_backed hrun hexact hfresh 7
  rw [hretired, hclaimed, hcount] at hbacked
  exact ⟨h, w, hrun, hretired, hclaimed, hbacked⟩

end Protocol
end NbsBond
