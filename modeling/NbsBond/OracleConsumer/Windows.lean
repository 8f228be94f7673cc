import NbsBond.Framework.Windows
import NbsBond.OracleConsumer.LifeCycle

/-!
# The time windows of reports

A report covers a window `[period_start, period_end)`. The contract keeps, per project, the
`MAX_PERIOD_HISTORY` most recent windows, refuses a report that overlaps one of them, and refuses a
report that begins before the last one ended. `WindowInv` is what this buys: the windows of all
reports ever submitted for a project are chronological, in particular disjoint from those that have
been evicted from the index, because the index always ends with the last window.

The index is keyed by the project's numeric id. Reports with one metadata hash can carry several
ids, and `HashInv` says what remains to be asked of a submission for them (`exec_windows` names the
hash a submission writes).
-/

namespace NbsBond
namespace OracleConsumer

open Soroban Int128 Windows

/-- The window a report covers. -/
def Report.window (rep : Report) : ℕ × ℕ := (rep.periodStart, rep.periodEnd)

/-- The window of report `r`, if it is one of the project's. -/
def windowOf (reports : ReportId → Option Report) (projectId : ℕ) (r : ReportId) :
    Option (ℕ × ℕ) :=
  (reports r).bind fun rep => if rep.projectId = projectId then some rep.window else none

/-- The windows of all reports ever submitted for a project, in submission order. -/
def windows (s : State) (projectId : ℕ) : List (ℕ × ℕ) :=
  (List.range' 1 s.reportCount).filterMap (windowOf s.report projectId)

theorem windowOf_eq_some {reports : ReportId → Option Report} {projectId : ℕ} {r : ReportId}
    {w : ℕ × ℕ} : windowOf reports projectId r = some w ↔
      ∃ rep, reports r = some rep ∧ rep.projectId = projectId ∧ rep.window = w := by
  unfold windowOf
  rw [Option.bind_eq_some_iff]
  constructor
  · rintro ⟨rep, hrep, hw⟩
    split at hw
    · next hid => exact ⟨rep, hrep, hid, Option.some.inj hw⟩
    · cases hw
  · rintro ⟨rep, hrep, hid, rfl⟩
    exact ⟨rep, hrep, if_pos hid⟩

/-! ### What a call does to the windows -/

section Periods

variable (s : State)

theorem releaseReportLock_periods (v : Address) (r : ReportId) :
    (releaseReportLock s v r).projectReportPeriods = s.projectReportPeriods := by
  unfold releaseReportLock
  dsimp only
  split <;> rfl

theorem settleChallengeBond_periods (a : Address) (bond : ℤ) (refund : Bool) :
    (settleChallengeBond s a bond refund).projectReportPeriods = s.projectReportPeriods := by
  unfold settleChallengeBond
  dsimp only
  split
  · rfl
  · split <;> rfl

theorem addVerifier_periods (r : ReportId) (a : Address) :
    (addVerifier s r a).projectReportPeriods = s.projectReportPeriods := by
  unfold addVerifier
  dsimp only
  split <;> rfl

theorem verifyIfReached_periods (now : ℕ) (r : ReportId) (rep : Report) :
    (verifyIfReached now s r rep).projectReportPeriods = s.projectReportPeriods := by
  unfold verifyIfReached
  split
  · exact releaseReportLock_periods _ _ _
  · rfl

theorem addVote_periods (r : ReportId) (a : Address) (uphold : Bool) :
    (addVote s r a uphold).projectReportPeriods = s.projectReportPeriods := by
  unfold addVote
  split <;> rfl

end Periods

theorem punish_periods {now : ℕ} {self : Address} {regs regs' : Registries} {s s' : State}
    {rep : Report} {r : ReportId} {resolution : ReportStatus}
    (h : punish now self regs s rep r resolution = .ok (s', regs')) :
    s'.projectReportPeriods = s.projectReportPeriods := by
  unfold punish at h
  split at h
  swap
  · cases h
    rfl
  simp only [slashProvider, revokeProject, bind_eq_ok, pure_eq_ok] at h
  obtain ⟨s₁, ⟨p, -, rfl⟩, h⟩ := h
  split at h
  · cases h
    rfl
  · simp only [bind_eq_ok, pure_eq_ok, Prod.mk.injEq] at h
    obtain ⟨_, -, _, -, rfl, -⟩ := h
    rfl

theorem finalizeChallenge_periods {now : ℕ} {self : Address} {regs regs' : Registries}
    {s s' : State} {r : ReportId} {resolution : ReportStatus}
    (h : finalizeChallenge now self regs s r resolution = .ok (s', regs')) :
    s'.projectReportPeriods = s.projectReportPeriods := by
  simp only [finalizeChallenge, bind_eq_ok] at h
  obtain ⟨ch, -, h⟩ := h
  split at h
  · cases h
    rfl
  simp only [bind_eq_ok, pure_eq_ok, Prod.mk.injEq] at h
  obtain ⟨rep, -, ⟨s₁, regs₁⟩, hpunish, rfl, -⟩ := h
  rw [settleChallengeBond_periods, punish_periods hpunish, releaseReportLock_periods]

/-- The project and the window of a submission. -/
def Op.submits : Op → Option (ℕ × ℕ × ℕ)
  | .submitReport _ projectId periodStart periodEnd _ _ _ _ _ =>
    some (projectId, periodStart, periodEnd)
  | _ => none

/-- The window a call claims for a project, if any. -/
def Op.claims (projectId : ℕ) (op : Op) : List (ℕ × ℕ) :=
  match op.submits with
  | some (q, window) => if q = projectId then [window] else []
  | none => []

/-- The effect of a committed call on the index of windows and on the reports behind it. -/
inductive WindowStep (regs : Registries) (s s' : State) : Op → Prop
  /-- No report is new; the index stays. -/
  | same {op : Op} (hop : op.submits = none)
      (hperiods : s'.projectReportPeriods = s.projectReportPeriods)
      (hcount : s'.reportCount = s.reportCount)
      (hnone : ∀ r, s.report r = none → s'.report r = none) : WindowStep regs s s' op
  /-- A new report of a project the configured registry knows, after the last window. -/
  | submit {provider : Address} {projectId periodStart periodEnd : ℕ} {carbonSequestered : ℤ}
      {biodiversity : BiodiversityMetrics} {methodology : String} {ipfsEvidenceHash : Bytes32}
      {nonce : ℕ} {registryId : Address} {project : ProjectRegistry.ProjectLinkage} {rep : Report}
      (hconfigured : s.projectRegistry = some registryId)
      (hlinkage : projectLinkage regs registryId projectId = .ok project)
      (hid : rep.projectId = projectId) (hhash : rep.projectMetadataHash = project.metadataIpfsHash)
      (hwindow : rep.window = (periodStart, periodEnd)) (hproper : periodStart < periodEnd)
      (hlast : ∀ w ∈ (s.projectReportPeriods projectId).getLast?, w.2 ≤ periodStart)
      (hcount : s'.reportCount = s.reportCount + 1)
      (hreport : s'.report = Function.update s.report (s.reportCount + 1) (some rep))
      (hperiods : s'.projectReportPeriods = Function.update s.projectReportPeriods projectId
        (pushPeriod (s.projectReportPeriods projectId) (periodStart, periodEnd))) :
      WindowStep regs s s' (.submitReport provider projectId periodStart periodEnd
        carbonSequestered biodiversity methodology ipfsEvidenceHash nonce)

/-- No call but a submission brings a report onto an unused id, or moves the counter. -/
theorem Step.no_new_report {now : ℕ} {s : State} {d : Docket} {op : Op} (hstep : Step now s d op)
    (hop : op.submits = none) :
    d.count = s.reportCount ∧ ∀ r, s.report r = none → d.report r = none := by
  -- a report that is rewritten was there before
  have hwrite : ∀ {r₀ : ReportId} {rep rep' : Report}, s.report r₀ = some rep →
      ∀ r, s.report r = none → Function.update s.report r₀ (some rep') r = none := by
    intro r₀ rep rep' hrep r hr
    rw [Function.update_of_ne]
    · exact hr
    · rintro rfl
      rw [hrep] at hr
      cases hr
  cases hstep with
  | frame _ hd =>
    subst hd
    exact ⟨rfl, fun _ h => h⟩
  | submit => cases hop
  | sign _ _ _ _ _ hd =>
    subst hd
    rw [Docket.sign_count, Docket.sign_report]
    exact ⟨rfl, fun _ h => h⟩
  | verify _ hrep _ _ _ _ hd =>
    subst hd
    rw [Docket.release_count, Docket.release_report]
    simp only [Docket.setReport, Docket.sign_count, Docket.sign_report]
    exact ⟨rfl, hwrite hrep⟩
  | override _ _ hrep _ hd =>
    subst hd
    exact ⟨rfl, hwrite hrep⟩
  | challenge _ hrep _ _ hd =>
    subst hd
    exact ⟨rfl, hwrite hrep⟩
  | resolve _ _ _ hrep _ hd =>
    subst hd
    rw [Docket.resolve_count, Docket.resolve_report]
    exact ⟨rfl, hwrite hrep⟩
  | expire _ _ hrep _ hd =>
    subst hd
    rw [Docket.settleBond_count, Docket.settleBond_report]
    exact ⟨rfl, hwrite hrep⟩

/-- **What a call can do to the windows.** -/
theorem exec_windows {now : ℕ} {self : Address} {regs regs' : Registries} {s s' : State} {op : Op}
    {ret : Option ReportId} (h : exec now self regs s op = .ok ((s', regs'), ret)) :
    WindowStep regs s s' op := by
  have hdocket := step_of_exec h
  cases op with
  | submitReport provider projectId periodStart periodEnd carbonSequestered biodiversity
      methodology ipfsEvidenceHash nonce =>
    simp only [exec, submitReport, bind_eq_ok, orError_eq_ok, ensure_eq_ok, pure_eq_ok,
      Prod.mk.injEq] at h
    obtain ⟨⟨s₁, r₁⟩, ⟨_, -, p, -, _, -, _, ⟨hproper, -⟩, _, -, registryId, hconfigured, project,
      hlinkage, _, -, _, -, _, hlast, rfl, -⟩, ⟨rfl, -⟩, -⟩ := h
    let rep : Report := ⟨s.reportCount + 1, provider, projectId, project.metadataIpfsHash,
      periodStart, periodEnd, carbonSequestered, biodiversity, methodology, ipfsEvidenceHash,
      .pending, now, 0⟩
    have hid : rep.projectId = projectId := rfl
    exact .submit hconfigured hlinkage hid rfl rfl hproper hlast rfl rfl rfl
  | verifyReport caller r nonce =>
    simp only [exec, verifyReport, bind_eq_ok, pure_eq_ok, Prod.mk.injEq] at h
    obtain ⟨_, ⟨p, -, _, -, _, -, rep, -, _, -, _, -, _, -, rfl⟩, ⟨rfl, -⟩, -⟩ := h
    obtain ⟨hcount, hnone⟩ := hdocket.no_new_report rfl
    refine .same rfl ?_ hcount hnone
    rw [verifyIfReached_periods, addVerifier_periods]
  | adminOverrideReport caller r status nonce =>
    simp only [exec, adminOverrideReport, bind_eq_ok, pure_eq_ok, Prod.mk.injEq] at h
    obtain ⟨_, ⟨_, -, _, -, _, -, rep, -, _, -, rfl⟩, ⟨rfl, -⟩, -⟩ := h
    obtain ⟨hcount, hnone⟩ := hdocket.no_new_report rfl
    exact .same rfl rfl hcount hnone
  | challengeReport challenger r hash nonce =>
    simp only [exec, challengeReport, chargeChallengeBond, bind_eq_ok, pure_eq_ok,
      Prod.mk.injEq] at h
    obtain ⟨_, ⟨_, -, _, -, rep, -, _, -, _, -, _, -, s₁, ⟨_, -, rfl⟩, rfl⟩, ⟨rfl, -⟩, -⟩ := h
    obtain ⟨hcount, hnone⟩ := hdocket.no_new_report rfl
    exact .same rfl rfl hcount hnone
  | resolveChallenge caller r resolution nonce =>
    simp only [exec, resolveChallenge, bind_eq_ok, pure_eq_ok, Prod.mk.injEq] at h
    obtain ⟨⟨s₁, regs₁⟩, ⟨nonces, -, _, -, _, -, hfinal⟩, ⟨rfl, -⟩, -⟩ := h
    obtain ⟨hcount, hnone⟩ := hdocket.no_new_report rfl
    refine .same rfl ?_ hcount hnone
    rw [finalizeChallenge_periods hfinal]
  | resolveChallengeByVerifier caller r uphold nonce =>
    simp only [exec, resolveChallengeByVerifier, bind_eq_ok, pure_eq_ok, Prod.mk.injEq] at h
    obtain ⟨⟨s₁, regs₁⟩, ⟨nonces, -, _, -, _, -, _, -, _, -, _, -, _, -, _, -, _, -, _, -, h⟩,
      ⟨rfl, -⟩, -⟩ := h
    obtain ⟨hcount, hnone⟩ := hdocket.no_new_report rfl
    refine .same rfl ?_ hcount hnone
    split at h
    · rw [finalizeChallenge_periods h, addVote_periods]
    · cases h
      rw [addVote_periods]
  | expireStaleChallenge r =>
    simp only [exec, expireStaleChallenge, bind_eq_ok, pure_eq_ok, Prod.mk.injEq] at h
    obtain ⟨s₁, ⟨ch, -, h⟩, ⟨rfl, -⟩, -⟩ := h
    obtain ⟨hcount, hnone⟩ := hdocket.no_new_report rfl
    refine .same rfl ?_ hcount hnone
    split at h
    · cases h
      rfl
    · simp only [bind_eq_ok, pure_eq_ok] at h
      obtain ⟨_, -, rep, -, _, -, rfl⟩ := h
      rw [settleChallengeBond_periods]
  | registerProvider caller provider methodology nonce =>
    simp only [exec, registerProvider, bind_eq_ok, pure_eq_ok, Prod.mk.injEq] at h
    obtain ⟨_, ⟨_, -, _, -, _, -, rfl⟩, ⟨rfl, -⟩, -⟩ := h
    exact .same rfl rfl rfl fun _ h => h
  | removeProvider caller provider nonce =>
    simp only [exec, removeProvider, bind_eq_ok, pure_eq_ok, Prod.mk.injEq] at h
    obtain ⟨_, ⟨_, -, _, -, _, -, rfl⟩, ⟨rfl, -⟩, -⟩ := h
    exact .same rfl rfl rfl fun _ h => h
  | setSignatureThreshold caller threshold nonce =>
    simp only [exec, setSignatureThreshold, bind_eq_ok, pure_eq_ok, Prod.mk.injEq] at h
    obtain ⟨_, ⟨_, -, _, -, _, -, rfl⟩, ⟨rfl, -⟩, -⟩ := h
    exact .same rfl rfl rfl fun _ h => h
  | addStake provider amount nonce =>
    simp only [exec, addStake, bind_eq_ok, pure_eq_ok, Prod.mk.injEq] at h
    obtain ⟨_, ⟨_, -, _, -, _, -, _, -, rfl⟩, ⟨rfl, -⟩, -⟩ := h
    exact .same rfl rfl rfl fun _ h => h
  | withdrawStake provider amount nonce =>
    simp only [exec, withdrawStake, bind_eq_ok, pure_eq_ok, Prod.mk.injEq] at h
    obtain ⟨_, ⟨_, -, _, -, _, -, _, -, _, -, rfl⟩, ⟨rfl, -⟩, -⟩ := h
    exact .same rfl rfl rfl fun _ h => h
  | depositChallengeBond caller amount nonce =>
    simp only [exec, depositChallengeBond, bind_eq_ok, pure_eq_ok, Prod.mk.injEq] at h
    obtain ⟨_, ⟨_, -, _, -, _, -, rfl⟩, ⟨rfl, -⟩, -⟩ := h
    exact .same rfl rfl rfl fun _ h => h
  | withdrawChallengeBond caller amount nonce =>
    simp only [exec, withdrawChallengeBond, bind_eq_ok, pure_eq_ok, Prod.mk.injEq] at h
    obtain ⟨_, ⟨_, -, _, -, _, -, rfl⟩, ⟨rfl, -⟩, -⟩ := h
    exact .same rfl rfl rfl fun _ h => h
  | setProjectRegistry caller registryId nonce =>
    simp only [exec, setProjectRegistry, bind_eq_ok, pure_eq_ok, Prod.mk.injEq] at h
    obtain ⟨_, ⟨_, -, _, -, rfl⟩, ⟨rfl, -⟩, -⟩ := h
    exact .same rfl rfl rfl fun _ h => h
  | proposeAdminTransfer caller candidate nonce =>
    simp only [exec, proposeAdminTransfer, bind_eq_ok, pure_eq_ok, Prod.mk.injEq] at h
    obtain ⟨_, ⟨_, -, _, -, rfl⟩, ⟨rfl, -⟩, -⟩ := h
    exact .same rfl rfl rfl fun _ h => h
  | cancelAdminTransfer caller nonce =>
    simp only [exec, cancelAdminTransfer, bind_eq_ok, pure_eq_ok, Prod.mk.injEq] at h
    obtain ⟨_, ⟨_, -, _, -, rfl⟩, ⟨rfl, -⟩, -⟩ := h
    exact .same rfl rfl rfl fun _ h => h
  | acceptAdminTransfer caller nonce =>
    simp only [exec, acceptAdminTransfer, bind_eq_ok, pure_eq_ok, Prod.mk.injEq] at h
    obtain ⟨_, ⟨_, -, _, -, rfl⟩, ⟨rfl, -⟩, -⟩ := h
    exact .same rfl rfl rfl fun _ h => h

/-! ### Windows of one project -/

/-- The windows of every project are chronological, and the index holds the recent ones. -/
structure WindowInv (s : State) : Prop where
  /-- Ids start at one. -/
  started : s.report 0 = none
  proper : ∀ projectId, ∀ w ∈ windows s projectId, w.1 ≤ w.2
  chronological : ∀ projectId, Chronological (windows s projectId)
  indexed : ∀ projectId,
    s.projectReportPeriods projectId = recent maxPeriodHistory (windows s projectId)

theorem WindowInv.initial (admin : Address) : WindowInv (construct admin) where
  started := rfl
  proper _ _ hw := absurd hw List.not_mem_nil
  chronological _ := List.Pairwise.nil
  indexed _ := by
    unfold recent
    exact List.drop_nil.symm

/-- A call that rewrites reports without touching what they say leaves the windows alone. -/
theorem windows_congr {s s' : State} (hcount : s'.reportCount = s.reportCount)
    (hreport : ∀ r projectId, windowOf s'.report projectId r = windowOf s.report projectId r)
    (projectId : ℕ) : windows s' projectId = windows s projectId := by
  unfold windows
  rw [hcount]
  exact List.filterMap_congr fun r _ => hreport r projectId

/-- The windows after a submission. -/
theorem windows_submit {s s' : State} {rep : Report}
    (hcount : s'.reportCount = s.reportCount + 1)
    (hreport : s'.report = Function.update s.report (s.reportCount + 1) (some rep))
    (projectId : ℕ) : windows s' projectId =
      windows s projectId ++ if rep.projectId = projectId then [rep.window] else [] := by
  -- the earlier reports are found where they were
  have hold : ∀ r ∈ List.range' 1 s.reportCount,
      windowOf s'.report projectId r = windowOf s.report projectId r := by
    intro r hr
    rw [List.mem_range'_1] at hr
    have hne : r ≠ s.reportCount + 1 := by omega
    unfold windowOf
    rw [hreport, Function.update_of_ne hne]
  have hnew : windowOf s'.report projectId (1 + s.reportCount) =
      if rep.projectId = projectId then some rep.window else none := by
    unfold windowOf
    rw [hreport, Nat.add_comm, Function.update_self]
    rfl
  unfold windows
  rw [hcount, List.range'_1_concat, List.filterMap_append, List.filterMap_congr hold]
  congr 1
  rw [List.filterMap_cons, List.filterMap_nil, hnew]
  split <;> simp_all

/-- A call adds the window it claims, and changes none of the others. -/
theorem WindowStep.windows_eq {now : ℕ} {regs : Registries} {s s' : State} {op : Op}
    (hL : LifeCycle (docket s)) (hdocket : Step now s (docket s') op)
    (hstep : WindowStep regs s s' op) (projectId : ℕ) :
    windows s' projectId = windows s projectId ++ op.claims projectId := by
  unfold Op.claims
  cases hstep with
  | same hop _ hcount hnone =>
    rw [hop, List.append_nil]
    refine windows_congr hcount (fun r q => ?_) projectId
    -- a report that is rewritten keeps its project and its window
    unfold windowOf
    cases hrep : s.report r with
    | none => rw [hnone r hrep]
    | some rep =>
      obtain ⟨rep', hrep', hsame, -⟩ := hdocket.report_change hL hrep
      change s'.report r = some rep' at hrep'
      unfold SameReport at hsame
      rw [hrep', hsame]
      rfl
  | submit _ _ hid _ hwindow _ _ hcount hreport _ =>
    rw [windows_submit hcount hreport, hid, hwindow]
    rfl

/-- **One call** keeps the windows in order. -/
theorem WindowInv.step {now : ℕ} {regs : Registries} {s s' : State} {op : Op} (hW : WindowInv s)
    (hL : LifeCycle (docket s)) (hdocket : Step now s (docket s') op)
    (hstep : WindowStep regs s s' op) : WindowInv s' := by
  have hwindows := hstep.windows_eq hL hdocket
  unfold Op.claims at hwindows
  cases hstep with
  | same hop hperiods hcount hnone =>
    simp only [hop, List.append_nil] at hwindows
    refine ⟨hnone 0 hW.started, ?_, ?_, ?_⟩
    · intro projectId
      rw [hwindows]
      exact hW.proper projectId
    · intro projectId
      rw [hwindows]
      exact hW.chronological projectId
    · intro projectId
      rw [hwindows, hperiods]
      exact hW.indexed projectId
  | @submit _ projectId periodStart periodEnd _ _ _ _ _ _ _ rep _ _ hid _ hwindow hproper hlast
      hcount hreport hperiods =>
    simp only [Op.submits] at hwindows
    -- the index ends with the last window, so the check against it is one against all
    rw [hW.indexed, getLast?_recent (by decide)] at hlast
    refine ⟨?_, ?_, ?_, ?_⟩
    · rw [hreport, Function.update_of_ne (Nat.succ_ne_zero _).symm]
      exact hW.started
    · intro q w hw
      rw [hwindows, List.mem_append] at hw
      rcases hw with hw | hw
      · exact hW.proper q w hw
      · split at hw
        · rw [List.mem_singleton] at hw
          rw [hw]
          exact hproper.le
        · exact absurd hw List.not_mem_nil
    · intro q
      rw [hwindows]
      split
      · next hq =>
        subst hq
        exact (hW.chronological projectId).concat (hW.proper projectId) hlast
      · rw [List.append_nil]
        exact hW.chronological q
    · intro q
      rw [hwindows, hperiods]
      by_cases hq : q = projectId
      · subst hq
        rw [Function.update_self, if_pos rfl, hW.indexed]
        exact push_recent (by decide) _
      · rw [Function.update_of_ne hq, if_neg (Ne.symm hq), List.append_nil]
        exact hW.indexed q

/-- Reports on record have ids from one to the counter. -/
theorem WindowInv.mem_range {s : State} (hW : WindowInv s) (hL : LifeCycle (docket s))
    {r : ReportId} {rep : Report} (hrep : s.report r = some rep) :
    r ∈ List.range' 1 s.reportCount := by
  have hpos : r ≠ 0 := by
    rintro rfl
    rw [hW.started] at hrep
    cases hrep
  have hle : r ≤ s.reportCount := by
    by_contra hlt
    have hfresh : s.report r = none := hL.fresh r (not_le.mp hlt)
    rw [hfresh] at hrep
    cases hrep
  rw [List.mem_range'_1, Nat.add_comm]
  exact ⟨Nat.one_le_iff_ne_zero.mpr hpos, Nat.lt_succ_of_le hle⟩

/-- The window of every report on record is among its project's windows. -/
theorem WindowInv.mem_windows {s : State} (hW : WindowInv s) (hL : LifeCycle (docket s))
    {r : ReportId} {rep : Report} (hrep : s.report r = some rep) :
    rep.window ∈ windows s rep.projectId :=
  List.mem_filterMap.mpr
    ⟨r, hW.mem_range hL hrep, windowOf_eq_some.mpr ⟨rep, hrep, rfl, rfl⟩⟩

/-! ### Windows of one metadata hash -/

/-- The windows of two reports do not overlap. -/
def Report.Apart (rep rep' : Report) : Prop :=
  Disjoint (Set.Ico rep.periodStart rep.periodEnd) (Set.Ico rep'.periodStart rep'.periodEnd)

/-- Reports with one metadata hash do not overlap, rejected ones apart. -/
def HashInv (s : State) : Prop :=
  ∀ r r' rep rep', r ≠ r' → s.report r = some rep → s.report r' = some rep' →
    rep.projectMetadataHash = rep'.projectMetadataHash → rep.status ≠ .rejected →
    rep'.status ≠ .rejected → rep.Apart rep'

/-- What the index of windows does not look at: a submission for a project whose metadata hash is
carried by reports of other project ids stays clear of those of them that are not rejected. -/
def Op.ClearOfHash (regs : Registries) (s : State) : Op → Prop
  | .submitReport _ projectId periodStart periodEnd _ _ _ _ _ =>
    ∀ registryId project, s.projectRegistry = some registryId →
      projectLinkage regs registryId projectId = .ok project →
      ∀ r rep, s.report r = some rep → rep.projectMetadataHash = project.metadataIpfsHash →
        rep.projectId ≠ projectId → rep.status ≠ .rejected →
        Disjoint (Set.Ico rep.periodStart rep.periodEnd) (Set.Ico periodStart periodEnd)
  | _ => True

theorem HashInv.initial (admin : Address) : HashInv (construct admin) := by
  intro r r' rep rep' _ hrep
  cases hrep

/-- A report that is new stays clear of all earlier ones of its hash: of those of its own project
by the index, of the others by the condition on the call. -/
theorem WindowInv.new_apart {regs : Registries} {s : State} (hW : WindowInv s)
    (hL : LifeCycle (docket s)) {provider : Address} {projectId periodStart periodEnd : ℕ}
    {carbonSequestered : ℤ} {biodiversity : BiodiversityMetrics} {methodology : String}
    {ipfsEvidenceHash : Bytes32} {nonce : ℕ} {registryId : Address}
    {project : ProjectRegistry.ProjectLinkage} (hconfigured : s.projectRegistry = some registryId)
    (hlinkage : projectLinkage regs registryId projectId = .ok project)
    (hlast : ∀ w ∈ (s.projectReportPeriods projectId).getLast?, w.2 ≤ periodStart)
    (hclear : (Op.submitReport provider projectId periodStart periodEnd carbonSequestered
      biodiversity methodology ipfsEvidenceHash nonce).ClearOfHash regs s)
    {r : ReportId} {rep : Report} (hrep : s.report r = some rep)
    (hhash : rep.projectMetadataHash = project.metadataIpfsHash) (hopen : rep.status ≠ .rejected) :
    Disjoint (Set.Ico rep.periodStart rep.periodEnd) (Set.Ico periodStart periodEnd) := by
  by_cases hid : rep.projectId = projectId
  · subst hid
    -- the index ends with the last window claimed, and no other one ends after it
    rw [hW.indexed, getLast?_recent (by decide)] at hlast
    have hend : rep.periodEnd ≤ periodStart :=
      (hW.chronological _).end_le (hW.proper _) hlast rep.window (hW.mem_windows hL hrep)
    rw [Set.Ico_disjoint_Ico]
    exact (min_le_left _ _).trans (hend.trans (le_max_right _ _))
  · exact hclear registryId project hconfigured hlinkage r rep hrep hhash hid hopen

/-- **One call** that stays clear of the hash keeps the windows of every hash apart. Only a
submission brings a new window. -/
theorem HashInv.step {now : ℕ} {regs : Registries} {s s' : State} {op : Op} (hH : HashInv s)
    (hW : WindowInv s) (hL : LifeCycle (docket s)) (hdocket : Step now s (docket s') op)
    (hstep : WindowStep regs s s' op) (hclear : op.ClearOfHash regs s) : HashInv s' := by
  cases hstep with
  | same _ _ _ hnone =>
    -- every report was there before, said the same and was not rejected either
    have hback : ∀ r rep', s'.report r = some rep' → rep'.status ≠ .rejected →
        ∃ rep, s.report r = some rep ∧ SameReport rep rep' ∧ rep.status ≠ .rejected := by
      intro r rep' hrep' hopen
      cases hrep : s.report r with
      | none =>
        rw [hnone r hrep] at hrep'
        cases hrep'
      | some rep =>
        obtain ⟨rep₁, hrep₁, hsame, hchange⟩ := hdocket.report_change hL hrep
        change s'.report r = some rep₁ at hrep₁
        rw [hrep'] at hrep₁
        cases hrep₁
        refine ⟨rep, rfl, hsame, ?_⟩
        rcases hchange with rfl | hallowed
        · exact hopen
        · exact hallowed.source.2
    intro r r' rep rep' hne hrep hrep' hhash hopen hopen'
    obtain ⟨rep₀, hrep₀, hsame, hopen₀⟩ := hback r rep hrep hopen
    obtain ⟨rep₀', hrep₀', hsame', hopen₀'⟩ := hback r' rep' hrep' hopen'
    unfold SameReport at hsame hsame'
    have hapart := hH r r' rep₀ rep₀' hne hrep₀ hrep₀' (by rw [hsame, hsame'] at hhash; exact hhash)
      hopen₀ hopen₀'
    rw [hsame, hsame']
    exact hapart
  | @submit _ projectId periodStart periodEnd _ _ _ _ _ registryId project new hconfigured hlinkage
      hid hhash hwindow _ hlast hcount hreport _ =>
    obtain ⟨hstart, hend⟩ := Prod.mk.inj hwindow
    intro r r' rep rep' hne hrep hrep' hsame hopen hopen'
    rw [hreport] at hrep hrep'
    by_cases hr : r = s.reportCount + 1
    · have hr' : r' ≠ s.reportCount + 1 := fun h => hne (hr.trans h.symm)
      rw [hr, Function.update_self] at hrep
      rw [Function.update_of_ne hr'] at hrep'
      cases hrep
      have hapart := hW.new_apart hL hconfigured hlinkage hlast hclear hrep'
        (hsame.symm.trans hhash) hopen'
      unfold Report.Apart
      rw [hstart, hend]
      exact hapart.symm
    · rw [Function.update_of_ne hr] at hrep
      by_cases hr' : r' = s.reportCount + 1
      · rw [hr', Function.update_self] at hrep'
        cases hrep'
        have hapart := hW.new_apart hL hconfigured hlinkage hlast hclear hrep
          (hsame.trans hhash) hopen
        unfold Report.Apart
        rw [hstart, hend]
        exact hapart
      · rw [Function.update_of_ne hr'] at hrep'
        exact hH r r' rep rep' hne hrep hrep' hsame hopen hopen'

end OracleConsumer
end NbsBond
