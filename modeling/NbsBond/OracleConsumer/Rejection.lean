import NbsBond.OracleConsumer.Revocation
import NbsBond.OracleConsumer.Stakes

/-!
# What comes with a rejection

A report is rejected when the open challenge on it is decided against it. The call that decides it
takes the report, the provider and, in the configured registry, the project together
(`Move.rejection`): there is no rejected report whose project the same call has not revoked, as long
as a registry is configured. On the other side `submitReport_approved` is what a later submission
would need of that project.
-/

namespace NbsBond
namespace OracleConsumer

open Soroban Int128

section Rejection

variable {now : ℕ} {own : Address} {regs regs' : Registries} {s s' : State} {op : Op}

/-- Recording a vote touches neither the registry nor its nonce. -/
theorem Revokes.of_cast {c : Council} {r : ReportId} {a : Address} {uphold : Bool} {projectId : ℕ}
    (h : Revokes own (c.cast r a uphold) projectId regs regs') :
    Revokes own c projectId regs regs' := by
  cases h with
  | unconfigured hregistry => exact .unconfigured hregistry
  | revoked hregistry hdeployed hrevoke => exact .revoked hregistry hdeployed hrevoke

/-- A decision that marks the challenge of `r` is about `r`, rejects it, and revokes its project. -/
theorem Verdict.rejection {c : Council} {q : ReportId} {rep : Report} {ch : Challenge}
    {resolution : ReportStatus}
    (hverdict : Verdict now own regs regs' (OracleConsumer.docket s) c s' q rep ch resolution)
    {r : ReportId} (hbefore : ¬ MarkedRejected s r) (hafter : MarkedRejected s' r) :
    s.report r = some rep ∧ (∃ rep', s'.report r = some rep' ∧ rep'.status = .rejected) ∧
      Revokes own c rep.projectId regs regs' := by
  have hopen := not_markedRejected_of_open hverdict.challenge hverdict.opened
  rw [markedRejected_write hopen hverdict.challenge_eq] at hafter
  obtain ⟨hr, -, hresolution⟩ := hafter.resolve_left hbefore
  subst hr
  have hreport : s'.report =
      Function.update s.report r (some (resolvedReport now rep resolution)) := by
    show (OracleConsumer.docket s').report = _
    rw [hverdict.docket, Docket.resolve_report]
    rfl
  have houtcome := hverdict.outcome
  generalize council s' = c' at houtcome
  cases houtcome with
  -- upheld: the mark would be that of the other verdict
  | upheld =>
    exact absurd hresolution (show discriminant .verified ≠ discriminant .rejected by decide)
  | rejected _ hrevokes =>
    refine ⟨hverdict.report, ⟨resolvedReport now rep .rejected, ?_, rfl⟩, hrevokes⟩
    rw [hreport, Function.update_self]

/-- **A rejection** takes the report and its project in one call. If the revocation fails, so does
the whole call, and the report stays. -/
theorem Move.rejection (hmove : Move now own regs regs' s s' op) (hU : Unmarked s) {r : ReportId}
    (hbefore : ¬ MarkedRejected s r) (hafter : MarkedRejected s' r) :
    ∃ rep, s.report r = some rep ∧ (∃ rep', s'.report r = some rep' ∧ rep'.status = .rejected) ∧
      Revokes own (council s) rep.projectId regs regs' := by
  -- a call that leaves the challenges alone marks none
  have hkept : s'.challenge = s.challenge → False := by
    intro hchallenge
    unfold MarkedRejected at hbefore hafter
    rw [hchallenge] at hafter
    exact hbefore hafter
  cases hmove with
  | idle _ _ hchallenge _ _ => exact (hkept hchallenge).elim
  | @challenge _ q _ _ hnew _ _ hchallenge _ _ =>
    -- a new challenge is open
    have hunmarked : ¬ MarkedRejected s q := by
      rintro ⟨ch, hch, -⟩
      rw [hnew] at hch
      cases hch
    rw [markedRejected_write hunmarked hchallenge] at hafter
    exact nomatch (hafter.resolve_left hbefore).2.1
  | rule _ hverdict => exact ⟨_, hverdict.rejection hbefore hafter⟩
  | concur _ _ hverdict =>
    obtain ⟨hrep, hrejected, hrevokes⟩ := hverdict.rejection hbefore hafter
    exact ⟨_, hrep, hrejected, hrevokes.of_cast⟩
  | expire hch hopen _ hchallenge _ _ =>
    -- a lapsed challenge keeps the resolution of an open one
    rw [markedRejected_write (not_markedRejected_of_open hch hopen) hchallenge] at hafter
    have hresolution := (hafter.resolve_left hbefore).2.2
    exact absurd ((hU _ _ hch hopen).symm.trans hresolution) (by decide)
  | register _ _ hamends | remove _ _ hamends | vote _ _ hamends | setThreshold _ _ hamends
  | addStake _ _ _ hamends | withdrawStake _ _ _ _ hamends | depositBond _ _ hamends
  | withdrawBond _ _ hamends | setRegistry _ hamends | propose _ hamends | cancel _ _ hamends
  | accept _ _ _ hamends => exact (hkept (congrArg Docket.challenge hamends.docket)).elim

end Rejection

/-- A report is accepted for a project that the configured registry has as approved. -/
theorem submitReport_approved {now : ℕ} {own : Address} {regs regs' : Registries} {s s' : State}
    {provider : Address} {projectId periodStart periodEnd : ℕ} {carbonSequestered : ℤ}
    {biodiversity : BiodiversityMetrics} {methodology : String} {ipfsEvidenceHash : Bytes32}
    {nonce : ℕ} {ret : Option ReportId}
    (h : exec now own regs s (.submitReport provider projectId periodStart periodEnd
      carbonSequestered biodiversity methodology ipfsEvidenceHash nonce) = .ok ((s', regs'), ret)) :
    ∃ registryId registry project, s.projectRegistry = some registryId ∧
      regs registryId = some registry ∧ registry.project projectId = some project ∧
      project.status = .approved := by
  simp only [exec, submitReport, bind_eq_ok, orError_eq_ok, ensure_eq_ok, pure_eq_ok,
    Prod.mk.injEq] at h
  obtain ⟨_, ⟨_, -, _, -, _, -, _, -, _, -, registryId, hconfigured, linkage, hlinkage, _, hstatus,
    -⟩, -⟩ := h
  unfold projectLinkage at hlinkage
  split at hlinkage
  · cases hlinkage
  next registry hregistry =>
  split at hlinkage
  · next found hfound =>
    cases hlinkage
    simp only [ProjectRegistry.getProjectLinkage, bind_eq_ok, orError_eq_ok, pure_eq_ok] at hfound
    obtain ⟨project, hproject, rfl⟩ := hfound
    exact ⟨registryId, registry, project, hconfigured, hregistry, hproject, hstatus⟩
  · cases hlinkage
  · cases hlinkage

end OracleConsumer
end NbsBond
