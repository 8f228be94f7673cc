import NbsBond.OracleConsumer.Indices
import NbsBond.Protocol.Stakes
import NbsBond.Protocol.Windows

/-!
# The indices of reports in the running protocol

The oracle's getters answer from indices that are kept beside the reports and the challenges. In
every run they are exact (`indices_exact`): what a getter lists is what is stored, and nothing that
is stored is missing. The counters of `get_provider_stats` are then in order too: a provider has no
more slashes than challenged reports, and no more of these than reports.
-/

namespace NbsBond
namespace Protocol

open Soroban OracleConsumer Windows Indexing

/-- The indices are exact along every run. -/
theorem indexed_of_run {h : List Call} {w : World} (hrun : Run h w) : Indexed w.oracle := by
  refine hrun.induction (P := fun _ w => Indexed w.oracle) ?_ ?_
  · intro w hinit
    obtain ⟨admin, hadmin⟩ := hinit.oracle
    rw [hadmin]
    exact Indexed.initial admin
  · intro h w t op ret w' hrun _ hexec hI
    cases step_of_exec hexec with
    | oracle horacle =>
      exact hI.step (lifeCycle_of_run hrun) (OracleConsumer.step_of_exec horacle)
        (exec_indices horacle)
    | issuer _ => exact hI
    | registry _ _ _ => exact hI
    | engine _ => exact hI
    | retirement _ => exact hI

/-- The reports of a provider. -/
def reportsOf (s : OracleConsumer.State) (v : Address) : Set ReportId :=
  {r | ∃ rep, s.report r = some rep ∧ rep.provider = v}

theorem mem_reportsOf {s : OracleConsumer.State} {v : Address} {r : ReportId} :
    r ∈ reportsOf s v ↔ providerOf s r = some v :=
  Option.map_eq_some_iff.symm

/-- What the getters answer about provider `v`, whose statistics are `stats`. -/
structure ProviderIndexed (s : OracleConsumer.State) (v : Address) (stats : ProviderStats) :
    Prop where
  /-- The history holds exactly the challenges of the provider's reports, each once. -/
  history : ∀ ch, ch ∈ getChallengeHistory s v ↔
    s.challenge ch.reportId = some ch ∧ ch.reportId ∈ reportsOf s v
  once : ((getChallengeHistory s v).map Challenge.reportId).Nodup
  submitted : stats.reportsSubmitted = (reportsOf s v).ncard
  faced : stats.challengesFaced = (getChallengeHistory s v).length
  slashes_le : stats.slashes ≤ stats.challengesFaced
  faced_le : stats.challengesFaced ≤ stats.reportsSubmitted

/-- The counters of `get_provider_stats` count what is stored. -/
theorem providerIndexed_of_run {h : List Call} {w : World} (hrun : Run h w) {v : Address}
    {stats : ProviderStats} (hstats : getProviderStats w.oracle v = .ok stats) :
    ProviderIndexed w.oracle v stats := by
  have hI := indexed_of_run hrun
  have hS := slashed_of_run hrun
  have hreports := (windowInv_of_run hrun).indexes_providers (lifeCycle_of_run hrun)
  have hids := hI.getChallengeHistory_ids v
  simp only [getProviderStats, bind_eq_ok, pure_eq_ok] at hstats
  obtain ⟨p, -, rfl⟩ := hstats
  refine ⟨fun ch => ?_, ?_, ?_, ?_, ?_, ?_⟩
  · rw [hI.mem_getChallengeHistory, mem_reportsOf]
  · rw [hids]
    exact hI.challenges.distinct v
  · have hset : reportsOf w.oracle v =
        {r | r ∈ listed w.oracle.reportCount (providerOf w.oracle) v} := by
      ext r
      exact mem_reportsOf.trans (hreports.mem_iff v r).symm
    rw [hset, ← List.coe_toFinset, Set.ncard_coe_finset,
      List.toFinset_card_of_nodup (hreports.distinct v)]
    exact hI.providers v
  · rw [← hids, List.length_map]
  · -- every slash was for a challenged report of the provider
    show (w.oracle.slashHistory v).length ≤ (w.oracle.providerChallenges v).length
    rw [← List.length_map (f := SlashRecord.reportId)]
    refine hI.challenges.length_le_of_mem (hS.distinct v) fun r hr => ?_
    obtain ⟨⟨ch, hch, -⟩, hreport⟩ := (hS.named v r).mp hr
    rw [challengedOf_eq_some, hch]
    exact ⟨Option.some_ne_none ch, mem_reportsOf.mp hreport⟩
  · show (w.oracle.providerChallenges v).length ≤ w.oracle.providerReportCount v
    rw [hI.providers v]
    exact hI.challenges.length_le hreports (fun r u hr => (challengedOf_eq_some.mp hr).2) v

/-- **The indices are exact.** In every run, `get_project_reports` lists the reports of the project
in the order in which they were submitted, none missing; the windows kept to refuse overlaps are the
last of theirs; and `get_challenge_history` and `get_provider_stats` state the challenges of the
provider's reports, each once, and how many reports, challenges and slashes there are. -/
theorem indices_exact {h : List Call} {w : World} (hrun : Run h w) :
    (∀ projectId, getProjectReports w.oracle projectId =
      (List.range' 1 w.oracle.reportCount).filter fun r => projectOf w.oracle r = some projectId) ∧
    (∀ projectId, w.oracle.projectReportPeriods projectId = recent maxPeriodHistory
      ((getProjectReports w.oracle projectId).filterMap fun r =>
        (w.oracle.report r).map Report.window)) ∧
    ∀ v stats, getProviderStats w.oracle v = .ok stats → ProviderIndexed w.oracle v stats := by
  have hI := indexed_of_run hrun
  refine ⟨fun projectId => congrFun hI.projects projectId, fun projectId => ?_,
    fun v stats hstats => providerIndexed_of_run hrun hstats⟩
  rw [← hI.windows_eq]
  exact (windowInv_of_run hrun).indexed projectId

/-- Two challenged reports, the first of them rejected. -/
theorem indices_exact_first_rejection : ∃ h w stats, Run h w ∧
    getProjectReports w.oracle 1 = [1, 2] ∧
    getProviderStats w.oracle ⟨1⟩ = .ok stats ∧ ProviderIndexed w.oracle ⟨1⟩ stats ∧
    stats.slashes = 1 ∧ stats.challengesFaced = 2 ∧ stats.reportsSubmitted = 2 := by
  let ops : List (ℕ × Op) := challengedReports.append
    [(3, .oracle (.resolveChallenge ⟨0⟩ 1 .rejected 3))]
  have hplay : (machine.play [] (deploy ⟨0⟩ ⟨100⟩ ⟨101⟩ ⟨102⟩) ops).map
      (fun x => decide (x.2.oracle.reportCount = 2 ∧ projectOf x.2.oracle 1 = some 1 ∧
        projectOf x.2.oracle 2 = some 1 ∧ getProviderStats x.2.oracle ⟨1⟩ =
          .ok ⟨2, 2, 1, 100, 900, true⟩)) = some true := by decide
  obtain ⟨h, w, hrun, hview⟩ := Run.of_play (Init.deploy ⟨0⟩ ⟨100⟩ ⟨101⟩ ⟨102⟩) hplay
  obtain ⟨hcount, hfirst, hsecond, hstats⟩ := of_decide_eq_true hview
  obtain ⟨hprojects, -, hproviders⟩ := indices_exact hrun
  refine ⟨h, w, _, hrun, ?_, hstats, hproviders _ _ hstats, rfl, rfl, rfl⟩
  rw [hprojects, hcount]
  simp [List.range', hfirst, hsecond]

end Protocol
end NbsBond
