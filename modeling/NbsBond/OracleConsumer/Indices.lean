import NbsBond.Framework.Indexing
import NbsBond.OracleConsumer.Stakes
import NbsBond.OracleConsumer.Windows

/-!
# The indices of reports and challenges

Besides the reports and the challenges themselves the contract keeps the ids of the reports of each
project, the number of reports of each provider, and the ids of the provider's reports that were
challenged; the getters answer from these. Reports are only ever added, under the next id, and never
change their project or provider; a report is challenged at most once, and its challenge is never
removed. So the indices say exactly what the stored reports and challenges say (`Indexed`).
-/

namespace NbsBond
namespace OracleConsumer

open Soroban Int128 Windows Indexing

/-! ### The getters -/

/-- `get_project_reports`. -/
def getProjectReports (s : State) (projectId : ℕ) : List ReportId := s.projectReports projectId

/-- `get_challenge_history`: the challenges that are still stored. -/
def getChallengeHistory (s : State) (provider : Address) : List Challenge :=
  (s.providerChallenges provider).filterMap s.challenge

/-! ### What the indices are about -/

/-- The project of a report. -/
def projectOf (s : State) (r : ReportId) : Option ℕ := (s.report r).map Report.projectId

/-- The provider of a report. -/
def providerOf (s : State) (r : ReportId) : Option Address := (s.report r).map Report.provider

/-- The provider of a report that was challenged. -/
def challengedOf (s : State) (r : ReportId) : Option Address :=
  (s.challenge r).bind fun _ => providerOf s r

theorem challengedOf_eq_some {s : State} {r : ReportId} {v : Address} :
    challengedOf s r = some v ↔ s.challenge r ≠ none ∧ providerOf s r = some v := by
  unfold challengedOf
  cases s.challenge r <;> simp

/-- The indices kept with the reports. -/
structure Indices where
  projectReports : ℕ → List ReportId
  providerReportCount : Address → ℕ
  providerChallenges : Address → List ReportId

/-- The indices of a storage state. -/
def indices (s : State) : Indices where
  projectReports := s.projectReports
  providerReportCount := s.providerReportCount
  providerChallenges := s.providerChallenges

namespace Indices

variable (x : Indices)

/-- Enter a new report. -/
def addReport (r : ReportId) (projectId : ℕ) (provider : Address) : Indices :=
  { x with
    projectReports :=
      Function.update x.projectReports projectId (x.projectReports projectId ++ [r])
    providerReportCount :=
      Function.update x.providerReportCount provider (x.providerReportCount provider + 1) }

/-- Enter a new challenge of a report of `provider`. -/
def addChallenge (r : ReportId) (provider : Address) : Indices :=
  { x with
    providerChallenges :=
      Function.update x.providerChallenges provider (x.providerChallenges provider ++ [r]) }

end Indices

/-! ### The helpers of the contract, on the indices -/

section Helpers

variable (s : State)

theorem indices_releaseReportLock (v : Address) (r : ReportId) :
    indices (releaseReportLock s v r) = indices s := by
  unfold releaseReportLock
  dsimp only
  split <;> rfl

theorem indices_settleChallengeBond (a : Address) (bond : ℤ) (refund : Bool) :
    indices (settleChallengeBond s a bond refund) = indices s := by
  unfold settleChallengeBond
  dsimp only
  split
  · rfl
  · split <;> rfl

theorem indices_addVerifier (r : ReportId) (a : Address) :
    indices (addVerifier s r a) = indices s := by
  unfold addVerifier
  dsimp only
  split <;> rfl

theorem indices_verifyIfReached (now : ℕ) (r : ReportId) (rep : Report) :
    indices (verifyIfReached now s r rep) = indices s := by
  unfold verifyIfReached
  split
  -- a verified report gives its stake lock back
  · exact indices_releaseReportLock _ _ _
  · rfl

theorem indices_addVote (r : ReportId) (a : Address) (uphold : Bool) :
    indices (addVote s r a uphold) = indices s := by
  unfold addVote
  split <;> rfl

end Helpers

theorem indices_punish {now : ℕ} {self : Address} {regs regs' : Registries} {s s' : State}
    {rep : Report} {r : ReportId} {resolution : ReportStatus}
    (h : punish now self regs s rep r resolution = .ok (s', regs')) : indices s' = indices s := by
  unfold punish at h
  split at h
  swap
  · cases h
    rfl
  simp only [slashProvider, revokeProject, bind_eq_ok, pure_eq_ok] at h
  obtain ⟨s₁, ⟨p, -, rfl⟩, h⟩ := h
  split at h
  · cases h
    rfl
  · simp only [bind_eq_ok, pure_eq_ok, Prod.mk.injEq] at h
    obtain ⟨_, -, _, -, rfl, -⟩ := h
    rfl

theorem indices_finalizeChallenge {now : ℕ} {self : Address} {regs regs' : Registries}
    {s s' : State} {r : ReportId} {resolution : ReportStatus}
    (h : finalizeChallenge now self regs s r resolution = .ok (s', regs')) :
    indices s' = indices s := by
  simp only [finalizeChallenge, bind_eq_ok] at h
  obtain ⟨ch, -, h⟩ := h
  split at h
  · cases h
    rfl
  simp only [bind_eq_ok, pure_eq_ok, Prod.mk.injEq] at h
  obtain ⟨rep, -, ⟨s₁, regs₁⟩, hpunish, rfl, -⟩ := h
  rw [indices_settleChallengeBond, indices_punish hpunish, indices_releaseReportLock]
  rfl

/-! ### What a call does to the indices -/

/-- The effect of a committed call on the indices. -/
inductive IndexStep (s s' : State) : Op → Prop
  /-- Neither a report nor a challenge is new. -/
  | same {op : Op} (hop : op.submits = none) (hchallenges : op.challenges = none)
      (hindices : indices s' = indices s) : IndexStep s s' op
  /-- A new report. -/
  | submit {provider : Address} {projectId periodStart periodEnd : ℕ} {carbonSequestered : ℤ}
      {biodiversity : BiodiversityMetrics} {methodology : String} {ipfsEvidenceHash : Bytes32}
      {nonce : ℕ} {rep : Report} (hproject : rep.projectId = projectId)
      (hprovider : rep.provider = provider) (hcount : s'.reportCount = s.reportCount + 1)
      (hreport : s'.report = Function.update s.report (s.reportCount + 1) (some rep))
      (hchallenge : s'.challenge = s.challenge)
      (hindices : indices s' =
        (indices s).addReport (s.reportCount + 1) projectId provider) :
      IndexStep s s' (.submitReport provider projectId periodStart periodEnd carbonSequestered
        biodiversity methodology ipfsEvidenceHash nonce)
  /-- The first challenge of a report. -/
  | challenge {challenger : Address} {r : ReportId} {hash : Bytes32} {nonce : ℕ} {rep : Report}
      {ch : Challenge} (hnew : s.challenge r = none) (hrep : s.report r = some rep)
      (hid : ch.reportId = r) (hchallenge : s'.challenge = Function.update s.challenge r (some ch))
      (hindices : indices s' = (indices s).addChallenge r rep.provider) :
      IndexStep s s' (.challengeReport challenger r hash nonce)

/-- **What a call can do to the indices.** -/
theorem exec_indices {now : ℕ} {self : Address} {regs regs' : Registries} {s s' : State} {op : Op}
    {ret : Option ReportId} (h : exec now self regs s op = .ok ((s', regs'), ret)) :
    IndexStep s s' op := by
  cases op with
  | submitReport provider projectId periodStart periodEnd carbonSequestered biodiversity
      methodology ipfsEvidenceHash nonce =>
    simp only [exec, submitReport, bind_eq_ok, pure_eq_ok, Prod.mk.injEq] at h
    obtain ⟨⟨s₁, r₁⟩, ⟨_, -, p, -, _, -, _, -, _, -, registryId, -, project, -, _, -, _, -, _, -,
      rfl, -⟩, ⟨rfl, -⟩, -⟩ := h
    let rep : Report := ⟨s.reportCount + 1, provider, projectId, project.metadataIpfsHash,
      periodStart, periodEnd, carbonSequestered, biodiversity, methodology, ipfsEvidenceHash,
      .pending, now, 0⟩
    have hproject : rep.projectId = projectId := rfl
    exact .submit hproject rfl rfl rfl rfl rfl
  | verifyReport caller r nonce =>
    simp only [exec, verifyReport, bind_eq_ok, pure_eq_ok, Prod.mk.injEq] at h
    obtain ⟨_, ⟨p, -, _, -, _, -, rep, -, _, -, _, -, _, -, rfl⟩, ⟨rfl, -⟩, -⟩ := h
    refine .same rfl rfl ?_
    rw [indices_verifyIfReached, indices_addVerifier]
    rfl
  | adminOverrideReport caller r status nonce =>
    simp only [exec, adminOverrideReport, bind_eq_ok, pure_eq_ok, Prod.mk.injEq] at h
    obtain ⟨_, ⟨_, -, _, -, _, -, rep, -, _, -, rfl⟩, ⟨rfl, -⟩, -⟩ := h
    exact .same rfl rfl rfl
  | challengeReport challenger r hash nonce =>
    simp only [exec, challengeReport, chargeChallengeBond, bind_eq_ok, ensure_eq_ok, orError_eq_ok,
      pure_eq_ok, Prod.mk.injEq] at h
    obtain ⟨_, ⟨_, -, _, hnew, rep, hrep, _, -, _, -, _, -, s₁, ⟨_, -, rfl⟩, rfl⟩, ⟨rfl, -⟩, -⟩ :=
      h
    let ch : Challenge := ⟨r, challenger, hash, now, false, 0, challengeBond⟩
    have hid : ch.reportId = r := rfl
    exact .challenge hnew hrep hid rfl rfl
  | resolveChallenge caller r resolution nonce =>
    simp only [exec, resolveChallenge, bind_eq_ok, pure_eq_ok, Prod.mk.injEq] at h
    obtain ⟨⟨s₁, regs₁⟩, ⟨nonces, -, _, -, _, -, hfinal⟩, ⟨rfl, -⟩, -⟩ := h
    refine .same rfl rfl ?_
    rw [indices_finalizeChallenge hfinal]
    rfl
  | resolveChallengeByVerifier caller r uphold nonce =>
    simp only [exec, resolveChallengeByVerifier, bind_eq_ok, pure_eq_ok, Prod.mk.injEq] at h
    obtain ⟨⟨s₁, regs₁⟩, ⟨nonces, -, _, -, _, -, _, -, _, -, _, -, _, -, _, -, _, -, _, -, h⟩,
      ⟨rfl, -⟩, -⟩ := h
    refine .same rfl rfl ?_
    split at h
    -- the vote that decides, and one that does not
    · rw [indices_finalizeChallenge h, indices_addVote]
      rfl
    · cases h
      rw [indices_addVote]
      rfl
  | expireStaleChallenge r =>
    simp only [exec, expireStaleChallenge, bind_eq_ok, pure_eq_ok, Prod.mk.injEq] at h
    obtain ⟨s₁, ⟨ch, -, h⟩, ⟨rfl, -⟩, -⟩ := h
    refine .same rfl rfl ?_
    split at h
    · cases h
      rfl
    · simp only [bind_eq_ok, pure_eq_ok] at h
      obtain ⟨_, -, rep, -, _, -, rfl⟩ := h
      rw [indices_settleChallengeBond]
      rfl
  -- none of the others touches an index
  | registerProvider caller provider methodology nonce =>
    simp only [exec, registerProvider, bind_eq_ok, pure_eq_ok, Prod.mk.injEq] at h
    obtain ⟨_, ⟨_, -, _, -, _, -, rfl⟩, ⟨rfl, -⟩, -⟩ := h
    exact .same rfl rfl rfl
  | removeProvider caller provider nonce =>
    simp only [exec, removeProvider, bind_eq_ok, pure_eq_ok, Prod.mk.injEq] at h
    obtain ⟨_, ⟨_, -, _, -, _, -, rfl⟩, ⟨rfl, -⟩, -⟩ := h
    exact .same rfl rfl rfl
  | setSignatureThreshold caller threshold nonce =>
    simp only [exec, setSignatureThreshold, bind_eq_ok, pure_eq_ok, Prod.mk.injEq] at h
    obtain ⟨_, ⟨_, -, _, -, _, -, rfl⟩, ⟨rfl, -⟩, -⟩ := h
    exact .same rfl rfl rfl
  | addStake provider amount nonce =>
    simp only [exec, addStake, bind_eq_ok, pure_eq_ok, Prod.mk.injEq] at h
    obtain ⟨_, ⟨_, -, _, -, _, -, _, -, rfl⟩, ⟨rfl, -⟩, -⟩ := h
    exact .same rfl rfl rfl
  | withdrawStake provider amount nonce =>
    simp only [exec, withdrawStake, bind_eq_ok, pure_eq_ok, Prod.mk.injEq] at h
    obtain ⟨_, ⟨_, -, _, -, _, -, _, -, _, -, rfl⟩, ⟨rfl, -⟩, -⟩ := h
    exact .same rfl rfl rfl
  | depositChallengeBond caller amount nonce =>
    simp only [exec, depositChallengeBond, bind_eq_ok, pure_eq_ok, Prod.mk.injEq] at h
    obtain ⟨_, ⟨_, -, _, -, _, -, rfl⟩, ⟨rfl, -⟩, -⟩ := h
    exact .same rfl rfl rfl
  | withdrawChallengeBond caller amount nonce =>
    simp only [exec, withdrawChallengeBond, bind_eq_ok, pure_eq_ok, Prod.mk.injEq] at h
    obtain ⟨_, ⟨_, -, _, -, _, -, rfl⟩, ⟨rfl, -⟩, -⟩ := h
    exact .same rfl rfl rfl
  | setProjectRegistry caller registryId nonce =>
    simp only [exec, setProjectRegistry, bind_eq_ok, pure_eq_ok, Prod.mk.injEq] at h
    obtain ⟨_, ⟨_, -, _, -, rfl⟩, ⟨rfl, -⟩, -⟩ := h
    exact .same rfl rfl rfl
  | proposeAdminTransfer caller candidate nonce =>
    simp only [exec, proposeAdminTransfer, bind_eq_ok, pure_eq_ok, Prod.mk.injEq] at h
    obtain ⟨_, ⟨_, -, _, -, rfl⟩, ⟨rfl, -⟩, -⟩ := h
    exact .same rfl rfl rfl
  | cancelAdminTransfer caller nonce =>
    simp only [exec, cancelAdminTransfer, bind_eq_ok, pure_eq_ok, Prod.mk.injEq] at h
    obtain ⟨_, ⟨_, -, _, -, rfl⟩, ⟨rfl, -⟩, -⟩ := h
    exact .same rfl rfl rfl
  | acceptAdminTransfer caller nonce =>
    simp only [exec, acceptAdminTransfer, bind_eq_ok, pure_eq_ok, Prod.mk.injEq] at h
    obtain ⟨_, ⟨_, -, _, -, rfl⟩, ⟨rfl, -⟩, -⟩ := h
    exact .same rfl rfl rfl

/-! ### Reports and challenges stay where they were entered -/

section Entries

variable {now : ℕ} {s s' : State} {op : Op}

/-- No call changes the project or the provider of a report. -/
theorem Step.keeps_owner {α : Type} (hL : LifeCycle (docket s)) (hstep : Step now s (docket s') op)
    (hop : op.submits = none) {owner : Report → α}
    (howner : ∀ rep rep', SameReport rep rep' → owner rep' = owner rep) (r : ReportId) :
    (s'.report r).map owner = (s.report r).map owner := by
  cases hrep : s.report r with
  | none =>
    have hnone : s'.report r = none := (hstep.no_new_report hop).2 r hrep
    rw [hnone]
  | some rep =>
    obtain ⟨rep', hrep', hsame, -⟩ := hstep.report_change hL hrep
    change s'.report r = some rep' at hrep'
    rw [hrep', Option.map_some, Option.map_some, howner rep rep' hsame]

theorem Step.keeps_projectOf (hL : LifeCycle (docket s)) (hstep : Step now s (docket s') op)
    (hop : op.submits = none) : projectOf s' = projectOf s := by
  funext r
  refine hstep.keeps_owner hL hop (fun rep rep' hsame => ?_) r
  unfold SameReport at hsame
  rw [hsame]

theorem Step.keeps_providerOf (hL : LifeCycle (docket s)) (hstep : Step now s (docket s') op)
    (hop : op.submits = none) : providerOf s' = providerOf s := by
  funext r
  refine hstep.keeps_owner hL hop (fun rep rep' hsame => ?_) r
  unfold SameReport at hsame
  rw [hsame]

/-- A challenge is stored under the report it names, and keeps naming it. -/
theorem Step.keeps_named (hstep : Step now s (docket s') op)
    (hnamed : ∀ r ch, s.challenge r = some ch → ch.reportId = r) :
    ∀ r ch, s'.challenge r = some ch → ch.reportId = r := by
  -- a call that writes the challenge of `r₀` leaves the others alone
  have hwrite : ∀ {r₀ : ReportId} {ch₀ : Challenge}, ch₀.reportId = r₀ →
      ∀ r ch, Function.update s.challenge r₀ (some ch₀) r = some ch → ch.reportId = r := by
    intro r₀ ch₀ hid r ch hch
    by_cases hr : r = r₀
    · subst hr
      rw [Function.update_self] at hch
      cases hch
      exact hid
    · rw [Function.update_of_ne hr] at hch
      exact hnamed r ch hch
  generalize hd : docket s' = d at hstep
  have hchallenge : s'.challenge = d.challenge := congrArg Docket.challenge hd
  rw [hchallenge]
  cases hstep with
  | frame _ hd =>
    rw [hd]
    exact hnamed
  | submit _ _ _ _ _ _ hd =>
    rw [hd]
    exact hnamed
  | sign _ _ _ _ _ hd =>
    rw [hd, Docket.sign_challenge]
    exact hnamed
  | verify _ _ _ _ _ _ hd =>
    rw [hd, Docket.release_challenge]
    simp only [Docket.setReport, Docket.sign_challenge]
    exact hnamed
  | override _ _ _ _ hd =>
    rw [hd]
    exact hnamed
  | challenge _ _ _ _ hd =>
    rw [hd]
    exact hwrite rfl
  | resolve _ hch _ _ _ hd =>
    rw [hd, Docket.resolve_challenge]
    have hid := hnamed _ _ hch
    exact hwrite hid
  | expire hch _ _ _ hd =>
    rw [hd, Docket.settleBond_challenge]
    have hid := hnamed _ _ hch
    exact hwrite hid

end Entries

/-! ### The invariant -/

/-- The indices say what the reports and challenges say. -/
structure Indexed (s : State) : Prop where
  projects : s.projectReports = listed s.reportCount (projectOf s)
  providers : ∀ v, s.providerReportCount v = (listed s.reportCount (providerOf s) v).length
  challenges : Indexes s.providerChallenges (challengedOf s)
  /-- A challenge is stored under the report it names. -/
  named : ∀ r ch, s.challenge r = some ch → ch.reportId = r

theorem Indexed.initial (admin : Address) : Indexed (construct admin) where
  projects := rfl
  providers _ := rfl
  challenges := Indexes.empty
  named _ _ h := nomatch h

/-- Without a new report the lists and counts of reports stay right. -/
theorem Indexed.keeps_reports {now : ℕ} {s s' : State} {op : Op} (hI : Indexed s)
    (hL : LifeCycle (docket s)) (hdocket : Step now s (docket s') op) (hop : op.submits = none)
    (hprojects : s'.projectReports = s.projectReports)
    (hproviders : s'.providerReportCount = s.providerReportCount) :
    s'.projectReports = listed s'.reportCount (projectOf s') ∧
      ∀ v, s'.providerReportCount v = (listed s'.reportCount (providerOf s') v).length := by
  have hcount : s'.reportCount = s.reportCount := (hdocket.no_new_report hop).1
  rw [hcount, hdocket.keeps_projectOf hL hop, hdocket.keeps_providerOf hL hop, hprojects,
    hproviders]
  exact ⟨hI.projects, hI.providers⟩

/-- **One call** keeps the indices exact. The lists are written with the records, so what is new in
the one is new in the other. -/
theorem Indexed.step {now : ℕ} {s s' : State} {op : Op} (hI : Indexed s)
    (hL : LifeCycle (docket s)) (hdocket : Step now s (docket s') op) (hstep : IndexStep s s' op) :
    Indexed s' := by
  have hnamed := hdocket.keeps_named hI.named
  cases hstep with
  | same hop hchallenges hindices =>
    obtain ⟨hprojects, hproviders⟩ := hI.keeps_reports hL hdocket hop
      (congrArg Indices.projectReports hindices) (congrArg Indices.providerReportCount hindices)
    have hprovider := hdocket.keeps_providerOf hL hop
    have hchallenged : challengedOf s' = challengedOf s := by
      funext r
      refine Option.ext fun v => ?_
      -- the call opens no challenge, and none is ever removed
      obtain ⟨hopened, -⟩ | ⟨-, hnone⟩ := hdocket.challenge_change r
      · rw [hchallenges] at hopened
        cases hopened
      · change s'.challenge r = none ↔ s.challenge r = none at hnone
        rw [challengedOf_eq_some, challengedOf_eq_some, hprovider, Ne, Ne, hnone]
    refine ⟨hprojects, hproviders, ?_, hnamed⟩
    rw [hchallenged, show s'.providerChallenges = s.providerChallenges from
      congrArg Indices.providerChallenges hindices]
    exact hI.challenges
  | @submit provider projectId _ _ _ _ _ _ _ rep hrepProject hrepProvider hcount hreport hchallenge
      hindices =>
    -- the id is new, so nobody has challenged it
    have hunused : s.challenge (s.reportCount + 1) = none :=
      (hL.unused _ (hL.fresh _ (Nat.lt_succ_self _))).1
    have hproject : projectOf s' =
        Function.update (projectOf s) (s.reportCount + 1) (some projectId) := by
      funext r
      unfold projectOf
      rw [hreport, ← hrepProject]
      exact Function.apply_update (fun _ => Option.map Report.projectId) _ _ _ r
    have hprovider : providerOf s' =
        Function.update (providerOf s) (s.reportCount + 1) (some provider) := by
      funext r
      unfold providerOf
      rw [hreport, ← hrepProvider]
      exact Function.apply_update (fun _ => Option.map Report.provider) _ _ _ r
    have hchallenged : challengedOf s' = challengedOf s := by
      funext r
      unfold challengedOf
      rw [hchallenge]
      by_cases hr : r = s.reportCount + 1
      · rw [hr, hunused]
        rfl
      · rw [hprovider, Function.update_of_ne hr]
    refine ⟨?_, fun v => ?_, ?_, hnamed⟩
    · rw [hcount, hproject, listed_succ, ← hI.projects]
      exact congrArg Indices.projectReports hindices
    · rw [hcount, hprovider, listed_succ,
        show s'.providerReportCount v = Function.update s.providerReportCount provider
          (s.providerReportCount provider + 1) v from
          congrFun (congrArg Indices.providerReportCount hindices) v]
      by_cases hv : v = provider
      · subst hv
        rw [Function.update_self, Function.update_self, List.length_append, ← hI.providers]
        rfl
      · rw [Function.update_of_ne hv, Function.update_of_ne hv, hI.providers]
    · rw [hchallenged, show s'.providerChallenges = s.providerChallenges from
        congrArg Indices.providerChallenges hindices]
      exact hI.challenges
  | @challenge _ r₀ _ _ rep ch hnew hrep hid hchallenge hindices =>
    obtain ⟨hprojects, hproviders⟩ := hI.keeps_reports hL hdocket rfl
      (congrArg Indices.projectReports hindices) (congrArg Indices.providerReportCount hindices)
    have hprovider := hdocket.keeps_providerOf hL rfl
    have hreported : providerOf s r₀ = some rep.provider := by
      unfold providerOf
      rw [hrep]
      rfl
    have hunlisted : challengedOf s r₀ = none := by
      unfold challengedOf
      rw [hnew]
      rfl
    have hchallenged : challengedOf s' =
        Function.update (challengedOf s) r₀ (some rep.provider) := by
      funext r
      unfold challengedOf
      rw [hchallenge, hprovider]
      by_cases hr : r = r₀
      · rw [hr, Function.update_self, Function.update_self, Option.bind_some, hreported]
      · rw [Function.update_of_ne hr, Function.update_of_ne hr]
    refine ⟨hprojects, hproviders, ?_, hnamed⟩
    rw [hchallenged, show s'.providerChallenges = Function.update s.providerChallenges
      rep.provider (s.providerChallenges rep.provider ++ [r₀]) from
      congrArg Indices.providerChallenges hindices]
    exact hI.challenges.push hunlisted rep.provider

/-! ### What the getters answer -/

section Getters

variable {s : State}

/-- Every id in the list of a provider has its challenge, under its own id. -/
theorem Indexed.challenge_of_mem (hI : Indexed s) {v : Address} {r : ReportId}
    (hr : r ∈ s.providerChallenges v) : ∃ ch, s.challenge r = some ch ∧ ch.reportId = r := by
  have hchallenged := (hI.challenges.mem_iff v r).mp hr
  rw [challengedOf_eq_some] at hchallenged
  obtain ⟨ch, hch⟩ := Option.ne_none_iff_exists'.mp hchallenged.1
  exact ⟨ch, hch, hI.named r ch hch⟩

/-- No challenge is missing from a history. -/
theorem Indexed.getChallengeHistory_ids (hI : Indexed s) (v : Address) :
    (getChallengeHistory s v).map Challenge.reportId = s.providerChallenges v := by
  have hall : ∀ l : List ReportId,
      (∀ r ∈ l, ∃ ch, s.challenge r = some ch ∧ ch.reportId = r) →
      (l.filterMap s.challenge).map Challenge.reportId = l := by
    intro l hl
    induction l with
    | nil => rfl
    | cons r l ih =>
      obtain ⟨ch, hch, hid⟩ := hl r List.mem_cons_self
      rw [List.filterMap_cons_some hch, List.map_cons, hid,
        ih fun r' hr' => hl r' (List.mem_cons_of_mem r hr')]
  exact hall _ fun r hr => hI.challenge_of_mem hr

theorem Indexed.mem_getChallengeHistory (hI : Indexed s) {v : Address} {ch : Challenge} :
    ch ∈ getChallengeHistory s v ↔
      s.challenge ch.reportId = some ch ∧ providerOf s ch.reportId = some v := by
  unfold getChallengeHistory
  rw [List.mem_filterMap]
  constructor
  · rintro ⟨r, hr, hch⟩
    -- the challenge found under `r` names `r`
    have hid := hI.named r ch hch
    subst hid
    have hchallenged := (hI.challenges.mem_iff v _).mp hr
    exact ⟨hch, (challengedOf_eq_some.mp hchallenged).2⟩
  · rintro ⟨hch, hprovider⟩
    refine ⟨ch.reportId, (hI.challenges.mem_iff v _).mpr ?_, hch⟩
    rw [challengedOf_eq_some, hch]
    exact ⟨Option.some_ne_none ch, hprovider⟩

/-- The reports of the providers, as an index. -/
theorem WindowInv.indexes_providers (hW : WindowInv s) (hL : LifeCycle (docket s)) :
    Indexes (listed s.reportCount (providerOf s)) (providerOf s) := by
  refine indexes_listed fun r hr => ?_
  obtain ⟨rep, hrep⟩ : ∃ rep, s.report r = some rep := by
    rw [← Option.ne_none_iff_exists']
    intro hnone
    exact hr (by rw [providerOf, hnone]; rfl)
  have hmem := hW.mem_range hL hrep
  rw [List.mem_range'_1] at hmem
  omega

/-- The windows of a project are those of the reports in its list. -/
theorem Indexed.windows_eq (hI : Indexed s) (projectId : ℕ) :
    windows s projectId =
      (getProjectReports s projectId).filterMap fun r => (s.report r).map Report.window := by
  unfold getProjectReports windows
  rw [hI.projects, listed, List.filterMap_filter]
  refine List.filterMap_congr fun r _ => ?_
  unfold windowOf projectOf
  cases s.report r with
  | none => simp
  | some rep =>
    by_cases hid : rep.projectId = projectId
    · simp [hid]
    · simp [hid]

end Getters

end OracleConsumer
end NbsBond
