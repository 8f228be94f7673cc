import NbsBond.Protocol.Stakes
import NbsBond.Protocol.Supermajority
import NbsBond.Protocol.Windows

/-!
# A total of penalties out of range

`get_provider_stats` adds the penalties of a provider up by an unchecked addition. This module gives
a history in which no stake multiplication overflows and that addition does: a provider stakes all
that can be multiplied, is rejected over and over again, and stakes after each rejection what the
penalty took. A penalty is at most a tenth of such a stake, so it takes more than a million
rejections (`rejection`); `Armed` is what each of them finds and leaves behind.
-/

namespace NbsBond
namespace Protocol

open Soroban OracleConsumer Int128

/-! ### Calls that go through -/

section Calls

variable {registryId : Address} {regs : Registries} {s : OracleConsumer.State}

/-- A first report on an approved project. -/
theorem submitReport_first (now : ℕ) {v : Address} {p : OracleProvider}
    {registry : ProjectRegistry.State} {projectId : ℕ} {linkage : ProjectRegistry.ProjectLinkage}
    (hp : s.provider v = some p)
    (hactive : p.active = true) (hconfigured : s.projectRegistry = some registryId)
    (hdeployed : regs registryId = some registry)
    (hlinkage : ProjectRegistry.getProjectLinkage registry projectId = .ok linkage)
    (happroved : linkage.status = .approved) (hnew : s.projectReportPeriods projectId = []) :
    ∃ rep locks locked reports counts, rep.provider = v ∧ rep.projectId = projectId ∧
      rep.status = .pending ∧ rep.submittedAt = now ∧
      submitReport now regs s v projectId 0 1 0 .absent "VM0007" 3 (s.nonce v) = .ok ({ s with
        nonce := Function.update s.nonce v (s.nonce v + 1)
        reportCount := s.reportCount + 1
        report := Function.update s.report (s.reportCount + 1) (some rep)
        reportLock := locks
        lockedStake := locked
        projectReports := reports
        projectReportPeriods := Function.update s.projectReportPeriods projectId [(0, 1)]
        providerReportCount := counts }, s.reportCount + 1) := by
  have hlinked : projectLinkage regs registryId projectId = .ok linkage := by
    unfold projectLinkage
    rw [hdeployed]
    dsimp only
    rw [hlinkage]
  refine ⟨⟨s.reportCount + 1, v, projectId, linkage.metadataIpfsHash, 0, 1, 0, .absent, "VM0007",
    3, .pending, now, 0⟩, ?locks, ?locked, ?reports, ?counts, rfl, rfl, rfl, rfl, ?submitted⟩
  case submitted =>
    -- the guards in the order of the source; the project has no windows to overlap with
    simp only [submitReport, bind_eq_ok, useNonce_eq_ok, orError_eq_ok, ensure_eq_ok, pure_eq_ok]
    refine ⟨_, ⟨trivial, rfl⟩, p, hp, (), hactive, (), by decide, (), rfl, registryId, hconfigured,
      linkage, hlinked, (), happroved, (), ?_, (), ?_, ?_⟩
    · rw [hnew]
      simp
    · rw [hnew]
      simp
    · rw [hnew]
      rfl

/-- A challenge of a pending report, at the time it was submitted. -/
theorem challengeReport_first {now : ℕ} (a : Address) {r : ReportId} {rep : Report}
    (hnew : s.challenge r = none) (hrep : s.report r = some rep) (hpending : rep.status = .pending)
    (hforeign : a ≠ rep.provider) (hnow : rep.submittedAt = now)
    (hbalance : challengeBond ≤ s.challengeBondBalance a) :
    ∃ challenges, challengeReport now s a r 9 (s.nonce a) = .ok { s with
      nonce := Function.update s.nonce a (s.nonce a + 1)
      challengeBondBalance :=
        Function.update s.challengeBondBalance a (s.challengeBondBalance a - challengeBond)
      challengeBondLock :=
        Function.update s.challengeBondLock a (s.challengeBondLock a + challengeBond)
      challenge := Function.update s.challenge r (some ⟨r, a, 9, now, false, 0, challengeBond⟩)
      report := Function.update s.report r (some { rep with status := .challenged })
      providerChallenges := challenges } := by
  have hcharge : ∀ nonces, chargeChallengeBond { s with nonce := nonces } a = .ok { s with
      nonce := nonces
      challengeBondBalance :=
        Function.update s.challengeBondBalance a (s.challengeBondBalance a - challengeBond)
      challengeBondLock :=
        Function.update s.challengeBondLock a (s.challengeBondLock a + challengeBond) } := by
    intro nonces
    simp only [chargeChallengeBond, bind_eq_ok, ensure_eq_ok, pure_eq_ok]
    exact ⟨(), hbalance, trivial⟩
  refine ⟨Function.update s.providerChallenges rep.provider
    (s.providerChallenges rep.provider ++ [r]), ?_⟩
  simp only [challengeReport, bind_eq_ok, useNonce_eq_ok, orError_eq_ok, ensure_eq_ok, pure_eq_ok]
  refine ⟨_, ⟨trivial, rfl⟩, (), hnew, rep, hrep, (), hpending, (), hforeign, (), ?_, _,
    hcharge _, ?_⟩
  -- inside the challenge window
  · rw [hnow, Nat.sub_self]
    exact Nat.zero_le _
  · rfl

theorem releaseReportLock_eq (s : OracleConsumer.State) (v : Address) (r : ReportId) :
    ∃ locks locked, releaseReportLock s v r =
      { s with reportLock := locks, lockedStake := locked } := by
  unfold releaseReportLock
  dsimp only
  split
  · exact ⟨s.reportLock, s.lockedStake, rfl⟩
  · exact ⟨_, _, rfl⟩

theorem slashProvider_eq (now : ℕ) {v : Address} {p : OracleProvider} (hp : s.provider v = some p)
    (r : ReportId) : ∃ threshold, slashProvider now s v r = .ok { s with
      provider := Function.update s.provider v (some p.slashed)
      signatureThreshold := threshold
      slashHistory := Function.update s.slashHistory v
        (s.slashHistory v ++ [slashRecord now p r]) } := by
  unfold slashProvider
  -- what it does to the threshold is of no interest here
  rw [hp]
  exact ⟨_, rfl⟩

theorem revokeProject_eq {own : Address} {registry registry' : ProjectRegistry.State}
    {projectId : ℕ} (hconfigured : s.projectRegistry = some registryId)
    (hdeployed : regs registryId = some registry)
    (hrevoke : ProjectRegistry.revokeProject registry own projectId s.projectRegistryNonce =
      .ok registry') :
    OracleConsumer.revokeProject own regs s projectId = .ok ({ s with
      projectRegistryNonce := s.projectRegistryNonce + 1 },
      Function.update regs registryId (some registry')) := by
  unfold OracleConsumer.revokeProject
  rw [hconfigured]
  simp only [bind_eq_ok, orTrap_eq_ok, toOption_eq_some, pure_eq_ok]
  exact ⟨registry, hdeployed, registry', hrevoke, rfl⟩

theorem settleChallengeBond_refund (a : Address) {bond : ℤ} (hbond : 0 < bond) :
    settleChallengeBond s a bond true = { s with
      challengeBondLock := Function.update s.challengeBondLock a
        (s.challengeBondLock a - min bond (s.challengeBondLock a))
      challengeBondBalance := Function.update s.challengeBondBalance a
        (wrap (s.challengeBondBalance a + min bond (s.challengeBondLock a))) } := by
  unfold settleChallengeBond
  rw [if_neg (not_le.mpr hbond)]
  rfl

/-- The storage after a rejection, which sets the locks and the threshold to what they are. -/
def rejectedState (now : ℕ) (s : OracleConsumer.State) (r : ReportId) (rep : Report)
    (ch : Challenge) (p : OracleProvider) (locks : ReportId → ℤ) (locked : Address → ℤ)
    (threshold : ℕ) : OracleConsumer.State :=
  { s with
    challenge := Function.update s.challenge r (some (resolvedChallenge ch .rejected))
    report := Function.update s.report r (some (resolvedReport now rep .rejected))
    reportLock := locks
    lockedStake := locked
    provider := Function.update s.provider rep.provider (some p.slashed)
    signatureThreshold := threshold
    slashHistory := Function.update s.slashHistory rep.provider
      (s.slashHistory rep.provider ++ [slashRecord now p r])
    projectRegistryNonce := s.projectRegistryNonce + 1
    challengeBondLock := Function.update s.challengeBondLock ch.challenger
      (s.challengeBondLock ch.challenger - min ch.bond (s.challengeBondLock ch.challenger))
    challengeBondBalance := Function.update s.challengeBondBalance ch.challenger
      (wrap (s.challengeBondBalance ch.challenger +
        min ch.bond (s.challengeBondLock ch.challenger))) }

/-- `finalize_challenge` rejects a challenged report, when the registry revokes its project. -/
theorem finalizeChallenge_rejected (now : ℕ) (own : Address) {r : ReportId} {rep : Report}
    {ch : Challenge} {p : OracleProvider} {registry registry' : ProjectRegistry.State}
    (hch : s.challenge r = some ch) (hopen : ch.resolved = false) (hbond : 0 < ch.bond)
    (hrep : s.report r = some rep) (hp : s.provider rep.provider = some p)
    (hconfigured : s.projectRegistry = some registryId)
    (hdeployed : regs registryId = some registry)
    (hrevoke : ProjectRegistry.revokeProject registry own rep.projectId s.projectRegistryNonce =
      .ok registry') :
    ∃ locks locked threshold, finalizeChallenge now own regs s r .rejected =
      .ok (rejectedState now s r rep ch p locks locked threshold,
        Function.update regs registryId (some registry')) := by
  obtain ⟨locks, locked, hrelease⟩ := releaseReportLock_eq { s with
    challenge := Function.update s.challenge r (some (resolvedChallenge ch .rejected))
    report := Function.update s.report r (some (resolvedReport now rep .rejected)) } rep.provider r
  obtain ⟨threshold, hslash⟩ := slashProvider_eq now (s := { s with
    challenge := Function.update s.challenge r (some (resolvedChallenge ch .rejected))
    report := Function.update s.report r (some (resolvedReport now rep .rejected))
    reportLock := locks
    lockedStake := locked }) hp r
  refine ⟨locks, locked, threshold, ?_⟩
  -- decided, punished, and the bond returned
  rw [finalizeChallenge_open hch hopen hrep, decided, hrelease, punish, if_pos rfl]
  simp only [bind_eq_ok, pure_eq_ok]
  exact ⟨_, ⟨_, hslash, revokeProject_eq hconfigured hdeployed hrevoke⟩,
    congrArg (·, _) (settleChallengeBond_refund _ hbond)⟩

/-- The admin rejects a challenged report. -/
theorem resolveChallenge_rejected (now : ℕ) (own : Address) {admin : Address} {r : ReportId}
    {rep : Report} {ch : Challenge} {p : OracleProvider}
    {registry registry' : ProjectRegistry.State} (hadmin : s.admin = some admin)
    (hch : s.challenge r = some ch) (hopen : ch.resolved = false) (hbond : 0 < ch.bond)
    (hrep : s.report r = some rep) (hp : s.provider rep.provider = some p)
    (hconfigured : s.projectRegistry = some registryId)
    (hdeployed : regs registryId = some registry)
    (hrevoke : ProjectRegistry.revokeProject registry own rep.projectId s.projectRegistryNonce =
      .ok registry') :
    ∃ locks locked threshold,
      resolveChallenge now own regs s admin r .rejected (s.nonce admin) =
        .ok (rejectedState now { s with
          nonce := Function.update s.nonce admin (s.nonce admin + 1) } r rep ch p locks locked
          threshold, Function.update regs registryId (some registry')) := by
  obtain ⟨locks, locked, threshold, hfinal⟩ := finalizeChallenge_rejected now own (s := { s with
    nonce := Function.update s.nonce admin (s.nonce admin + 1) })
    hch hopen hbond hrep hp hconfigured hdeployed hrevoke
  refine ⟨locks, locked, threshold, ?_⟩
  simp only [resolveChallenge, bind_eq_ok, useNonce_eq_ok, requireAdmin_eq_ok, ensure_eq_ok]
  exact ⟨_, ⟨trivial, rfl⟩, (), hadmin, (), Or.inr trivial, hfinal⟩

theorem addStake_eq {v : Address} {p : OracleProvider} (amount : ℤ) (hpos : 0 < amount)
    (hp : s.provider v = some p) (hroom : InRange (p.stake + amount)) :
    addStake s v amount (s.nonce v) = .ok { s with
      nonce := Function.update s.nonce v (s.nonce v + 1)
      provider := Function.update s.provider v (some { p with stake := p.stake + amount }) } := by
  simp only [addStake, bind_eq_ok, useNonce_eq_ok, ensure_eq_ok, orError_eq_ok, checkedAdd_eq_some,
    pure_eq_ok]
  exact ⟨_, ⟨trivial, rfl⟩, (), hpos, p, hp, _, ⟨hroom, rfl⟩, rfl⟩

end Calls

/-! ### A rejection -/

/-- The largest stake whose multiplication fits an `i128`. -/
def largestStake : ℤ := 1701411834604692317316873037158841

/-- The penalty for it. -/
def largestPenalty : ℤ := 170141183460469231731687303715884

theorem slashableAmount_largestStake : slashableAmount largestStake = largestPenalty := by decide

/-- Provider 1 stakes the largest stake, and address 3 deposits one bond. -/
def funded : List (ℕ × Op) := onboard ⟨0⟩ ⟨5⟩ ⟨1⟩ ⟨2⟩ ⟨100⟩ ⟨102⟩ 7 ++
  [(0, .oracle (.addStake ⟨1⟩ largestStake 0)),
    (0, .oracle (.depositChallengeBond ⟨3⟩ 1000000 0))]

/-- The next rejection after the first `k`: a new project is approved, reported on by provider 1,
the report challenged and rejected, and the stake restored. -/
def rejection (k : ℕ) : List (ℕ × Op) :=
  [(0, .registry ⟨102⟩ (.registerProject ⟨5⟩ 8 "project" "VM0007" "KE" (k + 1))),
    (0, .registry ⟨102⟩ (.approveProject ⟨0⟩ (k + 2) (k + 2))),
    (0, .oracle (.submitReport ⟨1⟩ (k + 2) 0 1 0 .absent "VM0007" 3 (2 * k + 1))),
    (0, .oracle (.challengeReport ⟨3⟩ (k + 1) 9 (k + 1))),
    (0, .oracle (.resolveChallenge ⟨0⟩ (k + 1) .rejected (k + 3))),
    (0, .oracle (.addStake ⟨1⟩ largestPenalty (2 * k + 2)))]

/-- The registry after `k` rejections. -/
structure ArmedRegistry (k : ℕ) (registry : ProjectRegistry.State) : Prop where
  admin : registry.admin = some ⟨0⟩
  oracle : registry.oracleConsumerId = some ⟨100⟩
  count : registry.projectCount = k + 1
  available : ProjectRegistry.metadataHashAvailable registry 8 = true
  ownerNonce : registry.nonce ⟨5⟩ = k + 1
  adminNonce : registry.nonce ⟨0⟩ = k + 2
  oracleNonce : registry.nonce ⟨100⟩ = k

/-- The registry approves a new project, and would revoke it. -/
theorem ArmedRegistry.step {k : ℕ} {registry : ProjectRegistry.State}
    (hA : ArmedRegistry k registry) : ∃ registered approved revoked linkage,
      ProjectRegistry.exec 0 registry
        (.registerProject ⟨5⟩ 8 "project" "VM0007" "KE" (k + 1)) = .ok (registered, some (k + 2)) ∧
      ProjectRegistry.exec 0 registered (.approveProject ⟨0⟩ (k + 2) (k + 2)) =
        .ok (approved, none) ∧
      ProjectRegistry.getProjectLinkage approved (k + 2) = .ok linkage ∧
      linkage.status = .approved ∧
      ProjectRegistry.revokeProject approved ⟨100⟩ (k + 2) k = .ok revoked ∧
      ArmedRegistry (k + 1) revoked := by
  obtain ⟨hadmin, horacle, hcount, havailable, howner, hnonce, hexpected⟩ := hA
  let project : Project := ⟨k + 2, ⟨5⟩, 8, "project", .pending, "VM0007", "KE"⟩
  let registered : ProjectRegistry.State := { registry with
    nonce := Function.update registry.nonce ⟨5⟩ (k + 2)
    projectCount := k + 2
    project := Function.update registry.project (k + 2) (some project)
    projectByHash := Function.update registry.projectByHash 8 (some (k + 2))
    ownerProjects := Function.update registry.ownerProjects ⟨5⟩
      (registry.ownerProjects ⟨5⟩ ++ [k + 2]) }
  let approved : ProjectRegistry.State := { registered with
    nonce := Function.update registered.nonce ⟨0⟩ (k + 3)
    project := Function.update registered.project (k + 2)
      (some { project with status := .approved }) }
  let revoked : ProjectRegistry.State := { approved with
    nonce := Function.update approved.nonce ⟨100⟩ (k + 1)
    project := Function.update approved.project (k + 2)
      (some { project with status := .rejected }) }
  refine ⟨registered, approved, revoked, ⟨k + 2, 8, .approved⟩, ?_, ?_, ?_, rfl, ?_, ?_⟩
  · simp only [ProjectRegistry.exec, ProjectRegistry.registerProject, bind_eq_ok, useNonce_eq_ok,
      ensure_eq_ok, pure_eq_ok, Prod.mk.injEq, howner, hcount]
    -- the hash is available: the project before was rejected
    exact ⟨_, ⟨_, ⟨trivial, rfl⟩, (), by decide, (), havailable, rfl⟩, rfl, rfl⟩
  · have hadminNonce : registered.nonce ⟨0⟩ = k + 2 := by simp [registered, hnonce]
    have hproject : registered.project (k + 2) = some project := Function.update_self _ _ _
    simp only [ProjectRegistry.exec, ProjectRegistry.approveProject,
      ProjectRegistry.adminChangeStatus, ProjectRegistry.changeStatus, bind_eq_ok, useNonce_eq_ok,
      requireAdmin_eq_ok, orError_eq_ok, ensure_eq_ok, pure_eq_ok, Prod.mk.injEq, hadminNonce]
    exact ⟨_, ⟨_, ⟨trivial, rfl⟩, (), hadmin, project, hproject, (), rfl, rfl⟩, rfl, trivial⟩
  · have hproject : approved.project (k + 2) = some { project with status := .approved } :=
      Function.update_self _ _ _
    unfold ProjectRegistry.getProjectLinkage
    rw [hproject]
    rfl
  · have horacleNonce : approved.nonce ⟨100⟩ = k := by simp [approved, registered, hexpected]
    have hproject : approved.project (k + 2) = some { project with status := .approved } :=
      Function.update_self _ _ _
    have hauthorized : ProjectRegistry.requireAdminOrOracle
        { approved with nonce := Function.update approved.nonce ⟨100⟩ (k + 1) } ⟨100⟩ = .ok () := by
      simp [ProjectRegistry.requireAdminOrOracle, approved, registered, hadmin, horacle]
    simp only [ProjectRegistry.revokeProject, ProjectRegistry.changeStatus, bind_eq_ok,
      useNonce_eq_ok, orError_eq_ok, ensure_eq_ok, pure_eq_ok, horacleNonce]
    exact ⟨_, ⟨trivial, rfl⟩, (), hauthorized, _, hproject, (), rfl, rfl⟩
  -- one project more, and its hash available again
  · refine ⟨hadmin, horacle, rfl, ?_, ?_, ?_, ?_⟩
    · simp [ProjectRegistry.metadataHashAvailable, revoked, approved, registered]
    · simp [revoked, approved, registered]
    · simp [revoked, approved, registered]
    · simp [revoked]

/-- No stake of the state overflows when it is multiplied. -/
def Multipliable (s : OracleConsumer.State) : Prop :=
  ∀ v p, s.provider v = some p → p.stake * slashPenaltyPpm ≤ maxValue

theorem Multipliable.write {s s' : OracleConsumer.State} {v : Address} {p : OracleProvider}
    (hM : Multipliable s) (hp : p.stake * slashPenaltyPpm ≤ maxValue)
    (hprovider : s'.provider = Function.update s.provider v (some p)) : Multipliable s' := by
  intro u q hq
  rw [hprovider] at hq
  by_cases hu : u = v
  · rw [hu, Function.update_self] at hq
    cases hq
    exact hp
  · rw [Function.update_of_ne hu] at hq
    exact hM u q hq

/-- The contract after so many reports of provider 1, challenges of them, rejections, and calls
that restore the stake. -/
structure Standing (reports challenges rejections restakes : ℕ) (s : OracleConsumer.State) :
    Prop where
  admin : s.admin = some ⟨0⟩
  configured : s.projectRegistry = some ⟨102⟩
  -- the numbers of the next report, its project and its challenge are unused
  count : s.reportCount = reports
  unclaimed : ∀ projectId, reports + 1 < projectId → s.projectReportPeriods projectId = []
  unchallenged : ∀ r, challenges < r → s.challenge r = none
  registryNonce : s.projectRegistryNonce = rejections
  -- the calls before the first report count as well
  adminNonce : s.nonce ⟨0⟩ = rejections + 3
  providerNonce : s.nonce ⟨1⟩ = reports + restakes + 1
  challengerNonce : s.nonce ⟨3⟩ = challenges + 1
  bond : s.challengeBondBalance ⟨3⟩ = challengeBond * (1 - challenges + rejections)
  bondLock : s.challengeBondLock ⟨3⟩ = challengeBond * (challenges - rejections)
  provider : ∃ p, s.provider ⟨1⟩ = some p ∧ p.active = true ∧
    p.stake = largestStake + largestPenalty * (restakes - rejections)
  multipliable : Multipliable s
  penalties : penalties s ⟨1⟩ = largestPenalty * rejections

/-- Report `r` of provider 1, submitted at time 0, has a status. -/
structure Reported (s : OracleConsumer.State) (r : ReportId) (status : ReportStatus)
    (rep : Report) :
    Prop where
  report : s.report r = some rep
  provider : rep.provider = ⟨1⟩
  project : rep.projectId = r + 1
  status : rep.status = status
  now : rep.submittedAt = 0

section Round

variable {k : ℕ} {s : OracleConsumer.State} {regs : Registries}

/-- Provider 1 reports on the next project. -/
theorem Standing.submit {approved : ProjectRegistry.State}
    {linkage : ProjectRegistry.ProjectLinkage} (hS : Standing k k k k s)
    (hdeployed : regs ⟨102⟩ = some approved)
    (hlinkage : ProjectRegistry.getProjectLinkage approved (k + 2) = .ok linkage)
    (happroved : linkage.status = .approved) :
    ∃ s' rep, submitReport 0 regs s ⟨1⟩ (k + 2) 0 1 0 .absent "VM0007" 3 (2 * k + 1) =
        .ok (s', k + 1) ∧
      Standing (k + 1) k k k s' ∧ Reported s' (k + 1) .pending rep := by
  obtain ⟨p, hp, hactive, hstake⟩ := hS.provider
  obtain ⟨rep, locks, locked, reports, counts, hby, hproject, hpending, hnow, hsubmit⟩ :=
    submitReport_first 0 hp hactive hS.configured hdeployed hlinkage happroved
      (hS.unclaimed (k + 2) (Nat.lt_succ_self (k + 1)))
  have hnonce : s.nonce ⟨1⟩ = 2 * k + 1 := by
    rw [hS.providerNonce]
    ring
  rw [hnonce, hS.count] at hsubmit
  refine ⟨_, rep, hsubmit, ?_, Function.update_self _ _ _, hby, hproject, hpending, hnow⟩
  -- of the conditions only the report moves
  refine { hS with
    count := rfl
    unclaimed := ?_
    adminNonce := ?_
    providerNonce := ?_
    challengerNonce := ?_ }
  · intro projectId hlt
    dsimp only
    rw [Function.update_of_ne (by omega)]
    exact hS.unclaimed projectId (by omega)
  · simp [hS.adminNonce]
  · simp
    omega
  · simp [hS.challengerNonce]

/-- Address 3 challenges the report. -/
theorem Standing.challenge {rep : Report} (hS : Standing (k + 1) k k k s)
    (hR : Reported s (k + 1) .pending rep) :
    ∃ s' ch, challengeReport 0 s ⟨3⟩ (k + 1) 9 (k + 1) = .ok s' ∧
      Standing (k + 1) (k + 1) k k s' ∧
      Reported s' (k + 1) .challenged { rep with status := .challenged } ∧
      s'.challenge (k + 1) = some ch ∧ ch.resolved = false ∧ ch.challenger = ⟨3⟩ ∧
      ch.bond = challengeBond := by
  have hfree : s.challengeBondBalance ⟨3⟩ = challengeBond := by
    rw [hS.bond]
    ring
  obtain ⟨challenges, hchallenged⟩ := challengeReport_first ⟨3⟩
    (hS.unchallenged (k + 1) (Nat.lt_succ_self k)) hR.report hR.status
    (by rw [hR.provider]; decide) hR.now hfree.ge
  rw [hS.challengerNonce] at hchallenged
  refine ⟨_, _, hchallenged, ?_, ⟨Function.update_self _ _ _, hR.provider, hR.project, rfl, hR.now⟩,
    Function.update_self _ _ _, rfl, rfl, rfl⟩
  refine { hS with
    unchallenged := ?_
    adminNonce := ?_
    providerNonce := ?_
    challengerNonce := ?_
    bond := ?_
    bondLock := ?_ }
  · intro r hlt
    dsimp only
    rw [Function.update_of_ne (Nat.ne_of_gt hlt)]
    exact hS.unchallenged r (Nat.lt_of_succ_lt hlt)
  · simp [hS.adminNonce]
  · simp [hS.providerNonce]
  · simp
  · simp [hfree]
  · simp [hS.bondLock]

/-- The admin rejects the report. -/
theorem Standing.reject {rep : Report} {ch : Challenge} {approved revoked : ProjectRegistry.State}
    (hS : Standing (k + 1) (k + 1) k k s)
    (hR : Reported s (k + 1) .challenged rep) (hch : s.challenge (k + 1) = some ch)
    (hopen : ch.resolved = false) (hby : ch.challenger = ⟨3⟩) (hbond : ch.bond = challengeBond)
    (hdeployed : regs ⟨102⟩ = some approved)
    (hrevoke : ProjectRegistry.revokeProject approved ⟨100⟩ (k + 2) k = .ok revoked) :
    ∃ s', resolveChallenge 0 ⟨100⟩ regs s ⟨0⟩ (k + 1) .rejected (k + 3) =
        .ok (s', Function.update regs ⟨102⟩ (some revoked)) ∧
      Standing (k + 1) (k + 1) (k + 1) k s' := by
  obtain ⟨p, hp, hactive, hstake⟩ := hS.provider
  have hpos : 0 < ch.bond := by
    rw [hbond]
    decide
  obtain ⟨locks, locked, threshold, hrejected⟩ := resolveChallenge_rejected 0 ⟨100⟩
    hS.admin hch hopen hpos hR.report (hR.provider ▸ hp) hS.configured hdeployed
    (by rw [hR.project, hS.registryNonce]; exact hrevoke)
  rw [hS.adminNonce] at hrejected
  -- the one bond of address 3 is locked, and returned by the rejection
  have hfree : s.challengeBondBalance ⟨3⟩ = 0 := by
    rw [hS.bond]
    push_cast
    ring
  have hlock : s.challengeBondLock ⟨3⟩ = challengeBond := by
    rw [hS.bondLock]
    push_cast
    ring
  -- the stake is full, so the penalty is the largest one
  have hfull : p.stake = largestStake := by
    rw [hstake]
    ring
  have hrest : p.slashed.stake = largestStake - largestPenalty := by
    show p.stake - slashableAmount p.stake = _
    rw [hfull, slashableAmount_largestStake]
  have hremains : p.slashed.active = true := by
    show (if p.slashed.stake = 0 then false else p.active) = true
    rw [hrest, if_neg (by decide), hactive]
  refine ⟨_, hrejected, ?_⟩
  unfold rejectedState
  rw [hR.provider, hby, hbond]
  refine { hS with
    unchallenged := ?_
    registryNonce := ?_
    adminNonce := ?_
    providerNonce := ?_
    challengerNonce := ?_
    bond := ?_
    bondLock := ?_
    provider := ?_
    multipliable := ?_
    penalties := ?_ }
  · intro r hlt
    dsimp only
    rw [Function.update_of_ne (Nat.ne_of_gt hlt)]
    exact hS.unchallenged r hlt
  · simp [hS.registryNonce]
  · simp
  · simp [hS.providerNonce]
  · simp [hS.challengerNonce]
  · dsimp only
    rw [Function.update_self, hfree, hlock, min_self, zero_add, wrap_of_inRange (by decide)]
    push_cast
    ring
  · dsimp only
    rw [Function.update_self, hlock, min_self]
    push_cast
    ring
  · refine ⟨p.slashed, Function.update_self (Address.mk 1) (some p.slashed) s.provider, hremains,
      ?_⟩
    rw [hrest]
    push_cast
    ring
  · exact hS.multipliable.write (by rw [hrest]; decide) rfl
  · have hmore : OracleConsumer.penalties { s with
        slashHistory := Function.update s.slashHistory ⟨1⟩
          (s.slashHistory ⟨1⟩ ++ [slashRecord 0 p (k + 1)]) } ⟨1⟩ =
        OracleConsumer.penalties s ⟨1⟩ + largestPenalty := by
      unfold OracleConsumer.penalties
      dsimp only
      rw [Function.update_self, List.map_append, List.sum_append]
      show _ + (slashableAmount p.stake + 0) = _
      rw [hfull, slashableAmount_largestStake, add_zero]
    refine hmore.trans ?_
    rw [hS.penalties]
    push_cast
    ring

/-- Provider 1 makes up for the penalty. -/
theorem Standing.restake (hS : Standing (k + 1) (k + 1) (k + 1) k s) :
    ∃ s', addStake s ⟨1⟩ largestPenalty (2 * k + 2) = .ok s' ∧
      Standing (k + 1) (k + 1) (k + 1) (k + 1) s' := by
  obtain ⟨p, hp, hactive, hstake⟩ := hS.provider
  -- what the penalty took is the amount that is staked
  have hfull : p.stake + largestPenalty = largestStake := by
    rw [hstake]
    push_cast
    ring
  have hrestored := addStake_eq largestPenalty (by decide) hp (by rw [hfull]; decide)
  have hnonce : s.nonce ⟨1⟩ = 2 * k + 2 := by
    rw [hS.providerNonce]
    ring
  rw [hnonce] at hrestored
  refine ⟨_, hrestored, { hS with
    adminNonce := ?_
    providerNonce := ?_
    challengerNonce := ?_
    provider := ?_
    multipliable := ?_ }⟩
  · simp [hS.adminNonce]
  · simp
    omega
  · simp [hS.challengerNonce]
  · refine ⟨{ p with stake := p.stake + largestPenalty },
      Function.update_self (Address.mk 1) _ s.provider, hactive, ?_⟩
    dsimp only
    rw [hfull]
    push_cast
    ring
  · exact hS.multipliable.write (by dsimp only; rw [hfull]; decide) rfl

end Round

/-! ### A million rejections -/

/-- The deployment after `k` rejections. -/
structure Armed (k : ℕ) (w : World) : Prop where
  oracleId : w.oracleId = ⟨100⟩
  retirementId : w.retirementId = ⟨101⟩
  oracle : Standing k k k k w.oracle
  registry : ∃ registry, w.registries ⟨102⟩ = some registry ∧ ArmedRegistry k registry

/-- One rejection, call by call. -/
theorem Armed.step {k : ℕ} {h : List Call} {w : World} (hA : Armed k w) (htime : lastTime h = 0)
    (hM : ∀ c ∈ h, Multipliable c.pre.oracle) :
    ∃ h' w', machine.play h w (rejection k) = some (h', w') ∧ Armed (k + 1) w' ∧ lastTime h' = 0 ∧
      ∀ c ∈ h', Multipliable c.pre.oracle := by
  obtain ⟨hown, hretirement, hS, registry, hdeployed, hregistry⟩ := hA
  obtain ⟨registered, approved, revoked, linkage, hregister, happrove, hlinkage, hlinked, hrevoke,
    hnext⟩ := hregistry.step
  obtain ⟨oracleId, retirementId, engineRegistry, issuer, regs, s, engine, retirement⟩ := w
  subst hown hretirement
  -- the registry
  let w₁ : World := ⟨⟨100⟩, ⟨101⟩, engineRegistry, issuer,
    Function.update regs ⟨102⟩ (some registered), s, engine, retirement⟩
  have howner : (⟨5⟩ : Address) ≠ ⟨100⟩ ∧ (⟨5⟩ : Address) ≠ ⟨101⟩ := by decide
  have hadmin : (⟨0⟩ : Address) ≠ ⟨100⟩ ∧ (⟨0⟩ : Address) ≠ ⟨101⟩ := by decide
  have h₁ : machine.exec 0 _ _ = .ok (w₁, _) := exec_of_registry hdeployed hregister howner
  let w₂ : World := { w₁ with
    registries := Function.update w₁.registries ⟨102⟩ (some approved) }
  have hset : ∀ (regs : Registries) registry,
      Function.update regs ⟨102⟩ (some registry) ⟨102⟩ = some registry :=
    fun regs registry => Function.update_self _ _ regs
  have h₂ : machine.exec 0 w₁ _ = .ok (w₂, _) :=
    exec_of_registry (hset regs registered) happrove hadmin
  have happroved : w₂.registries ⟨102⟩ = some approved := hset w₁.registries approved
  -- the report
  obtain ⟨s₃, rep, hsubmit, hS₃, hR₃⟩ := hS.submit happroved hlinkage hlinked
  have h₃ : machine.exec 0 w₂ (.oracle (.submitReport ⟨1⟩ (k + 2) 0 1 0 .absent "VM0007" 3
      (2 * k + 1))) = .ok ({ w₂ with oracle := s₃ }, .oracle (some (k + 1))) :=
    exec_of_oracle (by rw [OracleConsumer.exec, hsubmit]; rfl)
  -- the challenge
  obtain ⟨s₄, ch, hchallenge, hS₄, hR₄, hch, hopen, hby, hbond⟩ := hS₃.challenge hR₃
  have h₄ : machine.exec 0 { w₂ with oracle := s₃ } (.oracle (.challengeReport ⟨3⟩ (k + 1) 9
      (k + 1))) = .ok ({ w₂ with oracle := s₄ }, .oracle none) :=
    exec_of_oracle (by rw [OracleConsumer.exec, hchallenge]; rfl)
  -- the rejection, which reaches into the registry
  obtain ⟨s₅, hreject, hS₅⟩ := hS₄.reject hR₄ hch hopen hby hbond happroved hrevoke
  let w₅ : World := { w₂ with
    oracle := s₅
    registries := Function.update w₂.registries ⟨102⟩ (some revoked) }
  have h₅ : machine.exec 0 { w₂ with oracle := s₄ } (.oracle (.resolveChallenge ⟨0⟩ (k + 1)
      .rejected (k + 3))) = .ok (w₅, .oracle none) :=
    exec_of_oracle (by rw [OracleConsumer.exec, hreject]; rfl)
  -- the stake
  obtain ⟨s₆, hrestake, hS₆⟩ := hS₅.restake
  have h₆ : machine.exec 0 w₅ (.oracle (.addStake ⟨1⟩ largestPenalty (2 * k + 2))) =
      .ok ({ w₅ with oracle := s₆ }, .oracle none) :=
    exec_of_oracle (by rw [OracleConsumer.exec, hrestake]; rfl)
  refine ⟨_, _, Machine.play_call h₁ htime.le (Machine.play_call h₂ (le_refl 0)
    (Machine.play_call h₃ (le_refl 0) (Machine.play_call h₄ (le_refl 0)
      (Machine.play_call h₅ (le_refl 0) (Machine.play_call h₆ (le_refl 0) rfl))))),
    ⟨rfl, rfl, hS₆, revoked, hset w₂.registries revoked, hnext⟩, rfl, ?_⟩
  simp only [List.forall_mem_cons]
  exact ⟨hS₅.multipliable, hS₄.multipliable, hS₃.multipliable, hS.multipliable, hS.multipliable,
    hS.multipliable, hM⟩

/-- The calls that bring `n` rejections about. -/
def rejections (n : ℕ) : List (ℕ × Op) := funded ++ (List.range n).flatMap rejection

/-- The providers on the list have stakes that can be multiplied. -/
def listMultipliable (s : OracleConsumer.State) : Bool :=
  s.providerList.all fun v => stakeOf s v * slashPenaltyPpm ≤ maxValue

/-- There are no providers but those on the list. -/
theorem multipliable_of_list {h : List Call} {w : World} (hrun : Run h w)
    (hlist : listMultipliable w.oracle = true) : Multipliable w.oracle := by
  intro v p hp
  have hmem : v ∈ w.oracle.providerList := by
    refine ((electorate_of_run hrun).listed v).mpr ?_
    show w.oracle.provider v ≠ none
    rw [hp]
    nofun
  have hstake := of_decide_eq_true (List.all_eq_true.mp hlist v hmem)
  rw [stakeOf_of_provider hp] at hstake
  exact hstake

theorem armed_of_funded : ∃ h w,
    machine.play [] (deploy ⟨0⟩ ⟨100⟩ ⟨101⟩ ⟨102⟩) funded = some (h, w) ∧ Armed 0 w ∧
      lastTime h = 0 ∧ ∀ c ∈ h, Multipliable c.pre.oracle := by
  have hplay : (machine.play [] (deploy ⟨0⟩ ⟨100⟩ ⟨101⟩ ⟨102⟩) funded).map (fun x =>
      (decide ((x.2.oracleId = ⟨100⟩ ∧ x.2.retirementId = ⟨101⟩ ∧ lastTime x.1 = 0) ∧
          listMultipliable x.2.oracle = true ∧
          (x.1.all fun c => listMultipliable c.pre.oracle) = true),
        decide ((x.2.oracle.admin = some ⟨0⟩ ∧ x.2.oracle.projectRegistry = some ⟨102⟩ ∧
            x.2.oracle.reportCount = 0 ∧ x.2.oracle.projectRegistryNonce = 0) ∧
          (x.2.oracle.nonce ⟨0⟩ = 3 ∧ x.2.oracle.nonce ⟨1⟩ = 1 ∧ x.2.oracle.nonce ⟨3⟩ = 1)),
        decide (x.2.oracle.challengeBondBalance ⟨3⟩ = challengeBond ∧
          x.2.oracle.challengeBondLock ⟨3⟩ = 0 ∧ x.2.oracle.slashHistory ⟨1⟩ = [] ∧
          (x.2.oracle.provider ⟨1⟩).map (fun p => (p.active, p.stake)) =
            some (true, largestStake)),
        (x.2.registries ⟨102⟩).map fun registry =>
          decide (registry.admin = some ⟨0⟩ ∧ registry.oracleConsumerId = some ⟨100⟩ ∧
            registry.projectCount = 1 ∧
            ProjectRegistry.metadataHashAvailable registry 8 = true ∧ registry.nonce ⟨5⟩ = 1 ∧
            registry.nonce ⟨0⟩ = 2 ∧ registry.nonce ⟨100⟩ = 0))) =
      some (true, true, true, some true) := by decide
  obtain ⟨⟨h, w⟩, hps, hview⟩ := Option.map_eq_some_iff.mp hplay
  -- the lists that have to be empty are so in every reached state without reports
  have hrun : Run h w := (Run.start (Init.deploy ⟨0⟩ ⟨100⟩ ⟨101⟩ ⟨102⟩)).play hps
  simp only [Prod.mk.injEq, decide_eq_true_eq, Option.map_eq_some_iff] at hview
  obtain ⟨⟨⟨hown, hretirement, htime⟩, hlist, hall⟩,
    ⟨⟨hadmin, hconfigured, hcount, hregistryNonce⟩, hadminNonce, hproviderNonce, hchallengerNonce⟩,
    ⟨hbond, hlock, hhistory, p, hp, hactive, hstake⟩, registry, hdeployed, hregistry⟩ := hview
  have hL := lifeCycle_of_run hrun
  have hstanding : Standing 0 0 0 0 w.oracle := by
    refine ⟨hadmin, hconfigured, hcount, fun projectId _ => ?_, fun r hr => ?_, hregistryNonce,
      hadminNonce, hproviderNonce, hchallengerNonce, hbond, hlock, ⟨p, hp, hactive, hstake⟩,
      multipliable_of_list hrun hlist, ?_⟩
    · -- there is no report, so no window
      rw [(windowInv_of_run hrun).indexed, windows, hcount]
      exact List.drop_nil
    · refine (hL.unused r (hL.fresh r ?_)).1
      show w.oracle.reportCount < r
      rw [hcount]
      exact hr
    · unfold OracleConsumer.penalties
      rw [hhistory]
      rfl
  obtain ⟨hregistrar, horacle, hprojects, havailable, howner, happrover, hexpected⟩ := hregistry
  refine ⟨h, w, hps, ⟨hown, hretirement, hstanding, registry, hdeployed, hregistrar, horacle,
    hprojects, havailable, howner, happrover, hexpected⟩, htime, fun c hc => ?_⟩
  obtain ⟨h', hpast, -⟩ := hrun.of_mem hc
  exact multipliable_of_list hpast (List.all_eq_true.mp hall c hc)

/-- **Any number of rejections** goes through. By induction, as every rejection leaves the
deployment armed for the next. -/
theorem armed_of_rejections (n : ℕ) : ∃ h w,
    machine.play [] (deploy ⟨0⟩ ⟨100⟩ ⟨101⟩ ⟨102⟩) (rejections n) = some (h, w) ∧ Armed n w ∧
      lastTime h = 0 ∧ ∀ c ∈ h, Multipliable c.pre.oracle := by
  induction n with
  | zero =>
    obtain ⟨h, w, hplay, hrest⟩ := armed_of_funded
    refine ⟨h, w, ?_, hrest⟩
    rw [rejections, List.range_zero, List.flatMap_nil, List.append_nil]
    exact hplay
  | succ n ih =>
    obtain ⟨h, w, hplay, hA, htime, hM⟩ := ih
    obtain ⟨h', w', hround, hrest⟩ := hA.step htime hM
    refine ⟨h', w', ?_, hrest⟩
    have hmore : rejections (n + 1) = rejections n ++ rejection n := by
      unfold rejections
      rw [List.range_succ, List.flatMap_append, List.flatMap_singleton, List.append_assoc]
    rw [hmore, Machine.play_append, hplay]
    exact hround

/-- **The total wraps around.** After 1000001 rejections the penalties of provider 1 do not fit an
`i128`, and `get_provider_stats` states another total, though every stake could be multiplied. -/
theorem total_penalty_wraps : ¬ ∀ (h : List Call) (w : World), Run h w →
    (∀ c ∈ h, Multipliable c.pre.oracle) → ∀ v stats, getProviderStats w.oracle v = .ok stats →
      stats.totalPenalty = OracleConsumer.penalties w.oracle v := by
  intro hclaim
  obtain ⟨h, w, hplay, hA, -, hM⟩ := armed_of_rejections 1000001
  have hrun : Run h w := (Run.start (Init.deploy ⟨0⟩ ⟨100⟩ ⟨101⟩ ⟨102⟩)).play hplay
  obtain ⟨p, hp, -⟩ := hA.oracle.provider
  obtain ⟨stats, hstats, -, -, -, -, hfits⟩ := stake_ledger_iff hrun hp
  have hle := hfits.mp (hclaim h w hrun hM ⟨1⟩ stats hstats)
  rw [hA.oracle.penalties] at hle
  exact absurd hle (by decide)

end Protocol
end NbsBond
