import NbsBond.OracleConsumer.Roster
import NbsBond.Protocol.Reports

/-!
# Collateral in the running protocol

Providers stake on their reports and challengers bond on their challenges. This module follows both
along runs of the protocol: what is locked is what undecided reports have locked (`locks_track`), as
long as no report is decided by an override while it has a lock; and an open challenge can be
decided against the report exactly when the registry is ready to revoke the project
(`rejectable_iff`).
-/

namespace NbsBond
namespace Protocol

open Soroban Int128 OracleConsumer Pledges

/-! ### Locked stake -/

/-- A report of `v` that is neither verified nor rejected. -/
def Undecided (s : OracleConsumer.State) (v : Address) (r : ReportId) : Prop :=
  ∃ rep, s.report r = some rep ∧ rep.provider = v ∧
    (rep.status = .pending ∨ rep.status = .challenged)

/-- What the contract does not check about a call, see `OracleConsumer.Op.KeepsLocks`. -/
def Op.KeepsLocks (w : World) : Op → Prop
  | .oracle op => op.KeepsLocks w.oracle
  | _ => True

instance (w : World) (op : Op) : Decidable (op.KeepsLocks w) := by
  cases op <;> unfold Op.KeepsLocks <;> infer_instance

/-- Locked stake tracks undecided reports, and a provider without any can withdraw all it has. -/
structure LocksTrack (w : World) : Prop where
  locked : ∀ v, w.oracle.lockedStake v =
    ∑ᶠ (r : ReportId) (_ : Undecided w.oracle v r), w.oracle.reportLock r
  withdraws : ∀ v p, w.oracle.provider v = some p → 0 < p.stake →
    (∀ r rep, w.oracle.report r = some rep → rep.provider = v →
      rep.status = .verified ∨ rep.status = .rejected) →
    ∀ now, ∃ w' p', machine.exec now w
        (.oracle (.withdrawStake v p.stake (w.oracle.nonce v))) = .ok (w', .oracle none) ∧
      w'.oracle.provider v = some p' ∧ p'.stake = 0

/-- The providers of every reached state are in order. -/
theorem roster_of_run {h : List Call} {w : World} (hrun : Run h w) : Roster w.oracle :=
  oracle_invariant (P := Roster) hrun Roster.initial fun hL hR hstep hmove =>
    hR.step hL (hmove.roster hR.stakes) hstep

/-- The locked stake of every state reached by calls that keep the locks is in order. -/
theorem stakeLocks_of_run {h : List Call} {w : World} (hrun : Run h w)
    (hkeeps : ∀ c ∈ h, c.op.KeepsLocks c.pre) : StakeLocks (docket w.oracle) := by
  refine hrun.induction (P := fun h w => (∀ c ∈ h, c.op.KeepsLocks c.pre) →
    StakeLocks (docket w.oracle)) ?_ ?_ hkeeps
  · intro w hinit _
    obtain ⟨admin, hadmin⟩ := hinit.oracle
    rw [hadmin]
    exact StakeLocks.initial admin
  · intro h w t op ret w' hrun _ hexec ih hkeeps
    rw [List.forall_mem_cons] at hkeeps
    have hS := ih hkeeps.2
    obtain ⟨op', rfl, hmove⟩ | ⟨-, hsame⟩ := (step_of_exec hexec).docket
    · exact hS.step (roster_of_run hrun).stakes (lifeCycle_of_run hrun) hkeeps.1 hmove
    · rw [hsame]
      exact hS

/-- The pledges of `v` are the locks of its undecided reports. -/
theorem total_stakePledge (s : OracleConsumer.State) (v : Address) :
    total (stakePledge (docket s)) v =
      ∑ᶠ (r : ReportId) (_ : Undecided s v r), s.reportLock r := by
  classical
  refine finsum_congr fun r => ?_
  rw [finsum_eq_if]
  cases hrep : s.report r with
  | none =>
    rw [stakePledge_unused hrep, part_none, if_neg]
    rintro ⟨rep, hrep', -⟩
    rw [hrep] at hrep'
    cases hrep'
  | some rep =>
    by_cases hopen : rep.status = .pending ∨ rep.status = .challenged
    · rw [stakePledge_open hrep hopen]
      by_cases hv : rep.provider = v
      · rw [if_pos ⟨rep, hrep, hv, hopen⟩, ← hv]
        exact part_self _
      · rw [part_of_ne hv, if_neg]
        rintro ⟨rep', hrep', hv', -⟩
        rw [hrep] at hrep'
        cases hrep'
        exact hv hv'
    · -- a decided report pledges nothing
      have hdecided : rep.status = .verified ∨ rep.status = .rejected := by
        cases hstatus : rep.status with
        | pending => exact absurd (Or.inl hstatus) hopen
        | challenged => exact absurd (Or.inr hstatus) hopen
        | verified => exact Or.inl rfl
        | rejected => exact Or.inr rfl
      rw [stakePledge_decided hrep hdecided, part_none, if_neg]
      rintro ⟨rep', hrep', -, hopen'⟩
      rw [hrep] at hrep'
      cases hrep'
      exact hopen hopen'

/-- With nothing locked, `withdraw_stake` gives back the whole stake. -/
theorem withdrawStake_all {w : World} {v : Address} {p : OracleProvider}
    (hp : w.oracle.provider v = some p) (hpos : 0 < p.stake) (hlocked : w.oracle.lockedStake v = 0)
    (now : ℕ) :
    ∃ w' p', machine.exec now w (.oracle (.withdrawStake v p.stake (w.oracle.nonce v))) =
        .ok (w', .oracle none) ∧ w'.oracle.provider v = some p' ∧ p'.stake = 0 := by
  obtain ⟨s', hs'⟩ : ∃ s' : OracleConsumer.State, s' = { w.oracle with
      nonce := Function.update w.oracle.nonce v (w.oracle.nonce v + 1)
      provider := Function.update w.oracle.provider v
        (some { p with stake := p.stake - p.stake }) } := ⟨_, rfl⟩
  have hwithdraw : withdrawStake w.oracle v p.stake (w.oracle.nonce v) = .ok s' := by
    simp only [withdrawStake, bind_eq_ok, useNonce_eq_ok, ensure_eq_ok, orError_eq_ok, pure_eq_ok]
    refine ⟨_, ⟨trivial, rfl⟩, (), hpos, p, hp, (), le_refl _, (), ?_, hs'.symm⟩
    rw [hlocked, sub_self]
  refine ⟨{ w with oracle := s' }, { p with stake := p.stake - p.stake }, ?_, ?_,
    sub_self p.stake⟩
  · exact exec_of_oracle (by rw [OracleConsumer.exec, hwithdraw]; rfl)
  · rw [hs']
    exact Function.update_self _ _ _

/-- **Locked stake tracks undecided reports** in every run in which overrides meet no lock and no
lock takes a total out of range. An override makes a report terminal and leaves its lock, so it is
the one call after which the two can differ. -/
theorem locks_track {h : List Call} {w : World} (hrun : Run h w)
    (hkeeps : ∀ c ∈ h, c.op.KeepsLocks c.pre) : LocksTrack w := by
  have hS := stakeLocks_of_run hrun hkeeps
  refine ⟨?_, ?_⟩
  · intro v
    rw [← total_stakePledge]
    exact hS.locked v
  · intro v p hp hpos hdecided now
    refine withdrawStake_all hp hpos ?_ now
    -- no undecided report, no pledge
    show (docket w.oracle).lockedStake v = 0
    rw [hS.locked v]
    refine total_eq_zero ?_
    intro r q hq howner
    cases hrep : (docket w.oracle).report r with
    | none =>
      rw [stakePledge_unused hrep] at hq
      cases hq
    | some rep =>
      by_cases hopen : rep.status = .pending ∨ rep.status = .challenged
      · rw [stakePledge_open hrep hopen] at hq
        cases hq
        rcases hdecided r rep hrep howner with hstatus | hstatus
        · simp [hstatus] at hopen
        · simp [hstatus] at hopen
      · unfold stakePledge at hq
        rw [hrep] at hq
        dsimp only at hq
        rw [if_neg hopen] at hq
        cases hq

/-- The calls that bring two pending reports of a provider with a stake of 1000 about. -/
def stakedReports : List (ℕ × Op) := onboard ⟨0⟩ ⟨5⟩ ⟨1⟩ ⟨2⟩ ⟨100⟩ ⟨102⟩ 7 ++
  [(1, .oracle (.addStake ⟨1⟩ 1000 0)),
    (1, .oracle (.submitReport ⟨1⟩ 1 0 10 5000 .absent "VM0007" 3 1)),
    (1, .oracle (.submitReport ⟨1⟩ 1 10 20 5000 .absent "VM0007" 4 2))]

/-- One report is verified by consensus, the other one is pending. -/
theorem locks_track_two_reports :
    ∃ h w, Run h w ∧ w.oracle.lockedStake ⟨1⟩ = 100 ∧ LocksTrack w := by
  let ops : List (ℕ × Op) := stakedReports.append [(2, .oracle (.verifyReport ⟨2⟩ 1 0))]
  have hplay : (machine.play [] (deploy ⟨0⟩ ⟨100⟩ ⟨101⟩ ⟨102⟩) ops).map
      (fun x => (x.2.oracle.lockedStake ⟨1⟩, x.1.all fun c => c.op.KeepsLocks c.pre)) =
      some (100, true) := by decide
  obtain ⟨h, w, hrun, hview⟩ := Run.of_play (Init.deploy ⟨0⟩ ⟨100⟩ ⟨101⟩ ⟨102⟩) hplay
  rw [Prod.mk.injEq] at hview
  obtain ⟨hlocked, hall⟩ := hview
  refine ⟨h, w, hrun, hlocked, locks_track hrun ?_⟩
  intro c hc
  exact of_decide_eq_true (List.all_eq_true.mp hall c hc)

/-- Both reports are verified by the admin, and the stake stays locked. -/
theorem locks_leak :
    ∃ h w, Run h w ∧ w.oracle.lockedStake ⟨1⟩ = 200 ∧
      (∀ r, ¬ Undecided w.oracle ⟨1⟩ r) ∧
      machine.exec 2 w (.oracle (.withdrawStake ⟨1⟩ 1000 3)) =
        .error (.error (.oracle .stakeLocked)) ∧
      ¬ LocksTrack w := by
  let ops : List (ℕ × Op) := stakedReports.append
    [(2, .oracle (.adminOverrideReport ⟨0⟩ 1 .verified 3)),
      (2, .oracle (.adminOverrideReport ⟨0⟩ 2 .verified 4))]
  have hplay : (machine.play [] (deploy ⟨0⟩ ⟨100⟩ ⟨101⟩ ⟨102⟩) ops).map
      (fun x => (x.2.oracle.lockedStake ⟨1⟩, x.2.oracle.reportCount,
        [0, 1, 2].map fun r => (x.2.oracle.report r).map Report.status,
        fault (machine.exec 2 x.2 (.oracle (.withdrawStake ⟨1⟩ 1000 3))))) =
      some (200, 2, [none, some .verified, some .verified],
        some (.error (.oracle .stakeLocked))) := by decide
  obtain ⟨h, w, hrun, hview⟩ := Run.of_play (Init.deploy ⟨0⟩ ⟨100⟩ ⟨101⟩ ⟨102⟩) hplay
  simp only [Prod.mk.injEq, List.map_cons, List.map_nil, List.cons.injEq] at hview
  obtain ⟨hlocked, hcount, ⟨hnone, hfirst, hsecond, -⟩, hwithdraw⟩ := hview
  have hdecided : ∀ r, ¬ Undecided w.oracle ⟨1⟩ r := by
    rintro r ⟨rep, hrep, -, hopen⟩
    -- there are two reports, and both are verified
    have hle : r ≤ 2 := by
      by_contra hlt
      have hfresh : w.oracle.report r = none := (lifeCycle_of_run hrun).fresh r (by
        show w.oracle.reportCount < r
        rw [hcount]
        exact not_le.mp hlt)
      rw [hfresh] at hrep
      cases hrep
    have hverified : rep.status = .verified := by
      interval_cases r
      · rw [hrep] at hnone
        cases hnone
      · rw [hrep] at hfirst
        exact Option.some.inj hfirst
      · rw [hrep] at hsecond
        exact Option.some.inj hsecond
    rw [hverified] at hopen
    simp at hopen
  refine ⟨h, w, hrun, hlocked, hdecided, ?_, ?_⟩
  · exact fault_eq_some.mp hwithdraw
  · intro hT
    have hzero : ∑ᶠ (r : ReportId) (_ : Undecided w.oracle ⟨1⟩ r), w.oracle.reportLock r = 0 := by
      classical
      refine (finsum_congr fun r => ?_).trans finsum_zero
      rw [finsum_eq_if, if_neg (hdecided r)]
    have hsum := hT.locked ⟨1⟩
    rw [hlocked, hzero] at hsum
    cases hsum

/-! ### Deciding challenges -/

/-- The locked bonds of every reached state are in order. -/
theorem bondLocks_of_run {h : List Call} {w : World} (hrun : Run h w) :
    BondLocks (docket w.oracle) :=
  oracle_invariant (P := fun s => BondLocks (docket s)) hrun BondLocks.initial
    fun hL hB hstep _ => hB.step hL hstep

/-- From `w` to `w'` report `r` was rejected, its provider slashed, and its challenger given the
bond back. -/
structure Rejected (r : ReportId) (rep : Report) (ch : Challenge) (w w' : World) : Prop where
  status : ∃ rep', w'.oracle.report r = some rep' ∧ rep'.status = .rejected
  slashed : ∃ p p', w.oracle.provider rep.provider = some p ∧
    w'.oracle.provider rep.provider = some p' ∧ p'.stake = p.stake - slashableAmount p.stake
  refunded : w'.oracle.challengeBondBalance ch.challenger =
    w.oracle.challengeBondBalance ch.challenger + ch.bond

/-- The registry would revoke the project of the report, and the challenger's balance has room for
the bond. -/
structure Revocable (rep : Report) (ch : Challenge) (registry : ProjectRegistry.State)
    (w : World) : Prop where
  approved : ∃ project, registry.project rep.projectId = some project ∧
    project.status = .approved
  inStep : w.oracle.projectRegistryNonce = registry.nonce w.oracleId
  room : InRange (w.oracle.challengeBondBalance ch.challenger + ch.bond)

/-- The registry revokes a project for its oracle exactly when the project is approved and the nonce
is the one it expects. -/
theorem revokeProject_iff {registry : ProjectRegistry.State} {self : Address} {projectId nonce : ℕ}
    (hself : registry.oracleConsumerId = some self) :
    (∃ registry', ProjectRegistry.revokeProject registry self projectId nonce = .ok registry') ↔
      nonce = registry.nonce self ∧
        ∃ project, registry.project projectId = some project ∧ project.status = .approved := by
  have hauthorized : ProjectRegistry.requireAdminOrOracle registry self = .ok () := by
    unfold ProjectRegistry.requireAdminOrOracle
    split
    · rfl
    · simp [hself]
  simp only [ProjectRegistry.revokeProject, ProjectRegistry.changeStatus, hauthorized, bind_eq_ok,
    useNonce_eq_ok, orError_eq_ok, ensure_eq_ok, pure_eq_ok]
  constructor
  · rintro ⟨_, _, ⟨hnonce, -⟩, _, -, project, hproject, _, happroved, -⟩
    exact ⟨hnonce, project, hproject, happroved⟩
  · rintro ⟨hnonce, project, hproject, happroved⟩
    exact ⟨_, _, ⟨hnonce, rfl⟩, (), trivial, project, hproject, (), happroved, rfl⟩

/-- `resolve_challenge` by the admin, with the nonce of the moment, is `finalize_challenge`. -/
theorem exec_resolveChallenge {w : World} {admin : Address} (hadmin : w.oracle.admin = some admin)
    (now : ℕ) (r : ReportId) :
    machine.exec now w (.oracle (.resolveChallenge admin r .rejected (w.oracle.nonce admin))) = (do
      let (s, regs) ← liftError Error.oracle (finalizeChallenge now w.oracleId w.registries
        { w.oracle with
          nonce := Function.update w.oracle.nonce admin (w.oracle.nonce admin + 1) } r .rejected)
      return ({ w with oracle := s, registries := regs }, .oracle none)) := by
  have hnonce : useNonce w.oracle.nonce admin (w.oracle.nonce admin) OracleError.invalidNonce =
      .ok (Function.update w.oracle.nonce admin (w.oracle.nonce admin + 1)) := by
    simp
  have hchecked : requireAdmin w.oracle.admin admin OracleError.notInitialized
      OracleError.unauthorized = .ok () := by
    rw [requireAdmin_eq_ok]
    exact hadmin
  rw [exec_of_signed ⟨List.not_mem_nil, List.not_mem_nil⟩]
  simp only [run, OracleConsumer.exec, resolveChallenge, hnonce, hchecked, liftError_bind,
    bind_assoc]
  rfl

/-- **When a challenge can be decided against the report.** In every reached state, and for every
open challenge: rejecting the report goes through, slashes its provider and refunds the challenger,
exactly when the configured registry still has the project approved and expects the nonce that
`OracleConsumer` has for it, and the challenger's balance has room for the bond. -/
theorem rejectable_iff {h : List Call} {w : World} (hrun : Run h w) {admin registryId : Address}
    (hadmin : w.oracle.admin = some admin)
    (hconfigured : w.oracle.projectRegistry = some registryId) {registry : ProjectRegistry.State}
    (hdeployed : w.registries registryId = some registry)
    (hself : registry.oracleConsumerId = some w.oracleId) {r : ReportId} {ch : Challenge}
    (hch : w.oracle.challenge r = some ch) (hopen : ch.resolved = false) {rep : Report}
    (hrep : w.oracle.report r = some rep) (now : ℕ) :
    (∃ w', machine.exec now w
        (.oracle (.resolveChallenge admin r .rejected (w.oracle.nonce admin))) =
        .ok (w', .oracle none) ∧ Rejected r rep ch w w') ↔
      Revocable rep ch registry w := by
  have hL := lifeCycle_of_run hrun
  have hB := bondLocks_of_run hrun
  have hprovider := (roster_of_run hrun).reporters r rep hrep
  -- the bond is locked in full, so it is refunded in full
  have hbond : ch.bond = challengeBond := hB.bonds r ch hch
  have hpos : 0 < ch.bond := by
    rw [hbond]
    decide
  have hfull : min ch.bond (w.oracle.challengeBondLock ch.challenger) = ch.bond :=
    min_eq_left (hB.bond_le hL hch hopen)
  obtain ⟨s, hs⟩ : ∃ s : OracleConsumer.State, s = { w.oracle with
      nonce := Function.update w.oracle.nonce admin (w.oracle.nonce admin + 1) } := ⟨_, rfl⟩
  have hiff : (∃ x, finalizeChallenge now w.oracleId w.registries s r .rejected = .ok x) ↔
      w.oracle.projectRegistryNonce = registry.nonce w.oracleId ∧
        ∃ project, registry.project rep.projectId = some project ∧
          project.status = .approved := by
    rw [← revokeProject_iff hself, hs]
    exact finalizeChallenge_rejects_iff hch hopen hrep hprovider hconfigured hdeployed
  have heffect : ∀ s' regs', finalizeChallenge now w.oracleId w.registries s r .rejected =
      .ok (s', regs') → s'.report r = some (resolvedReport now rep .rejected) ∧
      (∃ p active, w.oracle.provider rep.provider = some p ∧ s'.provider rep.provider =
        some { p with stake := p.stake - slashableAmount p.stake, active }) ∧
      s'.challengeBondBalance ch.challenger =
        wrap (w.oracle.challengeBondBalance ch.challenger + ch.bond) := by
    intro s' regs' hfinal
    rw [← hfull]
    have hch' : s.challenge r = some ch := by
      rw [hs]
      exact hch
    have hrep' : s.report r = some rep := by
      rw [hs]
      exact hrep
    have hafter := finalizeChallenge_rejects hch' hopen hpos hrep' hfinal
    rw [hs] at hafter
    exact hafter
  rw [exec_resolveChallenge hadmin, ← hs]
  simp only [bind_eq_ok, liftError_eq_ok, pure_eq_ok, Prod.mk.injEq]
  constructor
  · rintro ⟨w', ⟨⟨s', regs'⟩, hfinal, rfl, -⟩, hrejected⟩
    obtain ⟨hinStep, happroved⟩ := hiff.mp ⟨_, hfinal⟩
    refine ⟨happroved, hinStep, ?_⟩
    -- a refund that is not exact leaves the range
    obtain ⟨-, -, hbalance⟩ := heffect s' regs' hfinal
    have hrefunded := hrejected.refunded
    dsimp only at hrefunded
    rw [← hrefunded, hbalance]
    exact wrap_inRange _
  · rintro ⟨happroved, hinStep, hroom⟩
    obtain ⟨⟨s', regs'⟩, hfinal⟩ := hiff.mpr ⟨hinStep, happroved⟩
    obtain ⟨hreport, ⟨p, active, hp, hp'⟩, hbalance⟩ := heffect s' regs' hfinal
    refine ⟨_, ⟨(s', regs'), hfinal, rfl, trivial⟩, ⟨_, hreport, rfl⟩, ⟨p, _, hp, hp', rfl⟩, ?_⟩
    rw [hbalance]
    exact wrap_of_inRange hroom

/-- The calls that bring two challenged reports on one project about. -/
def challengedReports : List (ℕ × Op) := stakedReports ++
  [(2, .oracle (.depositChallengeBond ⟨3⟩ 2000000 0)),
    (2, .oracle (.challengeReport ⟨3⟩ 1 9 1)),
    (2, .oracle (.challengeReport ⟨3⟩ 2 9 2))]

/-- The first of the two can be rejected. -/
theorem rejectable_iff_first_challenge :
    ∃ h w rep ch w', Run h w ∧ w.oracle.report 1 = some rep ∧ w.oracle.challenge 1 = some ch ∧
      ch.resolved = false ∧
      machine.exec 3 w (.oracle (.resolveChallenge ⟨0⟩ 1 .rejected (w.oracle.nonce ⟨0⟩))) =
        .ok (w', .oracle none) ∧ Rejected 1 rep ch w w' := by
  let rep : Report := ⟨1, ⟨1⟩, 1, 7, 0, 10, 5000, .absent, "VM0007", 3, .challenged, 1, 0⟩
  let ch : Challenge := ⟨1, ⟨3⟩, 9, 2, false, 0, 1000000⟩
  have hplay : (machine.play [] (deploy ⟨0⟩ ⟨100⟩ ⟨101⟩ ⟨102⟩) challengedReports).map
      (fun x => decide (x.2.oracle.admin = some ⟨0⟩ ∧ x.2.oracle.projectRegistry = some ⟨102⟩ ∧
        x.2.oracleId = ⟨100⟩ ∧ x.2.oracle.projectRegistryNonce = 0 ∧
        x.2.oracle.challengeBondBalance ⟨3⟩ = 0 ∧
        ((x.2.registries ⟨102⟩).map fun registry =>
          (registry.oracleConsumerId, registry.nonce ⟨100⟩,
            (registry.project 1).map Project.status)) = some (some ⟨100⟩, 0, some .approved) ∧
        x.2.oracle.challenge 1 = some ch ∧ x.2.oracle.report 1 = some rep)) = some true := by decide
  obtain ⟨h, w, hrun, hview⟩ := Run.of_play (Init.deploy ⟨0⟩ ⟨100⟩ ⟨101⟩ ⟨102⟩) hplay
  obtain ⟨hadmin, hconfigured, hid, hnonce, hbalance, hregistry, hch, hrep⟩ :=
    of_decide_eq_true hview
  simp only [Option.map_eq_some_iff, Prod.mk.injEq] at hregistry
  obtain ⟨registry, hdeployed, hself, hexpected, project, hproject, happroved⟩ := hregistry
  obtain ⟨w', hexec, hrejected⟩ := (rejectable_iff hrun hadmin hconfigured hdeployed
    (by rw [hid]; exact hself) hch rfl hrep 3).mpr
    ⟨⟨project, hproject, happroved⟩, by rw [hnonce, hid, hexpected], by rw [hbalance]; decide⟩
  exact ⟨h, w, rep, ch, w', hrun, hrep, hch, rfl, hexec, hrejected⟩

/-- Once the first report is rejected, the project is revoked, and the challenge of the second one
can no longer be decided against the report. With no report undecided nothing should be locked. -/
theorem challenge_stuck :
    ∃ h w registry ch rep, Run h w ∧ w.oracle.admin = some ⟨0⟩ ∧
      w.oracle.projectRegistry = some ⟨102⟩ ∧ w.registries ⟨102⟩ = some registry ∧
      registry.oracleConsumerId = some w.oracleId ∧ w.oracle.challenge 2 = some ch ∧
      ch.resolved = false ∧ w.oracle.report 2 = some rep ∧
      machine.exec 4 w (.oracle (.resolveChallenge ⟨0⟩ 2 .rejected (w.oracle.nonce ⟨0⟩))) =
        .error .trap ∧
      ¬ ∃ w', machine.exec 4 w
          (.oracle (.resolveChallenge ⟨0⟩ 2 .rejected (w.oracle.nonce ⟨0⟩))) =
          .ok (w', .oracle none) ∧ Rejected 2 rep ch w w' := by
  let ops : List (ℕ × Op) := challengedReports.append
    [(3, .oracle (.resolveChallenge ⟨0⟩ 1 .rejected 3))]
  have hplay : (machine.play [] (deploy ⟨0⟩ ⟨100⟩ ⟨101⟩ ⟨102⟩) ops).map
      (fun x => decide (x.2.oracle.admin = some ⟨0⟩ ∧ x.2.oracle.projectRegistry = some ⟨102⟩ ∧
        x.2.oracleId = ⟨100⟩ ∧
        (x.2.registries ⟨102⟩).map ProjectRegistry.State.oracleConsumerId = some (some ⟨100⟩) ∧
        (x.2.oracle.challenge 2).map Challenge.resolved = some false ∧
        (x.2.oracle.report 2).map Report.status = some .challenged ∧
        fault (machine.exec 4 x.2
          (.oracle (.resolveChallenge ⟨0⟩ 2 .rejected (x.2.oracle.nonce ⟨0⟩)))) = some .trap)) =
      some true := by decide
  obtain ⟨h, w, hrun, hview⟩ := Run.of_play (Init.deploy ⟨0⟩ ⟨100⟩ ⟨101⟩ ⟨102⟩) hplay
  obtain ⟨hadmin, hconfigured, hid, hregistry, hchallenge, hreport, hresult⟩ :=
    of_decide_eq_true hview
  rw [Option.map_eq_some_iff] at hregistry hchallenge hreport
  obtain ⟨registry, hdeployed, hself⟩ := hregistry
  obtain ⟨ch, hch, hopen⟩ := hchallenge
  obtain ⟨rep, hrep, -⟩ := hreport
  -- the registry refuses a second revocation, and the call is not a `try_` call
  have htrap : machine.exec 4 w
      (.oracle (.resolveChallenge ⟨0⟩ 2 .rejected (w.oracle.nonce ⟨0⟩))) = .error .trap :=
    fault_eq_some.mp hresult
  refine ⟨h, w, registry, ch, rep, hrun, hadmin, hconfigured, hdeployed, ?_, hch, hopen, hrep,
    htrap, ?_⟩
  · rw [hid]
    exact hself
  · rintro ⟨w', hexec, -⟩
    rw [htrap] at hexec
    cases hexec

end Protocol
end NbsBond
