import NbsBond.OracleConsumer.Council
import NbsBond.OracleConsumer.Locks

/-!
# Providers and their stake

What a committed call does to the table of providers: it leaves it alone, or rewrites one entry with
a stake that is not negative (`Move.roster`). Entries are never removed, so the provider of a report
can be slashed whenever the report is rejected (`Roster.reporters`).

The second half is the rejection of a challenged report: `finalize_challenge` succeeds exactly when
the configured registry revokes the project (`finalizeChallenge_rejects_iff`), and
`finalizeChallenge_rejects` says what it then does.
-/

namespace NbsBond
namespace OracleConsumer

open Soroban Int128

/-! ### The table of providers -/

/-- The table is as it was, or one entry was written, with a stake that is not negative. -/
def RosterStep (s s' : State) : Prop :=
  s'.provider = s.provider ∨
    ∃ v p, s'.provider = Function.update s.provider v (some p) ∧ 0 ≤ p.stake

/-- A slashed provider keeps its entry, with the penalty taken off the stake. -/
theorem slashProvider_ok {now : ℕ} {s s' : State} {v : Address} {r : ReportId}
    (h : slashProvider now s v r = .ok s') :
    ∃ p active, s.provider v = some p ∧
      s'.provider = Function.update s.provider v
        (some { p with stake := p.stake - slashableAmount p.stake, active }) ∧
      s'.challengeBondBalance = s.challengeBondBalance ∧
      s'.challengeBondLock = s.challengeBondLock ∧ s'.projectRegistry = s.projectRegistry ∧
      s'.projectRegistryNonce = s.projectRegistryNonce := by
  simp only [slashProvider, bind_eq_ok, orTrap_eq_ok, pure_eq_ok] at h
  obtain ⟨p, hp, rfl⟩ := h
  exact ⟨p, _, hp, rfl, rfl, rfl, rfl, rfl⟩

/-- A decision slashes the provider of the report by at most its stake, if anybody. -/
theorem Outcome.roster {now : ℕ} {own : Address} {regs regs' : Registries} {c c' : Council}
    {locked : ℤ} {r : ReportId} {rep : Report} {ch : Challenge} {resolution : ReportStatus}
    (h : Outcome now own regs c locked r rep ch resolution c' regs') :
    c'.provider = c.provider ∨
      ∃ v p, c'.provider = Function.update c.provider v (some p) ∧ 0 ≤ p.stake := by
  cases h with
  | upheld => exact Or.inl rfl
  | @rejected p _ _ _ =>
    -- a penalty is at most the stake
    have hnonneg : 0 ≤ p.stake - slashableAmount p.stake :=
      sub_nonneg.mpr (slashableAmount_le p.stake)
    rw [Council.refund_eq, Council.countRevocation_eq]
    exact Or.inr ⟨rep.provider, _, rfl, hnonneg⟩

/-- **What a call can do to the providers.** -/
theorem Move.roster {now : ℕ} {own : Address} {regs regs' : Registries} {s s' : State} {op : Op}
    (hmove : Move now own regs regs' s s' op)
    (hstakes : ∀ v p, s.provider v = some p → 0 ≤ p.stake) : RosterStep s s' := by
  -- the table, read off the new council
  have hread : ∀ {c : Council}, council s' = c → s'.provider = c.provider := fun hcouncil =>
    congrArg Council.provider hcouncil
  cases hmove with
  | idle _ hcouncil _ _ _ => exact Or.inl (hread hcouncil)
  | challenge _ _ hcouncil _ _ _ => exact Or.inl (hread hcouncil)
  | expire _ _ hcouncil _ _ _ =>
    rw [Council.refund_eq] at hcouncil
    exact Or.inl (hread hcouncil)
  | rule _ hverdict => exact hverdict.outcome.roster
  | concur _ _ hverdict => exact hverdict.outcome.roster
  -- a new entry starts without stake, and a removal only writes its activity
  | register _ _ hamends => exact Or.inr ⟨_, _, hread hamends.council, le_refl 0⟩
  | remove _ hp hamends =>
    have hnonneg := hstakes _ _ hp
    exact Or.inr ⟨_, _, hread hamends.council, hnonneg⟩
  | addStake hpos hp _ hamends =>
    -- what is withdrawn was staked
    exact Or.inr ⟨_, _, hread hamends.council, add_nonneg (hstakes _ _ hp) hpos.le⟩
  | withdrawStake _ _ hle _ hamends =>
    exact Or.inr ⟨_, _, hread hamends.council, sub_nonneg.mpr hle⟩
  | vote _ _ hamends | setThreshold _ _ hamends | depositBond _ _ hamends
  | withdrawBond _ _ hamends | setRegistry _ hamends | propose _ hamends | cancel _ _ hamends
  | accept _ _ _ hamends => exact Or.inl (hread hamends.council)

/-- No stake is negative, and every report's provider has an entry. -/
structure Roster (s : State) : Prop where
  stakes : ∀ v p, s.provider v = some p → 0 ≤ p.stake
  reporters : ∀ r rep, s.report r = some rep → s.provider rep.provider ≠ none

theorem Roster.initial (admin : Address) : Roster (construct admin) where
  stakes _ _ h := by cases h
  reporters _ _ h := by cases h

/-- A report on record was on record before, of the same provider, or is a new one of a provider
with an entry. -/
theorem Step.reporter {now : ℕ} {s : State} {d : Docket} {op : Op} (hL : LifeCycle (docket s))
    (hstep : Step now s d op) {r : ReportId} {rep : Report} (hrep : d.report r = some rep) :
    (∃ rep₀, s.report r = some rep₀ ∧ rep₀.provider = rep.provider) ∨
      s.provider rep.provider ≠ none := by
  cases hold : s.report r with
  | some rep₀ =>
    -- no call changes who submitted a report
    obtain ⟨rep', hrep', hsame, -⟩ := hstep.report_change hL hold
    rw [hrep] at hrep'
    cases hrep'
    unfold SameReport at hsame
    exact Or.inl ⟨rep₀, rfl, by rw [hsame]⟩
  | none =>
    -- only a submission brings a report onto an unused id
    have hother : ∀ {q : ReportId} {rep₁ rep₂ : Report}, s.report q = some rep₁ →
        Function.update s.report q (some rep₂) r ≠ some rep := by
      intro q rep₁ rep₂ hq hr
      by_cases hqr : r = q
      · rw [hqr, hq] at hold
        cases hold
      · rw [Function.update_of_ne hqr, hold] at hr
        cases hr
    cases hstep with
    | frame _ hd =>
      subst hd
      rw [show (docket s).report r = none from hold] at hrep
      cases hrep
    | @submit provider _ _ _ _ _ _ _ _ p rep₁ hprovider _ hby _ _ _ hd =>
      subst hd
      change Function.update s.report (s.reportCount + 1) (some rep₁) r = some rep at hrep
      by_cases hr : r = s.reportCount + 1
      · rw [hr, Function.update_self] at hrep
        cases hrep
        refine Or.inr ?_
        rw [hby, hprovider]
        exact Option.some_ne_none p
      · rw [Function.update_of_ne hr, hold] at hrep
        cases hrep
    | sign _ _ _ _ _ hd =>
      subst hd
      rw [Docket.sign_report, show (docket s).report r = none from hold] at hrep
      cases hrep
    | verify _ hq _ _ _ _ hd =>
      subst hd
      rw [Docket.release_report] at hrep
      change Function.update ((docket s).sign _ _).report _ _ r = some rep at hrep
      rw [Docket.sign_report] at hrep
      exact absurd hrep (hother hq)
    | override _ _ hq _ hd =>
      subst hd
      exact absurd hrep (hother hq)
    | challenge _ hq _ _ hd =>
      subst hd
      exact absurd hrep (hother hq)
    | resolve _ _ _ hq _ hd =>
      subst hd
      rw [Docket.resolve_report] at hrep
      exact absurd hrep (hother hq)
    | expire _ _ hq _ hd =>
      subst hd
      rw [Docket.settleBond_report] at hrep
      exact absurd hrep (hother hq)

/-- **One call** keeps the roster in order. -/
theorem Roster.step {now : ℕ} {s s' : State} {op : Op} (hL : LifeCycle (docket s))
    (hR : Roster s) (hroster : RosterStep s s') (hstep : Step now s (docket s') op) :
    Roster s' := by
  -- entries are overwritten, never removed
  have hkept : ∀ v, s.provider v ≠ none → s'.provider v ≠ none := by
    intro v hv
    obtain hsame | ⟨v', p, hsame, -⟩ := hroster
    · rw [hsame]
      exact hv
    · rw [hsame]
      by_cases hvv : v = v'
      -- overwritten by another entry
      · rw [hvv, Function.update_self]
        exact Option.some_ne_none p
      · rw [Function.update_of_ne hvv]
        exact hv
  refine ⟨?_, ?_⟩
  · intro v q hq
    obtain hsame | ⟨v', p, hsame, hstake⟩ := hroster
    · rw [hsame] at hq
      exact hR.stakes v q hq
    · rw [hsame] at hq
      by_cases hvv : v = v'
      · rw [hvv, Function.update_self] at hq
        cases hq
        exact hstake
      · rw [Function.update_of_ne hvv] at hq
        exact hR.stakes v q hq
  · intro r rep hrep
    -- a new report names a provider with an entry, an old one keeps the one it had
    obtain ⟨rep₀, hrep₀, hsame⟩ | hentry := hstep.reporter hL hrep
    · rw [← hsame]
      exact hkept _ (hR.reporters r rep₀ hrep₀)
    · exact hkept _ hentry

/-! ### Rejecting a challenged report -/

/-- `slash_provider` succeeds on every address with an entry. -/
theorem slashProvider_total (now : ℕ) {s : State} {v : Address} (r : ReportId)
    (hv : s.provider v ≠ none) : ∃ s', slashProvider now s v r = .ok s' := by
  obtain ⟨p, hp⟩ := Option.ne_none_iff_exists'.mp hv
  -- the entry is all that it asks for
  unfold slashProvider
  rw [hp]
  exact ⟨_, rfl⟩

section Reject

variable {now : ℕ} {self registryId : Address} {regs : Registries} {s : State} {r : ReportId}
  {rep : Report} {ch : Challenge} {registry : ProjectRegistry.State}

/-- The punishment goes through exactly when the registry revokes the project. -/
theorem punish_rejects_iff (hprovider : s.provider rep.provider ≠ none)
    (hconfigured : s.projectRegistry = some registryId)
    (hdeployed : regs registryId = some registry) :
    (∃ x, punish now self regs s rep r .rejected = .ok x) ↔
      ∃ registry', ProjectRegistry.revokeProject registry self rep.projectId
        s.projectRegistryNonce = .ok registry' := by
  -- the slash cannot fail, and it leaves the registry's address and nonce alone
  obtain ⟨s₁, hslash⟩ := slashProvider_total now r hprovider
  obtain ⟨p, active, -, -, -, -, hregistry, hnonce⟩ := slashProvider_ok hslash
  rw [hconfigured] at hregistry
  unfold punish
  rw [if_pos rfl, hslash]
  show (∃ x, revokeProject self regs s₁ rep.projectId = .ok x) ↔ _
  unfold revokeProject
  simp only [hregistry, hdeployed, hnonce, bind_eq_ok, orTrap_eq_ok, toOption_eq_some, pure_eq_ok]
  constructor
  · rintro ⟨x, registry₁, hregistry₁, registry', hrevoke, -⟩
    cases hregistry₁
    exact ⟨registry', hrevoke⟩
  -- the counted revocation is all that is left to do
  · rintro ⟨registry', hrevoke⟩
    exact ⟨_, registry, rfl, registry', hrevoke, rfl⟩

/-- The storage in which an open challenge is punished or not: decided, with the lock released. -/
def decided (now : ℕ) (s : State) (r : ReportId) (rep : Report) (ch : Challenge)
    (resolution : ReportStatus) : State :=
  releaseReportLock { s with
    challenge := Function.update s.challenge r (some (resolvedChallenge ch resolution))
    report := Function.update s.report r (some (resolvedReport now rep resolution)) }
    rep.provider r

/-- `finalize_challenge` on an open challenge. -/
theorem finalizeChallenge_open {resolution : ReportStatus} (hch : s.challenge r = some ch)
    (hopen : ch.resolved = false) (hrep : s.report r = some rep) :
    finalizeChallenge now self regs s r resolution =
      (punish now self regs (decided now s r rep ch resolution) rep r resolution >>= fun x =>
        return (settleChallengeBond x.1 ch.challenger ch.bond (resolution = .rejected), x.2)) := by
  unfold finalizeChallenge
  rw [hch]
  show (if ch.resolved then _ else _) = _
  rw [if_neg (by simp [hopen]), hrep]
  rfl

/-- The decision touches neither providers nor bonds, and not the registry. -/
theorem decided_keeps (now : ℕ) (s : State) (r : ReportId) (rep : Report) (ch : Challenge)
    (resolution : ReportStatus) :
    (decided now s r rep ch resolution).provider = s.provider ∧
      (decided now s r rep ch resolution).projectRegistry = s.projectRegistry ∧
      (decided now s r rep ch resolution).projectRegistryNonce = s.projectRegistryNonce ∧
      (decided now s r rep ch resolution).challengeBondBalance = s.challengeBondBalance ∧
      (decided now s r rep ch resolution).challengeBondLock = s.challengeBondLock := by
  unfold decided releaseReportLock
  dsimp only
  split
  · exact ⟨rfl, rfl, rfl, rfl, rfl⟩
  · exact ⟨rfl, rfl, rfl, rfl, rfl⟩

/-- **Rejecting a challenged report** goes through exactly when the registry revokes the project.
The slash and the settlement of the bond do not fail here, so the registry is what decides. -/
theorem finalizeChallenge_rejects_iff (hch : s.challenge r = some ch) (hopen : ch.resolved = false)
    (hrep : s.report r = some rep) (hprovider : s.provider rep.provider ≠ none)
    (hconfigured : s.projectRegistry = some registryId)
    (hdeployed : regs registryId = some registry) :
    (∃ x, finalizeChallenge now self regs s r .rejected = .ok x) ↔
      ∃ registry', ProjectRegistry.revokeProject registry self rep.projectId
        s.projectRegistryNonce = .ok registry' := by
  -- the decision is on record before the punishment, which reads none of it
  obtain ⟨hproviders, hregistry, hnonce, -, -⟩ :=
    decided_keeps now s r rep ch .rejected
  have hiff : (∃ x, punish now self regs (decided now s r rep ch .rejected) rep r .rejected =
      .ok x) ↔ ∃ registry', ProjectRegistry.revokeProject registry self rep.projectId
        (decided now s r rep ch .rejected).projectRegistryNonce = .ok registry' := by
    refine punish_rejects_iff ?_ ?_ hdeployed
    · rw [hproviders]
      exact hprovider
    · rw [hregistry]
      exact hconfigured
  rw [hnonce] at hiff
  rw [← hiff, finalizeChallenge_open hch hopen hrep]
  simp only [bind_eq_ok, pure_eq_ok]
  constructor
  · rintro ⟨_, x, hx, -⟩
    exact ⟨x, hx⟩
  · rintro ⟨x, hx⟩
    exact ⟨_, x, hx, rfl⟩

/-- What the rejection of a challenged report leaves behind. -/
theorem finalizeChallenge_rejects {s' : State} {regs' : Registries}
    (hch : s.challenge r = some ch) (hopen : ch.resolved = false) (hpos : 0 < ch.bond)
    (hrep : s.report r = some rep)
    (h : finalizeChallenge now self regs s r .rejected = .ok (s', regs')) :
    s'.report r = some (resolvedReport now rep .rejected) ∧
    (∃ p active, s.provider rep.provider = some p ∧ s'.provider rep.provider =
      some { p with stake := p.stake - slashableAmount p.stake, active }) ∧
    s'.challengeBondBalance ch.challenger =
      wrap (s.challengeBondBalance ch.challenger +
        min ch.bond (s.challengeBondLock ch.challenger)) := by
  obtain ⟨-, -, ch', hch', hresolved⟩ | ⟨rep', ch', hverdict⟩ :=
    finalizeChallenge_verdict (Or.inr rfl) h
  · -- the challenge is open, so it was decided
    rw [hch] at hch'
    cases hch'
    rw [hopen] at hresolved
    cases hresolved
  obtain ⟨hch', -, hrep', hdocket, houtcome⟩ := hverdict
  cases hch.symm.trans hch'
  cases hrep.symm.trans hrep'
  generalize hcouncil : council s' = c' at houtcome
  cases houtcome with
  | @rejected p _ hp _ =>
    refine ⟨?_, ⟨p, if p.stake - slashableAmount p.stake = 0 then false else p.active, hp, ?_⟩, ?_⟩
    · show (docket s').report r = _
      rw [hdocket, Docket.resolve_report]
      exact Function.update_self _ _ _
    · rw [Council.refund_eq, Council.countRevocation_eq] at hcouncil
      exact (congrFun (congrArg Council.provider hcouncil) _).trans (Function.update_self _ _ _)
    · rw [Council.refund, if_neg (not_le.mpr hpos), Council.countRevocation_eq] at hcouncil
      exact (congrFun (congrArg Council.bondBalance hcouncil) _).trans (Function.update_self _ _ _)

end Reject

end OracleConsumer
end NbsBond
