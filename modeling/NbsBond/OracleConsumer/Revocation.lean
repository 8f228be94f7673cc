import NbsBond.OracleConsumer.Council

/-!
# What the oracle does to the registries

The registries are other contracts. Of all entrypoints only a challenge decided against its report
reaches into one of them, and there it makes exactly one call: `revoke_project`, under the oracle's
own address, on the project of the report (`Move.registries`).
-/

namespace NbsBond
namespace OracleConsumer

open Soroban Int128

/-- The report against which a call decides an open challenge: the admin asks for it, or a vote
against the report completes the supermajority. -/
def Op.rejects (s : State) : Op → Option ReportId
  | .resolveChallenge _ r .rejected _ => some r
  | .resolveChallengeByVerifier _ r false _ =>
    if supermajorityThreshold (activeProviderCount s) ≤ (s.challengeRejectVotes r).length + 1 then
      some r
    else none
  | _ => none

/-- The project of the rejected report was revoked in the configured registry. -/
structure Revoked (self : Address) (regs regs' : Registries) (s : State) (r : ReportId) :
    Prop where
  challenged : ∃ ch, s.challenge r = some ch ∧ ch.resolved = false
  revoked : ∃ rep registryId registry registry', s.report r = some rep ∧
    s.projectRegistry = some registryId ∧ regs registryId = some registry ∧
    ProjectRegistry.revokeProject registry self rep.projectId s.projectRegistryNonce =
      .ok registry' ∧
    regs' = Function.update regs registryId (some registry')

/-- A decision reaches into the configured registry if it rejects the report. -/
theorem Verdict.registries {now : ℕ} {own : Address} {regs regs' : Registries} {s s' : State}
    {c : Council} {r : ReportId} {rep : Report} {ch : Challenge} {resolution : ReportStatus}
    (hverdict : Verdict now own regs regs' (OracleConsumer.docket s) c s' r rep ch resolution)
    (hregistry : c.registry = s.projectRegistry)
    (hnonce : c.registryNonce = s.projectRegistryNonce) :
    regs' = regs ∨ (resolution = .rejected ∧ Revoked own regs regs' s r) := by
  have hopen : ∃ ch, s.challenge r = some ch ∧ ch.resolved = false :=
    ⟨ch, hverdict.challenge, hverdict.opened⟩
  have houtcome := hverdict.outcome
  generalize council s' = c' at houtcome
  cases houtcome with
  | upheld => exact Or.inl rfl
  | rejected _ hrevokes =>
    cases hrevokes with
    -- without a registry nothing is revoked
    | unconfigured _ => exact Or.inl rfl
    | @revoked registryId registry registry' hconfigured hdeployed hrevoke =>
      rw [hregistry] at hconfigured
      rw [hnonce] at hrevoke
      exact Or.inr ⟨rfl, hopen, rep, registryId, registry, registry', hverdict.report, hconfigured,
        hdeployed, hrevoke, rfl⟩

/-- **What a call can do to the registries.** It is one registry, the configured one. -/
theorem Move.registries {now : ℕ} {own : Address} {regs regs' : Registries} {s s' : State}
    {op : Op} (hmove : Move now own regs regs' s s' op) :
    regs' = regs ∨ ∃ r, op.rejects s = some r ∧ Revoked own regs regs' s r := by
  cases hmove with
  | idle _ _ _ _ hregs => exact Or.inl hregs
  | challenge _ _ _ _ _ hregs => exact Or.inl hregs
  | expire _ _ _ _ _ hregs => exact Or.inl hregs
  | @rule _ r _ _ _ _ _ hverdict =>
    -- the admin asked for the rejection
    obtain hsame | ⟨rfl, hrevoked⟩ := hverdict.registries rfl rfl
    · exact Or.inl hsame
    · exact Or.inr ⟨r, rfl, hrevoked⟩
  | @concur _ r uphold _ _ _ _ hreached hverdict =>
    obtain hsame | ⟨hrejected, hrevoked⟩ := hverdict.registries rfl rfl
    · exact Or.inl hsame
    · cases uphold with
      -- a vote to uphold cannot reject
      | true => cases hrejected
      -- the vote that was just added completes the supermajority
      | false => exact Or.inr ⟨r, if_pos hreached, hrevoked⟩
  | register _ _ hamends | remove _ _ hamends | vote _ _ hamends | setThreshold _ _ hamends
  | addStake _ _ _ hamends | withdrawStake _ _ _ _ hamends | depositBond _ _ hamends
  | withdrawBond _ _ hamends | setRegistry _ hamends | propose _ hamends | cancel _ _ hamends
  | accept _ _ _ hamends => exact Or.inl hamends.registries

end OracleConsumer
end NbsBond
