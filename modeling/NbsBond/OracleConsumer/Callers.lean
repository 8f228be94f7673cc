import NbsBond.OracleConsumer.Model
import NbsBond.ProjectRegistry.Authority
import NbsBond.Shared.Nonces

/-!
# The callers of `OracleConsumer`

An entrypoint compares the nonce of its caller before anything else it does to the state, and what
it does then leaves the nonces alone. `expire_stale_challenge`, which anyone may call, takes none.

The revocation that a rejection makes uses a nonce that the registry keeps for the contract
(`exec_usesOwn`).
-/

namespace NbsBond
namespace OracleConsumer

open Soroban

/-- The caller of an entrypoint and the nonce it presents. -/
def Op.ticket : Op → Option (Address × ℕ)
  | .registerProvider caller _ _ nonce => some (caller, nonce)
  | .removeProvider caller _ nonce => some (caller, nonce)
  | .submitReport provider _ _ _ _ _ _ _ nonce => some (provider, nonce)
  | .verifyReport caller _ nonce => some (caller, nonce)
  | .adminOverrideReport caller _ _ nonce => some (caller, nonce)
  | .challengeReport challenger _ _ nonce => some (challenger, nonce)
  | .resolveChallenge caller _ _ nonce => some (caller, nonce)
  | .resolveChallengeByVerifier caller _ _ nonce => some (caller, nonce)
  | .expireStaleChallenge _ => none
  | .setSignatureThreshold caller _ nonce => some (caller, nonce)
  | .addStake provider _ nonce => some (provider, nonce)
  | .withdrawStake provider _ nonce => some (provider, nonce)
  | .depositChallengeBond caller _ nonce => some (caller, nonce)
  | .withdrawChallengeBond caller _ nonce => some (caller, nonce)
  | .setProjectRegistry caller _ nonce => some (caller, nonce)
  | .proposeAdminTransfer caller _ nonce => some (caller, nonce)
  | .cancelAdminTransfer caller nonce => some (caller, nonce)
  | .acceptAdminTransfer caller nonce => some (caller, nonce)

/-! ### What leaves the nonces alone -/

section Kept

variable {s s' : State}

theorem releaseReportLock_nonce (s : State) (provider : Address) (reportId : ReportId) :
    (releaseReportLock s provider reportId).nonce = s.nonce := by
  unfold releaseReportLock
  dsimp only
  split <;> rfl

theorem settleChallengeBond_nonce (s : State) (challenger : Address) (bond : ℤ) (refund : Bool) :
    (settleChallengeBond s challenger bond refund).nonce = s.nonce := by
  -- whether the lock is on record or not, it is the locks that change
  unfold settleChallengeBond
  split
  · rfl
  · cases refund <;> rfl

theorem slashProvider_nonce {now : ℕ} {provider : Address} {reportId : ReportId}
    (h : slashProvider now s provider reportId = .ok s') : s'.nonce = s.nonce := by
  simp only [slashProvider, bind_eq_ok, pure_eq_ok] at h
  obtain ⟨_, -, rfl⟩ := h
  rfl

theorem revokeProject_keeps_nonce {self : Address} {regs regs' : Registries} {projectId : ℕ}
    (h : revokeProject self regs s projectId = .ok (s', regs')) : s'.nonce = s.nonce := by
  -- without a registry nothing is called
  unfold revokeProject at h
  split at h
  · cases h
    rfl
  · simp only [bind_eq_ok, pure_eq_ok, Prod.mk.injEq] at h
    obtain ⟨_, -, _, -, rfl, -⟩ := h
    rfl

/-- A rejection slashes and revokes; any other resolution does nothing more. -/
theorem punish_nonce {now : ℕ} {self : Address} {regs regs' : Registries} {report : Report}
    {reportId : ReportId} {resolution : ReportStatus}
    (h : punish now self regs s report reportId resolution = .ok (s', regs')) :
    s'.nonce = s.nonce := by
  unfold punish at h
  split at h
  · simp only [bind_eq_ok] at h
    obtain ⟨s₁, hslash, hrevoke⟩ := h
    rw [revokeProject_keeps_nonce hrevoke, slashProvider_nonce hslash]
  · cases h
    rfl

theorem finalizeChallenge_nonce {now : ℕ} {self : Address} {regs regs' : Registries}
    {reportId : ReportId} {resolution : ReportStatus}
    (h : finalizeChallenge now self regs s reportId resolution = .ok (s', regs')) :
    s'.nonce = s.nonce := by
  simp only [finalizeChallenge, bind_eq_ok] at h
  obtain ⟨challenge, -, h⟩ := h
  split at h
  · cases h
    rfl
  · simp only [bind_eq_ok, pure_eq_ok, Prod.mk.injEq] at h
    obtain ⟨report, -, ⟨s₁, regs₁⟩, hpunish, rfl, -⟩ := h
    -- the lock, the slash and the revocation, and the bond: none of them has to do with nonces
    rw [settleChallengeBond_nonce, punish_nonce hpunish, releaseReportLock_nonce]

theorem addVerifier_nonce (s : State) (reportId : ReportId) (caller : Address) :
    (addVerifier s reportId caller).nonce = s.nonce := by
  unfold addVerifier
  dsimp only
  split <;> rfl

theorem verifyIfReached_nonce (now : ℕ) (s : State) (reportId : ReportId) (report : Report) :
    (verifyIfReached now s reportId report).nonce = s.nonce := by
  unfold verifyIfReached
  split
  · exact releaseReportLock_nonce _ _ _
  · rfl

theorem addVote_nonce (s : State) (reportId : ReportId) (caller : Address) (uphold : Bool) :
    (addVote s reportId caller uphold).nonce = s.nonce := by
  cases uphold <;> rfl

end Kept

/-! ### Every entrypoint -/

/-- **An entrypoint uses up one nonce of its caller**, if it has one at all. It is compared before
any other entry is written. -/
theorem exec_uses {now : ℕ} {self : Address} {regs regs' : Registries} {s s' : State} {op : Op}
    {r : Option ReportId} (h : exec now self regs s op = .ok ((s', regs'), r)) :
    Uses s.nonce op.ticket s'.nonce := by
  cases op with
  | registerProvider caller provider methodology nonce =>
    simp only [exec, registerProvider, bind_eq_ok, useNonce_eq_ok, pure_eq_ok,
      Prod.mk.injEq] at h
    obtain ⟨_, ⟨_, ⟨rfl, rfl⟩, _, -, _, -, rfl⟩, ⟨rfl, -⟩, -⟩ := h
    exact .one caller
  | removeProvider caller provider nonce =>
    simp only [exec, removeProvider, bind_eq_ok, useNonce_eq_ok, pure_eq_ok, Prod.mk.injEq] at h
    obtain ⟨_, ⟨_, ⟨rfl, rfl⟩, _, -, _, -, rfl⟩, ⟨rfl, -⟩, -⟩ := h
    -- behind the nonce the entrypoint writes its own entries only
    exact .one caller
  | submitReport provider projectId periodStart periodEnd carbonSequestered biodiversity
      methodology ipfsEvidenceHash nonce =>
    simp only [exec, submitReport, bind_eq_ok, useNonce_eq_ok, pure_eq_ok, Prod.mk.injEq] at h
    obtain ⟨⟨_, _⟩, ⟨_, ⟨rfl, rfl⟩, _, -, _, -, _, -, _, -, _, -, _, -, _, -, _, -, _, -, rfl, -⟩,
      ⟨rfl, -⟩, -⟩ := h
    exact .one provider
  | verifyReport caller reportId nonce =>
    simp only [exec, verifyReport, bind_eq_ok, useNonce_eq_ok, pure_eq_ok, Prod.mk.injEq] at h
    obtain ⟨_, ⟨_, -, _, -, _, ⟨rfl, rfl⟩, _, -, _, -, _, -, _, -, rfl⟩, ⟨rfl, -⟩, -⟩ := h
    rw [verifyIfReached_nonce, addVerifier_nonce]
    exact .one caller
  | adminOverrideReport caller reportId status nonce =>
    simp only [exec, adminOverrideReport, bind_eq_ok, useNonce_eq_ok, pure_eq_ok,
      Prod.mk.injEq] at h
    obtain ⟨_, ⟨_, ⟨rfl, rfl⟩, _, -, _, -, _, -, _, -, rfl⟩, ⟨rfl, -⟩, -⟩ := h
    exact .one caller
  | challengeReport challenger reportId counterEvidenceHash nonce =>
    simp only [exec, challengeReport, chargeChallengeBond, bind_eq_ok, useNonce_eq_ok, pure_eq_ok,
      Prod.mk.injEq] at h
    obtain ⟨_, ⟨_, ⟨rfl, rfl⟩, _, -, _, -, _, -, _, -, _, -, _, ⟨_, -, rfl⟩, rfl⟩, ⟨rfl, -⟩, -⟩ := h
    exact .one challenger
  | resolveChallenge caller reportId resolution nonce =>
    simp only [exec, resolveChallenge, bind_eq_ok, useNonce_eq_ok, pure_eq_ok, Prod.mk.injEq] at h
    -- the challenge is closed as the admin says
    obtain ⟨⟨_, _⟩, ⟨_, ⟨rfl, rfl⟩, _, -, _, -, h⟩, ⟨rfl, -⟩, -⟩ := h
    rw [finalizeChallenge_nonce h]
    exact .one caller
  | resolveChallengeByVerifier caller reportId uphold nonce =>
    simp only [exec, resolveChallengeByVerifier, bind_eq_ok, useNonce_eq_ok, pure_eq_ok,
      Prod.mk.injEq] at h
    obtain ⟨⟨_, _⟩, ⟨_, ⟨rfl, rfl⟩, _, -, _, -, _, -, _, -, _, -, _, -, _, -, _, -, _, -, h⟩,
      ⟨rfl, -⟩, -⟩ := h
    -- the vote decides, or is only recorded
    split at h
    · rw [finalizeChallenge_nonce h, addVote_nonce]
      exact .one caller
    · cases h
      rw [addVote_nonce]
      exact .one caller
  | expireStaleChallenge reportId =>
    simp only [exec, expireStaleChallenge, bind_eq_ok, pure_eq_ok, Prod.mk.injEq] at h
    obtain ⟨_, ⟨_, -, h⟩, ⟨rfl, -⟩, -⟩ := h
    -- a challenge that is resolved already is left as it is
    split at h
    · cases h
      exact .none
    · simp only [bind_eq_ok, pure_eq_ok] at h
      obtain ⟨_, -, _, -, _, -, rfl⟩ := h
      rw [settleChallengeBond_nonce]
      exact .none
  | setSignatureThreshold caller threshold nonce =>
    simp only [exec, setSignatureThreshold, bind_eq_ok, useNonce_eq_ok, pure_eq_ok,
      Prod.mk.injEq] at h
    obtain ⟨_, ⟨_, ⟨rfl, rfl⟩, _, -, _, -, rfl⟩, ⟨rfl, -⟩, -⟩ := h
    exact .one caller
  | addStake provider amount nonce =>
    simp only [exec, addStake, bind_eq_ok, useNonce_eq_ok, pure_eq_ok, Prod.mk.injEq] at h
    obtain ⟨_, ⟨_, ⟨rfl, rfl⟩, _, -, _, -, _, -, rfl⟩, ⟨rfl, -⟩, -⟩ := h
    exact .one provider
  | withdrawStake provider amount nonce =>
    simp only [exec, withdrawStake, bind_eq_ok, useNonce_eq_ok, pure_eq_ok, Prod.mk.injEq] at h
    obtain ⟨_, ⟨_, ⟨rfl, rfl⟩, _, -, _, -, _, -, _, -, rfl⟩, ⟨rfl, -⟩, -⟩ := h
    exact .one provider
  | depositChallengeBond caller amount nonce =>
    simp only [exec, depositChallengeBond, bind_eq_ok, useNonce_eq_ok, pure_eq_ok,
      Prod.mk.injEq] at h
    obtain ⟨_, ⟨_, ⟨rfl, rfl⟩, _, -, _, -, rfl⟩, ⟨rfl, -⟩, -⟩ := h
    exact .one caller
  | withdrawChallengeBond caller amount nonce =>
    simp only [exec, withdrawChallengeBond, bind_eq_ok, useNonce_eq_ok, pure_eq_ok,
      Prod.mk.injEq] at h
    obtain ⟨_, ⟨_, ⟨rfl, rfl⟩, _, -, _, -, rfl⟩, ⟨rfl, -⟩, -⟩ := h
    exact .one caller
  | setProjectRegistry caller registryId nonce =>
    simp only [exec, setProjectRegistry, bind_eq_ok, useNonce_eq_ok, pure_eq_ok,
      Prod.mk.injEq] at h
    obtain ⟨_, ⟨_, ⟨rfl, rfl⟩, _, -, rfl⟩, ⟨rfl, -⟩, -⟩ := h
    exact .one caller
  | proposeAdminTransfer caller candidate nonce =>
    simp only [exec, proposeAdminTransfer, bind_eq_ok, useNonce_eq_ok, pure_eq_ok,
      Prod.mk.injEq] at h
    obtain ⟨_, ⟨_, ⟨rfl, rfl⟩, _, -, rfl⟩, ⟨rfl, -⟩, -⟩ := h
    exact .one caller
  | cancelAdminTransfer caller nonce =>
    simp only [exec, cancelAdminTransfer, bind_eq_ok, useNonce_eq_ok, pure_eq_ok,
      Prod.mk.injEq] at h
    obtain ⟨_, ⟨_, ⟨rfl, rfl⟩, _, -, rfl⟩, ⟨rfl, -⟩, -⟩ := h
    exact .one caller
  | acceptAdminTransfer caller nonce =>
    simp only [exec, acceptAdminTransfer, bind_eq_ok, useNonce_eq_ok, pure_eq_ok,
      Prod.mk.injEq] at h
    obtain ⟨_, ⟨_, ⟨rfl, rfl⟩, _, -, rfl⟩, ⟨rfl, -⟩, -⟩ := h
    exact .one caller

/-! ### The nonces that registries keep -/

section Registries

variable {now : ℕ} {self : Address} {regs regs' : Registries} {s s' : State}

/-- The nonces that a registry keeps; one that is not deployed keeps none. -/
def Registries.nonce (regs : Registries) (registryId a : Address) : ℕ :=
  (regs registryId).elim 0 fun registry => registry.nonce a

/-- A nested revocation uses a nonce of the contract itself, and there is at most one. -/
def UsesOwn (self : Address) (regs regs' : Registries) : Prop :=
  ∀ registryId a, regs'.nonce registryId a = regs.nonce registryId a ∨
    (a = self ∧ regs'.nonce registryId a = regs.nonce registryId a + 1)

theorem UsesOwn.refl (self : Address) (regs : Registries) : UsesOwn self regs regs :=
  fun _ _ => .inl rfl

theorem revokeProject_usesOwn {projectId : ℕ}
    (h : revokeProject self regs s projectId = .ok (s', regs')) : UsesOwn self regs regs' := by
  unfold revokeProject at h
  split at h
  · cases h
    exact .refl self regs
  · next called hcalled =>
    simp only [bind_eq_ok, orTrap_eq_ok, pure_eq_ok, Prod.mk.injEq] at h
    obtain ⟨registry, hregistry, registry', hrevoke, -, rfl⟩ := h
    have hrevoked : ProjectRegistry.revokeProject registry self projectId s.projectRegistryNonce =
        .ok registry' := by simpa using hrevoke
    have hnonce := (ProjectRegistry.revokeProject_nonce hrevoked).1
    intro registryId a
    unfold Registries.nonce
    -- the registry that is configured, and every other one
    by_cases hid : registryId = called
    · subst hid
      rw [Function.update_self, hregistry, Option.elim_some, Option.elim_some, hnonce,
        Function.update_apply]
      split
      · next ha => exact .inr ⟨ha, by rw [ha]⟩
      · exact .inl rfl
    · rw [Function.update_of_ne hid]
      exact .inl rfl

theorem finalizeChallenge_usesOwn {reportId : ReportId} {resolution : ReportStatus}
    (h : finalizeChallenge now self regs s reportId resolution = .ok (s', regs')) :
    UsesOwn self regs regs' := by
  simp only [finalizeChallenge, bind_eq_ok] at h
  obtain ⟨challenge, -, h⟩ := h
  split at h
  · cases h
    exact .refl self regs
  · simp only [bind_eq_ok, pure_eq_ok, Prod.mk.injEq] at h
    obtain ⟨report, -, ⟨s₁, regs₁⟩, hpunish, -, rfl⟩ := h
    unfold punish at hpunish
    -- only a rejection goes on to the registry
    split at hpunish
    · simp only [bind_eq_ok] at hpunish
      obtain ⟨s₂, -, hrevoke⟩ := hpunish
      exact revokeProject_usesOwn hrevoke
    · cases hpunish
      exact .refl self regs

/-- **What an entrypoint does to the nonces of the registries.** -/
theorem exec_usesOwn {op : Op} {r : Option ReportId}
    (h : exec now self regs s op = .ok ((s', regs'), r)) : UsesOwn self regs regs' := by
  -- the two ways of deciding a challenge
  cases op with
  | resolveChallenge caller reportId resolution nonce =>
    simp only [exec, resolveChallenge, bind_eq_ok, pure_eq_ok, Prod.mk.injEq] at h
    obtain ⟨⟨_, _⟩, ⟨_, -, _, -, _, -, h⟩, ⟨-, rfl⟩, -⟩ := h
    exact finalizeChallenge_usesOwn h
  | resolveChallengeByVerifier caller reportId uphold nonce =>
    simp only [exec, resolveChallengeByVerifier, bind_eq_ok, pure_eq_ok, Prod.mk.injEq] at h
    obtain ⟨⟨_, _⟩, ⟨_, -, _, -, _, -, _, -, _, -, _, -, _, -, _, -, _, -, _, -, h⟩,
      ⟨-, rfl⟩, -⟩ := h
    split at h
    · exact finalizeChallenge_usesOwn h
    · cases h
      exact .refl self regs
  -- a submission reads the registry and does not write it
  | submitReport =>
    simp only [exec, bind_eq_ok, pure_eq_ok, Prod.mk.injEq] at h
    obtain ⟨_, -, ⟨-, rfl⟩, -⟩ := h
    exact .refl self regs
  | registerProvider | removeProvider | verifyReport | adminOverrideReport | challengeReport
  | expireStaleChallenge | setSignatureThreshold | addStake | withdrawStake
  | depositChallengeBond | withdrawChallengeBond | setProjectRegistry | proposeAdminTransfer
  | cancelAdminTransfer | acceptAdminTransfer =>
    simp only [exec, bind_eq_ok, pure_eq_ok, Prod.mk.injEq] at h
    obtain ⟨_, -, ⟨-, rfl⟩, -⟩ := h
    exact .refl self regs

end Registries

end OracleConsumer
end NbsBond
