import NbsBond.OracleConsumer.Model

/-!
# The docket of reports

A report travels from submission to a final status through seven entrypoints, two of which share a
finaliser. The `Docket` is the part of the storage this touches: the reports, their challenges,
their signatures, and the stake and bonds locked on their account.

`step_of_exec` says once what a committed call does to the docket: nothing, or one of seven moves.
Every invariant of the report life cycle is derived from these moves. Providers, thresholds, votes,
registries and the admin appear only as the conditions under which a move was made.
-/

namespace NbsBond
namespace OracleConsumer

open Soroban Int128

/-- Reports, challenges, signatures and locks. -/
structure Docket where
  count : ℕ
  report : ReportId → Option Report
  challenge : ReportId → Option Challenge
  verifiers : ReportId → List Address
  verificationCount : ReportId → ℕ
  reportLock : ReportId → ℤ
  lockedStake : Address → ℤ
  bondLock : Address → ℤ

/-- The docket of a storage state. -/
def docket (s : State) : Docket where
  count := s.reportCount
  report := s.report
  challenge := s.challenge
  verifiers := s.reportVerifiers
  verificationCount := s.verificationCount
  reportLock := s.reportLock
  lockedStake := s.lockedStake
  bondLock := s.challengeBondLock

namespace Docket

variable (d : Docket)

/-- Write one report. -/
def setReport (r : ReportId) (rep : Report) : Docket :=
  { d with report := Function.update d.report r (some rep) }

/-- Write one challenge. -/
def setChallenge (r : ReportId) (ch : Challenge) : Docket :=
  { d with challenge := Function.update d.challenge r (some ch) }

/-- Lock `amount` of the provider's stake on account of report `r`. -/
def lock (provider : Address) (r : ReportId) (amount : ℤ) : Docket :=
  { d with
    reportLock := Function.update d.reportLock r amount
    lockedStake :=
      Function.update d.lockedStake provider (wrap (d.lockedStake provider + amount)) }

/-- Release what report `r` has locked. -/
def release (provider : Address) (r : ReportId) : Docket :=
  if d.reportLock r = 0 then d
  else
    { d with
      reportLock := Function.update d.reportLock r 0
      lockedStake := Function.update d.lockedStake provider
        (if d.lockedStake provider < d.reportLock r then 0
          else d.lockedStake provider - d.reportLock r) }

/-- Add a signature, once. -/
def sign (r : ReportId) (a : Address) : Docket :=
  if a ∈ d.verifiers r then d
  else
    { d with
      verifiers := Function.update d.verifiers r (d.verifiers r ++ [a])
      verificationCount :=
        Function.update d.verificationCount r (d.verifiers r ++ [a]).length }

/-- Lock a challenge bond. -/
def chargeBond (a : Address) : Docket :=
  { d with bondLock := Function.update d.bondLock a (d.bondLock a + challengeBond) }

/-- Unlock a challenge bond. -/
def settleBond (a : Address) (bond : ℤ) : Docket :=
  if bond ≤ 0 then d
  else { d with bondLock := Function.update d.bondLock a (d.bondLock a - min bond (d.bondLock a)) }

end Docket

/-! ### The helpers of the contract, on the docket -/

section Helpers

variable (s : State)

theorem docket_releaseReportLock (v : Address) (r : ReportId) :
    docket (releaseReportLock s v r) = (docket s).release v r := by
  unfold releaseReportLock Docket.release
  dsimp only
  by_cases h : s.reportLock r = 0
  · rw [if_pos h, if_pos (show (docket s).reportLock r = 0 from h)]
  · rw [if_neg h, if_neg (show ¬ (docket s).reportLock r = 0 from h)]
    rfl

theorem docket_addVerifier (r : ReportId) (a : Address) :
    docket (addVerifier s r a) = (docket s).sign r a := by
  unfold addVerifier Docket.sign
  dsimp only
  by_cases h : a ∈ s.reportVerifiers r
  · rw [if_pos h, if_pos (show a ∈ (docket s).verifiers r from h)]
  · rw [if_neg h, if_neg (show a ∉ (docket s).verifiers r from h)]
    rfl

theorem docket_settleChallengeBond (a : Address) (bond : ℤ) (refund : Bool) :
    docket (settleChallengeBond s a bond refund) = (docket s).settleBond a bond := by
  unfold settleChallengeBond Docket.settleBond
  dsimp only
  by_cases h : bond ≤ 0
  · rw [if_pos h, if_pos h]
  · rw [if_neg h, if_neg h]
    cases refund <;> rfl

theorem docket_addVote (r : ReportId) (a : Address) (uphold : Bool) :
    docket (addVote s r a uphold) = docket s := by
  unfold addVote
  split <;> rfl

end Helpers

theorem docket_chargeChallengeBond {s s' : State} {a : Address}
    (h : chargeChallengeBond s a = .ok s') :
    docket s' = (docket s).chargeBond a := by
  simp only [chargeChallengeBond, bind_eq_ok, ensure_eq_ok, pure_eq_ok] at h
  obtain ⟨_, -, rfl⟩ := h
  rfl

/-- Slashing and the registry call leave the docket alone. -/
theorem docket_punish {now : ℕ} {self : Address} {regs regs' : Registries} {s s' : State}
    {rep : Report} {r : ReportId} {resolution : ReportStatus}
    (h : punish now self regs s rep r resolution = .ok (s', regs')) : docket s' = docket s := by
  unfold punish at h
  split at h
  swap
  · cases h
    rfl
  rw [bind_eq_ok] at h
  obtain ⟨s₁, hslash, hrevoke⟩ := h
  have h₁ : docket s₁ = docket s := by
    simp only [slashProvider, bind_eq_ok, orTrap_eq_ok, pure_eq_ok] at hslash
    obtain ⟨p, -, rfl⟩ := hslash
    rfl
  rw [← h₁]
  unfold revokeProject at hrevoke
  split at hrevoke
  · cases hrevoke
    rfl
  · simp only [bind_eq_ok, orTrap_eq_ok, pure_eq_ok, Prod.mk.injEq] at hrevoke
    obtain ⟨registry, -, registry', -, rfl, -⟩ := hrevoke
    rfl

/-- The report and the challenge after a resolution at time `now`. -/
def resolvedReport (now : ℕ) (rep : Report) (resolution : ReportStatus) : Report :=
  { rep with
    status := resolution
    verifiedAt := if resolution = .verified then now else rep.verifiedAt }

def resolvedChallenge (ch : Challenge) (resolution : ReportStatus) : Challenge :=
  { ch with resolved := true, resolution := discriminant resolution }

/-- The docket after a resolution. -/
def Docket.resolve (d : Docket) (now : ℕ) (r : ReportId) (rep : Report) (ch : Challenge)
    (resolution : ReportStatus) : Docket :=
  (((d.setChallenge r (resolvedChallenge ch resolution)).setReport r
    (resolvedReport now rep resolution)).release rep.provider r).settleBond ch.challenger ch.bond

/-- `finalize_challenge` does nothing to a resolved challenge and settles an open one. -/
theorem finalizeChallenge_ok {now : ℕ} {self : Address} {regs regs' : Registries} {s s' : State}
    {r : ReportId} {resolution : ReportStatus}
    (h : finalizeChallenge now self regs s r resolution = .ok (s', regs')) :
    (docket s' = docket s) ∨ ∃ ch rep, s.challenge r = some ch ∧ ch.resolved = false ∧
      s.report r = some rep ∧ docket s' = (docket s).resolve now r rep ch resolution := by
  simp only [finalizeChallenge, bind_eq_ok, orError_eq_ok] at h
  obtain ⟨ch, hch, h⟩ := h
  split at h
  · cases h
    exact Or.inl rfl
  · next hres =>
    simp only [bind_eq_ok, orError_eq_ok, pure_eq_ok, Prod.mk.injEq] at h
    obtain ⟨rep, hrep, ⟨s₁, regs₁⟩, hpunish, rfl, -⟩ := h
    refine Or.inr ⟨ch, rep, hch, Bool.eq_false_iff.mpr hres, hrep, ?_⟩
    rw [docket_settleChallengeBond, docket_punish hpunish, docket_releaseReportLock]
    rfl

/-! ### The moves -/

/-- The report a challenge is opened on. -/
def Op.challenges : Op → Option ReportId
  | .challengeReport _ r _ _ => some r
  | _ => none

/-- The report whose challenge a call may resolve. -/
def Op.resolves : Op → Option ReportId
  | .resolveChallenge _ r _ _ => some r
  | .resolveChallengeByVerifier _ r _ _ => some r
  | _ => none

/-- The effect of a committed call on the docket. -/
inductive Step (now : ℕ) (s : State) (d : Docket) : Op → Prop
  /-- The docket is untouched; the call did not open a challenge. -/
  | frame {op : Op} (hop : op.challenges = none) (hd : d = docket s) : Step now s d op
  /-- A new pending report, with a lock on its provider's stake. -/
  | submit {provider : Address} {projectId periodStart periodEnd : ℕ} {carbonSequestered : ℤ}
      {biodiversity : BiodiversityMetrics} {methodology : String} {ipfsEvidenceHash : Bytes32}
      {nonce : ℕ} {p : OracleProvider} {rep : Report}
      (hprovider : s.provider provider = some p)
      (hid : rep.id = s.reportCount + 1) (hby : rep.provider = provider)
      (hstatus : rep.status = .pending)
      (hcarbon : 0 ≤ rep.carbonSequestered)
      (hbio : BiodiversityMetrics.nonneg rep.biodiversity = true)
      (hd : d = { ((docket s).setReport (s.reportCount + 1) rep).lock provider
          (s.reportCount + 1) (slashableAmount p.stake) with count := s.reportCount + 1 }) :
      Step now s d (.submitReport provider projectId periodStart periodEnd carbonSequestered
        biodiversity methodology ipfsEvidenceHash nonce)
  /-- One more signature on a pending report, below the threshold. -/
  | sign {caller : Address} {r : ReportId} {nonce : ℕ} {rep : Report}
      (hactive : isActive s caller = true) (hrep : s.report r = some rep)
      (hpending : rep.status = .pending) (hother : caller ≠ rep.provider)
      (hbelow : (((docket s).sign r caller).verifiers r).length < s.signatureThreshold)
      (hd : d = (docket s).sign r caller) : Step now s d (.verifyReport caller r nonce)
  /-- The signature that reaches the threshold. -/
  | verify {caller : Address} {r : ReportId} {nonce : ℕ} {rep : Report}
      (hactive : isActive s caller = true) (hrep : s.report r = some rep)
      (hpending : rep.status = .pending) (hclosed : ∀ c ∈ s.challenge r, c.resolved = true)
      (hother : caller ≠ rep.provider)
      (hreached : s.signatureThreshold ≤ (((docket s).sign r caller).verifiers r).length)
      (hd : d = (((docket s).sign r caller).setReport r
        { rep with status := .verified, verifiedAt := now }).release rep.provider r) :
      Step now s d (.verifyReport caller r nonce)
  /-- The admin decides a pending report. The lock stays. -/
  | override {caller : Address} {r : ReportId} {status : ReportStatus} {nonce : ℕ} {rep : Report}
      (hadmin : s.admin = some caller) (hstatus : status = .verified ∨ status = .rejected)
      (hrep : s.report r = some rep) (hpending : rep.status = .pending)
      (hd : d = (docket s).setReport r { rep with status, verifiedAt := now }) :
      Step now s d (.adminOverrideReport caller r status nonce)
  /-- The first challenge of a pending report. -/
  | challenge {challenger : Address} {r : ReportId} {hash : Bytes32} {nonce : ℕ} {rep : Report}
      (hnew : s.challenge r = none) (hrep : s.report r = some rep)
      (hpending : rep.status = .pending) (hother : challenger ≠ rep.provider)
      (hd : d = ((((docket s).chargeBond challenger).setChallenge r
        ⟨r, challenger, hash, now, false, 0, challengeBond⟩).setReport r
          { rep with status := .challenged })) :
      Step now s d (.challengeReport challenger r hash nonce)
  /-- A challenge is decided, by the admin or by the verifiers. -/
  | resolve {op : Op} {r : ReportId} {rep : Report} {ch : Challenge} {resolution : ReportStatus}
      (hop : op.resolves = some r) (hch : s.challenge r = some ch) (hopen : ch.resolved = false)
      (hrep : s.report r = some rep)
      (hresolution : resolution = .verified ∨ resolution = .rejected)
      (hd : d = (docket s).resolve now r rep ch resolution) : Step now s d op
  /-- A stale challenge lapses and the report is pending again. -/
  | expire {r : ReportId} {rep : Report} {ch : Challenge}
      (hch : s.challenge r = some ch) (hopen : ch.resolved = false) (hrep : s.report r = some rep)
      (hchallenged : rep.status = .challenged)
      (hd : d = (((docket s).setChallenge r { ch with resolved := true }).setReport r
        { rep with status := .pending }).settleBond ch.challenger ch.bond) :
      Step now s d (.expireStaleChallenge r)

theorem submitReport_step {now : ℕ} {regs : Registries} {s s' : State} {provider : Address}
    {projectId periodStart periodEnd : ℕ} {carbonSequestered : ℤ}
    {biodiversity : BiodiversityMetrics} {methodology : String} {ipfsEvidenceHash : Bytes32}
    {nonce : ℕ} {r : ReportId}
    (h : submitReport now regs s provider projectId periodStart periodEnd carbonSequestered
      biodiversity methodology ipfsEvidenceHash nonce = .ok (s', r)) :
    Step now s (docket s') (.submitReport provider projectId periodStart periodEnd
      carbonSequestered biodiversity methodology ipfsEvidenceHash nonce) := by
  simp only [submitReport, bind_eq_ok, useNonce_eq_ok, orError_eq_ok, ensure_eq_ok, pure_eq_ok,
    Prod.mk.injEq] at h
  obtain ⟨_, -, p, hprovider, _, -, _, ⟨-, hcarbon⟩, _, hbio, _, -, project, -, _, -, _, -, _, -,
    rfl, -⟩ := h
  let rep : Report := ⟨s.reportCount + 1, provider, projectId, project.metadataIpfsHash,
    periodStart, periodEnd, carbonSequestered, biodiversity, methodology, ipfsEvidenceHash,
    .pending, now, 0⟩
  have hid : rep.id = s.reportCount + 1 := rfl
  exact .submit hprovider hid rfl rfl hcarbon hbio rfl

theorem verifyReport_step {now : ℕ} {s s' : State} {caller : Address} {r : ReportId} {nonce : ℕ}
    (h : verifyReport now s caller r nonce = .ok s') :
    Step now s (docket s') (.verifyReport caller r nonce) := by
  simp only [verifyReport, bind_eq_ok, useNonce_eq_ok, orError_eq_ok, ensure_eq_ok,
    pure_eq_ok] at h
  obtain ⟨p, hprovider, _, hactive, _, ⟨-, rfl⟩, rep, hrep, _, hpending, _, hclosed, _, hother,
    rfl⟩ := h
  have hact : isActive s caller = true := by simp [isActive, hprovider, hactive]
  -- the threshold is read after the signature was added, which does not change it
  let s₁ : State := { s with nonce := Function.update s.nonce caller (s.nonce caller + 1) }
  have hsign : docket (addVerifier s₁ r caller) = (docket s).sign r caller :=
    docket_addVerifier s₁ r caller
  have hthreshold : (addVerifier s₁ r caller).signatureThreshold = s.signatureThreshold := by
    unfold addVerifier
    dsimp only
    split <;> rfl
  have hverifiers : (addVerifier s₁ r caller).reportVerifiers r =
      ((docket s).sign r caller).verifiers r := by rw [← hsign]; rfl
  show Step now s (docket (verifyIfReached now (addVerifier s₁ r caller) r rep)) _
  unfold verifyIfReached
  rw [hthreshold, hverifiers]
  split
  · next hreached =>
    refine .verify hact hrep hpending hclosed hother hreached ?_
    rw [docket_releaseReportLock, ← hsign]
    rfl
  · next hbelow => exact .sign hact hrep hpending hother (not_le.mp hbelow) hsign

theorem challengeReport_step {now : ℕ} {s s' : State} {challenger : Address} {r : ReportId}
    {hash : Bytes32} {nonce : ℕ} (h : challengeReport now s challenger r hash nonce = .ok s') :
    Step now s (docket s') (.challengeReport challenger r hash nonce) := by
  simp only [challengeReport, bind_eq_ok, useNonce_eq_ok, orError_eq_ok, ensure_eq_ok,
    pure_eq_ok] at h
  obtain ⟨_, ⟨-, rfl⟩, _, hnew, rep, hrep, _, hpending, _, hother, _, -, s₁, hcharge, rfl⟩ := h
  have hdocket := docket_chargeChallengeBond hcharge
  refine .challenge hnew hrep hpending hother ?_
  change docket s₁ = (docket s).chargeBond challenger at hdocket
  rw [← hdocket]
  rfl

theorem expireStaleChallenge_step {now : ℕ} {s s' : State} {r : ReportId}
    (h : expireStaleChallenge now s r = .ok s') :
    Step now s (docket s') (.expireStaleChallenge r) := by
  simp only [expireStaleChallenge, bind_eq_ok, orError_eq_ok] at h
  obtain ⟨ch, hch, h⟩ := h
  split at h
  · cases h
    exact .frame rfl rfl
  · next hres =>
    simp only [bind_eq_ok, orError_eq_ok, ensure_eq_ok, pure_eq_ok] at h
    obtain ⟨_, -, rep, hrep, _, hchallenged, rfl⟩ := h
    refine .expire hch (Bool.eq_false_iff.mpr hres) hrep hchallenged ?_
    rw [docket_settleChallengeBond]
    rfl

/-- **What a call can do to the docket.** Later invariants take their cases from here and do not
unfold an entrypoint again. -/
theorem step_of_exec {now : ℕ} {self : Address} {regs regs' : Registries} {s s' : State} {op : Op}
    {r : Option ReportId} (h : exec now self regs s op = .ok ((s', regs'), r)) :
    Step now s (docket s') op := by
  cases op with
  | submitReport provider projectId periodStart periodEnd carbonSequestered biodiversity
      methodology ipfsEvidenceHash nonce =>
    simp only [exec, bind_eq_ok, pure_eq_ok, Prod.mk.injEq] at h
    obtain ⟨⟨s₁, r₁⟩, h, ⟨rfl, -⟩, -⟩ := h
    exact submitReport_step h
  | verifyReport caller r nonce =>
    simp only [exec, bind_eq_ok, pure_eq_ok, Prod.mk.injEq] at h
    obtain ⟨s₁, h, ⟨rfl, -⟩, -⟩ := h
    exact verifyReport_step h
  | adminOverrideReport caller r status nonce =>
    simp only [exec, adminOverrideReport, bind_eq_ok, pure_eq_ok, useNonce_eq_ok,
      requireAdmin_eq_ok, ensure_eq_ok, orError_eq_ok, Prod.mk.injEq] at h
    obtain ⟨_, ⟨_, ⟨-, rfl⟩, _, hadmin, _, hstatus, rep, hrep, _, hpending, rfl⟩, ⟨rfl, -⟩, -⟩ := h
    exact .override hadmin hstatus hrep hpending rfl
  | challengeReport challenger r hash nonce =>
    simp only [exec, bind_eq_ok, pure_eq_ok, Prod.mk.injEq] at h
    obtain ⟨s₁, h, ⟨rfl, -⟩, -⟩ := h
    exact challengeReport_step h
  | resolveChallenge caller r resolution nonce =>
    simp only [exec, resolveChallenge, bind_eq_ok, pure_eq_ok, useNonce_eq_ok,
      requireAdmin_eq_ok, ensure_eq_ok, Prod.mk.injEq] at h
    obtain ⟨⟨s₁, regs₁⟩, ⟨_, ⟨-, rfl⟩, _, -, _, hresolution, hfinal⟩, ⟨rfl, -⟩, -⟩ := h
    obtain hsame | ⟨ch, rep, hch, hopen, hrep, hd⟩ := finalizeChallenge_ok hfinal
    · exact .frame rfl hsame
    · exact .resolve rfl hch hopen hrep hresolution hd
  | resolveChallengeByVerifier caller r uphold nonce =>
    simp only [exec, resolveChallengeByVerifier, bind_eq_ok, pure_eq_ok, useNonce_eq_ok,
      ensure_eq_ok, orError_eq_ok, Prod.mk.injEq] at h
    obtain ⟨⟨s₁, regs₁⟩, ⟨_, ⟨-, rfl⟩, _, -, _, -, _, -, _, -, _, -, _, -, _, -, _, -, _, -, h⟩,
      ⟨rfl, -⟩, -⟩ := h
    -- the vote is outside the docket, so the decision starts from the docket as it was
    generalize hs₂ : addVote _ r caller uphold = s₂ at h
    have hsame : docket s₂ = docket s := by
      rw [← hs₂]
      exact docket_addVote _ r caller uphold
    split at h
    · obtain hsame' | ⟨ch, rep, hch, hopen, hrep, hd⟩ := finalizeChallenge_ok h
      · exact .frame rfl (hsame'.trans hsame)
      · change (docket s₂).challenge r = some ch at hch
        change (docket s₂).report r = some rep at hrep
        rw [hsame] at hch hrep hd
        refine .resolve rfl hch hopen hrep ?_ hd
        cases uphold
        · exact Or.inr rfl
        · exact Or.inl rfl
    · cases h
      exact .frame rfl hsame
  | expireStaleChallenge r =>
    simp only [exec, bind_eq_ok, pure_eq_ok, Prod.mk.injEq] at h
    obtain ⟨s₁, h, ⟨rfl, -⟩, -⟩ := h
    exact expireStaleChallenge_step h
  -- none of the others touches a report or a challenge
  | registerProvider caller provider methodology nonce =>
    simp only [exec, registerProvider, bind_eq_ok, pure_eq_ok, Prod.mk.injEq] at h
    obtain ⟨_, ⟨_, -, _, -, _, -, rfl⟩, ⟨rfl, -⟩, -⟩ := h
    exact .frame rfl rfl
  | removeProvider caller provider nonce =>
    simp only [exec, removeProvider, bind_eq_ok, pure_eq_ok, Prod.mk.injEq] at h
    obtain ⟨_, ⟨_, -, _, -, _, -, rfl⟩, ⟨rfl, -⟩, -⟩ := h
    exact .frame rfl rfl
  | setSignatureThreshold caller threshold nonce =>
    simp only [exec, setSignatureThreshold, bind_eq_ok, pure_eq_ok, Prod.mk.injEq] at h
    obtain ⟨_, ⟨_, -, _, -, _, -, rfl⟩, ⟨rfl, -⟩, -⟩ := h
    exact .frame rfl rfl
  | addStake provider amount nonce =>
    simp only [exec, addStake, bind_eq_ok, pure_eq_ok, Prod.mk.injEq] at h
    obtain ⟨_, ⟨_, -, _, -, _, -, _, -, rfl⟩, ⟨rfl, -⟩, -⟩ := h
    exact .frame rfl rfl
  | withdrawStake provider amount nonce =>
    simp only [exec, withdrawStake, bind_eq_ok, pure_eq_ok, Prod.mk.injEq] at h
    obtain ⟨_, ⟨_, -, _, -, _, -, _, -, _, -, rfl⟩, ⟨rfl, -⟩, -⟩ := h
    exact .frame rfl rfl
  | depositChallengeBond caller amount nonce =>
    simp only [exec, depositChallengeBond, bind_eq_ok, pure_eq_ok, Prod.mk.injEq] at h
    obtain ⟨_, ⟨_, -, _, -, _, -, rfl⟩, ⟨rfl, -⟩, -⟩ := h
    exact .frame rfl rfl
  | withdrawChallengeBond caller amount nonce =>
    simp only [exec, withdrawChallengeBond, bind_eq_ok, pure_eq_ok, Prod.mk.injEq] at h
    obtain ⟨_, ⟨_, -, _, -, _, -, rfl⟩, ⟨rfl, -⟩, -⟩ := h
    exact .frame rfl rfl
  | setProjectRegistry caller registryId nonce =>
    simp only [exec, setProjectRegistry, bind_eq_ok, pure_eq_ok, Prod.mk.injEq] at h
    obtain ⟨_, ⟨_, -, _, -, rfl⟩, ⟨rfl, -⟩, -⟩ := h
    exact .frame rfl rfl
  | proposeAdminTransfer caller candidate nonce =>
    simp only [exec, proposeAdminTransfer, bind_eq_ok, pure_eq_ok, Prod.mk.injEq] at h
    obtain ⟨_, ⟨_, -, _, -, rfl⟩, ⟨rfl, -⟩, -⟩ := h
    exact .frame rfl rfl
  | cancelAdminTransfer caller nonce =>
    simp only [exec, cancelAdminTransfer, bind_eq_ok, pure_eq_ok, Prod.mk.injEq] at h
    obtain ⟨_, ⟨_, -, _, -, rfl⟩, ⟨rfl, -⟩, -⟩ := h
    exact .frame rfl rfl
  | acceptAdminTransfer caller nonce =>
    simp only [exec, acceptAdminTransfer, bind_eq_ok, pure_eq_ok, Prod.mk.injEq] at h
    obtain ⟨_, ⟨_, -, _, -, rfl⟩, ⟨rfl, -⟩, -⟩ := h
    exact .frame rfl rfl

end OracleConsumer
end NbsBond
