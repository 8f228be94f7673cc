import NbsBond.ProjectRegistry.Model

/-!
# The OracleConsumer contract

`contracts/oracle-consumer/src/lib.rs`: providers and their stake, reports, consensus
verification, bonded challenges and their resolution.

The contract reads project linkages from a configured `ProjectRegistry` and, when a report is
rejected, revokes the project there. Any registry address may be configured, so the functions that
cross the border take the family of all deployed registries, and `self`, the contract's own
address.

Keys that are only ever read with a default (`LockedStake`, `ReportLock`, the challenge-bond
balances, the vote lists) are total functions; removing such a key writes the default.
-/

namespace NbsBond
namespace OracleConsumer

open Soroban Int128

def challengeWindowSeconds : ℕ := 259200

def slashPenaltyPpm : ℤ := 100000

/-- Stake locked per challenge. -/
def challengeBond : ℤ := 1000000

def challengeTimeoutSeconds : ℕ := 2592000

def maxPeriodHistory : ℕ := 200

structure OracleProvider where
  address : Address
  methodology : String
  stake : ℤ
  active : Bool
  registeredAt : ℕ
  deriving DecidableEq, Repr

structure Report where
  id : ReportId
  provider : Address
  projectId : ℕ
  projectMetadataHash : Bytes32
  periodStart : ℕ
  periodEnd : ℕ
  carbonSequestered : ℤ
  biodiversity : BiodiversityMetrics
  methodology : String
  ipfsEvidenceHash : Bytes32
  status : ReportStatus
  submittedAt : ℕ
  verifiedAt : ℕ
  deriving DecidableEq, Repr

/-- `resolution` is the discriminant of the status a challenge was resolved to, `0` until then. A
challenge that timed out keeps `0`: no status was decided. -/
structure Challenge where
  reportId : ReportId
  challenger : Address
  counterEvidenceHash : Bytes32
  submittedAt : ℕ
  resolved : Bool
  resolution : ℕ
  bond : ℤ
  deriving DecidableEq, Repr

structure SlashRecord where
  reportId : ReportId
  penalty : ℤ
  remainingStake : ℤ
  timestamp : ℕ
  activeAfter : Bool
  deriving DecidableEq, Repr

structure ProviderStats where
  reportsSubmitted : ℕ
  challengesFaced : ℕ
  slashes : ℕ
  totalPenalty : ℤ
  stake : ℤ
  active : Bool
  deriving DecidableEq, Repr

/-- The contract's storage. A key that is only read with `has` or `unwrap_or` has no `Option` here:
its absence and its default are the same to every reader. -/
structure State where
  admin : Option Address
  provider : Address → Option OracleProvider
  providerList : List Address
  report : ReportId → Option Report
  reportCount : ℕ
  projectReports : ℕ → List ReportId
  challenge : ReportId → Option Challenge
  reportVerifiers : ReportId → List Address
  verificationCount : ReportId → ℕ
  signatureThreshold : ℕ
  challengeWindow : ℕ
  nonce : Address → ℕ
  providerReportCount : Address → ℕ
  projectRegistry : Option Address
  projectRegistryNonce : ℕ
  providerChallenges : Address → List ReportId
  slashHistory : Address → List SlashRecord
  lockedStake : Address → ℤ
  reportLock : ReportId → ℤ
  challengeBondBalance : Address → ℤ
  challengeBondLock : Address → ℤ
  challengeUpholdVotes : ReportId → List Address
  challengeRejectVotes : ReportId → List Address
  projectReportPeriods : ℕ → List (ℕ × ℕ)
  pendingAdmin : Option PendingAdminChange

/-- The deployed registries, by address. -/
abbrev Registries : Type := Address → Option ProjectRegistry.State

/-- `__constructor`. -/
def construct (admin : Address) : State where
  admin := some admin
  provider _ := none
  providerList := []
  report _ := none
  reportCount := 0
  projectReports _ := []
  challenge _ := none
  reportVerifiers _ := []
  verificationCount _ := 0
  signatureThreshold := 1
  challengeWindow := challengeWindowSeconds
  nonce _ := 0
  providerReportCount _ := 0
  projectRegistry := none
  projectRegistryNonce := 0
  providerChallenges _ := []
  slashHistory _ := []
  lockedStake _ := 0
  reportLock _ := 0
  challengeBondBalance _ := 0
  challengeBondLock _ := 0
  challengeUpholdVotes _ := []
  challengeRejectVotes _ := []
  projectReportPeriods _ := []
  pendingAdmin := none

/-! ### Helpers shared by the entrypoints -/

/-- A provider entry that exists and is active. `active_provider_count` reads the entries of the
list; an address without an entry does not count. -/
def isActive (s : State) (a : Address) : Bool :=
  match s.provider a with
  | some p => p.active
  | none => false

/-- `active_provider_count`. Removed and slashed providers stay in the list and are not counted. -/
def activeProviderCount (s : State) : ℕ := s.providerList.countP (isActive s)

/-- `reconcile_signature_threshold`. A threshold above the number of active providers could never be
reached again; with none left it falls to one and not to zero. -/
def reconcileSignatureThreshold (s : State) : State :=
  { s with signatureThreshold := min s.signatureThreshold (max (activeProviderCount s) 1) }

/-- `slashable_amount`: a tenth of the stake, or all of it when a tenth rounds to nothing. The
multiplication is unchecked. -/
def slashableAmount (stake : ℤ) : ℤ :=
  let penalty := (wrap (stake * slashPenaltyPpm)).tdiv 1000000
  let penalty := if penalty ≤ 0 then stake else penalty
  if stake < penalty then stake else penalty

/-- `lock_stake_for_report`; the addition is unchecked. -/
def lockStakeForReport (s : State) (provider : Address) (reportId : ReportId) (stake : ℤ) :
    State :=
  let lockAmount := slashableAmount stake
  -- The lock of this report replaces whatever was stored for it, while the provider's total grows:
  -- a report is locked once, so the two agree.
  { s with
    reportLock := Function.update s.reportLock reportId lockAmount
    lockedStake :=
      Function.update s.lockedStake provider (wrap (s.lockedStake provider + lockAmount)) }

/-- `release_report_lock`. The total saturates at zero, the lock of the report is removed. -/
def releaseReportLock (s : State) (provider : Address) (reportId : ReportId) : State :=
  let lockAmount := s.reportLock reportId
  -- A report whose lock was released before, or that never had one.
  if lockAmount = 0 then s
  else
    let locked := s.lockedStake provider
    { s with
      reportLock := Function.update s.reportLock reportId 0
      lockedStake :=
        Function.update s.lockedStake provider
          (if locked < lockAmount then 0 else locked - lockAmount) }

/-- `charge_challenge_bond`. At most one challenge exists per report, so the locked total stays
below `2 ^ 64 * challengeBond` and its addition is exact. -/
def chargeChallengeBond (s : State) (challenger : Address) : Result OracleError State := do
  let balance := s.challengeBondBalance challenger
  ensure (challengeBond ≤ balance) .insufficientChallengeBond
  return { s with
    challengeBondBalance :=
      Function.update s.challengeBondBalance challenger (balance - challengeBond)
    challengeBondLock :=
      Function.update s.challengeBondLock challenger
        (s.challengeBondLock challenger + challengeBond) }

/-- `settle_challenge_bond`; the refund is an unchecked addition. What is released never exceeds the
locked total, and a bond that is not refunded is burned: it is taken from the total and paid to
nobody. -/
def settleChallengeBond (s : State) (challenger : Address) (bond : ℤ) (refund : Bool) : State :=
  if bond ≤ 0 then s
  else
    let locked := s.challengeBondLock challenger
    let released := min bond locked
    let s := { s with
      challengeBondLock := Function.update s.challengeBondLock challenger (locked - released) }
    if refund then
      { s with
        challengeBondBalance :=
          Function.update s.challengeBondBalance challenger
            (wrap (s.challengeBondBalance challenger + released)) }
    else s

/-- `supermajority_threshold`: the least `v` with `3 * v ≥ 2 * active`, and at least one. -/
def supermajorityThreshold (active : ℕ) : ℕ := max ((2 * active + 2) / 3) 1

/-- `slash_provider`. A provider without stake left is deactivated, and the threshold follows the
number of active providers down. -/
def slashProvider (now : ℕ) (s : State) (provider : Address) (reportId : ReportId) :
    Result OracleError State := do
  -- The provider of a stored report is always stored; the source unwraps it.
  let p ← orTrap (s.provider provider)
  let penalty := slashableAmount p.stake
  let stake := p.stake - penalty
  -- `active` stays as it was otherwise: a removed provider is not reactivated by a slash.
  let active := if stake = 0 then false else p.active
  let s := reconcileSignatureThreshold { s with
    provider := Function.update s.provider provider (some { p with stake, active }) }
  let entry : SlashRecord := ⟨reportId, penalty, stake, now, active⟩
  return { s with
    slashHistory := Function.update s.slashHistory provider (s.slashHistory provider ++ [entry]) }

/-- Revoke the project of a rejected report, when a registry is configured. The call is not a
`try_` call: if the registry refuses, the whole transaction traps. -/
def revokeProject (self : Address) (regs : Registries) (s : State) (projectId : ℕ) :
    Result OracleError (State × Registries) :=
  match s.projectRegistry with
  | none => return (s, regs)
  | some registryId => do
    let registry ← orTrap (regs registryId)
    let registry' ←
      orTrap (ProjectRegistry.revokeProject registry self projectId s.projectRegistryNonce).toOption
    return ({ s with projectRegistryNonce := s.projectRegistryNonce + 1 },
      Function.update regs registryId (some registry'))

/-- What a rejection does besides flipping the status. -/
def punish (now : ℕ) (self : Address) (regs : Registries) (s : State) (report : Report)
    (reportId : ReportId) (resolution : ReportStatus) : Result OracleError (State × Registries) :=
  if resolution = .rejected then do
    let s ← slashProvider now s report.provider reportId
    revokeProject self regs s report.projectId
  else return (s, regs)

/-- `ReportStatus as u32`. The number a challenge stores for its resolution. -/
def discriminant : ReportStatus → ℕ
  | .pending => 0
  | .verified => 1
  | .challenged => 2
  | .rejected => 3

/-- `finalize_challenge`. A challenge that is resolved already is left alone, whatever the
resolution now asked for. -/
def finalizeChallenge (now : ℕ) (self : Address) (regs : Registries) (s : State)
    (reportId : ReportId) (resolution : ReportStatus) :
    Result OracleError (State × Registries) := do
  let challenge ← orError (s.challenge reportId) .reportNotFound
  if challenge.resolved then return (s, regs)
  else
    let report ← orError (s.report reportId) .reportNotFound
    -- A rejection keeps the time at which the report was verified, if it ever was.
    let report' := { report with
      status := resolution
      verifiedAt := if resolution = .verified then now else report.verifiedAt }
    let s := { s with
      challenge := Function.update s.challenge reportId
        (some { challenge with resolved := true, resolution := discriminant resolution })
      report := Function.update s.report reportId (some report') }
    -- The stake is released before the slash, which takes from the whole stake.
    let s := releaseReportLock s report.provider reportId
    let (s, regs) ← punish now self regs s report reportId resolution
    return (settleChallengeBond s challenge.challenger challenge.bond (resolution = .rejected),
      regs)

/-! ### Entrypoints -/

/-- `register_provider`. An address is registered at most once: one that was removed cannot come
back. -/
def registerProvider (now : ℕ) (s : State) (caller provider : Address) (methodology : String)
    (nonce : ℕ) : Result OracleError State := do
  let nonces ← useNonce s.nonce caller nonce .invalidNonce
  requireAdmin s.admin caller .notInitialized .unauthorized
  ensure (s.provider provider = none) .providerAlreadyExists
  -- The stake is 0 until `add_stake`; a slash of no stake takes nothing.
  return { s with
    nonce := nonces
    provider := Function.update s.provider provider (some ⟨provider, methodology, 0, true, now⟩)
    providerList := s.providerList ++ [provider] }

/-- `remove_provider`. The entry stays with `active` cleared, and the votes and signatures given so
far with it. -/
def removeProvider (s : State) (caller provider : Address) (nonce : ℕ) :
    Result OracleError State := do
  let nonces ← useNonce s.nonce caller nonce .invalidNonce
  requireAdmin s.admin caller .notInitialized .unauthorized
  let p ← orError (s.provider provider) .providerNotFound
  return reconcileSignatureThreshold { s with
    nonce := nonces
    provider := Function.update s.provider provider (some { p with active := false }) }

/-- The linkage `submit_report` gets from the configured registry. That the project is unknown is
passed on; any other failure of the call is one and the same error. -/
def projectLinkage (regs : Registries) (registryId : Address) (projectId : ℕ) :
    Result OracleError ProjectRegistry.ProjectLinkage :=
  match regs registryId with
  | none => .error (.error .projectRegistryCallFailed)
  | some registry =>
    match ProjectRegistry.getProjectLinkage registry projectId with
    | .ok linkage => .ok linkage
    | .error (.error .projectNotFound) => .error (.error .projectNotFound)
    | .error _ => .error (.error .projectRegistryCallFailed)

/-- The metrics `submit_report` accepts. A report without metrics is accepted whatever the
methodology. -/
def BiodiversityMetrics.nonneg : BiodiversityMetrics → Bool
  | .absent => true
  | .present habitat species units => 0 ≤ habitat ∧ 0 ≤ species ∧ 0 ≤ units

/-- Append a window to the compact overlap index, evicting the oldest beyond the cap. The overlap
check knows the windows in the index only; an evicted one is guarded by the order of the windows
alone. -/
def pushPeriod (periods : List (ℕ × ℕ)) (window : ℕ × ℕ) : List (ℕ × ℕ) :=
  (if maxPeriodHistory ≤ periods.length then periods.tail else periods) ++ [window]

/-- `submit_report`. The report is pending, `verified_at` is 0, and a tenth of the provider's stake
is locked for it. -/
def submitReport (now : ℕ) (regs : Registries) (s : State) (provider : Address)
    (projectId periodStart periodEnd : ℕ) (carbonSequestered : ℤ)
    (biodiversity : BiodiversityMetrics) (methodology : String) (ipfsEvidenceHash : Bytes32)
    (nonce : ℕ) : Result OracleError (State × ReportId) := do
  let nonces ← useNonce s.nonce provider nonce .invalidNonce
  let p ← orError (s.provider provider) .providerNotFound
  -- The provider signs for itself: the admin has no part in submitting.
  ensure (p.active = true) .unauthorized
  ensure (periodStart < periodEnd ∧ 0 ≤ carbonSequestered) .invalidSignature
  ensure (BiodiversityMetrics.nonneg biodiversity) .invalidSignature
  let registryId ← orError s.projectRegistry .projectRegistryNotConfigured
  let project ← projectLinkage regs registryId projectId
  ensure (project.status = .approved) .projectNotApproved
  let claimed := s.projectReportPeriods projectId
  -- Half-open windows overlap if each begins before the other ends.
  ensure (∀ w ∈ claimed, ¬ (periodStart < w.2 ∧ w.1 < periodEnd)) .overlappingReportPeriod
  -- A window also begins no earlier than the newest one ended, whether or not that one was
  -- rejected.
  ensure (∀ w ∈ claimed.getLast?, w.2 ≤ periodStart) .backdatedReportPeriod
  let reportId := s.reportCount + 1
  let report : Report :=
    ⟨reportId, provider, projectId, project.metadataIpfsHash, periodStart, periodEnd,
      carbonSequestered, biodiversity, methodology, ipfsEvidenceHash, .pending, now, 0⟩
  let s := lockStakeForReport { s with
    nonce := nonces
    reportCount := reportId
    report := Function.update s.report reportId (some report) } provider reportId p.stake
  return ({ s with
    projectReports :=
      Function.update s.projectReports projectId (s.projectReports projectId ++ [reportId])
    projectReportPeriods :=
      Function.update s.projectReportPeriods projectId
        (pushPeriod claimed (periodStart, periodEnd))
    providerReportCount :=
      Function.update s.providerReportCount provider (s.providerReportCount provider + 1) },
    reportId)

/-- Record `caller` among the verifiers of a report, once. The count stored beside the list is its
length; nothing reads it but a getter. -/
def addVerifier (s : State) (reportId : ReportId) (caller : Address) : State :=
  let verifiers := s.reportVerifiers reportId
  if caller ∈ verifiers then s
  else
    { s with
      reportVerifiers := Function.update s.reportVerifiers reportId (verifiers ++ [caller])
      verificationCount :=
        Function.update s.verificationCount reportId (verifiers ++ [caller]).length }

/-- The threshold check that ends `verify_report`. The threshold is the one of this moment, not of
the submission. -/
def verifyIfReached (now : ℕ) (s : State) (reportId : ReportId) (report : Report) : State :=
  if s.signatureThreshold ≤ (s.reportVerifiers reportId).length then
    releaseReportLock { s with
      report := Function.update s.report reportId
        (some { report with status := .verified, verifiedAt := now }) } report.provider reportId
  else s

/-- `verify_report`. A signer is an active provider other than the one who submitted; nothing asks
whether it is the admin. -/
def verifyReport (now : ℕ) (s : State) (caller : Address) (reportId : ReportId) (nonce : ℕ) :
    Result OracleError State := do
  -- Before the nonce, unlike the other entrypoints: an outsider's nonce is not spent either way.
  let p ← orError (s.provider caller) .unauthorized
  ensure (p.active = true) .unauthorized
  let nonces ← useNonce s.nonce caller nonce .invalidNonce
  let report ← orError (s.report reportId) .reportNotFound
  ensure (report.status = .pending) .reportAlreadyVerified
  -- An open challenge blocks verification; one that timed out does not.
  ensure (∀ c ∈ s.challenge reportId, c.resolved = true) .reportAlreadyVerified
  ensure (caller ≠ report.provider) .invalidSignature
  let s := addVerifier { s with nonce := nonces } reportId caller
  return verifyIfReached now s reportId report

/-- `admin_override_report`. The lock of the report is not released, and a rejection here slashes
nobody and revokes nothing. -/
def adminOverrideReport (now : ℕ) (s : State) (caller : Address) (reportId : ReportId)
    (status : ReportStatus) (nonce : ℕ) : Result OracleError State := do
  let nonces ← useNonce s.nonce caller nonce .invalidNonce
  requireAdmin s.admin caller .notInitialized .unauthorized
  ensure (status = .verified ∨ status = .rejected) .invalidResolution
  let report ← orError (s.report reportId) .reportNotFound
  ensure (report.status = .pending) .reportAlreadyVerified
  return { s with
    nonce := nonces
    report := Function.update s.report reportId (some { report with status, verifiedAt := now }) }

/-- `challenge_report`. The bond is charged after all other checks, so that a refused challenge
costs nothing. -/
def challengeReport (now : ℕ) (s : State) (challenger : Address) (reportId : ReportId)
    (counterEvidenceHash : Bytes32) (nonce : ℕ) : Result OracleError State := do
  let nonces ← useNonce s.nonce challenger nonce .invalidNonce
  -- A second challenge is refused also when the first one timed out.
  ensure (s.challenge reportId = none) .challengeAlreadyExists
  let report ← orError (s.report reportId) .reportNotFound
  ensure (report.status = .pending) .reportAlreadyVerified
  ensure (challenger ≠ report.provider) .selfChallenge
  -- The subtraction saturates in the source too: ledger time never runs backwards.
  ensure (now - report.submittedAt ≤ s.challengeWindow) .challengeWindowExpired
  let s ← chargeChallengeBond { s with nonce := nonces } challenger
  let challenge : Challenge :=
    ⟨reportId, challenger, counterEvidenceHash, now, false, 0, challengeBond⟩
  return { s with
    challenge := Function.update s.challenge reportId (some challenge)
    report := Function.update s.report reportId (some { report with status := .challenged })
    providerChallenges := Function.update s.providerChallenges report.provider
      (s.providerChallenges report.provider ++ [reportId]) }

/-- `resolve_challenge`. Besides the admin the verifiers can resolve,
`resolve_challenge_by_verifier`. -/
def resolveChallenge (now : ℕ) (self : Address) (regs : Registries) (s : State)
    (caller : Address) (reportId : ReportId) (resolution : ReportStatus) (nonce : ℕ) :
    Result OracleError (State × Registries) := do
  let nonces ← useNonce s.nonce caller nonce .invalidNonce
  requireAdmin s.admin caller .notInitialized .unauthorized
  ensure (resolution = .verified ∨ resolution = .rejected) .invalidResolution
  finalizeChallenge now self regs { s with nonce := nonces } reportId resolution

/-- Record a vote on a challenged report. -/
def addVote (s : State) (reportId : ReportId) (caller : Address) (uphold : Bool) : State :=
  if uphold then
    { s with
      challengeUpholdVotes :=
        Function.update s.challengeUpholdVotes reportId
          (s.challengeUpholdVotes reportId ++ [caller]) }
  else
    { s with
      challengeRejectVotes :=
        Function.update s.challengeRejectVotes reportId
          (s.challengeRejectVotes reportId ++ [caller]) }

/-- The votes on one side of a challenge. -/
def votes (s : State) (reportId : ReportId) (uphold : Bool) : List Address :=
  if uphold then s.challengeUpholdVotes reportId else s.challengeRejectVotes reportId

/-- `resolve_challenge_by_verifier`. The caller's vote is recorded first and counts. Votes are
compared by number with the threshold of this moment, whoever of the voters is still active. -/
def resolveChallengeByVerifier (now : ℕ) (self : Address) (regs : Registries) (s : State)
    (caller : Address) (reportId : ReportId) (uphold : Bool) (nonce : ℕ) :
    Result OracleError (State × Registries) := do
  let nonces ← useNonce s.nonce caller nonce .invalidNonce
  let p ← orError (s.provider caller) .unauthorized
  ensure (p.active = true) .unauthorized
  let challenge ← orError (s.challenge reportId) .reportNotFound
  ensure (challenge.resolved = false) .invalidResolution
  let report ← orError (s.report reportId) .reportNotFound
  ensure (report.status = .challenged) .reportAlreadyVerified
  -- The provider under challenge does not vote on its own report.
  ensure (caller ≠ report.provider) .invalidSignature
  ensure (caller ∉ s.challengeUpholdVotes reportId) .alreadyVoted
  ensure (caller ∉ s.challengeRejectVotes reportId) .alreadyVoted
  let s := addVote { s with nonce := nonces } reportId caller uphold
  if supermajorityThreshold (activeProviderCount s) ≤ (votes s reportId uphold).length then
    finalizeChallenge now self regs s reportId (if uphold then .verified else .rejected)
  else return (s, regs)

/-- `expire_stale_challenge`. Anybody can call it. The bond goes back to the challenger, the report
is pending again, and the stake stays locked for it. -/
def expireStaleChallenge (now : ℕ) (s : State) (reportId : ReportId) :
    Result OracleError State := do
  let challenge ← orError (s.challenge reportId) .reportNotFound
  -- A resolved challenge is not an error here: the call commits and changes nothing.
  if challenge.resolved then return s
  else
    ensure (challengeTimeoutSeconds < now - challenge.submittedAt) .challengeNotStale
    let report ← orError (s.report reportId) .reportNotFound
    ensure (report.status = .challenged) .invalidResolution
    let s := { s with
      challenge := Function.update s.challenge reportId (some { challenge with resolved := true })
      report := Function.update s.report reportId (some { report with status := .pending }) }
    return settleChallengeBond s challenge.challenger challenge.bond true

/-- `set_signature_threshold`. Zero would verify a report with the first signature, and a number
above the active providers never. -/
def setSignatureThreshold (s : State) (caller : Address) (threshold nonce : ℕ) :
    Result OracleError State := do
  let nonces ← useNonce s.nonce caller nonce .invalidNonce
  requireAdmin s.admin caller .notInitialized .unauthorized
  ensure (threshold ≠ 0 ∧ threshold ≤ activeProviderCount s) .invalidThreshold
  return { s with nonce := nonces, signatureThreshold := threshold }

/-- `add_stake`. -/
def addStake (s : State) (provider : Address) (amount : ℤ) (nonce : ℕ) :
    Result OracleError State := do
  let nonces ← useNonce s.nonce provider nonce .invalidNonce
  ensure (0 < amount) .insufficientStake
  let p ← orError (s.provider provider) .providerNotFound
  let stake ← orError (checkedAdd p.stake amount) .insufficientStake
  return { s with
    nonce := nonces
    provider := Function.update s.provider provider (some { p with stake }) }

/-- `withdraw_stake`. What is locked for undecided reports stays in. -/
def withdrawStake (s : State) (provider : Address) (amount : ℤ) (nonce : ℕ) :
    Result OracleError State := do
  let nonces ← useNonce s.nonce provider nonce .invalidNonce
  ensure (0 < amount) .insufficientStake
  let p ← orError (s.provider provider) .providerNotFound
  ensure (amount ≤ p.stake) .insufficientStake
  ensure (s.lockedStake provider ≤ p.stake - amount) .stakeLocked
  return { s with
    nonce := nonces
    provider := Function.update s.provider provider (some { p with stake := p.stake - amount }) }

/-- `deposit_challenge_bond`. The error of an overflow is that of `add_stake`. -/
def depositChallengeBond (s : State) (caller : Address) (amount : ℤ) (nonce : ℕ) :
    Result OracleError State := do
  let nonces ← useNonce s.nonce caller nonce .invalidNonce
  ensure (0 < amount) .insufficientChallengeBond
  let newBalance ← orError (checkedAdd (s.challengeBondBalance caller) amount) .insufficientStake
  return { s with
    nonce := nonces
    challengeBondBalance := Function.update s.challengeBondBalance caller newBalance }

/-- `withdraw_challenge_bond`. -/
def withdrawChallengeBond (s : State) (caller : Address) (amount : ℤ) (nonce : ℕ) :
    Result OracleError State := do
  let nonces ← useNonce s.nonce caller nonce .invalidNonce
  ensure (0 < amount) .insufficientChallengeBond
  let balance := s.challengeBondBalance caller
  ensure (amount ≤ balance) .insufficientChallengeBond
  return { s with
    nonce := nonces
    challengeBondBalance := Function.update s.challengeBondBalance caller (balance - amount) }

/-- `set_project_registry`. -/
def setProjectRegistry (s : State) (caller registryId : Address) (nonce : ℕ) :
    Result OracleError State := do
  let nonces ← useNonce s.nonce caller nonce .invalidNonce
  requireAdmin s.admin caller .notInitialized .unauthorized
  -- A nonce of the contract at the registry starts again at 0, also when the registry is the same
  -- one or was used before.
  return { s with
    nonce := nonces
    projectRegistry := some registryId
    projectRegistryNonce := 0 }

/-- `propose_admin_transfer`. -/
def proposeAdminTransfer (now : ℕ) (s : State) (caller candidate : Address) (nonce : ℕ) :
    Result OracleError State := do
  let nonces ← useNonce s.nonce caller nonce .invalidNonce
  let pending ← proposeTransfer now s.admin caller candidate .notInitialized .unauthorized
  return { s with nonce := nonces, pendingAdmin := some pending }

/-- `cancel_admin_transfer`. -/
def cancelAdminTransfer (s : State) (caller : Address) (nonce : ℕ) :
    Result OracleError State := do
  let nonces ← useNonce s.nonce caller nonce .invalidNonce
  cancelTransfer s.admin s.pendingAdmin caller .notInitialized .unauthorized .noPendingAdminChange
  return { s with nonce := nonces, pendingAdmin := none }

/-- `accept_admin_transfer`. The candidate signs, once the timelock has elapsed. -/
def acceptAdminTransfer (now : ℕ) (s : State) (caller : Address) (nonce : ℕ) :
    Result OracleError State := do
  let nonces ← useNonce s.nonce caller nonce .invalidNonce
  acceptTransfer now s.admin s.pendingAdmin caller .notInitialized .unauthorized
    .noPendingAdminChange .timelockNotElapsed
  return { s with nonce := nonces, admin := some caller, pendingAdmin := none }

/-- `get_report`. -/
def getReport (s : State) (reportId : ReportId) : Result OracleError Report :=
  orError (s.report reportId) .reportNotFound

/-- `get_provider_stats`; the penalties are added up by an unchecked addition. -/
def getProviderStats (s : State) (provider : Address) : Result OracleError ProviderStats := do
  let p ← orError (s.provider provider) .providerNotFound
  let history := s.slashHistory provider
  let totalPenalty := history.foldl (fun total record => wrap (total + record.penalty)) 0
  return {
    reportsSubmitted := s.providerReportCount provider
    challengesFaced := (s.providerChallenges provider).length
    slashes := history.length
    totalPenalty
    stake := p.stake
    active := p.active }

/-! ### The contract's entrypoints as operations -/

/-- The state-changing entrypoints. -/
inductive Op where
  | registerProvider (caller provider : Address) (methodology : String) (nonce : ℕ)
  | removeProvider (caller provider : Address) (nonce : ℕ)
  | submitReport (provider : Address) (projectId periodStart periodEnd : ℕ)
      (carbonSequestered : ℤ) (biodiversity : BiodiversityMetrics) (methodology : String)
      (ipfsEvidenceHash : Bytes32) (nonce : ℕ)
  | verifyReport (caller : Address) (reportId : ReportId) (nonce : ℕ)
  | adminOverrideReport (caller : Address) (reportId : ReportId) (status : ReportStatus)
      (nonce : ℕ)
  | challengeReport (challenger : Address) (reportId : ReportId) (counterEvidenceHash : Bytes32)
      (nonce : ℕ)
  | resolveChallenge (caller : Address) (reportId : ReportId) (resolution : ReportStatus)
      (nonce : ℕ)
  | resolveChallengeByVerifier (caller : Address) (reportId : ReportId) (uphold : Bool)
      (nonce : ℕ)
  | expireStaleChallenge (reportId : ReportId)
  | setSignatureThreshold (caller : Address) (threshold nonce : ℕ)
  | addStake (provider : Address) (amount : ℤ) (nonce : ℕ)
  | withdrawStake (provider : Address) (amount : ℤ) (nonce : ℕ)
  | depositChallengeBond (caller : Address) (amount : ℤ) (nonce : ℕ)
  | withdrawChallengeBond (caller : Address) (amount : ℤ) (nonce : ℕ)
  | setProjectRegistry (caller registryId : Address) (nonce : ℕ)
  | proposeAdminTransfer (caller candidate : Address) (nonce : ℕ)
  | cancelAdminTransfer (caller : Address) (nonce : ℕ)
  | acceptAdminTransfer (caller : Address) (nonce : ℕ)
  deriving DecidableEq, Repr

/-- Run one entrypoint. The answer is the id of a newly submitted report. -/
def exec (now : ℕ) (self : Address) (regs : Registries) (s : State) :
    Op → Result OracleError ((State × Registries) × Option ReportId)
  | .registerProvider caller provider methodology nonce => do
    return ((← registerProvider now s caller provider methodology nonce, regs), none)
  | .removeProvider caller provider nonce => do
    return ((← removeProvider s caller provider nonce, regs), none)
  | .submitReport provider projectId periodStart periodEnd carbonSequestered biodiversity
      methodology ipfsEvidenceHash nonce => do
    let (s', reportId) ← submitReport now regs s provider projectId periodStart periodEnd
      carbonSequestered biodiversity methodology ipfsEvidenceHash nonce
    return ((s', regs), some reportId)
  | .verifyReport caller reportId nonce => do
    return ((← verifyReport now s caller reportId nonce, regs), none)
  | .adminOverrideReport caller reportId status nonce => do
    return ((← adminOverrideReport now s caller reportId status nonce, regs), none)
  | .challengeReport challenger reportId counterEvidenceHash nonce => do
    return ((← challengeReport now s challenger reportId counterEvidenceHash nonce, regs), none)
  | .resolveChallenge caller reportId resolution nonce => do
    return (← resolveChallenge now self regs s caller reportId resolution nonce, none)
  | .resolveChallengeByVerifier caller reportId uphold nonce => do
    return (← resolveChallengeByVerifier now self regs s caller reportId uphold nonce, none)
  | .expireStaleChallenge reportId => do
    return ((← expireStaleChallenge now s reportId, regs), none)
  | .setSignatureThreshold caller threshold nonce => do
    return ((← setSignatureThreshold s caller threshold nonce, regs), none)
  | .addStake provider amount nonce => do
    return ((← addStake s provider amount nonce, regs), none)
  | .withdrawStake provider amount nonce => do
    return ((← withdrawStake s provider amount nonce, regs), none)
  | .depositChallengeBond caller amount nonce => do
    return ((← depositChallengeBond s caller amount nonce, regs), none)
  | .withdrawChallengeBond caller amount nonce => do
    return ((← withdrawChallengeBond s caller amount nonce, regs), none)
  | .setProjectRegistry caller registryId nonce => do
    return ((← setProjectRegistry s caller registryId nonce, regs), none)
  | .proposeAdminTransfer caller candidate nonce => do
    return ((← proposeAdminTransfer now s caller candidate nonce, regs), none)
  | .cancelAdminTransfer caller nonce => do
    return ((← cancelAdminTransfer s caller nonce, regs), none)
  | .acceptAdminTransfer caller nonce => do
    return ((← acceptAdminTransfer now s caller nonce, regs), none)

end OracleConsumer
end NbsBond
