import NbsBond.Framework.Int128
import NbsBond.Framework.Result

/-!
# Shared types

The types of `contracts/shared/src/types.rs`, the error enumerations of
`contracts/shared/src/errors.rs`, and the nonce check that every contract opens its entrypoints
with.

Ids, counters, ledger timestamps and list lengths (`u64`, `u32`) are natural numbers; token and
credit amounts (`i128`) are integers, with the operations of `Int128` wherever a result can leave
the range. An `Address` is only ever compared for equality. Time-to-live extensions of storage
entries and published events change no stored value and are not part of the model.
-/

namespace NbsBond

open Soroban

/-- An account or contract address. Accounts and contracts share one kind of address. -/
structure Address where
  id : ℕ
  deriving DecidableEq, Repr

/-- `BytesN<32>`. A digest is compared with another, or with zero, and nothing else. -/
abbrev Bytes32 : Type := BitVec 256

/-- Ids of bonds are given by `BondIssuer`, from 1 on. -/
abbrev BondId : Type := ℕ

/-- Ids of reports are given by `OracleConsumer`, from 1 on. -/
abbrev ReportId : Type := ℕ

/-- What the credits of a bond are: carbon, biodiversity, or both in a basket. -/
inductive CreditType where
  | carbon
  | biodiversity
  | basket
  | blueCarbon
  deriving DecidableEq, Repr

/-- The metrics of a report, where it has any. -/
inductive BiodiversityMetrics where
  | absent
  | present (habitat species units : ℤ)
  deriving DecidableEq, Repr

/-- What is fixed about a bond when it is issued. -/
structure BondConfig where
  projectId : Bytes32
  faceValue : ℤ
  couponSchedule : List ℕ
  creditType : CreditType
  maturityDate : ℕ
  totalSupply : ℤ
  deriving DecidableEq, Repr

/-- Where a bond stands; nothing sets `defaulted`. -/
inductive BondStatus where
  | active
  | matured
  | defaulted
  deriving DecidableEq, Repr

/-- Where a project stands. -/
inductive ProjectStatus where
  | pending
  | approved
  | rejected
  | inactive
  deriving DecidableEq, Repr

/-- A project of the registry, under its id. -/
structure Project where
  id : ℕ
  owner : Address
  metadataIpfsHash : Bytes32
  name : String
  status : ProjectStatus
  methodology : String
  country : String
  deriving DecidableEq, Repr

/-- Where a report stands. -/
inductive ReportStatus where
  | pending
  | verified
  | challenged
  | rejected
  deriving DecidableEq, Repr

/-- A signer's recorded position on a governance proposal. -/
inductive VoteChoice where
  | approve
  | veto
  deriving DecidableEq, Repr

/-! ### Errors -/

/-- The errors of `BondIssuer`. -/
inductive BondError where
  | notInitialized
  | unauthorized
  | invalidNonce
  | bondNotFound
  | bondAlreadyMatured
  | insufficientSupply
  | zeroAmount
  | projectNotApproved
  | overflow
  | reportNotVerified
  | invalidReport
  | periodAlreadyDistributed
  | alreadyProcessed
  | notYetMature
  | maturityDateInPast
  | insufficientBalance
  deriving DecidableEq, Repr

/-- The errors of `OracleConsumer`. -/
inductive OracleError where
  | notInitialized
  | unauthorized
  | invalidNonce
  | providerNotFound
  | providerAlreadyExists
  | reportNotFound
  | reportAlreadyVerified
  | challengeWindowExpired
  | insufficientStake
  | invalidSignature
  | invalidResolution
  | selfChallenge
  | stakeLocked
  | invalidThreshold
  | projectRegistryNotConfigured
  | projectNotFound
  | projectNotApproved
  | projectRegistryCallFailed
  | overlappingReportPeriod
  | challengeAlreadyExists
  | noPendingAdminChange
  | timelockNotElapsed
  | insufficientChallengeBond
  | alreadyVoted
  | challengeNotStale
  | backdatedReportPeriod
  deriving DecidableEq, Repr

/-- The errors of `ProjectRegistry`. -/
inductive RegistryError where
  | notInitialized
  | unauthorized
  | projectNotFound
  | projectAlreadyExists
  | invalidStatusTransition
  | invalidNonce
  | oracleConsumerNotSet
  | projectNotApproved
  | projectInactive
  | cannotSuspend
  | noPendingAdminChange
  | timelockNotElapsed
  deriving DecidableEq, Repr

/-- The errors of `CreditRetirement`. -/
inductive CreditError where
  | notInitialized
  | unauthorized
  | insufficientCredits
  | alreadyRetired
  | invalidNonce
  | notAHolder
  | invalidCertificate
  | invalidCreditType
  | projectMismatch
  | periodNotFound
  | periodNotDistributed
  | insufficientCreditsByType
  | retirementNotFound
  | overflow
  deriving DecidableEq, Repr

/-- The errors of `CouponEngine`. -/
inductive CouponEngineError where
  | notInitialized
  | unauthorized
  | invalidNonce
  | bondNotFound
  | periodNotFound
  | periodAlreadyDistributed
  | alreadyProcessed
  | invalidReport
  | reportNotVerified
  | overflow
  | zeroAmount
  | projectNotApproved
  | accountingMismatch
  deriving DecidableEq, Repr

/-- The errors of `Governance`. -/
inductive GovernanceError where
  | notInitialized
  | unauthorized
  | invalidNonce
  | notSigner
  | proposalNotFound
  | alreadyVoted
  | notPending
  | timelockNotElapsed
  | notQueued
  | alreadyExecuted
  | proposalExpired
  | unauthorizedCall
  | invalidCallArgs
  | nonceArchived
  deriving DecidableEq, Repr

/-- The errors of `DEXRouter`. -/
inductive DEXError where
  | notInitialized
  | unauthorized
  | invalidNonce
  | orderNotFound
  | orderAlreadyFilled
  | insufficientBalance
  | selfBuyNotAllowed
  | orderExpired
  | zeroAmount
  | insufficientFunds
  | overflow
  | sellerBalanceDepleted
  | invalidRange
  deriving DecidableEq, Repr

/-! ### Nonces and admin checks -/

variable {ε : Type}

/-- Compare the caller's nonce with the stored one and advance it; `e` is the contract's
`InvalidNonce`. The contracts add one in 64 bits, and a release build wraps: the model counts in
`ℕ`, which is the same as long as an address has spent fewer than `2 ^ 64` nonces at the contract.
What depends on this says so. -/
def useNonce (nonces : Address → ℕ) (caller : Address) (nonce : ℕ) (e : ε) :
    Result ε (Address → ℕ) := do
  ensure (nonce = nonces caller) e
  return Function.update nonces caller (nonces caller + 1)

/-- `require_admin`: the stored `Admin` must exist and be the caller. -/
def requireAdmin (admin : Option Address) (caller : Address) (missing unauthorized : ε) :
    Result ε Unit := do
  let admin ← orError admin missing
  ensure (caller = admin) unauthorized

@[simp] theorem useNonce_eq_ok {nonces nonces' : Address → ℕ} {caller : Address} {nonce : ℕ}
    {e : ε} : useNonce nonces caller nonce e = .ok nonces' ↔
      nonce = nonces caller ∧ nonces' = Function.update nonces caller (nonces caller + 1) := by
  simp only [useNonce, bind_eq_ok, ensure_eq_ok, pure_eq_ok, exists_and_left, exists_const]
  exact and_congr_right fun _ => eq_comm

@[simp] theorem requireAdmin_eq_ok {admin : Option Address} {caller : Address}
    {missing unauthorized : ε} {u : Unit} :
    requireAdmin admin caller missing unauthorized = .ok u ↔ admin = some caller := by
  constructor
  · simp only [requireAdmin, bind_eq_ok, orError_eq_ok, ensure_eq_ok]
    rintro ⟨a, ha, rfl⟩
    exact ha
  · rintro rfl
    simp only [requireAdmin, bind_eq_ok, orError_eq_ok, ensure_eq_ok]
    exact ⟨caller, rfl, rfl⟩

end NbsBond
