import NbsBond.Framework.Tiered
import NbsBond.BondIssuer.Model
import NbsBond.CouponEngine.Model

/-!
# The CreditRetirement contract

`contracts/credit-retirement/src/lib.rs`. Retirement data moved from instance to persistent
storage, so every key family is a `Tiered` one: reads fall back to the legacy instance entry.

`retire_credits` reads from `BondIssuer` and `CouponEngine` and deducts the retired amount in
`CouponEngine`; both contracts' states are arguments, and the engine's new state is part of the
answer.
-/

namespace NbsBond
namespace CreditRetirement

open Soroban Int128

structure RetirementRecord where
  id : ℕ
  holder : Address
  bondId : BondId
  projectId : Bytes32
  periodIndex : ℕ
  reportId : ReportId
  vintageYear : ℕ
  vintagePeriodStart : ℕ
  vintagePeriodEnd : ℕ
  amount : ℤ
  creditType : CreditType
  retiredAt : ℕ
  certificateIpfsHash : Bytes32
  deriving DecidableEq, Repr

/-- What a retirement is shown as. The record under other field names, complete. -/
structure RetirementCertificate where
  recordId : ℕ
  holder : Address
  bondId : BondId
  projectId : Bytes32
  periodIndex : ℕ
  reportId : ReportId
  vintageYear : ℕ
  vintagePeriodStart : ℕ
  vintagePeriodEnd : ℕ
  amount : ℤ
  creditType : CreditType
  retiredAt : ℕ
  certificateHash : Bytes32
  deriving DecidableEq, Repr

/-- The contract's storage. All of it but the nonces is `Tiered`: entries of the old layout are in
instance storage. `retiredByType` is read and never written. -/
structure State where
  admin : Option Address
  retirement : Tiered ℕ RetirementRecord
  retirementCount : Tiered Unit ℕ
  holderRetirements : Tiered Address (List ℕ)
  bondHolderRetirements : Tiered (BondId × Address) (List ℕ)
  retiredCredits : Tiered Address ℤ
  retiredPerBond : Tiered (BondId × Address) ℤ
  retiredByType : Tiered (Address × CreditType) ℤ
  nonce : Address → ℕ

/-- `__constructor`. -/
def construct (admin : Address) : State where
  admin := some admin
  retirement := .empty
  retirementCount := .empty
  holderRetirements := .empty
  bondHolderRetirements := .empty
  retiredCredits := .empty
  retiredPerBond := .empty
  retiredByType := .empty
  nonce _ := 0

/-- `year_from_timestamp`: the civil calendar year, by Hinnant's `civil_from_days`. -/
-- Days since the epoch of the algorithm, in years that begin in March.
def yearFromTimestamp (timestamp : ℕ) : ℕ :=
  let days : ℤ := timestamp / 86400
  let shifted := days + 719468
  let era := shifted / 146097
  let dayOfEra := shifted % 146097
  -- Leap days at the end of each fourth year but for the centuries.
  let yearOfEra := (dayOfEra - dayOfEra / 1460 + dayOfEra / 36524 - dayOfEra / 146096) / 365
  let year := yearOfEra + era * 400
  let dayOfYear := dayOfEra - (365 * yearOfEra + yearOfEra / 4 - yearOfEra / 100)
  let shiftedMonth := (5 * dayOfYear + 2) / 153
  let month := if shiftedMonth < 10 then shiftedMonth + 3 else shiftedMonth - 9
  -- January and February belong to the year after the one that began in March.
  let year := if month ≤ 2 then year + 1 else year
  (year % 2 ^ 32).toNat

/-- `is_compatible_credit_type`. A bond of either carbon type takes both carbon types. -/
def isCompatibleCreditType : CreditType → CreditType → Bool
  | .carbon, supplied | .blueCarbon, supplied => supplied = .carbon ∨ supplied = .blueCarbon
  | .biodiversity, supplied => supplied = .biodiversity
  | .basket, supplied =>
    supplied = .carbon ∨ supplied = .blueCarbon ∨ supplied = .biodiversity

/-- `get_retirement_count`: migrates a legacy counter on the first read. So even a query writes, the
first time. -/
def getRetirementCount (s : State) : State × ℕ :=
  match s.retirementCount.persistent () with
  | some count => (s, count)
  | none =>
    let legacy := (s.retirementCount.legacy ()).getD 0
    ({ s with retirementCount := s.retirementCount.write () legacy }, legacy)

/-- The contract's ledger after a retirement was accepted: the record, the holder's totals and the
two indexes. `RetiredPerBond` and the id are unchecked additions, `RetiredCredits` a checked
one. -/
def recordRetirement (now : ℕ) (s : State) (holder : Address) (bondId : BondId)
    (projectId : Bytes32) (period : CouponEngine.PeriodInfo) (periodIndex : ℕ) (amount : ℤ)
    (creditType : CreditType) (certificateHash : Bytes32) : Result CreditError (State × ℕ) := do
  -- Unchecked, unlike the holder's total below.
  let alreadyRetired := (s.retiredPerBond.read (bondId, holder)).getD 0
  let s := { s with
    retiredPerBond := s.retiredPerBond.write (bondId, holder) (wrap (alreadyRetired + amount)) }
  let (s, count) := getRetirementCount s
  let retirementId := (count + 1) % 2 ^ 64
  let record : RetirementRecord :=
    ⟨retirementId, holder, bondId, projectId, periodIndex, period.reportId,
      yearFromTimestamp period.endTime, period.startTime, period.endTime, amount, creditType, now,
      certificateHash⟩
  let retired := (s.retiredCredits.read holder).getD 0
  let newTotal ← orError (checkedAdd retired amount) .overflow
  let retirements := (s.holderRetirements.read holder).getD []
  let bondRetirements := (s.bondHolderRetirements.read (bondId, holder)).getD []
  return ({ s with
    retirementCount := s.retirementCount.write () retirementId
    retirement := s.retirement.write retirementId record
    retiredCredits := s.retiredCredits.write holder newTotal
    holderRetirements := s.holderRetirements.write holder (retirements ++ [retirementId])
    bondHolderRetirements := s.bondHolderRetirements.write (bondId, holder)
      (bondRetirements ++ [retirementId]) }, retirementId)

/-- `retire_credits`. `self` is the contract's own address, which authorizes the nested
`deduct_credits`; `signers` are the addresses that signed for that nested call. The project and the
period of the record are those of the bond and of the coupon engine, not what the caller says. -/
def retireCredits (now : ℕ) (self : Address) (issuer : BondIssuer.State)
    (engine : CouponEngine.State) (s : State) (signers : List Address) (holder : Address)
    (bondId : BondId) (projectId : Bytes32) (periodIndex : ℕ) (amount : ℤ)
    (creditType : CreditType) (certificateHash : Bytes32) (nonce : ℕ) :
    Result CreditError ((State × CouponEngine.State) × ℕ) := do
  let nonces ← useNonce s.nonce holder nonce .invalidNonce
  ensure (0 < amount) .insufficientCredits
  -- No certificate is the one value that is refused.
  ensure (certificateHash ≠ 0) .invalidCertificate
  -- Whoever sold all tokens cannot retire what it has accrued.
  ensure (0 < BondIssuer.getHolderBalance issuer bondId holder) .notAHolder
  let config ← orTrap (BondIssuer.getBond issuer bondId).toOption
  ensure (config.projectId = projectId) .projectMismatch
  ensure (isCompatibleCreditType config.creditType creditType) .invalidCreditType
  let accrued := CouponEngine.accruedCreditsOf engine bondId holder
  let period ←
    orError (CouponEngine.getPeriodInfo engine bondId periodIndex).toOption .periodNotFound
  ensure (period.distributed = true) .periodNotDistributed
  -- Asked for again, by type, in `deduct_credits`.
  ensure (amount ≤ accrued) .insufficientCredits
  -- Any failure of the nested call is the same error, and nothing has been written so far.
  let (engine, _) ← orError
    (CouponEngine.deductCredits engine (self :: signers) bondId holder amount creditType).toOption
    .insufficientCredits
  let (s, retirementId) ← recordRetirement now { s with nonce := nonces } holder bondId projectId
    period periodIndex amount creditType certificateHash
  return ((s, engine), retirementId)

/-- `extend_ttl`: the host traps when the persistent entry is missing. -/
def extendTtl {κ α : Type} (t : Tiered κ α) (k : κ) : Result CreditError Unit := do
  let _ ← orTrap (t.persistent k)
  return ()

/-- `extend_retirement_ttl`. The counter is extended only where it is persistent, which cannot fail.
A record of the old layout is copied first, its indexes are not. -/
def extendRetirementTtl (s : State) (retirementId : ℕ) : Result CreditError State := do
  let record ← orError (s.retirement.read retirementId) .retirementNotFound
  let s := if s.retirement.persistent retirementId = none then
      { s with retirement := s.retirement.write retirementId record }
    else s
  extendTtl s.holderRetirements record.holder
  extendTtl s.bondHolderRetirements (record.bondId, record.holder)
  return s

/-! ### Queries -/

/-- `certificate_from_record`. Field by field; the hash of the certificate changes its name. -/
def certificateFromRecord (record : RetirementRecord) : RetirementCertificate where
  recordId := record.id
  holder := record.holder
  bondId := record.bondId
  projectId := record.projectId
  periodIndex := record.periodIndex
  reportId := record.reportId
  vintageYear := record.vintageYear
  vintagePeriodStart := record.vintagePeriodStart
  vintagePeriodEnd := record.vintagePeriodEnd
  amount := record.amount
  creditType := record.creditType
  retiredAt := record.retiredAt
  certificateHash := record.certificateIpfsHash

/-- `get_retirement_record`. -/
def getRetirementRecord (s : State) (retirementId : ℕ) : Result CreditError RetirementRecord :=
  orError (s.retirement.read retirementId) .retirementNotFound

/-- `get_retirement_certificate`. -/
def getRetirementCertificate (s : State) (retirementId : ℕ) :
    Result CreditError RetirementCertificate := do
  let record ← orError (s.retirement.read retirementId) .retirementNotFound
  return certificateFromRecord record

/-- `get_bond_retirements`. -/
def getBondRetirements (s : State) (bondId : BondId) (holder : Address) : List ℕ :=
  (s.bondHolderRetirements.read (bondId, holder)).getD []

/-- `get_bond_certificates`: ids without a record are passed over. The order is that of the
retirements. -/
def getBondCertificates (s : State) (bondId : BondId) (holder : Address) :
    List RetirementCertificate :=
  let ids := (s.bondHolderRetirements.read (bondId, holder)).getD []
  ids.filterMap fun id => (s.retirement.read id).map certificateFromRecord

/-- `get_holder_retirements`. -/
def getHolderRetirements (s : State) (holder : Address) : List ℕ :=
  (s.holderRetirements.read holder).getD []

/-- `get_total_retired`. -/
def getTotalRetired (s : State) (holder : Address) : ℤ := (s.retiredCredits.read holder).getD 0

/-- `get_retired_by_type`. -/
def getRetiredByType (s : State) (holder : Address) (creditType : CreditType) : ℤ :=
  (s.retiredByType.read (holder, creditType)).getD 0

/-! ### The contract's entrypoints as operations -/

/-- The entrypoints that may write storage; `total_retirements` migrates the counter. -/
inductive Op where
  | retireCredits (signers : List Address) (holder : Address) (bondId : BondId)
      (projectId : Bytes32) (periodIndex : ℕ) (amount : ℤ) (creditType : CreditType)
      (certificateHash : Bytes32) (nonce : ℕ)
  | extendRetirementTtl (retirementId : ℕ)
  | totalRetirements
  deriving DecidableEq, Repr

/-- Run one entrypoint. The answer is a retirement id, or the count. -/
def exec (now : ℕ) (self : Address) (issuer : BondIssuer.State) (engine : CouponEngine.State)
    (s : State) : Op → Result CreditError ((State × CouponEngine.State) × ℕ)
  | .retireCredits signers holder bondId projectId periodIndex amount creditType certificateHash
      nonce =>
    retireCredits now self issuer engine s signers holder bondId projectId periodIndex amount
      creditType certificateHash nonce
  | .extendRetirementTtl retirementId => do
    return ((← extendRetirementTtl s retirementId, engine), 0)
  | .totalRetirements =>
    let (s', count) := getRetirementCount s
    return ((s', engine), count)

end CreditRetirement
end NbsBond
