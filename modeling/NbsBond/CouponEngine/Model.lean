import NbsBond.OracleConsumer.Model

/-!
# The CouponEngine contract

`contracts/coupon-engine/src/lib.rs`: coupon distribution in batches, claiming, sweeping of
undistributed dust, and deduction of retired credits.

The contract reads from `BondIssuer`, `OracleConsumer` and `ProjectRegistry`. What these calls
return is the parameter `Deps`; `none` is a call that did not return, which traps the caller.

`distribute_coupon` is one long function in the source. Here its blocks are functions of their own,
in the source's order: `openBatch` / `resumeBatch`, the loop body `processHolder`, `accumulate` and
`finalise`; `distribute` is their sequence and `distributeCoupon` adds the nonce and admin checks.
The unchecked `i128` multiplications go through `Int128.wrap`.
-/

namespace NbsBond
namespace CouponEngine

open Soroban Int128 OracleConsumer

def fixedPoint : ℤ := 10000000

def creditDivisor : ℤ := 1000

def habitatCreditRate : ℤ := 1000000

def speciesCreditRate : ℤ := 100000

def unitCreditRate : ℤ := 1000000

structure PeriodInfo where
  periodIndex : ℕ
  startTime : ℕ
  endTime : ℕ
  totalCreditsEarned : ℤ
  distributed : Bool
  reportId : ReportId
  undistributed : ℤ
  deriving DecidableEq, Repr

/-- Persisted between the batches of one period. -/
structure BatchState where
  reportId : ReportId
  distributedSoFar : ℤ
  carbonDistributedSoFar : ℤ
  bioDistributedSoFar : ℤ
  holderCountSoFar : ℕ
  totalCredits : ℤ
  carbonTotal : ℤ
  biodiversityTotal : ℤ
  creditsPerToken : ℤ
  carbonPerToken : ℤ
  biodiversityPerToken : ℤ
  deriving DecidableEq, Repr

/-- The answer of one batch, with the figures of the whole period so far. -/
structure CouponResult where
  bondId : BondId
  periodIndex : ℕ
  totalCredits : ℤ
  holderCount : ℕ
  creditsPerToken : ℤ
  deriving DecidableEq, Repr

structure SweepReceipt where
  bondId : BondId
  destination : Address
  amount : ℤ
  carbonAmount : ℤ
  biodiversityAmount : ℤ
  deriving DecidableEq, Repr

/-- What `claim_credits` pays out: `accrued` is returned, and the split is the payload of the
`credits_claimed` event of a Basket bond. -/
structure ClaimReceipt where
  accrued : ℤ
  carbonAmt : ℤ
  bioAmt : ℤ
  deriving DecidableEq, Repr

/-- The contract's storage. `bondCreditType` is the type of the bond when it was registered here,
and what every later call goes by. -/
structure State where
  admin : Option Address
  periodInfo : BondId × ℕ → Option PeriodInfo
  periodCount : BondId → ℕ
  accruedCredits : BondId × Address → ℤ
  accruedCreditsByType : BondId × Address × CreditType → ℤ
  bondProject : BondId → Option Bytes32
  bondCreditType : BondId → Option CreditType
  undistributedTotal : BondId → ℤ
  undistributedByType : BondId × CreditType → ℤ
  nonce : Address → ℕ
  deductCaller : Option Address
  batchState : BondId × ℕ → Option BatchState
  distributionBalance : BondId × ℕ → Option (ℤ × ℤ)
  holderDistributed : BondId × ℕ × Address → Bool

/-- `__constructor`. -/
def construct (admin : Address) : State where
  admin := some admin
  periodInfo _ := none
  periodCount _ := 0
  accruedCredits _ := 0
  accruedCreditsByType _ := 0
  bondProject _ := none
  bondCreditType _ := none
  undistributedTotal _ := 0
  undistributedByType _ := 0
  nonce _ := 0
  deductCaller := none
  batchState _ := none
  distributionBalance _ := none
  holderDistributed _ := false

/-- The cross-contract reads. They are read at the moment of the call, so that two batches of one
period may see different answers. -/
structure Deps where
  getBond : BondId → Option BondConfig
  totalSubscribed : BondId → Option ℤ
  getReport : ReportId → Option Report
  getProjectStatusByHash : Bytes32 → Option ProjectStatus

/-! ### Helpers -/

/-- `compute_biodiversity_credits`. Saturating throughout: metrics of any size give an amount, and
negative ones cannot be reported. -/
def computeBiodiversityCredits : BiodiversityMetrics → ℤ
  | .absent => 0
  | .present habitat species units =>
    (saturatingAdd
      (saturatingAdd (saturatingMul habitat habitatCreditRate)
        (saturatingMul species speciesCreditRate))
      (saturatingMul units unitCreditRate)).tdiv habitatCreditRate

/-- `accrue_credits`. Both buckets or neither: the second addition is checked before anything is
written. -/
def accrueCredits (s : State) (bondId : BondId) (holder : Address) (creditType : CreditType)
    (amount : ℤ) : Result CouponEngineError State := do
  let byType ← orError
    (checkedAdd (s.accruedCreditsByType (bondId, holder, creditType)) amount) .overflow
  let combined ← orError (checkedAdd (s.accruedCredits (bondId, holder)) amount) .overflow
  return { s with
    accruedCreditsByType :=
      Function.update s.accruedCreditsByType (bondId, holder, creditType) byType
    accruedCredits := Function.update s.accruedCredits (bondId, holder) combined }

/-- `clear_accrued`. The combined balance is set to zero by the caller of this helper. -/
def clearAccrued (s : State) (bondId : BondId) (holder : Address) (creditType : CreditType) :
    State :=
  { s with
    accruedCreditsByType :=
      Function.update s.accruedCreditsByType (bondId, holder, creditType) 0 }

/-- BlueCarbon credits live in the Carbon bucket. -/
def storageType : CreditType → CreditType
  | .blueCarbon => .carbon
  | other => other

/-! ### `register_bond` -/

/-- `register_bond`. Registering a bond again overwrites project and type. -/
def registerBond (deps : Deps) (s : State) (caller : Address) (bondId : BondId)
    (projectId : Bytes32) (nonce : ℕ) : Result CouponEngineError State := do
  let nonces ← useNonce s.nonce caller nonce .invalidNonce
  requireAdmin s.admin caller .notInitialized .unauthorized
  let config ← orTrap (deps.getBond bondId)
  ensure (config.projectId = projectId) .bondNotFound
  -- The only place where the status of the project is asked for.
  let status ← orTrap (deps.getProjectStatusByHash projectId)
  ensure (status = .approved) .projectNotApproved
  return { s with
    nonce := nonces
    bondProject := Function.update s.bondProject bondId (some projectId)
    bondCreditType := Function.update s.bondCreditType bondId (some config.creditType) }

/-! ### `distribute_coupon` -/

/-- Carbon and biodiversity credits a report is worth to a bond of the given type. Carbon is counted
in units of a thousand, rounded towards zero. A type that has a biodiversity side refuses a report
without metrics. -/
def creditTotals (creditType : CreditType) (report : Report) :
    Result CouponEngineError (ℤ × ℤ) :=
  let carbonTotal := report.carbonSequestered.tdiv creditDivisor
  match creditType with
  | .carbon | .blueCarbon => return (carbonTotal, 0)
  | .biodiversity => do
    ensure (report.biodiversity ≠ .absent) .invalidReport
    return (0, computeBiodiversityCredits report.biodiversity)
  | .basket => do
    ensure (report.biodiversity ≠ .absent) .invalidReport
    return (carbonTotal, computeBiodiversityCredits report.biodiversity)

/-- Fixed-point credits per token. The product is a plain `*` and wraps; nothing is credited while
nobody holds a token. -/
def perToken (credits totalSubscribed : ℤ) : ℤ :=
  if 0 < totalSubscribed ∧ 0 < credits then (wrap (credits * fixedPoint)).tdiv totalSubscribed
  else 0

/-- First batch: validate the report and compute the per-token rates. The second component is
`total_subscribed` at that moment. From here on the period keeps these rates, whatever becomes of
the report or of the number of tokens. -/
def openBatch (deps : Deps) (bondId : BondId) (projectId : Bytes32) (creditType : CreditType)
    (reportId : ReportId) : Result CouponEngineError (BatchState × ℤ) := do
  let report ← orTrap (deps.getReport reportId)
  ensure (report.status = .verified) .reportNotVerified
  -- The report must be one of the bond's project; `bond_not_found` is the error the source gives.
  ensure (report.projectMetadataHash = projectId) .bondNotFound
  let totalSubscribed ← orTrap (deps.totalSubscribed bondId)
  let (carbonTotal, biodiversityTotal) ← creditTotals creditType report
  let totalCredits ← orError (checkedAdd carbonTotal biodiversityTotal) .overflow
  return (⟨reportId, 0, 0, 0, 0, totalCredits, carbonTotal, biodiversityTotal,
    perToken totalCredits totalSubscribed, perToken carbonTotal totalSubscribed,
    perToken biodiversityTotal totalSubscribed⟩, totalSubscribed)

/-- Where a period stands when a batch starts: the batch state, the snapshot of
`total_subscribed` and the balance processed so far. -/
structure Progress where
  batch : BatchState
  totalSubscribed : ℤ
  processedBalance : ℤ
  deriving DecidableEq, Repr

/-- Subsequent batch: the same report must be named. The totals and rates are those stored by the
first batch; report, project and issuer are not asked again. -/
def resumeBatch (s : State) (bondId : BondId) (periodIndex : ℕ) (reportId : ReportId)
    (batch : BatchState) : Result CouponEngineError Progress := do
  ensure (batch.reportId = reportId) .invalidReport
  let balance ← orError (s.distributionBalance (bondId, periodIndex)) .accountingMismatch
  return ⟨batch, balance.1, balance.2⟩

/-- Initialise on the first call, resume on subsequent ones. -/
def startBatch (deps : Deps) (s : State) (bondId : BondId) (periodIndex : ℕ)
    (projectId : Bytes32) (creditType : CreditType) (reportId : ReportId) :
    Result CouponEngineError Progress :=
  match s.batchState (bondId, periodIndex) with
  | some batch => resumeBatch s bondId periodIndex reportId batch
  | none => do
    let (batch, totalSubscribed) ← openBatch deps bondId projectId creditType reportId
    return ⟨batch, totalSubscribed, 0⟩

/-- The variables of the loop over holders, with the storage it writes. -/
structure LoopState where
  storage : State
  processedBalance : ℤ
  totalHolderCredits : ℤ
  carbonHolderCredits : ℤ
  biodiversityHolderCredits : ℤ
  holderCount : ℕ

/-- The allocation of one rate to one balance. The product is a plain `*` and wraps. -/
def allocation (rate balance : ℤ) : ℤ := (wrap (rate * balance)).tdiv fixedPoint

/-- A holder's credits, combined and split into carbon and biodiversity. A Basket bond rounds the
two sides down separately, and its combined credits are their sum. -/
def holderCredits (creditType : CreditType) (batch : BatchState) (balance : ℤ) :
    Result CouponEngineError (ℤ × ℤ × ℤ) :=
  match creditType with
  | .carbon | .blueCarbon =>
    let credits := allocation batch.creditsPerToken balance
    return (credits, credits, 0)
  | .biodiversity =>
    let credits := allocation batch.creditsPerToken balance
    return (credits, 0, credits)
  | .basket => do
    let carbon := allocation batch.carbonPerToken balance
    let biodiversity := allocation batch.biodiversityPerToken balance
    let credits ← orError (checkedAdd carbon biodiversity) .overflow
    return (credits, carbon, biodiversity)

/-- Accrue the carbon side of an allocation, when there is one. -/
def creditCarbon (bondId : BondId) (holder : Address) (amount : ℤ) (l : LoopState) :
    Result CouponEngineError LoopState :=
  if 0 < amount then do
    let credits ← orError (checkedAdd l.carbonHolderCredits amount) .overflow
    let storage ← accrueCredits l.storage bondId holder .carbon amount
    return { l with storage, carbonHolderCredits := credits }
  else return l

/-- Accrue the biodiversity side of an allocation, when there is one. -/
def creditBiodiversity (bondId : BondId) (holder : Address) (amount : ℤ) (l : LoopState) :
    Result CouponEngineError LoopState :=
  if 0 < amount then do
    let credits ← orError (checkedAdd l.biodiversityHolderCredits amount) .overflow
    let storage ← accrueCredits l.storage bondId holder .biodiversity amount
    return { l with storage, biodiversityHolderCredits := credits }
  else return l

/-- Pay one holder: nothing happens unless the combined allocation is positive. -/
def payHolder (bondId : BondId) (holder : Address) (credits carbon biodiversity : ℤ)
    (l : LoopState) : Result CouponEngineError LoopState :=
  if 0 < credits then do
    let total ← orError (checkedAdd l.totalHolderCredits credits) .overflow
    let l ← creditCarbon bondId holder carbon { l with totalHolderCredits := total }
    let l ← creditBiodiversity bondId holder biodiversity l
    return { l with holderCount := l.holderCount + 1 }
  else return l

/-- Mark a holder as processed for a period. The mark is what makes a holder who appears twice, in
one batch or in two, be paid once. -/
def markDistributed (s : State) (bondId : BondId) (periodIndex : ℕ) (holder : Address) : State :=
  { s with
    holderDistributed :=
      Function.update s.holderDistributed (bondId, periodIndex, holder) true }

/-- The loop body: skip a holder already processed, skip a balance that is not positive, pay the
others. The list is the caller's, with the balances it says. -/
def processHolder (bondId : BondId) (periodIndex : ℕ) (creditType : CreditType)
    (batch : BatchState) (totalSubscribed : ℤ) (l : LoopState) (entry : Address × ℤ) :
    Result CouponEngineError LoopState :=
  -- A holder processed before is passed over whatever balance is given for it now.
  if l.storage.holderDistributed (bondId, periodIndex, entry.1) then return l
  else if 0 < entry.2 then do
    let processed ← orError (checkedAdd l.processedBalance entry.2) .overflow
    -- More than was subscribed can never have been handed out, whoever is listed.
    ensure (processed ≤ totalSubscribed) .accountingMismatch
    let (credits, carbon, biodiversity) ← holderCredits creditType batch entry.2
    let l ← payHolder bondId entry.1 credits carbon biodiversity
      { l with processedBalance := processed }
    -- Marked also when the allocation rounds to nothing.
    return { l with storage := markDistributed l.storage bondId periodIndex entry.1 }
  else return l

/-- Add the batch's figures to the running ones. All three sums are checked; the number of holders
is not. -/
def accumulate (batch : BatchState) (l : LoopState) : Result CouponEngineError BatchState := do
  let distributed ← orError (checkedAdd batch.distributedSoFar l.totalHolderCredits) .overflow
  let carbon ← orError (checkedAdd batch.carbonDistributedSoFar l.carbonHolderCredits) .overflow
  let bio ← orError (checkedAdd batch.bioDistributedSoFar l.biodiversityHolderCredits) .overflow
  return { batch with
    distributedSoFar := distributed
    carbonDistributedSoFar := carbon
    bioDistributedSoFar := bio
    holderCountSoFar := batch.holderCountSoFar + l.holderCount }

/-- Add a positive remainder to a stored total; anything else leaves it alone. A negative remainder
would be more handed out than earned; it is not recorded as dust. -/
def addRemainder (existing remainder : ℤ) : Result CouponEngineError ℤ :=
  if 0 < remainder then orError (checkedAdd existing remainder) .overflow else return existing

/-- Close the period after its last batch. The last batch must complete the supply: the balances
processed add up to what was subscribed. What was earned and not handed out becomes dust, by the
report's total and by type. -/
def finalise (deps : Deps) (s : State) (bondId : BondId) (periodIndex : ℕ) (p : Progress) :
    Result CouponEngineError State := do
  ensure (p.processedBalance = p.totalSubscribed) .accountingMismatch
  let batch := p.batch
  -- The report is read once more, for the window of the period only.
  let report ← orTrap (deps.getReport batch.reportId)
  let undistributed ←
    orError (checkedSub batch.totalCredits batch.distributedSoFar) .accountingMismatch
  let carbonUndistributed ←
    orError (checkedSub batch.carbonTotal batch.carbonDistributedSoFar) .accountingMismatch
  let biodiversityUndistributed ←
    orError (checkedSub batch.biodiversityTotal batch.bioDistributedSoFar) .accountingMismatch
  let info : PeriodInfo := ⟨periodIndex, report.periodStart, report.periodEnd,
    batch.distributedSoFar, true, batch.reportId, undistributed⟩
  -- The three remainders are added under their own guards. Below, the sweep asks that the two typed
  -- totals add up to the combined one.
  let total ← addRemainder (s.undistributedTotal bondId) undistributed
  let carbon ← addRemainder (s.undistributedByType (bondId, .carbon)) carbonUndistributed
  let biodiversity ←
    addRemainder (s.undistributedByType (bondId, .biodiversity)) biodiversityUndistributed
  return { s with
    periodInfo := Function.update s.periodInfo (bondId, periodIndex) (some info)
    undistributedTotal := Function.update s.undistributedTotal bondId total
    undistributedByType :=
      Function.update (Function.update s.undistributedByType (bondId, .carbon) carbon)
        (bondId, .biodiversity) biodiversity
    -- a `u32` in the source, counted up with a plain `+`
    periodCount := Function.update s.periodCount bondId ((s.periodCount bondId + 1) % 2 ^ 32)
    batchState := Function.update s.batchState (bondId, periodIndex) none
    distributionBalance := Function.update s.distributionBalance (bondId, periodIndex) none }

/-- Store where the period stands. -/
def saveProgress (s : State) (bondId : BondId) (periodIndex : ℕ) (p : Progress) : State :=
  { s with
    batchState := Function.update s.batchState (bondId, periodIndex) (some p.batch)
    distributionBalance := Function.update s.distributionBalance (bondId, periodIndex)
      (some (p.totalSubscribed, p.processedBalance)) }

/-- `distribute_coupon` after the nonce and admin checks. The period is closed for good once
`finalise` has stored it: the first check refuses it from then on. -/
def distribute (deps : Deps) (s : State) (bondId : BondId) (periodIndex : ℕ)
    (holders : List (Address × ℤ)) (reportId : ReportId) (isFinalBatch : Bool) :
    Result CouponEngineError (State × CouponResult) := do
  ensure (∀ info ∈ s.periodInfo (bondId, periodIndex), info.distributed = false)
    .periodAlreadyDistributed
  let projectId ← orError (s.bondProject bondId) .bondNotFound
  let creditType ← orError (s.bondCreditType bondId) .bondNotFound
  let p ← startBatch deps s bondId periodIndex projectId creditType reportId
  let l ← holders.foldlM
    (processHolder bondId periodIndex creditType p.batch p.totalSubscribed)
    -- The progress is stored before the loop; what the loop marks and accrues is written into that.
    ⟨saveProgress s bondId periodIndex p, p.processedBalance, 0, 0, 0, 0⟩
  let batch ← accumulate p.batch l
  let p := { p with batch, processedBalance := l.processedBalance }
  let s := saveProgress l.storage bondId periodIndex p
  let result : CouponResult := ⟨bondId, periodIndex, batch.distributedSoFar,
    batch.holderCountSoFar, batch.creditsPerToken⟩
  if isFinalBatch then
    let s ← finalise deps s bondId periodIndex p
    return (s, result)
  else return (s, result)

/-- `distribute_coupon`. -/
def distributeCoupon (deps : Deps) (s : State) (caller : Address) (bondId : BondId)
    (periodIndex : ℕ) (holders : List (Address × ℤ)) (reportId : ReportId) (nonce : ℕ)
    (isFinalBatch : Bool) : Result CouponEngineError (State × CouponResult) := do
  let nonces ← useNonce s.nonce caller nonce .invalidNonce
  requireAdmin s.admin caller .notInitialized .unauthorized
  distribute deps { s with nonce := nonces } bondId periodIndex holders reportId isFinalBatch

/-! ### Claiming, sweeping and deducting -/

/-- The per-type breakdown of a positive accrual, validated against it, with the buckets it came
from cleared. -/
def claimByType (s : State) (bondId : BondId) (caller : Address) (accrued : ℤ) :
    Option CreditType → Result CouponEngineError (State × ClaimReceipt)
  | some .carbon | some .blueCarbon => do
    let carbonAmt := s.accruedCreditsByType (bondId, caller, .carbon)
    ensure (carbonAmt = accrued) .accountingMismatch
    return (clearAccrued s bondId caller .carbon, ⟨accrued, carbonAmt, 0⟩)
  | some .biodiversity => do
    let bioAmt := s.accruedCreditsByType (bondId, caller, .biodiversity)
    ensure (bioAmt = accrued) .accountingMismatch
    return (clearAccrued s bondId caller .biodiversity, ⟨accrued, 0, bioAmt⟩)
  | some .basket => do
    let carbonAmt := s.accruedCreditsByType (bondId, caller, .carbon)
    let bioAmt := s.accruedCreditsByType (bondId, caller, .biodiversity)
    let sum ← orError (checkedAdd carbonAmt bioAmt) .overflow
    ensure (sum = accrued) .accountingMismatch
    return (clearAccrued (clearAccrued s bondId caller .carbon) bondId caller .biodiversity,
      ⟨accrued, carbonAmt, bioAmt⟩)
  -- A holder can have credits only of a registered bond; the source returns the error all the same.
  | none => .error (.error .accountingMismatch)

/-- `claim_credits`. -/
def claimCredits (s : State) (caller : Address) (bondId : BondId) (nonce : ℕ) :
    Result CouponEngineError (State × ClaimReceipt) := do
  let nonces ← useNonce s.nonce caller nonce .invalidNonce
  let s := { s with nonce := nonces }
  let accrued := s.accruedCredits (bondId, caller)
  if 0 < accrued then
    let (s, receipt) ← claimByType s bondId caller accrued (s.bondCreditType bondId)
    return ({ s with
      accruedCredits := Function.update s.accruedCredits (bondId, caller) 0 }, receipt)
  -- Nothing accrued: the nonce is spent and 0 is answered.
  else return (s, ⟨accrued, 0, 0⟩)

/-- Accrue a swept amount, when there is one. -/
def accruePositive (s : State) (bondId : BondId) (holder : Address) (creditType : CreditType)
    (amount : ℤ) : Result CouponEngineError State :=
  if 0 < amount then accrueCredits s bondId holder creditType amount else return s

/-- `sweep_undistributed`. Credits swept go to the destination as if it had held tokens, by type and
in total. -/
def sweepUndistributed (s : State) (caller : Address) (bondId : BondId) (destination : Address)
    (nonce : ℕ) : Result CouponEngineError (State × SweepReceipt) := do
  let nonces ← useNonce s.nonce caller nonce .invalidNonce
  requireAdmin s.admin caller .notInitialized .unauthorized
  let combined := s.undistributedTotal bondId
  let carbon := s.undistributedByType (bondId, .carbon)
  let biodiversity := s.undistributedByType (bondId, .biodiversity)
  let sum ← orError (checkedAdd carbon biodiversity) .overflow
  ensure (sum = combined) .accountingMismatch
  -- With both sides zero there is nothing to write.
  if combined = 0 then return ({ s with nonce := nonces }, ⟨bondId, destination, 0, 0, 0⟩)
  else
    let s := { s with
      nonce := nonces
      undistributedTotal := Function.update s.undistributedTotal bondId 0
      undistributedByType :=
        Function.update (Function.update s.undistributedByType (bondId, .carbon) 0)
          (bondId, .biodiversity) 0 }
    let s ← accruePositive s bondId destination .carbon carbon
    let s ← accruePositive s bondId destination .biodiversity biodiversity
    return (s, ⟨bondId, destination, combined, carbon, biodiversity⟩)

/-- `register_deduct_caller`. Whoever is registered may deduct; the admin can replace it at any
time. -/
def registerDeductCaller (s : State) (caller deductCaller : Address) (nonce : ℕ) :
    Result CouponEngineError State := do
  let nonces ← useNonce s.nonce caller nonce .invalidNonce
  requireAdmin s.admin caller .notInitialized .unauthorized
  return { s with nonce := nonces, deductCaller := some deductCaller }

/-- `deduct_credits`; `signers` authorized the call. The answer is the combined balance left. There
is no nonce: the registered contract authorizes the call. -/
def deductCredits (s : State) (signers : List Address) (bondId : BondId) (holder : Address)
    (amount : ℤ) (creditType : CreditType) : Result CouponEngineError (State × ℤ) := do
  let authorized ← orError s.deductCaller .unauthorized
  requireAuth signers authorized
  ensure (0 < amount) .zeroAmount
  let combined := s.accruedCredits (bondId, holder)
  ensure (amount ≤ combined) .overflow
  let byTypeKey := (bondId, holder, storageType creditType)
  let byType := s.accruedCreditsByType byTypeKey
  -- The two balances are checked one by one: a total that suffices does not make up for an empty
  -- bucket.
  ensure (amount ≤ byType) .overflow
  return ({ s with
    accruedCredits := Function.update s.accruedCredits (bondId, holder) (combined - amount)
    accruedCreditsByType := Function.update s.accruedCreditsByType byTypeKey (byType - amount) },
    combined - amount)

/-- `accrued_credits`. -/
def accruedCreditsOf (s : State) (bondId : BondId) (holder : Address) : ℤ :=
  s.accruedCredits (bondId, holder)

/-- `get_period_info`. -/
def getPeriodInfo (s : State) (bondId : BondId) (periodIndex : ℕ) :
    Result CouponEngineError PeriodInfo :=
  orError (s.periodInfo (bondId, periodIndex)) .periodNotFound

/-- `get_period_count`. -/
def getPeriodCount (s : State) (bondId : BondId) : ℕ := s.periodCount bondId

/-- `get_period_info_range`: the records stored under the indices from `start` on, `count` indices
at most and all of them below the stored count. An index in this range without a record is left out,
and one outside it is not found. -/
def getPeriodInfoRange (s : State) (bondId : BondId) (start count : ℕ) : List PeriodInfo :=
  let total := s.periodCount bondId
  if count = 0 ∨ total ≤ start then []
  else
    let stop := min (start + count) total
    (List.range' start (stop - start)).filterMap fun i => s.periodInfo (bondId, i)

/-! ### The contract's entrypoints as operations -/

/-- The state-changing entrypoints. -/
inductive Op where
  | registerBond (caller : Address) (bondId : BondId) (projectId : Bytes32) (nonce : ℕ)
  | distributeCoupon (caller : Address) (bondId : BondId) (periodIndex : ℕ)
      (holders : List (Address × ℤ)) (reportId : ReportId) (nonce : ℕ) (isFinalBatch : Bool)
  | claimCredits (caller : Address) (bondId : BondId) (nonce : ℕ)
  | sweepUndistributed (caller : Address) (bondId : BondId) (destination : Address) (nonce : ℕ)
  | registerDeductCaller (caller deductCaller : Address) (nonce : ℕ)
  | deductCredits (signers : List Address) (bondId : BondId) (holder : Address) (amount : ℤ)
      (creditType : CreditType)
  deriving DecidableEq, Repr

/-- The bond an operation is about. -/
def Op.bond? : Op → Option BondId
  | .registerBond _ bondId _ _ => some bondId
  | .distributeCoupon _ bondId _ _ _ _ _ => some bondId
  | .claimCredits _ bondId _ => some bondId
  | .sweepUndistributed _ bondId _ _ => some bondId
  | .registerDeductCaller .. => none
  | .deductCredits _ bondId _ _ _ => some bondId

/-- The answers of the entrypoints. -/
inductive Ret where
  | unit
  | coupon (result : CouponResult)
  | claimed (receipt : ClaimReceipt)
  | swept (receipt : SweepReceipt)
  | remaining (balance : ℤ)
  deriving DecidableEq, Repr

/-- Run one entrypoint. -/
def exec (deps : Deps) (s : State) : Op → Result CouponEngineError (State × Ret)
  | .registerBond caller bondId projectId nonce => do
    return (← registerBond deps s caller bondId projectId nonce, .unit)
  | .distributeCoupon caller bondId periodIndex holders reportId nonce isFinalBatch => do
    let (s', result) ←
      distributeCoupon deps s caller bondId periodIndex holders reportId nonce isFinalBatch
    return (s', .coupon result)
  | .claimCredits caller bondId nonce => do
    let (s', receipt) ← claimCredits s caller bondId nonce
    return (s', .claimed receipt)
  | .sweepUndistributed caller bondId destination nonce => do
    let (s', receipt) ← sweepUndistributed s caller bondId destination nonce
    return (s', .swept receipt)
  | .registerDeductCaller caller deductCaller nonce => do
    return (← registerDeductCaller s caller deductCaller nonce, .unit)
  | .deductCredits signers bondId holder amount creditType => do
    let (s', balance) ← deductCredits s signers bondId holder amount creditType
    return (s', .remaining balance)

end CouponEngine
end NbsBond
