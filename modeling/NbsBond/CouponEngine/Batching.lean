import NbsBond.Framework.Lockstep
import NbsBond.CouponEngine.Periods

/-!
# Cutting a distribution into batches

A list of holders distributed in one call, or cut in two and distributed in two calls, gives the
same state and the same answer (`distribute_append`). The two computations run in lockstep. Over the
first part they are the same; over the second part the loop of the single call carries the figures
of the first part along, while the loop of the second call starts from zero and the first part's
figures are in the stored `BatchState` (`LoopState.join`). The figures of either loop fit an `i128`,
because the batches of a period never pay more than its credits.
-/

namespace NbsBond
namespace CouponEngine

open Soroban Int128 OracleConsumer

variable {P : CreditType → Prop} {creditType : CreditType} {b : BondId} {p : ℕ}

/-! ### Room for the figures -/

/-- Before a holder is paid there is room for its share among the credits of the period. -/
theorem Figures.room {progress : Progress} {l : LoopState} (hB : Batch P creditType progress)
    (hcreditType : P creditType) (hF : Figures P creditType progress l) {balance : ℤ}
    (hpos : 0 < balance) (hle : l.processedBalance + balance ≤ progress.totalSubscribed) :
    soFar progress.batch + l.credits +
        CouponEngine.share (rates creditType progress.batch) balance ≤
      totals progress.batch := by
  obtain ⟨hcovers, hbefore⟩ := hB.covered hcreditType
  have hshare := (hF.share hB hcreditType hpos hle).2
  have hpaid := (hbefore.add (hF.paid hcreditType)).add hshare
  rw [add_sub_cancel] at hpaid
  exact hcovers.le_total hle hpaid

/-- After any number of holders the figures are at most the credits of the period. -/
theorem Figures.le_totals {progress : Progress} {l : LoopState} (hB : Batch P creditType progress)
    (hcreditType : P creditType) (hF : Figures P creditType progress l) :
    soFar progress.batch + l.credits ≤ totals progress.batch := by
  obtain ⟨hcovers, hbefore⟩ := hB.covered hcreditType
  have hpaid := hbefore.add (hF.paid hcreditType)
  rw [add_sub_cancel] at hpaid
  exact hcovers.le_total hF.within hpaid

/-- Credits between zero and the credits of a period fit an `i128`, and so does their total. -/
theorem Batch.inRange_of_le {progress : Progress} (hB : Batch P creditType progress) {x : Credits}
    (hnonneg : 0 ≤ x) (hle : x ≤ totals progress.batch) :
    InRange x.1 ∧ InRange x.2 ∧ InRange x.total := by
  have h₁ : 0 ≤ x.1 := hnonneg.1
  have h₂ : 0 ≤ x.2 := hnonneg.2
  have h₃ : x.1 ≤ (totals progress.batch).1 := hle.1
  have h₄ : x.2 ≤ (totals progress.batch).2 := hle.2
  have hmax : (totals progress.batch).1 + (totals progress.batch).2 ≤ maxValue := hB.inRange.2
  refine ⟨.of_nonneg h₁ (by omega), .of_nonneg h₂ (by omega), ?_⟩
  exact .of_nonneg (add_nonneg h₁ h₂) (by unfold Credits.total; omega)

/-- `accumulate` succeeds. -/
theorem Figures.accumulate_eq {progress : Progress} {l : LoopState}
    (hB : Batch P creditType progress) (hcreditType : P creditType)
    (hF : Figures P creditType progress l) :
    accumulate progress.batch l = .ok { progress.batch with
      distributedSoFar := progress.batch.distributedSoFar + l.totalHolderCredits
      carbonDistributedSoFar := progress.batch.carbonDistributedSoFar + l.carbonHolderCredits
      bioDistributedSoFar := progress.batch.bioDistributedSoFar + l.biodiversityHolderCredits
      holderCountSoFar := progress.batch.holderCountSoFar + l.holderCount } := by
  obtain ⟨hcarbon, hbio, htotal⟩ := hB.inRange_of_le (add_nonneg hB.nonneg hF.nonneg)
    (hF.le_totals hB hcreditType)
  rw [Credits.total_add, ← hB.paid, ← hF.total] at htotal
  have h₁ : checkedAdd progress.batch.distributedSoFar l.totalHolderCredits = some _ :=
    checkedAdd_eq_some.mpr ⟨htotal, rfl⟩
  have h₂ : checkedAdd progress.batch.carbonDistributedSoFar l.carbonHolderCredits = some _ :=
    checkedAdd_eq_some.mpr ⟨hcarbon, rfl⟩
  have h₃ : checkedAdd progress.batch.bioDistributedSoFar l.biodiversityHolderCredits = some _ :=
    checkedAdd_eq_some.mpr ⟨hbio, rfl⟩
  unfold accumulate
  rw [h₁, h₂, h₃]
  rfl

/-! ### Two loops -/

/-- The loop of a single call after holders that took it to `l₁`, and further holders that took a
loop started from zero to `l`. -/
def LoopState.join (l₁ l : LoopState) : LoopState where
  storage := { l.storage with
    batchState := l₁.storage.batchState
    distributionBalance := l₁.storage.distributionBalance }
  processedBalance := l.processedBalance
  totalHolderCredits := l₁.totalHolderCredits + l.totalHolderCredits
  carbonHolderCredits := l₁.carbonHolderCredits + l.carbonHolderCredits
  biodiversityHolderCredits := l₁.biodiversityHolderCredits + l.biodiversityHolderCredits
  holderCount := l₁.holderCount + l.holderCount

/-- Accruing reads and writes accounts alone. -/
theorem accrueCredits_join (l₁ l : LoopState) (holder : Address) (stored : CreditType)
    (amount : ℤ) :
    Lockstep (fun s s' => s = { s' with
        batchState := l₁.storage.batchState
        distributionBalance := l₁.storage.distributionBalance })
      (accrueCredits (l₁.join l).storage b holder stored amount)
      (accrueCredits l.storage b holder stored amount) := by
  unfold accrueCredits
  refine Lockstep.bind_same fun byType _ => ?_
  refine Lockstep.bind_same fun combined _ => ?_
  exact .pure rfl

/-- There is room for `x` in the figures of the second loop and in those of the joint one. The joint
loop has the figures of the first loop on top. -/
structure Room (l₁ l : LoopState) (x : Credits) : Prop where
  total : InRange (l.totalHolderCredits + x.total) ∧
    InRange (l₁.totalHolderCredits + l.totalHolderCredits + x.total)
  carbon : InRange (l.carbonHolderCredits + x.1) ∧
    InRange (l₁.carbonHolderCredits + l.carbonHolderCredits + x.1)
  biodiversity : InRange (l.biodiversityHolderCredits + x.2) ∧
    InRange (l₁.biodiversityHolderCredits + l.biodiversityHolderCredits + x.2)

theorem creditCarbon_join {l₁ l : LoopState} {holder : Address} {amount : ℤ}
    (hroom : InRange (l.carbonHolderCredits + amount) ∧
      InRange (l₁.carbonHolderCredits + l.carbonHolderCredits + amount)) :
    Lockstep (fun x y => x = l₁.join y ∧
        y.biodiversityHolderCredits = l.biodiversityHolderCredits)
      (creditCarbon b holder amount (l₁.join l)) (creditCarbon b holder amount l) := by
  unfold creditCarbon
  split
  · have h : checkedAdd l.carbonHolderCredits amount = some _ :=
      checkedAdd_eq_some.mpr ⟨hroom.1, rfl⟩
    have h₁ : checkedAdd (l₁.join l).carbonHolderCredits amount = some _ :=
      checkedAdd_eq_some.mpr ⟨hroom.2, rfl⟩
    rw [h, h₁]
    refine (accrueCredits_join l₁ l holder .carbon amount).bind ?_
    rintro _ s' - - rfl
    refine .pure ⟨?_, rfl⟩
    simp [LoopState.join, add_assoc]
  · exact .pure ⟨rfl, rfl⟩

theorem creditBiodiversity_join {l₁ l : LoopState} {holder : Address} {amount : ℤ}
    (hroom : InRange (l.biodiversityHolderCredits + amount) ∧
      InRange (l₁.biodiversityHolderCredits + l.biodiversityHolderCredits + amount)) :
    Lockstep (fun x y => x = l₁.join y) (creditBiodiversity b holder amount (l₁.join l))
      (creditBiodiversity b holder amount l) := by
  unfold creditBiodiversity
  split
  · have h : checkedAdd l.biodiversityHolderCredits amount = some _ :=
      checkedAdd_eq_some.mpr ⟨hroom.1, rfl⟩
    have h₁ : checkedAdd (l₁.join l).biodiversityHolderCredits amount = some _ :=
      checkedAdd_eq_some.mpr ⟨hroom.2, rfl⟩
    rw [h, h₁]
    refine (accrueCredits_join l₁ l holder .biodiversity amount).bind ?_
    rintro _ s' - - rfl
    refine .pure ?_
    simp [LoopState.join, add_assoc]
  · exact .pure rfl

theorem payHolder_join {l₁ l : LoopState} {holder : Address} {x : Credits}
    (hroom : Room l₁ l x) :
    Lockstep (fun y z => y = l₁.join z) (payHolder b holder x.total x.1 x.2 (l₁.join l))
      (payHolder b holder x.total x.1 x.2 l) := by
  unfold payHolder
  split
  swap
  · exact .pure rfl
  have h : checkedAdd l.totalHolderCredits x.total = some _ :=
    checkedAdd_eq_some.mpr ⟨hroom.total.1, rfl⟩
  have h₁ : checkedAdd (l₁.join l).totalHolderCredits x.total = some _ :=
    checkedAdd_eq_some.mpr ⟨hroom.total.2, rfl⟩
  rw [h, h₁]
  have hjoin : { l₁.join l with
      totalHolderCredits := (l₁.join l).totalHolderCredits + x.total } =
      l₁.join { l with totalHolderCredits := l.totalHolderCredits + x.total } := by
    simp [LoopState.join, add_assoc]
  refine Lockstep.bind (R := fun y z => y = l₁.join z ∧
    z.biodiversityHolderCredits = l.biodiversityHolderCredits) ?_ ?_
  · rw [hjoin]
    exact creditCarbon_join
      (l := { l with totalHolderCredits := l.totalHolderCredits + x.total }) hroom.carbon
  rintro _ l₂ - - ⟨rfl, hbio⟩
  have hroom₂ := hroom.biodiversity
  rw [← hbio] at hroom₂
  refine (creditBiodiversity_join hroom₂).bind ?_
  rintro _ l₃ - - rfl
  refine .pure ?_
  simp [LoopState.join, add_assoc]

/-- **One holder**, in the joint loop and in the second one. What is paid stays below the totals of
the period, so neither overflows where the other does not. -/
theorem processHolder_join {progress : Progress} {l₁ l : LoopState} {entry : Address × ℤ}
    (hB : Batch P creditType progress) (hcreditType : P creditType)
    (hF : Figures P creditType progress l) (hnonneg : 0 ≤ l₁.credits)
    (htotal : l₁.totalHolderCredits = l₁.credits.total)
    (hle : l₁.credits ≤ soFar progress.batch) :
    Lockstep (fun y z => y = l₁.join z)
      (processHolder b p creditType progress.batch progress.totalSubscribed (l₁.join l) entry)
      (processHolder b p creditType progress.batch progress.totalSubscribed l entry) := by
  unfold processHolder
  show Lockstep _ (if l.storage.holderDistributed (b, p, entry.1) then _ else _) _
  split
  · exact .pure rfl
  split
  swap
  · exact .pure rfl
  next hpos =>
  show Lockstep _ (orError (checkedAdd l.processedBalance entry.2) _ >>= _) _
  refine Lockstep.bind_same fun processed hprocessed => ?_
  refine Lockstep.bind_same fun _ hwithin => ?_
  refine Lockstep.bind_same fun x hx => ?_
  rw [orError_eq_ok, checkedAdd_eq_some] at hprocessed
  rw [ensure_eq_ok] at hwithin
  obtain ⟨-, rfl⟩ := hprocessed
  obtain ⟨credits, carbon, biodiversity⟩ := x
  obtain ⟨hshare, hsum⟩ := holderCredits_ok hx
  -- both loops have room for the share, because the period has
  have hfull := hF.room hB hcreditType hpos hwithin
  have hshare_nonneg := (hF.share hB hcreditType hpos hwithin).1
  rw [← hshare] at hfull hshare_nonneg
  have hroom : Room l₁ l (carbon, biodiversity) := by
    have hF_nonneg := hF.nonneg
    have hself : l.credits + (carbon, biodiversity) ≤ totals progress.batch := by
      refine le_trans ?_ hfull
      rw [add_assoc]
      exact le_add_of_nonneg_left hB.nonneg
    have hjoint : l₁.credits + l.credits + (carbon, biodiversity) ≤ totals progress.batch := by
      refine le_trans ?_ hfull
      gcongr
    obtain ⟨h₁, h₂, h₃⟩ := hB.inRange_of_le (add_nonneg hF_nonneg hshare_nonneg) hself
    obtain ⟨h₄, h₅, h₆⟩ := hB.inRange_of_le
      (add_nonneg (add_nonneg hnonneg hF_nonneg) hshare_nonneg) hjoint
    rw [Credits.total_add, ← hF.total] at h₃
    rw [Credits.total_add, Credits.total_add, ← hF.total, ← htotal] at h₆
    exact ⟨⟨h₃, h₆⟩, ⟨h₁, h₄⟩, h₂, h₅⟩
  have hpay : Lockstep (fun y z => y = l₁.join z)
      (payHolder b entry.1 (Credits.total (carbon, biodiversity)) carbon biodiversity
        (l₁.join { l with processedBalance := l.processedBalance + entry.2 }))
      (payHolder b entry.1 (Credits.total (carbon, biodiversity)) carbon biodiversity
        { l with processedBalance := l.processedBalance + entry.2 }) :=
    payHolder_join (x := (carbon, biodiversity)) ⟨hroom.total, hroom.carbon, hroom.biodiversity⟩
  have hcredits : Credits.total (carbon, biodiversity) = credits := hsum.symm
  rw [hcredits] at hpay
  refine hpay.bind ?_
  rintro _ l₂ - - rfl
  exact .pure rfl

/-- **The loop**, joint and second. The induction is on the holders, with the figures of the loop as
the invariant. -/
theorem foldlM_join {progress : Progress} {l₁ l : LoopState} (holders : List (Address × ℤ))
    (hP : P .basket) (hB : Batch P creditType progress) (hcreditType : P creditType)
    (hF : Figures P creditType progress l) (hnonneg : 0 ≤ l₁.credits)
    (htotal : l₁.totalHolderCredits = l₁.credits.total)
    (hle : l₁.credits ≤ soFar progress.batch) :
    Lockstep (fun y z => y = l₁.join z)
      (holders.foldlM (processHolder b p creditType progress.batch progress.totalSubscribed)
        (l₁.join l))
      (holders.foldlM (processHolder b p creditType progress.batch progress.totalSubscribed)
        l) := by
  refine Lockstep.mono (R := fun y z => y = l₁.join z ∧ Figures P creditType progress z) ?_
    (fun _ _ _ _ h => h.1)
  refine Lockstep.foldlM ⟨rfl, hF⟩ ?_
  rintro _ l entry - ⟨rfl, hF⟩
  refine (processHolder_join hB hcreditType hF hnonneg htotal hle).mono ?_
  rintro _ l' - hl' rfl
  refine ⟨rfl, ?_⟩
  obtain ⟨rfl, -⟩ | hpaid := processHolder_ok hl'
  · exact hF
  · exact hF.pay hP hB hpaid

/-! ### Two calls -/

/-- The loop reads the rates of the batch and nothing else of it. -/
theorem processHolder_accumulate {batch batch' : BatchState} {l : LoopState}
    (h : accumulate batch l = .ok batch') :
    processHolder b p creditType batch' = processHolder b p creditType batch := by
  rw [accumulate_ok h]
  rfl

/-- Saving progress twice is saving it once. -/
theorem saveProgress_idem (s : State) (x y : Progress) :
    saveProgress (saveProgress s b p x) b p y = saveProgress s b p y := by
  simp [saveProgress]

/-- A batch that follows one that left `progress` behind starts from it. -/
theorem startBatch_saveProgress (deps : Deps) (s : State) (projectId : Bytes32)
    (progress : Progress) :
    startBatch deps (saveProgress s b p progress) b p projectId creditType
      progress.batch.reportId = .ok progress := by
  have hbatch : (saveProgress s b p progress).batchState (b, p) = some progress.batch :=
    Function.update_self _ _ _
  have hbalance : (saveProgress s b p progress).distributionBalance (b, p) =
      some (progress.totalSubscribed, progress.processedBalance) := Function.update_self _ _ _
  unfold startBatch
  rw [hbatch]
  dsimp only
  unfold resumeBatch
  rw [hbalance]
  simp [ensure, orError]

/-- What `distribute_coupon` does after its loop. -/
def closeBatch (deps : Deps) (b : BondId) (p : ℕ) (isFinalBatch : Bool) (progress : Progress)
    (l : LoopState) : Result CouponEngineError (State × CouponResult) := do
  let batch ← accumulate progress.batch l
  let progress := progress.advance batch l
  let s := saveProgress l.storage b p progress
  let result : CouponResult := ⟨b, p, batch.distributedSoFar, batch.holderCountSoFar,
    batch.creditsPerToken⟩
  if isFinalBatch then
    let s ← finalise deps s b p progress
    return (s, result)
  else return (s, result)

/-- `distribute_coupon` as its start, its loop and its end. -/
theorem distribute_eq (deps : Deps) (s : State) (holders : List (Address × ℤ))
    (reportId : ReportId) (isFinalBatch : Bool) :
    distribute deps s b p holders reportId isFinalBatch = (do
      ensure (∀ info ∈ s.periodInfo (b, p), info.distributed = false) .periodAlreadyDistributed
      let projectId ← orError (s.bondProject b) .bondNotFound
      let creditType ← orError (s.bondCreditType b) .bondNotFound
      let progress ← startBatch deps s b p projectId creditType reportId
      let l ← holders.foldlM
        (processHolder b p creditType progress.batch progress.totalSubscribed)
        ⟨saveProgress s b p progress, progress.processedBalance, 0, 0, 0, 0⟩
      closeBatch deps b p isFinalBatch progress l) := rfl

/-- A call that resumes from `progress`. -/
theorem distribute_resume (deps : Deps) {s : State} (progress : Progress) {projectId : Bytes32}
    (hopen : ∀ info ∈ s.periodInfo (b, p), info.distributed = false)
    (hproject : s.bondProject b = some projectId) (htype : s.bondCreditType b = some creditType)
    (holders : List (Address × ℤ)) (isFinalBatch : Bool) :
    distribute deps (saveProgress s b p progress) b p holders progress.batch.reportId
        isFinalBatch =
      (holders.foldlM (processHolder b p creditType progress.batch progress.totalSubscribed)
        ⟨saveProgress s b p progress, progress.processedBalance, 0, 0, 0, 0⟩ >>=
          closeBatch deps b p isFinalBatch progress) := by
  have hguard : ensure (∀ info ∈ (saveProgress s b p progress).periodInfo (b, p),
      info.distributed = false) CouponEngineError.periodAlreadyDistributed = .ok () :=
    ensure_eq_ok.mpr hopen
  have hproject' : (saveProgress s b p progress).bondProject b = some projectId := hproject
  have htype' : (saveProgress s b p progress).bondCreditType b = some creditType := htype
  rw [distribute_eq, hguard, hproject', htype']
  show (startBatch deps (saveProgress s b p progress) b p projectId creditType
    progress.batch.reportId >>= _) = _
  rw [startBatch_saveProgress]
  show (holders.foldlM (processHolder b p creditType progress.batch progress.totalSubscribed)
    ⟨saveProgress (saveProgress s b p progress) b p progress, progress.processedBalance, 0, 0, 0,
      0⟩ >>= _) = _
  rw [saveProgress_idem]

/-- A batch that is not the last one, after its loop. -/
theorem closeBatch_open (deps : Deps) {progress : Progress} {l : LoopState} {batch : BatchState}
    (hacc : accumulate progress.batch l = .ok batch) :
    ∃ result, closeBatch deps b p false progress l =
      .ok (saveProgress l.storage b p (progress.advance batch l), result) := by
  unfold closeBatch
  rw [hacc]
  exact ⟨_, rfl⟩

/-- The end of the joint call and the end of the second one are the same. -/
theorem closeBatch_join {deps : Deps} {isFinalBatch : Bool} {progress : Progress}
    {l₁ l : LoopState} {batch₁ : BatchState} (hB : Batch P creditType progress)
    (hcreditType : P creditType) (hacc : accumulate progress.batch l₁ = .ok batch₁)
    (hB₁ : Batch P creditType (progress.advance batch₁ l₁))
    (hjoint : Figures P creditType progress (l₁.join l))
    (hF : Figures P creditType (progress.advance batch₁ l₁) l)
    (hbooks : SameBooks (saveProgress l₁.storage b p (progress.advance batch₁ l₁)) l.storage) :
    closeBatch deps b p isFinalBatch progress (l₁.join l) =
      closeBatch deps b p isFinalBatch (progress.advance batch₁ l₁) l := by
  have hbatch₁ := accumulate_ok hacc
  -- both accumulate to the same batch
  have hsame : accumulate progress.batch (l₁.join l) =
      accumulate (progress.advance batch₁ l₁).batch l := by
    rw [hjoint.accumulate_eq hB hcreditType, hF.accumulate_eq hB₁ hcreditType]
    show _ = Except.ok { batch₁ with
      distributedSoFar := batch₁.distributedSoFar + l.totalHolderCredits
      carbonDistributedSoFar := batch₁.carbonDistributedSoFar + l.carbonHolderCredits
      bioDistributedSoFar := batch₁.bioDistributedSoFar + l.biodiversityHolderCredits
      holderCountSoFar := batch₁.holderCountSoFar + l.holderCount }
    rw [hbatch₁]
    simp [LoopState.join, add_assoc]
  -- and save it over the same storage: the tables differ in the entry that is written
  have hstorage : ∀ x, saveProgress (l₁.join l).storage b p x = saveProgress l.storage b p x := by
    intro x
    have hbatches := hbooks.periods.2.1
    have hbalances : l.storage.distributionBalance =
        (saveProgress l₁.storage b p (progress.advance batch₁ l₁)).distributionBalance := by
      unfold SameBooks at hbooks
      rw [hbooks]
    simp [LoopState.join, saveProgress, hbatches, hbalances]
  unfold closeBatch
  rw [hsame]
  refine congrArg _ (funext fun batch => ?_)
  have hadvance : progress.advance batch (l₁.join l) =
      (progress.advance batch₁ l₁).advance batch l := rfl
  dsimp only
  rw [hadvance, hstorage]

/-- After the first part, the loop of the single call goes on and the second call starts a loop of
its own; they end alike. -/
theorem resume_join {deps : Deps} {progress : Progress} {l₁ : LoopState} {batch₁ : BatchState}
    (hP : P .basket) (hB : Batch P creditType progress) (hcreditType : P creditType)
    (hF₁ : Figures P creditType progress l₁) (hacc : accumulate progress.batch l₁ = .ok batch₁)
    (holders : List (Address × ℤ)) (isFinalBatch : Bool) :
    Lockstep Eq
      (holders.foldlM (processHolder b p creditType progress.batch progress.totalSubscribed) l₁ >>=
        closeBatch deps b p isFinalBatch progress)
      (holders.foldlM (processHolder b p creditType (progress.advance batch₁ l₁).batch
          (progress.advance batch₁ l₁).totalSubscribed)
        ⟨saveProgress l₁.storage b p (progress.advance batch₁ l₁),
          (progress.advance batch₁ l₁).processedBalance, 0, 0, 0, 0⟩ >>=
        closeBatch deps b p isFinalBatch (progress.advance batch₁ l₁)) := by
  have hB₁ := hB.advance hF₁ hacc
  have hrates : processHolder b p creditType progress.batch =
      processHolder b p creditType (progress.advance batch₁ l₁).batch :=
    (processHolder_accumulate hacc).symm
  have hcredits : l₁.credits ≤ soFar (progress.advance batch₁ l₁).batch := by
    show l₁.credits ≤ soFar batch₁
    rw [accumulate_ok hacc]
    exact le_add_of_nonneg_left hB.nonneg
  obtain ⟨l₀, hl₀⟩ : ∃ l₀ : LoopState, l₀ =
      ⟨saveProgress l₁.storage b p (progress.advance batch₁ l₁),
        (progress.advance batch₁ l₁).processedBalance, 0, 0, 0, 0⟩ := ⟨_, rfl⟩
  -- joined to a loop that has paid nobody yet, the first loop stays what it is
  have hjoin : l₁ = l₁.join l₀ := by
    rw [hl₀]
    simp [LoopState.join, saveProgress, Progress.advance]
  have hF₀ : Figures P creditType (progress.advance batch₁ l₁) l₀ := by
    rw [hl₀]
    exact Figures.start hB₁
  have hloop := foldlM_join (b := b) (p := p) holders hP hB₁ hcreditType hF₀ hF₁.nonneg hF₁.total
    hcredits
  rw [← hjoin] at hloop
  rw [hrates, ← hl₀]
  refine hloop.bind ?_
  rintro _ l hl hl' rfl
  have hF := Figures.of_fold hP hB₁ hF₀ hl'
  have hjoint : Figures P creditType progress (l₁.join l) := by
    rw [← hrates] at hl
    exact Figures.of_fold hP hB hF₁ hl
  -- both calls close over the same state and figures
  have hbooks := sameBooks_of_fold hl'
  rw [hl₀] at hbooks
  rw [closeBatch_join hB hcreditType hacc hB₁ hjoint hF hbooks]
  exact Lockstep.refl _

/-- A call that leaves its period open leaves behind where the next one starts. -/
theorem distribute_open {deps : Deps} {s s' : State} {reportId : ReportId}
    {holders : List (Address × ℤ)} {result : CouponResult} (hP : P .basket)
    (hstart : ∀ projectId creditType progress, s.bondProject b = some projectId →
      s.bondCreditType b = some creditType →
      startBatch deps s b p projectId creditType reportId = .ok progress →
      Batch P creditType progress)
    (h : distribute deps s b p holders reportId false = .ok (s', result)) :
    ∃ projectId creditType progress progress', s.bondProject b = some projectId ∧
      s.bondCreditType b = some creditType ∧
      startBatch deps s b p projectId creditType reportId = .ok progress ∧
      s'.bondCreditType = s.bondCreditType ∧ s'.batchState (b, p) = some progress'.batch ∧
      Batch P creditType progress' ∧
      ∀ projectId creditType, startBatch deps s' b p projectId creditType reportId =
        .ok progress' := by
  rw [distribute_eq] at h
  simp only [bind_eq_ok, ensure_eq_ok, orError_eq_ok] at h
  obtain ⟨_, -, projectId, hproject, creditType, htype, progress, hprogress, l, hfold, h⟩ := h
  have hB := hstart projectId creditType progress hproject htype hprogress
  have hF := Figures.of_fold hP hB (Figures.start hB) hfold
  unfold closeBatch at h
  rw [bind_eq_ok] at h
  obtain ⟨batch, hacc, h⟩ := h
  cases h
  -- resumed or opened, the batch names the report of the call
  have hnamed : (progress.advance batch l).batch.reportId = reportId := by
    show batch.reportId = reportId
    rw [accumulate_ok hacc]
    obtain ⟨-, hreport, -⟩ | ⟨-, -, report, hO⟩ := startBatch_ok hprogress
    · exact hreport
    · exact hO.draws.1
  refine ⟨projectId, creditType, progress, progress.advance batch l, hproject, htype, hprogress,
    (sameBooks_of_fold hfold).periods.2.2.2, Function.update_self _ _ _, hB.advance hF hacc, ?_⟩
  intro projectId' creditType'
  rw [← hnamed]
  exact startBatch_saveProgress deps l.storage projectId' (progress.advance batch l)

/-- **Cutting a list of holders in two.** One call over both parts is the call over the first part,
not final, followed by the call over the second part. -/
theorem distribute_append {deps : Deps} {s : State} {reportId : ReportId}
    (hP : ∀ creditType, P creditType)
    (hstart : ∀ projectId creditType progress, s.bondProject b = some projectId →
      s.bondCreditType b = some creditType →
      startBatch deps s b p projectId creditType reportId = .ok progress →
      Batch P creditType progress)
    (first second : List (Address × ℤ)) (isFinalBatch : Bool) :
    distribute deps s b p (first ++ second) reportId isFinalBatch =
      distribute deps s b p first reportId false >>= fun x =>
        distribute deps x.1 b p second reportId isFinalBatch := by
  apply Lockstep.eq
  rw [distribute_eq, distribute_eq]
  simp only [bind_assoc]
  refine Lockstep.bind_same fun _ hopen => ?_
  refine Lockstep.bind_same fun projectId hproject => ?_
  refine Lockstep.bind_same fun creditType htype => ?_
  refine Lockstep.bind_same fun progress hprogress => ?_
  rw [ensure_eq_ok] at hopen
  rw [orError_eq_ok] at hproject htype
  have hB := hstart projectId creditType progress hproject htype hprogress
  have hreport : progress.batch.reportId = reportId := by
    obtain ⟨-, hreport, -⟩ | ⟨-, -, report, hO⟩ := startBatch_ok hprogress
    · exact hreport
    · exact hO.draws.1
  rw [List.foldlM_append, bind_assoc]
  refine Lockstep.bind_same fun l₁ hl₁ => ?_
  -- the first call ends and the second one resumes
  have hF₁ := Figures.of_fold (hP .basket) hB (Figures.start hB) hl₁
  obtain ⟨batch₁, hacc⟩ : ∃ batch₁, accumulate progress.batch l₁ = .ok batch₁ :=
    ⟨_, hF₁.accumulate_eq hB (hP _)⟩
  have hB₁ := hB.advance hF₁ hacc
  obtain ⟨hinfos, -, hprojects, htypes⟩ := (sameBooks_of_fold hl₁).periods
  have hopen₁ : ∀ info ∈ l₁.storage.periodInfo (b, p), info.distributed = false := by
    rw [hinfos]
    exact hopen
  have hproject₁ : l₁.storage.bondProject b = some projectId := by
    rw [hprojects]
    exact hproject
  have htype₁ : l₁.storage.bondCreditType b = some creditType := by
    rw [htypes]
    exact htype
  have hresume := distribute_resume deps (progress.advance batch₁ l₁) hopen₁ hproject₁ htype₁ second
    isFinalBatch
  have hreport₁ : (progress.advance batch₁ l₁).batch.reportId = reportId := by
    rw [← hreport]
    show batch₁.reportId = _
    rw [accumulate_ok hacc]
  rw [hreport₁] at hresume
  obtain ⟨result, hclose⟩ := closeBatch_open deps (b := b) (p := p) hacc
  rw [hclose]
  show Lockstep _ _ (distribute deps (saveProgress l₁.storage b p (progress.advance batch₁ l₁)) b p
    second reportId isFinalBatch)
  rw [hresume]
  exact resume_join (hP .basket) hB (hP _) hF₁ hacc second isFinalBatch

end CouponEngine
end NbsBond
