import NbsBond.Framework.Lockstep
import NbsBond.CouponEngine.Periods

/-!
# The slice of a bond

Every table of `CouponEngine` but the nonces is keyed by bond. `Agree Q s t` says that two storages
of one admin agree on the entries of the bonds in `Q`. A distribution on a bond in `Q` reads and
writes entries of that bond alone, so it runs in lockstep in two storages that agree
(`distribute_agree`); a call on a bond outside `Q` leaves the entries of `Q` as they are
(`exec_agree`).
-/

namespace NbsBond
namespace CouponEngine

open Soroban Int128 OracleConsumer

variable {Q : Set BondId} {s s' t : State} {b : BondId} {p : ℕ}

/-- The storages have the same admin and agree on the bonds in `Q`. The nonces are left out: they
belong to callers and not to bonds. -/
structure Agree (Q : Set BondId) (s t : State) : Prop where
  admin : s.admin = t.admin
  periodInfo : ∀ b ∈ Q, ∀ p, s.periodInfo (b, p) = t.periodInfo (b, p)
  periodCount : ∀ b ∈ Q, s.periodCount b = t.periodCount b
  accruedCredits : ∀ b ∈ Q, ∀ a, s.accruedCredits (b, a) = t.accruedCredits (b, a)
  accruedCreditsByType : ∀ b ∈ Q, ∀ a creditType,
    s.accruedCreditsByType (b, a, creditType) = t.accruedCreditsByType (b, a, creditType)
  bondProject : ∀ b ∈ Q, s.bondProject b = t.bondProject b
  bondCreditType : ∀ b ∈ Q, s.bondCreditType b = t.bondCreditType b
  undistributedTotal : ∀ b ∈ Q, s.undistributedTotal b = t.undistributedTotal b
  undistributedByType : ∀ b ∈ Q, ∀ creditType,
    s.undistributedByType (b, creditType) = t.undistributedByType (b, creditType)
  batchState : ∀ b ∈ Q, ∀ p, s.batchState (b, p) = t.batchState (b, p)
  distributionBalance : ∀ b ∈ Q, ∀ p, s.distributionBalance (b, p) = t.distributionBalance (b, p)
  holderDistributed : ∀ b ∈ Q, ∀ p a,
    s.holderDistributed (b, p, a) = t.holderDistributed (b, p, a)

theorem Agree.refl (Q : Set BondId) (s : State) : Agree Q s s where
  admin := rfl
  periodInfo _ _ _ := rfl
  periodCount _ _ := rfl
  accruedCredits _ _ _ := rfl
  accruedCreditsByType _ _ _ _ := rfl
  bondProject _ _ := rfl
  bondCreditType _ _ := rfl
  undistributedTotal _ _ := rfl
  undistributedByType _ _ _ := rfl
  batchState _ _ _ := rfl
  distributionBalance _ _ _ := rfl
  holderDistributed _ _ _ _ := rfl

theorem Agree.trans (h₁ : Agree Q s s') (h₂ : Agree Q s' t) : Agree Q s t where
  admin := h₁.admin.trans h₂.admin
  periodInfo b hb p := (h₁.periodInfo b hb p).trans (h₂.periodInfo b hb p)
  periodCount b hb := (h₁.periodCount b hb).trans (h₂.periodCount b hb)
  accruedCredits b hb a := (h₁.accruedCredits b hb a).trans (h₂.accruedCredits b hb a)
  accruedCreditsByType b hb a c :=
    (h₁.accruedCreditsByType b hb a c).trans (h₂.accruedCreditsByType b hb a c)
  bondProject b hb := (h₁.bondProject b hb).trans (h₂.bondProject b hb)
  bondCreditType b hb := (h₁.bondCreditType b hb).trans (h₂.bondCreditType b hb)
  undistributedTotal b hb := (h₁.undistributedTotal b hb).trans (h₂.undistributedTotal b hb)
  undistributedByType b hb c :=
    (h₁.undistributedByType b hb c).trans (h₂.undistributedByType b hb c)
  batchState b hb p := (h₁.batchState b hb p).trans (h₂.batchState b hb p)
  distributionBalance b hb p :=
    (h₁.distributionBalance b hb p).trans (h₂.distributionBalance b hb p)
  holderDistributed b hb p a :=
    (h₁.holderDistributed b hb p a).trans (h₂.holderDistributed b hb p a)

/-- Storages that agree on all bonds differ in nonces and in the deduct caller at most. The deduct
caller belongs to no bond either. -/
theorem Agree.eq_of_univ (h : Agree Set.univ s t) :
    t = { s with nonce := t.nonce, deductCaller := t.deductCaller } := by
  -- table by table
  have hinfos : t.periodInfo = s.periodInfo := by
    ext1 ⟨b, p⟩
    exact (h.periodInfo b trivial p).symm
  have hcounts : t.periodCount = s.periodCount := by
    ext1 b
    exact (h.periodCount b trivial).symm
  have haccrued : t.accruedCredits = s.accruedCredits := by
    ext1 ⟨b, a⟩
    exact (h.accruedCredits b trivial a).symm
  have hbyType : t.accruedCreditsByType = s.accruedCreditsByType := by
    ext1 ⟨b, a, creditType⟩
    exact (h.accruedCreditsByType b trivial a creditType).symm
  have hprojects : t.bondProject = s.bondProject := by
    ext1 b
    exact (h.bondProject b trivial).symm
  have htypes : t.bondCreditType = s.bondCreditType := by
    ext1 b
    exact (h.bondCreditType b trivial).symm
  have htotals : t.undistributedTotal = s.undistributedTotal := by
    ext1 b
    exact (h.undistributedTotal b trivial).symm
  have hdust : t.undistributedByType = s.undistributedByType := by
    ext1 ⟨b, creditType⟩
    exact (h.undistributedByType b trivial creditType).symm
  have hbatches : t.batchState = s.batchState := by
    ext1 ⟨b, p⟩
    exact (h.batchState b trivial p).symm
  have hbalances : t.distributionBalance = s.distributionBalance := by
    ext1 ⟨b, p⟩
    exact (h.distributionBalance b trivial p).symm
  have hmarks : t.holderDistributed = s.holderDistributed := by
    ext1 ⟨b, p, a⟩
    exact (h.holderDistributed b trivial p a).symm
  rw [← h.admin.symm, ← hinfos, ← hcounts, ← haccrued, ← hbyType, ← hprojects, ← htypes, ← htotals,
    ← hdust, ← hbatches, ← hbalances, ← hmarks]

/-- The same write on both sides keeps agreement. It is used for each table a function writes. -/
theorem update_agree {κ β : Type} [DecidableEq κ] {f g : κ → β} {k : κ} (h : f k = g k) (j : κ)
    (v : β) : Function.update f j v k = Function.update g j v k := by
  by_cases hk : k = j
  · rw [hk, Function.update_self, Function.update_self]
  · rw [Function.update_of_ne hk, Function.update_of_ne hk]
    exact h

/-! ### A distribution in two storages -/

theorem accrueCredits_agree (hb : b ∈ Q) (h : Agree Q s t) (holder : Address)
    (stored : CreditType) (amount : ℤ) :
    Lockstep (Agree Q) (accrueCredits s b holder stored amount)
      (accrueCredits t b holder stored amount) := by
  unfold accrueCredits
  -- both read the account that they write
  rw [h.accruedCreditsByType b hb, h.accruedCredits b hb]
  refine Lockstep.bind_same fun byType _ => ?_
  refine Lockstep.bind_same fun combined _ => ?_
  exact .pure { h with
    accruedCredits := fun b' hb' a => update_agree (h.accruedCredits b' hb' a) _ _
    accruedCreditsByType := fun b' hb' a c =>
      update_agree (h.accruedCreditsByType b' hb' a c) _ _ }

/-- Loop states with storages that agree and the same figures. The figures are the running totals of
the loop, which are not stored. -/
structure AgreeLoop (Q : Set BondId) (l l' : LoopState) : Prop where
  storage : Agree Q l.storage l'.storage
  figures : l' = { l with storage := l'.storage }

theorem creditCarbon_agree {l l' : LoopState} (hb : b ∈ Q) (h : AgreeLoop Q l l')
    (holder : Address) (amount : ℤ) :
    Lockstep (AgreeLoop Q) (creditCarbon b holder amount l) (creditCarbon b holder amount l') := by
  unfold creditCarbon
  split
  -- nothing is credited where there is nothing to credit
  · have hfigures := h.figures
    rw [show l'.carbonHolderCredits = l.carbonHolderCredits by rw [hfigures]]
    refine Lockstep.bind_same fun credits _ => ?_
    refine (accrueCredits_agree hb h.storage holder .carbon amount).bind ?_
    intro s₁ t₁ _ _ h₁
    refine .pure ⟨h₁, ?_⟩
    rw [hfigures]
  · exact .pure h

theorem creditBiodiversity_agree {l l' : LoopState} (hb : b ∈ Q) (h : AgreeLoop Q l l')
    (holder : Address) (amount : ℤ) :
    Lockstep (AgreeLoop Q) (creditBiodiversity b holder amount l)
      (creditBiodiversity b holder amount l') := by
  unfold creditBiodiversity
  split
  · have hfigures := h.figures
    rw [show l'.biodiversityHolderCredits = l.biodiversityHolderCredits by rw [hfigures]]
    refine Lockstep.bind_same fun credits _ => ?_
    refine (accrueCredits_agree hb h.storage holder .biodiversity amount).bind ?_
    intro s₁ t₁ _ _ h₁
    refine .pure ⟨h₁, ?_⟩
    rw [hfigures]
  · exact .pure h

theorem payHolder_agree {l l' : LoopState} (hb : b ∈ Q) (h : AgreeLoop Q l l') (holder : Address)
    (credits carbon biodiversity : ℤ) :
    Lockstep (AgreeLoop Q) (payHolder b holder credits carbon biodiversity l)
      (payHolder b holder credits carbon biodiversity l') := by
  unfold payHolder
  split
  swap
  · exact .pure h
  -- the amounts and the figures are the same, and so is every check on them
  have hfigures := h.figures
  rw [show l'.totalHolderCredits = l.totalHolderCredits by rw [hfigures]]
  refine Lockstep.bind_same fun total _ => ?_
  have htotal : AgreeLoop Q { l with totalHolderCredits := total }
      { l' with totalHolderCredits := total } := ⟨h.storage, by rw [hfigures]⟩
  refine (creditCarbon_agree hb htotal holder carbon).bind ?_
  intro l₁ l₁' _ _ h₁
  refine (creditBiodiversity_agree hb h₁ holder biodiversity).bind ?_
  intro l₂ l₂' _ _ h₂
  have hfigures₂ := h₂.figures
  refine .pure ⟨h₂.storage, ?_⟩
  rw [hfigures₂]

theorem processHolder_agree {l l' : LoopState} (hb : b ∈ Q) (h : AgreeLoop Q l l')
    (creditType : CreditType) (batch : BatchState) (supply : ℤ) (entry : Address × ℤ) :
    Lockstep (AgreeLoop Q) (processHolder b p creditType batch supply l entry)
      (processHolder b p creditType batch supply l' entry) := by
  -- the mark read belongs to the slice of `b`
  have hfigures := h.figures
  unfold processHolder
  rw [h.storage.holderDistributed b hb p entry.1,
    show l'.processedBalance = l.processedBalance by rw [hfigures]]
  split
  · exact .pure h
  split
  swap
  · exact .pure h
  -- the balance, the snapshot and the credits are the same on both sides
  refine Lockstep.bind_same fun processed _ => ?_
  refine Lockstep.bind_same fun _ _ => ?_
  refine Lockstep.bind_same fun x _ => ?_
  have hprocessed : AgreeLoop Q { l with processedBalance := processed }
      { l' with processedBalance := processed } := ⟨h.storage, by rw [hfigures]⟩
  refine (payHolder_agree hb hprocessed entry.1 x.1 x.2.1 x.2.2).bind ?_
  intro l₁ l₁' _ _ h₁
  have hfigures₁ := h₁.figures
  -- the mark that is set belongs to the slice of `b` as well
  refine .pure ⟨{ h₁.storage with holderDistributed := ?_ }, ?_⟩
  · intro b' hb' p' a
    exact update_agree (h₁.storage.holderDistributed b' hb' p' a) _ _
  · rw [hfigures₁]

theorem saveProgress_agree (h : Agree Q s t) (progress : Progress) :
    Agree Q (saveProgress s b p progress) (saveProgress t b p progress) :=
  { h with
    batchState := fun b' hb' p' => update_agree (h.batchState b' hb' p') _ _
    distributionBalance := fun b' hb' p' => update_agree (h.distributionBalance b' hb' p') _ _ }

theorem finalise_agree {deps deps' : Deps} {progress : Progress} (hb : b ∈ Q) (h : Agree Q s t)
    (hreport : deps.getReport progress.batch.reportId = deps'.getReport progress.batch.reportId) :
    Lockstep (Agree Q) (finalise deps s b p progress) (finalise deps' t b p progress) := by
  unfold finalise
  dsimp only
  -- whatever is read is in the slice, so the checks go the same way
  rw [hreport, h.undistributedTotal b hb, h.undistributedByType b hb, h.undistributedByType b hb,
    h.periodCount b hb]
  refine Lockstep.bind_same fun _ _ => ?_
  refine Lockstep.bind_same fun report _ => ?_
  refine Lockstep.bind_same fun undistributed _ => ?_
  refine Lockstep.bind_same fun carbonUndistributed _ => ?_
  refine Lockstep.bind_same fun biodiversityUndistributed _ => ?_
  refine Lockstep.bind_same fun total _ => ?_
  refine Lockstep.bind_same fun carbon _ => ?_
  refine Lockstep.bind_same fun biodiversity _ => ?_
  refine .pure { h with
    periodInfo := fun b' hb' p' => update_agree (h.periodInfo b' hb' p') _ _
    undistributedTotal := fun b' hb' => update_agree (h.undistributedTotal b' hb') _ _
    undistributedByType := fun b' hb' c =>
      update_agree (update_agree (h.undistributedByType b' hb' c) _ _) _ _
    periodCount := fun b' hb' => update_agree (h.periodCount b' hb') _ _
    batchState := fun b' hb' p' => update_agree (h.batchState b' hb' p') _ _
    distributionBalance := fun b' hb' p' => update_agree (h.distributionBalance b' hb' p') _ _ }

theorem startBatch_agree {deps deps' : Deps} {reportId : ReportId} (hb : b ∈ Q) (h : Agree Q s t)
    (hreport : deps.getReport reportId = deps'.getReport reportId)
    (hsupply : s.batchState (b, p) = none → deps.totalSubscribed b = deps'.totalSubscribed b)
    (projectId : Bytes32) (creditType : CreditType) :
    startBatch deps s b p projectId creditType reportId =
      startBatch deps' t b p projectId creditType reportId := by
  unfold startBatch
  -- whether the period is open is in the slice
  rw [← h.batchState b hb p]
  cases hbatch : s.batchState (b, p) with
  | some batch =>
    dsimp only
    unfold resumeBatch
    rw [h.distributionBalance b hb p]
  | none =>
    dsimp only
    unfold openBatch
    -- what is read from outside is the same by assumption
    rw [hreport, hsupply hbatch]

/-- **One call in two storages that agree.** The reports and the supply are parameters here: they
may differ as long as they agree where the call looks at them. -/
theorem distribute_agree {deps deps' : Deps} {reportId : ReportId} (hb : b ∈ Q) (h : Agree Q s t)
    (hreport : deps.getReport reportId = deps'.getReport reportId)
    (hsupply : s.batchState (b, p) = none → deps.totalSubscribed b = deps'.totalSubscribed b)
    (holders : List (Address × ℤ)) (isFinalBatch : Bool) :
    Lockstep (fun x y => Agree Q x.1 y.1 ∧ x.2 = y.2)
      (distribute deps s b p holders reportId isFinalBatch)
      (distribute deps' t b p holders reportId isFinalBatch) := by
  unfold distribute
  rw [h.periodInfo b hb p, h.bondProject b hb, h.bondCreditType b hb]
  refine Lockstep.bind_same fun _ _ => ?_
  refine Lockstep.bind_same fun projectId _ => ?_
  refine Lockstep.bind_same fun creditType _ => ?_
  rw [startBatch_agree hb h hreport hsupply projectId creditType]
  refine Lockstep.bind_same fun progress hstart => ?_
  -- the report that is looked at again at the end is the one that was named
  have hnamed : progress.batch.reportId = reportId := by
    obtain ⟨-, hnamed, -⟩ | ⟨-, -, report, hO⟩ := startBatch_ok hstart
    · exact hnamed
    · exact hO.draws.1
  have hloop : AgreeLoop Q
      ⟨saveProgress s b p progress, progress.processedBalance, 0, 0, 0, 0⟩
      ⟨saveProgress t b p progress, progress.processedBalance, 0, 0, 0, 0⟩ :=
    ⟨saveProgress_agree h progress, rfl⟩
  -- the loops go hand in hand, entry by entry
  refine (Lockstep.foldlM hloop fun l l' entry _ hl =>
    processHolder_agree hb hl creditType progress.batch progress.totalSubscribed entry).bind ?_
  intro l l' _ _ hl
  -- the figures are the same, so the batches accumulate alike
  have hfigures := hl.figures
  have hacc : accumulate progress.batch l' = accumulate progress.batch l := by
    rw [hfigures]
    rfl
  rw [hacc, show l'.processedBalance = l.processedBalance by rw [hfigures]]
  refine Lockstep.bind_same fun batch hbatch => ?_
  have hsaved := saveProgress_agree (b := b) (p := p) hl.storage
    { progress with batch, processedBalance := l.processedBalance }
  dsimp only
  -- the final batch closes the period on both sides
  split
  · refine (finalise_agree hb hsaved ?_).bind ?_
    · show deps.getReport batch.reportId = deps'.getReport batch.reportId
      rw [accumulate_ok hbatch]
      show deps.getReport progress.batch.reportId = deps'.getReport progress.batch.reportId
      rw [hnamed]
      exact hreport
    · intro s₁ t₁ _ _ h₁
      exact .pure ⟨h₁, rfl⟩
  · exact .pure ⟨hsaved, rfl⟩

/-- The admin, the nonces and the deduct caller are the same; a distribution writes none of them.
Together with the slices this is the whole storage. -/
structure SameCallers (s s' : State) : Prop where
  admin : s'.admin = s.admin
  nonces : s'.nonce = s.nonce
  deductCaller : s'.deductCaller = s.deductCaller

theorem SameCallers.trans (h₁ : SameCallers s s') (h₂ : SameCallers s' t) : SameCallers s t :=
  ⟨h₂.admin.trans h₁.admin, h₂.nonces.trans h₁.nonces, h₂.deductCaller.trans h₁.deductCaller⟩

theorem accrueCredits_callers {holder : Address} {stored : CreditType} {amount : ℤ}
    (h : accrueCredits s b holder stored amount = .ok s') : SameCallers s s' := by
  simp only [accrueCredits, bind_eq_ok, pure_eq_ok] at h
  obtain ⟨_, -, _, -, rfl⟩ := h
  exact ⟨rfl, rfl, rfl⟩

theorem creditCarbon_callers {holder : Address} {amount : ℤ} {l l' : LoopState}
    (h : creditCarbon b holder amount l = .ok l') : SameCallers l.storage l'.storage := by
  unfold creditCarbon at h
  split at h
  · simp only [bind_eq_ok, pure_eq_ok] at h
    obtain ⟨_, -, s₁, haccrue, rfl⟩ := h
    exact accrueCredits_callers haccrue
  · cases h
    exact ⟨rfl, rfl, rfl⟩

theorem creditBiodiversity_callers {holder : Address} {amount : ℤ} {l l' : LoopState}
    (h : creditBiodiversity b holder amount l = .ok l') : SameCallers l.storage l'.storage := by
  unfold creditBiodiversity at h
  split at h
  · simp only [bind_eq_ok, pure_eq_ok] at h
    obtain ⟨_, -, s₁, haccrue, rfl⟩ := h
    exact accrueCredits_callers haccrue
  · cases h
    exact ⟨rfl, rfl, rfl⟩

theorem processHolder_callers {creditType : CreditType} {batch : BatchState} {supply : ℤ}
    {entry : Address × ℤ} {l l' : LoopState}
    (h : processHolder b p creditType batch supply l entry = .ok l') :
    SameCallers l.storage l'.storage := by
  unfold processHolder at h
  split at h
  · cases h
    exact ⟨rfl, rfl, rfl⟩
  split at h
  swap
  · cases h
    exact ⟨rfl, rfl, rfl⟩
  simp only [bind_eq_ok, pure_eq_ok] at h
  obtain ⟨processed, -, _, -, x, -, l₁, hpay, rfl⟩ := h
  -- paying a holder is all that is left, apart from the balance and the mark
  suffices hsame : SameCallers l.storage l₁.storage from
    ⟨hsame.admin, hsame.nonces, hsame.deductCaller⟩
  unfold payHolder at hpay
  split at hpay
  · simp only [bind_eq_ok, pure_eq_ok] at hpay
    obtain ⟨total, -, l₂, hcarbon, l₃, hbio, rfl⟩ := hpay
    have hsame₂ := creditCarbon_callers hcarbon
    have hsame₃ := hsame₂.trans (creditBiodiversity_callers hbio)
    exact ⟨hsame₃.admin, hsame₃.nonces, hsame₃.deductCaller⟩
  · cases hpay
    exact ⟨rfl, rfl, rfl⟩

theorem distribute_callers {deps : Deps} {holders : List (Address × ℤ)} {reportId : ReportId}
    {isFinalBatch : Bool} {result : CouponResult}
    (h : distribute deps s b p holders reportId isFinalBatch = .ok (s', result)) :
    SameCallers s s' := by
  simp only [distribute, bind_eq_ok] at h
  obtain ⟨_, -, projectId, -, creditType, -, progress, -, l, hfold, batch, -, h⟩ := h
  -- the loop keeps it, and what comes before and after writes tables of the bond
  have hloop : SameCallers s l.storage := by
    refine foldlM_invariant (P := fun l : LoopState => SameCallers s l.storage) hfold
      ⟨rfl, rfl, rfl⟩ ?_
    intro l₁ entry l₂ _ hsame hstep
    exact hsame.trans (processHolder_callers hstep)
  split at h
  · rw [bind_eq_ok] at h
    obtain ⟨s₁, hfinal, h⟩ := h
    cases h
    simp only [finalise, bind_eq_ok, pure_eq_ok] at hfinal
    obtain ⟨_, -, _, -, _, -, _, -, _, -, _, -, _, -, _, -, rfl⟩ := hfinal
    exact ⟨hloop.admin, hloop.nonces, hloop.deductCaller⟩
  · cases h
    exact ⟨hloop.admin, hloop.nonces, hloop.deductCaller⟩

/-! ### Calls on other bonds -/

/-- A write under another bond's key leaves an entry as it is. -/
theorem update_frame {κ β : Type} [DecidableEq κ] {f : BondId × κ → β} {b' : BondId}
    (hb' : b' ∈ Q) (hb : b ∉ Q) (k : κ) (j : κ) (v : β) :
    f (b', k) = Function.update f (b, j) v (b', k) := by
  rw [Function.update_of_ne]
  rintro ⟨⟩
  exact hb hb'

theorem update_frame_bond {β : Type} {f : BondId → β} {b' : BondId} (hb' : b' ∈ Q) (hb : b ∉ Q)
    (v : β) : f b' = Function.update f b v b' := by
  rw [Function.update_of_ne]
  rintro rfl
  exact hb hb'

theorem accrueCredits_frame {holder : Address} {stored : CreditType} {amount : ℤ} (hb : b ∉ Q)
    (h : accrueCredits s b holder stored amount = .ok s') : Agree Q s s' := by
  simp only [accrueCredits, bind_eq_ok, pure_eq_ok] at h
  obtain ⟨_, -, _, -, rfl⟩ := h
  exact { Agree.refl Q s with
    accruedCredits := fun b' hb' a => update_frame hb' hb a _ _
    accruedCreditsByType := fun b' hb' a c => update_frame hb' hb (a, c) _ _ }

theorem accruePositive_frame {holder : Address} {stored : CreditType} {amount : ℤ} (hb : b ∉ Q)
    (h : accruePositive s b holder stored amount = .ok s') : Agree Q s s' := by
  -- the accounts are written only where there is something to accrue
  unfold accruePositive at h
  split at h
  · exact accrueCredits_frame hb h
  · cases h
    exact Agree.refl Q s

theorem clearAccrued_frame (hb : b ∉ Q) (holder : Address) (stored : CreditType) :
    Agree Q s (clearAccrued s b holder stored) :=
  { Agree.refl Q s with
    accruedCreditsByType := fun _ hb' a c => update_frame hb' hb (a, c) _ _ }

theorem claimByType_frame {caller : Address} {accrued : ℤ} {registered : Option CreditType}
    {receipt : ClaimReceipt} (hb : b ∉ Q)
    (h : claimByType s b caller accrued registered = .ok (s', receipt)) : Agree Q s s' := by
  unfold claimByType at h
  -- a claim clears the accounts of the types that the bond pays
  split at h
  · simp only [bind_eq_ok, pure_eq_ok, Prod.mk.injEq] at h
    obtain ⟨_, -, rfl, -⟩ := h
    exact clearAccrued_frame hb caller .carbon
  · simp only [bind_eq_ok, pure_eq_ok, Prod.mk.injEq] at h
    obtain ⟨_, -, rfl, -⟩ := h
    exact clearAccrued_frame hb caller .carbon
  · simp only [bind_eq_ok, pure_eq_ok, Prod.mk.injEq] at h
    obtain ⟨_, -, rfl, -⟩ := h
    exact clearAccrued_frame hb caller .biodiversity
  · simp only [bind_eq_ok, pure_eq_ok, Prod.mk.injEq] at h
    obtain ⟨_, -, _, -, rfl, -⟩ := h
    exact (clearAccrued_frame hb caller .carbon).trans (clearAccrued_frame hb caller .biodiversity)
  · cases h

theorem deductCredits_frame {signers : List Address} {holder : Address} {amount left : ℤ}
    {creditType : CreditType} (hb : b ∉ Q)
    (h : deductCredits s signers b holder amount creditType = .ok (s', left)) : Agree Q s s' := by
  simp only [deductCredits, bind_eq_ok, pure_eq_ok, Prod.mk.injEq] at h
  obtain ⟨_, -, _, -, _, -, _, -, _, -, rfl, -⟩ := h
  exact { Agree.refl Q s with
    accruedCredits := fun _ hb' a => update_frame hb' hb a _ _
    accruedCreditsByType := fun _ hb' a c => update_frame hb' hb (a, c) _ _ }

/-- With the books kept, what is left to compare are the accounts and the marks. `SameBooks` is what
the loop keeps anyway. -/
theorem SameBooks.agree (h : SameBooks s s')
    (haccrued : ∀ b ∈ Q, ∀ a, s.accruedCredits (b, a) = s'.accruedCredits (b, a))
    (hbyType : ∀ b ∈ Q, ∀ a creditType,
      s.accruedCreditsByType (b, a, creditType) = s'.accruedCreditsByType (b, a, creditType))
    (hmarks : ∀ b ∈ Q, ∀ p a, s.holderDistributed (b, p, a) = s'.holderDistributed (b, p, a)) :
    Agree Q s s' := by
  unfold SameBooks at h
  rw [h]
  exact { Agree.refl Q s with
    accruedCredits := haccrued
    accruedCreditsByType := hbyType
    holderDistributed := hmarks }

/-- A paid holder's account is an account of the bond. -/
theorem Paid.frame {creditType : CreditType} {batch : BatchState} {supply : ℤ}
    {entry : Address × ℤ} {l l' : LoopState} (hb : b ∉ Q)
    (h : Paid b p creditType batch supply entry l l') : Agree Q l.storage l'.storage := by
  refine SameBooks.agree h.credited.books ?_ ?_ ?_
  · intro b' hb' a
    rw [h.credited.accrued]
    exact update_frame hb' hb a _ _
  · intro b' hb' a c
    -- another bond's purses are as they were
    have hne : b' ≠ b := by
      rintro rfl
      exact hb hb'
    have hpurse := congrFun (h.credited.others b' hne) a
    cases c with
    | carbon => exact (congrArg Prod.fst hpurse).symm
    | biodiversity => exact (congrArg Prod.snd hpurse).symm
    | basket => exact (h.credited.unstored b' a .basket (by simp [IsStored])).symm
    | blueCarbon => exact (h.credited.unstored b' a .blueCarbon (by simp [IsStored])).symm
  · intro b' hb' p' a
    rw [h.marked]
    exact update_frame hb' hb (p', a) _ _

theorem saveProgress_frame (hb : b ∉ Q) (progress : Progress) :
    Agree Q s (saveProgress s b p progress) :=
  { Agree.refl Q s with
    batchState := fun _ hb' p' => update_frame hb' hb p' _ _
    distributionBalance := fun _ hb' p' => update_frame hb' hb p' _ _ }

theorem finalise_frame {deps : Deps} {progress : Progress} (hb : b ∉ Q)
    (h : finalise deps s b p progress = .ok s') : Agree Q s s' := by
  simp only [finalise, bind_eq_ok, pure_eq_ok] at h
  obtain ⟨_, -, _, -, _, -, _, -, _, -, _, -, _, -, _, -, rfl⟩ := h
  exact { Agree.refl Q s with
    periodInfo := fun _ hb' p' => update_frame hb' hb p' _ _
    periodCount := fun _ hb' => update_frame_bond hb' hb _
    undistributedTotal := fun _ hb' => update_frame_bond hb' hb _
    undistributedByType := fun _ hb' c =>
      (update_frame hb' hb c _ _).trans (update_frame hb' hb c _ _)
    batchState := fun _ hb' p' => update_frame hb' hb p' _ _
    distributionBalance := fun _ hb' p' => update_frame hb' hb p' _ _ }

theorem distribute_frame {deps : Deps} {holders : List (Address × ℤ)} {reportId : ReportId}
    {isFinalBatch : Bool} {result : CouponResult} (hb : b ∉ Q)
    (h : distribute deps s b p holders reportId isFinalBatch = .ok (s', result)) :
    Agree Q s s' := by
  simp only [distribute, bind_eq_ok] at h
  obtain ⟨_, -, projectId, -, creditType, -, progress, -, l, hfold, batch, -, h⟩ := h
  have hloop : Agree Q s l.storage := by
    refine foldlM_invariant (P := fun l => Agree Q s l.storage) hfold
      -- a holder that is paid is paid on `b`
      (saveProgress_frame hb progress) ?_
    intro l₁ entry l₂ _ hagree hstep
    obtain ⟨rfl, -⟩ | hpaid := processHolder_ok hstep
    · exact hagree
    · exact hagree.trans (hpaid.frame hb)
  have hsaved := hloop.trans (saveProgress_frame (b := b) (p := p) hb
    { progress with batch, processedBalance := l.processedBalance })
  split at h
  · rw [bind_eq_ok] at h
    obtain ⟨s₁, hfinal, h⟩ := h
    cases h
    exact hsaved.trans (finalise_frame hb hfinal)
  · cases h
    exact hsaved

/-- **Calls on bonds outside `Q`** leave the slices of `Q` alone. One case per entrypoint; those
that name no bond write no slice at all. -/
theorem exec_agree {deps : Deps} {op : Op} {r : Ret} (hop : ∀ b, op.bond? = some b → b ∉ Q)
    (h : exec deps s op = .ok (s', r)) : Agree Q s s' := by
  cases op with
  | registerBond caller b projectId nonce =>
    have hb := hop b rfl
    simp only [exec, registerBond, bind_eq_ok, pure_eq_ok, Prod.mk.injEq] at h
    obtain ⟨_, ⟨_, -, _, -, _, -, _, -, _, -, _, -, rfl⟩, rfl, -⟩ := h
    exact { Agree.refl Q s with
      bondProject := fun _ hb' => update_frame_bond hb' hb _
      bondCreditType := fun _ hb' => update_frame_bond hb' hb _ }
  | distributeCoupon caller b p holders reportId nonce isFinalBatch =>
    simp only [exec, distributeCoupon, bind_eq_ok, pure_eq_ok, Prod.mk.injEq] at h
    -- the nonce is spent first, and belongs to no slice
    obtain ⟨⟨s₁, result⟩, ⟨nonces, -, _, -, h⟩, rfl, -⟩ := h
    have hagree := distribute_frame (hop b rfl) h
    exact { hagree with }
  | claimCredits caller b nonce =>
    have hb := hop b rfl
    simp only [exec, claimCredits, bind_eq_ok, pure_eq_ok, Prod.mk.injEq] at h
    obtain ⟨⟨s₁, receipt⟩, ⟨nonces, -, h⟩, rfl, -⟩ := h
    -- a claim of nothing only spends the nonce
    split at h
    · simp only [bind_eq_ok, pure_eq_ok, Prod.mk.injEq] at h
      obtain ⟨⟨s₂, receipt₂⟩, hclaim, rfl, -⟩ := h
      have hagree := claimByType_frame (Q := Q) hb hclaim
      exact { hagree with
        accruedCredits := fun b' hb' a =>
          (hagree.accruedCredits b' hb' a).trans (update_frame hb' hb a _ _) }
    · cases h
      exact { Agree.refl Q s with }
  | sweepUndistributed caller b destination nonce =>
    have hb := hop b rfl
    simp only [exec, sweepUndistributed, bind_eq_ok, pure_eq_ok, Prod.mk.injEq] at h
    obtain ⟨⟨s₁, receipt⟩, ⟨nonces, -, _, -, _, -, _, -, h⟩, rfl, -⟩ := h
    split at h
    · cases h
      exact { Agree.refl Q s with }
    -- a sweep moves the remainder of the bond into accounts of the same bond
    · simp only [bind_eq_ok, pure_eq_ok, Prod.mk.injEq] at h
      obtain ⟨s₂, hcarbon, s₃, hbio, rfl, -⟩ := h
      refine Agree.trans ?_ ((accruePositive_frame hb hcarbon).trans (accruePositive_frame hb hbio))
      exact { Agree.refl Q s with
        undistributedTotal := fun _ hb' => update_frame_bond hb' hb _
        undistributedByType := fun _ hb' c =>
          (update_frame hb' hb c _ _).trans (update_frame hb' hb c _ _) }
  | registerDeductCaller caller deductCaller nonce =>
    simp only [exec, registerDeductCaller, bind_eq_ok, pure_eq_ok, Prod.mk.injEq] at h
    obtain ⟨_, ⟨_, -, _, -, rfl⟩, rfl, -⟩ := h
    exact { Agree.refl Q s with }
  | deductCredits signers b holder amount creditType =>
    simp only [exec, bind_eq_ok, pure_eq_ok, Prod.mk.injEq] at h
    obtain ⟨⟨s₁, left⟩, h, rfl, -⟩ := h
    exact deductCredits_frame (hop b rfl) h

end CouponEngine
end NbsBond
