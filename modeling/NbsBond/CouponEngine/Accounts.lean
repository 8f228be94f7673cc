import NbsBond.Framework.FinSum
import NbsBond.CouponEngine.Model

/-!
# Credit accounts

The contract keeps every figure twice: combined, and split into a Carbon and a Biodiversity bucket.
The split is the abstract account: a pair of integers, carbon first, added componentwise. A holder's
account on a bond is its `purse`, what a bond has not distributed is its `dust`, and the combined
figures ought to be the totals of these pairs. `Accounts` says that they are.

Every operation on a holder's account adds some pair to it (`Credited`): an accrual adds, a claim or
a deduction adds the negative. The operations that only move credits between accounts keep
`Accounts`; `distribute_coupon` is the subject of `CouponEngine.Distribution`.
-/

namespace NbsBond
namespace CouponEngine

open Soroban Int128

/-- An amount of carbon credits and an amount of biodiversity credits. -/
abbrev Credits : Type := ℤ × ℤ

/-- The combined amount. -/
def Credits.total (x : Credits) : ℤ := x.1 + x.2

@[simp] theorem Credits.total_add (x y : Credits) :
    Credits.total (x + y) = Credits.total x + Credits.total y := by
  simp only [Credits.total, Prod.fst_add, Prod.snd_add]
  ring

@[simp] theorem Credits.total_zero : Credits.total 0 = 0 := rfl

/-- An amount of one storage type. -/
def bucket (creditType : CreditType) (amount : ℤ) : Credits :=
  match creditType with
  | .carbon => (amount, 0)
  | .biodiversity => (0, amount)
  | .basket | .blueCarbon => 0

/-- The two types credits are stored under. -/
def IsStored (creditType : CreditType) : Prop :=
  creditType = .carbon ∨ creditType = .biodiversity

theorem total_bucket {creditType : CreditType} (h : IsStored creditType) (amount : ℤ) :
    (bucket creditType amount).total = amount := by
  rcases h with rfl | rfl <;> simp [bucket, Credits.total]

/-- What a holder has accrued on a bond. -/
def purse (s : State) (b : BondId) (holder : Address) : Credits :=
  (s.accruedCreditsByType (b, holder, .carbon), s.accruedCreditsByType (b, holder, .biodiversity))

/-- What a bond has not distributed. -/
def dust (s : State) (b : BondId) : Credits :=
  (s.undistributedByType (b, .carbon), s.undistributedByType (b, .biodiversity))

/-- The pair `x` fits a bond registered with the given type. -/
def Suits (registered : Option CreditType) (x : Credits) : Prop :=
  match registered with
  | none => x = 0
  | some .carbon | some .blueCarbon => x.2 = 0
  | some .biodiversity => x.1 = 0
  | some .basket => True

theorem Suits.zero (registered : Option CreditType) : Suits registered 0 := by
  unfold Suits
  split <;> trivial

theorem Suits.add {registered : Option CreditType} {x y : Credits} (hx : Suits registered x)
    (hy : Suits registered y) : Suits registered (x + y) := by
  unfold Suits at *
  split
  · simp_all
  all_goals simp_all

theorem Suits.neg {registered : Option CreditType} {x : Credits} (hx : Suits registered x) :
    Suits registered (-x) := by
  unfold Suits at *
  split
  · simp_all
  all_goals simp_all

/-! ### The invariant -/

/-- The combined figures are the totals of the split ones. The basket has no bucket of its own: its
credits are carbon credits and biodiversity credits, and so are the combined figures. -/
structure Accounts (s : State) : Prop where
  combined : ∀ b holder, s.accruedCredits (b, holder) = (purse s b holder).total
  dusted : ∀ b, s.undistributedTotal b = (dust s b).total
  /-- Nothing is stored under Basket or BlueCarbon. -/
  clean : ∀ b holder creditType, ¬ IsStored creditType →
    s.accruedCreditsByType (b, holder, creditType) = 0
  dustClean : ∀ b creditType, ¬ IsStored creditType →
    s.undistributedByType (b, creditType) = 0
  nonneg : ∀ b holder, 0 ≤ purse s b holder
  dustNonneg : ∀ b, 0 ≤ dust s b
  /-- A bucket the bond's type does not have is empty. -/
  suits : ∀ b holder, Suits (s.bondCreditType b) (purse s b holder)
  dustSuits : ∀ b, Suits (s.bondCreditType b) (dust s b)
  /-- Finitely many holders have accrued something. -/
  finite : ∀ b, (purse s b).support.Finite

theorem Accounts.initial (admin : Address) : Accounts (construct admin) where
  combined _ _ := rfl
  dusted _ := rfl
  clean _ _ _ _ := rfl
  dustClean _ _ _ := rfl
  nonneg _ _ := le_refl _
  dustNonneg _ := le_refl _
  suits _ _ := rfl
  dustSuits _ := rfl
  finite b := by
    have h : purse (construct admin) b = 0 := rfl
    rw [h, Function.support_zero]
    exact Set.finite_empty

/-- Everything but nonces, accounts and the marks of processed holders. -/
def SameBooks (s s' : State) : Prop :=
  s' = { s with
    nonce := s'.nonce
    accruedCredits := s'.accruedCredits
    accruedCreditsByType := s'.accruedCreditsByType
    holderDistributed := s'.holderDistributed }

/-- From `s` to `s'`, `x` was added to one account and nothing else happened to the accounts, the
undistributed figures, the periods or the registered bonds. -/
structure Credited (b : BondId) (holder : Address) (x : Credits) (s s' : State) : Prop where
  books : SameBooks s s'
  accrued : s'.accruedCredits = Function.update s.accruedCredits (b, holder)
    (s.accruedCredits (b, holder) + x.total)
  self : purse s' b = Function.update (purse s b) holder (purse s b holder + x)
  others : ∀ b', b' ≠ b → purse s' b' = purse s b'
  unstored : ∀ b' holder' creditType, ¬ IsStored creditType →
    s'.accruedCreditsByType (b', holder', creditType) =
      s.accruedCreditsByType (b', holder', creditType)

theorem SameBooks.refl (s : State) : SameBooks s s := rfl

theorem SameBooks.trans {s s₁ s₂ : State} (h₁ : SameBooks s s₁) (h₂ : SameBooks s₁ s₂) :
    SameBooks s s₂ := by
  unfold SameBooks at *
  rw [h₂, h₁]

/-- The tables of periods and of registered bonds are among what is kept. -/
theorem SameBooks.periods {s s' : State} (h : SameBooks s s') :
    s'.periodInfo = s.periodInfo ∧ s'.batchState = s.batchState ∧
      s'.bondProject = s.bondProject ∧ s'.bondCreditType = s.bondCreditType := by
  unfold SameBooks at h
  rw [h]
  exact ⟨rfl, rfl, rfl, rfl⟩

/-- Adding nothing. -/
theorem Credited.refl (b : BondId) (holder : Address) (s : State) : Credited b holder 0 s s where
  books := rfl
  accrued := by rw [Credits.total_zero, add_zero, Function.update_eq_self]
  self := by rw [add_zero, Function.update_eq_self]
  others _ _ := rfl
  unstored _ _ _ _ := rfl

/-- Two additions to one account. -/
theorem Credited.trans {b : BondId} {holder : Address} {x y : Credits} {s s₁ s₂ : State}
    (h₁ : Credited b holder x s s₁) (h₂ : Credited b holder y s₁ s₂) :
    Credited b holder (x + y) s s₂ where
  books := h₁.books.trans h₂.books
  accrued := by
    rw [h₂.accrued, h₁.accrued, Function.update_idem, Function.update_self, Credits.total_add,
      add_assoc]
  self := by
    rw [h₂.self, h₁.self, Function.update_idem, Function.update_self, add_assoc]
  others b' hb' := (h₂.others b' hb').trans (h₁.others b' hb')
  unstored b' holder' creditType h :=
    (h₂.unstored b' holder' creditType h).trans (h₁.unstored b' holder' creditType h)

/-- Nonces and marks are not part of the accounts. -/
theorem Credited.congr {b : BondId} {holder : Address} {x : Credits} {s s' t t' : State}
    (h : Credited b holder x s s')
    (ht : t = { s with nonce := t.nonce, holderDistributed := t.holderDistributed })
    (ht' : t' = { s' with nonce := t'.nonce, holderDistributed := t'.holderDistributed }) :
    Credited b holder x t t' where
  books := by
    have hbooks := h.books
    unfold SameBooks at *
    rw [ht', hbooks, ht]
  accrued := by rw [ht, ht']; exact h.accrued
  self := by rw [ht, ht']; exact h.self
  others := by rw [ht, ht']; exact h.others
  unstored := by rw [ht, ht']; exact h.unstored

/-- The contract's pair of writes: one bucket and the combined figure move by `amount`. -/
theorem Credited.write {b : BondId} {holder : Address} {creditType : CreditType}
    (hstored : IsStored creditType) {amount : ℤ} {s s' : State}
    (hs' : s' = { s with
      accruedCreditsByType := Function.update s.accruedCreditsByType (b, holder, creditType)
        (s.accruedCreditsByType (b, holder, creditType) + amount)
      accruedCredits := Function.update s.accruedCredits (b, holder)
        (s.accruedCredits (b, holder) + amount) }) :
    Credited b holder (bucket creditType amount) s s' := by
  subst hs'
  refine ⟨rfl, ?_, ?_, ?_, ?_⟩
  · rw [total_bucket hstored]
  · funext a
    by_cases ha : a = holder
    · subst ha
      rw [Function.update_self]
      rcases hstored with rfl | rfl <;> simp [purse, bucket]
    · rw [Function.update_of_ne ha]
      simp only [purse]
      rw [Function.update_of_ne (by simp [ha]), Function.update_of_ne (by simp [ha])]
  · intro b' hb'
    funext a
    simp only [purse]
    rw [Function.update_of_ne (by simp [hb']), Function.update_of_ne (by simp [hb'])]
  · intro b' a creditType' hne
    dsimp only
    rw [Function.update_of_ne]
    rintro ⟨⟩
    exact hne hstored

/-- `accrue_credits`. -/
theorem accrueCredits_ok {s s' : State} {b : BondId} {holder : Address} {creditType : CreditType}
    {amount : ℤ} (hstored : IsStored creditType)
    (h : accrueCredits s b holder creditType amount = .ok s') :
    Credited b holder (bucket creditType amount) s s' := by
  simp only [accrueCredits, bind_eq_ok, orError_eq_ok, checkedAdd_eq_some, pure_eq_ok] at h
  obtain ⟨_, ⟨-, rfl⟩, _, ⟨-, rfl⟩, rfl⟩ := h
  exact .write hstored rfl

/-- **Accounts after an addition.** It is the one rule for payments, claims, sweeps and deductions:
what differs is the amount and its sign. -/
theorem Accounts.credited {s s' : State} {b : BondId} {holder : Address} {x : Credits}
    (hA : Accounts s) (h : Credited b holder x s s') (hnonneg : 0 ≤ purse s b holder + x)
    (hsuits : Suits (s.bondCreditType b) x) : Accounts s' := by
  have hbooks := h.books
  unfold SameBooks at hbooks
  have htype : s'.bondCreditType = s.bondCreditType := by rw [hbooks]
  have hdust : dust s' = dust s := by unfold dust; rw [hbooks]
  -- the account that moved, and the others
  have hcases : ∀ b' a, (b' = b ∧ a = holder ∧ purse s' b' a = purse s b holder + x) ∨
      ((b', a) ≠ (b, holder) ∧ purse s' b' a = purse s b' a) := by
    intro b' a
    by_cases hb : b' = b
    · subst hb
      rw [h.self]
      by_cases ha : a = holder
      · subst ha
        exact Or.inl ⟨rfl, rfl, Function.update_self _ _ _⟩
      · exact Or.inr ⟨by simp [ha], Function.update_of_ne ha _ _⟩
    · exact Or.inr ⟨by simp [hb], congrFun (h.others b' hb) a⟩
  refine ⟨?_, ?_, ?_, ?_, ?_, ?_, ?_, ?_, ?_⟩
  · intro b' a
    rw [h.accrued]
    obtain ⟨rfl, rfl, hp⟩ | ⟨hne, hp⟩ := hcases b' a
    · rw [Function.update_self, hp, Credits.total_add, hA.combined]
    · rw [Function.update_of_ne hne, hp]
      exact hA.combined b' a
  · intro b'
    rw [hdust, hbooks]
    exact hA.dusted b'
  · intro b' a creditType hne
    rw [h.unstored b' a creditType hne]
    exact hA.clean b' a creditType hne
  · intro b' creditType hne
    rw [hbooks]
    exact hA.dustClean b' creditType hne
  · intro b' a
    obtain ⟨rfl, rfl, hp⟩ | ⟨-, hp⟩ := hcases b' a
    · rw [hp]
      exact hnonneg
    · rw [hp]
      exact hA.nonneg b' a
  · rw [hdust]
    exact hA.dustNonneg
  · intro b' a
    rw [htype]
    obtain ⟨rfl, rfl, hp⟩ | ⟨-, hp⟩ := hcases b' a
    · rw [hp]
      exact (hA.suits b' a).add hsuits
    · rw [hp]
      exact hA.suits b' a
  · intro b'
    rw [htype, hdust]
    exact hA.dustSuits b'
  · intro b'
    by_cases hb : b' = b
    · subst hb
      rw [h.self]
      exact FinSum.support_update (hA.finite b') holder _
    · rw [h.others b' hb]
      exact hA.finite b'

/-- What an addition does to the sum over all holders of a bond. -/
theorem Credited.sum {s s' : State} {b : BondId} {holder : Address} {x : Credits}
    (hA : Accounts s) (h : Credited b holder x s s') (b' : BondId) :
    ∑ᶠ a, purse s' b' a = ∑ᶠ a, purse s b' a + if b' = b then x else 0 := by
  by_cases hb : b' = b
  · subst hb
    rw [h.self, FinSum.finsum_update (hA.finite b'), if_pos rfl]
    abel
  · rw [h.others b' hb, if_neg hb, add_zero]

/-- Accounts only look at the figures and at the registered types. -/
theorem Accounts.congr {s s' : State} (hA : Accounts s)
    (haccrued : s'.accruedCredits = s.accruedCredits)
    (hbyType : s'.accruedCreditsByType = s.accruedCreditsByType)
    (hundistributed : s'.undistributedTotal = s.undistributedTotal)
    (hundistributedByType : s'.undistributedByType = s.undistributedByType)
    (hregistered : s'.bondCreditType = s.bondCreditType) : Accounts s' := by
  have hpurse : purse s' = purse s := by unfold purse; rw [hbyType]
  have hdust : dust s' = dust s := by unfold dust; rw [hundistributedByType]
  refine ⟨?_, ?_, ?_, ?_, ?_, ?_, ?_, ?_, ?_⟩
  · rw [haccrued, hpurse]
    exact hA.combined
  · rw [hundistributed, hdust]
    exact hA.dusted
  · rw [hbyType]
    exact hA.clean
  · rw [hundistributedByType]
    exact hA.dustClean
  · rw [hpurse]
    exact hA.nonneg
  · rw [hdust]
    exact hA.dustNonneg
  · rw [hregistered, hpurse]
    exact hA.suits
  · rw [hregistered, hdust]
    exact hA.dustSuits
  · rw [hpurse]
    exact hA.finite

/-! ### Registration -/

/-- Registering a bond, or registering it again with the same type, keeps the accounts: before the
first registration they are empty. -/
theorem Accounts.register {s s' : State} {b : BondId} {creditType : CreditType} (hA : Accounts s)
    (htype : s.bondCreditType b = none ∨ s.bondCreditType b = some creditType)
    (haccrued : s'.accruedCredits = s.accruedCredits)
    (hbyType : s'.accruedCreditsByType = s.accruedCreditsByType)
    (hundistributed : s'.undistributedTotal = s.undistributedTotal)
    (hundistributedByType : s'.undistributedByType = s.undistributedByType)
    (hregistered : s'.bondCreditType =
      Function.update s.bondCreditType b (some creditType)) : Accounts s' := by
  have hA' : Accounts { s' with bondCreditType := s.bondCreditType } :=
    hA.congr haccrued hbyType hundistributed hundistributedByType rfl
  -- what suited the old registration suits the new one
  have hsuits : ∀ b' x, Suits (s.bondCreditType b') x → Suits (s'.bondCreditType b') x := by
    intro b' x hx
    rw [hregistered]
    by_cases hb : b' = b
    · subst hb
      rw [Function.update_self]
      rcases htype with hnone | hsome
      · rw [hnone] at hx
        change x = 0 at hx
        rw [hx]
        exact Suits.zero _
      · rwa [hsome] at hx
    · rwa [Function.update_of_ne hb]
  exact ⟨hA'.combined, hA'.dusted, hA'.clean, hA'.dustClean, hA'.nonneg, hA'.dustNonneg,
    fun b' a => hsuits b' _ (hA'.suits b' a), fun b' => hsuits b' _ (hA'.dustSuits b'), hA'.finite⟩

/-! ### Claiming -/

/-- The pair a claim pays out. -/
def ClaimReceipt.credits (receipt : ClaimReceipt) : Credits := (receipt.carbonAmt, receipt.bioAmt)

/-- What a claim takes off the account: all of each bucket the bond's type has. -/
theorem claimByType_ok {s s' : State} {b : BondId} {caller : Address} {receipt : ClaimReceipt}
    (nonces : Address → ℕ) (h : claimByType s b caller (s.accruedCredits (b, caller))
      (s.bondCreditType b) = .ok (s', receipt)) :
    Credited b caller (-receipt.credits) s { s' with
      nonce := nonces
      accruedCredits := Function.update s'.accruedCredits (b, caller) 0 } ∧
    receipt.accrued = s.accruedCredits (b, caller) ∧
    s.accruedCredits (b, caller) = receipt.credits.total ∧
    (receipt.carbonAmt = (purse s b caller).1 ∨ receipt.carbonAmt = 0) ∧
    (receipt.bioAmt = (purse s b caller).2 ∨ receipt.bioAmt = 0) ∧
    Suits (s.bondCreditType b) receipt.credits := by
  -- one bucket holds everything that was accrued
  have hsingle : ∀ {creditType : CreditType}, IsStored creditType →
      s.accruedCreditsByType (b, caller, creditType) = s.accruedCredits (b, caller) →
      Credited b caller (bucket creditType (-s.accruedCredits (b, caller))) s
        { clearAccrued s b caller creditType with
          nonce := nonces
          accruedCredits := Function.update (clearAccrued s b caller creditType).accruedCredits
            (b, caller) 0 } := by
    intro creditType hstored hall
    refine (Credited.write hstored rfl).congr rfl ?_
    simp [clearAccrued, hall]
  cases htype : s.bondCreditType b with
  | none =>
    rw [htype] at h
    cases h
  | some creditType =>
    rw [htype] at h
    cases creditType with
    | carbon =>
      simp only [claimByType, bind_eq_ok, ensure_eq_ok, pure_eq_ok, Prod.mk.injEq] at h
      obtain ⟨_, hall, rfl, rfl⟩ := h
      refine ⟨?_, rfl, ?_, Or.inl rfl, Or.inr rfl, rfl⟩
      · have hcredited := hsingle (Or.inl rfl) hall
        rwa [← hall] at hcredited
      · simp [Credits.total, ClaimReceipt.credits, hall]
    | blueCarbon =>
      simp only [claimByType, bind_eq_ok, ensure_eq_ok, pure_eq_ok, Prod.mk.injEq] at h
      obtain ⟨_, hall, rfl, rfl⟩ := h
      refine ⟨?_, rfl, ?_, Or.inl rfl, Or.inr rfl, rfl⟩
      · have hcredited := hsingle (Or.inl rfl) hall
        rwa [← hall] at hcredited
      · simp [Credits.total, ClaimReceipt.credits, hall]
    | biodiversity =>
      simp only [claimByType, bind_eq_ok, ensure_eq_ok, pure_eq_ok, Prod.mk.injEq] at h
      obtain ⟨_, hall, rfl, rfl⟩ := h
      refine ⟨?_, rfl, ?_, Or.inr rfl, Or.inl rfl, rfl⟩
      · have hcredited := hsingle (Or.inr rfl) hall
        rwa [← hall] at hcredited
      · simp [Credits.total, ClaimReceipt.credits, hall]
    | basket =>
      simp only [claimByType, bind_eq_ok, orError_eq_ok, checkedAdd_eq_some, ensure_eq_ok,
        pure_eq_ok, Prod.mk.injEq] at h
      obtain ⟨_, ⟨-, rfl⟩, _, hsum, rfl, rfl⟩ := h
      refine ⟨?_, rfl, hsum.symm, Or.inl rfl, Or.inl rfl, trivial⟩
      -- clear the carbon bucket, then the biodiversity bucket
      let s₁ : State := { s with
        accruedCreditsByType := Function.update s.accruedCreditsByType (b, caller, .carbon)
          (s.accruedCreditsByType (b, caller, .carbon) +
            -s.accruedCreditsByType (b, caller, .carbon))
        accruedCredits := Function.update s.accruedCredits (b, caller)
          (s.accruedCredits (b, caller) + -s.accruedCreditsByType (b, caller, .carbon)) }
      have h₁ : Credited b caller
          (bucket .carbon (-s.accruedCreditsByType (b, caller, .carbon))) s s₁ :=
        Credited.write (Or.inl rfl) rfl
      have h₂ : Credited b caller
          (bucket .biodiversity (-s.accruedCreditsByType (b, caller, .biodiversity))) s₁ _ :=
        Credited.write (Or.inr rfl) rfl
      have h₃ : Credited b caller _ s { clearAccrued
        (clearAccrued s b caller .carbon) b caller .biodiversity with
          nonce := nonces
          accruedCredits := Function.update (clearAccrued (clearAccrued s b caller .carbon) b
            caller .biodiversity).accruedCredits (b, caller) 0 } :=
        (h₁.trans h₂).congr rfl (by simp [s₁, clearAccrued, ← hsum])
      simpa [bucket, ClaimReceipt.credits] using h₃

/-- **`claim_credits`** pays out the pair in its receipt. A claim with nothing accrued is one of
zero. -/
theorem claimCredits_ok {s s' : State} {caller : Address} {b : BondId} {nonce : ℕ}
    {receipt : ClaimReceipt} (hA : Accounts s)
    (h : claimCredits s caller b nonce = .ok (s', receipt)) :
    Credited b caller (-receipt.credits) s s' ∧ receipt.accrued = receipt.credits.total ∧
      Accounts s' := by
  simp only [claimCredits, bind_eq_ok, useNonce_eq_ok] at h
  obtain ⟨nonces, -, h⟩ := h
  split at h
  · simp only [bind_eq_ok, pure_eq_ok, Prod.mk.injEq] at h
    obtain ⟨⟨s₁, receipt₁⟩, hclaim, rfl, rfl⟩ := h
    obtain ⟨hcredited, haccrued, htotal, hcarbon, hbio, hsuits⟩ :=
      claimByType_ok (s := { s with nonce := nonces }) s₁.nonce hclaim
    have hcredited : Credited b caller (-receipt₁.credits) s { s₁ with
        accruedCredits := Function.update s₁.accruedCredits (b, caller) 0 } :=
      hcredited.congr rfl rfl
    refine ⟨hcredited, haccrued.trans htotal, hA.credited hcredited ?_ hsuits.neg⟩
    -- each bucket is emptied or left alone
    have hnonneg := hA.nonneg b caller
    change _ = (purse s b caller).1 ∨ _ at hcarbon
    change _ = (purse s b caller).2 ∨ _ at hbio
    refine ⟨?_, ?_⟩
    · show 0 ≤ (purse s b caller).1 + -receipt₁.carbonAmt
      rcases hcarbon with h | h
      · rw [h]; omega
      · rw [h, neg_zero, add_zero]
        exact hnonneg.1
    · show 0 ≤ (purse s b caller).2 + -receipt₁.bioAmt
      rcases hbio with h | h
      · rw [h]; omega
      · rw [h, neg_zero, add_zero]
        exact hnonneg.2
  · next hzero =>
    -- nothing was accrued, and nothing is paid
    cases h
    refine ⟨?_, ?_, hA.congr rfl rfl rfl rfl rfl⟩
    · exact (Credited.refl b caller s).congr rfl rfl
    · have hnonneg := hA.nonneg b caller
      have hcombined := hA.combined b caller
      have h₁ : 0 ≤ (purse s b caller).1 := hnonneg.1
      have h₂ : 0 ≤ (purse s b caller).2 := hnonneg.2
      show s.accruedCredits (b, caller) = 0
      change ¬ 0 < s.accruedCredits (b, caller) at hzero
      unfold Credits.total at hcombined
      omega

/-- A holder's claim never finds its two records in disagreement. -/
theorem claimCredits_no_mismatch {s : State} (hA : Accounts s) (caller : Address) (b : BondId)
    (nonce : ℕ) : claimCredits s caller b nonce ≠ .error (.error .accountingMismatch) := by
  intro h
  simp only [claimCredits, bind_eq_error, useNonce, ensure_eq_error, pure_ne_error, or_false,
    exists_false, and_false] at h
  obtain ⟨-, h⟩ | ⟨nonces, -, h⟩ := h
  · cases h
  split at h
  swap
  · cases h
  next hpos =>
  change 0 < s.accruedCredits (b, caller) at hpos
  rw [hA.combined] at hpos
  have hsuits := hA.suits b caller
  simp only [bind_eq_error, pure_ne_error, and_false, exists_false, or_false] at h
  have hcombined := hA.combined b caller
  -- the error can only come from the breakdown by type
  cases htype : s.bondCreditType b with
  | none =>
    rw [htype] at hsuits
    -- without a type the purse is empty, so there was nothing to claim
    change purse s b caller = 0 at hsuits
    rw [hsuits] at hpos
    exact absurd hpos (lt_irrefl 0)
  | some creditType =>
    rw [htype] at hsuits
    cases creditType with
    | carbon =>
      simp only [htype, claimByType, bind_eq_error, ensure_eq_error, pure_ne_error, and_false,
        exists_false, or_false] at h
      change (purse s b caller).2 = 0 at hsuits
      rw [Credits.total, hsuits, add_zero] at hcombined
      exact h.1 hcombined.symm
    | blueCarbon =>
      simp only [htype, claimByType, bind_eq_error, ensure_eq_error, pure_ne_error, and_false,
        exists_false, or_false] at h
      change (purse s b caller).2 = 0 at hsuits
      rw [Credits.total, hsuits, add_zero] at hcombined
      exact h.1 hcombined.symm
    | biodiversity =>
      simp only [htype, claimByType, bind_eq_error, ensure_eq_error, pure_ne_error, and_false,
        exists_false, or_false] at h
      change (purse s b caller).1 = 0 at hsuits
      rw [Credits.total, hsuits, zero_add] at hcombined
      exact h.1 hcombined.symm
    | basket =>
      simp only [htype, claimByType, bind_eq_error, orError_eq_error, orError_eq_ok,
        checkedAdd_eq_some, ensure_eq_error, pure_ne_error, and_false, exists_false,
        or_false] at h
      -- a sum of the two buckets that leaves the range is an `overflow`
      obtain ⟨-, h⟩ | ⟨_, ⟨-, rfl⟩, h, -⟩ := h
      · cases h
      · exact h hcombined.symm

/-! ### Sweeping -/

/-- The state after a bond's undistributed figures were set to zero. -/
def clearDust (s : State) (b : BondId) : State :=
  { s with
    undistributedTotal := Function.update s.undistributedTotal b 0
    undistributedByType :=
      Function.update (Function.update s.undistributedByType (b, .carbon) 0)
        (b, .biodiversity) 0 }

theorem dust_clearDust (s : State) (b b' : BondId) :
    dust (clearDust s b) b' = if b' = b then 0 else dust s b' := by
  unfold dust clearDust
  by_cases hb : b' = b
  · subst hb
    simp [Prod.ext_iff]
  · simp [hb]

theorem Accounts.clearDust {s : State} (hA : Accounts s) (b : BondId) :
    Accounts (clearDust s b) where
  combined := hA.combined
  dusted b' := by
    rw [dust_clearDust]
    show Function.update s.undistributedTotal b 0 b' = _
    by_cases hb : b' = b
    · rw [hb, if_pos rfl, Function.update_self]
      rfl
    · rw [if_neg hb, Function.update_of_ne hb]
      exact hA.dusted b'
  clean := hA.clean
  dustClean b' creditType hne := by
    show Function.update (Function.update s.undistributedByType _ _) _ _ (b', creditType) = 0
    rw [Function.update_of_ne, Function.update_of_ne]
    · exact hA.dustClean b' creditType hne
    · rintro ⟨⟩
      exact hne (Or.inl rfl)
    · rintro ⟨⟩
      exact hne (Or.inr rfl)
  nonneg := hA.nonneg
  dustNonneg b' := by
    rw [dust_clearDust]
    split
    · exact le_refl _
    · exact hA.dustNonneg b'
  suits := hA.suits
  dustSuits b' := by
    rw [dust_clearDust]
    split
    · exact Suits.zero _
    · exact hA.dustSuits b'
  finite := hA.finite

/-- A bond without dust is not changed by clearing it. -/
theorem clearDust_of_zero {s : State} (hA : Accounts s) {b : BondId} (h : dust s b = 0) :
    clearDust s b = s := by
  have hcarbon : s.undistributedByType (b, .carbon) = 0 := congrArg Prod.fst h
  have hbio : s.undistributedByType (b, .biodiversity) = 0 := congrArg Prod.snd h
  -- the combined record vanishes with its parts
  have htotal : s.undistributedTotal b = 0 := by rw [hA.dusted, h]; rfl
  have h₁ : Function.update s.undistributedTotal b 0 = s.undistributedTotal := by
    rw [← htotal, Function.update_eq_self]
  have h₂ : Function.update s.undistributedByType (b, .carbon) 0 = s.undistributedByType := by
    rw [← hcarbon, Function.update_eq_self]
  have h₃ : Function.update s.undistributedByType (b, .biodiversity) 0 =
      s.undistributedByType := by
    rw [← hbio, Function.update_eq_self]
  unfold clearDust
  rw [h₁, h₂, h₃]

theorem accruePositive_ok {s s' : State} {b : BondId} {holder : Address} {creditType : CreditType}
    {amount : ℤ} (hstored : IsStored creditType) (hamount : 0 ≤ amount)
    (h : accruePositive s b holder creditType amount = .ok s') :
    Credited b holder (bucket creditType amount) s s' := by
  unfold accruePositive at h
  split at h
  · exact accrueCredits_ok hstored h
  · cases h
    have hzero : amount = 0 := by omega
    have hbucket : bucket creditType amount = 0 := by
      rw [hzero]
      rcases hstored with rfl | rfl <;> rfl
    rw [hbucket]
    exact Credited.refl b holder s

/-- **`sweep_undistributed`** moves a bond's dust to the account of the destination. The dust of
both types goes, and the combined figure with it. -/
theorem sweepUndistributed_ok {s s' : State} {caller destination : Address} {b : BondId}
    {nonce : ℕ} {receipt : SweepReceipt} (hA : Accounts s)
    (h : sweepUndistributed s caller b destination nonce = .ok (s', receipt)) :
    Credited b destination (dust s b) (clearDust s b) s' ∧ Accounts s' := by
  simp only [sweepUndistributed, bind_eq_ok, useNonce_eq_ok, requireAdmin_eq_ok, orError_eq_ok,
    checkedAdd_eq_some, ensure_eq_ok] at h
  obtain ⟨nonces, -, _, -, _, ⟨-, rfl⟩, _, hsum, h⟩ := h
  have hnonneg := hA.dustNonneg b
  have hcarbon : 0 ≤ s.undistributedByType (b, .carbon) := hnonneg.1
  have hbio : 0 ≤ s.undistributedByType (b, .biodiversity) := hnonneg.2
  have hcredited : Credited b destination (dust s b) (clearDust s b) s' := by
    split at h
    · next hzero =>
      cases h
      -- the parts are not negative and sum to 0
      have hdust : dust s b = 0 := by
        refine Prod.ext ?_ ?_
        · show s.undistributedByType (b, .carbon) = 0
          omega
        · show s.undistributedByType (b, .biodiversity) = 0
          omega
      rw [clearDust_of_zero hA hdust, hdust]
      exact (Credited.refl b destination s).congr rfl rfl
    · simp only [bind_eq_ok, pure_eq_ok, Prod.mk.injEq] at h
      obtain ⟨s₁, h₁, s₂, h₂, rfl, -⟩ := h
      have hmoved := (accruePositive_ok (Or.inl rfl) hcarbon h₁).trans
        (accruePositive_ok (Or.inr rfl) hbio h₂)
      have hpair : bucket .carbon (s.undistributedByType (b, .carbon)) +
          bucket .biodiversity (s.undistributedByType (b, .biodiversity)) = dust s b := by
        simp [bucket, dust]
      rw [hpair] at hmoved
      exact hmoved.congr rfl rfl
  refine ⟨hcredited, (hA.clearDust b).credited hcredited ?_ (hA.dustSuits b)⟩
  exact add_nonneg (hA.nonneg b destination) hnonneg

/-- A sweep never finds its two records in disagreement. -/
theorem sweepUndistributed_no_mismatch {s : State} (hA : Accounts s) (caller : Address)
    (b : BondId) (destination : Address) (nonce : ℕ) :
    sweepUndistributed s caller b destination nonce ≠ .error (.error .accountingMismatch) := by
  intro h
  simp only [sweepUndistributed, bind_eq_error, useNonce, requireAdmin, orError_eq_error,
    orError_eq_ok, checkedAdd_eq_some, ensure_eq_error, pure_ne_error, and_false, exists_false,
    or_false] at h
  obtain ⟨-, h⟩ | ⟨nonces, -, h⟩ := h
  · cases h
  obtain (⟨-, h⟩ | ⟨_, -, -, h⟩) | ⟨_, -, h⟩ := h
  · cases h
  · cases h
  obtain ⟨-, h⟩ | ⟨_, ⟨-, rfl⟩, h⟩ := h
  · cases h
  obtain ⟨h, -⟩ | ⟨_, -, h⟩ := h
  · exact h (hA.dusted b).symm
  -- what is left are the accruals, which fail with `Overflow` only
  have haccrue : ∀ {s : State} {creditType : CreditType} {amount : ℤ},
      accruePositive s b destination creditType amount ≠ .error (.error .accountingMismatch) := by
    intro s creditType amount h
    unfold accruePositive at h
    split at h
    · simp only [accrueCredits, bind_eq_error, orError_eq_error, pure_ne_error, and_false,
        exists_false, or_false] at h
      obtain ⟨-, h⟩ | ⟨_, -, -, h⟩ := h <;> cases h
    · cases h
  split at h
  · cases h
  · simp only [bind_eq_error, pure_ne_error, and_false, exists_false, or_false] at h
    obtain h | ⟨_, -, h⟩ := h
    · exact haccrue h
    · exact haccrue h

/-! ### Deducting -/

/-- **`deduct_credits`** takes a positive amount off one bucket. The type is the stored one, so a
deduction in the name of a basket does not succeed. -/
theorem deductCredits_ok {s s' : State} {signers : List Address} {b : BondId} {holder : Address}
    {amount left : ℤ} {creditType : CreditType} (hA : Accounts s)
    (h : deductCredits s signers b holder amount creditType = .ok (s', left)) :
    Credited b holder (-bucket (storageType creditType) amount) s s' ∧
      IsStored (storageType creditType) ∧ Accounts s' := by
  simp only [deductCredits, bind_eq_ok, orError_eq_ok, requireAuth_eq_ok, ensure_eq_ok,
    pure_eq_ok, Prod.mk.injEq] at h
  obtain ⟨_, -, _, -, _, hpos, _, -, _, hbucket, rfl, -⟩ := h
  -- the other buckets are empty, so nothing can be taken off them
  have hstored : IsStored (storageType creditType) := by
    by_contra hne
    rw [hA.clean b holder _ hne] at hbucket
    omega
  have hneg : -bucket (storageType creditType) amount =
      bucket (storageType creditType) (-amount) := by
    rcases hstored with h | h <;> simp [h, bucket]
  have hcredited : Credited b holder (bucket (storageType creditType) (-amount)) s _ :=
    Credited.write hstored rfl
  rw [← hneg] at hcredited
  refine ⟨hcredited, hstored, hA.credited hcredited ?_ ?_⟩
  · have hnonneg := hA.nonneg b holder
    have h₁ : 0 ≤ (purse s b holder).1 := hnonneg.1
    have h₂ : 0 ≤ (purse s b holder).2 := hnonneg.2
    rw [hneg]
    rcases hstored with hc | hc
    · rw [hc] at hbucket ⊢
      change amount ≤ (purse s b holder).1 at hbucket
      refine ⟨?_, ?_⟩
      · show 0 ≤ (purse s b holder).1 + -amount
        omega
      · show 0 ≤ (purse s b holder).2 + 0
        omega
    · rw [hc] at hbucket ⊢
      change amount ≤ (purse s b holder).2 at hbucket
      refine ⟨?_, ?_⟩
      · show 0 ≤ (purse s b holder).1 + 0
        omega
      · show 0 ≤ (purse s b holder).2 + -amount
        omega
  · -- the bucket is not empty, so it is one the bond's type has
    refine Suits.neg ?_
    have hsuits := hA.suits b holder
    rcases hstored with hc | hc
    · rw [hc] at hbucket ⊢
      change amount ≤ (purse s b holder).1 at hbucket
      unfold Suits at *
      split at hsuits
      · rw [hsuits] at hbucket
        exact absurd hbucket (not_le.mpr hpos)
      · rfl
      · rfl
      · rw [hsuits] at hbucket
        exact absurd hbucket (not_le.mpr hpos)
      · trivial
    · rw [hc] at hbucket ⊢
      change amount ≤ (purse s b holder).2 at hbucket
      unfold Suits at *
      split at hsuits
      · rw [hsuits] at hbucket
        exact absurd hbucket (not_le.mpr hpos)
      · rw [hsuits] at hbucket
        exact absurd hbucket (not_le.mpr hpos)
      · rw [hsuits] at hbucket
        exact absurd hbucket (not_le.mpr hpos)
      · rfl
      · trivial

end CouponEngine
end NbsBond
