import NbsBond.CouponEngine.Batching

/-!
# When the last batch of a period succeeds

The lemmas of `Distribution` say what a batch has done once it was committed. Here is the other
direction: which conditions on the state before the call make it succeed. Every condition is a bound
on an amount that the call adds up, so nothing is said about the order of the list.

`distribute_final_iff` is the result, for a period in progress and a list of distinct holders that
were not processed yet: the call succeeds if and only if the listed balances add up to what is
missing from the snapshot of `total_subscribed`, and no checked operation leaves the `i128` range
(`Arithmetic`).
-/

namespace NbsBond
namespace CouponEngine

open Soroban Int128 OracleConsumer

variable {creditType : CreditType} {b : BondId} {p : ℕ}

/-! ### One holder -/

/-- An allocation is so far inside the range that the sum of two of them is, too. -/
theorem allocation_add_inRange (r r' n n' : ℤ) : InRange (allocation r n + allocation r' n') := by
  have hsmall : ∀ x : ℤ, InRange x →
      -(2 ^ 125) ≤ x.tdiv fixedPoint ∧ x.tdiv fixedPoint ≤ 2 ^ 125 := by
    intro x hx
    unfold InRange minValue maxValue at hx
    have habs : (x.tdiv fixedPoint).natAbs = x.natAbs / 10000000 := Int.natAbs_tdiv x fixedPoint
    omega
  have h := hsmall _ (wrap_inRange (r * n))
  have h' := hsmall _ (wrap_inRange (r' * n'))
  unfold InRange minValue maxValue allocation
  omega

/-- Whatever the type, a holder's credits are computed, and they are its share. -/
theorem holderCredits_eq (creditType : CreditType) (batch : BatchState) (balance : ℤ) :
    holderCredits creditType batch balance =
      .ok ((share (rates creditType batch) balance).total,
        (share (rates creditType batch) balance).1,
        (share (rates creditType batch) balance).2) := by
  cases creditType with
  | carbon => simp [holderCredits, share, rates, Credits.total, allocation_zero, pure, Except.pure]
  | blueCarbon =>
    simp [holderCredits, share, rates, Credits.total, allocation_zero, pure, Except.pure]
  | biodiversity =>
    simp [holderCredits, share, rates, Credits.total, allocation_zero, pure, Except.pure]
  | basket =>
    have hsum : checkedAdd (allocation batch.carbonPerToken balance)
        (allocation batch.biodiversityPerToken balance) = some _ :=
      checkedAdd_eq_some.mpr ⟨allocation_add_inRange _ _ _ _, rfl⟩
    show (orError (checkedAdd _ _) CouponEngineError.overflow >>= _) = _
    rw [hsum]
    rfl

/-- There is room for `x` in the account of a holder. A share that is not positive is not added, so
nothing is asked of it. -/
structure AccountRoom (s : State) (b : BondId) (holder : Address) (x : Credits) : Prop where
  carbon : 0 < x.1 →
    InRange ((purse s b holder).1 + x.1) ∧ InRange (s.accruedCredits (b, holder) + x.1)
  biodiversity : 0 < x.2 →
    InRange ((purse s b holder).2 + x.2) ∧ InRange (s.accruedCredits (b, holder) + x.1 + x.2)

/-- There is room for `x`, and for the combined figure `n`, in the figures of the loop. The combined
figure is the total of both shares, or zero, so it is a parameter of its own. -/
structure FigureRoom (l : LoopState) (n : ℤ) (x : Credits) : Prop where
  total : 0 < n → InRange (l.totalHolderCredits + n)
  carbon : 0 < x.1 → InRange (l.carbonHolderCredits + x.1)
  biodiversity : 0 < x.2 → InRange (l.biodiversityHolderCredits + x.2)

theorem creditCarbon_iff {holder : Address} {amount : ℤ} {l : LoopState} :
    (∃ l', creditCarbon b holder amount l = .ok l') ↔
      (0 < amount → InRange (l.carbonHolderCredits + amount) ∧
        InRange ((purse l.storage b holder).1 + amount) ∧
        InRange (l.storage.accruedCredits (b, holder) + amount)) := by
  unfold creditCarbon
  split
  · next hpos =>
    simp only [accrueCredits, bind_eq_ok, orError_eq_ok, checkedAdd_eq_some, pure_eq_ok]
    constructor
    · rintro ⟨_, _, ⟨hfigure, -⟩, _, ⟨_, ⟨hbucket, -⟩, _, ⟨haccrued, -⟩, -⟩, -⟩ -
      exact ⟨hfigure, hbucket, haccrued⟩
    · intro h
      obtain ⟨hfigure, hbucket, haccrued⟩ := h hpos
      exact ⟨_, _, ⟨hfigure, rfl⟩, _, ⟨_, ⟨hbucket, rfl⟩, _, ⟨haccrued, rfl⟩, rfl⟩, rfl⟩
  · next hneg => exact ⟨fun _ h => absurd h hneg, fun _ => ⟨l, rfl⟩⟩

theorem creditBiodiversity_iff {holder : Address} {amount : ℤ} {l : LoopState} :
    (∃ l', creditBiodiversity b holder amount l = .ok l') ↔
      (0 < amount → InRange (l.biodiversityHolderCredits + amount) ∧
        InRange ((purse l.storage b holder).2 + amount) ∧
        InRange (l.storage.accruedCredits (b, holder) + amount)) := by
  unfold creditBiodiversity
  split
  · next hpos =>
    simp only [accrueCredits, bind_eq_ok, orError_eq_ok, checkedAdd_eq_some, pure_eq_ok]
    constructor
    · rintro ⟨_, _, ⟨hfigure, -⟩, _, ⟨_, ⟨hbucket, -⟩, _, ⟨haccrued, -⟩, -⟩, -⟩ -
      exact ⟨hfigure, hbucket, haccrued⟩
    · intro h
      obtain ⟨hfigure, hbucket, haccrued⟩ := h hpos
      exact ⟨_, _, ⟨hfigure, rfl⟩, _, ⟨_, ⟨hbucket, rfl⟩, _, ⟨haccrued, rfl⟩, rfl⟩, rfl⟩
  · next hneg => exact ⟨fun _ h => absurd h hneg, fun _ => ⟨l, rfl⟩⟩

/-- What the biodiversity side finds after the carbon side. -/
theorem creditCarbon_leaves {holder : Address} {amount : ℤ} {l l' : LoopState}
    (h : creditCarbon b holder amount l = .ok l') :
    l'.biodiversityHolderCredits = l.biodiversityHolderCredits ∧
      (purse l'.storage b holder).2 = (purse l.storage b holder).2 ∧
      l'.storage.accruedCredits (b, holder) =
        l.storage.accruedCredits (b, holder) + max amount 0 := by
  obtain ⟨hcredited, hl', -⟩ := creditCarbon_ok h
  refine ⟨by rw [hl'], ?_, ?_⟩
  · rw [hcredited.self, Function.update_self]
    exact add_zero _
  · rw [hcredited.accrued, Function.update_self, total_bucket (Or.inl rfl)]

/-- **Paying one holder** succeeds exactly when there is room for the payment. The condition is
about the figures before the payment only. -/
theorem payHolder_iff {holder : Address} {x : Credits} {l : LoopState} :
    (∃ l', payHolder b holder x.total x.1 x.2 l = .ok l') ↔
      FigureRoom l x.total (payout x) ∧ AccountRoom l.storage b holder (payout x) := by
  unfold payHolder
  split
  swap
  · next hneg =>
    -- nothing is paid, and that takes no room
    have hpayout : payout x = 0 := if_neg hneg
    rw [hpayout]
    refine ⟨fun _ => ⟨⟨fun h => absurd h hneg, ?_, ?_⟩, ?_, ?_⟩, fun _ => ⟨l, rfl⟩⟩
    all_goals exact fun h => absurd h (lt_irrefl 0)
  next hpos =>
  have hpayout : payout x = (max x.1 0, max x.2 0) := if_pos hpos
  -- a share that is paid is paid in full
  have hmax : ∀ n : ℤ, 0 < max n 0 → 0 < n ∧ max n 0 = n := by
    intro n hn
    omega
  rw [hpayout]
  simp only [bind_eq_ok, orError_eq_ok, checkedAdd_eq_some, pure_eq_ok]
  constructor
  · rintro ⟨_, _, ⟨htotal, rfl⟩, l₁, hcarbon, l₂, hbio, -⟩
    obtain ⟨hfigure, hbucket, haccrued⟩ := creditCarbon_leaves hcarbon
    have hc := creditCarbon_iff.mp ⟨l₁, hcarbon⟩
    have hb := creditBiodiversity_iff.mp ⟨l₂, hbio⟩
    -- the carbon part is written first; of what the second part reads it changes the accrual only
    rw [hfigure, hbucket, haccrued] at hb
    refine ⟨⟨fun _ => htotal, ?_, ?_⟩, ?_, ?_⟩
    · intro h
      obtain ⟨hx, heq⟩ := hmax _ h
      exact heq.symm ▸ (hc hx).1
    · intro h
      obtain ⟨hx, heq⟩ := hmax _ h
      exact heq.symm ▸ (hb hx).1
    · intro h
      obtain ⟨hx, heq⟩ := hmax _ h
      exact heq.symm ▸ (hc hx).2
    · intro h
      obtain ⟨hx, heq⟩ := hmax _ h
      exact heq.symm ▸ (hb hx).2
  · rintro ⟨hF, hA⟩
    obtain ⟨l₁, hcarbon⟩ : ∃ l₁, creditCarbon b holder x.1
        { l with totalHolderCredits := l.totalHolderCredits + x.total } = .ok l₁ := by
      refine creditCarbon_iff.mpr ?_
      intro hx
      have heq : max x.1 0 = x.1 := max_eq_left hx.le
      have h₁ := hF.carbon (heq.symm ▸ hx)
      have h₂ := hA.carbon (heq.symm ▸ hx)
      dsimp only at h₁ h₂
      rw [heq] at h₁ h₂
      exact ⟨h₁, h₂⟩
    obtain ⟨hfigure, hbucket, haccrued⟩ := creditCarbon_leaves hcarbon
    obtain ⟨l₂, hbio⟩ : ∃ l₂, creditBiodiversity b holder x.2 l₁ = .ok l₂ := by
      refine creditBiodiversity_iff.mpr ?_
      intro hx
      have heq : max x.2 0 = x.2 := max_eq_left hx.le
      have h₁ := hF.biodiversity (heq.symm ▸ hx)
      have h₂ := hA.biodiversity (heq.symm ▸ hx)
      dsimp only at h₁ h₂
      rw [heq] at h₁ h₂
      rw [hfigure, hbucket, haccrued]
      exact ⟨h₁, h₂⟩
    exact ⟨_, _, ⟨hF.total hpos, rfl⟩, l₁, hcarbon, l₂, hbio, rfl⟩

/-- **The loop body**, for a holder that was not processed yet. So much balance must be left of the
supply, as a batch must not go beyond what is subscribed. -/
theorem processHolder_iff {batch : BatchState} {supply : ℤ} {l : LoopState} {entry : Address × ℤ}
    (hfresh : l.storage.holderDistributed (b, p, entry.1) = false) (hpos : 0 < entry.2) :
    (∃ l', processHolder b p creditType batch supply l entry = .ok l') ↔
      InRange (l.processedBalance + entry.2) ∧ l.processedBalance + entry.2 ≤ supply ∧
      FigureRoom l (share (rates creditType batch) entry.2).total
        (payout (share (rates creditType batch) entry.2)) ∧
      AccountRoom l.storage b entry.1 (payout (share (rates creditType batch) entry.2)) := by
  have hpay : (∃ l', payHolder b entry.1 (share (rates creditType batch) entry.2).total
      (share (rates creditType batch) entry.2).1 (share (rates creditType batch) entry.2).2
      { l with processedBalance := l.processedBalance + entry.2 } = .ok l') ↔
      FigureRoom l (share (rates creditType batch) entry.2).total
        (payout (share (rates creditType batch) entry.2)) ∧
      AccountRoom l.storage b entry.1 (payout (share (rates creditType batch) entry.2)) := by
    rw [payHolder_iff]
    -- the processed balance is not among the figures
    exact and_congr_left fun _ => ⟨fun h => ⟨h.total, h.carbon, h.biodiversity⟩,
      fun h => ⟨h.total, h.carbon, h.biodiversity⟩⟩
  rw [← hpay]
  unfold processHolder
  rw [hfresh, if_neg Bool.false_ne_true, if_pos hpos]
  simp only [bind_eq_ok, orError_eq_ok, checkedAdd_eq_some, ensure_eq_ok, pure_eq_ok,
    holderCredits_eq, Except.ok.injEq]
  constructor
  · rintro ⟨_, _, ⟨hrange, rfl⟩, _, hle, _, rfl, l₁, hpaid, -⟩
    exact ⟨hrange, hle, l₁, hpaid⟩
  · rintro ⟨hrange, hle, l₁, hpaid⟩
    exact ⟨_, _, ⟨hrange, rfl⟩, (), hle, _, rfl, l₁, hpaid, rfl⟩

/-! ### The loop -/

/-- The credits paid to the holders of a list, by type. -/
def payouts (creditType : CreditType) (batch : BatchState) (holders : List (Address × ℤ)) :
    Credits :=
  (holders.map fun entry => payout (share (rates creditType batch) entry.2)).sum

/-- The combined figure of the same payments. -/
def paidTotal (creditType : CreditType) (batch : BatchState) (holders : List (Address × ℤ)) : ℤ :=
  (holders.map fun entry => max (share (rates creditType batch) entry.2).total 0).sum

theorem payouts_nonneg (creditType : CreditType) (batch : BatchState)
    (holders : List (Address × ℤ)) : 0 ≤ payouts creditType batch holders := by
  refine List.sum_nonneg ?_
  intro x hx
  obtain ⟨entry, -, rfl⟩ := List.mem_map.mp hx
  exact payout_nonneg _

theorem paidTotal_nonneg (creditType : CreditType) (batch : BatchState)
    (holders : List (Address × ℤ)) : 0 ≤ paidTotal creditType batch holders := by
  refine List.sum_nonneg ?_
  intro x hx
  obtain ⟨entry, -, rfl⟩ := List.mem_map.mp hx
  exact le_max_right _ _

/-- Distinct holders with positive balances, none of them processed yet. What `distribute_coupon`
would pass over is thus ruled out, and each of them is paid. -/
structure Unprocessed (s : State) (b : BondId) (p : ℕ) (holders : List (Address × ℤ)) : Prop where
  distinct : (holders.map Prod.fst).Nodup
  fresh : ∀ entry ∈ holders, s.holderDistributed (b, p, entry.1) = false
  positive : ∀ entry ∈ holders, 0 < entry.2

/-- The figures of the loop before a list is processed. Upper bounds are what the checked additions
ask for; the lower ones keep them from failing on the other side. -/
structure InBounds (supply : ℤ) (l : LoopState) : Prop where
  processed : 0 ≤ l.processedBalance ∧ l.processedBalance ≤ supply
  total : 0 ≤ l.totalHolderCredits ∧ l.totalHolderCredits ≤ maxValue
  carbon : 0 ≤ l.carbonHolderCredits ∧ l.carbonHolderCredits ≤ maxValue
  biodiversity : 0 ≤ l.biodiversityHolderCredits ∧ l.biodiversityHolderCredits ≤ maxValue

/-- A list of holders fits: their balances into the supply, and what they are paid into the figures
of the loop and into their accounts. -/
structure ListFits (b : BondId) (creditType : CreditType) (batch : BatchState) (supply : ℤ)
    (holders : List (Address × ℤ)) (l : LoopState) : Prop where
  processed : l.processedBalance + (holders.map Prod.snd).sum ≤ supply
  total : l.totalHolderCredits + paidTotal creditType batch holders ≤ maxValue
  carbon : l.carbonHolderCredits + (payouts creditType batch holders).1 ≤ maxValue
  biodiversity : l.biodiversityHolderCredits + (payouts creditType batch holders).2 ≤ maxValue
  accounts : ∀ entry ∈ holders,
    AccountRoom l.storage b entry.1 (payout (share (rates creditType batch) entry.2))

theorem AccountRoom.congr {s s' : State} {holder : Address} {x : Credits}
    (hpurse : purse s' b holder = purse s b holder)
    (haccrued : s'.accruedCredits (b, holder) = s.accruedCredits (b, holder)) :
    AccountRoom s' b holder x ↔ AccountRoom s b holder x := by
  constructor
  · rintro ⟨hcarbon, hbio⟩
    rw [hpurse, haccrued] at hcarbon hbio
    exact ⟨hcarbon, hbio⟩
  · rintro ⟨hcarbon, hbio⟩
    rw [← hpurse, ← haccrued] at hcarbon hbio
    exact ⟨hcarbon, hbio⟩

section Step

variable {batch : BatchState} {supply : ℤ} {l l₁ : LoopState} {entry : Address × ℤ}
  {rest : List (Address × ℤ)}

/-- The figures after one payment. -/
theorem Paid.figures (h : Paid b p creditType batch supply entry l l₁) :
    l₁.processedBalance = l.processedBalance + entry.2 ∧
    l₁.totalHolderCredits =
      l.totalHolderCredits + max (share (rates creditType batch) entry.2).total 0 ∧
    l₁.carbonHolderCredits =
      l.carbonHolderCredits + (payout (share (rates creditType batch) entry.2)).1 ∧
    l₁.biodiversityHolderCredits =
      l.biodiversityHolderCredits + (payout (share (rates creditType batch) entry.2)).2 :=
  ⟨h.processed, h.total, congrArg Prod.fst h.credits, congrArg Prod.snd h.credits⟩

/-- A payment leaves the accounts of the other holders alone. -/
theorem Paid.accountRoom (h : Paid b p creditType batch supply entry l l₁) {holder : Address}
    (hne : holder ≠ entry.1) {x : Credits} :
    AccountRoom l₁.storage b holder x ↔ AccountRoom l.storage b holder x := by
  refine AccountRoom.congr ?_ ?_
  · rw [h.credited.self, Function.update_of_ne hne]
  · rw [h.credited.accrued, Function.update_of_ne]
    intro heq
    exact hne (Prod.mk.inj heq).2

/-- The rest of the list is still unprocessed. -/
theorem Unprocessed.tail (hU : Unprocessed l.storage b p (entry :: rest))
    (h : Paid b p creditType batch supply entry l l₁) : Unprocessed l₁.storage b p rest := by
  obtain ⟨hnotin, hnodup⟩ := List.nodup_cons.mp hU.distinct
  refine ⟨hnodup, ?_, fun e he => hU.positive e (List.mem_cons_of_mem entry he)⟩
  intro e he
  rw [h.marked, Function.update_of_ne]
  · exact hU.fresh e (List.mem_cons_of_mem entry he)
  · intro heq
    have hsame : e.1 = entry.1 := (Prod.mk.inj (Prod.mk.inj heq).2).2
    exact hnotin (hsame ▸ List.mem_map_of_mem he)

/-- Paying one holder off the list turns what must fit for the list into what must fit for the
rest. -/
theorem Paid.listFits (h : Paid b p creditType batch supply entry l l₁)
    (hU : Unprocessed l.storage b p (entry :: rest))
    (haccount : AccountRoom l.storage b entry.1 (payout (share (rates creditType batch) entry.2))) :
    ListFits b creditType batch supply (entry :: rest) l ↔
      ListFits b creditType batch supply rest l₁ := by
  obtain ⟨hprocessed, htotal, hcarbon, hbio⟩ := h.figures
  have hsum : ((entry :: rest).map Prod.snd).sum = entry.2 + (rest.map Prod.snd).sum := rfl
  have hpaid : paidTotal creditType batch (entry :: rest) =
      max (share (rates creditType batch) entry.2).total 0 + paidTotal creditType batch rest := rfl
  have hpayouts : payouts creditType batch (entry :: rest) =
      payout (share (rates creditType batch) entry.2) + payouts creditType batch rest := rfl
  -- the accounts of the others on the list are not touched
  have hothers : ∀ e ∈ rest, e.1 ≠ entry.1 := by
    intro e he heq
    exact (List.nodup_cons.mp hU.distinct).1 (heq ▸ List.mem_map_of_mem he)
  constructor
  · rintro ⟨h₁, h₂, h₃, h₄, h₅⟩
    rw [hsum] at h₁
    rw [hpaid] at h₂
    rw [hpayouts, Prod.fst_add] at h₃
    rw [hpayouts, Prod.snd_add] at h₄
    refine ⟨by omega, by omega, by omega, by omega, ?_⟩
    intro e he
    exact (h.accountRoom (hothers e he)).mpr (h₅ e (List.mem_cons_of_mem entry he))
  · rintro ⟨h₁, h₂, h₃, h₄, h₅⟩
    refine ⟨?_, ?_, ?_, ?_, ?_⟩
    · rw [hsum]
      omega
    · rw [hpaid]
      omega
    · rw [hpayouts, Prod.fst_add]
      omega
    · rw [hpayouts, Prod.snd_add]
      omega
    · intro e he
      rcases List.mem_cons.mp he with rfl | he
      · exact haccount
      · exact (h.accountRoom (hothers e he)).mp (h₅ e he)

/-- What fits for the list fits for its first holder. -/
theorem ListFits.head (hL : ListFits b creditType batch supply (entry :: rest) l)
    (hI : InBounds supply l) (hU : Unprocessed l.storage b p (entry :: rest))
    (hsupply : supply ≤ maxValue) :
    ∃ l₁, processHolder b p creditType batch supply l entry = .ok l₁ := by
  have hpos := hU.positive entry List.mem_cons_self
  have hrest : 0 ≤ (rest.map Prod.snd).sum := by
    refine List.sum_nonneg ?_
    intro n hn
    obtain ⟨e, he, rfl⟩ := List.mem_map.mp hn
    exact (hU.positive e (List.mem_cons_of_mem entry he)).le
  have hpaid := paidTotal_nonneg creditType batch rest
  have hpayouts := payouts_nonneg creditType batch rest
  have hprocessed : l.processedBalance + (entry.2 + (rest.map Prod.snd).sum) ≤ supply :=
    hL.processed
  have htotal : l.totalHolderCredits + (max (share (rates creditType batch) entry.2).total 0 +
      paidTotal creditType batch rest) ≤ maxValue := hL.total
  have hcarbon : l.carbonHolderCredits + ((payout (share (rates creditType batch) entry.2)).1 +
      (payouts creditType batch rest).1) ≤ maxValue := hL.carbon
  have hbio : l.biodiversityHolderCredits + ((payout (share (rates creditType batch) entry.2)).2 +
      (payouts creditType batch rest).2) ≤ maxValue := hL.biodiversity
  have h₁ : 0 ≤ (payouts creditType batch rest).1 := hpayouts.1
  have h₂ : 0 ≤ (payouts creditType batch rest).2 := hpayouts.2
  have hp := hI.processed
  have ht := hI.total
  have hc := hI.carbon
  have hb := hI.biodiversity
  -- what the rest of the list takes is not negative, so the head alone stays in range
  refine (processHolder_iff (hU.fresh entry List.mem_cons_self) hpos).mpr ⟨?_, ?_, ?_, ?_⟩
  · exact .of_nonneg (by omega) (by omega)
  · omega
  · exact ⟨fun _ => .of_nonneg (by omega) (by omega), fun _ => .of_nonneg (by omega) (by omega),
      fun _ => .of_nonneg (by omega) (by omega)⟩
  · exact hL.accounts entry List.mem_cons_self

/-- A holder that was not processed yet and has a positive balance is paid. -/
theorem paid_of_processHolder
    (hstep : processHolder b p creditType batch supply l entry = .ok l₁)
    (hfresh : l.storage.holderDistributed (b, p, entry.1) = false) (hpos : 0 < entry.2) :
    Paid b p creditType batch supply entry l l₁ := by
  obtain ⟨-, hmarked | hneg⟩ | hpaid := processHolder_ok hstep
  · rw [hfresh] at hmarked
    cases hmarked
  · exact absurd hpos (not_lt.mpr hneg)
  · exact hpaid

/-- One payment keeps the figures in bounds. -/
theorem InBounds.step (hI : InBounds supply l)
    (hstep : processHolder b p creditType batch supply l entry = .ok l₁)
    (hfresh : l.storage.holderDistributed (b, p, entry.1) = false) (hpos : 0 < entry.2) :
    InBounds supply l₁ := by
  obtain ⟨-, hle, hroom, -⟩ := (processHolder_iff hfresh hpos).mp ⟨l₁, hstep⟩
  obtain ⟨hprocessed, htotal, hcarbon, hbio⟩ :=
    (paid_of_processHolder hstep hfresh hpos).figures
  obtain ⟨hx₁, hx₂⟩ := payout_nonneg (share (rates creditType batch) entry.2)
  change 0 ≤ (payout (share (rates creditType batch) entry.2)).1 at hx₁
  change 0 ≤ (payout (share (rates creditType batch) entry.2)).2 at hx₂
  -- an addition that is not made leaves the figure where it was
  have hadd : ∀ n m : ℤ, 0 ≤ n ∧ n ≤ maxValue → 0 ≤ m → (0 < m → InRange (n + m)) →
      0 ≤ n + m ∧ n + m ≤ maxValue := by
    intro n m hn hm hroom
    rcases hm.eq_or_lt with rfl | hm
    · omega
    · exact ⟨by omega, (hroom hm).2⟩
  have hp := hI.processed
  refine ⟨by omega, ?_, ?_, ?_⟩
  · rw [htotal]
    refine hadd _ _ hI.total (le_max_right _ _) ?_
    intro h
    have heq : max (share (rates creditType batch) entry.2).total 0 =
        (share (rates creditType batch) entry.2).total := by omega
    rw [heq] at h ⊢
    exact hroom.total h
  · rw [hcarbon]
    exact hadd _ _ hI.carbon hx₁ hroom.carbon
  · rw [hbio]
    exact hadd _ _ hI.biodiversity hx₂ hroom.biodiversity

end Step

/-- **The loop** over holders that were not processed yet succeeds exactly when the list fits. What
fits is asked of the sums, since each addition is at most the last one. -/
theorem foldlM_iff {batch : BatchState} {supply : ℤ} {l : LoopState}
    {holders : List (Address × ℤ)} (hU : Unprocessed l.storage b p holders) (hI : InBounds supply l)
    (hsupply : supply ≤ maxValue) :
    (∃ l', holders.foldlM (processHolder b p creditType batch supply) l = .ok l') ↔
      ListFits b creditType batch supply holders l := by
  -- by induction on the list; the head is paid, and the rest is judged from the state after it
  induction holders generalizing l with
  | nil =>
    refine ⟨fun _ => ⟨?_, ?_, ?_, ?_, nofun⟩, fun _ => ⟨l, rfl⟩⟩
    · exact (add_zero _).trans_le hI.processed.2
    · exact (add_zero _).trans_le hI.total.2
    · exact (add_zero _).trans_le hI.carbon.2
    · exact (add_zero _).trans_le hI.biodiversity.2
  | cons entry rest ih =>
    have hfresh := hU.fresh entry List.mem_cons_self
    have hpos := hU.positive entry List.mem_cons_self
    have hrest : ∀ l₁, processHolder b p creditType batch supply l entry = .ok l₁ →
        ((∃ l', rest.foldlM (processHolder b p creditType batch supply) l₁ = .ok l') ↔
          ListFits b creditType batch supply (entry :: rest) l) := by
      intro l₁ hstep
      have hpaid := paid_of_processHolder hstep hfresh hpos
      have haccount := ((processHolder_iff hfresh hpos).mp ⟨l₁, hstep⟩).2.2.2
      rw [hpaid.listFits hU haccount]
      exact ih (hU.tail hpaid) (hI.step hstep hfresh hpos)
    constructor
    · rintro ⟨l', hfold⟩
      rw [List.foldlM_cons, bind_eq_ok] at hfold
      obtain ⟨l₁, hstep, hfold⟩ := hfold
      exact (hrest l₁ hstep).mp ⟨l', hfold⟩
    · intro hfits
      obtain ⟨l₁, hstep⟩ := hfits.head hI hU hsupply
      obtain ⟨l', hfold⟩ := (hrest l₁ hstep).mpr hfits
      exact ⟨l', by rw [List.foldlM_cons, hstep]; exact hfold⟩

/-- What the loop leaves behind. The three sums are those of the list, in whatever order it is gone
through. -/
structure Looped (b : BondId) (creditType : CreditType) (batch : BatchState)
    (holders : List (Address × ℤ)) (l l' : LoopState) : Prop where
  processed : l'.processedBalance = l.processedBalance + (holders.map Prod.snd).sum
  total : l'.totalHolderCredits = l.totalHolderCredits + paidTotal creditType batch holders
  carbon : l'.carbonHolderCredits = l.carbonHolderCredits + (payouts creditType batch holders).1
  biodiversity : l'.biodiversityHolderCredits =
    l.biodiversityHolderCredits + (payouts creditType batch holders).2
  books : SameBooks l.storage l'.storage

theorem looped_of_fold {batch : BatchState} {supply : ℤ} {l l' : LoopState}
    {holders : List (Address × ℤ)} (hU : Unprocessed l.storage b p holders)
    (hfold : holders.foldlM (processHolder b p creditType batch supply) l = .ok l') :
    Looped b creditType batch holders l l' := by
  induction holders generalizing l with
  | nil =>
    cases hfold
    exact ⟨(add_zero _).symm, (add_zero _).symm, (add_zero _).symm, (add_zero _).symm, rfl⟩
  | cons entry rest ih =>
    rw [List.foldlM_cons, bind_eq_ok] at hfold
    obtain ⟨l₁, hstep, hfold⟩ := hfold
    have hpaid := paid_of_processHolder hstep (hU.fresh entry List.mem_cons_self)
      (hU.positive entry List.mem_cons_self)
    obtain ⟨hprocessed, htotal, hcarbon, hbio⟩ := hpaid.figures
    have hrest := ih (hU.tail hpaid) hfold
    refine ⟨?_, ?_, ?_, ?_, hpaid.credited.books.trans hrest.books⟩
    · rw [hrest.processed, hprocessed, add_assoc]
      rfl
    · rw [hrest.total, htotal, add_assoc]
      rfl
    · rw [hrest.carbon, hcarbon, add_assoc]
      rfl
    · rw [hrest.biodiversity, hbio, add_assoc]
      rfl

/-! ### Closing the period -/

theorem addRemainder_iff {existing remainder : ℤ} :
    (∃ x, addRemainder existing remainder = .ok x) ↔
      (0 < remainder → InRange (existing + remainder)) := by
  unfold addRemainder
  split
  · next hpos =>
    simp only [orError_eq_ok, checkedAdd_eq_some]
    constructor
    · rintro ⟨_, hfits, -⟩ -
      exact hfits
    · intro hfits
      exact ⟨_, hfits hpos, rfl⟩
  · next hneg => exact ⟨fun _ h => absurd h hneg, fun _ => ⟨existing, rfl⟩⟩

theorem accumulate_iff {batch : BatchState} {l : LoopState} :
    (∃ batch', accumulate batch l = .ok batch') ↔
      InRange (batch.distributedSoFar + l.totalHolderCredits) ∧
      InRange (batch.carbonDistributedSoFar + l.carbonHolderCredits) ∧
      InRange (batch.bioDistributedSoFar + l.biodiversityHolderCredits) := by
  simp only [accumulate, bind_eq_ok, orError_eq_ok, checkedAdd_eq_some, pure_eq_ok]
  constructor
  · rintro ⟨_, _, ⟨h₁, -⟩, _, ⟨h₂, -⟩, _, ⟨h₃, -⟩, -⟩
    exact ⟨h₁, h₂, h₃⟩
  · rintro ⟨h₁, h₂, h₃⟩
    exact ⟨_, _, ⟨h₁, rfl⟩, _, ⟨h₂, rfl⟩, _, ⟨h₃, rfl⟩, rfl⟩

/-- What is left of a period stays in range, and so does the dust it is added to. Closing the period
subtracts what was paid from what was there, and then adds the rest to the dust. -/
structure RemainderFits (s : State) (b : BondId) (left : ℤ) (leftByType : Credits) : Prop where
  total : InRange left
  carbon : InRange leftByType.1
  biodiversity : InRange leftByType.2
  dust : 0 < left → InRange (s.undistributedTotal b + left)
  carbonDust : 0 < leftByType.1 → InRange (s.undistributedByType (b, .carbon) + leftByType.1)
  biodiversityDust : 0 < leftByType.2 →
    InRange (s.undistributedByType (b, .biodiversity) + leftByType.2)

theorem RemainderFits.congr {s s' : State} {left : ℤ} {leftByType : Credits}
    (htotal : s'.undistributedTotal = s.undistributedTotal)
    (hbyType : s'.undistributedByType = s.undistributedByType) :
    RemainderFits s' b left leftByType ↔ RemainderFits s b left leftByType := by
  constructor
  · rintro ⟨h₁, h₂, h₃, h₄, h₅, h₆⟩
    rw [htotal] at h₄
    rw [hbyType] at h₅ h₆
    exact ⟨h₁, h₂, h₃, h₄, h₅, h₆⟩
  · rintro ⟨h₁, h₂, h₃, h₄, h₅, h₆⟩
    rw [← htotal] at h₄
    rw [← hbyType] at h₅ h₆
    exact ⟨h₁, h₂, h₃, h₄, h₅, h₆⟩

theorem finalise_iff {deps : Deps} {s : State} {progress : Progress} {report : Report}
    (hreport : deps.getReport progress.batch.reportId = some report) :
    (∃ s', finalise deps s b p progress = .ok s') ↔
      progress.processedBalance = progress.totalSubscribed ∧
      RemainderFits s b (progress.batch.totalCredits - progress.batch.distributedSoFar)
        (totals progress.batch - soFar progress.batch) := by
  simp only [finalise, hreport, bind_eq_ok, ensure_eq_ok, orTrap_eq_ok, orError_eq_ok,
    checkedSub_eq_some, pure_eq_ok, Option.some.injEq]
  constructor
  · rintro ⟨_, _, hall, _, rfl, _, ⟨h₁, rfl⟩, _, ⟨h₂, rfl⟩, _, ⟨h₃, rfl⟩, _, h₄, _, h₅, _, h₆, -⟩
    exact ⟨hall, h₁, h₂, h₃, addRemainder_iff.mp ⟨_, h₄⟩, addRemainder_iff.mp ⟨_, h₅⟩,
      addRemainder_iff.mp ⟨_, h₆⟩⟩
  · rintro ⟨hall, h₁, h₂, h₃, h₄, h₅, h₆⟩
    obtain ⟨_, h₄⟩ := addRemainder_iff.mpr h₄
    obtain ⟨_, h₅⟩ := addRemainder_iff.mpr h₅
    obtain ⟨_, h₆⟩ := addRemainder_iff.mpr h₆
    exact ⟨_, (), hall, _, rfl, _, ⟨h₁, rfl⟩, _, ⟨h₂, rfl⟩, _, ⟨h₃, rfl⟩, _, h₄, _, h₅, _, h₆, rfl⟩

/-- No checked operation of the last batch leaves the range: what the listed holders are paid fits
into their accounts and into the figures of the period, and what is left over fits into the dust. -/
structure Arithmetic (s : State) (b : BondId) (creditType : CreditType) (batch : BatchState)
    (holders : List (Address × ℤ)) : Prop where
  accounts : ∀ entry ∈ holders,
    AccountRoom s b entry.1 (payout (share (rates creditType batch) entry.2))
  total : batch.distributedSoFar + paidTotal creditType batch holders ≤ maxValue
  carbon : batch.carbonDistributedSoFar + (payouts creditType batch holders).1 ≤ maxValue
  biodiversity : batch.bioDistributedSoFar + (payouts creditType batch holders).2 ≤ maxValue
  remainder : RemainderFits s b
    (batch.totalCredits - (batch.distributedSoFar + paidTotal creditType batch holders))
    (totals batch - (soFar batch + payouts creditType batch holders))

/-- The arithmetic reads accounts and dust. -/
theorem Arithmetic.congr {s s' : State} {batch : BatchState} {holders : List (Address × ℤ)}
    (hA : Arithmetic s b creditType batch holders) (hpurse : purse s' b = purse s b)
    (haccrued : s'.accruedCredits = s.accruedCredits)
    (htotal : s'.undistributedTotal = s.undistributedTotal)
    (hbyType : s'.undistributedByType = s.undistributedByType) :
    Arithmetic s' b creditType batch holders where
  accounts entry hentry := by
    refine (AccountRoom.congr ?_ ?_).mpr (hA.accounts entry hentry)
    · rw [hpurse]
    · rw [haccrued]
  total := hA.total
  carbon := hA.carbon
  biodiversity := hA.biodiversity
  remainder := (RemainderFits.congr htotal hbyType).mpr hA.remainder

/-- The figures of a period in progress. They are what a further batch starts from. -/
structure Sound (progress : Progress) : Prop where
  processed : 0 ≤ progress.processedBalance ∧ progress.processedBalance ≤ progress.totalSubscribed
  supply : progress.totalSubscribed ≤ maxValue
  total : 0 ≤ progress.batch.distributedSoFar
  paid : 0 ≤ soFar progress.batch

/-- A period in progress: its bond is registered, it is not closed, and its figures are sound. The
two tables of open periods agree on how far it is. -/
structure InProgress (s : State) (b : BondId) (p : ℕ) (creditType : CreditType)
    (progress : Progress) : Prop where
  unfinished : ∀ info, s.periodInfo (b, p) = some info → info.distributed = false
  project : ∃ projectId, s.bondProject b = some projectId
  type : s.bondCreditType b = some creditType
  stored : s.batchState (b, p) = some progress.batch
  balance : s.distributionBalance (b, p) =
    some (progress.totalSubscribed, progress.processedBalance)
  sound : Sound progress

/-- What a period in progress has stored is what saving it would store. -/
theorem InProgress.saved {s : State} {progress : Progress}
    (hI : InProgress s b p creditType progress) : saveProgress s b p progress = s := by
  have hbatch : Function.update s.batchState (b, p) (some progress.batch) = s.batchState := by
    rw [← hI.stored, Function.update_eq_self]
  have hbalance : Function.update s.distributionBalance (b, p)
      (some (progress.totalSubscribed, progress.processedBalance)) = s.distributionBalance := by
    rw [← hI.balance, Function.update_eq_self]
  unfold saveProgress
  rw [hbatch, hbalance]

section Close

variable {deps : Deps} {progress : Progress} {report : Report} {s : State} {l : LoopState}
  {holders : List (Address × ℤ)}

/-- Closing the period, after a loop over `holders` and `accumulate`. -/
theorem Looped.finalise_iff {batch : BatchState}
    (hloop : Looped b creditType progress.batch holders
      ⟨s, progress.processedBalance, 0, 0, 0, 0⟩ l)
    (hreport : deps.getReport progress.batch.reportId = some report)
    (hacc : accumulate progress.batch l = .ok batch) :
    (∃ s', finalise deps (saveProgress l.storage b p (progress.advance batch l)) b p
        (progress.advance batch l) = .ok s') ↔
      progress.processedBalance + (holders.map Prod.snd).sum = progress.totalSubscribed ∧
      RemainderFits s b (progress.batch.totalCredits -
          (progress.batch.distributedSoFar + paidTotal creditType progress.batch holders))
        (totals progress.batch - (soFar progress.batch +
          payouts creditType progress.batch holders)) := by
  -- the loop does not touch the dust
  have hbooks := hloop.books
  unfold SameBooks at hbooks
  have hdust : l.storage.undistributedTotal = s.undistributedTotal := by rw [hbooks]
  have hdusts : l.storage.undistributedByType = s.undistributedByType := by rw [hbooks]
  -- its figures start at 0, so they are the payments themselves
  have htotal := hloop.total
  have hcarbon := hloop.carbon
  have hbio := hloop.biodiversity
  dsimp only at htotal hcarbon hbio
  rw [zero_add] at htotal hcarbon hbio
  have hbatch := accumulate_ok hacc
  rw [htotal, hcarbon, hbio] at hbatch
  have hfound : deps.getReport (progress.advance batch l).batch.reportId = some report := by
    show deps.getReport batch.reportId = some report
    rw [hbatch]
    exact hreport
  rw [CouponEngine.finalise_iff hfound]
  have hprocessed : (progress.advance batch l).processedBalance =
      progress.processedBalance + (holders.map Prod.snd).sum := hloop.processed
  have hleft : (progress.advance batch l).batch.totalCredits -
      (progress.advance batch l).batch.distributedSoFar = progress.batch.totalCredits -
        (progress.batch.distributedSoFar + paidTotal creditType progress.batch holders) := by
    show batch.totalCredits - batch.distributedSoFar = _
    rw [hbatch]
  have hleftByType : totals (progress.advance batch l).batch -
      soFar (progress.advance batch l).batch = totals progress.batch - (soFar progress.batch +
        payouts creditType progress.batch holders) := by
    show totals batch - soFar batch = _
    rw [hbatch]
    rfl
  rw [hprocessed, hleft, hleftByType]
  have hsaved : (saveProgress l.storage b p (progress.advance batch l)).undistributedTotal =
      s.undistributedTotal := hdust
  exact and_congr Iff.rfl (RemainderFits.congr hsaved hdusts)

/-- `accumulate` after a loop over `holders`. -/
theorem Looped.accumulate_iff
    (hloop : Looped b creditType progress.batch holders
      ⟨s, progress.processedBalance, 0, 0, 0, 0⟩ l) (hsound : Sound progress) :
    (∃ batch, accumulate progress.batch l = .ok batch) ↔
      progress.batch.distributedSoFar + paidTotal creditType progress.batch holders ≤ maxValue ∧
      progress.batch.carbonDistributedSoFar + (payouts creditType progress.batch holders).1 ≤
        maxValue ∧
      progress.batch.bioDistributedSoFar + (payouts creditType progress.batch holders).2 ≤
        maxValue := by
  rw [CouponEngine.accumulate_iff, hloop.total, hloop.carbon, hloop.biodiversity]
  dsimp only
  rw [zero_add, zero_add, zero_add]
  obtain ⟨hcarbon, hbio⟩ := payouts_nonneg creditType progress.batch holders
  obtain ⟨hcarbonPaid, hbioPaid⟩ := hsound.paid
  constructor
  · rintro ⟨h₁, h₂, h₃⟩
    exact ⟨h₁.2, h₂.2, h₃.2⟩
  · rintro ⟨h₁, h₂, h₃⟩
    exact ⟨.of_nonneg (add_nonneg hsound.total (paidTotal_nonneg _ _ _)) h₁,
      .of_nonneg (add_nonneg hcarbonPaid hcarbon) h₂, .of_nonneg (add_nonneg hbioPaid hbio) h₃⟩

/-- The end of a last batch is `accumulate` and `finalise`. -/
theorem closeBatch_final_iff :
    (∃ x, closeBatch deps b p true progress l = .ok x) ↔
      ∃ batch, accumulate progress.batch l = .ok batch ∧
        ∃ s', finalise deps (saveProgress l.storage b p (progress.advance batch l)) b p
          (progress.advance batch l) = .ok s' := by
  simp only [closeBatch, bind_eq_ok, if_true, pure_eq_ok]
  constructor
  · rintro ⟨_, batch, hacc, s', hfinal, -⟩
    exact ⟨batch, hacc, s', hfinal⟩
  · rintro ⟨batch, hacc, s', hfinal⟩
    exact ⟨_, batch, hacc, s', hfinal, rfl⟩

/-- **The last batch** of a period in progress, over distinct holders that were not processed yet,
succeeds exactly when their balances make up what is missing from the snapshot and no checked
operation leaves the range. -/
theorem InProgress.distribute_final_iff (hI : InProgress s b p creditType progress)
    (hU : Unprocessed s b p holders)
    (hreport : deps.getReport progress.batch.reportId = some report) :
    (∃ x, distribute deps s b p holders progress.batch.reportId true = .ok x) ↔
      progress.processedBalance + (holders.map Prod.snd).sum = progress.totalSubscribed ∧
      Arithmetic s b creditType progress.batch holders := by
  obtain ⟨projectId, hproject⟩ := hI.project
  -- the call resumes the stored batch: loop, `accumulate`, `finalise`
  have hresume := distribute_resume deps progress hI.unfinished hproject hI.type holders true
  rw [hI.saved] at hresume
  rw [hresume]
  have hzero : 0 ≤ (0 : ℤ) ∧ 0 ≤ maxValue := by decide
  have hbounds : InBounds progress.totalSubscribed ⟨s, progress.processedBalance, 0, 0, 0, 0⟩ :=
    ⟨hI.sound.processed, hzero, hzero, hzero⟩
  have hfold : (∃ l', holders.foldlM
      (processHolder b p creditType progress.batch progress.totalSubscribed)
      ⟨s, progress.processedBalance, 0, 0, 0, 0⟩ = .ok l') ↔ _ :=
    foldlM_iff hU hbounds hI.sound.supply
  constructor
  · rintro ⟨x, h⟩
    rw [bind_eq_ok] at h
    obtain ⟨l, hl, hclose⟩ := h
    have hloop := looped_of_fold hU hl
    obtain ⟨batch, hacc, s', hfinal⟩ := closeBatch_final_iff.mp ⟨x, hclose⟩
    obtain ⟨htotal, hcarbon, hbio⟩ := (hloop.accumulate_iff hI.sound).mp ⟨batch, hacc⟩
    obtain ⟨hsum, hleft⟩ := (hloop.finalise_iff hreport hacc).mp ⟨s', hfinal⟩
    exact ⟨hsum, (hfold.mp ⟨l, hl⟩).accounts, htotal, hcarbon, hbio, hleft⟩
  · rintro ⟨hsum, haccounts, htotal, hcarbon, hbio, hleft⟩
    obtain ⟨hcarbonPaid, hbioPaid⟩ := hI.sound.paid
    -- the figures of the period bound those of the batch
    have hfits : ListFits b creditType progress.batch progress.totalSubscribed holders
        ⟨s, progress.processedBalance, 0, 0, 0, 0⟩ := by
      have htotalPaid := hI.sound.total
      change 0 ≤ progress.batch.carbonDistributedSoFar at hcarbonPaid
      change 0 ≤ progress.batch.bioDistributedSoFar at hbioPaid
      refine ⟨hsum.le, ?_, ?_, ?_, haccounts⟩
      all_goals dsimp only; omega
    obtain ⟨l, hl⟩ := hfold.mpr hfits
    have hloop := looped_of_fold hU hl
    obtain ⟨batch, hacc⟩ := (hloop.accumulate_iff hI.sound).mpr ⟨htotal, hcarbon, hbio⟩
    obtain ⟨s', hfinal⟩ := (hloop.finalise_iff hreport hacc).mpr ⟨hsum, hleft⟩
    obtain ⟨x, hclose⟩ := closeBatch_final_iff.mpr ⟨batch, hacc, s', hfinal⟩
    exact ⟨x, by rw [hl]; exact hclose⟩

end Close

/-! ### Periods in progress -/

/-- Every stored batch belongs to a period in progress. -/
def Underway (s : State) : Prop :=
  ∀ b p batch, s.batchState (b, p) = some batch →
    ∃ creditType supply processed, InProgress s b p creditType ⟨batch, supply, processed⟩

theorem Underway.initial (admin : Address) : Underway (construct admin) := by
  intro b p batch h
  cases h

/-- A period is in progress in every state that agrees on its entries. -/
theorem InProgress.congr {s s' : State} {progress : Progress}
    (hI : InProgress s b p creditType progress)
    (hinfo : s'.periodInfo (b, p) = s.periodInfo (b, p))
    (hproject : s'.bondProject b = s.bondProject b)
    (htype : s'.bondCreditType b = s.bondCreditType b)
    (hbatch : s'.batchState (b, p) = s.batchState (b, p))
    (hbalance : s'.distributionBalance (b, p) = s.distributionBalance (b, p)) :
    InProgress s' b p creditType progress where
  unfinished := hinfo ▸ hI.unfinished
  project := hproject ▸ hI.project
  type := htype ▸ hI.type
  stored := hbatch ▸ hI.stored
  balance := hbalance ▸ hI.balance
  sound := hI.sound

/-- Calls that leave the tables alone leave the periods in progress alone. -/
theorem SameTables.underway {s s' : State} (h : SameTables s s') (hU : Underway s) :
    Underway s' := by
  unfold SameTables at h
  rw [h]
  intro b p batch hbatch
  obtain ⟨creditType, supply, processed, hI⟩ := hU b p batch hbatch
  exact ⟨creditType, supply, processed, hI.congr rfl rfl rfl rfl rfl⟩

/-- So does the loop over holders. -/
theorem SameBooks.underway {s s' : State} (h : SameBooks s s') (hU : Underway s) :
    Underway s' := by
  unfold SameBooks at h
  rw [h]
  intro b p batch hbatch
  obtain ⟨creditType, supply, processed, hI⟩ := hU b p batch hbatch
  exact ⟨creditType, supply, processed, hI.congr rfl rfl rfl rfl rfl⟩

/-- Storing where a period stands puts it in progress. -/
theorem Underway.save {s : State} {projectId : Bytes32} {progress : Progress} (hU : Underway s)
    (hunfinished : ∀ info, s.periodInfo (b, p) = some info → info.distributed = false)
    (hproject : s.bondProject b = some projectId) (htype : s.bondCreditType b = some creditType)
    (hsound : Sound progress) : Underway (saveProgress s b p progress) := by
  intro b' p' batch hbatch
  by_cases hkey : (b', p') = (b, p)
  · cases hkey
    have hstored := Function.update_self (b, p) (some progress.batch) s.batchState
    cases hstored.symm.trans hbatch
    exact ⟨creditType, progress.totalSubscribed, progress.processedBalance, hunfinished,
      ⟨projectId, hproject⟩, htype, hbatch, Function.update_self _ _ _, hsound⟩
  · have hstored := Function.update_of_ne hkey (some progress.batch) s.batchState
    obtain ⟨creditType', supply, processed, hI⟩ := hU b' p' batch (hstored.symm.trans hbatch)
    exact ⟨creditType', supply, processed, hI.congr rfl rfl rfl hstored
      (Function.update_of_ne hkey _ _)⟩

/-- Closing a period takes it out of progress. -/
theorem finalise_underway {deps : Deps} {s s' : State} {progress : Progress}
    (h : finalise deps s b p progress = .ok s') (hU : Underway s) : Underway s' := by
  simp only [finalise, bind_eq_ok, pure_eq_ok] at h
  obtain ⟨_, -, _, -, _, -, _, -, _, -, _, -, _, -, _, -, rfl⟩ := h
  intro b' p' batch hbatch
  have hkey : (b', p') ≠ (b, p) := by
    intro hkey
    cases hkey
    have hnone := Function.update_self (b, p) none s.batchState
    cases hnone.symm.trans hbatch
  have hstored := Function.update_of_ne hkey none s.batchState
  obtain ⟨creditType, supply, processed, hI⟩ := hU b' p' batch (hstored.symm.trans hbatch)
  exact ⟨creditType, supply, processed, hI.congr (Function.update_of_ne hkey _ _) rfl rfl hstored
    (Function.update_of_ne hkey _ _)⟩

/-- Registering a bond leaves it registered, and the periods in progress alone. -/
theorem registerBond_underway {deps : Deps} {s s' : State} {caller : Address} {b₀ : BondId}
    {projectId : Bytes32} {nonce : ℕ} (h : registerBond deps s caller b₀ projectId nonce = .ok s')
    (hU : Underway s) : Underway s' := by
  simp only [registerBond, bind_eq_ok, pure_eq_ok] at h
  obtain ⟨_, -, _, -, config, -, _, -, _, -, _, -, rfl⟩ := h
  intro b p batch hbatch
  obtain ⟨creditType, supply, processed, hI⟩ := hU b p batch hbatch
  by_cases hb : b = b₀
  · subst hb
    exact ⟨config.creditType, supply, processed, hI.unfinished,
      ⟨projectId, Function.update_self _ _ _⟩, Function.update_self _ _ _, hI.stored, hI.balance,
      hI.sound⟩
  · exact ⟨creditType, supply, processed, hI.congr rfl (Function.update_of_ne hb _ _)
      (Function.update_of_ne hb _ _) rfl rfl⟩

section Distribute

variable {deps : Deps} {s s' : State} {projectId : Bytes32} {reportId : ReportId}
  {progress : Progress} {holders : List (Address × ℤ)} {isFinalBatch : Bool}
  {result : CouponResult}

/-- A batch starts from sound figures: those of a period in progress, or none yet. -/
theorem Underway.start (hU : Underway s)
    (hsupply : ∀ supply, deps.totalSubscribed b = some supply → 0 ≤ supply ∧ supply ≤ maxValue)
    (hstart : startBatch deps s b p projectId creditType reportId = .ok progress) :
    Sound progress := by
  obtain ⟨hbatch, -, hbalance⟩ | ⟨-, hzero, report, hO⟩ := startBatch_ok hstart
  · -- resumed
    obtain ⟨_, supply, processed, hI⟩ := hU b p _ hbatch
    have hsame := hI.balance
    rw [hbalance] at hsame
    cases hsame
    exact hI.sound
  · -- opened on a snapshot, with nothing paid yet
    obtain ⟨hnonneg, hle⟩ := hsupply _ hO.subscribed
    have hbatch := hO.computed
    refine ⟨⟨hzero.ge, hzero.trans_le hnonneg⟩, hle, ?_, ?_⟩
    · rw [hbatch]
    · rw [hbatch]
      exact le_refl (0 : Credits)

/-- The loop only adds to its figures, and it stays within the snapshot. -/
theorem Sound.advance {l : LoopState} {batch : BatchState} (hS : Sound progress)
    (hfold : holders.foldlM
      (processHolder b p creditType progress.batch progress.totalSubscribed)
      ⟨s, progress.processedBalance, 0, 0, 0, 0⟩ = .ok l)
    (hacc : accumulate progress.batch l = .ok batch) : Sound (progress.advance batch l) := by
  have hgrown : (0 ≤ l.processedBalance ∧ l.processedBalance ≤ progress.totalSubscribed) ∧
      0 ≤ l.totalHolderCredits ∧ 0 ≤ l.credits := by
    refine foldlM_invariant (P := fun l : LoopState =>
      (0 ≤ l.processedBalance ∧ l.processedBalance ≤ progress.totalSubscribed) ∧
        0 ≤ l.totalHolderCredits ∧ 0 ≤ l.credits) hfold ?_ ?_
    · exact ⟨hS.processed, le_refl _, le_refl _⟩
    · rintro l₁ entry l₂ - ⟨⟨hnonneg, hwithin⟩, htotal, hcredits⟩ hstep
      -- a holder is skipped or paid
      obtain ⟨rfl, -⟩ | hpaid := processHolder_ok hstep
      · exact ⟨⟨hnonneg, hwithin⟩, htotal, hcredits⟩
      · refine ⟨⟨?_, hpaid.within⟩, ?_, ?_⟩
        · rw [hpaid.processed]
          exact add_nonneg hnonneg hpaid.positive.le
        · rw [hpaid.total]
          exact add_nonneg htotal (le_max_right _ _)
        · rw [hpaid.credits]
          exact add_nonneg hcredits (payout_nonneg _)
  obtain ⟨hprocessed, htotal, hcredits⟩ := hgrown
  have hbatch := accumulate_ok hacc
  refine ⟨hprocessed, hS.supply, ?_, ?_⟩
  · show 0 ≤ batch.distributedSoFar
    rw [hbatch]
    exact add_nonneg hS.total htotal
  · show 0 ≤ soFar batch
    rw [hbatch]
    exact add_nonneg hS.paid hcredits

/-- **A batch** leaves every period with a stored batch in progress. The one it works on, and all
others because it does not touch them. -/
theorem distribute_underway (hU : Underway s)
    (hsupply : ∀ supply, deps.totalSubscribed b = some supply → 0 ≤ supply ∧ supply ≤ maxValue)
    (h : distribute deps s b p holders reportId isFinalBatch = .ok (s', result)) :
    Underway s' := by
  simp only [distribute, bind_eq_ok, ensure_eq_ok, orError_eq_ok] at h
  obtain ⟨_, hunfinished, projectId, hproject, creditType, htype, progress, hstart, l, hfold, batch,
    hacc, h⟩ := h
  have hsound := hU.start hsupply hstart
  have hbooks := sameBooks_of_fold hfold
  obtain ⟨hinfos, -, hprojects, htypes⟩ := hbooks.periods
  -- the period is saved, the loop runs, and the period is saved again
  have hloop : Underway l.storage := hbooks.underway (hU.save hunfinished hproject htype hsound)
  have hsaved : Underway (saveProgress l.storage b p (progress.advance batch l)) := by
    refine hloop.save ?_ (hprojects ▸ hproject) (htypes ▸ htype) (hsound.advance hfold hacc)
    rw [hinfos]
    exact hunfinished
  cases isFinalBatch with
  | false =>
    rw [if_neg Bool.false_ne_true, pure_eq_ok, Prod.mk.injEq] at h
    exact h.1 ▸ hsaved
  | true =>
    rw [if_pos rfl, bind_eq_ok] at h
    obtain ⟨s₂, hfinal, h⟩ := h
    rw [pure_eq_ok, Prod.mk.injEq] at h
    exact h.1 ▸ finalise_underway hfinal hsaved

/-- **One call** keeps it so. Only a distribution opens or closes a period. -/
theorem Underway.step {op : Op} {r : Ret} (hU : Underway s)
    (hsupply : ∀ b supply, deps.totalSubscribed b = some supply → 0 ≤ supply ∧ supply ≤ maxValue)
    (h : exec deps s op = .ok (s', r)) : Underway s' := by
  cases exec_tables h with
  | register hcall => exact registerBond_underway hcall hU
  | @distribute _ b _ _ _ _ _ nonces _ hcall =>
    have hnonces : SameTables s { s with nonce := nonces } := rfl
    exact distribute_underway (hnonces.underway hU) (hsupply b) hcall
  | frame _ hsame => exact hsame.underway hU

end Distribute

/-! ### What is still to be processed -/

/-- The holders of a period that were processed. -/
def marks (s : State) (b : BondId) (p : ℕ) : Address → Bool :=
  fun a => s.holderDistributed (b, p, a)

section Outstanding

variable {deps : Deps} {s s' : State} {reportId : ReportId} {holders : List (Address × ℤ)}
  {result : CouponResult} {balance : Address → ℤ}

/-- Paying an entry marks its address. -/
theorem Paid.marks_eq {batch : BatchState} {supply : ℤ} {l l₁ : LoopState}
    (h : Paid b p creditType batch supply entry l l₁) :
    marks l₁.storage b p = Function.update (marks l.storage b p) entry.1 true := by
  unfold marks
  rw [h.marked]
  exact FinSum.section_update_self (e := fun a => (b, p, a))
    (fun x y hxy => (Prod.mk.inj (Prod.mk.inj hxy).2).2) _ entry.1 true

/-- Paying a holder its balance moves that balance from what is outstanding to what is processed. -/
theorem Paid.outstanding {batch : BatchState} {supply : ℤ} {l l₁ : LoopState}
    {entry : Address × ℤ} (h : Paid b p creditType batch supply entry l l₁)
    (hfinite : balance.support.Finite) (hentry : entry.2 = balance entry.1) :
    l₁.processedBalance + FinSum.unmarked (marks l₁.storage b p) balance =
      l.processedBalance + FinSum.unmarked (marks l.storage b p) balance := by
  rw [h.marks_eq, FinSum.unmarked_mark hfinite h.fresh, h.processed, hentry]
  ring

/-- So does a loop over holders that are listed with their balances. -/
theorem foldlM_outstanding {batch : BatchState} {supply : ℤ} {l l' : LoopState}
    (hfinite : balance.support.Finite) (hlisted : ∀ entry ∈ holders, entry.2 = balance entry.1)
    (hfold : holders.foldlM (processHolder b p creditType batch supply) l = .ok l') :
    l'.processedBalance + FinSum.unmarked (marks l'.storage b p) balance =
      l.processedBalance + FinSum.unmarked (marks l.storage b p) balance := by
  refine foldlM_invariant (P := fun l' : LoopState =>
    l'.processedBalance + FinSum.unmarked (marks l'.storage b p) balance =
      l.processedBalance + FinSum.unmarked (marks l.storage b p) balance) hfold rfl ?_
  intro l₁ entry l₂ hentry hsame hstep
  obtain ⟨rfl, -⟩ | hpaid := processHolder_ok hstep
  · exact hsame
  · exact (hpaid.outstanding hfinite (hlisted entry hentry)).trans hsame

/-- **A batch that leaves its period open**, over holders that are listed with their balances. What
was processed and what is not yet marked make up the same as before. -/
theorem distribute_outstanding (hfinite : balance.support.Finite)
    (hlisted : ∀ entry ∈ holders, entry.2 = balance entry.1)
    (h : distribute deps s b p holders reportId false = .ok (s', result)) :
    ∃ projectId creditType progress processed,
      startBatch deps s b p projectId creditType reportId = .ok progress ∧
      s'.distributionBalance (b, p) = some (progress.totalSubscribed, processed) ∧
      processed + FinSum.unmarked (marks s' b p) balance =
        progress.processedBalance + FinSum.unmarked (marks s b p) balance := by
  simp only [distribute, bind_eq_ok, orError_eq_ok, if_neg Bool.false_ne_true, pure_eq_ok,
    Prod.mk.injEq] at h
  obtain ⟨_, -, projectId, -, creditType, -, progress, hstart, l, hfold, batch, -, rfl, -⟩ := h
  exact ⟨projectId, creditType, progress, l.processedBalance, hstart, Function.update_self _ _ _,
    foldlM_outstanding hfinite hlisted hfold⟩

/-- A call on period `(b, p)` leaves the snapshots of the other periods alone. -/
theorem distribute_balance_of_ne {isFinalBatch : Bool}
    (h : distribute deps s b p holders reportId isFinalBatch = .ok (s', result)) {b' : BondId}
    {p' : ℕ} (hne : (b', p') ≠ (b, p)) :
    s'.distributionBalance (b', p') = s.distributionBalance (b', p') := by
  simp only [distribute, bind_eq_ok] at h
  obtain ⟨_, -, projectId, -, creditType, -, progress, -, l, hfold, batch, -, h⟩ := h
  have hbooks := sameBooks_of_fold hfold
  unfold SameBooks at hbooks
  have hloop : l.storage.distributionBalance (b', p') = s.distributionBalance (b', p') := by
    rw [hbooks]
    exact Function.update_of_ne hne _ _
  have hsaved : ∀ progress' : Progress,
      (saveProgress l.storage b p progress').distributionBalance (b', p') =
        s.distributionBalance (b', p') :=
    fun progress' => (Function.update_of_ne hne _ _).trans hloop
  split at h
  · simp only [finalise, bind_eq_ok, pure_eq_ok, Prod.mk.injEq] at h
    obtain ⟨_, ⟨_, -, _, -, _, -, _, -, _, -, _, -, _, -, _, -, rfl⟩, rfl, -⟩ := h
    exact (Function.update_of_ne hne _ _).trans (hsaved _)
  · cases h
    exact hsaved _

end Outstanding

end CouponEngine
end NbsBond
