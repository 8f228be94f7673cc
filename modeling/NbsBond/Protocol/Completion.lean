import NbsBond.CouponEngine.Completion
import NbsBond.Protocol.Batching

/-!
# Completing a batched distribution

The first batch of a period takes a snapshot of `total_subscribed`, and the period can only be
closed when the balances processed add up to it. Balances go on moving between the batches: what a
holder receives after it was processed is never processed, and what it received from a holder that
was processed before is processed twice.

`completion` says when the completing call, over everybody who has a balance and was not processed,
succeeds: exactly when what was processed and what these holders have now make up the snapshot, and
no checked operation leaves its range. The first condition is true in every run whose batches list
current balances, as long as nothing moves it (`Shifts`): a transfer between a processed and an
unprocessed holder, a subscription or a redemption of an unprocessed one. `completion_blocked` is a
run with one such transfer.
-/

namespace NbsBond
namespace Protocol

open Soroban Int128 OracleConsumer CouponEngine

variable {b : BondId} {p : ℕ} {holders : List (Address × ℤ)} {w w' : World}

/-! ### Who is still to be processed -/

/-- Everybody who holds the bond and was not processed in the period, with the balance
`BondIssuer` reports. -/
structure Remaining (w : World) (b : BondId) (p : ℕ) (holders : List (Address × ℤ)) : Prop where
  distinct : (holders.map Prod.fst).Nodup
  listed : ∀ a n, (a, n) ∈ holders ↔ n = BondIssuer.getHolderBalance w.issuer b a ∧ 0 < n ∧
    w.engine.holderDistributed (b, p, a) = false

/-- What they hold. -/
noncomputable def outstanding (w : World) (b : BondId) (p : ℕ) : ℤ :=
  FinSum.unmarked (marks w.engine b p) (BondIssuer.balances w.issuer b)

theorem Remaining.mem (h : Remaining w b p holders) (hI : BondIssuer.LedgerInv w.issuer)
    (a : Address) : a ∈ holders.map Prod.fst ↔
      marks w.engine b p a = false ∧ BondIssuer.balances w.issuer b a ≠ 0 := by
  constructor
  · intro ha
    obtain ⟨⟨a, n⟩, hentry, rfl⟩ := List.mem_map.mp ha
    obtain ⟨rfl, hpos, hmark⟩ := (h.listed a n).mp hentry
    exact ⟨hmark, hpos.ne'⟩
  · rintro ⟨hmark, hne⟩
    have hpos := lt_of_le_of_ne (hI.nonneg b a) hne.symm
    exact List.mem_map.mpr ⟨(a, _), (h.listed a _).mpr ⟨rfl, hpos, hmark⟩, rfl⟩

/-- The listed balances add up to what is outstanding. -/
theorem Remaining.sum (h : Remaining w b p holders) (hI : BondIssuer.LedgerInv w.issuer) :
    (holders.map Prod.snd).sum = outstanding w b p := by
  have hbalances : holders.map Prod.snd =
      (holders.map Prod.fst).map (BondIssuer.balances w.issuer b) := by
    rw [List.map_map]
    refine List.map_congr_left ?_
    intro entry hentry
    exact ((h.listed entry.1 entry.2).mp hentry).1
  calc (holders.map Prod.snd).sum
      = ((holders.map Prod.fst).map (BondIssuer.balances w.issuer b)).sum := by rw [hbalances]
    _ = outstanding w b p := FinSum.sum_unmarked h.distinct (h.mem hI)

theorem Remaining.unprocessed (h : Remaining w b p holders) :
    Unprocessed w.engine b p holders where
  distinct := h.distinct
  fresh entry hentry := ((h.listed entry.1 entry.2).mp hentry).2.2
  positive entry hentry := ((h.listed entry.1 entry.2).mp hentry).2.1

/-- There is such a list in every reachable state. -/
theorem exists_remaining {h : List Call} (hrun : Run h w) (b : BondId) (p : ℕ) :
    ∃ holders, Remaining w b p holders := by
  have hI := ledger_of_run hrun
  -- the support of the balances is finite; keep the unmarked part of it
  let addresses : List Address :=
    ((hI.finite b).toFinset.filter fun a => marks w.engine b p a = false).toList
  have hmem : ∀ a, a ∈ addresses ↔ BondIssuer.balances w.issuer b a ≠ 0 ∧
      marks w.engine b p a = false := by
    intro a
    rw [Finset.mem_toList, Finset.mem_filter, Set.Finite.mem_toFinset, Function.mem_support]
  refine ⟨addresses.map fun a => (a, BondIssuer.balances w.issuer b a), ?_, ?_⟩
  · rw [List.map_map]
    have hid : (Prod.fst ∘ fun a => (a, BondIssuer.balances w.issuer b a)) = id := rfl
    rw [hid, List.map_id]
    exact Finset.nodup_toList _
  · intro a n
    rw [List.mem_map]
    constructor
    · rintro ⟨a, ha, ⟨⟩⟩
      obtain ⟨hne, hmark⟩ := (hmem a).mp ha
      exact ⟨rfl, lt_of_le_of_ne (hI.nonneg b a) hne.symm, hmark⟩
    · rintro ⟨rfl, hpos, hmark⟩
      exact ⟨a, (hmem a).mpr ⟨hpos.ne', hmark⟩, rfl⟩

/-- The same list, computed from a list of all holders. -/
def remaining (w : World) (b : BondId) (p : ℕ) (all : List Address) : List (Address × ℤ) :=
  (all.filter fun a => 0 < BondIssuer.getHolderBalance w.issuer b a ∧
    w.engine.holderDistributed (b, p, a) = false).map
      fun a => (a, BondIssuer.getHolderBalance w.issuer b a)

theorem Remaining.computed (hI : BondIssuer.LedgerInv w.issuer) {st : BondIssuer.BondState}
    (hst : w.issuer.bondState b = some st) {all : List Address} (hall : all.Nodup)
    (hsum : (all.map fun a => BondIssuer.getHolderBalance w.issuer b a).sum = st.totalSubscribed) :
    Remaining w b p (remaining w b p all) := by
  refine ⟨?_, ?_⟩
  · unfold remaining
    rw [List.map_map]
    have hid : (Prod.fst ∘ fun a => (a, BondIssuer.getHolderBalance w.issuer b a)) = id := rfl
    rw [hid, List.map_id]
    exact hall.filter _
  · intro a n
    unfold remaining
    rw [List.mem_map]
    constructor
    · rintro ⟨a, ha, ⟨⟩⟩
      exact ⟨rfl, of_decide_eq_true (List.mem_filter.mp ha).2⟩
    · rintro ⟨rfl, hpos, hmark⟩
      refine ⟨a, List.mem_filter.mpr ⟨?_, decide_eq_true ⟨hpos, hmark⟩⟩, rfl⟩
      -- a listed sum that makes up the total leaves nothing to an address off the list
      by_contra ha
      have hzero : BondIssuer.balances w.issuer b a = 0 :=
        FinSum.eq_zero_of_sum (hI.finite b) (hI.nonneg b) hall
          (hsum.trans (hI.total b st hst).symm) ha
      exact hpos.ne' hzero

/-! ### Periods in progress -/

theorem capped_of_run {h : List Call} (hrun : Run h w) : BondIssuer.Capped w.issuer := by
  refine hrun.invariant (P := fun w => BondIssuer.Capped w.issuer) ?_ ?_
  · intro w hinit
    obtain ⟨admin, hadmin⟩ := hinit.issuer
    rw [hadmin]
    exact BondIssuer.Capped.initial admin
  · intro t w op r w' hC hexec
    cases step_of_exec hexec with
    | issuer hop => exact hC.step hop
    | registry _ _ _ => exact hC
    | oracle _ => exact hC
    | engine _ => exact hC
    | retirement _ => exact hC

/-- The snapshot of a period is a total of the issuer: not negative, and within its cap. -/
theorem supply_of_run {h : List Call} (hrun : Run h w) {b : BondId} {supply : ℤ}
    (hsupply : w.deps.totalSubscribed b = some supply) : 0 ≤ supply ∧ supply ≤ maxValue := by
  obtain ⟨st, hst, rfl⟩ := World.deps_totalSubscribed hsupply
  exact ⟨(ledger_of_run hrun).total_nonneg hst, capped_of_run hrun b st hst⟩

/-- Every open period of a reached state is in progress. -/
theorem underway_of_run {h : List Call} (hrun : Run h w) : Underway w.engine := by
  apply engine_of_run hrun Underway.initial
  · intro h w op s r hrun hU hop
    exact hU.step (fun b supply => supply_of_run hrun) hop
  · intro s s' hsame hU
    exact hsame.underway hU

/-! ### What moves the outstanding balance -/

/-- The bond and the holders a batch lists. -/
def Op.lists : Op → Option (BondId × List (Address × ℤ))
  | .engine (.distributeCoupon _ b _ holders _ _ _) => some (b, holders)
  | _ => none

/-- A batch lists holders with the balance `BondIssuer` reports for them. -/
def Honest (w : World) (op : Op) : Prop :=
  ∀ x ∈ op.lists, ∀ entry ∈ x.2, entry.2 = BondIssuer.getHolderBalance w.issuer x.1 entry.1

instance (w : World) (op : Op) : Decidable (Honest w op) :=
  inferInstanceAs (Decidable (∀ _ ∈ _, _))

/-- A call that would change what the unprocessed holders of a period hold together. -/
def Shifts (b : BondId) (p : ℕ) (w : World) : Op → Prop
  | .issuer (.subscribe investor b' _ _) =>
    b' = b ∧ w.engine.holderDistributed (b, p, investor) = false
  | .issuer (.redeem holder b' _ _) =>
    b' = b ∧ w.engine.holderDistributed (b, p, holder) = false
  | .issuer (.transfer sender recipient b' _ _) =>
    b' = b ∧ w.engine.holderDistributed (b, p, sender) ≠
      w.engine.holderDistributed (b, p, recipient)
  | _ => False

/-- While the period is open, its snapshot is what was processed and what is outstanding. -/
def Balanced (b : BondId) (p : ℕ) (w : World) : Prop :=
  ∀ supply processed, w.engine.batchState (b, p) ≠ none →
    w.engine.distributionBalance (b, p) = some (supply, processed) →
    processed + outstanding w b p = supply

theorem Balanced.congr (hB : Balanced b p w)
    (hbatch : w'.engine.batchState (b, p) = w.engine.batchState (b, p))
    (hbalance : w'.engine.distributionBalance (b, p) = w.engine.distributionBalance (b, p))
    (hout : outstanding w' b p = outstanding w b p) : Balanced b p w' := by
  intro supply processed hopen hstored
  rw [hbatch] at hopen
  rw [hbalance] at hstored
  rw [hout]
  exact hB supply processed hopen hstored

/-- A call of `BondIssuer` that does not shift the period leaves what is outstanding alone. -/
theorem outstanding_issuer {now : ℕ} {op : BondIssuer.Op} {s : BondIssuer.State}
    {r : Option BondId} (hI : BondIssuer.LedgerInv w.issuer) (hshift : ¬ Shifts b p w (.issuer op))
    (h : BondIssuer.exec now w.issuer op = .ok (s, r)) :
    outstanding { w with issuer := s } b p = outstanding w b p := by
  have hfinite := hI.finite b
  -- one write to the balance of a processed holder, or to another bond
  have hwrite : ∀ a b' v, ¬ (b' = b ∧ w.engine.holderDistributed (b, p, a) = false) →
      s.holderBalance = Function.update w.issuer.holderBalance (b', a) v →
      outstanding { w with issuer := s } b p = outstanding w b p := by
    intro a b' v hquiet hbalance
    unfold outstanding
    by_cases hb : b' = b
    · subst hb
      have hmark : marks w.engine b' p a = true :=
        Bool.eq_true_of_not_eq_false fun hmark => hquiet ⟨rfl, hmark⟩
      rw [BondIssuer.balances_update_self hbalance, FinSum.unmarked_write hfinite, hmark,
        if_pos rfl, add_zero]
    · rw [BondIssuer.balances_update_of_ne (Ne.symm hb) hbalance]
  have hsame : s.holderBalance = w.issuer.holderBalance →
      outstanding { w with issuer := s } b p = outstanding w b p := by
    intro hbalance
    unfold outstanding BondIssuer.balances
    rw [hbalance]
  cases BondIssuer.exec_ledger h with
  | issue _ _ _ _ hbalance => exact hsame hbalance
  | subscribe _ _ _ _ _ _ _ hbalance => exact hwrite _ _ _ hshift hbalance
  | redeem _ _ _ _ _ _ hbalance => exact hwrite _ _ _ hshift hbalance
  | mature _ _ _ _ hbalance => exact hsame hbalance
  | @transfer sender recipient b' amount nonce hne _ _ _ _ _ _ hbalance =>
    -- the sender's balance is written first, then the recipient's
    let s₁ : BondIssuer.State := { w.issuer with
      holderBalance := Function.update w.issuer.holderBalance (b', sender)
        (w.issuer.holderBalance (b', sender) - amount) }
    have hbalance₁ : s₁.holderBalance = Function.update w.issuer.holderBalance (b', sender)
        (w.issuer.holderBalance (b', sender) - amount) := rfl
    have hbalance₂ : s.holderBalance = Function.update s₁.holderBalance (b', recipient)
        (w.issuer.holderBalance (b', recipient) + amount) := hbalance
    unfold outstanding
    by_cases hb : b' = b
    · subst hb
      have hmarks : marks w.engine b' p sender = marks w.engine b' p recipient :=
        not_not.mp fun hmarks => hshift ⟨rfl, hmarks⟩
      have hrecipient : Function.update (BondIssuer.balances w.issuer b') sender
          (w.issuer.holderBalance (b', sender) - amount) recipient =
            w.issuer.holderBalance (b', recipient) := Function.update_of_ne hne _ _
      rw [BondIssuer.balances_update_self hbalance₂, BondIssuer.balances_update_self hbalance₁,
        FinSum.unmarked_write (FinSum.support_update hfinite _ _), hrecipient,
        FinSum.unmarked_write hfinite, hmarks]
      split
      · rw [add_zero, add_zero]
      · -- both count, and what one loses the other gains
        change _ + (_ - amount - w.issuer.holderBalance (b', sender)) + _ = _
        ring
    · rw [BondIssuer.balances_update_of_ne (Ne.symm hb) hbalance₂,
        BondIssuer.balances_update_of_ne (Ne.symm hb) hbalance₁]

/-- Calls that leave the tables alone. -/
theorem Balanced.tables (hB : Balanced b p w) (hissuer : w'.issuer = w.issuer)
    (h : SameTables w.engine w'.engine) : Balanced b p w' := by
  refine hB.congr ?_ ?_ ?_
  · rw [h.periods.batches]
  · rw [h.balances]
  · unfold outstanding marks
    rw [h.periods.marks, hissuer]

/-- Registering a bond. -/
theorem Balanced.register {caller : Address} {b₀ : BondId} {projectId : Bytes32} {nonce : ℕ}
    {e : CouponEngine.State} (hB : Balanced b p w)
    (h : registerBond w.deps w.engine caller b₀ projectId nonce = .ok e) :
    Balanced b p { w with engine := e } := by
  simp only [registerBond, bind_eq_ok, pure_eq_ok] at h
  obtain ⟨_, -, _, -, _, -, _, -, _, -, _, -, rfl⟩ := h
  exact hB

/-- A batch of another period leaves this one alone. -/
theorem Balanced.foreign {b₀ : BondId} {p₀ : ℕ} {reportId : ReportId} {isFinalBatch : Bool}
    {nonces : Address → ℕ} {result : CouponResult} {e : CouponEngine.State} (hB : Balanced b p w)
    (hne : (b, p) ≠ (b₀, p₀))
    (h : distribute w.deps { w.engine with nonce := nonces } b₀ p₀ holders reportId isFinalBatch =
      .ok (e, result)) : Balanced b p { w with engine := e } := by
  have hmarks : marks e b p = marks w.engine b p := funext (distribute_marks h hne)
  refine hB.congr ?_ (distribute_balance_of_ne h hne) ?_
  · obtain ⟨-, -, _, _, _, batch, -, -, -, -, ⟨-, -, hbatches⟩ | ⟨-, _, -, -, hbatches⟩⟩ :=
      distribute_periods h
    · exact (congrFun hbatches (b, p)).trans (Function.update_of_ne hne _ _)
    · exact (congrFun hbatches (b, p)).trans (Function.update_of_ne hne _ _)
  · unfold outstanding
    rw [hmarks]

/-- Nobody was processed in a period that was not started. -/
theorem outstanding_unstarted (hI : BondIssuer.LedgerInv w.issuer) (hM : Marked w.engine)
    (hbatch : w.engine.batchState (b, p) = none) (hinfo : w.engine.periodInfo (b, p) = none)
    {supply : ℤ} (hsupply : w.deps.totalSubscribed b = some supply) :
    outstanding w b p = supply := by
  have hnobody : ∀ a, marks w.engine b p a = false := by
    intro a
    refine Bool.eq_false_iff.mpr ?_
    intro hmark
    rcases hM b p a hmark with h | h
    · exact h hbatch
    · exact h hinfo
  obtain ⟨st, hst, rfl⟩ := World.deps_totalSubscribed hsupply
  calc outstanding w b p
      = ∑ᶠ a, BondIssuer.balances w.issuer b a := FinSum.unmarked_none hnobody
    _ = st.totalSubscribed := hI.total b st hst

/-- **A batch** of the period itself, over holders that are listed with their balances. -/
theorem Balanced.batch {reportId : ReportId} {isFinalBatch : Bool} {nonces : Address → ℕ}
    {result : CouponResult} {e : CouponEngine.State} (hI : BondIssuer.LedgerInv w.issuer)
    (hM : Marked w.engine) (hP : PeriodInv w) (hB : Balanced b p w)
    (hlisted : ∀ entry ∈ holders, entry.2 = BondIssuer.balances w.issuer b entry.1)
    (h : distribute w.deps { w.engine with nonce := nonces } b p holders reportId isFinalBatch =
      .ok (e, result)) : Balanced b p { w with engine := e } := by
  obtain ⟨hunfinished, -, _, _, _, batch, -, -, -, -, hafter⟩ := distribute_periods h
  intro supply processed hopen hstored
  cases isFinalBatch with
  | true =>
    -- the period is closed
    obtain ⟨hfinal, -⟩ | ⟨-, _, -, -, hbatches⟩ := hafter
    · cases hfinal
    · exact absurd ((congrFun hbatches (b, p)).trans (Function.update_self _ _ _)) hopen
  | false =>
    obtain ⟨projectId, creditType, progress, processed', hstart, hbalance, hsum⟩ :=
      distribute_outstanding (hI.finite b) hlisted h
    change e.distributionBalance (b, p) = some (supply, processed) at hstored
    rw [hbalance] at hstored
    cases hstored
    change processed + outstanding { w with engine := e } b p =
      progress.processedBalance + outstanding w b p at hsum
    rw [hsum]
    obtain ⟨hbatch, -, hbefore⟩ | ⟨hnone, hzero, report, hO⟩ := startBatch_ok hstart
    · -- a batch that resumes starts from a balanced period
      refine hB _ _ ?_ hbefore
      change w.engine.batchState (b, p) = some progress.batch at hbatch
      rw [hbatch]
      exact Option.some_ne_none _
    · -- the first batch takes the snapshot
      rw [hzero, zero_add]
      exact outstanding_unstarted hI hM hnone (hP.closed_once hunfinished) hO.subscribed

/-- **One call** keeps the period balanced, if it does not shift it and a batch lists current
balances. -/
theorem Step.balanced {now : ℕ} {op : Op} {r : Ret} (hI : BondIssuer.LedgerInv w.issuer)
    (hM : Marked w.engine) (hP : PeriodInv w) (hB : Balanced b p w) (hhonest : Honest w op)
    (hshift : w.engine.batchState (b, p) ≠ none → ¬ Shifts b p w op)
    (hstep : Step now w op w' r) : Balanced b p w' := by
  cases hstep with
  | issuer h =>
    intro supply processed hopen hstored
    rw [outstanding_issuer hI (hshift hopen) h]
    exact hB supply processed hopen hstored
  | registry _ _ _ => exact hB
  | oracle _ => exact hB
  | engine h =>
    cases exec_tables h with
    | register hcall => exact hB.register hcall
    | @distribute _ b₀ p₀ _ _ _ _ _ _ hcall =>
      -- a batch of another period leaves this one as it was
      by_cases hkey : (b, p) = (b₀, p₀)
      · obtain ⟨rfl, rfl⟩ := Prod.mk.inj hkey
        exact hB.batch hI hM hP (hhonest _ rfl) hcall
      · exact hB.foreign hkey hcall
    | frame _ hsame => exact hB.tables rfl hsame
  | retirement h =>
    obtain ⟨_, _, _, _, _, _, _, _, _, _, -, hdeduct⟩ | ⟨-, rfl⟩ := CreditRetirement.exec_deducts h
    · exact hB.tables rfl (deductCredits_tables hdeduct)
    · exact hB

/-- A period is balanced after a run that did not shift it while it was open. -/
theorem balanced_of_run {h : List Call} (hrun : Run h w) (b : BondId) (p : ℕ)
    (hcalls : ∀ c ∈ h, Honest c.pre c.op ∧
      (c.pre.engine.batchState (b, p) ≠ none → ¬ Shifts b p c.pre c.op)) : Balanced b p w := by
  refine hrun.induction (P := fun h w => (∀ c ∈ h, Honest c.pre c.op ∧
      (c.pre.engine.batchState (b, p) ≠ none → ¬ Shifts b p c.pre c.op)) → Balanced b p w)
    ?_ ?_ hcalls
  · intro w hinit _ supply processed hopen _
    obtain ⟨admin, hadmin⟩ := hinit.engine
    rw [hadmin] at hopen
    -- no period is open in a new deployment
    exact absurd rfl hopen
  · intro h w t op r w' hrun _ hexec ih hcalls
    rw [List.forall_mem_cons] at hcalls
    obtain ⟨⟨hhonest, hshift⟩, hcalls⟩ := hcalls
    exact (step_of_exec hexec).balanced (ledger_of_run hrun) (marked_of_run hrun)
      (periods_of_run hrun) (ih hcalls) hhonest hshift

/-! ### The completing call -/

/-- The completing call succeeds and closes the period. -/
def Completes (now : ℕ) (w : World) (admin : Address) (b : BondId) (p : ℕ) (reportId : ReportId)
    (holders : List (Address × ℤ)) : Prop :=
  ∃ w' ret info, machine.exec now w (couponCall w admin b p reportId holders true) = .ok (w', ret) ∧
    w'.engine.periodInfo (b, p) = some info ∧ info.distributed = true

/-- What was processed and what the listed holders have make up the snapshot of
`total_subscribed`. -/
def Settled (w : World) (b : BondId) (p : ℕ) (holders : List (Address × ℤ)) : Prop :=
  ∃ supply processed, w.engine.distributionBalance (b, p) = some (supply, processed) ∧
    processed + (holders.map Prod.snd).sum = supply

/-- The checked operations of the call stay in range. -/
def Computable (w : World) (b : BondId) (batch : BatchState) (holders : List (Address × ℤ)) :
    Prop :=
  ∃ creditType, w.engine.bondCreditType b = some creditType ∧
    Arithmetic w.engine b creditType batch holders

/-- For the admin, with the nonce of the moment, the call is the distribution. -/
theorem completes_iff {admin : Address} (hadmin : w.engine.admin = some admin) {now : ℕ}
    {reportId : ReportId} :
    Completes now w admin b p reportId holders ↔
      ∃ x, distribute w.deps { w.engine with
        nonce := Function.update w.engine.nonce admin (w.engine.nonce admin + 1) } b p holders
          reportId true = .ok x := by
  unfold Completes
  simp only [exec_couponCall, bind_eq_ok, liftError_eq_ok, requireAdmin_eq_ok, pure_eq_ok,
    Prod.mk.injEq]
  constructor
  · rintro ⟨_, _, _, ⟨x, ⟨_, -, h⟩, -⟩, -⟩
    exact ⟨x, h⟩
  · rintro ⟨⟨e, result⟩, h⟩
    obtain ⟨-, -, _, _, _, batch, -, -, -, -, ⟨hfinal, -⟩ | ⟨-, report, -, hinfos, -⟩⟩ :=
      distribute_periods h
    · cases hfinal
    · have hinfo := (congrFun hinfos (b, p)).trans (Function.update_self _ _ _)
      exact ⟨{ w with engine := e }, _, _, ⟨(e, result), ⟨(), hadmin, h⟩, rfl, rfl⟩, hinfo, rfl⟩

/-- **Completing a batched distribution.** In every reachable state in which a period is open, the
completing call over everybody who holds the bond and was not processed yet succeeds and closes the
period if and only if the period is settled and the checked operations stay in range. It is settled
after every run whose batches list current balances and in which no call shifted the period while it
was open. -/
theorem completion {h : List Call} (hrun : Run h w) {batch : BatchState}
    (hopen : w.engine.batchState (b, p) = some batch) {admin : Address}
    (hadmin : w.engine.admin = some admin) (hremaining : Remaining w b p holders) (now : ℕ) :
    (Completes now w admin b p batch.reportId holders ↔
      Settled w b p holders ∧ Computable w b batch holders) ∧
    ((∀ c ∈ h, Honest c.pre c.op ∧
      (c.pre.engine.batchState (b, p) ≠ none → ¬ Shifts b p c.pre c.op)) →
      Settled w b p holders) := by
  have hledger := ledger_of_run hrun
  obtain ⟨creditType, supply, processed, hI⟩ := underway_of_run hrun b p batch hopen
  obtain ⟨report, hbacked, -⟩ := (periods_of_run hrun).batches b p batch hopen
  refine ⟨?_, ?_⟩
  · let nonces := Function.update w.engine.nonce admin (w.engine.nonce admin + 1)
    have hI' : InProgress { w.engine with nonce := nonces } b p creditType
        ⟨batch, supply, processed⟩ := hI.congr rfl rfl rfl rfl rfl
    have hU : Unprocessed { w.engine with nonce := nonces } b p holders :=
      ⟨hremaining.distinct, hremaining.unprocessed.fresh, hremaining.unprocessed.positive⟩
    have hreport : w.deps.getReport batch.reportId = some report :=
      World.deps_getReport.mpr hbacked.found
    have hfinal := hI'.distribute_final_iff hU hreport
    rw [completes_iff hadmin]
    refine hfinal.trans (and_congr ?_ ?_)
    · have hbalance := hI.balance
      constructor
      · intro hsum
        exact ⟨supply, processed, hbalance, hsum⟩
      · rintro ⟨supply', processed', hstored, hsum⟩
        rw [hbalance] at hstored
        cases hstored
        exact hsum
    · -- the nonce does not matter to the arithmetic
      constructor
      · intro hA
        exact ⟨creditType, hI.type, hA.congr rfl rfl rfl rfl⟩
      · rintro ⟨creditType', htype, hA⟩
        rw [hI.type] at htype
        cases htype
        exact hA.congr rfl rfl rfl rfl
  · intro hcalls
    refine ⟨supply, processed, hI.balance, ?_⟩
    rw [hremaining.sum hledger]
    refine balanced_of_run hrun b p hcalls supply processed ?_ hI.balance
    rw [hopen]
    exact Option.some_ne_none _

/-- Two holders with ten tokens each, of which the first was processed. -/
def halfDistributed : List (ℕ × Op) :=
  onboard ⟨0⟩ ⟨5⟩ ⟨1⟩ ⟨2⟩ ⟨100⟩ ⟨102⟩ 7 ++
  [(1, .oracle (.submitReport ⟨1⟩ 1 0 10 50000 .absent "VM0007" 3 0)),
    (1, .oracle (.verifyReport ⟨2⟩ 1 0)),
    (1, .issuer (.issueBond ⟨0⟩ ⟨7, 1000, [50], .carbon, 9000000, 100⟩ 0)),
    (1, .issuer (.subscribe ⟨8⟩ 1 10 0)),
    (1, .issuer (.subscribe ⟨9⟩ 1 10 0)),
    (1, .engine (.registerBond ⟨0⟩ 1 7 0)),
    (2, .engine (.distributeCoupon ⟨0⟩ 1 0 [(⟨8⟩, 10)] 1 1 false))]

/-- What is observed of an example: period 0 of bond 1 is open on report 1, and `holders` are those
still to be processed. -/
def Observed (w : World) (holders : List (Address × ℤ)) : Prop :=
  (w.engine.batchState (1, 0)).map (·.reportId) = some 1 ∧ w.engine.admin = some ⟨0⟩ ∧
    (w.issuer.bondState 1).map (·.totalSubscribed) =
      some (([⟨8⟩, ⟨9⟩] : List Address).map fun a =>
        BondIssuer.getHolderBalance w.issuer 1 a).sum ∧
    remaining w 1 0 [⟨8⟩, ⟨9⟩] = holders

instance (w : World) (holders : List (Address × ℤ)) : Decidable (Observed w holders) :=
  inferInstanceAs (Decidable (_ ∧ _ ∧ _ ∧ _))

theorem Observed.remaining {h : List Call} (hrun : Run h w) (ho : Observed w holders) :
    Remaining w 1 0 holders := by
  obtain ⟨-, -, htotal, rfl⟩ := ho
  obtain ⟨st, hst, hsum⟩ := Option.map_eq_some_iff.mp htotal
  exact Remaining.computed (ledger_of_run hrun) hst (by decide) hsum.symm

/-- The second batch completes the period. -/
theorem completion_second_batch :
    ∃ h w batch, Run h w ∧ w.engine.batchState (1, 0) = some batch ∧
      Remaining w 1 0 [(⟨9⟩, 10)] ∧ Settled w 1 0 [(⟨9⟩, 10)] ∧
      Computable w 1 batch [(⟨9⟩, 10)] ∧ Completes 3 w ⟨0⟩ 1 0 batch.reportId [(⟨9⟩, 10)] := by
  have hplay : (machine.play [] (deploy ⟨0⟩ ⟨100⟩ ⟨101⟩ ⟨102⟩) halfDistributed).map
      (fun x => decide (Observed x.2 [(⟨9⟩, 10)]) &&
        match machine.exec 3 x.2 (couponCall x.2 ⟨0⟩ 1 0 1 [(⟨9⟩, 10)] true) with
        | .ok (w', _) => (w'.engine.periodInfo (1, 0)).any (·.distributed)
        | .error _ => false) = some true := by decide
  obtain ⟨h, w, hrun, hview⟩ := Run.of_play (Init.deploy ⟨0⟩ ⟨100⟩ ⟨101⟩ ⟨102⟩) hplay
  rw [Bool.and_eq_true] at hview
  obtain ⟨hobserved, hcloses⟩ := hview
  have hobserved := of_decide_eq_true hobserved
  have hremaining := hobserved.remaining hrun
  obtain ⟨hbatch, hadmin, -, -⟩ := hobserved
  obtain ⟨batch, hbatch, hreport⟩ := Option.map_eq_some_iff.mp hbatch
  have hcompletes : Completes 3 w ⟨0⟩ 1 0 batch.reportId [(⟨9⟩, 10)] := by
    rw [hreport]
    split at hcloses
    · next w' ret hexec =>
      obtain ⟨info, hinfo, hdistributed⟩ := (Option.any_eq_true _ _).mp hcloses
      exact ⟨w', ret, info, hexec, hinfo, hdistributed⟩
    · cases hcloses
  obtain ⟨hsettled, hcomputable⟩ :=
    (completion hrun hbatch hadmin hremaining 3).1.mp hcompletes
  exact ⟨h, w, batch, hrun, hbatch, hremaining, hsettled, hcomputable, hcompletes⟩

/-- After a transfer from the processed holder to the other one, the completing call fails. -/
theorem completion_blocked :
    ∃ h w batch, Run h w ∧ (∀ c ∈ h, Honest c.pre c.op) ∧
      w.engine.batchState (1, 0) = some batch ∧ w.engine.admin = some ⟨0⟩ ∧
      Remaining w 1 0 [(⟨9⟩, 15)] ∧ ¬ Completes 3 w ⟨0⟩ 1 0 batch.reportId [(⟨9⟩, 15)] ∧
      machine.exec 3 w (couponCall w ⟨0⟩ 1 0 batch.reportId [(⟨9⟩, 15)] true) =
        .error (.error (.engine .accountingMismatch)) := by
  have hplay : (machine.play [] (deploy ⟨0⟩ ⟨100⟩ ⟨101⟩ ⟨102⟩)
      (halfDistributed ++ [(2, .issuer (.transfer ⟨8⟩ ⟨9⟩ 1 5 1))])).map
      (fun x => (decide (Observed x.2 [(⟨9⟩, 15)] ∧ ∀ c ∈ x.1, Honest c.pre c.op),
        fault (machine.exec 3 x.2 (couponCall x.2 ⟨0⟩ 1 0 1 [(⟨9⟩, 15)] true)))) =
      some (true, some (.error (.engine .accountingMismatch))) := by decide
  obtain ⟨h, w, hrun, hview⟩ := Run.of_play (Init.deploy ⟨0⟩ ⟨100⟩ ⟨101⟩ ⟨102⟩) hplay
  rw [Prod.mk.injEq] at hview
  obtain ⟨hobserved, hfails⟩ := hview
  obtain ⟨hobserved, hhonest⟩ := of_decide_eq_true hobserved
  have hremaining := hobserved.remaining hrun
  obtain ⟨hbatch, hadmin, -, -⟩ := hobserved
  obtain ⟨batch, hbatch, hreport⟩ := Option.map_eq_some_iff.mp hbatch
  have hexec : machine.exec 3 w (couponCall w ⟨0⟩ 1 0 batch.reportId [(⟨9⟩, 15)] true) =
      .error (.error (.engine .accountingMismatch)) := by
    rw [hreport]
    exact fault_eq_some.mp hfails
  refine ⟨h, w, batch, hrun, hhonest, hbatch, hadmin, hremaining, ?_, hexec⟩
  rintro ⟨w', ret, info, hok, -⟩
  rw [hexec] at hok
  cases hok

end Protocol
end NbsBond
