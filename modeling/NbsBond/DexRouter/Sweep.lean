import NbsBond.DexRouter.Ledger
import NbsBond.Framework.Marking

/-!
# Splitting the sweep

The sweep of expired orders visits a range of ids, so that a long book can be swept in several
calls. It is a marking pass over the range: the orders that are live and over become expired.
-/

namespace NbsBond
namespace DexRouter

open Soroban

/-- The order is to be swept. -/
def Order.Due (now : ℕ) (order : Order) : Prop := order.Live ∧ order.Expired now

instance (now : ℕ) (order : Order) : Decidable (order.Due now) :=
  inferInstanceAs (Decidable (_ ∧ _))

/-- The order after it was swept. -/
def Order.expire (order : Order) : Order := { order with status := .expired }

theorem Order.not_due_expire (now : ℕ) (order : Order) (_ : order.Due now) :
    ¬ order.expire.Due now := by
  rintro ⟨hlive | hlive, -⟩ <;> cases hlive

/-- The orders after the ids `ids` were swept. -/
abbrev swept (now : ℕ) (ids : Finset ℕ) (orders : ℕ → Option Order) : ℕ → Option Order :=
  Marking.pass (Order.Due now) Order.expire ids orders

/-- The number of orders swept. -/
abbrev sweeps (now : ℕ) (ids : Finset ℕ) (orders : ℕ → Option Order) : ℕ :=
  (Marking.dueIn (Order.Due now) ids orders).card

theorem swept_swept (now : ℕ) (ids ids' : Finset ℕ) (orders : ℕ → Option Order) :
    swept now ids' (swept now ids orders) = swept now (ids ∪ ids') orders :=
  Marking.pass_pass (Order.not_due_expire now)

theorem sweeps_swept (now : ℕ) (ids ids' : Finset ℕ) (orders : ℕ → Option Order) :
    sweeps now ids orders + sweeps now ids' (swept now ids orders) =
      sweeps now (ids ∪ ids') orders :=
  Marking.card_dueIn_pass (Order.not_due_expire now)

variable {now : ℕ} {s : State}

/-! ### The loop -/

/-- Visiting one id. -/
theorem cleanOrder_eq (now : ℕ) (s : State) (n id : ℕ) : cleanOrder now (s, n) id =
    ({ s with order := swept now {id} s.order }, n + sweeps now {id} s.order) := by
  unfold cleanOrder swept sweeps
  dsimp only
  split
  · next order horder =>
    split
    · next hdue =>
      obtain ⟨hpass, hcount⟩ :=
        Marking.pass_singleton (Order.Due now) Order.expire horder hdue
      rw [hpass, hcount]
      rfl
    · next hdue =>
      have hnot : ∀ o ∈ s.order id, ¬ o.Due now := by
        rintro o ho
        rw [horder] at ho
        cases ho
        exact hdue
      obtain ⟨hpass, hcount⟩ := Marking.pass_singleton_of_not (Order.Due now) Order.expire hnot
      rw [hpass, hcount]
      rfl
  · next horder =>
    have hnot : ∀ o ∈ s.order id, ¬ o.Due now := by simp [horder]
    obtain ⟨hpass, hcount⟩ := Marking.pass_singleton_of_not (Order.Due now) Order.expire hnot
    rw [hpass, hcount]
    rfl

/-- Visiting several ids, one after another. -/
theorem foldl_cleanOrder (now : ℕ) (s : State) (n : ℕ) (ids : List ℕ) :
    ids.foldl (cleanOrder now) (s, n) =
      ({ s with order := swept now ids.toFinset s.order },
        n + sweeps now ids.toFinset s.order) := by
  induction ids generalizing s n with
  | nil => simp [swept, sweeps, Marking.dueIn]
  | cons id ids ih =>
    rw [List.foldl_cons, cleanOrder_eq, ih, List.toFinset_cons, Finset.insert_eq,
      ← sweeps_swept, add_assoc]
    dsimp only
    rw [swept_swept]

/-- **A sweep** of a range is one pass over it. The orders in the range that are due become expired,
and the answer is how many there were. -/
theorem cleanExpiredOrdersRangeImpl_eq (now : ℕ) (s : State) (startId endId : ℕ) :
    cleanExpiredOrdersRangeImpl now s startId endId =
      ({ s with order := swept now (Finset.Icc startId endId) s.order },
        sweeps now (Finset.Icc startId endId) s.order) := by
  -- the loop includes the last id
  have hids : (List.range' startId (endId + 1 - startId)).toFinset =
      Finset.Icc startId endId := by
    ext id
    simp only [List.mem_toFinset, List.mem_range'_1, Finset.mem_Icc]
    omega
  rw [cleanExpiredOrdersRangeImpl, foldl_cleanOrder, hids, zero_add]

/-! ### The entrypoints -/

variable {admin : Address}

/-- The state after a call of the admin that swept `ids`. -/
def sweepState (now : ℕ) (admin : Address) (s : State) (calls : ℕ) (ids : Finset ℕ) : State :=
  { s with
    nonce := Function.update s.nonce admin (s.nonce admin + calls)
    order := swept now ids s.order }

theorem sweepState_sweepState (calls calls' : ℕ) (ids ids' : Finset ℕ) :
    sweepState now admin (sweepState now admin s calls ids) calls' ids' =
      sweepState now admin s (calls + calls') (ids ∪ ids') := by
  unfold sweepState
  dsimp only
  rw [swept_swept, Function.update_self, Function.update_idem, add_assoc]

theorem cleanExpiredOrdersRange_eq (hadmin : s.admin = some admin) {startId endId : ℕ}
    (hvalid : 1 ≤ startId ∧ endId ≤ s.orderCount ∧ startId ≤ endId) :
    cleanExpiredOrdersRange now s admin (s.nonce admin) startId endId =
      .ok (sweepState now admin s 1 (Finset.Icc startId endId),
        sweeps now (Finset.Icc startId endId) s.order) := by
  simp only [cleanExpiredOrdersRange, bind_eq_ok, pure_eq_ok, useNonce_eq_ok, requireAdmin_eq_ok,
    ensure_eq_ok]
  refine ⟨_, ⟨trivial, rfl⟩, (), hadmin, (), hvalid, ?_⟩
  rw [cleanExpiredOrdersRangeImpl_eq]
  rfl

/-- The sweep of the whole book is the sweep of its full range, empty or not. -/
theorem cleanExpiredOrders_eq (hadmin : s.admin = some admin) :
    cleanExpiredOrders now s admin (s.nonce admin) =
      .ok (sweepState now admin s 1 (Finset.Icc 1 s.orderCount),
        sweeps now (Finset.Icc 1 s.orderCount) s.order) := by
  simp only [cleanExpiredOrders, bind_eq_ok, useNonce_eq_ok, requireAdmin_eq_ok]
  refine ⟨_, ⟨trivial, rfl⟩, (), hadmin, ?_⟩
  split
  · next hzero =>
    -- an empty book is not visited
    rw [hzero, Finset.Icc_eq_empty (by decide)]
    simp [sweepState, swept, sweeps, Marking.dueIn, hzero]
  · rw [cleanExpiredOrdersRangeImpl_eq]
    rfl

/-! ### Several ranges -/

/-- The admin sweeps ranges, one after another; the counts are what the calls answer. -/
def cleanRanges (now : ℕ) (admin : Address) (s : State) :
    List (ℕ × ℕ) → Result DEXError (State × List ℕ)
  | [] => return (s, [])
  | (startId, endId) :: ranges => do
    let (s, count) ← cleanExpiredOrdersRange now s admin (s.nonce admin) startId endId
    let (s, counts) ← cleanRanges now admin s ranges
    return (s, count :: counts)

/-- The ids in some of the ranges. -/
def rangeIds : List (ℕ × ℕ) → Finset ℕ
  | [] => ∅
  | (startId, endId) :: ranges => Finset.Icc startId endId ∪ rangeIds ranges

theorem mem_rangeIds {ranges : List (ℕ × ℕ)} {id : ℕ} :
    id ∈ rangeIds ranges ↔ ∃ r ∈ ranges, r.1 ≤ id ∧ id ≤ r.2 := by
  induction ranges with
  | nil => simp [rangeIds]
  | cons r ranges ih => simp [rangeIds, ih]

/-- **Several sweeps are one** over the ids of all of them. By induction on the ranges, as two
passes are one over both. -/
theorem cleanRanges_eq (now : ℕ) (hadmin : s.admin = some admin) {ranges : List (ℕ × ℕ)}
    (hvalid : ∀ r ∈ ranges, 1 ≤ r.1 ∧ r.2 ≤ s.orderCount ∧ r.1 ≤ r.2) :
    ∃ counts, cleanRanges now admin s ranges =
        .ok (sweepState now admin s ranges.length (rangeIds ranges), counts) ∧
      counts.sum = sweeps now (rangeIds ranges) s.order := by
  induction ranges generalizing s with
  | nil =>
    refine ⟨[], ?_, by simp [rangeIds, sweeps, Marking.dueIn]⟩
    simp [cleanRanges, sweepState, rangeIds, swept]
  | cons r ranges ih =>
    obtain ⟨startId, endId⟩ := r
    rw [List.forall_mem_cons] at hvalid
    -- the other ranges find the orders that this one has swept
    obtain ⟨counts, hrest, hsum⟩ :=
      ih (s := sweepState now admin s 1 (Finset.Icc startId endId)) hadmin hvalid.2
    rw [sweepState_sweepState, add_comm] at hrest
    refine ⟨sweeps now (Finset.Icc startId endId) s.order :: counts, ?_, ?_⟩
    · simp only [cleanRanges, cleanExpiredOrdersRange_eq hadmin hvalid.1, bind_eq_ok, pure_eq_ok]
      exact ⟨_, rfl, _, hrest, rfl⟩
    · rw [List.sum_cons, hsum]
      exact sweeps_swept now _ _ _

/-- **Expiry cleaning splits freely.** Valid ranges that cover the book, swept one after another in
any order, leave the orders that one sweep of the whole book leaves, and their counts add up to its
count. Only live orders whose time is over change, to expired; besides the orders, only the nonce of
the admin moves. Sweeping again finds nothing and changes no order. -/
theorem cleaning_splits (now : ℕ) (hadmin : s.admin = some admin) {ranges : List (ℕ × ℕ)}
    (hvalid : ∀ r ∈ ranges, 1 ≤ r.1 ∧ r.2 ≤ s.orderCount ∧ r.1 ≤ r.2)
    (hcover : ∀ id, 1 ≤ id → id ≤ s.orderCount → ∃ r ∈ ranges, r.1 ≤ id ∧ id ≤ r.2) :
    ∃ orders counts count,
      cleanRanges now admin s ranges = .ok ({ s with
        nonce := Function.update s.nonce admin (s.nonce admin + ranges.length)
        order := orders }, counts) ∧
      cleanExpiredOrders now s admin (s.nonce admin) = .ok ({ s with
        nonce := Function.update s.nonce admin (s.nonce admin + 1)
        order := orders }, count) ∧
      counts.sum = count ∧
      (∀ o, orders o = s.order o ∨ ∃ order, s.order o = some order ∧ order.Live ∧
        order.Expired now ∧ orders o = some { order with status := .expired }) ∧
      ∀ s' : State, s'.order = orders → s'.orderCount = s.orderCount → s'.admin = some admin →
        cleanExpiredOrders now s' admin (s'.nonce admin) = .ok ({ s' with
          nonce := Function.update s'.nonce admin (s'.nonce admin + 1) }, 0) ∧
        ∀ startId endId, 1 ≤ startId ∧ endId ≤ s.orderCount ∧ startId ≤ endId →
          cleanExpiredOrdersRange now s' admin (s'.nonce admin) startId endId = .ok ({ s' with
            nonce := Function.update s'.nonce admin (s'.nonce admin + 1) }, 0) := by
  -- valid ranges visit no other ids
  have hids : rangeIds ranges = Finset.Icc 1 s.orderCount := by
    ext id
    rw [mem_rangeIds, Finset.mem_Icc]
    constructor
    · rintro ⟨r, hr, hstart, hend⟩
      obtain ⟨hone, hcount, -⟩ := hvalid r hr
      exact ⟨hone.trans hstart, hend.trans hcount⟩
    · rintro ⟨hone, hcount⟩
      exact hcover id hone hcount
  obtain ⟨counts, hranges, hsum⟩ := cleanRanges_eq now hadmin hvalid
  rw [hids] at hranges hsum
  refine ⟨swept now (Finset.Icc 1 s.orderCount) s.order, counts, _, hranges,
    cleanExpiredOrders_eq hadmin, hsum, ?changes, ?again⟩
  case changes =>
    intro o
    rcases Marking.pass_cases (Order.Due now) Order.expire o with
      hsame | ⟨order, horder, hdue, hswept⟩
    · exact .inl hsame
    · exact .inr ⟨order, horder, hdue.1, hdue.2, hswept⟩
  case again =>
    intro s' horders hcount hadmin'
    -- no id of the book is due any more
    have hagain : ∀ ids ⊆ Finset.Icc 1 s.orderCount,
        sweepState now admin s' 1 ids =
          { s' with nonce := Function.update s'.nonce admin (s'.nonce admin + 1) } ∧
        sweeps now ids s'.order = 0 := by
      intro ids hsub
      constructor
      · rw [sweepState, horders, swept_swept, Finset.union_eq_left.mpr hsub]
      · rw [sweeps, horders, Marking.dueIn_pass_of_subset (Order.not_due_expire now) hsub,
          Finset.card_empty]
    constructor
    · obtain ⟨hstate, hzero⟩ := hagain (Finset.Icc 1 s'.orderCount) (by rw [hcount])
      rw [cleanExpiredOrders_eq hadmin', hstate, hzero]
    · intro startId endId hrange
      obtain ⟨hstate, hzero⟩ := hagain (Finset.Icc startId endId)
        (Finset.Icc_subset_Icc hrange.1 hrange.2.1)
      rw [cleanExpiredOrdersRange_eq hadmin' (hcount ▸ hrange), hstate, hzero]

/-- Three orders, two of them over, swept in two ranges that overlap. -/
theorem cleaning_splits_overlapping :
    ∃ (s : State) (counts : List ℕ), s.orderCount = 3 ∧
      (cleanRanges 100 ⟨0⟩ s [(2, 3), (1, 2)]).map Prod.snd = .ok counts ∧ counts.sum = 2 := by
  let order (o expiresAt : ℕ) : Order := ⟨o, ⟨1⟩, 1, 10, 3, "USDC", .open, 2, expiresAt⟩
  let s : State := { construct ⟨0⟩ with
    orderCount := 3
    order := fun o => if o = 1 then some (order 1 90) else if o = 2 then some (order 2 500)
      else if o = 3 then some (order 3 100) else none }
  have hadmin : s.admin = some ⟨0⟩ := rfl
  have hvalid : ∀ r ∈ [(2, 3), (1, 2)], 1 ≤ r.1 ∧ r.2 ≤ s.orderCount ∧ r.1 ≤ r.2 := by decide
  have hcover : ∀ id, 1 ≤ id → id ≤ s.orderCount →
      ∃ r ∈ [(2, 3), (1, 2)], r.1 ≤ id ∧ id ≤ r.2 := by
    intro id hone hthree
    have hthree : id ≤ 3 := hthree
    by_cases hid : id = 1
    · exact ⟨(1, 2), by simp, by omega, by omega⟩
    · exact ⟨(2, 3), by simp, by omega, by omega⟩
  obtain ⟨orders, counts, count, hranges, hall, hsum, -⟩ :=
    cleaning_splits 100 hadmin hvalid hcover
  refine ⟨s, counts, rfl, by rw [hranges]; rfl, ?_⟩
  have hcount : (cleanExpiredOrders 100 s ⟨0⟩ (s.nonce ⟨0⟩)).map Prod.snd = .ok 2 := rfl
  rw [hall] at hcount
  rw [hsum]
  exact Except.ok.inj hcount

end DexRouter
end NbsBond
