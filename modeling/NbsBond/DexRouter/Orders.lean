import NbsBond.DexRouter.Ledger

/-!
# The life of an order

Four entrypoints compete on the record of an order. `OrderMove` is what one committed call does to
one record: it is created, filled, cancelled, expired or left alone. Everything said about orders is
read off it.

The stored amount is what is left of the order while it can be bought from, and the size of the last
fill once it is filled. `Account` ties it to what was listed and what was bought over the whole life
of the order.
-/

namespace NbsBond
namespace DexRouter

open Soroban

/-- What a call buys of order `o`. -/
def Op.fills (o : ℕ) : Op → ℤ
  | .executePurchase _ _ orderId _ amount _ => if orderId = o then amount else 0
  | _ => 0

/-- The order a call creates under the id `o`. -/
def Op.creates (now : ℕ) (ret : Ret) (o : ℕ) : Op → Option Order
  | .listBondTokens seller bondId amount pricePerToken quoteAsset expiresAfterSeconds _ =>
    if ret = .order o then
      some ⟨o, seller, bondId, amount, pricePerToken, quoteAsset, .open, now,
        now + expiresAfterSeconds⟩
    else none
  | _ => none

/-- The effect of a committed call on the record of order `o`. The last two arguments are the record
before the call and after it. -/
inductive OrderMove (now : ℕ) (op : Op) (ret : Ret) (o : ℕ) : Option Order → Option Order → Prop
  | same {record : Option Order} (hfills : op.fills o = 0)
      (hcreates : op.creates now ret o = none) :
      OrderMove now op ret o record record
  | list {order : Order} (hamount : 0 < order.amount) (hstatus : order.status = .open)
      (hfills : op.fills o = 0) (hcreates : op.creates now ret o = some order) :
      OrderMove now op ret o none (some order)
  | cancel {order : Order} {nonce : ℕ} (hop : op = .cancelListing order.seller o nonce)
      (hlive : order.Live) :
      OrderMove now op ret o (some order) (some { order with status := .cancelled })
  | fill {order : Order} {signers : List Address} {buyer : Address} {maxPrice amount : ℤ}
      {nonce : ℕ} (hop : op = .executePurchase signers buyer o maxPrice amount nonce)
      (hlive : order.Live) (hstranger : buyer ≠ order.seller) (htime : now < order.expiresAt)
      (hpositive : 0 < amount) (hleft : amount ≤ order.amount)
      (hprice : order.pricePerToken ≤ maxPrice) :
      OrderMove now op ret o (some order) (some (order.fill amount))
  | expire {order : Order} (hlive : order.Live) (hexpired : order.Expired now)
      (hfills : op.fills o = 0) (hcreates : op.creates now ret o = none) :
      OrderMove now op ret o (some order) (some { order with status := .expired })

/-- **What a call does to one order.** Ids above the counter are unused, so a listing creates. -/
theorem RouterStep.orderMove {now : ℕ} {issuer issuer' : BondIssuer.State} {s s' : State} {op : Op}
    {ret : Ret} (hstep : RouterStep now issuer issuer' s s' op ret)
    (hfresh : ∀ o, s.orderCount < o → s.order o = none) (o : ℕ) :
    OrderMove now op ret o (s.order o) (s'.order o) := by
  -- a sweep leaves an order alone or expires it
  have hsweep : Swept now s s' → op.fills o = 0 → op.creates now ret o = none →
      OrderMove now op ret o (s.order o) (s'.order o) := by
    intro hswept hfills hcreates
    obtain hsame | ⟨order, hold, hlive, hexpired, hnew⟩ := hswept.orders o
    · rw [hsame]
      exact .same hfills hcreates
    · rw [hold, hnew]
      exact .expire hlive hexpired hfills hcreates
  cases hstep with
  | list hamount _ horders _ _ _ =>
    rw [horders]
    by_cases ho : o = s.orderCount + 1
    · subst ho
      rw [Function.update_self, hfresh _ (Nat.lt_succ_self _)]
      exact .list hamount rfl rfl (if_pos rfl)
    · rw [Function.update_of_ne ho]
      refine .same rfl (if_neg ?_)
      intro hret
      cases hret
      exact ho rfl
  | @cancel orderId _ order hold hlive horders _ _ _ =>
    rw [horders]
    by_cases ho : o = orderId
    · subst ho
      rw [Function.update_self, hold]
      exact .cancel rfl hlive
    · rw [Function.update_of_ne ho]
      exact .same rfl rfl
  | @purchase _ _ orderId _ _ _ order h =>
    rw [h.orders]
    by_cases ho : o = orderId
    · subst ho
      rw [Function.update_self, h.found]
      exact .fill rfl h.live h.stranger h.inTime h.positive h.left h.price
    · rw [Function.update_of_ne ho]
      exact .same (if_neg (Ne.symm ho)) rfl
  | deposit _ _ horders _ _ =>
    rw [horders]
    exact .same rfl rfl
  | withdraw _ _ _ horders _ _ =>
    rw [horders]
    exact .same rfl rfl
  | cleanAll hswept _ => exact hsweep hswept rfl rfl
  | cleanRange hswept _ => exact hsweep hswept rfl rfl

/-- Ids above the counter stay unused. -/
theorem RouterStep.fresh {now : ℕ} {issuer issuer' : BondIssuer.State} {s s' : State} {op : Op}
    {ret : Ret} (hstep : RouterStep now issuer issuer' s s' op ret)
    (hfresh : ∀ o, s.orderCount < o → s.order o = none) :
    ∀ o, s'.orderCount < o → s'.order o = none := by
  intro o ho
  -- an order that is written was found, so its id is not above the counter
  have hwrite : ∀ id new order, s.order id = some order →
      s'.order = Function.update s.order id (some new) → s'.orderCount = s.orderCount →
      s'.order o = none := by
    intro id new order hold horders hcount
    rw [hcount] at ho
    have hne : o ≠ id := by
      rintro rfl
      rw [hfresh o ho] at hold
      cases hold
    rw [horders, Function.update_of_ne hne]
    exact hfresh o ho
  have hsweep : Swept now s s' → s'.order o = none := by
    intro hswept
    rw [hswept.count] at ho
    obtain hsame | ⟨order, hold, -⟩ := hswept.orders o
    · rw [hsame]
      exact hfresh o ho
    · rw [hfresh o ho] at hold
      cases hold
  cases hstep with
  | list _ _ horders hcount _ _ =>
    rw [hcount] at ho
    rw [horders, Function.update_of_ne (ne_of_gt ho)]
    exact hfresh o (by omega)
  | cancel hold _ horders hcount _ _ => exact hwrite _ _ _ hold horders hcount
  | purchase h => exact hwrite _ _ _ h.found h.orders h.count
  | deposit _ _ horders hcount _ =>
    rw [horders]
    exact hfresh o (hcount ▸ ho)
  | withdraw _ _ _ horders hcount _ =>
    rw [horders]
    exact hfresh o (hcount ▸ ho)
  | cleanAll hswept _ => exact hsweep hswept
  | cleanRange hswept _ => exact hsweep hswept

/-! ### One order -/

/-- What is fixed when an order is listed. The amount and the status are what is left to change. -/
structure SameTerms (order order' : Order) : Prop where
  id : order'.id = order.id
  seller : order'.seller = order.seller
  bondId : order'.bondId = order.bondId
  pricePerToken : order'.pricePerToken = order.pricePerToken
  quoteAsset : order'.quoteAsset = order.quoteAsset
  createdAt : order'.createdAt = order.createdAt
  expiresAt : order'.expiresAt = order.expiresAt

theorem SameTerms.refl (order : Order) : SameTerms order order :=
  ⟨rfl, rfl, rfl, rfl, rfl, rfl, rfl⟩

theorem SameTerms.trans {a b c : Order} (h : SameTerms a b) (h' : SameTerms b c) :
    SameTerms a c where
  id := h'.id.trans h.id
  seller := h'.seller.trans h.seller
  bondId := h'.bondId.trans h.bondId
  pricePerToken := h'.pricePerToken.trans h.pricePerToken
  quoteAsset := h'.quoteAsset.trans h.quoteAsset
  createdAt := h'.createdAt.trans h.createdAt
  expiresAt := h'.expiresAt.trans h.expiresAt

theorem SameTerms.symm {a b : Order} (h : SameTerms a b) : SameTerms b a where
  id := h.id.symm
  seller := h.seller.symm
  bondId := h.bondId.symm
  pricePerToken := h.pricePerToken.symm
  quoteAsset := h.quoteAsset.symm
  createdAt := h.createdAt.symm
  expiresAt := h.expiresAt.symm

theorem sameTerms_fill (order : Order) (amount : ℤ) : SameTerms order (order.fill amount) := by
  unfold Order.fill
  split <;> exact ⟨rfl, rfl, rfl, rfl, rfl, rfl, rfl⟩

/-- The terms of an order never change, and an order is never removed. -/
theorem OrderMove.keeps_terms {now : ℕ} {op : Op} {ret : Ret} {o : ℕ} {order : Order}
    {after : Option Order} (hmove : OrderMove now op ret o (some order) after) :
    ∃ order', after = some order' ∧ SameTerms order order' := by
  cases hmove with
  | same _ _ => exact ⟨order, rfl, .refl order⟩
  | cancel _ _ => exact ⟨_, rfl, ⟨rfl, rfl, rfl, rfl, rfl, rfl, rfl⟩⟩
  | fill _ _ _ _ _ _ _ => exact ⟨_, rfl, sameTerms_fill order _⟩
  | expire _ _ _ _ => exact ⟨_, rfl, ⟨rfl, rfl, rfl, rfl, rfl, rfl, rfl⟩⟩

/-- An order that is filled, cancelled or expired is never touched again. -/
theorem OrderMove.keeps_closed {now : ℕ} {op : Op} {ret : Ret} {o : ℕ} {order : Order}
    {after : Option Order} (hmove : OrderMove now op ret o (some order) after)
    (hclosed : ¬ order.Live) : after = some order := by
  cases hmove with
  | same _ _ => rfl
  | cancel _ hlive => exact absurd hlive hclosed
  | fill _ hlive _ _ _ _ _ => exact absurd hlive hclosed
  | expire hlive _ _ _ => exact absurd hlive hclosed

/-- Only the seller's cancellation leads to `Cancelled`. -/
theorem OrderMove.cancelled {now : ℕ} {op : Op} {ret : Ret} {o : ℕ} {order order' : Order}
    (hmove : OrderMove now op ret o (some order) (some order'))
    (hbefore : order.status ≠ .cancelled) (hafter : order'.status = .cancelled) :
    ∃ nonce, op = .cancelListing order.seller o nonce := by
  cases hmove with
  | same _ _ => exact absurd hafter hbefore
  | cancel hop _ => exact ⟨_, hop⟩
  | fill _ _ _ _ _ _ _ =>
    unfold Order.fill at hafter
    split at hafter <;> cases hafter
  | expire _ _ _ _ => cases hafter

/-- `Expired` is reached only once the time of the order is over. -/
theorem OrderMove.expired {now : ℕ} {op : Op} {ret : Ret} {o : ℕ} {order order' : Order}
    (hmove : OrderMove now op ret o (some order) (some order')) (hbefore : order.status ≠ .expired)
    (hafter : order'.status = .expired) : order.expiresAt ≤ now := by
  cases hmove with
  | same _ _ => exact absurd hafter hbefore
  | cancel _ _ => cases hafter
  | fill _ _ _ _ _ _ _ =>
    unfold Order.fill at hafter
    split at hafter <;> cases hafter
  | expire _ hexpired _ _ => exact hexpired

/-- The record of an order against what was listed and what was bought of it. The equivalence in
`complete` is what keeps an order that is bought up from staying open. -/
structure Account (order : Order) (listed filled : ℤ) : Prop where
  untouched : order.status = .open → filled = 0
  begun : order.status = .partiallyFilled → 0 < filled ∧ filled < listed
  left : order.Live → order.amount = listed - filled ∧ 0 < order.amount
  complete : order.status = .filled ↔ filled = listed
  bounded : filled ≤ listed

/-- A live order is not complete. -/
theorem Account.lt {order : Order} {listed filled : ℤ} (hA : Account order listed filled)
    (hlive : order.Live) : filled < listed := by
  obtain ⟨hamount, hpos⟩ := hA.left hlive
  omega

theorem Account.list {order : Order} (hamount : 0 < order.amount) (hstatus : order.status = .open) :
    Account order order.amount 0 where
  untouched _ := rfl
  begun h := by
    rw [hstatus] at h
    cases h
  left _ := ⟨by omega, hamount⟩
  complete := by
    rw [hstatus]
    exact ⟨nofun, fun h => absurd h hamount.ne⟩
  bounded := hamount.le

/-- A live order that is cancelled or expires stays incomplete. -/
theorem Account.close {order : Order} {listed filled : ℤ} (hA : Account order listed filled)
    (hlive : order.Live) {status : OrderStatus}
    (hstatus : status = .cancelled ∨ status = .expired) :
    Account { order with status := status } listed filled where
  untouched := by
    rintro rfl
    rcases hstatus with h | h <;> cases h
  begun := by
    rintro rfl
    rcases hstatus with h | h <;> cases h
  left := by
    rintro (rfl | rfl) <;> rcases hstatus with h | h <;> cases h
  complete := by
    constructor
    · rintro rfl
      rcases hstatus with h | h <;> cases h
    · intro h
      exact absurd h (hA.lt hlive).ne
  bounded := hA.bounded

/-- A fill of at most what is left. -/
theorem Account.fill {order : Order} {listed filled amount : ℤ} (hA : Account order listed filled)
    (hlive : order.Live) (hpositive : 0 < amount) (hleft : amount ≤ order.amount)
    (hfilled : 0 ≤ filled) : Account (order.fill amount) listed (filled + amount) := by
  obtain ⟨hamount, hpos⟩ := hA.left hlive
  unfold Order.fill
  split
  · next hall =>
    -- the rest is bought: the order is complete and keeps its last size
    refine ⟨nofun, nofun, ?_, ?_, by omega⟩
    · rintro (h | h) <;> cases h
    · exact ⟨fun _ => by omega, fun _ => rfl⟩
  · next hsome =>
    refine ⟨nofun, fun _ => by omega, fun _ => ?_, ?_, by omega⟩
    · dsimp only
      omega
    · exact ⟨nofun, fun h => by omega⟩

end DexRouter
end NbsBond
