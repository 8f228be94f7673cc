import NbsBond.BondIssuer.Ledger
import NbsBond.DexRouter.Model

/-!
# What the router's calls do

`exec_router` is the only lemma that looks inside the entrypoints: it says what a committed call
does to the orders and to the quote balances, and under which conditions it was committed.

`QuoteLedger` is the invariant of the balances. A purchase writes two of them, one after the other;
it moves the total of the asset by nothing, because buyer and seller are different addresses, and
keeps both balances non-negative, because prices are positive.
-/

namespace NbsBond
namespace DexRouter

open Soroban Int128

/-! ### The sweep -/

/-- The effect of a sweep: some live orders whose time is over become expired, and nothing else
happens. -/
structure Swept (now : ℕ) (s s' : State) : Prop where
  orders : ∀ o, s'.order o = s.order o ∨ ∃ order, s.order o = some order ∧ order.Live ∧
    order.Expired now ∧ s'.order o = some { order with status := .expired }
  count : s'.orderCount = s.orderCount
  balance : s'.balance = s.balance

theorem Swept.refl {now : ℕ} {s s' : State} (horder : s'.order = s.order)
    (hcount : s'.orderCount = s.orderCount) (hbalance : s'.balance = s.balance) :
    Swept now s s' where
  orders o := Or.inl (congrFun horder o)
  count := hcount
  balance := hbalance

/-- An expired order is not swept again, so two sweeps are one. -/
theorem Swept.trans {now : ℕ} {s s₁ s' : State} (h : Swept now s s₁) (h' : Swept now s₁ s') :
    Swept now s s' where
  orders := by
    intro o
    obtain hsame | ⟨order, hold, hlive, hexpired, hnew⟩ := h.orders o
    · rw [← hsame]
      exact h'.orders o
    · obtain hsame' | ⟨order', hold', hlive', -, -⟩ := h'.orders o
      · exact Or.inr ⟨order, hold, hlive, hexpired, hsame'.trans hnew⟩
      · rw [hnew] at hold'
        cases hold'
        exact absurd hlive' (by rintro (h | h) <;> cases h)
  count := h'.count.trans h.count
  balance := h'.balance.trans h.balance

theorem cleanOrder_swept (now : ℕ) (acc : State × ℕ) (id : ℕ) :
    Swept now acc.1 (cleanOrder now acc id).1 := by
  unfold cleanOrder
  split
  swap
  · exact .refl rfl rfl rfl
  next order hold =>
  split
  swap
  · exact .refl rfl rfl rfl
  next hclean =>
  refine ⟨?_, rfl, rfl⟩
  intro o
  by_cases ho : o = id
  · subst ho
    exact Or.inr ⟨order, hold, hclean.1, hclean.2, Function.update_self ..⟩
  · exact Or.inl (Function.update_of_ne ho ..)

theorem cleanExpiredOrdersRangeImpl_swept (now : ℕ) (s : State) (startId endId : ℕ) :
    Swept now s (cleanExpiredOrdersRangeImpl now s startId endId).1 := by
  unfold cleanExpiredOrdersRangeImpl
  generalize List.range' startId (endId + 1 - startId) = ids
  generalize hacc : (s, 0) = acc
  have hstart : Swept now s acc.1 := by
    rw [← hacc]
    exact .refl rfl rfl rfl
  clear hacc
  -- by induction on the ids still to be visited
  induction ids generalizing acc with
  | nil => exact hstart
  | cons id ids ih => exact ih _ (hstart.trans (cleanOrder_swept now acc id))

/-! ### Inversion -/

theorem checkedAddU64_eq_some {a b c : ℕ} :
    checkedAddU64 a b = some c ↔ a + b < 2 ^ 64 ∧ a + b = c := by
  unfold checkedAddU64
  split <;> simp_all

/-- The buyer had the proceeds, and both balances moved by them. -/
theorem payQuote_ok {balance balance' : Symbol × Address → ℤ} {quoteAsset : Symbol}
    {buyer seller : Address} {proceeds : ℤ} (hne : buyer ≠ seller)
    (h : payQuote balance quoteAsset buyer seller proceeds = .ok balance') :
    proceeds ≤ balance (quoteAsset, buyer) ∧
      balance' = Function.update
        (Function.update balance (quoteAsset, buyer) (balance (quoteAsset, buyer) - proceeds))
        (quoteAsset, seller) (balance (quoteAsset, seller) + proceeds) := by
  simp only [payQuote, bind_eq_ok, ensure_eq_ok, orError_eq_ok, checkedAdd_eq_some,
    pure_eq_ok] at h
  obtain ⟨_, hfunds, _, ⟨-, rfl⟩, rfl⟩ := h
  refine ⟨hfunds, ?_⟩
  -- the seller is not the buyer, so its balance is read off the old table
  rw [Function.update_of_ne (by simp [hne.symm])]

/-- The callee was authorized by the seller and returned. -/
theorem transferBonds_ok {now : ℕ} {signers : List Address} {issuer issuer' : BondIssuer.State}
    {seller buyer : Address} {bondId : BondId} {amount : ℤ}
    (h : transferBonds now signers issuer seller buyer bondId amount = .ok issuer') :
    seller ∈ signers ∧
      BondIssuer.transfer now issuer seller buyer bondId amount (issuer.nonce seller) =
        .ok issuer' := by
  unfold transferBonds at h
  dsimp only at h
  split at h
  · next found hfound =>
    cases h
    simp only [bind_eq_ok, requireAuth_eq_ok] at hfound
    obtain ⟨_, hsigned, htransfer⟩ := hfound
    exact ⟨hsigned, htransfer⟩
  · cases h
  · cases h

/-- A purchase was committed: the order was live, not over and not the buyer's own, the price was
accepted, the buyer had the proceeds, and `BondIssuer` moved the tokens. -/
structure Purchased (now : ℕ) (issuer issuer' : BondIssuer.State) (s s' : State) (buyer : Address)
    (orderId : ℕ) (maxPrice amount : ℤ) (order : Order) : Prop where
  found : s.order orderId = some order
  live : order.Live
  stranger : buyer ≠ order.seller
  inTime : now < order.expiresAt
  positive : 0 < amount
  left : amount ≤ order.amount
  price : order.pricePerToken ≤ maxPrice
  proceeds : InRange (amount * order.pricePerToken)
  funds : amount * order.pricePerToken ≤ s.balance (order.quoteAsset, buyer)
  balance : s'.balance = Function.update
    (Function.update s.balance (order.quoteAsset, buyer)
      (s.balance (order.quoteAsset, buyer) - amount * order.pricePerToken))
    (order.quoteAsset, order.seller)
    (s.balance (order.quoteAsset, order.seller) + amount * order.pricePerToken)
  transferred : BondIssuer.transfer now issuer order.seller buyer order.bondId amount
    (issuer.nonce order.seller) = .ok issuer'
  orders : s'.order = Function.update s.order orderId (some (order.fill amount))
  count : s'.orderCount = s.orderCount

theorem executePurchase_ok {now : ℕ} {issuer issuer' : BondIssuer.State} {s s' : State}
    {signers : List Address} {buyer : Address} {orderId : ℕ} {maxPrice amount : ℤ} {nonce : ℕ}
    (h : executePurchase now issuer s signers buyer orderId maxPrice amount nonce =
      .ok (s', issuer')) :
    ∃ order, Purchased now issuer issuer' s s' buyer orderId maxPrice amount order := by
  simp only [executePurchase, bind_eq_ok, ensure_eq_ok, orError_eq_ok, checkedMul_eq_some,
    pure_eq_ok, Prod.mk.injEq] at h
  obtain ⟨_, -, nonces, -, order, hold, _, hlive, _, hne, _, htime, _, hpos, _, hleft, _, hprice,
    _, -, _, ⟨hrange, rfl⟩, balance, hpay, issuer₁, htransfer, rfl, rfl⟩ := h
  obtain ⟨hfunds, hbalance⟩ := payQuote_ok hne hpay
  exact ⟨order, hold, hlive, hne, not_le.mp htime, hpos, hleft, hprice, hrange, hfunds, hbalance,
    (transferBonds_ok htransfer).2, rfl, rfl⟩

/-- The effect of a committed call on orders and quote balances. Purchases are the only ones that
change something in the issuer. -/
inductive RouterStep (now : ℕ) (issuer issuer' : BondIssuer.State) (s s' : State) :
    Op → Ret → Prop
  /-- A new order; every order has a positive amount and a positive price. -/
  | list {seller : Address} {bondId : BondId} {amount pricePerToken : ℤ} {quoteAsset : Symbol}
      {expiresAfterSeconds nonce : ℕ} (hamount : 0 < amount) (hprice : 0 < pricePerToken)
      (horders : s'.order = Function.update s.order (s.orderCount + 1)
        (some ⟨s.orderCount + 1, seller, bondId, amount, pricePerToken, quoteAsset, .open, now,
          now + expiresAfterSeconds⟩))
      (hcount : s'.orderCount = s.orderCount + 1) (hbalance : s'.balance = s.balance)
      (hissuer : issuer' = issuer) :
      RouterStep now issuer issuer' s s'
        (.listBondTokens seller bondId amount pricePerToken quoteAsset expiresAfterSeconds nonce)
        (.order (s.orderCount + 1))
  | cancel {orderId nonce : ℕ} {order : Order} (hold : s.order orderId = some order)
      (hlive : order.Live)
      (horders : s'.order =
        Function.update s.order orderId (some { order with status := .cancelled }))
      (hcount : s'.orderCount = s.orderCount) (hbalance : s'.balance = s.balance)
      (hissuer : issuer' = issuer) :
      RouterStep now issuer issuer' s s' (.cancelListing order.seller orderId nonce) .unit
  | purchase {signers : List Address} {buyer : Address} {orderId : ℕ} {maxPrice amount : ℤ}
      {nonce : ℕ} {order : Order}
      (h : Purchased now issuer issuer' s s' buyer orderId maxPrice amount order) :
      RouterStep now issuer issuer' s s'
        (.executePurchase signers buyer orderId maxPrice amount nonce) .unit
  | deposit {caller : Address} {quoteAsset : Symbol} {amount : ℤ} {nonce : ℕ}
      (hamount : 0 < amount)
      (hbalance : s'.balance = Function.update s.balance (quoteAsset, caller)
        (s.balance (quoteAsset, caller) + amount))
      (horders : s'.order = s.order) (hcount : s'.orderCount = s.orderCount)
      (hissuer : issuer' = issuer) :
      RouterStep now issuer issuer' s s' (.depositQuote caller quoteAsset amount nonce) .unit
  | withdraw {caller : Address} {quoteAsset : Symbol} {amount : ℤ} {nonce : ℕ}
      (hamount : 0 < amount) (hfunds : amount ≤ s.balance (quoteAsset, caller))
      (hbalance : s'.balance = Function.update s.balance (quoteAsset, caller)
        (s.balance (quoteAsset, caller) - amount))
      (horders : s'.order = s.order) (hcount : s'.orderCount = s.orderCount)
      (hissuer : issuer' = issuer) :
      RouterStep now issuer issuer' s s' (.withdrawQuote caller quoteAsset amount nonce) .unit
  | cleanAll {caller : Address} {nonce count : ℕ} (hswept : Swept now s s')
      (hissuer : issuer' = issuer) :
      RouterStep now issuer issuer' s s' (.cleanExpiredOrders caller nonce) (.cleaned count)
  | cleanRange {caller : Address} {nonce startId endId count : ℕ} (hswept : Swept now s s')
      (hissuer : issuer' = issuer) :
      RouterStep now issuer issuer' s s' (.cleanExpiredOrdersRange caller nonce startId endId)
        (.cleaned count)

/-- **What a call can do.** -/
theorem exec_router {now : ℕ} {issuer issuer' : BondIssuer.State} {s s' : State} {op : Op}
    {ret : Ret} (h : exec now issuer s op = .ok ((s', issuer'), ret)) :
    RouterStep now issuer issuer' s s' op ret := by
  cases op with
  | listBondTokens seller bondId amount pricePerToken quoteAsset expiresAfterSeconds nonce =>
    simp only [exec, listBondTokens, bind_eq_ok, ensure_eq_ok, orError_eq_ok,
      checkedAddU64_eq_some, pure_eq_ok, Prod.mk.injEq] at h
    obtain ⟨⟨s₁, id⟩, ⟨nonces, -, _, ⟨hamount, hprice⟩, _, -, _, -, _, ⟨-, rfl⟩, rfl, rfl⟩,
      ⟨rfl, rfl⟩, rfl⟩ := h
    exact .list hamount hprice rfl rfl rfl rfl
  | cancelListing caller orderId nonce =>
    simp only [exec, cancelListing, bind_eq_ok, ensure_eq_ok, orError_eq_ok, pure_eq_ok,
      Prod.mk.injEq] at h
    obtain ⟨s₁, ⟨nonces, -, order, hold, _, rfl, _, hlive, rfl⟩, ⟨rfl, rfl⟩, rfl⟩ := h
    exact .cancel hold hlive rfl rfl rfl rfl
  | executePurchase signers buyer orderId maxPrice amount nonce =>
    simp only [exec, bind_eq_ok, pure_eq_ok, Prod.mk.injEq] at h
    obtain ⟨⟨s₁, issuer₁⟩, h, heq, rfl⟩ := h
    cases heq
    obtain ⟨order, hpurchased⟩ := executePurchase_ok h
    exact .purchase hpurchased
  | depositQuote caller quoteAsset amount nonce =>
    simp only [exec, depositQuote, bind_eq_ok, ensure_eq_ok, orError_eq_ok, checkedAdd_eq_some,
      pure_eq_ok, Prod.mk.injEq] at h
    obtain ⟨s₁, ⟨nonces, -, _, hamount, _, ⟨-, rfl⟩, rfl⟩, ⟨rfl, rfl⟩, rfl⟩ := h
    exact .deposit hamount rfl rfl rfl rfl
  | withdrawQuote caller quoteAsset amount nonce =>
    simp only [exec, withdrawQuote, bind_eq_ok, ensure_eq_ok, pure_eq_ok, Prod.mk.injEq] at h
    obtain ⟨s₁, ⟨nonces, -, _, hamount, _, hfunds, rfl⟩, ⟨rfl, rfl⟩, rfl⟩ := h
    exact .withdraw hamount hfunds rfl rfl rfl rfl
  | cleanExpiredOrders caller nonce =>
    simp only [exec, cleanExpiredOrders, bind_eq_ok, pure_eq_ok, Prod.mk.injEq] at h
    obtain ⟨⟨s₁, count⟩, ⟨nonces, -, _, -, h⟩, ⟨rfl, rfl⟩, rfl⟩ := h
    -- an empty book is not swept
    split at h
    · cases h
      exact .cleanAll (.refl rfl rfl rfl) rfl
    · have hswept := cleanExpiredOrdersRangeImpl_swept now { s with nonce := nonces } 1 s.orderCount
      rw [pure_eq_ok] at h
      rw [h] at hswept
      exact .cleanAll ⟨hswept.orders, hswept.count, hswept.balance⟩ rfl
  | cleanExpiredOrdersRange caller nonce startId endId =>
    simp only [exec, cleanExpiredOrdersRange, bind_eq_ok, pure_eq_ok, Prod.mk.injEq] at h
    obtain ⟨⟨s₁, count⟩, ⟨nonces, -, _, -, _, -, h⟩, ⟨rfl, rfl⟩, rfl⟩ := h
    have hswept := cleanExpiredOrdersRangeImpl_swept now { s with nonce := nonces } startId endId
    rw [h] at hswept
    exact .cleanRange ⟨hswept.orders, hswept.count, hswept.balance⟩ rfl

/-! ### The quote ledger -/

/-- Per asset, the balances vanish outside a finite set of addresses, are non-negative and add up to
`total`. -/
structure Balanced (balance : Symbol × Address → ℤ) (total : Symbol → ℤ) : Prop where
  finite : ∀ q, (Function.support fun a => balance (q, a)).Finite
  nonneg : ∀ q a, 0 ≤ balance (q, a)
  total : ∀ q, ∑ᶠ a, balance (q, a) = total q

/-- Writing one balance moves the total of its asset by the difference. -/
theorem Balanced.write {balance : Symbol × Address → ℤ} {total : Symbol → ℤ}
    (hB : Balanced balance total) (q : Symbol) (a : Address) {v : ℤ} (hv : 0 ≤ v) :
    Balanced (Function.update balance (q, a) v)
      (Function.update total q (total q - balance (q, a) + v)) := by
  have hinj : Function.Injective fun y : Address => (q, y) := fun x y h => (Prod.mk.inj h).2
  have hself : (fun y => Function.update balance (q, a) v (q, y)) =
      Function.update (fun y => balance (q, y)) a v := FinSum.section_update_self hinj balance a v
  have hother : ∀ q', q' ≠ q →
      (fun y => Function.update balance (q, a) v (q', y)) = fun y => balance (q', y) := by
    intro q' hq
    refine FinSum.section_update_of_ne balance ?_ v
    intro y hy
    exact hq (Prod.mk.inj hy).1
  refine ⟨?_, ?_, ?_⟩
  · intro q'
    by_cases hq : q' = q
    · subst hq
      rw [hself]
      exact FinSum.support_update (hB.finite q') a v
    · rw [hother q' hq]
      exact hB.finite q'
  · intro q' a'
    by_cases hk : (q', a') = (q, a)
    · rw [hk, Function.update_self]
      exact hv
    · rw [Function.update_of_ne hk]
      exact hB.nonneg q' a'
  · intro q'
    by_cases hq : q' = q
    · subst hq
      rw [hself, FinSum.finsum_update (hB.finite q'), hB.total, Function.update_self]
    · rw [hother q' hq, hB.total, Function.update_of_ne hq]

/-- What a call pays into the ledger of an asset. -/
def Op.deposited (q : Symbol) : Op → ℤ
  | .depositQuote _ quoteAsset amount _ => if quoteAsset = q then amount else 0
  | _ => 0

/-- What a call takes out of the ledger of an asset. -/
def Op.withdrawn (q : Symbol) : Op → ℤ
  | .withdrawQuote _ quoteAsset amount _ => if quoteAsset = q then amount else 0
  | _ => 0

/-- The invariant of the quote balances: they are balanced, and prices are positive. The total of an
asset is what was paid in and not yet paid out again. -/
structure QuoteLedger (s : State) (total : Symbol → ℤ) : Prop where
  balanced : Balanced s.balance total
  priced : ∀ o order, s.order o = some order → 0 < order.pricePerToken

theorem QuoteLedger.initial (admin : Address) : QuoteLedger (construct admin) fun _ => 0 where
  balanced :=
    { finite := fun _ => by simp [construct]
      nonneg := fun _ _ => le_rfl
      total := fun _ => finsum_zero }
  priced := nofun

theorem Order.fill_price (order : Order) (amount : ℤ) :
    (order.fill amount).pricePerToken = order.pricePerToken := by
  unfold Order.fill
  split <;> rfl

/-- No call changes the price of an order, and a new order has a positive one. -/
theorem RouterStep.priced {now : ℕ} {issuer issuer' : BondIssuer.State} {s s' : State} {op : Op}
    {ret : Ret} (hstep : RouterStep now issuer issuer' s s' op ret)
    (hP : ∀ o order, s.order o = some order → 0 < order.pricePerToken) :
    ∀ o order, s'.order o = some order → 0 < order.pricePerToken := by
  -- a call writes one order, or sweeps
  have hwrite : ∀ id new, s'.order = Function.update s.order id (some new) →
      0 < new.pricePerToken → ∀ o order, s'.order o = some order → 0 < order.pricePerToken := by
    intro id new horders hnew o order hfound
    rw [horders] at hfound
    by_cases ho : o = id
    · subst ho
      rw [Function.update_self] at hfound
      cases hfound
      exact hnew
    · rw [Function.update_of_ne ho] at hfound
      exact hP o order hfound
  have hsweep : Swept now s s' → ∀ o order, s'.order o = some order → 0 < order.pricePerToken := by
    intro hswept o order hfound
    obtain hsame | ⟨old, hold, -, -, hnew⟩ := hswept.orders o
    · exact hP o order (hsame ▸ hfound)
    · rw [hnew] at hfound
      cases hfound
      exact hP o old hold
  cases hstep with
  | list _ hprice horders _ _ _ => exact hwrite _ _ horders hprice
  | cancel hold _ horders _ _ _ =>
    have hprice := hP _ _ hold
    exact hwrite _ _ horders hprice
  | purchase h =>
    refine hwrite _ _ h.orders ?_
    rw [Order.fill_price]
    exact hP _ _ h.found
  | deposit _ _ horders _ _ =>
    rw [horders]
    exact hP
  | withdraw _ _ _ horders _ _ =>
    rw [horders]
    exact hP
  | cleanAll hswept _ => exact hsweep hswept
  | cleanRange hswept _ => exact hsweep hswept

/-- **One call.** The total of an asset moves by what the call deposits and withdraws. -/
theorem QuoteLedger.step {now : ℕ} {issuer issuer' : BondIssuer.State} {s s' : State} {op : Op}
    {ret : Ret} {total : Symbol → ℤ} (hQ : QuoteLedger s total)
    (hstep : RouterStep now issuer issuer' s s' op ret) :
    QuoteLedger s' fun q => total q + op.deposited q - op.withdrawn q := by
  refine ⟨?_, hstep.priced hQ.priced⟩
  have hB := hQ.balanced
  cases hstep with
  | list _ _ _ _ hbalance _ => simpa [Op.deposited, Op.withdrawn, hbalance] using hB
  | cancel _ _ _ _ hbalance _ => simpa [Op.deposited, Op.withdrawn, hbalance] using hB
  | cleanAll hswept _ => simpa [Op.deposited, Op.withdrawn, hswept.balance] using hB
  | cleanRange hswept _ => simpa [Op.deposited, Op.withdrawn, hswept.balance] using hB
  | @purchase _ buyer _ _ amount _ order h =>
    have hproceeds : 0 ≤ amount * order.pricePerToken :=
      mul_nonneg h.positive.le (hQ.priced _ _ h.found).le
    have hbuyer : 0 ≤ s.balance (order.quoteAsset, buyer) - amount * order.pricePerToken :=
      sub_nonneg.mpr h.funds
    have hseller : 0 ≤ s.balance (order.quoteAsset, order.seller) + amount * order.pricePerToken :=
      add_nonneg (hB.nonneg _ _) hproceeds
    have hboth :=
      (hB.write order.quoteAsset buyer hbuyer).write order.quoteAsset order.seller hseller
    rw [h.balance]
    convert hboth using 1
    -- what the buyer pays is what the seller receives
    funext q
    have hne : (order.quoteAsset, order.seller) ≠ (order.quoteAsset, buyer) := by
      intro heq
      exact h.stranger (Prod.mk.inj heq).2.symm
    rw [Function.update_of_ne hne, Function.update_idem, Function.update_self]
    simp only [Op.deposited, Op.withdrawn]
    by_cases hq : q = order.quoteAsset
    · subst hq
      rw [Function.update_self]
      ring
    · rw [Function.update_of_ne hq]
      ring
  | @deposit caller quoteAsset amount _ hamount hbalance _ _ _ =>
    have hnew : 0 ≤ s.balance (quoteAsset, caller) + amount := add_nonneg (hB.nonneg _ _) hamount.le
    rw [hbalance]
    convert hB.write quoteAsset caller hnew using 1
    funext q
    simp only [Op.deposited, Op.withdrawn]
    by_cases hq : q = quoteAsset
    · subst hq
      rw [Function.update_self, if_pos rfl]
      ring
    · rw [Function.update_of_ne hq, if_neg (Ne.symm hq)]
      ring
  | @withdraw caller quoteAsset amount _ _ hfunds hbalance _ _ _ =>
    rw [hbalance]
    convert hB.write quoteAsset caller (sub_nonneg.mpr hfunds) using 1
    funext q
    simp only [Op.deposited, Op.withdrawn]
    by_cases hq : q = quoteAsset
    · subst hq
      rw [Function.update_self, if_pos rfl]
      ring
    · rw [Function.update_of_ne hq, if_neg (Ne.symm hq)]
      ring

end DexRouter
end NbsBond
