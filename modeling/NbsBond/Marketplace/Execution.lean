import NbsBond.Marketplace.Purchases

/-!
# Executing a quote

`get_best_price` adds up the cheapest orders of a bond and looks at nothing else. Whether a buyer
can have the tokens at the quoted total depends on the rest: on the assets the orders are quoted in,
on how much of the bond the sellers still hold and on the room in their quote balances
(`Executable`). `quote_executable_iff` says that nothing else matters.
-/

namespace NbsBond
namespace Marketplace

open Soroban Int128 DexRouter

variable {now : ℕ} {signers : List Address} {buyer : Address} {b : BondId}
  {asset : DexRouter.Symbol} {amount total : ℤ} {m m' : Market} {h : List Call}
  {L S : Finset Order} {y : Order → ℤ}

/-- Purchases of `buyer` at time `now` deliver exactly `amount` tokens of bond `b` for exactly
`total` of `asset`, and for no other asset. -/
def Delivers (now : ℕ) (signers : List Address) (buyer : Address) (b : BondId)
    (asset : DexRouter.Symbol) (amount total : ℤ) (m : Market) : Prop :=
  ∃ h m', Buys now signers buyer m h m' ∧
    m'.issuer.holderBalance (b, buyer) = m.issuer.holderBalance (b, buyer) + amount ∧
    m'.router.balance (asset, buyer) = m.router.balance (asset, buyer) - total ∧
    ∀ q, q ≠ asset → m'.router.balance (q, buyer) = m.router.balance (q, buyer)

/-- `y` is a cheapest way of taking `amount` tokens of bond `b` from the orders `L`. It takes only
from orders quoted in `asset`, from no seller more than it holds, and no seller's balance of `asset`
leaves the range of an `i128`. -/
structure Executable (m : Market) (b : BondId) (asset : DexRouter.Symbol) (L : Finset Order)
    (amount : ℤ) (y : Order → ℤ) : Prop where
  takes : Greedy.Takes Order.amount L amount y
  cheapest : IsLeast (totals L amount) (Greedy.cost Order.pricePerToken L y)
  inAsset : ∀ order ∈ L, order.quoteAsset ≠ asset → y order = 0
  held : ∀ seller, ∑ order ∈ L with order.seller = seller, y order ≤
    m.issuer.holderBalance (b, seller)
  room : ∀ seller, m.router.balance (asset, seller) +
    ∑ order ∈ L with order.seller = seller, y order * order.pricePerToken ≤ maxValue

/-! ### What the purchases moved -/

/-- Of the orders `S` the amounts `y` were bought, and nothing else. -/
def Amounts (m : Market) (S : Finset Order) (y : Order → ℤ) (h : List Call) : Prop :=
  ∀ order ∈ orders m, filled order.id h = if order ∈ S then y order else 0

theorem Amounts.tally_eq (hA : Amounts m S y h) (hsub : S ⊆ orders m) (weight : Order → ℤ) :
    tally m h weight = ∑ order ∈ S, weight order * y order := by
  unfold tally
  rw [← Finset.sum_subset hsub]
  · apply Finset.sum_congr rfl
    intro order horder
    rw [hA order (hsub horder), if_pos horder]
  · intro order horder hnot
    rw [hA order horder, if_neg hnot, mul_zero]

/-- The accounts of buyer and sellers after the amounts `y` of the orders `S` were bought. A seller
of several orders is given the sum over all of them. -/
structure Moved (buyer : Address) (b : BondId) (asset : DexRouter.Symbol) (S : Finset Order)
    (y : Order → ℤ) (m m' : Market) : Prop where
  delivered : m'.issuer.holderBalance (b, buyer) =
    m.issuer.holderBalance (b, buyer) + ∑ order ∈ S, y order
  given : ∀ a, a ≠ buyer → m'.issuer.holderBalance (b, a) =
    m.issuer.holderBalance (b, a) - ∑ order ∈ S with order.seller = a, y order
  paid : m'.router.balance (asset, buyer) =
    m.router.balance (asset, buyer) - Greedy.cost Order.pricePerToken S y
  received : ∀ a, a ≠ buyer → m'.router.balance (asset, a) = m.router.balance (asset, a) +
    ∑ order ∈ S with order.seller = a, y order * order.pricePerToken
  others : ∀ q, q ≠ asset → m'.router.balance (q, buyer) = m.router.balance (q, buyer)

theorem Moved.of_amounts (hBought : Bought now buyer m h m') (hA : Amounts m S y h)
    (hsub : S ⊆ orders m) (hbond : ∀ order ∈ S, order.bondId = b)
    (hstranger : ∀ order ∈ S, buyer ≠ order.seller)
    (hasset : ∀ order ∈ S, order.quoteAsset ≠ asset → y order = 0) :
    Moved buyer b asset S y m m' := by
  -- in `asset` every order counts with its price, because of the others nothing was bought
  have hquote : ∀ a, ∀ order ∈ S, quoteWeight buyer asset a order * y order =
      ((if a = order.seller then 1 else 0) - (if a = buyer then 1 else 0)) *
        (y order * order.pricePerToken) := by
    intro a order horder
    unfold quoteWeight
    by_cases hq : order.quoteAsset = asset
    · rw [if_pos hq]
      ring
    · rw [hasset order horder hq]
      ring
  refine ⟨?_, ?_, ?_, ?_, ?_⟩
  · rw [hBought.tokens, hA.tally_eq hsub]
    congr 1
    apply Finset.sum_congr rfl
    intro order horder
    rw [tokenWeight, if_pos (hbond order horder), if_pos rfl, if_neg (hstranger order horder)]
    ring
  · intro a ha
    rw [hBought.tokens, hA.tally_eq hsub, Finset.sum_filter, sub_eq_add_neg,
      ← Finset.sum_neg_distrib]
    congr 1
    apply Finset.sum_congr rfl
    intro order horder
    rw [tokenWeight, if_pos (hbond order horder), if_neg ha]
    by_cases hseller : a = order.seller
    · rw [if_pos hseller, if_pos hseller.symm]
      ring
    · rw [if_neg hseller, if_neg (Ne.symm hseller)]
      ring
  · rw [hBought.quotes, hA.tally_eq hsub, Greedy.cost, sub_eq_add_neg, ← Finset.sum_neg_distrib]
    congr 1
    apply Finset.sum_congr rfl
    intro order horder
    rw [hquote buyer order horder, if_pos rfl, if_neg (hstranger order horder)]
    ring
  · intro a ha
    rw [hBought.quotes, hA.tally_eq hsub, Finset.sum_filter]
    congr 1
    apply Finset.sum_congr rfl
    intro order horder
    rw [hquote a order horder, if_neg ha]
    by_cases hseller : a = order.seller
    · rw [if_pos hseller, if_pos hseller.symm]
      ring
    · rw [if_neg hseller, if_neg (Ne.symm hseller)]
      ring
  · intro q hq
    rw [hBought.quotes, hA.tally_eq hsub, Finset.sum_eq_zero, add_zero]
    intro order horder
    unfold quoteWeight
    by_cases hquoted : order.quoteAsset = q
    · rw [hasset order horder (hquoted ▸ hq), mul_zero]
    · rw [if_neg hquoted, zero_mul]

/-! ### The orders of a quote -/

/-- The orders `L` are those the quote of bond `b` is computed from, and `buyer` owns none. Only
sellers are taken from, so nothing is asked of the buyer's own tokens. -/
structure Setting (now : ℕ) (buyer : Address) (b : BondId) (m : Market) (L : Finset Order) :
    Prop where
  ready : Ready m
  quoted : ∀ order, order ∈ L ↔ Quoted now m.router b order
  strangers : ∀ order ∈ L, buyer ≠ order.seller

theorem Setting.subset (hS : Setting now buyer b m L) : L ⊆ orders m := by
  intro order horder
  exact (mem_orders hS.ready).mpr ((hS.quoted order).mp horder).1

theorem Setting.moved (hS : Setting now buyer b m L) (hB : Buys now signers buyer m h m')
    (hsub : S ⊆ L) (hA : Amounts m S y h)
    (hasset : ∀ order ∈ S, order.quoteAsset ≠ asset → y order = 0) :
    Moved buyer b asset S y m m' :=
  .of_amounts (hB.bought hS.ready) hA (hsub.trans hS.subset)
    (fun order horder => ((hS.quoted order).mp (hsub horder)).2.1)
    (fun order horder => hS.strangers order (hsub horder)) hasset

/-! ### Buying one order after the other -/

/-- One more order still fits. -/
theorem add_sum_le {f : Order → ℤ} (hf : ∀ order ∈ L, 0 ≤ f order) (hsub : S ⊆ L) {order : Order}
    (hmem : order ∈ L) (hnot : order ∉ S) : f order + ∑ x ∈ S, f x ≤ ∑ x ∈ L, f x := by
  rw [← Finset.sum_insert hnot]
  exact Finset.sum_le_sum_of_subset_of_nonneg (Finset.insert_subset hmem hsub)
    fun x hx _ => hf x hx

theorem add_sum_seller_le {f : Order → ℤ} (hf : ∀ order ∈ L, 0 ≤ f order) (hsub : S ⊆ L)
    {order : Order} (hmem : order ∈ L) (hnot : order ∉ S) :
    f order + ∑ x ∈ S with x.seller = order.seller, f x ≤
      ∑ x ∈ L with x.seller = order.seller, f x := by
  apply add_sum_le
  · intro x hx
    exact hf x (Finset.mem_of_mem_filter x hx)
  · exact Finset.filter_subset_filter _ hsub
  · exact Finset.mem_filter.mpr ⟨hmem, rfl⟩
  · intro h
    exact hnot (Finset.mem_of_mem_filter order h)

/-- Bond `b` can be traded: it is active and not mature. -/
def Tradable (now : ℕ) (m : Market) (b : BondId) : Prop :=
  ∃ config state, m.issuer.bondConfig b = some config ∧ m.issuer.bondState b = some state ∧
    state.status = .active ∧ now < config.maturityDate

/-- The next order can be bought, after the amounts `y` of the orders `S` were. -/
theorem Executable.purchasable (hE : Executable m b asset L amount y)
    (hS : Setting now buyer b m L) (hB : Buys now signers buyer m h m') (hsub : S ⊆ L)
    (hA : Amounts m S y h) (htradable : Tradable now m b)
    (hfunds : Greedy.cost Order.pricePerToken L y ≤ m.router.balance (asset, buyer))
    (hbuyer : buyer ∈ signers) {order : Order} (hseller : order.seller ∈ signers)
    (hmem : order ∈ L) (hnot : order ∉ S) (hpositive : 0 < y order) :
    Purchasable now m'.issuer m'.router signers buyer (y order) order := by
  obtain ⟨⟨o, hfound⟩, hbond, hlive, htime⟩ := (hS.quoted order).mp hmem
  have hstranger := hS.strangers order hmem
  have hid := hS.ready.indexed.id o order hfound
  have hquote : order.quoteAsset = asset := by
    by_contra hne
    rw [hE.inAsset order hmem hne] at hpositive
    exact lt_irrefl 0 hpositive
  have hM := hS.moved hB hsub hA fun x hx => hE.inAsset x (hsub hx)
  have hR := hB.ready hS.ready
  have hBought := hB.bought hS.ready
  have hprice := hS.ready.priced o order hfound
  have hproceeds : 0 ≤ y order * order.pricePerToken := mul_nonneg hpositive.le hprice.le
  have hcosts : ∀ x ∈ L, 0 ≤ y x * x.pricePerToken := by
    intro x hx
    obtain ⟨⟨ox, hx'⟩, -⟩ := (hS.quoted x).mp hx
    exact mul_nonneg (hE.takes.nonneg x hx) (hS.ready.priced ox x hx').le
  -- what was bought before leaves enough tokens, enough money and enough room
  have hheld : y order ≤ m'.issuer.holderBalance (b, order.seller) := by
    have hle := add_sum_seller_le hE.takes.nonneg hsub hmem hnot
    have htotal := hE.held order.seller
    rw [hM.given order.seller hstranger.symm]
    omega
  have hpaid : y order * order.pricePerToken ≤ m'.router.balance (asset, buyer) := by
    have hle := add_sum_le hcosts hsub hmem hnot
    unfold Greedy.cost at hfunds
    rw [hM.paid, Greedy.cost]
    omega
  have hroom : m'.router.balance (asset, order.seller) + y order * order.pricePerToken ≤
      maxValue := by
    have hle := add_sum_seller_le hcosts hsub hmem hnot
    have htotal := hE.room order.seller
    rw [hM.received order.seller hstranger.symm]
    omega
  have hbalance := hR.balance_nonneg asset order.seller
  obtain ⟨config, state, hconfig, hstate, hactive, hmaturity⟩ := htradable
  rw [← hBought.configs] at hconfig
  rw [← hBought.states] at hstate
  have hholders := hR.holders_le hstate hstranger
  have htokens := hR.ledger.nonneg b buyer
  constructor
  case found =>
    obtain ⟨order', hfound', hK⟩ := hBought.records o order hfound
    have hzero : filled o h = 0 := by
      rw [← hid, hA order (hS.subset hmem), if_neg hnot]
    rw [hid, hfound', hK.untouched hzero]
  case live => exact hlive
  case inTime => exact htime
  case stranger => exact hstranger
  case signed => exact ⟨hbuyer, hseller⟩
  case positive => exact hpositive
  case left => exact hE.takes.le order hmem
  case proceeds => exact .of_nonneg hproceeds (hpaid.trans (hR.bounded _))
  case funds =>
    rw [hquote]
    exact hpaid
  case room =>
    rw [hquote]
    exact .of_nonneg (by omega) hroom
  case movable =>
    rw [hbond]
    refine ⟨⟨config, state, hconfig, hstate, hactive, hmaturity⟩, hheld, ?_, ?_⟩
    · exact .of_nonneg (by omega) (by omega)
    · exact .of_nonneg (by omega) (by omega)

/-- **One order after the other.** The induction is on the orders that are still to be bought; those
left are untouched by the ones before. -/
theorem Executable.buys (hE : Executable m b asset L amount y) (hS : Setting now buyer b m L)
    (htradable : Tradable now m b)
    (hfunds : Greedy.cost Order.pricePerToken L y ≤ m.router.balance (asset, buyer))
    (hbuyer : buyer ∈ signers) (hsellers : ∀ order ∈ L, order.seller ∈ signers) (hsub : S ⊆ L) :
    ∃ h m', Buys now signers buyer m h m' ∧ Amounts m S y h := by
  induction S using Finset.induction_on with
  | empty => exact ⟨[], m, .start, fun _ _ => rfl⟩
  | insert order S hnot ih =>
    obtain ⟨hmem, hsub⟩ := Finset.insert_subset_iff.mp hsub
    obtain ⟨h, m', hB, hA⟩ := ih hsub
    -- what was bought, once the new order has its amount too
    have hamounts : ∀ {c : Call}, (∀ o, c.op.fills o = if order.id = o then y order else 0) →
        Amounts m (insert order S) y (c :: h) := by
      intro c hfills x hx
      rw [filled_cons, hA x hx, hfills]
      by_cases hxo : x = order
      · rw [hxo, if_neg hnot, if_pos rfl, if_pos (Finset.mem_insert_self order S), zero_add]
      · have hid : order.id ≠ x.id := by
          intro hid
          exact hxo (id_injOn hS.ready (hS.subset hmem) hx hid).symm
        rw [if_neg hid, add_zero]
        simp only [Finset.mem_insert, hxo, false_or]
    rcases (hE.takes.nonneg order hmem).eq_or_lt with hzero | hpositive
    · -- nothing is bought of this one
      refine ⟨h, m', hB, ?_⟩
      intro x hx
      rw [hA x hx]
      by_cases hxo : x = order
      · rw [hxo, if_neg hnot, if_pos (Finset.mem_insert_self order S), hzero]
      · simp only [Finset.mem_insert, hxo, false_or]
    · have hP :=
        hE.purchasable hS hB hsub hA htradable hfunds hbuyer (hsellers order hmem) hmem hnot
        hpositive
      obtain ⟨s, issuer, hpurchase⟩ := hP.exec
      have hexec : machine.exec now m' (.router (.executePurchase signers buyer order.id
          order.pricePerToken (y order) (m'.router.nonce buyer))) =
          .ok (⟨issuer, s⟩, .router .unit) := by
        unfold machine
        dsimp only
        rw [Marketplace.exec, hpurchase]
        rfl
      exact ⟨_, _, .buy hB hexec, hamounts fun o => rfl⟩

/-- **A quote that can be executed.** The purchases are made one by one, and what they move adds up
to what the statement asks for. -/
theorem Executable.delivers (hE : Executable m b asset L amount y) (hS : Setting now buyer b m L)
    (htradable : Tradable now m b)
    (hfunds : Greedy.cost Order.pricePerToken L y ≤ m.router.balance (asset, buyer))
    (hbuyer : buyer ∈ signers) (hsellers : ∀ order ∈ L, order.seller ∈ signers) :
    Delivers now signers buyer b asset amount (Greedy.cost Order.pricePerToken L y) m := by
  obtain ⟨h, m', hB, hA⟩ := hE.buys hS htradable hfunds hbuyer hsellers (Finset.Subset.refl L)
  have hM := hS.moved hB (Finset.Subset.refl L) hA hE.inAsset
  refine ⟨h, m', hB, ?_, hM.paid, hM.others⟩
  rw [hM.delivered, hE.takes.sum]

/-! ### Purchases that deliver a quote -/

/-- What is bought is bought from orders of the book, by a stranger. -/
theorem Bought.filled_pos (hBought : Bought now buyer m h m') (hS : Setting now buyer b m L)
    {order : Order} (hmem : order ∈ orders m) (hpositive : 0 < filled order.id h) :
    order.Live ∧ ¬ order.Expired now ∧ buyer ≠ order.seller ∧ filled order.id h ≤ order.amount := by
  obtain ⟨o, hfound⟩ := (mem_orders hS.ready).mp hmem
  obtain ⟨order', -, hK⟩ := hBought.records o order hfound
  rw [hS.ready.indexed.id o order hfound] at hpositive ⊢
  exact hK.bought hpositive

theorem Bought.filled_nonneg (hBought : Bought now buyer m h m') (hS : Setting now buyer b m L)
    {order : Order} (hmem : order ∈ orders m) : 0 ≤ filled order.id h := by
  obtain ⟨o, hfound⟩ := (mem_orders hS.ready).mp hmem
  obtain ⟨order', -, hK⟩ := hBought.records o order hfound
  rw [hS.ready.indexed.id o order hfound]
  exact hK.nonneg

/-- The tokens of bond `b` are those bought from the orders of its quote. -/
theorem Bought.sum_eq (hBought : Bought now buyer m h m') (hS : Setting now buyer b m L) :
    m'.issuer.holderBalance (b, buyer) =
      m.issuer.holderBalance (b, buyer) + ∑ order ∈ L, filled order.id h := by
  rw [hBought.tokens, tally, ← Finset.sum_subset hS.subset]
  · congr 1
    apply Finset.sum_congr rfl
    intro order hmem
    rw [tokenWeight, if_pos ((hS.quoted order).mp hmem).2.1, if_pos rfl,
      if_neg (hS.strangers order hmem)]
    ring
  · intro order hmem hnot
    rcases (hBought.filled_nonneg hS hmem).eq_or_lt with hzero | hpositive
    · rw [← hzero, mul_zero]
    · obtain ⟨hlive, htime, -, -⟩ := hBought.filled_pos hS hmem hpositive
      obtain ⟨o, hfound⟩ := (mem_orders hS.ready).mp hmem
      have hbond : order.bondId ≠ b := by
        intro hbond
        exact hnot ((hS.quoted order).mpr ⟨⟨o, hfound⟩, hbond, hlive, htime⟩)
      rw [tokenWeight, if_neg hbond, zero_mul]

/-- What the buyer paid in `q`. -/
theorem Bought.paid_eq (hBought : Bought now buyer m h m') (hS : Setting now buyer b m L)
    (q : DexRouter.Symbol) : m'.router.balance (q, buyer) = m.router.balance (q, buyer) -
      ∑ order ∈ orders m with order.quoteAsset = q,
        filled order.id h * order.pricePerToken := by
  rw [hBought.quotes, tally, Finset.sum_filter, sub_eq_add_neg, ← Finset.sum_neg_distrib]
  congr 1
  apply Finset.sum_congr rfl
  intro order hmem
  unfold quoteWeight
  by_cases hq : order.quoteAsset = q
  · rw [if_pos hq, if_pos hq, if_pos rfl]
    rcases (hBought.filled_nonneg hS hmem).eq_or_lt with hzero | hpositive
    · rw [← hzero]
      ring
    · rw [if_neg (hBought.filled_pos hS hmem hpositive).2.2.1]
      ring
  · rw [if_neg hq, if_neg hq, zero_mul, neg_zero]

/-- An order nothing was paid for was not bought from. -/
theorem filled_eq_zero (hR : Ready m) {order : Order} (hmem : order ∈ orders m)
    (hcost : filled order.id h * order.pricePerToken = 0) : filled order.id h = 0 := by
  obtain ⟨o, hfound⟩ := (mem_orders hR).mp hmem
  rcases mul_eq_zero.mp hcost with hzero | hzero
  · exact hzero
  · exact absurd hzero (hR.priced o order hfound).ne'

/-- Purchases that cost the least and are paid in `asset` are of orders in `L`, in `asset`. -/
theorem Bought.cheapest (hBought : Bought now buyer m h m') (hS : Setting now buyer b m L)
    (hbest : total ≤ Greedy.cost Order.pricePerToken L fun order => filled order.id h)
    (hpaid : ∑ order ∈ orders m with order.quoteAsset = asset,
      filled order.id h * order.pricePerToken = total)
    (hothers : ∀ q, q ≠ asset → ∑ order ∈ orders m with order.quoteAsset = q,
      filled order.id h * order.pricePerToken = 0) :
    Greedy.cost Order.pricePerToken L (fun order => filled order.id h) = total ∧
      ∀ order ∈ orders m, order ∉ L ∨ order.quoteAsset ≠ asset → filled order.id h = 0 := by
  have hnonneg : ∀ order ∈ orders m, 0 ≤ filled order.id h * order.pricePerToken := by
    intro order hmem
    obtain ⟨o, hfound⟩ := (mem_orders hS.ready).mp hmem
    exact mul_nonneg (hBought.filled_nonneg hS hmem) (hS.ready.priced o order hfound).le
  -- nothing was bought in other assets
  have hinAsset : ∀ order ∈ orders m, order.quoteAsset ≠ asset → filled order.id h = 0 := by
    intro order hmem hne
    have hzero := hothers order.quoteAsset hne
    rw [Finset.sum_eq_zero_iff_of_nonneg] at hzero
    · exact filled_eq_zero hS.ready hmem (hzero order (Finset.mem_filter.mpr ⟨hmem, rfl⟩))
    · intro x hx
      exact hnonneg x (Finset.mem_of_mem_filter x hx)
  have htotal : ∑ order ∈ orders m, filled order.id h * order.pricePerToken = total := by
    rw [← hpaid, Finset.sum_filter_of_ne]
    intro order hmem hne
    by_contra hother
    rw [hinAsset order hmem hother, zero_mul] at hne
    exact hne rfl
  -- and the orders of the quote cost `total` already, so nothing outside of it either
  have hsplit := Finset.sum_sdiff hS.subset
    (f := fun order => filled order.id h * order.pricePerToken)
  have houtside : 0 ≤ ∑ order ∈ orders m \ L, filled order.id h * order.pricePerToken :=
    Finset.sum_nonneg fun order hmem => hnonneg order (Finset.mem_sdiff.mp hmem).1
  have hcost : Greedy.cost Order.pricePerToken L (fun order => filled order.id h) =
      ∑ order ∈ L, filled order.id h * order.pricePerToken := rfl
  have hnone : ∑ order ∈ orders m \ L, filled order.id h * order.pricePerToken = 0 := by
    linarith
  refine ⟨by linarith, ?_⟩
  rintro order hmem (hnot | hne)
  · rw [Finset.sum_eq_zero_iff_of_nonneg] at hnone
    · exact filled_eq_zero hS.ready hmem (hnone order (Finset.mem_sdiff.mpr ⟨hmem, hnot⟩))
    · intro x hx
      exact hnonneg x (Finset.mem_sdiff.mp hx).1
  · exact hinAsset order hmem hne

/-- **A quote that was executed.** What was bought of each order is a way of taking the tokens, and
its cost is the total paid. -/
theorem executable_of_delivers (hS : Setting now buyer b m L)
    (hbest : IsLeast (totals L (min amount (∑ order ∈ L, order.amount))) total)
    (hD : Delivers now signers buyer b asset amount total m) :
    ∃ y, Executable m b asset L amount y := by
  obtain ⟨h, m', hB, htokens, hpaid, hothers⟩ := hD
  have hBought := hB.bought hS.ready
  have htakes : Greedy.Takes Order.amount L amount fun order => filled order.id h := by
    constructor
    case nonneg =>
      intro order hmem
      exact hBought.filled_nonneg hS (hS.subset hmem)
    case le =>
      intro order hmem
      rcases (hBought.filled_nonneg hS (hS.subset hmem)).eq_or_lt with hzero | hpositive
      · -- the capacities are not negative, because something can be taken
        obtain ⟨z, hz, -⟩ := hbest.1
        rw [← hzero]
        exact (hz.nonneg order hmem).trans (hz.le order hmem)
      · exact (hBought.filled_pos hS (hS.subset hmem) hpositive).2.2.2
    case sum =>
      rw [hBought.sum_eq hS] at htokens
      linarith
  rw [min_eq_left htakes.le_sum] at hbest
  have hspent : ∑ order ∈ orders m with order.quoteAsset = asset,
      filled order.id h * order.pricePerToken = total := by
    rw [hBought.paid_eq hS] at hpaid
    linarith
  have hunspent : ∀ q, q ≠ asset → ∑ order ∈ orders m with order.quoteAsset = q,
      filled order.id h * order.pricePerToken = 0 := by
    intro q hq
    have hsame := hothers q hq
    rw [hBought.paid_eq hS] at hsame
    linarith
  obtain ⟨hcost, hnone⟩ := hBought.cheapest hS (hbest.2 ⟨_, htakes, rfl⟩) hspent hunspent
  have hinAsset : ∀ order ∈ L, order.quoteAsset ≠ asset → filled order.id h = 0 :=
    fun order hmem hne => hnone order (hS.subset hmem) (.inr hne)
  have hA : Amounts m L (fun order => filled order.id h) h := by
    intro order hmem
    by_cases hL : order ∈ L
    · rw [if_pos hL]
    · rw [if_neg hL]
      exact hnone order hmem (.inl hL)
  have hM := hS.moved hB (Finset.Subset.refl L) hA hinAsset
  have hR := hB.ready hS.ready
  -- nothing is taken from the buyer
  have hbuyer : ∀ f : Order → ℤ, ∑ order ∈ L with order.seller = buyer, f order = 0 := by
    intro f
    rw [Finset.filter_false_of_mem, Finset.sum_empty]
    intro order hmem heq
    exact hS.strangers order hmem heq.symm
  refine ⟨fun order => filled order.id h, htakes, hcost ▸ hbest, hinAsset, ?_, ?_⟩
  · intro seller
    by_cases hseller : seller = buyer
    · rw [hseller, hbuyer]
      exact hS.ready.ledger.nonneg b buyer
    · have hleft := hR.ledger.nonneg b seller
      rw [hM.given seller hseller] at hleft
      exact sub_nonneg.mp hleft
  · intro seller
    by_cases hseller : seller = buyer
    · rw [hseller, hbuyer, add_zero]
      exact hS.ready.bounded (asset, buyer)
    · rw [← hM.received seller hseller]
      exact hR.bounded (asset, seller)

/-! ### Quotes in the running marketplace -/

/-- A quote that is not zero is the least total of its orders. -/
theorem setting_of_quote (hrun : Run h m) {avg slip : ℤ}
    (hquote : getBestPrice now m.router b .buy amount = .ok (avg, total, slip)) (htotal : 0 < total)
    (hstranger : ∀ o order, m.router.order o = some order → order.bondId = b → order.Live →
      buyer ≠ order.seller) :
    ∃ L, Setting now buyer b m L ∧
      IsLeast (totals L (min amount (∑ order ∈ L, order.amount))) total := by
  have hamount : 0 < amount := by
    rw [getBestPrice, bind_eq_ok] at hquote
    obtain ⟨_, hpositive, -⟩ := hquote
    exact ensure_eq_ok.mp hpositive
  have hno : getBestPrice now m.router b .buy amount ≠ .error (.error .overflow) := by
    rw [hquote]
    intro hover
    cases hover
  obtain ⟨⟨L, hL, quote, hquote', hempty, hoptimal⟩, -⟩ :=
    get_best_price_optimal hrun now b .buy hamount hno
  rw [hquote] at hquote'
  cases hquote'
  have hnonempty : L.Nonempty := by
    rw [Finset.nonempty_iff_ne_empty]
    intro hzero
    cases hempty hzero
    exact lt_irrefl 0 htotal
  obtain ⟨best, hbest⟩ := hoptimal hnonempty
  refine ⟨L, ⟨ready_of_run hrun, hL, ?_⟩, hbest.total⟩
  intro order hmem
  obtain ⟨⟨o, hfound⟩, hbond, hlive, -⟩ := (hL order).mp hmem
  exact hstranger o order hfound hbond hlive

/-- **Executable quotes.** In every reachable state, a stranger to the book who has the quoted total
of `asset` can have the quoted tokens for it, and for nothing else, exactly when some cheapest way
of taking them uses orders quoted in `asset` only, takes from no seller more than it holds and
overflows no seller's balance. -/
theorem quote_executable_iff (hrun : Run h m) (now : ℕ) (signers : List Address) (buyer : Address)
    (b : BondId) (asset : DexRouter.Symbol) {amount avg total slip : ℤ}
    (htradable : Tradable now m b)
    (hquote : getBestPrice now m.router b .buy amount = .ok (avg, total, slip)) (htotal : 0 < total)
    (hstranger : ∀ o order, m.router.order o = some order → order.bondId = b → order.Live →
      buyer ≠ order.seller)
    (hbuyer : buyer ∈ signers)
    (hsellers : ∀ o order, m.router.order o = some order → order.bondId = b → order.Live →
      order.seller ∈ signers)
    (hfunds : total ≤ m.router.balance (asset, buyer)) :
    Delivers now signers buyer b asset amount total m ↔
      ∃ L y, (∀ order, order ∈ L ↔ Quoted now m.router b order) ∧
        Executable m b asset L amount y := by
  obtain ⟨L, hS, hbest⟩ := setting_of_quote hrun hquote htotal hstranger
  constructor
  · intro hD
    obtain ⟨y, hE⟩ := executable_of_delivers hS hbest hD
    exact ⟨L, y, hS.quoted, hE⟩
  · rintro ⟨L', y, hL', hE⟩
    have hsame : L' = L := by
      ext order
      rw [hL', hS.quoted]
    subst hsame
    rw [min_eq_left hE.takes.le_sum] at hbest
    have hcost := hE.cheapest.unique hbest
    subst hcost
    apply hE.delivers hS htradable hfunds hbuyer
    intro order hmem
    obtain ⟨⟨o, hfound⟩, hbond, hlive, -⟩ := (hL' order).mp hmem
    exact hsellers o order hfound hbond hlive

/-- A seller of 10 tokens offers 15 of them in two orders. 8 tokens are quoted at 19 and bought, 5
at a price of 2 and 3 at a price of 3. -/
theorem quote_executable_two_orders : ∃ h m, Run h m ∧
    getBestPrice 5 m.router 1 .buy 8 = .ok (2, 19, 1875) ∧
    ∃ L y, (∀ order, order ∈ L ↔ Quoted 5 m.router 1 order) ∧
      Executable m 1 "USDC" L 8 y := by
  let ops : List (ℕ × Op) := listing.append [(4, .router (.listBondTokens ⟨1⟩ 1 5 2 "USDC" 60 1))]
  let first : Op := .router (.executePurchase [⟨1⟩, ⟨2⟩] ⟨2⟩ 2 2 5 1)
  let second : Op := .router (.executePurchase [⟨1⟩, ⟨2⟩] ⟨2⟩ 1 3 3 2)
  have hplay : (machine.play [] (deploy ⟨0⟩) ops).map (fun x : List Call × Market =>
      ((getBestPrice 5 x.2.router 1 .buy 8).toOption,
        (decide (∀ order ∈ orders x.2, order.seller = ⟨1⟩ ∧ order.quoteAsset = "USDC"),
        (x.2.issuer.bondConfig 1).any fun config => 5 < config.maturityDate,
        (x.2.issuer.bondState 1).any fun state => state.status = .active),
        (x.2.issuer.holderBalance (1, ⟨2⟩), x.2.router.balance ("USDC", ⟨2⟩)),
        ((machine.exec 5 x.2 first).toOption.bind fun y => (machine.exec 5 y.1 second).toOption).map
          fun y => (y.1.issuer.holderBalance (1, ⟨2⟩), y.1.router.balance ("USDC", ⟨2⟩)))) =
      some (some (2, 19, 1875), (true, true, true), (0, 100), some (8, 81)) := by
    decide +kernel
  obtain ⟨h, m, hrun, hview⟩ := Run.of_play (Init.deploy ⟨0⟩) hplay
  simp only [Prod.mk.injEq, decide_eq_true_eq, Option.any_eq_true, Option.map_eq_some_iff,
    Option.bind_eq_some_iff, toOption_eq_some] at hview
  obtain ⟨hquote, ⟨horders, ⟨config, hconfig, hmaturity⟩, state, hstate, hactive⟩,
    ⟨htokens, hfunds⟩, ⟨m₂, ret₂⟩, ⟨⟨m₁, ret₁⟩, hfirst, hsecond⟩, htokens₂, hfunds₂⟩ := hview
  have hR := ready_of_run hrun
  have hseller : ∀ o order, m.router.order o = some order → order.seller = ⟨1⟩ := by
    intro o order hfound
    exact (horders order ((mem_orders hR).mpr ⟨o, hfound⟩)).1
  have hB := (Buys.start.buy hfirst).buy hsecond
  have hD : Delivers 5 [⟨1⟩, ⟨2⟩] ⟨2⟩ 1 "USDC" 8 19 m := by
    refine ⟨_, m₂, hB, ?_, ?_, ?_⟩
    · rw [htokens₂, htokens]
      rfl
    · rw [hfunds₂, hfunds]
      rfl
    · -- the other assets are those of no order
      intro q hq
      rw [(hB.bought hR).quotes, tally, Finset.sum_eq_zero, add_zero]
      intro order hmem
      rw [quoteWeight, if_neg, zero_mul]
      rintro rfl
      exact hq (horders order hmem).2
  refine ⟨h, m, hrun, hquote, (quote_executable_iff hrun 5 [⟨1⟩, ⟨2⟩] ⟨2⟩ 1 "USDC"
    ⟨config, state, hconfig, hstate, hactive, hmaturity⟩ hquote (by decide) ?_ (by decide) ?_ ?_).mp
    hD⟩
  · intro o order hfound _ _
    rw [hseller o order hfound]
    decide
  · intro o order hfound _ _
    rw [hseller o order hfound]
    decide
  · rw [hfunds]
    decide

/-- Not every quote can be executed: the seller of an order of 10 tokens has sent 5 of them to
someone else, and the quote for 10 counts all of them. -/
theorem quote_not_executable : ¬ ∀ h m, Run h m → ∀ (now : ℕ) (signers : List Address)
    (buyer : Address) (b : BondId) (asset : DexRouter.Symbol) (amount avg total slip : ℤ),
    Tradable now m b → getBestPrice now m.router b .buy amount = .ok (avg, total, slip) →
    0 < total →
    (∀ o order, m.router.order o = some order → order.bondId = b → order.Live →
      buyer ≠ order.seller) →
    buyer ∈ signers →
    (∀ o order, m.router.order o = some order → order.bondId = b → order.Live →
      order.seller ∈ signers) →
    (∃ order, Quoted now m.router b order ∧ order.quoteAsset = asset) →
    m.router.balance (asset, buyer) = total →
    Delivers now signers buyer b asset amount total m := by
  intro hclaim
  let ops : List (ℕ × Op) := listing.append
    [(4, .router (.withdrawQuote ⟨2⟩ "USDC" 70 1)), (4, .issuer (.transfer ⟨1⟩ ⟨3⟩ 1 5 1))]
  have hplay : (machine.play [] (deploy ⟨0⟩) ops).map (fun x : List Call × Market =>
      ((getBestPrice 5 x.2.router 1 .buy 10).toOption,
        decide (∀ order ∈ orders x.2, order.seller = ⟨1⟩),
        ((x.2.issuer.bondConfig 1).any fun config => 5 < config.maturityDate,
        (x.2.issuer.bondState 1).any fun state => state.status = .active),
        (x.2.issuer.holderBalance (1, ⟨1⟩), x.2.router.balance ("USDC", ⟨2⟩)),
        (x.2.router.order 1).any fun order =>
          order.bondId = 1 ∧ order.Live ∧ ¬ order.Expired 5 ∧ order.quoteAsset = "USDC")) =
      some (some (3, 30, 0), true, (true, true), (5, 30), true) := by
    decide +kernel
  obtain ⟨h, m, hrun, hview⟩ := Run.of_play (Init.deploy ⟨0⟩) hplay
  simp only [Prod.mk.injEq, decide_eq_true_eq, Option.any_eq_true, toOption_eq_some] at hview
  obtain ⟨hquote, horders, ⟨⟨config, hconfig, hmaturity⟩, state, hstate, hactive⟩, ⟨hheld, hfunds⟩,
    order, hfound, hbond, hlive, htime, hasset⟩ := hview
  have hR := ready_of_run hrun
  have hseller : ∀ o order, m.router.order o = some order → order.seller = ⟨1⟩ := by
    intro o order hfound
    exact horders order ((mem_orders hR).mpr ⟨o, hfound⟩)
  have hstranger : ∀ o order, m.router.order o = some order → order.bondId = 1 → order.Live →
      (⟨2⟩ : Address) ≠ order.seller := by
    intro o order hfound _ _
    rw [hseller o order hfound]
    decide
  have hD : Delivers 5 [⟨1⟩, ⟨2⟩] ⟨2⟩ 1 "USDC" 10 30 m := by
    apply hclaim h m hrun 5 [⟨1⟩, ⟨2⟩] ⟨2⟩ 1 "USDC" 10 3 30 0
      ⟨config, state, hconfig, hstate, hactive, hmaturity⟩ hquote (by decide) hstranger (by decide)
      ?_ ⟨order, ⟨⟨1, hfound⟩, hbond, hlive, htime⟩, hasset⟩ hfunds
    intro o order hfound _ _
    rw [hseller o order hfound]
    decide
  -- all of it would have to come from the one seller
  obtain ⟨L, hS, hbest⟩ := setting_of_quote hrun hquote (by decide) hstranger
  obtain ⟨y, hE⟩ := executable_of_delivers hS hbest hD
  have hle := hE.held ⟨1⟩
  have hall : ∀ order ∈ L, order.seller = ⟨1⟩ := by
    intro order hmem
    obtain ⟨⟨o, hfound⟩, -⟩ := (hS.quoted order).mp hmem
    exact hseller o order hfound
  rw [Finset.filter_true_of_mem hall, hE.takes.sum, hheld] at hle
  exact absurd hle (by decide)

end Marketplace
end NbsBond
