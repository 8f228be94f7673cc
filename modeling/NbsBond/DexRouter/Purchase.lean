import NbsBond.DexRouter.Ledger

/-!
# When a purchase goes through

`Purchased` is what a committed purchase did. `Purchasable` is what it takes for one to be
committed, in the two contracts, and `Bounded` the invariant that keeps the checked additions of the
quote balances apart from the rest.
-/

namespace NbsBond
namespace DexRouter

open Soroban Int128

variable {now : ℕ} {issuer issuer' : BondIssuer.State} {s s' : State} {signers : List Address}
  {buyer seller : Address} {bondId : BondId} {amount : ℤ}

/-- `BondIssuer` moves the tokens: the bond is active and not mature, the seller has them, and the
new balances fit an `i128`. -/
structure Movable (now : ℕ) (issuer : BondIssuer.State) (seller buyer : Address) (bondId : BondId)
    (amount : ℤ) : Prop where
  transferable : ∃ config state, issuer.bondConfig bondId = some config ∧
    issuer.bondState bondId = some state ∧ state.status = .active ∧ now < config.maturityDate
  held : amount ≤ issuer.holderBalance (bondId, seller)
  left : InRange (issuer.holderBalance (bondId, seller) - amount)
  room : InRange (issuer.holderBalance (bondId, buyer) + amount)

theorem Movable.transferBonds (h : Movable now issuer seller buyer bondId amount)
    (hsigned : seller ∈ signers) (hstranger : buyer ≠ seller) (hpositive : 0 < amount) :
    ∃ issuer', DexRouter.transferBonds now signers issuer seller buyer bondId amount =
      .ok issuer' := by
  obtain ⟨config, state, hconfig, hstate, hactive, hmaturity⟩ := h.transferable
  have htransfer : ∃ issuer', BondIssuer.transfer now issuer seller buyer bondId amount
      (issuer.nonce seller) = .ok issuer' := by
    simp only [BondIssuer.transfer, bind_eq_ok, pure_eq_ok, useNonce_eq_ok, ensure_eq_ok,
      orError_eq_ok, checkedAdd_eq_some, checkedSub_eq_some]
    refine ⟨_, _, ⟨trivial, rfl⟩, (), hstranger, (), hpositive, config, hconfig, state, hstate, (),
      hactive, (), hmaturity, (), h.held, _, ⟨h.left, rfl⟩, _, ⟨?_, rfl⟩, rfl⟩
    -- the buyer's balance is not the one just written
    rw [Function.update_of_ne (by simp [hstranger])]
    exact h.room
  obtain ⟨issuer', htransfer⟩ := htransfer
  -- the router calls for the seller, who has to sign as well
  have hcall : (do
      requireAuth signers seller
      BondIssuer.transfer now issuer seller buyer bondId amount (issuer.nonce seller)) =
      (.ok issuer' : Result BondError BondIssuer.State) := by
    rw [bind_eq_ok]
    exact ⟨(), requireAuth_eq_ok.mpr hsigned, htransfer⟩
  refine ⟨issuer', ?_⟩
  unfold DexRouter.transferBonds
  dsimp only
  rw [hcall]

/-- What it takes to buy `amount` tokens of `order`. With the nonce and the price of the order these
are all the checks, those of the `transfer` inside included. -/
structure Purchasable (now : ℕ) (issuer : BondIssuer.State) (s : State) (signers : List Address)
    (buyer : Address) (amount : ℤ) (order : Order) : Prop where
  found : s.order order.id = some order
  live : order.Live
  inTime : ¬ order.Expired now
  stranger : buyer ≠ order.seller
  signed : buyer ∈ signers ∧ order.seller ∈ signers
  positive : 0 < amount
  left : amount ≤ order.amount
  proceeds : InRange (amount * order.pricePerToken)
  funds : amount * order.pricePerToken ≤ s.balance (order.quoteAsset, buyer)
  room : InRange (s.balance (order.quoteAsset, order.seller) + amount * order.pricePerToken)
  movable : Movable now issuer order.seller buyer order.bondId amount

/-- **Then it is bought.** -/
theorem Purchasable.exec {order : Order}
    (h : Purchasable now issuer s signers buyer amount order) :
    ∃ s' issuer', DexRouter.exec now issuer s (.executePurchase signers buyer order.id
      order.pricePerToken amount (s.nonce buyer)) = .ok ((s', issuer'), .unit) := by
  obtain ⟨issuer', htransfer⟩ := h.movable.transferBonds h.signed.2 h.stranger h.positive
  have hverified : verifyHolderBalance issuer order.seller order.bondId amount = .ok () :=
    ensure_eq_ok.mpr h.movable.held
  have hpaid : ∃ balance, payQuote s.balance order.quoteAsset buyer order.seller
      (amount * order.pricePerToken) = .ok balance := by
    simp only [payQuote, bind_eq_ok, ensure_eq_ok, orError_eq_ok, checkedAdd_eq_some, pure_eq_ok]
    refine ⟨_, (), h.funds, _, ⟨?_, rfl⟩, rfl⟩
    -- nor is the seller's quote balance
    rw [Function.update_of_ne (by simp [h.stranger.symm])]
    exact h.room
  obtain ⟨balance, hpaid⟩ := hpaid
  simp only [DexRouter.exec, executePurchase, bind_eq_ok, ensure_eq_ok, orError_eq_ok,
    checkedMul_eq_some, requireAuth_eq_ok, useNonce_eq_ok, pure_eq_ok, Prod.mk.injEq]
  refine ⟨_, issuer', _, ⟨(), h.signed.1, _, ⟨trivial, rfl⟩, order, h.found, (), h.live, (),
    h.stranger, (), h.inTime, (), h.positive, (), h.left, (), le_rfl, (), ?_, _, ⟨h.proceeds, rfl⟩,
    balance, hpaid, issuer', htransfer, rfl⟩, rfl, trivial⟩
  rw [hverified]
  rfl

/-! ### Quote balances fit an `i128` -/

/-- No quote balance exceeds the range of an `i128`. -/
def Bounded (s : State) : Prop := ∀ key, s.balance key ≤ maxValue

theorem Bounded.initial (admin : Address) : Bounded (construct admin) := by
  intro key
  show (0 : ℤ) ≤ maxValue
  decide

/-- Writing one balance that fits. -/
theorem Bounded.write (hB : Bounded s) {key : Symbol × Address} {v : ℤ} (hv : v ≤ maxValue)
    (hbalance : s'.balance = Function.update s.balance key v) : Bounded s' := by
  intro key'
  rw [hbalance]
  by_cases hkey : key' = key
  · rw [hkey, Function.update_self]
    exact hv
  · rw [Function.update_of_ne hkey]
    exact hB key'

theorem Bounded.congr (hB : Bounded s) (hbalance : s'.balance = s.balance) : Bounded s' := by
  intro key
  rw [hbalance]
  exact hB key

/-- A payment checks the balance it adds to. -/
theorem payQuote_le {balance balance' : Symbol × Address → ℤ} {asset : Symbol} {proceeds : ℤ}
    (h : payQuote balance asset buyer seller proceeds = .ok balance') (hpos : 0 ≤ proceeds)
    (hB : ∀ key, balance key ≤ maxValue) (key : Symbol × Address) : balance' key ≤ maxValue := by
  simp only [payQuote, bind_eq_ok, orError_eq_ok, checkedAdd_eq_some, pure_eq_ok] at h
  obtain ⟨_, -, _, ⟨hrange, rfl⟩, rfl⟩ := h
  by_cases hseller : key = (asset, seller)
  · rw [hseller, Function.update_self]
    exact hrange.2
  rw [Function.update_of_ne hseller]
  by_cases hbuyer : key = (asset, buyer)
  · rw [hbuyer, Function.update_self]
    have hle := hB (asset, buyer)
    omega
  · rw [Function.update_of_ne hbuyer]
    exact hB key

/-- **One call** keeps the quote balances in range: those it raises it checks. -/
theorem Bounded.step {op : Op} {ret : Ret} (hB : Bounded s)
    (hpriced : ∀ o order, s.order o = some order → 0 < order.pricePerToken)
    (h : DexRouter.exec now issuer s op = .ok ((s', issuer'), ret)) : Bounded s' := by
  have hstep := exec_router h
  cases hstep with
  | list _ _ _ _ hbalance _ => exact hB.congr hbalance
  | cancel _ _ _ _ hbalance _ => exact hB.congr hbalance
  | withdraw hamount _ hbalance _ _ _ =>
    -- a positive amount is taken off
    apply hB.write _ hbalance
    exact (sub_le_self _ hamount.le).trans (hB _)
  | cleanAll hswept _ => exact hB.congr hswept.balance
  | cleanRange hswept _ => exact hB.congr hswept.balance
  | deposit _ _ _ _ _ =>
    simp only [DexRouter.exec, depositQuote, bind_eq_ok, orError_eq_ok, checkedAdd_eq_some,
      pure_eq_ok, Prod.mk.injEq] at h
    obtain ⟨_, ⟨_, -, _, -, _, ⟨hrange, rfl⟩, rfl⟩, ⟨rfl, -⟩, -⟩ := h
    exact hB.write hrange.2 rfl
  | purchase _ =>
    simp only [DexRouter.exec, executePurchase, bind_eq_ok, ensure_eq_ok, orError_eq_ok,
      checkedMul_eq_some, pure_eq_ok, Prod.mk.injEq] at h
    obtain ⟨_, ⟨_, -, _, -, order, hfound, _, -, _, -, _, -, _, hpositive, _, -, _, -, _, -, _,
      ⟨-, rfl⟩, balance, hpaid, _, -, rfl⟩, heq, -⟩ := h
    cases heq
    exact payQuote_le hpaid (mul_nonneg hpositive.le (hpriced _ _ hfound).le) hB

end DexRouter
end NbsBond
