import NbsBond.DexRouter.Ledger
import NbsBond.Marketplace.Model

/-!
# Settlement

Over whole runs of the marketplace the quote balances of every asset add up to what was deposited
less what was withdrawn (`quote_ledger_balanced`). A single purchase moves bond tokens one way and
the price the other way, in two contracts, or moves nothing at all (`delivery_versus_payment`).
-/

namespace NbsBond
namespace Marketplace

open Soroban Int128

/-! ### Conservation of quote assets -/

/-- What a call of the marketplace pays into the ledger of an asset. -/
def Op.deposited (q : DexRouter.Symbol) : Op → ℤ
  | .router op => op.deposited q
  | .issuer _ => 0

/-- What a call of the marketplace takes out of the ledger of an asset. -/
def Op.withdrawn (q : DexRouter.Symbol) : Op → ℤ
  | .router op => op.withdrawn q
  | .issuer _ => 0

/-- The sum of the committed deposits of an asset. -/
def deposits (q : DexRouter.Symbol) (h : List Call) : ℤ := (h.map fun c => c.op.deposited q).sum

/-- The sum of the committed withdrawals of an asset. -/
def withdrawals (q : DexRouter.Symbol) (h : List Call) : ℤ := (h.map fun c => c.op.withdrawn q).sum

theorem quoteLedger_of_run {h : List Call} {m : Market} (hrun : Run h m) :
    DexRouter.QuoteLedger m.router fun q => deposits q h - withdrawals q h := by
  refine hrun.induction
    (P := fun h m => DexRouter.QuoteLedger m.router fun q => deposits q h - withdrawals q h) ?_ ?_
  · intro m hinit
    obtain ⟨admin, hadmin⟩ := hinit.router
    rw [hadmin]
    exact DexRouter.QuoteLedger.initial admin
  · intro h m t op ret m' _ _ hexec hQ
    -- the totals of the longer history, in terms of the new call
    have htotal : ∀ q,
        deposits q (⟨t, m, op, ret, m'⟩ :: h) - withdrawals q (⟨t, m, op, ret, m'⟩ :: h)
        = deposits q h - withdrawals q h + op.deposited q - op.withdrawn q := by
      intro q
      simp only [deposits, withdrawals, List.map_cons, List.sum_cons]
      ring
    simp only [htotal]
    cases step_of_exec hexec with
    | issuer _ => simpa [Op.deposited, Op.withdrawn] using hQ
    | router hrouter => exact hQ.step (DexRouter.exec_router hrouter)

/-- **Conservation.** In every run and for every asset, the balances are non-negative, vanish
outside a finite set of addresses, and add up to the committed deposits less the committed
withdrawals. The sum ranges over the support, which is why its finiteness is part of the
statement. -/
theorem quote_ledger_balanced {h : List Call} {m : Market} (hrun : Run h m) (q : DexRouter.Symbol) :
    (∀ a, 0 ≤ m.router.balance (q, a)) ∧
    (Function.support fun a => m.router.balance (q, a)).Finite ∧
    ∑ᶠ a, m.router.balance (q, a) = deposits q h - withdrawals q h := by
  have hB := (quoteLedger_of_run hrun).balanced
  exact ⟨hB.nonneg q, hB.finite q, hB.total q⟩

/-- The calls that issue a bond, subscribe 10 tokens to it and offer them at 3 USDC each, while the
buyer has deposited 100 USDC. -/
def listing : List (ℕ × Op) :=
  [(0, .issuer (.issueBond ⟨0⟩ ⟨7, 1000, [50], .carbon, 9000, 100⟩ 0)),
    (1, .issuer (.subscribe ⟨1⟩ 1 10 0)),
    (2, .router (.listBondTokens ⟨1⟩ 1 10 3 "USDC" 60 0)),
    (3, .router (.depositQuote ⟨2⟩ "USDC" 100 0))]

/-- Two fills of one order and a withdrawal of the proceeds. -/
theorem quote_ledger_balanced_two_fills :
    ∃ h m, Run h m ∧ m.router.balance ("USDC", ⟨2⟩) = 70 ∧
      ∑ᶠ a, m.router.balance ("USDC", a) = 88 := by
  let ops : List (ℕ × Op) := listing.append
    [(4, .router (.executePurchase [⟨1⟩, ⟨2⟩] ⟨2⟩ 1 3 4 1)),
      (5, .router (.executePurchase [⟨1⟩, ⟨2⟩] ⟨2⟩ 1 3 6 2)),
      (6, .router (.withdrawQuote ⟨1⟩ "USDC" 12 1))]
  have hplay : (machine.play [] (deploy ⟨0⟩) ops).map
      (fun x => (x.2.router.balance ("USDC", ⟨2⟩), deposits "USDC" x.1, withdrawals "USDC" x.1)) =
      some (70, 100, 12) := by decide
  obtain ⟨h, m, hrun, hview⟩ := Run.of_play (Init.deploy ⟨0⟩) hplay
  simp only [Prod.mk.injEq] at hview
  obtain ⟨hbuyer, hdeposits, hwithdrawals⟩ := hview
  refine ⟨h, m, hrun, hbuyer, ?_⟩
  rw [(quote_ledger_balanced hrun "USDC").2.2, hdeposits, hwithdrawals]
  rfl

/-! ### Delivery versus payment -/

/-- A committed purchase of `amount` tokens of `order`: the tokens went from the seller to the
buyer, the price from the buyer to the seller, and nothing else moved. -/
structure Settled (now : ℕ) (m m' : Market) (buyer : Address) (orderId : ℕ) (amount : ℤ)
    (order : DexRouter.Order) : Prop where
  found : m.router.order orderId = some order
  /-- The preconditions of `BondIssuer.transfer` held. -/
  transferable : ∃ config state, m.issuer.bondConfig order.bondId = some config ∧
    m.issuer.bondState order.bondId = some state ∧ state.status = .active ∧
    now < config.maturityDate ∧ amount ≤ m.issuer.holderBalance (order.bondId, order.seller)
  delivered : m'.issuer.holderBalance (order.bondId, order.seller) =
      m.issuer.holderBalance (order.bondId, order.seller) - amount ∧
    m'.issuer.holderBalance (order.bondId, buyer) =
      m.issuer.holderBalance (order.bondId, buyer) + amount
  inRange : InRange (amount * order.pricePerToken)
  charged : 0 < amount * order.pricePerToken
  paid : m'.router.balance (order.quoteAsset, buyer) =
      m.router.balance (order.quoteAsset, buyer) - amount * order.pricePerToken ∧
    m'.router.balance (order.quoteAsset, order.seller) =
      m.router.balance (order.quoteAsset, order.seller) + amount * order.pricePerToken
  holders : ∀ b a, (b, a) ≠ (order.bondId, order.seller) → (b, a) ≠ (order.bondId, buyer) →
    m'.issuer.holderBalance (b, a) = m.issuer.holderBalance (b, a)
  quotes : ∀ q a, (q, a) ≠ (order.quoteAsset, order.seller) → (q, a) ≠ (order.quoteAsset, buyer) →
    m'.router.balance (q, a) = m.router.balance (q, a)
  orders : ∀ o, o ≠ orderId → m'.router.order o = m.router.order o
  /-- In particular no `total_subscribed` moves. -/
  states : m'.issuer.bondState = m.issuer.bondState
  configs : m'.issuer.bondConfig = m.issuer.bondConfig
  bonds : ∀ b, b ≠ order.bondId → m'.issuer.holderList b = m.issuer.holderList b ∧
    m'.issuer.holderCount b = m.issuer.holderCount b

/-- What a purchase writes in the two contracts, as a change of the joint state. -/
theorem settled_of_purchased {now : ℕ} {m m' : Market} {buyer : Address} {orderId : ℕ}
    {maxPrice amount : ℤ} {order : DexRouter.Order}
    (hP : DexRouter.Purchased now m.issuer m'.issuer m.router m'.router buyer orderId maxPrice
      amount order) (hprice : 0 < order.pricePerToken) :
    Settled now m m' buyer orderId amount order := by
  have hT := BondIssuer.transfer_ok hP.transferred
  obtain ⟨config, state, hconfig, hstate, hactive, hmaturity⟩ := hT.transferable
  -- buyer and seller differ, so the two writes to each ledger do not meet
  have hholders : ∀ b : BondId, (b, order.seller) ≠ (b, buyer) := fun b h =>
    hP.stranger (Prod.mk.inj h).2.symm
  have hquotes : ∀ q : DexRouter.Symbol, (q, buyer) ≠ (q, order.seller) := fun q h =>
    hP.stranger (Prod.mk.inj h).2
  constructor
  case found => exact hP.found
  case transferable => exact ⟨config, state, hconfig, hstate, hactive, hmaturity, hT.funds⟩
  case delivered =>
    rw [hT.balance]
    constructor
    · rw [Function.update_of_ne (hholders _), Function.update_self]
    · rw [Function.update_self]
  case inRange => exact hP.proceeds
  case charged => exact mul_pos hP.positive hprice
  case paid =>
    rw [hP.balance]
    constructor
    · rw [Function.update_of_ne (hquotes _), Function.update_self]
    · rw [Function.update_self]
  case holders =>
    intro b a hseller hbuyer
    rw [hT.balance, Function.update_of_ne hbuyer, Function.update_of_ne hseller]
  case quotes =>
    intro q a hseller hbuyer
    rw [hP.balance, Function.update_of_ne hseller, Function.update_of_ne hbuyer]
  case orders =>
    intro o ho
    rw [hP.orders, Function.update_of_ne ho]
  case states => exact hT.states
  case configs => exact hT.configs
  case bonds => exact hT.lists

theorem purchased_of_exec {now : ℕ} {m m' : Market} {signers : List Address} {buyer : Address}
    {orderId : ℕ} {maxPrice amount : ℤ} {nonce : ℕ} {ret : Ret}
    (hexec : machine.exec now m
      (.router (.executePurchase signers buyer orderId maxPrice amount nonce)) = .ok (m', ret)) :
    ∃ order, DexRouter.Purchased now m.issuer m'.issuer m.router m'.router buyer orderId maxPrice
      amount order := by
  cases step_of_exec hexec with
  | router hrouter =>
    cases DexRouter.exec_router hrouter with
    | @purchase _ _ _ _ _ _ order hP => exact ⟨order, hP⟩

/-- **Delivery versus payment.** In every reachable joint state, a purchase that succeeds moves the
tokens and the price and nothing else; one that fails, at whatever point, leaves both contracts as
they were. The transfer inside is a call of `BondIssuer` with all its checks. -/
theorem delivery_versus_payment {h : List Call} {m : Market} (hrun : Run h m) (now : ℕ)
    (signers : List Address) (buyer : Address) (orderId : ℕ) (maxPrice amount : ℤ) (nonce : ℕ) :
    (∀ m' ret, machine.exec now m
        (.router (.executePurchase signers buyer orderId maxPrice amount nonce)) = .ok (m', ret) →
      ∃ order, Settled now m m' buyer orderId amount order) ∧
    (∀ e, machine.exec now m
        (.router (.executePurchase signers buyer orderId maxPrice amount nonce)) = .error e →
      machine.attempt m
        (now, .router (.executePurchase signers buyer orderId maxPrice amount nonce)) = m) := by
  constructor
  · intro m' ret hexec
    obtain ⟨order, hP⟩ := purchased_of_exec hexec
    have hprice := (quoteLedger_of_run hrun).priced orderId order hP.found
    exact ⟨order, settled_of_purchased hP hprice⟩
  · intro e hexec
    exact Machine.attempt_of_error hexec

/-- A purchase of 4 tokens at 3 USDC each settles; one whose nested transfer the seller did not
authorize fails after both quote balances were written, and changes nothing. -/
theorem delivery_versus_payment_four_tokens :
    ∃ h m m' order, Run h m ∧ Settled 4 m m' ⟨2⟩ 1 4 order ∧ order.pricePerToken = 3 ∧
      machine.exec 4 m (.router (.executePurchase [⟨2⟩] ⟨2⟩ 1 3 4 1)) =
        .error (.error (.router .insufficientBalance)) ∧
      machine.attempt m (4, .router (.executePurchase [⟨2⟩] ⟨2⟩ 1 3 4 1)) = m := by
  have hplay : (machine.play [] (deploy ⟨0⟩) listing).map
      (fun x => ((x.2.router.order 1).map DexRouter.Order.pricePerToken,
        (machine.exec 4 x.2 (.router (.executePurchase [⟨1⟩, ⟨2⟩] ⟨2⟩ 1 3 4 1))).isOk,
        match machine.exec 4 x.2 (.router (.executePurchase [⟨2⟩] ⟨2⟩ 1 3 4 1)) with
        | .ok _ => none
        | .error e => some e)) =
      some (some 3, true, some (.error (.router .insufficientBalance))) := by decide
  obtain ⟨h, m, hrun, hview⟩ := Run.of_play (Init.deploy ⟨0⟩) hplay
  simp only [Prod.mk.injEq] at hview
  obtain ⟨hprice, hok, herror⟩ := hview
  have hfails : machine.exec 4 m (.router (.executePurchase [⟨2⟩] ⟨2⟩ 1 3 4 1)) =
      .error (.error (.router .insufficientBalance)) := by
    split at herror
    · cases herror
    · next e he =>
      cases herror
      exact he
  obtain ⟨m', ret, hexec⟩ : ∃ m' ret, machine.exec 4 m
      (.router (.executePurchase [⟨1⟩, ⟨2⟩] ⟨2⟩ 1 3 4 1)) = .ok (m', ret) := by
    cases hresult : machine.exec 4 m (.router (.executePurchase [⟨1⟩, ⟨2⟩] ⟨2⟩ 1 3 4 1)) with
    | ok x => exact ⟨x.1, x.2, rfl⟩
    | error e =>
      rw [hresult] at hok
      cases hok
  obtain ⟨order, hsettled⟩ :=
    (delivery_versus_payment hrun 4 [⟨1⟩, ⟨2⟩] ⟨2⟩ 1 3 4 1).1 m' ret hexec
  refine ⟨h, m, m', order, hrun, hsettled, ?_, hfails, ?_⟩
  · rw [hsettled.found] at hprice
    exact Option.some.inj hprice
  · exact (delivery_versus_payment hrun 4 [⟨2⟩] ⟨2⟩ 1 3 4 1).2 _ hfails

end Marketplace
end NbsBond
