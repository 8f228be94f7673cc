import NbsBond.DexRouter.Quote
import NbsBond.Marketplace.Orders

/-!
# Quotes in the running marketplace

In every reachable state the orders of a bond are indexed, and what can be bought from has something
left and a positive price. So whatever was listed, filled, cancelled and swept before, a quote is
optimal for the orders that are left (`get_best_price_optimal`).
-/

namespace NbsBond
namespace Marketplace

open Soroban DexRouter

theorem indexed_of_run {h : List Call} {m : Market} (hrun : Run h m) : Indexed m.router := by
  apply hrun.induction (P := fun _ m => Indexed m.router)
  · intro m hinit
    obtain ⟨admin, hadmin⟩ := hinit.router
    rw [hadmin]
    exact .initial admin
  · intro h m t op ret m' hrun _ hexec hI
    cases step_of_exec hexec with
    | issuer _ => exact hI
    | router hrouter => exact hI.step hrouter (orderBook_of_run hrun).fresh

theorem stocked_of_run {h : List Call} {m : Market} (hrun : Run h m) : Stocked m.router := by
  intro o order horder hlive
  obtain ⟨_, -, -, haccount⟩ := (orderBook_of_run hrun).account o order horder
  exact (haccount.left hlive).2

/-- **Optimal quotes.** In every reachable state and at every time, a quote for a positive amount
that does not overflow is the zero quote where no order can be bought from, and otherwise: the total
is the best one over all ways of taking the tokens, the price is the average rounded down, and the
slippage is the distance from the total at the best price. The order in which the ids of the bond
are stored does not matter. -/
theorem get_best_price_optimal {h : List Call} {m : Market} (hrun : Run h m) (now : ℕ)
    (bondId : BondId) (side : Side) {amount : ℤ} (hamount : 0 < amount)
    (hno : getBestPrice now m.router bondId side amount ≠ .error (.error .overflow)) :
    (∃ L : Finset Order, (∀ order, order ∈ L ↔ Quoted now m.router bondId order) ∧
      ∃ quote, getBestPrice now m.router bondId side amount = .ok quote ∧
        (L = ∅ → quote = (0, 0, 0)) ∧
        (L.Nonempty → ∃ best,
          OptimalQuote side L (min amount (∑ order ∈ L, order.amount)) best quote)) ∧
    ∀ ids : List ℕ, ids.Perm (m.router.bondOrders bondId) →
      getBestPrice now
        { m.router with bondOrders := Function.update m.router.bondOrders bondId ids } bondId side
        amount = getBestPrice now m.router bondId side amount := by
  have hI := indexed_of_run hrun
  refine ⟨?_, fun ids hperm => getBestPrice_of_perm hI hperm⟩
  exact getBestPrice_optimal hI (stocked_of_run hrun) (quoteLedger_of_run hrun).priced hamount hno

/-- Of three orders one is over; 12 tokens are quoted from the other two, 3 at the lower price of 2
and 9 at 3. -/
theorem get_best_price_optimal_three_orders :
    ∃ h m, Run h m ∧ getBestPrice 8 m.router 1 .buy 12 = .ok (2, 33, 3750) ∧
      ∃ L : Finset Order, (∀ order, order ∈ L ↔ Quoted 8 m.router 1 order) ∧ ∃ best,
        OptimalQuote .buy L (min 12 (∑ order ∈ L, order.amount)) best (2, 33, 3750) := by
  let ops : List (ℕ × Op) := listing.append
    [(4, .router (.listBondTokens ⟨1⟩ 1 5 1 "USDC" 2 1)),
      (5, .router (.listBondTokens ⟨1⟩ 1 4 2 "USDC" 60 2)),
      (5, .router (.executePurchase [⟨1⟩, ⟨2⟩] ⟨2⟩ 3 3 1 1))]
  have hplay : (machine.play [] (deploy ⟨0⟩) ops).map
      (fun x => (getBestPrice 8 x.2.router 1 .buy 12).toOption) = some (some (2, 33, 3750)) := by
    decide
  obtain ⟨h, m, hrun, hview⟩ := Run.of_play (Init.deploy ⟨0⟩) hplay
  rw [toOption_eq_some] at hview
  have hno : getBestPrice 8 m.router 1 .buy 12 ≠ .error (.error .overflow) := by
    rw [hview]
    intro hover
    cases hover
  obtain ⟨⟨L, hL, quote, hquote, hempty, hoptimal⟩, -⟩ :=
    get_best_price_optimal hrun 8 1 .buy (by decide : (0 : ℤ) < 12) hno
  rw [hview] at hquote
  cases hquote
  refine ⟨h, m, hrun, hview, L, hL, hoptimal ?_⟩
  rw [Finset.nonempty_iff_ne_empty]
  intro hzero
  cases hempty hzero

end Marketplace
end NbsBond
