import NbsBond.CouponEngine.Products
import NbsBond.Protocol.Completion

/-!
# Overflow in a distribution

Along the runs of the protocol the measurements of a report are bounded only by being non-negative,
and what is subscribed only by the cap of a bond. Of the plain multiplications of
`distribute_coupon`, a call in a reached state computes all exactly, if and only if the credits of
the period it opens, if it opens one, leave room for the factor of the rates
(`distribution_unwrapped_iff`).
-/

namespace NbsBond
namespace Protocol

open Soroban OracleConsumer CouponEngine

variable {h : List Call} {w : World}

theorem rated_of_run (hrun : Run h w) : Rated w.engine := by
  apply engine_of_run hrun Rated.initial
  · intro h w op s r _ hR hop
    exact hR.step hop
  · intro s s' hsame hR
    exact hR.congr hsame.periods.batches hsame.balances

/-- **No product wraps**, in any call of `distribute_coupon` in any reached state, if and only if
the call opens no period whose credits leave no room for the factor. The rates are fixed-point
numbers: the credits are multiplied by the factor before they are divided, and that is the one
product that can leave its range. -/
theorem distribution_unwrapped_iff (hrun : Run h w) (caller : Address) (b : BondId) (p : ℕ)
    (holders : List (Address × ℤ)) (reportId : ReportId) (nonce : ℕ) (isFinalBatch : Bool) :
    (Logged.distributeCoupon w.deps w.engine caller b p holders reportId nonce
      isFinalBatch).All Unwrapped ↔ Roomy w.deps w.engine caller b p reportId nonce := by
  apply Logged.all_distributeCoupon (underway_of_run hrun) (rated_of_run hrun)
  · intro report
    exact World.worth_nonneg (lifeCycle_of_run hrun)
  · intro supply
    exact supply_of_run hrun

/-- A registered bond of type `creditType` with three tokens subscribed and a verified report of
`carbon` kilograms and five hectares. -/
def readyBond (creditType : CreditType) (carbon : ℤ) : List (ℕ × Op) :=
  onboard ⟨0⟩ ⟨5⟩ ⟨1⟩ ⟨2⟩ ⟨100⟩ ⟨102⟩ 7 ++
    [(1, .oracle (.submitReport ⟨1⟩ 1 0 10 carbon (.present 5 0 0) "VM0007" 3 0)),
      (1, .oracle (.verifyReport ⟨2⟩ 1 0)),
      (1, .issuer (.issueBond ⟨0⟩ ⟨7, 1000, [50], creditType, 9000000, 100⟩ 0)),
      (1, .issuer (.subscribe ⟨8⟩ 1 1 0)),
      (1, .issuer (.subscribe ⟨9⟩ 1 2 0)),
      (1, .engine (.registerBond ⟨0⟩ 1 7 0))]

/-- A Basket bond: three products for the rates and two for each holder. -/
theorem distribution_unwrapped_basket :
    ∃ h w, Run h w ∧ Roomy w.deps w.engine ⟨0⟩ 1 0 1 1 ∧
      (Logged.distributeCoupon w.deps w.engine ⟨0⟩ 1 0 [(⟨8⟩, 1), (⟨9⟩, 2)] 1 1 true).log =
        [(12, 10000000), (7, 10000000), (5, 10000000), (23333333, 1), (16666666, 1),
          (23333333, 2), (16666666, 2)] := by
  have hplay : (machine.play [] (deploy ⟨0⟩ ⟨100⟩ ⟨101⟩ ⟨102⟩) (readyBond .basket 7000)).map
      (fun x => (Logged.distributeCoupon x.2.deps x.2.engine ⟨0⟩ 1 0 [(⟨8⟩, 1), (⟨9⟩, 2)] 1 1
        true).log) =
      some [(12, 10000000), (7, 10000000), (5, 10000000), (23333333, 1), (16666666, 1),
        (23333333, 2), (16666666, 2)] := by decide
  obtain ⟨h, w, hrun, hlog⟩ := Run.of_play (Init.deploy ⟨0⟩ ⟨100⟩ ⟨101⟩ ⟨102⟩) hplay
  refine ⟨h, w, hrun, ?_, hlog⟩
  apply (distribution_unwrapped_iff hrun ⟨0⟩ 1 0 [(⟨8⟩, 1), (⟨9⟩, 2)] 1 1 true).mp
  unfold Traced.All
  rw [hlog]
  decide

/-- **A rate wraps.** The largest measurement there is opens a period of a Carbon bond: the call
goes through, with a product that is not exact. -/
theorem distribution_wraps :
    ¬ ∀ (h : List Call) (w : World), Run h w →
      ∀ caller b p holders reportId nonce isFinalBatch,
        (Logged.distributeCoupon w.deps w.engine caller b p holders reportId nonce
          isFinalBatch).All Unwrapped ∨
        distributeCoupon w.deps w.engine caller b p holders reportId nonce isFinalBatch =
          .error (.error .overflow) := by
  intro hall
  have hplay : (machine.play [] (deploy ⟨0⟩ ⟨100⟩ ⟨101⟩ ⟨102⟩)
      (readyBond .carbon (2 ^ 127 - 1))).map
      (fun x => (decide ((Logged.distributeCoupon x.2.deps x.2.engine ⟨0⟩ 1 0
          [(⟨8⟩, 1), (⟨9⟩, 2)] 1 1 true).All Unwrapped),
        fault (distributeCoupon x.2.deps x.2.engine ⟨0⟩ 1 0 [(⟨8⟩, 1), (⟨9⟩, 2)] 1 1 true))) =
      some (false, none) := by decide
  obtain ⟨h, w, hrun, hview⟩ := Run.of_play (Init.deploy ⟨0⟩ ⟨100⟩ ⟨101⟩ ⟨102⟩) hplay
  rw [Prod.mk.injEq] at hview
  obtain ⟨hwrapped, hcommits⟩ := hview
  rcases hall h w hrun ⟨0⟩ 1 0 [(⟨8⟩, 1), (⟨9⟩, 2)] 1 1 true with hexact | hoverflow
  · exact of_decide_eq_false hwrapped hexact
  · rw [hoverflow] at hcommits
    cases hcommits

end Protocol
end NbsBond
