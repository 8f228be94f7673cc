import NbsBond.DexRouter.Orders
import NbsBond.Marketplace.Settlement

/-!
# The life of an order in the running marketplace

`order_lifecycle` is what holds of every order along every run, whatever buyers, sellers and the two
sweeps do to it in which order. The amounts it speaks of are read off the history: what was listed
off the call that created the order, what was filled off the purchases committed since.
-/

namespace NbsBond
namespace Marketplace

open Soroban DexRouter

/-! ### What the history says of an order -/

/-- What a call of the marketplace buys of order `o`. -/
def Op.fills (o : ℕ) : Op → ℤ
  | .router op => op.fills o
  | .issuer _ => 0

/-- The sum of the committed purchases of order `o`. -/
def filled (o : ℕ) (h : List Call) : ℤ := (h.map fun c => c.op.fills o).sum

/-- The order a call of the marketplace creates under the id `o`. -/
def created (o : ℕ) (c : Call) : Option Order :=
  match c.op, c.ret with
  | .router op, .router ret => op.creates c.time ret o
  | _, _ => none

/-- Order `o` as it was listed. -/
def listed (o : ℕ) (h : List Call) : Option Order := h.findSome? (created o)

theorem filled_cons (o : ℕ) (c : Call) (h : List Call) :
    filled o (c :: h) = filled o h + c.op.fills o := by
  unfold filled
  rw [List.map_cons, List.sum_cons, add_comm]

theorem listed_cons_of_none {o : ℕ} {c : Call} (hc : created o c = none) (h : List Call) :
    listed o (c :: h) = listed o h := by
  unfold listed
  rw [List.findSome?_cons, hc]

theorem listed_cons_of_some {o : ℕ} {c : Call} {order : Order} (hc : created o c = some order)
    (h : List Call) : listed o (c :: h) = some order := by
  unfold listed
  rw [List.findSome?_cons, hc]

/-! ### The invariant -/

/-- The record of every order against the history. The listing is the call that created the order,
and its amount is what the record is measured against. -/
structure OrderBook (h : List Call) (m : Market) : Prop where
  fresh : ∀ o, m.router.orderCount < o → m.router.order o = none
  unlisted : ∀ o, m.router.order o = none → filled o h = 0
  nonneg : ∀ o, 0 ≤ filled o h
  account : ∀ o order, m.router.order o = some order →
    ∃ listing, listed o h = some listing ∧ SameTerms listing order ∧
      Account order listing.amount (filled o h)

theorem OrderBook.initial {m : Market} (hinit : Init m) : OrderBook [] m := by
  obtain ⟨admin, hadmin⟩ := hinit.router
  have hnone : ∀ o, m.router.order o = none := by
    intro o
    rw [hadmin]
    rfl
  refine ⟨fun o _ => hnone o, fun _ _ => rfl, fun _ => le_rfl, ?_⟩
  intro o order horder
  rw [hnone o] at horder
  cases horder

/-- A call of `BondIssuer` touches no order. -/
theorem OrderBook.issuer_step {h : List Call} {m m' : Market} {c : Call} {op : BondIssuer.Op}
    (hO : OrderBook h m) (hop : c.op = .issuer op) (hrouter : m'.router = m.router) :
    OrderBook (c :: h) m' := by
  have hfilled : ∀ o, filled o (c :: h) = filled o h := by
    intro o
    rw [filled_cons, hop]
    exact add_zero _
  have hlisted : ∀ o, listed o (c :: h) = listed o h := by
    intro o
    refine listed_cons_of_none ?_ h
    unfold created
    rw [hop]
  refine ⟨?_, ?_, ?_, ?_⟩ <;> simp only [hfilled, hlisted, hrouter]
  · exact hO.fresh
  · exact hO.unlisted
  · exact hO.nonneg
  · exact hO.account

/-- What one call does to the account of one order. -/
theorem OrderBook.account_step {h : List Call} {m m' : Market} {t : ℕ} {op : DexRouter.Op}
    {ret : DexRouter.Ret} (hO : OrderBook h m) {o : ℕ}
    (hmove : OrderMove t op ret o (m.router.order o) (m'.router.order o)) {order : Order}
    (horder : m'.router.order o = some order) :
    ∃ listing, listed o (⟨t, m, .router op, .router ret, m'⟩ :: h) = some listing ∧
      SameTerms listing order ∧ Account order listing.amount
        (filled o (⟨t, m, .router op, .router ret, m'⟩ :: h)) := by
  have hkeeps : ∀ {old}, m.router.order o = some old → op.creates t ret o = none →
      ∃ listing, listed o (⟨t, m, .router op, .router ret, m'⟩ :: h) = some listing ∧
        SameTerms listing old ∧ Account old listing.amount (filled o h) := by
    intro old hold hcreates
    obtain ⟨listing, hlisting, hterms, haccount⟩ := hO.account o old hold
    have hcreated : created o ⟨t, m, .router op, .router ret, m'⟩ = none := hcreates
    exact ⟨listing, by rw [listed_cons_of_none hcreated, hlisting], hterms, haccount⟩
  rw [filled_cons]
  simp only [Op.fills]
  generalize hbefore : m.router.order o = before at hmove
  generalize hafter : m'.router.order o = after at hmove horder
  cases hmove with
  | same hfills hcreates =>
    subst horder
    obtain ⟨listing, hlisting, hterms, haccount⟩ := hkeeps hbefore hcreates
    refine ⟨listing, hlisting, hterms, ?_⟩
    rw [hfills, add_zero]
    exact haccount
  | @list new hamount hstatus hfills hcreates =>
    cases horder
    -- nothing was bought of an order that did not exist
    refine ⟨order, ?_, .refl order, ?_⟩
    · exact listed_cons_of_some (c := ⟨t, m, .router op, .router ret, m'⟩) hcreates h
    · rw [hO.unlisted o hbefore, hfills, add_zero]
      exact Account.list hamount hstatus
  | @cancel old nonce hop hlive =>
    cases horder
    subst hop
    obtain ⟨listing, hlisting, hterms, haccount⟩ := hkeeps hbefore rfl
    refine ⟨listing, hlisting, hterms.trans ⟨rfl, rfl, rfl, rfl, rfl, rfl, rfl⟩, ?_⟩
    simp only [DexRouter.Op.fills, add_zero]
    exact haccount.close hlive (Or.inl rfl)
  | @fill old signers buyer maxPrice amount nonce hop hlive _ _ hpositive hleft _ =>
    cases horder
    subst hop
    obtain ⟨listing, hlisting, hterms, haccount⟩ := hkeeps hbefore rfl
    refine ⟨listing, hlisting, hterms.trans (sameTerms_fill old amount), ?_⟩
    simp only [DexRouter.Op.fills, if_pos]
    exact haccount.fill hlive hpositive hleft (hO.nonneg o)
  | @expire old hlive _ hfills hcreates =>
    cases horder
    obtain ⟨listing, hlisting, hterms, haccount⟩ := hkeeps hbefore hcreates
    refine ⟨listing, hlisting, hterms.trans ⟨rfl, rfl, rfl, rfl, rfl, rfl, rfl⟩, ?_⟩
    rw [hfills, add_zero]
    exact haccount.close hlive (Or.inr rfl)

/-- A call buys nothing of an order it does not find, and never a negative amount. -/
theorem fills_of_move {t : ℕ} {op : DexRouter.Op} {ret : DexRouter.Ret} {o : ℕ}
    {before after : Option Order} (hmove : OrderMove t op ret o before after) :
    0 ≤ op.fills o ∧ (after = none → before = none ∧ op.fills o = 0) := by
  cases hmove with
  | same hfills _ => exact ⟨hfills.ge, fun hnone => ⟨hnone, hfills⟩⟩
  | list _ _ hfills _ => exact ⟨hfills.ge, nofun⟩
  | cancel hop _ =>
    subst hop
    exact ⟨le_rfl, nofun⟩
  | fill hop _ _ _ hpositive _ _ =>
    subst hop
    simp only [DexRouter.Op.fills, if_pos]
    exact ⟨hpositive.le, nofun⟩
  | expire _ _ hfills _ => exact ⟨hfills.ge, nofun⟩

/-- **One call.** A record moves by a cancellation, a purchase or the expiry; all others of the book
stay. -/
theorem OrderBook.step {h : List Call} {m m' : Market} {t : ℕ} {op : Op} {ret : Ret}
    (hO : OrderBook h m) (hstep : Step t m op m' ret) :
    OrderBook (⟨t, m, op, ret, m'⟩ :: h) m' := by
  cases hstep with
  | issuer _ => exact hO.issuer_step rfl rfl
  | @router op s issuer ret hexec =>
    have hrouter := exec_router hexec
    have hmove := hrouter.orderMove hO.fresh
    refine ⟨hrouter.fresh hO.fresh, ?_, ?_, ?_⟩
    · intro o hnone
      obtain ⟨hbefore, hfills⟩ := (fills_of_move (hmove o)).2 hnone
      rw [filled_cons, hO.unlisted o hbefore, zero_add]
      exact hfills
    · intro o
      rw [filled_cons]
      exact add_nonneg (hO.nonneg o) (fills_of_move (hmove o)).1
    · intro o order horder
      exact hO.account_step (hmove o) horder

theorem orderBook_of_run {h : List Call} {m : Market} (hrun : Run h m) : OrderBook h m :=
  hrun.induction (P := OrderBook) (fun _ hinit => .initial hinit)
    fun _ _ _ _ _ _ _ _ hexec hO => hO.step (step_of_exec hexec)

/-! ### The life of an order -/

/-- A committed call of a run moves the record of every order, or is a call of `BondIssuer`. -/
theorem orderMove_of_exec {h : List Call} {m m' : Market} {t : ℕ} {op : Op} {ret : Ret}
    (hrun : Run h m) (hexec : machine.exec t m op = .ok (m', ret)) (o : ℕ) :
    (∃ op' ret', op = .router op' ∧
      OrderMove t op' ret' o (m.router.order o) (m'.router.order o)) ∨
    ((∀ op', op ≠ .router op') ∧ m'.router = m.router) := by
  cases step_of_exec hexec with
  | issuer _ => exact Or.inr ⟨nofun, rfl⟩
  | @router op' s issuer ret' hrouter =>
    exact Or.inl ⟨op', ret', rfl, (exec_router hrouter).orderMove (orderBook_of_run hrun).fresh o⟩

/-- The terms under which an order was recorded after some call of the history are its terms now. -/
theorem terms_of_run {h : List Call} {m : Market} (hrun : Run h m) {c : Call} (hc : c ∈ h) {o : ℕ}
    {order : Order} (horder : c.post.router.order o = some order) :
    ∃ order', m.router.order o = some order' ∧ SameTerms order order' := by
  refine hrun.stable (P := fun m => ∃ order', m.router.order o = some order' ∧
    SameTerms order order') ?_ hc ⟨order, horder, .refl order⟩
  rintro h t m op ret m' hrun ⟨before, hbefore, hterms⟩ hexec
  obtain ⟨op', ret', -, hmove⟩ | ⟨-, hsame⟩ := orderMove_of_exec hrun hexec o
  · rw [hbefore] at hmove
    obtain ⟨after, hafter, hterms'⟩ := hmove.keeps_terms
    exact ⟨after, hafter, hterms.trans hterms'⟩
  · rw [hsame]
    exact ⟨before, hbefore, hterms⟩

/-- **Life cycle.** For every run and every order:
* the stored record agrees with what was listed and what was bought since: nothing while `Open`, a
  proper part while `PartiallyFilled`, all of it exactly when `Filled`, and never more;
* `Filled`, `Cancelled` and `Expired` are final;
* every purchase happened before the order's time was over, by a stranger, at the listed price,
which the buyer had accepted;
* only the seller's cancellation leads to `Cancelled`, and `Expired` is reached only in time. -/
theorem order_lifecycle {h : List Call} {m : Market} (hrun : Run h m) (o : ℕ) :
    (∀ order, m.router.order o = some order → ∃ listing, listed o h = some listing ∧
      SameTerms listing order ∧
      (order.status = .open → filled o h = 0) ∧
      (order.status = .partiallyFilled → 0 < filled o h ∧ filled o h < listing.amount) ∧
      (order.status = .open ∨ order.status = .partiallyFilled →
        order.amount = listing.amount - filled o h ∧ 0 < order.amount) ∧
      (order.status = .filled ↔ filled o h = listing.amount) ∧
      filled o h ≤ listing.amount) ∧
    (∀ c ∈ h, ∀ order, c.post.router.order o = some order →
      order.status = .filled ∨ order.status = .cancelled ∨ order.status = .expired →
      m.router.order o = some order) ∧
    (∀ c ∈ h, ∀ signers buyer maxPrice amount nonce,
      c.op = .router (.executePurchase signers buyer o maxPrice amount nonce) →
      ∃ order listing, c.pre.router.order o = some order ∧ listed o h = some listing ∧
        SameTerms listing order ∧ c.time < order.expiresAt ∧ buyer ≠ order.seller ∧
        order.pricePerToken = listing.pricePerToken ∧ order.pricePerToken ≤ maxPrice) ∧
    (∀ c ∈ h, ∀ order order', c.pre.router.order o = some order →
      c.post.router.order o = some order' → order.status ≠ .cancelled →
      order'.status = .cancelled →
      ∃ nonce, c.op = .router (.cancelListing order.seller o nonce)) ∧
    (∀ c ∈ h, ∀ order order', c.pre.router.order o = some order →
      c.post.router.order o = some order' → order.status ≠ .expired → order'.status = .expired →
      order.expiresAt ≤ c.time) := by
  refine ⟨?_, ?_, ?_, ?_, ?_⟩
  · intro order horder
    obtain ⟨listing, hlisting, hterms, haccount⟩ := (orderBook_of_run hrun).account o order horder
    exact ⟨listing, hlisting, hterms, haccount.untouched, haccount.begun, haccount.left,
      haccount.complete, haccount.bounded⟩
  · intro c hc order horder hclosed
    have hnot : ¬ order.Live := by
      rintro (hlive | hlive) <;> rw [hlive] at hclosed <;> rcases hclosed with h | h | h <;> cases h
    refine hrun.stable (P := fun m => m.router.order o = some order) ?_ hc horder
    intro h t m op ret m' hrun hbefore hexec
    obtain ⟨op', ret', -, hmove⟩ | ⟨-, hsame⟩ := orderMove_of_exec hrun hexec o
    · rw [hbefore] at hmove
      exact hmove.keeps_closed hnot
    · rw [hsame]
      exact hbefore
  · intro c hc signers buyer maxPrice amount nonce hop
    obtain ⟨older, hpast, hexec⟩ := hrun.of_mem hc
    rw [hop] at hexec
    obtain ⟨order, hP⟩ := purchased_of_exec hexec
    -- the filled record still has the terms of the order, and the record of today has them too
    have hfill : c.post.router.order o = some (order.fill amount) := by
      rw [hP.orders, Function.update_self]
    obtain ⟨today, htoday, hterms⟩ := terms_of_run hrun hc hfill
    obtain ⟨listing, hlisting, hlisted, -⟩ := (orderBook_of_run hrun).account o today htoday
    have hsame : SameTerms listing order :=
      hlisted.trans ((sameTerms_fill order amount).trans hterms).symm
    exact ⟨order, listing, hP.found, hlisting, hsame, hP.inTime, hP.stranger, hsame.pricePerToken,
      hP.price⟩
  · intro c hc order order' hbefore hafter hnot hcancelled
    obtain ⟨older, hpast, hexec⟩ := hrun.of_mem hc
    obtain ⟨op', ret', hop, hmove⟩ | ⟨-, hsame⟩ := orderMove_of_exec hpast hexec o
    · rw [hbefore, hafter] at hmove
      obtain ⟨nonce, rfl⟩ := hmove.cancelled hnot hcancelled
      exact ⟨nonce, hop⟩
    · rw [hsame, hbefore] at hafter
      cases hafter
      exact absurd hcancelled hnot
  · intro c hc order order' hbefore hafter hnot hexpired
    obtain ⟨older, hpast, hexec⟩ := hrun.of_mem hc
    obtain ⟨op', ret', hop, hmove⟩ | ⟨-, hsame⟩ := orderMove_of_exec hpast hexec o
    · rw [hbefore, hafter] at hmove
      exact hmove.expired hnot hexpired
    · rw [hsame, hbefore] at hafter
      cases hafter
      exact absurd hexpired hnot

/-- An order is filled in part, then to the end; a second one is cancelled and a third one expires.
-/
theorem order_lifecycle_three_orders :
    ∃ h m order, Run h m ∧ m.router.order 1 = some order ∧ order.status = .filled ∧
      filled 1 h = 10 ∧ (∃ listing, listed 1 h = some listing ∧ listing.amount = 10) ∧
      (m.router.order 2).map Order.status = some .cancelled ∧
      (m.router.order 3).map Order.status = some .expired := by
  let ops : List (ℕ × Op) := listing.append
    [(4, .router (.executePurchase [⟨1⟩, ⟨2⟩] ⟨2⟩ 1 3 4 1)),
      (5, .router (.listBondTokens ⟨1⟩ 1 2 5 "USDC" 60 1)),
      (5, .router (.listBondTokens ⟨1⟩ 1 2 6 "USDC" 60 2)),
      (6, .router (.cancelListing ⟨1⟩ 2 3)),
      (61, .router (.executePurchase [⟨1⟩, ⟨2⟩] ⟨2⟩ 1 3 6 2)),
      (65, .router (.cleanExpiredOrders ⟨0⟩ 0))]
  let last : Order := ⟨1, ⟨1⟩, 1, 6, 3, "USDC", .filled, 2, 62⟩
  have hplay : (machine.play [] (deploy ⟨0⟩) ops).map
      (fun x => decide (x.2.router.order 1 = some last ∧ (listed 1 x.1).map Order.amount = some 10 ∧
        (x.2.router.order 2).map Order.status = some .cancelled ∧
        (x.2.router.order 3).map Order.status = some .expired)) = some true := by decide
  obtain ⟨h, m, hrun, hview⟩ := Run.of_play (Init.deploy ⟨0⟩) hplay
  obtain ⟨horder, hamount, hcancelled, hexpired⟩ := of_decide_eq_true hview
  obtain ⟨listing, hlisting, -, -, -, -, hcomplete, -⟩ := (order_lifecycle hrun 1).1 last horder
  rw [hlisting] at hamount
  have hten : listing.amount = 10 := Option.some.inj hamount
  exact ⟨h, m, last, hrun, horder, rfl, (hcomplete.mp rfl).trans hten, ⟨listing, hlisting, hten⟩,
    hcancelled, hexpired⟩

end Marketplace
end NbsBond
