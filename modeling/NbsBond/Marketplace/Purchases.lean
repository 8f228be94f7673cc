import NbsBond.DexRouter.Purchase
import NbsBond.Marketplace.Quotes

/-!
# The purchases of one buyer

`Buys` is a sequence of committed purchases of one buyer at one time. What it did to the joint state
can be told from how much it bought of each order: every record is the old one with that much taken
off, and every balance moved by a weighted sum of the amounts (`Bought`).
-/

namespace NbsBond
namespace Marketplace

open Soroban Int128 DexRouter

variable {now : ℕ} {signers : List Address} {buyer : Address} {m₀ m m' : Market} {h : List Call}

/-- From `m₀` the purchases `h` of `buyer`, newest first and all at time `now`, lead to `m`. Time
stands still, as the purchases are meant for the moment of the quote. -/
inductive Buys (now : ℕ) (signers : List Address) (buyer : Address) (m₀ : Market) :
    List Call → Market → Prop
  | start : Buys now signers buyer m₀ [] m₀
  | buy {h : List Call} {m m' : Market} {o : ℕ} {maxPrice amount : ℤ} {nonce : ℕ} {ret : Ret}
      (hbuys : Buys now signers buyer m₀ h m)
      (hexec : machine.exec now m
        (.router (.executePurchase signers buyer o maxPrice amount nonce)) = .ok (m', ret)) :
      Buys now signers buyer m₀
        (⟨now, m, .router (.executePurchase signers buyer o maxPrice amount nonce), ret, m'⟩ :: h)
        m'

/-! ### What holds throughout -/

/-- The tables of a reached state are in order. Each of these is an invariant of its own, proved
where its tables are. -/
structure Ready (m : Market) : Prop where
  ledger : BondIssuer.LedgerInv m.issuer
  capped : BondIssuer.Capped m.issuer
  bounded : Bounded m.router
  accounts : ∃ total, QuoteLedger m.router total
  fresh : ∀ o, m.router.orderCount < o → m.router.order o = none
  indexed : Indexed m.router

theorem Ready.priced (hR : Ready m) (o : ℕ) (order : Order) (h : m.router.order o = some order) :
    0 < order.pricePerToken := by
  obtain ⟨_, hQ⟩ := hR.accounts
  exact hQ.priced o order h

theorem Ready.balance_nonneg (hR : Ready m) (q : DexRouter.Symbol) (a : Address) :
    0 ≤ m.router.balance (q, a) := by
  obtain ⟨_, hQ⟩ := hR.accounts
  exact hQ.balanced.nonneg q a

/-- Two holders of a bond have no more together than an `i128` holds. -/
theorem Ready.holders_le (hR : Ready m) {b : BondId} {state : BondIssuer.BondState}
    (hstate : m.issuer.bondState b = some state) {a a' : Address} (hne : a ≠ a') :
    m.issuer.holderBalance (b, a) + m.issuer.holderBalance (b, a') ≤ maxValue := by
  calc m.issuer.holderBalance (b, a) + m.issuer.holderBalance (b, a')
      ≤ ∑ᶠ holder, BondIssuer.balances m.issuer b holder :=
        FinSum.add_le_finsum (hR.ledger.finite b) (hR.ledger.nonneg b) hne
    _ = state.totalSubscribed := hR.ledger.total b state hstate
    _ ≤ maxValue := hR.capped b state hstate

/-- A call of the router calls `BondIssuer` once, or not at all. -/
theorem issuer_of_router {op : DexRouter.Op} {s : DexRouter.State} {issuer : BondIssuer.State}
    {ret : DexRouter.Ret}
    (hexec : DexRouter.exec now m.issuer m.router op = .ok ((s, issuer), ret)) :
    issuer = m.issuer ∨ ∃ op', BondIssuer.exec now m.issuer op' = .ok (issuer, none) := by
  cases exec_router hexec with
  | list _ _ _ _ _ hissuer => exact .inl hissuer
  | cancel _ _ _ _ _ hissuer => exact .inl hissuer
  | deposit _ _ _ _ hissuer => exact .inl hissuer
  | withdraw _ _ _ _ _ hissuer => exact .inl hissuer
  | cleanAll _ hissuer => exact .inl hissuer
  | cleanRange _ hissuer => exact .inl hissuer
  | @purchase _ buyer _ _ amount _ order hP =>
    refine .inr ⟨.transfer order.seller buyer order.bondId amount
      (m.issuer.nonce order.seller), ?_⟩
    rw [BondIssuer.exec, hP.transferred]
    rfl

theorem Ready.step {t : ℕ} {op : Op} {ret : Ret} (hR : Ready m)
    (hexec : machine.exec t m op = .ok (m', ret)) : Ready m' := by
  cases step_of_exec hexec with
  | issuer hop =>
    exact { hR with
      ledger := hR.ledger.step (BondIssuer.exec_ledger hop)
      capped := hR.capped.step hop }
  | @router op s issuer _ hop =>
    have hstep := exec_router hop
    have hissuer : BondIssuer.LedgerInv issuer ∧ BondIssuer.Capped issuer := by
      obtain rfl | ⟨op', hcall⟩ := issuer_of_router hop
      · exact ⟨hR.ledger, hR.capped⟩
      · exact ⟨hR.ledger.step (BondIssuer.exec_ledger hcall), hR.capped.step hcall⟩
    obtain ⟨_, hQ⟩ := hR.accounts
    exact ⟨hissuer.1, hissuer.2, hR.bounded.step hR.priced hop, ⟨_, hQ.step hstep⟩,
      hstep.fresh hR.fresh, hR.indexed.step hop hR.fresh⟩

theorem ready_of_run (hrun : Run h m) : Ready m := by
  apply hrun.invariant (P := Ready)
  · intro m hinit
    obtain ⟨admin, hadmin⟩ := hinit.issuer
    obtain ⟨admin', hadmin'⟩ := hinit.router
    rw [show m = ⟨BondIssuer.construct admin, DexRouter.construct admin'⟩ from
      congrArg₂ Market.mk hadmin hadmin']
    exact ⟨.initial admin, .initial admin, .initial admin', ⟨_, .initial admin'⟩,
      fun _ _ => rfl, .initial admin'⟩
  · intro t m op ret m' hR hexec
    exact hR.step hexec

theorem Buys.ready (hB : Buys now signers buyer m₀ h m) (hR : Ready m₀) : Ready m := by
  induction hB with
  | start => exact hR
  | buy _ hexec ih => exact ih.step hexec

/-! ### Weighted sums of what was bought -/

/-- The orders there are. -/
def orders (m : Market) : Finset Order :=
  ((Finset.range (m.router.orderCount + 1)).image m.router.order).eraseNone

theorem mem_orders (hR : Ready m) {order : Order} :
    order ∈ orders m ↔ ∃ o, m.router.order o = some order := by
  unfold orders
  rw [Finset.mem_eraseNone, Finset.mem_image]
  constructor
  · rintro ⟨o, -, horder⟩
    exact ⟨o, horder⟩
  · rintro ⟨o, horder⟩
    refine ⟨o, ?_, horder⟩
    rw [Finset.mem_range, Nat.lt_succ_iff]
    -- ids above the count are not in use
    by_contra hcount
    rw [hR.fresh o (not_le.mp hcount)] at horder
    cases horder

/-- Orders are told apart by their ids. -/
theorem id_injOn (hR : Ready m) {order order' : Order} (hmem : order ∈ orders m)
    (hmem' : order' ∈ orders m) (hid : order.id = order'.id) : order = order' := by
  obtain ⟨o, ho⟩ := (mem_orders hR).mp hmem
  obtain ⟨o', ho'⟩ := (mem_orders hR).mp hmem'
  rw [hR.indexed.id o order ho, hR.indexed.id o' order' ho'] at hid
  rw [hid, ho'] at ho
  exact (Option.some.inj ho).symm

/-- The sum over the orders of `m₀` of what was bought of them, weighted. -/
def tally (m₀ : Market) (h : List Call) (weight : Order → ℤ) : ℤ :=
  ∑ order ∈ orders m₀, weight order * filled order.id h

theorem tally_nil (m₀ : Market) (weight : Order → ℤ) : tally m₀ [] weight = 0 := by
  simp [tally, filled]

/-- A purchase adds what it buys, with the weight of its order. -/
theorem tally_cons (hR : Ready m₀) {c : Call} {order : Order} {amount : ℤ} (weight : Order → ℤ)
    (hmem : order ∈ orders m₀)
    (hfills : ∀ o, c.op.fills o = if order.id = o then amount else 0) :
    tally m₀ (c :: h) weight = tally m₀ h weight + weight order * amount := by
  have hsum : ∑ other ∈ orders m₀, weight other * c.op.fills other.id = weight order * amount := by
    rw [Finset.sum_eq_single order]
    · rw [hfills, if_pos rfl]
    · intro other hother hne
      rw [hfills, if_neg, mul_zero]
      intro hid
      exact hne (id_injOn hR hother hmem hid.symm)
    · intro hnot
      exact absurd hmem hnot
  unfold tally
  -- both sums run over the same orders
  rw [← hsum, ← Finset.sum_add_distrib]
  apply Finset.sum_congr rfl
  intro other _
  rw [filled_cons, mul_add]

/-- What an order of bond `b` moves on the account of `a`, for each token bought. -/
def tokenWeight (buyer : Address) (b : BondId) (a : Address) (order : Order) : ℤ :=
  if order.bondId = b then
    (if a = buyer then 1 else 0) - (if a = order.seller then 1 else 0)
  else 0

/-- What an order quoted in `q` moves on the quote balance of `a`, for each token bought. -/
def quoteWeight (buyer : Address) (q : DexRouter.Symbol) (a : Address) (order : Order) : ℤ :=
  if order.quoteAsset = q then
    ((if a = order.seller then 1 else 0) - (if a = buyer then 1 else 0)) * order.pricePerToken
  else 0

/-- The weights are read off the terms. -/
theorem weights_of_terms {order order' : Order} (h : SameTerms order order') (buyer : Address) :
    (∀ b a, tokenWeight buyer b a order' = tokenWeight buyer b a order) ∧
      ∀ q a, quoteWeight buyer q a order' = quoteWeight buyer q a order := by
  unfold tokenWeight quoteWeight
  rw [h.bondId, h.seller, h.quoteAsset, h.pricePerToken]
  exact ⟨fun _ _ => rfl, fun _ _ => rfl⟩

variable {o : ℕ} {amount : ℤ} {order order₀ : Order}

/-- **A purchase** moves every account by the weight of its order. -/
theorem Settled.tokens (hS : Settled now m m' buyer o amount order)
    (hstranger : buyer ≠ order.seller) (b : BondId) (a : Address) : m'.issuer.holderBalance (b, a) =
      m.issuer.holderBalance (b, a) + tokenWeight buyer b a order * amount := by
  unfold tokenWeight
  by_cases hb : order.bondId = b
  · subst hb
    rw [if_pos rfl]
    by_cases hbuyer : a = buyer
    · rw [if_pos hbuyer, if_neg (hbuyer ▸ hstranger), hbuyer, hS.delivered.2]
      ring
    · by_cases hseller : a = order.seller
      · rw [if_neg hbuyer, if_pos hseller, hseller, hS.delivered.1]
        ring
      · rw [if_neg hbuyer, if_neg hseller, hS.holders _ a (by simp [hseller]) (by simp [hbuyer])]
        ring
  · rw [if_neg hb, zero_mul, add_zero]
    exact hS.holders b a (by simp [Ne.symm hb]) (by simp [Ne.symm hb])

theorem Settled.quoteBalances (hS : Settled now m m' buyer o amount order)
    (hstranger : buyer ≠ order.seller) (q : DexRouter.Symbol) (a : Address) :
    m'.router.balance (q, a) = m.router.balance (q, a) + quoteWeight buyer q a order * amount := by
  unfold quoteWeight
  by_cases hq : order.quoteAsset = q
  · subst hq
    rw [if_pos rfl]
    by_cases hbuyer : a = buyer
    · rw [if_pos hbuyer, if_neg (hbuyer ▸ hstranger), hbuyer, hS.paid.1]
      ring
    · by_cases hseller : a = order.seller
      · rw [if_neg hbuyer, if_pos hseller, hseller, hS.paid.2]
        ring
      · rw [if_neg hbuyer, if_neg hseller, hS.quotes _ a (by simp [hseller]) (by simp [hbuyer])]
        ring
  · rw [if_neg hq, zero_mul, add_zero]
    exact hS.quotes q a (by simp [Ne.symm hq]) (by simp [Ne.symm hq])

/-! ### The run of purchases -/

/-- The record `order` is `order₀` with `n` tokens bought of it, by a stranger and in time. Several
purchases of one order add up, and the record tells no more of them than the sum. -/
structure Kept (now : ℕ) (buyer : Address) (order₀ : Order) (n : ℤ) (order : Order) : Prop where
  terms : SameTerms order₀ order
  nonneg : 0 ≤ n
  untouched : n = 0 → order = order₀
  left : order.Live → order.amount = order₀.amount - n
  bought : 0 < n → order₀.Live ∧ ¬ order₀.Expired now ∧ buyer ≠ order₀.seller ∧ n ≤ order₀.amount

theorem Kept.refl (now : ℕ) (buyer : Address) (order : Order) : Kept now buyer order 0 order where
  terms := .refl order
  nonneg := le_rfl
  untouched _ := rfl
  left _ := (sub_zero _).symm
  bought h := absurd h (lt_irrefl 0)

/-- Buying some more. -/
theorem Kept.fill {n : ℤ} (hK : Kept now buyer order₀ n order) (hlive : order.Live)
    (htime : ¬ order.Expired now) (hstranger : buyer ≠ order.seller) (hpositive : 0 < amount)
    (hleft : amount ≤ order.amount) : Kept now buyer order₀ (n + amount) (order.fill amount) := by
  have hnonneg := hK.nonneg
  have hamount := hK.left hlive
  refine ⟨hK.terms.trans (sameTerms_fill order amount), by omega, fun h => by omega, ?_, ?_⟩
  · intro hlive'
    unfold Order.fill at hlive' ⊢
    split
    · next hall =>
      -- an order that is bought up is not live
      rw [if_pos hall] at hlive'
      rcases hlive' with h | h <;> cases h
    · dsimp only
      omega
  · intro _
    have hterms := hK.terms
    have htime₀ : ¬ order₀.Expired now := by
      unfold Order.Expired at htime ⊢
      rwa [← hterms.expiresAt]
    refine ⟨?_, htime₀, hterms.seller ▸ hstranger, by omega⟩
    -- the order was live at first: it still is untouched, or something was bought of it
    by_cases hzero : n = 0
    · exact hK.untouched hzero ▸ hlive
    · exact (hK.bought (by omega)).1

/-- What a run of purchases did. -/
structure Bought (now : ℕ) (buyer : Address) (m₀ : Market) (h : List Call) (m : Market) : Prop where
  records : ∀ o order₀, m₀.router.order o = some order₀ →
    ∃ order, m.router.order o = some order ∧ Kept now buyer order₀ (filled o h) order
  unlisted : ∀ o, m₀.router.order o = none → m.router.order o = none
  tokens : ∀ b a, m.issuer.holderBalance (b, a) =
    m₀.issuer.holderBalance (b, a) + tally m₀ h (tokenWeight buyer b a)
  quotes : ∀ q a, m.router.balance (q, a) =
    m₀.router.balance (q, a) + tally m₀ h (quoteWeight buyer q a)
  configs : m.issuer.bondConfig = m₀.issuer.bondConfig
  states : m.issuer.bondState = m₀.issuer.bondState

theorem Bought.start (now : ℕ) (buyer : Address) (m : Market) : Bought now buyer m [] m where
  records o order₀ horder := ⟨order₀, horder, .refl now buyer order₀⟩
  unlisted _ h := h
  tokens _ _ := by rw [tally_nil, add_zero]
  quotes _ _ := by rw [tally_nil, add_zero]
  configs := rfl
  states := rfl

/-- **One purchase.** It adds its amount to what was bought of its order, and its weight to every
account. -/
theorem Bought.buy {maxPrice : ℤ} {nonce : ℕ} {ret : Ret} (hR : Ready m₀)
    (hBought : Bought now buyer m₀ h m)
    (hexec : machine.exec now m
      (.router (.executePurchase signers buyer o maxPrice amount nonce)) = .ok (m', ret)) :
    Bought now buyer m₀
      (⟨now, m, .router (.executePurchase signers buyer o maxPrice amount nonce), ret, m'⟩ :: h)
      m' := by
  obtain ⟨order, hP⟩ := purchased_of_exec hexec
  -- the record is that of an order of `m₀`
  obtain ⟨order₀, hfound₀⟩ : ∃ order₀, m₀.router.order o = some order₀ := by
    rw [← Option.ne_none_iff_exists']
    intro hnone
    have hgone := hBought.unlisted o hnone
    rw [hP.found] at hgone
    cases hgone
  obtain ⟨_, hfound, hK⟩ := hBought.records o order₀ hfound₀
  rw [hP.found] at hfound
  cases hfound
  have hprice : 0 < order.pricePerToken := by
    rw [hK.terms.pricePerToken]
    exact hR.priced o order₀ hfound₀
  have hS := settled_of_purchased hP hprice
  have hid : order₀.id = o := hR.indexed.id o order₀ hfound₀
  have hmem : order₀ ∈ orders m₀ := (mem_orders hR).mpr ⟨o, hfound₀⟩
  obtain ⟨htokens, hquotes⟩ := weights_of_terms hK.terms buyer
  obtain ⟨c, hc⟩ : ∃ c : Call, c = ⟨now, m,
    .router (.executePurchase signers buyer o maxPrice amount nonce), ret, m'⟩ := ⟨_, rfl⟩
  have hfills : ∀ o', c.op.fills o' = if order₀.id = o' then amount else 0 := by
    intro o'
    rw [hc, hid]
    rfl
  rw [← hc]
  refine ⟨?_, ?_, ?_, ?_, hS.configs.trans hBought.configs, hS.states.trans hBought.states⟩
  · intro o' order' horder'
    rw [filled_cons, hfills, hid, hP.orders]
    by_cases ho : o = o'
    · subst ho
      rw [hfound₀] at horder'
      cases horder'
      rw [if_pos rfl, Function.update_self]
      exact ⟨_, rfl, hK.fill hP.live (not_le.mpr hP.inTime) hP.stranger hP.positive hP.left⟩
    · rw [if_neg ho, add_zero, Function.update_of_ne (Ne.symm ho)]
      exact hBought.records o' order' horder'
  · intro o' hnone
    have hne : o' ≠ o := by
      rintro rfl
      rw [hnone] at hfound₀
      cases hfound₀
    rw [hP.orders, Function.update_of_ne hne]
    exact hBought.unlisted o' hnone
  · intro b a
    rw [hS.tokens hP.stranger, hBought.tokens, tally_cons hR _ hmem hfills, htokens, add_assoc]
  · intro q a
    rw [hS.quoteBalances hP.stranger, hBought.quotes, tally_cons hR _ hmem hfills, hquotes,
      add_assoc]

/-- **All purchases.** From the moment of the quote on, by induction on the purchases. -/
theorem Buys.bought (hB : Buys now signers buyer m₀ h m) (hR : Ready m₀) :
    Bought now buyer m₀ h m := by
  induction hB with
  | start => exact .start now buyer m₀
  | buy _ hexec ih => exact ih.buy hR hexec

end Marketplace
end NbsBond
