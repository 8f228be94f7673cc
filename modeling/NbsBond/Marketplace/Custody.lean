import NbsBond.BondIssuer.Callers
import NbsBond.Marketplace.Settlement

/-!
# What is not signed away is kept

A purchase takes bond tokens from the seller and quote assets from the buyer, and both have to sign
it; every other call is signed by the one address that it may take something from. So an address
that signs nothing loses nothing, whoever else calls what, the admins of the two contracts included,
and also while orders of its own are in the book (`idle_account_keeps`).

A signed call is committed once. `execute_purchase` makes `BondIssuer` spend a nonce of the seller,
the one it expects at that moment; with these the nonces that an address spends at a contract are
again `0, 1, 2, ..` (`market_nonces_in_order`), up to the `2 ^ 64` that the width of a nonce allows.
-/

namespace NbsBond

namespace DexRouter

open Soroban

/-- The caller of an entrypoint and the nonce it presents. -/
def Op.ticket : Op → Option (Address × ℕ)
  | .listBondTokens seller _ _ _ _ _ nonce => some (seller, nonce)
  | .cancelListing caller _ nonce => some (caller, nonce)
  | .executePurchase _ buyer _ _ _ nonce => some (buyer, nonce)
  | .depositQuote caller _ _ nonce => some (caller, nonce)
  | .withdrawQuote caller _ _ nonce => some (caller, nonce)
  | .cleanExpiredOrders caller nonce => some (caller, nonce)
  | .cleanExpiredOrdersRange caller nonce _ _ => some (caller, nonce)

/-- The addresses that sign a call. -/
def Op.signers : Op → List Address
  | .executePurchase signers _ _ _ _ _ => signers
  | op => (op.ticket.map Prod.fst).toList

theorem cleanExpiredOrdersRangeImpl_nonce (now : ℕ) (s : State) (startId endId : ℕ) :
    (cleanExpiredOrdersRangeImpl now s startId endId).1.nonce = s.nonce := by
  unfold cleanExpiredOrdersRangeImpl
  generalize List.range' startId (endId + 1 - startId) = ids
  generalize hacc : (s, 0) = acc
  have hstart : acc.1.nonce = s.nonce := by rw [← hacc]
  clear hacc
  induction ids generalizing acc with
  | nil => exact hstart
  | cons id ids ih =>
    have hround : (cleanOrder now acc id).1.nonce = acc.1.nonce := by
      unfold cleanOrder
      split
      · split <;> rfl
      · rfl
    exact ih _ (hround.trans hstart)

/-- **An entrypoint uses up one nonce of its caller.** In a purchase the nonce of the seller at the
issuer is spent besides; this is about the router. -/
theorem exec_uses {now : ℕ} {issuer issuer' : BondIssuer.State} {s s' : State} {op : Op} {r : Ret}
    (h : exec now issuer s op = .ok ((s', issuer'), r)) : Uses s.nonce op.ticket s'.nonce := by
  cases op with
  | listBondTokens seller bondId amount pricePerToken quoteAsset expiresAfterSeconds nonce =>
    simp only [exec, listBondTokens, bind_eq_ok, useNonce_eq_ok, pure_eq_ok, Prod.mk.injEq] at h
    obtain ⟨⟨_, _⟩, ⟨_, ⟨rfl, rfl⟩, _, -, _, -, _, -, _, -, rfl, -⟩, ⟨rfl, -⟩, -⟩ := h
    exact .one seller
  | cancelListing caller orderId nonce =>
    simp only [exec, cancelListing, bind_eq_ok, useNonce_eq_ok, pure_eq_ok, Prod.mk.injEq] at h
    obtain ⟨_, ⟨_, ⟨rfl, rfl⟩, _, -, _, -, _, -, rfl⟩, ⟨rfl, -⟩, -⟩ := h
    exact .one caller
  | executePurchase signers buyer orderId maxPrice amount nonce =>
    simp only [exec, executePurchase, bind_eq_ok, useNonce_eq_ok, pure_eq_ok, Prod.mk.injEq] at h
    obtain ⟨⟨_, _⟩, ⟨_, -, _, ⟨rfl, rfl⟩, _, -, _, -, _, -, _, -, _, -, _, -, _, -, _, -, _, -, _,
      -, _, -, rfl, -⟩, heq, -⟩ := h
    cases heq
    exact .one buyer
  | depositQuote caller quoteAsset amount nonce =>
    simp only [exec, depositQuote, bind_eq_ok, useNonce_eq_ok, pure_eq_ok, Prod.mk.injEq] at h
    obtain ⟨_, ⟨_, ⟨rfl, rfl⟩, _, -, _, -, rfl⟩, ⟨rfl, -⟩, -⟩ := h
    exact .one caller
  | withdrawQuote caller quoteAsset amount nonce =>
    simp only [exec, withdrawQuote, bind_eq_ok, useNonce_eq_ok, pure_eq_ok, Prod.mk.injEq] at h
    obtain ⟨_, ⟨_, ⟨rfl, rfl⟩, _, -, _, -, rfl⟩, ⟨rfl, -⟩, -⟩ := h
    exact .one caller
  | cleanExpiredOrders caller nonce =>
    simp only [exec, cleanExpiredOrders, bind_eq_ok, useNonce_eq_ok, pure_eq_ok,
      Prod.mk.injEq] at h
    obtain ⟨⟨s₁, _⟩, ⟨_, ⟨rfl, rfl⟩, _, -, h⟩, ⟨rfl, -⟩, -⟩ := h
    split at h
    · cases h
      exact .one caller
    · have hkept := cleanExpiredOrdersRangeImpl_nonce now
        { s with nonce := Function.update s.nonce caller (s.nonce caller + 1) } 1 s.orderCount
      rw [pure_eq_ok] at h
      rw [h] at hkept
      show Uses s.nonce _ s₁.nonce
      rw [hkept]
      exact .one caller
  | cleanExpiredOrdersRange caller nonce startId endId =>
    simp only [exec, cleanExpiredOrdersRange, bind_eq_ok, useNonce_eq_ok, pure_eq_ok,
      Prod.mk.injEq] at h
    obtain ⟨⟨s₁, _⟩, ⟨_, ⟨rfl, rfl⟩, _, -, _, -, h⟩, ⟨rfl, -⟩, -⟩ := h
    have hkept := cleanExpiredOrdersRangeImpl_nonce now
      { s with nonce := Function.update s.nonce caller (s.nonce caller + 1) } startId endId
    rw [h] at hkept
    show Uses s.nonce _ s₁.nonce
    rw [hkept]
    exact .one caller

/-- A purchase is signed by the buyer and by the seller. -/
theorem executePurchase_signed {now : ℕ} {issuer issuer' : BondIssuer.State} {s s' : State}
    {signers : List Address} {buyer : Address} {orderId : ℕ} {maxPrice amount : ℤ} {nonce : ℕ}
    (h : executePurchase now issuer s signers buyer orderId maxPrice amount nonce =
      .ok (s', issuer')) :
    buyer ∈ signers ∧ ∀ order, s.order orderId = some order → order.seller ∈ signers := by
  simp only [executePurchase, bind_eq_ok, requireAuth_eq_ok, orError_eq_ok, pure_eq_ok,
    Prod.mk.injEq] at h
  obtain ⟨_, hbuyer, _, -, order, hold, _, -, _, -, _, -, _, -, _, -, _, -, _, -, _, -, _, -, _,
    htransfer, -⟩ := h
  refine ⟨hbuyer, fun order' hold' => ?_⟩
  rw [hold] at hold'
  cases hold'
  exact (transferBonds_ok htransfer).1

end DexRouter

namespace Marketplace

open Soroban

/-- The addresses that sign a call. -/
def Op.signers : Op → List Address
  | .issuer op => (op.ticket.map Prod.fst).toList
  | .router op => op.signers

section Custody

variable {now : ℕ} {m m' m₀ : Market} {op : Op} {r : Ret} {a : Address} {h : List Call}

/-- **A call takes nothing from an address that did not sign it.** Others may pay in for it, or sell
to it with its signature, but only it can give away. -/
theorem Step.idle (hstep : Step now m op m' r) (hidle : a ∉ op.signers) :
    (∀ b, m.issuer.holderBalance (b, a) ≤ m'.issuer.holderBalance (b, a)) ∧
      ∀ q, m.router.balance (q, a) ≤ m'.router.balance (q, a) := by
  -- a call of the issuer touches the balance of its caller, and of whom it credits
  cases hstep with
  | @issuer op s r h =>
    refine ⟨(BondIssuer.exec_ledger h).idle fun nonce hticket => hidle ?_, fun q => le_rfl⟩
    rw [Op.signers, hticket]
    exact List.mem_singleton.mpr rfl
  | @router op s issuer r h =>
    have hsigners : a ∉ op.signers := hidle
    -- most entrypoints of the router move no balance at all
    have hkept : ∀ {issuer' : BondIssuer.State} {s' : DexRouter.State}, issuer' = m.issuer →
        s'.balance = m.router.balance →
        (∀ b, m.issuer.holderBalance (b, a) ≤ issuer'.holderBalance (b, a)) ∧
          ∀ q, m.router.balance (q, a) ≤ s'.balance (q, a) := by
      rintro issuer' s' rfl hbalance
      exact ⟨fun b => le_rfl, fun q => by rw [hbalance]⟩
    have hexec := h
    cases DexRouter.exec_router h with
    | list _ _ _ _ hbalance hissuer => exact hkept hissuer hbalance
    | cancel _ _ _ _ hbalance hissuer => exact hkept hissuer hbalance
    | cleanAll hswept hissuer => exact hkept hissuer hswept.balance
    | cleanRange hswept hissuer => exact hkept hissuer hswept.balance
    | @deposit caller quoteAsset amount nonce hamount hbalance _ _ hissuer =>
      refine ⟨fun b => by rw [hissuer], fun q => ?_⟩
      -- a deposit only adds, to whoever makes it
      rw [hbalance, Function.update_apply]
      split
      · next hkey =>
        rw [hkey]
        omega
      · exact le_rfl
    | @withdraw caller quoteAsset amount nonce _ _ hbalance _ _ hissuer =>
      refine ⟨fun b => by rw [hissuer], fun q => ?_⟩
      -- a withdrawal is of the caller's own balance
      have hother : (q, a) ≠ (quoteAsset, caller) := by
        rintro ⟨⟩
        exact hsigners (List.mem_singleton.mpr rfl)
      rw [hbalance, Function.update_of_ne hother]
    | @purchase signers buyer orderId maxPrice amount nonce order hpurchased =>
      simp only [DexRouter.exec, bind_eq_ok, pure_eq_ok, Prod.mk.injEq] at hexec
      obtain ⟨⟨s₁, issuer₁⟩, hexec, heq, -⟩ := hexec
      cases heq
      -- both sides of a purchase have signed it, so `a` is neither
      obtain ⟨hbuyer, hseller⟩ := DexRouter.executePurchase_signed hexec
      have hnotBuyer : a ≠ buyer := fun heq => hsigners (heq ▸ hbuyer)
      have hnotSeller : a ≠ order.seller :=
        fun heq => hsigners (heq ▸ hseller order hpurchased.found)
      have htransfer : BondIssuer.exec now m.issuer (.transfer order.seller buyer order.bondId
          amount (m.issuer.nonce order.seller)) = .ok (issuer, none) := by
        simp only [BondIssuer.exec, hpurchased.transferred]
        rfl
      -- inside the purchase the tokens leave the seller alone
      refine ⟨(BondIssuer.exec_ledger htransfer).idle ?_, fun q => ?_⟩
      · rintro nonce hticket
        exact hnotSeller (Prod.mk.inj (Option.some.inj hticket)).1.symm
      · rw [hpurchased.balance, Function.update_of_ne (by simp [hnotSeller]),
          Function.update_of_ne (by simp [hnotBuyer])]

/-- **Custody.** From any state, whatever the others do, an address that signs nothing keeps its
bond tokens and its quote balances, and can then withdraw them. -/
theorem idle_account_keeps (hrun : Soroban.Run machine (fun m => m = m₀) h m)
    (hidle : ∀ c ∈ h, a ∉ c.op.signers) :
    (∀ b, m₀.issuer.holderBalance (b, a) ≤ m.issuer.holderBalance (b, a)) ∧
    (∀ q, m₀.router.balance (q, a) ≤ m.router.balance (q, a)) ∧
    ∀ q amount now, 0 < amount → amount ≤ m₀.router.balance (q, a) →
      ∃ m', machine.exec now m (.router (.withdrawQuote a q amount (m.router.nonce a))) =
        .ok (m', .router .unit) := by
  -- what one call keeps, the run keeps
  obtain ⟨htokens, hquotes⟩ := hrun.guarded (G := fun _ op => a ∉ op.signers)
    (P := fun m => (∀ b, m₀.issuer.holderBalance (b, a) ≤ m.issuer.holderBalance (b, a)) ∧
      ∀ q, m₀.router.balance (q, a) ≤ m.router.balance (q, a))
    (fun m hm => ⟨fun b => by rw [hm], fun q => by rw [hm]⟩)
    (fun now m op r m' hm hsigned hexec =>
      have hstep := (step_of_exec hexec).idle hsigned
      ⟨fun b => (hm.1 b).trans (hstep.1 b), fun q => (hm.2 q).trans (hstep.2 q)⟩) hidle
  refine ⟨htokens, hquotes, fun q amount now hpos hle => ?_⟩
  -- the funds are there, and the nonce is read off the state
  have hfunds : amount ≤ m.router.balance (q, a) := hle.trans (hquotes q)
  simp only [machine, exec, DexRouter.exec, DexRouter.withdrawQuote, bind_eq_ok, liftError_eq_ok,
    useNonce_eq_ok, ensure_eq_ok, pure_eq_ok]
  exact ⟨_, _, ⟨_, ⟨_, ⟨trivial, rfl⟩, (), hpos, (), hfunds, rfl⟩, rfl⟩, rfl⟩

end Custody

/-- The buyer waits while the seller cancels the order and another address pays in. -/
theorem idle_account_keeps_waiting : ∃ m₀ h m, Soroban.Run machine (fun m => m = m₀) h m ∧
    h.length = 2 ∧ m₀.router.balance ("USDC", ⟨2⟩) = 100 ∧
      m₀.router.balance ("USDC", ⟨2⟩) ≤ m.router.balance ("USDC", ⟨2⟩) := by
  obtain ⟨h₂, c, h₁, m, hrun, hview⟩ := Run.of_play_split machine
    (listing.append [(4, .router (.cancelListing ⟨1⟩ 1 1)),
      (5, .router (.depositQuote ⟨3⟩ "USDC" 5 0))]) 2
    (fun h₂ c _ _ => decide (h₂.length = 2 ∧ c.post.router.balance ("USDC", ⟨2⟩) = 100 ∧
      ∀ d ∈ h₂, (⟨2⟩ : Address) ∉ d.op.signers)) (Init.deploy ⟨0⟩) (by decide)
  obtain ⟨hlength, hbalance, hidle⟩ := of_decide_eq_true hview
  have hkeeps := idle_account_keeps hrun.future hidle
  exact ⟨c.post, h₂, m, hrun.future, hlength, hbalance, hkeeps.2.1 "USDC"⟩

/-! ### Nonces -/

inductive Contract where
  | issuer
  | router
  deriving DecidableEq, Repr

/-- The nonce that a contract expects of an address. -/
def Market.nonce (m : Market) (a : Address) : Contract → ℕ
  | .issuer => m.issuer.nonce a
  | .router => m.router.nonce a

/-- The contract that is called, with the caller and the nonce it presents. -/
def Op.ticket : Op → Contract × Option (Address × ℕ)
  | .issuer op => (.issuer, op.ticket)
  | .router op => (.router, op.ticket)

/-- The seller of the order that is bought. -/
def Op.seller (m : Market) : Op → Option Address
  | .router (.executePurchase _ _ orderId _ _ _) => (m.router.order orderId).map (·.seller)
  | _ => none

/-- The nonce of `a` at a contract that a call spends: the one it presents or, in a purchase from
`a`, the one that `BondIssuer` expects. The second is not an argument of the purchase: the router
asks `BondIssuer` for it. -/
def spends (contract : Contract) (a : Address) (c : Call) : Option ℕ :=
  if c.op.ticket.1 = contract then presented a c.op.ticket.2
  else if contract = .issuer ∧ c.op.seller c.pre = some a then some (c.pre.issuer.nonce a)
  else none

section Nonces

variable {now : ℕ} {m m' : Market} {op : Op} {r : Ret} {h : List Call}

/-- A call of the router spends a nonce at `BondIssuer` if it is a purchase, of the seller. -/
theorem router_issuer_nonce {op : DexRouter.Op} {s : DexRouter.State} {issuer : BondIssuer.State}
    {r : DexRouter.Ret} (h : DexRouter.exec now m.issuer m.router op = .ok ((s, issuer), r)) :
    Uses m.issuer.nonce
      ((Op.seller m (.router op)).map fun seller => (seller, m.issuer.nonce seller))
      issuer.nonce := by
  cases DexRouter.exec_router h with
  | list _ _ _ _ _ hissuer | cancel _ _ _ _ _ hissuer | cleanAll _ hissuer
  | cleanRange _ hissuer | deposit _ _ _ _ hissuer | withdraw _ _ _ _ _ hissuer =>
    rw [hissuer]
    exact .none
  | @purchase signers buyer orderId maxPrice amount nonce order hpurchased =>
    have hseller : Op.seller m (.router (.executePurchase signers buyer orderId maxPrice amount
        nonce)) = some order.seller := by
      rw [Op.seller, hpurchased.found]
      rfl
    rw [hseller, Option.map_some]
    exact BondIssuer.transfer_uses hpurchased.transferred

theorem spends_counts (contract : Contract) (a : Address) (hstep : Step now m op m' r) :
    -- at the contract that is called the ticket says it all
    Counts (spends contract a ⟨now, m, op, r, m'⟩) (m.nonce a contract) (m'.nonce a contract) := by
  cases hstep with
  | @issuer op s r h =>
    cases contract with
    | issuer => exact (BondIssuer.exec_uses h).counts a
    | router => exact .inl ⟨rfl, rfl⟩
  | @router op s issuer r h =>
    cases contract with
    | router => exact (DexRouter.exec_uses h).counts a
    | issuer =>
      -- at the other one a purchase spends the nonce of the seller
      have hcounts := (router_issuer_nonce h).counts a
      have hspends : spends .issuer a ⟨now, m, .router op, .router r, ⟨issuer, s⟩⟩ =
          presented a ((Op.seller m (.router op)).map fun seller =>
            (seller, m.issuer.nonce seller)) := by
        simp only [spends, Op.ticket, reduceCtorEq, if_false, true_and]
        cases hseller : Op.seller m (.router op) with
        | none => simp [presented]
        | some seller =>
          by_cases ha : seller = a
          · subst ha
            simp [presented]
          · simp [presented, ha]
      rw [hspends]
      exact hcounts

theorem market_nonce_init (hm : Init m) (a : Address) (contract : Contract) :
    m.nonce a contract = 0 := by
  cases contract with
  | issuer =>
    obtain ⟨admin, h⟩ := hm.issuer
    rw [Market.nonce, h]
    rfl
  | router =>
    obtain ⟨admin, h⟩ := hm.router
    rw [Market.nonce, h]
    rfl

theorem spends_of_run (contract : Contract) (a : Address) (h : List Call) (c : Call) (m : Market)
    (hrun : Run (c :: h) m) :
    Counts (spends contract a c) (c.pre.nonce a contract) (c.post.nonce a contract) := by
  cases hrun with
  | call _ _ hexec => exact spends_counts contract a (step_of_exec hexec)

/-- Every address has spent fewer nonces at each contract in the calls `h` than 64 bits can tell
apart. -/
def FewNonces (h : List Call) : Prop :=
  ∀ contract a, (h.filterMap (spends contract a)).length < 2 ^ 64

/-- **No replay.** In a run with fewer than `2 ^ 64` nonces of each address at each contract, what
an address spends at a contract is `0, 1, 2, ..` in this order; the nonce expected afterwards is
each time what the 64-bit addition gives; and a committed call is refused ever after. -/
theorem market_nonces_in_order (hrun : Run h m) (hfew : FewNonces h) :
    (∀ contract a, h.reverse.filterMap (spends contract a) = List.range (m.nonce a contract)) ∧
    (∀ contract a, ∀ c ∈ h, ∀ n, spends contract a c = some n →
      c.post.nonce a contract = (n + 1) % 2 ^ 64) ∧
    (∀ c ∈ h, ∀ now m' r, machine.exec now m c.op ≠ .ok (m', r)) := by
  have hinit : ∀ contract a (m : Market), Init m → m.nonce a contract = 0 :=
    fun contract a m hm => market_nonce_init hm a contract
  refine ⟨fun contract a => hrun.numbered (hinit contract a) (spends_of_run contract a),
    fun contract a c hc n hn => hrun.numbered_mod (hinit contract a) (spends_of_run contract a)
      (hfew contract a) hc hn, ?_⟩
  intro c hc now m' r hexec
  -- every entrypoint of both contracts has a nonce
  have hticket : ∃ a n, c.op.ticket.2 = some (a, n) := by
    rcases c with ⟨_, _, _ | _, _, _⟩
    · next op => cases op <;> exact ⟨_, _, rfl⟩
    · next op => cases op <;> exact ⟨_, _, rfl⟩
  obtain ⟨a, n, hticket⟩ := hticket
  have hspends : ∀ now m m' r, spends c.op.ticket.1 a ⟨now, m, c.op, r, m'⟩ = some n := by
    intro now m m' r
    rw [spends, if_pos rfl, hticket, presented_self]
  -- the nonce of a committed call is below the one expected now
  have hspent : n < m.nonce a c.op.ticket.1 :=
    hrun.used_lt (hinit c.op.ticket.1 a) (spends_of_run c.op.ticket.1 a) hc
      (hspends c.time c.pre c.post c.ret)
  -- the second time the nonce would have to be the expected one
  have hagain := spends_counts c.op.ticket.1 a (step_of_exec hexec)
  rw [hspends] at hagain
  obtain ⟨hnone, -⟩ | ⟨hsome, -⟩ := hagain
  · cases hnone
  · exact absurd (Option.some.inj hsome) hspent.ne

/-- No call spends two nonces of an address at one contract. -/
theorem fewNonces_of_length (hshort : h.length < 2 ^ 64) : FewNonces h := fun _ _ =>
  (List.length_filterMap_le _ _).trans_lt hshort

end Nonces

/-- A listing and a purchase of it: the seller spent its own nonce and the one of the transfer. -/
theorem market_nonces_in_order_purchase : ∃ h m, Run h m ∧
    h.reverse.filterMap (spends .issuer ⟨1⟩) = [0, 1] ∧
      (∀ c ∈ h, ∀ n, spends .issuer ⟨1⟩ c = some n → c.post.nonce ⟨1⟩ .issuer = (n + 1) % 2 ^ 64) ∧
      ∀ c ∈ h, ∀ now m' r, machine.exec now m c.op ≠ .ok (m', r) := by
  have hplay : (machine.play [] (deploy ⟨0⟩)
      (listing.append [(4, .router (.executePurchase [⟨1⟩, ⟨2⟩] ⟨2⟩ 1 3 4 1))])).map
      (fun x => (x.2.nonce ⟨1⟩ .issuer, decide (x.1.length < 2 ^ 64))) = some (2, true) := by
    decide
  obtain ⟨h, m, hrun, hview⟩ := Run.of_play (Init.deploy ⟨0⟩) hplay
  rw [Prod.mk.injEq, decide_eq_true_eq] at hview
  obtain ⟨hnonce, hshort⟩ := hview
  obtain ⟨horder, hnext, hreplay⟩ := market_nonces_in_order hrun (fewNonces_of_length hshort)
  have hseller := horder .issuer ⟨1⟩
  rw [hnonce] at hseller
  exact ⟨h, m, hrun, hseller, hnext .issuer ⟨1⟩, hreplay⟩

end Marketplace
end NbsBond
