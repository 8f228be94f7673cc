import NbsBond.Framework.FinSum
import NbsBond.BondIssuer.Model

/-!
# The bond token ledger

The contract stores one balance per holder and one `total_subscribed` per bond, and updates the two
separately. `LedgerInv` ties them together: per bond, the balances are non-negative, vanish outside
a finite set of holders, and add up to `total_subscribed`, which stays between zero and the bond's
`total_supply`.

`exec_ledger` is the only lemma that looks inside the entrypoints. It says what a committed call
does to the configuration table, to the state table and to the balances; the invariant is kept by
each of its five shapes (`LedgerInv.step`).
-/

namespace NbsBond
namespace BondIssuer

open Soroban Int128

/-! ### What a committed call does to the ledger -/

section Append

variable (s : State) (bondId : BondId) (balance : ℤ) (holder : Address)

@[simp] theorem appendIfNew_bondConfig :
    (appendIfNew s bondId balance holder).bondConfig = s.bondConfig := by
  unfold appendIfNew; split <;> rfl

@[simp] theorem appendIfNew_bondState :
    (appendIfNew s bondId balance holder).bondState = s.bondState := by
  unfold appendIfNew; split <;> rfl

@[simp] theorem appendIfNew_holderBalance :
    (appendIfNew s bondId balance holder).holderBalance = s.holderBalance := by
  unfold appendIfNew; split <;> rfl

@[simp] theorem appendIfNew_bondCount :
    (appendIfNew s bondId balance holder).bondCount = s.bondCount := by
  unfold appendIfNew; split <;> rfl

end Append

/-- The effect of a committed call on bond configurations, bond states and balances. One constructor
for each entrypoint; the hypotheses are the checks that the invariant needs, and the equations say
what is written and that nothing else is. -/
inductive LedgerStep (s s' : State) : Op → Prop
  /-- A new bond with nothing subscribed; no balance moves. -/
  | issue {caller : Address} {config : BondConfig} {nonce now : ℕ}
      (hsupply : 0 < config.totalSupply)
      (hcount : s'.bondCount = s.bondCount + 1)
      (hconfig : s'.bondConfig = Function.update s.bondConfig (s.bondCount + 1) (some config))
      (hstate : s'.bondState =
        Function.update s.bondState (s.bondCount + 1) (some ⟨0, .active, now⟩))
      (hbalance : s'.holderBalance = s.holderBalance) :
      LedgerStep s s' (.issueBond caller config nonce)
  /-- A subscription moves the investor's balance and the total by `amount`. -/
  | subscribe {investor : Address} {bondId : BondId} {amount : ℤ} {nonce : ℕ}
      {config : BondConfig} {state : BondState}
      (hpos : 0 < amount) (hcfg : s.bondConfig bondId = some config)
      (hst : s.bondState bondId = some state)
      (hcap : state.totalSubscribed + amount ≤ config.totalSupply)
      (hcount : s'.bondCount = s.bondCount)
      (hconfig : s'.bondConfig = s.bondConfig)
      (hstate : s'.bondState = Function.update s.bondState bondId
        (some { state with totalSubscribed := state.totalSubscribed + amount }))
      (hbalance : s'.holderBalance = Function.update s.holderBalance (bondId, investor)
        (s.holderBalance (bondId, investor) + amount)) :
      LedgerStep s s' (.subscribe investor bondId amount nonce)
  /-- A transfer moves `amount` between two different holders. -/
  | transfer {sender recipient : Address} {bondId : BondId} {amount : ℤ} {nonce : ℕ}
      (hne : recipient ≠ sender) (hpos : 0 < amount)
      (hfunds : amount ≤ s.holderBalance (bondId, sender))
      (hissued : s.bondState bondId ≠ none)
      (hcount : s'.bondCount = s.bondCount)
      (hconfig : s'.bondConfig = s.bondConfig) (hstate : s'.bondState = s.bondState)
      (hbalance : s'.holderBalance = Function.update
        (Function.update s.holderBalance (bondId, sender)
          (s.holderBalance (bondId, sender) - amount))
        (bondId, recipient) (s.holderBalance (bondId, recipient) + amount)) :
      LedgerStep s s' (.transfer sender recipient bondId amount nonce)
  /-- A redemption takes `amount` off the holder's balance and off the total. -/
  | redeem {holder : Address} {bondId : BondId} {amount : ℤ} {nonce : ℕ} {state : BondState}
      (hpos : 0 < amount) (hst : s.bondState bondId = some state)
      (hfunds : amount ≤ s.holderBalance (bondId, holder))
      (hcount : s'.bondCount = s.bondCount)
      (hconfig : s'.bondConfig = s.bondConfig)
      (hstate : s'.bondState = Function.update s.bondState bondId
        (some { state with totalSubscribed := state.totalSubscribed - amount }))
      (hbalance : s'.holderBalance = Function.update s.holderBalance (bondId, holder)
        (s.holderBalance (bondId, holder) - amount)) :
      LedgerStep s s' (.redeem holder bondId amount nonce)
  /-- Maturing a bond changes its status alone. -/
  | mature {caller : Address} {bondId : BondId} {nonce : ℕ} {state : BondState}
      (hst : s.bondState bondId = some state)
      (hcount : s'.bondCount = s.bondCount)
      (hconfig : s'.bondConfig = s.bondConfig)
      (hstate : s'.bondState =
        Function.update s.bondState bondId (some { state with status := .matured }))
      (hbalance : s'.holderBalance = s.holderBalance) :
      LedgerStep s s' (.matureBond caller bondId nonce)

/-- **What a call can do.** Everything else in this development that needs to know what an
entrypoint writes to the ledger goes through it. -/
theorem exec_ledger {now : ℕ} {s s' : State} {op : Op} {r : Option BondId}
    (h : exec now s op = .ok (s', r)) : LedgerStep s s' op := by
  cases op with
  | issueBond caller config nonce =>
    simp only [exec, issueBond, bind_eq_ok, pure_eq_ok, useNonce_eq_ok, requireAdmin_eq_ok,
      -- the checks in the order of the source, then the state that is returned
      ensure_eq_ok, Prod.mk.injEq] at h
    obtain ⟨⟨_, _⟩, ⟨_, ⟨-, rfl⟩, _, -, _, -, _, hsupply, _, -, _, -, _, -, rfl, -⟩, rfl, -⟩ := h
    exact .issue hsupply rfl rfl rfl rfl
  | subscribe investor bondId amount nonce =>
    simp only [exec, subscribe, bind_eq_ok, pure_eq_ok, useNonce_eq_ok, ensure_eq_ok,
      orError_eq_ok, checkedAdd_eq_some, Prod.mk.injEq] at h
    obtain ⟨_, ⟨_, ⟨-, rfl⟩, _, hpos, config, hcfg, state, hst, _, -, _, -, _, ⟨-, rfl⟩, _, hcap,
      -- writing the holder list leaves the ledger alone
      _, ⟨-, rfl⟩, rfl⟩, rfl, -⟩ := h
    exact .subscribe hpos hcfg hst hcap (by simp) (by simp) (by simp) (by simp)
  | transfer sender recipient bondId amount nonce =>
    simp only [exec, transfer, bind_eq_ok, pure_eq_ok, useNonce_eq_ok, ensure_eq_ok,
      orError_eq_ok, checkedAdd_eq_some, checkedSub_eq_some, Prod.mk.injEq] at h
    obtain ⟨_, ⟨_, ⟨-, rfl⟩, _, hne, _, hpos, config, hcfg, state, hst, _, -, _, -, _, hfunds,
      _, ⟨-, rfl⟩, _, ⟨-, rfl⟩, rfl⟩, rfl, -⟩ := h
    refine .transfer hne hpos hfunds (by simp [hst]) (by simp) (by simp) (by simp) ?_
    -- the recipient differs from the sender, so its balance is read off the old table
    rw [appendIfNew_holderBalance, Function.update_of_ne (by simp [hne])]
  | redeem holder bondId amount nonce =>
    simp only [exec, redeem, bind_eq_ok, pure_eq_ok, useNonce_eq_ok, ensure_eq_ok,
      orError_eq_ok, checkedSub_eq_some, Prod.mk.injEq] at h
    obtain ⟨_, ⟨_, ⟨-, rfl⟩, _, hpos, config, hcfg, state, hst, _, -, _, hfunds, _, ⟨-, rfl⟩, _,
      -- a balance and the total go down by the same amount
      ⟨-, rfl⟩, rfl⟩, rfl, -⟩ := h
    exact .redeem hpos hst hfunds rfl rfl rfl rfl
  | matureBond caller bondId nonce =>
    simp only [exec, matureBond, bind_eq_ok, pure_eq_ok, useNonce_eq_ok, requireAdmin_eq_ok,
      ensure_eq_ok, orError_eq_ok, Prod.mk.injEq] at h
    obtain ⟨_, ⟨_, ⟨-, rfl⟩, _, -, config, hcfg, state, hst, _, -, _, -, rfl⟩, rfl, -⟩ := h
    exact .mature hst rfl rfl rfl rfl

/-- A transfer was committed: the bond was active and not yet mature, the sender had the tokens, and
only the two balances and the holder list of the bond changed. This is what a contract that calls
`transfer` may rely on. -/
structure Transferred (now : ℕ) (s s' : State) (sender recipient : Address) (bondId : BondId)
    (amount : ℤ) : Prop where
  distinct : recipient ≠ sender
  transferable : ∃ config state, s.bondConfig bondId = some config ∧
    s.bondState bondId = some state ∧ state.status = .active ∧ now < config.maturityDate
  funds : amount ≤ s.holderBalance (bondId, sender)
  balance : s'.holderBalance = Function.update
    (Function.update s.holderBalance (bondId, sender) (s.holderBalance (bondId, sender) - amount))
    (bondId, recipient) (s.holderBalance (bondId, recipient) + amount)
  configs : s'.bondConfig = s.bondConfig
  states : s'.bondState = s.bondState
  lists : ∀ b, b ≠ bondId → s'.holderList b = s.holderList b ∧ s'.holderCount b = s.holderCount b

theorem transfer_ok {now : ℕ} {s s' : State} {sender recipient : Address} {bondId : BondId}
    {amount : ℤ} {nonce : ℕ} (h : transfer now s sender recipient bondId amount nonce = .ok s') :
    Transferred now s s' sender recipient bondId amount := by
  simp only [transfer, bind_eq_ok, pure_eq_ok, useNonce_eq_ok, ensure_eq_ok, orError_eq_ok,
    checkedAdd_eq_some, checkedSub_eq_some] at h
  obtain ⟨_, ⟨-, rfl⟩, _, hne, _, -, config, hcfg, state, hst, _, hactive, _, hmaturity, _, hfunds,
    _, ⟨-, rfl⟩, _, ⟨-, rfl⟩, rfl⟩ := h
  refine ⟨hne, ⟨config, state, hcfg, hst, hactive, hmaturity⟩, hfunds, ?_, by simp, by simp, ?_⟩
  · -- the recipient differs from the sender, so its balance is read off the old table
    rw [appendIfNew_holderBalance, Function.update_of_ne (by simp [hne])]
  · intro b hb
    -- the list grows when the recipient is new to the bond
    unfold appendIfNew
    split
    · exact ⟨Function.update_of_ne hb .., Function.update_of_ne hb ..⟩
    · exact ⟨rfl, rfl⟩

/-- **Frame.** A call moves no balance of a bond it does not name. -/
theorem LedgerStep.frame {s s' : State} {op : Op} (h : LedgerStep s s' op) {b : BondId}
    (hb : op.bond? ≠ some b) (a : Address) :
    s'.holderBalance (b, a) = s.holderBalance (b, a) := by
  cases h with
  -- issuing and maturing move no balance at all
  | issue _ _ _ _ hbalance => rw [hbalance]
  | mature _ _ _ _ hbalance => rw [hbalance]
  | subscribe _ _ _ _ _ _ _ hbalance =>
    rw [hbalance, Function.update_of_ne]
    -- the balance that moves belongs to the bond that the call names
    rintro ⟨⟩
    exact hb rfl
  | redeem _ _ _ _ _ _ hbalance =>
    rw [hbalance, Function.update_of_ne]
    rintro ⟨⟩
    exact hb rfl
  | transfer _ _ _ _ _ _ _ hbalance =>
    -- both balances that move are balances of that bond
    have hne : ∀ x : Address, (b, a) ≠ (_, x) := fun x hx => hb (congrArg (some ∘ Prod.fst) hx.symm)
    rw [hbalance, Function.update_of_ne (hne _), Function.update_of_ne (hne _)]

/-! ### The invariant -/

/-- The balances of one bond. -/
def balances (s : State) (b : BondId) : Address → ℤ := fun a => s.holderBalance (b, a)

/-- The ledger invariant. The last two fields are what the claim about the ledger says; the others
are what makes them hold after every call. -/
structure LedgerInv (s : State) : Prop where
  /-- Ids above the counter are unused. -/
  fresh : ∀ b, s.bondCount < b → s.bondState b = none
  /-- A bond has a configuration exactly when it has a state. -/
  issued : ∀ b, s.bondConfig b = none ↔ s.bondState b = none
  /-- No balance is negative. -/
  nonneg : ∀ b a, 0 ≤ s.holderBalance (b, a)
  /-- A bond that was never issued has no holders. -/
  unissued : ∀ b, s.bondState b = none → ∀ a, s.holderBalance (b, a) = 0
  /-- Finitely many addresses hold a bond. -/
  finite : ∀ b, (balances s b).support.Finite
  /-- The balances add up to the subscribed total. -/
  total : ∀ b st, s.bondState b = some st → ∑ᶠ a, balances s b a = st.totalSubscribed
  /-- The subscribed total stays within the supply. -/
  supply : ∀ b st config, s.bondState b = some st → s.bondConfig b = some config →
    st.totalSubscribed ≤ config.totalSupply

/-- The subscribed total of an issued bond is a sum of non-negative balances. -/
theorem LedgerInv.total_nonneg {s : State} (hI : LedgerInv s) {b : BondId} {st : BondState}
    (hst : s.bondState b = some st) : 0 ≤ st.totalSubscribed := by
  rw [← hI.total b st hst]
  exact finsum_nonneg fun a => hI.nonneg b a

theorem LedgerInv.initial (admin : Address) : LedgerInv (construct admin) where
  fresh _ _ := rfl
  issued _ := ⟨fun _ => rfl, fun _ => rfl⟩
  nonneg _ _ := le_refl _
  unissued _ _ _ := rfl
  finite b := by
    have h : balances (construct admin) b = 0 := rfl
    -- nobody holds anything
    rw [h, Function.support_zero]
    exact Set.finite_empty
  total _ _ h := by cases h
  supply _ _ _ h := by cases h

/-- The balances of a bond after one balance of it was written. -/
theorem balances_update_self {s s' : State} {b : BondId} {a : Address} {v : ℤ}
    (h : s'.holderBalance = Function.update s.holderBalance (b, a) v) :
    balances s' b = Function.update (balances s b) a v := by
  unfold balances
  rw [h]
  exact FinSum.section_update_self (e := fun y => (b, y)) (Prod.mk_right_injective b) _ a v

/-- The balances of the other bonds after that. -/
theorem balances_update_of_ne {s s' : State} {b b' : BondId} {a : Address} {v : ℤ} (hne : b' ≠ b)
    (h : s'.holderBalance = Function.update s.holderBalance (b, a) v) :
    balances s' b' = balances s b' := by
  unfold balances
  rw [h]
  exact FinSum.section_update_of_ne (e := fun y => (b', y)) _
    (fun y hy => hne (congrArg Prod.fst hy)) v

/-! ### The ledger of one bond -/

/-- The ledger invariant for one bond: its configuration and its state, if it was issued, and its
balances. -/
structure BondLedger (config : Option BondConfig) (state : Option BondState)
    (balance : Address → ℤ) : Prop where
  issued : config = none ↔ state = none
  nonneg : ∀ a, 0 ≤ balance a
  unissued : state = none → ∀ a, balance a = 0
  finite : balance.support.Finite
  total : ∀ st, state = some st → ∑ᶠ a, balance a = st.totalSubscribed
  supply : ∀ st c, state = some st → config = some c → st.totalSubscribed ≤ c.totalSupply

theorem LedgerInv.bond {s : State} (hI : LedgerInv s) (b : BondId) :
    BondLedger (s.bondConfig b) (s.bondState b) (balances s b) :=
  ⟨hI.issued b, hI.nonneg b, hI.unissued b, hI.finite b, hI.total b, hI.supply b⟩

/-- **One bond at a time.** A call that leaves the ledger of the other bonds as it is keeps the
invariant, if it keeps it for the bond it changes. Which bond that is is up to the caller of the
lemma; for a new bond it is the next id. -/
theorem LedgerInv.of_touched {s s' : State} (hI : LedgerInv s) {b : BondId}
    (hfresh : ∀ b', s'.bondCount < b' → b' ≠ b ∧ s.bondCount < b')
    (hother : ∀ b', b' ≠ b → s'.bondConfig b' = s.bondConfig b' ∧
      s'.bondState b' = s.bondState b' ∧ balances s' b' = balances s b')
    (hb : BondLedger (s'.bondConfig b) (s'.bondState b) (balances s' b)) : LedgerInv s' := by
  have hbond : ∀ b', BondLedger (s'.bondConfig b') (s'.bondState b') (balances s' b') := by
    -- each field is the field for one bond, apart from the counter
    intro b'
    by_cases hne : b' = b
    · rw [hne]
      exact hb
    · obtain ⟨hconfig, hstate, hbalance⟩ := hother b' hne
      rw [hconfig, hstate, hbalance]
      exact hI.bond b'
  refine ⟨?_, fun b' => (hbond b').issued, fun b' => (hbond b').nonneg,
    fun b' => (hbond b').unissued, fun b' => (hbond b').finite, fun b' => (hbond b').total,
    fun b' => (hbond b').supply⟩
  intro b' hb'
  obtain ⟨hne, hcount⟩ := hfresh b' hb'
  rw [(hother b' hne).2.1]
  exact hI.fresh b' hcount

/-- An issued bond has an identifier up to the counter. -/
theorem LedgerInv.not_fresh {s : State} (hI : LedgerInv s) {b : BondId}
    (hissued : s.bondState b ≠ none) (b' : BondId) (hb' : s.bondCount < b') :
    b' ≠ b ∧ s.bondCount < b' := by
  refine ⟨?_, hb'⟩
  rintro rfl
  exact hissued (hI.fresh b' hb')

section BondLedger

variable {config : Option BondConfig} {state : Option BondState} {st : BondState}
  {balance : Address → ℤ}

/-- A new bond: nobody has any of it. -/
theorem BondLedger.issue (h : BondLedger config none balance) {c : BondConfig}
    (hsupply : 0 < c.totalSupply) (now : ℕ) :
    BondLedger (some c) (some ⟨0, .active, now⟩) balance where
  issued := by simp
  nonneg := h.nonneg
  unissued hnone := by cases hnone
  finite := h.finite
  total st hst := by
    -- the balances were all zero before the bond was issued
    cases hst
    exact finsum_eq_zero_of_forall_eq_zero (h.unissued rfl)
  supply st c' hst hc := by
    cases hst
    cases hc
    exact hsupply.le

/-- Another status, with the same total. Maturing a bond is the only use of this. -/
theorem BondLedger.restate (h : BondLedger config (some st) balance) (status : BondStatus) :
    BondLedger config (some { st with status := status }) balance where
  issued := by
    rw [h.issued]
    simp
  nonneg := h.nonneg
  unissued hnone := by cases hnone
  finite := h.finite
  total st' hst := by
    cases hst
    exact h.total st rfl
  supply st' c hst hc := by
    cases hst
    exact h.supply st c rfl hc

/-- One balance moves with the total. The amount may be negative, so that this is both a
subscription and a redemption. -/
theorem BondLedger.move (h : BondLedger config (some st) balance) {a : Address} {d : ℤ}
    (hnonneg : 0 ≤ balance a + d)
    (hcap : ∀ c, config = some c → st.totalSubscribed + d ≤ c.totalSupply) :
    BondLedger config (some { st with totalSubscribed := st.totalSubscribed + d })
      (Function.update balance a (balance a + d)) where
  issued := by
    rw [h.issued]
    simp
  nonneg a' := by
    -- the holder's balance by assumption, all others as before
    rw [Function.update_apply]
    split
    · exact hnonneg
    · exact h.nonneg a'
  unissued hnone := by cases hnone
  finite := FinSum.support_update h.finite a _
  total st' hst := by
    cases hst
    -- the sum moves by what the balance moves by
    rw [FinSum.finsum_update h.finite, h.total st rfl]
    ring
  supply st' c hst hc := by
    cases hst
    exact hcap c hc

/-- Two balances move and the total stays: the total goes down and up again. -/
theorem BondLedger.transfer (h : BondLedger config (some st) balance) {a a' : Address} {d : ℤ}
    (hne : a' ≠ a) (hd : 0 ≤ d) (hfunds : d ≤ balance a) :
    BondLedger config (some st)
      (Function.update (Function.update balance a (balance a - d)) a' (balance a' + d)) := by
  -- the sender's part, below the supply since the total goes down
  have hdown := h.move (a := a) (d := -d) (by omega) fun c hc => by
    have hsupply := h.supply st c rfl hc
    omega
  have hsame : Function.update balance a (balance a + -d) a' = balance a' :=
    Function.update_of_ne hne _ _
  -- and the recipient's, which brings the total back
  have hup := hdown.move (a := a') (d := d)
    (by rw [hsame]; exact add_nonneg (h.nonneg a') hd) fun c hc => by
      have hsupply := h.supply st c rfl hc
      dsimp only
      omega
  rw [hsame] at hup
  dsimp only at hup
  rw [neg_add_cancel_right] at hup
  exact hup

end BondLedger

/-- **Invariant preservation.** By the shapes of `LedgerStep`; each touches one bond. -/
theorem LedgerInv.step {s s' : State} {op : Op} (hI : LedgerInv s) (h : LedgerStep s s' op) :
    LedgerInv s' := by
  cases h with
  | @issue caller config nonce now hsupply hcount hconfig hstate hbalance =>
    have hbalances : ∀ b, balances s' b = balances s b := fun b => by unfold balances; rw [hbalance]
    -- the new id was unused, so its ledger is the empty one
    have hbond := hI.bond (s.bondCount + 1)
    rw [hI.fresh (s.bondCount + 1) (Nat.lt_succ_self _)] at hbond
    refine hI.of_touched (b := s.bondCount + 1) ?_ ?_ ?_
    · intro b hb
      omega
    · intro b hne
      rw [hconfig, hstate, Function.update_of_ne hne, Function.update_of_ne hne]
      exact ⟨rfl, rfl, hbalances b⟩
    · rw [hconfig, hstate, Function.update_self, Function.update_self, hbalances]
      exact hbond.issue hsupply now
  | @subscribe investor b amount nonce config st hpos hcfg hst hcap hcount hconfig hstate
      hbalance =>
    have hbond := hI.bond b
    have hbal := hI.nonneg b investor
    -- the cap is checked against the configuration of the bond
    rw [hst] at hbond
    refine hI.of_touched (b := b) ?_ ?_ ?_
    · rw [hcount]
      exact hI.not_fresh (by simp [hst])
    · intro b' hne
      rw [hconfig, hstate, Function.update_of_ne hne]
      exact ⟨rfl, rfl, balances_update_of_ne hne hbalance⟩
    · rw [hconfig, hstate, Function.update_self, balances_update_self hbalance]
      refine hbond.move (add_nonneg hbal hpos.le) ?_
      intro config' hcfg'
      rw [hcfg] at hcfg'
      cases hcfg'
      exact hcap
  | @redeem holder b amount nonce st hpos hst hfunds hcount hconfig hstate hbalance =>
    have hbond := hI.bond b
    rw [hst] at hbond
    refine hI.of_touched (b := b) ?_ ?_ ?_
    · rw [hcount]
      exact hI.not_fresh (by simp [hst])
    · intro b' hne
      rw [hconfig, hstate, Function.update_of_ne hne]
      exact ⟨rfl, rfl, balances_update_of_ne hne hbalance⟩
    · rw [hconfig, hstate, Function.update_self, balances_update_self hbalance]
      refine hbond.move (d := -amount) (sub_nonneg.mpr hfunds) ?_
      -- the total goes down, so it stays within the supply
      intro config hcfg
      have hsupply := hI.supply b st config hst hcfg
      omega
  | @mature caller b nonce st hst hcount hconfig hstate hbalance =>
    have hbalances : ∀ b, balances s' b = balances s b := fun b => by unfold balances; rw [hbalance]
    have hbond := hI.bond b
    rw [hst] at hbond
    refine hI.of_touched (b := b) ?_ ?_ ?_
    · rw [hcount]
      exact hI.not_fresh (by simp [hst])
    · intro b' hne
      rw [hconfig, hstate, Function.update_of_ne hne]
      exact ⟨rfl, rfl, hbalances b'⟩
    · rw [hconfig, hstate, Function.update_self, hbalances]
      exact hbond.restate _
  | @transfer sender recipient b amount nonce hne hpos hfunds hissued hcount hconfig hstate
      hbalance =>
    -- the bond was issued, as the sender has tokens of it
    obtain ⟨st, hst⟩ := Option.ne_none_iff_exists'.mp hissued
    have hbond := hI.bond b
    rw [hst] at hbond
    -- the two writes, one after the other
    let s₁ : State :=
      { s with
        holderBalance :=
          Function.update s.holderBalance (b, sender) (s.holderBalance (b, sender) - amount) }
    refine hI.of_touched (b := b) ?_ ?_ ?_
    · rw [hcount]
      exact hI.not_fresh hissued
    · intro b' hne
      rw [hconfig, hstate, balances_update_of_ne (s := s₁) hne hbalance]
      exact ⟨rfl, rfl, balances_update_of_ne hne rfl⟩
    · have hsender : balances s₁ b =
          Function.update (balances s b) sender (s.holderBalance (b, sender) - amount) :=
        balances_update_self rfl
      rw [hconfig, hstate, hst, balances_update_self (s := s₁) hbalance, hsender]
      exact hbond.transfer hne hpos.le hfunds

/-- Configurations are never rewritten: the id of a new bond is above all ids in use. So what an
investor subscribed to is what the bond still says. -/
theorem LedgerStep.keeps_config {s s' : State} {op : Op} (hI : LedgerInv s)
    (h : LedgerStep s s' op) {b : BondId} {config : BondConfig}
    (hconfig : s.bondConfig b = some config) : s'.bondConfig b = some config := by
  cases h with
  -- only a new bond writes a configuration
  | issue _ _ hnew _ _ =>
    have hne : b ≠ s.bondCount + 1 := by
      rintro rfl
      have hfresh := hI.fresh _ (Nat.lt_succ_self s.bondCount)
      rw [(hI.issued _).mpr hfresh] at hconfig
      cases hconfig
    rw [hnew, Function.update_of_ne hne]
    exact hconfig
  | subscribe _ _ _ _ _ hsame => rw [hsame]; exact hconfig
  | transfer _ _ _ _ _ hsame => rw [hsame]; exact hconfig
  | redeem _ _ _ _ hsame => rw [hsame]; exact hconfig
  | mature _ _ hsame => rw [hsame]; exact hconfig

theorem LedgerInv.of_run {h : List (Call State Op (Option BondId))} {s : State}
    (hrun : Run machine Init h s) : LedgerInv s := by
  refine hrun.invariant ?_ ?_
  · rintro s ⟨admin, rfl⟩
    exact LedgerInv.initial admin
  · intro t s op r s' hI hexec
    exact hI.step (exec_ledger hexec)

/-! ### Subscribed totals fit an `i128` -/

/-- No subscribed total exceeds the range of an `i128`. `LedgerInv` compares a total with the supply
of its bond; this is about the number type. -/
def Capped (s : State) : Prop :=
  ∀ b st, s.bondState b = some st → st.totalSubscribed ≤ maxValue

theorem Capped.initial (admin : Address) : Capped (construct admin) := by
  intro b st hst
  cases hst

/-- Writing one total that fits. -/
theorem Capped.write {s s' : State} (hC : Capped s) {b : BondId} {st : BondState}
    (hle : st.totalSubscribed ≤ maxValue)
    (hstate : s'.bondState = Function.update s.bondState b (some st)) : Capped s' := by
  intro b' st' hst'
  rw [hstate] at hst'
  by_cases hb : b' = b
  · rw [hb, Function.update_self] at hst'
    cases hst'
    exact hle
  · rw [Function.update_of_ne hb] at hst'
    exact hC b' st' hst'

/-- **One call** keeps it so: a subscription is the only call that raises a total, and it checks
the sum. -/
theorem Capped.step {now : ℕ} {s s' : State} {op : Op} {r : Option BondId} (hC : Capped s)
    (h : exec now s op = .ok (s', r)) : Capped s' := by
  cases exec_ledger h with
  | issue _ _ _ hstate _ => exact hC.write (show (0 : ℤ) ≤ maxValue by decide) hstate
  -- the sum of the total and the amount went through `checked_add`
  | @subscribe investor b amount nonce _ _ =>
    simp only [exec, subscribe, bind_eq_ok, pure_eq_ok, ensure_eq_ok, orError_eq_ok,
      checkedAdd_eq_some, Prod.mk.injEq] at h
    obtain ⟨_, ⟨_, -, _, -, _, -, state, -, _, -, _, -, _, ⟨hrange, rfl⟩, _, -, _, -, rfl⟩, rfl,
      -⟩ := h
    have hle : ({ state with
        totalSubscribed := state.totalSubscribed + amount } : BondState).totalSubscribed ≤
          maxValue := hrange.2
    refine hC.write (b := b) hle ?_
    dsimp only
    rw [appendIfNew_bondState]
  | transfer _ _ _ _ _ _ hstate _ => exact fun b st hst => hC b st (hstate ▸ hst)
  | redeem hpos hst _ _ _ hstate _ =>
    -- less than before
    have hle := hC _ _ hst
    refine hC.write ?_ hstate
    dsimp only
    omega
  | mature hst _ _ hstate _ =>
    have hle := hC _ _ hst
    refine hC.write ?_ hstate
    exact hle

theorem Capped.of_run {h : List (Call State Op (Option BondId))} {s : State}
    (hrun : Run machine Init h s) : Capped s := by
  refine hrun.invariant ?_ ?_
  · rintro s ⟨admin, rfl⟩
    exact Capped.initial admin
  · intro t s op r s' hC hexec
    exact hC.step hexec

/-- **Bond token ledger.** In every state a run of the contract reaches, the balances of each issued
bond are non-negative, have finite support and add up to `total_subscribed`, which lies between zero
and the bond's supply; and no call of the run moved a balance of a bond it does not name. Finite
support is what gives the sum a meaning; the contract never computes it. -/
theorem ledger_balanced {h : List (Call State Op (Option BondId))} {s : State}
    (hrun : Run machine Init h s) :
    (∀ b config, s.bondConfig b = some config →
      ∃ st, s.bondState b = some st ∧
        (Function.support fun a => s.holderBalance (b, a)).Finite ∧
        ∑ᶠ a, s.holderBalance (b, a) = st.totalSubscribed ∧
        (∀ a, 0 ≤ s.holderBalance (b, a)) ∧
        0 ≤ st.totalSubscribed ∧ st.totalSubscribed ≤ config.totalSupply) ∧
    ∀ c ∈ h, ∀ b a, c.op.bond? ≠ some b →
      c.post.holderBalance (b, a) = c.pre.holderBalance (b, a) := by
  have hI := LedgerInv.of_run hrun
  constructor
  · intro b config hcfg
    -- what has a configuration was issued
    obtain ⟨st, hst⟩ : ∃ st, s.bondState b = some st := by
      rw [← Option.ne_none_iff_exists']
      intro hnone
      rw [(hI.issued b).mpr hnone] at hcfg
      cases hcfg
    exact ⟨st, hst, hI.finite b, hI.total b st hst, hI.nonneg b, hI.total_nonneg hst,
      hI.supply b st config hst hcfg⟩
  · intro c hc b a hb
    obtain ⟨_, -, hexec⟩ := hrun.of_mem hc
    exact (exec_ledger hexec).frame hb a

/-- Issue, subscribe 60, transfer 25, mature, redeem 10: the two balances left add up to 50. -/
theorem ledger_balanced_lifecycle :
    ∃ h s, Run machine Init h s ∧ s.holderBalance (1, ⟨1⟩) = 35 ∧
      ∑ᶠ a, s.holderBalance (1, a) = 50 := by
  let config : BondConfig := ⟨7, 1000, [50], .carbon, 100, 1000⟩
  let ops : List (ℕ × Op) :=
    [(0, .issueBond ⟨0⟩ config 0), (1, .subscribe ⟨1⟩ 1 60 0), (2, .transfer ⟨1⟩ ⟨2⟩ 1 25 1),
      (100, .matureBond ⟨0⟩ 1 1), (101, .redeem ⟨2⟩ 1 10 0)]
  have hplay : (machine.play [] (construct ⟨0⟩) ops).map
      (fun p => (p.2.bondConfig 1, p.2.bondState 1, p.2.holderBalance (1, ⟨1⟩))) =
      some (some config, some ⟨50, .matured, 0⟩, 35) := by decide
  have hinit : Init (construct ⟨0⟩) := ⟨⟨0⟩, rfl⟩
  obtain ⟨h, s, hrun, hview⟩ := Run.of_play hinit hplay
  simp only [Prod.mk.injEq] at hview
  obtain ⟨hcfg, hst, hbal⟩ := hview
  obtain ⟨st, hst', -, hsum, -⟩ := (ledger_balanced hrun).1 1 config hcfg
  rw [hst] at hst'
  cases hst'
  exact ⟨h, s, hrun, hbal, hsum⟩

end BondIssuer
end NbsBond
