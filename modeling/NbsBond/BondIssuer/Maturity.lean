import NbsBond.BondIssuer.Ledger

/-!
# Maturity freezes the supply

A bond trades while it is active and its maturity date lies ahead, and is redeemed once the admin
has matured it. The two guards switch at different moments: between the maturity date and
`mature_bond` the bond neither trades nor is redeemed. `BondStep` says what a call can do to one
bond, with the guard under which it does it; the freeze (`SupplyFreeze`) is read off it.
-/

namespace NbsBond
namespace BondIssuer

open Soroban Int128

variable {h : List (Call State Op (Option BondId))} {s s' : State} {b : BondId} {m now : ℕ}

/-- The status of an issued bond. -/
def status (s : State) (b : BondId) : Option BondStatus := (s.bondState b).map BondState.status

/-- `total_subscribed` of a bond, nothing before it is issued. -/
def subscribed (s : State) (b : BondId) : ℤ :=
  ((s.bondState b).map BondState.totalSubscribed).getD 0

theorem status_eq_some {x : BondStatus} :
    status s b = some x ↔ ∃ st, s.bondState b = some st ∧ st.status = x := by
  simp [status]

/-! ### The guards -/

/-- The moment and the status at which the contract accepts an operation. -/
def Op.Open (now : ℕ) (s : State) : Op → Prop
  | .issueBond _ _ _ => True
  | .subscribe _ bondId _ _ | .transfer _ _ bondId _ _ =>
    status s bondId = some .active ∧
      ∃ config, s.bondConfig bondId = some config ∧ now < config.maturityDate
  | .redeem _ bondId _ _ => status s bondId = some .matured
  | .matureBond _ bondId _ =>
    status s bondId = some .active ∧
      ∃ config, s.bondConfig bondId = some config ∧ config.maturityDate ≤ now

theorem exec_open {op : Op} {r : Option BondId} (hexec : exec now s op = .ok (s', r)) :
    op.Open now s := by
  cases op with
  | issueBond caller config nonce => trivial
  | subscribe investor b amount nonce =>
    simp only [exec, subscribe, bind_eq_ok, ensure_eq_ok, orError_eq_ok] at hexec
    obtain ⟨_, ⟨_, -, _, -, config, hconfig, state, hst, _, hactive, _, hearly, -⟩, -⟩ := hexec
    exact ⟨status_eq_some.mpr ⟨state, hst, hactive⟩, config, hconfig, hearly⟩
  | transfer sender recipient b amount nonce =>
    simp only [exec, transfer, bind_eq_ok, ensure_eq_ok, orError_eq_ok] at hexec
    obtain ⟨_, ⟨_, -, _, -, _, -, config, hconfig, state, hst, _, hactive, _, hearly, -⟩,
      -⟩ := hexec
    exact ⟨status_eq_some.mpr ⟨state, hst, hactive⟩, config, hconfig, hearly⟩
  | redeem holder b amount nonce =>
    simp only [exec, redeem, bind_eq_ok, ensure_eq_ok, orError_eq_ok] at hexec
    obtain ⟨_, ⟨_, -, _, -, _, -, state, hst, _, hmatured, -⟩, -⟩ := hexec
    exact status_eq_some.mpr ⟨state, hst, hmatured⟩
  | matureBond caller b nonce =>
    simp only [exec, matureBond, bind_eq_ok, ensure_eq_ok, orError_eq_ok] at hexec
    obtain ⟨_, ⟨_, -, _, -, config, hconfig, state, hst, _, hactive, _, hlate, -⟩, -⟩ := hexec
    exact ⟨status_eq_some.mpr ⟨state, hst, hactive⟩, config, hconfig, hlate⟩

/-! ### What a call does to one bond -/

/-- The effect of a committed call at time `now` on a bond that matures at `m`. Of the other bonds
nothing is said: each has its own date. -/
inductive BondStep (m now : ℕ) (b : BondId) (s s' : State) (op : Op) : Prop
  /-- Nothing, or the bond is issued. -/
  | keep (hstatus : status s' b = status s b ∨ status s b = none)
      (hbalance : ∀ a, s'.holderBalance (b, a) = s.holderBalance (b, a))
      (htotal : subscribed s' b = subscribed s b)
  /-- A subscription or a transfer, before the maturity date. -/
  | trade (hearly : now < m) (hactive : status s b = some .active)
      (hstatus : status s' b = status s b)
  /-- A redemption takes tokens from the holder who calls. -/
  | redeem {holder : Address} {amount : ℤ} {nonce : ℕ} (hop : op = .redeem holder b amount nonce)
      (hmatured : status s b = some .matured) (hstatus : status s' b = status s b)
      (hpos : 0 < amount)
      (hbalance : ∀ a, s'.holderBalance (b, a) =
        s.holderBalance (b, a) - if a = holder then amount else 0)
      (htotal : subscribed s' b = subscribed s b - amount)
  /-- The admin matures the bond. -/
  | mature (hlate : m ≤ now) (hactive : status s b = some .active)
      (hstatus : status s' b = some .matured)
      (hbalance : ∀ a, s'.holderBalance (b, a) = s.holderBalance (b, a))
      (htotal : subscribed s' b = subscribed s b)

/-- A call that leaves the state of the bond alone. -/
theorem BondStep.of_same {op : Op} (hstate : s'.bondState b = s.bondState b)
    (hbalance : ∀ a, s'.holderBalance (b, a) = s.holderBalance (b, a)) :
    BondStep m now b s s' op := by
  refine .keep (.inl ?_) hbalance ?_
  · rw [status, hstate, status]
  · rw [subscribed, hstate, subscribed]

/-- **One call.** The date is that of the configuration, which is written once, so it can be fixed
for the whole run. -/
theorem LedgerInv.bondStep {op : Op} {r : Option BondId} (hI : LedgerInv s)
    (hm : ∀ config, s.bondConfig b = some config → config.maturityDate = m)
    (hexec : exec now s op = .ok (s', r)) : BondStep m now b s s' op := by
  have hopen := exec_open hexec
  have hstep := exec_ledger hexec
  by_cases hb : op.bond? = some b
  swap
  · -- the state of a bond the call does not name changes only when the bond is issued
    have hframe := hstep.frame hb
    cases hstep with
    | @issue _ _ _ created _ _ _ hstate _ =>
      by_cases hnew : b = s.bondCount + 1
      · have hnone : s.bondState b = none := hI.fresh b (hnew ▸ Nat.lt_succ_self _)
        have hstarted : s'.bondState b = some ⟨0, .active, created⟩ := by
          rw [hstate, hnew, Function.update_self]
        refine .keep (.inr (by simp [status, hnone])) hframe ?_
        rw [subscribed, subscribed, hnone, hstarted]
        rfl
      · exact .of_same (by rw [hstate, Function.update_of_ne hnew]) hframe
    | subscribe _ _ _ _ _ _ hstate _ =>
      have hne : b ≠ _ := fun heq => hb (congrArg some heq.symm)
      exact .of_same (by rw [hstate, Function.update_of_ne hne]) hframe
    | transfer _ _ _ _ _ _ hstate _ => exact .of_same (by rw [hstate]) hframe
    | redeem _ _ _ _ _ hstate _ =>
      have hne : b ≠ _ := fun heq => hb (congrArg some heq.symm)
      exact .of_same (by rw [hstate, Function.update_of_ne hne]) hframe
    | mature _ _ _ hstate _ =>
      have hne : b ≠ _ := fun heq => hb (congrArg some heq.symm)
      exact .of_same (by rw [hstate, Function.update_of_ne hne]) hframe
  cases hstep with
  | issue => cases hb
  | subscribe _ _ hst _ _ _ hstate _ =>
    cases hb
    obtain ⟨hactive, config, hconfig, hearly⟩ := hopen
    refine .trade (hm config hconfig ▸ hearly) hactive ?_
    rw [status, status, hstate, hst, Function.update_self]
    rfl
  | transfer _ _ _ _ _ _ hstate _ =>
    cases hb
    obtain ⟨hactive, config, hconfig, hearly⟩ := hopen
    exact .trade (hm config hconfig ▸ hearly) hactive (by rw [status, status, hstate])
  | @redeem holder bondId amount nonce state hpos hst hfunds _ _ hstate hbalance =>
    cases hb
    refine .redeem rfl hopen ?_ hpos ?_ ?_
    · rw [status, status, hstate, hst, Function.update_self]
      rfl
    · intro a
      rw [hbalance]
      by_cases ha : a = holder
      · rw [if_pos ha, ha, Function.update_self]
      · rw [if_neg ha, Function.update_of_ne (by simp [ha]), sub_zero]
    · rw [subscribed, subscribed, hstate, hst, Function.update_self]
      rfl
  | mature hst _ _ hstate hbalance =>
    cases hb
    obtain ⟨hactive, config, hconfig, hlate⟩ := hopen
    refine .mature (hm config hconfig ▸ hlate) hactive ?_ ?_ ?_
    · rw [status, hstate, Function.update_self]
      rfl
    · intro a
      rw [hbalance]
    · rw [subscribed, subscribed, hstate, hst, Function.update_self]
      rfl

/-! ### Redeeming -/

/-- No balance exceeds the range of an `i128`. -/
theorem LedgerInv.balance_inRange (hI : LedgerInv s) (hC : Capped s) {st : BondState}
    (hst : s.bondState b = some st) (a : Address) : s.holderBalance (b, a) ≤ st.totalSubscribed ∧
      InRange st.totalSubscribed := by
  have hle : balances s b a ≤ ∑ᶠ a, balances s b a :=
    single_le_finsum a (hI.finite b) (hI.nonneg b)
  rw [hI.total b st hst] at hle
  exact ⟨hle, InRange.of_nonneg (hI.total_nonneg hst) (hC b st hst)⟩

/-- A holder of a matured bond can redeem any part of its balance. -/
theorem exec_redeem (now : ℕ) (hI : LedgerInv s) (hC : Capped s) {holder : Address} {amount : ℤ}
    (hmatured : status s b = some .matured) (hpos : 0 < amount)
    (hfunds : amount ≤ s.holderBalance (b, holder)) :
    ∃ s', exec now s (.redeem holder b amount (s.nonce holder)) = .ok (s', none) ∧
      status s' b = some .matured ∧
      s'.holderBalance (b, holder) = s.holderBalance (b, holder) - amount ∧
      s'.nonce holder = s.nonce holder + 1 := by
  obtain ⟨st, hst, hstatus⟩ := status_eq_some.mp hmatured
  -- the contract reads the configuration as well, which every issued bond has
  obtain ⟨config, hconfig⟩ : ∃ config, s.bondConfig b = some config := by
    rw [← Option.ne_none_iff_exists']
    intro hnone
    rw [(hI.issued b).mp hnone] at hst
    cases hst
  obtain ⟨hle, hrange⟩ := hI.balance_inRange hC hst holder
  have hnonneg := hI.nonneg b holder
  -- both differences are between zero and a number that fits
  have hbalance : InRange (s.holderBalance (b, holder) - amount) :=
    InRange.of_nonneg (by omega) (by have := hrange.2; omega)
  have htotal : InRange (st.totalSubscribed - amount) :=
    InRange.of_nonneg (by omega) (by have := hrange.2; omega)
  let s' : State := { s with
    nonce := Function.update s.nonce holder (s.nonce holder + 1)
    holderBalance := Function.update s.holderBalance (b, holder)
      (s.holderBalance (b, holder) - amount)
    bondState := Function.update s.bondState b
      (some { st with totalSubscribed := st.totalSubscribed - amount }) }
  refine ⟨s', ?_, ?_, Function.update_self .., Function.update_self ..⟩
  · simp only [exec, redeem, bind_eq_ok, pure_eq_ok, useNonce_eq_ok, ensure_eq_ok, orError_eq_ok,
      checkedSub_eq_some]
    refine ⟨s', ⟨_, ⟨trivial, rfl⟩, (), hpos, config, hconfig, st, hst, (), hstatus, (), hfunds,
      ?_⟩, rfl⟩
    exact ⟨_, ⟨hbalance, rfl⟩, _, ⟨htotal, rfl⟩, rfl⟩
  · exact status_eq_some.mpr ⟨_, Function.update_self .., hstatus⟩

/-- The calls that redeem a holder's tokens in the given parts, at the given times. -/
def redemptions (holder : Address) (b : BondId) : ℕ → List (ℕ × ℤ) → List (ℕ × Op)
  | _, [] => []
  | nonce, (time, amount) :: parts =>
    (time, .redeem holder b amount nonce) :: redemptions holder b (nonce + 1) parts

/-- **Redeeming in parts.** Whatever parts a holder splits its tokens into, each can be redeemed.
The induction is on the parts: after each redemption the rest is still covered. -/
theorem play_redemptions {holder : Address} {parts : List (ℕ × ℤ)} (hrun : Run machine Init h s)
    (hmatured : status s b = some .matured)
    (htimes : (lastTime h :: parts.map Prod.fst).Pairwise (· ≤ ·))
    (hpos : ∀ p ∈ parts, 0 < p.2)
    (hfunds : (parts.map Prod.snd).sum ≤ s.holderBalance (b, holder)) :
    ∃ h' s', machine.play h s (redemptions holder b (s.nonce holder) parts) = some (h', s') ∧
      s'.holderBalance (b, holder) =
        s.holderBalance (b, holder) - (parts.map Prod.snd).sum := by
  induction parts generalizing h s with
  | nil => exact ⟨h, s, rfl, by simp⟩
  | cons p parts ih =>
    obtain ⟨time, amount⟩ := p
    rw [List.forall_mem_cons] at hpos
    simp only [List.map_cons, List.sum_cons, List.pairwise_cons, List.forall_mem_cons]
      at htimes hfunds
    obtain ⟨⟨htime, -⟩, htimes⟩ := htimes
    -- what is left after the first part covers the others
    have hrest : 0 ≤ (parts.map Prod.snd).sum := by
      apply List.sum_nonneg
      intro x hx
      obtain ⟨p, hp, rfl⟩ := List.mem_map.mp hx
      exact (hpos.2 p hp).le
    have hamount : amount ≤ s.holderBalance (b, holder) := by omega
    obtain ⟨s₁, hexec, hmatured₁, hbalance₁, hnonce₁⟩ :=
      exec_redeem time (.of_run hrun) (.of_run hrun) hmatured hpos.1 hamount
    have hrun₁ : Run machine Init
        (⟨time, s, .redeem holder b amount (s.nonce holder), none, s₁⟩ :: h) s₁ :=
      .call hrun htime hexec
    obtain ⟨h', s', hplay, hbalance⟩ :=
      ih hrun₁ hmatured₁ (List.pairwise_cons.mpr htimes) hpos.2 (by omega)
    rw [hnonce₁] at hplay
    refine ⟨h', s', Machine.play_call hexec htime hplay, ?_⟩
    rw [hbalance, hbalance₁, List.map_cons, List.sum_cons]
    ring

/-! ### The freeze -/

/-- A call that changes the status of a bond issued before it. -/
abbrev ChangesStatus (b : BondId) (c : Call State Op (Option BondId)) : Prop :=
  status c.pre b ≠ none ∧ status c.post b ≠ status c.pre b

/-- No balance of `b` moved, nor its total. -/
def Unmoved (b : BondId) (s s' : State) : Prop :=
  (∀ a, s'.holderBalance (b, a) = s.holderBalance (b, a)) ∧ subscribed s' b = subscribed s b

/-- No balance of `b` rose, nor its total. -/
def Unraised (b : BondId) (s s' : State) : Prop :=
  (∀ a, s'.holderBalance (b, a) ≤ s.holderBalance (b, a)) ∧ subscribed s' b ≤ subscribed s b

theorem Unmoved.unraised (hsame : Unmoved b s s') : Unraised b s s' :=
  ⟨fun a => (hsame.1 a).le, hsame.2.le⟩

/-- What the maturity date `m` of `b` means for a run that has reached `s`. The last parts are about
single calls, so that they can be read off along the run. -/
structure SupplyFreeze (h : List (Call State Op (Option BondId))) (s : State) (b : BondId)
    (m : ℕ) : Prop where
  /-- The status changes once at most. -/
  once : h.countP (ChangesStatus b ·) ≤ 1
  /-- It changes from `Active` to `Matured`, at `m` or later. -/
  change : ∀ c ∈ h, ChangesStatus b c →
    status c.pre b = some .active ∧ status c.post b = some .matured ∧ m ≤ c.time
  /-- From `m` on nothing is added. -/
  capped : ∀ c ∈ h, m ≤ c.time → Unraised b c.pre c.post
  /-- Until the bond is matured nothing moves at all. -/
  frozen : ∀ c ∈ h, m ≤ c.time → status c.pre b ≠ some .matured → Unmoved b c.pre c.post
  /-- A bond that is not matured is not redeemed. -/
  unredeemable : status s b ≠ some .matured → ∀ now holder amount nonce s' r,
    exec now s (.redeem holder b amount nonce) ≠ .ok (s', r)
  /-- Once it is matured balances and total only fall. -/
  falling : ∀ c ∈ h, status c.pre b = some .matured → Unraised b c.pre c.post
  /-- A balance falls by a redemption of its holder. -/
  holders : ∀ c ∈ h, status c.pre b = some .matured →
    ∀ a, c.post.holderBalance (b, a) ≠ c.pre.holderBalance (b, a) →
      ∃ amount nonce, c.op = .redeem a b amount nonce
  /-- The total falls by a redemption. -/
  total : ∀ c ∈ h, status c.pre b = some .matured → subscribed c.post b ≠ subscribed c.pre b →
    ∃ a amount nonce, c.op = .redeem a b amount nonce
  /-- A holder can redeem its balance in any parts, at any later times. -/
  redeemable : status s b = some .matured → ∀ holder (parts : List (ℕ × ℤ)),
    (lastTime h :: parts.map Prod.fst).Pairwise (· ≤ ·) → (∀ p ∈ parts, 0 < p.2) →
    (parts.map Prod.snd).sum = s.holderBalance (b, holder) →
      ∃ h' s', machine.play h s (redemptions holder b (s.nonce holder) parts) = some (h', s') ∧
        s'.holderBalance (b, holder) = 0

/-- The step a call of the run was for a bond that matures at `m`. -/
theorem bondStep_of_mem (hrun : Run machine Init h s) {config : BondConfig}
    (hconfig : s.bondConfig b = some config) {c : Call State Op (Option BondId)} (hc : c ∈ h) :
    BondStep config.maturityDate c.time b c.pre c.post c.op := by
  obtain ⟨h', hpre, hexec⟩ := hrun.of_mem hc
  have hI := LedgerInv.of_run hpre
  refine hI.bondStep ?_ hexec
  intro config' hconfig'
  -- configurations are final, so this is the one the run ends with
  have hkept : s.bondConfig b = some config' := by
    refine hrun.stable (P := fun s => s.bondConfig b = some config') ?_ hc
      ((exec_ledger hexec).keeps_config hI hconfig')
    intro h t s op r s' hrun hconfig hexec
    exact (exec_ledger hexec).keeps_config (.of_run hrun) hconfig
  rw [hconfig] at hkept
  cases hkept
  rfl

theorem BondStep.change {op : Op} (hstep : BondStep m now b s s' op) (hissued : status s b ≠ none)
    (hne : status s' b ≠ status s b) :
    status s b = some .active ∧ status s' b = some .matured ∧ m ≤ now := by
  cases hstep with
  | keep hstatus _ _ => exact absurd (hstatus.resolve_right hissued) hne
  | trade _ _ hstatus => exact absurd hstatus hne
  | redeem _ _ hstatus => exact absurd hstatus hne
  | mature hlate hactive hstatus => exact ⟨hactive, hstatus, hlate⟩

/-- Past the maturity date, only a redemption of a matured bond moves anything. -/
theorem BondStep.late {op : Op} (hstep : BondStep m now b s s' op)
    (hlate : m ≤ now ∨ status s b = some .matured) :
    Unmoved b s s' ∨ status s b = some .matured ∧ ∃ holder amount nonce,
      op = .redeem holder b amount nonce ∧ 0 < amount ∧
      (∀ a, s'.holderBalance (b, a) = s.holderBalance (b, a) - if a = holder then amount else 0) ∧
      subscribed s' b = subscribed s b - amount := by
  cases hstep with
  | keep _ hbalance htotal => exact .inl ⟨hbalance, htotal⟩
  | mature _ _ _ hbalance htotal => exact .inl ⟨hbalance, htotal⟩
  | redeem hop hmatured _ hpos hbalance htotal =>
    exact .inr ⟨hmatured, _, _, _, hop, hpos, hbalance, htotal⟩
  | trade hearly hactive _ =>
    -- trading needs an active bond before its maturity date
    rcases hlate with hlate | hmatured
    · omega
    · rw [hactive] at hmatured
      cases hmatured

theorem BondStep.unraised {op : Op} (hstep : BondStep m now b s s' op)
    (hlate : m ≤ now ∨ status s b = some .matured) : Unraised b s s' := by
  rcases hstep.late hlate with hsame | ⟨-, holder, amount, -, -, hpos, hbalance, htotal⟩
  · exact hsame.unraised
  · refine ⟨fun a => ?_, by omega⟩
    rw [hbalance]
    split <;> omega

/-- The status changes once at most if every change is from `Active` to `Matured`. -/
theorem countP_changesStatus (hrun : Run machine Init h s)
    (hchange : ∀ c ∈ h, ChangesStatus b c →
      status c.pre b = some .active ∧ status c.post b = some .matured) :
    h.countP (ChangesStatus b ·) ≤ if status s b = some .matured then 1 else 0 := by
  induction hrun with
  | start hs => simp
  | @call h s time op r s' hrun ht hexec ih =>
    rw [List.forall_mem_cons] at hchange
    have hcount := ih hchange.2
    rw [List.countP_cons]
    by_cases hnow : ChangesStatus b ⟨time, s, op, r, s'⟩
    · -- the bond was active until this call, so no earlier call matured it
      obtain ⟨hbefore, hafter⟩ := hchange.1 hnow
      dsimp only at hbefore hafter
      rw [hbefore] at hcount
      rw [if_pos (decide_eq_true hnow), if_pos hafter]
      simpa using hcount
    · rw [if_neg (by simpa using hnow)]
      by_cases hissued : status s b = none
      · rw [hissued] at hcount
        exact hcount.trans (Nat.zero_le _)
      · have hsame : status s' b = status s b := by
          by_contra hne
          exact hnow ⟨hissued, hne⟩
        rw [hsame]
        exact hcount

/-- **Supply freeze at maturity.** In every run, and for every bond with maturity date `m`: the
status changes once at most, from `Active` to `Matured` at `m` or later; from `m` on no balance and
no total grows, and nothing moves at all before the bond is matured; only a matured bond is
redeemed, only by its holders, and each of them can redeem its whole balance in any parts. -/
theorem supply_freeze (hrun : Run machine Init h s) {config : BondConfig}
    (hconfig : s.bondConfig b = some config) : SupplyFreeze h s b config.maturityDate := by
  have hstep : ∀ c ∈ h, BondStep config.maturityDate c.time b c.pre c.post c.op :=
    fun c hc => bondStep_of_mem hrun hconfig hc
  have hchange : ∀ c ∈ h, ChangesStatus b c → status c.pre b = some .active ∧
      status c.post b = some .matured ∧ config.maturityDate ≤ c.time :=
    fun c hc hchange => (hstep c hc).change hchange.1 hchange.2
  refine ⟨?once, hchange, ?capped, ?frozen, ?unredeemable, ?falling, ?holders, ?total, ?redeemable⟩
  case once =>
    apply (countP_changesStatus hrun ?_).trans
    · split <;> omega
    · intro c hc hnow
      obtain ⟨hbefore, hafter, -⟩ := hchange c hc hnow
      exact ⟨hbefore, hafter⟩
  case capped =>
    intro c hc hlate
    exact (hstep c hc).unraised (.inl hlate)
  case frozen =>
    intro c hc hlate hearly
    rcases (hstep c hc).late (.inl hlate) with hsame | ⟨hmatured, -⟩
    · exact hsame
    · exact absurd hmatured hearly
  case unredeemable =>
    intro hearly now holder amount nonce s' r hexec
    exact hearly (exec_open hexec)
  case falling =>
    intro c hc hmatured
    exact (hstep c hc).unraised (.inr hmatured)
  case holders =>
    intro c hc hmatured a hne
    rcases (hstep c hc).late (.inr hmatured) with hsame | ⟨-, holder, amount, nonce, hop, -,
      hbalance, -⟩
    · exact absurd (hsame.1 a) hne
    · rw [hbalance a] at hne
      have ha : a = holder := by
        by_contra ha
        rw [if_neg ha, sub_zero] at hne
        exact hne rfl
      exact ⟨amount, nonce, ha ▸ hop⟩
  case total =>
    intro c hc hmatured hne
    rcases (hstep c hc).late (.inr hmatured) with hsame | ⟨-, holder, amount, nonce, hop, -⟩
    · exact absurd hsame.2 hne
    · exact ⟨holder, amount, nonce, hop⟩
  case redeemable =>
    intro hmatured holder parts htimes hpos hsum
    obtain ⟨h', s', hplay, hbalance⟩ := play_redemptions hrun hmatured htimes hpos hsum.le
    refine ⟨h', s', hplay, ?_⟩
    rw [hbalance, hsum, sub_self]

/-- Issue, subscribe 60, mature: the 60 tokens are redeemed in parts of 10 and 50. -/
theorem supply_freeze_two_parts :
    ∃ h s, Run machine Init h s ∧ status s 1 = some .matured ∧ s.holderBalance (1, ⟨1⟩) = 60 ∧
      ∃ h' s', machine.play h s [(101, .redeem ⟨1⟩ 1 10 1), (105, .redeem ⟨1⟩ 1 50 2)] =
        some (h', s') ∧ s'.holderBalance (1, ⟨1⟩) = 0 := by
  let config : BondConfig := ⟨7, 1000, [50], .carbon, 100, 1000⟩
  let ops : List (ℕ × Op) :=
    [(0, .issueBond ⟨0⟩ config 0), (1, .subscribe ⟨1⟩ 1 60 0), (100, .matureBond ⟨0⟩ 1 1)]
  have hplay : (machine.play [] (construct ⟨0⟩) ops).map (fun p => (lastTime p.1,
      p.2.bondConfig 1, status p.2 1, p.2.holderBalance (1, ⟨1⟩), p.2.nonce ⟨1⟩)) =
      some (100, some config, some .matured, 60, 1) := by decide
  have hinit : Init (construct ⟨0⟩) := ⟨⟨0⟩, rfl⟩
  obtain ⟨h, s, hrun, hview⟩ := Run.of_play hinit hplay
  simp only [Prod.mk.injEq] at hview
  obtain ⟨htime, hconfig, hmatured, hbalance, hnonce⟩ := hview
  have hredeem := (supply_freeze hrun hconfig).redeemable hmatured ⟨1⟩ [(101, 10), (105, 50)]
    (by simp [htime]) (by simp) (by simp [hbalance])
  rw [hnonce] at hredeem
  exact ⟨h, s, hrun, hmatured, hbalance, hredeem⟩

end BondIssuer
end NbsBond
