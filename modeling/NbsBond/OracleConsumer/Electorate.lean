import NbsBond.Framework.Counting
import NbsBond.OracleConsumer.Council

/-!
# The electorate

The active providers sign reports and vote on challenges. `active_provider_count` counts them along
the list of providers, and `Electorate` says that this is a count of addresses: the list names every
registered provider once. It also says that no report counts a vote of an address twice, and that
the signature threshold stays within the active providers.

A provider that was deactivated never comes back (`Move.provider_change`), but the votes it has cast
stay on record.
-/

namespace NbsBond
namespace OracleConsumer

open Soroban Int128

/-! ### Counting the active providers -/

namespace Council

variable {c : Council} {v : Address} {p q : OracleProvider}

theorem isActive_setProvider_self : (c.setProvider v p).isActive v = p.active := by
  simp [isActive, setProvider]

theorem isActive_setProvider_of_ne {a : Address} (ha : a ≠ v) :
    (c.setProvider v p).isActive a = c.isActive a := by
  simp [isActive, setProvider, ha]

theorem isActive_of_provider (hv : c.provider v = some q) : c.isActive v = q.active := by
  simp [isActive, hv]

/-- Rewriting an entry at the same activity changes nobody's. -/
theorem isActive_setProvider_same (hv : c.provider v = some q) (hactive : p.active = q.active)
    (a : Address) : (c.setProvider v p).isActive a = c.isActive a := by
  by_cases ha : a = v
  · subst ha
    rw [isActive_setProvider_self, hactive, isActive_of_provider hv]
  · exact isActive_setProvider_of_ne ha

theorem activeCount_congr {c' : Council} (hlist : c'.providerList = c.providerList)
    (hactive : ∀ a, c'.isActive a = c.isActive a) : c'.activeCount = c.activeCount := by
  unfold activeCount
  rw [hlist]
  exact Counting.countP_same fun a _ => hactive a

/-- The threshold after reconciling is within the active providers. -/
theorem reconcile_bounded (c : Council) :
    c.reconcile.threshold ≤ max c.reconcile.activeCount 1 := by
  have hcount : c.reconcile.activeCount = c.activeCount := rfl
  rw [hcount]
  exact min_le_right _ _

end Council

/-- The list of providers names every registered one once, no report counts a vote of an address
twice, and the threshold is positive and within the active providers. -/
structure Electorate (c : Council) : Prop where
  roll : c.providerList.Nodup
  listed : ∀ a, a ∈ c.providerList ↔ c.provider a ≠ none
  distinct : ∀ k, (c.votes k).Nodup
  positive : 1 ≤ c.threshold
  bounded : c.threshold ≤ max c.activeCount 1

namespace Electorate

variable {c c' : Council} {v : Address} {p q : OracleProvider}

theorem initial (admin : Address) : Electorate (council (construct admin)) where
  roll := List.nodup_nil
  listed a := by simp [council, construct]
  distinct k := by
    -- no vote has been cast
    obtain ⟨r, side⟩ := k
    cases side <;> exact List.nodup_nil
  positive := le_refl 1
  bounded := le_max_right _ _

/-- An active provider is on the list. -/
theorem mem_of_isActive (hE : Electorate c) {a : Address} (ha : c.isActive a = true) :
    a ∈ c.providerList := by
  rw [hE.listed]
  intro hnone
  simp [Council.isActive, hnone] at ha

/-- **The count is the number of active addresses.** Nobody is listed twice, so counting along the
list is counting addresses. -/
theorem activeCount_eq_ncard (hE : Electorate c) :
    c.activeCount = {a | c.isActive a = true}.ncard := by
  -- an active address is on the list anyway, and the list names it once
  have hset : {a | a ∈ c.providerList ∧ c.isActive a = true} = {a | c.isActive a = true} :=
    Set.ext fun a => ⟨And.right, fun ha => ⟨hE.mem_of_isActive ha, ha⟩⟩
  rw [← hset]
  exact Counting.countP_eq_ncard hE.roll

theorem finite_active (hE : Electorate c) : {a | c.isActive a = true}.Finite :=
  (List.finite_toSet c.providerList).subset fun _ ha => hE.mem_of_isActive ha

/-- A call that keeps the list, the votes and who is active, and a threshold within bounds. -/
theorem congr (hE : Electorate c) (hlist : c'.providerList = c.providerList)
    (hlisted : ∀ a, c'.provider a ≠ none ↔ c.provider a ≠ none)
    (hactive : ∀ a, c'.isActive a = c.isActive a) (hvotes : c'.votes = c.votes)
    (hpositive : 1 ≤ c'.threshold) (hbounded : c'.threshold ≤ max c.activeCount 1) :
    Electorate c' where
  roll := hlist ▸ hE.roll
  listed a := by rw [hlist, hE.listed, hlisted]
  distinct := hvotes ▸ hE.distinct
  positive := hpositive
  bounded := by
    rw [Council.activeCount_congr hlist hactive]
    exact hbounded

/-- Rewriting an entry takes no address off the list and adds none. -/
theorem setProvider_listed (hv : c.provider v = some q) (a : Address) :
    (c.setProvider v p).provider a ≠ none ↔ c.provider a ≠ none := by
  show Function.update c.provider v (some p) a ≠ none ↔ _
  by_cases ha : a = v
  · subst ha
    simp [hv]
  · rw [Function.update_of_ne ha]

/-- A stake moves. -/
theorem restake (hE : Electorate c) (hv : c.provider v = some q) (hactive : p.active = q.active) :
    Electorate (c.setProvider v p) :=
  hE.congr rfl (setProvider_listed hv) (Council.isActive_setProvider_same hv hactive) rfl
    hE.positive hE.bounded

/-- An entry is rewritten in any way, and the threshold reconciled. -/
theorem reconcile (hE : Electorate c) (hv : c.provider v = some q) :
    Electorate (c.setProvider v p).reconcile where
  roll := hE.roll
  listed a := by
    rw [show (c.setProvider v p).reconcile.providerList = c.providerList from rfl, hE.listed]
    exact (setProvider_listed hv a).symm
  distinct := hE.distinct
  positive := le_min hE.positive (le_max_right _ _)
  bounded := Council.reconcile_bounded _

/-- A new provider joins, active. -/
theorem register (hE : Electorate c) (hnew : c.provider v = none) (hactive : p.active = true) :
    Electorate { c.setProvider v p with providerList := c.providerList ++ [v] } ∧
      Council.activeCount { c.setProvider v p with providerList := c.providerList ++ [v] } =
        c.activeCount + 1 := by
  have hnot : v ∉ c.providerList := fun hv => (hE.listed v).mp hv hnew
  have hcount : Council.activeCount
      { c.setProvider v p with providerList := c.providerList ++ [v] } = c.activeCount + 1 := by
    show (c.providerList ++ [v]).countP (c.setProvider v p).isActive = _
    rw [List.countP_append]
    -- nobody on the list is the new address, so the old entries count as before
    have hold : c.providerList.countP (c.setProvider v p).isActive = c.activeCount := by
      refine Counting.countP_same fun a ha => ?_
      refine Council.isActive_setProvider_of_ne ?_
      rintro rfl
      exact hnot ha
    rw [hold, List.countP_singleton, Council.isActive_setProvider_self, hactive]
    rfl
  refine ⟨⟨?_, fun a => ?_, hE.distinct, hE.positive, ?_⟩, hcount⟩
  -- the new address is not on the list yet
  · exact List.nodup_append.mpr ⟨hE.roll, List.nodup_singleton v, by
      intro a ha b hb hab
      rw [List.mem_singleton] at hb
      rw [hab, hb] at ha
      exact hnot ha⟩
  · show a ∈ c.providerList ++ [v] ↔ Function.update c.provider v (some p) a ≠ none
    rw [List.mem_append, List.mem_singleton, hE.listed]
    by_cases ha : a = v
    · subst ha
      simp
    · simp [ha]
  · rw [hcount]
    have hbounded := hE.bounded
    show c.threshold ≤ _
    omega

/-- Deactivating a provider counts one fewer. -/
theorem activeCount_retire (hE : Electorate c) (hv : c.provider v = some q)
    (hq : q.active = true) (hp : p.active = false) :
    c.activeCount = (c.setProvider v p).activeCount + 1 := by
  have hlisted : v ∈ c.providerList := by
    rw [hE.listed, hv]
    nofun
  refine Counting.countP_mark hE.roll hlisted ?_ ?_ fun b _ hb => ?_
  · rw [Council.isActive_setProvider_self, hp]
  · rw [Council.isActive_of_provider hv, hq]
  · exact (Council.isActive_setProvider_of_ne hb).symm

/-- A vote of somebody who has none. -/
theorem cast (hE : Electorate c) {r : ReportId} {a : Address} {uphold : Bool}
    (hunvoted : a ∉ c.votes (r, uphold)) : Electorate (c.cast r a uphold) := by
  refine ⟨hE.roll, hE.listed, fun k => ?_, hE.positive, hE.bounded⟩
  show (Function.update c.votes (r, uphold) (c.votes (r, uphold) ++ [a]) k).Nodup
  rw [Function.update_apply]
  split
  · refine List.nodup_append.mpr ⟨hE.distinct _, List.nodup_singleton a, ?_⟩
    intro b hb d hd hbd
    rw [List.mem_singleton] at hd
    rw [hbd, hd] at hb
    exact hunvoted hb
  · exact hE.distinct k

/-- A decision: whoever is slashed, the threshold is reconciled. -/
theorem decide {now : ℕ} {own : Address} {regs regs' : Registries} {locked : ℤ} {r : ReportId}
    {rep : Report} {ch : Challenge} {resolution : ReportStatus} (hE : Electorate c)
    (h : Outcome now own regs c locked r rep ch resolution c' regs') : Electorate c' := by
  cases h with
  | upheld => exact hE
  | @rejected p _ hprovider _ =>
    -- the revocation and the refund leave the providers and the threshold alone
    rw [Council.refund_eq, Council.countRevocation_eq]
    have hslashed : Electorate (c.slash now rep.provider p r) := by
      obtain ⟨hroll, hlisted, hdistinct, hpositive, hbounded⟩ := hE.reconcile hprovider
      exact ⟨hroll, hlisted, hdistinct, hpositive, hbounded⟩
    exact ⟨hslashed.roll, hslashed.listed, hslashed.distinct, hslashed.positive, hslashed.bounded⟩

/-- **Invariant preservation.** A registration adds one, a removal or a slash to nothing takes one
away and may lower the threshold. -/
theorem step {now : ℕ} {own : Address} {regs regs' : Registries} {s s' : State} {op : Op}
    (hE : Electorate (council s)) (hmove : Move now own regs regs' s s' op) :
    Electorate (council s') := by
  -- a call that leaves providers, votes and threshold alone
  have hsame : ∀ {c : Council}, c.provider = s.provider → c.providerList = s.providerList →
      c.votes = (council s).votes → c.threshold = s.signatureThreshold → Electorate c := by
    intro c hprovider hlist hvotes hthreshold
    refine hE.congr hlist (fun a => by rw [hprovider]; rfl) (fun a => ?_) hvotes ?_ ?_
    · simp only [Council.isActive, hprovider]
      rfl
    · rw [hthreshold]
      exact hE.positive
    · rw [hthreshold]
      exact hE.bounded
  cases hmove with
  | idle _ hcouncil _ _ _ =>
    -- the docket moves, the council does not
    rw [hcouncil]
    exact hE
  | register _ hnew hamends =>
    rw [hamends.council]
    exact (hE.register hnew rfl).1
  | remove _ hp hamends =>
    -- the contract reconciles the threshold after a removal
    rw [hamends.council]
    exact hE.reconcile hp
  | challenge _ _ hcouncil _ _ _ =>
    rw [hcouncil]
    exact hsame rfl rfl rfl rfl
  | rule _ hverdict => exact hE.decide hverdict.outcome
  | vote hmay _ hamends =>
    -- `MayVote` rules out a second vote
    rw [hamends.council]
    exact hE.cast (hmay.unvoted _)
  | concur hmay _ hverdict => exact (hE.cast (hmay.unvoted _)).decide hverdict.outcome
  | expire _ _ hcouncil _ _ _ =>
    rw [hcouncil, Council.refund_eq]
    exact hsame rfl rfl rfl rfl
  | setThreshold _ hrange hamends =>
    -- the guard of the call is the bound
    rw [hamends.council]
    refine hE.congr rfl (fun _ => Iff.rfl) (fun _ => rfl) rfl
      (Nat.one_le_iff_ne_zero.mpr hrange.1) ?_
    exact hrange.2.trans (le_max_left _ _)
  | addStake _ hp _ hamends =>
    rw [hamends.council]
    exact hE.restake hp rfl
  | withdrawStake _ hp _ _ hamends =>
    rw [hamends.council]
    exact hE.restake hp rfl
  | depositBond _ _ hamends =>
    rw [hamends.council]
    exact hsame rfl rfl rfl rfl
  | withdrawBond _ _ hamends =>
    rw [hamends.council]
    exact hsame rfl rfl rfl rfl
  | setRegistry _ hamends =>
    rw [hamends.council]
    exact hsame rfl rfl rfl rfl
  | propose _ hamends =>
    rw [hamends.council]
    exact hsame rfl rfl rfl rfl
  | cancel _ _ hamends =>
    rw [hamends.council]
    exact hsame rfl rfl rfl rfl
  | accept _ _ _ hamends =>
    rw [hamends.council]
    exact hsame rfl rfl rfl rfl

end Electorate

/-! ### The margin -/

/-- The threshold leaves room for one active provider that does not sign, or there are too few
providers to speak of. -/
def Margin (c : Council) : Prop := c.threshold < c.activeCount ∨ c.activeCount ≤ 1

/-- A rejection of report `r` would take the last of the stake of provider `v`. -/
def Exhausts (s : State) (r : ReportId) (v : Address) : Prop :=
  (∃ rep ∈ s.report r, rep.provider = v) ∧
    ∃ p ∈ s.provider v, p.stake - slashableAmount p.stake = 0

/-- The call may deactivate provider `v`. -/
def Op.Retires (s : State) (v : Address) : Op → Prop
  | .removeProvider _ provider _ => provider = v
  | .resolveChallenge _ r resolution _ => resolution = .rejected ∧ Exhausts s r v
  | .resolveChallengeByVerifier _ r uphold _ => uphold = false ∧ Exhausts s r v
  | _ => False

/-- The challenge of report `r` is waiting for its decision. -/
def Pending (s : State) (r : ReportId) : Prop :=
  ∃ ch, s.challenge r = some ch ∧ ch.resolved = false

/-- The call, once committed, deactivates provider `v`: it removes the provider, or it decides a
pending challenge against a report of the provider, and the slash takes the last of the stake. A
vote decides only where it completes the supermajority. -/
def Op.Deactivates (s : State) (v : Address) : Op → Prop
  | .removeProvider _ provider _ => provider = v
  | .resolveChallenge _ r resolution _ => resolution = .rejected ∧ Pending s r ∧ Exhausts s r v
  | .resolveChallengeByVerifier _ r uphold _ => uphold = false ∧ Pending s r ∧ Exhausts s r v ∧
    supermajorityThreshold (activeProviderCount s) ≤ (votes s r false).length + 1
  | _ => False

/-- The call does not use up the margin: a new threshold stays below the number of active providers,
and an active provider is retired only where one more than the threshold remain. -/
def Op.LeavesMargin (s : State) : Op → Prop
  | .setSignatureThreshold _ threshold _ =>
    threshold < activeProviderCount s ∨ activeProviderCount s ≤ 1
  | op => ∀ v, op.Retires s v → isActive s v = true →
    s.signatureThreshold + 1 < activeProviderCount s ∨ activeProviderCount s ≤ 2

namespace Margin

variable {c c' : Council} {v : Address} {p q : OracleProvider}

/-- Who is active stays, and so does the threshold. -/
theorem congr (hM : Margin c) (hlist : c'.providerList = c.providerList)
    (hactive : ∀ a, c'.isActive a = c.isActive a) (hthreshold : c'.threshold = c.threshold) :
    Margin c' := by
  unfold Margin
  rw [Council.activeCount_congr hlist hactive, hthreshold]
  exact hM

/-- An entry is rewritten and the threshold reconciled; where an active provider is retired, one
more than the threshold must have been active. -/
theorem reconcile (hM : Margin c) (hE : Electorate c) (hv : c.provider v = some q)
    (hjoin : p.active = true → q.active = true)
    (hroom : q.active = true → p.active = false → c.threshold + 1 < c.activeCount ∨
      c.activeCount ≤ 2) : Margin (c.setProvider v p).reconcile := by
  have hcount : (c.setProvider v p).reconcile.activeCount = (c.setProvider v p).activeCount := rfl
  have hthreshold : (c.setProvider v p).reconcile.threshold ≤ c.threshold := min_le_left _ _
  unfold Margin at hM ⊢
  rw [hcount]
  -- one provider fewer, or the activity of the entry is as before
  by_cases hretired : q.active = true ∧ p.active = false
  · have hone := hE.activeCount_retire hv hretired.1 hretired.2
    rcases hroom hretired.1 hretired.2 with hroom | hroom <;> omega
  · have hsame : p.active = q.active := by
      cases hp : p.active <;> cases hq : q.active <;> simp_all
    have hkept : (c.setProvider v p).activeCount = c.activeCount :=
      Council.activeCount_congr rfl (Council.isActive_setProvider_same hv hsame)
    omega

/-- A decision, when a provider it deactivates leaves room. -/
theorem decide {now : ℕ} {own : Address} {regs regs' : Registries} {locked : ℤ} {r : ReportId}
    {rep : Report} {ch : Challenge} {resolution : ReportStatus} (hM : Margin c)
    (hE : Electorate c) (h : Outcome now own regs c locked r rep ch resolution c' regs')
    (hroom : resolution = .rejected → ∀ p, c.provider rep.provider = some p → p.active = true →
      p.stake - slashableAmount p.stake = 0 → c.threshold + 1 < c.activeCount ∨
        c.activeCount ≤ 2) : Margin c' := by
  cases h with
  | upheld => exact hM
  | @rejected p _ hprovider _ =>
    rw [Council.refund_eq, Council.countRevocation_eq]
    have hslashed : Margin (c.slash now rep.provider p r) := by
      -- a slash deactivates the provider exactly when it leaves no stake
      refine hM.reconcile hE hprovider (fun hactive => ?_) fun hq hretired => ?_
      · dsimp only at hactive
        split at hactive
        · cases hactive
        · exact hactive
      · dsimp only at hretired
        split at hretired
        · next hzero => exact hroom rfl p hprovider hq hzero
        · rw [hq] at hretired
          cases hretired
    exact hslashed

/-- **One call** that leaves a margin. -/
theorem step {now : ℕ} {own : Address} {regs regs' : Registries} {s s' : State} {op : Op}
    (hM : Margin (council s)) (hE : Electorate (council s))
    (hmove : Move now own regs regs' s s' op) (hop : op.LeavesMargin s) : Margin (council s') := by
  -- a call that leaves the providers and the threshold alone
  have hsame : ∀ {c : Council}, c.provider = s.provider → c.providerList = s.providerList →
      c.threshold = s.signatureThreshold → Margin c := by
    intro c hprovider hlist hthreshold
    refine hM.congr hlist (fun a => ?_) hthreshold
    simp only [Council.isActive, hprovider]
    rfl
  have hrestake : ∀ {v : Address} {p q : OracleProvider}, s.provider v = some q →
      p.active = q.active → Margin ((council s).setProvider v p) := fun hv hactive =>
    hM.congr rfl (Council.isActive_setProvider_same (c := council s) hv hactive) rfl
  -- whom a rejection exhausts, the call may retire
  have hexhausts : ∀ {r : ReportId} {rep : Report} {p : OracleProvider},
      s.report r = some rep → s.provider rep.provider = some p →
      p.stake - slashableAmount p.stake = 0 → Exhausts s r rep.provider :=
    fun hrep hp hzero => ⟨⟨_, hrep, rfl⟩, _, hp, hzero⟩
  have hactive : ∀ {v : Address} {p : OracleProvider}, s.provider v = some p → p.active = true →
      OracleConsumer.isActive s v = true := fun hv hp => (Council.isActive_of_provider
    (c := council s) hv).trans hp
  cases hmove with
  | idle _ hcouncil _ _ _ =>
    rw [hcouncil]
    exact hM
  | @register _ v _ _ _ hnew hamends =>
    rw [hamends.council]
    obtain ⟨hlarger, hcount⟩ := hE.register (p := ⟨v, _, 0, true, now⟩) hnew rfl
    unfold Margin at hM ⊢
    have hbounded := hE.bounded
    rw [show (council s).providerList = s.providerList from rfl] at hcount
    rw [hcount]
    show (council s).threshold < _ ∨ _
    omega
  | remove _ hp hamends =>
    rw [hamends.council]
    exact hM.reconcile hE hp (fun hactive => nomatch hactive) fun hq _ =>
      hop _ rfl (hactive hp hq)
  | challenge _ _ hcouncil _ _ _ =>
    rw [hcouncil]
    exact hsame rfl rfl rfl
  | rule _ hverdict =>
    refine hM.decide hE hverdict.outcome fun hresolution p hp hq hzero => ?_
    exact hop _ ⟨hresolution, hexhausts hverdict.report hp hzero⟩ (hactive hp hq)
  | vote _ _ hamends =>
    rw [hamends.council]
    exact hsame rfl rfl rfl
  | @concur _ _ uphold _ _ _ hmay _ hverdict =>
    refine Margin.decide (hsame rfl rfl rfl) (hE.cast (hmay.unvoted _)) hverdict.outcome
      fun hresolution p hp hq hzero => ?_
    have hreject : uphold = false := by
      cases uphold with
      | true => cases hresolution
      | false => rfl
    exact hop _ ⟨hreject, hexhausts hverdict.report hp hzero⟩ (hactive hp hq)
  | expire _ _ hcouncil _ _ _ =>
    rw [hcouncil, Council.refund_eq]
    exact hsame rfl rfl rfl
  | setThreshold _ _ hamends =>
    rw [hamends.council]
    exact hop
  | addStake _ hp _ hamends =>
    rw [hamends.council]
    exact hrestake hp rfl
  | withdrawStake _ hp _ _ hamends =>
    rw [hamends.council]
    exact hrestake hp rfl
  | depositBond _ _ hamends | withdrawBond _ _ hamends | setRegistry _ hamends
  | propose _ hamends | cancel _ _ hamends | accept _ _ _ hamends =>
    rw [hamends.council]
    exact hsame rfl rfl rfl

end Margin

/-! ### What a call leaves of providers and votes -/

section Kept

variable {now : ℕ} {own : Address} {regs regs' : Registries} {s s' : State} {op : Op}

/-- A decision slashes the provider of the report, if anybody. -/
theorem Outcome.provider_eq {c c' : Council} {locked : ℤ} {r : ReportId} {rep : Report}
    {ch : Challenge} {resolution : ReportStatus}
    (h : Outcome now own regs c locked r rep ch resolution c' regs') :
    c'.provider = c.provider ∨ ∃ p p', c.provider rep.provider = some p ∧
      (p'.active = true → p.active = true) ∧
      c'.provider = Function.update c.provider rep.provider (some p') := by
  cases h with
  | upheld => exact Or.inl rfl
  | @rejected p _ hprovider _ =>
    refine Or.inr ⟨p, { p with
      stake := p.stake - slashableAmount p.stake
      active := if p.stake - slashableAmount p.stake = 0 then false else p.active },
      hprovider, ?_, ?_⟩
    · intro hactive
      dsimp only at hactive
      split at hactive
      · cases hactive
      · exact hactive
    · rw [Council.refund_eq, Council.countRevocation_eq]
      rfl

/-- A decision leaves everybody but the provider of the report as active as they were. -/
theorem Outcome.isActive_of_ne {c c' : Council} {locked : ℤ} {r : ReportId} {rep : Report}
    {ch : Challenge} {resolution : ReportStatus}
    (h : Outcome now own regs c locked r rep ch resolution c' regs') {a : Address}
    (ha : a ≠ rep.provider) : c'.isActive a = c.isActive a := by
  obtain hkept | ⟨p, p', -, -, hwritten⟩ := h.provider_eq
  · simp only [Council.isActive, hkept]
  · simp only [Council.isActive, hwritten, Function.update_of_ne ha]

/-- It makes nobody active. -/
theorem Outcome.active_before {c c' : Council} {locked : ℤ} {r : ReportId} {rep : Report}
    {ch : Challenge} {resolution : ReportStatus}
    (h : Outcome now own regs c locked r rep ch resolution c' regs') {a : Address}
    (ha : c'.isActive a = true) : c.isActive a = true := by
  obtain hkept | ⟨p, p', hp, hactive, hwritten⟩ := h.provider_eq
  · simpa only [Council.isActive, hkept] using ha
  · by_cases hself : a = rep.provider
    · subst hself
      rw [Council.isActive_of_provider hp]
      refine hactive ?_
      simpa only [Council.isActive, hwritten, Function.update_self] using ha
    · rw [← h.isActive_of_ne hself]
      exact ha

/-- It deactivates nobody whose stake outlasts the slash. -/
theorem Outcome.isActive_kept {c c' : Council} {locked : ℤ} {r : ReportId} {rep : Report}
    {ch : Challenge} {resolution : ReportStatus}
    (h : Outcome now own regs c locked r rep ch resolution c' regs') {a : Address}
    (ha : c.isActive a = true)
    (houtlasts : resolution = .rejected → rep.provider = a → ∀ p, c.provider a = some p →
      p.stake - slashableAmount p.stake ≠ 0) : c'.isActive a = true := by
  by_cases hself : a = rep.provider
  swap
  -- the slash is of the provider of the report
  · rw [h.isActive_of_ne hself]
    exact ha
  subst hself
  cases h with
  | upheld => exact ha
  | @rejected p _ hprovider _ =>
    rw [Council.refund_eq, Council.countRevocation_eq]
    show (c.setProvider rep.provider _).isActive rep.provider = true
    rw [Council.isActive_setProvider_self, if_neg (houtlasts rfl rfl p hprovider)]
    exact (Council.isActive_of_provider hprovider).symm.trans ha

/-- **Providers only join.** An entry stays on record, and an inactive one stays inactive. -/
theorem Move.provider_change (hmove : Move now own regs regs' s s' op) {a : Address}
    {p : OracleProvider} (hp : s.provider a = some p) :
    ∃ p', s'.provider a = some p' ∧ (p'.active = true → p.active = true) := by
  -- a call that rewrites the entry of `v`
  have hwrite : ∀ {v : Address} {q q' : OracleProvider}, s.provider v = some q →
      s'.provider = Function.update s.provider v (some q') →
      (q'.active = true → q.active = true) →
      ∃ p', s'.provider a = some p' ∧ (p'.active = true → p.active = true) := by
    intro v q q' hq hs' hactive
    by_cases hv : a = v
    · subst hv
      rw [hp] at hq
      cases hq
      exact ⟨q', by rw [hs', Function.update_self], hactive⟩
    · exact ⟨p, by rw [hs', Function.update_of_ne hv]; exact hp, id⟩
  have hsame : s'.provider = s.provider →
      ∃ p', s'.provider a = some p' ∧ (p'.active = true → p.active = true) := by
    intro hs'
    exact ⟨p, hs' ▸ hp, id⟩
  have hdecided : ∀ {c c' : Council} {locked : ℤ} {r : ReportId} {rep : Report} {ch : Challenge}
      {resolution : ReportStatus}, Outcome now own regs c locked r rep ch resolution c' regs' →
      c.provider = s.provider → council s' = c' →
      ∃ p', s'.provider a = some p' ∧ (p'.active = true → p.active = true) := by
    rintro c c' locked r rep ch resolution houtcome hc rfl
    obtain hkept | ⟨q, q', hq, hactive, hs'⟩ := houtcome.provider_eq
    · exact hsame (hkept.trans hc)
    · rw [hc] at hq hs'
      exact hwrite hq hs' hactive
  cases hmove with
  | idle _ hcouncil _ _ _ => exact hsame (congrArg Council.provider hcouncil)
  | @register _ v _ _ _ hnew hamends =>
    have hs' : s'.provider = Function.update s.provider v (some _) :=
      congrArg Council.provider hamends.council
    have hv : a ≠ v := by
      rintro rfl
      rw [hp] at hnew
      cases hnew
    exact ⟨p, by rw [hs', Function.update_of_ne hv]; exact hp, id⟩
  | remove _ hq hamends =>
    exact hwrite hq (congrArg Council.provider hamends.council) fun hactive => nomatch hactive
  | challenge _ _ hcouncil _ _ _ => exact hsame (congrArg Council.provider hcouncil)
  | rule _ hverdict => exact hdecided hverdict.outcome rfl rfl
  | concur _ _ hverdict => exact hdecided hverdict.outcome rfl rfl
  | expire _ _ hcouncil _ _ _ =>
    rw [Council.refund_eq] at hcouncil
    exact hsame (congrArg Council.provider hcouncil)
  | addStake _ hq _ hamends => exact hwrite hq (congrArg Council.provider hamends.council) id
  | withdrawStake _ hq _ _ hamends =>
    exact hwrite hq (congrArg Council.provider hamends.council) id
  | vote _ _ hamends | setThreshold _ _ hamends | depositBond _ _ hamends
  | withdrawBond _ _ hamends | setRegistry _ hamends | propose _ hamends | cancel _ _ hamends
  | accept _ _ _ hamends => exact hsame (congrArg Council.provider hamends.council)

/-- **Activity is lost in two ways only.** An active provider is active after the call unless it is
removed, or slashed to nothing. -/
theorem Move.isActive_kept (hmove : Move now own regs regs' s s' op) {v : Address}
    (hv : OracleConsumer.isActive s v = true) (hop : ¬ op.Deactivates s v) :
    OracleConsumer.isActive s' v = true := by
  have hsame : s'.provider = s.provider → OracleConsumer.isActive s' v = true := by
    intro hs'
    unfold OracleConsumer.isActive at hv ⊢
    rw [hs']
    exact hv
  -- a stake moves
  have hrestake : ∀ {u : Address} {q q' : OracleProvider}, s.provider u = some q →
      council s' = (council s).setProvider u q' → q'.active = q.active →
      OracleConsumer.isActive s' v = true := by
    intro u q q' hq hs' hactive
    show (council s').isActive v = true
    rw [hs', Council.isActive_setProvider_same (c := council s) hq hactive]
    exact hv
  have hexhausts : ∀ {r : ReportId} {rep : Report} {p : OracleProvider},
      s.report r = some rep → rep.provider = v → s.provider v = some p →
      p.stake - slashableAmount p.stake = 0 → Exhausts s r v :=
    fun hrep hself hp hzero => ⟨⟨_, hrep, hself⟩, _, hp, hzero⟩
  cases hmove with
  | idle _ hcouncil _ _ _ => exact hsame (congrArg Council.provider hcouncil)
  | @register _ u _ _ _ hnew hamends =>
    -- the new provider is not the active one
    have hu : v ≠ u := by
      rintro rfl
      simp [OracleConsumer.isActive, hnew] at hv
    show (council s').isActive v = true
    rw [hamends.council]
    exact (Council.isActive_setProvider_of_ne (c := council s) hu).trans hv
  | @remove _ u _ _ _ _ hamends =>
    have hu : v ≠ u := fun heq => hop heq.symm
    show (council s').isActive v = true
    rw [hamends.council]
    exact (Council.isActive_setProvider_of_ne (c := council s) hu).trans hv
  | challenge _ _ hcouncil _ _ _ => exact hsame (congrArg Council.provider hcouncil)
  | rule _ hverdict =>
    refine hverdict.outcome.isActive_kept hv fun hrejected hself p hp hzero => ?_
    exact hop ⟨hrejected, ⟨_, hverdict.challenge, hverdict.opened⟩,
      hexhausts hverdict.report hself hp hzero⟩
  | @concur _ _ uphold _ _ _ _ hreached hverdict =>
    refine hverdict.outcome.isActive_kept (c := (council s).cast _ _ _) hv
      fun hrejected hself p hp hzero => ?_
    cases uphold with
    | true => cases hrejected
    | false =>
      exact hop ⟨rfl, ⟨_, hverdict.challenge, hverdict.opened⟩,
        hexhausts hverdict.report hself hp hzero, hreached⟩
  | expire _ _ hcouncil _ _ _ =>
    rw [Council.refund_eq] at hcouncil
    exact hsame (congrArg Council.provider hcouncil)
  | addStake _ hq _ hamends => exact hrestake hq hamends.council rfl
  | withdrawStake _ hq _ _ hamends => exact hrestake hq hamends.council rfl
  | vote _ _ hamends | setThreshold _ _ hamends | depositBond _ _ hamends
  | withdrawBond _ _ hamends | setRegistry _ hamends | propose _ hamends | cancel _ _ hamends
  | accept _ _ _ hamends => exact hsame (congrArg Council.provider hamends.council)

/-- A vote is cast in one way only; every other call leaves the votes as they are. -/
theorem Move.votes_change (hmove : Move now own regs regs' s s' op) :
    (∃ caller r uphold nonce, op = .resolveChallengeByVerifier caller r uphold nonce ∧
      MayVote s caller r ∧
      (council s').votes = ((council s).cast r caller uphold).votes) ∨
    (council s').votes = (council s).votes := by
  have hkept : ∀ {c : Council}, council s' = c → c.votes = (council s).votes →
      (council s').votes = (council s).votes := by
    rintro c rfl hvotes
    exact hvotes
  cases hmove with
  | idle _ hcouncil _ _ _ => exact Or.inr (hkept hcouncil rfl)
  | challenge _ _ hcouncil _ _ _ => exact Or.inr (hkept hcouncil rfl)
  | rule _ hverdict => exact Or.inr hverdict.outcome.keeps.2.2.2.1
  | vote hmay _ hamends =>
    exact Or.inl ⟨_, _, _, _, rfl, hmay, congrArg Council.votes hamends.council⟩
  | concur hmay _ hverdict =>
    exact Or.inl ⟨_, _, _, _, rfl, hmay, hverdict.outcome.keeps.2.2.2.1⟩
  | expire _ _ hcouncil _ _ _ =>
    rw [Council.refund_eq] at hcouncil
    exact Or.inr (hkept hcouncil rfl)
  | register _ _ hamends | remove _ _ hamends | setThreshold _ _ hamends
  | addStake _ _ _ hamends | withdrawStake _ _ _ _ hamends | depositBond _ _ hamends
  | withdrawBond _ _ hamends | setRegistry _ hamends | propose _ hamends | cancel _ _ hamends
  | accept _ _ _ hamends => exact Or.inr (hkept hamends.council rfl)

end Kept

/-! ### The votes on a challenge -/

/-- Whoever voted on a challenge of report `r` is not its provider. -/
def VotesForeign (s : State) : Prop :=
  ∀ r side, ∀ a ∈ votes s r side, ∃ rep, s.report r = some rep ∧ a ≠ rep.provider

theorem VotesForeign.step {now : ℕ} {own : Address} {regs regs' : Registries} {s s' : State}
    {op : Op} (hV : VotesForeign s) (hL : LifeCycle (docket s)) (hstep : Step now s (docket s') op)
    (hmove : Move now own regs regs' s s' op) : VotesForeign s' := by
  intro r side a ha
  have hbefore : ∃ rep, s.report r = some rep ∧ a ≠ rep.provider := by
    change a ∈ (council s').votes (r, side) at ha
    obtain ⟨caller, r₀, uphold, _, -, hmay, hvotes⟩ | hvotes := hmove.votes_change
    · rw [hvotes] at ha
      change a ∈ Function.update (council s).votes (r₀, uphold) _ (r, side) at ha
      rw [Function.update_apply] at ha
      split at ha
      · next hkey =>
        cases hkey
        rcases List.mem_append.mp ha with hold | hnew
        · exact hV r side a hold
        · rw [List.mem_singleton] at hnew
          subst hnew
          exact hmay.foreign
      · exact hV r side a ha
    · rw [hvotes] at ha
      exact hV r side a ha
  obtain ⟨rep, hrep, hne⟩ := hbefore
  obtain ⟨rep', hrep', hsame, -⟩ := hstep.report_change hL hrep
  refine ⟨rep', hrep', ?_⟩
  rw [show rep'.provider = rep.provider by rw [hsame]]
  exact hne

end OracleConsumer
end NbsBond
