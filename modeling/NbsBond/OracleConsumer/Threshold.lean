import NbsBond.OracleConsumer.Electorate

/-!
# What moves the signature threshold

`set_signature_threshold` moves it to any value within the active providers. Otherwise it is only
ever clamped: a call that deactivates a provider reconciles it, and since it was within the active
providers before, it falls only when it is then too high by one, to the number of active providers
that are left.
-/

namespace NbsBond
namespace OracleConsumer

open Soroban

namespace Electorate

variable {c : Council} {v : Address} {p q : OracleProvider}

/-- Reconciling after an entry was rewritten: the threshold stays, or the entry was deactivated and
the threshold is the number of active providers, one at least. -/
theorem reconcile_threshold (hE : Electorate c) (hv : c.provider v = some q)
    (hjoin : p.active = true → q.active = true) :
    (c.setProvider v p).reconcile.threshold = c.threshold ∨
      (q.active = true ∧ p.active = false ∧ (c.setProvider v p).reconcile.threshold =
        max (c.setProvider v p).activeCount 1) := by
  have hclamped : (c.setProvider v p).reconcile.threshold =
      min c.threshold (max (c.setProvider v p).activeCount 1) := rfl
  by_cases hretired : q.active = true ∧ p.active = false
  · rw [hclamped]
    rcases min_choice c.threshold (max (c.setProvider v p).activeCount 1) with hmin | hmin
    · exact .inl hmin
    · exact .inr ⟨hretired.1, hretired.2, hmin⟩
  · -- the activity of the entry is as before, and the threshold was in bounds
    have hsame : p.active = q.active := by
      cases hp : p.active <;> cases hq : q.active <;> simp_all
    have hkept : (c.setProvider v p).activeCount = c.activeCount :=
      Council.activeCount_congr rfl (Council.isActive_setProvider_same hv hsame)
    rw [hclamped, hkept, min_eq_left hE.bounded]
    exact .inl rfl

end Electorate

/-- Provider `v` was deactivated, and the threshold set to the number of active providers left. -/
structure Clamped (s s' : State) (v : Address) : Prop where
  before : isActive s v = true
  after : isActive s' v = false
  threshold : s'.signatureThreshold = max 1 (activeProviderCount s')

section Move

variable {now : ℕ} {own : Address} {regs regs' : Registries} {s s' : State} {op : Op}

/-- An entry is rewritten and the threshold reconciled, in the council that `s'` has. -/
theorem clamped_of_reconcile {c : Council} {v : Address} {p q : OracleProvider}
    (hE : Electorate c) (hprovider : c.provider = s.provider)
    (hthreshold : c.threshold = s.signatureThreshold) (hv : s.provider v = some q)
    (hjoin : p.active = true → q.active = true)
    (hprovider' : s'.provider = (c.setProvider v p).provider)
    (hlist' : s'.providerList = c.providerList)
    (hthreshold' : s'.signatureThreshold = (c.setProvider v p).reconcile.threshold) :
    s'.signatureThreshold = s.signatureThreshold ∨ p.active = false ∧ Clamped s s' v := by
  have hactive' : isActive s' = (c.setProvider v p).isActive :=
    congrArg (fun provider => Council.isActive { c with provider }) hprovider'
  rcases hE.reconcile_threshold (hprovider ▸ hv) hjoin with hkept | ⟨hq, hp, hclamped⟩
  · exact .inl (hthreshold'.trans (hkept.trans hthreshold))
  · refine .inr ⟨hp, ?_, ?_, ?_⟩
    · simp only [isActive, hv, hq]
    · rw [hactive', Council.isActive_setProvider_self, hp]
    · rw [hthreshold', hclamped, max_comm, activeProviderCount, hactive', hlist']
      rfl

/-- A decision clamps the threshold where it takes the last of a provider's stake. -/
theorem Outcome.clamped {c c' : Council} {locked : ℤ} {r : ReportId} {rep : Report}
    {ch : Challenge} {resolution : ReportStatus}
    (h : Outcome now own regs c locked r rep ch resolution c' regs') (hE : Electorate c)
    (hprovider : c.provider = s.provider) (hthreshold : c.threshold = s.signatureThreshold)
    (hcouncil : council s' = c') :
    s'.signatureThreshold = s.signatureThreshold ∨ resolution = .rejected ∧
      (∃ p ∈ s.provider rep.provider, p.stake - slashableAmount p.stake = 0) ∧
      Clamped s s' rep.provider := by
  cases h with
  | upheld =>
    have hsame : s'.signatureThreshold = c.threshold := congrArg Council.threshold hcouncil
    exact .inl (hsame.trans hthreshold)
  | @rejected p _ hp hrevokes =>
    -- the revocation and the refund leave the providers and the threshold alone
    rw [Council.refund_eq, Council.countRevocation_eq] at hcouncil
    rw [hprovider] at hp
    have hclamped := clamped_of_reconcile hE hprovider hthreshold hp
      (p := { p with
        stake := p.stake - slashableAmount p.stake
        active := if p.stake - slashableAmount p.stake = 0 then false else p.active })
      (by simp) (congrArg Council.provider hcouncil) (congrArg Council.providerList hcouncil)
      (congrArg Council.threshold hcouncil)
    rcases hclamped with hkept | ⟨hinactive, hclamped⟩
    · exact .inl hkept
    · by_cases hzero : p.stake - slashableAmount p.stake = 0
      · exact .inr ⟨rfl, ⟨p, hp, hzero⟩, hclamped⟩
      · -- with some stake left the provider is as active as it was
        dsimp only at hinactive
        rw [if_neg hzero] at hinactive
        have hbefore := hclamped.before
        simp only [isActive, hp, hinactive] at hbefore
        cases hbefore

/-- **What moves the threshold.** The admin sets it, or a call that deactivates a provider clamps
it. -/
theorem Move.threshold_change (hE : Electorate (council s))
    (hmove : Move now own regs regs' s s' op) :
    s'.signatureThreshold = s.signatureThreshold ∨
    (∃ caller threshold nonce, op = .setSignatureThreshold caller threshold nonce ∧
      s.admin = some caller) ∨
    ∃ v, op.Retires s v ∧ Clamped s s' v := by
  have hkept : ∀ {c : Council}, council s' = c → c.threshold = s.signatureThreshold →
      s'.signatureThreshold = s.signatureThreshold := by
    rintro c rfl hthreshold
    exact hthreshold
  cases hmove with
  | idle _ hcouncil _ _ _ => exact .inl (hkept hcouncil rfl)
  | challenge _ _ hcouncil _ _ _ => exact .inl (hkept hcouncil rfl)
  | expire _ _ hcouncil _ _ _ =>
    rw [Council.refund_eq] at hcouncil
    exact .inl (hkept hcouncil rfl)
  | setThreshold hadmin _ _ => exact .inr (.inl ⟨_, _, _, rfl, hadmin⟩)
  | @remove _ v _ p _ hp hamends =>
    have hcouncil := hamends.council
    have hclamped := clamped_of_reconcile hE rfl rfl hp
      (p := { p with active := false }) (fun hactive => absurd hactive Bool.false_ne_true)
      (congrArg Council.provider hcouncil) (congrArg Council.providerList hcouncil)
      (congrArg Council.threshold hcouncil)
    rcases hclamped with hsame | ⟨-, hclamped⟩
    · exact .inl hsame
    · exact .inr (.inr ⟨v, rfl, hclamped⟩)
  | rule _ hverdict =>
    rcases hverdict.outcome.clamped hE rfl rfl rfl with hsame | ⟨hrejected, hzero, hclamped⟩
    · exact .inl hsame
    · exact .inr (.inr ⟨_, ⟨hrejected, ⟨_, hverdict.report, rfl⟩, hzero⟩, hclamped⟩)
  | @concur _ _ uphold _ _ _ hmay _ hverdict =>
    rcases hverdict.outcome.clamped (hE.cast (hmay.unvoted _)) rfl rfl rfl with
      hsame | ⟨hrejected, hzero, hclamped⟩
    · exact .inl hsame
    · have hside : uphold = false := by
        cases uphold with
        | true => cases hrejected
        | false => rfl
      exact .inr (.inr ⟨_, ⟨hside, ⟨_, hverdict.report, rfl⟩, hzero⟩, hclamped⟩)
  | register _ _ hamends | vote _ _ hamends | addStake _ _ _ hamends
  | withdrawStake _ _ _ _ hamends | depositBond _ _ hamends | withdrawBond _ _ hamends
  | setRegistry _ hamends | propose _ hamends | cancel _ _ hamends | accept _ _ _ hamends =>
    exact .inl (hkept hamends.council rfl)

end Move

end OracleConsumer
end NbsBond
