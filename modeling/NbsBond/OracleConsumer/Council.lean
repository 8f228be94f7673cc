import NbsBond.OracleConsumer.LifeCycle

/-!
# The council of providers

What the `Docket` leaves out: the admin and its designated successor, the providers with their stake
and slashing history, the signature threshold, the votes on challenges, the balances of challenge
bonds, and the registry the contract points at. This is the `Council`.

`move_of_exec` says once what a committed call does to it, together with the conditions under which
it does so and what the same call does to the docket and the registries. A decided challenge reaches
into all three: `Verdict` is the decision, whoever took it.
-/

namespace NbsBond
namespace OracleConsumer

open Soroban Int128

/-- Admin, providers, votes, free bonds and the configured registry. -/
structure Council where
  admin : Option Address
  pendingAdmin : Option PendingAdminChange
  provider : Address → Option OracleProvider
  providerList : List Address
  threshold : ℕ
  votes : ReportId × Bool → List Address
  bondBalance : Address → ℤ
  slashHistory : Address → List SlashRecord
  registry : Option Address
  registryNonce : ℕ

/-- The council of a storage state. -/
def council (s : State) : Council where
  admin := s.admin
  pendingAdmin := s.pendingAdmin
  provider := s.provider
  providerList := s.providerList
  threshold := s.signatureThreshold
  votes k := votes s k.1 k.2
  bondBalance := s.challengeBondBalance
  slashHistory := s.slashHistory
  registry := s.projectRegistry
  registryNonce := s.projectRegistryNonce

namespace Council

variable (c : Council)

/-- A provider entry that exists and is active. -/
def isActive (a : Address) : Bool :=
  match c.provider a with
  | some p => p.active
  | none => false

def activeCount : ℕ := c.providerList.countP c.isActive

/-- Write one provider entry. -/
def setProvider (v : Address) (p : OracleProvider) : Council :=
  { c with provider := Function.update c.provider v (some p) }

/-- Keep the threshold within the active providers. -/
def reconcile : Council := { c with threshold := min c.threshold (max c.activeCount 1) }

/-- Record a vote. -/
def cast (r : ReportId) (a : Address) (uphold : Bool) : Council :=
  { c with votes := Function.update c.votes (r, uphold) (c.votes (r, uphold) ++ [a]) }

/-- Set the free bond of an address. -/
def setBond (a : Address) (balance : ℤ) : Council :=
  { c with bondBalance := Function.update c.bondBalance a balance }

/-- Return what is released of a bond, when `locked` is locked. -/
def refund (a : Address) (bond locked : ℤ) : Council :=
  -- no more is returned than is locked
  if bond ≤ 0 then c else c.setBond a (wrap (c.bondBalance a + min bond locked))

/-- Take the penalty for report `r` off the stake of `v`, whose entry is `p`, and record it. -/
def slash (now : ℕ) (v : Address) (p : OracleProvider) (r : ReportId) : Council :=
  let stake := p.stake - slashableAmount p.stake
  let active := if stake = 0 then false else p.active
  { (c.setProvider v { p with stake, active }).reconcile with
    slashHistory := Function.update c.slashHistory v
      (c.slashHistory v ++ [⟨r, slashableAmount p.stake, stake, now, active⟩]) }

/-- Count a revocation, when a registry is configured. -/
def countRevocation : Council :=
  match c.registry with
  | none => c
  | some _ => { c with registryNonce := c.registryNonce + 1 }

variable {c}

/-- A refund touches the free bonds only. -/
theorem refund_eq (a : Address) (bond locked : ℤ) :
    c.refund a bond locked = { c with bondBalance := (c.refund a bond locked).bondBalance } := by
  unfold refund
  split <;> rfl

/-- Counting a revocation touches the registry nonce only. -/
theorem countRevocation_eq :
    c.countRevocation = { c with registryNonce := c.countRevocation.registryNonce } := by
  unfold countRevocation
  split <;> rfl

theorem countRevocation_none (h : c.registry = none) : c.countRevocation = c := by
  unfold countRevocation
  split
  · rfl
  · next hsome =>
    rw [h] at hsome
    cases hsome

theorem countRevocation_some {registryId : Address} (h : c.registry = some registryId) :
    c.countRevocation = { c with registryNonce := c.registryNonce + 1 } := by
  unfold countRevocation
  split
  · next hnone =>
    rw [h] at hnone
    cases hnone
  · rfl

end Council

/-! ### The helpers of the contract, on the council -/

section Helpers

variable (s : State)

theorem council_releaseReportLock (v : Address) (r : ReportId) :
    council (releaseReportLock s v r) = council s := by
  unfold releaseReportLock
  dsimp only
  split <;> rfl

theorem council_addVerifier (r : ReportId) (a : Address) :
    council (addVerifier s r a) = council s := by
  unfold addVerifier
  dsimp only
  split <;> rfl

theorem council_verifyIfReached (now : ℕ) (r : ReportId) (rep : Report) :
    council (verifyIfReached now s r rep) = council s := by
  unfold verifyIfReached
  split
  -- a verified report gives its stake lock back, and locks are in the docket
  · exact council_releaseReportLock _ _ _
  · rfl

theorem council_addVote (r : ReportId) (a : Address) (uphold : Bool) :
    council (addVote s r a uphold) = (council s).cast r a uphold := by
  have hvotes : (council (addVote s r a uphold)).votes = Function.update (council s).votes
      (r, uphold) ((council s).votes (r, uphold) ++ [a]) := by
    funext ⟨r', side⟩
    -- the two lists of report `r`, of which one takes the vote, and those of another report
    by_cases hr : r' = r
    · subst hr
      cases uphold <;> cases side <;> simp [council, addVote, votes]
    · cases uphold <;> cases side <;> simp [council, addVote, votes, hr]
  unfold Council.cast
  rw [← hvotes]
  unfold addVote
  split <;> rfl

theorem council_settleChallengeBond (a : Address) (bond : ℤ) (refund : Bool) :
    council (settleChallengeBond s a bond refund) =
      if refund then (council s).refund a bond (s.challengeBondLock a) else council s := by
  unfold settleChallengeBond Council.refund
  by_cases h : bond ≤ 0
  · rw [if_pos h, if_pos h]
    cases refund <;> rfl
  · rw [if_neg h, if_neg h]
    cases refund <;> rfl

end Helpers

theorem council_slashProvider {now : ℕ} {s s' : State} {v : Address} {r : ReportId}
    (h : slashProvider now s v r = .ok s') :
    ∃ p, (council s).provider v = some p ∧ council s' = (council s).slash now v p r := by
  simp only [slashProvider, bind_eq_ok, orTrap_eq_ok, pure_eq_ok] at h
  obtain ⟨p, hp, rfl⟩ := h
  exact ⟨p, hp, rfl⟩

/-! ### Deciding a challenge -/

/-- What a rejection does to the registries: nothing when none is configured, else the project of
the report is revoked under the oracle's own address. -/
inductive Revokes (self : Address) (c : Council) (projectId : ℕ) (regs : Registries) :
    Registries → Prop
  | unconfigured (hregistry : c.registry = none) : Revokes self c projectId regs regs
  | revoked {registryId : Address} {registry registry' : ProjectRegistry.State}
      (hregistry : c.registry = some registryId) (hdeployed : regs registryId = some registry)
      (hrevoke : ProjectRegistry.revokeProject registry self projectId c.registryNonce =
        .ok registry') :
      Revokes self c projectId regs (Function.update regs registryId (some registry'))

/-- The effect of a decision on the council `c` and the registries. An upheld report keeps both as
they are; a rejected one costs its provider a penalty, its project the approval, and returns the
challenger's bond, of which `locked` is locked. -/
inductive Outcome (now : ℕ) (self : Address) (regs : Registries) (c : Council) (locked : ℤ)
    (r : ReportId) (rep : Report) (ch : Challenge) :
    ReportStatus → Council → Registries → Prop
  | upheld : Outcome now self regs c locked r rep ch .verified c regs
  | rejected {p : OracleProvider} {regs' : Registries}
      (hprovider : c.provider rep.provider = some p)
      (hrevokes : Revokes self c rep.projectId regs regs') :
      Outcome now self regs c locked r rep ch .rejected
        (((c.slash now rep.provider p r).countRevocation).refund ch.challenger ch.bond locked)
        regs'

/-- The decision of the open challenge of report `r`, starting from the docket `d` and the
council `c`. -/
structure Verdict (now : ℕ) (own : Address) (regs regs' : Registries) (d : Docket) (c : Council)
    (s' : State) (r : ReportId) (rep : Report) (ch : Challenge) (resolution : ReportStatus) :
    Prop where
  challenge : d.challenge r = some ch
  opened : ch.resolved = false
  report : d.report r = some rep
  docket : docket s' = d.resolve now r rep ch resolution
  outcome : Outcome now own regs c (d.bondLock ch.challenger) r rep ch resolution (council s')
    regs'

theorem revokeProject_revokes {self : Address} {regs regs' : Registries} {s s' : State}
    {projectId : ℕ} (h : revokeProject self regs s projectId = .ok (s', regs')) :
    Revokes self (council s) projectId regs regs' ∧ council s' = (council s).countRevocation := by
  unfold revokeProject at h
  split at h
  · next hregistry =>
    -- without a registry the penalty stands and nothing else happens
    cases h
    exact ⟨.unconfigured hregistry, (Council.countRevocation_none hregistry).symm⟩
  · next registryId hregistry =>
    -- a revocation that fails takes the whole call down, so this one succeeded
    simp only [bind_eq_ok, orTrap_eq_ok, toOption_eq_some, pure_eq_ok, Prod.mk.injEq] at h
    obtain ⟨registry, hdeployed, registry', hrevoke, rfl, rfl⟩ := h
    refine ⟨.revoked hregistry hdeployed hrevoke, ?_⟩
    rw [Council.countRevocation_some (c := council s) hregistry]
    rfl

/-- A slash touches neither the registry nor its nonce. -/
theorem Revokes.of_slash {now : ℕ} {self v : Address} {c : Council} {p : OracleProvider}
    {r : ReportId} {projectId : ℕ} {regs regs' : Registries}
    (h : Revokes self (c.slash now v p r) projectId regs regs') :
    Revokes self c projectId regs regs' := by
  cases h with
  | unconfigured hregistry => exact .unconfigured hregistry
  | revoked hregistry hdeployed hrevoke => exact .revoked hregistry hdeployed hrevoke

/-- **`finalize_challenge`** does nothing to a resolved challenge and decides an open one. -/
theorem finalizeChallenge_verdict {now : ℕ} {self : Address} {regs regs' : Registries}
    {s s' : State} {r : ReportId} {resolution : ReportStatus}
    (hresolution : resolution = .verified ∨ resolution = .rejected)
    (h : finalizeChallenge now self regs s r resolution = .ok (s', regs')) :
    (s' = s ∧ regs' = regs ∧ ∃ ch, s.challenge r = some ch ∧ ch.resolved = true) ∨
      ∃ rep ch, Verdict now self regs regs' (docket s) (council s) s' r rep ch resolution := by
  have hdocket := finalizeChallenge_ok h
  simp only [finalizeChallenge, bind_eq_ok, orError_eq_ok] at h
  obtain ⟨ch, hch, h⟩ := h
  split at h
  · next hres =>
    -- already resolved: the call commits and changes nothing
    cases h
    exact Or.inl ⟨rfl, rfl, ch, hch, hres⟩
  next hopen =>
  simp only [bind_eq_ok, orError_eq_ok, pure_eq_ok, Prod.mk.injEq] at h
  obtain ⟨rep, hrep, ⟨s₁, regs₁⟩, hpunish, rfl, rfl⟩ := h
  refine Or.inr ⟨rep, ch, hch, Bool.eq_false_iff.mpr hopen, hrep, ?_, ?_⟩
  · rw [docket_settleChallengeBond, docket_punish hpunish, docket_releaseReportLock]
    rfl
  -- the locked bond is what it was before the decision
  have hlock : s₁.challengeBondLock = (docket s).bondLock := by
    have hpunished := congrArg Docket.bondLock (docket_punish hpunish)
    rw [docket_releaseReportLock, Docket.release_bondLock] at hpunished
    exact hpunished
  rw [council_settleChallengeBond, hlock]
  unfold punish at hpunish
  rcases hresolution with rfl | rfl
  · rw [if_neg (by decide)] at hpunish
    cases hpunish
    rw [if_neg (by decide), council_releaseReportLock]
    exact .upheld
  · rw [if_pos rfl, bind_eq_ok] at hpunish
    obtain ⟨s₂, hslash, hrevoke⟩ := hpunish
    obtain ⟨p, hp, hslashed⟩ := council_slashProvider hslash
    obtain ⟨hrevokes, hcounted⟩ := revokeProject_revokes hrevoke
    rw [council_releaseReportLock] at hp hslashed
    rw [if_pos (by decide), hcounted, hslashed]
    rw [hslashed] at hrevokes
    exact .rejected hp hrevokes.of_slash

/-! ### The moves -/

/-- The council becomes `c`, and the call touches neither the docket nor a registry. -/
structure Amends (regs regs' : Registries) (s s' : State) (c : Council) : Prop where
  council : council s' = c
  docket : docket s' = docket s
  registries : regs' = regs

/-- A vote by `caller` on the open challenge of report `r` is admissible: an active provider, not
the one who submitted the report, who has not voted yet. -/
structure MayVote (s : State) (caller : Address) (r : ReportId) : Prop where
  active : isActive s caller = true
  foreign : ∃ rep, s.report r = some rep ∧ caller ≠ rep.provider
  unvoted : ∀ side, caller ∉ votes s r side

/-- The calls that may leave the council as it is. -/
def Op.MayIdle : Op → Bool
  | .submitReport .. => true
  | .verifyReport .. => true
  | .adminOverrideReport .. => true
  | .resolveChallenge .. => true
  | .expireStaleChallenge .. => true
  | _ => false

/-- The effect of a committed call on the council. -/
inductive Move (now : ℕ) (self : Address) (regs regs' : Registries) (s s' : State) : Op → Prop
  /-- The council is untouched, and so are the challenges and the bonds locked for them. -/
  | idle {op : Op} (hop : op.MayIdle = true) (hcouncil : council s' = council s)
      (hchallenge : s'.challenge = s.challenge)
      (hlocked : s'.challengeBondLock = s.challengeBondLock) (hregs : regs' = regs) :
      Move now self regs regs' s s' op
  /-- A new active provider without stake. -/
  | register {caller provider : Address} {methodology : String} {nonce : ℕ}
      (hadmin : s.admin = some caller) (hnew : s.provider provider = none)
      (hamends : Amends regs regs' s s'
        { (council s).setProvider provider ⟨provider, methodology, 0, true, now⟩ with
          providerList := s.providerList ++ [provider] }) :
      Move now self regs regs' s s' (.registerProvider caller provider methodology nonce)
  /-- A provider is deactivated. -/
  | remove {caller provider : Address} {nonce : ℕ} {p : OracleProvider}
      (hadmin : s.admin = some caller) (hp : s.provider provider = some p)
      (hamends : Amends regs regs' s s'
        ((council s).setProvider provider { p with active := false }).reconcile) :
      Move now self regs regs' s s' (.removeProvider caller provider nonce)
  /-- A challenge is opened and its bond taken from the free balance. -/
  | challenge {challenger : Address} {r : ReportId} {hash : Bytes32} {nonce : ℕ}
      (hnew : s.challenge r = none)
      (hbalance : challengeBond ≤ s.challengeBondBalance challenger)
      (hcouncil : council s' = (council s).setBond challenger
        (s.challengeBondBalance challenger - challengeBond))
      (hchallenge : s'.challenge = Function.update s.challenge r
        (some ⟨r, challenger, hash, now, false, 0, challengeBond⟩))
      (hlocked : s'.challengeBondLock = Function.update s.challengeBondLock challenger
        (s.challengeBondLock challenger + challengeBond)) (hregs : regs' = regs) :
      Move now self regs regs' s s' (.challengeReport challenger r hash nonce)
  /-- The admin decides an open challenge. -/
  | rule {caller : Address} {r : ReportId} {resolution : ReportStatus} {nonce : ℕ} {rep : Report}
      {ch : Challenge} (hadmin : s.admin = some caller)
      (hverdict : Verdict now self regs regs' (docket s) (council s) s' r rep ch resolution) :
      Move now self regs regs' s s' (.resolveChallenge caller r resolution nonce)
  /-- A vote, short of the supermajority. -/
  | vote {caller : Address} {r : ReportId} {uphold : Bool} {nonce : ℕ}
      (hmay : MayVote s caller r)
      (hshort : (votes s r uphold).length + 1 < supermajorityThreshold (activeProviderCount s))
      (hamends : Amends regs regs' s s' ((council s).cast r caller uphold)) :
      Move now self regs regs' s s' (.resolveChallengeByVerifier caller r uphold nonce)
  /-- The vote that completes the supermajority and decides the challenge. -/
  | concur {caller : Address} {r : ReportId} {uphold : Bool} {nonce : ℕ} {rep : Report}
      {ch : Challenge} (hmay : MayVote s caller r)
      (hreached : supermajorityThreshold (activeProviderCount s) ≤
        (votes s r uphold).length + 1)
      (hverdict : Verdict now self regs regs' (docket s) ((council s).cast r caller uphold) s' r
        rep ch (if uphold then .verified else .rejected)) :
      Move now self regs regs' s s' (.resolveChallengeByVerifier caller r uphold nonce)
  /-- A stale challenge lapses and its bond is returned. -/
  | expire {r : ReportId} {ch : Challenge} (hch : s.challenge r = some ch)
      (hopen : ch.resolved = false)
      (hcouncil : council s' =
        (council s).refund ch.challenger ch.bond (s.challengeBondLock ch.challenger))
      (hchallenge : s'.challenge =
        Function.update s.challenge r (some { ch with resolved := true }))
      (hlocked : s'.challengeBondLock = ((docket s).settleBond ch.challenger ch.bond).bondLock)
      (hregs : regs' = regs) : Move now self regs regs' s s' (.expireStaleChallenge r)
  /-- The admin sets the threshold, within the active providers. -/
  | setThreshold {caller : Address} {threshold nonce : ℕ} (hadmin : s.admin = some caller)
      (hrange : threshold ≠ 0 ∧ threshold ≤ activeProviderCount s)
      (hamends : Amends regs regs' s s' { council s with threshold := threshold }) :
      Move now self regs regs' s s' (.setSignatureThreshold caller threshold nonce)
  | addStake {provider : Address} {amount : ℤ} {nonce : ℕ} {p : OracleProvider}
      (hpos : 0 < amount) (hp : s.provider provider = some p)
      (hrange : InRange (p.stake + amount))
      (hamends : Amends regs regs' s s'
        ((council s).setProvider provider { p with stake := p.stake + amount })) :
      Move now self regs regs' s s' (.addStake provider amount nonce)
  | withdrawStake {provider : Address} {amount : ℤ} {nonce : ℕ} {p : OracleProvider}
      (hpos : 0 < amount) (hp : s.provider provider = some p) (hle : amount ≤ p.stake)
      (hfree : s.lockedStake provider ≤ p.stake - amount)
      (hamends : Amends regs regs' s s'
        ((council s).setProvider provider { p with stake := p.stake - amount })) :
      Move now self regs regs' s s' (.withdrawStake provider amount nonce)
  | depositBond {caller : Address} {amount : ℤ} {nonce : ℕ} (hpos : 0 < amount)
      (hrange : InRange (s.challengeBondBalance caller + amount))
      (hamends : Amends regs regs' s s'
        ((council s).setBond caller (s.challengeBondBalance caller + amount))) :
      Move now self regs regs' s s' (.depositChallengeBond caller amount nonce)
  | withdrawBond {caller : Address} {amount : ℤ} {nonce : ℕ} (hpos : 0 < amount)
      (hle : amount ≤ s.challengeBondBalance caller)
      (hamends : Amends regs regs' s s'
        ((council s).setBond caller (s.challengeBondBalance caller - amount))) :
      Move now self regs regs' s s' (.withdrawChallengeBond caller amount nonce)
  /-- The admin points the contract at a registry, and the nonce starts over. -/
  | setRegistry {caller registryId : Address} {nonce : ℕ} (hadmin : s.admin = some caller)
      (hamends : Amends regs regs' s s'
        { council s with registry := some registryId, registryNonce := 0 }) :
      Move now self regs regs' s s' (.setProjectRegistry caller registryId nonce)
  | propose {caller candidate : Address} {nonce : ℕ} (hadmin : s.admin = some caller)
      (hamends : Amends regs regs' s s' { council s with
        pendingAdmin := some ⟨candidate, (now + adminTransferTimelockSeconds) % 2 ^ 64⟩ }) :
      Move now self regs regs' s s' (.proposeAdminTransfer caller candidate nonce)
  | cancel {caller : Address} {nonce : ℕ} (hadmin : s.admin = some caller)
      (hpending : s.pendingAdmin ≠ none)
      (hamends : Amends regs regs' s s' { council s with pendingAdmin := none }) :
      Move now self regs regs' s s' (.cancelAdminTransfer caller nonce)
  | accept {caller : Address} {nonce : ℕ} {pending : PendingAdminChange}
      (hpending : s.pendingAdmin = some pending) (hcandidate : caller = pending.candidate)
      (hdue : pending.executableAt ≤ now)
      (hamends : Amends regs regs' s s'
        { council s with admin := some caller, pendingAdmin := none }) :
      Move now self regs regs' s s' (.acceptAdminTransfer caller nonce)

section Exec

variable {now : ℕ} {self : Address} {regs regs' : Registries} {s s' : State}

theorem challengeReport_move {challenger : Address} {r : ReportId} {hash : Bytes32} {nonce : ℕ}
    (h : challengeReport now s challenger r hash nonce = .ok s') :
    Move now self regs regs s s' (.challengeReport challenger r hash nonce) := by
  simp only [challengeReport, chargeChallengeBond, bind_eq_ok, ensure_eq_ok, pure_eq_ok] at h
  obtain ⟨_, -, _, hnew, rep, -, _, -, _, -, _, -, s₁, ⟨_, hbalance, rfl⟩, rfl⟩ := h
  exact .challenge hnew hbalance rfl rfl rfl rfl

theorem expireStaleChallenge_move {r : ReportId} (h : expireStaleChallenge now s r = .ok s') :
    Move now self regs regs s s' (.expireStaleChallenge r) := by
  simp only [expireStaleChallenge, bind_eq_ok, orError_eq_ok] at h
  obtain ⟨ch, hch, h⟩ := h
  split at h
  · cases h
    exact .idle rfl rfl rfl rfl rfl
  next hres =>
  simp only [bind_eq_ok, pure_eq_ok] at h
  obtain ⟨_, -, rep, -, _, -, rfl⟩ := h
  refine .expire hch (Bool.eq_false_iff.mpr hres) ?_ ?_ ?_ rfl
  · rw [council_settleChallengeBond, if_pos rfl]
    rfl
  -- the resolved flag is set before the bond is settled
  · show (docket (settleChallengeBond _ _ _ _)).challenge = _
    rw [docket_settleChallengeBond, Docket.settleBond_challenge]
    rfl
  · show (docket (settleChallengeBond _ _ _ _)).bondLock = _
    rw [docket_settleChallengeBond]
    unfold Docket.settleBond
    split <;> rfl

theorem resolveChallengeByVerifier_move {caller : Address} {r : ReportId} {uphold : Bool}
    {nonce : ℕ}
    (h : resolveChallengeByVerifier now self regs s caller r uphold nonce = .ok (s', regs')) :
    Move now self regs regs' s s' (.resolveChallengeByVerifier caller r uphold nonce) := by
  simp only [resolveChallengeByVerifier, bind_eq_ok, orError_eq_ok, ensure_eq_ok] at h
  obtain ⟨nonces, -, p, hp, _, hactive, ch, hch, _, hopen, rep, hrep, _, -, _, hforeign, _, huphold,
    _, hreject, h⟩ := h
  have hmay : MayVote s caller r := by
    refine ⟨by simp [isActive, hp, hactive], ⟨rep, hrep, hforeign⟩, fun side => ?_⟩
    cases side with
    | true => exact huphold
    | false => exact hreject
  -- the vote is counted before the comparison, and counts no provider
  generalize hs₂ : addVote _ r caller uphold = s₂ at h
  have hcouncil : council s₂ = (council s).cast r caller uphold := by
    rw [← hs₂, council_addVote]
    rfl
  have hdocket : docket s₂ = docket s := by
    rw [← hs₂, docket_addVote]
    rfl
  have hcount : activeProviderCount s₂ = ((council s).cast r caller uphold).activeCount :=
    congrArg Council.activeCount hcouncil
  -- the recorded votes of the side, and the one just cast
  have hlength : (votes s₂ r uphold).length = (votes s r uphold).length + 1 := by
    have hvotes : votes s₂ r uphold = ((council s).cast r caller uphold).votes (r, uphold) :=
      congrFun (congrArg Council.votes hcouncil) (r, uphold)
    rw [hvotes]
    simp [Council.cast, council]
  rw [hcount, hlength] at h
  split at h
  · next hreached =>
    have hresolution : (if uphold then ReportStatus.verified else .rejected) = .verified ∨
        (if uphold then ReportStatus.verified else .rejected) = .rejected := by
      cases uphold with
      | true => exact Or.inl rfl
      | false => exact Or.inr rfl
    obtain ⟨-, -, ch', hch', hres⟩ | ⟨rep', ch', hverdict⟩ :=
      finalizeChallenge_verdict hresolution h
    · -- the challenge was open a moment ago
      change (docket s₂).challenge r = some ch' at hch'
      rw [hdocket] at hch'
      change s.challenge r = some ch' at hch'
      rw [hch] at hch'
      cases hch'
      rw [hopen] at hres
      cases hres
    · rw [hcouncil, hdocket] at hverdict
      exact .concur hmay hreached hverdict
  · next hshort =>
    -- below the threshold the vote is all that is written
    cases h
    exact .vote hmay (not_le.mp hshort) ⟨hcouncil, hdocket, rfl⟩

/-- **What a call can do to the council.** Later invariants about the council take their cases from
here. -/
theorem move_of_exec {op : Op} {ret : Option ReportId}
    (h : exec now self regs s op = .ok ((s', regs'), ret)) :
    Move now self regs regs' s s' op := by
  cases op with
  | registerProvider caller provider methodology nonce =>
    simp only [exec, registerProvider, bind_eq_ok, requireAdmin_eq_ok, ensure_eq_ok, pure_eq_ok,
      Prod.mk.injEq] at h
    obtain ⟨_, ⟨_, -, _, hadmin, _, hnew, rfl⟩, ⟨rfl, rfl⟩, -⟩ := h
    -- the entry starts active, without stake
    exact .register hadmin hnew ⟨rfl, rfl, rfl⟩
  | removeProvider caller provider nonce =>
    simp only [exec, removeProvider, bind_eq_ok, requireAdmin_eq_ok, orError_eq_ok, pure_eq_ok,
      Prod.mk.injEq] at h
    obtain ⟨_, ⟨_, -, _, hadmin, p, hp, rfl⟩, ⟨rfl, rfl⟩, -⟩ := h
    exact .remove hadmin hp ⟨rfl, rfl, rfl⟩
  | submitReport provider projectId periodStart periodEnd carbonSequestered biodiversity
      methodology ipfsEvidenceHash nonce =>
    simp only [exec, submitReport, bind_eq_ok, pure_eq_ok, Prod.mk.injEq] at h
    obtain ⟨⟨s₁, r₁⟩, ⟨_, -, p, -, _, -, _, -, _, -, _, -, project, -, _, -, _, -, _, -, rfl, -⟩,
      ⟨rfl, rfl⟩, -⟩ := h
    -- a new report, its lock and its window all belong to the docket
    exact .idle rfl rfl rfl rfl rfl
  | verifyReport caller r nonce =>
    simp only [exec, verifyReport, bind_eq_ok, pure_eq_ok, useNonce_eq_ok, Prod.mk.injEq] at h
    obtain ⟨_, ⟨p, -, _, -, _, ⟨-, rfl⟩, rep, -, _, -, _, -, _, -, rfl⟩, ⟨rfl, rfl⟩, -⟩ := h
    -- a signature moves neither a challenge nor a bond
    generalize hs₁ : addVerifier _ r caller = s₁
    have hdocket : docket s₁ = (docket s).sign r caller := by
      rw [← hs₁, docket_addVerifier]
      rfl
    have hverified : (docket (verifyIfReached now s₁ r rep)).challenge = (docket s₁).challenge ∧
        (docket (verifyIfReached now s₁ r rep)).bondLock = (docket s₁).bondLock := by
      unfold verifyIfReached
      split
      · rw [docket_releaseReportLock, Docket.release_challenge, Docket.release_bondLock]
        exact ⟨rfl, rfl⟩
      · exact ⟨rfl, rfl⟩
    rw [hdocket, Docket.sign_challenge, Docket.sign_bondLock] at hverified
    refine .idle rfl ?_ hverified.1 hverified.2 rfl
    rw [council_verifyIfReached, ← hs₁, council_addVerifier]
    rfl
  | adminOverrideReport caller r status nonce =>
    simp only [exec, adminOverrideReport, bind_eq_ok, pure_eq_ok, Prod.mk.injEq] at h
    obtain ⟨_, ⟨_, -, _, -, _, -, rep, -, _, -, rfl⟩, ⟨rfl, rfl⟩, -⟩ := h
    exact .idle rfl rfl rfl rfl rfl
  | challengeReport challenger r hash nonce =>
    simp only [exec, bind_eq_ok, pure_eq_ok, Prod.mk.injEq] at h
    obtain ⟨s₁, h, ⟨rfl, rfl⟩, -⟩ := h
    exact challengeReport_move h
  | resolveChallenge caller r resolution nonce =>
    simp only [exec, resolveChallenge, bind_eq_ok, requireAdmin_eq_ok, ensure_eq_ok, pure_eq_ok,
      Prod.mk.injEq] at h
    obtain ⟨⟨s₁, regs₁⟩, ⟨nonces, -, _, hadmin, _, hresolution, hfinal⟩, ⟨rfl, rfl⟩, -⟩ := h
    obtain ⟨rfl, rfl, -⟩ | ⟨rep, ch, hverdict⟩ := finalizeChallenge_verdict hresolution hfinal
    · exact .idle rfl rfl rfl rfl rfl
    · exact .rule hadmin hverdict
  | resolveChallengeByVerifier caller r uphold nonce =>
    simp only [exec, bind_eq_ok, pure_eq_ok, Prod.mk.injEq] at h
    obtain ⟨⟨s₁, regs₁⟩, h, ⟨rfl, rfl⟩, -⟩ := h
    exact resolveChallengeByVerifier_move h
  | expireStaleChallenge r =>
    simp only [exec, bind_eq_ok, pure_eq_ok, Prod.mk.injEq] at h
    obtain ⟨s₁, h, ⟨rfl, rfl⟩, -⟩ := h
    exact expireStaleChallenge_move h
  | setSignatureThreshold caller threshold nonce =>
    simp only [exec, setSignatureThreshold, bind_eq_ok, requireAdmin_eq_ok, ensure_eq_ok,
      pure_eq_ok, Prod.mk.injEq] at h
    obtain ⟨_, ⟨_, -, _, hadmin, _, hrange, rfl⟩, ⟨rfl, rfl⟩, -⟩ := h
    exact .setThreshold hadmin hrange ⟨rfl, rfl, rfl⟩
  | addStake provider amount nonce =>
    simp only [exec, addStake, bind_eq_ok, ensure_eq_ok, orError_eq_ok, checkedAdd_eq_some,
      pure_eq_ok, Prod.mk.injEq] at h
    obtain ⟨_, ⟨_, -, _, hpos, p, hp, _, ⟨hrange, rfl⟩, rfl⟩, ⟨rfl, rfl⟩, -⟩ := h
    exact .addStake hpos hp hrange ⟨rfl, rfl, rfl⟩
  | withdrawStake provider amount nonce =>
    simp only [exec, withdrawStake, bind_eq_ok, ensure_eq_ok, orError_eq_ok, pure_eq_ok,
      Prod.mk.injEq] at h
    obtain ⟨_, ⟨_, -, _, hpos, p, hp, _, hle, _, hfree, rfl⟩, ⟨rfl, rfl⟩, -⟩ := h
    exact .withdrawStake hpos hp hle hfree ⟨rfl, rfl, rfl⟩
  | depositChallengeBond caller amount nonce =>
    simp only [exec, depositChallengeBond, bind_eq_ok, ensure_eq_ok, orError_eq_ok,
      checkedAdd_eq_some, pure_eq_ok, Prod.mk.injEq] at h
    obtain ⟨_, ⟨_, -, _, hpos, _, ⟨hrange, rfl⟩, rfl⟩, ⟨rfl, rfl⟩, -⟩ := h
    exact .depositBond hpos hrange ⟨rfl, rfl, rfl⟩
  | withdrawChallengeBond caller amount nonce =>
    simp only [exec, withdrawChallengeBond, bind_eq_ok, ensure_eq_ok, pure_eq_ok,
      Prod.mk.injEq] at h
    obtain ⟨_, ⟨_, -, _, hpos, _, hle, rfl⟩, ⟨rfl, rfl⟩, -⟩ := h
    exact .withdrawBond hpos hle ⟨rfl, rfl, rfl⟩
  | setProjectRegistry caller registryId nonce =>
    simp only [exec, setProjectRegistry, bind_eq_ok, requireAdmin_eq_ok, pure_eq_ok,
      Prod.mk.injEq] at h
    obtain ⟨_, ⟨_, -, _, hadmin, rfl⟩, ⟨rfl, rfl⟩, -⟩ := h
    exact .setRegistry hadmin ⟨rfl, rfl, rfl⟩
  | proposeAdminTransfer caller candidate nonce =>
    simp only [exec, proposeAdminTransfer, proposeTransfer, bind_eq_ok, requireAdmin_eq_ok,
      pure_eq_ok, Prod.mk.injEq] at h
    obtain ⟨_, ⟨_, -, _, ⟨_, hadmin, rfl⟩, rfl⟩, ⟨rfl, rfl⟩, -⟩ := h
    exact .propose hadmin ⟨rfl, rfl, rfl⟩
  | cancelAdminTransfer caller nonce =>
    simp only [exec, cancelAdminTransfer, cancelTransfer, bind_eq_ok, requireAdmin_eq_ok,
      ensure_eq_ok, pure_eq_ok, Prod.mk.injEq] at h
    obtain ⟨_, ⟨_, -, _, ⟨_, hadmin, hpending⟩, rfl⟩, ⟨rfl, rfl⟩, -⟩ := h
    exact .cancel hadmin hpending ⟨rfl, rfl, rfl⟩
  | acceptAdminTransfer caller nonce =>
    simp only [exec, acceptAdminTransfer, acceptTransfer, bind_eq_ok, orError_eq_ok, ensure_eq_ok,
      pure_eq_ok, Prod.mk.injEq] at h
    obtain ⟨_, ⟨_, -, _, ⟨pending, hpending, _, hcandidate, _, hdue, -⟩, rfl⟩, ⟨rfl, rfl⟩, -⟩ := h
    exact .accept hpending hcandidate hdue ⟨rfl, rfl, rfl⟩

end Exec

/-! ### What no decision changes -/

/-- A decision replaces neither the admin nor the registry, adds no provider and casts no vote. -/
theorem Outcome.keeps {now : ℕ} {self : Address} {regs regs' : Registries} {c c' : Council}
    {locked : ℤ} {r : ReportId} {rep : Report} {ch : Challenge} {resolution : ReportStatus}
    (h : Outcome now self regs c locked r rep ch resolution c' regs') :
    c'.admin = c.admin ∧ c'.pendingAdmin = c.pendingAdmin ∧ c'.providerList = c.providerList ∧
      c'.votes = c.votes ∧ c'.registry = c.registry := by
  cases h with
  | upheld => exact ⟨rfl, rfl, rfl, rfl, rfl⟩
  | rejected =>
    -- penalty, revocation and refund write stakes, threshold, nonce and free bonds
    rw [Council.refund_eq, Council.countRevocation_eq]
    exact ⟨rfl, rfl, rfl, rfl, rfl⟩

/-- The admin role of the contract. -/
def seat (s : State) : Seat Address := adminSeat s.admin s.pendingAdmin

/-- What a call does to the admin role. -/
def Op.act : Op → Act Address
  | .proposeAdminTransfer caller candidate _ => .propose caller candidate
  | .cancelAdminTransfer _ _ => .cancel
  | .acceptAdminTransfer caller _ => .accept caller
  | _ => .other

/-- **The admin role** follows the rules of a transfer. What the entrypoints do to the two entries
of the role is what the rules allow. -/
theorem Move.transfer {now : ℕ} {self : Address} {regs regs' : Registries} {s s' : State}
    {op : Op} (hmove : Move now self regs regs' s s' op) :
    Transfer adminTransferDeadline now (seat s) op.act (seat s') := by
  -- a call that keeps both entries keeps the role
  have hkept : (council s').admin = s.admin → (council s').pendingAdmin = s.pendingAdmin →
      Transfer adminTransferDeadline now (seat s) .other (seat s') := by
    intro hadmin hpending
    have hseat : seat s' = seat s := congrArg₂ adminSeat hadmin hpending
    rw [hseat]
    exact .other
  -- so does a decision
  have hdecided : ∀ {c c' : Council} {locked : ℤ} {r : ReportId} {rep : Report} {ch : Challenge}
      {resolution : ReportStatus}, Outcome now self regs c locked r rep ch resolution c' regs' →
      c.admin = s.admin → c.pendingAdmin = s.pendingAdmin → council s' = c' →
      Transfer adminTransferDeadline now (seat s) .other (seat s') := by
    rintro c c' locked r rep ch resolution houtcome hadmin hpending rfl
    obtain ⟨hadmin', hpending', -⟩ := houtcome.keeps
    exact hkept (hadmin'.trans hadmin) (hpending'.trans hpending)
  -- the two entries of the role, read off the new council
  have hseat : ∀ {c : Council}, council s' = c → seat s' = adminSeat c.admin c.pendingAdmin := by
    rintro c rfl
    rfl
  cases hmove with
  | @idle op hop hcouncil _ _ _ =>
    have hact : op.act = .other := by
      cases op <;> first | rfl | cases hop
    rw [hact]
    exact hkept (congrArg Council.admin hcouncil) (congrArg Council.pendingAdmin hcouncil)
  -- the decisions, after a vote or without one
  | rule _ hverdict => exact hdecided hverdict.outcome rfl rfl rfl
  | concur _ _ hverdict => exact hdecided hverdict.outcome rfl rfl rfl
  | challenge _ _ hcouncil _ _ _ =>
    exact hkept (congrArg Council.admin hcouncil) (congrArg Council.pendingAdmin hcouncil)
  | expire _ _ hcouncil _ _ _ =>
    rw [Council.refund_eq] at hcouncil
    exact hkept (congrArg Council.admin hcouncil) (congrArg Council.pendingAdmin hcouncil)
  | register _ _ hamends | remove _ _ hamends | vote _ _ hamends | setThreshold _ _ hamends
  | addStake _ _ _ hamends | withdrawStake _ _ _ _ hamends | depositBond _ _ hamends
  | withdrawBond _ _ hamends | setRegistry _ hamends =>
    exact hkept (congrArg Council.admin hamends.council)
      (congrArg Council.pendingAdmin hamends.council)
  -- the three calls of a transfer
  | propose hadmin hamends =>
    rw [hseat hamends.council]
    exact .propose hadmin
  | cancel _ _ hamends =>
    rw [hseat hamends.council]
    exact .cancel
  | accept hpending hcandidate hdue hamends =>
    rw [hseat hamends.council]
    refine .accept ?_ hdue
    show Option.map _ s.pendingAdmin = _
    rw [hpending, hcandidate]
    rfl

end OracleConsumer
end NbsBond
