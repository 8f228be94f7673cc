import NbsBond.OracleConsumer.Electorate

/-!
# The admin and the active providers

The admin decides reports in its own name, the active providers decide them by consensus.
`Move.roles` says how the two roles move: a call leaves the admin alone unless it accepts a proposed
transfer, and makes nobody an active provider unless it registers that address.

Nothing in the contract keeps the roles apart: the admin may register itself, and a provider may
become admin. `Separate` says that they are apart, and that no signature of the admin waits on an
undecided report; `Op.Separates` is what a call has to respect for it to stay so.
-/

namespace NbsBond
namespace OracleConsumer

open Soroban Int128

/-! ### How the roles move -/

/-- The admin is the same and nobody has become an active provider. -/
structure SameRoles (s s' : State) : Prop where
  admin : s'.admin = s.admin
  active : ∀ a, isActive s' a = true → isActive s a = true

/-- A call that leaves the admin and the table of providers alone. -/
theorem SameRoles.of_eq {s s' : State} (hadmin : s'.admin = s.admin)
    (hprovider : s'.provider = s.provider) : SameRoles s s' := by
  refine ⟨hadmin, fun a ha => ?_⟩
  unfold isActive at ha ⊢
  rwa [hprovider] at ha

/-- A call that rewrites one entry without waking it up. -/
theorem SameRoles.of_update {s s' : State} {v : Address} {p q : OracleProvider}
    (hadmin : s'.admin = s.admin) (hv : s.provider v = some p)
    (hprovider : s'.provider = Function.update s.provider v (some q))
    (hactive : q.active = true → p.active = true) : SameRoles s s' := by
  refine ⟨hadmin, fun a ha => ?_⟩
  unfold isActive at ha ⊢
  rw [hprovider] at ha
  -- only the entry of `v` can have changed its activity
  by_cases hav : a = v
  · subst hav
    rw [Function.update_self] at ha
    rw [hv]
    exact hactive ha
  · rwa [Function.update_of_ne hav] at ha

/-- A decision deactivates at most. -/
theorem SameRoles.of_outcome {now : ℕ} {own : Address} {regs regs' : Registries} {s s' : State}
    {c : Council} {locked : ℤ} {r : ReportId} {rep : Report} {ch : Challenge}
    {resolution : ReportStatus}
    (h : Outcome now own regs c locked r rep ch resolution (council s') regs')
    (hadmin : c.admin = s.admin) (hprovider : c.provider = s.provider) : SameRoles s s' := by
  obtain ⟨hadmin', -⟩ := h.keeps
  refine ⟨hadmin'.trans hadmin, fun a ha => ?_⟩
  have hbefore : c.isActive a = true := h.active_before ha
  unfold Council.isActive at hbefore
  rwa [hprovider] at hbefore

/-- How a committed call moves the roles. -/
inductive RoleStep (s s' : State) : Op → Prop
  | same {op : Op} (h : SameRoles s s') : RoleStep s s' op
  /-- A new provider; the admin is not asked to be somebody else. -/
  | register {caller provider : Address} {methodology : String} {nonce : ℕ}
      (hadmin : s'.admin = s.admin)
      (hactive : ∀ a, isActive s' a = true → isActive s a = true ∨ a = provider) :
      RoleStep s s' (.registerProvider caller provider methodology nonce)
  /-- The candidate of a proposed transfer takes over. -/
  | accept {caller : Address} {nonce : ℕ} (hadmin : s'.admin = some caller)
      (hprovider : s'.provider = s.provider) (hdocket : docket s' = docket s) :
      RoleStep s s' (.acceptAdminTransfer caller nonce)

/-- **What a call can do to the roles.** -/
theorem Move.roles {now : ℕ} {own : Address} {regs regs' : Registries} {s s' : State} {op : Op}
    (hmove : Move now own regs regs' s s' op) : RoleStep s s' op := by
  -- both roles, read off the new council
  have hsame : ∀ {c : Council}, council s' = c → c.admin = s.admin → c.provider = s.provider →
      RoleStep s s' op := fun hcouncil hadmin hprovider =>
    .same (.of_eq ((congrArg Council.admin hcouncil).trans hadmin)
      ((congrArg Council.provider hcouncil).trans hprovider))
  cases hmove with
  | idle _ hcouncil _ _ _ => exact hsame hcouncil rfl rfl
  | challenge _ _ hcouncil _ _ _ => exact hsame hcouncil rfl rfl
  | expire _ _ hcouncil _ _ _ =>
    rw [Council.refund_eq] at hcouncil
    exact hsame hcouncil rfl rfl
  -- decisions, which replace no admin
  | rule _ hverdict => exact .same (.of_outcome hverdict.outcome rfl rfl)
  | concur _ _ hverdict => exact .same (.of_outcome hverdict.outcome rfl rfl)
  | @register _ provider _ _ _ _ hamends =>
    have hprovider := congrArg Council.provider hamends.council
    refine .register (congrArg Council.admin hamends.council) fun a ha => ?_
    -- registration activates nobody but the provider it names
    by_cases hne : a = provider
    · exact Or.inr hne
    · refine Or.inl ?_
      change (council s').isActive a = true at ha
      unfold Council.isActive at ha
      rw [hprovider] at ha
      exact (Council.isActive_setProvider_of_ne (c := council s) hne).symm.trans ha
  | remove _ hp hamends =>
    -- deactivated, and moving a stake keeps the activity
    exact .same (.of_update (congrArg Council.admin hamends.council) hp
      (congrArg Council.provider hamends.council) nofun)
  | addStake _ hp _ hamends | withdrawStake _ hp _ _ hamends =>
    exact .same (.of_update (congrArg Council.admin hamends.council) hp
      (congrArg Council.provider hamends.council) id)
  | vote _ _ hamends | setThreshold _ _ hamends | depositBond _ _ hamends
  | withdrawBond _ _ hamends | setRegistry _ hamends | propose _ hamends | cancel _ _ hamends =>
    exact hsame hamends.council rfl rfl
  | accept _ _ _ hamends =>
    exact .accept (congrArg Council.admin hamends.council)
      (congrArg Council.provider hamends.council) hamends.docket

/-! ### Keeping them apart -/

/-- `a` has signed a report that is not decided yet. -/
def Awaited (s : State) (a : Address) : Prop :=
  ∃ r rep, s.report r = some rep ∧ (rep.status = .pending ∨ rep.status = .challenged) ∧
    a ∈ s.reportVerifiers r

/-- The admin is no active provider, and no signature of it waits on an undecided report. -/
def Separate (s : State) : Prop :=
  ∀ a, s.admin = some a → isActive s a = false ∧ ¬ Awaited s a

/-- The admin is not registered as a provider, and nobody becomes admin who is an active provider
or has a signature on an undecided report. -/
def Op.Separates (s : State) : Op → Prop
  | .registerProvider _ provider _ _ => s.admin ≠ some provider
  | .acceptAdminTransfer caller _ => isActive s caller = false ∧ ¬ Awaited s caller
  | _ => True

/-- A signature that waits after a call waited before it, or is the caller's own and new. -/
theorem Step.awaited {now : ℕ} {s s' : State} {op : Op} (hL : LifeCycle (docket s))
    (hstep : Step now s (docket s') op) {a : Address} (ha : Awaited s' a) :
    Awaited s a ∨ isActive s a = true := by
  obtain ⟨r, rep', hrep', hopen', ha⟩ := ha
  by_cases hold : a ∈ s.reportVerifiers r
  swap
  -- signatures are given by active providers only
  · obtain ⟨-, -, hactive⟩ := hstep.new_verifier ha hold
    exact Or.inr hactive
  refine Or.inl ?_
  -- a report with a signature is on record, and only an undecided one is undecided afterwards
  cases hrep : s.report r with
  | none =>
    have hnil : s.reportVerifiers r = [] := (hL.unused r hrep).2
    rw [hnil] at hold
    exact absurd hold List.not_mem_nil
  | some rep =>
    obtain ⟨rep₁, hrep₁, -, hchange⟩ := hstep.report_change hL hrep
    change s'.report r = some rep₁ at hrep₁
    rw [hrep'] at hrep₁
    cases hrep₁
    refine ⟨r, rep, hrep, ?_, hold⟩
    rcases hchange with rfl | hallowed
    · exact hopen'
    -- no move starts from a final status
    · cases hstatus : rep.status with
      | pending => exact Or.inl rfl
      | challenged => exact Or.inr rfl
      | verified => exact absurd hstatus hallowed.source.1
      | rejected => exact absurd hstatus hallowed.source.2

theorem Separate.initial (admin : Address) : Separate (construct admin) := by
  intro a _
  refine ⟨rfl, ?_⟩
  rintro ⟨r, rep, hrep, -⟩
  cases hrep

/-- **One call** that respects the separation keeps it. The guard is on registrations and on
handovers of the admin role. -/
theorem Separate.step {now : ℕ} {s s' : State} {op : Op} (hS : Separate s)
    (hL : LifeCycle (docket s)) (hroles : RoleStep s s' op) (hstep : Step now s (docket s') op)
    (hop : op.Separates s) : Separate s' := by
  intro a hadmin
  cases hroles with
  | same hsame =>
    -- the admin is the one of before, and was no active provider
    rw [hsame.admin] at hadmin
    obtain ⟨hidle, hnot⟩ := hS a hadmin
    refine ⟨?_, fun hawaited => ?_⟩
    · rw [← Bool.not_eq_true] at hidle ⊢
      exact fun h => hidle (hsame.active a h)
    · -- a report newly waits for a provider only when that provider is active
      rcases hstep.awaited hL hawaited with h | h
      · exact hnot h
      · rw [hidle] at h
        cases h
  | @register caller provider methodology nonce hsame hactive =>
    -- the condition on the call keeps the new provider apart from the admin
    rw [hsame] at hadmin
    obtain ⟨hidle, hnot⟩ := hS a hadmin
    refine ⟨?_, fun hawaited => ?_⟩
    · rw [← Bool.not_eq_true] at hidle ⊢
      intro h
      rcases hactive a h with h | rfl
      · exact hidle h
      · exact hop hadmin
    · rcases hstep.awaited hL hawaited with h | h
      · exact hnot h
      · rw [hidle] at h
        cases h
  | @accept caller nonce hnew hprovider hdocket =>
    -- the new admin is judged by the condition on the call
    rw [hnew] at hadmin
    cases hadmin
    refine ⟨?_, fun hawaited => hop.2 ?_⟩
    · unfold isActive
      rw [hprovider]
      exact hop.1
    · obtain ⟨r, rep, hrep, hopen, hmem⟩ := hawaited
      change (docket s').report r = some rep at hrep
      change a ∈ (docket s').verifiers r at hmem
      rw [hdocket] at hrep hmem
      exact ⟨r, rep, hrep, hopen, hmem⟩

end OracleConsumer
end NbsBond
