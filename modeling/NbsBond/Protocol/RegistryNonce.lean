import NbsBond.OracleConsumer.Council
import NbsBond.ProjectRegistry.Authority
import NbsBond.Protocol.Model

/-!
# The nonce for the registry

`OracleConsumer` revokes the project of a rejected report under its own address, and keeps a counter
of its own for the nonce of that call. The registry keeps the other one. Nobody else acts under the
oracle's address, and both counters move in the same transaction; but `set_project_registry` starts
the oracle's counter over, whatever the registry it names has counted. The two stay in step exactly
in the runs that only ever name registries the oracle has not called yet
(`registry_nonce_in_step_iff`).
-/

namespace NbsBond
namespace Protocol

open Soroban OracleConsumer

/-- The stored nonce is the one the configured registry expects from the oracle. -/
def InStep (w : World) : Prop :=
  ∀ registryId registry, w.oracle.projectRegistry = some registryId →
    w.registries registryId = some registry →
    w.oracle.projectRegistryNonce = registry.nonce w.oracleId

/-- The registry a call points the oracle at. -/
def Op.pointsAt : Op → Option Address
  | .oracle (.setProjectRegistry _ registryId _) => some registryId
  | _ => none

/-- A call that points the oracle at a registry names one that expects nonce `0` from it. -/
def Op.StartsInStep (w : World) (op : Op) : Prop :=
  ∀ registryId ∈ op.pointsAt, ∀ registry ∈ w.registries registryId, registry.nonce w.oracleId = 0

instance (w : World) (op : Op) : Decidable (op.StartsInStep w) :=
  inferInstanceAs (Decidable (∀ registryId ∈ op.pointsAt, ∀ registry ∈ w.registries registryId,
    registry.nonce w.oracleId = 0))

/-- `revoke_project` complains about the nonce exactly when it is not the expected one. -/
theorem revokeProject_invalidNonce_iff {s : ProjectRegistry.State} {caller : Address}
    {projectId nonce : ℕ} :
    ProjectRegistry.revokeProject s caller projectId nonce = .error (.error .invalidNonce) ↔
      nonce ≠ s.nonce caller := by
  constructor
  · intro h hnonce
    -- under the expected nonce every failure is another error: of the role, or of the project
    simp only [ProjectRegistry.revokeProject, ProjectRegistry.requireAdminOrOracle,
      ProjectRegistry.changeStatus, useNonce, bind_eq_error, ensure_eq_error, orError_eq_error] at h
    obtain ((⟨hne, -⟩ | ⟨_, _, h⟩) | ⟨_, -, h⟩) := h
    · exact hne hnonce
    · exact pure_ne_error h
    obtain h | ⟨_, -, h⟩ := h
    · split at h
      · cases h
      · simp [bind_eq_error, ensure_eq_error, orError_eq_error] at h
    · simp [pure_ne_error] at h
  · intro hne
    simp only [ProjectRegistry.revokeProject, useNonce, ensure, if_neg hne]
    rfl

/-! ### One call -/

/-- A rejection moves both counters, any other decision neither. -/
theorem outcome_in_step {now : ℕ} {own : Address} {regs regs' : Registries} {c c' : Council}
    {locked : ℤ} {r : ReportId} {rep : Report} {ch : Challenge} {resolution : ReportStatus}
    (h : Outcome now own regs c locked r rep ch resolution c' regs')
    (hstep : ∀ registryId registry, c.registry = some registryId →
      regs registryId = some registry → c.registryNonce = registry.nonce own)
    {registryId : Address} {registry : ProjectRegistry.State} (hc : c'.registry = some registryId)
    (hregs : regs' registryId = some registry) : c'.registryNonce = registry.nonce own := by
  cases h with
  | upheld => exact hstep registryId registry hc hregs
  | @rejected p _ hprovider hrevokes =>
    rw [Council.refund_eq] at hc ⊢
    cases hrevokes with
    | unconfigured hnone =>
      -- nothing was called and nothing counted
      have hslashed : (c.slash now rep.provider p r).registry = none := hnone
      rw [Council.countRevocation_none hslashed] at hc
      exact absurd (hnone.symm.trans hc) nofun
    | @revoked called found found' hsome hdeployed hrevoke =>
      have hslashed : (c.slash now rep.provider p r).registry = some called := hsome
      rw [Council.countRevocation_some hslashed] at hc ⊢
      have hid : called = registryId := Option.some.inj (hsome.symm.trans hc)
      subst hid
      rw [Function.update_self] at hregs
      cases hregs
      -- both counters move by one
      show c.registryNonce + 1 = registry.nonce own
      rw [hstep called found hsome hdeployed, (ProjectRegistry.revokeProject_nonce hrevoke).1,
        Function.update_self]

/-- **One call** keeps the counters in step, if it does not start the oracle's out of step. A
rejection moves both by one. -/
theorem InStep.step {now : ℕ} {w w' : World} {op : Op} {ret : Ret} (hI : InStep w)
    (hstep : Step now w op w' ret) (hop : op.StartsInStep w) : InStep w' := by
  cases hstep with
  | issuer _ => exact hI
  | engine _ => exact hI
  | retirement _ => exact hI
  | @registry called op registry s _ hcaller hregistry h =>
    intro registryId found hconfigured hfound
    change Function.update w.registries called (some s) registryId = some found at hfound
    -- a call of somebody else on a registry
    by_cases hcalled : registryId = called
    · subst hcalled
      rw [Function.update_self] at hfound
      cases hfound
      -- nobody else uses up a nonce of the oracle
      rw [(ProjectRegistry.exec_authority h).1, Function.update_of_ne hcaller]
      exact hI registryId registry hconfigured hregistry
    · rw [Function.update_of_ne hcalled] at hfound
      exact hI registryId found hconfigured hfound
  | @oracle op s regs _ h =>
    intro registryId found hconfigured hfound
    change s.projectRegistry = some registryId at hconfigured
    change regs registryId = some found at hfound
    show s.projectRegistryNonce = found.nonce w.oracleId
    -- a call that keeps the registry, the counter and the registries keeps the counters in step
    have hkept : (council s).registry = w.oracle.projectRegistry →
        (council s).registryNonce = w.oracle.projectRegistryNonce → regs = w.registries →
        s.projectRegistryNonce = found.nonce w.oracleId := by
      intro hregistry hnonce hregs
      change s.projectRegistry = _ at hregistry
      change s.projectRegistryNonce = _ at hnonce
      rw [hregistry] at hconfigured
      rw [hregs] at hfound
      rw [hnonce]
      exact hI registryId found hconfigured hfound
    cases move_of_exec h with
    | idle _ hcouncil _ _ hregs =>
      exact hkept (congrArg Council.registry hcouncil) (congrArg Council.registryNonce hcouncil)
        hregs
    -- the decisions
    | rule _ hverdict => exact outcome_in_step hverdict.outcome hI hconfigured hfound
    | concur _ _ hverdict => exact outcome_in_step hverdict.outcome hI hconfigured hfound
    | challenge _ _ hcouncil _ _ hregs =>
      exact hkept (congrArg Council.registry hcouncil) (congrArg Council.registryNonce hcouncil)
        hregs
    | expire _ _ hcouncil _ _ hregs =>
      rw [Council.refund_eq] at hcouncil
      exact hkept (congrArg Council.registry hcouncil) (congrArg Council.registryNonce hcouncil)
        hregs
    | setRegistry _ hamends =>
      -- the counter starts over, which is right for the registry that was named
      have hcouncil := hamends.council
      have hnamed := congrArg Council.registry hcouncil
      have hzero := congrArg Council.registryNonce hcouncil
      change s.projectRegistry = some _ at hnamed
      change s.projectRegistryNonce = 0 at hzero
      rw [hconfigured] at hnamed
      cases hnamed
      rw [hamends.registries] at hfound
      rw [hzero, hop registryId rfl found hfound]
    | register _ _ hamends | remove _ _ hamends | vote _ _ hamends | setThreshold _ _ hamends
    | addStake _ _ _ hamends | withdrawStake _ _ _ _ hamends | depositBond _ _ hamends
    | withdrawBond _ _ hamends | propose _ hamends | cancel _ _ hamends | accept _ _ _ hamends =>
      exact hkept (congrArg Council.registry hamends.council)
        (congrArg Council.registryNonce hamends.council) hamends.registries

/-- Pointed at a registry that has counted calls of the oracle, the counters are out of step. -/
theorem Op.startsInStep_of_inStep {now : ℕ} {w w' : World} {op : Op} {ret : Ret}
    (hstep : Step now w op w' ret) (hI : InStep w') : op.StartsInStep w := by
  intro registryId hpoints registry hregistry
  cases hstep with
  | issuer _ => cases hpoints
  | engine _ => cases hpoints
  | retirement _ => cases hpoints
  | registry _ _ _ => cases hpoints
  | @oracle op s regs _ h =>
    cases move_of_exec h with
    | setRegistry _ hamends =>
      -- the counter is `0` now, and it is what the registry expects
      cases hpoints
      have hnamed := congrArg Council.registry hamends.council
      have hzero := congrArg Council.registryNonce hamends.council
      change s.projectRegistryNonce = 0 at hzero
      rw [← hzero]
      refine (hI registryId registry hnamed ?_).symm
      show regs registryId = some registry
      rw [hamends.registries]
      exact hregistry
    | idle hop _ _ _ _ =>
      have hnone : Op.pointsAt (.oracle op) = none := by
        cases op <;> first | rfl | cases hop
      rw [hnone] at hpoints
      cases hpoints
    | _ => cases hpoints

/-! ### Runs -/

/-- **Registry nonce in step.** In every state of a run the stored nonce is the one the configured
registry expects, and no rejection can fail with `InvalidNonce` inside `revoke_project` — if and
only if the run never points the oracle at a registry that has already counted a call of it. Setting
a registry starts the stored nonce at zero, which is right for one that has never been called. -/
theorem registry_nonce_in_step_iff {h : List Call} {w : World} (hrun : Run h w) :
    (∀ c ∈ h, InStep c.post ∧ ∀ registryId registry,
      c.post.oracle.projectRegistry = some registryId →
      c.post.registries registryId = some registry → ∀ projectId,
        ProjectRegistry.revokeProject registry c.post.oracleId projectId
          c.post.oracle.projectRegistryNonce ≠ .error (.error .invalidNonce)) ↔
    ∀ c ∈ h, c.op.StartsInStep c.pre := by
  constructor
  · intro hstep c hc
    obtain ⟨_, -, hexec⟩ := hrun.of_mem hc
    exact Op.startsInStep_of_inStep (step_of_exec hexec) (hstep c hc).1
  · intro hstarts c hc
    obtain ⟨h₁, h₂, rfl⟩ := List.append_of_mem hc
    obtain ⟨hpast, ht, hexec⟩ := hrun.past
    have hI : InStep c.post := by
      refine (hpast.call ht hexec).guarded (G := fun w op => op.StartsInStep w) ?_ ?_
        fun d hd => hstarts d (List.mem_append_right h₁ hd)
      -- no registry is configured to begin with
      · intro w hinit registryId registry hconfigured _
        obtain ⟨admin, hadmin⟩ := hinit.oracle
        rw [hadmin] at hconfigured
        cases hconfigured
      · intro t w op r w' hI hop hexec
        exact hI.step (step_of_exec hexec) hop
    refine ⟨hI, fun registryId registry hconfigured hregistry projectId => ?_⟩
    rw [Ne, revokeProject_invalidNonce_iff, not_not]
    exact hI registryId registry hconfigured hregistry

/-- A first rejection: both counters have moved to `1`. -/
theorem registry_nonce_in_step_first_rejection : ∃ h w, Run h w ∧
    w.oracle.projectRegistryNonce = 1 ∧
    ∀ registry, w.registries ⟨102⟩ = some registry → registry.nonce ⟨100⟩ = 1 := by
  let ops : List (ℕ × Op) := (onboard ⟨0⟩ ⟨5⟩ ⟨1⟩ ⟨2⟩ ⟨100⟩ ⟨102⟩ 7).append
    [(1, .oracle (.submitReport ⟨1⟩ 1 0 10 5000 .absent "VM0007" 3 0)),
      (2, .oracle (.depositChallengeBond ⟨3⟩ 1000000 0)),
      (3, .oracle (.challengeReport ⟨3⟩ 1 0 1)),
      (4, .oracle (.resolveChallenge ⟨0⟩ 1 .rejected 3))]
  have hplay : (machine.play [] (deploy ⟨0⟩ ⟨100⟩ ⟨101⟩ ⟨102⟩) ops).map
      (fun p => (decide (∀ c ∈ p.1, c.op.StartsInStep c.pre), p.1.head?.map fun c =>
        decide (c.post.oracle.projectRegistryNonce = 1 ∧ c.post.oracleId = ⟨100⟩ ∧
          c.post.oracle.projectRegistry = some ⟨102⟩))) = some (true, some true) := by decide
  obtain ⟨h, w, hrun, hview⟩ := Run.of_play (Init.deploy ⟨0⟩ ⟨100⟩ ⟨101⟩ ⟨102⟩) hplay
  rw [Prod.mk.injEq, decide_eq_true_eq, Option.map_eq_some_iff] at hview
  obtain ⟨hstarts, c, hhead, hc⟩ := hview
  obtain ⟨hnonce, hself, hconfigured⟩ := of_decide_eq_true hc
  have hI := ((registry_nonce_in_step_iff hrun).mpr hstarts c (List.mem_of_mem_head? hhead)).1
  have hpost : c.post = w := by
    cases hrun with
    | start _ => cases hhead
    | call _ _ _ =>
      cases hhead
      rfl
  rw [hpost] at hnonce hself hconfigured hI
  refine ⟨h, w, hrun, hnonce, fun registry hregistry => ?_⟩
  rw [← hself, ← hI ⟨102⟩ registry hconfigured hregistry, hnonce]

/-- After that rejection the admin names the same registry again, and the oracle's counter starts
over. -/
theorem registry_nonce_out_of_step : ¬ ∀ (h : List Call) (w : World), Run h w → InStep w := by
  intro hclaim
  let ops : List (ℕ × Op) := (onboard ⟨0⟩ ⟨5⟩ ⟨1⟩ ⟨2⟩ ⟨100⟩ ⟨102⟩ 7).append
    [(1, .oracle (.submitReport ⟨1⟩ 1 0 10 5000 .absent "VM0007" 3 0)),
      (2, .oracle (.depositChallengeBond ⟨3⟩ 1000000 0)),
      (3, .oracle (.challengeReport ⟨3⟩ 1 0 1)),
      (4, .oracle (.resolveChallenge ⟨0⟩ 1 .rejected 3)),
      (5, .oracle (.setProjectRegistry ⟨0⟩ ⟨102⟩ 4))]
  have hplay : (machine.play [] (deploy ⟨0⟩ ⟨100⟩ ⟨101⟩ ⟨102⟩) ops).map
      (fun p => (p.2.oracle.projectRegistry, p.2.oracle.projectRegistryNonce,
        (p.2.registries ⟨102⟩).map fun registry => registry.nonce p.2.oracleId)) =
      some (some ⟨102⟩, 0, some 1) := by decide
  obtain ⟨h, w, hrun, hview⟩ := Run.of_play (Init.deploy ⟨0⟩ ⟨100⟩ ⟨101⟩ ⟨102⟩) hplay
  simp only [Prod.mk.injEq, Option.map_eq_some_iff] at hview
  obtain ⟨hconfigured, hzero, registry, hregistry, hone⟩ := hview
  have hI := hclaim h w hrun ⟨102⟩ registry hconfigured hregistry
  rw [hzero, hone] at hI
  cases hI

end Protocol
end NbsBond
