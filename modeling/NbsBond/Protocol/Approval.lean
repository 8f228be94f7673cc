import NbsBond.OracleConsumer.Revocation
import NbsBond.ProjectRegistry.Approval
import NbsBond.Protocol.Minting

/-!
# Whether new periods stand on approved projects

`register_bond` refuses a project that is not approved, and `submit_report` does too. The first
batch of a period reads neither status again: it asks whether the report is verified and whether it
carries the metadata hash the bond was registered with. A project that is suspended or revoked after
these two checks goes on generating credits (`suspended_project_mints`).

The status can be lost in two ways only: a call of the registry, and a challenge that the oracle
decides against a report of the project. `first_batch_approved` says that a run in which no call
retires a project that a registered bond stands on opens every period on an approved project.
-/

namespace NbsBond
namespace Protocol

open Soroban

/-- A registered bond stands on the project: its metadata hash leads to it in the registry of the
engine. -/
def StandsOn (w : World) (projectId : ℕ) : Prop :=
  ∃ b hash registry, w.engine.bondProject b = some hash ∧
    w.registries w.engineRegistry = some registry ∧ registry.projectByHash hash = some projectId

/-- The project of the engine's registry that a call suspends or revokes: directly, or by deciding
an open challenge against a report of it. -/
def Op.retires (w : World) : Op → Option ℕ
  | .registry registryId op => if registryId = w.engineRegistry then op.retires else none
  | .oracle op =>
    match op.rejects w.oracle with
    | some r =>
      if w.oracle.projectRegistry = some w.engineRegistry ∧
          (w.oracle.challenge r).any (fun ch => !ch.resolved) then
        (w.oracle.report r).map OracleConsumer.Report.projectId
      else none
    | none => none
  | _ => none

/-- A call does not retire a project that a registered bond stands on. -/
def Op.KeepsApproval (w : World) (op : Op) : Prop :=
  ∀ projectId, op.retires w = some projectId → ¬ StandsOn w projectId

/-- The project of every registered bond is approved. -/
structure ApprovalInv (w : World) : Prop where
  fresh : ∀ a registry, w.registries a = some registry → ProjectRegistry.Fresh registry
  approved : ∀ b hash, w.engine.bondProject b = some hash →
    ∃ registry, w.registries w.engineRegistry = some registry ∧
      ProjectRegistry.Approved registry hash

theorem World.deps_approved {w : World} {hash : Bytes32} :
    w.deps.getProjectStatusByHash hash = some .approved ↔
      ∃ registry, w.registries w.engineRegistry = some registry ∧
        ProjectRegistry.Approved registry hash := by
  unfold World.deps
  simp only [Option.bind_eq_bind, Option.bind_eq_some_iff, toOption_eq_some,
    ProjectRegistry.getProjectStatusByHash_approved]

theorem ApprovalInv.initial {w : World} (hinit : Init w) : ApprovalInv w where
  fresh := by
    intro a registry hregistry
    obtain hnone | ⟨admin, hadmin⟩ := hinit.registries a
    · rw [hnone] at hregistry
      cases hregistry
    · rw [hadmin] at hregistry
      cases hregistry
      exact ProjectRegistry.Fresh.initial admin
  approved := by
    intro b hash hproject
    obtain ⟨admin, hadmin⟩ := hinit.engine
    rw [hadmin] at hproject
    cases hproject

/-- **The registries move.** One registry makes a step and the registered bonds stay: what is
approved stays approved, unless the step retires the project of one of them. -/
theorem ApprovalInv.registry_step {w w' : World} {registryId : Address}
    {registry registry' : ProjectRegistry.State} {op : ProjectRegistry.Op} (hA : ApprovalInv w)
    (hregistry : w.registries registryId = some registry)
    (hstep : ProjectRegistry.ProjectStep registry registry' op)
    (hregs : w'.registries = Function.update w.registries registryId (some registry'))
    (hconfigured : w'.engineRegistry = w.engineRegistry)
    (hprojects : w'.engine.bondProject = w.engine.bondProject)
    (hop : registryId = w.engineRegistry → ∀ id, op.retires = some id → ¬ StandsOn w id) :
    ApprovalInv w' where
  fresh := by
    intro a found hfound
    rw [hregs] at hfound
    by_cases ha : a = registryId
    · subst ha
      rw [Function.update_self] at hfound
      cases hfound
      exact (hA.fresh a registry hregistry).step hstep
    · rw [Function.update_of_ne ha] at hfound
      exact hA.fresh a found hfound
  approved := by
    intro b hash hproject
    rw [hprojects] at hproject
    rw [hregs, hconfigured]
    obtain ⟨found, hfound, happroved⟩ := hA.approved b hash hproject
    by_cases ha : w.engineRegistry = registryId
    · subst ha
      rw [hregistry] at hfound
      cases hfound
      refine ⟨registry', Function.update_self .., ?_⟩
      refine happroved.step (hA.fresh _ _ hregistry) hstep ?_
      -- a project the step retires is not the one the bond's hash leads to
      intro id hretires hid
      exact hop rfl id hretires ⟨b, hash, registry, hproject, hregistry, hid⟩
    · exact ⟨found, by rw [Function.update_of_ne ha, hfound], happroved⟩

/-- **One call.** -/
theorem ApprovalInv.step {now : ℕ} {w w' : World} {op : Op} {ret : Ret} (hA : ApprovalInv w)
    (hstep : Step now w op w' ret) (hop : op.KeepsApproval w) : ApprovalInv w' := by
  cases hstep with
  | issuer _ => exact ⟨hA.fresh, hA.approved⟩
  | @registry registryId op registry s _ _ hregistry h =>
    refine hA.registry_step hregistry (ProjectRegistry.exec_projects h) rfl rfl rfl ?_
    intro hself id hretires
    refine hop id ?_
    simp only [Op.retires, hself, if_true]
    exact hretires
  | @oracle op s regs _ h =>
    obtain hsame | ⟨r, hrejects, ⟨ch, hch, hopen⟩, rep, registryId, registry, registry', hrep,
      hconfigured, hregistry, hrevoke, hregs⟩ := (OracleConsumer.move_of_exec h).registries
    · subst hsame
      exact ⟨hA.fresh, hA.approved⟩
    -- the nested call is a `revoke_project` under the oracle's own address
    have hrevoked := ProjectRegistry.exec_projects
      (ProjectRegistry.exec_of_revokeProject now hrevoke)
    refine hA.registry_step hregistry hrevoked hregs rfl rfl ?_
    rintro hself id hretires
    cases hretires
    refine hop rep.projectId ?_
    have hchallenged : (w.oracle.challenge r).any (fun ch => !ch.resolved) = true := by
      rw [hch, Option.any_some, hopen]
      rfl
    simp only [Op.retires, hrejects]
    rw [if_pos ⟨hself ▸ hconfigured, hchallenged⟩, hrep, Option.map_some]
  | engine h =>
    refine ⟨hA.fresh, ?_⟩
    intro b hash hproject
    obtain hsame | ⟨b₀, hash₀, hupdate, hstatus⟩ := CouponEngine.exec_projects h
    · exact hA.approved b hash (by rw [← hsame]; exact hproject)
    · change _ = some hash at hproject
      rw [hupdate] at hproject
      by_cases hb : b = b₀
      · subst hb
        rw [Function.update_self] at hproject
        cases hproject
        exact World.deps_approved.mp hstatus
      · rw [Function.update_of_ne hb] at hproject
        exact hA.approved b hash hproject
  | retirement h =>
    refine ⟨hA.fresh, ?_⟩
    intro b hash hproject
    refine hA.approved b hash ?_
    obtain ⟨_, _, _, _, _, _, _, _, _, _, -, hdeduct⟩ | ⟨-, rfl⟩ := CreditRetirement.exec_deducts h
    · rw [← (CouponEngine.deductCredits_tables hdeduct).projects]
      exact hproject
    · exact hproject

/-- **Credits come from approved projects.** In a run whose calls never retire a project that a
registered bond stands on, every first batch of a period is committed while the registry reports the
bond's project as approved. The first batch looks at the report and not at the project, which may
have been suspended or revoked since the bond was registered. -/
theorem first_batch_approved {h : List Call} {w : World} (hrun : Run h w)
    (hkeeps : ∀ c ∈ h, c.op.KeepsApproval c.pre) :
    ∀ c ∈ h, ∀ caller b p holders reportId nonce isFinalBatch,
      c.op = .engine (.distributeCoupon caller b p holders reportId nonce isFinalBatch) →
      c.pre.engine.batchState (b, p) = none →
      ∃ hash, c.pre.engine.bondProject b = some hash ∧
        c.pre.deps.getProjectStatusByHash hash = some .approved := by
  intro c hc caller b p holders reportId nonce isFinalBatch hop _
  obtain ⟨newer, older, rfl⟩ := List.append_of_mem hc
  obtain ⟨hpast, -, hexec⟩ := hrun.past
  have hA : ApprovalInv c.pre := by
    refine hpast.guarded (G := fun w op => op.KeepsApproval w) (fun w => ApprovalInv.initial)
      (fun t w op r w' hA hop hexec => hA.step (step_of_exec hexec) hop) ?_
    intro d hd
    exact hkeeps d (List.mem_append_right _ (List.mem_cons_of_mem _ hd))
  -- the batch was not refused for want of a registered project
  obtain ⟨t, pre, op, ret, post⟩ := c
  dsimp only at hop hexec hA
  subst hop
  cases step_of_exec hexec with
  | engine h =>
    simp only [CouponEngine.exec, CouponEngine.distributeCoupon, CouponEngine.distribute,
      bind_eq_ok, orError_eq_ok] at h
    obtain ⟨_, ⟨nonces, -, _, -, _, -, hash, hproject, -⟩, -⟩ := h
    exact ⟨hash, hproject, World.deps_approved.mpr (hA.approved b hash hproject)⟩

/-- A first batch over an approved project. -/
theorem first_batch_approved_two_reports :
    ∃ h w, Run h w ∧ ∃ c ∈ h,
      c.op = .engine (.distributeCoupon ⟨0⟩ 1 0 [(⟨8⟩, 7)] 1 1 true) ∧
      c.pre.deps.getProjectStatusByHash 7 = some .approved := by
  let last : Op := .engine (.distributeCoupon ⟨0⟩ 1 0 [(⟨8⟩, 7)] 1 1 true)
  have hplay : (machine.play [] (deploy ⟨0⟩ ⟨100⟩ ⟨101⟩ ⟨102⟩) (twoReports ++ [(2, last)])).map
      (fun x => decide (x.1.all (fun c => (c.op.retires c.pre).isNone) = true ∧
        x.1.any (fun c => c.op = last ∧ c.pre.engine.batchState (1, 0) = none ∧
          c.pre.engine.bondProject 1 = some 7) = true)) = some true := by decide
  obtain ⟨h, w, hrun, hview⟩ := Run.of_play (Init.deploy ⟨0⟩ ⟨100⟩ ⟨101⟩ ⟨102⟩) hplay
  obtain ⟨hall, hany⟩ := of_decide_eq_true hview
  obtain ⟨c, hc, hcall⟩ := List.any_eq_true.mp hany
  obtain ⟨hop, hfirst, hproject⟩ := of_decide_eq_true hcall
  refine ⟨h, w, hrun, c, hc, hop, ?_⟩
  have hkeeps : ∀ c ∈ h, c.op.KeepsApproval c.pre := by
    intro d hd id hretires
    have hnone := List.all_eq_true.mp hall d hd
    rw [hretires] at hnone
    cases hnone
  obtain ⟨hash, hhash, happroved⟩ :=
    first_batch_approved hrun hkeeps c hc ⟨0⟩ 1 0 _ 1 1 true hop hfirst
  rw [hproject] at hhash
  cases hhash
  exact happroved

/-- The project is suspended, and the first batch of a new period is committed all the same. -/
theorem suspended_project_mints :
    ∃ h w, Run h w ∧ ∃ c ∈ h,
      c.op = .engine (.distributeCoupon ⟨0⟩ 1 0 [(⟨8⟩, 7)] 1 1 true) ∧
      c.pre.engine.batchState (1, 0) = none ∧ c.pre.engine.bondProject 1 = some 7 ∧
      c.pre.deps.getProjectStatusByHash 7 = some .inactive ∧
      ¬ c.pre.deps.getProjectStatusByHash 7 = some .approved := by
  let last : Op := .engine (.distributeCoupon ⟨0⟩ 1 0 [(⟨8⟩, 7)] 1 1 true)
  let ops : List (ℕ × Op) := twoReports.append
    [(2, .registry ⟨102⟩ (.suspendProject ⟨0⟩ 1 2)), (3, last)]
  have hplay : (machine.play [] (deploy ⟨0⟩ ⟨100⟩ ⟨101⟩ ⟨102⟩) ops).map
      (fun x => x.1.any (fun c => c.op = last ∧ c.pre.engine.batchState (1, 0) = none ∧
        c.pre.engine.bondProject 1 = some 7 ∧
        c.pre.deps.getProjectStatusByHash 7 = some .inactive)) = some true := by decide
  obtain ⟨h, w, hrun, hany⟩ := Run.of_play (Init.deploy ⟨0⟩ ⟨100⟩ ⟨101⟩ ⟨102⟩) hplay
  obtain ⟨c, hc, hcall⟩ := List.any_eq_true.mp hany
  obtain ⟨hop, hfirst, hproject, hinactive⟩ := of_decide_eq_true hcall
  refine ⟨h, w, hrun, c, hc, hop, hfirst, hproject, hinactive, ?_⟩
  rw [hinactive]
  decide

end Protocol
end NbsBond
