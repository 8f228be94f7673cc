import NbsBond.OracleConsumer.Rejection
import NbsBond.Protocol.Approval
import NbsBond.Protocol.Stakes

/-!
# What a rejection keeps out

When a challenge is decided against a report, the oracle revokes the project in the registry it is
configured with, in the same call. `rejection_contained` says what this keeps out for the rest of
the run. Neither the rejection nor the revocation is ever undone; the oracle accepts no further
report of the project while it is configured with that registry; the engine registers no further
bond on account of the project; and no coupon period stands on the report, not even one that was
opened before.

A revoked project is not approved again, but its metadata hash can be: a bond that is registered
under the hash later stands on a newer project, since the index by hash names the newest one
(`ProjectRegistry.NewestIndexed`). Bonds that were registered before go on with the other verified
reports of the hash.
-/

namespace NbsBond
namespace Protocol

open Soroban OracleConsumer

/-! ### The registries along a run -/

/-- **What a call does to a registry**: nothing, or one call of that registry. So what holds of
registries by themselves holds of those in the protocol. -/
theorem Step.filing {now : ℕ} {w w' : World} {op : Op} {ret : Ret} (hstep : Step now w op w' ret)
    (a : Address) : w'.registries a = w.registries a ∨
      ∃ registry registry' op', w.registries a = some registry ∧ w'.registries a = some registry' ∧
        ProjectRegistry.Filing registry registry' op' := by
  -- a registry that files is one, and the others stay
  have hwrite : ∀ {registryId : Address} {registry registry' : ProjectRegistry.State}
      {op' : ProjectRegistry.Op}, w.registries registryId = some registry →
      ProjectRegistry.Filing registry registry' op' →
      w'.registries = Function.update w.registries registryId (some registry') →
      w'.registries a = w.registries a ∨
        ∃ registry registry' op', w.registries a = some registry ∧
          w'.registries a = some registry' ∧ ProjectRegistry.Filing registry registry' op' := by
    intro registryId registry registry' op' hregistry hfiling hregs
    rw [hregs]
    by_cases ha : a = registryId
    · subst ha
      exact Or.inr ⟨registry, registry', op', hregistry, Function.update_self _ _ _, hfiling⟩
    · exact Or.inl (Function.update_of_ne ha _ _)
  cases hstep with
  | issuer _ => exact Or.inl rfl
  | registry _ hregistry h => exact hwrite hregistry (ProjectRegistry.filing_of_exec h) rfl
  | oracle h =>
    obtain hsame | ⟨r, -, hrevoked⟩ := (OracleConsumer.move_of_exec h).registries
    · exact Or.inl (congrFun hsame a)
    · obtain ⟨-, rep, registryId, registry, registry', -, -, hregistry, hrevoke, hregs⟩ := hrevoked
      have hexec := ProjectRegistry.exec_of_revokeProject now hrevoke
      exact hwrite hregistry (ProjectRegistry.filing_of_exec hexec) hregs
  | engine _ => exact Or.inl rfl
  | retirement _ => exact Or.inl rfl

/-- The projects of every registry are in order. -/
theorem catalogues_of_run {h : List Call} {w : World} (hrun : Run h w) :
    ∀ a registry, w.registries a = some registry →
      ProjectRegistry.Catalogue registry ∧ ProjectRegistry.NewestIndexed registry := by
  refine hrun.invariant (P := fun w => ∀ a registry, w.registries a = some registry →
    ProjectRegistry.Catalogue registry ∧ ProjectRegistry.NewestIndexed registry) ?_ ?_
  · intro w hinit a registry hregistry
    obtain hnone | ⟨admin, hadmin⟩ := hinit.registries a
    · rw [hnone] at hregistry
      cases hregistry
    · rw [hadmin] at hregistry
      cases hregistry
      exact ⟨.initial admin, .initial admin⟩
  · intro t w op ret w' hC hexec a registry' hregistry'
    obtain hsame | ⟨registry, found, op', hregistry, hfound, hfiling⟩ :=
      (step_of_exec hexec).filing a
    · exact hC a registry' (hsame ▸ hregistry')
    · rw [hfound] at hregistry'
      cases hregistry'
      obtain ⟨hcatalogue, hnewest⟩ := hC a registry hregistry
      exact ⟨hcatalogue.step hfiling, hnewest.step hcatalogue hfiling⟩

/-- The registry has the project as rejected. -/
def RejectedIn (w : World) (registryId : Address) (projectId : ℕ) : Prop :=
  ∃ registry project, w.registries registryId = some registry ∧
    registry.project projectId = some project ∧ project.status = .rejected

/-- **One call** leaves a rejected project rejected. A rejected project has no way back in its
registry. -/
theorem RejectedIn.step {h : List Call} {now : ℕ} {w w' : World} {op : Op} {ret : Ret}
    {registryId : Address} {projectId : ℕ} (hrun : Run h w) (hstep : Step now w op w' ret)
    (hR : RejectedIn w registryId projectId) : RejectedIn w' registryId projectId := by
  obtain ⟨registry, project, hregistry, hproject, hstatus⟩ := hR
  obtain hsame | ⟨found, registry', op', hfound, hregistry', hfiling⟩ := hstep.filing registryId
  · exact ⟨registry, project, hsame.trans hregistry, hproject, hstatus⟩
  rw [hregistry] at hfound
  cases hfound
  obtain ⟨status, hproject', hfinal⟩ := (ProjectRegistry.Continues.refl hproject).step
    (catalogues_of_run hrun registryId registry hregistry).1 hfiling
  refine ⟨registry', _, hregistry', hproject', ?_⟩
  -- a rejected project is not live, and keeps its status
  have hdead : ¬ ProjectRegistry.Live project := by
    rintro (hpending | happroved)
    · rw [hstatus] at hpending
      cases hpending
    · rw [hstatus] at happroved
      cases happroved
  exact (hfinal hdead).trans hstatus

/-! ### The rejection itself -/

/-- The call that rejects a report revokes its project where the oracle is configured. -/
theorem Rejects.contained {h : List Call} {w : World} {c : Call} {r : ReportId} {rep : Report}
    {registryId : Address} (hrun : Run h w) (hc : c ∈ h) (hrejects : Rejects c r)
    (hrep : c.pre.oracle.report r = some rep)
    (hregistry : c.pre.oracle.projectRegistry = some registryId) :
    (∃ rep', c.post.oracle.report r = some rep' ∧ rep'.status = .rejected) ∧
      RejectedIn c.post registryId rep.projectId := by
  obtain ⟨h', hpast, hexec⟩ := hrun.of_mem hc
  obtain ⟨t, pre, op, ret, post⟩ := c
  have hbefore := hrejects.before
  have hafter := hrejects.after
  dsimp only at hexec hpast hrep hregistry hbefore hafter ⊢
  have hstep := step_of_exec hexec
  cases hstep with
  | @oracle op s regs _ hcall =>
    obtain ⟨found, hfound, hrejected, hrevokes⟩ :=
      (OracleConsumer.move_of_exec hcall).rejection (unmarked_of_run hpast) hbefore hafter
    rw [hrep] at hfound
    cases hfound
    refine ⟨hrejected, ?_⟩
    have hsame : (council pre.oracle).registry = some registryId := hregistry
    change RejectedIn { pre with oracle := s, registries := regs } registryId rep.projectId
    cases hrevokes with
    | unconfigured hnone =>
      rw [hsame] at hnone
      cases hnone
    | @revoked found registry registry' hconfigured hdeployed hrevoke =>
      rw [hsame] at hconfigured
      cases hconfigured
      obtain ⟨nonces, hchange⟩ := ProjectRegistry.revokeProject_ok hrevoke
      obtain ⟨project, -, -, rfl⟩ := ProjectRegistry.changeStatus_ok hchange
      exact ⟨_, _, Function.update_self _ _ _, Function.update_self _ _ _, rfl⟩
  -- the other contracts resolve no challenge
  | issuer _ => exact absurd hafter hbefore
  | registry _ _ _ => exact absurd hafter hbefore
  | engine _ => exact absurd hafter hbefore
  | retirement _ => exact absurd hafter hbefore

/-! ### Afterwards -/

/-- What is kept out after the calls `newer`, once report `r` and the project of `rep` have been
rejected in the registry `registryId`. -/
structure Contained (newer : List Call) (w : World) (r : ReportId) (rep : Report)
    (registryId : Address) : Prop where
  report : ∃ rep', w.oracle.report r = some rep' ∧ rep'.status = .rejected
  project : RejectedIn w registryId rep.projectId
  /-- No report of the project is accepted, unless the oracle has been given another registry. -/
  submissions : ∀ d ∈ newer, ∀ provider periodStart periodEnd carbonSequestered biodiversity
    methodology ipfsEvidenceHash nonce,
    d.op = .oracle (.submitReport provider rep.projectId periodStart periodEnd carbonSequestered
      biodiversity methodology ipfsEvidenceHash nonce) →
    d.pre.oracle.projectRegistry ≠ some registryId
  /-- A bond that is registered stands on another project, which is approved, and on a newer one if
  it is registered under the hash of the rejected project. -/
  bonds : ∀ d ∈ newer, ∀ caller b hash nonce, d.op = .engine (.registerBond caller b hash nonce) →
    d.pre.engineRegistry = registryId → ∃ registry project rejected,
      d.pre.registries registryId = some registry ∧
      ProjectRegistry.getProjectByHash registry hash = .ok project ∧ project.status = .approved ∧
      registry.project rep.projectId = some rejected ∧ project.id ≠ rep.projectId ∧
      (rejected.metadataIpfsHash = hash → rep.projectId < project.id)
  /-- No period stands on the report, finished or not. -/
  periods : ∀ k info, w.engine.periodInfo k = some info → info.reportId ≠ r
  batches : ∀ k batch, w.engine.batchState k = some batch → batch.reportId ≠ r

/-- No period of a reached state stands on a rejected report. -/
theorem not_backed_of_rejected {w : World} {b : BondId} {r : ReportId} {report rep : Report}
    {t : CouponEngine.Credits} (hB : Backed w b r report t) (hrep : w.oracle.report r = some rep) :
    rep.status ≠ .rejected := by
  have hfound := hB.found
  rw [hrep] at hfound
  cases hfound
  rw [hB.verified]
  decide

/-- While the project is rejected, no report of it is accepted. -/
theorem RejectedIn.not_submitted {now : ℕ} {w w' : World} {ret : Ret} {registryId : Address}
    {projectId : ℕ} {provider : Address} {periodStart periodEnd : ℕ} {carbonSequestered : ℤ}
    {biodiversity : BiodiversityMetrics} {methodology : String} {ipfsEvidenceHash : Bytes32}
    {nonce : ℕ} (hR : RejectedIn w registryId projectId)
    (hstep : Step now w (.oracle (.submitReport provider projectId periodStart periodEnd
      carbonSequestered biodiversity methodology ipfsEvidenceHash nonce)) w' ret) :
    w.oracle.projectRegistry ≠ some registryId := by
  intro hconfigured
  obtain ⟨registry, project, hregistry, hproject, hstatus⟩ := hR
  cases hstep with
  | oracle h =>
    obtain ⟨found, registry', project', hfound, hregistry', hproject', happroved⟩ :=
      submitReport_approved h
    -- the registry that is asked is the one that has the project as rejected
    rw [hconfigured] at hfound
    cases hfound
    rw [hregistry] at hregistry'
    cases hregistry'
    rw [hproject] at hproject'
    cases hproject'
    rw [hstatus] at happroved
    cases happroved

/-- While the project is rejected, a bond is registered on account of other projects only, and under
its hash on account of newer ones only. -/
theorem RejectedIn.registered {h : List Call} {now : ℕ} {w w' : World} {ret : Ret}
    {registryId : Address} {projectId : ℕ} {caller : Address} {b : BondId} {hash : Bytes32}
    {nonce : ℕ} (hrun : Run h w) (hR : RejectedIn w registryId projectId)
    (hengine : w.engineRegistry = registryId)
    (hstep : Step now w (.engine (.registerBond caller b hash nonce)) w' ret) :
    ∃ registry project rejected, w.registries registryId = some registry ∧
      ProjectRegistry.getProjectByHash registry hash = .ok project ∧ project.status = .approved ∧
      registry.project projectId = some rejected ∧ project.id ≠ projectId ∧
      (rejected.metadataIpfsHash = hash → projectId < project.id) := by
  obtain ⟨registry, project, hregistry, hproject, hstatus⟩ := hR
  cases hstep with
  | engine h =>
    simp only [CouponEngine.exec, CouponEngine.registerBond, bind_eq_ok, orTrap_eq_ok,
      ensure_eq_ok] at h
    obtain ⟨_, ⟨_, -, _, -, config, -, _, -, status, hfound, _, rfl, -⟩, -⟩ := h
    obtain ⟨registry', hregistry', id, project', hindex, hproject', happroved⟩ :=
      World.deps_approved.mp hfound
    rw [hengine, hregistry] at hregistry'
    cases hregistry'
    obtain ⟨hcatalogue, hnewest⟩ := catalogues_of_run hrun registryId registry hregistry
    -- under its own id stands an approved project, not the rejected one
    have hother : id ≠ projectId := by
      rintro rfl
      rw [hproject] at hproject'
      cases hproject'
      rw [hstatus] at happroved
      cases happroved
    rw [← hcatalogue.numbered id project' hproject'] at hother
    refine ⟨registry, project', project, hregistry, ?_, happroved, hproject, hother,
      fun hhash => ?_⟩
    · simp only [ProjectRegistry.getProjectByHash, bind_eq_ok, orError_eq_ok]
      exact ⟨id, hindex, hproject'⟩
    · -- the index names the newest project of the hash, and that is not the rejected one
      have hle := hnewest hash id hindex projectId project hproject hhash
      rw [← hcatalogue.numbered id project' hproject'] at hle
      exact lt_of_le_of_ne hle (Ne.symm hother)

/-- **A rejection is contained.** Once a challenge has been decided against report `r`, with the
oracle configured with some registry, the report stays rejected and its project stays rejected in
that registry; no call that follows submits a report of the project there, or registers a bond on
account of it; and no coupon period, finished or not, stands on the report. -/
theorem rejection_contained {newer older : List Call} {c : Call} {w : World} {r : ReportId}
    {rep : Report} {registryId : Address} (hrun : Run (newer ++ c :: older) w)
    (hrejects : Rejects c r) (hrep : c.pre.oracle.report r = some rep)
    (hregistry : c.pre.oracle.projectRegistry = some registryId) :
    Contained newer w r rep registryId := by
  -- the call takes the report and the project, and every call after it leaves them rejected
  have hsince : ∀ {later : List Call} {v : World}, Run (later ++ c :: older) v →
      RejectedIn v registryId rep.projectId := by
    intro later v hlater
    have hc : c ∈ later ++ c :: older := List.mem_append_right _ List.mem_cons_self
    refine hlater.stable (P := fun v => RejectedIn v registryId rep.projectId) ?_ hc
      (hrejects.contained hlater hc hrep hregistry).2
    intro h t v op ret v' hrun hR hexec
    exact hR.step hrun (step_of_exec hexec)
  have hreported : ∃ rep', w.oracle.report r = some rep' ∧ rep'.status = .rejected := by
    have hc : c ∈ newer ++ c :: older := List.mem_append_right _ List.mem_cons_self
    obtain ⟨⟨rep', hrep', hstatus⟩, -⟩ := hrejects.contained hrun hc hrep hregistry
    obtain ⟨rep'', hrep'', -, hfinal⟩ := report_stable hrun hc hrep'
    rw [hfinal (Or.inr hstatus)] at hrep''
    exact ⟨rep', hrep'', hstatus⟩
  -- the state before each of the calls that follow
  have hbefore : ∀ d ∈ newer, ∃ later, Run (later ++ c :: older) d.pre ∧
      Step d.time d.pre d.op d.post d.ret := by
    intro d hd
    obtain ⟨newer', later, rfl⟩ := List.append_of_mem hd
    rw [List.append_assoc, List.cons_append] at hrun
    obtain ⟨hpast, -, hexec⟩ := hrun.past
    exact ⟨later, hpast, step_of_exec hexec⟩
  obtain ⟨rep', hrep', hrejected⟩ := hreported
  have hP := periods_of_run hrun
  refine ⟨⟨rep', hrep', hrejected⟩, hsince hrun, ?_, ?_, ?_, ?_⟩
  · intro d hd provider periodStart periodEnd carbon bio methodology evidence nonce hop
    obtain ⟨later, hpast, hstep⟩ := hbefore d hd
    rw [hop] at hstep
    exact (hsince hpast).not_submitted hstep
  · intro d hd caller b hash nonce hop hengine
    obtain ⟨later, hpast, hstep⟩ := hbefore d hd
    rw [hop] at hstep
    exact (hsince hpast).registered hpast hengine hstep
  · rintro ⟨b, p⟩ info hinfo rfl
    obtain ⟨report, t, hrecorded⟩ := hP.infos b p info hinfo
    exact not_backed_of_rejected hrecorded.backed hrep' hrejected
  · rintro ⟨b, p⟩ batch hbatch rfl
    obtain ⟨report, hbacked, -⟩ := hP.batches b p batch hbatch
    exact not_backed_of_rejected hbacked hrep' hrejected

/-- The hash of the rejected project is registered again and approved, and a bond is registered on
account of the new project. -/
theorem rejection_contained_new_project : ∃ newer older c w rep, Run (newer ++ c :: older) w ∧
    newer.length = 4 ∧ Rejects c 1 ∧ rep.projectId = 1 ∧ Contained newer w 1 rep ⟨102⟩ ∧
    w.engine.bondProject 1 = some 7 := by
  let config : BondConfig := ⟨7, 1000, [50], .carbon, 9000000, 100⟩
  let rep : Report := ⟨1, ⟨1⟩, 1, 7, 0, 10, 5000, .absent, "VM0007", 3, .challenged, 1, 0⟩
  have hinit : Init (deploy ⟨0⟩ ⟨100⟩ ⟨101⟩ ⟨102⟩) := Init.deploy ⟨0⟩ ⟨100⟩ ⟨101⟩ ⟨102⟩
  obtain ⟨newer, c, older, w, hrun, hview⟩ := Run.of_play_split machine
    (challengedReports ++ [(3, .oracle (.resolveChallenge ⟨0⟩ 1 .rejected 3)),
      (4, .registry ⟨102⟩ (.registerProject ⟨5⟩ 7 "project" "VM0007" "KE" 1)),
      (4, .registry ⟨102⟩ (.approveProject ⟨0⟩ 2 2)),
      (4, .issuer (.issueBond ⟨0⟩ config 0)), (4, .engine (.registerBond ⟨0⟩ 1 7 0))]) 4
    (fun newer c _ w => decide (newer.length = 4 ∧
      (c.pre.oracle.challenge 1).map Challenge.resolved = some false ∧
      (c.post.oracle.challenge 1).map (fun ch => (ch.resolved, ch.resolution)) = some (true, 3) ∧
      c.pre.oracle.report 1 = some rep ∧ c.pre.oracle.projectRegistry = some ⟨102⟩ ∧
      w.engine.bondProject 1 = some 7)) hinit (by decide)
  obtain ⟨hlength, hopen, hclosed, hrep, hregistry, hbond⟩ := of_decide_eq_true hview
  have hrejects : Rejects c 1 := by
    obtain ⟨ch, hch, hresolved⟩ := Option.map_eq_some_iff.mp hopen
    obtain ⟨ch', hch', hmarked⟩ := Option.map_eq_some_iff.mp hclosed
    rw [Prod.mk.injEq] at hmarked
    exact ⟨not_markedRejected_of_open hch hresolved, ch', hch', hmarked⟩
  exact ⟨newer, older, c, w, rep, hrun, hlength, hrejects, rfl,
    rejection_contained hrun hrejects hrep hregistry, hbond⟩

end Protocol
end NbsBond
