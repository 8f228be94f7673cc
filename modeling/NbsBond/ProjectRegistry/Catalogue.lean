import NbsBond.ProjectRegistry.Model

/-!
# The catalogue of projects

`register_project` looks only at the project last registered under a hash. That is enough, because
a project leaves `Pending` and `Approved` for good: when the last project under a hash is rejected
or inactive, so are all the earlier ones, and the index may move on to the new project. `Catalogue`
is the invariant that says so, together with what the ids and the owners' lists contain.

`filing_of_exec` says once what a committed call does to the projects and to their two indices.
-/

namespace NbsBond
namespace ProjectRegistry

open Soroban

/-- A pending or approved project holds on to its hash. -/
def Live (project : Project) : Prop :=
  project.status = .pending ∨ project.status = .approved

/-- A hash is available when the project its index names, if any, is not live. -/
theorem metadataHashAvailable_iff {s : State} {hash : Bytes32} :
    metadataHashAvailable s hash = true ↔
      ∀ id project, s.projectByHash hash = some id → s.project id = some project →
        ¬ Live project := by
  unfold metadataHashAvailable Live
  constructor
  · intro havailable id project hindex hproject
    simpa [hindex, hproject] using havailable
  · intro hnot
    -- the guard reads the project of the index, or finds none
    split
    · next project hread =>
      obtain ⟨id, hindex, hproject⟩ := Option.bind_eq_some_iff.mp hread
      simpa using hnot id project hindex hproject
    · rfl

/-! ### What a committed call does -/

/-- The four status changes. -/
inductive Move : Op → ℕ → ProjectStatus → ProjectStatus → Prop
  | approve {caller : Address} {projectId nonce : ℕ} :
      Move (.approveProject caller projectId nonce) projectId .pending .approved
  | reject {caller : Address} {projectId nonce : ℕ} :
      Move (.rejectProject caller projectId nonce) projectId .pending .rejected
  | suspend {caller : Address} {projectId nonce : ℕ} :
      Move (.suspendProject caller projectId nonce) projectId .approved .inactive
  | revoke {caller : Address} {projectId nonce : ℕ} :
      Move (.revokeProject caller projectId nonce) projectId .approved .rejected

/-- The effect of a committed call on the projects and their indices. -/
inductive Filing (s s' : State) : Op → Prop
  | same {op : Op} (hcount : s'.projectCount = s.projectCount) (hproject : s'.project = s.project)
      (hhash : s'.projectByHash = s.projectByHash) (howner : s'.ownerProjects = s.ownerProjects) :
      Filing s s' op
  /-- A new pending project of the caller, under an available hash. -/
  | register {caller : Address} {hash : Bytes32} {name methodology country : String} {nonce : ℕ}
      (havailable : metadataHashAvailable s hash = true)
      (hcount : s'.projectCount = s.projectCount + 1)
      (hproject : s'.project = Function.update s.project (s.projectCount + 1)
        (some ⟨s.projectCount + 1, caller, hash, name, .pending, methodology, country⟩))
      (hhash : s'.projectByHash =
        Function.update s.projectByHash hash (some (s.projectCount + 1)))
      (howner : s'.ownerProjects = Function.update s.ownerProjects caller
        (s.ownerProjects caller ++ [s.projectCount + 1])) :
      Filing s s' (.registerProject caller hash name methodology country nonce)
  /-- A project changes its status and nothing else. -/
  | change {op : Op} {projectId : ℕ} {project : Project} {target : ProjectStatus}
      (hold : s.project projectId = some project)
      (hmove : Move op projectId project.status target)
      (hcount : s'.projectCount = s.projectCount)
      (hproject : s'.project =
        Function.update s.project projectId (some { project with status := target }))
      (hhash : s'.projectByHash = s.projectByHash)
      (howner : s'.ownerProjects = s.ownerProjects) : Filing s s' op

/-- A status change rewrites one project that is there. -/
theorem changeStatus_ok {s s' : State} {projectId : ℕ} {source target : ProjectStatus}
    (h : changeStatus s projectId source target = .ok s') :
    ∃ project, s.project projectId = some project ∧ project.status = source ∧
      s' = { s with
        project :=
          Function.update s.project projectId (some { project with status := target }) } := by
  simp only [changeStatus, bind_eq_ok, orError_eq_ok, ensure_eq_ok, pure_eq_ok] at h
  obtain ⟨project, hproject, _, hstatus, rfl⟩ := h
  exact ⟨project, hproject, hstatus, rfl⟩

theorem adminChangeStatus_ok {s s' : State} {caller : Address} {projectId nonce : ℕ}
    {source target : ProjectStatus}
    (h : adminChangeStatus s caller projectId nonce source target = .ok s') :
    ∃ nonces, changeStatus { s with nonce := nonces } projectId source target = .ok s' := by
  simp only [adminChangeStatus, bind_eq_ok] at h
  obtain ⟨nonces, -, _, -, h⟩ := h
  exact ⟨nonces, h⟩

theorem revokeProject_ok {s s' : State} {caller : Address} {projectId nonce : ℕ}
    (h : revokeProject s caller projectId nonce = .ok s') :
    ∃ nonces, changeStatus { s with nonce := nonces } projectId .approved .rejected = .ok s' := by
  simp only [revokeProject, bind_eq_ok] at h
  obtain ⟨nonces, -, _, -, h⟩ := h
  exact ⟨nonces, h⟩

theorem Filing.of_changeStatus {s s' : State} {op : Op} {nonces : Address → ℕ} {projectId : ℕ}
    {source target : ProjectStatus}
    (h : changeStatus { s with nonce := nonces } projectId source target = .ok s')
    (hmove : Move op projectId source target) : Filing s s' op := by
  obtain ⟨project, hold, rfl, rfl⟩ := changeStatus_ok h
  exact .change hold hmove rfl rfl rfl rfl

/-- **What a call can do.** -/
theorem filing_of_exec {now : ℕ} {s s' : State} {op : Op} {r : Option ℕ}
    (h : exec now s op = .ok (s', r)) : Filing s s' op := by
  cases op with
  | registerProject caller hash name methodology country nonce =>
    simp only [exec, registerProject, bind_eq_ok, ensure_eq_ok, pure_eq_ok, Prod.mk.injEq] at h
    obtain ⟨⟨s₁, id⟩, ⟨_, -, _, -, _, havailable, rfl, -⟩, rfl, -⟩ := h
    exact .register havailable rfl rfl rfl rfl
  | suspendProject caller projectId nonce =>
    simp only [exec, suspendProject, bind_eq_ok, pure_eq_ok, Prod.mk.injEq] at h
    obtain ⟨s₁, h, rfl, -⟩ := h
    obtain ⟨nonces, h⟩ := adminChangeStatus_ok h
    exact .of_changeStatus h .suspend
  | revokeProject caller projectId nonce =>
    simp only [exec, bind_eq_ok, pure_eq_ok, Prod.mk.injEq] at h
    obtain ⟨s₁, h, rfl, -⟩ := h
    obtain ⟨nonces, h⟩ := revokeProject_ok h
    exact .of_changeStatus h .revoke
  | approveProject caller projectId nonce =>
    simp only [exec, approveProject, bind_eq_ok, pure_eq_ok, Prod.mk.injEq] at h
    obtain ⟨s₁, h, rfl, -⟩ := h
    obtain ⟨nonces, h⟩ := adminChangeStatus_ok h
    exact .of_changeStatus h .approve
  | rejectProject caller projectId nonce =>
    simp only [exec, rejectProject, bind_eq_ok, pure_eq_ok, Prod.mk.injEq] at h
    obtain ⟨s₁, h, rfl, -⟩ := h
    obtain ⟨nonces, h⟩ := adminChangeStatus_ok h
    exact .of_changeStatus h .reject
  | setOracleConsumer caller oracleConsumerId nonce =>
    simp only [exec, setOracleConsumer, bind_eq_ok, pure_eq_ok, Prod.mk.injEq] at h
    obtain ⟨_, ⟨_, -, _, -, rfl⟩, rfl, -⟩ := h
    exact .same rfl rfl rfl rfl
  | proposeAdminTransfer caller candidate nonce =>
    simp only [exec, proposeAdminTransfer, bind_eq_ok, pure_eq_ok, Prod.mk.injEq] at h
    obtain ⟨_, ⟨_, -, _, -, rfl⟩, rfl, -⟩ := h
    exact .same rfl rfl rfl rfl
  | cancelAdminTransfer caller nonce =>
    simp only [exec, cancelAdminTransfer, bind_eq_ok, pure_eq_ok, Prod.mk.injEq] at h
    obtain ⟨_, ⟨_, -, _, -, rfl⟩, rfl, -⟩ := h
    exact .same rfl rfl rfl rfl
  | acceptAdminTransfer caller nonce =>
    simp only [exec, acceptAdminTransfer, bind_eq_ok, pure_eq_ok, Prod.mk.injEq] at h
    obtain ⟨_, ⟨_, -, _, -, rfl⟩, rfl, -⟩ := h
    exact .same rfl rfl rfl rfl

/-- A `revoke_project` that another contract makes is a call like any other. -/
theorem exec_of_revokeProject {s s' : State} {caller : Address} {projectId nonce : ℕ} (now : ℕ)
    (h : revokeProject s caller projectId nonce = .ok s') :
    exec now s (.revokeProject caller projectId nonce) = .ok (s', none) := by
  simp only [exec, bind_eq_ok, pure_eq_ok]
  exact ⟨s', h, rfl⟩

/-- Every status change starts from a live project. -/
theorem Move.live {op : Op} {projectId : ℕ} {project : Project} {target : ProjectStatus}
    (h : Move op projectId project.status target) : Live project := by
  generalize hstatus : project.status = source at h
  cases h with
  | approve => exact Or.inl hstatus
  | reject => exact Or.inl hstatus
  | suspend => exact Or.inr hstatus
  | revoke => exact Or.inr hstatus

/-! ### The invariant -/

/-- The projects, the index by hash and the owners' lists agree. -/
structure Catalogue (s : State) : Prop where
  /-- The ids in use are those up to the counter. -/
  ids : ∀ id, (∃ project, s.project id = some project) ↔ 1 ≤ id ∧ id ≤ s.projectCount
  /-- A project is stored under its id. -/
  numbered : ∀ id project, s.project id = some project → project.id = id
  /-- The index names the live project of a hash. -/
  indexed : ∀ id project, s.project id = some project → Live project →
    s.projectByHash project.metadataIpfsHash = some id
  /-- An id is listed once by the owner of its project, and by nobody else. -/
  listed : ∀ owner id, (s.ownerProjects owner).count id =
    if (s.project id).map Project.owner = some owner then 1 else 0

theorem Catalogue.initial (admin : Address) : Catalogue (construct admin) := by
  refine ⟨fun id => ?_, nofun, nofun, fun _ _ => rfl⟩
  constructor
  · rintro ⟨_, hproject⟩
    cases hproject
  · rintro ⟨hpos, hle⟩
    -- the counter starts at zero, and there is no project
    exact absurd (hpos.trans hle) (Nat.not_succ_le_zero 0)

/-- The next id is unused. -/
theorem Catalogue.next_unused {s : State} (hC : Catalogue s) :
    s.project (s.projectCount + 1) = none := by
  cases hproject : s.project (s.projectCount + 1) with
  | none => rfl
  | some project =>
    have hle := ((hC.ids _).mp ⟨project, hproject⟩).2
    omega

/-- An available hash has no live project, however many were registered under it. -/
theorem Catalogue.not_live {s : State} (hC : Catalogue s) {id : ℕ} {project : Project}
    (havailable : metadataHashAvailable s project.metadataIpfsHash = true)
    (hproject : s.project id = some project) : ¬ Live project := by
  intro hlive
  -- the index names the live project, and the guard has looked at that one
  have hindex := hC.indexed id project hproject hlive
  exact metadataHashAvailable_iff.mp havailable id project hindex hproject hlive

/-- **Registration** keeps the catalogue: the index of the hash moves to the new project, and no
live project is left behind. -/
theorem Catalogue.register {s s' : State} {caller : Address} {hash : Bytes32} {new : Project}
    (hC : Catalogue s) (havailable : metadataHashAvailable s hash = true)
    (hid : new.id = s.projectCount + 1) (howned : new.owner = caller)
    (hhashed : new.metadataIpfsHash = hash) (hcount : s'.projectCount = s.projectCount + 1)
    (hproject : s'.project = Function.update s.project (s.projectCount + 1) (some new))
    (hhash : s'.projectByHash = Function.update s.projectByHash hash (some (s.projectCount + 1)))
    (howner : s'.ownerProjects = Function.update s.ownerProjects caller
      (s.ownerProjects caller ++ [s.projectCount + 1])) : Catalogue s' := by
  have hunused := hC.next_unused
  -- the stored projects are the new one and the old ones
  have hcases : ∀ {id : ℕ} {project : Project}, s'.project id = some project →
      id = s.projectCount + 1 ∧ project = new ∨ s.project id = some project := by
    intro id project hread
    rw [hproject, Function.update_apply] at hread
    split at hread
    · next heq =>
      cases hread
      exact Or.inl ⟨heq, rfl⟩
    · exact Or.inr hread
  refine ⟨fun id => ?_, fun id project hread => ?_, fun id project hread hlive => ?_,
    fun owner id => ?_⟩
  · rw [hcount]
    -- the ids now go one further
    by_cases hnew : id = s.projectCount + 1
    · subst hnew
      exact ⟨fun _ => by omega, fun _ => ⟨new, by rw [hproject, Function.update_self]⟩⟩
    · rw [hproject, Function.update_of_ne hnew, hC.ids id]
      omega
  · rcases hcases hread with ⟨rfl, rfl⟩ | hold
    -- the new one under its id, the old ones under theirs
    · exact hid
    · exact hC.numbered id project hold
  · rw [hhash]
    rcases hcases hread with ⟨rfl, rfl⟩ | hold
    · rw [hhashed, Function.update_self]
    -- a live project under the same hash would have kept the guard from passing
    · have hne : project.metadataIpfsHash ≠ hash := by
        rintro rfl
        exact hC.not_live havailable hold hlive
      rw [Function.update_of_ne hne]
      exact hC.indexed id project hold hlive
  · have hlisted := hC.listed owner id
    rw [hproject, howner]
    by_cases hnew : id = s.projectCount + 1
    · -- the new id was in no list, and enters that of the caller
      subst hnew
      rw [hunused, Option.map_none, if_neg nofun] at hlisted
      rw [Function.update_self, Option.map_some, howned]
      by_cases how : owner = caller
      · subst how
        rw [Function.update_self, List.count_append, hlisted, List.count_singleton_self,
          if_pos rfl]
      · rw [Function.update_of_ne how, hlisted, if_neg]
        rintro ⟨⟩
        exact how rfl
    · rw [Function.update_of_ne hnew, ← hlisted]
      by_cases how : owner = caller
      · subst how
        rw [Function.update_self, List.count_append, List.count_singleton, if_neg, Nat.add_zero]
        exact fun heq => hnew (eq_of_beq heq).symm
      · rw [Function.update_of_ne how]

/-- **A status change** keeps the catalogue: a project that is live after it was live before. -/
theorem Catalogue.change {s s' : State} {projectId : ℕ} {project : Project}
    {target : ProjectStatus} (hC : Catalogue s) (hold : s.project projectId = some project)
    (hlive : Live project) (hcount : s'.projectCount = s.projectCount)
    (hproject : s'.project =
      Function.update s.project projectId (some { project with status := target }))
    (hhash : s'.projectByHash = s.projectByHash)
    (howner : s'.ownerProjects = s.ownerProjects) : Catalogue s' := by
  have hself : s'.project projectId = some { project with status := target } := by
    rw [hproject, Function.update_self]
  have hother : ∀ {id : ℕ}, id ≠ projectId → s'.project id = s.project id := by
    intro id hne
    rw [hproject, Function.update_of_ne hne]
  refine ⟨fun id => ?_, fun id q hread => ?_, fun id q hread hq => ?_, fun owner id => ?_⟩
  · rw [hcount, ← hC.ids id]
    -- the ids in use do not change
    by_cases hid : id = projectId
    · subst hid
      exact ⟨fun _ => ⟨project, hold⟩, fun _ => ⟨_, hself⟩⟩
    · rw [hother hid]
  · by_cases hid : id = projectId
    · subst hid
      rw [hself] at hread
      cases hread
      exact hC.numbered id project hold
    · rw [hother hid] at hread
      exact hC.numbered id q hread
  -- the index stays, and it named this project when it was live before
  · rw [hhash]
    by_cases hid : id = projectId
    · subst hid
      rw [hself] at hread
      cases hread
      exact hC.indexed id project hold hlive
    · rw [hother hid] at hread
      exact hC.indexed id q hread hq
  · rw [howner, hC.listed owner id]
    by_cases hid : id = projectId
    -- the owner is not rewritten
    · subst hid
      rw [hself, hold]
      rfl
    · rw [hother hid]

/-- **Invariant preservation.** A new project gets the next id; a change of status keeps everything
but the status. -/
theorem Catalogue.step {s s' : State} {op : Op} (hC : Catalogue s) (hstep : Filing s s' op) :
    Catalogue s' := by
  cases hstep with
  | same hcount hproject hhash howner =>
    refine ⟨?_, ?_, ?_, ?_⟩
    · rw [hcount, hproject]
      exact hC.ids
    · rw [hproject]
      exact hC.numbered
    · rw [hproject, hhash]
      exact hC.indexed
    · rw [hproject, howner]
      exact hC.listed
  | register havailable hcount hproject hhash howner =>
    exact hC.register havailable rfl rfl rfl hcount hproject hhash howner
  | change hold hmove hcount hproject hhash howner =>
    exact hC.change hold hmove.live hcount hproject hhash howner

/-- The index by hash names the newest project of a hash, live or not. -/
def NewestIndexed (s : State) : Prop :=
  ∀ hash newest, s.projectByHash hash = some newest → ∀ id project, s.project id = some project →
    project.metadataIpfsHash = hash → id ≤ newest

theorem NewestIndexed.initial (admin : Address) : NewestIndexed (construct admin) := nofun

/-- A registration is the newest of its hash, and nothing else moves the index. -/
theorem NewestIndexed.step {s s' : State} {op : Op} (hN : NewestIndexed s) (hC : Catalogue s)
    (hstep : Filing s s' op) : NewestIndexed s' := by
  intro hash newest hindex id project hread hhash
  cases hstep with
  | same _ hproject hindexed _ =>
    rw [hindexed] at hindex
    rw [hproject] at hread
    exact hN hash newest hindex id project hread hhash
  | register _ _ hproject hindexed _ =>
    rw [hindexed, Function.update_apply] at hindex
    rw [hproject, Function.update_apply] at hread
    split at hindex
    · next hsame =>
      -- the index has moved to the new id, which is past every id in use
      cases hindex
      split at hread
      · next hid => exact hid.le
      · exact ((hC.ids id).mp ⟨project, hread⟩).2.trans (Nat.le_succ _)
    · next hother =>
      split at hread
      · cases hread
        exact absurd hhash.symm hother
      · exact hN hash newest hindex id project hread hhash
  | @change _ projectId old target hold _ _ hproject hindexed _ =>
    rw [hindexed] at hindex
    rw [hproject, Function.update_apply] at hread
    split at hread
    · next hid =>
      -- a status change keeps the hash
      cases hread
      exact hid ▸ hN hash newest hindex projectId old hold hhash
    · exact hN hash newest hindex id project hread hhash

/-! ### Runs -/

theorem Catalogue.of_run {h : List (Call State Op (Option ℕ))} {s : State}
    (hrun : Run machine Init h s) : Catalogue s := by
  refine hrun.invariant ?_ ?_
  · rintro _ ⟨admin, rfl⟩
    exact .initial admin
  · intro t s op r s' hC hexec
    exact hC.step (filing_of_exec hexec)

/-- What is stored under an id is the project `project`, at the same or at a later status; a
project that is not live stays what it is. -/
def Continues (project : Project) (id : ℕ) (s : State) : Prop :=
  ∃ status, s.project id = some { project with status := status } ∧
    (¬ Live project → status = project.status)

/-- **A call continues every project.** Its owner, its hash and its texts are what is continued. -/
theorem Continues.step {s s' : State} {op : Op} {id : ℕ} {project : Project} (hC : Catalogue s)
    (hstep : Filing s s' op) (h : Continues project id s) : Continues project id s' := by
  obtain ⟨status, hread, hfinal⟩ := h
  cases hstep with
  | same _ hproject _ _ => exact ⟨status, by rw [hproject, hread], hfinal⟩
  | register _ _ hproject _ _ =>
    -- a registration takes an unused id
    have hne : id ≠ s.projectCount + 1 := by
      rintro rfl
      rw [hC.next_unused] at hread
      cases hread
    exact ⟨status, by rw [hproject, Function.update_of_ne hne, hread], hfinal⟩
  | @change _ projectId old target hold hmove _ hproject _ _ =>
    by_cases hid : id = projectId
    · subst hid
      rw [hread] at hold
      cases hold
      refine ⟨target, by rw [hproject, Function.update_self], fun hproject => ?_⟩
      -- a project that moves is live, and so was the earlier one
      have hlive : Live project := by
        by_contra hnot
        have hmoved := hmove.live
        rw [hfinal hnot] at hmoved
        exact hnot hmoved
      exact absurd hlive hproject
    · exact ⟨status, by rw [hproject, Function.update_of_ne hid, hread], hfinal⟩

/-- Under an id in use stands a project, which continues itself. -/
theorem Continues.refl {s : State} {id : ℕ} {project : Project}
    (hread : s.project id = some project) : Continues project id s :=
  ⟨project.status, hread, fun _ => rfl⟩

/-- **Metadata-hash uniqueness.** In every reached state a hash has at most one pending or approved
project, and the queries by hash answer with it; the ids are those up to the counter, each in its
owner's list once and in no other; and a project keeps everything but its status, and keeps that
too once it is rejected or inactive. -/
theorem metadata_hash_unique {h : List (Call State Op (Option ℕ))} {s : State}
    (hrun : Run machine Init h s) :
    (∀ hash id₁ id₂ project₁ project₂, s.project id₁ = some project₁ →
      s.project id₂ = some project₂ → project₁.metadataIpfsHash = hash →
      project₂.metadataIpfsHash = hash → Live project₁ → Live project₂ → id₁ = id₂) ∧
    (∀ hash id project, s.project id = some project → project.metadataIpfsHash = hash →
      Live project → s.projectByHash hash = some id ∧ getProjectByHash s hash = .ok project ∧
        getProjectStatusByHash s hash = .ok project.status) ∧
    (∀ id, (∃ project, s.project id = some project) ↔ 1 ≤ id ∧ id ≤ s.projectCount) ∧
    (∀ id project, s.project id = some project → project.id = id ∧
      ∀ owner, (getOwnerProjects s owner).count id = if owner = project.owner then 1 else 0) ∧
    (∀ owner, ∀ id ∈ getOwnerProjects s owner, 1 ≤ id ∧ id ≤ s.projectCount) ∧
    (∀ c ∈ h, ∀ id project, c.post.project id = some project →
      ∃ status, s.project id = some { project with status := status } ∧
        (project.status = .rejected ∨ project.status = .inactive → status = project.status)) := by
  have hC := Catalogue.of_run hrun
  refine ⟨?_, ?_, hC.ids, ?_, ?_, ?_⟩
  · rintro hash id₁ id₂ project₁ project₂ h₁ h₂ rfl hhash hlive₁ hlive₂
    -- both are what the index of the hash names
    have hindex₁ := hC.indexed id₁ project₁ h₁ hlive₁
    have hindex₂ := hC.indexed id₂ project₂ h₂ hlive₂
    rw [hhash, hindex₁] at hindex₂
    exact Option.some.inj hindex₂
  · rintro hash id project hread rfl hlive
    have hindex := hC.indexed id project hread hlive
    refine ⟨hindex, ?_, ?_⟩
    · simp only [getProjectByHash, bind_eq_ok, orError_eq_ok]
      exact ⟨id, hindex, hread⟩
    · simp only [getProjectStatusByHash, bind_eq_ok, orError_eq_ok, pure_eq_ok]
      exact ⟨id, hindex, project, hread, rfl⟩
  · intro id project hread
    refine ⟨hC.numbered id project hread, fun owner => ?_⟩
    rw [getOwnerProjects, hC.listed owner id, hread, Option.map_some]
    simp only [Option.some.injEq, eq_comm]
  · intro owner id hmem
    have hcount := List.count_pos_iff.mpr hmem
    rw [getOwnerProjects, hC.listed owner id] at hcount
    cases hread : s.project id with
    | none => simp [hread] at hcount
    | some project => exact (hC.ids id).mp ⟨project, hread⟩
  · intro c hc id project hread
    have hcontinues : Continues project id s := by
      refine hrun.stable ?_ hc (Continues.refl hread)
      intro h t s op r s' hrun hproject hexec
      -- one call continues what the calls before it have left
      exact hproject.step (Catalogue.of_run hrun) (filing_of_exec hexec)
    obtain ⟨status, hnow, hfinal⟩ := hcontinues
    refine ⟨status, hnow, fun hstatus => hfinal ?_⟩
    rintro (hpending | happroved)
    · simp [hpending] at hstatus
    · simp [happroved] at hstatus

/-- A rejected hash is registered again, by another owner, and approved: the queries speak of the
second project, and the first one stays rejected. -/
theorem metadata_hash_unique_reused : ∃ h s, Run machine Init h s ∧
    s.projectByHash 7 = some 2 ∧ getProjectStatusByHash s 7 = .ok .approved ∧
    (getOwnerProjects s ⟨3⟩).count 2 = 1 ∧ (getOwnerProjects s ⟨2⟩).count 2 = 0 := by
  let ops : List (ℕ × Op) :=
    [(1, .registerProject ⟨2⟩ 7 "mangroves" "m" "c" 0), (2, .rejectProject ⟨1⟩ 1 0),
      (3, .registerProject ⟨3⟩ 7 "mangroves" "m" "c" 0), (4, .approveProject ⟨1⟩ 2 1)]
  have hplay : (machine.play [] (construct ⟨1⟩) ops).map (fun p => p.2.project 2) =
      some (some ⟨2, ⟨3⟩, 7, "mangroves", .approved, "m", "c"⟩) := by decide
  have hinit : Init (construct ⟨1⟩) := ⟨⟨1⟩, rfl⟩
  obtain ⟨h, s, hrun, hread⟩ := Run.of_play hinit hplay
  obtain ⟨-, hindexed, -, hlisted, -⟩ := metadata_hash_unique hrun
  obtain ⟨hindex, -, hstatus⟩ := hindexed 7 2 _ hread rfl (Or.inr rfl)
  obtain ⟨-, hcount⟩ := hlisted 2 _ hread
  exact ⟨h, s, hrun, hindex, hstatus, hcount ⟨3⟩, hcount ⟨2⟩⟩

end ProjectRegistry
end NbsBond
