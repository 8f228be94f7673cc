import NbsBond.ProjectRegistry.Catalogue

/-!
# How long a metadata hash stays approved

`get_project_status_by_hash` reads the status of the project last registered under the hash. While
that project is approved the hash cannot be registered again, so the status changes only when the
project itself is suspended or revoked. `Op.retires` names the project such a call retires, and
`Approved.step` says that no other call takes the approval away.
-/

namespace NbsBond
namespace ProjectRegistry

open Soroban

/-- Ids above the counter are unused. -/
def Fresh (s : State) : Prop := ∀ id, s.projectCount < id → s.project id = none

/-- The project last registered under the hash is approved. -/
def Approved (s : State) (hash : Bytes32) : Prop :=
  ∃ id project, s.projectByHash hash = some id ∧ s.project id = some project ∧
    project.status = .approved

theorem getProjectStatusByHash_approved {s : State} {hash : Bytes32} :
    getProjectStatusByHash s hash = .ok .approved ↔ Approved s hash := by
  unfold getProjectStatusByHash Approved
  simp only [bind_eq_ok, orError_eq_ok, pure_eq_ok]
  constructor
  · rintro ⟨id, hid, project, hproject, hstatus⟩
    exact ⟨id, project, hid, hproject, hstatus⟩
  · rintro ⟨id, project, hid, hproject, hstatus⟩
    exact ⟨id, hid, project, hproject, hstatus⟩

/-- The project a call suspends or revokes. -/
def Op.retires : Op → Option ℕ
  | .suspendProject _ projectId _ => some projectId
  | .revokeProject _ projectId _ => some projectId
  | _ => none

/-! ### What a call does to the approvals -/

/-- The effect of a committed call on the tables of projects. -/
inductive ProjectStep (s s' : State) : Op → Prop
  | same {op : Op} (hcount : s'.projectCount = s.projectCount) (hproject : s'.project = s.project)
      (hhash : s'.projectByHash = s.projectByHash) : ProjectStep s s' op
  /-- A new pending project, under a hash whose last project is neither pending nor approved. -/
  | register {caller : Address} {hash : Bytes32} {name methodology country : String} {nonce : ℕ}
      {project : Project} (havailable : metadataHashAvailable s hash = true)
      (hcount : s'.projectCount = s.projectCount + 1)
      (hproject : s'.project = Function.update s.project (s.projectCount + 1) (some project))
      (hhash : s'.projectByHash =
        Function.update s.projectByHash hash (some (s.projectCount + 1))) :
      ProjectStep s s' (.registerProject caller hash name methodology country nonce)
  /-- A project changes its status; an approved one only by being retired. -/
  | change {op : Op} {projectId : ℕ} {project : Project} {target : ProjectStatus}
      (hold : s.project projectId = some project)
      (hretired : project.status = .approved → op.retires = some projectId)
      (hcount : s'.projectCount = s.projectCount)
      (hproject : s'.project =
        Function.update s.project projectId (some { project with status := target }))
      (hhash : s'.projectByHash = s.projectByHash) : ProjectStep s s' op

/-- An approved project moves only by being retired. -/
theorem Move.retires {op : Op} {projectId : ℕ} {project : Project} {target : ProjectStatus}
    (h : Move op projectId project.status target) (happroved : project.status = .approved) :
    op.retires = some projectId := by
  rw [happroved] at h
  cases h with
  | suspend => rfl
  | revoke => rfl

/-- **What a call can do.** -/
theorem exec_projects {now : ℕ} {s s' : State} {op : Op} {r : Option ℕ}
    (h : exec now s op = .ok (s', r)) : ProjectStep s s' op := by
  cases filing_of_exec h with
  | same hcount hproject hhash _ => exact .same hcount hproject hhash
  | register havailable hcount hproject hhash _ =>
    exact .register havailable hcount hproject hhash
  | change hold hmove hcount hproject hhash _ =>
    exact .change hold hmove.retires hcount hproject hhash

/-! ### Keeping the approval -/

theorem Fresh.initial (admin : Address) : Fresh (construct admin) := fun _ _ => rfl

theorem Fresh.step {s s' : State} {op : Op} (hF : Fresh s) (hstep : ProjectStep s s' op) :
    Fresh s' := by
  intro id hid
  cases hstep with
  | same hcount hproject _ =>
    rw [hproject]
    exact hF id (hcount ▸ hid)
  | register _ hcount hproject _ =>
    rw [hcount] at hid
    rw [hproject, Function.update_of_ne (ne_of_gt hid)]
    exact hF id (by omega)
  | @change _ projectId project _ hold _ hcount hproject _ =>
    rw [hcount] at hid
    have hne : id ≠ projectId := by
      rintro rfl
      rw [hF id hid] at hold
      cases hold
    rw [hproject, Function.update_of_ne hne]
    exact hF id hid

/-- **An approved hash stays approved** under every call that does not retire its project. The hash
points to one project at a time. -/
theorem Approved.step {s s' : State} {op : Op} {hash : Bytes32} (hA : Approved s hash)
    (hF : Fresh s) (hstep : ProjectStep s s' op)
    (hop : ∀ id, op.retires = some id → s.projectByHash hash ≠ some id) : Approved s' hash := by
  obtain ⟨id, project, hid, hproject, hstatus⟩ := hA
  cases hstep with
  | same _ hprojects hhashes =>
    refine ⟨id, project, ?_, ?_, hstatus⟩
    · rw [hhashes]
      exact hid
    · rw [hprojects]
      exact hproject
  | @register _ hash' _ _ _ _ new havailable _ hprojects hhashes =>
    -- the hash of an approved project is not available, and its id is in use
    have hne : hash ≠ hash' := by
      rintro rfl
      unfold metadataHashAvailable at havailable
      rw [hid, Option.bind_some, hproject] at havailable
      simp [hstatus] at havailable
    have hused : id ≠ s.projectCount + 1 := by
      rintro rfl
      rw [hF _ (Nat.lt_succ_self _)] at hproject
      cases hproject
    refine ⟨id, project, ?_, ?_, hstatus⟩
    · rw [hhashes, Function.update_of_ne hne]
      exact hid
    · rw [hprojects, Function.update_of_ne hused]
      exact hproject
  | @change _ projectId old target hold hretired _ hprojects hhashes =>
    have hne : id ≠ projectId := by
      rintro rfl
      rw [hproject] at hold
      cases hold
      exact hop id (hretired hstatus) hid
    refine ⟨id, project, ?_, ?_, hstatus⟩
    · rw [hhashes]
      exact hid
    · rw [hprojects, Function.update_of_ne hne]
      exact hproject

end ProjectRegistry
end NbsBond
