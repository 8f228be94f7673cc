import NbsBond.ProjectRegistry.Model

/-!
# Callers and the admin

Every entrypoint of the registry uses up one nonce of its caller and no other, and the three
entrypoints that rotate the admin follow the rules of a `Transfer` (`exec_authority`).
-/

namespace NbsBond
namespace ProjectRegistry

open Soroban

/-- The admin role of a registry. -/
def seat (s : State) : Seat Address := adminSeat s.admin s.pendingAdmin

/-- What a call does to the admin role. -/
def Op.act : Op → Act Address
  | .proposeAdminTransfer caller candidate _ => .propose caller candidate
  | .cancelAdminTransfer _ _ => .cancel
  | .acceptAdminTransfer caller _ => .accept caller
  | _ => .other

theorem changeStatus_nonce {s s' : State} {projectId : ℕ} {source target : ProjectStatus}
    (h : changeStatus s projectId source target = .ok s') :
    s'.nonce = s.nonce ∧ seat s' = seat s := by
  simp only [changeStatus, bind_eq_ok, pure_eq_ok] at h
  obtain ⟨_, -, _, -, rfl⟩ := h
  exact ⟨rfl, rfl⟩

theorem adminChangeStatus_nonce {s s' : State} {caller : Address} {projectId nonce : ℕ}
    {source target : ProjectStatus}
    (h : adminChangeStatus s caller projectId nonce source target = .ok s') :
    s'.nonce = Function.update s.nonce caller (s.nonce caller + 1) ∧ seat s' = seat s := by
  simp only [adminChangeStatus, bind_eq_ok, useNonce_eq_ok] at h
  obtain ⟨_, ⟨-, rfl⟩, _, -, h⟩ := h
  exact changeStatus_nonce h

theorem revokeProject_nonce {s s' : State} {caller : Address} {projectId nonce : ℕ}
    (h : revokeProject s caller projectId nonce = .ok s') :
    s'.nonce = Function.update s.nonce caller (s.nonce caller + 1) ∧ seat s' = seat s := by
  simp only [revokeProject, bind_eq_ok, useNonce_eq_ok] at h
  obtain ⟨_, ⟨-, rfl⟩, _, -, h⟩ := h
  exact changeStatus_nonce h

/-- **What a call does to nonces and to the admin role.** The nonce that moves is the caller's. -/
theorem exec_authority {now : ℕ} {s s' : State} {op : Op} {r : Option ℕ}
    (h : exec now s op = .ok (s', r)) :
    s'.nonce = Function.update s.nonce op.caller (s.nonce op.caller + 1) ∧
      Transfer adminTransferDeadline now (seat s) op.act (seat s') := by
  -- a call that keeps both entries of the role
  have hkept : seat s' = seat s → Transfer adminTransferDeadline now (seat s) .other (seat s') := by
    intro hseat
    rw [hseat]
    exact .other
  cases op with
  | registerProject caller hash name methodology country nonce =>
    simp only [exec, registerProject, bind_eq_ok, useNonce_eq_ok, pure_eq_ok, Prod.mk.injEq] at h
    obtain ⟨⟨s₁, id⟩, ⟨_, ⟨-, rfl⟩, _, -, _, -, rfl, -⟩, rfl, -⟩ := h
    exact ⟨rfl, .other⟩
  | suspendProject caller projectId nonce =>
    simp only [exec, suspendProject, bind_eq_ok, pure_eq_ok, Prod.mk.injEq] at h
    obtain ⟨s₁, h, rfl, -⟩ := h
    exact (adminChangeStatus_nonce h).imp_right hkept
  | revokeProject caller projectId nonce =>
    -- open to the admin and to the oracle; the nonce is that of whoever calls
    simp only [exec, bind_eq_ok, pure_eq_ok, Prod.mk.injEq] at h
    obtain ⟨s₁, h, rfl, -⟩ := h
    exact (revokeProject_nonce h).imp_right hkept
  | approveProject caller projectId nonce =>
    simp only [exec, approveProject, bind_eq_ok, pure_eq_ok, Prod.mk.injEq] at h
    obtain ⟨s₁, h, rfl, -⟩ := h
    exact (adminChangeStatus_nonce h).imp_right hkept
  | rejectProject caller projectId nonce =>
    simp only [exec, rejectProject, bind_eq_ok, pure_eq_ok, Prod.mk.injEq] at h
    obtain ⟨s₁, h, rfl, -⟩ := h
    exact (adminChangeStatus_nonce h).imp_right hkept
  | setOracleConsumer caller oracleConsumerId nonce =>
    simp only [exec, setOracleConsumer, bind_eq_ok, useNonce_eq_ok, pure_eq_ok, Prod.mk.injEq] at h
    obtain ⟨_, ⟨_, ⟨-, rfl⟩, _, -, rfl⟩, rfl, -⟩ := h
    exact ⟨rfl, .other⟩
  -- the nonce is checked before the transfer
  | proposeAdminTransfer caller candidate nonce =>
    simp only [exec, proposeAdminTransfer, bind_eq_ok, useNonce_eq_ok, pure_eq_ok,
      Prod.mk.injEq] at h
    obtain ⟨_, ⟨_, ⟨-, rfl⟩, pending, hpropose, rfl⟩, rfl, -⟩ := h
    exact ⟨rfl, proposeTransfer_transfer hpropose⟩
  | cancelAdminTransfer caller nonce =>
    simp only [exec, cancelAdminTransfer, bind_eq_ok, useNonce_eq_ok, pure_eq_ok,
      Prod.mk.injEq] at h
    obtain ⟨_, ⟨_, ⟨-, rfl⟩, _, -, rfl⟩, rfl, -⟩ := h
    exact ⟨rfl, .cancel⟩
  | acceptAdminTransfer caller nonce =>
    simp only [exec, acceptAdminTransfer, bind_eq_ok, useNonce_eq_ok, pure_eq_ok,
      Prod.mk.injEq] at h
    obtain ⟨_, ⟨_, ⟨-, rfl⟩, _, haccept, rfl⟩, rfl, -⟩ := h
    exact ⟨rfl, acceptTransfer_transfer haccept⟩

end ProjectRegistry
end NbsBond
