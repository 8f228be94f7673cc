import NbsBond.Framework.Handover
import NbsBond.Shared.Types

/-!
# Two-step admin transfer

`OracleConsumer` and `ProjectRegistry` rotate their admin key with the same three entrypoints:
the admin proposes a candidate, the candidate accepts once the timelock has elapsed, and the admin
may cancel in between. The three are written once over the stored `Admin` and `PendingAdmin`; each
contract instantiates them with its own errors. The stored pair is a `Seat`, and the three follow
the rules of a `Transfer`.
-/

namespace NbsBond

open Soroban

/-- Delay between a proposal and its acceptance, in seconds. -/
def adminTransferTimelockSeconds : ℕ := 172800

/-- A proposed admin rotation awaiting acceptance. There is at most one, and a new proposal replaces
it. -/
structure PendingAdminChange where
  candidate : Address
  executableAt : ℕ
  deriving DecidableEq, Repr

variable {ε : Type}

/-- `propose_admin_transfer` after the nonce check; the deadline is a plain `u64` addition. The
candidate may be any address, the admin included. -/
def proposeTransfer (now : ℕ) (admin : Option Address) (caller candidate : Address)
    (missing unauthorized : ε) : Result ε PendingAdminChange := do
  requireAdmin admin caller missing unauthorized
  return ⟨candidate, (now + adminTransferTimelockSeconds) % 2 ^ 64⟩

/-- `cancel_admin_transfer` after the nonce check. What is cancelled must be there. -/
def cancelTransfer (admin : Option Address) (pending : Option PendingAdminChange)
    (caller : Address) (missing unauthorized noPending : ε) : Result ε Unit := do
  requireAdmin admin caller missing unauthorized
  ensure (pending ≠ none) noPending

/-- `accept_admin_transfer` after the nonce check. The stored admin is not asked: it has agreed by
proposing. -/
def acceptTransfer (now : ℕ) (admin : Option Address) (pending : Option PendingAdminChange)
    (caller : Address) (missing unauthorized noPending tooEarly : ε) : Result ε Unit := do
  let pending ← orError pending noPending
  ensure (caller = pending.candidate) unauthorized
  ensure (pending.executableAt ≤ now) tooEarly
  -- Nobody can accept at a contract without an admin.
  let _ ← orError admin missing
  return ()

/-! ### The rules -/

/-- The admin role, as stored. The general rules know a holder, a candidate and the time from which
it may accept. -/
def adminSeat (admin : Option Address) (pending : Option PendingAdminChange) : Seat Address :=
  ⟨admin, pending.map fun change => (change.candidate, change.executableAt)⟩

/-- The deadline of a proposal made at time `now`. A deadline that would leave 64 bits wraps around,
and is over at once. -/
def adminTransferDeadline (now : ℕ) : ℕ := (now + adminTransferTimelockSeconds) % 2 ^ 64

section Rules

variable {now : ℕ} {admin : Option Address} {pending : Option PendingAdminChange}
  {caller : Address} {missing unauthorized noPending tooEarly : ε}

theorem proposeTransfer_transfer {candidate : Address} {pending' : PendingAdminChange}
    (h : proposeTransfer now admin caller candidate missing unauthorized = .ok pending') :
    Transfer adminTransferDeadline now (adminSeat admin pending) (.propose caller candidate)
      (adminSeat admin (some pending')) := by
  simp only [proposeTransfer, bind_eq_ok, requireAdmin_eq_ok, pure_eq_ok] at h
  obtain ⟨_, hadmin, rfl⟩ := h
  exact .propose hadmin

theorem acceptTransfer_transfer {u : Unit}
    (h : acceptTransfer now admin pending caller missing unauthorized noPending tooEarly = .ok u) :
    Transfer adminTransferDeadline now (adminSeat admin pending) (.accept caller)
      (adminSeat (some caller) none) := by
  simp only [acceptTransfer, bind_eq_ok, orError_eq_ok, ensure_eq_ok] at h
  obtain ⟨change, rfl, _, rfl, _, hdue, -⟩ := h
  exact .accept rfl hdue

end Rules

end NbsBond
