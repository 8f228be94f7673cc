import NbsBond.OracleConsumer.Council
import NbsBond.OracleConsumer.Revocation
import NbsBond.ProjectRegistry.Authority
import NbsBond.Protocol.Model

/-!
# Rotating an admin

`OracleConsumer` and every `ProjectRegistry` hand their admin role over in two steps. Both follow
the rules of a `Transfer`, so the handover rule applies: whoever becomes admin was proposed by the
admin of the time, nothing has touched the role since, and the stored deadline has passed.

The deadline is the time of the proposal plus the timelock, an unchecked `u64` addition. As long as
it does not wrap around, a passed deadline means that the timelock has run (`admin_rotation_safe`);
where it does, the candidate takes over at once (`rotation_without_delay`).
-/

namespace NbsBond
namespace Protocol

open Soroban OracleConsumer

/-- The contracts whose admin can be rotated. -/
inductive Contract where
  | oracle
  | registry (registryId : Address)
  deriving DecidableEq, Repr

/-- The stored admin. -/
def Contract.admin : Contract → World → Option Address
  | .oracle, w => w.oracle.admin
  | .registry registryId, w => (w.registries registryId).bind ProjectRegistry.State.admin

/-- The stored `PendingAdmin`. -/
def Contract.pendingAdmin : Contract → World → Option PendingAdminChange
  | .oracle, w => w.oracle.pendingAdmin
  | .registry registryId, w => (w.registries registryId).bind ProjectRegistry.State.pendingAdmin

/-- The admin role of a contract; nobody holds it where none is deployed. -/
def Contract.seat (k : Contract) (w : World) : Seat Address :=
  adminSeat (k.admin w) (k.pendingAdmin w)

/-- What a call does to the admin role of a contract. -/
def Contract.act : Contract → Op → Act Address
  | .oracle, .oracle op => op.act
  | .registry registryId, .registry called op => if called = registryId then op.act else .other
  | _, _ => .other

/-- The role of a deployed registry. -/
theorem registry_seat {w : World} {registryId : Address} {registry : ProjectRegistry.State}
    (h : w.registries registryId = some registry) :
    (Contract.registry registryId).seat w = ProjectRegistry.seat registry := by
  show adminSeat ((w.registries registryId).bind _) ((w.registries registryId).bind _) = _
  rw [h]
  rfl

/-- A write to another address leaves the role alone. -/
theorem registry_seat_congr {w w' : World} {registryId : Address}
    (h : w'.registries registryId = w.registries registryId) :
    (Contract.registry registryId).seat w' = (Contract.registry registryId).seat w := by
  show adminSeat ((w'.registries registryId).bind _) ((w'.registries registryId).bind _) = _
  rw [h]
  rfl

/-- A registry that the oracle calls keeps its admin role. -/
theorem registry_seat_kept {now : ℕ} {w : World} {op : OracleConsumer.Op}
    {s : OracleConsumer.State} {regs : Registries} {ret : Option ReportId} {registryId : Address}
    (h : OracleConsumer.exec now w.oracleId w.registries w.oracle op = .ok ((s, regs), ret)) :
    (Contract.registry registryId).seat { w with oracle := s, registries := regs } =
      (Contract.registry registryId).seat w := by
  obtain hsame | ⟨r, -, -, rep, called, registry, registry', -, -, hregistry, hrevoke, hregs⟩ :=
    (move_of_exec h).registries
  · exact registry_seat_congr (congrFun hsame registryId)
  subst hregs
  by_cases hcalled : registryId = called
  · -- `revoke_project` writes a project and a nonce
    subst hcalled
    rw [registry_seat hregistry, registry_seat (Function.update_self ..)]
    exact (ProjectRegistry.revokeProject_nonce hrevoke).2
  · exact registry_seat_congr (Function.update_of_ne hcalled ..)

/-- **Both contracts follow the rules.** The deadline is computed in the same way, wrapping
included. -/
theorem Contract.transfer (k : Contract) {now : ℕ} {w w' : World} {op : Op} {r : Ret}
    (hexec : machine.exec now w op = .ok (w', r)) :
    Transfer adminTransferDeadline now (k.seat w) (k.act op) (k.seat w') := by
  cases step_of_exec hexec with
  -- the other contracts have no admin that these calls could rotate
  | issuer _ => cases k <;> exact .other
  | engine _ => cases k <;> exact .other
  | retirement _ => cases k <;> exact .other
  | oracle h =>
    cases k with
    | oracle => exact (move_of_exec h).transfer
    | registry registryId =>
      -- the oracle only ever revokes a project there
      rw [registry_seat_kept h]
      exact .other
  | @registry called op registry s _ _ hregistry h =>
    cases k with
    | oracle => exact .other
    | registry registryId =>
      unfold Contract.act
      dsimp only
      by_cases hcalled : called = registryId
      · subst hcalled
        rw [if_pos rfl, registry_seat hregistry, registry_seat (Function.update_self ..)]
        exact (ProjectRegistry.exec_authority h).2
      · have hother : (Contract.registry registryId).seat { w with
            registries := Function.update w.registries called (some s) } =
            (Contract.registry registryId).seat w :=
          registry_seat_congr (Function.update_of_ne (Ne.symm hcalled) ..)
        rw [if_neg hcalled, hother]
        exact .other

/-- No role is up for handover in a fresh deployment. -/
theorem Contract.seat_initial (k : Contract) {w : World} (hinit : Init w) :
    (k.seat w).pending = none := by
  cases k with
  | oracle =>
    obtain ⟨admin, hadmin⟩ := hinit.oracle
    show (OracleConsumer.seat w.oracle).pending = none
    rw [hadmin]
    rfl
  | registry registryId =>
    obtain hnone | ⟨admin, hadmin⟩ := hinit.registries registryId
    · show Option.map _ ((w.registries registryId).bind _) = none
      rw [hnone]
      rfl
    · rw [registry_seat hadmin]
      rfl

/-! ### Rotation safety -/

/-- The admin of `k` changes only when a candidate accepts. Whoever does was named in the last
proposal, made by the admin of the time at least a timelock ago, and no proposal, cancellation or
change of admin came in between; so a proposal serves for one change at most. -/
structure RotatesSafely (k : Contract) (h : List Call) : Prop where
  changes : ∀ c ∈ h, k.admin c.post ≠ k.admin c.pre → ∃ a, k.act c.op = .accept a
  warranted : ∀ (h₁ : List Call) (c : Call) (h₂ : List Call), h = h₁ ++ c :: h₂ →
    ∀ a, k.act c.op = .accept a → k.admin c.post = some a ∧
    ∃ (newer : List Call) (d : Call) (older : List Call) (proposer : Address),
      h₂ = newer ++ d :: older ∧ k.act d.op = .propose proposer a ∧ k.admin d.pre = some proposer ∧
      d.time + adminTransferTimelockSeconds ≤ c.time ∧
      ∀ e ∈ newer, k.act e.op = .other ∧ k.admin e.post = k.admin e.pre
  once : ∀ (h₁ : List Call) (c : Call) (h₂ : List Call) (c' : Call) (h₃ : List Call),
    h = h₁ ++ c :: (h₂ ++ c' :: h₃) → ∀ a a', k.act c.op = .accept a → k.act c'.op = .accept a' →
      ∃ d ∈ h₂, ∃ proposer, k.act d.op = .propose proposer a

/-- A deadline that did not wrap around leaves the whole timelock. -/
theorem adminTransferDeadline_exact {t : ℕ} (ht : t + adminTransferTimelockSeconds < 2 ^ 64) :
    adminTransferDeadline t = t + adminTransferTimelockSeconds :=
  Nat.mod_eq_of_lt ht

/-- **Admin rotation safety** of `OracleConsumer` and of every `ProjectRegistry`, in every run in
which no proposal is made so late that its deadline exceeds the range of the ledger time. The
deadline is a plain sum of the time and the delay, and one that wraps has already passed. -/
theorem admin_rotation_safe {h : List Call} {w : World} (hrun : Run h w) (k : Contract)
    (hclock : ∀ c ∈ h, ∀ proposer candidate, k.act c.op = .propose proposer candidate →
      c.time + adminTransferTimelockSeconds < 2 ^ 64) : RotatesSafely k h := by
  -- the two halves of the handover rule, for the calls of this run
  have hkept : ∀ c ∈ h, (∀ a, k.act c.op ≠ .accept a) → k.admin c.post = k.admin c.pre := by
    intro c hc hact
    obtain ⟨_, -, hexec⟩ := hrun.of_mem hc
    have hholder := (k.transfer hexec).holder_eq hact
    exact hholder
  have hwarranted : ∀ h₁ c h₂, h = h₁ ++ c :: h₂ → ∀ a, k.act c.op = .accept a →
      ∃ d, Run.Proposed k.seat k.act a d h₂ ∧ adminTransferDeadline d.time ≤ c.time := by
    rintro h₁ c h₂ rfl a hc
    exact hrun.warranted (fun w hinit => k.seat_initial hinit)
      (fun t w op r w' hexec => k.transfer hexec) hc
  refine ⟨?_, ?_, ?_⟩
  · intro c hc hchange
    by_contra hact
    exact hchange (hkept c hc fun a ha => hact ⟨a, ha⟩)
  · intro h₁ c h₂ hsplit a hc
    obtain ⟨d, ⟨⟨newer, older, hlast, hnewer⟩, proposer, hd, hholder⟩, hdue⟩ :=
      hwarranted h₁ c h₂ hsplit a hc
    have hmem : ∀ e ∈ h₂, e ∈ h := by
      intro e he
      rw [hsplit]
      exact List.mem_append_right _ (List.mem_cons_of_mem _ he)
    have hd_mem : d ∈ h₂ := by
      rw [hlast]
      exact List.mem_append_right _ List.mem_cons_self
    -- the deadline has not wrapped around, so that it is a timelock away
    rw [adminTransferDeadline_exact (hclock d (hmem d hd_mem) proposer a hd)] at hdue
    refine ⟨?_, newer, d, older, proposer, hlast, hd, hholder, hdue, ?_⟩
    · have hc_mem : c ∈ h := by
        rw [hsplit]
        exact List.mem_append_right _ List.mem_cons_self
      obtain ⟨_, -, hexec⟩ := hrun.of_mem hc_mem
      have htransfer := k.transfer hexec
      rw [hc] at htransfer
      exact htransfer.accept_holder
    · intro e he
      have he_mem : e ∈ h₂ := by
        rw [hlast]
        exact List.mem_append_left _ he
      refine ⟨hnewer e he, hkept e (hmem e he_mem) fun b hb => ?_⟩
      rw [hnewer e he] at hb
      cases hb
  · intro h₁ c h₂ c' h₃ hsplit a a' hc hc'
    -- the acceptance `c'` is older than the proposal that warrants `c`
    obtain ⟨d, hP, -⟩ := hwarranted h₁ c (h₂ ++ c' :: h₃) hsplit a hc
    obtain ⟨proposer, hd, -⟩ := hP.proposal
    exact ⟨d, hP.mem_newer hc', proposer, hd⟩

/-- A rotation after exactly the timelock. -/
theorem admin_rotation_safe_after_timelock :
    ∃ h w, Run h w ∧ RotatesSafely .oracle h ∧ w.oracle.admin = some ⟨7⟩ := by
  let ops : List (ℕ × Op) := [(10, .oracle (.proposeAdminTransfer ⟨0⟩ ⟨7⟩ 0)),
    (172810, .oracle (.acceptAdminTransfer ⟨7⟩ 0))]
  have hplay : (machine.play [] (deploy ⟨0⟩ ⟨100⟩ ⟨101⟩ ⟨102⟩) ops).map
      (fun p => (p.1.all fun c => decide (c.time ≤ 172810), p.2.oracle.admin)) =
      some (true, some ⟨7⟩) := by decide
  obtain ⟨h, w, hrun, hview⟩ := Run.of_play (Init.deploy ⟨0⟩ ⟨100⟩ ⟨101⟩ ⟨102⟩) hplay
  rw [Prod.mk.injEq] at hview
  obtain ⟨hearly, hadmin⟩ := hview
  refine ⟨h, w, hrun, admin_rotation_safe hrun .oracle ?_, hadmin⟩
  intro c hc _ _ _
  have htime := of_decide_eq_true (List.all_eq_true.mp hearly c hc)
  unfold adminTransferTimelockSeconds
  omega

/-- In the last second of the ledger clock the deadline wraps around, and the candidate accepts in
that same second. -/
theorem rotation_without_delay : ¬ ∀ (h : List Call) (w : World), Run h w →
    ∀ k, RotatesSafely k h := by
  intro hclaim
  let ops : List (ℕ × Op) := [(2 ^ 64 - 1, .oracle (.proposeAdminTransfer ⟨0⟩ ⟨7⟩ 0)),
    (2 ^ 64 - 1, .oracle (.acceptAdminTransfer ⟨7⟩ 0))]
  have hplay : (machine.play [] (deploy ⟨0⟩ ⟨100⟩ ⟨101⟩ ⟨102⟩) ops).map
      (fun p => p.1.map fun c => (c.time, c.op)) =
      some [(2 ^ 64 - 1, .oracle (.acceptAdminTransfer ⟨7⟩ 0)),
        (2 ^ 64 - 1, .oracle (.proposeAdminTransfer ⟨0⟩ ⟨7⟩ 0))] := by decide
  obtain ⟨h, w, hrun, hview⟩ := Run.of_play (Init.deploy ⟨0⟩ ⟨100⟩ ⟨101⟩ ⟨102⟩) hplay
  cases h with
  | nil => cases hview
  | cons c h₂ =>
    rw [List.map_cons, List.cons.injEq, Prod.mk.injEq] at hview
    obtain ⟨⟨htime, hop⟩, hrest⟩ := hview
    have hsafe := (hclaim (c :: h₂) w hrun .oracle).warranted [] c h₂ rfl ⟨7⟩ (by rw [hop]; rfl)
    obtain ⟨-, newer, d, older, proposer, hlast, -, -, hdelay, -⟩ := hsafe
    have hd : (d.time, d.op) ∈ h₂.map fun c => (c.time, c.op) := by
      refine List.mem_map_of_mem (f := fun c : Call => (c.time, c.op)) ?_
      rw [hlast]
      exact List.mem_append_right _ List.mem_cons_self
    rw [hrest, List.mem_singleton, Prod.mk.injEq] at hd
    rw [htime, hd.1] at hdelay
    unfold adminTransferTimelockSeconds at hdelay
    omega

end Protocol
end NbsBond
