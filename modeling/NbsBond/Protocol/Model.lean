import NbsBond.CreditRetirement.Model

/-!
# The deployed protocol

`BondIssuer`, `OracleConsumer`, `CouponEngine` and `CreditRetirement` deployed once each, wired to
one another as their constructors wire them, together with any number of `ProjectRegistry`
contracts. An operation of the protocol is an external call of one entrypoint of one of them; the
cross-contract calls it makes read and write the states of the others.

A contract address has no key: only the contract itself, from inside one of its own calls, acts
under it. `exec` therefore refuses an external call that claims the authorization of the
`OracleConsumer` or of `CreditRetirement`, the two contracts that authorize nested calls.
-/

namespace NbsBond
namespace Protocol

open Soroban

/-- The joint state. The contracts know each other by the addresses here; who has which address is
up to the deployment. -/
structure World where
  oracleId : Address
  retirementId : Address
  /-- The registry `CouponEngine` was constructed with. -/
  engineRegistry : Address
  issuer : BondIssuer.State
  registries : OracleConsumer.Registries
  oracle : OracleConsumer.State
  engine : CouponEngine.State
  retirement : CreditRetirement.State

/-- What the cross-contract reads of `CouponEngine` return. `none` is a call that traps or is
answered with an error: the coupon engine does not tell them apart. -/
def World.deps (w : World) : CouponEngine.Deps where
  getBond b := (BondIssuer.getBond w.issuer b).toOption
  totalSubscribed b := (BondIssuer.totalSubscribed w.issuer b).toOption
  getReport r := (OracleConsumer.getReport w.oracle r).toOption
  getProjectStatusByHash hash := do
    let registry ← w.registries w.engineRegistry
    (ProjectRegistry.getProjectStatusByHash registry hash).toOption

/-- An external call. -/
inductive Op where
  | issuer (op : BondIssuer.Op)
  | registry (registryId : Address) (op : ProjectRegistry.Op)
  | oracle (op : OracleConsumer.Op)
  | engine (op : CouponEngine.Op)
  | retirement (op : CreditRetirement.Op)
  deriving DecidableEq, Repr

/-- The answers of the entrypoints. -/
inductive Ret where
  | issuer (bondId : Option BondId)
  | registry (projectId : Option ℕ)
  | oracle (reportId : Option ReportId)
  | engine (ret : CouponEngine.Ret)
  | retirement (retirementId : ℕ)
  deriving DecidableEq, Repr

/-- The errors of the entrypoints. -/
inductive Error where
  | issuer (e : BondError)
  | registry (e : RegistryError)
  | oracle (e : OracleError)
  | engine (e : CouponEngineError)
  | retirement (e : CreditError)
  deriving DecidableEq, Repr

/-- The addresses that sign for calls which contracts of the protocol also make themselves:
`revoke_project` and `deduct_credits`. Every other entrypoint is called by accounts only. -/
def Op.signers : Op → List Address
  | .registry _ op => [op.caller]
  | .engine (.deductCredits signers _ _ _ _) => signers
  | .retirement (.retireCredits signers _ _ _ _ _ _ _ _) => signers
  | _ => []

/-- Nobody signs for a contract. Whoever signs an external call has a key, and a contract has
none. -/
def Op.Signed (w : World) (op : Op) : Prop := w.oracleId ∉ op.signers ∧ w.retirementId ∉ op.signers

instance (w : World) (op : Op) : Decidable (op.Signed w) := inferInstanceAs (Decidable (_ ∧ _))

/-- The effect of a call whose signatures are in order. Each contract sees its own part, and of the
others what it reads or calls. -/
def run (now : ℕ) (w : World) : Op → Result Error (World × Ret)
  | .issuer op => do
    let (s, r) ← liftError .issuer (BondIssuer.exec now w.issuer op)
    return ({ w with issuer := s }, .issuer r)
  | .registry registryId op => do
    let registry ← orTrap (w.registries registryId)
    let (s, r) ← liftError .registry (ProjectRegistry.exec now registry op)
    return ({ w with
      registries := Function.update w.registries registryId (some s) }, .registry r)
  | .oracle op => do
    let (s, r) ← liftError .oracle (OracleConsumer.exec now w.oracleId w.registries w.oracle op)
    return ({ w with oracle := s.1, registries := s.2 }, .oracle r)
  | .engine op => do
    let (s, r) ← liftError .engine (CouponEngine.exec w.deps w.engine op)
    return ({ w with engine := s }, .engine r)
  | .retirement op => do
    let (s, r) ← liftError .retirement
      (CreditRetirement.exec now w.retirementId w.issuer w.engine w.retirement op)
    return ({ w with retirement := s.1, engine := s.2 }, .retirement r)

/-- Run one external call. A call with a signature that cannot be is no error of a contract. -/
def exec (now : ℕ) (w : World) (op : Op) : Result Error (World × Ret) :=
  if op.Signed w then run now w op else .error .trap

/-- The protocol. -/
def machine : Machine World Op Ret Error := ⟨exec⟩

theorem exec_of_signed {now : ℕ} {w : World} {op : Op} (h : op.Signed w) :
    machine.exec now w op = run now w op := if_pos h

/-- A call of a registry that goes through, by an address that is no contract. -/
theorem exec_of_registry {now : ℕ} {w : World} {registryId : Address} {op : ProjectRegistry.Op}
    {registry s : ProjectRegistry.State} {r : Option ℕ}
    (hdeployed : w.registries registryId = some registry)
    (h : ProjectRegistry.exec now registry op = .ok (s, r))
    (hcaller : op.caller ≠ w.oracleId ∧ op.caller ≠ w.retirementId) :
    machine.exec now w (.registry registryId op) = .ok ({ w with
      registries := Function.update w.registries registryId (some s) }, .registry r) := by
  have hsigned : (Op.registry registryId op).Signed w := by
    simp [Op.Signed, Op.signers, hcaller.1.symm, hcaller.2.symm]
  rw [exec_of_signed hsigned]
  simp only [run, bind_eq_ok, liftError_eq_ok, orTrap_eq_ok, pure_eq_ok]
  exact ⟨registry, hdeployed, (s, r), h, rfl⟩

/-- A call of `OracleConsumer` that goes through. -/
theorem exec_of_oracle {now : ℕ} {w : World} {op : OracleConsumer.Op} {s : OracleConsumer.State}
    {regs : OracleConsumer.Registries} {r : Option ReportId}
    (h : OracleConsumer.exec now w.oracleId w.registries w.oracle op = .ok ((s, regs), r)) :
    machine.exec now w (.oracle op) =
      .ok ({ w with oracle := s, registries := regs }, .oracle r) := by
  rw [exec_of_signed ⟨List.not_mem_nil, List.not_mem_nil⟩]
  simp only [run, h]
  rfl

/-- All contracts freshly constructed; a registry address is either deployed or not. Which accounts
are the admins is left open, and the contracts may have different ones. -/
structure Init (w : World) : Prop where
  issuer : BondIssuer.Init w.issuer
  registries : ∀ a, w.registries a = none ∨
    ∃ admin, w.registries a = some (ProjectRegistry.construct admin)
  oracle : ∃ admin, w.oracle = OracleConsumer.construct admin
  engine : ∃ admin, w.engine = CouponEngine.construct admin
  retirement : ∃ admin, w.retirement = CreditRetirement.construct admin

/-- A deployment by one admin, with one registry. The witnesses start from here. -/
def deploy (admin oracleId retirementId registryId : Address) : World where
  oracleId := oracleId
  retirementId := retirementId
  engineRegistry := registryId
  issuer := BondIssuer.construct admin
  registries a := if a = registryId then some (ProjectRegistry.construct admin) else none
  oracle := OracleConsumer.construct admin
  engine := CouponEngine.construct admin
  retirement := CreditRetirement.construct admin

theorem Init.deploy (admin oracleId retirementId registryId : Address) :
    Init (deploy admin oracleId retirementId registryId) where
  issuer := ⟨admin, rfl⟩
  registries a := by
    unfold Protocol.deploy
    dsimp only
    split
    · exact Or.inr ⟨admin, rfl⟩
    · exact Or.inl rfl
  oracle := ⟨admin, rfl⟩
  engine := ⟨admin, rfl⟩
  retirement := ⟨admin, rfl⟩

/-- The calls that connect the registry, approve a first project with metadata hash `hash` and
register two providers. The first three prepare the registry, the others the oracle. -/
def onboard (admin owner provider verifier oracleId registryId : Address) (hash : Bytes32) :
    List (ℕ × Op) :=
  [(0, .registry registryId (.registerProject owner hash "project" "VM0007" "KE" 0)),
    (0, .registry registryId (.approveProject admin 1 0)),
    (0, .registry registryId (.setOracleConsumer admin oracleId 1)),
    (0, .oracle (.setProjectRegistry admin registryId 0)),
    (0, .oracle (.registerProvider admin provider "VM0007" 1)),
    (0, .oracle (.registerProvider admin verifier "VM0007" 2))]

/-- A committed call of the protocol. -/
abbrev Call : Type := Soroban.Call World Op Ret

/-- `Run h w`: the committed calls `h`, newest first, lead from a fresh deployment to `w`. -/
abbrev Run (h : List Call) (w : World) : Prop := Soroban.Run machine Init h w

/-! ### What a committed call is -/

/-- A committed call is a committed call of one contract, applied to that contract's part of the
joint state. The rest of the joint state is the same on both sides: what is not mentioned does not
change. -/
inductive Step (now : ℕ) (w : World) : Op → World → Ret → Prop
  | issuer {op : BondIssuer.Op} {s : BondIssuer.State} {r : Option BondId}
      (h : BondIssuer.exec now w.issuer op = .ok (s, r)) :
      Step now w (.issuer op) { w with issuer := s } (.issuer r)
  | registry {registryId : Address} {op : ProjectRegistry.Op}
      {registry s : ProjectRegistry.State} {r : Option ℕ}
      (hcaller : w.oracleId ≠ op.caller)
      (hregistry : w.registries registryId = some registry)
      (h : ProjectRegistry.exec now registry op = .ok (s, r)) :
      Step now w (.registry registryId op)
        { w with registries := Function.update w.registries registryId (some s) } (.registry r)
  | oracle {op : OracleConsumer.Op} {s : OracleConsumer.State} {regs : OracleConsumer.Registries}
      {r : Option ReportId}
      (h : OracleConsumer.exec now w.oracleId w.registries w.oracle op = .ok ((s, regs), r)) :
      Step now w (.oracle op) { w with oracle := s, registries := regs } (.oracle r)
  | engine {op : CouponEngine.Op} {s : CouponEngine.State} {r : CouponEngine.Ret}
      (h : CouponEngine.exec w.deps w.engine op = .ok (s, r)) :
      Step now w (.engine op) { w with engine := s } (.engine r)
  | retirement {op : CreditRetirement.Op} {s : CreditRetirement.State} {e : CouponEngine.State}
      {r : ℕ}
      (h : CreditRetirement.exec now w.retirementId w.issuer w.engine w.retirement op =
        .ok ((s, e), r)) :
      Step now w (.retirement op) { w with retirement := s, engine := e } (.retirement r)

/-- **Inversion.** Every property of a step of the protocol starts from here. -/
theorem step_of_exec {now : ℕ} {w w' : World} {op : Op} {r : Ret}
    (h : machine.exec now w op = .ok (w', r)) : Step now w op w' r := by
  change exec now w op = .ok (w', r) at h
  unfold exec at h
  split at h
  -- A call that is not signed commits nothing.
  swap
  · cases h
  next hsigned =>
  cases op with
  | issuer op =>
    simp only [run, bind_eq_ok, liftError_eq_ok, pure_eq_ok, Prod.mk.injEq] at h
    obtain ⟨⟨s, r⟩, h, rfl, rfl⟩ := h
    exact .issuer h
  | registry registryId op =>
    simp only [run, bind_eq_ok, liftError_eq_ok, orTrap_eq_ok, pure_eq_ok, Prod.mk.injEq] at h
    obtain ⟨registry, hregistry, ⟨s, r⟩, h, rfl, rfl⟩ := h
    refine .registry ?_ hregistry h
    rintro heq
    -- The oracle consumer would be among the signers.
    exact hsigned.1 (by simp [Op.signers, heq])
  | oracle op =>
    simp only [run, bind_eq_ok, liftError_eq_ok, pure_eq_ok, Prod.mk.injEq] at h
    obtain ⟨⟨⟨s, regs⟩, r⟩, h, rfl, rfl⟩ := h
    exact .oracle h
  | engine op =>
    simp only [run, bind_eq_ok, liftError_eq_ok, pure_eq_ok, Prod.mk.injEq] at h
    obtain ⟨⟨s, r⟩, h, rfl, rfl⟩ := h
    exact .engine h
  | retirement op =>
    simp only [run, bind_eq_ok, liftError_eq_ok, pure_eq_ok, Prod.mk.injEq] at h
    obtain ⟨⟨⟨s, e⟩, r⟩, h, rfl, rfl⟩ := h
    exact .retirement h

end Protocol
end NbsBond
