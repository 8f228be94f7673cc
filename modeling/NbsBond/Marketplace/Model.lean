import NbsBond.DexRouter.Model

/-!
# The marketplace

`DEXRouter` deployed next to the `BondIssuer` its constructor names. An operation is an external
call of one entrypoint of one of the two; `execute_purchase` reads and writes both.
-/

namespace NbsBond
namespace Marketplace

open Soroban

/-- The joint state. Nothing else is shared between the two contracts. -/
structure Market where
  issuer : BondIssuer.State
  router : DexRouter.State

/-- An external call. -/
inductive Op where
  | issuer (op : BondIssuer.Op)
  | router (op : DexRouter.Op)
  deriving DecidableEq, Repr

/-- The answers of the entrypoints. -/
inductive Ret where
  | issuer (bondId : Option BondId)
  | router (ret : DexRouter.Ret)
  deriving DecidableEq, Repr

/-- The errors of the entrypoints. -/
inductive Error where
  | issuer (e : BondError)
  | router (e : DEXError)
  deriving DecidableEq, Repr

/-- Run one external call. A call of the issuer cannot change the router; a purchase changes
both. -/
def exec (now : ℕ) (m : Market) : Op → Result Error (Market × Ret)
  | .issuer op => do
    let (s, r) ← liftError .issuer (BondIssuer.exec now m.issuer op)
    return ({ m with issuer := s }, .issuer r)
  | .router op => do
    let (s, r) ← liftError .router (DexRouter.exec now m.issuer m.router op)
    return (⟨s.2, s.1⟩, .router r)

/-- The marketplace. -/
def machine : Machine Market Op Ret Error := ⟨exec⟩

/-- Both contracts freshly constructed. -/
structure Init (m : Market) : Prop where
  issuer : BondIssuer.Init m.issuer
  router : ∃ admin, m.router = DexRouter.construct admin

/-- A deployment by one admin. -/
def deploy (admin : Address) : Market := ⟨BondIssuer.construct admin, DexRouter.construct admin⟩

theorem Init.deploy (admin : Address) : Init (deploy admin) := ⟨⟨admin, rfl⟩, admin, rfl⟩

/-- A committed call. -/
abbrev Call : Type := Soroban.Call Market Op Ret

/-- `Run h m`: the committed calls `h`, newest first, lead from a fresh deployment to `m`. -/
abbrev Run (h : List Call) (m : Market) : Prop := Soroban.Run machine Init h m

/-- A committed call is a committed call of one of the contracts. With the joint state on both
sides, so that what is known of one contract can be used for the other. -/
inductive Step (now : ℕ) (m : Market) : Op → Market → Ret → Prop
  | issuer {op : BondIssuer.Op} {s : BondIssuer.State} {r : Option BondId}
      (h : BondIssuer.exec now m.issuer op = .ok (s, r)) :
      Step now m (.issuer op) ⟨s, m.router⟩ (.issuer r)
  | router {op : DexRouter.Op} {s : DexRouter.State} {issuer : BondIssuer.State}
      {r : DexRouter.Ret} (h : DexRouter.exec now m.issuer m.router op = .ok ((s, issuer), r)) :
      Step now m (.router op) ⟨issuer, s⟩ (.router r)

/-- **Inversion.** Every property of a step of the marketplace starts from here. -/
theorem step_of_exec {now : ℕ} {m m' : Market} {op : Op} {r : Ret}
    (h : machine.exec now m op = .ok (m', r)) : Step now m op m' r := by
  change exec now m op = .ok (m', r) at h
  cases op with
  | issuer op =>
    simp only [exec, bind_eq_ok, liftError_eq_ok, pure_eq_ok, Prod.mk.injEq] at h
    obtain ⟨⟨s, r⟩, h, rfl, rfl⟩ := h
    exact .issuer h
  | router op =>
    simp only [exec, bind_eq_ok, liftError_eq_ok, pure_eq_ok, Prod.mk.injEq] at h
    obtain ⟨⟨⟨s, issuer⟩, r⟩, h, rfl, rfl⟩ := h
    exact .router h

end Marketplace
end NbsBond
