import NbsBond.BondIssuer.Callers
import NbsBond.CouponEngine.Callers
import NbsBond.OracleConsumer.Callers
import NbsBond.Protocol.Model

/-!
# A signed call is committed once

Each contract keeps a nonce for each address. A call of an entrypoint spends the nonce that it
presents, and a rejection that revokes a project spends one of the oracle's own at the registry.
What an address spends at a contract in a run is then `0, 1, 2, ..` in this order
(`nonces_in_order`), and a call that presents a nonce and was committed never is again.

The nonces are 64 bits wide, and after the last of them the first would be expected again. The
results are about the runs that do not get there: no address spends `2 ^ 64` nonces at a contract,
and the counter that the wrapping addition leaves is then the one of the model.
-/

namespace NbsBond
namespace Protocol

open Soroban

/-- A contract that keeps nonces, a registry by its address. -/
inductive Callee where
  | issuer
  | registry (registryId : Address)
  | oracle
  | engine
  | retirement
  deriving DecidableEq, Repr

/-- The nonce that a contract expects of an address. -/
def World.nonce (w : World) (a : Address) : Callee → ℕ
  | .issuer => w.issuer.nonce a
  | .registry registryId => OracleConsumer.Registries.nonce w.registries registryId a
  | .oracle => w.oracle.nonce a
  | .engine => w.engine.nonce a
  | .retirement => w.retirement.nonce a

/-- The caller of a registry and the nonce it presents. -/
def registryTicket : ProjectRegistry.Op → Option (Address × ℕ)
  | .registerProject caller _ _ _ _ nonce => some (caller, nonce)
  | .suspendProject caller _ nonce => some (caller, nonce)
  | .revokeProject caller _ nonce => some (caller, nonce)
  | .approveProject caller _ nonce => some (caller, nonce)
  | .rejectProject caller _ nonce => some (caller, nonce)
  | .setOracleConsumer caller _ nonce => some (caller, nonce)
  | .proposeAdminTransfer caller _ nonce => some (caller, nonce)
  | .cancelAdminTransfer caller nonce => some (caller, nonce)
  | .acceptAdminTransfer caller nonce => some (caller, nonce)

/-- The contract that a call goes to. -/
def Op.contract : Op → Callee
  | .issuer _ => .issuer
  | .registry registryId _ => .registry registryId
  | .oracle _ => .oracle
  | .engine _ => .engine
  | .retirement _ => .retirement

/-- The caller and the nonce it presents. -/
def Op.ticket : Op → Option (Address × ℕ)
  | .issuer op => op.ticket
  | .registry _ op => registryTicket op
  | .oracle op => op.ticket
  | .engine op => op.ticket
  | .retirement op => op.ticket

/-- The nonce of `a` at a contract that a call presents there. -/
def Op.presents (contract : Callee) (a : Address) (op : Op) : Option ℕ :=
  if op.contract = contract then presented a op.ticket else none

/-- The nonce of `a` at a contract that a call spends: the one it presents, or that of a nested
revocation under the oracle's address. -/
def spends (contract : Callee) (a : Address) (c : Call) : Option ℕ :=
  match c.op with
  | .oracle op =>
    if contract = .oracle then presented a op.ticket
    else if a = c.pre.oracleId ∧ c.post.nonce a contract ≠ c.pre.nonce a contract then
      some (c.pre.nonce a contract)
    else none
  | op => op.presents contract a

/-! ### One call -/

/-- An entrypoint of the registry uses up one nonce of its caller. -/
theorem registry_uses {now : ℕ} {s s' : ProjectRegistry.State} {op : ProjectRegistry.Op}
    {r : Option ℕ} (h : ProjectRegistry.exec now s op = .ok (s', r)) :
    Uses s.nonce (registryTicket op) s'.nonce := by
  have hnonces := (ProjectRegistry.exec_authority h).1
  rw [hnonces]
  -- what is left is that the nonce presented was the expected one
  have hexpected : ∀ {caller : Address} {nonce : ℕ} {nonces : Address → ℕ} {e : RegistryError},
      useNonce s.nonce caller nonce e = .ok nonces → nonce = s.nonce caller := by
    intro caller nonce nonces e huse
    exact (useNonce_eq_ok.mp huse).1
  cases op with
  | registerProject caller hash name methodology country nonce =>
    simp only [ProjectRegistry.exec, ProjectRegistry.registerProject, bind_eq_ok] at h
    obtain ⟨_, ⟨_, huse, -⟩, -⟩ := h
    cases hexpected huse
    exact .one caller
  | suspendProject caller projectId nonce =>
    simp only [ProjectRegistry.exec, ProjectRegistry.suspendProject,
      ProjectRegistry.adminChangeStatus, bind_eq_ok] at h
    obtain ⟨_, ⟨_, huse, -⟩, -⟩ := h
    cases hexpected huse
    exact .one caller
  | revokeProject caller projectId nonce =>
    simp only [ProjectRegistry.exec, ProjectRegistry.revokeProject, bind_eq_ok] at h
    obtain ⟨_, ⟨_, huse, -⟩, -⟩ := h
    cases hexpected huse
    exact .one caller
  | approveProject caller projectId nonce =>
    simp only [ProjectRegistry.exec, ProjectRegistry.approveProject,
      ProjectRegistry.adminChangeStatus, bind_eq_ok] at h
    obtain ⟨_, ⟨_, huse, -⟩, -⟩ := h
    cases hexpected huse
    exact .one caller
  | rejectProject caller projectId nonce =>
    simp only [ProjectRegistry.exec, ProjectRegistry.rejectProject,
      ProjectRegistry.adminChangeStatus, bind_eq_ok] at h
    obtain ⟨_, ⟨_, huse, -⟩, -⟩ := h
    cases hexpected huse
    exact .one caller
  | setOracleConsumer caller oracleConsumerId nonce =>
    simp only [ProjectRegistry.exec, ProjectRegistry.setOracleConsumer, bind_eq_ok] at h
    obtain ⟨_, ⟨_, huse, -⟩, -⟩ := h
    cases hexpected huse
    exact .one caller
  | proposeAdminTransfer caller candidate nonce =>
    simp only [ProjectRegistry.exec, ProjectRegistry.proposeAdminTransfer, bind_eq_ok] at h
    obtain ⟨_, ⟨_, huse, -⟩, -⟩ := h
    cases hexpected huse
    exact .one caller
  | cancelAdminTransfer caller nonce =>
    simp only [ProjectRegistry.exec, ProjectRegistry.cancelAdminTransfer, bind_eq_ok] at h
    obtain ⟨_, ⟨_, huse, -⟩, -⟩ := h
    cases hexpected huse
    exact .one caller
  | acceptAdminTransfer caller nonce =>
    simp only [ProjectRegistry.exec, ProjectRegistry.acceptAdminTransfer, bind_eq_ok] at h
    obtain ⟨_, ⟨_, huse, -⟩, -⟩ := h
    cases hexpected huse
    exact .one caller

section OneCall

variable {contract : Callee} {a : Address}

/-- Nothing is presented at the contracts that are not called. -/
theorem presents_of_ne {op : Op} (h : op.contract ≠ contract) : op.presents contract a = none :=
  if_neg h

theorem presents_self (op : Op) : op.presents op.contract a = presented a op.ticket := if_pos rfl

/-- **A committed call spends the nonce that is expected, or none.** -/
theorem spends_counts (contract : Callee) (a : Address) {now : ℕ} {w w' : World} {op : Op}
    {r : Ret} (h : Step now w op w' r) :
    Counts (spends contract a ⟨now, w, op, r, w'⟩) (w.nonce a contract) (w'.nonce a contract) := by
  cases h with
  | issuer h =>
    by_cases hcontract : contract = .issuer
    · subst hcontract
      exact (BondIssuer.exec_uses h).counts a
    · refine .inl ⟨presents_of_ne (Ne.symm hcontract), ?_⟩
      cases contract <;> first | rfl | exact absurd rfl hcontract
  | @registry called op registry s _ hcaller hregistry h =>
    by_cases hcontract : contract = .registry called
    · subst hcontract
      have hcounts := (registry_uses h).counts a
      have hpresents : (Op.registry called op).presents (.registry called) a =
          presented a (registryTicket op) := presents_self _
      show Counts ((Op.registry called op).presents (.registry called) a) _ _
      rw [hpresents]
      simp only [World.nonce, OracleConsumer.Registries.nonce, hregistry, Function.update_self,
        Option.elim_some]
      exact hcounts
    · refine .inl ⟨presents_of_ne (Ne.symm hcontract), ?_⟩
      cases contract with
      | registry registryId =>
        have hother : registryId ≠ called := fun hid => hcontract (congrArg Callee.registry hid)
        simp only [World.nonce, OracleConsumer.Registries.nonce, Function.update_of_ne hother]
      | issuer | oracle | engine | retirement => rfl
  | @oracle op s regs _ h =>
    by_cases hcontract : contract = .oracle
    · subst hcontract
      exact (OracleConsumer.exec_uses h).counts a
    · unfold spends
      dsimp only
      rw [if_neg hcontract]
      cases contract with
      | oracle => exact absurd rfl hcontract
      | registry registryId =>
        -- only a nested revocation moves a nonce, which is the oracle's
        rcases OracleConsumer.exec_usesOwn h registryId a with hsame | ⟨hself, hnext⟩
        · exact .inl ⟨if_neg fun hboth => hboth.2 hsame, hsame⟩
        · refine .inr ⟨if_pos ⟨hself, fun hsame => ?_⟩, hnext⟩
          have hstuck := hnext.symm.trans hsame
          exact absurd hstuck (Nat.succ_ne_self _)
      | issuer | engine | retirement => exact .inl ⟨if_neg fun hboth => hboth.2 rfl, rfl⟩
  | engine h =>
    by_cases hcontract : contract = .engine
    · subst hcontract
      exact (CouponEngine.exec_uses h).counts a
    · refine .inl ⟨presents_of_ne (Ne.symm hcontract), ?_⟩
      cases contract <;> first | rfl | exact absurd rfl hcontract
  | retirement h =>
    obtain ⟨huses, hengine⟩ := CreditRetirement.exec_uses h
    by_cases hcontract : contract = .retirement
    · subst hcontract
      exact huses.counts a
    · refine .inl ⟨presents_of_ne (Ne.symm hcontract), ?_⟩
      cases contract with
      | engine => exact congrFun hengine a
      | retirement => exact absurd rfl hcontract
      | issuer | registry | oracle => rfl

/-- A call spends what it presents. -/
theorem spends_of_presents {c : Call} {n : ℕ} (h : c.op.presents contract a = some n) :
    spends contract a c = some n := by
  obtain ⟨t, w, op, r, w'⟩ := c
  cases op with
  | oracle op =>
    have hcontract : Callee.oracle = contract := by
      by_contra hne
      have hnone : (Op.oracle op).presents contract a = none := presents_of_ne hne
      exact absurd (hnone.symm.trans h) nofun
    subst hcontract
    exact h
  | issuer | registry | engine | retirement => exact h

end OneCall

/-! ### Runs -/

theorem nonce_init {w : World} (hw : Init w) (a : Address) (contract : Callee) :
    w.nonce a contract = 0 := by
  cases contract with
  | issuer =>
    obtain ⟨admin, h⟩ := hw.issuer
    rw [World.nonce, h]
    rfl
  | registry registryId =>
    rw [World.nonce, OracleConsumer.Registries.nonce]
    obtain h | ⟨admin, h⟩ := hw.registries registryId
    · rw [h]
      rfl
    · rw [h]
      rfl
  | oracle =>
    obtain ⟨admin, h⟩ := hw.oracle
    rw [World.nonce, h]
    rfl
  | engine =>
    obtain ⟨admin, h⟩ := hw.engine
    rw [World.nonce, h]
    rfl
  | retirement =>
    obtain ⟨admin, h⟩ := hw.retirement
    rw [World.nonce, h]
    rfl

section Runs

variable {h : List Call} {w : World}

theorem spends_of_run (contract : Callee) (a : Address) (h : List Call) (c : Call) (w : World)
    (hrun : Run (c :: h) w) :
    Counts (spends contract a c) (c.pre.nonce a contract) (c.post.nonce a contract) := by
  cases hrun with
  | call _ _ hexec => exact spends_counts contract a (step_of_exec hexec)

/-- Every address has spent fewer nonces at each contract in the calls `h` than 64 bits can tell
apart. -/
def FewNonces (h : List Call) : Prop :=
  ∀ contract a, (h.filterMap (spends contract a)).length < 2 ^ 64

/-- **No replay.** In a run with fewer than `2 ^ 64` nonces of each address at each contract, what
an address spends at a contract is `0, 1, 2, ..` in this order; the nonce expected afterwards is
each time what the 64-bit addition gives; and a call that presented a nonce and was committed is
refused ever after. -/
theorem nonces_in_order (hrun : Run h w) (hfew : FewNonces h) :
    (∀ contract a, h.reverse.filterMap (spends contract a) = List.range (w.nonce a contract)) ∧
    (∀ contract a, ∀ c ∈ h, ∀ n, spends contract a c = some n →
      c.post.nonce a contract = (n + 1) % 2 ^ 64) ∧
    (∀ c ∈ h, c.op.ticket ≠ none → ∀ now w' r, machine.exec now w c.op ≠ .ok (w', r)) := by
  have hinit : ∀ contract a (w : World), Init w → w.nonce a contract = 0 :=
    fun contract a w hw => nonce_init hw a contract
  refine ⟨fun contract a => hrun.numbered (hinit contract a) (spends_of_run contract a),
    fun contract a c hc n hn => hrun.numbered_mod (hinit contract a) (spends_of_run contract a)
      (hfew contract a) hc hn, ?_⟩
  intro c hc hticket now w' r hexec
  obtain ⟨⟨a, n⟩, hticket⟩ := Option.ne_none_iff_exists'.mp hticket
  have hpresents : c.op.presents c.op.contract a = some n := by
    rw [presents_self, hticket, presented_self]
  have hspent : n < w.nonce a c.op.contract :=
    hrun.used_lt (hinit c.op.contract a) (spends_of_run c.op.contract a) hc
      (spends_of_presents hpresents)
  -- the second time the nonce would have to be the expected one
  have hagain := spends_counts c.op.contract a (step_of_exec hexec)
  have hspends : spends c.op.contract a ⟨now, w, c.op, r, w'⟩ = some n :=
    spends_of_presents hpresents
  rw [hspends] at hagain
  obtain ⟨hnone, -⟩ | ⟨hsome, -⟩ := hagain
  · cases hnone
  · exact absurd (Option.some.inj hsome) hspent.ne

/-- No call spends two nonces of an address at one contract. -/
theorem fewNonces_of_length (hshort : h.length < 2 ^ 64) : FewNonces h := fun _ _ =>
  (List.length_filterMap_le _ _).trans_lt hshort

end Runs

/-- The calls of an onboarding: the admin presents `0, 1, 2` to the oracle. -/
theorem nonces_in_order_onboard : ∃ h w, Run h w ∧
    h.reverse.filterMap (spends .oracle ⟨0⟩) = List.range 3 ∧
      (∀ c ∈ h, ∀ n, spends .oracle ⟨0⟩ c = some n → c.post.nonce ⟨0⟩ .oracle = (n + 1) % 2 ^ 64) ∧
      ∀ c ∈ h, c.op.ticket ≠ none → ∀ now w' r, machine.exec now w c.op ≠ .ok (w', r) := by
  have hplay : (machine.play [] (deploy ⟨0⟩ ⟨100⟩ ⟨101⟩ ⟨102⟩)
      (onboard ⟨0⟩ ⟨1⟩ ⟨2⟩ ⟨3⟩ ⟨100⟩ ⟨102⟩ 7)).map
      (fun x => (x.2.nonce ⟨0⟩ .oracle, decide (x.1.length < 2 ^ 64))) = some (3, true) := by
    decide
  obtain ⟨h, w, hrun, hview⟩ := Run.of_play (Init.deploy ⟨0⟩ ⟨100⟩ ⟨101⟩ ⟨102⟩) hplay
  rw [Prod.mk.injEq, decide_eq_true_eq] at hview
  obtain ⟨hnonce, hshort⟩ := hview
  obtain ⟨horder, hnext, hreplay⟩ := nonces_in_order hrun (fewNonces_of_length hshort)
  have hadmin := horder .oracle ⟨0⟩
  rw [hnonce] at hadmin
  exact ⟨h, w, hrun, hadmin, hnext .oracle ⟨0⟩, hreplay⟩

end Protocol
end NbsBond
