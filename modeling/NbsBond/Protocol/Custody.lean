import NbsBond.BondIssuer.Callers
import NbsBond.CouponEngine.Callers
import NbsBond.Protocol.Retirements

/-!
# A holder that does nothing keeps what it has

`deduct_credits` takes credits from any holder, and the address that may call it is whatever the
admin of `CouponEngine` registered. While that is `CreditRetirement`, credits leave an account by a
claim or a retirement of its own only, and bond tokens by a call of its own at `BondIssuer`. So what
an address holds and what it earned never gets less while it calls none of these, whoever else
calls what (`idle_holder_keeps`).
-/

namespace NbsBond
namespace CouponEngine

open Soroban

/-- Only its own entrypoint sets the address that may deduct. -/
theorem exec_deductCaller {deps : Deps} {s s' : State} {op : Op} {r : Ret}
    (h : exec deps s op = .ok (s', r)) :
    s'.deductCaller = s.deductCaller ∨
      ∃ caller d nonce, op = .registerDeductCaller caller d nonce ∧ s'.deductCaller = some d := by
  cases op with
  | registerBond caller bondId projectId nonce =>
    simp only [exec, registerBond, bind_eq_ok, pure_eq_ok, Prod.mk.injEq] at h
    obtain ⟨_, ⟨_, -, _, -, _, -, _, -, _, -, _, -, rfl⟩, rfl, -⟩ := h
    exact .inl rfl
  | distributeCoupon caller bondId periodIndex holders reportId nonce isFinalBatch =>
    simp only [exec, distributeCoupon, bind_eq_ok, pure_eq_ok, Prod.mk.injEq] at h
    obtain ⟨⟨_, _⟩, ⟨_, -, _, -, h⟩, rfl, -⟩ := h
    exact .inl (distribute_accrues h).deductCaller
  | claimCredits caller bondId nonce =>
    simp only [exec, claimCredits, bind_eq_ok, pure_eq_ok, Prod.mk.injEq] at h
    obtain ⟨⟨_, _⟩, ⟨_, -, h⟩, rfl, -⟩ := h
    split at h
    · simp only [bind_eq_ok, pure_eq_ok, Prod.mk.injEq] at h
      obtain ⟨⟨s₁, _⟩, hclaim, rfl, -⟩ := h
      exact .inl (claimByType_spares hclaim).deductCaller
    · cases h
      exact .inl rfl
  | sweepUndistributed caller bondId destination nonce =>
    simp only [exec, sweepUndistributed, bind_eq_ok, pure_eq_ok, Prod.mk.injEq] at h
    obtain ⟨⟨_, _⟩, ⟨_, -, _, -, _, -, _, -, h⟩, rfl, -⟩ := h
    split at h
    · cases h
      exact .inl rfl
    · simp only [bind_eq_ok, pure_eq_ok, Prod.mk.injEq] at h
      obtain ⟨s₁, hcarbon, s₂, hbiodiversity, rfl, -⟩ := h
      have hadds := (accruePositive_accrues hcarbon).trans (accruePositive_accrues hbiodiversity)
      exact .inl hadds.deductCaller
  | registerDeductCaller caller d nonce =>
    simp only [exec, registerDeductCaller, bind_eq_ok, pure_eq_ok, Prod.mk.injEq] at h
    obtain ⟨_, ⟨_, -, _, -, rfl⟩, rfl, -⟩ := h
    exact .inr ⟨caller, d, nonce, rfl, rfl⟩
  | deductCredits signers bondId holder amount creditType =>
    simp only [exec, bind_eq_ok, pure_eq_ok, Prod.mk.injEq] at h
    obtain ⟨⟨_, _⟩, h, rfl, -⟩ := h
    exact .inl (deductCredits_spares h).deductCaller

/-- A deduction is signed by the registered address. -/
theorem deductCredits_signed {s s' : State} {signers : List Address} {bondId : BondId}
    {holder : Address} {amount balance : ℤ} {creditType : CreditType}
    (h : deductCredits s signers bondId holder amount creditType = .ok (s', balance)) :
    ∃ d, s.deductCaller = some d ∧ d ∈ signers := by
  simp only [deductCredits, bind_eq_ok, orError_eq_ok, requireAuth_eq_ok] at h
  obtain ⟨d, hd, _, hsigned, -⟩ := h
  exact ⟨d, hd, hsigned⟩

end CouponEngine

namespace Protocol

open Soroban

/-- A call of a holder that may cost it tokens or credits. -/
def Op.Spends (a : Address) : Op → Prop
  | .issuer op => op.ticket.map Prod.fst = some a
  | .engine (.claimCredits caller _ _) => caller = a
  | .retirement (.retireCredits _ holder _ _ _ _ _ _ _) => holder = a
  | _ => False

instance (a : Address) : DecidablePred (Op.Spends a)
  | .issuer op => inferInstanceAs (Decidable (op.ticket.map Prod.fst = some a))
  | .engine (.claimCredits caller _ _) => inferInstanceAs (Decidable (caller = a))
  | .retirement (.retireCredits _ holder _ _ _ _ _ _ _) => inferInstanceAs (Decidable (holder = a))
  | .engine (.registerBond ..) | .engine (.distributeCoupon ..) | .engine (.sweepUndistributed ..)
  | .engine (.registerDeductCaller ..) | .engine (.deductCredits ..) => .isFalse id
  | .retirement (.extendRetirementTtl _) | .retirement .totalRetirements => .isFalse id
  | .registry .. | .oracle _ => .isFalse id

/-- Nobody but `CreditRetirement` is registered to deduct. -/
def Op.Entrusts (w : World) : Op → Prop
  | .engine (.registerDeductCaller _ deductCaller _) => deductCaller = w.retirementId
  | _ => True

instance (w : World) : DecidablePred (Op.Entrusts w)
  | .engine (.registerDeductCaller _ deductCaller _) =>
    inferInstanceAs (Decidable (deductCaller = w.retirementId))
  | .engine (.registerBond ..) | .engine (.distributeCoupon ..) | .engine (.sweepUndistributed ..)
  | .engine (.claimCredits ..) | .engine (.deductCredits ..) => .isTrue trivial
  | .issuer _ | .registry .. | .oracle _ | .retirement _ => .isTrue trivial

/-- The address that may deduct credits, if any, is `CreditRetirement`. -/
def World.Entrusted (w : World) : Prop := ∀ d, w.engine.deductCaller = some d → d = w.retirementId

/-- What an address holds and what it earned is in `w'` at least what it was in `w`. It is an order,
so what every call keeps is kept by a run. -/
structure Keeps (a : Address) (w w' : World) : Prop where
  bonds : ∀ b, w.issuer.holderBalance (b, a) ≤ w'.issuer.holderBalance (b, a)
  credits : ∀ b, w.engine.accruedCredits (b, a) ≤ w'.engine.accruedCredits (b, a)
  byType : ∀ b t, w.engine.accruedCreditsByType (b, a, t) ≤ w'.engine.accruedCreditsByType (b, a, t)

theorem Keeps.refl (a : Address) (w : World) : Keeps a w w :=
  ⟨fun _ => le_rfl, fun _ => le_rfl, fun _ _ => le_rfl⟩

theorem Keeps.trans {a : Address} {w₁ w₂ w₃ : World} (h : Keeps a w₁ w₂) (h' : Keeps a w₂ w₃) :
    Keeps a w₁ w₃ where
  bonds b := (h.bonds b).trans (h'.bonds b)
  credits b := (h.credits b).trans (h'.credits b)
  byType b t := (h.byType b t).trans (h'.byType b t)

section Custody

variable {now : ℕ} {w w' w₀ : World} {op : Op} {r : Ret} {a : Address} {h : List Call}

/-- A retirement costs nobody but its holder. -/
theorem retirement_spares {self : Address} {issuer : BondIssuer.State}
    {engine engine' : CouponEngine.State} {s s' : CreditRetirement.State}
    {op : CreditRetirement.Op} {r : ℕ}
    (h : CreditRetirement.exec now self issuer engine s op = .ok ((s', engine'), r)) :
    engine' = engine ∨ ∃ signers holder bondId projectId periodIndex amount creditType hash nonce,
      op = .retireCredits signers holder bondId projectId periodIndex amount creditType hash nonce ∧
        CouponEngine.Spares holder engine engine' := by
  cases op with
  | retireCredits signers holder bondId projectId periodIndex amount creditType hash nonce =>
    simp only [CreditRetirement.exec, CreditRetirement.retireCredits, bind_eq_ok, pure_eq_ok,
      Prod.mk.injEq] at h
    obtain ⟨_, -, _, -, _, -, _, -, _, -, _, -, _, -, _, -, _, -, _, -, ⟨engine₁, balance⟩, hdeduct,
      _, -, ⟨-, rfl⟩, -⟩ := h
    have hengine : CouponEngine.deductCredits engine (self :: signers) bondId holder amount
        creditType = .ok (engine₁, balance) := by
      simpa using hdeduct
    exact .inr ⟨_, _, _, _, _, _, _, _, _, rfl, CouponEngine.deductCredits_spares hengine⟩
  | extendRetirementTtl retirementId =>
    simp only [CreditRetirement.exec, bind_eq_ok, pure_eq_ok, Prod.mk.injEq] at h
    obtain ⟨_, -, ⟨-, rfl⟩, -⟩ := h
    exact .inl rfl
  | totalRetirements =>
    simp only [CreditRetirement.exec] at h
    cases h
    exact .inl rfl

/-- A call keeps the trust in `CreditRetirement`, unless it registers another address. -/
theorem entrusted_step (hw : w.Entrusted) (hop : op.Entrusts w)
    (hexec : machine.exec now w op = .ok (w', r)) : w'.Entrusted := by
  cases step_of_exec hexec with
  | issuer _ | registry _ _ _ | oracle _ => exact hw
  | @engine op s r h =>
    intro d hd
    rcases CouponEngine.exec_deductCaller h with hsame | ⟨caller, d', nonce, rfl, hset⟩
    · exact hw d (hsame.symm.trans hd)
    · have heq : d' = d := Option.some.inj (hset.symm.trans hd)
      exact heq.symm.trans hop
  | retirement h =>
    intro d hd
    obtain rfl | ⟨_, _, _, _, _, _, _, _, _, -, hspares⟩ := retirement_spares h
    · exact hw d hd
    · exact hw d (hspares.deductCaller.symm.trans hd)

/-- **No call of another takes anything.** -/
theorem keeps_step (hw : w.Entrusted) (hidle : ¬ op.Spends a)
    (hexec : machine.exec now w op = .ok (w', r)) : Keeps a w w' := by
  have hsigned : op.Signed w := by
    by_contra hnot
    have hrefused : machine.exec now w op = .error .trap := if_neg hnot
    exact absurd (hrefused.symm.trans hexec) nofun
  cases step_of_exec hexec with
  | registry _ _ _ | oracle _ => exact ⟨fun b => le_rfl, fun b => le_rfl, fun b t => le_rfl⟩
  | issuer h =>
    refine ⟨(BondIssuer.exec_ledger h).idle ?_, fun b => le_rfl, fun b t => le_rfl⟩
    intro nonce hticket
    exact hidle (congrArg (Option.map Prod.fst) hticket)
  | @engine op s r h =>
    have htakes : ¬ op.TakesFrom a := by
      cases op with
      | claimCredits caller bondId nonce => exact hidle
      | deductCredits signers bondId holder amount creditType =>
        -- nobody can sign for `CreditRetirement`
        simp only [CouponEngine.exec, bind_eq_ok] at h
        obtain ⟨⟨_, _⟩, hdeduct, -⟩ := h
        obtain ⟨d, hd, hmem⟩ := CouponEngine.deductCredits_signed hdeduct
        rw [hw d hd] at hmem
        exact absurd hmem hsigned.2
      | registerBond | distributeCoupon | sweepUndistributed | registerDeductCaller => exact id
    obtain ⟨hcredits, hbyType⟩ := CouponEngine.exec_idle h htakes
    exact ⟨fun b => le_rfl, hcredits, hbyType⟩
  | retirement h =>
    obtain rfl | ⟨_, holder, _, _, _, _, _, _, _, rfl, hspares⟩ := retirement_spares h
    · exact ⟨fun b => le_rfl, fun b => le_rfl, fun b t => le_rfl⟩
    · have hother : a ≠ holder := fun heq => hidle heq.symm
      exact ⟨fun b => le_rfl, fun b => (hspares.combined b a hother).ge,
        fun b t => (hspares.byType b a t hother).ge⟩

/-- **Custody.** From any state in which only `CreditRetirement` may deduct, and while no other
address is registered to, an address that makes none of the calls that cost it something keeps its
bond tokens and its credits, whatever the others call. -/
theorem idle_holder_keeps (hrun : Soroban.Run machine (fun w => w = w₀) h w)
    (hentrusted : w₀.Entrusted) (hentrusts : ∀ c ∈ h, c.op.Entrusts c.pre)
    (hidle : ∀ c ∈ h, ¬ c.op.Spends a) : Keeps a w₀ w := by
  have hboth : ∀ c ∈ h, c.op.Entrusts c.pre ∧ ¬ c.op.Spends a :=
    fun c hc => ⟨hentrusts c hc, hidle c hc⟩
  have hkeeps := hrun.guarded (G := fun w op => op.Entrusts w ∧ ¬ op.Spends a)
    (P := fun w => w.Entrusted ∧ Keeps a w₀ w)
    (fun w hw => by
      subst hw
      exact ⟨hentrusted, .refl a w⟩)
    (fun now w op r w' hw hop hexec =>
      ⟨entrusted_step hw.1 hop.1 hexec, hw.2.trans (keeps_step hw.1 hop.2 hexec)⟩) hboth
  exact hkeeps.2

end Custody

/-- One holder retires and claims; the other waits. -/
theorem idle_holder_keeps_waiting : ∃ w₀ h w, Soroban.Run machine (fun w => w = w₀) h w ∧
    h.length = 2 ∧ 0 < w₀.engine.accruedCredits (1, ⟨8⟩) ∧ Keeps ⟨8⟩ w₀ w := by
  obtain ⟨h₂, c, h₁, w, hrun, hview⟩ := Run.of_play_split machine
    (retirableBond ++
      [(3, .retirement (.retireCredits [] ⟨9⟩ 1 7 0 1 .carbon 6 0)),
        (4, .engine (.claimCredits ⟨9⟩ 1 0))]) 2
    (fun h₂ c _ _ => decide (h₂.length = 2 ∧ 0 < c.post.engine.accruedCredits (1, ⟨8⟩) ∧
      c.post.engine.deductCaller = some c.post.retirementId ∧
      ∀ d ∈ h₂, d.op.Entrusts d.pre ∧ ¬ d.op.Spends ⟨8⟩))
    (Init.deploy ⟨0⟩ ⟨100⟩ ⟨101⟩ ⟨102⟩) (by decide)
  obtain ⟨hlength, hcredits, hdeduct, hcalls⟩ := of_decide_eq_true hview
  have hentrusted : c.post.Entrusted := fun d hd => Option.some.inj (hd.symm.trans hdeduct)
  exact ⟨c.post, h₂, w, hrun.future, hlength, hcredits, idle_holder_keeps hrun.future hentrusted
    (fun d hd => (hcalls d hd).1) (fun d hd => (hcalls d hd).2)⟩

end Protocol
end NbsBond
