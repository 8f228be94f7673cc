import NbsBond.OracleConsumer.Council
import NbsBond.Protocol.Model

/-!
# Reports in the running protocol

The life cycle of reports along runs of the whole protocol: only calls of `OracleConsumer` touch
the docket, so its invariants hold in every reached state, and what is said about the past of a
report (who signed it, who challenged it) is read off the history of committed calls.
-/

namespace NbsBond
namespace Protocol

open Soroban OracleConsumer

/-- A committed call either is a move on the docket or leaves the whole oracle alone. -/
theorem Step.docket {now : ℕ} {w w' : World} {op : Op} {r : Ret} (hstep : Step now w op w' r) :
    (∃ op', op = .oracle op' ∧ OracleConsumer.Step now w.oracle (docket w'.oracle) op') ∨
      ((∀ op', op ≠ .oracle op') ∧ w'.oracle = w.oracle) := by
  cases hstep with
  | oracle h => exact Or.inl ⟨_, rfl, OracleConsumer.step_of_exec h⟩
  | issuer h => exact Or.inr ⟨nofun, rfl⟩
  | registry _ _ h => exact Or.inr ⟨nofun, rfl⟩
  | engine h => exact Or.inr ⟨nofun, rfl⟩
  | retirement h => exact Or.inr ⟨nofun, rfl⟩

/-- The docket of every reached state satisfies the life-cycle invariant. -/
theorem lifeCycle_of_run {h : List Call} {w : World} (hrun : Run h w) :
    LifeCycle (docket w.oracle) := by
  refine hrun.invariant (P := fun w => LifeCycle (docket w.oracle)) ?_ ?_
  · rintro w hinit
    obtain ⟨admin, hadmin⟩ := hinit.oracle
    rw [hadmin]
    exact LifeCycle.initial admin
  · intro t w op r w' hL hexec
    obtain ⟨op', -, hstep⟩ | ⟨-, hsame⟩ := (step_of_exec hexec).docket
    · exact hL.step hstep
    · rw [hsame]
      exact hL

/-- It is a move of the council, too. -/
theorem Step.move {now : ℕ} {w w' : World} {op : Op} {r : Ret} (hstep : Step now w op w' r) :
    (∃ op', op = .oracle op' ∧
        Move now w.oracleId w.registries w'.registries w.oracle w'.oracle op') ∨
      ((∀ op', op ≠ .oracle op') ∧ w'.oracle = w.oracle) := by
  cases hstep with
  | oracle h => exact Or.inl ⟨_, rfl, move_of_exec h⟩
  | issuer h => exact Or.inr ⟨nofun, rfl⟩
  | registry _ _ h => exact Or.inr ⟨nofun, rfl⟩
  | engine h => exact Or.inr ⟨nofun, rfl⟩
  | retirement h => exact Or.inr ⟨nofun, rfl⟩

/-- **Invariant rule** for the storage of the oracle: what holds of a fresh contract and is kept by
every move holds in every reached state. -/
theorem oracle_invariant {P : OracleConsumer.State → Prop} {h : List Call} {w : World}
    (hrun : Run h w) (hinit : ∀ admin, P (construct admin))
    (hstep : ∀ {now own regs regs' s s' op}, LifeCycle (docket s) → P s →
      OracleConsumer.Step now s (docket s') op → Move now own regs regs' s s' op → P s') :
    P w.oracle := by
  refine hrun.induction (P := fun _ w => P w.oracle) ?_ ?_
  · intro w hw
    obtain ⟨admin, hadmin⟩ := hw.oracle
    rw [hadmin]
    exact hinit admin
  · intro h w t op r w' hrun _ hexec hP
    obtain ⟨op', rfl, hmove⟩ | ⟨-, hsame⟩ := (step_of_exec hexec).move
    · obtain ⟨_, heq, hdocket⟩ | ⟨hne, -⟩ := (step_of_exec hexec).docket
      · cases heq
        exact hstep (lifeCycle_of_run hrun) hP hdocket hmove
      · exact absurd rfl (hne op')
    · rw [hsame]
      exact hP

/-! ### Consensus verification -/

/-- `a` signed report `r` in call `c`, as an active provider. -/
def Signed (r : ReportId) (a : Address) (c : Call) : Prop :=
  (∃ nonce, c.op = .oracle (.verifyReport a r nonce)) ∧ isActive c.pre.oracle a = true

/-- Every signature on record was given by a provider that was active at that time. -/
theorem signed_of_run {h : List Call} {w : World} (hrun : Run h w) :
    ∀ r, ∀ a ∈ w.oracle.reportVerifiers r, ∃ c ∈ h, Signed r a c := by
  refine hrun.induction
    (P := fun h w => ∀ r, ∀ a ∈ w.oracle.reportVerifiers r, ∃ c ∈ h, Signed r a c) ?_ ?_
  · intro w hinit r a ha
    obtain ⟨admin, hadmin⟩ := hinit.oracle
    rw [hadmin] at ha
    exact absurd ha List.not_mem_nil
  · intro h w t op ret w' _ _ hexec ih r a ha
    -- an old signature keeps its witness in the history; a new one is this call
    by_cases hold : a ∈ w.oracle.reportVerifiers r
    · obtain ⟨c, hc, hsigned⟩ := ih r a hold
      exact ⟨c, List.mem_cons_of_mem _ hc, hsigned⟩
    · obtain ⟨op', rfl, hstep⟩ | ⟨-, hsame⟩ := (step_of_exec hexec).docket
      · obtain ⟨nonce, rfl, hactive⟩ := hstep.new_verifier ha hold
        exact ⟨_, List.mem_cons_self, ⟨nonce, rfl⟩, hactive⟩
      · rw [hsame] at ha
        exact absurd ha hold

/-- The call `c` turned report `r` verified by consensus; `h` is the history before it. That the
signers were active is said of the calls in which they signed, not of now. -/
structure Consensus (h : List Call) (c : Call) (r : ReportId) (rep : Report) : Prop where
  distinct : (c.post.oracle.reportVerifiers r).Nodup
  enough : c.pre.oracle.signatureThreshold ≤ (c.post.oracle.reportVerifiers r).length
  foreign : rep.provider ∉ c.post.oracle.reportVerifiers r
  active : ∀ a ∈ c.post.oracle.reportVerifiers r, ∃ d ∈ c :: h, Signed r a d
  unchallenged : ∀ ch, c.post.oracle.challenge r = some ch → ch.resolved = true
  counted : c.post.oracle.verificationCount r = (c.post.oracle.reportVerifiers r).length

/-- **Consensus verification.** In every run, the signature counter of every report equals the
length of its list of signatures; and a call that turns a report verified is a `verify_report` that
completes a consensus, an `admin_override_report` by the admin, or the resolution of an open
challenge. -/
theorem verified_by_consensus {h : List Call} {w : World} (hrun : Run h w) :
    (∀ r, w.oracle.verificationCount r = (w.oracle.reportVerifiers r).length) ∧
    ∀ h₁ c h₂, h = h₁ ++ c :: h₂ → ∀ r rep, c.post.oracle.report r = some rep →
      rep.status = .verified →
      (∀ rep₀, c.pre.oracle.report r = some rep₀ → rep₀.status ≠ .verified) →
      (∃ caller nonce, c.op = .oracle (.verifyReport caller r nonce) ∧ Consensus h₂ c r rep) ∨
      (∃ caller nonce, c.op = .oracle (.adminOverrideReport caller r .verified nonce) ∧
        c.pre.oracle.admin = some caller) ∨
      (∃ op, c.op = .oracle op ∧ op.resolves = some r ∧
        ∃ ch, c.pre.oracle.challenge r = some ch ∧ ch.resolved = false) := by
  refine ⟨(lifeCycle_of_run hrun).counted, ?_⟩
  rintro h₁ ⟨t, pre, op, ret, post⟩ h₂ rfl r rep hrep hverified hbefore
  dsimp only at hrep hbefore ⊢
  obtain ⟨hpast, htime, hexec⟩ := hrun.past
  dsimp only at hpast htime hexec
  -- the call completes the run up to its own post-state, where the signatures are counted
  have hpost : Run (⟨t, pre, op, ret, post⟩ :: h₂) post := .call hpast htime hexec
  obtain ⟨op', rfl, hstep⟩ | ⟨-, hsame⟩ := (step_of_exec hexec).docket
  · obtain ⟨caller, nonce, rfl, henough, hclosed⟩ | ⟨caller, nonce, rfl, hadmin⟩ | ⟨hop, hopen⟩ :=
      hstep.verified_cause hrep hverified hbefore
    · have hL := lifeCycle_of_run hpost
      refine Or.inl ⟨caller, nonce, rfl, ?_⟩
      exact ⟨hL.distinct r, henough, hL.foreign r rep hrep, signed_of_run hpost r, hclosed,
        hL.counted r⟩
    · exact Or.inr (Or.inl ⟨caller, nonce, rfl, hadmin⟩)
    · exact Or.inr (Or.inr ⟨op', rfl, hop, hopen⟩)
  · rw [hsame] at hrep
    exact absurd hverified (hbefore rep hrep)

/-- With a threshold of one, the signature of the second provider verifies the first one's
report. -/
theorem verified_by_consensus_two_providers :
    ∃ h c h₂ w rep, Run h w ∧ h = c :: h₂ ∧ w.oracle.report 1 = some rep ∧
      rep.status = .verified ∧ Consensus h₂ c 1 rep := by
  let ops : List (ℕ × Op) := (onboard ⟨0⟩ ⟨5⟩ ⟨1⟩ ⟨2⟩ ⟨100⟩ ⟨102⟩ 7).append
    [(1, .oracle (.submitReport ⟨1⟩ 1 0 10 5000 .absent "VM0007" 3 0)),
      (2, .oracle (.verifyReport ⟨2⟩ 1 0))]
  let rep : Report := ⟨1, ⟨1⟩, 1, 7, 0, 10, 5000, .absent, "VM0007", 3, .verified, 1, 2⟩
  have hplay : (machine.play [] (deploy ⟨0⟩ ⟨100⟩ ⟨101⟩ ⟨102⟩) ops).map
      (fun p => (p.1.head?.map fun c => (c.op, c.pre.oracle.report 1), p.2.oracle.report 1)) =
      some (some (.oracle (.verifyReport ⟨2⟩ 1 0),
        some { rep with status := .pending, verifiedAt := 0 }), some rep) := by decide
  obtain ⟨h, w, hrun, hview⟩ := Run.of_play (Init.deploy ⟨0⟩ ⟨100⟩ ⟨101⟩ ⟨102⟩) hplay
  rw [Prod.mk.injEq] at hview
  obtain ⟨hhead, hrep⟩ := hview
  cases h with
  | nil => cases hhead
  | cons c h₂ =>
    simp only [List.head?_cons, Option.map_some, Option.some.injEq, Prod.mk.injEq] at hhead
    obtain ⟨hop, hpre⟩ := hhead
    have hpost : c.post = w := hrun.post_eq
    refine ⟨c :: h₂, c, h₂, w, rep, hrun, rfl, hrep, rfl, ?_⟩
    -- the report was pending before the call, and the call is no override and no resolution
    obtain ⟨_, _, -, hconsensus⟩ | ⟨_, _, hop', -⟩ | ⟨_, hop', hres, -⟩ :=
      (verified_by_consensus hrun).2 [] c h₂ rfl 1 rep (hpost ▸ hrep) rfl (by
        intro rep₀ hrep₀
        rw [hpre] at hrep₀
        cases hrep₀
        decide)
    · exact hconsensus
    · rw [hop] at hop'
      cases hop'
    · rw [hop] at hop'
      cases hop'
      cases hres

end Protocol
end NbsBond
