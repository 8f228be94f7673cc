import NbsBond.OracleConsumer.Roles
import NbsBond.Protocol.Reports

/-!
# The admin as a verifier

`verify_report` asks whether the caller is an active provider, never whether it is the admin, and
the two roles can meet in one address. A run that never lets them meet (`Op.Separates` for each of
its calls) has no signature of the admin on any report that consensus verifies; a run that does can
verify a report on the admin's signature alone (`admin_verifies`).
-/

namespace NbsBond
namespace Protocol

open Soroban OracleConsumer

/-- The call does not let the roles of `OracleConsumer` meet. -/
def Op.Separates (w : World) : Op → Prop
  | .oracle op => op.Separates w.oracle
  | _ => True

/-- Along a run that keeps the roles apart they are apart. -/
theorem separate_of_run {h : List Call} {w : World} (hrun : Run h w)
    (hsep : ∀ c ∈ h, c.op.Separates c.pre) : Separate w.oracle := by
  have hboth : LifeCycle (docket w.oracle) ∧ Separate w.oracle := by
    refine hrun.guarded (G := fun w op => op.Separates w)
      (P := fun w => LifeCycle (docket w.oracle) ∧ Separate w.oracle) ?_ ?_ hsep
    · rintro w hinit
      obtain ⟨admin, hadmin⟩ := hinit.oracle
      rw [hadmin]
      exact ⟨LifeCycle.initial admin, Separate.initial admin⟩
    · rintro t w op r w' ⟨hL, hS⟩ hop hexec
      cases step_of_exec hexec with
      | oracle h =>
        -- the life cycle goes along, since signatures are read off it
        have hstep := OracleConsumer.step_of_exec h
        exact ⟨hL.step hstep, hS.step hL (move_of_exec h).roles hstep hop⟩
      | issuer _ => exact ⟨hL, hS⟩
      | registry _ _ _ => exact ⟨hL, hS⟩
      | engine _ => exact ⟨hL, hS⟩
      | retirement _ => exact ⟨hL, hS⟩
  exact hboth.2

/-- In call `c` the address `a` was added to the verifiers of report `r`. -/
structure Appended (c : Call) (r : ReportId) (a : Address) : Prop where
  before : a ∉ c.pre.oracle.reportVerifiers r
  after : a ∈ c.post.oracle.reportVerifiers r

/-- In call `c` a `verify_report` turned report `r` verified. -/
structure TurnedVerified (c : Call) (r : ReportId) : Prop where
  call : ∃ caller nonce, c.op = .oracle (.verifyReport caller r nonce)
  after : ∃ rep, c.post.oracle.report r = some rep ∧ rep.status = .verified

/-- **The admin is no verifier.** In a run that never registers the admin as a provider and never
makes anybody admin who is an active provider or has signed an undecided report, no address that is
admin at that moment is added to the verifiers of a report, and no report that `verify_report` turns
verified carries a signature of the admin. `verify_report` refuses no address for being the admin:
it is the two ways of becoming both that have to be ruled out. -/
theorem admin_never_verifies {h : List Call} {w : World} (hrun : Run h w)
    (hsep : ∀ c ∈ h, c.op.Separates c.pre) :
    ∀ c ∈ h, ∀ r,
      (∀ a, Appended c r a → c.pre.oracle.admin ≠ some a) ∧
      (TurnedVerified c r → ∀ a ∈ c.post.oracle.reportVerifiers r,
        c.post.oracle.admin ≠ some a) := by
  rintro ⟨t, pre, op, ret, post⟩ hc r
  obtain ⟨h₁, h₂, rfl⟩ := List.append_of_mem hc
  obtain ⟨hpast, -, hexec⟩ := hrun.past
  dsimp only at hpast hexec ⊢
  have hS : Separate pre.oracle := by
    -- the calls before this one kept the roles apart too
    refine separate_of_run hpast fun d hd => hsep d ?_
    exact List.mem_append_right _ (List.mem_cons_of_mem _ hd)
  have hL := lifeCycle_of_run hpast
  have happended : ∀ a, Appended ⟨t, pre, op, ret, post⟩ r a → pre.oracle.admin ≠ some a := by
    intro a happ hadmin
    obtain ⟨op, -, hstep⟩ | ⟨-, hsame⟩ := (step_of_exec hexec).docket
    -- only an active provider signs, and the admin is none
    · obtain ⟨-, -, hactive⟩ := hstep.new_verifier happ.after happ.before
      rw [(hS a hadmin).1] at hactive
      cases hactive
    · have hafter := happ.after
      rw [hsame] at hafter
      exact happ.before hafter
  refine ⟨happended, ?_⟩
  rintro ⟨⟨caller, nonce, hop⟩, -⟩ a ha hadmin
  change op = _ at hop
  subst hop
  cases step_of_exec hexec with
  | oracle h =>
    -- a verification leaves the admin alone
    have hadmin₀ : pre.oracle.admin = some a := by
      cases (move_of_exec h).roles with
      | same hsame => exact hsame.admin.symm.trans hadmin
    by_cases hold : a ∈ pre.oracle.reportVerifiers r
    swap
    · exact happended a ⟨hold, ha⟩ hadmin₀
    -- the report was pending when the call was made, so an old signature was waiting
    refine (hS a hadmin₀).2 ?_
    simp only [OracleConsumer.exec, verifyReport, bind_eq_ok, orError_eq_ok, ensure_eq_ok] at h
    obtain ⟨_, ⟨p, -, _, -, _, -, rep, hrep, _, hpending, -⟩, -⟩ := h
    exact ⟨r, rep, hrep, Or.inl hpending, hold⟩

/-- The call registers somebody else than the admin, or is no matter of roles. -/
def Op.registersOther (w : World) : Op → Bool
  | .oracle (.registerProvider _ provider _ _) => w.oracle.admin ≠ some provider
  | .oracle (.acceptAdminTransfer _ _) => false
  | _ => true

theorem Op.separates_of_registersOther {w : World} {op : Op} (h : op.registersOther w = true) :
    op.Separates w := by
  rcases op with op | ⟨registryId, op⟩ | op | op | op
  case oracle =>
    cases op with
    | registerProvider caller provider methodology nonce =>
      -- registering somebody else is what the condition asks for
      change w.oracle.admin ≠ some provider
      exact of_decide_eq_true h
    | acceptAdminTransfer caller nonce => cases h
    | _ => trivial
  all_goals trivial

/-- The second provider verifies the first one's report, and the admin has no part in it. -/
theorem admin_never_verifies_two_providers :
    ∃ h w c, Run h w ∧ c ∈ h ∧ Appended c 1 ⟨2⟩ ∧ TurnedVerified c 1 ∧
      c.pre.oracle.admin ≠ some ⟨2⟩ ∧
      ∀ a ∈ c.post.oracle.reportVerifiers 1, c.post.oracle.admin ≠ some a := by
  let ops : List (ℕ × Op) := (onboard ⟨0⟩ ⟨5⟩ ⟨1⟩ ⟨2⟩ ⟨100⟩ ⟨102⟩ 7).append
    [(1, .oracle (.submitReport ⟨1⟩ 1 0 10 5000 .absent "VM0007" 3 0)),
      (2, .oracle (.verifyReport ⟨2⟩ 1 0))]
  have hplay : (machine.play [] (deploy ⟨0⟩ ⟨100⟩ ⟨101⟩ ⟨102⟩) ops).map
      (fun p => (p.1.all fun c => c.op.registersOther c.pre, p.1.head?.map fun c =>
        decide (c.op = .oracle (.verifyReport ⟨2⟩ 1 0) ∧
          ⟨2⟩ ∉ c.pre.oracle.reportVerifiers 1 ∧ ⟨2⟩ ∈ c.post.oracle.reportVerifiers 1 ∧
          (c.post.oracle.report 1).map Report.status = some .verified))) =
      some (true, some true) := by decide
  obtain ⟨h, w, hrun, hview⟩ := Run.of_play (Init.deploy ⟨0⟩ ⟨100⟩ ⟨101⟩ ⟨102⟩) hplay
  rw [Prod.mk.injEq, Option.map_eq_some_iff] at hview
  obtain ⟨hall, c, hhead, hc⟩ := hview
  obtain ⟨hop, hbefore, hafter, hstatus⟩ := of_decide_eq_true hc
  obtain ⟨rep, hrep, hverified⟩ := Option.map_eq_some_iff.mp hstatus
  have hmem : c ∈ h := List.mem_of_mem_head? hhead
  have happended : Appended c 1 ⟨2⟩ := ⟨hbefore, hafter⟩
  have hturned : TurnedVerified c 1 := ⟨⟨⟨2⟩, 0, hop⟩, rep, hrep, hverified⟩
  obtain ⟨hnew, hsigned⟩ := admin_never_verifies hrun (fun d hd =>
    Op.separates_of_registersOther (List.all_eq_true.mp hall d hd)) c hmem 1
  exact ⟨h, w, c, hrun, hmem, happended, hturned, hnew ⟨2⟩ happended, hsigned hturned⟩

/-- The admin registers itself and verifies a report by its own signature alone. Its own signature
is accepted, since it is an active provider and not the one that submitted the report. -/
theorem admin_verifies :
    ∃ h w c, Run h w ∧ c ∈ h ∧ c.pre.oracle.admin = some ⟨0⟩ ∧ Appended c 1 ⟨0⟩ ∧
      TurnedVerified c 1 ∧ c.post.oracle.admin = some ⟨0⟩ ∧
      c.post.oracle.reportVerifiers 1 = [⟨0⟩] := by
  let ops : List (ℕ × Op) := (onboard ⟨0⟩ ⟨5⟩ ⟨1⟩ ⟨2⟩ ⟨100⟩ ⟨102⟩ 7).append
    [(1, .oracle (.registerProvider ⟨0⟩ ⟨0⟩ "VM0007" 3)),
      (1, .oracle (.submitReport ⟨1⟩ 1 0 10 5000 .absent "VM0007" 3 0)),
      (2, .oracle (.verifyReport ⟨0⟩ 1 4))]
  have hplay : (machine.play [] (deploy ⟨0⟩ ⟨100⟩ ⟨101⟩ ⟨102⟩) ops).map
      (fun p => p.1.head?.map fun c => decide (c.op = .oracle (.verifyReport ⟨0⟩ 1 4) ∧
        c.pre.oracle.admin = some ⟨0⟩ ∧ c.post.oracle.admin = some ⟨0⟩ ∧
        c.pre.oracle.reportVerifiers 1 = [] ∧ c.post.oracle.reportVerifiers 1 = [⟨0⟩] ∧
        (c.post.oracle.report 1).map Report.status = some .verified)) =
      some (some true) := by decide
  obtain ⟨h, w, hrun, hview⟩ := Run.of_play (Init.deploy ⟨0⟩ ⟨100⟩ ⟨101⟩ ⟨102⟩) hplay
  rw [Option.map_eq_some_iff] at hview
  obtain ⟨c, hhead, hc⟩ := hview
  obtain ⟨hop, hpre, hpost, hbefore, hafter, hstatus⟩ := of_decide_eq_true hc
  obtain ⟨rep, hrep, hverified⟩ := Option.map_eq_some_iff.mp hstatus
  refine ⟨h, w, c, hrun, List.mem_of_mem_head? hhead, hpre, ⟨?_, ?_⟩,
    ⟨⟨⟨0⟩, 4, hop⟩, rep, hrep, hverified⟩, hpost, hafter⟩
  · rw [hbefore]
    exact List.not_mem_nil
  · rw [hafter]
    exact List.mem_singleton.mpr rfl

end Protocol
end NbsBond
