import NbsBond.OracleConsumer.Windows
import NbsBond.Protocol.Reports

/-!
# The windows of reports in the running protocol

Along every run the windows of one project are chronological (`windows_chronological`). Windows of
one metadata hash are not: a hash may be registered again under a new project id once the earlier
project is inactive or rejected, and the index of windows knows only ids. `hash_windows_disjoint`
says what a run has to respect for them to be disjoint, and `hash_windows_overlap` that a run need
not respect it.
-/

namespace NbsBond
namespace Protocol

open Soroban OracleConsumer Windows

/-- The windows of every project are in order along every run. -/
theorem windowInv_of_run {h : List Call} {w : World} (hrun : Run h w) : WindowInv w.oracle := by
  refine hrun.induction (P := fun _ w => WindowInv w.oracle) ?_ ?_
  · intro w hinit
    obtain ⟨admin, hadmin⟩ := hinit.oracle
    rw [hadmin]
    exact WindowInv.initial admin
  · intro h w t op ret w' hrun _ hexec hW
    cases step_of_exec hexec with
    | oracle horacle =>
      exact hW.step (lifeCycle_of_run hrun) (OracleConsumer.step_of_exec horacle)
        (exec_windows horacle)
    | issuer _ => exact hW
    | registry _ _ _ => exact hW
    | engine _ => exact hW
    | retirement _ => exact hW

/-! ### One project -/

/-- The window a call claimed for a project. -/
def claimed (projectId : ℕ) (c : Call) : List (ℕ × ℕ) :=
  match c.op with
  | .oracle op => op.claims projectId
  | _ => []

/-- The windows of all reports ever submitted for a project, in submission order. -/
def submitted (projectId : ℕ) (h : List Call) : List (ℕ × ℕ) :=
  h.reverse.flatMap (claimed projectId)

theorem submitted_cons (projectId : ℕ) (c : Call) (h : List Call) :
    submitted projectId (c :: h) = submitted projectId h ++ claimed projectId c := by
  unfold submitted
  rw [List.reverse_cons, List.flatMap_append, List.flatMap_cons, List.flatMap_nil, List.append_nil]

/-- The submissions of a run are the reports on record. -/
theorem windows_eq_submitted {h : List Call} {w : World} (hrun : Run h w) (projectId : ℕ) :
    windows w.oracle projectId = submitted projectId h := by
  refine hrun.induction
    (P := fun h w => windows w.oracle projectId = submitted projectId h) ?_ ?_
  · intro w hinit
    obtain ⟨admin, hadmin⟩ := hinit.oracle
    rw [hadmin]
    rfl
  · intro h w t op ret w' hrun _ hexec ih
    rw [submitted_cons, ← ih]
    cases step_of_exec hexec with
    | oracle horacle =>
      exact (exec_windows horacle).windows_eq (lifeCycle_of_run hrun)
        (OracleConsumer.step_of_exec horacle) projectId
    | issuer _ => exact (List.append_nil _).symm
    | registry _ _ _ => exact (List.append_nil _).symm
    | engine _ => exact (List.append_nil _).symm
    | retirement _ => exact (List.append_nil _).symm

/-- **Chronology.** In every run, the windows of all reports ever submitted for a project, in
submission order, are chronological, hence pairwise disjoint; they are the windows of the stored
reports of the project; and the index holds exactly the last `MAX_PERIOD_HISTORY` of them (all of
them, while there are fewer). -/
theorem windows_chronological {h : List Call} {w : World} (hrun : Run h w) (projectId : ℕ) :
    ((submitted projectId h).Pairwise fun v v' => v.2 ≤ v'.1) ∧
    ((submitted projectId h).Pairwise fun v v' =>
      Disjoint (Set.Ico v.1 v.2) (Set.Ico v'.1 v'.2)) ∧
    windows w.oracle projectId = submitted projectId h ∧
    w.oracle.projectReportPeriods projectId =
      (submitted projectId h).drop ((submitted projectId h).length - maxPeriodHistory) ∧
    (w.oracle.projectReportPeriods projectId).length =
      min (submitted projectId h).length maxPeriodHistory := by
  have hW := windowInv_of_run hrun
  have hsame := windows_eq_submitted hrun projectId
  have hchronological := hW.chronological projectId
  have hindexed := hW.indexed projectId
  rw [hsame] at hchronological hindexed
  refine ⟨hchronological, hchronological.disjoint, hsame, hindexed, ?_⟩
  rw [hindexed]
  exact length_recent _ _

/-- Three reports of one project, in order. -/
theorem windows_chronological_three_reports :
    ∃ h w, Run h w ∧ submitted 1 h = [(0, 10), (10, 20), (25, 30)] ∧
      w.oracle.projectReportPeriods 1 = [(0, 10), (10, 20), (25, 30)] := by
  let ops : List (ℕ × Op) := (onboard ⟨0⟩ ⟨5⟩ ⟨1⟩ ⟨2⟩ ⟨100⟩ ⟨102⟩ 7).append
    [(1, .oracle (.submitReport ⟨1⟩ 1 0 10 5000 .absent "VM0007" 3 0)),
      (2, .oracle (.submitReport ⟨2⟩ 1 10 20 5000 .absent "VM0007" 3 0)),
      (3, .oracle (.submitReport ⟨1⟩ 1 25 30 5000 .absent "VM0007" 3 1))]
  have hplay : (machine.play [] (deploy ⟨0⟩ ⟨100⟩ ⟨101⟩ ⟨102⟩) ops).map
      (fun x => submitted 1 x.1) = some [(0, 10), (10, 20), (25, 30)] := by decide
  obtain ⟨h, w, hrun, hview⟩ := Run.of_play (Init.deploy ⟨0⟩ ⟨100⟩ ⟨101⟩ ⟨102⟩) hplay
  refine ⟨h, w, hrun, hview, ?_⟩
  obtain ⟨-, -, -, hindex, -⟩ := windows_chronological hrun 1
  rw [hindex, hview]
  rfl

/-! ### One metadata hash -/

/-- A submission stays clear of the reports that carry its project's metadata hash under other
project ids. -/
def Op.ClearOfHash (w : World) : Op → Prop
  | .oracle op => op.ClearOfHash w.registries w.oracle
  | _ => True

/-- **Disjoint windows per hash.** In a run whose submissions all stay clear of the reports, not
rejected, that carry their project's metadata hash under another project id, two verified reports
with one metadata hash have disjoint windows. The check at the submission compares the windows of
one project only, so a hash that comes back under another id is what it cannot see. -/
theorem hash_windows_disjoint {h : List Call} {w : World} (hrun : Run h w)
    (hclear : ∀ c ∈ h, c.op.ClearOfHash c.pre) :
    ∀ r r' rep rep', r ≠ r' → w.oracle.report r = some rep → w.oracle.report r' = some rep' →
      rep.projectMetadataHash = rep'.projectMetadataHash → rep.status = .verified →
      rep'.status = .verified →
      Disjoint (Set.Ico rep.periodStart rep.periodEnd)
        (Set.Ico rep'.periodStart rep'.periodEnd) := by
  have hH : HashInv w.oracle := by
    -- only the third part needs the condition on the submissions
    have hall : LifeCycle (docket w.oracle) ∧ WindowInv w.oracle ∧ HashInv w.oracle := by
      refine hrun.guarded (G := fun w op => op.ClearOfHash w)
        (P := fun w => LifeCycle (docket w.oracle) ∧ WindowInv w.oracle ∧ HashInv w.oracle)
        ?_ ?_ hclear
      · rintro w hinit
        obtain ⟨admin, hadmin⟩ := hinit.oracle
        rw [hadmin]
        exact ⟨LifeCycle.initial admin, WindowInv.initial admin, HashInv.initial admin⟩
      · rintro t w op r w' ⟨hL, hW, hH⟩ hop hexec
        cases step_of_exec hexec with
        | oracle h =>
          have hdocket := OracleConsumer.step_of_exec h
          have hstep := exec_windows h
          exact ⟨hL.step hdocket, hW.step hL hdocket hstep, hH.step hW hL hdocket hstep hop⟩
        | issuer _ => exact ⟨hL, hW, hH⟩
        | registry _ _ _ => exact ⟨hL, hW, hH⟩
        | engine _ => exact ⟨hL, hW, hH⟩
        | retirement _ => exact ⟨hL, hW, hH⟩
    exact hall.2.2
  intro r r' rep rep' hne hrep hrep' hhash hverified hverified'
  refine hH r r' rep rep' hne hrep hrep' hhash ?_ ?_
  · rw [hverified]
    decide
  · rw [hverified']
    decide

/-- The call claims no window that overlaps one of another project. -/
def Op.overlapsNone (w : World) : Op → Bool
  | .oracle (.submitReport _ projectId periodStart periodEnd _ _ _ _ _) =>
    (List.range' 1 w.oracle.reportCount).all fun r => (w.oracle.report r).all fun rep =>
      rep.projectId = projectId ∨ rep.periodEnd ≤ periodStart ∨ periodEnd ≤ rep.periodStart
  | _ => true

theorem Op.clearOfHash_of_overlapsNone {h : List Call} {w : World} (hrun : Run h w) {op : Op}
    (hop : op.overlapsNone w = true) : op.ClearOfHash w := by
  rcases op with op | ⟨registryId, op⟩ | op | op | op
  case oracle =>
    cases op with
    | submitReport provider projectId periodStart periodEnd carbon bio methodology hash nonce =>
      intro registryId project _ _ r rep hrep _ hid _
      have hmem : r ∈ List.range' 1 w.oracle.reportCount :=
        (windowInv_of_run hrun).mem_range (lifeCycle_of_run hrun) hrep
      have hall := List.all_eq_true.mp hop r hmem
      rw [hrep] at hall
      rw [Set.Ico_disjoint_Ico]
      rcases of_decide_eq_true hall with hsame | hle | hle
      · exact absurd hsame hid
      · exact (min_le_left _ _).trans (hle.trans (le_max_right _ _))
      · exact (min_le_right _ _).trans (hle.trans (le_max_left _ _))
    | _ => trivial
  all_goals trivial

/-- The calls that verify a report with window `[0, 10)`, suspend its project, register its metadata
hash again and verify a report of the new project with window `[periodStart, periodEnd)`. -/
def reusedHash (periodStart periodEnd : ℕ) : List (ℕ × Op) :=
  onboard ⟨0⟩ ⟨5⟩ ⟨1⟩ ⟨2⟩ ⟨100⟩ ⟨102⟩ 7 ++
    [(1, .oracle (.submitReport ⟨1⟩ 1 0 10 5000 .absent "VM0007" 3 0)),
      (2, .oracle (.verifyReport ⟨2⟩ 1 0)),
      (3, .registry ⟨102⟩ (.suspendProject ⟨0⟩ 1 2)),
      (4, .registry ⟨102⟩ (.registerProject ⟨5⟩ 7 "project" "VM0007" "KE" 1)),
      (5, .registry ⟨102⟩ (.approveProject ⟨0⟩ 2 3)),
      (6, .oracle (.submitReport ⟨1⟩ 2 periodStart periodEnd 5000 .absent "VM0007" 4 1)),
      (7, .oracle (.verifyReport ⟨2⟩ 2 1))]

/-- The second report begins when the first one ends. -/
theorem hash_windows_disjoint_reused_hash :
    ∃ h w rep rep', Run h w ∧ w.oracle.report 1 = some rep ∧ w.oracle.report 2 = some rep' ∧
      rep.projectId ≠ rep'.projectId ∧ rep.projectMetadataHash = rep'.projectMetadataHash ∧
      Disjoint (Set.Ico rep.periodStart rep.periodEnd)
        (Set.Ico rep'.periodStart rep'.periodEnd) := by
  let rep : Report := ⟨1, ⟨1⟩, 1, 7, 0, 10, 5000, .absent, "VM0007", 3, .verified, 1, 2⟩
  let rep' : Report := ⟨2, ⟨1⟩, 2, 7, 10, 20, 5000, .absent, "VM0007", 4, .verified, 6, 7⟩
  have hplay : (machine.play [] (deploy ⟨0⟩ ⟨100⟩ ⟨101⟩ ⟨102⟩) (reusedHash 10 20)).map
      (fun x => decide (x.2.oracle.report 1 = some rep ∧ x.2.oracle.report 2 = some rep' ∧
        x.1.all (fun c => c.op.overlapsNone c.pre) = true)) = some true := by decide
  obtain ⟨h, w, hrun, hview⟩ := Run.of_play (Init.deploy ⟨0⟩ ⟨100⟩ ⟨101⟩ ⟨102⟩) hplay
  obtain ⟨hrep, hrep', hall⟩ := of_decide_eq_true hview
  refine ⟨h, w, rep, rep', hrun, hrep, hrep', by decide, rfl, ?_⟩
  refine hash_windows_disjoint hrun ?_ 1 2 rep rep' (by decide) hrep hrep' rfl rfl rfl
  intro c hc
  obtain ⟨_, hpast, -⟩ := hrun.of_mem hc
  exact Op.clearOfHash_of_overlapsNone hpast (List.all_eq_true.mp hall c hc)

/-- The second report overlaps the first one, and both are verified. They carry the same metadata
hash, under two project ids. -/
theorem hash_windows_overlap :
    ∃ h w rep rep', Run h w ∧ w.oracle.report 1 = some rep ∧ w.oracle.report 2 = some rep' ∧
      rep.projectMetadataHash = rep'.projectMetadataHash ∧ rep.status = .verified ∧
      rep'.status = .verified ∧
      ¬ Disjoint (Set.Ico rep.periodStart rep.periodEnd)
        (Set.Ico rep'.periodStart rep'.periodEnd) := by
  let rep : Report := ⟨1, ⟨1⟩, 1, 7, 0, 10, 5000, .absent, "VM0007", 3, .verified, 1, 2⟩
  let rep' : Report := ⟨2, ⟨1⟩, 2, 7, 5, 15, 5000, .absent, "VM0007", 4, .verified, 6, 7⟩
  have hplay : (machine.play [] (deploy ⟨0⟩ ⟨100⟩ ⟨101⟩ ⟨102⟩) (reusedHash 5 15)).map
      (fun x => decide (x.2.oracle.report 1 = some rep ∧ x.2.oracle.report 2 = some rep')) =
      some true := by decide
  obtain ⟨h, w, hrun, hview⟩ := Run.of_play (Init.deploy ⟨0⟩ ⟨100⟩ ⟨101⟩ ⟨102⟩) hplay
  obtain ⟨hrep, hrep'⟩ := of_decide_eq_true hview
  refine ⟨h, w, rep, rep', hrun, hrep, hrep', rfl, rfl, rfl, ?_⟩
  rw [Set.Ico_disjoint_Ico]
  decide

end Protocol
end NbsBond
