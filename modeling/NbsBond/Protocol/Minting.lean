import NbsBond.Protocol.Periods

/-!
# Minting a report once

`submit_report` refuses a window that overlaps an earlier one of the same project, so that no
measurement is counted twice. `distribute_coupon` has no such check: it guards the pair of bond and
period index, and a verified report can be named again under another index, or by another bond of
the same project. `minted_once_iff` says that this is the only way to mint a report twice: a run
mints every report at most once, and for at most what it is worth, if and only if no call closes a
period on a report that a closed period already names.
-/

namespace NbsBond
namespace Protocol

open Soroban OracleConsumer CouponEngine

/-! ### How a record comes about -/

/-- The report on which a call asks to close a period. -/
def Op.closes : Op → Option ReportId
  | .engine op => op.closes
  | _ => none

/-- A record was there before, or the call has just closed its period on the report it names. -/
theorem PeriodInv.new_info {now : ℕ} {w w' : World} {op : Op} {ret : Ret} (hP : PeriodInv w)
    (hstep : Step now w op w' ret) {k : BondId × ℕ} {info : PeriodInfo}
    (hinfo : w'.engine.periodInfo k = some info) :
    w.engine.periodInfo k = some info ∨
      (w.engine.periodInfo k = none ∧ op.closes = some info.reportId) := by
  obtain ⟨op', rfl, hmove⟩ | ⟨-, hsame⟩ := hstep.periods
  swap
  · rw [hsame.infos] at hinfo
    exact Or.inl hinfo
  cases hmove with
  | frame _ hsame =>
    rw [hsame.infos] at hinfo
    exact Or.inl hinfo
  | register _ hinfos _ _ =>
    rw [hinfos] at hinfo
    exact Or.inl hinfo
  | batch _ _ _ _ hinfos _ _ =>
    rw [hinfos] at hinfo
    exact Or.inl hinfo
  | @final _ b p _ reportId _ _ _ progress batch _ hopen htype hstart hcontinues _ hinfos _ _ =>
    rw [hinfos] at hinfo
    -- the one call that writes records
    by_cases hk : k = (b, p)
    · subst hk
      rw [Function.update_self] at hinfo
      cases hinfo
      refine Or.inr ⟨?_, ?_⟩
      · exact hP.closed_once hopen
      · show some reportId = some batch.reportId
        rw [hcontinues.report, (hP.start htype hstart).1]
    · rw [Function.update_of_ne hk] at hinfo
      exact Or.inl hinfo

/-- A call writes at most one record. -/
theorem Step.one_new_info {now : ℕ} {w w' : World} {op : Op} {ret : Ret}
    (hstep : Step now w op w' ret) {k k' : BondId × ℕ} {info info' : PeriodInfo}
    (hnone : w.engine.periodInfo k = none) (hinfo : w'.engine.periodInfo k = some info)
    (hnone' : w.engine.periodInfo k' = none) (hinfo' : w'.engine.periodInfo k' = some info') :
    k = k' := by
  obtain ⟨b₀, p₀, hwrite⟩ : ∃ b₀ p₀, ∀ j, j ≠ (b₀, p₀) →
      w'.engine.periodInfo j = w.engine.periodInfo j := by
    obtain ⟨op', rfl, hmove⟩ | ⟨-, hsame⟩ := hstep.periods
    · cases hmove with
      | frame _ hsame => exact ⟨0, 0, fun j _ => by rw [hsame.infos]⟩
      | register _ hinfos _ _ => exact ⟨0, 0, fun j _ => by rw [hinfos]⟩
      | batch _ _ _ _ hinfos _ _ => exact ⟨0, 0, fun j _ => by rw [hinfos]⟩
      | @final _ b p _ _ _ _ _ _ _ _ _ _ _ _ _ hinfos _ _ =>
        exact ⟨b, p, fun j hj => by rw [hinfos, Function.update_of_ne hj]⟩
    · exact ⟨0, 0, fun j _ => by rw [hsame.infos]⟩
  have hself : ∀ {j : BondId × ℕ} {i : PeriodInfo}, w.engine.periodInfo j = none →
      w'.engine.periodInfo j = some i → j = (b₀, p₀) := by
    intro j i hj hi
    by_contra hne
    rw [hwrite j hne, hj] at hi
    cases hi
  rw [hself hnone hinfo, hself hnone' hinfo']

/-- A committed call that asks to close a period on report `r` writes a record that names `r`, where
there was none. -/
theorem PeriodInv.closes {now : ℕ} {w w' : World} {op : Op} {ret : Ret} (hP : PeriodInv w)
    (hstep : Step now w op w' ret) {r : ReportId} (hop : op.closes = some r) :
    ∃ k info, w.engine.periodInfo k = none ∧ w'.engine.periodInfo k = some info ∧
      info.reportId = r := by
  -- only the engine has calls that close a period
  obtain ⟨op', rfl, hmove⟩ | ⟨hother, -⟩ := hstep.periods
  swap
  · cases op with
    | engine op' => exact absurd rfl (hother op')
    | issuer _ => cases hop
    | registry _ _ => cases hop
    | oracle _ => cases hop
    | retirement _ => cases hop
  change op'.closes = some r at hop
  cases hmove with
  | frame hnone _ =>
    rw [hnone] at hop
    cases hop
  | register _ _ _ _ => cases hop
  | batch _ _ _ _ _ _ _ => cases hop
  | @final _ b p _ _ _ _ _ progress batch _ hopen htype hstart hcontinues _ hinfos _ _ =>
    cases hop
    have hnew := congrFun hinfos (b, p)
    rw [Function.update_self] at hnew
    have hreport : batch.reportId = r := by
      rw [hcontinues.report, (hP.start htype hstart).1]
    exact ⟨(b, p), _, hP.closed_once hopen, hnew, hreport⟩

/-! ### What is issued against a report -/

/-- The credits period `k` was closed with, if it was closed on report `r`. -/
def issuedAgainst (w : World) (r : ReportId) (k : BondId × ℕ) : ℤ :=
  match w.engine.periodInfo k with
  | none => 0
  | some info => if info.reportId = r then info.totalCreditsEarned + info.undistributed else 0

/-- A verified measurement is minted once: two closed periods never share a report, and the credits
issued against a report, over all bonds and periods, never exceed what it is worth. -/
structure MintedOnce (w : World) : Prop where
  once : ∀ r k k' info info', w.engine.periodInfo k = some info → info.reportId = r →
    w.engine.periodInfo k' = some info' → info'.reportId = r → k = k'
  covered : ∀ r rep, w.oracle.report r = some rep →
    ∑ᶠ k, issuedAgainst w r k ≤ (worth rep).total

/-- A bond takes from a report at most what the report is worth. -/
theorem total_creditTotals_le {creditType : CreditType} {report : Report} {t : Credits}
    (hworth : 0 ≤ worth report) (h : creditTotals creditType report = .ok t) :
    t.total ≤ (worth report).total := by
  obtain ⟨-, hcarbon, hbio⟩ := creditTotals_ok h
  have hle₁ : t.1 ≤ (worth report).1 := by
    rcases hcarbon with h | h
    · exact h.le
    · rw [h]
      exact hworth.1
  have hle₂ : t.2 ≤ (worth report).2 := by
    rcases hbio with h | h
    · exact h.le
    · rw [h]
      exact hworth.2
  exact add_le_add hle₁ hle₂

/-- If closed periods do not share reports, each report is issued for at most its worth. -/
theorem covered_of_once {h : List Call} {w : World} (hrun : Run h w)
    (honce : ∀ r k k' info info', w.engine.periodInfo k = some info → info.reportId = r →
      w.engine.periodInfo k' = some info' → info'.reportId = r → k = k') {r : ReportId}
    {rep : Report} (hrep : w.oracle.report r = some rep) :
    ∑ᶠ k, issuedAgainst w r k ≤ (worth rep).total := by
  obtain ⟨hcarbon, hbio⟩ := (lifeCycle_of_run hrun).measured r rep hrep
  have hworth := worth_nonneg hcarbon hbio
  by_cases hnamed : ∃ k info, w.engine.periodInfo k = some info ∧ info.reportId = r
  · obtain ⟨⟨b, p⟩, info, hinfo, hr⟩ := hnamed
    -- one period contributes, and it contributes what the report is worth to its bond
    rw [finsum_eq_single (issuedAgainst w r) (b, p)]
    · obtain ⟨report, t, hrecorded⟩ := (periods_of_run hrun).infos b p info hinfo
      obtain ⟨creditType, -, hcredits⟩ := hrecorded.backed.credits
      have hsame : report = rep := by
        have hfound := hrecorded.backed.found
        rw [hr, hrep] at hfound
        exact (Option.some.inj hfound).symm
      subst hsame
      unfold issuedAgainst
      rw [hinfo]
      dsimp only
      rw [if_pos hr, hrecorded.earned]
      exact total_creditTotals_le hworth hcredits
    · intro k hk
      unfold issuedAgainst
      split
      · rfl
      · next info' hinfo' =>
        rw [if_neg]
        intro hr'
        exact hk (honce r k (b, p) info' info hinfo' hr' hinfo hr)
  · have hzero : ∀ k, issuedAgainst w r k = 0 := by
      intro k
      unfold issuedAgainst
      split
      · rfl
      · next info hinfo =>
        rw [if_neg]
        intro hr
        exact hnamed ⟨k, info, hinfo, hr⟩
    rw [finsum_congr hzero, finsum_zero]
    exact add_nonneg hworth.1 hworth.2

/-! ### When a report is minted once -/

/-- If the call closes a period, then on a report no closed period names. -/
def ClosesFresh (w : World) (op : Op) : Prop :=
  ∀ r, op.closes = some r → ∀ k info, w.engine.periodInfo k = some info → info.reportId ≠ r

/-- **A report is minted once** in a run if and only if no call of the run closes a period on a
report that a closed period already names. `distribute` asks for a verified report and never whether
a period was closed on it, so nothing else stands in the way of a second minting. -/
theorem minted_once_iff {h : List Call} {w : World} (hrun : Run h w) :
    MintedOnce w ↔ ∀ c ∈ h, ClosesFresh c.pre c.op := by
  constructor
  · intro hM c hc r hop k info hinfo hr
    -- the record the call writes and the record it found are both there at the end
    obtain ⟨h', hpast, hexec⟩ := hrun.of_mem hc
    have hP := periods_of_run hpast
    have hstep := step_of_exec hexec
    obtain ⟨k', info', hnone, hinfo', hr'⟩ := hP.closes hstep hop
    have hfound := info_stable hrun hc (hP.keeps_info hstep hinfo)
    have hwritten := info_stable hrun hc hinfo'
    have hk := hM.once r k k' info info' hfound hr hwritten hr'
    rw [hk, hnone] at hinfo
    cases hinfo
  · intro hfresh
    have honce : ∀ r k k' info info', w.engine.periodInfo k = some info → info.reportId = r →
        w.engine.periodInfo k' = some info' → info'.reportId = r → k = k' := by
      refine hrun.induction (P := fun h w => (∀ c ∈ h, ClosesFresh c.pre c.op) →
        ∀ r k k' info info', w.engine.periodInfo k = some info → info.reportId = r →
          w.engine.periodInfo k' = some info' → info'.reportId = r → k = k') ?_ ?_ hfresh
      · intro w hinit _ r k k' info info' hinfo
        obtain ⟨admin, hadmin⟩ := hinit.engine
        rw [hadmin] at hinfo
        cases hinfo
      · intro h w t op ret w' hrun _ hexec ih hfresh r k k' info info' hinfo hr hinfo' hr'
        rw [List.forall_mem_cons] at hfresh
        obtain ⟨hnow, hbefore⟩ := hfresh
        have hP := periods_of_run hrun
        have hstep := step_of_exec hexec
        -- of two records that name `r`, one written by this call excludes an older one
        obtain hold | ⟨hnone, hop⟩ := hP.new_info hstep hinfo
        · obtain hold' | ⟨-, hop'⟩ := hP.new_info hstep hinfo'
          · exact ih hbefore r k k' info info' hold hr hold' hr'
          · rw [hr'] at hop'
            exact absurd hr (hnow r hop' k info hold)
        · obtain hold' | ⟨hnone', -⟩ := hP.new_info hstep hinfo'
          · rw [hr] at hop
            exact absurd hr' (hnow r hop k' info' hold')
          · exact hstep.one_new_info hnone hinfo hnone' hinfo'
    exact ⟨honce, fun r rep hrep => covered_of_once hrun honce hrep⟩

/-- Every record was written by a call that closed its period on the report the record names. -/
theorem closed_of_run {h : List Call} {w : World} (hrun : Run h w) :
    ∀ k info, w.engine.periodInfo k = some info → ∃ c ∈ h, c.op.closes = some info.reportId := by
  refine hrun.induction (P := fun h w => ∀ k info, w.engine.periodInfo k = some info →
    ∃ c ∈ h, c.op.closes = some info.reportId) ?_ ?_
  · intro w hinit k info hinfo
    obtain ⟨admin, hadmin⟩ := hinit.engine
    rw [hadmin] at hinfo
    cases hinfo
  · intro h w t op ret w' hrun _ hexec ih k info hinfo
    obtain hold | ⟨-, hop⟩ := (periods_of_run hrun).new_info (step_of_exec hexec) hinfo
    · obtain ⟨c, hc, hclosed⟩ := ih k info hold
      exact ⟨c, List.mem_cons_of_mem _ hc, hclosed⟩
    · exact ⟨_, List.mem_cons_self, hop⟩

/-- The condition can be read off the calls alone: no two of them close a period on one report. -/
theorem closesFresh_of_nodup {h : List Call} {w : World} (hrun : Run h w)
    (hdistinct : (h.filterMap fun c => c.op.closes).Nodup) : ∀ c ∈ h, ClosesFresh c.pre c.op := by
  intro c hc r hop k info hinfo hr
  obtain ⟨h₁, h₂, rfl⟩ := List.append_of_mem hc
  obtain ⟨d, hd, hclosed⟩ := closed_of_run hrun.past.1 k info hinfo
  rw [List.filterMap_append,
    List.filterMap_cons_some (f := fun c : Call => c.op.closes) hop] at hdistinct
  have hnew := (List.nodup_cons.mp (List.nodup_append.mp hdistinct).2.1).1
  rw [hr] at hclosed
  exact hnew (List.mem_filterMap.mpr ⟨d, hd, hclosed⟩)

/-- The calls that bring one bond with seven subscribed tokens and two verified reports about. -/
def twoReports : List (ℕ × Op) := onboard ⟨0⟩ ⟨5⟩ ⟨1⟩ ⟨2⟩ ⟨100⟩ ⟨102⟩ 7 ++
  [(1, .oracle (.submitReport ⟨1⟩ 1 0 10 5000 .absent "VM0007" 3 0)),
    (1, .oracle (.verifyReport ⟨2⟩ 1 0)),
    (1, .oracle (.submitReport ⟨1⟩ 1 10 20 8000 .absent "VM0007" 4 1)),
    (1, .oracle (.verifyReport ⟨2⟩ 2 1)),
    (1, .issuer (.issueBond ⟨0⟩ ⟨7, 1000, [50], .carbon, 9000000, 100⟩ 0)),
    (1, .issuer (.subscribe ⟨8⟩ 1 7 0)),
    (1, .engine (.registerBond ⟨0⟩ 1 7 0))]

/-- Two periods, each closed on a report of its own. -/
theorem minted_once_iff_two_reports :
    ∃ h w, Run h w ∧ w.engine.periodInfo (1, 0) ≠ none ∧ w.engine.periodInfo (1, 1) ≠ none ∧
      MintedOnce w := by
  let ops : List (ℕ × Op) := twoReports.append
    [(2, .engine (.distributeCoupon ⟨0⟩ 1 0 [(⟨8⟩, 7)] 1 1 true)),
      (2, .engine (.distributeCoupon ⟨0⟩ 1 1 [(⟨8⟩, 7)] 2 2 true))]
  have hplay : (machine.play [] (deploy ⟨0⟩ ⟨100⟩ ⟨101⟩ ⟨102⟩) ops).map
      (fun p => ((p.1.filterMap fun c => c.op.closes), p.2.engine.periodInfo (1, 0),
        p.2.engine.periodInfo (1, 1))) =
      some ([2, 1], some ⟨0, 0, 10, 4, true, 1, 1⟩, some ⟨1, 10, 20, 7, true, 2, 1⟩) := by decide
  obtain ⟨h, w, hrun, hview⟩ := Run.of_play (Init.deploy ⟨0⟩ ⟨100⟩ ⟨101⟩ ⟨102⟩) hplay
  simp only [Prod.mk.injEq] at hview
  obtain ⟨hclosed, hfirst, hsecond⟩ := hview
  refine ⟨h, w, hrun, ?_, ?_, (minted_once_iff hrun).mpr (closesFresh_of_nodup hrun ?_)⟩
  · rw [hfirst]
    nofun
  · rw [hsecond]
    nofun
  · rw [hclosed]
    decide

/-- One report, closed on under two period indexes of one bond. Both closings succeed, and the
credits of the report are distributed twice. -/
theorem minted_twice :
    ∃ h w, Run h w ∧ (∃ info info', w.engine.periodInfo (1, 0) = some info ∧
      w.engine.periodInfo (1, 1) = some info' ∧ info.reportId = 1 ∧ info'.reportId = 1) ∧
      ¬ MintedOnce w := by
  let ops : List (ℕ × Op) := twoReports.append
    [(2, .engine (.distributeCoupon ⟨0⟩ 1 0 [(⟨8⟩, 7)] 1 1 true)),
      (2, .engine (.distributeCoupon ⟨0⟩ 1 1 [(⟨8⟩, 7)] 1 2 true))]
  have hplay : (machine.play [] (deploy ⟨0⟩ ⟨100⟩ ⟨101⟩ ⟨102⟩) ops).map
      (fun p => (p.2.engine.periodInfo (1, 0), p.2.engine.periodInfo (1, 1))) =
      some (some ⟨0, 0, 10, 4, true, 1, 1⟩, some ⟨1, 0, 10, 4, true, 1, 1⟩) := by decide
  obtain ⟨h, w, hrun, hview⟩ := Run.of_play (Init.deploy ⟨0⟩ ⟨100⟩ ⟨101⟩ ⟨102⟩) hplay
  simp only [Prod.mk.injEq] at hview
  obtain ⟨hfirst, hsecond⟩ := hview
  refine ⟨h, w, hrun, ⟨_, _, hfirst, hsecond, rfl, rfl⟩, ?_⟩
  intro hM
  have hkey := hM.once 1 (1, 0) (1, 1) _ _ hfirst rfl hsecond rfl
  cases hkey

end Protocol
end NbsBond
