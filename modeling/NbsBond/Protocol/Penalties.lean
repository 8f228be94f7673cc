import NbsBond.Protocol.Stakes

/-!
# Locks and penalties

A submission locks the tenth of the stake that a rejection could cost, so that it cannot be
withdrawn. But the penalty is a tenth of the stake at the time of the rejection, and all of the
stake but the lock itself can be withdrawn in between. The lock is still on record when the report
is rejected (`lock_kept`), and `lock_at_stake_iff` says when the penalty covers it.
-/

namespace NbsBond
namespace Protocol

open Soroban OracleConsumer Int128

/-! ### A tenth of the stake -/

/-- A tenth of the stake, as `slashable_amount` computes it: the multiplication wraps. -/
def tenth (stake : ℤ) : ℤ := (wrap (stake * slashPenaltyPpm)).tdiv 1000000

/-- The tenth rounds to nothing, so that the whole stake is forfeit, or it covers the lock. -/
def LockCovered (stake lock : ℤ) : Prop := tenth stake ≤ 0 ∨ lock ≤ tenth stake

/-- As long as the multiplication does not overflow. -/
theorem tenth_eq {stake : ℤ} (hnonneg : 0 ≤ stake) (hfits : stake * slashPenaltyPpm ≤ maxValue) :
    tenth stake = stake / 10 := by
  have hproduct : 0 ≤ stake * slashPenaltyPpm := mul_nonneg hnonneg (by decide)
  unfold tenth
  -- in range, and the truncated quotient of a product that is not negative
  rw [wrap_of_inRange (InRange.of_nonneg hproduct hfits), Int.tdiv_eq_ediv_of_nonneg hproduct]
  unfold slashPenaltyPpm
  omega

/-- Truncation rounds a negative product towards zero. -/
theorem tenth_nonpos {stake : ℤ} (hneg : wrap (stake * slashPenaltyPpm) < 0) :
    tenth stake ≤ 0 := by
  have hopposite : 0 ≤ (-wrap (stake * slashPenaltyPpm)).tdiv 1000000 :=
    Int.tdiv_nonneg (by omega) (by decide)
  rw [Int.neg_tdiv] at hopposite
  exact Int.neg_nonneg.mp hopposite

theorem tenth_le (stake : ℤ) : tenth stake ≤ maxValue / 1000000 := by
  have hrange := (wrap_inRange (stake * slashPenaltyPpm)).2
  -- the wrapped product is a value of an `i128`, so its quotient is small
  by_cases hneg : wrap (stake * slashPenaltyPpm) < 0
  · exact (tenth_nonpos hneg).trans (by decide)
  · unfold tenth
    rw [Int.tdiv_eq_ediv_of_nonneg (not_lt.mp hneg)]
    exact Int.ediv_le_ediv (by decide) hrange

/-- The tenth is less than the stake, overflow or not. -/
theorem tenth_lt {stake : ℤ} (hpos : 0 < stake) : tenth stake < stake := by
  by_cases hfits : stake * slashPenaltyPpm ≤ maxValue
  · rw [tenth_eq hpos.le hfits]
    omega
  · refine lt_of_le_of_lt (tenth_le stake) ?_
    unfold slashPenaltyPpm maxValue at *
    omega

/-- The cap at the stake never applies. -/
theorem slashableAmount_eq {stake : ℤ} (hnonneg : 0 ≤ stake) :
    slashableAmount stake = if tenth stake ≤ 0 then stake else tenth stake := by
  unfold slashableAmount
  show (if stake < (if tenth stake ≤ 0 then stake else tenth stake) then stake else _) = _
  refine if_neg ?_
  split
  · exact lt_irrefl stake
  · next hpos =>
    rcases hnonneg.eq_or_lt with hzero | hstake
    · rw [← hzero] at hpos
      exact absurd (by decide : tenth 0 ≤ 0) hpos
    · exact not_lt.mpr (tenth_lt hstake).le

/-- **What a penalty covers.** -/
theorem min_le_slashableAmount_iff {stake lock : ℤ} (hnonneg : 0 ≤ stake) :
    min lock stake ≤ slashableAmount stake ↔ LockCovered stake lock := by
  rw [slashableAmount_eq hnonneg]
  unfold LockCovered
  -- all of the stake is taken, or the tenth
  split
  · next hzero => exact ⟨fun _ => Or.inl hzero, fun _ => min_le_right _ _⟩
  · next hpos =>
    rw [min_le_iff, or_iff_right hpos]
    refine or_iff_left (not_le.mpr (tenth_lt ?_))
    rcases hnonneg.eq_or_lt with hzero | hstake
    · rw [← hzero] at hpos
      exact absurd (by decide : tenth 0 ≤ 0) hpos
    · exact hstake

/-- Without overflow: less than ten are staked, or ten times the lock. -/
theorem lockCovered_iff {stake lock : ℤ} (hnonneg : 0 ≤ stake)
    (hfits : stake * slashPenaltyPpm ≤ maxValue) :
    LockCovered stake lock ↔ stake < 10 ∨ 10 * lock ≤ stake := by
  unfold LockCovered
  rw [tenth_eq hnonneg hfits]
  omega

/-! ### The lock until the decision -/

/-- A call that releases the lock of a report decides it. -/
theorem lock_kept {now : ℕ} {s : OracleConsumer.State} {d : Docket} {op : OracleConsumer.Op}
    (hL : LifeCycle (docket s)) (hstep : OracleConsumer.Step now s d op) {r : ReportId}
    {rep rep' : Report} (hrep : s.report r = some rep) (hrep' : d.report r = some rep') :
    rep'.status = .verified ∨ rep'.status = .rejected ∨ d.reportLock r = s.reportLock r := by
  -- what releases the lock of report `r₀` leaves the other locks alone
  have hother : ∀ {r₀ : ReportId}, r ≠ r₀ →
      d.reportLock = Function.update s.reportLock r₀ 0 → d.reportLock r = s.reportLock r := by
    intro r₀ hne hlock
    rw [hlock, Function.update_of_ne hne]
  cases hstep with
  | frame _ hd =>
    subst hd
    exact Or.inr (Or.inr rfl)
  | submit _ _ _ _ _ _ hd =>
    subst hd
    -- a submission takes an unused id, and `r` is on record
    have hne : r ≠ s.reportCount + 1 := by
      rintro rfl
      have hunused : s.report (s.reportCount + 1) = none := hL.fresh _ (Nat.lt_succ_self _)
      rw [hrep] at hunused
      cases hunused
    refine Or.inr (Or.inr ?_)
    show Function.update s.reportLock _ _ r = _
    rw [Function.update_of_ne hne]
  | sign _ _ _ _ _ hd =>
    subst hd
    rw [Docket.sign_reportLock]
    exact Or.inr (Or.inr rfl)
  | @verify _ r₀ _ _ _ _ _ _ _ _ hd =>
    subst hd
    by_cases hne : r = r₀
    · subst hne
      rw [Docket.release_report] at hrep'
      simp only [Docket.setReport, Function.update_self, Option.some.injEq] at hrep'
      exact Or.inl (hrep' ▸ rfl)
    · refine Or.inr (Or.inr (hother hne ?_))
      rw [Docket.release_reportLock]
      simp only [Docket.setReport, Docket.sign_reportLock]
      rfl
  | override _ _ _ _ hd =>
    subst hd
    exact Or.inr (Or.inr rfl)
  | challenge _ _ _ _ hd =>
    subst hd
    exact Or.inr (Or.inr rfl)
  | @resolve _ r₀ _ _ _ _ _ _ _ hresolution hd =>
    subst hd
    by_cases hne : r = r₀
    · subst hne
      rw [Docket.resolve_report, Function.update_self, Option.some.injEq] at hrep'
      subst hrep'
      -- resolved, the report is verified or rejected
      exact hresolution.imp_right Or.inl
    · refine Or.inr (Or.inr (hother hne ?_))
      rw [Docket.resolve_reportLock]
      rfl
  | expire _ _ _ _ hd =>
    subst hd
    rw [Docket.settleBond_reportLock]
    exact Or.inr (Or.inr rfl)

/-- Call `d` submits report `r`. Ids are not used twice, so there is one such call. -/
structure Submits (d : Call) (r : ReportId) : Prop where
  before : d.pre.oracle.report r = none
  after : d.post.oracle.report r ≠ none

/-- Report `r` is decided, or has `lock` locked. -/
def HoldsLock (s : OracleConsumer.State) (r : ReportId) (lock : ℤ) : Prop :=
  ∃ rep, s.report r = some rep ∧
    (rep.status = .verified ∨ rep.status = .rejected ∨ s.reportLock r = lock)

theorem HoldsLock.step {now : ℕ} {s s' : OracleConsumer.State} {op : OracleConsumer.Op}
    {r : ReportId} {lock : ℤ} (hH : HoldsLock s r lock) (hL : LifeCycle (docket s))
    (hstep : OracleConsumer.Step now s (docket s') op) : HoldsLock s' r lock := by
  obtain ⟨rep, hrep, hstatus⟩ := hH
  obtain ⟨rep', hrep', -, hchange⟩ := hstep.report_change hL hrep
  refine ⟨rep', hrep', ?_⟩
  have hlock := lock_kept hL hstep hrep hrep'
  obtain rfl | hallowed := hchange
  · rcases hstatus with h | h | h
    · exact Or.inl h
    · exact Or.inr (Or.inl h)
    · exact hlock.imp_right (Or.imp_right fun hkept => hkept.trans h)
  · -- nothing leaves a final status
    have hheld : s.reportLock r = lock := by
      rcases hstatus with h | h | h
      · exact absurd h hallowed.source.1
      · exact absurd h hallowed.source.2
      · exact h
    exact hlock.imp_right (Or.imp_right fun hkept => hkept.trans hheld)

/-- The lock set when a report was submitted is there until it is decided. -/
theorem holdsLock_of_run {h : List Call} {w : World} {d : Call} {r : ReportId} (hrun : Run h w)
    (hd : d ∈ h) (hsubmits : Submits d r) :
    HoldsLock w.oracle r (d.post.oracle.reportLock r) := by
  refine hrun.stable (P := fun w => HoldsLock w.oracle r (d.post.oracle.reportLock r)) ?_ hd ?_
  · intro h w t op ret w' hpast hH hexec
    obtain ⟨op, -, hstep⟩ | ⟨-, hsame⟩ := (step_of_exec hexec).docket
    -- what the oracle's calls do to the docket, and nobody else touches it
    · exact hH.step (lifeCycle_of_run hpast) hstep
    · rw [hsame]
      exact hH
  · obtain ⟨rep, hrep⟩ := Option.ne_none_iff_exists'.mp hsubmits.after
    exact ⟨rep, hrep, Or.inr (Or.inr rfl)⟩

/-- Every report on record was submitted. -/
theorem submitted_of_run {h : List Call} {w : World} (hrun : Run h w) :
    ∀ r, w.oracle.report r ≠ none → ∃ d ∈ h, Submits d r := by
  refine hrun.induction (P := fun h w => ∀ r, w.oracle.report r ≠ none → ∃ d ∈ h, Submits d r) ?_ ?_
  · intro w hinit r hr
    obtain ⟨admin, hadmin⟩ := hinit.oracle
    rw [hadmin] at hr
    -- no reports to begin with
    exact absurd rfl hr
  · intro h w t op ret w' _ _ _ ih r hr
    by_cases hold : w.oracle.report r = none
    · exact ⟨_, List.mem_cons_self, hold, hr⟩
    · obtain ⟨d, hd, hsubmits⟩ := ih r hold
      exact ⟨d, List.mem_cons_of_mem _ hd, hsubmits⟩

/-! ### Rejections -/

/-- **The lock taken at submission is really at stake**, in a rejection, if and only if the tenth of
the stake just before it rounds to nothing or covers the lock of the report. The lock is a tenth of
the stake at the submission and the penalty one of the stake at the rejection, and all but the lock
can be withdrawn in between. -/
theorem lock_at_stake_iff {h h₁ h₂ : List Call} {w : World} {c : Call} (hrun : Run h w)
    (hh : h = h₁ ++ c :: h₂) {r : ReportId} (hrejects : Rejects c r) :
    (∃ d ∈ h₂, Submits d r) ∧ ∀ d ∈ h₂, Submits d r →
    ∃ rep p e, c.pre.oracle.report r = some rep ∧ c.pre.oracle.provider rep.provider = some p ∧
      c.post.oracle.slashHistory rep.provider =
        c.pre.oracle.slashHistory rep.provider ++ [e] ∧ e.reportId = r ∧
      (min (d.post.oracle.reportLock r) p.stake ≤ e.penalty ↔
        LockCovered p.stake (c.pre.oracle.reportLock r)) ∧
      (p.stake * slashPenaltyPpm ≤ maxValue → (LockCovered p.stake (c.pre.oracle.reportLock r) ↔
        p.stake < 10 ∨ 10 * c.pre.oracle.reportLock r ≤ p.stake)) := by
  subst hh
  obtain ⟨hpast, -, -⟩ := hrun.past
  obtain ⟨rep, p, hslash⟩ := hrejects.slashes hrun (List.mem_append_right h₁ List.mem_cons_self)
  have hreported : c.pre.oracle.report r = some rep := hslash.report
  refine ⟨submitted_of_run hpast r (by rw [hreported]; nofun), fun d hd hsubmits => ?_⟩
  -- the challenge is open, so the report is not decided and its lock is the one it was given
  have hlock : c.pre.oracle.reportLock r = d.post.oracle.reportLock r := by
    obtain ⟨rep', hrep', hstatus⟩ := holdsLock_of_run hpast hd hsubmits
    have hchallenged := ((lifeCycle_of_run hpast).challenged r rep' hrep').mpr hslash.opened
    rw [hchallenged] at hstatus
    exact (hstatus.resolve_left (by decide)).resolve_left (by decide)
  have hnonneg : 0 ≤ p.stake := (roster_of_run hpast).stakes _ p hslash.entry
  refine ⟨rep, p, slashRecord c.time p r, hreported, hslash.entry, ?_, rfl, ?_,
    lockCovered_iff hnonneg⟩
  · rw [hslash.history, Function.update_self]
  · rw [hlock]
    exact min_le_slashableAmount_iff hnonneg

/-- The stake is still what it was when the report was submitted, and the penalty is the lock. -/
theorem lock_at_stake_iff_same_stake : ∃ h c d e, Run (c :: h) c.post ∧ Rejects c 1 ∧ d ∈ h ∧
    Submits d 1 ∧ c.post.oracle.slashHistory ⟨1⟩ = c.pre.oracle.slashHistory ⟨1⟩ ++ [e] ∧
    min (d.post.oracle.reportLock 1) 1000 ≤ e.penalty := by
  let ops : List (ℕ × Op) := stakedReports.append
    [(2, .oracle (.depositChallengeBond ⟨3⟩ 1000000 0)),
      (2, .oracle (.challengeReport ⟨3⟩ 1 9 1)),
      (3, .oracle (.resolveChallenge ⟨0⟩ 1 .rejected 3))]
  have hplay : (machine.play [] (deploy ⟨0⟩ ⟨100⟩ ⟨101⟩ ⟨102⟩) ops).map (fun x =>
      x.1.head?.map fun c => decide
        ((c.pre.oracle.challenge 1).map Challenge.resolved = some false ∧
        (c.post.oracle.challenge 1).map (fun ch => (ch.resolved, ch.resolution)) = some (true, 3) ∧
        (c.pre.oracle.report 1).map Report.provider = some ⟨1⟩ ∧
        (c.pre.oracle.provider ⟨1⟩).map OracleProvider.stake = some 1000 ∧
        c.pre.oracle.reportLock 1 = 100)) = some (some true) := by decide
  obtain ⟨h, w, hrun, hview⟩ := Run.of_play (Init.deploy ⟨0⟩ ⟨100⟩ ⟨101⟩ ⟨102⟩) hplay
  rw [Option.map_eq_some_iff] at hview
  obtain ⟨c, hhead, hc⟩ := hview
  obtain ⟨hopen, hresolved, hprovider, hstake, hlock⟩ := of_decide_eq_true hc
  obtain ⟨ch, hch, hopen⟩ := Option.map_eq_some_iff.mp hopen
  obtain ⟨ch', hch', hmarked⟩ := Option.map_eq_some_iff.mp hresolved
  rw [Prod.mk.injEq] at hmarked
  have hrejects : Rejects c 1 := ⟨not_markedRejected_of_open hch hopen, ch', hch', hmarked⟩
  cases h with
  | nil => cases hhead
  | cons c₀ h₂ =>
    cases hhead
    have hrun' : Run (c :: h₂) c.post := by
      cases hrun with
      | call hpast ht hexec => exact hpast.call ht hexec
    obtain ⟨⟨d, hd, hsubmits⟩, hcovered⟩ := lock_at_stake_iff hrun'
      (List.nil_append (c :: h₂)).symm hrejects
    obtain ⟨rep, p, e, hrep, hp, hhistory, -, hiff, hexact⟩ := hcovered d hd hsubmits
    rw [hrep, Option.map_some, Option.some.injEq] at hprovider
    rw [hprovider] at hp hhistory
    rw [hp, Option.map_some, Option.some.injEq] at hstake
    rw [hstake, hlock] at hiff hexact
    refine ⟨h₂, c, d, e, hrun', hrejects, hd, hsubmits, hhistory, hiff.mpr ?_⟩
    exact (hexact (by decide)).mpr (Or.inr (by decide))

/-- After the submission the provider withdraws all of its stake but the lock, and the penalty is a
tenth of the lock. -/
theorem lock_not_at_stake : ¬ ∀ (h h₁ h₂ : List Call) (w : World) (c : Call), Run h w →
    h = h₁ ++ c :: h₂ → ∀ r, Rejects c r → ∀ d ∈ h₂, Submits d r → ∀ rep p e,
      c.pre.oracle.report r = some rep → c.pre.oracle.provider rep.provider = some p →
      c.post.oracle.slashHistory rep.provider =
        c.pre.oracle.slashHistory rep.provider ++ [e] →
      min (d.post.oracle.reportLock r) p.stake ≤ e.penalty := by
  intro hclaim
  let ops : List (ℕ × Op) := (onboard ⟨0⟩ ⟨5⟩ ⟨1⟩ ⟨2⟩ ⟨100⟩ ⟨102⟩ 7).append
    [(1, .oracle (.addStake ⟨1⟩ 1000 0)),
      (1, .oracle (.submitReport ⟨1⟩ 1 0 10 5000 .absent "VM0007" 3 1)),
      (2, .oracle (.withdrawStake ⟨1⟩ 900 2)),
      (2, .oracle (.depositChallengeBond ⟨3⟩ 1000000 0)),
      (2, .oracle (.challengeReport ⟨3⟩ 1 9 1)),
      (3, .oracle (.resolveChallenge ⟨0⟩ 1 .rejected 3))]
  have hplay : (machine.play [] (deploy ⟨0⟩ ⟨100⟩ ⟨101⟩ ⟨102⟩) ops).map (fun x =>
      (x.1.head?.map fun c => decide
        ((c.pre.oracle.challenge 1).map Challenge.resolved = some false ∧
        (c.post.oracle.challenge 1).map (fun ch => (ch.resolved, ch.resolution)) = some (true, 3) ∧
        (c.pre.oracle.report 1).map Report.provider = some ⟨1⟩ ∧
        (c.pre.oracle.provider ⟨1⟩).map OracleProvider.stake = some 100 ∧
        c.pre.oracle.slashHistory ⟨1⟩ = [] ∧
        c.post.oracle.slashHistory ⟨1⟩ = [⟨1, 10, 90, 3, true⟩]),
      x.1.tail.any fun d => decide (d.pre.oracle.report 1 = none ∧ d.post.oracle.report 1 ≠ none ∧
        d.post.oracle.reportLock 1 = 100))) = some (some true, true) := by decide
  obtain ⟨h, w, hrun, hview⟩ := Run.of_play (Init.deploy ⟨0⟩ ⟨100⟩ ⟨101⟩ ⟨102⟩) hplay
  rw [Prod.mk.injEq, Option.map_eq_some_iff, List.any_eq_true] at hview
  obtain ⟨⟨c, hhead, hc⟩, d, hd, hsubmits⟩ := hview
  obtain ⟨hopen, hresolved, hprovider, hstake, hbefore, hafter⟩ := of_decide_eq_true hc
  obtain ⟨hnew, hstored, hlock⟩ := of_decide_eq_true hsubmits
  obtain ⟨ch, hch, hopen⟩ := Option.map_eq_some_iff.mp hopen
  obtain ⟨ch', hch', hmarked⟩ := Option.map_eq_some_iff.mp hresolved
  obtain ⟨rep, hrep, hprovider⟩ := Option.map_eq_some_iff.mp hprovider
  obtain ⟨p, hp, hstake⟩ := Option.map_eq_some_iff.mp hstake
  rw [Prod.mk.injEq] at hmarked
  cases h with
  | nil => cases hhead
  | cons c₀ h₂ =>
    cases hhead
    have hle := hclaim (c :: h₂) [] h₂ w c hrun rfl 1
      ⟨not_markedRejected_of_open hch hopen, ch', hch', hmarked⟩ d hd ⟨hnew, hstored⟩ rep p
      ⟨1, 10, 90, 3, true⟩ hrep (by rw [hprovider]; exact hp) (by
        rw [hprovider, hbefore, hafter]
        rfl)
    rw [hlock, hstake] at hle
    exact absurd hle (by decide)

end Protocol
end NbsBond
