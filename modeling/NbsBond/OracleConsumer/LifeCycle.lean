import NbsBond.OracleConsumer.Docket

/-!
# The life cycle of a report

A report is pending, then perhaps challenged, and ends verified or rejected; a lapsed challenge
makes it pending again. `LifeCycle` is the invariant behind this picture: a report is challenged
exactly while its challenge is open, which is what makes the shared finaliser, which never looks at
the report's status, safe. `Step.report_change` is the picture itself, for one call.
-/

namespace NbsBond
namespace OracleConsumer

open Soroban Int128

/-! ### Reading the docket after a move -/

namespace Docket

variable (d : Docket)

section Release

variable (v : Address) (r : ReportId)

@[simp] theorem release_count : (d.release v r).count = d.count := by
  unfold release; split <;> rfl

@[simp] theorem release_report : (d.release v r).report = d.report := by
  unfold release; split <;> rfl

@[simp] theorem release_challenge : (d.release v r).challenge = d.challenge := by
  unfold release; split <;> rfl

@[simp] theorem release_verifiers : (d.release v r).verifiers = d.verifiers := by
  unfold release; split <;> rfl

@[simp] theorem release_verificationCount :
    (d.release v r).verificationCount = d.verificationCount := by
  unfold release; split <;> rfl

@[simp] theorem release_bondLock : (d.release v r).bondLock = d.bondLock := by
  unfold release; split <;> rfl

/-- After the release nothing is locked on account of the report. If it had been released before,
the docket is left as it is. -/
theorem release_reportLock : (d.release v r).reportLock = Function.update d.reportLock r 0 := by
  unfold release
  split
  · next h => rw [← h, Function.update_eq_self]
  · rfl

end Release

section Sign

variable (r : ReportId) (a : Address)

@[simp] theorem sign_count : (d.sign r a).count = d.count := by
  unfold sign; split <;> rfl

@[simp] theorem sign_report : (d.sign r a).report = d.report := by
  unfold sign; split <;> rfl

@[simp] theorem sign_challenge : (d.sign r a).challenge = d.challenge := by
  unfold sign; split <;> rfl

@[simp] theorem sign_reportLock : (d.sign r a).reportLock = d.reportLock := by
  unfold sign; split <;> rfl

@[simp] theorem sign_lockedStake : (d.sign r a).lockedStake = d.lockedStake := by
  unfold sign; split <;> rfl

@[simp] theorem sign_bondLock : (d.sign r a).bondLock = d.bondLock := by
  unfold sign; split <;> rfl

theorem sign_verifiers_of_ne {r' : ReportId} (h : r' ≠ r) :
    (d.sign r a).verifiers r' = d.verifiers r' := by
  unfold sign
  split
  · rfl
  · exact Function.update_of_ne h _ _

theorem sign_verificationCount_of_ne {r' : ReportId} (h : r' ≠ r) :
    (d.sign r a).verificationCount r' = d.verificationCount r' := by
  unfold sign
  split
  · rfl
  · exact Function.update_of_ne h _ _

theorem mem_sign_verifiers {b : Address} :
    b ∈ (d.sign r a).verifiers r ↔ b ∈ d.verifiers r ∨ b = a := by
  unfold sign
  split
  · next h =>
    constructor
    · exact Or.inl
    · rintro (hb | rfl)
      · exact hb
      · exact h
  · dsimp only
    rw [Function.update_self, List.mem_append, List.mem_singleton]

theorem sign_nodup (h : (d.verifiers r).Nodup) : ((d.sign r a).verifiers r).Nodup := by
  unfold sign
  split
  · exact h
  · next hnew =>
    dsimp only
    rw [Function.update_self, List.nodup_append]
    refine ⟨h, List.nodup_singleton a, ?_⟩
    rintro b hb c hc rfl
    rw [List.mem_singleton] at hc
    exact hnew (hc ▸ hb)

theorem sign_counted (h : d.verificationCount r = (d.verifiers r).length) :
    (d.sign r a).verificationCount r = ((d.sign r a).verifiers r).length := by
  unfold sign
  split
  · exact h
  · dsimp only
    rw [Function.update_self, Function.update_self]

end Sign

section Settle

variable (a : Address) (bond : ℤ)

@[simp] theorem settleBond_count : (d.settleBond a bond).count = d.count := by
  unfold settleBond; split <;> rfl

@[simp] theorem settleBond_report : (d.settleBond a bond).report = d.report := by
  unfold settleBond; split <;> rfl

@[simp] theorem settleBond_challenge : (d.settleBond a bond).challenge = d.challenge := by
  unfold settleBond; split <;> rfl

@[simp] theorem settleBond_verifiers : (d.settleBond a bond).verifiers = d.verifiers := by
  unfold settleBond; split <;> rfl

@[simp] theorem settleBond_verificationCount :
    (d.settleBond a bond).verificationCount = d.verificationCount := by
  unfold settleBond; split <;> rfl

@[simp] theorem settleBond_reportLock : (d.settleBond a bond).reportLock = d.reportLock := by
  unfold settleBond; split <;> rfl

@[simp] theorem settleBond_lockedStake : (d.settleBond a bond).lockedStake = d.lockedStake := by
  unfold settleBond; split <;> rfl

end Settle

section Resolve

variable (now : ℕ) (r : ReportId) (rep : Report) (ch : Challenge) (resolution : ReportStatus)

@[simp] theorem resolve_count : (d.resolve now r rep ch resolution).count = d.count := by
  unfold resolve; simp [setReport, setChallenge]

@[simp] theorem resolve_report : (d.resolve now r rep ch resolution).report =
    Function.update d.report r (some (resolvedReport now rep resolution)) := by
  unfold resolve; simp [setReport, setChallenge]

@[simp] theorem resolve_challenge : (d.resolve now r rep ch resolution).challenge =
    Function.update d.challenge r (some (resolvedChallenge ch resolution)) := by
  unfold resolve; simp [setReport, setChallenge]

@[simp] theorem resolve_verifiers :
    (d.resolve now r rep ch resolution).verifiers = d.verifiers := by
  unfold resolve; simp [setReport, setChallenge]

@[simp] theorem resolve_verificationCount :
    (d.resolve now r rep ch resolution).verificationCount = d.verificationCount := by
  unfold resolve; simp [setReport, setChallenge]

theorem resolve_reportLock : (d.resolve now r rep ch resolution).reportLock =
    Function.update d.reportLock r 0 := by
  unfold resolve
  rw [settleBond_reportLock, release_reportLock]
  rfl

end Resolve

end Docket

/-! ### The invariant -/

/-- The life-cycle invariant of a docket. Each field is about what is stored under one report id;
`DocketEntry` is the same for one id alone. -/
structure LifeCycle (d : Docket) : Prop where
  /-- Ids above the counter are unused. -/
  fresh : ∀ r, d.count < r → d.report r = none
  /-- A report is stored under its own id. -/
  ids : ∀ r rep, d.report r = some rep → rep.id = r
  /-- An unused id has neither challenge nor signatures. -/
  unused : ∀ r, d.report r = none → d.challenge r = none ∧ d.verifiers r = []
  /-- A report is challenged exactly while its challenge is open. -/
  challenged : ∀ r rep, d.report r = some rep →
    (rep.status = .challenged ↔ ∃ ch, d.challenge r = some ch ∧ ch.resolved = false)
  /-- The signature counter counts the signatures. -/
  counted : ∀ r, d.verificationCount r = (d.verifiers r).length
  distinct : ∀ r, (d.verifiers r).Nodup
  /-- Nobody signs its own report. -/
  foreign : ∀ r rep, d.report r = some rep → rep.provider ∉ d.verifiers r
  /-- Reported quantities are non-negative. -/
  measured : ∀ r rep, d.report r = some rep → 0 ≤ rep.carbonSequestered ∧
    BiodiversityMetrics.nonneg rep.biodiversity = true

/-- The invariant for what is stored under one id. -/
structure DocketEntry (r : ReportId) (report : Option Report) (challenge : Option Challenge)
    (verifiers : List Address) (verificationCount : ℕ) : Prop where
  ids : ∀ rep, report = some rep → rep.id = r
  unused : report = none → challenge = none ∧ verifiers = []
  challenged : ∀ rep, report = some rep →
    (rep.status = .challenged ↔ ∃ ch, challenge = some ch ∧ ch.resolved = false)
  counted : verificationCount = verifiers.length
  distinct : verifiers.Nodup
  foreign : ∀ rep, report = some rep → rep.provider ∉ verifiers
  measured : ∀ rep, report = some rep → 0 ≤ rep.carbonSequestered ∧
    BiodiversityMetrics.nonneg rep.biodiversity = true

/-- A new report: nobody has challenged or signed it. A report is numbered with the next id, of
which `unused` says that nobody has touched it. -/
theorem DocketEntry.submit {r : ReportId} {challenge : Option Challenge} {verifiers : List Address}
    {n : ℕ} (h : DocketEntry r none challenge verifiers n) {rep : Report} (hid : rep.id = r)
    (hstatus : rep.status = .pending) (hcarbon : 0 ≤ rep.carbonSequestered)
    (hbio : BiodiversityMetrics.nonneg rep.biodiversity = true) :
    DocketEntry r (some rep) challenge verifiers n := by
  obtain ⟨rfl, rfl⟩ := h.unused rfl
  constructor
  case ids =>
    rintro _ ⟨⟩
    exact hid
  case unused =>
    intro hnone
    cases hnone
  -- it is pending, and there is no challenge
  case challenged =>
    rintro _ ⟨⟩
    rw [hstatus]
    constructor
    · intro hchallenged
      cases hchallenged
    · rintro ⟨ch, hch, -⟩
      cases hch
  case counted => exact h.counted
  case distinct => exact h.distinct
  case foreign =>
    intro _ _
    exact List.not_mem_nil
  case measured =>
    rintro _ ⟨⟩
    exact ⟨hcarbon, hbio⟩

theorem LifeCycle.entry {d : Docket} (hL : LifeCycle d) (r : ReportId) :
    DocketEntry r (d.report r) (d.challenge r) (d.verifiers r) (d.verificationCount r) :=
  ⟨hL.ids r, hL.unused r, hL.challenged r, hL.counted r, hL.distinct r, hL.foreign r,
    hL.measured r⟩

/-- **One report at a time.** A docket that differs under one id satisfies the invariant if it does
so there. All calls but the frame ones write the docket under one id. -/
theorem LifeCycle.of_touched {d d' : Docket} (hL : LifeCycle d) (r₀ : ReportId)
    (hfresh : ∀ r, d'.count < r → r ≠ r₀ ∧ d.count < r)
    (hother : ∀ r, r ≠ r₀ → d'.report r = d.report r ∧ d'.challenge r = d.challenge r ∧
      d'.verifiers r = d.verifiers r ∧ d'.verificationCount r = d.verificationCount r)
    (h : DocketEntry r₀ (d'.report r₀) (d'.challenge r₀) (d'.verifiers r₀)
      (d'.verificationCount r₀)) :
    LifeCycle d' := by
  have hentry : ∀ r,
      DocketEntry r (d'.report r) (d'.challenge r) (d'.verifiers r) (d'.verificationCount r) := by
    intro r
    by_cases hne : r = r₀
    · rw [hne]
      exact h
    · obtain ⟨hreport, hchallenge, hverifiers, hcount⟩ := hother r hne
      rw [hreport, hchallenge, hverifiers, hcount]
      exact hL.entry r
  refine ⟨?_, fun r => (hentry r).ids, fun r => (hentry r).unused, fun r => (hentry r).challenged,
    fun r => (hentry r).counted, fun r => (hentry r).distinct, fun r => (hentry r).foreign,
    fun r => (hentry r).measured⟩
  -- unused ids stay unused
  intro r hr
  obtain ⟨hne, hcount⟩ := hfresh r hr
  rw [(hother r hne).1]
  exact hL.fresh r hcount

/-- Rewriting the status of one existing report, and perhaps its challenge, keeps the invariant if
the two agree. The report keeps its facts, so that only the status, the challenge and the signatures
have to be looked at again. The hypotheses are in the order in which a caller can discharge them. -/
theorem LifeCycle.rewrite {d d' : Docket} {r₀ : ReportId} {rep : Report} (hL : LifeCycle d)
    (hrep : d.report r₀ = some rep) (rep' : Report)
    (hreport : d'.report = Function.update d.report r₀ (some rep'))
    (hfacts : rep' = { rep with status := rep'.status, verifiedAt := rep'.verifiedAt })
    (hcount : d'.count = d.count) (hchallenge : ∀ r, r ≠ r₀ → d'.challenge r = d.challenge r)
    (hagree : rep'.status = .challenged ↔
      ∃ ch, d'.challenge r₀ = some ch ∧ ch.resolved = false)
    (hverifiers : ∀ r, r ≠ r₀ → d'.verifiers r = d.verifiers r)
    (hverificationCount : ∀ r, r ≠ r₀ → d'.verificationCount r = d.verificationCount r)
    (hcounted : d'.verificationCount r₀ = (d'.verifiers r₀).length)
    (hdistinct : (d'.verifiers r₀).Nodup) (hforeign : rep.provider ∉ d'.verifiers r₀) :
    LifeCycle d' := by
  have hprovider : rep'.provider = rep.provider := by rw [hfacts]
  refine hL.of_touched r₀ ?_ ?_ ?_
  · intro r hr
    rw [hcount] at hr
    refine ⟨?_, hr⟩
    -- the rewritten report is on record, so it is none of the unused ids
    rintro rfl
    rw [hL.fresh r hr] at hrep
    cases hrep
  · intro r hne
    rw [hreport, Function.update_of_ne hne]
    exact ⟨rfl, hchallenge r hne, hverifiers r hne, hverificationCount r hne⟩
  -- under the id itself
  · rw [hreport, Function.update_self]
    constructor
    case ids =>
      rintro _ ⟨⟩
      rw [hfacts]
      exact hL.ids r₀ rep hrep
    case unused =>
      intro hnone
      cases hnone
    case challenged =>
      rintro _ ⟨⟩
      exact hagree
    case counted => exact hcounted
    case distinct => exact hdistinct
    case foreign =>
      rintro _ ⟨⟩
      rw [hprovider]
      exact hforeign
    case measured =>
      rintro _ ⟨⟩
      rw [hfacts]
      exact hL.measured r₀ rep hrep

/-- **Invariant preservation.** One case per kind of call; the first two create and the others
rewrite. -/
theorem LifeCycle.step {now : ℕ} {s : State} {d : Docket} {op : Op} (hL : LifeCycle (docket s))
    (hstep : Step now s d op) : LifeCycle d := by
  cases hstep with
  | frame _ hd =>
    subst hd
    exact hL
  | @submit provider _ _ _ _ _ _ _ _ p rep hprovider hid hby hstatus hcarbon hbio hd =>
    -- the new id was unused
    have hentry := hL.entry (s.reportCount + 1)
    rw [hL.fresh (s.reportCount + 1) (Nat.lt_succ_self _)] at hentry
    subst hd
    refine hL.of_touched (s.reportCount + 1) ?_ ?_ ?_
    · intro r hr
      exact ⟨ne_of_gt hr, lt_trans (Nat.lt_succ_self _) hr⟩
    · intro r hne
      exact ⟨Function.update_of_ne hne _ _, rfl, rfl, rfl⟩
    · show DocketEntry _ (Function.update s.report (s.reportCount + 1) (some rep) _) _ _ _
      rw [Function.update_self]
      exact hentry.submit hid hstatus hcarbon hbio
  -- the report is rewritten with itself, so that signing is a case of rewriting
  | @sign caller r nonce rep hactive hrep hpending hother hbelow hd =>
    have hreport : d.report = Function.update (docket s).report r (some rep) := by
      rw [hd, Docket.sign_report, ← (show (docket s).report r = some rep from hrep),
        Function.update_eq_self]
    subst hd
    refine hL.rewrite hrep rep hreport rfl (by simp) (fun _ _ => by simp) ?_
      (fun _ h => Docket.sign_verifiers_of_ne _ _ _ h)
      (fun _ h => Docket.sign_verificationCount_of_ne _ _ _ h)
      (Docket.sign_counted _ _ _ (hL.counted r)) (Docket.sign_nodup _ _ _ (hL.distinct r)) ?_
    -- the status is unchanged, and so is the challenge
    · rw [Docket.sign_challenge]
      exact hL.challenged r rep hrep
    · rw [Docket.mem_sign_verifiers]
      rintro (h | h)
      · exact hL.foreign r rep hrep h
      · exact hother h.symm
  -- verified: there is no open challenge, or `verify` would not have come this far
  | @verify caller r nonce rep hactive hrep hpending hclosed hother hreached hd =>
    subst hd
    refine hL.rewrite hrep { rep with status := .verified, verifiedAt := now }
      (by simp [Docket.setReport]) rfl (by simp [Docket.setReport])
      (fun _ _ => by simp [Docket.setReport]) ?_ ?_ ?_ ?_ ?_ ?_
    · simp only [Docket.setReport, Docket.release_challenge, Docket.sign_challenge]
      constructor
      · intro h; cases h
      -- the challenge that is there is closed
      · rintro ⟨ch, hch, hopen⟩
        rw [hclosed ch hch] at hopen
        cases hopen
    · intro r' h
      simp only [Docket.setReport, Docket.release_verifiers]
      exact Docket.sign_verifiers_of_ne _ _ _ h
    · intro r' h
      simp only [Docket.setReport, Docket.release_verificationCount]
      exact Docket.sign_verificationCount_of_ne _ _ _ h
    · simp only [Docket.setReport, Docket.release_verificationCount, Docket.release_verifiers]
      exact Docket.sign_counted _ _ _ (hL.counted r)
    · simp only [Docket.setReport, Docket.release_verifiers]
      exact Docket.sign_nodup _ _ _ (hL.distinct r)
    · simp only [Docket.setReport, Docket.release_verifiers, Docket.mem_sign_verifiers]
      rintro (h | h)
      · exact hL.foreign r rep hrep h
      · exact hother h.symm
  | @override caller r status nonce rep hadmin hstatus hrep hpending hd =>
    subst hd
    refine hL.rewrite hrep { rep with status, verifiedAt := now } rfl rfl rfl
      (fun _ _ => rfl) ?_ (fun _ _ => rfl) (fun _ _ => rfl) (hL.counted r) (hL.distinct r)
      (hL.foreign r rep hrep)
    -- a pending report has no open challenge, and the new status is not `challenged` either
    have hno := hL.challenged r rep hrep
    rw [hpending] at hno
    constructor
    · intro h
      rcases hstatus with rfl | rfl <;> cases h
    · intro h
      exact absurd (hno.mpr h) (by decide)
  -- challenged, with a challenge that is open
  | @challenge challenger r hash nonce rep hnew hrep hpending hother hd =>
    subst hd
    refine hL.rewrite hrep { rep with status := .challenged } rfl rfl rfl ?_ ?_
      (fun _ _ => rfl) (fun _ _ => rfl) (hL.counted r) (hL.distinct r) (hL.foreign r rep hrep)
    · intro r' h
      exact Function.update_of_ne h _ _
    · refine ⟨fun _ => ⟨_, Function.update_self _ _ _, rfl⟩, fun _ => rfl⟩
  -- resolved, and the challenge closed in the same call
  | @resolve _ r rep ch resolution hop hch hopen hrep hresolution hd =>
    subst hd
    refine hL.rewrite hrep (resolvedReport now rep resolution) (by simp) rfl (by simp) ?_
      ?_ (by simp) (by simp) (by simpa using hL.counted r) (by simpa using hL.distinct r)
      (by simpa using hL.foreign r rep hrep)
    · intro r' h
      rw [Docket.resolve_challenge, Function.update_of_ne h]
    · rw [Docket.resolve_challenge, Function.update_self]
      constructor
      · intro h
        change resolution = .challenged at h
        -- a resolution is never `challenged`, and the challenge is closed with it
        rcases hresolution with rfl | rfl <;> cases h
      · rintro ⟨ch', h, hopen'⟩
        cases h
        cases hopen'
  -- pending again, the challenge closed without a resolution
  | @expire r rep ch hch hopen hrep hchallenged hd =>
    subst hd
    refine hL.rewrite hrep { rep with status := .pending }
      (by simp [Docket.setReport, Docket.setChallenge]) rfl
      (by simp [Docket.setReport, Docket.setChallenge]) ?_ ?_
      (by simp [Docket.setReport, Docket.setChallenge])
      (by simp [Docket.setReport, Docket.setChallenge]) ?_ ?_ ?_
    · intro r' h
      simp only [Docket.setReport, Docket.setChallenge, Docket.settleBond_challenge]
      exact Function.update_of_ne h _ _
    · simp only [Docket.setReport, Docket.setChallenge, Docket.settleBond_challenge,
        Function.update_self]
      constructor
      · intro h; cases h
      · rintro ⟨ch', h, hopen'⟩
        cases h
        cases hopen'
    · simpa [Docket.setReport, Docket.setChallenge] using hL.counted r
    · simpa [Docket.setReport, Docket.setChallenge] using hL.distinct r
    · simpa [Docket.setReport, Docket.setChallenge] using hL.foreign r rep hrep

theorem LifeCycle.initial (admin : Address) : LifeCycle (docket (construct admin)) where
  fresh _ _ := rfl
  ids _ _ h := by cases h
  unused _ _ := ⟨rfl, rfl⟩
  challenged _ _ h := by cases h
  counted _ := rfl
  distinct _ := List.nodup_nil
  foreign _ _ h := by cases h
  measured _ _ h := by cases h

/-! ### What one call does to one report -/

/-- The status changes a report can make. This is the picture of the header as a relation; it has no
arrow out of `verified` or `rejected`. -/
inductive Allowed : ReportStatus → ReportStatus → Prop
  | verify : Allowed .pending .verified
  | reject : Allowed .pending .rejected
  | challenge : Allowed .pending .challenged
  | uphold : Allowed .challenged .verified
  | dismiss : Allowed .challenged .rejected
  | lapse : Allowed .challenged .pending

/-- Nothing leaves `verified` or `rejected`. -/
theorem Allowed.source {a b : ReportStatus} (h : Allowed a b) : a ≠ .verified ∧ a ≠ .rejected := by
  cases h <;> decide

/-- What a report says apart from its status: everything but `status` and `verifiedAt`. -/
def SameReport (rep rep' : Report) : Prop :=
  rep' = { rep with status := rep'.status, verifiedAt := rep'.verifiedAt }

theorem SameReport.trans {rep rep₁ rep₂ : Report} (h₁ : SameReport rep rep₁)
    (h₂ : SameReport rep₁ rep₂) : SameReport rep rep₂ := by
  unfold SameReport at *
  rw [h₂, h₁]

/-- **One call, one report.** A stored report stays stored and keeps what it says; its record stays
as it is, or its status makes an allowed change. The call may be about another report, and then
nothing happens to this one. -/
theorem Step.report_change {now : ℕ} {s : State} {d : Docket} {op : Op}
    (hL : LifeCycle (docket s)) (hstep : Step now s d op) {r : ReportId} {rep : Report}
    (hrep : s.report r = some rep) :
    ∃ rep', d.report r = some rep' ∧ SameReport rep rep' ∧
      (rep' = rep ∨ Allowed rep.status rep'.status) := by
  -- a call that writes report `r₀` leaves the others alone
  have hwrite : ∀ {r₀ : ReportId} {rep₀ rep₁ : Report}, s.report r₀ = some rep₀ →
      SameReport rep₀ rep₁ → Allowed rep₀.status rep₁.status →
      ∃ rep', Function.update s.report r₀ (some rep₁) r = some rep' ∧ SameReport rep rep' ∧
        (rep' = rep ∨ Allowed rep.status rep'.status) := by
    intro r₀ rep₀ rep₁ hrep₀ hsame hallowed
    by_cases hne : r = r₀
    · subst hne
      rw [hrep] at hrep₀
      cases hrep₀
      exact ⟨rep₁, Function.update_self _ _ _, hsame, Or.inr hallowed⟩
    · exact ⟨rep, by rw [Function.update_of_ne hne]; exact hrep, rfl, Or.inl rfl⟩
  cases hstep with
  | frame _ hd =>
    subst hd
    exact ⟨rep, hrep, rfl, Or.inl rfl⟩
  -- a new report has another id
  | submit _ _ _ _ _ _ hd =>
    subst hd
    refine ⟨rep, ?_, rfl, Or.inl rfl⟩
    show Function.update s.report _ _ r = _
    rw [Function.update_of_ne]
    · exact hrep
    · rintro rfl
      have hnone : s.report (s.reportCount + 1) = none := hL.fresh _ (Nat.lt_succ_self _)
      rw [hrep] at hnone
      cases hnone
  -- a signature below the threshold leaves the report alone
  | sign _ _ _ _ _ hd =>
    subst hd
    exact ⟨rep, by rw [Docket.sign_report]; exact hrep, rfl, Or.inl rfl⟩
  | verify _ hrep₀ hpending _ _ _ hd =>
    subst hd
    rw [Docket.release_report]
    simp only [Docket.setReport, Docket.sign_report]
    refine hwrite hrep₀ rfl ?_
    rw [hpending]
    exact .verify
  | override _ hstatus hrep₀ hpending hd =>
    subst hd
    refine hwrite hrep₀ rfl ?_
    rw [hpending]
    rcases hstatus with rfl | rfl
    · exact .verify
    · exact .reject
  | challenge _ hrep₀ hpending _ hd =>
    subst hd
    refine hwrite hrep₀ rfl ?_
    rw [hpending]
    exact .challenge
  | resolve _ hch hopen hrep₀ hresolution hd =>
    subst hd
    rw [Docket.resolve_report]
    refine hwrite hrep₀ rfl ?_
    -- the challenge is open, so the report is challenged
    rw [(hL.challenged _ _ hrep₀).mpr ⟨_, hch, hopen⟩]
    rcases hresolution with rfl | rfl
    · exact .uphold
    · exact .dismiss
  | expire _ _ hrep₀ hchallenged hd =>
    subst hd
    rw [Docket.settleBond_report]
    refine hwrite hrep₀ rfl ?_
    rw [hchallenged]
    exact .lapse

/-- A verified report is left exactly as it is. Its verification is final, and so are its
quantities. -/
theorem Step.keeps_verified {now : ℕ} {s : State} {d : Docket} {op : Op}
    (hL : LifeCycle (docket s)) (hstep : Step now s d op) {r : ReportId} {rep : Report}
    (hrep : s.report r = some rep) (hverified : rep.status = .verified) :
    d.report r = some rep := by
  obtain ⟨rep', hrep', -, hchange⟩ := hstep.report_change hL hrep
  rcases hchange with rfl | hallowed
  · exact hrep'
  · exact absurd hverified hallowed.source.1

/-- What a call leaves of a challenge: a challenge is opened only on a report that never had one, by
a call that asks for it, and is never removed. Not even the expiry of a challenge removes it; that
is what keeps a report from being challenged twice. -/
theorem Step.challenge_change {now : ℕ} {s : State} {d : Docket} {op : Op}
    (hstep : Step now s d op) (r : ReportId) :
    (op.challenges = some r ∧ s.challenge r = none ∧ d.challenge r ≠ none) ∨
      (op.challenges ≠ some r ∧ (d.challenge r = none ↔ s.challenge r = none)) := by
  -- rewriting an existing challenge of `r₀` opens none
  have hwrite : ∀ {r₀ : ReportId} {ch ch' : Challenge}, s.challenge r₀ = some ch →
      (Function.update s.challenge r₀ (some ch') r = none ↔ s.challenge r = none) := by
    intro r₀ ch ch' hch
    by_cases hne : r = r₀
    · subst hne
      rw [Function.update_self, hch]
      simp
    · rw [Function.update_of_ne hne]
  cases hstep with
  | frame hop hd =>
    subst hd
    exact Or.inr ⟨by rw [hop]; simp, Iff.rfl⟩
  -- only a challenge opens one
  | submit _ _ _ _ _ _ hd =>
    subst hd
    exact Or.inr ⟨by simp [Op.challenges], Iff.rfl⟩
  | sign _ _ _ _ _ hd =>
    subst hd
    rw [Docket.sign_challenge]
    exact Or.inr ⟨by simp [Op.challenges], Iff.rfl⟩
  | verify _ _ _ _ _ _ hd =>
    subst hd
    rw [Docket.release_challenge]
    simp only [Docket.setReport, Docket.sign_challenge]
    exact Or.inr ⟨by simp [Op.challenges], Iff.rfl⟩
  | override _ _ _ _ hd =>
    subst hd
    exact Or.inr ⟨by simp [Op.challenges], Iff.rfl⟩
  -- the report had none before
  | @challenge challenger r₀ hash nonce rep hnew hrep hpending hother hd =>
    subst hd
    simp only [Docket.setReport, Docket.setChallenge, Docket.chargeBond, Op.challenges]
    by_cases hne : r = r₀
    · subst hne
      exact Or.inl ⟨rfl, hnew, by simp⟩
    · refine Or.inr ⟨fun h => hne (Option.some.inj h).symm, ?_⟩
      rw [Function.update_of_ne hne]
      exact Iff.rfl
  | resolve hop hch _ _ _ hd =>
    subst hd
    rw [Docket.resolve_challenge]
    refine Or.inr ⟨?_, hwrite hch⟩
    cases op <;> simp_all [Op.resolves, Op.challenges]
  | expire hch _ _ _ hd =>
    subst hd
    rw [Docket.settleBond_challenge]
    exact Or.inr ⟨by simp [Op.challenges], hwrite hch⟩

/-! ### Signatures -/

/-- A signature that was not there before is the caller's own, and the caller is an active provider.
No other call writes the signatures. -/
theorem Step.new_verifier {now : ℕ} {s : State} {d : Docket} {op : Op} (hstep : Step now s d op)
    {r : ReportId} {a : Address} (ha : a ∈ d.verifiers r) (hold : a ∉ s.reportVerifiers r) :
    ∃ nonce, op = .verifyReport a r nonce ∧ isActive s a = true := by
  -- among the signatures of any report, only the caller's is new
  have hsign : ∀ {r₀ : ReportId} {caller : Address},
      a ∈ ((docket s).sign r₀ caller).verifiers r → r = r₀ ∧ a = caller := by
    intro r₀ caller ha
    by_cases hne : r = r₀
    · subst hne
      rw [Docket.mem_sign_verifiers] at ha
      exact ⟨rfl, ha.resolve_left hold⟩
    · rw [Docket.sign_verifiers_of_ne _ _ _ hne] at ha
      exact absurd ha hold
  cases hstep with
  | frame _ hd =>
    subst hd
    exact absurd ha hold
  | submit _ _ _ _ _ _ hd =>
    subst hd
    exact absurd ha hold
  -- of the two calls that sign, neither signs for anybody else
  | sign hactive _ _ _ _ hd =>
    subst hd
    obtain ⟨rfl, rfl⟩ := hsign ha
    exact ⟨_, rfl, hactive⟩
  | verify hactive _ _ _ _ _ hd =>
    subst hd
    rw [Docket.release_verifiers] at ha
    obtain ⟨rfl, rfl⟩ := hsign ha
    exact ⟨_, rfl, hactive⟩
  | override _ _ _ _ hd =>
    subst hd
    exact absurd ha hold
  | challenge _ _ _ _ hd =>
    subst hd
    exact absurd ha hold
  | resolve _ _ _ _ _ hd =>
    subst hd
    rw [Docket.resolve_verifiers] at ha
    exact absurd ha hold
  | expire _ _ _ _ hd =>
    subst hd
    rw [Docket.settleBond_verifiers] at ha
    exact absurd ha hold

/-- **How a report becomes verified.** By the signature that reaches the threshold, by the admin, or
by the resolution of an open challenge. The three are told apart by the call that was made; the
hypothesis that it was not verified before rules out all calls that leave it alone. -/
theorem Step.verified_cause {now : ℕ} {s : State} {d : Docket} {op : Op} (hstep : Step now s d op)
    {r : ReportId} {rep : Report} (hrep : d.report r = some rep)
    (hverified : rep.status = .verified)
    (hbefore : ∀ rep₀, s.report r = some rep₀ → rep₀.status ≠ .verified) :
    (∃ caller nonce, op = .verifyReport caller r nonce ∧
      s.signatureThreshold ≤ (d.verifiers r).length ∧
      ∀ ch, d.challenge r = some ch → ch.resolved = true) ∨
    (∃ caller nonce, op = .adminOverrideReport caller r .verified nonce ∧
      s.admin = some caller) ∨
    (op.resolves = some r ∧ ∃ ch, s.challenge r = some ch ∧ ch.resolved = false) := by
  -- a report other than the written one was verified before, which is excluded
  have hwrite : ∀ {r₀ : ReportId} {rep₀ : Report},
      Function.update s.report r₀ (some rep₀) r = some rep → r = r₀ ∧ rep = rep₀ := by
    intro r₀ rep₀ h
    by_cases hne : r = r₀
    · subst hne
      rw [Function.update_self] at h
      exact ⟨rfl, (Option.some.inj h).symm⟩
    · rw [Function.update_of_ne hne] at h
      exact absurd hverified (hbefore rep h)
  cases hstep with
  | frame _ hd =>
    subst hd
    exact absurd hverified (hbefore rep hrep)
  -- a new report is pending
  | submit _ _ _ hstatus _ _ hd =>
    subst hd
    obtain ⟨-, rfl⟩ := hwrite hrep
    rw [hstatus] at hverified
    cases hverified
  | sign _ _ _ _ _ hd =>
    subst hd
    rw [Docket.sign_report] at hrep
    exact absurd hverified (hbefore rep hrep)
  -- the signature counts towards the threshold that it reaches
  | verify _ _ _ hclosed _ hreached hd =>
    subst hd
    rw [Docket.release_report] at hrep
    simp only [Docket.setReport, Docket.sign_report] at hrep
    obtain ⟨rfl, -⟩ := hwrite hrep
    refine Or.inl ⟨_, _, rfl, ?_, ?_⟩
    · rw [Docket.release_verifiers]
      exact hreached
    · rw [Docket.release_challenge]
      simp only [Docket.setReport, Docket.sign_challenge]
      exact hclosed
  | override hadmin _ _ _ hd =>
    subst hd
    obtain ⟨rfl, rfl⟩ := hwrite hrep
    change _ = _ at hverified
    subst hverified
    exact Or.inr (Or.inl ⟨_, _, rfl, hadmin⟩)
  -- a challenge and its expiry write other statuses
  | challenge _ _ _ _ hd =>
    subst hd
    obtain ⟨-, rfl⟩ := hwrite hrep
    cases hverified
  | resolve hop hch hopen _ _ hd =>
    subst hd
    rw [Docket.resolve_report] at hrep
    obtain ⟨rfl, -⟩ := hwrite hrep
    exact Or.inr (Or.inr ⟨hop, _, hch, hopen⟩)
  | expire _ _ _ _ hd =>
    subst hd
    rw [Docket.settleBond_report] at hrep
    obtain ⟨-, rfl⟩ := hwrite hrep
    cases hverified

end OracleConsumer
end NbsBond
