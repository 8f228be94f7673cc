import NbsBond.Framework.Pledges
import NbsBond.OracleConsumer.LifeCycle

/-!
# Locked stake and locked bonds

A report that is pending or challenged has part of its provider's stake locked, an open challenge
has the challenger's bond locked, and the contract keeps the locked totals per address. Reports and
challenges are the open items, their locks are pledges (`stakePledge`, `bondPledge`), and
`StakeLocks` and `BondLocks` say that the totals are the sums.

The bonds are always in order (`BondLocks.step`). The stakes are in order as long as every report
gives its lock back when it is decided, and the totals fit an `i128` (`StakeLocks.step`):
`admin_override_report` decides a report and keeps the lock.
-/

namespace NbsBond
namespace OracleConsumer

open Soroban Int128 Pledges

/-! ### Pledges -/

/-- The lock of a report that is not decided, made out to its provider. -/
def stakePledge (d : Docket) (r : ReportId) : Option (Pledge Address ℤ) :=
  match d.report r with
  | some rep =>
    if rep.status = .pending ∨ rep.status = .challenged then some ⟨rep.provider, d.reportLock r⟩
    else none
  | none => none

/-- The bond of an open challenge, made out to the challenger. -/
def bondPledge (d : Docket) (r : ReportId) : Option (Pledge Address ℤ) :=
  match d.challenge r with
  | some ch => if ch.resolved = false then some ⟨ch.challenger, ch.bond⟩ else none
  | none => none

theorem stakePledge_open {d : Docket} {r : ReportId} {rep : Report} (hrep : d.report r = some rep)
    (hopen : rep.status = .pending ∨ rep.status = .challenged) :
    stakePledge d r = some ⟨rep.provider, d.reportLock r⟩ := by
  unfold stakePledge
  rw [hrep]
  exact if_pos hopen

theorem stakePledge_decided {d : Docket} {r : ReportId} {rep : Report}
    (hrep : d.report r = some rep) (hdecided : rep.status = .verified ∨ rep.status = .rejected) :
    stakePledge d r = none := by
  unfold stakePledge
  rw [hrep]
  refine if_neg ?_
  rcases hdecided with h | h
  · simp [h]
  · simp [h]

theorem stakePledge_unused {d : Docket} {r : ReportId} (hrep : d.report r = none) :
    stakePledge d r = none := by
  unfold stakePledge
  rw [hrep]

theorem bondPledge_open {d : Docket} {r : ReportId} {ch : Challenge}
    (hch : d.challenge r = some ch) (hopen : ch.resolved = false) :
    bondPledge d r = some ⟨ch.challenger, ch.bond⟩ := by
  unfold bondPledge
  rw [hch]
  exact if_pos hopen

theorem bondPledge_resolved {d : Docket} {r : ReportId} {ch : Challenge}
    (hch : d.challenge r = some ch) (hresolved : ch.resolved = true) : bondPledge d r = none := by
  unfold bondPledge
  rw [hch]
  exact if_neg (by simp [hresolved])

theorem bondPledge_unused {d : Docket} {r : ReportId} (hch : d.challenge r = none) :
    bondPledge d r = none := by
  unfold bondPledge
  rw [hch]

theorem bondPledge_eq_some {d : Docket} {r : ReportId} {p : Pledge Address ℤ} :
    bondPledge d r = some p ↔ ∃ ch, d.challenge r = some ch ∧ ch.resolved = false ∧
      p = ⟨ch.challenger, ch.bond⟩ := by
  constructor
  · intro hp
    unfold bondPledge at hp
    split at hp
    · next ch hch =>
      split at hp
      · next hopen =>
        cases hp
        exact ⟨ch, hch, hopen, rfl⟩
      · cases hp
    · cases hp
  · rintro ⟨ch, hch, hopen, rfl⟩
    exact bondPledge_open hch hopen

/-- A move on report `r` writes the pledge of `r`. -/
theorem stakePledge_update {d d' : Docket} {r : ReportId}
    (hreport : ∀ q, q ≠ r → d'.report q = d.report q)
    (hlock : ∀ q, q ≠ r → d'.reportLock q = d.reportLock q) :
    stakePledge d' = Function.update (stakePledge d) r (stakePledge d' r) := by
  ext1 q
  by_cases hq : q = r
  · rw [hq, Function.update_self]
  -- the pledge of another report is read off fields that did not move
  · rw [Function.update_of_ne hq]
    unfold stakePledge
    rw [hreport q hq, hlock q hq]

theorem bondPledge_update {d d' : Docket} {r : ReportId}
    (hchallenge : ∀ q, q ≠ r → d'.challenge q = d.challenge q) :
    bondPledge d' = Function.update (bondPledge d) r (bondPledge d' r) := by
  ext1 q
  by_cases hq : q = r
  · rw [hq, Function.update_self]
  · rw [Function.update_of_ne hq]
    unfold bondPledge
    rw [hchallenge q hq]

/-- Finitely many reports were submitted. -/
theorem LifeCycle.finite_reports {d : Docket} (hL : LifeCycle d) :
    {r | d.report r ≠ none}.Finite := by
  refine (Set.finite_Iic d.count).subset ?_
  -- ids are given out in order, up to the count
  intro r hr
  by_contra hlt
  exact hr (hL.fresh r (not_le.mp hlt))

theorem LifeCycle.finite_stakePledge {d : Docket} (hL : LifeCycle d) :
    {r | stakePledge d r ≠ none}.Finite := by
  refine hL.finite_reports.subset ?_
  intro r hr hnone
  exact hr (stakePledge_unused hnone)

theorem LifeCycle.finite_bondPledge {d : Docket} (hL : LifeCycle d) :
    {r | bondPledge d r ≠ none}.Finite := by
  refine hL.finite_reports.subset ?_
  -- a challenge is of a report
  intro r hr hnone
  exact hr (bondPledge_unused (hL.unused r hnone).1)

/-! ### What can be slashed -/

theorem slashableAmount_nonneg {stake : ℤ} (h : 0 ≤ stake) : 0 ≤ slashableAmount stake := by
  unfold slashableAmount
  dsimp only
  split_ifs
  · exact h
  · exact h
  · exact h
  · omega

theorem slashableAmount_le (stake : ℤ) : slashableAmount stake ≤ stake := by
  unfold slashableAmount
  dsimp only
  split_ifs
  · exact le_refl stake
  · exact le_refl stake
  · exact le_refl stake
  · omega

/-! ### The stakes -/

/-- The locked totals of stake are the sums of the locks of undecided reports. -/
structure StakeLocks (d : Docket) : Prop where
  nonneg : ∀ r, 0 ≤ d.reportLock r
  locked : ∀ v, d.lockedStake v = total (stakePledge d) v

/-- What the contract does not check: that the report an override decides has no lock to give back,
and that the lock of a new report fits the total. -/
def Op.KeepsLocks (s : State) : Op → Prop
  | .submitReport provider _ _ _ _ _ _ _ _ =>
    ∀ p ∈ s.provider provider, s.lockedStake provider + slashableAmount p.stake ≤ maxValue
  | .adminOverrideReport _ r _ _ => s.reportLock r = 0
  | _ => True

instance (s : State) (op : Op) : Decidable (op.KeepsLocks s) := by
  cases op <;> unfold Op.KeepsLocks <;> infer_instance

/-- Every pledge is a lock. -/
theorem StakeLocks.pledge_nonneg {d : Docket} (hS : StakeLocks d) (r : ReportId)
    (p : Pledge Address ℤ) (hp : stakePledge d r = some p) : 0 ≤ p.amount := by
  unfold stakePledge at hp
  split at hp
  · split at hp
    · cases hp
      exact hS.nonneg r
    · cases hp
  · cases hp

theorem Docket.release_lockedStake_congr {d d' : Docket} (hlocks : d'.reportLock = d.reportLock)
    (hlocked : d'.lockedStake = d.lockedStake) (v : Address) (r : ReportId) :
    (d'.release v r).lockedStake = (d.release v r).lockedStake := by
  unfold Docket.release
  rw [hlocks, hlocked]
  split
  · exact hlocked
  · rfl

/-- Decided reports give their lock back: the total falls by exactly the lock. -/
theorem StakeLocks.release {d : Docket} {r : ReportId} {rep : Report} (hL : LifeCycle d)
    (hS : StakeLocks d) (hrep : d.report r = some rep)
    (hopen : rep.status = .pending ∨ rep.status = .challenged) (v : Address) :
    (d.release rep.provider r).lockedStake v =
      total (Function.update (stakePledge d) r none) v := by
  have hpledge := stakePledge_open hrep hopen
  -- the lock is one of the pledges, so the subtraction never saturates
  have hle : d.reportLock r ≤ d.lockedStake rep.provider := by
    rw [hS.locked]
    exact le_total hL.finite_stakePledge hS.pledge_nonneg hpledge
  rw [total_update hL.finite_stakePledge, hpledge, part_none, add_zero, ← hS.locked v]
  unfold Docket.release
  split
  · next hzero =>
    -- no lock: the helper of the contract writes nothing, and nothing is what is pledged
    by_cases hv : rep.provider = v
    · subst hv
      rw [part_self ⟨rep.provider, d.reportLock r⟩, hzero, sub_zero]
    · rw [part_of_ne hv, sub_zero]
  · dsimp only
    by_cases hv : rep.provider = v
    · subst hv
      rw [Function.update_self, if_neg (not_lt.mpr hle),
        part_self ⟨rep.provider, d.reportLock r⟩]
    · rw [Function.update_of_ne (Ne.symm hv), part_of_ne hv, sub_zero]

/-- Rewriting an undecided report into an undecided one keeps its lock. -/
theorem StakeLocks.reopen {d d' : Docket} {r : ReportId} {rep : Report} (hS : StakeLocks d)
    (hrep : d.report r = some rep) (hopen : rep.status = .pending ∨ rep.status = .challenged)
    (rep' : Report)
    (hreport : d'.report = Function.update d.report r (some rep'))
    (hopen' : rep'.status = .pending ∨ rep'.status = .challenged)
    (hprovider : rep'.provider = rep.provider) (hlocks : d'.reportLock = d.reportLock)
    (hlocked : d'.lockedStake = d.lockedStake) : StakeLocks d' := by
  have hsame : stakePledge d' = stakePledge d := by
    -- the pledge of an undecided report depends on its provider and its lock only
    have hself : stakePledge d' r = stakePledge d r := by
      have hrep' : d'.report r = some rep' := by rw [hreport, Function.update_self]
      rw [stakePledge_open hrep' hopen', stakePledge_open hrep hopen, hprovider, hlocks]
    have hupdate : stakePledge d' = Function.update (stakePledge d) r (stakePledge d' r) :=
      stakePledge_update (fun q hq => by rw [hreport, Function.update_of_ne hq])
        (fun q _ => by rw [hlocks])
    rw [hself, Function.update_eq_self] at hupdate
    exact hupdate
  refine ⟨?_, ?_⟩
  · rw [hlocks]
    exact hS.nonneg
  · rw [hlocked, hsame]
    exact hS.locked

/-- Deciding a report, with its lock released or nothing to release, keeps the totals right. -/
theorem StakeLocks.decide {d d' : Docket} {r : ReportId} (hS : StakeLocks d) (rep' : Report)
    (hreport : d'.report = Function.update d.report r (some rep'))
    (hdecided : rep'.status = .verified ∨ rep'.status = .rejected)
    (hlocks : d'.reportLock = Function.update d.reportLock r 0)
    (hlocked : ∀ v, d'.lockedStake v = total (Function.update (stakePledge d) r none) v) :
    StakeLocks d' := by
  have hrep' : d'.report r = some rep' := by rw [hreport, Function.update_self]
  have hpledges : stakePledge d' = Function.update (stakePledge d) r none := by
    rw [← stakePledge_decided hrep' hdecided]
    exact stakePledge_update (fun q hq => by rw [hreport, Function.update_of_ne hq])
      (fun q hq => by rw [hlocks, Function.update_of_ne hq])
  refine ⟨?_, ?_⟩
  · intro q
    rw [hlocks]
    -- the lock of `r` is cleared, the others are as they were
    by_cases hq : q = r
    · rw [hq, Function.update_self]
    · rw [Function.update_of_ne hq]
      exact hS.nonneg q
  · rw [hpledges]
    exact hlocked

/-- **One call** keeps the locked stake in order, if it keeps the locks. -/
theorem StakeLocks.step {now : ℕ} {s : State} {d : Docket} {op : Op}
    (hstakes : ∀ v p, s.provider v = some p → 0 ≤ p.stake) (hL : LifeCycle (docket s))
    (hS : StakeLocks (docket s)) (hkeeps : op.KeepsLocks s) (hstep : Step now s d op) :
    StakeLocks d := by
  cases hstep with
  | frame _ hd =>
    subst hd
    -- nothing of the docket moves
    exact hS
  | @submit provider _ _ _ _ _ _ _ _ p rep hprovider _ hby hstatus _ _ hd =>
    have hamount := slashableAmount_nonneg (hstakes provider p hprovider)
    have hunused : (docket s).report (s.reportCount + 1) = none :=
      hL.fresh _ (Nat.lt_succ_self s.reportCount)
    have hreport : d.report = Function.update s.report (s.reportCount + 1) (some rep) := by
      rw [hd]
      rfl
    have hlocks : d.reportLock =
        Function.update s.reportLock (s.reportCount + 1) (slashableAmount p.stake) := by
      rw [hd]
      rfl
    have hrep : d.report (s.reportCount + 1) = some rep := by
      rw [hreport, Function.update_self]
    -- the new report's lock is a new pledge
    have hpledge : stakePledge d (s.reportCount + 1) =
        some ⟨provider, slashableAmount p.stake⟩ := by
      rw [stakePledge_open hrep (Or.inl hstatus), hby, hlocks, Function.update_self]
    have hpledges : stakePledge d = Function.update (stakePledge (docket s)) (s.reportCount + 1)
        (some ⟨provider, slashableAmount p.stake⟩) := by
      rw [← hpledge]
      exact stakePledge_update (fun q hq => by rw [hreport, Function.update_of_ne hq]; rfl)
        (fun q hq => by rw [hlocks, Function.update_of_ne hq]; rfl)
    refine ⟨?_, ?_⟩
    · intro q
      rw [hlocks]
      by_cases hq : q = s.reportCount + 1
      · rw [hq, Function.update_self]
        exact hamount
      · rw [Function.update_of_ne hq]
        exact hS.nonneg q
    · intro v
      rw [hpledges, total_update hL.finite_stakePledge, stakePledge_unused hunused, part_none,
        sub_zero, ← hS.locked v]
      have hlocked : d.lockedStake = Function.update s.lockedStake provider
          (wrap (s.lockedStake provider + slashableAmount p.stake)) := by
        rw [hd]
        rfl
      rw [hlocked]
      by_cases hv : provider = v
      · subst hv
        -- the addition wraps, unless the total fits
        have hle := hkeeps p hprovider
        have hnonneg : 0 ≤ s.lockedStake provider := by
          rw [show s.lockedStake provider = _ from hS.locked provider]
          exact total_nonneg hS.pledge_nonneg provider
        rw [Function.update_self, part_self ⟨provider, slashableAmount p.stake⟩,
          wrap_of_inRange (.of_nonneg (add_nonneg hnonneg hamount) hle)]
        rfl
      · rw [Function.update_of_ne (Ne.symm hv), part_of_ne hv, add_zero]
        rfl
  | @sign _ _ _ rep _ _ _ _ _ hd =>
    -- a signature changes neither status nor lock
    subst hd
    refine ⟨?_, ?_⟩
    · rw [Docket.sign_reportLock]
      exact hS.nonneg
    · intro v
      rw [Docket.sign_lockedStake, hS.locked v]
      unfold stakePledge
      simp only [Docket.sign_report, Docket.sign_reportLock]
  | @verify caller r _ rep _ hrep hpending _ _ _ hd =>
    -- decided with the lock given back
    have hreleased := hS.release hL hrep (Or.inl hpending)
    refine hS.decide { rep with status := .verified, verifiedAt := now } (r := r) ?_
      (Or.inl rfl) ?_ ?_
    · rw [hd, Docket.release_report]
      simp [Docket.setReport]
    · rw [hd, Docket.release_reportLock]
      simp [Docket.setReport]
    · intro v
      rw [← hreleased v, hd, Docket.release_lockedStake_congr (d := docket s)]
      · exact Docket.sign_reportLock _ _ _
      · exact Docket.sign_lockedStake _ _ _
  | @override _ r status _ rep _ hstatus hrep hpending hd =>
    -- nothing is locked, so nothing has to be released
    have hzero : (docket s).reportLock r = 0 := hkeeps
    have hreleased := hS.release hL hrep (Or.inl hpending)
    refine hS.decide { rep with status, verifiedAt := now } (r := r) ?_ hstatus ?_ ?_
    · rw [hd]
      rfl
    · rw [hd, ← hzero, Function.update_eq_self]
      rfl
    · intro v
      rw [← hreleased v, hd]
      unfold Docket.release
      rw [if_pos hzero]
      rfl
  | @challenge challenger r _ _ rep _ hrep hpending _ hd =>
    -- undecided before and after
    refine hS.reopen hrep (Or.inl hpending) { rep with status := .challenged } ?_
      (Or.inr rfl) rfl ?_ ?_
    · rw [hd]
      rfl
    · rw [hd]
      rfl
    · rw [hd]
      rfl
  | @resolve _ r rep ch resolution _ hch hopen hrep hresolution hd =>
    -- an open challenge is one of a challenged report
    have hchallenged := (hL.challenged r rep hrep).mpr ⟨ch, hch, hopen⟩
    have hreleased := hS.release hL hrep (Or.inr hchallenged)
    refine hS.decide (resolvedReport now rep resolution) (r := r) ?_ hresolution ?_ ?_
    · rw [hd, Docket.resolve_report]
    · rw [hd, Docket.resolve_reportLock]
    · intro v
      rw [← hreleased v, hd]
      unfold Docket.resolve
      rw [Docket.settleBond_lockedStake]
      refine congrFun (Docket.release_lockedStake_congr ?_ ?_ _ _) v
      · rfl
      · rfl
  | @expire r rep ch _ _ hrep hchallenged hd =>
    -- the report is pending again, with its lock
    refine hS.reopen hrep (Or.inr hchallenged) { rep with status := .pending } ?_
      (Or.inl rfl) rfl ?_ ?_
    · rw [hd, Docket.settleBond_report]
      rfl
    · rw [hd, Docket.settleBond_reportLock]
      rfl
    · rw [hd, Docket.settleBond_lockedStake]
      rfl

theorem StakeLocks.initial (admin : Address) : StakeLocks (docket (construct admin)) where
  nonneg _ := le_refl 0
  locked v := by
    rw [total_eq_zero]
    · rfl
    · intro r p hp
      cases hp

/-! ### The bonds -/

/-- The locked totals of bonds are the sums of the bonds of open challenges. -/
structure BondLocks (d : Docket) : Prop where
  bonds : ∀ r ch, d.challenge r = some ch → ch.bond = challengeBond
  locked : ∀ a, d.bondLock a = total (bondPledge d) a

theorem BondLocks.pledge_nonneg {d : Docket} (hB : BondLocks d) (r : ReportId)
    (p : Pledge Address ℤ) (hp : bondPledge d r = some p) : 0 ≤ p.amount := by
  obtain ⟨ch, hch, -, rfl⟩ := bondPledge_eq_some.mp hp
  show 0 ≤ ch.bond
  rw [hB.bonds r ch hch]
  decide

/-- The bond of an open challenge is among what its challenger has locked. -/
theorem BondLocks.bond_le {d : Docket} {r : ReportId} {ch : Challenge} (hL : LifeCycle d)
    (hB : BondLocks d) (hch : d.challenge r = some ch) (hopen : ch.resolved = false) :
    ch.bond ≤ d.bondLock ch.challenger := by
  rw [hB.locked]
  exact le_total hL.finite_bondPledge hB.pledge_nonneg (bondPledge_open hch hopen)

/-- Closing a challenge gives its bond back, or burns it: the total falls by exactly the bond. -/
theorem BondLocks.settle {d : Docket} {r : ReportId} {ch : Challenge} (hL : LifeCycle d)
    (hB : BondLocks d) (hch : d.challenge r = some ch) (hopen : ch.resolved = false)
    (a : Address) :
    (d.settleBond ch.challenger ch.bond).bondLock a =
      total (Function.update (bondPledge d) r none) a := by
  -- the bond is among what is locked, so `min` takes all of it
  have hle := hB.bond_le hL hch hopen
  have hpos : ¬ ch.bond ≤ 0 := by
    rw [hB.bonds r ch hch]
    decide
  rw [total_update hL.finite_bondPledge, bondPledge_open hch hopen, part_none, add_zero,
    ← hB.locked a]
  unfold Docket.settleBond
  rw [if_neg hpos]
  dsimp only
  by_cases ha : ch.challenger = a
  · subst ha
    rw [Function.update_self, min_eq_left hle, part_self ⟨ch.challenger, ch.bond⟩]
  · rw [Function.update_of_ne (Ne.symm ha), part_of_ne ha, sub_zero]

/-- A move that leaves challenges and bonds alone. -/
theorem BondLocks.congr {d d' : Docket} (hB : BondLocks d) (hchallenge : d'.challenge = d.challenge)
    (hlocked : d'.bondLock = d.bondLock) : BondLocks d' := by
  have hpledges : bondPledge d' = bondPledge d := by
    ext1 r
    unfold bondPledge
    rw [hchallenge]
  refine ⟨?_, ?_⟩
  · rw [hchallenge]
    exact hB.bonds
  · rw [hlocked, hpledges]
    exact hB.locked

/-- A move that closes the challenge of one report. -/
theorem BondLocks.close {d d' : Docket} {r : ReportId} {ch : Challenge} (hL : LifeCycle d)
    (hB : BondLocks d) (hch : d.challenge r = some ch) (hopen : ch.resolved = false)
    (ch' : Challenge)
    (hchallenge : d'.challenge = Function.update d.challenge r (some ch'))
    (hresolved : ch'.resolved = true) (hbond : ch'.bond = ch.bond)
    (hlocked : d'.bondLock = (d.settleBond ch.challenger ch.bond).bondLock) : BondLocks d' := by
  have hch' : d'.challenge r = some ch' := by rw [hchallenge, Function.update_self]
  have hpledges : bondPledge d' = Function.update (bondPledge d) r none := by
    rw [← bondPledge_resolved hch' hresolved]
    exact bondPledge_update fun q hq => by rw [hchallenge, Function.update_of_ne hq]
  refine ⟨?_, ?_⟩
  · intro q c hc
    rw [hchallenge] at hc
    by_cases hq : q = r
    · rw [hq, Function.update_self] at hc
      -- resolving keeps the bond that the challenge was opened with
      cases hc
      rw [hbond]
      exact hB.bonds r ch hch
    · rw [Function.update_of_ne hq] at hc
      exact hB.bonds q c hc
  · intro a
    rw [hlocked, hpledges]
    exact hB.settle hL hch hopen a

theorem Docket.settleBond_bondLock_congr {d d' : Docket} (hlocked : d'.bondLock = d.bondLock)
    (a : Address) (bond : ℤ) :
    (d'.settleBond a bond).bondLock = (d.settleBond a bond).bondLock := by
  unfold Docket.settleBond
  rw [hlocked]
  split
  · exact hlocked
  · rfl

/-- **One call** keeps the locked bonds in order. A bond is locked by opening a challenge, and freed
or burned by closing it. -/
theorem BondLocks.step {now : ℕ} {s : State} {d : Docket} {op : Op} (hL : LifeCycle (docket s))
    (hB : BondLocks (docket s)) (hstep : Step now s d op) : BondLocks d := by
  cases hstep with
  | frame _ hd =>
    subst hd
    exact hB
  | submit _ _ _ _ _ _ hd =>
    subst hd
    -- a new report has no challenge
    exact hB.congr rfl rfl
  | sign _ _ _ _ _ hd =>
    subst hd
    exact hB.congr (Docket.sign_challenge _ _ _) (Docket.sign_bondLock _ _ _)
  | verify _ _ _ _ _ _ hd =>
    subst hd
    refine hB.congr ?_ ?_
    · rw [Docket.release_challenge]
      exact Docket.sign_challenge _ _ _
    · rw [Docket.release_bondLock]
      exact Docket.sign_bondLock _ _ _
  | override _ _ _ _ hd =>
    subst hd
    exact hB.congr rfl rfl
  | @challenge challenger r hash _ rep hnew _ _ _ hd =>
    -- the new challenge's bond is a new pledge
    have hchallenge : d.challenge = Function.update s.challenge r
        (some ⟨r, challenger, hash, now, false, 0, challengeBond⟩) := by
      rw [hd]
      rfl
    have hch : d.challenge r = some ⟨r, challenger, hash, now, false, 0, challengeBond⟩ := by
      rw [hchallenge, Function.update_self]
    have hpledges : bondPledge d =
        Function.update (bondPledge (docket s)) r (some ⟨challenger, challengeBond⟩) := by
      rw [← bondPledge_open hch rfl]
      exact bondPledge_update fun q hq => by rw [hchallenge, Function.update_of_ne hq]; rfl
    refine ⟨?_, ?_⟩
    · intro q c hc
      rw [hchallenge] at hc
      by_cases hq : q = r
      · rw [hq, Function.update_self] at hc
        cases hc
        rfl
      · rw [Function.update_of_ne hq] at hc
        exact hB.bonds q c hc
    · intro a
      rw [hpledges, total_update hL.finite_bondPledge, bondPledge_unused hnew, part_none, sub_zero,
        ← hB.locked a]
      have hlocked : d.bondLock = Function.update s.challengeBondLock challenger
          (s.challengeBondLock challenger + challengeBond) := by
        rw [hd]
        rfl
      rw [hlocked]
      by_cases ha : challenger = a
      · subst ha
        rw [Function.update_self, part_self ⟨challenger, challengeBond⟩]
        rfl
      · rw [Function.update_of_ne (Ne.symm ha), part_of_ne ha, add_zero]
        rfl
  | @resolve _ r rep ch resolution _ hch hopen _ _ hd =>
    -- the lock of the report is released first, and touches no bond
    refine hB.close hL hch hopen (resolvedChallenge ch resolution) ?_ rfl rfl ?_
    · rw [hd, Docket.resolve_challenge]
    · rw [hd]
      unfold Docket.resolve
      refine Docket.settleBond_bondLock_congr ?_ _ _
      rw [Docket.release_bondLock]
      rfl
  | @expire r rep ch hch hopen _ _ hd =>
    -- an expiry returns the bond; for the locked total it is a decision like another
    refine hB.close hL hch hopen { ch with resolved := true } ?_ rfl rfl ?_
    · rw [hd, Docket.settleBond_challenge]
      rfl
    · rw [hd]
      refine Docket.settleBond_bondLock_congr ?_ _ _
      rfl

theorem BondLocks.initial (admin : Address) : BondLocks (docket (construct admin)) where
  bonds _ _ h := by cases h
  locked a := by
    rw [total_eq_zero]
    · rfl
    · intro r p hp
      cases hp

end OracleConsumer
end NbsBond
