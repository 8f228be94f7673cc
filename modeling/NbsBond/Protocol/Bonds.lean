import NbsBond.OracleConsumer.Bonds
import NbsBond.Protocol.Collateral

/-!
# The ledger of challenge bonds

Along a run, what an address has deposited is accounted for by its free bonds, its locked bonds, its
withdrawals and the bonds burned with its challenges against upheld reports
(`challenge_bonds_accounted`). The refund of a bond is a plain addition; it is exact because the
free bonds and the refunded one are both among the deposits.
-/

namespace NbsBond
namespace Protocol

open Soroban OracleConsumer Int128 Pledges

/-- What a call pays in for address `a`. -/
def Op.paidIn (a : Address) : Op → ℤ
  | .oracle op => op.paidIn a
  | _ => 0

/-- What a call pays out to address `a`. -/
def Op.paidOut (a : Address) : Op → ℤ
  | .oracle op => op.paidOut a
  | _ => 0

/-- All that address `a` has deposited along a history. -/
def deposited (a : Address) (h : List Call) : ℤ := (h.map fun c => c.op.paidIn a).sum

/-- All that address `a` has withdrawn along a history. -/
def withdrawn (a : Address) (h : List Call) : ℤ := (h.map fun c => c.op.paidOut a).sum

/-- The reports that address `a` challenges and nobody has decided. -/
def openChallenges (s : OracleConsumer.State) (a : Address) : Set ReportId :=
  {r | ∃ ch, s.challenge r = some ch ∧ ch.challenger = a ∧ ch.resolved = false}

/-- The reports that were verified against a challenge of address `a`. -/
def lostChallenges (s : OracleConsumer.State) (a : Address) : Set ReportId :=
  {r | ∃ ch, s.challenge r = some ch ∧ ch.challenger = a ∧ ch.resolved = true ∧
    ch.resolution = discriminant .verified}

/-- The bonds of address `a` after the history `h`. -/
structure BondsAccounted (h : List Call) (s : OracleConsumer.State) (a : Address) : Prop where
  deposits : deposited a h = s.challengeBondBalance a + s.challengeBondLock a + withdrawn a h +
    challengeBond * (lostChallenges s a).ncard
  locked : s.challengeBondLock a = challengeBond * (openChallenges s a).ncard
  free_nonneg : 0 ≤ s.challengeBondBalance a
  locked_nonneg : 0 ≤ s.challengeBondLock a
  /-- Settling a challenge of `a` finds the whole bond locked. -/
  unclamped : ∀ r ch, s.challenge r = some ch → ch.resolved = false → ch.challenger = a →
    min ch.bond (s.challengeBondLock a) = ch.bond

/-! ### Counting challenges -/

/-- Pledges of whole bonds, by the number of challenges that pledge one. -/
theorem total_bonds {s : OracleConsumer.State} (hB : BondLocks (docket s))
    {f : ReportId → Option (Pledge Address ℤ)} (hfinite : {r | f r ≠ none}.Finite)
    {P : Challenge → Prop}
    (hf : ∀ {r p}, f r = some p ↔
      ∃ ch, s.challenge r = some ch ∧ P ch ∧ p = ⟨ch.challenger, ch.bond⟩) (a : Address) :
    total f a = challengeBond *
      {r | ∃ ch, s.challenge r = some ch ∧ ch.challenger = a ∧ P ch}.ncard := by
  -- every pledge is one bond, so the total is their number times the bond
  have hamount : ∀ r p, f r = some p → p.amount = challengeBond := by
    intro r p hp
    obtain ⟨ch, hch, -, rfl⟩ := hf.mp hp
    exact hB.bonds r ch hch
  have hset : {r | ∃ p, f r = some p ∧ p.owner = a} =
      {r | ∃ ch, s.challenge r = some ch ∧ ch.challenger = a ∧ P ch} := by
    ext r
    constructor
    · rintro ⟨p, hp, howner⟩
      obtain ⟨ch, hch, hpledged, rfl⟩ := hf.mp hp
      exact ⟨ch, hch, howner, hpledged⟩
    · rintro ⟨ch, hch, howner, hpledged⟩
      exact ⟨_, hf.mpr ⟨ch, hch, hpledged, rfl⟩, howner⟩
  rw [total_const hfinite hamount, hset, nsmul_eq_mul, mul_comm]

/-- The locked bonds, by number. -/
theorem total_bondPledge {s : OracleConsumer.State} (hL : LifeCycle (docket s))
    (hB : BondLocks (docket s)) (a : Address) :
    total (bondPledge (docket s)) a = challengeBond * (openChallenges s a).ncard :=
  total_bonds hB hL.finite_bondPledge bondPledge_eq_some a

/-- The burned bonds, by number. -/
theorem total_burnedPledge {s : OracleConsumer.State} (hL : LifeCycle (docket s))
    (hB : BondLocks (docket s)) (a : Address) :
    total (burnedPledge (docket s)) a = challengeBond * (lostChallenges s a).ncard :=
  total_bonds hB hL.finite_burnedPledge burnedPledge_eq_some a

/-! ### Runs -/

/-- An open challenge has no resolution yet, in every reached state. -/
theorem unmarked_of_run {h : List Call} {w : World} (hrun : Run h w) : Unmarked w.oracle :=
  oracle_invariant (P := Unmarked) hrun (fun _ _ _ hch => nomatch hch)
    fun _ hU _ hmove => hU.step hmove.challengeStep

/-- A committed call pays no negative amount. -/
theorem paid_nonneg {now : ℕ} {w w' : World} {op : Op} {ret : Ret} (hstep : Step now w op w' ret)
    (a : Address) : 0 ≤ op.paidIn a ∧ 0 ≤ op.paidOut a := by
  cases hstep with
  | @oracle op s regs _ h =>
    cases move_of_exec h with
    | @depositBond caller amount _ hpos _ _ =>
      -- both payments were checked to be positive
      refine ⟨?_, le_refl 0⟩
      show 0 ≤ if caller = a then amount else 0
      split
      · exact hpos.le
      · exact le_refl 0
    | @withdrawBond caller amount _ hpos _ _ =>
      refine ⟨le_refl 0, ?_⟩
      show 0 ≤ if caller = a then amount else 0
      split
      · exact hpos.le
      · exact le_refl 0
    | idle hop _ _ _ _ =>
      -- the calls that may idle move no money
      have hnone : Op.paidIn a (.oracle op) = 0 ∧ Op.paidOut a (.oracle op) = 0 := by
        cases op <;> first | exact ⟨rfl, rfl⟩ | cases hop
      rw [hnone.1, hnone.2]
      exact ⟨le_refl 0, le_refl 0⟩
    | _ => exact ⟨le_refl 0, le_refl 0⟩
  | issuer _ => exact ⟨le_refl 0, le_refl 0⟩
  | registry _ _ _ => exact ⟨le_refl 0, le_refl 0⟩
  | engine _ => exact ⟨le_refl 0, le_refl 0⟩
  | retirement _ => exact ⟨le_refl 0, le_refl 0⟩

/-- What the deposits of an address cover leaves room for each of its refunds. -/
theorem roomFor_of_worth {s : OracleConsumer.State} {a : Address} (hL : LifeCycle (docket s))
    (hB : BondLocks (docket s)) (hfree : 0 ≤ s.challengeBondBalance a)
    (hworth : worth s a ≤ maxValue) : RoomFor s a := by
  rintro r ch hch hopen rfl
  -- the refund is among the locked bonds, and no other part of the worth is negative
  have hbond : ch.bond ≤ total (bondPledge (docket s)) ch.challenger := by
    rw [← hB.locked]
    exact hB.bond_le hL hch hopen
  have hburned : 0 ≤ total (burnedPledge (docket s)) ch.challenger := by
    rw [total_burnedPledge hL hB]
    exact mul_nonneg (by decide) (Int.natCast_nonneg _)
  have hpos : 0 ≤ ch.bond := by
    rw [hB.bonds r ch hch]
    decide
  unfold worth at hworth
  refine InRange.of_nonneg ?_ ?_
  · omega
  · omega

/-- **Conservation.** What an address has free, locked or burned is what it has deposited and not
withdrawn. -/
theorem worth_of_run {h : List Call} {w : World} (hrun : Run h w) {a : Address}
    (hsum : deposited a h ≤ maxValue) :
    0 ≤ w.oracle.challengeBondBalance a ∧ 0 ≤ withdrawn a h ∧
      deposited a h = worth w.oracle a + withdrawn a h := by
  refine hrun.induction (P := fun h w => deposited a h ≤ maxValue →
    0 ≤ w.oracle.challengeBondBalance a ∧ 0 ≤ withdrawn a h ∧
      deposited a h = worth w.oracle a + withdrawn a h) ?_ ?_ hsum
  · intro w hinit _
    obtain ⟨admin, hadmin⟩ := hinit.oracle
    rw [hadmin]
    refine ⟨le_refl 0, le_refl 0, ?_⟩
    -- nothing is pledged to begin with
    have hnone : ∀ f : ReportId → Option (Pledge Address ℤ), (∀ r, f r = none) → total f a = 0 :=
      fun f hf => total_eq_zero fun r p hp => absurd ((hf r).symm.trans hp) nofun
    unfold worth
    rw [hnone (bondPledge _) fun r => bondPledge_unused rfl,
      hnone (burnedPledge _) fun r => burnedPledge_unused rfl]
    rfl
  · intro h w t op ret w' hrun _ hexec ih hsum
    have hstep := step_of_exec hexec
    obtain ⟨hin, hout⟩ := paid_nonneg hstep a
    have hdeposited : deposited a (⟨t, w, op, ret, w'⟩ :: h) = op.paidIn a + deposited a h :=
      List.sum_cons
    have hwithdrawn : withdrawn a (⟨t, w, op, ret, w'⟩ :: h) = op.paidOut a + withdrawn a h :=
      List.sum_cons
    -- the deposits only grow, so they were within the range before
    obtain ⟨hfree, hpaid, hledger⟩ := ih (by omega)
    rw [hdeposited, hwithdrawn]
    obtain ⟨op', rfl, hmove⟩ | ⟨hne, hsame⟩ := hstep.move
    · have hL := lifeCycle_of_run hrun
      have hB := bondLocks_of_run hrun
      -- the worth is at most what was deposited, so a refund of it fits
      have hroom : RoomFor w.oracle a := roomFor_of_worth hL hB hfree (by omega)
      obtain ⟨hworth, hnonneg⟩ := hmove.worth hL hB (unmarked_of_run hrun) hroom
      change _ = _ + Op.paidIn a (.oracle op') - Op.paidOut a (.oracle op') at hworth
      refine ⟨hnonneg hfree, ?_, ?_⟩
      · omega
      · omega
    -- the other contracts move no bonds
    · have hnone : op.paidIn a = 0 ∧ op.paidOut a = 0 := by
        cases op with
        | oracle op => exact absurd rfl (hne op)
        | _ => exact ⟨rfl, rfl⟩
      rw [hnone.1, hnone.2, zero_add, zero_add, hsame]
      exact ⟨hfree, hpaid, hledger⟩

/-- **Challenge bonds are accounted for**, of every address whose deposits fit an `i128`
together. A deposit is free, locked for an open challenge, withdrawn, or burned with a challenge
that was lost. -/
theorem challenge_bonds_accounted {h : List Call} {w : World} (hrun : Run h w) {a : Address}
    (hsum : deposited a h ≤ maxValue) : BondsAccounted h w.oracle a := by
  have hL := lifeCycle_of_run hrun
  have hB := bondLocks_of_run hrun
  obtain ⟨hfree, -, hledger⟩ := worth_of_run hrun hsum
  have hlocked : w.oracle.challengeBondLock a = total (bondPledge (docket w.oracle)) a :=
    hB.locked a
  refine ⟨?_, ?_, hfree, ?_, ?_⟩
  · rw [hledger, hlocked, ← total_burnedPledge hL hB]
    -- the four parts of the deposits
    unfold worth
    ring
  · rw [hlocked, total_bondPledge hL hB]
  · rw [hlocked]
    exact total_nonneg hB.pledge_nonneg a
  · rintro r ch hch hopen rfl
    exact min_eq_left (hB.bond_le hL hch hopen)

/-- An address that has deposited three bonds holds one challenge, has lost another one, and
withdraws part of the rest. -/
theorem challenge_bonds_accounted_two_challenges : ∃ h w, Run h w ∧
    deposited ⟨3⟩ h = 3000000 ∧ withdrawn ⟨3⟩ h = 400000 ∧
    w.oracle.challengeBondBalance ⟨3⟩ = 600000 ∧ w.oracle.challengeBondLock ⟨3⟩ = 1000000 ∧
    BondsAccounted h w.oracle ⟨3⟩ := by
  let ops : List (ℕ × Op) := stakedReports.append
    [(2, .oracle (.depositChallengeBond ⟨3⟩ 3000000 0)),
      (2, .oracle (.challengeReport ⟨3⟩ 1 9 1)),
      (2, .oracle (.challengeReport ⟨3⟩ 2 9 2)),
      (3, .oracle (.resolveChallenge ⟨0⟩ 1 .verified 3)),
      (4, .oracle (.withdrawChallengeBond ⟨3⟩ 400000 3))]
  have hplay : (machine.play [] (deploy ⟨0⟩ ⟨100⟩ ⟨101⟩ ⟨102⟩) ops).map
      (fun p => (deposited ⟨3⟩ p.1, withdrawn ⟨3⟩ p.1, p.2.oracle.challengeBondBalance ⟨3⟩,
        p.2.oracle.challengeBondLock ⟨3⟩)) = some (3000000, 400000, 600000, 1000000) := by decide
  obtain ⟨h, w, hrun, hview⟩ := Run.of_play (Init.deploy ⟨0⟩ ⟨100⟩ ⟨101⟩ ⟨102⟩) hplay
  simp only [Prod.mk.injEq] at hview
  obtain ⟨hdeposited, hwithdrawn, hfree, hlocked⟩ := hview
  have hrange : deposited ⟨3⟩ h ≤ maxValue := by
    rw [hdeposited]
    decide
  exact ⟨h, w, hrun, hdeposited, hwithdrawn, hfree, hlocked, challenge_bonds_accounted hrun hrange⟩

end Protocol
end NbsBond
