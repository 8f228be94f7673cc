import NbsBond.OracleConsumer.Stakes
import NbsBond.Protocol.Bonds

/-!
# The ledger of stakes

Along a run, the stake of a provider is what it has added, less what it has withdrawn and what was
taken in penalties; and the records of penalties name its rejected reports. `get_provider_stats`
reports all this, but adds the penalties up by an unchecked addition: `stake_ledger_iff` says that
its total is right exactly as long as it fits an `i128`.
-/

namespace NbsBond
namespace Protocol

open Soroban OracleConsumer Int128

/-- What a call adds to the stake of `v`. -/
def Op.staked (v : Address) : Op → ℤ
  | .oracle op => op.staked v
  | _ => 0

/-- What a call withdraws from the stake of `v`. -/
def Op.unstaked (v : Address) : Op → ℤ
  | .oracle op => op.unstaked v
  | _ => 0

/-- All that `v` has added to its stake along a history. -/
def staked (v : Address) (h : List Call) : ℤ := (h.map fun c => c.op.staked v).sum

/-- All that `v` has withdrawn from its stake along a history. -/
def unstaked (v : Address) (h : List Call) : ℤ := (h.map fun c => c.op.unstaked v).sum

/-- The reports of `v` that were rejected on a challenge. -/
def rejectedReports (s : OracleConsumer.State) (v : Address) : Set ReportId :=
  {r | MarkedRejected s r ∧ ∃ rep, s.report r = some rep ∧ rep.provider = v}

/-- In call `c` the challenge of report `r` was resolved as rejected. A challenge is resolved once,
so a report is rejected in this way at most once. -/
structure Rejects (c : Call) (r : ReportId) : Prop where
  before : ¬ MarkedRejected c.pre.oracle r
  after : MarkedRejected c.post.oracle r

/-- The stake and the penalties of provider `v`, whose entry is `p`, after the history `h`. -/
structure StakesAccounted (h : List Call) (s : OracleConsumer.State) (v : Address)
    (p : OracleProvider) : Prop where
  stake : p.stake = staked v h - unstaked v h - penalties s v
  nonneg : 0 ≤ p.stake
  slashes : (s.slashHistory v).length = (rejectedReports s v).ncard
  once : ∀ r ∈ rejectedReports s v, ((s.slashHistory v).map SlashRecord.reportId).count r = 1
  /-- A record states the stake right after the slash. -/
  remaining : ∀ c ∈ h, ∀ r ∈ rejectedReports s v, Rejects c r → ∀ e ∈ s.slashHistory v,
    e.reportId = r → e.remainingStake = stakeOf c.post.oracle v
  /-- Slashed to nothing, inactive ever after. -/
  ruined : ∀ c ∈ h, ∀ r ∈ rejectedReports s v, Rejects c r → stakeOf c.post.oracle v = 0 →
    p.active = false

/-! ### Runs -/

/-- The records of penalties of every reached state are in order. -/
theorem slashed_of_run {h : List Call} {w : World} (hrun : Run h w) : Slashed w.oracle := by
  -- that open challenges have no resolution is carried along
  have hboth : Unmarked w.oracle ∧ Slashed w.oracle :=
    oracle_invariant (P := fun s => Unmarked s ∧ Slashed s) hrun
      (fun admin => ⟨fun _ _ hch => (nomatch hch), Slashed.initial admin⟩)
      fun hL hP hstep hmove => ⟨hP.1.step hmove.challengeStep, hP.2.step hP.1 hL hstep hmove⟩
  exact hboth.2

/-- **Conservation.** Stake and penalties make up what was added and not withdrawn. -/
theorem stake_of_run {h : List Call} {w : World} (hrun : Run h w) (v : Address) :
    stakeOf w.oracle v + penalties w.oracle v = staked v h - unstaked v h := by
  refine hrun.induction (P := fun h w => stakeOf w.oracle v + penalties w.oracle v =
    staked v h - unstaked v h) ?_ ?_
  · intro w hinit
    obtain ⟨admin, hadmin⟩ := hinit.oracle
    rw [hadmin]
    rfl
  · intro h w t op ret w' _ _ hexec ih
    have hstaked : staked v (⟨t, w, op, ret, w'⟩ :: h) = op.staked v + staked v h := List.sum_cons
    have hunstaked : unstaked v (⟨t, w, op, ret, w'⟩ :: h) = op.unstaked v + unstaked v h :=
      List.sum_cons
    rw [hstaked, hunstaked]
    obtain ⟨op', rfl, hmove⟩ | ⟨hne, hsame⟩ := (step_of_exec hexec).move
    · have hstake := hmove.stake (v := v)
      change _ = _ + Op.staked v (.oracle op') - Op.unstaked v (.oracle op') at hstake
      omega
    -- the other contracts move no stake
    · have hnone : op.staked v = 0 ∧ op.unstaked v = 0 := by
        cases op with
        | oracle op => exact absurd rfl (hne op)
        | _ => exact ⟨rfl, rfl⟩
      rw [hnone.1, hnone.2, zero_add, zero_add, hsame]
      exact ih

/-- A committed call that rejects a report takes its penalty. -/
theorem Rejects.slashes {h : List Call} {w : World} {c : Call} {r : ReportId} (hrun : Run h w)
    (hc : c ∈ h) (hrejects : Rejects c r) :
    ∃ rep p, Slashes c.time c.pre.oracle c.post.oracle r rep p := by
  obtain ⟨h', hpast, hexec⟩ := hrun.of_mem hc
  obtain ⟨op, -, hmove⟩ | ⟨-, hsame⟩ := (step_of_exec hexec).move
  · obtain ⟨-, hkept⟩ | ⟨q, rep, p, hslash⟩ := hmove.slash (unmarked_of_run hpast)
    -- without a penalty no report is marked
    · exact absurd ((hkept r).mp hrejects.after) hrejects.before
    · -- the call marks one report only
      have hq : r = q := ((hslash.marked r).mp hrejects.after).resolve_left hrejects.before
      exact ⟨rep, p, hq ▸ hslash⟩
  · have hafter := hrejects.after
    rw [hsame] at hafter
    exact absurd hafter hrejects.before

/-- Records of penalties are kept. -/
theorem record_kept {h : List Call} {w : World} {c : Call} {v : Address} {e : SlashRecord}
    (hrun : Run h w) (hc : c ∈ h) (he : e ∈ c.post.oracle.slashHistory v) :
    e ∈ w.oracle.slashHistory v := by
  refine hrun.stable (P := fun w => e ∈ w.oracle.slashHistory v) ?_ hc he
  intro h w t op ret w' hpast he hexec
  obtain ⟨op, -, hmove⟩ | ⟨-, hsame⟩ := (step_of_exec hexec).move
  · obtain ⟨hhistory, -⟩ | ⟨q, rep, p, hslash⟩ := hmove.slash (unmarked_of_run hpast)
    · rw [hhistory]
      exact he
    · -- a penalty adds a record behind the others
      obtain ⟨-, hhistory⟩ | ⟨-, hhistory⟩ := hslash.history_cases v
      · rw [hhistory]
        exact List.mem_append_left _ he
      · rw [hhistory]
        exact he
  · rw [hsame]
    exact he

/-- The record of a rejection of `v`'s report is kept, and it is the only one that names the
report. -/
theorem Rejects.record {h : List Call} {w : World} {c : Call} {r : ReportId} {v : Address}
    (hrun : Run h w) (hc : c ∈ h) (hr : r ∈ rejectedReports w.oracle v) (hrejects : Rejects c r) :
    ∃ e ∈ w.oracle.slashHistory v, e.reportId = r ∧
      e.remainingStake = stakeOf c.post.oracle v ∧
      ∀ e' ∈ w.oracle.slashHistory v, e'.reportId = r → e' = e := by
  have hS := slashed_of_run hrun
  obtain ⟨rep, p, hslash⟩ := hrejects.slashes hrun hc
  let e : SlashRecord := slashRecord c.time p r
  have hnew : e ∈ c.post.oracle.slashHistory rep.provider := by
    rw [hslash.history, Function.update_self]
    exact List.mem_append_right _ (List.mem_singleton.mpr rfl)
  have hkept : e ∈ w.oracle.slashHistory rep.provider := record_kept hrun hc hnew
  -- the record names the report, so it is among those of the report's provider
  have hprovider : rep.provider = v := by
    obtain ⟨-, rep', hrep', hby⟩ := (hS.named rep.provider r).mp
      (List.mem_map.mpr ⟨e, hkept, rfl⟩)
    obtain ⟨-, rep'', hrep'', rfl⟩ := hr
    rw [hrep'] at hrep''
    cases hrep''
    exact hby.symm
  subst hprovider
  refine ⟨e, hkept, rfl, ?_, fun e' he' hname => ?_⟩
  -- the record states what the slash wrote, and no other record names the report
  · rw [stakeOf_write hslash.provider, if_pos rfl]
    rfl
  · exact List.inj_on_of_nodup_map (hS.distinct _) he' hkept hname

/-- **Stakes are accounted for.** Its parts are the ledger of stakes, the records of penalties, and
the statistics computed from them. -/
theorem stakes_accounted {h : List Call} {w : World} (hrun : Run h w) {v : Address}
    {p : OracleProvider} (hp : w.oracle.provider v = some p) : StakesAccounted h w.oracle v p := by
  have hS := slashed_of_run hrun
  have hstake := stake_of_run hrun v
  rw [stakeOf_of_provider hp] at hstake
  have hnames : {r | r ∈ (w.oracle.slashHistory v).map SlashRecord.reportId} =
      rejectedReports w.oracle v := Set.ext fun r => hS.named v r
  refine ⟨by omega, (roster_of_run hrun).stakes v p hp, ?_, ?_, ?_, ?_⟩
  -- one record for each rejected report
  · rw [← hnames, ← List.length_map (f := SlashRecord.reportId),
      ← List.toFinset_card_of_nodup (hS.distinct v), ← Set.ncard_coe_finset, List.coe_toFinset]
  · intro r hr
    exact List.count_eq_one_of_mem (hS.distinct v) ((hS.named v r).mpr hr)
  · intro c hc r hr hrejects e he hname
    obtain ⟨e₀, -, -, hremaining, honly⟩ := hrejects.record hrun hc hr
    rw [honly e he hname, hremaining]
  · intro c hc r hr hrejects hzero
    obtain ⟨e, he, -, hremaining, -⟩ := hrejects.record hrun hc hr
    -- a slash to nothing has deactivated the provider, and nothing activates it again
    obtain ⟨p', hp', hinactive⟩ := hS.ruined v e he (hremaining.trans hzero)
    rw [hp] at hp'
    cases hp'
    exact hinactive

/-- No penalty is negative. -/
theorem penalties_nonneg {h : List Call} {w : World} (hrun : Run h w) (v : Address) :
    0 ≤ penalties w.oracle v := by
  refine hrun.induction (P := fun _ w => 0 ≤ penalties w.oracle v) ?_ ?_
  · intro w hinit
    obtain ⟨admin, hadmin⟩ := hinit.oracle
    rw [hadmin]
    exact le_refl 0
  · intro h w t op ret w' hrun _ hexec ih
    obtain ⟨op, -, hmove⟩ | ⟨-, hsame⟩ := (step_of_exec hexec).move
    · exact ih.trans (hmove.penalties_le (unmarked_of_run hrun) (roster_of_run hrun))
    · rw [hsame]
      exact ih

/-- The addition of `add_stake` is checked, and nothing else adds to a stake. -/
theorem stake_fits_of_run {h : List Call} {w : World} (hrun : Run h w) (v : Address) :
    stakeOf w.oracle v ≤ maxValue := by
  refine hrun.induction (P := fun _ w => stakeOf w.oracle v ≤ maxValue) ?_ ?_
  · intro w hinit
    obtain ⟨admin, hadmin⟩ := hinit.oracle
    rw [hadmin]
    exact (by decide : (0 : ℤ) ≤ maxValue)
  · intro h w t op ret w' hpast _ hexec ih
    obtain ⟨op, -, hmove⟩ | ⟨-, hsame⟩ := (step_of_exec hexec).move
    · exact hmove.stakeOf_fits (unmarked_of_run hpast) (roster_of_run hpast) ih
    · rw [hsame]
      exact ih

/-- **The stake ledger.** In every run, stake, penalties and records of every provider agree, and
`get_provider_stats` states them; its total of the penalties is right if and only if it fits an
`i128`. That total is added up when it is asked for, by an addition that wraps. -/
theorem stake_ledger_iff {h : List Call} {w : World} (hrun : Run h w) {v : Address}
    {p : OracleProvider} (hp : w.oracle.provider v = some p) :
    ∃ stats, getProviderStats w.oracle v = .ok stats ∧ StakesAccounted h w.oracle v p ∧
      stats.stake = p.stake ∧ stats.active = p.active ∧
      stats.slashes = (rejectedReports w.oracle v).ncard ∧
      (stats.totalPenalty = penalties w.oracle v ↔ penalties w.oracle v ≤ maxValue) := by
  have haccounted := stakes_accounted hrun hp
  refine ⟨⟨w.oracle.providerReportCount v, (w.oracle.providerChallenges v).length,
    (w.oracle.slashHistory v).length, wrap (penalties w.oracle v), p.stake, p.active⟩, ?_,
    haccounted, rfl, rfl, haccounted.slashes, ?_⟩
  -- the wrapping additions add up to the wrapped sum
  · have htotal : (w.oracle.slashHistory v).foldl
        (fun total record => wrap (total + record.penalty)) 0 = wrap (penalties w.oracle v) := by
      have hfold := foldl_wrap (f := SlashRecord.penalty) (l := w.oracle.slashHistory v) (a := 0)
      rw [zero_add] at hfold
      exact hfold
    simp only [getProviderStats, bind_eq_ok, orError_eq_ok, pure_eq_ok]
    exact ⟨p, hp, by rw [htotal]⟩
  · rw [wrap_eq_self_iff]
    exact ⟨And.right, fun hle => InRange.of_nonneg (penalties_nonneg hrun v) hle⟩

/-- The first of two challenged reports is rejected, at a stake of 1000. -/
theorem stake_ledger_iff_first_rejection : ∃ h w p stats, Run h w ∧
    w.oracle.provider ⟨1⟩ = some p ∧ getProviderStats w.oracle ⟨1⟩ = .ok stats ∧
    StakesAccounted h w.oracle ⟨1⟩ p ∧ p.stake = 900 ∧ stats.totalPenalty = 100 ∧
    (rejectedReports w.oracle ⟨1⟩).ncard = 1 := by
  let ops : List (ℕ × Op) := challengedReports.append
    [(3, .oracle (.resolveChallenge ⟨0⟩ 1 .rejected 3))]
  have hplay : (machine.play [] (deploy ⟨0⟩ ⟨100⟩ ⟨101⟩ ⟨102⟩) ops).map
      (fun x => (penalties x.2.oracle ⟨1⟩, (x.2.oracle.slashHistory ⟨1⟩).length,
        (x.2.oracle.provider ⟨1⟩).map OracleProvider.stake)) = some (100, 1, some 900) := by decide
  obtain ⟨h, w, hrun, hview⟩ := Run.of_play (Init.deploy ⟨0⟩ ⟨100⟩ ⟨101⟩ ⟨102⟩) hplay
  simp only [Prod.mk.injEq, Option.map_eq_some_iff] at hview
  obtain ⟨hpenalties, hrecords, p, hp, hstake⟩ := hview
  obtain ⟨stats, hstats, haccounted, -, -, -, htotal⟩ := stake_ledger_iff hrun hp
  refine ⟨h, w, p, stats, hrun, hp, hstats, haccounted, hstake, ?_,
    haccounted.slashes.symm.trans hrecords⟩
  rw [htotal.mpr (by rw [hpenalties]; decide), hpenalties]

end Protocol
end NbsBond
