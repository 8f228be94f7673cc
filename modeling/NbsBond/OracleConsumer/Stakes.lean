import NbsBond.OracleConsumer.Bonds
import NbsBond.OracleConsumer.Electorate
import NbsBond.OracleConsumer.Roster

/-!
# Where the stakes go

The stake of a provider moves with what it adds and withdraws, and with the penalties of the reports
that were rejected. `Move.slash` says when a penalty is taken: exactly when a call marks a challenge
as rejected, and then the record of the penalty names the report and the stake that remains.

`Slashed` is the invariant about the records: those of a provider name the rejected reports of the
provider, each once, and whoever was slashed to nothing is inactive.
-/

namespace NbsBond
namespace OracleConsumer

open Soroban Int128

/-- The challenge of report `r` was resolved as rejected. -/
def MarkedRejected (s : State) (r : ReportId) : Prop :=
  ∃ ch, s.challenge r = some ch ∧ ch.resolved = true ∧ ch.resolution = discriminant .rejected

/-- The record of a penalty for report `r`, taken from the entry `p` at time `now`. -/
def slashRecord (now : ℕ) (p : OracleProvider) (r : ReportId) : SlashRecord where
  reportId := r
  penalty := slashableAmount p.stake
  remainingStake := p.stake - slashableAmount p.stake
  timestamp := now
  activeAfter := if p.stake - slashableAmount p.stake = 0 then false else p.active

/-- The entry `p` after a penalty. -/
def OracleProvider.slashed (p : OracleProvider) : OracleProvider :=
  { p with
    stake := p.stake - slashableAmount p.stake
    active := if p.stake - slashableAmount p.stake = 0 then false else p.active }

/-- A call marks the challenge of report `r` as rejected and takes the penalty from the entry `p` of
its provider. -/
structure Slashes (now : ℕ) (s s' : State) (r : ReportId) (rep : Report) (p : OracleProvider) :
    Prop where
  report : s.report r = some rep
  opened : ∃ ch, s.challenge r = some ch ∧ ch.resolved = false
  marked : ∀ q, MarkedRejected s' q ↔ MarkedRejected s q ∨ q = r
  entry : s.provider rep.provider = some p
  provider : s'.provider = Function.update s.provider rep.provider (some p.slashed)
  history : s'.slashHistory = Function.update s.slashHistory rep.provider
    (s.slashHistory rep.provider ++ [slashRecord now p r])

/-- A penalty is recorded for the provider of the report, and for nobody else. -/
theorem Slashes.history_cases {now : ℕ} {s s' : State} {r : ReportId} {rep : Report}
    {p : OracleProvider} (h : Slashes now s s' r rep p) (v : Address) :
    (rep.provider = v ∧ s'.slashHistory v = s.slashHistory v ++ [slashRecord now p r]) ∨
      (rep.provider ≠ v ∧ s'.slashHistory v = s.slashHistory v) := by
  rw [h.history]
  by_cases hv : rep.provider = v
  · subst hv
    exact Or.inl ⟨rfl, Function.update_self _ _ _⟩
  · exact Or.inr ⟨hv, Function.update_of_ne (Ne.symm hv) _ _⟩

section Slash

variable {now : ℕ} {own : Address} {regs regs' : Registries} {s s' : State} {op : Op}

/-- Writing a challenge that was not marked marks it or not. -/
theorem markedRejected_write {r : ReportId} {ch' : Challenge}
    (hbefore : ¬ MarkedRejected s r)
    (hchallenge : s'.challenge = Function.update s.challenge r (some ch')) (q : ReportId) :
    MarkedRejected s' q ↔ MarkedRejected s q ∨
      q = r ∧ ch'.resolved = true ∧ ch'.resolution = discriminant .rejected := by
  unfold MarkedRejected at hbefore ⊢
  rw [hchallenge]
  by_cases hq : q = r
  · subst hq
    rw [Function.update_self]
    constructor
    · rintro ⟨ch, hch, hmarked⟩
      cases hch
      exact Or.inr ⟨rfl, hmarked⟩
    -- no mark is written over
    · rintro (hold | ⟨-, hmarked⟩)
      · exact absurd hold hbefore
      · exact ⟨ch', rfl, hmarked⟩
  · rw [Function.update_of_ne hq]
    simp [hq]

theorem not_markedRejected_of_open {r : ReportId} {ch : Challenge} (hch : s.challenge r = some ch)
    (hopen : ch.resolved = false) : ¬ MarkedRejected s r := by
  rintro ⟨ch', hch', hresolved, -⟩
  rw [hch] at hch'
  cases hch'
  rw [hopen] at hresolved
  cases hresolved

/-- A decision marks the challenge of its report if it rejects it, and then slashes its provider. -/
theorem Verdict.slash {c : Council} {r : ReportId} {rep : Report} {ch : Challenge}
    {resolution : ReportStatus}
    (hverdict : Verdict now own regs regs' (OracleConsumer.docket s) c s' r rep ch resolution)
    (hprovider : c.provider = s.provider) (hhistory : c.slashHistory = s.slashHistory) :
    (s'.provider = s.provider ∧ s'.slashHistory = s.slashHistory ∧
        ∀ q, MarkedRejected s' q ↔ MarkedRejected s q) ∨
      ∃ r rep p, Slashes now s s' r rep p := by
  -- the challenge was open, so a mark on it is new
  have hmarked :=
    markedRejected_write (not_markedRejected_of_open hverdict.challenge hverdict.opened)
    hverdict.challenge_eq
  have houtcome := hverdict.outcome
  generalize hcouncil : council s' = c' at houtcome
  cases houtcome with
  | upheld =>
    -- upheld: the mark is that of the other verdict
    refine Or.inl ⟨(congrArg Council.provider hcouncil).trans hprovider,
      (congrArg Council.slashHistory hcouncil).trans hhistory, fun q => ?_⟩
    rw [hmarked]
    refine ⟨fun h => h.resolve_right fun h => ?_, Or.inl⟩
    exact absurd h.2.2 (show discriminant .verified ≠ discriminant .rejected by decide)
  | @rejected p _ hp _ =>
    -- what follows the penalty touches neither entries nor records
    rw [Council.refund_eq, Council.countRevocation_eq] at hcouncil
    refine Or.inr ⟨r, rep, p, hverdict.report, ⟨ch, hverdict.challenge, hverdict.opened⟩,
      fun q => ?_, hprovider ▸ hp, ?_, ?_⟩
    · rw [hmarked]
      exact or_congr_right ⟨And.left, fun hq => ⟨hq, rfl, rfl⟩⟩
    · rw [← hprovider]
      exact congrArg Council.provider hcouncil
    · rw [← hhistory]
      exact congrArg Council.slashHistory hcouncil

/-- **When a penalty is taken**: exactly when a challenge is marked as rejected. -/
theorem Move.slash (hmove : Move now own regs regs' s s' op) (hU : Unmarked s) :
    (s'.slashHistory = s.slashHistory ∧ ∀ q, MarkedRejected s' q ↔ MarkedRejected s q) ∨
      ∃ r rep p, Slashes now s s' r rep p := by
  -- a call that leaves challenges and records alone
  have hkept : s'.slashHistory = s.slashHistory → s'.challenge = s.challenge →
      (s'.slashHistory = s.slashHistory ∧ ∀ q, MarkedRejected s' q ↔ MarkedRejected s q) := by
    intro hhistory hchallenge
    refine ⟨hhistory, fun q => ?_⟩
    unfold MarkedRejected
    rw [hchallenge]
  cases hmove with
  | idle _ hcouncil hchallenge _ _ =>
    exact Or.inl (hkept (congrArg Council.slashHistory hcouncil) hchallenge)
  | @challenge _ r _ _ hnew _ hcouncil hchallenge _ _ =>
    -- a new challenge is open
    have hbefore : ¬ MarkedRejected s r := by
      rintro ⟨ch, hch, -⟩
      rw [hnew] at hch
      cases hch
    refine Or.inl ⟨congrArg Council.slashHistory hcouncil, fun q => ?_⟩
    rw [markedRejected_write hbefore hchallenge]
    exact ⟨fun h => h.resolve_right fun h => (nomatch h.2.1), Or.inl⟩
  | rule _ hverdict => exact (hverdict.slash rfl rfl).imp_left And.right
  | concur _ _ hverdict => exact (hverdict.slash rfl rfl).imp_left And.right
  | @expire r ch hch hopen hcouncil hchallenge _ _ =>
    rw [Council.refund_eq] at hcouncil
    refine Or.inl ⟨congrArg Council.slashHistory hcouncil, fun q => ?_⟩
    rw [markedRejected_write (not_markedRejected_of_open hch hopen) hchallenge]
    refine ⟨fun h => h.resolve_right fun h => ?_, Or.inl⟩
    -- a lapsed challenge keeps the resolution of an open one
    exact absurd ((hU r ch hch hopen).symm.trans h.2.2) (by decide)
  | register _ _ hamends | remove _ _ hamends | vote _ _ hamends | setThreshold _ _ hamends
  | addStake _ _ _ hamends | withdrawStake _ _ _ _ hamends | depositBond _ _ hamends
  | withdrawBond _ _ hamends | setRegistry _ hamends | propose _ hamends | cancel _ _ hamends
  | accept _ _ _ hamends =>
    exact Or.inl (hkept (congrArg Council.slashHistory hamends.council)
      (congrArg Docket.challenge hamends.docket))

end Slash

/-! ### The stake of a provider -/

/-- The stake of `v`, nothing for an address that is no provider. -/
def stakeOf (s : State) (v : Address) : ℤ :=
  match s.provider v with
  | some p => p.stake
  | none => 0

/-- The penalties on record for `v`. -/
def penalties (s : State) (v : Address) : ℤ := ((s.slashHistory v).map SlashRecord.penalty).sum

/-- What a call adds to the stake of `v`. -/
def Op.staked (v : Address) : Op → ℤ
  | .addStake provider amount _ => if provider = v then amount else 0
  | _ => 0

/-- What a call withdraws from the stake of `v`. -/
def Op.unstaked (v : Address) : Op → ℤ
  | .withdrawStake provider amount _ => if provider = v then amount else 0
  | _ => 0

theorem stakeOf_of_provider {s : State} {v : Address} {p : OracleProvider}
    (hp : s.provider v = some p) : stakeOf s v = p.stake := by
  unfold stakeOf
  rw [hp]

section Stake

variable {now : ℕ} {own : Address} {regs regs' : Registries} {s s' : State} {v : Address}

/-- Writing the entry of one provider. -/
theorem stakeOf_write {u : Address} {p : OracleProvider}
    (hprovider : s'.provider = Function.update s.provider u (some p)) :
    stakeOf s' v = if u = v then p.stake else stakeOf s v := by
  unfold stakeOf
  rw [hprovider, Function.update_apply]
  by_cases hv : v = u
  · rw [if_pos hv, if_pos hv.symm]
  · rw [if_neg hv, if_neg (Ne.symm hv)]

/-- A penalty goes from the stake to the record. -/
theorem Slashes.stake {r : ReportId} {rep : Report} {p : OracleProvider}
    (h : Slashes now s s' r rep p) :
    stakeOf s' v + penalties s' v = stakeOf s v + penalties s v := by
  rw [stakeOf_write h.provider]
  unfold penalties
  obtain ⟨hv, hhistory⟩ | ⟨hv, hhistory⟩ := h.history_cases v
  · subst hv
    rw [if_pos rfl, hhistory, List.map_append, List.sum_append, stakeOf_of_provider h.entry]
    -- the amount taken is the amount recorded
    show p.stake - slashableAmount p.stake + (_ + (slashableAmount p.stake + 0)) = _
    ring
  · rw [if_neg hv, hhistory]

/-- **One call.** Stake and penalties together move by what the call adds and withdraws. A penalty
moves from the one to the other. -/
theorem Move.stake {op : Op} (hmove : Move now own regs regs' s s' op) :
    stakeOf s' v + penalties s' v =
      stakeOf s v + penalties s v + op.staked v - op.unstaked v := by
  -- a call that leaves the penalties alone and the stakes too
  have hkept : ∀ {op : Op}, op.staked v = 0 → op.unstaked v = 0 →
      stakeOf s' v = stakeOf s v → s'.slashHistory = s.slashHistory →
      stakeOf s' v + penalties s' v =
        stakeOf s v + penalties s v + op.staked v - op.unstaked v := by
    intro op hstaked hunstaked hstake hhistory
    unfold penalties
    rw [hstaked, hunstaked, hstake, hhistory]
    ring
  -- without a provider written, no stake moves
  have hsame : s'.provider = s.provider → stakeOf s' v = stakeOf s v := by
    intro hprovider
    unfold stakeOf
    rw [hprovider]
  -- a call that rewrites one entry, with the difference `amount`
  have hmoved : ∀ (amount : ℤ) {u : Address} {p q : OracleProvider}, s.provider u = some p →
      s'.provider = Function.update s.provider u (some q) → q.stake = p.stake + amount →
      s'.slashHistory = s.slashHistory →
      stakeOf s' v + penalties s' v =
        stakeOf s v + penalties s v + if u = v then amount else 0 := by
    intro amount u p q hp hprovider hq hhistory
    unfold penalties
    rw [stakeOf_write hprovider, hhistory]
    by_cases hu : u = v
    · subst hu
      rw [if_pos rfl, if_pos rfl, hq, stakeOf_of_provider hp]
      ring
    · rw [if_neg hu, if_neg hu]
      ring
  cases hmove with
  | @idle op hop hcouncil _ _ _ =>
    refine hkept ?_ ?_ (hsame (congrArg Council.provider hcouncil))
      (congrArg Council.slashHistory hcouncil)
    -- none of the calls that may idle moves a stake
    · cases op <;> first | rfl | cases hop
    · cases op <;> first | rfl | cases hop
  | @register _ u _ _ _ hnew hamends =>
    refine hkept rfl rfl ?_ (congrArg Council.slashHistory hamends.council)
    -- a new provider starts with what an address without entry counts as
    have hprovider := congrArg Council.provider hamends.council
    rw [stakeOf_write hprovider]
    split
    · next hu =>
      subst hu
      unfold stakeOf
      rw [hnew]
    · rfl
  | @remove _ u _ p _ hp hamends =>
    -- only the activity is rewritten
    have hstake := hmoved 0 hp (congrArg Council.provider hamends.council)
      (add_zero _).symm (congrArg Council.slashHistory hamends.council)
    rw [hstake, ite_self]
    show _ = _ + 0 - 0
    ring
  | challenge _ _ hcouncil _ _ _ =>
    exact hkept rfl rfl (hsame (congrArg Council.provider hcouncil))
      (congrArg Council.slashHistory hcouncil)
  | rule _ hverdict =>
    -- stake lost is penalty recorded
    obtain ⟨hprovider, hhistory, -⟩ | ⟨r, rep, p, hslash⟩ := hverdict.slash rfl rfl
    · exact hkept rfl rfl (hsame hprovider) hhistory
    · rw [hslash.stake]
      show _ = _ + 0 - 0
      ring
  | concur _ _ hverdict =>
    obtain ⟨hprovider, hhistory, -⟩ | ⟨r, rep, p, hslash⟩ := hverdict.slash rfl rfl
    · exact hkept rfl rfl (hsame hprovider) hhistory
    · rw [hslash.stake]
      show _ = _ + 0 - 0
      ring
  | expire _ _ hcouncil _ _ _ =>
    rw [Council.refund_eq] at hcouncil
    exact hkept rfl rfl (hsame (congrArg Council.provider hcouncil))
      (congrArg Council.slashHistory hcouncil)
  | @addStake u amount _ p _ hp _ hamends =>
    have hstake := hmoved amount hp (congrArg Council.provider hamends.council) rfl
      (congrArg Council.slashHistory hamends.council)
    rw [hstake]
    show _ = _ + (if u = v then amount else 0) - 0
    ring
  | @withdrawStake u amount _ p _ hp _ _ hamends =>
    have hstake := hmoved (-amount) hp (congrArg Council.provider hamends.council) rfl
      (congrArg Council.slashHistory hamends.council)
    rw [hstake]
    show _ = _ + 0 - (if u = v then amount else 0)
    split <;> ring
  | vote _ _ hamends | setThreshold _ _ hamends | depositBond _ _ hamends
  | withdrawBond _ _ hamends | setRegistry _ hamends | propose _ hamends | cancel _ _ hamends
  | accept _ _ _ hamends =>
    exact hkept rfl rfl (hsame (congrArg Council.provider hamends.council))
      (congrArg Council.slashHistory hamends.council)

theorem Move.unstaked_nonneg {op : Op} (hmove : Move now own regs regs' s s' op) :
    0 ≤ op.unstaked v := by
  cases hmove with
  | @idle op hop _ _ _ _ => cases op <;> first | exact le_refl 0 | cases hop
  | @withdrawStake _ amount _ _ hpos _ _ _ _ =>
    show 0 ≤ if _ then amount else 0
    split
    · exact hpos.le
    · exact le_refl 0
  | _ => exact le_refl 0

/-- Penalties only add up. -/
theorem Move.penalties_le {op : Op} (hmove : Move now own regs regs' s s' op) (hU : Unmarked s)
    (hR : Roster s) : penalties s v ≤ penalties s' v := by
  unfold penalties
  obtain ⟨hhistory, -⟩ | ⟨r, rep, p, hslash⟩ := hmove.slash hU
  · rw [hhistory]
  · -- a penalty is part of a stake, and no stake is negative
    have hpenalty : 0 ≤ slashableAmount p.stake :=
      slashableAmount_nonneg (hR.stakes _ p hslash.entry)
    obtain ⟨-, hhistory⟩ | ⟨-, hhistory⟩ := hslash.history_cases v
    · rw [hhistory, List.map_append, List.sum_append]
      exact le_add_of_nonneg_right (add_nonneg hpenalty (le_refl 0))
    · rw [hhistory]

/-- Only the provider itself adds to its stake. -/
theorem Move.stakeOf_le {op : Op} (hmove : Move now own regs regs' s s' op) (hU : Unmarked s)
    (hR : Roster s) (hnone : op.staked v = 0) : stakeOf s' v ≤ stakeOf s v := by
  have hstake := hmove.stake (v := v)
  have hunstaked := hmove.unstaked_nonneg (v := v)
  have hpenalties := hmove.penalties_le (v := v) hU hR
  omega

/-- The addition of `add_stake` is checked. -/
theorem Move.stakeOf_fits {op : Op} (hmove : Move now own regs regs' s s' op) (hU : Unmarked s)
    (hR : Roster s) (hfits : stakeOf s v ≤ maxValue) : stakeOf s' v ≤ maxValue := by
  by_cases hnone : op.staked v = 0
  · exact (hmove.stakeOf_le hU hR hnone).trans hfits
  · cases hmove with
    | @idle op hop _ _ _ _ => cases op <;> first | exact absurd rfl hnone | cases hop
    | addStake _ _ hrange hamends =>
      rw [stakeOf_write (congrArg Council.provider hamends.council)]
      split
      · exact hrange.2
      · exact hfits
    | _ => exact absurd rfl hnone

end Stake

/-! ### The records of penalties -/

/-- The records of a provider name its rejected reports, each once; and a provider that was slashed
to nothing is inactive. -/
structure Slashed (s : State) : Prop where
  named : ∀ v r, r ∈ (s.slashHistory v).map SlashRecord.reportId ↔
    MarkedRejected s r ∧ ∃ rep, s.report r = some rep ∧ rep.provider = v
  distinct : ∀ v, ((s.slashHistory v).map SlashRecord.reportId).Nodup
  ruined : ∀ v, ∀ e ∈ s.slashHistory v, e.remainingStake = 0 →
    ∃ p, s.provider v = some p ∧ p.active = false

theorem Slashed.initial (admin : Address) : Slashed (construct admin) where
  named v r := by
    refine ⟨fun h => absurd h List.not_mem_nil, ?_⟩
    rintro ⟨⟨ch, hch, -⟩, -⟩
    cases hch
  distinct _ := List.nodup_nil
  ruined _ _ h := absurd h List.not_mem_nil

/-- A report with a challenge keeps its provider. -/
theorem Step.provider_of_challenge {now : ℕ} {s : State} {d : Docket} {op : Op}
    (hL : LifeCycle (docket s)) (hstep : Step now s d op) {r : ReportId}
    (hch : s.challenge r ≠ none) (v : Address) :
    (∃ rep, d.report r = some rep ∧ rep.provider = v) ↔
      ∃ rep, s.report r = some rep ∧ rep.provider = v := by
  have hon : s.report r ≠ none := fun hnone => hch (hL.unused r hnone).1
  obtain ⟨rep, hrep⟩ := Option.ne_none_iff_exists'.mp hon
  obtain ⟨rep', hrep', hsame, -⟩ := hstep.report_change hL hrep
  have hprovider : rep'.provider = rep.provider := by rw [hsame]
  constructor
  · rintro ⟨q, hq, rfl⟩
    rw [hrep'] at hq
    cases hq
    exact ⟨rep, hrep, hprovider.symm⟩
  · rintro ⟨q, hq, rfl⟩
    rw [hrep] at hq
    cases hq
    exact ⟨rep', hrep', hprovider⟩

section Penalty

variable {now : ℕ} {s s' : State} {r : ReportId} {rep : Report} {p : OracleProvider}

/-- The new record names its report, and only that. -/
theorem Slashes.named (h : Slashes now s s' r rep p) (hS : Slashed s)
    (hsame : ∀ v q, s.challenge q ≠ none → ((∃ rep', s'.report q = some rep' ∧ rep'.provider = v) ↔
      ∃ rep', s.report q = some rep' ∧ rep'.provider = v)) (v : Address) (q : ReportId) :
    q ∈ (s'.slashHistory v).map SlashRecord.reportId ↔
      MarkedRejected s' q ∧ ∃ rep', s'.report q = some rep' ∧ rep'.provider = v := by
  obtain ⟨ch, hch, hopen⟩ := h.opened
  have hreporter : (∃ rep', s'.report r = some rep' ∧ rep'.provider = v) ↔ rep.provider = v := by
    rw [hsame v r (by rw [hch]; nofun), h.report]
    exact ⟨fun ⟨rep', hrep', hv⟩ => Option.some.inj hrep' ▸ hv, fun hv => ⟨rep, rfl, hv⟩⟩
  rw [h.marked]
  by_cases hq : q = r
  · subst hq
    rw [hreporter]
    obtain ⟨hv, hhistory⟩ | ⟨hv, hhistory⟩ := h.history_cases v
    · rw [hhistory, List.map_append]
      exact ⟨fun _ => ⟨Or.inr rfl, hv⟩, fun _ =>
        List.mem_append_right _ (List.mem_singleton.mpr rfl)⟩
    · -- another provider has no record of it: its challenge was open until now
      rw [hhistory, hS.named]
      exact ⟨fun hold => absurd hold.1 (not_markedRejected_of_open hch hopen),
        fun hnew => absurd hnew.2 hv⟩
  · have hmem : q ∈ (s'.slashHistory v).map SlashRecord.reportId ↔
        q ∈ (s.slashHistory v).map SlashRecord.reportId := by
      obtain ⟨-, hhistory⟩ | ⟨-, hhistory⟩ := h.history_cases v
      · rw [hhistory, List.map_append, List.mem_append]
        exact ⟨fun h => h.resolve_right fun h => hq (List.mem_singleton.mp h), Or.inl⟩
      · rw [hhistory]
    rw [hmem, hS.named, or_iff_left hq]
    refine and_congr_right fun hmarked => (hsame v q ?_).symm
    obtain ⟨ch', hch', -⟩ := hmarked
    rw [hch']
    nofun

/-- The report had no record before. -/
theorem Slashes.distinct (h : Slashes now s s' r rep p) (hS : Slashed s) (v : Address) :
    ((s'.slashHistory v).map SlashRecord.reportId).Nodup := by
  obtain ⟨ch, hch, hopen⟩ := h.opened
  have hnew : r ∉ (s.slashHistory v).map SlashRecord.reportId := fun hmem =>
    not_markedRejected_of_open hch hopen ((hS.named v r).mp hmem).1
  obtain ⟨-, hhistory⟩ | ⟨-, hhistory⟩ := h.history_cases v
  · rw [hhistory, List.map_append, List.nodup_append]
    refine ⟨hS.distinct v, List.nodup_singleton _, ?_⟩
    rintro a ha b hb rfl
    rw [List.map_singleton, List.mem_singleton] at hb
    subst hb
    exact hnew ha
  · rw [hhistory]
    exact hS.distinct v

end Penalty

/-- **Invariant preservation.** -/
theorem Slashed.step {now : ℕ} {own : Address} {regs regs' : Registries} {s s' : State} {op : Op}
    (hS : Slashed s) (hU : Unmarked s) (hL : LifeCycle (docket s))
    (hstep : Step now s (docket s') op) (hmove : Move now own regs regs' s s' op) : Slashed s' := by
  -- who was inactive stays so
  have hruined : ∀ v, ∀ e ∈ s.slashHistory v, e.remainingStake = 0 →
      ∃ p, s'.provider v = some p ∧ p.active = false := by
    intro v e he hzero
    obtain ⟨p, hp, hinactive⟩ := hS.ruined v e he hzero
    obtain ⟨p', hp', hactive⟩ := hmove.provider_change hp
    refine ⟨p', hp', Bool.eq_false_iff.mpr fun h => ?_⟩
    rw [hactive h] at hinactive
    cases hinactive
  -- a report that has a challenge keeps its provider
  have hreporter : ∀ v r, s.challenge r ≠ none →
      ((∃ rep, s'.report r = some rep ∧ rep.provider = v) ↔
        ∃ rep, s.report r = some rep ∧ rep.provider = v) :=
    fun v r hch => hstep.provider_of_challenge hL hch v
  obtain ⟨hhistory, hsame⟩ | ⟨r, rep, p, hslash⟩ := hmove.slash hU
  · refine ⟨fun v q => ?_, fun v => ?_, fun v e he => ?_⟩
    · rw [hhistory, hS.named, hsame]
      refine and_congr_right fun ⟨ch, hch, _⟩ => (hreporter v q ?_).symm
      rw [hch]
      nofun
    · rw [hhistory]
      exact hS.distinct v
    · rw [hhistory] at he
      exact hruined v e he
  · refine ⟨hslash.named hS hreporter, hslash.distinct hS, fun v e he hzero => ?_⟩
    obtain ⟨hv, hhistory⟩ | ⟨-, hhistory⟩ := hslash.history_cases v
    · rw [hhistory] at he
      rcases List.mem_append.mp he with he | he
      · exact hruined v e he hzero
      · -- the record of this penalty: what leaves no stake deactivates
        rw [List.mem_singleton] at he
        subst he hv
        refine ⟨p.slashed, by rw [hslash.provider, Function.update_self], ?_⟩
        exact if_pos hzero
    · rw [hhistory] at he
      exact hruined v e he hzero

end OracleConsumer
end NbsBond
