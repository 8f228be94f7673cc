import NbsBond.Protocol.Penalties
import NbsBond.Protocol.PenaltyTotal

/-!
# How a stake is used up

`slashable_amount` takes a tenth of the stake, by a multiplication that is unchecked. It overflows
for a stake above `largestStake`, and `add_stake`, which checks for the range of an `i128` only,
lets a provider have one. What is taken then is never a tenth (`slashableAmount_eq_iff`).

But it is something, of any stake at all. So `Worn`, which bounds the stake after `n` penalties,
is carried from one penalty to the next whatever the bound, as long as a penalty leaves no more
of a stake than the bound says (`worn_of_run`). It is used for the bound that falls by one with
every penalty, overflow or not, and for the one that falls by a tenth.
-/

namespace NbsBond
namespace Protocol

open Soroban OracleConsumer Int128

/-! ### What a penalty takes -/

/-- `slashable_amount` does not overflow, and takes a tenth of the stake, or all of less than
ten. -/
structure SlashSafe (stake : ℤ) : Prop where
  fits : InRange (stake * slashPenaltyPpm)
  nonneg : 0 ≤ slashableAmount stake
  le : slashableAmount stake ≤ stake
  tenth : 10 ≤ stake → slashableAmount stake = stake / 10
  whole : stake < 10 → slashableAmount stake = stake

theorem product_le_iff {stake : ℤ} :
    stake * slashPenaltyPpm ≤ maxValue ↔ stake ≤ largestStake := by
  unfold slashPenaltyPpm maxValue largestStake
  omega

theorem tenth_le_zero_iff {stake : ℤ} (hnonneg : 0 ≤ stake) (hfits : stake ≤ largestStake) :
    tenth stake ≤ 0 ↔ stake < 10 := by
  rw [tenth_eq hnonneg (product_le_iff.mpr hfits)]
  omega

theorem slashableAmount_tenth {stake : ℤ} (hten : 10 ≤ stake) (hfits : stake ≤ largestStake) :
    slashableAmount stake = stake / 10 := by
  have hnonneg : 0 ≤ stake := by omega
  rw [slashableAmount_eq hnonneg, if_neg, tenth_eq hnonneg (product_le_iff.mpr hfits)]
  rw [tenth_le_zero_iff hnonneg hfits]
  omega

theorem slashableAmount_whole {stake : ℤ} (hnonneg : 0 ≤ stake) (hsmall : stake < 10) :
    slashableAmount stake = stake := by
  have hfits : stake ≤ largestStake := hsmall.le.trans (by decide)
  rw [slashableAmount_eq hnonneg, if_pos ((tenth_le_zero_iff hnonneg hfits).mpr hsmall)]

/-- Something is taken of every stake. -/
theorem slashableAmount_pos {stake : ℤ} (hpos : 0 < stake) : 0 < slashableAmount stake := by
  rw [slashableAmount_eq hpos.le]
  split
  · exact hpos
  · next hrounds => exact not_le.mp hrounds

/-- The wrapped product of an overflow is off by a multiple of `2 ^ 128`, and its quotient is
another. -/
theorem tenth_lt_of_overflow {stake : ℤ} (hover : largestStake < stake)
    (hpos : 0 < tenth stake) : tenth stake < stake / 10 := by
  have hproduct : maxValue < stake * slashPenaltyPpm :=
    not_le.mp fun hle => absurd (product_le_iff.mp hle) (not_le.mpr hover)
  have hwrap : wrap (stake * slashPenaltyPpm) ≤ stake * slashPenaltyPpm - 2 ^ 128 :=
    wrap_le_sub hproduct
  -- a positive quotient is that of a positive product
  have hnonneg : 0 ≤ wrap (stake * slashPenaltyPpm) :=
    not_lt.mp fun hneg => absurd hpos (not_lt.mpr (tenth_nonpos hneg))
  unfold tenth at hpos ⊢
  rw [Int.tdiv_eq_ediv_of_nonneg hnonneg]
  unfold slashPenaltyPpm at hwrap ⊢
  omega

/-- **A tenth, or an overflow.** There is no third case: a product that does not fit never gives the
right tenth by chance. -/
theorem slashableAmount_eq_iff {stake : ℤ} (hten : 10 ≤ stake) :
    slashableAmount stake = stake / 10 ↔ stake ≤ largestStake := by
  refine ⟨fun heq => not_lt.mp fun hover => ?_, slashableAmount_tenth hten⟩
  rw [slashableAmount_eq (by omega)] at heq
  split at heq
  -- all of the stake is no tenth of it
  · omega
  · next hrounds => exact absurd heq (tenth_lt_of_overflow hover (not_le.mp hrounds)).ne

theorem slashSafe_iff {stake : ℤ} (hnonneg : 0 ≤ stake) :
    SlashSafe stake ↔ stake ≤ largestStake := by
  refine ⟨fun hsafe => product_le_iff.mp hsafe.fits.2, fun hfits => ⟨?_, ?_, ?_, ?_, ?_⟩⟩
  · exact InRange.of_nonneg (mul_nonneg hnonneg (by decide)) (product_le_iff.mpr hfits)
  · exact slashableAmount_nonneg hnonneg
  · exact slashableAmount_le stake
  · exact fun hten => slashableAmount_tenth hten hfits
  · exact slashableAmount_whole hnonneg

/-! ### Wear -/

/-- After `n` penalties at most `left n` is staked. Where that is no more than 9, the next penalty
has taken all of it. -/
structure Worn (left : ℕ → ℤ) (n : ℕ) (p : OracleProvider) : Prop where
  stake : p.stake ≤ left n
  ruined : ∀ m < n, left m ≤ 9 → p.stake = 0 ∧ p.active = false

/-- A penalty leaves no more of a stake than `left` says. -/
def Wears (left : ℕ → ℤ) : Prop :=
  ∀ n stake, 0 ≤ stake → stake ≤ left n → stake - slashableAmount stake ≤ left (n + 1)

theorem Worn.slashed {left : ℕ → ℤ} {n : ℕ} {p : OracleProvider} (hworn : Worn left n p)
    (hwears : Wears left) (hnonneg : 0 ≤ p.stake) : Worn left (n + 1) p.slashed := by
  refine ⟨hwears n p.stake hnonneg hworn.stake, fun m hm hsmall => ?_⟩
  -- at most 9 was left before this penalty, or an earlier one has taken all
  have hlittle : p.stake < 10 := by
    rcases (Nat.lt_succ_iff.mp hm).eq_or_lt with rfl | hearlier
    · have hstake := hworn.stake
      omega
    · rw [(hworn.ruined m hearlier hsmall).1]
      decide
  -- all of it is taken
  have hnothing : p.stake - slashableAmount p.stake = 0 := by
    rw [slashableAmount_whole hnonneg hlittle, sub_self]
  exact ⟨hnothing, if_pos hnothing⟩

/-- Without a penalty, and without a top-up. -/
theorem Worn.kept {left : ℕ → ℤ} {n : ℕ} {p p' : OracleProvider} (hworn : Worn left n p)
    (hnonneg : 0 ≤ p'.stake) (hle : p'.stake ≤ p.stake)
    (hactive : p'.active = true → p.active = true) : Worn left n p' := by
  refine ⟨hle.trans hworn.stake, fun m hm hsmall => ?_⟩
  obtain ⟨hzero, hinactive⟩ := hworn.ruined m hm hsmall
  refine ⟨by omega, Bool.eq_false_iff.mpr fun h => ?_⟩
  rw [hactive h] at hinactive
  cases hinactive

/-- The provider `v` after `n` more penalties than in the storage `s`. -/
def WornSince (s : OracleConsumer.State) (left : ℕ → ℤ) (v : Address)
    (s' : OracleConsumer.State) : Prop :=
  ∃ n p, s'.provider v = some p ∧ (s'.slashHistory v).length = (s.slashHistory v).length + n ∧
    Worn left n p

/-- **One call** without a top-up: one penalty more, or none. What is added in between would make
the stake larger again, so that is excluded. -/
theorem WornSince.call {left : ℕ → ℤ} {s₀ : OracleConsumer.State} {h : List Call} {c : Call}
    {w : World} {v : Address} (hworn : WornSince s₀ left v c.pre.oracle) (hwears : Wears left)
    (hrun : Run (c :: h) w) (hnone : c.op.staked v = 0) : WornSince s₀ left v w.oracle := by
  have hroster := roster_of_run hrun
  obtain ⟨n, p, hp, hlength, hworn⟩ := hworn
  cases hrun with
  | call hpast ht hexec =>
    obtain ⟨op, rfl, hmove⟩ | ⟨-, hsame⟩ := (step_of_exec hexec).move
    · obtain ⟨hhistory, -⟩ | ⟨r, rep, q, hslash⟩ := hmove.slash (unmarked_of_run hpast)
      · -- the entry is kept, with no more stake
        obtain ⟨p', hp', hactive⟩ := hmove.provider_change hp
        have hle := hmove.stakeOf_le (v := v) (unmarked_of_run hpast) (roster_of_run hpast) hnone
        rw [stakeOf_of_provider hp, stakeOf_of_provider hp'] at hle
        exact ⟨n, p', hp', hhistory ▸ hlength, hworn.kept (hroster.stakes v p' hp') hle hactive⟩
      · obtain ⟨hv, hhistory⟩ | ⟨hv, hhistory⟩ := hslash.history_cases v
        · subst hv
          obtain rfl : q = p := Option.some.inj (hslash.entry.symm.trans hp)
          refine ⟨n + 1, q.slashed, ?_, ?_, hworn.slashed hwears ?_⟩
          · rw [hslash.provider, Function.update_self]
          · rw [hhistory, List.length_append, hlength]
            rfl
          · exact (roster_of_run hpast).stakes _ q hp
        · -- the penalty is for somebody else
          refine ⟨n, p, ?_, hhistory ▸ hlength, hworn⟩
          rw [hslash.provider, Function.update_of_ne (Ne.symm hv)]
          exact hp
    · rw [hsame]
      exact ⟨n, p, hp, hlength, hworn⟩

/-- Penalties wear a stake down, whatever else happens, unless it is topped up. -/
theorem worn_of_run {left : ℕ → ℤ} (hwears : Wears left) {h h' : List Call} {w w' : World}
    {v : Address} {p : OracleProvider} (hrun : Run h w) (hp : w.oracle.provider v = some p)
    (hstart : p.stake ≤ left 0) (hrun' : Run (h' ++ h) w')
    (hnone : ∀ c ∈ h', c.op.staked v = 0) : WornSince w.oracle left v w'.oracle := by
  refine hrun'.since (G := fun _ op => op.staked v = 0)
    (P := fun w' => WornSince w.oracle left v w'.oracle) ?_ ?_ hnone
  · intro w₀ hrun₀
    cases h with
    | nil =>
      -- no provider is on record before the first call
      cases hrun with
      | start hinit =>
        obtain ⟨admin, hadmin⟩ := hinit.oracle
        rw [hadmin] at hp
        cases hp
    | cons c h =>
      obtain rfl : w₀ = w := hrun₀.post_eq.symm.trans hrun.post_eq
      exact ⟨0, p, hp, rfl, hstart, fun m hm => absurd hm (Nat.not_lt_zero m)⟩
  · intro h c w' hrun' hworn hnone
    exact hworn.call hwears hrun' hnone

/-! ### Rejections -/

/-- After the history `h`, more than `k` further rejections of reports of `v` leave it without a
stake and inactive, unless it adds to its stake. -/
def RuinedBeyond (h : List Call) (w : World) (v : Address) (k : ℕ) : Prop :=
  ∀ h' w', Run (h' ++ h) w' → (∀ c ∈ h', c.op.staked v = 0) →
    (rejectedReports w.oracle v).ncard + k < (rejectedReports w'.oracle v).ncard →
    ∃ p, w'.oracle.provider v = some p ∧ p.stake = 0 ∧ p.active = false

section Ruin

variable {h : List Call} {w : World} {v : Address} {p : OracleProvider}

theorem ruinedBeyond_of_wears {left : ℕ → ℤ} (hwears : Wears left) (hrun : Run h w)
    (hp : w.oracle.provider v = some p) (hstart : p.stake ≤ left 0) {k : ℕ} (hsmall : left k ≤ 9) :
    RuinedBeyond h w v k := by
  intro h' w' hrun' hnone hmany
  obtain ⟨n, p', hp', hlength, hworn⟩ := worn_of_run hwears hrun hp hstart hrun' hnone
  -- one penalty for each rejected report
  rw [← (stakes_accounted hrun hp).slashes, ← (stakes_accounted hrun' hp').slashes] at hmany
  exact ⟨p', hp', hworn.ruined k (by omega) hsmall⟩

/-- Every penalty takes one at least. -/
theorem wears_by_one (stake : ℤ) : Wears fun n => max 0 (stake - n) := by
  intro n rest hnonneg hle
  rcases hnonneg.eq_or_lt with rfl | hpos
  -- of nothing, nothing is taken
  · rw [slashableAmount_whole (le_refl 0) (by decide), sub_zero]
    exact le_max_left _ _
  · have htaken := slashableAmount_pos hpos
    refine le_max_of_le_right ?_
    push_cast
    rcases le_max_iff.mp hle with hzero | hle
    · exact absurd hpos (not_lt.mpr hzero)
    · omega

/-- The stake after a penalty of a tenth. -/
def withoutTenth (stake : ℤ) : ℤ := stake - stake / 10

theorem withoutTenth_iterate_le (n : ℕ) : withoutTenth^[n] largestStake ≤ largestStake ∧
    0 ≤ withoutTenth^[n] largestStake := by
  induction n with
  | zero => exact ⟨le_refl _, by decide⟩
  | succ n ih =>
    rw [Function.iterate_succ_apply']
    unfold withoutTenth at ih ⊢
    omega

/-- Without an overflow every penalty takes a tenth. -/
theorem wears_by_tenth : Wears fun n => withoutTenth^[n] largestStake := by
  intro n rest hnonneg hle
  have hfits : rest ≤ largestStake := hle.trans (withoutTenth_iterate_le n).1
  -- all of a stake below ten is more than its tenth
  have htaken : rest / 10 ≤ slashableAmount rest := by
    by_cases hten : 10 ≤ rest
    · exact (slashableAmount_tenth hten hfits).ge
    · rw [slashableAmount_whole hnonneg (not_le.mp hten)]
      omega
  show rest - slashableAmount rest ≤ withoutTenth^[n + 1] largestStake
  rw [Function.iterate_succ_apply']
  -- what is left of more is more
  calc rest - slashableAmount rest ≤ withoutTenth rest := sub_le_sub_left htaken rest
    _ ≤ withoutTenth (withoutTenth^[n] largestStake) := by
      dsimp only at hle
      unfold withoutTenth at hle ⊢
      omega

/-- **No stake outlasts its rejections.** -/
theorem ruinedBeyond (hrun : Run h w) (hp : w.oracle.provider v = some p) :
    RuinedBeyond h w v (p.stake - 9).toNat := by
  refine ruinedBeyond_of_wears (wears_by_one p.stake) hrun hp ?_ ?_
  · show p.stake ≤ max 0 (p.stake - (0 : ℕ))
    omega
  · show max 0 (p.stake - ((p.stake - 9).toNat : ℕ)) ≤ 9
    omega

/-- A stake that can be multiplied does not outlast 711 rejections. -/
theorem ruinedBeyond_of_fits (hrun : Run h w) (hp : w.oracle.provider v = some p)
    (hfits : p.stake ≤ largestStake) : RuinedBeyond h w v 710 :=
  ruinedBeyond_of_wears wears_by_tenth hrun hp hfits (by decide +kernel)

end Ruin

/-- **Slashes are safe** for the stakes that can be multiplied, and for no others that a provider
can have; overflow or not, every stake is used up by finitely many rejections. After an overflow it
is no tenth that is taken, but it is something, of any stake at all. -/
theorem slash_safe_iff {h : List Call} {w : World} (hrun : Run h w) {v : Address}
    {p : OracleProvider} (hp : w.oracle.provider v = some p) :
    0 ≤ p.stake ∧ p.stake ≤ maxValue ∧ (SlashSafe p.stake ↔ p.stake ≤ largestStake) ∧
      (10 ≤ p.stake → (slashableAmount p.stake = p.stake / 10 ↔ p.stake ≤ largestStake)) ∧
      RuinedBeyond h w v (p.stake - 9).toNat ∧
      (p.stake ≤ largestStake → RuinedBeyond h w v 710) := by
  have hnonneg : 0 ≤ p.stake := (roster_of_run hrun).stakes v p hp
  have hmax := stake_fits_of_run hrun v
  rw [stakeOf_of_provider hp] at hmax
  exact ⟨hnonneg, hmax, slashSafe_iff hnonneg, slashableAmount_eq_iff, ruinedBeyond hrun hp,
    ruinedBeyond_of_fits hrun hp⟩

/-- A stake of 5, and its first rejection. -/
theorem slash_safe_iff_five : ∃ h h' w w' p p', Run h w ∧ Run (h' ++ h) w' ∧
    w.oracle.provider ⟨1⟩ = some p ∧ p.stake = 5 ∧ SlashSafe p.stake ∧
    w'.oracle.provider ⟨1⟩ = some p' ∧ p'.stake = 0 ∧ p'.active = false := by
  let ops : List (ℕ × Op) := (onboard ⟨0⟩ ⟨5⟩ ⟨1⟩ ⟨2⟩ ⟨100⟩ ⟨102⟩ 7).append
    [(1, .oracle (.addStake ⟨1⟩ 5 0)),
      (1, .oracle (.submitReport ⟨1⟩ 1 0 10 5000 .absent "VM0007" 3 1)),
      (2, .oracle (.depositChallengeBond ⟨3⟩ 1000000 0)),
      (2, .oracle (.challengeReport ⟨3⟩ 1 9 1)),
      (3, .oracle (.resolveChallenge ⟨0⟩ 1 .rejected 3))]
  obtain ⟨h', c, h, w', hrun', hview⟩ := Run.of_play_split machine ops 4
    (fun h' c _ w' => decide ((c.post.oracle.provider ⟨1⟩).map OracleProvider.stake = some 5 ∧
      (w'.oracle.provider ⟨1⟩).map OracleProvider.stake = some 0 ∧
      (c.post.oracle.slashHistory ⟨1⟩).length = 0 ∧ (w'.oracle.slashHistory ⟨1⟩).length = 1 ∧
      ∀ d ∈ h', d.op.staked ⟨1⟩ = 0)) (Init.deploy ⟨0⟩ ⟨100⟩ ⟨101⟩ ⟨102⟩) (by decide)
  obtain ⟨hstake, hlast, hbefore, hafter, hnone⟩ := of_decide_eq_true hview
  obtain ⟨p, hp, hstake⟩ := Option.map_eq_some_iff.mp hstake
  obtain ⟨hpast, ht, hexec⟩ := hrun'.past
  have hrun : Run (c :: h) c.post := hpast.call ht hexec
  obtain ⟨-, -, hsafe, -, hruined, -⟩ := slash_safe_iff hrun hp
  obtain ⟨q, hq, -⟩ := Option.map_eq_some_iff.mp hlast
  -- one penalty for each rejected report
  have hmany : (rejectedReports c.post.oracle ⟨1⟩).ncard + (p.stake - 9).toNat <
      (rejectedReports w'.oracle ⟨1⟩).ncard := by
    rw [← (stakes_accounted hrun hp).slashes, ← (stakes_accounted hrun' hq).slashes, hbefore,
      hafter, hstake]
    decide
  obtain ⟨p', hp', hzero, hinactive⟩ := hruined h' w' hrun' hnone hmany
  exact ⟨_, h', _, w', p, p', hrun, hrun', hp, hstake, hsafe.mpr (by rw [hstake]; decide), hp',
    hzero, hinactive⟩

/-- A provider stakes all that an `i128` can hold. A tenth of it would not be all. The
multiplication overflows, and all of the stake is taken. -/
theorem slash_not_safe : ¬ ∀ (h : List Call) (w : World), Run h w → ∀ v p,
    w.oracle.provider v = some p → SlashSafe p.stake := by
  intro hclaim
  let ops : List (ℕ × Op) := (onboard ⟨0⟩ ⟨5⟩ ⟨1⟩ ⟨2⟩ ⟨100⟩ ⟨102⟩ 7).append
    [(1, .oracle (.addStake ⟨1⟩ maxValue 0))]
  have hplay : (machine.play [] (deploy ⟨0⟩ ⟨100⟩ ⟨101⟩ ⟨102⟩) ops).map
      (fun x => (x.2.oracle.provider ⟨1⟩).map OracleProvider.stake) = some (some maxValue) := by
    decide
  obtain ⟨h, w, hrun, hview⟩ := Run.of_play (Init.deploy ⟨0⟩ ⟨100⟩ ⟨101⟩ ⟨102⟩) hplay
  obtain ⟨p, hp, hstake⟩ := Option.map_eq_some_iff.mp hview
  have hsafe := hclaim h w hrun ⟨1⟩ p hp
  rw [hstake] at hsafe
  have htenth : slashableAmount maxValue = maxValue / 10 := hsafe.tenth (by decide)
  exact absurd htenth (by decide)

end Protocol
end NbsBond
