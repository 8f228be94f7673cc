import NbsBond.OracleConsumer.Council
import NbsBond.OracleConsumer.Locks

/-!
# Where the bonds are

Whatever an address has paid in as challenge bonds is free, locked for an open challenge of its own,
burned with a challenge that was decided against it, or paid out. `worth` is what the contract owes
or has burned; `Move.worth` says that it moves with the payments only, as long as a refund does not
leave the `i128` range.
-/

namespace NbsBond
namespace OracleConsumer

open Soroban Int128 Pledges

/-! ### Burned bonds -/

/-- The bond of a challenge against a report that was upheld, made out to the challenger who lost
it. -/
def burnedPledge (d : Docket) (r : ReportId) : Option (Pledge Address ℤ) :=
  match d.challenge r with
  | some ch =>
    if ch.resolved = true ∧ ch.resolution = discriminant .verified then
      some ⟨ch.challenger, ch.bond⟩
    else none
  | none => none

theorem burnedPledge_upheld {d : Docket} {r : ReportId} {ch : Challenge}
    (hch : d.challenge r = some ch) (hresolved : ch.resolved = true)
    (hupheld : ch.resolution = discriminant .verified) :
    burnedPledge d r = some ⟨ch.challenger, ch.bond⟩ := by
  unfold burnedPledge
  rw [hch]
  exact if_pos ⟨hresolved, hupheld⟩

theorem burnedPledge_open {d : Docket} {r : ReportId} {ch : Challenge}
    (hch : d.challenge r = some ch) (hopen : ch.resolved = false) : burnedPledge d r = none := by
  unfold burnedPledge
  rw [hch]
  exact if_neg fun h => by simp [hopen] at h

theorem burnedPledge_returned {d : Docket} {r : ReportId} {ch : Challenge}
    (hch : d.challenge r = some ch) (hreturned : ch.resolution ≠ discriminant .verified) :
    burnedPledge d r = none := by
  unfold burnedPledge
  rw [hch]
  exact if_neg fun h => hreturned h.2

theorem burnedPledge_unused {d : Docket} {r : ReportId} (hch : d.challenge r = none) :
    burnedPledge d r = none := by
  unfold burnedPledge
  rw [hch]

theorem burnedPledge_eq_some {d : Docket} {r : ReportId} {p : Pledge Address ℤ} :
    burnedPledge d r = some p ↔ ∃ ch, d.challenge r = some ch ∧
      (ch.resolved = true ∧ ch.resolution = discriminant .verified) ∧
      p = ⟨ch.challenger, ch.bond⟩ := by
  constructor
  · intro hp
    unfold burnedPledge at hp
    split at hp
    · next ch hch =>
      split at hp
      · next hupheld =>
        cases hp
        exact ⟨ch, hch, hupheld, rfl⟩
      · cases hp
    · cases hp
  · rintro ⟨ch, hch, ⟨hresolved, hupheld⟩, rfl⟩
    exact burnedPledge_upheld hch hresolved hupheld

theorem burnedPledge_update {d d' : Docket} {r : ReportId}
    (hchallenge : ∀ q, q ≠ r → d'.challenge q = d.challenge q) :
    burnedPledge d' = Function.update (burnedPledge d) r (burnedPledge d' r) := by
  ext1 q
  by_cases hq : q = r
  · rw [hq, Function.update_self]
  · rw [Function.update_of_ne hq]
    unfold burnedPledge
    rw [hchallenge q hq]

theorem LifeCycle.finite_burnedPledge {d : Docket} (hL : LifeCycle d) :
    {r | burnedPledge d r ≠ none}.Finite := by
  refine hL.finite_reports.subset ?_
  intro r hr hnone
  exact hr (burnedPledge_unused (hL.unused r hnone).1)

/-! ### The table of challenges -/

/-- What a call does to the challenges: nothing, or it opens one, or it closes one. A closed
challenge stays as it is. -/
inductive ChallengeStep (now : ℕ) (s s' : State) : Prop
  | same (hsame : s'.challenge = s.challenge)
  | opened {r : ReportId} {challenger : Address} {hash : Bytes32} (hnew : s.challenge r = none)
      (hopened : s'.challenge = Function.update s.challenge r
        (some ⟨r, challenger, hash, now, false, 0, challengeBond⟩))
  | closed {r : ReportId} {ch ch' : Challenge} (hch : s.challenge r = some ch)
      (hopen : ch.resolved = false) (hresolved : ch'.resolved = true)
      (hclosed : s'.challenge = Function.update s.challenge r (some ch'))

theorem Verdict.challenge_eq {now : ℕ} {own : Address} {regs regs' : Registries} {s s' : State}
    {c : Council} {r : ReportId} {rep : Report} {ch : Challenge} {resolution : ReportStatus}
    (h : Verdict now own regs regs' (OracleConsumer.docket s) c s' r rep ch resolution) :
    s'.challenge = Function.update s.challenge r (some (resolvedChallenge ch resolution)) := by
  show (OracleConsumer.docket s').challenge = _
  rw [h.docket, Docket.resolve_challenge]
  rfl

theorem Move.challengeStep {now : ℕ} {own : Address} {regs regs' : Registries} {s s' : State}
    {op : Op} (hmove : Move now own regs regs' s s' op) : ChallengeStep now s s' := by
  cases hmove with
  | idle _ _ hchallenge _ _ => exact .same hchallenge
  | challenge hnew _ _ hchallenge _ _ => exact .opened hnew hchallenge
  -- a decision closes the challenge it decides, whoever takes it
  | rule _ hverdict =>
    exact .closed hverdict.challenge hverdict.opened rfl hverdict.challenge_eq
  | concur _ _ hverdict =>
    exact .closed hverdict.challenge hverdict.opened rfl hverdict.challenge_eq
  | expire hch hopen _ hchallenge _ _ => exact .closed hch hopen rfl hchallenge
  | register _ _ hamends | remove _ _ hamends | vote _ _ hamends | setThreshold _ _ hamends
  | addStake _ _ _ hamends | withdrawStake _ _ _ _ hamends | depositBond _ _ hamends
  | withdrawBond _ _ hamends | setRegistry _ hamends | propose _ hamends | cancel _ _ hamends
  | accept _ _ _ hamends => exact .same (congrArg Docket.challenge hamends.docket)

/-- An open challenge has no resolution yet. -/
def Unmarked (s : State) : Prop :=
  ∀ r ch, s.challenge r = some ch → ch.resolved = false → ch.resolution = 0

theorem Unmarked.step {now : ℕ} {s s' : State} (hU : Unmarked s)
    (hstep : ChallengeStep now s s') : Unmarked s' := by
  intro r ch hch hopen
  cases hstep with
  | same hsame =>
    rw [hsame] at hch
    exact hU r ch hch hopen
  | opened hnew hopened =>
    -- a new challenge has resolution 0
    rw [hopened, Function.update_apply] at hch
    split at hch
    · cases hch
      rfl
    · exact hU r ch hch hopen
  | closed _ _ hresolved hclosed =>
    -- the one that was written is no longer open
    rw [hclosed, Function.update_apply] at hch
    split at hch
    · cases hch
      rw [hresolved] at hopen
      cases hopen
    · exact hU r ch hch hopen

/-! ### The worth of an account -/

/-- What address `a` has free, locked or burned. -/
noncomputable def worth (s : State) (a : Address) : ℤ :=
  s.challengeBondBalance a + total (bondPledge (docket s)) a + total (burnedPledge (docket s)) a

/-- What a call pays in for address `a`. -/
def Op.paidIn (a : Address) : Op → ℤ
  | .depositChallengeBond caller amount _ => if caller = a then amount else 0
  | _ => 0

/-- What a call pays out to address `a`. -/
def Op.paidOut (a : Address) : Op → ℤ
  | .withdrawChallengeBond caller amount _ => if caller = a then amount else 0
  | _ => 0

/-- The contract can return every bond that address `a` has locked. -/
def RoomFor (s : State) (a : Address) : Prop :=
  ∀ r ch, s.challenge r = some ch → ch.resolved = false → ch.challenger = a →
    InRange (s.challengeBondBalance a + ch.bond)

section Worth

variable {s s' : State} {a : Address}

/-- A call that leaves the challenges alone. -/
theorem worth_congr (hchallenge : s'.challenge = s.challenge) :
    worth s' a = worth s a + (s'.challengeBondBalance a - s.challengeBondBalance a) := by
  have hbond : bondPledge (docket s') = bondPledge (docket s) := by
    ext1 r
    show (match s'.challenge r with | some _ => _ | none => _) = _
    rw [hchallenge]
    rfl
  have hburned : burnedPledge (docket s') = burnedPledge (docket s) := by
    ext1 r
    show (match s'.challenge r with | some _ => _ | none => _) = _
    rw [hchallenge]
    rfl
  unfold worth
  rw [hbond, hburned]
  ring

/-- A call that writes the challenge of one report. -/
theorem worth_write (hL : LifeCycle (docket s)) {r : ReportId} {x : Option Challenge}
    (hchallenge : s'.challenge = Function.update s.challenge r x) :
    worth s' a = worth s a + (s'.challengeBondBalance a - s.challengeBondBalance a) +
      (part a (bondPledge (docket s') r) - part a (bondPledge (docket s) r)) +
      (part a (burnedPledge (docket s') r) - part a (burnedPledge (docket s) r)) := by
  -- no other pledge moves, of either kind
  have hother : ∀ q, q ≠ r → (docket s').challenge q = (docket s).challenge q := by
    intro q hq
    show s'.challenge q = _
    rw [hchallenge, Function.update_of_ne hq]
    rfl
  unfold worth
  rw [bondPledge_update hother, total_update hL.finite_bondPledge, burnedPledge_update hother,
    total_update hL.finite_burnedPledge]
  rw [Function.update_self, Function.update_self]
  ring

/-- A refund of a bond that is locked gives all of it back. -/
theorem Council.refund_bondBalance {c : Council} {v : Address} {bond locked : ℤ} (hpos : 0 < bond)
    (hlocked : bond ≤ locked) : (c.refund v bond locked).bondBalance =
      Function.update c.bondBalance v (wrap (c.bondBalance v + bond)) := by
  unfold refund
  rw [if_neg (not_le.mpr hpos), min_eq_left hlocked]
  rfl

/-- Closing a challenge takes its bond out of what is locked. -/
theorem worth_close (hL : LifeCycle (docket s)) {r : ReportId} {ch ch' : Challenge}
    (hch : s.challenge r = some ch) (hopen : ch.resolved = false) (hresolved : ch'.resolved = true)
    (hchallenge : s'.challenge = Function.update s.challenge r (some ch')) :
    worth s' a = worth s a + (s'.challengeBondBalance a - s.challengeBondBalance a) -
      part a (some ⟨ch.challenger, ch.bond⟩) + part a (burnedPledge (docket s') r) := by
  have hch' : (docket s').challenge r = some ch' := by
    show s'.challenge r = _
    rw [hchallenge, Function.update_self]
  rw [worth_write hL hchallenge, bondPledge_resolved hch' hresolved,
    bondPledge_open (d := docket s) hch hopen, burnedPledge_open (d := docket s) hch hopen,
    part_none]
  ring

/-- Closing a challenge and refunding its bond moves it from locked to free. -/
theorem worth_refund (hL : LifeCycle (docket s)) (hB : BondLocks (docket s)) {r : ReportId}
    {ch ch' : Challenge} (hch : s.challenge r = some ch) (hopen : ch.resolved = false)
    (hroom : RoomFor s a) (hresolved : ch'.resolved = true)
    (hreturned : ch'.resolution ≠ discriminant .verified)
    (hchallenge : s'.challenge = Function.update s.challenge r (some ch'))
    {c : Council} (hfree : c.bondBalance = s.challengeBondBalance)
    (hbalance : s'.challengeBondBalance =
      (c.refund ch.challenger ch.bond (s.challengeBondLock ch.challenger)).bondBalance) :
    worth s' a = worth s a ∧ s.challengeBondBalance a ≤ s'.challengeBondBalance a := by
  -- the bond is positive and locked, so that the refund is the whole of it
  have hpos : 0 < ch.bond := by
    rw [hB.bonds r ch hch]
    decide
  have hlocked : ch.bond ≤ s.challengeBondLock ch.challenger := hB.bond_le hL hch hopen
  rw [Council.refund_bondBalance hpos hlocked, hfree] at hbalance
  have hch' : (docket s').challenge r = some ch' := by
    show s'.challenge r = _
    rw [hchallenge, Function.update_self]
  rw [worth_close hL hch hopen hresolved hchallenge, burnedPledge_returned hch' hreturned,
    part_none, hbalance]
  by_cases ha : ch.challenger = a
  · subst ha
    -- the balance wraps, unless it has room
    have hexact := wrap_of_inRange (hroom r ch hch hopen rfl)
    rw [Function.update_self, hexact, part_self ⟨ch.challenger, ch.bond⟩]
    constructor
    · ring
    · linarith
  · rw [Function.update_of_ne (Ne.symm ha), part_of_ne ha]
    constructor
    · ring
    · exact le_refl _

/-- A decision takes the bond from what is locked: it is burned when the report is upheld, and free
again when it is rejected. -/
theorem worth_decide {now : ℕ} {own : Address} {regs regs' : Registries} {c : Council}
    {r : ReportId} {rep : Report} {ch : Challenge} {resolution : ReportStatus}
    (hL : LifeCycle (docket s)) (hB : BondLocks (docket s)) (hroom : RoomFor s a)
    (hverdict : Verdict now own regs regs' (docket s) c s' r rep ch resolution)
    (hfree : c.bondBalance = s.challengeBondBalance) :
    worth s' a = worth s a ∧ (0 ≤ s.challengeBondBalance a → 0 ≤ s'.challengeBondBalance a) := by
  have houtcome := hverdict.outcome
  generalize hcouncil : council s' = c' at houtcome
  cases houtcome with
  | upheld =>
    -- nothing is returned: the pledge passes from locked to burned
    have hbalance : s'.challengeBondBalance = s.challengeBondBalance :=
      (congrArg Council.bondBalance hcouncil).trans hfree
    have hch' : (docket s').challenge r = some (resolvedChallenge ch .verified) := by
      show s'.challenge r = _
      rw [hverdict.challenge_eq, Function.update_self]
    have hworth : worth s' a = _ := worth_close hL hverdict.challenge hverdict.opened rfl
      hverdict.challenge_eq
    rw [hworth, burnedPledge_upheld hch' rfl rfl, hbalance]
    refine ⟨?_, id⟩
    show _ - part a (some ⟨ch.challenger, ch.bond⟩) + part a (some ⟨ch.challenger, ch.bond⟩) = _
    ring
  | rejected hprovider hrevokes =>
    -- the penalty and the revocation come first and touch no free bond
    obtain ⟨hworth, hmore⟩ :=
      worth_refund (a := a) hL hB hverdict.challenge hverdict.opened hroom rfl
      (show discriminant .rejected ≠ discriminant .verified by decide) hverdict.challenge_eq
      (c := Council.countRevocation _) (by rw [Council.countRevocation_eq]; exact hfree)
      (congrArg Council.bondBalance hcouncil)
    exact ⟨hworth, fun hnonneg => hnonneg.trans hmore⟩

/-- **One call.** What an address has free, locked or burned changes by what the call pays in and
out for it, and its free bonds do not become negative. -/
theorem Move.worth {now : ℕ} {own : Address} {regs regs' : Registries} {op : Op}
    (hmove : Move now own regs regs' s s' op) (hL : LifeCycle (docket s))
    (hB : BondLocks (docket s)) (hU : Unmarked s) (hroom : RoomFor s a) :
    OracleConsumer.worth s' a = OracleConsumer.worth s a + op.paidIn a - op.paidOut a ∧
      (0 ≤ s.challengeBondBalance a → 0 ≤ s'.challengeBondBalance a) := by
  -- a call that pays nothing and leaves challenges and free bonds alone
  have hkept : ∀ {op : Op}, op.paidIn a = 0 → op.paidOut a = 0 → s'.challenge = s.challenge →
      s'.challengeBondBalance = s.challengeBondBalance →
      OracleConsumer.worth s' a = OracleConsumer.worth s a + op.paidIn a - op.paidOut a ∧
        (0 ≤ s.challengeBondBalance a → 0 ≤ s'.challengeBondBalance a) := by
    intro op hin hout hchallenge hbalance
    rw [worth_congr hchallenge, hin, hout, hbalance, sub_self, add_zero, sub_zero]
    exact ⟨rfl, id⟩
  -- a payment to or from the free bonds of one address
  have hpaid : ∀ (v : Address) (amount : ℤ), s'.challenge = s.challenge →
      s'.challengeBondBalance = Function.update s.challengeBondBalance v
        (s.challengeBondBalance v + amount) →
      OracleConsumer.worth s' a = OracleConsumer.worth s a + if v = a then amount else 0 := by
    intro v amount hchallenge hbalance
    rw [worth_congr hchallenge, hbalance]
    by_cases ha : v = a
    · subst ha
      rw [Function.update_self, if_pos rfl, add_sub_cancel_left]
    · rw [Function.update_of_ne (Ne.symm ha), if_neg ha, sub_self]
  cases hmove with
  | @idle op hop hcouncil hchallenge _ _ =>
    refine hkept ?_ ?_ hchallenge (congrArg Council.bondBalance hcouncil)
    -- none of the calls that may idle pays
    · cases op <;> first | rfl | cases hop
    · cases op <;> first | rfl | cases hop
  | @challenge challenger r hash _ hnew hbalance hcouncil hchallenge _ _ =>
    -- from free to locked, so the worth stays
    have hfree : s'.challengeBondBalance = Function.update s.challengeBondBalance challenger
        (s.challengeBondBalance challenger - challengeBond) :=
      congrArg Council.bondBalance hcouncil
    have hch : (docket s').challenge r =
        some ⟨r, challenger, hash, now, false, 0, challengeBond⟩ := by
      show s'.challenge r = _
      rw [hchallenge, Function.update_self]
    rw [worth_write hL hchallenge, bondPledge_open hch rfl, burnedPledge_open hch rfl,
      bondPledge_unused (d := docket s) hnew, burnedPledge_unused (d := docket s) hnew, part_none,
      hfree]
    by_cases ha : challenger = a
    · subst ha
      rw [Function.update_self, part_self ⟨challenger, challengeBond⟩]
      refine ⟨?_, fun _ => sub_nonneg.mpr hbalance⟩
      show _ = _ + 0 - 0
      ring
    · rw [Function.update_of_ne (Ne.symm ha), part_of_ne ha]
      refine ⟨?_, id⟩
      show _ = _ + 0 - 0
      ring
  | rule _ hverdict =>
    obtain ⟨hworth, hnonneg⟩ := worth_decide hL hB hroom hverdict rfl
    rw [hworth]
    exact ⟨by show _ = _ + 0 - 0; ring, hnonneg⟩
  | concur _ _ hverdict =>
    obtain ⟨hworth, hnonneg⟩ := worth_decide hL hB hroom hverdict rfl
    rw [hworth]
    exact ⟨by show _ = _ + 0 - 0; ring, hnonneg⟩
  | @expire r ch hch hopen hcouncil hchallenge _ _ =>
    -- a lapsed challenge has resolution 0, which is not that of an upheld report
    have hreturned : ch.resolution ≠ discriminant .verified := by
      rw [hU r ch hch hopen]
      decide
    let lapsed : Challenge := { ch with resolved := true }
    have hlapsed : lapsed.resolved = true := rfl
    obtain ⟨hworth, hmore⟩ := worth_refund (a := a) (c := council s) hL hB hch hopen hroom hlapsed
      hreturned hchallenge rfl (congrArg Council.bondBalance hcouncil)
    rw [hworth]
    exact ⟨by show _ = _ + 0 - 0; ring, fun hnonneg => hnonneg.trans hmore⟩
  | @depositBond caller amount _ hpos _ hamends =>
    have hchallenge : s'.challenge = s.challenge := congrArg Docket.challenge hamends.docket
    have hfree := congrArg Council.bondBalance hamends.council
    rw [hpaid caller amount hchallenge hfree]
    refine ⟨by show _ = _ + (if caller = a then amount else 0) - 0; ring, fun hnonneg => ?_⟩
    show 0 ≤ (council s').bondBalance a
    rw [hfree]
    show 0 ≤ Function.update s.challengeBondBalance caller _ a
    rw [Function.update_apply]
    split
    · next ha =>
      subst ha
      omega
    · exact hnonneg
  | @withdrawBond caller amount _ _ hle hamends =>
    have hchallenge : s'.challenge = s.challenge := congrArg Docket.challenge hamends.docket
    have hfree := congrArg Council.bondBalance hamends.council
    have hworth := hpaid caller (-amount) hchallenge hfree
    rw [hworth]
    refine ⟨?_, fun hnonneg => ?_⟩
    · show _ = _ + 0 - (if caller = a then amount else 0)
      split <;> ring
    · show 0 ≤ (council s').bondBalance a
      rw [hfree]
      show 0 ≤ Function.update s.challengeBondBalance caller _ a
      rw [Function.update_apply]
      split
      · exact sub_nonneg.mpr hle
      · exact hnonneg
  | register _ _ hamends | remove _ _ hamends | vote _ _ hamends | setThreshold _ _ hamends
  | addStake _ _ _ hamends | withdrawStake _ _ _ _ hamends | setRegistry _ hamends
  | propose _ hamends | cancel _ _ hamends | accept _ _ _ hamends =>
    exact hkept rfl rfl (congrArg Docket.challenge hamends.docket)
      (congrArg Council.bondBalance hamends.council)

end Worth

end OracleConsumer
end NbsBond
