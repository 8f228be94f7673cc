import NbsBond.OracleConsumer.Electorate
import NbsBond.Protocol.Reports

/-!
# Supermajorities of the live set

A challenge that verifiers decide is decided by the length of a list of votes, compared with the
number of providers active at that moment. The votes stay on record until the decision, and a
provider that is removed, or slashed to nothing, in between still counts with the vote it cast.

`supermajority_of_kept_voters` is the rule that results: as long as no call deactivates a provider
whose vote is on record, the side that wins has two thirds of the active providers behind it. The
proof goes along the calls before the decision. What one of them leaves of the votes is
`Move.votes_change`, what it leaves of the voters is `Move.isActive_kept`, so that the voters on
record are all active (`voters_active_of_run`). `carried_iff_staleVotes` then counts:
the decision falls short of two thirds by what the stale votes exceed the surplus over the
threshold, and there are no stale votes.
-/

namespace NbsBond
namespace Protocol

open Soroban OracleConsumer

/-- In call `c` a vote for the side `uphold` resolved the open challenge of report `r`. The vote may
be any one in the run; that the challenge was still open before it is what makes it the deciding
one. -/
structure Decides (c : Call) (r : ReportId) (uphold : Bool) : Prop where
  call : ∃ caller nonce, c.op = .oracle (.resolveChallengeByVerifier caller r uphold nonce)
  before : ∃ ch, c.pre.oracle.challenge r = some ch ∧ ch.resolved = false
  after : ∃ ch, c.post.oracle.challenge r = some ch ∧ ch.resolved = true

/-- The providers active in `s`. -/
def actives (s : OracleConsumer.State) : Set Address := {a | isActive s a = true}

/-- Those of them, other than the one who submitted report `r`, that are among the voters for the
side `uphold` in `s'`. The submitter of a report cannot vote on it, so that leaving it out costs
nothing (`supporters_ncard`). -/
def supporters (s s' : OracleConsumer.State) (r : ReportId) (uphold : Bool) : Set Address :=
  {a | isActive s a = true ∧ (∀ rep, s'.report r = some rep → a ≠ rep.provider) ∧
    a ∈ votes s' r uphold}

/-- Two thirds of the providers active in `s` voted for the side `uphold`. This is written without
division: two thirds of a number of providers need not be a whole number of them. -/
def Carried (s s' : OracleConsumer.State) (r : ReportId) (uphold : Bool) : Prop :=
  2 * (actives s).ncard ≤ 3 * (supporters s s' r uphold).ncard

/-- The votes on record for a side whose casters are no longer active. They are on record all the
same: a removal writes the provider's entry and no list of votes. -/
def staleVotes (s : OracleConsumer.State) (r : ReportId) (uphold : Bool) : ℕ :=
  (votes s r uphold).countP fun a => !isActive s a

/-- By how much one more vote for a side exceeds the threshold. The subtraction is truncated, but
the deciding vote has reached the threshold (`Decides.concur`). -/
def surplus (s : OracleConsumer.State) (r : ReportId) (uphold : Bool) : ℕ :=
  (votes s r uphold).length + 1 - supermajorityThreshold (activeProviderCount s)

theorem supermajorityThreshold_le_iff {active v : ℕ} (hv : 1 ≤ v) :
    supermajorityThreshold active ≤ v ↔ 2 * active ≤ 3 * v := by
  unfold supermajorityThreshold
  -- the threshold is two thirds, rounded up, and at least one
  omega

/-- The electorate of every reached state. -/
theorem electorate_of_run {h : List Call} {w : World} (hrun : Run h w) :
    Electorate (council w.oracle) :=
  oracle_invariant (P := fun s => Electorate (council s)) hrun Electorate.initial
    fun _ hE _ hmove => hE.step hmove

/-- Nobody has voted on a challenge of its own report. -/
theorem votesForeign_of_run {h : List Call} {w : World} (hrun : Run h w) :
    VotesForeign w.oracle := by
  refine oracle_invariant (P := VotesForeign) hrun ?_ fun hL hV hstep hmove =>
    hV.step hL hstep hmove
  intro admin r side a ha
  -- no votes to begin with
  cases side <;> exact absurd ha List.not_mem_nil

/-- **Counting the supporters.** They are the voters that are still active. Nobody votes twice for
one side, so the length of the list is the number of its voters. -/
theorem supporters_ncard {s s' : OracleConsumer.State} {r : ReportId} {uphold : Bool}
    (hdistinct : (votes s' r uphold).Nodup) (hforeign : VotesForeign s') :
    (supporters s s' r uphold).ncard = (votes s' r uphold).countP (isActive s) := by
  rw [Counting.countP_eq_ncard hdistinct]
  -- a voter is not the submitter anyway
  congr 1
  -- one inclusion forgets the report, the other finds it in `hforeign`
  refine Set.ext fun a => ⟨fun ha => ⟨ha.2.2, ha.1⟩, fun ha => ⟨ha.2, fun rep hrep => ?_, ha.1⟩⟩
  obtain ⟨rep', hrep', hne⟩ := hforeign r uphold a ha.1
  rw [hrep] at hrep'
  cases hrep'
  exact hne

/-- The vote that decides is cast by an active provider, and the list it completes has reached the
threshold. It also says what the decision itself does to the state, which is needed because it may
slash the submitter. -/
theorem Decides.concur {c : Call} {r : ReportId} {uphold : Bool} (hdecides : Decides c r uphold)
    (hexec : machine.exec c.time c.pre c.op = .ok (c.post, c.ret)) :
    ∃ caller, isActive c.pre.oracle caller = true ∧
      votes c.post.oracle r uphold = votes c.pre.oracle r uphold ++ [caller] ∧
      supermajorityThreshold (activeProviderCount c.pre.oracle) ≤
        (votes c.pre.oracle r uphold).length + 1 ∧
      ∃ rep ch regs', (∃ rep', c.post.oracle.report r = some rep' ∧ rep'.provider = rep.provider) ∧
        Outcome c.time c.pre.oracleId c.pre.registries
        ((council c.pre.oracle).cast r caller uphold)
        (c.pre.oracle.challengeBondLock ch.challenger) r rep ch
        (if uphold then .verified else .rejected) (council c.post.oracle) regs' := by
  obtain ⟨t, pre, op, ret, post⟩ := c
  obtain ⟨⟨caller, nonce, hop⟩, ⟨ch, hch, hopen⟩, ⟨ch', hch', hresolved⟩⟩ := hdecides
  dsimp only at hop hch hch' hexec ⊢
  subst hop
  have hvotes : ∀ {votes' : ReportId × Bool → List Address},
      (council post.oracle).votes = votes' → votes post.oracle r uphold = votes' (r, uphold) := by
    rintro votes' rfl
    rfl
  obtain ⟨_, heq, hmove⟩ | ⟨hne, -⟩ := (step_of_exec hexec).move
  swap
  -- the call is one of the oracle's
  · exact absurd rfl (hne _)
  cases heq
  cases hmove with
  | idle hop => cases hop
  | vote hmay _ hamends =>
    -- short of the threshold the challenge stays open
    have hkept : post.oracle.challenge = pre.oracle.challenge :=
      congrArg Docket.challenge hamends.docket
    rw [hkept, hch] at hch'
    cases hch'
    rw [hopen] at hresolved
    cases hresolved
  -- at the threshold, which counts this vote
  | @concur _ _ _ _ rep ch₀ hmay hreached hverdict =>
    refine ⟨caller, hmay.active, ?_, hreached, rep, ch₀, _,
      ⟨resolvedReport t rep (if uphold then .verified else .rejected), ?_, rfl⟩,
      hverdict.outcome⟩
    -- the decision keeps the votes, the last one included
    · rw [hvotes hverdict.outcome.keeps.2.2.2.1]
      exact Function.update_self _ _ _
    · show (docket post.oracle).report r = _
      rw [hverdict.docket, Docket.resolve_report, Function.update_self]

/-- **Counting a decision.** The deciding call carries two thirds of the providers active before it
exactly when the stale votes on record for that side are within the surplus, and it then carries two
thirds of those active after it. Both sides are numbers of the state before the call, so that what
is counted here is one step; how a run keeps the stale votes at zero is the part below. -/
theorem carried_iff_staleVotes {h₁ h₂ : List Call} {w : World} {c : Call}
    (hrun : Run (h₁ ++ c :: h₂) w) {r : ReportId} {uphold : Bool}
    (hdecides : Decides c r uphold) :
    (Carried c.pre.oracle c.post.oracle r uphold ↔
      staleVotes c.pre.oracle r uphold ≤ surplus c.pre.oracle r uphold) ∧
    (staleVotes c.pre.oracle r uphold ≤ surplus c.pre.oracle r uphold →
      Carried c.post.oracle c.post.oracle r uphold) := by
  obtain ⟨hpast, ht, hexec⟩ := hrun.past
  have hpost : Run (c :: h₂) c.post := hpast.call ht hexec
  obtain ⟨caller, hactive, hvotes, hreached, rep, ch, regs', ⟨rep', hrep', hprovider⟩,
    houtcome⟩ := hdecides.concur hexec
  -- no vote is counted twice, so that counting votes is counting voters
  have hdistinct : (votes c.post.oracle r uphold).Nodup :=
    (electorate_of_run hpost).distinct (r, uphold)
  have hforeign := votesForeign_of_run hpost
  have hactives : (actives c.pre.oracle).ncard = activeProviderCount c.pre.oracle :=
    (electorate_of_run hpast).activeCount_eq_ncard.symm
  -- the supporters are the votes on record that are not stale, and the caller
  have hsupport : (supporters c.pre.oracle c.post.oracle r uphold).ncard +
      staleVotes c.pre.oracle r uphold = (votes c.pre.oracle r uphold).length + 1 := by
    rw [supporters_ncard hdistinct hforeign, hvotes, List.countP_append, List.countP_singleton,
      if_pos hactive]
    -- each vote on record is stale or cast by somebody active
    have hsplit := List.length_eq_countP_add_countP (isActive c.pre.oracle)
      (l := votes c.pre.oracle r uphold)
    unfold staleVotes
    simp only [Bool.not_eq_true, Bool.decide_eq_false] at hsplit
    omega
  -- the caller supports the side
  have hpositive : 1 ≤ (supporters c.pre.oracle c.post.oracle r uphold).ncard := by
    rw [supporters_ncard hdistinct hforeign, hvotes, List.countP_append, List.countP_singleton,
      if_pos hactive]
    exact Nat.le_add_left 1 _
  have hiff : Carried c.pre.oracle c.post.oracle r uphold ↔
      staleVotes c.pre.oracle r uphold ≤ surplus c.pre.oracle r uphold := by
    unfold Carried surplus
    -- two thirds of the active providers are the threshold
    rw [hactives, ← supermajorityThreshold_le_iff hpositive]
    omega
  refine ⟨hiff, fun hstale => ?_⟩
  have hcarried := hiff.mpr hstale
  -- the decision may cost the submitter its activity, which makes the live set smaller
  have hsame : supporters c.post.oracle c.post.oracle r uphold =
      supporters c.pre.oracle c.post.oracle r uphold := by
    refine Set.ext fun a => and_congr_left fun hother => ?_
    have ha : a ≠ rep.provider := hprovider ▸ hother.1 rep' hrep'
    exact Bool.eq_iff_iff.mp (houtcome.isActive_of_ne ha)
  have hshrinks : (actives c.post.oracle).ncard ≤ (actives c.pre.oracle).ncard :=
    Set.ncard_le_ncard (fun a ha => houtcome.active_before ha)
      (electorate_of_run hpast).finite_active
  -- fewer active providers, the same supporters
  unfold Carried at hcarried ⊢
  rw [hsame]
  omega

/-! ### The voters stay -/

/-- The call deactivates nobody whose vote for the side `uphold` on report `r` is on record. What
`op.Deactivates` says of a call is what it writes: a removal, or a slash that leaves nothing.
Deactivating anybody else is allowed. -/
def Op.KeepsVoters (r : ReportId) (uphold : Bool) (w : World) : Op → Prop
  | .oracle op => ∀ v ∈ votes w.oracle r uphold, ¬ op.Deactivates w.oracle v
  | _ => True

/-- Everybody whose vote for the side `uphold` on report `r` is on record is active. -/
def VotersActive (r : ReportId) (uphold : Bool) (s : OracleConsumer.State) : Prop :=
  ∀ v ∈ votes s r uphold, isActive s v = true

/-- **One call** that keeps the voters. The one that a new vote adds is active, and voting does not
cost it its own stake: what a decision slashes is the stake of the provider of the report. -/
theorem VotersActive.step {now : ℕ} {own : Address} {regs regs' : Registries}
    {s s' : OracleConsumer.State} {op : OracleConsumer.Op} {r : ReportId} {uphold : Bool}
    (hV : VotersActive r uphold s) (hmove : Move now own regs regs' s s' op)
    (hkeeps : ∀ v ∈ votes s r uphold, ¬ op.Deactivates s v) : VotersActive r uphold s' := by
  intro v hv
  -- a vote that was on record before the call
  have hold : v ∈ votes s r uphold → isActive s' v = true := fun hmem =>
    hmove.isActive_kept (hV v hmem) (hkeeps v hmem)
  change v ∈ (council s').votes (r, uphold) at hv
  obtain ⟨caller, r₀, side, nonce, rfl, hmay, hvotes⟩ | hvotes := hmove.votes_change
  swap
  -- no vote is cast
  · rw [hvotes] at hv
    exact hold hv
  rw [hvotes] at hv
  change v ∈ Function.update (council s).votes (r₀, side) _ (r, uphold) at hv
  rw [Function.update_apply] at hv
  split at hv
  swap
  · exact hold hv
  -- the vote goes to the side in question
  next hkey =>
  cases hkey
  rcases List.mem_append.mp hv with hmem | hnew
  · exact hold hmem
  -- the caller votes on the report of somebody else, which is the one that can be slashed
  rw [List.mem_singleton] at hnew
  subst hnew
  refine hmove.isActive_kept hmay.active ?_
  -- a decision by this very vote would have to slash the caller
  rintro ⟨-, -, ⟨⟨rep, hrep, hself⟩, -⟩, -⟩
  obtain ⟨rep', hrep', hother⟩ := hmay.foreign
  rw [show rep' = rep from Option.some.inj (hrep'.symm.trans hrep)] at hother
  exact hother hself.symm

/-- **Along a run** whose calls keep the voters, the voters on record are active. -/
theorem voters_active_of_run {h : List Call} {w : World} (hrun : Run h w) {r : ReportId}
    {uphold : Bool} (hkeeps : ∀ d ∈ h, d.op.KeepsVoters r uphold d.pre) :
    VotersActive r uphold w.oracle := by
  refine hrun.guarded (G := fun w op => op.KeepsVoters r uphold w)
    (P := fun w => VotersActive r uphold w.oracle) ?_ ?_ hkeeps
  · rintro w hinit v hv
    obtain ⟨admin, hadmin⟩ := hinit.oracle
    rw [hadmin] at hv
    -- no votes to begin with
    cases uphold <;> exact absurd hv List.not_mem_nil
  · rintro t w op ret w' hV hop hexec
    obtain ⟨op', rfl, hmove⟩ | ⟨-, hsame⟩ := (step_of_exec hexec).move
    · exact hV.step hmove hop
    · rw [hsame]
      exact hV

/-- **Verifier-decided challenges carry a supermajority of the live set**: the winning side has the
votes of two thirds of the providers active when the deciding vote is cast, and of those active
after it, in every run in which no call before that vote deactivates a provider whose vote for the
side is on record. The condition is about the calls alone. It cannot be dropped
(`supermajority_of_removed`). It leaves room for removals: a provider that has not voted, or has
voted for the other side, may go. -/
theorem supermajority_of_kept_voters {h : List Call} {w : World} (hrun : Run h w) :
    ∀ h₁ c h₂, h = h₁ ++ c :: h₂ → ∀ r uphold, Decides c r uphold →
      (∀ d ∈ h₂, d.op.KeepsVoters r uphold d.pre) →
      Carried c.pre.oracle c.post.oracle r uphold ∧
        Carried c.post.oracle c.post.oracle r uphold := by
  rintro h₁ c h₂ rfl r uphold hdecides hkeeps
  have hactive : VotersActive r uphold c.pre.oracle := voters_active_of_run hrun.past.1 hkeeps
  -- so that no vote is stale
  have hstale : staleVotes c.pre.oracle r uphold = 0 := by
    unfold staleVotes
    rw [List.countP_eq_zero]
    intro a ha
    simp [hactive a ha]
  obtain ⟨hiff, hafter⟩ := carried_iff_staleVotes hrun hdecides
  have hwithin : staleVotes c.pre.oracle r uphold ≤ surplus c.pre.oracle r uphold := by
    rw [hstale]
    exact Nat.zero_le _
  exact ⟨hiff.mpr hwithin, hafter hwithin⟩

/-- The call removes nobody and decides against no report. -/
def Op.sparesProviders : Op → Bool
  | .oracle (.removeProvider ..) => false
  | .oracle (.resolveChallenge ..) => false
  | .oracle (.resolveChallengeByVerifier _ _ uphold _) => uphold
  | _ => true

theorem Op.keepsVoters_of_sparesProviders {w : World} {op : Op} {r : ReportId} {uphold : Bool}
    (h : op.sparesProviders = true) : op.KeepsVoters r uphold w := by
  rcases op with op | ⟨registryId, op⟩ | op | op | op
  case oracle =>
    cases op with
    -- the two calls that may deactivate a provider outright
    | removeProvider | resolveChallenge => cases h
    | resolveChallengeByVerifier =>
      rintro v - ⟨hagainst, -⟩
      subst hagainst
      cases h
    | _ => exact fun v _ hdeactivates => hdeactivates.elim
  all_goals trivial

/-- Of four providers, three vote for the report; two of them had done so before the third. -/
theorem supermajority_of_kept_voters_three_of_four : ∃ h w c, Run (c :: h) w ∧ Decides c 1 true ∧
    Carried c.pre.oracle c.post.oracle 1 true ∧ Carried c.post.oracle c.post.oracle 1 true := by
  let ops : List (ℕ × Op) := (onboard ⟨0⟩ ⟨5⟩ ⟨1⟩ ⟨2⟩ ⟨100⟩ ⟨102⟩ 7).append
    [(1, .oracle (.registerProvider ⟨0⟩ ⟨3⟩ "VM0007" 3)),
      (1, .oracle (.registerProvider ⟨0⟩ ⟨4⟩ "VM0007" 4)),
      (1, .oracle (.submitReport ⟨1⟩ 1 0 10 5000 .absent "VM0007" 3 0)),
      (2, .oracle (.depositChallengeBond ⟨6⟩ 1000000 0)),
      (3, .oracle (.challengeReport ⟨6⟩ 1 0 1)),
      (4, .oracle (.resolveChallengeByVerifier ⟨2⟩ 1 true 0)),
      (4, .oracle (.resolveChallengeByVerifier ⟨3⟩ 1 true 0)),
      (5, .oracle (.resolveChallengeByVerifier ⟨4⟩ 1 true 0))]
  -- the run is evaluated; its last call is the deciding one, and all others spare the providers
  have hplay : (machine.play [] (deploy ⟨0⟩ ⟨100⟩ ⟨101⟩ ⟨102⟩) ops).map
      (fun p => (p.1.tail.all fun d => d.op.sparesProviders, p.1.head?.map fun c =>
        decide (c.op = .oracle (.resolveChallengeByVerifier ⟨4⟩ 1 true 0) ∧
          (c.pre.oracle.challenge 1).map Challenge.resolved = some false ∧
          (c.post.oracle.challenge 1).map Challenge.resolved = some true))) =
      some (true, some true) := by decide
  obtain ⟨h, w, hrun, hview⟩ := Run.of_play (Init.deploy ⟨0⟩ ⟨100⟩ ⟨101⟩ ⟨102⟩) hplay
  simp only [Prod.mk.injEq, Option.map_eq_some_iff] at hview
  obtain ⟨hspares, c, hhead, hc⟩ := hview
  obtain ⟨hop, hbefore, hafter⟩ := of_decide_eq_true hc
  obtain ⟨h', rfl⟩ : ∃ h', h = c :: h' := List.head?_eq_some_iff.mp hhead
  have hdecides : Decides c 1 true :=
    ⟨⟨⟨4⟩, 0, hop⟩, hbefore, hafter⟩
  exact ⟨h', w, c, hrun, hdecides,
    supermajority_of_kept_voters hrun [] c h' rfl 1 true hdecides fun d hd =>
      Op.keepsVoters_of_sparesProviders (List.all_eq_true.mp hspares d hd)⟩

/-- Two of four providers vote for the report and are removed. The third one's vote then decides
the challenge, alone against one active provider that did not vote. -/
theorem supermajority_of_removed : ¬ ∀ (h : List Call) (w : World), Run h w →
    ∀ c ∈ h, ∀ r uphold, Decides c r uphold →
      Carried c.pre.oracle c.post.oracle r uphold ∨
        Carried c.post.oracle c.post.oracle r uphold := by
  intro hclaim
  let ops : List (ℕ × Op) := (onboard ⟨0⟩ ⟨5⟩ ⟨1⟩ ⟨2⟩ ⟨100⟩ ⟨102⟩ 7).append
    [(1, .oracle (.registerProvider ⟨0⟩ ⟨3⟩ "VM0007" 3)),
      (1, .oracle (.registerProvider ⟨0⟩ ⟨4⟩ "VM0007" 4)),
      (1, .oracle (.submitReport ⟨1⟩ 1 0 10 5000 .absent "VM0007" 3 0)),
      (2, .oracle (.depositChallengeBond ⟨6⟩ 1000000 0)),
      (3, .oracle (.challengeReport ⟨6⟩ 1 0 1)),
      (4, .oracle (.resolveChallengeByVerifier ⟨2⟩ 1 true 0)),
      (4, .oracle (.resolveChallengeByVerifier ⟨3⟩ 1 true 0)),
      (5, .oracle (.removeProvider ⟨0⟩ ⟨2⟩ 5)),
      (5, .oracle (.removeProvider ⟨0⟩ ⟨3⟩ 6)),
      (6, .oracle (.resolveChallengeByVerifier ⟨4⟩ 1 true 0))]
  -- the numbers are those of the state in which the vote is cast
  have hplay : (machine.play [] (deploy ⟨0⟩ ⟨100⟩ ⟨101⟩ ⟨102⟩) ops).map
      (fun p => p.1.head?.map fun c =>
        decide (c.op = .oracle (.resolveChallengeByVerifier ⟨4⟩ 1 true 0) ∧
          (c.pre.oracle.challenge 1).map Challenge.resolved = some false ∧
          (c.post.oracle.challenge 1).map Challenge.resolved = some true ∧
          activeProviderCount c.pre.oracle = 2 ∧ activeProviderCount c.post.oracle = 2 ∧
          (votes c.post.oracle 1 true).countP (isActive c.pre.oracle) = 1 ∧
          (votes c.post.oracle 1 true).countP (isActive c.post.oracle) = 1)) =
      some (some true) := by decide
  obtain ⟨h, w, hrun, hview⟩ := Run.of_play (Init.deploy ⟨0⟩ ⟨100⟩ ⟨101⟩ ⟨102⟩) hplay
  rw [Option.map_eq_some_iff] at hview
  obtain ⟨c, hhead, hc⟩ := hview
  obtain ⟨hop, hbefore, hafter, hpre, hpost, hlive, hlive'⟩ := of_decide_eq_true hc
  have hdecides : Decides c 1 true :=
    ⟨⟨⟨4⟩, 0, hop⟩, Option.map_eq_some_iff.mp hbefore, Option.map_eq_some_iff.mp hafter⟩
  have hmem : c ∈ h := List.mem_of_mem_head? hhead
  obtain ⟨h₁, h₂, rfl⟩ := List.append_of_mem hmem
  obtain ⟨hpast, ht, hexec⟩ := hrun.past
  have hafterwards : Run (c :: h₂) c.post := hpast.call ht hexec
  have hdistinct : (votes c.post.oracle 1 true).Nodup :=
    (electorate_of_run hafterwards).distinct (1, true)
  have hforeign := votesForeign_of_run hafterwards
  -- the sets have the sizes the contract counts
  have hactives : (actives c.pre.oracle).ncard = 2 :=
    (electorate_of_run hpast).activeCount_eq_ncard.symm.trans hpre
  have hactives' : (actives c.post.oracle).ncard = 2 :=
    (electorate_of_run hafterwards).activeCount_eq_ncard.symm.trans hpost
  have hsupport := (supporters_ncard (s := c.pre.oracle) hdistinct hforeign).trans hlive
  have hsupport' := (supporters_ncard (s := c.post.oracle) hdistinct hforeign).trans hlive'
  -- one of two active providers is not two thirds of them
  have hcarried := hclaim _ w hrun c hmem 1 true hdecides
  unfold Carried at hcarried
  rw [hactives, hactives', hsupport, hsupport'] at hcarried
  omega

end Protocol
end NbsBond
