import NbsBond.Framework.Counting
import NbsBond.Governance.Execution

/-!
# Vote accounting

A proposal carries two counters and a status, and beside it the contract stores one vote per signer.
`Accounted` says that the counters count the stored votes and that the status is the one the
counters call for. A vote is admitted only from a signer without one, on a pending proposal, and
both counters of a pending proposal are below the threshold; so the vote that reaches the threshold
reaches it exactly, and settles the proposal.
-/

namespace NbsBond
namespace Governance

open Soroban

/-- The counter of a choice. -/
def Proposal.tally (pr : Proposal) : VoteChoice → ℕ
  | .approve => pr.approvalCount
  | .veto => pr.vetoCount

/-- The number of signers whose vote on proposal `p` is `choice`. -/
def Ballot.votesFor (v : Ballot) (signers : List Address) (p : ℕ) (choice : VoteChoice) : ℕ :=
  signers.countP fun a => v.vote (p, a) = some choice

/-- The counters and the status of a proposal fit together. -/
def Balanced (threshold : ℕ) (pr : Proposal) : Prop :=
  match pr.status with
  | .queued | .executed => pr.approvalCount = threshold ∧ pr.vetoCount < threshold
  | .rejected => pr.vetoCount = threshold ∧ pr.approvalCount < threshold
  | .pending | .cancelled => pr.approvalCount < threshold ∧ pr.vetoCount < threshold
  | .expired => False

/-- The counters count the votes of the signers. A proposal that was executed or cancelled keeps its
counters, and its votes are not removed. -/
structure Accounted (signers : List Address) (v : Ballot) : Prop where
  electorate : v.signers = some signers
  threshold : 0 < v.threshold
  /-- The ids in use are those up to the counter. -/
  ids : ∀ p, (∃ pr, v.proposal p = some pr) ↔ 1 ≤ p ∧ p ≤ v.count
  /-- A vote is a signer's, on a proposal that exists. -/
  cast : ∀ p a, v.vote (p, a) ≠ none → a ∈ signers ∧ v.proposal p ≠ none
  counts : ∀ p pr choice, v.proposal p = some pr → pr.tally choice = v.votesFor signers p choice
  balanced : ∀ p pr, v.proposal p = some pr → Balanced v.threshold pr

/-! ### Recording one vote -/

variable {signers : List Address}

/-- A signer's first vote counts one more for its choice, and nothing for the other one. -/
theorem votesFor_setVote {v : Ballot} {p : ℕ} {a : Address} {choice : VoteChoice}
    (hnodup : signers.Nodup) (ha : a ∈ signers) (hunvoted : v.vote (p, a) = none)
    (other : VoteChoice) : (v.setVote p a choice).votesFor signers p other =
      if other = choice then v.votesFor signers p other + 1 else v.votesFor signers p other := by
  -- the vote of nobody else moves
  have hrest : ∀ b, b ≠ a → (v.setVote p a choice).vote (p, b) = v.vote (p, b) := by
    intro b hb
    exact Function.update_of_ne (by simp [hb]) _ _
  have hself : (v.setVote p a choice).vote (p, a) = some choice := Function.update_self ..
  split
  · next heq =>
    subst heq
    refine Counting.countP_mark hnodup ha ?_ ?_ ?_
    · simp [hunvoted]
    · simp [hself]
    · intro b _ hb
      rw [hrest b hb]
  · next hne =>
    refine Counting.countP_same fun b _ => ?_
    by_cases hb : b = a
    · subst hb
      simp [hself, hunvoted, Ne.symm hne]
    · rw [hrest b hb]

/-- A vote counts nothing on another proposal. -/
theorem votesFor_setVote_of_ne {v : Ballot} {p q : ℕ} {a : Address} {choice : VoteChoice}
    (hq : q ≠ p) (other : VoteChoice) :
    (v.setVote p a choice).votesFor signers q other = v.votesFor signers q other := by
  refine Counting.countP_same fun b _ => ?_
  have hrest : (v.setVote p a choice).vote (q, b) = v.vote (q, b) :=
    Function.update_of_ne (by simp [hq]) _ _
  rw [hrest]

/-- An approval of a pending proposal keeps the balance: the threshold-th one queues it. -/
theorem Balanced.countApproval {now threshold : ℕ} {pr : Proposal} (hB : Balanced threshold pr)
    (hpending : pr.status = .pending) : Balanced threshold (countApproval now threshold pr) := by
  simp only [Balanced, hpending] at hB
  obtain ⟨happrovals, hvetoes⟩ := hB
  -- both counters were below the threshold, so one more reaches it at most
  rcases Nat.lt_or_ge (pr.approvalCount + 1) threshold with hlt | hge
  · rw [countApproval_below hlt]
    simp only [Balanced, hpending]
    exact ⟨hlt, hvetoes⟩
  · rw [countApproval_reached hge]
    exact ⟨le_antisymm happrovals hge, hvetoes⟩

/-- A veto of a pending proposal keeps the balance: the threshold-th one rejects it. -/
theorem Balanced.countVeto {threshold : ℕ} {pr : Proposal} (hB : Balanced threshold pr)
    (hpending : pr.status = .pending) : Balanced threshold (countVeto threshold pr) := by
  simp only [Balanced, hpending] at hB
  obtain ⟨happrovals, hvetoes⟩ := hB
  unfold Governance.countVeto
  dsimp only
  split
  -- rejected: reached exactly, for the same reason
  · next hge => exact ⟨le_antisymm hvetoes hge, happrovals⟩
  · next hlt =>
    simp only [Balanced, hpending]
    exact ⟨happrovals, not_le.mp hlt⟩

/-- An approval is counted as one. -/
theorem tally_countApproval (now threshold : ℕ) (pr : Proposal) (choice : VoteChoice) :
    (countApproval now threshold pr).tally choice =
      if choice = .approve then pr.tally choice + 1 else pr.tally choice := by
  unfold countApproval
  dsimp only
  cases choice <;> split <;> rfl

/-- So is a veto. -/
theorem tally_countVeto (threshold : ℕ) (pr : Proposal) (choice : VoteChoice) :
    (countVeto threshold pr).tally choice =
      if choice = .veto then pr.tally choice + 1 else pr.tally choice := by
  unfold countVeto
  dsimp only
  cases choice <;> split <;> rfl

/-! ### The invariant -/

/-- A call that rewrites one proposal, and touches votes on that proposal only, keeps the accounts
if it keeps those of that proposal. -/
theorem Accounted.rewrite {v v' : Ballot} {p₀ : ℕ} {pr pr' : Proposal}
    (hA : Accounted signers v) (hread : v.proposal p₀ = some pr)
    (hproposal : v'.proposal = Function.update v.proposal p₀ (some pr'))
    (hcount : v'.count = v.count) (hsigners : v'.signers = v.signers)
    (hthreshold : v'.threshold = v.threshold)
    (hcast : ∀ p a, v'.vote (p, a) ≠ none → v.vote (p, a) ≠ none ∨ p = p₀ ∧ a ∈ signers)
    (hother : ∀ p choice, p ≠ p₀ → v'.votesFor signers p choice = v.votesFor signers p choice)
    (hcounts : ∀ choice, pr'.tally choice = v'.votesFor signers p₀ choice)
    (hbalanced : Balanced v.threshold pr') : Accounted signers v' := by
  have hself : v'.proposal p₀ = some pr' := by rw [hproposal, Function.update_self]
  have hne : ∀ {p : ℕ}, p ≠ p₀ → v'.proposal p = v.proposal p := by
    intro p hp
    rw [hproposal, Function.update_of_ne hp]
  -- an id is in use after the call if it was before
  have hused : ∀ p, v'.proposal p ≠ none ↔ v.proposal p ≠ none := by
    intro p
    by_cases hp : p = p₀
    · subst hp
      simp [hself, hread]
    · rw [hne hp]
  refine ⟨hsigners.trans hA.electorate, hthreshold ▸ hA.threshold, ?_, ?_, ?_, ?_⟩
  · intro p
    rw [hcount, ← hA.ids p, ← Option.ne_none_iff_exists', ← Option.ne_none_iff_exists', hused]
  · intro p a hvote
    rw [hused]
    -- an old vote, or one of a signer on the proposal that was written
    rcases hcast p a hvote with hold | ⟨rfl, ha⟩
    · exact hA.cast p a hold
    · exact ⟨ha, by simp [hread]⟩
  · intro p q choice hq
    by_cases hp : p = p₀
    · subst hp
      rw [hself] at hq
      cases hq
      exact hcounts choice
    · rw [hne hp] at hq
      rw [hother p choice hp]
      exact hA.counts p q choice hq
  · intro p q hq
    rw [hthreshold]
    by_cases hp : p = p₀
    · subst hp
      rw [hself] at hq
      cases hq
      exact hbalanced
    · rw [hne hp] at hq
      exact hA.balanced p q hq

/-- **A vote** of a signer who has none: the proposal counts it, and so do the votes on record. -/
theorem Accounted.vote {now : ℕ} {v : Ballot} {p : ℕ} {caller : Address} {choice : VoteChoice}
    {pr pr' : Proposal} (hA : Accounted signers v) (hnodup : signers.Nodup)
    (hopen : Open now v caller p pr)
    (htally : ∀ other, pr'.tally other =
      if other = choice then pr.tally other + 1 else pr.tally other)
    (hbalanced : Balanced v.threshold pr') :
    Accounted signers ((v.setVote p caller choice).setProposal p pr') := by
  obtain ⟨found, hfound, hcaller⟩ := hopen.signer
  rw [hA.electorate] at hfound
  cases hfound
  refine hA.rewrite hopen.proposal rfl rfl rfl rfl ?_ ?_ ?_ hbalanced
  · intro q a hvote
    -- the one key that was written is the caller's
    by_cases hkey : (q, a) = (p, caller)
    · cases hkey
      exact Or.inr ⟨rfl, hcaller⟩
    · refine Or.inl ?_
      change Function.update v.vote (p, caller) (some choice) (q, a) ≠ none at hvote
      rwa [Function.update_of_ne hkey] at hvote
  · intro q other hq
    exact votesFor_setVote_of_ne hq other
  · intro other
    -- counter and votes move together
    have hvotes : (v.setVote p caller choice).votesFor signers p other = _ :=
      votesFor_setVote hnodup hcaller hopen.unvoted other
    change _ = (v.setVote p caller choice).votesFor signers p other
    rw [htally other, hvotes, hA.counts p pr other hopen.proposal]

/-- A change of status alone keeps the counters. -/
theorem Accounted.restatus {v : Ballot} {p : ℕ} {pr pr' : Proposal} (hA : Accounted signers v)
    (hread : v.proposal p = some pr) (htally : ∀ choice, pr'.tally choice = pr.tally choice)
    (hbalanced : Balanced v.threshold pr') : Accounted signers (v.setProposal p pr') := by
  refine hA.rewrite hread rfl rfl rfl rfl (fun _ _ => Or.inl) (fun _ _ _ => rfl) ?_ hbalanced
  intro choice
  rw [htally choice]
  exact hA.counts p pr choice hread

/-- **A proposal** takes the next id; nobody has voted on it. Ids above the counter have no votes,
as a vote needs a proposal. -/
theorem Accounted.propose {v v' : Ballot} {pr : Proposal} (hA : Accounted signers v)
    (hpending : pr.status = .pending) (htally : ∀ choice, pr.tally choice = 0)
    (hv : v' = { v.setProposal (v.count + 1) pr with count := v.count + 1 }) :
    Accounted signers v' := by
  subst hv
  have hunused : v.proposal (v.count + 1) = none := by
    by_contra hsome
    have hle := ((hA.ids _).mp (Option.ne_none_iff_exists'.mp hsome)).2
    omega
  have hunvoted : ∀ a, v.vote (v.count + 1, a) = none := by
    intro a
    by_contra hsome
    exact (hA.cast _ a hsome).2 hunused
  have hne : ∀ {p : ℕ}, p ≠ v.count + 1 →
      Function.update v.proposal (v.count + 1) (some pr) p = v.proposal p :=
    fun hp => Function.update_of_ne hp _ _
  refine ⟨hA.electorate, hA.threshold, fun p => ?_, fun p a hvote => ?_, fun p q choice hq => ?_,
    fun p q hq => ?_⟩
  · show (∃ q, Function.update v.proposal (v.count + 1) (some pr) p = some q) ↔
      1 ≤ p ∧ p ≤ v.count + 1
    by_cases hp : p = v.count + 1
    · subst hp
      exact ⟨fun _ => by omega, fun _ => ⟨pr, Function.update_self ..⟩⟩
    · rw [hne hp, hA.ids p]
      omega
  -- no vote was on the new id, so a vote is on an old one
  · obtain ⟨ha, hsome⟩ := hA.cast p a hvote
    refine ⟨ha, ?_⟩
    have hp : p ≠ v.count + 1 := by
      rintro rfl
      exact hsome hunused
    show Function.update v.proposal (v.count + 1) (some pr) p ≠ none
    rw [hne hp]
    exact hsome
  · change Function.update v.proposal (v.count + 1) (some pr) p = some q at hq
    by_cases hp : p = v.count + 1
    · subst hp
      rw [Function.update_self] at hq
      cases hq
      have hnone : v.votesFor signers (v.count + 1) choice = 0 :=
        List.countP_eq_zero.mpr fun a _ => by simp [hunvoted a]
      rw [htally choice]
      exact hnone.symm
    · rw [hne hp] at hq
      exact hA.counts p q choice hq
  · change Function.update v.proposal (v.count + 1) (some pr) p = some q at hq
    by_cases hp : p = v.count + 1
    · subst hp
      rw [Function.update_self] at hq
      cases hq
      simp only [Balanced, hpending]
      have happrovals : pr.approvalCount = 0 := htally .approve
      have hvetoes : pr.vetoCount = 0 := htally .veto
      rw [happrovals, hvetoes]
      exact ⟨hA.threshold, hA.threshold⟩
    · rw [hne hp] at hq
      exact hA.balanced p q hq

/-- **Invariant preservation.** The cases are those of a step of the ballot: a vote moves a counter,
the others move none. -/
theorem Accounted.step {self : Address} {now : ℕ} {s : State} {v : Ballot} {op : Op}
    (hA : Accounted signers (ballot s)) (hnodup : signers.Nodup) (hstep : Step self now s v op) :
    Accounted signers v := by
  cases hstep with
  | propose hpending hcount hvetoes _ _ hv =>
    -- a proposal starts with both counters at zero
    refine hA.propose hpending (fun choice => ?_) hv
    cases choice with
    | approve => exact hcount
    | veto => exact hvetoes
  | approve hopen hv =>
    subst hv
    have hbalanced := hA.balanced _ _ hopen.proposal
    exact hA.vote hnodup hopen (tally_countApproval _ _ _) (hbalanced.countApproval hopen.pending)
  | veto hopen hv =>
    subst hv
    have hbalanced := (hA.balanced _ _ hopen.proposal).countVeto hopen.pending
    exact hA.vote hnodup hopen (tally_countVeto _ _) hbalanced
  | cancel hread hpending hv =>
    -- a pending proposal is cancelled with the counters it has
    subst hv
    refine hA.restatus hread (fun choice => by cases choice <;> rfl) ?_
    have hbalanced := hA.balanced _ _ hread
    simp only [Balanced, hpending] at hbalanced
    exact hbalanced
  | execute hread hqueued _ _ _ hv =>
    -- a queued one is executed with the counters that queued it
    subst hv
    refine hA.restatus hread (fun choice => by cases choice <;> rfl) ?_
    have hbalanced := hA.balanced _ _ hread
    simp only [Balanced, hqueued] at hbalanced
    exact hbalanced
  | migrate hv =>
    -- migration copies entries that readers have seen all along
    subst hv
    exact hA

/-! ### Runs -/

theorem Accounted.of_construct {threshold timelockSeconds : ℕ}
    {allowedCalls : List (Option AllowedCall)} {s : State}
    (h : construct signers threshold timelockSeconds allowedCalls = .ok s) :
    signers.Nodup ∧ Accounted signers (ballot s) := by
  obtain ⟨hpos, hnodup, hballot⟩ := construct_ok h
  refine ⟨hnodup, ?_⟩
  rw [hballot]
  refine ⟨rfl, hpos, fun p => ?_, fun _ _ hvote => absurd rfl hvote, nofun, nofun⟩
  refine ⟨nofun, fun hp => ?_⟩
  -- no proposal and no vote to begin with
  exact absurd (hp.1.trans hp.2) (Nat.not_succ_le_zero 0)

theorem Accounted.of_run {self : Address} {h : List (Call State Op ℕ)} {s : State}
    (hrun : Run (machine self) Init h s) :
    ∃ signers, signers.Nodup ∧ Accounted signers (ballot s) := by
  refine hrun.invariant (P := fun s => ∃ signers, signers.Nodup ∧ Accounted signers (ballot s))
    ?_ ?_
  · rintro s ⟨signers, threshold, timelockSeconds, allowedCalls, hs⟩
    exact ⟨signers, Accounted.of_construct hs⟩
  · rintro t s op r s' ⟨signers, hnodup, hA⟩ hexec
    exact ⟨signers, hnodup, hA.step hnodup (step_of_exec hexec)⟩

/-- A vote on record stays as it is. -/
theorem Step.keeps_vote {self : Address} {now : ℕ} {s : State} {v : Ballot} {op : Op} {p : ℕ}
    {a : Address} {choice : VoteChoice} (hstep : Step self now s v op)
    (hvote : (ballot s).vote (p, a) = some choice) : v.vote (p, a) = some choice := by
  -- the vote a call records is its caller's first
  have hrecord : ∀ {q : ℕ} {caller : Address} {cast : VoteChoice},
      (ballot s).vote (q, caller) = none →
      Function.update (ballot s).vote (q, caller) (some cast) (p, a) = some choice := by
    intro q caller cast hunvoted
    rw [Function.update_of_ne]
    · exact hvote
    · rintro ⟨⟩
      rw [hunvoted] at hvote
      cases hvote
  cases hstep with
  | propose _ _ _ _ _ hv =>
    subst hv
    exact hvote
  | approve hopen hv =>
    subst hv
    exact hrecord hopen.unvoted
  | veto hopen hv =>
    subst hv
    exact hrecord hopen.unvoted
  | cancel _ _ hv =>
    subst hv
    exact hvote
  | execute _ _ _ _ _ hv =>
    subst hv
    exact hvote
  | migrate hv =>
    subst hv
    exact hvote

/-- A committed vote of `a` on proposal `p`, for or against. -/
def isVote (p : ℕ) (a : Address) (c : Call State Op ℕ) : Bool :=
  match c.op with
  | .voteApprove caller q _ => q = p ∧ caller = a
  | .voteVeto caller q _ => q = p ∧ caller = a
  | _ => false

/-- **One vote each.** The committed votes of an address on a proposal are as many as its vote on
record: none or one. -/
theorem votes_recorded {self : Address} {h : List (Call State Op ℕ)} {s : State}
    (hrun : Run (machine self) Init h s) (p : ℕ) (a : Address) :
    h.countP (isVote p a) = if getVote s p a = none then 0 else 1 := by
  refine hrun.induction (P := fun h s => h.countP (isVote p a) =
    if getVote s p a = none then 0 else 1) ?_ ?_
  · rintro s ⟨signers, threshold, timelockSeconds, allowedCalls, hs⟩
    have hnone : getVote s p a = none := by
      change (ballot s).vote (p, a) = none
      rw [(construct_ok hs).2.2]
    rw [if_pos hnone]
    rfl
  · intro h s t op r s' _ _ hexec ih
    rw [List.countP_cons, ih]
    have hstep := step_of_exec hexec
    -- a vote of `a` on `p` is its first and goes on record; any other call leaves the record alone
    have hvoted : ∀ {caller : Address} {q : ℕ} {cast : VoteChoice},
        (ballot s).vote (q, caller) = none →
        (ballot s').vote = Function.update (ballot s).vote (q, caller) (some cast) →
        (if getVote s p a = none then 0 else 1) + (if q = p ∧ caller = a then 1 else 0) =
          if getVote s' p a = none then 0 else 1 := by
      intro caller q cast hunvoted hvote
      have hs : getVote s p a = (ballot s).vote (p, a) := rfl
      have hs' : getVote s' p a = (ballot s').vote (p, a) := rfl
      rw [hs, hs', hvote]
      by_cases hself : q = p ∧ caller = a
      · obtain ⟨rfl, rfl⟩ := hself
        rw [hunvoted, Function.update_self]
        simp
      · have hne : (p, a) ≠ (q, caller) := by
          rintro ⟨⟩
          exact hself ⟨rfl, rfl⟩
        rw [Function.update_of_ne hne, if_neg hself, Nat.add_zero]
    -- the votes alone decide the record
    have hkept : (ballot s').vote = (ballot s).vote → getVote s' p a = getVote s p a :=
      fun hvote => congrFun hvote (p, a)
    cases hstep with
    | propose _ _ _ _ _ hv =>
      rw [hkept (by rw [hv]; rfl)]
      rfl
    | approve hopen hv =>
      simpa [isVote] using hvoted hopen.unvoted (by rw [hv]; rfl)
    | veto hopen hv =>
      simpa [isVote] using hvoted hopen.unvoted (by rw [hv]; rfl)
    | cancel _ _ hv =>
      rw [hkept (by rw [hv]; rfl)]
      rfl
    | execute _ _ _ _ _ hv =>
      rw [hkept (by rw [hv]; rfl)]
      rfl
    | migrate hv =>
      rw [hkept (by rw [hv])]
      rfl

/-- **Vote accounting.** In every reached state the counters of a proposal count the signers whose
vote on record is the respective choice, and fit its status; only signers have votes, at most one
each, and a vote on record never changes; the proposal ids are those up to the counter. The votes
are stored beside the proposal, and one call writes a vote and moves its counter. -/
theorem votes_accounted {self : Address} {h : List (Call State Op ℕ)} {s : State}
    (hrun : Run (machine self) Init h s) :
    (∃ signers, s.signers = some signers ∧ signers.Nodup ∧
      (∀ p pr, getProposal s p = .ok pr →
        pr.approvalCount = signers.countP (fun a => getVote s p a = some .approve) ∧
        pr.vetoCount = signers.countP (fun a => getVote s p a = some .veto)) ∧
      (∀ p a, a ∉ signers → getVote s p a = none)) ∧
    (∀ c ∈ h, ∀ p a choice, getVote c.post p a = some choice → getVote s p a = some choice) ∧
    (∀ p a, h.countP (isVote p a) ≤ 1) ∧
    (∀ p pr, getProposal s p = .ok pr →
      (pr.status = .queued ∨ pr.status = .executed →
        pr.approvalCount = getThreshold s ∧ pr.vetoCount < getThreshold s) ∧
      (pr.status = .rejected →
        pr.vetoCount = getThreshold s ∧ pr.approvalCount < getThreshold s) ∧
      (pr.status = .pending ∨ pr.status = .cancelled →
        pr.approvalCount < getThreshold s ∧ pr.vetoCount < getThreshold s)) ∧
    (∀ p, (∃ pr, getProposal s p = .ok pr) ↔ 1 ≤ p ∧ p ≤ readProposalCount s) := by
  obtain ⟨signers, hnodup, hA⟩ := Accounted.of_run hrun
  have hread : ∀ {p : ℕ} {pr : Proposal},
      getProposal s p = .ok pr ↔ (ballot s).proposal p = some pr := orError_eq_ok
  refine ⟨⟨signers, hA.electorate, hnodup, ?_, ?_⟩, ?_, ?_, ?_, ?_⟩
  · intro p pr hpr
    exact ⟨hA.counts p pr .approve (hread.mp hpr), hA.counts p pr .veto (hread.mp hpr)⟩
  · intro p a ha
    by_contra hvote
    exact ha (hA.cast p a hvote).1
  · intro c hc p a choice hvote
    refine hrun.stable (P := fun s => getVote s p a = some choice) ?_ hc hvote
    intro h t s op r s' _ hvote hexec
    exact (step_of_exec hexec).keeps_vote hvote
  · intro p a
    rw [votes_recorded hrun p a]
    split <;> omega
  · intro p pr hpr
    have hbalanced := hA.balanced p pr (hread.mp hpr)
    unfold Balanced at hbalanced
    refine ⟨?_, ?_, ?_⟩
    · rintro (hstatus | hstatus)
      · rwa [hstatus] at hbalanced
      · rwa [hstatus] at hbalanced
    · intro hstatus
      rwa [hstatus] at hbalanced
    · rintro (hstatus | hstatus)
      · rwa [hstatus] at hbalanced
      · rwa [hstatus] at hbalanced
  · intro p
    simp only [hread]
    exact hA.ids p

/-- Two of three signers approve and one vetoes in between: the proposal is queued with two
approvals and one veto on record. -/
theorem votes_accounted_two_of_three : ∃ h s pr, Run (machine ⟨9⟩) Init h s ∧
    getProposal s 1 = .ok pr ∧ pr.status = .queued ∧ pr.approvalCount = 2 ∧ pr.vetoCount < 2 ∧
    h.countP (isVote 1 ⟨2⟩) ≤ 1 := by
  let signers : List Address := [⟨1⟩, ⟨2⟩, ⟨3⟩]
  let calls : List (Option AllowedCall) := [some ⟨⟨7⟩, "approve_project"⟩]
  let ops : List (ℕ × Op) :=
    [(5, .propose ⟨1⟩ ⟨7⟩ "approve_project" [.u64 4] "grant" 0), (10, .voteApprove ⟨1⟩ 1 1),
      (15, .voteVeto ⟨2⟩ 1 0), (20, .voteApprove ⟨3⟩ 1 0)]
  obtain ⟨s₀, hs₀⟩ : ∃ s₀, construct signers 2 100 calls = .ok s₀ := ⟨_, rfl⟩
  have hplay : ((machine ⟨9⟩).play [] s₀ ops).map
      (fun p => (((getProposal p.2 1).toOption.map fun pr => pr.status), getThreshold p.2)) =
      some (some .queued, 2) := by
    cases hs₀
    decide
  have hinit : Init s₀ := ⟨signers, 2, 100, calls, hs₀⟩
  obtain ⟨h, s, hrun, hview⟩ := Run.of_play hinit hplay
  obtain ⟨hstatus, hthreshold⟩ := Prod.mk.injEq .. ▸ hview
  obtain ⟨pr, hread, hqueued⟩ := Option.map_eq_some_iff.mp hstatus
  rw [toOption_eq_some] at hread
  obtain ⟨-, -, hone, hbalanced, -⟩ := votes_accounted hrun
  obtain ⟨happrovals, hvetoes⟩ := (hbalanced 1 pr hread).1 (Or.inl hqueued)
  rw [hthreshold] at happrovals hvetoes
  exact ⟨h, s, pr, hrun, hread, hqueued, happrovals, hvetoes, hone 1 ⟨2⟩⟩

end Governance
end NbsBond
