import NbsBond.Governance.Ballot

/-!
# Execution safety

An executed proposal was approved by `threshold` distinct signers while it was pending and
unexpired, waited for the timelock after the last of these approvals, and called something the
allowlist admitted at that moment.

All of it is about the past of a proposal, so the invariant `Tally` relates each stored proposal to
the approvals and executions found in the history: the counters count them, the recorded votes keep
their signers apart, and a queued proposal carries the time of its newest approval. `Change` is what
a call does to one stored proposal.
-/

namespace NbsBond
namespace Governance

open Soroban

/-! ### Reading the history -/

/-- A committed `vote_approve` on proposal `p`. -/
def isApproval (p : ℕ) (c : Call State Op ℕ) : Bool :=
  match c.op with
  | .voteApprove _ q _ => q = p
  | _ => false

/-- A committed `execute` of proposal `p`. -/
def isExecution (p : ℕ) (c : Call State Op ℕ) : Bool :=
  match c.op with
  | .execute _ q _ _ => q = p
  | _ => false

/-- The approvals of `p` in a history, newest first. -/
def approvals (p : ℕ) (h : List (Call State Op ℕ)) : List (Call State Op ℕ) :=
  h.filter (isApproval p)

/-- The executions of `p` in a history. -/
def executions (p : ℕ) (h : List (Call State Op ℕ)) : List (Call State Op ℕ) :=
  h.filter (isExecution p)

/-- An approval was cast by a signer, on a proposal that was pending and would expire at
`expiresAt`, before that time. -/
def Cast (signers : List Address) (p expiresAt : ℕ) (c : Call State Op ℕ) : Prop :=
  c.op.caller ∈ signers ∧ c.time < expiresAt ∧
    ∃ pr, c.pre.proposal.read p = some pr ∧ pr.status = .pending ∧ pr.expiresAt = expiresAt

/-- The statuses no call leaves. -/
def ProposalStatus.IsFinal (status : ProposalStatus) : Prop :=
  status = .executed ∨ status = .rejected ∨ status = .cancelled

/-! ### The invariant -/

/-- What the history says about a stored proposal. The history is what has been called, so this ties
the stored counters to actual votes. -/
structure Tally (h : List (Call State Op ℕ)) (v : Ballot) (p : ℕ) (pr : Proposal) : Prop where
  /-- The counter counts the approvals. -/
  count : (approvals p h).length = pr.approvalCount
  /-- Each approval is on record, so its signer cannot vote again. -/
  recorded : ∀ c ∈ approvals p h, v.vote (p, c.op.caller) ≠ none
  distinct : ((approvals p h).map fun c => c.op.caller).Nodup
  cast : ∀ c ∈ approvals p h, ∃ signers, v.signers = some signers ∧
    Cast signers p pr.expiresAt c
  /-- A queued or executed proposal has exactly `threshold` approvals and carries the time of the
  newest. -/
  queued : pr.status = .queued ∨ pr.status = .executed →
    pr.approvalCount = v.threshold ∧ ∃ c, (approvals p h).head? = some c ∧ c.time = pr.queuedAt
  /-- Before that it has fewer. -/
  pending : pr.status = .pending → pr.approvalCount < v.threshold
  executed : (executions p h).length = if pr.status = .executed then 1 else 0
  timelock : pr.timelockSeconds = v.timelock
  expires : pr.expiresAt < 2 ^ 64

/-- The invariant of a run. With it the statements about one proposal carry over from call to
call. -/
structure Tallied (h : List (Call State Op ℕ)) (v : Ballot) : Prop where
  threshold : 0 < v.threshold
  /-- Ids above the counter are unused. -/
  fresh : ∀ p, v.count < p → v.proposal p = none
  /-- An unused id has no past. -/
  unused : ∀ p, v.proposal p = none → approvals p h = [] ∧ executions p h = []
  tally : ∀ p pr, v.proposal p = some pr → Tally h v p pr

theorem approvals_cons_self {p : ℕ} {c : Call State Op ℕ} {h : List (Call State Op ℕ)}
    (hc : isApproval p c = true) : approvals p (c :: h) = c :: approvals p h :=
  List.filter_cons_of_pos hc

theorem approvals_cons_other {p : ℕ} {c : Call State Op ℕ} {h : List (Call State Op ℕ)}
    (hc : isApproval p c = false) : approvals p (c :: h) = approvals p h :=
  List.filter_cons_of_neg (by simp [hc])

theorem executions_cons_self {p : ℕ} {c : Call State Op ℕ} {h : List (Call State Op ℕ)}
    (hc : isExecution p c = true) : executions p (c :: h) = c :: executions p h :=
  List.filter_cons_of_pos hc

theorem executions_cons_other {p : ℕ} {c : Call State Op ℕ} {h : List (Call State Op ℕ)}
    (hc : isExecution p c = false) : executions p (c :: h) = executions p h :=
  List.filter_cons_of_neg (by simp [hc])

/-- **Frame.** A call that neither approves nor executes `p`, keeps the proposal's counters and
times, keeps its status or settles a pending one otherwise, and forgets no vote, keeps the
tally. -/
theorem Tally.frame {h : List (Call State Op ℕ)} {v v' : Ballot} {p : ℕ} {pr pr' : Proposal}
    {c : Call State Op ℕ} (hT : Tally h v p pr) (happ : isApproval p c = false)
    (hexe : isExecution p c = false) (hsigners : v'.signers = v.signers)
    (hthreshold : v'.threshold = v.threshold) (htimelock : v'.timelock = v.timelock)
    (hvote : ∀ a, v.vote (p, a) ≠ none → v'.vote (p, a) ≠ none)
    (hcount : pr'.approvalCount = pr.approvalCount) (hexpires : pr'.expiresAt = pr.expiresAt)
    (hqueuedAt : pr'.queuedAt = pr.queuedAt) (hlock : pr'.timelockSeconds = pr.timelockSeconds)
    (hstatus : pr'.status = pr.status ∨
      pr.status = .pending ∧ (pr'.status = .rejected ∨ pr'.status = .cancelled)) :
    Tally (c :: h) v' p pr' := by
  have happs := approvals_cons_other (h := h) happ
  have hexes := executions_cons_other (h := h) hexe
  refine ⟨?_, ?_, ?_, ?_, ?_, ?_, ?_, ?_, ?_⟩
  · rw [happs, hcount]
    exact hT.count
  · rw [happs]
    intro d hd
    exact hvote _ (hT.recorded d hd)
  · rw [happs]
    exact hT.distinct
  · rw [happs, hsigners, hexpires]
    exact hT.cast
  · rw [happs, hcount, hqueuedAt, hthreshold]
    -- a rejected or cancelled proposal is not queued
    intro hq
    rcases hstatus with heq | ⟨-, heq | heq⟩
    · exact hT.queued (heq ▸ hq)
    · simp [heq] at hq
    · simp [heq] at hq
  · rw [hcount, hthreshold]
    -- nor pending
    intro hp
    rcases hstatus with heq | ⟨-, heq | heq⟩
    · exact hT.pending (heq ▸ hp)
    · simp [heq] at hp
    · simp [heq] at hp
  · rw [hexes, hT.executed]
    rcases hstatus with heq | ⟨hp, heq | heq⟩
    · rw [heq]
    · rw [hp, heq]; rfl
    · rw [hp, heq]; rfl
  · rw [hlock, htimelock]
    exact hT.timelock
  · rw [hexpires]
    exact hT.expires

/-- The approval that reaches the threshold queues the proposal. -/
theorem countApproval_reached {now threshold : ℕ} {pr : Proposal}
    (h : threshold ≤ pr.approvalCount + 1) : countApproval now threshold pr =
      { pr with approvalCount := pr.approvalCount + 1, status := .queued, queuedAt := now } :=
  if_pos h

/-- An earlier one is only counted. -/
theorem countApproval_below {now threshold : ℕ} {pr : Proposal}
    (h : pr.approvalCount + 1 < threshold) : countApproval now threshold pr =
      { pr with approvalCount := pr.approvalCount + 1 } :=
  if_neg (not_le.mpr h)

/-- **Approval.** One more approval, cast by a signer who had not voted; the threshold-th one
queues the proposal at the time of the call. -/
theorem Tally.approve {h : List (Call State Op ℕ)} {s : State} {v' : Ballot} {p nonce : ℕ}
    {caller : Address} {pr : Proposal} {c : Call State Op ℕ} (hT : Tally h (ballot s) p pr)
    (hop : c.op = .voteApprove caller p nonce) (hpre : c.pre = s)
    (hopen : Open c.time (ballot s) caller p pr)
    (hv : v' = ((ballot s).setVote p caller .approve).setProposal p
      (countApproval c.time (ballot s).threshold pr)) :
    Tally (c :: h) v' p (countApproval c.time (ballot s).threshold pr) := by
  have happ : isApproval p c = true := by simp [isApproval, hop]
  have hexe : isExecution p c = false := by simp [isExecution, hop]
  have hcaller : c.op.caller = caller := by rw [hop]; rfl
  have happs := approvals_cons_self (h := h) happ
  have hpending := hT.pending hopen.pending
  have hvote : v'.vote = Function.update (ballot s).vote (p, caller) (some .approve) := by
    rw [hv]; rfl
  -- nobody who approved before is the caller: their votes are on record, the caller's is not
  have hnew : caller ∉ (approvals p h).map fun d => d.op.caller := by
    intro hmem
    obtain ⟨d, hd, rfl⟩ := List.mem_map.mp hmem
    exact hT.recorded d hd hopen.unvoted
  have hfields : (countApproval c.time (ballot s).threshold pr).approvalCount =
        pr.approvalCount + 1 ∧
      (countApproval c.time (ballot s).threshold pr).expiresAt = pr.expiresAt ∧
      (countApproval c.time (ballot s).threshold pr).timelockSeconds = pr.timelockSeconds := by
    rcases Nat.lt_or_ge (pr.approvalCount + 1) (ballot s).threshold with hlt | hge
    · rw [countApproval_below hlt]
      exact ⟨rfl, rfl, rfl⟩
    · rw [countApproval_reached hge]
      exact ⟨rfl, rfl, rfl⟩
  obtain ⟨hcount, hexpires, hlock⟩ := hfields
  refine ⟨?_, ?_, ?_, ?_, ?_, ?_, ?_, ?_, ?_⟩
  · rw [happs, List.length_cons, hcount, hT.count]
  · rw [happs]
    intro d hd
    rw [hvote, Function.update_apply]
    split
    · simp
    · next hne =>
      rcases List.mem_cons.mp hd with rfl | hd
      · exact absurd (by rw [hcaller]) hne
      · exact hT.recorded d hd
  · rw [happs, List.map_cons, List.nodup_cons, hcaller]
    exact ⟨hnew, hT.distinct⟩
  · rw [happs, hexpires]
    intro d hd
    rcases List.mem_cons.mp hd with rfl | hd
    · obtain ⟨signers, hsigners, hmem⟩ := hopen.signer
      refine ⟨signers, by rw [hv]; exact hsigners, by rw [hcaller]; exact hmem, hopen.unexpired,
        pr, ?_, hopen.pending, rfl⟩
      rw [hpre]
      exact hopen.proposal
    · obtain ⟨signers, hsigners, hcast⟩ := hT.cast d hd
      exact ⟨signers, by rw [hv]; exact hsigners, hcast⟩
  · intro hq
    have hthreshold : v'.threshold = (ballot s).threshold := by rw [hv]; rfl
    rw [happs, hthreshold, hcount]
    rcases Nat.lt_or_ge (pr.approvalCount + 1) (ballot s).threshold with hlt | hge
    · rw [countApproval_below hlt] at hq
      simp [hopen.pending] at hq
    · rw [countApproval_reached hge]
      exact ⟨by omega, c, rfl, rfl⟩
  · intro hp
    have hthreshold : v'.threshold = (ballot s).threshold := by rw [hv]; rfl
    rw [hcount, hthreshold]
    by_contra hge
    rw [countApproval_reached (not_lt.mp hge)] at hp
    cases hp
  · rw [executions_cons_other hexe, hT.executed, hopen.pending]
    rcases Nat.lt_or_ge (pr.approvalCount + 1) (ballot s).threshold with hlt | hge
    · rw [countApproval_below hlt, hopen.pending]
    · rw [countApproval_reached hge]
      rfl
  · rw [hlock, hT.timelock, hv]
    rfl
  · rw [hexpires]
    exact hT.expires

/-- **Execution.** The queued proposal becomes an executed one; nothing else about it changes. -/
theorem Tally.execute {h : List (Call State Op ℕ)} {v v' : Ballot} {p nonce : ℕ}
    {caller : Address} {returned : Bool} {pr : Proposal} {c : Call State Op ℕ}
    (hT : Tally h v p pr) (hop : c.op = .execute caller p nonce returned)
    (hqueued : pr.status = .queued) (hv : v' = v.setProposal p { pr with
      status := .executed, executedAt := c.time }) :
    Tally (c :: h) v' p { pr with status := .executed, executedAt := c.time } := by
  have happ : isApproval p c = false := by simp [isApproval, hop]
  have hexe : isExecution p c = true := by simp [isExecution, hop]
  have happs := approvals_cons_other (h := h) happ
  subst hv
  refine ⟨?_, ?_, ?_, ?_, ?_, ?_, ?_, ?_, ?_⟩
  · rw [happs]
    exact hT.count
  · rw [happs]
    exact hT.recorded
  · rw [happs]
    exact hT.distinct
  · rw [happs]
    exact hT.cast
  · rw [happs]
    intro _
    -- the approvals that queued it stand
    exact hT.queued (Or.inl hqueued)
  · intro hp
    cases hp
  · rw [executions_cons_self hexe, List.length_cons, hT.executed, hqueued]
    rfl
  · exact hT.timelock
  · exact hT.expires

/-- A call that rewrites one existing proposal keeps the invariant if it keeps that proposal's
tally. -/
theorem Tallied.rewrite {h : List (Call State Op ℕ)} {v v' : Ballot} {c : Call State Op ℕ}
    {p₀ : ℕ} {pr pr' : Proposal} (hI : Tallied h v) (hread : v.proposal p₀ = some pr)
    (hproposal : v'.proposal = Function.update v.proposal p₀ (some pr'))
    (hcount : v'.count = v.count) (hsigners : v'.signers = v.signers)
    (hthreshold : v'.threshold = v.threshold) (htimelock : v'.timelock = v.timelock)
    (hvote : ∀ p a, v.vote (p, a) ≠ none → v'.vote (p, a) ≠ none)
    (happ : ∀ p, p ≠ p₀ → isApproval p c = false)
    (hexe : ∀ p, p ≠ p₀ → isExecution p c = false) (hT : Tally (c :: h) v' p₀ pr') :
    Tallied (c :: h) v' := by
  refine ⟨hthreshold ▸ hI.threshold, ?_, ?_, ?_⟩
  · intro p hp
    have hnone : v.proposal p = none := hI.fresh p (hcount ▸ hp)
    have hne : p ≠ p₀ := by
      rintro rfl
      rw [hread] at hnone
      cases hnone
    rw [hproposal, Function.update_of_ne hne]
    exact hnone
  · intro p hp
    rw [hproposal] at hp
    have hne : p ≠ p₀ := by
      rintro rfl
      rw [Function.update_self] at hp
      cases hp
    rw [Function.update_of_ne hne] at hp
    rw [approvals_cons_other (happ p hne), executions_cons_other (hexe p hne)]
    exact hI.unused p hp
  · intro p q hp
    rw [hproposal] at hp
    by_cases hne : p = p₀
    · subst hne
      rw [Function.update_self] at hp
      cases hp
      exact hT
    · rw [Function.update_of_ne hne] at hp
      -- for any other proposal the call is a frame
      exact (hI.tally p q hp).frame (happ p hne) (hexe p hne) hsigners hthreshold htimelock
        (hvote p) rfl rfl rfl rfl (Or.inl rfl)

/-- Recording a vote forgets none. -/
theorem vote_setVote {v : Ballot} {p₀ p : ℕ} {a₀ a : Address} {choice : VoteChoice}
    (h : v.vote (p, a) ≠ none) : (v.setVote p₀ a₀ choice).vote (p, a) ≠ none := by
  show Function.update v.vote (p₀, a₀) (some choice) (p, a) ≠ none
  rw [Function.update_apply]
  split
  · simp
  · exact h

/-- A veto touches the veto counter, and the status when it is the last one needed. -/
theorem countVeto_fields (threshold : ℕ) (pr : Proposal) :
    (countVeto threshold pr).approvalCount = pr.approvalCount ∧
      (countVeto threshold pr).expiresAt = pr.expiresAt ∧
      (countVeto threshold pr).queuedAt = pr.queuedAt ∧
      (countVeto threshold pr).timelockSeconds = pr.timelockSeconds ∧
      ((countVeto threshold pr).status = pr.status ∨
        (countVeto threshold pr).status = .rejected) := by
  unfold countVeto
  dsimp only
  split
  · exact ⟨rfl, rfl, rfl, rfl, Or.inr rfl⟩
  · exact ⟨rfl, rfl, rfl, rfl, Or.inl rfl⟩

/-- **Invariant preservation.** One case for each thing that a call can do to the ballot. -/
theorem Tallied.step {self : Address} {h : List (Call State Op ℕ)} {s : State} {v' : Ballot}
    {c : Call State Op ℕ} (hI : Tallied h (ballot s)) (hpre : c.pre = s)
    (hstep : Step self c.time s v' c.op) : Tallied (c :: h) v' := by
  generalize hop : c.op = op at hstep
  cases hstep with
  | @propose caller target method args description nonce pr hstatus hcount _ hexpires htimelock
      hv =>
    have happ : ∀ p, isApproval p c = false := by intro p; simp [isApproval, hop]
    have hexe : ∀ p, isExecution p c = false := by intro p; simp [isExecution, hop]
    have hproposal : v'.proposal =
        Function.update (ballot s).proposal ((ballot s).count + 1) (some pr) := by rw [hv]; rfl
    -- the id is new, so the history holds no approval and no execution of it
    obtain ⟨happs, hexes⟩ := hI.unused _ (hI.fresh ((ballot s).count + 1) (Nat.lt_succ_self _))
    refine ⟨by rw [hv]; exact hI.threshold, ?_, ?_, ?_⟩
    · intro p hp
      rw [hv] at hp
      change (ballot s).count + 1 < p at hp
      rw [hproposal, Function.update_of_ne (by omega)]
      exact hI.fresh p (by omega)
    · intro p hp
      rw [approvals_cons_other (happ p), executions_cons_other (hexe p)]
      rw [hproposal] at hp
      by_cases hne : p = (ballot s).count + 1
      · subst hne
        rw [Function.update_self] at hp
        cases hp
      · rw [Function.update_of_ne hne] at hp
        exact hI.unused p hp
    · intro p pr' hp
      rw [hproposal] at hp
      by_cases hne : p = (ballot s).count + 1
      · subst hne
        rw [Function.update_self] at hp
        cases hp
        rw [← approvals_cons_other (c := c) (happ _)] at happs
        rw [← executions_cons_other (c := c) (hexe _)] at hexes
        refine ⟨?_, ?_, ?_, ?_, ?_, ?_, ?_, by rw [hv]; exact htimelock, hexpires⟩
        · rw [happs, hcount]
          rfl
        · rw [happs]
          exact fun d hd => absurd hd List.not_mem_nil
        · rw [happs]
          exact List.nodup_nil
        · rw [happs]
          exact fun d hd => absurd hd List.not_mem_nil
        · rw [hstatus]
          rintro (hq | hq) <;> cases hq
        · rw [hcount, hv]
          exact fun _ => hI.threshold
        · rw [hexes, hstatus]
          rfl
      · rw [Function.update_of_ne hne] at hp
        subst hv
        exact (hI.tally p pr' hp).frame (happ p) (hexe p) rfl rfl rfl (fun _ h => h) rfl rfl rfl
          rfl (Or.inl rfl)
  | @approve caller p₀ nonce pr hopen hv =>
    have hT := (hI.tally p₀ pr hopen.proposal).approve hop hpre hopen hv
    have happ : ∀ p, p ≠ p₀ → isApproval p c = false := by
      intro p hp
      simp [isApproval, hop, hp.symm]
    have hexe : ∀ p, p ≠ p₀ → isExecution p c = false := by intro p _; simp [isExecution, hop]
    subst hv
    exact hI.rewrite hopen.proposal rfl rfl rfl rfl rfl (fun _ _ => vote_setVote) happ hexe hT
  | @veto caller p₀ nonce pr hopen hv =>
    have happ : ∀ p, isApproval p c = false := by intro p; simp [isApproval, hop]
    have hexe : ∀ p, isExecution p c = false := by intro p; simp [isExecution, hop]
    obtain ⟨hcount, hexpires, hqueuedAt, hlock, hstatus⟩ :=
      countVeto_fields (ballot s).threshold pr
    subst hv
    refine hI.rewrite hopen.proposal rfl rfl rfl rfl rfl (fun _ _ => vote_setVote)
      (fun p _ => happ p) (fun p _ => hexe p) ?_
    exact (hI.tally p₀ pr hopen.proposal).frame (happ p₀) (hexe p₀) rfl rfl rfl
      (fun _ => vote_setVote) hcount hexpires hqueuedAt hlock
      (hstatus.imp_right fun h => ⟨hopen.pending, Or.inl h⟩)
  | @cancel caller p₀ nonce pr hread hpending hv =>
    have happ : ∀ p, isApproval p c = false := by intro p; simp [isApproval, hop]
    have hexe : ∀ p, isExecution p c = false := by intro p; simp [isExecution, hop]
    subst hv
    refine hI.rewrite hread rfl rfl rfl rfl rfl (fun _ _ h => h) (fun p _ => happ p)
      (fun p _ => hexe p) ?_
    exact (hI.tally p₀ pr hread).frame (happ p₀) (hexe p₀) rfl rfl rfl (fun _ h => h) rfl rfl rfl
      rfl (Or.inr ⟨hpending, Or.inr rfl⟩)
  | @execute caller p₀ nonce returned pr hread hqueued hexpires htimelock hallowed hv =>
    have hT := (hI.tally p₀ pr hread).execute hop hqueued hv
    have happ : ∀ p, p ≠ p₀ → isApproval p c = false := by intro p _; simp [isApproval, hop]
    have hexe : ∀ p, p ≠ p₀ → isExecution p c = false := by
      intro p hp
      simp [isExecution, hop, hp.symm]
    subst hv
    exact hI.rewrite hread rfl rfl rfl rfl rfl (fun _ _ h => h) happ hexe hT
  | @migrate caller hv =>
    have happ : ∀ p, isApproval p c = false := by intro p; simp [isApproval, hop]
    have hexe : ∀ p, isExecution p c = false := by intro p; simp [isExecution, hop]
    subst hv
    refine ⟨hI.threshold, hI.fresh, ?_, ?_⟩
    · intro p hp
      rw [approvals_cons_other (happ p), executions_cons_other (hexe p)]
      exact hI.unused p hp
    · intro p pr hp
      exact (hI.tally p pr hp).frame (happ p) (hexe p) rfl rfl rfl (fun _ h => h) rfl rfl rfl rfl
        (Or.inl rfl)

/-! ### Runs -/

theorem construct_ok {signers : List Address} {threshold timelockSeconds : ℕ}
    {allowedCalls : List (Option AllowedCall)} {s : State}
    (h : construct signers threshold timelockSeconds allowedCalls = .ok s) :
    0 < threshold ∧ signers.Nodup ∧
      ballot s = ⟨some signers, threshold, timelockSeconds, 0, fun _ => none, fun _ => none⟩ := by
  simp only [construct, bind_eq_ok, orTrap_eq_ok] at h
  obtain ⟨_, hassert, h⟩ := h
  split at hassert
  swap
  · cases hassert
  next hok =>
  cases hwrite : writeAllowedCalls _ allowedCalls with
  | error e =>
    rw [hwrite] at h
    cases h
  | ok s' =>
    rw [hwrite] at h
    cases h
    simp only [writeAllowedCalls, bind_eq_ok, pure_eq_ok] at hwrite
    obtain ⟨_, -, calls, -, rfl⟩ := hwrite
    exact ⟨hok.2.1, hok.2.2.2, rfl⟩

theorem Tallied.of_run {self : Address} {h : List (Call State Op ℕ)} {s : State}
    (hrun : Run (machine self) Init h s) : Tallied h (ballot s) := by
  refine hrun.induction (P := fun h s => Tallied h (ballot s)) ?_ ?_
  · rintro s ⟨signers, threshold, timelockSeconds, allowedCalls, hs⟩
    obtain ⟨hpos, -, hballot⟩ := construct_ok hs
    rw [hballot]
    exact ⟨hpos, fun _ _ => rfl, fun _ _ => ⟨rfl, rfl⟩, fun _ _ hp => by cases hp⟩
  · intro h s t op r s' _ _ hexec hI
    exact hI.step (c := ⟨t, s, op, r, s'⟩) rfl (step_of_exec hexec)

/-! ### What a call does to a stored proposal -/

/-- The timing checks of `execute` pass for the proposal at ledger time `now`. -/
def Executable (now : ℕ) (pr : Proposal) : Prop :=
  ¬ isExpired now pr ∧ saturatingAddU64 pr.queuedAt pr.timelockSeconds ≤ now

/-- The record of one proposal before and after a call at ledger time `now`. No other entry of a
record ever changes. -/
inductive Change (now threshold : ℕ) (pr : Proposal) : Proposal → Prop
  | same : Change now threshold pr pr
  | approve (hpending : pr.status = .pending) :
      Change now threshold pr (countApproval now threshold pr)
  | veto (hpending : pr.status = .pending) : Change now threshold pr (countVeto threshold pr)
  | cancel (hpending : pr.status = .pending) :
      Change now threshold pr { pr with status := .cancelled }
  | execute (hqueued : pr.status = .queued) (htime : Executable now pr) :
      Change now threshold pr { pr with status := .executed, executedAt := now }

/-- **What a call does to a stored proposal.** It is read off the step alone: of another proposal
the call leaves everything. -/
theorem Step.change {self : Address} {now : ℕ} {s : State} {v : Ballot} {op : Op} {p : ℕ}
    {pr : Proposal} (hfresh : ∀ p, (ballot s).count < p → (ballot s).proposal p = none)
    (hstep : Step self now s v op) (hread : (ballot s).proposal p = some pr) :
    ∃ pr', v.proposal p = some pr' ∧ Change now (ballot s).threshold pr pr' := by
  -- a call that rewrites one proposal changes it and no other
  have hrewrite : ∀ {p₀ : ℕ} {pr₀ : Proposal} (pr₁ : Proposal),
      (ballot s).proposal p₀ = some pr₀ → Change now (ballot s).threshold pr₀ pr₁ →
      ∃ pr', Function.update (ballot s).proposal p₀ (some pr₁) p = some pr' ∧
        Change now (ballot s).threshold pr pr' := by
    intro p₀ pr₀ pr₁ hread₀ hchange
    by_cases hp : p = p₀
    · subst hp
      rw [hread₀] at hread
      cases hread
      exact ⟨pr₁, Function.update_self .., hchange⟩
    · rw [Function.update_of_ne hp]
      exact ⟨pr, hread, .same⟩
  cases hstep with
  | propose _ _ _ _ _ hv =>
    subst hv
    have hold : p ≠ (ballot s).count + 1 := by
      rintro rfl
      rw [hfresh _ (Nat.lt_succ_self _)] at hread
      cases hread
    exact ⟨pr, (Function.update_of_ne hold ..).trans hread, .same⟩
  | @approve _ _ _ pr₀ hopen hv =>
    subst hv
    exact hrewrite (countApproval now (ballot s).threshold pr₀) hopen.proposal
      (.approve hopen.pending)
  | @veto _ _ _ pr₀ hopen hv =>
    subst hv
    exact hrewrite (countVeto (ballot s).threshold pr₀) hopen.proposal (.veto hopen.pending)
  | @cancel _ _ _ pr₀ hread₀ hpending hv =>
    subst hv
    exact hrewrite { pr₀ with status := .cancelled } hread₀ (.cancel hpending)
  | @execute _ _ _ _ pr₀ hread₀ hqueued hexpires htimelock _ hv =>
    subst hv
    exact hrewrite { pr₀ with status := .executed, executedAt := now } hread₀
      (.execute hqueued ⟨not_le.mpr hexpires, htimelock⟩)
  | migrate hv =>
    subst hv
    exact ⟨pr, hread, .same⟩

/-- A proposal in a final status stays as it is: every change finds it pending or queued. -/
theorem Change.final {now threshold : ℕ} {pr pr' : Proposal} (h : Change now threshold pr pr')
    (hfinal : pr.status.IsFinal) : pr' = pr := by
  cases h with
  | same => rfl
  | approve hpending => simp [hpending, ProposalStatus.IsFinal] at hfinal
  | veto hpending => simp [hpending, ProposalStatus.IsFinal] at hfinal
  | cancel hpending => simp [hpending, ProposalStatus.IsFinal] at hfinal
  | execute hqueued => simp [hqueued, ProposalStatus.IsFinal] at hfinal

/-! ### Safety -/

/-- The timelock check is exact: a time before the expiry is below the saturation point. -/
theorem add_le_of_saturatingAddU64_le {a b now e : ℕ} (h : saturatingAddU64 a b ≤ now)
    (hnow : now < e) (he : e < 2 ^ 64) : a + b ≤ now := by
  unfold saturatingAddU64 at h
  omega

/-- What an execution of proposal `p` at time `t` from state `s` relies on, `h` being the history
before it. -/
structure Warranted (self : Address) (h : List (Call State Op ℕ)) (s : State) (t p : ℕ)
    (pr : Proposal) : Prop where
  proposal : s.proposal.read p = some pr
  /-- At least `threshold` approvals … -/
  enough : getThreshold s ≤ (approvals p h).length
  /-- … by different addresses … -/
  distinct : ((approvals p h).map fun c => c.op.caller).Nodup
  /-- … who were signers, while the proposal was pending and unexpired. -/
  cast : ∀ c ∈ approvals p h, ∃ signers, s.signers = some signers ∧ Cast signers p pr.expiresAt c
  /-- The timelock has run since the threshold-th approval. -/
  waited : ∃ c, (approvals p h).reverse[getThreshold s - 1]? = some c ∧
    pr.queuedAt = c.time ∧ c.time + pr.timelockSeconds ≤ t
  timelock : pr.timelockSeconds = getTimelock s
  unexpired : t < pr.expiresAt
  /-- The call is on the stored allowlist, or is the contract's own `set_allowed_calls`. -/
  allowed : (∃ call ∈ s.allowedCalls, call.contract = pr.target ∧ call.function = pr.method) ∨
    pr.target = self ∧ pr.method = selfMethodSetAllowedCalls

/-- A committed execution was warranted. -/
theorem Warranted.of_step {self : Address} {h : List (Call State Op ℕ)} {s : State} {v : Ballot}
    {t p nonce : ℕ} {caller : Address} {returned : Bool} (hI : Tallied h (ballot s))
    (hstep : Step self t s v (.execute caller p nonce returned)) :
    ∃ pr, Warranted self h s t p pr := by
  cases hstep with
  | @execute _ _ _ _ pr hread hqueued hexpires htimelock hallowed hv =>
    have hT := hI.tally p pr hread
    obtain ⟨hcount, c, hhead, htime⟩ := hT.queued (Or.inl hqueued)
    have hlength : (approvals p h).length = getThreshold s := hT.count.trans hcount
    refine ⟨pr, hread, hlength.ge, hT.distinct, hT.cast, ⟨c, ?_, htime.symm, ?_⟩, hT.timelock,
      hexpires, ?_⟩
    · -- oldest first, the newest of `threshold` approvals is the threshold-th
      rw [← hlength, ← List.length_reverse, ← List.getLast?_eq_getElem?, List.getLast?_reverse]
      exact hhead
    · rw [htime]
      exact add_le_of_saturatingAddU64_le htimelock hexpires hT.expires
    · unfold isExecutableCall at hallowed
      split at hallowed
      · next htarget => exact Or.inr ⟨htarget, of_decide_eq_true hallowed⟩
      · refine Or.inl ?_
        simpa [containsCall] using hallowed

/-- **Governance execution safety.** In every run of the contract: every execution is warranted by
its past; no proposal is executed twice; and a proposal that was once executed, rejected or
cancelled is still stored as it was. -/
theorem execution_safe {self : Address} {h : List (Call State Op ℕ)} {s : State}
    (hrun : Run (machine self) Init h s) :
    (∀ h₁ c h₂, h = h₁ ++ c :: h₂ → ∀ caller p nonce returned,
      c.op = .execute caller p nonce returned → ∃ pr, Warranted self h₂ c.pre c.time p pr) ∧
    (∀ p, (executions p h).length ≤ 1) ∧
    ∀ c ∈ h, ∀ p pr, c.post.proposal.read p = some pr → pr.status.IsFinal →
      s.proposal.read p = some pr := by
  refine ⟨?_, ?_, ?_⟩
  · rintro h₁ c h₂ rfl caller p nonce returned hop
    obtain ⟨hpast, -, hexec⟩ := hrun.past
    have hstep := step_of_exec hexec
    rw [hop] at hstep
    exact Warranted.of_step (Tallied.of_run hpast) hstep
  · intro p
    have hI := Tallied.of_run hrun
    cases hp : (ballot s).proposal p with
    | none =>
      rw [(hI.unused p hp).2]
      exact Nat.zero_le _
    | some pr =>
      rw [(hI.tally p pr hp).executed]
      split <;> omega
  · intro c hc p pr hread hfinal
    refine hrun.stable (P := fun s => s.proposal.read p = some pr) ?_ hc hread
    intro h t s op r s' hrun hread hexec
    obtain ⟨pr', hread', hchange⟩ := (step_of_exec hexec).change (Tallied.of_run hrun).fresh hread
    rw [hchange.final hfinal] at hread'
    exact hread'

/-- Two of three signers approve at times 10 and 20; the proposal is executed after the timelock
of 100 seconds, by somebody who is not a signer. -/
theorem execution_safe_two_of_three :
    ∃ h s, Run (machine ⟨9⟩) Init h s ∧
      (∃ c h₂ pr, h = c :: h₂ ∧ Warranted ⟨9⟩ h₂ c.pre 120 1 pr) ∧ (executions 1 h).length = 1 := by
  let signers : List Address := [⟨1⟩, ⟨2⟩, ⟨3⟩]
  let calls : List (Option AllowedCall) := [some ⟨⟨7⟩, "approve_project"⟩]
  let ops : List (ℕ × Op) :=
    [(5, .propose ⟨1⟩ ⟨7⟩ "approve_project" [.u64 4] "grant" 0), (10, .voteApprove ⟨1⟩ 1 1),
      (20, .voteApprove ⟨2⟩ 1 0), (120, .execute ⟨8⟩ 1 0 true)]
  obtain ⟨s₀, hs₀⟩ : ∃ s₀, construct signers 2 100 calls = .ok s₀ := ⟨_, rfl⟩
  have hplay : ((machine ⟨9⟩).play [] s₀ ops).map
      (fun p => (p.1.map fun c => (c.time, c.op), (executions 1 p.1).length)) =
      some ([(120, .execute ⟨8⟩ 1 0 true), (20, .voteApprove ⟨2⟩ 1 0), (10, .voteApprove ⟨1⟩ 1 1),
        (5, .propose ⟨1⟩ ⟨7⟩ "approve_project" [.u64 4] "grant" 0)], 1) := by
    cases hs₀
    decide
  have hinit : Init s₀ := ⟨signers, 2, 100, calls, hs₀⟩
  obtain ⟨h, s, hrun, hview⟩ := Run.of_play hinit hplay
  simp only [Prod.mk.injEq] at hview
  obtain ⟨hops, hone⟩ := hview
  refine ⟨h, s, hrun, ?_, hone⟩
  cases h with
  | nil => cases hops
  | cons c h₂ =>
    rw [List.map_cons, List.cons.injEq, Prod.mk.injEq] at hops
    obtain ⟨pr, hw⟩ := (execution_safe hrun).1 [] c h₂ rfl ⟨8⟩ 1 0 true hops.1.2
    rw [hops.1.1] at hw
    exact ⟨c, h₂, pr, rfl, hw⟩

end Governance
end NbsBond
