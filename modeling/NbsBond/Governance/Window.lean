import NbsBond.Governance.Execution

/-!
# The execution window of a queued proposal

A proposal can be voted on until it expires, 30 days after it was created. The timelock starts only
with the approval that reaches the threshold, and `execute` wants the timelock to be over and the
expiry not to be reached: a late approval leaves no time for both, and a queued proposal can be
neither voted on nor cancelled.

`queued_window_iff` says which approvals are early enough, in terms of the times of the two calls
and the timelock of the constructor. The invariant `Dated` ties the expiry to the call that created
the proposal. `stuck_of_no_window` is what becomes of the others.
-/

namespace NbsBond
namespace Governance

open Soroban

/-! ### Windows -/

/-- Proposal `p` is queued. -/
def isQueued (p : ℕ) (s : State) : Prop :=
  (s.proposal.read p).map Proposal.status = some .queued

instance (p : ℕ) (s : State) : Decidable (isQueued p s) :=
  inferInstanceAs (Decidable (_ = _))

/-- Call `c` moves proposal `p` to `Queued`. -/
structure Queues (p : ℕ) (c : Call State Op ℕ) : Prop where
  before : ¬ isQueued p c.pre
  after : isQueued p c.post

/-- Proposal `p`, which call `c` queued, has its timelock end before it expires, and so there is a
ledger time from then on at which it can be executed. -/
def HasWindow (p : ℕ) (c : Call State Op ℕ) : Prop :=
  ∃ pr, c.post.proposal.read p = some pr ∧ c.time + pr.timelockSeconds < pr.expiresAt ∧
    ∃ now, c.time ≤ now ∧ Executable now pr

/-- A committed `propose` that created proposal `p`. -/
def isProposal (p : ℕ) (c : Call State Op ℕ) : Bool :=
  match c.op with
  | .propose .. => decide (c.ret = p)
  | _ => false

/-- With a timelock of `timelock` seconds, time `t` is early enough for a proposal created at
`created`: so long before the proposal is 30 days old, and before the last `u64` timestamp. -/
def InTime (timelock created t : ℕ) : Prop :=
  t + timelock < created + defaultProposalTtlSeconds ∧ t + timelock < 2 ^ 64 - 1

/-! ### What a change leaves alone -/

/-- The expiry of a proposal and its timelock are fixed. -/
theorem Change.dates {now threshold : ℕ} {pr pr' : Proposal} (h : Change now threshold pr pr') :
    pr'.expiresAt = pr.expiresAt ∧ pr'.timelockSeconds = pr.timelockSeconds := by
  cases h with
  | approve =>
    unfold countApproval
    dsimp only
    split <;> exact ⟨rfl, rfl⟩
  | veto =>
    obtain ⟨-, hexpires, -, hlock, -⟩ := countVeto_fields threshold pr
    exact ⟨hexpires, hlock⟩
  | _ => exact ⟨rfl, rfl⟩

/-- A proposal is queued by an approval, at the time of the call. -/
theorem Change.queued {now threshold : ℕ} {pr pr' : Proposal} (h : Change now threshold pr pr')
    (hbefore : pr.status ≠ .queued) (hafter : pr'.status = .queued) : pr'.queuedAt = now := by
  cases h with
  | same => exact absurd hafter hbefore
  | approve hpending =>
    unfold countApproval at hafter ⊢
    dsimp only at hafter ⊢
    split at hafter
    · next hreached => rw [if_pos hreached]
    · exact absurd hafter hbefore
  | veto hpending =>
    obtain ⟨-, -, -, -, hstatus | hstatus⟩ := countVeto_fields threshold pr
    · exact absurd (hstatus.symm.trans hafter) hbefore
    · rw [hstatus] at hafter
      cases hafter
  | cancel => cases hafter
  | execute => cases hafter

/-- A queued proposal that cannot be executed at the time of the call stays as it is. -/
theorem Change.stuck {now threshold : ℕ} {pr pr' : Proposal} (h : Change now threshold pr pr')
    (hqueued : pr.status = .queued) (htime : ¬ Executable now pr) : pr' = pr := by
  have hlive : pr.status ≠ .pending := by
    rw [hqueued]
    decide
  cases h with
  | same => rfl
  | approve hpending => exact absurd hpending hlive
  | veto hpending => exact absurd hpending hlive
  | cancel hpending => exact absurd hpending hlive
  | execute _ hexecutable => exact absurd hexecutable htime

/-- The configuration never changes. -/
theorem Step.timelock {self : Address} {now : ℕ} {s : State} {v : Ballot} {op : Op}
    (hstep : Step self now s v op) : v.timelock = (ballot s).timelock := by
  cases hstep with
  | propose _ _ _ _ _ hv => rw [hv]; rfl
  | approve _ hv => rw [hv]; rfl
  | veto _ hv => rw [hv]; rfl
  | cancel _ _ hv => rw [hv]; rfl
  | execute _ _ _ _ _ hv => rw [hv]; rfl
  | migrate hv => rw [hv]

/-! ### Dates -/

/-- A committed `propose` stores its proposal under the id it returns. -/
theorem propose_stores {self : Address} {now : ℕ} {s s' : State} {caller target : Address}
    {method : Symbol} {args : List Val} {description : Symbol} {nonce r : ℕ}
    (h : exec self now s (.propose caller target method args description nonce) = .ok (s', r)) :
    ∃ pr, (ballot s').proposal = Function.update (ballot s).proposal r (some pr) ∧
      pr.expiresAt = saturatingAddU64 now defaultProposalTtlSeconds ∧ pr.status = .pending := by
  unfold exec at h
  split at h
  · cases h
  simp only [run, propose, bind_eq_ok, pure_eq_ok, Prod.mk.injEq] at h
  obtain ⟨s₁, hnonce, -, -, -, -, rfl, rfl⟩ := h
  have hballot := (checkNonce_ok hnonce).1
  have hproposal : s₁.proposal.read = (ballot s).proposal := congrArg Ballot.proposal hballot
  let pr : Proposal := ⟨readProposalCount s₁ + 1, caller, target, method, args, description,
    .pending, 0, 0, now, saturatingAddU64 now defaultProposalTtlSeconds, 0, 0, getTimelock s₁⟩
  have hexpires : pr.expiresAt = saturatingAddU64 now defaultProposalTtlSeconds := by
    simp only [pr]
  have hpending : pr.status = .pending := by simp only [pr]
  refine ⟨pr, ?_, hexpires, hpending⟩
  rw [← hproposal, ← Tiered.read_write]
  rfl

/-- A proposal that a call finds unused is one that the call creates. -/
theorem exec_creates {self : Address} {now : ℕ} {s s' : State} {op : Op} {r p : ℕ}
    {pr : Proposal} (hexec : exec self now s op = .ok (s', r))
    (hnone : (ballot s).proposal p = none) (hread : (ballot s').proposal p = some pr) :
    isProposal p ⟨now, s, op, r, s'⟩ = true ∧ pr.status = .pending := by
  -- a write to a proposal that is stored creates nothing
  have hother : ∀ {p₀ : ℕ} {pr₀ : Proposal} (pr₁ : Proposal),
      (ballot s).proposal p₀ = some pr₀ →
      Function.update (ballot s).proposal p₀ (some pr₁) p ≠ some pr := by
    intro p₀ pr₀ pr₁ hread₀ hnew
    have hne : p ≠ p₀ := by
      rintro rfl
      rw [hread₀] at hnone
      cases hnone
    rw [Function.update_of_ne hne, hnone] at hnew
    cases hnew
  have hstep := step_of_exec hexec
  cases hstep with
  | propose =>
    obtain ⟨pr₁, hproposal, -, hpending⟩ := propose_stores hexec
    rw [hproposal] at hread
    -- the id returned is the only one that is new
    by_cases hp : p = r
    · subst hp
      rw [Function.update_self] at hread
      cases hread
      exact ⟨decide_eq_true rfl, hpending⟩
    · rw [Function.update_of_ne hp, hnone] at hread
      cases hread
  | approve hopen hv =>
    rw [hv] at hread
    exact absurd hread (hother _ hopen.proposal)
  | veto hopen hv =>
    rw [hv] at hread
    exact absurd hread (hother _ hopen.proposal)
  | cancel hread₀ _ hv =>
    rw [hv] at hread
    exact absurd hread (hother _ hread₀)
  | execute hread₀ _ _ _ _ hv =>
    rw [hv] at hread
    exact absurd hread (hother _ hread₀)
  | migrate hv =>
    rw [hv, hnone] at hread
    cases hread

/-- The stored proposals are those that calls of the history created, with the expiry of that
call. -/
structure Dated (h : List (Call State Op ℕ)) (v : Ballot) : Prop where
  created : ∀ p pr, v.proposal p = some pr → ∃ c ∈ h, isProposal p c = true
  expires : ∀ c ∈ h, ∀ p, isProposal p c = true → ∃ pr, v.proposal p = some pr ∧
    pr.expiresAt = saturatingAddU64 c.time defaultProposalTtlSeconds

theorem Dated.of_run {self : Address} {h : List (Call State Op ℕ)} {s : State}
    (hrun : Run (machine self) Init h s) : Dated h (ballot s) := by
  refine hrun.induction (P := fun h s => Dated h (ballot s)) ?_ ?_
  · rintro s ⟨signers, threshold, timelockSeconds, allowedCalls, hs⟩
    -- nothing is stored at the start
    rw [(construct_ok hs).2.2]
    refine ⟨fun p pr hread => ?_, fun c hc => absurd hc List.not_mem_nil⟩
    cases hread
  · intro h s t op r s' hrun _ hexec hI
    have hfresh := (Tallied.of_run hrun).fresh
    have hstep := step_of_exec hexec
    refine ⟨fun p pr hread => ?_, fun c hc p hproposal => ?_⟩
    -- a proposal that was not stored before is one that this call made
    · cases hold : (ballot s).proposal p with
      | none => exact ⟨_, List.mem_cons_self, (exec_creates hexec hold hread).1⟩
      | some pr₀ =>
        obtain ⟨c, hc, hproposal⟩ := hI.created p pr₀ hold
        exact ⟨c, List.mem_cons_of_mem _ hc, hproposal⟩
    -- the expiry is written once, and no later change touches it
    rcases List.mem_cons.mp hc with rfl | hc
    · cases op with
      | propose caller target method args description nonce =>
        obtain rfl : r = p := of_decide_eq_true hproposal
        obtain ⟨pr, hnew, hexpires, -⟩ := propose_stores hexec
        exact ⟨pr, by rw [hnew, Function.update_self], hexpires⟩
      | _ => cases hproposal
    · obtain ⟨pr₀, hread, hexpires⟩ := hI.expires c hc p hproposal
      obtain ⟨pr, hread', hchange⟩ := hstep.change hfresh hread
      exact ⟨pr, hread', hchange.dates.1.trans hexpires⟩

/-- The timelock of the constructor is the timelock at every call of the history. -/
theorem getTimelock_of_mem {self : Address} {h : List (Call State Op ℕ)} {s : State}
    (hrun : Run (machine self) Init h s) {c : Call State Op ℕ} (hc : c ∈ h) :
    getTimelock c.post = getTimelock s := by
  refine (hrun.stable (P := fun s' => getTimelock s' = getTimelock c.post) ?_ hc rfl).symm
  intro _ _ t op r s' _ hs hexec
  exact (step_of_exec hexec).timelock.trans hs

/-! ### Execution windows -/

/-- A queued proposal can be executed at some time if and only if its timelock ends before it
expires. The sums in the source saturate, which makes no difference below the largest `u64`: a
proposal that ends there has ended before. -/
theorem exists_executable_iff {pr : Proposal} (hexpires : pr.expiresAt < 2 ^ 64) :
    (∃ now, pr.queuedAt ≤ now ∧ Executable now pr) ↔
      pr.queuedAt + pr.timelockSeconds < pr.expiresAt := by
  constructor
  -- if it can be executed now, the timelock ends by now and the proposal later
  · rintro ⟨now, -, hnow, hlock⟩
    have hlt : now < pr.expiresAt := not_le.mp hnow
    exact (add_le_of_saturatingAddU64_le hlock hlt hexpires).trans_lt hlt
  · intro hlt
    -- the first moment after the timelock
    refine ⟨pr.queuedAt + pr.timelockSeconds, Nat.le_add_right _ _, not_le.mpr hlt, ?_⟩
    unfold saturatingAddU64
    exact min_le_left _ _

theorem lt_saturatingAddU64_iff {timelock created t : ℕ} :
    t + timelock < saturatingAddU64 created defaultProposalTtlSeconds ↔
      InTime timelock created t := by
  unfold saturatingAddU64 InTime
  exact lt_min_iff

/-- What is known of a proposal that call `c` queued: it was queued then, with the timelock of the
constructor and the expiry of the call that created it. -/
theorem queues_dates {self : Address} {h : List (Call State Op ℕ)} {s : State}
    (hrun : Run (machine self) Init h s) {p : ℕ} {c : Call State Op ℕ} (hc : c ∈ h)
    (hqueues : Queues p c) : ∃ pr, c.post.proposal.read p = some pr ∧ pr.status = .queued ∧
      pr.queuedAt = c.time ∧ pr.timelockSeconds = getTimelock s ∧ pr.expiresAt < 2 ^ 64 ∧
      (∃ c₀ ∈ h, isProposal p c₀ = true) ∧
      ∀ c₀ ∈ h, isProposal p c₀ = true →
        pr.expiresAt = saturatingAddU64 c₀.time defaultProposalTtlSeconds := by
  -- the past of the call and what came after it
  obtain ⟨h₁, h₂, rfl⟩ := List.append_of_mem hc
  obtain ⟨hpast, ht, hexec⟩ := hrun.past
  have hthen : Run (machine self) Init (c :: h₂) c.post := .call hpast ht hexec
  obtain ⟨pr, hread, hqueued⟩ := Option.map_eq_some_iff.mp hqueues.after
  have hT := (Tallied.of_run hthen).tally p pr hread
  obtain ⟨c₀, hc₀, hproposal⟩ := (Dated.of_run hthen).created p pr hread
  have hdate : pr.queuedAt = c.time := by
    have hfresh := (Tallied.of_run hpast).fresh
    cases hold : (ballot c.pre).proposal p with
    | none =>
      -- what a call creates is pending
      rw [(exec_creates hexec hold hread).2] at hqueued
      cases hqueued
    | some pr₀ =>
      obtain ⟨pr₁, hread₁, hchange⟩ := (step_of_exec hexec).change hfresh hold
      obtain rfl : pr₁ = pr := Option.some.inj (hread₁.symm.trans hread)
      refine hchange.queued (fun hqueued₀ => hqueues.before ?_) hqueued
      exact Option.map_eq_some_iff.mpr ⟨pr₀, hold, hqueued₀⟩
  refine ⟨pr, hread, hqueued, hdate, hT.timelock.trans (getTimelock_of_mem hrun hc), hT.expires,
    ⟨c₀, List.mem_append_right h₁ hc₀, hproposal⟩, fun c₁ hc₁ hproposal₁ => ?_⟩
  -- the expiry has not changed since
  obtain ⟨pr₁, hread₁, hexpires₁⟩ := (Dated.of_run hrun).expires c₁ hc₁ p hproposal₁
  have hkept : ∃ pr', (ballot s).proposal p = some pr' ∧ pr'.expiresAt = pr.expiresAt := by
    refine hrun.stable (P := fun s => ∃ pr', (ballot s).proposal p = some pr' ∧
      pr'.expiresAt = pr.expiresAt) ?_ hc ⟨pr, hread, rfl⟩
    rintro h t s op r s' hrun ⟨pr', hread', hexpires'⟩ hexec
    obtain ⟨pr₂, hread₂, hchange⟩ :=
      (step_of_exec hexec).change (Tallied.of_run hrun).fresh hread'
    exact ⟨pr₂, hread₂, hchange.dates.1.trans hexpires'⟩
  obtain ⟨pr', hread', hexpires'⟩ := hkept
  obtain rfl : pr₁ = pr' := Option.some.inj (hread₁.symm.trans hread')
  exact hexpires'.symm.trans hexpires₁

/-- **Every queued proposal has an execution window if its last vote comes in time.** In every run
of the contract, an approval that moves a proposal to `Queued` leaves it a window if and only if the
timelock, counted from this vote, ends less than 30 days after the proposal was made. A proposal
expires 30 days after it was made, however long the votes took, while the timelock starts with the
last of them. -/
theorem queued_window_iff {self : Address} {h : List (Call State Op ℕ)} {s : State}
    (hrun : Run (machine self) Init h s) {p : ℕ} {c : Call State Op ℕ} (hc : c ∈ h)
    (hqueues : Queues p c) :
    (∃ c₀ ∈ h, isProposal p c₀ = true) ∧
      ∀ c₀ ∈ h, isProposal p c₀ = true →
        (HasWindow p c ↔ InTime (getTimelock s) c₀.time c.time) := by
  obtain ⟨pr, hread, -, hdate, hlock, hlt, hcreated, hexpires⟩ := queues_dates hrun hc hqueues
  refine ⟨hcreated, fun c₀ hc₀ hproposal => ?_⟩
  have hwindow := exists_executable_iff hlt
  rw [hdate] at hwindow
  -- the window is the gap between the two dates
  have hiff : HasWindow p c ↔ c.time + pr.timelockSeconds < pr.expiresAt := by
    constructor
    · rintro ⟨pr', hread', hlt', -⟩
      obtain rfl : pr' = pr := Option.some.inj (hread'.symm.trans hread)
      exact hlt'
    · intro hlt'
      exact ⟨pr, hread, hlt', hwindow.mpr hlt'⟩
  rw [hiff, hlock, hexpires c₀ hc₀ hproposal]
  exact lt_saturatingAddU64_iff

/-- **Without a window it is stuck.** The proposal stays as it was queued, whatever is called.
Neither a vote nor a cancellation is admitted on a queued proposal. -/
theorem stuck_of_no_window {self : Address} {h : List (Call State Op ℕ)} {s : State}
    (hrun : Run (machine self) Init h s) {p : ℕ} {c : Call State Op ℕ} (hc : c ∈ h)
    (hqueues : Queues p c) (hnone : ¬ HasWindow p c) :
    s.proposal.read p = c.post.proposal.read p := by
  obtain ⟨pr, hread, hqueued, hdate, -, hexpires, -⟩ := queues_dates hrun hc hqueues
  -- no time is late enough for the timelock and early enough for the expiry
  have hnever : ∀ now, ¬ Executable now pr := by
    intro now hexecutable
    have hlt : now < pr.expiresAt := not_le.mp hexecutable.1
    have hwaited := add_le_of_saturatingAddU64_le hexecutable.2 hlt hexpires
    refine hnone ⟨pr, hread, ?_, now, ?_, hexecutable⟩
    · exact hdate ▸ hwaited.trans_lt hlt
    · exact hdate ▸ (Nat.le_add_right _ _).trans hwaited
  rw [hread]
  -- so every change of it is none
  refine hrun.stable (P := fun s => s.proposal.read p = some pr) ?_ hc hread
  intro h t s op r s' hrun hs hexec
  obtain ⟨pr', hread', hchange⟩ := (step_of_exec hexec).change (Tallied.of_run hrun).fresh hs
  rw [hchange.stuck hqueued (hnever t)] at hread'
  exact hread'

/-! ### A late approval -/

/-- The calls of proposal 1 by the one signer: made at time 0, approved at time `t`. -/
def approvedAt (t : ℕ) : List (ℕ × Op) :=
  [(0, .propose ⟨1⟩ ⟨2⟩ "ping" [] "p" 0), (t, .voteApprove ⟨1⟩ 1 1)]

/-- A run of these calls, with a timelock of two days. -/
theorem exists_run_approvedAt {t : ℕ} (ht : t = 100 ∨ t = 2591999) :
    ∃ (h : List (Call State Op ℕ)) (s : State) (c c₀ : Call State Op ℕ),
      Run (machine ⟨0⟩) Init h s ∧ c ∈ h ∧ c₀ ∈ h ∧ Queues 1 c ∧ isProposal 1 c₀ = true ∧
        c₀.time = 0 ∧ c.time = t ∧ getTimelock s = 172800 := by
  obtain ⟨s₀, hs₀⟩ : ∃ s₀, construct [⟨1⟩] 1 172800 [some ⟨⟨2⟩, "ping"⟩] = .ok s₀ := ⟨_, rfl⟩
  have hplay : ((machine ⟨0⟩).play [] s₀ (approvedAt t)).map
      (fun x => (x.1.map fun c => (c.time, decide (isQueued 1 c.pre), decide (isQueued 1 c.post),
        isProposal 1 c), getTimelock x.2)) =
      some ([(t, false, true, false), (0, false, false, true)], 172800) := by
    cases hs₀
    rcases ht with rfl | rfl
    · decide
    · decide
  have hinit : Init s₀ := ⟨[⟨1⟩], 1, 172800, _, hs₀⟩
  obtain ⟨h, s, hrun, hview⟩ := Run.of_play hinit hplay
  simp only [Prod.mk.injEq] at hview
  obtain ⟨hcalls, hlock⟩ := hview
  obtain ⟨c, h', rfl, hc, hrest⟩ := List.map_eq_cons_iff.mp hcalls
  obtain ⟨c₀, h', rfl, hc₀, -⟩ := List.map_eq_cons_iff.mp hrest
  simp only [Prod.mk.injEq] at hc hc₀
  obtain ⟨htime, hbefore, hafter, -⟩ := hc
  obtain ⟨htime₀, -, -, hproposal⟩ := hc₀
  refine ⟨c :: c₀ :: h', s, c, c₀, hrun, List.mem_cons_self, ?_, ?_, hproposal, htime₀, htime,
    hlock⟩
  · exact List.mem_cons_of_mem _ List.mem_cons_self
  · exact ⟨of_decide_eq_false hbefore, of_decide_eq_true hafter⟩

/-- The vote comes after 100 seconds, and the proposal can be executed later. -/
theorem queued_window_early : ∃ (h : List (Call State Op ℕ)) (s : State) (c : Call State Op ℕ),
    Run (machine ⟨0⟩) Init h s ∧ c ∈ h ∧ Queues 1 c ∧ HasWindow 1 c := by
  obtain ⟨h, s, c, c₀, hrun, hc, hc₀, hqueues, hproposal, htime₀, htime, hlock⟩ :=
    exists_run_approvedAt (Or.inl rfl)
  refine ⟨h, s, c, hrun, hc, hqueues, ?_⟩
  rw [(queued_window_iff hrun hc hqueues).2 c₀ hc₀ hproposal, htime₀, htime, hlock]
  exact ⟨by decide, by decide⟩

/-- The vote comes one second before the proposal expires. Its timelock ends after the proposal
has. -/
theorem queued_without_window : ¬ ∀ (self : Address) (h : List (Call State Op ℕ)) (s : State),
    Run (machine self) Init h s → ∀ p c, c ∈ h → Queues p c → HasWindow p c := by
  intro hclaim
  obtain ⟨h, s, c, c₀, hrun, hc, hc₀, hqueues, hproposal, htime₀, htime, hlock⟩ :=
    exists_run_approvedAt (Or.inr rfl)
  obtain ⟨pr, hread, -, -, hlock', -, -, hexpires⟩ := queues_dates hrun hc hqueues
  obtain ⟨pr', hread', hlt, -⟩ := hclaim ⟨0⟩ h s hrun 1 c hc hqueues
  obtain rfl : pr' = pr := Option.some.inj (hread'.symm.trans hread)
  rw [htime, hlock', hlock, hexpires c₀ hc₀ hproposal, htime₀] at hlt
  exact absurd hlt (by decide)

end Governance
end NbsBond
