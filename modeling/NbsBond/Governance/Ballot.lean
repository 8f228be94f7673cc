import NbsBond.Governance.Model

/-!
# Proposals as readers see them

Whatever tier an entry is stored in, a reader sees one table of proposals, one table of votes and
the configuration. This is the `Ballot`: the abstract state that the safety results speak about.
`step_of_exec` says once what a committed call does to it. Nonces, the migration flag and the tier
an entry lives in are invisible here.
-/

namespace NbsBond
namespace Governance

open Soroban

/-- What readers of the contract see. It forgets which tier an entry is in, and with that all that a
migration changes. -/
structure Ballot where
  signers : Option (List Address)
  threshold : ℕ
  timelock : ℕ
  count : ℕ
  proposal : ℕ → Option Proposal
  vote : ℕ × Address → Option VoteChoice

/-- The ballot a storage state presents. -/
def ballot (s : State) : Ballot where
  signers := s.signers
  threshold := getThreshold s
  timelock := getTimelock s
  count := readProposalCount s
  proposal := s.proposal.read
  vote := s.vote.read

/-- Write one proposal. -/
def Ballot.setProposal (v : Ballot) (p : ℕ) (pr : Proposal) : Ballot :=
  { v with proposal := Function.update v.proposal p (some pr) }

/-- Record one vote. -/
def Ballot.setVote (v : Ballot) (p : ℕ) (a : Address) (choice : VoteChoice) : Ballot :=
  { v with vote := Function.update v.vote (p, a) (some choice) }

theorem ballot_write_proposal (s : State) (p : ℕ) (pr : Proposal) :
    ballot { s with proposal := s.proposal.write p pr } = (ballot s).setProposal p pr := by
  simp only [ballot, Ballot.setProposal, Tiered.read_write, getThreshold, getTimelock,
    readProposalCount]

theorem ballot_write_vote (s : State) (p : ℕ) (a : Address) (choice : VoteChoice) :
    ballot { s with vote := s.vote.write (p, a) choice } = (ballot s).setVote p a choice := by
  simp only [ballot, Ballot.setVote, Tiered.read_write, getThreshold, getTimelock,
    readProposalCount]

/-! ### Parts of a call that readers do not see -/

/-- A nonce is not part of the ballot, nor of the allowlist. -/
theorem checkNonce_ok {s s' : State} {a : Address} {n : ℕ} (h : checkNonce s a n = .ok s') :
    ballot s' = ballot s ∧ s'.allowedCalls = s.allowedCalls := by
  simp only [checkNonce, bind_eq_ok, ensure_eq_ok, pure_eq_ok] at h
  obtain ⟨⟨s₁, m⟩, hget, -, -, rfl⟩ := h
  unfold getNonce at hget
  split at hget
  · cases hget
    exact ⟨rfl, rfl⟩
  · split at hget
    · cases hget
      exact ⟨rfl, rfl⟩
    · simp only [bind_eq_ok, ensure_eq_ok, pure_eq_ok, Prod.mk.injEq] at hget
      obtain ⟨-, -, rfl, -⟩ := hget
      exact ⟨rfl, rfl⟩

theorem requireSigner_ok {s : State} {a : Address} {u : Unit}
    (h : requireSigner s a = .ok u) : ∃ signers, (ballot s).signers = some signers ∧
      a ∈ signers := by
  simp only [requireSigner, bind_eq_ok, orError_eq_ok, ensure_eq_ok] at h
  exact h

/-- Replacing the allowlist leaves the ballot alone. -/
theorem applySetAllowedCalls_ok {self caller : Address} {s s' : State}
    {calls : List (Option AllowedCall)} {n : ℕ}
    (h : applySetAllowedCalls self s caller calls n = .ok s') :
    ballot s' = ballot s ∧ caller = self := by
  simp only [applySetAllowedCalls, writeAllowedCalls, bind_eq_ok, ensure_eq_ok, pure_eq_ok] at h
  obtain ⟨-, hcaller, s₁, hnonce, -, -, calls', -, rfl⟩ := h
  exact ⟨(checkNonce_ok hnonce).1, hcaller⟩

/-- A dispatched call leaves the ballot alone and was one the allowlist, or the contract's own
self-administration rule, admits. -/
theorem dispatch_ok {self : Address} {s s' : State} {pr : Proposal} {returned : Bool}
    (h : dispatch self s pr returned = .ok s') :
    ballot s' = ballot s ∧ isExecutableCall self s pr.target pr.method = true := by
  unfold dispatch at h
  unfold isExecutableCall
  split at h
  · next htarget =>
    simp only [dispatchSelfCall, bind_eq_ok, ensure_eq_ok] at h
    obtain ⟨-, hmethod, h⟩ := h
    split at h
    · rw [if_pos htarget]
      exact ⟨(applySetAllowedCalls_ok h).1, decide_eq_true hmethod⟩
    · cases h
  · next htarget =>
    simp only [bind_eq_ok, ensure_eq_ok, orTrap_eq_ok, pure_eq_ok] at h
    obtain ⟨-, hallowed, -, -, rfl⟩ := h
    rw [if_neg htarget]
    exact ⟨rfl, hallowed⟩

/-- Copying one proposal forward is invisible. -/
theorem ballot_migrateProposal (acc : State × ℕ) (id : ℕ) :
    ballot (migrateProposal acc id).1 = ballot acc.1 := by
  unfold migrateProposal
  split
  · next s migrated =>
    split
    · next pr hnone hsome =>
      have hread : s.proposal.read id = some pr := by simp [Tiered.read, hnone, hsome]
      simp only [ballot, Tiered.read_write_read hread, getThreshold, getTimelock,
        readProposalCount]
    · rfl

theorem ballot_migrateCount {s : State} {count : ℕ}
    (hlegacy : s.proposalCount.legacy () = some count) :
    ballot (migrateCount s count) = ballot s := by
  unfold migrateCount
  split
  · rfl
  · next hnone =>
    have hread : s.proposalCount.read () = some count := by simp [Tiered.read, hnone, hlegacy]
    simp only [ballot, getThreshold, getTimelock, readProposalCount,
      Tiered.read_write_read hread]

/-- `migrate_storage` is invisible. -/
theorem migrateStorage_ok {s s' : State} {caller : Address} {n : ℕ}
    (h : migrateStorage s caller = .ok (s', n)) :
    ballot s' = ballot s ∧ s'.allowedCalls = s.allowedCalls := by
  have hfold : ∀ (ids : List ℕ) (acc : State × ℕ),
      ballot (ids.foldl migrateProposal acc).1 = ballot acc.1 ∧
        (ids.foldl migrateProposal acc).1.allowedCalls = acc.1.allowedCalls := by
    intro ids
    induction ids with
    | nil => exact fun acc => ⟨rfl, rfl⟩
    | cons id ids ih =>
      intro acc
      rw [List.foldl_cons]
      obtain ⟨hballot, hcalls⟩ := ih (migrateProposal acc id)
      refine ⟨hballot.trans (ballot_migrateProposal acc id), hcalls.trans ?_⟩
      unfold migrateProposal
      split
      split <;> rfl
  simp only [migrateStorage, bind_eq_ok] at h
  obtain ⟨-, -, h⟩ := h
  split at h
  · cases h
    exact ⟨rfl, rfl⟩
  · cases h
    cases hlegacy : s.proposalCount.legacy () with
    | none => exact ⟨rfl, rfl⟩
    | some count =>
      obtain ⟨hballot, hcalls⟩ := hfold (List.range' 1 count) (migrateCount s count, 0)
      refine ⟨hballot.trans (ballot_migrateCount hlegacy), hcalls.trans ?_⟩
      unfold migrateCount
      split <;> rfl

/-! ### What a committed call does -/

/-- A vote by `caller` on proposal `p` is admissible: a signer who has not voted, a pending
proposal before its expiry. -/
structure Open (now : ℕ) (v : Ballot) (caller : Address) (p : ℕ) (pr : Proposal) : Prop where
  signer : ∃ signers, v.signers = some signers ∧ caller ∈ signers
  proposal : v.proposal p = some pr
  pending : pr.status = .pending
  unexpired : now < pr.expiresAt
  unvoted : v.vote (p, caller) = none

theorem openVote_ok {now : ℕ} {s : State} {caller : Address} {p : ℕ} {pr : Proposal}
    (h : openVote now s caller p = .ok pr) : Open now (ballot s) caller p pr := by
  simp only [openVote, bind_eq_ok, ensure_eq_ok, orError_eq_ok, pure_eq_ok] at h
  obtain ⟨_, hsigner, _, hread, _, hpending, _, hexpired, _, hvote, rfl⟩ := h
  exact ⟨requireSigner_ok hsigner, hread, hpending, lt_of_not_ge hexpired, hvote⟩

/-- The effect of a committed call on the ballot. Every constructor states its guards, so that what
holds along a run can be derived from this alone. -/
inductive Step (self : Address) (now : ℕ) (s : State) (v : Ballot) : Op → Prop
  /-- A new pending proposal under the next id. -/
  | propose {caller target : Address} {method : Symbol} {args : List Val} {description : Symbol}
      {nonce : ℕ} {pr : Proposal}
      (hstatus : pr.status = .pending) (hcount : pr.approvalCount = 0) (hvetoes : pr.vetoCount = 0)
      (hexpires : pr.expiresAt < 2 ^ 64) (htimelock : pr.timelockSeconds = (ballot s).timelock)
      (hv : v = { (ballot s).setProposal ((ballot s).count + 1) pr with
        count := (ballot s).count + 1 }) :
      Step self now s v (.propose caller target method args description nonce)
  | approve {caller : Address} {p nonce : ℕ} {pr : Proposal}
      (hopen : Open now (ballot s) caller p pr)
      (hv : v = ((ballot s).setVote p caller .approve).setProposal p
        (countApproval now (ballot s).threshold pr)) :
      Step self now s v (.voteApprove caller p nonce)
  | veto {caller : Address} {p nonce : ℕ} {pr : Proposal}
      (hopen : Open now (ballot s) caller p pr)
      (hv : v = ((ballot s).setVote p caller .veto).setProposal p
        (countVeto (ballot s).threshold pr)) :
      Step self now s v (.voteVeto caller p nonce)
  | cancel {caller : Address} {p nonce : ℕ} {pr : Proposal}
      (hread : (ballot s).proposal p = some pr) (hpending : pr.status = .pending)
      (hv : v = (ballot s).setProposal p { pr with status := .cancelled }) :
      Step self now s v (.cancel caller p nonce)
  | execute {caller : Address} {p nonce : ℕ} {returned : Bool} {pr : Proposal}
      (hread : (ballot s).proposal p = some pr) (hqueued : pr.status = .queued)
      (hexpires : now < pr.expiresAt)
      (htimelock : saturatingAddU64 pr.queuedAt pr.timelockSeconds ≤ now)
      (hallowed : isExecutableCall self s pr.target pr.method = true)
      (hv : v = (ballot s).setProposal p { pr with status := .executed, executedAt := now }) :
      Step self now s v (.execute caller p nonce returned)
  | migrate {caller : Address} (hv : v = ballot s) : Step self now s v (.migrateStorage caller)

/-- **What a call can do.** Every later invariant takes its cases from here, so the entrypoints are
unfolded once. -/
theorem step_of_exec {self : Address} {now : ℕ} {s s' : State} {op : Op} {r : ℕ}
    (h : exec self now s op = .ok (s', r)) : Step self now s (ballot s') op := by
  unfold exec at h
  split at h
  · cases h
  next hcaller =>
  cases op with
  | propose caller target method args description nonce =>
    simp only [run, propose, bind_eq_ok, ensure_eq_ok, pure_eq_ok, Prod.mk.injEq] at h
    obtain ⟨s₁, hnonce, -, -, -, -, rfl, -⟩ := h
    obtain ⟨hballot, -⟩ := checkNonce_ok hnonce
    have hcount : (ballot s₁).count = readProposalCount s₁ := rfl
    have htimelock : (ballot s₁).timelock = getTimelock s₁ := rfl
    rw [hballot] at hcount htimelock
    let pr : Proposal := ⟨readProposalCount s₁ + 1, caller, target, method, args, description,
      .pending, 0, 0, now, saturatingAddU64 now defaultProposalTtlSeconds, 0, 0, getTimelock s₁⟩
    have hpending : pr.status = .pending := rfl
    refine .propose hpending rfl rfl ?_ htimelock.symm ?_
    · show min _ _ < 2 ^ 64
      omega
    · rw [hcount, ← hballot]
      simp [pr, ballot, Ballot.setProposal, Tiered.read_write, getThreshold, getTimelock,
        readProposalCount]
  | voteApprove caller p nonce =>
    simp only [run, voteApprove, bind_eq_ok, pure_eq_ok, Prod.mk.injEq] at h
    obtain ⟨_, ⟨s₁, hnonce, pr, hopen, rfl⟩, rfl, -⟩ := h
    have hopen := openVote_ok hopen
    obtain ⟨hballot, -⟩ := checkNonce_ok hnonce
    rw [hballot] at hopen
    refine .approve hopen ?_
    rw [← hballot, ← ballot_write_vote, ← ballot_write_proposal]
    rfl
  | voteVeto caller p nonce =>
    simp only [run, voteVeto, bind_eq_ok, pure_eq_ok, Prod.mk.injEq] at h
    obtain ⟨_, ⟨s₁, hnonce, pr, hopen, rfl⟩, rfl, -⟩ := h
    have hopen := openVote_ok hopen
    obtain ⟨hballot, -⟩ := checkNonce_ok hnonce
    rw [hballot] at hopen
    refine .veto hopen ?_
    rw [← hballot, ← ballot_write_vote, ← ballot_write_proposal]
    rfl
  | cancel caller p nonce =>
    simp only [run, cancel, bind_eq_ok, ensure_eq_ok, orError_eq_ok, pure_eq_ok,
      Prod.mk.injEq] at h
    obtain ⟨_, ⟨s₁, hnonce, -, -, pr, hread, -, hpending, rfl⟩, rfl, -⟩ := h
    obtain ⟨hballot, -⟩ := checkNonce_ok hnonce
    change (ballot s₁).proposal p = some pr at hread
    rw [hballot] at hread
    refine .cancel hread hpending ?_
    rw [← hballot, ← ballot_write_proposal]
  | execute caller p nonce returned =>
    simp only [run, execute, bind_eq_ok, ensure_eq_ok, orError_eq_ok, pure_eq_ok,
      Prod.mk.injEq] at h
    obtain ⟨_, ⟨s₁, hnonce, pr, hread, -, hqueued, -, hexpired, -, htimelock, s₂, hdispatch, rfl⟩,
      rfl, -⟩ := h
    obtain ⟨hballot, hcalls⟩ := checkNonce_ok hnonce
    obtain ⟨hballot₂, hallowed⟩ := dispatch_ok hdispatch
    change (ballot s₁).proposal p = some pr at hread
    rw [hballot] at hread
    refine .execute hread hqueued (lt_of_not_ge hexpired) htimelock ?_ ?_
    · simpa only [isExecutableCall, hcalls] using hallowed
    · rw [← hballot, ← hballot₂, ← ballot_write_proposal]
  | setAllowedCalls caller calls nonce =>
    -- only the contract itself may ask, and nobody signs for it
    simp only [run, setAllowedCalls, bind_eq_ok, pure_eq_ok, Prod.mk.injEq] at h
    obtain ⟨_, happly, -⟩ := h
    exact absurd (applySetAllowedCalls_ok happly).2 hcaller
  | migrateStorage caller => exact .migrate (migrateStorage_ok h).1

/-! ### The rest of the storage -/

/-- Outside of the ballot the storage is the same. A vote, a veto and a cancellation leave it so,
once the nonce of the caller has been checked. -/
structure SameRest (s s' : State) : Prop where
  nonce : s'.nonce = s.nonce
  marker : s'.nonceInitialized = s.nonceInitialized
  allowedCalls : s'.allowedCalls = s.allowedCalls
  version : s'.storageVersion = s.storageVersion

/-- The caller and the nonce of a call about a proposal that executes nothing. -/
def Op.voting : Op → Option (Address × ℕ)
  | .propose caller _ _ _ _ nonce => some (caller, nonce)
  | .voteApprove caller _ nonce => some (caller, nonce)
  | .voteVeto caller _ nonce => some (caller, nonce)
  | .cancel caller _ nonce => some (caller, nonce)
  | _ => none

/-- Outside of the ballot a call writes the nonce it checks, and what the call of an executed
proposal writes. -/
inductive Rest (self : Address) (s s' : State) : Op → Prop
  | voting {op : Op} {caller : Address} {nonce : ℕ} {s₁ : State}
      (hop : op.voting = some (caller, nonce)) (hnonce : checkNonce s caller nonce = .ok s₁)
      (hrest : SameRest s₁ s') : Rest self s s' op
  | execute {caller : Address} {p nonce : ℕ} {returned : Bool} {s₁ s₂ : State} {pr : Proposal}
      (hcaller : caller ≠ self) (hnonce : checkNonce s caller nonce = .ok s₁)
      (hread : s.proposal.read p = some pr) (hqueued : pr.status = .queued)
      (hdispatch : dispatch self s₁ pr returned = .ok s₂) (hrest : SameRest s₂ s') :
      Rest self s s' (.execute caller p nonce returned)
  | migrate {caller : Address} {r : ℕ} (hmigrate : migrateStorage s caller = .ok (s', r)) :
      Rest self s s' (.migrateStorage caller)

theorem rest_of_exec {self : Address} {now : ℕ} {s s' : State} {op : Op} {r : ℕ}
    (h : exec self now s op = .ok (s', r)) : Rest self s s' op := by
  unfold exec at h
  split at h
  · cases h
  next hcaller =>
  cases op with
  | propose caller target method args description nonce =>
    simp only [run, propose, bind_eq_ok, pure_eq_ok, Prod.mk.injEq] at h
    obtain ⟨s₁, hnonce, -, -, -, -, rfl, -⟩ := h
    exact .voting rfl hnonce ⟨rfl, rfl, rfl, rfl⟩
  | voteApprove caller p nonce =>
    simp only [run, voteApprove, bind_eq_ok, pure_eq_ok, Prod.mk.injEq] at h
    obtain ⟨_, ⟨s₁, hnonce, _, -, rfl⟩, rfl, -⟩ := h
    exact .voting rfl hnonce ⟨rfl, rfl, rfl, rfl⟩
  | voteVeto caller p nonce =>
    simp only [run, voteVeto, bind_eq_ok, pure_eq_ok, Prod.mk.injEq] at h
    obtain ⟨_, ⟨s₁, hnonce, _, -, rfl⟩, rfl, -⟩ := h
    exact .voting rfl hnonce ⟨rfl, rfl, rfl, rfl⟩
  | cancel caller p nonce =>
    simp only [run, cancel, bind_eq_ok, pure_eq_ok, Prod.mk.injEq] at h
    obtain ⟨_, ⟨s₁, hnonce, -, -, _, -, -, -, rfl⟩, rfl, -⟩ := h
    exact .voting rfl hnonce ⟨rfl, rfl, rfl, rfl⟩
  | execute caller p nonce returned =>
    simp only [run, execute, bind_eq_ok, ensure_eq_ok, orError_eq_ok, pure_eq_ok,
      Prod.mk.injEq] at h
    obtain ⟨_, ⟨s₁, hnonce, pr, hread, -, hqueued, -, -, -, -, s₂, hdispatch, rfl⟩, rfl, -⟩ := h
    -- the proposal is the one stored before the nonce was checked
    have hread₀ : s.proposal.read p = some pr := by
      change (ballot s₁).proposal p = some pr at hread
      rw [(checkNonce_ok hnonce).1] at hread
      exact hread
    exact .execute hcaller hnonce hread₀ hqueued hdispatch ⟨rfl, rfl, rfl, rfl⟩
  | setAllowedCalls caller calls nonce =>
    -- only the contract itself may ask, and nobody signs for it
    simp only [run, setAllowedCalls, bind_eq_ok, pure_eq_ok, Prod.mk.injEq] at h
    obtain ⟨_, happly, -⟩ := h
    exact absurd (applySetAllowedCalls_ok happly).2 hcaller
  | migrateStorage caller => exact .migrate h

end Governance
end NbsBond
