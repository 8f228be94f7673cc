import NbsBond.Framework.Counting
import NbsBond.Framework.Lockstep
import NbsBond.Framework.Silent
import NbsBond.Governance.Ballot

/-!
# Storage migration

`migrate_storage` copies proposals and their counter from the instance entry into persistent
storage. Reads prefer the persistent copy and writes go there, so the legacy copies that stay behind
are stale from the first write on. `migration_invisible` says that nobody can tell: from any
storage, with the entries of every family spread over the two tiers in any way, calls of
`migrate_storage` can be put anywhere between the calls and queries of others without a change in
their answers.

Two storages are `Alike` when readers see the same ballot and the nonces and the allowlist are the
same. Every entrypoint runs in lockstep in two such storages (`exec_alike`), and `migrate_storage`
leads to one.
-/

namespace NbsBond
namespace Governance

open Soroban Silent

/-! ### Requests -/

/-- A call of an entrypoint at some ledger time, or a query. -/
inductive Request where
  | call (now : ℕ) (op : Op)
  | getProposal (proposalId : ℕ)
  | getVote (proposalId : ℕ) (signer : Address)
  | proposalCount
  deriving DecidableEq, Repr

/-- What a request is answered with. -/
inductive Answer where
  | called (r : Result GovernanceError ℕ)
  | proposal (r : Result GovernanceError Proposal)
  | vote (choice : Option VoteChoice)
  | count (n : ℕ)

/-- The outcome of a call, from outside: one that fails is rolled back. The answer is the value or
the error, and never the state. -/
def settle (s : State) : Result GovernanceError (State × ℕ) → State × Answer
  | .ok (s', r) => (s', .called (.ok r))
  | .error e => (s, .called (.error e))

/-- One request. -/
def respond (self : Address) (s : State) : Request → State × Answer
  | .call now op => settle s (exec self now s op)
  | .getProposal proposalId => (s, .proposal (getProposal s proposalId))
  | .getVote proposalId signer => (s, .vote (getVote s proposalId signer))
  | .proposalCount => (s, .count (readProposalCount s))

/-- The request is a call of `migrate_storage`. -/
def Request.Migrates : Request → Prop
  | .call _ (.migrateStorage _) => True
  | _ => False

instance : DecidablePred Request.Migrates
  | .call _ (.migrateStorage _) => isTrue trivial
  | .call _ (.propose ..) => isFalse not_false
  | .call _ (.voteApprove ..) => isFalse not_false
  | .call _ (.voteVeto ..) => isFalse not_false
  | .call _ (.cancel ..) => isFalse not_false
  | .call _ (.execute ..) => isFalse not_false
  | .call _ (.setAllowedCalls ..) => isFalse not_false
  | .getProposal _ => isFalse not_false
  | .getVote .. => isFalse not_false
  | .proposalCount => isFalse not_false

/-! ### Storages that nobody can tell apart -/

/-- Readers see the same; nonces and allowlist are the same. The version and the tier of each entry
may differ; that is all that a migration changes. -/
structure Alike (s t : State) : Prop where
  ballot : ballot s = ballot t
  nonce : s.nonce = t.nonce
  marker : s.nonceInitialized = t.nonceInitialized
  calls : s.allowedCalls = t.allowedCalls

namespace Alike

variable {s t : State}

theorem refl (s : State) : Alike s s := ⟨rfl, rfl, rfl, rfl⟩

theorem trans {u : State} (h : Alike s t) (h' : Alike t u) : Alike s u :=
  ⟨h.ballot.trans h'.ballot, h.nonce.trans h'.nonce, h.marker.trans h'.marker,
    h.calls.trans h'.calls⟩

theorem signers (h : Alike s t) : s.signers = t.signers := congrArg Ballot.signers h.ballot

theorem threshold (h : Alike s t) : getThreshold s = getThreshold t :=
  congrArg Ballot.threshold h.ballot

theorem timelock (h : Alike s t) : getTimelock s = getTimelock t :=
  congrArg Ballot.timelock h.ballot

theorem count (h : Alike s t) : readProposalCount s = readProposalCount t :=
  congrArg Ballot.count h.ballot

theorem proposal (h : Alike s t) : s.proposal.read = t.proposal.read :=
  congrArg Ballot.proposal h.ballot

theorem vote (h : Alike s t) : s.vote.read = t.vote.read := congrArg Ballot.vote h.ballot

theorem writeProposal (h : Alike s t) (p : ℕ) (pr : Proposal) :
    Alike { s with proposal := s.proposal.write p pr }
      { t with proposal := t.proposal.write p pr } where
  ballot := by rw [ballot_write_proposal, ballot_write_proposal, h.ballot]
  nonce := h.nonce
  marker := h.marker
  calls := h.calls

theorem writeVote (h : Alike s t) (p : ℕ) (a : Address) (choice : VoteChoice) :
    Alike { s with vote := s.vote.write (p, a) choice }
      { t with vote := t.vote.write (p, a) choice } where
  ballot := by rw [ballot_write_vote, ballot_write_vote, h.ballot]
  nonce := h.nonce
  marker := h.marker
  calls := h.calls

theorem writeCount (h : Alike s t) (n : ℕ) :
    Alike { s with proposalCount := s.proposalCount.write () n }
      { t with proposalCount := t.proposalCount.write () n } where
  -- the counter is one field of the ballot, and the others are compared as they are
  ballot := by
    simp only [Governance.ballot, getThreshold, getTimelock, readProposalCount, Tiered.read_write]
    have hballot := h.ballot
    simp only [Governance.ballot, Ballot.mk.injEq] at hballot
    obtain ⟨hsigners, hthreshold, htimelock, -, hproposal, hvote⟩ := hballot
    simp only [getThreshold, getTimelock] at hthreshold htimelock
    rw [hsigners, hthreshold, htimelock, hproposal, hvote]
    simp
  nonce := h.nonce
  marker := h.marker
  calls := h.calls

theorem writeNonce (h : Alike s t) (a : Address) (n : ℕ) :
    Alike (writeNonce s a n) (writeNonce t a n) where
  ballot := h.ballot
  nonce := by
    unfold Governance.writeNonce
    rw [h.nonce]
  marker := by
    unfold Governance.writeNonce
    rw [h.marker]
  calls := h.calls

theorem writeCalls (h : Alike s t) (calls : List AllowedCall) :
    Alike { s with allowedCalls := calls } { t with allowedCalls := calls } :=
  ⟨h.ballot, h.nonce, h.marker, rfl⟩

end Alike

/-! ### Entrypoints in lockstep -/

section Lockstep

variable {self : Address} {now : ℕ} {s t : State}

theorem checkNonce_alike (h : Alike s t) (a : Address) (n : ℕ) :
    Lockstep Alike (checkNonce s a n) (checkNonce t a n) := by
  -- reading a nonce may initialise it, on both sides or on neither
  have hget : Lockstep (fun x y => Alike x.1 y.1 ∧ x.2 = y.2) (getNonce s a) (getNonce t a) := by
    unfold getNonce
    rw [← h.nonce, ← h.marker]
    split
    · exact .pure ⟨h, rfl⟩
    · split
      · exact .pure ⟨h.writeNonce a _, rfl⟩
      · exact Lockstep.bind_same fun _ _ => .pure ⟨h, rfl⟩
  unfold checkNonce
  refine hget.bind ?_
  -- the two storages read the same nonce
  rintro ⟨s₁, m⟩ ⟨t₁, m'⟩ - - ⟨h₁, hm⟩
  change m = m' at hm
  subst hm
  exact Lockstep.bind_same fun _ _ => .pure (h₁.writeNonce a _)

theorem requireSigner_alike (h : Alike s t) (a : Address) :
    requireSigner s a = requireSigner t a := by
  unfold requireSigner
  rw [h.signers]

theorem isExecutableCall_alike (h : Alike s t) (target : Address) (method : Symbol) :
    isExecutableCall self s target method = isExecutableCall self t target method := by
  unfold isExecutableCall
  rw [h.calls]

theorem openVote_alike (h : Alike s t) (a : Address) (p : ℕ) :
    openVote now s a p = openVote now t a p := by
  unfold openVote
  rw [requireSigner_alike h, h.proposal, h.vote]

theorem applySetAllowedCalls_alike (h : Alike s t) (caller : Address)
    (calls : List (Option AllowedCall)) (n : ℕ) :
    Lockstep Alike (applySetAllowedCalls self s caller calls n)
      (applySetAllowedCalls self t caller calls n) := by
  unfold applySetAllowedCalls
  refine Lockstep.bind_same fun _ _ => ?_
  -- the nonce is spent before the list is looked at
  refine (checkNonce_alike h caller n).bind ?_
  intro s₁ t₁ _ _ h₁
  unfold writeAllowedCalls
  refine Lockstep.bind_same fun _ _ => ?_
  exact Lockstep.bind_same fun deduped _ => .pure (h₁.writeCalls deduped)

theorem dispatch_alike (h : Alike s t) (pr : Proposal) (returned : Bool) :
    Lockstep Alike (dispatch self s pr returned) (dispatch self t pr returned) := by
  unfold dispatch dispatchSelfCall
  -- a call on the contract itself is carried out here, any other is only checked and handed on
  split
  · refine Lockstep.bind_same fun _ _ => ?_
    split
    · exact applySetAllowedCalls_alike h _ _ _
    · exact .error _
  · rw [h.calls]
    refine Lockstep.bind_same fun _ _ => ?_
    exact Lockstep.bind_same fun _ _ => .pure h

/-- Every entrypoint but `migrate_storage` does the same in two storages that are alike. Each case
goes through the statements of the entrypoint: what is checked is the same on both sides, and what
is written keeps the storages alike. -/
theorem run_alike (h : Alike s t) {op : Op} (hop : ∀ caller, op ≠ .migrateStorage caller) :
    Lockstep (fun x y => Alike x.1 y.1 ∧ x.2 = y.2) (run now self s op) (run now self t op) := by
  cases op with
  | propose caller target method args description nonce =>
    refine (checkNonce_alike h caller nonce).bind ?_
    intro s₁ t₁ _ _ h₁
    -- the caller, the list and the counter are read the same
    rw [requireSigner_alike h₁, isExecutableCall_alike h₁]
    refine Lockstep.bind_same fun _ _ => ?_
    refine Lockstep.bind_same fun _ _ => ?_
    rw [h₁.count, h₁.timelock]
    exact .pure ⟨(h₁.writeCount _).writeProposal _ _, rfl⟩
  | voteApprove caller p nonce =>
    refine Lockstep.bind (R := Alike) ?_ fun _ _ _ _ h' => .pure ⟨h', rfl⟩
    refine (checkNonce_alike h caller nonce).bind ?_
    intro s₁ t₁ _ _ h₁
    -- an approval and a veto differ in the vote that is written
    rw [openVote_alike h₁]
    refine Lockstep.bind_same fun pr _ => ?_
    rw [h₁.threshold]
    exact .pure ((h₁.writeVote p caller .approve).writeProposal _ _)
  | voteVeto caller p nonce =>
    refine Lockstep.bind (R := Alike) ?_ fun _ _ _ _ h' => .pure ⟨h', rfl⟩
    refine (checkNonce_alike h caller nonce).bind ?_
    intro s₁ t₁ _ _ h₁
    rw [openVote_alike h₁]
    refine Lockstep.bind_same fun pr _ => ?_
    rw [h₁.threshold]
    exact .pure ((h₁.writeVote p caller .veto).writeProposal _ _)
  | cancel caller p nonce =>
    refine Lockstep.bind (R := Alike) ?_ fun _ _ _ _ h' => .pure ⟨h', rfl⟩
    refine (checkNonce_alike h caller nonce).bind ?_
    intro s₁ t₁ _ _ h₁
    rw [requireSigner_alike h₁, h₁.proposal]
    refine Lockstep.bind_same fun _ _ => ?_
    refine Lockstep.bind_same fun pr _ => ?_
    exact Lockstep.bind_same fun _ _ => .pure (h₁.writeProposal _ _)
  | execute caller p nonce returned =>
    refine Lockstep.bind (R := Alike) ?_ fun _ _ _ _ h' => .pure ⟨h', rfl⟩
    refine (checkNonce_alike h caller nonce).bind ?_
    intro s₁ t₁ _ _ h₁
    -- what is executed is the same proposal, with the same checks before it
    rw [h₁.proposal]
    refine Lockstep.bind_same fun pr _ => ?_
    refine Lockstep.bind_same fun _ _ => ?_
    refine Lockstep.bind_same fun _ _ => ?_
    refine Lockstep.bind_same fun _ _ => ?_
    refine (dispatch_alike h₁ pr returned).bind ?_
    intro s₂ t₂ _ _ h₂
    exact .pure (h₂.writeProposal _ _)
  | setAllowedCalls caller calls nonce =>
    refine Lockstep.bind (R := Alike) ?_ fun _ _ _ _ h' => .pure ⟨h', rfl⟩
    exact applySetAllowedCalls_alike h caller calls nonce
  | migrateStorage caller => exact absurd rfl (hop caller)

theorem exec_alike (h : Alike s t) {op : Op} (hop : ∀ caller, op ≠ .migrateStorage caller) :
    Lockstep (fun x y => Alike x.1 y.1 ∧ x.2 = y.2) (exec self now s op) (exec self now t op) := by
  unfold exec
  split
  · exact .error _
  · exact run_alike h hop

end Lockstep

/-! ### Migration -/

/-- The proposal with this id is stored in the instance entry only. -/
def onlyLegacy (s : State) (id : ℕ) : Bool :=
  (s.proposal.persistent id).isNone && (s.proposal.legacy id).isSome

/-- What the copying of proposals and counter leaves alone. The version is set by the caller of the
loop. -/
structure Copied (s s' : State) : Prop where
  alike : Alike s' s
  version : s'.storageVersion = s.storageVersion

theorem Copied.refl (s : State) : Copied s s := ⟨.refl s, rfl⟩

theorem Copied.trans {s s₁ s₂ : State} (h : Copied s s₁) (h' : Copied s₁ s₂) : Copied s s₂ :=
  ⟨h'.alike.trans h.alike, h'.version.trans h.version⟩

/-- One round copies one proposal if it is stored in the instance entry only, and counts it. Copying
moves an entry between tiers, and readers of either see the same. -/
theorem migrateProposal_eq (s : State) (k id : ℕ) :
    Copied s (migrateProposal (s, k) id).1 ∧
      (migrateProposal (s, k) id).2 = k + (if onlyLegacy s id then 1 else 0) ∧
      ∀ j ≠ id, onlyLegacy (migrateProposal (s, k) id).1 j = onlyLegacy s j := by
  have hballot := ballot_migrateProposal (s, k) id
  unfold migrateProposal at hballot ⊢
  dsimp only at hballot ⊢
  split
  -- there is a legacy copy and no persistent one: it is copied
  · next proposal hpersistent hlegacy =>
    rw [hpersistent, hlegacy] at hballot
    refine ⟨⟨⟨hballot, rfl, rfl, rfl⟩, rfl⟩, ?_, ?_⟩
    · simp [onlyLegacy, hpersistent, hlegacy]
    · intro j hj
      simp [onlyLegacy, Tiered.write, Function.update_of_ne hj]
  -- otherwise the round does nothing, and the id was not counted
  · next hnot =>
    refine ⟨.refl s, ?_, fun _ _ => rfl⟩
    have hfalse : onlyLegacy s id = false := by
      cases hpersistent : s.proposal.persistent id with
      | some _ => simp [onlyLegacy, hpersistent]
      | none =>
        cases hlegacy : s.proposal.legacy id with
        | none => simp [onlyLegacy, hlegacy]
        | some proposal => exact absurd hlegacy (hnot proposal hpersistent)
    rw [hfalse]
    rfl

/-- **The loop of `migrate_storage`** counts the ids whose proposal is stored in the instance entry
only. Induction on the ids; a round leaves the ids after it as they were. -/
theorem foldl_migrateProposal {ids : List ℕ} (hids : ids.Nodup) (s : State) (k : ℕ) :
    Copied s (ids.foldl migrateProposal (s, k)).1 ∧
      (ids.foldl migrateProposal (s, k)).2 = k + ids.countP (onlyLegacy s) := by
  induction ids generalizing s k with
  | nil => exact ⟨.refl s, rfl⟩
  | cons id ids ih =>
    obtain ⟨hnew, hids⟩ := List.nodup_cons.mp hids
    obtain ⟨hcopied, hcount, hother⟩ := migrateProposal_eq s k id
    rw [List.foldl_cons]
    obtain ⟨hrest, hsum⟩ := ih hids (migrateProposal (s, k) id).1 (migrateProposal (s, k) id).2
    refine ⟨hcopied.trans hrest, hsum.trans ?_⟩
    -- the other ids are counted as they were before this round
    have hsame : ids.countP (onlyLegacy (migrateProposal (s, k) id).1) =
        ids.countP (onlyLegacy s) :=
      Counting.countP_same fun j hj => hother j fun heq => hnew (heq ▸ hj)
    rw [hsame, hcount, List.countP_cons]
    omega

theorem migrateCount_copied {s : State} {count : ℕ}
    (hlegacy : s.proposalCount.legacy () = some count) : Copied s (migrateCount s count) := by
  have hballot := ballot_migrateCount hlegacy
  unfold migrateCount at hballot ⊢
  split
  · exact .refl s
  · next hnone =>
    rw [hnone] at hballot
    exact ⟨⟨hballot, rfl, rfl, rfl⟩, rfl⟩

/-- The ids up to the legacy counter whose proposal is stored in the instance entry only. The source
counts from 1 up to the counter, so that a legacy proposal beyond it would not be moved. -/
def unmigrated (s : State) : Set ℕ :=
  {id | 1 ≤ id ∧ id ≤ (s.proposalCount.legacy ()).getD 0 ∧ onlyLegacy s id = true}

/-- The first `migrate_storage` of a signer. It returns how many it has moved. -/
theorem migrateStorage_first {s : State} {caller : Address} {u : Unit}
    (hsigner : requireSigner s caller = .ok u) (hversion : s.storageVersion = 0) :
    ∃ s', migrateStorage s caller = .ok (s', (unmigrated s).ncard) ∧ Alike s' s ∧
      s'.storageVersion = storageVersionPersistent := by
  unfold migrateStorage
  rw [hsigner]
  have hfresh : ¬ storageVersionPersistent ≤ s.storageVersion := by
    rw [hversion]
    decide
  -- without a legacy counter the loop is empty
  cases hlegacy : s.proposalCount.legacy () with
  | none =>
    have hempty : unmigrated s = ∅ := by
      refine Set.eq_empty_of_forall_notMem ?_
      rintro id ⟨hone, hle, -⟩
      rw [hlegacy] at hle
      exact absurd (hone.trans hle) (by decide)
    refine ⟨{ s with storageVersion := storageVersionPersistent }, ?_, ⟨rfl, rfl, rfl, rfl⟩, rfl⟩
    simp only [hempty, Set.ncard_empty, bind, Except.bind, if_neg hfresh]
    rfl
  | some count =>
    have hnodup : (List.range' 1 count).Nodup := List.nodup_range'
    have hcopied := migrateCount_copied hlegacy
    obtain ⟨hloop, hnumber⟩ := foldl_migrateProposal hnodup (migrateCount s count) 0
    have hsame : onlyLegacy (migrateCount s count) = onlyLegacy s := by
      funext id
      unfold migrateCount
      split <;> rfl
    -- the loop counts the ids one by one, the set has them at once
    have hncard : (unmigrated s).ncard = (List.range' 1 count).countP (onlyLegacy s) := by
      rw [Counting.countP_eq_ncard hnodup]
      congr 1
      ext id
      simp only [unmigrated, hlegacy, Option.getD_some, Set.mem_ofPred_eq, List.mem_range'_1]
      constructor
      · rintro ⟨hone, hle, hlegacy⟩
        exact ⟨⟨hone, by omega⟩, hlegacy⟩
      · rintro ⟨⟨hone, hlt⟩, hlegacy⟩
        exact ⟨hone, by omega, hlegacy⟩
    rw [hsame, Nat.zero_add, ← hncard] at hnumber
    refine ⟨{ ((List.range' 1 count).foldl migrateProposal (migrateCount s count, 0)).1 with
      storageVersion := storageVersionPersistent }, ?_, ?_, rfl⟩
    · simp only [bind, Except.bind, if_neg hfresh]
      rw [← hnumber]
      rfl
    · have halike := (hcopied.trans hloop).alike
      exact ⟨halike.ballot, halike.nonce, halike.marker, halike.calls⟩

/-- A later `migrate_storage` of a signer. -/
theorem migrateStorage_later {s : State} {caller : Address} {u : Unit}
    (hsigner : requireSigner s caller = .ok u)
    (hversion : storageVersionPersistent ≤ s.storageVersion) :
    migrateStorage s caller = .ok (s, 0) := by
  unfold migrateStorage
  rw [hsigner]
  simp only [bind, Except.bind, if_pos hversion]
  rfl

/-! ### Migration among other requests -/

theorem requireSigner_of_isSigner {s : State} {a : Address} (h : isSigner s a = true) :
    requireSigner s a = .ok () := by
  unfold isSigner at h
  unfold requireSigner
  cases hsigners : s.signers with
  | none =>
    rw [hsigners] at h
    cases h
  | some signers =>
    rw [hsigners] at h
    have hmem : a ∈ signers := of_decide_eq_true h
    simp only [orError, bind, Except.bind, ensure, if_pos hmem]

theorem checkNonce_version {s s' : State} {a : Address} {n : ℕ} (h : checkNonce s a n = .ok s') :
    s'.storageVersion = s.storageVersion := by
  simp only [checkNonce, bind_eq_ok, ensure_eq_ok, pure_eq_ok] at h
  obtain ⟨⟨s₁, m⟩, hget, -, -, rfl⟩ := h
  unfold getNonce at hget
  split at hget
  · cases hget
    rfl
  · split at hget
    -- a nonce that has to be initialised is written, and nothing else
    · cases hget
      rfl
    · simp only [bind_eq_ok, pure_eq_ok, Prod.mk.injEq] at hget
      obtain ⟨-, -, rfl, -⟩ := hget
      rfl

theorem applySetAllowedCalls_version {self caller : Address} {s s' : State}
    {calls : List (Option AllowedCall)} {n : ℕ}
    (h : applySetAllowedCalls self s caller calls n = .ok s') :
    s'.storageVersion = s.storageVersion := by
  simp only [applySetAllowedCalls, writeAllowedCalls, bind_eq_ok, pure_eq_ok] at h
  obtain ⟨-, -, s₁, hnonce, -, -, calls', -, rfl⟩ := h
  change s₁.storageVersion = s.storageVersion
  exact checkNonce_version hnonce

theorem dispatch_version {self : Address} {s s' : State} {pr : Proposal} {returned : Bool}
    (h : dispatch self s pr returned = .ok s') : s'.storageVersion = s.storageVersion := by
  unfold dispatch dispatchSelfCall at h
  split at h
  · simp only [bind_eq_ok] at h
    obtain ⟨-, -, h⟩ := h
    split at h
    · exact applySetAllowedCalls_version h
    · cases h
  · simp only [bind_eq_ok, pure_eq_ok] at h
    obtain ⟨-, -, -, -, rfl⟩ := h
    rfl

/-- The migration flag is never taken back. No other call writes it, and `migrate_storage` itself
does nothing once it is set. -/
theorem exec_version {self : Address} {now : ℕ} {s s' : State} {op : Op} {r : ℕ}
    (h : exec self now s op = .ok (s', r))
    (hversion : storageVersionPersistent ≤ s.storageVersion) :
    storageVersionPersistent ≤ s'.storageVersion := by
  -- the three kinds of calls, by what they leave of the rest of the state
  cases rest_of_exec h with
  | voting _ hnonce hrest =>
    rw [hrest.version, checkNonce_version hnonce]
    exact hversion
  | execute _ hnonce _ _ hdispatch hrest =>
    rw [hrest.version, dispatch_version hdispatch, checkNonce_version hnonce]
    exact hversion
  | migrate hmigrate =>
    simp only [migrateStorage, bind_eq_ok, if_pos hversion, pure_eq_ok, Prod.mk.injEq] at hmigrate
    obtain ⟨-, -, rfl, -⟩ := hmigrate
    exact hversion

/-- `migrate_storage`, called by anybody at any time, leads to a storage that nobody can tell from
the one before. -/
theorem exec_migrateStorage_alike {self : Address} {now : ℕ} {s s' : State} {caller : Address}
    {r : ℕ} (h : exec self now s (.migrateStorage caller) = .ok (s', r)) : Alike s' s := by
  unfold exec at h
  split at h
  · cases h
  change migrateStorage s caller = .ok (s', r) at h
  have hsigner : ∃ u, requireSigner s caller = .ok u := by
    simp only [migrateStorage, bind_eq_ok] at h
    obtain ⟨u, hsigner, -⟩ := h
    exact ⟨u, hsigner⟩
  obtain ⟨u, hsigner⟩ := hsigner
  -- the first one copies, and the later ones return at once
  rcases Nat.eq_zero_or_pos s.storageVersion with hversion | hversion
  · obtain ⟨s₁, hfirst, halike, -⟩ := migrateStorage_first hsigner hversion
    rw [hfirst] at h
    cases h
    exact halike
  · rw [migrateStorage_later hsigner hversion] at h
    cases h
    exact .refl s

theorem settle_alike {s t : State} {x y : Result GovernanceError (State × ℕ)} (h : Alike s t)
    (hxy : Lockstep (fun x y => Alike x.1 y.1 ∧ x.2 = y.2) x y) :
    Alike (settle s x).1 (settle t y).1 ∧ (settle s x).2 = (settle t y).2 := by
  cases hxy with
  | ok hsame => exact ⟨hsame.1, congrArg (fun r => Answer.called (.ok r)) hsame.2⟩
  | error e => exact ⟨h, rfl⟩

theorem ne_of_not_migrates {now : ℕ} {op : Op} (h : ¬ (Request.call now op).Migrates)
    (caller : Address) : op ≠ .migrateStorage caller := by
  rintro rfl
  exact h trivial

/-- `migrate_storage` cannot be observed. This is what the rules about silent requests ask for: a
migration keeps storages alike, and the others act and answer alike. -/
theorem invisible_migration (self : Address) :
    Invisible (respond self) Alike Request.Migrates where
  silent_step s t q hq h := by
    cases q with
    | call now op =>
      cases op with
      | migrateStorage caller =>
        change Alike (settle s (exec self now s (.migrateStorage caller))).1 t
        -- a call that fails is rolled back
        cases hexec : exec self now s (.migrateStorage caller) with
        | ok x => exact (exec_migrateStorage_alike hexec).trans h
        | error _ => exact h
      | _ => exact hq.elim
    | _ => exact hq.elim
  heard_step s t q hq h := by
    cases q with
    | call now op => exact (settle_alike h (exec_alike h (ne_of_not_migrates hq))).1
    | _ => exact h
  heard_answer s t q hq h := by
    cases q with
    | call now op => exact (settle_alike h (exec_alike h (ne_of_not_migrates hq))).2
    | getProposal p => simp only [respond, getProposal, h.proposal]
    | getVote p a => simp only [respond, getVote, h.vote]
    | proposalCount => simp only [respond, h.count]

/-- **Storage migration is invisible.** From any storage, with entries spread over the two tiers in
any way, calls of `migrate_storage` put into a list of requests, or taken out of it, do not change
what the others are answered. The first one of a signer returns the number of ids up to the legacy
counter whose proposal is stored in the instance entry only; after it, and whatever requests follow,
another one returns 0 and changes nothing. The first part is about any two lists of requests that
differ in migrations only, so that they may also be moved. -/
theorem migration_invisible (self : Address) (s : State) :
    (∀ reqs reqs' : List Request,
      (reqs.filter fun q => ¬ q.Migrates) = (reqs'.filter fun q => ¬ q.Migrates) →
      ((answers (respond self) s reqs).filter fun x => ¬ x.1.Migrates) =
        (answers (respond self) s reqs').filter fun x => ¬ x.1.Migrates) ∧
    ∀ now caller, isSigner s caller = true → caller ≠ self → s.storageVersion = 0 →
      ∃ s₁, respond self s (.call now (.migrateStorage caller)) =
          (s₁, .called (.ok (unmigrated s).ncard)) ∧
        ∀ reqs now' caller', isSigner (after (respond self) s₁ reqs) caller' = true →
          caller' ≠ self →
          respond self (after (respond self) s₁ reqs) (.call now' (.migrateStorage caller')) =
            (after (respond self) s₁ reqs, .called (.ok 0)) := by
  -- nobody else can tell, by the general rule about silent requests
  refine ⟨fun reqs reqs' => (invisible_migration self).answers_congr (.refl s), ?_⟩
  intro now caller hsigner hcaller hversion
  obtain ⟨s₁, hfirst, -, hmigrated⟩ :=
    migrateStorage_first (requireSigner_of_isSigner hsigner) hversion
  have hexec : exec self now s (.migrateStorage caller) = .ok (s₁, (unmigrated s).ncard) :=
    (if_neg hcaller).trans hfirst
  refine ⟨s₁, by simp only [respond, hexec, settle], fun reqs now' caller' hsigner' hcaller' => ?_⟩
  -- the flag is set from here on
  have hkept : storageVersionPersistent ≤ (after (respond self) s₁ reqs).storageVersion := by
    refine after_invariant (P := fun s : State => storageVersionPersistent ≤ s.storageVersion) ?_
      hmigrated.ge reqs
    intro s q hs
    cases q with
    | call now op =>
      change storageVersionPersistent ≤ (settle s (exec self now s op)).1.storageVersion
      cases hexec : exec self now s op with
      | ok x => exact exec_version hexec hs
      | error _ => exact hs
    | _ => exact hs
  have hlater : exec self now' (after (respond self) s₁ reqs) (.migrateStorage caller') =
      .ok (after (respond self) s₁ reqs, 0) :=
    (if_neg hcaller').trans (migrateStorage_later (requireSigner_of_isSigner hsigner') hkept)
  simp only [respond, hlater, settle]

/-- A storage from before the migration: the counter and both proposals in the instance entry, and a
vote on the second one, which has moved that proposal. -/
def halfMoved : State :=
  let pr (id : ℕ) (approvalCount : ℕ) : Proposal :=
    ⟨id, ⟨1⟩, ⟨50⟩, "pay", [], "p", .pending, approvalCount, 0, 5, 2592005, 0, 0, 10⟩
  { signers := some [⟨1⟩, ⟨2⟩]
    threshold := some 2
    timelockSeconds := some 10
    proposal := ⟨fun id => if id = 2 then some (pr 2 1) else none,
      fun id => if id = 1 then some (pr 1 0) else if id = 2 then some (pr 2 0) else none⟩
    proposalCount := ⟨fun _ => none, fun _ => some 2⟩
    vote := ⟨fun k => if k = (2, ⟨1⟩) then some .approve else none, fun _ => none⟩
    nonce := ⟨fun _ => none, fun _ => none⟩
    nonceInitialized := fun _ => false
    allowedCalls := [⟨⟨50⟩, "pay"⟩]
    storageVersion := 0 }

/-- The first migration there moves one proposal and every later one none, and what is read around
it is read without it. -/
theorem migration_invisible_half_moved :
    ((answers (respond ⟨9⟩) halfMoved [.getProposal 1, .call 7 (.migrateStorage ⟨1⟩),
        .getProposal 1, .getProposal 2]).filter fun x => ¬ x.1.Migrates) =
      ((answers (respond ⟨9⟩) halfMoved [.getProposal 1, .getProposal 1, .getProposal 2]).filter
        fun x => ¬ x.1.Migrates) ∧
    ∃ s₁, respond ⟨9⟩ halfMoved (.call 7 (.migrateStorage ⟨1⟩)) = (s₁, .called (.ok 1)) ∧
      ∀ reqs now' caller', isSigner (after (respond ⟨9⟩) s₁ reqs) caller' = true →
        caller' ≠ ⟨9⟩ →
        respond ⟨9⟩ (after (respond ⟨9⟩) s₁ reqs) (.call now' (.migrateStorage caller')) =
          (after (respond ⟨9⟩) s₁ reqs, .called (.ok 0)) := by
  obtain ⟨hinvisible, hfirst⟩ := migration_invisible ⟨9⟩ halfMoved
  obtain ⟨s₁, hmigrated, hlater⟩ := hfirst 7 ⟨1⟩ (by decide) (by decide) rfl
  have hone : (respond ⟨9⟩ halfMoved (.call 7 (.migrateStorage ⟨1⟩))).2 = .called (.ok 1) := rfl
  refine ⟨hinvisible _ _ rfl, s₁, ?_, hlater⟩
  rw [hmigrated] at hone ⊢
  exact congrArg (Prod.mk s₁) hone

end Governance
end NbsBond
