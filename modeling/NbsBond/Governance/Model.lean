import NbsBond.Framework.Run
import NbsBond.Framework.Tiered
import NbsBond.Shared.Types

/-!
# The Governance contract

`contracts/governance/src/lib.rs`: M-of-N proposals with a timelock, an expiry and an execution
allowlist. Proposals, the proposal counter, votes and nonces moved from instance to persistent
storage and are `Tiered`; the rest of the configuration lives in instance storage, the allowlist in
persistent storage.

`execute` calls an arbitrary contract. Soroban forbids re-entry, so that call cannot touch this
contract's storage, and all that matters of it is whether it returned: this is an argument of the
operation.
-/

namespace NbsBond
namespace Governance

open Soroban

abbrev Symbol : Type := String

def defaultTimelockSeconds : ℕ := 172800

def defaultProposalTtlSeconds : ℕ := 2592000

def storageVersionPersistent : ℕ := 1

def maxAllowedCalls : ℕ := 64

/-- The one method of the contract itself that a proposal may target. -/
def selfMethodSetAllowedCalls : Symbol := "set_allowed_calls"

/-- `u64::saturating_add`. A sum past the end of time is the end of time. -/
def saturatingAddU64 (a b : ℕ) : ℕ := min (a + b) (2 ^ 64 - 1)

structure AllowedCall where
  contract : Address
  function : Symbol
  deriving DecidableEq, Repr

/-- A `Val`, as far as a self-administration proposal decodes it. A vector decodes element by
element; `none` is an element that is not an `AllowedCall`. -/
inductive Val where
  | address (a : Address)
  | vec (calls : List (Option AllowedCall))
  | u64 (n : ℕ)
  | other
  deriving DecidableEq, Repr

inductive ProposalStatus where
  | pending
  | queued
  | executed
  | rejected
  | cancelled
  | expired
  deriving DecidableEq, Repr

/-- A proposal. `timelock_seconds` is that of the moment of the proposal; `queued_at` and
`executed_at` are 0 until then. -/
structure Proposal where
  id : ℕ
  proposer : Address
  target : Address
  method : Symbol
  args : List Val
  description : Symbol
  status : ProposalStatus
  approvalCount : ℕ
  vetoCount : ℕ
  createdAt : ℕ
  expiresAt : ℕ
  queuedAt : ℕ
  executedAt : ℕ
  timelockSeconds : ℕ
  deriving DecidableEq, Repr

/-- The contract's storage. The entries that were once in instance storage are `Tiered`: the
persistent tier is read first. -/
structure State where
  signers : Option (List Address)
  threshold : Option ℕ
  timelockSeconds : Option ℕ
  proposal : Tiered ℕ Proposal
  proposalCount : Tiered Unit ℕ
  vote : Tiered (ℕ × Address) VoteChoice
  nonce : Tiered Address ℕ
  nonceInitialized : Address → Bool
  allowedCalls : List AllowedCall
  storageVersion : ℕ

/-! ### Helpers -/

/-- `write_nonce`: the nonce and its marker are written together. The marker outlives an archived
nonce: that is how `get_nonce` tells one that is gone from one that never was. -/
def writeNonce (s : State) (addr : Address) (nonce : ℕ) : State :=
  { s with
    nonce := s.nonce.write addr nonce
    nonceInitialized := Function.update s.nonceInitialized addr true }

/-- `get_nonce`: a legacy nonce is copied forward, and a missing one is an error when the marker
says that it existed. -/
def getNonce (s : State) (addr : Address) : Result GovernanceError (State × ℕ) :=
  match s.nonce.persistent addr with
  | some nonce => return (s, nonce)
  | none =>
    match s.nonce.legacy addr with
    | some nonce => return (writeNonce s addr nonce, nonce)
    -- Nothing stored in either tier: a fresh address starts at 0, any other has lost its nonce.
    | none => do
      ensure (s.nonceInitialized addr = false) .nonceArchived
      return (s, 0)

/-- `check_nonce`; the next nonce is a plain `u64` addition. The nonce is spent whether or not the
rest of the entrypoint goes through, unless that fails and undoes it. -/
def checkNonce (s : State) (addr : Address) (nonce : ℕ) : Result GovernanceError State := do
  let (s, current) ← getNonce s addr
  ensure (nonce = current) .invalidNonce
  return writeNonce s addr ((nonce + 1) % 2 ^ 64)

/-- `require_signer`. Whoever is no signer has its nonce checked all the same: callers check the
nonce first. -/
def requireSigner (s : State) (caller : Address) : Result GovernanceError Unit := do
  let signers ← orError s.signers .notInitialized
  ensure (caller ∈ signers) .notSigner

/-- `is_expired`. A proposal expires at the very second. -/
def isExpired (now : ℕ) (proposal : Proposal) : Prop := proposal.expiresAt ≤ now

instance (now : ℕ) (proposal : Proposal) : Decidable (isExpired now proposal) :=
  inferInstanceAs (Decidable (_ ≤ _))

/-- `read_proposal_count`. -/
def readProposalCount (s : State) : ℕ := (s.proposalCount.read ()).getD 0

/-- `get_threshold`. One signature suffices where no threshold is stored; the constructor always
stores one. -/
def getThreshold (s : State) : ℕ := s.threshold.getD 1

/-- `get_timelock`. -/
def getTimelock (s : State) : ℕ := s.timelockSeconds.getD defaultTimelockSeconds

/-- `contains_call`. -/
def containsCall (calls : List AllowedCall) (contract : Address) (function : Symbol) : Bool :=
  calls.any fun call => call.contract = contract ∧ call.function = function

/-- One round of the deduplicating loop. Arguments that do not decode to calls are refused as a
whole. -/
def pushCall (deduped : List AllowedCall) (call : Option AllowedCall) :
    Result GovernanceError (List AllowedCall) := do
  let call ← orError call .invalidCallArgs
  return if containsCall deduped call.contract call.function then deduped else deduped ++ [call]

/-- `write_allowed_calls`. At most 64 entries, counted before duplicates are dropped. -/
def writeAllowedCalls (s : State) (calls : List (Option AllowedCall)) :
    Result GovernanceError State := do
  ensure (calls.length ≤ maxAllowedCalls) .invalidCallArgs
  let deduped ← calls.foldlM pushCall []
  return { s with allowedCalls := deduped }

/-- `is_executable_call`; `self` is the contract's own address. On the allowlist or not, the
contract itself can be asked for one method only. -/
def isExecutableCall (self : Address) (s : State) (target : Address) (method : Symbol) : Bool :=
  if target = self then method = selfMethodSetAllowedCalls
  else containsCall s.allowedCalls target method

/-- `apply_set_allowed_calls`. Only the contract itself may ask, which it does from `execute`. -/
def applySetAllowedCalls (self : Address) (s : State) (caller : Address)
    (calls : List (Option AllowedCall)) (nonce : ℕ) : Result GovernanceError State := do
  ensure (caller = self) .unauthorized
  -- The nonce of the contract at itself, which the proposal has to name.
  let s ← checkNonce s caller nonce
  writeAllowedCalls s calls

/-- `dispatch_self_call`. -/
def dispatchSelfCall (self : Address) (s : State) (method : Symbol) (args : List Val) :
    Result GovernanceError State := do
  ensure (method = selfMethodSetAllowedCalls) .unauthorizedCall
  -- The arguments were stored with the proposal and are decoded only now.
  match args with
  | [.address caller, .vec calls, .u64 nonce] => applySetAllowedCalls self s caller calls nonce
  | _ => .error (.error .invalidCallArgs)

/-! ### Entrypoints -/

/-- `__constructor`. It traps on signers or a threshold that make no sense; the allowlist given may
be refused too. -/
def construct (signers : List Address) (threshold timelockSeconds : ℕ)
    (allowedCalls : List (Option AllowedCall)) : Result GovernanceError State := do
  let _ ← orTrap (if signers ≠ [] ∧ 0 < threshold ∧ threshold ≤ signers.length ∧ signers.Nodup
    then some () else none)
  let s : State := {
    signers := some signers
    threshold := some threshold
    timelockSeconds := some timelockSeconds
    proposal := .empty
    proposalCount := .empty
    vote := .empty
    nonce := .empty
    nonceInitialized := fun _ => false
    allowedCalls := []
    storageVersion := 0 }
  orTrap (writeAllowedCalls s allowedCalls).toOption

/-- `propose`. Whether the call may be made is asked here and again when it is executed, for the
allowlist may have changed. -/
def propose (now : ℕ) (self : Address) (s : State) (caller target : Address) (method : Symbol)
    (args : List Val) (description : Symbol) (nonce : ℕ) :
    Result GovernanceError (State × ℕ) := do
  let s ← checkNonce s caller nonce
  requireSigner s caller
  ensure (isExecutableCall self s target method) .unauthorizedCall
  let proposalId := readProposalCount s + 1
  let proposal : Proposal :=
    ⟨proposalId, caller, target, method, args, description, .pending, 0, 0, now,
      saturatingAddU64 now defaultProposalTtlSeconds, 0, 0, getTimelock s⟩
  return ({ s with
    proposalCount := s.proposalCount.write () proposalId
    proposal := s.proposal.write proposalId proposal }, proposalId)

/-- The checks a vote makes before it is counted: a signer who has not voted yet, a pending proposal
that has not expired. A vote is never taken back, and a signer has one vote, for or against. -/
def openVote (now : ℕ) (s : State) (caller : Address) (proposalId : ℕ) :
    Result GovernanceError Proposal := do
  requireSigner s caller
  let proposal ← orError (s.proposal.read proposalId) .proposalNotFound
  ensure (proposal.status = .pending) .notPending
  ensure (¬ isExpired now proposal) .proposalExpired
  ensure (s.vote.read (proposalId, caller) = none) .alreadyVoted
  return proposal

/-- Count an approval; the threshold-th one queues the proposal. `queued_at` starts the timelock. -/
def countApproval (now threshold : ℕ) (proposal : Proposal) : Proposal :=
  let proposal := { proposal with approvalCount := proposal.approvalCount + 1 }
  if threshold ≤ proposal.approvalCount then
    { proposal with status := .queued, queuedAt := now }
  else proposal

/-- Count a veto; the threshold-th one rejects the proposal. As many vetoes as approvals would have
been needed. -/
def countVeto (threshold : ℕ) (proposal : Proposal) : Proposal :=
  let proposal := { proposal with vetoCount := proposal.vetoCount + 1 }
  if threshold ≤ proposal.vetoCount then { proposal with status := .rejected } else proposal

/-- `vote_approve`. -/
def voteApprove (now : ℕ) (s : State) (caller : Address) (proposalId nonce : ℕ) :
    Result GovernanceError State := do
  let s ← checkNonce s caller nonce
  let proposal ← openVote now s caller proposalId
  return { s with
    vote := s.vote.write (proposalId, caller) .approve
    proposal := s.proposal.write proposalId (countApproval now (getThreshold s) proposal) }

/-- `vote_veto`. -/
def voteVeto (now : ℕ) (s : State) (caller : Address) (proposalId nonce : ℕ) :
    Result GovernanceError State := do
  let s ← checkNonce s caller nonce
  let proposal ← openVote now s caller proposalId
  return { s with
    vote := s.vote.write (proposalId, caller) .veto
    proposal := s.proposal.write proposalId (countVeto (getThreshold s) proposal) }

/-- `cancel`. Any signer, not only the proposer; a queued proposal cannot be cancelled. -/
def cancel (s : State) (caller : Address) (proposalId nonce : ℕ) :
    Result GovernanceError State := do
  let s ← checkNonce s caller nonce
  requireSigner s caller
  let proposal ← orError (s.proposal.read proposalId) .proposalNotFound
  ensure (proposal.status = .pending) .notPending
  return { s with proposal := s.proposal.write proposalId { proposal with status := .cancelled } }

/-- The call a proposal stands for: internal for the contract itself, external and allowlisted
otherwise. `returned` says whether the external call came back. -/
def dispatch (self : Address) (s : State) (proposal : Proposal) (returned : Bool) :
    Result GovernanceError State :=
  if proposal.target = self then dispatchSelfCall self s proposal.method proposal.args
  else do
    ensure (containsCall s.allowedCalls proposal.target proposal.method) .unauthorizedCall
    -- A call that fails in the target traps, and the proposal stays queued.
    let _ ← orTrap (if returned then some () else none)
    return s

/-- `execute`. Anybody may execute; the proposal is marked after its call came back. -/
def execute (now : ℕ) (self : Address) (s : State) (caller : Address) (proposalId nonce : ℕ)
    (returned : Bool) : Result GovernanceError State := do
  let s ← checkNonce s caller nonce
  -- `execute` does not ask for a signer: the approvals have been given.
  let proposal ← orError (s.proposal.read proposalId) .proposalNotFound
  ensure (proposal.status = .queued) .notQueued
  ensure (¬ isExpired now proposal) .proposalExpired
  ensure (saturatingAddU64 proposal.queuedAt proposal.timelockSeconds ≤ now) .timelockNotElapsed
  let s ← dispatch self s proposal returned
  return { s with
    proposal := s.proposal.write proposalId
      { proposal with status := .executed, executedAt := now } }

/-- `set_allowed_calls`. The entrypoint: called from outside it fails, because no signature is that
of the contract. -/
def setAllowedCalls (self : Address) (s : State) (caller : Address)
    (calls : List (Option AllowedCall)) (nonce : ℕ) : Result GovernanceError State :=
  applySetAllowedCalls self s caller calls nonce

/-- One round of the loop of `migrate_storage`. A proposal that is in the persistent tier already is
left alone. -/
def migrateProposal (acc : State × ℕ) (id : ℕ) : State × ℕ :=
  let (s, migrated) := acc
  match s.proposal.persistent id, s.proposal.legacy id with
  | none, some proposal => ({ s with proposal := s.proposal.write id proposal }, migrated + 1)
  | _, _ => acc

/-- The counter's part of `migrate_storage`. The counter is copied once; one that is persistent is
newer than the legacy one. -/
def migrateCount (s : State) (count : ℕ) : State :=
  match s.proposalCount.persistent () with
  | some _ => s
  | none => { s with proposalCount := s.proposalCount.write () count }

/-- `migrate_storage`. The version makes it a no-op from the second call on. Votes and nonces are
not copied: they move when they are next written or read. -/
def migrateStorage (s : State) (caller : Address) : Result GovernanceError (State × ℕ) := do
  requireSigner s caller
  if storageVersionPersistent ≤ s.storageVersion then return (s, 0)
  else
    let (s, migrated) :=
      match s.proposalCount.legacy () with
      | some count => (List.range' 1 count).foldl migrateProposal (migrateCount s count, 0)
      | none => (s, 0)
    return ({ s with storageVersion := storageVersionPersistent }, migrated)

/-! ### Queries -/

/-- `get_proposal`. -/
def getProposal (s : State) (proposalId : ℕ) : Result GovernanceError Proposal :=
  orError (s.proposal.read proposalId) .proposalNotFound

/-- `get_vote`. -/
def getVote (s : State) (proposalId : ℕ) (signer : Address) : Option VoteChoice :=
  s.vote.read (proposalId, signer)

/-- `is_call_allowed`. -/
def isCallAllowed (s : State) (contract : Address) (function : Symbol) : Bool :=
  containsCall s.allowedCalls contract function

/-- `is_signer`. -/
def isSigner (s : State) (address : Address) : Bool :=
  (s.signers.map fun signers => decide (address ∈ signers)).getD false

/-! ### The contract as a machine -/

/-- The state-changing entrypoints. -/
inductive Op where
  | propose (caller target : Address) (method : Symbol) (args : List Val) (description : Symbol)
      (nonce : ℕ)
  | voteApprove (caller : Address) (proposalId nonce : ℕ)
  | voteVeto (caller : Address) (proposalId nonce : ℕ)
  | cancel (caller : Address) (proposalId nonce : ℕ)
  | execute (caller : Address) (proposalId nonce : ℕ) (returned : Bool)
  | setAllowedCalls (caller : Address) (calls : List (Option AllowedCall)) (nonce : ℕ)
  | migrateStorage (caller : Address)
  deriving DecidableEq, Repr

/-- The address whose authorization an entrypoint requires. -/
def Op.caller : Op → Address
  | .propose caller .. => caller
  | .voteApprove caller .. => caller
  | .voteVeto caller .. => caller
  | .cancel caller .. => caller
  | .execute caller .. => caller
  | .setAllowedCalls caller .. => caller
  | .migrateStorage caller => caller

/-- The effect of a call its caller authorized. The answer is a proposal id or a count. -/
def run (now : ℕ) (self : Address) (s : State) : Op → Result GovernanceError (State × ℕ)
  | .propose caller target method args description nonce =>
    propose now self s caller target method args description nonce
  | .voteApprove caller proposalId nonce => do
    return (← voteApprove now s caller proposalId nonce, 0)
  | .voteVeto caller proposalId nonce => do
    return (← voteVeto now s caller proposalId nonce, 0)
  | .cancel caller proposalId nonce => do
    return (← cancel s caller proposalId nonce, 0)
  | .execute caller proposalId nonce returned => do
    return (← execute now self s caller proposalId nonce returned, 0)
  | .setAllowedCalls caller calls nonce => do
    return (← setAllowedCalls self s caller calls nonce, 0)
  | .migrateStorage caller => migrateStorage s caller

/-- Run one external call. The contract has no key, so nobody calls under its own address. -/
def exec (self : Address) (now : ℕ) (s : State) (op : Op) : Result GovernanceError (State × ℕ) :=
  if op.caller = self then .error .trap else run now self s op

/-- The Governance contract deployed at `self`. -/
def machine (self : Address) : Machine State Op ℕ GovernanceError := ⟨exec self⟩

/-- The states `__constructor` can produce. -/
def Init (s : State) : Prop :=
  ∃ signers threshold timelockSeconds allowedCalls,
    construct signers threshold timelockSeconds allowedCalls = .ok s

end Governance
end NbsBond
