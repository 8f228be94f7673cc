import NbsBond.Framework.Counting
import NbsBond.Governance.Ballot

/-!
# Nonces across archival

An entry of persistent storage can be archived: it disappears, while the instance entry stays. A
nonce is written together with a marker, so that `get_nonce` can tell a lost nonce from one that
never was. But it looks into the instance entry before it looks at the marker, and a legacy nonce is
never removed from there: when the nonce of an address with a legacy copy is archived, the copy is
accepted again.

`archiving` is the contract with the loss of one nonce as an additional event. `Accepts` says once
what an accepted nonce does to the two tables, `Uses` what a committed call does, and `Guarded` is
the invariant: the nonces accepted of an address are consecutive up to the stored one, or the nonce
is lost and nothing is accepted any more. A nonce is a `u64` and wraps around, so consecutive ones
are distinct until there are more than `2 ^ 64` of them.
-/

namespace NbsBond
namespace Governance

open Soroban

/-! ### Accepting a nonce -/

/-- The nonce of `a` is lost: no entry in either tier, and a marker that says there was one. -/
def Archived (s : State) (a : Address) : Prop :=
  s.nonce.read a = none ∧ s.nonceInitialized a = true

/-- Nonce `n` of `a` is the current one, and the next one is stored with the marker. Behind the
largest `u64` the next one is zero again. -/
structure Accepts (s s' : State) (a : Address) (n : ℕ) : Prop where
  current : s.nonce.read a = some n ∨
    s.nonce.read a = none ∧ s.nonceInitialized a = false ∧ n = 0
  nonce : s'.nonce = s.nonce.write a ((n + 1) % 2 ^ 64)
  marker : s'.nonceInitialized = Function.update s.nonceInitialized a true

/-- **What `check_nonce` does**, and what other entries are written after it does not matter. -/
theorem Accepts.of_checkNonce {s s₁ s' : State} {a : Address} {n : ℕ}
    (h : checkNonce s a n = .ok s₁) (hnonce : s'.nonce = s₁.nonce)
    (hmarker : s'.nonceInitialized = s₁.nonceInitialized) : Accepts s s' a n := by
  simp only [checkNonce, bind_eq_ok, ensure_eq_ok, pure_eq_ok] at h
  obtain ⟨⟨s₀, current⟩, hget, _, hn, hwrite⟩ := h
  change n = current at hn
  subst hn hwrite
  unfold getNonce at hget
  split at hget
  · next hpersistent =>
    -- the persistent entry is there and decides
    cases hget
    exact ⟨Or.inl (by simp [Tiered.read, hpersistent]), hnonce, hmarker⟩
  · next hpersistent =>
    split at hget
    · next hlegacy =>
      -- the legacy nonce is copied forward before the next one is written over the copy
      cases hget
      refine ⟨Or.inl (by simp [Tiered.read, hpersistent, hlegacy]), hnonce.trans ?_,
        hmarker.trans ?_⟩
      · simp [writeNonce, Tiered.write]
      · simp [writeNonce]
    · next hlegacy =>
      -- neither entry: only an address without a marker starts at zero
      simp only [bind_eq_ok, ensure_eq_ok, pure_eq_ok, Prod.mk.injEq] at hget
      obtain ⟨_, hmarked, rfl, hzero⟩ := hget
      exact ⟨Or.inr ⟨by simp [Tiered.read, hpersistent, hlegacy], hmarked, hzero.symm⟩, hnonce,
        hmarker⟩

/-- A lost nonce is refused, whatever the caller presents. -/
theorem checkNonce_archived {s : State} {a : Address} (h : Archived s a) (n : ℕ) :
    checkNonce s a n = .error (.error .nonceArchived) := by
  obtain ⟨hnone, hmarked⟩ := h
  obtain ⟨hpersistent, hlegacy⟩ := Option.or_eq_none_iff.mp hnone
  simp only [checkNonce, getNonce, hpersistent, hlegacy, hmarked]
  rfl

/-- The stored nonce is accepted. -/
theorem checkNonce_read {s : State} {a : Address} {n : ℕ} (h : s.nonce.read a = some n) :
    ∃ s', checkNonce s a n = .ok s' := by
  have hget : ∃ s₁, getNonce s a = .ok (s₁, n) := by
    unfold getNonce
    cases hpersistent : s.nonce.persistent a with
    -- the two tiers in the order in which they are looked at
    | some m =>
      simp only [Tiered.read, hpersistent, Option.some_or, Option.some.injEq] at h
      subst h
      exact ⟨s, rfl⟩
    | none =>
      simp only [Tiered.read, hpersistent, Option.none_or] at h
      rw [h]
      exact ⟨writeNonce s a n, rfl⟩
  obtain ⟨s₁, hget⟩ := hget
  refine ⟨writeNonce s₁ a ((n + 1) % 2 ^ 64), ?_⟩
  simp only [checkNonce, bind_eq_ok, ensure_eq_ok, pure_eq_ok]
  exact ⟨(s₁, n), hget, (), rfl, rfl⟩

/-! ### The nonces a call uses -/

/-- The address and the nonce an entrypoint checks first. `set_allowed_calls` turns everybody but
the contract itself away before it looks at the nonce. -/
def Op.presents (self : Address) : Op → Option (Address × ℕ)
  | .propose caller _ _ _ _ nonce => some (caller, nonce)
  | .voteApprove caller _ nonce => some (caller, nonce)
  | .voteVeto caller _ nonce => some (caller, nonce)
  | .cancel caller _ nonce => some (caller, nonce)
  | .execute caller _ nonce _ => some (caller, nonce)
  | .setAllowedCalls caller _ nonce => if caller = self then some (caller, nonce) else none
  | .migrateStorage _ => none

/-- The nonce that the call a proposal stands for presents, if it is a call to the contract
itself. -/
def Proposal.presents (self : Address) (pr : Proposal) : Option (Address × ℕ) :=
  if pr.target = self then
    match pr.args with
    | [.address caller, .vec _, .u64 nonce] => some (caller, nonce)
    | _ => none
  else none

/-- The nonces a committed call has had accepted, newest first: its caller's, and that of the call
an executed proposal stands for. -/
def accepted (self : Address) (s : State) : Op → List (Address × ℕ)
  | .execute caller p nonce _ =>
    ((s.proposal.read p).bind (Proposal.presents self)).toList ++ [(caller, nonce)]
  | op => (op.presents self).toList

/-- The effect of a committed call on the nonces: it has the listed ones accepted, newest first. -/
inductive Uses (s : State) : List (Address × ℕ) → State → Prop
  | nothing {s' : State} (hnonce : s'.nonce = s.nonce)
      (hmarker : s'.nonceInitialized = s.nonceInitialized) : Uses s [] s'
  | accept {l : List (Address × ℕ)} {s₁ s' : State} {a : Address} {n : ℕ} (hrest : Uses s l s₁)
      (haccepts : Accepts s₁ s' a n) : Uses s ((a, n) :: l) s'

/-- One nonce is accepted, and then none. -/
theorem Uses.one {s s₁ s' : State} {a : Address} {n : ℕ} (h : checkNonce s a n = .ok s₁)
    (hnonce : s'.nonce = s₁.nonce) (hmarker : s'.nonceInitialized = s₁.nonceInitialized) :
    Uses s [(a, n)] s' :=
  .accept (.nothing rfl rfl) (.of_checkNonce h hnonce hmarker)

theorem migrateStorage_nonces {s s' : State} {caller : Address} {n : ℕ}
    (h : migrateStorage s caller = .ok (s', n)) :
    s'.nonce = s.nonce ∧ s'.nonceInitialized = s.nonceInitialized := by
  -- proposals, their votes and the counter are copied, nonces are not
  have hround : ∀ acc id, (migrateProposal acc id).1.nonce = acc.1.nonce ∧
      (migrateProposal acc id).1.nonceInitialized = acc.1.nonceInitialized := by
    intro acc id
    unfold migrateProposal
    split
    split
    · exact ⟨rfl, rfl⟩
    · exact ⟨rfl, rfl⟩
  have hfold : ∀ (ids : List ℕ) (acc : State × ℕ),
      (ids.foldl migrateProposal acc).1.nonce = acc.1.nonce ∧
        (ids.foldl migrateProposal acc).1.nonceInitialized = acc.1.nonceInitialized := by
    intro ids
    induction ids with
    | nil => exact fun acc => ⟨rfl, rfl⟩
    | cons id ids ih =>
      intro acc
      obtain ⟨hnonce, hmarker⟩ := ih (migrateProposal acc id)
      obtain ⟨hnonce₁, hmarker₁⟩ := hround acc id
      exact ⟨hnonce.trans hnonce₁, hmarker.trans hmarker₁⟩
  have hcount : ∀ count, (migrateCount s count).nonce = s.nonce ∧
      (migrateCount s count).nonceInitialized = s.nonceInitialized := by
    intro count
    unfold migrateCount
    split
    · exact ⟨rfl, rfl⟩
    · exact ⟨rfl, rfl⟩
  simp only [migrateStorage, bind_eq_ok] at h
  obtain ⟨-, -, h⟩ := h
  split at h
  · cases h
    exact ⟨rfl, rfl⟩
  · cases h
    cases s.proposalCount.legacy () with
    | none => exact ⟨rfl, rfl⟩
    | some count =>
      obtain ⟨hnonce, hmarker⟩ := hfold (List.range' 1 count) (migrateCount s count, 0)
      exact ⟨hnonce.trans (hcount count).1, hmarker.trans (hcount count).2⟩

theorem applySetAllowedCalls_uses {self caller : Address} {s s' : State}
    {calls : List (Option AllowedCall)} {n : ℕ}
    (h : applySetAllowedCalls self s caller calls n = .ok s') :
    ∃ s₁, checkNonce s caller n = .ok s₁ ∧ s'.nonce = s₁.nonce ∧
      s'.nonceInitialized = s₁.nonceInitialized := by
  simp only [applySetAllowedCalls, writeAllowedCalls, bind_eq_ok, pure_eq_ok] at h
  obtain ⟨-, -, s₁, hnonce, -, -, calls', -, rfl⟩ := h
  exact ⟨s₁, hnonce, rfl, rfl⟩

/-- The call a proposal stands for uses the nonce it presents, if any. -/
theorem dispatch_uses {self : Address} {s s₁ s' : State} {pr : Proposal} {returned : Bool}
    {l : List (Address × ℕ)} (huses : Uses s l s₁) (h : dispatch self s₁ pr returned = .ok s') :
    Uses s ((pr.presents self).toList ++ l) s' := by
  unfold dispatch at h
  split at h
  · next htarget =>
    -- the contract calls itself, and only with the three arguments of `set_allowed_calls`
    simp only [dispatchSelfCall, bind_eq_ok] at h
    obtain ⟨-, -, h⟩ := h
    split at h
    · next caller calls nonce hargs =>
      have hpresents : pr.presents self = some (caller, nonce) := by
        unfold Proposal.presents
        rw [if_pos htarget, hargs]
      obtain ⟨s₂, hnonce, hsame, hmarker⟩ := applySetAllowedCalls_uses h
      rw [hpresents]
      exact huses.accept (.of_checkNonce hnonce hsame hmarker)
    · cases h
  · next htarget =>
    -- another contract: its return is all that matters here
    have hnone : pr.presents self = none := by
      unfold Proposal.presents
      exact if_neg htarget
    simp only [bind_eq_ok, pure_eq_ok] at h
    obtain ⟨-, -, -, -, rfl⟩ := h
    rw [hnone]
    exact huses

/-- Later writes to other entries do not matter. -/
theorem Uses.of_same {s s₁ s' : State} {l : List (Address × ℕ)} (h : Uses s l s₁)
    (hnonce : s'.nonce = s₁.nonce) (hmarker : s'.nonceInitialized = s₁.nonceInitialized) :
    Uses s l s' := by
  cases h with
  | nothing hnonce₁ hmarker₁ => exact .nothing (hnonce.trans hnonce₁) (hmarker.trans hmarker₁)
  | accept hrest haccepts =>
    exact .accept hrest ⟨haccepts.current, hnonce.trans haccepts.nonce,
      hmarker.trans haccepts.marker⟩

theorem accepted_of_voting {self : Address} {s : State} {op : Op} {caller : Address} {nonce : ℕ}
    (h : op.voting = some (caller, nonce)) : accepted self s op = [(caller, nonce)] := by
  cases op with
  | propose => cases h; rfl
  | voteApprove => cases h; rfl
  | voteVeto => cases h; rfl
  | cancel => cases h; rfl
  | execute => cases h
  | setAllowedCalls => cases h
  | migrateStorage => cases h

/-- **What a committed call does to the nonces.** An execution of a proposal to the contract itself
has two accepted, its caller's and its own. -/
theorem uses_of_exec {self : Address} {now : ℕ} {s s' : State} {op : Op} {r : ℕ}
    (h : exec self now s op = .ok (s', r)) : Uses s (accepted self s op) s' := by
  cases rest_of_exec h with
  | voting hop hnonce hrest =>
    rw [accepted_of_voting hop]
    exact .one hnonce hrest.nonce hrest.marker
  | execute _ hnonce hread _ hdispatch hrest =>
    have huses := dispatch_uses (.one hnonce rfl rfl) hdispatch
    simp only [accepted, hread, Option.bind_some]
    exact huses.of_same hrest.nonce hrest.marker
  | migrate hmigrate =>
    obtain ⟨hnonce, hmarker⟩ := migrateStorage_nonces hmigrate
    exact .nothing hnonce hmarker

/-! ### Runs with archival -/

/-- A call of the contract, or the archival of one nonce. -/
inductive Event where
  | call (op : Op)
  | archive (a : Address)
  deriving DecidableEq, Repr

/-- The persistent nonce of `a` disappears. Its marker survives, and so does the instance entry. -/
def archiveNonce (s : State) (a : Address) : Result GovernanceError State :=
  if s.nonce.persistent a ≠ none ∧ s.nonceInitialized a = true then
    .ok { s with nonce := { s.nonce with
      persistent := Function.update s.nonce.persistent a none } }
  else .error .trap

/-- One event. -/
def Event.exec (self : Address) (now : ℕ) (s : State) :
    Event → Result GovernanceError (State × ℕ)
  | .call op => Governance.exec self now s op
  | .archive a => do return (← archiveNonce s a, 0)

/-- The Governance contract at `self`, in storage that archives nonces. -/
def archiving (self : Address) : Machine State Event ℕ GovernanceError := ⟨Event.exec self⟩

/-- The nonces accepted in one event. -/
def Event.accepted (self : Address) (s : State) : Event → List (Address × ℕ)
  | .call op => Governance.accepted self s op
  | .archive _ => []

/-- All the nonces `check_nonce` has accepted, newest first. -/
def acceptedNonces (self : Address) (h : List (Call State Event ℕ)) : List (Address × ℕ) :=
  h.flatMap fun c => c.op.accepted self c.pre

/-- An archival is clean when the address has no legacy nonce in the instance entry. -/
def Event.Clean (s : State) : Event → Prop
  | .call _ => True
  | .archive a => s.nonce.legacy a = none

instance (s : State) (e : Event) : Decidable (e.Clean s) :=
  match e with
  | .call _ => isTrue trivial
  | .archive a => inferInstanceAs (Decidable (s.nonce.legacy a = none))

/-- An archival takes the persistent nonce and nothing else. -/
theorem archiveNonce_ok {s s' : State} {a : Address} (h : archiveNonce s a = .ok s') :
    s.nonceInitialized a = true ∧ s'.nonceInitialized = s.nonceInitialized ∧
      s'.nonce.persistent = Function.update s.nonce.persistent a none ∧
      s'.nonce.legacy = s.nonce.legacy := by
  unfold archiveNonce at h
  split at h
  · next hguard =>
    cases h
    exact ⟨hguard.2, rfl, rfl, rfl⟩
  · cases h

theorem exec_archive {self : Address} {now : ℕ} {s s' : State} {e : Event} {a : Address} {r : ℕ}
    (h : e.exec self now s = .ok (s', r)) (he : e = .archive a) : archiveNonce s a = .ok s' := by
  subst he
  simp only [Event.exec, bind_eq_ok, pure_eq_ok, Prod.mk.injEq] at h
  obtain ⟨_, harchive, rfl, -⟩ := h
  exact harchive

/-- What an event does to the nonces: an archival, or the uses of a call. -/
theorem event_ok {self : Address} {now : ℕ} {s s' : State} {e : Event} {r : ℕ}
    (h : e.exec self now s = .ok (s', r)) :
    (∃ a, e = .archive a ∧ archiveNonce s a = .ok s') ∨ Uses s (e.accepted self s) s' := by
  cases e with
  | call op => exact Or.inr (uses_of_exec h)
  | archive a => exact Or.inl ⟨a, rfl, exec_archive h rfl⟩

/-! ### Lost nonces -/

/-- A lost nonce is not accepted. -/
theorem Accepts.not_archived {s s' : State} {a : Address} {n : ℕ} (h : Accepts s s' a n) :
    ¬ Archived s a := by
  rintro ⟨hnone, hmarked⟩
  rcases h.current with hsome | ⟨-, hunmarked, -⟩
  · rw [hnone] at hsome
    cases hsome
  · rw [hmarked] at hunmarked
    cases hunmarked

/-- The nonce of another address is accepted: this one is untouched. -/
theorem Accepts.other {s s' : State} {a b : Address} {n : ℕ} (h : Accepts s s' a n) (hb : b ≠ a) :
    s'.nonce.persistent b = s.nonce.persistent b ∧ (Archived s' b ↔ Archived s b) := by
  have hpersistent : s'.nonce.persistent b = s.nonce.persistent b := by
    rw [h.nonce]
    exact Function.update_of_ne hb _ _
  refine ⟨hpersistent, ?_⟩
  unfold Archived
  rw [h.nonce, Tiered.read_write, h.marker, Function.update_of_ne hb, Function.update_of_ne hb]

theorem Uses.archived {s s' : State} {l : List (Address × ℕ)} {a : Address} (h : Uses s l s')
    (ha : Archived s a) : Archived s' a := by
  induction h with
  | nothing hnonce hmarker =>
    unfold Archived
    rw [hnonce, hmarker]
    exact ha
  | @accept l s₁ s' b n _ haccepts ih =>
    -- the address itself could not have had a nonce accepted
    have hne : a ≠ b := by
      rintro rfl
      exact haccepts.not_archived ih
    exact (haccepts.other hne).2.mpr ih

/-- **A lost nonce stays lost.** Nothing is written under a nonce that cannot be read. -/
theorem Archived.step {self : Address} {now : ℕ} {s s' : State} {e : Event} {r : ℕ} {a : Address}
    (ha : Archived s a) (h : e.exec self now s = .ok (s', r)) : Archived s' a := by
  rcases event_ok h with ⟨b, -, harchive⟩ | huses
  · obtain ⟨-, hmarker, hpersistent, hlegacy⟩ := archiveNonce_ok harchive
    obtain ⟨hnone, hmarked⟩ := ha
    obtain ⟨hp, hl⟩ := Option.or_eq_none_iff.mp hnone
    refine ⟨?_, by rw [hmarker, hmarked]⟩
    rw [Tiered.read, hlegacy, hl, hpersistent, Option.or_none, Function.update_apply]
    -- the legacy entry was missing already
    split
    · rfl
    · exact hp
  · exact huses.archived ha

/-- An archival without a legacy copy loses the nonce. -/
theorem archiveNonce_archived {s s' : State} {a : Address} (h : archiveNonce s a = .ok s')
    (hlegacy : s.nonce.legacy a = none) : Archived s' a := by
  obtain ⟨hmarked, hmarker, hpersistent, hkept⟩ := archiveNonce_ok h
  refine ⟨?_, by rw [hmarker, hmarked]⟩
  rw [Tiered.read, hkept, hlegacy, hpersistent, Function.update_self]
  rfl

/-- With a legacy copy, the copy is what `check_nonce` accepts next. -/
theorem archiveNonce_legacy {s s' : State} {a : Address} {n : ℕ} (h : archiveNonce s a = .ok s')
    (hlegacy : s.nonce.legacy a = some n) : ∃ s₁, checkNonce s' a n = .ok s₁ := by
  obtain ⟨-, -, hpersistent, hkept⟩ := archiveNonce_ok h
  refine checkNonce_read ?_
  rw [Tiered.read, hkept, hlegacy, hpersistent, Function.update_self]
  rfl

/-! ### The invariant -/

/-- Every stored nonce is a `u64`. It holds of every store, as the entries have that type; it is
needed because they are naturals here. -/
structure NoncesFit (s : State) : Prop where
  persistent : ∀ a n, s.nonce.persistent a = some n → n < 2 ^ 64
  legacy : ∀ a n, s.nonce.legacy a = some n → n < 2 ^ 64

theorem NoncesFit.congr {s s' : State} (hF : NoncesFit s) (hnonce : s'.nonce = s.nonce) :
    NoncesFit s' := by
  refine ⟨?_, ?_⟩
  · rw [hnonce]
    exact hF.persistent
  · rw [hnonce]
    exact hF.legacy

/-- An accepted nonce is a `u64`. -/
theorem NoncesFit.current {s s' : State} {a : Address} {n : ℕ} (hF : NoncesFit s)
    (h : Accepts s s' a n) : n < 2 ^ 64 := by
  rcases h.current with hread | ⟨-, -, rfl⟩
  · rcases Option.or_eq_some_iff.mp hread with hpersistent | ⟨-, hlegacy⟩
    · exact hF.persistent a n hpersistent
    · exact hF.legacy a n hlegacy
  · exact Nat.two_pow_pos 64

/-- And so is the one stored for it. -/
theorem NoncesFit.accept {s s' : State} {a : Address} {n : ℕ} (hF : NoncesFit s)
    (h : Accepts s s' a n) : NoncesFit s' := by
  refine ⟨fun b m hm => ?_, fun b m hm => ?_⟩
  · rw [h.nonce] at hm
    change Function.update s.nonce.persistent a _ b = some m at hm
    rw [Function.update_apply] at hm
    split at hm
    · cases hm
      exact Nat.mod_lt _ (Nat.two_pow_pos 64)
    · exact hF.persistent b m hm
  · rw [h.nonce] at hm
    exact hF.legacy b m hm

/-- The nonces of `a` among the accepted ones. -/
def noncesOf (a : Address) (l : List (Address × ℕ)) : List ℕ :=
  (l.filter fun x => x.1 = a).map Prod.snd

theorem noncesOf_cons_self {a : Address} {n : ℕ} {l : List (Address × ℕ)} :
    noncesOf a ((a, n) :: l) = n :: noncesOf a l := by
  simp [noncesOf]

theorem noncesOf_cons_of_ne {a b : Address} {n : ℕ} {l : List (Address × ℕ)} (hb : b ≠ a) :
    noncesOf b ((a, n) :: l) = noncesOf b l := by
  simp [noncesOf, Ne.symm hb]

theorem count_noncesOf {a : Address} {n : ℕ} {l : List (Address × ℕ)} :
    (noncesOf a l).count n = l.count (a, n) := by
  induction l with
  | nil => rfl
  | cons x l ih =>
    obtain ⟨b, m⟩ := x
    by_cases hb : a = b
    · subst hb
      rw [noncesOf_cons_self, List.count_cons, List.count_cons, ih]
      simp
    · rw [noncesOf_cons_of_ne hb, List.count_cons, ih]
      simp [Ne.symm hb]

/-- The nonces accepted of an address are consecutive, and the stored one is next or is lost. Being
next is meant modulo `2 ^ 64`, as the counter wraps. -/
structure Guarded (s : State) (l : List (Address × ℕ)) : Prop where
  fits : NoncesFit s
  chain : ∀ a, ∃ start,
    noncesOf a l = Counting.latest (2 ^ 64) start (noncesOf a l).length ∧
      (noncesOf a l = [] ∨
        s.nonce.persistent a = some ((start + (noncesOf a l).length) % 2 ^ 64) ∨ Archived s a)

/-- **One nonce is accepted.** It is the stored one, so it is the next in the row. -/
theorem Guarded.accept {s s' : State} {l : List (Address × ℕ)} {a : Address} {n : ℕ}
    (hG : Guarded s l) (h : Accepts s s' a n) : Guarded s' ((a, n) :: l) := by
  refine ⟨hG.fits.accept h, fun b => ?_⟩
  by_cases hb : b = a
  swap
  · obtain ⟨hpersistent, harchived⟩ := h.other hb
    rw [noncesOf_cons_of_ne hb, hpersistent, harchived]
    exact hG.chain b
  subst hb
  have hnext : s'.nonce.persistent b = some ((n + 1) % 2 ^ 64) := by
    rw [h.nonce]
    exact Function.update_self ..
  rw [noncesOf_cons_self, List.length_cons, hnext]
  obtain ⟨start, hrow, hnone | hstored | hlost⟩ := hG.chain b
  · -- the first nonce of `b` starts the row
    refine ⟨n, ?_, Or.inr (Or.inl ?_)⟩
    · rw [hnone]
      show [n] = [(n + 0) % 2 ^ 64]
      rw [Nat.add_zero, Nat.mod_eq_of_lt (hG.fits.current h)]
    · rw [hnone]
      rfl
  · have hread : s.nonce.read b = some ((start + (noncesOf b l).length) % 2 ^ 64) := by
      rw [Tiered.read, hstored, Option.some_or]
    have hn : n = (start + (noncesOf b l).length) % 2 ^ 64 := by
      rcases h.current with hcurrent | ⟨hnone, -⟩
      · exact Option.some.inj (hcurrent.symm.trans hread)
      · rw [hread] at hnone
        cases hnone
    refine ⟨start, List.cons_eq_cons.mpr ⟨hn, hrow⟩, Or.inr (Or.inl ?_)⟩
    rw [hn, Nat.mod_add_mod, Nat.add_assoc]
  · exact absurd hlost h.not_archived

theorem Guarded.uses {s s' : State} {l new : List (Address × ℕ)} (hG : Guarded s l)
    (h : Uses s new s') : Guarded s' (new ++ l) := by
  induction h with
  | nothing hnonce hmarker =>
    refine ⟨hG.fits.congr hnonce, ?_⟩
    unfold Archived
    rw [hnonce, hmarker]
    exact hG.chain
  | accept _ haccepts ih => exact ih.accept haccepts

/-- **One event.** An archival may only hit an address without a legacy nonce. -/
theorem Guarded.step {self : Address} {now : ℕ} {s s' : State} {e : Event} {r : ℕ}
    {l : List (Address × ℕ)} (hG : Guarded s l) (h : e.exec self now s = .ok (s', r))
    (hclean : e.Clean s) : Guarded s' (e.accepted self s ++ l) := by
  rcases event_ok h with ⟨a, rfl, harchive⟩ | huses
  · have hlost := archiveNonce_archived harchive hclean
    obtain ⟨-, hmarker, hpersistent, hlegacy⟩ := archiveNonce_ok harchive
    refine ⟨⟨fun b n hn => ?_, hlegacy ▸ hG.fits.legacy⟩, fun b => ?_⟩
    · -- an entry that is left was there before
      rw [hpersistent, Function.update_apply] at hn
      split at hn
      · cases hn
      · exact hG.fits.persistent b n hn
    · obtain ⟨start, hrow, hnone | hstored | harchived⟩ := hG.chain b
      · exact ⟨start, hrow, Or.inl hnone⟩
      · refine ⟨start, hrow, Or.inr ?_⟩
        by_cases hb : b = a
        · subst hb
          exact Or.inr hlost
        · refine Or.inl ?_
          rw [hpersistent, Function.update_of_ne hb]
          exact hstored
      · exact ⟨start, hrow, Or.inr (Or.inr (harchived.step h))⟩
  · exact hG.uses huses

/-- The accepted nonces of a run whose archivals are all clean. -/
theorem guarded_of_run {self : Address} {h : List (Call State Event ℕ)} {s : State}
    (hrun : Run (archiving self) NoncesFit h s) (hclean : ∀ c ∈ h, c.op.Clean c.pre) :
    Guarded s (acceptedNonces self h) := by
  refine hrun.induction (P := fun h s =>
    (∀ c ∈ h, c.op.Clean c.pre) → Guarded s (acceptedNonces self h)) ?_ ?_ hclean
  · intro s hfits _
    exact ⟨hfits, fun a => ⟨0, rfl, Or.inl rfl⟩⟩
  · intro h s t e r s' _ _ hexec ih hclean
    rw [List.forall_mem_cons] at hclean
    exact (ih hclean.2).step hexec hclean.1

/-! ### Replay protection -/

/-- Every call that presents a nonce of `a` fails with `NonceArchived`. From then on the address is
locked out, since nothing restores an archived nonce. -/
structure Refuses (own : Address) (s : State) (a : Address) : Prop where
  nonce : ∀ n, checkNonce s a n = .error (.error .nonceArchived)
  call : ∀ now op n, op.presents own = some (a, n) →
    run now own s op = .error (.error .nonceArchived)

/-- A call checks the nonce it presents before anything else. -/
theorem Refuses.of_archived {self : Address} {s : State} {a : Address} (ha : Archived s a) :
    Refuses self s a := by
  refine ⟨checkNonce_archived ha, fun now op n hpresents => ?_⟩
  have hcheck := checkNonce_archived ha n
  cases op with
  | propose =>
    cases hpresents
    simp only [run, propose, hcheck]
    rfl
  | voteApprove =>
    cases hpresents
    simp only [run, voteApprove, hcheck]
    rfl
  | voteVeto =>
    cases hpresents
    simp only [run, voteVeto, hcheck]
    rfl
  | cancel =>
    cases hpresents
    simp only [run, cancel, hcheck]
    rfl
  | execute =>
    cases hpresents
    simp only [run, execute, hcheck]
    rfl
  | setAllowedCalls caller calls nonce =>
    simp only [Op.presents, Option.ite_none_right_eq_some, Option.some.injEq,
      Prod.mk.injEq] at hpresents
    obtain ⟨hself, rfl, rfl⟩ := hpresents
    simp only [run, setAllowedCalls, applySetAllowedCalls, ensure, if_pos hself, hcheck]
    rfl
  | migrateStorage => cases hpresents

/-- **Replay protection.** From any storage, along calls and archivals: no nonce of any address is
accepted twice and every call of an address fails once its nonce was archived — if and only if
every archival hits an address that has no legacy nonce in the instance entry, and no address has
used up more nonces than there are. -/
theorem replay_protected_iff {self : Address} {h : List (Call State Event ℕ)} {s : State}
    (hrun : Run (archiving self) NoncesFit h s) :
    ((∀ a n, (acceptedNonces self h).count (a, n) ≤ 1) ∧
      ∀ h₁ c h₂, h = h₁ ++ c :: h₂ → ∀ a, (∃ d ∈ c :: h₂, d.op = .archive a) →
        Refuses self c.post a) ↔
    (∀ c ∈ h, c.op.Clean c.pre) ∧
      ∀ a, (noncesOf a (acceptedNonces self h)).length ≤ 2 ^ 64 := by
  constructor
  · rintro ⟨honce, hrefuses⟩
    have hclean : ∀ c ∈ h, c.op.Clean c.pre := by
      intro c hc
      obtain ⟨h₁, h₂, rfl⟩ := List.append_of_mem hc
      cases harchive : c.op with
      | call op => trivial
      | archive a =>
        have hrefused := hrefuses h₁ c h₂ rfl a ⟨c, List.mem_cons_self, harchive⟩
        have hexec := exec_archive hrun.past.2.2 harchive
        -- a legacy nonce would be accepted at once
        cases hlegacy : c.pre.nonce.legacy a with
        | none => exact hlegacy
        | some n =>
          obtain ⟨s₁, haccepted⟩ := archiveNonce_legacy hexec hlegacy
          have hrefused := hrefused.nonce n
          rw [haccepted] at hrefused
          cases hrefused
    refine ⟨hclean, fun a => ?_⟩
    obtain ⟨start, hrow, -⟩ := (guarded_of_run hrun hclean).chain a
    have hdistinct : (noncesOf a (acceptedNonces self h)).Nodup := by
      rw [List.nodup_iff_count_le_one]
      intro n
      rw [count_noncesOf]
      exact honce a n
    rw [hrow] at hdistinct
    exact (Counting.nodup_latest_iff (Nat.two_pow_pos 64)).mp hdistinct
  · rintro ⟨hclean, hfew⟩
    refine ⟨fun a n => ?_, ?_⟩
    · obtain ⟨start, hrow, -⟩ := (guarded_of_run hrun hclean).chain a
      have hdistinct : (noncesOf a (acceptedNonces self h)).Nodup := by
        rw [hrow]
        exact (Counting.nodup_latest_iff (Nat.two_pow_pos 64)).mpr (hfew a)
      rw [← count_noncesOf]
      exact List.nodup_iff_count_le_one.mp hdistinct n
    · rintro h₁ c h₂ rfl a ⟨d, hd, harchive⟩
      obtain ⟨hpast, ht, hexec⟩ := hrun.past
      have hclean_d := hclean d (List.mem_append_right h₁ hd)
      rw [harchive] at hclean_d
      -- lost when it was archived, and so ever since
      have hlost : Archived d.post a → Archived c.post a := by
        refine fun hd_post =>
          (hpast.call ht hexec).stable (P := fun s => Archived s a) ?_ hd hd_post
        intro h t s e r s' _ ha hexec
        exact ha.step hexec
      refine Refuses.of_archived (hlost ?_)
      obtain ⟨h', hpast_d, hexec_d⟩ := (hpast.call ht hexec).of_mem hd
      exact archiveNonce_archived (exec_archive hexec_d harchive) hclean_d

/-! ### The replay -/

/-- Storage from before nonces moved: three signers, and a legacy nonce 5 of the first one. -/
def upgraded : State where
  signers := some [⟨1⟩, ⟨2⟩, ⟨3⟩]
  threshold := some 2
  timelockSeconds := some 100
  proposal := .empty
  proposalCount := .empty
  vote := .empty
  nonce := ⟨fun _ => none, fun a => if a = ⟨1⟩ then some 5 else none⟩
  nonceInitialized _ := false
  allowedCalls := [⟨⟨7⟩, "approve_project"⟩]
  storageVersion := 0

theorem upgraded_fits : NoncesFit upgraded := by
  refine ⟨nofun, fun a n hn => ?_⟩
  change (if a = ⟨1⟩ then some 5 else none) = some n at hn
  split at hn
  · cases hn
    decide
  · cases hn

/-- The signer proposes with nonce 5, its nonce is archived, and the same proposal with nonce 5 is
accepted again. -/
theorem replay_after_archival : ¬ ∀ (self : Address) (h : List (Call State Event ℕ)) (s : State),
    Run (archiving self) NoncesFit h s →
      ∀ a n, (acceptedNonces self h).count (a, n) ≤ 1 := by
  intro hclaim
  let propose : Op := .propose ⟨1⟩ ⟨7⟩ "approve_project" [.u64 4] "grant" 5
  have hplay : ((archiving ⟨9⟩).play [] upgraded
      [(1, .call propose), (2, .archive ⟨1⟩), (3, .call propose)]).map
        (fun p => acceptedNonces ⟨9⟩ p.1) = some [(⟨1⟩, 5), (⟨1⟩, 5)] := by decide
  obtain ⟨h, s, hrun, hview⟩ := Run.of_play upgraded_fits hplay
  have hcount := hclaim ⟨9⟩ h s hrun ⟨1⟩ 5
  rw [hview] at hcount
  exact absurd hcount (by decide)

/-- A signer without a legacy nonce: after the archival its nonces 0 and 1 are both refused. -/
theorem replay_protected_fresh_signer : ∃ h s, Run (archiving ⟨9⟩) NoncesFit h s ∧
    (acceptedNonces ⟨9⟩ h).count (⟨2⟩, 0) ≤ 1 ∧
    checkNonce s ⟨2⟩ 0 = .error (.error .nonceArchived) ∧
    checkNonce s ⟨2⟩ 1 = .error (.error .nonceArchived) := by
  let propose : Op := .propose ⟨2⟩ ⟨7⟩ "approve_project" [.u64 4] "grant" 0
  have hplay : ((archiving ⟨9⟩).play [] upgraded [(1, .call propose), (2, .archive ⟨2⟩)]).map
      (fun p => (acceptedNonces ⟨9⟩ p.1, p.1.map (·.op),
        p.1.all fun c => decide (c.op.Clean c.pre))) =
      some ([(⟨2⟩, 0)], [.archive ⟨2⟩, .call propose], true) := by decide
  obtain ⟨h, s, hrun, hview⟩ := Run.of_play upgraded_fits hplay
  simp only [Prod.mk.injEq] at hview
  obtain ⟨haccepted, hops, hclean⟩ := hview
  have hfew : ∀ a, (noncesOf a (acceptedNonces ⟨9⟩ h)).length ≤ 2 ^ 64 := by
    intro a
    rw [noncesOf, List.length_map, haccepted]
    exact (List.length_filter_le _ _).trans (by decide)
  obtain ⟨honce, hrefuses⟩ := (replay_protected_iff hrun).mpr
    ⟨fun c hc => of_decide_eq_true (List.all_eq_true.mp hclean c hc), hfew⟩
  cases h with
  | nil => cases hops
  | cons c h =>
    rw [List.map_cons, List.cons.injEq] at hops
    have hpost : c.post = s := hrun.post_eq
    have hrefused := hrefuses [] c h rfl ⟨2⟩ ⟨c, List.mem_cons_self, hops.1⟩
    rw [hpost] at hrefused
    exact ⟨_, s, hrun, honce ⟨2⟩ 0, hrefused.nonce 0, hrefused.nonce 1⟩

end Governance
end NbsBond
