import NbsBond.Governance.Nonces

/-!
# Integrity of the allowlist

The allowlist is what keeps an approved proposal from calling anything at all, and it is rewritten
by the contract itself: a proposal that targets the contract is dispatched internally, its
arguments are decoded one by one, and the list they carry is stored without its repetitions.

`Replaces` is what such an execution does, and `allowlist_of_exec` says that nothing else touches
the list. A call that fails at any of these checks is rolled back, so it leaves nothing behind.
-/

namespace NbsBond
namespace Governance

open Soroban

/-! ### Storing a list -/

theorem containsCall_iff {calls : List AllowedCall} {call : AllowedCall} :
    containsCall calls call.contract call.function = true ↔ call ∈ calls := by
  unfold containsCall
  rw [List.any_eq_true]
  constructor
  · rintro ⟨call', hmem, hsame⟩
    obtain ⟨hcontract, hfunction⟩ := of_decide_eq_true hsame
    -- the two fields are all that a call has
    have heq : call' = call := by
      cases call'
      cases call
      exact congrArg₂ AllowedCall.mk hcontract hfunction
    exact heq ▸ hmem
  · intro hmem
    exact ⟨call, hmem, decide_eq_true ⟨rfl, rfl⟩⟩

/-- One round of the loop: the element decodes, and is in the list afterwards, once. -/
theorem pushCall_ok {deduped deduped' : List AllowedCall} {call : Option AllowedCall}
    (h : pushCall deduped call = .ok deduped') (hnodup : deduped.Nodup) :
    ∃ a, call = some a ∧ deduped'.Nodup ∧ deduped'.length ≤ deduped.length + 1 ∧
      ∀ b, b ∈ deduped' ↔ b ∈ deduped ∨ b = a := by
  simp only [pushCall, bind_eq_ok, orError_eq_ok, pure_eq_ok] at h
  obtain ⟨a, rfl, rfl⟩ := h
  refine ⟨a, rfl, ?_⟩
  split
  -- a pair that is there already is passed over
  · next hmem =>
    rw [containsCall_iff] at hmem
    refine ⟨hnodup, Nat.le_succ _, fun b => ⟨Or.inl, ?_⟩⟩
    rintro (hb | rfl)
    · exact hb
    · exact hmem
  · next hnew =>
    rw [containsCall_iff] at hnew
    refine ⟨List.concat_eq_append ▸ hnodup.concat hnew, by simp, fun b => ?_⟩
    rw [List.mem_append, List.mem_singleton]

/-- **The deduplicating loop** stores every pair of the list once, if the list decodes. The claim is
about any list to begin with, since the loop carries the list it has so far. -/
theorem foldlM_pushCall {calls : List (Option AllowedCall)} {deduped deduped' : List AllowedCall}
    (h : calls.foldlM pushCall deduped = .ok deduped') (hnodup : deduped.Nodup) :
    ∃ decoded : List AllowedCall, calls = decoded.map some ∧ deduped'.Nodup ∧
      deduped'.length ≤ deduped.length + calls.length ∧
      ∀ b, b ∈ deduped' ↔ b ∈ deduped ∨ b ∈ decoded := by
  induction calls generalizing deduped with
  | nil =>
    rw [List.foldlM_nil, pure_eq_ok] at h
    subst h
    exact ⟨[], rfl, hnodup, le_rfl, fun b => by simp⟩
  | cons call calls ih =>
    rw [List.foldlM_cons, bind_eq_ok] at h
    obtain ⟨deduped₁, hround, hrest⟩ := h
    -- this round, and then the rest from the list that it leaves
    obtain ⟨a, rfl, hnodup₁, hlength₁, hmem₁⟩ := pushCall_ok hround hnodup
    obtain ⟨decoded, rfl, hnodup', hlength', hmem'⟩ := ih hrest hnodup₁
    refine ⟨a :: decoded, rfl, hnodup', ?_, fun b => ?_⟩
    · rw [List.length_cons]
      omega
    · rw [hmem', hmem₁, List.mem_cons, or_assoc]

/-- The stored list has no repetitions and is not too long. The list is short because the argument
is: the loop drops repetitions and adds nothing. -/
structure WellFormed (calls : List AllowedCall) : Prop where
  nodup : calls.Nodup
  length : calls.length ≤ maxAllowedCalls

theorem writeAllowedCalls_ok {s s' : State} {calls : List (Option AllowedCall)}
    (h : writeAllowedCalls s calls = .ok s') : WellFormed s'.allowedCalls ∧
      ∃ decoded : List AllowedCall, calls = decoded.map some ∧ decoded.length ≤ maxAllowedCalls ∧
        ∀ b, b ∈ s'.allowedCalls ↔ b ∈ decoded := by
  simp only [writeAllowedCalls, bind_eq_ok, ensure_eq_ok, pure_eq_ok] at h
  obtain ⟨-, hlength, deduped, hloop, rfl⟩ := h
  obtain ⟨decoded, rfl, hnodup, hle, hmem⟩ := foldlM_pushCall hloop List.nodup_nil
  rw [List.length_nil, Nat.zero_add] at hle
  rw [List.length_map] at hlength
  refine ⟨⟨hnodup, hle.trans ((List.length_map some).trans_le hlength)⟩, decoded, rfl, hlength,
    fun b => ?_⟩
  -- the loop starts from the empty list
  rw [hmem]
  exact or_iff_right List.not_mem_nil

/-! ### What a call does to the list -/

/-- `get_nonce` answers `n`. -/
def HasNonce (s : State) (a : Address) (n : ℕ) : Prop := ∃ s', getNonce s a = .ok (s', n)

/-- The arguments with which proposal `pr` has the list replaced by `calls`: the contract's own
address, the list, each element of which decodes, and the contract's own nonce. What does not decode
makes the execution fail, and there is no list to speak of. -/
structure Carries (self : Address) (s : State) (pr : Proposal) (calls : List AllowedCall) :
    Prop where
  args : ∃ n, pr.args = [.address self, .vec (calls.map some), .u64 n] ∧ HasNonce s self n
  length : calls.length ≤ maxAllowedCalls

/-- An operation that executes a proposal to the contract itself. -/
def ExecutesSelf (self : Address) (s : State) (op : Op) : Prop :=
  ∃ caller p nonce returned pr, op = .execute caller p nonce returned ∧
    s.proposal.read p = some pr ∧ pr.target = self

/-- The list is replaced by the one a queued proposal carries. -/
inductive Replaces (self : Address) (s s' : State) : Op → Prop
  | execute {caller : Address} {p nonce : ℕ} {returned : Bool} {pr : Proposal}
      {calls : List AllowedCall} (hread : s.proposal.read p = some pr)
      (hqueued : pr.status = .queued) (htarget : pr.target = self)
      (hmethod : pr.method = selfMethodSetAllowedCalls) (hnonce : HasNonce s caller nonce)
      (hargs : Carries self s pr calls) (hcalls : ∀ b, b ∈ s'.allowedCalls ↔ b ∈ calls) :
      Replaces self s s' (.execute caller p nonce returned)

/-- The current nonce, as the tables have it. -/
theorem hasNonce_iff {s : State} {a : Address} {n : ℕ} : HasNonce s a n ↔
    -- the persistent tier, the legacy one, and the marker of what was archived
    s.nonce.read a = some n ∨
      s.nonce.read a = none ∧ s.nonceInitialized a = false ∧ n = 0 := by
  unfold HasNonce getNonce Tiered.read
  cases s.nonce.persistent a with
  | some m =>
    simp only [pure_eq_ok, Prod.mk.injEq, exists_eq_left', Option.some_or, Option.some.injEq,
      reduceCtorEq, false_and, or_false]
  | none =>
    cases s.nonce.legacy a with
    | some m =>
      simp only [pure_eq_ok, Prod.mk.injEq, exists_eq_left', Option.none_or, Option.some.injEq,
        reduceCtorEq, false_and, or_false]
    | none =>
      simp only [bind_eq_ok, ensure_eq_ok, pure_eq_ok, Prod.mk.injEq, Option.none_or, reduceCtorEq,
        true_and, false_or]
      constructor
      · rintro ⟨-, -, hmarker, -, hzero⟩
        exact ⟨hmarker, hzero.symm⟩
      · rintro ⟨hmarker, hzero⟩
        exact ⟨s, (), hmarker, rfl, hzero.symm⟩

theorem HasNonce.of_checkNonce {s s' : State} {a : Address} {n : ℕ}
    (h : checkNonce s a n = .ok s') : HasNonce s a n :=
  hasNonce_iff.mpr (Accepts.of_checkNonce h rfl rfl).current

/-- The nonce of one address says nothing about that of another. `execute` checks the nonce of its
caller first, and that of the contract after it. -/
theorem HasNonce.of_other {s s' : State} {a b : Address} {n m : ℕ}
    (h : checkNonce s a n = .ok s') (hb : b ≠ a) (hm : HasNonce s' b m) : HasNonce s b m := by
  have haccepts := Accepts.of_checkNonce h rfl rfl
  rw [hasNonce_iff, haccepts.nonce, haccepts.marker, Tiered.read_write,
    Function.update_of_ne hb, Function.update_of_ne hb] at hm
  exact hasNonce_iff.mpr hm

/-- The internal dispatch replaces the list by the one the proposal carries. -/
theorem dispatchSelfCall_ok {self : Address} {s s' : State} {pr : Proposal}
    (h : dispatchSelfCall self s pr.method pr.args = .ok s') :
    pr.method = selfMethodSetAllowedCalls ∧ WellFormed s'.allowedCalls ∧
      ∃ calls, Carries self s pr calls ∧ ∀ b, b ∈ s'.allowedCalls ↔ b ∈ calls := by
  simp only [dispatchSelfCall, bind_eq_ok, ensure_eq_ok] at h
  obtain ⟨-, hmethod, h⟩ := h
  split at h
  -- only the three arguments of the right kinds get past the match
  · next caller calls nonce hargs =>
    simp only [applySetAllowedCalls, bind_eq_ok, ensure_eq_ok] at h
    obtain ⟨-, rfl, s₁, hnonce, hwrite⟩ := h
    obtain ⟨hwell, decoded, rfl, hlength, hmem⟩ := writeAllowedCalls_ok hwrite
    exact ⟨hmethod, hwell, decoded, ⟨⟨nonce, hargs, .of_checkNonce hnonce⟩, hlength⟩, hmem⟩
  · cases h

/-- What `dispatch` does to the list. -/
theorem dispatch_allowlist {self : Address} {s s' : State} {pr : Proposal} {returned : Bool}
    (h : dispatch self s pr returned = .ok s') :
    pr.target ≠ self ∧ s'.allowedCalls = s.allowedCalls ∨
      pr.target = self ∧ pr.method = selfMethodSetAllowedCalls ∧ WellFormed s'.allowedCalls ∧
        ∃ calls, Carries self s pr calls ∧ ∀ b, b ∈ s'.allowedCalls ↔ b ∈ calls := by
  unfold dispatch at h
  split at h
  · next htarget => exact Or.inr ⟨htarget, dispatchSelfCall_ok h⟩
  -- a call to another contract is only checked and handed on
  · next htarget =>
    simp only [bind_eq_ok, pure_eq_ok] at h
    obtain ⟨-, -, -, -, rfl⟩ := h
    exact Or.inl ⟨htarget, rfl⟩

/-- **What a committed call does to the list**: the execution of a proposal to the contract itself
replaces it, every other call leaves it alone. -/
theorem allowlist_of_exec {self : Address} {now : ℕ} {s s' : State} {op : Op} {r : ℕ}
    (h : exec self now s op = .ok (s', r)) :
    ¬ ExecutesSelf self s op ∧ s'.allowedCalls = s.allowedCalls ∨
      Replaces self s s' op ∧ WellFormed s'.allowedCalls := by
  have hother : (∀ caller p nonce returned, op ≠ .execute caller p nonce returned) →
      ¬ ExecutesSelf self s op := by
    rintro hop ⟨caller, p, nonce, returned, pr, heq, -⟩
    exact hop caller p nonce returned heq
  -- the entrypoints on votes and proposals, an execution, a migration
  cases rest_of_exec h with
  | voting hop hnonce hrest =>
    refine Or.inl ⟨hother ?_, hrest.allowedCalls.trans (checkNonce_ok hnonce).2⟩
    rintro _ _ _ _ rfl
    cases hop
  | @execute caller p nonce returned _ _ pr hcaller hnonce hread hqueued hdispatch hrest =>
    rw [hrest.allowedCalls]
    rcases dispatch_allowlist hdispatch with ⟨htarget, hsame⟩ | ⟨htarget, hmethod, hwell, hcarried⟩
    · refine Or.inl ⟨?_, hsame.trans (checkNonce_ok hnonce).2⟩
      -- the id decides which proposal is executed, and that one calls elsewhere
      rintro ⟨caller', p', nonce', returned', pr', heq, hread', htarget'⟩
      cases heq
      rw [hread] at hread'
      cases hread'
      exact htarget htarget'
    · obtain ⟨calls, ⟨⟨n, hargs, hself⟩, hlength⟩, hmem⟩ := hcarried
      -- the nonce of the contract is the one of the state before the call, as the caller is another
      have hcarries : Carries self s pr calls :=
        ⟨⟨n, hargs, hself.of_other hnonce (Ne.symm hcaller)⟩, hlength⟩
      rw [← hrest.allowedCalls] at hmem
      exact Or.inr ⟨.execute hread hqueued htarget hmethod (.of_checkNonce hnonce) hcarries hmem,
        hwell⟩
  | migrate hmigrate =>
    refine Or.inl ⟨hother ?_, (migrateStorage_ok hmigrate).2⟩
    rintro _ _ _ _ ⟨⟩

/-! ### Runs -/

theorem construct_wellFormed {signers : List Address} {threshold timelockSeconds : ℕ}
    {allowedCalls : List (Option AllowedCall)} {s : State}
    (h : construct signers threshold timelockSeconds allowedCalls = .ok s) :
    WellFormed s.allowedCalls := by
  simp only [construct, bind_eq_ok, orTrap_eq_ok, toOption_eq_some] at h
  obtain ⟨-, -, hwrite⟩ := h
  exact (writeAllowedCalls_ok hwrite).1

/-- **Allowlist integrity.** In every run of the contract the stored list has no repetitions and at
most 64 entries. It is replaced by an execution of a queued `set_allowed_calls` proposal to the
contract itself, whose three arguments decode and carry the contract's current nonce, and then holds
the pairs of that proposal; no other call changes it. A call that fails changes nothing, and the
execution of a proposal to the contract itself with a wrong nonce or with other arguments is one
that fails. -/
theorem allowlist_integrity {self : Address} {h : List (Call State Op ℕ)} {s : State}
    (hrun : Run (machine self) Init h s) :
    (s.allowedCalls.Nodup ∧ s.allowedCalls.length ≤ maxAllowedCalls) ∧
      (∀ c ∈ h, ¬ ExecutesSelf self c.pre c.op ∧ c.post.allowedCalls = c.pre.allowedCalls ∨
        Replaces self c.pre c.post c.op) ∧
      (∀ o e, exec self o.1 s o.2 = .error e → (machine self).attempt s o = s) ∧
      ∀ now caller p nonce returned pr, s.proposal.read p = some pr → pr.target = self →
        (¬ HasNonce s caller nonce ∨ pr.method ≠ selfMethodSetAllowedCalls ∨
          ∀ calls, ¬ Carries self s pr calls) →
        (machine self).attempt s (now, .execute caller p nonce returned) = s := by
  refine ⟨?_, fun c hc => ?_, fun o e => Machine.attempt_of_error (M := machine self), ?_⟩
  -- the list of the constructor goes through the same loop
  · have hwell : WellFormed s.allowedCalls := by
      refine hrun.invariant (P := fun s => WellFormed s.allowedCalls) ?_ ?_
      · rintro s ⟨signers, threshold, timelockSeconds, allowedCalls, hs⟩
        exact construct_wellFormed hs
      · intro t s op r s' hs hexec
        rcases allowlist_of_exec hexec with ⟨-, hsame⟩ | ⟨-, hwell⟩
        · rw [hsame]
          exact hs
        · exact hwell
    exact ⟨hwell.nodup, hwell.length⟩
  · obtain ⟨h', -, hexec⟩ := hrun.of_mem hc
    exact (allowlist_of_exec hexec).imp_right And.left
  · intro now caller p nonce returned pr hread htarget hbad
    cases hexec : exec self now s (.execute caller p nonce returned) with
    | error e => exact Machine.attempt_of_error (M := machine self) hexec
    | ok x =>
      -- if it went through, it would replace the list by what the proposal carries
      exfalso
      rcases allowlist_of_exec hexec with ⟨hnot, -⟩ | ⟨hreplaces, -⟩
      · exact hnot ⟨caller, p, nonce, returned, pr, rfl, hread, htarget⟩
      · cases hreplaces with
        | @execute _ _ _ _ pr' calls hread' _ _ hmethod hnonce hargs _ =>
          rw [hread] at hread'
          cases hread'
          rcases hbad with hbad | hbad | hbad
          · exact hbad hnonce
          · exact hbad hmethod
          · exact hbad calls hargs

/-- The list starts out empty; the one signer has a list stored that names a call twice. -/
theorem allowlist_integrity_replaced : ∃ (h : List (Call State Op ℕ)) (s : State),
    Run (machine ⟨0⟩) Init h s ∧ s.allowedCalls.Nodup ∧ s.allowedCalls = [⟨⟨2⟩, "ping"⟩] ∧
      ∃ c ∈ h, Replaces ⟨0⟩ c.pre c.post c.op := by
  let call : AllowedCall := ⟨⟨2⟩, "ping"⟩
  let args : List Val := [.address ⟨0⟩, .vec [some call, some call], .u64 0]
  let ops : List (ℕ × Op) :=
    [(0, .propose ⟨1⟩ ⟨0⟩ "set_allowed_calls" args "list" 0), (1, .voteApprove ⟨1⟩ 1 1),
      (11, .execute ⟨1⟩ 1 2 true)]
  obtain ⟨s₀, hs₀⟩ : ∃ s₀, construct [⟨1⟩] 1 10 [] = .ok s₀ := ⟨_, rfl⟩
  have hplay : ((machine ⟨0⟩).play [] s₀ ops).map
      (fun x => ((x.1.head?.map fun c => (c.pre.allowedCalls, c.post.allowedCalls)),
        x.2.allowedCalls)) = some (some ([], [call]), [call]) := by
    cases hs₀
    decide
  have hinit : Init s₀ := ⟨[⟨1⟩], 1, 10, [], hs₀⟩
  obtain ⟨h, s, hrun, hview⟩ := Run.of_play hinit hplay
  simp only [Prod.mk.injEq, Option.map_eq_some_iff] at hview
  obtain ⟨⟨c, hhead, hbefore, hafter⟩, hcalls⟩ := hview
  obtain ⟨⟨hnodup, -⟩, hchanges, -⟩ := allowlist_integrity hrun
  refine ⟨h, s, hrun, hnodup, hcalls, c, List.mem_of_mem_head? hhead, ?_⟩
  rcases hchanges c (List.mem_of_mem_head? hhead) with ⟨-, hsame⟩ | hreplaces
  · rw [hbefore, hafter] at hsame
    cases hsame
  · exact hreplaces

end Governance
end NbsBond
