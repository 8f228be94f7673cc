import NbsBond.Governance.Accounting
import NbsBond.Governance.Allowlist

/-!
# The allowlist query

`propose` and `execute` decide in the same way whether a call is authorized: a call to the contract
itself only if it is of the one method of self-administration, any other call only if it is on the
allowlist. `is_call_allowed` looks at the list alone.

`ProposeRejects` and `ExecuteRejects` say what the two entrypoints do, over all the arguments with
which they can be called, and both come down to `is_executable_call`. So the query agrees with
them, `isCallAllowed_iff`, except on the contract itself.
-/

namespace NbsBond
namespace Governance

open Soroban

/-- Some call of `propose` for `f` of `c` fails with `UnauthorizedCall`. -/
def ProposeRejects (self : Address) (s : State) (c : Address) (f : Symbol) : Prop :=
  ∃ now caller args description nonce,
    propose now self s caller c f args description nonce = .error (.error .unauthorizedCall)

/-- Some call of `execute` fails with `UnauthorizedCall`, if a queued proposal for `f` of `c` whose
time has come is in the store. -/
def ExecuteRejects (self : Address) (s : State) (c : Address) (f : Symbol) : Prop :=
  ∃ now caller p nonce returned pr, pr.target = c ∧ pr.method = f ∧ pr.status = .queued ∧
    Executable now pr ∧ execute now self { s with proposal := s.proposal.write p pr } caller p nonce
      returned = .error (.error .unauthorizedCall)

/-- The query tells what `propose` and `execute` do. Each entrypoint may still fail for another
reason; what is compared is the rejection as unauthorized. -/
structure Agrees (self : Address) (s : State) (c : Address) (f : Symbol) : Prop where
  propose : isCallAllowed s c f = true ↔ ¬ ProposeRejects self s c f
  execute : isCallAllowed s c f = true ↔ ¬ ExecuteRejects self s c f

section Calls

variable {self : Address} {s : State} {c caller : Address} {f : Symbol} {nonce : ℕ}

/-! ### Where `UnauthorizedCall` comes from -/

theorem checkNonce_ne_unauthorizedCall :
    checkNonce s caller nonce ≠ .error (.error .unauthorizedCall) := by
  intro h
  simp only [checkNonce, bind_eq_error, ensure_eq_error] at h
  rcases h with h | ⟨_, -, ⟨-, h⟩ | ⟨_, -, h⟩⟩
  · unfold getNonce at h
    split at h
    · cases h
    · split at h
      · cases h
      · simp only [bind_eq_error, ensure_eq_error] at h
        rcases h with ⟨-, h⟩ | ⟨_, -, h⟩ <;> cases h
  · cases h
  · cases h

theorem requireSigner_ne_unauthorizedCall :
    requireSigner s caller ≠ .error (.error .unauthorizedCall) := by
  intro h
  simp only [requireSigner, bind_eq_error, orError_eq_error, ensure_eq_error] at h
  rcases h with ⟨-, h⟩ | ⟨_, -, -, h⟩ <;> cases h

theorem pushCall_foldlM_ne_unauthorizedCall {calls : List (Option AllowedCall)}
    {deduped : List AllowedCall} :
    calls.foldlM pushCall deduped ≠ .error (.error .unauthorizedCall) := by
  induction calls generalizing deduped with
  | nil => exact pure_ne_error
  | cons call calls ih =>
    intro h
    rw [List.foldlM_cons, bind_eq_error] at h
    rcases h with h | ⟨_, -, h⟩
    · simp only [pushCall, bind_eq_error, orError_eq_error] at h
      rcases h with ⟨-, h⟩ | ⟨_, -, h⟩ <;> cases h
    · exact ih h

theorem applySetAllowedCalls_ne_unauthorizedCall {calls : List (Option AllowedCall)} :
    applySetAllowedCalls self s caller calls nonce ≠ .error (.error .unauthorizedCall) := by
  intro h
  simp only [applySetAllowedCalls, writeAllowedCalls, bind_eq_error, ensure_eq_error] at h
  rcases h with ⟨-, h⟩ | ⟨_, -, h | ⟨_, -, ⟨-, h⟩ | ⟨_, -, h | ⟨_, -, h⟩⟩⟩⟩
  · cases h
  · exact checkNonce_ne_unauthorizedCall h
  · cases h
  · exact pushCall_foldlM_ne_unauthorizedCall h
  · cases h

/-- A dispatched call is rejected just if it is not executable. -/
theorem dispatch_rejects_iff {pr : Proposal} {returned : Bool} :
    dispatch self s pr returned = .error (.error .unauthorizedCall) ↔
      isExecutableCall self s pr.target pr.method = false := by
  unfold dispatch isExecutableCall
  split
  · unfold dispatchSelfCall
    rw [bind_eq_error, ensure_eq_error, decide_eq_false_iff_not]
    constructor
    · rintro (⟨hmethod, -⟩ | ⟨_, -, h⟩)
      · exact hmethod
      · split at h
        · exact absurd h applySetAllowedCalls_ne_unauthorizedCall
        · cases h
    · exact fun hmethod => .inl ⟨hmethod, rfl⟩
  · rw [bind_eq_error, ensure_eq_error, Bool.not_eq_true]
    constructor
    · rintro (⟨hlisted, -⟩ | ⟨_, -, h⟩)
      · exact hlisted
      · cases returned <;> cases h
    · exact fun hlisted => .inl ⟨hlisted, rfl⟩

/-- What is executable depends on the allowlist only. -/
theorem isExecutableCall_congr {s' : State} (h : s'.allowedCalls = s.allowedCalls) :
    isExecutableCall self s' c f = isExecutableCall self s c f := by
  rw [isExecutableCall, isExecutableCall, h]

/-- **What `propose` rejects.** The nonce and the signer are checked before, so these cases end with
another error. -/
theorem not_executable_of_proposeRejects (h : ProposeRejects self s c f) :
    isExecutableCall self s c f = false := by
  obtain ⟨now, caller, args, description, nonce, h⟩ := h
  simp only [propose, bind_eq_error, ensure_eq_error] at h
  rcases h with h | ⟨s₁, hnonce, h | ⟨_, -, ⟨hnot, -⟩ | ⟨_, -, h⟩⟩⟩
  · exact absurd h checkNonce_ne_unauthorizedCall
  · exact absurd h requireSigner_ne_unauthorizedCall
  · rw [isExecutableCall_congr (checkNonce_ok hnonce).2] at hnot
    exact Bool.not_eq_true _ ▸ hnot
  · cases h

/-- A nonce is not part of a proposal. -/
theorem stored_of_checkNonce {s₁ : State} {p : ℕ} {pr : Proposal}
    (h : checkNonce { s with proposal := s.proposal.write p pr } caller nonce = .ok s₁) :
    s₁.proposal.read p = some pr := by
  have hproposal : s₁.proposal.read = (s.proposal.write p pr).read :=
    congrArg Ballot.proposal (checkNonce_ok h).1
  rw [hproposal, Tiered.read_write, Function.update_self]

/-- The execution of a queued proposal whose time has come fails as its dispatch does. -/
theorem execute_rejects_iff {s₁ : State} {now p : ℕ} {pr : Proposal} {returned : Bool}
    (hnonce : checkNonce s caller nonce = .ok s₁) (hread : s₁.proposal.read p = some pr)
    (hqueued : pr.status = .queued) (htimely : Executable now pr) :
    execute now self s caller p nonce returned = .error (.error .unauthorizedCall) ↔
      isExecutableCall self s pr.target pr.method = false := by
  have hdispatch : execute now self s caller p nonce returned =
      (dispatch self s₁ pr returned >>= fun s' => return { s' with
        proposal := s'.proposal.write p { pr with status := .executed, executedAt := now } }) := by
    simp only [execute, hnonce, bind, Except.bind, hread, orError, ensure, if_pos hqueued,
      if_pos htimely.1, if_pos htimely.2]
  rw [hdispatch, bind_eq_error, or_iff_left, dispatch_rejects_iff,
    isExecutableCall_congr (checkNonce_ok hnonce).2]
  -- what comes after the dispatch does not fail
  rintro ⟨_, _, h⟩
  exact pure_ne_error h

/-- **What `execute` rejects.** The status and the times are checked before, so these cases end with
another error. -/
theorem not_executable_of_executeRejects (h : ExecuteRejects self s c f) :
    isExecutableCall self s c f = false := by
  obtain ⟨now, caller, p, nonce, returned, pr, rfl, rfl, hqueued, htimely, h⟩ := h
  cases hnonce : checkNonce { s with proposal := s.proposal.write p pr } caller nonce with
  | error e =>
    -- the nonce was wrong, and that is another error
    simp only [execute, hnonce] at h
    rw [show e = .error .unauthorizedCall from Except.error.inj h] at hnonce
    exact absurd hnonce checkNonce_ne_unauthorizedCall
  | ok s₁ =>
    have hread := stored_of_checkNonce hnonce
    exact (execute_rejects_iff hnonce hread hqueued htimely).mp h

/-! ### Where it can be seen -/

/-- Somebody can call. Without a signer whose nonce can be read neither entrypoint gets as far as
the list. -/
structure Callable (s : State) : Prop where
  signer : ∃ signers a, s.signers = some signers ∧ a ∈ signers
  nonce : ∀ a, ¬ Archived s a

/-- Who has a nonce can present it. -/
theorem Callable.checkNonce (hs : Callable s) (a : Address) :
    ∃ n s₁, Governance.checkNonce s a n = .ok s₁ := by
  have hnonce : ∃ n, HasNonce s a n := by
    have hkept := hs.nonce a
    rw [Archived, not_and, Bool.not_eq_true] at hkept
    cases hread : s.nonce.read a with
    | some n => exact ⟨n, hasNonce_iff.mpr (.inl hread)⟩
    | none => exact ⟨0, hasNonce_iff.mpr (.inr ⟨hread, hkept hread, rfl⟩)⟩
  obtain ⟨n, s₁, hget⟩ := hnonce
  refine ⟨n, writeNonce s₁ a ((n + 1) % 2 ^ 64), ?_⟩
  simp only [Governance.checkNonce, bind_eq_ok, ensure_eq_ok, pure_eq_ok]
  exact ⟨(s₁, n), hget, (), rfl, rfl⟩

/-- **`propose` decides by `is_executable_call`.** -/
theorem proposeRejects_iff (hs : Callable s) :
    ProposeRejects self s c f ↔ isExecutableCall self s c f = false := by
  refine ⟨not_executable_of_proposeRejects, fun hnot => ?_⟩
  obtain ⟨signers, a, hsigners, ha⟩ := hs.signer
  obtain ⟨n, s₁, hnonce⟩ := hs.checkNonce a
  obtain ⟨hballot, hallowed⟩ := checkNonce_ok hnonce
  have hsigners₁ : s₁.signers = some signers := (congrArg Ballot.signers hballot).trans hsigners
  refine ⟨0, a, [], "", n, ?_⟩
  simp only [propose, bind_eq_error, ensure_eq_error]
  refine .inr ⟨s₁, hnonce, .inr ⟨(), ?_, .inl ⟨?_, trivial⟩⟩⟩
  · simp only [requireSigner, bind_eq_ok, orError_eq_ok, ensure_eq_ok]
    exact ⟨signers, hsigners₁, ha⟩
  · rw [isExecutableCall_congr hallowed, hnot]
    exact Bool.false_ne_true

/-- **`execute` decides by `is_executable_call`.** -/
theorem executeRejects_iff (hs : Callable s) :
    ExecuteRejects self s c f ↔ isExecutableCall self s c f = false := by
  refine ⟨not_executable_of_executeRejects, fun hnot => ?_⟩
  let pr : Proposal := ⟨1, self, c, f, [], "", .queued, 0, 0, 0, 1, 0, 0, 0⟩
  have hs' : Callable { s with proposal := s.proposal.write 1 pr } := ⟨hs.signer, hs.nonce⟩
  obtain ⟨n, s₁, hnonce⟩ := hs'.checkNonce self
  have htimely : Executable 0 pr := ⟨Nat.not_succ_le_zero 0, le_rfl⟩
  exact ⟨0, self, 1, n, true, pr, rfl, rfl, rfl, htimely,
    (execute_rejects_iff hnonce (stored_of_checkNonce hnonce) rfl htimely).mpr hnot⟩

end Calls

/-! ### Runs -/

section Runs

variable {self : Address} {s : State} {h : List (Call State Op ℕ)}

theorem Accepts.kept {s' : State} {a b : Address} {n : ℕ} (haccepts : Accepts s s' a n)
    (hb : ¬ Archived s b) : ¬ Archived s' b := by
  by_cases hab : b = a
  · rintro ⟨hnone, -⟩
    rw [haccepts.nonce, Tiered.read_write, hab, Function.update_self] at hnone
    cases hnone
  · rwa [(haccepts.other hab).2]

/-- No call loses a nonce. -/
theorem Uses.kept {s' : State} {l : List (Address × ℕ)} {b : Address} (huses : Uses s l s')
    (hb : ¬ Archived s b) : ¬ Archived s' b := by
  induction huses with
  | nothing hnonce hmarker =>
    rw [Archived, hnonce, hmarker]
    exact hb
  | accept _ haccepts ih => exact haccepts.kept ih

theorem construct_fresh {signers : List Address} {threshold timelockSeconds : ℕ}
    {allowedCalls : List (Option AllowedCall)}
    (h : construct signers threshold timelockSeconds allowedCalls = .ok s) :
    signers ≠ [] ∧ s.nonceInitialized = fun _ => false := by
  simp only [construct, bind_eq_ok, orTrap_eq_ok, toOption_eq_some, Option.ite_none_right_eq_some]
    at h
  obtain ⟨-, ⟨⟨hne, -⟩, -⟩, hwrite⟩ := h
  simp only [writeAllowedCalls, bind_eq_ok, pure_eq_ok] at hwrite
  obtain ⟨-, -, -, -, rfl⟩ := hwrite
  exact ⟨hne, rfl⟩

/-- In every reached state somebody can call. -/
theorem Callable.of_run (hrun : Run (machine self) Init h s) : Callable s := by
  have hsigners : ∃ signers, signers ≠ [] ∧ signers.Nodup ∧ Accounted signers (ballot s) := by
    refine hrun.invariant
      (P := fun s => ∃ signers, signers ≠ [] ∧ signers.Nodup ∧ Accounted signers (ballot s)) ?_ ?_
    · rintro s ⟨signers, threshold, timelockSeconds, allowedCalls, hs⟩
      exact ⟨signers, (construct_fresh hs).1, Accounted.of_construct hs⟩
    · rintro t s op r s' ⟨signers, hne, hnodup, hA⟩ hexec
      exact ⟨signers, hne, hnodup, hA.step hnodup (step_of_exec hexec)⟩
  have hnonce : ∀ a, ¬ Archived s a := by
    refine hrun.invariant (P := fun s => ∀ a, ¬ Archived s a) ?_ ?_
    · rintro s ⟨signers, threshold, timelockSeconds, allowedCalls, hs⟩ a ⟨-, hmarked⟩
      rw [(construct_fresh hs).2] at hmarked
      cases hmarked
    · intro t s op r s' hs hexec a
      exact (uses_of_exec hexec).kept (hs a)
  obtain ⟨signers, hne, -, hA⟩ := hsigners
  obtain ⟨a, ha⟩ := List.exists_mem_of_ne_nil _ hne
  exact ⟨⟨signers, a, hA.electorate, ha⟩, hnonce⟩

/-- **The allowlist query.** In every reached state it agrees with `propose` and `execute` on a call
if and only if the call is to another contract, or the list has it just if it is the one method of
self-administration. The query looks the pair up in the list and nothing else, while for the
contract itself the two entrypoints do not ask the list. -/
theorem isCallAllowed_iff (hrun : Run (machine self) Init h s) (c : Address) (f : Symbol) :
    Agrees self s c f ↔
      c ≠ self ∨ (⟨self, f⟩ ∈ s.allowedCalls ↔ f = selfMethodSetAllowedCalls) := by
  have hs := Callable.of_run hrun
  have hsame : Agrees self s c f ↔
      (isCallAllowed s c f = true ↔ isExecutableCall self s c f = true) := by
    constructor
    · rintro ⟨hpropose, -⟩
      rw [hpropose, proposeRejects_iff hs, Bool.not_eq_false]
    · intro hquery
      refine ⟨?_, ?_⟩
      · rw [hquery, proposeRejects_iff hs, Bool.not_eq_false]
      · rw [hquery, executeRejects_iff hs, Bool.not_eq_false]
  rw [hsame, isCallAllowed, isExecutableCall]
  by_cases hc : c = self
  · subst hc
    rw [if_pos rfl, @containsCall_iff _ ⟨c, f⟩, decide_eq_true_iff]
    simp
  · rw [if_neg hc]
    simp [hc]

end Runs

/-- A contract with one signer, `1`, whose allowlist names a method of the contract itself: the
query permits that method, which is rejected, and not the one that is never rejected. -/
theorem isCallAllowed_self : ∃ s : State, Run (machine ⟨0⟩) Init [] s ∧
    isCallAllowed s ⟨0⟩ "ping" = true ∧ ProposeRejects ⟨0⟩ s ⟨0⟩ "ping" ∧
      isCallAllowed s ⟨0⟩ "set_allowed_calls" = false ∧
      ¬ ProposeRejects ⟨0⟩ s ⟨0⟩ "set_allowed_calls" ∧
      ¬ ExecuteRejects ⟨0⟩ s ⟨0⟩ "set_allowed_calls" ∧
      ¬ ∀ c f, Agrees ⟨0⟩ s c f := by
  obtain ⟨s, hs⟩ : ∃ s, construct [⟨1⟩] 1 10 [some ⟨⟨0⟩, "ping"⟩] = .ok s := ⟨_, rfl⟩
  have hrun : Run (machine ⟨0⟩) Init [] s := .start ⟨[⟨1⟩], 1, 10, _, hs⟩
  have hlisted : isCallAllowed s ⟨0⟩ "ping" = true := by
    cases hs
    decide
  have hrejects : ProposeRejects ⟨0⟩ s ⟨0⟩ "ping" := by
    refine ⟨0, ⟨1⟩, [], "", 0, fault_eq_some.mp ?_⟩
    cases hs
    decide
  have hmissing : isCallAllowed s ⟨0⟩ "set_allowed_calls" = false := by
    cases hs
    decide
  have hexecutable : isExecutableCall ⟨0⟩ s ⟨0⟩ "set_allowed_calls" ≠ false := by
    cases hs
    decide
  refine ⟨s, hrun, hlisted, hrejects, hmissing,
    fun h => hexecutable (not_executable_of_proposeRejects h),
    fun h => hexecutable (not_executable_of_executeRejects h), fun hagrees => ?_⟩
  obtain ⟨hpropose, -⟩ := hagrees ⟨0⟩ "ping"
  exact hpropose.mp hlisted hrejects

/-- The query is right about a call that is listed, about one that is not, and about a method of
the contract itself that is not. -/
theorem isCallAllowed_iff_listed : ∃ (h : List (Call State Op ℕ)) (s : State),
    Run (machine ⟨0⟩) Init h s ∧ isCallAllowed s ⟨2⟩ "ping" = true ∧ Agrees ⟨0⟩ s ⟨2⟩ "ping" ∧
      isCallAllowed s ⟨2⟩ "upgrade" = false ∧ Agrees ⟨0⟩ s ⟨2⟩ "upgrade" ∧
      Agrees ⟨0⟩ s ⟨0⟩ "upgrade" := by
  obtain ⟨s₀, hs₀⟩ : ∃ s₀, construct [⟨1⟩] 1 10 [some ⟨⟨2⟩, "ping"⟩] = .ok s₀ := ⟨_, rfl⟩
  have hplay : ((machine ⟨0⟩).play [] s₀
      [(0, .propose ⟨1⟩ ⟨2⟩ "ping" [] "p" 0), (1, .voteApprove ⟨1⟩ 1 1)]).map
      (fun x => x.2.allowedCalls) = some [⟨⟨2⟩, "ping"⟩] := by
    cases hs₀
    decide
  have hinit : Init s₀ := ⟨[⟨1⟩], 1, 10, _, hs₀⟩
  obtain ⟨h, s, hrun, hcalls⟩ := Run.of_play hinit hplay
  dsimp only at hcalls
  refine ⟨h, s, hrun, ?_, (isCallAllowed_iff hrun _ _).mpr (.inl (by decide)), ?_,
    (isCallAllowed_iff hrun _ _).mpr (.inl (by decide)),
    (isCallAllowed_iff hrun _ _).mpr (.inr ?_)⟩
  · rw [isCallAllowed, hcalls]
    decide
  · rw [isCallAllowed, hcalls]
    decide
  · rw [hcalls]
    decide

end Governance
end NbsBond
