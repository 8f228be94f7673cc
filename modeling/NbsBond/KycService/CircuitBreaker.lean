import NbsBond.Framework.Run

/-!
# The circuit breaker of the KYC provider

`KycCircuitBreaker` of `api/src/auth/kyc.service.ts`, and the provider calls it admits. A call that
`canAttempt` admitted is in flight until it reports `recordSuccess` or `recordFailure`. The breaker
does not know which call reports; the state of the system does, and remembers for each the state of
the breaker in which it was admitted.

While the circuit is not closed, `probeInFlight` is meant to say that a probe is in flight. That is
the invariant `Counted`. A probe keeps it, and so do the calls admitted before the circuit opened as
long as they report to a closed or open circuit: `Careful` is the condition on a step, and
`probes_iff_careful` says that in a run of careful steps there is at most one probe and only its
success closes the circuit, and that a careless step after such a run spoils one of the two.

Thresholds and cooldowns are natural numbers here: failures and milliseconds are whole, so that a
fractional bound acts as its ceiling.
-/

namespace NbsBond
namespace KycService

open Soroban

/-- `CircuitBreakerState`. The third lies between the other two: open for requests, but for one. -/
inductive CircuitBreakerState where
  | closed
  /-- `'open'` -/
  | opened
  | halfOpen
  deriving DecidableEq, Repr

/-- `KycCircuitBreaker`. `openedAt` and the failures are those of the newest opening. Whether a call
that reports was the probe is not among its fields. -/
structure KycCircuitBreaker where
  consecutiveFailures : ℕ := 0
  openedAt : ℕ := 0
  state : CircuitBreakerState := .closed
  probeInFlight : Bool := false
  deriving DecidableEq, Repr

/-! ### Operations -/

namespace KycCircuitBreaker

variable (threshold cooldownMs now : ℕ) (b : KycCircuitBreaker)

/-- `get currentState`: an elapsed open window lazily becomes `halfOpen`. So the state changes by
being looked at, and only then. -/
def currentState : KycCircuitBreaker :=
  if b.state = .opened ∧ b.openedAt + cooldownMs ≤ now then { b with state := .halfOpen } else b

/-- `get retryAfterSeconds`, which looks at `currentState` first. Rounded up to whole seconds. -/
def retryAfterSeconds : KycCircuitBreaker × ℕ :=
  let b := b.currentState cooldownMs now
  (b, if b.state = .opened then (b.openedAt + cooldownMs - now + 999) / 1000 else 0)

/-- `canAttempt`. In the half-open state the first request to ask is the probe. -/
def canAttempt : KycCircuitBreaker × Bool :=
  let b := b.currentState cooldownMs now
  if b.state = .closed then (b, true)
  else if b.state = .halfOpen ∧ b.probeInFlight = false then
    ({ b with probeInFlight := true }, true)
  else (b, false)

/-- `recordSuccess`. From whatever state, whichever call reports. -/
def recordSuccess (_ : KycCircuitBreaker) : KycCircuitBreaker :=
  { consecutiveFailures := 0, openedAt := 0, state := .closed, probeInFlight := false }

/-- `recordFailure`, which looks at the state as it is stored. A failure in the half-open state
opens the circuit again, with a new window. -/
def recordFailure : KycCircuitBreaker :=
  -- The probe counts as over whoever has failed.
  let b := { b with probeInFlight := false, consecutiveFailures := b.consecutiveFailures + 1 }
  if b.state = .halfOpen then { b with state := .opened, openedAt := now }
  else if threshold ≤ b.consecutiveFailures then { b with state := .opened, openedAt := now }
  else b

end KycCircuitBreaker

namespace CircuitBreaker

/-- The breaker, and for each provider call in flight the state in which it was admitted. The
breaker itself does not know which calls are in flight; the state they were admitted in is kept here
to say it. -/
structure State where
  breaker : KycCircuitBreaker
  inFlight : List CircuitBreakerState
  deriving DecidableEq, Repr

/-- One step. A call reports once, whenever it likes. -/
inductive Op where
  /-- `canAttempt`; if it allows the call, the call starts. -/
  | attempt
  /-- `getCircuitBreakerHealth`. -/
  | health
  /-- A call admitted in this state reports `recordSuccess`. -/
  | success (admitted : CircuitBreakerState)
  /-- A call admitted in this state reports `recordFailure`. -/
  | failure (admitted : CircuitBreakerState)
  deriving DecidableEq, Repr

variable (threshold cooldownMs : ℕ)

/-- A request asks whether it may call the provider, and calls it if so. -/
def attempt (now : ℕ) (s : State) : State :=
  let b := s.breaker.canAttempt cooldownMs now
  ⟨b.1, if b.2 then b.1.state :: s.inFlight else s.inFlight⟩

/-- The effect of a step; `none` if there is no such call. Which of several calls of the same kind
reports makes no difference. -/
def step (now : ℕ) (s : State) : Op → Option State
  | .attempt => some (attempt cooldownMs now s)
  | .health => some { s with breaker := (s.breaker.retryAfterSeconds cooldownMs now).1 }
  | .success admitted =>
    if admitted ∈ s.inFlight then
      some ⟨s.breaker.recordSuccess, s.inFlight.erase admitted⟩
    else none
  | .failure admitted =>
    if admitted ∈ s.inFlight then
      some ⟨s.breaker.recordFailure threshold now, s.inFlight.erase admitted⟩
    else none

/-- Requests and their provider calls, in any order. -/
def machine : Machine State Op Unit Unit :=
  ⟨fun now s op => orTrap ((step threshold cooldownMs now s op).map fun s' => (s', ()))⟩

/-- A new breaker. -/
def Init (s : State) : Prop := s = ⟨{}, []⟩

/-! ### Probes -/

/-- While the circuit is not closed, at most one call admitted in the half-open state is in flight.
While it is closed every request is let pass. -/
def SingleProbe (s : State) : Prop :=
  s.breaker.state ≠ .closed → s.inFlight.count .halfOpen ≤ 1

/-- If a step closes the circuit, it is the success of such a call. Nothing but the probe may say
that the provider is back. -/
def ClosedByProbe (s : State) (op : Op) (s' : State) : Prop :=
  s.breaker.state ≠ .closed → s'.breaker.state = .closed → op = .success .halfOpen

/-- `probeInFlight` counts the calls admitted in the half-open state, and is only set in it. This is
what the flag is meant to say. The number is at most one, since it is that of a flag. -/
structure Counted (s : State) : Prop where
  count : s.inFlight.count .halfOpen = s.breaker.probeInFlight.toNat
  halfOpen : s.breaker.probeInFlight = true → s.breaker.state = .halfOpen

/-- A call admitted in another state succeeds only while the circuit is closed, and fails only while
no probe is in flight. A condition on the state before the step and on when the reporting call was
admitted. The breaker has no means to tell: it is the caller of `recordSuccess` that would have to
know. -/
def Careful (s : State) : Op → Prop
  | .success admitted => admitted = .halfOpen ∨ s.breaker.state = .closed
  | .failure admitted => admitted = .halfOpen ∨ s.breaker.probeInFlight = false
  | _ => True

instance (s : State) (op : Op) : Decidable (Careful s op) :=
  match op with
  | .attempt => .isTrue trivial
  | .health => .isTrue trivial
  | .success admitted => inferInstanceAs (Decidable (admitted = .halfOpen ∨ _))
  | .failure admitted => inferInstanceAs (Decidable (admitted = .halfOpen ∨ _))

variable {threshold cooldownMs now : ℕ} {s s' : State} {op : Op}

theorem Counted.singleProbe (h : Counted s) : SingleProbe s := by
  intro _
  rw [h.count]
  exact Bool.toNat_le _

theorem Counted.not_probeInFlight (h : Counted s) (hstate : s.breaker.state ≠ .halfOpen) :
    s.breaker.probeInFlight = false := by
  apply Bool.eq_false_iff.mpr
  intro hprobe
  exact hstate (h.halfOpen hprobe)

/-- A breaker without a probe, over calls none of which is one. -/
theorem Counted.of_none (hprobe : s.breaker.probeInFlight = false)
    (hcount : s.inFlight.count .halfOpen = 0) : Counted s := by
  constructor
  · rw [hcount, hprobe]
    rfl
  · intro h
    rw [hprobe] at h
    cases h

/-! ### Steps -/

theorem currentState_eq_or (cooldownMs now : ℕ) (b : KycCircuitBreaker) :
    b.currentState cooldownMs now = b ∨
      b.state = .opened ∧ b.currentState cooldownMs now = { b with state := .halfOpen } := by
  unfold KycCircuitBreaker.currentState
  split
  · next h => exact .inr ⟨h.1, rfl⟩
  · exact .inl rfl

theorem Counted.currentState (h : Counted s) :
    Counted { s with breaker := s.breaker.currentState cooldownMs now } := by
  -- the state changes from opened to half-open at most, and the flag stays
  rcases currentState_eq_or cooldownMs now s.breaker with heq | ⟨-, heq⟩
  · rw [heq]
    exact h
  · rw [heq]
    exact ⟨h.count, fun _ => rfl⟩

/-- Looking at the state never closes the circuit. -/
theorem currentState_ne_closed {b : KycCircuitBreaker} (h : b.state ≠ .closed) :
    (b.currentState cooldownMs now).state ≠ .closed := by
  rcases currentState_eq_or cooldownMs now b with heq | ⟨-, heq⟩
  · rw [heq]
    exact h
  · rw [heq]
    exact CircuitBreakerState.noConfusion

theorem Counted.attempt (h : Counted s) : Counted (attempt cooldownMs now s) := by
  have hcur : Counted { s with breaker := s.breaker.currentState cooldownMs now } :=
    h.currentState
  generalize hb : s.breaker.currentState cooldownMs now = b at hcur
  simp only [CircuitBreaker.attempt, KycCircuitBreaker.canAttempt, hb]
  split
  · next hclosed =>
    -- a call admitted in the closed state is not a probe
    refine ⟨?_, hcur.halfOpen⟩
    dsimp only
    rw [if_pos rfl, hclosed, List.count_cons_of_ne (by decide)]
    exact hcur.count
  -- half-open and no probe yet, so this call becomes it
  · split
    · next hhalf =>
      refine ⟨?_, fun _ => hhalf.1⟩
      have hcount := hcur.count
      dsimp only at hcount ⊢
      rw [if_pos rfl, hhalf.1, List.count_cons_self, hcount, hhalf.2]
      rfl
    · exact hcur

theorem attempt_ne_closed (h : s.breaker.state ≠ .closed) :
    (attempt cooldownMs now s).breaker.state ≠ .closed := by
  -- an attempt looks at the state first, and that does not close it
  have hcur : (s.breaker.currentState cooldownMs now).state ≠ .closed := currentState_ne_closed h
  simp only [attempt, KycCircuitBreaker.canAttempt]
  rw [if_neg hcur]
  split
  · exact hcur
  · exact hcur

@[simp] theorem recordFailure_probeInFlight (b : KycCircuitBreaker) :
    (b.recordFailure threshold now).probeInFlight = false := by
  simp only [KycCircuitBreaker.recordFailure]
  split
  · rfl
  · split
    · rfl
    · rfl

/-- Nothing closes on a failure. -/
theorem recordFailure_ne_closed {b : KycCircuitBreaker} (h : b.state ≠ .closed) :
    (b.recordFailure threshold now).state ≠ .closed := by
  simp only [KycCircuitBreaker.recordFailure]
  split
  · exact CircuitBreakerState.noConfusion
  · split
    · exact CircuitBreakerState.noConfusion
    · exact h

/-- When the report of a call is careful, no call left in flight is a probe. A probe that reports
takes its own place in the count away; another call reports only while there is no probe. -/
theorem Counted.erase {admitted : CircuitBreakerState} (h : Counted s)
    (hmem : admitted ∈ s.inFlight)
    (hcareful : admitted = .halfOpen ∨ s.breaker.probeInFlight = false) :
    (s.inFlight.erase admitted).count .halfOpen = 0 := by
  -- there was one probe at most
  have hle : s.inFlight.count .halfOpen ≤ 1 := by
    rw [h.count]
    exact Bool.toNat_le _
  rcases hcareful with rfl | hprobe
  · rw [List.count_erase_self]
    omega
  · apply Nat.eq_zero_of_le_zero
    calc (s.inFlight.erase admitted).count .halfOpen
        ≤ s.inFlight.count .halfOpen := List.erase_sublist.count_le _
      _ = 0 := by rw [h.count, hprobe]; rfl

/-- **Careful steps keep the count**, and close the circuit on the success of a probe only. -/
theorem Counted.step (h : Counted s) (hcareful : Careful s op)
    (hstep : step threshold cooldownMs now s op = some s') :
    ClosedByProbe s op s' ∧ Counted s' := by
  cases op with
  | attempt =>
    cases hstep
    -- only a report closes the circuit
    exact ⟨fun hne hclosed => absurd hclosed (attempt_ne_closed hne), h.attempt⟩
  | health =>
    cases hstep
    exact ⟨fun hne hclosed => absurd hclosed (currentState_ne_closed hne), h.currentState⟩
  | success admitted =>
    simp only [CircuitBreaker.step] at hstep
    split at hstep
    · next hmem =>
      cases hstep
      -- a success closes the circuit, and it was a probe or the circuit was closed already
      refine ⟨fun hne _ => ?_, .of_none rfl (h.erase hmem ?_)⟩
      · rcases hcareful with rfl | hclosed
        · rfl
        · exact absurd hclosed hne
      · refine hcareful.imp_right fun hclosed => h.not_probeInFlight ?_
        rw [hclosed]
        exact CircuitBreakerState.noConfusion
    · cases hstep
  | failure admitted =>
    simp only [CircuitBreaker.step] at hstep
    split at hstep
    · next hmem =>
      cases hstep
      refine ⟨fun hne hclosed => absurd hclosed (recordFailure_ne_closed hne), ?_⟩
      -- a failure clears the flag, and no probe is left for it to stand for
      exact .of_none (recordFailure_probeInFlight _) (h.erase hmem hcareful)
    · cases hstep

/-- After a careless failure the probe is still in flight, and after the next cooldown a second one
is admitted. Between the two there is no report of the probe; it may still be waiting for its
answer. -/
theorem second_probe {admitted : CircuitBreakerState} (h : Counted s)
    (hcareless : ¬ Careful s (.failure admitted))
    (hstep : step threshold cooldownMs now s (.failure admitted) = some s') :
    ¬ SingleProbe (attempt cooldownMs (now + cooldownMs) s') := by
  obtain ⟨hadm, hprobe⟩ := not_or.mp hcareless
  rw [Bool.not_eq_false] at hprobe
  simp only [step] at hstep
  split at hstep
  · cases hstep
    -- the report of the other call does not take the probe out of flight
    have hcount : (s.inFlight.erase admitted).count .halfOpen = 1 := by
      rw [List.count_erase_of_ne (Ne.symm hadm), h.count, hprobe]
      rfl
    -- any failure while half-open opens the circuit anew and clears the flag
    have hopen : s.breaker.recordFailure threshold now =
        ⟨s.breaker.consecutiveFailures + 1, now, .opened, false⟩ := by
      simp only [KycCircuitBreaker.recordFailure, h.halfOpen hprobe, if_true]
    -- after the cooldown the flag is clear, so the next call is admitted as a probe
    have hattempt : attempt cooldownMs (now + cooldownMs)
          ⟨s.breaker.recordFailure threshold now, s.inFlight.erase admitted⟩ =
        ⟨⟨s.breaker.consecutiveFailures + 1, now, .halfOpen, true⟩,
          .halfOpen :: s.inFlight.erase admitted⟩ := by
      rw [hopen]
      simp [attempt, KycCircuitBreaker.canAttempt, KycCircuitBreaker.currentState]
    rw [hattempt]
    intro hsingle
    have hle := hsingle CircuitBreakerState.noConfusion
    rw [List.count_cons_self, hcount] at hle
    omega
  · cases hstep

/-- A step closes the circuit on the success of a probe only, and whenever the next request comes
there is at most one probe. The later request is what makes a wrong flag visible. -/
def KeepsProbe (cooldownMs now : ℕ) (s : State) (op : Op) (s' : State) : Prop :=
  ClosedByProbe s op s' ∧ ∀ later ≥ now, SingleProbe (attempt cooldownMs later s')

/-- **One step** keeps to a single probe if and only if it is careful. -/
theorem Counted.keepsProbe_iff (h : Counted s)
    (hstep : CircuitBreaker.step threshold cooldownMs now s op = some s') :
    KeepsProbe cooldownMs now s op s' ↔ Careful s op := by
  constructor
  · rintro ⟨hclosed, hsingle⟩
    -- a careless step shows on the spot, or at the next request
    by_contra hcareless
    cases op with
    | attempt => exact hcareless trivial
    | health => exact hcareless trivial
    | success admitted =>
      obtain ⟨hadm, hne⟩ := not_or.mp hcareless
      simp only [CircuitBreaker.step] at hstep
      split at hstep
      · cases hstep
        -- the success of any call closes the circuit
        exact hadm (Op.success.inj (hclosed hne rfl))
      · cases hstep
    | failure admitted =>
      exact second_probe h hcareless hstep (hsingle (now + cooldownMs) (Nat.le_add_right _ _))
  · intro hcareful
    obtain ⟨hclosed, hcounted⟩ := h.step hcareful hstep
    exact ⟨hclosed, fun later _ => hcounted.attempt.singleProbe⟩

/-! ### Runs -/

theorem exec_eq_ok {r : Unit} :
    (machine threshold cooldownMs).exec now s op = .ok (s', r) ↔
      step threshold cooldownMs now s op = some s' := by
  constructor
  · intro h
    obtain ⟨s₁, hstep, heq⟩ := Option.map_eq_some_iff.mp (orTrap_eq_ok.mp h)
    cases heq
    exact hstep
  · intro h
    exact orTrap_eq_ok.mpr (Option.map_eq_some_iff.mpr ⟨s', h, rfl⟩)

theorem counted_of_run {h : List (Call State Op Unit)}
    (hrun : Run (machine threshold cooldownMs) Init h s)
    (hcareful : ∀ c ∈ h, Careful c.pre c.op) : Counted s := by
  refine hrun.guarded (G := Careful) (P := Counted) ?_ ?_ hcareful
  · rintro s rfl
    exact .of_none rfl rfl
  · intro now s op r s' hs hop hexec
    exact (hs.step hop (exec_eq_ok.mp hexec)).2

/-- **Half-open means one probe, in a run of careful steps**: after each of them at most one call
admitted in the half-open state is in flight while the circuit is not closed, none is while it is,
and a step that closes the circuit is the success of such a call. And the condition on a step cannot
be weakened: after such a run, a step keeps to a single probe if and only if it is careful. -/
theorem probes_iff_careful {h : List (Call State Op Unit)}
    (hrun : Run (machine threshold cooldownMs) Init h s)
    (hcareful : ∀ c ∈ h, Careful c.pre c.op) :
    (∀ c ∈ h, SingleProbe c.post ∧ ClosedByProbe c.pre c.op c.post ∧
        (c.post.breaker.state = .closed → .halfOpen ∉ c.post.inFlight)) ∧
      ∀ now op s', step threshold cooldownMs now s op = some s' →
        (KeepsProbe cooldownMs now s op s' ↔ Careful s op) := by
  constructor
  -- the call, in the state that the careful steps before it have left
  · intro c hc
    obtain ⟨h₁, h₂, rfl⟩ := List.append_of_mem hc
    obtain ⟨hpast, -, hexec⟩ := hrun.past
    have hcounted := counted_of_run hpast fun d hd =>
      hcareful d (List.mem_append_right h₁ (List.mem_cons_of_mem c hd))
    obtain ⟨hclosed, hpost⟩ := hcounted.step (hcareful c hc) (exec_eq_ok.mp hexec)
    -- a closed circuit has no flag, so no probe
    refine ⟨hpost.singleProbe, hclosed, fun hstate => ?_⟩
    apply List.count_eq_zero.mp
    rw [hpost.count, hpost.not_probeInFlight]
    · rfl
    · rw [hstate]
      exact CircuitBreakerState.noConfusion
  · intro now op s' hstep
    exact (counted_of_run hrun hcareful).keepsProbe_iff hstep

/-- Two calls are admitted before the circuit opens. One opens it, the first probe fails, the other
reports late to an open circuit, and the second probe closes it. -/
theorem probes_iff_careful_late : ∃ (h : List (Call State Op Unit)) (s : State),
    Run (machine 1 10) Init h s ∧
      (h.map fun c => c.post.breaker.state) =
        [.closed, .halfOpen, .opened, .opened, .halfOpen, .opened, .closed, .closed] ∧
      ∀ c ∈ h, SingleProbe c.post ∧ ClosedByProbe c.pre c.op c.post ∧
        (c.post.breaker.state = .closed → .halfOpen ∉ c.post.inFlight) := by
  have hplay : ((machine 1 10).play [] ⟨{}, []⟩
      [(0, .attempt), (0, .attempt), (1, .failure .closed), (11, .attempt),
        (12, .failure .halfOpen), (20, .failure .closed), (30, .attempt),
        (31, .success .halfOpen)]).map
      (fun x => (x.1.map fun c => c.post.breaker.state, decide (∀ c ∈ x.1, Careful c.pre c.op))) =
      some ([.closed, .halfOpen, .opened, .opened, .halfOpen, .opened, .closed, .closed],
        true) := by
    decide
  have hinit : Init ⟨{}, []⟩ := rfl
  obtain ⟨h, s, hrun, hview⟩ := Run.of_play hinit hplay
  obtain ⟨hstates, hcareful⟩ := Prod.mk.inj hview
  exact ⟨h, s, hrun, hstates, (probes_iff_careful hrun (of_decide_eq_true hcareful)).1⟩

/-- A call admitted before the circuit opened fails while the probe is in flight. After the next
cooldown there are two probes. -/
theorem two_probes : ¬ ∀ (threshold cooldownMs : ℕ) (h : List (Call State Op Unit)) (s : State),
    1 ≤ threshold → Run (machine threshold cooldownMs) Init h s →
      ∀ c ∈ h, SingleProbe c.post ∧ ClosedByProbe c.pre c.op c.post := by
  intro hclaim
  have hplay : ((machine 1 10).play [] ⟨{}, []⟩
      [(0, .attempt), (0, .attempt), (1, .failure .closed), (11, .attempt), (12, .failure .closed),
        (22, .attempt)]).map
      (fun x => (x.1.head?.map fun c => (c.post.breaker.state, c.post.inFlight))) =
      some (some (.halfOpen, [.halfOpen, .halfOpen])) := by
    decide
  have hinit : Init ⟨{}, []⟩ := rfl
  obtain ⟨h, s, hrun, hview⟩ := Run.of_play hinit hplay
  obtain ⟨c, hhead, hc⟩ := Option.map_eq_some_iff.mp hview
  obtain ⟨hstate, hflight⟩ := Prod.mk.inj hc
  have hsingle := (hclaim 1 10 h s le_rfl hrun c (List.mem_of_mem_head? hhead)).1
  have hne : c.post.breaker.state ≠ .closed := by
    rw [hstate]
    exact CircuitBreakerState.noConfusion
  have hle := hsingle hne
  rw [hflight] at hle
  exact absurd hle (by decide)

end CircuitBreaker
end KycService
end NbsBond
