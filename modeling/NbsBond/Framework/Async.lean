import NbsBond.Framework.Run

/-!
# Asynchronous functions

A server runs requests side by side on one event loop. A request is an `Async` function: it works
on the memory of the process without interruption, until it awaits the reply to a command that
something outside executes, a database or another service. Other requests run in between.

A `Service` gives the function of each request and says how a command is executed. In `State.step` a
request starts and runs up to its first `await`; the command of a request is executed at some later
time, against the store as it then is; the reply arrives at some time after that, and the request
runs up to its next `await`. Every order of these steps is possible.

`Async.Sat` is the weakest precondition of a function over the commands it may issue and the replies
it relies on, and `sat_bind` and `sat_tryCatch` compose it. `Step.holds` is the rule for claims
about runs: if the function of every request meets its specification, and every reply that is given
is one that the request relies on, then a step leaves all requests meeting theirs. Where requests
work on the memory before their first `await` only, what is left of them is `Quiet`, and the memory
changes at their starts only (`Step.memory`).
-/

/-- An asynchronous function: it returns or throws, works on the memory of its process, or awaits
the reply to a command. -/
inductive Async (μ κ : Type) (ρ : κ → Type) (ε α : Type) : Type
  | done (r : Except ε α)
  | sync (f : ℕ → μ → μ) (k : ℕ → μ → Async μ κ ρ ε α)
  | await (c : κ) (k : Except ε (ρ c) → Async μ κ ρ ε α)

namespace Async

variable {μ κ : Type} {ρ : κ → Type} {ε α β : Type}

/-- Run the second function on what the first returns. The recursion is on the first function; the
second starts where that returns, and not at all where it throws. -/
def bind : Async μ κ ρ ε α → (α → Async μ κ ρ ε β) → Async μ κ ρ ε β
  | .done (.ok a), f => f a
  | .done (.error e), _ => .done (.error e)
  | .sync m k, f => .sync m fun now x => (k now x).bind f
  | .await c k, f => .await c fun r => (k r).bind f

/-- Run the second function on what the first throws. What the second throws is not caught again. -/
def tryCatch : Async μ κ ρ ε α → (ε → Async μ κ ρ ε α) → Async μ κ ρ ε α
  | .done (.ok a), _ => .done (.ok a)
  | .done (.error e), f => f e
  | .sync m k, f => .sync m fun now x => (k now x).tryCatch f
  | .await c k, f => .await c fun r => (k r).tryCatch f

instance : Monad (Async μ κ ρ ε) where
  pure a := .done (.ok a)
  bind := Async.bind

instance : MonadExceptOf ε (Async μ κ ρ ε) where
  throw e := .done (.error e)
  tryCatch := Async.tryCatch

/-- Await the reply to a command; the promise may be rejected. -/
def call (c : κ) : Async μ κ ρ ε (ρ c) := .await c .done

/-- Work on the memory of the process. With the time of the moment; nothing else runs in between. -/
def modifyGet (f : ℕ → μ → μ × β) : Async μ κ ρ ε β :=
  .sync (fun now x => (f now x).1) fun now x => .done (.ok (f now x).2)

/-- `Date.now()`. -/
def now : Async μ κ ρ ε ℕ := modifyGet fun now x => (x, now)

/-! ### Weakest preconditions -/

/-- Commands with their replies, newest first. -/
abbrev Log (κ : Type) (ρ : κ → Type) (ε : Type) : Type := List (Σ c : κ, Except ε (ρ c))

variable {G : Log κ ρ ε → κ → Prop} {R : (c : κ) → Except ε (ρ c) → Prop}

/-- After each log the function only issues commands in `G`, and as long as the replies are in `R`,
its result is in `Q`. The log is what has been executed before, so that `G` and `Q` can speak of the
order of commands. -/
def Sat (G : Log κ ρ ε → κ → Prop) (R : (c : κ) → Except ε (ρ c) → Prop) :
    Async μ κ ρ ε α → Log κ ρ ε → (Log κ ρ ε → Except ε α → Prop) → Prop
  | .done r, log, Q => Q log r
  | .sync _ k, log, Q => ∀ now x, (k now x).Sat G R log Q
  | .await c k, log, Q => G log c ∧ ∀ r, R c r → (k r).Sat G R (⟨c, r⟩ :: log) Q

/-- A weaker result is ensured as well. The induction is on the function. -/
theorem Sat.mono {t : Async μ κ ρ ε α} {log : Log κ ρ ε} {Q Q' : Log κ ρ ε → Except ε α → Prop}
    (h : t.Sat G R log Q) (hQ : ∀ log r, Q log r → Q' log r) : t.Sat G R log Q' := by
  induction t generalizing log with
  | done r => exact hQ log r h
  -- The memory and the time may be any: nothing is assumed of what runs in between.
  | sync f k ih => exact fun now x => ih now x (h now x)
  | await c k ih => exact ⟨h.1, fun r hr => ih r (h.2 r hr)⟩

/-- Nothing is asked for, and nothing ensured. -/
theorem sat_true {t : Async μ κ ρ ε α} {log : Log κ ρ ε} :
    t.Sat (fun _ _ => True) (fun _ _ => True) log fun _ _ => True := by
  induction t generalizing log with
  | done r => trivial
  | sync f k ih => exact fun now x => ih now x
  | await c k ih => exact ⟨trivial, fun r _ => ih r⟩

/-- **Sequence rule.** The first function ensures what the second needs; what it throws skips the
second. -/
theorem sat_bind {t : Async μ κ ρ ε α} {f : α → Async μ κ ρ ε β} {log : Log κ ρ ε}
    {Q : Log κ ρ ε → Except ε β → Prop} {Q' : Log κ ρ ε → Except ε α → Prop}
    (ht : t.Sat G R log Q') (hok : ∀ log a, Q' log (.ok a) → (f a).Sat G R log Q)
    (herror : ∀ log e, Q' log (.error e) → Q log (.error e)) : (t >>= f).Sat G R log Q := by
  induction t generalizing log with
  -- Only here does the second function come in: the other two cases hand the claim on.
  | done r =>
    cases r with
    | ok a => exact hok log a ht
    | error e => exact herror log e ht
  | sync m k ih => exact fun now x => ih now x (ht now x)
  | await c k ih => exact ⟨ht.1, fun r hr => ih r (ht.2 r hr)⟩

/-- **Rule for `try` and `catch`.** What the function throws, the handler starts from. Between the
two the log goes on: the handler begins after what the function has done. -/
theorem sat_tryCatch {t : Async μ κ ρ ε α} {f : ε → Async μ κ ρ ε α} {log : Log κ ρ ε}
    {Q Q' : Log κ ρ ε → Except ε α → Prop} (ht : t.Sat G R log Q')
    (hok : ∀ log a, Q' log (.ok a) → Q log (.ok a))
    (herror : ∀ log e, Q' log (.error e) → (f e).Sat G R log Q) :
    (tryCatchThe ε t f).Sat G R log Q := by
  induction t generalizing log with
  | done r =>
    cases r with
    | ok a => exact hok log a ht
    | error e => exact herror log e ht
  | sync m k ih => exact fun now x => ih now x (ht now x)
  | await c k ih => exact ⟨ht.1, fun r hr => ih r (ht.2 r hr)⟩

/-- A function that returns at once. -/
theorem sat_pure {a : α} {log : Log κ ρ ε} {Q : Log κ ρ ε → Except ε α → Prop}
    (h : Q log (.ok a)) : (pure a : Async μ κ ρ ε α).Sat G R log Q := h

/-- One command, whose reply is the result. -/
theorem sat_call {c : κ} {log : Log κ ρ ε} {Q : Log κ ρ ε → Except ε (ρ c) → Prop} (hc : G log c)
    (hQ : ∀ r, R c r → Q (⟨c, r⟩ :: log) r) : (call c : Async μ κ ρ ε (ρ c)).Sat G R log Q :=
  ⟨hc, hQ⟩

/-- Work on the memory of the process, and go on. -/
theorem sat_modifyGet_bind {f : ℕ → μ → μ × α} {k : α → Async μ κ ρ ε β} {log : Log κ ρ ε}
    {Q : Log κ ρ ε → Except ε β → Prop} (h : ∀ a, (k a).Sat G R log Q) :
    (modifyGet f >>= k).Sat G R log Q :=
  fun now x => h (f now x).2

/-- Look at the clock, and go on. -/
theorem sat_now_bind {k : ℕ → Async μ κ ρ ε β} {log : Log κ ρ ε}
    {Q : Log κ ρ ε → Except ε β → Prop} (h : ∀ t, (k t).Sat G R log Q) :
    (now >>= k).Sat G R log Q :=
  sat_modifyGet_bind h

/-- A function that leaves the memory of the process as it is. -/
def Quiet : Async μ κ ρ ε α → Prop
  | .done _ => True
  | .sync f k => ∀ now x, f now x = x ∧ (k now x).Quiet
  | .await _ k => ∀ r, (k r).Quiet

/-- Both parts are quiet, so the whole is. -/
theorem quiet_bind {t : Async μ κ ρ ε α} {f : α → Async μ κ ρ ε β} (ht : t.Quiet)
    (hf : ∀ a, (f a).Quiet) : (t >>= f).Quiet := by
  induction t with
  | done r =>
    cases r with
    | ok a => exact hf a
    | error e => trivial
  | sync m k ih => exact fun now x => ⟨(ht now x).1, ih now x (ht now x).2⟩
  | await c k ih => exact fun r => ih r (ht r)

/-- The same for a handler. -/
theorem quiet_tryCatch {t : Async μ κ ρ ε α} {f : ε → Async μ κ ρ ε α} (ht : t.Quiet)
    (hf : ∀ e, (f e).Quiet) : (tryCatchThe ε t f).Quiet := by
  induction t with
  | done r =>
    cases r with
    | ok a => trivial
    | error e => exact hf e
  | sync m k ih => exact fun now x => ⟨(ht now x).1, ih now x (ht now x).2⟩
  | await c k ih => exact fun r => ih r (ht r)

/-- To await is not to work on the memory. -/
theorem quiet_call {c : κ} : (call c : Async μ κ ρ ε (ρ c)).Quiet := fun _ => trivial

/-! ### Requests -/

/-- Where a request stands. Between `issued` and `replied` the store may be changed by others, and
between `replied` and the next stage the memory. -/
inductive Stage (μ κ : Type) (ρ : κ → Type) (ε α : Type) : Type
  /-- The command has been issued. -/
  | issued (c : κ) (k : Except ε (ρ c) → Async μ κ ρ ε α)
  /-- The command has been executed, and the reply is on its way to this function. -/
  | replied (t : Async μ κ ρ ε α)
  | finished (r : Except ε α)

/-- Run up to the next `await`. What runs here runs without interruption. -/
def settle (now : ℕ) : Async μ κ ρ ε α → μ → μ × Stage μ κ ρ ε α
  | .done r, x => (x, .finished r)
  | .sync f k, x => settle now (k now x) (f now x)
  | .await c k, x => (x, .issued c k)

/-- What is left of a function satisfies its specification. -/
def Stage.Sat (G : Log κ ρ ε → κ → Prop) (R : (c : κ) → Except ε (ρ c) → Prop) :
    Stage μ κ ρ ε α → Log κ ρ ε → (Log κ ρ ε → Except ε α → Prop) → Prop
  | .issued c k, log, Q => (Async.await c k).Sat G R log Q
  | .replied t, log, Q => t.Sat G R log Q
  | .finished r, log, Q => Q log r

/-- Running on keeps what was to be shown of the rest: no reply has been given. -/
theorem settle_sat {t : Async μ κ ρ ε α} {log : Log κ ρ ε} {Q : Log κ ρ ε → Except ε α → Prop}
    {now : ℕ} {x : μ} (h : t.Sat G R log Q) : (settle now t x).2.Sat G R log Q := by
  induction t generalizing x with
  | done r => exact h
  | sync f k ih => exact ih now x (h now x)
  | await c k ih => exact h

/-- What is left of a function leaves the memory of the process as it is. -/
def Stage.Quiet : Stage μ κ ρ ε α → Prop
  | .issued _ k => ∀ r, (k r).Quiet
  | .replied t => t.Quiet
  | .finished _ => True

/-- A quiet function settles without touching the memory. -/
theorem settle_quiet {t : Async μ κ ρ ε α} (now : ℕ) (x : μ) (ht : t.Quiet) :
    (settle now t x).1 = x ∧ (settle now t x).2.Quiet := by
  induction t generalizing x with
  | done r => exact ⟨rfl, trivial⟩
  | sync f k ih =>
    obtain ⟨hf, hk⟩ := ht now x
    -- The first statement leaves the memory as it is, and so does the rest of the run.
    rw [settle, hf]
    exact ih now x x hk
  | await c k ih => exact ⟨rfl, ht⟩

/-- A function that may issue no more commands finishes. -/
theorem settle_finished {t : Async μ κ ρ ε α} {log : Log κ ρ ε}
    {Q : Log κ ρ ε → Except ε α → Prop} (now : ℕ) (x : μ) (h : t.Sat G R log Q)
    (hG : ∀ c, ¬ G log c) : ∃ r, (settle now t x).2 = .finished r ∧ Q log r := by
  induction t generalizing x with
  | done r => exact ⟨r, rfl, h⟩
  | sync f k ih => exact ih now x (f now x) (h now x)
  | await c k ih => exact absurd h.1 (hG c)

/-- A request, the commands of it that have been executed, and where it stands. The log has the
newest command first. -/
structure Thread (ω μ κ : Type) (ρ : κ → Type) (ε α : Type) where
  request : ω
  log : Log κ ρ ε
  stage : Stage μ κ ρ ε α

/-- What the commands work on, the memory of the process, and all requests so far. Requests are
known by their position, and stay in the list when they have finished. -/
structure State (σ ω μ κ : Type) (ρ : κ → Type) (ε α : Type) where
  store : σ
  memory : μ
  threads : List (Thread ω μ κ ρ ε α)

/-- One step. -/
inductive Op (ω ι : Type) where
  | start (request : ω)
  /-- The command of a request is executed; the input is what the environment decides. -/
  | execute (i : ℕ) (input : ι)
  /-- The reply arrives. -/
  | resume (i : ℕ)
  deriving DecidableEq, Repr

/-- The function of each request, and the execution of commands. The answer of `handle` is `none`
where the input does not fit the command. -/
structure Service (σ ω μ κ : Type) (ρ : κ → Type) (ε α ι : Type) where
  program : ω → Async μ κ ρ ε α
  handle : ℕ → σ → (c : κ) → ι → Option (σ × Except ε (ρ c))

variable {σ ω ι : Type}

/-- The effect of a step; `none` if it cannot take place. A request that has finished takes part in
no step any more. -/
def Service.step (S : Service σ ω μ κ ρ ε α ι) (now : ℕ) (s : State σ ω μ κ ρ ε α) :
    Op ω ι → Option (State σ ω μ κ ρ ε α)
  | .start q =>
    let x := settle now (S.program q) s.memory
    some { s with memory := x.1, threads := s.threads ++ [⟨q, [], x.2⟩] }
  | .execute i input => do
    match (← s.threads[i]?) with
    | ⟨q, log, .issued c k⟩ =>
      let (store, r) ← S.handle now s.store c input
      some { s with store, threads := s.threads.set i ⟨q, ⟨c, r⟩ :: log, .replied (k r)⟩ }
    | _ => none
  | .resume i => do
    match (← s.threads[i]?) with
    | ⟨q, log, .replied t⟩ =>
      let x := settle now t s.memory
      some { s with memory := x.1, threads := s.threads.set i ⟨q, log, x.2⟩ }
    | _ => none

open Soroban in
/-- Requests in any interleaving. -/
def Service.machine (S : Service σ ω μ κ ρ ε α ι) :
    Machine (State σ ω μ κ ρ ε α) (Op ω ι) Unit Unit :=
  ⟨fun now s op => orTrap ((S.step now s op).map fun s' => (s', ()))⟩

/-- **What a step does.** It is one of three, each with what it needs and what it changes. -/
inductive Step (S : Service σ ω μ κ ρ ε α ι) (now : ℕ) (s : State σ ω μ κ ρ ε α) :
    Op ω ι → State σ ω μ κ ρ ε α → Prop
  | start (q : ω) :
      Step S now s (.start q)
        { s with
          memory := (settle now (S.program q) s.memory).1
          threads := s.threads ++ [⟨q, [], (settle now (S.program q) s.memory).2⟩] }
  | execute {i : ℕ} {input : ι} {q : ω} {log : Log κ ρ ε} {c : κ}
      {k : Except ε (ρ c) → Async μ κ ρ ε α} {store : σ} {r : Except ε (ρ c)}
      (hthread : s.threads[i]? = some ⟨q, log, .issued c k⟩)
      (hhandle : S.handle now s.store c input = some (store, r)) :
      Step S now s (.execute i input)
        { s with store, threads := s.threads.set i ⟨q, ⟨c, r⟩ :: log, .replied (k r)⟩ }
  | resume {i : ℕ} {q : ω} {log : Log κ ρ ε} {t : Async μ κ ρ ε α}
      (hthread : s.threads[i]? = some ⟨q, log, .replied t⟩) :
      Step S now s (.resume i)
        { s with
          memory := (settle now t s.memory).1
          threads := s.threads.set i ⟨q, log, (settle now t s.memory).2⟩ }

variable {S : Service σ ω μ κ ρ ε α ι} {now : ℕ} {s s' : State σ ω μ κ ρ ε α} {op : Op ω ι}

/-- A step that is computed is one of the three kinds. -/
theorem Step.of_step (h : S.step now s op = some s') : Step S now s op s' := by
  cases op with
  | start q =>
    cases h
    exact .start q
  | execute i input =>
    simp only [Service.step, Option.bind_eq_bind, Option.bind_eq_some_iff] at h
    obtain ⟨⟨q, log, stage⟩, hthread, h⟩ := h
    -- Only an issued command can be executed.
    cases stage with
    | issued c k =>
      obtain ⟨⟨store, r⟩, hhandle, heq⟩ := Option.bind_eq_some_iff.mp h
      cases heq
      exact .execute hthread hhandle
    | replied t => cases h
    | finished r => cases h
  | resume i =>
    simp only [Service.step, Option.bind_eq_bind, Option.bind_eq_some_iff] at h
    obtain ⟨⟨q, log, stage⟩, hthread, h⟩ := h
    -- Only a reply that was given can arrive.
    cases stage with
    | issued c k => cases h
    | replied t =>
      cases h
      exact .resume hthread
    | finished r => cases h

theorem Step.of_exec {r : Unit} (h : S.machine.exec now s op = .ok (s', r)) :
    Step S now s op s' := by
  obtain ⟨s₁, hstep, heq⟩ := Option.map_eq_some_iff.mp (Soroban.orTrap_eq_ok.mp h)
  cases heq
  exact .of_step hstep

/-! ### Rules -/

/-- The command that has been issued and not been executed. -/
def Stage.pending : Stage μ κ ρ ε α → Option κ
  | .issued c _ => some c
  | _ => none

/-- The command that a request has issued and that has not been executed. -/
def State.pending (s : State σ ω μ κ ρ ε α) (i : ℕ) : Option κ :=
  s.threads[i]?.bind fun thread => thread.stage.pending

theorem pending_eq_some {i : ℕ} {c : κ} :
    s.pending i = some c ↔ ∃ q log k, s.threads[i]? = some ⟨q, log, .issued c k⟩ := by
  constructor
  · intro h
    obtain ⟨⟨q, log, stage⟩, hthread, hstage⟩ := Option.bind_eq_some_iff.mp h
    cases stage with
    | issued c' k =>
      cases hstage
      exact ⟨q, log, k, hthread⟩
    | replied t => cases hstage
    | finished r => cases hstage
  · rintro ⟨q, log, k, hthread⟩
    rw [State.pending, hthread]
    rfl

/-- A request with a pending command has begun. -/
theorem lt_of_pending {i : ℕ} {c : κ} (h : s.pending i = some c) : i < s.threads.length := by
  obtain ⟨q, log, k, hthread⟩ := pending_eq_some.mp h
  exact (List.getElem?_eq_some_iff.mp hthread).1

/-- What a request has returned or thrown. -/
def Stage.result : Stage μ κ ρ ε α → Option (Except ε α)
  | .finished r => some r
  | _ => none

/-- A request that has finished, with what it has returned or thrown. -/
def State.result (s : State σ ω μ κ ρ ε α) (i : ℕ) : Option (ω × Except ε α) :=
  s.threads[i]?.bind fun thread => thread.stage.result.map fun r => (thread.request, r)

theorem result_eq_some {i : ℕ} {q : ω} {r : Except ε α} :
    s.result i = some (q, r) ↔ ∃ log, s.threads[i]? = some ⟨q, log, .finished r⟩ := by
  constructor
  · intro h
    obtain ⟨⟨q', log, stage⟩, hthread, hresult⟩ := Option.bind_eq_some_iff.mp h
    cases stage with
    | issued c k => cases hresult
    | replied t => cases hresult
    | finished r' =>
      cases hresult
      exact ⟨log, hthread⟩
  · rintro ⟨log, hthread⟩
    rw [State.result, hthread]
    rfl

/-- A request has executed a command with this reply. -/
def Executed (s : State σ ω μ κ ρ ε α) (i : ℕ) (c : κ) (r : Except ε (ρ c)) : Prop :=
  ∃ thread ∈ s.threads[i]?, ⟨c, r⟩ ∈ thread.log

instance [DecidableEq κ] [∀ c, DecidableEq (ρ c)] [DecidableEq ε] (s : State σ ω μ κ ρ ε α)
    (i : ℕ) (c : κ) (r : Except ε (ρ c)) : Decidable (Executed s i c r) :=
  inferInstanceAs (Decidable (∃ thread ∈ s.threads[i]?, _))

/-- Requests are never forgotten. -/
theorem Step.length_le (h : Step S now s op s') : s.threads.length ≤ s'.threads.length := by
  cases h with
  | start q => simp
  | execute hthread hhandle => simp
  | resume hthread => simp

/-- What a step does to one request: nothing, or it is the request of the step. -/
theorem Step.thread {i : ℕ} {thread : Thread ω μ κ ρ ε α} (h : Step S now s op s')
    (hthread : s'.threads[i]? = some thread) :
    s.threads[i]? = some thread ∨
      (i = s.threads.length ∧ ∃ q, op = .start q ∧
        thread = ⟨q, [], (settle now (S.program q) s.memory).2⟩) ∨
      (∃ input q log c k r, op = .execute i input ∧
        s.threads[i]? = some ⟨q, log, .issued c k⟩ ∧
        S.handle now s.store c input = some (s'.store, r) ∧
        thread = ⟨q, ⟨c, r⟩ :: log, .replied (k r)⟩) ∨
      ∃ q log t, op = .resume i ∧ s.threads[i]? = some ⟨q, log, .replied t⟩ ∧
        thread = ⟨q, log, (settle now t s.memory).2⟩ := by
  cases h with
  -- A start adds one thread at the end and leaves the others alone.
  | start q =>
    rcases lt_or_ge i s.threads.length with hlt | hge
    · rw [List.getElem?_append_left hlt] at hthread
      exact .inl hthread
    · rw [List.getElem?_append_right hge, List.getElem?_singleton] at hthread
      split at hthread
      · next hzero =>
        exact .inr (.inl ⟨by omega, q, rfl, (Option.some.inj hthread).symm⟩)
      · cases hthread
  | @execute j input q log c k store r hold hhandle =>
    rw [List.getElem?_set] at hthread
    -- Below, the request of the step is told from all others by its position.
    split at hthread
    · next hij =>
      subst hij
      rw [if_pos (List.getElem?_eq_some_iff.mp hold).1] at hthread
      exact .inr (.inr (.inl
        ⟨input, q, log, c, k, r, rfl, hold, hhandle, (Option.some.inj hthread).symm⟩))
    · exact .inl hthread
  | @resume j q log t hold =>
    rw [List.getElem?_set] at hthread
    split at hthread
    · next hij =>
      subst hij
      rw [if_pos (List.getElem?_eq_some_iff.mp hold).1] at hthread
      exact .inr (.inr (.inr ⟨q, log, t, rfl, hold, (Option.some.inj hthread).symm⟩))
    · exact .inl hthread

/-- The store changes by the execution of a command only. -/
theorem Step.store (h : Step S now s op s') :
    s'.store = s.store ∨ ∃ i input c r, op = .execute i input ∧ s.pending i = some c ∧
      S.handle now s.store c input = some (s'.store, r) ∧ Executed s' i c r := by
  cases h with
  | start q => exact .inl rfl
  | @execute i input q log c k store r hthread hhandle =>
    have hlt := (List.getElem?_eq_some_iff.mp hthread).1
    exact .inr ⟨i, input, c, r, rfl, pending_eq_some.mpr ⟨q, log, k, hthread⟩, hhandle,
      _, List.getElem?_set_self hlt, List.mem_cons_self⟩
  | resume hthread => exact .inl rfl

/-- A command was executed before this step, or is by this step. -/
theorem Step.executed {i : ℕ} {c : κ} {r : Except ε (ρ c)} (h : Step S now s op s')
    (hexec : Executed s' i c r) :
    Executed s i c r ∨ ∃ input, op = .execute i input ∧ s.pending i = some c ∧
      S.handle now s.store c input = some (s'.store, r) := by
  obtain ⟨thread, hthread, hmem⟩ := hexec
  -- The kinds of step by what they do to the thread of `i`: nothing, its start, its command, its
  -- next part.
  rcases h.thread hthread with hold | ⟨-, q, -, rfl⟩ |
    ⟨input, q, log, c', k, r', hop, hold, hhandle, rfl⟩ | ⟨q, log, t, -, hold, rfl⟩
  · exact .inl ⟨thread, hold, hmem⟩
  · cases hmem
  · rcases List.mem_cons.mp hmem with heq | hmem
    -- The new entry of the log is the command of this very step.
    · cases heq
      exact .inr ⟨input, hop, pending_eq_some.mpr ⟨q, log, k, hold⟩, hhandle⟩
    · exact .inl ⟨_, hold, hmem⟩
  · exact .inl ⟨_, hold, hmem⟩

/-- The `i`-th request. -/
def State.request (s : State σ ω μ κ ρ ε α) (i : ℕ) : Option ω :=
  s.threads[i]?.map Thread.request

/-- Requests keep their numbers, and what they have executed stays executed. -/
theorem Step.kept {i : ℕ} {thread : Thread ω μ κ ρ ε α} (h : Step S now s op s')
    (hthread : s.threads[i]? = some thread) :
    ∃ thread', s'.threads[i]? = some thread' ∧ thread'.request = thread.request ∧
      thread.log ⊆ thread'.log := by
  have hlt := (List.getElem?_eq_some_iff.mp hthread).1
  -- The thread is replaced by one with the same request, or is another than that of the step.
  cases h with
  | start q =>
    refine ⟨thread, ?_, rfl, List.Subset.refl _⟩
    rw [List.getElem?_append_left hlt]
    exact hthread
  | @execute j input q log c k store r hold hhandle =>
    rcases eq_or_ne j i with rfl | hne
    · rw [hold] at hthread
      cases hthread
      exact ⟨_, List.getElem?_set_self hlt, rfl, List.subset_cons_self _ _⟩
    · refine ⟨thread, ?_, rfl, List.Subset.refl _⟩
      rw [List.getElem?_set_ne hne]
      exact hthread
  | @resume j q log t hold =>
    rcases eq_or_ne j i with rfl | hne
    · rw [hold] at hthread
      cases hthread
      exact ⟨_, List.getElem?_set_self hlt, rfl, List.Subset.refl _⟩
    · refine ⟨thread, ?_, rfl, List.Subset.refl _⟩
      rw [List.getElem?_set_ne hne]
      exact hthread

/-- A request is never exchanged for another one. -/
theorem Step.request {i : ℕ} {q : ω} (h : Step S now s op s') (hq : s.request i = some q) :
    s'.request i = some q := by
  obtain ⟨thread, hthread, rfl⟩ := Option.map_eq_some_iff.mp hq
  obtain ⟨thread', hthread', hrequest, -⟩ := h.kept hthread
  exact Option.map_eq_some_iff.mpr ⟨thread', hthread', hrequest⟩

/-- The log of a request only grows. -/
theorem Executed.step {i : ℕ} {c : κ} {r : Except ε (ρ c)} (hexec : Executed s i c r)
    (h : Step S now s op s') : Executed s' i c r := by
  obtain ⟨thread, hthread, hmem⟩ := hexec
  obtain ⟨thread', hthread', -, hlog⟩ := h.kept hthread
  exact ⟨thread', hthread', hlog hmem⟩

/-- What is left of all requests leaves the memory of the process as it is. -/
def State.Quiet (s : State σ ω μ κ ρ ε α) : Prop := ∀ thread ∈ s.threads, thread.stage.Quiet

/-- **One step**, where every new request is quiet from its first `await` on. So only the start of a
request works on the memory of the process. -/
theorem Step.quiet (h : Step S now s op s') (hs : s.Quiet)
    (hstart : ∀ q, (settle now (S.program q) s.memory).2.Quiet) : s'.Quiet := by
  cases h with
  | start q =>
    intro thread hmem
    rcases List.mem_append.mp hmem with hmem | hmem
    · exact hs thread hmem
    · rw [List.mem_singleton.mp hmem]
      exact hstart q
  -- What is left after a command is the continuation of what was quiet before.
  | @execute i input q log c k store r hthread hhandle =>
    intro thread hmem
    rcases List.mem_or_eq_of_mem_set hmem with hmem | rfl
    · exact hs thread hmem
    · exact hs _ (List.mem_of_getElem? hthread) r
  | @resume i q log t hthread =>
    intro thread hmem
    rcases List.mem_or_eq_of_mem_set hmem with hmem | rfl
    · exact hs thread hmem
    · exact (settle_quiet now s.memory (hs _ (List.mem_of_getElem? hthread))).2

/-- The memory changes at the start of a request only. -/
theorem Step.memory (h : Step S now s op s') (hs : s.Quiet) :
    s'.memory = s.memory ∨
      ∃ q, op = .start q ∧ s'.memory = (settle now (S.program q) s.memory).1 := by
  cases h with
  | start q => exact .inr ⟨q, rfl, rfl⟩
  | execute hthread hhandle => exact .inl rfl
  -- The part that runs is quiet, so it leaves the memory as it is.
  | resume hthread =>
    exact .inl (settle_quiet now s.memory (hs _ (List.mem_of_getElem? hthread))).1

/-- What each request may issue, relies on, and results in. `issues` looks at the log so far, so
that a command may depend on what was answered before it. -/
structure Spec (ω κ : Type) (ρ : κ → Type) (ε α : Type) where
  issues : ω → Log κ ρ ε → κ → Prop
  relies : ω → (c : κ) → Except ε (ρ c) → Prop
  ensures : ω → Log κ ρ ε → Except ε α → Prop

/-- A function meets the specification of a request. -/
def Spec.Meets (P : Spec ω κ ρ ε α) (q : ω) (t : Async μ κ ρ ε α) (log : Log κ ρ ε) : Prop :=
  t.Sat (P.issues q) (P.relies q) log (P.ensures q)

/-- Every request from the `n`-th on meets its specification. -/
def Spec.Holds (P : Spec ω κ ρ ε α) (n : ℕ) (s : State σ ω μ κ ρ ε α) : Prop :=
  ∀ i thread, n ≤ i → s.threads[i]? = some thread →
    thread.stage.Sat (P.issues thread.request) (P.relies thread.request) thread.log
      (P.ensures thread.request)

variable {P : Spec ω κ ρ ε α} {n : ℕ}

/-- **One step.** Requests that meet their specification still do, if a new one does and the reply
to a command is one that its request relies on. -/
theorem Step.holds (h : Step S now s op s') (hs : P.Holds n s)
    (hstart : ∀ q, op = .start q → P.Meets q (S.program q) [])
    (hreply : ∀ i input q log c k r, op = .execute i input → n ≤ i →
      s.threads[i]? = some ⟨q, log, .issued c k⟩ →
      S.handle now s.store c input = some (s'.store, r) → P.relies q c r) : P.Holds n s' := by
  intro i thread hi hthread
  -- A thread that the step does not touch, a new one, one that gets a reply, and one that runs on.
  rcases h.thread hthread with hold | ⟨-, q, hop, rfl⟩ |
    ⟨input, q, log, c, k, r, hop, hold, hhandle, rfl⟩ | ⟨q, log, t, hop, hold, rfl⟩
  · exact hs i thread hi hold
  · exact settle_sat (hstart q hop)
  -- What was to be shown of the pending command holds for every reply that it relies on.
  · exact (hs i _ hi hold).2 r (hreply i input q log c k r hop hi hold hhandle)
  · exact settle_sat (hs i _ hi hold)

/-- A request that has finished has the result its specification ensures. -/
theorem Spec.Holds.ensures {i : ℕ} {q : ω} {r : Except ε α} (hs : P.Holds n s) (hi : n ≤ i)
    (hresult : s.result i = some (q, r)) :
    ∃ thread ∈ s.threads[i]?, P.ensures q thread.log r := by
  obtain ⟨log, hthread⟩ := result_eq_some.mp hresult
  exact ⟨_, hthread, hs i _ hi hthread⟩

/-- Every command in a log is one that its request may issue after the commands before it. -/
def Spec.Logged (P : Spec ω κ ρ ε α) (s : State σ ω μ κ ρ ε α) : Prop :=
  ∀ i : ℕ, ∀ thread ∈ s.threads[i]?, ∀ e log, e :: log <:+ thread.log →
    P.issues thread.request log e.1

/-- **The order of commands.** What is added to a log was allowed after that log. It is what a claim
about the order of two commands of one request comes down to. -/
theorem Step.logged (h : Step S now s op s') (hs : P.Holds 0 s) (hl : P.Logged s) :
    P.Logged s' := by
  intro i thread hthread e before hsuffix
  rcases h.thread hthread with hold | ⟨-, q, -, rfl⟩ |
    ⟨input, q, log, c, k, r, -, hold, -, rfl⟩ | ⟨q, log, t, -, hold, rfl⟩
  · exact hl i thread hold e before hsuffix
  · cases List.suffix_nil.mp hsuffix
  -- The command of this step, or one that was in the log already.
  · rcases List.suffix_cons_iff.mp hsuffix with heq | hsuffix
    · cases heq
      exact (hs i _ (Nat.zero_le i) hold).1
    · exact hl i _ hold e before hsuffix
  · exact hl i _ hold e before hsuffix

/-- A command that is pending is one that its request may issue. -/
theorem Spec.Holds.issues {i : ℕ} {c : κ} (hs : P.Holds n s) (hi : n ≤ i)
    (hpending : s.pending i = some c) :
    ∃ thread ∈ s.threads[i]?, P.issues thread.request thread.log c := by
  obtain ⟨q, log, k, hthread⟩ := pending_eq_some.mp hpending
  exact ⟨_, hthread, (hs i _ hi hthread).1⟩

/-- An execution that goes through, computed. -/
theorem Service.exec_execute {i : ℕ} {input : ι} {q : ω} {log : Log κ ρ ε} {c : κ}
    {k : Except ε (ρ c) → Async μ κ ρ ε α} {store : σ} {r : Except ε (ρ c)}
    (hthread : s.threads[i]? = some ⟨q, log, .issued c k⟩)
    (hhandle : S.handle now s.store c input = some (store, r)) :
    S.machine.exec now s (.execute i input) = .ok
      ({ s with store, threads := s.threads.set i ⟨q, ⟨c, r⟩ :: log, .replied (k r)⟩ }, ()) := by
  simp only [machine, step, hthread, Option.bind_eq_bind, Option.bind_some, hhandle]
  rfl

/-- A reply that arrives, computed. -/
theorem Service.exec_resume (now : ℕ) {i : ℕ} {q : ω} {log : Log κ ρ ε} {t : Async μ κ ρ ε α}
    (hthread : s.threads[i]? = some ⟨q, log, .replied t⟩) :
    S.machine.exec now s (.resume i) = .ok
      ({ s with
          memory := (settle now t s.memory).1
          threads := s.threads.set i ⟨q, log, (settle now t s.memory).2⟩ }, ()) := by
  simp only [machine, step, hthread, Option.bind_eq_bind, Option.bind_some]
  rfl

/-- A request that finishes when its reply arrives. -/
theorem Service.resume_finished {i : ℕ} {q : ω} {log : Log κ ρ ε} {t : Async μ κ ρ ε α}
    {r : Except ε α} (hthread : s.threads[i]? = some ⟨q, log, .replied t⟩)
    (hsettle : (settle now t s.memory).2 = .finished r) :
    ∃ s', S.step now s (.resume i) = some s' ∧ s'.result i = some (q, r) := by
  have hlt := (List.getElem?_eq_some_iff.mp hthread).1
  simp only [step, hthread, Option.bind_eq_bind, Option.bind_some]
  refine ⟨_, rfl, result_eq_some.mpr ⟨log, ?_⟩⟩
  dsimp only
  rw [List.getElem?_set_self hlt, hsettle]

open Soroban in
/-- A request that awaits one command and is not interrupted. -/
theorem Service.run_alone {Init : State σ ω μ κ ρ ε α → Prop}
    {h : List (Call (State σ ω μ κ ρ ε α) (Op ω ι) Unit)} {q : ω} {c : κ}
    {k : Except ε (ρ c) → Async μ κ ρ ε α} {input : ι} {store : σ} {r : Except ε (ρ c)} {x y : μ}
    {result : Except ε α} (hrun : Run S.machine Init h s) (ht : lastTime h ≤ now)
    (hstart : settle now (S.program q) s.memory = (x, .issued c k))
    (hhandle : S.handle now s.store c input = some (store, r))
    (hresume : settle now (k r) x = (y, .finished result)) :
    ∃ h', Run S.machine Init (h' ++ h)
        ⟨store, y, s.threads ++ [⟨q, [⟨c, r⟩], .finished result⟩]⟩ ∧
      lastTime (h' ++ h) = now ∧
      (h'.map fun d => (d.time, d.op)) = [(now, .resume s.threads.length),
        (now, .execute s.threads.length input), (now, .start q)] := by
  have hset : ∀ t t' : Thread ω μ κ ρ ε α,
      (s.threads ++ [t]).set s.threads.length t' = s.threads ++ [t'] := by
    intro t t'
    rw [List.set_append_right _ _ le_rfl, Nat.sub_self]
    rfl
  have h₁ : S.machine.exec now s (.start q) =
      .ok (⟨s.store, x, s.threads ++ [⟨q, [], .issued c k⟩]⟩, ()) := by
    simp only [machine, step, hstart]
    rfl
  have h₂ := S.exec_execute (s := ⟨s.store, x, s.threads ++ [⟨q, [], .issued c k⟩]⟩)
    List.getElem?_concat_length hhandle
  rw [hset] at h₂
  have h₃ := S.exec_resume (s := ⟨store, x, s.threads ++ [⟨q, [⟨c, r⟩], .replied (k r)⟩]⟩) now
    List.getElem?_concat_length
  rw [hset, hresume] at h₃
  exact ⟨[_, _, _], ((hrun.call ht h₁).call le_rfl h₂).call le_rfl h₃, rfl, rfl⟩

end Async
